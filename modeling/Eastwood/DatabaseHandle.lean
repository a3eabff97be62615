import Eastwood.Accounts

/-!
# The handle of the database

`Database` holds a handle of SQLite and a flag, and takes both for the same:
`isInitialized` asks whether the handle is a null pointer, `initialize`
whether the flag is set. They come apart where `initialize` fails behind
`sqlite3_open`. A handle that was opened and not verified is kept; one that
was closed is kept too, and after `sqlite3_key` has failed it is even asked
for its message.

A handle is used while it is open and closed once, and is held exactly if it
is verified, as long as every `initialize` succeeds or fails before it has a
handle (`paired_iff`).
-/

open Throwing

/-! ## Handles -/

/-- What is done to a handle; handles are numbered as they are opened. -/
inductive HandleEvent where
  | opened (handle : ℕ)
  | used (handle : ℕ)
  | verified (handle : ℕ)
  | closed (handle : ℕ)
  deriving DecidableEq

/-- **A database object**: its fields, and all that was done to handles, in
order. -/
structure Database where
  db : Option ℕ
  initialized : Bool
  username : String
  log : List HandleEvent
  next : ℕ

/-- How `sqlite3_open` goes. A failure leaves a handle, unless there is no
memory for one. -/
inductive OpenResult where
  | ok
  | failed (handle : Bool)
  deriving DecidableEq

/-- What the steps of `initialize` are answered. -/
structure Opening where
  username : String
  encrypted : Bool
  pathMade : Bool
  opened : OpenResult
  keyed : Bool
  verified : Bool

/-- The handle it is done to. -/
def HandleEvent.handle : HandleEvent → ℕ
  | opened handle => handle
  | used handle => handle
  | verified handle => handle
  | closed handle => handle

namespace Database

/-- `Database::Database`. -/
def start : Database := ⟨none, false, "", [], 0⟩

/-- `Database::isInitialized`. -/
def isInitialized (d : Database) : Bool := d.db.isSome

/-- Something is done to the handle that is pointed to, if one is. -/
def note (event : ℕ → HandleEvent) (d : Database) : Database :=
  match d.db with
  | some handle => { d with log := d.log ++ [event handle] }
  | none => d

/-- `sqlite3_open`, into the field. -/
def sqliteOpen (result : OpenResult) (d : Database) : Database :=
  if result = .failed false then { d with db := none }
  else { d with db := some d.next, next := d.next + 1, log := d.log ++ [.opened d.next] }

@[simp] theorem note_initialized (event : ℕ → HandleEvent) (d : Database) :
    (d.note event).initialized = d.initialized := by
  unfold note
  split
  · rfl
  · rfl

@[simp] theorem sqliteOpen_initialized (result : OpenResult) (d : Database) :
    (d.sqliteOpen result).initialized = d.initialized := by
  unfold sqliteOpen
  split
  · rfl
  · rfl

/-- **`Database::initialize`.** -/
def initializeHandle (o : Opening) : Throwing Database Fault Unit := fun d =>
  if d.initialized then (.ok (), d)
  else if ¬ o.pathMade then (.error (.runtimeError "Failed to access datapath"), d)
  else
    let d := d.sqliteOpen o.opened
    if o.opened ≠ .ok then
      -- the message of the handle
      (.error (.runtimeError "Can't open database:"), d.note .used)
    else
      let d := if o.encrypted then d.note .used else d
      if o.encrypted ∧ ¬ o.keyed then
        -- its message, once before it is closed and once after
        (.error (.runtimeError "Can't set encryption key:"),
          ((d.note .used).note .closed).note .used)
      else
        let d := d.note .used
        if ¬ o.verified then
          (.error (.runtimeError "Database verification failed: "), d.note .closed)
        else (.ok (), { d.note .verified with initialized := true, username := o.username })

/-- **`Database::closeDatabase`**, and the destructor. -/
def closeDatabase : Throwing Database Fault Unit := modify fun d =>
  if d.db.isSome then { d.note .closed with db := none, initialized := false } else d

end Database

/-- The calls there are; the destructor is the last of them. -/
inductive DatabaseCall where
  | initializes (o : Opening)
  | closes
  | destroys

/-- A call. -/
def DatabaseCall.run : DatabaseCall → Throwing Database Fault Unit
  | initializes o => Database.initializeHandle o
  | closes => Database.closeDatabase
  | destroys => Database.closeDatabase

/-! ## Pairs -/

namespace Database

/-- Of two events in a row, the second is not of a handle the first closed. -/
def StaysClosed (earlier later : HandleEvent) : Prop :=
  ∀ handle, earlier = .closed handle → later ≠ .closed handle ∧ later ≠ .used handle

/-- **Handles are opened and closed in pairs**: each is closed once at most
and not used then, and the object calls itself initialized exactly if it
holds one that is open and verified. -/
structure Paired (d : Database) : Prop where
  closed : d.log.Pairwise StaysClosed
  isInitialized_iff : d.isInitialized
    ↔ ∃ handle, d.db = some handle ∧ .verified handle ∈ d.log ∧ .closed handle ∉ d.log

/-- **What holds between calls** while all goes well: the flag is set where
there is a handle, and it is open and verified; and the next handle is new. -/
structure Held (d : Database) : Prop where
  closed : d.log.Pairwise StaysClosed
  initialized_eq : d.initialized = d.db.isSome
  held : ∀ handle, d.db = some handle → .verified handle ∈ d.log ∧ .closed handle ∉ d.log
  fresh : ∀ event ∈ d.log, event.handle < d.next

/-- **An opening goes well**: where it is tried it succeeds, or fails before
there is a handle. -/
def GoesWell (o : Opening) (d : Database) : Prop :=
  d.initialized ∨ ¬ o.pathMade ∨ o.opened = .failed false
    ∨ o.opened = .ok ∧ (o.encrypted → o.keyed) ∧ o.verified

variable {d : Database} {o : Opening}

theorem held_start : start.Held := ⟨.nil, rfl, nofun, nofun⟩

theorem Held.paired (h : d.Held) : d.Paired where
  closed := h.closed
  isInitialized_iff := by
    unfold isInitialized
    cases hdb : d.db with
    | none => exact iff_of_false Bool.false_ne_true nofun
    | some handle => exact iff_of_true rfl ⟨handle, rfl, h.held handle hdb⟩

/-! ## One call -/

/-- What is done behind events of other handles. -/
theorem staysClosed_append {log events : List HandleEvent} {next : ℕ}
    (hlog : log.Pairwise StaysClosed) (hevents : events.Pairwise StaysClosed)
    (hold : ∀ event ∈ log, event.handle < next) (hnew : ∀ event ∈ events, event.handle = next) :
    (log ++ events).Pairwise StaysClosed := by
  refine List.pairwise_append.mpr ⟨hlog, hevents, ?_⟩
  rintro earlier hearlier later hlater handle rfl
  have hlt : handle < next := hold _ hearlier
  have heq := hnew later hlater
  constructor <;> rintro rfl <;> exact hlt.ne heq

/-- **Closing** a handle that is held leaves none. -/
theorem Held.closeDatabase (h : d.Held) : (Database.closeDatabase d).2.Held := by
  show (if d.db.isSome then { d.note .closed with db := none, initialized := false } else d).Held
  cases hdb : d.db with
  | none => exact h
  | some handle =>
    obtain ⟨hverified, hopen⟩ := h.held handle hdb
    have hlog : (d.note .closed).log = d.log ++ [.closed handle] := by
      rw [note, hdb]
    have hnext : (d.note .closed).next = d.next := by
      rw [note, hdb]
    refine ⟨?_, rfl, nofun, ?_⟩
    · show (d.note .closed).log.Pairwise StaysClosed
      rw [hlog]
      refine List.pairwise_append.mpr ⟨h.closed, List.pairwise_singleton .., ?_⟩
      rintro earlier hearlier later hlater other rfl
      obtain rfl := List.mem_singleton.mp hlater
      refine ⟨?_, nofun⟩
      rintro hsame
      obtain rfl := HandleEvent.closed.inj hsame
      exact hopen hearlier
    · show ∀ event ∈ (d.note .closed).log, event.handle < (d.note .closed).next
      rw [hlog, hnext]
      intro event hevent
      obtain hevent | hevent := List.mem_append.mp hevent
      · exact h.fresh event hevent
      · rw [List.mem_singleton.mp hevent]
        exact (h.fresh _ hverified : handle < d.next)

/-- What an opening does to its handle. -/
def eventsOf (o : Opening) (handle : ℕ) : List HandleEvent :=
  .opened handle :: if o.opened ≠ .ok then [.used handle]
    else (if o.encrypted then [.used handle] else [])
      ++ if o.encrypted ∧ ¬ o.keyed then [.used handle, .closed handle, .used handle]
        else [.used handle, if o.verified then .verified handle else .closed handle]

/-- **An opening that is tried** and gets a handle does that, and no more. -/
theorem initializeHandle_eq (hd : d.initialized = false) (hpath : o.pathMade)
    (hopened : o.opened ≠ .failed false) :
    (initializeHandle o d).2.db = some d.next
      ∧ (initializeHandle o d).2.next = d.next + 1
      ∧ (initializeHandle o d).2.log = d.log ++ eventsOf o d.next
      ∧ ((initializeHandle o d).2.initialized
        ↔ o.opened = .ok ∧ (o.encrypted → o.keyed) ∧ o.verified) := by
  obtain ⟨username, encrypted, pathMade, opened, keyed, verified⟩ := o
  obtain rfl : pathMade = true := hpath
  cases opened with
  | failed handle =>
    cases handle with
    | false => exact absurd rfl hopened
    | true => simp [initializeHandle, sqliteOpen, note, eventsOf, hd]
  | ok =>
    cases encrypted <;> cases keyed <;> cases verified <;>
      simp [initializeHandle, sqliteOpen, note, eventsOf, hd]

theorem handle_of_mem_eventsOf {handle : ℕ} : ∀ event ∈ eventsOf o handle,
    event.handle = handle := by
  unfold eventsOf
  refine List.forall_mem_cons.mpr ⟨rfl, ?_⟩
  split
  · exact List.forall_mem_singleton.mpr rfl
  · refine List.forall_mem_append.mpr ⟨?_, ?_⟩
    · split
      · exact List.forall_mem_singleton.mpr rfl
      · exact List.forall_mem_nil _
    · split
      · simp [HandleEvent.handle]
      · split
        · simp [HandleEvent.handle]
        · simp [HandleEvent.handle]

/-- Only an opening that succeeds verifies its handle, -/
theorem succeeds_of_verified_mem {handle : ℕ} (h : .verified handle ∈ eventsOf o handle) :
    o.opened = .ok ∧ (o.encrypted → o.keyed) ∧ o.verified := by
  obtain h | h := List.mem_cons.mp h
  · cases h
  split at h
  · cases List.mem_singleton.mp h
  · rename_i hopened
    obtain h | h := List.mem_append.mp h
    · split at h
      · cases List.mem_singleton.mp h
      · cases h
    · split at h
      · simp at h
      · rename_i hkey
        have hverified : o.verified := by
          by_contra hnot
          simp [hnot] at h
        exact ⟨not_not.mp hopened, fun he => by_contra fun hk => hkey ⟨he, hk⟩, hverified⟩

/-- and then nothing is closed. -/
theorem eventsOf_of_succeeds {handle : ℕ} (hopened : o.opened = .ok)
    (hkeyed : o.encrypted → o.keyed) (hverified : o.verified) :
    .verified handle ∈ eventsOf o handle ∧ ∀ other, .closed other ∉ eventsOf o handle := by
  have hkey : ¬ (o.encrypted ∧ ¬ o.keyed) := fun h => h.2 (hkeyed h.1)
  unfold eventsOf
  rw [if_neg (not_not.mpr hopened), if_neg hkey, if_pos hverified]
  split <;> simp

/-- **Opening, where it goes well**: a handle is held, or none is. -/
theorem Held.initializeHandle (h : d.Held) (hwell : GoesWell o d) :
    (Database.initializeHandle o d).2.Held := by
  by_cases hd : d.initialized
  · rw [Database.initializeHandle, if_pos hd]
    exact h
  by_cases hpath : o.pathMade
  · rw [Bool.not_eq_true] at hd
    by_cases hopened : o.opened = .failed false
    · have hnone : (Database.initializeHandle o d).2 = { d with db := none } := by
        simp [Database.initializeHandle, sqliteOpen, note, hd, hpath, hopened]
      rw [hnone]
      exact ⟨h.closed, hd, nofun, h.fresh⟩
    · obtain ⟨hdb, hnext, hlog, hinitialized⟩ := initializeHandle_eq hd hpath hopened
      have hsucceeds := ((hwell.resolve_left (by rw [hd]; exact Bool.false_ne_true)).resolve_left
        (not_not.mpr hpath)).resolve_left hopened
      have hevents : .verified d.next ∈ eventsOf o d.next
          ∧ ∀ other, .closed other ∉ eventsOf o d.next :=
        eventsOf_of_succeeds hsucceeds.1 hsucceeds.2.1 hsucceeds.2.2
      obtain ⟨hverified, hopen⟩ := hevents
      refine ⟨?_, ?_, fun handle hhandle => ?_, ?_⟩
      · rw [hlog]
        refine staysClosed_append h.closed ?_ h.fresh handle_of_mem_eventsOf
        refine List.pairwise_of_forall_mem_list fun earlier hearlier later _ => ?_
        rintro handle rfl
        exact absurd hearlier (hopen handle)
      · rw [hdb]
        exact hinitialized.mpr hsucceeds
      · obtain rfl := Option.some.inj (hdb.symm.trans hhandle)
        rw [hlog, List.mem_append, List.mem_append, not_or]
        exact ⟨Or.inr hverified, fun hold => (h.fresh _ hold).ne rfl, hopen _⟩
      · rw [hlog, hnext]
        intro event hevent
        obtain hevent | hevent := List.mem_append.mp hevent
        · exact (h.fresh event hevent).trans (Nat.lt_succ_self _)
        · rw [handle_of_mem_eventsOf event hevent]
          exact Nat.lt_succ_self _
  · rw [Database.initializeHandle, if_neg hd, if_pos hpath]
    exact h

/-- **Opening, where it does not**: a handle is held that is not verified, or
is closed. -/
theorem Held.goesWell_of_paired (h : d.Held) (hpaired : (Database.initializeHandle o d).2.Paired) :
    GoesWell o d := by
  by_contra hwell
  obtain ⟨hd, hpath, hopened, hfails⟩ : ¬ d.initialized ∧ ¬ ¬ o.pathMade
      ∧ o.opened ≠ .failed false ∧ ¬ (o.opened = .ok ∧ (o.encrypted → o.keyed) ∧ o.verified) := by
    simpa only [GoesWell, not_or] using hwell
  rw [Bool.not_eq_true] at hd
  obtain ⟨hdb, -, hlog, -⟩ := initializeHandle_eq hd (not_not.mp hpath) hopened
  have hsays : (Database.initializeHandle o d).2.isInitialized := by
    rw [isInitialized, hdb]
    rfl
  obtain ⟨handle, hhandle, hverified, -⟩ := hpaired.isInitialized_iff.mp hsays
  obtain rfl := Option.some.inj (hdb.symm.trans hhandle)
  rw [hlog] at hverified
  obtain hold | hnew := List.mem_append.mp hverified
  · exact (h.fresh _ hold).ne rfl
  · exact hfails (succeeds_of_verified_mem hnew)

end Database

open Database

/-! ## The connection of a machine -/

section Machine

variable {K : Type} [LinearOrder K] {m : Machine K} {d : Database} {o : Opening}
  {username : String} {masterKey : K} {opened : Except Fault Unit}

/-- An opening returns where the flag is set behind it, -/
theorem isOk_initializeHandle_iff :
    (initializeHandle o d).1.isOk ↔ (initializeHandle o d).2.initialized := by
  by_cases hd : d.initialized
  · rw [initializeHandle, if_pos hd]
    exact iff_of_true rfl hd
  rw [initializeHandle, if_neg hd]
  by_cases hpath : ¬ o.pathMade
  · rw [if_pos hpath]
    exact iff_of_false Bool.false_ne_true hd
  rw [if_neg hpath]
  by_cases hopened : o.opened ≠ .ok
  · simp only [if_pos hopened, note_initialized, sqliteOpen_initialized]
    exact iff_of_false Bool.false_ne_true hd
  simp only [if_neg hopened]
  by_cases hkey : o.encrypted ∧ ¬ o.keyed
  · simp only [if_pos hkey, note_initialized, apply_ite Database.initialized,
      sqliteOpen_initialized, ite_self]
    exact iff_of_false Bool.false_ne_true hd
  simp only [if_neg hkey]
  by_cases hverified : ¬ o.verified
  · simp only [if_pos hverified, note_initialized, apply_ite Database.initialized,
      sqliteOpen_initialized, ite_self]
    exact iff_of_false Bool.false_ne_true hd
  · rw [if_neg hverified]
    exact iff_of_true rfl rfl

/-- and that of a machine where there is a connection. -/
theorem isOk_initializeDatabase_iff :
    (initializeDatabase username masterKey opened m).1.isOk
      ↔ (initializeDatabase username masterKey opened m).2.connection.isSome := by
  unfold initializeDatabase
  cases hconnection : m.connection with
  | some c => exact iff_of_true rfl (by rw [hconnection]; rfl)
  | none =>
    have hnone : ¬ m.connection.isSome := by
      rw [hconnection]
      exact Bool.false_ne_true
    cases opened with
    | error e => exact iff_of_false Bool.false_ne_true hnone
    | ok _ =>
      cases (m.files username).database with
      | none => exact iff_of_true rfl rfl
      | some d =>
        by_cases hkey : d.key = masterKey
        · simp only [if_pos hkey]
          exact iff_of_true rfl rfl
        · simp only [if_neg hkey]
          exact iff_of_false Bool.false_ne_true hnone

/-- **The flag is the connection of the machine**, where the two are opened
with the same end. -/
theorem initialized_eq_connection (h : (initializeHandle o d).1.isOk
    = (initializeDatabase username masterKey opened m).1.isOk) :
    (initializeHandle o d).2.initialized
      = (initializeDatabase username masterKey opened m).2.connection.isSome := by
  rw [Bool.eq_iff_iff, ← isOk_initializeHandle_iff, ← isOk_initializeDatabase_iff, h]

end Machine

/-! ## The main result -/

/-- **A call goes well.** -/
def DatabaseCall.GoesWell : DatabaseCall → Database → Prop
  | initializes o => Database.GoesWell o
  | closes => fun _ => True
  | destroys => fun _ => True

/-- One call: it goes well exactly if the handles are in pairs behind it, and
then what holds between calls holds again. -/
theorem DatabaseCall.run_spec (c : DatabaseCall) (d : Database) (h : d.Held) :
    ((c.run d).2.Paired ↔ c.GoesWell d) ∧ (c.GoesWell d → (c.run d).2.Held) := by
  have hcloses : (Database.closeDatabase d).2.Held := h.closeDatabase
  cases c with
  | initializes o =>
    have hwell : Database.GoesWell o d → (initializeHandle o d).2.Held := h.initializeHandle
    exact ⟨⟨h.goesWell_of_paired, fun hw => (hwell hw).paired⟩, hwell⟩
  | closes => exact ⟨iff_of_true hcloses.paired trivial, fun _ => hcloses⟩
  | destroys => exact ⟨iff_of_true hcloses.paired trivial, fun _ => hcloses⟩

/-- **When handles are opened and closed in pairs**, in every state of any
calls with the destructor behind them: exactly if each opening that is tried
succeeds, or fails before there is a handle. -/
theorem paired_iff (calls : List DatabaseCall) :
    Along DatabaseCall.run (fun c d => (c.run d).2.Paired) (calls ++ [.destroys]) .start
      ↔ Along DatabaseCall.run DatabaseCall.GoesWell (calls ++ [.destroys]) .start := by
  constructor
  · intro h
    refine (h.after_of (Q := DatabaseCall.GoesWell) (fun c d hd hpaired => ?_) held_start).1
    have hwell := (c.run_spec d hd).1.mp hpaired
    exact ⟨hwell, (c.run_spec d hd).2 hwell⟩
  · intro h
    refine (h.after_of (Q := fun c d => (c.run d).2.Paired) (fun c d hd hwell => ?_) held_start).1
    exact ⟨(c.run_spec d hd).1.mpr hwell, (c.run_spec d hd).2 hwell⟩

/-! ## A wrong password -/

/-- What an opening is answered with a wrong password. -/
def Opening.wrongPassword : Opening := ⟨"alice", true, true, .ok, true, false⟩

/-- **A wrong password**, and the end of the program: the handle is closed
twice, and held in between. -/
theorem not_paired_wrongPassword :
    (after DatabaseCall.run [.initializes .wrongPassword, .destroys] .start).log
        = [.opened 0, .used 0, .used 0, .closed 0, .closed 0]
      ∧ (initializeHandle .wrongPassword .start).2.isInitialized
      ∧ ¬ Along DatabaseCall.run (fun c d => (c.run d).2.Paired)
        ([.initializes .wrongPassword] ++ [.destroys]) .start := by
  refine ⟨by decide, by decide, fun h => ?_⟩
  have hwell := held_start.goesWell_of_paired h.1
  simp [Database.GoesWell, Opening.wrongPassword, start] at hwell
