import Eastwood.OwnStore

/-!
# Registering again

Registration writes the salt file before it opens the database. For a user
without a database, in a process where none is open, that is in order, and a
call that returns leaves the password it was given unlocking everything
(`SetUpCall.locksNobodyOut_of_meets`).

For anyone else it is not. If the user has a database, the new salt makes
another key, `initialize` throws, and no password opens the database any
more. If a database is still open – a call is retried after the server
refused it – `initialize` does nothing, the KEK is stored encrypted under the
new key in a database under the old one, and the call returns.
-/

open Throwing

variable {K : Type}

/-! ## What no step of a call changes once a database is open -/

/-- The connection is `c`, the salt is on disk, and the user's database, if
there is one, is under one of some keys. -/
structure Machine.Under (username : String) (salt : List UInt8) (c : String × K)
    (keys : K → Prop) (m : Machine K) : Prop where
  connection : m.connection = some c
  key : keys c.2
  salt : (m.files username).salt = some salt
  database : ∀ d, (m.files username).database = some d → keys d.key

/-- The KEK's row is there for the connection. -/
def Machine.HasKek [LinearOrder K] (e : EncryptedKey) (m : Machine K) : Prop :=
  ∃ t, m.tables = .ok t ∧ t.keys.lookup "kek" = some e

section Under

variable {username : String} {salt : List UInt8} {c : String × K} {keys : K → Prop}
  {m : Machine K}

/-- A database is written under the key of the connection. -/
theorem Machine.Under.setDatabase (h : m.Under username salt c keys) (t : Option (Tables K)) :
    (m.setDatabase c.1 ⟨c.2, t⟩).Under username salt c keys := by
  by_cases hu : m.place username = m.place c.1
  · have hfiles := files_eq_of_place (m := m.setDatabase c.1 ⟨c.2, t⟩) hu
    refine ⟨h.connection, h.key, ?_, fun d hd => ?_⟩
    · rw [hfiles, salt_setDatabase, ← files_eq_of_place hu]
      exact h.salt
    · rw [hfiles, database_setDatabase] at hd
      rw [← Option.some.inj hd]
      exact h.key
  · refine ⟨h.connection, h.key, ?_, fun d hd => ?_⟩
    · rw [files_setDatabase_of_ne hu]
      exact h.salt
    · rw [files_setDatabase_of_ne hu] at hd
      exact h.database d hd

theorem Machine.Under.setTables (h : m.Under username salt c keys) (t : Tables K) :
    (m.setTables t).Under username salt c keys := by
  unfold Machine.setTables
  rw [h.connection]
  exact h.setDatabase (some t)

variable [LinearOrder K]

theorem keepsUnder_execute (f : Tables K → Tables K) :
    Keeps (Machine.Under username salt c keys) (execute f) :=
  (Keeps.reads _).bind fun _ => Keeps.modify fun _ h => h.setTables _

theorem keepsUnder_dropAllTables : Keeps (Machine.Under username salt c keys) dropAllTables := by
  intro m h
  obtain hrun | ⟨user, key, hconnection, hrun⟩ := dropAllTables_cases m
  · rw [hrun]
    exact h
  · rw [hrun]
    obtain rfl := Option.some.inj (h.connection.symm.trans hconnection)
    exact h.setDatabase none

theorem keepsUnder_initSchema (created : Except Fault Unit) :
    Keeps (Machine.Under username salt c keys) (initSchema created) := by
  intro m h
  obtain ⟨e, hrun⟩ | ⟨user, key, t, hconnection, -, hrun⟩ := initSchema_cases created m
  · rw [hrun]
    exact h
  · rw [hrun]
    obtain rfl := Option.some.inj (h.connection.symm.trans hconnection)
    exact h.setDatabase (some t)

omit [LinearOrder K] in
theorem keepsUnder_setKek (kek : K) : Keeps (Machine.Under username salt c keys) (setKek kek) :=
  Keeps.modify fun _ h => ⟨h.connection, h.key, h.salt, h.database⟩

variable (C : AccountCrypto K)

theorem keepsUnder_newKek (masterKey : K) (d : SetUp K) :
    Keeps (Machine.Under username salt c keys) (d.newKek C masterKey) :=
  keeps_newKek keepsUnder_dropAllTables keepsUnder_initSchema keepsUnder_setKek masterKey d
    (keepsUnder_execute _)

theorem keepsUnder_newIdentity (d : Registration K) :
    Keeps (Machine.Under username salt c keys) (d.newIdentity C) :=
  keeps_newIdentity (fun _ _ => keepsUnder_execute _) d

/-! ## The KEK's row -/

/-- A statement that writes and returned had tables to write to. -/
theorem gives_execute {P : Machine K → Prop} {Q : Tables K → Prop} {f : Tables K → Tables K}
    (hf : ∀ t, Q (f t)) :
    Gives P (execute f) fun _ m => ∃ t, m.tables = .ok t ∧ Q t := by
  intro m _ m' _ h
  obtain ⟨e, hrun⟩ | ⟨t, ht, hrun⟩ := execute_cases f m
  · cases (Prod.mk.inj (hrun.symm.trans h)).1
  · rw [← (Prod.mk.inj (hrun.symm.trans h)).2]
    exact ⟨f t, tables_setTables ht (f t), hf t⟩

theorem gives_saveEncryptedKey_kek {P : Machine K → Prop} (e : EncryptedKey) :
    Gives P (saveEncryptedKey "kek" e) fun _ m => m.HasKek e :=
  gives_execute fun t => Finmap.lookup_insert t.keys

theorem keeps_hasKek_newIdentity {e : EncryptedKey} (d : Registration K) :
    Keeps (Machine.HasKek e) (d.newIdentity C) :=
  keeps_newIdentity (fun _ _ => keeps_tables_execute fun _ h => h) d

/-- Where it returned, the KEK is stored, encrypted under the master key it
was given. -/
theorem gives_hasKek_newKek {P : Machine K → Prop} (masterKey : K) (d : SetUp K) :
    Gives P (d.newKek C masterKey)
      fun _ m => m.HasKek (encryptKek C d.kek d.nonceKek masterKey) :=
  Gives.of_last fun _ => Gives.of_last fun _ => Gives.of_last fun _ => Gives.of_last fun _ =>
    Gives.of_last fun _ => gives_saveEncryptedKey_kek _

end Under

/-! ## What unlocks and what does not -/

section Unlocks

variable [LinearOrder K] {C : AccountCrypto K} {username : String} {password : List UInt8}
  {salt : Salt} {m : Machine K}

omit [LinearOrder K] in
/-- The KEK comes back from what it was encrypted to. -/
theorem decryptKek_encryptKek (hC : C.aead.Ideal) (kek : K) (nonce : List UInt8) (masterKey : K) :
    decryptKek C (encryptKek C kek nonce masterKey) masterKey = .ok kek := by
  unfold decryptKek AccountCrypto.decryptKey encryptKek AccountCrypto.encryptKey
  rw [hC.opens]
  exact congrArg Except.ok (C.keyBytes.keyAt_bytes kek)

/-- **A store in order**: the KEK is stored under the key of the password and
the salt on disk. -/
theorem unlocks_of_hasKek (hC : C.aead.Ideal) {kek : K} {nonce : List UInt8}
    (hunder : m.Under username salt.1 (username, C.pwhash password salt.1)
      (· = C.pwhash password salt.1))
    (hkek : m.HasKek (encryptKek C kek nonce (C.pwhash password salt.1))) :
    m.Unlocks C username password := by
  obtain ⟨t, ht, hrow⟩ := hkek
  obtain ⟨user, key, hconnection, hd⟩ := tables_eq_ok_iff.mp ht
  obtain ⟨rfl, rfl⟩ := Prod.mk.inj (Option.some.inj (hunder.connection.symm.trans hconnection))
  refine unlocks_iff.mpr ⟨salt.1, _, hunder.salt, hd, fun buffer => ?_⟩
  rw [readSalt_val]
  refine ⟨rfl, t, _, rfl, hrow, ?_⟩
  rw [decryptKek_encryptKek hC]
  rfl

/-- A password that makes none of the keys the database may be under. -/
theorem not_unlocks_of_keys {keys : K → Prop} (hsalt : (m.files username).salt = some salt.1)
    (hkeys : ∀ d, (m.files username).database = some d → keys d.key)
    (hfresh : ∀ k, keys k → C.pwhash password salt.1 ≠ k) : ¬ m.Unlocks C username password := by
  intro h
  obtain ⟨bytes, d, hbytes, hd, hu⟩ := unlocks_iff.mp h
  obtain rfl := Option.some.inj (hsalt.symm.trans hbytes)
  have hkey := (hu salt).1
  rw [readSalt_val] at hkey
  exact hfresh d.key (hkeys d hd) hkey.symm

/-- A salt file that is too short gives a key for each buffer. -/
theorem not_unlocks_of_short (hC : C.Ideal) {bytes : List UInt8}
    (hsalt : (m.files username).salt = some bytes) (hlen : bytes.length < 16) :
    ¬ m.Unlocks C username password := by
  intro h
  obtain ⟨bytes', d, hbytes, -, hu⟩ := unlocks_iff.mp h
  obtain rfl := Option.some.inj (hsalt.symm.trans hbytes)
  have hread : readSalt ⟨List.replicate 16 0, List.length_replicate⟩ bytes
      = readSalt ⟨List.replicate 16 1, List.length_replicate⟩ bytes :=
    (hC.pwhash _ _ _ _ ((hu _).1.symm.trans (hu _).1)).2
  have hlast : ∀ b : UInt8,
      (readSalt ⟨List.replicate 16 b, List.length_replicate⟩ bytes)[15]? = some b := by
    intro b
    unfold readSalt
    rw [List.getElem?_take_of_lt (by decide), List.getElem?_append_right (by omega),
      List.getElem?_drop, List.getElem?_replicate_of_lt (by omega)]
  have hsame := congrArg (·[15]?) hread
  simp only [hlast] at hsame
  exact absurd (Option.some.inj hsame) (by decide)

/-- What was written of a salt is too short, or makes none of the keys. -/
theorem not_unlocks_of_bytes (hC : C.Ideal) {d : SaltSaving} {keys : K → Prop}
    (hsalt : (m.files username).salt = some (d.bytes salt))
    (hkeys : ∀ file, (m.files username).database = some file → keys file.key)
    (hfresh : 16 ≤ d.written → ∀ k, keys k → C.pwhash password salt.1 ≠ k) :
    ¬ m.Unlocks C username password := by
  by_cases hwhole : 16 ≤ d.written
  · rw [SaltSaving.bytes_of_whole hwhole] at hsalt
    exact not_unlocks_of_keys hsalt hkeys (hfresh hwhole)
  · exact not_unlocks_of_short hC hsalt (SaltSaving.length_bytes_lt hwhole)

end Unlocks

/-! ## Calls that set a user's store up -/

/-- **A call for one user**: `set_up_client_for_user` by itself, or as part of
`register_user`. -/
inductive SetUpCall (K : Type) where
  | setsUp (password : List UInt8) (d : SetUp K)
  | registers (password : List UInt8) (d : Registration K)

/-- It gets as far as writing the salt file. -/
def SetUp.ReachesSalt (d : SetUp K) : Prop :=
  d.sodiumInit.isOk ∧ d.derived.isOk ∧ d.saltSaved.opened.isOk

namespace SetUpCall

def password : SetUpCall K → List UInt8
  | setsUp password _ => password
  | registers password _ => password

def setUp : SetUpCall K → SetUp K
  | setsUp _ d => d
  | registers _ d => d.toSetUp

/-- **The condition**: the call stops before the salt file, or the user has
no database, none is open, and all of the salt gets into the file. -/
def Meets (username : String) (c : SetUpCall K) (m : Machine K) : Prop :=
  c.setUp.ReachesSalt →
    (m.files username).database = none ∧ m.connection = none ∧ 16 ≤ c.setUp.saltSaved.written

variable [LinearOrder K] (C : AccountCrypto K) (username : String)

/-- What it does. -/
def run : SetUpCall K → AccountM K Unit
  | setsUp password d => setUpClientForUser C username password d
  | registers password d => registerUser C username password d

/-- **A call locks nobody out**: if it throws, every password that unlocked
still does, and if it returns, the password it was given does. -/
def LocksNobodyOut (c : SetUpCall K) (m : Machine K) : Prop :=
  match (c.run C username m).1 with
  | .error _ => ∀ p, m.Unlocks C username p → (c.run C username m).2.Unlocks C username p
  | .ok _ => (c.run C username m).2.Unlocks C username c.password

omit [LinearOrder K] in
/-- The salt drawn makes no key, whatever the password, that the user's
database or the connection has. -/
def Fresh (c : SetUpCall K) (m : Machine K) : Prop :=
  ∀ p, (∀ d, (m.files username).database = some d → C.pwhash p c.setUp.salt.1 ≠ d.key)
    ∧ ∀ user key, m.connection = some (user, key) → C.pwhash p c.setUp.salt.1 ≠ key

variable {C} {username} {m : Machine K}

omit [LinearOrder K] in
/-- How the beginning of a call goes, up to `initialize`. -/
theorem newMasterKey_cases (password : List UInt8) (d : SetUp K) (m : Machine K) :
    (¬ d.ReachesSalt ∧ ∃ e, d.newMasterKey C username password m = (.error e, m))
      ∨ d.ReachesSalt ∧ d.newMasterKey C username password m
        = (d.saltSaved.closed.map fun _ => C.pwhash password d.salt.1,
          m.setSalt username (d.saltSaved.bytes d.salt)) := by
  unfold SetUp.newMasterKey SetUp.ReachesSalt deriveMasterKey saveSaltToFile writeSalt
  cases d.sodiumInit with
  | error e => exact Or.inl ⟨fun h => absurd h.1 nofun, e, rfl⟩
  | ok _ =>
    cases d.derived with
    | error e => exact Or.inl ⟨fun h => absurd h.2.1 nofun, e, rfl⟩
    | ok _ =>
      cases d.saltSaved.opened with
      | error e => exact Or.inl ⟨fun h => absurd h.2.2 nofun, e, rfl⟩
      | ok _ =>
        refine Or.inr ⟨⟨rfl, rfl, rfl⟩, ?_⟩
        cases d.saltSaved.closed <;> rfl

variable (C) in
/-- What a call does past `initialize`. -/
def rest (masterKey : K) : SetUpCall K → AccountM K Unit
  | setsUp _ d => d.newKek C masterKey
  | registers _ d => do
    d.newKek C masterKey
    d.newIdentity C

/-- A call is its beginning, `initialize`, and the rest. -/
theorem run_eq (c : SetUpCall K) : c.run C username = (do
    let masterKey ← c.setUp.newMasterKey C username c.password
    initializeDatabase username masterKey c.setUp.opened
    c.rest C masterKey) := by
  cases c with
  | setsUp password d => rfl
  | registers password d =>
    show (setUpClientForUser C username password d.toSetUp >>= fun _ => d.newIdentity C) = _
    unfold setUpClientForUser
    rw [Throwing.bind_assoc]
    simp only [Throwing.bind_assoc]
    rfl

theorem keepsUnder_rest {bytes : List UInt8} {conn : String × K} {keys : K → Prop}
    (masterKey : K) (c : SetUpCall K) :
    Keeps (Machine.Under username bytes conn keys) (c.rest C masterKey) := by
  cases c with
  | setsUp _ d => exact keepsUnder_newKek C masterKey d
  | registers _ d => exact (keepsUnder_newKek C _ _).bind fun _ => keepsUnder_newIdentity C d

theorem gives_hasKek_rest {P : Machine K → Prop} (masterKey : K) (c : SetUpCall K) :
    Gives P (c.rest C masterKey)
      fun _ m => m.HasKek (encryptKek C c.setUp.kek c.setUp.nonceKek masterKey) := by
  cases c with
  | setsUp _ d => exact gives_hasKek_newKek C masterKey d
  | registers _ d =>
    exact (gives_hasKek_newKek C masterKey d.toSetUp).bind fun _ =>
      (keeps_hasKek_newIdentity C d).gives

/-- What it is to lock nobody out, by how the call ended. -/
theorem locksNobodyOut_iff {c : SetUpCall K} : c.LocksNobodyOut C username m
    ↔ (¬ (c.run C username m).1.isOk → ∀ p, m.Unlocks C username p →
        (c.run C username m).2.Unlocks C username p)
      ∧ ((c.run C username m).1.isOk → (c.run C username m).2.Unlocks C username c.password) := by
  unfold LocksNobodyOut
  cases (c.run C username m).1 with
  | error e => exact ⟨fun h => ⟨fun _ => h, fun hok => absurd hok nofun⟩, fun h => h.1 nofun⟩
  | ok _ => exact ⟨fun h => ⟨fun hno => absurd rfl hno, fun _ => h⟩, fun h => h.2 rfl⟩

/-! ### A call that meets the condition -/

/-- Where there is no database and none is open, a call that returns has
opened the user's, under the key of its password and salt. -/
theorem opened_of_run {c : SetUpCall K} {m' : Machine K}
    (hd : (m.files username).database = none) (hconnection : m.connection = none)
    (hwhole : 16 ≤ c.setUp.saltSaved.written) (h : c.run C username m = (.ok (), m')) :
    ∃ m₁, m₁.Under username c.setUp.salt.1 (username, C.pwhash c.password c.setUp.salt.1)
        (· = C.pwhash c.password c.setUp.salt.1)
      ∧ c.rest C (C.pwhash c.password c.setUp.salt.1) m₁ = (.ok (), m') := by
  rw [run_eq] at h
  obtain ⟨masterKey, m₀, hbegin, h⟩ := exists_of_bind_ok h
  obtain ⟨_, m₁, hopen, hrest⟩ := exists_of_bind_ok h
  obtain ⟨-, e, herror⟩ | ⟨-, hwritten⟩ := newMasterKey_cases (C := C) c.password c.setUp m
  · cases (Prod.mk.inj (herror.symm.trans hbegin)).1
  obtain ⟨hkey, rfl⟩ := Prod.mk.inj (hwritten.symm.trans hbegin)
  obtain rfl : C.pwhash c.password c.setUp.salt.1 = masterKey := by
    cases hclosed : c.setUp.saltSaved.closed with
    | error e => rw [hclosed] at hkey; cases hkey
    | ok _ => rw [hclosed] at hkey; exact Except.ok.inj hkey
  refine ⟨m₁, ?_, hrest⟩
  obtain ⟨e, herror, -⟩ | ⟨conn, hok, hwhose⟩ := initializeDatabase_cases username
    (C.pwhash c.password c.setUp.salt.1) c.setUp.opened
    (m.setSalt username (c.setUp.saltSaved.bytes c.setUp.salt))
  · cases (Prod.mk.inj (herror.symm.trans hopen)).1
  obtain rfl := (Prod.mk.inj (hok.symm.trans hopen)).2
  obtain hsome | ⟨-, rfl, -⟩ := hwhose
  · exact absurd (hconnection.symm.trans hsome) nofun
  refine ⟨rfl, rfl, ?_, fun d hd' => ?_⟩
  · exact (salt_setSalt _).trans (congrArg some (SaltSaving.bytes_of_whole hwhole))
  · exact absurd (hd.symm.trans ((database_setSalt _).symm.trans hd')) nofun

/-- So it has stored the KEK under that key. -/
theorem unlocks_of_run (hC : C.aead.Ideal) {c : SetUpCall K} {m' : Machine K}
    (hd : (m.files username).database = none) (hconnection : m.connection = none)
    (hwhole : 16 ≤ c.setUp.saltSaved.written) (h : c.run C username m = (.ok (), m')) :
    m'.Unlocks C username c.password := by
  obtain ⟨m₁, hunder, hrest⟩ := opened_of_run hd hconnection hwhole h
  exact unlocks_of_hasKek hC ((keepsUnder_rest _ c).gives _ _ _ hunder hrest)
    (gives_hasKek_rest (P := fun _ => True) _ c _ _ _ trivial hrest)

/-- A call that stops before the salt file throws, and changes nothing. -/
theorem run_of_not_reachesSalt {c : SetUpCall K} (h : ¬ c.setUp.ReachesSalt) :
    ∃ e, c.run C username m = (.error e, m) := by
  obtain ⟨-, e, herror⟩ | ⟨hreaches, -⟩ :=
    newMasterKey_cases (C := C) c.password c.setUp m
  · refine ⟨e, ?_⟩
    rw [run_eq]
    exact bind_of_error herror
  · exact absurd hreaches h

/-- One call that meets the condition locks nobody out. -/
theorem locksNobodyOut_of_meets_one (hC : C.aead.Ideal) (c : SetUpCall K) (m : Machine K)
    (h : c.Meets username m) : c.LocksNobodyOut C username m := by
  unfold LocksNobodyOut
  by_cases hreaches : c.setUp.ReachesSalt
  · obtain ⟨hd, hconnection, hwhole⟩ := h hreaches
    cases hrun : c.run C username m with
    | mk result m' =>
      cases result with
      | error e =>
        intro p hp
        obtain ⟨_, d, -, hd', -⟩ := unlocks_iff.mp hp
        exact absurd (hd.symm.trans hd') nofun
      | ok _ => exact unlocks_of_run hC hd hconnection hwhole hrun
  · obtain ⟨e, hrun⟩ : ∃ e, c.run C username m = (.error e, m) := run_of_not_reachesSalt hreaches
    rw [hrun]
    exact fun p hp => hp

/-! ### A call that does not -/

/-- **A call that does not meet the condition locks everyone out**, if its
salt is fresh: however it ends, no password unlocks any more. -/
theorem not_unlocks_of_not_meets (hC : C.Ideal) (c : SetUpCall K) (m : Machine K)
    (h : ¬ c.Meets username m) (hfresh : c.Fresh C username m) (p : List UInt8) :
    ¬ (c.run C username m).2.Unlocks C username p := by
  obtain ⟨hreaches, hnot⟩ := Classical.not_imp.mp h
  set bytes := c.setUp.saltSaved.bytes c.setUp.salt with hbytes
  -- the keys there were, if the salt got into the file
  let keys : K → Prop := fun k => 16 ≤ c.setUp.saltSaved.written →
    (∃ d, (m.files username).database = some d ∧ d.key = k)
      ∨ ∃ user, m.connection = some (user, k)
  have hlocked : ∀ m' : Machine K, (m'.files username).salt = some bytes →
      (∀ d, (m'.files username).database = some d → keys d.key) →
      ¬ m'.Unlocks C username p := by
    intro m' hsalt hkeys
    refine not_unlocks_of_bytes hC hsalt hkeys fun hwhole k hk => ?_
    obtain ⟨d, hd, rfl⟩ | ⟨user, hconnection⟩ := hk hwhole
    · exact (hfresh p).1 d hd
    · exact (hfresh p).2 user k hconnection
  have hsalt : ((m.setSalt username bytes).files username).salt = some bytes := salt_setSalt bytes
  have hdatabase : ((m.setSalt username bytes).files username).database
      = (m.files username).database := database_setSalt bytes
  have hkeys : ∀ d, ((m.setSalt username bytes).files username).database = some d →
      keys d.key := fun d hd _ => Or.inl ⟨d, hdatabase.symm.trans hd, rfl⟩
  obtain ⟨hstops, -⟩ | ⟨-, hwritten⟩ := newMasterKey_cases (C := C) c.password c.setUp m
  · exact absurd hreaches hstops
  rw [run_eq]
  cases hclosed : c.setUp.saltSaved.closed with
  | error e =>
    rw [hclosed] at hwritten
    rw [bind_of_error hwritten]
    exact hlocked _ hsalt hkeys
  | ok _ =>
    rw [hclosed] at hwritten
    rw [bind_of_ok hwritten]
    obtain ⟨e, herror, -⟩ | ⟨conn, hok, hwhose⟩ := initializeDatabase_cases username
      (C.pwhash c.password c.setUp.salt.1) c.setUp.opened (m.setSalt username bytes)
    · rw [bind_of_error herror]
      exact hlocked _ hsalt hkeys
    · rw [bind_of_ok hok]
      have hunder : Machine.Under username bytes conn keys
          { m.setSalt username bytes with connection := some conn } := by
        refine ⟨rfl, fun hwhole => ?_, hsalt, hkeys⟩
        obtain hsome | ⟨hnone, rfl, hfits⟩ := hwhose
        · exact Or.inr ⟨conn.1, hsome⟩
        · cases hd : (m.files username).database with
          | none => exact absurd ⟨hd, hnone, hwhole⟩ hnot
          | some d =>
            exact Or.inl ⟨d, rfl, hfits d (hdatabase.trans hd)⟩
      have hafter := keepsUnder_rest (C := C) (C.pwhash c.password c.setUp.salt.1) c _ hunder
      exact hlocked _ hafter.salt hafter.database

/-! ## Registering twice -/

/-- The server refuses, at the end of a registration. -/
def refused (c : SetUpCall ℕ) : SetUpCall ℕ :=
  match c with
  | setsUp password d => setsUp password d
  | registers password d =>
    registers password { d with registered := .error (.runtimeError "409") }

/-- Alice's registration, and another with a new salt. -/
def first : SetUpCall ℕ := registers [1] (.ideal (.ideal 1) 5)

def second : SetUpCall ℕ := registers [1] (.ideal (.ideal 2) 6)

/-- The machine once she is registered, in a new process. -/
def registered : Machine ℕ := (run .ideal "alice" first .blank).2.restart

/-- **Registration locks nobody out where there is nothing yet**: along any
calls for a user that all stop before the salt file or find no database of
the user's and none open, none locks the user out. A call that finds one of
these, or does not get its salt into the file whole, leaves the user locked
out, if the salt it draws is fresh. -/
theorem locksNobodyOut_of_meets (hC : C.Ideal) (username : String) :
    (∀ calls m, Along (run C username) (Meets username) calls m →
        Along (run C username) (LocksNobodyOut C username) calls m)
      ∧ ∀ c m, ¬ Meets username c m → Fresh C username c m →
        ∀ p, ¬ (run C username c m).2.Unlocks C username p :=
  ⟨fun _ _ h => h.mono fun c m => locksNobodyOut_of_meets_one hC.aead c m,
    fun c m h hfresh p => not_unlocks_of_not_meets hC c m h hfresh p⟩

/-- A first registration meets the condition, and one more does not. -/
theorem locksNobodyOut_of_meets_alice :
    Along (run .ideal "alice") (LocksNobodyOut .ideal "alice") [first] .blank
      ∧ ∀ p, ¬ (run .ideal "alice" second registered).2.Unlocks .ideal "alice" p := by
  have h := locksNobodyOut_of_meets AccountCrypto.ideal_ideal "alice"
  refine ⟨h.1 _ _ ⟨fun _ => ⟨rfl, rfl, le_rfl⟩, trivial⟩, h.2 second registered ?_ ?_⟩
  · exact fun hmeets => absurd (hmeets ⟨rfl, rfl, rfl⟩).1 (by decide +kernel)
  · refine fun p => ⟨fun d hd hkey => ?_, fun _ _ hconnection => absurd hconnection nofun⟩
    have hfirst : (registered.files "alice").database.map DatabaseFile.key
        = some (AccountCrypto.ideal.pwhash [1] (Salt.ideal 1).1) := by decide +kernel
    rw [hd] at hfirst
    have hsalt := (AccountCrypto.ideal_ideal.pwhash _ _ _ _
      (hkey.trans (Option.some.inj hfirst))).2
    exact absurd hsalt (by decide)

/-- Registered, she registers again with the same password: the call throws,
and her password unlocks nothing any more. Refused by the server, she tries
again in the same process: the call returns, and her password unlocks
nothing either. -/
theorem not_locksNobodyOut_of_second :
    registered.Unlocks .ideal "alice" [1]
      ∧ ¬ (run .ideal "alice" second registered).1.isOk
      ∧ ¬ Along (run .ideal "alice") (LocksNobodyOut .ideal "alice") [second] registered
      ∧ (run .ideal "alice" second (run .ideal "alice" first.refused .blank).2).1.isOk
      ∧ ¬ Along (run .ideal "alice") (LocksNobodyOut .ideal "alice") [first.refused, second]
          .blank := by
  have hbefore : registered.Unlocks .ideal "alice" [1] := by
    have hsalt : (registered.files "alice").salt = some (List.replicate 16 1) := rfl
    have hopens : (unlock .ideal "alice" [1] (.ideal 0) registered.restart).1.isOk := by
      decide +kernel
    exact unlocks_of_isOk hsalt (by decide) hopens
  have hthrows : ¬ (run .ideal "alice" second registered).1.isOk := by decide +kernel
  have hreturns : (run .ideal "alice" second
      (run .ideal "alice" first.refused .blank).2).1.isOk := by decide +kernel
  refine ⟨hbefore, hthrows, ?_, hreturns, ?_⟩
  · rintro ⟨hkept, -⟩
    have hafter := (locksNobodyOut_iff.mp hkept).1 hthrows [1] hbefore (.ideal 0)
    exact absurd hafter (by decide +kernel)
  · rintro ⟨-, hkept, -⟩
    have hafter := (locksNobodyOut_iff.mp hkept).2 hreturns (.ideal 0)
    exact absurd hafter (by decide +kernel)

end SetUpCall
