import Eastwood.Accounts

/-!
# Whose store a call works on

A call for a user should read and write that user's files and no others. It
does if the connection is its user's when it gets to `initialize`, or there
is none; then it opens its own, and nothing it does afterwards looks at
files elsewhere. Among users whose names lead to different places that is
exactly when every call keeps to its own user's store
(`AccountCall.keepsToOwn_iff`).

With another user's connection still open – a `logout` that the server
refused, a login that failed after the database was open – `initialize`
returns at once, and the call goes on in that user's database. And with
another user's name for the same place a registration overwrites the salt
before `initialize` is reached.
-/

variable {K : Type}

namespace Machine

/-- The connection, if there is one, is of this user. -/
def Own (username : String) (m : Machine K) : Prop :=
  ∀ user key, m.connection = some (user, key) → user = username

/-- The machine with anything at all in place of the files elsewhere, wherever
its data directory is. -/
def withOthers (username : String) (p : Place) (g : Place → UserFiles K) (m : Machine K) :
    Machine K :=
  { m with
    dataPath := p
    disk := Function.update g (placeOf p username) (m.files username) }

/-- **A change outside a user's store**: the connection, the KEK and the
user's files are what they were, and it does not matter which comes first,
the change or one of these being set. -/
structure Outside (username : String) (f : Machine K → Machine K) : Prop where
  connection : ∀ m, (f m).connection = m.connection
  kek : ∀ m, (f m).kek = m.kek
  files : ∀ m, (f m).files username = m.files username
  setFiles : ∀ x m, (f m).setFiles username x = f (m.setFiles username x)
  setConnection : ∀ c m, { f m with connection := c } = f { m with connection := c }
  setKek : ∀ k m, { f m with kek := k } = f { m with kek := k }

section Frame

variable {username user : String} {key : K} {g : Place → UserFiles K} {m : Machine K}
  {f : Machine K → Machine K}

theorem outside_withOthers (username : String) (p : Place) (g : Place → UserFiles K) :
    Outside username (withOthers username p g) where
  connection _ := rfl
  kek _ := rfl
  files _ := Function.update_self ..
  setFiles x m := by
    unfold withOthers
    rw [files_setFiles]
    exact congrArg (fun disk => { m with dataPath := p, disk := disk }) (Function.update_idem ..)
  setConnection _ _ := rfl
  setKek _ _ := rfl

/-- With the files there are it is the machine as it is. -/
theorem withOthers_self (username : String) (m : Machine K) :
    m.withOthers username m.dataPath m.disk = m := by
  unfold withOthers files place
  rw [Function.update_eq_self]

theorem Own.eq (h : m.Own username) (hconnection : m.connection = some (user, key)) :
    user = username := h user key hconnection

namespace Outside

theorem setSalt (hf : Outside username f) (bytes : List UInt8) :
    (f m).setSalt username bytes = f (m.setSalt username bytes) := by
  unfold Machine.setSalt
  rw [hf.files, hf.setFiles]

theorem setDatabase (hf : Outside username f) (d : DatabaseFile K) :
    (f m).setDatabase username d = f (m.setDatabase username d) := by
  unfold Machine.setDatabase
  rw [hf.files, hf.setFiles]

/-- The tables of one's own connection are written among one's own files, -/
theorem setTables (hf : Outside username f) (h : m.Own username) (t : Tables K) :
    (f m).setTables t = f (m.setTables t) := by
  unfold Machine.setTables
  rw [hf.connection]
  cases hconnection : m.connection with
  | none => rfl
  | some c =>
    obtain ⟨user, key⟩ := c
    obtain rfl := h.eq hconnection
    exact hf.setDatabase _

/-- and found there. -/
theorem tables [LinearOrder K] (hf : Outside username f) (h : m.Own username) :
    (f m).tables = m.tables := by
  unfold Machine.tables
  rw [hf.connection]
  cases hconnection : m.connection with
  | none => rfl
  | some c =>
    obtain ⟨user, key⟩ := c
    obtain rfl := h.eq hconnection
    simp only [hf.files]

end Outside

@[simp] theorem connection_setTables (t : Tables K) :
    (m.setTables t).connection = m.connection := by
  unfold setTables
  cases hconnection : m.connection with
  | none => exact hconnection
  | some c => exact hconnection

theorem Own.setTables (h : m.Own username) (t : Tables K) : (m.setTables t).Own username := by
  unfold Own
  rw [connection_setTables]
  exact h

end Frame

end Machine

section Tables

variable [LinearOrder K] {m : Machine K}

/-- Tables that are written are there afterwards. -/
theorem tables_setTables {t : Tables K} (h : m.tables = .ok t) (t' : Tables K) :
    (m.setTables t').tables = .ok t' := by
  obtain ⟨user, key, hconnection, -⟩ := tables_eq_ok_iff.mp h
  refine tables_eq_ok_iff.mpr ⟨user, key, ?_, ?_⟩
  · rw [Machine.connection_setTables, hconnection]
  · unfold Machine.setTables
    rw [hconnection]
    exact database_setDatabase _

/-- What a statement that writes keeps in the tables it finds there. -/
theorem keeps_tables_execute {P : Tables K → Prop} {f : Tables K → Tables K}
    (hf : ∀ t, P t → P (f t)) :
    Throwing.Keeps (fun m => ∃ t, m.tables = .ok t ∧ P t) (execute f) := by
  rintro m ⟨t, ht, hP⟩
  obtain ⟨e, hrun⟩ | ⟨t', ht', hrun⟩ := execute_cases f m
  · rw [hrun]
    exact ⟨t, ht, hP⟩
  · obtain rfl := Except.ok.inj (ht.symm.trans ht')
    rw [hrun]
    exact ⟨f t, tables_setTables ht (f t), hf t hP⟩

end Tables

/-! ## The steps of a call -/

/-- **A step that works on one user's store**, wherever the connection is
that user's: it neither sees nor undoes a change outside it. -/
def WorksOn {α : Type} (username : String) (c : AccountM K α) : Prop :=
  ∀ f, Machine.Outside username f → Throwing.Ignores (Machine.Own username) f c

/-- A step that does so wherever the connection is, and leaves it there. -/
def UsesSaltOnly {α : Type} (username : String) (c : AccountM K α) : Prop :=
  ∀ connection f, Machine.Outside username f →
    Throwing.Ignores (fun m : Machine K => m.connection = connection) f c

/-- A step that neither reads nor changes the files of others. -/
def IgnoresOthers {α : Type} (username : String) (c : AccountM K α) : Prop :=
  ∀ p g, Throwing.Ignores (Machine.Own username) (Machine.withOthers username p g) c

section Steps

open Throwing

variable {α β : Type} {username : String}

namespace UsesSaltOnly

theorem answer (r : Except Fault α) : UsesSaltOnly (K := K) username (answer r) :=
  fun _ _ _ => Ignores.answer r

theorem bind {c : AccountM K α} {k : α → AccountM K β} (hc : UsesSaltOnly username c)
    (hk : ∀ a, UsesSaltOnly username (k a)) : UsesSaltOnly username (c >>= k) :=
  fun connection f hf => Ignores.bind (hc connection f hf) fun a => hk a connection f hf

/-- The connection stays what it was. -/
theorem connection_eq {c : AccountM K α} (h : UsesSaltOnly username c) (m : Machine K) :
    (c m).2.connection = m.connection :=
  (h m.connection _ (Machine.outside_withOthers username m.dataPath m.disk) m rfl).1

theorem worksOn {c : AccountM K α} (h : UsesSaltOnly username c) :
    WorksOn username c := fun f hf m hm => by
  obtain ⟨hconnection, hsame⟩ := h m.connection f hf m rfl
  refine ⟨?_, hsame⟩
  unfold Machine.Own
  rwa [hconnection]

end UsesSaltOnly

theorem usesSaltOnly_writeSalt (bytes : List UInt8) :
    UsesSaltOnly (K := K) username (writeSalt username bytes) :=
  fun _ _ hf => Ignores.modify (fun _ h => h) fun _ _ => hf.setSalt bytes

theorem usesSaltOnly_saveSaltToFile (salt : Salt) (d : SaltSaving) :
    UsesSaltOnly (K := K) username (saveSaltToFile username salt d) :=
  (UsesSaltOnly.answer _).bind fun _ => (usesSaltOnly_writeSalt _).bind fun _ =>
    UsesSaltOnly.answer _

theorem usesSaltOnly_getSaltFromFile (buffer : Salt) :
    UsesSaltOnly (K := K) username (getSaltFromFile username buffer) :=
  fun _ _ hf => Ignores.reads fun m _ => by simp only [hf.files]

namespace WorksOn

theorem pure (a : α) : WorksOn (K := K) username (Pure.pure a) := fun _ _ => Ignores.pure a

theorem answer (r : Except Fault α) : WorksOn (K := K) username (answer r) :=
  fun _ _ => Ignores.answer r

theorem bind {c : AccountM K α} {k : α → AccountM K β} (hc : WorksOn username c)
    (hk : ∀ a, WorksOn username (k a)) : WorksOn username (c >>= k) :=
  fun f hf => Ignores.bind (hc f hf) fun a => hk a f hf

theorem ignoresOthers {c : AccountM K α} (h : WorksOn username c) : IgnoresOthers username c :=
  fun p g => h _ (Machine.outside_withOthers username p g)

end WorksOn

theorem IgnoresOthers.bind {c : AccountM K α} {k : α → AccountM K β} (hc : IgnoresOthers username c)
    (hk : ∀ a, IgnoresOthers username (k a)) : IgnoresOthers username (c >>= k) :=
  fun p g => Ignores.bind (hc p g) fun a => hk a p g

theorem worksOn_setKek (kek : K) : WorksOn username (setKek kek) :=
  fun _ hf => Ignores.modify (fun _ h => h) fun m _ => hf.setKek (some kek) m

theorem worksOn_getKek : WorksOn (K := K) username getKek :=
  fun _ hf => Ignores.reads fun m _ => by rw [hf.kek]

theorem worksOn_setTables (t : Tables K) :
    WorksOn username (modify (·.setTables t) : AccountM K Unit) :=
  fun _ hf => Ignores.modify (fun _ h => h.setTables t) fun _ h => hf.setTables h t

variable [LinearOrder K]

/-- A query goes to the connection, -/
theorem worksOn_query (q : Tables K → Except Fault α) : WorksOn username (query q) :=
  fun _ hf => Ignores.reads fun _ h => by rw [hf.tables h]

/-- and so does a statement that writes. -/
theorem worksOn_execute (q : Tables K → Tables K) : WorksOn username (execute q) :=
  (worksOn_query _).bind fun _ => worksOn_setTables _

theorem worksOn_dropAllTables : WorksOn (K := K) username dropAllTables := by
  have hkept : Keeps (Machine.Own username) (dropAllTables (K := K)) := by
    intro m h
    obtain hrun | ⟨user, key, -, hrun⟩ := dropAllTables_cases m
    · rw [hrun]
      exact h
    · rw [hrun]
      exact h
  refine fun f hf => Ignores.modify hkept fun m h => ?_
  simp only [hf.connection]
  cases hconnection : m.connection with
  | none => rfl
  | some c =>
    obtain ⟨user, key⟩ := c
    obtain rfl := h.eq hconnection
    simp only [hf.files]
    cases (m.files user).database with
    | none => rfl
    | some d =>
      by_cases hk : d.key = key
      · simp only [if_pos hk, hf.setDatabase]
      · simp only [if_neg hk]

theorem worksOn_initSchema (created : Except Fault Unit) :
    WorksOn (K := K) username (initSchema created) := by
  intro f hf m h
  unfold initSchema
  rw [hf.connection]
  cases hconnection : m.connection with
  | none => exact ⟨h, rfl⟩
  | some c =>
    obtain ⟨user, key⟩ := c
    obtain rfl := h.eq hconnection
    cases created with
    | error e => exact ⟨h, rfl⟩
    | ok _ =>
      simp only [hf.files]
      cases (m.files user).database with
      | none => exact ⟨h.setTables _, by rw [hf.setTables h]⟩
      | some d =>
        by_cases hk : d.key = key
        · simp only [if_pos hk]
          exact ⟨h.setTables _, by rw [hf.setTables h]⟩
        · simp only [if_neg hk]
          exact ⟨h, trivial⟩

/-- **`initialize` opens the user's own database**, if no other is open. -/
theorem worksOn_initializeDatabase (masterKey : K) (opened : Except Fault Unit) :
    WorksOn username (initializeDatabase username masterKey opened) := by
  intro f hf m h
  have hopens : ({ m with connection := some (username, masterKey) } : Machine K).Own username :=
    fun user key hc => (Prod.mk.inj (Option.some.inj hc)).1.symm
  unfold initializeDatabase
  rw [hf.connection, hf.files]
  cases hconnection : m.connection with
  | some c => exact ⟨h, rfl⟩
  | none =>
    cases opened with
    | error e => exact ⟨h, rfl⟩
    | ok _ =>
      cases (m.files username).database with
      | none => exact ⟨hopens, congrArg (Except.ok (), ·) (hf.setConnection _ m)⟩
      | some d =>
        by_cases hk : d.key = masterKey
        · simp only [if_pos hk]
          exact ⟨hopens, congrArg (Except.ok (), ·) (hf.setConnection _ m)⟩
        · simp only [if_neg hk]
          exact ⟨h, trivial⟩

/-! ## The calls -/

variable (C : AccountCrypto K)

omit [LinearOrder K] in
theorem worksOn_encryptSecretKey (sk : K) (nonce : List UInt8) :
    WorksOn username (encryptSecretKey C sk nonce) :=
  worksOn_getKek.bind fun _ => WorksOn.pure _

theorem worksOn_getDecryptedKeypair (label : String) :
    WorksOn username (getDecryptedKeypair C label) :=
  (worksOn_query _).bind fun _ => worksOn_getKek.bind fun _ =>
    (WorksOn.answer _).bind fun _ => WorksOn.pure _

omit [LinearOrder K] in
theorem usesSaltOnly_newMasterKey (password : List UInt8) (d : SetUp K) :
    UsesSaltOnly username (d.newMasterKey C username password) := by
  refine (UsesSaltOnly.answer _).bind fun _ => (UsesSaltOnly.answer _).bind fun _ => ?_
  exact (usesSaltOnly_saveSaltToFile _ _).bind fun _ => UsesSaltOnly.answer (.ok _)

theorem worksOn_newKek (masterKey : K) (d : SetUp K) :
    WorksOn username (d.newKek C masterKey) := by
  have hdrop : WorksOn (K := K) username
      (if d.refreshTables then dropAllTables else Pure.pure ()) := by
    cases d.refreshTables with
    | true => exact worksOn_dropAllTables
    | false => exact WorksOn.pure ()
  refine hdrop.bind fun _ => (worksOn_initSchema _).bind fun _ => ?_
  refine (WorksOn.answer _).bind fun _ => (worksOn_setKek _).bind fun _ => ?_
  exact (WorksOn.answer _).bind fun _ => worksOn_execute _

theorem worksOn_newIdentity (d : Registration K) :
    WorksOn username (d.newIdentity C) :=
  (worksOn_encryptSecretKey C _ _).bind fun _ => (WorksOn.answer _).bind fun _ =>
    (worksOn_execute _).bind fun _ => WorksOn.answer _

omit [LinearOrder K] in
theorem usesSaltOnly_masterKey (password : List UInt8) (d : LoginDraws K) :
    UsesSaltOnly username (d.masterKey C username password) :=
  (usesSaltOnly_getSaltFromFile _).bind fun _ => UsesSaltOnly.answer _

theorem worksOn_loadKek (masterKey : K) : WorksOn username (loadKek C masterKey) :=
  (worksOn_query _).bind fun _ => (WorksOn.answer _).bind fun _ => worksOn_setKek _

omit [LinearOrder K] in
theorem worksOn_encryptOnetimeKeys (onetime : List ((K × K) × List UInt8)) :
    WorksOn username (encryptOnetimeKeys C onetime) := by
  induction onetime with
  | nil => exact WorksOn.pure []
  | cons key onetime ih =>
    obtain ⟨⟨pk, sk⟩, nonce⟩ := key
    exact (worksOn_encryptSecretKey C sk nonce).bind fun _ => ih.bind fun _ =>
      WorksOn.pure _

theorem worksOn_saveEncryptedOnetimeKeys (keys : List (K × EncryptedKey)) :
    WorksOn username (saveEncryptedOnetimeKeys keys) := by
  refine fun f hf => Ignores.modify (fun m h => ?_) fun m h => ?_
  · cases m.tables with
    | error e => exact h
    | ok t => exact h.setTables _
  · rw [hf.tables h]
    cases m.tables with
    | error e => rfl
    | ok t => exact hf.setTables h _

theorem worksOn_postNewKeys (d : PrekeyDraws K) :
    WorksOn username (postNewKeys C d) := by
  have hsigned : WorksOn username (generateSignedPrekey C d) :=
    (worksOn_encryptSecretKey C _ _).bind fun _ => (worksOn_execute _).bind fun _ =>
      (worksOn_getDecryptedKeypair C _).bind fun _ => WorksOn.pure ()
  refine (worksOn_query _).bind fun lastUpdated => ?_
  have hrenew : WorksOn username
      (if lastUpdated.all fun t => t < d.now - Responder.maxAge then generateSignedPrekey C d
        else Pure.pure ()) := by
    split
    · exact hsigned
    · exact WorksOn.pure ()
  refine hrenew.bind fun _ => (worksOn_getDecryptedKeypair C _).bind fun _ => ?_
  refine (worksOn_encryptOnetimeKeys C _).bind fun _ => ?_
  exact (worksOn_saveEncryptedOnetimeKeys _).bind fun _ => WorksOn.answer _

/-- Loading the sessions changes the map, -/
theorem ignoresOthers_loadRatchetsFromDb :
    IgnoresOthers (K := K) username loadRatchetsFromDb :=
  (worksOn_query _).ignoresOthers.bind fun _ _ _ => Ignores.modify (fun _ h => h) fun _ _ => rfl

/-- which is nobody's file. -/
theorem ignoresOthers_finish (d : LoginDraws K) : IgnoresOthers username (d.finish C) := by
  refine (worksOn_getDecryptedKeypair C _).ignoresOthers.bind fun _ => ?_
  refine (WorksOn.answer _).ignoresOthers.bind fun _ => ?_
  refine (WorksOn.answer _).ignoresOthers.bind fun _ => ?_
  refine ignoresOthers_loadRatchetsFromDb.bind fun _ => ?_
  cases d.newKeys with
  | none => exact (WorksOn.pure ()).ignoresOthers
  | some draws => exact (worksOn_postNewKeys C draws).ignoresOthers

end Steps

/-- **A call of the process.** -/
inductive AccountCall (K : Type) where
  | registers (username : String) (password : List UInt8) (d : Registration K)
  | logsIn (username : String) (password : List UInt8) (d : LoginDraws K)
  | logsOut (answered : Except Fault Unit)

namespace AccountCall

variable [LinearOrder K] (C : AccountCrypto K)

/-- What it does. -/
def run : AccountCall K → AccountM K Unit
  | registers username password d => registerUser C username password d
  | logsIn username password d => loginUser C username password d
  | logsOut answered => logout answered

/-- It gets past `initialize`, `m₁` being the machine then. -/
def PastInitialize (m m₁ : Machine K) : AccountCall K → Prop
  | registers username password d => ∃ masterKey m₀,
      d.newMasterKey C username password m = (.ok masterKey, m₀)
        ∧ initializeDatabase username masterKey d.opened m₀ = (.ok (), m₁)
  | logsIn username password d => ∃ masterKey m₀,
      d.masterKey C username password m = (.ok masterKey, m₀)
        ∧ initializeDatabase username masterKey d.opened m₀ = (.ok (), m₁)
  | logsOut _ => False

/-- Whom a call is for. -/
def user : AccountCall K → Option String
  | registers username _ _ => some username
  | logsIn username _ _ => some username
  | logsOut _ => none

/-- **A call keeps to its own user's store** among some users: past
`initialize` the open database is that user's; the call neither reads nor
changes the files elsewhere, whatever these are; and whoever else of the
users was unlockable still is. A `logout` leaves all files alone. -/
def KeepsToOwn (users : Set String) (c : AccountCall K) (m : Machine K) : Prop :=
  match c.user with
  | some username =>
      (∀ m₁, c.PastInitialize C m m₁ → ∃ key, m₁.connection = some (username, key))
        ∧ (∀ p g, c.run C (m.withOthers username p g)
          = ((c.run C m).1, (c.run C m).2.withOthers username p g))
        ∧ ∀ v ∈ users, v ≠ username → ∀ password, m.Unlocks C v password →
          (c.run C m).2.Unlocks C v password
  | none => (c.run C m).2.disk = m.disk

/-- It gets as far as `initialize`: nothing before it throws. -/
def ReachesInitialize (m : Machine K) : AccountCall K → Prop
  | registers _ _ d => d.sodiumInit.isOk ∧ d.derived.isOk ∧ d.saltSaved.opened.isOk
      ∧ d.saltSaved.closed.isOk
  | logsIn username _ d => (m.files username).salt.isSome ∧ d.derived.isOk
  | logsOut _ => False

/-- **No other user's connection is open** when the call gets as far as
`initialize`. -/
def Meets (c : AccountCall K) (m : Machine K) : Prop :=
  ∀ username, c.user = some username → c.ReachesInitialize m → m.Own username

section Steps

variable {C} {username : String} {password : List UInt8} {m m₁ : Machine K}

omit [LinearOrder K] in
/-- What the beginning of a registration needs to return, -/
theorem isOk_newMasterKey (d : SetUp K) : (d.newMasterKey C username password m).1.isOk
    ↔ d.sodiumInit.isOk ∧ d.derived.isOk ∧ d.saltSaved.opened.isOk
      ∧ d.saltSaved.closed.isOk := by
  unfold SetUp.newMasterKey deriveMasterKey saveSaltToFile writeSalt
  cases d.sodiumInit <;> cases d.derived <;> cases d.saltSaved.opened <;>
    cases d.saltSaved.closed <;>
    simp [Throwing.answer, Throwing.modify, Bind.bind, Pure.pure, Except.map, Except.isOk,
      Except.toBool]

omit [LinearOrder K] in
/-- and what that of a login does. -/
theorem isOk_masterKey (d : LoginDraws K) : (d.masterKey C username password m).1.isOk
    ↔ (m.files username).salt.isSome ∧ d.derived.isOk := by
  unfold LoginDraws.masterKey deriveMasterKey getSaltFromFile
  cases hsalt : (m.files username).salt <;> cases d.derived <;>
    simp [Throwing.answer, Throwing.reads, Bind.bind, hsalt, Except.map, Except.isOk,
      Except.toBool]

/-- Past `initialize` one's own connection is open, if no other was before, -/
theorem connection_of_initializeDatabase (h : m.Own username) {masterKey : K}
    {opened : Except Fault Unit}
    (hok : initializeDatabase username masterKey opened m = (.ok (), m₁)) :
    ∃ key, m₁.connection = some (username, key) := by
  obtain ⟨e, hrun, -⟩ | ⟨c, hrun, hwhose⟩ := initializeDatabase_cases username masterKey opened m
  · cases (Prod.mk.inj (hrun.symm.trans hok)).1
  · obtain rfl := (Prod.mk.inj (hrun.symm.trans hok)).2
    obtain hsome | ⟨-, rfl, -⟩ := hwhose
    · obtain rfl := h.eq hsome
      exact ⟨c.2, rfl⟩
    · exact ⟨masterKey, rfl⟩

/-- and any other stays open. -/
theorem initializeDatabase_of_some {c : String × K} (h : m.connection = some c) (masterKey : K)
    (opened : Except Fault Unit) :
    initializeDatabase username masterKey opened m = (.ok (), m) := by
  unfold initializeDatabase
  rw [h]

omit [LinearOrder K] in
/-- What neither reads nor changes files elsewhere leaves them as they are. -/
theorem files_of_withOthers {c : AccountM K Unit}
    (h : ∀ p g, c (m.withOthers username p g) = ((c m).1, (c m).2.withOthers username p g))
    {v : String} (hv : m.place v ≠ m.place username) : (c m).2.files v = m.files v := by
  have hself : (c m).2 = (c m).2.withOthers username m.dataPath m.disk := by
    have hsame := h m.dataPath m.disk
    rw [Machine.withOthers_self] at hsame
    exact congrArg Prod.snd hsame
  rw [hself]
  exact Function.update_of_ne hv ..

/-- **A call that opens its store after a beginning** keeps to its own user's
files exactly if no other's connection is open when it gets there. -/
theorem keepsToOwn_of_beginning {users : Set String} (hsep : users.InjOn m.place)
    (hmem : username ∈ users) {b : AccountM K K} (hb : UsesSaltOnly username b)
    {opened : Except Fault Unit} {c : AccountM K Unit} (hc : IgnoresOthers username c)
    (hrun : ∀ e m₀, b m = (.error e, m₀) → c m = (.error e, m₀))
    (hrun' : ∀ p g e m₀, b (m.withOthers username p g) = (.error e, m₀) →
      c (m.withOthers username p g) = (.error e, m₀)) :
    ((∀ m₁, (∃ masterKey m₀, b m = (.ok masterKey, m₀)
          ∧ initializeDatabase username masterKey opened m₀ = (.ok (), m₁)) →
        ∃ key, m₁.connection = some (username, key))
      ∧ (∀ p g, c (m.withOthers username p g) = ((c m).1, (c m).2.withOthers username p g))
      ∧ ∀ v ∈ users, v ≠ username → ∀ password, m.Unlocks C v password →
        (c m).2.Unlocks C v password)
    ↔ ((b m).1.isOk → m.Own username) := by
  have hconnection := hb.connection_eq m
  constructor
  · rintro ⟨hopen, -, -⟩ hok
    obtain ⟨masterKey, hkey⟩ := exists_of_isOk hok
    intro user key hm
    have hm₀ : (b m).2.connection = some (user, key) := hconnection.trans hm
    obtain ⟨key', hown⟩ := hopen (b m).2
      ⟨masterKey, (b m).2, Prod.ext hkey rfl, initializeDatabase_of_some hm₀ ..⟩
    exact (Prod.mk.inj (Option.some.inj (hm₀.symm.trans hown))).1
  · intro hown
    have hframe : ∀ p g, c (m.withOthers username p g)
        = ((c m).1, (c m).2.withOthers username p g) := by
      intro p g
      cases hbm : b m with
      | mk result m₀ =>
        cases result with
        | ok masterKey => exact (hc p g m (hown (by rw [hbm]; rfl))).2
        | error e =>
          have hsame := (hb m.connection _ (Machine.outside_withOthers username p g) m rfl).2
          rw [hbm] at hsame
          rw [hrun e m₀ hbm, hrun' p g e _ hsame]
    refine ⟨?_, hframe, fun v hv hne p hu => hu.of_files (files_of_withOthers hframe ?_)⟩
    swap
    · -- so whoever was unlockable there still is
      exact fun hplace => hne (hsep hv hmem hplace)
    rintro m₁ ⟨masterKey, m₀, hbm, hopen⟩
    refine connection_of_initializeDatabase ?_ hopen
    have hm := hown (by rw [hbm]; rfl)
    rw [hbm] at hconnection
    unfold Machine.Own
    rw [show m₀.connection = m.connection from hconnection]
    exact hm

/-- A call that fails at its beginning is over. -/
theorem registerUser_of_error {d : Registration K} {e : Fault}
    (h : d.newMasterKey C username password m = (.error e, m₁)) :
    registerUser C username password d m = (.error e, m₁) := by
  have hsetUp : setUpClientForUser C username password d.toSetUp m = (.error e, m₁) :=
    Throwing.bind_of_error h
  exact Throwing.bind_of_error hsetUp

theorem loginUser_of_error {d : LoginDraws K} {e : Fault}
    (h : d.masterKey C username password m = (.error e, m₁)) :
    loginUser C username password d m = (.error e, m₁) := Throwing.bind_of_error h

theorem worksOn_registerUser (d : Registration K) :
    WorksOn username (registerUser C username password d) := by
  have hsetUp : WorksOn username (setUpClientForUser C username password d.toSetUp) :=
    (usesSaltOnly_newMasterKey C password d.toSetUp).worksOn.bind fun _ =>
      (worksOn_initializeDatabase _ _).bind fun _ => worksOn_newKek C _ _
  exact hsetUp.bind fun _ => worksOn_newIdentity C d

theorem ignoresOthers_loginUser (d : LoginDraws K) :
    IgnoresOthers username (loginUser C username password d) :=
  (usesSaltOnly_masterKey C password d).worksOn.ignoresOthers.bind fun _ =>
    (worksOn_initializeDatabase _ _).ignoresOthers.bind fun _ =>
      (worksOn_loadKek C _).ignoresOthers.bind fun _ => ignoresOthers_finish C d

end Steps

/-- The data directory is where it was, whatever is called. -/
theorem keeps_dataPath (p : Place) (c : AccountCall K) :
    Throwing.Keeps (fun m : Machine K => m.dataPath = p) (c.run C) := by
  have htables : ∀ (m : Machine K) t, m.dataPath = p → (m.setTables t).dataPath = p := by
    intro m t h
    unfold Machine.setTables
    cases m.connection with
    | none => exact h
    | some c => exact h
  have hexecute : ∀ f, Throwing.Keeps (fun m : Machine K => m.dataPath = p) (execute f) :=
    fun f => (Throwing.Keeps.reads _).bind fun _ => Throwing.Keeps.modify fun m => htables m _
  have hdrop : Throwing.Keeps (fun m : Machine K => m.dataPath = p) dropAllTables := by
    intro m h
    obtain hrun | ⟨user, key, -, hrun⟩ := dropAllTables_cases m <;> rw [hrun] <;> exact h
  have hinit : ∀ created,
      Throwing.Keeps (fun m : Machine K => m.dataPath = p) (initSchema created) := by
    intro created m h
    obtain ⟨e, hrun⟩ | ⟨user, key, t, -, -, hrun⟩ := initSchema_cases created m <;>
      rw [hrun] <;> exact h
  have hopen : ∀ username masterKey opened, Throwing.Keeps (fun m : Machine K => m.dataPath = p)
      (initializeDatabase username masterKey opened) := by
    intro username masterKey opened m h
    obtain ⟨e, hrun, -⟩ | ⟨c, hrun, -⟩ := initializeDatabase_cases username masterKey opened m <;>
      rw [hrun] <;> exact h
  cases c with
  | registers username password d =>
    exact keeps_registerUser (fun _ _ h => h) (hopen username) hdrop hinit (fun _ _ h => h)
      password d (fun _ => hexecute _) fun _ _ => hexecute _
  | logsIn username password d =>
    have hload : Throwing.Keeps (fun m : Machine K => m.dataPath = p) loadRatchetsFromDb :=
      (Throwing.Keeps.reads _).bind fun _ => Throwing.Keeps.modify fun _ h => h
    refine keeps_loginUser (hopen username) (fun _ _ h => h) hload (fun _ _ => hexecute _)
      (fun keys => Throwing.Keeps.modify fun m h => ?_) password d
    cases m.tables with
    | error e => exact h
    | ok t => exact htables m _ h
  | logsOut answered =>
    intro m h
    show ((logout answered : AccountM K Unit) m).2.dataPath = p
    cases answered <;> exact h

/-- One call keeps to its own user's store exactly if it meets no other
connection, among users whose names lead to different places. -/
theorem keepsToOwn_iff_meets {users : Set String} (c : AccountCall K) {m : Machine K}
    (hc : ∀ username, c.user = some username → username ∈ users) (hsep : users.InjOn m.place) :
    c.KeepsToOwn C users m ↔ c.Meets m := by
  cases c with
  | registers username password d =>
    refine (keepsToOwn_of_beginning hsep (hc username rfl)
      (usesSaltOnly_newMasterKey C password d.toSetUp) (worksOn_registerUser d).ignoresOthers
      (fun _ _ => registerUser_of_error) fun _ _ _ _ => registerUser_of_error).trans ?_
    rw [isOk_newMasterKey]
    exact ⟨fun h _ hu hr => Option.some.inj hu ▸ h hr, fun h => h username rfl⟩
  | logsIn username password d =>
    refine (keepsToOwn_of_beginning hsep (hc username rfl) (usesSaltOnly_masterKey C password d)
      (ignoresOthers_loginUser d) (fun _ _ => loginUser_of_error)
      fun _ _ _ _ => loginUser_of_error).trans ?_
    rw [isOk_masterKey]
    exact ⟨fun h _ hu hr => Option.some.inj hu ▸ h hr, fun h => h username rfl⟩
  | logsOut answered =>
    refine ⟨fun _ _ hu => absurd hu nofun, fun _ => ?_⟩
    show ((logout answered : AccountM K Unit) m).2.disk = m.disk
    cases answered <;> rfl

/-- **Every call works on its own user's store exactly if none meets
another's connection**: along any calls of one process, for users whose names
lead to different places, and whatever fails, each keeps to its own user's
store if and only if, whenever one gets as far as `initialize`, no connection
is open or it is its own user's. -/
theorem keepsToOwn_iff {users : Set String} {calls : List (AccountCall K)} {m : Machine K}
    (hcalls : ∀ c ∈ calls, ∀ username, c.user = some username → username ∈ users)
    (hsep : users.InjOn m.place) :
    Throwing.Along (run C) (KeepsToOwn C users) calls m
      ↔ Throwing.Along (run C) Meets calls m := by
  refine Throwing.along_congr (I := fun s => s.dataPath = m.dataPath)
    (fun c => c.keeps_dataPath C m.dataPath) (fun c hc s hs => ?_) rfl
  refine keepsToOwn_iff_meets C c (hcalls c hc) ?_
  unfold Machine.place
  rw [hs]
  exact hsep

/-! ## Alice and bob -/

/-- Alice registers and logs out, and bob registers: each keeps to files of
their own. -/
theorem keepsToOwn_iff_alice_bob :
    Throwing.Along (run .ideal) (KeepsToOwn .ideal {"alice", "bob"})
      [registers "alice" [1] (.ideal (.ideal 1) 5), logsOut (.ok ()),
        registers "bob" [2] (.ideal (.ideal 2) 6)] .blank := by
  refine (keepsToOwn_iff .ideal ?_ ?_).mpr ?_
  · intro c hc username hu
    simp only [List.mem_cons, List.not_mem_nil, or_false] at hc
    obtain rfl | rfl | rfl := hc
    · exact Or.inl (Option.some.inj hu).symm
    · cases hu
    · exact Or.inr (Option.some.inj hu).symm
  · rintro u (rfl | rfl) v (rfl | rfl) h
    · rfl
    · exact absurd h (by decide)
    · exact absurd h (by decide)
    · rfl
  · refine ⟨?_, ?_, ?_, trivial⟩
    · rintro username - - user key h
      cases h
    · rintro username h
      cases h
    · rintro username - - user key h
      cases h

/-- Alice registers, her logout is refused, and bob registers. -/
def refusedLogout : List (AccountCall ℕ) :=
  [registers "alice" [1] (.ideal (.ideal 1) 5), logsOut (.error (.runtimeError "503")),
    registers "bob" [2] (.ideal (.ideal 2) 6)]

/-- Bob registers and logs out, and another user registers as `./bob`. -/
def otherName : List (AccountCall ℕ) :=
  [registers "bob" [2] (.ideal (.ideal 2) 6), logsOut (.ok ()),
    registers "./bob" [1] (.ideal (.ideal 1) 5)]

/-- The machine after the first of some calls. -/
def afterCalls (calls : List (AccountCall ℕ)) (n : ℕ) : Machine ℕ :=
  Throwing.after (run .ideal) (calls.take n) .blank

/-- Bob's registration returns; it has been working on alice's database, and
her password opens nothing any more. -/
theorem not_keepsToOwn_of_refusedLogout :
    Set.InjOn Machine.blank.place {"alice", "bob"}
      ∧ (afterCalls refusedLogout 1).Unlocks .ideal "alice" [1]
      ∧ (run .ideal (registers "bob" [2] (.ideal (.ideal 2) 6))
        (afterCalls refusedLogout 2)).1.isOk
      ∧ (afterCalls refusedLogout 3).connection.map Prod.fst = some "alice"
      ∧ ¬ (afterCalls refusedLogout 3).Unlocks .ideal "alice" [1]
      ∧ ¬ Throwing.Along (run .ideal) (KeepsToOwn .ideal {"alice", "bob"}) refusedLogout .blank := by
  have hbefore : (afterCalls refusedLogout 1).Unlocks .ideal "alice" [1] := by
    have hsalt : ((afterCalls refusedLogout 1).files "alice").salt = some (List.replicate 16 1) :=
      rfl
    have hopens : (unlock .ideal "alice" [1] (.ideal 0)
        (afterCalls refusedLogout 1).restart).1.isOk := by
      decide +kernel
    exact unlocks_of_isOk hsalt (by decide) hopens
  have hafter : ¬ (afterCalls refusedLogout 3).Unlocks .ideal "alice" [1] := fun h =>
    absurd (h (.ideal 0)) (by decide +kernel)
  refine ⟨?_, hbefore, by decide +kernel, by decide +kernel, hafter, ?_⟩
  · rintro u (rfl | rfl) v (rfl | rfl) h
    · rfl
    · exact absurd h (by decide)
    · exact absurd h (by decide)
    · rfl
  · rintro ⟨-, -, ⟨-, -, hothers⟩, -⟩
    exact hafter (hothers "alice" (Or.inl rfl) (by decide) [1] hbefore)

/-- **Another name for the same files**: no connection of another user is
open, the registration throws, and bob's password opens nothing any more. -/
theorem not_keepsToOwn_of_otherName :
    Machine.blank.place "./bob" = Machine.blank.place "bob"
      ∧ Throwing.Along (run .ideal) Meets otherName .blank
      ∧ (afterCalls otherName 2).Unlocks .ideal "bob" [2]
      ∧ ¬ (afterCalls otherName 3).Unlocks .ideal "bob" [2]
      ∧ ¬ Throwing.Along (run .ideal) (KeepsToOwn .ideal {"bob", "./bob"}) otherName .blank := by
  have hbefore : (afterCalls otherName 2).Unlocks .ideal "bob" [2] := by
    have hsalt : ((afterCalls otherName 2).files "bob").salt = some (List.replicate 16 2) := rfl
    have hopens : (unlock .ideal "bob" [2] (.ideal 0) (afterCalls otherName 2).restart).1.isOk := by
      decide +kernel
    exact unlocks_of_isOk hsalt (by decide) hopens
  have hafter : ¬ (afterCalls otherName 3).Unlocks .ideal "bob" [2] := fun h =>
    absurd (h (.ideal 0)) (by decide +kernel)
  refine ⟨by decide, ⟨?_, ?_, ?_, trivial⟩, hbefore, hafter, ?_⟩
  · rintro username - - user key h
    cases h
  · rintro username h
    cases h
  · rintro username - - user key h
    cases h
  · rintro ⟨-, -, ⟨-, -, hothers⟩, -⟩
    exact hafter (hothers "bob" (Or.inl rfl) (by decide) [2] hbefore)

end AccountCall
