import Eastwood.AtRest
import Eastwood.PasswordRotation

/-!
# After any rotations

A rotation that goes through to its end changes three things: the salt on
disk, the key the database is under, and the row of the KEK. They fit
together before and after: the salt and the current password make the key of
the database, and in the row is the KEK of registration, encrypted under that
key (`Machine.InOrder`). An attempt with a wrong old password changes
nothing, and no rotation touches a row that is under the KEK.

So after any completed rotations, with such attempts between them, the latest
password gets in and finds the KEK of registration, everything stored reads as
it did, and no other password gets in (`RotateCall.recovers_of_rotations`).
-/

open Throwing

variable {K : Type}

/-! ## Rows under the KEK -/

/-- A row of `ratchets` with its row of `ratchet_keys`. -/
structure SealedRatchet where
  username : String
  envelope : Envelope
  deriving DecidableEq

/-- **What is on disk** of a user's ratchets and messages. -/
structure SealedRows (K : Type) where
  ratchets : Finmap fun _ : K => SealedRatchet
  messages : SealedMessages K

/-- **The rows are those of some tables**, a ratchet being written as some
bytes: each opens to what the tables have. -/
structure SealedRows.Holds [DecidableEq K] (C : AccountCrypto K) (kek : K)
    (serialise : NewRatchet K → List UInt8) (rows : SealedRows K) (t : Tables K) : Prop where
  ratchets : ∀ device, (rows.ratchets.lookup device).map (fun row =>
      (row.username, row.envelope.contents C.aead C.keyBytes kek))
    = (t.ratchets.lookup device).map fun row => (row.1, .ok (serialise row.2))
  messages : rows.messages.Holds C.aead C.keyBytes kek t.messages

section Reading

variable [LinearOrder K] (C : AccountCrypto K)

/-- `get_onetime_private_key`. -/
def getOnetimePrivateKey : Option K → AccountM K (Option K)
  | none => return none
  | some publicKey => do
    let row ← query fun t => .ok (t.onetimePrekeys.find? (·.1 = publicKey))
    match row with
    | none => return none
    | some row => do
      let kek ← getKek
      let sk ← Throwing.answer (C.decryptKey "Failed to decrypt secret key" row.2 kek)
      return some sk

namespace SealedRows

/-- `get_decrypted_ratchet_by_username_device`. -/
def getDecryptedRatchet (username : String) (device : K) (rows : SealedRows K) :
    AccountM K (List UInt8) := do
  let row ← Throwing.answer
    (orThrow "No ratchet found for the given username and device_id"
      ((rows.ratchets.lookup device).filter (·.username = username)))
  let kek ← getKek
  Throwing.answer (row.envelope.contents C.aead C.keyBytes kek)

/-- `get_decrypted_message`. -/
def getDecryptedMessage (fileUuid : String) (rows : SealedRows K) : AccountM K (List UInt8) := do
  let row ← Throwing.answer
    (orThrow "No message found with the given file_uuid" (rows.messages.lookup fileUuid))
  let kek ← getKek
  Throwing.answer (row.envelope.contents C.aead C.keyBytes kek)

end SealedRows

/-- The rows on disk are the tables of the connection, under the KEK of the
process. -/
def Machine.HasRows (serialise : NewRatchet K → List UInt8) (rows : SealedRows K)
    (m : Machine K) : Prop :=
  ∃ kek t, m.kek = some kek ∧ m.tables = .ok t ∧ rows.Holds C kek serialise t

/-- **Everything stored reads as it did**: key pairs, one-time keys, and what
was sealed, which are the rows on disk still. -/
structure Machine.ReadsAs (before m : Machine K) : Prop where
  keypairs : ∀ label, (getDecryptedKeypair C label m).1 = (getDecryptedKeypair C label before).1
  onetimeKeys : ∀ publicKey,
    (getOnetimePrivateKey C publicKey m).1 = (getOnetimePrivateKey C publicKey before).1
  rows : ∀ serialise rows, before.HasRows C serialise rows → m.HasRows C serialise rows
  ratchets : ∀ rows username device, (SealedRows.getDecryptedRatchet C username device rows m).1
    = (SealedRows.getDecryptedRatchet C username device rows before).1
  messages : ∀ rows fileUuid, (SealedRows.getDecryptedMessage C fileUuid rows m).1
    = (SealedRows.getDecryptedMessage C fileUuid rows before).1

section Rows

variable {C} {serialise : NewRatchet K → List UInt8} {rows : SealedRows K} {m : Machine K}

/-- **What is read of the rows is what the tables have**: a message, -/
theorem Machine.HasRows.getDecryptedMessage_eq (h : m.HasRows C serialise rows)
    (fileUuid : String) : ∃ t, m.tables = .ok t
      ∧ (rows.getDecryptedMessage C fileUuid m).1 = (m.store t).getDecryptedMessage fileUuid := by
  obtain ⟨kek, t, hkek, ht, -, hrows⟩ := h
  have hmessage := SealedMessages.Holds.getDecryptedMessage_eq (s := m.store t) hrows fileUuid
  refine ⟨t, ht, Eq.trans ?_ hmessage⟩
  unfold SealedRows.getDecryptedMessage SealedMessages.getDecryptedMessage
  cases rows.messages.lookup fileUuid with
  | none => rfl
  | some row =>
    show ((getKek >>= fun kek => Throwing.answer _ : AccountM K _) m).1 = _
    rw [bind_of_ok (getKek_of_some hkek)]
    rfl

/-- and a ratchet's bytes. -/
theorem Machine.HasRows.getDecryptedRatchet_eq (h : m.HasRows C serialise rows) {t : Tables K}
    (ht : m.tables = .ok t) {username : String} {device : K} {r : NewRatchet K}
    (hr : t.ratchets.lookup device = some (username, r)) :
    (rows.getDecryptedRatchet C username device m).1 = .ok (serialise r) := by
  obtain ⟨kek, t', hkek, ht', hrows, -⟩ := h
  obtain rfl := Except.ok.inj (ht.symm.trans ht')
  have hdevice := hrows device
  rw [hr] at hdevice
  obtain ⟨row, hrow, hopened⟩ := Option.map_eq_some_iff.mp hdevice
  obtain ⟨hname, hopened⟩ := Prod.mk.inj hopened
  have hfound : (rows.ratchets.lookup device).filter (·.username = username) = some row := by
    rw [hrow, Option.filter_some, if_pos (decide_eq_true hname)]
  unfold SealedRows.getDecryptedRatchet
  rw [hfound]
  show ((getKek >>= fun kek => Throwing.answer _ : AccountM K _) m).1 = _
  rw [bind_of_ok (getKek_of_some hkek)]
  exact hopened

end Rows

/-- Two machines have one KEK, and tables that differ in `keys` at most. -/
def Machine.Agrees (m m' : Machine K) : Prop :=
  m'.kek = m.kek ∧ ∃ t keys, m.tables = .ok t ∧ m'.tables = .ok { t with keys := keys }

variable {C} {m m' : Machine K}

theorem readsWithin_query {α : Type} {f : Tables K → Except Fault α}
    (hf : ∀ t keys, f { t with keys := keys } = f t) :
    ReadsWithin Machine.Agrees (query f) :=
  ReadsWithin.reads fun m m' ⟨_, t, keys, ht, ht'⟩ => by
    rw [ht, ht']
    exact hf t keys

theorem readsWithin_getKek : ReadsWithin Machine.Agrees (getKek : AccountM K K) :=
  ReadsWithin.reads fun m m' h => by rw [h.1]

theorem readsWithin_getDecryptedKeypair (label : String) :
    ReadsWithin Machine.Agrees (getDecryptedKeypair C label) :=
  (readsWithin_query fun _ _ => rfl).bind fun _ => readsWithin_getKek.bind fun _ =>
    (ReadsWithin.answer _).bind fun _ => ReadsWithin.pure _

theorem readsWithin_getOnetimePrivateKey (publicKey : Option K) :
    ReadsWithin Machine.Agrees (getOnetimePrivateKey C publicKey) := by
  cases publicKey with
  | none => exact ReadsWithin.pure none
  | some publicKey =>
    refine (readsWithin_query fun _ _ => rfl).bind fun row => ?_
    cases row with
    | none => exact ReadsWithin.pure none
    | some row =>
      exact readsWithin_getKek.bind fun _ => (ReadsWithin.answer _).bind fun _ =>
        ReadsWithin.pure _

/-- **What machines that agree read is the same.** -/
theorem Machine.Agrees.readsAs (h : m.Agrees m') : m.ReadsAs C m' where
  keypairs label := (readsWithin_getDecryptedKeypair label).2 m m' h
  onetimeKeys publicKey := (readsWithin_getOnetimePrivateKey publicKey).2 m m' h
  rows serialise rows := by
    rintro ⟨kek, t, hkek, ht, hrows⟩
    obtain ⟨hsame, t₀, keys, ht₀, ht'⟩ := h
    obtain rfl := Except.ok.inj (ht.symm.trans ht₀)
    exact ⟨kek, _, hsame.trans hkek, ht', hrows.ratchets, hrows.messages⟩
  ratchets rows username device := by
    have hreads : ReadsWithin Machine.Agrees
        (SealedRows.getDecryptedRatchet C username device rows) :=
      (ReadsWithin.answer _).bind fun _ => readsWithin_getKek.bind fun _ => ReadsWithin.answer _
    exact hreads.2 m m' h
  messages rows fileUuid := by
    have hreads : ReadsWithin Machine.Agrees (SealedRows.getDecryptedMessage C fileUuid rows) :=
      (ReadsWithin.answer _).bind fun _ => readsWithin_getKek.bind fun _ => ReadsWithin.answer _
    exact hreads.2 m m' h

end Reading

/-! ## A store in order -/

/-- **A user's files, in order**: the salt and the password make the key the
database is under, and the KEK is in it, encrypted under that key. -/
structure Machine.InOrder (C : AccountCrypto K) (username : String) (password : List UInt8)
    (kek : K) (salt : Salt) (t : Tables K) (m : Machine K) : Prop where
  saltFile : (m.files username).salt = some salt.1
  database : (m.files username).database = some ⟨C.pwhash password salt.1, some t⟩
  kekRow : ∃ nonce, t.keys.lookup "kek" = some (encryptKek C kek nonce (C.pwhash password salt.1))

/-- **And open in this process**, with the KEK loaded. -/
structure Machine.SignedIn (C : AccountCrypto K) (username : String) (password : List UInt8)
    (kek : K) (salt : Salt) (t : Tables K) (m : Machine K) : Prop
    extends m.InOrder C username password kek salt t where
  connection : m.connection = some (username, C.pwhash password salt.1)
  loaded : m.kek = some kek

section InOrder

variable [LinearOrder K] {C : AccountCrypto K} {username : String} {password : List UInt8}
  {kek : K} {salt : Salt} {t : Tables K} {m : Machine K}

theorem Machine.SignedIn.tables (h : m.SignedIn C username password kek salt t) :
    m.tables = .ok t :=
  tables_eq_ok_iff.mpr ⟨username, _, h.connection, h.database⟩

omit [LinearOrder K] in
/-- A statement that leaves the KEK's row alone. -/
theorem Machine.SignedIn.setTables (h : m.SignedIn C username password kek salt t)
    {t' : Tables K} (hrow : t'.keys.lookup "kek" = t.keys.lookup "kek") :
    (m.setTables t').SignedIn C username password kek salt t' where
  saltFile := (salt_setTables _).trans h.saltFile
  database := by
    unfold Machine.setTables
    rw [h.connection]
    exact database_setDatabase _
  kekRow := by
    rw [hrow]
    exact h.kekRow
  connection := (Machine.connection_setTables _).trans h.connection
  loaded := by
    unfold Machine.setTables
    rw [h.connection]
    exact h.loaded

/-- Machines on which one KEK is loaded agree if their tables do. -/
theorem Machine.SignedIn.agrees {password' : List UInt8} {salt' : Salt}
    {keys : Finmap fun _ : String => EncryptedKey} {m' : Machine K}
    (h : m.SignedIn C username password kek salt t)
    (h' : m'.SignedIn C username password' kek salt' { t with keys := keys }) : m.Agrees m' :=
  ⟨h'.loaded.trans h.loaded.symm, t, keys, h.tables, h'.tables⟩

/-! ### Logging in -/

omit [LinearOrder K] in
/-- The beginning of a login reads the salt. -/
theorem masterKey_restart (h : m.InOrder C username password kek salt t) (p : List UInt8)
    (d : LoginDraws K) : d.masterKey C username p m.restart
      = (d.derived.map fun _ => C.pwhash p salt.1, m.restart) := by
  have hread : getSaltFromFile username d.buffer m.restart = (.ok salt.1, m.restart) := by
    rw [getSaltFromFile_of_some (m := m.restart) h.saltFile, readSalt_val]
  unfold LoginDraws.masterKey
  rw [bind_of_ok hread]
  rfl

/-- **The right password gets in**: the KEK is loaded and the store is open,
and nothing on disk has changed. -/
theorem Machine.InOrder.loginUser_eq (hC : C.aead.Ideal)
    (h : m.InOrder C username password kek salt t) {d : LoginDraws K}
    (hderived : d.derived.isOk) (hopened : d.opened.isOk) :
    ∃ m', loginUser C username password d m.restart = d.finish C m'
      ∧ m'.SignedIn C username password kek salt t := by
  obtain ⟨nonce, hrow⟩ := h.kekRow
  obtain ⟨⟨⟩, hderived⟩ := exists_of_isOk hderived
  obtain ⟨⟨⟩, hopened⟩ := exists_of_isOk hopened
  have hkey := masterKey_restart h password d
  rw [hderived] at hkey
  let m₁ : Machine K := { m.restart with connection := some (username, C.pwhash password salt.1) }
  have hopen : initializeDatabase username (C.pwhash password salt.1) (.ok ()) m.restart
      = (.ok (), m₁) :=
    initializeDatabase_of_key (m := m.restart) rfl h.database
  have ht : m₁.tables = .ok t := tables_eq_ok_iff.mpr ⟨username, _, rfl, h.database⟩
  have hget : getEncryptedKey "kek" m₁
      = (.ok (encryptKek C kek nonce (C.pwhash password salt.1)), m₁) := by
    unfold getEncryptedKey
    rw [query_of_tables ht, hrow]
    rfl
  have hload : loadKek C (C.pwhash password salt.1) m₁ = (.ok (), { m₁ with kek := some kek }) := by
    unfold loadKek
    rw [bind_of_ok hget, decryptKek_encryptKek hC]
    rfl
  refine ⟨{ m₁ with kek := some kek }, ?_, ⟨h.saltFile, h.database, h.kekRow⟩, rfl, rfl⟩
  unfold loginUser
  rw [bind_of_ok hkey, hopened, bind_of_ok hopen, bind_of_ok hload]

/-- **No other password does**, and nothing changes. -/
theorem Machine.InOrder.loginUser_refused (hC : C.Ideal)
    (h : m.InOrder C username password kek salt t) {p : List UInt8} (hp : p ≠ password)
    (d : LoginDraws K) : ∃ e, loginUser C username p d m.restart = (.error e, m.restart) := by
  have hkey := masterKey_restart h p d
  unfold loginUser
  cases hderived : d.derived with
  | error e =>
    rw [hderived] at hkey
    exact ⟨e, bind_of_error hkey⟩
  | ok _ =>
    rw [hderived] at hkey
    rw [bind_of_ok hkey]
    obtain ⟨e, hrun, -⟩ | ⟨c, -, hsome | ⟨-, -, hfits⟩⟩ :=
      initializeDatabase_cases username (C.pwhash p salt.1) d.opened m.restart
    · exact ⟨e, bind_of_error hrun⟩
    · exact absurd hsome nofun
    · exact absurd (hC.pwhash _ _ _ _ (hfits _ h.database)).1.symm hp

end InOrder

/-! ## Rotations, one after the other -/

/-- A machine, and the password its user has set last. -/
structure UserState (K : Type) where
  password : List UInt8
  machine : Machine K

/-- A call of `rotate_master_password`. -/
structure RotateCall (K : Type) where
  oldPassword : List UInt8
  newPassword : List UInt8
  draws : Rotation K

section Rotations

variable [LinearOrder K] (C : AccountCrypto K) (username : String)

/-- What it does: once it has returned, its new password is the latest. -/
def RotateCall.run (c : RotateCall K) : Throwing (UserState K) Fault Unit := fun s =>
  match rotateMasterPassword C username c.oldPassword c.newPassword c.draws s.machine with
  | (.ok (), m) => (.ok (), ⟨c.newPassword, m⟩)
  | (.error e, m) => (.error e, ⟨s.password, m⟩)

/-- **It is completed**: it returns, and all of the salt is in the file. -/
def RotateCall.Completes (c : RotateCall K) (s : UserState K) : Prop :=
  (c.run C username s).1.isOk ∧ 16 ≤ c.draws.saltSaved.written

/-- Completed, or an attempt with a wrong old password. -/
def RotateCall.CompletesOrWrong (c : RotateCall K) (s : UserState K) : Prop :=
  c.Completes C username s ∨ c.oldPassword ≠ s.password

/-- **A wrong old password throws** and changes nothing. -/
def RotateCall.RefusesWrong (c : RotateCall K) (s : UserState K) : Prop :=
  c.oldPassword ≠ s.password → ∃ e, c.run C username s = (.error e, s)

/-- **The user has access, to what there was before**: in a fresh process, a
login with the password set last opens the store, with the KEK loaded and
everything reading as it did, before it asks the server; and one with any
other password throws, with nothing open. -/
structure UserState.Recovers (kek : K) (before : Machine K) (s : UserState K) : Prop where
  getsIn : ∀ d : LoginDraws K, d.derived.isOk → d.opened.isOk →
    ∃ m key, loginUser C username s.password d s.machine.restart = d.finish C m
      ∧ m.connection = some (username, key) ∧ m.kek = some kek ∧ before.ReadsAs C m
  refuses : ∀ p, p ≠ s.password → ∀ d,
    ∃ e, loginUser C username p d s.machine.restart = (.error e, s.machine.restart)

variable {C} {username} {password : List UInt8} {kek : K} {salt : Salt} {t : Tables K}
  {m : Machine K}

/-! ### What one of them does -/

/-- **An attempt with a wrong old password**: the key derived from it does not
open the database. -/
theorem rotateMasterPassword_wrong (hC : C.Ideal)
    (h : m.SignedIn C username password kek salt t) {oldPassword : List UInt8}
    (hwrong : oldPassword ≠ password) (newPassword : List UInt8) (d : Rotation K) :
    ∃ e, rotateMasterPassword C username oldPassword newPassword d m = (.error e, m) := by
  unfold rotateMasterPassword
  obtain ⟨-, e, herror⟩ | ⟨-, hkeys⟩ := Rotation.masterKeys_cases (C := C) (d := d)
    oldPassword newPassword h.saltFile
  · exact ⟨e, bind_of_error herror⟩
  rw [readSalt_val] at hkeys
  have hcheck : checkOldKey (C.pwhash oldPassword salt.1) d.verified m
      = (.error (.runtimeError "Incorrect master key. Cannot rotate keys."), m) := by
    have hnot : m.verifyMasterKey (C.pwhash oldPassword salt.1) d.verified = false := by
      have hkey : C.pwhash password salt.1 ≠ C.pwhash oldPassword salt.1 := fun hsame =>
        hwrong (hC.pwhash _ _ _ _ hsame).1.symm
      unfold Machine.verifyMasterKey
      simp only [h.connection, h.database, Option.all_some, hkey, decide_false, Bool.and_false]
    show (ite _ _ (ite _ _ _), m) = _
    rw [hnot, h.connection]
    rfl
  have hrefused : rotateMasterKey (C.pwhash oldPassword salt.1) (C.pwhash newPassword d.salt.1) d m
      = (.error (.runtimeError "Incorrect master key. Cannot rotate keys."), m) :=
    bind_of_error hcheck
  rw [bind_of_ok hkeys]
  exact ⟨_, bind_of_error hrefused⟩

/-- **A completed rotation** leaves the store in order under the new password,
with the KEK it had, and of the tables changes the KEK's row alone. -/
theorem signedIn_of_rotateMasterPassword (h : m.SignedIn C username password kek salt t)
    {newPassword : List UInt8} {d : Rotation K} {m' : Machine K}
    (hwhole : 16 ≤ d.saltSaved.written)
    (hrun : rotateMasterPassword C username password newPassword d m = (.ok (), m')) :
    ∃ keys, m'.SignedIn C username newPassword kek d.salt { t with keys := keys } := by
  set newKey := C.pwhash newPassword d.salt.1 with hnewKey
  obtain ⟨keys, m₀, hkeys, hrun⟩ := exists_of_bind_ok hrun
  obtain ⟨-, e, herror⟩ | ⟨-, hderived⟩ := Rotation.masterKeys_cases (C := C) (d := d)
    password newPassword h.saltFile
  · cases (Prod.mk.inj (herror.symm.trans hkeys)).1
  rw [readSalt_val] at hderived
  obtain ⟨hboth, rfl⟩ := Prod.mk.inj (hderived.symm.trans hkeys)
  obtain rfl := Except.ok.inj hboth
  obtain ⟨_, m₁, hrekeyed, hrun⟩ := exists_of_bind_ok hrun
  have hown : m.Own username := fun user key hconnection =>
    (Prod.mk.inj (Option.some.inj (hconnection.symm.trans h.connection))).1
  obtain ⟨-, e, herror⟩ | ⟨-, hrotated⟩ := rotateMasterKey_cases (d := d) hown h.database newKey
  · cases (Prod.mk.inj (herror.symm.trans hrekeyed)).1
  obtain ⟨-, rfl⟩ := Prod.mk.inj (hrotated.symm.trans hrekeyed)
  obtain ⟨_, m₂, hsaved, hrun⟩ := exists_of_bind_ok hrun
  obtain ⟨_, m₃, hopened, -⟩ := exists_of_bind_ok hsaved
  obtain ⟨hopened, -⟩ := Prod.mk.inj hopened
  obtain ⟨-, rfl⟩ := Prod.mk.inj ((saveSaltToFile_of_opened _ hopened).symm.trans hsaved)
  rw [SaltSaving.bytes_of_whole hwhole] at hrun
  -- the machine before the KEK is stored
  set m₂ := Machine.setSalt username d.salt.1
    { m.setDatabase username ⟨newKey, some t⟩ with connection := some (username, newKey) } with hm₂
  have hdatabase : (m₂.files username).database = some ⟨newKey, some t⟩ :=
    (database_setSalt _).trans (database_setDatabase _)
  have ht : m₂.tables = .ok t := tables_eq_ok_iff.mpr ⟨username, newKey, rfl, hdatabase⟩
  obtain ⟨-, e, herror⟩ | ⟨-, hdone⟩ := Rotation.saveKek_cases (C := C) (d := d) (m := m₂) h.loaded
    ht newKey
  · cases (Prod.mk.inj (herror.symm.trans hrun)).1
  obtain ⟨-, rfl⟩ := Prod.mk.inj (hdone.symm.trans hrun)
  refine ⟨t.keys.insert "kek" (encryptKek C kek d.nonce newKey), ⟨?_, ?_, d.nonce, ?_⟩, rfl,
    h.loaded⟩
  · exact (salt_setTables _).trans (salt_setSalt _)
  · exact database_setDatabase _
  · exact Finmap.lookup_insert _

/-- **One call, completed or refused**: the store is in order under the
password set last, and agrees with what it was. -/
theorem RotateCall.signedIn_run (hC : C.Ideal) {c : RotateCall K} {s : UserState K}
    (h : s.machine.SignedIn C username s.password kek salt t)
    (hc : c.CompletesOrWrong C username s) :
    c.RefusesWrong C username s ∧ ∃ salt' keys, (c.run C username s).2.machine.SignedIn C username
      (c.run C username s).2.password kek salt' { t with keys := keys } := by
  have hrefused : c.RefusesWrong C username s := by
    intro hwrong
    obtain ⟨e, hrun⟩ := rotateMasterPassword_wrong hC h hwrong c.newPassword c.draws
    refine ⟨e, ?_⟩
    unfold run
    rw [hrun]
  refine ⟨hrefused, ?_⟩
  by_cases hold : c.oldPassword = s.password
  · obtain ⟨hok, hwhole⟩ := hc.resolve_right (not_not.mpr hold)
    unfold run at hok ⊢
    rw [hold] at hok ⊢
    cases hrun : rotateMasterPassword C username s.password c.newPassword c.draws s.machine with
    | mk result m' =>
      rw [hrun] at hok
      cases result with
      | error e => exact absurd hok Bool.false_ne_true
      | ok _ => exact ⟨_, signedIn_of_rotateMasterPassword h hwhole hrun⟩
  · obtain ⟨e, hrun⟩ := hrefused hold
    rw [hrun]
    exact ⟨salt, t.keys, h⟩

/-! ### From registration on -/

/-- **What is done with a user's store** from registration on: rows of every
table but `keys` are written, passwords are rotated, and the user logs in
again in a fresh process. -/
inductive Use (K : Type) where
  | savesKeypair (label : String) (row : KeypairRow K)
  | savesOnetimeKeys (keys : List (K × EncryptedKey))
  | savesRows (ratchets : Finmap fun _ : K => String × NewRatchet K)
      (messages : Finmap fun _ : String => StoredMessage K)
  | rotates (c : RotateCall K)
  | logsIn (d : LoginDraws K)

/-- A call that leaves the password what it is. -/
def UserState.does (call : AccountM K Unit) : Throwing (UserState K) Fault Unit := fun s =>
  ((call s.machine).1, ⟨s.password, (call s.machine).2⟩)

variable (C) (username) in
/-- What it does. -/
def Use.run : Use K → Throwing (UserState K) Fault Unit
  | savesKeypair label row => UserState.does (saveEncryptedKeypair label row)
  | savesOnetimeKeys keys => UserState.does (saveEncryptedOnetimeKeys keys)
  | savesRows ratchets messages =>
    UserState.does (execute fun t => { t with ratchets := ratchets, messages := messages })
  | rotates c => c.run C username
  | logsIn d => fun s =>
    UserState.does (fun m => loginUser C username s.password d m.restart) s

variable (C) (username) in
/-- A rotation is completed or attempted with a wrong old password, and a
login gets past opening the database. -/
def Use.GoesThrough : Use K → UserState K → Prop
  | rotates c, s => c.CompletesOrWrong C username s
  | logsIn d, _ => d.derived.isOk ∧ d.opened.isOk
  | _, _ => True

variable (C) (username) (password) (kek) in
/-- The user's store is in order and open, whatever is in it. -/
def Machine.InUse (m : Machine K) : Prop :=
  ∃ salt t, m.SignedIn C username password kek salt t

/-- Writing to other tables than `keys` keeps it so, -/
theorem keepsSignedIn_execute {f : Tables K → Tables K} (hf : ∀ t, (f t).keys = t.keys) :
    Keeps (Machine.InUse C username password kek) (execute f) := by
  rintro m ⟨salt, t, h⟩
  obtain ⟨e, hrun⟩ | ⟨t', ht, hrun⟩ := execute_cases f m
  · rw [hrun]
    exact ⟨salt, t, h⟩
  · obtain rfl := Except.ok.inj (h.tables.symm.trans ht)
    rw [hrun]
    exact ⟨salt, f t, h.setTables (by rw [hf])⟩

theorem keepsSignedIn_saveOnetimeKeys (keys : List (K × EncryptedKey)) :
    Keeps (Machine.InUse C username password kek)
      (saveEncryptedOnetimeKeys keys) := by
  rintro m ⟨salt, t, h⟩
  obtain ⟨rows, hrows⟩ := t.foldl_insertOnetime keys
  rw [saveEncryptedOnetimeKeys_of_tables h.tables]
  exact ⟨salt, _, h.setTables (by rw [hrows])⟩

/-- and so does the rest of a login, with the prekeys it may post. -/
theorem keepsSignedIn_finish (d : LoginDraws K) :
    Keeps (Machine.InUse C username password kek) (d.finish C) := by
  have hload : Keeps (Machine.InUse C username password kek)
      (loadRatchetsFromDb (K := K)) :=
    (Keeps.reads _).bind fun _ => Keeps.modify fun m ⟨salt, t, h⟩ =>
      ⟨salt, t, ⟨h.saltFile, h.database, h.kekRow⟩, h.connection, h.loaded⟩
  refine (keeps_getDecryptedKeypair _).bind fun _ => (Keeps.answer _).bind fun _ => ?_
  refine (Keeps.answer _).bind fun _ => hload.bind fun _ => ?_
  cases d.newKeys with
  | none => exact Keeps.pure ()
  | some draws =>
    exact keeps_postNewKeys (fun _ _ => keepsSignedIn_execute fun _ => rfl)
      keepsSignedIn_saveOnetimeKeys draws

/-- **Whatever is done** with the store leaves it in order, with the KEK it
had. -/
theorem Use.inUse_run (hC : C.Ideal) {u : Use K} {s : UserState K}
    (h : s.machine.InUse C username s.password kek) (hu : u.GoesThrough C username s) :
    (u.run C username s).2.machine.InUse C username (u.run C username s).2.password kek := by
  cases u with
  | savesKeypair label row =>
    have hsave : Keeps (Machine.InUse C username s.password kek)
        (saveEncryptedKeypair label row) := keepsSignedIn_execute fun _ => rfl
    exact hsave s.machine h
  | savesOnetimeKeys keys => exact keepsSignedIn_saveOnetimeKeys keys s.machine h
  | savesRows ratchets messages =>
    have hsave : Keeps (Machine.InUse C username s.password kek)
        (execute fun t => { t with ratchets := ratchets, messages := messages }) :=
      keepsSignedIn_execute fun _ => rfl
    exact hsave s.machine h
  | rotates c =>
    obtain ⟨salt, t, h⟩ := h
    obtain ⟨-, salt', keys, hafter⟩ := RotateCall.signedIn_run hC h hu
    exact ⟨salt', _, hafter⟩
  | logsIn d =>
    obtain ⟨salt, t, h⟩ := h
    obtain ⟨m', hrun, hin⟩ := h.loginUser_eq hC.aead hu.1 hu.2
    show (loginUser C username s.password d s.machine.restart).2.InUse ..
    rw [hrun]
    exact keepsSignedIn_finish d m' ⟨salt, t, hin⟩

/-- **A registration that locks nobody out** leaves the store in order, with
the KEK it drew. -/
theorem inUse_registerUser {d : Registration K} {m' : Machine K}
    (hmeets : (SetUpCall.registers password d).Meets username m)
    (h : registerUser C username password d m = (.ok (), m')) :
    m'.InUse C username password d.kek := by
  have hreaches : d.toSetUp.ReachesSalt := by
    by_contra hstops
    obtain ⟨e, hrun⟩ : ∃ e, (SetUpCall.registers password d).run C username m = (.error e, m) :=
      SetUpCall.run_of_not_reachesSalt hstops
    cases (Prod.mk.inj (hrun.symm.trans h)).1
  obtain ⟨hd, hconnection, hwhole⟩ := hmeets hreaches
  obtain ⟨m₁, hunder, hrest⟩ := SetUpCall.opened_of_run
    (c := SetUpCall.registers password d) hd hconnection hwhole h
  have hafter := (SetUpCall.keepsUnder_rest _ _).gives _ _ _ hunder hrest
  obtain ⟨t, ht, hrow⟩ :=
    SetUpCall.gives_hasKek_rest (P := fun _ => True) _ _ _ _ _ trivial hrest
  obtain ⟨user, key, hopen, hfile⟩ := tables_eq_ok_iff.mp ht
  obtain ⟨rfl, rfl⟩ := Prod.mk.inj (Option.some.inj (hafter.connection.symm.trans hopen))
  have hexecute : ∀ f : Tables K → Tables K, Keeps (fun m => m.kek = some d.kek) (execute f) :=
    fun _ => (Keeps.reads _).bind fun _ => Keeps.modify fun m h => (kek_setTables _).trans h
  have hloaded : Gives (fun _ => True) (SetUpCall.rest C (C.pwhash password d.salt.1)
      (.registers password d)) fun _ m => m.kek = some d.kek := by
    have hkek : Gives (fun _ => True) (d.newKek C (C.pwhash password d.salt.1))
        fun _ m => m.kek = some d.kek := by
      refine Gives.of_last fun _ => Gives.of_last fun _ => Gives.of_last fun _ => ?_
      refine Gives.bind (Q := fun _ m => m.kek = some d.kek) ?_ fun _ => ?_
      · rintro m _ m' - h
        rw [← (Prod.mk.inj h).2]
      · exact ((Keeps.answer _).bind fun _ => hexecute _).gives
    exact hkek.bind fun _ => (keeps_newIdentity (fun _ _ => hexecute _) d).gives
  exact ⟨d.salt, t, ⟨hafter.salt, hfile, d.nonceKek, hrow⟩, hafter.connection,
    hloaded _ _ _ trivial hrest⟩

/-! ### After all of them -/

/-- **A user whose store is in order** has access, whatever was there before
that agrees with it. -/
theorem recovers_of_signedIn (hC : C.Ideal) {before : Machine K} {s : UserState K}
    {keys : Finmap fun _ : String => EncryptedKey}
    (hbefore : before.SignedIn C username password kek salt t) {salt' : Salt}
    (h : s.machine.SignedIn C username s.password kek salt' { t with keys := keys }) :
    s.Recovers C username kek before where
  getsIn d hderived hopened := by
    obtain ⟨m', hrun, hin⟩ := h.loginUser_eq hC.aead hderived hopened
    exact ⟨m', _, hrun, hin.connection, hin.loaded, (hbefore.agrees hin).readsAs⟩
  refuses _ hp d := h.loginUser_refused hC hp d

/-- **Rotations keep access and secrets.** After a registration that locked
nobody out, and whatever was then done with the store, let there be any calls
of `rotate_master_password`, each of them completed or given a wrong old
password. Those given a wrong one throw and change nothing; and after all of
them, in a fresh process, the password set last gets in and finds the KEK of
the registration, everything reads as it did before them, and no other
password gets in. -/
theorem RotateCall.recovers_of_rotations (hC : C.Ideal) (username : String)
    (password : List UInt8) (d : Registration K) (m₀ m : Machine K)
    (hmeets : (SetUpCall.registers password d).Meets username m₀)
    (hregistered : registerUser C username password d m₀ = (.ok (), m)) (uses : List (Use K))
    (huses : Along (Use.run C username) (Use.GoesThrough C username) uses ⟨password, m⟩)
    (s : UserState K) (hs : after (Use.run C username) uses ⟨password, m⟩ = s)
    (calls : List (RotateCall K))
    (hcalls : Along (run C username) (CompletesOrWrong C username) calls s) :
    Along (run C username) (RefusesWrong C username) calls s
      ∧ (after (run C username) calls s).Recovers C username d.kek s.machine := by
  have hstart : s.machine.InUse C username s.password d.kek := by
    rw [← hs]
    exact (huses.after_of (Q := fun _ _ => True)
      (I := fun s => s.machine.InUse C username s.password d.kek)
      (fun u s h hu => ⟨trivial, Use.inUse_run hC h hu⟩) (inUse_registerUser hmeets hregistered)).2
  obtain ⟨salt, t, hbefore⟩ := hstart
  obtain ⟨hrefused, salt', keys, hafter⟩ := hcalls.after_of (Q := RefusesWrong C username)
    (I := fun s => ∃ salt' keys,
      s.machine.SignedIn C username s.password d.kek salt' { t with keys := keys })
    (fun c s h hc => by
      obtain ⟨salt', keys, h⟩ := h
      exact RotateCall.signedIn_run (t := { t with keys := keys }) hC h hc)
    ⟨salt, t.keys, hbefore⟩
  exact ⟨hrefused, recovers_of_signedIn hC hbefore hafter⟩

end Rotations

/-! ## Alice's rotations -/

/-- She mistypes her password, changes it, and changes it again. -/
def RotateCall.ideal : List (RotateCall ℕ) :=
  [⟨[2], [3], .ideal (.ideal 2)⟩, ⟨[1], [3], .ideal (.ideal 3)⟩, ⟨[3], [4], .ideal (.ideal 4)⟩]

/-- Alice, registered, in a new process. -/
def UserState.ideal : UserState ℕ :=
  after (Use.run .ideal "alice") [.logsIn .ideal] ⟨[1], Rotation.registered⟩

/-- Her last password is the one that gets in. -/
theorem RotateCall.recovers_of_rotations_alice :
    Along (run .ideal "alice") (RefusesWrong .ideal "alice") RotateCall.ideal UserState.ideal
      ∧ (after (run .ideal "alice") RotateCall.ideal UserState.ideal).Recovers .ideal "alice" 5
        UserState.ideal.machine := by
  have hok : (registerUser .ideal "alice" [1] (.ideal (.ideal 1) 5) .blank).1.isOk := by
    decide +kernel
  obtain ⟨⟨⟩, hreturns⟩ := exists_of_isOk hok
  refine recovers_of_rotations AccountCrypto.ideal_ideal "alice" [1] (.ideal (.ideal 1) 5) .blank
    Rotation.registered (fun _ => ⟨rfl, rfl, le_rfl⟩) (Prod.ext hreturns rfl) [.logsIn .ideal]
    ⟨⟨rfl, rfl⟩, trivial⟩ UserState.ideal rfl RotateCall.ideal
    ⟨Or.inr ?_, Or.inl ?_, Or.inl ?_, trivial⟩
  · exact fun h => absurd (List.cons.inj h).1 (by decide)
  · exact ⟨by decide +kernel, le_rfl⟩
  · exact ⟨by decide +kernel, le_rfl⟩

/-- Her rotation, where eight bytes of the salt get into the file. -/
def RotateCall.short : RotateCall ℕ :=
  ⟨[1], [3], { Rotation.ideal (.ideal 3) with saltSaved := ⟨.ok (), 8, .ok ()⟩ }⟩

/-- **A rotation that returns and locks her out**: what is written of the salt
is not looked at, and the key made of what is read is not the database's. -/
theorem RotateCall.not_recovers_of_short :
    (short.run .ideal "alice" UserState.ideal).1.isOk
      ∧ ¬ (after (run .ideal "alice") [short] UserState.ideal).Recovers .ideal "alice" 5
        UserState.ideal.machine := by
  refine ⟨by decide +kernel, fun h => ?_⟩
  have hkeeps : ∀ c, Keeps (fun m : Machine ℕ => m.connection = c)
      (LoginDraws.ideal.finish .ideal) := by
    intro c
    have hload : Keeps (fun m : Machine ℕ => m.connection = c) loadRatchetsFromDb :=
      (Keeps.reads _).bind fun _ => Keeps.modify fun _ h => h
    refine (keeps_getDecryptedKeypair _).bind fun _ => (Keeps.answer _).bind fun _ => ?_
    exact (Keeps.answer _).bind fun _ => hload.bind fun _ => Keeps.pure ()
  obtain ⟨m, key, hlogin, hconnection, -⟩ := h.getsIn .ideal rfl rfl
  -- the login ends with nothing open
  have hnone : (loginUser .ideal "alice" [3] .ideal (after (run .ideal "alice") [short]
      UserState.ideal).machine.restart).2.connection = none := by
    decide +kernel
  have hpassword : (after (run .ideal "alice") [short] UserState.ideal).password = [3] := by
    decide +kernel
  rw [hpassword] at hlogin
  rw [hlogin, hkeeps _ m hconnection] at hnone
  cases hnone
