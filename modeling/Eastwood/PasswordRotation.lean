import Eastwood.KekRows
import Eastwood.Registration

/-!
# Changing the master password

A rotation writes three times: the database is encrypted again under the new
key, the new salt goes to its file, and the KEK is stored encrypted under the
new key. It is not one transaction. What it can do to a user whose old
password unlocked everything is said exactly: one of the two passwords still
does if and only if it stopped before the first of the writes or got through
the last, or the two keys were one anyway and the salt file was not left
short (`Rotation.unlocks_iff_meets`).

That the stored KEK is one `encrypt_kek` made is what every call keeps
(`AccountCall.keepsKekEncrypted_run`).
-/

open Throwing

variable {K : Type}

/-! ## The rotation -/

/-- **What `rotate_master_password` draws and is answered.** Being interrupted
somewhere is a throw there. -/
structure Rotation (K : Type) where
  buffer : Salt
  derivedOld : Except Fault Unit
  salt : Salt
  derivedNew : Except Fault Unit
  verified : Bool
  rekeyed : Except Fault Unit
  checked : Except Fault Unit
  saltSaved : SaltSaving
  nonce : List UInt8
  encrypted : Except Fault Unit
  saved : Except Fault Unit

section Model

variable [LinearOrder K] (C : AccountCrypto K)

/-- `KekManager::isLoaded`, as it is asked at the beginning. -/
def checkKekLoaded : AccountM K Unit := Throwing.reads fun m =>
  if m.kek.isSome then .ok ()
  else .error (.runtimeError "Unable to rotate master password - KEK has not been loaded")

omit [LinearOrder K] in
/-- The two master keys, the old one from the salt on disk. -/
def Rotation.masterKeys (username : String) (oldPassword newPassword : List UInt8)
    (d : Rotation K) : AccountM K (K × K) := do
  checkKekLoaded
  let oldSalt ← getSaltFromFile username d.buffer
  let oldKey ← deriveMasterKey C oldPassword oldSalt d.derivedOld
  let newKey ← deriveMasterKey C newPassword d.salt.1 d.derivedNew
  return (oldKey, newKey)

/-- `Database::verify_master_key`: whether a second connection to the file
opens with the key. -/
def Machine.verifyMasterKey (masterKey : K) (opened : Bool) (m : Machine K) : Bool :=
  match m.connection with
  | none => false
  | some (user, _) => opened && (m.files user).database.all (·.key = masterKey)

/-- What is checked before the database is touched. -/
def checkOldKey (oldKey : K) (opened : Bool) : AccountM K Unit := Throwing.reads fun m =>
  if m.connection.isNone then .error (.runtimeError "Database not initialized")
  else if m.verifyMasterKey oldKey opened then .ok ()
  else .error (.runtimeError "Incorrect master key. Cannot rotate keys.")

/-- `sqlite3_rekey`, which is a transaction. -/
def rekey (newKey : K) (rekeyed : Except Fault Unit) : AccountM K Unit := fun m =>
  match m.connection, rekeyed with
  | none, _ => (.error (.runtimeError "Database not initialized"), m)
  | some _, .error e => (.error e, m)
  | some (user, key), .ok () =>
    match (m.files user).database with
    | none => (.ok (), { m with connection := some (user, newKey) })
    | some d =>
      if d.key = key then
        (.ok (), { m.setDatabase user ⟨newKey, d.tables⟩ with connection := some (user, newKey) })
      else (.error (.runtimeError "Failed to rotate master password: "), m)

/-- **`Database::rotate_master_key`**: what it looks at afterwards is there
for the new key. -/
def rotateMasterKey (oldKey newKey : K) (d : Rotation K) : AccountM K Unit := do
  checkOldKey oldKey d.verified
  rekey newKey d.rekeyed
  Throwing.answer d.checked

/-- The KEK of the process, stored under the new key. -/
def Rotation.saveKek (newKey : K) (d : Rotation K) : AccountM K Unit := do
  let kek ← getKek
  Throwing.answer d.encrypted
  Throwing.answer d.saved
  saveEncryptedKey "kek" (encryptKek C kek d.nonce newKey)

/-- **`rotate_master_password`.** -/
def rotateMasterPassword (username : String) (oldPassword newPassword : List UInt8)
    (d : Rotation K) : AccountM K Unit := do
  let keys ← d.masterKeys C username oldPassword newPassword
  rotateMasterKey keys.1 keys.2 d
  saveSaltToFile username d.salt d.saltSaved
  d.saveKek C keys.2

end Model

/-- **The rekey takes effect**: the KEK is loaded, both keys are derived, the
database open is the user's, under the key its file is under, and it could be
opened a second time. -/
def Rotation.Rekeys (username : String) (d : Rotation K) (m : Machine K) : Prop :=
  m.kek.isSome ∧ d.derivedOld.isOk ∧ d.derivedNew.isOk
    ∧ (∃ file, (m.files username).database = some file
      ∧ m.connection = some (username, file.key))
    ∧ d.verified = true ∧ d.rekeyed.isOk

/-- It gets as far as the salt file after that, -/
def Rotation.ReachesSalt (d : Rotation K) : Prop := d.checked.isOk ∧ d.saltSaved.opened.isOk

/-- or to its end, with all of the salt in the file. -/
def Rotation.Completes (d : Rotation K) : Prop :=
  d.ReachesSalt ∧ 16 ≤ d.saltSaved.written ∧ d.saltSaved.closed.isOk
    ∧ d.encrypted.isOk ∧ d.saved.isOk

/-- The old key and the new one are one: the password is unchanged, and the
salt drawn is the one on disk. -/
def Rotation.SameKey (username : String) (oldPassword newPassword : List UInt8)
    (d : Rotation K) (m : Machine K) : Prop :=
  oldPassword = newPassword ∧ (m.files username).salt.map (·.take 16) = some d.salt.1

/-- **The condition**: nothing was written, everything was, or nothing had to
be and the salt file is whole. -/
def Rotation.Meets (username : String) (oldPassword newPassword : List UInt8)
    (d : Rotation K) (m : Machine K) : Prop :=
  ¬ d.Rekeys username m ∨ d.Completes
    ∨ d.SameKey username oldPassword newPassword m
      ∧ (d.ReachesSalt → 16 ≤ d.saltSaved.written)

/-- A rotation stores a KEK as the other calls do. -/
theorem keepsKekEncrypted_rotateMasterPassword [LinearOrder K] {C : AccountCrypto K}
    (username : String) (oldPassword newPassword : List UInt8) (d : Rotation K) :
    Keeps (Machine.KekEncrypted C)
      (rotateMasterPassword C username oldPassword newPassword d) := by
  have hkeys : Keeps (Machine.KekEncrypted C) (d.masterKeys C username oldPassword newPassword) :=
    (Keeps.reads _).bind fun _ => (Keeps.reads _).bind fun _ => (Keeps.answer _).bind fun _ =>
      (Keeps.answer _).bind fun _ => Keeps.pure _
  have hrekey : ∀ newKey, Keeps (Machine.KekEncrypted C) (rekey newKey d.rekeyed) := by
    intro newKey m h
    unfold rekey
    cases m.connection with
    | none => exact h
    | some c =>
      cases d.rekeyed with
      | error e => exact h
      | ok _ =>
        simp only
        cases hd : (m.files c.1).database with
        | none => exact h
        | some file =>
          by_cases hk : file.key = c.2
          · simp only [if_pos hk]
            exact h.setDatabase c.1 newKey fun t ht => h c.1 file t hd ht
          · simp only [if_neg hk]
            exact h
  have hrotate : ∀ oldKey newKey,
      Keeps (Machine.KekEncrypted C) (rotateMasterKey oldKey newKey d) := fun _ newKey =>
    (Keeps.reads _).bind fun _ => (hrekey newKey).bind fun _ => Keeps.answer _
  have hsave : ∀ newKey, Keeps (Machine.KekEncrypted C) (d.saveKek C newKey) := fun _ =>
    (Keeps.reads _).bind fun _ => (Keeps.answer _).bind fun _ => (Keeps.answer _).bind fun _ =>
      keepsKekEncrypted_saveKek _ _ _
  exact hkeys.bind fun _ => (hrotate _ _).bind fun _ =>
    (keeps_saveSaltToFile (keepsKekEncrypted_writeSalt username) _ _).bind fun _ => hsave _

/-! ## What each of its steps does -/

section Steps

variable [LinearOrder K] {C : AccountCrypto K} {username : String}
  {oldPassword newPassword : List UInt8} {d : Rotation K} {m : Machine K}

omit [LinearOrder K] in
/-- The keys are derived, and nothing changes. -/
theorem Rotation.masterKeys_cases (oldPassword newPassword : List UInt8) {bytes : List UInt8}
    (hsalt : (m.files username).salt = some bytes) :
    (¬ (m.kek.isSome ∧ d.derivedOld.isOk ∧ d.derivedNew.isOk)
        ∧ ∃ e, d.masterKeys C username oldPassword newPassword m = (.error e, m))
      ∨ (m.kek.isSome ∧ d.derivedOld.isOk ∧ d.derivedNew.isOk)
        ∧ d.masterKeys C username oldPassword newPassword m
          = (.ok (C.pwhash oldPassword (readSalt d.buffer bytes),
            C.pwhash newPassword d.salt.1), m) := by
  have hread : getSaltFromFile username d.buffer m = (.ok (readSalt d.buffer bytes), m) :=
    getSaltFromFile_of_some hsalt d.buffer
  unfold masterKeys
  cases hkek : m.kek with
  | none =>
    have hmissing : checkKekLoaded m = (.error (.runtimeError
        "Unable to rotate master password - KEK has not been loaded"), m) := by
      show (ite _ _ _, m) = _
      rw [hkek]
      rfl
    exact Or.inl ⟨fun h => absurd h.1 nofun, _, bind_of_error hmissing⟩
  | some kek =>
    have hloaded : checkKekLoaded m = (.ok (), m) := by
      show (ite _ _ _, m) = _
      rw [hkek]
      rfl
    rw [bind_of_ok hloaded, bind_of_ok hread]
    unfold deriveMasterKey
    cases d.derivedOld with
    | error e => exact Or.inl ⟨fun h => absurd h.2.1 nofun, e, rfl⟩
    | ok _ =>
      cases d.derivedNew with
      | error e => exact Or.inl ⟨fun h => absurd h.2.2 nofun, e, rfl⟩
      | ok _ => exact Or.inr ⟨⟨rfl, rfl, rfl⟩, rfl⟩

/-- With the user's database open, its own key is verified as SQLite says. -/
theorem checkOldKey_eq {key : K} {file : DatabaseFile K}
    (hconnection : m.connection = some (username, key))
    (hd : (m.files username).database = some file) (verified : Bool) :
    checkOldKey file.key verified m
      = (if verified then .ok ()
        else .error (.runtimeError "Incorrect master key. Cannot rotate keys."), m) := by
  have hsame : m.verifyMasterKey file.key verified = verified := by
    unfold Machine.verifyMasterKey
    simp only [hconnection, hd, Option.all_some, decide_true, Bool.and_true]
  show (ite _ _ (ite _ _ _), m) = _
  rw [hsame, hconnection]
  rfl

/-- It is rekeyed if it was opened with that key. -/
theorem rekey_eq {key : K} {file : DatabaseFile K}
    (hconnection : m.connection = some (username, key))
    (hd : (m.files username).database = some file) (newKey : K) :
    rekey newKey (.ok ()) m = if file.key = key then
        (.ok (), { m.setDatabase username ⟨newKey, file.tables⟩ with
          connection := some (username, newKey) })
      else (.error (.runtimeError "Failed to rotate master password: "), m) := by
  unfold rekey
  rw [hconnection]
  simp only [hd]

/-- **The database is under the new key**, or nothing has changed. -/
theorem rotateMasterKey_cases (hown : m.Own username) {file : DatabaseFile K}
    (hd : (m.files username).database = some file) (newKey : K) :
    (¬ (m.connection = some (username, file.key) ∧ d.verified = true ∧ d.rekeyed.isOk)
        ∧ ∃ e, rotateMasterKey file.key newKey d m = (.error e, m))
      ∨ (m.connection = some (username, file.key) ∧ d.verified = true ∧ d.rekeyed.isOk)
        ∧ rotateMasterKey file.key newKey d m = (d.checked,
          { m.setDatabase username ⟨newKey, file.tables⟩ with
            connection := some (username, newKey) }) := by
  unfold rotateMasterKey
  cases hconnection : m.connection with
  | none =>
    have hclosed : checkOldKey file.key d.verified m
        = (.error (.runtimeError "Database not initialized"), m) := by
      show (ite _ _ _, m) = _
      rw [hconnection]
      rfl
    exact Or.inl ⟨fun h => absurd h.1 nofun, _, bind_of_error hclosed⟩
  | some c =>
    obtain ⟨user, key⟩ := c
    obtain rfl := hown.eq hconnection
    have hverify := checkOldKey_eq hconnection hd d.verified
    cases hverified : d.verified with
    | false =>
      rw [hverified] at hverify
      exact Or.inl ⟨fun h => absurd h.2.1 nofun, _, bind_of_error hverify⟩
    | true =>
      rw [hverified] at hverify
      rw [bind_of_ok hverify]
      cases hrekeyed : d.rekeyed with
      | error e =>
        have hrekey : rekey newKey (.error e) m = (.error e, m) := by
          unfold rekey
          rw [hconnection]
        exact Or.inl ⟨fun h => absurd h.2.2 nofun, e, bind_of_error hrekey⟩
      | ok _ =>
        have hrekey := rekey_eq hconnection hd newKey
        by_cases hk : file.key = key
        · rw [if_pos hk] at hrekey
          rw [bind_of_ok hrekey]
          exact Or.inr ⟨⟨by rw [hk], rfl, rfl⟩, rfl⟩
        · rw [if_neg hk] at hrekey
          refine Or.inl ⟨fun h => hk ?_, _, bind_of_error hrekey⟩
          exact (Prod.mk.inj (Option.some.inj h.1)).2.symm

/-- The KEK's row is under the new key, or nothing has changed. -/
theorem Rotation.saveKek_cases {kek : K} (hkek : m.kek = some kek) {t : Tables K}
    (ht : m.tables = .ok t) (newKey : K) :
    (¬ (d.encrypted.isOk ∧ d.saved.isOk) ∧ ∃ e, d.saveKek C newKey m = (.error e, m))
      ∨ (d.encrypted.isOk ∧ d.saved.isOk) ∧ d.saveKek C newKey m = (.ok (), m.setTables
          { t with keys := t.keys.insert "kek" (encryptKek C kek d.nonce newKey) }) := by
  have hget : getKek m = (.ok kek, m) := getKek_of_some hkek
  have hquery : query .ok m = (.ok t, m) := query_of_tables ht .ok
  unfold saveKek
  rw [bind_of_ok hget]
  cases d.encrypted with
  | error e => exact Or.inl ⟨fun h => absurd h.1 nofun, e, rfl⟩
  | ok _ =>
    cases d.saved with
    | error e => exact Or.inl ⟨fun h => absurd h.2 nofun, e, rfl⟩
    | ok _ => exact Or.inr ⟨⟨rfl, rfl⟩, bind_of_ok hquery⟩

end Steps

/-! ## What unlocks afterwards -/

section Unlocks

variable [LinearOrder K] {C : AccountCrypto K} {username : String} {password : List UInt8}
  {m : Machine K}

omit [LinearOrder K] in
/-- A KEK is decrypted by the key it was encrypted under, and by no other. -/
theorem decryptKek_isOk_iff (hC : C.aead.Ideal) {kek masterKey under : K} {nonce : List UInt8} :
    (decryptKek C (encryptKek C kek nonce under) masterKey).isOk ↔ masterKey = under := by
  constructor
  · intro h
    unfold decryptKek AccountCrypto.decryptKey encryptKek AccountCrypto.encryptKey at h
    refine hC.opens_only nonce (C.keyBytes.bytes kek) under masterKey ?_
    cases hdecrypt : C.aead.decrypt nonce (C.aead.encrypt nonce (C.keyBytes.bytes kek) under)
        masterKey with
    | none =>
      rw [hdecrypt] at h
      exact absurd h Bool.false_ne_true
    | some _ => rfl
  · rintro rfl
    rw [decryptKek_encryptKek hC]
    rfl

/-- **With a whole salt and a KEK stored**, a password unlocks if its key is
both the one the database is under and the one the KEK is under. -/
theorem unlocks_iff_of_row (hC : C.aead.Ideal) {bytes nonce : List UInt8} {kek key under : K}
    {t : Tables K} (hsalt : (m.files username).salt = some bytes) (hlen : 16 ≤ bytes.length)
    (hd : (m.files username).database = some ⟨key, some t⟩)
    (hrow : t.keys.lookup "kek" = some (encryptKek C kek nonce under)) :
    m.Unlocks C username password ↔ C.pwhash password (bytes.take 16) = key ∧ under = key := by
  rw [unlocks_iff]
  constructor
  · rintro ⟨bytes', d, hbytes, hfile, hu⟩
    obtain rfl := Option.some.inj (hsalt.symm.trans hbytes)
    obtain rfl := Option.some.inj (hd.symm.trans hfile)
    obtain ⟨hkey, t', e, ht, he, hdecrypt⟩ := hu ⟨List.replicate 16 0, List.length_replicate⟩
    obtain rfl := Option.some.inj ht
    obtain rfl := Option.some.inj (hrow.symm.trans he)
    rw [readSalt_of_le hlen] at hkey hdecrypt
    exact ⟨hkey.symm, ((decryptKek_isOk_iff hC).mp hdecrypt).symm.trans hkey.symm⟩
  · rintro ⟨rfl, rfl⟩
    refine ⟨bytes, _, hsalt, hd, fun buffer => ?_⟩
    rw [readSalt_of_le hlen]
    exact ⟨rfl, t, _, rfl, hrow, (decryptKek_isOk_iff hC).mpr rfl⟩

/-- What is there when a password unlocks. -/
theorem exists_of_unlocks (hC : C.Ideal) (hrow : m.KekEncrypted C)
    (h : m.Unlocks C username password) : ∃ bytes t kek nonce,
    (m.files username).salt = some bytes ∧ 16 ≤ bytes.length
      ∧ (m.files username).database
        = some ⟨C.pwhash password (bytes.take 16), some t⟩
      ∧ t.keys.lookup "kek"
        = some (encryptKek C kek nonce (C.pwhash password (bytes.take 16))) := by
  obtain ⟨bytes, ⟨key, tables⟩, hsalt, hd, hu⟩ := unlocks_iff.mp h
  have hlen : 16 ≤ bytes.length := by
    by_contra hshort
    exact not_unlocks_of_short hC hsalt (Nat.lt_of_not_le hshort) h
  obtain ⟨hkey, t, e, ht, he, hdecrypt⟩ := hu ⟨List.replicate 16 0, List.length_replicate⟩
  obtain rfl : tables = some t := ht
  obtain ⟨kek, nonce, under, rfl⟩ := hrow username _ t hd rfl e he
  rw [readSalt_of_le hlen] at hkey hdecrypt
  obtain rfl : key = C.pwhash password (bytes.take 16) := hkey
  obtain rfl := (decryptKek_isOk_iff hC.aead).mp hdecrypt
  exact ⟨bytes, t, kek, nonce, hsalt, hlen, hd, he⟩

end Unlocks

/-! ## The rotation as a whole -/

namespace Rotation

variable [LinearOrder K] {C : AccountCrypto K} {username : String}
  {oldPassword newPassword : List UInt8} {d : Rotation K} {m m₁ : Machine K}

/-- Some password of the two unlocks. -/
def SomeUnlocks (C : AccountCrypto K) (username : String) (oldPassword newPassword : List UInt8)
    (m : Machine K) : Prop :=
  m.Unlocks C username oldPassword ∨ m.Unlocks C username newPassword

/-- Half way, with the database under the new key and the KEK under the old
one, and either salt on disk, only one key for both unlocks. -/
theorem someUnlocks_iff_sameKey (hC : C.Ideal) {bytes bytes' nonce : List UInt8} {t : Tables K}
    {kek : K} (hsalt : (m.files username).salt = some bytes)
    (hsalt' : (m₁.files username).salt = some bytes') (hlen : 16 ≤ bytes'.length)
    (hwhich : bytes'.take 16 = bytes.take 16 ∨ bytes'.take 16 = d.salt.1)
    (hd : (m₁.files username).database = some ⟨C.pwhash newPassword d.salt.1, some t⟩)
    (hrow : t.keys.lookup "kek"
      = some (encryptKek C kek nonce (C.pwhash oldPassword (bytes.take 16)))) :
    SomeUnlocks C username oldPassword newPassword m₁
      ↔ d.SameKey username oldPassword newPassword m := by
  have hunlocks : ∀ p, m₁.Unlocks C username p
      ↔ C.pwhash p (bytes'.take 16) = C.pwhash newPassword d.salt.1
        ∧ C.pwhash oldPassword (bytes.take 16) = C.pwhash newPassword d.salt.1 :=
    fun p => unlocks_iff_of_row hC.aead hsalt' hlen hd hrow
  unfold SomeUnlocks SameKey
  rw [hunlocks, hunlocks, hsalt, Option.map_some, Option.some_inj]
  constructor
  · rintro (⟨-, hsame⟩ | ⟨-, hsame⟩)
    · exact hC.pwhash _ _ _ _ hsame
    · exact hC.pwhash _ _ _ _ hsame
  · rintro ⟨rfl, hbytes⟩
    have hbytes' : bytes'.take 16 = d.salt.1 := hwhich.elim (·.trans hbytes) id
    exact Or.inl ⟨by rw [hbytes'], by rw [hbytes]⟩

/-- A salt file left short stays so, and nothing unlocks. -/
theorem not_someUnlocks_of_short (hC : C.Ideal) {newKey : K}
    (hopened : d.saltSaved.opened = .ok ()) (hshort : ¬ 16 ≤ d.saltSaved.written) :
    ¬ SomeUnlocks C username oldPassword newPassword
      ((saveSaltToFile username d.salt d.saltSaved >>= fun _ => d.saveKek C newKey) m₁).2 := by
  set bytes := d.saltSaved.bytes d.salt with hbytes
  have hexecute : ∀ f : Tables K → Tables K,
      Keeps (fun m : Machine K => (m.files username).salt = some bytes) (execute f) :=
    fun _ => (Keeps.reads _).bind fun _ => Keeps.modify fun _ h => (salt_setTables _).trans h
  have hkeeps : Keeps (fun m : Machine K => (m.files username).salt = some bytes)
      (d.saveKek C newKey) :=
    (Keeps.reads _).bind fun _ => (Keeps.answer _).bind fun _ => (Keeps.answer _).bind fun _ =>
      hexecute _
  have hsave : saveSaltToFile username d.salt d.saltSaved m₁
      = (d.saltSaved.closed, m₁.setSalt username bytes) := saveSaltToFile_of_opened m₁ hopened
  have hsalt : (((saveSaltToFile username d.salt d.saltSaved >>= fun _ =>
      d.saveKek C newKey) m₁).2.files username).salt = some bytes := by
    cases hclosed : d.saltSaved.closed with
    | error e =>
      rw [hclosed] at hsave
      rw [bind_of_error hsave]
      exact salt_setSalt bytes
    | ok _ =>
      rw [hclosed] at hsave
      rw [bind_of_ok hsave]
      exact hkeeps _ (salt_setSalt bytes)
  have hlt : bytes.length < 16 := SaltSaving.length_bytes_lt hshort
  exact fun h => h.elim (not_unlocks_of_short hC hsalt hlt) (not_unlocks_of_short hC hsalt hlt)

/-- **The end of a rotation that got its salt into the file**: it is the new
password that unlocks, or the process stopped before the KEK was stored. -/
theorem saveKek_unlocks (hC : C.aead.Ideal) (newPassword : List UInt8) {t : Tables K} {kek : K}
    (hsalt : (m.files username).salt = some d.salt.1) (ht : m.tables = .ok t)
    (hconnection : m.connection = some (username, C.pwhash newPassword d.salt.1))
    (hkek : m.kek = some kek) :
    (¬ (d.encrypted.isOk ∧ d.saved.isOk)
        ∧ (d.saveKek C (C.pwhash newPassword d.salt.1) m).2 = m)
      ∨ (d.encrypted.isOk ∧ d.saved.isOk)
        ∧ (d.saveKek C (C.pwhash newPassword d.salt.1) m).2.Unlocks C username newPassword := by
  obtain ⟨hnot, e, herror⟩ | ⟨hsaved, hdone⟩ := saveKek_cases (C := C) (d := d) hkek ht
    (C.pwhash newPassword d.salt.1)
  · exact Or.inl ⟨hnot, by rw [herror]⟩
  · refine Or.inr ⟨hsaved, ?_⟩
    rw [hdone]
    obtain ⟨user, key, hc, hfile⟩ := tables_eq_ok_iff.mp (tables_setTables ht { t with
      keys := t.keys.insert "kek" (encryptKek C kek d.nonce (C.pwhash newPassword d.salt.1)) })
    rw [Machine.connection_setTables] at hc
    obtain ⟨rfl, rfl⟩ := Prod.mk.inj (Option.some.inj (hconnection.symm.trans hc))
    refine (unlocks_iff_of_row hC ((salt_setTables _).trans hsalt) d.salt.2.ge hfile
      (Finmap.lookup_insert _)).mpr ⟨?_, rfl⟩
    rw [List.take_of_length_le d.salt.2.le]

/-- **What comes after the rekey**: the salt file and the KEK's row. -/
theorem someUnlocks_finish (hC : C.Ideal) {bytes nonce : List UInt8} {t : Tables K} {kek kek₀ : K}
    (hsalt : (m.files username).salt = some bytes) (hlen : 16 ≤ bytes.length)
    (hrow : t.keys.lookup "kek"
      = some (encryptKek C kek₀ nonce (C.pwhash oldPassword (bytes.take 16))))
    (hsalt₁ : (m₁.files username).salt = some bytes)
    (hd : (m₁.files username).database = some ⟨C.pwhash newPassword d.salt.1, some t⟩)
    (hconnection : m₁.connection = some (username, C.pwhash newPassword d.salt.1))
    (hkek : m₁.kek = some kek) (hchecked : d.checked.isOk) :
    SomeUnlocks C username oldPassword newPassword
        ((saveSaltToFile username d.salt d.saltSaved >>= fun _ =>
          d.saveKek C (C.pwhash newPassword d.salt.1)) m₁).2
      ↔ d.Completes ∨ d.SameKey username oldPassword newPassword m
        ∧ (d.ReachesSalt → 16 ≤ d.saltSaved.written) := by
  cases hopened : d.saltSaved.opened with
  | error e =>
    have hsave : saveSaltToFile username d.salt d.saltSaved m₁ = (.error e, m₁) := by
      unfold saveSaltToFile
      rw [hopened]
      rfl
    have hno : ¬ d.ReachesSalt := fun h => by
      rw [ReachesSalt, hopened] at h
      exact absurd h.2 nofun
    rw [bind_of_error hsave, or_iff_right fun h => hno h.1, and_iff_left fun h => absurd h hno]
    exact someUnlocks_iff_sameKey hC hsalt hsalt₁ hlen (Or.inl rfl) hd hrow
  | ok _ =>
    have hreaches : d.ReachesSalt := ⟨hchecked, by rw [hopened]; rfl⟩
    by_cases hwhole : 16 ≤ d.saltSaved.written
    · have hsave : saveSaltToFile username d.salt d.saltSaved m₁
          = (d.saltSaved.closed, m₁.setSalt username d.salt.1) := by
        rw [saveSaltToFile_of_opened m₁ hopened, SaltSaving.bytes_of_whole hwhole]
      have hsalt₂ : ((m₁.setSalt username d.salt.1).files username).salt = some d.salt.1 :=
        salt_setSalt _
      have hd₂ : ((m₁.setSalt username d.salt.1).files username).database
          = some ⟨C.pwhash newPassword d.salt.1, some t⟩ := (database_setSalt _).trans hd
      have ht₂ : (m₁.setSalt username d.salt.1).tables = .ok t :=
        tables_eq_ok_iff.mpr ⟨username, _, hconnection, hd₂⟩
      have hbetween : SomeUnlocks C username oldPassword newPassword
          (m₁.setSalt username d.salt.1) ↔ d.SameKey username oldPassword newPassword m :=
        someUnlocks_iff_sameKey hC hsalt hsalt₂ d.salt.2.ge
          (Or.inr (List.take_of_length_le d.salt.2.le)) hd₂ hrow
      rw [and_iff_left fun _ => hwhole]
      cases hclosed : d.saltSaved.closed with
      | error e =>
        rw [hclosed] at hsave
        have hnot : ¬ d.Completes := fun h => by
          rw [Completes, hclosed] at h
          exact absurd h.2.2.1 nofun
        rw [bind_of_error hsave, or_iff_right hnot]
        exact hbetween
      | ok _ =>
        rw [hclosed] at hsave
        rw [bind_of_ok hsave]
        obtain ⟨hnot, hsame⟩ | ⟨hsaved, hnew⟩ :=
          saveKek_unlocks hC.aead newPassword hsalt₂ ht₂ hconnection hkek
        · rw [hsame, or_iff_right fun h => hnot h.2.2.2]
          exact hbetween
        · exact iff_of_true (Or.inr hnew)
            (Or.inl ⟨hreaches, hwhole, by rw [hclosed]; rfl, hsaved⟩)
    · refine iff_of_false (not_someUnlocks_of_short hC hopened hwhole) ?_
      rintro (h | h)
      · exact hwhole h.2.1
      · exact hwhole (h.2 hreaches)

/-! ## A rotation that stops half way -/

/-- Steps that all return. -/
def ideal (salt : Salt) : Rotation ℕ where
  buffer := .ideal 0
  derivedOld := .ok ()
  salt := salt
  derivedNew := .ok ()
  verified := true
  rekeyed := .ok ()
  checked := .ok ()
  saltSaved := .ideal
  nonce := [9]
  encrypted := .ok ()
  saved := .ok ()

/-- The machine once alice is registered. -/
def registered : Machine ℕ :=
  (AccountCall.run .ideal (.registers "alice" [1] (.ideal (.ideal 1) 5)) .blank).2

theorem unlocks_registered : registered.Unlocks .ideal "alice" [1] := by
  have hsalt : (registered.files "alice").salt = some (List.replicate 16 1) := rfl
  have hopens : (unlock .ideal "alice" [1] (.ideal 0) registered.restart).1.isOk := by
    decide +kernel
  exact unlocks_of_isOk hsalt (by decide) hopens

/-- **What a rotation leaves unlockable.** For a user whose old password
unlocks everything, with no other user's database open, one of the two
passwords unlocks everything afterwards if and only if the rotation meets the
condition – wherever it failed or was interrupted. -/
theorem unlocks_iff_meets (hC : C.Ideal) (username : String)
    (oldPassword newPassword : List UInt8) (d : Rotation K) (m : Machine K)
    (hown : m.Own username) (hrow : m.KekEncrypted C)
    (hold : m.Unlocks C username oldPassword) :
    SomeUnlocks C username oldPassword newPassword
        (rotateMasterPassword C username oldPassword newPassword d m).2
      ↔ d.Meets username oldPassword newPassword m := by
  obtain ⟨bytes, t, kek₀, nonce₀, hsalt, hlen, hd, hkek₀⟩ := exists_of_unlocks hC hrow hold
  set oldKey := C.pwhash oldPassword (bytes.take 16) with holdKey
  set newKey := C.pwhash newPassword d.salt.1 with hnewKey
  have hstopped : ¬ d.Rekeys username m →
      ∀ e, rotateMasterPassword C username oldPassword newPassword d m = (.error e, m) →
      (SomeUnlocks C username oldPassword newPassword
          (rotateMasterPassword C username oldPassword newPassword d m).2
        ↔ d.Meets username oldPassword newPassword m) := by
    intro hnot e hrun
    rw [hrun]
    exact ⟨fun _ => Or.inl hnot, fun _ => Or.inl hold⟩
  obtain ⟨hnot, e, herror⟩ | ⟨hloaded, hkeys⟩ := masterKeys_cases (C := C) (d := d)
    oldPassword newPassword hsalt
  · exact hstopped (fun h => hnot ⟨h.1, h.2.1, h.2.2.1⟩) e (bind_of_error herror)
  rw [readSalt_of_le hlen] at hkeys
  unfold rotateMasterPassword at hstopped ⊢
  rw [bind_of_ok hkeys] at hstopped ⊢
  obtain ⟨hnot, e, herror⟩ | ⟨hopen, hrotated⟩ := rotateMasterKey_cases (d := d) hown hd newKey
  · refine hstopped (fun h => hnot ?_) e (bind_of_error herror)
    obtain ⟨-, -, -, ⟨file, hfile, hconnection⟩, hrest⟩ := h
    obtain rfl := Option.some.inj (hd.symm.trans hfile)
    exact ⟨hconnection, hrest⟩
  have hrekeys : d.Rekeys username m :=
    ⟨hloaded.1, hloaded.2.1, hloaded.2.2, ⟨_, hd, hopen.1⟩, hopen.2⟩
  unfold Meets
  rw [or_iff_right (not_not.mpr hrekeys)]
  obtain ⟨kek, hkek⟩ := Option.isSome_iff_exists.mp hloaded.1
  cases hchecked : d.checked with
  | error e =>
    rw [hchecked] at hrotated
    have hno : ¬ d.ReachesSalt := fun h => by
      rw [ReachesSalt, hchecked] at h
      exact absurd h.1 nofun
    rw [bind_of_error hrotated, or_iff_right fun h => hno h.1,
      and_iff_left fun h => absurd h hno]
    exact someUnlocks_iff_sameKey hC hsalt ((salt_setDatabase _).trans hsalt) hlen (Or.inl rfl)
      (database_setDatabase _) hkek₀
  | ok _ =>
    rw [hchecked] at hrotated
    rw [bind_of_ok hrotated]
    exact someUnlocks_finish hC hsalt hlen hkek₀ ((salt_setDatabase _).trans hsalt)
      (database_setDatabase _) rfl hkek (by rw [hchecked]; rfl)

/-- A rotation that runs to its end meets the condition, also after another
one. -/
theorem unlocks_iff_meets_alice :
    let m := (rotateMasterPassword .ideal "alice" [1] [2] (ideal (.ideal 2)) registered).2
    SomeUnlocks .ideal "alice" [2] [3]
      (rotateMasterPassword .ideal "alice" [2] [3] (ideal (.ideal 3)) m).2 := by
  intro m
  have hown : m.Own "alice" := by
    intro user key hconnection
    have halice : m.connection.map Prod.fst = some "alice" := by decide +kernel
    rw [hconnection] at halice
    exact Option.some.inj halice
  have hregistered : registered.KekEncrypted .ideal :=
    AccountCall.keepsKekEncrypted_run _ _ fun _ _ _ hd => (by cases hd)
  have hrow : m.KekEncrypted .ideal :=
    keepsKekEncrypted_rotateMasterPassword "alice" [1] [2] (ideal (.ideal 2)) registered hregistered
  have hunlocks : m.Unlocks .ideal "alice" [2] := by
    have hsalt : (m.files "alice").salt = some (List.replicate 16 2) := by decide +kernel
    have hopens : (unlock .ideal "alice" [2] (.ideal 0) m.restart).1.isOk := by
      decide +kernel
    exact unlocks_of_isOk hsalt (by decide) hopens
  exact (unlocks_iff_meets AccountCrypto.ideal_ideal "alice" [2] [3] (ideal (.ideal 3)) m hown hrow
    hunlocks).mpr (Or.inr (Or.inl ⟨⟨rfl, rfl⟩, le_rfl, rfl, rfl, rfl⟩))

/-- After the rekey the salt file does not open, or the process ends before
the KEK is stored: neither password unlocks any more. -/
theorem not_someUnlocks_of_half :
    registered.Unlocks .ideal "alice" [1]
      ∧ ¬ SomeUnlocks .ideal "alice" [1] [3] (rotateMasterPassword .ideal "alice" [1] [3]
        { ideal (.ideal 2) with saltSaved := ⟨.error (.runtimeError "read-only"), 0, .ok ()⟩ }
        registered).2
      ∧ ¬ SomeUnlocks .ideal "alice" [1] [3] (rotateMasterPassword .ideal "alice" [1] [3]
        { ideal (.ideal 2) with saved := .error (.runtimeError "interrupted") }
        registered).2 := by
  refine ⟨unlocks_registered, ?_, ?_⟩
  · rintro (h | h)
    · exact absurd (h (.ideal 0)) (by decide +kernel)
    · exact absurd (h (.ideal 0)) (by decide +kernel)
  · rintro (h | h)
    · exact absurd (h (.ideal 0)) (by decide +kernel)
    · exact absurd (h (.ideal 0)) (by decide +kernel)

end Rotation
