import Eastwood.AccountSwitch
import Eastwood.AuthCode
import Eastwood.LoginAttempts
import Eastwood.PublishedPrekeys

/-!
# The windows of an account

A passphrase is entered in four windows: the one that registers a user, the
dialog of a device that was accepted, the settings, where it is changed, and
the login window. Each takes the text of its field to secure memory in its
own way – most of them copy as many bytes of its UTF-8 as it has UTF-16 code
units, the settings all bytes –, and each but for the current passphrase of
the settings has it validated first. What is valid is ASCII, and for that all
ways are one (`secured_of_acceptable`).

So the windows agree on what a passphrase is. After a user was registered, or
a device accepted, whatever is then entered anywhere, right or wrong, in
however many processes: it is the passphrase set last that gets in and no
other text, unless it is now known to be too common, and behind it is the key
pair the device was set up with (`received_iff_set_last`).
-/

open Throwing

/-! ## Texts in secure memory -/

/-- The first half of a pair of code units, -/
def isHighSurrogate (u : UInt16) : Bool := 0xD800 ≤ u && u < 0xDC00

/-- and the second. -/
def isLowSurrogate (u : UInt16) : Bool := 0xDC00 ≤ u && u < 0xE000

/-- A byte that continues a character. -/
def tailByte (n : ℕ) : UInt8 := UInt8.ofNat (0x80 + n % 0x40)

/-- The bytes of a code unit by itself. Half of a pair is a question mark. -/
def unitBytes (u : UInt16) : List UInt8 :=
  let n := u.toNat
  if n < 0x80 then [u.toUInt8]
  else if n < 0x800 then [UInt8.ofNat (0xC0 + n / 0x40), tailByte n]
  else if isHighSurrogate u || isLowSurrogate u then [63]
  else [UInt8.ofNat (0xE0 + n / 0x1000), tailByte (n / 0x40), tailByte n]

/-- The bytes of a pair. -/
def pairBytes (high low : UInt16) : List UInt8 :=
  let n := 0x10000 + (high.toNat - 0xD800) * 0x400 + (low.toNat - 0xDC00)
  [UInt8.ofNat (0xF0 + n / 0x40000), tailByte (n / 0x1000), tailByte (n / 0x40), tailByte n]

/-- **`QString::toUtf8`**, and `QString::toStdString`. -/
def toUtf8 : QText → List UInt8
  | [] => []
  | [u] => unitBytes u
  | u :: low :: rest =>
    if isHighSurrogate u && isLowSurrogate low then pairBytes u low ++ toUtf8 rest
    else unitBytes u ++ toUtf8 (low :: rest)

/-- **What a window copies of a passphrase** to secure memory: of its bytes as
many as it has code units. -/
def secured (passphrase : QText) : List UInt8 := (toUtf8 passphrase).take passphrase.length

/-- Printable ASCII. -/
def IsPrintable (c : UInt16) : Prop := 32 ≤ c ∧ c ≤ 126

theorem unitBytes_of_printable {c : UInt16} (h : IsPrintable c) : unitBytes c = [c.toUInt8] := by
  have hlt : c.toNat < 0x80 := Nat.lt_of_le_of_lt (UInt16.le_iff_toNat_le.mp h.2) (by decide)
  rw [unitBytes, if_pos hlt]

/-- **What is printable ASCII is one byte a character.** -/
theorem toUtf8_of_printable {passphrase : QText} (h : ∀ c ∈ passphrase, IsPrintable c) :
    toUtf8 passphrase = passphrase.map (·.toUInt8) := by
  induction passphrase using toUtf8.induct with
  | case1 => rfl
  | case2 u => exact unitBytes_of_printable (h u List.mem_cons_self)
  | case3 u low rest hpair ih =>
    have hhigh : 0xD800 ≤ u := of_decide_eq_true (Bool.and_elim_left (Bool.and_elim_left hpair))
    have hle := Nat.le_trans (UInt16.le_iff_toNat_le.mp hhigh)
      (UInt16.le_iff_toNat_le.mp (h u List.mem_cons_self).2)
    exact absurd hle (by decide)
  | case4 u low rest hpair ih =>
    rw [toUtf8, if_neg hpair, unitBytes_of_printable (h u List.mem_cons_self),
      ih fun c hc => h c (List.mem_cons_of_mem u hc)]
    rfl

/-- Such texts with the same bytes are the same. -/
theorem eq_of_map_toUInt8 {p q : QText} (hp : ∀ c ∈ p, IsPrintable c)
    (hq : ∀ c ∈ q, IsPrintable c) (h : p.map (·.toUInt8) = q.map (·.toUInt8)) : p = q := by
  have hback : ∀ l : QText, (∀ c ∈ l, IsPrintable c) →
      (l.map (·.toUInt8)).map (·.toUInt16) = l := by
    intro l hl
    rw [List.map_map]
    refine (List.map_congr_left fun c hc => ?_).trans (List.map_id l)
    have hlt : c.toNat < 256 :=
      Nat.lt_of_le_of_lt (UInt16.le_iff_toNat_le.mp (hl c hc).2) (by decide)
    exact UInt16.toNat_inj.mp (Nat.mod_eq_of_lt hlt)
  rw [← hback p hp, h, hback q hq]

/-! ## What is valid -/

namespace PassphraseValidator

/-- **A passphrase may be used**, if it is not too common. -/
structure Acceptable (p : QText) : Prop where
  min : minPassphraseLength ≤ p.length
  max : p.length ≤ maxPassphraseLength
  varied : repeats p = false
  ends : ¬ (p.head? = some 32 ∨ p.getLast? = some 32)
  printable : ∀ c ∈ p, IsPrintable c

variable {commonPasswords : Option (List QText)} {p q : QText}

/-- **When there is no error message.** -/
theorem validate_eq_none_iff : validate commonPasswords p q = none
    ↔ Acceptable p ∧ p = q ∧ commonPasswords.any (p ∈ ·) = false := by
  have hprintable : (p.any fun c => c < 32 || 126 < c) = false ↔ ∀ c ∈ p, IsPrintable c := by
    rw [List.any_eq_false]
    refine forall₂_congr fun c _ => ?_
    rw [Bool.not_eq_true, Bool.or_eq_false_iff, decide_eq_false_iff_not, decide_eq_false_iff_not,
      UInt16.not_lt, UInt16.not_lt]
    exact Iff.rfl
  constructor
  · intro h
    unfold validate at h
    split_ifs at h with hnil hmin hmax hconfirm heq hvaried hends hplain hcommon
    refine ⟨⟨not_lt.mp hmin, not_lt.mp hmax, Bool.not_eq_true _ ▸ hvaried, hends, ?_⟩,
      not_not.mp heq, Bool.not_eq_true _ ▸ hcommon⟩
    exact hprintable.mp (Bool.not_eq_true _ ▸ hplain)
  · rintro ⟨h, rfl, hcommon⟩
    have hnil : p ≠ [] := List.ne_nil_of_length_pos (Nat.lt_of_lt_of_le (by decide) h.min)
    unfold validate
    rw [if_neg hnil, if_neg (not_lt.mpr h.min), if_neg (not_lt.mpr h.max), if_neg hnil,
      if_neg (not_not.mpr rfl), h.varied, if_neg Bool.false_ne_true, if_neg h.ends,
      hprintable.mpr h.printable, if_neg Bool.false_ne_true, hcommon, if_neg Bool.false_ne_true]

end PassphraseValidator

open PassphraseValidator

/-- **All windows take the same of it.** -/
theorem secured_of_acceptable {p : QText} (h : Acceptable p) :
    secured p = toUtf8 p ∧ toUtf8 p = p.map (·.toUInt8) := by
  have hbytes := toUtf8_of_printable h.printable
  refine ⟨?_, hbytes⟩
  rw [secured, hbytes, ← List.length_map (·.toUInt8), List.take_length]

/-! ## The windows -/

/-- `NameValidator::validateFullName`: the error message, if there is one. -/
def validateFullName (fullName : String) : Except String Unit :=
  let trimmedFullName := trimmed fullName.toList
  if trimmedFullName = [] then .error "Full name is required"
  else if qtLength trimmedFullName < 3 then
    .error "Full name must be at least 3 characters long"
  else if 64 < qtLength trimmedFullName then
    .error "Full name cannot be longer than 64 characters"
  else if trimmedFullName.all fun c => 32 ≤ c.toNat && c.toNat ≤ 126 then .ok ()
  else .error "Full name can only contain printable characters"

/-- What is entered to register. -/
structure RegisterForm where
  fullName : String
  username : String
  passphrase : QText
  confirmPassphrase : QText

/-- The name of the user. -/
def RegisterForm.account (f : RegisterForm) : String := String.ofList (trimmed f.username.toList)

/-- What is checked of it, in this order. -/
def RegisterForm.errorMessage (commonPasswords : Option (List QText)) (f : RegisterForm) :
    Option String :=
  match validateFullName (String.ofList (trimmed f.fullName.toList)) with
  | .error e => some e
  | .ok () =>
    match validateUsername f.account with
    | .error e => some e
    | .ok () => validate commonPasswords f.passphrase f.confirmPassphrase

/-- What a registration draws, and what its steps are answered: the passphrase
is taken to secure memory once more for the login. -/
structure RegisterDraws (K : Type) where
  secured : Except Fault Unit
  user : Registration K
  device : K × K
  nonceDevice : List UInt8
  timestamp : ℤ
  sodiumInit : Except Fault Unit
  posted : Except Fault Unit
  securedAgain : Except Fault Unit
  login : LoginDraws K

/-- How it ends: in a message about what was entered, by a throw out of the
handler, in a message of what failed, or in the next window. -/
inductive RegisterEnd where
  | invalid (errorMessage : String)
  | notSecured (what : Fault)
  | failed (what : Fault)
  | registered
  deriving DecidableEq

/-- What a device that was accepted draws, and what its steps are answered. -/
structure LinkDraws (K : Type) where
  secured : Except Fault Unit
  setUp : SetUp K
  nonceDevice : List UInt8
  timestamp : ℤ
  securedAgain : Except Fault Unit
  login : LoginDraws K
  shown : Except Fault Unit

/-- How that ends. -/
inductive LinkEnd where
  | cancelled
  | failed (what : Fault)
  | linked

/-- How a change of the passphrase ends. -/
inductive ChangeEnd where
  | invalid (errorMessage : String)
  | failed (what : Fault)
  | updated

/-- `StyledMessageBox::getPassphraseWithVerification`: the two texts at each
click on its button, until they are valid or the dialog is closed. -/
def getPassphraseWithVerification (commonPasswords : Option (List QText))
    (clicks : List (QText × QText)) : Option QText :=
  (clicks.find? fun texts => (validate commonPasswords texts.1 texts.2).isNone).map Prod.fst

/-- The loop of `DeviceRegister::onUserRegistered`, of as many dialogs as are
shown. -/
def askPassphrase (commonPasswords : Option (List QText)) :
    List (List (QText × QText)) → Option QText
  | [] => none
  | clicks :: dialogs =>
    match getPassphraseWithVerification commonPasswords clicks with
    | none => none
    | some passphrase =>
      if 15 ≤ passphrase.length && passphrase.length ≤ 64 then some passphrase
      else askPassphrase commonPasswords dialogs

section Windows

variable {K : Type} [LinearOrder K] (C : AccountCrypto K)

/-- The `try` of `Register::onRegisterButtonClicked`. -/
def registerAccount (username : String) (passphrase : QText) (d : RegisterDraws K) :
    AccountM K Unit := do
  registerUser C username (secured passphrase) d.user
  registerFirstDevice C d.device d.nonceDevice d.timestamp d.sodiumInit d.posted
  Throwing.answer d.securedAgain
  loginUser C username (secured passphrase) d.login

/-- **`Register::onRegisterButtonClicked`.** -/
def onRegisterButtonClicked (commonPasswords : Option (List QText)) (f : RegisterForm)
    (d : RegisterDraws K) (m : Machine K) : RegisterEnd × Machine K :=
  match f.errorMessage commonPasswords with
  | some errorMessage => (.invalid errorMessage, m)
  | none =>
    match d.secured with
    | .error e => (.notSecured e, m)
    | .ok () =>
      match registerAccount C f.account f.passphrase d m with
      | (.error e, m) => (.failed e, m)
      | (.ok (), m) => (.registered, m)

/-- The `try` of `DeviceRegister::onUserRegistered`. -/
def linkAccount (username : String) (device : K × K) (passphrase : QText) (d : LinkDraws K) :
    AccountM K Unit := do
  Throwing.answer d.secured
  setUpClientForUser C username (secured passphrase) d.setUp
  let eskDevice ← encryptSecretKey C device.2 d.nonceDevice
  saveEncryptedKeypair "device" ⟨device.1, eskDevice, d.timestamp⟩
  Throwing.answer d.securedAgain
  loginUser C username (secured passphrase) d.login
  Throwing.answer d.shown

/-- **`DeviceRegister::onUserRegistered`**, of a device with a key pair. -/
def onUserRegistered (commonPasswords : Option (List QText)) (username : String) (device : K × K)
    (dialogs : List (List (QText × QText))) (d : LinkDraws K) (m : Machine K) :
    LinkEnd × Machine K :=
  match askPassphrase commonPasswords dialogs with
  | none => (.cancelled, m)
  | some passphrase =>
    match linkAccount C username device passphrase d m with
    | (.error e, m) => (.failed e, m)
    | (.ok (), m) => (.linked, m)

/-- **`Settings::onPassphraseSaveClicked`**: all bytes of the texts are taken,
and the current one is not validated. -/
def onPassphraseSaveClicked (commonPasswords : Option (List QText)) (username : String)
    (currentPassphrase newPassphrase confirmPassphrase : QText) (secured : Except Fault Unit)
    (d : Rotation K) (m : Machine K) : ChangeEnd × Machine K :=
  match validate commonPasswords newPassphrase confirmPassphrase with
  | some errorMessage => (.invalid errorMessage, m)
  | none =>
    match secured with
    | .error e => (.failed e, m)
    | .ok () =>
      match rotateMasterPassword C username (toUtf8 currentPassphrase) (toUtf8 newPassphrase) d
        m with
      | (.error e, m) => (.failed e, m)
      | (.ok (), m) => (.updated, m)

end Windows

/-! ## What is done with an account -/

/-- The passphrase set last, and the login window with its machine. -/
structure AccountState (K : Type) where
  passphrase : QText
  window : LoginWindow K

/-- **What is done**: a process ends and another starts, the login window is
opened anew, the user logs out, submits a passphrase, changes it, and what
other windows do writes rows. -/
inductive AccountUse (K : Type) where
  | restarts
  | opensLogin
  | logsOut (answered : Except Fault Unit)
  | submits (commonPasswords : Option (List QText)) (d : LoginSubmission K)
  | changes (commonPasswords : Option (List QText))
      (currentPassphrase newPassphrase confirmPassphrase : QText) (secured : Except Fault Unit)
      (d : Rotation K)
  | writes (ratchets : Finmap fun _ : K => String × NewRatchet K)
      (messages : Finmap fun _ : String => StoredMessage K)

section Uses

variable {K : Type} [LinearOrder K] (C : AccountCrypto K) (username : String)

/-- What it leaves. -/
def AccountUse.step : AccountUse K → AccountState K → AccountState K
  | restarts, s => { s with window := .opened s.window.machine.restart }
  | opensLogin, s => { s with window := .opened s.window.machine }
  | logsOut answered, s =>
    { s with window := { s.window with machine := (logout answered s.window.machine).2 } }
  | submits commonPasswords d, s =>
    { s with window := (onLoginButtonClicked C commonPasswords d s.window).2 }
  | changes commonPasswords currentPassphrase newPassphrase confirmPassphrase secured d, s =>
    match onPassphraseSaveClicked C commonPasswords username currentPassphrase newPassphrase
      confirmPassphrase secured d s.window.machine with
    | (.updated, m) => ⟨newPassphrase, { s.window with machine := m }⟩
    | (_, m) => { s with window := { s.window with machine := m } }
  | writes ratchets messages, s =>
    { s with window := { s.window with machine :=
      (execute (fun t => { t with ratchets := ratchets, messages := messages })
        s.window.machine).2 } }

/-- **What is asked of it**: a submission is of this user, and a change with
the right current passphrase, if it gets to encrypt the database again, runs
to its end, with all sixteen bytes of the salt in its file. -/
def AccountUse.GoesThrough : AccountUse K → AccountState K → Prop
  | submits _ d, _ => d.username = username
  | changes _ currentPassphrase _ _ _ d, s =>
    toUtf8 currentPassphrase = toUtf8 s.passphrase → d.Rekeys username s.window.machine →
      d.Completes
  | _, _ => True

end Uses

/-! ## The key pair of the device -/

section Device

variable {K : Type} (C : AccountCrypto K) (username : String) (password : List UInt8) (kek : K)
  (row : KeypairRow K)

/-- **A row has a key pair**, the private key under the KEK. -/
def KeypairRow.Holds (device : K × K) (row : KeypairRow K) : Prop :=
  row.publicKey = device.1
    ∧ C.decryptKey "Failed to decrypt secret key" row.encryptedPrivateKey kek = .ok device.2

/-- The user's store is in order and open, and the device has this row. -/
def Machine.InUseBy (m : Machine K) : Prop :=
  ∃ salt t, m.SignedIn C username password kek salt t ∧ t.keypairs.lookup "device" = some row

/-- **The store between uses**: it is open, or nothing is. -/
inductive Machine.Settled (m : Machine K) : Prop where
  | signedIn (h : m.InUseBy C username password kek row)
  | signedOut (salt : Salt) (t : Tables K) (inOrder : m.InOrder C username password kek salt t)
      (device : t.keypairs.lookup "device" = some row) (connection : m.connection = none)
      (unloaded : m.kek = none)

/-- A login is answered by the server. -/
def LoginDraws.Answered (d : LoginDraws K) : Prop :=
  d.requested.isOk ∧ d.authenticated.isOk ∧ ∀ draws, d.newKeys = some draws → draws.posted.isOk

variable [LinearOrder K] {C} {username} {password} {kek} {row} {P : Prop} {device : K × K}

/-- Where it is open, statements that leave the KEK's row and the device's
alone return. -/
theorem returns_execute {f : Tables K → Tables K} (hkeys : ∀ t, (f t).keys = t.keys)
    (hdevice : ∀ t, (f t).keypairs.lookup "device" = t.keypairs.lookup "device") :
    Returns P (Machine.InUseBy C username password kek row) (execute f) := by
  rintro m ⟨salt, t, h, hrow⟩
  have hrun : execute f m = (.ok (), m.setTables (f t)) :=
    bind_of_ok (query_of_tables h.tables .ok)
  rw [hrun]
  exact ⟨⟨salt, f t, h.setTables (by rw [hkeys]), (hdevice t).trans hrow⟩, fun _ => rfl⟩

theorem returns_query {α : Type} {f : Tables K → Except Fault α} (hf : ∀ t, (f t).isOk) :
    Returns P (Machine.InUseBy C username password kek row) (query f) :=
  Returns.reads fun m ⟨_, t, h, _⟩ => by
    rw [h.tables]
    exact hf t

theorem returns_saveOnetimeKeys (keys : List (K × EncryptedKey)) :
    Returns P (Machine.InUseBy C username password kek row) (saveEncryptedOnetimeKeys keys) := by
  rintro m ⟨salt, t, h, hrow⟩
  obtain ⟨rows, hrows⟩ := t.foldl_insertOnetime keys
  rw [saveEncryptedOnetimeKeys_of_tables h.tables]
  exact ⟨⟨salt, _, h.setTables (by rw [hrows]), by rw [hrows]; exact hrow⟩, fun _ => rfl⟩

omit [LinearOrder K] in
theorem returns_encryptSecretKey (sk : K) (nonce : List UInt8) :
    Returns P (Machine.InUseBy C username password kek row) (encryptSecretKey C sk nonce) := by
  rintro m ⟨salt, t, h, hrow⟩
  have hrun : encryptSecretKey C sk nonce m = (.ok (C.encryptKey nonce sk kek), m) :=
    bind_of_ok (getKek_of_some h.loaded)
  rw [hrun]
  exact ⟨⟨salt, t, h, hrow⟩, fun _ => rfl⟩

omit [LinearOrder K] in
theorem returns_encryptOnetimeKeys (onetime : List ((K × K) × List UInt8)) :
    Returns P (Machine.InUseBy C username password kek row) (encryptOnetimeKeys C onetime) := by
  induction onetime with
  | nil => exact Returns.pure []
  | cons key onetime ih =>
    obtain ⟨⟨pk, sk⟩, nonce⟩ := key
    exact (returns_encryptSecretKey sk nonce).bind fun _ => ih.bind fun _ => Returns.pure _

theorem returns_loadRatchetsFromDb :
    Returns P (Machine.InUseBy C username password kek row) (loadRatchetsFromDb (K := K)) := by
  refine (returns_query fun _ => rfl).bind fun t => Returns.modify ?_
  rintro m ⟨salt, t', h, hrow⟩
  exact ⟨salt, t', ⟨⟨h.saltFile, h.database, h.kekRow⟩, h.connection, h.loaded⟩, hrow⟩

/-- **The device's key pair is read** where the store is open. -/
theorem Machine.InUseBy.getDecryptedKeypair_eq {m : Machine K}
    (h : m.InUseBy C username password kek row) (hdevice : row.Holds C kek device) :
    getDecryptedKeypair C "device" m = (.ok device, m) := by
  obtain ⟨salt, t, h, hrow⟩ := h
  have hget : getEncryptedKeypair "device" m = (.ok row, m) := by
    rw [getEncryptedKeypair, query_of_tables h.tables, hrow]
    rfl
  unfold getDecryptedKeypair
  rw [bind_of_ok hget, bind_of_ok (getKek_of_some h.loaded), hdevice.1, hdevice.2]
  rfl

/-- **The rest of a login** keeps the store open, and returns if the server
answers. -/
theorem returns_finish (hdevice : row.Holds C kek device) (d : LoginDraws K) :
    Returns d.Answered (Machine.InUseBy C username password kek row) (d.finish C) := by
  have hread : Returns d.Answered (Machine.InUseBy C username password kek row)
      (getDecryptedKeypair C "device") := by
    intro m h
    rw [h.getDecryptedKeypair_eq hdevice]
    exact ⟨h, fun _ => rfl⟩
  refine hread.bind fun _ => (Returns.answer fun h => h.1).bind fun _ => ?_
  refine (Returns.answer fun h => h.2.1).bind fun _ => returns_loadRatchetsFromDb.bind fun _ => ?_
  cases hkeys : d.newKeys with
  | none => exact Returns.pure ()
  | some draws =>
    have hsave : ∀ signed, Returns d.Answered (Machine.InUseBy C username password kek row)
        (saveEncryptedKeypair "signed" signed) := fun _ =>
      returns_execute (fun _ => rfl) fun t => Finmap.lookup_insert_of_ne t.keypairs (by decide)
    have hsigned : Returns d.Answered (Machine.InUseBy C username password kek row)
        (generateSignedPrekey C draws) :=
      (returns_encryptSecretKey _ _).bind fun _ => (hsave _).bind fun _ => hread.bind fun _ =>
        Returns.pure ()
    refine (returns_query fun _ => rfl).bind fun lastUpdated => ?_
    have hrenew : Returns d.Answered (Machine.InUseBy C username password kek row)
        (if lastUpdated.all fun t => t < draws.now - Responder.maxAge then
          generateSignedPrekey C draws else pure ()) := by
      split
      · exact hsigned
      · exact Returns.pure ()
    exact hrenew.bind fun _ => hread.bind fun _ => (returns_encryptOnetimeKeys _).bind fun _ =>
      (returns_saveOnetimeKeys _).bind fun _ => Returns.answer fun h => h.2.2 draws hkeys

/-! ## One use -/

omit [LinearOrder K] in
/-- The beginning of a login reads the salt. -/
theorem Machine.InOrder.masterKey_eq {salt : Salt} {t : Tables K} {m : Machine K}
    (h : m.InOrder C username password kek salt t) (p : List UInt8) (d : LoginDraws K) :
    d.masterKey C username p m = (d.derived.map fun _ => C.pwhash p salt.1, m) := by
  have hread : getSaltFromFile username d.buffer m = (.ok salt.1, m) := by
    rw [getSaltFromFile_of_some h.saltFile, readSalt_val]
  unfold LoginDraws.masterKey
  rw [bind_of_ok hread]
  rfl

/-- **The KEK is loaded** with the key its row is under, and with no other. -/
theorem Machine.InOrder.loadKek_cases (hC : C.aead.Ideal) {salt : Salt} {t : Tables K}
    {m : Machine K} (h : m.InOrder C username password kek salt t)
    (hopen : m.connection = some (username, C.pwhash password salt.1)) (masterKey : K) :
    (masterKey ≠ C.pwhash password salt.1 ∧ ∃ e, loadKek C masterKey m = (.error e, m))
      ∨ masterKey = C.pwhash password salt.1
        ∧ loadKek C masterKey m = (.ok (), { m with kek := some kek }) := by
  obtain ⟨nonce, hrow⟩ := h.kekRow
  have ht : m.tables = .ok t := tables_eq_ok_iff.mpr ⟨username, _, hopen, h.database⟩
  have hget : getEncryptedKey "kek" m
      = (.ok (encryptKek C kek nonce (C.pwhash password salt.1)), m) := by
    rw [getEncryptedKey, query_of_tables ht, hrow]
    rfl
  unfold loadKek
  rw [bind_of_ok hget]
  by_cases hkey : masterKey = C.pwhash password salt.1
  · rw [hkey, decryptKek_encryptKek hC]
    exact Or.inr ⟨rfl, rfl⟩
  · refine Or.inl ⟨hkey, ?_⟩
    have hno : ¬ (decryptKek C (encryptKek C kek nonce (C.pwhash password salt.1))
        masterKey).isOk := fun h => hkey ((decryptKek_isOk_iff hC).mp h)
    cases hdecrypt : decryptKek C (encryptKek C kek nonce (C.pwhash password salt.1)) masterKey with
    | error e => exact ⟨e, rfl⟩
    | ok _ => exact absurd (by rw [hdecrypt]; rfl) hno

/-- **The store is opened** with its key, or was open, whatever the key;
otherwise nothing changes. -/
theorem Machine.InOrder.initializeDatabase_cases (hC : C.Ideal) {salt : Salt} {t : Tables K}
    {m : Machine K} (h : m.InOrder C username password kek salt t)
    (hconnection : m.connection = none
      ∨ m.connection = some (username, C.pwhash password salt.1))
    (p : List UInt8) (opened : Except Fault Unit) :
    (¬ (p = password ∧ opened.isOk)
        ∧ ∃ e, initializeDatabase username (C.pwhash p salt.1) opened m = (.error e, m))
      ∨ ∃ m', initializeDatabase username (C.pwhash p salt.1) opened m = (.ok (), m')
        ∧ m'.InOrder C username password kek salt t
        ∧ m'.connection = some (username, C.pwhash password salt.1)
        ∧ (p ≠ password → m' = m) := by
  obtain hclosed | hopen := hconnection
  · cases opened with
    | error e =>
      refine Or.inl ⟨fun h => absurd h.2 Bool.false_ne_true, e, ?_⟩
      unfold initializeDatabase
      rw [hclosed]
    | ok _ =>
      have hrun : initializeDatabase username (C.pwhash p salt.1) (.ok ()) m = _ :=
        initializeDatabase_of_none hclosed _
      rw [h.database] at hrun
      by_cases hp : p = password
      · subst hp
        exact Or.inr ⟨_, hrun.trans (if_pos rfl), ⟨h.saltFile, h.database, h.kekRow⟩, rfl,
          fun hne => absurd rfl hne⟩
      · have hkey : C.pwhash password salt.1 ≠ C.pwhash p salt.1 := fun hsame =>
          hp (hC.pwhash _ _ _ _ hsame).1.symm
        exact Or.inl ⟨fun h => hp h.1, _, hrun.trans (if_neg hkey)⟩
  · refine Or.inr ⟨m, ?_, h, hopen, fun _ => rfl⟩
    unfold initializeDatabase
    rw [hopen]

omit [LinearOrder K] in
/-- Between uses the store is in order, and nobody else's is open. -/
theorem Machine.Settled.inOrder {m : Machine K} (h : m.Settled C username password kek row) :
    ∃ salt t, m.InOrder C username password kek salt t ∧ t.keypairs.lookup "device" = some row
      ∧ (m.connection = none ∨ m.connection = some (username, C.pwhash password salt.1)) := by
  cases h with
  | signedIn h =>
    obtain ⟨salt, t, hin, hrow⟩ := h
    exact ⟨salt, t, hin.toInOrder, hrow, Or.inr hin.connection⟩
  | signedOut salt t inOrder device connection _ =>
    exact ⟨salt, t, inOrder, device, Or.inl connection⟩

/-- **A login, wherever the store is**: with another password, or where its
key is not derived or the store not opened, it throws and nothing changes;
with the password it comes to its rest, with the store open. -/
theorem Machine.Settled.loginUser_cases (hC : C.Ideal) {m : Machine K}
    (h : m.Settled C username password kek row) (p : List UInt8) (d : LoginDraws K) :
    (¬ (p = password ∧ d.derived.isOk ∧ d.opened.isOk)
        ∧ ∃ e, loginUser C username p d m = (.error e, m))
      ∨ p = password ∧ ∃ m', m'.InUseBy C username password kek row
        ∧ loginUser C username p d m = d.finish C m' := by
  obtain ⟨salt, t, hin, hrow, hconnection⟩ := h.inOrder
  have hkey := hin.masterKey_eq p d
  unfold loginUser
  cases hderived : d.derived with
  | error e =>
    rw [hderived] at hkey
    exact Or.inl ⟨fun h => absurd h.2.1 Bool.false_ne_true, e, bind_of_error hkey⟩
  | ok _ =>
    rw [hderived] at hkey
    rw [bind_of_ok hkey]
    obtain ⟨hnot, e, hopen⟩ | ⟨m₁, hopen, hin₁, hconnection₁, hsame⟩ :=
      hin.initializeDatabase_cases hC hconnection p d.opened
    · rw [bind_of_error hopen]
      exact Or.inl ⟨fun h => hnot ⟨h.1, h.2.2⟩, e, rfl⟩
    · rw [bind_of_ok hopen]
      obtain ⟨hne, e, hload⟩ | ⟨hright, hload⟩ :=
        hin₁.loadKek_cases hC.aead hconnection₁ (C.pwhash p salt.1)
      · have hp : p ≠ password := fun hp => hne (by rw [hp])
        obtain rfl := hsame hp
        rw [bind_of_error hload]
        exact Or.inl ⟨fun h => hp h.1, e, rfl⟩
      · rw [bind_of_ok hload]
        exact Or.inr ⟨(hC.pwhash _ _ _ _ hright).1, { m₁ with kek := some kek }, ⟨salt, t,
          ⟨⟨hin₁.saltFile, hin₁.database, hin₁.kekRow⟩, hconnection₁, rfl⟩, hrow⟩, rfl⟩

/-- A rotation with the right password that is not cut off once it encrypts
the database again has changed nothing, or it returns and its salt is on
disk. -/
theorem Machine.SignedIn.rotateMasterPassword_cases {salt : Salt} {t : Tables K} {m : Machine K}
    (h : m.SignedIn C username password kek salt t) (newPassword : List UInt8) {d : Rotation K}
    (hd : d.Rekeys username m → d.Completes) :
    (∃ e, rotateMasterPassword C username password newPassword d m = (.error e, m))
      ∨ 16 ≤ d.saltSaved.written
        ∧ ∃ m', rotateMasterPassword C username password newPassword d m = (.ok (), m') := by
  set newKey := C.pwhash newPassword d.salt.1 with hnewKey
  unfold rotateMasterPassword
  obtain ⟨-, e, herror⟩ | ⟨hderived, hkeys⟩ := Rotation.masterKeys_cases (C := C) (d := d)
    password newPassword h.saltFile
  · exact Or.inl ⟨e, bind_of_error herror⟩
  rw [readSalt_val] at hkeys
  rw [bind_of_ok hkeys]
  have hown : m.Own username := fun user key hconnection =>
    (Prod.mk.inj (Option.some.inj (hconnection.symm.trans h.connection))).1
  obtain ⟨-, e, herror⟩ | ⟨⟨-, hverified, hrekeyed⟩, hrotated⟩ :=
    rotateMasterKey_cases (d := d) hown h.database newKey
  · exact Or.inl ⟨e, bind_of_error herror⟩
  obtain ⟨⟨hchecked, hopened⟩, hwhole, hclosed, hsaved⟩ := hd ⟨hderived.1, hderived.2.1,
    hderived.2.2, ⟨_, h.database, h.connection⟩, hverified, hrekeyed⟩
  obtain ⟨⟨⟩, hchecked⟩ := exists_of_isOk hchecked
  obtain ⟨⟨⟩, hopened⟩ := exists_of_isOk hopened
  obtain ⟨⟨⟩, hclosed⟩ := exists_of_isOk hclosed
  rw [hchecked] at hrotated
  have hsalt : saveSaltToFile username d.salt d.saltSaved
      { m.setDatabase username ⟨newKey, some t⟩ with connection := some (username, newKey) } = _ :=
    saveSaltToFile_of_opened _ hopened
  rw [hclosed] at hsalt
  rw [bind_of_ok hrotated, bind_of_ok hsalt]
  -- the machine before the KEK is stored
  set m₂ := Machine.setSalt username (d.saltSaved.bytes d.salt)
    { m.setDatabase username ⟨newKey, some t⟩ with connection := some (username, newKey) }
  have ht : m₂.tables = .ok t := tables_eq_ok_iff.mpr
    ⟨username, newKey, rfl, (database_setSalt _).trans (database_setDatabase _)⟩
  obtain ⟨hnot, -⟩ | ⟨-, hdone⟩ :=
    Rotation.saveKek_cases (C := C) (d := d) (m := m₂) h.loaded ht newKey
  · exact absurd hsaved hnot
  · exact Or.inr ⟨hwhole, _, hdone⟩

/-- **A change of the password**: it throws and nothing changes, or the old
one was right, and the store is open under the new one. -/
theorem Machine.Settled.rotateMasterPassword_cases (hC : C.Ideal) {m : Machine K}
    (h : m.Settled C username password kek row) {oldPassword : List UInt8}
    (newPassword : List UInt8) {d : Rotation K}
    (hd : oldPassword = password → d.Rekeys username m → d.Completes) :
    (∃ e, rotateMasterPassword C username oldPassword newPassword d m = (.error e, m))
      ∨ ∃ m', rotateMasterPassword C username oldPassword newPassword d m = (.ok (), m')
          ∧ m'.InUseBy C username newPassword kek row := by
  cases h with
  | signedOut salt t inOrder _ _ unloaded =>
    obtain ⟨-, e, herror⟩ | ⟨hloaded, -⟩ := Rotation.masterKeys_cases (C := C) (d := d)
      oldPassword newPassword inOrder.saltFile
    · exact Or.inl ⟨e, bind_of_error herror⟩
    · rw [unloaded] at hloaded
      exact absurd hloaded.1 Bool.false_ne_true
  | signedIn h =>
    obtain ⟨salt, t, hin, hrow⟩ := h
    by_cases hold : oldPassword = password
    · subst hold
      obtain herror | ⟨hwhole, m', hrun⟩ :=
        hin.rotateMasterPassword_cases newPassword (hd rfl)
      · exact Or.inl herror
      · obtain ⟨keys, hin'⟩ := signedIn_of_rotateMasterPassword hin hwhole hrun
        exact Or.inr ⟨m', hrun, d.salt, _, hin', hrow⟩
    · exact Or.inl (rotateMasterPassword_wrong hC hin hold newPassword d)

/-! ### In the windows -/

section Login

variable {commonPasswords : Option (List QText)} {d : LoginSubmission K} {w : LoginWindow K}

/-- A submission is tried, or nothing is done with the machine. -/
theorem onLoginButtonClicked_ends (C : AccountCrypto K) (commonPasswords : Option (List QText))
    (d : LoginSubmission K) (w : LoginWindow K) :
    ((onLoginButtonClicked C commonPasswords d w).1 ≠ .received
        ∧ (onLoginButtonClicked C commonPasswords d w).2.machine = w.machine)
      ∨ validate commonPasswords d.passphrase d.passphrase = none
        ∧ ∃ cache, onLoginButtonClicked C commonPasswords d w
          = tryLogin C d { w with cache := cache } := by
  unfold onLoginButtonClicked
  cases hvalid : validate commonPasswords d.passphrase d.passphrase with
  | some errorMessage => exact Or.inl ⟨LoginEnd.noConfusion, rfl⟩
  | none =>
    simp only
    cases w.cache.get d.readAt "login_count" with
    | mk count cache =>
      cases count with
      | none => exact Or.inr ⟨trivial, _, rfl⟩
      | some count =>
        by_cases hlimit : count + 1 > maxLoginAttempts
        · simp only [if_pos hlimit]
          exact Or.inl ⟨LoginEnd.noConfusion, trivial⟩
        · simp only [if_neg hlimit]
          exact Or.inr ⟨trivial, _, rfl⟩

/-- What a try comes to is what `login_user` does, if it gets there, -/
theorem machine_tryLogin (h : d.secured.isOk) : (tryLogin C d w).2.machine
    = (loginUser C d.username (d.passphrase.map (·.toUInt8)) d.login w.machine).2 := by
  obtain ⟨⟨⟩, h⟩ := exists_of_isOk h
  unfold tryLogin
  rw [h]
  simp only
  split
  · rename_i hrun
    rw [hrun]
  · rename_i hrun
    rw [hrun]
    split <;> rfl

theorem tryLogin_of_not_secured (h : ¬ d.secured.isOk) : (tryLogin C d w).2 = w := by
  unfold tryLogin
  cases hsecured : d.secured with
  | error e => rfl
  | ok _ =>
    rw [hsecured] at h
    exact absurd rfl h

/-- and the next window opens if everything returned. -/
theorem received_tryLogin_iff : (tryLogin C d w).1 = .received ↔ d.secured.isOk
    ∧ (loginUser C d.username (d.passphrase.map (·.toUInt8)) d.login w.machine).1.isOk
    ∧ d.shown.isOk := by
  unfold tryLogin
  cases d.secured with
  | error e => exact iff_of_false LoginEnd.noConfusion fun h => Bool.false_ne_true h.1
  | ok _ =>
    simp only
    split
    · rename_i hrun
      rw [hrun]
      exact iff_of_false LoginEnd.noConfusion fun h => Bool.false_ne_true h.2.1
    · rename_i hrun
      rw [hrun]
      cases d.shown with
      | error e => exact iff_of_false LoginEnd.noConfusion fun h => Bool.false_ne_true h.2.2
      | ok _ => exact iff_of_true rfl ⟨rfl, rfl, rfl⟩

end Login

/-- **A submission of the user** leaves the store settled, and the next window
opens only for the passphrase set last, with the store open. -/
theorem Machine.Settled.submit (hC : C.Ideal) {passphrase : QText} {w : LoginWindow K}
    (hacceptable : Acceptable passphrase)
    (h : w.machine.Settled C username (toUtf8 passphrase) kek row)
    (hdevice : row.Holds C kek device)
    (commonPasswords : Option (List QText)) {d : LoginSubmission K} (hd : d.username = username) :
    (onLoginButtonClicked C commonPasswords d w).2.machine.Settled C username
        (toUtf8 passphrase) kek row
      ∧ ((onLoginButtonClicked C commonPasswords d w).1 = .received → d.passphrase = passphrase
        ∧ (onLoginButtonClicked C commonPasswords d w).2.machine.InUseBy C username
          (toUtf8 passphrase) kek row) := by
  obtain ⟨hne, hsame⟩ | ⟨hvalid, cache, htry⟩ :=
    onLoginButtonClicked_ends C commonPasswords d w
  · rw [hsame]
    exact ⟨h, fun hreceived => absurd hreceived hne⟩
  rw [htry]
  by_cases hsecured : d.secured.isOk
  · rw [machine_tryLogin hsecured, received_tryLogin_iff, hd]
    obtain ⟨-, e, hrun⟩ | ⟨hp, m', hin, hrun⟩ :=
      h.loginUser_cases hC (d.passphrase.map (·.toUInt8)) d.login
    · rw [hrun]
      exact ⟨h, fun hreceived => absurd hreceived.2.1 Bool.false_ne_true⟩
    · rw [hrun]
      have hin' := (returns_finish hdevice d.login).keeps m' hin
      refine ⟨.signedIn hin', fun _ => ⟨?_, hin'⟩⟩
      have hprintable := (validate_eq_none_iff.mp hvalid).1.printable
      exact eq_of_map_toUInt8 hprintable hacceptable.printable
        (hp.trans (secured_of_acceptable hacceptable).2)
  · rw [tryLogin_of_not_secured hsecured, received_tryLogin_iff]
    exact ⟨h, fun hreceived => absurd hreceived.1 hsecured⟩

/-- **A change in the settings** leaves everything as it was, or sets a
passphrase that may be used, with the store open under it. -/
theorem Machine.Settled.onPassphraseSaveClicked_cases (hC : C.Ideal) {passphrase : QText}
    {m : Machine K} (h : m.Settled C username (toUtf8 passphrase) kek row)
    (commonPasswords : Option (List QText)) {currentPassphrase : QText}
    (newPassphrase confirmPassphrase : QText) (secured : Except Fault Unit) {d : Rotation K}
    (hd : toUtf8 currentPassphrase = toUtf8 passphrase → d.Rekeys username m → d.Completes) :
    (∃ result, result ≠ ChangeEnd.updated ∧ onPassphraseSaveClicked C commonPasswords username
        currentPassphrase newPassphrase confirmPassphrase secured d m = (result, m))
      ∨ Acceptable newPassphrase ∧ ∃ m', onPassphraseSaveClicked C commonPasswords username
          currentPassphrase newPassphrase confirmPassphrase secured d m = (.updated, m')
        ∧ m'.InUseBy C username (toUtf8 newPassphrase) kek row := by
  unfold onPassphraseSaveClicked
  cases hvalid : validate commonPasswords newPassphrase confirmPassphrase with
  | some errorMessage => exact Or.inl ⟨_, ChangeEnd.noConfusion, rfl⟩
  | none =>
    have hacceptable := (validate_eq_none_iff.mp hvalid).1
    cases secured with
    | error e => exact Or.inl ⟨_, ChangeEnd.noConfusion, rfl⟩
    | ok _ =>
      obtain ⟨e, hrun⟩ | ⟨m', hrun, hin⟩ :=
        h.rotateMasterPassword_cases hC (toUtf8 newPassphrase) hd
      · refine Or.inl ⟨.failed e, ChangeEnd.noConfusion, ?_⟩
        simp only [hrun]
      · refine Or.inr ⟨hacceptable, m', ?_, hin⟩
        simp only [hrun]

/-! ## Any uses -/

omit [LinearOrder K] in
/-- In a fresh process nothing is open. -/
theorem Machine.Settled.restart {m : Machine K} (h : m.Settled C username password kek row) :
    m.restart.Settled C username password kek row := by
  obtain ⟨salt, t, hin, hrow, -⟩ := h.inOrder
  exact .signedOut salt t ⟨hin.saltFile, hin.database, hin.kekRow⟩ hrow rfl rfl

omit [LinearOrder K] in
theorem settled_logout (answered : Except Fault Unit) :
    Keeps (Machine.Settled C username password kek row) (logout answered) := by
  intro m h
  cases answered with
  | error e => exact h
  | ok _ =>
    obtain ⟨salt, t, hin, hrow, -⟩ := h.inOrder
    exact .signedOut salt t ⟨hin.saltFile, hin.database, hin.kekRow⟩ hrow rfl rfl

theorem settled_execute {f : Tables K → Tables K} (hkeys : ∀ t, (f t).keys = t.keys)
    (hdevice : ∀ t, (f t).keypairs.lookup "device" = t.keypairs.lookup "device") :
    Keeps (Machine.Settled C username password kek row) (execute f) := by
  intro m h
  cases h with
  | signedIn h =>
    exact .signedIn ((returns_execute (P := True) hkeys hdevice).keeps m h)
  | signedOut salt t inOrder device connection unloaded =>
    obtain ⟨e, hrun⟩ | ⟨t', ht, -⟩ := execute_cases f m
    · rw [hrun]
      exact .signedOut salt t inOrder device connection unloaded
    · obtain ⟨_, _, hopen, -⟩ := tables_eq_ok_iff.mp ht
      cases connection.symm.trans hopen

variable (C) (username) (kek) (row) in
/-- **Between uses**: the passphrase set last may be used, and the store is in
order under it. -/
structure AccountState.Settled (s : AccountState K) : Prop where
  acceptable : Acceptable s.passphrase
  store : s.window.machine.Settled C username (toUtf8 s.passphrase) kek row

/-- **Every use keeps it so.** -/
theorem AccountUse.settled_step (hC : C.Ideal)
    (hdevice : row.Holds C kek device) {u : AccountUse K} {s : AccountState K}
    (h : s.Settled C username kek row)
    (hu : u.GoesThrough username s) : (u.step C username s).Settled C username kek row := by
  cases u with
  | restarts => exact ⟨h.acceptable, h.store.restart⟩
  | opensLogin => exact ⟨h.acceptable, h.store⟩
  | logsOut answered => exact ⟨h.acceptable, settled_logout answered _ h.store⟩
  | submits commonPasswords d =>
    exact ⟨h.acceptable, (h.store.submit hC h.acceptable hdevice commonPasswords hu).1⟩
  | changes commonPasswords currentPassphrase newPassphrase confirmPassphrase secured d =>
    obtain ⟨result, hne, hrun⟩ | ⟨hacceptable, m', hrun, hin⟩ :=
      h.store.onPassphraseSaveClicked_cases hC commonPasswords newPassphrase confirmPassphrase
        secured hu
    · cases result with
      | updated => exact absurd rfl hne
      | invalid errorMessage =>
        simp only [step, hrun]
        exact h
      | failed e =>
        simp only [step, hrun]
        exact h
    · simp only [step, hrun]
      exact ⟨hacceptable, .signedIn hin⟩
  | writes ratchets messages =>
    have hkeeps : Keeps (Machine.Settled C username (toUtf8 s.passphrase) kek row)
        (execute fun t => { t with ratchets := ratchets, messages := messages }) :=
      settled_execute (fun _ => rfl) fun _ => rfl
    exact ⟨h.acceptable, hkeeps _ h.store⟩

variable (C) (username) in
/-- A use, which never throws. -/
def AccountUse.run (u : AccountUse K) : Throwing (AccountState K) Fault Unit :=
  Throwing.modify (u.step C username)

/-! ## How an account comes to be on a machine -/

/-- **A store that is set up** from nothing is in order under its password. -/
theorem inUse_setUpClientForUser {d : SetUp K} {m m' : Machine K}
    (hmeets : (SetUpCall.setsUp password d).Meets username m)
    (h : setUpClientForUser C username password d m = (.ok (), m')) :
    m'.InUse C username password d.kek := by
  have hreaches : d.ReachesSalt := by
    by_contra hstops
    obtain ⟨e, hrun⟩ : ∃ e, (SetUpCall.setsUp password d).run C username m = (.error e, m) :=
      SetUpCall.run_of_not_reachesSalt hstops
    cases (Prod.mk.inj (hrun.symm.trans h)).1
  obtain ⟨hd, hconnection, hwhole⟩ := hmeets hreaches
  obtain ⟨m₁, hunder, hrest⟩ := SetUpCall.opened_of_run
    (c := SetUpCall.setsUp password d) hd hconnection hwhole h
  have hafter := (keepsUnder_newKek C _ d).gives _ _ _ hunder hrest
  obtain ⟨t, ht, hrow⟩ := gives_hasKek_newKek (P := fun _ => True) C _ d _ _ _ trivial hrest
  obtain ⟨user, key, hopen, hfile⟩ := tables_eq_ok_iff.mp ht
  obtain ⟨rfl, rfl⟩ := Prod.mk.inj (Option.some.inj (hafter.connection.symm.trans hopen))
  have hloaded : Gives (fun _ => True) (d.newKek C (C.pwhash password d.salt.1))
      fun _ m => m.kek = some d.kek := by
    refine Gives.of_last fun _ => Gives.of_last fun _ => Gives.of_last fun _ => ?_
    refine Gives.bind (Q := fun _ m => m.kek = some d.kek) ?_ fun _ => ?_
    · rintro m _ m' - h
      rw [← (Prod.mk.inj h).2]
    · have hsave : ∀ e, Keeps (fun m : Machine K => m.kek = some d.kek)
          (saveEncryptedKey "kek" e) := fun _ => (Keeps.reads _).bind fun _ =>
        Keeps.modify fun m h => (kek_setTables _).trans h
      exact ((Keeps.answer _).bind fun _ => hsave _).gives
  exact ⟨d.salt, t, ⟨hafter.salt, hfile, d.nonceKek, hrow⟩, hafter.connection,
    hloaded _ _ _ trivial hrest⟩

omit [LinearOrder K] in
/-- Where the KEK is loaded a key is encrypted under it, -/
theorem gives_encryptSecretKey (sk : K) (nonce : List UInt8) :
    Gives (Machine.InUse C username password kek) (encryptSecretKey C sk nonce)
      fun esk m => esk = C.encryptKey nonce sk kek ∧ m.InUse C username password kek := by
  rintro m esk m' ⟨salt, t, h⟩ hrun
  have hkey : encryptSecretKey C sk nonce m = (.ok (C.encryptKey nonce sk kek), m) :=
    bind_of_ok (getKek_of_some h.loaded)
  obtain ⟨hesk, rfl⟩ := Prod.mk.inj (hkey.symm.trans hrun)
  exact ⟨(Except.ok.inj hesk).symm, salt, t, h⟩

/-- and the device's key pair is stored. -/
theorem gives_saveDevice (row : KeypairRow K) :
    Gives (Machine.InUse C username password kek) (saveEncryptedKeypair "device" row)
      fun _ => Machine.InUseBy C username password kek row := by
  rintro m _ m' ⟨salt, t, h⟩ hrun
  obtain ⟨e, herror⟩ | ⟨t', ht, hsave⟩ :=
    execute_cases (fun t => { t with keypairs := t.keypairs.insert "device" row }) m
  · cases (Prod.mk.inj (herror.symm.trans hrun)).1
  · obtain rfl := Except.ok.inj (h.tables.symm.trans ht)
    obtain rfl := (Prod.mk.inj (hsave.symm.trans hrun)).2
    exact ⟨salt, _, h.setTables rfl, Finmap.lookup_insert _⟩

/-- A login keeps an open store open. -/
theorem keepsOpen_loginUser (hC : C.Ideal) (hdevice : row.Holds C kek device)
    (p : List UInt8) (d : LoginDraws K) :
    Keeps (Machine.InUseBy C username password kek row) (loginUser C username p d) := by
  intro m h
  obtain ⟨-, e, hrun⟩ | ⟨-, m', hin, hrun⟩ :=
    (Machine.Settled.signedIn h).loginUser_cases hC p d
  · rw [hrun]
    exact h
  · rw [hrun]
    exact (returns_finish hdevice d).keeps m' hin

variable (C) in
/-- **How an account comes to be on a machine** that has no database of its
user, with none open: it is registered there, or the device is accepted, and
the salt is written as a whole. -/
inductive AccountState.SetsUp : String → K × K → AccountState K → Prop where
  | registered (commonPasswords : Option (List QText)) (f : RegisterForm) (d : RegisterDraws K)
      (m₀ m : Machine K)
      (meets : (SetUpCall.registers (secured f.passphrase) d.user).Meets f.account m₀)
      (run : onRegisterButtonClicked C commonPasswords f d m₀ = (.registered, m)) :
      SetsUp f.account d.device ⟨f.passphrase, .opened m⟩
  | linked (commonPasswords : Option (List QText)) (username : String) (device : K × K)
      (dialogs : List (List (QText × QText))) (passphrase : QText) (d : LinkDraws K)
      (m₀ m : Machine K) (asked : askPassphrase commonPasswords dialogs = some passphrase)
      (meets : (SetUpCall.setsUp (secured passphrase) d.setUp).Meets username m₀)
      (run : onUserRegistered C commonPasswords username device dialogs d m₀ = (.linked, m)) :
      SetsUp username device ⟨passphrase, .opened m⟩

/-- What passed the checks of the form may be used, -/
theorem RegisterForm.acceptable {commonPasswords : Option (List QText)} {f : RegisterForm}
    (h : f.errorMessage commonPasswords = none) : Acceptable f.passphrase := by
  unfold errorMessage at h
  split at h
  · cases h
  · split at h
    · cases h
    · exact (validate_eq_none_iff.mp h).1

/-- and so may what a dialog returned. -/
theorem acceptable_of_asked {commonPasswords : Option (List QText)}
    {dialogs : List (List (QText × QText))} {passphrase : QText}
    (h : askPassphrase commonPasswords dialogs = some passphrase) : Acceptable passphrase := by
  induction dialogs with
  | nil => cases h
  | cons clicks dialogs ih =>
    unfold askPassphrase at h
    cases hdialog : getPassphraseWithVerification commonPasswords clicks with
    | none =>
      rw [hdialog] at h
      cases h
    | some p =>
      rw [hdialog] at h
      simp only at h
      split at h
      · obtain rfl := Option.some.inj h
        obtain ⟨texts, hfound, rfl⟩ := Option.map_eq_some_iff.mp hdialog
        have hvalid := List.find?_some hfound
        exact (validate_eq_none_iff.mp (Option.isNone_iff_eq_none.mp hvalid)).1
      · exact ih h

variable (C) (kek) in
/-- The row of a device's key pair. -/
def deviceRow (device : K × K) (nonce : List UInt8) (timestamp : ℤ) : KeypairRow K :=
  ⟨device.1, C.encryptKey nonce device.2 kek, timestamp⟩

omit [LinearOrder K] in
theorem holds_deviceRow (hC : C.aead.Ideal) (device : K × K) (nonce : List UInt8)
    (timestamp : ℤ) : (deviceRow C kek device nonce timestamp).Holds C kek device :=
  ⟨rfl, decryptKey_encryptKey hC _ _ _ _⟩

/-- **Whatever follows** the storing of the device's key pair and keeps the
store open ends with it open. -/
theorem gives_inUseBy (nonce : List UInt8) (timestamp : ℤ) {next : AccountM K Unit}
    (hnext : Keeps (Machine.InUseBy C username password kek
      (deviceRow C kek device nonce timestamp)) next) :
    Gives (Machine.InUse C username password kek) (do
        let esk ← encryptSecretKey C device.2 nonce
        saveEncryptedKeypair "device" ⟨device.1, esk, timestamp⟩
        next)
      fun _ => Machine.InUseBy C username password kek
        (deviceRow C kek device nonce timestamp) := by
  refine (gives_encryptSecretKey device.2 nonce).bind fun esk => ?_
  rintro m _ m' ⟨rfl, hin⟩ hrun
  exact ((gives_saveDevice (deviceRow C kek device nonce timestamp)).bind fun _ => hnext.gives)
    _ _ _ hin hrun

/-- **A registration** ends with the store open and the device's key pair in
it, -/
theorem inUseBy_registerAccount (hC : C.Ideal) {passphrase : QText} {d : RegisterDraws K}
    {m₀ m : Machine K}
    (hmeets : (SetUpCall.registers (secured passphrase) d.user).Meets username m₀)
    (h : registerAccount C username passphrase d m₀ = (.ok (), m)) :
    m.InUseBy C username (secured passphrase) d.user.kek
      (deviceRow C d.user.kek d.device d.nonceDevice d.timestamp) := by
  obtain ⟨_, m₁, hregistered, hrest⟩ := exists_of_bind_ok h
  have hin := inUse_registerUser hmeets hregistered
  have hfirst : Gives (Machine.InUse C username (secured passphrase) d.user.kek)
      (registerFirstDevice C d.device d.nonceDevice d.timestamp d.sodiumInit d.posted)
      fun _ => Machine.InUseBy C username (secured passphrase) d.user.kek
        (deviceRow C d.user.kek d.device d.nonceDevice d.timestamp) :=
    gives_inUseBy _ _ <| (Keeps.answer _).bind fun _ => (keeps_getDecryptedKeypair _).bind fun _ =>
      Keeps.answer _
  have hlogin : Keeps (Machine.InUseBy C username (secured passphrase) d.user.kek
      (deviceRow C d.user.kek d.device d.nonceDevice d.timestamp)) (do
        Throwing.answer d.securedAgain
        loginUser C username (secured passphrase) d.login) :=
    (Keeps.answer _).bind fun _ => keepsOpen_loginUser hC (holds_deviceRow hC.aead _ _ _) _ _
  exact (hfirst.bind fun _ => hlogin.gives) _ _ _ hin hrest

/-- and so does the setting up of a device that was accepted. -/
theorem inUseBy_linkAccount (hC : C.Ideal) {passphrase : QText} {d : LinkDraws K}
    {m₀ m : Machine K} (hmeets : (SetUpCall.setsUp (secured passphrase) d.setUp).Meets username m₀)
    (h : linkAccount C username device passphrase d m₀ = (.ok (), m)) :
    m.InUseBy C username (secured passphrase) d.setUp.kek
      (deviceRow C d.setUp.kek device d.nonceDevice d.timestamp) := by
  obtain ⟨_, m₁, hsecured, hrest⟩ := exists_of_bind_ok h
  obtain ⟨-, rfl⟩ := Prod.mk.inj hsecured
  obtain ⟨_, m₂, hset, hrest⟩ := exists_of_bind_ok hrest
  have hin := inUse_setUpClientForUser hmeets hset
  have hlogin : Keeps (Machine.InUseBy C username (secured passphrase) d.setUp.kek
      (deviceRow C d.setUp.kek device d.nonceDevice d.timestamp)) (do
        Throwing.answer d.securedAgain
        loginUser C username (secured passphrase) d.login
        Throwing.answer d.shown) :=
    (Keeps.answer _).bind fun _ =>
      (keepsOpen_loginUser hC (holds_deviceRow hC.aead _ _ _) _ _).bind fun _ => Keeps.answer _
  exact gives_inUseBy _ _ hlogin _ _ _ hin hrest

/-- **It begins settled**, with the device's key pair. -/
theorem AccountState.SetsUp.settled (hC : C.Ideal) {s : AccountState K}
    (h : AccountState.SetsUp C username device s) :
    ∃ kek row, row.Holds C kek device ∧ s.Settled C username kek row := by
  cases h with
  | registered commonPasswords f d m₀ m meets run =>
    unfold onRegisterButtonClicked at run
    cases herror : f.errorMessage commonPasswords with
    | some errorMessage =>
      rw [herror] at run
      cases (Prod.mk.inj run).1
    | none =>
      have hacceptable := RegisterForm.acceptable herror
      rw [herror] at run
      simp only at run
      split at run
      · cases (Prod.mk.inj run).1
      · split at run
        · cases (Prod.mk.inj run).1
        · rename_i hrun
          obtain ⟨-, rfl⟩ := Prod.mk.inj run
          have hin := inUseBy_registerAccount hC meets hrun
          rw [(secured_of_acceptable hacceptable).1] at hin
          exact ⟨_, _, holds_deviceRow hC.aead _ _ _, hacceptable, .signedIn hin⟩
  | linked commonPasswords username device dialogs passphrase d m₀ m asked meets run =>
    have hacceptable := acceptable_of_asked asked
    unfold onUserRegistered at run
    rw [asked] at run
    simp only at run
    split at run
    · cases (Prod.mk.inj run).1
    · rename_i hrun
      obtain ⟨-, rfl⟩ := Prod.mk.inj run
      have hin := inUseBy_linkAccount hC meets hrun
      rw [(secured_of_acceptable hacceptable).1] at hin
      exact ⟨_, _, holds_deviceRow hC.aead _ _ _, hacceptable, .signedIn hin⟩

/-! ## The passphrase set last -/

/-- A submission is answered by the machine and the server. -/
structure LoginSubmission.Answered (d : LoginSubmission K) : Prop where
  secured : d.secured.isOk
  derived : d.login.derived.isOk
  opened : d.login.opened.isOk
  login : d.login.Answered
  shown : d.shown.isOk

variable (C) (username) (device) in
/-- **The passphrase set last is what counts**: no other is received, and
behind it is the device's key pair; and in a login window that has just
opened it is received, if it is not known to be too common now. -/
structure AccountState.Decides (s : AccountState K) : Prop where
  only : ∀ commonPasswords (d : LoginSubmission K) (w : LoginWindow K), d.username = username →
    onLoginButtonClicked C commonPasswords d s.window = (.received, w) →
      d.passphrase = s.passphrase ∧ (getDecryptedKeypair C "device" w.machine).1 = .ok device
  received_iff : ∀ commonPasswords (d : LoginSubmission K), d.username = username → d.Answered →
    ((onLoginButtonClicked C commonPasswords d (.opened s.window.machine)).1 = .received
      ↔ d.passphrase = s.passphrase ∧ commonPasswords.any (d.passphrase ∈ ·) = false)

/-- In a window that has just opened a valid passphrase is tried. -/
theorem onLoginButtonClicked_opened {commonPasswords : Option (List QText)}
    {d : LoginSubmission K} (hvalid : validate commonPasswords d.passphrase d.passphrase = none)
    (m : Machine K) : ∃ cache,
      onLoginButtonClicked C commonPasswords d (.opened m) = tryLogin C d ⟨cache, m⟩ := by
  unfold onLoginButtonClicked
  rw [hvalid]
  exact ⟨_, rfl⟩

/-- **Where the store is settled** it counts. -/
theorem AccountState.Settled.decides (hC : C.Ideal) (hdevice : row.Holds C kek device)
    {s : AccountState K} (h : s.Settled C username kek row) : s.Decides C username device where
  only commonPasswords d w hd hreceived := by
    have hlogin := (h.store.submit hC h.acceptable hdevice commonPasswords hd).2
    rw [hreceived] at hlogin
    obtain ⟨hsame, hin⟩ := hlogin rfl
    exact ⟨hsame, congrArg Prod.fst (hin.getDecryptedKeypair_eq hdevice)⟩
  received_iff commonPasswords d hd hanswered := by
    have hopened : (LoginWindow.opened s.window.machine).machine.Settled C username
        (toUtf8 s.passphrase) kek row := h.store
    constructor
    · intro hreceived
      have hsame := (hopened.submit hC h.acceptable hdevice commonPasswords hd).2 hreceived
      obtain ⟨hne, -⟩ | ⟨hvalid, -⟩ := onLoginButtonClicked_ends C commonPasswords d
        (.opened s.window.machine)
      · exact absurd hreceived hne
      · exact ⟨hsame.1, (validate_eq_none_iff.mp hvalid).2.2⟩
    · rintro ⟨hsame, hcommon⟩
      have hacceptable : Acceptable d.passphrase := hsame ▸ h.acceptable
      obtain ⟨cache, htry⟩ := onLoginButtonClicked_opened (C := C)
        (validate_eq_none_iff.mpr ⟨hacceptable, rfl, hcommon⟩) s.window.machine
      rw [htry, received_tryLogin_iff]
      refine ⟨hanswered.secured, ?_, hanswered.shown⟩
      have hp : d.passphrase.map (·.toUInt8) = toUtf8 s.passphrase := by
        rw [← (secured_of_acceptable hacceptable).2, hsame]
      rw [hd]
      obtain ⟨hnot, -⟩ | ⟨-, m', hin, hrun⟩ :=
        h.store.loginUser_cases hC (d.passphrase.map (·.toUInt8)) d.login
      · exact absurd ⟨hp, hanswered.derived, hanswered.opened⟩ hnot
      · show (loginUser C username _ d.login s.window.machine).1.isOk
        rw [hrun]
        exact (returns_finish hdevice d.login m' hin).2 hanswered.login

/-- **It is the passphrase set last that gets in**, and no other. After a
user was registered, or a device accepted, let anything be done with the
account, in however many processes: submissions of any texts, changes with
right and wrong current passphrases, of which one that encrypts the database
again runs to its end and gets the whole salt into its file. Then only the
passphrase set last is received, and in a login window that has just opened it
is, unless it is known to be too common by then; and what is read then is the
key pair the device was set up with. -/
theorem received_iff_set_last (hC : C.Ideal) (username : String) (device : K × K)
    (s₀ s : AccountState K) (h₀ : AccountState.SetsUp C username device s₀)
    (uses : List (AccountUse K))
    (huses : Along (AccountUse.run C username) (AccountUse.GoesThrough username) uses s₀)
    (hs : after (AccountUse.run C username) uses s₀ = s) : s.Decides C username device := by
  obtain ⟨kek, row, hdevice, hbegin⟩ := h₀.settled hC
  have hstep : ∀ (u : AccountUse K) (s : AccountState K), s.Settled C username kek row →
      u.GoesThrough username s → True ∧ (u.run C username s).2.Settled C username kek row :=
    fun u s h hu => ⟨trivial, u.settled_step hC hdevice h hu⟩
  have hend := (Along.after_of hstep hbegin huses).2
  rw [hs] at hend
  exact hend.decides hC hdevice

end Device

/-! ## Alice's account -/

namespace AccountWindows

open LoginSubmission

/-- Alice registers with the letters from b on, -/
def aliceForm : RegisterForm := ⟨"Alice", " alice ", letters 98, letters 98⟩

/-- and all is answered. -/
def aliceDraws : RegisterDraws ℕ where
  secured := .ok ()
  user := .ideal (.ideal 1) 5
  device := (10, 11)
  nonceDevice := [3]
  timestamp := 0
  sodiumInit := .ok ()
  posted := .ok ()
  securedAgain := .ok ()
  login := .ideal

/-- What she begins with. -/
def registered : AccountState ℕ :=
  ⟨letters 98, .opened (onRegisterButtonClicked .ideal none aliceForm aliceDraws .blank).2⟩

/-- She changes to the letters from c on, at the second attempt, and the
process ends. -/
def aliceUses : List (AccountUse ℕ) :=
  [.changes none (letters 97) (letters 99) (letters 99) (.ok ()) (.ideal (.ideal 2)),
    .changes none (letters 98) (letters 99) (letters 99) (.ok ()) (.ideal (.ideal 2)),
    .submits none (ideal (.ok ()) 0), .logsOut (.ok ()), .restarts]

/-- **Hers are the letters from c on.** -/
theorem received_iff_set_last_alice :
    let s := after (AccountUse.run .ideal "alice") aliceUses registered
    s.passphrase = letters 99 ∧ s.Decides .ideal "alice" (10, 11) := by
  intro s
  have hregistered : onRegisterButtonClicked .ideal none aliceForm aliceDraws .blank
      = (.registered, registered.window.machine) := Prod.ext (by decide +kernel) rfl
  have hcompletes : (Rotation.ideal (.ideal 2)).Completes :=
    ⟨⟨rfl, rfl⟩, le_rfl, rfl, rfl, rfl⟩
  refine ⟨by decide +kernel, ?_⟩
  refine received_iff_set_last AccountCrypto.ideal_ideal "alice" (10, 11) registered s
    (.registered none aliceForm aliceDraws .blank _ (fun _ => ⟨rfl, rfl, le_rfl⟩) hregistered)
    aliceUses ?_ rfl
  exact ⟨fun _ _ => hcompletes, fun _ _ => hcompletes, rfl, trivial, trivial, trivial⟩

end AccountWindows
