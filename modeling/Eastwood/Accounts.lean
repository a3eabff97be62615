import Eastwood.FileAccess
import Eastwood.LocalFiles
import Eastwood.SignedPrekeys
import Eastwood.StoredSessions
import Eastwood.Throwing

/-!
# Accounts on one machine

A user has two files: one with a salt, and a database under the master key
derived from the password and the salt. In the database is the KEK, encrypted
under the master key, and under the KEK is everything else. Files are found by
their path: two usernames that lead to one place have the same two files.

A process has one database connection, one KEK and one map of sessions,
whoever's they are. `initialize` does nothing while a connection is open,
whomever it was opened for, and every query goes to that connection.

The calls are sequences of steps any of which may throw: what the outside
answers each of them is an argument, and what was done before a throw stays.
-/

variable {K : Type}

/-! ## Files -/

/-- A key encrypted at rest. -/
structure EncryptedKey where
  ciphertext : List UInt8
  nonce : List UInt8
  deriving DecidableEq

/-- A row of `keypairs`. -/
structure KeypairRow (K : Type) where
  publicKey : K
  encryptedPrivateKey : EncryptedKey
  lastModified : ℤ
  deriving DecidableEq

/-- **The tables of a database**: `keys` and `keypairs` by label, the rows of
`onetime_prekeys`, and those of `ratchets` and `messages`, encryption at rest
undone. -/
structure Tables (K : Type) where
  keys : Finmap fun _ : String => EncryptedKey
  keypairs : Finmap fun _ : String => KeypairRow K
  onetimePrekeys : List (K × EncryptedKey)
  ratchets : Finmap fun _ : K => String × NewRatchet K
  messages : Finmap fun _ : String => StoredMessage K

/-- The tables `init_schema` makes. -/
def Tables.empty : Tables K := ⟨∅, ∅, [], ∅, ∅⟩

/-- A database file that has been written to: the key it is under, and its
tables if they were made. -/
structure DatabaseFile (K : Type) where
  key : K
  tables : Option (Tables K)

/-- **The files at a place.** A database that was never written to is there
for any key. -/
structure UserFiles (K : Type) where
  salt : Option (List UInt8)
  database : Option (DatabaseFile K)

/-- `crypto_pwhash_SALTBYTES` bytes. -/
abbrev Salt := { bytes : List UInt8 // bytes.length = 16 }

/-- **A machine and the process that runs**: the data directory and the files
at every place; the connection of `Database`, of a user and under a key, the
KEK of `KekManager`, and the map of `RatchetSessionManager`. -/
structure Machine (K : Type) where
  dataPath : Place
  disk : Place → UserFiles K
  connection : Option (String × K)
  kek : Option K
  ratchets : Finmap fun _ : String => Finmap fun _ : K => NewRatchet K

/-- The ciphers of the accounts: the one for keys at rest, keys as data, and
`crypto_pwhash` of a password and a salt. -/
structure AccountCrypto (K : Type) where
  aead : Aead K
  keyBytes : KeyBytes K
  pwhash : List UInt8 → List UInt8 → K

/-- The cipher opens what it encrypted, under no other key, and no two
passwords and salts have one master key. -/
structure AccountCrypto.Ideal (C : AccountCrypto K) : Prop where
  aead : C.aead.Ideal
  pwhash : ∀ p s p' s', C.pwhash p s = C.pwhash p' s' → p = p' ∧ s = s'

/-- Where a user's files are. -/
def Machine.place (m : Machine K) (username : String) : Place := placeOf m.dataPath username

/-- **A user's files**: those where the username leads. -/
def Machine.files (m : Machine K) (username : String) : UserFiles K := m.disk (m.place username)

/-- A fresh process. -/
def Machine.restart (m : Machine K) : Machine K :=
  { m with
    connection := none
    kek := none
    ratchets := ∅ }

/-- A user's files as they now are. -/
def Machine.setFiles (username : String) (f : UserFiles K) (m : Machine K) : Machine K :=
  { m with disk := Function.update m.disk (m.place username) f }

/-- The user's salt file as it now is. -/
def Machine.setSalt (username : String) (bytes : List UInt8) (m : Machine K) : Machine K :=
  m.setFiles username { m.files username with salt := some bytes }

/-- The user's database as it now is. -/
def Machine.setDatabase (username : String) (d : DatabaseFile K) (m : Machine K) : Machine K :=
  m.setFiles username { m.files username with database := some d }

section Files

variable {username user : String} {m : Machine K}

@[simp] theorem files_setFiles (f : UserFiles K) :
    (m.setFiles username f).files username = f := Function.update_self ..

theorem files_setFiles_of_ne (h : m.place user ≠ m.place username) (f : UserFiles K) :
    (m.setFiles username f).files user = m.files user := Function.update_of_ne h ..

theorem setFiles_setFiles (f f' : UserFiles K) :
    (m.setFiles username f).setFiles username f' = m.setFiles username f' :=
  congrArg (fun disk => { m with disk := disk }) (Function.update_idem ..)

theorem setFiles_self : m.setFiles username (m.files username) = m :=
  congrArg (fun disk => { m with disk := disk }) (Function.update_eq_self ..)

/-- Names that lead to one place have the same files. -/
theorem files_eq_of_place (h : m.place user = m.place username) :
    m.files user = m.files username := congrArg m.disk h

@[simp] theorem salt_setSalt (bytes : List UInt8) :
    ((m.setSalt username bytes).files username).salt = some bytes := by
  rw [Machine.setSalt, files_setFiles]

@[simp] theorem database_setSalt (bytes : List UInt8) :
    ((m.setSalt username bytes).files username).database = (m.files username).database := by
  rw [Machine.setSalt, files_setFiles]

theorem files_setSalt_of_ne (h : m.place user ≠ m.place username) (bytes : List UInt8) :
    (m.setSalt username bytes).files user = m.files user := files_setFiles_of_ne h _

@[simp] theorem salt_setDatabase (d : DatabaseFile K) :
    ((m.setDatabase username d).files username).salt = (m.files username).salt := by
  rw [Machine.setDatabase, files_setFiles]

@[simp] theorem database_setDatabase (d : DatabaseFile K) :
    ((m.setDatabase username d).files username).database = some d := by
  rw [Machine.setDatabase, files_setFiles]

theorem setDatabase_setDatabase (d d' : DatabaseFile K) :
    (m.setDatabase username d).setDatabase username d' = m.setDatabase username d' := by
  have hfiles : (m.setDatabase username d).files username
      = { m.files username with database := some d } := files_setFiles _
  rw [Machine.setDatabase, hfiles, Machine.setDatabase, setFiles_setFiles]
  rfl

theorem files_setDatabase_of_ne (h : m.place user ≠ m.place username) (d : DatabaseFile K) :
    (m.setDatabase username d).files user = m.files user := files_setFiles_of_ne h _

end Files

/-- A call on a machine. -/
abbrev AccountM (K : Type) := Throwing (Machine K) Fault

/-! ## The salt file -/

/-- What `get_salt_from_file` leaves in its buffer, which held something else
before: the file may be too short. -/
def readSalt (buffer : Salt) (bytes : List UInt8) : List UInt8 :=
  (bytes ++ buffer.1.drop bytes.length).take 16

/-- `get_salt_from_file`. -/
def getSaltFromFile (username : String) (buffer : Salt) : AccountM K (List UInt8) :=
  Throwing.reads fun m =>
    match (m.files username).salt with
    | some bytes => .ok (readSalt buffer bytes)
    | none => .error (.runtimeError "Failed to open file for reading:")

/-- A salt on disk is read, -/
theorem getSaltFromFile_of_some {username : String} {m : Machine K} {bytes : List UInt8}
    (h : (m.files username).salt = some bytes) (buffer : Salt) :
    getSaltFromFile username buffer m = (.ok (readSalt buffer bytes), m) := by
  show (match (m.files username).salt with | some b => _ | none => _, m) = _
  rw [h]

/-- and one that is missed throws. -/
theorem getSaltFromFile_of_none {username : String} {m : Machine K}
    (h : (m.files username).salt = none) (buffer : Salt) : getSaltFromFile username buffer m
      = (.error (.runtimeError "Failed to open file for reading:"), m) := by
  show (match (m.files username).salt with | some b => _ | none => _, m) = _
  rw [h]

/-- The file's new content. -/
def writeSalt (username : String) (bytes : List UInt8) : AccountM K Unit :=
  Throwing.modify (·.setSalt username bytes)

/-- How `save_salt_to_file` goes: whether the file opens, how many bytes get
into it, which is not checked, and how the call ends. -/
structure SaltSaving where
  opened : Except Fault Unit
  written : ℕ
  closed : Except Fault Unit

/-- The bytes of the salt that get into the file. -/
def SaltSaving.bytes (salt : Salt) (d : SaltSaving) : List UInt8 := salt.1.take d.written

/-- **`save_salt_to_file`**: opening the file truncates it. -/
def saveSaltToFile (username : String) (salt : Salt) (d : SaltSaving) : AccountM K Unit := do
  Throwing.answer d.opened
  writeSalt username (d.bytes salt)
  Throwing.answer d.closed

section Salt

variable {salt : Salt} {d : SaltSaving}

theorem SaltSaving.bytes_of_whole (h : 16 ≤ d.written) : d.bytes salt = salt.1 :=
  List.take_of_length_le (salt.2.le.trans h)

theorem SaltSaving.length_bytes_lt (h : ¬ 16 ≤ d.written) : (d.bytes salt).length < 16 := by
  unfold bytes
  rw [List.length_take]
  exact (min_le_left _ _).trans_lt (Nat.lt_of_not_le h)

/-- The buffer does not matter to a whole salt. -/
theorem readSalt_of_le {bytes : List UInt8} (h : 16 ≤ bytes.length) (buffer : Salt) :
    readSalt buffer bytes = bytes.take 16 := List.take_append_of_le_length h

@[simp] theorem readSalt_val (buffer : Salt) : readSalt buffer salt.1 = salt.1 := by
  rw [readSalt_of_le salt.2.ge, List.take_of_length_le salt.2.le]

/-- A file that opens is written, whatever comes then. -/
theorem saveSaltToFile_of_opened {username : String} (m : Machine K) (h : d.opened = .ok ()) :
    saveSaltToFile username salt d m = (d.closed, m.setSalt username (d.bytes salt)) := by
  unfold saveSaltToFile
  rw [h]
  rfl

end Salt

/-! ## The database -/

section Database

variable [LinearOrder K]

/-- **`Database::initialize`**: with a connection open it returns at once. -/
def initializeDatabase (username : String) (masterKey : K) (opened : Except Fault Unit) :
    AccountM K Unit := fun m =>
  match m.connection, opened, (m.files username).database with
  | some _, _, _ => (.ok (), m)
  | none, .error e, _ => (.error e, m)
  | none, .ok (), some d =>
    if d.key = masterKey then (.ok (), { m with connection := some (username, masterKey) })
    else (.error (.runtimeError "Database verification failed: Incorrect password"), m)
  | none, .ok (), none => (.ok (), { m with connection := some (username, masterKey) })

/-- `Database::closeDatabase`. -/
def closeDatabase : AccountM K Unit := Throwing.modify fun m => { m with connection := none }

/-- The tables a query finds. -/
def Machine.tables (m : Machine K) : Except Fault (Tables K) :=
  match m.connection with
  | none => .error (.runtimeError "Failed to prepare statement:")
  | some (user, key) =>
    match (m.files user).database with
    | none => .error (.runtimeError "Failed to prepare statement:")
    | some d =>
      if d.key = key then
        orThrow "Failed to prepare statement:" d.tables
      else .error (.runtimeError "Failed to prepare statement:")

/-- A query. -/
def query {α : Type} (f : Tables K → Except Fault α) : AccountM K α :=
  Throwing.reads fun m => m.tables.bind f

/-- The connection's tables as they now are. -/
def Machine.setTables (t : Tables K) (m : Machine K) : Machine K :=
  match m.connection with
  | none => m
  | some (user, key) => m.setDatabase user ⟨key, some t⟩

omit [LinearOrder K] in
/-- No statement writes to a salt file. -/
theorem salt_setTables {username : String} {m : Machine K} (t : Tables K) :
    ((m.setTables t).files username).salt = (m.files username).salt := by
  unfold Machine.setTables
  cases m.connection with
  | none => rfl
  | some c =>
    by_cases hu : m.place username = m.place c.1
    · rw [files_eq_of_place hu]
      exact (congrArg UserFiles.salt (files_eq_of_place (m := m.setDatabase c.1 _) hu)).trans
        (salt_setDatabase _)
    · exact congrArg UserFiles.salt (files_setDatabase_of_ne hu _)

omit [LinearOrder K] in
/-- Nor does one change the KEK of the process. -/
theorem kek_setTables {m : Machine K} (t : Tables K) : (m.setTables t).kek = m.kek := by
  unfold Machine.setTables
  cases m.connection <;> rfl

/-- A statement that writes. -/
def execute (f : Tables K → Tables K) : AccountM K Unit := do
  let t ← query .ok
  Throwing.modify (·.setTables (f t))

/-- `init_schema`: tables that are there are left alone. -/
def initSchema (created : Except Fault Unit) : AccountM K Unit := fun m =>
  match m.connection, created with
  | none, _ => (.error (.runtimeError "Schema creation failed"), m)
  | some _, .error e => (.error e, m)
  | some (user, key), .ok () =>
    match (m.files user).database with
    | none => (.ok (), m.setTables .empty)
    | some d =>
      if d.key = key then (.ok (), m.setTables (d.tables.getD .empty))
      else (.error (.runtimeError "Schema creation failed"), m)

/-- `drop_all_tables`, which throws nothing. -/
def dropAllTables : AccountM K Unit := Throwing.modify fun m =>
  match m.connection with
  | none => m
  | some (user, key) =>
    match (m.files user).database with
    | none => m
    | some d =>
      if d.key = key then m.setDatabase user ⟨key, none⟩ else m

/-! ## Keys at rest -/

/-- `get_encrypted_key`. -/
def getEncryptedKey (label : String) : AccountM K EncryptedKey :=
  query fun t => orThrow ("No keys found for label " ++ label) (t.keys.lookup label)

/-- `save_encrypted_key`. -/
def saveEncryptedKey (label : String) (key : EncryptedKey) : AccountM K Unit :=
  execute fun t => { t with keys := t.keys.insert label key }

/-- `get_encrypted_keypair`. -/
def getEncryptedKeypair (label : String) : AccountM K (KeypairRow K) :=
  query fun t => orThrow ("No keys found for label " ++ label) (t.keypairs.lookup label)

/-- `save_encrypted_keypair`. -/
def saveEncryptedKeypair (label : String) (row : KeypairRow K) : AccountM K Unit :=
  execute fun t => { t with keypairs := t.keypairs.insert label row }

variable (C : AccountCrypto K)

omit [LinearOrder K] in
/-- `derive_master_key`. -/
def deriveMasterKey (password salt : List UInt8) (derived : Except Fault Unit) : AccountM K K :=
  Throwing.answer (derived.map fun _ => C.pwhash password salt)

/-- A key encrypted under another, with a nonce drawn for it. -/
def AccountCrypto.encryptKey (nonce : List UInt8) (key under : K) : EncryptedKey :=
  ⟨C.aead.encrypt nonce (C.keyBytes.bytes key) under, nonce⟩

/-- A key decrypted under another. -/
def AccountCrypto.decryptKey (what : String) (e : EncryptedKey) (under : K) : Except Fault K :=
  (orThrow what (C.aead.decrypt e.nonce e.ciphertext under)).map C.keyBytes.keyAt

/-- `encrypt_kek`. -/
def encryptKek (kek : K) (nonce : List UInt8) (masterKey : K) : EncryptedKey :=
  C.encryptKey nonce kek masterKey

/-- `decrypt_kek`. -/
def decryptKek (e : EncryptedKey) (masterKey : K) : Except Fault K :=
  C.decryptKey "Failed to decrypt kek" e masterKey

/-- `KekManager::setKEK`. -/
def setKek (kek : K) : AccountM K Unit := Throwing.modify fun m => { m with kek := some kek }

/-- `KekManager::getKEK`. -/
def getKek : AccountM K K := Throwing.reads fun m => orThrow "KEK not loaded" m.kek

omit [LinearOrder K] in
/-- A KEK that is loaded is there. -/
theorem getKek_of_some {m : Machine K} {kek : K} (h : m.kek = some kek) :
    getKek m = (.ok kek, m) := by
  show (orThrow _ m.kek, m) = _
  rw [h]
  rfl

/-- `encrypt_secret_key`. -/
def encryptSecretKey (sk : K) (nonce : List UInt8) : AccountM K EncryptedKey := do
  let kek ← getKek
  return C.encryptKey nonce sk kek

/-- `get_decrypted_keypair`. -/
def getDecryptedKeypair (label : String) : AccountM K (K × K) := do
  let row ← getEncryptedKeypair label
  let kek ← getKek
  let sk ← Throwing.answer
    (C.decryptKey "Failed to decrypt secret key" row.encryptedPrivateKey kek)
  return (row.publicKey, sk)

/-! ## Setting up and registering -/

/-- What `set_up_client_for_user` draws, and what its steps are answered. -/
structure SetUp (K : Type) where
  sodiumInit : Except Fault Unit
  salt : Salt
  derived : Except Fault Unit
  saltSaved : SaltSaving
  opened : Except Fault Unit
  refreshTables : Bool
  created : Except Fault Unit
  kek : K
  nonceKek : List UInt8
  encrypted : Except Fault Unit
  saved : Except Fault Unit

/-- The beginning of it, up to `initialize`: the master key, whose salt is on
disk. -/
def SetUp.newMasterKey (username : String) (password : List UInt8) (d : SetUp K) :
    AccountM K K := do
  Throwing.answer d.sodiumInit
  let masterKey ← deriveMasterKey C password d.salt.1 d.derived
  saveSaltToFile username d.salt d.saltSaved
  return masterKey

/-- And the rest. -/
def SetUp.newKek (masterKey : K) (d : SetUp K) : AccountM K Unit := do
  (if d.refreshTables then dropAllTables else pure ())
  initSchema d.created
  Throwing.answer d.encrypted
  setKek d.kek
  Throwing.answer d.saved
  saveEncryptedKey "kek" (encryptKek C d.kek d.nonceKek masterKey)

/-- **`set_up_client_for_user`.** -/
def setUpClientForUser (username : String) (password : List UInt8) (d : SetUp K) :
    AccountM K Unit := do
  let masterKey ← d.newMasterKey C username password
  initializeDatabase username masterKey d.opened
  d.newKek C masterKey

/-- What `register_user` draws and is answered beyond that. -/
structure Registration (K : Type) extends SetUp K where
  identity : K × K
  nonceSk : List UInt8
  timestamp : ℤ
  keypairSaved : Except Fault Unit
  registered : Except Fault Unit

/-- The identity key pair, stored and posted. -/
def Registration.newIdentity (d : Registration K) : AccountM K Unit := do
  let encryptedSk ← encryptSecretKey C d.identity.2 d.nonceSk
  Throwing.answer d.keypairSaved
  saveEncryptedKeypair "identity" ⟨d.identity.1, encryptedSk, d.timestamp⟩
  Throwing.answer d.registered

/-- **`register_user`.** -/
def registerUser (username : String) (password : List UInt8) (d : Registration K) :
    AccountM K Unit := do
  setUpClientForUser C username password d.toSetUp
  d.newIdentity C

/-! ## Logging in and out -/

/-- The session store of the process over the rows of some tables. -/
def Machine.store (m : Machine K) (t : Tables K) : SessionStore K :=
  ⟨m.ratchets, t.ratchets, t.messages⟩

/-- `RatchetSessionManager::load_ratchets_from_db`. -/
def loadRatchetsFromDb : AccountM K Unit := do
  let t ← query .ok
  Throwing.modify fun m => { m with ratchets := (m.store t).loadRatchetsFromDb.ratchets }

/-- What a login that posts new keys draws, and how the post ends. -/
structure PrekeyDraws (K : Type) where
  now : ℤ
  timestamp : ℤ
  signed : K × K
  nonceSigned : List UInt8
  onetime : List ((K × K) × List UInt8)
  posted : Except Fault Unit

/-- `get_signed_prekey_last_updated`. -/
def getSignedPrekeyLastUpdated : AccountM K (Option ℤ) :=
  query fun t => .ok ((t.keypairs.lookup "signed").map (·.lastModified))

/-- `generate_signed_prekey`. -/
def generateSignedPrekey (d : PrekeyDraws K) : AccountM K Unit := do
  let encryptedSk ← encryptSecretKey C d.signed.2 d.nonceSigned
  saveEncryptedKeypair "signed" ⟨d.signed.1, encryptedSk, d.timestamp⟩
  let _ ← getDecryptedKeypair C "device"

/-- The loop of `generate_onetime_keys`. -/
def encryptOnetimeKeys : List ((K × K) × List UInt8) → AccountM K (List (K × EncryptedKey))
  | [] => return []
  | ((pk, sk), nonce) :: onetime => do
    let encryptedSk ← encryptSecretKey C sk nonce
    let keys ← encryptOnetimeKeys onetime
    return (pk, encryptedSk) :: keys

/-- An `INSERT` into `onetime_prekeys`, whose key is the public key. -/
def Tables.insertOnetime (t : Tables K) (row : K × EncryptedKey) : Tables K :=
  if t.onetimePrekeys.any (·.1 = row.1) then t
  else { t with onetimePrekeys := t.onetimePrekeys ++ [row] }

/-- Only that table is written to. -/
theorem Tables.foldl_insertOnetime (keys : List (K × EncryptedKey)) (t : Tables K) :
    ∃ rows, keys.foldl Tables.insertOnetime t = { t with onetimePrekeys := rows } := by
  induction keys generalizing t with
  | nil => exact ⟨t.onetimePrekeys, rfl⟩
  | cons row keys ih =>
    obtain ⟨rows, hrows⟩ := ih (t.insertOnetime row)
    refine ⟨rows, hrows.trans ?_⟩
    unfold insertOnetime
    split <;> rfl

/-- `save_encrypted_onetime_keys`: a failure is only reported. -/
def saveEncryptedOnetimeKeys (keys : List (K × EncryptedKey)) : AccountM K Unit :=
  Throwing.modify fun m =>
    match m.tables with
    | .ok t => m.setTables (keys.foldl Tables.insertOnetime t)
    | .error _ => m

/-- The prekeys of a login. -/
def postNewKeys (d : PrekeyDraws K) : AccountM K Unit := do
  let lastUpdated ← getSignedPrekeyLastUpdated
  (if lastUpdated.all fun t => t < d.now - Responder.maxAge then generateSignedPrekey C d
    else pure ())
  let _ ← getDecryptedKeypair C "device"
  let keys ← encryptOnetimeKeys C d.onetime
  saveEncryptedOnetimeKeys keys
  Throwing.answer d.posted

/-- What `login_user` meets: what is in the salt buffer, what its steps are
answered, and what it draws if it posts new keys. -/
structure LoginDraws (K : Type) where
  buffer : Salt
  derived : Except Fault Unit
  opened : Except Fault Unit
  requested : Except Fault Unit
  authenticated : Except Fault Unit
  newKeys : Option (PrekeyDraws K)

/-- The beginning of it, up to `initialize`. -/
def LoginDraws.masterKey (username : String) (password : List UInt8) (d : LoginDraws K) :
    AccountM K K := do
  let salt ← getSaltFromFile username d.buffer
  deriveMasterKey C password salt d.derived

/-- The KEK, loaded. -/
def loadKek (masterKey : K) : AccountM K Unit := do
  let eKek ← getEncryptedKey "kek"
  let kek ← Throwing.answer (decryptKek C eKek masterKey)
  setKek kek

/-- What is left of it: the server's two answers, the sessions, and the
prekeys. -/
def LoginDraws.finish (d : LoginDraws K) : AccountM K Unit := do
  let _ ← getDecryptedKeypair C "device"
  Throwing.answer d.requested
  Throwing.answer d.authenticated
  loadRatchetsFromDb
  match d.newKeys with
  | some draws => postNewKeys C draws
  | none => return

/-- **`login_user`.** -/
def loginUser (username : String) (password : List UInt8) (d : LoginDraws K) :
    AccountM K Unit := do
  let masterKey ← d.masterKey C username password
  initializeDatabase username masterKey d.opened
  loadKek C masterKey
  d.finish C

/-- **`logout`**, given what `/logout` is answered: the map of sessions
stays. -/
def logout (answered : Except Fault Unit) : AccountM K Unit := do
  Throwing.answer answered
  closeDatabase
  Throwing.modify fun m => { m with kek := none }

/-! ## Unlocking -/

/-- What `login_user` does before it asks the server, in a process where
nothing is open: the stored KEK. -/
def unlock (username : String) (password : List UInt8) (buffer : Salt) : AccountM K K := do
  let salt ← getSaltFromFile username buffer
  let masterKey ← deriveMasterKey C password salt (.ok ())
  initializeDatabase username masterKey (.ok ())
  let eKek ← getEncryptedKey "kek"
  Throwing.answer (decryptKek C eKek masterKey)

/-- **A user is unlockable with a password**: in a fresh process, whatever is
in the salt buffer, the key derived from the password and the salt on disk
opens the database and decrypts the KEK in it. -/
def Machine.Unlocks (username : String) (password : List UInt8) (m : Machine K) : Prop :=
  ∀ buffer, (unlock C username password buffer m.restart).1.isOk

/-- A database file unlocks with a master key: the KEK is there, encrypted
under it. -/
def DatabaseFile.Unlocks (masterKey : K) (d : DatabaseFile K) : Prop :=
  d.key = masterKey ∧ ∃ t e, d.tables = some t ∧ t.keys.lookup "kek" = some e
    ∧ (decryptKek C e masterKey).isOk

variable {C} {username : String} {password : List UInt8} {m m' : Machine K}

/-- What `initialize` does in a process where nothing is open. -/
theorem initializeDatabase_of_none (hm : m.connection = none) (masterKey : K) :
    initializeDatabase username masterKey (.ok ()) m =
      match (m.files username).database with
      | some d =>
        if d.key = masterKey then (.ok (), { m with connection := some (username, masterKey) })
        else (.error (.runtimeError "Database verification failed: Incorrect password"), m)
      | none => (.ok (), { m with connection := some (username, masterKey) }) := by
  unfold initializeDatabase
  rw [hm]
  cases (m.files username).database <;> rfl

/-- A store that is there opens under its key. -/
theorem initializeDatabase_of_key {d : DatabaseFile K} (hm : m.connection = none)
    (hd : (m.files username).database = some d) :
    initializeDatabase username d.key (.ok ()) m
      = (.ok (), { m with connection := some (username, d.key) }) := by
  rw [initializeDatabase_of_none hm, hd]
  exact if_pos rfl

/-- **How `initialize` can end**: it throws and nothing is open, or it returns,
no file has changed, and the connection that is open is the one there was, or
is the user's if there was none and the key fits. -/
theorem initializeDatabase_cases (username : String) (masterKey : K)
    (opened : Except Fault Unit) (m : Machine K) :
    (∃ e, initializeDatabase username masterKey opened m = (.error e, m) ∧ m.connection = none)
      ∨ ∃ c, initializeDatabase username masterKey opened m
          = (.ok (), { m with connection := some c })
        ∧ (m.connection = some c ∨ m.connection = none ∧ c = (username, masterKey)
          ∧ ∀ d, (m.files username).database = some d → d.key = masterKey) := by
  unfold initializeDatabase
  cases hconnection : m.connection with
  | some c =>
    have hsame : ({ m with connection := some c } : Machine K) = m := by rw [← hconnection]
    exact Or.inr ⟨c, congrArg (Except.ok (), ·) hsame.symm, Or.inl rfl⟩
  | none =>
    cases opened with
    | error e => exact Or.inl ⟨e, rfl, rfl⟩
    | ok _ =>
      cases hd : (m.files username).database with
      | none => exact Or.inr ⟨_, rfl, Or.inr ⟨rfl, rfl, nofun⟩⟩
      | some d =>
        by_cases hk : d.key = masterKey
        · exact Or.inr ⟨_, if_pos hk, Or.inr ⟨rfl, rfl, fun d' hd' => Option.some.inj hd' ▸ hk⟩⟩
        · exact Or.inl ⟨_, if_neg hk, rfl⟩

/-- The tables a query finds are those of the connection's user, under the
connection's key. -/
theorem tables_eq_ok_iff {t : Tables K} : m.tables = .ok t ↔ ∃ user key,
    m.connection = some (user, key) ∧ (m.files user).database = some ⟨key, some t⟩ := by
  unfold Machine.tables
  constructor
  · intro h
    split at h
    · cases h
    · rename_i user key hconnection
      split at h
      · cases h
      · rename_i d hd
        split at h
        · rename_i hkey
          obtain ⟨fileKey, tables⟩ := d
          obtain rfl : fileKey = key := hkey
          cases tables with
          | none => cases h
          | some t' =>
            obtain rfl : t' = t := Except.ok.inj h
            exact ⟨user, fileKey, hconnection, hd⟩
        · cases h
  · rintro ⟨user, key, hconnection, hd⟩
    simp only [hconnection, hd, if_true]
    rfl

/-- A query of tables that are there. -/
theorem query_of_tables {α : Type} {t : Tables K} (ht : m.tables = .ok t)
    (f : Tables K → Except Fault α) : query f m = (f t, m) := by
  show (m.tables.bind f, m) = _
  rw [ht]
  rfl

/-- **A statement that writes** finds tables and writes to them, or throws. -/
theorem execute_cases (f : Tables K → Tables K) (m : Machine K) :
    (∃ e, execute f m = (.error e, m))
      ∨ ∃ t, m.tables = .ok t ∧ execute f m = (.ok (), m.setTables (f t)) := by
  cases ht : m.tables with
  | error e =>
    have hquery : query .ok m = (.error e, m) := by
      show (m.tables.bind .ok, m) = _
      rw [ht]
      rfl
    exact Or.inl ⟨e, Throwing.bind_of_error hquery⟩
  | ok t => exact Or.inr ⟨t, rfl, Throwing.bind_of_ok (query_of_tables ht .ok)⟩

/-- Storing one-time keys fills the tables that are there, -/
theorem saveEncryptedOnetimeKeys_of_tables {t : Tables K} (ht : m.tables = .ok t)
    (keys : List (K × EncryptedKey)) :
    saveEncryptedOnetimeKeys keys m
      = (.ok (), m.setTables (keys.foldl Tables.insertOnetime t)) := by
  simp only [saveEncryptedOnetimeKeys, Throwing.modify, ht]

/-- and does nothing without. -/
theorem saveEncryptedOnetimeKeys_of_error {e : Fault} (ht : m.tables = .error e)
    (keys : List (K × EncryptedKey)) : saveEncryptedOnetimeKeys keys m = (.ok (), m) := by
  simp only [saveEncryptedOnetimeKeys, Throwing.modify, ht]

/-- Tables are dropped in the database of the connection, -/
theorem dropAllTables_cases (m : Machine K) : dropAllTables m = (.ok (), m)
    ∨ ∃ user key, m.connection = some (user, key)
      ∧ dropAllTables m = (.ok (), m.setDatabase user ⟨key, none⟩) := by
  unfold dropAllTables Throwing.modify
  cases hconnection : m.connection with
  | none => exact Or.inl (by simp only [hconnection])
  | some c =>
    cases hd : (m.files c.1).database with
    | none => exact Or.inl (by simp only [hconnection, hd])
    | some d =>
      by_cases hk : d.key = c.2
      · exact Or.inr ⟨c.1, c.2, rfl, by simp only [hconnection, hd, if_pos hk]⟩
      · exact Or.inl (by simp only [hconnection, hd, if_neg hk])

/-- and made there: those there are, or empty ones. -/
theorem initSchema_cases (created : Except Fault Unit) (m : Machine K) :
    (∃ e, initSchema created m = (.error e, m))
      ∨ ∃ user key t, m.connection = some (user, key)
        ∧ (t = .empty ∨ ∃ d, (m.files user).database = some d ∧ d.tables = some t)
        ∧ initSchema created m = (.ok (), m.setDatabase user ⟨key, some t⟩) := by
  unfold initSchema
  cases hconnection : m.connection with
  | none => exact Or.inl ⟨_, rfl⟩
  | some c =>
    have hset : ∀ t, m.setTables t = m.setDatabase c.1 ⟨c.2, some t⟩ := by
      intro t
      unfold Machine.setTables
      rw [hconnection]
    cases created with
    | error e => exact Or.inl ⟨e, rfl⟩
    | ok _ =>
      cases hd : (m.files c.1).database with
      | none => exact Or.inr ⟨c.1, c.2, .empty, rfl, Or.inl rfl, by simp only [hd, hset]⟩
      | some d =>
        by_cases hk : d.key = c.2
        · refine Or.inr ⟨c.1, c.2, d.tables.getD .empty, rfl, ?_,
            by simp only [hd, if_pos hk, hset]⟩
          cases ht : d.tables with
          | none => exact Or.inl rfl
          | some t => exact Or.inr ⟨d, hd, ht⟩
        · exact Or.inl ⟨_, by simp only [hd, if_neg hk]; rfl⟩

/-- The KEK a connection reads is in its user's database. -/
theorem loadKek_isOk_iff {masterKey : K} (hm : m.connection = some (username, masterKey)) :
    ((getEncryptedKey "kek" >>= fun e =>
        (Throwing.answer (decryptKek C e masterKey) : AccountM K K)) m).1.isOk
      ↔ ∃ d, (m.files username).database = some d ∧ d.Unlocks C masterKey := by
  constructor
  · intro h
    obtain ⟨kek, hkek⟩ := exists_of_isOk h
    obtain ⟨e, m', he, hdecrypt⟩ := Throwing.exists_of_bind_ok (Prod.ext hkek rfl)
    obtain ⟨t, ht, hlookup⟩ := exists_of_bind_eq_ok (Prod.mk.inj he).1
    obtain ⟨user, key, hconnection, hd⟩ := tables_eq_ok_iff.mp ht
    obtain ⟨rfl, rfl⟩ := Prod.mk.inj (Option.some.inj (hm.symm.trans hconnection))
    refine ⟨_, hd, rfl, t, e, rfl, ?_, ?_⟩
    · cases hrow : t.keys.lookup "kek" with
      | none =>
        rw [hrow] at hlookup
        cases hlookup
      | some e' =>
        rw [hrow] at hlookup
        exact congrArg some (Except.ok.inj hlookup)
    · rw [(Prod.mk.inj hdecrypt).1]
      rfl
  · rintro ⟨⟨key, _⟩, hd, rfl, t, e, rfl, hlookup, hdecrypt⟩
    have ht : m.tables = .ok t := tables_eq_ok_iff.mpr ⟨username, key, hm, hd⟩
    have he : getEncryptedKey "kek" m = (.ok e, m) := by
      show (m.tables.bind fun t => orThrow _ (t.keys.lookup "kek"), m) = _
      rw [ht]
      show (orThrow _ (t.keys.lookup "kek"), m) = _
      rw [hlookup]
      rfl
    rw [Throwing.bind_of_ok he]
    exact hdecrypt

/-- What `unlock` comes to with a salt on disk. -/
theorem unlock_isOk_iff {bytes : List UInt8} (hsalt : (m.files username).salt = some bytes)
    (buffer : Salt) :
    (unlock C username password buffer m.restart).1.isOk
      ↔ ∃ d, (m.files username).database = some d
        ∧ d.Unlocks C (C.pwhash password (readSalt buffer bytes)) := by
  set masterKey := C.pwhash password (readSalt buffer bytes) with hkey
  have hread : getSaltFromFile username buffer m.restart
      = (.ok (readSalt buffer bytes), m.restart) :=
    getSaltFromFile_of_some (m := m.restart) hsalt buffer
  have hderive : deriveMasterKey C password (readSalt buffer bytes) (.ok ()) m.restart
      = (.ok masterKey, m.restart) := rfl
  have hopen : initializeDatabase username masterKey (.ok ()) m.restart
      = match (m.files username).database with | some d => _ | none => _ :=
    initializeDatabase_of_none rfl masterKey
  unfold unlock
  rw [Throwing.bind_of_ok hread, Throwing.bind_of_ok hderive]
  cases hd : (m.files username).database with
  | none =>
    rw [hd] at hopen
    rw [Throwing.bind_of_ok hopen, loadKek_isOk_iff rfl]
    exact ⟨fun ⟨d, h, _⟩ => absurd (hd.symm.trans h) nofun, fun ⟨d, h, _⟩ => absurd h nofun⟩
  | some d =>
    rw [hd] at hopen
    by_cases hk : d.key = masterKey
    · rw [Throwing.bind_of_ok (hopen.trans (if_pos hk)), loadKek_isOk_iff rfl]
      exact ⟨fun ⟨d', h, hu⟩ => ⟨d', hd.symm.trans h, hu⟩, fun ⟨d', h, hu⟩ => ⟨d', hd.trans h, hu⟩⟩
    · rw [Throwing.bind_of_error (hopen.trans (if_neg hk))]
      refine ⟨fun h => absurd h Bool.false_ne_true, ?_⟩
      rintro ⟨d', hd', hu⟩
      exact absurd ((congrArg DatabaseFile.key (Option.some.inj hd')).trans hu.1) hk

/-- **When a password unlocks**: whatever is in the buffer, the salt file
gives the key the database is under, and its KEK is encrypted under it. -/
theorem unlocks_iff : m.Unlocks C username password ↔ ∃ bytes d,
    (m.files username).salt = some bytes ∧ (m.files username).database = some d
      ∧ ∀ buffer, d.Unlocks C (C.pwhash password (readSalt buffer bytes)) := by
  cases hsalt : (m.files username).salt with
  | none =>
    refine ⟨fun h => ?_, fun ⟨_, _, h, _⟩ => absurd h nofun⟩
    have hread : getSaltFromFile username ⟨List.replicate 16 0, rfl⟩ m.restart
        = (.error (.runtimeError "Failed to open file for reading:"), m.restart) :=
      getSaltFromFile_of_none (m := m.restart) hsalt _
    have h := h ⟨List.replicate 16 0, rfl⟩
    unfold unlock at h
    rw [Throwing.bind_of_error hread] at h
    exact absurd h Bool.false_ne_true
  | some bytes =>
    constructor
    · intro h
      have hd := fun buffer => (unlock_isOk_iff hsalt buffer).mp (h buffer)
      obtain ⟨d, hfile, -⟩ := hd ⟨List.replicate 16 0, rfl⟩
      refine ⟨bytes, d, rfl, hfile, fun buffer => ?_⟩
      obtain ⟨d', hfile', hu⟩ := hd buffer
      rwa [Option.some.inj (hfile.symm.trans hfile')]
    · rintro ⟨bytes', d, hbytes, hfile, hu⟩ buffer
      obtain rfl := Option.some.inj hbytes
      exact (unlock_isOk_iff hsalt buffer).mpr ⟨d, hfile, hu buffer⟩

/-- With a whole salt on disk the buffer does not matter. -/
theorem unlocks_of_isOk {bytes : List UInt8} (hsalt : (m.files username).salt = some bytes)
    (hlen : 16 ≤ bytes.length) {buffer : Salt}
    (h : (unlock C username password buffer m.restart).1.isOk) :
    m.Unlocks C username password := by
  intro buffer'
  rw [unlock_isOk_iff hsalt, readSalt_of_le hlen] at h ⊢
  exact h

/-- Only the user's own files matter. -/
theorem Machine.Unlocks.of_files (h : m.Unlocks C username password)
    (hfiles : m'.files username = m.files username) : m'.Unlocks C username password := by
  rw [unlocks_iff] at h ⊢
  rwa [hfiles]

end Database

/-! ## What a call keeps

Its steps that only read keep anything; what else it does is the argument. -/

section Keeps

open Throwing

variable [LinearOrder K] {C : AccountCrypto K} {I : Machine K → Prop}

omit [LinearOrder K] in
theorem keeps_encryptSecretKey (sk : K) (nonce : List UInt8) :
    Keeps I (encryptSecretKey C sk nonce) := (Keeps.reads _).bind fun _ => Keeps.pure _

theorem keeps_getDecryptedKeypair (label : String) : Keeps I (getDecryptedKeypair C label) :=
  (Keeps.reads _).bind fun _ => (Keeps.reads _).bind fun _ => (Keeps.answer _).bind fun _ =>
    Keeps.pure _

omit [LinearOrder K] in
theorem keeps_encryptOnetimeKeys (onetime : List ((K × K) × List UInt8)) :
    Keeps I (encryptOnetimeKeys C onetime) := by
  induction onetime with
  | nil => exact Keeps.pure []
  | cons key onetime ih =>
    obtain ⟨⟨pk, sk⟩, nonce⟩ := key
    exact (keeps_encryptSecretKey sk nonce).bind fun _ => ih.bind fun _ => Keeps.pure _

omit [LinearOrder K] in
theorem keeps_masterKey (username : String) (password : List UInt8) (d : LoginDraws K) :
    Keeps I (d.masterKey C username password) := (Keeps.reads _).bind fun _ => Keeps.answer _

omit [LinearOrder K] in
theorem keeps_saveSaltToFile {username : String}
    (hsalt : ∀ bytes, Keeps I (writeSalt username bytes)) (salt : Salt) (d : SaltSaving) :
    Keeps I (saveSaltToFile username salt d) :=
  (Keeps.answer _).bind fun _ => (hsalt _).bind fun _ => Keeps.answer _

omit [LinearOrder K] in
theorem keeps_newMasterKey {username : String}
    (hsalt : ∀ bytes, Keeps I (writeSalt username bytes)) (password : List UInt8) (d : SetUp K) :
    Keeps I (d.newMasterKey C username password) :=
  (Keeps.answer _).bind fun _ => (Keeps.answer _).bind fun _ =>
    (keeps_saveSaltToFile hsalt _ _).bind fun _ => Keeps.pure _

theorem keeps_newKek (hdrop : Keeps I dropAllTables)
    (hinit : ∀ created, Keeps I (initSchema created))
    (hkek : ∀ kek, Keeps I (setKek kek)) (masterKey : K) (d : SetUp K)
    (hsave : Keeps I (saveEncryptedKey "kek" (encryptKek C d.kek d.nonceKek masterKey))) :
    Keeps I (d.newKek C masterKey) := by
  have hrefresh : Keeps I (if d.refreshTables then dropAllTables else pure ()) := by
    cases d.refreshTables with
    | true => exact hdrop
    | false => exact Keeps.pure ()
  exact hrefresh.bind fun _ => (hinit _).bind fun _ => (Keeps.answer _).bind fun _ =>
    (hkek _).bind fun _ => (Keeps.answer _).bind fun _ => hsave

theorem keeps_newIdentity (hkeypair : ∀ label row, Keeps I (saveEncryptedKeypair label row))
    (d : Registration K) : Keeps I (d.newIdentity C) :=
  (keeps_encryptSecretKey _ _).bind fun _ => (Keeps.answer _).bind fun _ =>
    (hkeypair _ _).bind fun _ => Keeps.answer _

theorem keeps_loadKek (hkek : ∀ kek, Keeps I (setKek kek)) (masterKey : K) :
    Keeps I (loadKek C masterKey) :=
  (Keeps.reads _).bind fun _ => (Keeps.answer _).bind fun _ => hkek _

theorem keeps_postNewKeys (hkeypair : ∀ label row, Keeps I (saveEncryptedKeypair label row))
    (honetime : ∀ keys, Keeps I (saveEncryptedOnetimeKeys keys)) (d : PrekeyDraws K) :
    Keeps I (postNewKeys C d) := by
  have hsigned : Keeps I (generateSignedPrekey C d) :=
    (keeps_encryptSecretKey _ _).bind fun _ => (hkeypair _ _).bind fun _ =>
      (keeps_getDecryptedKeypair _).bind fun _ => Keeps.pure ()
  refine (Keeps.reads _).bind fun lastUpdated => ?_
  have hrenew : Keeps I
      (if lastUpdated.all fun t => t < d.now - Responder.maxAge then generateSignedPrekey C d
        else pure ()) := by
    split
    · exact hsigned
    · exact Keeps.pure ()
  exact hrenew.bind fun _ => (keeps_getDecryptedKeypair _).bind fun _ =>
    (keeps_encryptOnetimeKeys _).bind fun _ => (honetime _).bind fun _ => Keeps.answer _

theorem keeps_registerUser {username : String} (hsalt : ∀ bytes, Keeps I (writeSalt username bytes))
    (hopen : ∀ masterKey opened, Keeps I (initializeDatabase username masterKey opened))
    (hdrop : Keeps I dropAllTables) (hinit : ∀ created, Keeps I (initSchema created))
    (hkek : ∀ kek, Keeps I (setKek kek)) (password : List UInt8) (d : Registration K)
    (hsave : ∀ masterKey,
      Keeps I (saveEncryptedKey "kek" (encryptKek C d.kek d.nonceKek masterKey)))
    (hkeypair : ∀ label row, Keeps I (saveEncryptedKeypair label row)) :
    Keeps I (registerUser C username password d) := by
  have hsetUp : Keeps I (setUpClientForUser C username password d.toSetUp) :=
    (keeps_newMasterKey hsalt password d.toSetUp).bind fun masterKey =>
      (hopen _ _).bind fun _ => keeps_newKek hdrop hinit hkek masterKey d.toSetUp (hsave masterKey)
  exact hsetUp.bind fun _ => keeps_newIdentity hkeypair d

theorem keeps_loginUser {username : String}
    (hopen : ∀ masterKey opened, Keeps I (initializeDatabase username masterKey opened))
    (hkek : ∀ kek, Keeps I (setKek kek)) (hload : Keeps I loadRatchetsFromDb)
    (hkeypair : ∀ label row, Keeps I (saveEncryptedKeypair label row))
    (honetime : ∀ keys, Keeps I (saveEncryptedOnetimeKeys keys)) (password : List UInt8)
    (d : LoginDraws K) : Keeps I (loginUser C username password d) := by
  have hfinish : Keeps I (d.finish C) := by
    refine (keeps_getDecryptedKeypair _).bind fun _ => (Keeps.answer _).bind fun _ => ?_
    refine (Keeps.answer _).bind fun _ => hload.bind fun _ => ?_
    cases d.newKeys with
    | none => exact Keeps.pure ()
    | some draws => exact keeps_postNewKeys hkeypair honetime draws
  exact (keeps_masterKey username password d).bind fun _ => (hopen _ _).bind fun _ =>
    (keeps_loadKek hkek _).bind fun _ => hfinish

end Keeps

/-! ## Ciphers that are ideal -/

/-- The digits a password and a salt are told apart by. -/
def pwhashDigits (password salt : List UInt8) : List ℕ :=
  password.map (·.toNat + 1) ++ 257 :: salt.map (·.toNat + 1)

/-- The ciphers of `Aead.keyed`, and a hash that codes the password and the
salt. -/
def AccountCrypto.ideal : AccountCrypto ℕ where
  aead := .keyed
  keyBytes := .code
  pwhash password salt := Nat.ofDigits 258 (pwhashDigits password salt)

theorem AccountCrypto.ideal_ideal : AccountCrypto.ideal.Ideal where
  aead := Aead.keyed_ideal
  pwhash p s p' s' h := by
    have hbyte : ∀ l : List UInt8, ∀ d ∈ l.map (·.toNat + 1), d ≠ 0 ∧ d < 257 := by
      intro l d hd
      obtain ⟨b, -, rfl⟩ := List.mem_map.mp hd
      exact ⟨Nat.succ_ne_zero _, Nat.succ_lt_succ b.toNat_lt⟩
    have hdigits : ∀ p s, Nat.digits 258 (Nat.ofDigits 258 (pwhashDigits p s))
        = pwhashDigits p s := by
      intro p s
      have hall : ∀ d ∈ pwhashDigits p s, d ≠ 0 ∧ d < 258 := by
        intro d hd
        obtain hd | hd := List.mem_append.mp hd
        · exact (hbyte p d hd).imp_right fun h => h.trans (by decide)
        · obtain rfl | hd := List.mem_cons.mp hd
          · decide
          · exact (hbyte s d hd).imp_right fun h => h.trans (by decide)
      exact Nat.digits_ofDigits 258 (by decide) _ (fun d hd => (hall d hd).2)
        fun hne => (hall _ (List.getLast_mem hne)).1
    have hsame : pwhashDigits p s = pwhashDigits p' s' :=
      (hdigits p s).symm.trans ((congrArg (Nat.digits 258) h).trans (hdigits p' s'))
    have hmark : ∀ l : List UInt8, 257 ∉ l.map (·.toNat + 1) := fun l hl =>
      absurd (hbyte l 257 hl).2 (by decide)
    have hinj : Function.Injective fun b : UInt8 => b.toNat + 1 := fun a b hab =>
      UInt8.toNat_inj.mp (Nat.succ.inj hab)
    obtain ⟨hp, -, hs⟩ := (List.append_cons_inj_of_notMem (hmark p) (hmark s)).mp hsame
    exact ⟨List.map_injective_iff.mpr hinj hp, List.map_injective_iff.mpr hinj hs⟩

/-- Steps that all return. -/
def SaltSaving.ideal : SaltSaving := ⟨.ok (), 16, .ok ()⟩

def Registration.ideal (salt : Salt) (kek : ℕ) : Registration ℕ where
  sodiumInit := .ok ()
  salt := salt
  derived := .ok ()
  saltSaved := .ideal
  opened := .ok ()
  refreshTables := false
  created := .ok ()
  kek := kek
  nonceKek := [1]
  encrypted := .ok ()
  saved := .ok ()
  identity := (2, 3)
  nonceSk := [2]
  timestamp := 0
  keypairSaved := .ok ()
  registered := .ok ()

def LoginDraws.ideal : LoginDraws ℕ where
  buffer := ⟨List.replicate 16 0, rfl⟩
  derived := .ok ()
  opened := .ok ()
  requested := .ok ()
  authenticated := .ok ()
  newKeys := none

def Salt.ideal (b : UInt8) : Salt := ⟨List.replicate 16 b, List.length_replicate⟩

/-- A machine without files. -/
def Machine.blank : Machine ℕ := ⟨["data".toList], fun _ => ⟨none, none⟩, none, none, ∅⟩
