import Eastwood.Throwing
import Mathlib.Data.List.Basic
import Mathlib.Tactic.Common

/-!
# Prepared statements

Everything the program keeps in its database goes through prepared statements
of SQLite. A statement is prepared, stepped and finalized; using it after that
is undefined, and while one is left, `sqlite3_close` refuses to close the
database, which the program does not notice. `prepare_or_throw`, `execute` and
`query` share the work: the first makes a statement or throws, and the other
two finalize it, on whatever path they are left.

Between the two a statement can be lost: where something is thrown after it
has been prepared, where it is given to the wrong one of the two, which throws
without finalizing it, or where a `continue` leaves the loop it was prepared
in. The last does happen, for a one-time key of which something is missing,
and the others do not: whatever calls are made and whatever fails in them,
SQLite is never misused, and the database can be closed exactly if no such key
was met with a statement prepared for it (`closes_iff`).

Every call on a statement is one that must find it: reading its text, binding,
stepping, asking for its connection, and finalizing it. What is bound does not
matter and is left out; what comes of the statements, one after the other, is a
parameter (`StatementOutcome`), and so is decryption.
-/

namespace Sqlite

/-! ## Statements -/

/-- What is thrown, or that a statement was used which there is not. -/
inductive StatementError where
  | thrown (what : String)
  | misuse
  deriving DecidableEq

/-- A row of a result: the bytes of a column. -/
abbrev Row := String → List UInt8

/-- **What comes of a statement**: whether it can be prepared, the rows it
has, whether it is then done, and the message of an error. -/
structure StatementOutcome where
  prepared : Bool
  rows : List Row
  done : Bool
  errmsg : String

/-- **A connection**: how many statements were to be prepared on it, and the
ones that are not finalized, with their texts. -/
structure Connection where
  attempts : ℕ
  live : List (ℕ × String)

/-- A computation with statements. -/
abbrev StatementM (α : Type) := Throwing Connection StatementError α

namespace StatementM

/-- `throw std::runtime_error(what)`. -/
def throw {α : Type} (what : String) : StatementM α := Throwing.answer (.error (.thrown what))

/-- What something else returns or throws. -/
def ofExcept {α : Type} (r : Except String α) : StatementM α :=
  Throwing.answer (r.mapError .thrown)

/-- A `try` whose `catch` goes on without a result. -/
def caught {β : Type} (m : StatementM (Option β)) : StatementM (Option β) := fun c =>
  match m c with
  | (.error (.thrown _), c) => (.ok none, c)
  | r => r

/-- A loop over rows, of the results there are. -/
def collect {β : Type} (body : Row → StatementM (Option β)) : List Row → StatementM (List β)
  | [] => return []
  | row :: rows => do
    let found ← body row
    let others ← collect body rows
    return found.toList ++ others

end StatementM

open StatementM

/-- `sqlite3_stmt_readonly`, of the texts there are. -/
def isReadonly (sql : String) : Bool := sql.toList.take 6 == "SELECT".toList

/-- The text of a statement, which must be there. -/
def sqlOf (stmt : ℕ) : StatementM String :=
  Throwing.reads fun c =>
    match c.live.find? (·.1 = stmt) with
    | some (_, sql) => .ok sql
    | none => .error .misuse

/-- Any other call on a statement: it must be there, too. -/
def uses (stmt : ℕ) : StatementM Unit := do
  let _ ← sqlOf stmt
  return ()

/-- `sqlite3_bind_text`, `sqlite3_bind_blob` and `sqlite3_bind_int`, for so many
parameters. -/
def bindAll (stmt : ℕ) : ℕ → StatementM Unit
  | 0 => return ()
  | n + 1 => do
    uses stmt
    bindAll stmt n

/-- `sqlite3_step` with the columns of each row, until there is none. -/
def stepAll (stmt : ℕ) : List Row → StatementM Unit
  | [] => uses stmt
  | _ :: rows => do
    uses stmt
    stepAll stmt rows

/-- `sqlite3_finalize`. -/
def finalize (stmt : ℕ) : StatementM Unit := do
  uses stmt
  Throwing.modify fun c => { c with live := c.live.filter (·.1 ≠ stmt) }

/-- A statement that is finalized twice. -/
example : ((finalize 0 >>= fun _ => finalize 0) ⟨1, [(0, "SELECT")]⟩).1 = .error .misuse := rfl

/-- `sqlite3_close` returns `SQLITE_OK`. -/
def Connection.closes (c : Connection) : Prop := c.live = []

section Code

variable (world : ℕ → StatementOutcome)

/-- **`Database::prepare_or_throw`.** -/
def prepareOrThrow (zSql : String) : StatementM ℕ := fun c =>
  if (world c.attempts).prepared then
    (.ok c.attempts, ⟨c.attempts + 1, c.live ++ [(c.attempts, zSql)]⟩)
  else
    (.error (.thrown ("Failed to prepare statement:" ++ (world c.attempts).errmsg)),
      ⟨c.attempts + 1, c.live⟩)

/-- **`Database::execute`.** -/
def execute (stmt : ℕ) : StatementM Unit := do
  let sql ← sqlOf stmt
  if isReadonly sql then
    throw "Attempted to execute a read-only (SELECT) statement with execute()"
  else do
    -- the text with its parameters, and the one step there is
    uses stmt
    uses stmt
    if (world stmt).done then finalize stmt
    else do
      -- the error is that of its connection
      uses stmt
      finalize stmt
      throw ("Failed to execute statement: " ++ (world stmt).errmsg)

/-- **`Database::query`.** -/
def query (stmt : ℕ) : StatementM (List Row) := do
  let sql ← sqlOf stmt
  if isReadonly sql then do
    -- the text with its parameters, and the number of its columns
    uses stmt
    uses stmt
    stepAll stmt (world stmt).rows
    if (world stmt).done then do
      finalize stmt
      return (world stmt).rows
    else do
      uses stmt
      finalize stmt
      throw ("Query did not finish cleanly: " ++ (world stmt).errmsg)
  else throw "Attempted to query with a non-SELECT statement"

/-- The parameters of a text: each is bound. -/
def parameters (sql : String) : ℕ := sql.toList.count '?'

/-- A statement that is prepared, bound and executed. -/
def change (sql : String) : StatementM Unit := do
  let stmt ← prepareOrThrow world sql
  bindAll stmt (parameters sql)
  execute world stmt

/-- A statement that is prepared, bound so often, and queried. -/
def selectBinding (sql : String) (bound : ℕ) : StatementM (List Row) := do
  let stmt ← prepareOrThrow world sql
  bindAll stmt bound
  query world stmt

/-- A statement that is prepared, bound and queried. -/
def select (sql : String) : StatementM (List Row) := selectBinding world sql (parameters sql)

/-- The first row of it; something is thrown if there is none. -/
def selectFirst (sql missing : String) : StatementM Row := do
  let rows ← select world sql
  match rows with
  | [] => throw missing
  | row :: _ => return row

/-! ### The queries -/

/-- **What decryption returns or throws**, under the KEK of the process: of a
secret or a symmetric key and its nonce, and of data under such a key. -/
structure Decryption where
  decryptSecretKey : List UInt8 → List UInt8 → Except String (List UInt8)
  decryptSymmetricKey : List UInt8 → List UInt8 → Except String (List UInt8)
  decryptMessageWithNonce : List UInt8 → List UInt8 → List UInt8 → Except String (List UInt8)

variable (C : Decryption)

/-- **`get_encrypted_keypair`.** -/
def getEncryptedKeypair (label : String) : StatementM (List UInt8 × List UInt8 × List UInt8) := do
  let row ← selectFirst world
    "SELECT public_key, encrypted_private_key, nonce FROM keypairs WHERE label = ?"
    ("No keys found for label " ++ label)
  return (row "public_key", row "encrypted_private_key", row "nonce")

/-- **`get_decrypted_keypair`.** -/
def getDecryptedKeypair (label : String) : StatementM (List UInt8 × List UInt8) := do
  let (publicKey, encryptedSk, nonce) ← getEncryptedKeypair world label
  let secretKey ← ofExcept (C.decryptSecretKey encryptedSk nonce)
  return (publicKey, secretKey)

/-- **`get_public_key`.** -/
def getPublicKey (label : String) : StatementM (List UInt8) := do
  let (publicKey, _, _) ← getEncryptedKeypair world label
  return publicKey

/-- **`get_decrypted_sk`.** -/
def getDecryptedSk (label : String) : StatementM (List UInt8) := do
  let (_, sk) ← getDecryptedKeypair world C label
  return sk

/-- **`save_encrypted_keypair`.** -/
def saveEncryptedKeypair : StatementM Unit :=
  change world ("INSERT OR REPLACE INTO keypairs (label, public_key, encrypted_private_key, nonce) "
    ++ "VALUES (?, ?, ?, ?);")

/-- **`get_encrypted_key`.** -/
def getEncryptedKey (label : String) : StatementM (List UInt8 × List UInt8) := do
  let row ← selectFirst world "SELECT encrypted_key, nonce FROM keys WHERE label = ?"
    ("No keys found for label " ++ label)
  return (row "encrypted_key", row "nonce")

/-- **`get_decrypted_key`.** -/
def getDecryptedKey (label : String) : StatementM (List UInt8) := do
  let (encryptedKey, nonce) ← getEncryptedKey world label
  ofExcept (C.decryptSymmetricKey encryptedKey nonce)

/-- **`save_encrypted_key`.** -/
def saveEncryptedKey : StatementM Unit :=
  change world "INSERT OR REPLACE INTO keys (label, encrypted_key, nonce) VALUES (?, ?, ?);"

/-- The text of a one-time key. -/
def onetimeSql : String :=
  "INSERT INTO onetime_prekeys (public_key, encrypted_key, nonce) VALUES (?, ?, ?);"

/-- A round of `save_encrypted_onetime_keys`. The statement is prepared before
it is looked whether the key, its secret and its nonce are all there. -/
def saveOnetimeRound (valid : Bool) : StatementM (Option Unit) := caught do
  let stmt ← prepareOrThrow world onetimeSql
  if valid then do
    bindAll stmt (parameters onetimeSql)
    execute world stmt
    return some ()
  else return none

/-- **`save_encrypted_onetime_keys`**, of keys that are all there or not. -/
def saveEncryptedOnetimeKeys : List Bool → StatementM Unit
  | [] => return ()
  | valid :: onetimeKeys => do
    let _ ← saveOnetimeRound world valid
    saveEncryptedOnetimeKeys onetimeKeys

/-- **`get_onetime_private_key`.** -/
def getOnetimePrivateKey (publicKey : Option (List UInt8)) : StatementM (Option (List UInt8)) :=
  match publicKey with
  | none => return none
  | some _ => do
    let rows ← select world "SELECT encrypted_key, nonce FROM onetime_prekeys WHERE public_key = ?"
    match rows with
    | [] => return none
    | row :: _ =>
      let key ← ofExcept (C.decryptSecretKey (row "encrypted_key") (row "nonce"))
      return some key

/-- **`save_encrypted_file_key`.** -/
def saveEncryptedFileKey : StatementM Unit :=
  change world "INSERT INTO file_keys (file_uuid, encrypted_key, nonce) VALUES (?, ?, ?);"

/-- **`get_decrypted_file_key`.** -/
def getDecryptedFileKey : StatementM (List UInt8) := do
  let row ← selectFirst world "SELECT encrypted_key, nonce FROM file_keys WHERE file_uuid = ?;"
    "Unable to find file for the given id. Check SQL logs"
  ofExcept (C.decryptSymmetricKey (row "encrypted_key") (row "nonce"))

/-- **`save_ratchet_and_key_by_username_device`.** -/
def saveRatchetAndKeyByUsernameDevice : StatementM Unit := do
  change world ("INSERT OR REPLACE INTO ratchets (username, device_id, nonce, encrypted_data) "
    ++ "VALUES (?, ?, ?, ?);")
  change world ("INSERT OR REPLACE INTO ratchet_keys (username, device_id, nonce, encrypted_key) "
    ++ "VALUES (?, ?, ?, ?);")

/-- Data of a row under the key of another. -/
def decryptWithRow (data : List UInt8) (nonce : List UInt8) (keyRow : Row) :
    StatementM (List UInt8) := do
  let key ← ofExcept (C.decryptSymmetricKey (keyRow "encrypted_key") (keyRow "nonce"))
  ofExcept (C.decryptMessageWithNonce data key nonce)

/-- **`get_decrypted_ratchet`.** -/
def getDecryptedRatchet : StatementM (List UInt8) := do
  let row ← selectFirst world "SELECT encrypted_data, nonce FROM ratchets WHERE ratchet_id = ?;"
    "No ratchet found with the given ID"
  let keyRow ← selectFirst world
    "SELECT encrypted_key, nonce FROM ratchet_keys WHERE ratchet_id = ?;"
    "No key found for the given ratchet ID"
  decryptWithRow C (row "encrypted_data") (row "nonce") keyRow

/-- **`get_decrypted_ratchet_by_username_device`.** -/
def getDecryptedRatchetByUsernameDevice : StatementM (List UInt8) := do
  let row ← selectFirst world
    "SELECT encrypted_data, nonce FROM ratchets WHERE username = ? AND device_id = ?;"
    "No ratchet found for the given username and device_id"
  let keyRow ← selectFirst world
    "SELECT encrypted_key, nonce FROM ratchet_keys WHERE username = ? AND device_id = ?;"
    "No key found for the given username and device_id"
  decryptWithRow C (row "encrypted_data") (row "nonce") keyRow

/-- **`save_message_and_key`.** -/
def saveMessageAndKey : StatementM Unit := do
  change world ("INSERT OR REPLACE INTO messages (username, from_device_id, file_uuid, nonce, "
    ++ "encrypted_message, is_sender) VALUES (?, ?, ?, ?, ?, ?);")
  change world ("INSERT OR REPLACE INTO message_keys (username, device_id, file_uuid, nonce, "
    ++ "encrypted_key) VALUES (?, ?, ?, ?, ?);")

/-- **`get_decrypted_message`.** -/
def getDecryptedMessage : StatementM (List UInt8) := do
  let row ← selectFirst world "SELECT encrypted_message, nonce FROM messages WHERE file_uuid = ?;"
    "No message found with the given file_uuid"
  let keyRow ← selectFirst world
    "SELECT encrypted_key, nonce FROM message_keys WHERE file_uuid = ?;"
    "No key found for the given file_uuid"
  decryptWithRow C (row "encrypted_message") (row "nonce") keyRow

/-- **`get_decrypted_message_by_username_device`.** -/
def getDecryptedMessageByUsernameDevice : StatementM (List UInt8) := do
  let row ← selectFirst world ("SELECT encrypted_message, nonce, file_uuid FROM messages "
      ++ "WHERE username = ? AND from_device_id = ?;")
    "No message found for the given username and device_id"
  let keyRow ← selectFirst world ("SELECT encrypted_key, nonce FROM message_keys "
      ++ "WHERE username = ? AND device_id = ? AND file_uuid = ?;")
    "No key found for the given username, device_id, and file_uuid"
  decryptWithRow C (row "encrypted_message") (row "nonce") keyRow

/-- A row of one of the lists of what is stored: its data under its key, which
another statement finds. A device id of another length, a missing key and what
is thrown leave the row out. -/
def decryptRow (keySql deviceColumn dataColumn : String) (row : Row) :
    StatementM (Option (Row × List UInt8)) :=
  if (row deviceColumn).length = 32 then
    caught do
      let keyRows ← select world keySql
      match keyRows with
      | [] => return none
      | keyRow :: _ =>
        let data ← decryptWithRow C (row dataColumn) (row "nonce") keyRow
        return some (row, data)
  else return none

/-- The text that finds the key of a message. -/
def messageKeySql : String :=
  "SELECT encrypted_key, nonce FROM message_keys "
    ++ "WHERE username = ? AND device_id = ? AND file_uuid = ?;"

/-- **`get_all_decrypted_messages_for_user`.** -/
def getAllDecryptedMessagesForUser : StatementM (List (Row × List UInt8)) := do
  let rows ← select world ("SELECT from_device_id, encrypted_message, nonce, file_uuid "
    ++ "FROM messages WHERE username = ?;")
  collect (decryptRow world C messageKeySql "from_device_id" "encrypted_message") rows

/-- The rows of a result that are the first of their file. -/
def firstOfFile : List Row → List Row
  | [] => []
  | row :: rows =>
    row :: (firstOfFile rows).filter fun other => other "file_uuid" ≠ row "file_uuid"

/-- **`get_all_decrypted_messages`.** -/
def getAllDecryptedMessages : StatementM (List (Row × List UInt8)) := do
  let rows ← select world ("SELECT username, from_device_id, encrypted_message, nonce, file_uuid "
    ++ "FROM messages WHERE username != ?;")
  collect (decryptRow world C messageKeySql "from_device_id" "encrypted_message") (firstOfFile rows)

/-- **`get_all_decrypted_sent_messages`.** -/
def getAllDecryptedSentMessages : StatementM (List (Row × List UInt8)) := do
  let rows ← select world ("SELECT username, from_device_id, encrypted_message, nonce, file_uuid "
    ++ "FROM messages WHERE username = ?;")
  collect (decryptRow world C messageKeySql "from_device_id" "encrypted_message") (firstOfFile rows)

/-- **`get_all_decrypted_ratchets`.** -/
def getAllDecryptedRatchets : StatementM (List (Row × List UInt8)) := do
  let rows ← select world "SELECT username, device_id, encrypted_data, nonce FROM ratchets;"
  collect (decryptRow world C
    "SELECT encrypted_key, nonce FROM ratchet_keys WHERE username = ? AND device_id = ?;"
    "device_id" "encrypted_data") rows

/-- A list of files and users. -/
def filesAndUsers (rows : List Row) : List (List UInt8 × List UInt8) :=
  (firstOfFile rows).map fun row => (row "file_uuid", row "username")

/-- **`get_all_received_file_uuids`.** -/
def getAllReceivedFileUuids : StatementM (List (List UInt8 × List UInt8)) := do
  let rows ← select world
    "SELECT file_uuid, username FROM messages WHERE username != ? AND is_sender = 0;"
  return filesAndUsers rows

/-- **`get_all_sent_file_uuids`.** It binds a second parameter, which there is
not: that call returns an error, which is no misuse. -/
def getAllSentFileUuids : StatementM (List (List UInt8 × List UInt8)) := do
  let rows ← selectBinding world
    "SELECT file_uuid, username FROM messages WHERE username != ? AND is_sender = 1;" 2
  return filesAndUsers rows

/-- **`get_file_recipients`.** -/
def getFileRecipients : StatementM (List (List UInt8)) := do
  let rows ← select world ("SELECT DISTINCT username FROM messages "
    ++ "WHERE file_uuid = ? AND username != ? AND is_sender = 1;")
  return rows.map fun row => row "username"

/-- **`delete_file_from_database`.** -/
def deleteFileFromDatabase : StatementM Unit := do
  change world "DELETE FROM file_keys WHERE file_uuid = ?;"
  change world "DELETE FROM messages WHERE file_uuid = ?;"
  change world "DELETE FROM message_keys WHERE file_uuid = ?;"

/-- **`get_signed_prekey_last_updated`.** -/
def getSignedPrekeyLastUpdated : StatementM (Option (List UInt8)) := do
  let rows ← select world "SELECT last_modified FROM keypairs WHERE label = 'signed'"
  return rows.head?.map fun row => row "last_modified"

/-- The statement of **`drop_all_tables`**, and its tables. It is not of
`prepare_or_throw`, and what it cannot prepare it leaves at. -/
def dropAllTables : StatementM (Option (List (List UInt8))) := caught do
  let stmt ← prepareOrThrow world
    "SELECT name FROM sqlite_master WHERE type='table' AND name NOT LIKE 'sqlite_%';"
  stepAll stmt (world stmt).rows
  finalize stmt
  return some ((world stmt).rows.map fun row => row "name")

end Code

/-! ## Leaving no statement -/

/-- The statements there are have been prepared. -/
def Connection.Sound (c : Connection) : Prop := ∀ stmt ∈ c.live, stmt.1 < c.attempts

/-- **It leaves the statements as they were**, and uses none there is not. -/
def Clean {α : Type} (m : StatementM α) : Prop :=
  ∀ c : Connection, c.Sound →
    (m c).2.Sound ∧ (m c).2.live = c.live ∧ (m c).1 ≠ .error .misuse

section Clean

variable {α β : Type} {m : StatementM α} {k : α → StatementM β} {world : ℕ → StatementOutcome}
  {C : Decryption}

theorem Clean.pure (a : α) : Clean (Pure.pure a) :=
  fun _ hc => ⟨hc, rfl, fun h => by cases h⟩

theorem Clean.throw (what : String) : Clean (StatementM.throw (α := α) what) :=
  fun _ hc => ⟨hc, rfl, fun h => by cases h⟩

theorem Clean.ofExcept (r : Except String α) : Clean (StatementM.ofExcept r) := by
  refine fun c hc => ⟨hc, rfl, fun h => ?_⟩
  cases r with
  | error what => cases h
  | ok a => cases h

theorem Clean.bind (hm : Clean m) (hk : ∀ a, Clean (k a)) : Clean (m >>= k) := by
  intro c hc
  obtain ⟨hsound, hlive, hmisuse⟩ := hm c hc
  obtain ⟨e, c', hms, hbind⟩ | ⟨a, c', hms, hbind⟩ := Throwing.bind_cases m k c
  · rw [hms] at hsound hlive hmisuse
    rw [hbind]
    exact ⟨hsound, hlive, fun h => hmisuse (congrArg Except.error (Except.error.inj h))⟩
  · rw [hms] at hsound hlive
    obtain ⟨hsound', hlive', hmisuse'⟩ := hk a c' hsound
    rw [hbind]
    exact ⟨hsound', hlive'.trans hlive, hmisuse'⟩

theorem Clean.caught {m : StatementM (Option α)} (hm : Clean m) : Clean (StatementM.caught m) := by
  intro c hc
  obtain ⟨hsound, hlive, hmisuse⟩ := hm c hc
  unfold StatementM.caught
  split
  · rename_i what c' hms
    rw [hms] at hsound hlive
    exact ⟨hsound, hlive, fun h => by cases h⟩
  · exact ⟨hsound, hlive, hmisuse⟩

theorem Clean.collect {body : Row → StatementM (Option β)} (hbody : ∀ row, Clean (body row))
    (rows : List Row) : Clean (StatementM.collect body rows) := by
  induction rows with
  | nil => exact .pure _
  | cons row rows ih => exact (hbody row).bind fun _ => ih.bind fun _ => .pure _

/-! ### The two ways to finalize -/

/-- The statement that has just been prepared is found, -/
theorem sqlOf_append {c : Connection} (hc : c.Sound) (sql : String) :
    sqlOf c.attempts ⟨c.attempts + 1, c.live ++ [(c.attempts, sql)]⟩
      = (.ok sql, ⟨c.attempts + 1, c.live ++ [(c.attempts, sql)]⟩) := by
  have hnone : c.live.find? (·.1 = c.attempts) = none := by
    rw [List.find?_eq_none]
    intro stmt hstmt heq
    exact absurd (of_decide_eq_true heq) (Nat.ne_of_lt (hc stmt hstmt))
  have hfind : (c.live ++ [(c.attempts, sql)]).find? (·.1 = c.attempts)
      = some (c.attempts, sql) := by
    rw [List.find?_append, hnone]
    simp
  unfold sqlOf Throwing.reads
  dsimp only
  rw [hfind]

/-- and can be used, -/
theorem uses_append {c : Connection} (hc : c.Sound) (sql : String) :
    uses c.attempts ⟨c.attempts + 1, c.live ++ [(c.attempts, sql)]⟩
      = (.ok (), ⟨c.attempts + 1, c.live ++ [(c.attempts, sql)]⟩) :=
  Throwing.bind_of_ok (sqlOf_append hc sql)

/-- as often as parameters are bound -/
theorem bindAll_append {c : Connection} (hc : c.Sound) (sql : String) (n : ℕ) :
    bindAll c.attempts n ⟨c.attempts + 1, c.live ++ [(c.attempts, sql)]⟩
      = (.ok (), ⟨c.attempts + 1, c.live ++ [(c.attempts, sql)]⟩) := by
  induction n with
  | zero => rfl
  | succ n ih => rw [bindAll, Throwing.bind_of_ok (uses_append hc sql), ih]

/-- and rows are read. -/
theorem stepAll_append {c : Connection} (hc : c.Sound) (sql : String) (rows : List Row) :
    stepAll c.attempts rows ⟨c.attempts + 1, c.live ++ [(c.attempts, sql)]⟩
      = (.ok (), ⟨c.attempts + 1, c.live ++ [(c.attempts, sql)]⟩) := by
  induction rows with
  | nil => exact uses_append hc sql
  | cons row rows ih => rw [stepAll, Throwing.bind_of_ok (uses_append hc sql), ih]

/-- Without it the others are left, -/
theorem filter_append {c : Connection} (hc : c.Sound) (sql : String) :
    (c.live ++ [(c.attempts, sql)]).filter (·.1 ≠ c.attempts) = c.live := by
  have hkeep : c.live.filter (·.1 ≠ c.attempts) = c.live :=
    List.filter_eq_self.mpr fun stmt hstmt => decide_eq_true (Nat.ne_of_lt (hc stmt hstmt))
  rw [List.filter_append, hkeep]
  simp

/-- which is to finalize it. -/
theorem finalize_append {c : Connection} (hc : c.Sound) (sql : String) :
    finalize c.attempts ⟨c.attempts + 1, c.live ++ [(c.attempts, sql)]⟩
      = (.ok (), ⟨c.attempts + 1, c.live⟩) := by
  rw [finalize, Throwing.bind_of_ok (uses_append hc sql)]
  unfold Throwing.modify
  dsimp only
  rw [filter_append hc]

theorem Connection.Sound.succ {c : Connection} (hc : c.Sound) :
    Connection.Sound ⟨c.attempts + 1, c.live⟩ :=
  fun stmt hstmt => Nat.lt_succ_of_lt (hc stmt hstmt)

/-- **A statement that is prepared, and then finalized by what follows**, is
no longer there. -/
theorem Clean.prepared {sql : String} {k : ℕ → StatementM β}
    (hk : ∀ c : Connection, c.Sound →
      k c.attempts ⟨c.attempts + 1, c.live ++ [(c.attempts, sql)]⟩
          = ((k c.attempts ⟨c.attempts + 1, c.live ++ [(c.attempts, sql)]⟩).1,
            ⟨c.attempts + 1, c.live⟩)
        ∧ (k c.attempts ⟨c.attempts + 1, c.live ++ [(c.attempts, sql)]⟩).1 ≠ .error .misuse) :
    Clean (prepareOrThrow world sql >>= k) := by
  intro c hc
  obtain ⟨hrun, hmisuse⟩ := hk c hc
  cases hprepared : (world c.attempts).prepared with
  | false =>
    have hprepare : prepareOrThrow world sql c
        = (.error (.thrown ("Failed to prepare statement:" ++ (world c.attempts).errmsg)),
          ⟨c.attempts + 1, c.live⟩) := by
      rw [prepareOrThrow, hprepared, if_neg Bool.false_ne_true]
    rw [Throwing.bind_of_error hprepare]
    exact ⟨hc.succ, rfl, fun h => by cases h⟩
  | true =>
    have hprepare : prepareOrThrow world sql c
        = (.ok c.attempts, ⟨c.attempts + 1, c.live ++ [(c.attempts, sql)]⟩) := by
      rw [prepareOrThrow, hprepared, if_pos rfl]
    rw [Throwing.bind_of_ok hprepare, hrun]
    exact ⟨hc.succ, rfl, hmisuse⟩

/-- **`execute` finalizes** what is no `SELECT`, done or not, -/
theorem execute_append (world : ℕ → StatementOutcome) {c : Connection} (hc : c.Sound)
    {sql : String} (hsql : isReadonly sql = false) :
    execute world c.attempts ⟨c.attempts + 1, c.live ++ [(c.attempts, sql)]⟩
      = (if (world c.attempts).done then .ok ()
          else .error (.thrown ("Failed to execute statement: " ++ (world c.attempts).errmsg)),
        ⟨c.attempts + 1, c.live⟩) := by
  have huse := uses_append hc sql
  rw [execute, Throwing.bind_of_ok (sqlOf_append hc sql), hsql, if_neg Bool.false_ne_true,
    Throwing.bind_of_ok huse, Throwing.bind_of_ok huse]
  cases (world c.attempts).done with
  | true => exact finalize_append hc sql
  | false =>
    rw [if_neg Bool.false_ne_true, Throwing.bind_of_ok huse,
      Throwing.bind_of_ok (finalize_append hc sql)]
    rfl

/-- and `query` what is one. -/
theorem query_append {c : Connection} (hc : c.Sound) {sql : String}
    (hsql : isReadonly sql = true) :
    query world c.attempts ⟨c.attempts + 1, c.live ++ [(c.attempts, sql)]⟩
      = (if (world c.attempts).done then .ok (world c.attempts).rows
          else .error (.thrown ("Query did not finish cleanly: " ++ (world c.attempts).errmsg)),
        ⟨c.attempts + 1, c.live⟩) := by
  have huse := uses_append hc sql
  rw [query, Throwing.bind_of_ok (sqlOf_append hc sql), hsql, if_pos rfl,
    Throwing.bind_of_ok huse, Throwing.bind_of_ok huse,
    Throwing.bind_of_ok (stepAll_append hc sql _)]
  cases (world c.attempts).done with
  | true =>
    rw [if_pos rfl, Throwing.bind_of_ok (finalize_append hc sql)]
    rfl
  | false =>
    rw [if_neg Bool.false_ne_true, Throwing.bind_of_ok huse,
      Throwing.bind_of_ok (finalize_append hc sql)]
    rfl

theorem ite_ne_misuse {b : Bool} {a : α} {what : String} :
    (if b then .ok a else .error (.thrown what) : Except StatementError α) ≠ .error .misuse := by
  cases b with
  | false => exact fun h => by cases h
  | true => exact fun h => by cases h

theorem Clean.change {sql : String} (hsql : isReadonly sql = false) :
    Clean (Sqlite.change world sql) :=
  .prepared fun c hc => by
    rw [Throwing.bind_of_ok (bindAll_append hc sql _), execute_append world hc hsql]
    exact ⟨rfl, ite_ne_misuse⟩

theorem Clean.selectBinding {sql : String} (hsql : isReadonly sql = true) (bound : ℕ) :
    Clean (Sqlite.selectBinding world sql bound) :=
  .prepared fun c hc => by
    rw [Throwing.bind_of_ok (bindAll_append hc sql _), query_append hc hsql]
    exact ⟨rfl, ite_ne_misuse⟩

theorem Clean.select {sql : String} (hsql : isReadonly sql = true) :
    Clean (Sqlite.select world sql) :=
  .selectBinding hsql _

theorem Clean.selectFirst {sql : String} (hsql : isReadonly sql = true) (missing : String) :
    Clean (Sqlite.selectFirst world sql missing) :=
  (Clean.select hsql).bind fun rows => by
    cases rows with
    | nil => exact .throw missing
    | cons row rows => exact .pure row

theorem Clean.decryptWithRow (data nonce : List UInt8) (keyRow : Row) :
    Clean (Sqlite.decryptWithRow C data nonce keyRow) :=
  (Clean.ofExcept _).bind fun _ => .ofExcept _

theorem Clean.decryptRow {keySql : String} (hsql : isReadonly keySql = true)
    (deviceColumn dataColumn : String) (row : Row) :
    Clean (Sqlite.decryptRow world C keySql deviceColumn dataColumn row) := by
  unfold Sqlite.decryptRow
  split
  · refine .caught ((Clean.select hsql).bind fun keyRows => ?_)
    cases keyRows with
    | nil => exact .pure none
    | cons keyRow keyRows =>
      exact (Clean.decryptWithRow _ _ keyRow).bind fun _ => .pure _
  · exact .pure none

end Clean

/-! ## All calls -/

/-- **A call** of what works on the database. -/
inductive StatementCall where
  | getEncryptedKeypair (label : String)
  | getDecryptedKeypair (label : String)
  | getPublicKey (label : String)
  | getDecryptedSk (label : String)
  | saveEncryptedKeypair
  | getEncryptedKey (label : String)
  | getDecryptedKey (label : String)
  | saveEncryptedKey
  | saveEncryptedOnetimeKeys (onetimeKeys : List Bool)
  | getOnetimePrivateKey (publicKey : Option (List UInt8))
  | saveEncryptedFileKey
  | getDecryptedFileKey
  | saveRatchetAndKeyByUsernameDevice
  | getDecryptedRatchet
  | getDecryptedRatchetByUsernameDevice
  | saveMessageAndKey
  | getDecryptedMessage
  | getDecryptedMessageByUsernameDevice
  | getAllDecryptedMessagesForUser
  | getAllDecryptedMessages
  | getAllDecryptedSentMessages
  | getAllDecryptedRatchets
  | getAllReceivedFileUuids
  | getAllSentFileUuids
  | getFileRecipients
  | deleteFileFromDatabase
  | getSignedPrekeyLastUpdated
  | dropAllTables

section Calls

variable (world : ℕ → StatementOutcome) (C : Decryption)

/-- What is returned is of no interest. -/
def discard {α : Type} (m : StatementM α) : StatementM Unit := do
  let _ ← m
  return ()

/-- What is done. -/
def StatementCall.run : StatementCall → StatementM Unit
  | getEncryptedKeypair label => discard (Sqlite.getEncryptedKeypair world label)
  | getDecryptedKeypair label => discard (Sqlite.getDecryptedKeypair world C label)
  | getPublicKey label => discard (Sqlite.getPublicKey world label)
  | getDecryptedSk label => discard (Sqlite.getDecryptedSk world C label)
  | saveEncryptedKeypair => Sqlite.saveEncryptedKeypair world
  | getEncryptedKey label => discard (Sqlite.getEncryptedKey world label)
  | getDecryptedKey label => discard (Sqlite.getDecryptedKey world C label)
  | saveEncryptedKey => Sqlite.saveEncryptedKey world
  | saveEncryptedOnetimeKeys onetimeKeys => Sqlite.saveEncryptedOnetimeKeys world onetimeKeys
  | getOnetimePrivateKey publicKey => discard (Sqlite.getOnetimePrivateKey world C publicKey)
  | saveEncryptedFileKey => Sqlite.saveEncryptedFileKey world
  | getDecryptedFileKey => discard (Sqlite.getDecryptedFileKey world C)
  | saveRatchetAndKeyByUsernameDevice => Sqlite.saveRatchetAndKeyByUsernameDevice world
  | getDecryptedRatchet => discard (Sqlite.getDecryptedRatchet world C)
  | getDecryptedRatchetByUsernameDevice =>
    discard (Sqlite.getDecryptedRatchetByUsernameDevice world C)
  | saveMessageAndKey => Sqlite.saveMessageAndKey world
  | getDecryptedMessage => discard (Sqlite.getDecryptedMessage world C)
  | getDecryptedMessageByUsernameDevice =>
    discard (Sqlite.getDecryptedMessageByUsernameDevice world C)
  | getAllDecryptedMessagesForUser => discard (Sqlite.getAllDecryptedMessagesForUser world C)
  | getAllDecryptedMessages => discard (Sqlite.getAllDecryptedMessages world C)
  | getAllDecryptedSentMessages => discard (Sqlite.getAllDecryptedSentMessages world C)
  | getAllDecryptedRatchets => discard (Sqlite.getAllDecryptedRatchets world C)
  | getAllReceivedFileUuids => discard (Sqlite.getAllReceivedFileUuids world)
  | getAllSentFileUuids => discard (Sqlite.getAllSentFileUuids world)
  | getFileRecipients => discard (Sqlite.getFileRecipients world)
  | deleteFileFromDatabase => Sqlite.deleteFileFromDatabase world
  | getSignedPrekeyLastUpdated => discard (Sqlite.getSignedPrekeyLastUpdated world)
  | dropAllTables => discard (Sqlite.dropAllTables world)

/-- **The statements a loop over one-time keys leaves**, the next statement
being the `n`th: the ones that can be prepared for keys that are not all
there. -/
def leftOver : List Bool → ℕ → List ℕ
  | [], _ => []
  | valid :: onetimeKeys, n =>
    (if !valid && (world n).prepared then [n] else []) ++ leftOver onetimeKeys (n + 1)

/-- The statements a call leaves. -/
def StatementCall.leaves (call : StatementCall) (c : Connection) : List ℕ :=
  match call with
  | saveEncryptedOnetimeKeys onetimeKeys => leftOver world onetimeKeys c.attempts
  | _ => []

variable {world C}

theorem Clean.discard {α : Type} {m : StatementM α} (hm : Clean m) : Clean (Sqlite.discard m) :=
  hm.bind fun _ => .pure ()

theorem Clean.getEncryptedKeypair (label : String) :
    Clean (Sqlite.getEncryptedKeypair world label) :=
  (Clean.selectFirst (by decide +kernel) _).bind fun _ => .pure _

theorem Clean.getDecryptedKeypair (label : String) :
    Clean (Sqlite.getDecryptedKeypair world C label) :=
  (Clean.getEncryptedKeypair label).bind fun _ => (Clean.ofExcept _).bind fun _ => .pure _

theorem Clean.getEncryptedKey (label : String) : Clean (Sqlite.getEncryptedKey world label) :=
  (Clean.selectFirst (by decide +kernel) _).bind fun _ => .pure _

/-- Data and its key, each of its row. -/
theorem Clean.decrypted {sql keySql : String} (hsql : isReadonly sql = true)
    (hkeySql : isReadonly keySql = true) (missing missingKey column : String) :
    Clean (do
      let row ← Sqlite.selectFirst world sql missing
      let keyRow ← Sqlite.selectFirst world keySql missingKey
      Sqlite.decryptWithRow C (row column) (row "nonce") keyRow) :=
  (Clean.selectFirst hsql missing).bind fun _ =>
    (Clean.selectFirst hkeySql missingKey).bind fun keyRow => .decryptWithRow _ _ keyRow

/-- A list of what is stored. -/
theorem Clean.listed {sql keySql : String} (hsql : isReadonly sql = true)
    (hkeySql : isReadonly keySql = true) (deviceColumn dataColumn : String)
    (among : List Row → List Row) :
    Clean (do
      let rows ← Sqlite.select world sql
      StatementM.collect (Sqlite.decryptRow world C keySql deviceColumn dataColumn)
        (among rows)) :=
  (Clean.select hsql).bind fun rows =>
    .collect (Clean.decryptRow hkeySql deviceColumn dataColumn) (among rows)

theorem Clean.getOnetimePrivateKey (publicKey : Option (List UInt8)) :
    Clean (Sqlite.getOnetimePrivateKey world C publicKey) := by
  cases publicKey with
  | none => exact .pure none
  | some bytes =>
    refine (Clean.select (by decide +kernel)).bind fun rows => ?_
    cases rows with
    | nil => exact .pure none
    | cons row rows => exact (Clean.ofExcept _).bind fun _ => .pure _

theorem Clean.dropAllTables : Clean (Sqlite.dropAllTables world) := by
  refine .caught (.prepared fun c hc => ?_)
  rw [Throwing.bind_of_ok (stepAll_append hc _ _), Throwing.bind_of_ok (finalize_append hc _)]
  exact ⟨rfl, fun h => by cases h⟩

/-- **Every call but that of one-time keys leaves no statement.** -/
theorem StatementCall.clean_run {call : StatementCall}
    (hcall : ∀ onetimeKeys, call ≠ saveEncryptedOnetimeKeys onetimeKeys) :
    Clean (call.run world C) := by
  cases call with
  | getEncryptedKeypair label => exact (Clean.getEncryptedKeypair label).discard
  | getDecryptedKeypair label => exact (Clean.getDecryptedKeypair label).discard
  | getPublicKey label =>
    exact Clean.discard ((Clean.getEncryptedKeypair label).bind fun _ => .pure _)
  | getDecryptedSk label =>
    exact Clean.discard ((Clean.getDecryptedKeypair label).bind fun _ => .pure _)
  | saveEncryptedKeypair => exact .change (by decide +kernel)
  | getEncryptedKey label => exact (Clean.getEncryptedKey label).discard
  | getDecryptedKey label =>
    exact Clean.discard ((Clean.getEncryptedKey label).bind fun _ => .ofExcept _)
  | saveEncryptedKey => exact .change (by decide +kernel)
  | saveEncryptedOnetimeKeys onetimeKeys => exact absurd rfl (hcall onetimeKeys)
  | getOnetimePrivateKey publicKey => exact (Clean.getOnetimePrivateKey publicKey).discard
  | saveEncryptedFileKey => exact .change (by decide +kernel)
  | getDecryptedFileKey =>
    exact Clean.discard ((Clean.selectFirst (by decide +kernel) _).bind fun _ => .ofExcept _)
  | saveRatchetAndKeyByUsernameDevice =>
    exact (Clean.change (by decide +kernel)).bind fun _ => .change (by decide +kernel)
  | getDecryptedRatchet => exact (Clean.decrypted (by decide +kernel) (by decide +kernel) _ _ _).discard
  | getDecryptedRatchetByUsernameDevice =>
    exact (Clean.decrypted (by decide +kernel) (by decide +kernel) _ _ _).discard
  | saveMessageAndKey =>
    exact (Clean.change (by decide +kernel)).bind fun _ => .change (by decide +kernel)
  | getDecryptedMessage => exact (Clean.decrypted (by decide +kernel) (by decide +kernel) _ _ _).discard
  | getDecryptedMessageByUsernameDevice =>
    exact (Clean.decrypted (by decide +kernel) (by decide +kernel) _ _ _).discard
  | getAllDecryptedMessagesForUser =>
    exact (Clean.listed (by decide +kernel) (by decide +kernel) _ _ id).discard
  | getAllDecryptedMessages =>
    exact (Clean.listed (by decide +kernel) (by decide +kernel) _ _ firstOfFile).discard
  | getAllDecryptedSentMessages =>
    exact (Clean.listed (by decide +kernel) (by decide +kernel) _ _ firstOfFile).discard
  | getAllDecryptedRatchets => exact (Clean.listed (by decide +kernel) (by decide +kernel) _ _ id).discard
  | getAllReceivedFileUuids =>
    exact Clean.discard ((Clean.select (by decide +kernel)).bind fun _ => .pure _)
  | getAllSentFileUuids =>
    exact Clean.discard ((Clean.selectBinding (by decide +kernel) 2).bind fun _ => .pure _)
  | getFileRecipients => exact Clean.discard ((Clean.select (by decide +kernel)).bind fun _ => .pure _)
  | deleteFileFromDatabase =>
    exact (Clean.change (by decide +kernel)).bind fun _ =>
      (Clean.change (by decide +kernel)).bind fun _ => .change (by decide +kernel)
  | getSignedPrekeyLastUpdated =>
    exact Clean.discard ((Clean.select (by decide +kernel)).bind fun _ => .pure _)
  | dropAllTables => exact Clean.dropAllTables.discard

/-! ### The loop over one-time keys -/

/-- The connection after a round: a statement is left for a key that is not all
there. -/
def afterRound (world : ℕ → StatementOutcome) (valid : Bool) (c : Connection) : Connection where
  attempts := c.attempts + 1
  live := c.live ++ if !valid && (world c.attempts).prepared then [(c.attempts, onetimeSql)] else []

/-- **A round**, in which whatever is thrown is caught. -/
theorem exists_saveOnetimeRound (world : ℕ → StatementOutcome) {c : Connection}
    (hc : c.Sound) (valid : Bool) :
    ∃ saved, saveOnetimeRound world valid c = (.ok saved, afterRound world valid c) := by
  unfold saveOnetimeRound StatementM.caught afterRound
  cases hprepared : (world c.attempts).prepared with
  | false =>
    have hprepare : prepareOrThrow world onetimeSql c
        = (.error (.thrown ("Failed to prepare statement:" ++ (world c.attempts).errmsg)),
          ⟨c.attempts + 1, c.live⟩) := by
      rw [prepareOrThrow, hprepared, if_neg Bool.false_ne_true]
    rw [Throwing.bind_of_error hprepare, Bool.and_false, if_neg Bool.false_ne_true,
      List.append_nil]
    exact ⟨none, rfl⟩
  | true =>
    have hprepare : prepareOrThrow world onetimeSql c
        = (.ok c.attempts, ⟨c.attempts + 1, c.live ++ [(c.attempts, onetimeSql)]⟩) := by
      rw [prepareOrThrow, hprepared, if_pos rfl]
    rw [Throwing.bind_of_ok hprepare]
    cases valid with
    | false => exact ⟨none, rfl⟩
    | true =>
      have hreadonly : isReadonly onetimeSql = false := by decide +kernel
      have hexecute := execute_append world hc hreadonly
      rw [if_pos rfl, Throwing.bind_of_ok (bindAll_append hc _ _), Bool.not_true,
        Bool.false_and, if_neg Bool.false_ne_true, List.append_nil]
      cases hdone : (world c.attempts).done with
      | false =>
        rw [hdone, if_neg Bool.false_ne_true] at hexecute
        rw [Throwing.bind_of_error hexecute]
        exact ⟨none, rfl⟩
      | true =>
        rw [hdone, if_pos rfl] at hexecute
        rw [Throwing.bind_of_ok hexecute]
        exact ⟨some (), rfl⟩

theorem sound_afterRound {c : Connection} (hc : c.Sound) (valid : Bool) :
    (afterRound world valid c).Sound := by
  intro stmt hstmt
  rcases List.mem_append.mp hstmt with hstmt | hstmt
  · exact Nat.lt_succ_of_lt (hc stmt hstmt)
  · split at hstmt
    · rw [List.mem_singleton.mp hstmt]
      exact Nat.lt_succ_self _
    · cases hstmt

/-- **So the loop leaves those of all rounds.** -/
theorem saveEncryptedOnetimeKeys_live (world : ℕ → StatementOutcome) {c : Connection}
    (hc : c.Sound) (onetimeKeys : List Bool) :
    (saveEncryptedOnetimeKeys world onetimeKeys c).1 = .ok ()
      ∧ (saveEncryptedOnetimeKeys world onetimeKeys c).2.Sound
      ∧ (saveEncryptedOnetimeKeys world onetimeKeys c).2.live
        = c.live ++ (leftOver world onetimeKeys c.attempts).map (·, onetimeSql) := by
  induction onetimeKeys generalizing c with
  | nil => exact ⟨rfl, hc, (List.append_nil _).symm⟩
  | cons valid onetimeKeys ih =>
    obtain ⟨saved, hround⟩ := exists_saveOnetimeRound world hc valid
    have hrun : saveEncryptedOnetimeKeys world (valid :: onetimeKeys) c
        = saveEncryptedOnetimeKeys world onetimeKeys (afterRound world valid c) := by
      rw [saveEncryptedOnetimeKeys, Throwing.bind_of_ok hround]
    obtain ⟨hok, hsound, hlive⟩ := ih (sound_afterRound hc valid)
    rw [hrun]
    refine ⟨hok, hsound, ?_⟩
    rw [hlive, leftOver, List.map_append, ← List.append_assoc]
    congr 1
    rw [afterRound]
    split <;> rfl

/-! ### Runs -/

/-- **A call**: no misuse, and the statements it leaves. -/
theorem StatementCall.run_live (world : ℕ → StatementOutcome) (C : Decryption)
    (call : StatementCall) {c : Connection} (hc : c.Sound) :
    (call.run world C c).1 ≠ .error .misuse ∧ (call.run world C c).2.Sound
      ∧ (call.run world C c).2.live
        = c.live ++ (call.leaves world c).map (·, onetimeSql) := by
  by_cases hcall : ∃ onetimeKeys, call = saveEncryptedOnetimeKeys onetimeKeys
  · obtain ⟨onetimeKeys, rfl⟩ := hcall
    obtain ⟨hok, hsound, hlive⟩ := saveEncryptedOnetimeKeys_live world hc onetimeKeys
    refine ⟨fun h => ?_, hsound, hlive⟩
    cases hok.symm.trans h
  · have hother : ∀ onetimeKeys, call ≠ saveEncryptedOnetimeKeys onetimeKeys :=
      fun onetimeKeys heq => hcall ⟨onetimeKeys, heq⟩
    have hclean : Clean (call.run world C) := clean_run hother
    obtain ⟨hsound, hlive, hmisuse⟩ := hclean c hc
    have hleaves : call.leaves world c = [] := by
      cases call with
      | saveEncryptedOnetimeKeys onetimeKeys => exact absurd rfl (hother onetimeKeys)
      | _ => rfl
    rw [hleaves, List.map_nil, List.append_nil]
    exact ⟨hmisuse, hsound, hlive⟩

/-- What is left stays left. -/
theorem run_closes (world : ℕ → StatementOutcome) (C : Decryption) {c : Connection} (hc : c.Sound)
    (calls : List StatementCall) :
    Throwing.Along (StatementCall.run world C)
        (fun call c => (call.run world C c).1 ≠ .error .misuse) calls c
      ∧ ((Throwing.after (StatementCall.run world C) calls c).closes
        ↔ c.closes ∧ Throwing.Along (StatementCall.run world C)
          (fun call c => call.leaves world c = []) calls c) := by
  induction calls generalizing c with
  | nil => exact ⟨trivial, ⟨fun h => ⟨h, trivial⟩, fun h => h.1⟩⟩
  | cons call calls ih =>
    obtain ⟨hmisuse, hsound, hlive⟩ := call.run_live world C hc
    obtain ⟨halong, hcloses⟩ := ih hsound
    refine ⟨⟨hmisuse, halong⟩, hcloses.trans ?_⟩
    rw [Connection.closes, hlive, List.append_eq_nil_iff, List.map_eq_nil_iff, and_assoc]
    exact Iff.rfl

end Calls

/-- **The database can be closed exactly if no statement was prepared for a
one-time key that is not all there**, whatever was called on it and whatever
failed; and SQLite was not misused. -/
theorem closes_iff (world : ℕ → StatementOutcome) (C : Decryption) (calls : List StatementCall) :
    Throwing.Along (StatementCall.run world C)
        (fun call c => (call.run world C c).1 ≠ .error .misuse) calls ⟨0, []⟩
      ∧ ((Throwing.after (StatementCall.run world C) calls ⟨0, []⟩).closes
        ↔ Throwing.Along (StatementCall.run world C)
          (fun call c => call.leaves world c = []) calls ⟨0, []⟩) := by
  have hstart : Connection.Sound ⟨0, []⟩ := fun stmt hstmt => absurd hstmt List.not_mem_nil
  obtain ⟨halong, hcloses⟩ := run_closes world C hstart calls
  exact ⟨halong, hcloses.trans ⟨fun h => h.2, fun h => ⟨rfl, h⟩⟩⟩

end Sqlite
