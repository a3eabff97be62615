import Eastwood.FileBinding

/-!
# Messages at rest

The key a message carries is not stored as it is. It is encrypted once more,
under a key drawn for the row, and that key under the KEK; the two
ciphertexts go into the tables `messages` and `message_keys`, under the same
file. Ratchets are stored the same way.

The rest of the development works with what is in the rows. It may: read
through both layers, a table gives what a store keeps
(`SealedMessages.Holds.getDecryptedMessage_eq`), as long as the KEK is the
one it was written under, and whatever `update_messages` makes of a batch, it
makes of both (`SealedMessages.Holds.afterMessages`).
-/

variable {K : Type}

/-- **What is stored of some bytes**: their ciphertext, and that of the key
they are under, each with its nonce. -/
structure Envelope where
  encryptedData : List UInt8
  nonce : List UInt8
  encryptedKey : List UInt8
  keyNonce : List UInt8
  deriving DecidableEq

/-- What is drawn for it. -/
structure EnvelopeDraws (K : Type) where
  key : K
  nonce : List UInt8
  keyNonce : List UInt8

/-- A row of `messages` with its row of `message_keys`. -/
structure SealedMessage (K : Type) where
  username : String
  fromDeviceId : K
  envelope : Envelope
  isSender : Bool
  deriving DecidableEq

/-- The two tables. -/
abbrev SealedMessages (K : Type) := Finmap fun _ : String => SealedMessage K

section Operations

variable (A : Aead K) (B : KeyBytes K) (kek : K)

/-- `encrypt_message_with_nonce` under a key drawn for it, and
`encrypt_symmetric_key` of that key. -/
def Envelope.enclose (draws : EnvelopeDraws K) (data : List UInt8) : Envelope where
  encryptedData := A.encrypt draws.nonce data draws.key
  nonce := draws.nonce
  encryptedKey := A.encrypt draws.keyNonce (B.bytes draws.key) kek
  keyNonce := draws.keyNonce

/-- `decrypt_symmetric_key`, and `decrypt_message_with_nonce` under what it
returns. -/
def Envelope.contents (e : Envelope) : Except Fault (List UInt8) := do
  let decryptedKey ← orThrow "Failed to decrypt kek" (A.decrypt e.keyNonce e.encryptedKey kek)
  orThrow "Failed to decrypt file" (A.decrypt e.nonce e.encryptedData (B.keyAt decryptedKey))

/-- The row of a message. -/
def StoredMessage.enclosed (draws : EnvelopeDraws K) (m : StoredMessage K) : SealedMessage K where
  username := m.username
  fromDeviceId := m.fromDeviceId
  envelope := .enclose A B kek draws m.message
  isSender := m.isSender

namespace SealedMessages

/-- **`save_message_and_key`**: `INSERT OR REPLACE` into both tables. -/
def saveMessageAndKey (fileUuid : String) (row : SealedMessage K) (table : SealedMessages K) :
    SealedMessages K :=
  table.insert fileUuid row

/-- **`get_decrypted_message`**, of what is in the tables. -/
def getDecryptedMessage (fileUuid : String) (table : SealedMessages K) :
    Except Fault (List UInt8) := do
  let row ← orThrow "No message found with the given file_uuid" (table.lookup fileUuid)
  row.envelope.contents A B kek

/-- **The tables hold some messages**: the same files have a row, and every
row opens to its message. -/
def Holds (table : SealedMessages K) (messages : Finmap fun _ : String => StoredMessage K) : Prop :=
  ∀ file, (table.lookup file).map (fun row =>
      (row.username, row.fromDeviceId, row.envelope.contents A B kek, row.isSender))
    = (messages.lookup file).map fun m => (m.username, m.fromDeviceId, .ok m.message, m.isSender)

end SealedMessages

end Operations

section Facts

variable {A : Aead K} {B : KeyBytes K} {kek : K} {table : SealedMessages K} {s : SessionStore K}

/-- **What was sealed is read**, whatever it is, also nothing. -/
theorem Envelope.contents_enclose (hA : A.Ideal) (draws : EnvelopeDraws K) (data : List UInt8) :
    (Envelope.enclose A B kek draws data).contents A B kek = .ok data := by
  have hkey : A.decrypt draws.keyNonce (A.encrypt draws.keyNonce (B.bytes draws.key) kek) kek
      = some (B.bytes draws.key) := hA.opens ..
  have hdata : A.decrypt draws.nonce (A.encrypt draws.nonce data draws.key) draws.key
      = some data := hA.opens ..
  unfold contents enclose
  simp only [hkey, orThrow, ok_bind, B.keyAt_bytes, hdata]

namespace SealedMessages

/-- A table that holds a store's messages answers as the store does. -/
theorem Holds.getDecryptedMessage_eq (h : table.Holds A B kek s.messages) (file : String) :
    table.getDecryptedMessage A B kek file = s.getDecryptedMessage file := by
  have hfile := h file
  unfold SealedMessages.getDecryptedMessage SessionStore.getDecryptedMessage
  cases hrow : table.lookup file with
  | none =>
    rw [hrow, Option.map_none] at hfile
    rw [Option.map_eq_none_iff.mp hfile.symm]
    rfl
  | some row =>
    rw [hrow] at hfile
    obtain ⟨m, hm, heq⟩ := Option.map_eq_some_iff.mp hfile.symm
    rw [hm]
    exact (congrArg (fun t => t.2.2.1) heq).symm

/-- **Saving a message** keeps it so. -/
theorem Holds.saveMessage (hA : A.Ideal) (h : table.Holds A B kek s.messages)
    (draws : EnvelopeDraws K) (file : String) (m : StoredMessage K) :
    (table.saveMessageAndKey file (m.enclosed A B kek draws)).Holds A B kek
      (s.saveMessage file m).messages := by
  intro f
  unfold saveMessageAndKey SessionStore.saveMessage
  by_cases hf : f = file
  · subst hf
    rw [Finmap.lookup_insert, Finmap.lookup_insert]
    show some (m.username, m.fromDeviceId, _, m.isSender) = some _
    rw [StoredMessage.enclosed, Envelope.contents_enclose hA]
  · rw [Finmap.lookup_insert_of_ne _ hf, Finmap.lookup_insert_of_ne _ hf]
    exact h f

variable [LinearOrder K] {S : Sodium K}

/-- The tables after one round of `update_messages`. -/
def afterMessage (S : Sodium K) (A : Aead K) (B : KeyBytes K) (kek : K) (m : Incoming K)
    (draws : EnvelopeDraws K) (s : SessionStore K) (table : SealedMessages K) :
    SealedMessages K :=
  match (s.getKeyForDevice S m.fresh m.username m.message.header).1 with
  | .error _ => table
  | .ok key =>
    match decryptMessageGivenKey A m.message.ciphertext key with
    | .error _ => table
    | .ok decrypted => table.saveMessageAndKey m.message.header.fileUuid
        (StoredMessage.enclosed A B kek draws
          ⟨m.username, m.message.header.deviceId, decrypted, false⟩)

/-- The tables after all of them, or after the one that throws. -/
def afterMessages (S : Sodium K) (A : Aead K) (B : KeyBytes K) (kek : K) :
    List (Incoming K × EnvelopeDraws K) → SessionStore K → SealedMessages K → SealedMessages K
  | [], _, table => table
  | (m, draws) :: ms, s, table =>
    let table := table.afterMessage S A B kek m draws s
    match (updateMessage S A m s).result with
    | .error _ => table
    | .ok () => afterMessages S A B kek ms (updateMessage S A m s).store table

/-- One round does the same to the tables as to the store, -/
theorem Holds.afterMessage (hA : A.Ideal) (h : table.Holds A B kek s.messages) (m : Incoming K)
    (draws : EnvelopeDraws K) :
    (table.afterMessage S A B kek m draws s).Holds A B kek
      (updateMessage S A m s).store.messages := by
  have hkept : (s.getKeyForDevice S m.fresh m.username m.message.header).2.messages = s.messages :=
    SessionStore.messages_getKeyForDevice m.fresh m.message.header
  unfold SealedMessages.afterMessage updateMessage
  rcases hk : s.getKeyForDevice S m.fresh m.username m.message.header with ⟨result, st⟩
  rw [hk] at hkept
  cases result with
  | error e => exact hkept ▸ h
  | ok key =>
    simp only
    cases decryptMessageGivenKey A m.message.ciphertext key with
    | error e => exact hkept ▸ h
    | ok decrypted => exact Holds.saveMessage (s := st) hA (hkept ▸ h) draws _ _

/-- **and so does a batch.** -/
theorem Holds.afterMessages (hA : A.Ideal) (h : table.Holds A B kek s.messages)
    (ms : List (Incoming K × EnvelopeDraws K)) :
    (table.afterMessages S A B kek ms s).Holds A B kek
      (updateMessages S A (ms.map Prod.fst) s).store.messages := by
  induction ms generalizing s table with
  | nil => exact h
  | cons m ms ih =>
    obtain ⟨m, draws⟩ := m
    have hround := h.afterMessage (S := S) hA m draws
    show (match (updateMessage S A m s).result with
      | .error _ => _ | .ok () => _ : SealedMessages K).Holds A B kek
        ((updateMessage S A m s).andThen (updateMessages S A (ms.map Prod.fst))).store.messages
    cases hresult : (updateMessage S A m s).result with
    | error e =>
      rw [Polled.andThen, hresult]
      exact hround
    | ok _ =>
      rw [Polled.andThen_ok hresult]
      exact ih hround

end SealedMessages

end Facts
