import Eastwood.FileListing
import Eastwood.Handshake

/-!
# Sending a file

`send_file_to` draws a key encryption key, uploads the file under it and lets
a user have it: asks for the bundles of their new devices if it is told to,
takes a key from each session, posts one message to each device, and stores
what it sent.

There may be no session, and then there is no message, no request, and
nothing is thrown: the call returns what it would have returned. That is
visible in what it accomplished (`sendFileTo_cases`): the messages
`/sendMessage` accepted, of which there may be none.
-/

variable (S : Sodium Key) (A : Aead Key) (B : KeyBytes Key) (ks : KeyStore Key)

/-- `MAX_FILE_SIZE_BYTES`. -/
def maxFileSizeBytes : ℕ := 250 * 1024

/-- What `send_file_to` draws. -/
structure SendDraws where
  fKek : Key
  upload : UploadDraws Key
  nonce : Key → AeadNonce

/-- What the server answers to it. -/
structure SendServer where
  uploadFile : Json → Except Fault Json
  sendMessage : Json → Except Fault Unit

/-- Messages that are posted, as `post_ratchet_message` takes them. -/
def posted (messages : List (Key × Key × DeviceMessage Key)) : List (Key × DeviceMessage Key) :=
  messages.map fun (device, _, m) => (device, m)

/-- `allow_access_to_file`, once it has the bundles of new devices, or was
not to ask for them: the messages that were accepted, each with its device
and its key. -/
def postAccess (myUsername username uuid : String) (fKek : List UInt8) (nonce : Key → AeadNonce)
    (bundles : Option (List (SendingKeyBundle Key))) (sendMessage : Json → Except Fault Unit)
    (s : SessionStore Key) : Outcome Key (List (Key × Key × DeviceMessage Key)) :=
  let allowed := allowAccessToFile S A ks username uuid fKek (fun device => (nonce device).1)
    bundles s
  match allowed.result with
  | .error e => ⟨.error e, allowed.posted, allowed.store⟩
  | .ok messages =>
    if messages = [] then ⟨.ok [], allowed.posted, allowed.store⟩
    else
      match ratchetMessagesBody ks myUsername (posted messages) >>= sendMessage with
      -- what was sent is stored after the post
      | .error e => ⟨.error e, allowed.posted, (s.getKeysForIdentity S ks username bundles).store⟩
      | .ok () => ⟨.ok messages, allowed.posted, allowed.store⟩

/-- **`allow_access_to_file`** up to its end, `newBundles` being what
`get_keybundles` does if it is asked. -/
def allowAccess (myUsername username uuid : String) (fKek : List UInt8) (nonce : Key → AeadNonce)
    (newBundles : Option (Except Fault (List (SendingKeyBundle Key))))
    (sendMessage : Json → Except Fault Unit) (s : SessionStore Key) :
    Outcome Key (List (Key × Key × DeviceMessage Key)) :=
  match newBundles with
  | none => postAccess S A ks myUsername username uuid fKek nonce none sendMessage s
  | some (.error e) => ⟨.error e, [], s⟩
  | some (.ok bundles) =>
    postAccess S A ks myUsername username uuid fKek nonce (some bundles) sendMessage s

/-- **`send_file_to`**, given what can be read of the file: the file's id, and
the messages that were accepted. -/
def sendFileTo (myUsername username filePath : String) (file : Option (List UInt8))
    (metadata : FileMetadata) (draws : SendDraws) (server : SendServer)
    (newBundles : Option (Except Fault (List (SendingKeyBundle Key)))) (s : SessionStore Key) :
    Outcome Key (String × List (Key × Key × DeviceMessage Key)) :=
  let uuid := do
    let record ← uploadFile A B filePath file metadata draws.fKek draws.upload
    postUploadFile server.uploadFile record
  match uuid with
  | .error e => ⟨.error e, [], s⟩
  | .ok uuid =>
    let access := allowAccess S A ks myUsername username uuid (B.bytes draws.fKek) draws.nonce
      newBundles server.sendMessage s
    ⟨access.result.map (uuid, ·), access.posted, access.store⟩

section Facts

variable {S} {A} {B} {ks} {myUsername username filePath uuid : String} {fKek : List UInt8}
variable {nonce : Key → AeadNonce}
variable {newBundles : Option (Except Fault (List (SendingKeyBundle Key)))}
variable {sendMessage : Json → Except Fault Unit} {s : SessionStore Key}
variable {messages : List (Key × Key × DeviceMessage Key)}

/-- **The messages made** are one for each key `get_keys_for_identity`
returned. -/
theorem allowAccessToFile_cases {nonce : Key → List UInt8}
    {bundles : Option (List (SendingKeyBundle Key))}
    (h : (allowAccessToFile S A ks username uuid fKek nonce bundles s).result = .ok messages) :
    ∃ keys, (s.getKeysForIdentity S ks username bundles).result = .ok keys
      ∧ messages = keys.map fun e =>
        (e.1, e.2.1, deviceMessage A uuid (nonce e.1) fKek e.2.1 e.2.2) := by
  unfold allowAccessToFile at h
  cases hkeys : (s.getKeysForIdentity S ks username bundles).result with
  | error e =>
    simp only [hkeys] at h
    cases h
  | ok keys =>
    simp only [hkeys] at h
    exact ⟨keys, rfl, (Except.ok.inj h).symm⟩

/-- **Messages that were accepted** are those made for the sessions with the
user, and were posted, if there are any. -/
theorem postAccess_cases {bundles : Option (List (SendingKeyBundle Key))}
    (h : (postAccess S A ks myUsername username uuid fKek nonce bundles sendMessage s).result
      = .ok messages) :
    (allowAccessToFile S A ks username uuid fKek (fun device => (nonce device).1) bundles
        s).result = .ok messages
      ∧ (messages ≠ [] → ∃ body, ratchetMessagesBody ks myUsername (posted messages) = .ok body
        ∧ sendMessage body = .ok ()) := by
  unfold postAccess at h
  cases hallowed : (allowAccessToFile S A ks username uuid fKek
      (fun device => (nonce device).1) bundles s).result with
  | error e =>
    simp only [hallowed] at h
    cases h
  | ok messages' =>
    simp only [hallowed] at h
    by_cases hnil : messages' = []
    · rw [if_pos hnil] at h
      obtain rfl := Except.ok.inj h
      exact ⟨congrArg _ hnil, fun hne => absurd rfl hne⟩
    · rw [if_neg hnil] at h
      cases hpost : ratchetMessagesBody ks myUsername (posted messages') >>= sendMessage with
      | error e =>
        rw [hpost] at h
        cases h
      | ok _ =>
        rw [hpost] at h
        obtain rfl := Except.ok.inj h
        exact ⟨rfl, fun _ => exists_of_bind_eq_ok hpost⟩

/-- So they are with the bundles `get_keybundles` returned. -/
theorem allowAccess_cases (h : (allowAccess S A ks myUsername username uuid fKek nonce newBundles
      sendMessage s).result = .ok messages) :
    ∃ bundles, newBundles = bundles.map .ok
      ∧ (postAccess S A ks myUsername username uuid fKek nonce bundles sendMessage s).result
        = .ok messages := by
  match newBundles with
  | none => exact ⟨none, rfl, h⟩
  | some (.error e) => cases h
  | some (.ok bundles) => exact ⟨some bundles, rfl, h⟩

variable {file : Option (List UInt8)} {metadata : FileMetadata} {draws : SendDraws}
variable {server : SendServer}

/-- **What a send that returned accomplished**: the file is uploaded, and the
messages are the accepted ones of `allow_access_to_file`. -/
theorem sendFileTo_cases (h : (sendFileTo S A B ks myUsername username filePath file metadata draws
      server newBundles s).result = .ok (uuid, messages)) :
    (∃ record, uploadFile A B filePath file metadata draws.fKek draws.upload = .ok record
        ∧ postUploadFile server.uploadFile record = .ok uuid)
      ∧ (allowAccess S A ks myUsername username uuid (B.bytes draws.fKek) draws.nonce newBundles
        server.sendMessage s).result = .ok messages := by
  unfold sendFileTo at h
  cases hup : (do
      let record ← uploadFile A B filePath file metadata draws.fKek draws.upload
      postUploadFile server.uploadFile record) with
  | error e =>
    simp only [hup] at h
    cases h
  | ok uuid' =>
    simp only [hup] at h
    cases haccess : (allowAccess S A ks myUsername username uuid' (B.bytes draws.fKek) draws.nonce
        newBundles server.sendMessage s).result with
    | error e =>
      rw [haccess] at h
      cases h
    | ok messages' =>
      rw [haccess] at h
      obtain ⟨rfl, rfl⟩ := Prod.mk.inj (Except.ok.inj h)
      exact ⟨exists_of_bind_eq_ok hup, haccess⟩

end Facts

/-! ## A server that takes everything -/

/-- Keys of one byte, and nonces of zeros. -/
def SendDraws.repeated : SendDraws where
  fKek := .repeated 7
  upload := ⟨.repeated 6, FileRecord.zeroNonce, FileRecord.zeroNonce, FileRecord.zeroNonce⟩
  nonce _ := FileRecord.zeroNonce

/-- Whatever is uploaded gets the id `report`, and every message is
accepted. -/
def SendServer.accepting : SendServer where
  uploadFile _ := .ok (.obj [("data", .obj [("file_id", .str "report")])])
  sendMessage _ := .ok ()
