import Eastwood.JsonText
import Eastwood.MessageFlow
import Mathlib.Data.Nat.Digits.Lemmas

/-!
# Files and who can read them

A file and its metadata are stored at the server under a **file key**, the
file key beside them under a **key encryption key**, and that one is what the
messages carry. `refreshAccess` is to shut out whoever is not allowed any
more: it draws both keys afresh, replaces the stored file key and sends the
new key encryption key to those who still are.

The file itself is not encrypted again. What is delivered opens the stored
file key, and that key opens nothing
(`FileRecord.readable_iff_of_refreshAccess`): those still allowed lose the
file with everybody else. The same path right after `uploadFile` opens
everything but the empty file (`FileRecord.readable_iff_of_uploadFile`).
-/

variable {K : Type}

/-! ## What is assumed of the cipher -/

/-- A cipher opens what it encrypted, and under no other key. -/
structure Aead.Ideal (A : Aead K) : Prop where
  opens : ∀ n m k, A.decrypt n (A.encrypt n m k) k = some m
  opens_only : ∀ n m k k', (A.decrypt n (A.encrypt n m k) k').isSome → k' = k
  tagged : ∀ n m k, tagBytes ≤ (A.encrypt n m k).length

/-- **Keys as data**: the bytes of a key, and the key read at a pointer to
them. -/
structure KeyBytes (K : Type) where
  bytes : K → List UInt8
  keyAt : List UInt8 → K
  keyAt_bytes : ∀ k, keyAt (bytes k) = k
  bytes_ne_nil : ∀ k, bytes k ≠ []

/-- A nonce of the cipher. -/
abbrev AeadNonce := { bytes : List UInt8 // bytes.length = nonceBytes }

section Cipher

variable {A : Aead K} (hA : A.Ideal) (nonce : AeadNonce) (message : List UInt8) (key : K)
include hA

/-- What was encrypted is long enough to be decrypted, and is taken apart
where it was put together. -/
theorem decryptMessageGivenKey_encrypt (key' : K) :
    decryptMessageGivenKey A (encryptMessageGivenKey A nonce.1 message key) key'
      = orThrow "Failed to decrypt message: authentication failed or corrupted data"
          (A.decrypt nonce.1 (A.encrypt nonce.1 message key) key') := by
  have hdrop : (encryptMessageGivenKey A nonce.1 message key).drop nonceBytes
      = A.encrypt nonce.1 message key := List.drop_left' nonce.2
  have htake : (encryptMessageGivenKey A nonce.1 message key).take nonceBytes = nonce.1 :=
    List.take_left' nonce.2
  have hlong : ¬ (encryptMessageGivenKey A nonce.1 message key).length < nonceBytes := by
    rw [encryptMessageGivenKey, List.length_append, nonce.2]
    exact Nat.not_lt.mpr (Nat.le_add_right ..)
  unfold decryptMessageGivenKey
  rw [if_neg hlong]
  show (if _ then _ else _) = _
  rw [hdrop, htake, if_neg (Nat.not_lt.mpr (hA.tagged ..))]

/-- Under its key it is the message, -/
theorem decryptMessageGivenKey_self :
    decryptMessageGivenKey A (encryptMessageGivenKey A nonce.1 message key) key
      = .ok message := by
  rw [decryptMessageGivenKey_encrypt hA, hA.opens]
  rfl

variable {nonce} {message} {key} in
/-- and what decrypts was encrypted under that key. -/
theorem eq_of_decryptMessageGivenKey {key' : K} {message' : List UInt8}
    (h : decryptMessageGivenKey A (encryptMessageGivenKey A nonce.1 message key) key'
      = .ok message') : key' = key ∧ message' = message := by
  have hkey : key' = key := by
    rw [decryptMessageGivenKey_encrypt hA] at h
    refine hA.opens_only nonce.1 message key key' ?_
    cases hd : A.decrypt nonce.1 (A.encrypt nonce.1 message key) key' with
    | none =>
      rw [hd] at h
      cases h
    | some _ => rfl
  refine ⟨hkey, ?_⟩
  rw [hkey, decryptMessageGivenKey_self hA] at h
  exact (Except.ok.inj h).symm

end Cipher

/-! ## Uploading -/

/-- What the recipients are shown of a file. -/
structure FileMetadata where
  name : String
  size : ℤ
  mimeType : String

/-- The text that is encrypted of it. A name that is not UTF-8 cannot be
written. -/
def FileMetadata.text (m : FileMetadata) : Except Fault (List UInt8) :=
  match (Json.obj [("name", .str m.name), ("size", .num m.size),
      ("mime_type", .str m.mimeType)]).dump with
  | some text => .ok (text.map fun c => UInt8.ofNat c.toNat)
  | none => .error .typeError

/-- **What the server keeps of a file.** -/
structure FileRecord where
  encryptedFile : List UInt8
  encryptedMetadata : List UInt8
  encryptedFileKey : List UInt8
  deriving DecidableEq

/-- What `upload_file` draws. -/
structure UploadDraws (K : Type) where
  fileKey : K
  metadataNonce : AeadNonce
  fileNonce : AeadNonce
  keyNonce : AeadNonce

section Operations

variable (A : Aead K) (B : KeyBytes K)

/-- **`upload_file`**, given what can be read of the file: what is posted. -/
def uploadFile (filePath : String) (file : Option (List UInt8)) (metadata : FileMetadata)
    (fKek : K) (draws : UploadDraws K) : Except Fault FileRecord := do
  let content ← orThrow ("File " ++ filePath ++ " not found") file
  let text ← metadata.text
  .ok
    { encryptedFile := encryptMessageGivenKey A draws.fileNonce.1 content draws.fileKey
      encryptedMetadata := encryptMessageGivenKey A draws.metadataNonce.1 text draws.fileKey
      encryptedFileKey :=
        encryptMessageGivenKey A draws.keyNonce.1 (B.bytes draws.fileKey) fKek }

/-! ## Reading -/

/-- `get_decrypted_message`: what the message of a file carried. -/
def SessionStore.getDecryptedMessage (fileUuid : String) (s : SessionStore K) :
    Except Fault (List UInt8) :=
  orThrow "No message found with the given file_uuid"
    ((s.messages.lookup fileUuid).map (·.message))

/-- **`download_file`**, given what the server answers: the data saved, or
the text of the dialog. -/
def downloadFile (fileUuid : String) (answer : Except Fault FileRecord) (s : SessionStore K) :
    Except String (List UInt8) :=
  match s.getDecryptedMessage fileUuid with
  | .error _ => .error "You no longer have access to this file"
  | .ok fKek =>
    if fKek = [] then .error "File key not found in database. Cannot decrypt file." else
    match answer with
    | .error _ => .error "You no longer have access to this file"
    | .ok record =>
      match decryptMessageGivenKey A record.encryptedFileKey (B.keyAt fKek) with
      | .error _ => .error "You no longer have access to this file"
      | .ok fileKey =>
        if record.encryptedFile = [] then
          .error "Failed to download file from server or file is empty."
        else
          match decryptMessageGivenKey A record.encryptedFile (B.keyAt fileKey) with
          | .error _ => .error "You no longer have access to this file"
          | .ok decryptedData =>
            if decryptedData = [] then .error "You no longer have access to this file"
            else .ok decryptedData

/-- What `get_file_metadata` goes on to parse of a file; one that has none is
left out of the list. -/
def decryptedMetadata (fileUuid : String) (record : FileRecord) (s : SessionStore K) :
    Option (List UInt8) :=
  match s.getDecryptedMessage fileUuid with
  | .error _ => none
  | .ok key =>
    if key = [] then none else
    match decryptMessageGivenKey A record.encryptedFileKey (B.keyAt key) with
    | .error _ => none
    | .ok decryptedKey =>
      match decryptMessageGivenKey A record.encryptedMetadata (B.keyAt decryptedKey) with
      | .error _ => none
      | .ok decrypted => if decrypted = [] then none else some decrypted

/-- **A store reads a file** at the server: it downloads the content and is
shown the metadata. -/
def SessionStore.Reads (fileUuid : String) (record : FileRecord) (content text : List UInt8)
    (s : SessionStore K) : Prop :=
  downloadFile A B fileUuid (.ok record) s = .ok content
    ∧ decryptedMetadata A B fileUuid record s = some text

/-! ## Revoking -/

/-- A user still allowed: what `get_keybundles` answers for them, and the
nonces of the messages to their devices. -/
structure Grant (K : Type) where
  username : String
  newBundles : List (SendingKeyBundle K)
  nonce : K → AeadNonce

/-- What `refresh_access` draws. -/
structure RefreshDraws (K : Type) where
  newFileKey : K
  newFKek : K
  nonce : AeadNonce

variable [Zero K] [LinearOrder K] (S : Sodium K) (ks : KeyStore K)

/-- The loop of `refresh_access` over the users still allowed: the messages
posted, each with its user, device and key. -/
def grantAccess (uuid : String) (newFKek : List UInt8) :
    List (Grant K) → SessionStore K → Outcome K (List (String × K × K × DeviceMessage K))
  | [], s => ⟨.ok [], [], s⟩
  | g :: gs, s =>
    let granted := allowAccessToFile S A ks g.username uuid newFKek
      (fun device => (g.nonce device).1) (some g.newBundles) s
    match granted.result with
    | .error e => ⟨.error e, granted.posted, granted.store⟩
    | .ok messages =>
      let rest := grantAccess uuid newFKek gs granted.store
      ⟨rest.result.map fun sent => messages.map (g.username, ·) ++ sent,
        granted.posted ++ rest.posted, rest.store⟩

/-- **`refresh_access`**, given what `/revokeFileAccess` and `/updateFileKey`
answer, and the server's record, of which the second replaces the file
key. -/
def refreshAccess (allowed : List (Grant K)) (fileUuid : String) (draws : RefreshDraws K)
    (revoked updated : Except Fault Unit) (record : FileRecord) (s : SessionStore K) :
    Outcome K (List (String × K × K × DeviceMessage K)) × FileRecord :=
  match revoked, updated with
  | .error e, _ => (⟨.error e, [], s⟩, record)
  | .ok (), .error e => (⟨.error e, [], s⟩, record)
  | .ok (), .ok () =>
    (grantAccess A S ks fileUuid (B.bytes draws.newFKek) allowed s,
      { record with encryptedFileKey :=
          encryptMessageGivenKey A draws.nonce.1 (B.bytes draws.newFileKey) draws.newFKek })

end Operations

/-! ## What is delivered -/

section Delivery

variable {A : Aead K} {B : KeyBytes K} [LinearOrder K] {S : Sodium K} {ks : KeyStore K}
variable {username uuid : String} {fKek : List UInt8} {device key : K} {m : DeviceMessage K}

/-- Every message `allow_access_to_file` posts is the one made for its device
under its key. -/
theorem eq_deviceMessage_of_allowAccessToFile [Zero K] {nonce : K → List UInt8}
    {newBundles : Option (List (SendingKeyBundle K))} {s : SessionStore K}
    {sent : List (K × K × DeviceMessage K)}
    (h : (allowAccessToFile S A ks username uuid fKek nonce newBundles s).result = .ok sent)
    (hm : (device, key, m) ∈ sent) :
    ∃ header, m = deviceMessage A uuid (nonce device) fKek key header := by
  unfold allowAccessToFile at h
  cases hkeys : (s.getKeysForIdentity S ks username newBundles).result with
  | error e =>
    simp only [hkeys] at h
    cases h
  | ok keysToSend =>
    simp only [hkeys] at h
    rw [← Except.ok.inj h] at hm
    obtain ⟨⟨_, _, header⟩, -, heq⟩ := List.mem_map.mp hm
    cases heq
    exact ⟨header, rfl⟩

/-- So is every message `refresh_access` sends, to whomever it is. -/
theorem eq_deviceMessage_of_grantAccess [Zero K] {allowed : List (Grant K)} {s : SessionStore K}
    {sent : List (String × K × K × DeviceMessage K)}
    (h : (grantAccess A S ks uuid fKek allowed s).result = .ok sent)
    (hm : (username, device, key, m) ∈ sent) :
    ∃ nonce : AeadNonce, ∃ header, m = deviceMessage A uuid nonce.1 fKek key header := by
  induction allowed generalizing s sent with
  | nil =>
    cases h
    cases hm
  | cons g gs ih =>
    unfold grantAccess at h
    cases hg : (allowAccessToFile S A ks g.username uuid fKek (fun device => (g.nonce device).1)
        (some g.newBundles) s).result with
    | error e =>
      simp only [hg] at h
      cases h
    | ok messages =>
      simp only [hg] at h
      cases hrest : (grantAccess A S ks uuid fKek gs
          (allowAccessToFile S A ks g.username uuid fKek (fun device => (g.nonce device).1)
            (some g.newBundles) s).store).result with
      | error e =>
        rw [hrest] at h
        cases h
      | ok rest =>
        rw [hrest] at h
        rw [← Except.ok.inj h] at hm
        obtain hm | hm := List.mem_append.mp hm
        · obtain ⟨_, hmem, heq⟩ := List.mem_map.mp hm
          cases heq
          obtain ⟨header, hheader⟩ := eq_deviceMessage_of_allowAccessToFile hg hmem
          exact ⟨g.nonce device, header, hheader⟩
        · exact ih hrest hm

/-- **What is sent arrives**: a device whose ratchet answers the key of a
message stores what the message carries, under the message's file. -/
theorem getDecryptedMessage_updateMessage (hA : A.Ideal) (nonce : AeadNonce)
    {header : MessageHeader K} (hm : m = deviceMessage A uuid nonce.1 fKek key header)
    {s : SessionStore K} {fresh : K} {sender : String}
    (hkey : (s.getKeyForDevice S fresh sender m.header).1 = .ok key) :
    (updateMessage S A ⟨sender, m, fresh⟩ s).store.getDecryptedMessage m.header.fileUuid
      = .ok fKek := by
  have hd : decryptMessageGivenKey A m.ciphertext key = .ok fKek := by
    rw [hm]
    exact decryptMessageGivenKey_self hA nonce fKek key
  rcases hk : s.getKeyForDevice S fresh sender m.header with ⟨result, st⟩
  rw [hk] at hkey
  obtain rfl : result = .ok key := hkey
  rw [updateMessage_of_decrypted (m := ⟨sender, m, fresh⟩) hk hd,
    SessionStore.getDecryptedMessage, SessionStore.saveMessage, Finmap.lookup_insert]
  rfl

end Delivery

/-! ## What can be read -/

section Reading

variable {A : Aead K} (hA : A.Ideal) {B : KeyBytes K} {fileUuid : String} {record : FileRecord}
variable {s : SessionStore K} {content text : List UInt8} {fileKey storedKey fKek : K}
include hA

omit hA in
/-- What is encrypted with a nonce of its own in front is not nothing. -/
theorem encryptMessageGivenKey_ne_nil (nonce : AeadNonce) (message : List UInt8) (key : K) :
    encryptMessageGivenKey A nonce.1 message key ≠ [] := by
  intro h
  have hlen := congrArg List.length h
  rw [encryptMessageGivenKey, List.length_append, nonce.2] at hlen
  exact absurd hlen (by simp [nonceBytes])

/-- What a file's record is decrypted to, wherever the key encryption key
stored for it is the right one: its content, if there is any, -/
theorem downloadFile_iff {fileNonce keyNonce : AeadNonce} (record : FileRecord)
    (hfile : record.encryptedFile = encryptMessageGivenKey A fileNonce.1 content fileKey)
    (hkey : record.encryptedFileKey
      = encryptMessageGivenKey A keyNonce.1 (B.bytes fileKey) fKek)
    (hs : s.getDecryptedMessage fileUuid = .ok (B.bytes fKek)) :
    downloadFile A B fileUuid (.ok record) s = .ok content ↔ content ≠ [] := by
  unfold downloadFile
  simp only [hs, B.keyAt_bytes, if_neg (B.bytes_ne_nil fKek), hkey, hfile,
    if_neg (encryptMessageGivenKey_ne_nil fileNonce content fileKey),
    decryptMessageGivenKey_self hA]
  by_cases hcontent : content = []
  · simp only [if_pos hcontent]
    exact iff_of_false nofun (not_not.mpr hcontent)
  · simp only [if_neg hcontent]
    exact iff_of_true trivial hcontent

/-- and its metadata. -/
theorem decryptedMetadata_eq {metadataNonce keyNonce : AeadNonce} (record : FileRecord)
    (hmeta : record.encryptedMetadata = encryptMessageGivenKey A metadataNonce.1 text fileKey)
    (hkey : record.encryptedFileKey
      = encryptMessageGivenKey A keyNonce.1 (B.bytes fileKey) fKek)
    (hs : s.getDecryptedMessage fileUuid = .ok (B.bytes fKek)) (htext : text ≠ []) :
    decryptedMetadata A B fileUuid record s = some text := by
  unfold decryptedMetadata
  simp only [hs, B.keyAt_bytes, if_neg (B.bytes_ne_nil fKek), hkey, hmeta,
    decryptMessageGivenKey_self hA, if_neg htext]

/-- **A file is readable exactly if the stored file key is the one it was
encrypted under**, wherever the key encryption key stored with the message
opens it; the empty file is never. -/
theorem SessionStore.reads_iff {fileNonce metadataNonce keyNonce : AeadNonce}
    (hfile : record.encryptedFile = encryptMessageGivenKey A fileNonce.1 content fileKey)
    (hmeta : record.encryptedMetadata = encryptMessageGivenKey A metadataNonce.1 text fileKey)
    (hkey : record.encryptedFileKey
      = encryptMessageGivenKey A keyNonce.1 (B.bytes storedKey) fKek)
    (hs : s.getDecryptedMessage fileUuid = .ok (B.bytes fKek)) (htext : text ≠ []) :
    s.Reads A B fileUuid record content text ↔ storedKey = fileKey ∧ content ≠ [] := by
  constructor
  · rintro ⟨hdownload, -⟩
    have hsame : storedKey = fileKey := by
      have hdata := hdownload
      unfold downloadFile at hdata
      simp only [hs, B.keyAt_bytes, if_neg (B.bytes_ne_nil fKek), hkey, hfile,
        if_neg (encryptMessageGivenKey_ne_nil fileNonce content fileKey),
        decryptMessageGivenKey_self hA] at hdata
      cases hd : decryptMessageGivenKey A
          (encryptMessageGivenKey A fileNonce.1 content fileKey) storedKey with
      | error e =>
        rw [hd] at hdata
        cases hdata
      | ok data => exact (eq_of_decryptMessageGivenKey hA hd).1
    subst hsame
    exact ⟨rfl, (downloadFile_iff hA record hfile hkey hs).mp hdownload⟩
  · rintro ⟨rfl, hcontent⟩
    exact ⟨(downloadFile_iff hA record hfile hkey hs).mpr hcontent,
      decryptedMetadata_eq hA record hmeta hkey hs htext⟩

end Reading

/-- The text of a file's metadata is never empty. -/
theorem FileMetadata.text_ne_nil {m : FileMetadata} {text : List UInt8} (h : m.text = .ok text) :
    text ≠ [] := by
  unfold FileMetadata.text at h
  split at h
  · rename_i written hdump
    obtain rfl := Except.ok.inj h
    unfold Json.dump at hdump
    obtain ⟨_, -, rfl⟩ := Option.map_eq_some_iff.mp hdump
    exact List.cons_ne_nil _ _
  · cases h

/-- What a file that could be uploaded was, and what is at the server then. -/
theorem uploadFile_eq {A : Aead K} {B : KeyBytes K} {filePath : String} {content : List UInt8}
    {metadata : FileMetadata} {fKek : K} {draws : UploadDraws K} {record : FileRecord}
    (h : uploadFile A B filePath (some content) metadata fKek draws = .ok record) :
    ∃ text, metadata.text = .ok text ∧ record =
      { encryptedFile := encryptMessageGivenKey A draws.fileNonce.1 content draws.fileKey
        encryptedMetadata := encryptMessageGivenKey A draws.metadataNonce.1 text draws.fileKey
        encryptedFileKey :=
          encryptMessageGivenKey A draws.keyNonce.1 (B.bytes draws.fileKey) fKek } := by
  obtain ⟨_, hfile, h⟩ := exists_of_bind_eq_ok h
  obtain rfl := Except.ok.inj hfile
  obtain ⟨text, htext, h⟩ := exists_of_bind_eq_ok h
  exact ⟨text, htext, (Except.ok.inj h).symm⟩

/-- What `refresh_access` completed with, and the record it left. -/
theorem refreshAccess_eq {A : Aead K} {B : KeyBytes K} [Zero K] [LinearOrder K] {S : Sodium K}
    {ks : KeyStore K} {allowed : List (Grant K)} {fileUuid : String} {draws : RefreshDraws K}
    {revoked updated : Except Fault Unit} {record record' : FileRecord} {s : SessionStore K}
    {outcome : Outcome K (List (String × K × K × DeviceMessage K))}
    {sent : List (String × K × K × DeviceMessage K)}
    (h : refreshAccess A B S ks allowed fileUuid draws revoked updated record s
      = (outcome, record')) (hsent : outcome.result = .ok sent) :
    outcome = grantAccess A S ks fileUuid (B.bytes draws.newFKek) allowed s
      ∧ record' = { record with encryptedFileKey :=
          encryptMessageGivenKey A draws.nonce.1 (B.bytes draws.newFileKey) draws.newFKek } := by
  unfold refreshAccess at h
  split at h
  · obtain ⟨rfl, -⟩ := Prod.mk.inj h
    cases hsent
  · obtain ⟨rfl, -⟩ := Prod.mk.inj h
    cases hsent
  · obtain ⟨rfl, rfl⟩ := Prod.mk.inj h
    exact ⟨rfl, rfl⟩

/-! ## Before and after a revocation -/

section Access

variable {A : Aead K} (hA : A.Ideal) {B : KeyBytes K} [Zero K] [LinearOrder K] {S : Sodium K}
variable {ks : KeyStore K} {filePath fileUuid username sender : String} {content : List UInt8}
variable {metadata : FileMetadata} {fKek fresh device key : K} {draws : UploadDraws K}
variable {uploaded record record' : FileRecord} {s t : SessionStore K} {m : DeviceMessage K}
include hA

/-- **Sharing a file lets its recipients read it**, unless it is empty:
whoever gets a message of `allow_access_to_file` after the upload reads the
file as it was uploaded. -/
theorem FileRecord.readable_iff_of_uploadFile {text : List UInt8} {nonce : K → AeadNonce}
    {newBundles : Option (List (SendingKeyBundle K))} {sent : List (K × K × DeviceMessage K)}
    (hup : uploadFile A B filePath (some content) metadata fKek draws = .ok uploaded)
    (htext : metadata.text = .ok text)
    (hsent : (allowAccessToFile S A ks username fileUuid (B.bytes fKek)
      (fun device => (nonce device).1) newBundles s).result = .ok sent)
    (hm : (device, key, m) ∈ sent)
    (hkey : (t.getKeyForDevice S fresh sender m.header).1 = .ok key) :
    (updateMessage S A ⟨sender, m, fresh⟩ t).store.Reads A B m.header.fileUuid uploaded
      content text ↔ content ≠ [] := by
  obtain ⟨header, hheader⟩ := eq_deviceMessage_of_allowAccessToFile hsent hm
  obtain ⟨_, htext', rfl⟩ := uploadFile_eq hup
  obtain rfl := Except.ok.inj (htext'.symm.trans htext)
  have hstored := getDecryptedMessage_updateMessage (S := S) hA _ hheader hkey
  rw [SessionStore.reads_iff hA rfl rfl rfl hstored (FileMetadata.text_ne_nil htext)]
  exact and_iff_right rfl

/-- **A revocation leaves the file to nobody.** The record still holds what
was uploaded but for the file key, whatever happened to that. Once
`refresh_access` has completed, the key encryption key it delivers is stored
by its recipients and opens the file key; and they read the file exactly if
the key drawn for it is the one it was uploaded under. -/
theorem FileRecord.readable_iff_of_refreshAccess {text : List UInt8} {allowed : List (Grant K)}
    {new : RefreshDraws K} {revoked updated : Except Fault Unit}
    {outcome : Outcome K (List (String × K × K × DeviceMessage K))}
    {sent : List (String × K × K × DeviceMessage K)}
    (hup : uploadFile A B filePath (some content) metadata fKek draws = .ok uploaded)
    (htext : metadata.text = .ok text)
    (hfile : record.encryptedFile = uploaded.encryptedFile)
    (hmeta : record.encryptedMetadata = uploaded.encryptedMetadata)
    (h : refreshAccess A B S ks allowed fileUuid new revoked updated record s
      = (outcome, record')) (hsent : outcome.result = .ok sent)
    (hm : (username, device, key, m) ∈ sent)
    (hkey : (t.getKeyForDevice S fresh sender m.header).1 = .ok key) :
    (updateMessage S A ⟨sender, m, fresh⟩ t).store.getDecryptedMessage m.header.fileUuid
        = .ok (B.bytes new.newFKek)
      ∧ decryptMessageGivenKey A record'.encryptedFileKey new.newFKek
        = .ok (B.bytes new.newFileKey)
      ∧ ((updateMessage S A ⟨sender, m, fresh⟩ t).store.Reads A B m.header.fileUuid record'
        content text ↔ new.newFileKey = draws.fileKey ∧ content ≠ []) := by
  obtain ⟨rfl, rfl⟩ := refreshAccess_eq h hsent
  obtain ⟨nonce, header, hheader⟩ := eq_deviceMessage_of_grantAccess hsent hm
  obtain ⟨_, htext', rfl⟩ := uploadFile_eq hup
  obtain rfl := Except.ok.inj (htext'.symm.trans htext)
  have hstored := getDecryptedMessage_updateMessage (S := S) hA nonce hheader hkey
  refine ⟨hstored, decryptMessageGivenKey_self hA .., ?_⟩
  exact SessionStore.reads_iff hA hfile hmeta rfl hstored (FileMetadata.text_ne_nil htext)

end Access

/-! ## A cipher that is ideal -/

/-- A number as bytes: its digits, none of them zero, and a zero. -/
def keyCode (key : ℕ) : List UInt8 :=
  (Nat.digits 255 key).map (fun d => UInt8.ofNat (d + 1)) ++ [0]

/-- The number that was written as the bytes up to the first zero. -/
def keyOfCode (bytes : List UInt8) : ℕ :=
  Nat.ofDigits 255 ((bytes.takeWhile (· ≠ 0)).map fun b => b.toNat - 1)

/-- Whatever follows it, the code of a number can be read. -/
theorem keyOfCode_append (key : ℕ) (rest : List UInt8) : keyOfCode (keyCode key ++ rest) = key := by
  have hdigit : ∀ d ∈ Nat.digits 255 key, (UInt8.ofNat (d + 1)).toNat = d + 1 := fun d hd =>
    UInt8.toNat_ofNat_of_lt' (Nat.succ_lt_succ (Nat.digits_lt_base (by decide) hd))
  have hne : ∀ b ∈ (Nat.digits 255 key).map (fun d => UInt8.ofNat (d + 1)),
      decide (b ≠ 0) = true := by
    intro b hb
    obtain ⟨d, hd, rfl⟩ := List.mem_map.mp hb
    refine decide_eq_true fun h0 => ?_
    have h := hdigit d hd
    rw [h0] at h
    exact Nat.succ_ne_zero d h.symm
  have hmap : ((Nat.digits 255 key).map fun d => UInt8.ofNat (d + 1)).map (fun b => b.toNat - 1)
      = Nat.digits 255 key := by
    rw [List.map_map]
    refine (List.map_congr_left fun d hd => ?_).trans (List.map_id _)
    show (UInt8.ofNat (d + 1)).toNat - 1 = d
    rw [hdigit d hd, Nat.add_sub_cancel]
  unfold keyOfCode keyCode
  rw [List.append_assoc, List.takeWhile_append_of_pos hne, List.singleton_append,
    List.takeWhile_cons_of_neg (by decide), List.append_nil, hmap, Nat.ofDigits_digits]

/-- Numbers as keys. -/
def KeyBytes.code : KeyBytes ℕ where
  bytes := keyCode
  keyAt := keyOfCode
  keyAt_bytes key := by rw [← List.append_nil (keyCode key), keyOfCode_append]
  bytes_ne_nil _ := List.append_ne_nil_of_right_ne_nil _ (List.cons_ne_nil _ _)

/-- A cipher that writes the key and sixteen zeros before the text. -/
def Aead.keyed : Aead ℕ where
  encrypt _ message key := keyCode key ++ (List.replicate tagBytes 0 ++ message)
  decrypt _ ciphertext key :=
    if keyOfCode ciphertext = key then
      some (ciphertext.drop ((keyCode key).length + tagBytes))
    else none

theorem Aead.keyed_ideal : Aead.keyed.Ideal where
  opens n m k := by
    have hkey : keyOfCode (Aead.keyed.encrypt n m k) = k := keyOfCode_append ..
    refine (if_pos hkey).trans (congrArg some ?_)
    show List.drop _ (keyCode k ++ (List.replicate tagBytes 0 ++ m)) = _
    rw [← List.append_assoc, List.drop_left' (by rw [List.length_append, List.length_replicate])]
  opens_only n m k k' h := by
    have hkey : keyOfCode (Aead.keyed.encrypt n m k) = k := keyOfCode_append ..
    by_contra hne
    have hnone : Aead.keyed.decrypt n (Aead.keyed.encrypt n m k) k' = none :=
      if_neg fun h' => hne (h'.symm.trans hkey)
    rw [hnone] at h
    cases h
  tagged n m k := by
    show _ ≤ (keyCode k ++ (List.replicate tagBytes 0 ++ m)).length
    rw [List.length_append, List.length_append, List.length_replicate]
    exact le_add_left (Nat.le_add_right ..)

/-! ## A file that is revoked -/

namespace FileRecord

def zeroNonce : AeadNonce := ⟨List.replicate nonceBytes 0, List.length_replicate⟩

/-- A file of three bytes, uploaded under file key 6 by a device that has a
session with bob. -/
def metadata : FileMetadata := ⟨"a.txt", 3, "text/plain"⟩

def upload : Except Fault FileRecord :=
  uploadFile Aead.keyed .code "a.txt" (some [1, 2, 3]) metadata 7
    ⟨6, zeroNonce, zeroNonce, zeroNonce⟩

def sharing : SessionStore ℕ :=
  (⟨∅, ∅, ∅⟩ : SessionStore ℕ).hold "bob" (Sodium.ideal.signPublic 3) (.ideal .initiator)

def shared : SessionStore ℕ :=
  (⟨∅, ∅, ∅⟩ : SessionStore ℕ).hold "alice" (Sodium.ideal.signPublic 5) (.ideal .recipient)

/-- Its access refreshed, bob being still allowed, with file key 8. -/
def refreshed (record : FileRecord) :
    Outcome ℕ (List (String × ℕ × ℕ × DeviceMessage ℕ)) × FileRecord :=
  refreshAccess Aead.keyed .code Sodium.ideal (.ideal 5) [⟨"bob", [], fun _ => zeroNonce⟩] "file"
    ⟨8, 9, zeroNonce⟩ (.ok ()) (.ok ()) record sharing

/-- Bob's ratchet answers the key of the one message that is sent. -/
def answered : Bool :=
  match (refreshed ⟨[], [], []⟩).1.result with
  | .ok [("bob", _, key, m)] =>
    decide ((shared.getKeyForDevice Sodium.ideal 0 "alice" m.header).1 = .ok key)
  | _ => false

/-- It does not open the file that was uploaded. -/
def unread : Bool :=
  match upload, (refreshed ⟨[], [], []⟩).1.result with
  | .ok record, .ok [(_, _, _, m)] =>
    decide (downloadFile Aead.keyed .code m.header.fileUuid (.ok (refreshed record).2)
        (updateMessage Sodium.ideal Aead.keyed ⟨"alice", m, 0⟩ shared).store
      = .error "You no longer have access to this file"
    ∧ decryptedMetadata Aead.keyed .code m.header.fileUuid (refreshed record).2
        (updateMessage Sodium.ideal Aead.keyed ⟨"alice", m, 0⟩ shared).store = none)
  | _, _ => false

/-- The refresh completes, and bob's ratchet answers the key of the one
message it sends. -/
theorem exists_refreshed (record : FileRecord) :
    ∃ device key m, (refreshed record).1.result = .ok [("bob", device, key, m)]
      ∧ (shared.getKeyForDevice Sodium.ideal 0 "alice" m.header).1 = .ok key := by
  have h : answered = true := by decide +kernel
  unfold answered at h
  split at h
  · rename_i device key m hresult
    exact ⟨device, key, m, hresult, of_decide_eq_true h⟩
  · cases h

/-- Bob is still allowed, gets the new key encryption key, and cannot read
the file with it. -/
theorem not_readable_of_refreshAccess :
    ∃ record device key m, upload = .ok record
      ∧ (refreshed record).1.result = .ok [("bob", device, key, m)]
      ∧ (shared.getKeyForDevice Sodium.ideal 0 "alice" m.header).1 = .ok key
      ∧ downloadFile Aead.keyed .code m.header.fileUuid (.ok (refreshed record).2)
          (updateMessage Sodium.ideal Aead.keyed ⟨"alice", m, 0⟩ shared).store
        = .error "You no longer have access to this file"
      ∧ decryptedMetadata Aead.keyed .code m.header.fileUuid (refreshed record).2
          (updateMessage Sodium.ideal Aead.keyed ⟨"alice", m, 0⟩ shared).store = none := by
  obtain ⟨record, hrecord⟩ := exists_of_isOk (by decide +kernel : upload.isOk)
  obtain ⟨device, key, m, hresult, hkey⟩ := exists_refreshed record
  have hread : unread = true := by decide +kernel
  unfold unread at hread
  have hsent : (refreshed ⟨[], [], []⟩).1.result = .ok [("bob", device, key, m)] := hresult
  rw [hrecord, hsent] at hread
  exact ⟨record, device, key, m, hrecord, hresult, hkey, of_decide_eq_true hread⟩

/-- Bob reads it exactly if the file key drawn was the old one, which it was
not. -/
theorem readable_iff_of_refreshAccess_bob :
    ∃ record text device key m, upload = .ok record ∧ metadata.text = .ok text
      ∧ (refreshed record).1.result = .ok [("bob", device, key, m)]
      ∧ ((updateMessage Sodium.ideal Aead.keyed ⟨"alice", m, 0⟩ shared).store.Reads Aead.keyed .code
          m.header.fileUuid (refreshed record).2 [1, 2, 3] text
        ↔ (8 : ℕ) = 6 ∧ ([1, 2, 3] : List UInt8) ≠ []) := by
  obtain ⟨record, hrecord⟩ := exists_of_isOk (by decide +kernel : upload.isOk)
  obtain ⟨text, htext⟩ := exists_of_isOk (by decide +kernel : metadata.text.isOk)
  obtain ⟨device, key, m, hresult, hkey⟩ := exists_refreshed record
  have h : refreshed record = ((refreshed record).1, (refreshed record).2) := rfl
  refine ⟨record, text, device, key, m, hrecord, htext, hresult, ?_⟩
  exact (readable_iff_of_refreshAccess Aead.keyed_ideal hrecord htext rfl rfl h hresult
    (List.mem_singleton_self _) hkey).2.2

end FileRecord
