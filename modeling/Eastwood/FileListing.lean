import Eastwood.MessageWire

/-!
# Files at the server

What is uploaded of a file, what is downloaded of it, and the list of files a
user is shown. The bytes travel in hexadecimal, inside of JSON.

The list is made in two loops. `get_encrypted_file_metadata` decodes the whole
reply first and throws on the first entry it cannot; `get_file_metadata` then
goes through what it returned and leaves out whatever cannot be decrypted or
parsed. What a file was called, how long it was and of which type is in an
encrypted JSON document, whose parser is a parameter.
-/

variable {K : Type}

/-! ## Uploading and downloading -/

/-- What `post_upload_file` posts. -/
def uploadBody (record : FileRecord) : Json := .obj
  [("encrypted_file", .str (bin2hex record.encryptedFile)),
    ("encrypted_metadata", .str (bin2hex record.encryptedMetadata)),
    ("encrypted_file_key", .str (bin2hex record.encryptedFileKey))]

/-- **`post_upload_file`**, given what the server answers. -/
def postUploadFile (post : Json → Except Fault Json) (record : FileRecord) :
    Except Fault String := do
  let response ← post (uploadBody record)
  (← (← response.member "data").member "file_id").getString

/-- **`get_download_file`**, given what the server answers. The metadata is
not downloaded again. -/
def getDownloadFile (answer : Except Fault Json) : Except Fault FileRecord := do
  let response ← answer
  let data ← response.slot "data"
  let encryptedFileStr ← (← data.slot "encrypted_bytes").getString
  let encryptedFileKeyStr ← (← data.slot "encrypted_file_key").getString
  let encryptedFile ← hex2bin encryptedFileStr
  let encryptedFileKey ← hex2bin encryptedFileKeyStr
  return { encryptedFile, encryptedMetadata := [], encryptedFileKey }

/-! ## The list of files -/

/-- `EncryptedMetadata`. -/
structure EncryptedMetadata where
  uuid : String
  encryptedMetadata : List UInt8
  encryptedFileKey : List UInt8
  owner : String
  deriving DecidableEq

/-- **A file as it is listed.** -/
structure FileData where
  name : String
  fileSize : ℤ
  mimeType : String
  uuid : String
  owner : String
  deriving DecidableEq

/-- One round of the loop of `get_encrypted_file_metadata`. -/
def encryptedMetadataOf (file : Json) : Except Fault EncryptedMetadata := do
  let encryptedMetadata ← (← file.member "encrypted_metadata").getString
  let encryptedFileKey ← (← file.member "encrypted_file_key").getString
  let uuid ← (← file.member "file_id").getString
  let encryptedMetadata ← hex2bin encryptedMetadata
  let encryptedFileKey ← hex2bin encryptedFileKey
  let owner ← (← file.member "owner").getString
  return { uuid, encryptedMetadata, encryptedFileKey, owner }

/-- An entry that says so. -/
def EncryptedMetadata.entry (m : EncryptedMetadata) : Json := .obj
  [("file_id", .str m.uuid),
    ("owner", .str m.owner),
    ("encrypted_metadata", .str (bin2hex m.encryptedMetadata)),
    ("encrypted_file_key", .str (bin2hex m.encryptedFileKey))]

/-- The entries of a reply of `/getFilesMetadata`. -/
def metadataEntries (response : Json) : Except Fault (List Json) := do
  let data ← response.member "data"
  let metadata ← data.member "metadata"
  return metadata.elements

/-- As a round of a decoder: none is skipped. -/
def metadataOfEntry (file : Json) : Except Fault (Option EncryptedMetadata) :=
  (encryptedMetadataOf file).map some

/-- The loop over them. -/
def decodeMetadata : List Json → Except Fault (List EncryptedMetadata) :=
  Batch.decodeAll metadataOfEntry

/-- **`get_encrypted_file_metadata`**, given what the server answers. -/
def getEncryptedFileMetadata (answer : Except Fault Json) :
    Except Fault (List EncryptedMetadata) := do
  let response ← answer
  let entries ← metadataEntries response
  decodeMetadata entries

/-- `get_all_sent_file_uuids` and `get_all_received_file_uuids`: the files
with a row that says so, but for those that name the user's own name. -/
def SessionStore.fileUuids (isSending : Bool) (currentUsername : String) (s : SessionStore K) :
    List String :=
  (s.messages.keys.sort (· ≤ ·)).filter fun file =>
    (s.messages.lookup file).any fun row =>
      row.username ≠ currentUsername && row.isSender == isSending

/-- What is listed of a document; one that lacks a member, or has one of
another type, is left out. -/
def FileData.ofMetadata (uuid owner : String) (metadata : Json) : Option FileData :=
  if metadata.contains "name" ∧ metadata.contains "size" ∧ metadata.contains "mime_type" then
    match metadata.slot "name" >>= Json.getString, metadata.slot "size" >>= Json.getInt,
        metadata.slot "mime_type" >>= Json.getString with
    | .ok name, .ok fileSize, .ok mimeType => some { name, fileSize, mimeType, uuid, owner }
    | _, _, _ => none
  else none

section Listing

variable (A : Aead K) (B : KeyBytes K) (parse : List UInt8 → Option Json)

/-- One round of the loop of `get_file_metadata`: whatever throws in it is
caught, and the file left out. -/
def fileDataOf (s : SessionStore K) (m : EncryptedMetadata) : Option FileData :=
  (decryptedMetadata A B m.uuid
    { encryptedFile := []
      encryptedMetadata := m.encryptedMetadata
      encryptedFileKey := m.encryptedFileKey } s).bind fun text =>
    (parse text).bind (FileData.ofMetadata m.uuid m.owner)

/-- **`get_file_metadata`**, given what the server answers for the ids it is
asked for. -/
def getFileMetadata (isSending : Bool) (currentUsername : String)
    (serve : List String → Except Fault Json) (s : SessionStore K) :
    Except Fault (List FileData) := do
  let metadatas ← getEncryptedFileMetadata (serve (s.fileUuids isSending currentUsername))
  return metadatas.filterMap (fileDataOf A B parse s)

end Listing

section Facts

variable {file : String} {isSending : Bool} {currentUsername : String} {s : SessionStore K}

/-- A file is asked for exactly if it has a row of the kind, of another
user. -/
theorem SessionStore.mem_fileUuids_iff :
    file ∈ s.fileUuids isSending currentUsername
      ↔ ∃ row, s.messages.lookup file = some row ∧ row.username ≠ currentUsername
        ∧ row.isSender = isSending := by
  unfold fileUuids
  rw [List.mem_filter, Finset.mem_sort, Finmap.mem_keys]
  constructor
  · rintro ⟨-, hrow⟩
    cases hlookup : s.messages.lookup file with
    | none =>
      rw [hlookup] at hrow
      cases hrow
    | some row =>
      rw [hlookup, Option.any_some, Bool.and_eq_true, decide_eq_true_iff, beq_iff_eq] at hrow
      exact ⟨row, rfl, hrow⟩
  · rintro ⟨row, hlookup, hother, hkind⟩
    refine ⟨Finmap.mem_of_lookup_eq_some hlookup, ?_⟩
    rw [hlookup, Option.any_some, Bool.and_eq_true, decide_eq_true_iff, beq_iff_eq]
    exact ⟨hother, hkind⟩

/-- A document with the three members is listed with them. -/
theorem FileData.ofMetadata_eq {metadata : Json} {name mimeType : String} {size : ℤ}
    (hname : metadata.find? "name" = some (.str name))
    (hsize : metadata.find? "size" = some (.num size)) (hint : IsInt size)
    (hmime : metadata.find? "mime_type" = some (.str mimeType)) (uuid owner : String) :
    FileData.ofMetadata uuid owner metadata = some ⟨name, size, mimeType, uuid, owner⟩ := by
  unfold ofMetadata
  rw [if_pos ⟨Json.contains_of_find? hname, Json.contains_of_find? hsize,
    Json.contains_of_find? hmime⟩, Json.slot_of_find? hname, Json.slot_of_find? hsize,
    Json.slot_of_find? hmime]
  simp only [ok_bind, Json.getInt_num hint, Json.getString]

/-- What is listed has the id it was listed for. -/
theorem FileData.uuid_of_ofMetadata {uuid owner : String} {metadata : Json} {f : FileData}
    (h : FileData.ofMetadata uuid owner metadata = some f) : f.uuid = uuid := by
  unfold ofMetadata at h
  split at h
  · split at h
    · rw [← Option.some.inj h]
    · cases h
  · cases h

/-- Metadata that is there is read as it was written. -/
theorem encryptedMetadataOf_entry {m : EncryptedMetadata} (hmeta : m.encryptedMetadata ≠ [])
    (hkey : m.encryptedFileKey ≠ []) : encryptedMetadataOf m.entry = .ok m := by
  have hfields : encryptedMetadataOf m.entry = (do
      let encryptedMetadata ← hex2bin (bin2hex m.encryptedMetadata)
      let encryptedFileKey ← hex2bin (bin2hex m.encryptedFileKey)
      return { m with encryptedMetadata, encryptedFileKey }) := rfl
  rw [hfields, hex2bin_bin2hex hmeta, hex2bin_bin2hex hkey]
  rfl

theorem metadataOfEntry_eq {e : Json} {m : EncryptedMetadata} (h : encryptedMetadataOf e = .ok m) :
    metadataOfEntry e = .ok (some m) := by
  rw [metadataOfEntry, h]
  rfl

/-- What was uploaded is downloaded, as long as it is not empty. -/
theorem getDownloadFile_bin2hex {data response : Json} {record : FileRecord}
    (hdata : response.find? "data" = some data)
    (hfile : data.find? "encrypted_bytes" = some (.str (bin2hex record.encryptedFile)))
    (hkey : data.find? "encrypted_file_key" = some (.str (bin2hex record.encryptedFileKey)))
    (hfile_ne : record.encryptedFile ≠ []) (hkey_ne : record.encryptedFileKey ≠ []) :
    getDownloadFile (.ok response) = .ok { record with encryptedMetadata := [] } := by
  simp only [getDownloadFile, ok_bind, Json.slot_of_find? hdata, Json.slot_of_find? hfile,
    Json.slot_of_find? hkey, Json.getString, hex2bin_bin2hex hfile_ne, hex2bin_bin2hex hkey_ne]
  rfl

end Facts

/-! ## Arrays as keys -/

/-- The bytes of a 32-byte array. -/
def KeyBytes.array : KeyBytes Key where
  bytes k := k.1
  keyAt := Key.copy
  keyAt_bytes := Key.copy_val
  bytes_ne_nil k h := by
    have hlen := k.2
    rw [h] at hlen
    cases hlen

/-- A cipher that writes the key before the text. -/
def Aead.labelled : Aead Key where
  encrypt _ message key := key.1 ++ message
  decrypt _ ciphertext key :=
    if ciphertext.take 32 = key.1 then some (ciphertext.drop 32) else none

theorem Aead.labelled_ideal : Aead.labelled.Ideal where
  opens n m k := by
    show (if (k.1 ++ m).take 32 = k.1 then some ((k.1 ++ m).drop 32) else none) = some m
    rw [if_pos (List.take_left' k.2), List.drop_left' k.2]
  opens_only n m k k' h := by
    have htake : (k.1 ++ m).take 32 = k.1 := List.take_left' k.2
    by_contra hne
    have hnone : Aead.labelled.decrypt n (Aead.labelled.encrypt n m k) k' = none :=
      if_neg fun h' => hne (Subtype.ext (htake.symm.trans h').symm)
    rw [hnone] at h
    cases h
  tagged n m k := by
    show tagBytes ≤ (k.1 ++ m).length
    rw [List.length_append, k.2]
    exact le_add_right (by decide)
