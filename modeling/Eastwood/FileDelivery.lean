import Eastwood.AtRest
import Eastwood.BadEntries
import Eastwood.SendFileTo

/-!
# A file on its way

From the file one user picks to the file another saves: the upload, the
message with the key encryption key, the poll that stores it, the list the
file is shown in, and the download. The server keeps what was uploaded and
hands it out again as it was (`FileServer`).

All of the layers are undone in the end, whatever the file holds and however
it is called, but for two checks. `download_file` takes data that decrypts to
nothing for access that was lost, and so never saves an empty file; and
`get_all_received_file_uuids` leaves out the messages of the user who is
logged in, so that a file sent to another device of one's own is not listed.
The file arrives exactly if neither is met (`fileDelivered_iff`).
-/

/-- The document that is encrypted of a file's metadata. -/
def FileMetadata.document (m : FileMetadata) : Json := .obj
  [("name", .str m.name), ("size", .num m.size), ("mime_type", .str m.mimeType)]

/-- Its text is what is encrypted. -/
theorem FileMetadata.text_eq_dump (m : FileMetadata) :
    m.text = match m.document.dump with
      | some text => .ok (text.map fun c => UInt8.ofNat c.toNat)
      | none => .error .typeError := rfl

/-! ## The server -/

/-- **A file at the server**, whose parts are all there: `upload_file` makes no
others. -/
structure ServedFile where
  record : FileRecord
  owner : String
  file_ne : record.encryptedFile ≠ []
  metadata_ne : record.encryptedMetadata ≠ []
  key_ne : record.encryptedFileKey ≠ []

/-- A server that stores faithfully: what was uploaded under each id. -/
abbrev FileServer := String → Option ServedFile

namespace FileServer

variable (files : FileServer)

/-- What it says of a file in the list. -/
def metadata (uuid : String) : Option EncryptedMetadata :=
  (files uuid).map fun f => ⟨uuid, f.record.encryptedMetadata, f.record.encryptedFileKey, f.owner⟩

/-- Its answer to `/getFilesMetadata`. -/
def getFilesMetadata (uuids : List String) : Except Fault Json :=
  .ok (.obj [("data", .obj [("metadata",
    .arr ((uuids.filterMap files.metadata).map EncryptedMetadata.entry))])])

/-- Its answer to `/downloadFile`. -/
def downloadFile (uuid : String) : Except Fault Json :=
  match files uuid with
  | some f => .ok (.obj [("data", .obj
      [("encrypted_bytes", .str (bin2hex f.record.encryptedFile)),
        ("encrypted_file_key", .str (bin2hex f.record.encryptedFileKey))])])
  | none => .error (.runtimeError "HTTP request failed")

variable {files} {uuid : String} {f : ServedFile}

/-- What is downloaded of a file is what was uploaded. -/
theorem getDownloadFile_eq (h : files uuid = some f) :
    getDownloadFile (files.downloadFile uuid) = .ok { f.record with encryptedMetadata := [] } := by
  unfold downloadFile
  rw [h]
  exact getDownloadFile_bin2hex rfl rfl rfl f.file_ne f.key_ne

/-- The list is decoded as the server has it. -/
theorem getEncryptedFileMetadata_eq (uuids : List String) :
    getEncryptedFileMetadata (files.getFilesMetadata uuids)
      = .ok (uuids.filterMap files.metadata) := by
  have hentry : ∀ m ∈ uuids.filterMap files.metadata,
      metadataOfEntry m.entry = .ok (some m) := by
    intro m hm
    obtain ⟨uuid, -, hm⟩ := List.mem_filterMap.mp hm
    obtain ⟨f, -, rfl⟩ := Option.map_eq_some_iff.mp hm
    exact metadataOfEntry_eq (encryptedMetadataOf_entry f.metadata_ne f.key_ne)
  show decodeMetadata ((uuids.filterMap files.metadata).map EncryptedMetadata.entry) = _
  generalize uuids.filterMap files.metadata = ms at hentry
  induction ms with
  | nil => rfl
  | cons m ms ih =>
    rw [List.map_cons, decodeMetadata, Batch.decodeAll_cons_ok (hentry m List.mem_cons_self)]
    show (decodeMetadata (ms.map EncryptedMetadata.entry)).map _ = _
    rw [ih fun m' hm' => hentry m' (List.mem_cons_of_mem _ hm')]
    rfl

end FileServer

/-! ## The list and the download -/

section Reading

variable {A : Aead Key} {B : KeyBytes Key} {parse : List UInt8 → Option Json}
variable {files : FileServer} {f : ServedFile} {uuid currentUsername : String} {fKek : Key}
variable {s : SessionStore Key} {content text : List UInt8} {fileKey : Key}
variable {fileNonce metadataNonce keyNonce : AeadNonce}

/-- What is shown of the files: those the server has of the files there is a
message for. -/
theorem getFileMetadata_eq (isSending : Bool) :
    getFileMetadata A B parse isSending currentUsername files.getFilesMetadata s
      = .ok (((s.fileUuids isSending currentUsername).filterMap files.metadata).filterMap
          (fileDataOf A B parse s)) := by
  rw [getFileMetadata, FileServer.getEncryptedFileMetadata_eq]
  rfl

/-- Every file shown is one there is a message for, -/
theorem mem_fileUuids_of_getFileMetadata {isSending : Bool} {list : List FileData} {file : FileData}
    (hlist : getFileMetadata A B parse isSending currentUsername files.getFilesMetadata s
      = .ok list) (hmem : file ∈ list) : file.uuid ∈ s.fileUuids isSending currentUsername := by
  rw [getFileMetadata_eq] at hlist
  rw [← Except.ok.inj hlist] at hmem
  obtain ⟨m, hm, hfile⟩ := List.mem_filterMap.mp hmem
  obtain ⟨uuid, huuid, hm⟩ := List.mem_filterMap.mp hm
  -- an entry is listed under the id it was asked for
  obtain ⟨f, -, rfl⟩ := Option.map_eq_some_iff.mp hm
  obtain ⟨_, -, hparsed⟩ := Option.bind_eq_some_iff.mp hfile
  obtain ⟨_, -, hlisted⟩ := Option.bind_eq_some_iff.mp hparsed
  rwa [FileData.uuid_of_ofMetadata hlisted]

/-- and one there is a message for is shown if it can be read. -/
theorem mem_getFileMetadata {isSending : Bool} {file : FileData} (hf : files uuid = some f)
    (hdata : fileDataOf A B parse s ⟨uuid, f.record.encryptedMetadata, f.record.encryptedFileKey,
      f.owner⟩ = some file) (hmem : uuid ∈ s.fileUuids isSending currentUsername) :
    ∃ list, getFileMetadata A B parse isSending currentUsername files.getFilesMetadata s = .ok list
      ∧ file ∈ list := by
  have hmeta : files.metadata uuid = some ⟨uuid, f.record.encryptedMetadata,
      f.record.encryptedFileKey, f.owner⟩ := by
    rw [FileServer.metadata, hf]
    rfl
  exact ⟨_, getFileMetadata_eq isSending, List.mem_filterMap.mpr
    ⟨_, List.mem_filterMap.mpr ⟨uuid, hmem, hmeta⟩, hdata⟩⟩

end Reading

/-! ## From end to end -/

/-- A parser reads a file's document back from its text, up to the order of
the members. -/
def ReadsBack (parse : List UInt8 → Option Json) (metadata : FileMetadata) : Prop :=
  ∀ text, metadata.text = .ok text →
    ∃ document, parse text = some document
      ∧ ∀ name, document.find? name = metadata.document.find? name

/-- **A file arrived** at a user's device: it is listed with its name, its
size and its type, and downloading it saves its content. -/
def FileArrived (A : Aead Key) (B : KeyBytes Key) (parse : List UInt8 → Option Json)
    (files : FileServer) (currentUsername uuid : String) (metadata : FileMetadata)
    (content : List UInt8) (s : SessionStore Key) : Prop :=
  (∃ list owner, getFileMetadata A B parse false currentUsername files.getFilesMetadata s = .ok list
      ∧ ⟨metadata.name, metadata.size, metadata.mimeType, uuid, owner⟩ ∈ list)
    ∧ downloadFile A B uuid (getDownloadFile (files.downloadFile uuid)) s = .ok content

section Delivery

variable {S : Sodium Key} {A : Aead Key} (hA : A.Ideal) {B : KeyBytes Key} {ks : KeyStore Key}
variable {parse : List UInt8 → Option Json} {kp : Key × Key} {fKek device key fresh : Key}
variable {myUsername username recipient filePath uuid : String} {content : List UInt8}
variable {files : FileServer} {f : ServedFile} {metadata : FileMetadata} {draws : SendDraws}
variable {server : SendServer} {m : DeviceMessage Key} {s t : SessionStore Key}
variable {newBundles : Option (Except Fault (List (SendingKeyBundle Key)))}
variable {sent : List (Key × Key × DeviceMessage Key)}
include hA

omit hA in
/-- The size of a file that may be sent is an `int`. -/
theorem isInt_of_le_maxFileSize (h : content.length ≤ maxFileSizeBytes) :
    IsInt (content.length : ℤ) := by
  have hmax : maxFileSizeBytes = 256000 := rfl
  unfold IsInt
  omega

/-- **The message arrives**: whoever polls what was posted for a device that
answers its key stores the key encryption key under the file. -/
theorem lookup_pollMessages (huuid : '\x00' ∉ uuid.toList ∧ uuid.length ≤ 63)
    {nonce : AeadNonce} {header : MessageHeader Key} {carried : List UInt8}
    (hm : m = deviceMessage A uuid nonce.1 carried key header)
    (hint : IsInt m.header.prevChainLength ∧ IsInt m.header.messageIndex)
    (hkey : (t.getKeyForDevice S fresh myUsername { m.header with deviceId := kp.1 }).1 = .ok key) :
    (pollMessages S A [((postRatchetMessage myUsername kp.1 device m).entry, fresh)]
      t).store.messages.lookup uuid = some ⟨myUsername, kp.1, carried, false⟩ := by
  have hfits : m.header.fileUuid = uuid := by
    rw [hm]
    exact copyFileUuid_eq huuid.1 huuid.2
  have hne : m.ciphertext ≠ [] := by
    rw [hm]
    exact encryptMessageGivenKey_ne_nil nonce carried key
  have hpostable : m.Postable := ⟨hint.1, hint.2, by rwa [hfits], hne⟩
  have hentry : incomingOfEntry ((postRatchetMessage myUsername kp.1 device m).entry, fresh)
      = .ok (some ⟨myUsername, { m with header := { m.header with deviceId := kp.1 } },
        fresh⟩) := by
    rw [incomingOfEntry, messageOfEntry_postRatchetMessage hpostable]
    rfl
  have hd : decryptMessageGivenKey A m.ciphertext key = .ok carried := by
    rw [hm]
    exact decryptMessageGivenKey_self hA nonce carried key
  obtain ⟨hresult, hlookup⟩ := lookup_updateMessage (S := S) (A := A) (s := t)
    (m := ⟨myUsername, { m with header := { m.header with deviceId := kp.1 } }, fresh⟩) hkey hd
  rw [pollMessages, Batch.decodeAll_cons_ok hentry]
  show ((updateMessage S A _ _).andThen (updateMessages S A [])).store.messages.lookup uuid = _
  rw [Polled.andThen_ok hresult, ← hfits]
  exact hlookup

/-- **With the key of a file that was uploaded** a device lists the file and
downloads what was uploaded, unless it is empty or its sender is the user. -/
theorem fileArrived_iff (hsize : metadata.size = content.length)
    (hmax : content.length ≤ maxFileSizeBytes)
    (hup : uploadFile A B filePath (some content) metadata draws.fKek draws.upload = .ok f.record)
    (hf : files uuid = some f) (hparse : ReadsBack parse metadata)
    (hrow : t.messages.lookup uuid = some ⟨myUsername, device, B.bytes draws.fKek, false⟩) :
    FileArrived A B parse files recipient uuid metadata content t
      ↔ content ≠ [] ∧ myUsername ≠ recipient := by
  obtain ⟨text, htext, hrecord⟩ := uploadFile_eq hup
  have hs : t.getDecryptedMessage uuid = .ok (B.bytes draws.fKek) := by
    rw [SessionStore.getDecryptedMessage, hrow]
    rfl
  have hdata : fileDataOf A B parse t ⟨uuid, f.record.encryptedMetadata,
      f.record.encryptedFileKey, f.owner⟩
        = some ⟨metadata.name, metadata.size, metadata.mimeType, uuid, f.owner⟩ := by
    obtain ⟨document, hdocument, hmembers⟩ := hparse text htext
    have hdecrypted := decryptedMetadata_eq hA ⟨[], f.record.encryptedMetadata,
      f.record.encryptedFileKey⟩ (congrArg FileRecord.encryptedMetadata hrecord)
      (congrArg FileRecord.encryptedFileKey hrecord) hs (FileMetadata.text_ne_nil htext)
    rw [fileDataOf, hdecrypted, Option.bind_some, hdocument, Option.bind_some]
    exact FileData.ofMetadata_eq (hmembers _) (hmembers _)
      (by rw [hsize]; exact isInt_of_le_maxFileSize hmax) (hmembers _) _ _
  have hasked : uuid ∈ t.fileUuids false recipient ↔ myUsername ≠ recipient := by
    rw [SessionStore.mem_fileUuids_iff, hrow]
    refine ⟨?_, fun hne => ⟨_, rfl, hne, rfl⟩⟩
    rintro ⟨row, heq, hne, -⟩
    rwa [← Option.some.inj heq] at hne
  have hlisted : (∃ list owner, getFileMetadata A B parse false recipient files.getFilesMetadata t
        = .ok list ∧ ⟨metadata.name, metadata.size, metadata.mimeType, uuid, owner⟩ ∈ list)
      ↔ myUsername ≠ recipient := by
    constructor
    · rintro ⟨list, owner, hlist, hmem⟩
      exact hasked.mp (mem_fileUuids_of_getFileMetadata hlist hmem)
    · intro hne
      obtain ⟨list, hlist, hmem⟩ := mem_getFileMetadata hf hdata (hasked.mpr hne)
      exact ⟨list, f.owner, hlist, hmem⟩
  have hsaved : downloadFile A B uuid (getDownloadFile (files.downloadFile uuid)) t = .ok content
      ↔ content ≠ [] := by
    rw [FileServer.getDownloadFile_eq hf]
    exact downloadFile_iff hA { f.record with encryptedMetadata := [] }
      (congrArg FileRecord.encryptedFile hrecord) (congrArg FileRecord.encryptedFileKey hrecord)
      hs
  rw [FileArrived, hlisted, hsaved]
  exact and_comm

/-- **A file that was sent arrives exactly if it is not empty and comes from
another user.** Whatever a call of `send_file_to` that returned made for a
device is one of the messages the server accepted. If the server has stored
the file and hands the message on, and the device's session answers the key
of the message: after it polled, it lists the file and downloads what was
uploaded, unless it is empty or the sender's username is the device's own. -/
theorem fileDelivered_iff (hdev : ks.keypairs .device = some kp)
    (hsize : metadata.size = content.length) (hmax : content.length ≤ maxFileSizeBytes)
    (hsend : (sendFileTo S A B ks myUsername username filePath (some content) metadata draws server
      newBundles s).result = .ok (uuid, sent))
    (hm : (device, key, m) ∈ sent)
    (hint : IsInt m.header.prevChainLength ∧ IsInt m.header.messageIndex)
    (huuid : '\x00' ∉ uuid.toList ∧ uuid.length ≤ 63)
    (hstored : ∀ record, uploadFile A B filePath (some content) metadata draws.fKek draws.upload
      = .ok record → ∃ f, files uuid = some f ∧ f.record = record)
    (hparse : ReadsBack parse metadata)
    (hkey : (t.getKeyForDevice S fresh myUsername { m.header with deviceId := kp.1 }).1 = .ok key) :
    (∃ body entries, server.sendMessage body = .ok ()
        ∧ body.find? "messages" = some (.arr entries)
        ∧ (postRatchetMessage myUsername kp.1 device m).entry ∈ entries)
      ∧ (FileArrived A B parse files recipient uuid metadata content
          (pollMessages S A [((postRatchetMessage myUsername kp.1 device m).entry, fresh)] t).store
        ↔ content ≠ [] ∧ myUsername ≠ recipient) := by
  obtain ⟨⟨record, hup, -⟩, haccess⟩ := sendFileTo_cases hsend
  obtain ⟨bundles, -, haccess⟩ := allowAccess_cases haccess
  obtain ⟨hmade, haccepted⟩ := postAccess_cases haccess
  refine ⟨?_, ?_⟩
  · obtain ⟨body, hbody, hsent⟩ := haccepted (List.ne_nil_of_mem hm)
    obtain ⟨entries, hentries, hbody⟩ := exists_of_bind_eq_ok hbody
    obtain rfl := Except.ok.inj hbody
    exact ⟨_, entries, hsent, rfl,
      mem_messageEntries hdev hentries (List.mem_map.mpr ⟨(device, key, m), hm, rfl⟩)⟩
  obtain ⟨header, hheader⟩ := eq_deviceMessage_of_allowAccessToFile hmade hm
  obtain ⟨f, hf, rfl⟩ := hstored record hup
  exact fileArrived_iff hA hsize hmax hup hf hparse (lookup_pollMessages hA huuid hheader hint hkey)

end Delivery

/-! ## A file that is sent -/

namespace FileDelivery

/-- A file of a user, with what it holds. -/
def metadata (content : List UInt8) : FileMetadata := ⟨"a.txt", content.length, "text/plain"⟩

/-- What is uploaded of it. -/
def record (content : List UInt8) : Except Fault FileRecord :=
  uploadFile Aead.labelled .array "a.txt" (some content) (metadata content) SendDraws.repeated.fKek
    SendDraws.repeated.upload

/-- The server has the file. -/
def files (content : List UInt8) : FileServer := fun uuid =>
  match record content with
  | .ok r =>
    if h : uuid = "report" ∧ r.encryptedFile ≠ [] ∧ r.encryptedMetadata ≠ []
        ∧ r.encryptedFileKey ≠ [] then
      some ⟨r, "alice", h.2.1, h.2.2.1, h.2.2.2⟩
    else none
  | .error _ => none

/-- The text of the metadata is parsed as it was written. -/
def parse (content : List UInt8) (text : List UInt8) : Option Json :=
  match (metadata content).text with
  | .ok written => if written = text then some (metadata content).document else none
  | .error _ => none

/-- Alice gets the bundle of bob's one device and sends him the file. -/
def send (content : List UInt8) : Outcome Key (String × List (Key × Key × DeviceMessage Key)) :=
  sendFileTo Sodium.bytes Aead.labelled .array (.repeated 5 []) "alice" "bob" "a.txt"
    (some content) (metadata content) .repeated .accepting
    (some (.ok [(Published.repeated true).bundle (.repeated 5) (.repeated 7)])) ⟨∅, ∅, ∅⟩

/-- Bob has accepted her handshake. -/
def bob : SessionStore Key :=
  (SessionStore.createRatchetsIfNeeded Sodium.bytes (Published.repeated true).ks "alice" true
    [.receiving (((Published.repeated true).bundle (.repeated 5) (.repeated 7)).relayed
      (.repeated 5) (.repeated 1))] ⟨∅, ∅, ∅⟩).store

/-- Bob's store after he polled a message of hers. -/
def polled (device : Key) (m : DeviceMessage Key) : SessionStore Key :=
  (pollMessages Sodium.bytes Aead.labelled
    [((postRatchetMessage "alice" (.repeated 5) device m).entry, 0)] bob).store

/-- The one message that is posted is answered by bob's ratchet. -/
def answered (content : List UInt8) : Bool :=
  match (send content).result with
  | .ok (uuid, [(_, key, m)]) =>
    decide (uuid = "report" ∧ IsInt m.header.prevChainLength ∧ IsInt m.header.messageIndex
      ∧ (bob.getKeyForDevice Sodium.bytes 0 "alice"
        { m.header with deviceId := .repeated 5 }).1 = .ok key)
  | _ => false

theorem exists_of_answered {content : List UInt8} (h : answered content = true) :
    ∃ device key m, (send content).result = .ok ("report", [(device, key, m)])
      ∧ (IsInt m.header.prevChainLength ∧ IsInt m.header.messageIndex)
      ∧ (bob.getKeyForDevice Sodium.bytes 0 "alice"
        { m.header with deviceId := .repeated 5 }).1 = .ok key := by
  unfold answered at h
  split at h
  · rename_i uuid device key m hresult
    obtain ⟨rfl, hprev, hindex, hkey⟩ := of_decide_eq_true h
    exact ⟨device, key, m, hresult, ⟨hprev, hindex⟩, hkey⟩
  · cases h

theorem readsBack (content : List UInt8) : ReadsBack (parse content) (metadata content) := by
  intro text htext
  refine ⟨(metadata content).document, ?_, fun _ => rfl⟩
  unfold parse
  rw [htext]
  exact if_pos rfl

end FileDelivery

open FileDelivery in
/-- Three bytes arrive. -/
theorem fileDelivered_iff_bytes :
    ∃ device key m, (send [1, 2, 3]).result = .ok ("report", [(device, key, m)])
      ∧ (FileArrived Aead.labelled .array (parse [1, 2, 3]) (files [1, 2, 3]) "bob" "report"
          (metadata [1, 2, 3]) [1, 2, 3] (polled device m)
        ↔ ([1, 2, 3] : List UInt8) ≠ [] ∧ "alice" ≠ "bob") := by
  obtain ⟨device, key, m, hsend, hint, hkey⟩ :=
    exists_of_answered (by decide +kernel : answered [1, 2, 3] = true)
  have hdev : (KeyStore.repeated 5 []).keypairs .device = some (Key.repeated 5, Key.repeated 5) :=
    rfl
  refine ⟨device, key, m, hsend, (fileDelivered_iff Aead.labelled_ideal hdev rfl (by decide) hsend
    (List.mem_singleton_self _) hint (by decide) (fun r hr => ?_) (readsBack [1, 2, 3]) hkey).2⟩
  have hparts : (match record [1, 2, 3] with
      | .ok r => decide (r.encryptedFile ≠ [] ∧ r.encryptedMetadata ≠ [] ∧ r.encryptedFileKey ≠ [])
      | .error _ => false) = true := by
    decide +kernel
  replace hr : record [1, 2, 3] = .ok r := hr
  rw [hr] at hparts
  have hall := of_decide_eq_true hparts
  refine ⟨⟨r, "alice", hall.1, hall.2.1, hall.2.2⟩, ?_, rfl⟩
  unfold files
  rw [hr]
  exact dif_pos ⟨rfl, hall⟩

namespace FileDelivery

/-- Bob lists the empty file that was sent, and cannot download it. -/
def unread : Bool :=
  match (send []).result, files [] "report" with
  | .ok (_, [(device, _, m)]), some f =>
    decide ((((polled device m).fileUuids false "bob").filterMap (files []).metadata).filterMap
        (fileDataOf Aead.labelled .array (parse []) (polled device m))
          = [⟨"a.txt", 0, "text/plain", "report", "alice"⟩]
      ∧ downloadFile Aead.labelled .array "report"
        (.ok { f.record with encryptedMetadata := [] }) (polled device m)
          = .error "You no longer have access to this file")
  | _, _ => false

end FileDelivery

open FileDelivery in
/-- **The empty file does not**: it is listed, and downloading it ends in a
dialog. -/
theorem not_fileDelivered_empty :
    ∃ device key m, (send []).result = .ok ("report", [(device, key, m)])
      ∧ (bob.getKeyForDevice Sodium.bytes 0 "alice"
          { m.header with deviceId := .repeated 5 }).1 = .ok key
      ∧ getFileMetadata Aead.labelled .array (parse []) false "bob" (files []).getFilesMetadata
          (polled device m) = .ok [⟨"a.txt", 0, "text/plain", "report", "alice"⟩]
      ∧ downloadFile Aead.labelled .array "report"
          (getDownloadFile ((files []).downloadFile "report")) (polled device m)
            = .error "You no longer have access to this file" := by
  obtain ⟨device, key, m, hsend, -, hkey⟩ :=
    exists_of_answered (by decide +kernel : answered [] = true)
  -- the hexadecimal text of what the server has is undone by the lemmas
  have hread : unread = true := by decide +kernel
  unfold unread at hread
  cases hf : files [] "report" with
  | none =>
    rw [hsend, hf] at hread
    cases hread
  | some f =>
    rw [hsend, hf] at hread
    obtain ⟨hlisted, hdownloaded⟩ := of_decide_eq_true hread
    refine ⟨device, key, m, hsend, hkey, ?_, ?_⟩
    · rw [getFileMetadata_eq, hlisted]
    · rw [FileServer.getDownloadFile_eq hf, hdownloaded]
