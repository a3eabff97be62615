import Eastwood.MessageTables
import Eastwood.Superseding

/-!
# Lists of messages

The tables of messages are read as lists: the files a user received or sent,
the messages of everybody else, of the user and of one device. Each list is a
statement over `messages`; for each row its key is looked up, by the user and
the device as well, and a row whose key is missing or does not open is
skipped, and so is a file that came before.

Nothing is ever skipped, as long as no save is cut off between its two
statements. After saves that fail before the first or go through, and
deletions that may also fail halfway, every row of `messages` has its row of
`message_keys`, and the lists are made of what was saved and neither replaced
nor deleted since, in the order it was saved in (`listings_storeAfter`). No
statement asks for an order: it is that of SQLite's scan by rowid, and a row
that is inserted or replaced gets the next one.
-/

variable (A : Aead Key) (B : KeyBytes Key) (kek : Option Key)

/-! ## The lists -/

/-- A row of `messages`. -/
abbrev MessageRow := CipherRow String (String × Key × Bool)

namespace MessageEntries

/-- `WHERE username = ? AND device_id = ? AND file_uuid = ?`. -/
def keyOf (username : String) (deviceId : Key) (fileUuid : String)
    (row : CipherRow String (String × Key)) : Bool :=
  row.info = (username, deviceId) && row.key = fileUuid

/-- **`get_decrypted_message_by_username_device`**: the first row there is. -/
def getDecryptedMessageByUsernameDevice (username : String) (fromDeviceId : Key)
    (t : MessageEntries) : Except Fault (List UInt8) := do
  let row ← orThrow "No message found for the given username and device_id"
    (t.data.select fun row => row.info.1 = username && row.info.2.1 = fromDeviceId)
  t.openRow A B kek "No key found for the given username, device_id, and file_uuid"
    (keyOf username fromDeviceId row.key) row

/-- What a list has of a row: nothing, if its key is missing or does not open
it. -/
def openMessage (t : MessageEntries) (row : MessageRow) : Option (List UInt8) :=
  (t.openRow A B kek "" (keyOf row.info.1 row.info.2.1 row.key) row).toOption

/-- **`get_all_decrypted_messages_for_user`.** -/
def getAllDecryptedMessagesForUser (username : String) (t : MessageEntries) :
    List (String × Key × List UInt8) :=
  (t.data.rows.filter fun row => row.info.1 = username).filterMap fun row =>
    (t.openMessage A B kek row).map fun message => (row.key, row.info.2.1, message)

/-- The messages of some rows, of each file the first. -/
def decryptedMessages (p : MessageRow → Bool) (t : MessageEntries) :
    List (String × String × Key × List UInt8) :=
  (Superseding.unseen CipherRow.key [] (t.data.rows.filter p)).filterMap fun row =>
    (t.openMessage A B kek row).map fun message => (row.info.1, row.key, row.info.2.1, message)

/-- **`get_all_decrypted_messages`.** -/
def getAllDecryptedMessages (currentUsername : String) :
    MessageEntries → List (String × String × Key × List UInt8) :=
  decryptedMessages A B kek fun row => row.info.1 ≠ currentUsername

/-- **`get_all_decrypted_sent_messages`.** -/
def getAllDecryptedSentMessages (currentUsername : String) :
    MessageEntries → List (String × String × Key × List UInt8) :=
  decryptedMessages A B kek fun row => row.info.1 = currentUsername

/-- The files of some rows, with their users. -/
def fileUuids (p : MessageRow → Bool) (t : MessageEntries) : List (String × String) :=
  (Superseding.unseen CipherRow.key [] (t.data.rows.filter p)).map fun row =>
    (row.key, row.info.1)

/-- **`get_all_received_file_uuids`.** -/
def getAllReceivedFileUuids (currentUsername : String) :
    MessageEntries → List (String × String) :=
  fileUuids fun row => row.info.1 ≠ currentUsername && !row.info.2.2

/-- **`get_all_sent_file_uuids`.** -/
def getAllSentFileUuids (currentUsername : String) : MessageEntries → List (String × String) :=
  fileUuids fun row => row.info.1 ≠ currentUsername && row.info.2.2

end MessageEntries

/-! ## The calls -/

/-- **`delete_file`**: the server is told first. -/
def deleteFile (fileUuid : String) (post first second third : Except Fault Unit) :
    Throwing MessageTables Fault Unit := do
  Throwing.answer post
  deleteFileFromDatabase fileUuid first second third

/-- **A call** that writes, with what it is given, draws and is answered. -/
inductive StoreCall where
  | save (fileUuid : String) (m : StoredMessage Key) (draws : EnvelopeDraws Key)
    (first second : Except Fault Unit)
  | delete (fileUuid : String) (post first second third : Except Fault Unit)

namespace StoreCall

/-- A save as such. -/
def save? : StoreCall → Option MessageCall
  | save fileUuid m draws _ _ =>
    some (.save m.username m.fromDeviceId fileUuid m.message m.isSender draws)
  | delete .. => none

/-- **What a call does.** -/
def run (kek : Key) : StoreCall → Throwing MessageTables Fault Unit
  | save fileUuid m draws first second => fun t =>
    let (result, entries) := MessageEntries.saveMessageAndKey m.username m.fromDeviceId fileUuid
      (m.enclosed A B kek draws).envelope m.isSender first second t.entries
    (result, { t with entries := entries })
  | delete fileUuid post first second third =>
    deleteFile fileUuid post first second third

/-- **A call that is not cut off** between the statements of a save. -/
def Whole : StoreCall → Prop
  | save _ _ _ first second => first.isOk → second.isOk
  | delete .. => True

instance (c : StoreCall) : Decidable c.Whole :=
  match c with
  | save _ _ _ first second => inferInstanceAs (Decidable (first.isOk → second.isOk))
  | delete .. => inferInstanceAs (Decidable True)

/-- What was saved, after a call: a save supersedes what was saved of its
file, and a deletion that gets as far as `messages` drops it. -/
def saves : StoreCall → List (String × StoredMessage Key) → List (String × StoredMessage Key)
  | save fileUuid m _ first second => fun saved =>
    if first.isOk && second.isOk then Superseding.put Prod.fst (fileUuid, m) saved else saved
  | delete fileUuid post first second _ => fun saved =>
    if post.isOk && first.isOk && second.isOk then Superseding.drop Prod.fst fileUuid saved
    else saved

end StoreCall

/-- The tables after some calls. -/
def storeAfter (kek : Key) (calls : List StoreCall) : MessageTables :=
  Throwing.after (StoreCall.run A B kek) calls .empty

/-- **What is saved** after some calls, in the order of its saving. -/
def saved (calls : List StoreCall) : List (String × StoredMessage Key) :=
  calls.foldl (fun saved c => c.saves saved) []

/-! ## The tables and what is saved -/

/-- What was saved, with what was drawn for it. -/
structure SavedEntry where
  fileUuid : String
  message : StoredMessage Key
  draws : EnvelopeDraws Key

/-- Its rows. -/
def SavedEntry.rows (kek : Key) (e : SavedEntry) :
    EntryRows String (String × Key × Bool) (String × Key) :=
  (e.message.enclosed A B kek e.draws).rows e.fileUuid

/-- Without what was drawn. -/
def SavedEntry.saved (e : SavedEntry) : String × StoredMessage Key := (e.fileUuid, e.message)

/-- **The tables mirror some entries**: `messages` has their rows in their
order, and `message_keys` has the row of each. -/
structure MessageEntries.Mirrors (kek : Key) (t : MessageEntries) (l : List SavedEntry) :
    Prop where
  data : t.data.rows = l.map fun e => (e.rows A B kek).data
  keys : ∀ e ∈ l, (e.rows A B kek).key ∈ t.keys
  nodup : (l.map SavedEntry.fileUuid).Nodup

section Mirrors

variable {A B} {kek : Key} {t : MessageEntries} {l : List SavedEntry} {e : SavedEntry}

/-- A row that has no nonce and no ciphertext in common with others supersedes
that of its file. -/
theorem rows_insertOrReplace {α : Type} {t : CipherTable String α} {row : CipherRow String α}
    (hapart : ∀ r ∈ t, r.nonce ≠ row.nonce ∧ r.blob ≠ row.blob) :
    (t.insertOrReplace row).rows = Superseding.put CipherRow.key row t.rows := by
  refine congrArg (· ++ [row]) (List.filter_congr fun r hr => decide_eq_decide.mpr ?_)
  refine not_congr ⟨?_, Or.inl⟩
  rintro (hkey | hnonce | hblob)
  · exact hkey
  · exact absurd hnonce (hapart r hr).1
  · exact absurd hblob (hapart r hr).2

namespace MessageEntries

theorem mirrors_empty : Mirrors A B kek .empty [] where
  data := rfl
  keys _ he := absurd he List.not_mem_nil
  nodup := List.nodup_nil

/-- **A save is mirrored**, if nothing repeats. -/
theorem Mirrors.save (h : t.Mirrors A B kek l)
    {written : List (EntryRows String (String × Key × Bool) (String × Key))}
    (hw : t.WrittenBy written) (hapart : ∀ rows ∈ written, rows.Apart (e.rows A B kek)) :
    Mirrors A B kek (EntryTables.save (.ok ()) (.ok ()) (e.rows A B kek) t).2
      (Superseding.put SavedEntry.fileUuid e l) where
  data := by
    have hdata : ∀ r ∈ t.data, r.nonce ≠ (e.rows A B kek).data.nonce
        ∧ r.blob ≠ (e.rows A B kek).data.blob := by
      intro r hr
      obtain ⟨rows, hrows, rfl⟩ := hw.data r hr
      exact ⟨(hapart rows hrows).nonce, (hapart rows hrows).blob⟩
    refine (rows_insertOrReplace hdata).trans ?_
    rw [h.data]
    exact (Superseding.map_put (f := fun e : SavedEntry => (e.rows A B kek).data) fun _ => rfl).symm
  keys e' he' := by
    refine Table.mem_insertOrReplace.mpr ?_
    obtain ⟨hmem, hfile⟩ | rfl := Superseding.mem_put.mp he'
    · refine Or.inl ⟨h.keys e' hmem, ?_⟩
      obtain ⟨rows, hrows, heq⟩ := hw.keys _ (h.keys e' hmem)
      have hrows := hapart rows hrows
      rw [← heq]
      rintro (hkey | hnonce | hblob)
      · rw [heq] at hkey
        exact hfile hkey
      · exact hrows.keyNonce hnonce
      · exact hrows.keyBlob hblob
    · exact Or.inr rfl
  nodup := Superseding.nodup_put h.nodup

/-- **A deletion is mirrored**, whatever becomes of the keys of its file. -/
theorem Mirrors.drop (h : t.Mirrors A B kek l) (fileUuid : String)
    {keys : CipherTable String (String × Key)}
    (hkeys : ∀ row ∈ t.keys, row.key ≠ fileUuid → row ∈ keys) :
    Mirrors A B kek ⟨t.data.delete fun row => row.key = fileUuid, keys⟩
      (Superseding.drop SavedEntry.fileUuid fileUuid l) where
  data := by
    have hdelete : (t.data.delete fun row => row.key = fileUuid).rows
        = Superseding.drop CipherRow.key fileUuid t.data.rows := by
      refine List.filter_congr fun row _ => ?_
      rw [decide_not]
    refine hdelete.trans ?_
    rw [h.data]
    exact (Superseding.map_drop (f := fun e : SavedEntry => (e.rows A B kek).data)
      fun _ => rfl).symm
  keys e' he' :=
    hkeys _ (h.keys e' (Superseding.mem_drop.mp he').1) (Superseding.mem_drop.mp he').2
  nodup := Superseding.nodup_drop h.nodup

/-! ### What is read -/

theorem isKey_keyOf {username : String} {deviceId : Key} {fileUuid : String} :
    Table.IsKey CipherRow.Clash (keyOf username deviceId fileUuid) := by
  intro a b ha hb
  rw [keyOf, Bool.and_eq_true, decide_eq_true_iff, decide_eq_true_iff] at ha hb
  exact Or.inl (ha.2.trans hb.2.symm)

/-- **The row of an entry opens to its message.** -/
theorem Mirrors.openRow_eq (h : t.Mirrors A B kek l) (hA : A.Ideal) (he : e ∈ l)
    (noKey : String) : t.openRow A B (some kek) noKey
        (keyOf e.message.username e.message.fromDeviceId e.fileUuid) (e.rows A B kek).data
      = .ok e.message.message := by
  have hkey : t.keys.select (keyOf e.message.username e.message.fromDeviceId e.fileUuid)
      = some (e.rows A B kek).key := by
    refine (Table.mem_select isKey_keyOf).mpr ⟨h.keys e he, ?_⟩
    rw [keyOf, Bool.and_eq_true, decide_eq_true_iff, decide_eq_true_iff]
    exact ⟨rfl, rfl⟩
  unfold EntryTables.openRow
  rw [hkey]
  exact Envelope.contents_enclose hA e.draws e.message.message

theorem Mirrors.openMessage_eq (h : t.Mirrors A B kek l) (hA : A.Ideal) (he : e ∈ l) :
    t.openMessage A B (some kek) (e.rows A B kek).data = some e.message.message :=
  congrArg Except.toOption (h.openRow_eq hA he "")

/-- So of entries that are listed none is missing. -/
theorem Mirrors.filterMap_openMessage {γ : Type} (h : t.Mirrors A B kek l) (hA : A.Ideal)
    (f : MessageRow → List UInt8 → γ) {l' : List SavedEntry} (hl' : ∀ e ∈ l', e ∈ l) :
    (l'.map fun e => (e.rows A B kek).data).filterMap
        (fun row => (t.openMessage A B (some kek) row).map (f row))
      = l'.map fun e => f (e.rows A B kek).data e.message.message := by
  rw [List.filterMap_map]
  refine (List.filterMap_congr fun e he => ?_).trans (congrFun List.filterMap_eq_map l')
  rw [Function.comp, h.openMessage_eq hA (hl' e he)]
  rfl

/-- The rows that meet a condition are those of the entries that do, -/
theorem Mirrors.filter_rows (h : t.Mirrors A B kek l) (p : MessageRow → Bool) :
    t.data.rows.filter p
      = (l.filter fun e => p (e.rows A B kek).data).map fun e => (e.rows A B kek).data := by
  rw [h.data, List.filter_map]
  rfl

/-- and of no file there are two. -/
theorem Mirrors.unseen_rows (h : t.Mirrors A B kek l) (p : MessageRow → Bool) :
    Superseding.unseen CipherRow.key [] (t.data.rows.filter p) = t.data.rows.filter p := by
  refine Superseding.unseen_of_nodup ?_ fun _ _ => List.not_mem_nil
  rw [h.filter_rows, List.map_map]
  exact h.nodup.sublist (List.filter_sublist.map SavedEntry.fileUuid)

theorem Mirrors.decryptedMessages_eq (h : t.Mirrors A B kek l) (hA : A.Ideal)
    (p : MessageRow → Bool) : t.decryptedMessages A B (some kek) p
      = (l.filter fun e => p (e.rows A B kek).data).map fun e =>
        (e.message.username, e.fileUuid, e.message.fromDeviceId, e.message.message) := by
  rw [decryptedMessages, h.unseen_rows, h.filter_rows]
  exact h.filterMap_openMessage hA
    (fun row message => (row.info.1, row.key, row.info.2.1, message)) fun e he =>
      (List.mem_filter.mp he).1

theorem Mirrors.getAllDecryptedMessagesForUser_eq (h : t.Mirrors A B kek l) (hA : A.Ideal)
    (username : String) : t.getAllDecryptedMessagesForUser A B (some kek) username
      = (l.filter fun e => e.message.username = username).map fun e =>
        (e.fileUuid, e.message.fromDeviceId, e.message.message) := by
  rw [getAllDecryptedMessagesForUser, h.filter_rows]
  exact h.filterMap_openMessage hA (fun row message => (row.key, row.info.2.1, message))
    fun e he => (List.mem_filter.mp he).1

theorem Mirrors.fileUuids_eq (h : t.Mirrors A B kek l) (p : MessageRow → Bool) :
    t.fileUuids p = (l.filter fun e => p (e.rows A B kek).data).map fun e =>
      (e.fileUuid, e.message.username) := by
  rw [fileUuids, h.unseen_rows, h.filter_rows, List.map_map]
  rfl

theorem Mirrors.getDecryptedMessageByUsernameDevice_eq (h : t.Mirrors A B kek l)
    (hA : A.Ideal) (username : String) (fromDeviceId : Key) :
    t.getDecryptedMessageByUsernameDevice A B (some kek) username fromDeviceId
      = orThrow "No message found for the given username and device_id"
        ((l.find? fun e => e.message.username = username
          && e.message.fromDeviceId = fromDeviceId).map fun e => e.message.message) := by
  unfold getDecryptedMessageByUsernameDevice Table.select
  rw [h.data, List.find?_map]
  change orThrow _ (Option.map _ (l.find? fun e => e.message.username = username
    && e.message.fromDeviceId = fromDeviceId)) >>= _ = _
  cases hfind : l.find? fun e => e.message.username = username
    && e.message.fromDeviceId = fromDeviceId with
  | none => rfl
  | some e =>
    have hof := List.find?_some hfind
    rw [Bool.and_eq_true, decide_eq_true_iff, decide_eq_true_iff] at hof
    obtain ⟨rfl, rfl⟩ := hof
    exact h.openRow_eq hA (List.mem_of_find?_eq_some hfind) _

end MessageEntries

end Mirrors

/-! ## After some calls -/

/-- What was saved and drawn, after a call. -/
def StoreCall.entries : StoreCall → List SavedEntry → List SavedEntry
  | save fileUuid m draws first second => fun l =>
    if first.isOk && second.isOk then Superseding.put SavedEntry.fileUuid ⟨fileUuid, m, draws⟩ l
    else l
  | delete fileUuid post first second _ => fun l =>
    if post.isOk && first.isOk && second.isOk then Superseding.drop SavedEntry.fileUuid fileUuid l
    else l

section Runs

variable {A B} {kek : Key} {calls : List StoreCall} {c : StoreCall}

theorem StoreCall.map_entries (l : List SavedEntry) :
    (c.entries l).map SavedEntry.saved = c.saves (l.map SavedEntry.saved) := by
  cases c with
  | save fileUuid m draws first second =>
    dsimp only [StoreCall.entries, StoreCall.saves]
    split
    · exact Superseding.map_put fun _ => rfl
    · rfl
  | delete fileUuid post first second third =>
    dsimp only [StoreCall.entries, StoreCall.saves]
    split
    · exact Superseding.map_drop fun _ => rfl
    · rfl

variable (A B kek) in
/-- **How a whole save can go**: nothing is written, or both rows are. -/
theorem StoreCall.run_save_cases (t : MessageTables) {fileUuid : String} {m : StoredMessage Key}
    {draws : EnvelopeDraws Key} {first second : Except Fault Unit}
    (hwhole : (StoreCall.save fileUuid m draws first second).Whole) :
    (((StoreCall.save fileUuid m draws first second).run A B kek t).2 = t
        ∧ (first.isOk && second.isOk) = false)
      ∨ (((StoreCall.save fileUuid m draws first second).run A B kek t).2
          = { t with entries := (EntryTables.save (.ok ()) (.ok ())
              (SavedEntry.rows A B kek ⟨fileUuid, m, draws⟩) t.entries).2 }
        ∧ (first.isOk && second.isOk) = true) := by
  cases first with
  | error e => exact Or.inl ⟨rfl, rfl⟩
  | ok _ =>
    cases second with
    | error e => cases hwhole rfl
    | ok _ => exact Or.inr ⟨rfl, rfl⟩

/-- **A deletion is mirrored** however far it gets. -/
theorem MessageEntries.Mirrors.delete {t : MessageTables} {l : List SavedEntry}
    (h : t.entries.Mirrors A B kek l) (fileUuid : String)
    (post first second third : Except Fault Unit) :
    (deleteFile fileUuid post first second third t).2.entries.Mirrors A B kek
      ((StoreCall.delete fileUuid post first second third).entries l) := by
  cases post with
  | error e => exact h
  | ok _ =>
    cases first with
    | error e => exact h
    | ok _ =>
      cases second with
      | error e => exact h
      | ok _ =>
        cases third with
        | error e => exact h.drop fileUuid fun row hrow _ => hrow
        | ok _ =>
          refine h.drop fileUuid fun row hrow hne => Table.mem_delete.mpr ⟨hrow, ?_⟩
          exact decide_eq_false hne

/-- More may have been written. -/
theorem MessageEntries.WrittenBy.mono {t : MessageEntries}
    {written more : List (EntryRows String (String × Key × Bool) (String × Key))}
    (h : t.WrittenBy written) (hsub : written ⊆ more) : t.WrittenBy more where
  data row hrow := by
    obtain ⟨rows, hrows, heq⟩ := h.data row hrow
    exact ⟨rows, hsub hrows, heq⟩
  keys row hrow := by
    obtain ⟨rows, hrows, heq⟩ := h.keys row hrow
    exact ⟨rows, hsub hrows, heq⟩

/-- A deletion writes nothing. -/
theorem MessageEntries.WrittenBy.deleteFile {t : MessageTables}
    {written : List (EntryRows String (String × Key × Bool) (String × Key))}
    (h : t.entries.WrittenBy written) (fileUuid : String)
    (post first second third : Except Fault Unit) :
    (deleteFile fileUuid post first second third t).2.entries.WrittenBy written := by
  cases post with
  | error e => exact h
  | ok _ =>
    cases first with
    | error e => exact h
    | ok _ =>
      cases second with
      | error e => exact h
      | ok _ =>
        cases third with
        | error e => exact ⟨fun row hrow => h.data row (Table.mem_delete.mp hrow).1, h.keys⟩
        | ok _ => exact h.delete fileUuid

theorem storeAfter_concat : storeAfter A B kek (calls ++ [c])
    = (c.run A B kek (storeAfter A B kek calls)).2 := by
  unfold storeAfter Throwing.after
  rw [List.foldl_append]
  rfl

theorem saved_concat : saved (calls ++ [c]) = c.saves (saved calls) := by
  unfold saved
  rw [List.foldl_append]
  rfl

/-- **After any calls the tables mirror what is saved.** -/
theorem mirrors_storeAfter (hwhole : ∀ c ∈ calls, c.Whole)
    (hfresh : NeverRepeat A B kek (calls.filterMap StoreCall.save?)) :
    (∃ l, (storeAfter A B kek calls).entries.Mirrors A B kek l
        ∧ l.map SavedEntry.saved = saved calls)
      ∧ (storeAfter A B kek calls).entries.WrittenBy
        ((calls.filterMap StoreCall.save?).filterMap (MessageCall.rows? A B kek)) := by
  induction calls using List.reverseRecOn with
  | nil => exact ⟨⟨[], MessageEntries.mirrors_empty, rfl⟩, MessageEntries.writtenBy_empty⟩
  | append_singleton calls c ih =>
    rw [List.filterMap_append] at hfresh ⊢
    obtain ⟨⟨l, hmirrors, hsaved⟩, hwritten⟩ :=
      ih (fun c hc => hwhole c (List.mem_append_left _ hc)) hfresh.of_append
    have hwhole := hwhole c (List.mem_append_right _ (List.mem_singleton_self _))
    rw [storeAfter_concat, saved_concat, ← hsaved, ← StoreCall.map_entries]
    unfold NeverRepeat at hfresh
    rw [List.filterMap_append] at hfresh ⊢
    obtain ⟨-, -, hapart⟩ := List.pairwise_append.mp hfresh
    cases c with
    | save fileUuid m draws first second =>
      have hrows : ∀ rows ∈ (calls.filterMap StoreCall.save?).filterMap
          (MessageCall.rows? A B kek),
          rows.Apart (SavedEntry.rows A B kek ⟨fileUuid, m, draws⟩) := fun rows hr =>
        hapart rows hr _ (List.mem_singleton_self _)
      rcases StoreCall.run_save_cases A B kek (storeAfter A B kek calls) hwhole
        with ⟨hrun, hcut⟩ | ⟨hrun, hboth⟩
      · rw [hrun, StoreCall.entries, hcut]
        exact ⟨⟨_, hmirrors, rfl⟩, hwritten.mono (List.subset_append_left _ _)⟩
      · rw [hrun, StoreCall.entries, hboth]
        exact ⟨⟨_, hmirrors.save hwritten hrows, rfl⟩, hwritten.save _⟩
    | delete fileUuid post first second third =>
      refine ⟨⟨_, hmirrors.delete fileUuid post first second third, rfl⟩, ?_⟩
      have hnone : ([StoreCall.delete fileUuid post first second third].filterMap
          StoreCall.save?).filterMap (MessageCall.rows? A B kek) = [] := rfl
      rw [hnone, List.append_nil]
      exact hwritten.deleteFile fileUuid post first second third

/-- What is listed of the entries is listed of what is saved. -/
theorem map_filter_saved {γ : Type} {l : List SavedEntry}
    (hl : l.map SavedEntry.saved = saved calls) (p : String × StoredMessage Key → Bool)
    (f : String × StoredMessage Key → γ) :
    (l.filter fun e => p e.saved).map (fun e => f e.saved) = ((saved calls).filter p).map f := by
  rw [← hl, List.filter_map, List.map_map]
  rfl

end Runs

/-- **The lists have what is saved**, after any saves that are not cut off
between their statements and any deletions that may fail at any point: of the
files and the messages of others, of the user and of a device nothing is
missing, nothing is there twice, and the order is that of saving. -/
theorem listings_storeAfter {A : Aead Key} (hA : A.Ideal) (B : KeyBytes Key) (kek : Key)
    (calls : List StoreCall) (hwhole : ∀ c ∈ calls, c.Whole)
    (hfresh : NeverRepeat A B kek (calls.filterMap StoreCall.save?)) :
    let t := (storeAfter A B kek calls).entries
    ((saved calls).map Prod.fst).Nodup
    ∧ (∀ u, t.getAllReceivedFileUuids u
        = ((saved calls).filter fun (_, m) => m.username ≠ u && !m.isSender).map
          fun (file, m) => (file, m.username))
    ∧ (∀ u, t.getAllSentFileUuids u
        = ((saved calls).filter fun (_, m) => m.username ≠ u && m.isSender).map
          fun (file, m) => (file, m.username))
    ∧ (∀ u, t.getAllDecryptedMessages A B (some kek) u
        = ((saved calls).filter fun (_, m) => m.username ≠ u).map
          fun (file, m) => (m.username, file, m.fromDeviceId, m.message))
    ∧ (∀ u, t.getAllDecryptedSentMessages A B (some kek) u
        = ((saved calls).filter fun (_, m) => m.username = u).map
          fun (file, m) => (m.username, file, m.fromDeviceId, m.message))
    ∧ (∀ u, t.getAllDecryptedMessagesForUser A B (some kek) u
        = ((saved calls).filter fun (_, m) => m.username = u).map
          fun (file, m) => (file, m.fromDeviceId, m.message))
    ∧ ∀ u d, t.getDecryptedMessageByUsernameDevice A B (some kek) u d
        = orThrow "No message found for the given username and device_id"
          (((saved calls).find? fun (_, m) => m.username = u && m.fromDeviceId = d).map
            fun (_, m) => m.message) := by
  obtain ⟨⟨l, h, hl⟩, -⟩ := mirrors_storeAfter hwhole hfresh
  refine ⟨?_, fun u => ?_, fun u => ?_, fun u => ?_, fun u => ?_, fun u => ?_, fun u d => ?_⟩
  · rw [← hl, List.map_map]
    exact h.nodup
  · exact (h.fileUuids_eq _).trans (map_filter_saved hl (fun m => m.2.username ≠ u
      && !m.2.isSender) fun m => (m.1, m.2.username))
  · exact (h.fileUuids_eq _).trans (map_filter_saved hl (fun m => m.2.username ≠ u
      && m.2.isSender) fun m => (m.1, m.2.username))
  · exact (h.decryptedMessages_eq hA _).trans (map_filter_saved hl (fun m => m.2.username ≠ u)
      fun m => (m.2.username, m.1, m.2.fromDeviceId, m.2.message))
  · exact (h.decryptedMessages_eq hA _).trans (map_filter_saved hl (fun m => m.2.username = u)
      fun m => (m.2.username, m.1, m.2.fromDeviceId, m.2.message))
  · exact (h.getAllDecryptedMessagesForUser_eq hA u).trans
      (map_filter_saved hl (fun m => m.2.username = u)
        fun m => (m.1, m.2.fromDeviceId, m.2.message))
  · rw [h.getDecryptedMessageByUsernameDevice_eq hA, ← hl, List.find?_map, Option.map_map]
    rfl

namespace StoreCall

/-- Two files of bob's device, one of them deleted as far as its key, and one
to bob. Of a fourth nothing could be saved. -/
def shared : List StoreCall :=
  [.save "report" ⟨"bob", .repeated 5, [1], false⟩ (.repeated 1) (.ok ()) (.ok ()),
    .save "notes" ⟨"bob", .repeated 5, [2], false⟩ (.repeated 2) (.ok ()) (.ok ()),
    .save "photo" ⟨"bob", .repeated 5, [3], true⟩ (.repeated 3) (.ok ()) (.ok ()),
    .save "notes" ⟨"bob", .repeated 5, [4], false⟩ (.repeated 4)
      (.error (.runtimeError "database is locked")) (.ok ()),
    .delete "report" (.ok ()) (.ok ()) (.ok ()) (.error (.runtimeError "database is locked"))]

end StoreCall

/-- The deleted file is in no list, though its key is still there. -/
theorem listings_shared :
    let t := (storeAfter .labelled .array (.repeated 8) StoreCall.shared).entries
    t.getAllReceivedFileUuids "alice" = [("notes", "bob")]
      ∧ t.getAllSentFileUuids "alice" = [("photo", "bob")]
      ∧ t.getDecryptedMessageByUsernameDevice .labelled .array (some (.repeated 8)) "bob"
        (.repeated 5) = .ok [2] := by
  have hfresh : NeverRepeat .labelled .array (.repeated 8)
      (StoreCall.shared.filterMap StoreCall.save?) := by
    unfold NeverRepeat
    decide +kernel
  have h := listings_storeAfter Aead.labelled_ideal .array (.repeated 8) StoreCall.shared
    (by decide) hfresh
  exact ⟨h.2.1 "alice", h.2.2.1 "alice", h.2.2.2.2.2.2 "bob" (.repeated 5)⟩
