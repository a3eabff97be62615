import Eastwood.TwoTables

/-!
# Messages as a map

Of the messages a file has, two tables keep what was saved last. A save
replaces rows, of its own file and of whatever has a nonce or a ciphertext in
common with it, a deletion deletes them, and to read is to look up both rows
by the file alone.

Three layers say what this is. The two tables are one table of sealed
messages, as long as no nonce and no ciphertext comes twice: the rows of a
file are those of one save (`Represents`). That table, opened, is a map. And
the map has what was written last (`lastWritten`). So calls of any kind, of
any users, devices and files, are answered by the last write of the file they
ask for (`lastWriteWins`).
-/

variable (A : Aead Key) (B : KeyBytes Key) (kek : Key)

/-! ## The calls -/

/-- `file_keys`, and the tables of messages. -/
structure MessageTables where
  fileKeys : CipherTable String Unit
  entries : MessageEntries

/-- Tables without messages. -/
def MessageTables.empty : MessageTables := ⟨.empty, .empty⟩

/-- **`delete_file_from_database`.** -/
def deleteFileFromDatabase (fileUuid : String) (first second third : Except Fault Unit) :
    Throwing MessageTables Fault Unit := do
  statement first fun t => { t with fileKeys := t.fileKeys.delete fun row => row.key = fileUuid }
  statement second fun t =>
    { t with
      entries := { t.entries with data := t.entries.data.delete fun row => row.key = fileUuid } }
  statement third fun t =>
    { t with
      entries := { t.entries with keys := t.entries.keys.delete fun row => row.key = fileUuid } }

/-- **A call**, with what it is given and draws. -/
inductive MessageCall where
  | save (username : String) (fromDeviceId : Key) (fileUuid : String) (message : List UInt8)
    (sender : Bool) (draws : EnvelopeDraws Key)
  | get (fileUuid : String)
  | delete (fileUuid : String)

namespace MessageCall

/-- What is saved, sealed. -/
def sealed (username : String) (fromDeviceId : Key) (message : List UInt8) (sender : Bool)
    (draws : EnvelopeDraws Key) : SealedMessage Key :=
  StoredMessage.enclosed A B kek draws ⟨username, fromDeviceId, message, sender⟩

/-- **What a call does**, its statements succeeding: a `get` has a value. -/
def run : MessageCall → Throwing MessageTables Fault (Option (List UInt8))
  | save username fromDeviceId fileUuid message sender draws => fun t =>
    let e := (sealed A B kek username fromDeviceId message sender draws).envelope
    let (result, entries) := MessageEntries.saveMessageAndKey username fromDeviceId fileUuid e
      sender (.ok ()) (.ok ()) t.entries
    (result.map fun _ => none, { t with entries := entries })
  | get fileUuid =>
    Throwing.reads fun t => (t.entries.getDecryptedMessage A B (some kek) fileUuid).map some
  | delete fileUuid => do
    deleteFileFromDatabase fileUuid (.ok ()) (.ok ()) (.ok ())
    return none

/-- What a call writes of a file: a message, or that there is none. -/
def writes (file : String) : MessageCall → Option (Option (List UInt8))
  | save _ _ fileUuid message _ _ => if fileUuid = file then some (some message) else none
  | get _ => none
  | delete fileUuid => if fileUuid = file then some none else none

/-- The rows it inserts. -/
def rows? : MessageCall → Option (EntryRows String (String × Key × Bool) (String × Key))
  | save username fromDeviceId fileUuid message sender draws =>
    some ((sealed A B kek username fromDeviceId message sender draws).envelope.rows fileUuid
      (username, fromDeviceId, sender) (username, fromDeviceId))
  | _ => none

end MessageCall

/-- **The message of a file** after some calls: the latest saved, if it was
not deleted since. -/
def lastWritten (file : String) (calls : List MessageCall) : Option (List UInt8) :=
  calls.foldl (fun written c => (c.writes file).getD written) none

/-- Two entries without a nonce or a ciphertext in common. -/
structure EntryRows.Apart {κ α β : Type} (a b : EntryRows κ α β) : Prop where
  nonce : a.data.nonce ≠ b.data.nonce
  blob : a.data.blob ≠ b.data.blob
  keyNonce : a.key.nonce ≠ b.key.nonce
  keyBlob : a.key.blob ≠ b.key.blob

instance {κ α β : Type} (a b : EntryRows κ α β) : Decidable (a.Apart b) :=
  decidable_of_iff ((a.data.nonce ≠ b.data.nonce ∧ a.data.blob ≠ b.data.blob)
      ∧ a.key.nonce ≠ b.key.nonce ∧ a.key.blob ≠ b.key.blob)
    ⟨fun h => ⟨h.1.1, h.1.2, h.2.1, h.2.2⟩, fun h => ⟨⟨h.1, h.2⟩, h.3, h.4⟩⟩

/-- **Nonces and ciphertexts never repeat**, in any of their columns. -/
def NeverRepeat (calls : List MessageCall) : Prop :=
  (calls.filterMap (MessageCall.rows? A B kek)).Pairwise EntryRows.Apart

/-- The tables after some calls. -/
def messagesAfter (calls : List MessageCall) : MessageTables :=
  Throwing.after (MessageCall.run A B kek) calls .empty

/-! ## One table -/

/-- The two rows of a sealed message. -/
def SealedMessage.rows (m : SealedMessage Key) (fileUuid : String) :
    EntryRows String (String × Key × Bool) (String × Key) :=
  m.envelope.rows fileUuid (m.username, m.fromDeviceId, m.isSender) (m.username, m.fromDeviceId)

namespace SealedMessages

/-- What a call does to one table of sealed messages. -/
def apply : MessageCall → SealedMessages Key → SealedMessages Key
  | .save username fromDeviceId fileUuid message sender draws, table =>
    table.saveMessageAndKey fileUuid
      (MessageCall.sealed A B kek username fromDeviceId message sender draws)
  | .get _, table => table
  | .delete fileUuid, table => table.erase fileUuid

/-- The table after some calls. -/
def afterCalls (calls : List MessageCall) : SealedMessages Key :=
  calls.foldl (fun table c => table.apply A B kek c) ∅

end SealedMessages

/-- **The tables are one table**: both rows of a file are those of its sealed
message. -/
structure MessageEntries.Represents (t : MessageEntries) (table : SealedMessages Key) : Prop where
  data : ∀ file, t.data.select (fun row => row.key = file)
    = (table.lookup file).map fun m => (m.rows file).data
  keys : ∀ file, t.keys.select (fun row => row.key = file)
    = (table.lookup file).map fun m => (m.rows file).key

/-- Every row there is was inserted with one of some entries. -/
structure MessageEntries.WrittenBy (t : MessageEntries)
    (written : List (EntryRows String (String × Key × Bool) (String × Key))) : Prop where
  data : ∀ row ∈ t.data, ∃ rows ∈ written, rows.data = row
  keys : ∀ row ∈ t.keys, ∃ rows ∈ written, rows.key = row

section Refinement

variable {A B kek}

/-- A row that has nothing in common with the others replaces that of its file
alone, -/
theorem select_insertOrReplace_file {α : Type} {t : CipherTable String α}
    {row : CipherRow String α} (hapart : ∀ r ∈ t, r.nonce ≠ row.nonce ∧ r.blob ≠ row.blob)
    (file : String) : (t.insertOrReplace row).select (fun r => r.key = file)
      = if row.key = file then some row else t.select fun r => r.key = file := by
  split
  · rename_i hfile
    exact Table.select_insertOrReplace_self MessageEntries.isKey_fileUuid (decide_eq_true hfile)
  · rename_i hfile
    refine Table.select_insertOrReplace_of_not MessageEntries.isKey_fileUuid
      (decide_eq_false hfile) fun r hr hkey hclash => ?_
    rcases hclash with hsame | hnonce | hblob
    · exact hfile (hsame.symm.trans (of_decide_eq_true hkey))
    · exact (hapart r hr).1 hnonce
    · exact (hapart r hr).2 hblob

/-- and a deletion deletes that of its file. -/
theorem select_delete_file {α : Type} (t : CipherTable String α) (fileUuid file : String) :
    (t.delete fun r => r.key = fileUuid).select (fun r => r.key = file)
      = if fileUuid = file then none else t.select fun r => r.key = file := by
  split
  · rename_i hfile
    rw [hfile]
    exact Table.select_delete_self
  · rename_i hfile
    refine Table.select_delete_of_not MessageEntries.isKey_fileUuid fun r hr => ?_
    refine decide_eq_false fun hsame => hfile (hsame.symm.trans (of_decide_eq_true hr))

section Columns

variable {α : Type} {t : CipherTable String α} {table : SealedMessages Key}
  {written : List (EntryRows String (String × Key × Bool) (String × Key))}

/-- One of the two columns of rows, saved: the file's row is that of the new
message, -/
theorem select_save (row : SealedMessage Key → String → CipherRow String α)
    (hkey : ∀ m file, (row m file).key = file)
    (h : ∀ file, t.select (fun r => r.key = file) = (table.lookup file).map (row · file))
    {m : SealedMessage Key} {fileUuid : String}
    (hapart : ∀ r ∈ t, r.nonce ≠ (row m fileUuid).nonce ∧ r.blob ≠ (row m fileUuid).blob)
    (file : String) : (t.insertOrReplace (row m fileUuid)).select (fun r => r.key = file)
      = ((table.saveMessageAndKey fileUuid m).lookup file).map (row · file) := by
  rw [select_insertOrReplace_file hapart, hkey, h]
  unfold SealedMessages.saveMessageAndKey
  split
  · rename_i hfile
    rw [hfile, Finmap.lookup_insert, Option.map_some]
  · rename_i hfile
    rw [Finmap.lookup_insert_of_ne _ (Ne.symm hfile)]

/-- and deleted. -/
theorem select_erase (row : SealedMessage Key → String → CipherRow String α)
    (h : ∀ file, t.select (fun r => r.key = file) = (table.lookup file).map (row · file))
    (fileUuid file : String) :
    (t.delete fun r => r.key = fileUuid).select (fun r => r.key = file)
      = ((table.erase fileUuid).lookup file).map (row · file) := by
  rw [select_delete_file, h]
  split
  · rename_i hfile
    rw [hfile, Finmap.lookup_erase, Option.map_none]
  · rename_i hfile
    rw [Finmap.lookup_erase_ne (Ne.symm hfile)]

/-- What is in a column after a save was written before or by it. -/
theorem exists_of_mem_insertOrReplace
    {row : EntryRows String (String × Key × Bool) (String × Key) → CipherRow String α}
    (h : ∀ r ∈ t, ∃ rows ∈ written, row rows = r)
    (rows : EntryRows String (String × Key × Bool) (String × Key)) :
    ∀ r ∈ t.insertOrReplace (row rows), ∃ rows' ∈ written ++ [rows], row rows' = r := by
  intro r hr
  rcases Table.mem_insertOrReplace.mp hr with ⟨hold, -⟩ | rfl
  · obtain ⟨rows', hrows', heq⟩ := h r hold
    exact ⟨rows', List.mem_append_left _ hrows', heq⟩
  · exact ⟨rows, List.mem_append_right _ (List.mem_singleton_self _), rfl⟩

end Columns

namespace MessageEntries

variable {t : MessageEntries} {table : SealedMessages Key} {m : SealedMessage Key}
  {written : List (EntryRows String (String × Key × Bool) (String × Key))}

theorem represents_empty : Represents .empty ∅ where
  data _ := rfl
  keys _ := rfl

/-- **What is read** is what the sealed message opens to. -/
theorem Represents.getDecryptedMessage_eq (h : t.Represents table) (file : String) :
    t.getDecryptedMessage A B (some kek) file = table.getDecryptedMessage A B kek file := by
  unfold MessageEntries.getDecryptedMessage EntryTables.read SealedMessages.getDecryptedMessage
  rw [h.data file]
  cases hm : table.lookup file with
  | none => rfl
  | some m =>
    have hkey := h.keys file
    rw [hm] at hkey
    show EntryTables.openRow A B (some kek) _ _ t _ = _
    unfold EntryTables.openRow
    rw [hkey]
    rfl

/-- **A save** is one of the table, -/
theorem Represents.save (h : t.Represents table) (hw : t.WrittenBy written) {fileUuid : String}
    (hapart : ∀ rows ∈ written, rows.Apart (m.rows fileUuid)) :
    Represents (EntryTables.save (.ok ()) (.ok ()) (m.rows fileUuid) t).2
      (table.saveMessageAndKey fileUuid m) where
  data := by
    refine select_save (fun m file => (m.rows file).data) (fun _ _ => rfl) h.data fun r hr => ?_
    obtain ⟨rows, hrows, rfl⟩ := hw.data r hr
    exact ⟨(hapart rows hrows).nonce, (hapart rows hrows).blob⟩
  keys := by
    refine select_save (fun m file => (m.rows file).key) (fun _ _ => rfl) h.keys fun r hr => ?_
    obtain ⟨rows, hrows, rfl⟩ := hw.keys r hr
    exact ⟨(hapart rows hrows).keyNonce, (hapart rows hrows).keyBlob⟩

/-- and so is **a deletion.** -/
theorem Represents.delete (h : t.Represents table) (fileUuid : String) :
    Represents ⟨t.data.delete fun row => row.key = fileUuid,
      t.keys.delete fun row => row.key = fileUuid⟩ (table.erase fileUuid) where
  data := select_erase (fun m file => (m.rows file).data) h.data fileUuid
  keys := select_erase (fun m file => (m.rows file).key) h.keys fileUuid

theorem writtenBy_empty : WrittenBy .empty [] where
  data _ hr := (Table.not_mem_empty hr).elim
  keys _ hr := (Table.not_mem_empty hr).elim

/-- A save writes its own rows, -/
theorem WrittenBy.save (h : t.WrittenBy written)
    (rows : EntryRows String (String × Key × Bool) (String × Key)) :
    WrittenBy (EntryTables.save (.ok ()) (.ok ()) rows t).2 (written ++ [rows]) where
  data := exists_of_mem_insertOrReplace h.data rows
  keys := exists_of_mem_insertOrReplace h.keys rows

/-- and a deletion none. -/
theorem WrittenBy.delete (h : t.WrittenBy written) (fileUuid : String) :
    WrittenBy ⟨t.data.delete fun row => row.key = fileUuid,
      t.keys.delete fun row => row.key = fileUuid⟩ written where
  data row hrow := h.data row (Table.mem_delete.mp hrow).1
  keys row hrow := h.keys row (Table.mem_delete.mp hrow).1

end MessageEntries

/-! ## After some calls -/

variable {calls : List MessageCall} {c : MessageCall}

theorem messagesAfter_concat : messagesAfter A B kek (calls ++ [c])
    = (c.run A B kek (messagesAfter A B kek calls)).2 := by
  unfold messagesAfter Throwing.after
  rw [List.foldl_append]
  rfl

theorem afterCalls_concat : SealedMessages.afterCalls A B kek (calls ++ [c])
    = (SealedMessages.afterCalls A B kek calls).apply A B kek c := by
  unfold SealedMessages.afterCalls
  rw [List.foldl_append]
  rfl

theorem lastWritten_concat {file : String} :
    lastWritten file (calls ++ [c]) = (c.writes file).getD (lastWritten file calls) := by
  unfold lastWritten
  rw [List.foldl_append]
  rfl

/-- **After any calls the tables are one table**, and have rows of theirs. -/
theorem represents_messagesAfter (hfresh : NeverRepeat A B kek calls) :
    (messagesAfter A B kek calls).entries.Represents (SealedMessages.afterCalls A B kek calls)
      ∧ (messagesAfter A B kek calls).entries.WrittenBy
        (calls.filterMap (MessageCall.rows? A B kek)) := by
  induction calls using List.reverseRecOn with
  | nil => exact ⟨MessageEntries.represents_empty, MessageEntries.writtenBy_empty⟩
  | append_singleton calls c ih =>
    unfold NeverRepeat at hfresh
    rw [List.filterMap_append] at hfresh ⊢
    obtain ⟨hbefore, -, hapart⟩ := List.pairwise_append.mp hfresh
    obtain ⟨hrepresents, hwritten⟩ := ih hbefore
    rw [messagesAfter_concat, afterCalls_concat]
    cases c with
    | save username fromDeviceId fileUuid message sender draws =>
      have hrows : ∀ rows ∈ calls.filterMap (MessageCall.rows? A B kek), rows.Apart
          ((MessageCall.sealed A B kek username fromDeviceId message sender draws).rows
            fileUuid) := fun rows hr => hapart rows hr _ (List.mem_singleton_self _)
      exact ⟨hrepresents.save hwritten hrows, hwritten.save _⟩
    | get fileUuid =>
      rw [show [MessageCall.get fileUuid].filterMap (MessageCall.rows? A B kek) = [] from rfl,
        List.append_nil]
      exact ⟨hrepresents, hwritten⟩
    | delete fileUuid =>
      rw [show [MessageCall.delete fileUuid].filterMap (MessageCall.rows? A B kek) = [] from rfl,
        List.append_nil]
      exact ⟨hrepresents.delete fileUuid, hwritten.delete fileUuid⟩

/-- Of a table, a saved message is read, -/
theorem SealedMessages.getDecryptedMessage_save (table : SealedMessages Key)
    (m : SealedMessage Key) (fileUuid file : String) :
    (table.saveMessageAndKey fileUuid m).getDecryptedMessage A B kek file
      = if fileUuid = file then m.envelope.contents A B kek
        else table.getDecryptedMessage A B kek file := by
  unfold getDecryptedMessage saveMessageAndKey
  split
  · rename_i hfile
    rw [hfile, Finmap.lookup_insert]
    rfl
  · rename_i hfile
    rw [Finmap.lookup_insert_of_ne _ (Ne.symm hfile)]

/-- and an erased one is missed. -/
theorem SealedMessages.getDecryptedMessage_erase (table : SealedMessages Key)
    (fileUuid file : String) :
    SealedMessages.getDecryptedMessage A B kek file (table.erase fileUuid)
      = if fileUuid = file then .error (.runtimeError "No message found with the given file_uuid")
        else table.getDecryptedMessage A B kek file := by
  unfold getDecryptedMessage
  split
  · rename_i hfile
    rw [hfile, Finmap.lookup_erase]
    rfl
  · rename_i hfile
    rw [Finmap.lookup_erase_ne (Ne.symm hfile)]

/-- **That table has what was written last.** -/
theorem getDecryptedMessage_afterCalls (hA : A.Ideal) (file : String) :
    (SealedMessages.afterCalls A B kek calls).getDecryptedMessage A B kek file
      = orThrow "No message found with the given file_uuid" (lastWritten file calls) := by
  induction calls using List.reverseRecOn with
  | nil => rfl
  | append_singleton calls c ih =>
    rw [afterCalls_concat, lastWritten_concat]
    cases c with
    | save username fromDeviceId fileUuid message sender draws =>
      refine (SealedMessages.getDecryptedMessage_save _ _ fileUuid file).trans ?_
      show _ = orThrow _ (Option.getD (if fileUuid = file then some (some message) else none) _)
      split
      · exact Envelope.contents_enclose hA draws message
      · exact ih
    | get fileUuid => exact ih
    | delete fileUuid =>
      refine (SealedMessages.getDecryptedMessage_erase _ fileUuid file).trans ?_
      show _ = orThrow _ (Option.getD (if fileUuid = file then some none else none) _)
      split
      · rfl
      · exact ih

/-- **So the tables read what was written last.** -/
theorem getDecryptedMessage_messagesAfter (hA : A.Ideal) (hfresh : NeverRepeat A B kek calls)
    (file : String) :
    (messagesAfter A B kek calls).entries.getDecryptedMessage A B (some kek) file
      = orThrow "No message found with the given file_uuid" (lastWritten file calls) :=
  ((represents_messagesAfter hfresh).1.getDecryptedMessage_eq file).trans
    (getDecryptedMessage_afterCalls hA file)

/-- The first of some calls do not repeat anything either. -/
theorem NeverRepeat.of_append {later : List MessageCall}
    (h : NeverRepeat A B kek (calls ++ later)) : NeverRepeat A B kek calls := by
  unfold NeverRepeat at h
  rw [List.filterMap_append] at h
  exact (List.pairwise_append.mp h).1

end Refinement

/-- **The last write wins**: along any calls whose nonces and ciphertexts do
not repeat, saves and deletions return; whatever is asked for is what was
last written of it, or throws if that is nothing; and no call changes what is
read of a file it does not write. After all of them every file reads as what
was last written of it. -/
theorem lastWriteWins {A : Aead Key} (hA : A.Ideal) (B : KeyBytes Key) (kek : Key)
    (calls : List MessageCall) (hfresh : NeverRepeat A B kek calls) :
    (∀ earlier c later, calls = earlier ++ c :: later →
      let before := messagesAfter A B kek earlier
      (c.run A B kek before).1
          = (match c with
            | .get file => (orThrow "No message found with the given file_uuid"
                (lastWritten file earlier)).map some
            | _ => .ok none)
        ∧ ∀ file, c.writes file = none →
          (c.run A B kek before).2.entries.getDecryptedMessage A B (some kek) file
            = before.entries.getDecryptedMessage A B (some kek) file)
    ∧ ∀ file, (messagesAfter A B kek calls).entries.getDecryptedMessage A B (some kek) file
      = orThrow "No message found with the given file_uuid" (lastWritten file calls) := by
  refine ⟨?_, getDecryptedMessage_messagesAfter hA hfresh⟩
  rintro earlier c later rfl before
  have hsofar : NeverRepeat A B kek (earlier ++ [c]) := by
    rw [← List.singleton_append, ← List.append_assoc] at hfresh
    exact hfresh.of_append
  have hbefore := getDecryptedMessage_messagesAfter hA hsofar.of_append
  refine ⟨?_, fun file hwrites => ?_⟩
  · cases c with
    | save => rfl
    | get file => exact congrArg (Except.map some) (hbefore file)
    | delete => rfl
  · show _ = (messagesAfter A B kek earlier).entries.getDecryptedMessage A B (some kek) file
    rw [hbefore, ← messagesAfter_concat, getDecryptedMessage_messagesAfter hA hsofar,
      lastWritten_concat, hwrites]
    rfl

/-! ### Calls for two files -/

namespace MessageCall

/-- A message of bob's, one of carol's for another file, and what becomes of
them. -/
def repeated : List MessageCall :=
  [.save "bob" (.repeated 5) "report" [1] false (.repeated 1),
    .save "carol" (.repeated 6) "notes" [2] false (.repeated 2), .get "report",
    .save "dave" (.repeated 7) "report" [3] true (.repeated 3), .delete "notes"]

end MessageCall

/-- The first message of the file is read before it is replaced, and the second
after; the other file is gone. -/
theorem lastWriteWins_repeated :
    let tables := messagesAfter .labelled .array (.repeated 8)
    let read (t : MessageTables) :=
      t.entries.getDecryptedMessage .labelled .array (some (.repeated 8))
    (MessageCall.run .labelled .array (.repeated 8) (.get "report")
        (tables (MessageCall.repeated.take 2))).1 = .ok (some [1])
      ∧ read (tables MessageCall.repeated) "report" = .ok [3]
      ∧ read (tables MessageCall.repeated) "notes"
        = .error (.runtimeError "No message found with the given file_uuid") := by
  have hfresh : NeverRepeat .labelled .array (.repeated 8) MessageCall.repeated := by
    unfold NeverRepeat
    decide +kernel
  have h := lastWriteWins Aead.labelled_ideal .array (.repeated 8) MessageCall.repeated hfresh
  exact ⟨(h.1 _ _ _ rfl).1, h.2 "report", h.2 "notes"⟩
