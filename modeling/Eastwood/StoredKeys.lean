import Eastwood.FileBinding

/-!
# Whose keys a batch replaces

Both tables that hold the keys of files, `messages` and `message_keys`, have
the file's id as their only key, and `save_message_and_key` replaces whatever
row it finds there. The id comes out of the message, so it is its sender who
says which row that is.

A batch that decrypts leaves everybody else's keys alone exactly if it never
names a file that someone else has a row for: not one that was sent from
here, not one received from another device, and no two devices in it name
the same (`othersKept_iff_namesOwn`).
-/

variable {K : Type}

/-- The device a message comes from, by its header. -/
def Incoming.device (m : Incoming K) : K := m.message.header.deviceId

/-- The file it says its key is for. -/
def Incoming.file (m : Incoming K) : String := m.message.header.fileUuid

/-- **A row that is not the device's own**: of a file that was sent from
here, or received from another device. -/
def StoredMessage.OfOthers (device : K) (row : StoredMessage K) : Prop :=
  row.isSender = true ∨ row.fromDeviceId ≠ device

/-- **One store keeps a file's key of another**: `get_decrypted_message`
returns what it did, and the row is what it was. -/
def SessionStore.KeepsKey (file : String) (s s' : SessionStore K) : Prop :=
  s'.getDecryptedMessage file = s.getDecryptedMessage file
    ∧ s'.messages.lookup file = s.messages.lookup file

/-- A device's message was stored without a loss to others: it added a row,
or updated one of its own. -/
def SessionStore.KeepsOthers (device : K) (s s' : SessionStore K) : Prop :=
  ∀ file row, s.messages.lookup file = some row → row.OfOthers device → s.KeepsKey file s'

variable [LinearOrder K] (S : Sodium K) (A : Aead K)

/-- Every message of a batch, when its turn comes. -/
def KeepsOthersInTurn : List (Incoming K) → SessionStore K → Prop
  | [], _ => True
  | m :: ms, s =>
    s.KeepsOthers m.device (updateMessage S A m s).store
      ∧ ((updateMessage S A m s).result = .ok () →
        KeepsOthersInTurn ms (updateMessage S A m s).store)

/-- **A batch leaves others' keys alone.** -/
structure OthersKept (batch : List (Incoming K)) (s : SessionStore K) : Prop where
  /-- What was there for a file the user sent, or received from a device that
  does not name it, is there afterwards, -/
  afterwards : ∀ file row, s.messages.lookup file = some row →
    (∀ m ∈ batch, m.file = file → row.OfOthers m.device) →
    s.KeepsKey file (updateMessages S A batch s).store
  /-- and no sender does more on the way than add entries or update its
  own. -/
  inTurn : KeepsOthersInTurn S A batch s

omit [LinearOrder K] in
/-- **A batch names only its senders' own files.** -/
structure NamesOwn (batch : List (Incoming K)) (s : SessionStore K) : Prop where
  /-- A file that has a row was received from the device that names it. -/
  stored : ∀ m ∈ batch, ∀ row, s.messages.lookup m.file = some row → ¬ row.OfOthers m.device
  /-- A file is named by one device. -/
  apart : batch.Pairwise fun m m' => m.file = m'.file → m.device = m'.device

/-! ## One message -/

namespace SessionStore

variable {S} {A} {s s' t : SessionStore K} {m : Incoming K} {file : String} {device : K}

omit [LinearOrder K] in
theorem KeepsKey.of_lookup (h : s'.messages.lookup file = s.messages.lookup file) :
    s.KeepsKey file s' := by
  refine ⟨?_, h⟩
  unfold getDecryptedMessage
  rw [h]

omit [LinearOrder K] in
theorem KeepsKey.trans (h : s.KeepsKey file s') (h' : s'.KeepsKey file t) : s.KeepsKey file t :=
  ⟨h'.1.trans h.1, h'.2.trans h.2⟩

/-- **What a message that decrypts stores**: one row, marked as received from
its device, under its file. -/
theorem messages_updateMessage (hok : (updateMessage S A m s).result = .ok ()) :
    ∃ decrypted, (updateMessage S A m s).store.messages
      = s.messages.insert m.file ⟨m.username, m.device, decrypted, false⟩ := by
  have hkeep : (s.getKeyForDevice S m.fresh m.username m.message.header).2.messages = s.messages :=
    messages_getKeyForDevice m.fresh m.message.header
  obtain ⟨e, t, -, hm⟩ | ⟨key, t, hk, ⟨e, -, hm⟩ | ⟨decrypted, -, hm⟩⟩ :=
    updateMessage_cases (S := S) (A := A) m s
  · rw [hm] at hok
    cases hok
  · rw [hm] at hok
    cases hok
  · rw [hk] at hkeep
    refine ⟨decrypted, ?_⟩
    rw [hm, ← hkeep]
    rfl

/-- So it leaves others' keys alone exactly if the row it replaces is its
own. -/
theorem keepsOthers_iff (hok : (updateMessage S A m s).result = .ok ()) :
    s.KeepsOthers m.device (updateMessage S A m s).store
      ↔ ∀ row, s.messages.lookup m.file = some row → ¬ row.OfOthers m.device := by
  obtain ⟨decrypted, hmessages⟩ := messages_updateMessage hok
  constructor
  · intro h row hrow hothers
    have hsame := (h m.file row hrow hothers).2
    rw [hmessages, Finmap.lookup_insert, hrow] at hsame
    obtain rfl := Option.some.inj hsame
    exact hothers.elim (fun h => absurd h nofun) fun h => h rfl
  · intro h file row hrow hothers
    refine KeepsKey.of_lookup ?_
    have hne : file ≠ m.file := by
      rintro rfl
      exact h row hrow hothers
    rw [hmessages, Finmap.lookup_insert_of_ne _ hne]

end SessionStore

/-! ## A batch -/

section Batch

variable {S} {A} {s : SessionStore K} {m : Incoming K} {ms batch : List (Incoming K)}

/-- A batch that decrypts is a message that does and a batch that does. -/
theorem updateMessages_cons_ok (hok : (updateMessages S A (m :: ms) s).result = .ok ()) :
    (updateMessage S A m s).result = .ok ()
      ∧ (updateMessages S A ms (updateMessage S A m s).store).result = .ok ()
      ∧ (updateMessages S A (m :: ms) s).store
        = (updateMessages S A ms (updateMessage S A m s).store).store := by
  have hcons : updateMessages S A (m :: ms) s
      = (updateMessage S A m s).andThen (updateMessages S A ms) := rfl
  rw [hcons] at hok ⊢
  cases hm : (updateMessage S A m s).result with
  | error e =>
    unfold Polled.andThen at hok
    rw [hm] at hok
    cases hm.symm.trans hok
  | ok _ =>
    rw [Polled.andThen_ok hm] at hok ⊢
    exact ⟨rfl, hok, rfl⟩

/-- **The condition, a message at a time**: what the first one stores belongs
to its device from then on. -/
theorem namesOwn_cons_iff (hok : (updateMessage S A m s).result = .ok ()) :
    NamesOwn (m :: ms) s
      ↔ (∀ row, s.messages.lookup m.file = some row → ¬ row.OfOthers m.device)
        ∧ NamesOwn ms (updateMessage S A m s).store := by
  obtain ⟨decrypted, hmessages⟩ := SessionStore.messages_updateMessage hok
  constructor
  · intro h
    obtain ⟨hfirst, hrest⟩ := List.pairwise_cons.mp h.apart
    refine ⟨h.stored m List.mem_cons_self, fun m' hm' row hrow => ?_, hrest⟩
    rw [hmessages] at hrow
    by_cases hfile : m'.file = m.file
    · rw [hfile, Finmap.lookup_insert] at hrow
      obtain rfl := Option.some.inj hrow
      rintro (hsender | hdevice)
      · cases hsender
      · exact hdevice (hfirst m' hm' hfile.symm)
    · rw [Finmap.lookup_insert_of_ne _ hfile] at hrow
      exact h.stored m' (List.mem_cons_of_mem _ hm') row hrow
  · rintro ⟨hfirst, hrest⟩
    have hsame : ∀ m' ∈ ms, m.file = m'.file → m.device = m'.device := by
      intro m' hm' hfile
      by_contra hdevice
      refine hrest.stored m' hm' ⟨m.username, m.device, decrypted, false⟩ ?_ (Or.inr hdevice)
      rw [hmessages, ← hfile, Finmap.lookup_insert]
    refine ⟨fun m' hm' row hrow => ?_, List.pairwise_cons.mpr ⟨hsame, hrest.apart⟩⟩
    obtain rfl | hm' := List.mem_cons.mp hm'
    · exact hfirst row hrow
    by_cases hfile : m.file = m'.file
    · rw [← hfile] at hrow
      rw [← hsame m' hm' hfile]
      exact hfirst row hrow
    · refine hrest.stored m' hm' row ?_
      rw [hmessages, Finmap.lookup_insert_of_ne _ (Ne.symm hfile), hrow]

/-- Along the batch it is what every message keeps to. -/
theorem keepsOthersInTurn_iff (hok : (updateMessages S A batch s).result = .ok ()) :
    KeepsOthersInTurn S A batch s ↔ NamesOwn batch s := by
  induction batch generalizing s with
  | nil =>
    refine iff_of_true trivial ⟨fun m hm => absurd hm List.not_mem_nil, List.Pairwise.nil⟩
  | cons m ms ih =>
    obtain ⟨hm, hms, -⟩ := updateMessages_cons_ok hok
    rw [namesOwn_cons_iff hm, KeepsOthersInTurn, SessionStore.keepsOthers_iff hm, ih hms]
    exact and_congr_right fun _ => ⟨fun h => h hm, fun h _ => h⟩

/-- Senders that keep to their own leave the others' keys where they are. -/
theorem KeepsOthersInTurn.keepsKey (hok : (updateMessages S A batch s).result = .ok ())
    (h : KeepsOthersInTurn S A batch s) {file : String} {row : StoredMessage K}
    (hrow : s.messages.lookup file = some row)
    (hothers : ∀ m ∈ batch, m.file = file → row.OfOthers m.device) :
    s.KeepsKey file (updateMessages S A batch s).store := by
  induction batch generalizing s with
  | nil => exact .of_lookup rfl
  | cons m ms ih =>
    obtain ⟨hm, hms, hstore⟩ := updateMessages_cons_ok hok
    have hkept : s.KeepsKey file (updateMessage S A m s).store := by
      by_cases hfile : m.file = file
      · exact h.1 file row hrow (hothers m List.mem_cons_self hfile)
      · obtain ⟨decrypted, hmessages⟩ := SessionStore.messages_updateMessage hm
        refine .of_lookup ?_
        rw [hmessages, Finmap.lookup_insert_of_ne _ (Ne.symm hfile)]
    rw [hstore]
    refine hkept.trans (ih hms (h.2 hm) (hkept.2.trans hrow) fun m' hm' => ?_)
    exact hothers m' (List.mem_cons_of_mem _ hm')

/-- **Whose keys a batch replaces.** For every state of the database and
every batch all of whose messages decrypt: others' keys are left alone
exactly if the batch names no file that has another's row, and no two of its
devices name the same file. -/
theorem othersKept_iff_namesOwn (batch : List (Incoming K)) (s : SessionStore K)
    (hok : (updateMessages S A batch s).result = .ok ()) :
    OthersKept S A batch s ↔ NamesOwn batch s := by
  rw [← keepsOthersInTurn_iff hok]
  exact ⟨fun h => h.inTurn, fun h => ⟨fun _ _ => h.keepsKey hok, h⟩⟩

end Batch

/-! ## A report that is overwritten -/

namespace OthersKept

/-- The header of alice's next message to bob, about a file. -/
def header (file : String) : MessageHeader ℕ where
  dhPublic := Sodium.ideal.boxPublic 8
  prevChainLength := 0
  messageIndex := 0
  deviceId := Sodium.ideal.signPublic 5
  fileUuid := file

/-- The key it is under. -/
def key : ℕ :=
  match (FileRecord.shared.getKeyForDevice Sodium.ideal 0 "alice" (header "")).1 with
  | .ok key => key
  | .error _ => 0

/-- A key of alice's for a file, encrypted as it should be. -/
def message (file : String) : Incoming ℕ where
  username := "alice"
  message :=
    { header := header file
      ciphertext := encryptMessageGivenKey Aead.keyed FileRecord.zeroNonce.1 [9] key }
  fresh := 0

/-- Bob's store, once he has sent carol the file `report`. -/
def sent : SessionStore ℕ :=
  FileRecord.shared.saveMessage "report" ⟨"carol", Sodium.ideal.signPublic 6, [7], true⟩

/-- **Alice takes the row of a file bob sent**: the key he kept for it is
gone, and the row says he received the file from her. -/
theorem not_othersKept_report :
    (updateMessages Sodium.ideal Aead.keyed [message "report"] sent).result = .ok ()
      ∧ sent.getDecryptedMessage "report" = .ok [7]
      ∧ (updateMessages Sodium.ideal Aead.keyed [message "report"] sent).store.messages.lookup
          "report" = some ⟨"alice", Sodium.ideal.signPublic 5, [9], false⟩
      ∧ ¬ OthersKept Sodium.ideal Aead.keyed [message "report"] sent := by
  have hrow : (updateMessages Sodium.ideal Aead.keyed [message "report"] sent).store.messages.lookup
      "report" = some ⟨"alice", Sodium.ideal.signPublic 5, [9], false⟩ := by
    decide +kernel
  have hsent : sent.messages.lookup "report"
      = some ⟨"carol", Sodium.ideal.signPublic 6, [7], true⟩ := by
    decide +kernel
  refine ⟨by decide +kernel, by decide +kernel, hrow, fun h => ?_⟩
  have hkept := (h.afterwards "report" _ hsent fun _ _ _ => Or.inl rfl).2
  rw [hrow, hsent] at hkept
  exact absurd (congrArg StoredMessage.isSender (Option.some.inj hkept)) nofun

/-- About a file of its own it takes nobody's. -/
theorem othersKept_notes :
    OthersKept Sodium.ideal Aead.keyed [message "notes"] sent
      ↔ NamesOwn [message "notes"] sent :=
  othersKept_iff_namesOwn [message "notes"] sent (by decide +kernel)

end OthersKept
