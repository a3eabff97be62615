import Eastwood.FileListing
import Eastwood.Handshake

/-!
# Bad entries in a reply

The server answers with lists: of messages, of handshakes, of file metadata.
An entry may be malformed, and one that is not may still be refused – a
message of an unknown session or under the wrong key, a handshake whose keys
X25519 does not take, a file whose key is not here.

Each of the three is decoded in a loop and then worked on in another, and
where something throws it is a loop that ends. An entry is isolated
(`Batch.Isolated`), so that the others fare as they would without it, only
where a loop looks for the defect itself: `get_messages` skips an entry whose
keys are of the wrong length, and `get_file_metadata` catches what its own
loop throws. No bad handshake is. That is `entryIsolated_iff`.
-/

variable (S : Sodium Key) (ks : KeyStore Key) (A : Aead Key)

/-! ## Messages -/

/-- What `get_messages` makes of an entry, with the private key drawn should
its header make the ratchet draw one. -/
def incomingOfEntry (e : Json × Key) : Except Fault (Option (Incoming Key)) :=
  (messageOfEntry e.1).map (Option.map fun m => ⟨m.1, m.2, e.2⟩)

/-- **`update_messages`** with the reply's entries: `get_messages` decodes
them all first. -/
def pollMessages (entries : List (Json × Key)) (s : SessionStore Key) : Polled Key :=
  match Batch.decodeAll incomingOfEntry entries with
  | .error e => ⟨[], .error e, s⟩
  | .ok ms => updateMessages S A ms s

/-- The messages decoded are those `get_messages` returns. -/
theorem getMessages_eq_decodeAll {response : Json} {entries : List (Json × Key)}
    (h : response.find? "data" = some (.arr (entries.map Prod.fst))) :
    getMessages (some response) = (Batch.decodeAll incomingOfEntry entries).map
      (List.map fun m => (m.username, m.message)) := by
  rw [getMessages, h]
  refine Batch.decodeAll_map (fun e => ?_) entries
  rw [incomingOfEntry]
  rcases messageOfEntry e.1 with _ | _ | m <;> rfl

/-- **A bad message**: its entry is malformed, or skipped, or refused where
the entries before it leave the store. -/
def BadMessage (pre : List (Json × Key)) (e : Json × Key) (s : SessionStore Key) : Prop :=
  match incomingOfEntry e with
  | .ok (some m) =>
    ∃ fault, (updateMessage S A m (pollMessages S A pre s).store).result = .error fault
  | _ => True

section Messages

variable {S} {A} {e : Json × Key} {s : SessionStore Key}

/-- If nothing decrypts, nothing is stored. -/
theorem messages_pollMessages (h : ∀ data key, ¬ (decryptMessageGivenKey A data key).isOk)
    (entries : List (Json × Key)) (s : SessionStore Key) :
    (pollMessages S A entries s).store.messages = s.messages := by
  have hround : ∀ m s, (updateMessage S A m s).store.messages = s.messages := by
    intro m s
    have hkey : (s.getKeyForDevice S m.fresh m.username m.message.header).2.messages
        = s.messages := SessionStore.messages_getKeyForDevice m.fresh m.message.header
    obtain ⟨fault, t, hk, hm⟩ | ⟨key, t, hk, ⟨fault, -, hm⟩ | ⟨decrypted, hd, -⟩⟩ :=
      updateMessage_cases (S := S) (A := A) m s
    · rw [hm]
      rwa [hk] at hkey
    · rw [hm]
      rwa [hk] at hkey
    · exact absurd (by rw [hd]; rfl) (h m.message.ciphertext key)
  have hrounds : ∀ ms s, (updateMessages S A ms s).store.messages = s.messages := by
    intro ms
    induction ms with
    | nil => exact fun _ => rfl
    | cons m ms ih =>
      intro s
      rw [updateMessages]
      cases hm : (updateMessage S A m s).result with
      | error fault =>
        rw [Polled.andThen, hm]
        exact hround m s
      | ok _ =>
        rw [Polled.andThen_ok hm]
        exact (ih _).trans (hround m s)
  unfold pollMessages
  cases Batch.decodeAll incomingOfEntry entries with
  | error fault => rfl
  | ok ms => exact hrounds ms s

/-- A ratchet that has kept back a key under index 0. -/
def NewRatchet.keeping (key : Key) : NewRatchet Key :=
  { NewRatchet.blank 0 with
    receiveChain := ⟨1, 0⟩
    skippedKeys := Finmap.singleton 0 key }

/-- A store with that session, and no other. -/
def SessionStore.keeping (username : String) (key : Key) : SessionStore Key :=
  (⟨∅, ∅, ∅⟩ : SessionStore Key).hold username 0 (.keeping key)

/-- The message of that index. -/
def RelayedMessage.kept (username : String) (ciphertext : List UInt8) : RelayedMessage Key :=
  ⟨none, username, 0, 0, 0, 0, 0, ciphertext⟩

/-- The ratchet answers it from its backlog. -/
theorem NewRatchet.advanceReceive_keeping (key fresh : Key) {h : MessageHeader Key}
    (hdh : h.dhPublic = 0) (hindex : h.messageIndex = 0) :
    ((NewRatchet.keeping key).advanceReceive S fresh h).1 = .ok key := by
  have hsame : ¬ (NewRatchet.keeping key).remoteDhPublic ≠ h.dhPublic := not_not.mpr hdh.symm
  rw [advanceReceive, if_neg hsame, receiveInChain, hindex,
    if_pos (show (0 : ℤ) < (NewRatchet.keeping key).receiveChain.index from Int.zero_lt_one)]
  have hkept : (NewRatchet.keeping key).skippedKeys.lookup 0 = some key :=
    Finmap.lookup_singleton_eq
  simp only [hkept]

/-- A message whose key is answered is stored, if it decrypts. -/
theorem lookup_updateMessage {m : Incoming Key} {key : Key} {plain : List UInt8}
    (hkey : (s.getKeyForDevice S m.fresh m.username m.message.header).1 = .ok key)
    (hd : decryptMessageGivenKey A m.message.ciphertext key = .ok plain) :
    (updateMessage S A m s).result = .ok ()
      ∧ (updateMessage S A m s).store.messages.lookup m.message.header.fileUuid
        = some ⟨m.username, m.message.header.deviceId, plain, false⟩ := by
  rcases hk : s.getKeyForDevice S m.fresh m.username m.message.header with ⟨result, st⟩
  rw [hk] at hkey
  obtain rfl : result = .ok key := hkey
  rw [updateMessage_of_decrypted hk hd]
  exact ⟨rfl, Finmap.lookup_insert _⟩

/-- What was kept is stored, if it decrypts. -/
theorem messages_pollMessages_kept (username : String) {data plain : List UInt8} {key : Key}
    (hd : decryptMessageGivenKey A data key = .ok plain) :
    (pollMessages S A [((RelayedMessage.kept username data).entry, 0)]
      (.keeping username key)).store.messages.lookup ""
        = some ⟨username, 0, plain, false⟩ := by
  have hne : data ≠ [] := by
    rintro rfl
    cases hd
  have hentry : incomingOfEntry ((RelayedMessage.kept username data).entry, 0)
      = .ok (some ((RelayedMessage.kept username data).incoming 0)) := by
    rw [incomingOfEntry, messageOfEntry_entry (RelayedMessage.kept username data)
      (by decide : IsInt 0) (by decide : IsInt 0) hne 0]
    rfl
  have hkey : ((SessionStore.keeping username key).getKeyForDevice S 0 username
      ((RelayedMessage.kept username data).incoming 0).message.header).1 = .ok key := by
    have hr := NewRatchet.advanceReceive_keeping (S := S) key 0
      (h := ((RelayedMessage.kept username data).incoming 0).message.header) rfl rfl
    have hs : (SessionStore.keeping username key).session username
        ((RelayedMessage.kept username data).incoming 0).message.header.deviceId
      = some (.keeping key) := SessionStore.session_hold ..
    rw [SessionStore.getKeyForDevice_eq hs]
    split
    · rename_i hr'
      rw [hr'] at hr
      cases hr
    · rename_i hr'
      rw [hr'] at hr
      exact hr
  obtain ⟨hresult, hlookup⟩ := lookup_updateMessage (S := S) (A := A)
    (m := (RelayedMessage.kept username data).incoming 0) hkey hd
  rw [pollMessages, Batch.decodeAll_cons_ok hentry]
  show ((updateMessage S A _ _).andThen (updateMessages S A [])).store.messages.lookup "" = _
  rw [Polled.andThen_ok hresult]
  exact hlookup

/-- Whatever the name, there is another. -/
theorem exists_ne_username (username : String) : ∃ u : String, u ≠ username := by
  by_cases h : username = ""
  · exact ⟨"a", by rw [h]; decide⟩
  · exact ⟨"", Ne.symm h⟩

/-- An entry that cannot be decoded ends the poll before it has begun, -/
theorem messages_pollMessages_error {fault : Fault} (h : messageOfEntry e.1 = .error fault)
    (es : List (Json × Key)) (s : SessionStore Key) :
    BadMessage S A [] e s ∧ (pollMessages S A (e :: es) s).store.messages = s.messages := by
  have hin : incomingOfEntry e = .error fault := by
    rw [incomingOfEntry, h]
    rfl
  constructor
  · rw [BadMessage, hin]
    trivial
  · rw [pollMessages, Batch.decodeAll_cons_error hin]

/-- and a message of an unknown session ends it where it stands. -/
theorem messages_pollMessages_unknown {m : String × DeviceMessage Key}
    (h : messageOfEntry e.1 = .ok (some m)) (hs : s.session m.1 m.2.header.deviceId = none)
    (es : List (Json × Key)) :
    BadMessage S A [] e s ∧ (pollMessages S A (e :: es) s).store.messages = s.messages := by
  have hin : incomingOfEntry e = .ok (some ⟨m.1, m.2, e.2⟩) := by
    rw [incomingOfEntry, h]
    rfl
  obtain ⟨what, hthrows⟩ := updateMessage_of_none (S := S) (A := A) (m := ⟨m.1, m.2, e.2⟩) hs
  constructor
  · rw [BadMessage, hin]
    exact ⟨.runtimeError what, congrArg Polled.result hthrows⟩
  · rw [pollMessages, Batch.decodeAll_cons_ok hin]
    cases Batch.decodeAll incomingOfEntry es with
    | error fault => rfl
    | ok ms =>
      show ((updateMessage S A _ _).andThen (updateMessages S A ms)).store.messages = _
      rw [hthrows]
      rfl

/-- **An entry that is not skipped costs the next one its key**, in a store
that has no session for it. -/
theorem not_isolated_message (hskip : messageOfEntry e.1 ≠ .ok none) {data plain : List UInt8}
    {key : Key} (hd : decryptMessageGivenKey A data key = .ok plain) :
    ¬ Batch.Isolated (fun es s => (pollMessages S A es s).store.messages) (BadMessage S A) e := by
  suffices h : ∃ username, ∀ es, BadMessage S A [] e (.keeping username key)
      ∧ (pollMessages S A (e :: es) (.keeping username key)).store.messages = ∅ by
    obtain ⟨username, h⟩ := h
    have hstored := messages_pollMessages_kept (S := S) username hd
    refine Batch.not_isolated ((RelayedMessage.kept username data).entry, 0) (h []).1
      fun heq => ?_
    rw [← heq, (h _).2, Finmap.lookup_empty] at hstored
    cases hstored
  cases he : messageOfEntry e.1 with
  | error fault => exact ⟨"", fun es => messages_pollMessages_error he es _⟩
  | ok m =>
    cases m with
    | none => exact absurd he hskip
    | some m =>
      obtain ⟨username, hne⟩ := exists_ne_username m.1
      refine ⟨username, fun es => messages_pollMessages_unknown he ?_ es⟩
      rw [SessionStore.keeping, SessionStore.session_hold_of_ne _ _ _ _ _ _
        fun h => hne (Prod.mk.inj h).1.symm]
      exact SessionStore.session_of_empty rfl _

/-- **A message is isolated exactly if it is skipped**, unless nothing ever
decrypts. -/
theorem isolated_message_iff (e : Json × Key) :
    Batch.Isolated (fun es s => (pollMessages S A es s).store.messages) (BadMessage S A) e
      ↔ messageOfEntry e.1 = .ok none
        ∨ ∀ data key, ¬ (decryptMessageGivenKey A data key).isOk := by
  constructor
  · intro hisolated
    by_cases hskip : messageOfEntry e.1 = .ok none
    · exact Or.inl hskip
    · refine Or.inr fun data key hok => ?_
      obtain ⟨plain, hd⟩ := exists_of_isOk hok
      exact not_isolated_message hskip hd hisolated
  · rintro (hskip | hnever)
    · refine Batch.Isolated.of_skip incomingOfEntry (fun ms s =>
        (match ms with
          | .error e => (⟨[], .error e, s⟩ : Polled Key)
          | .ok ms => updateMessages S A ms s).store.messages) (fun _ _ => rfl) ?_
      rw [incomingOfEntry, hskip]
      rfl
    · intro pre post s _
      exact (messages_pollMessages hnever _ s).trans (messages_pollMessages hnever _ s).symm

end Messages

/-! ## Handshakes -/

/-- **`update_handshakes`** with the reply's entries. -/
def acceptHandshakes (entries : List Json) (s : SessionStore Key) :
    Except Fault Unit × SessionStore Key :=
  match entries.mapM (bundleOfHandshake ks) with
  | .error e => (.error e, s)
  | .ok handshakes => s.updateHandshakes S ks handshakes

/-- **A bad handshake**: its entry is malformed, or no session can be made of
it and there is none. -/
def BadHandshake (pre : List Json) (e : Json) (s : SessionStore Key) : Prop :=
  match bundleOfHandshake ks e with
  | .error _ => True
  | .ok (username, b) =>
    ∃ fault, (SessionStore.createRatchetsIfNeeded S ks username true [.receiving b]
      (acceptHandshakes S ks pre s).2).result = .error fault

/-- A handshake a session can be made of. -/
def Acceptable (e : Json) : Prop :=
  ∃ username b r, bundleOfHandshake ks e = .ok (username, b) ∧ b.createRatchet S ks = .ok r

section Handshakes

variable {S} {ks} {e : Json} {s : SessionStore Key}

/-- The handshakes accepted are those `get_handshake_backlog` returns. -/
theorem getHandshakeBacklog_eq_mapM {response : Json} {entries : List Json}
    (h : response.find? "data" = some (.arr entries)) :
    getHandshakeBacklog ks (some response) = entries.mapM (bundleOfHandshake ks) := by
  rw [getHandshakeBacklog, h]

/-- What is decoded of an entry. -/
theorem mapM_bundleOfHandshake {es : List Json}
    {handshakes : List (String × ReceivingKeyBundle Key)}
    (h : es.mapM (bundleOfHandshake ks) = .ok handshakes) {m : String × ReceivingKeyBundle Key}
    (hm : m ∈ handshakes) : ∃ e ∈ es, bundleOfHandshake ks e = .ok m := by
  rw [Batch.mapM_eq_decodeAll] at h
  obtain ⟨e, he, hdecode⟩ := Batch.exists_of_mem_decodeAll h hm
  refine ⟨e, he, ?_⟩
  cases hb : bundleOfHandshake ks e with
  | error fault =>
    rw [hb] at hdecode
    cases hdecode
  | ok m' =>
    rw [hb] at hdecode
    exact congrArg Except.ok (Option.some.inj (Except.ok.inj hdecode))

/-- A handshake no session can be made of makes none. -/
theorem session_createRatchetsIfNeeded_refused {b : ReceivingKeyBundle Key} {fault : Fault}
    (hb : b.createRatchet S ks = .error fault) (username u : String) (d : Key) :
    (s.createRatchetsIfNeeded S ks username true [.receiving b]).store.session u d
      = s.session u d := by
  cases hs : s.session username b.theirDevicePublic with
  | some r =>
    rw [SessionStore.createRatchetsIfNeeded_of_session (b := .receiving b)
      (by show (s.session username b.theirDevicePublic).isSome; rw [hs]; rfl)]
    exact SessionStore.session_touch ..
  | none =>
    rw [SessionStore.createRatchetsIfNeeded_of_none (b := .receiving b) hs,
      show (KeyBundle.receiving b).createRatchet S ks = .error fault from hb]
    exact SessionStore.session_touch ..

/-- Where none is acceptable, no session is made. -/
theorem session_acceptHandshakes (h : ∀ e, ¬ Acceptable S ks e) (es : List Json)
    (s : SessionStore Key) (u : String) (d : Key) :
    (acceptHandshakes S ks es s).2.session u d = s.session u d := by
  unfold acceptHandshakes
  cases hes : es.mapM (bundleOfHandshake ks) with
  | error fault => rfl
  | ok handshakes =>
    have hrefused : ∀ m ∈ handshakes, ∃ fault, m.2.createRatchet S ks = .error fault := by
      intro m hm
      obtain ⟨e, -, he⟩ := mapM_bundleOfHandshake hes hm
      cases hr : m.2.createRatchet S ks with
      | error fault => exact ⟨fault, rfl⟩
      | ok r => exact absurd ⟨m.1, m.2, r, he, hr⟩ (h e)
    clear hes
    show (s.updateHandshakes S ks handshakes).2.session u d = _
    induction handshakes generalizing s with
    | nil => rfl
    | cons m handshakes ih =>
      obtain ⟨fault, hb⟩ := hrefused m List.mem_cons_self
      have hfirst := session_createRatchetsIfNeeded_refused (s := s) hb m.1 u d
      rw [SessionStore.updateHandshakes]
      cases hresult : (s.createRatchetsIfNeeded S ks m.1 true [.receiving m.2]).result with
      | error fault' => simpa only [hresult] using hfirst
      | ok _ =>
        exact (ih _ fun m' hm' => hrefused m' (List.mem_cons_of_mem _ hm')).trans hfirst

/-- An acceptable handshake is never bad. -/
theorem Acceptable.not_bad (h : Acceptable S ks e) (pre : List Json) (s : SessionStore Key) :
    ¬ BadHandshake S ks pre e s := by
  obtain ⟨username, b, r, he, hr⟩ := h
  rw [BadHandshake, he]
  rintro ⟨fault, hfault⟩
  set t := (acceptHandshakes S ks pre s).2
  cases hs : t.session username b.theirDevicePublic with
  | some r' =>
    rw [SessionStore.createRatchetsIfNeeded_of_session (b := .receiving b)
      (by show (t.session username b.theirDevicePublic).isSome; rw [hs]; rfl)] at hfault
    cases hfault
  | none =>
    rw [SessionStore.createRatchetsIfNeeded_of_none (b := .receiving b) hs,
      show (KeyBundle.receiving b).createRatchet S ks = .ok r from hr] at hfault
    cases hfault

/-- On a device without sessions an acceptable handshake makes one, -/
theorem session_acceptHandshakes_self {username : String} {b : ReceivingKeyBundle Key}
    {r : NewRatchet Key} (he : bundleOfHandshake ks e = .ok (username, b))
    (hr : b.createRatchet S ks = .ok r) :
    (acceptHandshakes S ks [e] ⟨∅, ∅, ∅⟩).2.session username b.theirDevicePublic = some r := by
  have hcreated : SessionStore.createRatchetsIfNeeded S ks username true [.receiving b]
      ⟨∅, ∅, ∅⟩ = _ :=
    SessionStore.createRatchetsIfNeeded_of_none (SessionStore.session_of_empty rfl _) true
  rw [show (KeyBundle.receiving b).createRatchet S ks = .ok r from hr] at hcreated
  have hmap : [e].mapM (bundleOfHandshake ks) = .ok [(username, b)] := by
    rw [List.mapM_cons, he]
    rfl
  simp only [acceptHandshakes, hmap, SessionStore.updateHandshakes, hcreated]
  rw [SessionStore.session_touch, SessionStore.session_save]
  exact SessionStore.session_hold ..

/-- and one that is not ends the backlog before any is made. -/
theorem session_acceptHandshakes_refused (h : ¬ Acceptable S ks e) (es : List Json) :
    BadHandshake S ks [] e ⟨∅, ∅, ∅⟩
      ∧ ∀ u d, (acceptHandshakes S ks (e :: es) ⟨∅, ∅, ∅⟩).2.session u d = none := by
  have hempty : ∀ u d, (⟨∅, ∅, ∅⟩ : SessionStore Key).session u d = none := fun u d =>
    SessionStore.session_of_empty rfl d
  cases he : bundleOfHandshake ks e with
  | error fault =>
    constructor
    · rw [BadHandshake, he]
      trivial
    · have hmap : (e :: es).mapM (bundleOfHandshake ks) = .error fault := by
        rw [List.mapM_cons, he]
        rfl
      rw [acceptHandshakes, hmap]
      exact hempty
  | ok m =>
    cases hr : m.2.createRatchet S ks with
    | ok r => exact absurd ⟨m.1, m.2, r, he, hr⟩ h
    | error fault =>
      have hcreated : SessionStore.createRatchetsIfNeeded S ks m.1 true [.receiving m.2]
          ⟨∅, ∅, ∅⟩ = _ := SessionStore.createRatchetsIfNeeded_of_none (hempty ..) true
      rw [show (KeyBundle.receiving m.2).createRatchet S ks = .error fault from hr] at hcreated
      constructor
      · rw [BadHandshake, he]
        exact ⟨fault, congrArg Outcome.result hcreated⟩
      · intro u d
        rw [acceptHandshakes, List.mapM_cons, he]
        cases es.mapM (bundleOfHandshake ks) with
        | error fault' => exact hempty u d
        | ok handshakes =>
          show (SessionStore.updateHandshakes S ks (m :: handshakes) _).2.session u d = _
          simp only [SessionStore.updateHandshakes, hcreated]
          rw [SessionStore.session_touch]
          exact hempty u d

/-- **One that is not acceptable costs the next one its session**, where
there is none yet. -/
theorem not_isolated_handshake (h : ¬ Acceptable S ks e) {e' : Json}
    (h' : Acceptable S ks e') :
    ¬ Batch.Isolated (fun es s u d => (acceptHandshakes S ks es s).2.session u d)
      (BadHandshake S ks) e := by
  obtain ⟨username, b, r, he, hr⟩ := h'
  obtain ⟨hbad, hnone⟩ := session_acceptHandshakes_refused h [e']
  refine Batch.not_isolated e' hbad fun heq => ?_
  have hsame := congrFun (congrFun heq username) b.theirDevicePublic
  have hsome := session_acceptHandshakes_self he hr
  rw [← hsame, hnone] at hsome
  cases hsome

/-- **No bad handshake is isolated**, unless none could be accepted anyway. -/
theorem isolated_handshake_iff (e : Json) :
    Batch.Isolated (fun es s u d => (acceptHandshakes S ks es s).2.session u d)
        (BadHandshake S ks) e
      ↔ Acceptable S ks e ∨ ∀ e', ¬ Acceptable S ks e' := by
  constructor
  · intro hisolated
    by_cases h : Acceptable S ks e
    · exact Or.inl h
    · exact Or.inr fun e' h' => not_isolated_handshake h h' hisolated
  · rintro (h | hnone)
    · exact Batch.Isolated.of_never h.not_bad
    · intro pre post s _
      funext u d
      exact (session_acceptHandshakes hnone _ s u d).trans
        (session_acceptHandshakes hnone _ s u d).symm

end Handshakes

/-! ## File metadata -/

section Metadata

variable (B : KeyBytes Key) (parse : List UInt8 → Option Json)

/-- **`get_file_metadata`** with the reply's entries: the files it lists,
none if it throws. -/
def listFiles (entries : List Json) (s : SessionStore Key) : List FileData :=
  match (decodeMetadata entries).map (List.filterMap (fileDataOf A B parse s)) with
  | .error _ => []
  | .ok files => files

/-- **Bad file metadata**: its entry is malformed, or nothing of it can be
listed. -/
def BadMetadata (_ : List Json) (e : Json) (s : SessionStore Key) : Prop :=
  match encryptedMetadataOf e with
  | .error _ => True
  | .ok m => fileDataOf A B parse s m = none

variable {A} {B} {parse} {e : Json} {s : SessionStore Key}

/-- The files listed are those `get_file_metadata` returns. -/
theorem getFileMetadata_eq_listFiles {isSending : Bool} {currentUsername : String}
    {serve : List String → Except Fault Json} {response : Json} {entries : List Json}
    {files : List FileData}
    (hserve : serve (s.fileUuids isSending currentUsername) = .ok response)
    (hentries : metadataEntries response = .ok entries)
    (h : getFileMetadata A B parse isSending currentUsername serve s = .ok files) :
    files = listFiles A B parse entries s := by
  rw [getFileMetadata, getEncryptedFileMetadata, hserve] at h
  simp only [ok_bind, hentries] at h
  rw [listFiles]
  cases hdecode : decodeMetadata entries with
  | error fault =>
    rw [hdecode] at h
    cases h
  | ok metadatas =>
    rw [hdecode] at h
    exact (Except.ok.inj h).symm

/-- What is listed is not empty. -/
theorem ne_nil_of_fileDataOf {m : EncryptedMetadata} {file : FileData}
    (h : fileDataOf A B parse s m = some file) :
    m.encryptedMetadata ≠ [] ∧ m.encryptedFileKey ≠ [] := by
  obtain ⟨text, htext, -⟩ := Option.bind_eq_some_iff.mp h
  have hnil : ∀ key, ∃ fault, decryptMessageGivenKey A [] key = .error fault := fun _ => ⟨_, rfl⟩
  unfold decryptedMetadata at htext
  constructor
  · intro hempty
    simp only [hempty] at htext
    split at htext
    · cases htext
    · split at htext
      · cases htext
      · split at htext
        · cases htext
        · rename_i decryptedKey _
          obtain ⟨fault, hfault⟩ := hnil (B.keyAt decryptedKey)
          rw [hfault] at htext
          cases htext
  · intro hempty
    simp only [hempty] at htext
    split at htext
    · cases htext
    · rename_i key _
      obtain ⟨fault, hfault⟩ := hnil (B.keyAt key)
      rw [hfault] at htext
      split at htext <;> cases htext

/-- What is listed of one file at the server. -/
theorem listFiles_entry {m : EncryptedMetadata} {file : FileData}
    (h : fileDataOf A B parse s m = some file) : listFiles A B parse [m.entry] s = [file] := by
  obtain ⟨hmeta, hkey⟩ := ne_nil_of_fileDataOf h
  rw [listFiles, decodeMetadata,
    Batch.decodeAll_cons_ok (metadataOfEntry_eq (encryptedMetadataOf_entry hmeta hkey))]
  show List.filterMap (fileDataOf A B parse s) [m] = _
  rw [List.filterMap_cons_some h, List.filterMap_nil]

/-- **An entry is isolated exactly if it can be decoded**, unless nothing is
ever listed. -/
theorem isolated_metadata_iff (e : Json) :
    Batch.Isolated (listFiles A B parse) (BadMetadata A B parse) e
      ↔ (encryptedMetadataOf e).isOk ∨ ∀ m s, fileDataOf A B parse s m = none := by
  constructor
  · intro hisolated
    cases he : encryptedMetadataOf e with
    | ok m => exact Or.inl rfl
    | error fault =>
      refine Or.inr fun m s => ?_
      by_contra hne
      obtain ⟨file, hfile⟩ := Option.ne_none_iff_exists'.mp hne
      have hbad : BadMetadata A B parse [] e s := by
        rw [BadMetadata, he]
        trivial
      refine Batch.not_isolated m.entry hbad (fun heq => ?_) hisolated
      have hnil : listFiles A B parse [e, m.entry] s = [] := by
        rw [listFiles, decodeMetadata,
          Batch.decodeAll_cons_error (x := fault) (by rw [metadataOfEntry, he]; rfl)]
        rfl
      rw [hnil, listFiles_entry hfile] at heq
      cases heq
  · rintro (hok | hnever)
    · intro pre post s hbad
      obtain ⟨m, he⟩ := exists_of_isOk hok
      rw [BadMetadata, he] at hbad
      rw [listFiles, listFiles, decodeMetadata, Batch.filterMap_decodeAll (metadataOfEntry_eq he)
        fun x hx => Option.some.inj hx ▸ hbad]
    · have hnil : ∀ es s, listFiles A B parse es s = [] := by
        intro es s
        rw [listFiles]
        cases decodeMetadata es with
        | error fault => rfl
        | ok metadatas => exact List.filterMap_eq_nil_iff.mpr fun m _ => hnever m s
      intro pre post s _
      rw [hnil, hnil]

end Metadata

/-! ## The main result -/

/-- **A bad entry is isolated exactly where a loop looks for the defect.** Of
a batch of messages, an entry that is bad in some company affects the others,
unless its keys are of the wrong length and it is skipped; of a batch of
handshakes every bad entry does; of a list of files every entry that cannot
be decoded does, and no other. Only where no entry would come to anything is
there nothing to affect. -/
theorem entryIsolated_iff (B : KeyBytes Key) (parse : List UInt8 → Option Json)
    (message : Json × Key) (handshake file : Json) :
    (Batch.Isolated (fun es s => (pollMessages S A es s).store.messages) (BadMessage S A) message
        ↔ messageOfEntry message.1 = .ok none
          ∨ ∀ data key, ¬ (decryptMessageGivenKey A data key).isOk)
      ∧ (Batch.Isolated (fun es s u d => (acceptHandshakes S ks es s).2.session u d)
          (BadHandshake S ks) handshake
        ↔ Acceptable S ks handshake ∨ ∀ e, ¬ Acceptable S ks e)
      ∧ (Batch.Isolated (listFiles A B parse) (BadMetadata A B parse) file
        ↔ (encryptedMetadataOf file).isOk ∨ ∀ m s, fileDataOf A B parse s m = none) :=
  ⟨isolated_message_iff message, isolated_handshake_iff handshake, isolated_metadata_iff file⟩

/-! ## One bad entry in each -/

namespace BadEntries

/-- A nonce and a ciphertext of the key that opens it. -/
def sealed (key : Key) (message : List UInt8) : List UInt8 :=
  encryptMessageGivenKey Aead.labelled FileRecord.zeroNonce.1 message key

/-- Two messages; the first has no ciphertext and is of another session. -/
def messages : List (Json × Key) :=
  [((RelayedMessage.kept "carol" []).entry, 0),
    ((RelayedMessage.kept "alice" (sealed (.repeated 1) [7, 7])).entry, 0)]

/-- Two handshakes; a field of the first is null. -/
def handshakes : List Json :=
  [.obj [("username", .str "carol"), ("initiator_device_public_key", .null)],
    .obj [("username", .str "alice"),
      ("initiator_device_public_key", .str (Sodium.bytes.signPublic (.repeated 5)).hex),
      ("initiator_ephemeral_public_key", .str (Sodium.bytes.boxPublic (.repeated 7)).hex),
      ("recipient_onetime_public_prekey", .str (Sodium.bytes.boxPublic (.repeated 3)).hex)]]

/-- Two files; the metadata of the first is no hexadecimal text. -/
def files : List Json :=
  [.obj [("file_id", .str "notes"), ("owner", .str "carol"), ("encrypted_metadata", .str "zz"),
      ("encrypted_file_key", .str "00")],
    (EncryptedMetadata.mk "report" (sealed (.repeated 6) [1])
      (sealed (.repeated 7) (Key.repeated 6).1) "alice").entry]

/-- The keys of the device they reach. -/
def keys : KeyStore Key :=
  .repeated 1 [(Sodium.bytes.boxPublic (.repeated 3), .repeated 3)]

/-- What any text is parsed as. -/
def document : Json := .obj
  [("name", .str "a.txt"), ("size", .num 3), ("mime_type", .str "text/plain")]

/-- A store with the key of the second file. -/
def store : SessionStore Key :=
  (⟨∅, ∅, ∅⟩ : SessionStore Key).saveMessage "report"
    ⟨"alice", Sodium.bytes.signPublic (.repeated 5), (Key.repeated 7).1, false⟩

/-- **Each costs the other what it would have brought**: a key, a session, a
file. -/
theorem not_isolated_first :
    ((∀ e ∈ messages.head?, ¬ (messageOfEntry e.1).isOk)
      ∧ (pollMessages Sodium.bytes .labelled messages
        (.keeping "alice" (.repeated 1))).store.messages.lookup "" = none
      ∧ ((pollMessages Sodium.bytes .labelled messages.tail
        (.keeping "alice" (.repeated 1))).store.messages.lookup "").isSome)
    ∧ ((∀ e ∈ handshakes.head?, ¬ (bundleOfHandshake keys e).isOk)
      ∧ (acceptHandshakes Sodium.bytes keys handshakes ⟨∅, ∅, ∅⟩).2.session "alice"
          (Sodium.bytes.signPublic (.repeated 5)) = none
      ∧ ((acceptHandshakes Sodium.bytes keys handshakes.tail ⟨∅, ∅, ∅⟩).2.session
          "alice" (Sodium.bytes.signPublic (.repeated 5))).isSome)
    ∧ (∀ e ∈ files.head?, ¬ (encryptedMetadataOf e).isOk)
      ∧ listFiles .labelled .array (fun _ => some document) files store = []
      ∧ listFiles .labelled .array (fun _ => some document) files.tail store
        = [⟨"a.txt", 3, "text/plain", "report", "alice"⟩] := by
  refine ⟨⟨?_, ?_, ?_⟩, ⟨?_, ?_, ?_⟩, ?_, ?_, ?_⟩
  · decide +kernel
  · decide +kernel
  -- without the first message, the ratchet answers the second from its backlog
  · have hopened : decryptMessageGivenKey .labelled (sealed (.repeated 1) [7, 7]) (.repeated 1)
        = .ok [7, 7] := by
      decide +kernel
    rw [messages, List.tail_cons, messages_pollMessages_kept "alice" hopened]
    rfl
  · decide +kernel
  · decide +kernel
  · decide +kernel
  · decide +kernel
  · decide +kernel
  -- the second file opens under the key that is stored
  · exact listFiles_entry (by decide +kernel)

end BadEntries
