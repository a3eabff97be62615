import Eastwood.FileAccess

/-!
# What a message says about its file

A message names the file its key is for beside the ciphertext, and the device
it comes from, and its public key: none of it goes into the encryption. So
whoever relays the messages can put another file's id on one, and the key is
stored under that file; and by leading the sender's ratchet to a public key
of another session it can even have the message decrypt as another device's.

What a relay that cannot encrypt is held to is the ciphertext. A key is only
ever stored if the message delivered named that file and that sender, and if
some device encrypted that key, under the very key the ratchet answered, into
that ciphertext (`Network.storedKey_sent`). The file id does not enter.
-/

variable {K : Type}

/-! ## The messages in transit -/

/-- **A message as it is posted and delivered**, keys and bytes read from
their hex; `file_id` may be absent or null on the way in. -/
structure RelayedMessage (K : Type) where
  fileId : Option String
  username : String
  initiatorDevicePublicKey : K
  recipientDevicePublicKey : K
  dhPublic : K
  prevChainLength : ℤ
  messageIndex : ℤ
  ciphertext : List UInt8
  deriving DecidableEq

/-- `post_ratchet_message`, of one message. -/
def postRatchetMessage (username : String) (devPub recipientDevPub : K) (m : DeviceMessage K) :
    RelayedMessage K where
  fileId := some m.header.fileUuid
  username := username
  initiatorDevicePublicKey := devPub
  recipientDevicePublicKey := recipientDevPub
  dhPublic := m.header.dhPublic
  prevChainLength := m.header.prevChainLength
  messageIndex := m.header.messageIndex
  ciphertext := m.ciphertext

/-- `get_messages`, of one message; the private key its header may make the
ratchet draw is given. -/
def RelayedMessage.incoming (m : RelayedMessage K) (fresh : K) : Incoming K where
  username := m.username
  message :=
    { header :=
        { dhPublic := m.dhPublic
          prevChainLength := m.prevChainLength
          messageIndex := m.messageIndex
          deviceId := m.initiatorDevicePublicKey
          fileUuid := copyFileUuid (m.fileId.getD "") }
      ciphertext := m.ciphertext }
  fresh := fresh

/-! ## Devices and a relay -/

/-- A key encryption key that was sent: with the message key it was encrypted
under and the message that was posted. -/
structure SentKey (K : Type) where
  fKek : List UInt8
  key : K
  relayed : RelayedMessage K
  deriving DecidableEq

/-- **Any number of devices and a relay**: what each device keeps, all that
was ever sent, and what was delivered to each. -/
structure Network (ι K : Type) where
  store : ι → SessionStore K
  sent : List (SentKey K)
  delivered : ι → List (Incoming K)

/-- What can happen next, at one device. Its key store, the handshakes and
the messages delivered to it are whatever they are. -/
inductive RelayStep (ι K : Type) where
  /-- `allow_access_to_file`; the post may throw, and has been seen by the
  relay all the same. -/
  | allowAccess (i : ι) (ks : KeyStore K) (myUsername username uuid : String) (fKek : List UInt8)
      (nonce : K → AeadNonce) (newBundles : Option (List (SendingKeyBundle K))) (posted : Bool)
  | updateHandshakes (i : ι) (ks : KeyStore K)
      (handshakes : List (String × ReceivingKeyBundle K))
  | updateMessages (i : ι) (batch : List (RelayedMessage K × K))

variable [LinearOrder K] (S : Sodium K) (A : Aead K)

/-- What a relay sees of the messages of one call. -/
def SentKey.ofMessages (ks : KeyStore K) (myUsername : String) (fKek : List UInt8)
    (messages : Except Fault (List (K × K × DeviceMessage K))) : List (SentKey K) :=
  match ks.getPublicKey .device, messages with
  | .ok devPub, .ok messages => messages.map fun (device, key, m) =>
      ⟨fKek, key, postRatchetMessage myUsername devPub device m⟩
  | _, _ => []

namespace Network

variable {ι : Type} [DecidableEq ι]

/-- Devices that have done nothing yet. -/
def start : Network ι K := ⟨fun _ => ⟨∅, ∅, ∅⟩, [], fun _ => []⟩

/-- **One step.** -/
def next [Zero K] (n : Network ι K) : RelayStep ι K → Network ι K
  | .allowAccess i ks myUsername username uuid fKek nonce newBundles posted =>
    let outcome := allowAccessToFile S A ks username uuid fKek (fun device => (nonce device).1)
      newBundles (n.store i)
    -- what was sent is stored only if the post returned
    let store := if posted then outcome.store
      else ((n.store i).getKeysForIdentity S ks username newBundles).store
    { n with
      store := Function.update n.store i store
      sent := n.sent ++ SentKey.ofMessages ks myUsername fKek outcome.result }
  | .updateHandshakes i ks handshakes =>
    { n with
      store := Function.update n.store i
        (SessionStore.updateHandshakes S ks handshakes (n.store i)).2 }
  | .updateMessages i batch =>
    let batch := batch.map fun m => m.1.incoming m.2
    { n with
      store := Function.update n.store i (updateMessages S A batch (n.store i)).store
      delivered := Function.update n.delivered i (n.delivered i ++ batch) }

end Network

/-- **A batch without a forgery**: a ciphertext that decrypts under the key
the ratchet answers for it, when its turn comes, is one that was sent. -/
def UnforgedBatch (sent : List (SentKey K)) : List (Incoming K) → SessionStore K → Prop
  | [], _ => True
  | m :: ms, s =>
    (∀ key fKek, (s.getKeyForDevice S m.fresh m.username m.message.header).1 = .ok key →
      decryptMessageGivenKey A m.message.ciphertext key = .ok fKek →
      ∃ e ∈ sent, e.relayed.ciphertext = m.message.ciphertext)
    ∧ ((updateMessage S A m s).result = .ok () →
      UnforgedBatch sent ms (updateMessage S A m s).store)

/-- A relay that cannot encrypt. -/
def RelayStep.Unforged {ι : Type} (n : Network ι K) : RelayStep ι K → Prop
  | .updateMessages i batch =>
    UnforgedBatch S A n.sent (batch.map fun m => m.1.incoming m.2) (n.store i)
  | _ => True

/-- **A run** of the devices with such a relay. -/
inductive Network.Reachable [Zero K] {ι : Type} [DecidableEq ι] : Network ι K → Prop
  | start : Network.Reachable .start
  | step {n : Network ι K} (h : Network.Reachable n) {step : RelayStep ι K}
      (hstep : step.Unforged S A n) : Network.Reachable (n.next S A step)

/-! ## Which operations write messages -/

namespace SessionStore

variable {S} {A} {ks : KeyStore K} {s : SessionStore K} {username : String}

/-- The sessions are made without a look at the messages, -/
theorem messages_createRatchetsIfNeeded [Zero K] (post : Bool) (bundles : List (KeyBundle K))
    (s : SessionStore K) :
    (createRatchetsIfNeeded S ks username post bundles s).store.messages = s.messages := by
  induction bundles generalizing s with
  | nil => rfl
  | cons bundle bundles ih =>
    rw [createRatchetsIfNeeded]
    split
    · exact ih s
    · split
      · rfl
      · exact ih _

/-- advanced without it, -/
theorem messages_advanceAll [Zero K] (myDevicePublic : K) (devices : List K)
    (s : SessionStore K) :
    (advanceAll S username myDevicePublic devices s).2.messages = s.messages := by
  induction devices generalizing s with
  | nil => rfl
  | cons device devices ih =>
    rw [advanceAll]
    split
    · exact ih s
    · split
      · rfl
      · rename_i r' _
        have hrest := ih ((s.hold username device r').save username device r')
        split
        · rename_i hall
          rwa [hall] at hrest
        · rename_i hall
          rwa [hall] at hrest

theorem messages_getKeysForIdentity [Zero K]
    (newBundles : Option (List (SendingKeyBundle K))) :
    (s.getKeysForIdentity S ks username newBundles).store.messages = s.messages := by
  have hensure : (s.ensureRatchets S ks username newBundles).store.messages = s.messages := by
    unfold ensureRatchets
    cases newBundles with
    | none => rfl
    | some bundles => exact messages_createRatchetsIfNeeded true _ s
  rcases getKeysForIdentity_cases S ks s username newBundles with ⟨e, -, hk⟩ | ⟨-, hk⟩
  · rw [hk]
    exact hensure
  · rw [hk, ← hensure]
    unfold advanceUser
    cases ks.getPublicKey .device with
    | error e => rfl
    | ok myDevicePublic => exact messages_advanceAll myDevicePublic _ _

/-- and asked without it. -/
theorem messages_getKeyForDevice (fresh : K) (header : MessageHeader K) :
    (s.getKeyForDevice S fresh username header).2.messages = s.messages := by
  cases hs : s.session username header.deviceId with
  | none =>
    obtain ⟨_, h⟩ := getKeyForDevice_of_none (S := S) hs fresh
    rw [h]
  | some r =>
    rw [getKeyForDevice_eq hs]
    cases hr : r.advanceReceive S fresh header with
    | mk result r' => cases result <;> rfl

theorem messages_updateHandshakes [Zero K] (handshakes : List (String × ReceivingKeyBundle K))
    (s : SessionStore K) :
    (updateHandshakes S ks handshakes s).2.messages = s.messages := by
  induction handshakes generalizing s with
  | nil => rfl
  | cons h handshakes ih =>
    obtain ⟨username, bundle⟩ := h
    unfold updateHandshakes
    have hcreate : (createRatchetsIfNeeded S ks username true [.receiving bundle] s).store.messages
        = s.messages := messages_createRatchetsIfNeeded true [.receiving bundle] s
    cases hresult : (createRatchetsIfNeeded S ks username true [.receiving bundle] s).result with
    | error e =>
      simp only [hresult]
      exact hcreate
    | ok _ =>
      simp only [hresult]
      exact (ih _).trans hcreate

omit [LinearOrder K] in
/-- What is stored of sent messages is marked as such. -/
theorem received_foldl_saveMessage {fKek : List UInt8} {f : String} {row : StoredMessage K}
    (hrow : row.isSender = false) (messages : List (K × K × DeviceMessage K))
    (s : SessionStore K)
    (h : (messages.foldl (fun s (x : K × K × DeviceMessage K) =>
      s.saveMessage x.2.2.header.fileUuid ⟨username, x.1, fKek, true⟩) s).messages.lookup f
        = some row) :
    s.messages.lookup f = some row := by
  induction messages generalizing s with
  | nil => exact h
  | cons x messages ih =>
    have h : (s.messages.insert x.2.2.header.fileUuid ⟨username, x.1, fKek, true⟩).lookup f
        = some row := ih _ h
    by_cases hf : f = x.2.2.header.fileUuid
    · rw [hf, Finmap.lookup_insert] at h
      rw [← Option.some.inj h] at hrow
      cases hrow
    · rwa [Finmap.lookup_insert_of_ne _ hf] at h

/-- So `allow_access_to_file` stores nothing as received. -/
theorem received_allowAccessToFile [Zero K] {uuid f : String} {fKek : List UInt8}
    {nonce : K → List UInt8} {newBundles : Option (List (SendingKeyBundle K))}
    {row : StoredMessage K} (hrow : row.isSender = false)
    (h : (allowAccessToFile S A ks username uuid fKek nonce newBundles s).store.messages.lookup f
      = some row) : s.messages.lookup f = some row := by
  have hkeys : (s.getKeysForIdentity S ks username newBundles).store.messages = s.messages :=
    messages_getKeysForIdentity newBundles
  unfold allowAccessToFile at h
  cases hresult : (s.getKeysForIdentity S ks username newBundles).result with
  | error e =>
    simp only [hresult, hkeys] at h
    exact h
  | ok keysToSend =>
    simp only [hresult] at h
    rw [← hkeys]
    exact received_foldl_saveMessage hrow _ _ h

end SessionStore

/-! ## Where a stored key comes from -/

/-- **What a stored key goes back to**: a message that was delivered naming
this file and this sender, whose ciphertext was sent, and holds this key. -/
def Delivers (A : Aead K) (sent : List (SentKey K)) (delivered : List (Incoming K)) (f : String)
    (row : StoredMessage K) : Prop :=
  ∃ m ∈ delivered, m.username = row.username ∧ m.message.header.fileUuid = f
    ∧ m.message.header.deviceId = row.fromDeviceId
    ∧ (∃ key, decryptMessageGivenKey A m.message.ciphertext key = .ok row.message)
    ∧ ∃ e ∈ sent, e.relayed.ciphertext = m.message.ciphertext

section Origin

variable {S} {A} {sent : List (SentKey K)} {delivered : List (Incoming K)} {f : String}
variable {row : StoredMessage K} {s : SessionStore K}

omit [LinearOrder K] in
/-- Whatever else is sent and delivered. -/
theorem Delivers.mono (h : Delivers A sent delivered f row) (moreSent : List (SentKey K))
    (more : List (Incoming K)) : Delivers A (sent ++ moreSent) (delivered ++ more) f row := by
  obtain ⟨m, hm, hu, hf, hd, hkey, e, he, hc⟩ := h
  exact ⟨m, List.mem_append_left _ hm, hu, hf, hd, hkey, e, List.mem_append_left _ he, hc⟩

/-- **One message stores one key, or none**: what is received after it was
received before, or is what it carried. -/
theorem received_updateMessage {m : Incoming K}
    (h : (updateMessage S A m s).store.messages.lookup f = some row) :
    s.messages.lookup f = some row
      ∨ m.message.header.fileUuid = f ∧ m.username = row.username
        ∧ m.message.header.deviceId = row.fromDeviceId
        ∧ ∃ key, (s.getKeyForDevice S m.fresh m.username m.message.header).1 = .ok key
          ∧ decryptMessageGivenKey A m.message.ciphertext key = .ok row.message := by
  have hkeep : (s.getKeyForDevice S m.fresh m.username m.message.header).2.messages
      = s.messages := SessionStore.messages_getKeyForDevice m.fresh m.message.header
  obtain ⟨e, t, hk, hm⟩ | ⟨key, t, hk, ⟨e, -, hm⟩ | ⟨decrypted, hd, hm⟩⟩ :=
    updateMessage_cases (S := S) (A := A) m s
  · rw [hm] at h
    rw [hk] at hkeep
    exact Or.inl (hkeep ▸ h)
  · rw [hm] at h
    rw [hk] at hkeep
    exact Or.inl (hkeep ▸ h)
  · rw [hm] at h
    rw [hk] at hkeep
    replace hkeep : t.messages = s.messages := hkeep
    change (t.messages.insert m.message.header.fileUuid
      ⟨m.username, m.message.header.deviceId, decrypted, false⟩).lookup f = some row at h
    by_cases hf : f = m.message.header.fileUuid
    · rw [hf, Finmap.lookup_insert] at h
      obtain rfl := Option.some.inj h
      exact Or.inr ⟨hf.symm, rfl, rfl, key, by rw [hk], hd⟩
    · rw [Finmap.lookup_insert_of_ne _ hf, hkeep] at h
      exact Or.inl h

/-- So does a batch without a forgery. -/
theorem received_updateMessages {batch : List (Incoming K)}
    (hbatch : UnforgedBatch S A sent batch s)
    (h : (updateMessages S A batch s).store.messages.lookup f = some row) :
    s.messages.lookup f = some row ∨ Delivers A sent batch f row := by
  induction batch generalizing s with
  | nil => exact Or.inl h
  | cons m ms ih =>
    obtain ⟨hm, hms⟩ := hbatch
    have hfirst : (updateMessage S A m s).store.messages.lookup f = some row →
        s.messages.lookup f = some row ∨ Delivers A sent (m :: ms) f row := by
      intro hrow
      refine (received_updateMessage hrow).imp_right ?_
      rintro ⟨hf, hu, hd, key, hkey, hdec⟩
      exact ⟨m, List.mem_cons_self, hu, hf, hd, ⟨key, hdec⟩, hm key _ hkey hdec⟩
    unfold updateMessages Polled.andThen at h
    cases hresult : (updateMessage S A m s).result with
    | error e =>
      simp only [hresult] at h
      exact hfirst h
    | ok _ =>
      simp only [hresult] at h
      obtain hrow | ⟨m', hm', hrest⟩ := ih (hms hresult) h
      · exact hfirst hrow
      · exact Or.inr ⟨m', List.mem_cons_of_mem _ hm', hrest⟩

end Origin

namespace Network

/-- **The invariant**: what was sent was encrypted as it says, and what is
stored as received goes back to a delivery. -/
structure Inv (A : Aead K) {ι : Type} (n : Network ι K) : Prop where
  sent : ∀ e ∈ n.sent, ∃ nonce : AeadNonce,
    e.relayed.ciphertext = encryptMessageGivenKey A nonce.1 e.fKek e.key
  stored : ∀ i f row, (n.store i).messages.lookup f = some row → row.isSender = false →
    Delivers A n.sent (n.delivered i) f row

section Run

variable {S} {A} {ι : Type} [DecidableEq ι] {n : Network ι K}

/-- What a call of `allow_access_to_file` sends is encrypted as the log
says. -/
theorem exists_nonce_of_mem_ofMessages [Zero K] {ks : KeyStore K}
    {myUsername username uuid : String} {fKek : List UInt8} {nonce : K → AeadNonce}
    {newBundles : Option (List (SendingKeyBundle K))} {s : SessionStore K} {e : SentKey K}
    (he : e ∈ SentKey.ofMessages ks myUsername fKek (allowAccessToFile S A ks username uuid fKek
      (fun device => (nonce device).1) newBundles s).result) :
    ∃ nonce : AeadNonce, e.relayed.ciphertext
      = encryptMessageGivenKey A nonce.1 e.fKek e.key := by
  unfold SentKey.ofMessages at he
  split at he
  · rename_i devPub messages _ hmessages
    obtain ⟨⟨device, key, m⟩, hmem, rfl⟩ := List.mem_map.mp he
    obtain ⟨header, rfl⟩ := eq_deviceMessage_of_allowAccessToFile hmessages hmem
    exact ⟨nonce device, rfl⟩
  · cases he

omit [LinearOrder K] in
/-- A step at one device leaves the others' messages where they are. -/
theorem stored_update (h : n.Inv A) {i : ι} {s : SessionStore K} (sent : List (SentKey K))
    (delivered : List (Incoming K))
    (hs : ∀ f row, s.messages.lookup f = some row → row.isSender = false →
      (n.store i).messages.lookup f = some row
        ∨ Delivers A (n.sent ++ sent) (n.delivered i ++ delivered) f row)
    (j : ι) (f : String) (row : StoredMessage K)
    (hrow : (Function.update n.store i s j).messages.lookup f = some row)
    (hreceived : row.isSender = false) :
    Delivers A (n.sent ++ sent)
      (Function.update n.delivered i (n.delivered i ++ delivered) j) f row := by
  by_cases hj : j = i
  · subst hj
    rw [Function.update_self] at hrow ⊢
    exact (hs f row hrow hreceived).elim
      (fun hold => (h.stored j f row hold hreceived).mono sent delivered) id
  · rw [Function.update_of_ne hj] at hrow ⊢
    have hmono := (h.stored j f row hrow hreceived).mono sent []
    rwa [List.append_nil] at hmono

/-- **One step keeps it**, if nothing delivered is forged. -/
theorem Inv.next [Zero K] (h : n.Inv A) {step : RelayStep ι K} (hstep : step.Unforged S A n) :
    (n.next S A step).Inv A := by
  cases step with
  | allowAccess i ks myUsername username uuid fKek nonce newBundles posted =>
    refine ⟨fun e he => ?_, fun j f row hrow hreceived => ?_⟩
    · obtain he | he := List.mem_append.mp he
      · exact h.sent e he
      · exact exists_nonce_of_mem_ofMessages he
    · have hsame := stored_update (i := i) h (SentKey.ofMessages ks myUsername fKek
          (allowAccessToFile S A ks username uuid fKek (fun device => (nonce device).1) newBundles
            (n.store i)).result) [] ?_ j f row hrow hreceived
      · rwa [List.append_nil, Function.update_eq_self] at hsame
      · intro f row hrow hreceived
        cases posted with
        | true => exact Or.inl (SessionStore.received_allowAccessToFile hreceived hrow)
        | false =>
          have hkeys : (((n.store i).getKeysForIdentity S ks username
            newBundles).store.messages.lookup f) = some row := hrow
          rw [SessionStore.messages_getKeysForIdentity] at hkeys
          exact Or.inl hkeys
  | updateHandshakes i ks handshakes =>
    refine ⟨h.sent, fun j f row hrow hreceived => ?_⟩
    have hsame := stored_update (i := i) h [] [] ?_ j f row hrow hreceived
    · rwa [List.append_nil, List.append_nil, Function.update_eq_self] at hsame
    · intro f row hrow _
      rw [SessionStore.messages_updateHandshakes] at hrow
      exact Or.inl hrow
  | updateMessages i batch =>
    refine ⟨h.sent, fun j f row hrow hreceived => ?_⟩
    have hmore := stored_update (i := i) h [] (batch.map fun m => m.1.incoming m.2) ?_ j f row
      hrow hreceived
    · rwa [List.append_nil] at hmore
    · intro f row hrow _
      refine (received_updateMessages hstep hrow).imp_right fun ⟨m, hm, hrest⟩ => ?_
      rw [List.append_nil]
      exact ⟨m, List.mem_append_right _ hm, hrest⟩

/-- It holds in every run. -/
theorem Reachable.inv [Zero K] (h : Reachable S A n) : n.Inv A := by
  induction h with
  | start => exact ⟨fun e he => absurd he List.not_mem_nil, fun i f row hrow => nomatch hrow⟩
  | step _ hstep ih => exact ih.next hstep

end Run

end Network

/-! ## Another file's id -/

/-- A message under another file's id. -/
def RelayedMessage.relabel (m : RelayedMessage K) (fileId : Option String) : RelayedMessage K :=
  { m with fileId := fileId }

section Relabel

variable {S} {A} {m : RelayedMessage K} {s : SessionStore K}

/-- **Nothing notices another file's id**: under every id a message throws,
or under every id it does the same to the sessions and stores the same key
under that id. -/
theorem updateMessage_relabel (m : RelayedMessage K) (fresh : K) (s : SessionStore K) :
    (∃ keys e st, ∀ fileId,
        updateMessage S A ((m.relabel fileId).incoming fresh) s = ⟨keys, .error e, st⟩)
      ∨ ∃ keys, ∃ st : SessionStore K, ∃ row, ∀ fileId,
        updateMessage S A ((m.relabel fileId).incoming fresh) s
          = ⟨keys, .ok (), st.saveMessage (copyFileUuid (fileId.getD "")) row⟩ := by
  -- neither the ratchet nor the cipher is given the id
  have hkey : ∀ fileId, s.getKeyForDevice S fresh m.username
      ((m.relabel fileId).incoming fresh).message.header
    = s.getKeyForDevice S fresh m.username (m.incoming fresh).message.header := fun _ => rfl
  rcases hk : s.getKeyForDevice S fresh m.username (m.incoming fresh).message.header with
    ⟨e | key, t⟩
  · exact Or.inl ⟨[], e, t, fun fileId => updateMessage_of_refused ((hkey fileId).trans hk)⟩
  cases hd : decryptMessageGivenKey A m.ciphertext key with
  | error e =>
    exact Or.inl ⟨[key], e, t, fun fileId =>
      updateMessage_of_undecrypted ((hkey fileId).trans hk) hd⟩
  | ok decrypted =>
    refine Or.inr ⟨[key], t, ⟨m.username, m.initiatorDevicePublicKey, decrypted, false⟩, ?_⟩
    exact fun fileId => updateMessage_of_decrypted ((hkey fileId).trans hk) hd

end Relabel

/-! ## The main result -/

/-- **What is bound of a stored key.** In every run with a relay that may
alter, repeat and invent messages but cannot encrypt: a key that is stored as
received was delivered in a message that named this file and this sender;
its ciphertext was sent, and whoever sent that ciphertext sent this key. The
file id is not bound: a message is stored under whichever it is given. -/
theorem Network.storedKey_sent [Zero K] {A : Aead K} (hA : A.Ideal) {ι : Type} [DecidableEq ι] :
    (∀ n : Network ι K, Network.Reachable S A n → ∀ i f row,
      (n.store i).messages.lookup f = some row → row.isSender = false →
      ∃ m ∈ n.delivered i, m.message.header.fileUuid = f ∧ m.username = row.username
        ∧ m.message.header.deviceId = row.fromDeviceId
        ∧ (∃ e ∈ n.sent, e.relayed.ciphertext = m.message.ciphertext)
        ∧ ∀ e ∈ n.sent, e.relayed.ciphertext = m.message.ciphertext → e.fKek = row.message)
      ∧ ∀ (m : RelayedMessage K) (fresh : K) (s : SessionStore K),
        (∃ keys e st, ∀ fileId,
          updateMessage S A ((m.relabel fileId).incoming fresh) s = ⟨keys, .error e, st⟩)
        ∨ ∃ keys, ∃ st : SessionStore K, ∃ row, ∀ fileId,
          updateMessage S A ((m.relabel fileId).incoming fresh) s
            = ⟨keys, .ok (), st.saveMessage (copyFileUuid (fileId.getD "")) row⟩ := by
  refine ⟨fun n hn i f row hrow hreceived => ?_, updateMessage_relabel⟩
  obtain ⟨m, hm, hu, hf, hd, ⟨key, hdec⟩, hsent⟩ := hn.inv.stored i f row hrow hreceived
  refine ⟨m, hm, hf, hu, hd, hsent, fun e he hc => ?_⟩
  obtain ⟨nonce, henc⟩ := hn.inv.sent e he
  rw [← hc, henc] at hdec
  exact (eq_of_decryptMessageGivenKey hA hdec).2.symm

/-! ## Two runs -/

/-- Ciphertexts that were sent are no forgery. -/
theorem unforgedBatch_of_sent {S : Sodium K} {A : Aead K} {sent : List (SentKey K)}
    {batch : List (Incoming K)} (s : SessionStore K)
    (h : ∀ m ∈ batch, ∃ e ∈ sent, e.relayed.ciphertext = m.message.ciphertext) :
    UnforgedBatch S A sent batch s := by
  induction batch generalizing s with
  | nil => trivial
  | cons m ms ih =>
    exact ⟨fun _ _ _ _ => h m List.mem_cons_self,
      fun _ => ih _ fun m' hm' => h m' (List.mem_cons_of_mem _ hm')⟩

namespace Network

/-- A device of the ideal library sends bob a key. -/
def sends (device : ℕ) (myUsername uuid : String) (fKek : List UInt8)
    (newBundles : List (SendingKeyBundle ℕ)) : RelayStep ℕ ℕ :=
  .allowAccess device (.ideal device) myUsername "bob" uuid fKek (fun _ => FileRecord.zeroNonce)
    (some newBundles) true

/-- The relay delivers a device the `k`-th message sent, altered. -/
def alters (n : Network ℕ ℕ) (device k fresh : ℕ)
    (alter : RelayedMessage ℕ → RelayedMessage ℕ) : RelayStep ℕ ℕ :=
  .updateMessages device ((n.sent[k]?).toList.map fun e => (alter e.relayed, fresh))

section Steps

variable {n : Network ℕ ℕ} (h : Reachable Sodium.ideal Aead.keyed n)
include h

theorem Reachable.sends {device : ℕ} {myUsername uuid : String} {fKek : List UInt8}
    {newBundles : List (SendingKeyBundle ℕ)} :
    Reachable Sodium.ideal Aead.keyed
      (n.next Sodium.ideal Aead.keyed (sends device myUsername uuid fKek newBundles)) :=
  h.step (by trivial)

theorem Reachable.updateHandshakes {device : ℕ} {ks : KeyStore ℕ}
    {handshakes : List (String × ReceivingKeyBundle ℕ)} :
    Reachable Sodium.ideal Aead.keyed
      (n.next Sodium.ideal Aead.keyed (.updateHandshakes device ks handshakes)) :=
  h.step (by trivial)

/-- With the ciphertext it had it is no forgery. -/
theorem Reachable.alters {device k fresh : ℕ} {alter : RelayedMessage ℕ → RelayedMessage ℕ}
    (halter : ∀ m, (alter m).ciphertext = m.ciphertext) :
    Reachable Sodium.ideal Aead.keyed
      (n.next Sodium.ideal Aead.keyed (n.alters device k fresh alter)) := by
  refine h.step (unforgedBatch_of_sent _ fun m hm => ?_)
  rw [List.map_map] at hm
  obtain ⟨e, he, rfl⟩ := List.mem_map.mp hm
  exact ⟨e, List.mem_of_getElem? (Option.mem_toList.mp he), (halter e.relayed).symm⟩

end Steps

/-- Alice, of device 5, starts a session with bob, of device 3, and sends him
a key for the file `report`. -/
def shared : Network ℕ ℕ :=
  (start.next Sodium.ideal Aead.keyed (sends 5 "alice" "report" [7, 7] [.ideal 5])).next
    Sodium.ideal Aead.keyed (.updateHandshakes 3 (.ideal 3) [("alice", .ideal 5)])

/-- The relay delivers it under another id. -/
def relabelled : Network ℕ ℕ :=
  shared.next Sodium.ideal Aead.keyed (shared.alters 3 0 0 (·.relabel (some "other")))

/-- Carol, of device 6, sends bob a message too. -/
def greeted : Network ℕ ℕ :=
  shared.next Sodium.ideal Aead.keyed (sends 6 "carol" "notes" [8, 8] [.ideal 6])

/-- A message under bob's name, with a public key of the relay's choosing. -/
def fromBob (dhPublic : ℕ) (m : RelayedMessage ℕ) : RelayedMessage ℕ :=
  { m with
    username := "bob"
    initiatorDevicePublicKey := Sodium.ideal.signPublic 3
    dhPublic := dhPublic }

/-- It comes back to her as if from bob, -/
def led : Network ℕ ℕ :=
  greeted.next Sodium.ideal Aead.keyed
    (greeted.alters 6 1 20 (fromBob (Sodium.ideal.boxPublic 99)))

/-- and again with the public key bob has in his session with alice. -/
def ledAgain : Network ℕ ℕ :=
  led.next Sodium.ideal Aead.keyed (led.alters 6 1 21 (fromBob (Sodium.ideal.boxPublic 16)))

/-- What she sends next decrypts as a message of alice's. -/
def sentAgain : Network ℕ ℕ :=
  ledAgain.next Sodium.ideal Aead.keyed (sends 6 "carol" "plans" [9, 9] [])

def renamed : Network ℕ ℕ :=
  sentAgain.next Sodium.ideal Aead.keyed (sentAgain.alters 3 2 22 fun m =>
    { m with username := "alice", initiatorDevicePublicKey := Sodium.ideal.signPublic 5 })

theorem reachable_shared : Reachable Sodium.ideal Aead.keyed shared := by
  unfold shared
  exact Reachable.start.sends.updateHandshakes

theorem reachable_relabelled : Reachable Sodium.ideal Aead.keyed relabelled := by
  unfold relabelled
  exact reachable_shared.alters fun _ => rfl

theorem reachable_renamed : Reachable Sodium.ideal Aead.keyed renamed := by
  have hled : Reachable Sodium.ideal Aead.keyed led := by
    unfold led greeted
    exact reachable_shared.sends.alters fun _ => rfl
  have hagain : Reachable Sodium.ideal Aead.keyed ledAgain := by
    unfold ledAgain
    exact hled.alters fun _ => rfl
  have hsent : Reachable Sodium.ideal Aead.keyed sentAgain := by
    unfold sentAgain
    exact hagain.sends
  unfold renamed
  exact hsent.alters fun _ => rfl

/-- **Neither the file nor the device is bound**: bob stores alice's key
under an id no message was sent with; and he stores a key as alice's that her
device never sent. -/
theorem storedKey_unsent :
    (∃ n : Network ℕ ℕ, Reachable Sodium.ideal Aead.keyed n
        ∧ (n.store 3).messages.lookup "other"
          = some ⟨"alice", Sodium.ideal.signPublic 5, [7, 7], false⟩
        ∧ ∀ e ∈ n.sent, e.relayed.fileId ≠ some "other")
      ∧ ∃ n : Network ℕ ℕ, Reachable Sodium.ideal Aead.keyed n
        ∧ (n.store 3).messages.lookup "plans"
          = some ⟨"alice", Sodium.ideal.signPublic 5, [9, 9], false⟩
        ∧ ∀ e ∈ n.sent, e.relayed.initiatorDevicePublicKey = Sodium.ideal.signPublic 5 →
          e.fKek ≠ [9, 9] :=
  ⟨⟨relabelled, reachable_relabelled, by decide +kernel⟩,
    ⟨renamed, reachable_renamed, by decide +kernel⟩⟩

/-- The key bob stored under the other id is the one alice sent. -/
theorem storedKey_sent_relabelled :
    ∃ m ∈ relabelled.delivered 3, m.message.header.fileUuid = "other" ∧ m.username = "alice"
      ∧ m.message.header.deviceId = Sodium.ideal.signPublic 5
      ∧ (∃ e ∈ relabelled.sent, e.relayed.ciphertext = m.message.ciphertext)
      ∧ ∀ e ∈ relabelled.sent, e.relayed.ciphertext = m.message.ciphertext → e.fKek = [7, 7] :=
  (storedKey_sent Sodium.ideal Aead.keyed_ideal).1 relabelled reachable_relabelled 3 "other"
    ⟨"alice", Sodium.ideal.signPublic 5, [7, 7], false⟩ (by decide +kernel) rfl

end Network
