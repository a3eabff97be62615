import Eastwood.ReceiveAnswers
import Eastwood.SessionManager

/-!
# Sending and receiving messages

A message is a header and a ciphertext under the message key; what it carries
is the key of a file. `allowAccessToFile` sends one to every device of a user,
`updateMessages` takes the incoming ones in turn.

The receiving side asks the ratchet first: by the time a ciphertext turns out
not to authenticate, the ratchet has moved, in memory and in its row. It is
then never the ratchet it was, but under the current public key it has lost
nothing but the index of that message
(`SessionStore.updateMessages_unauthenticated`).
-/

variable {K : Type}

/-- `DeviceMessage`. -/
structure DeviceMessage (K : Type) where
  header : MessageHeader K
  ciphertext : List UInt8
  deriving DecidableEq

/-! ## Encryption -/

/-- **XChaCha20-Poly1305** as libsodium has it: of a nonce, a text and a key.
`none` is a non-zero return. -/
structure Aead (K : Type) where
  encrypt : List UInt8 → List UInt8 → K → List UInt8
  decrypt : List UInt8 → List UInt8 → K → Option (List UInt8)

/-- `crypto_aead_xchacha20poly1305_IETF_NPUBBYTES`. -/
def nonceBytes : ℕ := 24

/-- `crypto_aead_xchacha20poly1305_IETF_ABYTES`. -/
def tagBytes : ℕ := 16

/-- `encrypt_message_given_key`, given the nonce drawn. -/
def encryptMessageGivenKey (A : Aead K) (nonce message : List UInt8) (key : K) : List UInt8 :=
  nonce ++ A.encrypt nonce message key

/-- **`decrypt_message_given_key`.** -/
def decryptMessageGivenKey (A : Aead K) (encryptedData : List UInt8) (key : K) :
    Except Fault (List UInt8) :=
  if encryptedData.length < nonceBytes then
    .error (.runtimeError "encrypted message (incl nonce) is too short")
  else
    let ciphertext := encryptedData.drop nonceBytes
    if ciphertext.length < tagBytes then
      .error (.runtimeError "ciphertext message is too short")
    else
      orThrow "Failed to decrypt message: authentication failed or corrupted data"
        (A.decrypt (encryptedData.take nonceBytes) ciphertext key)

/-- `save_message_and_key`: one row a file. -/
def SessionStore.saveMessage (fileUuid : String) (m : StoredMessage K) (s : SessionStore K) :
    SessionStore K :=
  { s with messages := s.messages.insert fileUuid m }

/-! ## Sending -/

variable [LinearOrder K] (S : Sodium K) (A : Aead K)

/-- What fits of a file's id into the 64 bytes of `file_uuid`. -/
def copyFileUuid (uuid : String) : String :=
  String.ofList ((uuid.toList.takeWhile (· ≠ '\x00')).take 63)

omit [LinearOrder K] in
/-- The message to a device, encrypted under its key. -/
def deviceMessage (uuid : String) (nonce fKek : List UInt8) (key : K)
    (header : MessageHeader K) : DeviceMessage K where
  header := { header with fileUuid := copyFileUuid uuid }
  ciphertext := encryptMessageGivenKey A nonce fKek key

/-- **`allow_access_to_file`**: the keys used, and with each the message that
is posted for its device, encrypted under a nonce drawn for it. What was sent
is stored as well. -/
def allowAccessToFile [Zero K] (ks : KeyStore K) (username uuid : String) (fKek : List UInt8)
    (nonce : K → List UInt8) (newBundles : Option (List (SendingKeyBundle K)))
    (s : SessionStore K) : Outcome K (List (K × K × DeviceMessage K)) :=
  let keys := s.getKeysForIdentity S ks username newBundles
  match keys.result with
  | .error e => ⟨.error e, keys.posted, keys.store⟩
  | .ok keysToSend =>
    let messages := keysToSend.map fun (device, key, header) =>
      (device, key, deviceMessage A uuid (nonce device) fKek key header)
    ⟨.ok messages, keys.posted, messages.foldl
      (fun s (device, _, m) => s.saveMessage m.header.fileUuid ⟨username, device, fKek, true⟩)
      keys.store⟩

section Sending

variable [Zero K] {S} {A} {ks : KeyStore K} {username : String} {device myDevicePublic : K}
variable {newBundles : Option (List (SendingKeyBundle K))} {s st : SessionStore K}
variable {posted : List (SendingKeyBundle K)} {r r' : NewRatchet K}

/-- Without a session nothing is sent. -/
theorem allowAccessToFile_of_empty (hdev : ks.getPublicKey .device = .ok myDevicePublic)
    (hc : s.ensureRatchets S ks username newBundles = ⟨.ok (), posted, st⟩)
    (hst : st.ofUser username = ∅) (uuid : String) (fKek : List UInt8) (nonce : K → List UInt8) :
    ∃ st', allowAccessToFile S A ks username uuid fKek nonce newBundles s = ⟨.ok [], posted, st'⟩
      ∧ st'.ofUser username = ∅ := by
  refine ⟨st.touch username, ?_, by rw [SessionStore.ofUser_touch, hst]⟩
  simp only [allowAccessToFile, SessionStore.getKeysForIdentity, hc,
    SessionStore.advanceUser_of_empty hst hdev]
  rfl

/-- With one session, a ratchet that throws is all that is left. -/
theorem allowAccessToFile_of_error (hdev : ks.getPublicKey .device = .ok myDevicePublic)
    (hc : s.ensureRatchets S ks username newBundles = ⟨.ok (), posted, st⟩)
    (hst : st.ofUser username = Finmap.singleton device r) {e : Fault}
    (hr : r.advanceSend S = (.error e, r')) (uuid : String) (fKek : List UInt8)
    (nonce : K → List UInt8) :
    ∃ st', allowAccessToFile S A ks username uuid fKek nonce newBundles s = ⟨.error e, posted, st'⟩
      ∧ st'.ofUser username = Finmap.singleton device r' := by
  refine ⟨(st.touch username).hold username device r', ?_, ?_⟩
  · simp only [allowAccessToFile, SessionStore.getKeysForIdentity, hc,
      SessionStore.advanceUser_of_singleton hst hdev, hr]
  · rw [SessionStore.ofUser_hold, SessionStore.ofUser_touch, hst, Finmap.insert_singleton_eq]

/-- And one that returns is written, and the message sent under its key. -/
theorem allowAccessToFile_of_ok (hdev : ks.getPublicKey .device = .ok myDevicePublic)
    (hc : s.ensureRatchets S ks username newBundles = ⟨.ok (), posted, st⟩)
    (hst : st.ofUser username = Finmap.singleton device r) {key : K} {header : MessageHeader K}
    (hr : r.advanceSend S = (.ok (key, header), r')) (uuid : String) (fKek : List UInt8)
    (nonce : K → List UInt8) :
    ∃ st' m, allowAccessToFile S A ks username uuid fKek nonce newBundles s
        = ⟨.ok [(device, key, m)], posted, st'⟩
      ∧ st'.ofUser username = Finmap.singleton device r'
      ∧ m.header.messageIndex = header.messageIndex ∧ m.header.dhPublic = header.dhPublic := by
  refine ⟨(((st.touch username).hold username device r').save username device r').saveMessage
      (copyFileUuid uuid) ⟨username, device, fKek, true⟩,
    deviceMessage A uuid (nonce device) fKek key { header with deviceId := myDevicePublic },
    ?_, ?_, rfl, rfl⟩
  · simp only [allowAccessToFile, SessionStore.getKeysForIdentity, hc,
      SessionStore.advanceUser_of_singleton hst hdev, hr]
    rfl
  · show ((st.touch username).hold username device r').ofUser username = _
    rw [SessionStore.ofUser_hold, SessionStore.ofUser_touch, hst, Finmap.insert_singleton_eq]

end Sending

/-! ## Receiving -/

/-- A message as `get_messages` returns it, and the private key drawn should
its header make the ratchet draw one. -/
structure Incoming (K : Type) where
  username : String
  message : DeviceMessage K
  fresh : K

/-- What a poll of messages did: the keys `get_key_for_device` answered on
the way, how the call ended, and the store it left. -/
structure Polled (K : Type) where
  keys : List K
  result : Except Fault Unit
  store : SessionStore K

/-- One part of a poll, and the next if that one did not throw. -/
def Polled.andThen (p : Polled K) (next : SessionStore K → Polled K) : Polled K :=
  match p.result with
  | .error _ => p
  | .ok () => { next p.store with keys := p.keys ++ (next p.store).keys }

/-- One round of the loop of `update_messages`. -/
def updateMessage (m : Incoming K) (s : SessionStore K) : Polled K :=
  match s.getKeyForDevice S m.fresh m.username m.message.header with
  | (.error e, s) => ⟨[], .error e, s⟩
  | (.ok key, s) =>
    -- by now the ratchet is written, whatever the ciphertext turns out to be
    match decryptMessageGivenKey A m.message.ciphertext key with
    | .error e => ⟨[key], .error e, s⟩
    | .ok decrypted => ⟨[key], .ok (), s.saveMessage m.message.header.fileUuid
        ⟨m.username, m.message.header.deviceId, decrypted, false⟩⟩

/-- **`update_messages`**, given what `get_messages` returned. -/
def updateMessages : List (Incoming K) → SessionStore K → Polled K
  | [], s => ⟨[], .ok (), s⟩
  | m :: ms, s => (updateMessage S A m s).andThen (updateMessages ms)

section Receiving

variable {S} {A} {m : Incoming K} {s t : SessionStore K} {r r' : NewRatchet K}
variable {e : Fault} {key : K} {decrypted : List UInt8}

/-- A round ends with the ratchet, -/
theorem updateMessage_of_refused
    (hk : s.getKeyForDevice S m.fresh m.username m.message.header = (.error e, t)) :
    updateMessage S A m s = ⟨[], .error e, t⟩ := by
  unfold updateMessage
  rw [hk]

/-- with the cipher, -/
theorem updateMessage_of_undecrypted
    (hk : s.getKeyForDevice S m.fresh m.username m.message.header = (.ok key, t))
    (hd : decryptMessageGivenKey A m.message.ciphertext key = .error e) :
    updateMessage S A m s = ⟨[key], .error e, t⟩ := by
  unfold updateMessage
  rw [hk]
  simp only [hd]

/-- or with a row. -/
theorem updateMessage_of_decrypted
    (hk : s.getKeyForDevice S m.fresh m.username m.message.header = (.ok key, t))
    (hd : decryptMessageGivenKey A m.message.ciphertext key = .ok decrypted) :
    updateMessage S A m s = ⟨[key], .ok (), t.saveMessage m.message.header.fileUuid
      ⟨m.username, m.message.header.deviceId, decrypted, false⟩⟩ := by
  unfold updateMessage
  rw [hk]
  simp only [hd]

/-- **What a round can do**, with what the ratchet and the cipher said. -/
theorem updateMessage_cases (m : Incoming K) (s : SessionStore K) :
    (∃ e t, s.getKeyForDevice S m.fresh m.username m.message.header = (.error e, t)
        ∧ updateMessage S A m s = ⟨[], .error e, t⟩)
      ∨ ∃ key t, s.getKeyForDevice S m.fresh m.username m.message.header = (.ok key, t)
        ∧ ((∃ e, decryptMessageGivenKey A m.message.ciphertext key = .error e
            ∧ updateMessage S A m s = ⟨[key], .error e, t⟩)
          ∨ ∃ decrypted, decryptMessageGivenKey A m.message.ciphertext key = .ok decrypted
            ∧ updateMessage S A m s = ⟨[key], .ok (), t.saveMessage m.message.header.fileUuid
              ⟨m.username, m.message.header.deviceId, decrypted, false⟩⟩) := by
  rcases hk : s.getKeyForDevice S m.fresh m.username m.message.header with ⟨e | key, t⟩
  · exact Or.inl ⟨e, t, rfl, updateMessage_of_refused hk⟩
  · refine Or.inr ⟨key, t, rfl, ?_⟩
    cases hd : decryptMessageGivenKey A m.message.ciphertext key with
    | error e => exact Or.inl ⟨e, rfl, updateMessage_of_undecrypted hk hd⟩
    | ok decrypted => exact Or.inr ⟨decrypted, rfl, updateMessage_of_decrypted hk hd⟩

/-- Without a session the message throws and changes nothing. -/
theorem updateMessage_of_none (h : s.session m.username m.message.header.deviceId = none) :
    ∃ what, updateMessage S A m s = ⟨[], .error (.runtimeError what), s⟩ := by
  obtain ⟨what, hkey⟩ := SessionStore.getKeyForDevice_of_none (S := S) h m.fresh
  exact ⟨what, updateMessage_of_refused hkey⟩

/-- With one, whatever comes of the ciphertext, the ratchet is asked once. -/
theorem updateMessage_of_session (h : s.session m.username m.message.header.deviceId = some r)
    {result : Except Fault K} (hr : r.advanceReceive S m.fresh m.message.header = (result, r')) :
    (updateMessage S A m s).keys = result.toOption.toList
      ∧ (updateMessage S A m s).store.ofUser m.username
        = (s.ofUser m.username).insert m.message.header.deviceId r' := by
  have hkey := SessionStore.getKeyForDevice_eq (S := S) h m.fresh
  rw [hr] at hkey
  cases result with
  | error e =>
    rw [updateMessage_of_refused hkey]
    exact ⟨rfl, SessionStore.ofUser_hold ..⟩
  | ok key =>
    cases hd : decryptMessageGivenKey A m.message.ciphertext key with
    | error e =>
      rw [updateMessage_of_undecrypted hkey hd]
      exact ⟨rfl, SessionStore.ofUser_hold ..⟩
    | ok decrypted =>
      rw [updateMessage_of_decrypted hkey hd]
      exact ⟨rfl, SessionStore.ofUser_hold ..⟩

/-- A message that did not throw was answered, and one is answered once. -/
theorem updateMessage_keys (m : Incoming K) (s : SessionStore K) :
    (∃ key, (updateMessage S A m s).keys = [key])
      ∨ (updateMessage S A m s).keys = [] ∧ ∃ e, (updateMessage S A m s).result = .error e := by
  obtain ⟨e, t, -, hm⟩ | ⟨key, t, -, ⟨e, -, hm⟩ | ⟨decrypted, -, hm⟩⟩ :=
    updateMessage_cases (S := S) (A := A) m s
  · exact Or.inr ⟨by rw [hm], e, by rw [hm]⟩
  · exact Or.inl ⟨key, by rw [hm]⟩
  · exact Or.inl ⟨key, by rw [hm]⟩

end Receiving

omit [LinearOrder K] in
theorem Polled.andThen_ok {p : Polled K} (h : p.result = .ok ())
    (next : SessionStore K → Polled K) :
    p.andThen next = { next p.store with keys := p.keys ++ (next p.store).keys } := by
  unfold Polled.andThen
  rw [h]

omit [LinearOrder K] in
theorem Polled.andThen_assoc (p : Polled K) (f g : SessionStore K → Polled K) :
    (p.andThen f).andThen g = p.andThen fun s => (f s).andThen g := by
  unfold Polled.andThen
  cases hp : p.result with
  | error e => simp only [hp]
  | ok _ => cases hf : (f p.store).result <;> simp only [hf, List.append_assoc]

/-- A batch goes on where its first part left off. -/
theorem updateMessages_append (pre ms : List (Incoming K)) (s : SessionStore K) :
    updateMessages S A (pre ++ ms) s
      = (updateMessages S A pre s).andThen (updateMessages S A ms) := by
  induction pre generalizing s with
  | nil => rfl
  | cons m pre ih =>
    show (updateMessage S A m s).andThen (updateMessages S A (pre ++ ms)) = _
    rw [funext ih, ← Polled.andThen_assoc]
    rfl

/-! ## A message that does not authenticate -/

namespace SessionStore

variable {S} {A} {s₀ : SessionStore K} {m : Incoming K} {pre : List (Incoming K)}
variable {r r' : NewRatchet K} {key : K} {e : Fault}

omit [LinearOrder K] in
/-- What does not decrypt is thrown. -/
theorem decryptMessageGivenKey_error {data : List UInt8}
    (hd : decryptMessageGivenKey A data key = .error e) : ∃ what, e = .runtimeError what := by
  unfold decryptMessageGivenKey at hd
  split at hd
  · exact ⟨_, (Except.error.inj hd).symm⟩
  · simp only at hd
    split at hd
    · exact ⟨_, (Except.error.inj hd).symm⟩
    · cases hdec : A.decrypt (data.take nonceBytes) (data.drop nonceBytes) key with
      | none =>
        rw [hdec] at hd
        exact ⟨_, (Except.error.inj hd).symm⟩
      | some message =>
        rw [hdec] at hd
        cases hd

/-- **What a message leaves whose ciphertext did not authenticate**, of a
store `s` with the ratchet `r` in its session: the ratchet `r'` in the
session and in its row, and everything else as it was. Under the current
public key that ratchet answers as before whatever is not this header. -/
structure Unauthenticated (S : Sodium K) (s s' : SessionStore K) (username : String)
    (h : MessageHeader K) (r r' : NewRatchet K) : Prop where
  session : s'.session username h.deviceId = some r'
  row : s'.rows.lookup h.deviceId = some (username, r')
  ne : r' ≠ r
  messages : s'.messages = s.messages
  otherSessions : ∀ u d, (u, d) ≠ (username, h.deviceId) → s'.session u d = s.session u d
  otherRows : ∀ d ≠ h.deviceId, s'.rows.lookup d = s.rows.lookup d
  keeps : r.remoteDhPublic = h.dhPublic → ∀ fresh' h' k',
    (h'.dhPublic = h.dhPublic → h'.messageIndex ≠ h.messageIndex) →
    (h'.dhPublic ≠ h.dhPublic → 0 ≤ h'.messageIndex) →
    (r.advanceReceive S fresh' h').1 = .ok k' → (r'.advanceReceive S fresh' h').1 = .ok k'

/-- **An undecryptable message moves its session and nothing else.** Wherever
in a batch it stands: `update_messages` throws there, the ratchet in memory
and the one in the row are what `advance_receive` left – never the ratchet
before –, the other sessions, rows and messages are untouched, and if the
header carries the current public key only its own index is spent. -/
theorem updateMessages_unauthenticated (ms : List (Incoming K))
    (hpre : (updateMessages S A pre s₀).result = .ok ())
    (hs : (updateMessages S A pre s₀).store.session m.username m.message.header.deviceId = some r)
    (hr : r.advanceReceive S m.fresh m.message.header = (.ok key, r'))
    (hd : decryptMessageGivenKey A m.message.ciphertext key = .error e) :
    (updateMessages S A (pre ++ m :: ms) s₀).result = .error e
      ∧ (∃ what, e = .runtimeError what)
      ∧ Unauthenticated S (updateMessages S A pre s₀).store
          (updateMessages S A (pre ++ m :: ms) s₀).store m.username m.message.header r r' := by
  set s := (updateMessages S A pre s₀).store
  have hround : updateMessage S A m s = ⟨[key], .error e,
      (s.hold m.username m.message.header.deviceId r').save m.username
        m.message.header.deviceId r'⟩ := by
    have hk := getKeyForDevice_eq (S := S) hs m.fresh
    rw [hr] at hk
    exact updateMessage_of_undecrypted hk hd
  have hbatch : updateMessages S A (m :: ms) s = updateMessage S A m s := by
    rw [updateMessages, hround]
    rfl
  rw [updateMessages_append, Polled.andThen_ok hpre, hbatch, hround]
  refine ⟨rfl, decryptMessageGivenKey_error hd, ?_⟩
  exact
    { session := by simp
      row := by simp
      ne := NewRatchet.advanceReceive_ne hr
      messages := rfl
      otherSessions := fun u d hud => by rw [session_save, session_hold_of_ne _ _ _ _ _ _ hud]
      otherRows := fun d hd => by rw [row_save_of_ne _ _ _ _ _ hd, rows_hold]
      keeps := fun hdh _ _ _ hsame hnew hr' =>
        NewRatchet.advanceReceive_keeps hdh hr hsame hnew hr' }

/-- A cipher over the natural numbers whose tag is the key's last byte,
sixteen times. -/
def tagged : Aead ℕ where
  encrypt _ message key := message ++ List.replicate tagBytes (UInt8.ofNat key)
  decrypt _ ciphertext key :=
    if ciphertext.drop (ciphertext.length - tagBytes) = List.replicate tagBytes (UInt8.ofNat key)
    then some (ciphertext.take (ciphertext.length - tagBytes)) else none

/-- A store of the ideal library with one session, and what is forged for
it: the header of the next message, under 40 zero bytes. -/
def ideal : SessionStore ℕ :=
  ((⟨∅, ∅, ∅⟩ : SessionStore ℕ).hold "alice" 5 (.ideal .recipient)).save "alice" 5
    (.ideal .recipient)

def forged : Incoming ℕ where
  username := "alice"
  message :=
    { header :=
        { (MessageHeader.empty : MessageHeader ℕ) with
          dhPublic := Sodium.ideal.boxPublic 8
          deviceId := 5 }
      ciphertext := List.replicate 40 0 }
  fresh := 0

/-- The forged message moves the session it names. -/
theorem updateMessages_forged :
    ∃ r', (updateMessages Sodium.ideal tagged [forged] ideal).result ≠ .ok ()
      ∧ Unauthenticated Sodium.ideal ideal (updateMessages Sodium.ideal tagged [forged] ideal).store
          "alice" forged.message.header (.ideal .recipient) r' := by
  obtain ⟨key, hkey⟩ := exists_of_isOk (by decide +kernel :
    ((NewRatchet.ideal .recipient).advanceReceive Sodium.ideal 0 forged.message.header).1.isOk)
  have hfail : (((NewRatchet.ideal .recipient).advanceReceive Sodium.ideal 0
      forged.message.header).1.bind
        (decryptMessageGivenKey tagged forged.message.ciphertext)).isOk = false := by
    decide +kernel
  rw [hkey] at hfail
  cases hd : decryptMessageGivenKey tagged forged.message.ciphertext key with
  | ok message =>
    rw [Except.bind, hd] at hfail
    cases hfail
  | error e =>
    have hpre : (updateMessages Sodium.ideal tagged [] ideal).result = .ok () := rfl
    have hs : (updateMessages Sodium.ideal tagged [] ideal).store.session forged.username
        forged.message.header.deviceId = some (.ideal .recipient) := session_hold ..
    have h := updateMessages_unauthenticated [] hpre hs (Prod.ext hkey rfl) hd
    obtain ⟨hresult, -, hleft⟩ := h
    refine ⟨_, ?_, hleft⟩
    rw [← List.nil_append [forged], hresult]
    exact nofun

/-- The session and its row are not what they were, and the genuine message
with that header is lost. -/
theorem updateMessages_forged_ne :
    (updateMessages Sodium.ideal tagged [forged] ideal).result
        = .error (.runtimeError
            "Failed to decrypt message: authentication failed or corrupted data")
      ∧ (updateMessages Sodium.ideal tagged [forged] ideal).store.session "alice" 5
        ≠ ideal.session "alice" 5
      ∧ (updateMessages Sodium.ideal tagged [forged] ideal).store.rows.lookup 5
        ≠ ideal.rows.lookup 5
      ∧ (ideal.getKeyForDevice Sodium.ideal 0 "alice" forged.message.header).1.isOk
      ∧ ((updateMessages Sodium.ideal tagged [forged] ideal).store.getKeyForDevice Sodium.ideal 0
          "alice" forged.message.header).1 = .error (.runtimeError "Key not found in backlog") := by
  decide +kernel

end SessionStore
