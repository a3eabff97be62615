import Eastwood.Batch
import Eastwood.Endpoints
import Eastwood.FileBinding
import Mathlib.Data.List.TakeWhile

/-!
# Messages on the wire

`post_ratchet_message` writes every message as an object of its own, keys and
ciphertext in hexadecimal, and `get_messages` reads such objects back. The
two were written apart: they name their fields themselves, and the reader has
checks the writer knows nothing of – it skips an entry whose keys are not 64
digits, and `hex2bin` refuses a text that is empty.

None of it is met by what is posted. Whatever the header and whatever the
ciphertext, as long as there is one, the entries that come back are the
messages that went out, in their order, each from the sender's device
(`getMessages_postRatchetMessage`). A `RelayedMessage` is hence what an entry
says (`messageOfEntry_entry`).
-/

/-! ## Hexadecimal text of any length -/

/-- The bytes `sodium_hex2bin` reads: every two characters have to be digits,
and none may be left over. -/
def hexPairs : List Char → Option (List UInt8)
  | [] => some []
  | [_] => none
  | a :: b :: s =>
    match hexDigitValue a, hexDigitValue b, hexPairs s with
    | some high, some low, some bytes => some (UInt8.ofNat (16 * high + low) :: bytes)
    | _, _, _ => none

/-- **`hex2bin`.** -/
def hex2bin (hex : String) : Except Fault (List UInt8) :=
  if hex = "" then
    .error (.runtimeError "Cannot convert empty string from hex to binary")
  else orThrow "Failed to convert hex to binary" (hexPairs hex.toList)

/-- The digits of a byte are read as the byte. -/
theorem hexDigitValue_digits : ∀ n < 256,
    hexDigitValue (Nat.digitChar (n / 16)) = some (n / 16)
      ∧ hexDigitValue (Nat.digitChar (n % 16)) = some (n % 16) := by
  decide +kernel

theorem hexPairs_digits (bin : List UInt8) :
    hexPairs (bin.flatMap fun b => [Nat.digitChar (b.toNat / 16), Nat.digitChar (b.toNat % 16)])
      = some bin := by
  induction bin with
  | nil => rfl
  | cons b bin ih =>
    obtain ⟨hhigh, hlow⟩ := hexDigitValue_digits b.toNat b.toNat_lt
    rw [List.flatMap_cons, List.cons_append, List.cons_append, List.nil_append, hexPairs, hhigh,
      hlow, ih]
    have hbyte : UInt8.ofNat (16 * (b.toNat / 16) + b.toNat % 16) = b := by
      rw [Nat.div_add_mod]
      exact UInt8.ofNat_toNat
    simp only [hbyte]

/-- No two arrays have one text. -/
theorem bin2hex_injective : Function.Injective bin2hex := by
  intro bin bin' h
  have hdigits := congrArg (fun hex : String => hexPairs hex.toList) h
  simp only [bin2hex, String.toList_ofList, hexPairs_digits] at hdigits
  exact Option.some.inj hdigits

theorem bin2hex_ne_empty {bin : List UInt8} (h : bin ≠ []) : bin2hex bin ≠ "" := by
  intro hempty
  have hlen := length_bin2hex bin
  rw [hempty] at hlen
  exact h (List.eq_nil_of_length_eq_zero (by simpa using hlen.symm))

/-- **`hex2bin` undoes `bin2hex`**, but for nothing at all. -/
theorem hex2bin_bin2hex {bin : List UInt8} (h : bin ≠ []) : hex2bin (bin2hex bin) = .ok bin := by
  rw [hex2bin, if_neg (bin2hex_ne_empty h), bin2hex, String.toList_ofList, hexPairs_digits]
  rfl

/-- The text of a key has 64 digits. -/
theorem Key.length_hex (k : Key) : k.hex.length = 64 := by
  rw [Key.hex, length_bin2hex, k.2]

theorem Key.hex2bin_hex (k : Key) : hex2bin k.hex = .ok k.1 := by
  refine hex2bin_bin2hex fun h => ?_
  have hlen := k.2
  rw [h] at hlen
  cases hlen

/-- `memcpy` of 32 bytes out of a vector. It is only made of one that has
them. -/
def Key.copy (bytes : List UInt8) : Key :=
  if h : bytes.length = 32 then ⟨bytes, h⟩ else 0

theorem Key.copy_val (k : Key) : Key.copy k.1 = k := dif_pos k.2

/-! ## Reading -/

/-- `get<int>`: a number is cast. -/
def Json.getInt : Json → Except Fault ℤ
  | .num value => .ok (value.bmod (2 ^ 32))
  | .bool value => .ok (if value then 1 else 0)
  | _ => .error .typeError

/-- The values of an `int`. -/
def IsInt (value : ℤ) : Prop := -2 ^ 31 ≤ value ∧ value < 2 ^ 31

instance (value : ℤ) : Decidable (IsInt value) := inferInstanceAs (Decidable (_ ∧ _))

theorem Json.getInt_num {value : ℤ} (h : IsInt value) : (Json.num value).getInt = .ok value :=
  congrArg Except.ok (Int.bmod_eq_of_le h.1 h.2)

/-- `file_id` of an entry: read if it is there and not null. -/
def fileIdOfEntry (message : Json) : Except Fault String :=
  if message.contains "file_id" then do
    let field ← message.member "file_id"
    if field.isNull then return ""
    field.getString
  else .ok ""

/-- What is made of an entry's texts; none where the loop goes on to the next
entry. -/
def decodeMessage (username devKeyStr dhPubStr ciphertextStr : String)
    (prevChainLength messageIndex : ℤ) (fileId : String) :
    Except Fault (Option (String × DeviceMessage Key)) :=
  if devKeyStr.length ≠ 64 ∨ dhPubStr.length ≠ 64 then .ok none
  else do
    let ciphertext ← hex2bin ciphertextStr
    let initatorDevKey ← hex2bin devKeyStr
    let newDhPublic ← hex2bin dhPubStr
    return some (username,
      { header :=
          { dhPublic := .copy newDhPublic
            prevChainLength
            messageIndex
            deviceId := .copy initatorDevKey
            fileUuid := copyFileUuid fileId }
        ciphertext })

/-- One round of the loop of `get_messages`. -/
def messageOfEntry (message : Json) : Except Fault (Option (String × DeviceMessage Key)) := do
  let username ← (← message.member "username").getString
  let devKeyStr ← (← message.member "initiator_device_public_key").getString
  let dhPubStr ← (← message.member "dh_public").getString
  let ciphertextStr ← (← message.member "ciphertext").getString
  let prevChainLength ← (← message.member "prev_chain_length").getInt
  let messageIndex ← (← message.member "message_index").getInt
  let fileId ← fileIdOfEntry message
  decodeMessage username devKeyStr dhPubStr ciphertextStr prevChainLength messageIndex fileId

/-- **`get_messages`**, given the reply of `/incomingMessages`, none if the
request threw. -/
def getMessages : Option Json → Except Fault (List (String × DeviceMessage Key))
  | none => .ok []
  | some response =>
    match response.find? "data" with
    | some (.arr entries) => Batch.decodeAll messageOfEntry entries
    | _ => .ok []

/-! ## Writing -/

/-- A message as an entry. -/
def RelayedMessage.entry (m : RelayedMessage Key) : Json := .obj
  [("file_id", match m.fileId with | some fileId => .str fileId | none => .null),
    ("username", .str m.username),
    ("initiator_device_public_key", .str m.initiatorDevicePublicKey.hex),
    ("recipient_device_public_key", .str m.recipientDevicePublicKey.hex),
    ("dh_public", .str m.dhPublic.hex),
    ("prev_chain_length", .num m.prevChainLength),
    ("message_index", .num m.messageIndex),
    ("ciphertext", .str (bin2hex m.ciphertext)),
    ("ciphertext_length", .num m.ciphertext.length)]

/-- The loop of `post_ratchet_message`: the key of the device is loaded for
every message. -/
def messageEntries (ks : KeyStore Key) (username : String) :
    List (Key × DeviceMessage Key) → Except Fault (List Json)
  | [] => .ok []
  | (recipientDevPub, m) :: messages => do
    let devPub ← ks.getPublicKey .device
    let entries ← messageEntries ks username messages
    return (postRatchetMessage username devPub recipientDevPub m).entry :: entries

/-- **`post_ratchet_message`**: the body it posts, `username` being that of
the session token. -/
def ratchetMessagesBody (ks : KeyStore Key) (username : String)
    (messages : List (Key × DeviceMessage Key)) : Except Fault Json := do
  let entries ← messageEntries ks username messages
  return .obj [("messages", .arr entries)]

/-! ## The round trip -/

/-- **A message that can be posted**: its counters are of type `int`, its id
fits into 64 bytes with the null byte that ends it, and there is a
ciphertext. -/
structure DeviceMessage.Postable (m : DeviceMessage Key) : Prop where
  prevChainLength : IsInt m.header.prevChainLength
  messageIndex : IsInt m.header.messageIndex
  uuid : '\x00' ∉ m.header.fileUuid.toList ∧ m.header.fileUuid.length ≤ 63
  ciphertext : m.ciphertext ≠ []

/-- An id that fits is copied whole. -/
theorem copyFileUuid_eq {uuid : String} (hnull : '\x00' ∉ uuid.toList) (hlen : uuid.length ≤ 63) :
    copyFileUuid uuid = uuid := by
  have hall : uuid.toList.takeWhile (· ≠ '\x00') = uuid.toList :=
    List.takeWhile_eq_self_iff.mpr fun c hc =>
      decide_eq_true fun h : c = '\x00' => hnull (h ▸ hc)
  rw [copyFileUuid, hall, List.take_of_length_le (by rwa [String.length_toList]),
    String.ofList_toList]

/-- **An entry says what was relayed**: `get_messages` makes of it the message
the rest of the development starts from. -/
theorem messageOfEntry_entry (m : RelayedMessage Key) (hprev : IsInt m.prevChainLength)
    (hindex : IsInt m.messageIndex) (hcipher : m.ciphertext ≠ []) (fresh : Key) :
    messageOfEntry m.entry = .ok (some (m.username, (m.incoming fresh).message)) := by
  have hfile : fileIdOfEntry m.entry = .ok (m.fileId.getD "") := by
    obtain ⟨fileId, _, _, _, _, _, _, _⟩ := m
    cases fileId <;> rfl
  have hdecode : decodeMessage m.username m.initiatorDevicePublicKey.hex m.dhPublic.hex
      (bin2hex m.ciphertext) m.prevChainLength m.messageIndex (m.fileId.getD "")
      = .ok (some (m.username, (m.incoming fresh).message)) := by
    have hlengths : ¬ (m.initiatorDevicePublicKey.hex.length ≠ 64 ∨ m.dhPublic.hex.length ≠ 64) :=
      fun h => h.elim (fun h => h (Key.length_hex _)) fun h => h (Key.length_hex _)
    rw [decodeMessage, if_neg hlengths, hex2bin_bin2hex hcipher, Key.hex2bin_hex,
      Key.hex2bin_hex]
    simp only [ok_bind, Key.copy_val]
    rfl
  have hfields : messageOfEntry m.entry = (do
      let prevChainLength ← (Json.num m.prevChainLength).getInt
      let messageIndex ← (Json.num m.messageIndex).getInt
      let fileId ← fileIdOfEntry m.entry
      decodeMessage m.username m.initiatorDevicePublicKey.hex m.dhPublic.hex
        (bin2hex m.ciphertext) prevChainLength messageIndex fileId) := rfl
  rw [hfields, Json.getInt_num hprev, Json.getInt_num hindex, hfile]
  exact hdecode

/-- What is posted of a message is read as the message, from the device that
posted it. -/
theorem messageOfEntry_postRatchetMessage {m : DeviceMessage Key} (h : m.Postable)
    (username : String) (devPub recipientDevPub : Key) :
    messageOfEntry (postRatchetMessage username devPub recipientDevPub m).entry
      = .ok (some (username, { m with header := { m.header with deviceId := devPub } })) := by
  rw [messageOfEntry_entry _ h.prevChainLength h.messageIndex h.ciphertext 0]
  show Except.ok (some (username, DeviceMessage.mk (MessageHeader.mk _ _ _ _
    (copyFileUuid m.header.fileUuid)) _)) = _
  rw [copyFileUuid_eq h.uuid.1 h.uuid.2]
  rfl

/-- The entries that are posted are read in their order. -/
theorem decodeAll_messageEntries {ks : KeyStore Key} {kp : Key × Key}
    (hdev : ks.keypairs .device = some kp) (username : String)
    {messages : List (Key × DeviceMessage Key)} (h : ∀ m ∈ messages, m.2.Postable) :
    ∃ entries, messageEntries ks username messages = .ok entries
      ∧ Batch.decodeAll messageOfEntry entries = .ok (messages.map fun m =>
          (username, { m.2 with header := { m.2.header with deviceId := kp.1 } })) := by
  induction messages with
  | nil => exact ⟨[], rfl, rfl⟩
  | cons m messages ih =>
    obtain ⟨entries, hentries, hread⟩ := ih fun m' hm' => h m' (List.mem_cons_of_mem _ hm')
    refine ⟨(postRatchetMessage username kp.1 m.1 m.2).entry :: entries, ?_, ?_⟩
    · show (ks.getPublicKey .device >>= _) = _
      rw [KeyStore.getPublicKey_eq hdev, ok_bind, hentries]
      rfl
    · rw [Batch.decodeAll_cons_ok
        (messageOfEntry_postRatchetMessage (h m List.mem_cons_self) username kp.1 m.1), hread]
      rfl

/-- Every message is posted. -/
theorem mem_messageEntries {ks : KeyStore Key} {kp : Key × Key}
    (hdev : ks.keypairs .device = some kp) {username : String}
    {messages : List (Key × DeviceMessage Key)} {entries : List Json}
    (h : messageEntries ks username messages = .ok entries) {m : Key × DeviceMessage Key}
    (hm : m ∈ messages) : (postRatchetMessage username kp.1 m.1 m.2).entry ∈ entries := by
  induction messages generalizing entries with
  | nil => cases hm
  | cons m' messages ih =>
    obtain ⟨devPub, hpub, h⟩ := exists_of_bind_eq_ok h
    obtain ⟨rest, hrest, h⟩ := exists_of_bind_eq_ok h
    obtain rfl := Except.ok.inj ((KeyStore.getPublicKey_eq hdev).symm.trans hpub)
    obtain rfl := Except.ok.inj h
    obtain rfl | hm := List.mem_cons.mp hm
    · exact List.mem_cons_self
    · exact List.mem_cons_of_mem _ (ih hrest hm)

/-- **The wire format of messages.** Whatever messages are posted, if the
server returns the posted entries, `get_messages` decodes them all: in their
order, with every field of the header, the id and the ciphertext as they
were, from the sender's username and device. -/
theorem getMessages_postRatchetMessage {ks : KeyStore Key} {kp : Key × Key}
    (hdev : ks.keypairs .device = some kp) (username : String)
    {messages : List (Key × DeviceMessage Key)} (h : ∀ m ∈ messages, m.2.Postable) :
    ∃ posted, ratchetMessagesBody ks username messages = .ok posted
      ∧ ∀ reply : Json, reply.find? "data" = posted.find? "messages" →
        getMessages (some reply) = .ok (messages.map fun m =>
          (username, { m.2 with header := { m.2.header with deviceId := kp.1 } })) := by
  obtain ⟨entries, hentries, hread⟩ := decodeAll_messageEntries hdev username h
  refine ⟨.obj [("messages", .arr entries)], ?_, fun reply hreply => ?_⟩
  · rw [ratchetMessagesBody, hentries]
    rfl
  · have hdata : reply.find? "data" = some (.arr entries) := hreply
    rw [getMessages, hdata]
    exact hread

/-- Messages for two devices, of two files: they are read in their order. -/
theorem getMessages_postRatchetMessage_two :
    ∃ posted, ratchetMessagesBody ⟨fun _ => some (.repeated 5, .repeated 5), []⟩ "alice"
        [(.repeated 3, ⟨⟨.repeated 1, -1, 7, .repeated 5, "a"⟩, [255]⟩),
          (.repeated 4, ⟨⟨.repeated 2, 2, 0, .repeated 5, "b"⟩, [0, 16]⟩)] = .ok posted
      ∧ ∀ reply : Json, reply.find? "data" = posted.find? "messages" →
        getMessages (some reply)
          = .ok [("alice", ⟨⟨.repeated 1, -1, 7, .repeated 5, "a"⟩, [255]⟩),
            ("alice", ⟨⟨.repeated 2, 2, 0, .repeated 5, "b"⟩, [0, 16]⟩)] :=
  have hdev : (⟨fun _ => some (.repeated 5, .repeated 5), []⟩ : KeyStore Key).keypairs .device
      = some (.repeated 5, .repeated 5) := rfl
  getMessages_postRatchetMessage hdev "alice" fun m hm => by
    obtain rfl | hm := List.mem_cons.mp hm
    · exact ⟨by decide, by decide, by decide, by decide⟩
    · obtain rfl := List.mem_singleton.mp hm
      exact ⟨by decide, by decide, by decide, by decide⟩
