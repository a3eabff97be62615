import Eastwood.Hex
import Eastwood.Json
import Eastwood.KeyBundle

/-!
# The handshake endpoints

What the client sends to and reads from the server when it starts a session:
`get_keybundles` turns a reply of `/keybundle` into sending bundles,
`post_handshake_device` writes the handshake of one of them, and
`get_handshake_backlog` turns a reply of `/incomingHandshakes` into receiving
bundles. A request that fails with an exception is a reply `none`.

Both decoders choose between the one-time key they read and an array of
zeros, and both store what they chose in the optional field: the field is
never empty.
-/

variable (S : Sodium Key) (ks : KeyStore Key)

/-! ## `/keybundle` -/

/-- `one_time_key` of an entry: read if it is there, not null, and valid. -/
def onetimeOfEntry (entry : Json) : Except Fault (Option Key) :=
  if entry.contains "one_time_key" then do
    let field ← entry.member "one_time_key"
    if field.isNull then return none
    let theirOnetimePublicHex ← field.getString
    return hexToKey theirOnetimePublicHex
  else .ok none

/-- One entry of `key_bundles`, with the hexadecimal identity key it names;
`ephemeral` is the private key drawn for it. -/
def bundleOfEntry (pkDevice ephemeral : Key) (entry : Json) :
    Except Fault (String × SendingKeyBundle Key) := do
  let theirDevicePublicHex ← (← entry.member "device_public_key").getString
  let theirIdentityPublicHex ← (← entry.member "identity_public_key").getString
  let theirSignedPublicHex ← (← entry.member "signedpre_key").getString
  let theirSignedSignatureHex ← (← entry.member "signedpk_signature").getString
  let onetime ← onetimeOfEntry entry
  match hexToKey theirDevicePublicHex, hexToKey theirIdentityPublicHex,
      hexToKey theirSignedPublicHex, hexToBin theirSignedSignatureHex 64 with
  | some theirDevicePublic, some _, some theirSignedPublic, some theirSignedSignature =>
    return (theirIdentityPublicHex, .offered S pkDevice ephemeral theirDevicePublic
      theirSignedPublic onetime theirSignedSignature)
  | _, _, _, _ => .error (.runtimeError "Failed to decode key bundle data")

/-- The loop over the entries, each with the private key drawn for it: the
bundles, and the identity key of the last entry. -/
def bundlesOfEntries (pkDevice : Key) : List (Json × Key) → String →
    Except Fault (String × List (SendingKeyBundle Key))
  | [], identityHex => .ok (identityHex, [])
  | (entry, ephemeral) :: entries, _ => do
    let (identityHex, bundle) ← bundleOfEntry S pkDevice ephemeral entry
    let (identityHex, bundles) ← bundlesOfEntries pkDevice entries identityHex
    return (identityHex, bundle :: bundles)

/-- **`get_keybundles`**, given the reply and the private keys drawn. -/
def getKeybundles (draw : ℕ → Key) : Option Json →
    Except Fault (List (SendingKeyBundle Key))
  | none => .ok []
  | some response => do
    let data ← response.slot "data"
    let myIdentityPublicHex ← (← data.slot "identity_public_key").getString
    let _ ← orThrow "Failed to decode my identity public key" (hexToKey myIdentityPublicHex)
    let (pkDevice, _) ← ks.getDecryptedKeypair .device
    let _ ← ks.getDecryptedKeypair .signed
    let entries ← data.slot "key_bundles"
    let (theirIdentityPublicHex, bundles) ←
      bundlesOfEntries S pkDevice (entries.elements.zipIdx.map fun e => (e.1, draw e.2)) ""
    let _ ← orThrow "Failed to decode their identity public key"
      (hexToKey theirIdentityPublicHex)
    return bundles

/-! ## `/handshake` -/

/-- **`post_handshake_device`**: the body it posts. -/
def postHandshakeDevice (username : String) (recipientDeviceKeyPublic
    recipientSignedPrekeyPublic : Key) (recipientSignedPrekeySignature : List UInt8)
    (recipientOnetimePrekeyPublic : Option Key) (myEphemeralKeyPublic : Key) :
    Except Fault Json := do
  let myDeviceKeyPublic ← ks.getPublicKey .device
  return .obj ([
      ("username", .str username),
      ("recipient_device_key", .str recipientDeviceKeyPublic.hex),
      ("recipient_signed_public_prekey", .str recipientSignedPrekeyPublic.hex),
      ("recipient_signed_public_prekey_signature", .str (bin2hex recipientSignedPrekeySignature)),
      ("initiator_ephemeral_public_key", .str myEphemeralKeyPublic.hex),
      ("initiator_device_public_key", .str myDeviceKeyPublic.hex)]
    ++ match recipientOnetimePrekeyPublic with
      | some onetime => [("recipient_onetime_public_prekey", .str onetime.hex)]
      | none => [])

/-- What `create_ratchets_if_needed` posts for a sending bundle. -/
def SendingKeyBundle.handshake (username : String) (b : SendingKeyBundle Key) :
    Except Fault Json :=
  postHandshakeDevice ks username b.theirDevicePublic b.theirSignedPublic
    b.theirSignedSignature b.theirOnetimePublic b.myEphemeralPublic

/-! ## `/incomingHandshakes` -/

/-- `recipient_onetime_public_prekey` of a handshake, read if it is there. -/
def onetimeOfHandshake (handshake : Json) : Except Fault (Option Key) :=
  if handshake.contains "recipient_onetime_public_prekey" then do
    let onetimePubStr ← (← handshake.member "recipient_onetime_public_prekey").getString
    let recipOnetimePub ← orThrow "Failed to decode one-time prekey data"
      (hexToKey onetimePubStr)
    return some recipOnetimePub
  else .ok none

/-- One handshake: who it is from, and the bundle. -/
def bundleOfHandshake (handshake : Json) :
    Except Fault (String × ReceivingKeyBundle Key) := do
  let devKeyStr ← (← handshake.member "initiator_device_public_key").getString
  let ephPubStr ← (← handshake.member "initiator_ephemeral_public_key").getString
  let username ← (← handshake.member "username").getString
  let initatorDevKey ← orThrow "Failed to decode handshake backlog data" (hexToKey devKeyStr)
  let initiatorEphPub ← orThrow "Failed to decode handshake backlog data" (hexToKey ephPubStr)
  let onetime ← onetimeOfHandshake handshake
  let myDevicePublic ← ks.getPublicKey .device
  return (username,
    { theirDevicePublic := initatorDevKey
      theirEphemeralPublic := initiatorEphPub
      myDevicePublic
      myOnetimePublic := some (onetime.getD 0) })

/-- **`get_handshake_backlog`**, given the reply. -/
def getHandshakeBacklog : Option Json → Except Fault (List (String × ReceivingKeyBundle Key))
  | none => .ok []
  | some response =>
    match response.find? "data" with
    | some (.arr handshakes) => handshakes.mapM (bundleOfHandshake ks)
    | _ => .ok []
