import Eastwood.Endpoints

/-!
# The handshake round trip

A device the server knows is `Published` together with the private halves of
the keys it uploaded, its one-time prekey on offer being present, null or
absent in its entry. The round trip of a handshake runs from that entry over
the sending bundle, the handshake it posts and what the server relays of it
to the receiving bundle, and succeeds if both ends arrive at one secret
(`RoundTrips`).

The decoders fill an empty one-time field with zeros on either side. An
entry without a one-time key thus makes a bundle that asks X25519 for a
product with the zero point and is refused, so that the round trip succeeds
exactly with one (`roundTrips_iff`).
-/

variable (S : Sodium Key)

/-! ## What the server knows -/

/-- The `one_time_key` of an entry, by the private half of the key. -/
inductive OnetimeField where
  | absent
  | null
  | present (onetime : Key)

/-- **A device as the server knows it**, holding the private halves of what
it uploaded. -/
structure Published where
  ks : KeyStore Key
  device : Key
  signed : Key
  onetime : OnetimeField
  device_stored : ks.keypairs .device = some (S.signPublic device, device)
  signed_stored : ks.keypairs .signed = some (S.boxPublic signed, signed)
  onetime_stored : ∀ o, onetime = .present o →
    ks.getOnetimePrivateKey (S.boxPublic o) = some o

/-- **An entry of `key_bundles`** for a device: each key is text that decodes
to it, and the signature is the device's own. -/
structure ValidEntry (p : Published S) (entry : Json) : Prop where
  device : ∃ s, entry.find? "device_public_key" = some (.str s)
    ∧ hexToKey s = some (S.signPublic p.device)
  identity : ∃ s k, entry.find? "identity_public_key" = some (.str s) ∧ hexToKey s = some k
  signed : ∃ s, entry.find? "signedpre_key" = some (.str s)
    ∧ hexToKey s = some (S.boxPublic p.signed)
  signature : ∃ s, entry.find? "signedpk_signature" = some (.str s)
    ∧ hexToBin s 64 = some (S.signDetached p.device (S.boxPublic p.signed))
  onetime : match p.onetime with
    | .absent => entry.find? "one_time_key" = none
    | .null => entry.find? "one_time_key" = some .null
    | .present o => ∃ s, entry.find? "one_time_key" = some (.str s)
        ∧ hexToKey s = some (S.boxPublic o)

/-- A reply of `/keybundle` with an entry for each of some devices, at least
one. -/
structure ValidReply (ps : List (Published S)) (reply : Json) : Prop where
  exists_data : ∃ data identity k entries, reply.find? "data" = some data
    ∧ data.find? "identity_public_key" = some (.str identity) ∧ hexToKey identity = some k
    ∧ data.find? "key_bundles" = some (.arr entries) ∧ List.Forall₂ (ValidEntry S) ps entries
  ne_nil : ps ≠ []

/-- **What the server relays** of a posted handshake: the same members, and
the one-time prekey absent or null if none was posted. -/
structure Relayed (posted handshake : Json) : Prop where
  same : ∀ key ∈ ["username", "initiator_device_public_key", "initiator_ephemeral_public_key"],
    handshake.find? key = posted.find? key
  onetime : match posted.find? "recipient_onetime_public_prekey" with
    | some field => handshake.find? "recipient_onetime_public_prekey" = some field
    | none => handshake.find? "recipient_onetime_public_prekey" = none
        ∨ handshake.find? "recipient_onetime_public_prekey" = some .null

/-- **The round trip** of a sending bundle for a device: a shared secret, and
the same one from whatever the server relays of the handshake. -/
def RoundTrips (ks : KeyStore Key) (username : String) (b : SendingKeyBundle Key)
    (p : Published S) : Prop :=
  ∃ secret, b.getSharedSecret S ks = .ok secret
    ∧ ∀ posted handshake, b.handshake ks username = .ok posted → Relayed posted handshake →
      ∃ sender b', getHandshakeBacklog p.ks (some (.obj [("data", .arr [handshake])]))
          = .ok [(sender, b')]
        ∧ b'.getSharedSecret S p.ks = .ok secret

/-! ## The bundles of a reply -/

section Bundles

variable {S}

/-- The one-time public key on offer. -/
def Published.onetimePublic (p : Published S) : Option Key :=
  match p.onetime with
  | .present o => some (S.boxPublic o)
  | _ => none

/-- The bundle for a device, as `get_keybundles` makes it. -/
def Published.bundle (p : Published S) (pkDevice ephemeral : Key) : SendingKeyBundle Key :=
  .offered S pkDevice ephemeral (S.signPublic p.device) (S.boxPublic p.signed) p.onetimePublic
    (S.signDetached p.device (S.boxPublic p.signed))

/-- The one-time field of a valid entry decodes. -/
theorem onetimeOfEntry_eq {p : Published S} {entry : Json} (hv : ValidEntry S p entry) :
    onetimeOfEntry entry = .ok p.onetimePublic := by
  have hfield := hv.onetime
  rw [Published.onetimePublic]
  cases ho : p.onetime with
  | absent =>
    rw [ho] at hfield
    rw [onetimeOfEntry, if_neg (by rw [Json.contains, hfield]; decide)]
  | null =>
    rw [ho] at hfield
    rw [onetimeOfEntry, if_pos (Json.contains_of_find? hfield), Json.member_of_find? hfield]
    rfl
  | present o =>
    rw [ho] at hfield
    obtain ⟨s, hs, hkey⟩ := hfield
    rw [onetimeOfEntry, if_pos (Json.contains_of_find? hs), Json.member_of_find? hs]
    show Except.ok (hexToKey s) = _
    rw [hkey]

/-- A valid entry makes the bundle of its device. -/
theorem bundleOfEntry_eq {p : Published S} {entry : Json} (hv : ValidEntry S p entry)
    (pkDevice ephemeral : Key) :
    ∃ identityHex k, hexToKey identityHex = some k
      ∧ bundleOfEntry S pkDevice ephemeral entry
        = .ok (identityHex, p.bundle pkDevice ephemeral) := by
  obtain ⟨device, hd, hdk⟩ := hv.device
  obtain ⟨identity, k, hi, hik⟩ := hv.identity
  obtain ⟨signed, hs, hsk⟩ := hv.signed
  obtain ⟨signature, hg, hgk⟩ := hv.signature
  refine ⟨identity, k, hik, ?_⟩
  simp only [bundleOfEntry, Json.member_of_find? hd, Json.member_of_find? hi,
    Json.member_of_find? hs, Json.member_of_find? hg, onetimeOfEntry_eq hv, ok_bind,
    Json.getString, hdk, hik, hsk, hgk]
  rfl

/-- The entries of a reply make the bundles of their devices. -/
theorem bundlesOfEntries_eq {ps : List (Published S)} {entries : List (Json × Key)}
    (hv : List.Forall₂ (fun p e => ValidEntry S p e.1) ps entries) (pkDevice : Key)
    {identityHex : String} {k : Key} (hk : ps = [] → hexToKey identityHex = some k) :
    ∃ identityHex' k', hexToKey identityHex' = some k'
      ∧ bundlesOfEntries S pkDevice entries identityHex
        = .ok (identityHex', List.zipWith (fun p e => p.bundle pkDevice e.2) ps entries) := by
  induction hv generalizing identityHex k with
  | nil => exact ⟨identityHex, k, hk rfl, rfl⟩
  | @cons p e ps entries hv _ ih =>
    obtain ⟨identity, kid, hkid, hb⟩ := bundleOfEntry_eq hv pkDevice e.2
    obtain ⟨identityHex', k', hk', hbs⟩ := ih (fun _ => hkid)
    refine ⟨identityHex', k', hk', ?_⟩
    simp only [bundlesOfEntries, hb, hbs, ok_bind]
    rfl

end Bundles

/-! ## The round trip -/

section RoundTrip

variable {S} {ks : KeyStore Key} {username : String} {p : Published S} {device : Key}
variable {posted handshake : Json}

/-- What `post_handshake_device` posts of a bundle, as the recipient reads
it. -/
theorem handshake_eq (username : String)
    (hdev : ks.keypairs .device = some (S.signPublic device, device))
    (b : SendingKeyBundle Key) {onetime : Key} (ho : b.theirOnetimePublic = some onetime) :
    ∃ posted, b.handshake ks username = .ok posted
      ∧ posted.find? "username" = some (.str username)
      ∧ posted.find? "initiator_device_public_key" = some (.str (S.signPublic device).hex)
      ∧ posted.find? "initiator_ephemeral_public_key" = some (.str b.myEphemeralPublic.hex)
      ∧ posted.find? "recipient_onetime_public_prekey" = some (.str onetime.hex) := by
  simp only [SendingKeyBundle.handshake, postHandshakeDevice, KeyStore.getPublicKey_eq hdev,
    ok_bind, ho]
  exact ⟨_, rfl, rfl, rfl, rfl, rfl⟩

/-- **The relayed handshake is decoded** into the receiving bundle of what
was posted. -/
theorem bundleOfHandshake_eq (hdev : ks.keypairs .device = some (S.signPublic device, device))
    (b : SendingKeyBundle Key) {onetime : Key} (ho : b.theirOnetimePublic = some onetime)
    (hp : b.handshake ks username = .ok posted) (hr : Relayed posted handshake) :
    bundleOfHandshake p.ks handshake
      = .ok (username, b.relayed (S.signPublic device) (S.signPublic p.device)) := by
  obtain ⟨posted', hp', hu, hd, he, hone⟩ := handshake_eq username hdev b ho
  obtain rfl := Except.ok.inj (hp'.symm.trans hp)
  have hu' := (hr.same "username" (by simp)).trans hu
  have hd' := (hr.same "initiator_device_public_key" (by simp)).trans hd
  have he' := (hr.same "initiator_ephemeral_public_key" (by simp)).trans he
  have ho' : handshake.find? "recipient_onetime_public_prekey" = some (.str onetime.hex) := by
    have := hr.onetime
    rwa [hone] at this
  simp only [bundleOfHandshake, onetimeOfHandshake, Json.member_of_find? hu',
    Json.member_of_find? hd', Json.member_of_find? he', Json.member_of_find? ho',
    Json.contains_of_find? ho', if_true, Json.getString, ok_bind, hexToKey_hex,
    orThrow_some_bind, KeyStore.getPublicKey_eq p.device_stored]
  rw [SendingKeyBundle.relayed, ho]
  rfl

theorem getHandshakeBacklog_eq {received : String × ReceivingKeyBundle Key}
    (h : bundleOfHandshake p.ks handshake = .ok received) :
    getHandshakeBacklog p.ks (some (.obj [("data", .arr [handshake])])) = .ok [received] := by
  rw [getHandshakeBacklog]
  show [handshake].mapM (bundleOfHandshake p.ks) = _
  rw [List.mapM_cons, h, ok_bind, List.mapM_nil]
  rfl

variable {pkDevice ephemeral : Key}

/-- The secret of a device's bundle is the X3DH secret: its signature is
valid. -/
theorem getSharedSecret_bundle (hV : S.VerifiesSigned)
    (hdev : ks.keypairs .device = some (S.signPublic device, device)) :
    (p.bundle pkDevice ephemeral).getSharedSecret S ks
      = x3dhInitiator S device ephemeral (S.signPublic p.device) (S.boxPublic p.signed)
          (some (p.onetimePublic.getD 0)) := by
  simp only [SendingKeyBundle.getSharedSecret, KeyStore.getDecryptedSk_eq hdev,
    KeyStore.getPublicKey_eq hdev, ok_bind]
  exact if_pos (hV p.device (S.boxPublic p.signed))

/-- And the recipient's is its own. -/
theorem getSharedSecret_relayed (b : SendingKeyBundle Key) :
    (b.relayed (S.signPublic device) (S.signPublic p.device)).getSharedSecret S p.ks
      = x3dhResponder S (S.signPublic device) b.myEphemeralPublic p.device p.signed
          (b.theirOnetimePublic.map p.ks.getOnetimePrivateKey) := by
  simp only [ReceivingKeyBundle.getSharedSecret, KeyStore.getDecryptedSk_eq p.device_stored,
    KeyStore.getPublicKey_eq p.device_stored, KeyStore.getDecryptedSk_eq p.signed_stored,
    KeyStore.getPublicKey_eq p.signed_stored, ok_bind]
  rfl

/-- With a one-time prekey on offer, both ends arrive at one secret. -/
theorem roundTrips_of_present (hS : S.Commutes) (hA : S.AcceptsKeyPairs)
    (hC : S.ConvertsKeyPairs) (hV : S.VerifiesSigned)
    (hdev : ks.keypairs .device = some (S.signPublic device, device)) {o : Key}
    (ho : p.onetime = .present o) :
    RoundTrips S ks username (p.bundle pkDevice ephemeral) p := by
  have hone : p.onetimePublic = some (S.boxPublic o) := by rw [Published.onetimePublic, ho]
  obtain ⟨secret, hsecret⟩ := x3dhInitiator_isOk hA hC device ephemeral p.device p.signed (some o)
  refine ⟨secret, ?_, fun posted handshake hp hr => ?_⟩
  · rw [getSharedSecret_bundle hV hdev, hone]
    exact hsecret
  · refine ⟨username, _, getHandshakeBacklog_eq (bundleOfHandshake_eq hdev _ rfl hp hr), ?_⟩
    rw [getSharedSecret_relayed]
    show x3dhResponder S _ (S.boxPublic ephemeral) _ _
      (some (p.ks.getOnetimePrivateKey (p.onetimePublic.getD 0))) = _
    rw [hone, Option.getD_some, p.onetime_stored o ho]
    exact (x3dhResponder_eq hS hA hC device ephemeral p.device p.signed (some o)).trans hsecret

/-- Without one, the sending bundle has no secret: the zero array it holds in
its place is refused. -/
theorem not_roundTrips (hA : S.AcceptsKeyPairs) (hC : S.ConvertsKeyPairs)
    (hV : S.VerifiesSigned) (hZ : S.RejectsZero)
    (hdev : ks.keypairs .device = some (S.signPublic device, device))
    (ho : ∀ o, p.onetime ≠ .present o) :
    ¬ RoundTrips S ks username (p.bundle pkDevice ephemeral) p := by
  rintro ⟨secret, hsecret, -⟩
  have hone : p.onetimePublic = none := by
    rw [Published.onetimePublic]
    cases h : p.onetime with
    | present o => exact absurd h (ho o)
    | _ => rfl
  rw [getSharedSecret_bundle hV hdev, hone, Option.getD_none,
    x3dhInitiator_refused hA hC device ephemeral p.device p.signed (hZ ephemeral)] at hsecret
  cases hsecret

/-- The bundles of a valid reply, each with the ephemeral key drawn for it. -/
def bundlesOf (device : Key) (draw : ℕ → Key) (ps : List (Published S)) :
    List (SendingKeyBundle Key) :=
  ps.zipIdx.map fun p => p.1.bundle (S.signPublic device) (draw p.2)

/-- **A valid reply makes the bundles of its devices.** -/
theorem getKeybundles_eq (hdev : ks.keypairs .device = some (S.signPublic device, device))
    (hsigned : ∃ kp, ks.keypairs .signed = some kp) (draw : ℕ → Key)
    {ps : List (Published S)} {reply : Json} (hr : ValidReply S ps reply) :
    getKeybundles S ks draw (some reply) = .ok (bundlesOf device draw ps) := by
  obtain ⟨data, identity, k, entries, hdata, hidentity, hk, hentries, hvalid⟩ := hr.exists_data
  obtain ⟨kp, hkp⟩ := hsigned
  have hvalid' : List.Forall₂ (fun p (e : Json × Key) => ValidEntry S p e.1) ps
      (entries.zipIdx.map fun e => (e.1, draw e.2)) := by
    rw [List.forall₂_map_right_iff]
    refine List.forall₂_iff_get.mpr ⟨by simp [hvalid.length_eq], fun i hi hi' => ?_⟩
    simpa using hvalid.get hi (by simpa using hi')
  have hne : ps = [] → hexToKey "" = some 0 := fun h => absurd h hr.ne_nil
  obtain ⟨identityHex, k', hk', hbundles⟩ :=
    bundlesOfEntries_eq hvalid' (S.signPublic device) hne
  have hzip : List.zipWith (fun p (e : Json × Key) => p.bundle (S.signPublic device) e.2) ps
      (entries.zipIdx.map fun e => (e.1, draw e.2)) = bundlesOf device draw ps := by
    refine List.ext_getElem (by simp [bundlesOf, hvalid.length_eq]) fun i hi hi' => ?_
    simp [bundlesOf]
  simp only [getKeybundles, Json.slot_of_find? hdata, Json.slot_of_find? hidentity,
    Json.slot_of_find? hentries, Json.getString, Json.elements, ok_bind, hk, hk', hbundles, hzip,
    orThrow_some_bind, KeyStore.getDecryptedKeypair_eq hdev, KeyStore.getDecryptedKeypair_eq hkp]
  rfl

/-- **A handshake makes the round trip exactly with a one-time prekey.** A
valid reply makes a bundle for each of its entries, and the bundle of an
entry yields a secret that the recipient recovers from the relayed handshake
if and only if the entry's one-time key is present. -/
theorem roundTrips_iff (username : String) (hS : S.Commutes) (hA : S.AcceptsKeyPairs)
    (hC : S.ConvertsKeyPairs)
    (hV : S.VerifiesSigned) (hZ : S.RejectsZero)
    (hdev : ks.keypairs .device = some (S.signPublic device, device))
    (hsigned : ∃ kp, ks.keypairs .signed = some kp) (draw : ℕ → Key)
    {ps : List (Published S)} {reply : Json} (hr : ValidReply S ps reply) :
    ∃ bundles, getKeybundles S ks draw (some reply) = .ok bundles
      ∧ bundles.length = ps.length
      ∧ ∀ (i : ℕ) b p, bundles[i]? = some b → ps[i]? = some p →
        (RoundTrips S ks username b p ↔ ∃ o, p.onetime = .present o) := by
  refine ⟨_, getKeybundles_eq hdev hsigned draw hr, by simp [bundlesOf], fun i b p hb hp => ?_⟩
  obtain rfl : p.bundle (S.signPublic device) (draw i) = b := by
    simpa [bundlesOf, hp] using hb
  constructor
  · intro h
    by_contra hno
    exact not_roundTrips hA hC hV hZ hdev (fun o ho => hno ⟨o, ho⟩) h
  · rintro ⟨o, ho⟩
    exact roundTrips_of_present hS hA hC hV hdev ho

end RoundTrip

/-! ## An entry without a one-time key -/

/-- The entry the server keeps of a device, under an identity key. -/
def Published.entry {S : Sodium Key} (p : Published S) (identity : Key) : Json :=
  .obj ([
    ("device_public_key", .str (S.signPublic p.device).hex),
    ("identity_public_key", .str identity.hex),
    ("signedpre_key", .str (S.boxPublic p.signed).hex),
    ("signedpk_signature", .str (bin2hex (S.signDetached p.device (S.boxPublic p.signed))))]
  ++ match p.onetime with
    | .absent => []
    | .null => [("one_time_key", .null)]
    | .present o => [("one_time_key", .str (S.boxPublic o).hex)])

/-- It is valid, a signature being 64 bytes. -/
theorem Published.validEntry {S : Sodium Key} (p : Published S) (identity : Key)
    (hlen : (S.signDetached p.device (S.boxPublic p.signed)).length = 64) :
    ValidEntry S p (p.entry identity) := by
  have hsig := hexToBin_bin2hex (S.signDetached p.device (S.boxPublic p.signed))
  rw [hlen] at hsig
  refine ⟨⟨_, rfl, hexToKey_hex _⟩, ⟨_, _, rfl, hexToKey_hex identity⟩,
    ⟨_, rfl, hexToKey_hex _⟩, ⟨_, rfl, hsig⟩, ?_⟩
  rw [Published.entry]
  split
  · rfl
  · rfl
  · exact ⟨_, rfl, hexToKey_hex _⟩

/-- A reply with that one entry. -/
def Published.reply {S : Sodium Key} (p : Published S) (identity : Key) : Json :=
  .obj [("data", .obj [
    ("identity_public_key", .str identity.hex),
    ("key_bundles", .arr [p.entry identity])])]

theorem Published.validReply {S : Sodium Key} (p : Published S) (identity : Key)
    (hlen : (S.signDetached p.device (S.boxPublic p.signed)).length = 64) :
    ValidReply S [p] (p.reply identity) where
  exists_data := ⟨_, _, _, _, rfl, rfl, hexToKey_hex identity, rfl,
    .cons (p.validEntry identity hlen) .nil⟩
  ne_nil := List.cons_ne_nil _ _

namespace Sodium

/-- Bytes added to bytes. -/
def addBytes (a b : Key) : Key :=
  ⟨List.zipWith (· + ·) a.1 b.1, by rw [List.length_zipWith, a.2, b.2, min_self]⟩

/-- A public key is never zero. -/
def nonzero (x : Key) : Key := if x = 0 then ⟨1 :: List.replicate 31 0, rfl⟩ else x

/-- A library over arrays: a private key is its own public key, the product
of two is their sum, a signature is the key and what it signs. -/
def bytes : Sodium Key where
  boxPublic := nonzero
  scalarmult x B := if B = 0 then none else some (addBytes (nonzero x) B)
  generichash l := l.foldr addBytes 0
  kdf k i _ := addBytes k ⟨List.replicate 32 (UInt8.ofNat i), List.length_replicate⟩
  signPublic := id
  skToCurve25519 := some
  pkToCurve25519 pk := some (nonzero pk)
  signDetached sk m := sk.1 ++ m.1
  verifyDetached s m pk := s = pk.1 ++ m.1

theorem nonzero_ne (x : Key) : nonzero x ≠ 0 := by
  rw [nonzero]
  split
  · decide
  · assumption

theorem bytes_scalarmult (x y : Key) :
    bytes.scalarmult x (bytes.boxPublic y) = some (addBytes (nonzero x) (nonzero y)) :=
  if_neg (nonzero_ne y)

theorem bytes_commutes : bytes.Commutes := by
  intro x y
  rw [bytes_scalarmult, bytes_scalarmult]
  exact congrArg some (Subtype.ext (List.zipWith_comm_of_comm fun _ _ => UInt8.add_comm _ _))

theorem bytes_acceptsKeyPairs : bytes.AcceptsKeyPairs := by
  intro x y
  rw [bytes_scalarmult]
  rfl

theorem bytes_convertsKeyPairs : bytes.ConvertsKeyPairs := fun sk => ⟨sk, rfl, rfl⟩

theorem bytes_verifiesSigned : bytes.VerifiesSigned := fun _ _ => decide_eq_true rfl

theorem bytes_rejectsZero : bytes.RejectsZero := by
  intro x
  simp only [bytes, if_true]

theorem length_bytes_signDetached (sk m : Key) : (bytes.signDetached sk m).length = 64 := by
  show (sk.1 ++ m.1).length = 64
  rw [List.length_append, sk.2, m.2]

end Sodium

/-- The store of a device with keys made of `b`. -/
def KeyStore.repeated (b : UInt8) (onetimePrekeys : List (Key × Key)) : KeyStore Key where
  keypairs
    | .device => some (.repeated b, .repeated b)
    | .signed => some (Sodium.bytes.boxPublic (.repeated (b + 1)), .repeated (b + 1))
  onetimePrekeys := onetimePrekeys

theorem KeyStore.repeated_device (b : UInt8) (onetimePrekeys : List (Key × Key)) :
    (KeyStore.repeated b onetimePrekeys).keypairs .device
      = some (Sodium.bytes.signPublic (.repeated b), .repeated b) := rfl

/-- A published device, with or without a one-time prekey on offer. -/
def Published.repeated (offered : Bool) : Published Sodium.bytes where
  ks := .repeated 1 (if offered then [(Sodium.bytes.boxPublic (.repeated 3), .repeated 3)] else [])
  device := .repeated 1
  signed := .repeated 2
  onetime := if offered then .present (.repeated 3) else .absent
  device_stored := rfl
  signed_stored := rfl
  onetime_stored o ho := by
    cases offered with
    | false => cases ho
    | true =>
      obtain rfl := OnetimeField.present.inj ho
      decide

/-- A device that offers a one-time prekey makes the round trip. -/
theorem roundTrips_offered :
    ∃ b, getKeybundles Sodium.bytes (.repeated 5 []) (fun _ => .repeated 7)
        (some ((Published.repeated true).reply (.repeated 9))) = .ok [b]
      ∧ RoundTrips Sodium.bytes (.repeated 5 []) "alice" b (.repeated true) := by
  obtain ⟨bundles, hb, hlen, h⟩ := roundTrips_iff "alice" Sodium.bytes_commutes
    Sodium.bytes_acceptsKeyPairs Sodium.bytes_convertsKeyPairs Sodium.bytes_verifiesSigned
    Sodium.bytes_rejectsZero (KeyStore.repeated_device 5 []) ⟨_, rfl⟩ (fun _ => .repeated 7)
    ((Published.repeated true).validReply (.repeated 9) (Sodium.length_bytes_signDetached _ _))
  obtain ⟨b, rfl⟩ := List.length_eq_one_iff.mp hlen
  exact ⟨b, hb, (h 0 b _ rfl rfl).mpr ⟨_, rfl⟩⟩

/-- One that does not is refused on the initiator's side. -/
theorem not_roundTrips_absent :
    ∃ b, ValidReply Sodium.bytes [.repeated false] ((Published.repeated false).reply (.repeated 9))
      ∧ getKeybundles Sodium.bytes (.repeated 5 []) (fun _ => .repeated 7)
          (some ((Published.repeated false).reply (.repeated 9))) = .ok [b]
      ∧ b.getSharedSecret Sodium.bytes (.repeated 5 []) = .error (.runtimeError "DH4 failed")
      ∧ ¬ RoundTrips Sodium.bytes (.repeated 5 []) "alice" b (.repeated false) := by
  have hvalid := (Published.repeated false).validReply (.repeated 9)
    (Sodium.length_bytes_signDetached _ _)
  have hsecret : ((Published.repeated false).bundle (.repeated 5) (.repeated 7)).getSharedSecret
      Sodium.bytes (.repeated 5 []) = .error (.runtimeError "DH4 failed") := by
    decide +kernel
  refine ⟨_, hvalid, getKeybundles_eq (KeyStore.repeated_device 5 []) ⟨_, rfl⟩ _ hvalid,
    hsecret, ?_⟩
  rintro ⟨secret, h, -⟩
  cases hsecret.symm.trans h
