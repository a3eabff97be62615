import Eastwood.Handshake

/-!
# Replies of `/keybundle`

A reply names the identity key of its user and lists an entry for each of
their devices the client does not know yet. `get_keybundles` makes a bundle
of every entry and keeps the identity key the last one named, to decode it
once more when the loop is over. An entry that cannot be decoded ends the
loop with an exception, so that this last check finds a key that has been
checked before – or, where there is no entry, no key at all.

A reply without entries says that every device of the user is known. It is
the one well-formed reply that throws (`decodes_iff`).
-/

/-! ## The fields of a reply -/

/-- **The texts of an entry.** A one-time key that is null or missing is
`none`. -/
structure EntryFields where
  device : String
  identity : String
  signed : String
  signature : String
  onetime : Option String

namespace EntryFields

/-- The entry has these fields. -/
structure In (f : EntryFields) (entry : Json) : Prop where
  device : entry.find? "device_public_key" = some (.str f.device)
  identity : entry.find? "identity_public_key" = some (.str f.identity)
  signed : entry.find? "signedpre_key" = some (.str f.signed)
  signature : entry.find? "signedpk_signature" = some (.str f.signature)
  onetime : match f.onetime with
    | some s => entry.find? "one_time_key" = some (.str s)
    | none => entry.find? "one_time_key" = none ∨ entry.find? "one_time_key" = some .null

/-- **The required keys are good**: each is text of its own length that
decodes. -/
structure Valid (f : EntryFields) : Prop where
  device : (hexToKey f.device).isSome
  identity : (hexToKey f.identity).isSome
  signed : (hexToKey f.signed).isSome
  signature : (hexToBin f.signature 64).isSome

end EntryFields

/-- The texts of a reply: the identity key of its user, and the entries. -/
structure ReplyFields where
  identity : String
  entries : List EntryFields

/-- The reply has these fields. -/
def ReplyFields.In (r : ReplyFields) (reply : Json) : Prop :=
  ∃ data entries, reply.find? "data" = some data
    ∧ data.find? "identity_public_key" = some (.str r.identity)
    ∧ data.find? "key_bundles" = some (.arr entries)
    ∧ List.Forall₂ EntryFields.In r.entries entries

section Decoding

variable (S : Sodium Key) (ks : KeyStore Key) (draw : ℕ → Key)

/-- **The bundle of an entry**, with an ephemeral key of its own. -/
structure SendingKeyBundle.IsFor (pkDevice ephemeral : Key) (f : EntryFields)
    (b : SendingKeyBundle Key) : Prop where
  myDevice : b.myDevicePublic = pkDevice
  ephemeralPrivate : b.myEphemeralPrivate = ephemeral
  ephemeralPublic : b.myEphemeralPublic = S.boxPublic ephemeral
  device : hexToKey f.device = some b.theirDevicePublic
  signed : hexToKey f.signed = some b.theirSignedPublic
  onetime : b.theirOnetimePublic = some ((f.onetime.bind hexToKey).getD 0)
  signature : hexToBin f.signature 64 = some b.theirSignedSignature

/-- **A reply is decoded** if its keys being good is enough for a bundle of
each entry, in their order, the `i`-th with the `i`-th ephemeral key drawn;
so that what throws has a bad key. -/
structure Decodes (r : ReplyFields) (result : Except Fault (List (SendingKeyBundle Key))) :
    Prop where
  returns : (∀ f ∈ r.entries, f.Valid) → ∃ pkDevice bundles,
    ks.getPublicKey .device = .ok pkDevice ∧ result = .ok bundles
      ∧ List.Forall₂ (fun f b => b.IsFor S pkDevice (draw f.2) f.1) r.entries.zipIdx bundles
  throws : ∀ e, result = .error e → ∃ f ∈ r.entries, ¬ f.Valid

/-- What was not thrown for is there. -/
theorem isSome_of_orThrow {α : Type} {what : String} {x : Option α} {a : α}
    (h : orThrow what x = .ok a) : x.isSome := by
  cases x with
  | none => cases h
  | some _ => rfl

/-! ## The loop -/

variable {S} {ks} {draw} {f : EntryFields} {entry : Json}

/-- What is read of a one-time key. -/
theorem onetimeOfEntry_of_in (h : f.In entry) :
    onetimeOfEntry entry = .ok (f.onetime.bind hexToKey) := by
  have hfield := h.onetime
  cases ho : f.onetime with
  | some s =>
    rw [ho] at hfield
    rw [onetimeOfEntry, if_pos (Json.contains_of_find? hfield), Json.member_of_find? hfield]
    rfl
  | none =>
    rw [ho] at hfield
    rcases hfield with hfield | hfield
    · rw [onetimeOfEntry, if_neg (by rw [Json.contains, hfield]; decide)]
      rfl
    · rw [onetimeOfEntry, if_pos (Json.contains_of_find? hfield), Json.member_of_find? hfield]
      rfl

/-- An entry with good keys makes its bundle. -/
theorem bundleOfEntry_of_valid (h : f.In entry) (hv : f.Valid) (pkDevice ephemeral : Key) :
    ∃ b, bundleOfEntry S pkDevice ephemeral entry = .ok (f.identity, b)
      ∧ b.IsFor S pkDevice ephemeral f := by
  obtain ⟨device, hdevice⟩ := Option.isSome_iff_exists.mp hv.device
  obtain ⟨identity, hidentity⟩ := Option.isSome_iff_exists.mp hv.identity
  obtain ⟨signed, hsigned⟩ := Option.isSome_iff_exists.mp hv.signed
  obtain ⟨signature, hsignature⟩ := Option.isSome_iff_exists.mp hv.signature
  refine ⟨.offered S pkDevice ephemeral device signed (f.onetime.bind hexToKey) signature, ?_,
    rfl, rfl, rfl, hdevice, hsigned, rfl, hsignature⟩
  simp only [bundleOfEntry, Json.member_of_find? h.device, Json.member_of_find? h.identity,
    Json.member_of_find? h.signed, Json.member_of_find? h.signature, onetimeOfEntry_of_in h,
    ok_bind, Json.getString, hdevice, hidentity, hsigned, hsignature]
  rfl

variable (draw) in
/-- **Entries with good keys** make their bundles, from whichever position
on, and leave the identity key of the last: the one there was if there is
none. -/
theorem bundlesOfEntries_of_valid {fs : List EntryFields} {entries : List Json}
    (h : List.Forall₂ EntryFields.In fs entries) (hv : ∀ f ∈ fs, f.Valid) (pkDevice : Key)
    (n : ℕ) (identityHex : String) :
    ∃ bundles, bundlesOfEntries S pkDevice ((entries.zipIdx n).map fun e => (e.1, draw e.2))
        identityHex = .ok ((fs.getLast?.map EntryFields.identity).getD identityHex, bundles)
      ∧ List.Forall₂ (fun f b => b.IsFor S pkDevice (draw f.2) f.1) (fs.zipIdx n) bundles := by
  induction h generalizing n identityHex with
  | nil => exact ⟨[], rfl, .nil⟩
  | @cons f entry fs entries hentry _ ih =>
    obtain ⟨b, hb, hfor⟩ :=
      bundleOfEntry_of_valid (S := S) hentry (hv f List.mem_cons_self) pkDevice (draw n)
    obtain ⟨bundles, hbundles, hall⟩ :=
      ih (fun f hf => hv f (List.mem_cons_of_mem _ hf)) (n + 1) f.identity
    refine ⟨b :: bundles, ?_, .cons hfor hall⟩
    simp only [List.zipIdx_cons, List.map_cons, bundlesOfEntries, hb, hbundles, ok_bind]
    cases fs with
    | nil => rfl
    | cons f' fs =>
      rw [List.getLast?_cons_cons]
      cases hlast : (f' :: fs).getLast? with
      | none => exact absurd (List.getLast?_eq_none_iff.mp hlast) (List.cons_ne_nil _ _)
      | some _ => rfl

/-! ## The reply -/

variable {r : ReplyFields} {reply : Json}

variable (ks draw) in
/-- A reply with good keys is decoded entry by entry, between the checks of
its own key and of the last one named. -/
theorem getKeybundles_of_valid (h : r.In reply) (hv : ∀ f ∈ r.entries, f.Valid) :
    ∃ bundlesOf : Key → List (SendingKeyBundle Key),
      (∀ pkDevice, List.Forall₂ (fun f b => b.IsFor S pkDevice (draw f.2) f.1) r.entries.zipIdx
        (bundlesOf pkDevice))
      ∧ getKeybundles S ks draw (some reply) = (do
          let _ ← orThrow "Failed to decode my identity public key" (hexToKey r.identity)
          let (pkDevice, _) ← ks.getDecryptedKeypair .device
          let _ ← ks.getDecryptedKeypair .signed
          let _ ← orThrow "Failed to decode their identity public key"
            (hexToKey ((r.entries.getLast?.map EntryFields.identity).getD ""))
          return bundlesOf pkDevice) := by
  obtain ⟨data, entries, hdata, hidentity, hbundles, hentries⟩ := h
  choose bundlesOf hloop hall using fun pkDevice =>
    bundlesOfEntries_of_valid (S := S) draw hentries hv pkDevice 0 ""
  refine ⟨bundlesOf, hall, ?_⟩
  simp only [getKeybundles, Json.slot_of_find? hdata, Json.slot_of_find? hidentity,
    Json.slot_of_find? hbundles, ok_bind, Json.getString, Json.elements, hloop]

/-- The last identity key that was named is there and good, if there is an
entry. -/
theorem isSome_lastIdentity {fs : List EntryFields} (hv : ∀ f ∈ fs, f.Valid) :
    (hexToKey ((fs.getLast?.map EntryFields.identity).getD "")).isSome ↔ fs ≠ [] := by
  cases hlast : fs.getLast? with
  | none =>
    obtain rfl := List.getLast?_eq_none_iff.mp hlast
    exact iff_of_false (by decide) fun h => h rfl
  | some f =>
    have hf := List.mem_of_getLast? hlast
    exact iff_of_true (hv f hf).identity (List.ne_nil_of_mem hf)

/-- **Which replies are decoded**: those that list an entry, name a good
identity key and come to a client that has its own key pairs – and those with
a bad key, of which nothing is asked. -/
theorem decodes_iff (h : r.In reply) :
    Decodes S ks draw r (getKeybundles S ks draw (some reply))
      ↔ (∃ f ∈ r.entries, ¬ f.Valid)
        ∨ r.entries ≠ [] ∧ (hexToKey r.identity).isSome
          ∧ (ks.keypairs .device).isSome ∧ (ks.keypairs .signed).isSome := by
  by_cases hv : ∀ f ∈ r.entries, f.Valid
  · have hnone : ¬ ∃ f ∈ r.entries, ¬ f.Valid := fun ⟨f, hf, hbad⟩ => hbad (hv f hf)
    rw [or_iff_right hnone]
    obtain ⟨bundlesOf, hall, hreply⟩ := getKeybundles_of_valid (S := S) ks draw h hv
    rw [hreply, ← isSome_lastIdentity hv]
    constructor
    · intro hdecodes
      obtain ⟨pkDevice, bundles, -, hok, -⟩ := hdecodes.returns hv
      obtain ⟨identity, hidentity, hok⟩ := exists_of_bind_eq_ok hok
      obtain ⟨device, hdevice, hok⟩ := exists_of_bind_eq_ok hok
      obtain ⟨signed, hsigned, hok⟩ := exists_of_bind_eq_ok hok
      obtain ⟨last, hlast, -⟩ := exists_of_bind_eq_ok hok
      exact ⟨isSome_of_orThrow hlast, isSome_of_orThrow hidentity, isSome_of_orThrow hdevice,
        isSome_of_orThrow hsigned⟩
    · rintro ⟨hlast, hidentity, hdevice, hsigned⟩
      obtain ⟨last, hlast⟩ := Option.isSome_iff_exists.mp hlast
      obtain ⟨identity, hidentity⟩ := Option.isSome_iff_exists.mp hidentity
      obtain ⟨device, hdevice⟩ := Option.isSome_iff_exists.mp hdevice
      obtain ⟨signed, hsigned⟩ := Option.isSome_iff_exists.mp hsigned
      have hok : (do
          let _ ← orThrow "Failed to decode my identity public key" (hexToKey r.identity)
          let (pkDevice, _) ← ks.getDecryptedKeypair .device
          let _ ← ks.getDecryptedKeypair .signed
          let _ ← orThrow "Failed to decode their identity public key"
            (hexToKey ((r.entries.getLast?.map EntryFields.identity).getD ""))
          return bundlesOf pkDevice : Except Fault (List (SendingKeyBundle Key)))
          = .ok (bundlesOf device.1) := by
        rw [hidentity, hlast, KeyStore.getDecryptedKeypair_eq hdevice,
          KeyStore.getDecryptedKeypair_eq hsigned]
        rfl
      rw [hok]
      exact ⟨fun _ => ⟨device.1, _, KeyStore.getPublicKey_eq hdevice, rfl, hall device.1⟩, nofun⟩
  · obtain ⟨f, hf⟩ := not_forall.mp hv
    have hbad : ∃ f ∈ r.entries, ¬ f.Valid := ⟨f, Classical.not_imp.mp hf⟩
    exact iff_of_true ⟨fun hall => absurd hall hv, fun _ _ => hbad⟩ (Or.inl hbad)

end Decoding

/-! ## No entry and two -/

namespace KeybundleReply

/-- The entry of a device, without a one-time key. -/
def entry (device signed : UInt8) : EntryFields :=
  ⟨(Key.repeated device).hex, (Key.repeated 9).hex, (Key.repeated signed).hex,
    bin2hex (List.replicate 64 3), none⟩

/-- A reply with some entries. -/
def fields (entries : List EntryFields) : ReplyFields := ⟨(Key.repeated 9).hex, entries⟩

/-- As it is sent. -/
def reply (entries : List EntryFields) : Json :=
  .obj [("data", .obj [
    ("identity_public_key", .str (Key.repeated 9).hex),
    ("key_bundles", .arr (entries.map fun f => .obj [
      ("device_public_key", .str f.device), ("identity_public_key", .str f.identity),
      ("signedpre_key", .str f.signed), ("signedpk_signature", .str f.signature)]))])]

theorem in_reply {entries : List EntryFields} (h : ∀ f ∈ entries, f.onetime = none) :
    (fields entries).In (reply entries) := by
  refine ⟨_, _, rfl, rfl, rfl, List.forall₂_map_right_iff.mpr (List.forall₂_same.mpr ?_)⟩
  intro f hf
  refine ⟨rfl, rfl, rfl, rfl, ?_⟩
  rw [h f hf]
  exact Or.inl rfl

/-- What is drawn. -/
def draw (n : ℕ) : Key := .repeated (.ofNat n)

end KeybundleReply

open KeybundleReply in
/-- The entries of two devices are decoded, -/
theorem decodes_iff_two :
    Decodes Sodium.bytes (.repeated 5 []) draw (fields [entry 1 2, entry 4 6])
      (getKeybundles Sodium.bytes (.repeated 5 []) draw (some (reply [entry 1 2, entry 4 6]))) :=
  (decodes_iff (in_reply (by simp [entry]))).mpr
    (Or.inr ⟨List.cons_ne_nil _ _, by decide +kernel, rfl, rfl⟩)

open KeybundleReply in
/-- one after the other. -/
example : (getKeybundles Sodium.bytes (.repeated 5 []) draw
    (some (reply [entry 1 2, entry 4 6]))).map (·.map SendingKeyBundle.theirDevicePublic)
      = .ok [.repeated 1, .repeated 4] := by
  decide +kernel

open KeybundleReply in
/-- **None is not**: the empty list has no bad key in it, and throws. -/
theorem not_decodes_nil :
    (fields []).In (reply [])
      ∧ getKeybundles Sodium.bytes (.repeated 5 []) draw (some (reply []))
        = .error (.runtimeError "Failed to decode their identity public key")
      ∧ ¬ Decodes Sodium.bytes (.repeated 5 []) draw (fields [])
        (getKeybundles Sodium.bytes (.repeated 5 []) draw (some (reply []))) := by
  have hthrows : getKeybundles Sodium.bytes (.repeated 5 []) draw (some (reply []))
      = .error (.runtimeError "Failed to decode their identity public key") := by
    decide +kernel
  refine ⟨in_reply (by simp), hthrows, fun hdecodes => ?_⟩
  obtain ⟨f, hf, -⟩ := hdecodes.throws _ hthrows
  cases hf
