import Eastwood.Handshake
import Eastwood.JsonText
import Eastwood.SignedPrekeys

/-!
# What the device key signs

One key signs in four places: the nonce the server asks to have signed at a
login, the nonce of a `get`, the body of a `post`, and the signed prekey.
What is signed is the bytes and nothing that would say what they are for, so
a signature made for one purpose passes for one of another wherever the bytes
do. A prekey is 32 bytes; a `get` signs 24, the body of a `post` is a JSON
object with a 48-digit nonce in it, and a login signs whatever the server's
text decodes to.

The main result, `accepted_iff`, is that lengths are all that keeps the four
apart: the only signatures a peer accepts under a signed prekey are those of
the device's prekeys, and those of login nonces of 32 bytes.
-/

/-! ## Signatures of byte strings -/

/-- **`crypto_sign_detached` and its verification** over byte strings of any
length, `S` having them for 32-byte arrays. -/
structure DetachedSignature (S : Sodium Key) where
  sign : Key → List UInt8 → List UInt8
  verify : List UInt8 → List UInt8 → Key → Bool
  sign_key : ∀ sk (m : Key), S.signDetached sk m = sign sk m.1
  verify_key : ∀ s (m : Key) pk, S.verifyDetached s m pk = verify s m.1 pk

/-- A signature verifies, under the key that goes with its own, exactly for
what was signed. -/
def DetachedSignature.Ideal {S : Sodium Key} (sig : DetachedSignature S) : Prop :=
  ∀ sk m m', sig.verify (sig.sign sk m) m' (S.signPublic sk) = true ↔ m' = m

/-! ## The peer -/

namespace SendingKeyBundle

variable (S : Sodium Key) {ks : KeyStore Key} {b : SendingKeyBundle Key}

/-- The check `get_shared_secret` makes of the signed prekey. -/
def verifies (b : SendingKeyBundle Key) : Bool :=
  S.verifyDetached b.theirSignedSignature b.theirSignedPublic b.theirDevicePublic

/-- Without it there is no secret, -/
theorem getSharedSecret_of_not_verifies {kp : Key × Key} (hk : ks.keypairs .device = some kp)
    (h : b.verifies S = false) :
    b.getSharedSecret S ks = .error (.runtimeError "Invalid signature on signed prekey") := by
  unfold verifies at h
  simp only [getSharedSecret, KeyStore.getDecryptedSk_eq hk, KeyStore.getPublicKey_eq hk, ok_bind,
    h, Bool.false_eq_true, if_false]

/-- and with it the secret is that of the key agreement. -/
theorem getSharedSecret_of_verifies {kp : Key × Key} (hk : ks.keypairs .device = some kp)
    (h : b.verifies S = true) :
    b.getSharedSecret S ks = x3dhInitiator S kp.2 b.myEphemeralPrivate b.theirDevicePublic
      b.theirSignedPublic b.theirOnetimePublic := by
  unfold verifies at h
  simp only [getSharedSecret, KeyStore.getDecryptedSk_eq hk, KeyStore.getPublicKey_eq hk, ok_bind,
    h, if_true]

end SendingKeyBundle

/-! ## The four signing sites -/

/-- What a byte string was signed for. -/
inductive SigningPurpose where
  /-- The nonce of `/requestLogin`. -/
  | login
  /-- The nonce of a `get` or the body of a `post`. -/
  | request
  /-- A signed prekey of the device. -/
  | prekey
  deriving DecidableEq

/-- A byte string the device key signed. -/
structure SignedString where
  purpose : SigningPurpose
  message : List UInt8
  deriving DecidableEq

/-- The nonce of a request, `CHA_CHA_NONCE_LEN` bytes. -/
abbrev RequestNonce := { bytes : List UInt8 // bytes.length = 24 }

/-- `post_request_login`, given the response: the bytes to be signed. -/
def postRequestLogin (response : Except Fault Json) : Except Fault (List UInt8) := do
  let nonceString ← (← (← (← response).member "data").member "nonce").getString
  orThrow "Failed to decode nonce when logging in"
    (hexToBin nonceString (nonceString.length / 2))

/-- `get`. -/
def signedByGet (nonce : RequestNonce) : List SignedString := [⟨.request, nonce.1⟩]

/-- The body of a `post`: the data with a nonce, on one line. -/
def requestBody (data : Json) (nonce : RequestNonce) : Except Fault (List UInt8) := do
  let requestJson ← data.insert "nonce" (.str (bin2hex nonce.1))
  match requestJson.dump with
  | some text => .ok (text.map fun c => UInt8.ofNat c.toNat)
  | none => .error .typeError

/-- `post`: a body that cannot be written is not signed. -/
def signedByPost (data : Json) (nonce : RequestNonce) : List SignedString :=
  match requestBody data nonce with
  | .ok body => [⟨.request, body⟩]
  | .error _ => []

/-- The body of `/updateKeybundle`. -/
def KeyUpdate.body (update : KeyUpdate Key) : Json :=
  .obj (("one_time_keys", .arr (update.onetimeKeys.map fun k => .str k.hex)) ::
    match update.signed with
    | some (pk, signature) =>
      [("signedpre_key", .str pk.hex), ("signedpk_signature", .str (bin2hex signature))]
    | none => [])

/-- **What `post_new_keybundles` uploads**, and the nonce of its `post`. -/
structure KeyUpload where
  signed : Option Key
  onetimeKeys : List Key
  nonce : RequestNonce

/-- **A call that signs**, with what the server answers on the way. -/
inductive SigningCall where
  /-- `login_user`: the reply to `/requestLogin`, whether `/authenticate`
  returned a token, and the upload, if keys are to be posted. -/
  | loginUser (reply : Except Fault Json) (token : Except Fault Unit) (upload : Option KeyUpload)
  | get (nonce : RequestNonce)
  | post (data : Json) (nonce : RequestNonce)
  | postNewKeybundles (upload : KeyUpload)

section Trace

variable (S : Sodium Key) (device : Key × Key)

/-- `post_new_keybundles`: the prekey, if there is one, and the request. -/
def signedByUpload (upload : KeyUpload) : List SignedString :=
  upload.signed.toList.map (fun pk => ⟨.prekey, pk.1⟩)
    ++ signedByPost (postNewKeybundles S device upload.signed upload.onetimeKeys).body
      upload.nonce

/-- **What a call signs.** One that cannot load the device key signs
nothing, and is left out. -/
def SigningCall.signed : SigningCall → List SignedString
  | loginUser reply token upload =>
    match postRequestLogin reply with
    | .error _ => []
    | .ok nonce => ⟨.login, nonce⟩ ::
      match token with
      | .error _ => []
      | .ok () => upload.toList.flatMap (signedByUpload S device)
  | get nonce => signedByGet nonce
  | post data nonce => signedByPost data nonce
  | postNewKeybundles upload => signedByUpload S device upload

end Trace

/-! ## Lengths -/

/-- **The body of a `post` is longer than a prekey**: the nonce alone is 48
digits. -/
theorem length_requestBody {data : Json} {nonce : RequestNonce} {body : List UInt8}
    (h : requestBody data nonce = .ok body) : 32 < body.length := by
  obtain ⟨requestJson, hins, h⟩ := exists_of_bind_eq_ok h
  obtain ⟨members, rfl, hmem⟩ : ∃ members, requestJson = .obj members
      ∧ ("nonce", Json.str (bin2hex nonce.1)) ∈ members := by
    cases data with
    | obj members => exact ⟨_, (Except.ok.inj hins).symm, List.mem_cons_self⟩
    | null => exact ⟨_, (Except.ok.inj hins).symm, List.mem_cons_self⟩
    | _ => cases hins
  cases hdump : (Json.obj members).dump with
  | none =>
    rw [hdump] at h
    cases h
  | some text =>
    rw [hdump] at h
    obtain ⟨t, ht, hlt⟩ := Json.length_dump_of_member hdump hmem
    rw [Json.dump] at ht
    have hnonce := Json.length_dumpString ht
    rw [length_bin2hex, nonce.2] at hnonce
    rw [← Except.ok.inj h, List.length_map]
    omega

section Lengths

variable {S : Sodium Key} {device : Key × Key} {e : SignedString}

/-- What a purpose says of the length. -/
def SignedString.Fits (e : SignedString) : Prop :=
  match e.purpose with
  | .login => True
  | .request => e.message.length ≠ 32
  | .prekey => e.message.length = 32

theorem fits_of_signedByPost (data : Json) (nonce : RequestNonce)
    (he : e ∈ signedByPost data nonce) : e.Fits := by
  unfold signedByPost at he
  split at he
  · rename_i body hbody
    obtain rfl := List.mem_singleton.mp he
    exact (length_requestBody hbody).ne'
  · cases he

theorem fits_of_signedByUpload {upload : KeyUpload} (he : e ∈ signedByUpload S device upload) :
    e.Fits := by
  rcases List.mem_append.mp he with he | he
  · obtain ⟨pk, -, rfl⟩ := List.mem_map.mp he
    exact pk.2
  · exact fits_of_signedByPost _ _ he

/-- **Whatever is signed fits its purpose.** -/
theorem SigningCall.fits {c : SigningCall} (he : e ∈ c.signed S device) : e.Fits := by
  cases c with
  | get nonce =>
    obtain rfl := List.mem_singleton.mp he
    show nonce.1.length ≠ 32
    rw [nonce.2]
    decide
  | post data nonce => exact fits_of_signedByPost data nonce he
  | postNewKeybundles upload => exact fits_of_signedByUpload he
  | loginUser reply token upload =>
    simp only [signed] at he
    cases hnonce : postRequestLogin reply with
    | error f =>
      rw [hnonce] at he
      cases he
    | ok nonce =>
      rw [hnonce] at he
      rcases List.mem_cons.mp he with rfl | he
      · trivial
      · cases token with
        | error f => cases he
        | ok _ =>
          obtain ⟨u, -, he⟩ := List.mem_flatMap.mp he
          exact fits_of_signedByUpload he

end Lengths

/-! ## The result -/

/-- **What a peer takes for a prekey.** Of everything the device key signs in
any calls, whatever the server answers, a signature passes the check of a
signed prekey – in a bundle of the device, for some 32-byte key – exactly if
it was made for a prekey, or for a login nonce of 32 bytes; and the key is
then what was signed. -/
theorem accepted_iff {S : Sodium Key} {sig : DetachedSignature S} (hsig : sig.Ideal) (sk : Key)
    (calls : List SigningCall) (e : SignedString)
    (he : e ∈ calls.flatMap (SigningCall.signed S (S.signPublic sk, sk))) :
    ((∃ b : SendingKeyBundle Key, b.theirDevicePublic = S.signPublic sk
        ∧ b.theirSignedSignature = sig.sign sk e.message ∧ b.verifies S = true)
      ↔ e.purpose = .prekey ∨ (e.purpose = .login ∧ e.message.length = 32))
    ∧ ∀ b : SendingKeyBundle Key, b.theirDevicePublic = S.signPublic sk →
      b.theirSignedSignature = sig.sign sk e.message → b.verifies S = true →
        b.theirSignedPublic.1 = e.message := by
  obtain ⟨c, -, he⟩ := List.mem_flatMap.mp he
  have hfits := SigningCall.fits he
  have hsame : ∀ b : SendingKeyBundle Key, b.theirDevicePublic = S.signPublic sk →
      b.theirSignedSignature = sig.sign sk e.message →
        (b.verifies S = true ↔ b.theirSignedPublic.1 = e.message) := by
    intro b hdev hs
    rw [SendingKeyBundle.verifies, hdev, hs, sig.verify_key]
    exact hsig sk e.message b.theirSignedPublic.1
  refine ⟨⟨?_, fun h => ?_⟩, fun b hdev hs => (hsame b hdev hs).mp⟩
  · rintro ⟨b, hdev, hs, hv⟩
    have hlen : e.message.length = 32 := by
      rw [← (hsame b hdev hs).mp hv]
      exact b.theirSignedPublic.2
    unfold SignedString.Fits at hfits
    cases hp : e.purpose with
    | prekey => exact Or.inl rfl
    | login => exact Or.inr ⟨rfl, hlen⟩
    | request =>
      rw [hp] at hfits
      exact absurd hlen hfits
  · have hlen : e.message.length = 32 := by
      rcases h with hp | ⟨-, hlen⟩
      · unfold SignedString.Fits at hfits
        rwa [hp] at hfits
      · exact hlen
    exact ⟨⟨0, 0, 0, S.signPublic sk, ⟨e.message, hlen⟩, none, sig.sign sk e.message⟩, rfl, rfl,
      (hsame _ rfl rfl).mpr rfl⟩

/-! ## The nonce that is a prekey -/

/-- Signatures of byte strings in the library over arrays. -/
def DetachedSignature.bytes : DetachedSignature Sodium.bytes where
  sign sk m := sk.1 ++ m
  verify s m pk := s = pk.1 ++ m
  sign_key _ _ := rfl
  verify_key _ _ _ := rfl

theorem DetachedSignature.bytes_ideal : DetachedSignature.bytes.Ideal := by
  intro sk m m'
  show decide (sk.1 ++ m = sk.1 ++ m') = true ↔ m' = m
  rw [decide_eq_true_iff, List.append_cancel_left_eq, eq_comm]

/-- A server that has a login sign 32 bytes of its choice. -/
def chosenNonce : SigningCall :=
  .loginUser (.ok (.obj [("data", .obj [("nonce", .str (Key.repeated 7).hex)])])) (.ok ()) none

/-- The bundle it then makes of the device. -/
def chosenBundle : SendingKeyBundle Key where
  myDevicePublic := .repeated 5
  myEphemeralPublic := .repeated 6
  myEphemeralPrivate := .repeated 6
  theirDevicePublic := .repeated 1
  theirSignedPublic := .repeated 7
  theirOnetimePublic := none
  theirSignedSignature := DetachedSignature.bytes.sign (.repeated 1) (Key.repeated 7).1

/-- **A login signs the server's prekey**: nothing but the nonce is signed,
and a peer makes a secret of the bundle. -/
theorem accepted_of_chosenNonce :
    chosenNonce.signed Sodium.bytes (.repeated 1, .repeated 1)
        = [⟨.login, (Key.repeated 7).1⟩]
      ∧ chosenBundle.verifies Sodium.bytes = true
      ∧ (chosenBundle.getSharedSecret Sodium.bytes (.repeated 5 [])).isOk = true := by
  decide +kernel

/-- A session of requests and the device's own prekey. -/
theorem accepted_iff_prekey :
    ∃ b : SendingKeyBundle Key, b.theirDevicePublic = .repeated 1
      ∧ b.theirSignedSignature = DetachedSignature.bytes.sign (.repeated 1) (Key.repeated 9).1
      ∧ b.verifies Sodium.bytes = true := by
  have hmem : ⟨.prekey, (Key.repeated 9).1⟩ ∈
      [SigningCall.get ⟨List.replicate 24 0, rfl⟩, chosenNonce,
        .postNewKeybundles ⟨some (.repeated 9), [], ⟨List.replicate 24 1, rfl⟩⟩].flatMap
          (SigningCall.signed Sodium.bytes
            (Sodium.bytes.signPublic (.repeated 1), .repeated 1)) := by
    decide +kernel
  exact (accepted_iff DetachedSignature.bytes_ideal (.repeated 1) _ _ hmem).1.mpr (Or.inl rfl)
