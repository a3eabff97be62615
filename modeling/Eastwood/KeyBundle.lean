import Eastwood.Session
import Eastwood.X3dh

/-!
# Key bundles

A device holds its own key pairs in a `KeyStore`; a key bundle is what it
knows of another device, and makes a ratchet out of: a `SendingKeyBundle` on
the side that starts the session, from the keys the other side published, a
`ReceivingKeyBundle` on the other side, from the handshake it was sent.

Both compute the X3DH secret and hand it to the ratchet's constructor, which
copies it into the root key and then overwrites the root key. Two bundles
that agree on the ephemeral and the signed-prekey pair hence make the same
ratchet (`KeyBundle.createRatchet_eq`), whatever the secrets are, and two
sessions that differ in nothing but the secret return the same keys forever
(`KeyBundle.not_keysDiffer`).
-/

variable {K : Type}

/-! ## The local key store -/

/-- The labels of the key pairs a device holds. -/
inductive KeyLabel where
  | device
  | signed
  deriving DecidableEq, Repr

/-- As written in the `label` column. -/
def KeyLabel.text : KeyLabel → String
  | device => "device"
  | signed => "signed"

/-- **The private keys of a device**: one row a label in `keypairs`, and the
rows of `onetime_prekeys`, public key first. -/
structure KeyStore (K : Type) where
  keypairs : KeyLabel → Option (K × K)
  onetimePrekeys : List (K × K)

namespace KeyStore

variable (ks : KeyStore K)

/-- `get_decrypted_keypair`. -/
def getDecryptedKeypair (label : KeyLabel) : Except Fault (K × K) :=
  orThrow ("No keys found for label " ++ label.text) (ks.keypairs label)

/-- `get_public_key`. -/
def getPublicKey (label : KeyLabel) : Except Fault K := do
  return (← ks.getDecryptedKeypair label).1

/-- `get_decrypted_sk`. -/
def getDecryptedSk (label : KeyLabel) : Except Fault K := do
  return (← ks.getDecryptedKeypair label).2

section Loaded

variable {ks} {label : KeyLabel} {kp : K × K} (h : ks.keypairs label = some kp)

include h

/-- A key pair that is stored is loaded. -/
theorem getDecryptedKeypair_eq : ks.getDecryptedKeypair label = .ok kp := by
  rw [getDecryptedKeypair, h]
  rfl

theorem getPublicKey_eq : ks.getPublicKey label = .ok kp.1 := by
  rw [getPublicKey, getDecryptedKeypair_eq h]
  rfl

theorem getDecryptedSk_eq : ks.getDecryptedSk label = .ok kp.2 := by
  rw [getDecryptedSk, getDecryptedKeypair_eq h]
  rfl

end Loaded

/-- A public key that was loaded is of a pair that is stored. -/
theorem exists_of_getPublicKey {ks : KeyStore K} {label : KeyLabel} {pub : K}
    (h : ks.getPublicKey label = .ok pub) : ∃ kp, ks.keypairs label = some kp := by
  cases hkp : ks.keypairs label with
  | some kp => exact ⟨kp, rfl⟩
  | none =>
    rw [getPublicKey, getDecryptedKeypair, hkp] at h
    cases h

/-- `get_onetime_private_key`: a null pointer when there is no such row. -/
def getOnetimePrivateKey [DecidableEq K] (publicKey : K) : Option K :=
  (ks.onetimePrekeys.find? (·.1 = publicKey)).map (·.2)

end KeyStore

/-! ## Bundles -/

inductive Role where
  | initiator
  | responder
  deriving DecidableEq, Repr

/-- What the initiating side knows. -/
structure SendingKeyBundle (K : Type) where
  myDevicePublic : K
  myEphemeralPublic : K
  myEphemeralPrivate : K
  theirDevicePublic : K
  theirSignedPublic : K
  theirOnetimePublic : Option K
  theirSignedSignature : List UInt8
  deriving DecidableEq

/-- **The bundle of a device on offer**, with a key pair drawn for it. A
one-time prekey that is not there is passed on as zeros. -/
def SendingKeyBundle.offered [Zero K] (S : Sodium K) (me ephemeral theirDevicePublic
    theirSignedPublic : K) (onetime : Option K) (signature : List UInt8) :
    SendingKeyBundle K where
  myDevicePublic := me
  myEphemeralPublic := S.boxPublic ephemeral
  myEphemeralPrivate := ephemeral
  theirDevicePublic := theirDevicePublic
  theirSignedPublic := theirSignedPublic
  theirOnetimePublic := some (onetime.getD 0)
  theirSignedSignature := signature

/-- What the responding side knows. -/
structure ReceivingKeyBundle (K : Type) where
  theirDevicePublic : K
  theirEphemeralPublic : K
  myDevicePublic : K
  myOnetimePublic : Option K
  deriving DecidableEq

/-- The receiving bundle of the handshake a sending bundle posts, for the
device keys of its two ends. -/
def SendingKeyBundle.relayed (b : SendingKeyBundle K) (initiator recipient : K) :
    ReceivingKeyBundle K where
  theirDevicePublic := initiator
  theirEphemeralPublic := b.myEphemeralPublic
  myDevicePublic := recipient
  myOnetimePublic := b.theirOnetimePublic

/-- **A key bundle** of either role. -/
inductive KeyBundle (K : Type) where
  | sending (bundle : SendingKeyBundle K)
  | receiving (bundle : ReceivingKeyBundle K)
  deriving DecidableEq

variable [Zero K] [DecidableEq K] (S : Sodium K) (ks : KeyStore K)

omit [DecidableEq K] in
/-- `SendingKeyBundle::get_shared_secret`. The private device key and its
public half are loaded once more than needed, for a debug line. -/
def SendingKeyBundle.getSharedSecret (b : SendingKeyBundle K) : Except Fault K := do
  let _ ← ks.getDecryptedSk .device
  let _ ← ks.getPublicKey .device
  if S.verifyDetached b.theirSignedSignature b.theirSignedPublic b.theirDevicePublic then
    let sk ← ks.getDecryptedSk .device
    x3dhInitiator S sk b.myEphemeralPrivate b.theirDevicePublic b.theirSignedPublic
      b.theirOnetimePublic
  else .error (.runtimeError "Invalid signature on signed prekey")

/-- `ReceivingKeyBundle::get_shared_secret`. -/
def ReceivingKeyBundle.getSharedSecret (b : ReceivingKeyBundle K) : Except Fault K := do
  let _ ← ks.getDecryptedSk .device
  let _ ← ks.getPublicKey .device
  let _ ← ks.getDecryptedSk .signed
  let _ ← ks.getPublicKey .signed
  let device ← ks.getDecryptedSk .device
  let signed ← ks.getDecryptedSk .signed
  x3dhResponder S b.theirDevicePublic b.theirEphemeralPublic device signed
    (b.myOnetimePublic.map ks.getOnetimePrivateKey)

omit [DecidableEq K] in
/-- `SendingKeyBundle::create_ratchet`. -/
def SendingKeyBundle.createRatchet (b : SendingKeyBundle K) : Except Fault (NewRatchet K) := do
  let sharedSecret ← b.getSharedSecret S ks
  NewRatchet.newInitiator S sharedSecret b.theirSignedPublic b.myEphemeralPublic
    b.myEphemeralPrivate

/-- `ReceivingKeyBundle::create_ratchet`. The constructor loads the signed
pair. -/
def ReceivingKeyBundle.createRatchet (b : ReceivingKeyBundle K) :
    Except Fault (NewRatchet K) := do
  let sharedSecret ← b.getSharedSecret S ks
  let signed ← ks.getDecryptedKeypair .signed
  NewRatchet.newRecipient S signed sharedSecret b.theirEphemeralPublic

namespace KeyBundle

omit [Zero K] [DecidableEq K] in
def getRole : KeyBundle K → Role
  | sending _ => .initiator
  | receiving _ => .responder

omit [Zero K] [DecidableEq K] in
def getTheirDevicePublic : KeyBundle K → K
  | sending b => b.theirDevicePublic
  | receiving b => b.theirDevicePublic

def getSharedSecret : KeyBundle K → Except Fault K
  | sending b => b.getSharedSecret S ks
  | receiving b => b.getSharedSecret S ks

def createRatchet : KeyBundle K → Except Fault (NewRatchet K)
  | sending b => b.createRatchet S ks
  | receiving b => b.createRatchet S ks

/-! ## The secret and the session -/

omit [Zero K] [DecidableEq K] in
/-- **Two bundles of one session**, whoever they authenticate: the same role,
the same ephemeral and the same signed-prekey pair. -/
inductive SameKeys (ks ks' : KeyStore K) : KeyBundle K → KeyBundle K → Prop
  | sending {b b' : SendingKeyBundle K} : b.myEphemeralPublic = b'.myEphemeralPublic →
      b.myEphemeralPrivate = b'.myEphemeralPrivate →
      b.theirSignedPublic = b'.theirSignedPublic → SameKeys ks ks' (.sending b) (.sending b')
  | receiving {b b' : ReceivingKeyBundle K} :
      b.theirEphemeralPublic = b'.theirEphemeralPublic →
      ks.keypairs .signed = ks'.keypairs .signed →
      SameKeys ks ks' (.receiving b) (.receiving b')

end KeyBundle

/-- **Two ratchets whose keys differ**: no call, of any sequence made to
both, returns the same message key in one as in the other. -/
def NewRatchet.KeysDiffer (r r' : NewRatchet K) : Prop :=
  ∀ calls (i : ℕ) k k', (replies S calls r)[i]? = some (.ok k) →
    (replies S calls r')[i]? = some (.ok k') → k ≠ k'

section Secret

variable {S} {ks ks' : KeyStore K} {b b' : KeyBundle K} {r r' : NewRatchet K}

/-- A created ratchet has nothing due and has sent nothing. -/
theorem KeyBundle.createRatchet_fresh (h : b.createRatchet S ks = .ok r) :
    ∃ p x pub priv remote, r = NewRatchet.initial S p x pub priv remote := by
  cases b with
  | sending b =>
    obtain ⟨secret, -, h⟩ := exists_of_bind_eq_ok h
    obtain ⟨x, -, rfl⟩ := NewRatchet.exists_of_newInitiator S h
    exact ⟨_, _, _, _, _, rfl⟩
  | receiving b =>
    obtain ⟨secret, -, h⟩ := exists_of_bind_eq_ok h
    obtain ⟨signed, -, h⟩ := exists_of_bind_eq_ok h
    obtain ⟨x, -, rfl⟩ := NewRatchet.exists_of_newRecipient S h
    exact ⟨_, _, _, _, _, rfl⟩

/-- **The secret does not reach the ratchet**: bundles with the same
ephemeral and signed-prekey pairs make the same one. -/
theorem KeyBundle.createRatchet_eq (hb : SameKeys ks ks' b b')
    (h : b.createRatchet S ks = .ok r) (h' : b'.createRatchet S ks' = .ok r') : r = r' := by
  cases hb with
  | sending hpub hpriv hsigned =>
    obtain ⟨secret, -, h⟩ := exists_of_bind_eq_ok h
    obtain ⟨secret', -, h'⟩ := exists_of_bind_eq_ok h'
    rw [NewRatchet.newInitiator_eq] at h h'
    rw [hpub, hpriv, hsigned] at h
    exact Except.ok.inj (h.symm.trans h')
  | receiving heph hsigned =>
    obtain ⟨secret, -, h⟩ := exists_of_bind_eq_ok h
    obtain ⟨secret', -, h'⟩ := exists_of_bind_eq_ok h'
    obtain ⟨signed, hs, h⟩ := exists_of_bind_eq_ok h
    obtain ⟨signed', hs', h'⟩ := exists_of_bind_eq_ok h'
    rw [KeyStore.getDecryptedKeypair, hsigned] at hs
    obtain rfl : signed = signed' := Except.ok.inj (hs.symm.trans hs')
    rw [NewRatchet.newRecipient_eq] at h h'
    rw [heph] at h
    exact Except.ok.inj (h.symm.trans h')

/-- The first send of a new ratchet returns a key, so no ratchet differs from
itself. -/
theorem NewRatchet.not_keysDiffer_self (p : Party) (x pub priv remote : K) :
    ¬ (NewRatchet.initial S p x pub priv remote).KeysDiffer S
      (NewRatchet.initial S p x pub priv remote) :=
  fun h => h [.send] 0 _ _ rfl rfl rfl

/-- **The X3DH secret authenticates nothing.** Two bundles with the same
ephemeral and signed-prekey pairs, of either role and whatever their shared
secrets, make ratchets that return the same in every call of every sequence:
no two sessions differ in their keys. -/
theorem KeyBundle.not_keysDiffer (hb : SameKeys ks ks' b b')
    (h : b.createRatchet S ks = .ok r) (h' : b'.createRatchet S ks' = .ok r') :
    (∀ calls, NewRatchet.replies S calls r = NewRatchet.replies S calls r')
      ∧ ¬ r.KeysDiffer S r' := by
  obtain rfl := KeyBundle.createRatchet_eq hb h h'
  obtain ⟨p, x, pub, priv, remote, rfl⟩ := KeyBundle.createRatchet_fresh h
  exact ⟨fun _ => rfl, NewRatchet.not_keysDiffer_self p x pub priv remote⟩

end Secret

/-- The store of a device of the ideal library, its device key given and 16
its signed prekey. -/
def KeyStore.ideal (device : ℕ) : KeyStore ℕ where
  keypairs
    | .device => some (Sodium.ideal.signPublic device, device)
    | .signed => some (Sodium.ideal.boxPublic 16, 16)
  onetimePrekeys := []

/-- What device `device` sends device 3 a handshake with, and what device 3
receives. -/
def SendingKeyBundle.ideal (device : ℕ) : SendingKeyBundle ℕ where
  myDevicePublic := Sodium.ideal.signPublic device
  myEphemeralPublic := Sodium.ideal.boxPublic 8
  myEphemeralPrivate := 8
  theirDevicePublic := Sodium.ideal.signPublic 3
  theirSignedPublic := Sodium.ideal.boxPublic 16
  theirOnetimePublic := none
  theirSignedSignature := Sodium.ideal.signDetached 3 (Sodium.ideal.boxPublic 16)

def ReceivingKeyBundle.ideal (device : ℕ) : ReceivingKeyBundle ℕ where
  theirDevicePublic := Sodium.ideal.signPublic device
  theirEphemeralPublic := Sodium.ideal.boxPublic 8
  myDevicePublic := Sodium.ideal.signPublic 3
  myOnetimePublic := none

/-- Device 3 cannot tell a handshake of device 5 from one of device 6. -/
theorem KeyBundle.not_keysDiffer_receiving :
    ∃ r r' : NewRatchet ℕ,
      (ReceivingKeyBundle.ideal 5).getSharedSecret Sodium.ideal (.ideal 3)
        ≠ (ReceivingKeyBundle.ideal 6).getSharedSecret Sodium.ideal (.ideal 3)
      ∧ (∀ calls, NewRatchet.replies Sodium.ideal calls r
          = NewRatchet.replies Sodium.ideal calls r')
      ∧ ¬ r.KeysDiffer Sodium.ideal r' := by
  obtain ⟨r, hr⟩ := exists_of_isOk (by decide +kernel :
    ((ReceivingKeyBundle.ideal 5).createRatchet Sodium.ideal (.ideal 3)).isOk)
  obtain ⟨r', hr'⟩ := exists_of_isOk (by decide +kernel :
    ((ReceivingKeyBundle.ideal 6).createRatchet Sodium.ideal (.ideal 3)).isOk)
  refine ⟨r, r', by decide +kernel, ?_⟩
  have hkeys : KeyBundle.SameKeys (.ideal 3) (.ideal 3) (.receiving (.ideal 5))
      (.receiving (.ideal 6)) := .receiving rfl rfl
  exact KeyBundle.not_keysDiffer hkeys hr hr'

/-- Devices 5 and 6 send device 3 under the same ephemeral key: the secrets
differ, the keys do not. -/
theorem KeyBundle.not_keysDiffer_sending :
    ∃ r r' : NewRatchet ℕ,
      KeyBundle.SameKeys (.ideal 5) (.ideal 6) (.sending (.ideal 5)) (.sending (.ideal 6))
      ∧ (SendingKeyBundle.ideal 5).getSharedSecret Sodium.ideal (.ideal 5)
        ≠ (SendingKeyBundle.ideal 6).getSharedSecret Sodium.ideal (.ideal 6)
      ∧ (SendingKeyBundle.ideal 5).createRatchet Sodium.ideal (.ideal 5) = .ok r
      ∧ (SendingKeyBundle.ideal 6).createRatchet Sodium.ideal (.ideal 6) = .ok r'
      ∧ ¬ r.KeysDiffer Sodium.ideal r' := by
  obtain ⟨r, hr⟩ := exists_of_isOk (by decide +kernel :
    ((SendingKeyBundle.ideal 5).createRatchet Sodium.ideal (.ideal 5)).isOk)
  obtain ⟨r', hr'⟩ := exists_of_isOk (by decide +kernel :
    ((SendingKeyBundle.ideal 6).createRatchet Sodium.ideal (.ideal 6)).isOk)
  have hkeys : KeyBundle.SameKeys (.ideal 5) (.ideal 6) (.sending (.ideal 5))
      (.sending (.ideal 6)) := .sending rfl rfl rfl
  refine ⟨r, r', hkeys, by decide +kernel, hr, hr', ?_⟩
  obtain rfl := KeyBundle.createRatchet_eq hkeys hr hr'
  obtain ⟨p, x, pub, priv, remote, rfl⟩ :=
    KeyBundle.createRatchet_fresh (b := .sending (.ideal 5)) hr
  exact NewRatchet.not_keysDiffer_self p x pub priv remote
