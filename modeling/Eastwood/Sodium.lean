import Mathlib.Data.Nat.Pairing
import Mathlib.Logic.Encodable.Basic
import Mathlib.Logic.Equiv.List
import Mathlib.Tactic

/-!
# What the program takes from libsodium

The key exchange computes with 32-byte arrays and a handful of libsodium
calls. The type `K` of such an array and the calls are parameters of the
model (`Sodium`); the all-zero array is `0`. What a result relies on is a
named property of the parameter, each of them documented behaviour of the
library: X25519 commutes, it accepts every public key made by
`crypto_box_keypair`, the hash and the key derivation are injective.

A call of the program either returns, throws, or runs into behaviour the
language leaves undefined; `Fault` names the last two. A `Fault` of the
second kind ends the run: nothing after it is specified.

`Sodium.ideal` is a libsodium over the natural numbers in which every value
codes the computation that made it. It satisfies every named property at
once, so that no result below is about an empty class of libraries.
-/

/-- How a call fails. -/
inductive Fault where
  /-- `throw std::runtime_error(what)`. -/
  | runtimeError (what : String)
  /-- `nlohmann::json::type_error`, thrown by `get<T>()` on a value of
  another type. -/
  | typeError
  /-- Undefined behaviour: signed overflow of an `int`. -/
  | signedOverflow
  /-- Undefined behaviour: dereferencing a null pointer. -/
  | nullDereference
  /-- Undefined behaviour: `operator[]` of a constant JSON object with a key
  it does not have. -/
  | absentMember
  deriving DecidableEq, Repr

/-- Whether the language leaves the rest of the run undefined. -/
def Fault.isUndefined : Fault → Bool
  | runtimeError _ | typeError => false
  | signedOverflow | nullDereference | absentMember => true

/-! ## Computations that can fail -/

section Computations

variable {α β : Type}

@[simp] theorem ok_bind (a : α) (f : α → Except Fault β) :
    ((.ok a : Except Fault α) >>= f) = f a := rfl

@[simp] theorem error_bind (e : Fault) (f : α → Except Fault β) :
    ((.error e : Except Fault α) >>= f) = .error e := rfl

/-- A computation that returned ran its first step. -/
theorem exists_of_bind_eq_ok {m : Except Fault α} {f : α → Except Fault β} {y : β}
    (h : (m >>= f) = .ok y) : ∃ x, m = .ok x ∧ f x = .ok y := by
  cases m with
  | error e => cases h
  | ok x => exact ⟨x, rfl, h⟩

/-- A computation that is `isOk` returned something. -/
theorem exists_of_isOk {m : Except Fault α} (h : m.isOk) : ∃ x, m = .ok x := by
  cases m with
  | error e => cases h
  | ok x => exact ⟨x, rfl⟩

end Computations

/-! ## The calls -/

/-- The largest `int`. -/
def intMax : ℤ := 2 ^ 31 - 1

/-- The contexts passed to `crypto_kdf_derive_from_key`. -/
inductive KdfContext where
  /-- `"DRXsend1"`. -/
  | drxSend1
  /-- `"DRXrecv1"`. -/
  | drxRecv1
  /-- `"DRXroot1"`. -/
  | drxRoot1
  /-- `"DHRatchet"`, of which libsodium reads the first eight bytes. -/
  | dhRatchet
  /-- `"DRSndKey"`. -/
  | drSndKey
  deriving DecidableEq, Repr

/-- **The libsodium calls of the key exchange**, over 32-byte arrays `K`. -/
structure Sodium (K : Type) where
  /-- The public half `crypto_box_keypair` makes of a private key. -/
  boxPublic : K → K
  /-- `crypto_scalarmult` of a private and a public key; `none` is a
  non-zero return. -/
  scalarmult : K → K → Option K
  /-- `crypto_generichash` of a concatenation of arrays. -/
  generichash : List K → K
  /-- `crypto_kdf_derive_from_key` of a key, a subkey id and a context. -/
  kdf : K → ℕ → KdfContext → K
  /-- The public half `crypto_sign_keypair` makes of a private key. -/
  signPublic : K → K
  /-- `crypto_sign_ed25519_sk_to_curve25519`. -/
  skToCurve25519 : K → Option K
  /-- `crypto_sign_ed25519_pk_to_curve25519`. -/
  pkToCurve25519 : K → Option K
  /-- `crypto_sign_detached` of an array with a private key. -/
  signDetached : K → K → List UInt8
  /-- `crypto_sign_verify_detached` of a signature, an array and a public
  key. -/
  verifyDetached : List UInt8 → K → K → Bool

namespace Sodium

variable {K : Type}

/-- X25519 commutes: the two ends of an exchange compute the same value. -/
def Commutes (S : Sodium K) : Prop :=
  ∀ x y, S.scalarmult x (S.boxPublic y) = S.scalarmult y (S.boxPublic x)

/-- X25519 accepts every public key made by `crypto_box_keypair`: only
points of low order are refused. -/
def AcceptsKeyPairs (S : Sodium K) : Prop :=
  ∀ x y, (S.scalarmult x (S.boxPublic y)).isSome

/-- X25519 refuses the all-zero public key. -/
def RejectsZero [Zero K] (S : Sodium K) : Prop := ∀ x, S.scalarmult x 0 = none

/-- The hash is injective. -/
def HashInjective (S : Sodium K) : Prop := Function.Injective S.generichash

/-- The key derivation is injective in the key, the subkey id and the
context together. -/
def KdfInjective (S : Sodium K) : Prop :=
  ∀ ⦃k i c k' i' c'⦄, S.kdf k i c = S.kdf k' i' c' → k = k' ∧ i = i' ∧ c = c'

/-- The conversions to X25519 turn an Ed25519 key pair into an X25519 key
pair. -/
def ConvertsKeyPairs (S : Sodium K) : Prop :=
  ∀ sk, ∃ x, S.skToCurve25519 sk = some x ∧
    S.pkToCurve25519 (S.signPublic sk) = some (S.boxPublic x)

/-- A signature verifies under the public half of the key that made it. -/
def VerifiesSigned (S : Sodium K) : Prop :=
  ∀ sk m, S.verifyDetached (S.signDetached sk m) m (S.signPublic sk) = true

/-! ## An ideal library

Values are natural numbers. The residue modulo 8 says which computation made
a value – 0 for a drawn secret – and the quotient codes its arguments, so no
two computations meet. -/

/-- A number for each context. -/
def contextCode : KdfContext → ℕ
  | .drxSend1 => 0
  | .drxRecv1 => 1
  | .drxRoot1 => 2
  | .dhRatchet => 3
  | .drSndKey => 4

theorem code_injective : Function.Injective contextCode := by
  intro c d h
  cases c <;> cases d <;> first | rfl | exact absurd h (by decide)

/-- **The ideal library**: every value codes the computation that made
it. -/
def ideal : Sodium ℕ where
  boxPublic x := 8 * x + 1
  scalarmult x B :=
    if B % 8 = 1 then some (8 * Nat.pair (min x (B / 8)) (max x (B / 8)) + 2) else none
  generichash l := 8 * Encodable.encode l + 3
  kdf k i c := 8 * Nat.pair (Nat.pair k i) (contextCode c) + 4
  signPublic sk := 8 * sk + 5
  skToCurve25519 sk := some (8 * sk + 6)
  pkToCurve25519 B := if B % 8 = 5 then some (8 * (8 * (B / 8) + 6) + 1) else none
  signDetached sk m := List.replicate (Nat.pair sk m) 0
  verifyDetached s m B := B % 8 = 5 && s.length = Nat.pair (B / 8) m

theorem ideal_scalarmult (x y : ℕ) :
    ideal.scalarmult x (ideal.boxPublic y)
      = some (8 * Nat.pair (min x y) (max x y) + 2) := by
  have h1 : (8 * y + 1) % 8 = 1 := by omega
  have h2 : (8 * y + 1) / 8 = y := by omega
  simp only [ideal, h1, h2, if_true]

theorem ideal_commutes : ideal.Commutes := by
  intro x y
  rw [ideal_scalarmult, ideal_scalarmult, min_comm, max_comm]

theorem ideal_acceptsKeyPairs : ideal.AcceptsKeyPairs := by
  intro x y
  rw [ideal_scalarmult]
  rfl

theorem ideal_rejectsZero : ideal.RejectsZero := fun _ => rfl

theorem ideal_hashInjective : ideal.HashInjective := by
  intro l m h
  have h' : 8 * Encodable.encode l + 3 = 8 * Encodable.encode m + 3 := h
  exact Encodable.encode_injective (by omega)

theorem ideal_kdfInjective : ideal.KdfInjective := by
  intro k i c k' i' c' h
  have h' : 8 * Nat.pair (Nat.pair k i) (contextCode c) + 4
      = 8 * Nat.pair (Nat.pair k' i') (contextCode c') + 4 := h
  obtain ⟨h1, h2⟩ := Nat.pair_eq_pair.mp
    (show Nat.pair (Nat.pair k i) (contextCode c) = Nat.pair (Nat.pair k' i') (contextCode c') by
      omega)
  obtain ⟨hk, hi⟩ := Nat.pair_eq_pair.mp h1
  exact ⟨hk, hi, code_injective h2⟩

theorem ideal_convertsKeyPairs : ideal.ConvertsKeyPairs := by
  intro sk
  have h1 : (8 * sk + 5) % 8 = 5 := by omega
  have h2 : (8 * sk + 5) / 8 = sk := by omega
  exact ⟨8 * sk + 6, rfl, by simp only [ideal, h1, h2, if_true]⟩

end Sodium
