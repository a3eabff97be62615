import Eastwood.Sodium

/-!
# The X3DH key agreement

Both sides of a handshake compute one hash of four Diffie–Hellman outputs:
the initiator from its identity and ephemeral private keys and the other's
public ones, the responder the other way round. Without a one-time prekey the
fourth output is the zero array.

The two agree (`x3dhResponder_eq`) whenever the public keys each side was
given are the halves of the private keys the other holds, and neither fails
(`x3dhInitiator_isOk`).
-/

variable {K : Type} [Zero K] (S : Sodium K)

/-- The result of a call that returns non-zero on failure, thrown with
`what`. -/
def orThrow {α : Type} (what : String) : Option α → Except Fault α
  | some a => .ok a
  | none => .error (.runtimeError what)

@[simp] theorem orThrow_some_bind {α β : Type} (what : String) (a : α)
    (f : α → Except Fault β) : (orThrow what (some a) >>= f) = f a := rfl

@[simp] theorem orThrow_none_bind {α β : Type} (what : String) (f : α → Except Fault β) :
    (orThrow what none >>= f) = .error (.runtimeError what) := rfl

/-- **`x3dh_initiator`.** -/
def x3dhInitiator (myIdentityKeyPrivate myEphemeralKeyPrivate recipientIdentityKeyPublic
    recipientSignedPrekeyPublic : K) (recipientOnetimePrekeyPublic : Option K) :
    Except Fault K := do
  let myIdX25519Sk ← orThrow "Failed to convert my identity private key to X25519"
    (S.skToCurve25519 myIdentityKeyPrivate)
  let dh1 ← orThrow "DH1 failed" (S.scalarmult myIdX25519Sk recipientSignedPrekeyPublic)
  let theirIdX25519Pk ← orThrow "Failed to convert recipient identity public key to X25519"
    (S.pkToCurve25519 recipientIdentityKeyPublic)
  let dh2 ← orThrow "DH2 failed" (S.scalarmult myEphemeralKeyPrivate theirIdX25519Pk)
  let dh3 ← orThrow "DH3 failed"
    (S.scalarmult myEphemeralKeyPrivate recipientSignedPrekeyPublic)
  let dh4 ← match recipientOnetimePrekeyPublic with
    | some onetime => orThrow "DH4 failed" (S.scalarmult myEphemeralKeyPrivate onetime)
    | none => .ok 0
  return S.generichash [dh1, dh2, dh3, dh4]

/-- **`x3dh_responder`.** The one-time private key is an optional pointer:
`some none` is a pointer that is there and null, and reading through it is
undefined. -/
def x3dhResponder (initiatorIdentityKeyPublic initiatorEphemeralKeyPublic
    myIdentityKeyPrivate mySignedPrekeyPrivate : K)
    (myOnetimePrekeyPrivate : Option (Option K)) : Except Fault K := do
  let theirIdX25519Pk ← orThrow "Failed to convert initiator identity public key to X25519"
    (S.pkToCurve25519 initiatorIdentityKeyPublic)
  let dh1 ← orThrow "DH1 failed" (S.scalarmult mySignedPrekeyPrivate theirIdX25519Pk)
  let myIdX25519Sk ← orThrow "Failed to convert my identity private key to X25519"
    (S.skToCurve25519 myIdentityKeyPrivate)
  let dh2 ← orThrow "DH2 failed" (S.scalarmult myIdX25519Sk initiatorEphemeralKeyPublic)
  let dh3 ← orThrow "DH3 failed"
    (S.scalarmult mySignedPrekeyPrivate initiatorEphemeralKeyPublic)
  let dh4 ← match myOnetimePrekeyPrivate with
    | some (some onetime) =>
      orThrow "DH4 failed" (S.scalarmult onetime initiatorEphemeralKeyPublic)
    | some none => .error .nullDereference
    | none => .ok 0
  return S.generichash [dh1, dh2, dh3, dh4]

section Agreement

variable {S}

/-- **The initiator's agreement succeeds** on public keys made from private
ones. -/
theorem x3dhInitiator_isOk (hA : S.AcceptsKeyPairs) (hC : S.ConvertsKeyPairs)
    (identity ephemeral theirIdentity theirSigned : K) (onetime : Option K) :
    ∃ secret, x3dhInitiator S identity ephemeral (S.signPublic theirIdentity)
      (S.boxPublic theirSigned) (onetime.map S.boxPublic) = .ok secret := by
  obtain ⟨x, hx, -⟩ := hC identity
  obtain ⟨y, -, hy⟩ := hC theirIdentity
  obtain ⟨d1, h1⟩ := Option.isSome_iff_exists.mp (hA x theirSigned)
  obtain ⟨d2, h2⟩ := Option.isSome_iff_exists.mp (hA ephemeral y)
  obtain ⟨d3, h3⟩ := Option.isSome_iff_exists.mp (hA ephemeral theirSigned)
  cases onetime with
  | none =>
    refine ⟨S.generichash [d1, d2, d3, 0], ?_⟩
    simp only [x3dhInitiator, hx, hy, h1, h2, h3, orThrow_some_bind, Option.map_none, ok_bind]
    rfl
  | some o =>
    obtain ⟨d4, h4⟩ := Option.isSome_iff_exists.mp (hA ephemeral o)
    refine ⟨S.generichash [d1, d2, d3, d4], ?_⟩
    simp only [x3dhInitiator, hx, hy, h1, h2, h3, h4, orThrow_some_bind, Option.map_some]
    rfl

/-- A one-time prekey X25519 refuses fails the initiator's agreement. -/
theorem x3dhInitiator_refused (hA : S.AcceptsKeyPairs) (hC : S.ConvertsKeyPairs)
    (identity ephemeral theirIdentity theirSigned : K) {onetime : K}
    (ho : S.scalarmult ephemeral onetime = none) :
    x3dhInitiator S identity ephemeral (S.signPublic theirIdentity) (S.boxPublic theirSigned)
      (some onetime) = .error (.runtimeError "DH4 failed") := by
  obtain ⟨x, hx, -⟩ := hC identity
  obtain ⟨y, -, hy⟩ := hC theirIdentity
  obtain ⟨d1, h1⟩ := Option.isSome_iff_exists.mp (hA x theirSigned)
  obtain ⟨d2, h2⟩ := Option.isSome_iff_exists.mp (hA ephemeral y)
  obtain ⟨d3, h3⟩ := Option.isSome_iff_exists.mp (hA ephemeral theirSigned)
  simp only [x3dhInitiator, hx, hy, h1, h2, h3, ho, orThrow_some_bind, orThrow_none_bind]

/-- **The two sides agree**: given the public halves of the initiator's keys,
and its own private ones, the responder computes what the initiator does. -/
theorem x3dhResponder_eq (hS : S.Commutes) (hA : S.AcceptsKeyPairs) (hC : S.ConvertsKeyPairs)
    (identity ephemeral theirIdentity theirSigned : K) (onetime : Option K) :
    x3dhResponder S (S.signPublic identity) (S.boxPublic ephemeral) theirIdentity theirSigned
        (onetime.map some)
      = x3dhInitiator S identity ephemeral (S.signPublic theirIdentity)
          (S.boxPublic theirSigned) (onetime.map S.boxPublic) := by
  obtain ⟨x, hx, hx'⟩ := hC identity
  obtain ⟨y, hy, hy'⟩ := hC theirIdentity
  obtain ⟨d1, h1⟩ := Option.isSome_iff_exists.mp (hA x theirSigned)
  obtain ⟨d2, h2⟩ := Option.isSome_iff_exists.mp (hA ephemeral y)
  obtain ⟨d3, h3⟩ := Option.isSome_iff_exists.mp (hA ephemeral theirSigned)
  have h1' := (hS theirSigned x).trans h1
  have h2' := (hS y ephemeral).trans h2
  have h3' := (hS theirSigned ephemeral).trans h3
  cases onetime with
  | none =>
    simp only [x3dhInitiator, x3dhResponder, hx, hx', hy, hy', h1, h2, h3, h1', h2', h3',
      orThrow_some_bind, Option.map_none]
  | some o =>
    simp only [x3dhInitiator, x3dhResponder, hx, hx', hy, hy', h1, h2, h3, h1', h2', h3',
      hS o ephemeral, orThrow_some_bind, Option.map_some]

end Agreement
