import Eastwood.SendKeys
import Eastwood.X3dh

/-!
# Which keys a secret comes from

A handshake has five keys in it: two identities, the initiator's ephemeral
key, the responder's signed prekey and, or not, a one-time prekey. Each side
holds the private halves of its own and has been told the public halves of
the other's, and the two need not have the same five in mind
(`AgreementKeys`).

They compute the same secret if they have (`x3dhSecrets_agree`), for the
keys are compared as the Diffie–Hellman computations see them, an identity by
its X25519 half. For the other direction the hash and the computations have
to keep different inputs apart, and no key may be one side's in one role and
the other's in another: the four outputs then show every key behind them,
the zeros in place of the fourth that there was none.
-/

variable {K : Type}

/-! ## What the computations keep apart -/

namespace Sodium

/-- Computations on different pairs of key pairs give different results. -/
def DistinctOnKeyPairs (S : Sodium K) : Prop :=
  ∀ ⦃a b c d x⦄, S.scalarmult a (S.boxPublic b) = some x →
    S.scalarmult c (S.boxPublic d) = some x →
    ({S.boxPublic a, S.boxPublic b} : Set K) = {S.boxPublic c, S.boxPublic d}

/-- None of them gives zero. -/
def NonzeroOnKeyPairs [Zero K] (S : Sodium K) : Prop :=
  ∀ a b, S.scalarmult a (S.boxPublic b) ≠ some 0

theorem DhInjective.distinctOnKeyPairs {S : Sodium K} (h : S.DhInjective) :
    S.DistinctOnKeyPairs := fun _ _ _ _ _ hab hcd => h hab hcd

variable {S : Sodium K} {a b c d x : K}

/-- A computation depends on its key pairs by their public halves. -/
theorem Commutes.scalarmult_congr (hS : S.Commutes) (hac : S.boxPublic a = S.boxPublic c)
    (hbd : S.boxPublic b = S.boxPublic d) :
    S.scalarmult a (S.boxPublic b) = S.scalarmult c (S.boxPublic d) :=
  calc S.scalarmult a (S.boxPublic b) = S.scalarmult a (S.boxPublic d) := by rw [hbd]
    _ = S.scalarmult d (S.boxPublic a) := hS a d
    _ = S.scalarmult d (S.boxPublic c) := by rw [hac]
    _ = S.scalarmult c (S.boxPublic d) := hS d c

/-- **One result, the same key pairs**, each in its place, if the first of the
one is not the second of the other. -/
theorem DistinctOnKeyPairs.eq_and_eq (hD : S.DistinctOnKeyPairs)
    (h : S.scalarmult a (S.boxPublic b) = some x) (h' : S.scalarmult c (S.boxPublic d) = some x)
    (hne : S.boxPublic a ≠ S.boxPublic d) :
    S.boxPublic a = S.boxPublic c ∧ S.boxPublic b = S.boxPublic d := by
  rcases Set.pair_eq_pair_iff.mp (hD h h') with hsame | hcrossed
  · exact hsame
  · exact absurd hcrossed.1 hne

end Sodium

/-! ## The keys of a handshake -/

/-- What a key is used for. -/
inductive KeyRole where
  | identity
  | ephemeral
  | signedPrekey
  | onetimePrekey
  deriving DecidableEq

/-- **The five keys of a handshake**, as one side has them in mind: its own,
and those it takes the other to have. Each is given by a private half. -/
structure AgreementKeys (K : Type) where
  initiatorIdentity : K
  initiatorEphemeral : K
  responderIdentity : K
  signedPrekey : K
  onetimePrekey : Option K

namespace AgreementKeys

variable (S : Sodium K) (k k' : AgreementKeys K)

/-- The X25519 public key of an identity. -/
def identityPublic (identity : K) : Option K := S.pkToCurve25519 (S.signPublic identity)

/-- The X25519 public keys in a role. -/
def publics : KeyRole → List K
  | .identity =>
    (identityPublic S k.initiatorIdentity).toList ++ (identityPublic S k.responderIdentity).toList
  | .ephemeral => [S.boxPublic k.initiatorEphemeral]
  | .signedPrekey => [S.boxPublic k.signedPrekey]
  | .onetimePrekey => (k.onetimePrekey.map S.boxPublic).toList

/-- **No key has one role for the one side** and another for the other. -/
def RolesApart : Prop :=
  ∀ role role', ∀ p ∈ k.publics S role, p ∈ k'.publics S role' → role = role'

/-- **The keys of one side are the counterparts of the other's**: every public
key is the one of the private key in its place, and there is a one-time
prekey on both sides or on neither. -/
def Counterparts : Prop :=
  identityPublic S k.initiatorIdentity = identityPublic S k'.initiatorIdentity
    ∧ S.boxPublic k.initiatorEphemeral = S.boxPublic k'.initiatorEphemeral
    ∧ identityPublic S k.responderIdentity = identityPublic S k'.responderIdentity
    ∧ S.boxPublic k.signedPrekey = S.boxPublic k'.signedPrekey
    ∧ k.onetimePrekey.map S.boxPublic = k'.onetimePrekey.map S.boxPublic

variable [Zero K]

/-- The initiator's computation. -/
def initiatorSecret : Except Fault K :=
  x3dhInitiator S k.initiatorIdentity k.initiatorEphemeral (S.signPublic k.responderIdentity)
    (S.boxPublic k.signedPrekey) (k.onetimePrekey.map S.boxPublic)

/-- The responder's. -/
def responderSecret : Except Fault K :=
  x3dhResponder S (S.signPublic k.initiatorIdentity) (S.boxPublic k.initiatorEphemeral)
    k.responderIdentity k.signedPrekey (k.onetimePrekey.map some)

/-- **What the hash is taken of**: the X25519 halves of the identities, and
the four outputs. -/
structure Outputs where
  initiator : K
  responder : K
  dh1 : K
  dh2 : K
  dh3 : K
  dh4 : K
  identityPublic_initiator : identityPublic S k.initiatorIdentity = some (S.boxPublic initiator)
  identityPublic_responder : identityPublic S k.responderIdentity = some (S.boxPublic responder)
  dh1_eq : S.scalarmult initiator (S.boxPublic k.signedPrekey) = some dh1
  dh2_eq : S.scalarmult k.initiatorEphemeral (S.boxPublic responder) = some dh2
  dh3_eq : S.scalarmult k.initiatorEphemeral (S.boxPublic k.signedPrekey) = some dh3
  dh4_eq_zero : k.onetimePrekey = none → dh4 = 0
  dh4_eq : ∀ onetime, k.onetimePrekey = some onetime →
    S.scalarmult k.initiatorEphemeral (S.boxPublic onetime) = some dh4

variable {S k k'}

/-- **The initiator hashes the outputs** of its keys, -/
theorem exists_outputs (hA : S.AcceptsKeyPairs) (hC : S.ConvertsKeyPairs) (k : AgreementKeys K) :
    ∃ o : k.Outputs S, k.initiatorSecret S = .ok (S.generichash [o.dh1, o.dh2, o.dh3, o.dh4]) := by
  obtain ⟨x, hx, hx'⟩ := hC k.initiatorIdentity
  obtain ⟨y, -, hy⟩ := hC k.responderIdentity
  obtain ⟨d1, h1⟩ := Option.isSome_iff_exists.mp (hA x k.signedPrekey)
  obtain ⟨d2, h2⟩ := Option.isSome_iff_exists.mp (hA k.initiatorEphemeral y)
  obtain ⟨d3, h3⟩ := Option.isSome_iff_exists.mp (hA k.initiatorEphemeral k.signedPrekey)
  cases ho : k.onetimePrekey with
  | none =>
    refine ⟨⟨x, y, d1, d2, d3, 0, hx', hy, h1, h2, h3, fun _ => rfl, fun onetime h => ?_⟩, ?_⟩
    · rw [ho] at h
      cases h
    · simp only [initiatorSecret, x3dhInitiator, hx, hy, h1, h2, h3, ho, orThrow_some_bind,
        Option.map_none, ok_bind]
      rfl
  | some onetime =>
    obtain ⟨d4, h4⟩ := Option.isSome_iff_exists.mp (hA k.initiatorEphemeral onetime)
    refine ⟨⟨x, y, d1, d2, d3, d4, hx', hy, h1, h2, h3, fun h => ?_, fun o h => ?_⟩, ?_⟩
    · rw [ho] at h
      cases h
    · obtain rfl : onetime = o := Option.some.inj (ho.symm.trans h)
      exact h4
    · simp only [initiatorSecret, x3dhInitiator, hx, hy, h1, h2, h3, h4, ho, orThrow_some_bind,
        Option.map_some]
      rfl

/-- and the responder those of its own. -/
theorem responderSecret_eq (hS : S.Commutes) (hA : S.AcceptsKeyPairs) (hC : S.ConvertsKeyPairs)
    (k : AgreementKeys K) : k.responderSecret S = k.initiatorSecret S :=
  x3dhResponder_eq hS hA hC k.initiatorIdentity k.initiatorEphemeral k.responderIdentity
    k.signedPrekey k.onetimePrekey

/-- **Counterparts have the same outputs.** -/
theorem Counterparts.outputs_eq (hS : S.Commutes) (h : k.Counterparts S k') (o : k.Outputs S)
    (o' : k'.Outputs S) :
    o.dh1 = o'.dh1 ∧ o.dh2 = o'.dh2 ∧ o.dh3 = o'.dh3 ∧ o.dh4 = o'.dh4 := by
  obtain ⟨hinitiator, hephemeral, hresponder, hsigned, honetime⟩ := h
  rw [o.identityPublic_initiator, o'.identityPublic_initiator] at hinitiator
  rw [o.identityPublic_responder, o'.identityPublic_responder] at hresponder
  replace hinitiator := Option.some.inj hinitiator
  replace hresponder := Option.some.inj hresponder
  refine ⟨?_, ?_, ?_, ?_⟩
  · exact Option.some.inj (o.dh1_eq.symm.trans
      ((hS.scalarmult_congr hinitiator hsigned).trans o'.dh1_eq))
  · exact Option.some.inj (o.dh2_eq.symm.trans
      ((hS.scalarmult_congr hephemeral hresponder).trans o'.dh2_eq))
  · exact Option.some.inj (o.dh3_eq.symm.trans
      ((hS.scalarmult_congr hephemeral hsigned).trans o'.dh3_eq))
  · cases hk : k.onetimePrekey with
    | none =>
      rw [hk] at honetime
      have hk' : k'.onetimePrekey = none := Option.map_eq_none_iff.mp honetime.symm
      rw [o.dh4_eq_zero hk, o'.dh4_eq_zero hk']
    | some onetime =>
      rw [hk] at honetime
      obtain ⟨onetime', hk', hpublic⟩ := Option.map_eq_some_iff.mp honetime.symm
      exact Option.some.inj ((o.dh4_eq onetime hk).symm.trans
        ((hS.scalarmult_congr hephemeral hpublic.symm).trans (o'.dh4_eq onetime' hk')))

omit [Zero K] in
theorem mem_publics_identity {identity x : K}
    (hmem : identity = k.initiatorIdentity ∨ identity = k.responderIdentity)
    (hx : identityPublic S identity = some (S.boxPublic x)) :
    S.boxPublic x ∈ k.publics S .identity := by
  rw [publics, List.mem_append, Option.mem_toList, Option.mem_toList]
  rcases hmem with rfl | rfl
  · exact Or.inl hx
  · exact Or.inr hx

/-- **The same outputs come from counterparts.** -/
theorem Counterparts.of_outputs_eq (hD : S.DistinctOnKeyPairs) (hN : S.NonzeroOnKeyPairs)
    (hroles : RolesApart S k k') {o : k.Outputs S} {o' : k'.Outputs S} (h1 : o.dh1 = o'.dh1)
    (h2 : o.dh2 = o'.dh2) (h4 : o.dh4 = o'.dh4) : k.Counterparts S k' := by
  have hidentity : S.boxPublic o.initiator ≠ S.boxPublic k'.signedPrekey := by
    intro he
    cases hroles .identity .signedPrekey _
      (mem_publics_identity (Or.inl rfl) o.identityPublic_initiator) (List.mem_singleton.mpr he)
  have hephemeral : S.boxPublic k.initiatorEphemeral ≠ S.boxPublic o'.responder := by
    intro he
    cases hroles .ephemeral .identity _ (List.mem_singleton.mpr he.symm)
      (mem_publics_identity (Or.inr rfl) o'.identityPublic_responder)
  -- the first output shows the initiator's identity and the signed prekey
  obtain ⟨hinitiator, hsigned⟩ := hD.eq_and_eq o.dh1_eq (h1 ▸ o'.dh1_eq) hidentity
  -- and the second the other two keys every handshake has
  obtain ⟨heph, hresponder⟩ := hD.eq_and_eq o.dh2_eq (h2 ▸ o'.dh2_eq) hephemeral
  refine ⟨?_, heph, ?_, hsigned, ?_⟩
  · rw [o.identityPublic_initiator, o'.identityPublic_initiator, hinitiator]
  · rw [o.identityPublic_responder, o'.identityPublic_responder, hresponder]
  · cases hk : k.onetimePrekey with
    | none =>
      cases hk' : k'.onetimePrekey with
      | none => rfl
      | some onetime' =>
        have hzero : o'.dh4 = 0 := h4.symm.trans (o.dh4_eq_zero hk)
        exact absurd (hzero ▸ o'.dh4_eq onetime' hk') (hN _ _)
    | some onetime =>
      cases hk' : k'.onetimePrekey with
      | none =>
        have hzero : o.dh4 = 0 := h4.trans (o'.dh4_eq_zero hk')
        exact absurd (hzero ▸ o.dh4_eq onetime hk) (hN _ _)
      | some onetime' =>
        have hne : S.boxPublic k.initiatorEphemeral ≠ S.boxPublic onetime' := by
          intro he
          have hmem : S.boxPublic onetime' ∈ k'.publics S .onetimePrekey := by
            rw [publics, hk', Option.map_some]
            exact List.mem_singleton.mpr rfl
          cases hroles .ephemeral .onetimePrekey _ (List.mem_singleton.mpr he.symm) hmem
        have hpublic := (hD.eq_and_eq (o.dh4_eq onetime hk) (h4 ▸ o'.dh4_eq onetime' hk') hne).2
        rw [Option.map_some, Option.map_some, hpublic]

end AgreementKeys

open AgreementKeys

/-- **X3DH agreement, exactly when the keys match.** Both sides get a secret.
It is the same one if the keys of the two are counterparts; and if hash and
computations keep their inputs apart and no key changes its role, then only
if they are. -/
theorem x3dhSecrets_agree [Zero K] {S : Sodium K} (hS : S.Commutes) (hA : S.AcceptsKeyPairs)
    (hC : S.ConvertsKeyPairs) (k k' : AgreementKeys K) :
    ∃ secret secret', k.initiatorSecret S = .ok secret ∧ k'.responderSecret S = .ok secret'
      ∧ (k.Counterparts S k' → secret = secret')
      ∧ (S.HashInjective → S.DistinctOnKeyPairs → S.NonzeroOnKeyPairs → RolesApart S k k' →
        ¬ k.Counterparts S k' → secret ≠ secret') := by
  obtain ⟨o, ho⟩ := exists_outputs hA hC k
  obtain ⟨o', ho'⟩ := exists_outputs hA hC k'
  refine ⟨_, _, ho, (responderSecret_eq hS hA hC k').trans ho', fun hk => ?_, ?_⟩
  · obtain ⟨h1, h2, h3, h4⟩ := hk.outputs_eq hS o o'
    rw [h1, h2, h3, h4]
  · intro hH hD hN hroles hk heq
    have houtputs := hH heq
    simp only [List.cons.injEq, and_true] at houtputs
    obtain ⟨h1, h2, -, h4⟩ := houtputs
    exact hk (.of_outputs_eq hD hN hroles h1 h2 h4)

/-! ### Two handshakes of the ideal library -/

theorem Sodium.ideal_nonzeroOnKeyPairs : Sodium.ideal.NonzeroOnKeyPairs := by
  intro a b h
  rw [ideal_scalarmult] at h
  exact absurd (Option.some.inj h) (by omega)

/-- The keys of a handshake with a one-time prekey. -/
def AgreementKeys.ideal : AgreementKeys ℕ := ⟨3, 8, 5, 16, some 24⟩

/-- Both sides have it in mind, and both get one secret; a responder that does
not gets another. -/
theorem x3dhSecrets_agree_onetime :
    (∃ secret, AgreementKeys.ideal.initiatorSecret Sodium.ideal = .ok secret
      ∧ AgreementKeys.ideal.responderSecret Sodium.ideal = .ok secret)
      ∧ ∃ secret secret', AgreementKeys.ideal.initiatorSecret Sodium.ideal = .ok secret
        ∧ { AgreementKeys.ideal with onetimePrekey := none }.responderSecret Sodium.ideal
          = .ok secret'
        ∧ secret ≠ secret' := by
  obtain ⟨x, x', hx, hx', hsame, -⟩ := x3dhSecrets_agree Sodium.ideal_commutes
    Sodium.ideal_acceptsKeyPairs Sodium.ideal_convertsKeyPairs .ideal .ideal
  obtain ⟨y, y', hy, hy', -, hother⟩ := x3dhSecrets_agree Sodium.ideal_commutes
    Sodium.ideal_acceptsKeyPairs Sodium.ideal_convertsKeyPairs .ideal
    { AgreementKeys.ideal with onetimePrekey := none }
  have hroles : RolesApart Sodium.ideal .ideal
      { AgreementKeys.ideal with onetimePrekey := none } := by
    intro role role'
    cases role <;> cases role' <;> decide +kernel
  have hapart : ¬ AgreementKeys.ideal.Counterparts Sodium.ideal
      { AgreementKeys.ideal with onetimePrekey := none } := fun h => by
    cases h.2.2.2.2
  refine ⟨⟨x, hx, ?_⟩, y, y', hy, hy', ?_⟩
  · rw [hsame ⟨rfl, rfl, rfl, rfl, rfl⟩]
    exact hx'
  · exact hother Sodium.ideal_hashInjective Sodium.ideal_dhInjective.distinctOnKeyPairs
      Sodium.ideal_nonzeroOnKeyPairs hroles hapart
