import Eastwood.Secrecy

/-!
# Secret and public values

That a value does not follow from others is shown by labelling: some values
are called secret, in such a way that no computation makes a secret one of
public ones (`Sodium.Labelling`). What follows from public values is then
public (`Derivable.public`), whoever computes and however long.

A labelling goes further than that and says exactly which results are secret:
a hash if one of its arguments is, a derived key if the key is, and what
X25519 makes of two key pairs if both private halves are. Public halves never
are. The ideal library has one for every choice of drawn secrets
(`Sodium.idealLabelling`).
-/

variable {K : Type}

/-- **A labelling** of values as secret. -/
structure Sodium.Labelling (S : Sodium K) where
  Secret : K → Prop
  boxPublic : ∀ x, ¬ Secret (S.boxPublic x)
  generichash : ∀ l, Secret (S.generichash l) ↔ ∃ k ∈ l, Secret k
  kdf : ∀ k i c, Secret (S.kdf k i c) ↔ Secret k
  scalarmult : ∀ {x y z}, S.scalarmult x (S.boxPublic y) = some z →
    (Secret z ↔ Secret x ∧ Secret y)
  /-- Whatever the public key is, and whoever made it. -/
  scalarmult_public : ∀ {x B z}, S.scalarmult x B = some z → ¬ Secret x → ¬ Secret B → ¬ Secret z

section Derivable

variable {S : Sodium K} {known : Set K} {k : K}

/-- **What follows from public values is public.** -/
theorem Derivable.public (L : S.Labelling) (h : Derivable S known k)
    (hknown : ∀ k ∈ known, ¬ L.Secret k) : ¬ L.Secret k := by
  induction h with
  | known hk => exact hknown _ hk
  | generichash _ ih =>
    rw [L.generichash]
    rintro ⟨k, hk, hsecret⟩
    exact ih k hk hsecret
  | kdf i c _ ih =>
    rw [L.kdf]
    exact ih
  | scalarmult _ _ hz ihpriv ihpub => exact L.scalarmult_public hz ihpriv ihpub

/-- What follows from values that follow from others follows from those. -/
theorem Derivable.cut {others : Set K} (h : Derivable S known k)
    (hknown : ∀ k ∈ known, Derivable S others k) : Derivable S others k := by
  induction h with
  | known hk => exact hknown _ hk
  | generichash _ ih => exact .generichash ih
  | kdf i c _ ih => exact .kdf i c ih
  | scalarmult _ _ hz ihpriv ihpub => exact .scalarmult ihpriv ihpub hz

end Derivable

/-! ## Labellings of the ideal library -/

namespace Sodium

/-- The secret values of the ideal library, some of the drawn ones being
secret. -/
inductive IdealSecret (drawn : Set ℕ) : ℕ → Prop
  | drawn {n : ℕ} : 8 * n ∈ drawn → IdealSecret drawn (8 * n)
  | shared {x y : ℕ} : IdealSecret drawn x → IdealSecret drawn y →
      IdealSecret drawn (8 * Nat.pair (min x y) (max x y) + 2)
  | hash {l : List ℕ} {k : ℕ} : k ∈ l → IdealSecret drawn k →
      IdealSecret drawn (8 * Encodable.encode l + 3)
  | kdf {k : ℕ} (i : ℕ) (c : KdfContext) : IdealSecret drawn k →
      IdealSecret drawn (ideal.kdf k i c)

namespace IdealSecret

variable {drawn : Set ℕ} {n : ℕ}

/-- **By what it codes** a value is secret: no case meets another one's
code. -/
theorem cases_mod (h : IdealSecret drawn n) :
    (n % 8 = 0 ∧ n ∈ drawn)
      ∨ (∃ x y, n = 8 * Nat.pair (min x y) (max x y) + 2 ∧ IdealSecret drawn x
        ∧ IdealSecret drawn y)
      ∨ (∃ (l : List ℕ) (k : ℕ), n = 8 * Encodable.encode l + 3 ∧ k ∈ l ∧ IdealSecret drawn k)
      ∨ ∃ k i c, n = ideal.kdf k i c ∧ IdealSecret drawn k := by
  cases h with
  | drawn h => exact Or.inl ⟨Nat.mul_mod_right .., h⟩
  | shared hx hy => exact Or.inr (Or.inl ⟨_, _, rfl, hx, hy⟩)
  | hash hk h => exact Or.inr (Or.inr (Or.inl ⟨_, _, rfl, hk, h⟩))
  | kdf i c h => exact Or.inr (Or.inr (Or.inr ⟨_, i, c, rfl, h⟩))

/-- Of the drawn values those are secret that are called so, -/
theorem drawn_iff (n : ℕ) : IdealSecret drawn (8 * n) ↔ 8 * n ∈ drawn := by
  refine ⟨fun h => ?_, .drawn⟩
  obtain ⟨-, hn⟩ | ⟨_, _, h, -⟩ | ⟨_, _, h, -⟩ | ⟨_, _, _, h, -⟩ := h.cases_mod
  · exact hn
  · omega
  · omega
  · simp only [ideal] at h
    omega

/-- a public half is not secret, -/
theorem not_boxPublic (x : ℕ) : ¬ IdealSecret drawn (ideal.boxPublic x) := by
  intro h
  have hmod : ideal.boxPublic x % 8 = 1 := Nat.mul_add_mod ..
  obtain ⟨h0, -⟩ | ⟨_, _, h, -⟩ | ⟨_, _, h, -⟩ | ⟨_, _, _, h, -⟩ := h.cases_mod
  · omega
  · omega
  · omega
  · simp only [ideal] at h hmod
    omega

/-- a hash is if something hashed is, -/
theorem generichash_iff (l : List ℕ) :
    IdealSecret drawn (ideal.generichash l) ↔ ∃ k ∈ l, IdealSecret drawn k := by
  constructor
  · intro h
    have hmod : ideal.generichash l = 8 * Encodable.encode l + 3 := rfl
    obtain ⟨h0, -⟩ | ⟨_, _, h, -⟩ | ⟨l', k, h, hk, hsecret⟩ | ⟨_, _, _, h, -⟩ := h.cases_mod
    · omega
    · omega
    · obtain rfl : l = l' := Encodable.encode_injective (by omega)
      exact ⟨k, hk, hsecret⟩
    · simp only [ideal] at h hmod
      omega
  · rintro ⟨k, hk, h⟩
    exact .hash hk h

/-- a derived key if the key is, -/
theorem kdf_iff (k i : ℕ) (c : KdfContext) :
    IdealSecret drawn (ideal.kdf k i c) ↔ IdealSecret drawn k := by
  refine ⟨fun h => ?_, .kdf i c⟩
  have hmod : ideal.kdf k i c = 8 * Nat.pair (Nat.pair k i) (contextCode c) + 4 := rfl
  obtain ⟨h0, -⟩ | ⟨_, _, h, -⟩ | ⟨_, _, h, -⟩ | ⟨_, _, _, h, hsecret⟩ := h.cases_mod
  · omega
  · omega
  · omega
  · rwa [(ideal_kdfInjective h).1]

/-- and what two key pairs share if both private halves are. -/
theorem shared_iff (x y : ℕ) :
    IdealSecret drawn (8 * Nat.pair (min x y) (max x y) + 2)
      ↔ IdealSecret drawn x ∧ IdealSecret drawn y := by
  refine ⟨fun h => ?_, fun h => .shared h.1 h.2⟩
  obtain ⟨h0, -⟩ | ⟨x', y', h, hx, hy⟩ | ⟨_, _, h, -⟩ | ⟨_, _, _, h, -⟩ := h.cases_mod
  · omega
  · obtain ⟨hmin, hmax⟩ := Nat.pair_eq_pair.mp
      (show Nat.pair (min x y) (max x y) = Nat.pair (min x' y') (max x' y') by omega)
    -- the pair is coded in order
    obtain ⟨rfl, rfl⟩ | ⟨rfl, rfl⟩ : (x = x' ∧ y = y') ∨ (x = y' ∧ y = x') := by omega
    · exact ⟨hx, hy⟩
    · exact ⟨hy, hx⟩
  · omega
  · simp only [ideal] at h
    omega

end IdealSecret

/-- **A labelling of the ideal library** for every choice of drawn secrets. -/
def idealLabelling (drawn : Set ℕ) : ideal.Labelling where
  Secret := IdealSecret drawn
  boxPublic := IdealSecret.not_boxPublic
  generichash := IdealSecret.generichash_iff
  kdf := IdealSecret.kdf_iff
  scalarmult {x y z} h := by
    rw [ideal_scalarmult] at h
    rw [← Option.some.inj h]
    exact IdealSecret.shared_iff x y
  scalarmult_public {x B z} h hx _ := by
    simp only [ideal] at h
    split at h
    · rw [← Option.some.inj h, IdealSecret.shared_iff]
      exact fun hsecret => hx hsecret.1
    · cases h

end Sodium
