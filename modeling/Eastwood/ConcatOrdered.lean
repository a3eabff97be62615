import Eastwood.AuthCode

/-!
# Two byte strings in their order

`concat_ordered` takes byte strings of any length. It compares what they have
in common, and then their lengths, whose difference is a `size_t` that becomes
an `int`. Below `2 ^ 31` that is the lexicographic order
(`concatOrderedBytes_eq`): the smaller of the two is hashed first, whichever
argument it is. Of two device keys it is the hash of their pair
(`concatOrderedBytes_key`).
-/

/-! ## The code -/

/-- `memcmp` of the first `n` bytes. Only its sign is specified, and read. -/
def memcmp : ℕ → List UInt8 → List UInt8 → ℤ
  | n + 1, x :: xs, y :: ys => if x = y then memcmp n xs ys else (x.toNat : ℤ) - y.toNat
  | _, _, _ => 0

/-- The `cmp` of `concat_ordered`. -/
def orderedCmp (a b : List UInt8) : ℤ :=
  let cmp := memcmp (min a.length b.length) a b
  -- the lengths are subtracted as `size_t`, and the difference made an `int`
  if cmp = 0 then (((a.length : ℤ) - b.length) % 2 ^ 64).bmod (2 ^ 32) else cmp

/-- **`concat_ordered`**, of two byte strings. -/
def concatOrderedBytes (sha256 : List UInt8 → List UInt8) (a b : List UInt8) : List UInt8 :=
  let cmp := orderedCmp a b
  let first := if cmp ≤ 0 then a else b
  let second := if cmp ≤ 0 then b else a
  sha256 (first ++ second)

/-! ## The order -/

/-- **The common bytes and then the lengths** are the lexicographic order. -/
theorem lt_iff_memcmp (a b : List UInt8) :
    b < a ↔ 0 < memcmp (min a.length b.length) a b
      ∨ memcmp (min a.length b.length) a b = 0 ∧ b.length < a.length := by
  induction a generalizing b with
  | nil =>
    refine iff_of_false (List.not_lt_nil _) ?_
    simp [memcmp]
  | cons x as ih =>
    cases b with
    | nil =>
      refine iff_of_true (List.nil_lt_cons _ _) ?_
      simp [memcmp]
    | cons y bs =>
      rw [List.cons_lt_cons_iff, List.length_cons, List.length_cons, Nat.add_min_add_right,
        memcmp]
      by_cases hxy : x = y
      · subst hxy
        rw [if_pos rfl, or_iff_right (UInt8.lt_irrefl x), and_iff_right rfl, ih]
        omega
      · have hne : x.toNat ≠ y.toNat := fun h => hxy (UInt8.toNat_inj.mp h)
        rw [if_neg hxy, UInt8.lt_iff_toNat_lt]
        have hyx : ¬ (y = x ∧ bs < as) := fun h => hxy h.1.symm
        rw [or_iff_left hyx]
        omega

/-- The difference of two lengths below `2 ^ 31` is kept by the conversion. -/
theorem bmod_length_sub {m n : ℕ} (hm : m < 2 ^ 31) (hn : n < 2 ^ 31) :
    (((m : ℤ) - n) % 2 ^ 64).bmod (2 ^ 32) = (m : ℤ) - n := by
  rw [Int.bmod_def]
  split <;> omega

theorem orderedCmp_le_zero_iff {a b : List UInt8} (ha : a.length < 2 ^ 31)
    (hb : b.length < 2 ^ 31) : orderedCmp a b ≤ 0 ↔ a ≤ b := by
  rw [← List.not_lt, lt_iff_memcmp, orderedCmp]
  by_cases hzero : memcmp (min a.length b.length) a b = 0
  · rw [if_pos hzero, bmod_length_sub ha hb]
    omega
  · rw [if_neg hzero]
    omega

/-- **The smaller is hashed first.** -/
theorem concatOrderedBytes_eq {sha256 : List UInt8 → List UInt8} {a b : List UInt8}
    (ha : a.length < 2 ^ 31) (hb : b.length < 2 ^ 31) :
    concatOrderedBytes sha256 a b = sha256 (if a ≤ b then a ++ b else b ++ a) := by
  rw [concatOrderedBytes]
  simp only [orderedCmp_le_zero_iff ha hb]
  split <;> rfl

/-- Of two keys it is the code's `concat_ordered` of arrays. -/
theorem concatOrderedBytes_key (sha256 : List UInt8 → List UInt8) (a b : Key) :
    concatOrderedBytes sha256 a.1 b.1 = concatOrdered sha256 a b := by
  have hlen : ∀ k : Key, k.1.length < 2 ^ 31 := fun k => by rw [k.2]; decide
  rw [concatOrderedBytes_eq (hlen a) (hlen b)]
  rfl

/-! ## The main result -/

/-- **`concat_ordered` is of the pair**: it does not tell two byte strings
shorter than `2 ^ 31` by their order, and, the hash being injective, two pairs
of keys with one result are the same unordered pair. -/
theorem concatOrderedBytes_pair (sha256 : List UInt8 → List UInt8) :
    (∀ a b : List UInt8, a.length < 2 ^ 31 → b.length < 2 ^ 31 →
        concatOrderedBytes sha256 a b = concatOrderedBytes sha256 b a)
      ∧ (Function.Injective sha256 → ∀ a b c d : List UInt8,
          a.length = 32 → b.length = 32 → c.length = 32 → d.length = 32 →
          concatOrderedBytes sha256 a b = concatOrderedBytes sha256 c d →
          s(a, b) = s(c, d)) := by
  constructor
  · intro a b ha hb
    rw [concatOrderedBytes_eq ha hb, concatOrderedBytes_eq hb ha]
    rcases List.le_total a b with hab | hba
    · by_cases hba : b ≤ a
      · rw [List.le_antisymm hab hba]
      · rw [if_pos hab, if_neg hba]
    · by_cases hab : a ≤ b
      · rw [List.le_antisymm hab hba]
      · rw [if_neg hab, if_pos hba]
  · intro hsha a b c d ha hb hc hd heq
    have hkeys : concatOrdered sha256 ⟨a, ha⟩ ⟨b, hb⟩ = concatOrdered sha256 ⟨c, hc⟩ ⟨d, hd⟩ := by
      rw [← concatOrderedBytes_key, ← concatOrderedBytes_key]
      exact heq
    exact congrArg (Sym2.map Subtype.val) ((concatOrdered_eq_iff hsha).mp hkeys)

/-- A hash that is SHA-256 on the 64 bytes of the keys `01..01` and `02..02`,
and injective. -/
def swapDigest : Equiv.Perm (List UInt8) :=
  Equiv.swap (List.replicate 32 1 ++ List.replicate 32 2)
    [248, 24, 175, 211, 122, 109, 195, 188, 146, 251, 68, 115, 16, 17, 39, 112,
      6, 219, 78, 250, 110, 144, 35, 205, 116, 104, 192, 35, 53, 210, 42, 77]

/-- The two keys are hashed alike in both orders, and not as the first is with
`03..03`. -/
theorem concatOrderedBytes_pair_keys :
    concatOrderedBytes swapDigest (List.replicate 32 1) (List.replicate 32 2)
        = concatOrderedBytes swapDigest (List.replicate 32 2) (List.replicate 32 1)
      ∧ concatOrderedBytes swapDigest (List.replicate 32 1) (List.replicate 32 2)
        ≠ concatOrderedBytes swapDigest (List.replicate 32 1) (List.replicate 32 3) := by
  obtain ⟨hsymm, hpair⟩ := concatOrderedBytes_pair swapDigest
  refine ⟨hsymm _ _ (by decide) (by decide), fun heq => ?_⟩
  have hpairs := hpair swapDigest.injective _ _ _ _ (by decide) (by decide) (by decide)
    (by decide) heq
  exact absurd hpairs (by decide)
