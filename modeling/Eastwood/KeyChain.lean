import Mathlib.Data.Set.Insert
import Mathlib.Logic.Function.Iterate
import Mathlib.Tactic

/-!
# Symmetric key chains and one-shot receivers

A symmetric ratchet turns one secret into a sequence of keys: a *chain key*
is advanced by `next`, and each chain key yields one *message key* through
`out`. What two parties agree on is a chain from some position on, a
`KeyChain`: the position `start` it is known from and the chain key `seed`
held there.

The purpose of a receiving end is stated without chain keys at all.
`OneShot` is the abstract receiver: a set of positions already taken, and
the rule that a position is answered the first time and refused ever after.
A receiver that keeps back the keys of skipped positions is an
implementation of it, and `OneShot.first_take` and `OneShot.again_take` are
what the implementation inherits.
-/

variable {K : Type}

/-- **A symmetric key chain**, known from position `start` on. -/
structure KeyChain (K : Type) where
  /-- The first position whose chain key is known. -/
  start : ℕ
  /-- The chain key at `start`. -/
  seed : K

/-- How a chain moves: `next` advances a chain key, `out` reads the message
key a chain key stands for. -/
structure KeyChain.Step (K : Type) where
  /-- The following chain key. -/
  next : K → K
  /-- The message key. -/
  out : K → K

namespace KeyChain

variable (s : Step K) (c : KeyChain K)

/-- The chain key at position `i`. -/
def chainKey (i : ℕ) : K := s.next^[i - c.start] c.seed

/-- The message key at position `i`. -/
def messageKey (i : ℕ) : K := s.out (c.chainKey s i)

@[simp] theorem chainKey_start : c.chainKey s c.start = c.seed := by
  simp [chainKey]

/-- Advancing the chain key at a position gives the one after it. -/
theorem next_chainKey {i : ℕ} (h : c.start ≤ i) :
    s.next (c.chainKey s i) = c.chainKey s (i + 1) := by
  rw [chainKey, chainKey, Nat.sub_add_comm h, Function.iterate_succ_apply']

/-- **A chain that never comes back.** Both steps are injective and the seed
is not reached from any chain key: what an injective KDF with distinct
labels gives. -/
structure Fresh : Prop where
  next_injective : Function.Injective s.next
  out_injective : Function.Injective s.out
  seed_ne : ∀ k, s.next k ≠ c.seed

variable {s c}

/-- The orbits of two points outside the range of an injective step meet only
if they are one orbit, and then in the same place. -/
theorem iterate_inj {f : K → K} (hf : Function.Injective f) {x y : K} (hx : ∀ k, f k ≠ x)
    (hy : ∀ k, f k ≠ y) (m n : ℕ) (he : f^[m] x = f^[n] y) : m = n ∧ x = y := by
  induction m generalizing n with
  | zero =>
    cases n with
    | zero => exact ⟨rfl, he⟩
    | succ n =>
      rw [Function.iterate_succ_apply'] at he
      exact absurd he.symm (hx _)
  | succ m ih =>
    cases n with
    | zero =>
      rw [Function.iterate_succ_apply'] at he
      exact absurd he (hy _)
    | succ n =>
      rw [Function.iterate_succ_apply', Function.iterate_succ_apply'] at he
      obtain ⟨hmn, hxy⟩ := ih n (hf he)
      exact ⟨congrArg _ hmn, hxy⟩

/-- A chain that never comes back has distinct message keys. -/
theorem Fresh.messageKey_inj (h : c.Fresh s) {i j : ℕ} (hi : c.start ≤ i)
    (hj : c.start ≤ j) (he : c.messageKey s i = c.messageKey s j) : i = j := by
  have hc : s.next^[i - c.start] c.seed = s.next^[j - c.start] c.seed :=
    h.out_injective he
  have := (iterate_inj h.next_injective h.seed_ne h.seed_ne _ _ hc).1
  omega

/-- Two chains that never come back and have different seeds share no
message key. -/
theorem Fresh.messageKey_ne {d : KeyChain K} (hc : c.Fresh s) (hd : d.Fresh s)
    (hne : c.seed ≠ d.seed) (i j : ℕ) : c.messageKey s i ≠ d.messageKey s j := by
  intro he
  have hk : s.next^[i - c.start] c.seed = s.next^[j - d.start] d.seed :=
    hc.out_injective he
  exact hne (iterate_inj hc.next_injective hc.seed_ne hd.seed_ne _ _ hk).2

end KeyChain

/-! ## The one-shot receiver -/

/-- **The abstract receiving end of a chain**: the key of every position and
the positions already taken. -/
structure OneShot (K : Type) where
  /-- The key at each position. -/
  key : ℕ → K
  /-- The positions taken so far. -/
  spent : Set ℕ

namespace OneShot

open Classical in
/-- Taking a position: answered with its key if it was never taken, refused
otherwise. -/
noncomputable def take (m : OneShot K) (i : ℕ) : Option K × OneShot K :=
  if i ∈ m.spent then (none, m)
  else (some (m.key i), { m with spent := insert i m.spent })

/-- Taking a sequence of positions. -/
noncomputable def takeAll (m : OneShot K) (is : List ℕ) : OneShot K :=
  is.foldl (fun m i => (m.take i).2) m

@[simp] theorem take_key (m : OneShot K) (i : ℕ) : (m.take i).2.key = m.key := by
  unfold take; split <;> rfl

@[simp] theorem take_spent (m : OneShot K) (i : ℕ) :
    (m.take i).2.spent = insert i m.spent := by
  unfold take
  split
  · rename_i h
    exact (Set.insert_eq_of_mem h).symm
  · rfl

/-- What a take answers is the key of the position. -/
theorem eq_key_of_take {m : OneShot K} {i : ℕ} {k : K} (h : (m.take i).1 = some k) :
    k = m.key i := by
  unfold take at h
  split at h
  · cases h
  · exact (Option.some.inj h).symm

@[simp] theorem takeAll_key (m : OneShot K) (is : List ℕ) :
    (m.takeAll is).key = m.key := by
  induction is generalizing m with
  | nil => rfl
  | cons i is ih => exact (ih _).trans (m.take_key i)

theorem takeAll_concat (m : OneShot K) (is : List ℕ) (i : ℕ) :
    m.takeAll (is ++ [i]) = ((m.takeAll is).take i).2 := by
  simp [takeAll]

/-- What is spent after a sequence is what was spent and what it took. -/
theorem mem_takeAll_spent (m : OneShot K) (is : List ℕ) (i : ℕ) :
    i ∈ (m.takeAll is).spent ↔ i ∈ m.spent ∨ i ∈ is := by
  induction is generalizing m with
  | nil => simp [takeAll]
  | cons j is ih =>
    rw [show m.takeAll (j :: is) = (m.take j).2.takeAll is from rfl, ih, take_spent,
      Set.mem_insert_iff, List.mem_cons]
    tauto

/-- **The first take of a position returns its key**, whatever was taken
before. -/
theorem first_take (m : OneShot K) (is : List ℕ) {i : ℕ} (hm : i ∉ m.spent)
    (his : i ∉ is) : ((m.takeAll is).take i).1 = some (m.key i) := by
  have h : i ∉ (m.takeAll is).spent := fun hc =>
    ((mem_takeAll_spent m is i).mp hc).elim hm his
  rw [take, if_neg h, takeAll_key]

/-- **Every later take is refused** and changes nothing. -/
theorem again_take (m : OneShot K) (is : List ℕ) {i : ℕ} (his : i ∈ is) :
    (m.takeAll is).take i = (none, m.takeAll is) := by
  have h : i ∈ (m.takeAll is).spent := (mem_takeAll_spent m is i).mpr (Or.inr his)
  rw [take, if_pos h]

end OneShot
