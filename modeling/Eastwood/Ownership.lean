import Mathlib.Logic.Function.Basic
import Mathlib.Tactic.TypeStar

/-!
# Sole ownership

Resources are held by owners, each owner at most one. Ownership is *sole*
(`SoleOwners`) when what is held is live, what is live is held, and no two
owners hold the same: then nothing leaks, and nothing is released twice.

An owner that holds nothing may acquire a resource that is not live, one that
holds a resource may release it, and may hand it to another that holds
nothing; each keeps ownership sole.
-/

variable {ι ρ : Type*}

/-- **Sole ownership** of the live resources. -/
structure SoleOwners (held : ι → Option ρ) (live : ρ → Prop) : Prop where
  live_of_held : ∀ {i r}, held i = some r → live r
  held_of_live : ∀ {r}, live r → ∃ i, held i = some r
  unique : ∀ {i j r}, held i = some r → held j = some r → i = j

namespace SoleOwners

variable {held held' : ι → Option ρ} {live live' : ρ → Prop}

/-- Nobody owns anything, and nothing is live. -/
theorem none_live : SoleOwners (fun _ : ι => (none : Option ρ)) fun _ => False where
  live_of_held h := by cases h
  held_of_live h := h.elim
  unique h := by cases h

/-- Ownership is a matter of who holds what. -/
theorem congr (h : SoleOwners held live) (hheld : ∀ i, held' i = held i)
    (hlive : ∀ r, live' r ↔ live r) : SoleOwners held' live' := by
  obtain rfl : held' = held := funext hheld
  obtain rfl : live' = live := funext fun r => propext (hlive r)
  exact h

variable [DecidableEq ι]

/-- **A resource that is not live is acquired.** -/
theorem acquire (h : SoleOwners held live) {i : ι} (hi : held i = none) {r : ρ} (hr : ¬ live r) :
    SoleOwners (Function.update held i (some r)) fun r' => live r' ∨ r' = r where
  live_of_held {j r'} hj := by
    by_cases hji : j = i
    · rw [hji, Function.update_self] at hj
      exact Or.inr (Option.some.inj hj).symm
    · rw [Function.update_of_ne hji] at hj
      exact Or.inl (h.live_of_held hj)
  held_of_live {r'} hr' := by
    obtain hlive | rfl := hr'
    · obtain ⟨j, hj⟩ := h.held_of_live hlive
      have hji : j ≠ i := by
        rintro rfl
        rw [hi] at hj
        cases hj
      exact ⟨j, by rw [Function.update_of_ne hji, hj]⟩
    · exact ⟨i, Function.update_self ..⟩
  unique {j k r'} hj hk := by
    by_cases hji : j = i <;> by_cases hki : k = i
    · rw [hji, hki]
    · rw [hji, Function.update_self] at hj
      rw [Function.update_of_ne hki, ← Option.some.inj hj] at hk
      exact absurd (h.live_of_held hk) hr
    · rw [hki, Function.update_self] at hk
      rw [Function.update_of_ne hji, ← Option.some.inj hk] at hj
      exact absurd (h.live_of_held hj) hr
    · rw [Function.update_of_ne hji] at hj
      rw [Function.update_of_ne hki] at hk
      exact h.unique hj hk

/-- **A resource is released.** -/
theorem release (h : SoleOwners held live) {i : ι} {r : ρ} (hi : held i = some r) :
    SoleOwners (Function.update held i none) fun r' => live r' ∧ r' ≠ r where
  live_of_held {j r'} hj := by
    by_cases hji : j = i
    · rw [hji, Function.update_self] at hj
      cases hj
    · rw [Function.update_of_ne hji] at hj
      refine ⟨h.live_of_held hj, ?_⟩
      rintro rfl
      exact hji (h.unique hj hi)
  held_of_live {r'} hr' := by
    obtain ⟨j, hj⟩ := h.held_of_live hr'.1
    have hji : j ≠ i := by
      rintro rfl
      exact hr'.2 (Option.some.inj (hj.symm.trans hi))
    exact ⟨j, by rw [Function.update_of_ne hji, hj]⟩
  unique {j k r'} hj hk := by
    have hne : ∀ {l}, Function.update held i none l = some r' → l ≠ i := by
      rintro l hl rfl
      rw [Function.update_self] at hl
      cases hl
    rw [Function.update_of_ne (hne hj)] at hj
    rw [Function.update_of_ne (hne hk)] at hk
    exact h.unique hj hk

/-- **A resource is handed on**, to somebody who holds nothing. -/
theorem handOn (h : SoleOwners held live) {i j : ι} (hij : i ≠ j) (hj : held j = none) :
    SoleOwners (Function.update (Function.update held j (held i)) i none) live := by
  -- whoever held a resource, but for the two, holds it still
  have hother : ∀ {k}, k ≠ i → k ≠ j →
      Function.update (Function.update held j (held i)) i none k = held k := by
    intro k hki hkj
    rw [Function.update_of_ne hki, Function.update_of_ne hkj]
  have hgot : Function.update (Function.update held j (held i)) i none j = held i := by
    rw [Function.update_of_ne hij.symm, Function.update_self]
  have hback : ∀ {k r}, Function.update (Function.update held j (held i)) i none k = some r →
      (k = j ∧ held i = some r) ∨ (k ≠ i ∧ k ≠ j ∧ held k = some r) := by
    intro k r hk
    by_cases hki : k = i
    · rw [hki, Function.update_self] at hk
      cases hk
    · by_cases hkj : k = j
      · rw [hkj, hgot] at hk
        exact Or.inl ⟨hkj, hk⟩
      · rw [hother hki hkj] at hk
        exact Or.inr ⟨hki, hkj, hk⟩
  refine ⟨fun {k r} hk => ?_, fun {r} hr => ?_, fun {k l r} hk hl => ?_⟩
  · obtain ⟨-, hk⟩ | ⟨-, -, hk⟩ := hback hk
    · exact h.live_of_held hk
    · exact h.live_of_held hk
  · obtain ⟨k, hk⟩ := h.held_of_live hr
    by_cases hki : k = i
    · exact ⟨j, hgot.trans (hki ▸ hk)⟩
    · have hkj : k ≠ j := by
        rintro rfl
        rw [hj] at hk
        cases hk
      exact ⟨k, (hother hki hkj).trans hk⟩
  · obtain ⟨hkj, hk⟩ | ⟨hki, -, hk⟩ := hback hk <;> obtain ⟨hlj, hl⟩ | ⟨hli, -, hl⟩ := hback hl
    · rw [hkj, hlj]
    · exact absurd (h.unique hk hl).symm hli
    · exact absurd (h.unique hk hl) hki
    · exact h.unique hk hl

end SoleOwners
