import Mathlib.Data.List.Nodup
import Mathlib.Tactic.TypeStar

/-!
# Superseded entries

A list of entries that have keys, of which a later one supersedes an earlier
one: to put an entry is to drop what has its key and to append it. So each key
is in the list once, the entries are in the order they were put in, and to go
through the list and skip every key one has seen already skips nothing.
-/

namespace Superseding

variable {α β κ : Type*} [DecidableEq κ] (key : α → κ) (key' : β → κ)

/-- The entries with other keys. -/
def drop (k : κ) (l : List α) : List α := l.filter fun a => key a ≠ k

/-- **An entry is put in** and supersedes what has its key. -/
def put (a : α) (l : List α) : List α := drop key (key a) l ++ [a]

/-- The entries whose keys were not seen before. -/
def unseen (seen : List κ) : List α → List α
  | [] => []
  | a :: l => if key a ∈ seen then unseen seen l else a :: unseen (key a :: seen) l

variable {key key'} {l : List α} {a b : α} {k : κ}

theorem mem_drop : b ∈ drop key k l ↔ b ∈ l ∧ key b ≠ k := by
  rw [drop, List.mem_filter, decide_eq_true_iff]

theorem mem_put : b ∈ put key a l ↔ (b ∈ l ∧ key b ≠ key a) ∨ b = a := by
  rw [put, List.mem_append, mem_drop, List.mem_singleton]

/-- Entries that are made others of the same key are dropped alike, -/
theorem map_drop {f : α → β} (hf : ∀ a, key' (f a) = key a) :
    (drop key k l).map f = drop key' k (l.map f) := by
  rw [drop, drop, List.filter_map]
  refine congrArg (List.map f) (List.filter_congr fun a _ => ?_)
  rw [Function.comp, hf]

/-- and put in alike. -/
theorem map_put {f : α → β} (hf : ∀ a, key' (f a) = key a) :
    (put key a l).map f = put key' (f a) (l.map f) := by
  rw [put, put, List.map_append, map_drop hf, hf, List.map_singleton]

theorem nodup_drop (h : (l.map key).Nodup) : ((drop key k l).map key).Nodup :=
  h.sublist ((List.filter_sublist).map key)

/-- **No key is in the list twice.** -/
theorem nodup_put (h : (l.map key).Nodup) : ((put key a l).map key).Nodup := by
  rw [put, List.map_append, List.map_singleton, List.nodup_append]
  refine ⟨nodup_drop h, List.nodup_singleton _, fun k hk k' hk' => ?_⟩
  obtain ⟨b, hb, rfl⟩ := List.mem_map.mp hk
  rw [List.mem_singleton.mp hk']
  exact (mem_drop.mp hb).2

/-- **So nothing is skipped.** -/
theorem unseen_of_nodup {seen : List κ} (h : (l.map key).Nodup)
    (hseen : ∀ a ∈ l, key a ∉ seen) : unseen key seen l = l := by
  induction l generalizing seen with
  | nil => rfl
  | cons a l ih =>
    rw [List.map_cons, List.nodup_cons] at h
    rw [unseen, if_neg (hseen a List.mem_cons_self), ih h.2]
    intro b hb
    rw [List.mem_cons, not_or]
    refine ⟨?_, hseen b (List.mem_cons_of_mem a hb)⟩
    rintro hab
    exact h.1 (List.mem_map.mpr ⟨b, hb, hab⟩)

end Superseding
