import Mathlib.Data.List.Pairwise
import Mathlib.Tactic.TypeStar

/-!
# Tables

A table is a list of rows that keep to a constraint: rows that *clash*, which
may be because they have a primary key or a unique column in common, are
never both in it. `INSERT OR REPLACE` deletes whatever clashes with the row it
inserts, `DELETE … WHERE` whatever meets a condition, and a `SELECT … WHERE`
takes the first row that does.

Where a condition is on a key, so that all rows that meet it clash, there is
one such row at most, and to select it is to be a member (`mem_select`). What
the statements do to a selection follows from what they do to membership.
-/

variable {ρ : Type*}

/-- **A table**: no two of its rows clash. -/
structure Table (Clash : ρ → ρ → Prop) where
  rows : List ρ
  sound : rows.Pairwise fun a b => ¬ Clash a b

namespace Table

variable {Clash : ρ → ρ → Prop}

instance : Membership ρ (Table Clash) := ⟨fun t r => r ∈ t.rows⟩

/-! ## Statements -/

/-- A table without rows. -/
def empty : Table Clash := ⟨[], .nil⟩

/-- `SELECT … WHERE`: the first row there is. -/
def select (p : ρ → Bool) (t : Table Clash) : Option ρ := t.rows.find? p

/-- `DELETE … WHERE`. -/
def delete (p : ρ → Bool) (t : Table Clash) : Table Clash :=
  ⟨t.rows.filter (!p ·), t.sound.filter _⟩

/-- **`INSERT OR REPLACE`**: what clashes with the row is deleted. -/
def insertOrReplace [DecidableRel Clash] (row : ρ) (t : Table Clash) : Table Clash where
  rows := t.rows.filter (fun r => ¬ Clash r row) ++ [row]
  sound := by
    refine List.pairwise_append.mpr ⟨t.sound.filter _, List.pairwise_singleton _ _, ?_⟩
    intro r hr r' hr'
    rw [List.mem_singleton.mp hr']
    exact of_decide_eq_true (List.mem_filter.mp hr).2

/-- **A condition on a key**: all rows that meet it clash. -/
def IsKey (Clash : ρ → ρ → Prop) (p : ρ → Bool) : Prop := ∀ a b, p a → p b → Clash a b

/-! ## Membership -/

variable {t : Table Clash} {p q : ρ → Bool} {row r : ρ}

@[simp] theorem mem_rows : r ∈ t.rows ↔ r ∈ t := Iff.rfl

@[simp] theorem not_mem_empty : r ∉ (empty : Table Clash) := List.not_mem_nil

@[simp] theorem mem_delete : r ∈ t.delete p ↔ r ∈ t ∧ p r = false := by
  show r ∈ t.rows.filter (!p ·) ↔ _
  rw [List.mem_filter, Bool.not_eq_true', mem_rows]

@[simp] theorem mem_insertOrReplace [DecidableRel Clash] :
    r ∈ t.insertOrReplace row ↔ (r ∈ t ∧ ¬ Clash r row) ∨ r = row := by
  show r ∈ t.rows.filter (fun r => ¬ Clash r row) ++ [row] ↔ _
  rw [List.mem_append, List.mem_filter, List.mem_singleton, decide_eq_true_iff, mem_rows]

/-! ## Selection -/

/-- **What is selected by a key** is the row that has it. -/
theorem mem_select (hp : IsKey Clash p) : t.select p = some r ↔ r ∈ t ∧ p r = true := by
  obtain ⟨rows, sound⟩ := t
  show rows.find? p = some r ↔ r ∈ rows ∧ p r = true
  induction rows with
  | nil => exact iff_of_false nofun fun h => List.not_mem_nil h.1
  | cons a rows ih =>
    obtain ⟨hfirst, hrest⟩ := List.pairwise_cons.mp sound
    rw [List.find?_cons, List.mem_cons]
    cases ha : p a with
    | false =>
      rw [ih hrest]
      refine and_congr_left fun hr => (or_iff_right ?_).symm
      rintro rfl
      exact Bool.false_ne_true (ha.symm.trans hr)
    | true =>
      constructor
      · intro h
        obtain rfl := Option.some.inj h
        exact ⟨Or.inl rfl, ha⟩
      · rintro ⟨rfl | hmem, hr⟩
        · rfl
        · exact absurd (hp a r ha hr) (hfirst r hmem)

/-- Nothing is, if no row has it. -/
theorem select_eq_none : t.select p = none ↔ ∀ r ∈ t, p r = false := by
  show t.rows.find? p = none ↔ _
  rw [List.find?_eq_none]
  exact forall₂_congr fun r _ => by rw [Bool.not_eq_true]

/-- What two tables agree on is selected alike. -/
theorem select_congr {t' : Table Clash} (hp : IsKey Clash p)
    (h : ∀ r, p r = true → (r ∈ t' ↔ r ∈ t)) : t'.select p = t.select p := by
  refine Option.ext fun r => ?_
  rw [mem_select hp, mem_select hp]
  exact and_congr_left (h r)

/-- **A row that was inserted is selected** by its key, -/
theorem select_insertOrReplace_self [DecidableRel Clash] (hp : IsKey Clash p)
    (h : p row = true) : (t.insertOrReplace row).select p = some row :=
  (mem_select hp).mpr ⟨mem_insertOrReplace.mpr (Or.inr rfl), h⟩

/-- and by another key what was before, unless it was replaced. -/
theorem select_insertOrReplace_of_not [DecidableRel Clash] (hp : IsKey Clash p)
    (h : p row = false) (hkept : ∀ r ∈ t, p r = true → ¬ Clash r row) :
    (t.insertOrReplace row).select p = t.select p := by
  refine select_congr hp fun r hr => ?_
  rw [mem_insertOrReplace]
  constructor
  · rintro (hmem | rfl)
    · exact hmem.1
    · exact absurd (h.symm.trans hr) Bool.false_ne_true
  · exact fun hmem => Or.inl ⟨hmem, hkept r hmem hr⟩

/-- What was deleted is not selected, -/
theorem select_delete_self : (t.delete p).select p = none :=
  select_eq_none.mpr fun _ hr => (mem_delete.mp hr).2

/-- and the rest as before. -/
theorem select_delete_of_not (hp : IsKey Clash p) (h : ∀ r, p r = true → q r = false) :
    (t.delete q).select p = t.select p :=
  select_congr hp fun r hr => mem_delete.trans (and_iff_left (h r hr))

end Table
