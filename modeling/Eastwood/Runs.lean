import Mathlib.Data.List.Basic

/-!
# Runs

Inputs that are taken one after the other by a state. A run has a trace: what
its steps put out, in their order. And it can be judged step by step: a
property of a step and the state it is taken in holds *along* the run
(`Along`), up to a step that leaves no state, after which nothing is asked.

Two rules carry the proofs. What each single step puts out or keeps, the run
does (`mem_outputs`, `final_induction`). And a run whose steps may be changed
or left out one by one, as far as something smaller can tell, puts out what
the smaller one does (`outputs_filterMap`): that is how parts of a state are
shown not to depend on each other.
-/

namespace Run

variable {ι σ τ ο : Type*}

/-! ## Along a run -/

/-- **Along a run**: every step has the property where it is taken. -/
def Along (step : ι → σ → Option σ) (P : ι → σ → Prop) : List ι → σ → Prop
  | [], _ => True
  | i :: is, s => P i s ∧ ∀ t ∈ step i s, Along step P is t

instance decidableAlong (step : ι → σ → Option σ) (P : ι → σ → Prop)
    [∀ i s, Decidable (P i s)] : ∀ is s, Decidable (Along step P is s)
  | [], _ => .isTrue trivial
  | i :: is, s =>
    let _ : Decidable (∀ t ∈ step i s, Along step P is t) :=
      match step i s with
      | none => .isTrue nofun
      | some t =>
        match decidableAlong step P is t with
        | .isTrue h => .isTrue fun _ ht => Option.some.inj ht ▸ h
        | .isFalse h => .isFalse fun hall => h (hall t rfl)
    inferInstanceAs (Decidable (P i s ∧ _))

section Along

variable {step : ι → σ → Option σ} {P Q : ι → σ → Prop}

/-- Properties that every step has together hold along the same runs. -/
theorem along_congr (h : ∀ i s, P i s ↔ Q i s) (is : List ι) (s : σ) :
    Along step P is s ↔ Along step Q is s := by
  induction is generalizing s with
  | nil => exact Iff.rfl
  | cons i is ih => exact and_congr (h i s) (forall₂_congr fun t _ => ih t)

end Along

/-! ## The trace of a run -/

/-- What a run puts out. -/
def outputs (step : ι → σ → List ο × σ) : List ι → σ → List ο
  | [], _ => []
  | i :: is, s => (step i s).1 ++ outputs step is (step i s).2

/-- The state it ends in. -/
def final (step : ι → σ → List ο × σ) : List ι → σ → σ
  | [], s => s
  | i :: is, s => final step is (step i s).2

section Trace

variable {step : ι → σ → List ο × σ} {P : ι → σ → Prop}

/-- A run goes on where its first part ended. -/
theorem outputs_append (is js : List ι) (s : σ) :
    outputs step (is ++ js) s = outputs step is s ++ outputs step js (final step is s) := by
  induction is generalizing s with
  | nil => rfl
  | cons i is ih =>
    rw [List.cons_append, outputs, outputs, ih, List.append_assoc]
    rfl

theorem final_append (is js : List ι) (s : σ) :
    final step (is ++ js) s = final step js (final step is s) := by
  induction is generalizing s with
  | nil => rfl
  | cons i is ih => exact ih _

/-- **Whatever is put out was put out by a step.** -/
theorem mem_outputs {Q : ο → Prop} {is : List ι} (h : ∀ i ∈ is, ∀ s, ∀ o ∈ (step i s).1, Q o)
    (s : σ) : ∀ o ∈ outputs step is s, Q o := by
  induction is generalizing s with
  | nil => exact fun o ho => absurd ho List.not_mem_nil
  | cons i is ih =>
    intro o ho
    exact (List.mem_append.mp ho).elim (h i List.mem_cons_self s o)
      (ih (fun j hj => h j (List.mem_cons_of_mem i hj)) _ o)

/-- **A relation between start, trace and end** that composes and that every
step has, every run has. -/
theorem final_induction {R : σ → List ο → σ → Prop} (refl : ∀ s, R s [] s)
    (trans : ∀ {s t u l l'}, R s l t → R t l' u → R s (l ++ l') u)
    (h : ∀ i s, R s (step i s).1 (step i s).2) (is : List ι) (s : σ) :
    R s (outputs step is s) (final step is s) := by
  induction is generalizing s with
  | nil => exact refl s
  | cons i is ih => exact trans (h i s) (ih _)

/-- **What is put out one by one** was put out by a step of its own, and what
follows it by the steps that follow. -/
theorem exists_of_outputs_eq_cons (hone : ∀ i s, (step i s).1.length = 1) {is : List ι} {s : σ}
    {o : ο} {after : List ο} (h : outputs step is s = o :: after) :
    ∃ i later, is = i :: later ∧ (step i s).1 = [o]
      ∧ outputs step later (step i s).2 = after := by
  cases is with
  | nil => cases h
  | cons i is =>
    obtain ⟨o', ho'⟩ := List.length_eq_one_iff.mp (hone i s)
    rw [outputs, ho', List.singleton_append] at h
    obtain ⟨rfl, hafter⟩ := List.cons.inj h
    exact ⟨i, is, rfl, ho', hafter⟩

/-- So a trace can be cut where one likes. -/
theorem exists_of_outputs_eq_append (hone : ∀ i s, (step i s).1.length = 1) {is : List ι} {s : σ}
    {before after : List ο} (h : outputs step is s = before ++ after) :
    ∃ earlier later, is = earlier ++ later
      ∧ outputs step later (final step earlier s) = after := by
  induction before generalizing is s with
  | nil => exact ⟨[], is, rfl, h⟩
  | cons o before ih =>
    obtain ⟨i, later, rfl, -, hlater⟩ := exists_of_outputs_eq_cons hone h
    obtain ⟨earlier, later, rfl, hafter⟩ := ih hlater
    exact ⟨i :: earlier, later, rfl, hafter⟩

/-- **Projection.** A step is kept, perhaps as another one, or left out. If
what is kept puts out the same, what is left out puts out nothing, and both
keep the two states related, then the projected run puts out what the run
does. -/
theorem outputs_filterMap {step' : ι → τ → List ο × τ} {project : ι → Option ι}
    {R : σ → τ → Prop}
    (kept : ∀ {i j s t}, project i = some j → P i s → R s t →
      (step i s).1 = (step' j t).1 ∧ R (step i s).2 (step' j t).2)
    (dropped : ∀ {i s t}, project i = none → P i s → R s t →
      (step i s).1 = [] ∧ R (step i s).2 t)
    {is : List ι} {s : σ} {t : τ} (h : Along (fun i s => some (step i s).2) P is s)
    (hR : R s t) :
    outputs step is s = outputs step' (is.filterMap project) t := by
  induction is generalizing s t with
  | nil => rfl
  | cons i is ih =>
    obtain ⟨hi, his⟩ := h
    replace his := his _ rfl
    cases hp : project i with
    | none =>
      obtain ⟨hnothing, hR'⟩ := dropped hp hi hR
      rw [List.filterMap_cons_none hp, outputs, hnothing]
      exact ih his hR'
    | some j =>
      obtain ⟨hsame, hR'⟩ := kept hp hi hR
      rw [List.filterMap_cons_some hp, outputs, outputs, hsame]
      exact congrArg _ (ih his hR')

end Trace

end Run
