import Eastwood.Runs
import Mathlib.Logic.Function.Basic

/-!
# Local actions

A store has resources, each with a state while it is live. An action is
*local* (`Local`) if what it does to a store it does to a larger one as well,
and leaves the rest of that alone, as long as what it acquires is not live in
the rest: acquiring a resource, changing and releasing one are, and so is
looking at one first.

Threads that share a store take turns in any order. If each would get to its
end alone, from nothing to nothing, and every action is local, then in any
order all actions are defined, and when all threads are through nothing is
live (`run_of_alone`). What carries the proof is that the store stays divided
among the threads (`Divided`).
-/

namespace LocalActions

variable {ι α ρ τ : Type*}

/-- The resources that are live, with their states. -/
abbrev Store (ρ τ : Type*) := ρ → Option τ

/-- Stores without a resource in common. -/
def Apart (m f : Store ρ τ) : Prop := ∀ r, m r = none ∨ f r = none

/-- Two stores as one. -/
def both (m f : Store ρ τ) : Store ρ τ := fun r => (m r).or (f r)

/-- **A local action**, that acquires some resources. -/
def Local (new : List ρ) (act : Store ρ τ → Option (Store ρ τ)) : Prop :=
  ∀ {m m' f}, act m = some m' → Apart m f → (∀ r ∈ new, f r = none) →
    act (both m f) = some (both m' f) ∧ Apart m' f

/-! ## Actions -/

/-- What is done depends on a resource. -/
def looking (r : ρ) (k : τ → Store ρ τ → Option (Store ρ τ)) (m : Store ρ τ) :
    Option (Store ρ τ) :=
  (m r).bind fun t => k t m

section Actions

variable {r : ρ} {t : τ} {m f : Store ρ τ}

theorem looking_of_some {k : τ → Store ρ τ → Option (Store ρ τ)} (h : m r = some t) :
    looking r k m = k t m := by
  rw [looking, h]
  rfl

theorem both_of_some (h : m r = some t) : both m f r = some t := by
  rw [both, h]
  rfl

theorem Apart.eq_none (h : Apart m f) (hr : m r = some t) : f r = none :=
  (h r).resolve_left (by rw [hr]; exact Option.some_ne_none t)

theorem Local.looking {k : τ → Store ρ τ → Option (Store ρ τ)} {new : List ρ}
    (hk : ∀ t, Local new (k t)) : Local new (looking r k) := by
  intro m m' f hact hapart hnew
  obtain ⟨t, hm, hkt⟩ := Option.bind_eq_some_iff.mp hact
  rw [LocalActions.looking, both_of_some hm]
  exact hk t hkt hapart hnew

theorem local_none : Local (τ := τ) ([] : List ρ) fun _ => none := by
  intro m m' f hact
  cases hact

variable [DecidableEq ρ]

/-- A resource is acquired, -/
def acquire (r : ρ) (t : τ) (m : Store ρ τ) : Option (Store ρ τ) :=
  if (m r).isNone then some (Function.update m r (some t)) else none

/-- changed -/
def change (r : ρ) (h : τ → Option τ) (m : Store ρ τ) : Option (Store ρ τ) :=
  ((m r).bind h).map fun t => Function.update m r (some t)

/-- or released. -/
def release (r : ρ) (m : Store ρ τ) : Option (Store ρ τ) :=
  if (m r).isSome then some (Function.update m r none) else none

theorem acquire_of_none (h : m r = none) :
    acquire r t m = some (Function.update m r (some t)) := by
  rw [acquire, h]
  rfl

theorem change_of_some {h : τ → Option τ} {t' : τ} (hr : m r = some t) (ht : h t = some t') :
    change r h m = some (Function.update m r (some t')) := by
  rw [change, hr, Option.bind_some, ht]
  rfl

theorem release_of_some (h : m r = some t) : release r m = some (Function.update m r none) := by
  rw [release, h]
  rfl

theorem both_update (o : Option τ) (hf : f r = none) :
    both (Function.update m r o) f = Function.update (both m f) r o := by
  funext r'
  by_cases hr : r' = r
  · rw [hr, Function.update_self, both, Function.update_self, hf, Option.or_none]
  · rw [Function.update_of_ne hr, both, Function.update_of_ne hr]
    rfl

theorem Apart.update (h : Apart m f) (o : Option τ) (hf : f r = none) :
    Apart (Function.update m r o) f := by
  intro r'
  by_cases hr : r' = r
  · exact Or.inr (hr ▸ hf)
  · rw [Function.update_of_ne hr]
    exact h r'

theorem local_acquire : Local [r] (acquire (τ := τ) r t) := by
  intro m m' f hact hapart hnew
  have hf : f r = none := hnew r (List.mem_singleton_self r)
  unfold acquire at hact ⊢
  split at hact
  · rename_i hm
    obtain rfl := Option.some.inj hact
    rw [Option.isNone_iff_eq_none] at hm
    refine ⟨?_, hapart.update _ hf⟩
    rw [both_update _ hf, if_pos]
    rw [both, hm, hf]
    rfl
  · cases hact

theorem local_change {h : τ → Option τ} : Local [] (change r h) := by
  intro m m' f hact hapart _
  unfold change at hact ⊢
  cases hm : m r with
  | none =>
    rw [hm] at hact
    cases hact
  | some t =>
    have hf := hapart.eq_none hm
    rw [hm, Option.bind_some] at hact
    obtain ⟨t', ht', rfl⟩ := Option.map_eq_some_iff.mp hact
    rw [both_of_some hm, Option.bind_some, ht', both_update _ hf]
    exact ⟨rfl, hapart.update _ hf⟩

theorem local_release : Local [] (release (τ := τ) r) := by
  intro m m' f hact hapart _
  unfold release at hact ⊢
  split at hact
  · rename_i hm
    obtain ⟨t, hm⟩ := Option.isSome_iff_exists.mp hm
    obtain rfl := Option.some.inj hact
    have hf := hapart.eq_none hm
    rw [both_of_some hm, if_pos Option.isSome_some, both_update _ hf]
    exact ⟨rfl, hapart.update _ hf⟩
  · cases hact

end Actions

/-! ## Threads -/

/-- What threads have to do, and the store they share. -/
structure Pool (ι α ρ τ : Type*) where
  todo : ι → List α
  store : Store ρ τ

section Threads

variable [DecidableEq ι] (act : α → Store ρ τ → Option (Store ρ τ)) (new : α → List ρ)

/-- **A turn** of a thread; none if its action is undefined. -/
def turn (i : ι) (p : Pool ι α ρ τ) : Option (Pool ι α ρ τ) :=
  match p.todo i with
  | [] => some p
  | a :: as => (act a p.store).map fun m => ⟨Function.update p.todo i as, m⟩

/-- What a thread acquires at its turn is not live. -/
def Fresh (i : ι) (p : Pool ι α ρ τ) : Prop :=
  ∀ a ∈ (p.todo i).head?, ∀ r ∈ new a, p.store r = none

/-- The pool after some turns. -/
def run : List ι → Pool ι α ρ τ → Option (Pool ι α ρ τ)
  | [], p => some p
  | i :: is, p => (turn act i p).bind (run is)

/-- A thread alone. -/
def alone : List α → Store ρ τ → Option (Store ρ τ)
  | [], m => some m
  | a :: as, m => (act a m).bind (alone as)

omit [DecidableEq ι] in
/-- A thread goes on where its first part ended. -/
theorem alone_append (as bs : List α) (m : Store ρ τ) :
    alone act (as ++ bs) m = (alone act as m).bind (alone act bs) := by
  induction as generalizing m with
  | nil => rfl
  | cons a as ih =>
    rw [List.cons_append, alone, alone, Option.bind_assoc]
    exact congrArg _ (funext ih)

/-- **A store divided among threads**, each of which gets to its end with its
part. -/
structure Divided (p : Pool ι α ρ τ) (own : ι → Store ρ τ) : Prop where
  apart : ∀ {i j}, i ≠ j → Apart (own i) (own j)
  store : ∀ {r t}, p.store r = some t ↔ ∃ i, own i r = some t
  finishes : ∀ i, alone act (p.todo i) (own i) = some fun _ => none

variable {act new} {p : Pool ι α ρ τ} {own : ι → Store ρ τ}

/-- What is not a thread's. -/
def others (own : ι → Store ρ τ) (p : Pool ι α ρ τ) (i : ι) : Store ρ τ := fun r =>
  if (own i r).isSome then none else p.store r

omit [DecidableEq ι] in
theorem apart_others {i : ι} : Apart (own i) (others own p i) := by
  intro r
  unfold others
  cases own i r with
  | none => exact Or.inl rfl
  | some t => exact Or.inr rfl

omit [DecidableEq ι] in
theorem Divided.both_others (h : Divided act p own) (i : ι) :
    both (own i) (others own p i) = p.store := by
  funext r
  unfold both others
  cases hown : own i r with
  | none => rfl
  | some t => exact (h.store.mpr ⟨i, hown⟩).symm

omit [DecidableEq ι] in
theorem Divided.others_of_own (h : Divided act p own) {i j : ι} (hij : i ≠ j) {r : ρ} {t : τ}
    (hown : own j r = some t) : others own p i r = some t := by
  have hi : own i r = none := (h.apart (Ne.symm hij)).eq_none hown
  rw [others, hi]
  exact h.store.mpr ⟨j, hown⟩

omit [DecidableEq ι] in
/-- What is not a thread's is another's. -/
theorem Divided.others_eq_some_iff (h : Divided act p own) {i : ι} {r : ρ} {t : τ} :
    others own p i r = some t ↔ ∃ j, j ≠ i ∧ own j r = some t := by
  constructor
  · intro hr
    unfold others at hr
    cases hown : own i r with
    | some t' =>
      rw [hown] at hr
      cases hr
    | none =>
      rw [hown] at hr
      obtain ⟨j, hj⟩ := h.store.mp hr
      refine ⟨j, ?_, hj⟩
      rintro rfl
      rw [hown] at hj
      cases hj
  · rintro ⟨j, hji, hj⟩
    exact h.others_of_own (Ne.symm hji) hj

/-- A thread's new part is apart from the others' if it is from what is not
the thread's, -/
theorem Divided.apart_update (h : Divided act p own) {i : ι} {m : Store ρ τ}
    (hapart : Apart m (others own p i)) {j k : ι} (hjk : j ≠ k) :
    Apart (Function.update own i m j) (Function.update own i m k) := by
  have hpart : ∀ j, i ≠ j → Apart m (own j) := by
    intro j hij r
    cases hown : own j r with
    | none => exact Or.inr rfl
    | some t =>
      refine Or.inl ((hapart r).resolve_right ?_)
      rw [h.others_of_own hij hown]
      exact Option.some_ne_none t
  by_cases hj : j = i <;> by_cases hk : k = i
  · exact absurd (hj.trans hk.symm) hjk
  · rw [hj, Function.update_self, Function.update_of_ne hk]
    exact hpart k (Ne.symm hk)
  · rw [hk, Function.update_self, Function.update_of_ne hj]
    exact fun r => (hpart j (Ne.symm hj) r).symm
  · rw [Function.update_of_ne hj, Function.update_of_ne hk]
    exact h.apart hjk

/-- and with that makes up the store. -/
theorem Divided.both_update (h : Divided act p own) {i : ι} {m : Store ρ τ}
    (hapart : Apart m (others own p i)) {r : ρ} {t : τ} :
    both m (others own p i) r = some t ↔ ∃ j, Function.update own i m j r = some t := by
  constructor
  · intro hr
    cases hmr : m r with
    | some t' =>
      have hsame : t' = t := Option.some.inj ((both_of_some hmr).symm.trans hr)
      exact ⟨i, by rw [Function.update_self, hmr, hsame]⟩
    | none =>
      rw [both, hmr, Option.none_or] at hr
      obtain ⟨j, hji, hj⟩ := h.others_eq_some_iff.mp hr
      exact ⟨j, by rw [Function.update_of_ne hji, hj]⟩
  · rintro ⟨j, hj⟩
    by_cases hji : j = i
    · rw [hji, Function.update_self] at hj
      exact both_of_some hj
    · rw [Function.update_of_ne hji] at hj
      have hothers := h.others_of_own (Ne.symm hji) hj
      rw [both, (hapart r).resolve_right (by rw [hothers]; exact Option.some_ne_none t), hothers]
      rfl

/-- **A turn keeps the store divided.** -/
theorem Divided.turn (h : Divided act p own) (hlocal : ∀ a, Local (new a) (act a)) {i : ι}
    (hfresh : Fresh new i p) : ∃ p' own', turn act i p = some p' ∧ Divided act p' own' := by
  have hfinish := h.finishes i
  cases htodo : p.todo i with
  | nil => exact ⟨p, own, by rw [LocalActions.turn, htodo], h⟩
  | cons a as =>
    rw [htodo, alone] at hfinish
    obtain ⟨m, hm, has⟩ := Option.bind_eq_some_iff.mp hfinish
    have hnew : ∀ r ∈ new a, others own p i r = none := by
      intro r hr
      have hstore := hfresh a (by rw [htodo]; rfl) r hr
      rw [others, hstore, ite_self]
    obtain ⟨hact, hapart⟩ := hlocal a hm apart_others hnew
    rw [h.both_others i] at hact
    refine ⟨⟨Function.update p.todo i as, both m (others own p i)⟩, Function.update own i m,
      by rw [LocalActions.turn, htodo]; exact congrArg (Option.map _) hact,
      h.apart_update hapart, h.both_update hapart, ?_⟩
    intro j
    change alone act (Function.update p.todo i as j) (Function.update own i m j) = _
    by_cases hj : j = i
    · rw [hj, Function.update_self, Function.update_self]
      exact has
    · rw [Function.update_of_ne hj, Function.update_of_ne hj]
      exact h.finishes j

theorem Divided.run (h : Divided act p own) (hlocal : ∀ a, Local (new a) (act a))
    {turns : List ι} (hturns : Run.Along (LocalActions.turn act) (Fresh new) turns p) :
    ∃ p' own', run act turns p = some p' ∧ Divided act p' own' := by
  induction turns generalizing p own with
  | nil => exact ⟨p, own, rfl, h⟩
  | cons i turns ih =>
    obtain ⟨p₁, own₁, hp₁, h₁⟩ := h.turn hlocal hturns.1
    obtain ⟨p', own', hp', h'⟩ := ih h₁ (hturns.2 p₁ hp₁)
    refine ⟨p', own', ?_, h'⟩
    rw [LocalActions.run, hp₁]
    exact hp'

/-- **Threads that are fine alone are fine together**, in any order: every
action is defined, and once all are through nothing is live. -/
theorem run_of_alone (hlocal : ∀ a, Local (new a) (act a)) {todo : ι → List α}
    (halone : ∀ i, alone act (todo i) (fun _ => none) = some fun _ => none) {turns : List ι}
    (hturns : Run.Along (LocalActions.turn act) (Fresh new) turns ⟨todo, fun _ => none⟩) :
    ∃ p, run act turns ⟨todo, fun _ => none⟩ = some p
      ∧ ((∀ i, p.todo i = []) → ∀ r, p.store r = none) := by
  have hstart : Divided act ⟨todo, fun _ => none⟩ fun _ _ => none := by
    refine ⟨fun _ _ => Or.inl rfl, fun {r t} => iff_of_false (fun h => ?_) ?_, halone⟩
    · cases h
    · rintro ⟨i, hi⟩
      cases hi
  obtain ⟨p, own, hp, h⟩ := hstart.run hlocal hturns
  refine ⟨p, hp, fun htodo r => ?_⟩
  cases hr : p.store r with
  | none => rfl
  | some t =>
    obtain ⟨i, hi⟩ := h.store.mp hr
    have hfinish := h.finishes i
    rw [htodo i, alone] at hfinish
    rw [Option.some.inj hfinish] at hi
    cases hi

end Threads

end LocalActions
