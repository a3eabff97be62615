import Mathlib.Logic.Function.Basic

/-!
# Computations that throw

A computation on a state may return or throw, and what it has done to the
state by then stays done: nothing is rolled back. Sequences of such
computations are written with `do`; a throw ends the sequence.

Six properties pass from the steps of a sequence to the whole of it: keeping
an invariant, whether the end is a return or a throw (`Throwing.Keeps`), and
returning from it under a condition besides (`Throwing.Returns`), what is true
where it returns (`Throwing.Gives`) and of what it throws
(`Throwing.ThrowsOnly`), not looking at a part of the state, which is
commuting with whatever changes that part alone (`Throwing.Ignores`), and only
reading, from no more than what some relation of states compares
(`Throwing.ReadsWithin`).
-/

variable {σ ε α β ι : Type}

/-- **A computation that may throw**: from a state to how it ended and the
state it left. -/
def Throwing (σ ε α : Type) : Type := σ → Except ε α × σ

namespace Throwing

instance : Monad (Throwing σ ε) where
  pure a := fun s => (.ok a, s)
  bind m k := fun s =>
    match m s with
    | (.error e, s) => (.error e, s)
    | (.ok a, s) => k a s

/-- What is answered from outside: a value, or a throw. -/
def answer (r : Except ε α) : Throwing σ ε α := fun s => (r, s)

/-- What is read from the state, if it can be. -/
def reads (f : σ → Except ε α) : Throwing σ ε α := fun s => (f s, s)

/-- What is done to the state. -/
def modify (f : σ → σ) : Throwing σ ε Unit := fun s => (.ok (), f s)

/-- What is thrown, as something else. -/
def mapError {ε' : Type} (f : ε → ε') (m : Throwing σ ε α) : Throwing σ ε' α :=
  fun s => ((m s).1.mapError f, (m s).2)

/-- What is thrown is caught, and what was done by then stays. -/
def caught (m : Throwing σ ε Unit) : Throwing σ ε Unit := fun s => (.ok (), (m s).2)

section Bind

variable {m : Throwing σ ε α} {k : α → Throwing σ ε β} {s s' : σ} {a : α} {e : ε}

/-- A step that returned is followed by the next one, -/
theorem bind_of_ok (h : m s = (.ok a, s')) : (m >>= k) s = k a s' := by
  show (match m s with | (.error e, s) => _ | (.ok a, s) => _ : Except ε β × σ) = _
  rw [h]

/-- and one that threw is not. -/
theorem bind_of_error (h : m s = (.error e, s')) : (m >>= k) s = (.error e, s') := by
  show (match m s with | (.error e, s) => _ | (.ok a, s) => _ : Except ε β × σ) = _
  rw [h]

/-- **How a sequence can have ended**: in its first step, or after it. -/
theorem bind_cases (m : Throwing σ ε α) (k : α → Throwing σ ε β) (s : σ) :
    (∃ e s', m s = (.error e, s') ∧ (m >>= k) s = (.error e, s'))
      ∨ ∃ a s', m s = (.ok a, s') ∧ (m >>= k) s = k a s' := by
  cases h : m s with
  | mk result s' =>
    cases result with
    | error e => exact Or.inl ⟨e, s', rfl, bind_of_error h⟩
    | ok a => exact Or.inr ⟨a, s', rfl, bind_of_ok h⟩

/-- A sequence that returned ran its first step. -/
theorem exists_of_bind_ok {b : β} {s'' : σ} (h : (m >>= k) s = (.ok b, s'')) :
    ∃ a s', m s = (.ok a, s') ∧ k a s' = (.ok b, s'') := by
  obtain ⟨e, s', -, hbind⟩ | ⟨a, s', hm, hbind⟩ := bind_cases m k s
  · rw [hbind] at h
    cases (Prod.mk.inj h).1
  · exact ⟨a, s', hm, hbind.symm.trans h⟩

/-- What is only made of a result does not throw. -/
theorem isOk_bind_pure (f : α → β) :
    ((m >>= fun a => pure (f a)) s).1.isOk ↔ (m s).1.isOk := by
  obtain ⟨e, s', hms, hbind⟩ | ⟨a, s', hms, hbind⟩ := bind_cases m (fun a => pure (f a)) s
  · rw [hbind, hms]
    exact Iff.rfl
  · rw [hbind, hms]
    exact Iff.rfl

/-- A sequence in a sequence is one sequence. -/
theorem bind_assoc {γ : Type} (m : Throwing σ ε α) (k : α → Throwing σ ε β)
    (l : β → Throwing σ ε γ) : (m >>= k) >>= l = m >>= fun a => k a >>= l := by
  funext s
  obtain ⟨e, s', hm, hbind⟩ | ⟨a, s', hm, hbind⟩ := bind_cases m k s
  · rw [bind_of_error hm, bind_of_error hbind]
  · rw [bind_of_ok hm]
    show (match (m >>= k) s with | (.error e, s) => _ | (.ok a, s) => _ : Except ε γ × σ) = _
    rw [hbind]
    rfl

end Bind

/-! ## Invariants -/

/-- **It keeps an invariant**, however it ends. -/
def Keeps (I : σ → Prop) (m : Throwing σ ε α) : Prop := ∀ s, I s → I (m s).2

section Keeps

variable {I : σ → Prop} {m : Throwing σ ε α} {k : α → Throwing σ ε β}

theorem Keeps.pure (a : α) : Keeps (ε := ε) I (Pure.pure a) := fun _ h => h

theorem Keeps.answer (r : Except ε α) : Keeps I (answer r) := fun _ h => h

theorem Keeps.reads (f : σ → Except ε α) : Keeps I (reads f) := fun _ h => h

theorem Keeps.modify {f : σ → σ} (h : ∀ s, I s → I (f s)) : Keeps (ε := ε) I (modify f) := h

theorem Keeps.bind (hm : Keeps I m) (hk : ∀ a, Keeps I (k a)) : Keeps I (m >>= k) := by
  intro s hs
  have hfirst := hm s hs
  obtain ⟨e, s', hms, hbind⟩ | ⟨a, s', hms, hbind⟩ := bind_cases m k s
  · rw [hbind]
    rwa [hms] at hfirst
  · rw [hbind]
    rw [hms] at hfirst
    exact hk a s' hfirst

end Keeps

/-- **It keeps an invariant, and returns from it** if `P`. -/
def Returns (P : Prop) (I : σ → Prop) (m : Throwing σ ε α) : Prop :=
  ∀ s, I s → I (m s).2 ∧ (P → (m s).1.isOk)

section Returns

variable {P : Prop} {I : σ → Prop} {m : Throwing σ ε α} {k : α → Throwing σ ε β}

theorem Returns.pure (a : α) : Returns (ε := ε) P I (Pure.pure a) := fun _ h => ⟨h, fun _ => rfl⟩

theorem Returns.answer {r : Except ε α} (h : P → r.isOk) : Returns P I (answer r) :=
  fun _ hs => ⟨hs, h⟩

theorem Returns.reads {f : σ → Except ε α} (h : ∀ s, I s → (f s).isOk) : Returns P I (reads f) :=
  fun s hs => ⟨hs, fun _ => h s hs⟩

theorem Returns.modify {f : σ → σ} (h : ∀ s, I s → I (f s)) : Returns (ε := ε) P I (modify f) :=
  fun s hs => ⟨h s hs, fun _ => rfl⟩

theorem Returns.bind (hm : Returns P I m) (hk : ∀ a, Returns P I (k a)) :
    Returns P I (m >>= k) := by
  intro s hs
  obtain ⟨hfirst, hok⟩ := hm s hs
  obtain ⟨e, s', hms, hbind⟩ | ⟨a, s', hms, hbind⟩ := bind_cases m k s
  · rw [hms] at hfirst hok
    rw [hbind]
    exact ⟨hfirst, fun hP => absurd (hok hP) Bool.false_ne_true⟩
  · rw [hms] at hfirst
    rw [hbind]
    exact hk a s' hfirst

theorem Returns.keeps (h : Returns P I m) : Keeps I m := fun s hs => (h s hs).1

end Returns

/-! ## Results -/

/-- **What is true where it returns**, if `P` was where it began. -/
def Gives (P : σ → Prop) (m : Throwing σ ε α) (Q : α → σ → Prop) : Prop :=
  ∀ s a s', P s → m s = (.ok a, s') → Q a s'

section Gives

variable {P : σ → Prop} {Q : α → σ → Prop} {m : Throwing σ ε α} {k : α → Throwing σ ε β}

theorem Gives.bind {R : β → σ → Prop} (hm : Gives P m Q) (hk : ∀ a, Gives (Q a) (k a) R) :
    Gives P (m >>= k) R := by
  intro s b s'' hs h
  obtain ⟨a, s', hms, hks⟩ := exists_of_bind_ok h
  exact hk a s' b s'' (hm s a s' hs hms) hks

/-- Only what the last step needs is needed of the others. -/
theorem Gives.of_last {R : β → σ → Prop} (hk : ∀ a, Gives (fun _ => True) (k a) R) :
    Gives P (m >>= k) R := by
  intro s b s'' _ h
  obtain ⟨a, s', -, hks⟩ := exists_of_bind_ok h
  exact hk a s' b s'' trivial hks

/-- An invariant is one such fact. -/
theorem Keeps.gives {I : σ → Prop} (h : Keeps I m) : Gives I m fun _ => I := by
  intro s a s' hs hms
  have hafter := h s hs
  rwa [hms] at hafter

end Gives

/-! ## What is thrown -/

/-- **All that it throws has a property.** -/
def ThrowsOnly (P : ε → Prop) (m : Throwing σ ε α) : Prop := ∀ s e, (m s).1 = .error e → P e

section ThrowsOnly

variable {P : ε → Prop} {m : Throwing σ ε α} {k : α → Throwing σ ε β}

theorem ThrowsOnly.mapError {ε' : Type} {f : ε' → ε} (m : Throwing σ ε' α) (hf : ∀ e, P (f e)) :
    ThrowsOnly P (m.mapError f) := by
  intro s e h
  replace h : (m s).1.mapError f = .error e := h
  cases hm : (m s).1 with
  | error e' =>
    rw [hm] at h
    exact Except.error.inj h ▸ hf e'
  | ok a =>
    rw [hm] at h
    cases h

theorem ThrowsOnly.bind (hm : ThrowsOnly P m) (hk : ∀ a, ThrowsOnly P (k a)) :
    ThrowsOnly P (m >>= k) := by
  intro s e h
  obtain ⟨e', s', hms, hbind⟩ | ⟨a, s', -, hbind⟩ := bind_cases m k s
  · rw [hbind] at h
    obtain rfl := Except.error.inj h
    exact hm s e' (congrArg Prod.fst hms)
  · rw [hbind] at h
    exact hk a s' e h

end ThrowsOnly

/-! ## Frames -/

/-- **It does not look at what `f` changes**, in any state of the invariant,
and keeps the invariant. -/
def Ignores (I : σ → Prop) (f : σ → σ) (m : Throwing σ ε α) : Prop :=
  ∀ s, I s → I (m s).2 ∧ m (f s) = ((m s).1, f (m s).2)

section Ignores

variable {I : σ → Prop} {f : σ → σ} {m : Throwing σ ε α} {k : α → Throwing σ ε β}

theorem Ignores.pure (a : α) : Ignores (ε := ε) I f (Pure.pure a) := fun _ h => ⟨h, rfl⟩

theorem Ignores.answer (r : Except ε α) : Ignores I f (answer r) := fun _ h => ⟨h, rfl⟩

theorem Ignores.reads {g : σ → Except ε α} (h : ∀ s, I s → g (f s) = g s) :
    Ignores I f (reads g) := fun s hs => ⟨hs, congrArg (·, f s) (h s hs)⟩

theorem Ignores.modify {g : σ → σ} (hI : ∀ s, I s → I (g s)) (h : ∀ s, I s → g (f s) = f (g s)) :
    Ignores (ε := ε) I f (modify g) := fun s hs => ⟨hI s hs, congrArg (Except.ok (), ·) (h s hs)⟩

theorem Ignores.bind (hm : Ignores I f m) (hk : ∀ a, Ignores I f (k a)) :
    Ignores I f (m >>= k) := by
  intro s hs
  obtain ⟨hfirst, hsame⟩ := hm s hs
  obtain ⟨e, s', hms, hbind⟩ | ⟨a, s', hms, hbind⟩ := bind_cases m k s
  · rw [hms] at hfirst hsame
    rw [hbind, bind_of_error hsame]
    exact ⟨hfirst, rfl⟩
  · rw [hms] at hfirst hsame
    rw [hbind, bind_of_ok hsame]
    exact hk a s' hfirst

theorem Ignores.keeps (h : Ignores I f m) : Keeps I m := fun s hs => (h s hs).1

end Ignores

/-! ## Readers -/

/-- **It only reads, and only what `R` compares**: no state is changed, and
from two related ones it ends alike. -/
def ReadsWithin (R : σ → σ → Prop) (m : Throwing σ ε α) : Prop :=
  (∀ s, (m s).2 = s) ∧ ∀ s s', R s s' → (m s').1 = (m s).1

section ReadsWithin

variable {R : σ → σ → Prop} {m : Throwing σ ε α} {k : α → Throwing σ ε β}

theorem ReadsWithin.pure (a : α) : ReadsWithin (ε := ε) R (Pure.pure a) :=
  ⟨fun _ => rfl, fun _ _ _ => rfl⟩

theorem ReadsWithin.answer (r : Except ε α) : ReadsWithin R (answer r) :=
  ⟨fun _ => rfl, fun _ _ _ => rfl⟩

theorem ReadsWithin.reads {f : σ → Except ε α} (h : ∀ s s', R s s' → f s' = f s) :
    ReadsWithin R (reads f) := ⟨fun _ => rfl, h⟩

theorem ReadsWithin.mapError {ε' : Type} (hm : ReadsWithin R m) (f : ε → ε') :
    ReadsWithin R (m.mapError f) :=
  ⟨hm.1, fun s s' hR => congrArg (Except.mapError f) (hm.2 s s' hR)⟩

/-- A reader and what follows it return if both do, from the same state. -/
theorem ReadsWithin.isOk_bind (hm : ReadsWithin R m) (s : σ) :
    ((m >>= k) s).1.isOk ↔ ∃ a, (m s).1 = .ok a ∧ (k a s).1.isOk := by
  obtain ⟨e, s', hms, hbind⟩ | ⟨a, s', hms, hbind⟩ := bind_cases m k s
  · rw [hbind, hms]
    exact iff_of_false Bool.false_ne_true nofun
  · obtain rfl : s' = s := (congrArg Prod.snd hms).symm.trans (hm.1 s)
    rw [hbind, hms]
    constructor
    · exact fun h => ⟨a, rfl, h⟩
    · rintro ⟨a', ha', h⟩
      obtain rfl := Except.ok.inj ha'
      exact h

/-- What does not use what was read only has to return. -/
theorem ReadsWithin.isOk_bind_const {k : Throwing σ ε β} (hm : ReadsWithin R m) (s : σ) :
    ((m >>= fun _ => k) s).1.isOk ↔ (m s).1.isOk ∧ (k s).1.isOk := by
  rw [hm.isOk_bind]
  cases (m s).1 with
  | error e => exact iff_of_false nofun fun h => Bool.false_ne_true h.1
  | ok a => exact ⟨fun ⟨_, _, h⟩ => ⟨rfl, h⟩, fun ⟨_, h⟩ => ⟨a, rfl, h⟩⟩

theorem ReadsWithin.bind (hm : ReadsWithin R m) (hk : ∀ a, ReadsWithin R (k a)) :
    ReadsWithin R (m >>= k) := by
  have hrun : ∀ s, (∃ e, (m s).1 = .error e ∧ (m >>= k) s = (.error e, s))
      ∨ ∃ a, (m s).1 = .ok a ∧ (m >>= k) s = k a s := by
    intro s
    obtain ⟨e, s', hms, hbind⟩ | ⟨a, s', hms, hbind⟩ := bind_cases m k s
    · obtain rfl : s' = s := (congrArg Prod.snd hms).symm.trans (hm.1 s)
      exact Or.inl ⟨e, congrArg Prod.fst hms, hbind⟩
    · obtain rfl : s' = s := (congrArg Prod.snd hms).symm.trans (hm.1 s)
      exact Or.inr ⟨a, congrArg Prod.fst hms, hbind⟩
  refine ⟨fun s => ?_, fun s s' hR => ?_⟩
  · obtain ⟨e, -, hbind⟩ | ⟨a, -, hbind⟩ := hrun s
    · rw [hbind]
    · rw [hbind]
      exact (hk a).1 s
  · have hsame := hm.2 s s' hR
    obtain ⟨e, he, hbind⟩ | ⟨a, ha, hbind⟩ := hrun s
    · obtain ⟨e', he', hbind'⟩ | ⟨a', ha', -⟩ := hrun s'
      · obtain rfl := Except.error.inj (he'.symm.trans (hsame.trans he))
        rw [hbind, hbind']
      · cases ha'.symm.trans (hsame.trans he)
    · obtain ⟨e', he', -⟩ | ⟨a', ha', hbind'⟩ := hrun s'
      · cases he'.symm.trans (hsame.trans ha)
      · obtain rfl := Except.ok.inj (ha'.symm.trans (hsame.trans ha))
        rw [hbind, hbind']
        exact (hk a').2 s s' hR

end ReadsWithin

/-! ## Runs -/

/-- The state after some computations, one after the other, each however it
ends. -/
def after (run : ι → Throwing σ ε α) (cs : List ι) (s : σ) : σ :=
  cs.foldl (fun s c => (run c s).2) s

/-- Something is true of every one of them and the state it finds. -/
def Along (run : ι → Throwing σ ε α) (P : ι → σ → Prop) : List ι → σ → Prop
  | [], _ => True
  | c :: cs, s => P c s ∧ Along run P cs (run c s).2

section Runs

variable {run : ι → Throwing σ ε α} {P Q : ι → σ → Prop} {I : σ → Prop}

/-- What follows at each follows along all, -/
theorem Along.mono (h : ∀ c s, P c s → Q c s) {cs : List ι} {s : σ} (hP : Along run P cs s) :
    Along run Q cs s := by
  induction cs generalizing s with
  | nil => trivial
  | cons c cs ih => exact ⟨h c s hP.1, ih hP.2⟩

/-- and what is equivalent at each, wherever an invariant holds that every one
of them keeps, is equivalent along all. -/
theorem along_congr (hI : ∀ c, Keeps I (run c)) {cs : List ι}
    (h : ∀ c ∈ cs, ∀ s, I s → (P c s ↔ Q c s)) {s : σ} (hs : I s) :
    Along run P cs s ↔ Along run Q cs s := by
  induction cs generalizing s with
  | nil => exact Iff.rfl
  | cons c cs ih =>
    exact and_congr (h c List.mem_cons_self s hs)
      (ih (fun c' hc' => h c' (List.mem_cons_of_mem c hc')) (hI c s hs))

/-- An invariant that every one of them keeps holds after all. -/
theorem after_keeps (h : ∀ c, Keeps I (run c)) (cs : List ι) {s : σ} (hs : I s) :
    I (after run cs s) := by
  induction cs generalizing s with
  | nil => exact hs
  | cons c cs ih => exact ih (h c s hs)

/-- **What each step that has `P` makes of the invariant**: a run whose steps
all have it ends in the invariant, and has `Q` at each step. -/
theorem Along.after_of (h : ∀ c s, I s → P c s → Q c s ∧ I (run c s).2) {cs : List ι} {s : σ}
    (hs : I s) (hP : Along run P cs s) : Along run Q cs s ∧ I (after run cs s) := by
  induction cs generalizing s with
  | nil => exact ⟨trivial, hs⟩
  | cons c cs ih =>
    obtain ⟨hQ, hI⟩ := h c s hs hP.1
    exact (ih hI hP.2).imp_left fun hall => ⟨hQ, hall⟩

/-- What none of them looks at matters to none of them. -/
theorem after_ignores {f : σ → σ} (h : ∀ c, Ignores I f (run c)) (cs : List ι) {s : σ}
    (hs : I s) : after run cs (f s) = f (after run cs s) := by
  induction cs generalizing s with
  | nil => rfl
  | cons c cs ih =>
    obtain ⟨hkept, hsame⟩ := h c s hs
    show after run cs (run c (f s)).2 = f (after run cs (run c s).2)
    rw [hsame]
    exact ih hkept

end Runs

end Throwing
