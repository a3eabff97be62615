import Mathlib.Data.List.Basic

/-!
# Batches of entries

A batch is a list of entries that somebody else wrote. A decoder turns them
one after the other into what the program works with (`decodeAll`): it may
skip one, and it may throw, which ends the batch and not the entry.

Whether an entry that is no good is the only one to suffer from that is a
comparison of two runs, with the entry and without it, in whatever company it
comes (`Isolated`). Being skipped is enough (`Isolated.of_skip`).
-/

namespace Batch

variable {E M σ ρ ε : Type}

/-- **The loop of a decoder**: an entry is decoded, skipped, or throws. -/
def decodeAll (decode : E → Except ε (Option M)) : List E → Except ε (List M)
  | [] => .ok []
  | e :: es =>
    match decode e, decodeAll decode es with
    | .error x, _ => .error x
    | .ok _, .error x => .error x
    | .ok m, .ok ms => .ok (m.toList ++ ms)

section Decoding

variable {decode : E → Except ε (Option M)} {e : E} {es pre post : List E} {m : Option M} {x : ε}

theorem decodeAll_cons_error (h : decode e = .error x) : decodeAll decode (e :: es) = .error x := by
  rw [decodeAll, h]

theorem decodeAll_cons_ok (h : decode e = .ok m) :
    decodeAll decode (e :: es) = (decodeAll decode es).map (m.toList ++ ·) := by
  rw [decodeAll, h]
  cases decodeAll decode es <;> rfl

/-- An entry that is skipped might as well not be there. -/
theorem decodeAll_skip (h : decode e = .ok none) :
    decodeAll decode (pre ++ e :: post) = decodeAll decode (pre ++ post) := by
  induction pre with
  | nil =>
    show decodeAll decode (e :: post) = decodeAll decode post
    rw [decodeAll_cons_ok h]
    cases decodeAll decode post <;> rfl
  | cons e' pre ih =>
    rw [List.cons_append, List.cons_append, decodeAll, decodeAll, ih]

/-- Nor might one that is decoded, and of which nothing is kept. -/
theorem filterMap_decodeAll {N : Type} {g : M → Option N} (h : decode e = .ok m)
    (hg : ∀ x ∈ m, g x = none) :
    (decodeAll decode (pre ++ e :: post)).map (List.filterMap g)
      = (decodeAll decode (pre ++ post)).map (List.filterMap g) := by
  induction pre with
  | nil =>
    have hnone : m.toList.filterMap g = [] :=
      List.filterMap_eq_nil_iff.mpr fun x hx => hg x (Option.mem_toList.mp hx)
    rw [List.nil_append, List.nil_append, decodeAll_cons_ok h]
    cases decodeAll decode post with
    | error x => rfl
    | ok ms =>
      show Except.ok (List.filterMap g (m.toList ++ ms)) = Except.ok (List.filterMap g ms)
      rw [List.filterMap_append, hnone, List.nil_append]
  | cons e' pre ih =>
    rw [List.cons_append, List.cons_append]
    cases he' : decode e' with
    | error x => rw [decodeAll_cons_error he', decodeAll_cons_error he']
    | ok m' =>
      rw [decodeAll_cons_ok he', decodeAll_cons_ok he']
      cases h1 : decodeAll decode (pre ++ e :: post) with
      | error x =>
        cases h2 : decodeAll decode (pre ++ post) with
        | error y =>
          rw [h1, h2] at ih
          exact congrArg Except.error (Except.error.inj ih)
        | ok ms =>
          rw [h1, h2] at ih
          cases ih
      | ok ms =>
        cases h2 : decodeAll decode (pre ++ post) with
        | error y =>
          rw [h1, h2] at ih
          cases ih
        | ok ms' =>
          rw [h1, h2] at ih
          refine congrArg Except.ok ?_
          rw [List.filterMap_append, List.filterMap_append]
          exact congrArg _ (Except.ok.inj ih)

/-- What is decoded can be worked on afterwards. -/
theorem decodeAll_map {E' N : Type} {decode' : E' → Except ε (Option N)} {f : M → N} {g : E → E'}
    (h : ∀ e, decode' (g e) = (decode e).map (Option.map f)) (es : List E) :
    decodeAll decode' (es.map g) = (decodeAll decode es).map (List.map f) := by
  induction es with
  | nil => rfl
  | cons e es ih =>
    rw [List.map_cons]
    cases he : decode e with
    | error x => rw [decodeAll_cons_error he, decodeAll_cons_error (by rw [h, he]; rfl)]; rfl
    | ok m =>
      rw [decodeAll_cons_ok he, decodeAll_cons_ok (by rw [h, he]; rfl), ih]
      cases decodeAll decode es with
      | error x => rfl
      | ok ms => cases m <;> rfl

/-- Everything decoded was in some entry. -/
theorem exists_of_mem_decodeAll {ms : List M} (h : decodeAll decode es = .ok ms) {m : M}
    (hm : m ∈ ms) : ∃ e ∈ es, decode e = .ok (some m) := by
  induction es generalizing ms with
  | nil =>
    obtain rfl := Except.ok.inj h
    cases hm
  | cons e es ih =>
    cases he : decode e with
    | error x => cases (decodeAll_cons_error he).symm.trans h
    | ok m' =>
      rw [decodeAll_cons_ok he] at h
      cases hes : decodeAll decode es with
      | error x =>
        rw [hes] at h
        cases h
      | ok ms' =>
        rw [hes] at h
        rw [← Except.ok.inj h] at hm
        obtain hm | hm := List.mem_append.mp hm
        · exact ⟨e, List.mem_cons_self, by rw [he, Option.mem_toList.mp hm]⟩
        · obtain ⟨e', he', hdecode⟩ := ih hes hm
          exact ⟨e', List.mem_cons_of_mem _ he', hdecode⟩

/-- A loop that skips nothing is `mapM`. -/
theorem mapM_eq_decodeAll (f : E → Except ε M) (es : List E) :
    es.mapM f = decodeAll (fun e => (f e).map some) es := by
  induction es with
  | nil => rfl
  | cons e es ih =>
    rw [List.mapM_cons, ih]
    cases he : f e with
    | error x => rw [decodeAll_cons_error (x := x) (by rw [he]; rfl)]; rfl
    | ok m =>
      rw [decodeAll_cons_ok (m := some m) (by rw [he]; rfl)]
      cases decodeAll (fun e => (f e).map some) es <;> rfl

end Decoding

/-- **An entry is isolated**: wherever it turns out to be bad, among whatever
entries and in whatever state, what comes of the others is what would come of
them without it. -/
def Isolated (outcome : List E → σ → ρ) (Bad : List E → E → σ → Prop) (e : E) : Prop :=
  ∀ pre post s, Bad pre e s → outcome (pre ++ e :: post) s = outcome (pre ++ post) s

section Isolation

variable {outcome : List E → σ → ρ} {Bad : List E → E → σ → Prop} {e : E}

/-- An entry the decoder skips is isolated. -/
theorem Isolated.of_skip (decode : E → Except ε (Option M))
    (process : Except ε (List M) → σ → ρ)
    (houtcome : ∀ es s, outcome es s = process (decodeAll decode es) s)
    (h : decode e = .ok none) : Isolated outcome Bad e := by
  intro pre post s _
  rw [houtcome, houtcome, decodeAll_skip h]

/-- An entry that is never bad is, too. -/
theorem Isolated.of_never (h : ∀ pre s, ¬ Bad pre e s) : Isolated outcome Bad e :=
  fun pre _ s hbad => absurd hbad (h pre s)

/-- One that costs another entry what would have come of it is not. -/
theorem not_isolated (e' : E) {s : σ} (hbad : Bad [] e s)
    (h : outcome [e, e'] s ≠ outcome [e'] s) : ¬ Isolated outcome Bad e :=
  fun hisolated => h (hisolated [] [e'] s hbad)

end Isolation

end Batch
