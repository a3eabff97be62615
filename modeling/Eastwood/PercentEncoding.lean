import Mathlib.Data.List.Basic
import Mathlib.Tactic.Common

/-!
# Percent-encoded texts

Some characters stand for themselves, which of them depending on where; any
other is written as a percent sign and the two hexadecimal digits of its
code. Decoding therefore never makes a text longer, and keeps its length only
where it changes nothing: a text stands for itself exactly if all of its
characters do (`decode_eq_self_iff`).

A path is a row of segments, each behind a slash. Where a text is put behind
one, it is the last segment or is taken apart, and then every segment is
shorter than it (`eq_of_path_append`).
-/

namespace PercentEncoding

/-! ## Decoding -/

/-- The characters that may stand for themselves in a segment of a path, -/
def isSegmentChar (c : Char) : Bool := c.isAlphanum || "-._~!$&'()*+,;=:@".toList.contains c

/-- and in a query. -/
def isQueryChar (c : Char) : Bool := isSegmentChar c || c = '/' || c = '?'

/-- The value of a hexadecimal digit. -/
def hexValue (c : Char) : Option ℕ :=
  if c.isDigit then some (c.toNat - 48)
  else if 'a' ≤ c ∧ c ≤ 'f' then some (c.toNat - 87)
  else if 'A' ≤ c ∧ c ≤ 'F' then some (c.toNat - 55)
  else none

/-- The character two digits stand for. -/
def triplet (high low : Char) : Option Char :=
  match hexValue high, hexValue low with
  | some h, some l => some (Char.ofNat (16 * h + l))
  | _, _ => none

/-- **What a text stands for**, if it can be decoded. -/
def decode (plain : Char → Bool) : List Char → Option (List Char)
  | [] => some []
  | c :: s =>
    if plain c then (decode plain s).map (c :: ·)
    else if c = '%' then
      match s with
      | high :: low :: s =>
        match triplet high low, decode plain s with
        | some d, some t => some (d :: t)
        | _, _ => none
      | _ => none
    else none

variable {plain : Char → Bool}

theorem decode_cons_of_plain {c : Char} (h : plain c) (s : List Char) :
    decode plain (c :: s) = (decode plain s).map (c :: ·) := by
  rw [decode.eq_def]
  exact if_pos h

/-- How a decoded text begins. -/
theorem cases_of_decode {c : Char} {s t : List Char} (h : decode plain (c :: s) = some t) :
    (plain c ∧ ∃ t', decode plain s = some t' ∧ t = c :: t')
      ∨ (c = '%' ∧ ∃ high low s' d t', s = high :: low :: s' ∧ (hexValue high).isSome
        ∧ (hexValue low).isSome ∧ decode plain s' = some t' ∧ t = d :: t') := by
  rw [decode.eq_def] at h
  simp only at h
  split at h
  · rename_i hplain
    obtain ⟨t', ht', rfl⟩ := Option.map_eq_some_iff.mp h
    exact Or.inl ⟨hplain, t', ht', rfl⟩
  split at h
  · rename_i hpercent
    split at h
    · rename_i high low s'
      split at h
      · rename_i d t' htriplet ht'
        unfold triplet at htriplet
        split at htriplet
        · rename_i hhigh hlow
          exact Or.inr ⟨hpercent, high, low, s', d, t', rfl, Option.isSome_of_eq_some hhigh,
            Option.isSome_of_eq_some hlow, ht', (Option.some.inj h).symm⟩
        · cases htriplet
      · cases h
    · cases h
  · cases h

/-- It has plain characters, percent signs and digits only. -/
theorem mem_of_decode : ∀ {s t : List Char}, decode plain s = some t →
    ∀ c ∈ s, plain c ∨ c = '%' ∨ (hexValue c).isSome
  | [], _, _ => fun _ hc => absurd hc List.not_mem_nil
  | c :: s, t, h => by
    obtain ⟨hc, t', ht', rfl⟩ | ⟨hc, high, low, s', d, t', rfl, hhigh, hlow, ht', rfl⟩ :=
      cases_of_decode h
    · exact List.forall_mem_cons.mpr ⟨Or.inl hc, mem_of_decode ht'⟩
    · exact List.forall_mem_cons.mpr ⟨Or.inr (Or.inl hc),
        List.forall_mem_cons.mpr ⟨Or.inr (Or.inr hhigh),
          List.forall_mem_cons.mpr ⟨Or.inr (Or.inr hlow), mem_of_decode ht'⟩⟩⟩

/-- Any other character is not in it. -/
theorem notMem_of_decode {c : Char} {s t : List Char} (h : decode plain s = some t)
    (hplain : ¬ plain c) (hpercent : c ≠ '%') (hdigit : hexValue c = none) : c ∉ s := by
  intro hc
  obtain hc | hc | hc := mem_of_decode h c hc
  · exact hplain hc
  · exact hpercent hc
  · rw [hdigit] at hc
    cases hc

/-- Decoding never makes a text longer. -/
theorem length_le_of_decode : ∀ {s t : List Char}, decode plain s = some t →
    t.length ≤ s.length
  | [], t, h => by
    cases h
    exact Nat.le_refl 0
  | c :: s, t, h => by
    obtain ⟨-, t', ht', rfl⟩ | ⟨-, high, low, s', d, t', rfl, -, -, ht', rfl⟩ := cases_of_decode h
    · exact Nat.succ_le_succ (length_le_of_decode ht')
    · have hle := length_le_of_decode ht'
      simp only [List.length_cons]
      omega

/-- **Where it keeps the length, it changes nothing**: there was no triplet. -/
theorem forall_plain_of_decode : ∀ {s t : List Char}, decode plain s = some t →
    s.length ≤ t.length → ∀ c ∈ s, plain c
  | [], _, _, _ => fun _ hc => absurd hc List.not_mem_nil
  | c :: s, t, h, hlen => by
    obtain ⟨hplain, t', ht', rfl⟩ | ⟨-, high, low, s', d, t', rfl, -, -, ht', rfl⟩ :=
      cases_of_decode h
    · exact List.forall_mem_cons.mpr
        ⟨hplain, forall_plain_of_decode ht' (Nat.le_of_succ_le_succ hlen)⟩
    · have hle := length_le_of_decode ht'
      simp only [List.length_cons] at hlen
      omega

/-- Plain characters stand for themselves. -/
theorem decode_of_plain {s : List Char} (h : ∀ c ∈ s, plain c) : decode plain s = some s := by
  induction s with
  | nil => rfl
  | cons c s ih =>
    obtain ⟨hc, hs⟩ := List.forall_mem_cons.mp h
    rw [decode_cons_of_plain hc, ih hs]
    rfl

/-- **A text stands for itself** if all of its characters do. -/
theorem decode_eq_self_iff {s : List Char} : decode plain s = some s ↔ ∀ c ∈ s, plain c :=
  ⟨fun h => forall_plain_of_decode h (Nat.le_refl _), decode_of_plain⟩

/-! ## Paths -/

/-- **A path** of some segments. -/
def path (segments : List (List Char)) : List Char := segments.flatMap ('/' :: ·)

/-- Texts end where the first of a character stands. -/
theorem append_cons_inj {c : Char} {a a' b b' : List Char} (ha : c ∉ a) (ha' : c ∉ a')
    (heq : a ++ c :: b = a' ++ c :: b') : a = a' ∧ b = b' := by
  induction a generalizing a' with
  | nil =>
    cases a' with
    | nil => exact ⟨rfl, (List.cons.inj heq).2⟩
    | cons d a' => exact absurd (List.cons.inj heq).1 (List.ne_of_not_mem_cons ha')
  | cons d a ih =>
    cases a' with
    | nil => exact absurd (List.cons.inj heq).1.symm (List.ne_of_not_mem_cons ha)
    | cons d' a' =>
      obtain ⟨rfl, htail⟩ := List.cons.inj heq
      obtain ⟨rfl, rfl⟩ := ih (List.not_mem_of_not_mem_cons ha)
        (List.not_mem_of_not_mem_cons ha') htail
      exact ⟨rfl, rfl⟩

/-- A path with segments begins with a slash, and is as long as its last one
only if it is that. -/
theorem path_concat_eq_cons (segments : List (List Char)) (s : List Char) :
    ∃ t, path (segments ++ [s]) = '/' :: t ∧ s.length ≤ t.length
      ∧ (t.length ≤ s.length → t = s) := by
  cases segments with
  | nil => exact ⟨s, by simp [path], Nat.le_refl _, fun _ => rfl⟩
  | cons s' segments =>
    refine ⟨s' ++ path segments ++ '/' :: s, by simp [path], ?_, fun hlen => ?_⟩
    · simp only [List.length_append, List.length_cons]
      omega
    · simp only [List.length_append, List.length_cons] at hlen
      omega

/-- **What is put behind a segment** and a slash is the last segment, if that
is to be as long: there is no other segment in it, and nothing behind it. -/
theorem eq_of_path_append {endpoint u s rest : List Char} {segments : List (List Char)}
    (hslash : '/' ∉ endpoint) (hquery : '?' ∉ endpoint)
    (hsegments : ∀ t ∈ segments ++ [s], '/' ∉ t) (hrest : rest = [] ∨ rest.head? = some '?')
    (heq : path (segments ++ [s]) ++ rest = '/' :: (endpoint ++ '/' :: u))
    (hlen : u.length ≤ s.length) : s = u ∧ rest = [] := by
  cases segments with
  | nil =>
    -- The endpoint would be the last segment, and a slash behind it in the query.
    have hs : '/' ∉ s := hsegments s (by simp)
    have heq' : s ++ rest = endpoint ++ '/' :: u := by simpa [path] using heq
    exfalso
    obtain ⟨t, hendpoint, ht⟩ | ⟨t, hs', ht⟩ := List.append_eq_append_iff.mp heq'
    · cases t with
      | nil =>
        rw [List.nil_append] at ht
        rw [ht] at hrest
        simp at hrest
      | cons c t =>
        rw [ht] at hrest
        have hc : c = '?' := by simpa using hrest
        exact hquery (by rw [hendpoint, hc]; simp)
    · cases t with
      | nil =>
        rw [List.nil_append] at ht
        rw [← ht] at hrest
        simp at hrest
      | cons c t =>
        obtain ⟨rfl, -⟩ := List.cons.inj ht
        exact hs (by rw [hs']; simp)
  | cons s' segments =>
    obtain ⟨t, ht, hle, hself⟩ := path_concat_eq_cons segments s
    have hs' : '/' ∉ s' := hsegments s' (by simp)
    have hcons : path (s' :: segments ++ [s]) = '/' :: (s' ++ path (segments ++ [s])) := rfl
    rw [hcons, ht, List.cons_append, List.append_assoc, List.cons_append] at heq
    obtain ⟨-, htail⟩ := append_cons_inj hs' hslash (List.cons.inj heq).2
    have hlength := congrArg List.length htail
    rw [List.length_append] at hlength
    have hnil : rest = [] := List.eq_nil_of_length_eq_zero (by omega)
    rw [hnil, List.append_nil] at htail
    exact ⟨(hself (by omega)).symm.trans htail, hnil⟩

end PercentEncoding
