import Mathlib.Data.List.Basic
import Mathlib.Tactic.Common

/-!
# Paths as text

A path is text whose segments are separated by slashes. Taken one after the
other they lead from directory to directory: an empty segment or a dot stays,
two dots go up, any other name goes down. Where a path leads is its
normalised form, the names on the way, the innermost first.

A name that is spliced into a path may hold slashes of its own. What is
behind its last slash names the file, and what is before it is a walk
(`normalise_splice`): the file is directly in the directory it was meant for
exactly if that walk comes back to it (`isDirectlyIn_splice_iff`).
-/

namespace LexicalPath

/-! ## Walking -/

/-- **One segment**, from a directory. -/
def step (dir : List (List Char)) (segment : List Char) : List (List Char) :=
  if segment = [] ∨ segment = ['.'] then dir
  else if segment = ['.', '.'] then dir.tail
  else segment :: dir

/-- Some segments, from a directory. -/
def walk (dir segments : List (List Char)) : List (List Char) := segments.foldl step dir

/-- **Where a path leads.** -/
def normalise (path : List Char) : List (List Char) := walk [] (path.splitOn '/')

/-- A file is directly in a directory. -/
def IsDirectlyIn (dir file : List (List Char)) : Prop := ∃ name, file = name :: dir

theorem walk_append (dir segments segments' : List (List Char)) :
    walk dir (segments ++ segments') = walk (walk dir segments) segments' := List.foldl_append

/-- A path goes on where its first part leads. -/
theorem normalise_append (path rest : List Char) :
    normalise (path ++ '/' :: rest) = walk (normalise path) (rest.splitOn '/') := by
  rw [normalise, List.splitOn_append_cons_self, walk_append]
  rfl

/-- A longer name is neither a dot nor two. -/
theorem step_of_length {dir : List (List Char)} {segment : List Char} (h : 2 < segment.length) :
    step dir segment = segment :: dir := by
  rw [step, if_neg, if_neg]
  · rintro rfl
    exact absurd h (by decide)
  · rintro (rfl | rfl) <;> exact absurd h (by decide)

/-! ## The parts of a name -/

/-- The segments before the last slash. -/
def parent (name : List Char) : List (List Char) := (name.splitOn '/').dropLast

/-- What is behind it. -/
def baseName (name : List Char) : List Char := (name.splitOn '/').getLastD []

section Parts

variable {name suffix : List Char}

/-- **What is put behind a name** is put behind its last segment. -/
theorem splitOn_append (h : '/' ∉ suffix) :
    (name ++ suffix).splitOn '/' = parent name ++ [baseName name ++ suffix] := by
  have hparts : ∀ name : List Char, ∃ dirs base, name.splitOn '/' = dirs ++ [base]
      ∧ (name ++ suffix).splitOn '/' = dirs ++ [base ++ suffix] := by
    intro name
    induction name with
    | nil => exact ⟨[], [], List.splitOn_nil _, List.splitOn_eq_singleton h⟩
    | cons c name ih =>
      obtain ⟨dirs, base, hname, happend⟩ := ih
      rw [List.cons_append, List.splitOn_cons_eq_if_modifyHead,
        List.splitOn_cons_eq_if_modifyHead, hname, happend]
      by_cases hc : (c == '/') = true
      · rw [if_pos hc, if_pos hc]
        exact ⟨[] :: dirs, base, rfl, rfl⟩
      · rw [if_neg hc, if_neg hc]
        cases dirs with
        | nil => exact ⟨[], c :: base, rfl, rfl⟩
        | cons dir dirs => exact ⟨(c :: dir) :: dirs, base, rfl, rfl⟩
  obtain ⟨dirs, base, hname, happend⟩ := hparts name
  rw [parent, baseName, hname, happend, List.dropLast_concat, List.getLastD_concat]

/-- A name without a slash has nothing before it, -/
theorem parent_of_notMem (h : '/' ∉ name) : parent name = [] := by
  rw [parent, List.splitOn_eq_singleton h]
  rfl

/-- and is what is behind it. -/
theorem baseName_of_notMem (h : '/' ∉ name) : baseName name = name := by
  rw [baseName, List.splitOn_eq_singleton h]
  rfl

/-- **A name spliced into a path**: its parent is walked, and what is behind
the last slash is the file. -/
theorem normalise_splice (h : '/' ∉ suffix) (hlen : 2 < suffix.length) (path : List Char) :
    normalise (path ++ '/' :: (name ++ suffix))
      = (baseName name ++ suffix) :: walk (normalise path) (parent name) := by
  have hlong : 2 < (baseName name ++ suffix).length := by
    rw [List.length_append]
    omega
  rw [normalise_append, splitOn_append h, walk_append]
  exact step_of_length hlong

/-- **It is where it was meant to be** if the walk comes back. -/
theorem isDirectlyIn_splice_iff (h : '/' ∉ suffix) (hlen : 2 < suffix.length)
    (path : List Char) :
    IsDirectlyIn (normalise path) (normalise (path ++ '/' :: (name ++ suffix)))
      ↔ walk (normalise path) (parent name) = normalise path := by
  rw [normalise_splice h hlen]
  exact ⟨fun ⟨_, heq⟩ => (List.cons.inj heq).2, fun heq => ⟨_, by rw [heq]⟩⟩

end Parts

end LexicalPath
