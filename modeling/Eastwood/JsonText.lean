import Eastwood.Hex
import Eastwood.Json
import Mathlib.Data.List.Sort

/-!
# The text of a JSON value

`dump()` without arguments writes a value on one line. The members of an
object come in the order of their names, `nlohmann::json` keeping them in a
`std::map`; text is copied byte by byte but for what JSON cannot hold, and
must be UTF-8, or nothing is written at all.

A text is never shorter than what it is the text of: that is all the rest of
the development needs of it (`length_dump_of_member`).
-/

namespace Json

/-! ## Strings -/

/-- Which bytes may come next, while a character is unfinished; the ranges
owed after a first byte. -/
def utf8Owed (byte : ℕ) : Option (List (ℕ × ℕ)) :=
  if byte < 0x80 then some []
  else if byte < 0xC2 then none
  else if byte < 0xE0 then some [(0x80, 0xBF)]
  else if byte = 0xE0 then some [(0xA0, 0xBF), (0x80, 0xBF)]
  else if byte = 0xED then some [(0x80, 0x9F), (0x80, 0xBF)]
  else if byte < 0xF0 then some [(0x80, 0xBF), (0x80, 0xBF)]
  else if byte = 0xF0 then some [(0x90, 0xBF), (0x80, 0xBF), (0x80, 0xBF)]
  else if byte < 0xF4 then some [(0x80, 0xBF), (0x80, 0xBF), (0x80, 0xBF)]
  else if byte = 0xF4 then some [(0x80, 0x8F), (0x80, 0xBF), (0x80, 0xBF)]
  else none

/-- One byte more. -/
def utf8Step : List (ℕ × ℕ) → ℕ → Option (List (ℕ × ℕ))
  | [], byte => utf8Owed byte
  | (low, high) :: owed, byte => if low ≤ byte ∧ byte ≤ high then some owed else none

/-- Whether a string is UTF-8. -/
def isUtf8 (s : String) : Bool :=
  (s.toList.map Char.toNat).foldlM utf8Step [] = some []

/-- What a byte of a string is written as. -/
def escape (c : Char) : List Char :=
  let backslash := Char.ofNat 92
  if c.toNat = 8 then [backslash, 'b']
  else if c.toNat = 9 then [backslash, 't']
  else if c.toNat = 10 then [backslash, 'n']
  else if c.toNat = 12 then [backslash, 'f']
  else if c.toNat = 13 then [backslash, 'r']
  else if c.toNat = 34 ∨ c.toNat = 92 then [backslash, c]
  else if c.toNat < 32 then
    [backslash, 'u', '0', '0', Nat.digitChar (c.toNat / 16), Nat.digitChar (c.toNat % 16)]
  else [c]

/-- A string in quotes. -/
def quoted (s : String) : List Char :=
  Char.ofNat 34 :: s.toList.flatMap escape ++ [Char.ofNat 34]

/-- `dump` of a string; `none` is `type_error` 316. -/
def dumpString (s : String) : Option (List Char) :=
  if isUtf8 s then some (quoted s) else none

theorem length_le_flatMap_escape (l : List Char) : l.length ≤ (l.flatMap escape).length := by
  have hone : ∀ c, 1 ≤ (escape c).length := by
    intro c
    unfold escape
    repeat' split
    all_goals exact Nat.succ_le_succ (Nat.zero_le _)
  induction l with
  | nil => exact le_rfl
  | cons c l ih =>
    rw [List.flatMap_cons, List.length_append, List.length_cons, Nat.add_comm]
    exact Nat.add_le_add (hone c) ih

theorem length_dumpString {s : String} {text : List Char} (h : dumpString s = some text) :
    s.length + 2 ≤ text.length := by
  unfold dumpString at h
  split at h
  · rw [← Option.some.inj h, quoted, List.cons_append, List.length_cons, List.length_append]
    exact Nat.succ_le_succ (Nat.succ_le_succ (length_le_flatMap_escape s.toList))
  · cases h

/-! ## Values -/

/-- The parts of an array or an object, with commas between them and brackets
around. -/
def bracketed (opening closing : Char) (parts : List (List Char)) : List Char :=
  opening :: [','].intercalate parts ++ [closing]

/-- A member of an object, in the order of the names. -/
def dumpedMembers (members : List (String × List Char)) : List (List Char) :=
  (members.insertionSort fun a b => a.1 ≤ b.1).map fun m => quoted m.1 ++ ':' :: m.2

mutual

/-- **`dump`.** -/
def dump : Json → Option (List Char)
  | null => some "null".toList
  | bool value => some (if value then "true" else "false").toList
  | num value => some (toString value).toList
  | str value => dumpString value
  | arr elements => (dumpElements elements).map (bracketed '[' ']')
  | obj members => (dumpMembers members).map fun ms => bracketed '\x7b' '\x7d' (dumpedMembers ms)

/-- The elements of an array. -/
def dumpElements : List Json → Option (List (List Char))
  | [] => some []
  | j :: js =>
    match dump j, dumpElements js with
    | some text, some texts => some (text :: texts)
    | _, _ => none

/-- The members of an object, under their names. -/
def dumpMembers : List (String × Json) → Option (List (String × List Char))
  | [] => some []
  | (name, j) :: ms =>
    match dumpString name, dump j, dumpMembers ms with
    | some _, some text, some texts => some ((name, text) :: texts)
    | _, _, _ => none

end

/-- `operator[]` of a mutable value, assigned to. -/
def insert (j : Json) (name : String) (value : Json) : Except Fault Json :=
  match j with
  | obj members => .ok (obj ((name, value) :: members.filter (·.1 ≠ name)))
  | null => .ok (obj [(name, value)])
  | _ => .error .typeError

/-! ## Lengths -/

theorem length_le_intercalate {part : List Char} {parts : List (List Char)} (h : part ∈ parts) :
    part.length ≤ ([','].intercalate parts).length := by
  induction parts with
  | nil => cases h
  | cons p parts ih =>
    cases parts with
    | nil =>
      obtain rfl := List.mem_singleton.mp h
      simp [List.intercalate]
    | cons q parts =>
      rw [show [','].intercalate (p :: q :: parts) = p ++ ',' :: [','].intercalate (q :: parts) by
        simp [List.intercalate, List.intersperse], List.length_append, List.length_cons]
      rcases List.mem_cons.mp h with rfl | h
      · omega
      · have := ih h
        omega

theorem mem_dumpMembers {members : List (String × Json)} {texts : List (String × List Char)}
    (h : dumpMembers members = some texts) {name : String} {j : Json}
    (hmem : (name, j) ∈ members) : ∃ text, dump j = some text ∧ (name, text) ∈ texts := by
  induction members generalizing texts with
  | nil => cases hmem
  | cons m members ih =>
    obtain ⟨n, v⟩ := m
    rw [dumpMembers] at h
    split at h
    · rename_i text rest hname hv hrest
      obtain rfl := Option.some.inj h
      rcases List.mem_cons.mp hmem with he | hmem
      · obtain ⟨rfl, rfl⟩ := Prod.mk.inj he
        exact ⟨text, hv, List.mem_cons_self⟩
      · obtain ⟨text', hj, hin⟩ := ih hrest hmem
        exact ⟨text', hj, List.mem_cons_of_mem _ hin⟩
    · cases h

/-- **An object is longer than its members.** -/
theorem length_dump_of_member {members : List (String × Json)} {text : List Char}
    (h : dump (obj members) = some text) {name : String} {j : Json}
    (hmem : (name, j) ∈ members) : ∃ t, dump j = some t ∧ t.length < text.length := by
  rw [dump] at h
  obtain ⟨texts, hm, rfl⟩ := Option.map_eq_some_iff.mp h
  obtain ⟨t, hj, hin⟩ := mem_dumpMembers hm hmem
  refine ⟨t, hj, ?_⟩
  have hpart : quoted name ++ ':' :: t ∈ dumpedMembers texts :=
    List.mem_map.mpr ⟨(name, t), (List.mem_insertionSort _).mpr hin, rfl⟩
  have hle := length_le_intercalate hpart
  rw [List.length_append, List.length_cons] at hle
  rw [bracketed, List.cons_append, List.length_cons, List.length_append]
  omega

end Json
