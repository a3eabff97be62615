import Eastwood.Sodium

/-!
# JSON values

The part of nlohmann's `json` the client's endpoints use: looking up a member
of a value that may or may not be an object, asking whether it is there or
null, and taking text out of it. A constant value and a mutable one differ:
reading an absent member of the first is undefined, of the second makes it
null.
-/

/-- **A JSON value.** The members of an object are found by their first
occurrence. -/
inductive Json where
  | null
  | bool (value : Bool)
  | num (value : ℤ)
  | str (value : String)
  | arr (elements : List Json)
  | obj (members : List (String × Json))

namespace Json

/-- The member of an object, if the value is one and has it. -/
def find? (key : String) : Json → Option Json
  | obj members => (members.find? (·.1 = key)).map (·.2)
  | _ => none

/-- `contains`. -/
def contains (key : String) (j : Json) : Bool := (j.find? key).isSome

/-- `is_null`. -/
def isNull : Json → Bool
  | null => true
  | _ => false

/-- `operator[]` of a constant value. -/
def member (key : String) : Json → Except Fault Json
  | obj members =>
    match (obj members).find? key with
    | some j => .ok j
    | none => .error .absentMember
  | _ => .error .typeError

/-- `operator[]` of a mutable value, which inserts what is absent. -/
def slot (key : String) : Json → Except Fault Json
  | obj members => .ok (((obj members).find? key).getD null)
  | null => .ok null
  | _ => .error .typeError

/-- `get<std::string>`. -/
def getString : Json → Except Fault String
  | str value => .ok value
  | _ => .error .typeError

/-- What a range-based `for` runs over. -/
def elements : Json → List Json
  | null => []
  | arr elements => elements
  | obj members => members.map (·.2)
  | j => [j]

/-- A member that is found is the member. -/
theorem member_of_find? {key : String} {j v : Json} (h : j.find? key = some v) :
    j.member key = .ok v := by
  cases j with
  | obj members => rw [member, h]
  | _ => cases h

theorem slot_of_find? {key : String} {j v : Json} (h : j.find? key = some v) :
    j.slot key = .ok v := by
  cases j with
  | obj members => rw [slot, h, Option.getD_some]
  | _ => cases h

theorem contains_of_find? {key : String} {j v : Json} (h : j.find? key = some v) :
    j.contains key = true := by
  rw [contains, h, Option.isSome_some]

end Json
