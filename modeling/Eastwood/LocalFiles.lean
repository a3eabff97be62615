import Eastwood.LexicalPath
import Mathlib.Data.List.TakeWhile

/-!
# The files of a username

A database and a salt are found by a username: it is put between the data
directory and an ending. What is before its last slash is walked, and what is
behind it names the files, so where a username's files are is a place of its
own, the same for all of them (`normalise_path_eq`). Two usernames share
their files exactly if they lead to one place (`normalise_path_eq_iff`).
-/

open LexicalPath

/-! ## The paths -/

/-- What a C string shows of a text. -/
def cStr (s : String) : List Char := s.toList.takeWhile (· ≠ '\x00')

/-- The path **`Database::initialize`** opens. -/
def dbPath (dataPath : List Char) (username : String) (encrypted : Bool) : List Char :=
  dataPath ++ '/' :: (cStr username
    ++ if encrypted then "-encrypted.db".toList else "-db.db".toList)

/-- **`salt_path`.** -/
def saltPath (dataPath : List Char) (username : String) : List Char :=
  dataPath ++ '/' :: (cStr username ++ "_salt.bin".toList)

/-- The files kept for a username. -/
inductive LocalFile where
  | database (encrypted : Bool)
  | salt
  deriving DecidableEq

namespace LocalFile

/-- What stands behind the username. -/
def ending : LocalFile → List Char
  | database true => "-encrypted.db".toList
  | database false => "-db.db".toList
  | salt => "_salt.bin".toList

/-- Where it is. -/
def path (dataPath : List Char) (username : String) : LocalFile → List Char
  | database encrypted => dbPath dataPath username encrypted
  | salt => saltPath dataPath username

theorem path_eq (dataPath : List Char) (username : String) (f : LocalFile) :
    f.path dataPath username = dataPath ++ '/' :: (cStr username ++ f.ending) := by
  cases f with
  | database encrypted => cases encrypted <;> rfl
  | salt => rfl

theorem slash_notMem_ending (f : LocalFile) : '/' ∉ f.ending := by
  cases f with
  | database encrypted => cases encrypted <;> decide
  | salt => decide

theorem length_ending (f : LocalFile) : 2 < f.ending.length := by
  cases f with
  | database encrypted => cases encrypted <;> decide
  | salt => decide

/-- None of the endings is the end of another, -/
theorem eq_of_ending_suffix {f f' : LocalFile} (h : f.ending <:+ f'.ending) : f = f' := by
  revert h
  rcases f with (_ | _) | _ <;> rcases f' with (_ | _) | _ <;> decide

/-- so that what ends in two of them ends in one. -/
theorem eq_of_append_ending {f f' : LocalFile} {a b : List Char}
    (h : a ++ f.ending = b ++ f'.ending) : f = f' := by
  obtain hsuffix | hsuffix := List.suffix_or_suffix_of_suffix (List.suffix_append a f.ending)
    (h ▸ List.suffix_append b f'.ending)
  · exact eq_of_ending_suffix hsuffix
  · exact (eq_of_ending_suffix hsuffix).symm

end LocalFile

/-! ## Places -/

/-- A directory and what the files in it are named after. -/
abbrev Place := List (List Char)

/-- **Where the files of a username are**, from the data directory. -/
def placeOf (dataPath : Place) (username : String) : Place :=
  baseName (cStr username) :: walk dataPath (parent (cStr username))

namespace LocalFile

variable (dataPath : List Char) (u v : String)

/-- A file of a username is at its place. -/
theorem normalise_path_eq (f : LocalFile) : normalise (f.path dataPath u)
    = (baseName (cStr u) ++ f.ending) :: (placeOf (normalise dataPath) u).tail := by
  rw [f.path_eq, normalise_splice f.slash_notMem_ending f.length_ending]
  rfl

/-- **Whose files are whose**: a file of one username is a file of another
if it is the same of the two, and they lead to one place. -/
theorem normalise_path_eq_iff (f f' : LocalFile) :
    normalise (f.path dataPath u) = normalise (f'.path dataPath v)
      ↔ f = f' ∧ placeOf (normalise dataPath) u = placeOf (normalise dataPath) v := by
  rw [normalise_path_eq, normalise_path_eq, List.cons.injEq]
  constructor
  · rintro ⟨hname, hdir⟩
    obtain rfl := eq_of_append_ending hname
    refine ⟨rfl, ?_⟩
    unfold placeOf at hdir ⊢
    rw [List.append_cancel_right hname]
    exact congrArg _ hdir
  · rintro ⟨rfl, hplace⟩
    obtain ⟨hname, hdir⟩ := List.cons.inj hplace
    exact ⟨by rw [hname], hdir⟩

end LocalFile
