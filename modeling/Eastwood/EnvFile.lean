import Eastwood.HttpRequest

/-!
# Environment files

The host every request goes to stands in a `.env` file. The file is looked for
from the working directory upwards: a directory counts if it has a `src`, in
which the file may be, or else beside it; the root is not looked at. Of the
file's lines the first that sets the variable is taken, and blanks around the
name and the value are not part of them.

A file can be put together of settings, with blanks wherever they may stand,
comments and lines that set nothing. What is loaded of it is the value of the
first setting of the name, as it was written, and the default if there is none
(`loadEnvVariable_render`).
-/

/-! ## The file -/

/-- A directory, by the names that lead to it, the innermost first. -/
abbrev Directory := List String

/-- What exists in a directory: a file by its text, or something that cannot be
opened. -/
abbrev FileSystem := Directory → String → Option (Option (List Char))

/-- **The search of `load_env_variable`**: the directory and what of it is the
file. -/
def findEnvFile (fs : FileSystem) : Directory → Option (Directory × String)
  -- `current != current.parent_path()`
  | [] => none
  | name :: parent =>
    if (fs (name :: parent) "src").isSome then
      if (fs (name :: parent) "src/.env").isSome then some (name :: parent, "src/.env")
      else if (fs (name :: parent) ".env").isSome then some (name :: parent, ".env")
      else findEnvFile fs parent
    else findEnvFile fs parent

/-! ## Its lines -/

/-- Blanks. -/
def isBlank (c : Char) : Bool := c = ' ' || c = '\t'

/-- A text without the blanks around it. -/
def trim (s : List Char) : List Char := (s.dropWhile isBlank).rdropWhile isBlank

/-- What a line sets. -/
def parseEnvLine (line : List Char) : Option (List Char × List Char) :=
  if line = [] || line.head? = some '#' then none
  else (find ['='] line).map fun (key, value) => (trim key, trim value)

/-- The lines of a file, until one sets the variable. -/
def searchLines (key : List Char) : List (List Char) → Option (List Char)
  | [] => none
  | line :: lines =>
    match parseEnvLine line with
    | some (currentKey, value) => if currentKey = key then some value else searchLines key lines
    | none => searchLines key lines

/-- **`load_env_variable`.** -/
def loadEnvVariable (fs : FileSystem) (currentPath : Directory) (key defaultValue : List Char) :
    List Char :=
  match findEnvFile fs currentPath with
  -- `Warning: Could not find .env file`
  | none => defaultValue
  | some (directory, name) =>
    match fs directory name with
    | some (some text) => (searchLines key (getlines text)).getD defaultValue
    -- `Warning: Could not open .env file`
    | _ => defaultValue

/-! ## Files that are written -/

/-- A text that neither begins nor ends with a blank. -/
def Trimmed (s : List Char) : Prop :=
  (∀ c ∈ s.head?, ¬ isBlank c) ∧ ∀ c ∈ s.getLast?, ¬ isBlank c

/-- **A setting**, and the blanks around its name and its value. -/
structure Setting where
  key : List Char
  value : List Char
  indent : List Char
  afterKey : List Char
  beforeValue : List Char
  trailing : List Char
  blanks : ∀ c ∈ indent ++ afterKey ++ beforeValue ++ trailing, isBlank c
  key_trimmed : Trimmed key
  value_trimmed : Trimmed value
  key_plain : ∀ c ∈ key, c ≠ '=' ∧ c ≠ '\n'
  value_plain : ∀ c ∈ value, c ≠ '\n'
  no_comment : (indent ++ key).head? ≠ some '#'

/-- **A line of a file**: a setting, a comment or something without a sign of
equality. -/
inductive EnvLine where
  | setting (s : Setting)
  | comment (text : List Char) (h : '\n' ∉ text)
  | other (text : List Char) (h : '\n' ∉ text ∧ '=' ∉ text)

namespace EnvLine

/-- The line as it stands. -/
def render : EnvLine → List Char
  | setting s => s.indent ++ s.key ++ s.afterKey ++ '=' :: (s.beforeValue ++ s.value ++ s.trailing)
  | comment text _ => '#' :: text
  | other text _ => text

/-- What it sets. -/
def entry : EnvLine → Option (List Char × List Char)
  | setting s => some (s.key, s.value)
  | _ => none

/-- A file of lines. -/
def file (lines : List EnvLine) : List Char := lines.flatMap fun l => l.render ++ ['\n']

end EnvLine

/-! ## What is read of them -/

section Trim

variable {s a b : List Char}

theorem dropWhile_trimmed (h : ∀ c ∈ s.head?, ¬ isBlank c) (hne : s ≠ []) (b : List Char) :
    (s ++ b).dropWhile isBlank = s ++ b := by
  cases s with
  | nil => exact absurd rfl hne
  | cons c s => exact List.dropWhile_cons_of_neg (h c rfl)

/-- **Blanks around a text are taken off again.** -/
theorem trim_padded (ha : ∀ c ∈ a, isBlank c) (hb : ∀ c ∈ b, isBlank c) (hs : Trimmed s) :
    trim (a ++ s ++ b) = s := by
  rw [trim, List.append_assoc, List.dropWhile_append_of_pos ha]
  by_cases hne : s = []
  · rw [hne, List.nil_append, List.dropWhile_eq_nil_iff.mpr hb]
    rfl
  · rw [dropWhile_trimmed hs.1 hne, List.rdropWhile, List.reverse_append,
      List.dropWhile_append_of_pos fun c hc => hb c (List.mem_reverse.mp hc)]
    have hlast : ∀ c ∈ s.reverse.head?, ¬ isBlank c := by
      rw [List.head?_reverse]
      exact hs.2
    have hrev := dropWhile_trimmed hlast (List.reverse_ne_nil_iff.mpr hne) []
    rw [List.append_nil] at hrev
    rw [hrev, List.reverse_reverse]

end Trim

/-- A setting does not look like a comment. -/
theorem Setting.head?_ne (s : Setting) (rest : List Char) :
    (s.indent ++ s.key ++ s.afterKey ++ '=' :: rest).head? ≠ some '#' := by
  have hplain := s.no_comment
  cases hfirst : s.indent ++ s.key with
  | cons c t =>
    rw [hfirst] at hplain
    exact hplain
  | nil =>
    cases hafter : s.afterKey with
    | nil => exact fun h => absurd (Option.some.inj h) (by decide)
    | cons c t =>
      have hblank : isBlank c := s.blanks c (by
        simp only [hafter, List.mem_append, List.mem_cons, true_or, or_true])
      rintro hc
      rw [Option.some.inj hc] at hblank
      exact absurd hblank (by decide)

namespace EnvLine

/-- **A line is read as what it sets.** -/
theorem parseEnvLine_render (l : EnvLine) : parseEnvLine l.render = l.entry := by
  cases l with
  | setting s =>
    have hblank : ∀ {c}, c ∈ s.indent ++ s.afterKey ++ s.beforeValue ++ s.trailing → c ≠ '=' := by
      rintro c hc rfl
      exact absurd (s.blanks _ hc) (by decide)
    have hplain : '=' ∉ s.indent ++ s.key ++ s.afterKey := by
      simp only [List.mem_append, not_or]
      refine ⟨⟨fun h => hblank ?_ rfl, fun h => (s.key_plain _ h).1 rfl⟩, fun h => hblank ?_ rfl⟩
      · simp only [List.mem_append, h, true_or]
      · simp only [List.mem_append, h, or_true, true_or]
    have hline : ¬ ((render (setting s) = [] || (render (setting s)).head? = some '#') = true) := by
      rw [Bool.or_eq_true, decide_eq_true_iff, decide_eq_true_iff, not_or]
      refine ⟨List.append_ne_nil_of_right_ne_nil _ (List.cons_ne_nil _ _), ?_⟩
      exact s.head?_ne _
    rw [parseEnvLine, if_neg hline, render, find_singleton hplain, Option.map_some]
    show some (trim (s.indent ++ s.key ++ s.afterKey),
      trim (s.beforeValue ++ s.value ++ s.trailing)) = _
    have hkey := trim_padded (a := s.indent) (b := s.afterKey) (fun c hc => s.blanks c ?_)
      (fun c hc => s.blanks c ?_) s.key_trimmed
    have hvalue := trim_padded (a := s.beforeValue) (b := s.trailing) (fun c hc => s.blanks c ?_)
      (fun c hc => s.blanks c ?_) s.value_trimmed
    · rw [hkey, hvalue]
      rfl
    all_goals simp only [List.mem_append, hc, true_or, or_true]
  | comment text h => rfl
  | other text h =>
    unfold parseEnvLine
    split
    · rfl
    · have hnone : find ['='] text = none :=
        Option.not_isSome_iff_eq_none.mp (find_singleton_isSome.not.mpr h.2)
      rw [render, hnone]
      rfl

/-- There is no line within a line. -/
theorem notMem_render (l : EnvLine) : '\n' ∉ l.render := by
  cases l with
  | setting s =>
    have hblank : ∀ {c}, c ∈ s.indent ++ s.afterKey ++ s.beforeValue ++ s.trailing →
        c ≠ '\n' := by
      rintro c hc rfl
      exact absurd (s.blanks _ hc) (by decide)
    simp only [List.mem_append, or_imp, forall_and] at hblank
    intro h
    simp only [render, List.mem_append, List.mem_cons] at h
    obtain ((h | h) | h) | h | (h | h) | h := h
    · exact hblank.1.1.1 _ h rfl
    · exact (s.key_plain _ h).2 rfl
    · exact hblank.1.1.2 _ h rfl
    · exact absurd h (by decide)
    · exact hblank.1.2 _ h rfl
    · exact s.value_plain _ h rfl
    · exact hblank.2 _ h rfl
  | comment text h => exact List.not_mem_cons_of_ne_of_not_mem (by decide) h
  | other text h => exact h.1

theorem getlines_file (lines : List EnvLine) : getlines (file lines) = lines.map render := by
  have hnone : ∀ line ∈ lines.map render, '\n' ∉ line := by
    intro line hline
    obtain ⟨l, -, rfl⟩ := List.mem_map.mp hline
    exact l.notMem_render
  have hlines := getlines_flatMap hnone
  rwa [List.flatMap_map] at hlines

/-- **Of some lines the first setting of a name is found.** -/
theorem searchLines_render (key : List Char) (lines : List EnvLine) :
    searchLines key (lines.map render) = (lines.filterMap entry).lookup key := by
  induction lines with
  | nil => rfl
  | cons l lines ih =>
    rw [List.map_cons, searchLines, parseEnvLine_render, ih]
    cases hentry : l.entry with
    | none => rw [List.filterMap_cons_none hentry]
    | some e =>
      obtain ⟨k, v⟩ := e
      rw [List.filterMap_cons_some hentry, List.lookup_cons]
      by_cases hk : k = key
      · rw [hk, beq_self_eq_true]
        exact if_pos rfl
      · rw [beq_eq_false_iff_ne.mpr (Ne.symm hk)]
        exact if_neg hk

end EnvLine

/-! ## Where the file is found -/

/-- The file that a directory has. -/
def envFileOf (fs : FileSystem) (directory : Directory) : Option String :=
  if (fs directory "src").isSome then
    if (fs directory "src/.env").isSome then some "src/.env"
    else if (fs directory ".env").isSome then some ".env"
    else none
  else none

/-- **The search goes up** until a directory has the file. -/
theorem findEnvFile_cons (fs : FileSystem) (name : String) (parent : Directory) :
    findEnvFile fs (name :: parent)
      = ((envFileOf fs (name :: parent)).map fun file => (name :: parent, file)).or
        (findEnvFile fs parent) := by
  rw [findEnvFile, envFileOf]
  split
  · split
    · rfl
    · split <;> rfl
  · rfl

/-- So it finds that of the nearest directory. -/
theorem findEnvFile_of_nearest {fs : FileSystem} {currentPath directory : Directory}
    {name : String} (hne : directory ≠ []) (habove : directory <:+ currentPath)
    (hname : envFileOf fs directory = some name)
    (hnearest : ∀ d, d <:+ currentPath → directory.length < d.length → envFileOf fs d = none) :
    findEnvFile fs currentPath = some (directory, name) := by
  induction currentPath with
  | nil => exact absurd (List.suffix_nil.mp habove) hne
  | cons n parent ih =>
    rw [findEnvFile_cons]
    obtain rfl | hparent := List.suffix_cons_iff.mp habove
    · rw [hname]
      rfl
    · have hlonger : directory.length < (n :: parent).length :=
        Nat.lt_succ_of_le hparent.length_le
      rw [hnearest _ (List.suffix_refl _) hlonger]
      exact ih hparent fun d hd => hnearest d (hd.trans (List.suffix_cons n parent))

/-- **What is loaded of a file** is the value of the first of its settings of
the name, without the blanks around it, or else the default. The file is that
of the nearest directory that has one, the root excepted. -/
theorem loadEnvVariable_render {fs : FileSystem} {currentPath directory : Directory}
    {name : String} {lines : List EnvLine} (hne : directory ≠ [])
    (habove : directory <:+ currentPath) (hname : envFileOf fs directory = some name)
    (hnearest : ∀ d, d <:+ currentPath → directory.length < d.length → envFileOf fs d = none)
    (hfile : fs directory name = some (some (EnvLine.file lines)))
    (key defaultValue : List Char) :
    loadEnvVariable fs currentPath key defaultValue
      = ((lines.filterMap EnvLine.entry).lookup key).getD defaultValue := by
  rw [loadEnvVariable, findEnvFile_of_nearest hne habove hname hnearest]
  dsimp only
  rw [hfile]
  dsimp only
  rw [EnvLine.getlines_file, EnvLine.searchLines_render]

/-! ### A file in the sources -/

/-- The host, twice. -/
def hostLines : List EnvLine :=
  [.comment " the server".toList (by decide), .other [] (by decide),
    .setting ⟨"API_HOST".toList, "a host=1".toList, [], [' '], [' ', '\t'], [], by simp [isBlank],
      by simp [Trimmed, isBlank], by simp [Trimmed, isBlank], by simp, by simp, by simp⟩,
    .setting ⟨"API_HOST".toList, "other".toList, [], [], [], [], by simp,
      by simp [Trimmed, isBlank], by simp [Trimmed, isBlank], by simp, by simp, by simp⟩]

/-- A build directory, and the file in the sources of the directory above. -/
def buildDirectory : FileSystem := fun directory name =>
  if directory = ["eastwood"] ∧ name = "src" then some none
  else if directory = ["eastwood"] ∧ name = "src/.env" then some (some (EnvLine.file hostLines))
  else if directory = ["build", "eastwood"] ∧ name = ".env" then some none
  else none

/-- The file beside the build is not taken, there being no sources. -/
theorem loadEnvVariable_apiHost :
    loadEnvVariable buildDirectory ["build", "eastwood"] "API_HOST".toList []
      = "a host=1".toList := by
  have hnearest : ∀ d : Directory, d <:+ ["build", "eastwood"] → 1 < d.length →
      envFileOf buildDirectory d = none := by
    intro d hd hlength
    obtain rfl | hd := List.suffix_cons_iff.mp hd
    · rfl
    · exact absurd hd.length_le (Nat.not_le.mpr hlength)
  have hfile : buildDirectory ["eastwood"] "src/.env" = some (some (EnvLine.file hostLines)) := rfl
  exact loadEnvVariable_render (by decide) (List.suffix_cons "build" ["eastwood"]) rfl hnearest
    hfile "API_HOST".toList []
