import Eastwood.HttpRequest

/-!
# The header block

`formatHeaders` is given header lines as they come, with whatever ends of
lines and blank lines among them, and a blank line in a request would end its
header block. What it returns is a block of lines (`formatHeaders_eq`): those
of the text that are not empty, in order, and behind them the defaults whose
name is in none of them.

The lines of a block are not empty, hold no line feed and do not end in a
carriage return (`IsBlockLine`), so reading the block line by line gives them
back (`headerLines_flatMap`). With it the block has no blank line, and to
format it again changes nothing.
-/

/-! ## Lines -/

/-- **The lines of a text** that are not empty, split at the line feeds and
without the carriage returns at their ends. -/
def headerLines (s : List Char) : List (List Char) :=
  ((s.splitOn '\n').map (List.rdropWhile (· = '\r'))).filter (· ≠ [])

/-- **A line of a block.** -/
structure IsBlockLine (line : List Char) : Prop where
  ne_nil : line ≠ []
  notMem_newline : '\n' ∉ line
  last_ne : line.rdropWhile (· = '\r') = line

/-- `getline` leaves out what is behind the last line feed if that is
nothing. -/
theorem splitOn_eq_getlines (s : List Char) :
    s.splitOn '\n' = getlines s ∨ s.splitOn '\n' = getlines s ++ [[]] := by
  induction s with
  | nil => exact Or.inr rfl
  | cons c s ih =>
    rw [List.splitOn_cons_eq_if_modifyHead, getlines]
    by_cases hc : c = '\n'
    · rw [if_pos (beq_iff_eq.mpr hc), if_pos hc]
      rcases ih with ih | ih
      · exact Or.inl (congrArg _ ih)
      · exact Or.inr (congrArg _ ih)
    · rw [if_neg (fun h => hc (beq_iff_eq.mp h)), if_neg hc]
      cases hs : getlines s with
      | nil =>
        rcases ih with ih | ih
        · exact absurd (ih.trans hs) (List.splitOn_ne_nil _ _)
        · rw [ih, hs]
          exact Or.inl rfl
      | cons line lines =>
        rcases ih with ih | ih
        · rw [ih, hs]
          exact Or.inl rfl
        · rw [ih, hs]
          exact Or.inr rfl

theorem notMem_of_mem_getlines {s line : List Char} (h : line ∈ getlines s) : '\n' ∉ line := by
  induction s generalizing line with
  | nil => cases h
  | cons c s ih =>
    rw [getlines] at h
    split at h
    · rcases List.mem_cons.mp h with rfl | h
      · exact List.not_mem_nil
      · exact ih h
    · rename_i hc
      split at h
      · rw [List.mem_singleton.mp h]
        exact List.not_mem_cons_of_ne_of_not_mem (Ne.symm hc) List.not_mem_nil
      · rename_i first lines hs
        rw [hs] at ih
        rcases List.mem_cons.mp h with rfl | h
        · exact List.not_mem_cons_of_ne_of_not_mem (Ne.symm hc) (ih List.mem_cons_self)
        · exact ih (List.mem_cons_of_mem _ h)

/-- In a line only carriage returns are taken off its end. -/
theorem rdropWhile_isLineEnd {line : List Char} (h : '\n' ∉ line) :
    line.rdropWhile isLineEnd = line.rdropWhile (· = '\r') := by
  induction line using List.reverseRecOn with
  | nil => rfl
  | append_singleton line c ih =>
    obtain ⟨hline, hc⟩ := not_or.mp (mt List.mem_append.mpr h)
    have hne : c ≠ '\n' := fun hc' => hc (List.mem_singleton.mpr hc'.symm)
    rw [List.rdropWhile_concat, List.rdropWhile_concat, ih hline]
    simp [isLineEnd, hne]

/-- **What `formatHeaders` keeps** of the lines it gets. -/
theorem headerLines_eq (s : List Char) :
    ((getlines s).map (List.rdropWhile isLineEnd)).filter (· ≠ []) = headerLines s := by
  have hmap : (getlines s).map (List.rdropWhile isLineEnd)
      = (getlines s).map (List.rdropWhile (· = '\r')) :=
    List.map_congr_left fun line hline => rdropWhile_isLineEnd (notMem_of_mem_getlines hline)
  rw [hmap, headerLines]
  rcases splitOn_eq_getlines s with hs | hs
  · rw [hs]
  · rw [hs, List.map_append, List.filter_append]
    exact (List.append_nil _).symm

/-- They are lines of a block. -/
theorem isBlockLine_of_mem_headerLines {s line : List Char} (h : line ∈ headerLines s) :
    IsBlockLine line := by
  rw [← headerLines_eq] at h
  obtain ⟨hmem, hne⟩ := List.mem_filter.mp h
  obtain ⟨raw, hraw, rfl⟩ := List.mem_map.mp hmem
  have hnewline := notMem_of_mem_getlines hraw
  have hkept : raw.rdropWhile isLineEnd <+: raw := List.rdropWhile_prefix isLineEnd raw
  refine ⟨of_decide_eq_true hne, fun hmem => hnewline (hkept.subset hmem), ?_⟩
  rw [rdropWhile_isLineEnd hnewline]
  exact List.rdropWhile_idempotent ..

/-! ## Blocks -/

/-- A block as `getline` reads it. -/
theorem getlines_block {lines : List (List Char)} (h : ∀ line ∈ lines, '\n' ∉ line) :
    getlines (lines.flatMap (· ++ crlf)) = lines.map (· ++ ['\r']) := by
  have hlines : ∀ line ∈ lines.map (· ++ ['\r']), '\n' ∉ line := by
    intro line hline
    obtain ⟨line, hmem, rfl⟩ := List.mem_map.mp hline
    rw [List.mem_append, not_or]
    exact ⟨h line hmem, by decide⟩
  have hflat : lines.flatMap (· ++ crlf) = (lines.map (· ++ ['\r'])).flatMap (· ++ ['\n']) := by
    rw [List.flatMap_map]
    refine List.flatMap_congr fun line _ => ?_
    rw [List.append_assoc]
    rfl
  rw [hflat, getlines_flatMap hlines]

/-- **The lines of a block** are those it was made of. -/
theorem headerLines_flatMap {lines : List (List Char)} (h : ∀ line ∈ lines, IsBlockLine line) :
    headerLines (lines.flatMap (· ++ crlf)) = lines := by
  have hstripped : (lines.map (· ++ ['\r'])).map (List.rdropWhile isLineEnd) = lines := by
    rw [List.map_map]
    refine (List.map_congr_left fun line hline => ?_).trans (List.map_id lines)
    show (line ++ ['\r']).rdropWhile isLineEnd = line
    rw [List.rdropWhile_concat_pos _ _ _ (by decide),
      rdropWhile_isLineEnd (h line hline).notMem_newline, (h line hline).last_ne]
  rw [← headerLines_eq, getlines_block fun line hline => (h line hline).notMem_newline, hstripped]
  exact List.filter_eq_self.mpr fun line hline => decide_eq_true (h line hline).ne_nil

/-! ## The defaults -/

/-- A text without the character between two others is in one of them. -/
theorem isInfix_append_cons_iff {p a b : List Char} {c : Char} (hc : c ∉ p) :
    p <:+: a ++ c :: b ↔ p <:+: a ∨ p <:+: b := by
  have hfront : ∀ {p a : List Char}, c ∉ p → p <+: a ++ c :: b → p <+: a := by
    intro p a hc h
    induction a generalizing p with
    | nil =>
      cases p with
      | nil => exact List.prefix_rfl
      | cons d p =>
        exact absurd (List.cons_prefix_cons.mp h).1.symm (List.ne_of_not_mem_cons hc)
    | cons e a ih =>
      cases p with
      | nil => exact List.nil_prefix
      | cons d p =>
        obtain ⟨rfl, hnext⟩ := List.cons_prefix_cons.mp h
        exact List.cons_prefix_cons.mpr ⟨rfl, ih (List.not_mem_of_not_mem_cons hc) hnext⟩
  constructor
  · intro h
    induction a with
    | nil =>
      rcases List.infix_cons_iff.mp h with h | h
      · exact Or.inl (hfront (a := []) hc h).isInfix
      · exact Or.inr h
    | cons d a ih =>
      rcases List.infix_cons_iff.mp h with h | h
      · exact Or.inl (hfront (a := d :: a) hc h).isInfix
      · exact (ih h).imp_left fun h => h.trans (List.suffix_cons d a).isInfix
  · rintro (h | h)
    · exact h.trans (List.prefix_append a _).isInfix
    · exact h.trans ((List.suffix_cons c b).trans (List.suffix_append a _)).isInfix

/-- A name is in a block if it is in one of its lines. -/
theorem find_block_isSome {name : List Char} (hne : name ≠ []) (hr : '\r' ∉ name)
    (hn : '\n' ∉ name) (lines : List (List Char)) :
    (find name (lines.flatMap (· ++ crlf))).isSome ↔ ∃ line ∈ lines, name <:+: line := by
  rw [find_isSome]
  induction lines with
  | nil => simp [hne]
  | cons line lines ih =>
    have hblock : (line :: lines).flatMap (· ++ crlf)
        = line ++ '\r' :: ([] ++ '\n' :: lines.flatMap (· ++ crlf)) := by
      rw [List.flatMap_cons, List.append_assoc]
      rfl
    rw [hblock, isInfix_append_cons_iff hr, isInfix_append_cons_iff hn, ih, List.infix_nil,
      or_iff_right hne, List.exists_mem_cons_iff]

/-- **The defaults whose name is in no line.** -/
def missingDefaults (lines : List (List Char)) : List (List Char) :=
  (if ∃ line ∈ lines, "Accept:".toList <:+: line then [] else ["Accept: */*".toList])
    ++ if ∃ line ∈ lines, "User-Agent:".toList <:+: line then []
      else ["User-Agent: Eastwood/1.0".toList]

/-- They are lines of a block, -/
theorem isBlockLine_of_mem_missingDefaults {lines : List (List Char)} {line : List Char}
    (h : line ∈ missingDefaults lines) : IsBlockLine line := by
  have haccept : IsBlockLine "Accept: */*".toList := ⟨by decide, by decide, by decide⟩
  have hagent : IsBlockLine "User-Agent: Eastwood/1.0".toList := ⟨by decide, by decide, by decide⟩
  rcases List.mem_append.mp h with h | h
  · split at h
    · cases h
    · rw [List.mem_singleton.mp h]
      exact haccept
  · split at h
    · cases h
    · rw [List.mem_singleton.mp h]
      exact hagent

/-- and with them nothing is missing. -/
theorem missingDefaults_append_missingDefaults (lines : List (List Char)) :
    missingDefaults (lines ++ missingDefaults lines) = [] := by
  -- a name that was in no line is in its default
  have hthere : ∀ (name line : List Char), name <:+: line →
      (¬ (∃ l ∈ lines, name <:+: l) → line ∈ missingDefaults lines) →
      ∃ l ∈ lines ++ missingDefaults lines, name <:+: l := by
    intro name line hname hmissing
    by_cases h : ∃ l ∈ lines, name <:+: l
    · obtain ⟨l, hl, hin⟩ := h
      exact ⟨l, List.mem_append_left _ hl, hin⟩
    · exact ⟨line, List.mem_append_right _ (hmissing h), hname⟩
  have haccept := hthere "Accept:".toList "Accept: */*".toList (by decide) fun h => by
    rw [missingDefaults, if_neg h]
    exact List.mem_append_left _ (List.mem_singleton_self _)
  have hagent := hthere "User-Agent:".toList "User-Agent: Eastwood/1.0".toList (by decide)
    fun h => by
      rw [missingDefaults, if_neg h]
      exact List.mem_append_right _ (List.mem_singleton_self _)
  rw [missingDefaults, if_pos haccept, if_pos hagent]
  rfl

/-- A default that is put behind a block where its name is missing. -/
theorem append_default {name : List Char} (hne : name ≠ []) (hr : '\r' ∉ name) (hn : '\n' ∉ name)
    (default : List Char) (lines : List (List Char)) :
    (if (find name (lines.flatMap (· ++ crlf))).isNone then
        lines.flatMap (· ++ crlf) ++ (default ++ crlf)
      else lines.flatMap (· ++ crlf))
      = (lines ++ if ∃ line ∈ lines, name <:+: line then [] else [default]).flatMap
          (· ++ crlf) := by
  have hfind := find_block_isSome hne hr hn lines
  by_cases h : ∃ line ∈ lines, name <:+: line
  · have hsome := hfind.mpr h
    rw [if_pos h, List.append_nil, if_neg]
    rw [Option.isNone_iff_eq_none, ← Option.not_isSome_iff_eq_none, not_not]
    exact hsome
  · rw [if_neg h, if_pos, List.flatMap_append, List.flatMap_singleton]
    rw [Option.isNone_iff_eq_none, ← Option.not_isSome_iff_eq_none, hfind]
    exact h

/-! ## What is formatted -/

namespace HTTPSClient

/-- **The block `formatHeaders` makes.** -/
theorem formatHeaders_eq (s : List Char) :
    formatHeaders s
      = (headerLines s ++ missingDefaults (headerLines s)).flatMap (· ++ crlf) := by
  have haccept : "Accept: */*\r\n".toList = "Accept: */*".toList ++ crlf := by decide
  have hagent : "User-Agent: Eastwood/1.0\r\n".toList
      = "User-Agent: Eastwood/1.0".toList ++ crlf := by decide
  unfold formatHeaders
  rw [headerLines_eq, haccept, hagent]
  dsimp only
  rw [append_default (by decide) (by decide) (by decide),
    append_default (by decide) (by decide) (by decide), missingDefaults, ← List.append_assoc]
  -- the one default does not hold the name of the other
  refine congrArg (List.flatMap (· ++ crlf)) (congrArg (HAppend.hAppend _) ?_)
  refine if_congr ⟨?_, ?_⟩ rfl rfl
  · rintro ⟨line, hline, hin⟩
    rcases List.mem_append.mp hline with hline | hline
    · exact ⟨line, hline, hin⟩
    · split at hline
      · cases hline
      · rw [List.mem_singleton.mp hline] at hin
        exact absurd hin (by decide)
  · rintro ⟨line, hline, hin⟩
    exact ⟨line, List.mem_append_left _ hline, hin⟩

/-- **Its lines** are lines of a block. -/
theorem isBlockLine_of_mem_format {s line : List Char}
    (h : line ∈ headerLines s ++ missingDefaults (headerLines s)) : IsBlockLine line :=
  (List.mem_append.mp h).elim isBlockLine_of_mem_headerLines isBlockLine_of_mem_missingDefaults

end HTTPSClient

/-! ## Empty lines -/

/-- **There is no empty line** in a text: every line has something other than
carriage returns. -/
def NoEmptyLine (text : List Char) : Prop := ∀ line ∈ getlines text, ∃ c ∈ line, c ≠ '\r'

/-- Behind a line feed a line begins. -/
theorem getlines_append_newline (a b : List Char) :
    ∃ first lines, getlines (a ++ ['\n']) = first :: lines
      ∧ getlines (a ++ '\n' :: b) = first :: lines ++ getlines b := by
  induction a with
  | nil => exact ⟨[], [], rfl, by rw [List.nil_append, getlines, if_pos rfl]; rfl⟩
  | cons c a ih =>
    obtain ⟨first, lines, hfirst, hall⟩ := ih
    rw [List.cons_append, List.cons_append, getlines, getlines, hfirst, hall]
    split
    · exact ⟨[], first :: lines, rfl, rfl⟩
    · exact ⟨c :: first, lines, rfl, rfl⟩

/-- So the text does not begin with the end of a header block, -/
theorem NoEmptyLine.not_first {text : List Char} (h : NoEmptyLine text) : ¬ crlf <+: text := by
  rintro ⟨rest, rfl⟩
  have hmem : ['\r'] ∈ getlines (crlf ++ rest) := by
    show ['\r'] ∈ getlines (['\r'] ++ '\n' :: rest)
    rw [getlines_append_cons (by decide)]
    exact List.mem_cons_self
  obtain ⟨c, hc, hne⟩ := h _ hmem
  exact hne (List.mem_singleton.mp hc)

/-- and has none within. -/
theorem NoEmptyLine.not_within {text : List Char} (h : NoEmptyLine text) :
    ¬ crlf ++ crlf <:+: text := by
  rintro ⟨before, after, rfl⟩
  have hmem : ['\r'] ∈ getlines (before ++ (crlf ++ crlf) ++ after) := by
    have htext : before ++ (crlf ++ crlf) ++ after
        = (before ++ ['\r']) ++ '\n' :: (['\r'] ++ '\n' :: after) := by
      simp [crlf]
    obtain ⟨first, lines, -, hall⟩ :=
      getlines_append_newline (before ++ ['\r']) (['\r'] ++ '\n' :: after)
    rw [htext, hall, getlines_append_cons (by decide)]
    exact List.mem_append_right _ List.mem_cons_self
  obtain ⟨c, hc, hne⟩ := h _ hmem
  exact hne (List.mem_singleton.mp hc)

/-- A block has none. -/
theorem noEmptyLine_flatMap {lines : List (List Char)} (h : ∀ line ∈ lines, IsBlockLine line) :
    NoEmptyLine (lines.flatMap (· ++ crlf)) := by
  intro line hline
  rw [getlines_block fun line hline => (h line hline).notMem_newline] at hline
  obtain ⟨line, hmem, rfl⟩ := List.mem_map.mp hline
  by_contra hnone
  have hall : ∀ c ∈ line, decide (c = '\r') = true := fun c hc => by
    by_contra hne
    exact hnone ⟨c, List.mem_append_left _ hc, fun hc' => hne (decide_eq_true hc')⟩
  have hnil := List.rdropWhile_eq_nil_iff.mpr hall
  exact (h line hmem).ne_nil ((h line hmem).last_ne.symm.trans hnil)

/-! ## The main result -/

namespace HTTPSClient

/-- **`formatHeaders` normalises**: what it makes of any text is its lines
that are not empty, and behind them the missing defaults, every one ended by
a CRLF. The block has no empty line that would end it, and is formatted as
itself. -/
theorem formatHeaders_normalises (s : List Char) :
    formatHeaders s = (headerLines s ++ missingDefaults (headerLines s)).flatMap (· ++ crlf)
      ∧ NoEmptyLine (formatHeaders s)
      ∧ ¬ crlf <+: formatHeaders s ∧ ¬ crlf ++ crlf <:+: formatHeaders s
      ∧ formatHeaders (formatHeaders s) = formatHeaders s := by
  have hlines : ∀ line ∈ headerLines s ++ missingDefaults (headerLines s), IsBlockLine line :=
    fun line hline => isBlockLine_of_mem_format hline
  have hempty : NoEmptyLine (formatHeaders s) := by
    rw [formatHeaders_eq]
    exact noEmptyLine_flatMap hlines
  have hagain : headerLines (formatHeaders s)
      = headerLines s ++ missingDefaults (headerLines s) := by
    rw [formatHeaders_eq]
    exact headerLines_flatMap hlines
  refine ⟨formatHeaders_eq s, hempty, hempty.not_first, hempty.not_within, ?_⟩
  rw [formatHeaders_eq (formatHeaders s), hagain, missingDefaults_append_missingDefaults,
    List.append_nil, formatHeaders_eq]

end HTTPSClient
