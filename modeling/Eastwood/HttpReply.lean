import Eastwood.HttpResponse
import Mathlib.Data.List.TakeWhile

/-!
# Well-formed replies

What a server sends is a status line, header lines, a blank line and a body.
`parse_json_response` looks for the three by text search: the status stands
between the first two spaces of the first line, the body behind the first
blank line. Neither the header lines nor the body can mislead it, whatever
they contain (`extractResponseBody_text`).

The status line can. A reason phrase is optional, and where it is left out
with the space before it there is no second space: the status is 0 then,
which is no error (`classified_iff`).
-/

/-! ## Searching for the end of a line -/

/-- The end of a line. -/
def crlf : List Char := ['\r', '\n']

/-- **A text within a line**: no line ends in it. -/
def WithinLine (s : List Char) : Prop := ¬ crlf <:+: s

theorem WithinLine.tail {c : Char} {s : List Char} (h : WithinLine (c :: s)) : WithinLine s :=
  fun hs => h (List.infix_cons hs)

theorem WithinLine.nil : WithinLine [] := fun h => List.cons_ne_nil _ _ (List.infix_nil.mp h)

/-- A character that is in no line end may stand between two texts. -/
theorem WithinLine.append_cons {a b : List Char} {c : Char} (ha : WithinLine a)
    (hb : WithinLine b) (hr : c ≠ '\r') (hn : c ≠ '\n') : WithinLine (a ++ c :: b) := by
  induction a with
  | nil =>
    intro h
    obtain h | h := List.infix_cons_iff.mp h
    · exact hr (List.cons_prefix_cons.mp h).1.symm
    · exact hb h
  | cons d a ih =>
    intro h
    obtain h | h := List.infix_cons_iff.mp h
    · obtain ⟨rfl, hnext⟩ := List.cons_prefix_cons.mp h
      cases a with
      | nil => exact hn (List.cons_prefix_cons.mp hnext).1.symm
      | cons e a =>
        obtain ⟨rfl, -⟩ := List.cons_prefix_cons.mp hnext
        exact ha ⟨[], a, rfl⟩
    · exact ih ha.tail h

/-- Characters of which none ends a line are within one. -/
theorem WithinLine.of_notMem {s : List Char} (h : '\n' ∉ s) : WithinLine s := fun hs =>
  h (hs.subset (by simp [crlf]))

/-- **Within a line nothing is found** that begins with its end. -/
theorem find_line {line : List Char} (h : WithinLine line) (pattern s : List Char) :
    find (crlf ++ pattern) (line ++ (crlf ++ s))
      = (find (crlf ++ pattern) (crlf ++ s)).map fun found => (line ++ found.1, found.2) := by
  induction line with
  | nil => simp
  | cons c line ih =>
    have hprefix : ¬ (crlf ++ pattern).isPrefixOf (c :: (line ++ (crlf ++ s))) := by
      intro hp
      obtain ⟨rfl, hnext⟩ := List.cons_prefix_cons.mp (List.isPrefixOf_iff_prefix.mp hp)
      cases line with
      | nil => exact absurd (List.cons_prefix_cons.mp hnext).1 (by decide)
      | cons d line =>
        obtain ⟨rfl, -⟩ := List.cons_prefix_cons.mp hnext
        exact h ⟨[], line, rfl⟩
    rw [List.cons_append, find, if_neg hprefix, ih h.tail, Option.map_map]
    rfl

/-- The end of a line is found if what is to follow it does. -/
theorem find_crlf_append (pattern s : List Char) :
    find (crlf ++ pattern) (crlf ++ (pattern ++ s)) = some ([], s) := by
  have hprefix : (crlf ++ pattern).isPrefixOf ('\r' :: '\n' :: (pattern ++ s)) :=
    List.isPrefixOf_iff_prefix.mpr ⟨s, by simp [crlf]⟩
  show find (crlf ++ pattern) ('\r' :: '\n' :: (pattern ++ s)) = _
  rw [find, if_pos hprefix]
  simp [crlf]

/-- And it is passed over if it does not. -/
theorem find_crlf_of_not_prefix {pattern s : List Char} (h : ¬ pattern <+: s) :
    find (crlf ++ pattern) (crlf ++ s)
      = (find (crlf ++ pattern) s).map fun found => (crlf ++ found.1, found.2) := by
  have hfirst : ¬ (crlf ++ pattern).isPrefixOf ('\r' :: '\n' :: s) := by
    intro hp
    obtain ⟨-, hp⟩ := List.cons_prefix_cons.mp (List.isPrefixOf_iff_prefix.mp hp)
    exact h (List.cons_prefix_cons.mp hp).2
  have hsecond : ¬ (crlf ++ pattern).isPrefixOf ('\n' :: s) := by
    intro hp
    obtain ⟨heq, -⟩ := List.cons_prefix_cons.mp (List.isPrefixOf_iff_prefix.mp hp)
    exact absurd heq (by decide)
  show find (crlf ++ pattern) ('\r' :: '\n' :: s) = _
  rw [find, if_neg hfirst, find, if_neg hsecond, Option.map_map]
  rfl

/-- A character is found where it first stands. -/
theorem find_singleton {c : Char} {a : List Char} (h : c ∉ a) (b : List Char) :
    find [c] (a ++ c :: b) = some (a, b) := by
  induction a with
  | nil =>
    have hprefix : [c].isPrefixOf (c :: b) := by simp
    rw [List.nil_append, find, if_pos hprefix]
    rfl
  | cons d a ih =>
    have hprefix : ¬ [c].isPrefixOf (d :: (a ++ c :: b)) := by
      intro hp
      obtain ⟨rfl, -⟩ := List.cons_prefix_cons.mp (List.isPrefixOf_iff_prefix.mp hp)
      exact h List.mem_cons_self
    rw [List.cons_append, find, if_neg hprefix, ih fun hc => h (List.mem_cons_of_mem _ hc)]
    rfl

/-! ## The reply -/

/-- The number digits are. -/
def numeral (digits : List Char) : ℤ := digits.foldl (fun n d => 10 * n + (d.toNat - 48 : ℕ)) 0

/-- **A well-formed reply**: a status line of a version, a code of three
digits and perhaps a reason; header lines; a body. -/
structure HttpReply where
  version : List Char
  code : List Char
  reason : Option (List Char)
  headers : List (List Char)
  body : List Char
  space_notMem : ' ' ∉ version
  version_line : WithinLine version
  code_length : code.length = 3
  code_digits : ∀ c ∈ code, c.isDigit
  reason_line : ∀ r ∈ reason, WithinLine r
  headers_line : ∀ line ∈ headers, line ≠ [] ∧ WithinLine line

namespace HttpReply

/-- What stands behind the code. -/
def reasonText (r : HttpReply) : List Char :=
  match r.reason with
  | some reason => ' ' :: reason
  | none => []

/-- The status line. -/
def statusLine (r : HttpReply) : List Char := r.version ++ ' ' :: (r.code ++ r.reasonText)

/-- Header lines, the blank line and the body. -/
def headersAndBody (headers : List (List Char)) (body : List Char) : List Char :=
  headers.flatMap (· ++ crlf) ++ (crlf ++ body)

/-- **The reply as it is sent.** -/
def text (r : HttpReply) : List Char :=
  r.statusLine ++ (crlf ++ headersAndBody r.headers r.body)

/-- The number the code is. -/
def statusCode (r : HttpReply) : ℤ := numeral r.code

variable {r : HttpReply}

/-- A digit ends nothing. -/
theorem ne_of_mem_code {c d : Char} (hc : c ∈ r.code) (hd : ¬ d.isDigit) : c ≠ d := by
  rintro rfl
  exact hd (r.code_digits c hc)

theorem withinLine_statusLine : WithinLine r.statusLine := by
  have hcode : WithinLine r.code :=
    .of_notMem fun h => ne_of_mem_code h (by decide) rfl
  have hafter : WithinLine (r.code ++ r.reasonText) := by
    unfold reasonText
    cases hreason : r.reason with
    | none => rwa [List.append_nil]
    | some reason => exact hcode.append_cons (r.reason_line _ hreason) (by decide) (by decide)
  exact r.version_line.append_cons hafter (by decide) (by decide)

/-- The first line is the status line. -/
theorem firstLine_text : firstLine r.text = some r.statusLine := by
  have hfind : find (crlf ++ []) r.text
      = some (r.statusLine, headersAndBody r.headers r.body) := by
    unfold text
    rw [find_line withinLine_statusLine]
    have hend := find_crlf_append [] (headersAndBody r.headers r.body)
    rw [List.nil_append] at hend
    rw [hend, Option.map_some, List.append_nil]
  have hfind' : find ['\r', '\n'] r.text = some _ := hfind
  rw [firstLine, hfind']
  rfl

/-- A header line is no blank one. -/
theorem not_prefix_crlf {line s : List Char} (hne : line ≠ []) (hline : WithinLine line) :
    ¬ crlf <+: line ++ (crlf ++ s) := by
  intro hp
  cases line with
  | nil => exact hne rfl
  | cons c line =>
    obtain ⟨rfl, hnext⟩ := List.cons_prefix_cons.mp hp
    cases line with
    | nil => exact absurd (List.cons_prefix_cons.mp hnext).1 (by decide)
    | cons d line =>
      obtain ⟨rfl, -⟩ := List.cons_prefix_cons.mp hnext
      exact hline ⟨[], line, rfl⟩

/-- **The first blank line is the one before the body.** -/
theorem find_headersAndBody {line : List Char} (hline : WithinLine line)
    {headers : List (List Char)} (h : ∀ l ∈ headers, l ≠ [] ∧ WithinLine l) (body : List Char) :
    ∃ before, find (crlf ++ crlf) (line ++ (crlf ++ headersAndBody headers body))
      = some (before, body) := by
  induction headers generalizing line with
  | nil =>
    rw [find_line hline]
    have hend := find_crlf_append crlf body
    exact ⟨_, congrArg (Option.map _) hend⟩
  | cons l headers ih =>
    obtain ⟨hne, hl⟩ := h l List.mem_cons_self
    obtain ⟨before, hbefore⟩ := ih hl fun l hl => h l (List.mem_cons_of_mem _ hl)
    have hcons : headersAndBody (l :: headers) body
        = l ++ (crlf ++ headersAndBody headers body) := by
      unfold headersAndBody
      rw [List.flatMap_cons]
      simp only [List.append_assoc]
    rw [find_line hline, hcons,
      find_crlf_of_not_prefix (not_prefix_crlf hne hl), hbefore]
    exact ⟨_, rfl⟩

/-- **The body is what is behind it.** -/
theorem extractResponseBody_text : extractResponseBody r.text = r.body := by
  obtain ⟨before, hfind⟩ := find_headersAndBody (withinLine_statusLine (r := r)) r.headers_line
    r.body
  have hfind' : find ['\r', '\n', '\r', '\n'] r.text = some (before, r.body) := hfind
  rw [extractResponseBody, hfind']

end HttpReply

/-! ## The status -/

/-- So many digits are no larger number. -/
theorem foldl_digits_lt_pow {s : List Char} (h : ∀ c ∈ s, c.isDigit) {n : ℤ} (hn : 0 ≤ n) :
    0 ≤ s.foldl (fun (n : ℤ) d => 10 * n + (d.toNat - 48 : ℕ)) n
      ∧ s.foldl (fun (n : ℤ) d => 10 * n + (d.toNat - 48 : ℕ)) n < (n + 1) * 10 ^ s.length := by
  induction s generalizing n with
  | nil => exact ⟨hn, by simp⟩
  | cons c s ih =>
    have hc : c.toNat ≤ 57 := by
      have hdigit := h c List.mem_cons_self
      simp only [Char.isDigit, Bool.and_eq_true, decide_eq_true_eq] at hdigit
      exact hdigit.2
    have hnext : 0 ≤ 10 * n + (c.toNat - 48 : ℕ) := by omega
    obtain ⟨hnonneg, hlt⟩ := ih (fun d hd => h d (List.mem_cons_of_mem _ hd)) hnext
    rw [List.foldl_cons]
    refine ⟨hnonneg, hlt.trans_le ?_⟩
    rw [List.length_cons, pow_succ', ← mul_assoc]
    refine mul_le_mul_of_nonneg_right ?_ (by positivity)
    omega

/-- **`std::stoi` of a few digits** is the number they are. -/
theorem stoi_of_digits {s : List Char} (hne : s ≠ []) (h : ∀ c ∈ s, c.isDigit)
    (hlen : s.length ≤ 9) : stoi s = some (numeral s) := by
  have hother : ∀ {c d : Char}, c ∈ s → ¬ d.isDigit → c ≠ d := fun hc hd hcd =>
    hd (hcd ▸ h _ hc)
  have hnull : s.takeWhile (· ≠ '\x00') = s :=
    List.takeWhile_eq_self_iff.mpr fun c hc => decide_eq_true (hother hc (by decide))
  have hdigits : s.takeWhile Char.isDigit = s := List.takeWhile_eq_self_iff.mpr h
  have hrange := foldl_digits_lt_pow h le_rfl
  have hpow : (10 : ℤ) ^ s.length ≤ 10 ^ 9 := pow_le_pow_right₀ (by decide) hlen
  have hsplit : splitSign (s.dropWhile isSpace) = (false, s) := by
    cases s with
    | nil => exact absurd rfl hne
    | cons c s =>
      have hspace : isSpace c ≠ true := by
        have hdigit := h c List.mem_cons_self
        simp only [Char.isDigit, Bool.and_eq_true, decide_eq_true_eq] at hdigit
        have hle : 48 ≤ c.toNat := hdigit.1
        intro hspace
        simp only [isSpace, Bool.or_eq_true, decide_eq_true_eq, Bool.and_eq_true] at hspace
        obtain hblank | hcontrol := hspace
        · exact hother List.mem_cons_self (by decide) hblank
        · omega
      rw [List.dropWhile_cons_of_neg hspace]
      exact splitSign_of_ne (hother List.mem_cons_self (by decide))
        (hother List.mem_cons_self (by decide))
  unfold stoi
  simp only [hnull, hsplit, hdigits, if_neg hne]
  rw [if_neg]
  · rfl
  · simp only [Bool.false_eq_true, if_false]
    omega

namespace HttpReply

variable {r : HttpReply}

theorem ne_nil_code : r.code ≠ [] := by
  intro h
  have hlen := r.code_length
  rw [h] at hlen
  cases hlen

/-- **The status read** is the code, if a space follows it, and else none. -/
theorem parseStatusCode_statusLine :
    parseStatusCode r.statusLine = if r.reason.isSome then r.statusCode else 0 := by
  have hspace : ' ' ∉ r.code := fun h => ne_of_mem_code h (by decide) rfl
  unfold parseStatusCode statusLine reasonText
  simp only [find_singleton r.space_notMem]
  cases r.reason with
  | none =>
    have hnone : find [' '] (r.code ++ []) = none := by
      rw [List.append_nil, ← Option.not_isSome_iff_eq_none, find_singleton_isSome]
      exact hspace
    simp only [hnone]
    rfl
  | some reason =>
    have hcode := stoi_of_digits ne_nil_code r.code_digits (r.code_length.le.trans (by decide))
    simp only [find_singleton hspace, hcode]
    rfl

/-! ## The main result -/

section Parse

variable {parse : List Char → Except ParseFault Json}

/-- What is made of the body: the value it is as JSON, or its text. -/
def data (parse : List Char → Except ParseFault Json) (r : HttpReply) : Json :=
  match parse r.body with
  | .ok value => value
  | .error _ => .str (String.ofList r.body)

/-- **A reply is classified**: an error is thrown with its code and its body,
and anything else is returned with its code and what is in the body. -/
def Classified (parse : List Char → Except ParseFault Json) (r : HttpReply) : Prop :=
  (parseJsonResponse parse r.text = .error (.httpError ⟨r.body, r.statusCode⟩)
      ↔ 400 ≤ r.statusCode)
    ∧ (r.statusCode < 400 → ∃ contentType,
        parseJsonResponse parse r.text
          = .ok (parsedResponse (r.data parse) contentType r.statusCode))

/-- What is made of a reply: its parts are found, and the status is the one
read. -/
theorem parseJsonResponse_text (r : HttpReply) :
    parseJsonResponse parse r.text
      = let statusCode := if r.reason.isSome then r.statusCode else 0
        if 400 ≤ statusCode then .error (.httpError ⟨r.body, statusCode⟩)
        else match parse r.body with
          | .ok value => .ok (parsedResponse value "json" statusCode)
          | .error .parseError =>
            .ok (parsedResponse (.str (String.ofList r.body)) "text" statusCode)
          | .error .outOfRange => .error (.jsonError .outOfRange) := by
  have hne : r.text ≠ [] := by
    intro h
    have hline := firstLine_text (r := r)
    rw [h] at hline
    cases hline
  unfold parseJsonResponse
  rw [if_neg hne, firstLine_text]
  cases hparse : parse r.body with
  | ok value => simp only [parseStatusCode_statusLine, extractResponseBody_text, hparse]
  | error fault =>
    cases fault with
    | parseError => simp only [parseStatusCode_statusLine, extractResponseBody_text, hparse]
    | outOfRange => simp only [parseStatusCode_statusLine, extractResponseBody_text, hparse]

/-- What is returned says which status was read. -/
theorem eq_of_parsedResponse {value value' : Json} {contentType contentType' : String}
    {statusCode statusCode' : ℤ} (h : parsedResponse value contentType statusCode
      = parsedResponse value' contentType' statusCode') : statusCode = statusCode' := by
  simp only [parsedResponse, Json.obj.injEq, List.cons.injEq, Prod.mk.injEq, Json.num.injEq,
    true_and, and_true] at h
  exact h.2.2

/-- A reply whose status is read is classified, unless it is returned and its
body holds a number that is none. -/
theorem classified_of_read (h : r.reason.isSome ∨ r.statusCode = 0) :
    r.Classified parse ↔ 400 ≤ r.statusCode ∨ parse r.body ≠ .error .outOfRange := by
  have hstatus : (if r.reason.isSome then r.statusCode else 0) = r.statusCode := by
    split
    · rfl
    · rename_i hnone
      exact (h.resolve_left hnone).symm
  unfold Classified
  rw [parseJsonResponse_text]
  simp only [hstatus]
  by_cases herror : 400 ≤ r.statusCode
  · rw [if_pos herror]
    exact iff_of_true ⟨iff_of_true rfl herror, fun hlt => absurd herror hlt.not_ge⟩ (Or.inl herror)
  · rw [if_neg herror, or_iff_right herror]
    unfold data
    cases parse r.body with
    | ok value =>
      exact iff_of_true ⟨iff_of_false nofun herror, fun _ => ⟨"json", rfl⟩⟩ nofun
    | error e =>
      cases e with
      | parseError => exact iff_of_true ⟨iff_of_false nofun herror, fun _ => ⟨"text", rfl⟩⟩ nofun
      | outOfRange =>
        refine iff_of_false (fun hclassified => ?_) fun hne => hne rfl
        obtain ⟨contentType, hreturned⟩ := hclassified.2 (not_le.mp herror)
        cases hreturned

/-- One whose status is not read is not: it is taken for a success. -/
theorem not_classified_of_not_read (hreason : ¬ r.reason.isSome) (hcode : r.statusCode ≠ 0) :
    ¬ r.Classified parse := by
  intro h
  unfold Classified at h
  rw [parseJsonResponse_text] at h
  simp only [if_neg hreason, show ¬ (400 : ℤ) ≤ 0 by decide, if_false] at h
  obtain ⟨hthrows, hreturns⟩ := h
  by_cases herror : 400 ≤ r.statusCode
  · have hthrown := hthrows.mpr herror
    split at hthrown <;> cases hthrown
  · obtain ⟨contentType, hreturned⟩ := hreturns (not_le.mp herror)
    split at hreturned
    · exact hcode (eq_of_parsedResponse (Except.ok.inj hreturned)).symm
    · exact hcode (eq_of_parsedResponse (Except.ok.inj hreturned)).symm
    · cases hreturned

/-- **Which replies are classified**: those with a space behind the code, or
the code 000 – unless they are to be returned, with a body that is JSON but
for a number out of range. -/
theorem classified_iff (parse : List Char → Except ParseFault Json) (r : HttpReply) :
    r.Classified parse ↔ (r.reason.isSome ∨ r.statusCode = 0)
      ∧ (400 ≤ r.statusCode ∨ parse r.body ≠ .error .outOfRange) := by
  by_cases h : r.reason.isSome ∨ r.statusCode = 0
  · rw [classified_of_read h, and_iff_right h]
  · rw [not_or] at h
    exact iff_of_false (not_classified_of_not_read h.1 h.2) fun h' => h'.1.elim h.1 h.2

end Parse

/-! ## An error without a reason -/

/-- An error without a reason. -/
def notFound : HttpReply where
  version := "HTTP/1.1".toList
  code := "404".toList
  reason := none
  headers := []
  body := "{}".toList
  space_notMem := by decide
  version_line := .of_notMem (by decide)
  code_length := by decide
  code_digits := List.all_eq_true.mp (by decide)
  reason_line := nofun
  headers_line := nofun

/-- **An error that is none**: without a reason, and the space before it, it
is returned with status 0, whatever the parser. -/
theorem not_classified_notFound :
    notFound.text = "HTTP/1.1 404\r\n\r\n{}".toList
      ∧ parseJsonResponse (fun _ => .ok (.obj [])) notFound.text
        = .ok (parsedResponse (.obj []) "json" 0)
      ∧ ¬ notFound.Classified fun _ => .ok (.obj []) := by
  refine ⟨by decide +kernel, ?_,
    not_classified_of_not_read Bool.false_ne_true (by decide +kernel)⟩
  rw [parseJsonResponse_text]
  rfl

end HttpReply
