import Eastwood.Hex
import Eastwood.Json

/-!
# Responses

A response is text until it is parsed. `handle_response` takes it apart: a
first line with the status in it, a body behind the first blank line, and in
the body perhaps JSON – a body that is none is kept as text. Whatever goes
wrong is one exception, `HttpError`, with the body for its message.

It returns exactly for what has a line at all, with no status of an error in
it (`handleResponse_isOk_iff`). An empty reply and the short texts that stand
for a connection that was not made have no line.
-/

/-! ## Text -/

/-- **`std::string::find`**: what stands before the first occurrence, and what
stands behind it. -/
def find (pattern : List Char) : List Char → Option (List Char × List Char)
  | [] => if pattern = [] then some ([], []) else none
  | c :: s =>
    if pattern.isPrefixOf (c :: s) then some ([], (c :: s).drop pattern.length)
    else (find pattern s).map fun (before, after) => (c :: before, after)

/-- What is found is there, -/
theorem eq_of_find {pattern s before after : List Char}
    (h : find pattern s = some (before, after)) : s = before ++ pattern ++ after := by
  induction s generalizing before with
  | nil =>
    rw [find] at h
    split at h
    · rename_i hpattern
      obtain ⟨rfl, rfl⟩ := Prod.mk.inj (Option.some.inj h)
      rw [hpattern]
      rfl
    · cases h
  | cons c s ih =>
    rw [find] at h
    split at h
    · rename_i hprefix
      obtain ⟨rfl, rfl⟩ := Prod.mk.inj (Option.some.inj h)
      obtain ⟨t, ht⟩ := List.isPrefixOf_iff_prefix.mp hprefix
      rw [← ht, List.nil_append, List.drop_left]
    · obtain ⟨⟨before', after'⟩, hfind, heq⟩ := Option.map_eq_some_iff.mp h
      obtain ⟨rfl, rfl⟩ := Prod.mk.inj heq
      rw [List.cons_append, List.cons_append, ← ih hfind]

/-- and what is there is found, -/
theorem find_isSome {pattern s : List Char} : (find pattern s).isSome ↔ pattern <:+: s := by
  constructor
  · intro h
    obtain ⟨⟨before, after⟩, hfind⟩ := Option.isSome_iff_exists.mp h
    exact ⟨before, after, (eq_of_find hfind).symm⟩
  · intro h
    induction s with
    | nil =>
      rw [find, if_pos (List.infix_nil.mp h)]
      rfl
    | cons d s ih =>
      rw [find]
      split
      · rfl
      · rename_i hprefix
        rw [Option.isSome_map]
        refine ih ((List.infix_cons_iff.mp h).resolve_left fun hp => hprefix ?_)
        exact List.isPrefixOf_iff_prefix.mpr hp

/-- a single character too. -/
theorem find_singleton_isSome {c : Char} {s : List Char} : (find [c] s).isSome ↔ c ∈ s := by
  rw [find_isSome, List.singleton_infix_iff]

/-- `std::stoi`; `none` is `std::invalid_argument` or `std::out_of_range`. -/
def stoi (s : List Char) : Option ℤ :=
  let s := (s.takeWhile (· ≠ '\x00')).dropWhile isSpace
  let (negative, s) := splitSign s
  let digits := s.takeWhile Char.isDigit
  if digits = [] then none
  else
    let value : ℤ := digits.foldl (fun n d => 10 * n + (d.toNat - 48 : ℕ)) 0
    let value := if negative then -value else value
    if value < -2 ^ 31 ∨ 2 ^ 31 ≤ value then none else some value

/-! ## The parts of a response -/

/-- `extract_response_body`: all of it, if nothing separates a body. -/
def extractResponseBody (response : List Char) : List Char :=
  match find ['\r', '\n', '\r', '\n'] response with
  | some (_, body) => body
  | none =>
    match find ['\n', '\n'] response with
    | some (_, body) => body
    | none => response

/-- `parse_status_code`: what stands between the first two spaces. -/
def parseStatusCode (firstLine : List Char) : ℤ :=
  match find [' '] firstLine with
  | none => 0
  | some (_, rest) =>
    match find [' '] rest with
    | none => 0
    | some (code, _) => (stoi code).getD 0

/-- The first line, if there is an end of one. -/
def firstLine (response : List Char) : Option (List Char) :=
  ((find ['\r', '\n'] response).or (find ['\n'] response)).map Prod.fst

/-- A line ends with its last character. -/
theorem firstLine_isSome {response : List Char} :
    (firstLine response).isSome ↔ '\n' ∈ response := by
  rw [firstLine, Option.isSome_map, Option.isSome_or, Bool.or_eq_true, find_singleton_isSome]
  constructor
  · rintro (h | h)
    · obtain ⟨⟨before, after⟩, hfind⟩ := Option.isSome_iff_exists.mp h
      rw [eq_of_find hfind]
      simp
    · exact h
  · exact Or.inr

/-! ## Parsing -/

/-- `webwood::HttpError`. -/
structure HttpError where
  message : List Char
  statusCode : ℤ
  deriving DecidableEq

/-- How `json::parse` throws: on a text that is no JSON, or on a number it
cannot hold. -/
inductive ParseFault where
  | parseError
  | outOfRange
  deriving DecidableEq

/-- What `parse_json_response` throws. -/
inductive ResponseFault where
  | httpError (e : HttpError)
  | jsonError (e : ParseFault)
  deriving DecidableEq

section Parse

variable (parse : List Char → Except ParseFault Json)

/-- What is returned. -/
def parsedResponse (data : Json) (contentType : String) (statusCode : ℤ) : Json :=
  .obj [("data", data), ("content_type", .str contentType), ("status_code", .num statusCode)]

/-- **`parse_json_response`.** -/
def parseJsonResponse (response : List Char) : Except ResponseFault Json :=
  if response = [] then .error (.httpError ⟨"Empty response received".toList, 0⟩)
  else
    match firstLine response with
    | none => .error (.httpError ⟨"Invalid response format".toList, 0⟩)
    | some line =>
      let statusCode := parseStatusCode line
      if 400 ≤ statusCode then .error (.httpError ⟨extractResponseBody response, statusCode⟩)
      else
        let body := extractResponseBody response
        match parse body with
        | .ok bodyJson => .ok (parsedResponse bodyJson "json" statusCode)
        | .error .parseError =>
          .ok (parsedResponse (.str (String.ofList body)) "text" statusCode)
        | .error .outOfRange => .error (.jsonError .outOfRange)

/-- **`handle_response`**: the message of what it throws is the body, whatever
was thrown. -/
def handleResponse (response : List Char) : Except HttpError Json :=
  match parseJsonResponse parse response with
  | .ok j => .ok j
  | .error (.httpError e) => .error ⟨extractResponseBody response, e.statusCode⟩
  | .error (.jsonError _) => .error ⟨extractResponseBody response, 0⟩

/-- **A reply that is accepted**: it has a line, with no status of an error,
and no number in the body is too large. -/
structure Accepted (response : List Char) : Prop where
  line : '\n' ∈ response
  status : ∀ line, firstLine response = some line → parseStatusCode line < 400
  parses : parse (extractResponseBody response) ≠ .error .outOfRange

variable {parse} {response : List Char}

/-- Without a line nothing is parsed, -/
theorem parseJsonResponse_of_no_line (parse : List Char → Except ParseFault Json)
    (h : '\n' ∉ response) :
    ∃ message, parseJsonResponse parse response = .error (.httpError ⟨message, 0⟩) := by
  have hline : firstLine response = none := by
    rw [← Option.not_isSome_iff_eq_none, firstLine_isSome]
    exact h
  unfold parseJsonResponse
  rw [hline]
  split
  · exact ⟨_, rfl⟩
  · exact ⟨_, rfl⟩

/-- and with one it depends on the status and the body. -/
theorem parseJsonResponse_of_line {line : List Char} (h : firstLine response = some line) :
    (parseJsonResponse parse response).isOk ↔
      parseStatusCode line < 400 ∧ parse (extractResponseBody response) ≠ .error .outOfRange := by
  have hne : response ≠ [] := by
    rintro rfl
    cases h
  unfold parseJsonResponse
  rw [if_neg hne, h]
  simp only
  by_cases hstatus : 400 ≤ parseStatusCode line
  · rw [if_pos hstatus]
    exact iff_of_false Bool.false_ne_true fun haccepted => absurd haccepted.1 hstatus.not_gt
  · rw [if_neg hstatus, and_iff_right (not_le.mp hstatus)]
    cases parse (extractResponseBody response) with
    | ok bodyJson => exact iff_of_true rfl nofun
    | error e =>
      cases e with
      | parseError => exact iff_of_true rfl nofun
      | outOfRange => exact iff_of_false Bool.false_ne_true fun hparses => hparses rfl

theorem parseJsonResponse_isOk_iff :
    (parseJsonResponse parse response).isOk ↔ Accepted parse response := by
  cases hline : firstLine response with
  | none =>
    have hnone : '\n' ∉ response := by
      rw [← firstLine_isSome, hline]
      exact Bool.false_ne_true
    obtain ⟨message, hthrows⟩ := parseJsonResponse_of_no_line parse hnone
    rw [hthrows]
    exact iff_of_false Bool.false_ne_true fun haccepted => hnone haccepted.line
  | some line =>
    rw [parseJsonResponse_of_line hline]
    constructor
    · rintro ⟨hstatus, hparses⟩
      refine ⟨firstLine_isSome.mp (hline ▸ rfl), fun line' hline' => ?_, hparses⟩
      obtain rfl := Option.some.inj (hline.symm.trans hline')
      exact hstatus
    · exact fun haccepted => ⟨haccepted.status line hline, haccepted.parses⟩

/-- **`handle_response` returns exactly for what is accepted.** -/
theorem handleResponse_isOk_iff :
    (handleResponse parse response).isOk ↔ Accepted parse response := by
  rw [← parseJsonResponse_isOk_iff, handleResponse]
  cases parseJsonResponse parse response with
  | ok j => exact Iff.rfl
  | error e => cases e <;> exact Iff.rfl

end Parse
