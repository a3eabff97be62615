import Eastwood.FilePaths
import Eastwood.HttpReply
import Eastwood.PercentEncoding
import Mathlib.Data.List.DropRight

/-!
# Requests

A request is text put together from a method, a path, header lines and a
body. The path is an endpoint, and where the endpoint is about a user, their
name behind it as it stands: there is an encoder in the sources, but nobody
calls it, and a name may have spaces in it.

So the request is the one meant exactly if every character of the name may
stand for itself in a segment of a path (`namesUser_iff`). The name does not
occur in the header lines; they are well-formed as long as the host that is
configured and the token that was received hold no control characters
(`isHeadersAndBody_afterGet`, `isHeadersAndBody_afterPost`).
-/

open PercentEncoding

/-! ## The text of a request -/

/-- **`std::getline`**, until no line is left. -/
def getlines : List Char → List (List Char)
  | [] => []
  | c :: s =>
    if c = '\n' then [] :: getlines s
    else
      match getlines s with
      | [] => [[c]]
      | line :: lines => (c :: line) :: lines

/-- What is taken off the end of a line. -/
def isLineEnd (c : Char) : Bool := c = '\n' || c = '\r'

namespace HTTPSClient

/-- **`HTTPSClient::formatHeaders`.** -/
def formatHeaders (headers : List Char) : List Char :=
  let lines := ((getlines headers).map (List.rdropWhile isLineEnd)).filter (· ≠ [])
  let formatted := lines.flatMap (· ++ crlf)
  let formatted :=
    if (find "Accept:".toList formatted).isNone then formatted ++ "Accept: */*\r\n".toList
    else formatted
  if (find "User-Agent:".toList formatted).isNone then
    formatted ++ "User-Agent: Eastwood/1.0\r\n".toList
  else formatted

/-- What **`HTTPSClient::get`** writes. -/
def get (host path headers : List Char) : List Char :=
  "GET ".toList ++ path ++ " HTTP/1.1\r\n".toList
    ++ "Host: ".toList ++ host ++ crlf
    ++ formatHeaders headers
    ++ "Connection: close\r\n\r\n".toList

/-- What **`HTTPSClient::post`** writes. -/
def post (host path headers body : List Char) : List Char :=
  "POST ".toList ++ path ++ " HTTP/1.1\r\n".toList
    ++ "Host: ".toList ++ host ++ crlf
    ++ formatHeaders headers
    ++ "Content-Type: application/json\r\n".toList
    ++ "Content-Length: ".toList ++ (toString body.length).toList ++ crlf
    ++ "Connection: close\r\n\r\n".toList
    ++ body

end HTTPSClient

/-- **`generate_post_headers`**, in the order of the names. -/
def generatePostHeaders (pkDevice signature : List UInt8) (sessionToken : List Char) :
    List Char :=
  [("device_public", (bin2hex pkDevice).toList), ("session_token", sessionToken),
    ("signature", (bin2hex signature).toList)].flatMap fun (key, value) =>
      key.toList ++ ": ".toList ++ value ++ ['\n']

/-- The request of **`get_user_exists`**. -/
def getUserExistsRequest (host : List Char) (username : String) : List Char :=
  HTTPSClient.get host ("/isUserRegistered/".toList ++ username.toList) []

/-- The request of **`get_keybundles`**: the body is the JSON text of the
devices known and a nonce, under the signature. -/
def getKeybundlesRequest (host sessionToken : List Char) (pkDevice signature : List UInt8)
    (body : List Char) (username : String) : List Char :=
  HTTPSClient.post host ("/keybundle/".toList ++ username.toList)
    (generatePostHeaders pkDevice signature sessionToken) body

/-! ## Well-formed requests -/

/-- The characters of a token. -/
def isTokenChar (c : Char) : Bool := c.isAlphanum || "!#$%&'*+-.^_`|~".toList.contains c

/-- The characters of a field's value. -/
def isFieldChar (c : Char) : Bool := c = '\t' || 32 ≤ c.toNat && c.toNat ≠ 127

/-- A token, checked character by character. -/
theorem isToken_of_all {s : List Char} (h : s ≠ [] ∧ s.all isTokenChar) :
    s ≠ [] ∧ ∀ c ∈ s, isTokenChar c := ⟨h.1, List.all_eq_true.mp h.2⟩

/-- **A header line**: a name and a value, blanks included. -/
structure HeaderLine where
  name : List Char
  value : List Char
  name_ne : name ≠ []
  name_token : ∀ c ∈ name, isTokenChar c
  value_text : ∀ c ∈ value, isFieldChar c

namespace HeaderLine

def text (h : HeaderLine) : List Char := h.name ++ ':' :: h.value

/-- Names are the same in capitals. -/
def isNamed (name : String) (h : HeaderLine) : Bool := h.name.map Char.toLower = name.toList

/-- The value without the blanks around it. -/
def stripped (h : HeaderLine) : List Char :=
  (h.value.dropWhile fun c => c = ' ' || c = '\t').rdropWhile fun c => c = ' ' || c = '\t'

/-- Header lines as they are sent. -/
def lines (headers : List HeaderLine) : List Char := headers.flatMap fun h => h.text ++ crlf

end HeaderLine

/-- **What follows a request line**: header lines, a blank line and a body.
One host is named, and the body is as long as is said, or else empty. -/
structure HeadersAndBody where
  headers : List HeaderLine
  body : List Char
  one_host : (headers.filter (HeaderLine.isNamed "host")).length = 1
  not_chunked : ∀ h ∈ headers, ¬ h.isNamed "transfer-encoding"
  framed : (headers.filter (HeaderLine.isNamed "content-length")).map HeaderLine.stripped
    = [(toString body.length).toList]
    ∨ headers.filter (HeaderLine.isNamed "content-length") = [] ∧ body = []

def HeadersAndBody.text (r : HeadersAndBody) : List Char :=
  HeaderLine.lines r.headers ++ (crlf ++ r.body)

/-- **A well-formed request**: a method, segments of a path, perhaps a query,
and what follows the request line. -/
structure HttpRequest extends HeadersAndBody where
  method : List Char
  segments : List (List Char)
  query : Option (List Char)
  method_ne : method ≠ []
  method_token : ∀ c ∈ method, isTokenChar c
  segments_ne : segments ≠ []
  segments_decode : ∀ s ∈ segments, (decode isSegmentChar s).isSome
  query_decode : ∀ q ∈ query, (decode isQueryChar q).isSome

namespace HttpRequest

/-- What the request is sent to. -/
def target (r : HttpRequest) : List Char :=
  path r.segments ++
    match r.query with
    | some query => '?' :: query
    | none => []

def requestLine (r : HttpRequest) : List Char :=
  r.method ++ ' ' :: (r.target ++ ' ' :: "HTTP/1.1".toList)

/-- **The request as it is sent.** -/
def text (r : HttpRequest) : List Char := r.requestLine ++ (crlf ++ r.toHeadersAndBody.text)

end HttpRequest

/-- **A text is a request about a user**: a well-formed request, with three
parts in its first line, whose path ends in a segment that stands for the
name. -/
def NamesUser (request : List Char) (username : String) : Prop :=
  ∃ r : HttpRequest, request = r.text ∧ (r.requestLine.splitOn ' ').length = 3
    ∧ ∃ s, r.segments.getLast? = some s ∧ decode isSegmentChar s = some username.toList

/-- A text may follow a request line. -/
def IsHeadersAndBody (text : List Char) : Prop := ∃ r : HeadersAndBody, text = r.text

/-! ## What is in a request line -/

namespace HttpRequest

variable {r : HttpRequest}

/-- What may not even be in a query is not in a target. -/
theorem notMem_target {c : Char} (hplain : ¬ isQueryChar c) (hpercent : c ≠ '%')
    (hdigit : hexValue c = none) : c ∉ r.target := by
  unfold isQueryChar at hplain
  simp only [Bool.or_eq_true, decide_eq_true_eq, not_or] at hplain
  obtain ⟨⟨hsegment, hslash⟩, hmark⟩ := hplain
  have hpath : c ∉ path r.segments := by
    intro hc
    obtain ⟨s, hs, hc⟩ := List.mem_flatMap.mp hc
    obtain ⟨t, ht⟩ := Option.isSome_iff_exists.mp (r.segments_decode s hs)
    exact (List.mem_cons.mp hc).elim hslash (notMem_of_decode ht hsegment hpercent hdigit)
  unfold target
  rw [List.mem_append, not_or]
  refine ⟨hpath, ?_⟩
  cases hquery : r.query with
  | none => exact List.not_mem_nil
  | some query =>
    obtain ⟨t, ht⟩ := Option.isSome_iff_exists.mp (r.query_decode query hquery)
    refine List.not_mem_cons_of_ne_of_not_mem hmark
      (notMem_of_decode ht ?_ hpercent hdigit)
    unfold isQueryChar
    simp only [Bool.or_eq_true, decide_eq_true_eq, not_or]
    exact ⟨⟨hsegment, hslash⟩, hmark⟩

theorem notMem_method {c : Char} (h : ¬ isTokenChar c) : c ∉ r.method := fun hc =>
  h (r.method_token c hc)

/-- **The request line has three parts.** -/
theorem splitOn_requestLine :
    r.requestLine.splitOn ' ' = [r.method, r.target, "HTTP/1.1".toList] := by
  rw [requestLine, List.splitOn_append_cons_self_of_not_mem (notMem_method (by decide)),
    List.splitOn_append_cons_self_of_not_mem
      (notMem_target (by decide) (by decide) (by decide)),
    List.splitOn_eq_singleton (by decide)]

/-- No line ends in it. -/
theorem notMem_requestLine : '\r' ∉ r.requestLine := by
  simp only [requestLine, List.mem_append, List.mem_cons, not_or]
  exact ⟨notMem_method (by decide), by decide,
    notMem_target (by decide) (by decide) (by decide), by decide, by decide⟩

end HttpRequest

/-! ## Requests about a user -/

section Request

variable {method endpoint u rest : List Char}

/-- A request with a text behind its endpoint. -/
def requestWith (method endpoint u rest : List Char) : List Char :=
  method ++ ' ' :: ('/' :: (endpoint ++ '/' :: u) ++ ' ' :: "HTTP/1.1".toList)
    ++ (crlf ++ rest)

/-- The request, if the text is a segment. -/
def HttpRequest.with (hmethod : method ≠ [] ∧ ∀ c ∈ method, isTokenChar c)
    (hendpoint : ∀ c ∈ endpoint, isSegmentChar c) (hu : (decode isSegmentChar u).isSome)
    (after : HeadersAndBody) : HttpRequest where
  toHeadersAndBody := after
  method
  segments := [endpoint, u]
  query := none
  method_ne := hmethod.1
  method_token := hmethod.2
  segments_ne := List.cons_ne_nil _ _
  segments_decode := by
    simp [decode_of_plain hendpoint, hu]
  query_decode := nofun

theorem HttpRequest.text_with (hmethod : method ≠ [] ∧ ∀ c ∈ method, isTokenChar c)
    (hendpoint : ∀ c ∈ endpoint, isSegmentChar c) (hu : (decode isSegmentChar u).isSome)
    (after : HeadersAndBody) :
    (HttpRequest.with hmethod hendpoint hu after).text
      = requestWith method endpoint u after.text := by
  simp [text, requestLine, target, HttpRequest.with, path, requestWith]

/-- It names whom the segment stands for. -/
theorem namesUser_requestWith {username : String}
    (hmethod : method ≠ [] ∧ ∀ c ∈ method, isTokenChar c)
    (hendpoint : ∀ c ∈ endpoint, isSegmentChar c)
    (hu : decode isSegmentChar u = some username.toList) (hrest : IsHeadersAndBody rest) :
    NamesUser (requestWith method endpoint u rest) username := by
  obtain ⟨after, rfl⟩ := hrest
  have hsome : (decode isSegmentChar u).isSome := by rw [hu]; rfl
  refine ⟨.with hmethod hendpoint hsome after, (HttpRequest.text_with ..).symm, ?_, u, rfl, hu⟩
  rw [HttpRequest.splitOn_requestLine]
  rfl

/-- **Which texts may be put behind an endpoint**: those whose characters may
all stand for themselves. -/
theorem namesUser_requestWith_iff {username : String}
    (hmethod : method ≠ [] ∧ ∀ c ∈ method, isTokenChar c)
    (hendpoint : ∀ c ∈ endpoint, isSegmentChar c) (hline : '\r' ∉ username.toList) :
    NamesUser (requestWith method endpoint username.toList rest) username
      ↔ (∀ c ∈ username.toList, isSegmentChar c) ∧ IsHeadersAndBody rest := by
  constructor
  · rintro ⟨r, htext, -, s, hlast, hs⟩
    have hend : ∀ {c : Char}, ¬ isSegmentChar c → c ∉ endpoint := fun h hc => h (hendpoint _ hc)
    have hspace : ∀ {c : Char}, ¬ isTokenChar c → c ∉ method := fun h hc => h (hmethod.2 _ hc)
    -- The request lines are the same, and what follows them.
    have hnotMem : '\r' ∉ method ++ ' ' :: ('/' :: (endpoint ++ '/' :: username.toList)
        ++ ' ' :: "HTTP/1.1".toList) := by
      simp only [List.mem_append, List.mem_cons, not_or, List.cons_append]
      exact ⟨hspace (by decide), by decide, by decide, ⟨hend (by decide), by decide, hline⟩,
        by decide, by decide⟩
    obtain ⟨hlines, hrest⟩ := append_cons_inj hnotMem HttpRequest.notMem_requestLine htext
    obtain ⟨-, htarget⟩ := append_cons_inj (hspace (by decide))
      (HttpRequest.notMem_method (by decide)) hlines
    have htarget := List.append_cancel_right htarget
    refine ⟨?_, r.toHeadersAndBody, (List.cons.inj hrest).2⟩
    obtain ⟨segments, hsegments⟩ := List.getLast?_eq_some_iff.mp hlast
    have hslash : ∀ t ∈ segments ++ [s], '/' ∉ t := by
      intro t ht
      obtain ⟨v, hv⟩ := Option.isSome_iff_exists.mp (r.segments_decode t (hsegments ▸ ht))
      exact notMem_of_decode hv (by decide) (by decide) (by decide)
    rw [HttpRequest.target, hsegments] at htarget
    obtain ⟨rfl, -⟩ := eq_of_path_append (hend (by decide)) (hend (by decide)) hslash
      (by cases r.query <;> simp) htarget.symm (length_le_of_decode hs)
    exact decode_eq_self_iff.mp hs
  · rintro ⟨hplain, hrest⟩
    exact namesUser_requestWith hmethod hendpoint (decode_of_plain hplain) hrest

end Request

/-! ## Header lines -/

theorem getlines_append_cons {line : List Char} (h : '\n' ∉ line) (s : List Char) :
    getlines (line ++ '\n' :: s) = line :: getlines s := by
  induction line with
  | nil => rw [List.nil_append, getlines, if_pos rfl]
  | cons c line ih =>
    rw [List.cons_append, getlines, if_neg (List.ne_of_not_mem_cons h).symm,
      ih (List.not_mem_of_not_mem_cons h)]

/-- Lines are found again, -/
theorem getlines_flatMap {lines : List (List Char)} (h : ∀ line ∈ lines, '\n' ∉ line) :
    getlines (lines.flatMap (· ++ ['\n'])) = lines := by
  induction lines with
  | nil => rfl
  | cons line lines ih =>
    obtain ⟨hline, hlines⟩ := List.forall_mem_cons.mp h
    rw [List.flatMap_cons, List.append_assoc, List.singleton_append,
      getlines_append_cons hline, ih hlines]

namespace HeaderLine

/-- A name and a value with a blank between. -/
def of (name : String) (value : List Char)
    (hname : name.toList ≠ [] ∧ ∀ c ∈ name.toList, isTokenChar c)
    (hvalue : ∀ c ∈ value, isFieldChar c) : HeaderLine where
  name := name.toList
  value := ' ' :: value
  name_ne := hname.1
  name_token := hname.2
  value_text := List.forall_mem_cons.mpr ⟨by decide, hvalue⟩

theorem lines_nil : lines [] = [] := rfl

theorem lines_cons (h : HeaderLine) (headers : List HeaderLine) :
    lines (h :: headers) = h.text ++ (crlf ++ lines headers) := by
  rw [lines, List.flatMap_cons, List.append_assoc]
  rfl

theorem lines_append (headers headers' : List HeaderLine) :
    lines (headers ++ headers') = lines headers ++ lines headers' := List.flatMap_append

theorem text_of {name : String} {value : List Char}
    (hname : name.toList ≠ [] ∧ ∀ c ∈ name.toList, isTokenChar c)
    (hvalue : ∀ c ∈ value, isFieldChar c) :
    (of name value hname hvalue).text = name.toList ++ ':' :: ' ' :: value := rfl

/-- A value without blanks is what is left between them. -/
theorem stripped_of {name : String} {value : List Char}
    (hname : name.toList ≠ [] ∧ ∀ c ∈ name.toList, isTokenChar c)
    (hvalue : ∀ c ∈ value, isFieldChar c) (hblank : ∀ c ∈ value, c ≠ ' ' ∧ c ≠ '\t') :
    (of name value hname hvalue).stripped = value := by
  have hkept : ∀ c ∈ value, ¬ (decide (c = ' ') || decide (c = '\t')) = true := fun c hc => by
    simp [hblank c hc]
  have hdrop : value.dropWhile (fun c => c = ' ' || c = '\t') = value := by
    cases value with
    | nil => rfl
    | cons c value => exact List.dropWhile_cons_of_neg (hkept c List.mem_cons_self)
  unfold stripped of
  rw [List.dropWhile_cons_of_pos (by decide), hdrop]
  exact List.rdropWhile_eq_self_iff.mpr fun hne => hkept _ (List.getLast_mem hne)

def accept : HeaderLine :=
  of "Accept" "*/*".toList (isToken_of_all (by decide)) (List.all_eq_true.mp (by decide))

def userAgent : HeaderLine :=
  of "User-Agent" "Eastwood/1.0".toList (isToken_of_all (by decide))
    (List.all_eq_true.mp (by decide))

/-- What may be put behind the lines given. -/
def mayBeMissing : List (List HeaderLine) :=
  [[], [accept], [userAgent], [accept, userAgent]]

/-- Nothing of it is found under another name. -/
theorem filter_isNamed_append {missing : List HeaderLine} (h : missing ∈ mayBeMissing)
    (before after : List HeaderLine) {n : String} (haccept : "accept".toList ≠ n.toList)
    (hagent : "user-agent".toList ≠ n.toList) :
    (before ++ (missing ++ after)).filter (isNamed n)
      = before.filter (isNamed n) ++ after.filter (isNamed n) := by
  have haccept' : ¬ accept.isNamed n := fun h => haccept (of_decide_eq_true h)
  have hagent' : ¬ userAgent.isNamed n := fun h => hagent (of_decide_eq_true h)
  have hnone : missing.filter (isNamed n) = [] := by
    simp only [mayBeMissing, List.mem_cons, List.not_mem_nil, or_false] at h
    obtain rfl | rfl | rfl | rfl := h <;> simp [haccept', hagent']
  rw [List.filter_append, List.filter_append, hnone, List.nil_append]

variable {h : HeaderLine}

/-- No line ends in a header line. -/
theorem notMem_text {c : Char} (htoken : ¬ isTokenChar c) (hcolon : c ≠ ':')
    (hfield : ¬ isFieldChar c) : c ∉ h.text := by
  unfold text
  rw [List.mem_append, not_or]
  exact ⟨fun hc => htoken (h.name_token c hc),
    List.not_mem_cons_of_ne_of_not_mem hcolon fun hc => hfield (h.value_text c hc)⟩

theorem text_ne_nil : h.text ≠ [] := List.append_ne_nil_of_left_ne_nil h.name_ne _

theorem rdropWhile_text : h.text.rdropWhile isLineEnd = h.text := by
  refine List.rdropWhile_eq_self_iff.mpr fun hne hend => ?_
  have hlast := List.getLast_mem hne
  simp only [isLineEnd, Bool.or_eq_true, decide_eq_true_eq] at hend
  obtain hend | hend := hend <;> rw [hend] at hlast
  · exact notMem_text (by decide) (by decide) (by decide) hlast
  · exact notMem_text (by decide) (by decide) (by decide) hlast

end HeaderLine

/-- and header lines are kept, with what is missing behind them. -/
theorem formatHeaders_flatMap (headers : List HeaderLine) :
    ∃ missing ∈ HeaderLine.mayBeMissing,
      HTTPSClient.formatHeaders (headers.flatMap fun h => h.text ++ ['\n'])
        = HeaderLine.lines (headers ++ missing) := by
  have hlines : getlines (headers.flatMap fun h => h.text ++ ['\n'])
      = headers.map HeaderLine.text := by
    have hline : ∀ line ∈ headers.map HeaderLine.text, '\n' ∉ line := by
      intro line hline
      obtain ⟨h, -, rfl⟩ := List.mem_map.mp hline
      exact HeaderLine.notMem_text (by decide) (by decide) (by decide)
    have hfound := getlines_flatMap hline
    rwa [List.flatMap_map] at hfound
  have hkept : ((headers.map HeaderLine.text).map (List.rdropWhile isLineEnd)).filter (· ≠ [])
      = headers.map HeaderLine.text := by
    rw [List.map_map, List.filter_eq_self.mpr]
    · exact List.map_congr_left fun h _ => HeaderLine.rdropWhile_text
    · intro line hline
      obtain ⟨h, -, rfl⟩ := List.mem_map.mp hline
      exact decide_eq_true (HeaderLine.rdropWhile_text.trans_ne HeaderLine.text_ne_nil)
  have haccept : "Accept: */*\r\n".toList = HeaderLine.accept.text ++ crlf := by decide
  have hagent : "User-Agent: Eastwood/1.0\r\n".toList = HeaderLine.userAgent.text ++ crlf := by
    decide
  unfold HTTPSClient.formatHeaders HeaderLine.lines
  simp only [hlines, hkept, haccept, hagent, List.flatMap_map]
  split <;> split
  · exact ⟨[.accept, .userAgent], by simp [HeaderLine.mayBeMissing], by simp⟩
  · exact ⟨[.accept], by simp [HeaderLine.mayBeMissing], by simp⟩
  · exact ⟨[.userAgent], by simp [HeaderLine.mayBeMissing], by simp⟩
  · exact ⟨[], by simp [HeaderLine.mayBeMissing], by simp⟩

/-! ## What follows a request line -/

/-- What follows the request line of a `get`, -/
def afterGet (host headers : List Char) : List Char :=
  "Host: ".toList ++ host ++ crlf ++ HTTPSClient.formatHeaders headers
    ++ "Connection: close\r\n\r\n".toList

/-- and of a `post`. -/
def afterPost (host headers body : List Char) : List Char :=
  "Host: ".toList ++ host ++ crlf ++ HTTPSClient.formatHeaders headers
    ++ "Content-Type: application/json\r\n".toList
    ++ "Content-Length: ".toList ++ (toString body.length).toList ++ crlf
    ++ "Connection: close\r\n\r\n".toList ++ body

theorem getUserExistsRequest_eq (host : List Char) (username : String) :
    getUserExistsRequest host username
      = requestWith "GET".toList "isUserRegistered".toList username.toList (afterGet host []) := by
  have hmethod : "GET ".toList = "GET".toList ++ [' '] := by decide
  have hpath : "/isUserRegistered/".toList = '/' :: ("isUserRegistered".toList ++ ['/']) := by
    decide
  have hversion : " HTTP/1.1\r\n".toList = ' ' :: ("HTTP/1.1".toList ++ crlf) := by decide
  unfold getUserExistsRequest HTTPSClient.get requestWith afterGet
  rw [hmethod, hpath, hversion]
  simp only [List.append_assoc, List.cons_append, List.nil_append]

theorem getKeybundlesRequest_eq (host sessionToken : List Char) (pkDevice signature : List UInt8)
    (body : List Char) (username : String) :
    getKeybundlesRequest host sessionToken pkDevice signature body username
      = requestWith "POST".toList "keybundle".toList username.toList
        (afterPost host (generatePostHeaders pkDevice signature sessionToken) body) := by
  have hmethod : "POST ".toList = "POST".toList ++ [' '] := by decide
  have hpath : "/keybundle/".toList = '/' :: ("keybundle".toList ++ ['/']) := by decide
  have hversion : " HTTP/1.1\r\n".toList = ' ' :: ("HTTP/1.1".toList ++ crlf) := by decide
  unfold getKeybundlesRequest HTTPSClient.post requestWith afterPost
  rw [hmethod, hpath, hversion]
  simp only [List.append_assoc, List.cons_append, List.nil_append]

section Headers

variable {host sessionToken : List Char}

theorem isFieldChar_bin2hex (bin : List UInt8) : ∀ c ∈ (bin2hex bin).toList, isFieldChar c := by
  have hdigit : ∀ n < 16, isFieldChar (Nat.digitChar n) := by decide
  intro c hc
  rw [bin2hex, String.toList_ofList] at hc
  obtain ⟨b, -, hc⟩ := List.mem_flatMap.mp hc
  have hlt : b.toNat < 256 := b.toNat_lt
  obtain rfl | hc := List.mem_cons.mp hc
  · exact hdigit _ (by omega)
  · rw [List.mem_singleton.mp hc]
    exact hdigit _ (Nat.mod_lt _ (by decide))

theorem isDigit_toString (n : ℕ) : ∀ c ∈ (toString n).toList, c.isDigit := by
  intro c hc
  have hdigits : (toString n).toList = Nat.toDigits 10 n := by
    simp [toString, Nat.repr]
  rw [hdigits] at hc
  exact Nat.isDigit_of_mem_toDigits (by decide) (by decide) hc

theorem isFieldChar_of_isDigit {c : Char} (h : c.isDigit) : isFieldChar c := by
  have hrange : 48 ≤ c.toNat ∧ c.toNat ≤ 57 := by
    simp only [Char.isDigit, Bool.and_eq_true, decide_eq_true_eq] at h
    exact h
  simp only [isFieldChar, Bool.or_eq_true, Bool.and_eq_true, decide_eq_true_eq]
  omega

/-- The line before those given, and the one behind them. -/
def hostLine (hhost : ∀ c ∈ host, isFieldChar c) : HeaderLine :=
  .of "Host" host (isToken_of_all (by decide)) hhost

def closeLine : HeaderLine :=
  .of "Connection" "close".toList (isToken_of_all (by decide)) (List.all_eq_true.mp (by decide))

/-- **The header lines of a `get`** are well-formed for a host without
control characters, -/
theorem isHeadersAndBody_afterGet (hhost : ∀ c ∈ host, isFieldChar c) :
    IsHeadersAndBody (afterGet host []) := by
  obtain ⟨missing, hmissing, hformat⟩ := formatHeaders_flatMap []
  have hformat : HTTPSClient.formatHeaders [] = HeaderLine.lines missing := hformat
  have htext : afterGet host []
      = HeaderLine.lines ([hostLine hhost] ++ (missing ++ [closeLine])) ++ (crlf ++ []) := by
    have hname : "Host: ".toList = "Host".toList ++ [':', ' '] := by decide
    have hclose : "Connection: close\r\n\r\n".toList = closeLine.text ++ (crlf ++ crlf) := by
      decide
    have hhostLine : (hostLine hhost).text = "Host".toList ++ ':' :: ' ' :: host := rfl
    simp only [HeaderLine.lines_append, HeaderLine.lines_cons, HeaderLine.lines_nil, hhostLine]
    unfold afterGet
    rw [hformat, hname, hclose]
    simp only [List.append_assoc, List.cons_append, List.nil_append, List.append_nil]
  have hfilter {n : String} := HeaderLine.filter_isNamed_append (n := n) hmissing
    [hostLine hhost] [closeLine]
  refine ⟨⟨_, [], ?_, ?_, Or.inr ⟨?_, rfl⟩⟩, htext⟩
  · rw [hfilter (by decide) (by decide)]
    rfl
  · refine List.filter_eq_nil_iff.mp ?_
    rw [hfilter (by decide) (by decide)]
    rfl
  · rw [hfilter (by decide) (by decide)]
    rfl

/-- The lines given with a `post`. -/
def givenLines (htoken : ∀ c ∈ sessionToken, isFieldChar c) (pkDevice signature : List UInt8) :
    List HeaderLine :=
  [.of "device_public" (bin2hex pkDevice).toList (isToken_of_all (by decide))
      (isFieldChar_bin2hex _),
    .of "session_token" sessionToken (isToken_of_all (by decide)) htoken,
    .of "signature" (bin2hex signature).toList (isToken_of_all (by decide)) (isFieldChar_bin2hex _)]

theorem generatePostHeaders_eq (htoken : ∀ c ∈ sessionToken, isFieldChar c)
    (pkDevice signature : List UInt8) : generatePostHeaders pkDevice signature sessionToken
      = (givenLines htoken pkDevice signature).flatMap fun h => h.text ++ ['\n'] := by
  have hline : ∀ key value : List Char,
      key ++ ": ".toList ++ value ++ ['\n'] = (key ++ ':' :: ' ' :: value) ++ ['\n'] := by
    intro key value
    have hblank : ": ".toList = [':', ' '] := by decide
    rw [hblank, List.append_assoc key]
    rfl
  unfold generatePostHeaders givenLines
  rw [List.flatMap_cons, List.flatMap_cons, List.flatMap_cons, List.flatMap_cons,
    List.flatMap_cons, List.flatMap_cons, HeaderLine.text_of, HeaderLine.text_of,
    HeaderLine.text_of]
  dsimp only
  rw [hline, hline, hline, List.flatMap_nil, List.flatMap_nil]

/-- **and those of a `post`** if the token has none either. -/
theorem isHeadersAndBody_afterPost (hhost : ∀ c ∈ host, isFieldChar c)
    (htoken : ∀ c ∈ sessionToken, isFieldChar c) (pkDevice signature : List UInt8)
    (body : List Char) :
    IsHeadersAndBody
      (afterPost host (generatePostHeaders pkDevice signature sessionToken) body) := by
  have hdigits := isDigit_toString body.length
  let typeLine : HeaderLine := .of "Content-Type" "application/json".toList
    (isToken_of_all (by decide)) (List.all_eq_true.mp (by decide))
  let lengthLine : HeaderLine := .of "Content-Length" (toString body.length).toList
    (isToken_of_all (by decide)) fun c hc => isFieldChar_of_isDigit (hdigits c hc)
  obtain ⟨missing, hmissing, hformat⟩ :=
    formatHeaders_flatMap (givenLines htoken pkDevice signature)
  rw [← generatePostHeaders_eq, HeaderLine.lines_append] at hformat
  have htext : afterPost host (generatePostHeaders pkDevice signature sessionToken) body
      = HeaderLine.lines ((hostLine hhost :: givenLines htoken pkDevice signature)
          ++ (missing ++ [typeLine, lengthLine, closeLine])) ++ (crlf ++ body) := by
    have hname : "Host: ".toList = "Host".toList ++ [':', ' '] := by decide
    have htype : "Content-Type: application/json\r\n".toList = typeLine.text ++ crlf := by decide
    have hlength : "Content-Length: ".toList = "Content-Length".toList ++ [':', ' '] := by decide
    have hclose : "Connection: close\r\n\r\n".toList = closeLine.text ++ (crlf ++ crlf) := by
      decide
    have hhostLine : (hostLine hhost).text = "Host".toList ++ ':' :: ' ' :: host := rfl
    have hlengthLine : lengthLine.text
        = "Content-Length".toList ++ ':' :: ' ' :: (toString body.length).toList := rfl
    simp only [HeaderLine.lines_append, HeaderLine.lines_cons, HeaderLine.lines_nil, hhostLine,
      hlengthLine, List.cons_append]
    unfold afterPost
    rw [hformat, hname, htype, hlength, hclose]
    simp only [List.append_assoc, List.cons_append, List.nil_append, List.append_nil]
  have hfilter {n : String} := HeaderLine.filter_isNamed_append (n := n) hmissing
    (hostLine hhost :: givenLines htoken pkDevice signature) [typeLine, lengthLine, closeLine]
  have hstripped : lengthLine.stripped = (toString body.length).toList := by
    refine HeaderLine.stripped_of _ _ fun c hc => ⟨?_, ?_⟩
    all_goals
      rintro rfl
      exact absurd (hdigits _ hc) (by decide)
  refine ⟨⟨_, body, ?_, ?_, Or.inl ?_⟩, htext⟩
  · rw [hfilter (by decide) (by decide)]
    rfl
  · refine List.filter_eq_nil_iff.mp ?_
    rw [hfilter (by decide) (by decide)]
    rfl
  · rw [hfilter (by decide) (by decide)]
    exact congrArg (fun l => [l]) hstripped

end Headers

/-! ## The main result -/

/-- A username holds no end of a line. -/
theorem IsUsername.notMem_carriageReturn {username : String} (h : IsUsername username) :
    '\r' ∉ username.toList := fun hc => absurd (h.printable _ hc).1 (by decide)

/-- **When a request names its user**: exactly if the characters of the name
may all stand for themselves in a path. There are no control characters in
the host and in the token. -/
theorem namesUser_iff {username : String} (hu : IsUsername username)
    {host sessionToken : List Char} (hhost : ∀ c ∈ host, isFieldChar c)
    (htoken : ∀ c ∈ sessionToken, isFieldChar c) (pkDevice signature : List UInt8)
    (body : List Char) :
    NamesUser (getUserExistsRequest host username) username
        ∧ NamesUser (getKeybundlesRequest host sessionToken pkDevice signature body username)
          username
      ↔ ∀ c ∈ username.toList, isSegmentChar c := by
  have hget := isHeadersAndBody_afterGet hhost
  have hpost := isHeadersAndBody_afterPost hhost htoken pkDevice signature body
  rw [getUserExistsRequest_eq, getKeybundlesRequest_eq,
    namesUser_requestWith_iff (isToken_of_all (by decide)) (List.all_eq_true.mp (by decide))
      hu.notMem_carriageReturn,
    namesUser_requestWith_iff (isToken_of_all (by decide)) (List.all_eq_true.mp (by decide))
      hu.notMem_carriageReturn,
    and_iff_left hget, and_iff_left hpost, and_self_iff]

/-- Alice is named. -/
theorem namesUser_iff_alice :
    NamesUser (getUserExistsRequest "api.example".toList "alice") "alice"
      ∧ NamesUser (getKeybundlesRequest "api.example".toList "0f3a".toList [1, 2] [3]
        "\x7b\x7d".toList "alice") "alice" :=
  (namesUser_iff (by decide) (List.all_eq_true.mp (by decide)) (List.all_eq_true.mp (by decide))
    ..).mpr (List.all_eq_true.mp (by decide))

/-- **A name with a space in it** is accepted, and makes four parts of the
request line; one with a percent sign makes another's name of the path. -/
theorem not_namesUser_space :
    IsUsername "bob smith" ∧ IsUsername "%62ob"
      ∧ ((getUserExistsRequest "api.example".toList "bob smith").takeWhile (· ≠ '\r')).splitOn ' '
        = ["GET".toList, "/isUserRegistered/bob".toList, "smith".toList, "HTTP/1.1".toList]
      ∧ (∀ host, ¬ NamesUser (getUserExistsRequest host "bob smith") "bob smith")
      ∧ NamesUser (getUserExistsRequest "api.example".toList "%62ob") "bob" := by
  have hplain : ¬ ∀ c ∈ "bob smith".toList, isSegmentChar c := fun h =>
    absurd (List.all_eq_true.mpr h) (by decide)
  refine ⟨by decide, by decide, by decide +kernel, fun host h => ?_, ?_⟩
  · rw [getUserExistsRequest_eq,
      namesUser_requestWith_iff (isToken_of_all (by decide)) (List.all_eq_true.mp (by decide))
        (by decide)] at h
    exact hplain h.1
  · rw [getUserExistsRequest_eq]
    exact namesUser_requestWith (isToken_of_all (by decide)) (List.all_eq_true.mp (by decide))
      (by decide) (isHeadersAndBody_afterGet (List.all_eq_true.mp (by decide)))
