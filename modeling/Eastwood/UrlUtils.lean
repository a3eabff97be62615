import Eastwood.HttpRequest
import Eastwood.StrictHex

/-!
# Encoding for a URL

`URLEncode` writes every byte that is not unreserved as a percent sign and two
digits, and has a string stream do it: base, case and fill are set anew for
every byte and stay set, the width holds for one number. `URLDecode` reads the
digits with `std::stoi`, which would read more than they are, takes a plus for
a space, and leaves a percent sign alone that has no two bytes behind it.

Nothing of this meets what `URLEncode` writes. A stream that no width is
pending on writes `encodeByte` and has none pending afterwards
(`urlEncodeChar_spec`), so the encoded text is made of unreserved bytes and
triples, and the decoder goes through it in their steps
(`urlDecode_encodeByte`).

Nobody calls the two. Behind an endpoint an encoded name would be the name
(`namesUser_urlEncode`), whatever bytes it has.
-/

/-! ## Formatted output -/

/-- **A stream that is written to**, with the format that is set. -/
structure Ostream where
  text : List UInt8 := []
  /-- The least width of what is written next. -/
  width : ℕ := 0
  fill : UInt8 := ' '.toUInt8
  hex : Bool := false
  uppercase : Bool := false

namespace Ostream

/-- What is written is filled up on its left, and the width is used up. -/
def write (s : List UInt8) (o : Ostream) : Ostream :=
  { o with text := o.text ++ (List.replicate (o.width - s.length) o.fill ++ s), width := 0 }

/-- `<<` of a character. -/
def putChar (c : UInt8) : Ostream → Ostream := write [c]

/-- The digits of a number in the format set. -/
def digits (n : ℕ) (o : Ostream) : List UInt8 :=
  (Nat.toDigits (if o.hex then 16 else 10) n).map fun d =>
    (if o.uppercase then d.toUpper else d).toUInt8

/-- `<<` of an `int` that is not negative. -/
def putNat (n : ℕ) (o : Ostream) : Ostream := o.write (o.digits n)

/-- `std::hex`. -/
def setHex (o : Ostream) : Ostream := { o with hex := true }

/-- `std::uppercase`. -/
def setUppercase (o : Ostream) : Ostream := { o with uppercase := true }

/-- `std::setw`. -/
def setw (n : ℕ) (o : Ostream) : Ostream := { o with width := n }

/-- `std::setfill`. -/
def setfill (c : UInt8) (o : Ostream) : Ostream := { o with fill := c }

end Ostream

/-! ## The two functions -/

/-- `isalnum` in the C locale. -/
def isalnum (x : UInt8) : Bool :=
  '0'.toUInt8 ≤ x && x ≤ '9'.toUInt8 || 'A'.toUInt8 ≤ x && x ≤ 'Z'.toUInt8
    || 'a'.toUInt8 ≤ x && x ≤ 'z'.toUInt8

/-- One round of the loop of `URLEncode`. -/
def urlEncodeChar (encoded : Ostream) (x : UInt8) : Ostream :=
  if isalnum x || x = '-'.toUInt8 || x = '_'.toUInt8 || x = '.'.toUInt8 || x = '~'.toUInt8 then
    encoded.putChar x
  else
    ((((((encoded.putChar '%'.toUInt8).setHex).setUppercase).setw 2).setfill '0'.toUInt8).setHex)
      |>.putNat x.toNat

/-- **`URLEncode`.** -/
def urlEncode (url : List UInt8) : List UInt8 := (url.foldl urlEncodeChar {}).text

/-- A byte as a character of a string that is read. -/
def byteChar (b : UInt8) : Char := Char.ofNat b.toNat

/-- **`URLDecode`**, from some byte on; `none` where `std::stoi` throws. -/
def urlDecode : List UInt8 → Option (List UInt8)
  | [] => some []
  | c :: url =>
    if c = '%'.toUInt8 ∧ 2 ≤ url.length then
      match url with
      | a :: b :: url =>
        match stoi16 [byteChar a, byteChar b], urlDecode url with
        | some value, some decoded => some (UInt8.ofInt value :: decoded)
        | _, _ => none
      -- there are two bytes
      | _ => none
    else if c = '+'.toUInt8 then (urlDecode url).map (' '.toUInt8 :: ·)
    else (urlDecode url).map (c :: ·)

/-! ## Encoded texts -/

/-- The unreserved characters. -/
def unreserved : List UInt8 :=
  "ABCDEFGHIJKLMNOPQRSTUVWXYZabcdefghijklmnopqrstuvwxyz0123456789-._~".toList.map Char.toUInt8

/-- The hexadecimal digits, in capitals. -/
def hexDigits : List UInt8 := "0123456789ABCDEF".toList.map Char.toUInt8

/-- **A text of unreserved characters and triples.** -/
inductive UrlEncoded : List UInt8 → Prop
  | nil : UrlEncoded []
  | plain {c : UInt8} {s : List UInt8} : c ∈ unreserved → UrlEncoded s → UrlEncoded (c :: s)
  | triple {a b : UInt8} {s : List UInt8} : a ∈ hexDigits → b ∈ hexDigits → UrlEncoded s →
      UrlEncoded ('%'.toUInt8 :: a :: b :: s)

/-- A byte as it is encoded. -/
def encodeByte (x : UInt8) : List UInt8 :=
  if x ∈ unreserved then [x]
  else ['%'.toUInt8, hexDigits.getD (x.toNat / 16) 0, hexDigits.getD (x.toNat % 16) 0]

/-- The unreserved characters are two alphabets, the digits and four marks. -/
theorem unreserved_eq : unreserved
    = (List.range' 65 26 ++ List.range' 97 26 ++ List.range' 48 10).map UInt8.ofNat
      ++ ['-'.toUInt8, '.'.toUInt8, '_'.toUInt8, '~'.toUInt8] := by
  decide +kernel

theorem mem_map_ofNat_range' {x : UInt8} {start n : ℕ} (h : start + n ≤ 256) :
    x ∈ (List.range' start n).map UInt8.ofNat ↔ start ≤ x.toNat ∧ x.toNat < start + n := by
  rw [List.mem_map]
  constructor
  · rintro ⟨k, hk, rfl⟩
    obtain ⟨hlow, hhigh⟩ := List.mem_range'_1.mp hk
    rw [UInt8.toNat_ofNat_of_lt' (lt_of_lt_of_le hhigh h)]
    exact ⟨hlow, hhigh⟩
  · intro hx
    exact ⟨x.toNat, List.mem_range'_1.mpr hx, UInt8.ofNat_toNat⟩

/-- The test of the encoder is the one for unreserved characters. -/
theorem isalnum_iff_unreserved (x : UInt8) :
    (isalnum x || x = '-'.toUInt8 || x = '_'.toUInt8 || x = '.'.toUInt8 || x = '~'.toUInt8) = true
      ↔ x ∈ unreserved := by
  have hletter : isalnum x = true ↔ (48 ≤ x.toNat ∧ x.toNat < 48 + 10
      ∨ 65 ≤ x.toNat ∧ x.toNat < 65 + 26) ∨ 97 ≤ x.toNat ∧ x.toNat < 97 + 26 := by
    simp only [isalnum, Bool.or_eq_true, Bool.and_eq_true, decide_eq_true_eq, UInt8.le_iff_toNat_le,
      Nat.lt_succ_iff]
    rfl
  rw [unreserved_eq, List.map_append, List.map_append]
  simp only [Bool.or_eq_true, decide_eq_true_eq, List.mem_append, List.mem_cons, List.not_mem_nil,
    mem_map_ofNat_range' (show 65 + 26 ≤ 256 by decide),
    mem_map_ofNat_range' (show 97 + 26 ≤ 256 by decide),
    mem_map_ofNat_range' (show 48 + 10 ≤ 256 by decide), hletter]
  grind

/-- **A byte's encoding** is encoded. -/
theorem UrlEncoded.encodeByte_append (x : UInt8) {s : List UInt8} (h : UrlEncoded s) :
    UrlEncoded (encodeByte x ++ s) := by
  have hdigit : ∀ n < 16, hexDigits.getD n 0 ∈ hexDigits := by decide
  have hx := x.toNat_lt
  unfold encodeByte
  split
  · rename_i hplain
    exact .plain hplain h
  · exact .triple (hdigit _ (by omega)) (hdigit _ (by omega)) h

theorem urlEncoded_flatMap (s : List UInt8) : UrlEncoded (s.flatMap encodeByte) := by
  induction s with
  | nil => exact .nil
  | cons x s ih =>
    rw [List.flatMap_cons]
    exact ih.encodeByte_append x

/-! ## What is written -/

/-- A byte in the format of a triple. -/
theorem digits_escape : ∀ n < 256,
    List.replicate (2 - ((Nat.toDigits 16 n).map fun d => d.toUpper.toUInt8).length) '0'.toUInt8
        ++ ((Nat.toDigits 16 n).map fun d => d.toUpper.toUInt8)
      = [hexDigits.getD (n / 16) 0, hexDigits.getD (n % 16) 0] := by
  decide +kernel

/-- **One round of the encoder**, no width pending: whatever else the format
is, the byte's encoding is written, and no width is pending afterwards. -/
theorem urlEncodeChar_spec {o : Ostream} (h : o.width = 0) (x : UInt8) :
    (urlEncodeChar o x).text = o.text ++ encodeByte x ∧ (urlEncodeChar o x).width = 0 := by
  unfold urlEncodeChar encodeByte
  by_cases hplain : x ∈ unreserved
  · rw [if_pos ((isalnum_iff_unreserved x).mpr hplain), if_pos hplain]
    refine ⟨?_, rfl⟩
    show o.text ++ (List.replicate (o.width - 1) o.fill ++ [x]) = _
    rw [h]
    rfl
  · rw [if_neg (mt (isalnum_iff_unreserved x).mp hplain), if_neg hplain]
    refine ⟨?_, rfl⟩
    show o.text ++ (List.replicate (o.width - 1) o.fill ++ ['%'.toUInt8])
      ++ (List.replicate (2 - ((Nat.toDigits 16 x.toNat).map
          fun d => d.toUpper.toUInt8).length) '0'.toUInt8
        ++ (Nat.toDigits 16 x.toNat).map fun d => d.toUpper.toUInt8) = _
    rw [digits_escape _ x.toNat_lt, h, List.append_assoc]
    rfl

/-- **What is encoded**, byte by byte. -/
theorem urlEncode_eq (url : List UInt8) : urlEncode url = url.flatMap encodeByte := by
  have hloop : ∀ (url : List UInt8) (o : Ostream), o.width = 0 →
      (url.foldl urlEncodeChar o).text = o.text ++ url.flatMap encodeByte := by
    intro url
    induction url with
    | nil => exact fun o _ => (List.append_nil _).symm
    | cons x url ih =>
      intro o ho
      obtain ⟨htext, hwidth⟩ := urlEncodeChar_spec ho x
      rw [List.foldl_cons, ih _ hwidth, htext, List.flatMap_cons, List.append_assoc]
  exact hloop url {} rfl

/-! ## What is read -/

theorem hexDigitValue_hexDigits :
    ∀ n < 16, hexDigitValue (byteChar (hexDigits.getD n 0)) = some n := by
  decide +kernel

/-- Two digits are read as the byte they are of. -/
theorem stoi16_hexDigits {n : ℕ} (hn : n < 256) :
    stoi16 [byteChar (hexDigits.getD (n / 16) 0), byteChar (hexDigits.getD (n % 16) 0)]
      = some (n : ℤ) := by
  rw [stoi16_of_digits (hexDigitValue_hexDigits (n / 16) (by omega))
    (hexDigitValue_hexDigits (n % 16) (by omega)), Nat.div_add_mod]

theorem unreserved_ne {c : UInt8} (h : c ∈ unreserved) : c ≠ '%'.toUInt8 ∧ c ≠ '+'.toUInt8 := by
  have hnot : '%'.toUInt8 ∉ unreserved ∧ '+'.toUInt8 ∉ unreserved := by decide
  refine ⟨?_, ?_⟩
  · rintro rfl
    exact hnot.1 h
  · rintro rfl
    exact hnot.2 h

/-- **The decoder goes over a byte's encoding** in one step, and reads the
byte. -/
theorem urlDecode_encodeByte (x : UInt8) (s : List UInt8) :
    urlDecode (encodeByte x ++ s) = (urlDecode s).map (x :: ·) := by
  unfold encodeByte
  split
  · rename_i hplain
    obtain ⟨hpercent, hplus⟩ := unreserved_ne hplain
    show urlDecode (x :: s) = _
    rw [urlDecode.eq_def]
    dsimp only
    rw [if_neg fun h => hpercent h.1, if_neg hplus]
  · show urlDecode ('%'.toUInt8 :: hexDigits.getD (x.toNat / 16) 0
      :: hexDigits.getD (x.toNat % 16) 0 :: s) = _
    have htwo : 2 ≤ (hexDigits.getD (x.toNat / 16) 0
        :: hexDigits.getD (x.toNat % 16) 0 :: s).length := Nat.le_add_left 2 s.length
    rw [urlDecode.eq_def]
    dsimp only
    rw [if_pos ⟨rfl, htwo⟩]
    rw [stoi16_hexDigits x.toNat_lt]
    cases urlDecode s with
    | none => rfl
    | some decoded =>
      show some (UInt8.ofInt x.toNat :: decoded) = some (x :: decoded)
      rw [ofInt_toNat]

/-- **`URLDecode` undoes `URLEncode`**, for every text of bytes, and what is
between has unreserved characters and triples only. -/
theorem urlDecode_urlEncode (s : List UInt8) :
    urlDecode (urlEncode s) = some s ∧ UrlEncoded (urlEncode s) := by
  rw [urlEncode_eq]
  refine ⟨?_, urlEncoded_flatMap s⟩
  induction s with
  | nil => rfl
  | cons x s ih => rw [List.flatMap_cons, urlDecode_encodeByte, ih, Option.map_some]

/-! ## As a segment of a path -/

open PercentEncoding

/-- A path reads two digits as that byte, too. -/
theorem triplet_hexDigits {n : ℕ} (hn : n < 256) :
    triplet (byteChar (hexDigits.getD (n / 16) 0)) (byteChar (hexDigits.getD (n % 16) 0))
      = some (Char.ofNat n) := by
  have hvalue : ∀ n < 16, hexValue (byteChar (hexDigits.getD n 0)) = some n := by decide +kernel
  unfold triplet
  rw [hvalue (n / 16) (by omega), hvalue (n % 16) (by omega)]
  exact congrArg (some <| Char.ofNat ·) (Nat.div_add_mod n 16)

/-- A byte's encoding stands for the byte. -/
theorem decode_encodeByte (x : UInt8) (t : List Char) :
    decode isSegmentChar ((encodeByte x).map byteChar ++ t)
      = (decode isSegmentChar t).map (byteChar x :: ·) := by
  have hplain : ∀ x ∈ unreserved, isSegmentChar (byteChar x) = true := by decide +kernel
  unfold encodeByte
  split
  · rename_i hx
    exact decode_cons_of_plain (hplain x hx) t
  · show decode isSegmentChar ('%' :: byteChar (hexDigits.getD (x.toNat / 16) 0)
      :: byteChar (hexDigits.getD (x.toNat % 16) 0) :: t) = _
    rw [decode.eq_def]
    dsimp only
    rw [if_neg (by decide), if_pos rfl, triplet_hexDigits x.toNat_lt]
    cases decode isSegmentChar t with
    | none => rfl
    | some decoded => rfl

/-- An encoded text is a segment of a path that stands for the text. -/
theorem decode_urlEncode (s : List UInt8) :
    decode isSegmentChar ((urlEncode s).map byteChar) = some (s.map byteChar) := by
  rw [urlEncode_eq]
  induction s with
  | nil => rfl
  | cons x s ih =>
    rw [List.flatMap_cons, List.map_append, decode_encodeByte, ih]
    rfl

/-- **A request with the encoded name** is about its user, whatever bytes the
name has. -/
theorem namesUser_urlEncode {username : String} {host : List Char} {name : List UInt8}
    (hname : username.toList = name.map byteChar) (hhost : ∀ c ∈ host, isFieldChar c) :
    NamesUser (requestWith "GET".toList "isUserRegistered".toList
      ((urlEncode name).map byteChar) (afterGet host [])) username :=
  namesUser_requestWith (isToken_of_all (by decide)) (List.all_eq_true.mp (by decide))
    (hname ▸ decode_urlEncode name) (isHeadersAndBody_afterGet hhost)
