import Eastwood.Base64
import Mathlib.Tactic

/-!
# Base 64 in the program

`bin2base64` is a wrapper of the encoder of libsodium, which is a parameter.
`base642bin` is a decoder of its own: it looks characters up in a table that
starts at `+`, and puts the sextets of a group together in an
`unsigned char`, where the first two of them are shifted out. A group is
decoded to its third byte, with zeros before it (`base642bin_bin2base64`).

The lookup checks that a character is not past the end of the table, and not
that it is not before its start. It stays within the table until the first
group that does not start with two digits, and is undefined if it comes upon a
character below `+` by then (`base642bin_isSome_iff`). A `char` may be signed
or not, and where it is, half of the characters are below.
-/

/-! ## The code -/

/-- The encoder of libsodium, in the variant the program uses. -/
structure Base64Library where
  /-- `sodium_base64_ENCODED_LEN` of a number of bytes. -/
  encodedLen : ℕ → ℕ
  /-- The buffer, of a length that is given, after `sodium_bin2base64`. -/
  sodiumBin2base64 : List UInt8 → ℕ → List UInt8

/-- **What is documented of it**: the length has room for the text and a NUL,
and the text is written, with NULs up to the end. -/
structure Base64Library.Standard (L : Base64Library) : Prop where
  length_lt : ∀ bytes : List UInt8, (Base64.encode bytes).length < L.encodedLen bytes.length
  eq_encode : ∀ (bytes : List UInt8) (maxlen : ℕ), (Base64.encode bytes).length < maxlen →
    L.sodiumBin2base64 bytes maxlen
      = Base64.encode bytes ++ List.replicate (maxlen - (Base64.encode bytes).length) 0

/-- **`bin2base64`**: the buffer up to its first NUL. -/
def bin2base64 (L : Base64Library) (data : List UInt8) : List UInt8 :=
  let b64Maxlen := L.encodedLen data.length
  let b64 := L.sodiumBin2base64 data b64Maxlen
  b64.takeWhile (· ≠ 0)

/-- `base64_lookup`. -/
def base64Lookup : List UInt8 :=
  [62, 255, 62, 255, 63, 52, 53, 54, 55, 56, 57, 58, 59, 60, 61, 255,
    255, 255, 255, 255, 255, 255, 0, 1, 2, 3, 4, 5, 6, 7, 8, 9,
    10, 11, 12, 13, 14, 15, 16, 17, 18, 19, 20, 21, 22, 23, 24, 25,
    255, 255, 255, 255, 63, 255, 26, 27, 28, 29, 30, 31, 32, 33, 34, 35,
    36, 37, 38, 39, 40, 41, 42, 43, 44, 45, 46, 47, 48, 49, 50, 51]

/-- The value of a `char`, which the platform takes for signed or not. -/
def charValue (signed : Bool) (c : UInt8) : ℤ :=
  if signed ∧ 128 ≤ c.toNat then (c.toNat : ℤ) - 256 else c.toNat

/-- An element of the table; none if there is none there. -/
def lookupAt (i : ℤ) : Option UInt8 :=
  if i < 0 then none else base64Lookup[i.toNat]?

/-- A sextet of a group, of a character that may be missing; none if the
lookup leaves the table. -/
def sextet (signed : Bool) : Option UInt8 → Option UInt8
  | none => some 255
  | some c =>
    -- 122 is 'z'
    if charValue signed c ≤ 122 then lookupAt (charValue signed c - 43) else some 255

/-- What a group with two sextets at least adds to the result. `triple` is an
`unsigned char`. -/
def tripleBytes (a b c d : UInt8) : List UInt8 :=
  let byteAt (triple : UInt8) (shift : ℕ) := UInt8.ofNat ((triple.toNat >>> shift) &&& 0xFF)
  let triple := UInt8.ofNat ((a.toNat <<< 18) + (b.toNat <<< 12))
  if c ≠ 255 then
    let triple := UInt8.ofNat (triple.toNat + (c.toNat <<< 6))
    if d ≠ 255 then
      let triple := UInt8.ofNat (triple.toNat + d.toNat)
      [byteAt triple 16, byteAt triple 8, byteAt triple 0]
    else [byteAt triple 16, byteAt triple 8]
  else [byteAt triple 16]

/-- The loop of `base642bin`: a number of rounds, each on a group. -/
def decodeGroups (signed : Bool) : ℕ → List UInt8 → Option (List UInt8)
  | 0, _ => some []
  | n + 1, s =>
    match sextet signed s[0]?, sextet signed s[1]?, sextet signed s[2]?, sextet signed s[3]? with
    | some a, some b, some c, some d =>
      if a = 255 ∨ b = 255 then some []
      else (decodeGroups signed n (s.drop 4)).map (tripleBytes a b c d ++ ·)
    | _, _, _, _ => none

/-- **`base642bin`**; none if a lookup leaves the table. -/
def base642bin (signed : Bool) (base64Str : List UInt8) : Option (List UInt8) :=
  decodeGroups signed ((base64Str.length + 3) / 4) base64Str

/-! ## The table -/

theorem sextet_digit (signed : Bool) {n : ℕ} (hn : n < 64) :
    sextet signed (some (Base64.digit n)) = some (UInt8.ofNat n) := by
  have htable : ∀ signed, ∀ n < 64,
      sextet signed (some (Base64.digit n)) = some (UInt8.ofNat n) := by decide
  exact htable signed n hn

theorem sextet_pad (signed : Bool) : sextet signed (some Base64.pad) = some 255 := by
  cases signed <;> decide

/-- The characters of the table: letters, digits, and the four other
characters of the two common variants. -/
def IsBase64Char (c : UInt8) : Prop :=
  (65 ≤ c ∧ c ≤ 90) ∨ (97 ≤ c ∧ c ≤ 122) ∨ (48 ≤ c ∧ c ≤ 57)
    ∨ c = 43 ∨ c = 47 ∨ c = 45 ∨ c = 95

instance (c : UInt8) : Decidable (IsBase64Char c) := inferInstanceAs (Decidable (_ ∨ _))

/-- **A lookup**: outside the table below `+`, a sextet exactly for the
characters of the table. -/
theorem sextet_some (signed : Bool) (c : UInt8) :
    (charValue signed c < 43 ∧ sextet signed (some c) = none)
      ∨ 43 ≤ charValue signed c
        ∧ ∃ v, sextet signed (some c) = some v ∧ (v ≠ 255 ↔ IsBase64Char c) := by
  have htable : ∀ signed, ∀ n < 256,
      (charValue signed (UInt8.ofNat n) < 43 ∧ sextet signed (some (UInt8.ofNat n)) = none)
        ∨ 43 ≤ charValue signed (UInt8.ofNat n)
          ∧ (sextet signed (some (UInt8.ofNat n))).any
              (fun v => decide (v ≠ 255 ↔ IsBase64Char (UInt8.ofNat n))) := by
    decide +kernel
  have hc := htable signed c.toNat c.toNat_lt
  rw [UInt8.ofNat_toNat] at hc
  rcases hc with hc | ⟨hle, hc⟩
  · exact Or.inl hc
  · obtain ⟨v, hv, hiff⟩ := Option.any_eq_true _ _ |>.mp hc
    exact Or.inr ⟨hle, v, hv, of_decide_eq_true hiff⟩

/-! ## The round trip -/

/-- **Two sextets are shifted out** of an `unsigned char`. -/
theorem triple_eq_zero (a b : UInt8) : UInt8.ofNat ((a.toNat <<< 18) + (b.toNat <<< 12)) = 0 := by
  refine UInt8.toNat_inj.mp ?_
  rw [UInt8.toNat_ofNat', Nat.shiftLeft_eq, Nat.shiftLeft_eq,
    show a.toNat * 2 ^ 18 + b.toNat * 2 ^ 12 = 2 ^ 8 * (a.toNat * 2 ^ 10 + b.toNat * 2 ^ 4) by ring]
  exact Nat.mul_mod_right _ _

/-- What is shifted down from above the byte is zero. -/
theorem shiftRight_and_eq_zero (t : UInt8) {n : ℕ} (hn : 8 ≤ n) :
    UInt8.ofNat ((t.toNat >>> n) &&& 0xFF) = 0 := by
  have ht : t.toNat < 2 ^ n := t.toNat_lt.trans_le (Nat.pow_le_pow_right (by decide) hn)
  rw [Nat.shiftRight_eq_div_pow, Nat.div_eq_of_lt ht, Nat.zero_and]
  rfl

/-- One byte, where the third sextet is missing, -/
theorem tripleBytes_one (a b d : UInt8) : tripleBytes a b 255 d = [0] := by
  rw [tripleBytes]
  simp only [ne_eq, not_true_eq_false, if_false]
  rw [shiftRight_and_eq_zero _ (by decide)]

/-- two, where the fourth is, -/
theorem tripleBytes_two {c : UInt8} (a b : UInt8) (hc : c ≠ 255) :
    tripleBytes a b c 255 = [0, 0] := by
  rw [tripleBytes]
  simp only [if_pos hc, ne_eq, not_true_eq_false, if_false]
  rw [shiftRight_and_eq_zero _ (by decide), shiftRight_and_eq_zero _ (by decide)]

/-- and three otherwise, of which the last is the last of the group. -/
theorem tripleBytes_three {c d : UInt8} (a b : UInt8) (hc : c ≠ 255) (hd : d ≠ 255) :
    tripleBytes a b c d = [0, 0, UInt8.ofNat (c.toNat * 64 + d.toNat)] := by
  rw [tripleBytes]
  simp only [if_pos hc, if_pos hd]
  rw [shiftRight_and_eq_zero _ (by decide), shiftRight_and_eq_zero _ (by decide), triple_eq_zero]
  congr 3
  refine UInt8.toNat_inj.mp ?_
  have hmask : ∀ n, n &&& 0xFF = n % 2 ^ 8 := fun n => Nat.and_two_pow_sub_one_eq_mod n 8
  simp only [hmask, UInt8.toNat_ofNat', Nat.shiftLeft_eq, Nat.shiftRight_eq_div_pow,
    show (0 : UInt8).toNat = 0 from rfl]
  omega

/-- A round on a group whose characters have sextets. -/
theorem base642bin_cons {signed : Bool} {w x y z a b c d : UInt8}
    (ha : sextet signed (some w) = some a) (hb : sextet signed (some x) = some b)
    (hc : sextet signed (some y) = some c) (hd : sextet signed (some z) = some d)
    (hab : ¬ (a = 255 ∨ b = 255)) (rest : List UInt8) :
    base642bin signed (w :: x :: y :: z :: rest)
      = (base642bin signed rest).map (tripleBytes a b c d ++ ·) := by
  have hrounds : ((w :: x :: y :: z :: rest).length + 3) / 4 = (rest.length + 3) / 4 + 1 := by
    simp only [List.length_cons]
    omega
  rw [base642bin, hrounds, decodeGroups]
  simp only [List.getElem?_cons_zero, List.getElem?_cons_succ, ha, hb, hc, hd, if_neg hab]
  rfl

/-- A sextet of a digit is no 255. -/
theorem ofNat_ne_255 {n : ℕ} (hn : n < 64) : UInt8.ofNat n ≠ 255 := by
  have hall : ∀ n < 64, UInt8.ofNat n ≠ 255 := by decide
  exact hall n hn

/-- A byte string with every byte but the last of each full group zeroed. -/
def thirdBytes (data : List UInt8) : List UInt8 :=
  data.mapIdx fun i b => if i % 3 = 2 then b else 0

theorem thirdBytes_cons (a b c : UInt8) (rest : List UInt8) :
    thirdBytes (a :: b :: c :: rest) = 0 :: 0 :: c :: thirdBytes rest := by
  simp [thirdBytes, List.mapIdx_cons, Nat.add_assoc]

/-- The last two sextets of a group have its last byte. -/
theorem ofNat_sextets (b c : UInt8) :
    UInt8.ofNat ((UInt8.ofNat (b.toNat % 16 * 4 + c.toNat / 64)).toNat * 64
      + (UInt8.ofNat (c.toNat % 64)).toNat) = c := by
  refine UInt8.toNat_inj.mp ?_
  have hc := c.toNat_lt
  simp only [UInt8.toNat_ofNat']
  omega

/-- **A text of the encoder decodes** to the third bytes. -/
theorem base642bin_encode (signed : Bool) (data : List UInt8) :
    base642bin signed (Base64.encode data) = some (thirdBytes data) := by
  induction data using Base64.encode.induct with
  | case1 => rfl
  | case2 a =>
    have ha := a.toNat_lt
    have h₁ : a.toNat / 4 < 64 := by omega
    have h₂ : a.toNat % 4 * 16 < 64 := by omega
    rw [Base64.encode, base642bin_cons (sextet_digit signed h₁) (sextet_digit signed h₂)
      (sextet_pad signed) (sextet_pad signed)
      (not_or.mpr ⟨ofNat_ne_255 h₁, ofNat_ne_255 h₂⟩), tripleBytes_one]
    rfl
  | case3 a b =>
    have ha := a.toNat_lt
    have hb := b.toNat_lt
    have h₁ : a.toNat / 4 < 64 := by omega
    have h₂ : a.toNat % 4 * 16 + b.toNat / 16 < 64 := by omega
    have h₃ : b.toNat % 16 * 4 < 64 := by omega
    rw [Base64.encode, base642bin_cons (sextet_digit signed h₁) (sextet_digit signed h₂)
      (sextet_digit signed h₃) (sextet_pad signed)
      (not_or.mpr ⟨ofNat_ne_255 h₁, ofNat_ne_255 h₂⟩), tripleBytes_two _ _ (ofNat_ne_255 h₃)]
    rfl
  | case4 a b c rest ih =>
    have ha := a.toNat_lt
    have hb := b.toNat_lt
    have hc := c.toNat_lt
    have h₁ : a.toNat / 4 < 64 := by omega
    have h₂ : a.toNat % 4 * 16 + b.toNat / 16 < 64 := by omega
    have h₃ : b.toNat % 16 * 4 + c.toNat / 64 < 64 := by omega
    have h₄ : c.toNat % 64 < 64 := by omega
    rw [Base64.encode, base642bin_cons (sextet_digit signed h₁) (sextet_digit signed h₂)
      (sextet_digit signed h₃) (sextet_digit signed h₄)
      (not_or.mpr ⟨ofNat_ne_255 h₁, ofNat_ne_255 h₂⟩),
      tripleBytes_three _ _ (ofNat_ne_255 h₃) (ofNat_ne_255 h₄), ofNat_sextets, ih,
      thirdBytes_cons]
    rfl

/-- **The wrapper returns the text**: it has no NUL, and one after it. -/
theorem bin2base64_eq {L : Base64Library} (hL : L.Standard) (data : List UInt8) :
    bin2base64 L data = Base64.encode data := by
  have hlt := hL.length_lt data
  obtain ⟨n, hn⟩ := Nat.exists_eq_add_of_lt hlt
  rw [bin2base64, hL.eq_encode data _ hlt, hn,
    show (Base64.encode data).length + n + 1 - (Base64.encode data).length = n + 1 by omega,
    List.replicate_succ, List.takeWhile_append_of_pos
      (fun c hc => decide_eq_true (Base64.ne_zero_of_mem_encode hc))]
  simp

/-- **The third bytes are all of them** when the others are zero. -/
theorem thirdBytes_eq_self_iff {data : List UInt8} :
    thirdBytes data = data ↔ ∀ i b, data[i]? = some b → i % 3 ≠ 2 → b = 0 := by
  constructor
  · intro heq i b hb hi
    have hget := congrArg (·[i]?) heq
    simp only [thirdBytes, List.getElem?_mapIdx, hb, Option.map_some, if_neg hi] at hget
    exact (Option.some.inj hget).symm
  · intro hzero
    refine List.ext_getElem? fun i => ?_
    rw [thirdBytes, List.getElem?_mapIdx]
    cases hb : data[i]? with
    | none => rfl
    | some b =>
      by_cases hi : i % 3 = 2
      · simp [hi]
      · simp [hi, hzero i b hb hi]

/-! ## The bounds of the table -/

/-- A group of a text starts with two characters of the table. -/
def StartsGroup (s : List UInt8) (q : ℕ) : Prop :=
  ∃ a b, s[4 * q]? = some a ∧ s[4 * q + 1]? = some b ∧ IsBase64Char a ∧ IsBase64Char b

/-- **A text stays in the table**: its characters are none below `+`, but
after a group that does not start with two of the table. -/
def StaysInTable (signed : Bool) (s : List UInt8) : Prop :=
  ∀ i c, s[i]? = some c → charValue signed c < 43 → ∃ q < i / 4, ¬ StartsGroup s q

/-- A sextet of a character that may be missing. -/
theorem sextet_cases (signed : Bool) (o : Option UInt8) :
    (sextet signed o = none ∧ ∃ c, o = some c ∧ charValue signed c < 43)
      ∨ ∃ v, sextet signed o = some v ∧ (∀ c, o = some c → 43 ≤ charValue signed c)
        ∧ (v ≠ 255 ↔ ∃ c, o = some c ∧ IsBase64Char c) := by
  cases o with
  | none => exact Or.inr ⟨255, rfl, nofun, by simp⟩
  | some c =>
    rcases sextet_some signed c with ⟨hlt, hnone⟩ | ⟨hle, v, hv, hiff⟩
    · exact Or.inl ⟨hnone, c, rfl, hlt⟩
    · refine Or.inr ⟨v, hv, fun c' hc' => ?_, ?_⟩
      · rwa [← Option.some.inj hc']
      · simpa using hiff

theorem startsGroup_drop {s : List UInt8} {q : ℕ} :
    StartsGroup (s.drop 4) q ↔ StartsGroup s (q + 1) := by
  simp only [StartsGroup, List.getElem?_drop,
    show 4 + 4 * q = 4 * (q + 1) by ring, show 4 + (4 * q + 1) = 4 * (q + 1) + 1 by ring]

/-- **A text group by group.** -/
theorem staysInTable_iff {signed : Bool} {s : List UInt8} :
    StaysInTable signed s
      ↔ (∀ i c, i < 4 → s[i]? = some c → 43 ≤ charValue signed c)
        ∧ (StartsGroup s 0 → StaysInTable signed (s.drop 4)) := by
  constructor
  · intro hstays
    refine ⟨fun i c hi hc => not_lt.mp fun hlt => ?_, fun hstart i c hc hlt => ?_⟩
    · obtain ⟨q, hq, -⟩ := hstays i c hc hlt
      omega
    · obtain ⟨q, hq, hnot⟩ := hstays (4 + i) c (by rwa [← List.getElem?_drop]) hlt
      cases q with
      | zero => exact absurd hstart hnot
      | succ q => exact ⟨q, by omega, fun hq' => hnot (startsGroup_drop.mp hq')⟩
  · rintro ⟨hfirst, hrest⟩ i c hc hlt
    by_cases hi : i < 4
    · exact absurd hlt (not_lt.mpr (hfirst i c hi hc))
    · by_cases hstart : StartsGroup s 0
      · obtain ⟨q, hq, hnot⟩ := hrest hstart (i - 4) c
          (by rwa [List.getElem?_drop, show 4 + (i - 4) = i by omega]) hlt
        exact ⟨q + 1, by omega, fun hq' => hnot (startsGroup_drop.mpr hq')⟩
      · exact ⟨0, by omega, hstart⟩

/-- One round after the other. -/
theorem decodeGroups_isSome_iff (signed : Bool) (n : ℕ) (s : List UInt8) (hn : s.length ≤ 4 * n) :
    (decodeGroups signed n s).isSome ↔ StaysInTable signed s := by
  induction n generalizing s with
  | zero =>
    obtain rfl := List.eq_nil_of_length_eq_zero (by omega : s.length = 0)
    exact iff_of_true rfl (fun i c hc => by cases hc)
  | succ n ih =>
    have hih := ih (s.drop 4) (by rw [List.length_drop]; omega)
    -- a lookup outside the table is one of the group
    have hout : ∀ i < 4, ∀ c, s[i]? = some c → charValue signed c < 43 →
        ¬ StaysInTable signed s := by
      intro i hi c hc hlt hstays
      exact absurd hlt (not_lt.mpr ((staysInTable_iff.mp hstays).1 i c hi hc))
    rw [decodeGroups]
    rcases sextet_cases signed s[0]? with ⟨ha, c, hc, hlt⟩ | ⟨a, ha, hca, ha'⟩
    · exact iff_of_false (by simp [ha]) (hout 0 (by decide) c hc hlt)
    rcases sextet_cases signed s[1]? with ⟨hb, c, hc, hlt⟩ | ⟨b, hb, hcb, hb'⟩
    · exact iff_of_false (by simp [hb]) (hout 1 (by decide) c hc hlt)
    rcases sextet_cases signed s[2]? with ⟨hc', c, hc, hlt⟩ | ⟨c, hc, hcc, -⟩
    · exact iff_of_false (by simp [hc']) (hout 2 (by decide) c hc hlt)
    rcases sextet_cases signed s[3]? with ⟨hd, c, hc, hlt⟩ | ⟨d, hd, hcd, -⟩
    · exact iff_of_false (by simp [hd]) (hout 3 (by decide) c hc hlt)
    have hfirst : ∀ i c, i < 4 → s[i]? = some c → 43 ≤ charValue signed c := by
      intro i c hi hic
      obtain rfl | rfl | rfl | rfl : i = 0 ∨ i = 1 ∨ i = 2 ∨ i = 3 := by omega
      · exact hca c hic
      · exact hcb c hic
      · exact hcc c hic
      · exact hcd c hic
    have hstart : StartsGroup s 0 ↔ ¬ (a = 255 ∨ b = 255) := by
      rw [not_or, ← ne_eq, ← ne_eq, ha', hb']
      constructor
      · rintro ⟨x, y, hx, hy, hbx, hby⟩
        exact ⟨⟨x, hx, hbx⟩, y, hy, hby⟩
      · rintro ⟨⟨x, hx, hbx⟩, y, hy, hby⟩
        exact ⟨x, y, hx, hy, hbx, hby⟩
    rw [staysInTable_iff, and_iff_right hfirst]
    simp only [ha, hb, hc, hd]
    by_cases hab : a = 255 ∨ b = 255
    · rw [if_pos hab]
      exact iff_of_true rfl (fun hs => absurd hab (hstart.mp hs))
    · rw [if_neg hab, Option.isSome_map, hih, forall_prop_of_true (hstart.mpr hab)]

/-- **`base642bin` is defined** on the texts that stay in the table. -/
theorem base642bin_isSome_iff (signed : Bool) (s : List UInt8) :
    (base642bin signed s).isSome ↔ StaysInTable signed s :=
  decodeGroups_isSome_iff signed _ s (by omega)

/-- **When decoding undoes encoding, and when a lookup is within the table**:
for every byte string the one, for every text the other. -/
theorem base64_iff {L : Base64Library} (hL : L.Standard) (signed : Bool) :
    (∀ data, base642bin signed (bin2base64 L data) = some data
        ↔ ∀ i b, data[i]? = some b → i % 3 ≠ 2 → b = 0)
      ∧ ∀ s, (base642bin signed s).isSome ↔ StaysInTable signed s := by
  refine ⟨fun data => ?_, base642bin_isSome_iff signed⟩
  rw [bin2base64_eq hL, base642bin_encode, ← thirdBytes_eq_self_iff]
  exact Option.some_inj

/-! ### A library that does as documented -/

/-- The length is that of the text and a NUL, and the text is filled up. -/
def Base64Library.reference : Base64Library where
  encodedLen n := (n + 2) / 3 * 4 + 1
  sodiumBin2base64 bytes maxlen :=
    Base64.encode bytes ++ List.replicate (maxlen - (Base64.encode bytes).length) 0

theorem Base64Library.standard_reference : Base64Library.reference.Standard where
  length_lt bytes := by
    rw [Base64.length_encode]
    exact Nat.lt_succ_self _
  eq_encode _ _ _ := rfl

/-- Two zeros and a byte come back, and their text `AAAH` is looked up within
the table. -/
theorem base64_iff_seven :
    base642bin true (bin2base64 Base64Library.reference [0, 0, 7]) = some [0, 0, 7]
      ∧ (base642bin true [65, 65, 65, 72]).isSome := by
  obtain ⟨hround, hbounds⟩ := base64_iff Base64Library.standard_reference true
  refine ⟨(hround [0, 0, 7]).mpr fun i b hb hi => ?_, (hbounds _).mpr fun i c hc hlt => ?_⟩
  · match i with
    | 0 | 1 => exact (Option.some.inj hb).symm
    | 2 => exact absurd rfl hi
    | i + 3 => cases hb
  · match i with
    | 0 | 1 | 2 | 3 => exact absurd ((Option.some.inj hc).symm ▸ hlt) (by decide)
    | i + 4 => cases hc

/-- A byte of one does not, and a space is looked up before the start of the
table, whether a `char` is signed or not. -/
theorem not_base64_one :
    Base64Library.reference.Standard
      ∧ base642bin true (bin2base64 Base64Library.reference [1]) = some [0]
      ∧ base642bin false (bin2base64 Base64Library.reference [1]) = some [0]
      ∧ base642bin true [32] = none ∧ base642bin false [32] = none := by
  rw [bin2base64_eq Base64Library.standard_reference]
  exact ⟨Base64Library.standard_reference, by decide, by decide, by decide, by decide⟩
