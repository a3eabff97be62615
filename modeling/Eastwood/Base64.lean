import Mathlib.Data.List.Basic
import Mathlib.Tactic.Common

/-!
# Base 64

Three bytes are written as four digits of six bits each, a last group of one
or two bytes as two or three digits and padding (`Base64.encode`). The text
has four characters for every group begun (`length_encode`), none of them
NUL (`ne_zero_of_mem_encode`).

A strict decoder takes a text for what it was made from, and no other: what
the padding leaves of the last digit has to be zero (`decode_eq_some_iff`).
-/

namespace Base64

/-- The digit of a six-bit value. -/
def digit (n : ℕ) : UInt8 :=
  if n < 26 then UInt8.ofNat (n + 65)
  else if n < 52 then UInt8.ofNat (n + 71)
  else if n < 62 then UInt8.ofNat (n - 4)
  else if n = 62 then 43
  else 47

/-- `=`. -/
def pad : UInt8 := 61

/-- **The text of a byte string.** -/
def encode : List UInt8 → List UInt8
  | [] => []
  | [a] => [digit (a.toNat / 4), digit (a.toNat % 4 * 16), pad, pad]
  | [a, b] =>
    [digit (a.toNat / 4), digit (a.toNat % 4 * 16 + b.toNat / 16), digit (b.toNat % 16 * 4), pad]
  | a :: b :: c :: rest =>
    digit (a.toNat / 4) :: digit (a.toNat % 4 * 16 + b.toNat / 16)
      :: digit (b.toNat % 16 * 4 + c.toNat / 64) :: digit (c.toNat % 64) :: encode rest

theorem length_encode (bytes : List UInt8) :
    (encode bytes).length = (bytes.length + 2) / 3 * 4 := by
  induction bytes using encode.induct with
  | case1 => rfl
  | case2 a => simp [encode]
  | case3 a b => simp [encode]
  | case4 a b c rest ih =>
    simp only [encode, List.length_cons, ih]
    omega

theorem digit_ne_zero (n : ℕ) : digit n ≠ 0 := by
  have hsmall : ∀ n < 63, digit n ≠ 0 := by decide
  by_cases hn : n < 63
  · exact hsmall n hn
  · have hlast : digit n = 47 := by
      rw [digit, if_neg (by omega), if_neg (by omega), if_neg (by omega), if_neg (by omega)]
    rw [hlast]
    decide

theorem ne_zero_of_mem_encode {bytes : List UInt8} {c : UInt8} (h : c ∈ encode bytes) :
    c ≠ 0 := by
  have hpad : pad ≠ 0 := by decide
  induction bytes using encode.induct with
  | case1 => cases h
  | case2 a =>
    simp only [encode, List.mem_cons, List.not_mem_nil, or_false] at h
    rcases h with rfl | rfl | rfl | rfl
    · exact digit_ne_zero _
    · exact digit_ne_zero _
    · exact hpad
    · exact hpad
  | case3 a b =>
    simp only [encode, List.mem_cons, List.not_mem_nil, or_false] at h
    rcases h with rfl | rfl | rfl | rfl
    · exact digit_ne_zero _
    · exact digit_ne_zero _
    · exact digit_ne_zero _
    · exact hpad
  | case4 a b c rest ih =>
    simp only [encode, List.mem_cons] at h
    rcases h with rfl | rfl | rfl | rfl | h
    · exact digit_ne_zero _
    · exact digit_ne_zero _
    · exact digit_ne_zero _
    · exact digit_ne_zero _
    · exact ih h

/-- What the digits and the padding have in common, every character of a text
has. -/
theorem forall_mem_encode {P : UInt8 → Prop} (hdigit : ∀ n < 64, P (digit n)) (hpad : P pad)
    (bytes : List UInt8) : ∀ c ∈ encode bytes, P c := by
  induction bytes using encode.induct with
  | case1 => exact fun c hc => absurd hc List.not_mem_nil
  | case2 a =>
    have ha := a.toNat_lt
    simp only [encode, List.forall_mem_cons]
    exact ⟨hdigit _ (by omega), hdigit _ (by omega), hpad, hpad,
      fun c hc => absurd hc List.not_mem_nil⟩
  | case3 a b =>
    have ha := a.toNat_lt
    have hb := b.toNat_lt
    simp only [encode, List.forall_mem_cons]
    exact ⟨hdigit _ (by omega), hdigit _ (by omega), hdigit _ (by omega), hpad,
      fun c hc => absurd hc List.not_mem_nil⟩
  | case4 a b c rest ih =>
    have ha := a.toNat_lt
    have hb := b.toNat_lt
    have hc := c.toNat_lt
    simp only [encode, List.forall_mem_cons]
    exact ⟨hdigit _ (by omega), hdigit _ (by omega), hdigit _ (by omega), hdigit _ (by omega), ih⟩

/-! ## Decoding -/

/-- The value of a digit. -/
def digitValue (c : UInt8) : Option ℕ :=
  if 65 ≤ c ∧ c ≤ 90 then some (c.toNat - 65)
  else if 97 ≤ c ∧ c ≤ 122 then some (c.toNat - 71)
  else if 48 ≤ c ∧ c ≤ 57 then some (c.toNat + 4)
  else if c = 43 then some 62
  else if c = 47 then some 63
  else none

theorem digitValue_digit {n : ℕ} (hn : n < 64) : digitValue (digit n) = some n := by
  have hall : ∀ n < 64, digitValue (digit n) = some n := by decide
  exact hall n hn

theorem digit_of_digitValue {c : UInt8} {n : ℕ} (h : digitValue c = some n) :
    n < 64 ∧ digit n = c := by
  have hall : ∀ m < 256, ∀ n ∈ digitValue (UInt8.ofNat m), n < 64 ∧ digit n = UInt8.ofNat m := by
    decide +kernel
  have hc := hall c.toNat c.toNat_lt
  rw [UInt8.ofNat_toNat] at hc
  exact hc n h

theorem digit_ne_pad {n : ℕ} (hn : n < 64) : digit n ≠ pad := by
  have hall : ∀ n < 64, digit n ≠ pad := by decide
  exact hall n hn

/-- The bytes of the groups of digits. -/
def firstByte (a b : ℕ) : UInt8 := UInt8.ofNat (a * 4 + b / 16)

def secondByte (b c : ℕ) : UInt8 := UInt8.ofNat (b % 16 * 16 + c / 4)

def thirdByte (c d : ℕ) : UInt8 := UInt8.ofNat (c % 4 * 64 + d)

/-- **The byte string of a text**, if it is the text of one. -/
def decode : List UInt8 → Option (List UInt8)
  | [] => some []
  | w :: x :: y :: z :: rest =>
    if z = pad ∧ rest = [] then
      if y = pad then do
        let a ← digitValue w
        let b ← digitValue x
        if b % 16 = 0 then some [firstByte a b] else none
      else do
        let a ← digitValue w
        let b ← digitValue x
        let c ← digitValue y
        if c % 4 = 0 then some [firstByte a b, secondByte b c] else none
    else do
      let a ← digitValue w
      let b ← digitValue x
      let c ← digitValue y
      let d ← digitValue z
      let bytes ← decode rest
      some (firstByte a b :: secondByte b c :: thirdByte c d :: bytes)
  | _ => none

/-! The bytes of a group and its digits determine each other. -/

theorem firstByte_digits (a b : UInt8) :
    firstByte (a.toNat / 4) (a.toNat % 4 * 16 + b.toNat / 16) = a := by
  have ha := a.toNat_lt
  have hb := b.toNat_lt
  refine UInt8.toNat_inj.mp ?_
  rw [firstByte, UInt8.toNat_ofNat']
  omega

theorem secondByte_digits (a b c : UInt8) :
    secondByte (a.toNat % 4 * 16 + b.toNat / 16) (b.toNat % 16 * 4 + c.toNat / 64) = b := by
  have hb := b.toNat_lt
  have hc := c.toNat_lt
  refine UInt8.toNat_inj.mp ?_
  rw [secondByte, UInt8.toNat_ofNat']
  omega

theorem thirdByte_digits (b c : UInt8) :
    thirdByte (b.toNat % 16 * 4 + c.toNat / 64) (c.toNat % 64) = c := by
  have hc := c.toNat_lt
  refine UInt8.toNat_inj.mp ?_
  rw [thirdByte, UInt8.toNat_ofNat']
  omega

theorem toNat_firstByte {a b : ℕ} (ha : a < 64) (hb : b < 64) :
    (firstByte a b).toNat = a * 4 + b / 16 := by
  rw [firstByte, UInt8.toNat_ofNat']
  omega

theorem toNat_secondByte {b c : ℕ} (hc : c < 64) :
    (secondByte b c).toNat = b % 16 * 16 + c / 4 := by
  rw [secondByte, UInt8.toNat_ofNat']
  omega

theorem toNat_thirdByte {c d : ℕ} (hd : d < 64) : (thirdByte c d).toNat = c % 4 * 64 + d := by
  rw [thirdByte, UInt8.toNat_ofNat']
  omega

/-- **Decoding undoes encoding.** -/
theorem decode_encode (bytes : List UInt8) : decode (encode bytes) = some bytes := by
  induction bytes using encode.induct with
  | case1 => rfl
  | case2 a =>
    have ha := a.toNat_lt
    have hzero : a.toNat % 4 * 16 % 16 = 0 := by omega
    have hbyte : firstByte (a.toNat / 4) (a.toNat % 4 * 16) = a := firstByte_digits a 0
    rw [encode, decode, if_pos ⟨rfl, rfl⟩, if_pos rfl, digitValue_digit (by omega),
      digitValue_digit (by omega)]
    simp only [Option.bind_eq_bind, Option.bind_some, hzero, if_true, hbyte]
  | case3 a b =>
    have ha := a.toNat_lt
    have hb := b.toNat_lt
    have hzero : b.toNat % 16 * 4 % 4 = 0 := by omega
    have hsecond : secondByte (a.toNat % 4 * 16 + b.toNat / 16) (b.toNat % 16 * 4) = b :=
      secondByte_digits a b 0
    rw [encode, decode, if_pos ⟨rfl, rfl⟩, if_neg (digit_ne_pad (by omega)),
      digitValue_digit (by omega), digitValue_digit (by omega), digitValue_digit (by omega)]
    simp only [Option.bind_eq_bind, Option.bind_some, hzero, if_true, firstByte_digits, hsecond]
  | case4 a b c rest ih =>
    have ha := a.toNat_lt
    have hb := b.toNat_lt
    have hc := c.toNat_lt
    rw [encode, decode, if_neg (fun h => digit_ne_pad (by omega) h.1),
      digitValue_digit (by omega), digitValue_digit (by omega), digitValue_digit (by omega),
      digitValue_digit (by omega), ih]
    simp only [Option.bind_eq_bind, Option.bind_some, firstByte_digits, secondByte_digits,
      thirdByte_digits]

/-- **And a text that is decoded is the text of what it is decoded to.** -/
theorem encode_of_decode {text bytes : List UInt8} (h : decode text = some bytes) :
    encode bytes = text := by
  induction text using decode.induct generalizing bytes with
  | case1 =>
    obtain rfl := Option.some.inj h
    rfl
  | case2 w x z rest hlast =>
    obtain ⟨rfl, rfl⟩ := hlast
    rw [decode, if_pos ⟨rfl, rfl⟩, if_pos rfl] at h
    simp only [Option.bind_eq_bind, Option.bind_eq_some_iff, Option.ite_none_right_eq_some,
      Option.some.injEq] at h
    obtain ⟨a, hw, b, hx, hzero, rfl⟩ := h
    obtain ⟨ha, rfl⟩ := digit_of_digitValue hw
    obtain ⟨hb, rfl⟩ := digit_of_digitValue hx
    have hfirst := toNat_firstByte ha hb
    have h₁ : (a * 4 + b / 16) / 4 = a := by omega
    have h₂ : (a * 4 + b / 16) % 4 * 16 = b := by omega
    rw [encode, hfirst, h₁, h₂]
  | case3 w x y z rest hlast hone =>
    obtain ⟨rfl, rfl⟩ := hlast
    rw [decode, if_pos ⟨rfl, rfl⟩, if_neg hone] at h
    simp only [Option.bind_eq_bind, Option.bind_eq_some_iff, Option.ite_none_right_eq_some,
      Option.some.injEq] at h
    obtain ⟨a, hw, b, hx, c, hy, hzero, rfl⟩ := h
    obtain ⟨ha, rfl⟩ := digit_of_digitValue hw
    obtain ⟨hb, rfl⟩ := digit_of_digitValue hx
    obtain ⟨hc, rfl⟩ := digit_of_digitValue hy
    have hfirst := toNat_firstByte ha hb
    have hsecond := toNat_secondByte (b := b) hc
    have h₁ : (a * 4 + b / 16) / 4 = a := by omega
    have h₂ : (a * 4 + b / 16) % 4 * 16 + (b % 16 * 16 + c / 4) / 16 = b := by omega
    have h₃ : (b % 16 * 16 + c / 4) % 16 * 4 = c := by omega
    rw [encode, hfirst, hsecond, h₁, h₂, h₃]
  | case4 w x y z rest hlast ih =>
    rw [decode, if_neg hlast] at h
    simp only [Option.bind_eq_bind, Option.bind_eq_some_iff, Option.some.injEq] at h
    obtain ⟨a, hw, b, hx, c, hy, d, hz, bytes, hrest, rfl⟩ := h
    obtain ⟨ha, rfl⟩ := digit_of_digitValue hw
    obtain ⟨hb, rfl⟩ := digit_of_digitValue hx
    obtain ⟨hc, rfl⟩ := digit_of_digitValue hy
    obtain ⟨hd, rfl⟩ := digit_of_digitValue hz
    have hfirst := toNat_firstByte ha hb
    have hsecond := toNat_secondByte (b := b) hc
    have hthird := toNat_thirdByte (c := c) hd
    have h₁ : (a * 4 + b / 16) / 4 = a := by omega
    have h₂ : (a * 4 + b / 16) % 4 * 16 + (b % 16 * 16 + c / 4) / 16 = b := by omega
    have h₃ : (b % 16 * 16 + c / 4) % 16 * 4 + (c % 4 * 64 + d) / 64 = c := by omega
    have h₄ : (c % 4 * 64 + d) % 64 = d := by omega
    rw [encode, hfirst, hsecond, hthird, h₁, h₂, h₃, h₄, ih hrest]
  | case5 text hne hgroup =>
    rw [decode] at h
    · cases h
    · exact hne
    · exact hgroup

theorem decode_eq_some_iff {text bytes : List UInt8} :
    decode text = some bytes ↔ encode bytes = text :=
  ⟨encode_of_decode, fun h => h ▸ decode_encode bytes⟩

/-- No two byte strings have the same text. -/
theorem encode_injective : Function.Injective encode := by
  intro bytes bytes' h
  refine Option.some.inj ?_
  rw [← decode_encode bytes, h, decode_encode]

end Base64
