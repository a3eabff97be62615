import Mathlib.Tactic

/-!
# Hexadecimal text

A `std::string` is modelled as a `String` whose characters stand for its
bytes. Arrays become text by `bin2hex`, two digits a byte, and come back by
`hexToBin`, which hands every two characters to `std::stoi` in base 16 – more
lenient than a hexadecimal decoder, since `stoi` skips blanks, reads a sign
and a prefix, and stops at the first character that is no digit.

What `bin2hex` writes is nevertheless read back as it was
(`hexToBin_bin2hex`).
-/

/-! ## Reading a number -/

/-- The value of a hexadecimal digit. -/
def hexDigitValue (c : Char) : Option ℕ :=
  if '0' ≤ c ∧ c ≤ '9' then some (c.toNat - 48)
  else if 'a' ≤ c ∧ c ≤ 'f' then some (c.toNat - 87)
  else if 'A' ≤ c ∧ c ≤ 'F' then some (c.toNat - 55)
  else none

/-- `isspace` in the C locale. -/
def isSpace (c : Char) : Bool :=
  c = ' ' || (9 ≤ c.toNat && c.toNat ≤ 13)

/-- The sign of a number and what follows it. -/
def splitSign : List Char → Bool × List Char
  | '-' :: s => (true, s)
  | '+' :: s => (false, s)
  | s => (false, s)

/-- Without a sign nothing is split off. -/
theorem splitSign_of_ne {c : Char} {s : List Char} (hplus : c ≠ '+') (hminus : c ≠ '-') :
    splitSign (c :: s) = (false, c :: s) := by
  unfold splitSign
  split
  · rename_i heq
    exact absurd (List.cons.inj heq).1 hminus
  · rename_i heq
    exact absurd (List.cons.inj heq).1 hplus
  · rfl

/-- A prefix `0x` is dropped if a digit follows it; else the `0` is the
number. -/
def dropHexPrefix : List Char → List Char
  | '0' :: x :: d :: s =>
    if (x = 'x' ∨ x = 'X') ∧ (hexDigitValue d).isSome then d :: s else '0' :: x :: d :: s
  | s => s

/-- `std::stoi(s, nullptr, 16)`; `none` is `std::invalid_argument` or
`std::out_of_range`. The string ends at its first null character. -/
def stoi16 (s : List Char) : Option ℤ :=
  let s := (s.takeWhile (· ≠ '\x00')).dropWhile isSpace
  let (negative, s) := splitSign s
  let digits := ((dropHexPrefix s).takeWhile (hexDigitValue · |>.isSome)).filterMap hexDigitValue
  if digits = [] then none
  else
    let value : ℤ := digits.foldl (16 * · + ·) 0
    let value := if negative then -value else value
    if value < -2 ^ 31 ∨ 2 ^ 31 ≤ value then none else some value

/-! ## Arrays as text -/

/-- `bin2hex`. -/
def bin2hex (bin : List UInt8) : String :=
  String.ofList (bin.flatMap fun b => [Nat.digitChar (b.toNat / 16), Nat.digitChar (b.toNat % 16)])

/-- The loop of `hex_to_bin` over the bytes still to be read. -/
def hexToBytes : ℕ → List Char → Option (List UInt8)
  | 0, _ => some []
  | n + 1, s =>
    match stoi16 (s.take 2), hexToBytes n (s.drop 2) with
    | some value, some bytes => some (UInt8.ofInt value :: bytes)
    | _, _ => none

/-- **`hex_to_bin`**: the array it fills, or `none` where it returns false. -/
def hexToBin (hex : String) (binSize : ℕ) : Option (List UInt8) :=
  if hex.length ≠ binSize * 2 then none else hexToBytes binSize hex.toList

theorem length_hexToBytes {n : ℕ} {s : List Char} {bytes : List UInt8}
    (h : hexToBytes n s = some bytes) : bytes.length = n := by
  induction n generalizing s bytes with
  | zero =>
    obtain rfl := Option.some.inj h
    rfl
  | succ n ih =>
    rw [hexToBytes] at h
    split at h
    · rename_i hrest
      obtain rfl := Option.some.inj h
      rw [List.length_cons, ih hrest]
    · cases h

/-- What `hex_to_bin` fills has the size asked for. -/
theorem length_hexToBin {hex : String} {n : ℕ} {bytes : List UInt8}
    (h : hexToBin hex n = some bytes) : bytes.length = n := by
  rw [hexToBin] at h
  split at h
  · cases h
  · exact length_hexToBytes h

/-- Two digits of a byte are read as the byte. -/
theorem stoi16_digits : ∀ n < 256,
    stoi16 [Nat.digitChar (n / 16), Nat.digitChar (n % 16)] = some (n : ℤ) := by
  decide +kernel

/-- Casting an `int` back to the byte it was read from. -/
theorem ofInt_toNat (b : UInt8) : UInt8.ofInt (b.toNat : ℤ) = b := by
  have hb : ((b.toNat : ℤ) % 2 ^ 8).toNat = b.toNat := by
    have := b.toNat_lt
    omega
  rw [UInt8.ofInt, hb]
  exact UInt8.ofNat_toNat

theorem hexToBytes_digits (bin : List UInt8) :
    hexToBytes bin.length
        (bin.flatMap fun b => [Nat.digitChar (b.toNat / 16), Nat.digitChar (b.toNat % 16)])
      = some bin := by
  induction bin with
  | nil => rfl
  | cons b bin ih =>
    rw [List.length_cons, hexToBytes, List.flatMap_cons]
    simp only [List.cons_append, List.nil_append, List.take_succ_cons, List.take_zero,
      List.drop_succ_cons, List.drop_zero]
    rw [stoi16_digits _ b.toNat_lt, ih]
    exact congrArg (fun c => some (c :: bin)) (ofInt_toNat b)

/-- Two digits a byte. -/
theorem length_bin2hex (bin : List UInt8) : (bin2hex bin).length = bin.length * 2 := by
  rw [bin2hex, String.length_ofList, List.length_flatMap]
  simp

/-- **`hex_to_bin` undoes `bin2hex`.** -/
theorem hexToBin_bin2hex (bin : List UInt8) : hexToBin (bin2hex bin) bin.length = some bin := by
  rw [hexToBin, if_neg, bin2hex, String.toList_ofList, hexToBytes_digits]
  rw [not_not, length_bin2hex]

/-! ## Keys -/

/-- **A 32-byte array.** -/
abbrev Key := { bytes : List UInt8 // bytes.length = 32 }

/-- An array of one byte. -/
def Key.repeated (b : UInt8) : Key := ⟨List.replicate 32 b, List.length_replicate⟩

instance : Zero Key := ⟨⟨List.replicate 32 0, List.length_replicate⟩⟩

instance : DecidableLT Key := fun a b => inferInstanceAs (Decidable (a.1 < b.1))

instance : DecidableLE Key := fun a b => inferInstanceAs (Decidable (¬ b.1 < a.1))

/-- Arrays are in the order of their bytes, as in a `std::map` and for
`memcmp`. -/
instance : LinearOrder Key where
  le_refl a := List.le_refl a.1
  le_trans _ _ _ := List.le_trans
  lt_iff_le_not_ge a b := ⟨fun h => ⟨List.lt_asymm h, not_not.mpr h⟩, fun h => not_not.mp h.2⟩
  le_antisymm _ _ hab hba := Subtype.ext (List.le_antisymm hab hba)
  le_total a b := List.le_total a.1 b.1
  toDecidableLE := inferInstance
  toDecidableLT := inferInstance
  toDecidableEq := inferInstance
  compare a b := compareOfLessAndEq a b
  compare_eq_compareOfLessAndEq _ _ := rfl

/-- A key as text. -/
def Key.hex (k : Key) : String := bin2hex k.1

/-- A key from text: `hex_to_bin` into a 32-byte array. -/
def hexToKey (hex : String) : Option Key :=
  match h : hexToBin hex 32 with
  | some bytes => some ⟨bytes, length_hexToBin h⟩
  | none => none

@[simp] theorem hexToKey_hex (k : Key) : hexToKey k.hex = some k := by
  have h : hexToBin k.hex 32 = some k.1 := by
    have := hexToBin_bin2hex k.1
    rwa [k.2] at this
  rw [hexToKey]
  split
  · rename_i bytes hb
    exact congrArg some (Subtype.ext (Option.some.inj (hb.symm.trans h)))
  · rename_i hb
    rw [h] at hb
    cases hb
