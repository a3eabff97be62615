import Eastwood.MessageWire

/-!
# The two decoders of hexadecimal

Keys come back from text in two ways. `hex2bin` leaves it to libsodium, which
takes digits and nothing else. `hex_to_bin` hands every two characters to
`std::stoi`, and what that does not need it does not look at: a pair is read
if it begins with a digit, whatever the second character is, or if it is a
digit behind a blank or a sign (`stoi16_isSome_iff`).

On text of digits alone the two agree (`hexToBytes_eq_hexPairs`). So
`hex_to_bin` accepts exactly hexadecimal where no pair is read that is not
two digits, or where some other pair is refused anyway
(`acceptsExactlyHex_iff`).
-/

/-! ## Digits -/

/-- A hexadecimal digit. -/
def IsHexDigit (c : Char) : Prop := (hexDigitValue c).isSome

instance : DecidablePred IsHexDigit := fun c => inferInstanceAs (Decidable (hexDigitValue c).isSome)

theorem hexDigitValue_lt {c : Char} {value : ℕ} (h : hexDigitValue c = some value) :
    value < 16 := by
  have htoNat : ∀ {d e : Char}, d ≤ e → d.toNat ≤ e.toNat := fun h => Char.le_def.mp h
  unfold hexDigitValue at h
  split at h
  · rename_i hc
    have hle : c.toNat ≤ 57 := htoNat hc.2
    obtain rfl := Option.some.inj h
    omega
  · split at h
    · rename_i hc
      have hle : c.toNat ≤ 102 := htoNat hc.2
      obtain rfl := Option.some.inj h
      omega
    · split at h
      · rename_i hc
        have hle : c.toNat ≤ 70 := htoNat hc.2
        obtain rfl := Option.some.inj h
        omega
      · cases h

/-- **What a text of digits denotes**: two digits a byte. -/
inductive Denotes : List Char → List UInt8 → Prop
  | nil : Denotes [] []
  | cons {a b : Char} {s : List Char} {high low : ℕ} {bytes : List UInt8} :
      hexDigitValue a = some high → hexDigitValue b = some low → Denotes s bytes →
      Denotes (a :: b :: s) (.ofNat (16 * high + low) :: bytes)

/-- **libsodium reads what is denoted**, and no more. -/
theorem hexPairs_eq_some_iff : ∀ {s : List Char} {bytes : List UInt8},
    hexPairs s = some bytes ↔ Denotes s bytes
  | [], bytes => by
    constructor
    · intro h
      obtain rfl := Option.some.inj h
      exact .nil
    · rintro ⟨⟩
      rfl
  | [c], bytes => iff_of_false nofun nofun
  | a :: b :: s, bytes => by
    rw [hexPairs]
    constructor
    · intro h
      split at h
      · rename_i high low rest ha hb hrest
        obtain rfl := Option.some.inj h
        exact .cons ha hb (hexPairs_eq_some_iff.mp hrest)
      · cases h
    · intro h
      cases h with
      | cons ha hb hs => rw [ha, hb, hexPairs_eq_some_iff.mpr hs]

/-- Text of digits denotes something, if none is left over. -/
theorem exists_denotes_iff : ∀ {s : List Char} {n : ℕ}, s.length = n * 2 →
    ((∃ bytes, Denotes s bytes) ↔ ∀ c ∈ s, IsHexDigit c)
  | [], _, _ => iff_of_true ⟨[], .nil⟩ nofun
  | [c], n, h => absurd h (by simp only [List.length_singleton]; omega)
  | a :: b :: s, n, h => by
    obtain ⟨n, rfl⟩ : ∃ m, n = m + 1 := ⟨n - 1, by simp only [List.length_cons] at h; omega⟩
    have hs : s.length = n * 2 := by simp only [List.length_cons] at h; omega
    rw [List.forall_mem_cons, List.forall_mem_cons, ← exists_denotes_iff hs]
    constructor
    · rintro ⟨_, hdenotes⟩
      cases hdenotes with
      | cons ha hb hrest =>
        exact ⟨Option.isSome_iff_exists.mpr ⟨_, ha⟩, Option.isSome_iff_exists.mpr ⟨_, hb⟩, _, hrest⟩
    · rintro ⟨ha, hb, rest, hrest⟩
      obtain ⟨high, ha⟩ := Option.isSome_iff_exists.mp ha
      obtain ⟨low, hb⟩ := Option.isSome_iff_exists.mp hb
      exact ⟨_, .cons ha hb hrest⟩

/-! ## What `stoi` reads of a pair -/

/-- What `std::stoi` skips before a digit, of two characters: a blank or a
sign. -/
def IsLeading (c : Char) : Prop := isSpace c = true ∨ c = '+' ∨ c = '-'

instance : DecidablePred IsLeading := fun _ => inferInstanceAs (Decidable (_ ∨ _ ∨ _))

/-- A pair that is two digits, -/
def AreDigits (p : Char × Char) : Prop := IsHexDigit p.1 ∧ IsHexDigit p.2

/-- **and a pair that is read**: a digit and anything, or a digit behind a
blank or a sign. -/
def IsRead (p : Char × Char) : Prop := IsHexDigit p.1 ∨ IsLeading p.1 ∧ IsHexDigit p.2

instance : DecidablePred AreDigits := fun _ => inferInstanceAs (Decidable (_ ∧ _))

instance : DecidablePred IsRead := fun _ => inferInstanceAs (Decidable (_ ∨ _))

/-- Too short for a prefix. -/
theorem dropHexPrefix_of_length_le {s : List Char} (h : s.length ≤ 2) : dropHexPrefix s = s := by
  unfold dropHexPrefix
  split
  · simp only [List.length_cons] at h
    omega
  · rfl

/-- A few digits are a small number. -/
theorem foldl_digits_lt {digits : List ℤ} (hlen : digits.length ≤ 2)
    (h : ∀ d ∈ digits, 0 ≤ d ∧ d < 16) :
    0 ≤ digits.foldl (16 * · + ·) 0 ∧ digits.foldl (16 * · + ·) 0 < 256 := by
  match digits, hlen with
  | [], _ => exact ⟨le_rfl, by decide⟩
  | [d], _ =>
    have hd := h d (by simp)
    rw [List.foldl_cons, List.foldl_nil]
    omega
  | [d, e], _ =>
    have hd := h d (by simp)
    have he := h e (by simp)
    rw [List.foldl_cons, List.foldl_cons, List.foldl_nil]
    omega

/-- The digits a text begins with. -/
def leadingDigits (s : List Char) : List ℕ :=
  (s.takeWhile (hexDigitValue · |>.isSome)).filterMap hexDigitValue

theorem leadingDigits_eq_nil_iff {s : List Char} :
    leadingDigits s = [] ↔ ¬ ∃ c ∈ s.head?, IsHexDigit c := by
  cases s with
  | nil => exact iff_of_true rfl (by simp)
  | cons c s =>
    rw [List.head?_cons]
    cases hc : hexDigitValue c <;> simp [leadingDigits, IsHexDigit, hc]

/-- What is left behind the blanks and the sign, if it is short, is the
number of the digits it begins with. -/
theorem stoi16_of_split {s t : List Char} {negative : Bool}
    (h : splitSign ((s.takeWhile (· ≠ '\x00')).dropWhile isSpace) = (negative, t))
    (hlen : t.length ≤ 2) :
    stoi16 s = if leadingDigits t = [] then none
      else some (if negative then -((leadingDigits t).map (↑)).foldl (16 * · + ·) 0
        else ((leadingDigits t).map (↑)).foldl (16 * · + ·) 0) := by
  have hdigits : ∀ d ∈ (leadingDigits t).map ((↑) : ℕ → ℤ), 0 ≤ d ∧ d < 16 := by
    intro d hd
    obtain ⟨digit, hdigit, rfl⟩ := List.mem_map.mp hd
    obtain ⟨c, -, hc⟩ := List.mem_filterMap.mp hdigit
    have hlt := hexDigitValue_lt hc
    omega
  have hshort : ((leadingDigits t).map ((↑) : ℕ → ℤ)).length ≤ 2 := by
    rw [List.length_map]
    exact (List.length_filterMap_le _ _).trans
      ((List.takeWhile_sublist _).length_le.trans hlen)
  have hrange := foldl_digits_lt hshort hdigits
  have hfold : (t.takeWhile (hexDigitValue · |>.isSome)).filterMap hexDigitValue
      = leadingDigits t := rfl
  unfold stoi16
  simp only [h, dropHexPrefix_of_length_le hlen, bind_pure_comp, List.map_eq_map, hfold]
  generalize ((leadingDigits t).map ((↑) : ℕ → ℤ)).foldl (16 * · + ·) 0 = value at hrange ⊢
  split
  · rfl
  · rw [if_neg]
    split <;> omega

/-- The digits come after everything that is skipped. -/
theorem IsHexDigit.le_toNat {c : Char} (h : IsHexDigit c) : 48 ≤ c.toNat := by
  have htoNat : ∀ {d : Char}, d ≤ c → d.toNat ≤ c.toNat := fun h => Char.le_def.mp h
  obtain ⟨value, hvalue⟩ := Option.isSome_iff_exists.mp h
  unfold hexDigitValue at hvalue
  split at hvalue
  · rename_i hc
    exact htoNat hc.1
  · split at hvalue
    · rename_i hc
      exact le_trans (by decide) (htoNat hc.1)
    · split at hvalue
      · rename_i hc
        exact le_trans (by decide) (htoNat hc.1)
      · cases hvalue

theorem IsLeading.toNat_lt {c : Char} (h : IsLeading c) : c.toNat < 48 := by
  obtain hspace | rfl | rfl := h
  · unfold isSpace at hspace
    simp only [Bool.or_eq_true, decide_eq_true_eq, Bool.and_eq_true] at hspace
    obtain rfl | hspace := hspace
    · decide
    · omega
  · decide
  · decide

/-- So a text is read if it begins with a digit behind them, -/
theorem stoi16_isSome_of_split {s t : List Char} {negative : Bool}
    (h : splitSign ((s.takeWhile (· ≠ '\x00')).dropWhile isSpace) = (negative, t))
    (hlen : t.length ≤ 2) : (stoi16 s).isSome ↔ ∃ c ∈ t.head?, IsHexDigit c := by
  rw [stoi16_of_split h hlen, ← not_iff_not, ← leadingDigits_eq_nil_iff]
  split
  · rename_i hnil
    exact iff_of_true Bool.false_ne_true hnil
  · rename_i hne
    exact iff_of_false (fun hnone => hnone rfl) hne

/-- and never if it has none. -/
theorem stoi16_isSome_of_not_digits {s : List Char} (hlen : s.length ≤ 2)
    (h : ∀ c ∈ s, ¬ IsHexDigit c) : ¬ (stoi16 s).isSome := by
  have hsuffix : ∀ u : List Char, (splitSign u).2 <:+ u := by
    intro u
    unfold splitSign
    split
    · exact List.suffix_cons _ _
    · exact List.suffix_cons _ _
    · exact List.suffix_rfl
  have hsub := (hsuffix _).sublist.trans
    ((List.dropWhile_sublist isSpace).trans (List.takeWhile_sublist (· ≠ '\x00') (l := s)))
  rw [stoi16_isSome_of_split (Prod.mk.eta).symm (hsub.length_le.trans hlen)]
  rintro ⟨c, hc, hdigit⟩
  exact h c (hsub.subset (List.mem_of_mem_head? hc)) hdigit

theorem takeWhile_of_ne_null {c : Char} {s : List Char} (h : c ≠ '\x00') :
    (c :: s).takeWhile (· ≠ '\x00') = c :: s.takeWhile (· ≠ '\x00') :=
  List.takeWhile_cons_of_pos (decide_eq_true h)

theorem IsHexDigit.ne {c d : Char} (hc : IsHexDigit c) (hd : ¬ IsHexDigit d) : c ≠ d :=
  fun h => hd (h ▸ hc)

/-- In front of a digit nothing is skipped. -/
theorem splitSign_of_digit {c : Char} {s : List Char} (hc : IsHexDigit c) :
    splitSign ((c :: s).dropWhile isSpace) = (false, c :: s) := by
  have hnotSpace : isSpace c ≠ true := fun h =>
    absurd (IsLeading.toNat_lt (Or.inl h)) (not_lt.mpr hc.le_toNat)
  rw [List.dropWhile_cons_of_neg hnotSpace]
  exact splitSign_of_ne (hc.ne (by decide)) (hc.ne (by decide))

/-- A digit behind another character is read if that character is skipped. -/
theorem stoi16_isSome_of_second {a b : Char} (ha : ¬ IsHexDigit a) (hb : IsHexDigit b) :
    (stoi16 [a, b]).isSome ↔ IsLeading a := by
  have htake : [b].takeWhile (· ≠ '\x00') = [b] := takeWhile_of_ne_null (hb.ne (by decide))
  by_cases hspace : isSpace a = true
  · have hsplit : splitSign (([a, b].takeWhile (· ≠ '\x00')).dropWhile isSpace)
        = (false, [b]) := by
      have hnull : a ≠ '\x00' := by
        rintro rfl
        exact absurd hspace (by decide)
      rw [takeWhile_of_ne_null hnull, htake, List.dropWhile_cons_of_pos hspace,
        splitSign_of_digit hb]
    rw [stoi16_isSome_of_split hsplit (by simp)]
    exact iff_of_true ⟨b, rfl, hb⟩ (Or.inl hspace)
  by_cases hsign : a = '+' ∨ a = '-'
  · have hsplit : splitSign (([a, b].takeWhile (· ≠ '\x00')).dropWhile isSpace)
        = (decide (a = '-'), [b]) := by
      obtain rfl | rfl := hsign
      · rw [takeWhile_of_ne_null (by decide), htake, List.dropWhile_cons_of_neg hspace]
        rfl
      · rw [takeWhile_of_ne_null (by decide), htake, List.dropWhile_cons_of_neg hspace]
        rfl
    rw [stoi16_isSome_of_split hsplit (by simp)]
    exact iff_of_true ⟨b, rfl, hb⟩ (Or.inr hsign)
  -- what is skipped nowhere is read nowhere: the text ends here, or begins with it
  have hlead : ¬ IsLeading a := fun h => h.elim hspace hsign
  by_cases hnull : a = '\x00'
  · subst hnull
    have hsplit : splitSign ((['\x00', b].takeWhile (· ≠ '\x00')).dropWhile isSpace)
        = (false, []) := rfl
    rw [stoi16_isSome_of_split hsplit (by simp)]
    refine iff_of_false ?_ hlead
    rintro ⟨c, hc, -⟩
    cases hc
  · have hsplit : splitSign (([a, b].takeWhile (· ≠ '\x00')).dropWhile isSpace)
        = (false, [a, b]) := by
      rw [takeWhile_of_ne_null hnull, htake, List.dropWhile_cons_of_neg hspace]
      exact splitSign_of_ne (fun h => hsign (Or.inl h)) fun h => hsign (Or.inr h)
    rw [stoi16_isSome_of_split hsplit (by simp)]
    refine iff_of_false ?_ hlead
    rintro ⟨c, hc, hdigit⟩
    obtain rfl := Option.some.inj hc
    exact ha hdigit

/-- **What `std::stoi` reads of a pair.** -/
theorem stoi16_isSome_iff (a b : Char) : (stoi16 [a, b]).isSome ↔ IsRead (a, b) := by
  by_cases ha : IsHexDigit a
  · have hsplit : splitSign (([a, b].takeWhile (· ≠ '\x00')).dropWhile isSpace)
        = (false, a :: [b].takeWhile (· ≠ '\x00')) := by
      rw [takeWhile_of_ne_null (ha.ne (by decide)), splitSign_of_digit ha]
    have hlen : (a :: [b].takeWhile (· ≠ '\x00')).length ≤ 2 :=
      Nat.succ_le_succ (List.takeWhile_sublist _).length_le
    rw [stoi16_isSome_of_split hsplit hlen]
    exact iff_of_true ⟨a, rfl, ha⟩ (Or.inl ha)
  · by_cases hb : IsHexDigit b
    · have hread : IsRead (a, b) ↔ IsLeading a := (or_iff_right ha).trans (and_iff_left hb)
      rw [hread]
      exact stoi16_isSome_of_second ha hb
    · refine iff_of_false (stoi16_isSome_of_not_digits le_rfl ?_) ?_
      · rintro c (_ | ⟨_, _ | ⟨_, ⟨⟩⟩⟩)
        · exact ha
        · exact hb
      · rintro (h | ⟨-, h⟩)
        · exact ha h
        · exact hb h

/-- Two digits are read as the byte they denote. -/
theorem stoi16_of_digits {a b : Char} {high low : ℕ} (ha : hexDigitValue a = some high)
    (hb : hexDigitValue b = some low) : stoi16 [a, b] = some ((16 * high + low : ℕ) : ℤ) := by
  have hdigitA : IsHexDigit a := Option.isSome_iff_exists.mpr ⟨_, ha⟩
  have hdigitB : IsHexDigit b := Option.isSome_iff_exists.mpr ⟨_, hb⟩
  have hsplit : splitSign (([a, b].takeWhile (· ≠ '\x00')).dropWhile isSpace)
      = (false, [a, b]) := by
    rw [takeWhile_of_ne_null (hdigitA.ne (by decide)),
      takeWhile_of_ne_null (hdigitB.ne (by decide))]
    exact splitSign_of_digit hdigitA
  rw [stoi16_of_split hsplit le_rfl]
  have hleading : leadingDigits [a, b] = [high, low] := by
    simp [leadingDigits, ha, hb]
  rw [hleading, if_neg (List.cons_ne_nil _ _)]
  simp

/-! ## The two decoders -/

/-- The pairs of a text. -/
def hexTextPairs : List Char → List (Char × Char)
  | a :: b :: s => (a, b) :: hexTextPairs s
  | _ => []

/-- `hex_to_bin` reads a text if it reads all its pairs. -/
theorem hexToBytes_isSome_iff : ∀ {n : ℕ} {s : List Char}, s.length = n * 2 →
    ((hexToBytes n s).isSome ↔ ∀ p ∈ hexTextPairs s, IsRead p)
  | 0, s, h => by
    obtain rfl := List.eq_nil_of_length_eq_zero (h.trans (zero_mul 2))
    exact iff_of_true rfl nofun
  | n + 1, [], h => absurd h (by simp)
  | n + 1, [c], h => absurd h (by simp only [List.length_singleton]; omega)
  | n + 1, a :: b :: s, h => by
    have hs : s.length = n * 2 := by simp only [List.length_cons] at h; omega
    rw [hexTextPairs, List.forall_mem_cons, ← stoi16_isSome_iff, ← hexToBytes_isSome_iff hs,
      hexToBytes]
    simp only [List.take_succ_cons, List.take_zero, List.drop_succ_cons, List.drop_zero]
    cases stoi16 [a, b] with
    | none => exact iff_of_false Bool.false_ne_true fun h => Bool.false_ne_true h.1
    | some value =>
      cases hexToBytes n s with
      | none => exact iff_of_false Bool.false_ne_true fun h => Bool.false_ne_true h.2
      | some bytes => exact iff_of_true rfl ⟨rfl, rfl⟩

/-- **On digits it reads what is denoted.** -/
theorem hexToBytes_of_denotes {s : List Char} {bytes : List UInt8} (h : Denotes s bytes) {n : ℕ}
    (hn : s.length = n * 2) : hexToBytes n s = some bytes := by
  induction h generalizing n with
  | nil =>
    obtain rfl : n = 0 := by simpa using hn
    rfl
  | @cons a b s high low bytes ha hb _ ih =>
    obtain ⟨n, rfl⟩ : ∃ m, n = m + 1 := ⟨n - 1, by simp only [List.length_cons] at hn; omega⟩
    have hs : s.length = n * 2 := by simp only [List.length_cons] at hn; omega
    have hbyte : UInt8.ofInt ((16 * high + low : ℕ) : ℤ) = .ofNat (16 * high + low) := by
      have hlt : 16 * high + low < 256 := by
        have hhigh := hexDigitValue_lt ha
        have hlow := hexDigitValue_lt hb
        omega
      have hcast := ofInt_toNat (.ofNat (16 * high + low))
      rwa [UInt8.toNat_ofNat', Nat.mod_eq_of_lt hlt] at hcast
    rw [hexToBytes]
    simp only [List.take_succ_cons, List.take_zero, List.drop_succ_cons, List.drop_zero,
      stoi16_of_digits ha hb, ih hs, hbyte]

/-! ## The main result -/

/-- **`hex_to_bin` accepts exactly hexadecimal**: it returns for text of the
right length that is all digits and for nothing else, it returns what the
text denotes, and so does `hex2bin` for text of that length; what `bin2hex`
made is read back. -/
structure AcceptsExactlyHex (s : String) (n : ℕ) : Prop where
  accepts : (hexToBin s n).isSome ↔ s.length = n * 2 ∧ ∀ c ∈ s.toList, IsHexDigit c
  denotes : ∀ bytes, hexToBin s n = some bytes → Denotes s.toList bytes
  agrees : s.length = n * 2 → ∀ bytes, hexToBin s n = some bytes ↔ hex2bin s = .ok bytes
  inverts : ∀ bin : List UInt8, s = bin2hex bin → n = bin.length → hexToBin s n = some bin

/-- Text that is not empty is left to libsodium. -/
theorem hex2bin_eq_ok_iff {s : String} (h : s ≠ "") {bytes : List UInt8} :
    hex2bin s = .ok bytes ↔ Denotes s.toList bytes := by
  rw [hex2bin, if_neg h, ← hexPairs_eq_some_iff]
  cases hexPairs s.toList with
  | none => exact iff_of_false (fun h => by cases h) fun h => by cases h
  | some bytes' =>
    exact ⟨fun h => congrArg some (Except.ok.inj h), fun h => congrArg _ (Option.some.inj h)⟩

/-- The characters of a text are those of its pairs. -/
theorem forall_mem_hexTextPairs {p : Char → Prop} : ∀ {s : List Char} {n : ℕ},
    s.length = n * 2 → ((∀ q ∈ hexTextPairs s, p q.1 ∧ p q.2) ↔ ∀ c ∈ s, p c)
  | [], _, _ => iff_of_true nofun nofun
  | [c], n, h => absurd h (by simp only [List.length_singleton]; omega)
  | a :: b :: s, n, h => by
    obtain ⟨n, rfl⟩ : ∃ m, n = m + 1 := ⟨n - 1, by simp only [List.length_cons] at h; omega⟩
    have hs : s.length = n * 2 := by simp only [List.length_cons] at h; omega
    rw [hexTextPairs, List.forall_mem_cons, List.forall_mem_cons, List.forall_mem_cons,
      forall_mem_hexTextPairs hs, and_assoc]

/-- What `bin2hex` wrote is read back. -/
theorem hexToBin_of_eq_bin2hex {s : String} {n : ℕ} (bin : List UInt8) (hs : s = bin2hex bin)
    (hn : n = bin.length) : hexToBin s n = some bin := by
  subst hs hn
  exact hexToBin_bin2hex bin

/-- Digits are accepted as what they denote. -/
theorem acceptsExactlyHex_of_digits {s : String} {n : ℕ} (hne : s ≠ "")
    (hlen : s.length = n * 2) (hall : ∀ c ∈ s.toList, IsHexDigit c) : AcceptsExactlyHex s n := by
  obtain ⟨bytes, hbytes⟩ := (exists_denotes_iff hlen).mpr hall
  have hbin : hexToBin s n = some bytes := by
    rw [hexToBin, if_neg (not_not.mpr hlen)]
    exact hexToBytes_of_denotes hbytes hlen
  have hvalue : ∀ bytes', hexToBin s n = some bytes' ↔ Denotes s.toList bytes' := by
    intro bytes'
    rw [hbin, ← hexPairs_eq_some_iff, hexPairs_eq_some_iff.mpr hbytes]
  exact ⟨iff_of_true (hbin ▸ rfl) ⟨hlen, hall⟩, fun bytes' h => (hvalue bytes').mp h,
    fun _ bytes' => (hvalue bytes').trans (hex2bin_eq_ok_iff hne).symm, hexToBin_of_eq_bin2hex⟩

/-- Anything else is none, if it is refused. -/
theorem acceptsExactlyHex_of_none {s : String} {n : ℕ} (hnone : hexToBin s n = none)
    (hnot : ¬ (s.length = n * 2 ∧ ∀ c ∈ s.toList, IsHexDigit c))
    (hne : s.length = n * 2 → s ≠ "") : AcceptsExactlyHex s n := by
  have hrefused : ∀ bytes, hexToBin s n ≠ some bytes := by
    rw [hnone]
    exact fun _ => nofun
  refine ⟨iff_of_false (by rw [hnone]; exact Bool.false_ne_true) hnot,
    fun bytes h => absurd h (hrefused bytes), fun hlen bytes => ?_, hexToBin_of_eq_bin2hex⟩
  refine iff_of_false (hrefused bytes) fun h => hnot ⟨hlen, ?_⟩
  exact (exists_denotes_iff hlen).mp ⟨bytes, (hex2bin_eq_ok_iff (hne hlen)).mp h⟩

/-- **When `hex_to_bin` accepts exactly hexadecimal**: the text has not the
length asked for; or it is not empty, which `hex2bin` would refuse, and has a
pair that is not read, or none that is read without being two digits. -/
theorem acceptsExactlyHex_iff (s : String) (n : ℕ) :
    AcceptsExactlyHex s n ↔ s.length ≠ n * 2
      ∨ s ≠ "" ∧ ((∃ p ∈ hexTextPairs s.toList, ¬ IsRead p)
        ∨ ∀ p ∈ hexTextPairs s.toList, IsRead p → AreDigits p) := by
  by_cases hlen : s.length = n * 2
  · have hread : hexToBin s n = hexToBytes n s.toList := if_neg (not_not.mpr hlen)
    have hpairs := hexToBytes_isSome_iff (s := s.toList) hlen
    have hdigits := forall_mem_hexTextPairs (p := IsHexDigit) (s := s.toList) hlen
    rw [or_iff_right (not_not.mpr hlen)]
    constructor
    · intro h
      refine ⟨?_, or_iff_not_imp_left.mpr fun hall => ?_⟩
      · rintro rfl
        obtain rfl : n = 0 := by simpa using hlen
        cases (h.agrees hlen []).mp rfl
      · push Not at hall
        rw [← hpairs, ← hread, h.accepts, ← hdigits] at hall
        exact fun p hp _ => hall.2 p hp
    · rintro ⟨hne, hcond⟩
      by_cases hall : ∀ c ∈ s.toList, IsHexDigit c
      · exact acceptsExactlyHex_of_digits hne hlen hall
      · -- a pair is no pair of digits, so that one is refused
        refine acceptsExactlyHex_of_none ?_ (fun h => hall h.2) fun _ => hne
        rw [← Option.not_isSome_iff_eq_none, hread, hpairs]
        intro hreads
        obtain ⟨p, hp, hrefused⟩ | hstrict := hcond
        · exact hrefused (hreads p hp)
        · exact hall (hdigits.mp fun p hp => hstrict p hp (hreads p hp))
  · refine iff_of_true (acceptsExactlyHex_of_none ?_ (fun h => hlen h.1) fun h => absurd h hlen)
      (Or.inl hlen)
    rw [hexToBin, if_pos hlen]

/-- A key with a sign, a blank and a prefix in it, and something behind a
digit. -/
def lenientKey : String := String.ofList ("+1 20x3g".toList ++ List.replicate 56 '0')

/-- **Where it does not**: all of it is read as part of the key. -/
theorem not_acceptsExactlyHex_lenientKey :
    hexToBin lenientKey 32 = some ([1, 2, 0, 3] ++ List.replicate 28 0)
      ∧ hex2bin lenientKey = .error (.runtimeError "Failed to convert hex to binary")
      ∧ ¬ AcceptsExactlyHex lenientKey 32 := by
  have hread : hexToBin lenientKey 32 = some ([1, 2, 0, 3] ++ List.replicate 28 0) := by
    decide +kernel
  refine ⟨hread, by decide +kernel, fun h => ?_⟩
  obtain ⟨-, hdigits⟩ := h.accepts.mp (by rw [hread]; rfl)
  exact absurd (hdigits '+' (by decide)) (by decide)
