import Mathlib.Algebra.Order.Ring.Nat
import Mathlib.Data.List.Basic

/-!
# Writing and reading back

A writer puts fields one after the other, and a reader written apart from it
takes them off the front of what it is given, or finds that there is too
little left. That the two agree is a statement about every field by itself:
the reader of a field, before whatever text, takes off what the writer put
there and no more (`Reads`). It passes to fields in a row (`Reads.bind`), to
fields made of others (`Reads.map`), and to a loop that reads one item after
the other into what it has so far (`Reads.counted`).

Numbers are written in a fixed number of bytes, the lowest first. One that
does not fit loses its upper part, and is exact below the bound
(`ofLittleEndian_littleEndian`, `signed_littleEndian`).
-/

variable {τ α β γ : Type}

/-! ## Numbers -/

/-- The lowest `width` bytes of a number. -/
def littleEndian : ℕ → ℕ → List UInt8
  | 0, _ => []
  | width + 1, n => UInt8.ofNat (n % 256) :: littleEndian width (n / 256)

/-- The number of some bytes. -/
def ofLittleEndian : List UInt8 → ℕ
  | [] => 0
  | b :: bytes => b.toNat + 256 * ofLittleEndian bytes

@[simp] theorem length_littleEndian (width n : ℕ) : (littleEndian width n).length = width := by
  induction width generalizing n with
  | zero => rfl
  | succ width ih => rw [littleEndian, List.length_cons, ih]

/-- What does not fit is cut off, -/
theorem ofLittleEndian_littleEndian_mod (width n : ℕ) :
    ofLittleEndian (littleEndian width n) = n % 256 ^ width := by
  induction width generalizing n with
  | zero => rw [pow_zero, Nat.mod_one]; rfl
  | succ width ih =>
    have hbyte : (UInt8.ofNat (n % 256)).toNat = n % 256 :=
      UInt8.toNat_ofNat_of_lt' (Nat.mod_lt n (by decide))
    rw [littleEndian, ofLittleEndian, ih, hbyte, pow_succ', Nat.mod_mul]

/-- and what fits is read. -/
theorem ofLittleEndian_littleEndian {width n : ℕ} (h : n < 256 ^ width) :
    ofLittleEndian (littleEndian width n) = n := by
  rw [ofLittleEndian_littleEndian_mod, Nat.mod_eq_of_lt h]

/-- The other way round, bytes are those of their number. -/
theorem littleEndian_ofLittleEndian (bytes : List UInt8) :
    littleEndian bytes.length (ofLittleEndian bytes) = bytes := by
  induction bytes with
  | nil => rfl
  | cons b bytes ih =>
    have hlow : (b.toNat + 256 * ofLittleEndian bytes) % 256 = b.toNat := by
      have := b.toNat_lt
      omega
    have hhigh : (b.toNat + 256 * ofLittleEndian bytes) / 256 = ofLittleEndian bytes := by
      have := b.toNat_lt
      omega
    rw [List.length_cons, ofLittleEndian, littleEndian, hlow, hhigh, ih, UInt8.ofNat_toNat]

/-- The bytes of an integer in two's complement. -/
def signedLittleEndian (width : ℕ) (value : ℤ) : List UInt8 :=
  littleEndian width (value % (256 ^ width : ℕ)).toNat

/-- The integer of some bytes. -/
def ofSignedLittleEndian (bytes : List UInt8) : ℤ :=
  (ofLittleEndian bytes : ℤ).bmod (256 ^ bytes.length)

@[simp] theorem length_signedLittleEndian (width : ℕ) (value : ℤ) :
    (signedLittleEndian width value).length = width := length_littleEndian ..

/-- An integer is read up to what fits. -/
theorem ofSigned_signedLittleEndian (width : ℕ) (value : ℤ) :
    ofSignedLittleEndian (signedLittleEndian width value) = value.bmod (256 ^ width) := by
  have hpos : (0 : ℤ) < (256 ^ width : ℕ) := Int.natCast_pos.mpr (Nat.pow_pos (by decide))
  have hnonneg : 0 ≤ value % (256 ^ width : ℕ) := Int.emod_nonneg _ hpos.ne'
  have hfits : (value % (256 ^ width : ℕ)).toNat < 256 ^ width := by
    have hlt := Int.emod_lt_of_pos value hpos
    omega
  rw [ofSignedLittleEndian, length_signedLittleEndian, signedLittleEndian,
    ofLittleEndian_littleEndian hfits, Int.toNat_of_nonneg hnonneg, Int.emod_bmod]

theorem ofLittleEndian_lt (bytes : List UInt8) : ofLittleEndian bytes < 256 ^ bytes.length := by
  induction bytes with
  | nil => exact Nat.one_pos
  | cons b bytes ih =>
    have := b.toNat_lt
    rw [ofLittleEndian, List.length_cons, pow_succ']
    omega

/-- And bytes are those of their integer. -/
theorem signedLittleEndian_ofSigned (bytes : List UInt8) :
    signedLittleEndian bytes.length (ofSignedLittleEndian bytes) = bytes := by
  have hlt : (ofLittleEndian bytes : ℤ) < (256 ^ bytes.length : ℕ) :=
    Int.ofNat_lt.mpr (ofLittleEndian_lt bytes)
  rw [signedLittleEndian, ofSignedLittleEndian, Int.bmod_emod,
    Int.emod_eq_of_lt (Int.natCast_nonneg _) hlt, Int.toNat_natCast, littleEndian_ofLittleEndian]

/-! ## Readers -/

/-- **A reader**: what it makes of the front of a text, and what it leaves. -/
abbrev Reader (τ α : Type) := StateT (List τ) Option α

namespace Reader

/-- The next `n` items, if there are so many. -/
def block (n : ℕ) : Reader τ (List τ) := fun text =>
  if n ≤ text.length then some (text.take n, text.drop n) else none

/-- What is made of a value, if anything is. -/
def interpret (f : α → Option β) (m : Reader τ α) : Reader τ β := fun text =>
  match m text with
  | none => none
  | some (a, rest) => (f a).map fun b => (b, rest)

/-- `n` rounds of a loop. -/
def counted (round : β → Reader τ β) : ℕ → β → Reader τ β
  | 0, b => pure b
  | n + 1, b => round b >>= counted round n

/-- What is read from a text, whatever is left of it. -/
def ofText (m : Reader τ α) (text : List τ) : Option α := (m text).map Prod.fst

end Reader

/-- **It reads `text` as `a`**, and leaves what follows. -/
def Reads (m : Reader τ α) (text : List τ) (a : α) : Prop :=
  ∀ rest, m (text ++ rest) = some (a, rest)

namespace Reads

variable {m : Reader τ α} {text text' : List τ} {a : α}

theorem pure (a : α) : Reads (Pure.pure a : Reader τ α) [] a := fun _ => rfl

/-- **Fields in a row.** -/
theorem bind {k : α → Reader τ β} {b : β} (hm : Reads m text a) (hk : Reads (k a) text' b) :
    Reads (m >>= k) (text ++ text') b := by
  intro rest
  show (m (text ++ text' ++ rest)).bind (fun p => k p.1 p.2) = _
  rw [List.append_assoc, hm]
  exact hk rest

/-- The last field of a record. -/
theorem map {f : α → β} (hm : Reads m text a) :
    Reads (m >>= fun a => Pure.pure (f a)) text (f a) := by
  have h := hm.bind (k := fun a => Pure.pure (f a)) (pure (f a))
  rwa [List.append_nil] at h

theorem block {n : ℕ} (h : text.length = n) : Reads (Reader.block n) text text := by
  intro rest
  have hle : n ≤ (text ++ rest).length := by
    rw [List.length_append, h]
    exact Nat.le_add_right ..
  rw [Reader.block, if_pos hle, List.take_left' h, List.drop_left' h]

theorem interpret {f : α → Option β} {b : β} (hm : Reads m text a) (hf : f a = some b) :
    Reads (m.interpret f) text b := by
  intro rest
  rw [Reader.interpret, hm rest]
  show (f a).map _ = _
  rw [hf]
  rfl

/-- **A loop** over what was written item by item: every round takes in one
item, as `f` does. -/
theorem counted {ι : Type} {round : β → Reader τ β} {item : ι → List τ} {f : β → ι → β}
    (items : List ι) (b : β) (h : ∀ i ∈ items, ∀ b, Reads (round b) (item i) (f b i)) :
    Reads (Reader.counted round items.length b) (items.flatMap item) (items.foldl f b) := by
  induction items generalizing b with
  | nil => exact pure b
  | cons i items ih =>
    rw [List.flatMap_cons]
    refine (h i List.mem_cons_self b).bind (ih (f b i) ?_)
    exact fun i' hi' => h i' (List.mem_cons_of_mem i hi')

/-- What is read from the whole of a text. -/
theorem ofText (hm : Reads m text a) : m.ofText text = some a := by
  have h := hm []
  rw [List.append_nil] at h
  rw [Reader.ofText, h]
  rfl

end Reads
