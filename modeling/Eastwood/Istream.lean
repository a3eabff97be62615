import Eastwood.Codec

/-!
# Reads that nobody checks

`std::istream::read` copies what is left of the stream into a field, however
little that is. A short read sets `failbit`, after which nothing more is
copied, and nobody is told of it unless the stream was asked to throw
(`Istream.exceptions`), which a stream is not when it is made.

So a sequence of such reads always goes through. Where the stream stands
after it depends on its length alone (`Istream.after`), and what a read
leaves in a field is the part of the text at its place, followed by what the
field held before where the text is too short (`readAt`, `read_after`).

A `Reader` that stops at a short text is the strict version. Where it gets to
the end the stream does too, with the same fields (`Follows`).
-/

/-- `n` bytes of memory. -/
abbrev Memory (n : ℕ) := { bytes : List UInt8 // bytes.length = n }

/-- **An input stream.** -/
structure Istream (ε : Type) where
  /-- What is left to read. -/
  text : List UInt8
  /-- `failbit`. -/
  failed : Bool
  /-- What a failure throws, if the exceptions mask has `failbit`. -/
  exceptions : Option ε

/-- What is read from a stream. -/
abbrev StreamM (ε α : Type) := StateT (Istream ε) (Except ε) α

variable {ε α β γ δ : Type} {n : ℕ}

namespace Istream

/-- A stream that is made of some bytes throws nothing. -/
def ofBytes (bytes : List UInt8) : Istream ε := ⟨bytes, false, none⟩

/-- `setstate(failbit)`. -/
def setFail (a : α) : StreamM ε α := fun stream =>
  match stream.exceptions with
  | some e => .error e
  | none => .ok (a, { stream with failed := true })

theorem length_short (field : Memory n) {text : List UInt8} (h : ¬ n ≤ text.length) :
    (text ++ field.1.drop text.length).length = n := by
  rw [List.length_append, List.length_drop, field.2]
  omega

/-- **`read`** of `n` bytes into a field: what the field holds afterwards. -/
def read (field : Memory n) : StreamM ε (Memory n) := fun stream =>
  if stream.failed then setFail field stream
  else if h : n ≤ stream.text.length then
    .ok (⟨stream.text.take n, List.length_take_of_le h⟩,
      { stream with text := stream.text.drop n })
  else
    -- what is left is copied all the same
    setFail ⟨stream.text ++ field.1.drop stream.text.length, length_short field h⟩
      { stream with text := [] }

/-! ## Where the reads are -/

/-- The part of a text at a place. -/
def chunk (s : List UInt8) (k n : ℕ) : List UInt8 := (s.drop k).take n

theorem length_chunk (s : List UInt8) (k n : ℕ) :
    (chunk s k n).length = min n (s.length - k) := by
  rw [chunk, List.length_take, List.length_drop]

theorem length_chunk_of_le {s : List UInt8} {k n : ℕ} (h : k + n ≤ s.length) :
    (chunk s k n).length = n := by
  rw [length_chunk]
  omega

/-- A part and the one behind it. -/
theorem chunk_append_chunk {k m j : ℕ} (h : k + m = j) (s : List UInt8) (n : ℕ) :
    chunk s k m ++ chunk s j n = chunk s k (m + n) := by
  rw [chunk, chunk, chunk, List.take_add, List.drop_drop, h]

theorem chunk_zero_length (s : List UInt8) : chunk s 0 s.length = s := List.take_length

/-- The front part of a text. -/
theorem chunk_append_left {s post : List UInt8} {n : ℕ} (hn : s.length = n) :
    chunk (s ++ post) 0 n = s := List.take_left' hn

/-- Behind a front part the places begin anew. -/
theorem chunk_append_right {pre : List UInt8} {k : ℕ} (hk : pre.length = k) (s : List UInt8)
    (i n : ℕ) : chunk (pre ++ s) (k + i) n = chunk s i n := by
  rw [chunk, chunk, ← List.drop_drop, List.drop_left' hk]

/-- The parts of `w` bytes in a row. -/
theorem flatMap_range_chunk (s : List UInt8) (k w n : ℕ) :
    (List.range n).flatMap (fun i => chunk s (k + w * i) w) = chunk s k (w * n) := by
  induction n with
  | zero => rw [Nat.mul_zero, chunk, List.take_zero]; rfl
  | succ n ih =>
    rw [List.range_succ, List.flatMap_append, ih, List.flatMap_singleton, chunk_append_chunk rfl]
    rfl

/-- **What a read leaves in a field** at place `k` of the text `s`. -/
def readAt (s : List UInt8) (k : ℕ) (field : Memory n) : Memory n :=
  ⟨chunk s k n ++ field.1.drop (s.length - k), by
    rw [List.length_append, length_chunk, List.length_drop, field.2]
    omega⟩

/-- If the text goes on so far, that part of it. -/
theorem readAt_of_le {s : List UInt8} {k : ℕ} (h : k + n ≤ s.length) (field : Memory n) :
    (readAt s k field).1 = chunk s k n := by
  have hdrop : field.1.drop (s.length - k) = [] :=
    List.drop_eq_nil_of_le (by rw [field.2]; omega)
  show chunk s k n ++ field.1.drop (s.length - k) = chunk s k n
  rw [hdrop, List.append_nil]

/-- **Where a stream over `s` stands** after reads of `k` bytes. -/
def after (s : List UInt8) (k : ℕ) : Istream ε := ⟨s.drop k, decide (s.length < k), none⟩

theorem ofBytes_eq_after (s : List UInt8) : (ofBytes s : Istream ε) = after s 0 := rfl

/-- What is there is copied, -/
theorem read_after_of_le {s : List UInt8} {k : ℕ} (h : k + n ≤ s.length) (field : Memory n) :
    (read field : StreamM ε (Memory n)) (after s k) = .ok (readAt s k field, after s (k + n)) := by
  have hle : n ≤ (s.drop k).length := by
    rw [List.length_drop]
    omega
  have hread : readAt s k field = ⟨(s.drop k).take n, List.length_take_of_le hle⟩ :=
    Subtype.ext (readAt_of_le h field)
  have hfirst : (after s k : Istream ε) = ⟨s.drop k, false, none⟩ := by
    rw [after, decide_eq_false (by omega)]
  have hlast : (after s (k + n) : Istream ε) = ⟨(s.drop k).drop n, false, none⟩ := by
    rw [after, decide_eq_false (by omega), List.drop_drop]
  rw [hfirst, hlast, hread, read, if_neg Bool.false_ne_true, dif_pos hle]

/-- what is too little is copied all the same, -/
theorem read_after_short {s : List UInt8} {k : ℕ} (hk : k ≤ s.length) (hn : s.length < k + n)
    (field : Memory n) :
    (read field : StreamM ε (Memory n)) (after s k) = .ok (readAt s k field, after s (k + n)) := by
  have hshort : ¬ n ≤ (s.drop k).length := by
    rw [List.length_drop]
    omega
  have hread : readAt s k field
      = ⟨s.drop k ++ field.1.drop (s.drop k).length, length_short field hshort⟩ := by
    apply Subtype.ext
    show (s.drop k).take n ++ field.1.drop (s.length - k)
      = s.drop k ++ field.1.drop (s.drop k).length
    rw [List.take_of_length_le (not_le.mp hshort).le, List.length_drop]
  have hfirst : (after s k : Istream ε) = ⟨s.drop k, false, none⟩ := by
    rw [after, decide_eq_false (by omega)]
  have hlast : (after s (k + n) : Istream ε) = ⟨[], true, none⟩ := by
    rw [after, decide_eq_true hn, List.drop_eq_nil_of_le hn.le]
  rw [hfirst, hlast, hread, read, if_neg Bool.false_ne_true, dif_neg hshort]
  rfl

/-- and after that nothing is. -/
theorem read_after_end {s : List UInt8} {k : ℕ} (hk : s.length < k) (field : Memory n) :
    (read field : StreamM ε (Memory n)) (after s k) = .ok (readAt s k field, after s (k + n)) := by
  have hread : readAt s k field = field := by
    apply Subtype.ext
    show (s.drop k).take n ++ field.1.drop (s.length - k) = field.1
    rw [List.drop_eq_nil_of_le hk.le, List.take_nil, Nat.sub_eq_zero_of_le hk.le]
    rfl
  have hfirst : (after s k : Istream ε) = ⟨[], true, none⟩ := by
    rw [after, decide_eq_true hk, List.drop_eq_nil_of_le hk.le]
  have hlast : (after s (k + n) : Istream ε) = ⟨[], true, none⟩ := by
    rw [after, decide_eq_true (by omega), List.drop_eq_nil_of_le (by omega)]
  rw [hfirst, hlast, hread]
  rfl

/-- **A read never stops.** -/
theorem read_after (s : List UInt8) (k : ℕ) (field : Memory n) :
    (read field : StreamM ε (Memory n)) (after s k) = .ok (readAt s k field, after s (k + n)) := by
  by_cases hk : k ≤ s.length
  · by_cases hn : k + n ≤ s.length
    · exact read_after_of_le hn field
    · exact read_after_short hk (not_le.mp hn) field
  · exact read_after_end (not_le.mp hk) field

/-- And what comes next goes on from there. -/
theorem read_bind_after (s : List UInt8) (k : ℕ) (field : Memory n)
    (next : Memory n → StreamM ε β) :
    (read field >>= next) (after s k) = next (readAt s k field) (after s (k + n)) := by
  show (read field (after s k)) >>= (fun p => next p.1 p.2) = _
  rw [read_after]
  rfl

end Istream

/-! ## The strict reader -/

/-- **The reads of a stream follow a reader**: where the reader gets to the
end of what it reads, the stream does, and what they made is related. -/
def Follows (m : Reader UInt8 α) (m' : StreamM ε β) (R : α → β → Prop) : Prop :=
  ∀ text a rest, m text = some (a, rest) →
    ∃ b, m' (Istream.ofBytes text) = .ok (b, Istream.ofBytes rest) ∧ R a b

namespace Follows

variable {R : α → β → Prop} {m : Reader UInt8 α} {m' : StreamM ε β}

theorem pure {a : α} {b : β} (h : R a b) :
    Follows (Pure.pure a : Reader UInt8 α) (Pure.pure b : StreamM ε β) R := by
  intro text a' rest ha
  obtain ⟨rfl, rfl⟩ := Prod.mk.inj (Option.some.inj ha)
  exact ⟨b, rfl, h⟩

/-- **One after the other.** -/
theorem bind {k : α → Reader UInt8 γ} {k' : β → StreamM ε δ} {Q : γ → δ → Prop}
    (hm : Follows m m' R) (hk : ∀ a b, R a b → Follows (k a) (k' b) Q) :
    Follows (m >>= k) (m' >>= k') Q := by
  intro text c rest hc
  obtain ⟨⟨a, between⟩, ha, hc⟩ := Option.bind_eq_some_iff.mp hc
  obtain ⟨b, hb, hab⟩ := hm text a between ha
  obtain ⟨d, hd, hcd⟩ := hk a b hab between c rest hc
  refine ⟨d, ?_, hcd⟩
  show m' (Istream.ofBytes text) >>= (fun p => k' p.1 p.2) = _
  rw [hb]
  exact hd

/-- What the reader makes of its bytes at the end. -/
theorem map {f : α → γ} (hm : Follows m m' R) :
    Follows (m >>= fun a => Pure.pure (f a)) m' (fun c b => ∃ a, R a b ∧ c = f a) := by
  intro text c rest hc
  obtain ⟨⟨a, between⟩, ha, hc⟩ := Option.bind_eq_some_iff.mp hc
  obtain ⟨rfl, rfl⟩ := Prod.mk.inj (Option.some.inj hc)
  obtain ⟨b, hb, hab⟩ := hm text a between ha
  exact ⟨b, hb, a, hab, rfl⟩

/-- And what the stream makes of them. -/
theorem map_stream {f : β → δ} {Q : α → δ → Prop} (hm : Follows m m' R)
    (hQ : ∀ a b, R a b → Q a (f b)) :
    Follows m (m' >>= fun b => Pure.pure (f b)) Q := by
  intro text a rest ha
  obtain ⟨b, hb, hab⟩ := hm text a rest ha
  refine ⟨f b, ?_, hQ a b hab⟩
  show m' (Istream.ofBytes text) >>= (fun p => (Pure.pure (f p.1) : StreamM ε δ) p.2) = _
  rw [hb]
  rfl

theorem interpret {f : α → Option γ} (hm : Follows m m' R) :
    Follows (m.interpret f) m' (fun c b => ∃ a, R a b ∧ f a = some c) := by
  intro text c rest hc
  rw [Reader.interpret] at hc
  split at hc
  · cases hc
  · rename_i a between ha
    obtain ⟨c', hc', hpair⟩ := Option.map_eq_some_iff.mp hc
    obtain ⟨rfl, rfl⟩ := Prod.mk.inj hpair
    obtain ⟨b, hb, hab⟩ := hm text a between ha
    exact ⟨b, hb, a, hab, hc'⟩

/-- A block of bytes is read into any field. -/
theorem read (field : Memory n) :
    Follows (Reader.block n) (Istream.read field : StreamM ε (Memory n))
      (fun bytes b => bytes = b.1) := by
  intro text bytes rest h
  rw [Reader.block] at h
  split at h
  · rename_i hle
    obtain ⟨rfl, rfl⟩ := Prod.mk.inj (Option.some.inj h)
    refine ⟨⟨text.take n, List.length_take_of_le hle⟩, ?_, rfl⟩
    rw [Istream.ofBytes, Istream.read, if_neg Bool.false_ne_true]
    exact dif_pos hle
  · cases h

end Follows
