import Eastwood.Istream
import Eastwood.Serialise

/-!
# A ratchet from any bytes

`NewRatchet(serialised_ratchet)` reads its fields from a string stream, none
of the reads is checked, and what is behind the last one is not looked at. A
text that is too short leaves the fields behind its end as they were in
memory, which the language does not say: it is an argument here
(`Indeterminate`). The count of the kept-back keys is one of these fields, and
so many rounds the loop makes.

On a text that has all its fields that is the `NewRatchet.deserialise` of the
format (`ofSerialised_ratchet`). On every other it makes a ratchet as well
(`ofSerialised_eq`): it never throws, and the `catch` of
`load_ratchets_from_db` is for nothing. So the texts on which the constructor
keeps to what `serialise` writes are those that `serialise` writes, and which
these are can be seen from the bytes (`WellFormed`, `onlySerialised_iff`).
-/

open Istream

/-- **A ratchet in memory**, as its bytes are after `deserialise`. -/
structure RatchetBytes where
  rootKey : Key
  localDhPublic : Key
  localDhPriv : Key
  remoteDhPublic : Key
  sendKey : Key
  sendIndex : Memory 4
  receiveKey : Key
  receiveIndex : Memory 4
  /-- The assignments to `skipped_keys` in order, one in each round of the
  loop. -/
  assigned : List (Σ _ : ℤ, Key)
  dueToSendNewDh : Memory 1
  reversed : Memory 1
  prevChainLength : Memory 4
  deriving DecidableEq

/-- **What the fields and the local variables hold** before anything is read
into them. -/
structure Indeterminate where
  rootKey : Key
  localDhPublic : Key
  priv : Key
  remoteDhPublic : Key
  sendKey : Key
  receiveKey : Key
  skippedCount : Memory 4
  /-- `key`, in each round. -/
  key : ℕ → Memory 4
  dueToSendNewDh : Memory 1
  reversed : Memory 1
  prevChainLength : Memory 4

namespace RatchetBytes

/-- The initial `index` of a chain. -/
def initialIndex : Memory 4 := ⟨intBytes 0, length_signedLittleEndian 4 0⟩

/-- The loop over the kept-back keys: `n` rounds from the `i`-th. -/
def readSkippedKeys (key : ℕ → Memory 4) : ℕ → ℕ → StreamM Fault (List (Σ _ : ℤ, Key))
  | _, 0 => pure []
  | i, n + 1 => do
    let key' ← read (key i)
    let val ← read (0 : Key)
    let assigned ← readSkippedKeys key (i + 1) n
    return ⟨ofSignedLittleEndian key'.1, val⟩ :: assigned

/-- **`deserialise`.** -/
def deserialise (m : Indeterminate) : StreamM Fault RatchetBytes := do
  let rootKey ← read m.rootKey
  let localDhPublic ← read m.localDhPublic
  let priv ← read m.priv
  let remoteDhPublic ← read m.remoteDhPublic
  let sendKey ← read m.sendKey
  let sendIndex ← read initialIndex
  let receiveKey ← read m.receiveKey
  let receiveIndex ← read initialIndex
  let skippedCount ← read m.skippedCount
  let assigned ← readSkippedKeys m.key 0 (ofLittleEndian skippedCount.1)
  let dueToSendNewDh ← read m.dueToSendNewDh
  let reversed ← read m.reversed
  let prevChainLength ← read m.prevChainLength
  return {
    rootKey := rootKey
    localDhPublic := localDhPublic
    localDhPriv := priv
    remoteDhPublic := remoteDhPublic
    sendKey := sendKey
    sendIndex := sendIndex
    receiveKey := receiveKey
    receiveIndex := receiveIndex
    assigned := assigned
    dueToSendNewDh := dueToSendNewDh
    reversed := reversed
    prevChainLength := prevChainLength }

/-- The constructor that is given serialised bytes. -/
def ofSerialised (m : Indeterminate) (serialisedRatchet : List UInt8) :
    Except Fault RatchetBytes :=
  (deserialise m (Istream.ofBytes serialisedRatchet)).map Prod.fst

/-- The ratchet the bytes are, if its two `bool`s are. -/
def ratchet (b : RatchetBytes) : Option (NewRatchet Key) := do
  let dueToSendNewDh ← boolOfBytes b.dueToSendNewDh.1
  let reversed ← boolOfBytes b.reversed.1
  return {
    reversed := reversed
    dueToSendNewDh := dueToSendNewDh
    rootKey := b.rootKey
    sendChain := ⟨ofSignedLittleEndian b.sendIndex.1, b.sendKey⟩
    receiveChain := ⟨ofSignedLittleEndian b.receiveIndex.1, b.receiveKey⟩
    localDhPublic := b.localDhPublic
    localDhPriv := b.localDhPriv
    remoteDhPublic := b.remoteDhPublic
    skippedKeys := b.assigned.foldl (fun sk pair => sk.insert pair.1 pair.2) ∅
    prevChainLength := ofSignedLittleEndian b.prevChainLength.1 }

/-! ## What is made of a text -/

/-- **The rounds of the loop**: the count, where the text has it; where it
ends before, what memory holds. -/
def rounds (m : Indeterminate) (s : List UInt8) : ℕ :=
  ofLittleEndian (readAt s 200 m.skippedCount).1

/-- What the loop assigns, its `n` rounds from the `i`-th reading from place
`204 + 36 * i` on. -/
theorem readSkippedKeys_after (key : ℕ → Memory 4) (s : List UInt8) (i n : ℕ) :
    readSkippedKeys key i n (after s (204 + 36 * i))
      = .ok ((List.range' i n).map fun j =>
          ⟨ofSignedLittleEndian (readAt s (204 + 36 * j) (key j)).1,
            readAt s (208 + 36 * j) (0 : Key)⟩, after s (204 + 36 * (i + n))) := by
  induction n generalizing i with
  | zero => rfl
  | succ n ih =>
    rw [readSkippedKeys, read_bind_after, read_bind_after]
    have hval : 204 + 36 * i + 4 = 208 + 36 * i := by omega
    have hnext : 208 + 36 * i + 32 = 204 + 36 * (i + 1) := by omega
    have hlast : i + 1 + n = i + (n + 1) := by omega
    rw [hval, hnext]
    show readSkippedKeys key (i + 1) n (after s (204 + 36 * (i + 1))) >>= _ = _
    rw [ih, hlast]
    rfl

/-- **Any text makes a ratchet**, field by field from its places. -/
theorem ofSerialised_eq (m : Indeterminate) (s : List UInt8) :
    ofSerialised m s = .ok {
      rootKey := readAt s 0 m.rootKey
      localDhPublic := readAt s 32 m.localDhPublic
      localDhPriv := readAt s 64 m.priv
      remoteDhPublic := readAt s 96 m.remoteDhPublic
      sendKey := readAt s 128 m.sendKey
      sendIndex := readAt s 160 initialIndex
      receiveKey := readAt s 164 m.receiveKey
      receiveIndex := readAt s 196 initialIndex
      assigned := (List.range' 0 (rounds m s)).map fun j =>
        ⟨ofSignedLittleEndian (readAt s (204 + 36 * j) (m.key j)).1,
          readAt s (208 + 36 * j) (0 : Key)⟩
      dueToSendNewDh := readAt s (204 + 36 * rounds m s) m.dueToSendNewDh
      reversed := readAt s (205 + 36 * rounds m s) m.reversed
      prevChainLength := readAt s (206 + 36 * rounds m s) m.prevChainLength } := by
  have hloop : ∀ next : List (Σ _ : ℤ, Key) → StreamM Fault RatchetBytes,
      (readSkippedKeys m.key 0 (rounds m s) >>= next) (after s 204)
        = next ((List.range' 0 (rounds m s)).map fun j =>
            ⟨ofSignedLittleEndian (readAt s (204 + 36 * j) (m.key j)).1,
              readAt s (208 + 36 * j) (0 : Key)⟩) (after s (204 + 36 * rounds m s)) := by
    intro next
    have h := readSkippedKeys_after m.key s 0 (rounds m s)
    rw [Nat.zero_add] at h
    show readSkippedKeys m.key 0 (rounds m s) (after s 204) >>= (fun p => next p.1 p.2) = _
    rw [show after s 204 = after s (204 + 36 * 0) from rfl, h]
    rfl
  rw [ofSerialised, deserialise, ofBytes_eq_after]
  -- up to the count
  rw [read_bind_after, read_bind_after, read_bind_after, read_bind_after, read_bind_after,
    read_bind_after, read_bind_after, read_bind_after, read_bind_after]
  refine congrArg (Except.map Prod.fst) (hloop _) |>.trans ?_
  rw [read_bind_after, read_bind_after, read_bind_after]
  have hreversed : 204 + 36 * rounds m s + 1 = 205 + 36 * rounds m s := by omega
  have hprev : 205 + 36 * rounds m s + 1 = 206 + 36 * rounds m s := by omega
  rw [hreversed, hprev]
  rfl

/-! ## Texts that have all fields -/

theorem follows_readKey (field : Key) :
    Follows readKey (read field : StreamM Fault Key) (fun k b => k = b) := by
  intro text k rest h
  obtain ⟨b, hb, bytes, hbytes, rfl⟩ := (Follows.read field).map text k rest h
  exact ⟨b, hb, by rw [hbytes, Key.copy_val]⟩

theorem follows_readInt (field : Memory 4) :
    Follows readInt (read field : StreamM Fault (Memory 4))
      (fun value b => value = ofSignedLittleEndian b.1) := by
  intro text value rest h
  obtain ⟨b, hb, bytes, hbytes, rfl⟩ := (Follows.read field).map text value rest h
  exact ⟨b, hb, by rw [hbytes]⟩

theorem follows_readUint32 (field : Memory 4) :
    Follows readUint32 (read field : StreamM Fault (Memory 4))
      (fun n b => n = ofLittleEndian b.1) := by
  intro text n rest h
  obtain ⟨b, hb, bytes, hbytes, rfl⟩ := (Follows.read field).map text n rest h
  exact ⟨b, hb, by rw [hbytes]⟩

theorem follows_readBool (field : Memory 1) :
    Follows readBool (read field : StreamM Fault (Memory 1))
      (fun flag b => boolOfBytes b.1 = some flag) := by
  intro text flag rest h
  obtain ⟨b, hb, bytes, rfl, hflag⟩ := (Follows.read field).interpret text flag rest h
  exact ⟨b, hb, hflag⟩

/-- The loop assigns what the reader puts into the map. -/
theorem follows_readSkippedKeys (key : ℕ → Memory 4) (n i : ℕ) (sk : Finmap fun _ : ℤ => Key) :
    Follows (Reader.counted NewRatchet.readSkippedKey n sk) (readSkippedKeys key i n)
      (fun sk' assigned => assigned.foldl (fun sk pair => sk.insert pair.1 pair.2) sk = sk') := by
  induction n generalizing i sk with
  | zero => exact .pure rfl
  | succ n ih =>
    rw [Reader.counted, NewRatchet.readSkippedKey, bind_assoc, readSkippedKeys]
    refine (follows_readInt _).bind fun key' b hkey => ?_
    subst hkey
    rw [bind_assoc]
    refine (follows_readKey _).bind fun val b' hval => ?_
    subst hval
    rw [pure_bind]
    exact (ih (i + 1) _).map_stream fun sk' assigned h => h

/-- **The format is read**: what the reader of the format makes of a text the
constructor makes of it, whatever is in memory before. -/
theorem follows_deserialise (m : Indeterminate) :
    Follows NewRatchet.deserialise (deserialise m) (fun r b => b.ratchet = some r) := by
  rw [NewRatchet.deserialise, deserialise]
  refine (follows_readKey _).bind fun rootKey _ h => h ▸ ?_
  refine (follows_readKey _).bind fun localDhPublic _ h => h ▸ ?_
  refine (follows_readKey _).bind fun priv _ h => h ▸ ?_
  refine (follows_readKey _).bind fun remoteDhPublic _ h => h ▸ ?_
  refine (follows_readKey _).bind fun sendKey _ h => h ▸ ?_
  refine (follows_readInt _).bind fun sendIndex _ hsend => ?_
  refine (follows_readKey _).bind fun receiveKey _ h => h ▸ ?_
  refine (follows_readInt _).bind fun receiveIndex _ hreceive => ?_
  refine (follows_readUint32 _).bind fun skippedCount _ h => h ▸ ?_
  refine (follows_readSkippedKeys m.key _ 0 ∅).bind fun skippedKeys _ hsk => ?_
  refine (follows_readBool _).bind fun dueToSendNewDh _ hdue => ?_
  refine (follows_readBool _).bind fun reversed _ hreversed => ?_
  refine (follows_readInt _).bind fun prevChainLength _ hprev => .pure ?_
  simp only [ratchet, hdue, hreversed, hsend, hreceive, hsk, hprev]
  rfl

/-- **On a text of the format the two constructors agree.** -/
theorem ofSerialised_ratchet {m : Indeterminate} {s : List UInt8} {r : NewRatchet Key}
    (h : NewRatchet.ofSerialised s = some r) :
    ∃ b, ofSerialised m s = .ok b ∧ b.ratchet = some r := by
  obtain ⟨⟨a, rest⟩, hread, rfl⟩ := Option.map_eq_some_iff.mp h
  obtain ⟨b, hb, hratchet⟩ := follows_deserialise m s a rest hread
  refine ⟨b, ?_, hratchet⟩
  rw [ofSerialised, hb]
  rfl

/-! ## What `serialise` writes -/

/-- **The bytes of a ratchet with `n` kept-back keys.** -/
structure WellFormed (s : List UInt8) (n : ℕ) : Prop where
  length : s.length = 210 + 36 * n
  /-- The count is that of the entries, as a `uint32_t`. -/
  count : chunk s 200 4 = uint32Bytes n
  /-- No index has two entries. -/
  keys : ∀ i < n, ∀ j < n, chunk s (204 + 36 * i) 4 = chunk s (204 + 36 * j) 4 → i = j
  dueToSendNewDh : (boolOfBytes (chunk s (204 + 36 * n) 1)).isSome
  reversed : (boolOfBytes (chunk s (205 + 36 * n) 1)).isSome

/-- **A text that `serialise` writes**, of some ratchet. -/
def Serialised (s : List UInt8) : Prop :=
  ∃ (r : NewRatchet Key) (m : r.InMemory), m.serialise = s

theorem boolOfBytes_boolBytes (flag : Bool) : boolOfBytes (boolBytes flag) = some flag := by
  cases flag <;> rfl

theorem boolBytes_of_boolOfBytes {bytes : List UInt8} {flag : Bool}
    (h : boolOfBytes bytes = some flag) : boolBytes flag = bytes := by
  unfold boolOfBytes at h
  split at h
  · rw [← Option.some.inj h]
    rfl
  · rw [← Option.some.inj h]
    rfl
  · cases h

theorem length_intBytes (value : ℤ) : (intBytes value).length = 4 :=
  length_signedLittleEndian 4 value

theorem ofSigned_intBytes {value : ℤ} (h : IsInt value) :
    ofSignedLittleEndian (intBytes value) = value := by
  rw [intBytes, ofSigned_signedLittleEndian]
  exact Int.bmod_eq_of_le h.1 h.2

theorem intBytes_ofSigned {bytes : List UInt8} (h : bytes.length = 4) :
    intBytes (ofSignedLittleEndian bytes) = bytes := by
  rw [intBytes, ← h]
  exact signedLittleEndian_ofSigned bytes

theorem isInt_ofSigned {bytes : List UInt8} (h : bytes.length = 4) :
    IsInt (ofSignedLittleEndian bytes) := by
  rw [ofSignedLittleEndian, h]
  have hlow := Int.le_bmod (x := ofLittleEndian bytes) (m := 256 ^ 4) (by decide)
  have hhigh := Int.bmod_lt (x := ofLittleEndian bytes) (m := 256 ^ 4) (by decide)
  exact ⟨by omega, by omega⟩

/-- An entry of the kept-back keys. -/
def entryBytes (pair : Σ _ : ℤ, Key) : List UInt8 := intBytes pair.1 ++ pair.2.1

theorem length_entryBytes (pair : Σ _ : ℤ, Key) : (entryBytes pair).length = 36 := by
  rw [entryBytes, List.length_append, length_intBytes, pair.2.2]

theorem length_flatMap_entryBytes (entries : List (Σ _ : ℤ, Key)) :
    (entries.flatMap entryBytes).length = 36 * entries.length := by
  induction entries with
  | nil => rfl
  | cons pair entries ih =>
    rw [List.flatMap_cons, List.length_append, length_entryBytes, ih, List.length_cons]
    omega

/-- The index of an entry among others. -/
theorem chunk_flatMap_entryBytes (entries : List (Σ _ : ℤ, Key)) (post : List UInt8) {i : ℕ}
    (hi : i < entries.length) :
    chunk (entries.flatMap entryBytes ++ post) (36 * i) 4 = intBytes (entries[i]).1 := by
  induction entries generalizing i with
  | nil => cases hi
  | cons pair entries ih =>
    rw [List.flatMap_cons, List.append_assoc]
    cases i with
    | zero =>
      rw [entryBytes, List.append_assoc]
      exact chunk_append_left (length_intBytes _)
    | succ i =>
      have hplace : 36 * (i + 1) = 36 + 36 * i := by omega
      rw [hplace, chunk_append_right (length_entryBytes pair)]
      exact ih (Nat.lt_of_succ_lt_succ hi)

section Serialise

variable {r : NewRatchet Key} (m : r.InMemory)

/-- The fields before the count. -/
def head : List UInt8 :=
  r.rootKey.1 ++ r.localDhPublic.1 ++ m.buffer.take 32 ++ r.remoteDhPublic.1
    ++ r.sendChain.key.1 ++ intBytes r.sendChain.index
    ++ r.receiveChain.key.1 ++ intBytes r.receiveChain.index

theorem length_head : (head m).length = 200 := by
  have hkey : ∀ k : Key, k.1.length = 32 := fun k => k.2
  simp only [head, List.length_append, m.buffer_take, length_intBytes, hkey]

theorem serialise_eq : m.serialise = head m ++ (uint32Bytes m.entries.length
    ++ (m.entries.flatMap entryBytes ++ (boolBytes r.dueToSendNewDh
      ++ (boolBytes r.reversed ++ intBytes r.prevChainLength)))) := by
  simp only [NewRatchet.InMemory.serialise, head, List.append_assoc]
  rfl

/-- Behind the count are the entries and the flags. -/
theorem chunk_serialise (k n : ℕ) :
    chunk m.serialise (204 + k) n = chunk (m.entries.flatMap entryBytes
      ++ (boolBytes r.dueToSendNewDh ++ (boolBytes r.reversed ++ intBytes r.prevChainLength)))
        k n := by
  have hcount : (uint32Bytes m.entries.length).length = 4 := length_littleEndian 4 _
  have hk : 204 + k = 200 + (4 + k) := by omega
  rw [serialise_eq, hk, chunk_append_right (length_head m), chunk_append_right hcount]

/-- The entries are those of a map: no two have one index. -/
theorem entries_inj {i j : ℕ} (hi : i < m.entries.length) (hj : j < m.entries.length)
    (h : (m.entries[i]).1 = (m.entries[j]).1) : i = j := by
  have hnodup : (m.entries.map Sigma.fst).Nodup := by
    have hkeys := r.skippedKeys.nodupKeys
    rw [← m.entries_eq] at hkeys
    exact Multiset.coe_nodupKeys.mp hkeys
  have hi' : i < (m.entries.map Sigma.fst).length := by rwa [List.length_map]
  have hj' : j < (m.entries.map Sigma.fst).length := by rwa [List.length_map]
  have hget : (m.entries.map Sigma.fst)[i] = (m.entries.map Sigma.fst)[j] := by
    rw [List.getElem_map, List.getElem_map, h]
  exact hnodup.getElem_inj_iff.mp hget

/-- **What is written is well formed.** -/
theorem wellFormed_serialise : WellFormed m.serialise m.entries.length := by
  have hcount : (uint32Bytes m.entries.length).length = 4 := length_littleEndian 4 _
  have hentries := length_flatMap_entryBytes m.entries
  have hdue : chunk m.serialise (204 + 36 * m.entries.length) 1 = boolBytes r.dueToSendNewDh := by
    rw [chunk_serialise]
    exact (chunk_append_right hentries _ 0 1).trans (chunk_append_left rfl)
  have hreversed : chunk m.serialise (205 + 36 * m.entries.length) 1 = boolBytes r.reversed := by
    have hk : 205 + 36 * m.entries.length = 204 + (36 * m.entries.length + 1) := by omega
    rw [hk, chunk_serialise, chunk_append_right hentries]
    exact (chunk_append_right rfl _ 0 1).trans (chunk_append_left rfl)
  refine ⟨?_, ?_, fun i hi j hj hij => ?_, ?_, ?_⟩
  · rw [serialise_eq]
    simp only [List.length_append, length_head, hcount, hentries, length_intBytes]
    show 200 + (4 + (36 * m.entries.length + (1 + (1 + 4)))) = _
    omega
  · rw [serialise_eq]
    exact (chunk_append_right (length_head m) _ 0 4).trans (chunk_append_left hcount)
  · rw [chunk_serialise, chunk_serialise, chunk_flatMap_entryBytes _ _ hi,
      chunk_flatMap_entryBytes _ _ hj] at hij
    refine entries_inj m hi hj ?_
    rw [← ofSigned_intBytes (m.isInt_key _ (List.getElem_mem hi)), hij,
      ofSigned_intBytes (m.isInt_key _ (List.getElem_mem hj))]
  · rw [hdue, boolOfBytes_boolBytes]
    rfl
  · rw [hreversed, boolOfBytes_boolBytes]
    rfl

end Serialise

section Parse

variable {s : List UInt8} {n : ℕ}

/-- The kept-back keys a well-formed text holds, -/
def entriesOf (s : List UInt8) (n : ℕ) : List (Σ _ : ℤ, Key) :=
  (List.range n).map fun i =>
    ⟨ofSignedLittleEndian (chunk s (204 + 36 * i) 4), readAt s (208 + 36 * i) (0 : Key)⟩

theorem WellFormed.nodupKeys (h : WellFormed s n) : (entriesOf s n).NodupKeys := by
  show ((entriesOf s n).map Sigma.fst).Nodup
  rw [entriesOf, List.map_map, List.nodup_map_iff_inj_on List.nodup_range]
  intro i hi j hj hij
  have hlen := h.length
  rw [List.mem_range] at hi hj
  refine h.keys i hi j hj ?_
  rw [← intBytes_ofSigned (length_chunk_of_le (s := s) (k := 204 + 36 * i) (by omega)),
    ← intBytes_ofSigned (length_chunk_of_le (s := s) (k := 204 + 36 * j) (by omega))]
  exact congrArg intBytes hij

/-- and their bytes. -/
theorem WellFormed.flatMap_entriesOf (h : WellFormed s n) :
    (entriesOf s n).flatMap entryBytes = chunk s 204 (36 * n) := by
  have hlen := h.length
  rw [entriesOf, List.flatMap_map, ← flatMap_range_chunk]
  refine List.flatMap_congr fun i hi => ?_
  rw [List.mem_range] at hi
  have hval : 208 + 36 * i = 204 + 36 * i + 4 := by omega
  show intBytes (ofSignedLittleEndian (chunk s (204 + 36 * i) 4))
    ++ (readAt s (208 + 36 * i) (0 : Key)).1 = _
  rw [intBytes_ofSigned (length_chunk_of_le (by omega)), readAt_of_le (by omega),
    chunk_append_chunk hval.symm]

/-- The ratchet of a well-formed text, given its flags. -/
def parse (h : WellFormed s n) (dueToSendNewDh reversed : Bool) : NewRatchet Key where
  reversed := reversed
  dueToSendNewDh := dueToSendNewDh
  rootKey := readAt s 0 0
  sendChain := ⟨ofSignedLittleEndian (chunk s 160 4), readAt s 128 0⟩
  receiveChain := ⟨ofSignedLittleEndian (chunk s 196 4), readAt s 164 0⟩
  localDhPublic := readAt s 32 0
  localDhPriv := readAt s 64 0
  remoteDhPublic := readAt s 96 0
  skippedKeys := ⟨entriesOf s n, h.nodupKeys⟩
  prevChainLength := ofSignedLittleEndian (chunk s (206 + 36 * n) 4)

def parseInMemory (h : WellFormed s n) (dueToSendNewDh reversed : Bool) :
    (parse h dueToSendNewDh reversed).InMemory where
  buffer := (readAt s 64 (0 : Key)).1
  buffer_take := List.take_of_length_le (readAt s 64 (0 : Key)).2.le
  entries := entriesOf s n
  entries_eq := rfl
  isInt_key pair hpair := by
    obtain ⟨i, hi, rfl⟩ := List.mem_map.mp hpair
    have hlen := h.length
    rw [List.mem_range] at hi
    exact isInt_ofSigned (length_chunk_of_le (by omega))
  isInt_sendIndex := isInt_ofSigned (length_chunk_of_le (by have := h.length; omega))
  isInt_receiveIndex := isInt_ofSigned (length_chunk_of_le (by have := h.length; omega))
  isInt_prevChainLength := isInt_ofSigned (length_chunk_of_le (by have := h.length; omega))

/-- The fields before the count are the front of the text. -/
theorem head_parseInMemory (h : WellFormed s n) (dueToSendNewDh reversed : Bool) :
    head (parseInMemory h dueToSendNewDh reversed) = chunk s 0 200 := by
  have hlen := h.length
  have hkey : ∀ {k : ℕ}, k + 32 ≤ 204 → (readAt s k (0 : Key)).1 = chunk s k 32 :=
    fun hk => readAt_of_le (by omega) _
  have hint : ∀ {k : ℕ}, k + 4 ≤ s.length →
      intBytes (ofSignedLittleEndian (chunk s k 4)) = chunk s k 4 :=
    fun hk => intBytes_ofSigned (length_chunk_of_le hk)
  rw [head, (parseInMemory h dueToSendNewDh reversed).buffer_take]
  show (readAt s 0 (0 : Key)).1 ++ (readAt s 32 (0 : Key)).1 ++ (readAt s 64 (0 : Key)).1
    ++ (readAt s 96 (0 : Key)).1 ++ (readAt s 128 (0 : Key)).1
    ++ intBytes (ofSignedLittleEndian (chunk s 160 4)) ++ (readAt s 164 (0 : Key)).1
    ++ intBytes (ofSignedLittleEndian (chunk s 196 4)) = _
  rw [hkey (by omega), hkey (by omega), hkey (by omega), hkey (by omega), hkey (by omega),
    hint (by omega), hkey (by omega), hint (by omega)]
  simp only [chunk_append_chunk, Nat.reduceAdd]

/-- **Its bytes are the text.** -/
theorem serialise_parse (h : WellFormed s n) {dueToSendNewDh reversed : Bool}
    (hdue : boolOfBytes (chunk s (204 + 36 * n) 1) = some dueToSendNewDh)
    (hreversed : boolOfBytes (chunk s (205 + 36 * n) 1) = some reversed) :
    (parseInMemory h dueToSendNewDh reversed).serialise = s := by
  have hlen := h.length
  have hcount : uint32Bytes (parseInMemory h dueToSendNewDh reversed).entries.length
      = chunk s 200 4 := by
    have hentries : (entriesOf s n).length = n := by
      rw [entriesOf, List.length_map, List.length_range]
    show uint32Bytes (entriesOf s n).length = _
    rw [hentries, h.count]
  have hrest : (parseInMemory h dueToSendNewDh reversed).entries.flatMap entryBytes
      = chunk s 204 (36 * n) := h.flatMap_entriesOf
  rw [serialise_eq, head_parseInMemory, hcount, hrest]
  show _ ++ (_ ++ (_ ++ (boolBytes dueToSendNewDh ++ (boolBytes reversed
    ++ intBytes (ofSignedLittleEndian (chunk s (206 + 36 * n) 4)))))) = s
  rw [boolBytes_of_boolOfBytes hdue, boolBytes_of_boolOfBytes hreversed,
    intBytes_ofSigned (length_chunk_of_le (by omega)), chunk_append_chunk (by omega),
    chunk_append_chunk (by omega), chunk_append_chunk (by omega), chunk_append_chunk (by omega),
    chunk_append_chunk (by omega)]
  have hall : 200 + (4 + (36 * n + (1 + (1 + 4)))) = s.length := by omega
  rw [hall, chunk_zero_length]

/-- **What `serialise` writes, seen from the bytes.** -/
theorem serialised_iff : Serialised s ↔ ∃ n, WellFormed s n := by
  constructor
  · rintro ⟨r, m, rfl⟩
    exact ⟨_, wellFormed_serialise m⟩
  · rintro ⟨n, h⟩
    obtain ⟨dueToSendNewDh, hdue⟩ := Option.isSome_iff_exists.mp h.dueToSendNewDh
    obtain ⟨reversed, hreversed⟩ := Option.isSome_iff_exists.mp h.reversed
    exact ⟨_, parseInMemory h dueToSendNewDh reversed, serialise_parse h hdue hreversed⟩

end Parse

/-! ## What the constructor accepts -/

/-- **Nothing but what `serialise` writes is deserialised**: the constructor
throws on every other text, and its loop makes no more rounds than there are
entries behind the count. -/
def OnlySerialised (m : Indeterminate) (s : List UInt8) : Prop :=
  (¬ Serialised s → ∃ e, ofSerialised m s = .error e)
    ∧ ∀ b, ofSerialised m s = .ok b → b.assigned.length ≤ (s.length - 204) / 36

/-- **The constructor never throws**, and makes as many rounds as the count
says. -/
theorem exists_ofSerialised (m : Indeterminate) (s : List UInt8) :
    ∃ b, ofSerialised m s = .ok b ∧ b.assigned.length = rounds m s := by
  refine ⟨_, ofSerialised_eq m s, ?_⟩
  show ((List.range' 0 (rounds m s)).map _).length = _
  rw [List.length_map, List.length_range']

/-- So a text that is not written is not refused. -/
theorem not_onlySerialised_of_not_serialised {m : Indeterminate} {s : List UInt8}
    (h : ¬ Serialised s) : ¬ OnlySerialised m s := by
  intro honly
  obtain ⟨b, hb, -⟩ := exists_ofSerialised m s
  obtain ⟨e, he⟩ := honly.1 h
  cases hb.symm.trans he

/-- The rounds on a text that is written: so many as it has entries, up to
2³². -/
theorem WellFormed.rounds_eq {s : List UInt8} {n : ℕ} (h : WellFormed s n) (m : Indeterminate) :
    rounds m s = n % 2 ^ 32 := by
  have hlen := h.length
  rw [rounds, readAt_of_le (by omega), h.count]
  exact ofLittleEndian_littleEndian_mod 4 n

/-- **On which texts it does**: on those that are well formed, and no
others. -/
theorem onlySerialised_iff (m : Indeterminate) (s : List UInt8) :
    OnlySerialised m s ↔ ∃ n, WellFormed s n := by
  obtain ⟨b, hb, hrounds⟩ := exists_ofSerialised m s
  constructor
  · intro h
    by_contra hnot
    rw [← serialised_iff] at hnot
    exact not_onlySerialised_of_not_serialised hnot h
  · rintro ⟨n, h⟩
    refine ⟨fun hnot => absurd (serialised_iff.mpr ⟨n, h⟩) hnot, fun b' hb' => ?_⟩
    obtain rfl := Except.ok.inj (hb.symm.trans hb')
    have hlen := h.length
    have hle := Nat.mod_le n (2 ^ 32)
    rw [hrounds, h.rounds_eq m]
    omega

/-! ## The stored rows -/

/-- **The ratchets `load_ratchets_from_db` puts into its map**, in the order
of the rows: one whose constructor throws is left out. Each constructor finds
the memory as it is then. -/
def loadedRatchets (m : ℕ → Indeterminate) :
    List (String × Key × List UInt8) → List (String × Key × RatchetBytes)
  | [] => []
  | (username, deviceId, serialised) :: rows =>
    match ofSerialised (m rows.length) serialised with
    | .ok b => (username, deviceId, b) :: loadedRatchets m rows
    | .error _ => loadedRatchets m rows

/-- **No row is left out**, whatever bytes it holds. -/
theorem map_loadedRatchets (m : ℕ → Indeterminate) (rows : List (String × Key × List UInt8)) :
    (loadedRatchets m rows).map (fun row => (row.1, row.2.1))
      = rows.map (fun row => (row.1, row.2.1)) := by
  induction rows with
  | nil => rfl
  | cons row rows ih =>
    obtain ⟨username, deviceId, serialised⟩ := row
    obtain ⟨b, hb, -⟩ := exists_ofSerialised (m rows.length) serialised
    simp only [loadedRatchets, hb, List.map_cons, ih]

/-! ## A row that is cut off -/

/-- Memory that is zero throughout. -/
def zeroMemory : Indeterminate :=
  ⟨0, 0, 0, 0, 0, 0, initialIndex, fun _ => initialIndex, ⟨[0], rfl⟩, ⟨[0], rfl⟩, initialIndex⟩

/-- A stored ratchet that breaks off in its second entry is made a ratchet,
and its row is loaded; and of 204 bytes that are all ones, with no entry among
them, the loop makes 2³² - 1 rounds. -/
theorem not_onlySerialised :
    ¬ OnlySerialised zeroMemory (NewRatchet.twoHeldBackInMemory.serialise.take 250)
      ∧ (∀ device, (loadedRatchets (fun _ => zeroMemory)
          [("bob", device, NewRatchet.twoHeldBackInMemory.serialise.take 250)]).map
            (fun row => (row.1, row.2.1)) = [("bob", device)])
      ∧ ¬ ∀ b, ofSerialised zeroMemory (List.replicate 204 255) = .ok b →
        b.assigned.length ≤ ((List.replicate 204 (255 : UInt8)).length - 204) / 36 := by
  refine ⟨?_, fun _ => map_loadedRatchets _ _, ?_⟩
  · have hlen : (NewRatchet.twoHeldBackInMemory.serialise.take 250).length = 250 :=
      List.length_take_of_le
        ((wellFormed_serialise NewRatchet.twoHeldBackInMemory).length.symm ▸ by decide)
    refine not_onlySerialised_of_not_serialised ?_
    rw [serialised_iff]
    rintro ⟨n, hwf⟩
    have := hlen.symm.trans hwf.length
    omega
  · intro h
    obtain ⟨b, hb, hrounds⟩ := exists_ofSerialised zeroMemory (List.replicate 204 255)
    have hlen : 200 + 4 ≤ (List.replicate 204 (255 : UInt8)).length :=
      List.length_replicate.symm.le
    have hcount : rounds zeroMemory (List.replicate 204 255) = 2 ^ 32 - 1 := by
      rw [rounds, readAt_of_le hlen, chunk, List.drop_replicate, List.take_replicate]
      rfl
    have hle := h b hb
    rw [hrounds, hcount, List.length_replicate] at hle
    omega

end RatchetBytes
