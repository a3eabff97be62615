import Eastwood.Codec
import Eastwood.Handshake
import Eastwood.MessageWire

/-!
# The bytes of a ratchet

A ratchet is stored as the bytes `serialise` writes and made again from them
by `deserialise`, which reads the fields in the same order: the keys, the two
chains, a count and so many kept-back keys, the flags. The two mirror each
other by hand only.

They agree. What is written, of any ratchet with fewer than 2³² kept-back
keys, in whatever order its hash map iterates, is read as that ratchet
(`reads_deserialise`), and hence every sequence of calls is answered by the
one as it is by the other, keys, headers and throws
(`ofSerialised_serialise`).

Of the buffer behind `local_dh_priv` 32 bytes are written. It is 64 bytes
long where it came from `get_decrypted_keypair`, but no operation reads
further.
-/

/-! ## Fields -/

/-- An `int`, as it lies in memory. -/
def intBytes (value : ℤ) : List UInt8 := signedLittleEndian 4 value

/-- A `uint32_t`, which takes a larger number modulo 2³². -/
def uint32Bytes (n : ℕ) : List UInt8 := littleEndian 4 n

/-- A `bool`. -/
def boolBytes (flag : Bool) : List UInt8 := [if flag then 1 else 0]

def readKey : Reader UInt8 Key := do
  let bytes ← Reader.block 32
  return Key.copy bytes

def readInt : Reader UInt8 ℤ := do
  let bytes ← Reader.block 4
  return ofSignedLittleEndian bytes

def readUint32 : Reader UInt8 ℕ := do
  let bytes ← Reader.block 4
  return ofLittleEndian bytes

/-- A byte that is no `bool` has no meaning. -/
def boolOfBytes : List UInt8 → Option Bool
  | [0] => some false
  | [1] => some true
  | _ => none

def readBool : Reader UInt8 Bool := (Reader.block 1).interpret boolOfBytes

theorem reads_key (k : Key) : Reads readKey k.1 k := by
  have h := (Reads.block k.2).map (f := Key.copy)
  rwa [Key.copy_val] at h

theorem reads_int {value : ℤ} (h : IsInt value) : Reads readInt (intBytes value) value := by
  have hread := (Reads.block (length_signedLittleEndian 4 value)).map (f := ofSignedLittleEndian)
  have hvalue : value.bmod (256 ^ 4) = value := Int.bmod_eq_of_le h.1 h.2
  rwa [ofSigned_signedLittleEndian, hvalue] at hread

theorem reads_uint32 {n : ℕ} (h : n < 2 ^ 32) : Reads readUint32 (uint32Bytes n) n := by
  have hread := (Reads.block (length_littleEndian 4 n)).map (f := ofLittleEndian)
  have hn : n < 256 ^ 4 := h
  rwa [ofLittleEndian_littleEndian hn] at hread

theorem reads_bool (flag : Bool) : Reads readBool (boolBytes flag) flag := by
  have hlen : (boolBytes flag).length = 1 := rfl
  refine (Reads.block hlen).interpret ?_
  cases flag <;> rfl

/-! ## The format -/

namespace NewRatchet

/-- **A ratchet as it lies in memory**: the buffer its private key is at the
front of, and what an iteration over its hash map gives, in whatever order.
Every counter is an `int`. -/
structure InMemory (r : NewRatchet Key) where
  buffer : List UInt8
  buffer_take : buffer.take 32 = r.localDhPriv.1
  entries : List (Σ _ : ℤ, Key)
  entries_eq : (entries : Multiset (Σ _ : ℤ, Key)) = r.skippedKeys.entries
  isInt_key : ∀ pair ∈ entries, IsInt pair.1
  isInt_sendIndex : IsInt r.sendChain.index
  isInt_receiveIndex : IsInt r.receiveChain.index
  isInt_prevChainLength : IsInt r.prevChainLength

/-- **`serialise`.** -/
def InMemory.serialise {r : NewRatchet Key} (m : r.InMemory) : List UInt8 :=
  r.rootKey.1 ++ r.localDhPublic.1 ++ m.buffer.take 32 ++ r.remoteDhPublic.1
    ++ r.sendChain.key.1 ++ intBytes r.sendChain.index
    ++ r.receiveChain.key.1 ++ intBytes r.receiveChain.index
    ++ uint32Bytes m.entries.length
    ++ (m.entries.flatMap fun pair => intBytes pair.1 ++ pair.2.1)
    ++ boolBytes r.dueToSendNewDh ++ boolBytes r.reversed ++ intBytes r.prevChainLength

/-- One round of the loop that fills `skipped_keys`. -/
def readSkippedKey (skippedKeys : Finmap fun _ : ℤ => Key) :
    Reader UInt8 (Finmap fun _ : ℤ => Key) := do
  let key ← readInt
  let val ← readKey
  return skippedKeys.insert key val

/-- **`deserialise`.** A stream that ends early leaves fields without a
value: there is no such ratchet. -/
def deserialise : Reader UInt8 (NewRatchet Key) := do
  let rootKey ← readKey
  let localDhPublic ← readKey
  let priv ← readKey
  let remoteDhPublic ← readKey
  let sendKey ← readKey
  let sendIndex ← readInt
  let receiveKey ← readKey
  let receiveIndex ← readInt
  let skippedCount ← readUint32
  let skippedKeys ← Reader.counted readSkippedKey skippedCount ∅
  let dueToSendNewDh ← readBool
  let reversed ← readBool
  let prevChainLength ← readInt
  return {
    reversed := reversed
    dueToSendNewDh := dueToSendNewDh
    rootKey := rootKey
    sendChain := ⟨sendIndex, sendKey⟩
    receiveChain := ⟨receiveIndex, receiveKey⟩
    localDhPublic := localDhPublic
    localDhPriv := priv
    remoteDhPublic := remoteDhPublic
    skippedKeys := skippedKeys
    prevChainLength := prevChainLength }

/-- The constructor that is given serialised bytes. -/
def ofSerialised (serialisedRatchet : List UInt8) : Option (NewRatchet Key) :=
  deserialise.ofText serialisedRatchet

/-! ## Reading it back -/

section Reading

variable {r : NewRatchet Key}

/-- **Assigning entries one after the other** gives, under every key, the
entry with that key. -/
theorem lookup_foldl_insert (entries : List (Σ _ : ℤ, Key)) (hkeys : entries.NodupKeys)
    (m : Finmap fun _ : ℤ => Key) (i : ℤ) :
    (entries.foldl (fun m pair => m.insert pair.1 pair.2) m).lookup i
      = (entries.dlookup i).or (m.lookup i) := by
  induction entries generalizing m with
  | nil => rw [List.dlookup_nil]; rfl
  | cons pair entries ih =>
    obtain ⟨hnot, hrest⟩ := List.nodupKeys_cons.mp hkeys
    rw [List.foldl_cons, ih hrest]
    by_cases hi : i = pair.1
    · subst hi
      rw [Finmap.lookup_insert, List.dlookup_cons_eq, List.dlookup_eq_none.mpr hnot]
      rfl
    · rw [Finmap.lookup_insert_of_ne _ hi, List.dlookup_cons_ne _ _ hi]

/-- The map that is filled is the map that was iterated over. -/
theorem InMemory.foldl_insert (m : r.InMemory) :
    m.entries.foldl (fun sk pair => sk.insert pair.1 pair.2) ∅ = r.skippedKeys := by
  have hkeys : m.entries.NodupKeys := by
    have h := r.skippedKeys.nodupKeys
    rw [← m.entries_eq] at h
    exact Multiset.coe_nodupKeys.mp h
  have hmap : r.skippedKeys = ⟨m.entries, hkeys⟩ := Finmap.ext m.entries_eq.symm
  refine Finmap.ext_lookup fun i => ?_
  rw [lookup_foldl_insert _ hkeys, Finmap.lookup_empty, Option.or_none, hmap]
  rfl

/-- The loop over the entries reads them as the map. -/
theorem InMemory.reads_skippedKeys (m : r.InMemory) :
    Reads (Reader.counted readSkippedKey m.entries.length ∅)
      (m.entries.flatMap fun pair => intBytes pair.1 ++ pair.2.1) r.skippedKeys := by
  rw [← m.foldl_insert]
  refine Reads.counted m.entries ∅ fun pair hpair sk => ?_
  exact (reads_int (m.isInt_key pair hpair)).bind (reads_key pair.2).map

/-- **What `serialise` writes, `deserialise` reads**, and no byte more. -/
theorem reads_deserialise (m : r.InMemory) (h : m.entries.length < 2 ^ 32) :
    Reads deserialise m.serialise r := by
  have hpriv : Reads readKey (m.buffer.take 32) r.localDhPriv := by
    rw [m.buffer_take]
    exact reads_key _
  unfold InMemory.serialise
  simp only [List.append_assoc]
  -- field by field, in the order of both functions
  refine (reads_key _).bind ((reads_key _).bind (hpriv.bind ((reads_key _).bind ?_)))
  refine (reads_key _).bind ((reads_int m.isInt_sendIndex).bind ?_)
  refine (reads_key _).bind ((reads_int m.isInt_receiveIndex).bind ?_)
  refine (reads_uint32 h).bind (m.reads_skippedKeys.bind ?_)
  exact (reads_bool _).bind ((reads_bool _).bind (reads_int m.isInt_prevChainLength).map)

end Reading

/-! ## What it answers afterwards -/

section Transcript

variable {K : Type} (S : Sodium K) [DecidableEq K] [Zero K]

/-- One call with all it returns: the key and, of a send, the header. -/
def reply (r : NewRatchet K) :
    Call K → Except Fault (K × Option (MessageHeader K)) × NewRatchet K
  | .send =>
    match r.advanceSend S with
    | (.ok (key, header), r) => (.ok (key, some header), r)
    | (.error e, r) => (.error e, r)
  | .receive fresh h =>
    match r.advanceReceive S fresh h with
    | (.ok key, r) => (.ok (key, none), r)
    | (.error e, r) => (.error e, r)

/-- **All that a sequence of calls returns.** A call that runs into undefined
behaviour is the last one. -/
def transcript : List (Call K) → NewRatchet K → List (Except Fault (K × Option (MessageHeader K)))
  | [], _ => []
  | c :: calls, r =>
    match r.reply S c with
    | (.ok answer, r) => .ok answer :: transcript calls r
    | (.error e, r) => .error e :: if e.isUndefined then [] else transcript calls r

end Transcript

/-- **Serialisation preserves behaviour**: the ratchet made from the bytes of
a ratchet is equal to it, and answers whatever calls are made as it does. -/
theorem ofSerialised_serialise {r : NewRatchet Key} (m : r.InMemory)
    (h : m.entries.length < 2 ^ 32) :
    ofSerialised m.serialise = some r
      ∧ ∀ (S : Sodium Key) (calls : List (Call Key)),
        (ofSerialised m.serialise).map (transcript S calls) = some (transcript S calls r) := by
  have hread : ofSerialised m.serialise = some r := (reads_deserialise m h).ofText
  refine ⟨hread, fun S calls => ?_⟩
  rw [hread, Option.map_some]

/-- A ratchet with two keys held back, made for a handshake that was
received: the buffer of its private key goes on behind it. -/
def twoHeldBack : NewRatchet Key where
  reversed := true
  dueToSendNewDh := false
  rootKey := .repeated 1
  sendChain := ⟨0, .repeated 2⟩
  receiveChain := ⟨6, .repeated 3⟩
  localDhPublic := .repeated 4
  localDhPriv := .repeated 5
  remoteDhPublic := .repeated 6
  skippedKeys := (Finmap.singleton 2 (.repeated 7)).insert 5 (.repeated 8)
  prevChainLength := 0

def twoHeldBackInMemory : twoHeldBack.InMemory where
  buffer := (Key.repeated 5).1 ++ (Key.repeated 4).1
  buffer_take := rfl
  entries := [⟨2, .repeated 7⟩, ⟨5, .repeated 8⟩]
  entries_eq := by decide +kernel
  isInt_key := by decide
  isInt_sendIndex := by decide
  isInt_receiveIndex := by decide
  isInt_prevChainLength := by decide

/-- It is read as it was, and its next key is that of its next message. -/
theorem ofSerialised_serialise_twoHeldBack :
    ofSerialised twoHeldBackInMemory.serialise = some twoHeldBack
      ∧ (ofSerialised twoHeldBackInMemory.serialise).map (transcript Sodium.bytes [.send])
        = some (transcript Sodium.bytes [.send] twoHeldBack) :=
  ⟨(ofSerialised_serialise twoHeldBackInMemory (by decide)).1,
    (ofSerialised_serialise twoHeldBackInMemory (by decide)).2 Sodium.bytes [.send]⟩

end NewRatchet
