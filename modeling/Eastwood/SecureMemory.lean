import Eastwood.Ownership
import Eastwood.Runs

/-!
# Secure memory buffers

A `SecureMemoryBuffer` owns an allocation of `sodium_malloc` that is locked
into memory, and is moved, never copied. It holds a pointer that is null once
it was moved from, and a destructor that zeroes what it points to, unlocks it
and frees it.

Objects come, are moved into each other, written through and destroyed in any
order. However they are, no call of libsodium is given memory that is not
live, every live allocation has one owner, no two objects share one, and
nothing that was ever written to is freed before it is zeroed
(`SecureMemory.sound_of_run`); what is live when all objects are gone is
nothing.
-/

namespace SecureMemory

/-! ## Memory -/

/-- An allocation: what it holds, whether it is locked, and whether the
program has written to it. -/
structure Block where
  contents : List UInt8
  locked : Bool
  written : Bool
  deriving DecidableEq

end SecureMemory

/-- **The object**: a pointer, perhaps null, and a size. -/
structure SecureMemoryBuffer where
  buffer : Option ℕ
  size : ℕ
  deriving DecidableEq

namespace SecureMemory

/-- **A process**: the allocations by address, the objects by identity, and
the allocations that were freed, as they then were. -/
structure Process where
  blocks : ℕ → Option Block
  objects : ℕ → Option SecureMemoryBuffer
  freed : List Block

/-- Nothing was allocated yet. -/
def Process.start : Process := ⟨fun _ => none, fun _ => none, []⟩

namespace Process

/-! ### The calls of libsodium

A call that is given an address at which nothing is live, or less memory than
it is to write, is undefined. -/

/-- What a call does to the block at an address. -/
def onBlock (address : ℕ) (f : Block → Option Block) (p : Process) : Option Process :=
  match p.blocks address with
  | none => none
  | some b => (f b).map fun b' => { p with blocks := Function.update p.blocks address (some b') }

/-- `sodium_mlock`, where it succeeds. -/
def sodiumMlock (address : ℕ) : Process → Option Process :=
  onBlock address fun b => some { b with locked := true }

/-- `sodium_munlock`, which the memory is zeroed before. -/
def sodiumMunlock (address : ℕ) : Process → Option Process :=
  onBlock address fun b => some { b with locked := false }

/-- `memcpy` to an address. -/
def copy (address : ℕ) (bytes : List UInt8) : Process → Option Process :=
  onBlock address fun b =>
    if bytes.length ≤ b.contents.length then
      some { b with contents := bytes ++ b.contents.drop bytes.length, written := true }
    else none

/-- `memset` with zeros, and `sodium_memzero`. -/
def zero (address size : ℕ) : Process → Option Process :=
  copy address (List.replicate size 0)

/-- `sodium_free`. -/
def sodiumFree (address : ℕ) (p : Process) : Option Process :=
  match p.blocks address with
  | none => none
  | some b => some { p with
      blocks := Function.update p.blocks address none
      freed := p.freed ++ [b] }

/-- An object as it now is, or that there is none. -/
def setObject (id : ℕ) (o : Option SecureMemoryBuffer) (p : Process) : Process :=
  { p with objects := Function.update p.objects id o }

/-! ### The members -/

/-- **The constructor**, given what `sodium_malloc` returns and whether
`sodium_mlock` succeeds. Where it throws there is no object, and no destructor
runs. -/
def create (id size : ℕ) (malloc : Option (ℕ × List UInt8)) (mlocked : Bool) (p : Process) :
    Option Process :=
  match malloc with
  -- `throw std::bad_alloc()`
  | none => some p
  | some (address, garbage) =>
    let p := { p with blocks := Function.update p.blocks address (some ⟨garbage, false, false⟩) }
    if mlocked then do
      let p ← p.sodiumMlock address
      let p ← p.zero address size
      some (p.setObject id (some ⟨some address, size⟩))
    else
      -- `throw std::runtime_error("mlock failed")`
      p.sodiumFree address

/-- `zero_and_unlock`, of an object there is. -/
def zeroAndUnlock (id : ℕ) (o : SecureMemoryBuffer) (p : Process) : Option Process :=
  match o.buffer with
  | none => some p
  | some address => do
    let p ← p.zero address o.size
    let p ← p.sodiumMunlock address
    let p ← p.sodiumFree address
    some (p.setObject id (some ⟨none, 0⟩))

/-- The move constructor. -/
def moveConstruct (id other : ℕ) (p : Process) : Option Process := do
  let o ← p.objects other
  some ((p.setObject id (some o)).setObject other (some ⟨none, 0⟩))

/-- The move assignment. -/
def moveAssign (id other : ℕ) (p : Process) : Option Process :=
  if id = other then some p
  else do
    let p ← p.zeroAndUnlock id (← p.objects id)
    let o ← p.objects other
    some ((p.setObject id (some o)).setObject other (some ⟨none, 0⟩))

/-- The destructor. -/
def destroy (id : ℕ) (p : Process) : Option Process := do
  let p ← p.zeroAndUnlock id (← p.objects id)
  some (p.setObject id none)

/-- What a caller copies to `data()`. -/
def write (id : ℕ) (bytes : List UInt8) (p : Process) : Option Process := do
  let o ← p.objects id
  match o.buffer with
  | some address => p.copy address bytes
  -- nothing may be copied to a null pointer
  | none => if bytes = [] then some p else none

end Process

/-! ## Runs -/

/-- What the program does next with its objects. -/
inductive Op where
  | create (id size : ℕ) (malloc : Option (ℕ × List UInt8)) (mlocked : Bool)
  | moveConstruct (id other : ℕ)
  | moveAssign (id other : ℕ)
  | write (id : ℕ) (bytes : List UInt8)
  | destroy (id : ℕ)

namespace Op

/-- **One step**; none if it is undefined. -/
def step : Op → Process → Option Process
  | create id size malloc mlocked => Process.create id size malloc mlocked
  | moveConstruct id other => Process.moveConstruct id other
  | moveAssign id other => Process.moveAssign id other
  | write id bytes => Process.write id bytes
  | destroy id => Process.destroy id

/-- **What the language and the library see to**: an object is made where
there is none and used where there is one, `sodium_malloc` returns memory of
the size that is not live, and callers write no more than `size()` bytes. -/
def Allowed : Op → Process → Prop
  | create id size malloc _, p => p.objects id = none
    ∧ ∀ m, malloc = some m → p.blocks m.1 = none ∧ m.2.length = size
  | moveConstruct id other, p => p.objects id = none ∧ p.objects other ≠ none
  | moveAssign id other, p => p.objects id ≠ none ∧ p.objects other ≠ none
  | write id bytes, p => ∃ o, p.objects id = some o ∧ bytes.length ≤ o.size
  | destroy id, p => p.objects id ≠ none

end Op

/-- The process after some steps; none once one was undefined. -/
def run : List Op → Process → Option Process
  | [], p => some p
  | op :: ops, p => (op.step p).bind (run ops)

/-! ## The invariant -/

namespace Process

/-- The allocation an object holds. -/
def held (p : Process) (id : ℕ) : Option ℕ := (p.objects id).bind (·.buffer)

/-- An address at which something is live. -/
def Live (p : Process) (address : ℕ) : Prop := (p.blocks address).isSome

/-- **The invariant**: sole ownership, objects whose memory is locked and of
their size, and no trace of what was written in what was freed. -/
structure Sound (p : Process) : Prop where
  owners : SoleOwners p.held p.Live
  backed : ∀ {id o address}, p.objects id = some o → o.buffer = some address →
    ∃ b, p.blocks address = some b ∧ b.locked = true ∧ b.contents.length = o.size
  null : ∀ {id o}, p.objects id = some o → o.buffer = none → o.size = 0
  zeroed : ∀ b ∈ p.freed, b.written = true → ∀ byte ∈ b.contents, byte = 0

theorem sound_start : Sound .start where
  owners := SoleOwners.none_live.congr (fun _ => rfl) fun _ =>
    iff_of_false Bool.false_ne_true id
  backed h := by cases h
  null h := by cases h
  zeroed b hb := by cases hb

variable {p : Process} {id other address : ℕ} {o : SecureMemoryBuffer} {b : Block}

theorem held_setObject (o : Option SecureMemoryBuffer) (j : ℕ) :
    (p.setObject id o).held j = Function.update p.held id (o.bind (·.buffer)) j := by
  change (Function.update p.objects id o j).bind _ = _
  by_cases hj : j = id
  · rw [hj, Function.update_self, Function.update_self]
  · rw [Function.update_of_ne hj, Function.update_of_ne hj]
    rfl

/-- An object there is then is the new one, or was there. -/
theorem objects_setObject_cases {new : Option SecureMemoryBuffer} {j : ℕ}
    {o : SecureMemoryBuffer} (h : (p.setObject id new).objects j = some o) :
    j = id ∧ new = some o ∨ j ≠ id ∧ p.objects j = some o := by
  replace h : Function.update p.objects id new j = some o := h
  by_cases hj : j = id
  · rw [hj, Function.update_self] at h
    exact Or.inl ⟨hj, h⟩
  · rw [Function.update_of_ne hj] at h
    exact Or.inr ⟨hj, h⟩

/-- What a block becomes. -/
def setBlock (address : ℕ) (b : Option Block) (p : Process) : Process :=
  { p with blocks := Function.update p.blocks address b }

theorem onBlock_of_some {f : Block → Option Block} {b' : Block} (hb : p.blocks address = some b)
    (hf : f b = some b') : p.onBlock address f = some (p.setBlock address (some b')) := by
  rw [onBlock, hb]
  exact congrArg (Option.map _) hf

/-- Zeroing as much as there is leaves nothing else. -/
theorem zero_of_some {size : ℕ} (hb : p.blocks address = some b)
    (hsize : b.contents.length = size) :
    p.zero address size
      = some (p.setBlock address (some ⟨List.replicate size 0, b.locked, true⟩)) := by
  apply onBlock_of_some hb
  rw [List.length_replicate, if_pos (Nat.le_of_eq hsize.symm),
    List.drop_of_length_le (Nat.le_of_eq hsize), List.append_nil]

theorem sodiumMunlock_of_some (hb : p.blocks address = some b) :
    p.sodiumMunlock address = some (p.setBlock address (some { b with locked := false })) :=
  onBlock_of_some hb rfl

theorem sodiumMlock_of_some (hb : p.blocks address = some b) :
    p.sodiumMlock address = some (p.setBlock address (some { b with locked := true })) :=
  onBlock_of_some hb rfl

theorem sodiumFree_of_some (hb : p.blocks address = some b) :
    p.sodiumFree address
      = some { p.setBlock address none with freed := p.freed ++ [b] } := by
  rw [sodiumFree, hb]
  rfl

@[simp] theorem setBlock_self (b : Option Block) : (p.setBlock address b).blocks address = b :=
  Function.update_self ..

@[simp] theorem setBlock_setBlock (b b' : Option Block) :
    (p.setBlock address b).setBlock address b' = p.setBlock address b' := by
  unfold setBlock
  rw [Function.update_idem]

/-- **`zero_and_unlock`**, of an object with memory. -/
theorem zeroAndUnlock_of_some (hbuffer : o.buffer = some address)
    (hb : p.blocks address = some b) (hsize : b.contents.length = o.size) :
    p.zeroAndUnlock id o = some
      { (p.setBlock address none).setObject id (some ⟨none, 0⟩) with
        freed := p.freed ++ [⟨List.replicate o.size 0, false, true⟩] } := by
  rw [zeroAndUnlock, hbuffer]
  simp only [zero_of_some hb hsize, sodiumMunlock_of_some (setBlock_self _),
    sodiumFree_of_some (setBlock_self _), Option.bind_eq_bind, Option.bind_some, setBlock_setBlock]
  rfl

/-! ## What the members keep -/

theorem held_of_objects (ho : p.objects id = some o) : p.held id = o.buffer := by
  rw [held, ho]
  rfl

theorem held_of_none (hid : p.objects id = none) : p.held id = none := by
  rw [held, hid]
  rfl

theorem live_setBlock {b : Option Block} {a : ℕ} :
    (p.setBlock address b).Live a ↔ (a ≠ address ∧ p.Live a) ∨ (a = address ∧ b.isSome) := by
  unfold Live setBlock
  by_cases ha : a = address
  · simp only [ha, Function.update_self, ne_eq, not_true_eq_false, false_and, true_and, false_or]
  · simp only [ne_eq, ha, not_false_eq_true, Function.update_of_ne, true_and, false_and, or_false]

/-- **`zero_and_unlock`** is defined, and leaves the object without memory. -/
theorem Sound.zeroAndUnlock (h : p.Sound) (ho : p.objects id = some o) :
    ∃ p', p.zeroAndUnlock id o = some p' ∧ p'.Sound
      ∧ p'.objects = Function.update p.objects id (some ⟨none, 0⟩) := by
  cases hbuffer : o.buffer with
  | none =>
    have hnull : some (⟨none, 0⟩ : SecureMemoryBuffer) = p.objects id := by
      obtain ⟨buffer, size⟩ := o
      obtain rfl : buffer = none := hbuffer
      obtain rfl : size = 0 := h.null ho rfl
      exact ho.symm
    refine ⟨p, by rw [Process.zeroAndUnlock, hbuffer], h, ?_⟩
    rw [hnull, Function.update_eq_self]
  | some address =>
    obtain ⟨b, hb, hlocked, hsize⟩ := h.backed ho hbuffer
    have hheld : p.held id = some address := (held_of_objects ho).trans hbuffer
    refine ⟨_, zeroAndUnlock_of_some hbuffer hb hsize, ⟨?_, ?_, ?_, ?_⟩, rfl⟩
    · refine (h.owners.release hheld).congr (held_setObject _) fun a => ?_
      refine live_setBlock.trans ?_
      simp only [Option.isSome_none, Bool.false_eq_true, and_false, or_false]
      exact And.comm
    · intro j o' a ho' ha
      obtain ⟨-, hnew⟩ | ⟨hj, ho'⟩ := objects_setObject_cases ho'
      · rw [← Option.some.inj hnew] at ha
        cases ha
      · -- another object holds another allocation
        have hne : a ≠ address := by
          rintro rfl
          exact hj (h.owners.unique ((held_of_objects ho').trans ha) hheld)
        obtain ⟨b', hb', hrest⟩ := h.backed ho' ha
        exact ⟨b', (Function.update_of_ne hne ..).trans hb', hrest⟩
    · intro j o' ho' ha
      obtain ⟨-, hnew⟩ | ⟨-, ho'⟩ := objects_setObject_cases ho'
      · rw [← Option.some.inj hnew]
      · exact h.null ho' ha
    · intro b' hb' hwritten byte hbyte
      obtain hb' | hb' := List.mem_append.mp hb'
      · exact h.zeroed b' hb' hwritten byte hbyte
      · rw [List.mem_singleton.mp hb'] at hbyte
        exact List.eq_of_mem_replicate hbyte

/-- **What one object holds, another takes over** that holds nothing. -/
theorem Sound.takeOver (h : p.Sound) (hid : p.held id = none) (hne : id ≠ other)
    (ho : p.objects other = some o) :
    ((p.setObject id (some o)).setObject other (some ⟨none, 0⟩)).Sound := by
  have hcases : ∀ {j o'}, ((p.setObject id (some o)).setObject other (some ⟨none, 0⟩)).objects j
      = some o' → o' = ⟨none, 0⟩ ∨ ∃ k, p.objects k = some o' := by
    intro j o' ho'
    obtain ⟨-, hnull⟩ | ⟨-, ho'⟩ := objects_setObject_cases ho'
    · exact Or.inl (Option.some.inj hnull).symm
    · obtain ⟨-, hnew⟩ | ⟨-, ho'⟩ := objects_setObject_cases ho'
      · exact Or.inr ⟨other, ho.trans hnew⟩
      · exact Or.inr ⟨j, ho'⟩
  refine ⟨?_, ?_, ?_, h.zeroed⟩
  · refine (h.owners.handOn (Ne.symm hne) hid).congr (fun j => ?_) fun a => Iff.rfl
    rw [held_setObject, held_of_objects ho]
    congr 1
    funext k
    exact held_setObject (some o) k
  · intro j o' a ho' ha
    obtain rfl | ⟨k, hk⟩ := hcases ho'
    · cases ha
    · exact h.backed hk ha
  · intro j o' ho' ha
    obtain rfl | ⟨k, hk⟩ := hcases ho'
    · rfl
    · exact h.null hk ha

/-- An object without memory may go. -/
theorem Sound.forget (h : p.Sound) (hid : p.held id = none) : (p.setObject id none).Sound := by
  have hcases : ∀ {j o'}, (p.setObject id none).objects j = some o' → p.objects j = some o' := by
    intro j o' ho'
    obtain ⟨-, hnone⟩ | ⟨-, ho'⟩ := objects_setObject_cases ho'
    · cases hnone
    · exact ho'
  refine ⟨h.owners.congr (fun j => ?_) fun a => Iff.rfl, fun ho' => h.backed (hcases ho'),
    fun ho' => h.null (hcases ho'), h.zeroed⟩
  rw [held_setObject, Option.bind_none, ← hid, Function.update_eq_self]

/-- A block that stays locked and of its size may hold something else. -/
theorem Sound.setBlock (h : p.Sound) (hb : p.blocks address = some b) {b' : Block}
    (hlocked : b'.locked = b.locked) (hlength : b'.contents.length = b.contents.length) :
    (p.setBlock address (some b')).Sound := by
  refine ⟨h.owners.congr (fun j => rfl) fun a => live_setBlock.trans ?_, ?_, h.null, h.zeroed⟩
  · by_cases ha : a = address
    · simp only [ha, Live, hb, Option.isSome_some, and_self, or_true]
    · simp only [ha, ne_eq, not_false_eq_true, true_and, false_and, or_false]
  · intro j o a ho ha
    obtain ⟨b₀, hb₀, hlocked₀, hlength₀⟩ := h.backed ho ha
    by_cases hne : a = address
    · obtain rfl : b = b₀ := Option.some.inj (hb.symm.trans (hne ▸ hb₀))
      exact ⟨b', by rw [hne, setBlock_self], hlocked.trans hlocked₀, hlength.trans hlength₀⟩
    · exact ⟨b₀, (Function.update_of_ne hne ..).trans hb₀, hlocked₀, hlength₀⟩

/-- **An object acquires** the memory it is made with. -/
theorem Sound.acquire (h : p.Sound) (hid : p.objects id = none) (hfree : p.blocks address = none)
    (hlocked : b.locked = true) :
    ((p.setBlock address (some b)).setObject id
      (some ⟨some address, b.contents.length⟩)).Sound := by
  have hnot : ¬ p.Live address := by
    rw [Live, hfree]
    exact Bool.false_ne_true
  refine ⟨?_, ?_, ?_, h.zeroed⟩
  · refine (h.owners.acquire (held_of_none hid) hnot).congr (held_setObject _) fun a => ?_
    refine live_setBlock.trans ?_
    by_cases ha : a = address
    · simp only [ha, ne_eq, not_true_eq_false, false_and, Option.isSome_some, and_self, or_true]
    · simp only [ha, ne_eq, not_false_eq_true, true_and, false_and, or_false]
  · intro j o' a ho' ha
    obtain ⟨-, hnew⟩ | ⟨-, ho'⟩ := objects_setObject_cases ho'
    · obtain rfl := Option.some.inj hnew
      obtain rfl := Option.some.inj ha
      exact ⟨b, setBlock_self _, hlocked, rfl⟩
    · replace ho' : p.objects j = some o' := ho'
      have hheld : p.held j = some a := (held_of_objects ho').trans ha
      have hne : a ≠ address := by
        rintro rfl
        exact hnot (h.owners.live_of_held hheld)
      obtain ⟨b', hb', hrest⟩ := h.backed ho' ha
      exact ⟨b', (Function.update_of_ne hne ..).trans hb', hrest⟩
  · intro j o' ho' ha
    obtain ⟨-, hnew⟩ | ⟨-, ho'⟩ := objects_setObject_cases ho'
    · obtain rfl := Option.some.inj hnew
      cases ha
    · exact h.null (o := o') ho' ha

/-- The constructor, whose memory could be locked. -/
theorem create_of_mlocked (size : ℕ) (garbage : List UInt8) (hlength : garbage.length = size) :
    p.create id size (some (address, garbage)) true = some
      ((p.setBlock address (some ⟨List.replicate size 0, true, true⟩)).setObject id
        (some ⟨some address, size⟩)) := by
  change ((p.setBlock address (some ⟨garbage, false, false⟩)).sodiumMlock address).bind _ = _
  rw [sodiumMlock_of_some (setBlock_self _), setBlock_setBlock, Option.bind_some,
    zero_of_some (b := ⟨garbage, true, false⟩) (setBlock_self _) hlength, setBlock_setBlock]
  rfl

/-- The constructor that could not lock its memory leaves nothing behind. -/
theorem create_of_not_mlocked (id size : ℕ) (garbage : List UInt8)
    (hfree : p.blocks address = none) :
    p.create id size (some (address, garbage)) false
      = some { p with freed := p.freed ++ [⟨garbage, false, false⟩] } := by
  change (p.setBlock address (some ⟨garbage, false, false⟩)).sodiumFree address = _
  rw [sodiumFree_of_some (setBlock_self _), setBlock_setBlock]
  unfold Process.setBlock
  rw [← hfree, Function.update_eq_self]

/-- What was never written to may be freed as it is. -/
theorem Sound.freed (h : p.Sound) (hb : b.written = false) :
    ({ p with freed := p.freed ++ [b] } : Process).Sound := by
  refine ⟨h.owners, h.backed, h.null, fun b' hb' hwritten => ?_⟩
  obtain hb' | hb' := List.mem_append.mp hb'
  · exact h.zeroed b' hb' hwritten
  · rw [List.mem_singleton.mp hb', hb] at hwritten
    cases hwritten

/-! ### The members keep it -/

theorem Sound.create (h : p.Sound) (hid : p.objects id = none) (size : ℕ)
    {malloc : Option (ℕ × List UInt8)}
    (hmalloc : ∀ m, malloc = some m → p.blocks m.1 = none ∧ m.2.length = size) (mlocked : Bool) :
    ∃ p', p.create id size malloc mlocked = some p' ∧ p'.Sound := by
  cases malloc with
  | none => exact ⟨p, rfl, h⟩
  | some m =>
    obtain ⟨address, garbage⟩ := m
    obtain ⟨hfree, hlength⟩ := hmalloc _ rfl
    cases mlocked with
    | true =>
      have hacquired := h.acquire (b := ⟨List.replicate size 0, true, true⟩) hid hfree rfl
      rw [List.length_replicate] at hacquired
      exact ⟨_, create_of_mlocked size garbage hlength, hacquired⟩
    | false => exact ⟨_, create_of_not_mlocked id size garbage hfree, h.freed rfl⟩

theorem Sound.moveConstruct (h : p.Sound) (hid : p.objects id = none)
    (hother : p.objects other ≠ none) :
    ∃ p', p.moveConstruct id other = some p' ∧ p'.Sound := by
  obtain ⟨o, ho⟩ := Option.ne_none_iff_exists'.mp hother
  have hne : id ≠ other := by
    rintro rfl
    exact hother hid
  refine ⟨_, ?_, h.takeOver (held_of_none hid) hne ho⟩
  rw [Process.moveConstruct, ho]
  rfl

theorem Sound.moveAssign (h : p.Sound) (hid : p.objects id ≠ none)
    (hother : p.objects other ≠ none) : ∃ p', p.moveAssign id other = some p' ∧ p'.Sound := by
  obtain ⟨o, ho⟩ := Option.ne_none_iff_exists'.mp hid
  by_cases hne : id = other
  · exact ⟨p, if_pos hne, h⟩
  · obtain ⟨p₁, hp₁, hsound, hobjects⟩ := h.zeroAndUnlock ho
    obtain ⟨o', ho'⟩ := Option.ne_none_iff_exists'.mp hother
    have hother₁ : p₁.objects other = some o' := by
      rw [hobjects, Function.update_of_ne (Ne.symm hne), ho']
    have hid₁ : p₁.held id = none :=
      (held_of_objects (by rw [hobjects, Function.update_self]) : p₁.held id = none)
    refine ⟨_, ?_, hsound.takeOver hid₁ hne hother₁⟩
    rw [Process.moveAssign, if_neg hne, ho]
    simp only [Option.bind_eq_bind, Option.bind_some, hp₁, hother₁]

theorem Sound.write (h : p.Sound) (ho : p.objects id = some o) {bytes : List UInt8}
    (hbytes : bytes.length ≤ o.size) : ∃ p', p.write id bytes = some p' ∧ p'.Sound := by
  cases hbuffer : o.buffer with
  | none =>
    rw [h.null ho hbuffer, Nat.le_zero, List.length_eq_zero_iff] at hbytes
    refine ⟨p, ?_, h⟩
    simp only [Process.write, ho, Option.bind_eq_bind, Option.bind_some, hbuffer, if_pos hbytes]
  | some address =>
    obtain ⟨b, hb, hlocked, hsize⟩ := h.backed ho hbuffer
    rw [← hsize] at hbytes
    have hlength : (bytes ++ b.contents.drop bytes.length).length = b.contents.length := by
      rw [List.length_append, List.length_drop, Nat.add_sub_cancel' hbytes]
    have hwritten : (p.setBlock address
        (some ⟨bytes ++ b.contents.drop bytes.length, b.locked, true⟩)).Sound :=
      h.setBlock hb rfl hlength
    refine ⟨_, ?_, hwritten⟩
    simp only [Process.write, ho, Option.bind_eq_bind, Option.bind_some, hbuffer]
    exact onBlock_of_some hb (if_pos hbytes)

theorem Sound.destroy (h : p.Sound) (hid : p.objects id ≠ none) :
    ∃ p', p.destroy id = some p' ∧ p'.Sound := by
  obtain ⟨o, ho⟩ := Option.ne_none_iff_exists'.mp hid
  obtain ⟨p₁, hp₁, hsound, hobjects⟩ := h.zeroAndUnlock ho
  have hid₁ : p₁.held id = none :=
    (held_of_objects (by rw [hobjects, Function.update_self]) : p₁.held id = none)
  refine ⟨_, ?_, hsound.forget hid₁⟩
  rw [Process.destroy, ho]
  simp only [Option.bind_eq_bind, Option.bind_some, hp₁]

/-- **Every member that may be called** is defined and keeps the invariant. -/
theorem Sound.step (h : p.Sound) {op : Op} (hop : op.Allowed p) :
    ∃ p', op.step p = some p' ∧ p'.Sound := by
  cases op with
  | create id size malloc mlocked => exact h.create hop.1 size hop.2 mlocked
  | moveConstruct id other => exact h.moveConstruct hop.1 hop.2
  | moveAssign id other => exact h.moveAssign hop.1 hop.2
  | write id bytes =>
    obtain ⟨o, ho, hbytes⟩ := hop
    exact h.write ho hbytes
  | destroy id => exact h.destroy hop

/-- A process without objects has no memory left. -/
theorem Sound.blocks_eq_none (h : p.Sound) (hnone : ∀ id, p.objects id = none) (address : ℕ) :
    p.blocks address = none := by
  cases hb : p.blocks address with
  | none => rfl
  | some b =>
    obtain ⟨id, hid⟩ := h.owners.held_of_live (r := address)
      (show Option.isSome _ = true by rw [hb]; rfl)
    rw [held_of_none (hnone id)] at hid
    cases hid

theorem Sound.run {p : Process} (h : p.Sound) {ops : List Op}
    (hops : Run.Along Op.step Op.Allowed ops p) : ∃ p', run ops p = some p' ∧ p'.Sound := by
  induction ops generalizing p with
  | nil => exact ⟨p, rfl, h⟩
  | cons op ops ih =>
    obtain ⟨p₁, hp₁, hsound⟩ := h.step hops.1
    obtain ⟨p', hp', hsound'⟩ := ih hsound (hops.2 p₁ hp₁)
    refine ⟨p', ?_, hsound'⟩
    rw [SecureMemory.run, hp₁]
    exact hp'

end Process

/-- **However objects come, move and go**, no call of libsodium is undefined.
Every live allocation has one owner, whose memory is locked and of its size;
what was written to and freed was zeroed; and once all objects are gone no
allocation is left. -/
theorem sound_of_run {ops : List Op} (h : Run.Along Op.step Op.Allowed ops .start) :
    ∃ p, run ops .start = some p
      ∧ SoleOwners p.held p.Live
      ∧ (∀ id o address, p.objects id = some o → o.buffer = some address →
          ∃ b, p.blocks address = some b ∧ b.locked = true ∧ b.contents.length = o.size)
      ∧ (∀ b ∈ p.freed, b.written = true → ∀ byte ∈ b.contents, byte = 0)
      ∧ ((∀ id, p.objects id = none) → ∀ address, p.blocks address = none) := by
  obtain ⟨p, hp, hsound⟩ := Process.sound_start.run h
  exact ⟨p, hp, hsound.owners, fun _ _ _ => hsound.backed, hsound.zeroed, hsound.blocks_eq_none⟩

/-- A key is written, moved into an object that held another, and destroyed. -/
theorem sound_of_moved : ∃ p, run [.create 0 2 (some (7, [3, 1])) true, .write 0 [5, 6],
      .create 1 2 (some (8, [4, 4])) true, .moveAssign 1 0, .destroy 0, .destroy 1] .start = some p
    ∧ SoleOwners p.held p.Live
    ∧ (∀ id o address, p.objects id = some o → o.buffer = some address →
        ∃ b, p.blocks address = some b ∧ b.locked = true ∧ b.contents.length = o.size)
    ∧ (∀ b ∈ p.freed, b.written = true → ∀ byte ∈ b.contents, byte = 0)
    ∧ ((∀ id, p.objects id = none) → ∀ address, p.blocks address = none) := by
  have hmalloc : ∀ {p : Process} {size : ℕ} {m : ℕ × List UInt8}, p.blocks m.1 = none →
      m.2.length = size → ∀ m', some m = some m' → p.blocks m'.1 = none ∧ m'.2.length = size := by
    rintro p size m hfree hlength m' hm'
    rw [← Option.some.inj hm']
    exact ⟨hfree, hlength⟩
  refine sound_of_run ⟨⟨rfl, hmalloc rfl rfl⟩, fun p₁ h₁ => ?_⟩
  obtain rfl := Option.some.inj h₁
  refine ⟨⟨_, rfl, by decide⟩, fun p₂ h₂ => ?_⟩
  obtain rfl := Option.some.inj h₂
  refine ⟨⟨rfl, hmalloc rfl rfl⟩, fun p₃ h₃ => ?_⟩
  obtain rfl := Option.some.inj h₃
  refine ⟨⟨Option.some_ne_none _, Option.some_ne_none _⟩, fun p₄ h₄ => ?_⟩
  obtain rfl := Option.some.inj h₄
  refine ⟨Option.some_ne_none _, fun p₅ h₅ => ?_⟩
  obtain rfl := Option.some.inj h₅
  exact ⟨Option.some_ne_none _, fun p₆ h₆ => trivial⟩

end SecureMemory
