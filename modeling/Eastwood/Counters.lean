import Eastwood.Backlog
import Eastwood.MessageWire

/-!
# The counters of a receive

The two counters of a header are whatever 32-bit numbers the server sent, and
both loops of `advance_receive` run up to one of them or from it. The receive
index of a reachable ratchet is never negative (`Epoch.Run.index_bounds`), so
what the second loop keeps back never is either, and on return the index is
one past the header's or where it was (`receiveInChain_index`).

The rest depends on the header. The index one past the header's is not an
`int` if the header's is the last one, and the forwarding loop, which a new
public key sets off, files keys from `prev_chain_length` on, negative or not,
up to the receive index of the chain it is about to replace. `Counted` says
that a call does neither harm, and `counted_iff` when it does not.
-/

variable {K : Type}

/-- The counters of a header are those of the wire. -/
structure MessageHeader.OnWire (h : MessageHeader K) : Prop where
  prevChainLength : IsInt h.prevChainLength
  messageIndex : IsInt h.messageIndex

/-- And of a call, if it is a receive. -/
def NewRatchet.Call.OnWire : Call K → Prop
  | .send => True
  | .receive _ h => h.OnWire

namespace NewRatchet

variable (S : Sodium K)

/-! ## What is kept back -/

/-- **The indices a call files keys under**: those its two loops leave in an
empty backlog. -/
def storedIndices [DecidableEq K] (fresh : K) (h : MessageHeader K) (r : NewRatchet K) : Finset ℤ :=
  let r := { r with skippedKeys := ∅ }
  if r.remoteDhPublic ≠ h.dhPublic then
    let r := r.cacheForward S (r.receiveChain.index - h.prevChainLength).toNat h.prevChainLength
    match { r with remoteDhPublic := h.dhPublic }.dhRatchetStep S (some fresh) with
    | (.error _, _) => r.skippedKeys.keys
    | (.ok (), turned) =>
      r.skippedKeys.keys ∪ (receiveInChain S h { turned with skippedKeys := ∅ }).2.skippedKeys.keys
  else (receiveInChain S h r).2.skippedKeys.keys

theorem mem_cacheForward (n : ℕ) (i x : ℤ) (r : NewRatchet K) :
    x ∈ (r.cacheForward S n i).skippedKeys ↔ (i ≤ x ∧ x < i + n) ∨ x ∈ r.skippedKeys := by
  induction n generalizing i r with
  | zero =>
    rw [cacheForward]
    constructor
    · exact Or.inr
    · rintro (hx | hx)
      · push_cast at hx
        omega
      · exact hx
  | succ n ih =>
    rw [cacheForward, ih, keepBack_eq]
    change _ ∨ x ∈ r.skippedKeys.insert i _ ↔ _
    rw [Finmap.mem_insert, ← or_assoc]
    refine or_congr_left ?_
    push_cast
    omega

theorem mem_receiveLoop (target : ℤ) (n : ℕ) (i x : ℤ) (r : NewRatchet K)
    (hn : i + n = target + 1) :
    x ∈ (receiveLoop S target n i r).2.skippedKeys ↔ (i ≤ x ∧ x < target) ∨ x ∈ r.skippedKeys := by
  induction n generalizing i r with
  | zero =>
    rw [receiveLoop, or_iff_right]
    push_cast at hn
    omega
  | succ n ih =>
    rw [receiveLoop]
    by_cases hi : i = target
    · have hout : ¬ (i ≤ x ∧ x < target) := by omega
      rw [if_pos hi, or_iff_right hout]
      simp only [progressReceiveRatchet]
      split
      · rfl
      · rfl
    · rw [if_neg hi, ih (i + 1) (r.keepBack S i) (by push_cast at hn; omega), keepBack_eq]
      change _ ∨ x ∈ r.skippedKeys.insert i _ ↔ _
      rw [Finmap.mem_insert, ← or_assoc]
      refine or_congr_left ?_
      push_cast at hn
      omega

theorem receiveLoop_index (target : ℤ) (n : ℕ) (i : ℤ) (r : NewRatchet K)
    (hn : i + n = target + 1) (hpos : 0 < n) :
    ((receiveLoop S target n i r).1 = .error .signedOverflow ↔ target = intMax)
      ∧ (receiveLoop S target n i r).2.receiveChain.index
        = if target = intMax then r.receiveChain.index else target + 1 := by
  induction n generalizing i r with
  | zero => exact absurd hpos (lt_irrefl 0)
  | succ n ih =>
    rw [receiveLoop]
    by_cases hi : i = target
    · rw [if_pos hi]
      simp only [progressReceiveRatchet, hi]
      by_cases hmax : target = intMax
      · simp [hmax]
      · simp [hmax]
    · rw [if_neg hi]
      push_cast at hn
      exact ih (i + 1) (r.keepBack S i) (by omega) (by omega)

/-! ## The answer from the receive chain -/

variable {S} {h : MessageHeader K} {fresh : K} {r : NewRatchet K}

/-- **The chain cannot answer the last index**: it is the one position whose
successor is no `int`. -/
theorem receiveInChain_overflow_iff :
    (receiveInChain S h r).1 = .error .signedOverflow
      ↔ r.receiveChain.index ≤ h.messageIndex ∧ h.messageIndex = intMax := by
  rw [receiveInChain]
  by_cases hlt : h.messageIndex < r.receiveChain.index
  · rw [if_pos hlt]
    refine iff_of_false (fun hub => ?_) (fun hle => not_lt.mpr hle.1 hlt)
    split at hub
    · exact absurd (Except.error.inj hub) (by decide)
    · cases hub
  · rw [if_neg hlt, (receiveLoop_index S h.messageIndex _ _ r (by omega) (by omega)).1]
    exact (and_iff_right (not_lt.mp hlt)).symm

/-- **The receive index after an answer**: one past the header's, unless it
was further. -/
theorem receiveInChain_index (hmax : h.messageIndex ≠ intMax) :
    (receiveInChain S h r).2.receiveChain.index
      = max (h.messageIndex + 1) r.receiveChain.index := by
  rw [receiveInChain]
  by_cases hlt : h.messageIndex < r.receiveChain.index
  · rw [if_pos hlt, max_eq_right (by omega)]
    split
    · rfl
    · rfl
  · rw [if_neg hlt, (receiveLoop_index S h.messageIndex _ _ r (by omega) (by omega)).2,
      if_neg hmax, max_eq_left (by omega)]

/-- It keeps back what lies between, and takes out no other key than the
header's. -/
theorem mem_receiveInChain {x : ℤ} (hx : x ≠ h.messageIndex) :
    x ∈ (receiveInChain S h r).2.skippedKeys
      ↔ (r.receiveChain.index ≤ x ∧ x < h.messageIndex) ∨ x ∈ r.skippedKeys := by
  rw [receiveInChain]
  by_cases hlt : h.messageIndex < r.receiveChain.index
  · have hout : ¬ (r.receiveChain.index ≤ x ∧ x < h.messageIndex) := by omega
    rw [if_pos hlt, or_iff_right hout]
    split
    · rfl
    · rw [Finmap.mem_erase]
      exact and_iff_right hx
  · rw [if_neg hlt]
    exact mem_receiveLoop S h.messageIndex _ _ x r (by omega)

/-- From an empty backlog it keeps back what lies between, and nothing
else. -/
theorem mem_receiveInChain_empty {x : ℤ} (hr : r.skippedKeys = ∅) :
    x ∈ (receiveInChain S h r).2.skippedKeys
      ↔ r.receiveChain.index ≤ x ∧ x < h.messageIndex := by
  have hnot : x ∉ r.skippedKeys := hr ▸ Finmap.notMem_empty
  by_cases hx : x = h.messageIndex
  · refine iff_of_false ?_ (by omega)
    rw [receiveInChain]
    split
    · rw [show r.skippedKeys.lookup h.messageIndex = none by rw [hr, Finmap.lookup_empty]]
      exact hnot
    · rw [mem_receiveLoop S h.messageIndex _ _ x r (by omega)]
      rintro (hin | hin)
      · omega
      · exact hnot hin
  · rw [mem_receiveInChain hx]
    exact or_iff_left hnot

/-! ## One call -/

/-- Both DH computations accept the header's public key. -/
def Turns (S : Sodium K) (fresh : K) (h : MessageHeader K) (r : NewRatchet K) : Prop :=
  (S.scalarmult r.localDhPriv h.dhPublic).isSome ∧ (S.scalarmult fresh h.dhPublic).isSome

variable [DecidableEq K]

/-- **What a header under the current key files.** -/
theorem mem_storedIndices_of_eq (hsame : r.remoteDhPublic = h.dhPublic) {x : ℤ} :
    x ∈ storedIndices S fresh h r ↔ r.receiveChain.index ≤ x ∧ x < h.messageIndex := by
  rw [storedIndices, if_neg (not_not.mpr hsame), Finmap.mem_keys]
  exact mem_receiveInChain_empty rfl

omit [DecidableEq K] in
/-- The forwarding loop of a header: the receive index stays. -/
theorem forwarded_eq (S : Sodium K) (h : MessageHeader K) (r : NewRatchet K) :
    ∃ key sk, r.cacheForward S (r.receiveChain.index - h.prevChainLength).toNat h.prevChainLength
        = { r with
            receiveChain := { index := r.receiveChain.index, key := key }
            skippedKeys := sk }
      ∧ ∀ x, x ∈ sk ↔
          (h.prevChainLength ≤ x ∧ x < r.receiveChain.index) ∨ x ∈ r.skippedKeys := by
  obtain ⟨sk, hc, -⟩ := cacheForward_eq S (r.receiveChain.index - h.prevChainLength).toNat
    h.prevChainLength r
  refine ⟨_, sk, hc, fun x => ?_⟩
  have hmem := mem_cacheForward S (r.receiveChain.index - h.prevChainLength).toNat
    h.prevChainLength x r
  rw [hc] at hmem
  rw [hmem]
  refine or_congr_left ?_
  omega

/-- **What a header under a new key files**: the forwarding loop's indices,
and those below its own if it is answered. -/
theorem mem_storedIndices_of_ne (hne : r.remoteDhPublic ≠ h.dhPublic) {x : ℤ} :
    x ∈ storedIndices S fresh h r
      ↔ (h.prevChainLength ≤ x ∧ x < r.receiveChain.index)
        ∨ Turns S fresh h r ∧ 0 ≤ x ∧ x < h.messageIndex := by
  obtain ⟨key, sk, hc, hmem⟩ := forwarded_eq S h { r with skippedKeys := ∅ }
  have hforward : x ∈ sk ↔ h.prevChainLength ≤ x ∧ x < r.receiveChain.index :=
    (hmem x).trans (or_iff_left Finmap.notMem_empty)
  rw [storedIndices, if_pos hne, hc]
  simp only [dhRatchetStep, dh, generateNewLocalDhKeypair, Turns]
  cases hx : S.scalarmult r.localDhPriv h.dhPublic with
  | none => simpa [Finmap.mem_keys] using hforward
  | some y =>
    cases hy : S.scalarmult fresh h.dhPublic with
    | none => simpa [Finmap.mem_keys] using hforward
    | some z =>
      simp only [Finset.mem_union, Finmap.mem_keys, hforward]
      rw [mem_receiveInChain_empty rfl]
      simp

/-- **A header under a new key**, by how far the call gets: it is answered
from a chain at index 0, or the call throws with the index where it was or at
0. Either way the forwarding loop has added to the backlog. -/
theorem advanceReceive_of_ne (hne : r.remoteDhPublic ≠ h.dhPublic) :
    (Turns S fresh h r ∧ ∃ r₁, r.advanceReceive S fresh h = receiveInChain S h r₁
        ∧ r₁.receiveChain.index = 0
        ∧ ∀ x, x ∈ r₁.skippedKeys ↔
          (h.prevChainLength ≤ x ∧ x < r.receiveChain.index) ∨ x ∈ r.skippedKeys)
      ∨ ¬ Turns S fresh h r ∧ ∃ r₁, r.advanceReceive S fresh h
          = (.error (.runtimeError "Failed to perform dh"), r₁)
        ∧ (r₁.receiveChain.index
          = if (S.scalarmult r.localDhPriv h.dhPublic).isSome then 0 else r.receiveChain.index)
        ∧ ∀ x, x ∈ r₁.skippedKeys ↔
          (h.prevChainLength ≤ x ∧ x < r.receiveChain.index) ∨ x ∈ r.skippedKeys := by
  obtain ⟨key, sk, hc, hmem⟩ := forwarded_eq S h r
  rw [advanceReceive, if_pos hne, hc]
  simp only [dhRatchetStep, dh, generateNewLocalDhKeypair, Turns]
  cases hx : S.scalarmult r.localDhPriv h.dhPublic with
  | none => exact Or.inr ⟨by simp, _, rfl, rfl, hmem⟩
  | some y =>
    cases hy : S.scalarmult fresh h.dhPublic with
    | none => exact Or.inr ⟨by simp, _, rfl, rfl, hmem⟩
    | some z => exact Or.inl ⟨by simp, _, rfl, rfl, hmem⟩

/-- **The backlog after a call** has what was in it and what the call filed,
the header's own key apart. -/
theorem mem_advanceReceive {x : ℤ} (hx : x ≠ h.messageIndex) :
    x ∈ (r.advanceReceive S fresh h).2.skippedKeys
      ↔ x ∈ storedIndices S fresh h r ∨ x ∈ r.skippedKeys := by
  by_cases hsame : r.remoteDhPublic = h.dhPublic
  · rw [advanceReceive, if_neg (not_not.mpr hsame), mem_receiveInChain hx,
      mem_storedIndices_of_eq hsame]
  · rw [mem_storedIndices_of_ne hsame]
    rcases advanceReceive_of_ne hsame with ⟨hturns, r₁, hr, hidx, hmem⟩ | ⟨hnot, r₁, hr, -, hmem⟩
    · rw [hr, mem_receiveInChain hx, hmem, hidx]
      tauto
    · rw [hr, hmem]
      tauto

/-- **One call overflows** when the header's index is the last one and the
chain has to be progressed to it. -/
theorem advanceReceive_overflow_iff (hle : r.receiveChain.index ≤ intMax) :
    (r.advanceReceive S fresh h).1 = .error .signedOverflow
      ↔ h.messageIndex = intMax ∧ (r.remoteDhPublic = h.dhPublic ∨ Turns S fresh h r) := by
  by_cases hsame : r.remoteDhPublic = h.dhPublic
  · rw [advanceReceive, if_neg (not_not.mpr hsame), receiveInChain_overflow_iff]
    constructor
    · exact fun hub => ⟨hub.2, Or.inl hsame⟩
    · exact fun hub => ⟨hub.1 ▸ hle, hub.1⟩
  · rcases advanceReceive_of_ne hsame with ⟨hturns, r₁, hr, hidx, -⟩ | ⟨hnot, r₁, hr, -⟩
    · rw [hr, receiveInChain_overflow_iff, hidx]
      constructor
      · exact fun hub => ⟨hub.2, Or.inr hturns⟩
      · exact fun hub => ⟨by rw [hub.1]; decide, hub.1⟩
    · rw [hr]
      refine iff_of_false (fun hub => absurd (Except.error.inj hub) (by decide)) ?_
      rintro ⟨-, hor⟩
      exact hor.elim hsame hnot

/-- A call that returns a key was answered from a chain. -/
theorem answered_of_isOk (hok : (r.advanceReceive S fresh h).1.isOk) :
    r.remoteDhPublic = h.dhPublic ∨ Turns S fresh h r := by
  by_cases hsame : r.remoteDhPublic = h.dhPublic
  · exact Or.inl hsame
  · rcases advanceReceive_of_ne hsame with ⟨hturns, -⟩ | ⟨-, r₁, hr, -⟩
    · exact Or.inr hturns
    · rw [hr] at hok
      cases hok

/-- **The receive index after a call** that gets as far as the chain: one
past the header's, unless it was further. -/
theorem advanceReceive_index (hmax : h.messageIndex ≠ intMax)
    (hanswered : r.remoteDhPublic = h.dhPublic ∨ Turns S fresh h r) :
    (r.advanceReceive S fresh h).2.receiveChain.index
      = max (h.messageIndex + 1)
          (if r.remoteDhPublic = h.dhPublic then r.receiveChain.index else 0) := by
  by_cases hsame : r.remoteDhPublic = h.dhPublic
  · rw [advanceReceive, if_neg (not_not.mpr hsame), receiveInChain_index hmax, if_pos hsame]
  · rcases advanceReceive_of_ne hsame with ⟨-, r₁, hr, hidx, -⟩ | ⟨hnot, -⟩
    · rw [hr, receiveInChain_index hmax, hidx, if_neg hsame]
    · exact absurd (hanswered.resolve_left hsame) hnot

/-- It stays within an `int`, if the header is one of the wire. -/
theorem advanceReceive_index_bounds (h0 : 0 ≤ r.receiveChain.index)
    (hle : r.receiveChain.index ≤ intMax) (hwire : h.OnWire)
    (hdef : (r.advanceReceive S fresh h).1 ≠ .error .signedOverflow) :
    0 ≤ (r.advanceReceive S fresh h).2.receiveChain.index
      ∧ (r.advanceReceive S fresh h).2.receiveChain.index ≤ intMax := by
  have hm := hwire.messageIndex.2
  rw [Ne, advanceReceive_overflow_iff hle] at hdef
  by_cases hanswered : r.remoteDhPublic = h.dhPublic ∨ Turns S fresh h r
  · have hmax : h.messageIndex ≠ intMax := fun hmax => hdef ⟨hmax, hanswered⟩
    rw [advanceReceive_index hmax hanswered]
    simp only [intMax] at *
    split <;> omega
  · rw [not_or] at hanswered
    rcases advanceReceive_of_ne hanswered.1 with ⟨hturns, -⟩ | ⟨-, r₁, hr, hidx, -⟩
    · exact absurd hturns hanswered.2
    · rw [hr]
      simp only [intMax] at *
      split at hidx <;> omega

/-! ## Calls that count well -/

/-- **A call counts well**, below a bound on the indices it files keys under:
it is defined, files none but non-negative ones below the bound, and returns
with the receive index one past the header's or where the header found it. -/
structure Counted (S : Sodium K) (fresh : K) (h : MessageHeader K) (r : NewRatchet K) (top : ℤ) :
    Prop where
  defined : (r.advanceReceive S fresh h).1 ≠ .error .signedOverflow
  stored : ∀ i ∈ storedIndices S fresh h r, 0 ≤ i ∧ i < top
  index : (r.advanceReceive S fresh h).1.isOk →
    (r.advanceReceive S fresh h).2.receiveChain.index
      = max (h.messageIndex + 1)
          (if r.remoteDhPublic = h.dhPublic then r.receiveChain.index else 0)

omit [DecidableEq K] in
/-- **A header fits**: its index is not the last one, unless
the call throws before it looks, and a new public key does not come with a
negative previous length that the forwarding loop would start from. -/
structure Fits (S : Sodium K) (fresh : K) (h : MessageHeader K) (r : NewRatchet K) :
    Prop where
  messageIndex : h.messageIndex = intMax → r.remoteDhPublic ≠ h.dhPublic ∧ ¬ Turns S fresh h r
  prevChainLength : r.remoteDhPublic ≠ h.dhPublic →
    h.prevChainLength < r.receiveChain.index → 0 ≤ h.prevChainLength

omit [DecidableEq K] in
/-- **And whose own chain gets as far as the one it replaces**, if the
forwarding loop runs and the chain is replaced. -/
def Covers (S : Sodium K) (fresh : K) (h : MessageHeader K) (r : NewRatchet K) : Prop :=
  r.remoteDhPublic ≠ h.dhPublic → h.prevChainLength < r.receiveChain.index →
    (S.scalarmult r.localDhPriv h.dhPublic).isSome →
      Turns S fresh h r ∧ r.receiveChain.index ≤ h.messageIndex + 1

/-- The forwarding loop files within bounds when it starts at no negative
index and stops below the bound. -/
theorem forall_forwarded_iff {prev idx top : ℤ} :
    (∀ i, prev ≤ i ∧ i < idx → 0 ≤ i ∧ i < top) ↔ (prev < idx → 0 ≤ prev ∧ idx ≤ top) := by
  constructor
  · intro hall hlt
    have hfirst := hall prev ⟨le_rfl, hlt⟩
    have hlast := hall (idx - 1) ⟨by omega, by omega⟩
    omega
  · intro hbounds i hi
    have := hbounds (by omega)
    omega

/-- **What a call files is within bounds**, under any bound no less than the
index it leaves, exactly when what the forwarding loop files is. -/
theorem storedIndices_bounds_iff {top : ℤ} (h0 : 0 ≤ r.receiveChain.index)
    (hle : r.receiveChain.index ≤ intMax)
    (hdef : (r.advanceReceive S fresh h).1 ≠ .error .signedOverflow)
    (htop : (r.advanceReceive S fresh h).2.receiveChain.index ≤ top) :
    (∀ i ∈ storedIndices S fresh h r, 0 ≤ i ∧ i < top)
      ↔ (r.remoteDhPublic ≠ h.dhPublic → h.prevChainLength < r.receiveChain.index →
          0 ≤ h.prevChainLength ∧ r.receiveChain.index ≤ top) := by
  rw [Ne, advanceReceive_overflow_iff hle] at hdef
  have hindex : r.remoteDhPublic = h.dhPublic ∨ Turns S fresh h r → h.messageIndex < top := by
    intro hanswered
    have := advanceReceive_index (fun hmax => hdef ⟨hmax, hanswered⟩) hanswered
    omega
  by_cases hsame : r.remoteDhPublic = h.dhPublic
  · have hlt := hindex (Or.inl hsame)
    refine iff_of_true (fun i hi => ?_) (fun hne => absurd hsame hne)
    rw [mem_storedIndices_of_eq hsame] at hi
    omega
  · rw [forall_prop_of_true hsame, ← forall_forwarded_iff]
    constructor
    · exact fun hall i hi => hall i ((mem_storedIndices_of_ne hsame).mpr (Or.inl hi))
    · intro hall i hi
      rcases (mem_storedIndices_of_ne hsame).mp hi with hi | ⟨hturns, hi⟩
      · exact hall i hi
      · have hlt := hindex (Or.inr hturns)
        omega

/-- **One call**, under any bound that is no less than the index it leaves. -/
theorem counted_iff_of_le {top : ℤ} (h0 : 0 ≤ r.receiveChain.index)
    (hle : r.receiveChain.index ≤ intMax)
    (htop : (r.advanceReceive S fresh h).2.receiveChain.index ≤ top) :
    Counted S fresh h r top
      ↔ Fits S fresh h r ∧ (r.remoteDhPublic ≠ h.dhPublic →
          h.prevChainLength < r.receiveChain.index → r.receiveChain.index ≤ top) := by
  constructor
  · intro hc
    have hbounds := (storedIndices_bounds_iff h0 hle hc.defined htop).mp hc.stored
    refine ⟨⟨fun hmax => ?_, fun hne hlt => (hbounds hne hlt).1⟩,
      fun hne hlt => (hbounds hne hlt).2⟩
    rw [← not_or]
    exact fun hanswered => hc.defined ((advanceReceive_overflow_iff hle).mpr ⟨hmax, hanswered⟩)
  · rintro ⟨hfits, hbound⟩
    have hdef : (r.advanceReceive S fresh h).1 ≠ .error .signedOverflow := by
      rw [Ne, advanceReceive_overflow_iff hle]
      rintro ⟨hmax, hanswered⟩
      exact not_or.mpr (hfits.messageIndex hmax) hanswered
    refine ⟨hdef, (storedIndices_bounds_iff h0 hle hdef htop).mpr fun hne hlt =>
      ⟨hfits.prevChainLength hne hlt, hbound hne hlt⟩, fun hok => ?_⟩
    have hanswered := answered_of_isOk hok
    exact advanceReceive_index
      (fun hmax => not_or.mpr (hfits.messageIndex hmax) hanswered) hanswered

end NewRatchet

/-! ## Reachable ratchets -/

open NewRatchet

/-- What `get<int>` makes of a member is an `int`. -/
theorem Json.isInt_of_getInt {j : Json} {value : ℤ} (h : j.getInt = .ok value) : IsInt value := by
  cases j with
  | num n =>
    obtain rfl := Except.ok.inj h
    have hlow := Int.le_bmod (x := n) (m := 2 ^ 32) (by decide)
    have hhigh := Int.bmod_lt (x := n) (m := 2 ^ 32) (by decide)
    exact ⟨by omega, by omega⟩
  | bool b =>
    obtain rfl := Except.ok.inj h
    cases b <;> decide
  | _ => cases h

/-- Decoding an entry's texts leaves its numbers. -/
theorem onWire_of_decodeMessage {username devKey dhPub ciphertext fileId : String} {prev idx : ℤ}
    {m : String × DeviceMessage Key} (hprev : IsInt prev) (hidx : IsInt idx)
    (h : decodeMessage username devKey dhPub ciphertext prev idx fileId = .ok (some m)) :
    m.2.header.OnWire := by
  rw [decodeMessage] at h
  split at h
  · cases h
  · obtain ⟨_, -, h⟩ := exists_of_bind_eq_ok h
    obtain ⟨_, -, h⟩ := exists_of_bind_eq_ok h
    obtain ⟨_, -, h⟩ := exists_of_bind_eq_ok h
    obtain rfl := Option.some.inj (Except.ok.inj h)
    exact ⟨hprev, hidx⟩

/-- **The headers `get_messages` decodes** are those of the wire. -/
theorem onWire_of_getMessages {reply : Option Json} {ms : List (String × DeviceMessage Key)}
    (h : getMessages reply = .ok ms) {m : String × DeviceMessage Key} (hm : m ∈ ms) :
    m.2.header.OnWire := by
  have hnone : ∀ {m : String × DeviceMessage Key}, m ∉ ([] : List _) := fun hm => by cases hm
  rw [getMessages.eq_def] at h
  split at h
  · exact absurd (Except.ok.inj h ▸ hm) hnone
  · split at h
    · obtain ⟨message, -, h⟩ := Batch.exists_of_mem_decodeAll h hm
      -- username, device key, public key and ciphertext are two steps each
      obtain ⟨_, -, h⟩ := exists_of_bind_eq_ok h
      obtain ⟨_, -, h⟩ := exists_of_bind_eq_ok h
      obtain ⟨_, -, h⟩ := exists_of_bind_eq_ok h
      obtain ⟨_, -, h⟩ := exists_of_bind_eq_ok h
      obtain ⟨_, -, h⟩ := exists_of_bind_eq_ok h
      obtain ⟨_, -, h⟩ := exists_of_bind_eq_ok h
      obtain ⟨_, -, h⟩ := exists_of_bind_eq_ok h
      obtain ⟨_, -, h⟩ := exists_of_bind_eq_ok h
      obtain ⟨_, -, h⟩ := exists_of_bind_eq_ok h
      obtain ⟨prev, hprev, h⟩ := exists_of_bind_eq_ok h
      obtain ⟨_, -, h⟩ := exists_of_bind_eq_ok h
      obtain ⟨idx, hidx, h⟩ := exists_of_bind_eq_ok h
      obtain ⟨_, -, h⟩ := exists_of_bind_eq_ok h
      exact onWire_of_decodeMessage (Json.isInt_of_getInt hprev) (Json.isInt_of_getInt hidx) h
    · exact absurd (Except.ok.inj h ▸ hm) hnone

namespace Epoch

variable [DecidableEq K] [Zero K] {S : Sodium K} {r : NewRatchet K} {e : Epoch K}

/-- **The receive index of a reachable ratchet** is an `int` and not
negative, whatever the headers of the wire it was called with. -/
theorem Run.index_bounds (hrun : Run S (fun _ c => c.OnWire) r e) :
    0 ≤ r.receiveChain.index ∧ r.receiveChain.index ≤ intMax := by
  induction hrun with
  | start h =>
    rw [h.kept.receiveChain]
    exact ⟨le_rfl, (by decide : (0 : ℤ) ≤ intMax)⟩
  | @step r r' e c result _ hok hcall hdef ih =>
    cases c with
    | send =>
      obtain ⟨due, root, ch, hframe⟩ := advanceSend_frame (S := S) r
      have hr' : r' = (r.advanceSend S).2 := by
        rw [← call_send_snd, hcall]
      rw [hr', hframe]
      exact ih
    | receive fresh h =>
      change r.advanceReceive S fresh h = (result, r') at hcall
      have hno : (r.advanceReceive S fresh h).1 ≠ .error .signedOverflow := by
        rw [hcall]
        exact fun hub => absurd (hdef _ hub) (by decide)
      have hbounds := advanceReceive_index_bounds ih.1 ih.2 hok hno
      rwa [hcall] at hbounds

/-- **When a call counts well**: for every reachable ratchet and every header,
the indices it files keys under being compared with the receive index it
leaves, or with the larger of this and the one it found. -/
theorem counted_iff (hrun : Run S (fun _ c => c.OnWire) r e) (fresh : K) (h : MessageHeader K) :
    (Counted S fresh h r (r.advanceReceive S fresh h).2.receiveChain.index
        ↔ Fits S fresh h r ∧ Covers S fresh h r)
      ∧ (Counted S fresh h r
          (max r.receiveChain.index (r.advanceReceive S fresh h).2.receiveChain.index)
        ↔ Fits S fresh h r) := by
  obtain ⟨h0, hle⟩ := hrun.index_bounds
  constructor
  · rw [counted_iff_of_le h0 hle le_rfl]
    refine and_congr_right fun hfits => forall_congr' fun hne => forall_congr' fun hlt => ?_
    have hprev := hfits.prevChainLength hne hlt
    rcases advanceReceive_of_ne hne with ⟨hturns, -⟩ | ⟨hnot, r₁, hr, hidx, -⟩
    · have hmax : h.messageIndex ≠ intMax := fun hmax => (hfits.messageIndex hmax).2 hturns
      rw [advanceReceive_index hmax (Or.inr hturns), if_neg hne, forall_prop_of_true hturns.1,
        and_iff_right hturns]
      omega
    · rw [hr, hidx]
      by_cases hx : (S.scalarmult r.localDhPriv h.dhPublic).isSome
      · -- the chain is replaced and the second computation refuses: nothing is below 0
        rw [if_pos hx]
        exact iff_of_false (by omega) (fun hcovers => hnot (hcovers hx).1)
      · rw [if_neg hx]
        exact iff_of_true le_rfl (fun hx' => absurd hx' hx)
  · rw [counted_iff_of_le h0 hle (le_max_right _ _)]
    exact and_iff_left fun _ _ => le_max_left _ _

/-- A first header under a new key, one further than the first, counts
well. -/
theorem counted_iff_recipient :
    Run Sodium.ideal (fun _ c => c.OnWire) recipient (opening recipient)
      ∧ Counted Sodium.ideal 32 (idealHeader 24 0 1) recipient
          (recipient.advanceReceive Sodium.ideal 32 (idealHeader 24 0 1)).2.receiveChain.index := by
  have hrun : Run Sodium.ideal (fun _ c => c.OnWire) recipient (opening recipient) :=
    .start constructed_recipient
  refine ⟨hrun, (counted_iff hrun 32 (idealHeader 24 0 1)).1.mpr ⟨⟨fun hmax => ?_, ?_⟩, ?_⟩⟩
  · exact absurd hmax (by decide)
  · exact fun _ hlt => absurd hlt (by decide)
  · exact fun _ hlt => absurd hlt (by decide)

/-- The same ratchet, with a header of the last index, and with a new key and
a previous length of -1: the one overflows, the other files a key under
-1. -/
theorem not_counted_recipient :
    Run Sodium.ideal (fun _ c => c.OnWire) recipient (opening recipient)
      ∧ (idealHeader 8 0 intMax).OnWire
      ∧ (∀ top, ¬ Counted Sodium.ideal 0 (idealHeader 8 0 intMax) recipient top)
      ∧ (idealHeader 24 (-1) 0).OnWire
      ∧ ∀ top, ¬ Counted Sodium.ideal 32 (idealHeader 24 (-1) 0) recipient top := by
  refine ⟨.start constructed_recipient, ⟨by decide, by decide⟩, fun top hc => ?_,
    ⟨by decide, by decide⟩, fun top hc => ?_⟩
  · refine hc.defined ((advanceReceive_overflow_iff (by decide)).mpr ⟨rfl, Or.inl ?_⟩)
    decide
  · have hne : recipient.remoteDhPublic ≠ (idealHeader 24 (-1) 0).dhPublic := by decide
    have hmem : -1 ∈ storedIndices Sodium.ideal 32 (idealHeader 24 (-1) 0) recipient :=
      (mem_storedIndices_of_ne hne).mpr (Or.inl ⟨le_rfl, by decide⟩)
    exact absurd (hc.stored (-1) hmem).1 (by decide)

end Epoch
