import Eastwood.Ratchet

/-!
# The receive chain as a one-shot receiver

Within one receive chain `advance_receive` is an implementation of the
abstract receiver of `KeyChain`: the keys of skipped positions sit in
`skippedKeys`, the positions from the receive index on are still to be
derived. `Serves` says that the ratchet can answer every position not yet
spent, `Refines` that moreover it holds back nothing else – the difference
being exactly what a backlog left over from another chain adds.

`Serves.receive` and `Refines.receive` are the two step lemmas, one take of
the abstract receiver for one answered header; `Refines.refuse` is the step
of a header already answered, and `Refines.simulates` the two together: the
ratchet answers what the abstract receiver answers. Both loops of
`advance_receive` are closed forms first (`receiveLoop_eq`,
`cacheForward_eq`).
-/

variable {K : Type}

/-- The step of the symmetric ratchets: sub-keys 1 and 0 under
`"DRSndKey"`. -/
def Sodium.chainStep (S : Sodium K) : KeyChain.Step K where
  next k := S.kdf k 1 .drSndKey
  out k := S.kdf k 0 .drSndKey

/-- The chain key `dh_ratchet_step` makes of a DH output. -/
def Sodium.dhChainKey (S : Sodium K) (dhOutput : K) : K :=
  S.kdf (S.generichash [dhOutput]) 1 .dhRatchet

/-- An injective key derivation makes a chain that never comes back, whatever
its seed was derived with, as long as it was not a chain key itself. -/
theorem Sodium.KdfInjective.fresh {S : Sodium K} (hS : S.KdfInjective)
    {c : KeyChain K} {k : K} {i : ℕ} {ctx : KdfContext} (hc : c.seed = S.kdf k i ctx)
    (hctx : ctx ≠ .drSndKey) : c.Fresh S.chainStep where
  next_injective _ _ h := (hS h).1
  out_injective _ _ h := (hS h).1
  seed_ne _ h := hctx (hS (h.trans hc)).2.2.symm

namespace NewRatchet

variable (S : Sodium K)

/-! ## What the loops write -/

theorem keepBack_eq (i : ℤ) (r : NewRatchet K) :
    r.keepBack S i =
      { r with
        receiveChain := { r.receiveChain with key := S.chainStep.next r.receiveChain.key }
        skippedKeys := r.skippedKeys.insert i (S.chainStep.out r.receiveChain.key) } := rfl

/-- **The forwarding loop in closed form**: it advances the chain key `n`
times, leaves the receive index where it was, and files the keys under the
indices from `i` on. -/
theorem cacheForward_eq (n : ℕ) (i : ℤ) (r : NewRatchet K) :
    ∃ sk, r.cacheForward S n i =
        { r with
          receiveChain :=
            { r.receiveChain with key := S.chainStep.next^[n] r.receiveChain.key }
          skippedKeys := sk }
      ∧ ∀ x, x < i ∨ i + n ≤ x → sk.lookup x = r.skippedKeys.lookup x := by
  induction n generalizing i r with
  | zero => exact ⟨r.skippedKeys, rfl, fun _ _ => rfl⟩
  | succ n ih =>
    obtain ⟨sk, hr, hsk⟩ := ih (i + 1) (r.keepBack S i)
    refine ⟨sk, ?_, fun x hx => ?_⟩
    · rw [cacheForward, hr, keepBack_eq]
      rfl
    · rw [hsk x (by push_cast at hx; omega), keepBack_eq]
      exact Finmap.lookup_insert_of_ne _ (by push_cast at hx; omega)

/-- **The receive loop in closed form**, from a ratchet whose chain key is
that of position `j` of a chain, whatever its receive index `z`: it answers
with the message key as many positions on as the target is, and files those
it passes. -/
theorem receiveLoop_eq_of_index (c : KeyChain K) (z : ℤ) (j m : ℕ) (r : NewRatchet K)
    (hj : c.start ≤ j) (hk : r.receiveChain.key = c.chainKey S.chainStep j)
    (hmax : z + m ≠ intMax) :
    ∃ sk, receiveLoop S (z + m) (m + 1) z r =
        (.ok (c.messageKey S.chainStep (j + m)),
          { r with
            receiveChain :=
              { index := z + m + 1, key := c.chainKey S.chainStep (j + m + 1) }
            skippedKeys := sk })
      ∧ ∀ x : ℤ, sk.lookup x = if z ≤ x ∧ x < z + m
          then some (c.messageKey S.chainStep (j + (x - z).toNat))
          else r.skippedKeys.lookup x := by
  induction m generalizing z j r with
  | zero =>
    refine ⟨r.skippedKeys, ?_, fun x => ?_⟩
    · have hne : z ≠ intMax := by push_cast at hmax; omega
      simp only [receiveLoop, progressReceiveRatchet, Nat.cast_zero, add_zero, if_true,
        if_neg hne]
      rw [← KeyChain.next_chainKey S.chainStep c hj, ← hk]
      simp only [KeyChain.messageKey, ← hk]
      rfl
    · rw [if_neg (by push_cast; omega)]
  | succ m ih =>
    have hne : z ≠ z + (m + 1 : ℕ) := by push_cast; omega
    obtain ⟨sk, hr, hsk⟩ := ih (z + 1) (j + 1) (r.keepBack S z) (by omega)
      (by rw [keepBack_eq, ← KeyChain.next_chainKey S.chainStep c hj, hk])
      (by push_cast at hmax ⊢; omega)
    have hidx : z + 1 + m = z + (m + 1 : ℕ) := by push_cast; omega
    have hpos : j + 1 + m = j + (m + 1) := by omega
    rw [hidx, hpos] at hr
    refine ⟨sk, ?_, fun x => ?_⟩
    · rw [receiveLoop, if_neg hne]
      exact hr
    · rw [hsk x, keepBack_eq]
      by_cases hx : x = z
      · -- the round itself filed this index, and no later one does
        subst hx
        rw [if_neg (by omega), if_pos (by push_cast; omega), Finmap.lookup_insert, hk, sub_self]
        rfl
      · rw [Finmap.lookup_insert_of_ne _ hx]
        by_cases hlt : z ≤ x ∧ x < z + (m + 1 : ℕ)
        · rw [if_pos hlt, if_pos (by push_cast at hlt ⊢; omega),
            show j + 1 + (x - (z + 1)).toNat = j + (x - z).toNat by omega]
        · rw [if_neg hlt, if_neg (by push_cast at hlt ⊢; omega)]

/-- The same where the receive index is the position. -/
theorem receiveLoop_eq (c : KeyChain K) (j m : ℕ) (r : NewRatchet K)
    (hj : c.start ≤ j) (hk : r.receiveChain.key = c.chainKey S.chainStep j)
    (hmax : (j + m : ℤ) ≠ intMax) :
    ∃ sk, receiveLoop S (j + m) (m + 1) j r =
        (.ok (c.messageKey S.chainStep (j + m)),
          { r with
            receiveChain :=
              { index := j + m + 1, key := c.chainKey S.chainStep (j + m + 1) }
            skippedKeys := sk })
      ∧ ∀ x : ℤ, sk.lookup x = if (j : ℤ) ≤ x ∧ x < j + m
          then some (c.messageKey S.chainStep x.toNat) else r.skippedKeys.lookup x := by
  obtain ⟨sk, hr, hsk⟩ := receiveLoop_eq_of_index S c j j m r hj hk hmax
  refine ⟨sk, hr, fun x => ?_⟩
  rw [hsk x]
  split
  · rw [show j + (x - (j : ℤ)).toNat = x.toNat by omega]
  · rfl

/-- The position the counter cannot pass. -/
theorem receiveLoop_overflow (m : ℕ) (j : ℤ) (r : NewRatchet K) (h : j + m = intMax) :
    (receiveLoop S intMax (m + 1) j r).1 = .error .signedOverflow := by
  induction m generalizing j r with
  | zero =>
    rw [receiveLoop, if_pos (by simpa using h)]
    simp only [progressReceiveRatchet]
    rw [if_pos (by simpa using h)]
  | succ m ih =>
    rw [receiveLoop, if_neg (by push_cast at h; omega)]
    exact ih (j + 1) _ (by push_cast at h; omega)

/-! ## The refinement -/

/-- **The ratchet serves a chain**: it stands at position `n` of it and can
answer every position the abstract receiver `m` has not spent. -/
structure Serves (c : KeyChain K) (m : OneShot K) (n : ℕ) (r : NewRatchet K) : Prop where
  key_eq : m.key = c.messageKey S.chainStep
  start_le : c.start ≤ n
  index_eq : r.receiveChain.index = n
  chain_key : r.receiveChain.key = c.chainKey S.chainStep n
  before : ∀ i < c.start, i ∈ m.spent
  spent_lt : ∀ i ∈ m.spent, i < n
  held : ∀ i < n, i ∉ m.spent → r.skippedKeys.lookup (i : ℤ) = some (m.key i)

/-- **The ratchet refines the abstract receiver**: it serves the chain and
holds back no key but those of unspent positions below its index. -/
structure Refines (c : KeyChain K) (m : OneShot K) (n : ℕ) (r : NewRatchet K) : Prop
    extends Serves S c m n r where
  tidy : ∀ x k, r.skippedKeys.lookup x = some k →
    ∃ i : ℕ, x = i ∧ i < n ∧ i ∉ m.spent

variable {S} {c : KeyChain K} {m : OneShot K} {n : ℕ} {r : NewRatchet K}

/-- A ratchet serves the chain it stands at the start of. -/
theorem Serves.ofStart (hi : r.receiveChain.index = c.start)
    (hk : r.receiveChain.key = c.seed) :
    Serves S c ⟨c.messageKey S.chainStep, { i | i < c.start }⟩ c.start r where
  key_eq := rfl
  start_le := le_refl _
  index_eq := hi
  chain_key := by rw [hk, KeyChain.chainKey_start]
  before _ h := h
  spent_lt _ h := h
  held _ h hns := absurd h hns

/-- A ratchet with an empty backlog refines the receiver of the chain it
stands at position 0 of. -/
theorem Refines.ofStart (hc : c.start = 0) (hi : r.receiveChain.index = 0)
    (hk : r.receiveChain.key = c.seed) (hs : r.skippedKeys = ∅) :
    Refines S c ⟨c.messageKey S.chainStep, ∅⟩ 0 r where
  key_eq := rfl
  start_le := hc.le
  index_eq := hi
  chain_key := by rw [hk, ← hc, KeyChain.chainKey_start]
  before _ h := absurd h (by omega)
  spent_lt _ h := absurd h (Set.notMem_empty _)
  held _ h := absurd h (Nat.not_lt_zero _)
  tidy x k h := by rw [hs, Finmap.lookup_empty] at h; cases h

/-- Only the receive chain and the backlog matter to what a ratchet
serves. -/
theorem Serves.congr (h : Serves S c m n r) {r' : NewRatchet K}
    (hc : r'.receiveChain = r.receiveChain) (hs : r'.skippedKeys = r.skippedKeys) :
    Serves S c m n r' where
  key_eq := h.key_eq
  start_le := h.start_le
  index_eq := by rw [hc, h.index_eq]
  chain_key := by rw [hc, h.chain_key]
  before := h.before
  spent_lt := h.spent_lt
  held := by rw [hs]; exact h.held

theorem Refines.congr (h : Refines S c m n r) {r' : NewRatchet K}
    (hc : r'.receiveChain = r.receiveChain) (hs : r'.skippedKeys = r.skippedKeys) :
    Refines S c m n r' where
  toServes := h.toServes.congr hc hs
  tidy := by rw [hs]; exact h.tidy

/-- **The answer to a first header, in closed form**: its key, the receive
index moved past it if it was not already, and in the backlog its own entry
gone and those of the positions passed added. -/
theorem Serves.receive_eq (hs : Serves S c m n r) {h : MessageHeader K} {i : ℕ}
    (hi : h.messageIndex = i) (hmax : (i : ℤ) < intMax) (hns : i ∉ m.spent) :
    ∃ sk, receiveInChain S h r =
        (.ok (m.key i),
          { r with
            receiveChain :=
              { index := (max n (i + 1) : ℕ), key := c.chainKey S.chainStep (max n (i + 1)) }
            skippedKeys := sk })
      ∧ ∀ x : ℤ, sk.lookup x = if x = i ∧ i < n then none
          else if (n : ℤ) ≤ x ∧ x < i then some (m.key x.toNat)
          else r.skippedKeys.lookup x := by
  by_cases hlt : i < n
  · -- kept back when a later position was answered
    have hmx : max n (i + 1) = n := max_eq_left hlt
    have hch : r.receiveChain = { index := (n : ℤ), key := c.chainKey S.chainStep n } := by
      rw [← hs.index_eq, ← hs.chain_key]
    refine ⟨r.skippedKeys.erase h.messageIndex, ?_, fun x => ?_⟩
    · rw [receiveInChain, if_pos (by rw [hi, hs.index_eq]; exact_mod_cast hlt), hi,
        hs.held i hlt hns, hmx, ← hch]
    · by_cases hx : x = i
      · rw [if_pos ⟨hx, hlt⟩, hi, hx, Finmap.lookup_erase]
      · rw [if_neg (fun hc => hx hc.1), if_neg (by omega), hi, Finmap.lookup_erase_ne hx]
  · -- the chain is progressed to it
    obtain ⟨d, rfl⟩ := Nat.exists_eq_add_of_le (not_lt.mp hlt)
    obtain ⟨sk, hr, hsk⟩ := receiveLoop_eq S c n d r hs.start_le hs.chain_key
      (by push_cast at hmax; exact hmax.ne)
    have hmx : max n (n + d + 1) = n + d + 1 := max_eq_right (by omega)
    refine ⟨sk, ?_, fun x => ?_⟩
    · rw [receiveInChain, if_neg (by rw [hi, hs.index_eq]; push_cast; omega), hi, hs.index_eq,
        show (((n + d : ℕ) : ℤ) + 1 - n).toNat = d + 1 by push_cast; omega, hs.key_eq, hmx]
      push_cast
      exact hr
    · rw [if_neg (fun hc => hlt hc.2), hs.key_eq, hsk x]
      push_cast
      rfl

/-- **A first header is answered with its key**, and answering it is one take
of the abstract receiver. Nothing but the receive chain and the backlog
changes. -/
theorem Serves.receive (hs : Serves S c m n r) {h : MessageHeader K} {i : ℕ}
    (hi : h.messageIndex = i) (hmax : (i : ℤ) < intMax) (hns : i ∉ m.spent) :
    ∃ ch sk, receiveInChain S h r =
        (.ok (m.key i), { r with receiveChain := ch, skippedKeys := sk })
      ∧ Serves S c (m.take i).2 (max n (i + 1))
          { r with receiveChain := ch, skippedKeys := sk } := by
  obtain ⟨sk, hr, hsk⟩ := hs.receive_eq hi hmax hns
  refine ⟨_, sk, hr, ?_⟩
  refine
    { key_eq := by rw [OneShot.take_key, hs.key_eq]
      start_le := le_trans hs.start_le (le_max_left _ _)
      index_eq := rfl
      chain_key := rfl
      before := fun j hj => ?_
      spent_lt := fun j hj => ?_
      held := fun j hj hjs => ?_ }
  · rw [OneShot.take_spent]
    exact Set.mem_insert_of_mem _ (hs.before j hj)
  · rw [OneShot.take_spent] at hj
    rcases Set.mem_insert_iff.mp hj with rfl | hj
    · omega
    · have := hs.spent_lt j hj
      omega
  · rw [OneShot.take_spent, Set.mem_insert_iff, not_or] at hjs
    rw [OneShot.take_key]
    show sk.lookup (j : ℤ) = _
    rw [hsk, if_neg (by omega)]
    by_cases hjn : j < n
    · rw [if_neg (by omega)]
      exact hs.held j hjn hjs.2
    · have := hjs.1
      rw [if_pos (by omega), Int.toNat_natCast]

/-- The same for a ratchet that holds back nothing else: it still does not. -/
theorem Refines.receive (hs : Refines S c m n r) {h : MessageHeader K} {i : ℕ}
    (hi : h.messageIndex = i) (hmax : (i : ℤ) < intMax) (hns : i ∉ m.spent) :
    ∃ ch sk, receiveInChain S h r =
        (.ok (m.key i), { r with receiveChain := ch, skippedKeys := sk })
      ∧ Refines S c (m.take i).2 (max n (i + 1))
          { r with receiveChain := ch, skippedKeys := sk } := by
  obtain ⟨ch, sk, hr, hs'⟩ := hs.toServes.receive hi hmax hns
  obtain ⟨sk', hr', hsk⟩ := hs.toServes.receive_eq hi hmax hns
  have hsk' : sk = sk' := congrArg (fun p => p.2.skippedKeys) (hr.symm.trans hr')
  subst hsk'
  refine ⟨ch, sk, hr, hs', fun x k hx => ?_⟩
  rw [OneShot.take_spent]
  change sk.lookup x = some k at hx
  rw [hsk x] at hx
  split at hx
  · cases hx
  · rename_i hxi
    split at hx
    · rename_i hxn
      refine ⟨x.toNat, by omega, by omega, ?_⟩
      rw [Set.mem_insert_iff, not_or]
      exact ⟨by omega, fun hc => by have := hs.spent_lt _ hc; omega⟩
    · obtain ⟨j, rfl, hjn, hjs⟩ := hs.tidy x k hx
      refine ⟨j, rfl, by omega, ?_⟩
      rw [Set.mem_insert_iff, not_or]
      exact ⟨by omega, hjs⟩

/-- **A header already answered is refused**, and the ratchet is left as it
was. -/
theorem Refines.refuse (hs : Refines S c m n r) {h : MessageHeader K} {i : ℕ}
    (hi : h.messageIndex = i) (hsp : i ∈ m.spent) :
    receiveInChain S h r = (.error (.runtimeError "Key not found in backlog"), r) := by
  have hlt := hs.spent_lt i hsp
  have hnone : r.skippedKeys.lookup (i : ℤ) = none := by
    cases hk : r.skippedKeys.lookup (i : ℤ) with
    | none => rfl
    | some k =>
      obtain ⟨j, hj, -, hjs⟩ := hs.tidy i k hk
      exact absurd hsp (by rwa [show i = j by exact_mod_cast hj])
  rw [receiveInChain, if_pos (by rw [hi, hs.index_eq]; exact_mod_cast hlt), hi, hnone]

/-- What `advance_receive` makes of the abstract receiver's answer. -/
def answer : Option K → Except Fault K
  | some key => .ok key
  | none => .error (.runtimeError "Key not found in backlog")

/-- **The receive chain simulates the one-shot receiver**: one header of the
chain is one take, with the same answer, and it writes nothing outside the
receive chain and the backlog. -/
theorem Refines.simulates (hs : Refines S c m n r) {h : MessageHeader K} {i : ℕ}
    (hi : h.messageIndex = i) (hmax : (i : ℤ) < intMax) :
    ∃ n' ch sk, receiveInChain S h r =
        (answer (m.take i).1, { r with receiveChain := ch, skippedKeys := sk })
      ∧ Refines S c (m.take i).2 n' { r with receiveChain := ch, skippedKeys := sk } := by
  by_cases hsp : i ∈ m.spent
  · refine ⟨n, r.receiveChain, r.skippedKeys, ?_, ?_⟩
    · rw [hs.refuse hi hsp, OneShot.take, if_pos hsp]
      rfl
    · rw [OneShot.take, if_pos hsp]
      exact hs
  · obtain ⟨ch, sk, hr, hs'⟩ := hs.receive hi hmax hsp
    refine ⟨_, ch, sk, ?_, hs'⟩
    rw [hr, OneShot.take, if_neg hsp]
    rfl

/-! ## The sending chain -/

variable [Zero K]

/-- The header of the next message. -/
def nextHeader (r : NewRatchet K) : MessageHeader K :=
  { MessageHeader.empty with
    dhPublic := r.localDhPublic
    messageIndex := r.sendChain.index
    prevChainLength := r.receiveChain.index }

/-- **A send in closed form**, when no DH step is due and the counter has
room: the key of the position the sending chain stands at. -/
theorem advanceSend_eq (hdue : r.dueToSendNewDh = false) {i : ℕ} (hc : c.start ≤ i)
    (hch : r.sendChain = { index := (i : ℤ), key := c.chainKey S.chainStep i })
    (hmax : (i : ℤ) < intMax) :
    r.advanceSend S =
      (.ok (c.messageKey S.chainStep i, r.nextHeader),
        { r with sendChain :=
          { index := (i + 1 : ℕ), key := c.chainKey S.chainStep (i + 1) } }) := by
  have hne : r.sendChain.index ≠ intMax := by rw [hch]; exact ne_of_lt hmax
  have hk : r.sendChain.key = c.chainKey S.chainStep i := by rw [hch]
  have hidx : r.sendChain.index = i := by rw [hch]
  rw [advanceSend, if_neg (by simp [hdue]), progressSendingRatchet, if_neg hne,
    ← KeyChain.next_chainKey S.chainStep c hc, hk, hidx]
  simp only [nextHeader, hidx, Nat.cast_add, Nat.cast_one]
  rfl

/-- At the end of the counter a send is undefined. -/
theorem advanceSend_overflow (hdue : r.dueToSendNewDh = false)
    (hmax : r.sendChain.index = intMax) :
    r.advanceSend S = (.error .signedOverflow, r) := by
  rw [advanceSend, if_neg (by simp [hdue]), progressSendingRatchet, if_pos hmax]

end NewRatchet
