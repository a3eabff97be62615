import Eastwood.RatchetChain

/-!
# The DH step in closed form

A header with a new public key makes `advance_receive` write, in this order,
what the forwarding loop keeps back of the old receive chain, the new public
key, the receive chain of the DH output with it, a new key pair, and the
sending chain of the DH output of that pair (`advanceReceive_newDh`). The
header is then answered from the new receive chain, which leaves everything
but the chain and the backlog alone (`receiveInChain_frame`).

On the sending side the step that is due derives the very chain it replaces,
if the other side's key is still the same; `nextChain` is the chain the next
send is on, due step included, and `sendMany_spec` says what a batch of sends
hands out.
-/

variable {K : Type}

namespace NewRatchet

variable (S : Sodium K)

/-! ## On a receive -/

theorem receiveLoop_frame (target : ℤ) (n : ℕ) (i : ℤ) (r : NewRatchet K) :
    ∃ ch sk, (receiveLoop S target n i r).2 = { r with receiveChain := ch, skippedKeys := sk } := by
  induction n generalizing i r with
  | zero => exact ⟨_, _, rfl⟩
  | succ n ih =>
    rw [receiveLoop]
    split
    · simp only [progressReceiveRatchet]
      split
      · exact ⟨_, _, rfl⟩
      · exact ⟨_, _, rfl⟩
    · obtain ⟨ch, sk, h⟩ := ih (i + 1) (r.keepBack S i)
      exact ⟨ch, sk, h⟩

/-- **The receive chain answers within itself**: whatever the header, nothing
but the chain and the backlog changes. -/
theorem receiveInChain_frame (h : MessageHeader K) (r : NewRatchet K) :
    ∃ ch sk, (receiveInChain S h r).2 = { r with receiveChain := ch, skippedKeys := sk } := by
  rw [receiveInChain]
  split
  · split
    · exact ⟨_, _, rfl⟩
    · exact ⟨_, _, rfl⟩
  · exact receiveLoop_frame S _ _ _ r

/-- The ratchet a header with a new public key leaves before it is answered,
`x` and `y` being the DH outputs of the old and the new private key with it,
`sk` the backlog after the forwarding loop. -/
def turned (r : NewRatchet K) (dhPublic fresh x y : K) (sk : Finmap (fun _ : ℤ => K)) :
    NewRatchet K :=
  { r with
    dueToSendNewDh := true
    rootKey := S.kdf (S.generichash [y]) 0 .dhRatchet
    sendChain := { index := 0, key := S.dhChainKey y }
    receiveChain := { index := 0, key := S.dhChainKey x }
    localDhPublic := S.boxPublic fresh
    localDhPriv := fresh
    remoteDhPublic := dhPublic
    skippedKeys := sk }

/-- **A header with a new public key**, both DH computations succeeding: the
loop writes at no index outside its range, and the header is answered from
the new chain. -/
theorem advanceReceive_newDh [DecidableEq K] {r : NewRatchet K} {h : MessageHeader K}
    {fresh x y : K} (hne : r.remoteDhPublic ≠ h.dhPublic)
    (hx : S.scalarmult r.localDhPriv h.dhPublic = some x)
    (hy : S.scalarmult fresh h.dhPublic = some y) :
    ∃ sk, r.advanceReceive S fresh h
        = receiveInChain S h (r.turned S h.dhPublic fresh x y sk)
      ∧ ∀ i, i < h.prevChainLength ∨ r.receiveChain.index ≤ i →
          sk.lookup i = r.skippedKeys.lookup i := by
  obtain ⟨sk, hc, hsk⟩ := cacheForward_eq S (r.receiveChain.index - h.prevChainLength).toNat
    h.prevChainLength r
  refine ⟨sk, ?_, fun i hi => hsk i ?_⟩
  · rw [advanceReceive, if_pos hne, hc]
    simp only [dhRatchetStep, dh, hx, generateNewLocalDhKeypair, hy]
    rfl
  · rcases hi with hi | hi
    · exact Or.inl hi
    · by_cases hlt : i < h.prevChainLength
      · exact Or.inl hlt
      · exact Or.inr (by omega)

/-- **A header with a new public key the DH computation refuses**: the key is
taken over all the same, and the receive chain has been progressed. -/
theorem advanceReceive_refusedDh [DecidableEq K] {r : NewRatchet K} {h : MessageHeader K}
    (hne : r.remoteDhPublic ≠ h.dhPublic)
    (hx : S.scalarmult r.localDhPriv h.dhPublic = none) (fresh : K) :
    ∃ sk, r.advanceReceive S fresh h =
        (.error (.runtimeError "Failed to perform dh"),
          { r with
            receiveChain :=
              { r.receiveChain with
                key := S.chainStep.next^[(r.receiveChain.index - h.prevChainLength).toNat]
                  r.receiveChain.key }
            remoteDhPublic := h.dhPublic
            skippedKeys := sk }) := by
  obtain ⟨sk, hc, -⟩ := cacheForward_eq S (r.receiveChain.index - h.prevChainLength).toNat
    h.prevChainLength r
  refine ⟨sk, ?_⟩
  rw [advanceReceive, if_pos hne, hc]
  simp only [dhRatchetStep, dh, hx]

/-- **A header with a new public key that only the second DH computation
refuses**: the receive chain and the key pair are new, the sending chain and
the flag are not. -/
theorem advanceReceive_refusedNewDh [DecidableEq K] {r : NewRatchet K} {h : MessageHeader K}
    {fresh x : K} (hne : r.remoteDhPublic ≠ h.dhPublic)
    (hx : S.scalarmult r.localDhPriv h.dhPublic = some x)
    (hy : S.scalarmult fresh h.dhPublic = none) :
    ∃ sk, r.advanceReceive S fresh h =
        (.error (.runtimeError "Failed to perform dh"),
          { r with
            rootKey := S.kdf (S.generichash [x]) 0 .dhRatchet
            receiveChain := { index := 0, key := S.dhChainKey x }
            localDhPublic := S.boxPublic fresh
            localDhPriv := fresh
            remoteDhPublic := h.dhPublic
            skippedKeys := sk }) := by
  obtain ⟨sk, hc, -⟩ := cacheForward_eq S (r.receiveChain.index - h.prevChainLength).toNat
    h.prevChainLength r
  refine ⟨sk, ?_⟩
  rw [advanceReceive, if_pos hne, hc]
  simp only [dhRatchetStep, dh, hx, generateNewLocalDhKeypair, hy]
  rfl

/-! ## On a send -/

/-- **The chain the next send is on**, the due step taken into account. -/
def nextChain (r : NewRatchet K) : Option (NewChain K) :=
  if r.dueToSendNewDh then
    (S.scalarmult r.localDhPriv r.remoteDhPublic).map fun x =>
      { index := 0, key := S.dhChainKey x }
  else some r.sendChain

variable {S} {r r' : NewRatchet K}

/-- After a header with a new public key the next send is on the chain of the
new key pair, under its public half. -/
theorem advanceReceive_newDh_nextChain [DecidableEq K] {h : MessageHeader K} {fresh x y : K}
    (hne : r.remoteDhPublic ≠ h.dhPublic)
    (hx : S.scalarmult r.localDhPriv h.dhPublic = some x)
    (hy : S.scalarmult fresh h.dhPublic = some y) :
    (r.advanceReceive S fresh h).2.nextChain S
        = some { index := 0, key := S.dhChainKey y }
      ∧ (r.advanceReceive S fresh h).2.localDhPublic = S.boxPublic fresh := by
  obtain ⟨sk, hr, -⟩ := advanceReceive_newDh S hne hx hy
  obtain ⟨ch, sk', hframe⟩ := receiveInChain_frame S h (r.turned S h.dhPublic fresh x y sk)
  rw [hr, hframe]
  exact ⟨by simp [nextChain, turned, hy], rfl⟩

variable [Zero K]

/-- **A send** changes nothing of the receiving side. -/
theorem advanceSend_frame (r : NewRatchet K) :
    ∃ due root ch, (r.advanceSend S).2
      = { r with dueToSendNewDh := due, rootKey := root, sendChain := ch } := by
  have hprogress : ∀ r : NewRatchet K, ∃ ch,
      (progressSendingRatchet S r).2 = { r with sendChain := ch } := by
    intro r
    rw [progressSendingRatchet]
    split
    · exact ⟨_, rfl⟩
    · exact ⟨_, rfl⟩
  rw [advanceSend]
  split
  · rw [dhRatchetStep, dh]
    cases S.scalarmult r.localDhPriv r.remoteDhPublic with
    | none => exact ⟨_, _, _, rfl⟩
    | some x =>
      obtain ⟨ch, h⟩ := hprogress { r with
        dueToSendNewDh := false
        rootKey := S.kdf (S.generichash [x]) 0 .dhRatchet
        sendChain := { index := 0, key := S.dhChainKey x } }
      exact ⟨false, _, ch, h⟩
  · obtain ⟨ch, h⟩ := hprogress r
    exact ⟨_, _, ch, h⟩

/-- As a call it leaves the same. -/
theorem call_send_snd [DecidableEq K] (r : NewRatchet K) :
    (r.call S .send).2 = (r.advanceSend S).2 := by
  rw [call]
  cases r.advanceSend S with
  | mk result r' =>
    cases result with
    | ok m => rfl
    | error e => rfl

/-- A send is one without a due step, from the chain it is on. -/
theorem advanceSend_nextChain {c : NewChain K} (hc : r.nextChain S = some c) :
    ∃ root, r.advanceSend S =
      advanceSend S { r with rootKey := root, sendChain := c, dueToSendNewDh := false } := by
  rw [nextChain] at hc
  by_cases hdue : r.dueToSendNewDh
  · rw [if_pos hdue] at hc
    obtain ⟨x, hx, rfl⟩ := Option.map_eq_some_iff.mp hc
    refine ⟨S.kdf (S.generichash [x]) 0 .dhRatchet, ?_⟩
    rw [advanceSend, if_pos hdue, dhRatchetStep, dh, hx]
    rfl
  · rw [if_neg hdue] at hc
    refine ⟨r.rootKey, ?_⟩
    rw [← Option.some.inj hc, ← Bool.eq_false_of_not_eq_true hdue]

/-- **One send**: the key of the position its chain stands at, under the
local public key. The chain moves on by one and the keys stay. -/
theorem advanceSend_spec {c : KeyChain K} {i : ℕ} (hc : c.start ≤ i) (hi : (i : ℤ) ≤ intMax)
    (hch : r.nextChain S = some { index := (i : ℤ), key := c.chainKey S.chainStep i })
    {m : K × MessageHeader K} (hs : r.advanceSend S = (.ok m, r')) :
    (i : ℤ) < intMax
      ∧ (m.1 = c.messageKey S.chainStep i ∧ m.2.messageIndex = i
        ∧ m.2.dhPublic = r.localDhPublic)
      ∧ r'.nextChain S
        = some { index := (i + 1 : ℕ), key := c.chainKey S.chainStep (i + 1) }
      ∧ r'.localDhPublic = r.localDhPublic ∧ r'.remoteDhPublic = r.remoteDhPublic := by
  obtain ⟨root, hr⟩ := advanceSend_nextChain hch
  rw [hr] at hs
  rcases hi.lt_or_eq with hlt | heq
  · rw [advanceSend_eq rfl hc rfl hlt] at hs
    obtain ⟨hm, rfl⟩ := Prod.mk.inj hs
    obtain rfl := Except.ok.inj hm
    exact ⟨hlt, ⟨rfl, rfl, rfl⟩, rfl, rfl, rfl⟩
  · rw [advanceSend_overflow rfl heq] at hs
    cases (Prod.mk.inj hs).1

/-- A batch of sends, if they all succeed. -/
def sendMany (S : Sodium K) : ℕ → NewRatchet K →
    Except Fault (List (K × MessageHeader K) × NewRatchet K)
  | 0, r => .ok ([], r)
  | n + 1, r =>
    match r.advanceSend S with
    | (.error e, _) => .error e
    | (.ok m, r) =>
      match sendMany S n r with
      | .error e => .error e
      | .ok (ms, r) => .ok (m :: ms, r)

/-- **A batch of sends**: the `j`-th message has the key of the `j`-th
position from the start of the batch, under one and the same public key. -/
theorem sendMany_spec {c : KeyChain K} {i : ℕ} (hc : c.start ≤ i) (hi : (i : ℤ) ≤ intMax)
    (hch : r.nextChain S = some { index := (i : ℤ), key := c.chainKey S.chainStep i })
    {n : ℕ} {ms : List (K × MessageHeader K)} (hs : sendMany S n r = .ok (ms, r')) :
    (∀ (j : ℕ) m, ms[j]? = some m → m.1 = c.messageKey S.chainStep (i + j)
        ∧ m.2.messageIndex = (i + j : ℕ) ∧ ((i + j : ℕ) : ℤ) < intMax
        ∧ m.2.dhPublic = r.localDhPublic)
      ∧ r'.localDhPublic = r.localDhPublic ∧ r'.remoteDhPublic = r.remoteDhPublic := by
  induction n generalizing r i ms with
  | zero =>
    obtain ⟨rfl, rfl⟩ := Prod.mk.inj (Except.ok.inj hs)
    exact ⟨fun j m hj => by simp at hj, rfl, rfl⟩
  | succ n ih =>
    rw [sendMany] at hs
    split at hs
    · cases hs
    · rename_i m r₁ hone
      split at hs
      · cases hs
      · rename_i ms₁ r₂ hmany
        obtain ⟨rfl, rfl⟩ := Prod.mk.inj (Except.ok.inj hs)
        obtain ⟨hlt, ⟨hk, hidx, hpub⟩, hch₁, hlocal, hremote⟩ := advanceSend_spec hc hi hch hone
        obtain ⟨hms, hlocal₁, hremote₁⟩ := ih (by omega) (by push_cast; omega) hch₁ hmany
        refine ⟨fun j m' hj => ?_, hlocal₁.trans hlocal, hremote₁.trans hremote⟩
        cases j with
        | zero =>
          obtain rfl := Option.some.inj hj
          exact ⟨hk, hidx, hlt, hpub⟩
        | succ j =>
          have := hms j m' hj
          rwa [hlocal, show i + 1 + j = i + (j + 1) by omega] at this

end NewRatchet
