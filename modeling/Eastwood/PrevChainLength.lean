import Eastwood.Counters

/-!
# The previous chain length of a header

A header's `prev_chain_length` is documented as the length of the sender's
previous sending chain. No field of a ratchet holds that number: the one named
`prev_chain_length` is never written, and `progress_sending_ratchet` fills the
header from the *receive* index.

What the documentation speaks of is kept here beside the calls, as
`ChainLengths`: the messages sent on the current and on the previous sending
chain, and how far the receive chain has been heard. A sending chain is the
one `dh_ratchet_step` sets up for a header with a new public key; the step the
next send makes derives that same chain once more
(`ChainLengths.Logs.nextChain`), so it starts no other.

Along any calls the receive index is what was heard (`ChainLengths.Logs`), so
a header is right about the previous chain exactly when as much was heard on
the peer's chain as was sent on the previous one
(`prevChainLength_eq_previous_iff`).
-/

variable {K : Type}

open NewRatchet

/-- **The lengths of the chains of a ratchet**, by the calls made so far. -/
structure ChainLengths where
  /-- The messages sent on the previous sending chain, none on the first. -/
  previous : ℕ
  /-- Those sent on the current one. -/
  current : ℕ
  /-- One past the highest index heard since the receive chain was set up. -/
  heard : ℤ
  deriving DecidableEq

namespace ChainLengths

/-- Those of a ratchet straight from a constructor. -/
def start : ChainLengths := ⟨0, 0, 0⟩

variable (S : Sodium K) [DecidableEq K] [Zero K]

/-- **The lengths after a call.** A new public key starts a sending chain if
both DH computations accept it. -/
def after (t : ChainLengths) (r : NewRatchet K) : Call K → ChainLengths
  | .send =>
    match r.advanceSend S with
    | (.ok _, _) => { t with current := t.current + 1 }
    | (.error _, _) => t
  | .receive fresh h =>
    if r.remoteDhPublic = h.dhPublic then
      { t with heard := max (h.messageIndex + 1) t.heard }
    else
      match S.scalarmult r.localDhPriv h.dhPublic, S.scalarmult fresh h.dhPublic with
      | none, _ => t
      -- the call throws between the two chains, and only the peer's is new
      | some _, none => { t with heard := 0 }
      | some _, some _ =>
        { previous := t.current, current := 0, heard := max (h.messageIndex + 1) 0 }

/-- The header a call sends. -/
def headersOf (r : NewRatchet K) : Call K → List (MessageHeader K)
  | .send =>
    match r.advanceSend S with
    | (.ok (_, header), _) => [header]
    | (.error _, _) => []
  | .receive _ _ => []

/-- **The headers a sequence of calls sends**, each with the lengths before
it. A call that runs into undefined behaviour is the last one. -/
def sentHeaders : List (Call K) → NewRatchet K → ChainLengths →
    List (ChainLengths × MessageHeader K)
  | [], _, _ => []
  | c :: calls, r, t =>
    (headersOf S r c).map (fun header => (t, header)) ++
      match r.call S c with
      | (.ok _, r') => sentHeaders calls r' (t.after S r c)
      | (.error e, r') => if e.isUndefined then [] else sentHeaders calls r' (t.after S r c)

omit [DecidableEq K] [Zero K] in
/-- **The state keeps the lengths**, but for the previous one. -/
structure Logs (t : ChainLengths) (r : NewRatchet K) : Prop where
  current : r.sendChain.index = t.current
  heard : r.receiveChain.index = t.heard
  /-- A due step derives the sending chain the ratchet has. -/
  nextChain : ∀ c, r.nextChain S = some c → c = r.sendChain

end ChainLengths

/-! ## What a send reads and leaves -/

namespace NewRatchet

variable {S : Sodium K} [Zero K] {r r' : NewRatchet K}

/-- **A send that returns**: the header's counters are the index of the chain
it is on and the receive index. -/
theorem advanceSend_lengths {m : K × MessageHeader K} (h : r.advanceSend S = (.ok m, r')) :
    ∃ c, r.nextChain S = some c ∧ m.2.messageIndex = c.index
      ∧ m.2.prevChainLength = r.receiveChain.index
      ∧ r'.sendChain.index = c.index + 1 ∧ r'.receiveChain = r.receiveChain
      ∧ r'.nextChain S = some r'.sendChain := by
  have hprogress : ∀ r : NewRatchet K, r.dueToSendNewDh = false →
      progressSendingRatchet S r = (.ok m, r') →
      m.2.messageIndex = r.sendChain.index ∧ m.2.prevChainLength = r.receiveChain.index
        ∧ r'.sendChain.index = r.sendChain.index + 1 ∧ r'.receiveChain = r.receiveChain
        ∧ r'.nextChain S = some r'.sendChain := by
    intro r hdue h
    rw [progressSendingRatchet] at h
    split at h
    · cases (Prod.mk.inj h).1
    · obtain ⟨hm, rfl⟩ := Prod.mk.inj h
      obtain rfl := Except.ok.inj hm
      refine ⟨rfl, rfl, rfl, rfl, ?_⟩
      rw [NewRatchet.nextChain, if_neg (Bool.eq_false_iff.mp hdue)]
  rw [advanceSend] at h
  rw [NewRatchet.nextChain]
  split at h
  · rename_i hdue
    rw [if_pos hdue]
    rw [dhRatchetStep, dh] at h
    cases hx : S.scalarmult r.localDhPriv r.remoteDhPublic with
    | none =>
      rw [hx] at h
      cases (Prod.mk.inj h).1
    | some x =>
      rw [hx] at h
      exact ⟨_, rfl, hprogress _ rfl h⟩
  · rename_i hdue
    rw [if_neg hdue]
    exact ⟨_, rfl, hprogress r (Bool.eq_false_iff.mpr hdue) h⟩

/-- **A send that throws** leaves the ratchet as it was. -/
theorem advanceSend_thrown {e : Fault} (h : r.advanceSend S = (.error e, r'))
    (he : e.isUndefined = false) : r' = r := by
  have hprogress : ∀ r r' : NewRatchet K, progressSendingRatchet S r ≠ (.error e, r') := by
    intro r r' h
    rw [progressSendingRatchet] at h
    split at h
    · obtain rfl := Except.error.inj (Prod.mk.inj h).1
      cases he
    · cases (Prod.mk.inj h).1
  rw [advanceSend] at h
  split at h
  · rw [dhRatchetStep, dh] at h
    cases hx : S.scalarmult r.localDhPriv r.remoteDhPublic with
    | none =>
      rw [hx] at h
      exact (Prod.mk.inj h).2.symm
    | some x =>
      rw [hx] at h
      exact absurd h (hprogress _ _)
  · exact absurd h (hprogress _ _)

omit [Zero K] in
/-- Where the pair has no DH output, no step derives another sending chain. -/
theorem nextChain_eq_of_refused (h : S.scalarmult r.localDhPriv r.remoteDhPublic = none)
    {c : NewChain K} (hc : r.nextChain S = some c) : c = r.sendChain := by
  rw [NewRatchet.nextChain] at hc
  split at hc
  · rw [h] at hc
    cases hc
  · exact (Option.some.inj hc).symm

end NewRatchet

/-! ## The receive index -/

namespace NewRatchet

variable {S : Sodium K} {h : MessageHeader K} {r : NewRatchet K}

/-- An answer that does not overflow leaves the receive index one past the
header's, or further if it was. -/
theorem receiveInChain_index_of_defined
    (hdef : (receiveInChain S h r).1 ≠ .error .signedOverflow) :
    (receiveInChain S h r).2.receiveChain.index
      = max (h.messageIndex + 1) r.receiveChain.index := by
  by_cases hmax : h.messageIndex = intMax
  · -- the index is past the last one already, and the backlog answers
    have hlt : h.messageIndex < r.receiveChain.index := by
      rw [Ne, receiveInChain_overflow_iff, not_and] at hdef
      exact not_le.mp fun hle => hdef hle hmax
    rw [receiveInChain, if_pos hlt, max_eq_right (by omega)]
    split
    · rfl
    · rfl
  · exact receiveInChain_index hmax

end NewRatchet

/-! ## One call -/

namespace ChainLengths

variable {S : Sodium K} {t : ChainLengths} {r r' : NewRatchet K}

/-- What a constructor makes has sent and heard nothing. -/
theorem logs_start [Zero K] (h : Epoch.Constructed S r) : Logs S start r := by
  have hsend : r.sendChain.index = 0 ∧ r.dueToSendNewDh = false := by
    cases h with
    | initiator h =>
      obtain ⟨x, -, rfl⟩ := NewRatchet.exists_of_newInitiator S h
      exact ⟨rfl, rfl⟩
    | recipient h =>
      obtain ⟨x, -, rfl⟩ := NewRatchet.exists_of_newRecipient S h
      exact ⟨rfl, rfl⟩
  refine ⟨hsend.1, by rw [h.kept.receiveChain]; rfl, fun c hc => ?_⟩
  rw [NewRatchet.nextChain, if_neg (Bool.eq_false_iff.mp hsend.2)] at hc
  exact (Option.some.inj hc).symm

variable [DecidableEq K] [Zero K]

/-- **A receive.** -/
theorem Logs.advanceReceive (ht : Logs S t r) {fresh : K} {h : MessageHeader K}
    (hdef : (r.advanceReceive S fresh h).1 ≠ .error .signedOverflow) :
    Logs S (t.after S r (.receive fresh h)) (r.advanceReceive S fresh h).2 := by
  by_cases hsame : r.remoteDhPublic = h.dhPublic
  · have hr : r.advanceReceive S fresh h = receiveInChain S h r := by
      rw [NewRatchet.advanceReceive, if_neg (not_not.mpr hsame)]
    rw [hr] at hdef ⊢
    have hidx := receiveInChain_index_of_defined hdef
    obtain ⟨ch, sk, hframe⟩ := receiveInChain_frame S h r
    rw [after, if_pos hsame]
    rw [hframe] at hidx ⊢
    exact ⟨ht.current, by rw [hidx, ht.heard], ht.nextChain⟩
  · rw [after, if_neg hsame]
    cases hx : S.scalarmult r.localDhPriv h.dhPublic with
    | none =>
      obtain ⟨sk, hr⟩ := advanceReceive_refusedDh S hsame hx fresh
      rw [hr]
      exact ⟨ht.current, ht.heard, fun c hc => nextChain_eq_of_refused hx hc⟩
    | some x =>
      cases hy : S.scalarmult fresh h.dhPublic with
      | none =>
        obtain ⟨sk, hr⟩ := advanceReceive_refusedNewDh S hsame hx hy
        rw [hr]
        exact ⟨ht.current, rfl, fun c hc => nextChain_eq_of_refused hy hc⟩
      | some y =>
        have hnext := (advanceReceive_newDh_nextChain hsame hx hy).1
        obtain ⟨sk, hr, -⟩ := advanceReceive_newDh S hsame hx hy
        rw [hr] at hdef hnext ⊢
        have hidx := receiveInChain_index_of_defined hdef
        obtain ⟨ch, sk', hframe⟩ :=
          receiveInChain_frame S h (r.turned S h.dhPublic fresh x y sk)
        rw [hframe] at hidx hnext ⊢
        exact ⟨rfl, hidx, fun c hc => (Option.some.inj (hnext.symm.trans hc)).symm⟩

/-- **A send.** -/
theorem Logs.advanceSend (ht : Logs S t r) {result : Except Fault (K × MessageHeader K)}
    (hr : r.advanceSend S = (result, r'))
    (hdef : ∀ f, result = .error f → f.isUndefined = false) :
    Logs S (t.after S r .send) r' := by
  rw [after, hr]
  cases result with
  | ok m =>
    obtain ⟨c, hc, -, -, hindex, hchain, hnext⟩ := advanceSend_lengths hr
    obtain rfl := ht.nextChain c hc
    refine ⟨?_, by rw [hchain, ht.heard], fun c hc => ?_⟩
    · rw [hindex, ht.current]
      push_cast
      rfl
    · exact Option.some.inj (hc.symm.trans hnext)
  | error e =>
    obtain rfl := advanceSend_thrown hr (hdef e rfl)
    exact ht

/-- **One call** keeps the lengths. -/
theorem Logs.call (ht : Logs S t r) {c : Call K} {result : Except Fault K}
    (hr : r.call S c = (result, r')) (hdef : ∀ f, result = .error f → f.isUndefined = false) :
    Logs S (t.after S r c) r' := by
  cases c with
  | send =>
    rw [NewRatchet.call] at hr
    cases hs : r.advanceSend S with
    | mk sent left =>
      rw [hs] at hr
      cases sent with
      | ok m =>
        obtain ⟨-, rfl⟩ := Prod.mk.inj hr
        exact ht.advanceSend hs (fun f hf => by cases hf)
      | error e =>
        obtain ⟨rfl, rfl⟩ := Prod.mk.inj hr
        exact ht.advanceSend hs (fun f hf => hdef f (by rw [Except.error.inj hf]))
  | receive fresh h =>
    change r.advanceReceive S fresh h = (result, r') at hr
    have hdefined : (r.advanceReceive S fresh h).1 ≠ .error .signedOverflow := by
      rw [hr]
      exact fun hub => absurd (hdef _ hub) (by decide)
    have hlogs := ht.advanceReceive hdefined
    rwa [hr] at hlogs

omit [DecidableEq K] in
/-- **The counters of a header** are the lengths before it: its place on the
current sending chain, and how far the peer's chain was heard. -/
theorem Logs.header (ht : Logs S t r) {c : Call K} {header : MessageHeader K}
    (h : header ∈ headersOf S r c) :
    header.messageIndex = t.current ∧ header.prevChainLength = t.heard := by
  cases c with
  | send =>
    rw [headersOf] at h
    cases hs : r.advanceSend S with
    | mk sent left =>
      rw [hs] at h
      cases sent with
      | ok m =>
        obtain rfl := List.mem_singleton.mp h
        obtain ⟨c, hc, hindex, hprev, -⟩ := advanceSend_lengths hs
        obtain rfl := ht.nextChain c hc
        exact ⟨hindex.trans ht.current, hprev.trans ht.heard⟩
      | error e => cases h
  | receive fresh h' => cases h

/-! ## Any calls -/

/-- **The counters of every header sent**, along any calls. -/
theorem Logs.sentHeaders (ht : Logs S t r) {calls : List (Call K)} {s : ChainLengths}
    {header : MessageHeader K} (h : (s, header) ∈ sentHeaders S calls r t) :
    header.messageIndex = s.current ∧ header.prevChainLength = s.heard := by
  induction calls generalizing r t with
  | nil => cases h
  | cons c calls ih =>
    rw [ChainLengths.sentHeaders] at h
    rcases List.mem_append.mp h with hnow | hlater
    · obtain ⟨header', hmem, heq⟩ := List.mem_map.mp hnow
      obtain ⟨rfl, rfl⟩ := Prod.mk.inj heq
      exact ht.header hmem
    · cases hr : r.call S c with
      | mk result left =>
        rw [hr] at hlater
        cases result with
        | ok k => exact ih (ht.call hr (fun f hf => by cases hf)) hlater
        | error e =>
          change (s, header) ∈ ite _ _ _ at hlater
          split at hlater
          · cases hlater
          · rename_i he
            refine ih (ht.call hr fun f hf => ?_) hlater
            rw [← Except.error.inj hf]
            exact Bool.eq_false_iff.mpr he

end ChainLengths

/-! ## What a header says of the previous chain -/

namespace Epoch

open ChainLengths

/-- **When a header is right about the previous sending chain**: for every
ratchet and any calls, a header sent has the length of the previous sending
chain for its `prev_chain_length` exactly when the peer's current chain was
heard as far as the previous sending chain was used. Its `message_index` is
its place on the current chain. -/
theorem prevChainLength_eq_previous_iff [DecidableEq K] [Zero K] {S : Sodium K}
    {r : NewRatchet K} (hr : Constructed S r) {calls : List (Call K)} {t : ChainLengths}
    {header : MessageHeader K} (h : (t, header) ∈ sentHeaders S calls r .start) :
    header.messageIndex = t.current
      ∧ (header.prevChainLength = t.previous ↔ t.heard = t.previous) := by
  obtain ⟨hindex, hprev⟩ := (logs_start hr).sentHeaders h
  exact ⟨hindex, by rw [hprev]⟩

/-- One message sent, a header under a new key answered, and another sent: as
much was heard as sent, and the header is right. -/
theorem prevChainLength_eq_previous_of_reply :
    ∃ header, (⟨1, 0, 1⟩, header)
        ∈ sentHeaders Sodium.ideal [.send, .receive 32 (idealHeader 24 0 0), .send]
          recipient .start
      ∧ header.messageIndex = (0 : ℕ)
      ∧ (header.prevChainLength = (1 : ℕ) ↔ (1 : ℤ) = (1 : ℕ)) := by
  have hmem : (⟨1, 0, 1⟩, idealHeader 32 1 0)
      ∈ sentHeaders Sodium.ideal [.send, .receive 32 (idealHeader 24 0 0), .send]
        recipient .start := by decide +kernel
  exact ⟨_, hmem, prevChainLength_eq_previous_iff constructed_recipient hmem⟩

/-- A recipient that has received one message says that its previous sending
chain is of length 1, on its first. -/
theorem not_forall_prevChainLength_eq :
    ¬ ∀ (r : NewRatchet ℕ), Constructed Sodium.ideal r → ∀ calls t header,
        (t, header) ∈ sentHeaders Sodium.ideal calls r .start →
        header.prevChainLength = t.previous := by
  intro hall
  have hmem : (⟨0, 0, 1⟩, idealHeader 16 1 0)
      ∈ sentHeaders Sodium.ideal [.receive 0 (idealHeader 8 0 0), .send] recipient .start := by
    decide +kernel
  exact absurd (hall recipient constructed_recipient _ _ _ hmem) (by decide)

end Epoch
