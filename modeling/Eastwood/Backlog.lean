import Eastwood.DhStep
import Eastwood.Session

/-!
# The backlog and the receive chain

A ratchet in an untrusted network is called with headers of any kind. Which
chain a header should be answered from is bookkeeping outside the ratchet: an
`Epoch` is the public key a receive chain was set up for and the chain's
seed, and a call moves it exactly when `dh_ratchet_step` sets up another
chain (`Epoch.after`).

The ratchet keeps to it (`Epoch.Kept`) as long as every key held back is one
of the current chain. Within an epoch that is so whatever the header. A
header that opens an epoch leaves behind the keys held back before, and adds
those the forwarding loop writes; they do no harm exactly when answering the
header overwrites them all (`Epoch.Clears`). Along a run in which every such
header does, each returned key is the header's own (`Epoch.returned_of_run`).
-/

variable {K : Type}

open NewRatchet

/-- **An epoch of the receiving side**: the public key its chain was set up
for, and the chain key at position 0. -/
structure Epoch (K : Type) where
  dhPublic : K
  seed : K

namespace Epoch

variable (S : Sodium K)

/-- The chain of an epoch. -/
def chain (e : Epoch K) : KeyChain K := ⟨0, e.seed⟩

/-- The epoch a constructor opens: its receive chain is that of the other
side's public key. -/
def opening (r : NewRatchet K) : Epoch K := ⟨r.remoteDhPublic, r.receiveChain.key⟩

section Runs

variable [DecidableEq K]

/-- **The epoch after a call**: that of the new public key, if the DH
computation with it succeeds. -/
def after (e : Epoch K) (r : NewRatchet K) : Call K → Epoch K
  | .send => e
  | .receive _ h =>
    if r.remoteDhPublic ≠ h.dhPublic then
      match S.scalarmult r.localDhPriv h.dhPublic with
      | some x => ⟨h.dhPublic, S.dhChainKey x⟩
      | none => e
    else e

omit [DecidableEq K] in
/-- **A header clears the backlog** if it is under the current public key, or
under a new one that both DH computations accept, and then every index held
back, before or by the forwarding loop, is below its own. -/
def Clears (r : NewRatchet K) : Call K → Prop
  | .send => True
  | .receive fresh h =>
    r.remoteDhPublic = h.dhPublic ∨
      ((S.scalarmult r.localDhPriv h.dhPublic).isSome ∧ (S.scalarmult fresh h.dhPublic).isSome
        ∧ (∀ i ∈ r.skippedKeys, 0 ≤ i ∧ i < h.messageIndex)
        ∧ ∀ i, h.prevChainLength ≤ i → i < r.receiveChain.index → 0 ≤ i ∧ i < h.messageIndex)

variable [Zero K]

omit [DecidableEq K] in
/-- A ratchet straight from a constructor. -/
inductive Constructed : NewRatchet K → Prop
  | initiator {secret other pub priv r} :
      NewRatchet.newInitiator S secret other pub priv = .ok r → Constructed r
  | recipient {secret other signed r} :
      NewRatchet.newRecipient S signed secret other = .ok r → Constructed r

/-- **A run**: a ratchet reached from a constructor by calls that each meet a
condition, none of them undefined, and the epoch it is in. -/
inductive Run (ok : NewRatchet K → Call K → Prop) : NewRatchet K → Epoch K → Prop
  | start {r : NewRatchet K} : Constructed S r → Run ok r (opening r)
  | step {r r' : NewRatchet K} {e : Epoch K} {c : Call K} {result : Except Fault K} :
      Run ok r e → ok r c → r.call S c = (result, r') →
      (∀ f, result = .error f → f.isUndefined = false) → Run ok r' (e.after S r c)

variable {S} in
/-- A call that returns a key is a step. -/
theorem Run.step_isOk {ok : NewRatchet K → Call K → Prop} {r : NewRatchet K} {e : Epoch K}
    {c : Call K} (hrun : Run S ok r e) (hok : ok r c) (h : (r.call S c).1.isOk) :
    Run S ok (r.call S c).2 (e.after S r c) := by
  refine .step hrun hok (Prod.eta _).symm fun f hf => ?_
  rw [hf] at h
  cases h

end Runs

/-! ## The invariant -/

/-- **The ratchet keeps to an epoch**: it stands at a position of the epoch's
chain, and every key held back is that of an earlier position. -/
structure Kept (e : Epoch K) (n : ℕ) (r : NewRatchet K) : Prop where
  remote : r.remoteDhPublic = e.dhPublic
  receiveChain : r.receiveChain = { index := n, key := e.chain.chainKey S.chainStep n }
  skippedKeys : ∀ x k, r.skippedKeys.lookup x = some k →
    ∃ i : ℕ, x = i ∧ i < n ∧ k = e.chain.messageKey S.chainStep i

section Invariant

variable {S} {e : Epoch K} {n : ℕ} {r r' : NewRatchet K}

/-- Only the public key, the receive chain and the backlog matter. -/
theorem Kept.congr (h : Kept S e n r) (hr : r'.remoteDhPublic = r.remoteDhPublic)
    (hc : r'.receiveChain = r.receiveChain) (hs : r'.skippedKeys = r.skippedKeys) :
    Kept S e n r' where
  remote := by rw [hr, h.remote]
  receiveChain := by rw [hc, h.receiveChain]
  skippedKeys := by rw [hs]; exact h.skippedKeys

/-- What a constructor makes keeps to its opening epoch. -/
theorem Constructed.kept [Zero K] (h : Constructed S r) : Kept S (opening r) 0 r := by
  have hinit : ∃ p x pub priv remote, r = NewRatchet.initial S p x pub priv remote := by
    cases h with
    | initiator h =>
      obtain ⟨x, -, rfl⟩ := NewRatchet.exists_of_newInitiator S h
      exact ⟨_, _, _, _, _, rfl⟩
    | recipient h =>
      obtain ⟨x, -, rfl⟩ := NewRatchet.exists_of_newRecipient S h
      exact ⟨_, _, _, _, _, rfl⟩
  obtain ⟨p, x, pub, priv, remote, rfl⟩ := hinit
  refine ⟨rfl, rfl, fun x k hk => ?_⟩
  rw [show (NewRatchet.initial S _ _ _ _ _).skippedKeys = ∅ from rfl, Finmap.lookup_empty] at hk
  cases hk

/-- **An answer from the chain of an epoch**, every key held back being the
chain's own or at a position that answering overwrites: the answer is the
header's key, and what is held back afterwards is the chain's. -/
theorem kept_receiveInChain (hremote : r.remoteDhPublic = e.dhPublic)
    (hch : r.receiveChain = { index := n, key := e.chain.chainKey S.chainStep n })
    {h : MessageHeader K}
    (hsk : ∀ x k, r.skippedKeys.lookup x = some k →
      (∃ i : ℕ, x = i ∧ i < n ∧ k = e.chain.messageKey S.chainStep i)
        ∨ (n : ℤ) ≤ x ∧ x < h.messageIndex) :
    (receiveInChain S h r).1 = .error .signedOverflow
      ∨ (∃ n', Kept S e n' (receiveInChain S h r).2)
        ∧ ∀ k, (receiveInChain S h r).1 = .ok k →
          ∃ i : ℕ, h.messageIndex = i ∧ k = e.chain.messageKey S.chainStep i := by
  have hidx : r.receiveChain.index = n := by rw [hch]
  by_cases hlt : h.messageIndex < n
  · -- below the chain's position: nothing is overwritten, so every key is the chain's
    have hown : ∀ x k, r.skippedKeys.lookup x = some k →
        ∃ i : ℕ, x = i ∧ i < n ∧ k = e.chain.messageKey S.chainStep i := by
      intro x k hx
      rcases hsk x k hx with hx | ⟨hnx, hxh⟩
      · exact hx
      · omega
    rw [receiveInChain, if_pos (by rw [hidx]; exact hlt)]
    cases hk : r.skippedKeys.lookup h.messageIndex with
    | none => exact Or.inr ⟨⟨n, hremote, hch, hown⟩, fun k hk => by cases hk⟩
    | some key =>
      refine Or.inr ⟨⟨n, hremote, hch, fun x k hx => hown x k ?_⟩, fun k hk' => ?_⟩
      · by_cases hxh : x = h.messageIndex
        · rw [hxh, Finmap.lookup_erase] at hx
          cases hx
        · rwa [Finmap.lookup_erase_ne hxh] at hx
      · obtain rfl := Except.ok.inj hk'
        obtain ⟨i, hi, -, hkey⟩ := hown _ _ hk
        exact ⟨i, hi, hkey⟩
  · obtain ⟨d, hd⟩ := Int.eq_ofNat_of_zero_le (sub_nonneg.mpr (not_lt.mp hlt))
    have htarget : h.messageIndex = n + d := by omega
    rw [receiveInChain, if_neg (by rw [hidx]; exact hlt), hidx, htarget,
      show ((n : ℤ) + d + 1 - n).toNat = d + 1 by omega]
    by_cases hmax : (n + d : ℤ) = intMax
    · rw [hmax]
      exact Or.inl (receiveLoop_overflow S d n r hmax)
    · obtain ⟨sk, hr, hlookup⟩ := receiveLoop_eq S e.chain n d r (Nat.zero_le _)
        (by rw [hch]) hmax
      rw [hr]
      refine Or.inr ⟨⟨n + d + 1, hremote, by push_cast; rfl, fun x k hx => ?_⟩, fun k hk => ?_⟩
      · change sk.lookup x = some k at hx
        rw [hlookup x] at hx
        split at hx
        · exact ⟨x.toNat, by omega, by omega, (Option.some.inj hx).symm⟩
        · rename_i hout
          rcases hsk x k hx with ⟨i, hi, hin, hkey⟩ | hover
          · exact ⟨i, hi, by omega, hkey⟩
          · exact absurd (by rwa [htarget] at hover) hout
      · exact ⟨n + d, by push_cast; rfl, (Except.ok.inj hk).symm⟩

variable [DecidableEq K]

/-- **One receive.** If the header clears the backlog, it is answered with
its own key of the epoch the call is in afterwards, and the ratchet keeps to
that epoch. -/
theorem Kept.advanceReceive (hk : Kept S e n r) {fresh : K} {h : MessageHeader K}
    (hclears : Clears S r (.receive fresh h)) :
    (r.advanceReceive S fresh h).1 = .error .signedOverflow
      ∨ (∃ n', Kept S (e.after S r (.receive fresh h)) n' (r.advanceReceive S fresh h).2)
        ∧ ∀ k, (r.advanceReceive S fresh h).1 = .ok k →
          (e.after S r (.receive fresh h)).dhPublic = h.dhPublic
            ∧ ∃ i : ℕ, h.messageIndex = i
              ∧ k = (e.after S r (.receive fresh h)).chain.messageKey S.chainStep i := by
  rcases eq_or_ne r.remoteDhPublic h.dhPublic with hsame | hne
  · rw [NewRatchet.advanceReceive, if_neg (not_not.mpr hsame), after,
      if_neg (not_not.mpr hsame)]
    rcases kept_receiveInChain hk.remote hk.receiveChain
      (fun x k hx => Or.inl (hk.skippedKeys x k hx)) with hub | ⟨hkept, hkey⟩
    · exact Or.inl hub
    · exact Or.inr ⟨hkept, fun k hr => ⟨hk.remote.symm.trans hsame, hkey k hr⟩⟩
  · obtain hsame | ⟨hx, hy, hback, hforward⟩ := hclears
    · exact absurd hsame hne
    obtain ⟨x, hx⟩ := Option.isSome_iff_exists.mp hx
    obtain ⟨y, hy⟩ := Option.isSome_iff_exists.mp hy
    obtain ⟨sk, hr, hlookup⟩ := advanceReceive_newDh S hne hx hy
    have hafter : e.after S r (.receive fresh h) = ⟨h.dhPublic, S.dhChainKey x⟩ := by
      rw [after, if_pos hne, hx]
    -- a key held back at `i` is an old one, or one of the loop
    have hover : ∀ i k, sk.lookup i = some k → 0 ≤ i ∧ i < h.messageIndex := by
      intro i k hi
      by_cases hrange : h.prevChainLength ≤ i ∧ i < r.receiveChain.index
      · exact hforward i hrange.1 hrange.2
      · rw [hlookup i (by omega)] at hi
        exact hback i (Finmap.mem_iff.mpr ⟨k, hi⟩)
    rw [hr, hafter]
    rcases kept_receiveInChain (e := ⟨h.dhPublic, S.dhChainKey x⟩) (n := 0)
      (r := r.turned S h.dhPublic fresh x y sk) rfl rfl (fun i k hi => Or.inr (hover i k hi))
      with hub | ⟨hkept, hkey⟩
    · exact Or.inl hub
    · exact Or.inr ⟨hkept, fun k hr => ⟨rfl, hkey k hr⟩⟩

variable [Zero K]

/-- **Along a run** whose headers all clear the backlog the ratchet keeps to
its epoch. -/
theorem Run.kept (hrun : Run S (Clears S) r e) : ∃ n, Kept S e n r := by
  induction hrun with
  | start h => exact ⟨0, h.kept⟩
  | @step r r' e c result _ hok hcall hdef ih =>
    obtain ⟨n, hk⟩ := ih
    cases c with
    | send =>
      obtain ⟨due, root, ch, hframe⟩ := advanceSend_frame (S := S) r
      have hr' : r' = (r.advanceSend S).2 := by
        rw [← call_send_snd, hcall]
      rw [hr', hframe]
      exact ⟨n, hk.congr rfl rfl rfl⟩
    | receive fresh h =>
      change r.advanceReceive S fresh h = (result, r') at hcall
      rcases hk.advanceReceive hok with hub | ⟨hkept, -⟩
      · rw [hcall] at hub
        exact absurd (hdef _ hub) (by decide)
      · rwa [hcall] at hkept

/-- **A returned key belongs to the header's chain**, in every run whose
headers clear the backlog: every key held back is that of an earlier position
of the current receive chain, and the next header that clears it as well and
is answered gets the key at its own position of the chain set up for its
public key. -/
theorem returned_of_run (hrun : Run S (Clears S) r e) :
    (∀ x k, r.skippedKeys.lookup x = some k →
      ∃ i : ℕ, x = i ∧ (i : ℤ) < r.receiveChain.index
        ∧ k = e.chain.messageKey S.chainStep i)
    ∧ ∀ fresh h k r', Clears S r (.receive fresh h) →
        r.advanceReceive S fresh h = (.ok k, r') →
        (e.after S r (.receive fresh h)).dhPublic = h.dhPublic
          ∧ ∃ i : ℕ, h.messageIndex = i
            ∧ k = (e.after S r (.receive fresh h)).chain.messageKey S.chainStep i := by
  obtain ⟨n, hk⟩ := hrun.kept
  refine ⟨fun x k hx => ?_, fun fresh h k r' hclears hr => ?_⟩
  · obtain ⟨i, hi, hin, hkey⟩ := hk.skippedKeys x k hx
    exact ⟨i, hi, by rw [hk.receiveChain]; exact Int.ofNat_lt.mpr hin, hkey⟩
  · rcases hk.advanceReceive hclears with hub | ⟨-, hkey⟩
    · rw [hr] at hub
      cases hub
    · exact hkey k (by rw [hr])

end Invariant

/-! ### Two runs of the ideal library -/

/-- The recipient of a session, straight from its constructor. -/
abbrev recipient : NewRatchet ℕ := NewRatchet.ideal .recipient

theorem constructed_recipient : Constructed Sodium.ideal recipient :=
  .recipient (show NewRatchet.newRecipient Sodium.ideal (Sodium.ideal.boxPublic 16, 16) 0
      (Sodium.ideal.boxPublic 8) = .ok recipient by
    rw [NewRatchet.newRecipient_eq, Sodium.ideal_scalarmult]; rfl)

/-- A header of the ideal library. -/
def idealHeader (priv : ℕ) (prevChainLength messageIndex : ℤ) : MessageHeader ℕ :=
  { MessageHeader.empty with
    dhPublic := Sodium.ideal.boxPublic priv
    prevChainLength := prevChainLength
    messageIndex := messageIndex }

/-- The first header of a new epoch is answered from its chain, even if it is
not the first of the chain. -/
theorem returned_of_start :
    ∃ k r', recipient.advanceReceive Sodium.ideal 32 (idealHeader 24 0 1) = (.ok k, r')
      ∧ ((opening recipient).after Sodium.ideal recipient
          (.receive 32 (idealHeader 24 0 1))).dhPublic = Sodium.ideal.boxPublic 24
      ∧ ∃ i : ℕ, (1 : ℤ) = i
        ∧ k = ((opening recipient).after Sodium.ideal recipient
            (.receive 32 (idealHeader 24 0 1))).chain.messageKey Sodium.ideal.chainStep i := by
  obtain ⟨k, hk⟩ := exists_of_isOk (by decide +kernel :
    (recipient.advanceReceive Sodium.ideal 32 (idealHeader 24 0 1)).1.isOk)
  have hclears : Clears Sodium.ideal recipient (.receive 32 (idealHeader 24 0 1)) := by
    refine Or.inr ⟨rfl, rfl, fun i hi => absurd hi (Finmap.notMem_empty), fun i hi hi' => ?_⟩
    exact absurd (lt_of_le_of_lt hi hi') (lt_irrefl _)
  exact ⟨k, _, Prod.ext hk rfl, (returned_of_run (.start constructed_recipient)).2 32
    (idealHeader 24 0 1) k _ hclears (Prod.ext hk rfl)⟩

/-- The recipient after a header that skips two, and its epoch. -/
def afterSkip : NewRatchet ℕ × Epoch ℕ :=
  ((recipient.call Sodium.ideal (.receive 0 (idealHeader 8 0 2))).2, opening recipient)

/-- And after a header that opens another epoch. -/
def afterTurn : NewRatchet ℕ × Epoch ℕ :=
  ((afterSkip.1.call Sodium.ideal (.receive 32 (idealHeader 24 3 0))).2,
    afterSkip.2.after Sodium.ideal afterSkip.1 (.receive 32 (idealHeader 24 3 0)))

/-- That header again is answered with the key kept back at position 0 of the
epoch before. -/
theorem not_returned_of_stale :
    ∃ k r', Run Sodium.ideal (fun _ _ => True) afterTurn.1 afterTurn.2
      ∧ afterTurn.1.advanceReceive Sodium.ideal 0 (idealHeader 24 3 0) = (.ok k, r')
      ∧ ¬ ((afterTurn.2.after Sodium.ideal afterTurn.1
              (.receive 0 (idealHeader 24 3 0))).dhPublic = Sodium.ideal.boxPublic 24
        ∧ ∃ i : ℕ, (0 : ℤ) = i
          ∧ k = (afterTurn.2.after Sodium.ideal afterTurn.1
              (.receive 0 (idealHeader 24 3 0))).chain.messageKey Sodium.ideal.chainStep i) := by
  have h₀ : Run Sodium.ideal (fun _ _ => True) recipient (opening recipient) :=
    .start constructed_recipient
  have h₁ := h₀.step_isOk (c := .receive 0 (idealHeader 8 0 2)) trivial (by decide +kernel)
  have h₂ : Run Sodium.ideal (fun _ _ => True) afterTurn.1 afterTurn.2 :=
    Run.step_isOk (r := afterSkip.1) (e := afterSkip.2) h₁ trivial (by decide +kernel)
  obtain ⟨k, hk⟩ := exists_of_isOk (by decide +kernel :
    (afterTurn.1.advanceReceive Sodium.ideal 0 (idealHeader 24 3 0)).1.isOk)
  refine ⟨k, _, h₂, Prod.ext hk rfl, ?_⟩
  rintro ⟨-, i, hi, rfl⟩
  obtain rfl : 0 = i := by exact_mod_cast hi
  revert hk
  decide +kernel

end Epoch
