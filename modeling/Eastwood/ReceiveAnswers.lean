import Eastwood.DhStep

/-!
# What an answer spends

`advance_receive` answers a header under the current public key from the
backlog or from the chain, and which of the two is a matter of the receive
index; `keyAt` is the key at an index either way. Answering one header takes
its own index and leaves the key at every other where it was
(`keyAt_receiveInChain`), so that whatever could be answered before still is
(`advanceReceive_keeps`) – but no answer leaves the ratchet as it was
(`advanceReceive_ne`).
-/

variable {K : Type}

namespace NewRatchet

variable (S : Sodium K)

/-- **The key at an index** of the current receive chain: held back, or still
to be derived. -/
def keyAt (r : NewRatchet K) (i : ℤ) : Option K :=
  if i < r.receiveChain.index then r.skippedKeys.lookup i
  else some (KeyChain.messageKey S.chainStep ⟨0, r.receiveChain.key⟩
    (i - r.receiveChain.index).toNat)

/-- The key at an index is answered, unless the counter would overflow. -/
def Answers (r : NewRatchet K) (i : ℤ) (k : K) : Prop :=
  r.keyAt S i = some k ∧ (r.receiveChain.index ≤ i → i ≠ intMax)

variable {S} {r : NewRatchet K} {h : MessageHeader K} {k : K}

/-- **The answer from the chain, by the header's index.** -/
theorem receiveInChain_eq_ok (hk : r.Answers S h.messageIndex k) :
    ∃ r', receiveInChain S h r = (.ok k, r')
      ∧ r ≠ r' ∧ r.receiveChain.index ≤ r'.receiveChain.index
      ∧ ∀ i ≠ h.messageIndex, r'.keyAt S i = r.keyAt S i := by
  obtain ⟨hkey, hmax⟩ := hk
  unfold receiveInChain
  by_cases hlt : h.messageIndex < r.receiveChain.index
  · rw [keyAt, if_pos hlt] at hkey
    rw [if_pos hlt, hkey]
    refine ⟨_, rfl, fun he => ?_, le_rfl, fun i hi => ?_⟩
    · -- the entry that was answered is gone
      have hgone := congrArg (fun r => r.skippedKeys.lookup h.messageIndex) he
      rw [hkey, Finmap.lookup_erase] at hgone
      cases hgone
    · unfold keyAt
      rw [Finmap.lookup_erase_ne hi]
  · obtain ⟨d, hd⟩ := Int.eq_ofNat_of_zero_le (sub_nonneg.mpr (not_lt.mp hlt))
    have htarget : h.messageIndex = r.receiveChain.index + d := by omega
    obtain ⟨sk, hr, hsk⟩ := receiveLoop_eq_of_index S ⟨0, r.receiveChain.key⟩
      r.receiveChain.index 0 d r le_rfl rfl (by rw [← htarget]; exact hmax (not_lt.mp hlt))
    rw [keyAt, if_neg hlt, htarget, add_sub_cancel_left, Int.toNat_natCast] at hkey
    rw [if_neg hlt, htarget,
      show (r.receiveChain.index + d + 1 - r.receiveChain.index).toNat = d + 1 by omega, hr,
      zero_add, Option.some.inj hkey]
    refine ⟨_, rfl, fun he => ?_, by simp only; omega, fun i hi => ?_⟩
    · -- the receive index has passed the target
      have hindex := congrArg (fun r => r.receiveChain.index) he
      simp only at hindex
      omega
    · unfold keyAt
      simp only
      by_cases hbelow : i < r.receiveChain.index
      · rw [if_pos (by omega), if_pos hbelow, hsk i, if_neg (by omega)]
      · by_cases hpassed : i < r.receiveChain.index + d + 1
        · -- passed on the way: the key now held back is the one of the chain
          rw [if_pos hpassed, if_neg hbelow, hsk i, if_pos (by omega), zero_add]
        · rw [if_neg hpassed, if_neg hbelow]
          unfold KeyChain.messageKey KeyChain.chainKey
          rw [← Function.iterate_add_apply]
          congr 3
          simp only
          omega

/-- The answer from the chain is the key at the header's index. -/
theorem answers_of_receiveInChain (hok : (receiveInChain S h r).1 = .ok k) :
    r.Answers S h.messageIndex k := by
  by_cases hmax : r.receiveChain.index ≤ h.messageIndex ∧ h.messageIndex = intMax
  · obtain ⟨hle, hmax⟩ := hmax
    obtain ⟨d, hd⟩ := Int.eq_ofNat_of_zero_le (sub_nonneg.mpr hle)
    rw [receiveInChain, if_neg (not_lt.mpr hle), hmax,
      show (intMax + 1 - r.receiveChain.index).toNat = d + 1 by omega,
      receiveLoop_overflow S d _ r (by omega)] at hok
    cases hok
  · cases hkey : r.keyAt S h.messageIndex with
    | none =>
      unfold keyAt at hkey
      split at hkey
      · rename_i hlt
        rw [receiveInChain, if_pos hlt, hkey] at hok
        cases hok
      · cases hkey
    | some key =>
      have hans : r.Answers S h.messageIndex key := ⟨hkey, fun hle he => hmax ⟨hle, he⟩⟩
      obtain ⟨r', hr, -⟩ := receiveInChain_eq_ok hans
      rw [hr] at hok
      rwa [← Except.ok.inj hok]

variable [DecidableEq K] {r' : NewRatchet K} {fresh : K}

/-- A header with a new public key is answered only if both DH computations
with it succeed, and then from the chain of the first. -/
theorem exists_of_advanceReceive_newDh (hne : r.remoteDhPublic ≠ h.dhPublic)
    (hr : (r.advanceReceive S fresh h).1 = .ok k) :
    ∃ x y, S.scalarmult r.localDhPriv h.dhPublic = some x
      ∧ S.scalarmult fresh h.dhPublic = some y := by
  cases hx : S.scalarmult r.localDhPriv h.dhPublic with
  | none =>
    obtain ⟨sk, hrefused⟩ := advanceReceive_refusedDh S hne hx fresh
    rw [hrefused] at hr
    cases hr
  | some x =>
    cases hy : S.scalarmult fresh h.dhPublic with
    | some y => exact ⟨x, y, rfl, rfl⟩
    | none =>
      obtain ⟨sk, hc, -⟩ := cacheForward_eq S
        (r.receiveChain.index - h.prevChainLength).toNat h.prevChainLength r
      rw [advanceReceive, if_pos hne, hc] at hr
      simp only [dhRatchetStep, dh, hx, generateNewLocalDhKeypair, hy] at hr
      cases hr

/-- **No answer leaves the ratchet as it was.** -/
theorem advanceReceive_ne (hr : r.advanceReceive S fresh h = (.ok k, r')) : r' ≠ r := by
  by_cases hdh : r.remoteDhPublic = h.dhPublic
  · rw [advanceReceive, if_neg (not_not.mpr hdh)] at hr
    obtain ⟨r₁, hr₁, hne, -⟩ := receiveInChain_eq_ok
      (answers_of_receiveInChain (congrArg Prod.fst hr))
    rw [hr₁] at hr
    rw [← (Prod.mk.inj hr).2]
    exact hne.symm
  · obtain ⟨x, y, hx, hy⟩ := exists_of_advanceReceive_newDh hdh (congrArg Prod.fst hr)
    obtain ⟨sk, hr₁, -⟩ := advanceReceive_newDh S hdh hx hy
    obtain ⟨ch, sk', hframe⟩ := receiveInChain_frame S h (r.turned S h.dhPublic fresh x y sk)
    rw [← hr₁, hr] at hframe
    rintro rfl
    exact hdh (congrArg remoteDhPublic hframe)

/-- **An answer under the current public key spends its own index only**:
every header with another public key or index that was answered before is
answered as before. -/
theorem advanceReceive_keeps (hdh : r.remoteDhPublic = h.dhPublic)
    (hr : r.advanceReceive S fresh h = (.ok k, r')) {fresh' : K} {h' : MessageHeader K} {k' : K}
    (hsame : h'.dhPublic = h.dhPublic → h'.messageIndex ≠ h.messageIndex)
    (hnew : h'.dhPublic ≠ h.dhPublic → 0 ≤ h'.messageIndex)
    (hr' : (r.advanceReceive S fresh' h').1 = .ok k') :
    (r'.advanceReceive S fresh' h').1 = .ok k' := by
  rw [advanceReceive, if_neg (not_not.mpr hdh)] at hr
  obtain ⟨r₁, hr₁, -, hindex, hkeyAt⟩ := receiveInChain_eq_ok
    (answers_of_receiveInChain (congrArg Prod.fst hr))
  obtain ⟨ch, sk, hframe⟩ := receiveInChain_frame S h r
  obtain rfl : r₁ = r' := (Prod.mk.inj (hr₁.symm.trans hr)).2
  rw [hr₁] at hframe
  change r₁ = _ at hframe
  have hremote : r₁.remoteDhPublic = r.remoteDhPublic := by rw [hframe]
  have hpriv : r₁.localDhPriv = r.localDhPriv := by rw [hframe]
  by_cases hdh' : h'.dhPublic = h.dhPublic
  · have hcur : r.remoteDhPublic = h'.dhPublic := hdh.trans hdh'.symm
    rw [advanceReceive, if_neg (not_not.mpr hcur)] at hr'
    obtain ⟨hkey, hmax⟩ := answers_of_receiveInChain hr'
    have hans : r₁.Answers S h'.messageIndex k' :=
      ⟨(hkeyAt _ (hsame hdh')).trans hkey, fun hle => hmax (hindex.trans hle)⟩
    obtain ⟨r₂, hr₂, -⟩ := receiveInChain_eq_ok hans
    rw [advanceReceive, if_neg (not_not.mpr (hremote.trans hcur)), hr₂]
  · -- a new public key: both ratchets derive the same chain and answer from it
    have hne : r.remoteDhPublic ≠ h'.dhPublic := fun he => hdh' (he.symm.trans hdh)
    obtain ⟨x, y, hx, hy⟩ := exists_of_advanceReceive_newDh hne hr'
    obtain ⟨sk₀, hr₀, -⟩ := advanceReceive_newDh S hne hx hy
    obtain ⟨sk₁, hr₁', -⟩ := advanceReceive_newDh S (r := r₁) (hremote.trans_ne hne)
      (by rw [hpriv]; exact hx) hy
    rw [hr₀] at hr'
    obtain ⟨hkey, hmax⟩ := answers_of_receiveInChain hr'
    have hpos : ¬ h'.messageIndex < 0 := not_lt.mpr (hnew hdh')
    have hans : (r₁.turned S h'.dhPublic fresh' x y sk₁).Answers S h'.messageIndex k' := by
      refine ⟨?_, hmax⟩
      rw [← hkey]
      unfold keyAt
      exact (if_neg hpos).trans (if_neg hpos).symm
    obtain ⟨r₂, hr₂, -⟩ := receiveInChain_eq_ok hans
    rw [hr₁', hr₂]

end NewRatchet
