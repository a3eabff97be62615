import Eastwood.DhStep
import Eastwood.SessionManager

/-!
# Stored and live sessions

A device that is started again has what `load_ratchets_from_db` finds: the
rows, each put into the map under its username and device. The sessions match
their rows (`SessionStore.Matches`) if that gives back the map the process
had.

Two things break the match, and nothing mends it within the call. The map is
by username and device and the tables by device alone, so a session made for
a device that another username has one with takes the other's row
(`CreatesApart` says that none is). And `advance_receive` writes to the
ratchet before it can throw, while `get_key_for_device` saves it only after
it returned: a header under a new public key that is not answered in the end
leaves a ratchet in memory that no row has (`NewRatchet.Settles` says that it
is answered). Along any calls the sessions match after every one of them
exactly if every one of them avoids the two (`matches_iff_keepsApart`).
-/

variable {K : Type}

/-! ## A header that leaves nothing half done -/

namespace NewRatchet

section Settles

variable (S : Sodium K)

/-- **A header settles**: under the current public key in any case, under a
new one if both DH computations accept it and its index can be answered –
from the new chain, or, below 0, from the backlog after the forwarding
loop. -/
def Settles (fresh : K) (h : MessageHeader K) (r : NewRatchet K) : Prop :=
  r.remoteDhPublic = h.dhPublic ∨
    ((S.scalarmult r.localDhPriv h.dhPublic).isSome ∧ (S.scalarmult fresh h.dhPublic).isSome
      ∧ (0 ≤ h.messageIndex ∨ h.messageIndex ∈ r.skippedKeys
        ∨ (h.prevChainLength ≤ h.messageIndex ∧ h.messageIndex < r.receiveChain.index)))

instance [DecidableEq K] (fresh : K) (h : MessageHeader K) (r : NewRatchet K) :
    Decidable (r.Settles S fresh h) := by
  unfold Settles
  infer_instance

variable {S} {r r' : NewRatchet K} {h : MessageHeader K}

/-- What the forwarding loop files stays filed. -/
theorem lookup_cacheForward_isSome (n : ℕ) (i x : ℤ) (r : NewRatchet K)
    (hx : (i ≤ x ∧ x < i + n) ∨ x ∈ r.skippedKeys) :
    x ∈ (r.cacheForward S n i).skippedKeys := by
  induction n generalizing i r with
  | zero =>
    rcases hx with hx | hx
    · push_cast at hx
      omega
    · exact hx
  | succ n ih =>
    refine ih (i + 1) (r.keepBack S i) ?_
    rw [keepBack_eq]
    by_cases he : x = i
    · exact Or.inr (Finmap.mem_insert.mpr (Or.inl he))
    · rcases hx with hx | hx
      · exact Or.inl (by push_cast at hx; omega)
      · exact Or.inr (Finmap.mem_insert.mpr (Or.inr hx))

/-- **From the receive chain a refusal changes nothing**: only an index below
the chain's own is ever refused, and not if it is held back. -/
theorem receiveInChain_refused {e : Fault} (hr : receiveInChain S h r = (.error e, r'))
    (he : e.isUndefined = false) :
    r' = r ∧ h.messageIndex < r.receiveChain.index ∧ h.messageIndex ∉ r.skippedKeys := by
  rw [receiveInChain] at hr
  split at hr
  · rename_i hlt
    split at hr
    · rename_i hnone
      exact ⟨(Prod.mk.inj hr).2.symm, hlt, Finmap.lookup_eq_none.mp hnone⟩
    · cases (Prod.mk.inj hr).1
  · -- the loop returns at its target, or the index after it is none
    rename_i hge
    exfalso
    obtain ⟨m, hm⟩ := Int.le.dest (not_lt.mp hge)
    have hn : (h.messageIndex + 1 - r.receiveChain.index).toNat = m + 1 := by omega
    rw [hn] at hr
    by_cases hmax : h.messageIndex = intMax
    · have hover := receiveLoop_overflow S m r.receiveChain.index r (hm.trans hmax)
      rw [← hmax, hr] at hover
      obtain rfl : e = .signedOverflow := Except.error.inj hover
      cases he
    · obtain ⟨sk, hloop, -⟩ := receiveLoop_eq_of_index S ⟨0, r.receiveChain.key⟩
        r.receiveChain.index 0 m r le_rfl rfl (by rw [hm]; exact hmax)
      rw [hm, hr] at hloop
      cases (Prod.mk.inj hloop).1

variable [DecidableEq K]

/-- The ratchet a header with a new public key is answered from, its backlog
named. -/
theorem advanceReceive_turned {fresh x y : K} (hne : r.remoteDhPublic ≠ h.dhPublic)
    (hx : S.scalarmult r.localDhPriv h.dhPublic = some x)
    (hy : S.scalarmult fresh h.dhPublic = some y) :
    r.advanceReceive S fresh h = receiveInChain S h (r.turned S h.dhPublic fresh x y
      (r.cacheForward S (r.receiveChain.index - h.prevChainLength).toNat
        h.prevChainLength).skippedKeys) := by
  obtain ⟨sk, hc, -⟩ := cacheForward_eq S (r.receiveChain.index - h.prevChainLength).toNat
    h.prevChainLength r
  rw [advanceReceive, if_pos hne, hc]
  simp only [dhRatchetStep, dh, hx, generateNewLocalDhKeypair, hy]
  rfl

/-- **A header that settles and is refused** leaves the ratchet as it was. -/
theorem eq_of_settles {fresh : K} {e : Fault} (hs : r.Settles S fresh h)
    (hr : r.advanceReceive S fresh h = (.error e, r')) (he : e.isUndefined = false) : r' = r := by
  by_cases hdh : r.remoteDhPublic = h.dhPublic
  · rw [advanceReceive, if_neg (not_not.mpr hdh)] at hr
    exact (receiveInChain_refused hr he).1
  · exfalso
    obtain ⟨hx, hy, hidx⟩ := hs.resolve_left hdh
    obtain ⟨x, hx⟩ := Option.isSome_iff_exists.mp hx
    obtain ⟨y, hy⟩ := Option.isSome_iff_exists.mp hy
    rw [advanceReceive_turned hdh hx hy] at hr
    obtain ⟨-, hlt, hnot⟩ := receiveInChain_refused hr he
    replace hlt : h.messageIndex < 0 := hlt
    refine hnot (lookup_cacheForward_isSome _ _ _ r ?_)
    rcases hidx with hpos | hmem | hrange
    · omega
    · exact Or.inr hmem
    · exact Or.inl (by omega)

/-- **A header that does not settle** is refused, its public key taken
over. -/
theorem ne_of_not_settles {fresh : K} (hs : ¬ r.Settles S fresh h) :
    ∃ what r', r.advanceReceive S fresh h = (.error (.runtimeError what), r') ∧ r' ≠ r := by
  have hdh : r.remoteDhPublic ≠ h.dhPublic := fun he => hs (Or.inl he)
  have hne : ∀ r' : NewRatchet K, r'.remoteDhPublic = h.dhPublic → r' ≠ r := by
    rintro r' he rfl
    exact hdh he
  cases hx : S.scalarmult r.localDhPriv h.dhPublic with
  | none =>
    obtain ⟨sk, hr⟩ := advanceReceive_refusedDh S hdh hx fresh
    exact ⟨_, _, hr, hne _ rfl⟩
  | some x =>
    cases hy : S.scalarmult fresh h.dhPublic with
    | none =>
      obtain ⟨sk, hr⟩ := advanceReceive_refusedNewDh S hdh hx hy
      exact ⟨_, _, hr, hne _ rfl⟩
    | some y =>
      -- the index is below 0, and not in the backlog
      have hidx : ¬ (0 ≤ h.messageIndex ∨ h.messageIndex ∈ r.skippedKeys
          ∨ (h.prevChainLength ≤ h.messageIndex ∧ h.messageIndex < r.receiveChain.index)) :=
        fun hidx => hs (Or.inr ⟨by rw [hx]; rfl, by rw [hy]; rfl, hidx⟩)
      rw [not_or, not_or, not_le] at hidx
      obtain ⟨hneg, hnot, hrange⟩ := hidx
      obtain ⟨sk, hr, hsk⟩ := advanceReceive_newDh S hdh hx hy
      have hnone : sk.lookup h.messageIndex = none := by
        rw [hsk h.messageIndex (by omega)]
        exact Finmap.lookup_eq_none.mpr hnot
      refine ⟨"Key not found in backlog", r.turned S h.dhPublic fresh x y sk, ?_, hne _ rfl⟩
      have hlt : h.messageIndex
          < (r.turned S h.dhPublic fresh x y sk).receiveChain.index := hneg
      rw [hr, receiveInChain, if_pos hlt]
      simp only [turned, hnone]

/-- **`advance_receive` is atomic on error** for a header: if it throws, the
ratchet is the one before the call. -/
def AtomicOnError (S : Sodium K) (fresh : K) (h : MessageHeader K) (r : NewRatchet K) : Prop :=
  ∀ e r', r.advanceReceive S fresh h = (.error e, r') → e.isUndefined = false → r' = r

/-- **It is so exactly for the headers that settle**: a header under a new
public key that is not answered leaves its key in the ratchet. -/
theorem atomicOnError_iff_settles {fresh : K} :
    r.AtomicOnError S fresh h ↔ r.Settles S fresh h := by
  constructor
  · intro hatomic
    by_contra hs
    obtain ⟨what, r', hr, hne⟩ := ne_of_not_settles hs
    exact hne (hatomic _ r' hr rfl)
  · intro hs e r' hr he
    exact eq_of_settles hs hr he

/-- **Where it is not**: a public key the first DH computation refuses, and an
index below 0 under a key that both accept. -/
theorem not_atomicOnError_ideal :
    ¬ (NewRatchet.ideal .recipient).AtomicOnError Sodium.ideal 32
        { (MessageHeader.empty : MessageHeader ℕ) with dhPublic := 0 }
      ∧ ¬ (NewRatchet.ideal .recipient).AtomicOnError Sodium.ideal 32
        { (MessageHeader.empty : MessageHeader ℕ) with
          dhPublic := Sodium.ideal.boxPublic 24
          messageIndex := -1 } := by
  constructor
  · intro hatomic
    have hr := congrArg NewRatchet.remoteDhPublic (hatomic _ _ rfl rfl)
    revert hr
    decide +kernel
  · intro hatomic
    have hr := congrArg NewRatchet.remoteDhPublic (hatomic _ _ rfl rfl)
    revert hr
    decide +kernel

variable [Zero K]

omit [DecidableEq K] in
/-- **A refused send** leaves the ratchet as it was. -/
theorem eq_of_advanceSend_refused {e : Fault} (hr : r.advanceSend S = (.error e, r'))
    (he : e.isUndefined = false) : r' = r := by
  have hprogress : ∀ {t t' : NewRatchet K}, progressSendingRatchet S t = (.error e, t') →
      False := by
    intro t t' ht
    rw [progressSendingRatchet] at ht
    split at ht
    · obtain rfl : e = .signedOverflow := (Except.error.inj (Prod.mk.inj ht).1).symm
      cases he
    · cases (Prod.mk.inj ht).1
  rw [advanceSend] at hr
  split at hr
  · rw [dhRatchetStep, dh] at hr
    cases hx : S.scalarmult r.localDhPriv r.remoteDhPublic with
    | none =>
      rw [hx] at hr
      exact (Prod.mk.inj hr).2.symm
    | some x =>
      rw [hx] at hr
      exact (hprogress hr).elim
  · exact (hprogress hr).elim

end Settles

end NewRatchet

/-! ## A restart -/

namespace SessionStore

section Restart

variable [LinearOrder K] (s : SessionStore K)

/-- What `load_ratchets_from_db` does with the row of a device. -/
def loadRow (s : SessionStore K) (device : K) : SessionStore K :=
  match s.rows.lookup device with
  | some (username, r) => s.hold username device r
  | none => s

/-- **`load_ratchets_from_db`**: every row is put into the map, which keeps
what else it held. -/
def loadRatchetsFromDb : SessionStore K :=
  (s.rows.keys.sort (· ≤ ·)).foldl loadRow s

omit [LinearOrder K] in
/-- A fresh process over the same database. -/
def restart : SessionStore K := { s with ratchets := ∅ }

/-- **The stored sessions match the live ones**: a fresh process that loads
them has the same ratchet for every username and device. -/
def Matches : Prop := ∀ u d, s.restart.loadRatchetsFromDb.session u d = s.session u d

variable {s} {u : String} {d device : K} {r : NewRatchet K}

@[simp] theorem rows_loadRow : (s.loadRow device).rows = s.rows := by
  rw [loadRow]
  split <;> rfl

theorem session_loadRow_self (h : s.rows.lookup d = some (u, r)) :
    (s.loadRow d).session u d = some r := by
  rw [loadRow, h]
  exact session_hold ..

/-- A row goes to its own username and device. -/
theorem session_loadRow_of_ne (h : ∀ r, s.rows.lookup d ≠ some (u, r) ∨ device ≠ d) :
    (s.loadRow device).session u d = s.session u d := by
  rw [loadRow]
  split
  · rename_i username r hrow
    refine session_hold_of_ne _ _ _ _ _ _ ?_
    rintro ⟨⟩
    exact (h r).elim (fun h => h hrow) fun h => h rfl
  · rfl

theorem session_foldl_loadRow (l : List K) (h : s.rows.lookup d = some (u, r))
    (hd : d ∈ l ∨ s.session u d = some r) : (l.foldl loadRow s).session u d = some r := by
  induction l generalizing s with
  | nil => exact hd.resolve_left List.not_mem_nil
  | cons device l ih =>
    refine ih (by rw [rows_loadRow, h]) ?_
    by_cases he : device = d
    · subst he
      exact Or.inr (session_loadRow_self h)
    · rw [session_loadRow_of_ne fun _ => Or.inr he]
      exact hd.imp_left fun hd => (List.mem_cons.mp hd).resolve_left (Ne.symm he)

theorem session_foldl_loadRow_of_ne (l : List K) (h : ∀ r, s.rows.lookup d ≠ some (u, r)) :
    (l.foldl loadRow s).session u d = s.session u d := by
  induction l generalizing s with
  | nil => rfl
  | cons device l ih =>
    refine (ih (by rw [rows_loadRow]; exact h)).trans ?_
    exact session_loadRow_of_ne fun r => Or.inl (h r)

/-- **What loading does to a session**: a row of it is taken, -/
theorem session_load (h : s.rows.lookup d = some (u, r)) :
    s.loadRatchetsFromDb.session u d = some r :=
  session_foldl_loadRow _ h (Or.inl ((Finset.mem_sort _).mpr
    (Finmap.mem_keys.mpr (Finmap.mem_of_lookup_eq_some h))))

/-- and without one it stays. -/
theorem session_load_of_ne (h : ∀ r, s.rows.lookup d ≠ some (u, r)) :
    s.loadRatchetsFromDb.session u d = s.session u d :=
  session_foldl_loadRow_of_ne _ h

theorem session_restart : s.restart.session u d = none :=
  session_of_empty (by rw [restart, ofUser, Finmap.lookup_empty]; rfl) d

/-- **A match is a row for every session** and a session for every row. -/
theorem matches_iff :
    s.Matches ↔ ∀ u d r, s.session u d = some r ↔ s.rows.lookup d = some (u, r) := by
  refine ⟨fun h u d r => ⟨fun hr => ?_, fun hrow => ?_⟩, fun h u d => ?_⟩
  · by_contra hne
    rw [← h u d] at hr
    by_cases hany : ∃ r', s.rows.lookup d = some (u, r')
    · obtain ⟨r', hrow⟩ := hany
      rw [session_load (s := s.restart) hrow] at hr
      exact hne (Option.some.inj hr ▸ hrow)
    · rw [session_load_of_ne (s := s.restart) fun r' hrow => hany ⟨r', hrow⟩,
        session_restart] at hr
      cases hr
  · rw [← h u d]
    exact session_load (s := s.restart) hrow
  · cases hr : s.session u d with
    | some r => exact session_load (s := s.restart) ((h u d r).mp hr)
    | none =>
      rw [session_load_of_ne (s := s.restart) fun r hrow => ?_, session_restart]
      rw [(h u d r).mpr hrow] at hr
      cases hr

end Restart

/-! ## The calls -/

variable [Zero K] [LinearOrder K] (S : Sodium K)

/-- **No session is made for a device another username has one with**: the
loop of `create_ratchets_if_needed`, up to where it throws. -/
def CreatesApart (ks : KeyStore K) (username : String) :
    List (KeyBundle K) → SessionStore K → Prop
  | [], _ => True
  | bundle :: bundles, s =>
    let device := bundle.getTheirDevicePublic
    if (s.session username device).isSome then CreatesApart ks username bundles s
    else
      match bundle.createRatchet S ks with
      | .error _ => True
      | .ok r => (∀ u, u ≠ username → s.session u device = none)
        ∧ CreatesApart ks username bundles ((s.hold username device r).save username device r)

omit [Zero K] [LinearOrder K] in
/-- **A call of the session manager**, with the keys the device has at the
time, what `get_keybundles` does if it is asked, and the private key drawn
should a header carry a new public key. -/
inductive Call (K : Type) where
  | createRatchetsIfNeeded (ks : KeyStore K) (username : String) (bundles : List (KeyBundle K))
      (postToServer : Bool)
  | getKeysForIdentity (ks : KeyStore K) (username : String)
      (newBundles : Option (Except Fault (List (SendingKeyBundle K))))
  | getKeyForDevice (fresh : K) (username : String) (header : MessageHeader K)

namespace Call

/-- How a call ends, and the store it leaves. -/
def run : Call K → SessionStore K → Except Fault Unit × SessionStore K
  | createRatchetsIfNeeded ks username bundles postToServer, s =>
    let created := s.createRatchetsIfNeeded S ks username postToServer bundles
    (created.result, created.store)
  | getKeysForIdentity ks username none, s =>
    let keys := s.getKeysForIdentity S ks username none
    (keys.result.map fun _ => (), keys.store)
  | getKeysForIdentity _ _ (some (.error e)), s => (.error e, s)
  | getKeysForIdentity ks username (some (.ok bundles)), s =>
    let keys := s.getKeysForIdentity S ks username (some bundles)
    (keys.result.map fun _ => (), keys.store)
  | getKeyForDevice fresh username header, s =>
    let (key, s) := s.getKeyForDevice S fresh username header
    (key.map fun _ => (), s)

/-- **A call keeps the sessions apart and whole**: those it makes are for
devices no other username has one with, and the header it answers settles. -/
def KeepsApart : Call K → SessionStore K → Prop
  | createRatchetsIfNeeded ks username bundles _, s => CreatesApart S ks username bundles s
  | getKeysForIdentity ks username (some (.ok bundles)), s =>
    CreatesApart S ks username (bundles.map .sending) s
  | getKeysForIdentity _ _ _, _ => True
  | getKeyForDevice fresh username header, s =>
    ∀ r, s.session username header.deviceId = some r → r.Settles S fresh header

/-- The call returned or threw. -/
def Ends (c : Call K) (s : SessionStore K) : Prop :=
  ∀ e, (c.run S s).1 = .error e → e.isUndefined = false

instance (c : Call K) (s : SessionStore K) : Decidable (c.Ends S s) :=
  match h : (c.run S s).1 with
  | .ok _ => .isTrue fun e he => by rw [h] at he; cases he
  | .error e => decidable_of_iff (e.isUndefined = false)
      ⟨fun hu e' he => by rw [h] at he; exact Except.error.inj he ▸ hu, fun hall => hall e h⟩

/-- **Along a sequence of calls**: every one of them, where it is made. -/
def Along (P : Call K → SessionStore K → Prop) : List (Call K) → SessionStore K → Prop
  | [], _ => True
  | c :: calls, s => P c s ∧ Along P calls (c.run S s).2

instance decidableAlong (P : Call K → SessionStore K → Prop) [∀ c s, Decidable (P c s)] :
    ∀ calls s, Decidable (Along S P calls s)
  | [], _ => .isTrue trivial
  | c :: calls, s =>
    let _ := decidableAlong P calls (c.run S s).2
    inferInstanceAs (Decidable (P c s ∧ _))

end Call

/-! ## What a write does to the match -/

section Writes

variable {S} {s t : SessionStore K} {u username : String} {d device : K} {r r' : NewRatchet K}
  {ks : KeyStore K}

omit [Zero K] in
theorem Matches.touch (h : s.Matches) : (s.touch username).Matches := by
  rw [matches_iff] at h ⊢
  intro u d r
  rw [session_touch]
  exact h u d r

omit [Zero K] in
/-- With a match, no two usernames have a session with one device. -/
theorem Matches.apart (h : s.Matches) (hr : s.session username device = some r)
    (hu : u ≠ username) :
    s.session u device = none := by
  rw [matches_iff] at h
  cases hr' : s.session u device with
  | none => rfl
  | some r' =>
    have hrow := (h u device r').mp hr'
    rw [(h username device r).mp hr] at hrow
    exact absurd (congrArg Prod.fst (Option.some.inj hrow)).symm hu

omit [Zero K] in
/-- Holding the ratchet that is held changes nothing. -/
theorem Matches.hold_self (h : s.Matches) (hr : s.session username device = some r) :
    (s.hold username device r).Matches := by
  rw [matches_iff] at h ⊢
  intro u d r'
  by_cases he : (u, d) = (username, device)
  · obtain ⟨rfl, rfl⟩ := Prod.mk.inj he
    rw [session_hold, ← hr]
    exact h u d r'
  · rw [session_hold_of_ne _ _ _ _ _ _ he]
    exact h u d r'

omit [Zero K] in
/-- **A session written to both copies** matches, if it is the device's only
one. -/
theorem Matches.hold_save (h : s.Matches)
    (hapart : ∀ u, u ≠ username → s.session u device = none) :
    ((s.hold username device r).save username device r).Matches := by
  rw [matches_iff] at h ⊢
  intro u d r'
  rw [session_save]
  by_cases hd : d = device
  · subst hd
    rw [row_save]
    by_cases hu : u = username
    · subst hu
      rw [session_hold]
      constructor
      · rintro ⟨⟩
        rfl
      · rintro ⟨⟩
        rfl
    · rw [session_hold_of_ne _ _ _ _ _ _ fun he => hu (congrArg Prod.fst he), hapart u hu]
      exact iff_of_false nofun fun he => hu (congrArg Prod.fst (Option.some.inj he)).symm
  · rw [row_save_of_ne _ _ _ _ _ hd, rows_hold,
      session_hold_of_ne _ _ _ _ _ _ fun he => hd (congrArg Prod.snd he)]
    exact h u d r'

omit [Zero K] in
/-- **A session held and not written**, not the one that was, is no match. -/
theorem Matches.not_hold (h : s.Matches) (hr : s.session username device = some r) (hne : r' ≠ r) :
    ¬ (s.hold username device r').Matches := by
  intro h'
  rw [matches_iff] at h h'
  have hrow := (h' username device r').mp (session_hold ..)
  rw [rows_hold, (h username device r).mp hr] at hrow
  exact hne (congrArg Prod.snd (Option.some.inj hrow)).symm

omit [Zero K] in
/-- Two usernames with a session with one device. -/
def Torn (s : SessionStore K) : Prop :=
  ∃ u u' d, u ≠ u' ∧ (s.session u d).isSome ∧ (s.session u' d).isSome

omit [Zero K] in
theorem Torn.not_matches (h : s.Torn) : ¬ s.Matches := by
  obtain ⟨u, u', d, hne, hu, hu'⟩ := h
  intro hm
  obtain ⟨r, hr⟩ := Option.isSome_iff_exists.mp hu'
  rw [hm.apart hr hne] at hu
  cases hu

omit [Zero K] in
/-- No session is ever dropped: two usernames stay two. -/
theorem Torn.mono (h : s.Torn)
    (hst : ∀ u d, (s.session u d).isSome → (t.session u d).isSome) : t.Torn := by
  obtain ⟨u, u', d, hne, hu, hu'⟩ := h
  exact ⟨u, u', d, hne, hst u d hu, hst u' d hu'⟩

omit [Zero K] in
theorem session_hold_isSome (h : (s.session u d).isSome) :
    ((s.hold username device r).session u d).isSome := by
  by_cases he : (u, d) = (username, device)
  · obtain ⟨rfl, rfl⟩ := Prod.mk.inj he
    rw [session_hold]
    rfl
  · rwa [session_hold_of_ne _ _ _ _ _ _ he]

theorem session_create_isSome (post : Bool) (bundles : List (KeyBundle K))
    (h : (s.session u d).isSome) :
    ((s.createRatchetsIfNeeded S ks username post bundles).store.session u d).isSome := by
  induction bundles generalizing s with
  | nil =>
    rw [createRatchetsIfNeeded, session_touch]
    exact h
  | cons bundle bundles ih =>
    rw [createRatchetsIfNeeded]
    split
    · exact ih h
    · split
      · rw [session_touch]
        exact h
      · exact ih (session_hold_isSome h)

theorem session_advanceAll_isSome (myDevicePublic : K) (devices : List K)
    (h : (s.session u d).isSome) :
    ((s.advanceAll S username myDevicePublic devices).2.session u d).isSome := by
  induction devices generalizing s with
  | nil => exact h
  | cons device devices ih =>
    rw [advanceAll]
    split
    · exact ih h
    · rename_i r hr
      split
      · exact session_hold_isSome h
      · rename_i key header r' hsend
        have hrest := ih (s := (s.hold username device r').save username device r')
          (session_hold_isSome h)
        split
        · rename_i hall
          rwa [hall] at hrest
        · rename_i hall
          rwa [hall] at hrest

/-! ## What a call does to it -/

/-- **Sessions made for devices of no other username** keep the match. -/
theorem Matches.createRatchetsIfNeeded (h : s.Matches) (post : Bool)
    {bundles : List (KeyBundle K)} (hc : CreatesApart S ks username bundles s) :
    (s.createRatchetsIfNeeded S ks username post bundles).store.Matches := by
  induction bundles generalizing s with
  | nil => exact h.touch
  | cons bundle bundles ih =>
    rw [SessionStore.createRatchetsIfNeeded]
    rw [CreatesApart] at hc
    split
    · rw [if_pos ‹_›] at hc
      exact ih h hc
    · rw [if_neg ‹_›] at hc
      split
      · exact h.touch
      · rename_i r hr
        simp only [hr] at hc
        exact ih (h.hold_save hc.1) hc.2

/-- **A session made for a device another username has one with** is there to
stay, and so is the other. -/
theorem torn_createRatchetsIfNeeded (post : Bool) {bundles : List (KeyBundle K)}
    (hc : ¬ CreatesApart S ks username bundles s) :
    (s.createRatchetsIfNeeded S ks username post bundles).store.Torn := by
  induction bundles generalizing s with
  | nil => exact absurd trivial hc
  | cons bundle bundles ih =>
    rw [SessionStore.createRatchetsIfNeeded]
    rw [CreatesApart] at hc
    split
    · rw [if_pos ‹_›] at hc
      exact ih hc
    · rw [if_neg ‹_›] at hc
      split
      · rename_i e he
        simp only [he, not_true_eq_false] at hc
      · rename_i r hr
        simp only [hr] at hc
        by_cases hapart : ∀ u, u ≠ username → s.session u bundle.getTheirDevicePublic = none
        · exact ih fun hrest => hc ⟨hapart, hrest⟩
        · obtain ⟨u, hu⟩ := not_forall.mp hapart
          obtain ⟨hne, hu⟩ := Classical.not_imp.mp hu
          refine ⟨u, username, bundle.getTheirDevicePublic, hne, ?_, ?_⟩
          · exact session_create_isSome post bundles
              (session_hold_isSome (Option.isSome_iff_ne_none.mpr hu))
          · refine session_create_isSome post bundles ?_
            rw [session_save, session_hold]
            rfl

/-- **A key for every session** keeps the match, also where it throws. -/
theorem Matches.advanceAll (h : s.Matches) (myDevicePublic : K) (devices : List K)
    (hend : ∀ e, (s.advanceAll S username myDevicePublic devices).1 = .error e →
      e.isUndefined = false) :
    (s.advanceAll S username myDevicePublic devices).2.Matches := by
  induction devices generalizing s with
  | nil => exact h
  | cons device devices ih =>
    rw [SessionStore.advanceAll] at hend ⊢
    cases hr : s.session username device with
    | none =>
      simp only [hr] at hend ⊢
      exact ih h hend
    | some r =>
      simp only [hr] at hend ⊢
      rcases hsend : r.advanceSend S with ⟨result, r'⟩
      cases result with
      | error e =>
        simp only [hsend] at hend ⊢
        obtain rfl : r' = r := NewRatchet.eq_of_advanceSend_refused hsend (hend e rfl)
        exact h.hold_self hr
      | ok m =>
        have hsaved : ((s.hold username device r').save username device r').Matches :=
          h.hold_save fun u hu => h.apart hr hu
        simp only [hsend] at hend ⊢
        rcases hall : SessionStore.advanceAll S username myDevicePublic devices
          ((s.hold username device r').save username device r') with ⟨result, t⟩
        have hrest := ih hsaved
        rw [hall] at hrest
        cases result with
        | error e =>
          simp only [hall] at hend ⊢
          exact hrest hend
        | ok keys =>
          simp only
          exact hrest fun e he => by cases he

theorem Matches.advanceUser (h : s.Matches)
    (hend : ∀ e, (s.advanceUser S ks username).1 = .error e → e.isUndefined = false) :
    (s.advanceUser S ks username).2.Matches := by
  unfold SessionStore.advanceUser at hend ⊢
  cases hdev : ks.getPublicKey .device with
  | error e => exact h.touch
  | ok myDevicePublic =>
    simp only [hdev] at hend ⊢
    exact h.touch.advanceAll myDevicePublic _ hend

theorem session_advanceUser_isSome (h : (s.session u d).isSome) :
    ((s.advanceUser S ks username).2.session u d).isSome := by
  have ht : ((s.touch username).session u d).isSome := by rwa [session_touch]
  unfold SessionStore.advanceUser
  cases ks.getPublicKey .device with
  | error e => exact ht
  | ok myDevicePublic => exact session_advanceAll_isSome _ _ ht

/-- **`get_keys_for_identity` keeps the match** if what it creates does. -/
theorem Matches.getKeysForIdentity {newBundles : Option (List (SendingKeyBundle K))}
    (h : (s.ensureRatchets S ks username newBundles).store.Matches)
    (hend : ∀ e, (s.getKeysForIdentity S ks username newBundles).result = .error e →
      e.isUndefined = false) :
    (s.getKeysForIdentity S ks username newBundles).store.Matches := by
  rcases getKeysForIdentity_cases S ks s username newBundles with ⟨e, -, hk⟩ | ⟨-, hk⟩
  · rw [hk]
    exact h
  · rw [hk] at hend ⊢
    exact h.advanceUser hend

/-- Two usernames stay two through it. -/
theorem Torn.getKeysForIdentity {newBundles : Option (List (SendingKeyBundle K))}
    (h : (s.ensureRatchets S ks username newBundles).store.Torn) :
    (s.getKeysForIdentity S ks username newBundles).store.Torn := by
  rcases getKeysForIdentity_cases S ks s username newBundles with ⟨e, -, hk⟩ | ⟨-, hk⟩
  · rw [hk]
    exact h
  · rw [hk]
    exact h.mono fun u d => session_advanceUser_isSome

omit [Zero K] in
/-- **`get_key_for_device` keeps the match** exactly if the header
settles. -/
theorem Matches.getKeyForDevice_iff (h : s.Matches) {fresh : K} {header : MessageHeader K}
    (hend : ∀ e, (s.getKeyForDevice S fresh username header).1 = .error e →
      e.isUndefined = false) :
    (s.getKeyForDevice S fresh username header).2.Matches
      ↔ ∀ r, s.session username header.deviceId = some r → r.Settles S fresh header := by
  cases hr : s.session username header.deviceId with
  | none =>
    obtain ⟨what, hnone⟩ := getKeyForDevice_of_none (S := S) hr fresh
    rw [hnone]
    exact iff_of_true h nofun
  | some r =>
    rw [getKeyForDevice_eq hr] at hend ⊢
    by_cases hs : r.Settles S fresh header
    · refine iff_of_true ?_ fun r' hr' => Option.some.inj hr' ▸ hs
      rcases hrec : r.advanceReceive S fresh header with ⟨result, r'⟩
      cases result with
      | error e =>
        simp only [hrec] at hend
        obtain rfl : r' = r := NewRatchet.eq_of_settles hs hrec (hend e rfl)
        exact h.hold_self hr
      | ok key => exact h.hold_save fun u hu => h.apart hr hu
    · obtain ⟨what, r', hrec, hne⟩ := NewRatchet.ne_of_not_settles hs
      refine iff_of_false ?_ fun hall => hs (hall r rfl)
      rw [hrec]
      exact h.not_hold hr hne

end Writes

/-! ## The run -/

section Run

variable {S} {s : SessionStore K} {c : Call K}

/-- **One call**: the sessions match after it exactly if it keeps them apart
and whole. -/
theorem Matches.run_iff (h : s.Matches) (hend : c.Ends S s) :
    (c.run S s).2.Matches ↔ c.KeepsApart S s := by
  unfold Call.Ends at hend
  cases c with
  | createRatchetsIfNeeded ks username bundles post =>
    refine ⟨fun hm => ?_, fun hc => h.createRatchetsIfNeeded post hc⟩
    by_contra hc
    exact (torn_createRatchetsIfNeeded post hc).not_matches hm
  | getKeysForIdentity ks username newBundles =>
    have hthrows : ∀ {o : Except Fault (List (K × K × MessageHeader K))},
        (∀ e, (o.map fun _ => ()) = .error e → e.isUndefined = false) →
        ∀ e, o = .error e → e.isUndefined = false := by
      rintro o ho e rfl
      exact ho e rfl
    match newBundles with
    | none => exact iff_of_true (Matches.getKeysForIdentity h (hthrows hend)) trivial
    | some (.error e) => exact iff_of_true h trivial
    | some (.ok bundles) =>
      refine ⟨fun hm => ?_, fun hc =>
        Matches.getKeysForIdentity (h.createRatchetsIfNeeded true hc) (hthrows hend)⟩
      by_contra hc
      have htorn : (s.ensureRatchets S ks username (some bundles)).store.Torn :=
        torn_createRatchetsIfNeeded true hc
      exact htorn.getKeysForIdentity.not_matches hm
  | getKeyForDevice fresh username header =>
    refine h.getKeyForDevice_iff fun e he => hend e ?_
    show (s.getKeyForDevice S fresh username header).1.map (fun _ => ()) = _
    rw [he]
    rfl

/-- **The stored sessions match the live ones along a run** – after every call
of a sequence whose calls return or throw – exactly if every call keeps the
sessions apart and whole: the ones it makes are for devices no other username
has a session with, and the header it answers settles. -/
theorem matches_iff_keepsApart (h : s.Matches) (calls : List (Call K))
    (hend : Call.Along S (Call.Ends S) calls s) :
    Call.Along S (fun c s => (c.run S s).2.Matches) calls s
      ↔ Call.Along S (Call.KeepsApart S) calls s := by
  induction calls generalizing s with
  | nil => exact Iff.rfl
  | cons c calls ih =>
    have hstep := h.run_iff hend.1
    constructor
    · rintro ⟨hm, hrest⟩
      exact ⟨hstep.mp hm, (ih hm hend.2).mp hrest⟩
    · rintro ⟨hc, hrest⟩
      have hm := hstep.mpr hc
      exact ⟨hm, (ih hm hend.2).mpr hrest⟩

/-- One bundle, of a device no other username has a session with. -/
theorem createsApart_singleton {ks : KeyStore K} {username : String} {bundle : KeyBundle K}
    (h : ∀ u, u ≠ username → s.session u bundle.getTheirDevicePublic = none) :
    CreatesApart S ks username [bundle] s := by
  rw [CreatesApart]
  split
  · trivial
  · split
    · trivial
    · exact ⟨h, trivial⟩

omit [Zero K] in
/-- A device without sessions and rows. -/
theorem matches_empty (messages : Finmap fun _ : String => StoredMessage K) :
    Matches (⟨∅, ∅, messages⟩ : SessionStore K) := by
  rw [matches_iff]
  intro u d r
  rw [session_of_empty (by rw [ofUser, Finmap.lookup_empty]; rfl), Finmap.lookup_empty]
  exact iff_of_false (fun h => by cases h) fun h => by cases h

omit [Zero K] in
theorem not_matches_of_ne {u : String} {d : K} (hs : (s.session u d).isSome)
    (hne : (s.session u d).map (fun r => (u, r)) ≠ s.rows.lookup d) : ¬ s.Matches := by
  intro h
  obtain ⟨r, hr⟩ := Option.isSome_iff_exists.mp hs
  rw [hr, (matches_iff.mp h u d r).mp hr] at hne
  exact hne rfl

end Run

/-- Device 3 of the ideal library gets a session with device 5 as "alice" by
a handshake. -/
def Call.idealHandshake (username : String) : Call ℕ :=
  .createRatchetsIfNeeded (.ideal 3) username [.receiving (.ideal 5)] true

/-- And a header under a public key of device 5. -/
def Call.idealHeader (dhPublic : ℕ) : Call ℕ :=
  .getKeyForDevice 32 "alice"
    { (MessageHeader.empty : MessageHeader ℕ) with
      dhPublic := dhPublic
      deviceId := Sodium.ideal.signPublic 5 }

/-- A handshake, a send, and a header under a new public key. -/
theorem matches_iff_keepsApart_turn :
    Call.Along Sodium.ideal (fun c s => (c.run Sodium.ideal s).2.Matches)
      [.idealHandshake "alice", .getKeysForIdentity (.ideal 3) "alice" none,
        .idealHeader (Sodium.ideal.boxPublic 24)] (⟨∅, ∅, ∅⟩ : SessionStore ℕ) := by
  have hcreate : CreatesApart Sodium.ideal (.ideal 3) "alice" [.receiving (.ideal 5)]
      (⟨∅, ∅, ∅⟩ : SessionStore ℕ) :=
    createsApart_singleton fun u _ =>
      session_of_empty (by rw [ofUser, Finmap.lookup_empty]; rfl) _
  have hsettles : ∀ r ∈ ((Call.getKeysForIdentity (.ideal 3) "alice" none).run Sodium.ideal
      ((Call.idealHandshake "alice").run Sodium.ideal ⟨∅, ∅, ∅⟩).2).2.session "alice"
        (Sodium.ideal.signPublic 5),
      r.Settles Sodium.ideal 32 { (MessageHeader.empty : MessageHeader ℕ) with
        dhPublic := Sodium.ideal.boxPublic 24
        deviceId := Sodium.ideal.signPublic 5 } := by
    decide +kernel
  exact (matches_iff_keepsApart (matches_empty ∅) _ (by decide +kernel)).mpr
    ⟨hcreate, trivial, fun r hr => hsettles r hr, trivial⟩

/-- **Where it fails**: a header under a public key X25519 refuses is thrown
out after the ratchet has taken it over; and a second username takes the row
of the first. -/
theorem not_matches_of_refused_of_torn :
    ¬ Call.Along Sodium.ideal (fun c s => (c.run Sodium.ideal s).2.Matches)
        [.idealHandshake "alice", .idealHeader 0] (⟨∅, ∅, ∅⟩ : SessionStore ℕ)
      ∧ ¬ Call.Along Sodium.ideal (fun c s => (c.run Sodium.ideal s).2.Matches)
        [.idealHandshake "alice", .idealHandshake "bob"] (⟨∅, ∅, ∅⟩ : SessionStore ℕ) := by
  constructor
  · rintro ⟨-, h, -⟩
    exact not_matches_of_ne (u := "alice") (d := Sodium.ideal.signPublic 5)
      (by decide +kernel) (by decide +kernel) h
  · rintro ⟨-, h, -⟩
    exact not_matches_of_ne (u := "alice") (d := Sodium.ideal.signPublic 5)
      (by decide +kernel) (by decide +kernel) h

end SessionStore
