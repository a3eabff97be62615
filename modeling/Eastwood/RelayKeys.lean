import Eastwood.Backlog
import Eastwood.Labelling

/-!
# A relay that leads a ratchet to its own key

Nothing in a header is authenticated before the ratchet acts on it. A relay
can hence put a public key of its own into one: whatever becomes of the
message it is on, the ratchet has taken the key over, and has made both
chains of the DH outputs with it.

From there on the relay reads what the device sends, and it reads nothing
else. A key that `advance_send` returns follows from the relay's private keys
and the public key in the header it goes out with, if the last public key the
ratchet accepted is the relay's; and if it is a device's, the key follows from
nothing that is not secret (`NewRatchet.readable_iff_led`). So a session is
lost by one header, and regained by the next one of the other device.
-/

variable {K : Type}

namespace NewRatchet

/-! ## Calls and the keys they bring -/

section Calls

variable [DecidableEq K] [Zero K] (S : Sodium K)

/-- The ratchet after some calls, failing ones included; none if one of them
ran into undefined behaviour. -/
def afterCalls : List (Call K) → NewRatchet K → Option (NewRatchet K)
  | [], r => some r
  | c :: calls, r =>
    match r.call S c with
    | (.ok _, r) => afterCalls calls r
    | (.error e, r) => if e.isUndefined then none else afterCalls calls r

omit [DecidableEq K] [Zero K] in
/-- The public key a call brings, if X25519 accepts it. -/
def broughtBy : Call K → Option K
  | .send => none
  | .receive fresh h => if (S.scalarmult fresh h.dhPublic).isSome then some h.dhPublic else none

omit [DecidableEq K] [Zero K] in
theorem broughtBy_receive (fresh : K) (h : MessageHeader K) : broughtBy S (.receive fresh h)
    = if (S.scalarmult fresh h.dhPublic).isSome then some h.dhPublic else none := rfl

omit [DecidableEq K] [Zero K] in
/-- **The last public key accepted** in some calls, the ratchet having been
made with `otherKey`. -/
def lastAccepted (otherKey : K) (calls : List (Call K)) : K :=
  calls.foldl (fun last c => (broughtBy S c).getD last) otherKey

end Calls

/-! ## What a relay can name -/

variable {S : Sodium K} (L : S.Labelling) (P : Set K)

/-- **A public key a relay can put into a header**: of a private key it has,
of one that is secret, or none at all – X25519 refuses it. -/
inductive Nameable : K → Prop
  | own {a : K} : a ∈ P → Nameable (S.boxPublic a)
  | device {a : K} : L.Secret a → Nameable (S.boxPublic a)
  | refused {B : K} : (∀ x, S.scalarmult x B = none) → Nameable B

variable {L} {P}

/-- What can be named is refused, or the public half of some key. -/
theorem Nameable.cases_pair {B : K} (h : Nameable L P B) :
    (∀ x, S.scalarmult x B = none) ∨ ∃ a, B = S.boxPublic a ∧ (a ∈ P ∨ L.Secret a) := by
  cases h with
  | own h => exact Or.inr ⟨_, rfl, Or.inl h⟩
  | device h => exact Or.inr ⟨_, rfl, Or.inr h⟩
  | refused h => exact Or.inl h

/-! ## The invariant -/

variable (L)

/-- **A ratchet led to a public key**: its pair is secret, and the chain the
next send is on is derived from the DH output of that pair and the key. -/
structure Led (peer : K) (r : NewRatchet K) : Prop where
  localPair : r.localDhPublic = S.boxPublic r.localDhPriv
  localSecret : L.Secret r.localDhPriv
  remote : r.remoteDhPublic = peer ∨ ∀ x, S.scalarmult x r.remoteDhPublic = none
  sends : ∀ c, r.nextChain S = some c → ∃ x, S.scalarmult r.localDhPriv peer = some x
    ∧ Derivable S {x} c.key ∧ (L.Secret x → L.Secret c.key)

variable {L}

/-- The chain key of a DH output follows from it, and is as secret. -/
theorem derivable_dhChainKey (x : K) : Derivable S {x} (S.dhChainKey x) :=
  .kdf _ _ (.generichash fun k hk => by
    rw [List.mem_singleton.mp hk]
    exact .known (Set.mem_singleton x))

theorem secret_dhChainKey {x : K} (hx : L.Secret x) : L.Secret (S.dhChainKey x) := by
  unfold Sodium.dhChainKey
  rw [L.kdf, L.generichash]
  exact ⟨x, List.mem_singleton_self x, hx⟩

variable {peer : K} {r r' : NewRatchet K}

/-- Whatever else changes, a ratchet stays led. -/
theorem Led.congr (h : Led L peer r) (hpub : r'.localDhPublic = r.localDhPublic)
    (hpriv : r'.localDhPriv = r.localDhPriv) (hremote : r'.remoteDhPublic = r.remoteDhPublic)
    (hdue : r'.dueToSendNewDh = r.dueToSendNewDh) (hsend : r'.sendChain = r.sendChain) :
    Led L peer r' where
  localPair := by rw [hpub, hpriv, h.localPair]
  localSecret := by rw [hpriv]; exact h.localSecret
  remote := by rw [hremote]; exact h.remote
  sends c hc := by
    rw [hpriv]
    refine h.sends c ?_
    rwa [nextChain, hdue, hpriv, hremote, hsend] at hc

section Sends

variable [Zero K]

/-- **A send in the chain it is on**: the key, the header's public key, and
the chain of the next. -/
theorem advanceSend_of_nextChain {c : NewChain K} (hc : r.nextChain S = some c) :
    ((r.advanceSend S).1 = .error .signedOverflow ∧ (r.advanceSend S).2.nextChain S = some c)
      ∨ ∃ header, (r.advanceSend S).1 = .ok (S.kdf c.key 0 .drSndKey, header)
        ∧ header.dhPublic = r.localDhPublic
        ∧ (r.advanceSend S).2.nextChain S
          = some { index := c.index + 1, key := S.kdf c.key 1 .drSndKey } := by
  obtain ⟨root, hr⟩ := advanceSend_nextChain hc
  rw [hr, advanceSend, if_neg Bool.false_ne_true, progressSendingRatchet]
  by_cases hmax : c.index = intMax
  · rw [if_pos hmax]
    exact Or.inl ⟨rfl, rfl⟩
  · rw [if_neg hmax]
    exact Or.inr ⟨_, rfl, rfl, rfl⟩

/-- Without a chain there is no send: the DH computation that is due fails. -/
theorem advanceSend_of_no_nextChain (hc : r.nextChain S = none) :
    r.advanceSend S = (.error (.runtimeError "Failed to perform dh"), r) := by
  rw [nextChain] at hc
  by_cases hdue : r.dueToSendNewDh
  · rw [if_pos hdue, Option.map_eq_none_iff] at hc
    rw [advanceSend, if_pos hdue, dhRatchetStep, dh, hc]
  · rw [if_neg hdue] at hc
    cases hc

/-- **What is sent**: a key that follows from the DH output with the key the
ratchet is led to, and is as secret, under the local public key. -/
theorem Led.sent (h : Led L peer r) {key : K} {header : MessageHeader K}
    (hsend : (r.advanceSend S).1 = .ok (key, header)) :
    header.dhPublic = S.boxPublic r.localDhPriv
      ∧ ∃ x, S.scalarmult r.localDhPriv peer = some x
        ∧ Derivable S {x} key ∧ (L.Secret x → L.Secret key) := by
  cases hc : r.nextChain S with
  | none =>
    rw [advanceSend_of_no_nextChain hc] at hsend
    cases hsend
  | some c =>
    obtain ⟨x, hx, hder, hsecret⟩ := h.sends c hc
    obtain ⟨hoverflow, -⟩ | ⟨header', hok, hpub, -⟩ := advanceSend_of_nextChain hc
    · rw [hoverflow] at hsend
      cases hsend
    · rw [hok] at hsend
      obtain ⟨rfl, rfl⟩ := Prod.mk.inj (Except.ok.inj hsend)
      exact ⟨hpub.trans h.localPair, x, hx, .kdf 0 .drSndKey hder,
        fun hsx => (L.kdf ..).mpr (hsecret hsx)⟩

/-- **A send leaves a ratchet led** where it was. -/
theorem Led.send (h : Led L peer r) : Led L peer (r.advanceSend S).2 := by
  cases hc : r.nextChain S with
  | none =>
    rw [advanceSend_of_no_nextChain hc]
    exact h
  | some c =>
    obtain ⟨x, hx, hder, hsecret⟩ := h.sends c hc
    obtain ⟨due, root, ch, hframe⟩ := advanceSend_frame (S := S) r
    have hnext : ∃ c', (r.advanceSend S).2.nextChain S = some c' ∧ Derivable S {x} c'.key
        ∧ (L.Secret x → L.Secret c'.key) := by
      obtain ⟨-, hsame⟩ | ⟨_, -, -, hnext⟩ := advanceSend_of_nextChain hc
      · exact ⟨c, hsame, hder, hsecret⟩
      · exact ⟨_, hnext, .kdf 1 .drSndKey hder, fun hsx => (L.kdf ..).mpr (hsecret hsx)⟩
    rw [hframe] at hnext ⊢
    obtain ⟨c', hc', hfollows⟩ := hnext
    refine ⟨h.localPair, h.localSecret, h.remote, fun c'' hc'' => ⟨x, hx, ?_⟩⟩
    obtain rfl := Option.some.inj (hc'.symm.trans hc'')
    exact hfollows

end Sends

/-! ## What a header does -/

section Receives

variable [DecidableEq K] {fresh : K} {h : MessageHeader K}

/-- A header of the key the ratchet is at leads it nowhere, -/
theorem Led.receive_same (hr : Led L peer r) (hsame : r.remoteDhPublic = h.dhPublic) :
    Led L peer (r.advanceReceive S fresh h).2 := by
  rw [advanceReceive, if_neg (not_not.mpr hsame)]
  obtain ⟨ch, sk, hframe⟩ := receiveInChain_frame S h r
  rw [hframe]
  exact hr.congr rfl rfl rfl rfl rfl

/-- one of a key that is refused neither, -/
theorem Led.receive_refused (hr : Led L peer r) (hne : r.remoteDhPublic ≠ h.dhPublic)
    (hrefused : ∀ x, S.scalarmult x h.dhPublic = none) :
    Led L peer (r.advanceReceive S fresh h).2 := by
  obtain ⟨sk, heq⟩ := advanceReceive_refusedDh (S := S) hne (hrefused _) fresh
  rw [heq]
  refine ⟨hr.localPair, hr.localSecret, Or.inr hrefused, fun c hc => hr.sends c ?_⟩
  -- a send that is due will fail, and one that is not is still on its chain
  rw [nextChain] at hc ⊢
  by_cases hdue : r.dueToSendNewDh
  · rw [if_pos (show _ = true from hdue)] at hc
    change Option.map _ (S.scalarmult r.localDhPriv h.dhPublic) = _ at hc
    rw [hrefused] at hc
    cases hc
  · rw [if_neg (show ¬ _ = true from hdue)] at hc
    rwa [if_neg hdue]

/-- **and one of any other key leads it there.** -/
theorem led_of_receive_new (hfresh : L.Secret fresh) {x y : K}
    (hne : r.remoteDhPublic ≠ h.dhPublic) (hx : S.scalarmult r.localDhPriv h.dhPublic = some x)
    (hy : S.scalarmult fresh h.dhPublic = some y) :
    Led L h.dhPublic (r.advanceReceive S fresh h).2 := by
  obtain ⟨hnext, -⟩ := advanceReceive_newDh_nextChain hne hx hy
  obtain ⟨sk, heq, -⟩ := advanceReceive_newDh S hne hx hy
  obtain ⟨ch, sk', hframe⟩ := receiveInChain_frame S h (r.turned S h.dhPublic fresh x y sk)
  rw [heq, hframe] at hnext ⊢
  refine ⟨rfl, hfresh, Or.inl rfl, fun c hc => ⟨y, hy, ?_⟩⟩
  obtain rfl := Option.some.inj (hnext.symm.trans hc)
  exact ⟨derivable_dhChainKey y, secret_dhChainKey⟩

end Receives

/-! ## Along some calls -/

variable [DecidableEq K] [Zero K]

omit [DecidableEq K] in
/-- A constructor computed a DH output, -/
theorem exists_initial_of_constructed (h : Epoch.Constructed S r) :
    ∃ p x, S.scalarmult r.localDhPriv r.remoteDhPublic = some x
      ∧ r = initial S p x r.localDhPublic r.localDhPriv r.remoteDhPublic := by
  cases h with
  | initiator h =>
    obtain ⟨x, hx, rfl⟩ := exists_of_newInitiator S h
    exact ⟨.initiator, x, hx, rfl⟩
  | recipient h =>
    obtain ⟨x, hx, rfl⟩ := exists_of_newRecipient S h
    exact ⟨.recipient, x, hx, rfl⟩

omit [DecidableEq K] in
/-- and the ratchet is led to the key it was made with. -/
theorem led_of_constructed (h : Epoch.Constructed S r)
    (hpair : r.localDhPublic = S.boxPublic r.localDhPriv) (hsecret : L.Secret r.localDhPriv) :
    Led L r.remoteDhPublic r := by
  obtain ⟨p, x, hx, hr⟩ := exists_initial_of_constructed h
  refine ⟨hpair, hsecret, Or.inl rfl, fun c hc => ⟨x, hx, ?_⟩⟩
  rw [hr] at hc
  obtain rfl : NewChain.mk 0 (S.initialChain x p).seed = c := Option.some.inj hc
  show Derivable S {x} (S.kdf _ _ _) ∧ (L.Secret x → L.Secret (S.kdf _ _ _))
  rw [L.kdf, L.generichash]
  refine ⟨.kdf _ _ (.generichash fun k hk => ?_), fun hsx => ⟨x, List.mem_singleton_self x, hsx⟩⟩
  rw [List.mem_singleton.mp hk]
  exact .known (Set.mem_singleton x)

omit [Zero K] in
/-- **A header leads a ratchet to its key**, if it brings one. -/
theorem Led.receive (hacc : S.AcceptsKeyPairs) (hr : Led L peer r) {fresh : K}
    {h : MessageHeader K} (hfresh : L.Secret fresh) (hname : Nameable L P h.dhPublic) :
    Led L ((broughtBy S (.receive fresh h)).getD peer) (r.advanceReceive S fresh h).2 := by
  rw [broughtBy_receive]
  obtain hrefused | ⟨a, ha, -⟩ := hname.cases_pair
  · rw [hrefused]
    by_cases hsame : r.remoteDhPublic = h.dhPublic
    · exact hr.receive_same hsame
    · exact hr.receive_refused hsame hrefused
  · obtain ⟨x, hx⟩ := Option.isSome_iff_exists.mp (hacc r.localDhPriv a)
    obtain ⟨y, hy⟩ := Option.isSome_iff_exists.mp (hacc fresh a)
    rw [← ha] at hx hy
    rw [hy]
    by_cases hsame : r.remoteDhPublic = h.dhPublic
    · -- the key it is at is not refused, so it is the one it was led to
      obtain hpeer | hbad := hr.remote
      · rw [← hsame, hpeer]
        exact hr.receive_same hsame
      · rw [← hsame, hbad] at hx
        cases hx
    · exact led_of_receive_new hfresh hsame hx hy

/-- **So does every call.** -/
theorem Led.call (hacc : S.AcceptsKeyPairs) (hr : Led L peer r) {c : Call K}
    (hc : ∀ fresh h, c = .receive fresh h → L.Secret fresh ∧ Nameable L P h.dhPublic) :
    Led L ((broughtBy S c).getD peer) (r.call S c).2 := by
  cases c with
  | send =>
    rw [call_send_snd]
    exact hr.send
  | receive fresh h => exact hr.receive hacc (hc fresh h rfl).1 (hc fresh h rfl).2

omit [DecidableEq K] [Zero K] in
/-- What is led to is the public half of a key, and stays one. -/
theorem exists_of_broughtBy {c : Call K}
    (hc : ∀ fresh h, c = .receive fresh h → L.Secret fresh ∧ Nameable L P h.dhPublic)
    (hpeer : ∃ a, peer = S.boxPublic a ∧ (a ∈ P ∨ L.Secret a)) :
    ∃ a, (broughtBy S c).getD peer = S.boxPublic a ∧ (a ∈ P ∨ L.Secret a) := by
  cases c with
  | send => exact hpeer
  | receive fresh h =>
    rw [broughtBy_receive]
    obtain hrefused | hpair := (hc fresh h rfl).2.cases_pair
    · rw [hrefused]
      exact hpeer
    · split
      · exact hpair
      · exact hpeer

/-- **Along any calls** a ratchet is led to the last key accepted. -/
theorem Led.afterCalls (hacc : S.AcceptsKeyPairs) (hr : Led L peer r)
    (hpeer : ∃ a, peer = S.boxPublic a ∧ (a ∈ P ∨ L.Secret a)) {calls : List (Call K)}
    (hcalls : ∀ fresh h, .receive fresh h ∈ calls → L.Secret fresh ∧ Nameable L P h.dhPublic)
    (h : r.afterCalls S calls = some r') :
    Led L (lastAccepted S peer calls) r'
      ∧ ∃ a, lastAccepted S peer calls = S.boxPublic a ∧ (a ∈ P ∨ L.Secret a) := by
  induction calls generalizing r peer with
  | nil =>
    obtain rfl := Option.some.inj h
    exact ⟨hr, hpeer⟩
  | cons c calls ih =>
    have hfirst : ∀ fresh h, c = .receive fresh h → L.Secret fresh ∧ Nameable L P h.dhPublic :=
      fun fresh h hc => hcalls fresh h (hc ▸ List.mem_cons_self)
    have hrest : (r.call S c).2.afterCalls S calls = some r' := by
      unfold NewRatchet.afterCalls at h
      cases hcall : r.call S c with
      | mk result r₁ =>
        rw [hcall] at h
        cases result with
        | ok key => exact h
        | error e =>
          simp only at h
          split at h
          · cases h
          · exact h
    exact ih (hr.call hacc hfirst) (exists_of_broughtBy hfirst hpeer)
      (fun fresh h hmem => hcalls fresh h (List.mem_cons_of_mem _ hmem)) hrest

/-! ## Who can read what is sent -/

/-- **A relay reads what a ratchet sends exactly while it has led it to a key
of its own.** After any calls of a ratchet straight from a constructor, with
headers of any public keys that can be named – the relay's, those of secret
private keys, and such as are refused –, the key of the next send follows from
the relay's private keys and the public key the message goes out with if and
only if the last public key accepted is one of the relay's. And otherwise the
key does not follow from anything that is not secret. -/
theorem readable_iff_led (hS : S.Commutes) (hacc : S.AcceptsKeyPairs)
    (hP : ∀ a ∈ P, ¬ L.Secret a) {made : NewRatchet K} (hmade : Epoch.Constructed S made)
    (hpair : made.localDhPublic = S.boxPublic made.localDhPriv)
    (hsecret : L.Secret made.localDhPriv) (hother : Nameable L P made.remoteDhPublic)
    (calls : List (Call K))
    (hcalls : ∀ fresh h, .receive fresh h ∈ calls → L.Secret fresh ∧ Nameable L P h.dhPublic)
    (hr : made.afterCalls S calls = some r) {key : K} {header : MessageHeader K}
    (hsend : (r.advanceSend S).1 = .ok (key, header)) :
    (Derivable S (insert header.dhPublic P) key
        ↔ lastAccepted S made.remoteDhPublic calls ∈ S.boxPublic '' P)
      ∧ (lastAccepted S made.remoteDhPublic calls ∉ S.boxPublic '' P →
        ∀ known : Set K, (∀ k ∈ known, ¬ L.Secret k) → ¬ Derivable S known key) := by
  have hnamed : ∃ a, made.remoteDhPublic = S.boxPublic a ∧ (a ∈ P ∨ L.Secret a) := by
    obtain hrefused | hnamed := hother.cases_pair
    · obtain ⟨p, x, hx, -⟩ := exists_initial_of_constructed hmade
      rw [hrefused] at hx
      cases hx
    · exact hnamed
  obtain ⟨hled, a, ha, hwhose⟩ :=
    (led_of_constructed hmade hpair hsecret).afterCalls hacc hnamed hcalls hr
  generalize lastAccepted S made.remoteDhPublic calls = peer at hled ha
  obtain ⟨hpub, x, hx, hder, hsx⟩ := hled.sent hsend
  rw [ha] at hx
  have hsecretx := L.scalarmult hx
  have hnot : peer ∉ S.boxPublic '' P → ∀ known : Set K, (∀ k ∈ known, ¬ L.Secret k) →
      ¬ Derivable S known key := by
    intro hpeer known hknown hkey
    have ha' : L.Secret a := hwhose.resolve_left fun h => hpeer ⟨a, h, ha.symm⟩
    exact hkey.public L hknown (hsx (hsecretx.mpr ⟨hled.localSecret, ha'⟩))
  refine ⟨⟨fun hkey => ?_, ?_⟩, hnot⟩
  · by_contra hpeer
    refine hnot hpeer _ (fun k hk => ?_) hkey
    obtain rfl | hk := hk
    · rw [hpub]
      exact L.boxPublic _
    · exact hP k hk
  · rintro ⟨b, hb, hpeer⟩
    refine hder.cut fun k hk => ?_
    rw [Set.mem_singleton_iff.mp hk]
    refine .scalarmult (.known (Set.mem_insert_of_mem _ hb)) (.known (Set.mem_insert ..)) ?_
    rw [hpub, hS, hpeer, ha, hx]

/-! ### A session that is taken over -/

/-- Device keys 8, 16, 32, 40 and 48 are secret, and 24 is the relay's. -/
def deviceKeys : Set ℕ := {8, 16, 32, 40, 48}

/-- A send, a header of the relay's key, one that is refused, and a send. -/
def takenOver : List (Call ℕ) :=
  [.send, .receive 32 (Epoch.idealHeader 24 0 7), .receive 40 ⟨0, 0, 0, 0, ""⟩,
    .receive 48 (Epoch.idealHeader 24 0 0), .send]

/-- The recipient of a session has accepted the relay's key last, and the
relay reads what it sends. -/
theorem readable_of_takenOver :
    ∃ r key header, Epoch.recipient.afterCalls Sodium.ideal takenOver = some r
      ∧ (r.advanceSend Sodium.ideal).1 = .ok (key, header)
      ∧ Derivable Sodium.ideal (insert header.dhPublic {24}) key := by
  have hsends : ((Epoch.recipient.afterCalls Sodium.ideal takenOver).map fun r =>
      (r.advanceSend Sodium.ideal).1.isOk) = some true := by decide +kernel
  obtain ⟨r, hr, hok⟩ := Option.map_eq_some_iff.mp hsends
  obtain ⟨⟨key, header⟩, hsend⟩ := exists_of_isOk hok
  have hsecret : ∀ n, 8 * n ∈ deviceKeys →
      (Sodium.idealLabelling deviceKeys).Secret (8 * n) := fun n => .drawn
  have hname : Nameable (Sodium.idealLabelling deviceKeys) {24} (Sodium.ideal.boxPublic 24) :=
    .own rfl
  have hrelay : ∀ a ∈ ({24} : Set ℕ), ¬ (Sodium.idealLabelling deviceKeys).Secret a := by
    rintro a rfl hsecret
    exact absurd ((Sodium.IdealSecret.drawn_iff 3).mp hsecret) (by simp [deviceKeys])
  refine ⟨r, key, header, hr, hsend, ((readable_iff_led Sodium.ideal_commutes
    Sodium.ideal_acceptsKeyPairs hrelay Epoch.constructed_recipient rfl
    (hsecret 2 (by simp [deviceKeys])) (.device (hsecret 1 (by simp [deviceKeys]))) takenOver ?_
    hr hsend).1).mpr ⟨24, rfl, by decide +kernel⟩⟩
  intro fresh h hmem
  simp only [takenOver, List.mem_cons, Call.receive.injEq, reduceCtorEq, List.not_mem_nil,
    or_false, false_or] at hmem
  obtain ⟨rfl, rfl⟩ | ⟨rfl, rfl⟩ | ⟨rfl, rfl⟩ := hmem
  · exact ⟨hsecret 4 (by simp [deviceKeys]), hname⟩
  · exact ⟨hsecret 5 (by simp [deviceKeys]), .refused Sodium.ideal_rejectsZero⟩
  · exact ⟨hsecret 6 (by simp [deviceKeys]), hname⟩

end NewRatchet
