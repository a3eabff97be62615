import Eastwood.Backlog

/-!
# Send keys are never reused

A sending chain is started in two places: when a header brings a new public
key, and again by the next send, which `due_to_send_new_dh` makes derive the
chain from the current pair once more. Both start it at position 0, so a key
would be handed out twice if the second start found the chain already used.

It never does. `Unrepeated` is what carries this along a run: every key
handed out is at an earlier position of the current chain, or on a chain of
another seed; and while the flag is up the chain stands at position 0 and a
second start, if the DH computation lets it happen, is a start of the very
same chain. Chains of different turns have different seeds because the pair
drawn at a turn is a new one and no header knew it before: that is where the
two assumptions on the history enter.

The main result is `sentKeys_nodup`, about any calls of a ratchet straight
from a constructor, with headers of any kind, failing calls included.
-/

variable {K : Type}

/-! ## The history of a ratchet -/

/-- What a history records. -/
inductive RatchetEvent (K : Type) where
  /-- `advance_receive` was called with a header under this public key. -/
  | received (dhPublic : K)
  /-- `generate_new_local_dh_keypair` made the pair with this public key. -/
  | generated (dhPublic : K)
  /-- `advance_send` returned this message key. -/
  | handedOut (key : K)
  deriving DecidableEq

namespace RatchetEvent

/-- The public key of a generated pair. -/
def generated? : RatchetEvent K → Option K
  | generated dhPublic => some dhPublic
  | _ => none

/-- The key a send handed out. -/
def handedOut? : RatchetEvent K → Option K
  | handedOut key => some key
  | _ => none

/-- A header under the public key of a pair that is generated. -/
def Foretells : RatchetEvent K → RatchetEvent K → Prop
  | received dhPublic, generated dhPublic' => dhPublic = dhPublic'
  | _, _ => False

instance [DecidableEq K] (a b : RatchetEvent K) : Decidable (a.Foretells b) := by
  unfold Foretells
  split <;> infer_instance

end RatchetEvent

open RatchetEvent

/-- The public keys generated, in order. -/
def generatedKeys (events : List (RatchetEvent K)) : List K := events.filterMap generated?

/-- **The keys `advance_send` returned**, in order. -/
def sentKeys (events : List (RatchetEvent K)) : List K := events.filterMap handedOut?

theorem mem_generatedKeys {events : List (RatchetEvent K)} {p : K} :
    p ∈ generatedKeys events ↔ .generated p ∈ events := by
  rw [generatedKeys, List.mem_filterMap]
  refine ⟨?_, fun h => ⟨_, h, rfl⟩⟩
  rintro ⟨e, he, hp⟩
  cases e with
  | generated q => exact Option.some.inj hp ▸ he
  | received q => cases hp
  | handedOut q => cases hp

theorem mem_sentKeys {events : List (RatchetEvent K)} {k : K} :
    k ∈ sentKeys events ↔ .handedOut k ∈ events := by
  rw [sentKeys, List.mem_filterMap]
  refine ⟨?_, fun h => ⟨_, h, rfl⟩⟩
  rintro ⟨e, he, hk⟩
  cases e with
  | handedOut q => exact Option.some.inj hk ▸ he
  | received q => cases hk
  | generated q => cases hk

/-- No two chains share their DH output unless the two public keys behind it
are the same two. -/
def Sodium.DhInjective (S : Sodium K) : Prop :=
  ∀ ⦃a B c D x⦄, S.scalarmult a B = some x → S.scalarmult c D = some x →
    ({S.boxPublic a, B} : Set K) = {S.boxPublic c, D}

theorem Sodium.ideal_dhInjective : Sodium.ideal.DhInjective := by
  intro a B c D x h h'
  unfold Sodium.ideal at h h' ⊢
  simp only at h h' ⊢
  split at h
  · split at h'
    · obtain ⟨hmin, hmax⟩ := Nat.pair_eq_pair.mp
        (show Nat.pair (min a (B / 8)) (max a (B / 8)) = Nat.pair (min c (D / 8)) (max c (D / 8))
          by have := Option.some.inj (h.trans h'.symm); omega)
      rw [Set.pair_eq_pair_iff]
      omega
    · cases h'
  · cases h

namespace NewRatchet

variable (S : Sodium K)

/-- Whether `advance_receive` gets to `generate_new_local_dh_keypair`: the
header is under a new public key, and the DH computation with it succeeds. -/
def DrawsKeypair (r : NewRatchet K) (h : MessageHeader K) : Prop :=
  r.remoteDhPublic ≠ h.dhPublic ∧ (S.scalarmult r.localDhPriv h.dhPublic).isSome

instance [DecidableEq K] (r : NewRatchet K) (h : MessageHeader K) :
    Decidable (r.DrawsKeypair S h) :=
  inferInstanceAs (Decidable (_ ∧ _))

variable [DecidableEq K] [Zero K]

/-- What one call adds to the history. -/
def eventsOf (r : NewRatchet K) : Call K → List (RatchetEvent K)
  | .send =>
    match r.advanceSend S with
    | (.ok (key, _), _) => [.handedOut key]
    | (.error _, _) => []
  | .receive fresh h =>
    .received h.dhPublic ::
      if r.DrawsKeypair S h then [.generated (S.boxPublic fresh)] else []

/-- **The history of a sequence of calls.** A call that runs into undefined
behaviour is the last one. -/
def history : List (Call K) → NewRatchet K → List (RatchetEvent K)
  | [], _ => []
  | c :: calls, r =>
    r.eventsOf S c ++
      match r.call S c with
      | (.ok _, r) => history calls r
      | (.error e, r) => if e.isUndefined then [] else history calls r

/-! ## What the calls do to the sending side -/

section SendingSide

variable {S} {r : NewRatchet K}

omit [Zero K] in
/-- **A receive, as the sending side sees it.** The header is under the
current public key and nothing changes; or it brings another one that one of
the two DH computations refuses, and then the key pair it leaves, new or old,
has no DH output with it; or the sending chain is started for the new pair
and the flag goes up. -/
theorem advanceReceive_sending {fresh : K} {h : MessageHeader K} {result : Except Fault K}
    {r' : NewRatchet K} (hr : r.advanceReceive S fresh h = (result, r')) :
    (r'.sendChain = r.sendChain ∧ r'.dueToSendNewDh = r.dueToSendNewDh
        ∧ r'.localDhPriv = r.localDhPriv ∧ r'.remoteDhPublic = r.remoteDhPublic)
      ∨ (r'.sendChain = r.sendChain ∧ r'.dueToSendNewDh = r.dueToSendNewDh
        ∧ S.scalarmult r'.localDhPriv r'.remoteDhPublic = none)
      ∨ ∃ y, r.DrawsKeypair S h ∧ S.scalarmult fresh h.dhPublic = some y
        ∧ r'.sendChain = { index := 0, key := S.dhChainKey y } ∧ r'.dueToSendNewDh = true
        ∧ r'.localDhPriv = fresh ∧ r'.remoteDhPublic = h.dhPublic := by
  obtain rfl : (r.advanceReceive S fresh h).2 = r' := congrArg Prod.snd hr
  by_cases hdh : r.remoteDhPublic = h.dhPublic
  · obtain ⟨ch, sk, hframe⟩ := receiveInChain_frame S h r
    refine Or.inl ?_
    rw [advanceReceive, if_neg (not_not.mpr hdh), hframe]
    exact ⟨rfl, rfl, rfl, rfl⟩
  · refine Or.inr ?_
    cases hx : S.scalarmult r.localDhPriv h.dhPublic with
    | none =>
      obtain ⟨sk, hr⟩ := advanceReceive_refusedDh S hdh hx fresh
      refine Or.inl ?_
      rw [hr]
      exact ⟨rfl, rfl, hx⟩
    | some x =>
      cases hy : S.scalarmult fresh h.dhPublic with
      | none =>
        obtain ⟨sk, hr⟩ := advanceReceive_refusedNewDh S hdh hx hy
        refine Or.inl ?_
        rw [hr]
        exact ⟨rfl, rfl, hy⟩
      | some y =>
        obtain ⟨sk, hr, -⟩ := advanceReceive_newDh S hdh hx hy
        obtain ⟨ch, sk', hframe⟩ :=
          receiveInChain_frame S h (r.turned S h.dhPublic fresh x y sk)
        refine Or.inr ⟨y, ⟨hdh, by rw [hx]; rfl⟩, rfl, ?_⟩
        rw [hr, hframe]
        exact ⟨rfl, rfl, rfl, rfl⟩

omit [DecidableEq K] in
/-- **A send without a due step**: a key of the sending chain, which moves
on, or the counter is full and nothing changes. -/
theorem progressSendingRatchet_sending (r : NewRatchet K) :
    (∃ header, progressSendingRatchet S r =
        (.ok (S.chainStep.out r.sendChain.key, header),
          { r with sendChain :=
            { index := r.sendChain.index + 1, key := S.chainStep.next r.sendChain.key } }))
      ∨ progressSendingRatchet S r = (.error .signedOverflow, r) := by
  rw [progressSendingRatchet]
  split
  · exact Or.inr rfl
  · exact Or.inl ⟨_, rfl⟩

end SendingSide

/-! ## The invariant -/

omit [DecidableEq K] [Zero K] in
/-- **Where the seed of a sending chain comes from**: a constructor, or the
DH output of a generated private key with a public key received. -/
inductive SendOrigin (events : List (RatchetEvent K)) : K → Prop
  | opening {k : K} {i : ℕ} {ctx : KdfContext} :
      ctx ≠ .dhRatchet → ctx ≠ .drSndKey → SendOrigin events (S.kdf k i ctx)
  | turned {priv pub x : K} : S.scalarmult priv pub = some x →
      .generated (S.boxPublic priv) ∈ events → .received pub ∈ events →
      SendOrigin events (S.dhChainKey x)

/-- The sending chain of a seed. -/
def sendChainOf (seed : K) : KeyChain K := ⟨0, seed⟩

omit [DecidableEq K] [Zero K] in
/-- **Nothing is handed out twice**: the ratchet stands at position `n` of
the chain of `seed`; every key handed out is from an earlier position, or
from the chain of another seed; and as long as a new chain is due, none of
this one is used, and starting it anew is no change. -/
structure Unrepeated (events : List (RatchetEvent K)) (seed : K) (n : ℕ) (r : NewRatchet K) :
    Prop where
  chain_key : r.sendChain.key = (sendChainOf seed).chainKey S.chainStep n
  origin : SendOrigin S events seed
  due : r.dueToSendNewDh = true → n = 0
    ∧ ∀ x, S.scalarmult r.localDhPriv r.remoteDhPublic = some x → seed = S.dhChainKey x
  handedOut : ∀ k, .handedOut k ∈ events →
    (∃ i < n, k = (sendChainOf seed).messageKey S.chainStep i)
      ∨ ∃ s i, s ≠ seed ∧ SendOrigin S events s ∧ k = (sendChainOf s).messageKey S.chainStep i
  nodup : (sentKeys events).Nodup

section Invariant

variable {S} {events more : List (RatchetEvent K)} {seed : K} {n : ℕ} {r r' : NewRatchet K}

omit [DecidableEq K] [Zero K] in
theorem SendOrigin.append (h : SendOrigin S events seed) :
    SendOrigin S (events ++ more) seed := by
  cases h with
  | opening h₁ h₂ => exact .opening h₁ h₂
  | turned hx hg hr =>
    exact .turned hx (List.mem_append_left _ hg) (List.mem_append_left _ hr)

omit [DecidableEq K] [Zero K] in
/-- A sending chain never comes back. -/
theorem SendOrigin.fresh (hkdf : S.KdfInjective) (h : SendOrigin S events seed) :
    (sendChainOf seed).Fresh S.chainStep := by
  cases h with
  | opening _ h₂ => exact hkdf.fresh rfl h₂
  | turned => exact hkdf.fresh rfl (by decide)

omit [DecidableEq K] [Zero K] in
/-- **The chain of a new pair is a new chain**: its public key was in no
event before, and it is not the one the pair meets. -/
theorem SendOrigin.ne_dhChainKey (hkdf : S.KdfInjective) (hhash : S.HashInjective)
    (hdh : S.DhInjective) (h : SendOrigin S events seed) {fresh pub y : K}
    (hy : S.scalarmult fresh pub = some y) (hgen : .generated (S.boxPublic fresh) ∉ events)
    (hrec : .received (S.boxPublic fresh) ∉ events) : seed ≠ S.dhChainKey y := by
  intro he
  cases h with
  | opening h₁ _ => exact h₁ (hkdf he).2.2
  | @turned priv pub' x hx hg hr =>
    obtain rfl : x = y := (List.cons.inj (hhash (hkdf he).1)).1
    have hmem : S.boxPublic fresh ∈ ({S.boxPublic priv, pub'} : Set K) := by
      rw [hdh hx hy]
      exact Set.mem_insert _ _
    rcases hmem with heq | heq
    · exact hgen (heq ▸ hg)
    · exact hrec (Set.mem_singleton_iff.mp heq ▸ hr)

omit [DecidableEq K] [Zero K] in
/-- Events that hand nothing out, and a ratchet whose sending side stands
where it stood. -/
theorem Unrepeated.keep (h : Unrepeated S events seed n r) (hmore : sentKeys more = [])
    (hchain : r'.sendChain = r.sendChain)
    (hdue : r'.dueToSendNewDh = true → r.dueToSendNewDh = true
      ∧ ∀ x, S.scalarmult r'.localDhPriv r'.remoteDhPublic = some x →
        S.scalarmult r.localDhPriv r.remoteDhPublic = some x) :
    Unrepeated S (events ++ more) seed n r' where
  chain_key := by rw [hchain, h.chain_key]
  origin := h.origin.append
  due hd := by
    obtain ⟨hd', hx⟩ := hdue hd
    exact ⟨(h.due hd').1, fun x hx' => (h.due hd').2 x (hx x hx')⟩
  handedOut k hk := by
    rcases List.mem_append.mp hk with hk | hk
    · rcases h.handedOut k hk with hcur | ⟨s, i, hne, ho, hk⟩
      · exact Or.inl hcur
      · exact Or.inr ⟨s, i, hne, ho.append, hk⟩
    · rw [← mem_sentKeys, hmore] at hk
      cases hk
  nodup := by
    rw [sentKeys, List.filterMap_append, ← sentKeys, ← sentKeys, hmore, List.append_nil]
    exact h.nodup

omit [DecidableEq K] in
/-- **One key of the chain**: no due step, so the position moves on by one,
and the key handed out is that of the position left. -/
theorem Unrepeated.progress (hkdf : S.KdfInjective) (h : Unrepeated S events seed n r)
    (hdue : r.dueToSendNewDh = false) {m : K × MessageHeader K}
    (hr : progressSendingRatchet S r = (.ok m, r')) :
    Unrepeated S (events ++ [.handedOut m.1]) seed (n + 1) r' := by
  have hfresh := h.origin.fresh hkdf
  obtain ⟨hk, rfl⟩ : m.1 = (sendChainOf seed).messageKey S.chainStep n
      ∧ r' = { r with sendChain :=
          { index := r.sendChain.index + 1, key := S.chainStep.next r.sendChain.key } } := by
    rcases progressSendingRatchet_sending (S := S) r with ⟨header, hp⟩ | hp
    · obtain ⟨hm, rfl⟩ := Prod.mk.inj (hp.symm.trans hr)
      refine ⟨?_, rfl⟩
      rw [← Except.ok.inj hm, KeyChain.messageKey, ← h.chain_key]
    · cases (Prod.mk.inj (hp.symm.trans hr)).1
  -- what was handed out before is from an earlier position or another chain
  have hnew : ∀ k, .handedOut k ∈ events → k ≠ (sendChainOf seed).messageKey S.chainStep n := by
    intro k hmem he
    rcases h.handedOut k hmem with ⟨i, hi, rfl⟩ | ⟨s, i, hne, ho, rfl⟩
    · exact absurd (hfresh.messageKey_inj (Nat.zero_le i) (Nat.zero_le n) he) (by omega)
    · exact (ho.fresh hkdf).messageKey_ne hfresh hne i n he
  refine ⟨?_, h.origin.append, fun hd => ?_, fun k hmem => ?_, ?_⟩
  · rw [← KeyChain.next_chainKey S.chainStep (sendChainOf seed) (Nat.zero_le n), ← h.chain_key]
  · rw [show _ = r.dueToSendNewDh from rfl, hdue] at hd
    cases hd
  · rcases List.mem_append.mp hmem with hmem | hmem
    · rcases h.handedOut k hmem with ⟨i, hi, hk⟩ | ⟨s, i, hne, ho, hk⟩
      · exact Or.inl ⟨i, by omega, hk⟩
      · exact Or.inr ⟨s, i, hne, ho.append, hk⟩
    · obtain rfl := RatchetEvent.handedOut.inj (List.mem_singleton.mp hmem)
      exact Or.inl ⟨n, by omega, hk⟩
  · rw [sentKeys, List.filterMap_append, List.nodup_append]
    refine ⟨h.nodup, List.nodup_singleton _, fun k hmem k' hmem' => ?_⟩
    obtain rfl : k' = m.1 := List.mem_singleton.mp hmem'
    rw [hk]
    exact hnew k (mem_sentKeys.mp hmem)

omit [DecidableEq K] in
/-- What a send without a due step keeps, whether it returns or the counter
is full. -/
theorem Unrepeated.progress_any (hkdf : S.KdfInjective) (h : Unrepeated S events seed n r)
    (hdue : r.dueToSendNewDh = false) {result : Except Fault (K × MessageHeader K)}
    (hr : progressSendingRatchet S r = (result, r')) :
    ∃ n, Unrepeated S (events ++ match (result, r') with
      | (.ok (key, _), _) => [.handedOut key]
      | (.error _, _) => []) seed n r' := by
  cases result with
  | ok m => exact ⟨n + 1, h.progress hkdf hdue hr⟩
  | error e =>
    rcases progressSendingRatchet_sending (S := S) r with ⟨header, hp⟩ | hp
    · cases (Prod.mk.inj (hp.symm.trans hr)).1
    · obtain rfl : r = r' := (Prod.mk.inj (hp.symm.trans hr)).2
      exact ⟨n, h.keep rfl rfl fun hd => ⟨hd, fun _ hx => hx⟩⟩

/-- **A send keeps the invariant.** A due step, if its DH computation
succeeds, starts the chain the ratchet stands at the start of. -/
theorem Unrepeated.send (hkdf : S.KdfInjective) (h : Unrepeated S events seed n r) :
    ∃ n, Unrepeated S (events ++ r.eventsOf S .send) seed n (r.call S .send).2 := by
  rw [call_send_snd, eventsOf, advanceSend]
  by_cases hdue : r.dueToSendNewDh = true
  · rw [if_pos hdue, dhRatchetStep, dh]
    cases hx : S.scalarmult r.localDhPriv r.remoteDhPublic with
    | none => exact ⟨n, h.keep rfl rfl fun hd => ⟨hd, fun _ hx => hx⟩⟩
    | some x =>
      obtain ⟨rfl, hseed⟩ := h.due hdue
      have hstart : Unrepeated S events seed 0 { r with
          dueToSendNewDh := false
          rootKey := S.kdf (S.generichash [x]) 0 .dhRatchet
          sendChain := { index := 0, key := S.dhChainKey x } } :=
        ⟨(hseed x hx).symm, h.origin, fun hd => absurd hd Bool.false_ne_true, h.handedOut, h.nodup⟩
      exact hstart.progress_any hkdf rfl rfl
  · rw [if_neg hdue]
    exact h.progress_any hkdf (Bool.eq_false_of_not_eq_true hdue) rfl

/-- **A receive keeps the invariant**, the pair it draws being new to every
event so far. -/
theorem Unrepeated.receive (hkdf : S.KdfInjective) (hhash : S.HashInjective)
    (hdh : S.DhInjective) (h : Unrepeated S events seed n r) (fresh : K)
    (header : MessageHeader K)
    (hgen : r.DrawsKeypair S header → .generated (S.boxPublic fresh) ∉ events)
    (hrec : r.DrawsKeypair S header → .received (S.boxPublic fresh) ∉ events) :
    ∃ seed n, Unrepeated S (events ++ r.eventsOf S (.receive fresh header)) seed n
      (r.call S (.receive fresh header)).2 := by
  have hmore : sentKeys (r.eventsOf S (.receive fresh header)) = [] := by
    rw [eventsOf]
    split <;> rfl
  obtain ⟨result, r', hr⟩ : ∃ result r', r.advanceReceive S fresh header = (result, r') :=
    ⟨_, _, rfl⟩
  rw [show (r.call S (.receive fresh header)).2 = r' from congrArg Prod.snd hr]
  rcases advanceReceive_sending hr with ⟨hchain, hdue, hpriv, hpub⟩ | ⟨hchain, hdue, hnone⟩ |
      ⟨y, hdraws, hy, hchain, hdue, hpriv, hpub⟩
  · exact ⟨seed, n, h.keep hmore hchain fun hd => ⟨hdue ▸ hd, by rw [hpriv, hpub]; tauto⟩⟩
  · refine ⟨seed, n, h.keep hmore hchain fun hd => ⟨hdue ▸ hd, fun x hx => ?_⟩⟩
    rw [hnone] at hx
    cases hx
  · -- the chain of the pair just drawn, at its start
    have hne : ∀ s, SendOrigin S events s → s ≠ S.dhChainKey y := fun s ho =>
      ho.ne_dhChainKey hkdf hhash hdh hy (hgen hdraws) (hrec hdraws)
    have hevents : r.eventsOf S (.receive fresh header)
        = [.received header.dhPublic, .generated (S.boxPublic fresh)] := by
      rw [eventsOf, if_pos hdraws]
    refine ⟨S.dhChainKey y, 0, ?_, ?_, fun _ => ⟨rfl, fun x hx => ?_⟩, fun k hmem => ?_, ?_⟩
    · rw [hchain]
      rfl
    · refine .turned hy (List.mem_append_right _ ?_) (List.mem_append_right _ ?_)
      · rw [hevents]
        exact List.mem_cons_of_mem _ (List.mem_singleton_self _)
      · rw [hevents]
        exact List.mem_cons_self
    · rw [hpriv, hpub, hy] at hx
      rw [Option.some.inj hx]
    · rcases List.mem_append.mp hmem with hmem | hmem
      · rcases h.handedOut k hmem with ⟨i, -, hk⟩ | ⟨s, i, -, ho, hk⟩
        · exact Or.inr ⟨seed, i, hne seed h.origin, h.origin.append, hk⟩
        · exact Or.inr ⟨s, i, hne s ho, ho.append, hk⟩
      · rw [← mem_sentKeys, hmore] at hmem
        cases hmem
    · rw [sentKeys, List.filterMap_append, ← sentKeys, ← sentKeys, hmore, List.append_nil]
      exact h.nodup

omit [DecidableEq K] in
/-- The ratchet a constructor makes stands at the start of its sending chain,
and nothing is due. -/
theorem unrepeated_of_constructed (h : Epoch.Constructed S r) :
    ∃ seed, Unrepeated S [] seed 0 r := by
  have hinit : ∃ p x pub priv remote, r = initial S p x pub priv remote := by
    cases h with
    | initiator h =>
      obtain ⟨x, -, rfl⟩ := exists_of_newInitiator S h
      exact ⟨_, _, _, _, _, rfl⟩
    | recipient h =>
      obtain ⟨x, -, rfl⟩ := exists_of_newRecipient S h
      exact ⟨_, _, _, _, _, rfl⟩
  obtain ⟨p, x, pub, priv, remote, rfl⟩ := hinit
  refine ⟨(S.initialChain x p).seed, rfl, ?_, fun hd => absurd hd Bool.false_ne_true,
    fun k hk => absurd hk (List.not_mem_nil), List.nodup_nil⟩
  cases p with
  | initiator => exact .opening (by decide) (by decide)
  | recipient => exact .opening (by decide) (by decide)

/-- **A call keeps the invariant**, if the events it adds are ones the
assumptions on the history allow. -/
theorem Unrepeated.call (hkdf : S.KdfInjective) (hhash : S.HashInjective)
    (hdh : S.DhInjective) (h : Unrepeated S events seed n r) (c : Call K)
    (hgen : (generatedKeys (events ++ r.eventsOf S c)).Nodup)
    (hrec : (events ++ r.eventsOf S c).Pairwise fun a b => ¬ a.Foretells b) :
    ∃ seed n, Unrepeated S (events ++ r.eventsOf S c) seed n (r.call S c).2 := by
  cases c with
  | send => exact ⟨seed, h.send hkdf⟩
  | receive fresh header =>
    have hmem : r.DrawsKeypair S header →
        .generated (S.boxPublic fresh) ∈ r.eventsOf S (.receive fresh header) := by
      intro hdraws
      rw [eventsOf, if_pos hdraws]
      exact List.mem_cons_of_mem _ (List.mem_singleton_self _)
    refine h.receive hkdf hhash hdh fresh header (fun hdraws hold => ?_) fun hdraws hold => ?_
    · rw [generatedKeys, List.filterMap_append, List.nodup_append] at hgen
      exact hgen.2.2 _ (mem_generatedKeys.mpr hold) _ (mem_generatedKeys.mpr (hmem hdraws)) rfl
    · exact (List.pairwise_append.mp hrec).2.2 _ hold _ (hmem hdraws) rfl

/-- **The invariant along a run.** -/
theorem Unrepeated.run (hkdf : S.KdfInjective) (hhash : S.HashInjective)
    (hdh : S.DhInjective) (calls : List (Call K)) (h : Unrepeated S events seed n r)
    (hgen : (generatedKeys (events ++ history S calls r)).Nodup)
    (hrec : (events ++ history S calls r).Pairwise fun a b => ¬ a.Foretells b) :
    (sentKeys (events ++ history S calls r)).Nodup := by
  induction calls generalizing events seed n r with
  | nil =>
    rw [history, List.append_nil]
    exact h.nodup
  | cons c calls ih =>
    rw [history, ← List.append_assoc] at hgen hrec ⊢
    have hgen' : (generatedKeys (events ++ r.eventsOf S c)).Nodup := by
      rw [generatedKeys, List.filterMap_append] at hgen
      exact hgen.of_append_left
    obtain ⟨seed', n', h'⟩ :=
      h.call hkdf hhash hdh c hgen' (List.pairwise_append.mp hrec).1
    have hrest : ∀ rest, (rest = [] ∨ rest = history S calls (r.call S c).2) →
        (generatedKeys ((events ++ r.eventsOf S c) ++ rest)).Nodup →
        ((events ++ r.eventsOf S c) ++ rest).Pairwise (fun a b => ¬ a.Foretells b) →
        (sentKeys ((events ++ r.eventsOf S c) ++ rest)).Nodup := by
      rintro rest (rfl | rfl) hg hr
      · rw [List.append_nil]
        exact h'.nodup
      · exact ih h' hg hr
    refine hrest _ ?_ hgen hrec
    cases r.call S c with
    | mk result r' =>
      cases result with
      | ok k => exact Or.inr rfl
      | error e =>
        by_cases hu : e.isUndefined
        · exact Or.inl (if_pos hu)
        · exact Or.inr (if_neg hu)

end Invariant

/-! ## The result -/

variable {S} in
/-- **Send keys are never reused.** Along any calls of a ratchet straight
from a constructor, whatever the headers and whichever calls fail, the keys
`advance_send` returns are pairwise distinct: if the generated pairs are,
and no header is under a public key that is generated only later. -/
theorem sentKeys_nodup (hkdf : S.KdfInjective) (hhash : S.HashInjective)
    (hdh : S.DhInjective) {r : NewRatchet K} (hr : Epoch.Constructed S r) (calls : List (Call K))
    (hgen : (generatedKeys (history S calls r)).Nodup)
    (hrec : (history S calls r).Pairwise fun a b => ¬ a.Foretells b) :
    (sentKeys (history S calls r)).Nodup := by
  obtain ⟨seed, h⟩ := unrepeated_of_constructed hr
  exact h.run hkdf hhash hdh calls hgen hrec

/-- Two sends on the first chain, then a header of the other side under a new
public key, a refused one, and two more sends. -/
theorem sentKeys_nodup_turn :
    (sentKeys (history Sodium.ideal
      [.send, .send, .receive 32 (Epoch.idealHeader 24 0 0), .receive 40 ⟨0, 0, 0, 0, ""⟩,
        .receive 48 (Epoch.idealHeader 24 0 0), .send, .send] Epoch.recipient)).Nodup :=
  sentKeys_nodup Sodium.ideal_kdfInjective Sodium.ideal_hashInjective Sodium.ideal_dhInjective
    Epoch.constructed_recipient _ (by decide +kernel) (by decide +kernel)

end NewRatchet
