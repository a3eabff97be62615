import Eastwood.DhStep

/-!
# Agreement across a DH epoch change

Two ratchets are in step when what one sends next the other is ready to
receive. Here the sender `P` sends some messages, receives the receiver's new
public key, and sends some more, now on a new chain; all of them are then
delivered to the receiver `Q`, in some order.

The first header of the new chain moves `Q` to it. A header of the old chain
that comes later looks like a new public key once more: `Q` derives a third
chain, answers from that one, and has lost the second. So every header is
answered with its key exactly if none of the old chain comes after one of the
new (`EpochChange.answered_iff`).
-/

variable {K : Type} [DecidableEq K] [Zero K] (S : Sodium K)

open NewRatchet

omit [DecidableEq K] [Zero K] in
/-- **Ratchets in step**: `Q` is ready to receive what `P` sends next, and has
a key pair `P` has not heard of. -/
structure InStep (P Q : NewRatchet K) : Prop where
  remote : Q.remoteDhPublic = P.localDhPublic
  chain : P.nextChain S = some Q.receiveChain
  index_nonneg : 0 ≤ Q.receiveChain.index
  index_le : Q.receiveChain.index ≤ intMax
  keyPair : P.localDhPublic = S.boxPublic P.localDhPriv
  keyPair' : Q.localDhPublic = S.boxPublic Q.localDhPriv
  newer : P.remoteDhPublic ≠ Q.localDhPublic

/-- **An epoch change of `P`**: a batch of sends, a header of `Q` under its
new public key, another batch of sends. The key pair `P` draws is not the one
it had. -/
structure EpochChange (P Q : NewRatchet K) where
  inStep : InStep S P Q
  old : List (K × MessageHeader K)
  header : MessageHeader K
  fresh : K
  new : List (K × MessageHeader K)
  exists_run : ∃ n n' key P₁ P₂ P₃, sendMany S n P = .ok (old, P₁)
    ∧ P₁.advanceReceive S fresh header = (.ok key, P₂)
    ∧ sendMany S n' P₂ = .ok (new, P₃)
  dhPublic_header : header.dhPublic = Q.localDhPublic
  fresh_ne : S.boxPublic fresh ≠ P.localDhPublic

/-- A delivery: a message as it was sent, and the private key drawn if its
header makes the receiver draw one. -/
abbrev Delivery (K : Type) := (K × MessageHeader K) × K

/-- **Every delivery is answered with its key.** -/
def Answered (Q : NewRatchet K) (ds : List (Delivery K)) : Prop :=
  replies S (ds.map fun d => .receive d.2 d.1.2) Q = ds.map fun d => .ok d.1.1

/-! ## Deliveries -/

section Deliveries

variable {S} {Q Q' : NewRatchet K} {d : Delivery K} {ds : List (Delivery K)}

/-- The first of several deliveries, answered. -/
theorem answered_cons_iff {key : K} (h : Q.advanceReceive S d.2 d.1.2 = (.ok key, Q')) :
    Answered S Q (d :: ds) ↔ key = d.1.1 ∧ Answered S Q' ds := by
  rw [Answered, Answered, List.map_cons, List.map_cons, replies, call, h]
  simp

omit [DecidableEq K] [Zero K] in
/-- A message of a chain, sent under a public key. -/
structure Carries (S : Sodium K) (c : KeyChain K) (dhPublic : K) (m : K × MessageHeader K)
    (i : ℕ) : Prop where
  start_le : c.start ≤ i
  key : m.1 = c.messageKey S.chainStep i
  index : m.2.messageIndex = i
  index_lt : (i : ℤ) < intMax
  dhPublic : m.2.dhPublic = dhPublic

omit [Zero K] in
/-- A message of the chain the receiver is on is answered with its key, if it
was not before; the receiver stays on the chain. -/
theorem Carries.receive {c : KeyChain K} {m : OneShot K} {n i : ℕ} {pub : K}
    (hd : Carries S c pub d.1 i) (hQ : Serves S c m n Q) (hremote : Q.remoteDhPublic = pub)
    (hnew : i ∉ m.spent) :
    ∃ Q', Q.advanceReceive S d.2 d.1.2 = (.ok d.1.1, Q')
      ∧ Serves S c (m.take i).2 (max n (i + 1)) Q' ∧ Q'.remoteDhPublic = pub
      ∧ Q'.localDhPriv = Q.localDhPriv := by
  obtain ⟨ch, sk, hr, hs⟩ := hQ.receive hd.index hd.index_lt hnew
  refine ⟨_, ?_, hs, hremote, rfl⟩
  rw [advanceReceive, if_neg (by rw [hremote, hd.dhPublic]; simp), hr, hd.key, hQ.key_eq]

omit [Zero K] in
/-- A message under another public key is answered from a chain of its own,
that of the DH output with that key. -/
theorem Carries.receive_newDh {c : KeyChain K} {i : ℕ} {pub x y : K}
    (hd : Carries S c pub d.1 i) (hremote : Q.remoteDhPublic ≠ pub)
    (hx : S.scalarmult Q.localDhPriv pub = some x) (hy : S.scalarmult d.2 pub = some y) :
    ∃ Q', Q.advanceReceive S d.2 d.1.2
        = (.ok (KeyChain.messageKey S.chainStep ⟨0, S.dhChainKey x⟩ i), Q')
      ∧ Serves S ⟨0, S.dhChainKey x⟩
          (OneShot.take ⟨KeyChain.messageKey S.chainStep ⟨0, S.dhChainKey x⟩, { j | j < 0 }⟩ i).2
          (max 0 (i + 1)) Q'
      ∧ Q'.remoteDhPublic = pub ∧ Q'.localDhPriv = d.2 := by
  rw [← hd.dhPublic] at hremote hx hy
  obtain ⟨sk, hr, -⟩ := advanceReceive_newDh S hremote hx hy
  obtain ⟨ch, sk', hr', hs⟩ := (Serves.ofStart (S := S) (c := ⟨0, S.dhChainKey x⟩)
    (r := Q.turned S d.1.2.dhPublic d.2 x y sk) rfl rfl).receive hd.index hd.index_lt
      (Nat.not_lt_zero i)
  exact ⟨_, hr.trans hr', hs, hd.dhPublic, rfl⟩

omit [DecidableEq K] [Zero K] in
/-- Of two messages under one public key, the positions differ. -/
def Apart (a b : K × MessageHeader K) : Prop :=
  a.2.dhPublic = b.2.dhPublic → a.2.messageIndex ≠ b.2.messageIndex

omit [DecidableEq K] [Zero K] in
/-- Answering one message spends the position of no other under its public
key. -/
theorem Carries.notMem_take {c c' : KeyChain K} {pub : K} {a b : K × MessageHeader K}
    {i j : ℕ} {m : OneShot K} (ha : Carries S c pub a i) (hb : Carries S c' pub b j)
    (hapart : Apart a b) (hj : j ∉ m.spent) : j ∉ (m.take i).2.spent := by
  rw [OneShot.take_spent, Set.mem_insert_iff, not_or]
  refine ⟨fun hij => hapart (ha.dhPublic.trans hb.dhPublic.symm) ?_, hj⟩
  rw [ha.index, hb.index, hij]

end Deliveries

/-! ## Two chains -/

section TwoChains

variable {S} {c₀ c₁ : KeyChain K} {pub₀ pub₁ : K} {ds : List (Delivery K)}

omit [DecidableEq K] [Zero K] in
/-- **A private key that does not make a chain again**: the chain of its DH
output with a public key does not run into the given one. -/
def DrawnApart (S : Sodium K) (c : KeyChain K) (pub priv : K) : Prop :=
  ∀ x, S.scalarmult priv pub = some x → S.chainStep.next^[c.start] (S.dhChainKey x) ≠ c.seed

omit [DecidableEq K] [Zero K] in
/-- The chain of such a key has another message key at every position. -/
theorem DrawnApart.messageKey_ne (hK : S.KdfInjective) {pub priv x : K}
    (h : DrawnApart S c₀ pub priv) (hx : S.scalarmult priv pub = some x) {i : ℕ}
    (hi : c₀.start ≤ i) :
    KeyChain.messageKey S.chainStep ⟨0, S.dhChainKey x⟩ i ≠ c₀.messageKey S.chainStep i := by
  have hout : Function.Injective S.chainStep.out := fun _ _ he => (hK he).1
  have hnext : Function.Injective S.chainStep.next := fun _ _ he => (hK he).1
  intro he
  have hchain : S.chainStep.next^[i - c₀.start] (S.chainStep.next^[c₀.start] (S.dhChainKey x))
      = S.chainStep.next^[i - c₀.start] c₀.seed := by
    rw [← Function.iterate_add_apply, Nat.sub_add_cancel hi]
    exact hout he
  exact h x hx (hnext.iterate _ hchain)

variable (hA : S.AcceptsKeyPairs) (hK : S.KdfInjective) (hne : pub₀ ≠ pub₁)
  {priv₀ priv₁ : K} (hpub₀ : pub₀ = S.boxPublic priv₀) (hpub₁ : pub₁ = S.boxPublic priv₁)
  (hapart : ds.Pairwise fun d e => Apart d.1 e.1)

include hA hK hne hpub₀ hapart

/-- **On the new chain** every delivery is answered exactly if all of them
are of the new chain. -/
theorem answered_new {m : OneShot K} {n : ℕ} {Q : NewRatchet K} (hQ : Serves S c₁ m n Q)
    (hremote : Q.remoteDhPublic = pub₁) (hdrawn : DrawnApart S c₀ pub₀ Q.localDhPriv)
    (hds : ∀ d ∈ ds, (∃ i, Carries S c₀ pub₀ d.1 i)
      ∨ ∃ i, Carries S c₁ pub₁ d.1 i ∧ i ∉ m.spent) :
    Answered S Q ds ↔ ∀ d ∈ ds, d.1.2.dhPublic = pub₁ := by
  induction ds generalizing Q m n with
  | nil => exact ⟨fun _ d hd => absurd hd List.not_mem_nil, fun _ => rfl⟩
  | cons d ds ih =>
    obtain ⟨hfirst, hrest⟩ := List.pairwise_cons.mp hapart
    rw [List.forall_mem_cons]
    rcases hds d List.mem_cons_self with ⟨i, hold⟩ | ⟨i, hnew, hspent⟩
    · -- a message of the old chain: neither side holds
      obtain ⟨x, hx⟩ := Option.isSome_iff_exists.mp (hpub₀ ▸ hA Q.localDhPriv priv₀)
      obtain ⟨y, hy⟩ := Option.isSome_iff_exists.mp (hpub₀ ▸ hA d.2 priv₀)
      obtain ⟨Q', hr, -⟩ := hold.receive_newDh (hremote ▸ hne.symm) hx hy
      rw [answered_cons_iff hr, hold.key]
      refine iff_of_false (fun h => ?_) (fun h => hne (hold.dhPublic.symm.trans h.1))
      exact hdrawn.messageKey_ne hK hx hold.start_le h.1
    · obtain ⟨Q', hr, hQ', hremote', hlocal⟩ := hnew.receive hQ hremote hspent
      rw [answered_cons_iff hr, ih hrest hQ' hremote' (by rwa [hlocal])]
      · exact ⟨fun h => ⟨hnew.dhPublic, h.2⟩, fun h => ⟨rfl, h.2⟩⟩
      · intro e he
        rcases hds e (List.mem_cons_of_mem d he) with hold | ⟨j, hj, hjs⟩
        · exact Or.inl hold
        · exact Or.inr ⟨j, hj, hnew.notMem_take hj (hfirst e he) hjs⟩

include hpub₁

/-- **On the old chain** every delivery is answered exactly if none of the
old chain comes after one of the new. -/
theorem answered_old {m : OneShot K} {n : ℕ} {Q : NewRatchet K} (hQ : Serves S c₀ m n Q)
    (hremote : Q.remoteDhPublic = pub₀) {x : K} (hx : S.scalarmult Q.localDhPriv pub₁ = some x)
    (hc₁ : c₁ = ⟨0, S.dhChainKey x⟩) (hdrawn : ∀ d ∈ ds, DrawnApart S c₀ pub₀ d.2)
    (hds : ∀ d ∈ ds, (∃ i, Carries S c₀ pub₀ d.1 i ∧ i ∉ m.spent)
      ∨ ∃ i, Carries S c₁ pub₁ d.1 i) :
    Answered S Q ds
      ↔ ds.Pairwise fun a b => a.1.2.dhPublic = pub₁ → b.1.2.dhPublic = pub₁ := by
  induction ds generalizing Q m n with
  | nil => exact ⟨fun _ => List.Pairwise.nil, fun _ => rfl⟩
  | cons d ds ih =>
    obtain ⟨hfirst, hrest⟩ := List.pairwise_cons.mp hapart
    rw [List.pairwise_cons]
    rcases hds d List.mem_cons_self with ⟨i, hold, hspent⟩ | ⟨i, hnew⟩
    · obtain ⟨Q', hr, hQ', hremote', hlocal⟩ := hold.receive hQ hremote hspent
      rw [answered_cons_iff hr, ih hrest hQ' hremote' (by rwa [hlocal])
        (fun e he => hdrawn e (List.mem_cons_of_mem d he))]
      · refine ⟨fun h => ⟨fun e he hd => ?_, h.2⟩, fun h => ⟨rfl, h.2⟩⟩
        exact absurd (hold.dhPublic.symm.trans hd) hne
      · intro e he
        rcases hds e (List.mem_cons_of_mem d he) with ⟨j, hj, hjs⟩ | hnew
        · exact Or.inl ⟨j, hj, hold.notMem_take hj (hfirst e he) hjs⟩
        · exact Or.inr hnew
    · -- the first message of the new chain moves the receiver to it
      obtain ⟨y, hy⟩ := Option.isSome_iff_exists.mp (hpub₁ ▸ hA d.2 priv₁)
      obtain ⟨Q', hr, hQ', hremote', hlocal⟩ :=
        hnew.receive_newDh (hremote ▸ hne) hx hy
      rw [answered_cons_iff hr, ← hc₁, ← hnew.key]
      rw [← hc₁] at hQ'
      rw [answered_new hA hK hne hpub₀ hrest hQ' hremote'
        (hlocal ▸ hdrawn d List.mem_cons_self)]
      · constructor
        · rintro ⟨-, h⟩
          exact ⟨fun e he _ => h e he, List.pairwise_iff_forall_sublist.mpr
            fun hab _ => h _ (hab.subset (List.mem_cons_of_mem _ List.mem_cons_self))⟩
        · exact fun h => ⟨rfl, fun e he => h.1 e he hnew.dhPublic⟩
      · intro e he
        rcases hds e (List.mem_cons_of_mem d he) with ⟨j, hj, -⟩ | ⟨j, hj⟩
        · exact Or.inl ⟨j, hj⟩
        · exact Or.inr ⟨j, hj, hnew.notMem_take hj (hfirst e he) (Nat.not_lt_zero j)⟩

end TwoChains

/-! ## The epoch change -/

section Change

variable {S} {P Q : NewRatchet K}

omit [DecidableEq K] [Zero K] in
/-- The messages of one batch are apart from each other. -/
theorem pairwise_apart_of_batch {c : KeyChain K} {pub : K} {start : ℕ}
    {ms : List (K × MessageHeader K)}
    (h : ∀ (j : ℕ) m, ms[j]? = some m → Carries S c pub m (start + j)) :
    ms.Pairwise Apart := by
  rw [List.pairwise_iff_getElem]
  intro i j hi hj hij _ hidx
  rw [(h i _ (List.getElem?_eq_getElem hi)).index, (h j _ (List.getElem?_eq_getElem hj)).index]
    at hidx
  omega

/-- **What an epoch change sends**: the first batch is of the chain the
receiver is ready for, the second of the chain of a DH output of the two new
key pairs, each under its own public key. -/
theorem EpochChange.batches (e : EpochChange S P Q) (hA : S.AcceptsKeyPairs) {n : ℕ}
    (hn : Q.receiveChain.index = n) :
    ∃ x, S.scalarmult e.fresh Q.localDhPublic = some x
      ∧ (∀ (j : ℕ) m, e.old[j]? = some m →
          Carries S ⟨n, Q.receiveChain.key⟩ P.localDhPublic m (n + j))
      ∧ ∀ (j : ℕ) m, e.new[j]? = some m →
          Carries S ⟨0, S.dhChainKey x⟩ (S.boxPublic e.fresh) m (0 + j) := by
  obtain ⟨m, m', key, P₁, P₂, P₃, hold, hrecv, hnew⟩ := e.exists_run
  have hch : P.nextChain S = some { index := (n : ℤ),
                                    key := KeyChain.chainKey S.chainStep
                                      ⟨n, Q.receiveChain.key⟩ n } := by
    rw [e.inStep.chain, KeyChain.chainKey, Nat.sub_self, ← hn]
    rfl
  obtain ⟨holds, hlocal, hremote⟩ := sendMany_spec (c := ⟨n, Q.receiveChain.key⟩) le_rfl
    (hn ▸ e.inStep.index_le) hch hold
  -- `P` takes the DH step
  have hne : P₁.remoteDhPublic ≠ e.header.dhPublic := by
    rw [hremote, e.dhPublic_header]
    exact e.inStep.newer
  obtain ⟨w, hw⟩ := Option.isSome_iff_exists.mp (hA P₁.localDhPriv Q.localDhPriv)
  obtain ⟨x, hx⟩ := Option.isSome_iff_exists.mp (hA e.fresh Q.localDhPriv)
  rw [← e.inStep.keyPair', ← e.dhPublic_header] at hw hx
  obtain ⟨hch₂, hpub₂⟩ := advanceReceive_newDh_nextChain hne hw hx
  rw [hrecv] at hch₂ hpub₂
  obtain ⟨hnews, -, -⟩ := sendMany_spec (c := ⟨0, S.dhChainKey x⟩) le_rfl
    (by simp [intMax]) hch₂ hnew
  refine ⟨x, by rw [← e.dhPublic_header, hx], fun j m hj => ?_, fun j m hj => ?_⟩
  · obtain ⟨hk, hi, hlt, hpub⟩ := holds j m hj
    exact ⟨Nat.le_add_right n j, hk, hi, hlt, hpub⟩
  · obtain ⟨hk, hi, hlt, hpub⟩ := hnews j m hj
    exact ⟨Nat.zero_le _, hk, hi, hlt, hpub.trans hpub₂⟩

/-- **Agreement across an epoch change.** Let the headers of both batches be
delivered in some order, each once, with private keys drawn that do not make
the old chain again. Each is answered with the key it was sent under if and
only if no header of the old chain comes after one of the new. -/
theorem EpochChange.answered_iff (hS : S.Commutes) (hA : S.AcceptsKeyPairs)
    (hK : S.KdfInjective) (e : EpochChange S P Q) {ds : List (Delivery K)}
    (hds : (ds.map Prod.fst).Perm (e.old ++ e.new))
    (hdrawn : ∀ d ∈ ds, DrawnApart S ⟨Q.receiveChain.index.toNat, Q.receiveChain.key⟩
      P.localDhPublic d.2) :
    Answered S Q ds ↔ ds.Pairwise fun a b =>
      a.1.2.dhPublic = S.boxPublic e.fresh → b.1.2.dhPublic = S.boxPublic e.fresh := by
  obtain ⟨n, hn⟩ := Int.eq_ofNat_of_zero_le e.inStep.index_nonneg
  rw [hn, Int.toNat_natCast] at hdrawn
  obtain ⟨x, hx, hold, hnew⟩ := e.batches hA hn
  have hQ : Serves S ⟨n, Q.receiveChain.key⟩ _ n Q := Serves.ofStart hn rfl
  have hdh : S.scalarmult Q.localDhPriv (S.boxPublic e.fresh) = some x := by
    rw [hS, ← e.inStep.keyPair', hx]
  have hmem : ∀ d ∈ ds, d.1 ∈ e.old ∨ d.1 ∈ e.new := fun d hd =>
    List.mem_append.mp (hds.subset (List.mem_map_of_mem hd))
  have hapart : ds.Pairwise fun d e => Apart d.1 e.1 := by
    rw [← List.pairwise_map, hds.pairwise_iff fun h heq => (h heq.symm).symm,
      List.pairwise_append]
    refine ⟨pairwise_apart_of_batch hold, pairwise_apart_of_batch hnew, ?_⟩
    intro a ha b hb heq
    obtain ⟨i, hi⟩ := List.mem_iff_getElem?.mp ha
    obtain ⟨j, hj⟩ := List.mem_iff_getElem?.mp hb
    rw [(hold i a hi).dhPublic, (hnew j b hj).dhPublic] at heq
    exact absurd heq.symm e.fresh_ne
  refine answered_old hA hK e.fresh_ne.symm e.inStep.keyPair rfl hapart hQ e.inStep.remote hdh
    rfl hdrawn fun d hd => ?_
  rcases hmem d hd with h | h
  · obtain ⟨j, hj⟩ := List.mem_iff_getElem?.mp h
    exact Or.inl ⟨n + j, hold j _ hj, fun hlt => absurd hlt (Nat.not_lt.mpr (Nat.le_add_right n j))⟩
  · obtain ⟨j, hj⟩ := List.mem_iff_getElem?.mp h
    exact Or.inr ⟨0 + j, hnew j _ hj⟩

end Change

/-! ### An epoch change of the ideal library -/

/-- A sender with private key 8 that knows the receiver's public key of 16. -/
def InStep.sender : NewRatchet ℕ where
  reversed := false
  dueToSendNewDh := false
  rootKey := 0
  sendChain := { key := 5 }
  receiveChain := { key := 6 }
  localDhPublic := Sodium.ideal.boxPublic 8
  localDhPriv := 8
  remoteDhPublic := Sodium.ideal.boxPublic 16
  skippedKeys := ∅
  prevChainLength := 0

/-- The receiver, whose private key is now 24. -/
def InStep.receiver : NewRatchet ℕ where
  reversed := false
  dueToSendNewDh := false
  rootKey := 0
  sendChain := { key := 7 }
  receiveChain := { key := 5 }
  localDhPublic := Sodium.ideal.boxPublic 24
  localDhPriv := 24
  remoteDhPublic := Sodium.ideal.boxPublic 8
  skippedKeys := ∅
  prevChainLength := 0

/-- One message on each chain, the sender drawing 32 in between. -/
def EpochChange.ideal : EpochChange Sodium.ideal InStep.sender InStep.receiver where
  inStep :=
    { remote := rfl
      chain := rfl
      index_nonneg := le_rfl
      index_le := by decide
      keyPair := rfl
      keyPair' := rfl
      newer := by decide }
  old := [(Sodium.ideal.kdf 5 0 .drSndKey,
    { MessageHeader.empty with dhPublic := Sodium.ideal.boxPublic 8 })]
  header := { MessageHeader.empty with dhPublic := Sodium.ideal.boxPublic 24 }
  fresh := 32
  new := [(Sodium.ideal.kdf (Sodium.ideal.dhChainKey (8 * Nat.pair 24 32 + 2)) 0 .drSndKey,
    { MessageHeader.empty with dhPublic := Sodium.ideal.boxPublic 32, prevChainLength := 1 })]
  exists_run := ⟨1, 1, _, _, _, _, rfl, rfl, rfl⟩
  dhPublic_header := rfl
  fresh_ne := by decide

/-- No drawn key makes the chain of seed 5 again. -/
theorem DrawnApart.ideal (pub priv : ℕ) : DrawnApart Sodium.ideal ⟨0, 5⟩ pub priv := by
  intro x _ he
  have hkey : Sodium.ideal.dhChainKey x = 5 := he
  simp only [Sodium.dhChainKey, Sodium.ideal] at hkey
  omega

/-- In the order they were sent, both messages are answered. -/
theorem EpochChange.answered_inOrder :
    Answered Sodium.ideal InStep.receiver
      ((EpochChange.ideal.old ++ EpochChange.ideal.new).map fun m => (m, 40)) :=
  (EpochChange.answered_iff Sodium.ideal_commutes Sodium.ideal_acceptsKeyPairs
    Sodium.ideal_kdfInjective EpochChange.ideal (by rw [List.map_map]; exact List.Perm.refl _)
    (fun _ _ => DrawnApart.ideal _ _)).mpr (by simp [EpochChange.ideal, Sodium.ideal])

/-- The other way round, the message of the old chain gets another key. -/
theorem EpochChange.not_answered_late :
    ∃ ds : List (Delivery ℕ),
      (ds.map Prod.fst).Perm (EpochChange.ideal.old ++ EpochChange.ideal.new)
      ∧ (∀ d ∈ ds, DrawnApart Sodium.ideal ⟨0, 5⟩ InStep.sender.localDhPublic d.2)
      ∧ ¬ Answered Sodium.ideal InStep.receiver ds := by
  refine ⟨(EpochChange.ideal.new ++ EpochChange.ideal.old).map fun m => (m, 40), ?_,
    fun _ _ => DrawnApart.ideal _ _, ?_⟩
  · rw [List.map_map, show (Prod.fst ∘ fun m : ℕ × MessageHeader ℕ => (m, 40)) = id from rfl,
      List.map_id]
    exact List.perm_append_comm
  · have hne : (replies Sodium.ideal
        (((EpochChange.ideal.new ++ EpochChange.ideal.old).map fun m => (m, 40)).map
          fun d : Delivery ℕ => .receive d.2 d.1.2) InStep.receiver)[1]?
        ≠ some (.ok (Sodium.ideal.kdf 5 0 .drSndKey)) := by decide +kernel
    exact fun h => hne (by rw [h]; rfl)
