import Eastwood.Session

/-!
# Forward secrecy

What can be computed from a set of values under the hash, the key derivation
and X25519 is the closure `Derivable`; a ratchet is forward secret if no key
it has returned and does not hold back any more lies in the closure of the
fields it stores.

A session's chains all start from one DH output, that of the two key pairs
its parties were made with, and both parties keep their private key and the
other's public key for good: neither set-up nor the symmetric ratchets mix
anything else in, and the DH ratchet, which would replace the pair, stands
still. The two chains can thus be derived from any state of the session from
their start on (`Session.Inv.derivable`), and a party is forward secret
exactly as long as it has done nothing (`Session.forwardSecret_iff`).
-/

variable {K : Type} (S : Sodium K)

/-! ## Derivability -/

/-- **What follows from known values** by hashing, key derivation and
Diffie–Hellman. -/
inductive Derivable (known : Set K) : K → Prop
  | known {k : K} : k ∈ known → Derivable known k
  | generichash {l : List K} : (∀ k ∈ l, Derivable known k) →
      Derivable known (S.generichash l)
  | kdf {k : K} (i : ℕ) (c : KdfContext) : Derivable known k →
      Derivable known (S.kdf k i c)
  | scalarmult {priv pub k : K} : Derivable known priv → Derivable known pub →
      S.scalarmult priv pub = some k → Derivable known k

section Derivable

variable {S} {known : Set K}

/-- With a chain key come all later ones. -/
theorem Derivable.iterate {k : K} (h : Derivable S known k) (n : ℕ) :
    Derivable S known (S.chainStep.next^[n] k) := by
  induction n with
  | zero => exact h
  | succ n ih =>
    rw [Function.iterate_succ_apply']
    exact .kdf _ _ ih

/-- With the seed of a chain come all its message keys. -/
theorem Derivable.messageKey {c : KeyChain K} (h : Derivable S known c.seed) (i : ℕ) :
    Derivable S known (c.messageKey S.chainStep i) :=
  .kdf _ _ (h.iterate _)

/-- With a private key and the public key of the other side come both initial
chains. -/
theorem Derivable.initialChain {priv pub x : K} (hpriv : priv ∈ known) (hpub : pub ∈ known)
    (hx : S.scalarmult priv pub = some x) (p : Party) (i : ℕ) :
    Derivable S known ((S.initialChain x p).messageKey S.chainStep i) := by
  have hx : Derivable S known x := .scalarmult (.known hpriv) (.known hpub) hx
  refine Derivable.messageKey (.kdf _ _ (.generichash fun k hk => ?_)) i
  rwa [List.mem_singleton.mp hk]

end Derivable

/-! ## Forward secrecy of a session -/

/-- The values a ratchet stores. -/
def NewRatchet.stored (r : NewRatchet K) : Set K :=
  { r.rootKey, r.sendChain.key, r.receiveChain.key, r.localDhPublic, r.localDhPriv,
      r.remoteDhPublic }
    ∪ { k | ∃ i, r.skippedKeys.lookup i = some k }

/-- **Forward secrecy of a party**: no key it was given and does not hold
back follows from what its ratchet stores. -/
def Session.ForwardSecret (p : Party) (s : Session K) : Prop :=
  ∀ k ∈ returnedTo p s.log, (∀ i, (s.ratchet p).skippedKeys.lookup i ≠ some k) →
    ¬ Derivable S (s.ratchet p).stored k

section ForwardSecrecy

variable {S} {x : K} {priv : Party → K} {s : Session K} {p : Party}

/-- Every key a party was given follows from what it stores. -/
theorem Session.Inv.derivable (hs : s.Inv S x priv)
    (hx : S.scalarmult (priv p) (S.boxPublic (priv p.peer)) = some x) {k : K}
    (hk : k ∈ returnedTo p s.log) : Derivable S (s.ratchet p).stored k := by
  have hpriv : priv p ∈ (s.ratchet p).stored := by
    rw [← (hs p).localPriv]
    simp [NewRatchet.stored]
  have hpub : S.boxPublic (priv p.peer) ∈ (s.ratchet p).stored := by
    rw [← (hs p).remote]
    simp [NewRatchet.stored]
  rcases ((hs p).returned k).mp hk with ⟨i, -, rfl⟩ | ⟨i, -, rfl⟩
  · exact Derivable.initialChain hpriv hpub hx p i
  · exact Derivable.initialChain hpriv hpub hx p.peer i

/-- The two chains of a session have different seeds. -/
theorem Sodium.KdfInjective.initialChain_ne (hS : S.KdfInjective) (x : K) (p : Party) :
    (S.initialChain x p).seed ≠ (S.initialChain x p.peer).seed := by
  intro he
  have hid := (hS he).2.1
  cases p <;> exact absurd hid (by decide)

/-- An initial chain never comes back. -/
theorem Sodium.KdfInjective.initialChain_fresh (hS : S.KdfInjective) (x : K) (p : Party) :
    (S.initialChain x p).Fresh S.chainStep :=
  hS.fresh rfl (by cases p <;> decide)

/-- No key a party was given is still held back. -/
theorem Session.Inv.lookup_ne (hK : S.KdfInjective) (hs : s.Inv S x priv) {k : K}
    (hk : k ∈ returnedTo p s.log) (i : ℤ) :
    (s.ratchet p).skippedKeys.lookup i ≠ some k := by
  intro hi
  obtain ⟨n, hn⟩ := (hs p).receives
  obtain ⟨j, rfl, hj, hspent⟩ := hn.tidy i k hi
  have hkey : k = (S.initialChain x p.peer).messageKey S.chainStep j := by
    have := (hn.held j hj hspent).symm.trans hi
    rw [OneShot.takeAll_key] at this
    exact (Option.some.inj this).symm
  rcases ((hs p).returned k).mp hk with ⟨i, -, hown⟩ | ⟨i, hdel, hpeer⟩
  · exact (hK.initialChain_fresh x p).messageKey_ne (hK.initialChain_fresh x p.peer)
      (hK.initialChain_ne x p) i j (hown.symm.trans hkey)
  · have hij : i = j := (hK.initialChain_fresh x p.peer).messageKey_inj (Nat.zero_le _)
      (Nat.zero_le _) (hpeer.symm.trans hkey)
    rw [OneShot.mem_takeAll_spent, not_or] at hspent
    exact hspent.2 (hij ▸ hdel)

/-- A party that was given any key is not forward secret. -/
theorem Session.Inv.not_forwardSecret (hK : S.KdfInjective) (hs : s.Inv S x priv)
    (hx : S.scalarmult (priv p) (S.boxPublic (priv p.peer)) = some x)
    (hne : returnedTo p s.log ≠ []) : ¬ s.ForwardSecret S p := by
  intro hfs
  obtain ⟨k, hk⟩ := List.exists_mem_of_ne_nil _ hne
  exact hfs k hk (hs.lookup_ne hK hk) (hs.derivable hx hk)

/-- A party was given no key exactly if it has neither sent nor been handed a
message. -/
theorem Session.Inv.returnedTo_eq_nil (hs : s.Inv S x priv) :
    returnedTo p s.log = [] ↔ sentBy p s.log = [] ∧ deliveredTo p s.log = [] := by
  simp only [List.eq_nil_iff_forall_not_mem (l := returnedTo p s.log), (hs p).returned]
  constructor
  · intro h
    refine ⟨List.eq_nil_of_length_eq_zero ?_, List.eq_nil_iff_forall_not_mem.mpr fun i hi => ?_⟩
    · by_contra hlen
      exact h _ (Or.inl ⟨0, Nat.pos_of_ne_zero hlen, rfl⟩)
    · exact h _ (Or.inr ⟨i, hi, rfl⟩)
  · rintro ⟨hsent, hdel⟩ k (⟨i, hi, -⟩ | ⟨i, hi, -⟩)
    · rw [hsent] at hi
      exact absurd hi (Nat.not_lt_zero i)
    · rw [hdel] at hi
      exact absurd hi List.not_mem_nil

end ForwardSecrecy

variable [DecidableEq K] [Zero K]

/-- **When a party is forward secret.** After any schedule, exactly if it has
neither sent nor been handed a message. -/
theorem Session.forwardSecret_iff (hS : S.Commutes) (hK : S.KdfInjective)
    {ephemeral signed : K} {a b : NewRatchet K} (hm : Matching S ephemeral signed a b)
    (schedule : List (Move K)) (p : Party) :
    ((Session.start a b).run S schedule).ForwardSecret S p
      ↔ sentBy p ((Session.start a b).run S schedule).log = []
        ∧ deliveredTo p ((Session.start a b).run S schedule).log = [] := by
  obtain ⟨x, hx, hinv⟩ := hm.inv S hS schedule
  rw [← hinv.returnedTo_eq_nil]
  constructor
  · intro hfs
    by_contra hne
    exact hinv.not_forwardSecret hK (hx p) hne hfs
  · intro hnil k hk
    rw [hnil] at hk
    exact absurd hk List.not_mem_nil

/-- The initiator's first send leaves the recipient forward secret. -/
theorem Session.forwardSecret_recipient :
    ∃ a b, Matching Sodium.ideal 8 16 a b
      ∧ ((Session.start a b).run Sodium.ideal [.send .initiator]).ForwardSecret Sodium.ideal
          .recipient := by
  have hm := matching_initial Sodium.ideal Sodium.ideal_commutes (Sodium.ideal_scalarmult 8 16)
  exact ⟨_, _, hm, (Session.forwardSecret_iff Sodium.ideal Sodium.ideal_commutes
    Sodium.ideal_kdfInjective hm [.send .initiator] .recipient).mpr ⟨rfl, rfl⟩⟩

/-- And the initiator no longer so: the key it just used follows from the
private key it keeps. -/
theorem Session.not_forwardSecret_initiator :
    ∃ a b, Matching Sodium.ideal 8 16 a b
      ∧ ¬ ((Session.start a b).run Sodium.ideal [.send .initiator]).ForwardSecret Sodium.ideal
          .initiator := by
  have hm := matching_initial Sodium.ideal Sodium.ideal_commutes (Sodium.ideal_scalarmult 8 16)
  obtain ⟨x, hx, hinv⟩ := hm.inv Sodium.ideal Sodium.ideal_commutes [.send .initiator]
  exact ⟨_, _, hm, hinv.not_forwardSecret Sodium.ideal_kdfInjective (hx .initiator)
    (List.cons_ne_nil _ _)⟩
