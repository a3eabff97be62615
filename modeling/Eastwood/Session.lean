import Eastwood.RatchetChain

/-!
# Two ratchets and a network

A `Session` is an initiator's and a recipient's ratchet and the history of
what they did. A `Move` makes one party send, or hands one party a header
the other has produced before – any of them, so that a schedule can reorder,
drop and replay in both directions at once.

The invariant (`Session.Inv`) ties each party's sending chain to what it has
sent and each receiving chain to the abstract one-shot receiver that took
what was delivered; it holds along every schedule (`Session.run_inv`). Since
the initiator starts from the recipient's signed prekey and the recipient
from the initiator's ephemeral key, each side already has the other's public
key, and no delivered header ever carries a new one: this is what the
invariant says of `remoteDhPublic`, and why the DH ratchet stands still
(`Session.turns_iff`).
-/

variable {K : Type}

/-- The two ends of a session. -/
inductive Party where
  | initiator
  | recipient
  deriving DecidableEq, Repr

namespace Party

/-- The other end. -/
def peer : Party → Party
  | initiator => recipient
  | recipient => initiator

@[simp] theorem peer_peer (p : Party) : p.peer.peer = p := by cases p <;> rfl

@[simp] theorem peer_ne (p : Party) : p.peer ≠ p := by cases p <;> decide

@[simp] theorem ne_peer (p : Party) : p ≠ p.peer := by cases p <;> decide

/-- The context a party's first sending chain is derived under: one side's
send is the other's receive. -/
def sendContext : Party → KdfContext
  | initiator => .drxSend1
  | recipient => .drxRecv1

/-- The subkey id that goes with it. -/
def sendId : Party → ℕ
  | initiator => 0
  | recipient => 1

end Party

/-- What happened: a message was produced, or a produced message was handed
to `advance_receive`, with the result of the call. -/
inductive Event (K : Type) where
  | sent (p : Party) (key : K) (header : MessageHeader K)
  | received (p : Party) (i : ℕ) (result : Except Fault K)

/-- A message of `p`. -/
def Event.isSend (p : Party) : Event K → Bool
  | .sent q _ _ => q = p
  | .received _ _ _ => false

/-- The `i`-th message of the peer, received by `p`. -/
def Event.isReceipt (p : Party) (i : ℕ) : Event K → Bool
  | .received q j (.ok _) => q = p && j = i
  | _ => false

/-- What a schedule can do next: let `p` send, or deliver to `p` the `i`-th
message its peer produced, drawing `fresh` if a key pair is generated. -/
inductive Move (K : Type) where
  | send (p : Party)
  | deliver (p : Party) (i : ℕ) (fresh : K)

/-! ## Histories -/

/-- The messages a party produced, in order. -/
def sentBy (p : Party) (log : List (Event K)) : List (K × MessageHeader K) :=
  log.filterMap fun
    | .sent q k h => if q = p then some (k, h) else none
    | .received _ _ _ => none

/-- The positions delivered to a party, in order. -/
def deliveredTo (p : Party) (log : List (Event K)) : List ℕ :=
  log.filterMap fun
    | .sent _ _ _ => none
    | .received q i _ => if q = p then some i else none

/-- The message keys a party's calls returned, in order. -/
def returnedTo (p : Party) (log : List (Event K)) : List K :=
  log.filterMap fun
    | .sent q k _ => if q = p then some k else none
    | .received q _ (.ok k) => if q = p then some k else none
    | .received _ _ (.error _) => none

section Histories

variable (p q : Party) (log : List (Event K))

@[simp] theorem sentBy_nil : sentBy p ([] : List (Event K)) = [] := rfl

@[simp] theorem deliveredTo_nil : deliveredTo p ([] : List (Event K)) = [] := rfl

@[simp] theorem returnedTo_nil : returnedTo p ([] : List (Event K)) = [] := rfl

@[simp] theorem sentBy_sent (k : K) (h : MessageHeader K) :
    sentBy p (log ++ [.sent q k h])
      = if q = p then sentBy p log ++ [(k, h)] else sentBy p log := by
  by_cases hq : q = p <;> simp [sentBy, hq]

@[simp] theorem sentBy_received (i : ℕ) (e : Except Fault K) :
    sentBy p (log ++ [.received q i e]) = sentBy p log := by
  simp [sentBy]

@[simp] theorem deliveredTo_sent (k : K) (h : MessageHeader K) :
    deliveredTo p (log ++ [.sent q k h]) = deliveredTo p log := by
  simp [deliveredTo]

@[simp] theorem deliveredTo_received (i : ℕ) (e : Except Fault K) :
    deliveredTo p (log ++ [.received q i e])
      = if q = p then deliveredTo p log ++ [i] else deliveredTo p log := by
  by_cases hq : q = p <;> simp [deliveredTo, hq]

@[simp] theorem returnedTo_sent (k : K) (h : MessageHeader K) :
    returnedTo p (log ++ [.sent q k h])
      = if q = p then returnedTo p log ++ [k] else returnedTo p log := by
  by_cases hq : q = p <;> simp [returnedTo, hq]

@[simp] theorem returnedTo_received_error (i : ℕ) (e : Fault) :
    returnedTo p (log ++ [.received q i (.error e)]) = returnedTo p log := by
  simp [returnedTo]

@[simp] theorem returnedTo_received_ok (i : ℕ) (k : K) :
    returnedTo p (log ++ [.received q i (.ok k)])
      = if q = p then returnedTo p log ++ [k] else returnedTo p log := by
  by_cases hq : q = p <;> simp [returnedTo, hq]

theorem returnedTo_received_of_ne {p q : Party} (hq : q ≠ p) (i : ℕ) (e : Except Fault K) :
    returnedTo p (log ++ [.received q i e]) = returnedTo p log := by
  cases e with
  | error => exact returnedTo_received_error ..
  | ok k => rw [returnedTo_received_ok, if_neg hq]

end Histories

/-! ## Runs -/

/-- **The joint state**: both ratchets and the history. -/
structure Session (K : Type) where
  ratchet : Party → NewRatchet K
  log : List (Event K)

/-- Two ratchets that have done nothing yet. -/
def Session.start (a b : NewRatchet K) : Session K where
  ratchet
    | .initiator => a
    | .recipient => b
  log := []

variable [DecidableEq K] [Zero K] (S : Sodium K)

/-- One move. A position the peer has not reached cannot be delivered, and
nothing happens then. -/
def Session.step (s : Session K) : Move K → Session K
  | .send p =>
    match (s.ratchet p).advanceSend S with
    | (.ok (k, h), r) =>
      { ratchet := Function.update s.ratchet p r, log := s.log ++ [.sent p k h] }
    | (.error _, r) => { s with ratchet := Function.update s.ratchet p r }
  | .deliver p i fresh =>
    match (sentBy p.peer s.log)[i]? with
    | none => s
    | some (_, h) =>
      let (result, r) := (s.ratchet p).advanceReceive S fresh h
      { ratchet := Function.update s.ratchet p r, log := s.log ++ [.received p i result] }

/-- A schedule, from first to last. -/
def Session.run (s : Session K) (schedule : List (Move K)) : Session K :=
  schedule.foldl (Session.step S) s

omit [DecidableEq K] in
/-- **Ratchets from matching keys**: the initiator's constructor got the
public half of the signed pair, the recipient's the initiator's ephemeral
public key. The shared secrets are not required to match. -/
structure Matching (ephemeral signed : K) (a b : NewRatchet K) : Prop where
  initiator : ∃ sharedSecret, NewRatchet.newInitiator S sharedSecret (S.boxPublic signed)
    (S.boxPublic ephemeral) ephemeral = .ok a
  recipient : ∃ sharedSecret, NewRatchet.newRecipient S (S.boxPublic signed, signed)
    sharedSecret (S.boxPublic ephemeral) = .ok b

/-! ## The ratchets the constructors make -/

omit [DecidableEq K] [Zero K] in
/-- The chain a party starts sending on, for a DH output. -/
def Sodium.initialChain (x : K) (p : Party) : KeyChain K :=
  ⟨0, S.kdf (S.generichash [x]) p.sendId p.sendContext⟩

/-- **What a constructor leaves**, for a DH output `x`: nothing of the shared
secret, whose copy in the root key is overwritten. -/
def NewRatchet.initial (p : Party) (x localDhPublic localDhPriv remoteDhPublic : K) :
    NewRatchet K where
  reversed := p = .recipient
  dueToSendNewDh := false
  rootKey := S.kdf (S.generichash [x]) 2 .drxRoot1
  sendChain := { key := (S.initialChain x p).seed }
  receiveChain := { key := (S.initialChain x p.peer).seed }
  localDhPublic := localDhPublic
  localDhPriv := localDhPriv
  remoteDhPublic := remoteDhPublic
  skippedKeys := ∅
  prevChainLength := 0

omit [DecidableEq K] in
theorem NewRatchet.newInitiator_eq (secret other pub priv : K) :
    NewRatchet.newInitiator S secret other pub priv =
      match S.scalarmult priv other with
      | some x => .ok (NewRatchet.initial S .initiator x pub priv other)
      | none => .error (.runtimeError "Failed to perform dh") := by
  unfold NewRatchet.newInitiator NewRatchet.setUpInitialChainKeys
    NewRatchet.setUpInitialStateForInitiator NewRatchet.dh
  cases S.scalarmult priv other <;> rfl

omit [DecidableEq K] in
theorem NewRatchet.newRecipient_eq (secret other : K) (signed : K × K) :
    NewRatchet.newRecipient S signed secret other =
      match S.scalarmult signed.2 other with
      | some x => .ok (NewRatchet.initial S .recipient x signed.1 signed.2 other)
      | none => .error (.runtimeError "Failed to perform dh") := by
  unfold NewRatchet.newRecipient NewRatchet.setUpInitialChainKeys
    NewRatchet.setUpInitialStateForRecipient NewRatchet.dh
  cases S.scalarmult signed.2 other <;> rfl

omit [DecidableEq K] in
/-- What a constructor returns, it made of a DH output. -/
theorem NewRatchet.exists_of_newInitiator {secret other pub priv : K} {r : NewRatchet K}
    (h : NewRatchet.newInitiator S secret other pub priv = .ok r) :
    ∃ x, S.scalarmult priv other = some x
      ∧ r = NewRatchet.initial S .initiator x pub priv other := by
  rw [NewRatchet.newInitiator_eq] at h
  split at h
  · rename_i x hx
    exact ⟨x, hx, (Except.ok.inj h).symm⟩
  · cases h

omit [DecidableEq K] in
theorem NewRatchet.exists_of_newRecipient {secret other : K} {signed : K × K} {r : NewRatchet K}
    (h : NewRatchet.newRecipient S signed secret other = .ok r) :
    ∃ x, S.scalarmult signed.2 other = some x
      ∧ r = NewRatchet.initial S .recipient x signed.1 signed.2 other := by
  rw [NewRatchet.newRecipient_eq] at h
  split at h
  · rename_i x hx
    exact ⟨x, hx, (Except.ok.inj h).symm⟩
  · cases h

omit [DecidableEq K] in
/-- Ratchets from matching keys come from one DH output, since X25519
commutes. -/
theorem Matching.eq_initial (hS : S.Commutes) {ephemeral signed : K} {a b : NewRatchet K}
    (hm : Matching S ephemeral signed a b) :
    ∃ x, S.scalarmult ephemeral (S.boxPublic signed) = some x
      ∧ a = NewRatchet.initial S .initiator x (S.boxPublic ephemeral) ephemeral
          (S.boxPublic signed)
      ∧ b = NewRatchet.initial S .recipient x (S.boxPublic signed) signed
          (S.boxPublic ephemeral) := by
  obtain ⟨secretA, ha⟩ := hm.initiator
  obtain ⟨secretB, hb⟩ := hm.recipient
  obtain ⟨x, hx, rfl⟩ := NewRatchet.exists_of_newInitiator S ha
  obtain ⟨y, hy, rfl⟩ := NewRatchet.exists_of_newRecipient S hb
  obtain rfl : y = x := Option.some.inj (hy.symm.trans ((hS signed ephemeral).trans hx))
  exact ⟨y, hx, rfl, rfl⟩

omit [DecidableEq K] in
/-- And such ratchets match. -/
theorem matching_initial (hS : S.Commutes) {ephemeral signed x : K}
    (hx : S.scalarmult ephemeral (S.boxPublic signed) = some x) :
    Matching S ephemeral signed
      (NewRatchet.initial S .initiator x (S.boxPublic ephemeral) ephemeral
        (S.boxPublic signed))
      (NewRatchet.initial S .recipient x (S.boxPublic signed) signed
        (S.boxPublic ephemeral)) where
  initiator := ⟨0, by rw [NewRatchet.newInitiator_eq, hx]⟩
  recipient := ⟨0, by rw [NewRatchet.newRecipient_eq, hS signed ephemeral, hx]⟩

/-! ## The invariant -/

/-- **What holds of one party's ratchet**, in a session made from the DH
output `x`, `priv` being the private keys its parties started with. -/
structure Session.PartyInv (x : K) (priv : Party → K) (p : Party) (log : List (Event K))
    (r : NewRatchet K) : Prop where
  localPriv : r.localDhPriv = priv p
  localPublic : r.localDhPublic = S.boxPublic (priv p)
  remote : r.remoteDhPublic = S.boxPublic (priv p.peer)
  notDue : r.dueToSendNewDh = false
  sendChain : r.sendChain =
    { index := (sentBy p log).length,
      key := (S.initialChain x p).chainKey S.chainStep (sentBy p log).length }
  sent_le : ((sentBy p log).length : ℤ) ≤ intMax
  sent : ∀ (i : ℕ) k h, (sentBy p log)[i]? = some (k, h) →
    k = (S.initialChain x p).messageKey S.chainStep i ∧ h.messageIndex = i
      ∧ h.dhPublic = S.boxPublic (priv p)
  receives : ∃ n, NewRatchet.Refines S (S.initialChain x p.peer)
    (OneShot.takeAll ⟨(S.initialChain x p.peer).messageKey S.chainStep, ∅⟩
      (deliveredTo p log)) n r
  returned : ∀ k, k ∈ returnedTo p log ↔
    (∃ i < (sentBy p log).length, k = (S.initialChain x p).messageKey S.chainStep i)
      ∨ ∃ i ∈ deliveredTo p log, k = (S.initialChain x p.peer).messageKey S.chainStep i

/-- **The invariant of a session.** -/
def Session.Inv (x : K) (priv : Party → K) (s : Session K) : Prop :=
  ∀ p, Session.PartyInv S x priv p s.log (s.ratchet p)

/-- An element of a list with one more at the end is an element of the list
or that one. -/
theorem getElem?_concat {α : Type} {l : List α} {a b : α} {i : ℕ}
    (h : (l ++ [a])[i]? = some b) : l[i]? = some b ∨ i = l.length ∧ a = b := by
  rw [List.getElem?_append] at h
  split at h
  · exact Or.inl h
  · obtain ⟨hl, he⟩ := List.getElem?_eq_some_iff.mp h
    rw [List.length_singleton] at hl
    rw [List.getElem_singleton] at he
    exact Or.inr ⟨by omega, he⟩

section Invariant

variable {S} {x : K} {priv : Party → K} {s : Session K} {p : Party}
variable {log log' : List (Event K)} {r : NewRatchet K}

omit [DecidableEq K] [Zero K] in
/-- A party's invariant reads nothing of the history but its own part. -/
theorem Session.PartyInv.congr_log (h : Session.PartyInv S x priv p log r)
    (hs : sentBy p log' = sentBy p log) (hd : deliveredTo p log' = deliveredTo p log)
    (hr : returnedTo p log' = returnedTo p log) :
    Session.PartyInv S x priv p log' r where
  localPriv := h.localPriv
  localPublic := h.localPublic
  remote := h.remote
  notDue := h.notDue
  sendChain := by rw [hs]; exact h.sendChain
  sent_le := by rw [hs]; exact h.sent_le
  sent := by rw [hs]; exact h.sent
  receives := by rw [hd]; exact h.receives
  returned := by rw [hs, hd, hr]; exact h.returned

omit [DecidableEq K] [Zero K] in
/-- It holds of what a constructor makes. -/
theorem Session.partyInv_initial (p : Party) :
    Session.PartyInv S x priv p [] (NewRatchet.initial S p x (S.boxPublic (priv p)) (priv p)
      (S.boxPublic (priv p.peer))) where
  localPriv := rfl
  localPublic := rfl
  remote := rfl
  notDue := rfl
  sendChain := rfl
  sent_le := by simp [intMax]
  sent i k h hk := by simp at hk
  receives := ⟨0, NewRatchet.Refines.ofStart rfl rfl rfl rfl⟩
  returned k := by simp

omit [DecidableEq K] in
/-- A send keeps the sender's invariant: the header carries the local public
key and the position of the sending chain. What else is written into the
header afterwards does not matter. -/
theorem Session.PartyInv.send (h : Session.PartyInv S x priv p log r)
    (hlt : ((sentBy p log).length : ℤ) < intMax) :
    ∃ k hd r', r.advanceSend S = (.ok (k, hd), r')
      ∧ ∀ hd', hd'.messageIndex = hd.messageIndex → hd'.dhPublic = hd.dhPublic →
        Session.PartyInv S x priv p (log ++ [.sent p k hd']) r' := by
  refine ⟨_, _, _, NewRatchet.advanceSend_eq h.notDue (Nat.zero_le _) h.sendChain hlt,
    fun hd' hidx hdh => ?_⟩
  obtain ⟨n, hn⟩ := h.receives
  refine
    { localPriv := h.localPriv
      localPublic := h.localPublic
      remote := h.remote
      notDue := h.notDue
      sendChain := by simp
      sent_le := by simp only [sentBy_sent, if_true, List.length_append, List.length_singleton]
                    push_cast; omega
      sent := fun i k hd hk => ?_
      receives := ⟨n, ?_⟩
      returned := fun k => ?_ }
  · rw [sentBy_sent, if_pos rfl] at hk
    rcases getElem?_concat hk with hk | ⟨rfl, hkh⟩
    · exact h.sent i k hd hk
    · obtain ⟨rfl, rfl⟩ := Prod.mk.inj hkh
      refine ⟨rfl, ?_, hdh.trans h.localPublic⟩
      rw [hidx, NewRatchet.nextHeader, h.sendChain]
  · rw [deliveredTo_sent]
    exact hn.congr rfl rfl
  · rw [sentBy_sent, deliveredTo_sent, returnedTo_sent, if_pos rfl, if_pos rfl, List.mem_append,
      List.mem_singleton, h.returned, List.length_append, List.length_singleton,
      Nat.exists_lt_succ_right]
    exact or_right_comm

omit [Zero K] in
/-- A delivery of the peer's `i`-th message keeps the receiver's invariant,
and the answer is the abstract receiver's: the header's public key is the one
the ratchet already has. -/
theorem Session.PartyInv.deliver (h : Session.PartyInv S x priv p log r)
    {hd : MessageHeader K} {i : ℕ} (hi : hd.messageIndex = i)
    (hdh : hd.dhPublic = S.boxPublic (priv p.peer)) (hmax : (i : ℤ) < intMax) (fresh : K) :
    ∃ result r', r.advanceReceive S fresh hd = (result, r')
      ∧ result = NewRatchet.answer ((OneShot.takeAll
          ⟨(S.initialChain x p.peer).messageKey S.chainStep, ∅⟩ (deliveredTo p log)).take i).1
      ∧ Session.PartyInv S x priv p (log ++ [.received p i result]) r' := by
  obtain ⟨n, hn⟩ := h.receives
  obtain ⟨n', ch, sk, hr, hn'⟩ := hn.simulates hi hmax
  refine ⟨_, { r with receiveChain := ch, skippedKeys := sk }, ?_, rfl, ?_⟩
  · rw [NewRatchet.advanceReceive, if_neg (by rw [h.remote, hdh]; simp)]
    exact hr
  · refine
      { localPriv := h.localPriv
        localPublic := h.localPublic
        remote := h.remote
        notDue := h.notDue
        sendChain := by rw [sentBy_received]; exact h.sendChain
        sent_le := by rw [sentBy_received]; exact h.sent_le
        sent := by rw [sentBy_received]; exact h.sent
        receives := ⟨n', ?_⟩
        returned := fun k => ?_ }
    · rw [deliveredTo_received, if_pos rfl, OneShot.takeAll_concat]
      exact hn'
    · rw [sentBy_received, deliveredTo_received, if_pos rfl]
      by_cases hd : i ∈ deliveredTo p log
      · -- a replay returns nothing, and adds no position
        rw [OneShot.again_take _ _ hd, NewRatchet.answer, returnedTo_received_error, h.returned]
        simp only [List.mem_append, List.mem_singleton]
        refine or_congr_right ⟨fun ⟨j, hj, hk⟩ => ⟨j, Or.inl hj, hk⟩, ?_⟩
        rintro ⟨j, hj | rfl, hk⟩
        · exact ⟨j, hj, hk⟩
        · exact ⟨j, hd, hk⟩
      · rw [OneShot.first_take _ _ (Set.notMem_empty i) hd, NewRatchet.answer,
          returnedTo_received_ok, if_pos rfl, List.mem_append, List.mem_singleton, h.returned]
        simp only [List.mem_append, List.mem_singleton, or_and_right, exists_or,
          exists_eq_left, or_assoc]

/-! ## Along a schedule -/

/-- One move keeps the invariant. -/
theorem Session.inv_step (h : s.Inv S x priv) (a : Move K) : (s.step S a).Inv S x priv := by
  cases a with
  | send p =>
    rcases (h p).sent_le.lt_or_eq with hlt | heq
    · obtain ⟨k, hd, r', hr, hp⟩ := (h p).send hlt
      replace hp := hp hd rfl rfl
      rw [Session.step, hr]
      intro q
      show Session.PartyInv S x priv q (s.log ++ [.sent p k hd]) (Function.update s.ratchet p r' q)
      by_cases hq : q = p
      · subst hq
        rwa [Function.update_self]
      · rw [Function.update_of_ne hq]
        exact (h q).congr_log (by rw [sentBy_sent, if_neg (Ne.symm hq)]) (deliveredTo_sent ..)
          (by rw [returnedTo_sent, if_neg (Ne.symm hq)])
    · -- the counter is used up: the call is undefined and changes nothing
      rw [Session.step, NewRatchet.advanceSend_overflow (h p).notDue
        (by rw [(h p).sendChain]; exact heq)]
      simpa using h
  | deliver p i fresh =>
    rw [Session.step]
    cases hk : (sentBy p.peer s.log)[i]? with
    | none => exact h
    | some kh =>
      obtain ⟨k, hd⟩ := kh
      obtain ⟨-, hi, hdh⟩ := (h p.peer).sent i k hd hk
      have hlt : (i : ℤ) < intMax := by
        have := (List.getElem?_eq_some_iff.mp hk).1
        have := (h p.peer).sent_le
        omega
      obtain ⟨result, r', hr, -, hp⟩ := (h p).deliver hi hdh hlt fresh
      simp only [hr]
      intro q
      show Session.PartyInv S x priv q (s.log ++ [.received p i result])
        (Function.update s.ratchet p r' q)
      by_cases hq : q = p
      · subst hq
        rwa [Function.update_self]
      · rw [Function.update_of_ne hq]
        exact (h q).congr_log (sentBy_received ..)
          (by rw [deliveredTo_received, if_neg (Ne.symm hq)])
          (returnedTo_received_of_ne _ (Ne.symm hq) _ _)

/-- **Every schedule keeps the invariant.** -/
theorem Session.run_inv (h : s.Inv S x priv) (schedule : List (Move K)) :
    (s.run S schedule).Inv S x priv := by
  induction schedule generalizing s with
  | nil => exact h
  | cons a schedule ih => exact ih (Session.inv_step h a)

end Invariant

/-- The private keys a session starts with. -/
def Session.startKeys (ephemeral signed : K) : Party → K
  | .initiator => ephemeral
  | .recipient => signed

/-- The ratchets of a session of the ideal library, with ephemeral key 8 and
signed prekey 16. -/
def NewRatchet.ideal (p : Party) : NewRatchet ℕ :=
  NewRatchet.initial Sodium.ideal p (8 * Nat.pair 8 16 + 2)
    (Sodium.ideal.boxPublic (Session.startKeys 8 16 p)) (Session.startKeys 8 16 p)
    (Sodium.ideal.boxPublic (Session.startKeys 8 16 p.peer))

omit [DecidableEq K] in
/-- A session of matching ratchets starts in the invariant. -/
theorem Matching.inv_start (hS : S.Commutes) {ephemeral signed : K} {a b : NewRatchet K}
    (hm : Matching S ephemeral signed a b) :
    ∃ x, (∀ p, S.scalarmult (Session.startKeys ephemeral signed p)
          (S.boxPublic (Session.startKeys ephemeral signed p.peer)) = some x)
      ∧ (Session.start a b).Inv S x (Session.startKeys ephemeral signed) := by
  obtain ⟨x, hx, rfl, rfl⟩ := hm.eq_initial S hS
  refine ⟨x, fun p => ?_, fun p => ?_⟩
  · cases p
    · exact hx
    · exact (hS signed ephemeral).trans hx
  · cases p <;> exact Session.partyInv_initial _

/-- And stays in it, whatever the schedule. -/
theorem Matching.inv (hS : S.Commutes) {ephemeral signed : K} {a b : NewRatchet K}
    (hm : Matching S ephemeral signed a b) (schedule : List (Move K)) :
    ∃ x, (∀ p, S.scalarmult (Session.startKeys ephemeral signed p)
          (S.boxPublic (Session.startKeys ephemeral signed p.peer)) = some x)
      ∧ ((Session.start a b).run S schedule).Inv S x (Session.startKeys ephemeral signed) := by
  obtain ⟨x, hx, h⟩ := hm.inv_start S hS
  exact ⟨x, hx, Session.run_inv h schedule⟩

/-! ## Agreement under any schedule -/

omit [DecidableEq K] [Zero K] in
/-- How many sends of a party a schedule contains. -/
def sends (p : Party) (schedule : List (Move K)) : ℕ :=
  schedule.countP fun
    | .send q => q = p
    | .deliver _ _ _ => false

section Agreement

variable {S} {x : K} {priv : Party → K} {s : Session K}

/-- As long as the counter has room, the sends of a schedule are its
messages. -/
theorem Session.length_sentBy_run (h : s.Inv S x priv) (schedule : List (Move K)) (p : Party)
    (hlen : ((sentBy p s.log).length + sends p schedule : ℤ) ≤ intMax) :
    (sentBy p (s.run S schedule).log).length = (sentBy p s.log).length + sends p schedule := by
  induction schedule generalizing s with
  | nil => rfl
  | cons a schedule ih =>
    have hstep : (sentBy p (s.step S a).log).length
        = (sentBy p s.log).length + sends p [a] := by
      cases a with
      | send q =>
        by_cases hq : q = p
        · subst hq
          have hone : sends q (Move.send q :: schedule) = sends q schedule + 1 := by
            simp [sends]
          obtain ⟨k, hd, r', hr, -⟩ := (h q).send (by rw [hone] at hlen; push_cast at hlen; omega)
          rw [Session.step, hr]
          simp [sends]
        · rw [Session.step]
          cases hr : (s.ratchet q).advanceSend S with
          | mk result r' => cases result <;> simp [sends, hq]
      | deliver q i fresh =>
        rw [Session.step]
        cases (sentBy q.peer s.log)[i]? with
        | none => simp [sends]
        | some kh => simp [sends]
    have hsplit : sends p (a :: schedule) = sends p [a] + sends p schedule := by
      rw [show a :: schedule = [a] ++ schedule from rfl, sends, List.countP_append]
      rfl
    rw [hsplit] at hlen ⊢
    rw [show s.run S (a :: schedule) = (s.step S a).run S schedule from rfl,
      ih (Session.inv_step h a) (by rw [hstep]; push_cast at hlen ⊢; omega), hstep]
    omega

end Agreement

/-- **Session agreement under any schedule.** From matching keys, with fewer
than `2 ^ 31 - 1` sends a side: every send succeeds; a header handed to the
other side for the first time is answered with the very key it was sent
under, whatever was delivered, dropped or replayed before, in either
direction; and a header handed over again is refused, the ratchet left as it
was. -/
theorem Session.agreement (hS : S.Commutes) {ephemeral signed : K} {a b : NewRatchet K}
    (hm : Matching S ephemeral signed a b) (schedule : List (Move K))
    (hlen : ∀ p, sends p schedule < 2 ^ 31 - 1) :
    (∀ p, (sentBy p ((Session.start a b).run S schedule).log).length = sends p schedule)
    ∧ ∀ p (i : ℕ) k h,
      (sentBy p.peer ((Session.start a b).run S schedule).log)[i]? = some (k, h) →
      ∀ fresh,
        (i ∉ deliveredTo p ((Session.start a b).run S schedule).log →
          ∃ r', (((Session.start a b).run S schedule).ratchet p).advanceReceive S fresh h
            = (.ok k, r'))
        ∧ (i ∈ deliveredTo p ((Session.start a b).run S schedule).log →
          ∃ what, (((Session.start a b).run S schedule).ratchet p).advanceReceive S fresh h
            = (.error (.runtimeError what), ((Session.start a b).run S schedule).ratchet p)) := by
  obtain ⟨x, -, h₀⟩ := hm.inv_start S hS
  have hinv := Session.run_inv h₀ schedule
  have hlt : ∀ p (i : ℕ) k h,
      (sentBy (Party.peer p) ((Session.start a b).run S schedule).log)[i]? = some (k, h) →
      (i : ℤ) < intMax := by
    intro p i k h hk
    have := (List.getElem?_eq_some_iff.mp hk).1
    have := (hinv p.peer).sent_le
    omega
  refine ⟨fun p => ?_, fun p i k h hk fresh => ⟨fun hnew => ?_, fun hold => ?_⟩⟩
  · rw [Session.length_sentBy_run h₀ schedule p]
    · simp [Session.start]
    · have := hlen p
      simp only [Session.start, sentBy_nil, List.length_nil, intMax]
      omega
  · obtain ⟨hkey, hi, hdh⟩ := (hinv p.peer).sent i k h hk
    obtain ⟨result, r', hr, hres, -⟩ := (hinv p).deliver hi hdh (hlt p i k h hk) fresh
    refine ⟨r', ?_⟩
    rw [hr, hres, OneShot.first_take _ _ (Set.notMem_empty i) hnew, hkey]
    rfl
  · obtain ⟨-, hi, hdh⟩ := (hinv p.peer).sent i k h hk
    obtain ⟨n, hn⟩ := (hinv p).receives
    refine ⟨"Key not found in backlog", ?_⟩
    rw [NewRatchet.advanceReceive, if_neg (by rw [(hinv p).remote, hdh]; simp)]
    exact hn.refuse hi ((OneShot.mem_takeAll_spent _ _ i).mpr (Or.inr hold))

/-- The second of two messages overtakes the first: the first is still
answered with its key, and the second refused when it comes again. -/
theorem Session.agreement_overtaken :
    ∃ a b : NewRatchet ℕ, ∃ k h k' h' r' what,
      let s := (Session.start a b).run Sodium.ideal
        [.send .initiator, .send .initiator, .deliver .recipient 1 0]
      sentBy .initiator s.log = [(k, h), (k', h')]
      ∧ (s.ratchet .recipient).advanceReceive Sodium.ideal 0 h = (.ok k, r')
      ∧ (s.ratchet .recipient).advanceReceive Sodium.ideal 0 h'
          = (.error (.runtimeError what), s.ratchet .recipient) := by
  have hm := matching_initial Sodium.ideal Sodium.ideal_commutes (Sodium.ideal_scalarmult 8 16)
  set a := NewRatchet.initial Sodium.ideal .initiator _ _ _ _
  set b := NewRatchet.initial Sodium.ideal .recipient _ _ _ _
  set schedule : List (Move ℕ) :=
    [.send .initiator, .send .initiator, .deliver .recipient 1 0] with hsch
  obtain ⟨hsent, hrecv⟩ := Session.agreement Sodium.ideal Sodium.ideal_commutes hm schedule
    (by intro p; cases p <;> decide)
  obtain ⟨⟨k, h⟩, ⟨k', h'⟩, hlog⟩ := List.length_eq_two.mp (hsent .initiator)
  have hdel : deliveredTo .recipient ((Session.start a b).run Sodium.ideal schedule).log
      = [1] := by decide +kernel
  obtain ⟨r', hr'⟩ :=
    (hrecv .recipient 0 k h (by rw [Party.peer, hlog]; rfl) 0).1 (by simp [hdel])
  obtain ⟨what, hw⟩ :=
    (hrecv .recipient 1 k' h' (by rw [Party.peer, hlog]; rfl) 0).2 (by simp [hdel])
  exact ⟨a, b, k, h, k', h', r', what, hlog, hr', hw⟩
