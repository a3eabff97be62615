import Eastwood.Session

/-!
# Honest runs, and the DH ratchet in them

In an honest run the network is reliable and keeps the order: a `Turn` is a
send, or the arrival of the next message that has not arrived yet. An honest
run is one schedule among all (`Session.honestRun_eq`), so what holds along
every schedule holds of it.

`Turns` says what a DH ratchet is for: a party that sends after a full round
trip – its own message received, and a later message of the peer received
back – sends under a public key it had not used before that round trip. The
two ratchets never do so. Each constructor is handed the other side's public
key, so the first header of either side already matches what the other has
stored, `advance_receive` sees no new key, and no key pair is generated; the
next header is no different. Hence a history turns exactly if it has no send
after a round trip at all (`Session.turns_iff`).
-/

variable {K : Type}

/-- A move of an honest run: `p` sends, or the next message on its way to `p`
arrives. -/
inductive Turn (K : Type) where
  | send (p : Party)
  | arrive (p : Party) (fresh : K)

/-- The move a turn stands for: arrivals keep the order, so the next
position is the number of those before it. -/
def Turn.move (log : List (Event K)) : Turn K → Move K
  | .send p => .send p
  | .arrive p fresh => .deliver p (deliveredTo p log).length fresh

/-- **A full round trip** of `p`, from its message at position `a` of the
history to its send at position `e`: the peer received the message at `a`,
sent one after that, and `p` received this one before it sent at `e`. -/
def RoundTrip (p : Party) (log : List (Event K)) (a e : ℕ) : Prop :=
  ∃ b c d, (a < b ∧ b < c ∧ c < d ∧ d < e)
    ∧ log[a]?.any (·.isSend p)
    ∧ log[b]?.any (·.isReceipt p.peer (sentBy p (log.take a)).length)
    ∧ log[c]?.any (·.isSend p.peer)
    ∧ log[d]?.any (·.isReceipt p (sentBy p.peer (log.take c)).length)
    ∧ log[e]?.any (·.isSend p)

/-- **The DH ratchet turns** in a history: a header sent after a round trip
carries a public key that no header up to its start carried. -/
def Turns (log : List (Event K)) : Prop :=
  ∀ p a e, RoundTrip p log a e → ∀ a' ≤ a, ∀ k h k' h',
    log[a']? = some (.sent p k' h') → log[e]? = some (.sent p k h) →
      h.dhPublic ≠ h'.dhPublic

/-- A send in the history, with its key and header. -/
theorem exists_sent {p : Party} {log : List (Event K)} {i : ℕ}
    (hi : log[i]?.any (·.isSend p)) : ∃ k h, log[i]? = some (.sent p k h) := by
  obtain ⟨e, he, hs⟩ := (Option.any_eq_true _ _).mp hi
  cases e with
  | sent q k h => exact ⟨k, h, by rw [he, of_decide_eq_true hs]⟩
  | received => exact absurd hs Bool.false_ne_true

/-- What the history says was sent is among the messages of its sender. -/
theorem mem_sentBy {p : Party} {log : List (Event K)} {i : ℕ} {k : K} {h : MessageHeader K}
    (hi : log[i]? = some (.sent p k h)) : (k, h) ∈ sentBy p log :=
  List.mem_filterMap.mpr ⟨_, List.mem_of_getElem? hi, by simp⟩

variable [DecidableEq K] [Zero K] (S : Sodium K)

/-- The moves of an honest run, from first to last. -/
def Session.honestRun (s : Session K) (turns : List (Turn K)) : Session K :=
  turns.foldl (fun s t => s.step S (t.move s.log)) s

/-- **An honest run is a schedule.** -/
theorem Session.honestRun_eq (s : Session K) (turns : List (Turn K)) :
    ∃ schedule, s.honestRun S turns = s.run S schedule := by
  induction turns generalizing s with
  | nil => exact ⟨[], rfl⟩
  | cons t turns ih =>
    obtain ⟨schedule, h⟩ := ih (s.step S (t.move s.log))
    exact ⟨t.move s.log :: schedule, h⟩

omit [DecidableEq K] [Zero K] in
/-- Every header of a session carries the key its sender started with. -/
theorem Session.Inv.dhPublic_eq {x : K} {priv : Party → K} {s : Session K}
    (hs : s.Inv S x priv) {p : Party} {k : K} {h : MessageHeader K}
    (hm : (k, h) ∈ sentBy p s.log) : h.dhPublic = S.boxPublic (priv p) := by
  obtain ⟨i, hi⟩ := List.mem_iff_getElem?.mp hm
  exact ((hs p).sent i k h hi).2.2

/-- No send after a round trip turns the DH ratchet. -/
theorem Session.not_turns (hS : S.Commutes) {ephemeral signed : K} {a b : NewRatchet K}
    (hm : Matching S ephemeral signed a b) (turns : List (Turn K)) {p : Party} {i j : ℕ}
    (htrip : RoundTrip p ((Session.start a b).honestRun S turns).log i j) :
    ¬ Turns ((Session.start a b).honestRun S turns).log := by
  intro hturns
  obtain ⟨schedule, hrun⟩ := Session.honestRun_eq S (Session.start a b) turns
  obtain ⟨x, -, hinv⟩ := hm.inv S hS schedule
  rw [← hrun] at hinv
  obtain ⟨b', c, d, -, hi, -, -, -, hj⟩ := id htrip
  obtain ⟨k', h', hi⟩ := exists_sent hi
  obtain ⟨k, h, hj⟩ := exists_sent hj
  refine hturns p i j htrip i le_rfl k h k' h' hi hj ?_
  rw [hinv.dhPublic_eq S (mem_sentBy hj), hinv.dhPublic_eq S (mem_sentBy hi)]

/-- **When the DH ratchet turns.** In the history of an honest run it does if
and only if no party sends after a round trip: every send the property speaks
of reuses the key. -/
theorem Session.turns_iff (hS : S.Commutes) {ephemeral signed : K} {a b : NewRatchet K}
    (hm : Matching S ephemeral signed a b) (turns : List (Turn K)) :
    Turns ((Session.start a b).honestRun S turns).log
      ↔ ∀ p i j, ¬ RoundTrip p ((Session.start a b).honestRun S turns).log i j := by
  constructor
  · intro hturns p i j htrip
    exact Session.not_turns S hS hm turns htrip hturns
  · intro hnone p i j htrip
    exact absurd htrip (hnone p i j)

/-- A message that has only arrived is no round trip yet. -/
theorem Session.turns_oneWay :
    ∃ a b, Matching Sodium.ideal 8 16 a b
      ∧ Turns ((Session.start a b).honestRun Sodium.ideal
          [.send .initiator, .arrive .recipient 0]).log := by
  have hm := matching_initial Sodium.ideal Sodium.ideal_commutes (Sodium.ideal_scalarmult 8 16)
  refine ⟨_, _, hm, (Session.turns_iff Sodium.ideal Sodium.ideal_commutes hm _).mpr ?_⟩
  rintro p i j ⟨b', c, d, hlt, -, -, -, -, hj⟩
  obtain ⟨k, h, hj⟩ := exists_sent hj
  obtain ⟨hlen, -⟩ := List.getElem?_eq_some_iff.mp hj
  change j < 2 at hlen
  omega

/-- One message each way and one more: the initiator's second header carries
the public key of its first. -/
theorem Session.not_turns_roundTrip :
    ∃ a b, Matching Sodium.ideal 8 16 a b
      ∧ ¬ Turns ((Session.start a b).honestRun Sodium.ideal
          [.send .initiator, .arrive .recipient 0, .send .recipient, .arrive .initiator 0,
            .send .initiator]).log := by
  have hm := matching_initial Sodium.ideal Sodium.ideal_commutes (Sodium.ideal_scalarmult 8 16)
  refine ⟨_, _, hm, Session.not_turns Sodium.ideal Sodium.ideal_commutes hm _
    (p := .initiator) (i := 0) (j := 4) ?_⟩
  exact ⟨1, 2, 3, by omega, by decide +kernel, by decide +kernel, by decide +kernel,
    by decide +kernel, by decide +kernel⟩
