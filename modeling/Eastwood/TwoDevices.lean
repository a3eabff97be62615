import Eastwood.MessageFlow

/-!
# Two devices set up a session

Two devices of different users, a server between them that keeps every
handshake and every message posted, and three things either can do at any
time: send to the other – which starts a session if there is none –, poll for
handshakes, and poll for messages. A poll answers with any of what was posted
for the device, in any order and as often as it likes.

There is no tie-break. A device that has a session ignores the handshake of
the other, so if both start one they keep two that have nothing to do with
each other. As long as no device starts a session while a handshake of the
other is waiting for it, only one of them ever does; their ratchets are then
the two ends of a `Session`, and every key that is returned for a message is
the one it was sent under (`Exchange.agreed_of_inTurn`).
-/

variable {K : Type}

/-- The two devices. -/
inductive Side where
  | a
  | b
  deriving DecidableEq, Repr

namespace Side

/-- The other device. -/
def other : Side → Side
  | a => b
  | b => a

@[simp] theorem other_other (p : Side) : p.other.other = p := by cases p <;> rfl

@[simp] theorem other_ne (p : Side) : p.other ≠ p := by cases p <;> decide

theorem eq_or_eq_other (q p : Side) : p = q ∨ p = q.other := by
  cases p <;> cases q <;> decide

/-- The end of the session a device is on, if `q` started it. -/
def role (q p : Side) : Party := if p = q then .initiator else .recipient

@[simp] theorem role_self (q : Side) : q.role q = .initiator := if_pos rfl

@[simp] theorem role_other (q p : Side) : q.role p.other = (q.role p).peer := by
  cases p <;> cases q <;> rfl

theorem role_ne (q p : Side) : q.role p ≠ q.role p.other := by
  rw [role_other]
  exact Party.ne_peer _

@[simp] theorem other_role (p : Side) : p.other.role p = .recipient := by cases p <;> rfl

end Side

/-- **A device of a user**, and the keys it holds. -/
structure Device (S : Sodium K) where
  username : String
  ks : KeyStore K
  device : K × K
  signed : K
  device_stored : ks.keypairs .device = some device
  signed_stored : ks.keypairs .signed = some (S.boxPublic signed, signed)

/-- What comes with the key bundle of a device: the ephemeral key drawn for
it, the one-time prekey on offer, the signature. -/
structure BundleReply (K : Type) where
  ephemeral : K
  onetime : Option K
  signature : List UInt8

/-- The bundle `get_keybundles` makes of the reply. -/
def Device.bundle [Zero K] {S : Sodium K} (me peer : Device S) (reply : BundleReply K) :
    SendingKeyBundle K :=
  .offered S me.device.1 reply.ephemeral peer.device.1 (S.boxPublic peer.signed) reply.onetime
    reply.signature

/-- **The joint state**: what each device keeps, the handshakes and the
messages it has posted – these with the keys they were sent under –, and the
keys its calls of `get_key_for_device` returned, by the position of the
message. -/
structure Exchange (K : Type) where
  store : Side → SessionStore K
  posted : Side → List (SendingKeyBundle K)
  sent : Side → List (K × DeviceMessage K)
  received : Side → List (ℕ × K)

/-- What can happen next: a device sends, not having asked for key bundles,
or having asked in vain, or having been given one; or it polls, and is
answered with some of the other's handshakes or messages by position. A reply
without a bundle makes `get_keybundles` throw before anything is done. -/
inductive Step (K : Type) where
  | send (p : Side) (reply : Option (Option (BundleReply K))) (uuid : String)
      (fKek nonce : List UInt8)
  | pollHandshakes (p : Side) (batch : List ℕ)
  | pollMessages (p : Side) (batch : List (ℕ × K))

namespace Exchange

/-- The state after a send of `p`: what it keeps, the handshakes it posted,
the messages it sent. -/
def put (s : Exchange K) (p : Side) (store : SessionStore K)
    (posted : List (SendingKeyBundle K)) (sent : List (K × DeviceMessage K)) : Exchange K :=
  { s with
    store := Function.update s.store p store
    posted := Function.update s.posted p (s.posted p ++ posted)
    sent := Function.update s.sent p (s.sent p ++ sent) }

/-- The state after a poll of messages by `p`: what it keeps, and the keys
that were returned. -/
def take (s : Exchange K) (p : Side) (store : SessionStore K) (received : List (ℕ × K)) :
    Exchange K :=
  { s with
    store := Function.update s.store p store
    received := Function.update s.received p (s.received p ++ received) }

section Fields

variable (s : Exchange K) (p : Side) (store store' : SessionStore K)
variable (posted : List (SendingKeyBundle K)) (sent : List (K × DeviceMessage K))
variable (received received' : List (ℕ × K))

@[simp] theorem store_put : (s.put p store posted sent).store p = store :=
  Function.update_self ..

@[simp] theorem store_put_other : (s.put p store posted sent).store p.other = s.store p.other :=
  Function.update_of_ne (Side.other_ne p) ..

@[simp] theorem posted_put : (s.put p store posted sent).posted p = s.posted p ++ posted :=
  Function.update_self ..

@[simp] theorem posted_put_other :
    (s.put p store posted sent).posted p.other = s.posted p.other :=
  Function.update_of_ne (Side.other_ne p) ..

@[simp] theorem sent_put : (s.put p store posted sent).sent p = s.sent p ++ sent :=
  Function.update_self ..

@[simp] theorem sent_put_other : (s.put p store posted sent).sent p.other = s.sent p.other :=
  Function.update_of_ne (Side.other_ne p) ..

@[simp] theorem received_put : (s.put p store posted sent).received = s.received := rfl

/-- Looking and then sending is sending. -/
theorem put_put :
    (s.put p store posted []).put p store' [] sent = s.put p store' posted sent := by
  unfold put
  simp only [Function.update_self, Function.update_idem, List.append_nil]

@[simp] theorem store_take : (s.take p store received).store p = store :=
  Function.update_self ..

@[simp] theorem store_take_other : (s.take p store received).store p.other = s.store p.other :=
  Function.update_of_ne (Side.other_ne p) ..

@[simp] theorem received_take :
    (s.take p store received).received p = s.received p ++ received :=
  Function.update_self ..

@[simp] theorem received_take_other :
    (s.take p store received).received p.other = s.received p.other :=
  Function.update_of_ne (Side.other_ne p) ..

/-- Two polls are one that returned the keys of both. -/
theorem take_take :
    (s.take p store received).take p store' received'
      = s.take p store' (received ++ received') := by
  unfold take
  simp only [Function.update_idem, Function.update_self, List.append_assoc]

end Fields

variable [Zero K] [LinearOrder K] {S : Sodium K} (A : Aead K) (dev : Side → Device S)

/-- The bundles `get_keybundles` returns to a device. -/
def newBundles (p : Side) (reply : Option (Option (BundleReply K))) :
    Option (List (SendingKeyBundle K)) :=
  reply.map fun r => (r.map ((dev p).bundle (dev p.other))).toList

omit [LinearOrder K] in
/-- The handshakes `get_handshake_backlog` returns to a device. -/
def handshakesFor (s : Exchange K) (p : Side) (batch : List ℕ) :
    List (String × ReceivingKeyBundle K) :=
  batch.filterMap fun i => (s.posted p.other)[i]?.map fun bundle =>
    ((dev p.other).username, bundle.relayed (dev p.other).device.1 (dev p).device.1)

omit [Zero K] [LinearOrder K] in
/-- The messages `get_messages` returns to a device, by position. -/
def messagesFor (s : Exchange K) (p : Side) (batch : List (ℕ × K)) : List (ℕ × Incoming K) :=
  batch.filterMap fun i => (s.sent p.other)[i.1]?.map fun m =>
    (i.1, ⟨(dev p.other).username, m.2, i.2⟩)

/-- **One step.** -/
def step (s : Exchange K) : Step K → Exchange K
  | .send p reply uuid fKek nonce =>
    let out := allowAccessToFile S A (dev p).ks (dev p.other).username uuid fKek (fun _ => nonce)
      (newBundles dev p reply) (s.store p)
    let messages : List (K × K × DeviceMessage K) := match out.result with
      | .error _ => []
      -- the server relays to a device what was posted for it
      | .ok messages => messages.filter (·.1 = (dev p.other).device.1)
    s.put p out.store out.posted (messages.map (·.2))
  | .pollHandshakes p batch =>
    let out := (s.store p).updateHandshakes S (dev p).ks (s.handshakesFor dev p batch)
    s.put p out.2 [] []
  | .pollMessages p batch =>
    let messages := s.messagesFor dev p batch
    let out := updateMessages S A (messages.map (·.2)) (s.store p)
    s.take p out.store ((messages.map (·.1)).zip out.keys)

/-- Steps, from first to last. -/
def run (s : Exchange K) (steps : List (Step K)) : Exchange K :=
  steps.foldl (step A dev) s

omit [Zero K] [LinearOrder K] in
/-- **Every key returned is the sender's.** -/
def Agreed (s : Exchange K) : Prop :=
  ∀ p i k, (i, k) ∈ s.received p → ∃ m, (s.sent p.other)[i]? = some (k, m)

/-- **In turn**: a device that is about to start a session has no handshake
of the other waiting. -/
def InTurn (s : Exchange K) : Step K → Prop
  | .send p (some (some _)) _ _ _ =>
    ((s.store p).session (dev p.other).username (dev p.other).device.1).isSome
      ∨ s.posted p.other = []
  | _ => True

/-- Every step is in turn where it is made. -/
def InTurns (s : Exchange K) : List (Step K) → Prop
  | [] => True
  | st :: steps => s.InTurn dev st ∧ InTurns (s.step A dev st) steps

omit [Zero K] in
/-- **Before anything happened**: no session with the other user, and nothing
posted. -/
structure Start (s : Exchange K) : Prop where
  ofUser : ∀ p, (s.store p).ofUser (dev p.other).username = ∅
  posted : ∀ p, s.posted p = []
  sent : ∀ p, s.sent p = []
  received : ∀ p, s.received p = []

end Exchange

/-! ## The invariant -/

namespace Exchange

variable [Zero K] [LinearOrder K] {S : Sodium K} {A : Aead K} {dev : Side → Device S}
variable {q p : Side} {e x : K} {log : List (Event K)} {s : Exchange K} {store : SessionStore K}

/-- The private keys of a session that `q` starts with the ephemeral key
`e`. -/
def startKeys (dev : Side → Device S) (q : Side) (e : K) : Party → K :=
  Session.startKeys e (dev q.other).signed

/-- **A device's end of the session `q` started**: its only session with the
other user, its ratchet in the invariant of a session. -/
def Holds (dev : Side → Device S) (q : Side) (e x : K) (log : List (Event K)) (p : Side)
    (store : SessionStore K) : Prop :=
  ∃ r, store.ofUser (dev p.other).username = Finmap.singleton (dev p.other).device.1 r
    ∧ Session.PartyInv S x (startKeys dev q e) (q.role p) log r

/-- The device that did not start the session has none yet, and has done
nothing. -/
structure Waits (dev : Side → Device S) (q : Side) (log : List (Event K)) (p : Side)
    (store : SessionStore K) : Prop where
  side : p = q.other
  ofUser : store.ofUser (dev p.other).username = ∅
  sent : sentBy .recipient log = []
  delivered : deliveredTo .recipient log = []
  returned : returnedTo .recipient log = []

/-- **A session `q` started**, and no other: `log` is its history as that of
two ratchets and a network. -/
structure Begun (dev : Side → Device S) (q : Side) (e x : K) (log : List (Event K))
    (s : Exchange K) : Prop where
  dh : S.scalarmult e (S.boxPublic (dev q.other).signed) = some x
  ends : ∀ p, Holds dev q e x log p (s.store p) ∨ Waits dev q log p (s.store p)
  started : s.posted q ≠ []
  posted : ∀ b ∈ s.posted q, b.myEphemeralPublic = S.boxPublic e
  notPosted : s.posted q.other = []
  sent : ∀ p, (s.sent p).map (fun m => (m.1, m.2.header)) = sentBy (q.role p) log
  agreed : s.Agreed

/-- The invariant of a run in turn. -/
def Inv (dev : Side → Device S) (s : Exchange K) : Prop :=
  s.Start dev ∨ ∃ q e x log, Begun dev q e x log s

omit [Zero K] [LinearOrder K] in
/-- A device's end reads nothing of the history but its own part. -/
theorem ends_congr {log' : List (Event K)}
    (h : Holds dev q e x log p store ∨ Waits dev q log p store)
    (hs : sentBy (q.role p) log' = sentBy (q.role p) log)
    (hd : deliveredTo (q.role p) log' = deliveredTo (q.role p) log)
    (hr : returnedTo (q.role p) log' = returnedTo (q.role p) log) :
    Holds dev q e x log' p store ∨ Waits dev q log' p store := by
  rcases h with ⟨r, hst, hp⟩ | ⟨rfl, hst, hs', hd', hr'⟩
  · exact Or.inl ⟨r, hst, hp.congr_log hs hd hr⟩
  · rw [Side.role_other, Side.role_self] at hs hd hr
    exact Or.inr ⟨rfl, hst, hs.trans hs', hd.trans hd', hr.trans hr'⟩

omit [Zero K] [LinearOrder K] in
/-- **A message that was sent**: its key and its header are those of its
position in the sending chain. -/
theorem Begun.message (h : Begun dev q e x log s) {i : ℕ} {k : K} {m : DeviceMessage K}
    (hm : (s.sent p)[i]? = some (k, m)) :
    k = (S.initialChain x (q.role p)).messageKey S.chainStep i
      ∧ m.header.messageIndex = i
      ∧ m.header.dhPublic = S.boxPublic (startKeys dev q e (q.role p))
      ∧ (i : ℤ) < intMax := by
  have hlog : (sentBy (q.role p) log)[i]? = some (k, m.header) := by
    rw [← h.sent p, List.getElem?_map, hm]
    rfl
  rcases h.ends p with ⟨r, -, hp⟩ | ⟨rfl, -, hs, -, -⟩
  · obtain ⟨hk, hi, hdh⟩ := hp.sent i k _ hlog
    have hlt := (List.getElem?_eq_some_iff.mp hlog).1
    have hle := hp.sent_le
    exact ⟨hk, hi, hdh, by omega⟩
  · rw [Side.role_other, Side.role_self] at hlog
    change (sentBy .recipient log)[i]? = _ at hlog
    rw [hs] at hlog
    cases hlog

omit [Zero K] [LinearOrder K] in
/-- Keys that were returned stay the senders' when more is sent. -/
theorem Agreed.put (h : s.Agreed) (p : Side) (store : SessionStore K)
    (posted : List (SendingKeyBundle K)) (sent : List (K × DeviceMessage K)) :
    (s.put p store posted sent).Agreed := by
  intro p' i k hik
  obtain ⟨m, hm⟩ := h p' i k hik
  refine ⟨m, ?_⟩
  rcases Side.eq_or_eq_other p p'.other with hp | hp
  · rw [hp] at hm ⊢
    rw [sent_put]
    exact (List.getElem?_append_left (List.getElem?_eq_some_iff.mp hm).1).trans hm
  · rw [hp] at hm ⊢
    rw [sent_put_other, hm]

omit [Zero K] [LinearOrder K] in
/-- **What one device does keeps the session**, if it keeps that device's end
and adds nothing to the other's part of the history. -/
theorem Begun.put (h : Begun dev q e x log s) {log' : List (Event K)}
    {sent : List (K × DeviceMessage K)}
    (hend : Holds dev q e x log' p store ∨ Waits dev q log' p store)
    (hs : sentBy (q.role p.other) log' = sentBy (q.role p.other) log)
    (hd : deliveredTo (q.role p.other) log' = deliveredTo (q.role p.other) log)
    (hr : returnedTo (q.role p.other) log' = returnedTo (q.role p.other) log)
    (hsent : sentBy (q.role p) log'
      = sentBy (q.role p) log ++ sent.map (fun m => (m.1, m.2.header))) :
    Begun dev q e x log' (s.put p store [] sent) := by
  have hposted : (s.put p store [] sent).posted = s.posted := by
    unfold Exchange.put
    simp only [List.append_nil, Function.update_eq_self]
  refine
    { dh := h.dh
      ends := fun p' => ?_
      started := by rw [hposted]; exact h.started
      posted := by rw [hposted]; exact h.posted
      notPosted := by rw [hposted]; exact h.notPosted
      sent := fun p' => ?_
      agreed := Agreed.put h.agreed _ _ _ _ }
  · rcases Side.eq_or_eq_other p p' with rfl | rfl
    · rwa [store_put]
    · rw [store_put_other]
      exact ends_congr (h.ends p.other) hs hd hr
  · rcases Side.eq_or_eq_other p p' with rfl | rfl
    · rw [sent_put, List.map_append, h.sent, hsent]
    · rw [sent_put_other, h.sent, hs]

omit [Zero K] [LinearOrder K] in
/-- So does what changes neither the history nor the device's sessions with
the other user. -/
theorem Begun.put_of_ofUser (h : Begun dev q e x log s)
    (hst : store.ofUser (dev p.other).username = (s.store p).ofUser (dev p.other).username) :
    Begun dev q e x log (s.put p store [] []) := by
  refine h.put ?_ rfl rfl rfl (List.append_nil _).symm
  rcases h.ends p with ⟨r, hr, hp⟩ | hw
  · exact Or.inl ⟨r, hst.trans hr, hp⟩
  · exact Or.inr { hw with ofUser := hst.trans hw.ofUser }

/-! ## Sending -/

omit [LinearOrder K] in
/-- A send that returned keeps the session. -/
theorem Begun.send (h : Begun dev q e x log s) {r r' : NewRatchet K}
    (hp : Session.PartyInv S x (startKeys dev q e) (q.role p) log r) {k : K}
    {hd : MessageHeader K} (hr : r.advanceSend S = (.ok (k, hd), r')) {m : DeviceMessage K}
    (hidx : m.header.messageIndex = hd.messageIndex) (hdh : m.header.dhPublic = hd.dhPublic)
    (hst : store.ofUser (dev p.other).username = Finmap.singleton (dev p.other).device.1 r') :
    ∃ log', Begun dev q e x log' (s.put p store [] [(k, m)]) := by
  have hlt : ((sentBy (q.role p) log).length : ℤ) < intMax := by
    refine lt_of_le_of_ne hp.sent_le fun heq => ?_
    rw [NewRatchet.advanceSend_overflow hp.notDue (by rw [hp.sendChain]; exact heq)] at hr
    cases hr
  obtain ⟨k', hd', r₁, hr₁, hp'⟩ := hp.send hlt
  obtain ⟨hkh, rfl⟩ := Prod.mk.inj (hr₁.symm.trans hr)
  obtain ⟨rfl, rfl⟩ := Prod.mk.inj (Except.ok.inj hkh)
  have hne := Side.role_ne q p
  refine ⟨log ++ [.sent (q.role p) k' m.header],
    h.put (Or.inl ⟨_, hst, hp' m.header hidx hdh⟩) ?_ (deliveredTo_sent ..) ?_ ?_⟩
  · rw [sentBy_sent, if_neg hne]
  · rw [returnedTo_sent, if_neg hne]
  · rw [sentBy_sent, if_pos rfl]
    rfl

omit [LinearOrder K] in
/-- A send that threw was at the end of the counter, and left the ratchet as
it was. -/
theorem Begun.send_error (h : Begun dev q e x log s) {r r' : NewRatchet K}
    (hp : Session.PartyInv S x (startKeys dev q e) (q.role p) log r) {f : Fault}
    (hr : r.advanceSend S = (.error f, r'))
    (hst : store.ofUser (dev p.other).username = Finmap.singleton (dev p.other).device.1 r') :
    Begun dev q e x log (s.put p store [] []) := by
  rcases hp.sent_le.lt_or_eq with hlt | heq
  · obtain ⟨k', hd', r₁, hr₁, -⟩ := hp.send hlt
    cases (Prod.mk.inj (hr₁.symm.trans hr)).1
  · rw [NewRatchet.advanceSend_overflow hp.notDue (by rw [hp.sendChain]; exact heq)] at hr
    obtain rfl := (Prod.mk.inj hr).2
    exact h.put (Or.inl ⟨_, hst, hp⟩) rfl rfl rfl (List.append_nil _).symm

/-- **A send in a session**, the sessions with the other user being ensured:
the ratchet returns and the message is posted, or it throws. -/
theorem Begun.step_send {reply : Option (Option (BundleReply K))} {st : SessionStore K}
    {posted : List (SendingKeyBundle K)}
    (hc : (s.store p).ensureRatchets S (dev p).ks (dev p.other).username
      (newBundles dev p reply) = ⟨.ok (), posted, st⟩)
    (h : Begun dev q e x log (s.put p st posted [])) (uuid : String) (fKek nonce : List UInt8) :
    ∃ log', Begun dev q e x log' (s.step A dev (.send p reply uuid fKek nonce)) := by
  have hdev := KeyStore.getPublicKey_eq (dev p).device_stored
  have hend := h.ends p
  rw [store_put] at hend
  rcases hend with ⟨r, hst, hp⟩ | hw
  · cases hr : r.advanceSend S with
    | mk result r' =>
      cases result with
      | error f =>
        obtain ⟨st', hout, hst'⟩ :=
          allowAccessToFile_of_error (A := A) hdev hc hst hr uuid fKek fun _ => nonce
        refine ⟨log, ?_⟩
        simp only [step, hout, List.map_nil]
        rw [← put_put s p st]
        exact h.send_error hp hr hst'
      | ok kh =>
        obtain ⟨k, hd⟩ := kh
        obtain ⟨st', m, hout, hst', hidx, hdh⟩ :=
          allowAccessToFile_of_ok (A := A) hdev hc hst hr uuid fKek fun _ => nonce
        simp only [step, hout, List.filter_cons, decide_true, if_true, List.filter_nil,
          List.map_cons, List.map_nil]
        rw [← put_put s p st]
        exact h.send hp hr hidx hdh hst'
  · obtain ⟨st', hout, hst'⟩ :=
      allowAccessToFile_of_empty (A := A) hdev hc hw.ofUser uuid fKek fun _ => nonce
    refine ⟨log, ?_⟩
    simp only [step, hout, List.filter_nil, List.map_nil]
    rw [← put_put s p st]
    refine h.put_of_ofUser ?_
    rw [store_put, hst', hw.ofUser]

omit [Zero K] [LinearOrder K] in
/-- Nothing has happened yet when a device has only looked. -/
theorem Start.put (h : s.Start dev) (hst : store.ofUser (dev p.other).username = ∅) :
    (s.put p store [] []).Start dev where
  ofUser p' := by
    rcases Side.eq_or_eq_other p p' with rfl | rfl
    · rwa [store_put]
    · rw [store_put_other]
      exact h.ofUser p.other
  posted p' := by
    rcases Side.eq_or_eq_other p p' with rfl | rfl
    · rw [posted_put, h.posted, List.append_nil]
    · rw [posted_put_other, h.posted]
  sent p' := by
    rcases Side.eq_or_eq_other p p' with rfl | rfl
    · rw [sent_put, h.sent, List.append_nil]
    · rw [sent_put_other, h.sent]
  received := h.received

omit [Zero K] [LinearOrder K] in
/-- Nor when a poll for messages was answered with none. -/
theorem Start.take (h : s.Start dev) (hst : store.ofUser (dev p.other).username = ∅) :
    (s.take p store []).Start dev where
  ofUser p' := by
    rcases Side.eq_or_eq_other p p' with rfl | rfl
    · rwa [store_take]
    · rw [store_take_other]
      exact h.ofUser p.other
  posted := h.posted
  sent := h.sent
  received p' := by
    rcases Side.eq_or_eq_other p p' with rfl | rfl
    · rw [received_take, h.received, List.append_nil]
    · rw [received_take_other, h.received]

omit [LinearOrder K] in
/-- **A session is started** by the ratchet of a first bundle. -/
theorem Start.begun (h : s.Start dev) {reply : BundleReply K} {r : NewRatchet K}
    (hr : ((dev p).bundle (dev p.other) reply).createRatchet S (dev p).ks = .ok r)
    (hst : store.ofUser (dev p.other).username = Finmap.singleton (dev p.other).device.1 r) :
    ∃ x, Begun dev p reply.ephemeral x []
      (s.put p store [(dev p).bundle (dev p.other) reply] []) := by
  obtain ⟨secret, -, hr⟩ := exists_of_bind_eq_ok hr
  obtain ⟨x, hx, rfl⟩ := NewRatchet.exists_of_newInitiator S hr
  have hsent : ∀ p', (s.put p store [(dev p).bundle (dev p.other) reply] []).sent p' = [] := by
    intro p'
    rcases Side.eq_or_eq_other p p' with rfl | rfl
    · rw [sent_put, h.sent, List.append_nil]
    · rw [sent_put_other, h.sent]
  refine ⟨x,
    { dh := hx
      ends := fun p' => ?_
      started := ?_
      posted := ?_
      notPosted := ?_
      sent := fun p' => by rw [hsent]; rfl
      agreed := fun p' i k hik => ?_ }⟩
  · rcases Side.eq_or_eq_other p p' with rfl | rfl
    · rw [store_put]
      refine Or.inl ⟨_, hst, ?_⟩
      rw [Side.role_self]
      exact Session.partyInv_initial .initiator
    · rw [store_put_other]
      exact Or.inr ⟨rfl, h.ofUser p.other, rfl, rfl, rfl⟩
  · rw [posted_put, h.posted]
    exact List.cons_ne_nil _ _
  · rw [posted_put, h.posted]
    intro b hb
    rw [List.mem_singleton.mp hb]
    rfl
  · rw [posted_put_other, h.posted]
  · rw [received_put, h.received] at hik
    cases hik

/-- A send that is given no bundle, and a user it has no session with: nothing
is sent. -/
theorem Start.step_send_none (h : s.Start dev) (p : Side)
    {reply : Option (Option (BundleReply K))}
    (hnone : ∀ bundles, newBundles dev p reply = some bundles → ∀ b ∈ bundles,
      ((s.store p).session (dev p.other).username b.theirDevicePublic).isSome)
    (uuid : String) (fKek nonce : List UInt8) :
    (s.step A dev (.send p reply uuid fKek nonce)).Start dev := by
  obtain ⟨st, hc, hst⟩ := SessionStore.ensureRatchets_of_sessions (S := S) hnone
  obtain ⟨st', hout, hst'⟩ := allowAccessToFile_of_empty (A := A)
    (KeyStore.getPublicKey_eq (dev p).device_stored) hc ((hst _).trans (h.ofUser p)) uuid fKek
    fun _ => nonce
  simp only [step, hout, List.filter_nil, List.map_nil]
  exact h.put hst'

/-- **The first send** starts the session, if the secret can be computed. -/
theorem Start.step_send (h : s.Start dev) (p : Side) (reply : BundleReply K) (uuid : String)
    (fKek nonce : List UInt8) :
    Inv dev (s.step A dev (.send p (some (some reply)) uuid fKek nonce)) := by
  set bundle := (dev p).bundle (dev p.other) reply with hbundle
  have hnone : (s.store p).session (dev p.other).username
      (KeyBundle.sending bundle).getTheirDevicePublic = none :=
    SessionStore.session_of_empty (h.ofUser p) _
  have hc : (s.store p).ensureRatchets S (dev p).ks (dev p.other).username
      (newBundles dev p (some (some reply))) = _ :=
    SessionStore.createRatchetsIfNeeded_of_none hnone true
  cases hr : bundle.createRatchet S (dev p).ks with
  | error f =>
    rw [show (KeyBundle.sending bundle).createRatchet S (dev p).ks = .error f from hr] at hc
    refine Or.inl ?_
    simp only [step, allowAccessToFile, SessionStore.getKeysForIdentity, hc, List.map_nil]
    exact h.put (by rw [SessionStore.ofUser_touch, h.ofUser p])
  | ok r =>
    rw [show (KeyBundle.sending bundle).createRatchet S (dev p).ks = .ok r from hr] at hc
    have hst : ((((s.store p).hold (dev p.other).username (dev p.other).device.1 r).save
        (dev p.other).username (dev p.other).device.1 r).touch (dev p.other).username).ofUser
          (dev p.other).username = Finmap.singleton (dev p.other).device.1 r := by
      rw [SessionStore.ofUser_touch, SessionStore.ofUser_save, SessionStore.ofUser_hold,
        h.ofUser p]
      rfl
    obtain ⟨x, hbegun⟩ := h.begun hr hst
    obtain ⟨log, hlog⟩ := hbegun.step_send (A := A) hc uuid fKek nonce
    exact Or.inr ⟨p, _, x, log, hlog⟩

/-! ## Polling for handshakes -/

omit [LinearOrder K] in
/-- The ratchet a device makes of the other's handshake is the other end of
the session. -/
theorem partyInv_receiving (hS : S.Commutes)
    (hx : S.scalarmult e (S.boxPublic (dev p).signed) = some x) {r : NewRatchet K}
    {secret : K} (hr : NewRatchet.newRecipient S (S.boxPublic (dev p).signed, (dev p).signed)
      secret (S.boxPublic e) = .ok r) (hw : Waits dev p.other log p store) :
    Session.PartyInv S x (startKeys dev p.other e) .recipient log r := by
  obtain ⟨x', hx', rfl⟩ := NewRatchet.exists_of_newRecipient S hr
  obtain rfl : x = x' := Option.some.inj ((hx.symm.trans (hS e (dev p).signed)).trans hx')
  have hkeys : startKeys dev p.other e = Session.startKeys e (dev p).signed := by
    rw [startKeys, Side.other_other]
  rw [hkeys]
  exact (Session.partyInv_initial .recipient).congr_log hw.sent hw.delivered hw.returned

/-- One handshake keeps the end of the device that did not start the
session: it becomes the other end, or is ignored. -/
theorem ends_handshake (hS : S.Commutes)
    (hx : S.scalarmult e (S.boxPublic (dev p).signed) = some x) {bundle : SendingKeyBundle K}
    (hb : bundle.myEphemeralPublic = S.boxPublic e)
    (hend : Holds dev p.other e x log p store ∨ Waits dev p.other log p store) :
    let out := SessionStore.createRatchetsIfNeeded S (dev p).ks (dev p.other).username true
      [.receiving (bundle.relayed (dev p.other).device.1 (dev p).device.1)] store
    Holds dev p.other e x log p out.store ∨ Waits dev p.other log p out.store := by
  intro out
  rcases hend with ⟨r, hst, hp⟩ | hw
  · have hsome : (store.session (dev p.other).username (KeyBundle.receiving (bundle.relayed
        (dev p.other).device.1 (dev p).device.1)).getTheirDevicePublic).isSome :=
      Option.isSome_iff_exists.mpr ⟨r, SessionStore.session_of_singleton hst⟩
    have hout : out = ⟨.ok (), [], store.touch (dev p.other).username⟩ :=
      SessionStore.createRatchetsIfNeeded_of_session hsome true []
    refine Or.inl ⟨r, ?_, hp⟩
    rw [hout, SessionStore.ofUser_touch, hst]
  · have hnone : store.session (dev p.other).username (KeyBundle.receiving (bundle.relayed
        (dev p.other).device.1 (dev p).device.1)).getTheirDevicePublic = none :=
      SessionStore.session_of_empty hw.ofUser _
    have hout := (SessionStore.createRatchetsIfNeeded_of_none hnone true :
      SessionStore.createRatchetsIfNeeded S (dev p).ks _ _ _ _ = _)
    change out = _ at hout
    cases hr : (bundle.relayed (dev p.other).device.1 (dev p).device.1).createRatchet S
        (dev p).ks with
    | error f =>
      rw [hout, show (KeyBundle.receiving _).createRatchet S (dev p).ks = .error f from hr]
      exact Or.inr { hw with ofUser := by rw [SessionStore.ofUser_touch, hw.ofUser] }
    | ok r =>
      rw [hout, show (KeyBundle.receiving _).createRatchet S (dev p).ks = .ok r from hr]
      obtain ⟨secret, -, hr⟩ := exists_of_bind_eq_ok hr
      rw [KeyStore.getDecryptedKeypair_eq (dev p).signed_stored, ok_bind] at hr
      change NewRatchet.newRecipient S _ secret bundle.myEphemeralPublic = _ at hr
      rw [hb] at hr
      refine Or.inl ⟨r, ?_, ?_⟩
      · rw [SessionStore.ofUser_touch, SessionStore.ofUser_save]
        show (store.hold _ (dev p.other).device.1 r).ofUser _ = _
        rw [SessionStore.ofUser_hold, hw.ofUser]
        rfl
      · rw [Side.other_role]
        exact partyInv_receiving hS hx hr hw

/-- So does a poll. -/
theorem ends_updateHandshakes (hS : S.Commutes)
    (hx : S.scalarmult e (S.boxPublic (dev p).signed) = some x)
    (bundles : List (SendingKeyBundle K))
    (hb : ∀ b ∈ bundles, b.myEphemeralPublic = S.boxPublic e)
    (hend : Holds dev p.other e x log p store ∨ Waits dev p.other log p store) :
    let out := store.updateHandshakes S (dev p).ks (bundles.map fun b =>
      ((dev p.other).username, b.relayed (dev p.other).device.1 (dev p).device.1))
    Holds dev p.other e x log p out.2 ∨ Waits dev p.other log p out.2 := by
  induction bundles generalizing store with
  | nil => exact hend
  | cons b bundles ih =>
    have hend₁ := ends_handshake hS hx (hb b List.mem_cons_self) hend
    simp only [List.map_cons, SessionStore.updateHandshakes] at hend₁ ⊢
    cases hres : (SessionStore.createRatchetsIfNeeded S (dev p).ks (dev p.other).username true
      [.receiving (b.relayed (dev p.other).device.1 (dev p).device.1)] store).result with
    | error f => exact hend₁
    | ok _ => exact ih (fun b hb' => hb b (List.mem_cons_of_mem _ hb')) hend₁

omit [Zero K] [LinearOrder K] in
/-- What a poll for handshakes answers with was posted by the other
device. -/
theorem exists_handshakesFor (dev : Side → Device S) (s : Exchange K) (p : Side) (batch : List ℕ) :
    ∃ bundles : List (SendingKeyBundle K), (∀ b ∈ bundles, b ∈ s.posted p.other)
      ∧ s.handshakesFor dev p batch = bundles.map fun b =>
        ((dev p.other).username, b.relayed (dev p.other).device.1 (dev p).device.1) := by
  refine ⟨batch.filterMap fun i => (s.posted p.other)[i]?, fun b hb => ?_, ?_⟩
  · obtain ⟨i, -, hi⟩ := List.mem_filterMap.mp hb
    exact List.mem_of_getElem? hi
  · rw [handshakesFor, List.map_filterMap]

/-- A poll for handshakes keeps the session. -/
theorem Begun.step_pollHandshakes (hS : S.Commutes) (h : Begun dev q e x log s) (p : Side)
    (batch : List ℕ) : Begun dev q e x log (s.step A dev (.pollHandshakes p batch)) := by
  obtain ⟨bundles, hmem, hbundles⟩ := exists_handshakesFor dev s p batch
  show Begun dev q e x log (s.put p _ [] [])
  rw [hbundles]
  rcases Side.eq_or_eq_other p q with rfl | rfl
  · -- the other device has posted nothing
    obtain rfl : bundles = [] := List.eq_nil_iff_forall_not_mem.mpr fun b hb => by
      have := hmem b hb
      rw [h.notPosted] at this
      cases this
    exact h.put_of_ofUser rfl
  · have hx := h.dh
    rw [Side.other_other] at hx
    have hend := ends_updateHandshakes hS hx bundles (fun b hb => h.posted b (hmem b hb)) (h.ends p)
    exact h.put hend rfl rfl rfl (List.append_nil _).symm

/-! ## Polling for messages -/

omit [Zero K] [LinearOrder K] in
/-- A poll keeps the session, if it keeps the end of the device that polled,
adds nothing to the other's part of the history, and returned the keys of
messages the other sent. -/
theorem Begun.take (h : Begun dev q e x log s) {log' : List (Event K)} {received : List (ℕ × K)}
    (hend : Holds dev q e x log' p store ∨ Waits dev q log' p store)
    (hs : ∀ p, sentBy p log' = sentBy p log)
    (hd : deliveredTo (q.role p.other) log' = deliveredTo (q.role p.other) log)
    (hr : returnedTo (q.role p.other) log' = returnedTo (q.role p.other) log)
    (hrec : ∀ i k, (i, k) ∈ received → ∃ m, (s.sent p.other)[i]? = some (k, m)) :
    Begun dev q e x log' (s.take p store received) where
  dh := h.dh
  ends p' := by
    rcases Side.eq_or_eq_other p p' with rfl | rfl
    · rwa [store_take]
    · rw [store_take_other]
      exact ends_congr (h.ends p.other) (hs _) hd hr
  started := h.started
  posted := h.posted
  notPosted := h.notPosted
  sent p' := by rw [hs]; exact h.sent p'
  agreed p' i k hik := by
    rcases Side.eq_or_eq_other p p' with rfl | rfl
    · rw [received_take, List.mem_append] at hik
      exact hik.elim (h.agreed p' i k) (hrec i k)
    · rw [received_take_other] at hik
      exact h.agreed p.other i k hik

omit [Zero K] [LinearOrder K] in
/-- A poll that answered nothing and left the sessions alone. -/
theorem Begun.take_nil (h : Begun dev q e x log s)
    (hst : store.ofUser (dev p.other).username = (s.store p).ofUser (dev p.other).username) :
    Begun dev q e x log (s.take p store []) := by
  refine h.take ?_ (fun _ => rfl) rfl rfl (fun i k hik => absurd hik List.not_mem_nil)
  rcases h.ends p with ⟨r, hr, hp⟩ | hw
  · exact Or.inl ⟨r, hst.trans hr, hp⟩
  · exact Or.inr { hw with ofUser := hst.trans hw.ofUser }

omit [Zero K] [LinearOrder K] in
/-- A session with a device of the other user is the device's end of the one
session there is. -/
theorem Begun.of_session [DecidableEq K] (h : Begun dev q e x log s) {device : K}
    {r : NewRatchet K}
    (hr : (s.store p).session (dev p.other).username device = some r) :
    device = (dev p.other).device.1
      ∧ (s.store p).ofUser (dev p.other).username = Finmap.singleton (dev p.other).device.1 r
      ∧ Session.PartyInv S x (startKeys dev q e) (q.role p) log r := by
  rcases h.ends p with ⟨r₀, hst, hp⟩ | hw
  · obtain ⟨hdevice, rfl⟩ := SessionStore.eq_of_session_of_singleton hst hr
    exact ⟨hdevice, hst, hp⟩
  · cases (SessionStore.session_of_empty hw.ofUser device).symm.trans hr

omit [Zero K] in
/-- **One message of a poll**: the key that is returned, if one is, is the
one the message was sent under. -/
theorem Begun.round (h : Begun dev q e x log s) {i : ℕ} {k : K} {m : DeviceMessage K}
    (hm : (s.sent p.other)[i]? = some (k, m)) (fresh : K) :
    ∃ log', Begun dev q e x log' (s.take p
        (updateMessage S A ⟨(dev p.other).username, m, fresh⟩ (s.store p)).store
        ([i].zip (updateMessage S A ⟨(dev p.other).username, m, fresh⟩ (s.store p)).keys)) := by
  obtain ⟨hk, hi, hdh, hlt⟩ := h.message hm
  cases hsession : (s.store p).session (dev p.other).username m.header.deviceId with
  | none =>
    -- no session yet: the call throws and changes nothing
    obtain ⟨what, hout⟩ := updateMessage_of_none (S := S) (A := A) (m := ⟨_, m, fresh⟩) hsession
    refine ⟨log, ?_⟩
    rw [hout]
    exact h.take_nil rfl
  | some r =>
    obtain ⟨hdevice, hst, hp⟩ := h.of_session hsession
    rw [Side.role_other] at hk hdh
    obtain ⟨result, r', hr, hres, hp'⟩ := hp.deliver hi hdh hlt fresh
    obtain ⟨hkeys, hstore⟩ :=
      updateMessage_of_session (A := A) (m := ⟨_, m, fresh⟩) hsession hr
    have hne := Side.role_ne q p
    refine ⟨log ++ [.received (q.role p) i result], h.take (Or.inl ⟨r', ?_, hp'⟩)
      (fun _ => sentBy_received ..) (by rw [deliveredTo_received, if_neg hne])
      (returnedTo_received_of_ne _ hne i result) fun j k' hjk => ?_⟩
    · rw [hstore]
      show ((s.store p).ofUser (dev p.other).username).insert m.header.deviceId r' = _
      rw [hst, hdevice, Finmap.insert_singleton_eq]
    · -- the one key that may have been returned is that of position `i`
      rw [hkeys] at hjk
      cases htake : (OneShot.takeAll ⟨(S.initialChain x (q.role p).peer).messageKey S.chainStep,
          ∅⟩ (deliveredTo (q.role p) log) |>.take i).1 with
      | none =>
        rw [hres, htake] at hjk
        cases hjk
      | some key =>
        rw [hres, htake] at hjk
        obtain ⟨rfl, rfl⟩ := Prod.mk.inj (List.mem_singleton.mp hjk)
        refine ⟨m, ?_⟩
        rw [OneShot.eq_key_of_take htake, OneShot.takeAll_key, hm, hk]

omit [Zero K] in
/-- **A batch of messages** the other device sent, in any order and any
number of times, keeps the session. -/
theorem Begun.batch (h : Begun dev q e x log s) (messages : List (ℕ × Incoming K))
    (hmessages : ∀ im ∈ messages, im.2.username = (dev p.other).username
      ∧ ∃ k, (s.sent p.other)[im.1]? = some (k, im.2.message)) :
    let out := updateMessages S A (messages.map (·.2)) (s.store p)
    ∃ log', Begun dev q e x log' (s.take p out.store ((messages.map (·.1)).zip out.keys)) := by
  induction messages generalizing s log with
  | nil => exact ⟨log, h.take_nil rfl⟩
  | cons im messages ih =>
    obtain ⟨i, username, m, fresh⟩ := im
    obtain ⟨husername, k, hm⟩ := hmessages _ List.mem_cons_self
    change username = _ at husername
    subst husername
    obtain ⟨log', hround⟩ := h.round (A := A) hm fresh
    simp only [List.map_cons, updateMessages]
    rcases updateMessage_keys (S := S) (A := A) ⟨(dev p.other).username, m, fresh⟩ (s.store p)
      with ⟨key, hkeys⟩ | ⟨hkeys, e, hresult⟩
    · cases hresult : (updateMessage S A ⟨(dev p.other).username, m, fresh⟩ (s.store p)).result with
      | error e =>
        refine ⟨log', ?_⟩
        rw [hkeys] at hround
        rw [Polled.andThen, hresult, hkeys]
        simpa using hround
      | ok _ =>
        -- the rest of the batch starts from what this message left
        obtain ⟨log'', hrest⟩ := ih hround fun im him =>
          hmessages im (List.mem_cons_of_mem _ him)
        refine ⟨log'', ?_⟩
        rw [take_take, store_take, hkeys] at hrest
        rw [Polled.andThen_ok hresult, hkeys]
        exact hrest
    · refine ⟨log', ?_⟩
      rw [hkeys, List.zip_nil_right] at hround
      rw [Polled.andThen, hresult, hkeys, List.zip_nil_right]
      exact hround

omit [Zero K] [LinearOrder K] in
/-- What a poll for messages answers with was sent by the other device. -/
theorem of_mem_messagesFor {batch : List (ℕ × K)} {im : ℕ × Incoming K}
    (him : im ∈ s.messagesFor dev p batch) :
    im.2.username = (dev p.other).username
      ∧ ∃ k, (s.sent p.other)[im.1]? = some (k, im.2.message) := by
  obtain ⟨i, -, hi⟩ := List.mem_filterMap.mp him
  obtain ⟨⟨k, m⟩, hm, rfl⟩ := Option.map_eq_some_iff.mp hi
  exact ⟨rfl, k, hm⟩

/-- A poll for messages keeps the session. -/
theorem Begun.step_pollMessages (h : Begun dev q e x log s) (p : Side) (batch : List (ℕ × K)) :
    ∃ log', Begun dev q e x log' (s.step A dev (.pollMessages p batch)) :=
  h.batch (s.messagesFor dev p batch) fun _ => of_mem_messagesFor

/-! ## Along a run -/

omit [Zero K] [LinearOrder K] in
/-- Nothing posted, nothing answered. -/
theorem Start.handshakesFor (h : s.Start dev) (p : Side) (batch : List ℕ) :
    s.handshakesFor dev p batch = [] := by
  unfold Exchange.handshakesFor
  simp only [h.posted, List.getElem?_nil, Option.map_none, List.filterMap_none]

omit [Zero K] [LinearOrder K] in
theorem Start.messagesFor (h : s.Start dev) (p : Side) (batch : List (ℕ × K)) :
    s.messagesFor dev p batch = [] := by
  unfold Exchange.messagesFor
  simp only [h.sent, List.getElem?_nil, Option.map_none, List.filterMap_none]

/-- Before there is a session, a step in turn starts one or leaves things as
they are. -/
theorem Start.step (h : s.Start dev) (st : Step K) : Inv dev (s.step A dev st) := by
  cases st with
  | send p reply uuid fKek nonce =>
    rcases reply with _ | _ | reply
    · exact Or.inl (h.step_send_none p (by nofun) uuid fKek nonce)
    · refine Or.inl (h.step_send_none p ?_ uuid fKek nonce)
      rintro _ ⟨⟩ b hb
      cases hb
    · exact h.step_send p reply uuid fKek nonce
  | pollHandshakes p batch =>
    refine Or.inl ?_
    show (s.put p _ [] []).Start dev
    rw [h.handshakesFor]
    exact h.put (h.ofUser p)
  | pollMessages p batch =>
    refine Or.inl ?_
    show (s.take p _ _).Start dev
    rw [h.messagesFor]
    exact h.take (h.ofUser p)

/-- **A step in turn keeps the session.** -/
theorem Begun.step (hS : S.Commutes) (h : Begun dev q e x log s) {st : Step K}
    (hturn : s.InTurn dev st) : ∃ log', Begun dev q e x log' (s.step A dev st) := by
  cases st with
  | send p reply uuid fKek nonce =>
    have hsessions : ∀ bundles, newBundles dev p reply = some bundles → ∀ b ∈ bundles,
        ((s.store p).session (dev p.other).username b.theirDevicePublic).isSome := by
      intro bundles hbundles b hb
      rcases reply with _ | _ | reply
      · cases hbundles
      · cases hbundles
        cases hb
      · cases hbundles
        rw [List.mem_singleton.mp hb]
        rcases hturn with hsession | hposted
        · exact hsession
        · -- the other has posted nothing, so this device is the one that started
          rcases h.ends p with ⟨r, hst, -⟩ | hw
          · exact Option.isSome_iff_exists.mpr ⟨r, SessionStore.session_of_singleton hst⟩
          · rw [hw.side, Side.other_other] at hposted
            exact absurd hposted h.started
    obtain ⟨st, hc, hst⟩ := SessionStore.ensureRatchets_of_sessions (S := S) hsessions
    exact (h.put_of_ofUser (hst _)).step_send hc uuid fKek nonce
  | pollHandshakes p batch => exact ⟨log, h.step_pollHandshakes hS p batch⟩
  | pollMessages p batch => exact h.step_pollMessages p batch

/-- **One step in turn keeps the invariant.** -/
theorem inv_step (hS : S.Commutes) (h : Inv dev s) {st : Step K} (hturn : s.InTurn dev st) :
    Inv dev (s.step A dev st) := by
  rcases h with h | ⟨q, e, x, log, h⟩
  · exact h.step st
  · obtain ⟨log', h'⟩ := h.step hS hturn
    exact Or.inr ⟨q, e, x, log', h'⟩

/-- And so does every run in turn. -/
theorem run_inv (hS : S.Commutes) (h : Inv dev s) {steps : List (Step K)}
    (hturns : s.InTurns A dev steps) : Inv dev (s.run A dev steps) := by
  induction steps generalizing s with
  | nil => exact h
  | cons st steps ih => exact ih (inv_step hS h hturns.1) hturns.2

/-- **Two devices agree, if they start in turn.** Whichever of the two sends
first, and however sends and polls of both interleave, every key that is
returned for a message is the one its sender used – as long as a device that
has a handshake of the other waiting does not start a session of its own. -/
theorem agreed_of_inTurns (hS : S.Commutes) (hstart : s.Start dev) {steps : List (Step K)}
    (hturns : s.InTurns A dev steps) : (s.run A dev steps).Agreed := by
  rcases run_inv hS (Or.inl hstart) hturns with h | ⟨q, e, x, log, h⟩
  · intro p i k hik
    rw [h.received] at hik
    cases hik
  · exact h.agreed

end Exchange

/-- A device of the ideal library, with 40 its one-time prekey. -/
def Device.ideal (username : String) (device signed : ℕ) : Device Sodium.ideal where
  username := username
  ks :=
    { keypairs
        | .device => some (Sodium.ideal.signPublic device, device)
        | .signed => some (Sodium.ideal.boxPublic signed, signed)
      onetimePrekeys := [(Sodium.ideal.boxPublic 40, 40)] }
  device := (Sodium.ideal.signPublic device, device)
  signed := signed
  device_stored := rfl
  signed_stored := rfl

namespace Exchange

/-- Two devices of the ideal library, and nothing between them. -/
def idealDevices : Side → Device Sodium.ideal
  | .a => .ideal "alice" 3 16
  | .b => .ideal "bob" 5 24

def ideal : Exchange ℕ := ⟨fun _ => ⟨∅, ∅, ∅⟩, fun _ => [], fun _ => [], fun _ => []⟩

theorem ideal_start : ideal.Start idealDevices where
  ofUser _ := rfl
  posted _ := rfl
  sent _ := rfl
  received _ := rfl

/-- A send for which the server offers the other device's bundle. -/
def firstSend (p : Side) (ephemeral : ℕ) : Step ℕ :=
  .send p (some (some
    { ephemeral := ephemeral
      onetime := some (Sodium.ideal.boxPublic 40)
      signature := Sodium.ideal.signDetached (idealDevices p.other).device.2
        (Sodium.ideal.boxPublic (idealDevices p.other).signed) }))
    "file" [1, 2, 3] (List.replicate nonceBytes 0)

/-- One device sends, the other polls for handshakes and then for messages:
it gets the sender's key. -/
theorem agreed_oneStarts :
    (ideal.run SessionStore.tagged idealDevices
        [firstSend .a 8, .pollHandshakes .b [0], .pollMessages .b [(0, 9)]]).Agreed
      ∧ ((ideal.run SessionStore.tagged idealDevices
        [firstSend .a 8, .pollHandshakes .b [0], .pollMessages .b [(0, 9)]]).received .b).length
          = 1 := by
  refine ⟨agreed_of_inTurns Sodium.ideal_commutes ideal_start ?_, by decide +kernel⟩
  exact ⟨Or.inr rfl, trivial, trivial, trivial⟩

/-- Both send before either has polled: the handshake is ignored, and the key
returned for the first message is not the sender's. -/
theorem not_agreed_bothStart :
    ¬ (ideal.run SessionStore.tagged idealDevices
        [firstSend .a 8, firstSend .b 11, .pollHandshakes .b [0],
          .pollMessages .b [(0, 9)]]).Agreed := by
  set s := ideal.run SessionStore.tagged idealDevices
    [firstSend .a 8, firstSend .b 11, .pollHandshakes .b [0], .pollMessages .b [(0, 9)]] with hs
  obtain ⟨hfirst, hne⟩ : (s.received .b).map (·.1) = [0]
      ∧ (s.received .b).map (some ·.2) ≠ [(s.sent .a)[0]?.map (·.1)] := by
    rw [hs]
    decide +kernel
  obtain ⟨⟨i, k⟩, hone, rfl⟩ := List.map_eq_singleton_iff.mp hfirst
  intro h
  obtain ⟨m, hm⟩ := h .b 0 k (by rw [hone]; exact List.mem_cons_self)
  refine hne ?_
  rw [hone]
  exact congrArg (fun o => [Option.map Prod.fst o]) hm.symm

end Exchange
