import Eastwood.SessionManager

/-!
# Rotating the signed prekey

A device keeps one signed prekey, in a row of its own, and replaces it at a
login when the row is missing or more than 14 days old; the public half is
then uploaded, which may fail. The server advertises the last one it was
sent. A handshake does not say which signed prekey it was made with: the
responder's ratchet takes whatever the row holds when the handshake is
processed.

The two ends of a session agree, then, as long as that row is not replaced
under a handshake that is still waiting, and no handshake is made with a key
that is no longer in the row (`Responder.matches_of_held`).
-/

variable {K : Type}

/-- **The `signed` row of `keypairs`.** -/
structure SignedPrekey (S : Sodium K) where
  keypair : K × K
  lastModified : ℤ
  isKeypair : keypair.1 = S.boxPublic keypair.2

/-- A handshake on its way: who sent it, the bundle it was made of, and the
ratchet the initiator kept. -/
structure Initiated [Zero K] (S : Sodium K) where
  username : String
  device : K
  bundle : SendingKeyBundle K
  ratchet : NewRatchet K
  isKeypair : bundle.myEphemeralPublic = S.boxPublic bundle.myEphemeralPrivate
  isCreated : ∃ ks, bundle.createRatchet S ks = .ok ratchet

/-- **The responder and the server**: the device's key pair, its signed
prekey if it has one, its one-time prekeys and its sessions; the signed
prekey the server advertises, with its signature, and the handshakes posted
for the device. -/
structure Responder [Zero K] (S : Sodium K) where
  device : K × K
  signed : Option (SignedPrekey S)
  onetimePrekeys : List (K × K)
  store : SessionStore K
  advertised : Option (K × List UInt8)
  posted : List (Initiated S)

/-- What a login draws and what it meets: the private keys, the clock – as
`currentDateTime` has it and as the row's timestamp is read back –, and
whether the server accepts the upload. -/
structure Login (K : Type) where
  postNewKeys : Bool
  now : ℤ
  timestamp : ℤ
  signed : K
  onetime : List K
  accepted : Bool

/-- What a peer draws and is offered when it starts a session. -/
structure Initiation (K : Type) where
  username : String
  ks : KeyStore K
  ephemeral : K
  onetime : Option K

/-- What can happen next: a login, a peer starting a session, a poll for
handshakes that is answered with some of those posted. -/
inductive PrekeyStep (K : Type) where
  | login (l : Login K)
  | initiate (i : Initiation K)
  | process (batch : List ℕ)

/-- The body of `/updateKeybundle`: the signed prekey comes with its
signature. -/
structure KeyUpdate (K : Type) where
  onetimeKeys : List K
  signed : Option (K × List UInt8)

/-- `post_new_keybundles`, given the public key pointer, which may be
null. -/
def postNewKeybundles (S : Sodium K) (device : K × K) (signed : Option K)
    (onetimeKeys : List K) : KeyUpdate K where
  onetimeKeys := onetimeKeys
  signed := signed.map fun pk => (pk, S.signDetached device.2 pk)

namespace Responder

variable [Zero K] {S : Sodium K}

/-- The key store of the device. -/
def ks (s : Responder S) : KeyStore K where
  keypairs
    | .device => some s.device
    | .signed => s.signed.map (·.keypair)
  onetimePrekeys := s.onetimePrekeys

/-- 14 days, in seconds. -/
def maxAge : ℤ := 14 * 24 * 60 * 60

/-- A login replaces the signed prekey: it has none, or an old one. -/
def rotates (s : Responder S) (l : Login K) : Bool :=
  l.postNewKeys && s.signed.all fun row => row.lastModified < l.now - maxAge

/-- `generate_signed_prekey`: the row is replaced at once. -/
def generateSignedPrekey (s : Responder S) (l : Login K) : Responder S :=
  { s with signed := some ⟨(S.boxPublic l.signed, l.signed), l.timestamp, rfl⟩ }

/-- `generate_onetime_keys`: rows are added. -/
def generateOnetimeKeys (s : Responder S) (l : Login K) : Responder S :=
  { s with onetimePrekeys := s.onetimePrekeys ++ l.onetime.map fun sk => (S.boxPublic sk, sk) }

/-- An upload the server accepts replaces the prekey it advertises, if it
contains one. -/
def upload (s : Responder S) (update : KeyUpdate K) : Responder S :=
  { s with advertised := update.signed.or s.advertised }

/-- **What `login_user` does to the prekeys.** -/
def login (s : Responder S) (l : Login K) : Responder S :=
  if l.postNewKeys then
    -- the local row is replaced before the upload is known to have succeeded
    let rotated := if s.rotates l then s.generateSignedPrekey l else s
    let prekey := if s.rotates l then some (S.boxPublic l.signed) else none
    let update := postNewKeybundles S s.device prekey (l.onetime.map S.boxPublic)
    let s := rotated.generateOnetimeKeys l
    if l.accepted then s.upload update else s
  else s

/-- **A peer starts a session** with the prekey the server advertises: its
ratchet is created, and the handshake posted. -/
def initiate (s : Responder S) (i : Initiation K) : Responder S :=
  match s.advertised, i.ks.getPublicKey .device with
  | some (signed, signature), .ok me =>
    let bundle := SendingKeyBundle.offered S me i.ephemeral s.device.1 signed i.onetime signature
    match hr : bundle.createRatchet S i.ks with
    | .ok r => { s with posted := s.posted ++ [⟨i.username, me, bundle, r, rfl, i.ks, hr⟩] }
    | .error _ => s
  | _, _ => s

variable [LinearOrder K]

omit [LinearOrder K] in
/-- Posted handshakes as `get_handshake_backlog` returns them. -/
def relay (s : Responder S) (handshakes : List (Initiated S)) :
    List (String × ReceivingKeyBundle K) :=
  handshakes.map fun h => (h.username, h.bundle.relayed h.device s.device.1)

/-- A poll for handshakes. -/
def process (s : Responder S) (handshakes : List (Initiated S)) : Responder S :=
  { s with store := (s.store.updateHandshakes S s.ks (s.relay handshakes)).2 }

/-- **One step.** -/
def step (s : Responder S) : PrekeyStep K → Responder S
  | .login l => s.login l
  | .initiate i => s.initiate i
  | .process batch => s.process (batch.filterMap fun i => s.posted[i]?)

/-- Steps, from first to last. -/
def run (s : Responder S) (steps : List (PrekeyStep K)) : Responder S :=
  steps.foldl step s

/-- **Still held**: a login replaces the signed prekey only if every
handshake posted so far has its session, and a peer without one starts it
only with the prekey that is in the row. -/
def Held (s : Responder S) : PrekeyStep K → Prop
  | .login l => s.rotates l → ∀ h ∈ s.posted, (s.store.session h.username h.device).isSome
  | .initiate i => ∀ me, i.ks.getPublicKey .device = .ok me →
    s.store.session i.username me = none →
      ∀ adv ∈ s.advertised, ∃ row ∈ s.signed, row.keypair.1 = adv.1
  | .process _ => True

/-- Every step is, where it is made. -/
def HeldAlong (s : Responder S) : List (PrekeyStep K) → Prop
  | [] => True
  | st :: steps => s.Held st ∧ HeldAlong (s.step st) steps

/-- **The two ends agree**: the responder's private key is that of the signed
prekey the initiator used, and the chains of the one are those of the
other. -/
structure Matches (h : Initiated S) (r : NewRatchet K) : Prop where
  signed : S.boxPublic r.localDhPriv = h.bundle.theirSignedPublic
  receiveChain : r.receiveChain = h.ratchet.sendChain
  sendChain : r.sendChain = h.ratchet.receiveChain

/-! ## What a step can do -/

variable {s : Responder S} {st : PrekeyStep K}

omit [LinearOrder K] in
/-- A login touches neither the handshakes nor the sessions, and the row only
if it rotates. -/
theorem login_frame (l : Login K) :
    (s.login l).posted = s.posted ∧ (s.login l).store = s.store
      ∧ (s.rotates l = false → (s.login l).signed = s.signed) := by
  unfold login
  cases l.postNewKeys with
  | false => exact ⟨rfl, rfl, fun _ => rfl⟩
  | true =>
    cases s.rotates l with
    | true => cases l.accepted <;> exact ⟨rfl, rfl, nofun⟩
    | false => cases l.accepted <;> exact ⟨rfl, rfl, fun _ => rfl⟩

omit [LinearOrder K] in
/-- A peer posts at most one handshake, made with the advertised prekey. -/
theorem initiate_cases (i : Initiation K) :
    s.initiate i = s ∨ ∃ me adv, ∃ h : Initiated S,
      i.ks.getPublicKey .device = .ok me ∧ s.advertised = some adv
      ∧ h.username = i.username ∧ h.device = me ∧ h.bundle.theirSignedPublic = adv.1
      ∧ s.initiate i = { s with posted := s.posted ++ [h] } := by
  unfold initiate
  split
  · rename_i signed signature me hadv hme
    dsimp only
    split
    · exact Or.inr ⟨me, _, _, hme, hadv, rfl, rfl, rfl, rfl⟩
    · exact Or.inl rfl
  · exact Or.inl rfl

/-! ## The invariant -/

omit [LinearOrder K] in
/-- **A ratchet made of a handshake** with the signed prekey the initiator
used is the other end of the initiator's. -/
theorem matches_of_createRatchet [DecidableEq K] (hS : S.Commutes) {h : Initiated S}
    {row : SignedPrekey S} {ks : KeyStore K} (hrow : ks.keypairs .signed = some row.keypair)
    (hsigned : row.keypair.1 = h.bundle.theirSignedPublic) {recipient : K} {r : NewRatchet K}
    (hr : (h.bundle.relayed h.device recipient).createRatchet S ks = .ok r) : Matches h r := by
  obtain ⟨ks', hcreated⟩ := h.isCreated
  obtain ⟨secret', -, hcreated⟩ := exists_of_bind_eq_ok hcreated
  obtain ⟨x', hx', hinitiator⟩ := NewRatchet.exists_of_newInitiator S hcreated
  obtain ⟨secret, -, hr⟩ := exists_of_bind_eq_ok hr
  rw [KeyStore.getDecryptedKeypair_eq hrow, ok_bind] at hr
  obtain ⟨x, hx, rfl⟩ := NewRatchet.exists_of_newRecipient S hr
  -- both DH outputs are of the same two key pairs
  change S.scalarmult _ h.bundle.myEphemeralPublic = _ at hx
  rw [h.isKeypair, hS] at hx
  rw [← hsigned, row.isKeypair] at hx'
  obtain rfl : x = x' := Option.some.inj (hx.symm.trans hx')
  exact
    { signed := row.isKeypair.symm.trans hsigned
      receiveChain := by rw [hinitiator]; rfl
      sendChain := by rw [hinitiator]; rfl }

/-- **The invariant**: a handshake that waits was made with the prekey in the
row. -/
def Inv (s : Responder S) : Prop :=
  ∀ h ∈ s.posted, s.store.session h.username h.device = none →
    ∃ row ∈ s.signed, row.keypair.1 = h.bundle.theirSignedPublic

/-- A handshake that waits after a poll waited before. -/
theorem waiting_of_updateHandshakes {store : SessionStore K} {ks : KeyStore K}
    {handshakes : List (String × ReceivingKeyBundle K)} {username : String} {device : K}
    (h : (store.updateHandshakes S ks handshakes).2.session username device = none) :
    store.session username device = none := by
  cases hr : store.session username device with
  | none => rfl
  | some r =>
    rw [SessionStore.updateHandshakes_keeps hr] at h
    cases h

/-- **One step keeps the invariant**, if the prekey is still held. -/
theorem inv_step (hs : s.Inv) (hheld : s.Held st) : (s.step st).Inv := by
  cases st with
  | login l =>
    obtain ⟨hposted, hstore, hsigned⟩ := login_frame (s := s) l
    show (s.login l).Inv
    unfold Inv
    rw [hposted, hstore]
    cases hr : s.rotates l with
    | true =>
      intro h hh hnone
      have hsome := hheld hr h hh
      rw [hnone] at hsome
      cases hsome
    | false =>
      rw [hsigned hr]
      exact hs
  | initiate i =>
    show (s.initiate i).Inv
    rcases initiate_cases (s := s) i with heq | ⟨me, adv, h, hme, hadv, hu, hd, hsigned, heq⟩
    · rw [heq]
      exact hs
    · rw [heq]
      intro h' hh' hnone
      rcases List.mem_append.mp hh' with hold | hnew
      · exact hs h' hold hnone
      · obtain rfl := List.mem_singleton.mp hnew
        rw [hu, hd] at hnone
        rw [hsigned]
        exact hheld me hme hnone adv hadv
  | process batch => exact fun h hh hnone => hs h hh (waiting_of_updateHandshakes hnone)

/-- And so does a run. -/
theorem run_inv (hs : s.Inv) {steps : List (PrekeyStep K)} (hheld : s.HeldAlong steps) :
    (s.run steps).Inv := by
  induction steps generalizing s with
  | nil => exact hs
  | cons st steps ih => exact ih (inv_step hs hheld.1) hheld.2

/-- **The signed prekey a peer used is still held** in every state of a run
in which no login replaces it under a waiting handshake and no handshake is
made with another: whichever handshakes are processed there, the ratchet made
of one is the other end of its initiator's. -/
theorem matches_of_held (hS : S.Commutes) (hstart : s.posted = [])
    {steps : List (PrekeyStep K)} (hheld : s.HeldAlong steps) {pre post : List (Initiated S)}
    {h : Initiated S} (hh : h ∈ (s.run steps).posted) {r : NewRatchet K}
    (hpre : ((s.run steps).store.updateHandshakes S (s.run steps).ks
      ((s.run steps).relay pre)).1 = .ok ())
    (hnone : ((s.run steps).process pre).store.session h.username h.device = none)
    (hsome : ((s.run steps).process (pre ++ h :: post)).store.session h.username h.device
      = some r) : Matches h r := by
  have hinv : (s.run steps).Inv := run_inv (by simp [Inv, hstart]) hheld
  set t := s.run steps
  obtain ⟨row, hrow, hsigned⟩ := hinv h hh (waiting_of_updateHandshakes hnone)
  have hkeypair : t.ks.keypairs .signed = some row.keypair := by
    show t.signed.map (·.keypair) = _
    rw [hrow]
    rfl
  rw [process, relay, List.map_append, ← relay] at hsome
  rw [SessionStore.updateHandshakes_append hpre] at hsome
  exact matches_of_createRatchet hS hkeypair hsigned
    (SessionStore.createRatchet_of_updateHandshakes hnone hsome)

/-- A device of the ideal library that has never logged in. -/
def ideal : Responder Sodium.ideal where
  device := (Sodium.ideal.signPublic 3, 3)
  signed := none
  onetimePrekeys := []
  store := ⟨∅, ∅, ∅⟩
  advertised := none
  posted := []

/-- A login on day `day` that draws `signed`, and a peer's handshake. -/
def idealLogin (day : ℤ) (signed : ℕ) (accepted : Bool) : PrekeyStep ℕ :=
  .login ⟨true, day * 86400, day * 86400, signed, [40], accepted⟩

def idealInitiate : PrekeyStep ℕ :=
  .initiate ⟨"alice", .ideal 5, 8, some (Sodium.ideal.boxPublic 40)⟩

/-- A handshake that is processed under the prekey it was made with. -/
theorem matches_of_held_sameDay :
    ∃ (h : Initiated Sodium.ideal) (r : NewRatchet ℕ),
      (ideal.run [idealLogin 0 16 true, idealInitiate]).posted = [h]
      ∧ ((ideal.run [idealLogin 0 16 true, idealInitiate]).process [h]).store.session
          h.username h.device = some r
      ∧ Matches h r := by
  obtain ⟨hone, hnone, hsome⟩ :
      (ideal.run [idealLogin 0 16 true, idealInitiate]).posted.length = 1
        ∧ (∀ h ∈ (ideal.run [idealLogin 0 16 true, idealInitiate]).posted,
          ((ideal.run [idealLogin 0 16 true, idealInitiate]).process []).store.session
            h.username h.device = none)
        ∧ ∀ h ∈ (ideal.run [idealLogin 0 16 true, idealInitiate]).posted,
          (((ideal.run [idealLogin 0 16 true, idealInitiate]).process [h]).store.session
            h.username h.device).isSome := by
    decide +kernel
  have hheld : ideal.HeldAlong [idealLogin 0 16 true, idealInitiate] := by
    refine ⟨fun _ h hh => absurd hh List.not_mem_nil, fun me hme hnone adv hadv => ?_, trivial⟩
    cases hadv
    exact ⟨_, rfl, rfl⟩
  obtain ⟨h, hposted⟩ := List.length_eq_one_iff.mp hone
  have hh : h ∈ (ideal.run [idealLogin 0 16 true, idealInitiate]).posted := by
    rw [hposted]
    exact List.mem_singleton_self h
  obtain ⟨r, hr⟩ := Option.isSome_iff_exists.mp (hsome h hh)
  exact ⟨h, r, hposted, hr,
    matches_of_held Sodium.ideal_commutes rfl hheld hh rfl (hnone h hh) hr⟩

/-- A posted handshake, processed now, makes a session that is not the
initiator's. -/
def Diverges (s : Responder S) : Prop :=
  ∃ h ∈ s.posted, ∃ r ∈ (s.process [h]).store.session h.username h.device,
    S.boxPublic r.localDhPriv ≠ h.bundle.theirSignedPublic
      ∧ r.receiveChain ≠ h.ratchet.sendChain

instance (s : Responder S) : Decidable s.Diverges :=
  inferInstanceAs (Decidable (∃ h ∈ s.posted, ∃ r ∈ _, _ ∧ _))

/-- One that is still waiting when the prekey is replaced does, and one made
after an upload that failed. -/
theorem not_matches_rotated :
    (ideal.run [idealLogin 0 16 true, idealInitiate, idealLogin 15 24 true]).Diverges
      ∧ (ideal.run [idealLogin 0 16 true, idealLogin 15 24 false, idealInitiate]).Diverges := by
  decide +kernel

end Responder
