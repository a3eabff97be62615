import Eastwood.KeyBundle
import Mathlib.Data.Finset.Sort

/-!
# The session manager

A device keeps the ratchets of all its sessions, by username and by device of
that user, and writes each of them to its database whenever it has moved. The
table has one row a device, whoever the device belongs to.

Nothing ties the two copies together but the order of the calls: a ratchet
that throws has moved in memory and is not written, and nothing here ever
puts a ratchet back. What each operation writes is `hold` (memory) and `save`
(the row), and the lemmas beside them say what it leaves alone.
-/

variable {K : Type}

/-- A row of `messages`, encryption at rest undone. -/
structure StoredMessage (K : Type) where
  username : String
  fromDeviceId : K
  message : List UInt8
  isSender : Bool
  deriving DecidableEq

/-- **What a device keeps of its sessions**: the map of
`RatchetSessionManager`, the rows of `ratchets` by device, and those of
`messages` by file. -/
structure SessionStore (K : Type) where
  ratchets : Finmap fun _ : String => Finmap fun _ : K => NewRatchet K
  rows : Finmap fun _ : K => String × NewRatchet K
  messages : Finmap fun _ : String => StoredMessage K

/-! The source walks its maps in the order of their keys. What `Finset.sort`
asks of that order, for the keys of this development. -/

section Order

instance isTrans_le_key [LinearOrder K] : IsTrans K fun x y => x ≤ y := inferInstance

instance antisymm_le_key [LinearOrder K] : Std.Antisymm fun x y : K => x ≤ y := inferInstance

instance total_le_key [LinearOrder K] : Std.Total fun x y : K => x ≤ y := inferInstance

instance isTrans_le_string : IsTrans String fun x y => x ≤ y := inferInstance

instance antisymm_le_string : Std.Antisymm fun x y : String => x ≤ y := inferInstance

instance total_le_string : Std.Total fun x y : String => x ≤ y := inferInstance

end Order

namespace SessionStore

section Access

variable [DecidableEq K] (s : SessionStore K)

/-- The sessions with a user. -/
def ofUser (username : String) : Finmap fun _ : K => NewRatchet K :=
  (s.ratchets.lookup username).getD ∅

/-- The session with a device of a user. -/
def session (username : String) (device : K) : Option (NewRatchet K) :=
  (s.ofUser username).lookup device

/-- `ratchets[username]`, which inserts an empty map where there is none. -/
def touch (username : String) : SessionStore K :=
  { s with ratchets := s.ratchets.insert username (s.ofUser username) }

/-- A ratchet as it now is in memory. -/
def hold (username : String) (device : K) (r : NewRatchet K) : SessionStore K :=
  { s with ratchets := s.ratchets.insert username ((s.ofUser username).insert device r) }

/-- `NewRatchet::save`: `INSERT OR REPLACE` into a table whose key is the
device. -/
def save (username : String) (device : K) (r : NewRatchet K) : SessionStore K :=
  { s with rows := s.rows.insert device (username, r) }

variable {s} in
/-- A user without sessions has none with any device. -/
theorem session_of_empty {username : String} (h : s.ofUser username = ∅) (device : K) :
    s.session username device = none := by
  rw [session, h, Finmap.lookup_empty]

variable {s} in
/-- A user with one session has it with its device. -/
theorem session_of_singleton {username : String} {device : K} {r : NewRatchet K}
    (h : s.ofUser username = Finmap.singleton device r) :
    s.session username device = some r := by
  rw [session, h, Finmap.lookup_singleton_eq]

variable {s} in
/-- And with no other. -/
theorem eq_of_session_of_singleton {username : String} {device d : K} {r r' : NewRatchet K}
    (h : s.ofUser username = Finmap.singleton device r)
    (hr : s.session username d = some r') : d = device ∧ r = r' := by
  rw [session, h] at hr
  have hd := Finmap.mem_singleton _ _ _ |>.mp (Finmap.mem_of_lookup_eq_some hr)
  rw [hd, Finmap.lookup_singleton_eq] at hr
  exact ⟨hd, Option.some.inj hr⟩

variable (username u : String) (device d : K) (r : NewRatchet K)

omit [DecidableEq K] in
@[simp] theorem ofUser_touch : (s.touch username).ofUser u = s.ofUser u := by
  unfold ofUser touch
  by_cases h : u = username
  · rw [h, Finmap.lookup_insert]
    rfl
  · rw [Finmap.lookup_insert_of_ne _ h]

@[simp] theorem session_touch : (s.touch username).session u d = s.session u d := by
  rw [session, ofUser_touch, session]

theorem ofUser_hold :
    (s.hold username device r).ofUser username = (s.ofUser username).insert device r := by
  rw [ofUser, hold, Finmap.lookup_insert, Option.getD_some]

@[simp] theorem session_hold : (s.hold username device r).session username device = some r := by
  rw [session, ofUser_hold, Finmap.lookup_insert]

/-- Holding one ratchet leaves the other sessions alone. -/
theorem session_hold_of_ne (h : (u, d) ≠ (username, device)) :
    (s.hold username device r).session u d = s.session u d := by
  by_cases hu : u = username
  · have hd : d ≠ device := fun hd => h (by rw [hu, hd])
    rw [session, hu, ofUser_hold, Finmap.lookup_insert_of_ne _ hd]
    rfl
  · rw [session, ofUser, hold, Finmap.lookup_insert_of_ne _ hu]
    rfl

@[simp] theorem rows_hold : (s.hold username device r).rows = s.rows := rfl

@[simp] theorem session_save : (s.save username device r).session u d = s.session u d := rfl

@[simp] theorem ofUser_save : (s.save username device r).ofUser u = s.ofUser u := rfl

@[simp] theorem row_save : (s.save username device r).rows.lookup device = some (username, r) :=
  Finmap.lookup_insert _

/-- Saving one ratchet leaves the rows of the other devices alone. -/
theorem row_save_of_ne (h : d ≠ device) :
    (s.save username device r).rows.lookup d = s.rows.lookup d :=
  Finmap.lookup_insert_of_ne _ h

end Access

end SessionStore

/-! ## The operations -/

/-- What an operation did: how it ended, the handshakes it posted, and the
store it left. -/
structure Outcome (K α : Type) where
  result : Except Fault α
  posted : List (SendingKeyBundle K)
  store : SessionStore K

variable [Zero K] [LinearOrder K] (S : Sodium K) (ks : KeyStore K)

omit [Zero K] [LinearOrder K] in
/-- The handshake posted for a new session: the initiator's. A failure to
post it is only reported. -/
def KeyBundle.posts (postToServer : Bool) : KeyBundle K → List (SendingKeyBundle K)
  | .sending bundle => if postToServer then [bundle] else []
  | .receiving _ => []

namespace SessionStore

/-- **`create_ratchets_if_needed`**: a bundle of a device there is a session
with is ignored. -/
def createRatchetsIfNeeded (username : String) (postToServer : Bool) :
    List (KeyBundle K) → SessionStore K → Outcome K Unit
  | [], s => ⟨.ok (), [], s.touch username⟩
  | bundle :: bundles, s =>
    let device := bundle.getTheirDevicePublic
    if (s.session username device).isSome then
      createRatchetsIfNeeded username postToServer bundles s
    else
      match bundle.createRatchet S ks with
      -- the assignment evaluates its right side first: no entry is left behind
      | .error e => ⟨.error e, [], s.touch username⟩
      | .ok r =>
        let next := createRatchetsIfNeeded username postToServer bundles
          ((s.hold username device r).save username device r)
        { next with posted := bundle.posts postToServer ++ next.posted }

omit [Zero K] in
/-- The devices of a user there is a session with, in the order of the
map. -/
def getDeviceIdsOfExistingHandshakes (username : String) (s : SessionStore K) : List K :=
  (s.ofUser username).keys.sort (· ≤ ·)

/-- The loop of `get_keys_for_identity` over the devices: the key and the
header for each. -/
def advanceAll (username : String) (myDevicePublic : K) :
    List K → SessionStore K → Except Fault (List (K × K × MessageHeader K)) × SessionStore K
  | [], s => (.ok [], s)
  | device :: devices, s =>
    match s.session username device with
    | none => advanceAll username myDevicePublic devices s
    | some r =>
      match r.advanceSend S with
      -- the ratchet has moved and is not written
      | (.error e, r) => (.error e, s.hold username device r)
      | (.ok (key, header), r) =>
        match advanceAll username myDevicePublic devices
            ((s.hold username device r).save username device r) with
        | (.error e, s) => (.error e, s)
        | (.ok keys, s) =>
          (.ok ((device, key, { header with deviceId := myDevicePublic }) :: keys), s)

/-- What `get_keys_for_identity` does first, given the bundles
`get_keybundles` returned; none if it is not asked to create sessions. -/
def ensureRatchets (username : String) (newBundles : Option (List (SendingKeyBundle K)))
    (s : SessionStore K) : Outcome K Unit :=
  match newBundles with
  | some bundles => createRatchetsIfNeeded S ks username true (bundles.map .sending) s
  | none => ⟨.ok (), [], s⟩

/-- And then: a key and a header from each session with the user. -/
def advanceUser (username : String) (s : SessionStore K) :
    Except Fault (List (K × K × MessageHeader K)) × SessionStore K :=
  let s := s.touch username
  match ks.getPublicKey .device with
  | .error e => (.error e, s)
  | .ok myDevicePublic =>
    advanceAll S username myDevicePublic (s.getDeviceIdsOfExistingHandshakes username) s

/-- **`get_keys_for_identity`.** -/
def getKeysForIdentity (username : String) (newBundles : Option (List (SendingKeyBundle K)))
    (s : SessionStore K) : Outcome K (List (K × K × MessageHeader K)) :=
  let created := s.ensureRatchets S ks username newBundles
  match created.result with
  | .error e => ⟨.error e, created.posted, created.store⟩
  | .ok () =>
    let (result, s) := created.store.advanceUser S ks username
    ⟨result, created.posted, s⟩

omit [Zero K] in
/-- **`get_key_for_device`**, `fresh` being the private key drawn should the
header carry a new public key. The ratchet is written only if it returned. -/
def getKeyForDevice (fresh : K) (username : String) (header : MessageHeader K)
    (s : SessionStore K) : Except Fault K × SessionStore K :=
  match s.ratchets.lookup username with
  | none => (.error (.runtimeError ("User not found: " ++ username)), s)
  | some ofUser =>
    match ofUser.lookup header.deviceId with
    | none => (.error (.runtimeError ("Device not found for user: " ++ username)), s)
    | some r =>
      match r.advanceReceive S fresh header with
      | (.error e, r) => (.error e, s.hold username header.deviceId r)
      | (.ok key, r) =>
        (.ok key, (s.hold username header.deviceId r).save username header.deviceId r)

/-- **`update_handshakes`**, given the handshakes `get_handshake_backlog`
returned. -/
def updateHandshakes : List (String × ReceivingKeyBundle K) → SessionStore K →
    Except Fault Unit × SessionStore K
  | [], s => (.ok (), s)
  | (username, bundle) :: handshakes, s =>
    let created := createRatchetsIfNeeded S ks username true [.receiving bundle] s
    match created.result with
    | .error e => (.error e, created.store)
    | .ok () => updateHandshakes handshakes created.store

/-! ## What they do to a session -/

section Sessions

variable {S} {ks} {s : SessionStore K} {username : String} {device : K} {r : NewRatchet K}

omit [Zero K] in
/-- The devices of a user are listed once each, -/
theorem nodup_getDeviceIds : (s.getDeviceIdsOfExistingHandshakes username).Nodup :=
  Finset.sort_nodup _ _

omit [Zero K] in
/-- and are those there is a session with. -/
theorem mem_getDeviceIds_iff :
    device ∈ s.getDeviceIdsOfExistingHandshakes username ↔ (s.session username device).isSome := by
  rw [getDeviceIdsOfExistingHandshakes, Finset.mem_sort, Finmap.mem_keys]
  exact Finmap.lookup_isSome.symm

omit [Zero K] in
/-- With a session, `get_key_for_device` is `advance_receive` and, if it
returned, a write. -/
theorem getKeyForDevice_eq {header : MessageHeader K}
    (h : s.session username header.deviceId = some r) (fresh : K) :
    s.getKeyForDevice S fresh username header =
      match r.advanceReceive S fresh header with
      | (.error e, r) => (.error e, s.hold username header.deviceId r)
      | (.ok key, r) =>
        (.ok key, (s.hold username header.deviceId r).save username header.deviceId r) := by
  unfold session ofUser at h
  unfold getKeyForDevice
  cases hu : s.ratchets.lookup username with
  | none =>
    rw [hu, Option.getD_none, Finmap.lookup_empty] at h
    cases h
  | some user =>
    rw [hu, Option.getD_some] at h
    simp only [h]

omit [Zero K] in
/-- Without one it throws and changes nothing. -/
theorem getKeyForDevice_of_none {header : MessageHeader K}
    (h : s.session username header.deviceId = none) (fresh : K) :
    ∃ what, s.getKeyForDevice S fresh username header = (.error (.runtimeError what), s) := by
  unfold session ofUser at h
  unfold getKeyForDevice
  cases hu : s.ratchets.lookup username with
  | none => exact ⟨_, rfl⟩
  | some user =>
    rw [hu, Option.getD_some] at h
    simp only [h]
    exact ⟨_, rfl⟩

/-- A bundle of a device there is a session with is ignored. -/
theorem createRatchetsIfNeeded_of_session {b : KeyBundle K}
    (h : (s.session username b.getTheirDevicePublic).isSome) (postToServer : Bool)
    (bundles : List (KeyBundle K)) :
    createRatchetsIfNeeded S ks username postToServer (b :: bundles) s
      = createRatchetsIfNeeded S ks username postToServer bundles s := by
  rw [createRatchetsIfNeeded]
  exact if_pos h

/-- A bundle of any other makes one, if its secret can be computed. -/
theorem createRatchetsIfNeeded_of_none {b : KeyBundle K}
    (h : s.session username b.getTheirDevicePublic = none) (postToServer : Bool) :
    createRatchetsIfNeeded S ks username postToServer [b] s =
      match b.createRatchet S ks with
      | .error e => ⟨.error e, [], s.touch username⟩
      | .ok r => ⟨.ok (), b.posts postToServer,
          ((s.hold username b.getTheirDevicePublic r).save username b.getTheirDevicePublic
            r).touch username⟩ := by
  unfold createRatchetsIfNeeded
  simp only [h, Option.isSome_none, Bool.false_eq_true, if_false]
  cases b.createRatchet S ks with
  | error e => rfl
  | ok r => simp only [createRatchetsIfNeeded, List.append_nil]

/-- No bundle replaces a session. -/
theorem createRatchetsIfNeeded_keeps (h : s.session username device = some r) (u : String)
    (postToServer : Bool) (b : KeyBundle K) :
    (createRatchetsIfNeeded S ks u postToServer [b] s).store.session username device = some r := by
  cases hb : s.session u b.getTheirDevicePublic with
  | some r' =>
    rw [createRatchetsIfNeeded_of_session (by rw [hb]; rfl)]
    exact (session_touch s u username device).trans h
  | none =>
    have hne : (username, device) ≠ (u, b.getTheirDevicePublic) := by
      rintro ⟨⟩
      cases hb.symm.trans h
    rw [createRatchetsIfNeeded_of_none hb]
    cases b.createRatchet S ks with
    | error e => exact (session_touch s u username device).trans h
    | ok r' => rw [session_touch, session_save, session_hold_of_ne _ _ _ _ _ _ hne, h]

/-- No handshake does. -/
theorem updateHandshakes_keeps (h : s.session username device = some r)
    (handshakes : List (String × ReceivingKeyBundle K)) :
    (s.updateHandshakes S ks handshakes).2.session username device = some r := by
  induction handshakes generalizing s with
  | nil => exact h
  | cons ub handshakes ih =>
    have hb : (createRatchetsIfNeeded S ks ub.1 true [.receiving ub.2] s).store.session username
        device = some r := createRatchetsIfNeeded_keeps h ub.1 true (.receiving ub.2)
    rw [updateHandshakes]
    cases hres : (createRatchetsIfNeeded S ks ub.1 true [.receiving ub.2] s).result with
    | error e => simpa only [hres] using hb
    | ok _ => simpa only [hres] using ih hb

/-- A backlog goes on where its first part left off. -/
theorem updateHandshakes_append {pre : List (String × ReceivingKeyBundle K)}
    (hpre : (s.updateHandshakes S ks pre).1 = .ok ())
    (handshakes : List (String × ReceivingKeyBundle K)) :
    s.updateHandshakes S ks (pre ++ handshakes)
      = (s.updateHandshakes S ks pre).2.updateHandshakes S ks handshakes := by
  induction pre generalizing s with
  | nil => rfl
  | cons ub pre ih =>
    rw [List.cons_append, updateHandshakes]
    rw [updateHandshakes] at hpre ⊢
    cases hres : (createRatchetsIfNeeded S ks ub.1 true [.receiving ub.2] s).result with
    | error e =>
      simp only [hres] at hpre
      cases hpre
    | ok _ =>
      simp only [hres] at hpre ⊢
      exact ih hpre

/-- **The session of a handshake** that had none is made of that handshake,
whatever comes after it. -/
theorem createRatchet_of_updateHandshakes {b : ReceivingKeyBundle K}
    (hnone : s.session username b.theirDevicePublic = none)
    {handshakes : List (String × ReceivingKeyBundle K)}
    (hsome : (s.updateHandshakes S ks ((username, b) :: handshakes)).2.session username
      b.theirDevicePublic = some r) : b.createRatchet S ks = .ok r := by
  have hcreated : createRatchetsIfNeeded S ks username true [.receiving b] s = _ :=
    createRatchetsIfNeeded_of_none hnone true
  rw [updateHandshakes] at hsome
  cases hr : b.createRatchet S ks with
  | error e =>
    rw [show (KeyBundle.receiving b).createRatchet S ks = .error e from hr] at hcreated
    simp only [hcreated, session_touch, hnone] at hsome
    cases hsome
  | ok r' =>
    rw [show (KeyBundle.receiving b).createRatchet S ks = .ok r' from hr] at hcreated
    simp only [hcreated] at hsome
    -- the session is there before the rest of the backlog, which keeps it
    rw [updateHandshakes_keeps (r := r') (by
      rw [session_touch, session_save]
      exact session_hold ..)] at hsome
    exact congrArg _ (Option.some.inj hsome)

/-- Nothing is created for a user without a new device. -/
theorem ensureRatchets_of_sessions {newBundles : Option (List (SendingKeyBundle K))}
    (h : ∀ bundles, newBundles = some bundles →
      ∀ b ∈ bundles, (s.session username b.theirDevicePublic).isSome) :
    ∃ st, s.ensureRatchets S ks username newBundles = ⟨.ok (), [], st⟩
      ∧ ∀ u, st.ofUser u = s.ofUser u := by
  cases newBundles with
  | none => exact ⟨s, rfl, fun _ => rfl⟩
  | some bundles =>
    replace h := h bundles rfl
    unfold ensureRatchets
    induction bundles with
    | nil => exact ⟨s.touch username, rfl, fun u => ofUser_touch s username u⟩
    | cons b bundles ih =>
      have hb : (s.session username (KeyBundle.sending b).getTheirDevicePublic).isSome :=
        h b List.mem_cons_self
      simp only [List.map_cons, createRatchetsIfNeeded_of_session hb]
      exact ih fun b hb => h b (List.mem_cons_of_mem _ hb)

/-- `get_keys_for_identity` is its two halves, the second one made if the
first returned. -/
theorem getKeysForIdentity_cases (S : Sodium K) (ks : KeyStore K) (s : SessionStore K)
    (username : String) (newBundles : Option (List (SendingKeyBundle K))) :
    let created := s.ensureRatchets S ks username newBundles
    (∃ e, created.result = .error e ∧ s.getKeysForIdentity S ks username newBundles
        = ⟨.error e, created.posted, created.store⟩)
      ∨ (created.result = .ok () ∧ s.getKeysForIdentity S ks username newBundles
        = ⟨(created.store.advanceUser S ks username).1, created.posted,
          (created.store.advanceUser S ks username).2⟩) := by
  unfold getKeysForIdentity
  intro created
  cases hres : created.result with
  | error e => exact Or.inl ⟨e, rfl, by simp only [created] at hres; simp only [hres, created]⟩
  | ok _ => exact Or.inr ⟨rfl, by simp only [created] at hres; simp only [hres, created]⟩

/-- A user without a session gets no message. -/
theorem advanceUser_of_empty (h : s.ofUser username = ∅) {myDevicePublic : K}
    (hdev : ks.getPublicKey .device = .ok myDevicePublic) :
    s.advanceUser S ks username = (.ok [], s.touch username) := by
  have hids : (s.touch username).getDeviceIdsOfExistingHandshakes username = [] := by
    rw [getDeviceIdsOfExistingHandshakes, ofUser_touch, h, Finmap.keys_empty, Finset.sort_empty]
  unfold advanceUser
  simp only [hdev, hids, advanceAll]

/-- A user with one session gets one, if the ratchet returns. -/
theorem advanceUser_of_singleton (h : s.ofUser username = Finmap.singleton device r)
    {myDevicePublic : K} (hdev : ks.getPublicKey .device = .ok myDevicePublic) :
    s.advanceUser S ks username =
      match r.advanceSend S with
      | (.error e, r) => (.error e, (s.touch username).hold username device r)
      | (.ok (key, header), r) =>
        (.ok [(device, key, { header with deviceId := myDevicePublic })],
          ((s.touch username).hold username device r).save username device r) := by
  have hids : (s.touch username).getDeviceIdsOfExistingHandshakes username = [device] := by
    rw [getDeviceIdsOfExistingHandshakes, ofUser_touch, h, Finmap.keys_singleton,
      Finset.sort_singleton]
  have hr : (s.touch username).session username device = some r :=
    session_of_singleton ((ofUser_touch ..).trans h)
  unfold advanceUser
  simp only [hdev, hids, advanceAll, hr]

end Sessions

end SessionStore
