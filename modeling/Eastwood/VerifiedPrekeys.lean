import Eastwood.IdentityKeys
import Eastwood.Runs

/-!
# Verified prekeys

The map of `RatchetSessionManager` is one of pointers: `operator[]` of a
device that is not there puts in a null pointer, and what is assigned to it
comes after. Here the map is modelled with its pointers (`SlotStore`), and
with a record of what is created and posted. Without null pointers it does
what `SessionStore` says (`Refines.run`).

The signature of a prekey is verified where the ratchet is made, on the right
of that assignment; evaluated first, it throws before there is a pointer. So
in any run, whatever bundles come in whatever lists, a session that is made
from a sending bundle starts from a prekey with a valid signature by its
device, and a bundle without one leaves nothing at all: no entry of the map,
null or not, no row and no post (`initiators_verified`).
-/

variable {K : Type}

/-! ## The map with its pointers -/

/-- **The map of `RatchetSessionManager` as it is**, and the rows of
`ratchets`. -/
structure SlotStore (K : Type) where
  ratchets : Finmap fun _ : String => Finmap fun _ : K => Option (NewRatchet K)
  rows : Finmap fun _ : K => String × NewRatchet K

/-- What is recorded of a run. -/
inductive StoreEvent (K : Type) where
  | created (username : String) (device : K) (bundle : KeyBundle K) (ratchet : NewRatchet K)
  | posted (username : String) (bundle : SendingKeyBundle K)

namespace SlotStore

section Access

variable [DecidableEq K] (s : SlotStore K)

/-- `ratchets[username]`. -/
def ofUser (username : String) : Finmap fun _ : K => Option (NewRatchet K) :=
  (s.ratchets.lookup username).getD ∅

/-- The pointer for a device of a user, if there is an entry; `some none` is
the null pointer. -/
def slot (username : String) (device : K) : Option (Option (NewRatchet K)) :=
  (s.ofUser username).lookup device

/-- What `ratchets[username]` leaves. -/
def touch (username : String) : SlotStore K :=
  { s with ratchets := s.ratchets.insert username (s.ofUser username) }

/-- An entry with a pointer. -/
def put (username : String) (device : K) (p : Option (NewRatchet K)) : SlotStore K :=
  { s with ratchets := s.ratchets.insert username ((s.ofUser username).insert device p) }

/-- What `user_ratchets[device_id]` leaves: an entry that is not there is made,
with a null pointer. -/
def subscript (username : String) (device : K) : SlotStore K :=
  match s.slot username device with
  | some _ => s
  | none => s.put username device none

/-- `user_ratchets[device_id] = …`: the right side is evaluated before the
left. -/
def assign (username : String) (device : K) (right : Except Fault (NewRatchet K)) :
    Except Fault Unit × SlotStore K :=
  match right with
  | .error e => (.error e, s)
  | .ok r => (.ok (), (s.subscript username device).put username device (some r))

/-- `user_ratchets[device_id]->save(username, device_id)`. -/
def saveSlot (username : String) (device : K) : Except Fault (NewRatchet K) × SlotStore K :=
  let s := s.subscript username device
  match s.slot username device with
  | some (some r) => (.ok r, { s with rows := s.rows.insert device (username, r) })
  | _ => (.error .nullDereference, s)

variable {s} (username u : String) (device d : K) (p : Option (NewRatchet K))

@[simp] theorem slot_touch : (s.touch username).slot u d = s.slot u d := by
  unfold slot ofUser touch
  by_cases h : u = username
  · rw [h, Finmap.lookup_insert]
    rfl
  · rw [Finmap.lookup_insert_of_ne _ h]

@[simp] theorem slot_put : (s.put username device p).slot username device = some p := by
  rw [slot, ofUser, put, Finmap.lookup_insert, Option.getD_some, Finmap.lookup_insert]

theorem slot_put_of_ne (h : (u, d) ≠ (username, device)) :
    (s.put username device p).slot u d = s.slot u d := by
  unfold slot ofUser put
  by_cases hu : u = username
  · have hd : d ≠ device := fun hd => h (by rw [hu, hd])
    rw [hu, Finmap.lookup_insert, Option.getD_some, Finmap.lookup_insert_of_ne _ hd]
    rfl
  · rw [Finmap.lookup_insert_of_ne _ hu]

theorem slot_subscript_of_ne (h : (u, d) ≠ (username, device)) :
    (s.subscript username device).slot u d = s.slot u d := by
  unfold subscript
  split
  · rfl
  · exact slot_put_of_ne _ _ _ _ _ h

theorem rows_subscript : (s.subscript username device).rows = s.rows := by
  unfold subscript
  split <;> rfl

/-- **A ratchet that was made**, assigned and saved: an entry and a row. -/
theorem saveSlot_assign (r : NewRatchet K) :
    ∃ s', ((s.assign username device (.ok r)).2.saveSlot username device) = (.ok r, s')
      ∧ s'.slot username device = some (some r)
      ∧ (∀ u d, (u, d) ≠ (username, device) → s'.slot u d = s.slot u d)
      ∧ s'.rows = s.rows.insert device (username, r) := by
  have hslot : ((s.subscript username device).put username device (some r)).slot username device
      = some (some r) := slot_put ..
  have hsubscript : ((s.subscript username device).put username device (some r)).subscript username
      device = (s.subscript username device).put username device (some r) := by
    rw [subscript, hslot]
  refine ⟨{ (s.subscript username device).put username device (some r) with
    rows := s.rows.insert device (username, r) }, ?_, hslot, fun u d h => ?_, rfl⟩
  · show saveSlot ((s.subscript username device).put username device (some r)) username device = _
    unfold saveSlot
    simp only [hsubscript, hslot]
    rw [show ((s.subscript username device).put username device (some r)).rows = _
      from rows_subscript username device]
  · exact (slot_put_of_ne _ _ _ _ _ h).trans (slot_subscript_of_ne _ _ _ _ h)

end Access

/-! ## The operations -/

/-- What an operation did. -/
structure Outcome (K α : Type) where
  result : Except Fault α
  events : List (StoreEvent K)
  store : SlotStore K

variable [Zero K] [LinearOrder K] (S : Sodium K) (ks : KeyStore K)

/-- The loop of `create_ratchets_if_needed`. A null pointer is found as well
as any other. -/
def createLoop (username : String) (postToServer : Bool) :
    List (KeyBundle K) → SlotStore K → Outcome K Unit
  | [], s => ⟨.ok (), [], s⟩
  | bundle :: bundles, s =>
    let device := bundle.getTheirDevicePublic
    if (s.slot username device).isSome then createLoop username postToServer bundles s
    else
      match s.assign username device (bundle.createRatchet S ks) with
      | (.error e, s) => ⟨.error e, [], s⟩
      | (.ok (), s) =>
        match s.saveSlot username device with
        | (.error e, s) => ⟨.error e, [], s⟩
        | (.ok r, s) =>
          let next := createLoop username postToServer bundles s
          { next with events := .created username device bundle r
              :: ((bundle.posts postToServer).map (.posted username) ++ next.events) }

/-- **`create_ratchets_if_needed`**. -/
def createRatchetsIfNeeded (username : String) (postToServer : Bool)
    (bundles : List (KeyBundle K)) (s : SlotStore K) : Outcome K Unit :=
  createLoop S ks username postToServer bundles (s.touch username)

/-- The loop of `get_keys_for_identity`. -/
def advanceAll (username : String) (myDevicePublic : K) :
    List K → SlotStore K → Except Fault (List (K × K × MessageHeader K)) × SlotStore K
  | [], s => (.ok [], s)
  | device :: devices, s =>
    match s.slot username device with
    | none => advanceAll username myDevicePublic devices s
    | some none => (.error .nullDereference, s)
    | some (some r) =>
      match r.advanceSend S with
      | (.error e, r) => (.error e, s.put username device (some r))
      | (.ok (key, header), r) =>
        match advanceAll username myDevicePublic devices
            { s.put username device (some r) with rows := s.rows.insert device (username, r) } with
        | (.error e, s) => (.error e, s)
        | (.ok keys, s) =>
          (.ok ((device, key, { header with deviceId := myDevicePublic }) :: keys), s)

/-- What `get_keys_for_identity` does after it has created sessions. -/
def advanceUser (username : String) (s : SlotStore K) :
    Except Fault (List (K × K × MessageHeader K)) × SlotStore K :=
  let s := s.touch username
  match ks.getPublicKey .device with
  | .error e => (.error e, s)
  | .ok myDevicePublic =>
    advanceAll S username myDevicePublic ((s.ofUser username).keys.sort (· ≤ ·)) s

/-- **`get_keys_for_identity`**, given what `get_keybundles` does if it is
asked. -/
def getKeysForIdentity (username : String)
    (newBundles : Option (Except Fault (List (SendingKeyBundle K)))) (s : SlotStore K) :
    Outcome K (List (K × K × MessageHeader K)) :=
  let created : Outcome K Unit :=
    match newBundles with
    | none => ⟨.ok (), [], s⟩
    | some (.error e) => ⟨.error e, [], s⟩
    | some (.ok bundles) => s.createRatchetsIfNeeded S ks username true (bundles.map .sending)
  match created.result with
  | .error e => ⟨.error e, created.events, created.store⟩
  | .ok () =>
    let (result, s) := created.store.advanceUser S ks username
    ⟨result, created.events, s⟩

/-! ## Without null pointers -/

/-- **The map of a `SessionStore`**: its sessions, and no null pointer. -/
structure Refines (t : SlotStore K) (s : SessionStore K) : Prop where
  slots : ∀ u d, t.slot u d = (s.session u d).map some
  rows : t.rows = s.rows

section Refinement

variable {S} {ks} {t t' : SlotStore K} {s : SessionStore K} {username : String} {device : K}
variable {r : NewRatchet K}

omit [Zero K] in
/-- An empty map for a user is no session, -/
theorem Refines.touch_right (h : Refines t s) (u : String) : Refines t (s.touch u) :=
  ⟨fun u' d => by rw [SessionStore.session_touch, h.slots], h.rows⟩

omit [Zero K] in
/-- and no entry. -/
theorem Refines.touch_left (h : Refines t s) (u : String) : Refines (t.touch u) s :=
  ⟨fun u' d => by rw [slot_touch, h.slots], h.rows⟩

omit [Zero K] in
/-- A ratchet in memory. -/
theorem Refines.put (h : Refines t s) :
    Refines (t.put username device (some r)) (s.hold username device r) := by
  refine ⟨fun u d => ?_, h.rows⟩
  by_cases he : (u, d) = (username, device)
  · obtain ⟨rfl, rfl⟩ := Prod.mk.inj he
    rw [slot_put, SessionStore.session_hold]
    rfl
  · rw [slot_put_of_ne _ _ _ _ _ he, SessionStore.session_hold_of_ne _ _ _ _ _ _ he, h.slots]

omit [Zero K] in
/-- And in its row. -/
theorem Refines.save (h : Refines t s) :
    Refines { t with rows := t.rows.insert device (username, r) } (s.save username device r) :=
  ⟨h.slots, by rw [h.rows]; rfl⟩

omit [Zero K] in
/-- One that is made. -/
theorem Refines.made (h : Refines t s) (hslot : t'.slot username device = some (some r))
    (hothers : ∀ u d, (u, d) ≠ (username, device) → t'.slot u d = t.slot u d)
    (hrows : t'.rows = t.rows.insert device (username, r)) :
    Refines t' ((s.hold username device r).save username device r) := by
  refine ⟨fun u d => ?_, by rw [hrows, h.rows]; rfl⟩
  rw [SessionStore.session_save, ← (h.put (r := r)).slots]
  by_cases he : (u, d) = (username, device)
  · obtain ⟨rfl, rfl⟩ := Prod.mk.inj he
    rw [hslot, slot_put]
  · rw [hothers u d he, slot_put_of_ne _ _ _ _ _ he]

omit [Zero K] in
/-- The entries are of the devices there are sessions with. -/
theorem Refines.isSome_iff (h : Refines t s) (u : String) (d : K) :
    (t.slot u d).isSome = (s.session u d).isSome := by
  rw [h.slots, Option.isSome_map]

omit [Zero K] in
theorem Refines.keys (h : Refines t s) (u : String) :
    (t.ofUser u).keys.sort (· ≤ ·) = s.getDeviceIdsOfExistingHandshakes u := by
  refine congrArg (Finset.sort · (· ≤ ·)) (Finset.ext fun d => ?_)
  rw [Finmap.mem_keys, Finmap.mem_keys, ← Finmap.lookup_isSome, ← Finmap.lookup_isSome]
  exact iff_of_eq (congrArg (· = true) (h.isSome_iff u d))

end Refinement

end SlotStore

/-- The post of an event. -/
def StoreEvent.post? : StoreEvent K → Option (SendingKeyBundle K)
  | created .. => none
  | posted _ bundle => some bundle

namespace SlotStore

section Simulation

variable [Zero K] [LinearOrder K] {S : Sodium K} {ks : KeyStore K}
variable {t : SlotStore K} {s : SessionStore K} {username : String} {post : Bool}

omit [Zero K] [LinearOrder K] in
theorem filterMap_posts (b : KeyBundle K) :
    ((b.posts post).map (StoreEvent.posted username)).filterMap StoreEvent.post?
      = b.posts post := by
  rw [List.filterMap_map]
  exact List.filterMap_some

/-- **The loop over the bundles.** -/
theorem Refines.createLoop (h : Refines t s) (bundles : List (KeyBundle K)) :
    let o := t.createLoop S ks username post bundles
    let o' := s.createRatchetsIfNeeded S ks username post bundles
    o.result = o'.result ∧ o.events.filterMap StoreEvent.post? = o'.posted
      ∧ Refines o.store o'.store := by
  induction bundles generalizing t s with
  | nil => exact ⟨rfl, rfl, h.touch_right username⟩
  | cons b bundles ih =>
    have hfound := h.isSome_iff username b.getTheirDevicePublic
    rw [SlotStore.createLoop, SessionStore.createRatchetsIfNeeded]
    simp only [hfound]
    by_cases hb : (s.session username b.getTheirDevicePublic).isSome
    · simp only [hb, if_true]
      exact ih h
    · simp only [if_neg hb]
      cases hr : b.createRatchet S ks with
      | error e =>
        exact ⟨rfl, rfl, h.touch_right username⟩
      | ok r =>
        obtain ⟨t', hsave, hslot, hothers, hrows⟩ :=
          saveSlot_assign (s := t) username b.getTheirDevicePublic r
        obtain ⟨hresult, hposted, hstore⟩ := ih (h.made hslot hothers hrows)
        have hassign : t.assign username b.getTheirDevicePublic (.ok r)
            = (.ok (), (t.assign username b.getTheirDevicePublic (.ok r)).2) := rfl
        rw [hassign]
        simp only [hsave]
        refine ⟨hresult, ?_, hstore⟩
        rw [List.filterMap_cons_none rfl, List.filterMap_append, filterMap_posts, hposted]

/-- **`create_ratchets_if_needed`** does what it does there. -/
theorem Refines.createRatchetsIfNeeded (h : Refines t s) (S : Sodium K) (ks : KeyStore K)
    (username : String) (post : Bool) (bundles : List (KeyBundle K)) :
    let o := t.createRatchetsIfNeeded S ks username post bundles
    let o' := s.createRatchetsIfNeeded S ks username post bundles
    o.result = o'.result ∧ o.events.filterMap StoreEvent.post? = o'.posted
      ∧ Refines o.store o'.store :=
  (h.touch_left username).createLoop bundles

/-- **The loop over the devices.** -/
theorem Refines.advanceAll (h : Refines t s) (myDevicePublic : K) (devices : List K) :
    (t.advanceAll S username myDevicePublic devices).1
        = (s.advanceAll S username myDevicePublic devices).1
      ∧ Refines (t.advanceAll S username myDevicePublic devices).2
        (s.advanceAll S username myDevicePublic devices).2 := by
  induction devices generalizing t s with
  | nil => exact ⟨rfl, h⟩
  | cons device devices ih =>
    have hslot := h.slots username device
    rw [SlotStore.advanceAll, SessionStore.advanceAll]
    cases hr : s.session username device with
    | none =>
      rw [hr] at hslot
      simp only [hslot, Option.map_none]
      exact ih h
    | some r =>
      rw [hr] at hslot
      simp only [hslot, Option.map_some]
      rcases hsend : r.advanceSend S with ⟨result, r'⟩
      cases result with
      | error e => exact ⟨rfl, h.put⟩
      | ok m =>
        obtain ⟨hkeys, hstore⟩ := ih (t := { t.put username device (some r') with
            rows := t.rows.insert device (username, r') })
          (s := (s.hold username device r').save username device r')
          ((h.put (r := r')).save (r := r'))
        simp only
        rcases hall : SlotStore.advanceAll S username myDevicePublic devices
          { t.put username device (some r') with rows := t.rows.insert device (username, r') } with
          ⟨result, t₁⟩
        rcases hall' : SessionStore.advanceAll S username myDevicePublic devices
          ((s.hold username device r').save username device r') with ⟨result', s₁⟩
        rw [hall, hall'] at hkeys hstore
        obtain rfl : result = result' := hkeys
        cases result with
        | error e => exact ⟨rfl, hstore⟩
        | ok keys => exact ⟨rfl, hstore⟩

/-- **A key for every device.** -/
theorem Refines.advanceUser (h : Refines t s) (S : Sodium K) (ks : KeyStore K)
    (username : String) :
    (t.advanceUser S ks username).1 = (s.advanceUser S ks username).1
      ∧ Refines (t.advanceUser S ks username).2 (s.advanceUser S ks username).2 := by
  have ht := (h.touch_left username).touch_right username
  rw [SlotStore.advanceUser, SessionStore.advanceUser]
  cases ks.getPublicKey .device with
  | error e => exact ⟨rfl, ht⟩
  | ok myDevicePublic =>
    simp only [ht.keys username]
    exact ht.advanceAll myDevicePublic _

end Simulation

end SlotStore

/-! ## The calls -/

/-- **A call that may create sessions**, with the keys the device has at the
time, and what `get_keybundles` does if it is asked. -/
inductive CreatingCall (K : Type) where
  | createRatchetsIfNeeded (ks : KeyStore K) (username : String) (bundles : List (KeyBundle K))
      (postToServer : Bool)
  | getKeysForIdentity (ks : KeyStore K) (username : String)
      (newBundles : Option (Except Fault (List (SendingKeyBundle K))))

namespace CreatingCall

/-- As a call to a `SessionStore`. -/
def call : CreatingCall K → SessionStore.Call K
  | createRatchetsIfNeeded ks username bundles post =>
    .createRatchetsIfNeeded ks username bundles post
  | getKeysForIdentity ks username newBundles => .getKeysForIdentity ks username newBundles

/-- A call has a bundle of a user's device. -/
def Offers : CreatingCall K → String → KeyBundle K → Prop
  | createRatchetsIfNeeded _ u bundles _, username, b => username = u ∧ b ∈ bundles
  | getKeysForIdentity _ u (some (.ok bundles)), username, b =>
    username = u ∧ b ∈ bundles.map .sending
  | getKeysForIdentity _ _ _, _, _ => False

variable [Zero K] [LinearOrder K] (S : Sodium K)

/-- What it does. -/
def run : CreatingCall K → SlotStore K → SlotStore.Outcome K Unit
  | createRatchetsIfNeeded ks username bundles post, t =>
    t.createRatchetsIfNeeded S ks username post bundles
  | getKeysForIdentity ks username newBundles, t =>
    let keys := t.getKeysForIdentity S ks username newBundles
    ⟨keys.result.map fun _ => (), keys.events, keys.store⟩

/-- What it records, and the store it leaves. -/
def step (c : CreatingCall K) (t : SlotStore K) : List (StoreEvent K) × SlotStore K :=
  ((c.run S t).events, (c.run S t).store)

end CreatingCall

section Refinement

variable [Zero K] [LinearOrder K] {S : Sodium K} {t : SlotStore K} {s : SessionStore K}

/-- **Without null pointers the map is that of `SessionStore`**: a call ends
alike, and there are none afterwards. -/
theorem SlotStore.Refines.run (h : t.Refines s) (c : CreatingCall K) :
    (c.run S t).result = (c.call.run S s).1 ∧ (c.run S t).store.Refines (c.call.run S s).2 := by
  cases c with
  | createRatchetsIfNeeded ks username bundles post =>
    obtain ⟨hresult, -, hstore⟩ := h.createRatchetsIfNeeded S ks username post bundles
    exact ⟨hresult, hstore⟩
  | getKeysForIdentity ks username newBundles =>
    match newBundles with
    | none =>
      obtain ⟨hresult, hstore⟩ := h.advanceUser S ks username
      exact ⟨congrArg (Except.map _) hresult, hstore⟩
    | some (.error e) => exact ⟨rfl, h⟩
    | some (.ok bundles) =>
      obtain ⟨hresult, -, hstore⟩ := h.createRatchetsIfNeeded S ks username true
        (bundles.map .sending)
      show (Except.map _ (t.getKeysForIdentity S ks username (some (.ok bundles))).result)
          = Except.map _ (s.getKeysForIdentity S ks username (some bundles)).result
        ∧ (t.getKeysForIdentity S ks username (some (.ok bundles))).store.Refines
          (s.getKeysForIdentity S ks username (some bundles)).store
      rw [SlotStore.getKeysForIdentity, SessionStore.getKeysForIdentity,
        SessionStore.ensureRatchets]
      simp only [hresult]
      cases (s.createRatchetsIfNeeded S ks username true (bundles.map .sending)).result with
      | error e => exact ⟨rfl, hstore⟩
      | ok _ =>
        obtain ⟨hkeys, hadvanced⟩ := hstore.advanceUser S ks username
        exact ⟨congrArg (Except.map _) hkeys, hadvanced⟩

end Refinement

/-! ## What is recorded -/

/-- **A prekey verifies**: its signature is a valid one by the device. -/
def SendingKeyBundle.Verified (S : Sodium K) (b : SendingKeyBundle K) : Prop :=
  S.verifyDetached b.theirSignedSignature b.theirSignedPublic b.theirDevicePublic = true

namespace StoreEvent

/-- **What is recorded is sound**: a ratchet that is created is for the device
of its bundle and, if that is a sending one, starts from a prekey that
verifies; a handshake that is posted is of one that does. -/
def Sound (S : Sodium K) : StoreEvent K → Prop
  | created _ device bundle ratchet => bundle.getTheirDevicePublic = device
    ∧ ∀ b, bundle = .sending b → b.Verified S ∧ ratchet.remoteDhPublic = b.theirSignedPublic
  | posted _ bundle => bundle.Verified S

/-- It is of a bundle of a user's device that was offered. -/
def Of (offered : String → KeyBundle K → Prop) : StoreEvent K → Prop
  | created username _ bundle _ => offered username bundle
  | posted username bundle => offered username (.sending bundle)

theorem Of.mono {offered offered' : String → KeyBundle K → Prop} {e : StoreEvent K}
    (h : e.Of offered) (hmono : ∀ u b, offered u b → offered' u b) : e.Of offered' := by
  cases e with
  | created u d b r => exact hmono u b h
  | posted u b => exact hmono u _ h

end StoreEvent

section Events

variable [Zero K] [LinearOrder K] {S : Sodium K} {ks : KeyStore K} {t : SlotStore K}
variable {username : String} {post : Bool} {r : NewRatchet K}

omit [LinearOrder K] in
/-- **A ratchet of a sending bundle** starts from a prekey that verifies. -/
theorem SendingKeyBundle.verified_of_createRatchet {b : SendingKeyBundle K}
    (h : b.createRatchet S ks = .ok r) : b.Verified S ∧ r.remoteDhPublic = b.theirSignedPublic := by
  obtain ⟨secret, hsecret, h⟩ := exists_of_bind_eq_ok h
  obtain ⟨_, -, hsecret⟩ := exists_of_bind_eq_ok hsecret
  obtain ⟨_, -, hsecret⟩ := exists_of_bind_eq_ok hsecret
  refine ⟨?_, ?_⟩
  · unfold Verified
    by_contra hverified
    rw [if_neg hverified] at hsecret
    cases hsecret
  · obtain ⟨x, -, rfl⟩ := NewRatchet.exists_of_newInitiator S h
    rfl

/-- **The events of the loop** are sound, and of its bundles. -/
theorem sound_createLoop (bundles : List (KeyBundle K)) :
    ∀ e ∈ (t.createLoop S ks username post bundles).events,
      e.Sound S ∧ e.Of fun u b => u = username ∧ b ∈ bundles := by
  induction bundles generalizing t with
  | nil => exact fun e he => absurd he List.not_mem_nil
  | cons b bundles ih =>
    have hlater : ∀ t : SlotStore K, ∀ e ∈ (t.createLoop S ks username post bundles).events,
        e.Sound S ∧ e.Of fun u b' => u = username ∧ b' ∈ b :: bundles :=
      fun t e he => (ih e he).imp_right fun hof =>
        hof.mono fun u b' hb' => hb'.imp_right (List.mem_cons_of_mem b)
    rw [SlotStore.createLoop]
    split
    · exact hlater t
    · cases hr : b.createRatchet S ks with
      | error e => exact fun e he => absurd he List.not_mem_nil
      | ok r =>
        obtain ⟨t', hsave, -⟩ :=
          SlotStore.saveSlot_assign (s := t) username b.getTheirDevicePublic r
        have hassign : t.assign username b.getTheirDevicePublic (.ok r)
            = (.ok (), (t.assign username b.getTheirDevicePublic (.ok r)).2) := rfl
        rw [hassign]
        simp only [hsave]
        intro e he
        obtain rfl | he := List.mem_cons.mp he
        · refine ⟨⟨rfl, ?_⟩, rfl, List.mem_cons_self⟩
          rintro sb rfl
          exact SendingKeyBundle.verified_of_createRatchet hr
        obtain he | he := List.mem_append.mp he
        · -- what is posted is the bundle itself
          obtain ⟨sb, hsb, rfl⟩ := List.mem_map.mp he
          cases b with
          | receiving b => cases hsb
          | sending b =>
            obtain rfl : sb = b := by
              cases post with
              | false => cases hsb
              | true => exact List.mem_singleton.mp hsb
            exact ⟨(SendingKeyBundle.verified_of_createRatchet hr).1, rfl, List.mem_cons_self⟩
        · exact hlater t' e he

/-- Getting keys records what creating the ratchets did, and nothing else. -/
theorem SlotStore.events_getKeysForIdentity_ok {ks : KeyStore K} {username : String}
    {bundles : List (SendingKeyBundle K)} :
    (t.getKeysForIdentity S ks username (some (.ok bundles))).events
      = (t.createRatchetsIfNeeded S ks username true (bundles.map .sending)).events := by
  unfold SlotStore.getKeysForIdentity
  simp only
  split <;> rfl

/-- **The events of a call.** -/
theorem sound_run (c : CreatingCall K) :
    ∀ e ∈ (c.run S t).events, e.Sound S ∧ e.Of c.Offers := by
  cases c with
  | createRatchetsIfNeeded ks username bundles post => exact sound_createLoop bundles
  | getKeysForIdentity ks username newBundles =>
    show ∀ e ∈ (t.getKeysForIdentity S ks username newBundles).events, _
    rcases newBundles with _ | _ | bundles
    · exact fun e he => absurd he List.not_mem_nil
    · exact fun e he => absurd he List.not_mem_nil
    · rw [SlotStore.events_getKeysForIdentity_ok]
      exact sound_createLoop _

end Events

/-! ## What is there is accounted for -/

/-- **What a store has more** than another is accounted for by what was
recorded: an entry was there, or created; a row was there, or is of a session
that was there, or was created; a null pointer was there. -/
structure SlotStore.Accounted [DecidableEq K] (t : SlotStore K) (events : List (StoreEvent K))
    (t' : SlotStore K) : Prop where
  slots : ∀ u d, (t'.slot u d).isSome →
    (t.slot u d).isSome ∨ ∃ b r, .created u d b r ∈ events
  nulls : ∀ u d, t'.slot u d = some none → t.slot u d = some none
  rows : ∀ u d r, t'.rows.lookup d = some (u, r) →
    t.rows.lookup d = some (u, r) ∨ (t.slot u d).isSome ∨ ∃ b r, .created u d b r ∈ events

section Accounts

variable [LinearOrder K] {t t' t'' : SlotStore K} {events events' : List (StoreEvent K)}
variable {username : String} {device : K} {r : NewRatchet K}

theorem SlotStore.Accounted.refl (t : SlotStore K) : t.Accounted [] t :=
  ⟨fun _ _ h => Or.inl h, fun _ _ h => h, fun _ _ _ h => Or.inl h⟩

theorem SlotStore.Accounted.trans (h : t.Accounted events t') (h' : t'.Accounted events' t'') :
    t.Accounted (events ++ events') t'' := by
  have hslots : ∀ u d, ((t'.slot u d).isSome ∨ ∃ b r, .created u d b r ∈ events') →
      (t.slot u d).isSome ∨ ∃ b r, .created u d b r ∈ events ++ events' := by
    rintro u d (hsome | ⟨b, r, hmem⟩)
    · exact (h.slots u d hsome).imp_right fun ⟨b, r, hmem⟩ =>
        ⟨b, r, List.mem_append_left _ hmem⟩
    · exact Or.inr ⟨b, r, List.mem_append_right _ hmem⟩
  refine ⟨fun u d hsome => hslots u d (h'.slots u d hsome),
    fun u d hnull => h.nulls u d (h'.nulls u d hnull), fun u d r hrow => ?_⟩
  obtain hrow | hsession := h'.rows u d r hrow
  · exact (h.rows u d r hrow).imp_right (Or.imp_right fun ⟨b, r, hmem⟩ =>
      ⟨b, r, List.mem_append_left _ hmem⟩)
  · exact Or.inr (hslots u d hsession)

/-- A pointer to a ratchet, where there was one. -/
theorem SlotStore.Accounted.put (hsome : (t.slot username device).isSome) :
    t.Accounted [] (t.put username device (some r)) := by
  have hslot : ∀ u d, (t.put username device (some r)).slot u d = t.slot u d
      ∨ (u, d) = (username, device) := by
    intro u d
    by_cases he : (u, d) = (username, device)
    · exact Or.inr he
    · exact Or.inl (SlotStore.slot_put_of_ne _ _ _ _ _ he)
  refine ⟨fun u d h => Or.inl ?_, fun u d h => ?_, fun _ _ _ h => Or.inl h⟩
  · obtain he | he := hslot u d
    · rwa [← he]
    · obtain ⟨rfl, rfl⟩ := Prod.mk.inj he
      exact hsome
  · obtain he | he := hslot u d
    · rwa [← he]
    · obtain ⟨rfl, rfl⟩ := Prod.mk.inj he
      rw [SlotStore.slot_put] at h
      cases Option.some.inj h

/-- And a row of it. -/
theorem SlotStore.Accounted.save (hsome : (t.slot username device).isSome)
    (r : NewRatchet K) :
    t.Accounted [] { t with rows := t.rows.insert device (username, r) } := by
  refine ⟨fun _ _ h => Or.inl h, fun _ _ h => h, fun u d r' h => ?_⟩
  by_cases hd : d = device
  · subst hd
    rw [show Finmap.lookup d _ = _ from Finmap.lookup_insert _] at h
    obtain ⟨rfl, -⟩ := Prod.mk.inj (Option.some.inj h)
    exact Or.inr (Or.inl hsome)
  · exact Or.inl ((Finmap.lookup_insert_of_ne _ hd).symm.trans h)

theorem SlotStore.Accounted.touch (u : String) : t.Accounted [] (t.touch u) :=
  ⟨fun u d h => Or.inl (by rwa [SlotStore.slot_touch] at h),
    fun u d h => by rwa [SlotStore.slot_touch] at h, fun _ _ _ h => Or.inl h⟩

variable [Zero K] {S : Sodium K} {ks : KeyStore K} {post : Bool}

/-- **The loop over the bundles**: every entry it makes it records. -/
theorem SlotStore.Accounted.createLoop (bundles : List (KeyBundle K)) :
    t.Accounted (t.createLoop S ks username post bundles).events
      (t.createLoop S ks username post bundles).store := by
  induction bundles generalizing t with
  | nil => exact .refl t
  | cons b bundles ih =>
    rw [SlotStore.createLoop]
    split
    · exact ih
    · cases hr : b.createRatchet S ks with
      | error e => exact .refl t
      | ok r =>
        obtain ⟨t', hsave, hslot, hothers, hrows⟩ :=
          SlotStore.saveSlot_assign (s := t) username b.getTheirDevicePublic r
        have hassign : t.assign username b.getTheirDevicePublic (.ok r)
            = (.ok (), (t.assign username b.getTheirDevicePublic (.ok r)).2) := rfl
        rw [hassign]
        simp only [hsave]
        have hmade : t.Accounted (.created username b.getTheirDevicePublic b r
            :: (b.posts post).map (.posted username)) t' := by
          refine ⟨fun u d h => ?_, fun u d h => ?_, fun u d r' h => ?_⟩
          · by_cases he : (u, d) = (username, b.getTheirDevicePublic)
            · obtain ⟨rfl, rfl⟩ := Prod.mk.inj he
              exact Or.inr ⟨b, r, List.mem_cons_self⟩
            · rw [hothers u d he] at h
              exact Or.inl h
          · by_cases he : (u, d) = (username, b.getTheirDevicePublic)
            · obtain ⟨rfl, rfl⟩ := Prod.mk.inj he
              rw [hslot] at h
              cases Option.some.inj h
            · rwa [hothers u d he] at h
          · rw [hrows] at h
            by_cases hd : d = b.getTheirDevicePublic
            · subst hd
              rw [Finmap.lookup_insert] at h
              obtain ⟨rfl, -⟩ := Prod.mk.inj (Option.some.inj h)
              exact Or.inr (Or.inr ⟨b, r, List.mem_cons_self⟩)
            · rw [Finmap.lookup_insert_of_ne _ hd] at h
              exact Or.inl h
        exact hmade.trans ih

/-- **The loop over the devices** makes none. -/
theorem SlotStore.Accounted.advanceAll (myDevicePublic : K) (devices : List K) :
    t.Accounted [] (t.advanceAll S username myDevicePublic devices).2 := by
  induction devices generalizing t with
  | nil => exact .refl t
  | cons device devices ih =>
    rw [SlotStore.advanceAll]
    cases hslot : t.slot username device with
    | none => exact ih
    | some p =>
      have hsome : (t.slot username device).isSome := by rw [hslot]; rfl
      cases p with
      | none => exact .refl t
      | some r =>
        simp only
        rcases hsend : r.advanceSend S with ⟨result, r'⟩
        cases result with
        | error e => exact .put hsome
        | ok m =>
          have hput : t.Accounted [] (t.put username device (some r')) := .put hsome
          have hslot : ((t.put username device (some r')).slot username device).isSome := by
            rw [SlotStore.slot_put]
            rfl
          have hsaved := hput.trans (.save hslot r')
          have hall := hsaved.trans ih
          simp only
          split
          · rename_i heq
            rw [← congrArg Prod.snd heq]
            exact hall
          · rename_i heq
            rw [← congrArg Prod.snd heq]
            exact hall

/-- **A call accounts for what it leaves.** -/
theorem SlotStore.Accounted.run (c : CreatingCall K) :
    t.Accounted (c.run S t).events (c.run S t).store := by
  have hcreate : ∀ ks username post bundles,
      t.Accounted (t.createRatchetsIfNeeded S ks username post bundles).events
        (t.createRatchetsIfNeeded S ks username post bundles).store :=
    fun ks username post bundles =>
      (SlotStore.Accounted.touch username).trans (SlotStore.Accounted.createLoop bundles)
  have hadvance : ∀ ks username, ∀ t : SlotStore K,
      t.Accounted [] (t.advanceUser S ks username).2 := by
    intro ks username t
    unfold SlotStore.advanceUser
    cases ks.getPublicKey .device with
    | error e => exact .touch username
    | ok myDevicePublic =>
      exact (SlotStore.Accounted.touch username).trans (.advanceAll myDevicePublic _)
  cases c with
  | createRatchetsIfNeeded ks username bundles post => exact hcreate ks username post bundles
  | getKeysForIdentity ks username newBundles =>
    match newBundles with
    | none => exact hadvance ks username t
    | some (.error e) => exact .refl t
    | some (.ok bundles) =>
      have hcreated := hcreate ks username true (bundles.map .sending)
      show t.Accounted (t.getKeysForIdentity S ks username (some (.ok bundles))).events
        (t.getKeysForIdentity S ks username (some (.ok bundles))).store
      unfold SlotStore.getKeysForIdentity
      simp only
      split
      · exact hcreated
      · have hall := hcreated.trans (hadvance ks username
          (t.createRatchetsIfNeeded S ks username true (bundles.map .sending)).store)
        rwa [List.append_nil] at hall

/-! ## The result -/

/-- **Initiator sessions are only made from verified prekeys.** After any
calls, whatever bundles they were given: every ratchet that was created from
a sending bundle started from a prekey with a valid signature by the device
it is stored under, every handshake that was posted is of such a bundle, and
all entries and rows there are more than at the start are of sessions that
were created. So if the bundles of a device for a user were all sending
bundles that do not verify, and there was no entry for it, there is none
afterwards, not even a null pointer, nor a row or a post. -/
theorem initiators_verified (S : Sodium K) (calls : List (CreatingCall K)) (t : SlotStore K) :
    let events := Run.outputs (CreatingCall.step S) calls t
    let t' := Run.final (CreatingCall.step S) calls t
    (∀ e ∈ events, e.Sound S) ∧ t.Accounted events t'
      ∧ ∀ u d, t.slot u d = none →
        (∀ c ∈ calls, ∀ b, c.Offers u b → b.getTheirDevicePublic = d →
          ∃ sb, b = .sending sb ∧ ¬ sb.Verified S) →
        t'.slot u d = none
          ∧ (∀ r, t'.rows.lookup d = some (u, r) → t.rows.lookup d = some (u, r))
          ∧ ∀ b, .posted u b ∈ events → b.theirDevicePublic ≠ d := by
  intro events t'
  have hsound : ∀ e ∈ events, e.Sound S ∧ ∃ c ∈ calls, e.Of c.Offers :=
    Run.mem_outputs (fun c hc t e he => (sound_run c e he).imp_right fun hof => ⟨c, hc, hof⟩) t
  have haccounted : t.Accounted events t' :=
    Run.final_induction (R := fun t events t' => t.Accounted events t') SlotStore.Accounted.refl
      (fun h h' => h.trans h') (fun c t => SlotStore.Accounted.run c) calls t
  refine ⟨fun e he => (hsound e he).1, haccounted, fun u d hnone hunverified => ?_⟩
  -- nothing is created for such a device
  have hnever : ∀ b r, .created u d b r ∉ events := by
    intro b r hmem
    obtain ⟨⟨hdevice, hverified⟩, c, hc, hof⟩ := hsound _ hmem
    obtain ⟨sb, rfl, hbad⟩ := hunverified c hc b hof hdevice
    exact hbad (hverified sb rfl).1
  refine ⟨Option.not_isSome_iff_eq_none.mp fun hsome => ?_, fun r hrow => ?_, fun b hmem hd => ?_⟩
  · obtain hold | ⟨b, r, hmem⟩ := haccounted.slots u d hsome
    · rw [hnone] at hold
      cases hold
    · exact hnever b r hmem
  · obtain hold | hold | ⟨b, r, hmem⟩ := haccounted.rows u d r hrow
    · exact hold
    · rw [hnone] at hold
      cases hold
    · exact absurd hmem (hnever b r)
  · obtain ⟨hverified, c, hc, hof⟩ := hsound _ hmem
    obtain ⟨sb, hsb, hbad⟩ := hunverified c hc (.sending b) hof hd
    obtain rfl := KeyBundle.sending.inj hsb
    exact hbad hverified

end Accounts
