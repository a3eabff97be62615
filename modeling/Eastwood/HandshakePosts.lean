import Eastwood.StoredSessions

/-!
# What a failed post leaves

`create_ratchets_if_needed` makes a session, writes it, and only then posts
the handshake it started with; a post that fails is caught and reported, and
the loop goes on. The session is there to stay: its device is among those
`get_device_ids_of_existing_handshakes` names, so the server offers no bundle
for it and the loop ignores one that comes all the same.

A `Journal` is the store with what the server and the callers saw, the
server being any function of what it saw so far. The main result,
`posted_once`, says what the order of the three writes does promise: the
handshake of every initiator session is posted once, before any key is handed
out on it – and never again, whatever became of that one post.
-/

variable {K : Type}

/-- **What is seen of the sessions from outside**: a handshake posted, and
whether the server accepted it, or a message key handed out. -/
inductive SessionEvent (K : Type) where
  | posted (username : String) (bundle : SendingKeyBundle K) (accepted : Bool)
  | handedOut (username : String) (device : K) (key : K)
  deriving DecidableEq

namespace SessionEvent

/-- The session an event is about. -/
def session : SessionEvent K → String × K
  | posted username bundle _ => (username, bundle.theirDevicePublic)
  | handedOut username device _ => (username, device)

/-- What the server answered to a post. -/
def answer : SessionEvent K → Option Bool
  | posted _ _ accepted => some accepted
  | handedOut .. => none

def isPost : SessionEvent K → Bool
  | posted .. => true
  | handedOut .. => false

end SessionEvent

/-- **A session is posted once in a log**: nothing about it before, no other
post after. -/
def PostedOnce (username : String) (device : K) (log : List (SessionEvent K)) : Prop :=
  ∃ pre bundle accepted post, log = pre ++ .posted username bundle accepted :: post
    ∧ bundle.theirDevicePublic = device
    ∧ (∀ e ∈ pre, e.session ≠ (username, device))
    ∧ ∀ e ∈ post, e.session = (username, device) → e.isPost = false

/-- The sessions of a device and the log of what was seen of them. -/
structure Journal (K : Type) where
  store : SessionStore K
  log : List (SessionEvent K)

/-- What the server does with a post, given all it saw before. -/
abbrev HandshakeServer (K : Type) := List (SessionEvent K) → SendingKeyBundle K → Except Fault Unit

namespace Journal

section Posts

variable (server : HandshakeServer K)

/-- `post_handshake_device` between `try` and its two `catch` blocks, which
only print: the ratchet stays created. -/
def post (username : String) (bundle : SendingKeyBundle K) (j : Journal K) : Journal K :=
  match server j.log bundle with
  | .ok () => { j with log := j.log ++ [.posted username bundle true] }
  | .error _ => { j with log := j.log ++ [.posted username bundle false] }

variable [Zero K] [LinearOrder K] (S : Sodium K)

/-- **`create_ratchets_if_needed`** with the server it posts to. -/
def createRatchetsIfNeeded (ks : KeyStore K) (username : String) (postToServer : Bool) :
    List (KeyBundle K) → Journal K → Except Fault Unit × Journal K
  | [], j => (.ok (), { j with store := j.store.touch username })
  | bundle :: bundles, j =>
    let device := bundle.getTheirDevicePublic
    if (j.store.session username device).isSome then
      createRatchetsIfNeeded ks username postToServer bundles j
    else
      match bundle.createRatchet S ks with
      | .error e => (.error e, { j with store := j.store.touch username })
      | .ok r =>
        let j := { j with
          store := (j.store.hold username device r).save username device r }
        let j :=
          match bundle with
          | .sending b => if postToServer then j.post server username b else j
          | .receiving _ => j
        createRatchetsIfNeeded ks username postToServer bundles j

/-- What `get_keys_for_identity` does first, given what `get_keybundles` did
if it was called. -/
def ensureRatchets (ks : KeyStore K) (username : String) :
    Option (Except Fault (List (SendingKeyBundle K))) → Journal K → Except Fault Unit × Journal K
  | none, j => (.ok (), j)
  | some (.error e), j => (.error e, j)
  | some (.ok bundles), j =>
    j.createRatchetsIfNeeded server S ks username true (bundles.map .sending)

/-- And then: the keys it hands out, if it returns. -/
def advanceUser (ks : KeyStore K) (username : String) (j : Journal K) :
    Except Fault Unit × Journal K :=
  match j.store.advanceUser S ks username with
  | (.error e, s) => (.error e, { j with store := s })
  | (.ok keys, s) =>
    (.ok (), ⟨s, j.log ++ keys.map fun key => SessionEvent.handedOut username key.1 key.2.1⟩)

/-- **`get_keys_for_identity`.** -/
def getKeysForIdentity (ks : KeyStore K) (username : String)
    (newBundles : Option (Except Fault (List (SendingKeyBundle K)))) (j : Journal K) :
    Except Fault Unit × Journal K :=
  match j.ensureRatchets server S ks username newBundles with
  | (.error e, j) => (.error e, j)
  | (.ok (), j) => j.advanceUser S ks username

omit [Zero K] [LinearOrder K] in
/-- A call that posts the handshakes of the sessions it makes. -/
inductive Call (K : Type) where
  | createRatchetsIfNeeded (ks : KeyStore K) (username : String) (bundles : List (KeyBundle K))
  | getKeysForIdentity (ks : KeyStore K) (username : String)
      (newBundles : Option (Except Fault (List (SendingKeyBundle K))))

/-- One call. -/
def call (j : Journal K) : Call K → Except Fault Unit × Journal K
  | .createRatchetsIfNeeded ks username bundles =>
    j.createRatchetsIfNeeded server S ks username true bundles
  | .getKeysForIdentity ks username newBundles =>
    j.getKeysForIdentity server S ks username newBundles

/-- **A sequence of calls**, each of them returning or throwing. -/
def run (calls : List (Call K)) (j : Journal K) : Journal K :=
  calls.foldl (fun j c => (j.call server S c).2) j

end Posts

/-! ## The store under the journal -/

section Store

variable {server : HandshakeServer K} {j : Journal K} {ks : KeyStore K} {username : String}

theorem post_store (b : SendingKeyBundle K) : (j.post server username b).store = j.store := by
  rw [post]
  split <;> rfl

/-- A post adds one event to the log, whatever the server answers. -/
theorem exists_of_post (server : HandshakeServer K) (username : String) (b : SendingKeyBundle K)
    (j : Journal K) :
    ∃ accepted, j.post server username b = ⟨j.store, j.log ++ [.posted username b accepted]⟩ := by
  rw [post]
  split
  · exact ⟨true, rfl⟩
  · exact ⟨false, rfl⟩

variable [Zero K] [LinearOrder K] {S : Sodium K}

/-- **The server does not reach the store**: what is created is what
`create_ratchets_if_needed` creates whatever the server answers. -/
theorem createRatchetsIfNeeded_store (postToServer : Bool) (bundles : List (KeyBundle K)) :
    (j.createRatchetsIfNeeded server S ks username postToServer bundles).1
        = (j.store.createRatchetsIfNeeded S ks username postToServer bundles).result
      ∧ (j.createRatchetsIfNeeded server S ks username postToServer bundles).2.store
        = (j.store.createRatchetsIfNeeded S ks username postToServer bundles).store := by
  induction bundles generalizing j with
  | nil => exact ⟨rfl, rfl⟩
  | cons bundle bundles ih =>
    rw [createRatchetsIfNeeded, SessionStore.createRatchetsIfNeeded]
    by_cases hknown : (j.store.session username bundle.getTheirDevicePublic).isSome
    · rw [if_pos hknown, if_pos hknown]
      exact ih
    · rw [if_neg hknown, if_neg hknown]
      cases bundle.createRatchet S ks with
      | error e => exact ⟨rfl, rfl⟩
      | ok r =>
        cases bundle with
        | receiving b => exact ih
        | sending b =>
          cases postToServer with
          | false => exact ih
          | true =>
            simp only [if_true]
            have h := ih (j := post server username b { j with
              store := (j.store.hold username b.theirDevicePublic r).save username
                b.theirDevicePublic r })
            rw [post_store] at h
            exact h

end Store

end Journal

/-! ## What the sends leave of the sessions -/

namespace SessionStore

section Carried

/-- **The sessions are carried over**: there are the same ones, each with its
role; a row is what it was or that of a session; and no row is gone. -/
structure Carried [DecidableEq K] (s t : SessionStore K) : Prop where
  roles : ∀ u d, (t.session u d).map (·.reversed) = (s.session u d).map (·.reversed)
  rows : ∀ u d r, t.rows.lookup d = some (u, r) →
    s.rows.lookup d = some (u, r) ∨ (t.session u d).map (·.reversed) = some r.reversed
  kept : ∀ d, d ∈ s.rows → d ∈ t.rows

section Steps

variable [DecidableEq K] {s t v : SessionStore K} {u username : String} {d device : K}
  {r r' : NewRatchet K}

theorem Carried.refl (s : SessionStore K) : Carried s s :=
  ⟨fun _ _ => rfl, fun _ _ _ h => Or.inl h, fun _ h => h⟩

theorem Carried.trans (h : Carried s t) (h' : Carried t v) : Carried s v where
  roles u d := (h'.roles u d).trans (h.roles u d)
  rows u d r hrow := by
    rcases h'.rows u d r hrow with hrow | hrole
    · exact (h.rows u d r hrow).imp_right (h'.roles u d).trans
    · exact Or.inr hrole
  kept d hd := h'.kept d (h.kept d hd)

theorem carried_touch (s : SessionStore K) (username : String) : Carried s (s.touch username) where
  roles u d := by rw [session_touch]
  rows _ _ _ h := Or.inl h
  kept _ h := h

/-- A ratchet that moved is in its session as before. -/
theorem carried_hold (hr : s.session username device = some r)
    (hrole : r'.reversed = r.reversed) : Carried s (s.hold username device r') where
  roles u d := by
    by_cases he : (u, d) = (username, device)
    · obtain ⟨rfl, rfl⟩ := Prod.mk.inj he
      rw [session_hold, hr, Option.map_some, Option.map_some, hrole]
    · rw [session_hold_of_ne _ _ _ _ _ _ he]
  rows _ _ _ h := Or.inl h
  kept _ h := h

/-- Writing it puts it in the row. -/
theorem carried_save (hr : s.session username device = some r) :
    Carried s (s.save username device r) where
  roles _ _ := rfl
  rows u d r' hrow := by
    by_cases hd : d = device
    · subst hd
      rw [row_save] at hrow
      obtain ⟨rfl, rfl⟩ := Prod.mk.inj (Option.some.inj hrow)
      exact Or.inr (by rw [session_save, hr]; rfl)
    · rw [row_save_of_ne _ _ _ _ _ hd] at hrow
      exact Or.inl hrow
  kept _ h := Finmap.mem_insert.mpr (Or.inr h)

end Steps

variable [Zero K] [LinearOrder K] {S : Sodium K} {s : SessionStore K}

/-- **A key for every session** carries the sessions over, and what it
returns are keys of sessions. -/
theorem carried_advanceAll (username : String) (myDevicePublic : K) (devices : List K) :
    Carried s (s.advanceAll S username myDevicePublic devices).2
      ∧ ∀ keys, (s.advanceAll S username myDevicePublic devices).1 = .ok keys →
        ∀ key ∈ keys, (s.session username key.1).isSome := by
  induction devices generalizing s with
  | nil =>
    refine ⟨Carried.refl s, fun keys hk key hmem => ?_⟩
    rw [advanceAll, Except.ok.injEq] at hk
    rw [← hk] at hmem
    cases hmem
  | cons device devices ih =>
    rw [advanceAll]
    cases hr : s.session username device with
    | none => exact ih
    | some r =>
      simp only
      obtain ⟨due, root, ch, hframe⟩ := NewRatchet.advanceSend_frame (S := S) r
      rcases hsend : r.advanceSend S with ⟨result, r'⟩
      have hrole : r'.reversed = r.reversed := by
        rw [hsend] at hframe
        rw [show r' = _ from hframe]
      have hheld := carried_hold hr hrole
      cases result with
      | error e => exact ⟨hheld, fun _ hk => by cases hk⟩
      | ok m =>
        have hsaved := hheld.trans (carried_save (session_hold s username device r'))
        obtain ⟨hrest, hkeys⟩ :=
          ih (s := (s.hold username device r').save username device r')
        rcases hall : advanceAll S username myDevicePublic devices
          ((s.hold username device r').save username device r') with ⟨result, t⟩
        rw [hall] at hrest hkeys
        simp only [hall]
        cases result with
        | error e => exact ⟨hsaved.trans hrest, fun _ hk => by cases hk⟩
        | ok keys =>
          refine ⟨hsaved.trans hrest, fun keys' hk key hmem => ?_⟩
          obtain rfl := Except.ok.inj hk
          rcases List.mem_cons.mp hmem with rfl | hmem
          · rw [hr]
            rfl
          · have hsome := hkeys keys rfl key hmem
            rwa [← Option.isSome_map (f := (·.reversed)), hsaved.roles, Option.isSome_map] at hsome

theorem carried_advanceUser (ks : KeyStore K) (username : String) :
    Carried s (s.advanceUser S ks username).2
      ∧ ∀ keys, (s.advanceUser S ks username).1 = .ok keys →
        ∀ key ∈ keys, (s.session username key.1).isSome := by
  unfold advanceUser
  have htouch := carried_touch s username
  cases ks.getPublicKey .device with
  | error e => exact ⟨htouch, fun _ hk => by cases hk⟩
  | ok myDevicePublic =>
    obtain ⟨hall, hkeys⟩ := carried_advanceAll (S := S) (s := s.touch username) username
      myDevicePublic ((s.touch username).getDeviceIdsOfExistingHandshakes username)
    refine ⟨htouch.trans hall, fun keys hk key hmem => ?_⟩
    have hsome := hkeys keys hk key hmem
    rwa [session_touch] at hsome

end Carried

end SessionStore

/-! ## The invariant -/

section PostedOnce

variable {log more : List (SessionEvent K)} {username : String} {device : K}

/-- What comes after the one post is no post. -/
theorem PostedOnce.append (h : PostedOnce username device log)
    (hmore : ∀ e ∈ more, e.session = (username, device) → e.isPost = false) :
    PostedOnce username device (log ++ more) := by
  obtain ⟨pre, bundle, accepted, post, rfl, hdev, hpre, hpost⟩ := h
  refine ⟨pre, bundle, accepted, post ++ more, by rw [List.append_assoc, List.cons_append], hdev,
    hpre, fun e he => ?_⟩
  exact (List.mem_append.mp he).elim (hpost e) (hmore e)

/-- The first event about a session is its post. -/
theorem PostedOnce.first (h : ∀ e ∈ log, e.session ≠ (username, device))
    {bundle : SendingKeyBundle K} (hb : bundle.theirDevicePublic = device) (accepted : Bool) :
    PostedOnce username device (log ++ [.posted username bundle accepted]) :=
  ⟨log, bundle, accepted, [], rfl, hb, h, nofun⟩

end PostedOnce

/-- The role of a new ratchet is that of its bundle. -/
theorem KeyBundle.reversed_of_createRatchet [Zero K] [DecidableEq K] {S : Sodium K}
    {ks : KeyStore K} {b : KeyBundle K} {r : NewRatchet K} (h : b.createRatchet S ks = .ok r) :
    r.reversed = (b.getRole = .responder) := by
  cases b with
  | sending b =>
    obtain ⟨secret, -, h⟩ := exists_of_bind_eq_ok h
    obtain ⟨x, -, rfl⟩ := NewRatchet.exists_of_newInitiator S h
    simp [NewRatchet.initial, KeyBundle.getRole]
  | receiving b =>
    obtain ⟨secret, -, h⟩ := exists_of_bind_eq_ok h
    obtain ⟨signed, -, h⟩ := exists_of_bind_eq_ok h
    obtain ⟨x, -, rfl⟩ := NewRatchet.exists_of_newRecipient S h
    simp [NewRatchet.initial, KeyBundle.getRole]

namespace Journal

open SessionStore

section Invariant

/-- **What the log says of the sessions**, those of `base` being there from
the start. Whoever an event is about has a session; a row is that of a
session; an initiator session made since, and whatever was ever posted, is
posted once. -/
structure Kept [DecidableEq K] (base : SessionStore K) (j : Journal K) : Prop where
  known : ∀ e ∈ j.log, (j.store.session e.session.1 e.session.2).isSome
  stored : ∀ u d r, j.store.rows.lookup d = some (u, r) →
    (j.store.session u d).map (·.reversed) = some r.reversed
  initiated : ∀ u d, (j.store.session u d).map (·.reversed) = some false →
    base.session u d = none → PostedOnce u d j.log
  posted : ∀ u b accepted, .posted u b accepted ∈ j.log →
    PostedOnce u b.theirDevicePublic j.log ∧ b.theirDevicePublic ∈ j.store.rows

variable [LinearOrder K] {base s : SessionStore K} {j : Journal K} {username : String}
  {device : K} {r : NewRatchet K} {server : HandshakeServer K} {S : Sodium K}

/-- With an empty log, what is stored is what is live. -/
theorem Kept.start (h : base.Matches) : Kept base ⟨base, []⟩ where
  known := nofun
  stored u d r hrow := by
    rw [(matches_iff.mp h u d r).mpr hrow]
    rfl
  initiated u d hrole hnone := by
    rw [show (base.session u d) = none from hnone] at hrole
    cases hrole
  posted _ _ _ h := absurd h List.not_mem_nil

/-- Sessions carried over, and keys of sessions handed out. -/
theorem Kept.carried (h : Kept base j) (hs : Carried j.store s) (more : List (SessionEvent K))
    (hmore : ∀ e ∈ more, e.isPost = false ∧ (j.store.session e.session.1 e.session.2).isSome) :
    Kept base ⟨s, j.log ++ more⟩ where
  known e he := by
    rw [← Option.isSome_map (f := (·.reversed)), hs.roles, Option.isSome_map]
    exact (List.mem_append.mp he).elim (h.known e) fun he => (hmore e he).2
  stored u d r hrow := by
    rcases hs.rows u d r hrow with hrow | hrole
    · exact (hs.roles u d).trans (h.stored u d r hrow)
    · exact hrole
  initiated u d hrole hnone :=
    (h.initiated u d ((hs.roles u d).symm.trans hrole) hnone).append fun e he _ => (hmore e he).1
  posted u b accepted he := by
    rcases List.mem_append.mp he with he | he
    · obtain ⟨honce, hrow⟩ := h.posted u b accepted he
      exact ⟨honce.append fun e he _ => (hmore e he).1, hs.kept _ hrow⟩
    · cases (hmore _ he).1

/-- The store with one session more, in both copies. -/
theorem session_hold_save (u : String) (d : K) :
    ((s.hold username device r).save username device r).session u d
      = if (u, d) = (username, device) then some r else s.session u d := by
  rw [session_save]
  by_cases he : (u, d) = (username, device)
  · obtain ⟨rfl, rfl⟩ := Prod.mk.inj he
    rw [if_pos rfl, session_hold]
  · rw [if_neg he, session_hold_of_ne _ _ _ _ _ _ he]

/-- **A session made** where there was none: its handshake, if it is an
initiator's, is posted at once, as the first event about it. -/
theorem Kept.create (h : Kept base j) (hnone : j.store.session username device = none)
    (more : List (SessionEvent K))
    (hmore : (r.reversed = true ∧ more = []) ∨ ∃ b accepted,
      b.theirDevicePublic = device ∧ more = [.posted username b accepted]) :
    Kept base ⟨(j.store.hold username device r).save username device r, j.log ++ more⟩ := by
  have hnew : ∀ e ∈ j.log, e.session ≠ (username, device) := by
    intro e he heq
    have hsome := h.known e he
    rw [heq, hnone] at hsome
    cases hsome
  have hother : ∀ u d, (u, d) ≠ (username, device) → PostedOnce u d j.log →
      PostedOnce u d (j.log ++ more) := by
    intro u d hne honce
    refine honce.append fun e he heq => ?_
    rcases hmore with ⟨-, rfl⟩ | ⟨b, accepted, rfl, rfl⟩
    · cases he
    · obtain rfl := List.mem_singleton.mp he
      exact absurd heq.symm hne
  have hself : ∀ b accepted, b.theirDevicePublic = device →
      more = [.posted username b accepted] → PostedOnce username device (j.log ++ more) := by
    rintro b accepted hb rfl
    exact PostedOnce.first hnew hb accepted
  refine ⟨fun e he => ?_, fun u d r' hrow => ?_, fun u d hrole hbase => ?_,
    fun u b accepted he => ?_⟩
  · rw [session_hold_save]
    split
    · rfl
    · rename_i hne
      rcases List.mem_append.mp he with hold | hadd
      · exact h.known e hold
      · rcases hmore with ⟨-, rfl⟩ | ⟨b, accepted, rfl, rfl⟩
        · cases hadd
        · obtain rfl := List.mem_singleton.mp hadd
          exact absurd rfl hne
  · rw [session_hold_save]
    by_cases hd : d = device
    · subst hd
      rw [row_save] at hrow
      obtain ⟨rfl, rfl⟩ := Prod.mk.inj (Option.some.inj hrow)
      rw [if_pos rfl, Option.map_some]
    · rw [row_save_of_ne _ _ _ _ _ hd] at hrow
      rw [if_neg fun he => hd (Prod.mk.inj he).2]
      exact h.stored u d r' hrow
  · rw [session_hold_save] at hrole
    split at hrole
    · rename_i he
      obtain ⟨rfl, rfl⟩ := Prod.mk.inj he
      rcases hmore with ⟨hrev, -⟩ | ⟨b, accepted, hb, hm⟩
      · rw [Option.map_some, hrev] at hrole
        cases hrole
      · exact hself b accepted hb hm
    · exact hother u d ‹_› (h.initiated u d hrole hbase)
  · rcases List.mem_append.mp he with hold | hadd
    · obtain ⟨honce, hrow⟩ := h.posted u b accepted hold
      exact ⟨hother _ _ (hnew _ hold) honce, Finmap.mem_insert.mpr (Or.inr hrow)⟩
    · rcases hmore with ⟨-, rfl⟩ | ⟨b', accepted', rfl, rfl⟩
      · cases hadd
      · obtain ⟨rfl, rfl, rfl⟩ := SessionEvent.posted.inj (List.mem_singleton.mp hadd)
        exact ⟨hself _ _ rfl rfl, Finmap.mem_insert.mpr (Or.inl rfl)⟩

variable [Zero K]

/-- **`create_ratchets_if_needed` keeps it**, also where it throws. -/
theorem Kept.createRatchetsIfNeeded (h : Kept base j) (ks : KeyStore K) (username : String)
    (bundles : List (KeyBundle K)) :
    Kept base (j.createRatchetsIfNeeded server S ks username true bundles).2 := by
  have htouch : ∀ {j : Journal K}, Kept base j →
      Kept base { j with store := j.store.touch username } := by
    intro j h
    have ht := h.carried (carried_touch j.store username) [] nofun
    rwa [List.append_nil] at ht
  induction bundles generalizing j with
  | nil => exact htouch h
  | cons bundle bundles ih =>
    rw [Journal.createRatchetsIfNeeded]
    by_cases hknown : (j.store.session username bundle.getTheirDevicePublic).isSome
    · rw [if_pos hknown]
      exact ih h
    · rw [if_neg hknown]
      have hnone := Option.not_isSome_iff_eq_none.mp hknown
      cases hr : bundle.createRatchet S ks with
      | error e => exact htouch h
      | ok r =>
        cases bundle with
        | receiving b =>
          have hrev : r.reversed = true := by
            simp [KeyBundle.reversed_of_createRatchet hr, KeyBundle.getRole]
          have hmade := h.create hnone [] (Or.inl ⟨hrev, rfl⟩)
          rw [List.append_nil] at hmade
          exact ih hmade
        | sending b =>
          have hmade : Kept base (post server username b ⟨(j.store.hold username
              b.theirDevicePublic r).save username b.theirDevicePublic r, j.log⟩) := by
            obtain ⟨accepted, hpost⟩ := exists_of_post server username b ⟨(j.store.hold username
              b.theirDevicePublic r).save username b.theirDevicePublic r, j.log⟩
            rw [hpost]
            exact h.create hnone _ (Or.inr ⟨b, accepted, rfl, rfl⟩)
          exact ih hmade

/-- **A call keeps it.** -/
theorem Kept.call (h : Kept base j) (c : Call K) : Kept base (j.call server S c).2 := by
  cases c with
  | createRatchetsIfNeeded ks username bundles => exact h.createRatchetsIfNeeded ks username bundles
  | getKeysForIdentity ks username newBundles =>
    have hensured : Kept base (j.ensureRatchets server S ks username newBundles).2 := by
      match newBundles with
      | none => exact h
      | some (.error e) => exact h
      | some (.ok bundles) => exact h.createRatchetsIfNeeded ks username _
    show Kept base (j.getKeysForIdentity server S ks username newBundles).2
    unfold Journal.getKeysForIdentity
    rcases hcreated : j.ensureRatchets server S ks username newBundles with ⟨result, j'⟩
    rw [hcreated] at hensured
    cases result with
    | error e => exact hensured
    | ok _ =>
      obtain ⟨hcarried, hkeys⟩ := carried_advanceUser (S := S) (s := j'.store) ks username
      simp only
      unfold Journal.advanceUser
      rcases hadvanced : j'.store.advanceUser S ks username with ⟨result, s⟩
      rw [hadvanced] at hcarried hkeys
      cases result with
      | error e =>
        have ht := Kept.carried hensured hcarried [] nofun
        rwa [List.append_nil] at ht
      | ok keys =>
        refine Kept.carried hensured hcarried _ fun e he => ?_
        obtain ⟨key, hmem, rfl⟩ := List.mem_map.mp he
        exact ⟨rfl, hkeys keys rfl key hmem⟩

/-- **A run keeps it.** -/
theorem Kept.run (h : Kept base j) (calls : List (Call K)) : Kept base (j.run server S calls) := by
  induction calls generalizing j with
  | nil => exact h
  | cons c calls ih => exact ih (h.call c)

end Invariant

/-! ## The result -/

variable [LinearOrder K] [Zero K] (server : HandshakeServer K) (S : Sodium K)

/-- **One post for a session.** After any calls, whichever of their posts
fail: the handshake of every initiator session made since the start, in
memory or in the database, was posted once, at the first that was seen of it
and hence before any key was handed out on it. And whatever was posted, with
or without success, is a session from then on: its device is among those
reported as known, it has a row, and there was no second post. -/
theorem posted_once {base : SessionStore K} (hbase : base.Matches) (calls : List (Call K)) :
    let j := run server S calls ⟨base, []⟩
    (∀ u d r, j.store.session u d = some r ∨ j.store.rows.lookup d = some (u, r) →
        r.reversed = false → base.session u d = none → PostedOnce u d j.log)
      ∧ ∀ u b accepted, .posted u b accepted ∈ j.log →
        b.theirDevicePublic ∈ j.store.getDeviceIdsOfExistingHandshakes u
          ∧ b.theirDevicePublic ∈ j.store.rows
          ∧ PostedOnce u b.theirDevicePublic j.log := by
  intro j
  have h : Kept base j := (Kept.start hbase).run calls
  refine ⟨fun u d r hr hrole hnone => h.initiated u d ?_ hnone, fun u b accepted he => ?_⟩
  · rcases hr with hr | hr
    · rw [hr, Option.map_some, hrole]
    · rw [h.stored u d r hr, hrole]
  · obtain ⟨honce, hrow⟩ := h.posted u b accepted he
    exact ⟨SessionStore.mem_getDeviceIds_iff.mpr (h.known _ he), hrow, honce⟩

/-! ## The post that fails -/

/-- A server that refuses every post. -/
def refusing : HandshakeServer ℕ := fun _ _ => .error (.runtimeError "Failed to post handshake")

/-- Device 5 of the ideal library asks twice for keys for "bob", of whose
device 3 the server hands out the bundle both times. -/
def idealCalls : List (Call ℕ) :=
  List.replicate 2 (.getKeysForIdentity (.ideal 5) "bob" (some (.ok [.ideal 5])))

/-- **Refused and in use**: the one post is refused, the session it was for is
kept and written, and both calls hand out a key on it. -/
theorem handedOut_of_refused :
    let j := run refusing Sodium.ideal idealCalls ⟨⟨∅, ∅, ∅⟩, []⟩
    (j.store.session "bob" (Sodium.ideal.signPublic 3)).isSome
      ∧ Sodium.ideal.signPublic 3 ∈ j.store.rows
      ∧ j.log.map (fun e => (e.session, e.answer)) =
        [(("bob", Sodium.ideal.signPublic 3), some false),
          (("bob", Sodium.ideal.signPublic 3), none),
          (("bob", Sodium.ideal.signPublic 3), none)] := by
  decide +kernel

/-- It was posted once, and is not posted again. -/
theorem posted_once_refused :
    PostedOnce "bob" (Sodium.ideal.signPublic 3)
      (run refusing Sodium.ideal idealCalls ⟨⟨∅, ∅, ∅⟩, []⟩).log := by
  have hrole : ((run refusing Sodium.ideal idealCalls ⟨⟨∅, ∅, ∅⟩, []⟩).store.session "bob"
      (Sodium.ideal.signPublic 3)).map (·.reversed) = some false := by decide +kernel
  obtain ⟨r, hr, hrev⟩ := Option.map_eq_some_iff.mp hrole
  exact (posted_once refusing Sodium.ideal (matches_empty ∅) idealCalls).1 "bob" _ r (Or.inl hr)
    hrev (session_of_empty (by rw [ofUser, Finmap.lookup_empty]; rfl) _)

end Journal
