import Eastwood.Handshake
import Eastwood.Runs
import Eastwood.SessionManager

/-!
# What serves once

A handshake names a one-time prekey of the device it is for, and the device
looks up its private key and makes a session. Looking it up is all that is
ever done with it: no statement deletes a row of `onetime_prekeys`, so that
the next handshake that names the same prekey finds it again, from whichever
device it is (`twoSessions_onePrekey`).

What a handshake does use up is its place in the map of sessions. However
often handshakes of a user's device are handed out, and in whichever
backlogs, one of them makes its session, and none after that does
(`handshakes_answeredOnce`).
-/

/-- **A device that is asked for sessions**: its keys, and the sessions it
has. -/
structure Responding where
  ks : KeyStore Key
  store : SessionStore Key

/-- The session a handshake is for. -/
def sessionOf {K : Type} (h : String × ReceivingKeyBundle K) : String × K :=
  (h.1, h.2.theirDevicePublic)

section Handshakes

variable {K : Type} [Zero K] [LinearOrder K] (S : Sodium K) (ks : KeyStore K)

/-- **The handshakes of a backlog that make a session**, as far as
`update_handshakes` gets. -/
def answered : List (String × ReceivingKeyBundle K) → SessionStore K →
    List (String × ReceivingKeyBundle K)
  | [], _ => []
  | h :: handshakes, s =>
    let created := s.createRatchetsIfNeeded S ks h.1 true [.receiving h.2]
    match created.result with
    | .error _ => []
    | .ok () =>
      if (s.session h.1 h.2.theirDevicePublic).isSome then answered handshakes created.store
      else h :: answered handshakes created.store

/-- **What handshakes leave**: every session there was, and one of each that
was answered, made of it where there was none. -/
structure Answers (s : SessionStore K) (log : List (String × ReceivingKeyBundle K))
    (s' : SessionStore K) : Prop where
  kept : ∀ u d r, s.session u d = some r → s'.session u d = some r
  /-- An answered handshake is of a session that was not there, and is made
  of it. -/
  made : ∀ h ∈ log, s.session h.1 h.2.theirDevicePublic = none
    ∧ ∃ r, h.2.createRatchet S ks = .ok r ∧ s'.session h.1 h.2.theirDevicePublic = some r
  /-- No two are of one session. -/
  once : (log.map sessionOf).Nodup
  only : ∀ u d, (s'.session u d).isSome → (s.session u d).isSome ∨ (u, d) ∈ log.map sessionOf

variable {S} {ks} {s s' s'' : SessionStore K} {log log' : List (String × ReceivingKeyBundle K)}

theorem Answers.refl (s : SessionStore K) : Answers S ks s [] s :=
  ⟨fun _ _ _ hr => hr, fun _ hh => absurd hh List.not_mem_nil, List.nodup_nil,
    fun _ _ hsome => Or.inl hsome⟩

/-- What is answered later has no session yet, so it is none of those before. -/
theorem Answers.trans (h : Answers S ks s log s') (h' : Answers S ks s' log' s'') :
    Answers S ks s (log ++ log') s'' := by
  refine ⟨fun u d r hr => h'.kept u d r (h.kept u d r hr), fun x hx => ?_, ?_, fun u d hsome => ?_⟩
  · obtain hx | hx := List.mem_append.mp hx
    · obtain ⟨hnone, r, hcreated, hr⟩ := h.made x hx
      exact ⟨hnone, r, hcreated, h'.kept _ _ r hr⟩
    · obtain ⟨hnone, hcreated⟩ := h'.made x hx
      refine ⟨?_, hcreated⟩
      cases hr : s.session x.1 x.2.theirDevicePublic with
      | none => rfl
      | some r => exact (h.kept _ _ r hr).symm.trans hnone
  · rw [List.map_append]
    refine List.nodup_append.mpr ⟨h.once, h'.once, ?_⟩
    rintro p hp q hq rfl
    obtain ⟨x, hx, rfl⟩ := List.mem_map.mp hp
    obtain ⟨y, hy, hxy⟩ := List.mem_map.mp hq
    obtain ⟨-, r, -, hr⟩ := h.made x hx
    obtain ⟨hu, hd⟩ := Prod.mk.inj hxy
    have hnone := (h'.made y hy).1
    rw [hu, hd, hr] at hnone
    cases hnone
  · rw [List.map_append, List.mem_append, ← or_assoc]
    exact (h'.only u d hsome).imp_left (h.only u d)

/-- **One handshake** is answered if there is no session of it and its secret
can be computed. -/
theorem Answers.single (h : String × ReceivingKeyBundle K)
    (hok : (s.createRatchetsIfNeeded S ks h.1 true [.receiving h.2]).result = .ok ()) :
    Answers S ks s (if (s.session h.1 h.2.theirDevicePublic).isSome then [] else [h])
      (s.createRatchetsIfNeeded S ks h.1 true [.receiving h.2]).store := by
  have hkept : ∀ u d r, s.session u d = some r →
      (s.createRatchetsIfNeeded S ks h.1 true [.receiving h.2]).store.session u d = some r :=
    fun u d r hr => SessionStore.createRatchetsIfNeeded_keeps hr h.1 true _
  by_cases hsome : (s.session h.1 h.2.theirDevicePublic).isSome
  · rw [if_pos hsome]
    have hsame : s.createRatchetsIfNeeded S ks h.1 true [.receiving h.2] = _ :=
      SessionStore.createRatchetsIfNeeded_of_session hsome true []
    refine ⟨hkept, fun _ hx => absurd hx List.not_mem_nil, List.nodup_nil, fun u d hnew => ?_⟩
    rw [hsame] at hnew
    exact Or.inl ((SessionStore.session_touch s h.1 u d) ▸ hnew)
  · rw [if_neg hsome]
    rw [Bool.not_eq_true, Option.isSome_eq_false_iff, Option.isNone_iff_eq_none] at hsome
    have hcreated : s.createRatchetsIfNeeded S ks h.1 true [.receiving h.2] = _ :=
      SessionStore.createRatchetsIfNeeded_of_none hsome true
    cases hr : (KeyBundle.receiving h.2).createRatchet S ks with
    | error e =>
      rw [hcreated, hr] at hok
      cases hok
    | ok r =>
      rw [hr] at hcreated
      refine ⟨hkept, fun x hx => ?_, List.nodup_singleton _, fun u d hnew => ?_⟩
      · obtain rfl := List.mem_singleton.mp hx
        refine ⟨hsome, r, hr, ?_⟩
        rw [hcreated, SessionStore.session_touch, SessionStore.session_save]
        exact SessionStore.session_hold ..
      · by_cases he : (u, d) = (h.1, h.2.theirDevicePublic)
        · exact Or.inr (List.mem_singleton.mpr he)
        · rw [hcreated, SessionStore.session_touch, SessionStore.session_save] at hnew
          exact Or.inl ((SessionStore.session_hold_of_ne _ _ _ _ _ _ he) ▸ hnew)

/-- **One that is refused** makes nothing. -/
theorem Answers.refused {h : String × ReceivingKeyBundle K} {e : Fault}
    (herror : (s.createRatchetsIfNeeded S ks h.1 true [.receiving h.2]).result = .error e) :
    Answers S ks s [] (s.createRatchetsIfNeeded S ks h.1 true [.receiving h.2]).store := by
  have hsame : ∀ u d, (s.createRatchetsIfNeeded S ks h.1 true [.receiving h.2]).store.session u d
      = s.session u d := by
    cases hsome : s.session h.1 h.2.theirDevicePublic with
    | some r =>
      rw [SessionStore.createRatchetsIfNeeded_of_session (b := .receiving h.2) (by
        show (s.session h.1 h.2.theirDevicePublic).isSome
        rw [hsome]
        rfl)] at herror
      cases herror
    | none =>
      have hcreated : s.createRatchetsIfNeeded S ks h.1 true [.receiving h.2] = _ :=
        SessionStore.createRatchetsIfNeeded_of_none hsome true
      cases hr : (KeyBundle.receiving h.2).createRatchet S ks with
      | ok r =>
        rw [hcreated, hr] at herror
        cases herror
      | error e =>
        rw [hr] at hcreated
        rw [hcreated]
        exact SessionStore.session_touch s h.1
  exact ⟨fun u d r hr => (hsame u d).trans hr, fun _ hx => absurd hx List.not_mem_nil,
    List.nodup_nil, fun u d hnew => Or.inl ((hsame u d) ▸ hnew)⟩

/-- **A backlog.** -/
theorem Answers.updateHandshakes (handshakes : List (String × ReceivingKeyBundle K)) :
    Answers S ks s (answered S ks handshakes s) (s.updateHandshakes S ks handshakes).2 := by
  induction handshakes generalizing s with
  | nil => exact .refl s
  | cons h handshakes ih =>
    rw [answered, SessionStore.updateHandshakes]
    cases hresult : (s.createRatchetsIfNeeded S ks h.1 true [.receiving h.2]).result with
    | error e => exact .refused hresult
    | ok _ =>
      simp only
      have hsingle := (Answers.single h hresult).trans ih
      split
      · rwa [if_pos ‹_›, List.nil_append] at hsingle
      · rwa [if_neg ‹_›] at hsingle

end Handshakes

/-! ## Backlogs -/

namespace Responding

variable (S : Sodium Key)

/-- **`update_handshakes`**, given the reply to the request for them. -/
def updateHandshakes (reply : Option Json) (d : Responding) : Except Fault Unit × Responding :=
  match getHandshakeBacklog d.ks reply with
  | .error e => (.error e, d)
  | .ok handshakes =>
    let updated := d.store.updateHandshakes S d.ks handshakes
    (updated.1, { d with store := updated.2 })

/-- The handshakes it answers, and the device afterwards. -/
def step (reply : Option Json) (d : Responding) :
    List (String × ReceivingKeyBundle Key) × Responding :=
  (match getHandshakeBacklog d.ks reply with
    | .error _ => []
    | .ok handshakes => answered S d.ks handshakes d.store,
  (d.updateHandshakes S reply).2)

/-- **The first of a session is answered, and no other.** After any sequence
of backlogs, whether they were worked through or broke off: the sessions
there were are as they were; those there are more are each made of one
handshake, and no session of more than one. The one-time prekeys are what
they were, whichever were named: `get_onetime_private_key` returns the same,
and any handshake of a session that is not there makes one now if it could
have at the start. -/
theorem handshakes_answeredOnce (replies : List (Option Json)) (d : Responding) :
    let d' := Run.final (step S) replies d
    Answers S d.ks d.store (Run.outputs (step S) replies d) d'.store
      ∧ (∀ publicKey, d'.ks.getOnetimePrivateKey publicKey = d.ks.getOnetimePrivateKey publicKey)
      ∧ ∀ h : String × ReceivingKeyBundle Key, d'.store.session h.1 h.2.theirDevicePublic = none →
        ∀ r, h.2.createRatchet S d.ks = .ok r →
          (d'.store.updateHandshakes S d'.ks [h]).2.session h.1 h.2.theirDevicePublic = some r := by
  intro d'
  have hrun : d'.ks = d.ks ∧ Answers S d.ks d.store (Run.outputs (step S) replies d) d'.store := by
    refine Run.final_induction (R := fun d log d' => d'.ks = d.ks
      ∧ Answers S d.ks d.store log d'.store) (fun d => ⟨rfl, .refl _⟩) ?_ ?_ replies d
    · rintro d d₁ d₂ log log' ⟨hks, h⟩ ⟨hks', h'⟩
      rw [hks] at h'
      exact ⟨hks'.trans hks, h.trans h'⟩
    · intro reply d
      unfold step updateHandshakes
      cases getHandshakeBacklog d.ks reply with
      | error e => exact ⟨rfl, .refl _⟩
      | ok handshakes => exact ⟨rfl, .updateHandshakes handshakes⟩
  refine ⟨hrun.2, fun publicKey => by rw [hrun.1], fun h hnone r hr => ?_⟩
  rw [hrun.1]
  have hcreated : d'.store.createRatchetsIfNeeded S d.ks h.1 true [.receiving h.2] = _ :=
    SessionStore.createRatchetsIfNeeded_of_none hnone true
  rw [show (KeyBundle.receiving h.2).createRatchet S d.ks = .ok r from hr] at hcreated
  rw [SessionStore.updateHandshakes, hcreated]
  show (((d'.store.hold _ _ r).save _ _ r).touch _).session _ _ = _
  rw [SessionStore.session_touch, SessionStore.session_save]
  exact SessionStore.session_hold ..

/-! ## One prekey, two devices -/

/-- A handshake of alice's device with the one-time prekey of the device. -/
def handshake (device : UInt8) : Json := .obj
  [("username", .str "alice"),
    ("initiator_device_public_key", .str (Sodium.bytes.signPublic (.repeated device)).hex),
    ("initiator_ephemeral_public_key", .str (Sodium.bytes.boxPublic (.repeated 7)).hex),
    ("recipient_onetime_public_prekey", .str (Sodium.bytes.boxPublic (.repeated 3)).hex)]

/-- The device has that prekey and no session. -/
def offering : Responding := ⟨(Published.repeated true).ks, ⟨∅, ∅, ∅⟩⟩

/-- Two backlogs, with a handshake of one device and of another. -/
def asked : Responding :=
  Run.final (step Sodium.bytes) [some (.obj [("data", .arr [handshake 5])]),
    some (.obj [("data", .arr [handshake 6])])] offering

/-- **Both make a session with the one prekey**, and it is there still. -/
theorem twoSessions_onePrekey :
    (asked.store.session "alice" (Sodium.bytes.signPublic (.repeated 5))).isSome
      ∧ (asked.store.session "alice" (Sodium.bytes.signPublic (.repeated 6))).isSome
      ∧ asked.ks.getOnetimePrivateKey (Sodium.bytes.boxPublic (.repeated 3))
        = some (.repeated 3) := by
  decide +kernel

end Responding
