import Eastwood.StoredSessions

/-!
# One key for every device

What `get_keys_for_identity` does when it returns: every session with the
user has sent once, and what it gave is in the answer, once, under its
device, with the own device's key in the header (`AdvancedAll`). No other
session is touched.

It returns if every ratchet does (`advanceUser_isOk`). If one refuses, the
call throws where it meets it, and what the others gave is lost
(`advanceUser_not_isOk`). A refusal leaves the ratchet as it was, so that
where all refuse the call changes nothing (`session_advanceUser_refused`).
-/

variable {K : Type}

namespace SessionStore

section Advance

variable [Zero K] [LinearOrder K] (S : Sodium K)

/-- **A send of a session**: an entry of the answer is the key and the header
its ratchet gave, with the own device's key, and the ratchet is kept as it
was left. -/
def Advanced (myDevicePublic : K) (username : String) (s t : SessionStore K)
    (entry : K × K × MessageHeader K) : Prop :=
  ∃ r r' header, s.session username entry.1 = some r
    ∧ r.advanceSend S = (.ok (entry.2.1, header), r')
    ∧ entry.2.2 = { header with deviceId := myDevicePublic }
    ∧ t.session username entry.1 = some r'

/-- **Every session with some devices of a user has sent once**, and no other
has. -/
structure AdvancedAll (myDevicePublic : K) (username : String) (devices : List K)
    (s t : SessionStore K) (keys : List (K × K × MessageHeader K)) : Prop where
  listed : keys.map Prod.fst = devices
  advanced : ∀ entry ∈ keys, Advanced S myDevicePublic username s t entry
  others : ∀ u d, (u ≠ username ∨ d ∉ devices) → t.session u d = s.session u d

variable {S} {ks : KeyStore K} {s t : SessionStore K} {username u : String} {d device : K}
variable {myDevicePublic : K} {devices : List K} {keys : List (K × K × MessageHeader K)}
variable {r r' : NewRatchet K}

omit [Zero K] in
/-- A ratchet held and saved is that session's, and no other's. -/
theorem session_hold_save_of_ne (h : u ≠ username ∨ d ≠ device) :
    ((s.hold username device r).save username device r).session u d = s.session u d := by
  rw [session_save]
  refine session_hold_of_ne _ _ _ _ _ _ fun he => ?_
  exact h.elim (fun hu => hu (congrArg Prod.fst he)) fun hd => hd (congrArg Prod.snd he)

/-- **The loop, if it returned.** -/
theorem AdvancedAll.of_advanceAll (hnodup : devices.Nodup)
    (hsome : ∀ d ∈ devices, (s.session username d).isSome)
    (h : s.advanceAll S username myDevicePublic devices = (.ok keys, t)) :
    AdvancedAll S myDevicePublic username devices s t keys := by
  induction devices generalizing s keys with
  | nil =>
    obtain ⟨hkeys, rfl⟩ := Prod.mk.inj h
    obtain rfl := Except.ok.inj hkeys
    exact ⟨rfl, fun _ he => absurd he List.not_mem_nil, fun _ _ _ => rfl⟩
  | cons device devices ih =>
    obtain ⟨hdevice, hnodup⟩ := List.nodup_cons.mp hnodup
    obtain ⟨r, hr⟩ := Option.isSome_iff_exists.mp (hsome device List.mem_cons_self)
    rw [advanceAll] at h
    simp only [hr] at h
    rcases hsend : r.advanceSend S with ⟨result, r'⟩
    cases result with
    | error e =>
      simp only [hsend] at h
      cases (Prod.mk.inj h).1
    | ok m =>
      obtain ⟨key, header⟩ := m
      simp only [hsend] at h
      set s' := (s.hold username device r').save username device r' with hs'
      have hsame : ∀ d, d ∈ devices → s'.session username d = s.session username d :=
        fun d hd => session_hold_save_of_ne (Or.inr fun he => hdevice (he ▸ hd))
      rcases hall : s'.advanceAll S username myDevicePublic devices with ⟨result, t'⟩
      cases result with
      | error e =>
        simp only [hall] at h
        cases (Prod.mk.inj h).1
      | ok rest =>
        simp only [hall] at h
        obtain ⟨hkeys, rfl⟩ := Prod.mk.inj h
        obtain rfl := Except.ok.inj hkeys
        obtain ⟨hdevices, hadvanced, hothers⟩ := ih hnodup (fun d hd => by
          rw [hsame d hd]
          exact hsome d (List.mem_cons_of_mem _ hd)) hall
        refine ⟨congrArg (device :: ·) hdevices, fun entry he => ?_, fun u d hud => ?_⟩
        · obtain rfl | he := List.mem_cons.mp he
          · refine ⟨r, r', header, hr, hsend, rfl, ?_⟩
            rw [hothers username device (Or.inr hdevice), hs', session_save, session_hold]
          · obtain ⟨r₁, r₂, header₁, hr₁, hsend₁, hheader₁, ht₁⟩ := hadvanced entry he
            refine ⟨r₁, r₂, header₁, ?_, hsend₁, hheader₁, ht₁⟩
            rwa [← hsame entry.1 (hdevices ▸ List.mem_map_of_mem he)]
        · rw [hothers u d (hud.imp_right fun hd hmem => hd (List.mem_cons_of_mem _ hmem)), hs']
          exact session_hold_save_of_ne (hud.imp_right fun hd he => hd (he ▸ List.mem_cons_self))

/-- **It returns** if every ratchet does. -/
theorem advanceAll_isOk (hnodup : devices.Nodup)
    (hok : ∀ d ∈ devices, ∀ r, s.session username d = some r → (r.advanceSend S).1.isOk) :
    (s.advanceAll S username myDevicePublic devices).1.isOk := by
  induction devices generalizing s with
  | nil => rfl
  | cons device devices ih =>
    obtain ⟨hdevice, hnodup⟩ := List.nodup_cons.mp hnodup
    rw [advanceAll]
    cases hr : s.session username device with
    | none => exact ih hnodup fun d hd => hok d (List.mem_cons_of_mem _ hd)
    | some r =>
      have hsend := hok device List.mem_cons_self r hr
      rcases hadvance : r.advanceSend S with ⟨result, r'⟩
      rw [hadvance] at hsend
      cases result with
      | error e => cases hsend
      | ok m =>
        have hrest := ih (s := (s.hold username device r').save username device r') hnodup
          fun d hd r₁ hr₁ => hok d (List.mem_cons_of_mem _ hd) r₁ (by
            have hne : d ≠ device := fun he => hdevice (he ▸ hd)
            rwa [session_hold_save_of_ne (Or.inr hne)] at hr₁)
        rcases hall : ((s.hold username device r').save username device r').advanceAll S username
          myDevicePublic devices with ⟨result, t⟩
        rw [hall] at hrest
        cases result with
        | error e => cases hrest
        | ok keys =>
          simp only [hadvance, hall]
          rfl

/-- **If every ratchet refuses, none moves.** -/
theorem session_advanceAll_refused
    (hrefused : ∀ d ∈ devices, ∀ r, s.session username d = some r →
      ∃ e r', r.advanceSend S = (.error e, r') ∧ e.isUndefined = false) (u : String) (d : K) :
    (s.advanceAll S username myDevicePublic devices).2.session u d = s.session u d := by
  induction devices with
  | nil => rfl
  | cons device devices ih =>
    rw [advanceAll]
    cases hr : s.session username device with
    | none => exact ih fun d hd => hrefused d (List.mem_cons_of_mem _ hd)
    | some r =>
      obtain ⟨e, r', hsend, hundefined⟩ := hrefused device List.mem_cons_self r hr
      obtain rfl := NewRatchet.eq_of_advanceSend_refused hsend hundefined
      simp only [hsend]
      by_cases he : (u, d) = (username, device)
      · obtain ⟨rfl, rfl⟩ := Prod.mk.inj he
        rw [session_hold, hr]
      · exact session_hold_of_ne _ _ _ _ _ _ he

/-! ## The devices of a user -/

omit [Zero K] in
@[simp] theorem getDeviceIds_touch : (s.touch u).getDeviceIdsOfExistingHandshakes username
    = s.getDeviceIdsOfExistingHandshakes username := by
  rw [getDeviceIdsOfExistingHandshakes, ofUser_touch, getDeviceIdsOfExistingHandshakes]

omit [Zero K] in
/-- No session, no device. -/
theorem getDeviceIds_eq_nil_iff :
    s.getDeviceIdsOfExistingHandshakes username = [] ↔ ∀ d, s.session username d = none := by
  rw [List.eq_nil_iff_forall_not_mem]
  refine forall_congr' fun d => ?_
  rw [mem_getDeviceIds_iff, Bool.not_eq_true, Option.isSome_eq_false_iff, Option.isNone_iff_eq_none]

/-- With the own device's key, it is the loop over the devices there are
sessions with. -/
theorem advanceUser_eq (hdev : ks.getPublicKey .device = .ok myDevicePublic) :
    s.advanceUser S ks username = (s.touch username).advanceAll S username myDevicePublic
      (s.getDeviceIdsOfExistingHandshakes username) := by
  rw [advanceUser, hdev]
  show (s.touch username).advanceAll S username myDevicePublic
    ((s.touch username).getDeviceIdsOfExistingHandshakes username) = _
  rw [getDeviceIds_touch]

/-- Without, it throws. -/
theorem advanceUser_of_error {e : Fault} (hdev : ks.getPublicKey .device = .error e) :
    s.advanceUser S ks username = (.error e, s.touch username) := by
  rw [advanceUser, hdev]

/-- **What `get_keys_for_identity` gives for a user** whose sessions are
there, if it returned. -/
theorem AdvancedAll.of_advanceUser (h : (s.advanceUser S ks username).1 = .ok keys) :
    ∃ myDevicePublic, ks.getPublicKey .device = .ok myDevicePublic
      ∧ AdvancedAll S myDevicePublic username (s.getDeviceIdsOfExistingHandshakes username) s
        (s.advanceUser S ks username).2 keys := by
  cases hdev : ks.getPublicKey .device with
  | error e =>
    rw [advanceUser_of_error hdev] at h
    cases h
  | ok myDevicePublic =>
    refine ⟨myDevicePublic, rfl, ?_⟩
    rw [advanceUser_eq hdev] at h ⊢
    have hsome : ∀ d ∈ s.getDeviceIdsOfExistingHandshakes username,
        ((s.touch username).session username d).isSome := fun d hd => by
      rw [session_touch]
      exact mem_getDeviceIds_iff.mp hd
    have hall : AdvancedAll S myDevicePublic username _ (s.touch username) _ keys :=
      AdvancedAll.of_advanceAll nodup_getDeviceIds hsome (Prod.ext h rfl)
    refine ⟨hall.listed, fun entry he => ?_, fun u d hud => ?_⟩
    · obtain ⟨r, r', header, hr, hrest⟩ := hall.advanced entry he
      rw [session_touch] at hr
      exact ⟨r, r', header, hr, hrest⟩
    · exact (hall.others u d hud).trans (session_touch ..)

/-- **It returns** if every ratchet does. -/
theorem advanceUser_isOk (hdev : (ks.getPublicKey .device).isOk)
    (hok : ∀ d r, s.session username d = some r → (r.advanceSend S).1.isOk) :
    (s.advanceUser S ks username).1.isOk := by
  obtain ⟨myDevicePublic, hdev⟩ := exists_of_isOk hdev
  rw [advanceUser_eq hdev]
  refine advanceAll_isOk nodup_getDeviceIds fun d _ r hr => hok d r ?_
  rwa [session_touch] at hr

/-- **It throws** if one does not. -/
theorem advanceUser_not_isOk (ks : KeyStore K) (hr : s.session username d = some r)
    (hrefused : ¬ (r.advanceSend S).1.isOk) : ¬ (s.advanceUser S ks username).1.isOk := by
  intro hreturned
  obtain ⟨keys, hkeys⟩ := exists_of_isOk hreturned
  obtain ⟨_, -, hall⟩ := AdvancedAll.of_advanceUser hkeys
  have hmem : d ∈ keys.map Prod.fst := by
    rw [hall.listed, mem_getDeviceIds_iff, hr]
    rfl
  obtain ⟨entry, he, rfl⟩ := List.mem_map.mp hmem
  obtain ⟨r', _, _, hr', hsend, -⟩ := hall.advanced entry he
  obtain rfl := Option.some.inj (hr.symm.trans hr')
  exact hrefused (by rw [hsend]; rfl)

/-- It changes nothing if every ratchet refuses. -/
theorem session_advanceUser_refused (hrefused : ∀ d r, s.session username d = some r →
      ∃ e r', r.advanceSend S = (.error e, r') ∧ e.isUndefined = false) (u : String) (d : K) :
    (s.advanceUser S ks username).2.session u d = s.session u d := by
  cases hdev : ks.getPublicKey .device with
  | error e =>
    rw [advanceUser_of_error hdev]
    exact session_touch ..
  | ok myDevicePublic =>
    rw [advanceUser_eq hdev]
    refine (session_advanceAll_refused (fun d _ r hr => hrefused d r ?_) u d).trans
      (session_touch ..)
    rwa [session_touch] at hr

end Advance

end SessionStore
