import Eastwood.IdentityKeys
import Eastwood.Runs

/-!
# Independent sessions

Each session is a ratchet by itself, moved by the calls addressed to it. The
manager keeps them all in one nested map, and its calls are over a list of
bundles or over all devices of a user.

A session does what its ratchet does (`SessionCall.alone`), whatever else is
in the map, as long as no such call breaks off between two sessions: neither
`create_ratchets_if_needed` at a bundle it cannot use while usable ones are
left, nor `get_keys_for_identity` at a ratchet that refuses after others gave
their keys. Along calls none of which does (`SessionCall.Smooth`), a session
produces what it produces if only the calls addressed to it are made
(`SessionCall.outputs_addressedTo`).
-/

variable {K : Type}

/-- **A call of the session manager**; `get_keys_for_identity` is not to ask
for new bundles. -/
inductive SessionCall (K : Type) where
  | createRatchetsIfNeeded (ks : KeyStore K) (username : String) (bundles : List (KeyBundle K))
      (postToServer : Bool)
  | getKeysForIdentity (ks : KeyStore K) (username : String)
  | getKeyForDevice (fresh : K) (username : String) (header : MessageHeader K)

/-- What a session produces: a key and a header for a message to send, or the
key of one that was received. -/
inductive Produced (K : Type) where
  | sent (key : K) (header : MessageHeader K)
  | received (key : K)
  deriving DecidableEq

namespace SessionCall

variable [Zero K] [LinearOrder K] (S : Sodium K)

/-! ## What is compared -/

omit [Zero K] [LinearOrder K] in
/-- As a call that may ask for bundles. -/
def call : SessionCall K → SessionStore.Call K
  | createRatchetsIfNeeded ks username bundles post =>
    .createRatchetsIfNeeded ks username bundles post
  | getKeysForIdentity ks username => .getKeysForIdentity ks username none
  | getKeyForDevice fresh username header => .getKeyForDevice fresh username header

/-- The store a call leaves. -/
def after (c : SessionCall K) (s : SessionStore K) : SessionStore K := (c.call.run S s).2

/-- **What a session produces in a call**: the entries of its device in the
answer, or the key the answer is. -/
def produces (u : String) (d : K) : SessionCall K → SessionStore K → List (Produced K)
  | createRatchetsIfNeeded .., _ => []
  | getKeysForIdentity ks username, s =>
    match (s.getKeysForIdentity S ks username none).result with
    | .error _ => []
    | .ok keys =>
      if username = u then (keys.filter (·.1 = d)).map fun e => .sent e.2.1 e.2.2 else []
  | getKeyForDevice fresh username header, s =>
    match (s.getKeyForDevice S fresh username header).1 with
    | .error _ => []
    | .ok key => if username = u ∧ header.deviceId = d then [.received key] else []

/-- A call, as far as a session goes. -/
def step (u : String) (d : K) (c : SessionCall K) (s : SessionStore K) :
    List (Produced K) × SessionStore K :=
  (c.produces S u d s, c.after S s)

omit [Zero K] in
/-- **The calls addressed to a session**: of its user, and of its device or of
all devices; of the bundles, those of its device. -/
def addressedTo (u : String) (d : K) : SessionCall K → Option (SessionCall K)
  | createRatchetsIfNeeded ks username bundles post =>
    if username = u then
      some (createRatchetsIfNeeded ks username (bundles.filter (·.getTheirDevicePublic = d)) post)
    else none
  | getKeysForIdentity ks username =>
    if username = u then some (getKeysForIdentity ks username) else none
  | getKeyForDevice fresh username header =>
    if username = u ∧ header.deviceId = d then some (getKeyForDevice fresh username header)
    else none

end SessionCall

/-- The store with one session and no other. -/
def SessionStore.only [LinearOrder K] (u : String) (d : K) (s : SessionStore K) : SessionStore K :=
  match s.session u d with
  | some r => { s with ratchets := Finmap.singleton u (Finmap.singleton d r) }
  | none => s.restart

/-! ## A session by itself -/

namespace SessionCall

variable [Zero K] [LinearOrder K] (S : Sodium K)

/-- **A session by itself**: what a call has its ratchet produce, and the
ratchet it leaves. The first bundle of its device makes the ratchet, if it
can be used and there is none. -/
def alone (u : String) (d : K) : SessionCall K → Option (NewRatchet K) →
    List (Produced K) × Option (NewRatchet K)
  | createRatchetsIfNeeded ks username bundles _, r =>
    ([], if username = u then
      r.or ((bundles.find? (·.getTheirDevicePublic = d)).bind fun b =>
        (b.createRatchet S ks).toOption)
    else r)
  | getKeysForIdentity ks username, some r =>
    if username = u then
      match ks.getPublicKey .device with
      | .error _ => ([], some r)
      | .ok myDevicePublic =>
        match r.advanceSend S with
        | (.error _, r) => ([], some r)
        | (.ok (key, header), r) =>
          ([.sent key { header with deviceId := myDevicePublic }], some r)
    else ([], some r)
  | getKeyForDevice fresh username header, some r =>
    if username = u ∧ header.deviceId = d then
      match r.advanceReceive S fresh header with
      | (.error _, r) => ([], some r)
      | (.ok key, r) => ([.received key], some r)
    else ([], some r)
  | getKeysForIdentity .., none => ([], none)
  | getKeyForDevice .., none => ([], none)

/-- **No usable bundle is left** where the loop of
`create_ratchets_if_needed` throws: whichever other device without a session
comes after that, its first bundle cannot be used either. -/
def NothingLeft (ks : KeyStore K) (username : String) :
    List (KeyBundle K) → SessionStore K → Prop
  | [], _ => True
  | bundle :: bundles, s =>
    let device := bundle.getTheirDevicePublic
    if (s.session username device).isSome then NothingLeft ks username bundles s
    else
      match bundle.createRatchet S ks with
      | .error _ => ∀ d, d ≠ device → s.session username d = none →
        ∀ b, bundles.find? (·.getTheirDevicePublic = d) = some b → ¬ (b.createRatchet S ks).isOk
      | .ok r => NothingLeft ks username bundles
          ((s.hold username device r).save username device r)

/-- **A call does not break off between two sessions.** -/
def Smooth : SessionCall K → SessionStore K → Prop
  | createRatchetsIfNeeded ks username bundles _, s => NothingLeft S ks username bundles s
  | getKeysForIdentity ks username, s =>
    (ks.getPublicKey .device).isOk →
      (∀ d r, s.session username d = some r → (r.advanceSend S).1.isOk)
        ∨ ∀ d r, s.session username d = some r →
          ∃ e r', r.advanceSend S = (.error e, r') ∧ e.isUndefined = false
  | getKeyForDevice .., _ => True

section Sessions

variable {S} {ks : KeyStore K} {s t : SessionStore K} {username u : String} {d : K}
variable {c c' : SessionCall K} {keys : List (K × K × MessageHeader K)}

/-! ## A call and its sessions -/

/-- The sessions of other users are left alone. -/
theorem session_create_of_ne (hu : username ≠ u) (bundles : List (KeyBundle K)) (post : Bool) :
    (s.createRatchetsIfNeeded S ks username post bundles).store.session u d = s.session u d := by
  induction bundles generalizing s with
  | nil => exact SessionStore.session_touch s username u d
  | cons b bundles ih =>
    rw [SessionStore.createRatchetsIfNeeded]
    split
    · exact ih
    · cases b.createRatchet S ks with
      | error e => exact SessionStore.session_touch s username u d
      | ok r => exact ih.trans (SessionStore.session_hold_save_of_ne (Or.inl (Ne.symm hu)))

/-- Of a bundle that cannot be used no session is made. -/
theorem bind_createRatchet_eq_none {found : Option (KeyBundle K)}
    (h : ∀ b, found = some b → ¬ (b.createRatchet S ks).isOk) :
    (found.bind fun b => (b.createRatchet S ks).toOption) = none := by
  cases found with
  | none => rfl
  | some b =>
    rw [Option.bind_some]
    cases hb : b.createRatchet S ks with
    | error e => rfl
    | ok r => exact absurd (by rw [hb]; rfl) (h b rfl)

/-- A session of the user is made of the first bundle of its device. -/
theorem session_create_self {bundles : List (KeyBundle K)} {post : Bool}
    (h : NothingLeft S ks username bundles s) :
    (s.createRatchetsIfNeeded S ks username post bundles).store.session username d
      = (s.session username d).or ((bundles.find? (·.getTheirDevicePublic = d)).bind fun b =>
          (b.createRatchet S ks).toOption) := by
  induction bundles generalizing s with
  | nil =>
    rw [List.find?_nil, Option.bind_none, Option.or_none]
    exact SessionStore.session_touch s username username d
  | cons b bundles ih =>
    rw [NothingLeft] at h
    by_cases hb : (s.session username b.getTheirDevicePublic).isSome
    · rw [if_pos hb] at h
      rw [SessionStore.createRatchetsIfNeeded_of_session hb, ih h]
      by_cases hd : b.getTheirDevicePublic = d
      · obtain ⟨r, hr⟩ := Option.isSome_iff_exists.mp hb
        rw [← hd, hr, Option.some_or, Option.some_or]
      · rw [List.find?_cons_of_neg (by simpa using hd)]
    · rw [if_neg hb] at h
      rw [Bool.not_eq_true, Option.isSome_eq_false_iff, Option.isNone_iff_eq_none] at hb
      rw [SessionStore.createRatchetsIfNeeded]
      simp only [hb, Option.isSome_none, Bool.false_eq_true, if_false]
      cases hr : b.createRatchet S ks with
      | error e =>
        simp only [hr] at h
        simp only [SessionStore.session_touch]
        by_cases hd : b.getTheirDevicePublic = d
        · rw [List.find?_cons_of_pos (by simpa using hd), Option.bind_some, hr]
          exact (Option.or_none ..).symm
        · rw [List.find?_cons_of_neg (by simpa using hd)]
          cases hs : s.session username d with
          | some r => rw [Option.some_or]
          | none =>
            -- what comes after it cannot be used either
            rw [Option.none_or]
            exact (bind_createRatchet_eq_none (h d (Ne.symm hd) hs)).symm
      | ok r =>
        simp only [hr] at h
        simp only
        rw [ih h]
        by_cases hd : b.getTheirDevicePublic = d
        · subst hd
          rw [SessionStore.session_save, SessionStore.session_hold,
            List.find?_cons_of_pos (by simp), Option.bind_some, hr, hb]
          rfl
        · rw [SessionStore.session_hold_save_of_ne (Or.inr (Ne.symm hd)),
            List.find?_cons_of_neg (by simpa using hd)]

/-- **Whatever bundles there are**, a device's session is made of its first
one. -/
theorem session_create {bundles : List (KeyBundle K)} {post : Bool}
    (h : NothingLeft S ks username bundles s) :
    (s.createRatchetsIfNeeded S ks username post bundles).store.session u d
      = if username = u then
          (s.session u d).or ((bundles.find? (·.getTheirDevicePublic = d)).bind fun b =>
            (b.createRatchet S ks).toOption)
        else s.session u d := by
  by_cases hu : username = u
  · subst hu
    rw [if_pos rfl]
    exact session_create_self h
  · rw [if_neg hu]
    exact session_create_of_ne hu bundles post

omit [Zero K] in
/-- The entries of a device are one, or none. -/
theorem filter_fst_eq {α : Type} {l : List (K × α)} (hnodup : (l.map Prod.fst).Nodup) {x : α}
    (hx : (d, x) ∈ l) : l.filter (·.1 = d) = [(d, x)] := by
  induction l with
  | nil => cases hx
  | cons e l ih =>
    obtain ⟨hfirst, hnodup⟩ := List.nodup_cons.mp hnodup
    obtain rfl | hx := List.mem_cons.mp hx
    · rw [List.filter_cons_of_pos (by simp)]
      refine congrArg _ (List.filter_eq_nil_iff.mpr fun e he hd => hfirst ?_)
      show d ∈ l.map Prod.fst
      rw [← of_decide_eq_true hd]
      exact List.mem_map_of_mem (f := Prod.fst) he
    · have hne : e.1 ≠ d := fun he => hfirst (he ▸ List.mem_map_of_mem hx)
      rw [List.filter_cons_of_neg (by simpa using hne)]
      exact ih hnodup hx

variable (S) in
/-- **A session does what its ratchet does by itself.** -/
def ActsAlone (u : String) (d : K) (c : SessionCall K) (s : SessionStore K) : Prop :=
  (c.produces S u d s, (c.after S s).session u d) = c.alone S u d (s.session u d)

theorem produces_getKeysForIdentity :
    (getKeysForIdentity ks username).produces S u d s =
      match (s.advanceUser S ks username).1 with
      | .error _ => []
      | .ok keys =>
        if username = u then (keys.filter (·.1 = d)).map fun e => .sent e.2.1 e.2.2 else [] := rfl

theorem produces_getKeyForDevice {fresh : K} {header : MessageHeader K} :
    (getKeyForDevice fresh username header).produces S u d s =
      match (s.getKeyForDevice S fresh username header).1 with
      | .error _ => []
      | .ok key => if username = u ∧ header.deviceId = d then [.received key] else [] := rfl

/-- A session of another user than `get_keys_for_identity` is asked for, or
one there is none of, produces nothing. -/
theorem produces_of_none (h : username = u → s.session u d = none) :
    (getKeysForIdentity ks username).produces S u d s = [] := by
  cases hkeys : (s.advanceUser S ks username).1 with
  | error e => rw [produces_getKeysForIdentity, hkeys]
  | ok keys =>
    obtain ⟨_, -, hall⟩ := SessionStore.AdvancedAll.of_advanceUser hkeys
    rw [produces_getKeysForIdentity, hkeys]
    by_cases hu : username = u
    · subst hu
      refine (if_pos rfl).trans (List.map_eq_nil_iff.mpr (List.filter_eq_nil_iff.mpr ?_))
      intro e he hd
      obtain ⟨r, _, _, hr, -⟩ := hall.advanced e he
      rw [of_decide_eq_true hd, h rfl] at hr
      cases hr
    · exact if_neg hu

/-- **If it returns, each session has its own entry.** -/
theorem actsAlone_of_advanceUser (h : (s.advanceUser S ks username).1 = .ok keys) :
    (getKeysForIdentity ks username).ActsAlone S u d s := by
  obtain ⟨myDevicePublic, hdev, hall⟩ := SessionStore.AdvancedAll.of_advanceUser h
  have hothers : (username = u → s.session u d = none) →
      ((getKeysForIdentity ks username).after S s).session u d = s.session u d := by
    refine fun hnone => hall.others u d ?_
    by_cases hu : username = u
    · refine Or.inr fun hd => ?_
      subst hu
      rw [SessionStore.mem_getDeviceIds_iff, hnone rfl] at hd
      cases hd
    · exact Or.inl (Ne.symm hu)
  unfold ActsAlone
  cases hr : s.session u d with
  | none =>
    rw [produces_of_none fun _ => hr, hothers fun _ => hr, hr]
    rfl
  | some r =>
    by_cases hu : username = u
    · subst hu
      have hmem : d ∈ keys.map Prod.fst := by
        rw [hall.listed, SessionStore.mem_getDeviceIds_iff, hr]
        rfl
      obtain ⟨⟨device, key, header'⟩, he, hd⟩ := List.mem_map.mp hmem
      replace hd : device = d := hd
      subst hd
      obtain ⟨r₁, r', header, hr₁, hsend, hheader, hafter⟩ := hall.advanced _ he
      obtain rfl := Option.some.inj (hr.symm.trans hr₁)
      have hentries := filter_fst_eq (hall.listed ▸ SessionStore.nodup_getDeviceIds) he
      have hproduces : (getKeysForIdentity ks username).produces S username device s
          = [.sent key header'] := by
        rw [produces_getKeysForIdentity, h]
        exact (if_pos rfl).trans (congrArg (List.map _) hentries)
      replace hafter : ((getKeysForIdentity ks username).after S s).session username device = _ :=
        hafter
      replace hheader : header' = _ := hheader
      rw [hproduces, hafter, alone, if_pos rfl, hdev, hheader]
      simp only [hsend]
    · rw [produces_of_none fun h => absurd h hu, hothers fun h => absurd h hu, hr, alone, if_neg hu]

/-- **A key for every session with a user**, of which each has its own. -/
theorem actsAlone_getKeysForIdentity (h : (getKeysForIdentity ks username).Smooth S s) :
    (getKeysForIdentity ks username).ActsAlone S u d s := by
  cases hkeys : (s.advanceUser S ks username).1 with
  | ok keys => exact actsAlone_of_advanceUser hkeys
  | error e =>
    unfold ActsAlone
    rw [produces_getKeysForIdentity, hkeys]
    cases hdev : ks.getPublicKey .device with
    | error e =>
      have hafter : ((getKeysForIdentity ks username).after S s).session u d = s.session u d := by
        show (s.advanceUser S ks username).2.session u d = _
        rw [SessionStore.advanceUser_of_error hdev]
        exact SessionStore.session_touch ..
      rw [hafter]
      cases s.session u d with
      | none => rfl
      | some r =>
        rw [alone, hdev]
        exact (ite_self _).symm
    | ok myDevicePublic =>
      have hdev' : (ks.getPublicKey .device).isOk := by
        rw [hdev]
        rfl
      obtain hok | hrefused := h hdev'
      · have hreturned := SessionStore.advanceUser_isOk hdev' hok
        rw [hkeys] at hreturned
        cases hreturned
      have hafter : ((getKeysForIdentity ks username).after S s).session u d = s.session u d :=
        SessionStore.session_advanceUser_refused hrefused u d
      rw [hafter]
      cases hr : s.session u d with
      | none => rfl
      | some r =>
        by_cases hu : username = u
        · subst hu
          obtain ⟨e, r', hsend, hundefined⟩ := hrefused d r hr
          obtain rfl := NewRatchet.eq_of_advanceSend_refused hsend hundefined
          rw [alone, if_pos rfl, hdev]
          simp only [hsend]
        · rw [alone, if_neg hu]

/-- **A key for one session.** -/
theorem actsAlone_getKeyForDevice {fresh : K} {header : MessageHeader K} :
    (getKeyForDevice fresh username header).ActsAlone S u d s := by
  have hafter : (getKeyForDevice fresh username header).after S s
      = (s.getKeyForDevice S fresh username header).2 := rfl
  unfold ActsAlone
  rw [hafter, produces_getKeyForDevice]
  cases hr : s.session username header.deviceId with
  | none =>
    obtain ⟨what, hthrew⟩ := SessionStore.getKeyForDevice_of_none (S := S) hr fresh
    rw [hthrew]
    cases hs : s.session u d with
    | none => rfl
    | some r =>
      have hne : ¬ (username = u ∧ header.deviceId = d) := by
        rintro ⟨rfl, rfl⟩
        cases hr.symm.trans hs
      rw [alone, if_neg hne]
  | some r =>
    rw [SessionStore.getKeyForDevice_eq hr]
    rcases hreceive : r.advanceReceive S fresh header with ⟨result, r'⟩
    by_cases hto : username = u ∧ header.deviceId = d
    · obtain ⟨rfl, rfl⟩ := hto
      rw [hr, alone, if_pos ⟨rfl, rfl⟩, hreceive]
      cases result with
      | error e => simp only [SessionStore.session_hold]
      | ok key =>
        simp only [SessionStore.session_save, SessionStore.session_hold, and_self, if_true]
    · have hne : (u, d) ≠ (username, header.deviceId) :=
        fun he => hto ⟨(congrArg Prod.fst he).symm, (congrArg Prod.snd he).symm⟩
      have hkept : ∀ r, alone S u d (getKeyForDevice fresh username header) r = ([], r) := by
        intro r
        cases r with
        | none => rfl
        | some r => rw [alone, if_neg hto]
      rw [hkept]
      cases result with
      | error e => simp only [SessionStore.session_hold_of_ne _ _ _ _ _ _ hne]
      | ok key =>
        simp only [if_neg hto, SessionStore.session_save,
          SessionStore.session_hold_of_ne _ _ _ _ _ _ hne]

/-- **Every session does**, in a call that does not break off between two. -/
theorem Smooth.actsAlone (h : c.Smooth S s) (u : String) (d : K) : c.ActsAlone S u d s := by
  cases c with
  | createRatchetsIfNeeded ks username bundles post => exact Prod.ext rfl (session_create h)
  | getKeysForIdentity ks username => exact actsAlone_getKeysForIdentity h
  | getKeyForDevice fresh username header => exact actsAlone_getKeyForDevice

/-- What it leaves of a session is what the ratchet is then. -/
theorem Smooth.session_after (h : c.Smooth S s) (u : String) (d : K) :
    (c.after S s).session u d = (c.alone S u d (s.session u d)).2 :=
  congrArg Prod.snd (h.actsAlone u d)

/-! ## The calls addressed to a session -/

/-- A store in which a session is as in another one, and its user has no
other. -/
def Agrees (u : String) (d : K) (s t : SessionStore K) : Prop :=
  t.session u d = s.session u d ∧ ∀ d', d' ≠ d → t.session u d' = none

omit [Zero K] in
/-- The store with that session alone is one. -/
theorem agrees_only (u : String) (d : K) (s : SessionStore K) : Agrees u d s (s.only u d) := by
  unfold SessionStore.only
  cases hr : s.session u d with
  | none =>
    exact ⟨SessionStore.session_restart.trans hr.symm, fun _ _ => SessionStore.session_restart⟩
  | some r =>
    have hof : SessionStore.ofUser
        { s with ratchets := Finmap.singleton u (Finmap.singleton d r) } u
          = Finmap.singleton d r := by
      rw [SessionStore.ofUser, Finmap.lookup_singleton_eq]
      rfl
    refine ⟨(SessionStore.session_of_singleton hof).trans hr.symm, fun d' hd => ?_⟩
    rw [SessionStore.session, hof, Finmap.lookup_eq_none, Finmap.mem_singleton]
    exact hd

/-- What is not addressed to a session leaves it alone. -/
theorem alone_of_not_addressed (h : c.addressedTo u d = none) (r : Option (NewRatchet K)) :
    c.alone S u d r = ([], r) := by
  cases c with
  | createRatchetsIfNeeded ks username bundles post =>
    rw [addressedTo, ite_eq_right_iff] at h
    have hu : username ≠ u := fun hu => absurd (h hu) nofun
    rw [alone, if_neg hu]
  | getKeysForIdentity ks username =>
    rw [addressedTo, ite_eq_right_iff] at h
    have hu : username ≠ u := fun hu => absurd (h hu) nofun
    cases r with
    | none => rfl
    | some r => rw [alone, if_neg hu]
  | getKeyForDevice fresh username header =>
    rw [addressedTo, ite_eq_right_iff] at h
    have hto : ¬ (username = u ∧ header.deviceId = d) := fun hto => absurd (h hto) nofun
    cases r with
    | none => rfl
    | some r => rw [alone, if_neg hto]

/-- What is, is all the same to it; its user's other sessions are not
made. -/
theorem alone_of_addressed (h : c.addressedTo u d = some c') :
    (∀ r, c'.alone S u d r = c.alone S u d r)
      ∧ ∀ d', d' ≠ d → (c'.alone S u d' none).2 = none := by
  cases c with
  | createRatchetsIfNeeded ks username bundles post =>
    rw [addressedTo, Option.ite_none_right_eq_some] at h
    obtain ⟨-, h⟩ := h
    obtain rfl := Option.some.inj h
    refine ⟨fun r => ?_, fun d' hd => ?_⟩
    · rw [alone, alone, List.find?_filter]
      simp only [and_self, Bool.decide_eq_true]
    · rw [alone, List.find?_filter]
      have hnone : bundles.find? (fun b => decide (decide (b.getTheirDevicePublic = d) = true
          ∧ decide (b.getTheirDevicePublic = d') = true)) = none := by
        refine List.find?_eq_none.mpr fun b _ hb => hd ?_
        obtain ⟨hd₁, hd₂⟩ := of_decide_eq_true hb
        rw [← of_decide_eq_true hd₁, ← of_decide_eq_true hd₂]
      rw [hnone]
      exact ite_self _
  | getKeysForIdentity ks username =>
    rw [addressedTo, Option.ite_none_right_eq_some] at h
    obtain rfl := Option.some.inj h.2
    exact ⟨fun _ => rfl, fun _ _ => rfl⟩
  | getKeyForDevice fresh username header =>
    rw [addressedTo, Option.ite_none_right_eq_some] at h
    obtain rfl := Option.some.inj h.2
    exact ⟨fun _ => rfl, fun _ _ => rfl⟩

/-- **A call for one session** never breaks off between two. -/
theorem Smooth.addressed (h : c.Smooth S s) (hc : c.addressedTo u d = some c')
    (hagrees : Agrees u d s t) : c'.Smooth S t := by
  cases c with
  | createRatchetsIfNeeded ks username bundles post =>
    rw [addressedTo, Option.ite_none_right_eq_some] at hc
    obtain ⟨hu, hc⟩ := hc
    obtain rfl := Option.some.inj hc
    show NothingLeft S ks username (bundles.filter (·.getTheirDevicePublic = d)) t
    clear h hc hagrees
    induction bundles generalizing t with
    | nil => trivial
    | cons b bundles ih =>
      by_cases hb : b.getTheirDevicePublic = d
      · rw [List.filter_cons_of_pos (by simpa using hb), NothingLeft]
        split
        · exact ih
        · split
          · intro d' hd _ b' hb'
            have hb'' := (List.mem_filter.mp (List.mem_of_find?_eq_some hb')).2
            have hd' := List.find?_some hb'
            rw [hb, ← of_decide_eq_true hb'', of_decide_eq_true hd'] at hd
            exact absurd rfl hd
          · exact ih
      · rw [List.filter_cons_of_neg (by simpa using hb)]
        exact ih
  | getKeysForIdentity ks username =>
    rw [addressedTo, Option.ite_none_right_eq_some] at hc
    obtain ⟨rfl, hc⟩ := hc
    obtain rfl := Option.some.inj hc
    have hsession : ∀ d' r, t.session username d' = some r → s.session username d' = some r := by
      intro d' r hr
      by_cases hd : d' = d
      · rw [hd, ← hagrees.1, ← hd]
        exact hr
      · rw [hagrees.2 d' hd] at hr
        cases hr
    exact fun hdev => (h hdev).imp (fun hok d' r hr => hok d' r (hsession d' r hr))
      fun hrefused d' r hr => hrefused d' r (hsession d' r hr)
  | getKeyForDevice fresh username header =>
    rw [addressedTo, Option.ite_none_right_eq_some] at hc
    obtain rfl := Option.some.inj hc.2
    trivial

/-! ## The result -/

/-- **Sessions are independent of each other.** Along any calls none of which
breaks off between two sessions, each session produces the keys and headers
it does if only the calls addressed to it are made, on a store with no other.
And whenever `get_keys_for_identity` returns, it has one entry for each
device there is a session with, each of these has sent once, no other session
has moved, and every header has the own device's key. -/
theorem outputs_addressedTo (calls : List (SessionCall K)) (s : SessionStore K)
    (h : Run.Along (fun c s => some (c.after S s)) (Smooth S) calls s) :
    (∀ u d, Run.outputs (step S u d) calls s
        = Run.outputs (step S u d) (calls.filterMap (addressedTo u d)) (s.only u d))
      ∧ ∀ (ks : KeyStore K) (username : String) (t : SessionStore K)
          (keys : List (K × K × MessageHeader K)),
        (t.getKeysForIdentity S ks username none).result = .ok keys →
        ∃ myDevicePublic, ks.getPublicKey .device = .ok myDevicePublic
          ∧ (keys.map Prod.fst).Nodup
          ∧ (∀ d, d ∈ keys.map Prod.fst ↔ (t.session username d).isSome)
          ∧ SessionStore.AdvancedAll S myDevicePublic username
            (t.getDeviceIdsOfExistingHandshakes username) t
            (t.getKeysForIdentity S ks username none).store keys := by
  refine ⟨fun u d => ?_, fun ks username t keys hkeys => ?_⟩
  · refine Run.outputs_filterMap (P := Smooth S) (R := Agrees u d) (fun hc hsmooth hR => ?_)
      (fun hc hsmooth hR => ?_) h (agrees_only u d s)
    · rename_i c c' s t
      have hacts := hsmooth.actsAlone u d
      have hacts' := (hsmooth.addressed hc hR).actsAlone u d
      obtain ⟨hsame, hnone⟩ := alone_of_addressed (S := S) hc
      unfold ActsAlone at hacts hacts'
      rw [hR.1, hsame, ← hacts] at hacts'
      obtain ⟨hproduces, hsession⟩ := Prod.mk.inj hacts'
      refine ⟨hproduces.symm, hsession, fun d' hd => ?_⟩
      have hother := (hsmooth.addressed hc hR).actsAlone u d'
      unfold ActsAlone at hother
      rw [hR.2 d' hd] at hother
      exact (congrArg Prod.snd hother).trans (hnone d' hd)
    · rename_i c s t
      have hacts := hsmooth.actsAlone u d
      unfold ActsAlone at hacts
      rw [alone_of_not_addressed hc] at hacts
      obtain ⟨hproduces, hsession⟩ := Prod.mk.inj hacts
      exact ⟨hproduces, hR.1.trans hsession.symm, hR.2⟩
  · obtain ⟨myDevicePublic, hdev, hall⟩ := SessionStore.AdvancedAll.of_advanceUser hkeys
    refine ⟨myDevicePublic, hdev, ?_, fun d => ?_, hall⟩
    · rw [hall.listed]
      exact SessionStore.nodup_getDeviceIds
    · rw [hall.listed]
      exact SessionStore.mem_getDeviceIds_iff

/-! ## Two devices -/

/-- Bundles that can all be used leave nothing. -/
theorem nothingLeft_of_usable {bundles : List (KeyBundle K)}
    (h : ∀ b ∈ bundles, (b.createRatchet S ks).isOk) : NothingLeft S ks username bundles s := by
  induction bundles generalizing s with
  | nil => trivial
  | cons b bundles ih =>
    have hrest := fun b hb => h b (List.mem_cons_of_mem _ hb)
    rw [NothingLeft]
    split
    · exact ih hrest
    · split
      · rename_i e he
        have hb := h b List.mem_cons_self
        rw [he] at hb
        cases hb
      · exact ih hrest

/-- **The next call is smooth** if each session sends, which it can be asked
by itself. -/
theorem smooth_getKeysForIdentity {before : SessionCall K} (h : before.Smooth S s)
    (hsends : ∀ d r, (before.alone S username d (s.session username d)).2 = some r →
      (r.advanceSend S).1.isOk) :
    (getKeysForIdentity ks username).Smooth S (before.after S s) := by
  refine fun _ => Or.inl fun d r hr => hsends d r ?_
  rwa [h.session_after] at hr

end Sessions

/-- Device 5 has the bundle of bob's device 3, -/
def offered : SendingKeyBundle ℕ := .ideal 5

/-- and one of his device 4 with the signature of the first. -/
def forged : SendingKeyBundle ℕ :=
  { SendingKeyBundle.ideal 5 with theirDevicePublic := Sodium.ideal.signPublic 4 }

/-- It is given both, and then asked for keys for bob. -/
def forgedFirst : List (SessionCall ℕ) :=
  [.createRatchetsIfNeeded (.ideal 5) "bob" [.sending forged, .sending offered] true,
    .getKeysForIdentity (.ideal 5) "bob"]

/-- Device 3 has sessions with alice's devices 5 and 6; device 5 goes on to a
new public key, and then to one that is refused. -/
def refusedKey : List (SessionCall ℕ) :=
  [.createRatchetsIfNeeded (.ideal 3) "alice" [.receiving (.ideal 5), .receiving (.ideal 6)] true,
    .getKeyForDevice 32 "alice" { (MessageHeader.empty : MessageHeader ℕ) with
      dhPublic := Sodium.ideal.boxPublic 24
      deviceId := Sodium.ideal.signPublic 5 },
    .getKeyForDevice 32 "alice" { (MessageHeader.empty : MessageHeader ℕ) with
      deviceId := Sodium.ideal.signPublic 5 }]

/-- Then it is asked for keys for alice. -/
def refusedFirst : List (SessionCall ℕ) := refusedKey ++ [.getKeysForIdentity (.ideal 3) "alice"]

/-- No session of hers gives a key. -/
theorem outputs_refusedFirst :
    Run.outputs (step Sodium.ideal "alice" (Sodium.ideal.signPublic 6)) refusedFirst ⟨∅, ∅, ∅⟩
      = [] := by
  have hbefore : Run.outputs (step Sodium.ideal "alice" (Sodium.ideal.signPublic 6)) refusedKey
      ⟨∅, ∅, ∅⟩ = [] := by decide +kernel
  have hrefused : ((Run.final (step Sodium.ideal "alice" (Sodium.ideal.signPublic 6)) refusedKey
      ⟨∅, ∅, ∅⟩).session "alice" (Sodium.ideal.signPublic 5)).map
        (fun r => (r.advanceSend Sodium.ideal).1.isOk) = some false := by decide +kernel
  obtain ⟨r, hr, hsend⟩ := Option.map_eq_some_iff.mp hrefused
  have hthrows := SessionStore.advanceUser_not_isOk (.ideal 3) hr (by rw [hsend]; nofun)
  rw [refusedFirst, Run.outputs_append, hbefore, List.nil_append, Run.outputs, Run.outputs,
    List.append_nil]
  show produces _ _ _ (getKeysForIdentity _ _) _ = _
  rw [produces_getKeysForIdentity]
  split
  · rfl
  · rename_i keys hkeys
    rw [hkeys] at hthrows
    exact absurd rfl hthrows

/-- **What one device does costs another**: a bundle of one that cannot be
used costs the other its session, and a ratchet of one that refuses costs the
other its key. Among the calls addressed to it alone, each other one sends. -/
theorem not_independent :
    (Run.outputs (step Sodium.ideal "bob" (Sodium.ideal.signPublic 3)) forgedFirst ⟨∅, ∅, ∅⟩ = []
        ∧ (Run.outputs (step Sodium.ideal "bob" (Sodium.ideal.signPublic 3))
          (forgedFirst.filterMap (addressedTo "bob" (Sodium.ideal.signPublic 3)))
          (SessionStore.only "bob" (Sodium.ideal.signPublic 3) ⟨∅, ∅, ∅⟩)).length = 1)
      ∧ Run.outputs (step Sodium.ideal "alice" (Sodium.ideal.signPublic 6)) refusedFirst ⟨∅, ∅, ∅⟩
          = []
        ∧ (Run.outputs (step Sodium.ideal "alice" (Sodium.ideal.signPublic 6))
          (refusedFirst.filterMap (addressedTo "alice" (Sodium.ideal.signPublic 6)))
          (SessionStore.only "alice" (Sodium.ideal.signPublic 6) ⟨∅, ∅, ∅⟩)).length = 1 :=
  ⟨by decide +kernel, outputs_refusedFirst, by decide +kernel⟩

/-- Device 3 has sessions with alice's devices 5 and 6 and sends to both, has
an answer of device 5, and sends to both again. -/
def interleaved : List (SessionCall ℕ) :=
  [.createRatchetsIfNeeded (.ideal 3) "alice" [.receiving (.ideal 5), .receiving (.ideal 6)] true,
    .getKeysForIdentity (.ideal 3) "alice",
    .getKeyForDevice 32 "alice" { (MessageHeader.empty : MessageHeader ℕ) with
      dhPublic := Sodium.ideal.boxPublic 24
      deviceId := Sodium.ideal.signPublic 5 },
    .getKeysForIdentity (.ideal 3) "alice"]

/-- A session by itself, after some of these calls. -/
def interleavedAlone (n d : ℕ) : Option (NewRatchet ℕ) :=
  (interleaved.take n).foldl (fun r c => (c.alone Sodium.ideal "alice" d r).2) none

/-- Both sessions send whenever they are to, and there is no other. -/
theorem sends_interleavedAlone {n d : ℕ} (hn : n = 1 ∨ n = 3) {r : NewRatchet ℕ}
    (h : interleavedAlone n d = some r) : (r.advanceSend Sodium.ideal).1.isOk := by
  have hboth : ∀ n, n = 1 ∨ n = 3 → ∀ d ∈ [Sodium.ideal.signPublic 5, Sodium.ideal.signPublic 6],
      (interleavedAlone n d).map (fun r => (r.advanceSend Sodium.ideal).1.isOk) = some true := by
    rintro n (rfl | rfl)
    · decide +kernel
    · decide +kernel
  by_cases hd : d ∈ [Sodium.ideal.signPublic 5, Sodium.ideal.signPublic 6]
  · have hsends := hboth n hn d hd
    rw [h] at hsends
    exact Option.some.inj hsends
  · have hfind : [KeyBundle.receiving (.ideal 5), .receiving (.ideal 6)].find?
        (·.getTheirDevicePublic = d) = none := by
      refine List.find?_eq_none.mpr fun b hb hbd => hd ?_
      rw [← of_decide_eq_true hbd]
      exact List.mem_map_of_mem (f := KeyBundle.getTheirDevicePublic) hb
    have hnone : (interleaved.take n).foldl
        (fun r c => (c.alone Sodium.ideal "alice" d r).2) none = none := by
      rcases hn with rfl | rfl
      · simp [interleaved, alone, hfind]
      · simp [interleaved, alone, hfind]
    cases h.symm.trans hnone

/-- **The two sessions produce what each does by itself.** -/
theorem outputs_addressedTo_interleaved :
    (Run.outputs (step Sodium.ideal "alice" (Sodium.ideal.signPublic 5)) interleaved ⟨∅, ∅, ∅⟩
        = Run.outputs (step Sodium.ideal "alice" (Sodium.ideal.signPublic 5))
          (interleaved.filterMap (addressedTo "alice" (Sodium.ideal.signPublic 5)))
          (SessionStore.only "alice" (Sodium.ideal.signPublic 5) ⟨∅, ∅, ∅⟩))
      ∧ Run.outputs (step Sodium.ideal "alice" (Sodium.ideal.signPublic 6)) interleaved ⟨∅, ∅, ∅⟩
        = Run.outputs (step Sodium.ideal "alice" (Sodium.ideal.signPublic 6))
          (interleaved.filterMap (addressedTo "alice" (Sodium.ideal.signPublic 6)))
          (SessionStore.only "alice" (Sodium.ideal.signPublic 6) ⟨∅, ∅, ∅⟩) := by
  have hempty : ∀ d, (⟨∅, ∅, ∅⟩ : SessionStore ℕ).session "alice" d = none := fun d =>
    SessionStore.session_of_empty (by rw [SessionStore.ofUser, Finmap.lookup_empty]; rfl) d
  obtain ⟨made, hmade⟩ : ∃ t, t = SessionCall.after Sodium.ideal (.createRatchetsIfNeeded (.ideal 3)
      "alice" [.receiving (.ideal 5), .receiving (.ideal 6)] true) ⟨∅, ∅, ∅⟩ := ⟨_, rfl⟩
  have hcreate : Smooth Sodium.ideal (.createRatchetsIfNeeded (.ideal 3) "alice"
      [.receiving (.ideal 5), .receiving (.ideal 6)] true) ⟨∅, ∅, ∅⟩ :=
    nothingLeft_of_usable (by decide +kernel)
  have hsessions : ∀ d, made.session "alice" d = interleavedAlone 1 d := fun d => by
    rw [hmade, hcreate.session_after, hempty]
    rfl
  have hfirst : Smooth Sodium.ideal (.getKeysForIdentity (.ideal 3) "alice") made :=
    hmade ▸ smooth_getKeysForIdentity hcreate fun d r hr =>
      sends_interleavedAlone (Or.inl rfl) (by rwa [hempty] at hr)
  have hanswered : ∀ d, (SessionCall.after Sodium.ideal (.getKeysForIdentity (.ideal 3) "alice")
      made).session "alice" d = interleavedAlone 2 d := fun d => by
    rw [hfirst.session_after, hsessions]
    rfl
  have halong : Run.Along (fun c s => some (after Sodium.ideal c s)) (Smooth Sodium.ideal)
      interleaved ⟨∅, ∅, ∅⟩ := by
    refine ⟨hcreate, fun t ht => ?_⟩
    obtain rfl := hmade.trans (Option.some.inj ht)
    refine ⟨hfirst, fun t ht => ⟨trivial, fun t' ht' => ⟨?_, fun _ _ => trivial⟩⟩⟩
    obtain rfl := Option.some.inj ht
    obtain rfl := Option.some.inj ht'
    refine smooth_getKeysForIdentity (by exact trivial) fun d r hr => ?_
    rw [hanswered] at hr
    exact sends_interleavedAlone (Or.inr rfl) hr
  exact ⟨(outputs_addressedTo interleaved _ halong).1 _ _,
    (outputs_addressedTo interleaved _ halong).1 _ _⟩

end SessionCall
