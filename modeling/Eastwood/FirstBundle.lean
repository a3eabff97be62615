import Eastwood.VerifiedPrekeys

/-!
# The first bundle wins

`create_ratchets_if_needed` takes the bundles of a user in turn and skips
those of devices it has a session with – which, after a bundle, includes that
bundle's device. So every new device gets one session, from the first bundle
there is of it (`firstNew`), one row and, where one is due, one post; what
was there stays, and a second call has nothing left to do
(`createLoop_of_ok`).

In memory nothing else is touched. The rows are by device alone, and a new
session takes the row of its device whosever it was: it leaves the rows of
the other users alone exactly if no new device has one (`firstWins_iff`).
-/

/-! ## The first item of every key -/

section FirstNew

variable {α κ : Type} [DecidableEq κ] (key : α → κ)

/-- **The first item of every key** that is not known. -/
def firstNew : (κ → Bool) → List α → List α
  | _, [] => []
  | known, a :: l =>
    if known (key a) then firstNew known l
    else a :: firstNew (fun k => known k || decide (k = key a)) l

variable {key} {known : κ → Bool} {l : List α} {a : α}

theorem mem_firstNew :
    a ∈ firstNew key known l
      ↔ known (key a) = false ∧ l.find? (fun b => decide (key b = key a)) = some a := by
  induction l generalizing known with
  | nil => exact iff_of_false List.not_mem_nil fun h => by cases h.2
  | cons b l ih =>
    by_cases hkey : key b = key a
    · rw [firstNew, List.find?_cons_of_pos (p := fun b => decide (key b = key a))
        (decide_eq_true hkey)]
      split
      · rename_i hb
        rw [ih]
        refine iff_of_false (fun h => ?_) fun h => ?_
        · rw [hkey, h.1] at hb
          cases hb
        · rw [hkey, h.1] at hb
          cases hb
      · rename_i hb
        rw [List.mem_cons, ih]
        constructor
        · rintro (rfl | ⟨hknown, -⟩)
          · exact ⟨eq_false_of_ne_true hb, rfl⟩
          · rw [hkey, decide_eq_true rfl, Bool.or_true] at hknown
            cases hknown
        · rintro ⟨-, heq⟩
          exact Or.inl (Option.some.inj heq).symm
    · rw [firstNew, List.find?_cons_of_neg (p := fun b => decide (key b = key a))
        fun h => hkey (of_decide_eq_true h)]
      split
      · exact ih
      · rw [List.mem_cons, ih, decide_eq_false (Ne.symm hkey), Bool.or_false]
        refine or_iff_right ?_
        rintro rfl
        exact hkey rfl

/-- No key has two. -/
theorem nodup_firstNew : ((firstNew key known l).map key).Nodup := by
  induction l generalizing known with
  | nil => exact List.nodup_nil
  | cons b l ih =>
    rw [firstNew]
    split
    · exact ih
    · refine List.nodup_cons.mpr ⟨fun hmem => ?_, ih⟩
      obtain ⟨a, ha, heq⟩ := List.mem_map.mp hmem
      have hknown := (mem_firstNew.mp ha).1
      rw [heq, decide_eq_true rfl, Bool.or_true] at hknown
      cases hknown

/-- The keys that are new: those of some item. -/
theorem mem_map_firstNew {k : κ} :
    k ∈ (firstNew key known l).map key ↔ known k = false ∧ ∃ a ∈ l, key a = k := by
  rw [List.mem_map]
  constructor
  · rintro ⟨a, ha, rfl⟩
    obtain ⟨hknown, hfind⟩ := mem_firstNew.mp ha
    exact ⟨hknown, a, List.mem_of_find?_eq_some hfind, rfl⟩
  · rintro ⟨hknown, a, ha, rfl⟩
    have hsome : (l.find? fun b => decide (key b = key a)).isSome :=
      List.find?_isSome.mpr ⟨a, ha, decide_eq_true rfl⟩
    obtain ⟨b, hb⟩ := Option.isSome_iff_exists.mp hsome
    have hkey : key b = key a :=
      of_decide_eq_true (List.find?_some (p := fun b => decide (key b = key a)) hb)
    refine ⟨b, mem_firstNew.mpr ⟨by rw [hkey]; exact hknown, ?_⟩, hkey⟩
    rw [hkey]
    exact hb

end FirstNew

variable {K : Type}

/-- The bundle of a session that was made. -/
def StoreEvent.made? : StoreEvent K → Option (KeyBundle K)
  | created _ _ bundle _ => some bundle
  | posted .. => none

namespace SlotStore

variable [Zero K] [LinearOrder K] (S : Sodium K) (ks : KeyStore K)

section Loop

variable {S} {ks} {username : String} {post : Bool} {s s' : SlotStore K} {u : String} {d : K}

omit [Zero K] in
/-- An entry of a user is in a map of the user. -/
theorem lookup_isSome_of_slot {p : Option (NewRatchet K)} (h : s.slot username d = some p) :
    (s.ratchets.lookup username).isSome := by
  unfold slot ofUser at h
  cases hmap : s.ratchets.lookup username with
  | some m => rfl
  | none =>
    rw [hmap] at h
    cases h

omit [Zero K] [LinearOrder K] in
/-- `ratchets[username]` of a user that has a map. -/
theorem touch_of_isSome (h : (s.ratchets.lookup username).isSome) : s.touch username = s := by
  obtain ⟨m, hm⟩ := Option.isSome_iff_exists.mp h
  have hsame : s.ratchets.insert username (s.ofUser username) = s.ratchets := by
    refine Finmap.ext_lookup fun u => ?_
    by_cases hu : u = username
    · rw [hu, Finmap.lookup_insert, ofUser, hm]
      rfl
    · rw [Finmap.lookup_insert_of_ne _ hu]
  rw [touch, hsame]

/-- **A new session**, of a loop that goes on. -/
theorem createLoop_cons_of_ok {bundle : KeyBundle K} {bundles : List (KeyBundle K)}
    (hnew : s.slot username bundle.getTheirDevicePublic = none)
    (h : (s.createLoop S ks username post (bundle :: bundles)).result = .ok ()) :
    ∃ (r : NewRatchet K) (s' : SlotStore K), bundle.createRatchet S ks = .ok r
      ∧ s'.slot username bundle.getTheirDevicePublic = some (some r)
      ∧ (∀ u d, (u, d) ≠ (username, bundle.getTheirDevicePublic) → s'.slot u d = s.slot u d)
      ∧ s'.rows = s.rows.insert bundle.getTheirDevicePublic (username, r)
      ∧ (s'.createLoop S ks username post bundles).result = .ok ()
      ∧ s.createLoop S ks username post (bundle :: bundles)
        = { s'.createLoop S ks username post bundles with
          events := .created username bundle.getTheirDevicePublic bundle r
            :: ((bundle.posts post).map (.posted username)
              ++ (s'.createLoop S ks username post bundles).events) } := by
  rw [createLoop, hnew] at h ⊢
  cases hr : bundle.createRatchet S ks with
  | error e =>
    rw [hr] at h
    cases h
  | ok r =>
    obtain ⟨s', hsave, hslot, hothers, hrows⟩ :=
      saveSlot_assign (s := s) username bundle.getTheirDevicePublic r
    have hassign : s.assign username bundle.getTheirDevicePublic (.ok r)
        = (.ok (), (s.assign username bundle.getTheirDevicePublic (.ok r)).2) := rfl
    rw [hr, hassign] at h
    simp only [hsave] at h
    refine ⟨r, s', rfl, hslot, hothers, hrows, h, ?_⟩
    rw [hassign]
    simp only [hsave]
    rfl

/-- A loop over devices that all have an entry does nothing. -/
theorem createLoop_of_known {bundles : List (KeyBundle K)}
    (h : ∀ b ∈ bundles, (s.slot username b.getTheirDevicePublic).isSome) :
    s.createLoop S ks username post bundles = ⟨.ok (), [], s⟩ := by
  induction bundles with
  | nil => rfl
  | cons bundle bundles ih =>
    rw [createLoop, if_pos (h bundle List.mem_cons_self)]
    exact ih fun b hb => h b (List.mem_cons_of_mem bundle hb)

end Loop

/-- What is recorded of a session that is made. -/
def madeEvents (username : String) (post : Bool) (bundle : KeyBundle K) : List (StoreEvent K) :=
  match bundle.createRatchet S ks with
  | .error _ => []
  | .ok r => .created username bundle.getTheirDevicePublic bundle r
      :: (bundle.posts post).map (.posted username)

/-- The first bundles of the devices a user has no entry for. -/
def newBundles (username : String) (bundles : List (KeyBundle K)) (s : SlotStore K) :
    List (KeyBundle K) :=
  firstNew KeyBundle.getTheirDevicePublic (fun d => (s.slot username d).isSome) bundles

/-- **What a loop that gets through does**: from every new bundle a ratchet,
an entry, a row and the events, and nothing besides. -/
structure MakesNew (username : String) (post : Bool) (new : List (KeyBundle K)) (s : SlotStore K)
    (o : Outcome K Unit) : Prop where
  made : ∀ b ∈ new, ∃ r, b.createRatchet S ks = .ok r
    ∧ o.store.slot username b.getTheirDevicePublic = some (some r)
    ∧ o.store.rows.lookup b.getTheirDevicePublic = some (username, r)
  slots : ∀ u d, (u = username → d ∉ new.map KeyBundle.getTheirDevicePublic) →
    o.store.slot u d = s.slot u d
  rows : ∀ d ∉ new.map KeyBundle.getTheirDevicePublic, o.store.rows.lookup d = s.rows.lookup d
  events : o.events = new.flatMap (madeEvents S ks username post)
  touched : (s.ratchets.lookup username).isSome → (o.store.ratchets.lookup username).isSome

variable {S} {ks} {username : String} {post : Bool} {s : SlotStore K}

omit [Zero K] in
/-- A bundle of a device without an entry is new, and so are the new ones
where it has one. -/
theorem newBundles_cons {b : KeyBundle K} {s' : SlotStore K} {r : NewRatchet K}
    (hslot : s.slot username b.getTheirDevicePublic = none)
    (hmade : s'.slot username b.getTheirDevicePublic = some (some r))
    (hothers : ∀ u d, (u, d) ≠ (username, b.getTheirDevicePublic) → s'.slot u d = s.slot u d)
    (bundles : List (KeyBundle K)) :
    s.newBundles username (b :: bundles) = b :: s'.newBundles username bundles := by
  have hknown : (fun d => (s'.slot username d).isSome)
      = fun d => (s.slot username d).isSome || decide (d = b.getTheirDevicePublic) := by
    funext d
    by_cases hd : d = b.getTheirDevicePublic
    · rw [hd, hmade, decide_eq_true rfl, Bool.or_true]
      rfl
    · rw [hothers username d fun he => hd (congrArg Prod.snd he), decide_eq_false hd,
        Bool.or_false]
  rw [newBundles, firstNew, hslot, Option.isSome_none, if_neg Bool.false_ne_true, newBundles,
    hknown]

omit [Zero K] in
/-- No bundle of a device that has an entry is new. -/
theorem not_mem_newBundles {d : K} {r : NewRatchet K} (hmade : s.slot username d = some (some r))
    (bundles : List (KeyBundle K)) :
    d ∉ (s.newBundles username bundles).map KeyBundle.getTheirDevicePublic := by
  intro hmem
  have hknown := (mem_map_firstNew.mp hmem).1
  rw [hmade] at hknown
  cases hknown

/-- **The loop makes what is new**: induction on the bundles, the devices
known growing with every session. -/
theorem createLoop_of_ok {bundles : List (KeyBundle K)}
    (h : (s.createLoop S ks username post bundles).result = .ok ()) :
    MakesNew S ks username post (s.newBundles username bundles) s
      (s.createLoop S ks username post bundles) := by
  induction bundles generalizing s with
  | nil => exact ⟨nofun, fun _ _ _ => rfl, fun _ _ => rfl, rfl, id⟩
  | cons b bundles ih =>
    cases hslot : s.slot username b.getTheirDevicePublic with
    | some p =>
      have hknown : (s.slot username b.getTheirDevicePublic).isSome := by rw [hslot]; rfl
      rw [newBundles, firstNew, if_pos hknown]
      rw [createLoop, if_pos hknown] at h ⊢
      exact ih h
    | none =>
      obtain ⟨r, s', hr, hmade, hothers, hrows, hok, heq⟩ := createLoop_cons_of_ok hslot h
      have hnew := newBundles_cons hslot hmade hothers bundles
      have hfresh := not_mem_newBundles hmade bundles
      have hrest := ih hok
      rw [hnew, heq]
      refine ⟨fun b' hb' => ?_, fun u d hd => ?_, fun d hd => ?_, ?_, fun _ => ?_⟩
      · rcases List.mem_cons.mp hb' with rfl | hb'
        · refine ⟨r, hr, (hrest.slots _ _ fun _ => hfresh).trans hmade, ?_⟩
          rw [hrest.rows _ hfresh, hrows, Finmap.lookup_insert]
        · exact hrest.made b' hb'
      · rw [List.map_cons] at hd
        rw [hrest.slots u d fun hu hmem => hd hu (List.mem_cons_of_mem _ hmem)]
        refine hothers u d ?_
        rintro ⟨⟩
        exact hd rfl List.mem_cons_self
      · rw [List.map_cons, List.mem_cons, not_or] at hd
        rw [hrest.rows d hd.2, hrows, Finmap.lookup_insert_of_ne _ hd.1]
      · have hevents : madeEvents S ks username post b
            = .created username b.getTheirDevicePublic b r
              :: (b.posts post).map (.posted username) := by
          rw [madeEvents, hr]
        rw [List.flatMap_cons, hevents, ← hrest.events]
        rfl
      · exact hrest.touched (lookup_isSome_of_slot hmade)

/-! ## The call -/

/-- **Session creation is idempotent and first-wins**: what is there stays;
every new device has one session, made from the first bundle of it and saved;
one handshake is posted for each of those that is the initiator's, if any are
to be posted; nothing of another user is touched; and the same bundles once
more change, save and post nothing. -/
structure FirstWins (S : Sodium K) (ks : KeyStore K) (username : String) (post : Bool)
    (bundles : List (KeyBundle K)) (s : SlotStore K) (o : Outcome K Unit) : Prop where
  kept : ∀ d, (s.slot username d).isSome → o.store.slot username d = s.slot username d
  made : ∀ d b, s.slot username d = none →
    bundles.find? (fun b => decide (b.getTheirDevicePublic = d)) = some b →
    ∃ r, b.createRatchet S ks = .ok r ∧ o.store.slot username d = some (some r)
      ∧ o.store.rows.lookup d = some (username, r)
  unmade : ∀ d, s.slot username d = none → (∀ b ∈ bundles, b.getTheirDevicePublic ≠ d) →
    o.store.slot username d = none
  unsaved : ∀ d, (s.slot username d).isSome ∨ (∀ b ∈ bundles, b.getTheirDevicePublic ≠ d) →
    o.store.rows.lookup d = s.rows.lookup d
  madeOnce : ((o.events.filterMap StoreEvent.made?).map KeyBundle.getTheirDevicePublic).Nodup
  mem_made : ∀ b, b ∈ o.events.filterMap StoreEvent.made?
    ↔ s.slot username b.getTheirDevicePublic = none
      ∧ bundles.find? (fun b' => decide (b'.getTheirDevicePublic = b.getTheirDevicePublic)) = some b
  posts : o.events.filterMap StoreEvent.post?
    = (o.events.filterMap StoreEvent.made?).flatMap (·.posts post)
  others : ∀ u, u ≠ username → ∀ d, o.store.slot u d = s.slot u d
  othersRows : ∀ u, u ≠ username → ∀ d r,
    o.store.rows.lookup d = some (u, r) ↔ s.rows.lookup d = some (u, r)
  again : ∀ post', o.store.createRatchetsIfNeeded S ks username post' bundles
    = ⟨.ok (), [], o.store⟩

/-- **No new device has a row of another user.** -/
def NoForeignRow (username : String) (bundles : List (KeyBundle K)) (s : SlotStore K) : Prop :=
  ∀ b ∈ bundles, s.slot username b.getTheirDevicePublic = none →
    ∀ row ∈ s.rows.lookup b.getTheirDevicePublic, row.1 = username

section Call

variable {new bundles : List (KeyBundle K)} {o : Outcome K Unit}

omit [Zero K] [LinearOrder K] in
theorem made?_posts (l : List (SendingKeyBundle K)) :
    (l.map (StoreEvent.posted username)).filterMap StoreEvent.made? = [] := by
  rw [List.filterMap_map]
  exact List.filterMap_eq_nil_iff.mpr fun _ _ => rfl

/-- The sessions made are those of the new bundles, -/
theorem MakesNew.made?_events (h : MakesNew S ks username post new s o) :
    o.events.filterMap StoreEvent.made? = new := by
  have hmade := h.made
  rw [h.events]
  clear h
  induction new with
  | nil => rfl
  | cons b new ih =>
    obtain ⟨r, hr, -⟩ := hmade b List.mem_cons_self
    rw [List.flatMap_cons, List.filterMap_append, ih fun b' hb' =>
      hmade b' (List.mem_cons_of_mem b hb'), madeEvents, hr]
    simp only [List.filterMap_cons_some (show StoreEvent.made? (.created username _ b r) = some b
      from rfl), made?_posts]
    rfl

/-- and so are the posts. -/
theorem MakesNew.post?_events (h : MakesNew S ks username post new s o) :
    o.events.filterMap StoreEvent.post? = new.flatMap (·.posts post) := by
  have hmade := h.made
  rw [h.events]
  clear h
  induction new with
  | nil => rfl
  | cons b new ih =>
    obtain ⟨r, hr, -⟩ := hmade b List.mem_cons_self
    rw [List.flatMap_cons, List.filterMap_append, ih fun b' hb' =>
      hmade b' (List.mem_cons_of_mem b hb'), madeEvents, hr, List.flatMap_cons]
    simp only [List.filterMap_cons_none (show StoreEvent.post? (.created username _ b r) = none
      from rfl), filterMap_posts]

omit [Zero K] in
theorem mem_map_newBundles {d : K} :
    d ∈ (s.newBundles username bundles).map KeyBundle.getTheirDevicePublic
      ↔ s.slot username d = none ∧ ∃ b ∈ bundles, b.getTheirDevicePublic = d := by
  rw [newBundles, mem_map_firstNew, Option.isSome_eq_false_iff, Option.isNone_iff_eq_none]

omit [Zero K] in
theorem mem_newBundles {b : KeyBundle K} :
    b ∈ s.newBundles username bundles
      ↔ s.slot username b.getTheirDevicePublic = none ∧ bundles.find?
        (fun b' => decide (b'.getTheirDevicePublic = b.getTheirDevicePublic)) = some b := by
  rw [newBundles, mem_firstNew, Option.isSome_eq_false_iff, Option.isNone_iff_eq_none]

/-- **What it does to the rows of the others**: none of a device that is made
is left. -/
theorem MakesNew.othersRows_iff
    (h : MakesNew S ks username post (s.newBundles username bundles) s o) :
    (∀ u, u ≠ username → ∀ d r,
        o.store.rows.lookup d = some (u, r) ↔ s.rows.lookup d = some (u, r))
      ↔ s.NoForeignRow username bundles := by
  constructor
  · rintro hrows b hb hslot ⟨u, r⟩ hrow
    by_contra hu
    obtain ⟨b', hb', hdevice⟩ := List.mem_map.mp (mem_map_newBundles.mpr ⟨hslot, b, hb, rfl⟩)
    obtain ⟨r', -, -, hrow'⟩ := h.made b' hb'
    rw [hdevice, (hrows u hu _ r).mpr hrow] at hrow'
    exact hu (congrArg Prod.fst (Option.some.inj hrow'))
  · intro hforeign u hu d r
    by_cases hd : d ∈ (s.newBundles username bundles).map KeyBundle.getTheirDevicePublic
    · obtain ⟨hslot, b, hb, rfl⟩ := mem_map_newBundles.mp hd
      obtain ⟨b', hb', hdevice⟩ := List.mem_map.mp hd
      obtain ⟨r', -, -, hrow'⟩ := h.made b' hb'
      rw [← hdevice, hrow']
      refine iff_of_false (fun heq => ?_) fun hrow => ?_
      · exact hu (congrArg Prod.fst (Option.some.inj heq)).symm
      · rw [hdevice] at hrow
        exact hu (hforeign b hb hslot _ hrow)
    · rw [h.rows d hd]

/-- **After it every device of the list has an entry**, and the list is no
work. -/
theorem MakesNew.again (h : MakesNew S ks username post (s.newBundles username bundles) s o)
    (htouched : (o.store.ratchets.lookup username).isSome) (post' : Bool) :
    o.store.createRatchetsIfNeeded S ks username post' bundles = ⟨.ok (), [], o.store⟩ := by
  rw [createRatchetsIfNeeded, touch_of_isSome htouched]
  refine createLoop_of_known fun b hb => ?_
  by_cases hd : b.getTheirDevicePublic
      ∈ (s.newBundles username bundles).map KeyBundle.getTheirDevicePublic
  · obtain ⟨b', hb', hdevice⟩ := List.mem_map.mp hd
    obtain ⟨r, -, hslot, -⟩ := h.made b' hb'
    rw [← hdevice, hslot]
    rfl
  · rw [h.slots username _ fun _ => hd]
    rw [mem_map_newBundles, not_and] at hd
    by_contra hnone
    exact hd (Option.not_isSome_iff_eq_none.mp hnone) ⟨b, hb, rfl⟩

/-- A call does what its loop does: that the user has a map now is no
entry. -/
theorem createRatchetsIfNeeded_of_ok
    (h : (s.createRatchetsIfNeeded S ks username post bundles).result = .ok ()) :
    MakesNew S ks username post (s.newBundles username bundles) s
        (s.createRatchetsIfNeeded S ks username post bundles)
      ∧ ((s.createRatchetsIfNeeded S ks username post bundles).store.ratchets.lookup
        username).isSome := by
  have hbundles : (s.touch username).newBundles username bundles
      = s.newBundles username bundles := by
    unfold newBundles
    simp only [slot_touch]
  have hmap : ((s.touch username).ratchets.lookup username).isSome := by
    rw [touch, Finmap.lookup_insert]
    rfl
  have hmakes := createLoop_of_ok h
  rw [hbundles] at hmakes
  exact ⟨{ hmakes with
    slots := fun u d hd => (hmakes.slots u d hd).trans (slot_touch username u d)
    touched := fun _ => hmakes.touched hmap }, hmakes.touched hmap⟩

/-- **The first bundle wins**, everything else in memory and on disk stays,
and a second call does nothing, whatever sessions there are and whatever the
list – except that a new session takes the row of its device. So it is
exactly if no new device has a row of another user. -/
theorem firstWins_iff (S : Sodium K) (ks : KeyStore K) (username : String) (post : Bool)
    (bundles : List (KeyBundle K)) (s : SlotStore K)
    (h : (s.createRatchetsIfNeeded S ks username post bundles).result = .ok ()) :
    FirstWins S ks username post bundles s (s.createRatchetsIfNeeded S ks username post bundles)
      ↔ s.NoForeignRow username bundles := by
  obtain ⟨hmakes, htouched⟩ := createRatchetsIfNeeded_of_ok h
  refine ⟨fun hwins => hmakes.othersRows_iff.mp hwins.othersRows, fun hforeign => ?_⟩
  refine
    { kept := fun d hd => ?_, made := fun d b hd hb => ?_, unmade := fun d hd hb => ?_,
      unsaved := fun d hd => ?_, madeOnce := ?_, mem_made := fun b => ?_, posts := ?_,
      others := fun u hu d => hmakes.slots u d fun he => absurd he hu,
      othersRows := hmakes.othersRows_iff.mpr hforeign, again := hmakes.again htouched }
  · refine hmakes.slots username d fun _ hmem => ?_
    rw [(mem_map_newBundles.mp hmem).1] at hd
    cases hd
  · have hdevice : b.getTheirDevicePublic = d := of_decide_eq_true
      (List.find?_some (p := fun b : KeyBundle K => decide (b.getTheirDevicePublic = d)) hb)
    subst hdevice
    exact hmakes.made b (mem_newBundles.mpr ⟨hd, hb⟩)
  · rw [hmakes.slots username d fun _ hmem => ?_, hd]
    obtain ⟨-, b, hb', hdevice⟩ := mem_map_newBundles.mp hmem
    exact hb b hb' hdevice
  · refine hmakes.rows d fun hmem => ?_
    obtain ⟨hslot, b, hb, hdevice⟩ := mem_map_newBundles.mp hmem
    rcases hd with hd | hd
    · rw [hslot] at hd
      cases hd
    · exact hd b hb hdevice
  · rw [hmakes.made?_events]
    exact nodup_firstNew
  · rw [hmakes.made?_events]
    exact mem_newBundles
  · rw [hmakes.made?_events, hmakes.post?_events]

end Call

/-! ### Calls of the ideal library -/

/-- Bob's new device 6, twice, and device 5. -/
def idealBundles : List (KeyBundle ℕ) :=
  [.sending (.ideal 6), .receiving (.ideal 6), .receiving (.ideal 5)]

/-- A store in which alice has a session with device 5. -/
def withAlice : SlotStore ℕ :=
  (createRatchetsIfNeeded Sodium.ideal (.ideal 3) "alice" true [.receiving (.ideal 5)]
    ⟨∅, ∅⟩).store

theorem isOk_of_decide {o : Outcome ℕ Unit} (h : o.result.isOk = true) : o.result = .ok () := by
  obtain ⟨⟨⟩, h⟩ := exists_of_isOk h
  exact h

/-- Two sessions are made in an empty store. -/
theorem firstWins_iff_ideal :
    FirstWins Sodium.ideal (.ideal 3) "bob" true idealBundles ⟨∅, ∅⟩
      (createRatchetsIfNeeded Sodium.ideal (.ideal 3) "bob" true idealBundles ⟨∅, ∅⟩) := by
  refine (firstWins_iff Sodium.ideal (.ideal 3) "bob" true idealBundles ⟨∅, ∅⟩
    (isOk_of_decide (by decide +kernel))).mpr fun b _ _ row hrow => ?_
  cases hrow

/-- **Where it is not so**: a device of alice's that comes as one of bob's
takes her row. -/
theorem not_firstWins_ideal :
    (createRatchetsIfNeeded Sodium.ideal (.ideal 3) "bob" true idealBundles withAlice).result
        = .ok ()
      ∧ ¬ FirstWins Sodium.ideal (.ideal 3) "bob" true idealBundles withAlice
        (createRatchetsIfNeeded Sodium.ideal (.ideal 3) "bob" true idealBundles withAlice) := by
  refine ⟨isOk_of_decide (by decide +kernel), fun hwins => ?_⟩
  have halice : (withAlice.rows.lookup (Sodium.ideal.signPublic 5)).map Prod.fst
      = some "alice" := by decide +kernel
  have hbob : ((createRatchetsIfNeeded Sodium.ideal (.ideal 3) "bob" true idealBundles
      withAlice).store.rows.lookup (Sodium.ideal.signPublic 5)).map Prod.fst = some "bob" := by
    decide +kernel
  obtain ⟨⟨u, r⟩, hrow, rfl⟩ := Option.map_eq_some_iff.mp halice
  rw [(hwins.othersRows "alice" (by decide) _ r).mpr hrow] at hbob
  have hname : "alice" = "bob" := Option.some.inj hbob
  exact absurd hname (by decide)

end SlotStore
