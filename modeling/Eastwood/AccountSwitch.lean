import Eastwood.OwnStore

/-!
# From one account to the next

There is one `RatchetSessionManager` in a process. `logout` closes the
database and drops the KEK, but not its map, and loading the sessions of the
next account adds to the map. So what the next account has is what a fresh
process would give it exactly if all that was in the map is overwritten: every
username in it, and every session, has a row in the next account's database
(`switchAccount_mapIsFresh_iff`). Then, and only then in general, it does not
matter what was done before.
-/

open Throwing

variable {K : Type}

/-! ## What loading does to the map -/

namespace SessionStore

section Load

variable {s s' : SessionStore K} {username : String}

/-- **Two maps are one** if they have the same usernames and the same
sessions. -/
theorem ratchets_ext [DecidableEq K]
    (hmem : ∀ u, u ∈ s.ratchets ↔ u ∈ s'.ratchets)
    (hsession : ∀ u d, s.session u d = s'.session u d) : s.ratchets = s'.ratchets := by
  refine Finmap.ext_lookup fun u => ?_
  by_cases hu : u ∈ s.ratchets
  · obtain ⟨sessions, hs⟩ := Finmap.mem_iff.mp hu
    obtain ⟨sessions', hs'⟩ := Finmap.mem_iff.mp ((hmem u).mp hu)
    rw [hs, hs']
    refine congrArg some (Finmap.ext_lookup fun d => ?_)
    have hsame := hsession u d
    unfold session ofUser at hsame
    rwa [hs, hs'] at hsame
  · rw [Finmap.lookup_eq_none.mpr hu, Finmap.lookup_eq_none.mpr (mt (hmem u).mpr hu)]

variable [LinearOrder K]

theorem mem_ratchets_loadRow (device : K) : username ∈ (s.loadRow device).ratchets
    ↔ username ∈ s.ratchets ∨ ∃ r, s.rows.lookup device = some (username, r) := by
  unfold loadRow
  cases hrow : s.rows.lookup device with
  | none => exact ⟨Or.inl, fun h => h.resolve_right fun ⟨_, h⟩ => absurd h nofun⟩
  | some row =>
    obtain ⟨u, r⟩ := row
    show username ∈ s.ratchets.insert u _ ↔ _
    rw [Finmap.mem_insert]
    constructor
    · rintro (rfl | h)
      · exact Or.inr ⟨r, rfl⟩
      · exact Or.inl h
    · rintro (h | ⟨r', h⟩)
      · exact Or.inr h
      · exact Or.inl (Prod.mk.inj (Option.some.inj h)).1.symm

theorem mem_ratchets_foldl_loadRow (devices : List K) :
    username ∈ (devices.foldl loadRow s).ratchets
      ↔ username ∈ s.ratchets
        ∨ ∃ d ∈ devices, ∃ r, s.rows.lookup d = some (username, r) := by
  induction devices generalizing s with
  | nil => exact ⟨Or.inl, fun h => h.resolve_right fun ⟨_, h, _⟩ => absurd h List.not_mem_nil⟩
  | cons device devices ih =>
    rw [List.foldl_cons, ih, mem_ratchets_loadRow, rows_loadRow, or_assoc,
      List.exists_mem_cons_iff]

/-- **The usernames that are there after loading**: those that were, and those
of the rows. -/
theorem mem_ratchets_load : username ∈ s.loadRatchetsFromDb.ratchets
    ↔ username ∈ s.ratchets ∨ ∃ d r, s.rows.lookup d = some (username, r) := by
  unfold loadRatchetsFromDb
  rw [mem_ratchets_foldl_loadRow]
  refine or_congr_right ⟨?_, ?_⟩
  · rintro ⟨d, -, r, h⟩
    exact ⟨d, r, h⟩
  · rintro ⟨d, r, h⟩
    refine ⟨d, ?_, r, h⟩
    exact (Finset.mem_sort _).mpr (Finmap.mem_keys.mpr (Finmap.mem_of_lookup_eq_some h))

/-- The rows cover the map: each username has a row, and each session has the
row of its device. -/
def Covered (s : SessionStore K) : Prop :=
  ∀ username sessions, s.ratchets.lookup username = some sessions →
    (∃ d r, s.rows.lookup d = some (username, r))
      ∧ ∀ d ∈ sessions, ∃ r, s.rows.lookup d = some (username, r)

omit [LinearOrder K] in
/-- A session is in the map of its username. -/
theorem session_eq_some_iff [DecidableEq K] {device : K} {r : NewRatchet K} :
    s.session username device = some r ↔ ∃ sessions,
      s.ratchets.lookup username = some sessions ∧ sessions.lookup device = some r := by
  unfold session ofUser
  cases s.ratchets.lookup username with
  | none => exact ⟨fun h => absurd h nofun, fun ⟨_, h, _⟩ => absurd h nofun⟩
  | some sessions =>
    exact ⟨fun h => ⟨sessions, rfl, h⟩, fun ⟨_, h, hr⟩ => Option.some.inj h ▸ hr⟩

/-- Covered, username by username and session by session. -/
theorem covered_iff : s.Covered
    ↔ (∀ u ∈ s.ratchets, ∃ d r, s.rows.lookup d = some (u, r))
      ∧ ∀ u d r, s.session u d = some r → ∃ r', s.rows.lookup d = some (u, r') := by
  constructor
  · refine fun h => ⟨fun u hu => ?_, fun u d r hr => ?_⟩
    · obtain ⟨sessions, hs⟩ := Finmap.mem_iff.mp hu
      exact (h u sessions hs).1
    · obtain ⟨sessions, hs, hr⟩ := session_eq_some_iff.mp hr
      exact (h u sessions hs).2 d (Finmap.mem_of_lookup_eq_some hr)
  · refine fun ⟨hmem, hsession⟩ u sessions hs => ⟨?_, fun d hd => ?_⟩
    · exact hmem u (Finmap.mem_of_lookup_eq_some hs)
    · obtain ⟨r, hr⟩ := Finmap.mem_iff.mp hd
      exact hsession u d r (session_eq_some_iff.mpr ⟨sessions, hs, hr⟩)

/-- Covered, as the rows tell it. -/
theorem covered_iff_keys : s.Covered
    ↔ ∀ u ∈ s.ratchets.keys, (∃ d ∈ s.rows.keys, (s.rows.lookup d).map Prod.fst = some u)
      ∧ ∀ d ∈ (s.ofUser u).keys, (s.rows.lookup d).map Prod.fst = some u := by
  have hrow : ∀ u d, (s.rows.lookup d).map Prod.fst = some u
      ↔ ∃ r, s.rows.lookup d = some (u, r) := by
    intro u d
    rw [Option.map_eq_some_iff]
    exact ⟨fun ⟨row, hrow, hu⟩ => ⟨row.2, hu ▸ hrow⟩, fun ⟨r, hr⟩ => ⟨(u, r), hr, rfl⟩⟩
  simp only [hrow, Finmap.mem_keys]
  constructor
  · intro h u hu
    obtain ⟨sessions, hs⟩ := Finmap.mem_iff.mp hu
    obtain ⟨⟨d, r, hd⟩, hsessions⟩ := h u sessions hs
    refine ⟨⟨d, Finmap.mem_of_lookup_eq_some hd, r, hd⟩, fun d hd => ?_⟩
    unfold ofUser at hd
    rw [hs] at hd
    exact hsessions d hd
  · intro h u sessions hs
    obtain ⟨⟨d, -, hd⟩, hsessions⟩ := h u (Finmap.mem_of_lookup_eq_some hs)
    unfold ofUser at hsessions
    rw [hs] at hsessions
    exact ⟨⟨d, hd⟩, hsessions⟩

instance : Decidable s.Covered := decidable_of_iff _ covered_iff_keys.symm

/-- **Nothing of the map is left after loading** exactly if the rows cover
it. -/
theorem load_eq_load_restart_iff :
    s.loadRatchetsFromDb.ratchets = s.restart.loadRatchetsFromDb.ratchets ↔ s.Covered := by
  have hrestart : ∀ u, u ∉ s.restart.ratchets := fun _ => Finmap.notMem_empty
  rw [covered_iff]
  constructor
  · refine fun h => ⟨fun u hu => ?_, fun u d r hr => ?_⟩
    · have hmem : u ∈ s.restart.loadRatchetsFromDb.ratchets := by
        rw [← h, mem_ratchets_load]
        exact Or.inl hu
      exact (mem_ratchets_load.mp hmem).resolve_left (hrestart u)
    · by_contra hnone
      have hrow : ∀ r, s.rows.lookup d ≠ some (u, r) := fun r' hr' => hnone ⟨r', hr'⟩
      have hloaded : s.loadRatchetsFromDb.session u d
          = s.restart.loadRatchetsFromDb.session u d := by
        unfold session ofUser
        rw [h]
      rw [session_load_of_ne hrow, session_load_of_ne (s := s.restart) hrow, session_restart,
        hr] at hloaded
      cases hloaded
  · rintro ⟨hmem, hsession⟩
    refine ratchets_ext (fun u => ?_) fun u d => ?_
    · rw [mem_ratchets_load, mem_ratchets_load, or_iff_right_of_imp (hmem u)]
      exact (or_iff_right (hrestart u)).symm
    · by_cases hany : ∃ r, s.rows.lookup d = some (u, r)
      · obtain ⟨r, hrow⟩ := hany
        rw [session_load hrow, session_load (s := s.restart) hrow]
      · have hrow : ∀ r, s.rows.lookup d ≠ some (u, r) := fun r hr => hany ⟨r, hr⟩
        rw [session_load_of_ne hrow, session_load_of_ne (s := s.restart) hrow, session_restart]
        exact Option.eq_none_iff_forall_ne_some.mpr fun r hr => hany (hsession u d r hr)

end Load

end SessionStore

/-! ## The calls of an account -/

/-- What the session manager answers. -/
inductive SessionAnswer (K : Type) where
  | created (result : Except Fault Unit) (posted : List (SendingKeyBundle K))
  | keys (result : Except Fault (List (K × K × MessageHeader K)))
      (posted : List (SendingKeyBundle K))
  | key (result : Except Fault K)

/-- The devices it has keys for. -/
def SessionAnswer.devices : SessionAnswer K → List K
  | created _ _ => []
  | keys (.ok forDevices) _ => forDevices.map (·.1)
  | keys (.error _) _ => []
  | key _ => []

section Calls

variable [Zero K] [LinearOrder K] (S : Sodium K)

/-- A call of it with all that it answers. -/
def SessionStore.Call.answer :
    SessionStore.Call K → SessionStore K → SessionAnswer K × SessionStore K
  | createRatchetsIfNeeded ks username bundles postToServer, s =>
    let created := s.createRatchetsIfNeeded S ks username postToServer bundles
    (.created created.result created.posted, created.store)
  | getKeysForIdentity ks username none, s =>
    let keys := s.getKeysForIdentity S ks username none
    (.keys keys.result keys.posted, keys.store)
  | getKeysForIdentity _ _ (some (.error e)), s => (.keys (.error e) [], s)
  | getKeysForIdentity ks username (some (.ok bundles)), s =>
    let keys := s.getKeysForIdentity S ks username (some bundles)
    (.keys keys.result keys.posted, keys.store)
  | getKeyForDevice fresh username header, s =>
    let (key, s) := s.getKeyForDevice S fresh username header
    (.key key, s)

/-- It leaves the store it was said to leave. -/
theorem SessionStore.Call.answer_snd (c : SessionStore.Call K) (s : SessionStore K) :
    (c.answer S s).2 = (c.run S s).2 := by
  cases c with
  | createRatchetsIfNeeded ks username bundles postToServer => rfl
  | getKeysForIdentity ks username newBundles =>
    cases newBundles with
    | none => rfl
    | some bundles => cases bundles <;> rfl
  | getKeyForDevice fresh username header => rfl

/-- **A call of the session manager in a process**, with a database open. -/
def callSessions (c : SessionStore.Call K) : AccountM K (SessionAnswer K) := do
  let t ← query .ok
  fun m =>
    let outcome := c.answer S (m.store t)
    (.ok outcome.1, ({ m with ratchets := outcome.2.ratchets }).setTables
      { t with ratchets := outcome.2.rows, messages := outcome.2.messages })

variable (C : AccountCrypto K)

omit [Zero K] in
/-- **`register_first_device`.** -/
def registerFirstDevice (device : K × K) (nonce : List UInt8) (timestamp : ℤ)
    (sodiumInit posted : Except Fault Unit) : AccountM K Unit := do
  let encryptedSk ← encryptSecretKey C device.2 nonce
  saveEncryptedKeypair "device" ⟨device.1, encryptedSk, timestamp⟩
  Throwing.answer sodiumInit
  let _ ← getDecryptedKeypair C "identity"
  Throwing.answer posted

omit [Zero K] in
/-- A logout that returns, and the login of the next account. -/
def switchAccount (username : String) (password : List UInt8) (d : LoginDraws K) :
    AccountM K Unit := do
  logout (.ok ())
  loginUser C username password d

end Calls

namespace Machine

section Switch

variable [LinearOrder K]

/-- **The map is the one a fresh process would have**: what
`load_ratchets_from_db` makes of the user's database, which is open. -/
def MapIsFresh (username : String) (m : Machine K) : Prop :=
  ∃ key t, m.connection = some (username, key) ∧ m.tables = .ok t
    ∧ m.ratchets = (m.restart.store t).loadRatchetsFromDb.ratchets

/-- **The condition**: the rows of a user's database cover the map. -/
def MapCovered (username : String) (m : Machine K) : Prop :=
  ∀ key t, (m.files username).database = some ⟨key, some t⟩ → (m.store t).Covered

theorem mapCovered_iff {username : String} {m : Machine K} : m.MapCovered username
    ↔ ∀ t ∈ (m.files username).database.bind DatabaseFile.tables, (m.store t).Covered := by
  refine ⟨fun h t ht => ?_, fun h key t hd => h t (Option.bind_eq_some_iff.mpr ⟨_, hd, rfl⟩)⟩
  obtain ⟨⟨key, tables⟩, hd, htables⟩ := Option.bind_eq_some_iff.mp ht
  obtain rfl : tables = some t := htables
  exact h key t hd

instance (username : String) (m : Machine K) : Decidable (m.MapCovered username) :=
  decidable_of_iff (∀ t ∈ (m.files username).database.bind DatabaseFile.tables,
    (m.store t).Covered) mapCovered_iff.symm

omit [LinearOrder K] in
/-- Two machines in which a user's store, and the map, are the same. -/
structure SameFor (username : String) (m m' : Machine K) : Prop where
  files : m'.files username = m.files username
  connection : m'.connection = m.connection
  kek : m'.kek = m.kek
  ratchets : m'.ratchets = m.ratchets

omit [LinearOrder K] in
/-- The machine with another map. -/
def withMap (ratchets : Finmap fun _ : String => Finmap fun _ : K => NewRatchet K)
    (m : Machine K) : Machine K := { m with ratchets := ratchets }

omit [LinearOrder K] in
theorem outside_withMap (username : String)
    (ratchets : Finmap fun _ : String => Finmap fun _ : K => NewRatchet K) :
    Outside username (withMap ratchets) := ⟨fun _ => rfl, fun _ => rfl, fun _ => rfl,
  fun _ _ => rfl, fun _ _ => rfl, fun _ _ => rfl⟩

end Switch

end Machine

/-! ## A login, around the loading of the sessions -/

section Login

variable [LinearOrder K] (C : AccountCrypto K) {username : String} {password : List UInt8}
  {m m₂ : Machine K}

/-- What a login does until it loads the sessions, -/
def LoginDraws.untilLoad (username : String) (password : List UInt8) (d : LoginDraws K) :
    AccountM K Unit := do
  let masterKey ← d.masterKey C username password
  initializeDatabase username masterKey d.opened
  loadKek C masterKey
  let _ ← getDecryptedKeypair C "device"
  Throwing.answer d.requested
  Throwing.answer d.authenticated

/-- and after that. -/
def LoginDraws.afterLoad (d : LoginDraws K) : AccountM K Unit :=
  match d.newKeys with
  | some draws => postNewKeys C draws
  | none => return

theorem loginUser_eq (d : LoginDraws K) : loginUser C username password d = (do
    d.untilLoad C username password
    loadRatchetsFromDb
    d.afterLoad C) := by
  unfold loginUser LoginDraws.untilLoad
  simp only [Throwing.bind_assoc]
  rfl

theorem worksOn_untilLoad (username : String) (password : List UInt8) (d : LoginDraws K) :
    WorksOn username (d.untilLoad C username password) :=
  (usesSaltOnly_masterKey C password d).worksOn.bind fun _ =>
    (worksOn_initializeDatabase _ _).bind fun _ => (worksOn_loadKek C _).bind fun _ =>
      (worksOn_getDecryptedKeypair C _).bind fun _ => (WorksOn.answer _).bind fun _ =>
        WorksOn.answer _

theorem worksOn_afterLoad (username : String) (d : LoginDraws K) :
    WorksOn username (d.afterLoad C) := by
  unfold LoginDraws.afterLoad
  cases d.newKeys with
  | none => exact WorksOn.pure ()
  | some draws => exact worksOn_postNewKeys C draws

/-- Nothing is written until then, -/
theorem keepsFiles_untilLoad (username : String) (password : List UInt8)
    (files : String → UserFiles K) (d : LoginDraws K) :
    Keeps (fun m : Machine K => m.files = files) (d.untilLoad C username password) := by
  have hopen : ∀ masterKey, Keeps (fun m : Machine K => m.files = files)
      (initializeDatabase username masterKey d.opened) := by
    intro masterKey m hm
    obtain ⟨e, hrun, -⟩ | ⟨c, hrun, -⟩ := initializeDatabase_cases username masterKey d.opened m
    · rw [hrun]
      exact hm
    · rw [hrun]
      exact hm
  have hkek : ∀ kek, Keeps (fun m : Machine K => m.files = files) (setKek kek) :=
    fun _ => Keeps.modify fun _ h => h
  exact (keeps_masterKey username password d).bind fun _ => (hopen _).bind fun _ =>
    (keeps_loadKek hkek _).bind fun _ => (keeps_getDecryptedKeypair _).bind fun _ =>
      (Keeps.answer _).bind fun _ => Keeps.answer _

/-- The open database has these sessions and messages. -/
def Machine.HasSessions (t : Tables K) (m : Machine K) : Prop :=
  ∃ t', m.tables = .ok t' ∧ t'.ratchets = t.ratchets ∧ t'.messages = t.messages

/-- and no session is written after that. -/
theorem keepsSessions_afterLoad (t : Tables K) (d : LoginDraws K) :
    Keeps (Machine.HasSessions t) (d.afterLoad C) := by
  have hsave : ∀ keys : List (K × EncryptedKey),
      Keeps (Machine.HasSessions t) (saveEncryptedOnetimeKeys keys) := by
    intro keys
    refine Keeps.modify fun m hm => ?_
    obtain ⟨t', ht', hsame⟩ := hm
    obtain ⟨rows, hrows⟩ := t'.foldl_insertOnetime keys
    simp only [ht', hrows]
    exact ⟨_, tables_setTables ht' _, hsame⟩
  unfold LoginDraws.afterLoad
  cases d.newKeys with
  | none => exact Keeps.pure ()
  | some draws => exact keeps_postNewKeys (fun _ _ => keeps_tables_execute fun _ h => h) hsave draws

/-- What is loaded, given the tables of the connection. -/
theorem loadRatchetsFromDb_of_tables {t : Tables K} (ht : m.tables = .ok t) :
    loadRatchetsFromDb m = (.ok (), m.withMap (m.store t).loadRatchetsFromDb.ratchets) :=
  bind_of_ok (query_of_tables ht .ok)

/-- **What a login makes of the map**, whatever was in it: it loads into it
the rows of the user's database, and looks at it nowhere else. -/
theorem loginUser_of_ok {d : LoginDraws K} (hm : m.Own username)
    (h : loginUser C username password d m = (.ok (), m₂)) :
    ∃ key t, (m.files username).database = some ⟨key, some t⟩ ∧ m₂.HasSessions t
      ∧ ∀ ratchets, loginUser C username password d (m.withMap ratchets)
        = (.ok (), m₂.withMap ((m.withMap ratchets).store t).loadRatchetsFromDb.ratchets) := by
  rw [loginUser_eq] at h
  obtain ⟨_, m₁, huntil, h⟩ := exists_of_bind_ok h
  obtain ⟨_, m', hload, hafter⟩ := exists_of_bind_ok h
  obtain ⟨t, m₁', hquery, hloaded⟩ := exists_of_bind_ok hload
  obtain ⟨hbind, rfl⟩ := Prod.mk.inj hquery
  obtain ⟨t', ht, hid⟩ := exists_of_bind_eq_ok hbind
  obtain rfl := Except.ok.inj hid
  obtain rfl : m' = m₁.withMap (m₁.store t').loadRatchetsFromDb.ratchets :=
    (Prod.mk.inj ((loadRatchetsFromDb_of_tables ht).symm.trans hload)).2.symm
  have hown : m₁.Own username := by
    have hkept := (worksOn_untilLoad C username password d _
      (Machine.outside_withMap username ∅) m hm).1
    rwa [huntil] at hkept
  have hfiles : m₁.files = m.files := by
    have hkept := keepsFiles_untilLoad C username password m.files d m rfl
    rwa [huntil] at hkept
  obtain ⟨user, key, hconnection, hd⟩ := tables_eq_ok_iff.mp ht
  obtain rfl := hown.eq hconnection
  rw [hfiles] at hd
  refine ⟨key, t', hd, ?_, fun ratchets => ?_⟩
  · have hkept := keepsSessions_afterLoad C t' d
      (m₁.withMap (m₁.store t').loadRatchetsFromDb.ratchets) ⟨t', ht, rfl, rfl⟩
    rwa [hafter] at hkept
  · have huntil' := (worksOn_untilLoad C user password d _
      (Machine.outside_withMap user ratchets) m hm).2
    rw [huntil] at huntil'
    have hload' := loadRatchetsFromDb_of_tables (m := m₁.withMap ratchets) ht
    have hafter' := (worksOn_afterLoad C user d _ (Machine.outside_withMap user
      ((m₁.withMap ratchets).store t').loadRatchetsFromDb.ratchets)
      (m₁.withMap (m₁.store t').loadRatchetsFromDb.ratchets) hown).2
    rw [hafter] at hafter'
    rw [loginUser_eq, bind_of_ok huntil', bind_of_ok hload']
    exact hafter'

/-- A switch is a login where nothing is open, over whatever is in the
map. -/
theorem switchAccount_eq (d : LoginDraws K) (m : Machine K) :
    switchAccount C username password d m
      = loginUser C username password d (m.restart.withMap m.ratchets) := rfl

/-- The account's own database is open then, if any. -/
theorem own_switchAccount (d : LoginDraws K) (m : Machine K) :
    ((switchAccount C username password d m).2).Own username :=
  (AccountCall.ignoresOthers_loginUser (C := C) d [] m.disk (m.restart.withMap m.ratchets)
    fun _ _ hc => absurd hc nofun).1

/-- **What the next account finds in the map**: the rows of its database,
loaded into what was there. -/
theorem switchAccount_of_ok {d : LoginDraws K}
    (h : switchAccount C username password d m = (.ok (), m₂)) :
    ∃ key t, (m.files username).database = some ⟨key, some t⟩ ∧ m₂.HasSessions t
      ∧ m₂.ratchets = (m.store t).loadRatchetsFromDb.ratchets
      ∧ ∀ ratchets, loginUser C username password d (m.restart.withMap ratchets)
        = (.ok (), m₂.withMap ((m.withMap ratchets).store t).loadRatchetsFromDb.ratchets) := by
  rw [switchAccount_eq] at h
  have hm : (m.restart.withMap m.ratchets).Own username := fun _ _ hc => absurd hc nofun
  obtain ⟨key, t, hd, hsessions, hlogin⟩ := loginUser_of_ok C hm h
  refine ⟨key, t, hd, hsessions, ?_, hlogin⟩
  have hsame := (Prod.mk.inj (h.symm.trans (hlogin m.ratchets))).2
  exact congrArg Machine.ratchets hsame

/-- One switch leaves a fresh map exactly if the rows cover what was there. -/
theorem mapIsFresh_iff_mapCovered {d : LoginDraws K}
    (h : switchAccount C username password d m = (.ok (), m₂)) :
    m₂.MapIsFresh username ↔ m.MapCovered username := by
  obtain ⟨key, t, hd, ⟨t', ht', hrows, hmessages⟩, hmap, -⟩ := switchAccount_of_ok C h
  have hown : m₂.Own username := by
    have hkept : ((switchAccount C username password d m).2).Own username := own_switchAccount C d m
    rwa [h] at hkept
  have hfresh : m₂.MapIsFresh username
      ↔ m₂.ratchets = (m.store t).restart.loadRatchetsFromDb.ratchets := by
    have hstore : m₂.restart.store t' = (m.store t).restart := by
      unfold Machine.store
      rw [hrows, hmessages]
      rfl
    constructor
    · rintro ⟨-, t'', -, ht'', hsame⟩
      obtain rfl := Except.ok.inj (ht'.symm.trans ht'')
      rwa [hstore] at hsame
    · intro hsame
      obtain ⟨user, key', hconnection, -⟩ := tables_eq_ok_iff.mp ht'
      obtain rfl : user = username := hown.eq hconnection
      exact ⟨key', t', hconnection, ht', by rwa [hstore]⟩
  have hcovered : m.MapCovered username ↔ (m.store t).Covered := by
    constructor
    · exact fun hall => hall key t hd
    · intro hc key' t₂ hd'
      obtain ⟨rfl, ht₂⟩ := DatabaseFile.mk.inj (Option.some.inj (hd.symm.trans hd'))
      rwa [← Option.some.inj ht₂]
  rw [hfresh, hmap, hcovered]
  exact SessionStore.load_eq_load_restart_iff

end Login

/-! ## Two runs -/

section TwoRuns

variable [LinearOrder K] (C : AccountCrypto K) {username : String} {password : List UInt8}
  {d : LoginDraws K} {m m' m₂ m₂' : Machine K}

omit [LinearOrder K] in
/-- Such machines differ in the files of others. -/
theorem Machine.SameFor.eq_withOthers (h : m.SameFor username m') :
    m' = m.withOthers username m'.dataPath m'.disk := by
  obtain ⟨dataPath, disk, connection, kek, ratchets⟩ := m'
  obtain ⟨hfiles, rfl, rfl, rfl⟩ := h
  unfold Machine.withOthers
  rw [← hfiles]
  exact congrArg (Machine.mk dataPath · _ _ _) (Function.update_eq_self ..).symm

omit [LinearOrder K] in
theorem Machine.sameFor_withOthers (p : Place) (g : Place → UserFiles K) :
    m.SameFor username (m.withOthers username p g) := ⟨Function.update_self .., rfl, rfl, rfl⟩

/-- **Two switches to one account** end in the same machine, as far as that
account goes, if its rows cover both maps. -/
theorem sameFor_of_switchAccount (h : switchAccount C username password d m = (.ok (), m₂))
    (h' : switchAccount C username password d m' = (.ok (), m₂'))
    (hfiles : m'.files username = m.files username) (hc : m.MapCovered username)
    (hc' : m'.MapCovered username) : m₂.Own username ∧ m₂.SameFor username m₂' := by
  have hm : (m.restart.withMap m.ratchets).Own username := fun _ _ hc => absurd hc nofun
  have hstart : m'.restart.withMap m'.ratchets
      = ((m.restart.withMap m.ratchets).withOthers username m'.dataPath m'.disk).withMap
        m'.ratchets := by
    show (⟨m'.dataPath, m'.disk, none, none, m'.ratchets⟩ : Machine K)
      = ⟨m'.dataPath, Function.update m'.disk (m'.place username) (m.files username), none, none,
        m'.ratchets⟩
    rw [← hfiles]
    exact congrArg (Machine.mk m'.dataPath · none none m'.ratchets)
      (Function.update_eq_self ..).symm
  have hfresh : m₂.MapIsFresh username := (mapIsFresh_iff_mapCovered C h).mpr hc
  have hfresh' : m₂'.MapIsFresh username := (mapIsFresh_iff_mapCovered C h').mpr hc'
  obtain ⟨hown, hothers⟩ := AccountCall.ignoresOthers_loginUser (C := C) d m'.dataPath m'.disk _ hm
  rw [switchAccount_eq] at h h'
  rw [h] at hown hothers
  obtain ⟨-, t, -, -, hlogin⟩ := loginUser_of_ok C (m := Machine.withOthers username m'.dataPath
    m'.disk (m.restart.withMap m.ratchets)) hm hothers
  obtain rfl : m₂' = (m₂.withOthers username m'.dataPath m'.disk).withMap _ :=
    (Prod.mk.inj (h'.symm.trans ((congrArg _ hstart).trans (hlogin m'.ratchets)))).2
  refine ⟨hown, Function.update_self .., rfl, rfl, ?_⟩
  -- both maps are what is loaded from the same tables
  obtain ⟨-, t₁, -, ht₁, hratchets⟩ := hfresh
  obtain ⟨-, t₂, -, ht₂, hratchets'⟩ := hfresh'
  have htables : (m₂.withOthers username m'.dataPath m'.disk).tables = m₂.tables :=
    (Machine.outside_withOthers username m'.dataPath m'.disk).tables hown
  obtain rfl := Except.ok.inj ((ht₁.symm.trans htables.symm).trans ht₂)
  rw [hratchets, hratchets']
  rfl

variable [Zero K] (S : Sodium K)

/-- The session manager works on the map and on the open database. -/
theorem ignoresOthers_callSessions (c : SessionStore.Call K) :
    IgnoresOthers username (callSessions S c) := by
  refine (worksOn_query _).ignoresOthers.bind fun t p g m hm => ?_
  have hown : ∀ ratchets, ({ m with ratchets := ratchets } : Machine K).Own username :=
    fun _ => hm
  let outcome := c.answer S (m.store t)
  have hset := (Machine.outside_withOthers username p g).setTables (hown outcome.2.ratchets)
    { t with ratchets := outcome.2.rows, messages := outcome.2.messages }
  exact ⟨(hown _).setTables _, congrArg (Except.ok outcome.1, ·) hset⟩

/-- So it answers alike on such machines, whatever was called before. -/
theorem callSessions_of_sameFor (hown : m.Own username) (h : m.SameFor username m')
    (calls : List (SessionStore.Call K)) (c : SessionStore.Call K) :
    (callSessions S c (after (callSessions S) calls m')).1
        = (callSessions S c (after (callSessions S) calls m)).1
      ∧ (after (callSessions S) calls m).SameFor username (after (callSessions S) calls m') := by
  have hignores : ∀ c, Ignores (Machine.Own username)
      (Machine.withOthers username m'.dataPath m'.disk) (callSessions S c) :=
    fun c => ignoresOthers_callSessions S c m'.dataPath m'.disk
  have hafter : after (callSessions S) calls m'
      = (after (callSessions S) calls m).withOthers username m'.dataPath m'.disk := by
    rw [← after_ignores hignores calls hown, ← h.eq_withOthers]
  have hown' : (after (callSessions S) calls m).Own username :=
    after_keeps (fun c => (hignores c).keeps) calls hown
  rw [hafter]
  refine ⟨?_, Machine.sameFor_withOthers _ _⟩
  rw [(hignores c _ hown').2]

end TwoRuns

/-! ## A session that stays -/

/-- Bob is registered with a device and logs out. -/
def onlyBob : Machine ℕ := Prod.snd <| Machine.blank |> (do
  registerUser .ideal "bob" [2] (.ideal (.ideal 2) 6)
  registerFirstDevice .ideal (21, 22) [3] 0 (.ok ()) (.ok ())
  logout (.ok ()) : AccountM ℕ Unit)

/-- Then alice is registered with hers, and she has a session with carol. -/
def beforeSession : Machine ℕ := Prod.snd <| onlyBob |> (do
  registerUser .ideal "alice" [1] (.ideal (.ideal 1) 5)
  registerFirstDevice .ideal (11, 12) [4] 0 (.ok ()) (.ok ()) : AccountM ℕ Unit)

def withSession : Machine ℕ :=
  (callSessions Sodium.ideal (.idealHandshake "carol") beforeSession).2

/-- The machine once bob is logged in. -/
def Machine.switched (m : Machine ℕ) : Machine ℕ :=
  (switchAccount .ideal "bob" [2] .ideal m).2

/-- The devices bob has keys for when he asks for carol's. -/
def carolsDevices (m : Machine ℕ) : Option (List ℕ) :=
  match (callSessions Sodium.ideal (.getKeysForIdentity (.ideal 3) "carol" none) m).1 with
  | .ok answer => some answer.devices
  | .error _ => none

/-! ## From one account to the next -/

section Switch

variable [Zero K] [LinearOrder K]

/-- **What is left of one account in the next.** Whatever was done before,
after a logout and the login of an account the map is the one a fresh process
would have if and only if the rows of that account's database cover the map
there was. And after two histories in which they do, the session manager
answers every sequence of calls alike and writes the same. -/
theorem switchAccount_mapIsFresh_iff (C : AccountCrypto K) (S : Sodium K) (username : String)
    (password : List UInt8) (d : LoginDraws K) :
    (∀ m m₂ : Machine K, switchAccount C username password d m = (.ok (), m₂) →
        (m₂.MapIsFresh username ↔ m.MapCovered username))
      ∧ ∀ m m' m₂ m₂' : Machine K, switchAccount C username password d m = (.ok (), m₂) →
        switchAccount C username password d m' = (.ok (), m₂') →
        m'.files username = m.files username → m.MapCovered username → m'.MapCovered username →
        ∀ calls c, (callSessions S c (after (callSessions S) calls m₂')).1
            = (callSessions S c (after (callSessions S) calls m₂)).1
          ∧ (after (callSessions S) calls m₂).SameFor username
            (after (callSessions S) calls m₂') := by
  refine ⟨fun m m₂ h => mapIsFresh_iff_mapCovered C h, ?_⟩
  intro m m' m₂ m₂' h h' hfiles hc hc' calls c
  obtain ⟨hown, hsame⟩ := sameFor_of_switchAccount C h h' hfiles hc hc'
  exact callSessions_of_sameFor S hown hsame calls c

end Switch

/-- Bob has a session with carol and logs out. -/
def bobsSession : Machine ℕ := Prod.snd <| Machine.blank |> (do
  registerUser .ideal "bob" [2] (.ideal (.ideal 2) 6)
  registerFirstDevice .ideal (21, 22) [3] 0 (.ok ()) (.ok ())
  let _ ← callSessions Sodium.ideal (.idealHandshake "carol")
  logout (.ok ()) : AccountM ℕ Unit)

/-- And alice registers, with that session still in the map. -/
def thenAlice : Machine ℕ :=
  (registerUser .ideal "alice" [1] (.ideal (.ideal 1) 5) bobsSession).2

/-- Whether alice was there or not, if the session in the map is his own
bob's map is fresh, and a call of his is answered alike. -/
theorem switchAccount_mapIsFresh_iff_bob :
    "carol" ∈ thenAlice.ratchets ∧ thenAlice.switched.MapIsFresh "bob"
      ∧ (callSessions Sodium.ideal (.idealHandshake "carol") bobsSession.switched).1
        = (callSessions Sodium.ideal (.idealHandshake "carol") thenAlice.switched).1 := by
  have hswitch : ∀ m : Machine ℕ, (switchAccount .ideal "bob" [2] .ideal m).1.isOk →
      switchAccount .ideal "bob" [2] .ideal m = (.ok (), m.switched) := by
    intro m hm
    obtain ⟨_, h⟩ := exists_of_isOk hm
    exact Prod.ext h rfl
  have hfirst := hswitch thenAlice (by decide +kernel)
  have hsecond := hswitch bobsSession (by decide +kernel)
  have hown : bobsSession.Own "alice" := by
    have hnone : bobsSession.connection = none := by decide +kernel
    intro user key h
    rw [hnone] at h
    cases h
  have hfiles : bobsSession.files "bob" = thenAlice.files "bob" := by
    have hapart : bobsSession.place "bob" ≠ bobsSession.place "alice" := by decide +kernel
    refine (AccountCall.files_of_withOthers (fun p g => ?_) hapart).symm
    exact ((AccountCall.worksOn_registerUser _).ignoresOthers p g bobsSession hown).2
  have h := switchAccount_mapIsFresh_iff AccountCrypto.ideal Sodium.ideal "bob" [2] .ideal
  exact ⟨by decide +kernel, (h.1 _ _ hfirst).mpr (by decide +kernel),
    (h.2 _ _ _ _ hfirst hsecond hfiles (by decide +kernel) (by decide +kernel) []
      (.idealHandshake "carol")).1⟩

/-- **Alice's session with carol is bob's.** After the same two logins and
logouts bob has no key for carol, or one from alice's session with her, which
is in no row of his. -/
theorem not_mapIsFresh_of_session :
    (switchAccount .ideal "bob" [2] .ideal withSession).1.isOk
      ∧ ¬ withSession.switched.MapIsFresh "bob"
      ∧ carolsDevices beforeSession.switched = some []
      ∧ carolsDevices withSession.switched = some [Sodium.ideal.signPublic 5] := by
  refine ⟨by decide +kernel, ?_, by decide +kernel, by decide +kernel⟩
  rintro ⟨-, t, -, ht, hsame⟩
  have hcarol : (withSession.switched.ratchets.lookup "carol").isSome := by decide +kernel
  rw [Finmap.lookup_isSome, hsame, SessionStore.mem_ratchets_load] at hcarol
  obtain ⟨device, r, hrow⟩ := hcarol.resolve_left Finmap.notMem_empty
  have hnone : withSession.switched.tables.toOption.map (·.ratchets.keys) = some ∅ := by
    decide +kernel
  rw [ht] at hnone
  have hempty : t.ratchets.keys = ∅ := Option.some.inj hnone
  have hmem : device ∈ t.ratchets.keys :=
    Finmap.mem_keys.mpr (Finmap.mem_of_lookup_eq_some hrow)
  rw [hempty] at hmem
  exact absurd hmem (Finset.notMem_empty device)
