import Eastwood.Handshake
import Eastwood.MessageWire
import Mathlib.Data.Sym.Sym2.Order
import Mathlib.Order.Bounds.Basic

/-!
# Authentication codes

Three windows show a code two users are to compare. They first fetch what
there is of the other user, handshakes and bundles, and then hash two device
keys in their order: the device's own, and the first of the other user's
devices in the map of sessions.

The hash does not care which of the two keys is whose
(`concatOrdered_eq_iff`). The choice of the second does: with more than one
device the first in the map need not be the one the other user holds in their
hands. Two devices show each other's codes exactly if each is the first of
its user's devices that the other one knows (`authCodes_agree_iff`).
-/

/-! ## Usernames -/

/-- `QChar::isSpace`. -/
def isQtSpace (c : Char) : Bool :=
  let n := c.toNat
  n = 32 || (9 ≤ n && n ≤ 13) || n = 0x85 || n = 0xA0 || n = 0x1680 || (0x2000 ≤ n && n ≤ 0x200A)
    || n = 0x2028 || n = 0x2029 || n = 0x202F || n = 0x205F || n = 0x3000

/-- `QString::trimmed`. -/
def trimmed (s : List Char) : List Char :=
  ((s.dropWhile isQtSpace).reverse.dropWhile isQtSpace).reverse

/-- `QString::length`: in UTF-16. -/
def qtLength (s : List Char) : ℕ :=
  (s.map fun c => if c.toNat < 0x10000 then 1 else 2).sum

/-- **`NameValidator::validateUsername`**: the error message, if there is
one. -/
def validateUsername (username : String) : Except String Unit :=
  let trimmedUsername := trimmed username.toList
  if trimmedUsername = [] then .error "Username is required"
  else if qtLength trimmedUsername < 3 then
    .error "Username must be at least 3 characters long"
  else if 32 < qtLength trimmedUsername then
    .error "Username cannot be longer than 32 characters"
  else if username.toList.head? = some ' ' ∨ username.toList.getLast? = some ' ' then
    .error "Username cannot start or end with spaces"
  else if username.toList.all fun c => 32 ≤ c.toNat && c.toNat ≤ 126 then .ok ()
  else .error "Username can only contain ASCII characters"

/-! ## The code -/

section Code

variable (sha256 : List UInt8 → List UInt8) (base64 : List UInt8 → String)

/-- **`concat_ordered`**, of two keys. -/
def concatOrdered (a b : Key) : List UInt8 :=
  sha256 (if a ≤ b then a.1 ++ b.1 else b.1 ++ a.1)

variable (S : Sodium Key) (ks : KeyStore Key)

/-- What is fetched of a user before the code is made: their handshakes and
bundles, given what `get_handshake_backlog` and `get_keybundles` do. -/
def fetchSessions (username : String)
    (handshakes : Except Fault (List (String × ReceivingKeyBundle Key)))
    (bundles : Except Fault (List (SendingKeyBundle Key))) (s : SessionStore Key) :
    Except Fault Unit × SessionStore Key :=
  match handshakes with
  | .error e => (.error e, s)
  | .ok handshakes =>
    match s.updateHandshakes S ks handshakes with
    | (.error e, s) => (.error e, s)
    | (.ok (), s) =>
      match bundles with
      | .error e => (.error e, s)
      | .ok bundles =>
        let created := s.createRatchetsIfNeeded S ks username true (bundles.map .sending)
        (created.result, created.store)

/-- The code for a user. The element of a vector that has none is at a null
pointer. -/
def authCode (username : String) (s : SessionStore Key) : Except Fault String := do
  let myDevicePub ← ks.getPublicKey .device
  match s.getDeviceIdsOfExistingHandshakes username with
  | [] => .error .nullDereference
  | theirDeviceId :: _ => .ok (base64 (concatOrdered sha256 myDevicePub theirDeviceId))

/-- **`onShowAuthCodeClicked`** of `SendFile`: the code shown for a user, and
the store it leaves. -/
def showAuthCode (username : String)
    (handshakes : Except Fault (List (String × ReceivingKeyBundle Key)))
    (bundles : Except Fault (List (SendingKeyBundle Key))) (s : SessionStore Key) :
    Except Fault String × SessionStore Key :=
  match fetchSessions S ks username handshakes bundles s with
  | (.error e, s) => (.error e, s)
  | (.ok (), s) => (authCode sha256 base64 ks username s, s)

/-- **`onShowAuthCodeButtonClicked`** of `Received` and `Sent`, the username
having been asked for: it is validated, and a message shown where it is no
good. -/
def showAuthCodeButton (username : String)
    (handshakes : Except Fault (List (String × ReceivingKeyBundle Key)))
    (bundles : Except Fault (List (SendingKeyBundle Key))) (s : SessionStore Key) :
    Except String (Except Fault String) × SessionStore Key :=
  match validateUsername username with
  | .error message => (.error message, s)
  | .ok () =>
    let shown := showAuthCode sha256 base64 S ks username handshakes bundles s
    (.ok shown.1, shown.2)

/-- **A code is shown for a user**, in one window or another. -/
def Shows (username : String) (handshakes : List (String × ReceivingKeyBundle Key))
    (bundles : List (SendingKeyBundle Key)) (s : SessionStore Key) (code : String) : Prop :=
  (showAuthCode sha256 base64 S ks username (.ok handshakes) (.ok bundles) s).1 = .ok code
    ∨ (showAuthCodeButton sha256 base64 S ks username (.ok handshakes) (.ok bundles) s).1
      = .ok (.ok code)

end Code

/-! ## Which devices are known -/

namespace SessionStore

section Devices

variable {K : Type} [LinearOrder K]

/-- The devices of a user there is a session with. -/
def devices (username : String) (s : SessionStore K) : Set K :=
  {d | (s.session username d).isSome}

variable {s : SessionStore K} {username u : String} {d : K}

/-- **The first in the map is the least.** -/
theorem getDeviceIds_head_eq_iff :
    (s.getDeviceIdsOfExistingHandshakes username).head? = some d
      ↔ IsLeast (s.devices username) d := by
  have hmem : ∀ x, x ∈ s.getDeviceIdsOfExistingHandshakes username ↔ x ∈ s.devices username :=
    fun _ => mem_getDeviceIds_iff
  have hsorted : (s.getDeviceIdsOfExistingHandshakes username).Pairwise (· ≤ ·) :=
    Finset.pairwise_sort _ _
  generalize s.getDeviceIdsOfExistingHandshakes username = l at hmem hsorted
  cases l with
  | nil =>
    refine iff_of_false nofun fun h => ?_
    cases (hmem d).mpr h.1
  | cons x l =>
    have hleast : IsLeast (s.devices username) x := by
      refine ⟨(hmem x).mp List.mem_cons_self, fun y hy => ?_⟩
      obtain rfl | hy := List.mem_cons.mp ((hmem y).mpr hy)
      · exact le_rfl
      · exact List.rel_of_pairwise_cons hsorted hy
    rw [List.head?_cons, Option.some_inj]
    exact ⟨fun h => h ▸ hleast, fun h => hleast.unique h⟩

/-- A session that is held is one with its device. -/
theorem mem_devices_hold {device : K} {r : NewRatchet K} {username : String} :
    d ∈ (s.hold username device r).devices u
      ↔ d ∈ s.devices u ∨ u = username ∧ device = d := by
  show (((s.hold username device r).session u d).isSome) ↔ _
  by_cases he : (u, d) = (username, device)
  · obtain ⟨rfl, rfl⟩ := Prod.mk.inj he
    rw [session_hold]
    exact iff_of_true rfl (Or.inr ⟨rfl, rfl⟩)
  · rw [session_hold_of_ne _ _ _ _ _ _ he]
    refine ⟨Or.inl, ?_⟩
    rintro (h | ⟨hu, hd⟩)
    · exact h
    · exact absurd (by rw [hu, hd]) he

variable [Zero K] {S : Sodium K} {ks : KeyStore K}

/-- Bundles that were all taken have sessions, and no others are made. -/
theorem mem_devices_createRatchetsIfNeeded {post : Bool} {bundles : List (KeyBundle K)}
    (hok : (s.createRatchetsIfNeeded S ks username post bundles).result = .ok ()) :
    d ∈ (s.createRatchetsIfNeeded S ks username post bundles).store.devices u
      ↔ d ∈ s.devices u ∨ u = username ∧ ∃ b ∈ bundles, b.getTheirDevicePublic = d := by
  induction bundles generalizing s with
  | nil =>
    show (((s.touch username).session u d).isSome) ↔ _
    rw [session_touch]
    refine ⟨Or.inl, ?_⟩
    rintro (h | ⟨-, _, hb, -⟩)
    · exact h
    · cases hb
  | cons b bundles ih =>
    by_cases hb : (s.session username b.getTheirDevicePublic).isSome
    · rw [createRatchetsIfNeeded_of_session hb] at hok ⊢
      rw [ih hok]
      refine or_congr_right' fun hnot => and_congr_right fun hu => ?_
      subst hu
      constructor
      · rintro ⟨b', hb', hd⟩
        exact ⟨b', List.mem_cons_of_mem _ hb', hd⟩
      · rintro ⟨b', hb', hd⟩
        obtain rfl | hb' := List.mem_cons.mp hb'
        · subst hd
          exact absurd hb hnot
        · exact ⟨b', hb', hd⟩
    · rw [createRatchetsIfNeeded] at hok ⊢
      simp only [if_neg hb] at hok ⊢
      cases hr : b.createRatchet S ks with
      | error e =>
        simp only [hr] at hok
        cases hok
      | ok r =>
        simp only [hr] at hok ⊢
        rw [ih hok]
        have hsaved : ((s.hold username b.getTheirDevicePublic r).save username
            b.getTheirDevicePublic r).devices u
              = (s.hold username b.getTheirDevicePublic r).devices u := rfl
        rw [hsaved, mem_devices_hold, or_assoc, ← and_or_left, List.exists_mem_cons_iff]

/-- Handshakes that were all taken have theirs. -/
theorem mem_devices_updateHandshakes {handshakes : List (String × ReceivingKeyBundle K)}
    (hok : (s.updateHandshakes S ks handshakes).1 = .ok ()) :
    d ∈ (s.updateHandshakes S ks handshakes).2.devices u
      ↔ d ∈ s.devices u ∨ ∃ h ∈ handshakes, h.1 = u ∧ h.2.theirDevicePublic = d := by
  induction handshakes generalizing s with
  | nil =>
    refine ⟨Or.inl, ?_⟩
    rintro (h | ⟨_, hh, -⟩)
    · exact h
    · cases hh
  | cons h handshakes ih =>
    obtain ⟨username, b⟩ := h
    rw [updateHandshakes] at hok ⊢
    cases hres : (s.createRatchetsIfNeeded S ks username true [.receiving b]).result with
    | error e =>
      simp only [hres] at hok
      cases hok
    | ok _ =>
      simp only [hres] at hok ⊢
      have hone : (u = username ∧ ∃ b' ∈ [KeyBundle.receiving b], b'.getTheirDevicePublic = d)
          ↔ username = u ∧ b.theirDevicePublic = d := by
        constructor
        · rintro ⟨hu, b', hb', hd⟩
          obtain rfl := List.mem_singleton.mp hb'
          exact ⟨hu.symm, hd⟩
        · rintro ⟨hu, hd⟩
          exact ⟨hu.symm, _, List.mem_cons_self, hd⟩
      rw [ih hok, mem_devices_createRatchetsIfNeeded hres, hone, or_assoc,
        List.exists_mem_cons_iff]

end Devices

end SessionStore

/-! ## The main result -/

/-- **A device a user is known to have**: there is a session with it, or it
is of a handshake or a bundle that is fetched. -/
def KnownDevice (username : String) (handshakes : List (String × ReceivingKeyBundle Key))
    (bundles : List (SendingKeyBundle Key)) (s : SessionStore Key) (d : Key) : Prop :=
  (s.session username d).isSome ∨ (∃ h ∈ handshakes, h.1 = username ∧ h.2.theirDevicePublic = d)
    ∨ ∃ b ∈ bundles, b.theirDevicePublic = d

section Codes

variable {sha256 : List UInt8 → List UInt8} {base64 : List UInt8 → String}
variable {S : Sodium Key} {ks ks' : KeyStore Key} {s s' : SessionStore Key}
variable {username : String} {a b c d : Key} {handshakes : List (String × ReceivingKeyBundle Key)}
variable {bundles : List (SendingKeyBundle Key)} {code : String}

/-- Two keys are hashed the smaller first. -/
theorem concatOrdered_eq (a b : Key) :
    concatOrdered sha256 a b = sha256 ((a ⊓ b).1 ++ (a ⊔ b).1) := by
  unfold concatOrdered
  by_cases h : a ≤ b
  · rw [if_pos h, inf_eq_left.mpr h, sup_eq_right.mpr h]
  · rw [if_neg h, inf_eq_right.mpr (le_of_not_ge h), sup_eq_left.mpr (le_of_not_ge h)]

/-- **The hash is of the pair**, not of its order. -/
theorem concatOrdered_eq_iff (hsha : Function.Injective sha256) :
    concatOrdered sha256 a b = concatOrdered sha256 c d ↔ s(a, b) = s(c, d) := by
  rw [concatOrdered_eq, concatOrdered_eq, hsha.eq_iff, ← Sym2.inf_eq_inf_and_sup_eq_sup]
  show _ ↔ a ⊓ b = c ⊓ d ∧ a ⊔ b = c ⊔ d
  refine ⟨fun h => ?_, fun ⟨hinf, hsup⟩ => by rw [hinf, hsup]⟩
  obtain ⟨hinf, hsup⟩ := List.append_inj h ((a ⊓ b).2.trans (c ⊓ d).2.symm)
  exact ⟨Subtype.ext hinf, Subtype.ext hsup⟩

/-- The code is that of the own device and the first of the user's. -/
theorem authCode_eq_ok_iff (ha : ks.getPublicKey .device = .ok a) :
    authCode sha256 base64 ks username s = .ok code
      ↔ ∃ d, IsLeast (s.devices username) d ∧ code = base64 (concatOrdered sha256 a d) := by
  simp only [authCode, ha, ok_bind, ← SessionStore.getDeviceIds_head_eq_iff]
  cases s.getDeviceIdsOfExistingHandshakes username with
  | nil => exact iff_of_false nofun fun ⟨_, h, _⟩ => absurd h nofun
  | cons d ids =>
    simp only [List.head?_cons, Option.some_inj]
    refine ⟨fun h => ⟨d, rfl, (Except.ok.inj h).symm⟩, ?_⟩
    rintro ⟨d', rfl, rfl⟩
    rfl

/-- What is known of a user once it has been fetched. -/
theorem devices_fetchSessions {st : SessionStore Key}
    (h : fetchSessions S ks username (.ok handshakes) (.ok bundles) s = (.ok (), st)) :
    st.devices username = {d | KnownDevice username handshakes bundles s d} := by
  ext d
  unfold fetchSessions at h
  rcases hup : s.updateHandshakes S ks handshakes with ⟨result, st'⟩
  cases result with
  | error e =>
    simp only [hup] at h
    cases (Prod.mk.inj h).1
  | ok _ =>
    simp only [hup] at h
    obtain ⟨hresult, rfl⟩ := Prod.mk.inj h
    have hhandshakes := SessionStore.mem_devices_updateHandshakes (u := username) (d := d)
      (show (s.updateHandshakes S ks handshakes).1 = .ok () by rw [hup])
    rw [hup] at hhandshakes
    rw [SessionStore.mem_devices_createRatchetsIfNeeded hresult, hhandshakes, or_assoc]
    refine or_congr_right (or_congr_right ?_)
    refine (and_iff_right rfl).trans ⟨fun ⟨b, hb, hd⟩ => ?_, fun ⟨b, hb, hd⟩ => ?_⟩
    · obtain ⟨b', hb', rfl⟩ := List.mem_map.mp hb
      exact ⟨b', hb', hd⟩
    · exact ⟨.sending b, List.mem_map_of_mem hb, hd⟩

/-- **The code shown** is that of the own device and the first of those
known. -/
theorem exists_isLeast_of_showAuthCode (ha : ks.getPublicKey .device = .ok a)
    (h : (showAuthCode sha256 base64 S ks username (.ok handshakes) (.ok bundles) s).1
      = .ok code) :
    ∃ d, IsLeast {d | KnownDevice username handshakes bundles s d} d
      ∧ code = base64 (concatOrdered sha256 a d) := by
  unfold showAuthCode at h
  rcases hfetch : fetchSessions S ks username (.ok handshakes) (.ok bundles) s with ⟨result, st⟩
  cases result with
  | error e =>
    simp only [hfetch] at h
    cases h
  | ok _ =>
    simp only [hfetch] at h
    rw [← devices_fetchSessions hfetch]
    exact (authCode_eq_ok_iff ha).mp h

/-- So it is in every window. -/
theorem exists_isLeast_of_shows (ha : ks.getPublicKey .device = .ok a)
    (h : Shows sha256 base64 S ks username handshakes bundles s code) :
    ∃ d, IsLeast {d | KnownDevice username handshakes bundles s d} d
      ∧ code = base64 (concatOrdered sha256 a d) := by
  refine exists_isLeast_of_showAuthCode (S := S) ha ?_
  rcases h with h | h
  · exact h
  · unfold showAuthCodeButton at h
    split at h
    · cases h
    · exact Except.ok.inj h

/-- **Two devices show the same code exactly if each is the first the other
knows.** Device `a` of the first user and device `b` of the second hold a
session with each other, and each shows the code for the other's user, in any
of the windows that do. The codes are the same if and only if `b` is the least of the second user's
devices that `a` knows – has a session with, or fetches a handshake or a
bundle of – and `a` is the least of the first user's that `b` knows. -/
theorem authCodes_agree_iff (hsha : Function.Injective sha256) (hbase : Function.Injective base64)
    {first second : String} {handshakes' : List (String × ReceivingKeyBundle Key)}
    {bundles' : List (SendingKeyBundle Key)} {code' : String} (hne : a ≠ b)
    (ha : ks.getPublicKey .device = .ok a) (hb : ks'.getPublicKey .device = .ok b)
    (hab : (s.session second b).isSome) (hba : (s'.session first a).isSome)
    (hcode : Shows sha256 base64 S ks second handshakes bundles s code)
    (hcode' : Shows sha256 base64 S ks' first handshakes' bundles' s' code') :
    code = code' ↔ (∀ d, KnownDevice second handshakes bundles s d → b ≤ d)
      ∧ ∀ d, KnownDevice first handshakes' bundles' s' d → a ≤ d := by
  obtain ⟨d, hd, rfl⟩ := exists_isLeast_of_shows ha hcode
  obtain ⟨d', hd', rfl⟩ := exists_isLeast_of_shows hb hcode'
  rw [hbase.eq_iff, concatOrdered_eq_iff hsha, Sym2.eq_iff]
  constructor
  · rintro (⟨h, -⟩ | ⟨rfl, rfl⟩)
    · exact absurd h hne
    · exact ⟨fun x hx => hd.2 hx, fun x hx => hd'.2 hx⟩
  · rintro ⟨hleast, hleast'⟩
    exact Or.inr ⟨hd'.unique ⟨Or.inl hba, fun x hx => hleast' x hx⟩ |>.symm,
      hd.unique ⟨Or.inl hab, fun x hx => hleast x hx⟩⟩

end Codes

/-! ## One device and two -/

namespace AuthCode

/-- A device with sessions with some devices of a user, all alike. -/
def store (username : String) (devices : List Key) : SessionStore Key :=
  devices.foldl (fun s d => s.hold username d (.blank 0)) ⟨∅, ∅, ∅⟩

theorem mem_devices_store {username : String} {devices : List Key} {d : Key} :
    d ∈ (store username devices).devices username ↔ d ∈ devices := by
  have hfold : ∀ s : SessionStore Key,
      d ∈ (devices.foldl (fun s d => s.hold username d (.blank 0)) s).devices username
        ↔ d ∈ devices ∨ d ∈ s.devices username := by
    induction devices with
    | nil => exact fun s => ⟨Or.inr, fun h => h.resolve_left List.not_mem_nil⟩
    | cons x devices ih =>
      intro s
      rw [List.foldl_cons, ih, List.mem_cons, or_assoc, or_left_comm]
      refine or_congr_right ?_
      show ((s.hold username x (.blank 0)).session username d).isSome ↔ _
      by_cases hd : d = x
      · subst hd
        rw [SessionStore.session_hold]
        exact iff_of_true rfl (Or.inl rfl)
      · rw [SessionStore.session_hold_of_ne _ _ _ _ _ _ fun h => hd (Prod.mk.inj h).2]
        exact (or_iff_right hd).symm
  refine (hfold _).trans (or_iff_left fun h => ?_)
  cases h

/-- The code a device shows for a user; nothing is fetched. -/
def shown (device : UInt8) (username : String) (devices : List Key) : Except Fault String :=
  (showAuthCode id bin2hex Sodium.bytes (.repeated device []) username (.ok []) (.ok [])
    (store username devices)).1

theorem shown_eq (device : UInt8) (username : String) (devices : List Key) {d : Key}
    (hd : d ∈ devices) (hleast : ∀ x ∈ devices, d ≤ x) :
    shown device username devices
      = .ok (bin2hex (concatOrdered id (.repeated device) d)) := by
  show authCode id bin2hex (.repeated device []) username
    ((store username devices).touch username) = _
  refine (authCode_eq_ok_iff rfl).mpr ⟨d, ⟨?_, fun x hx => hleast x ?_⟩, rfl⟩
  · show (((store username devices).touch username).session username d).isSome
    rw [SessionStore.session_touch]
    exact mem_devices_store.mpr hd
  · replace hx : (((store username devices).touch username).session username x).isSome := hx
    rw [SessionStore.session_touch] at hx
    exact mem_devices_store.mp hx

end AuthCode

open AuthCode in
/-- With one device each. -/
theorem authCodes_agree_iff_single :
    ∃ code code', shown 5 "bob" [.repeated 3] = .ok code ∧ shown 3 "alice" [.repeated 5] = .ok code'
      ∧ (code = code' ↔
        (∀ d, KnownDevice "bob" [] [] (store "bob" [.repeated 3]) d → .repeated 3 ≤ d)
          ∧ ∀ d, KnownDevice "alice" [] [] (store "alice" [.repeated 5]) d → .repeated 5 ≤ d) := by
  have hcode := shown_eq 5 "bob" [.repeated 3]
    (List.mem_singleton_self _) (List.forall_mem_singleton.mpr le_rfl)
  have hcode' := shown_eq 3 "alice" [.repeated 5]
    (List.mem_singleton_self _) (List.forall_mem_singleton.mpr le_rfl)
  refine ⟨_, _, hcode, hcode', ?_⟩
  exact authCodes_agree_iff Function.injective_id bin2hex_injective (by decide) rfl rfl
    (mem_devices_store.mpr (List.mem_singleton_self _))
    (mem_devices_store.mpr (List.mem_singleton_self _)) (Or.inl hcode) (Or.inl hcode')

open AuthCode in
/-- **With two they differ**: alice's device 5 knows bob's devices 1 and 3,
and shows the code of the first, while bob's device 3 shows its own. -/
theorem authCodes_differ :
    ((store "bob" [.repeated 1, .repeated 3]).session "bob" (.repeated 3)).isSome
      ∧ ((store "alice" [.repeated 5]).session "alice" (.repeated 5)).isSome
      ∧ ∃ code code', shown 5 "bob" [.repeated 1, .repeated 3] = .ok code
        ∧ shown 3 "alice" [.repeated 5] = .ok code' ∧ code ≠ code' := by
  have hcode := shown_eq 5 "bob" [.repeated 1, .repeated 3]
    (d := .repeated 1) (by decide) (by decide)
  have hcode' := shown_eq 3 "alice" [.repeated 5]
    (List.mem_singleton_self _) (List.forall_mem_singleton.mpr le_rfl)
  refine ⟨mem_devices_store.mpr (by decide), mem_devices_store.mpr (by decide), _, _, hcode,
    hcode', fun h => ?_⟩
  have hpairs := (concatOrdered_eq_iff Function.injective_id).mp (bin2hex_injective h)
  exact absurd hpairs (by decide)
