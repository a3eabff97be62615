import Eastwood.DeviceCode
import Mathlib.Tactic

/-!
# Linking a device

A new device shows its code and starts a thread that asks the server every
two seconds, for two minutes, whether the device is registered for the user
whose name was entered. Meanwhile the code is carried to a device of that user
that holds the identity key, and is accepted there or not; the registration it
posts may or may not reach the server, to which anyone else may post as well,
though nobody else can sign with the identity key (`Unforged`).

Any number of devices, old and new, do so at the same time, for any number of
users. Registrations are signed and name the key they are for, so a device is
told that it is registered only if a device of the very user has accepted its
very code; and if that has reached the server, the first question that gets
there is answered so (`linking`). The server is not part of the program: what
is used of it is that it goes by the registrations it has received, and checks
their signatures (`LinkServer.Honest`).
-/

/-! ## The thread that asks -/

/-- Two minutes, in nanoseconds, -/
def pingTimeout : ℕ := 120 * 10 ^ 9

/-- and two seconds. -/
def pingInterval : ℕ := 2 * 10 ^ 9

/-- Where the thread is: before it looks at the clock, asleep, or at its end,
having told the window that the user is registered or that it took too
long. -/
inductive PingThread where
  | checking
  | asleep (wakes : ℕ)
  | finished (registered : Bool)
  deriving DecidableEq

/-- The window of a device that is to be linked, and its thread. -/
structure NewDevice where
  username : String
  pkDevice : Key
  startTime : ℕ
  thread : PingThread
  pings : ℕ

/-- The body of **`post_check_user_exists`**, -/
def checkUserExistsBody (username : String) (pkDevice : Key) : Json :=
  .obj [("username", .str username), ("device_public_key", .str pkDevice.hex)]

/-- and what it makes of the response. -/
def postCheckUserExists : Except Fault Json → Except Fault Bool
  | .error e => .error e
  | .ok response =>
    match response.find? "data" with
    | some (.bool data) => .ok data
    | _ => .error (.runtimeError "Invalid or missing 'data' field in response")

namespace NewDevice

/-- **`continuously_ping`**, as far as it goes to sleep. -/
def check (now oversleep : ℕ) (d : NewDevice) : NewDevice :=
  match d.thread with
  | .checking =>
    if pingTimeout < now - d.startTime then { d with thread := .finished false }
    else { d with thread := .asleep (now + pingInterval + oversleep) }
  | _ => d

/-- **`continuously_ping`**, from its sleep on, with the response it gets.
What is thrown is caught. -/
def ping (now : ℕ) (response : Except Fault Json) (d : NewDevice) : NewDevice :=
  match d.thread with
  | .asleep wakes =>
    if wakes ≤ now then
      { d with
        pings := d.pings + 1
        thread :=
          match postCheckUserExists response with
          | .ok true => .finished true
          | _ => .checking }
    else d
  | _ => d

end NewDevice

/-! ## All that goes on -/

/-- What is done on a device that holds the identity key: a code is typed, or
scanned, or the device is the user's first and registers itself. -/
inductive LinkCall where
  | verify (authCodeInput : List Char)
  | scan (camera : Option (List Frame))
  | first (pkDevice : Key)

namespace LinkCall

/-- What it meets: the name of a first device is fixed. -/
def draws (d : ConnectionDraws) : LinkCall → ConnectionDraws
  | first _ => { d with deviceName := some "Primary Device" }
  | _ => d

/-- The registration it posts. The one **`register_first_device`** posts is of
the key pair it has drawn. -/
def posted (D : Base64Decoder) (S : Sodium Key) (d : ConnectionDraws) : LinkCall → Option Json
  | verify authCodeInput => (onAuthVerifyClicked D S authCodeInput d).posted
  | scan camera => (showScanDialog D S camera d).posted
  | first pkDevice => (addTrustedDevice S pkDevice "Primary Device"
      { d with deviceName := some "Primary Device" }).1

/-- The key it is about. -/
def Names (L : Base64Library) (k : Key) : LinkCall → Prop
  | verify authCodeInput => trimmed authCodeInput = deviceCode L k
  | scan camera => scanned camera = some (bin2base64 L k.1)
  | first pkDevice => pkDevice = k

/-- **What is posted is the registration of the key.** -/
theorem posted_iff {L : Base64Library} (hL : L.Standard) {D : Base64Decoder} (hD : D.Standard)
    {S : Sodium Key} {d : ConnectionDraws} {call : LinkCall} {body : Json} :
    call.posted D S d = some body
      ↔ ∃ k, (call.draws d).Registers S k body ∧ call.Names L k := by
  cases call with
  | verify authCodeInput => exact onAuthVerifyClicked_posted_iff hL hD authCodeInput
  | scan camera => exact showScanDialog_posted_iff hL hD camera
  | first pkDevice =>
    rw [posted, addTrustedDevice_posted_iff rfl]
    constructor
    · exact fun h => ⟨pkDevice, h, rfl⟩
    · rintro ⟨k, h, rfl⟩
      exact h

end LinkCall

/-- A server: what it replies to a request, going by the registrations it has
received. -/
structure LinkServer where
  reply : List Json → Json → Json

/-- **All there is**: the time, what has reached the server, and the new
devices. -/
structure Linking where
  now : ℕ
  received : List Json
  devices : List NewDevice

/-- **What happens**: time passes, a window with a code is opened, something is
done in a session of a user and what it posts reaches the server or not,
someone else posts something, and the thread of a window takes a step, which
is a question that reaches the server or not. -/
inductive LinkEvent where
  | wait (duration : ℕ)
  | showDeviceRegister (username : String) (pkDevice : Key)
  | session (username : String) (call : LinkCall) (d : ConnectionDraws) (reached : Bool)
  | foreign (body : Json)
  | check (i oversleep : ℕ)
  | ping (i : ℕ) (reached : Bool)

namespace Linking

/-- Nothing has happened. -/
def start : Linking := ⟨0, [], []⟩

variable (V : LinkServer) (D : Base64Decoder) (S : Sodium Key)

/-- The response to the question of a device. -/
def response (s : Linking) (d : NewDevice) (reached : Bool) : Except Fault Json :=
  if reached then .ok (V.reply s.received (checkUserExistsBody d.username d.pkDevice))
  else .error (.runtimeError "Socket connection failed")

/-- **A step.** -/
def step (s : Linking) : LinkEvent → Linking
  | .wait duration => { s with now := s.now + duration }
  | .showDeviceRegister username pkDevice =>
    { s with devices := s.devices ++ [⟨username, pkDevice, s.now, .checking, 0⟩] }
  | .session _ call d reached =>
    { s with received := s.received ++ if reached then (call.posted D S d).toList else [] }
  | .foreign body => { s with received := s.received ++ [body] }
  | .check i oversleep => { s with devices := s.devices.modify i (·.check s.now oversleep) }
  | .ping i reached =>
    { s with devices := s.devices.modify i fun d => d.ping s.now (s.response V d reached) }

/-- **A run.** -/
def run (s : Linking) (events : List LinkEvent) : Linking := events.foldl (step V D S) s

variable {V D S}

theorem run_append (s : Linking) (events events' : List LinkEvent) :
    run V D S s (events ++ events') = run V D S (run V D S s events) events' := List.foldl_append

theorem run_concat (s : Linking) (events : List LinkEvent) (e : LinkEvent) :
    run V D S s (events ++ [e]) = step V D S (run V D S s events) e := run_append s events [e]

end Linking

/-! ## What is relied on -/

/-- **A registration of a key** under an identity, as the server checks it: it
names the two, and its signature of the key verifies under the identity. -/
def IsRegistration (S : Sodium Key) (pkIdentity pkDevice : Key) (body : Json) : Prop :=
  body.find? "identity_public" = some (.str pkIdentity.hex)
    ∧ body.find? "device_public" = some (.str pkDevice.hex)
    ∧ ∃ signature, body.find? "signature" = some (.str (bin2hex signature))
      ∧ S.verifyDetached signature pkDevice pkIdentity = true

/-- **The server goes by registrations**: whether a device is registered for a
user, is whether it has received a registration of it under the identity of
the user. -/
def LinkServer.Honest (S : Sodium Key) (keys : String → Option (Key × Key)) (V : LinkServer) :
    Prop :=
  ∀ received username pkDevice, ∃ registered,
    V.reply received (checkUserExistsBody username pkDevice)
        = .obj [("data", .bool registered)]
      ∧ (registered = true
        ↔ ∃ identity, keys username = some identity
          ∧ ∃ body ∈ received, IsRegistration S identity.1 pkDevice body)

/-- The identity keys of the users there are: each is a key pair, and no two
users have the same. -/
structure IdentityKeys (S : Sodium Key) (keys : String → Option (Key × Key)) : Prop where
  signPublic : ∀ username identity, keys username = some identity →
    S.signPublic identity.2 = identity.1
  injective : ∀ username username' identity identity', keys username = some identity →
    keys username' = some identity' → identity.1 = identity'.1 → username = username'

namespace LinkEvent

/-- **A session signs a key**: what it posts is a registration of it. -/
def Signs (D : Base64Decoder) (S : Sodium Key) (pkIdentity pkDevice : Key) : LinkEvent → Prop
  | session _ call d _ =>
    ∃ body, call.posted D S d = some body ∧ IsRegistration S pkIdentity pkDevice body
  | _ => False

/-- **A user accepts a device**: in a session of the user the code of the
device is typed or scanned and the request agreed to, or the device is the
user's first. -/
def Accepts (L : Base64Library) (username : String) (pkDevice : Key) : LinkEvent → Prop
  | session u call d _ => u = username ∧ (call.draws d).deviceName.isSome ∧ call.Names L pkDevice
  | _ => False

/-- The identity key can be read as well, and what is posted reaches the
server. -/
def Delivers (L : Base64Library) (keys : String → Option (Key × Key)) (username : String)
    (pkDevice : Key) : LinkEvent → Prop
  | session u call d reached => u = username ∧ (call.draws d).deviceName.isSome
    ∧ call.Names L pkDevice ∧ d.sodiumInit = true
    ∧ (∃ identity, keys username = some identity ∧ d.identity = .ok identity) ∧ reached = true
  | _ => False

end LinkEvent

/-- **Nobody forges**: sessions sign with the identity key of their user, and
what others post has a signature that verifies under that key only if a
session has signed the same key before. -/
structure Unforged (D : Base64Decoder) (S : Sodium Key) (keys : String → Option (Key × Key))
    (events : List LinkEvent) : Prop where
  session : ∀ username call d reached, .session username call d reached ∈ events →
    ∀ identity, d.identity = .ok identity → keys username = some identity
  foreign : ∀ before body after, events = before ++ .foreign body :: after →
    ∀ username identity pkDevice, keys username = some identity →
      IsRegistration S identity.1 pkDevice body → ∃ e ∈ before, e.Signs D S identity.1 pkDevice

theorem Unforged.of_append {D : Base64Decoder} {S : Sodium Key}
    {keys : String → Option (Key × Key)} {events events' : List LinkEvent}
    (h : Unforged D S keys (events ++ events')) : Unforged D S keys events where
  session username call d reached hmem :=
    h.session username call d reached (List.mem_append_left _ hmem)
  foreign before body after heq :=
    h.foreign before body (after ++ events') (by rw [heq, List.append_assoc, List.cons_append])

/-! ## Registrations -/

section Registrations

variable {L : Base64Library} {D : Base64Decoder} {S : Sodium Key}
  {keys : String → Option (Key × Key)} {V : LinkServer}

theorem hex_injective : Function.Injective Key.hex := by
  intro k k' h
  refine Option.some.inj ?_
  rw [← hexToKey_hex k, h, hexToKey_hex]

/-- A body names one identity and one key. -/
theorem eq_of_isRegistration {pkIdentity pkIdentity' pkDevice pkDevice' : Key}
    {signature : List UInt8} {deviceName : String}
    (h : IsRegistration S pkIdentity pkDevice
      (registerDeviceBody pkIdentity' pkDevice' signature deviceName)) :
    pkIdentity = pkIdentity' ∧ pkDevice = pkDevice' := by
  obtain ⟨hidentity, hdevice, -⟩ := h
  exact ⟨(hex_injective (Json.str.inj (Option.some.inj hidentity))).symm,
    (hex_injective (Json.str.inj (Option.some.inj hdevice))).symm⟩

/-- **What a session posts is a registration** of the key that was accepted,
under the identity of its user. -/
theorem isRegistration_of_registers (hS : S.VerifiesSigned) (hkeys : IdentityKeys S keys)
    {username : String} {identity : Key × Key} (hidentity : keys username = some identity)
    {d : ConnectionDraws} (hread : d.identity = .ok identity) {k : Key} {body : Json}
    (h : d.Registers S k body) : IsRegistration S identity.1 k body := by
  obtain ⟨deviceName, pkIdentity, skIdentity, -, -, hread', rfl⟩ := h
  obtain rfl := Except.ok.inj (hread.symm.trans hread')
  refine ⟨rfl, rfl, _, rfl, ?_⟩
  have hverifies := hS skIdentity k
  rwa [hkeys.signPublic username _ hidentity] at hverifies

/-- And of no other key, nor under another identity. -/
theorem eq_of_registers (hkeys : IdentityKeys S keys) {username username' : String}
    {d : ConnectionDraws}
    (hgenuine : ∀ identity, d.identity = .ok identity → keys username = some identity)
    {identity' : Key × Key} (hidentity' : keys username' = some identity')
    {k k' : Key} {body : Json} (h : d.Registers S k body)
    (hreg : IsRegistration S identity'.1 k' body) : username' = username ∧ k' = k := by
  obtain ⟨deviceName, pkIdentity, skIdentity, -, -, hread, rfl⟩ := h
  obtain ⟨hidentity, hdevice⟩ := eq_of_isRegistration hreg
  exact ⟨hkeys.injective _ _ _ _ hidentity' (hgenuine _ hread) hidentity, hdevice⟩

namespace LinkCall

@[simp] theorem draws_identity (d : ConnectionDraws) (call : LinkCall) :
    (call.draws d).identity = d.identity := by
  cases call <;> rfl

@[simp] theorem draws_sodiumInit (d : ConnectionDraws) (call : LinkCall) :
    (call.draws d).sodiumInit = d.sodiumInit := by
  cases call <;> rfl

end LinkCall

/-- **What a session has signed, its user has accepted.** -/
theorem LinkEvent.Signs.accepts (hL : L.Standard) (hD : D.Standard) (hkeys : IdentityKeys S keys)
    {events : List LinkEvent} (hunforged : Unforged D S keys events) {username : String}
    {identity : Key × Key} (hidentity : keys username = some identity) {pkDevice : Key}
    {e : LinkEvent} (he : e ∈ events) (hsigns : e.Signs D S identity.1 pkDevice) :
    e.Accepts L username pkDevice := by
  cases e with
  | wait | showDeviceRegister | check | ping | foreign => cases hsigns
  | session u call d reached =>
    obtain ⟨body, hposted, hreg⟩ := hsigns
    obtain ⟨k, hregisters, hnames⟩ := (LinkCall.posted_iff hL hD).mp hposted
    have hgenuine := hunforged.session u call d reached he
    rw [← call.draws_identity d] at hgenuine
    obtain ⟨rfl, rfl⟩ := eq_of_registers hkeys hgenuine hidentity hregisters hreg
    obtain ⟨deviceName, _, _, hname, _⟩ := hregisters
    exact ⟨rfl, Option.isSome_iff_exists.mpr ⟨deviceName, hname⟩, hnames⟩

namespace Linking

/-- **Every registration the server has was signed** in a session: the one
that posted it, or one before it was repeated by someone else. -/
theorem signed_of_received {events : List LinkEvent} (hunforged : Unforged D S keys events)
    {body : Json} (hbody : body ∈ (run V D S start events).received) {username : String}
    {identity : Key × Key} (hidentity : keys username = some identity) {pkDevice : Key}
    (hreg : IsRegistration S identity.1 pkDevice body) :
    ∃ e ∈ events, e.Signs D S identity.1 pkDevice := by
  induction events using List.reverseRecOn with
  | nil => cases hbody
  | append_singleton events e ih =>
    have hbefore : body ∈ (run V D S start events).received →
        ∃ e' ∈ events ++ [e], e'.Signs D S identity.1 pkDevice := by
      intro hmem
      obtain ⟨e', he', hsigns⟩ := ih hunforged.of_append hmem
      exact ⟨e', List.mem_append_left _ he', hsigns⟩
    rw [run_concat] at hbody
    cases e with
    | wait | showDeviceRegister | check | ping => exact hbefore hbody
    | foreign body' =>
      rcases List.mem_append.mp hbody with hmem | hmem
      · exact hbefore hmem
      · obtain rfl := List.mem_singleton.mp hmem
        obtain ⟨e', he', hsigns⟩ := hunforged.foreign events body [] rfl username identity
          pkDevice hidentity hreg
        exact ⟨e', List.mem_append_left _ he', hsigns⟩
    | session u call d reached =>
      rcases List.mem_append.mp hbody with hmem | hmem
      · exact hbefore hmem
      · cases reached with
        | false => cases hmem
        | true =>
          exact ⟨_, List.mem_append_right _ List.mem_cons_self, body,
            Option.mem_toList.mp hmem, hreg⟩

/-- **So every one was accepted.** -/
theorem accepted_of_received (hL : L.Standard) (hD : D.Standard) (hkeys : IdentityKeys S keys)
    {events : List LinkEvent} (hunforged : Unforged D S keys events) {body : Json}
    (hbody : body ∈ (run V D S start events).received) {username : String}
    {identity : Key × Key} (hidentity : keys username = some identity) {pkDevice : Key}
    (hreg : IsRegistration S identity.1 pkDevice body) :
    ∃ e ∈ events, e.Accepts L username pkDevice := by
  obtain ⟨e, he, hsigns⟩ := signed_of_received hunforged hbody hidentity hreg
  exact ⟨e, he, hsigns.accepts hL hD hkeys hunforged hidentity he⟩

/-- What has reached the server stays, -/
theorem received_subset_step (s : Linking) (e : LinkEvent) :
    s.received ⊆ (step V D S s e).received := by
  cases e with
  | wait | showDeviceRegister | check | ping => exact fun _ h => h
  | session | foreign => exact List.subset_append_left _ _

theorem received_subset_run (s : Linking) (events : List LinkEvent) :
    s.received ⊆ (run V D S s events).received := by
  induction events generalizing s with
  | nil => exact fun _ h => h
  | cons e events ih => exact List.Subset.trans (received_subset_step s e) (ih _)

/-- and a session that delivers a registration has it there. -/
theorem exists_received_of_delivers (hL : L.Standard) (hD : D.Standard) (hS : S.VerifiesSigned)
    (hkeys : IdentityKeys S keys) (s : Linking) {e : LinkEvent} {username : String}
    {pkDevice : Key} (he : e.Delivers L keys username pkDevice) :
    ∃ identity, keys username = some identity
      ∧ ∃ body ∈ (step V D S s e).received, IsRegistration S identity.1 pkDevice body := by
  cases e with
  | wait | showDeviceRegister | check | ping | foreign => cases he
  | session u call d reached =>
    obtain ⟨rfl, hname, hnames, hinit, ⟨identity, hidentity, hread⟩, rfl⟩ := he
    obtain ⟨deviceName, hname⟩ := Option.isSome_iff_exists.mp hname
    rw [← call.draws_identity] at hread
    have hregisters : (call.draws d).Registers S pkDevice (registerDeviceBody identity.1 pkDevice
        (S.signDetached identity.2 pkDevice) deviceName) :=
      ⟨deviceName, identity.1, identity.2, hname, by rwa [call.draws_sodiumInit], hread, rfl⟩
    have hposted := (LinkCall.posted_iff hL hD).mpr ⟨pkDevice, hregisters, hnames⟩
    refine ⟨identity, hidentity, _, ?_,
      isRegistration_of_registers hS hkeys hidentity hread hregisters⟩
    exact List.mem_append_right _ (Option.mem_toList.mpr hposted)

end Linking

end Registrations

/-! ## The threads -/

namespace NewDevice

/-- **The look at the clock**: at its place, the end of the thread if the two
minutes are over, and two seconds of sleep if not. -/
theorem check_cases (now oversleep : ℕ) (d : NewDevice) :
    d.check now oversleep = d
      ∨ d.thread = .checking ∧ d.startTime + pingTimeout < now
        ∧ d.check now oversleep = { d with thread := .finished false }
      ∨ d.thread = .checking ∧ now ≤ d.startTime + pingTimeout
        ∧ d.check now oversleep
          = { d with thread := .asleep (now + pingInterval + oversleep) } := by
  unfold check
  cases hthread : d.thread with
  | asleep | finished => exact Or.inl rfl
  | checking =>
    dsimp only
    split
    · exact Or.inr (Or.inl ⟨rfl, by omega, rfl⟩)
    · exact Or.inr (Or.inr ⟨rfl, by omega, rfl⟩)

/-- **The question**: once the thread has slept, the end of the thread if the
answer is yes, and the next round if it is anything else. -/
theorem ping_cases (now : ℕ) (response : Except Fault Json) (d : NewDevice) :
    d.ping now response = d
      ∨ ∃ wakes, d.thread = .asleep wakes ∧ wakes ≤ now
        ∧ (postCheckUserExists response = .ok true
            ∧ d.ping now response = { d with pings := d.pings + 1, thread := .finished true }
          ∨ postCheckUserExists response ≠ .ok true
            ∧ d.ping now response = { d with pings := d.pings + 1, thread := .checking }) := by
  unfold ping
  cases hthread : d.thread with
  | checking | finished => exact Or.inl rfl
  | asleep wakes =>
    dsimp only
    split
    · rename_i hwakes
      refine Or.inr ⟨wakes, rfl, hwakes, ?_⟩
      split
      · rename_i htrue
        exact Or.inl ⟨htrue, rfl⟩
      · rename_i hfalse
        exact Or.inr ⟨hfalse, rfl⟩
    · exact Or.inl rfl

/-- **A thread and the clock**: it has slept two seconds for every question,
and does so for the next only if the two minutes are not over. -/
structure Timely (now : ℕ) (d : NewDevice) : Prop where
  slept : d.startTime + d.pings * pingInterval ≤ now
  sleeping : ∀ wakes, d.thread = .asleep wakes →
    d.startTime + (d.pings + 1) * pingInterval ≤ wakes ∧ d.pings * pingInterval ≤ pingTimeout
  pings_le : d.pings ≤ 61
  late : d.thread = .finished false → d.startTime + pingTimeout < now

theorem Timely.mono {now now' : ℕ} {d : NewDevice} (h : d.Timely now) (hnow : now ≤ now') :
    d.Timely now' where
  slept := h.slept.trans hnow
  sleeping := h.sleeping
  pings_le := h.pings_le
  late hlate := (h.late hlate).trans_le hnow

theorem Timely.check {now : ℕ} {d : NewDevice} (h : d.Timely now) (oversleep : ℕ) :
    (d.check now oversleep).Timely now := by
  have hslept := h.slept
  rcases check_cases now oversleep d with heq | ⟨-, hlate, heq⟩ | ⟨-, htime, heq⟩
  · rwa [heq]
  · rw [heq]
    exact ⟨hslept, fun wakes hwakes => (by cases hwakes), h.pings_le, fun _ => hlate⟩
  · rw [heq]
    refine ⟨hslept, fun wakes hwakes => ?_, h.pings_le, fun hfalse => by cases hfalse⟩
    obtain rfl := PingThread.asleep.inj hwakes
    dsimp only
    rw [Nat.add_mul]
    exact ⟨by omega, by omega⟩

theorem Timely.ping {now : ℕ} {d : NewDevice} (h : d.Timely now) (response : Except Fault Json) :
    (d.ping now response).Timely now := by
  have hnext : ∀ wakes, d.thread = .asleep wakes → wakes ≤ now →
      d.startTime + (d.pings + 1) * pingInterval ≤ now ∧ d.pings + 1 ≤ 61 := by
    intro wakes hwakes hle
    obtain ⟨hstart, htime⟩ := h.sleeping wakes hwakes
    refine ⟨hstart.trans hle, ?_⟩
    rw [pingInterval, pingTimeout] at htime
    omega
  rcases ping_cases now response d with heq | ⟨wakes, hwakes, hle, ⟨-, heq⟩ | ⟨-, heq⟩⟩
  · rwa [heq]
  · rw [heq]
    obtain ⟨hslept, hpings⟩ := hnext wakes hwakes hle
    exact ⟨hslept, fun _ hasleep => (by cases hasleep), hpings, fun hfalse => by cases hfalse⟩
  · rw [heq]
    obtain ⟨hslept, hpings⟩ := hnext wakes hwakes hle
    exact ⟨hslept, fun _ hasleep => (by cases hasleep), hpings, fun hfalse => by cases hfalse⟩

end NewDevice

/-! ## Runs -/

namespace Linking

section Runs

variable {L : Base64Library} {D : Base64Decoder} {S : Sodium Key}
  {keys : String → Option (Key × Key)} {V : LinkServer}

theorem mem_modify {α : Type} {f : α → α} {l : List α} {i : ℕ} {a : α} (h : a ∈ l.modify i f) :
    a ∈ l ∨ ∃ b ∈ l, a = f b := by
  obtain ⟨j, hj⟩ := List.mem_iff_getElem?.mp h
  rw [List.getElem?_modify] at hj
  obtain ⟨b, hb, rfl⟩ := Option.map_eq_some_iff.mp hj
  split
  · exact Or.inr ⟨b, List.mem_of_getElem? hb, rfl⟩
  · exact Or.inl (List.mem_of_getElem? hb)

/-- **The devices after a step**: those there were, a new one, or one whose
thread has taken a step. -/
theorem mem_devices_step {s : Linking} {e : LinkEvent} {d : NewDevice}
    (h : d ∈ (step V D S s e).devices) :
    d ∈ s.devices
      ∨ (∃ username pkDevice, d = ⟨username, pkDevice, s.now, .checking, 0⟩)
      ∨ (∃ d' ∈ s.devices, ∃ oversleep, d = d'.check s.now oversleep)
      ∨ ∃ d' ∈ s.devices, ∃ reached, d = d'.ping s.now (s.response V d' reached) := by
  cases e with
  | wait | session | foreign => exact Or.inl h
  | showDeviceRegister username pkDevice =>
    rcases List.mem_append.mp h with h | h
    · exact Or.inl h
    · exact Or.inr (Or.inl ⟨username, pkDevice, List.mem_singleton.mp h⟩)
  | check i oversleep =>
    rcases mem_modify h with h | ⟨d', hd', rfl⟩
    · exact Or.inl h
    · exact Or.inr (Or.inr (Or.inl ⟨d', hd', oversleep, rfl⟩))
  | ping i reached =>
    rcases mem_modify h with h | ⟨d', hd', rfl⟩
    · exact Or.inl h
    · exact Or.inr (Or.inr (Or.inr ⟨d', hd', reached, rfl⟩))

theorem now_le_step (s : Linking) (e : LinkEvent) : s.now ≤ (step V D S s e).now := by
  cases e with
  | wait duration => exact Nat.le_add_right _ _
  | showDeviceRegister | session | foreign | check | ping => exact le_rfl

/-- **All threads go by the clock.** -/
theorem timely_run (events : List LinkEvent) :
    ∀ d ∈ (run V D S start events).devices, d.Timely (run V D S start events).now := by
  induction events using List.reverseRecOn with
  | nil => exact fun d hd => absurd hd List.not_mem_nil
  | append_singleton events e ih =>
    intro d hd
    rw [run_concat] at hd ⊢
    refine NewDevice.Timely.mono ?_ (now_le_step _ e)
    rcases mem_devices_step hd with h | ⟨username, pkDevice, rfl⟩ | ⟨d', hd', oversleep, rfl⟩
      | ⟨d', hd', reached, rfl⟩
    · exact ih d h
    · exact ⟨le_of_eq (by rw [Nat.zero_mul, Nat.add_zero]), fun _ hasleep => (by cases hasleep),
        Nat.zero_le _, fun hfalse => by cases hfalse⟩
    · exact (ih d' hd').check oversleep
    · exact (ih d' hd').ping _

/-- What an honest server is understood to say. -/
theorem response_eq_true_iff (hV : V.Honest S keys) (s : Linking) (d : NewDevice)
    (reached : Bool) :
    postCheckUserExists (s.response V d reached) = .ok true
      ↔ reached = true ∧ ∃ identity, keys d.username = some identity
        ∧ ∃ body ∈ s.received, IsRegistration S identity.1 d.pkDevice body := by
  cases reached with
  | false => exact iff_of_false (fun h => by cases h) fun h => by cases h.1
  | true =>
    obtain ⟨registered, hreply, hregistered⟩ := hV s.received d.username d.pkDevice
    have hunderstood : postCheckUserExists (s.response V d true) = .ok registered := by
      rw [response, if_pos rfl, hreply]
      rfl
    rw [hunderstood, ← hregistered]
    exact ⟨fun h => ⟨rfl, Except.ok.inj h⟩, fun h => congrArg Except.ok h.2⟩

/-- **A device that is told it is registered was accepted.** -/
theorem accepted_of_told (hL : L.Standard) (hD : D.Standard) (hkeys : IdentityKeys S keys)
    (hV : V.Honest S keys) {events : List LinkEvent} (hunforged : Unforged D S keys events) :
    ∀ d ∈ (run V D S start events).devices, d.thread = .finished true →
      ∃ e ∈ events, e.Accepts L d.username d.pkDevice := by
  induction events using List.reverseRecOn with
  | nil => exact fun d hd => absurd hd List.not_mem_nil
  | append_singleton events e ih =>
    intro d hd htold
    have hbefore : (∃ e' ∈ events, e'.Accepts L d.username d.pkDevice) →
        ∃ e' ∈ events ++ [e], e'.Accepts L d.username d.pkDevice := by
      rintro ⟨e', he', haccepts⟩
      exact ⟨e', List.mem_append_left _ he', haccepts⟩
    rw [run_concat] at hd
    rcases mem_devices_step hd with h | ⟨username, pkDevice, rfl⟩ | ⟨d', hd', oversleep, rfl⟩
      | ⟨d', hd', reached, rfl⟩
    · exact hbefore (ih hunforged.of_append d h htold)
    · cases htold
    · rcases NewDevice.check_cases (run V D S start events).now oversleep d' with heq
        | ⟨-, -, heq⟩ | ⟨-, -, heq⟩
      · rw [heq] at htold hbefore ⊢
        exact hbefore (ih hunforged.of_append d' hd' htold)
      · rw [heq] at htold
        cases htold
      · rw [heq] at htold
        cases htold
    · rcases NewDevice.ping_cases (run V D S start events).now
          ((run V D S start events).response V d' reached) d' with heq
        | ⟨_, -, -, ⟨hyes, heq⟩ | ⟨-, heq⟩⟩
      · rw [heq] at htold hbefore ⊢
        exact hbefore (ih hunforged.of_append d' hd' htold)
      · rw [heq] at hbefore ⊢
        obtain ⟨-, identity, hidentity, body, hbody, hreg⟩ :=
          (response_eq_true_iff hV _ d' reached).mp hyes
        exact hbefore
          (accepted_of_received hL hD hkeys hunforged.of_append hbody hidentity hreg)
      · rw [heq] at htold
        cases htold

/-- **What a thread has come to, it stays at.** -/
theorem getElem?_step_of_finished {s : Linking} {i : ℕ} {d : NewDevice} {registered : Bool}
    (hd : s.devices[i]? = some d) (hfinished : d.thread = .finished registered) (e : LinkEvent) :
    (step V D S s e).devices[i]? = some d := by
  cases e with
  | wait | session | foreign => exact hd
  | showDeviceRegister username pkDevice =>
    show (s.devices ++ _)[i]? = some d
    rw [List.getElem?_append_left (List.getElem?_eq_some_iff.mp hd).1, hd]
  | check j oversleep =>
    show (s.devices.modify j _)[i]? = some d
    rw [List.getElem?_modify, hd, Option.map_eq_map, Option.map_some]
    split
    · rw [NewDevice.check, hfinished]
    · rfl
  | ping j reached =>
    show (s.devices.modify j _)[i]? = some d
    rw [List.getElem?_modify, hd, Option.map_eq_map, Option.map_some]
    split
    · rw [NewDevice.ping, hfinished]
    · rfl

theorem getElem?_run_of_finished {s : Linking} {i : ℕ} {d : NewDevice} {registered : Bool}
    (hd : s.devices[i]? = some d) (hfinished : d.thread = .finished registered)
    (events : List LinkEvent) : (run V D S s events).devices[i]? = some d := by
  induction events generalizing s with
  | nil => exact hd
  | cons e events ih => exact ih (getElem?_step_of_finished hd hfinished e)

/-- **The first question that gets to the server** once a registration has, is
the last one. -/
theorem told_of_delivered (hL : L.Standard) (hD : D.Standard) (hS : S.VerifiesSigned)
    (hkeys : IdentityKeys S keys) (hV : V.Honest S keys) {before between after : List LinkEvent}
    {e : LinkEvent} {i wakes : ℕ} {d : NewDevice}
    (he : e.Delivers L keys d.username d.pkDevice)
    (hd : (run V D S start (before ++ e :: between)).devices[i]? = some d)
    (hthread : d.thread = .asleep wakes)
    (hwakes : wakes ≤ (run V D S start (before ++ e :: between)).now) :
    (run V D S start (before ++ e :: between ++ .ping i true :: after)).devices[i]?
      = some { d with pings := d.pings + 1, thread := .finished true } := by
  obtain ⟨identity, hidentity, body, hbody, hreg⟩ :=
    exists_received_of_delivers (V := V) hL hD hS hkeys (run V D S start before) he
  have hmem : body ∈ (run V D S start (before ++ e :: between)).received := by
    rw [run_append]
    exact received_subset_run _ between hbody
  rw [run_append]
  generalize run V D S start (before ++ e :: between) = s at hd hwakes hmem ⊢
  have hyes := (response_eq_true_iff hV s d true).mpr
    ⟨rfl, identity, hidentity, body, hmem, hreg⟩
  refine getElem?_run_of_finished (s := step V D S s (.ping i true)) ?_ rfl after
  show (s.devices.modify i _)[i]? = _
  rw [List.getElem?_modify_eq, hd, Option.map_eq_map, Option.map_some, NewDevice.ping,
    hthread]
  dsimp only
  rw [if_pos hwakes, hyes]

end Runs

end Linking

/-- **Linking**, whatever happens in whatever order: a device that is told it
is registered has been accepted by its user; one that is told it took too long
has waited for two minutes, and none has asked more than 61 times; and once
its user has accepted a device and the registration has reached the server,
the first question that gets there has the device told. -/
theorem linking {L : Base64Library} (hL : L.Standard) {D : Base64Decoder} (hD : D.Standard)
    {S : Sodium Key} (hS : S.VerifiesSigned) {keys : String → Option (Key × Key)}
    (hkeys : IdentityKeys S keys) {V : LinkServer} (hV : V.Honest S keys)
    {events : List LinkEvent} (hunforged : Unforged D S keys events) :
    (∀ d ∈ (Linking.run V D S .start events).devices, d.thread = .finished true →
        ∃ e ∈ events, e.Accepts L d.username d.pkDevice)
      ∧ (∀ d ∈ (Linking.run V D S .start events).devices, d.pings ≤ 61
        ∧ (d.thread = .finished false →
          d.startTime + pingTimeout < (Linking.run V D S .start events).now))
      ∧ ∀ before e between i after d wakes,
        events = before ++ e :: between ++ .ping i true :: after →
        e.Delivers L keys d.username d.pkDevice →
        (Linking.run V D S .start (before ++ e :: between)).devices[i]? = some d →
        d.thread = .asleep wakes →
        wakes ≤ (Linking.run V D S .start (before ++ e :: between)).now →
        (Linking.run V D S .start events).devices[i]?
          = some { d with pings := d.pings + 1, thread := .finished true } := by
  refine ⟨Linking.accepted_of_told hL hD hkeys hV hunforged, fun d hd => ?_, ?_⟩
  · have htimely := Linking.timely_run events d hd
    exact ⟨htimely.pings_le, htimely.late⟩
  · intro before e between i after d wakes hevents he hd hthread hwakes
    rw [hevents]
    exact Linking.told_of_delivered hL hD hS hkeys hV he hd hthread hwakes

/-! ### A device of one user -/

open Classical in
/-- A server that goes by registrations. -/
noncomputable def LinkServer.reference (S : Sodium Key) (keys : String → Option (Key × Key)) :
    LinkServer where
  reply received request := .obj [("data", .bool (decide (∃ username pkDevice identity,
    request = checkUserExistsBody username pkDevice ∧ keys username = some identity
      ∧ ∃ body ∈ received, IsRegistration S identity.1 pkDevice body)))]

theorem checkUserExistsBody_inj {username username' : String} {pkDevice pkDevice' : Key}
    (h : checkUserExistsBody username pkDevice = checkUserExistsBody username' pkDevice') :
    username = username' ∧ pkDevice = pkDevice' := by
  have hmembers := Json.obj.inj h
  simp only [List.cons.injEq, Prod.mk.injEq, Json.str.injEq, true_and, and_true] at hmembers
  exact ⟨hmembers.1, hex_injective hmembers.2⟩

theorem LinkServer.honest_reference (S : Sodium Key) (keys : String → Option (Key × Key)) :
    (LinkServer.reference S keys).Honest S keys := by
  intro received username pkDevice
  refine ⟨_, rfl, (@decide_eq_true_iff _ (Classical.propDecidable _)).trans ⟨?_, ?_⟩⟩
  · rintro ⟨username', pkDevice', identity, hrequest, hidentity, hbody⟩
    obtain ⟨rfl, rfl⟩ := checkUserExistsBody_inj hrequest
    exact ⟨identity, hidentity, hbody⟩
  · rintro ⟨identity, hidentity, hbody⟩
    exact ⟨username, pkDevice, identity, rfl, hidentity, hbody⟩

/-- The identity key of the only user there is. -/
def aliceKeys (username : String) : Option (Key × Key) :=
  if username = "alice" then some (.repeated 1, .repeated 1) else none

theorem identityKeys_alice : IdentityKeys Sodium.bytes aliceKeys where
  signPublic username identity h := by
    rw [aliceKeys] at h
    split at h
    · obtain rfl := Option.some.inj h
      rfl
    · cases h
  injective username username' identity identity' h h' _ := by
    rw [aliceKeys] at h h'
    split at h
    · split at h'
      · rename_i halice halice'
        rw [halice, halice']
      · cases h'
    · cases h

/-- A device shows its code, which is typed while its thread sleeps. -/
def aliceLinks : List LinkEvent :=
  [.showDeviceRegister "alice" (.repeated 7), .check 0 0,
    .session "alice" (.verify (deviceCode Base64Library.reference (.repeated 7)))
      (.agreed "Laptop" (.repeated 1, .repeated 1)) true,
    .wait pingInterval, .ping 0 true]

theorem unforged_aliceLinks :
    Unforged Base64Decoder.reference Sodium.bytes aliceKeys aliceLinks where
  session username call d reached hmem identity hread := by
    simp only [aliceLinks, List.mem_cons, LinkEvent.session.injEq, reduceCtorEq, false_or,
      List.not_mem_nil, or_false] at hmem
    obtain ⟨rfl, -, rfl, -⟩ := hmem
    obtain rfl := Except.ok.inj hread
    rfl
  foreign before body after heq := by
    have hmem : LinkEvent.foreign body ∈ aliceLinks := by
      rw [heq]
      exact List.mem_append_right _ List.mem_cons_self
    simp [aliceLinks] at hmem

/-- The device is told. -/
theorem linking_alice :
    (Linking.run (.reference Sodium.bytes aliceKeys) Base64Decoder.reference Sodium.bytes
        .start aliceLinks).devices[0]?
      = some ⟨"alice", .repeated 7, 0, .finished true, 1⟩ := by
  obtain ⟨-, -, htold⟩ := linking Base64Library.standard_reference
    Base64Decoder.standard_reference Sodium.bytes_verifiesSigned identityKeys_alice
    (LinkServer.honest_reference Sodium.bytes aliceKeys) unforged_aliceLinks
  refine htold [.showDeviceRegister "alice" (.repeated 7), .check 0 0] _ [.wait pingInterval] 0 []
    ⟨"alice", .repeated 7, 0, .asleep pingInterval, 0⟩ pingInterval rfl ?_ rfl rfl ?_
  · exact ⟨rfl, rfl, trimmed_deviceCode Base64Library.standard_reference _, rfl, ⟨_, rfl, rfl⟩,
      rfl⟩
  · decide
