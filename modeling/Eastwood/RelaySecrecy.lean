import Eastwood.FileBinding
import Eastwood.RelayKeys

/-!
# What a relay reads of a network

Any number of devices share files through a relay, which hands out key
bundles, handshakes and messages. Whatever public keys of its own it puts
into them, it gets what it asks for in that session and no more: a message
key of a session into which the relay has brought no key of its own follows
from nothing that is not secret, in whatever order calls are made, fail and
are repeated, and whatever it did to the other sessions of the same device
(`Network.not_derivable_of_not_brought`).

A property of all sessions of a store is kept by an operation if it is kept
by the ratchet calls the operation makes; these rules come first
(`SessionStore.AllSessions`).
-/

variable {K : Type}

namespace SessionStore

/-- **A property of all sessions.** -/
def AllSessions [DecidableEq K] (Q : String → K → NewRatchet K → Prop) (s : SessionStore K) :
    Prop :=
  ∀ u d r, s.session u d = some r → Q u d r

variable [LinearOrder K] {S : Sodium K} {ks : KeyStore K} {A : Aead K}
  {Q : String → K → NewRatchet K → Prop} {s t : SessionStore K} {username : String} {device : K}
  {r : NewRatchet K}

theorem AllSessions.congr (hs : s.AllSessions Q) (h : ∀ u d, t.session u d = s.session u d) :
    t.AllSessions Q :=
  fun u d r hr => hs u d r ((h u d).symm.trans hr)

theorem AllSessions.hold (hs : s.AllSessions Q) (hr : Q username device r) :
    (s.hold username device r).AllSessions Q := by
  intro u d r' hr'
  by_cases hud : (u, d) = (username, device)
  · obtain ⟨rfl, rfl⟩ := Prod.mk.inj hud
    rw [session_hold] at hr'
    rwa [← Option.some.inj hr']
  · rw [session_hold_of_ne _ _ _ _ _ _ hud] at hr'
    exact hs u d r' hr'

theorem AllSessions.save (hs : s.AllSessions Q) : (s.save username device r).AllSessions Q :=
  hs.congr fun u d => session_save s username u device d r

theorem AllSessions.touch (hs : s.AllSessions Q) : (s.touch username).AllSessions Q :=
  hs.congr fun u d => session_touch s username u d

section Operations

variable [Zero K]

/-- Sessions are made of bundles. -/
theorem AllSessions.createRatchetsIfNeeded (hs : s.AllSessions Q) {post : Bool}
    {bundles : List (KeyBundle K)} (hnew : ∀ b ∈ bundles, ∀ r, b.createRatchet S ks = .ok r →
      Q username b.getTheirDevicePublic r) :
    (s.createRatchetsIfNeeded S ks username post bundles).store.AllSessions Q := by
  induction bundles generalizing s with
  | nil => exact hs.touch
  | cons b bundles ih =>
    have hrest := fun b hb => hnew b (List.mem_cons_of_mem _ hb)
    rw [SessionStore.createRatchetsIfNeeded]
    split
    · exact ih hs hrest
    · split
      · exact hs.touch
      · rename_i r hr
        exact ih (hs.hold (hnew b List.mem_cons_self r hr)).save hrest

/-- A loop of sends asks sessions that have the property, and leaves them
with it. -/
theorem AllSessions.advanceAll (hsend : ∀ u d r, Q u d r → Q u d (r.advanceSend S).2)
    (hs : s.AllSessions Q) (myDevicePublic : K) (devices : List K) :
    (s.advanceAll S username myDevicePublic devices).2.AllSessions Q
      ∧ ∀ keys, (s.advanceAll S username myDevicePublic devices).1 = .ok keys →
        ∀ x ∈ keys, ∃ r header, Q username x.1 r ∧ (r.advanceSend S).1 = .ok (x.2.1, header) := by
  induction devices generalizing s with
  | nil =>
    refine ⟨hs, fun keys hkeys x hx => ?_⟩
    obtain rfl := Except.ok.inj hkeys
    cases hx
  | cons d devices ih =>
    rw [SessionStore.advanceAll]
    cases hd : s.session username d with
    | none => exact ih hs
    | some r =>
      have hafter := hsend username d r (hs username d r hd)
      rcases hr : r.advanceSend S with ⟨e | ⟨key, header⟩, r'⟩
      · rw [hr] at hafter
        simp only [hr]
        refine ⟨hs.hold hafter, fun keys hkeys => ?_⟩
        cases hkeys
      · rw [hr] at hafter
        obtain ⟨hstore, hkeys⟩ := ih (s := (s.hold username d r').save username d r')
          (hs.hold hafter).save
        simp only [hr]
        rcases hall : ((s.hold username d r').save username d r').advanceAll S username
          myDevicePublic devices with ⟨e | rest, t⟩
        · rw [hall] at hstore
          simp only
          refine ⟨hstore, fun keys hok => ?_⟩
          cases hok
        · rw [hall] at hstore hkeys
          simp only
          refine ⟨hstore, fun keys hok x hx => ?_⟩
          rw [← Except.ok.inj hok] at hx
          obtain rfl | hx := List.mem_cons.mp hx
          · exact ⟨r, header, hs username d r hd, by rw [hr]⟩
          · exact hkeys rest rfl x hx

/-- So does `get_keys_for_identity`, whose sessions are made of bundles or
were there before. -/
theorem AllSessions.getKeysForIdentity (hsend : ∀ u d r, Q u d r → Q u d (r.advanceSend S).2)
    (hs : s.AllSessions Q) {newBundles : Option (List (SendingKeyBundle K))}
    (hnew : ∀ bundles, newBundles = some bundles → ∀ b ∈ bundles, ∀ r,
      b.createRatchet S ks = .ok r → Q username b.theirDevicePublic r) :
    (s.getKeysForIdentity S ks username newBundles).store.AllSessions Q
      ∧ ∀ keys, (s.getKeysForIdentity S ks username newBundles).result = .ok keys →
        ∀ x ∈ keys, ∃ r header, Q username x.1 r ∧ (r.advanceSend S).1 = .ok (x.2.1, header) := by
  have hensure : (s.ensureRatchets S ks username newBundles).store.AllSessions Q := by
    unfold ensureRatchets
    cases newBundles with
    | none => exact hs
    | some bundles =>
      refine hs.createRatchetsIfNeeded fun b hb r hr => ?_
      obtain ⟨b, hmem, rfl⟩ := List.mem_map.mp hb
      exact hnew bundles rfl b hmem r hr
  rcases getKeysForIdentity_cases S ks s username newBundles with ⟨e, -, hk⟩ | ⟨-, hk⟩
  · rw [hk]
    refine ⟨hensure, fun keys hkeys => ?_⟩
    cases hkeys
  · rw [hk]
    unfold advanceUser
    cases ks.getPublicKey .device with
    | error e =>
      refine ⟨hensure.touch, fun keys hkeys => ?_⟩
      cases hkeys
    | ok myDevicePublic => exact hensure.touch.advanceAll hsend myDevicePublic _

/-- So does a backlog of handshakes. -/
theorem AllSessions.updateHandshakes (hs : s.AllSessions Q)
    {handshakes : List (String × ReceivingKeyBundle K)}
    (hnew : ∀ x ∈ handshakes, ∀ r, x.2.createRatchet S ks = .ok r →
      Q x.1 x.2.theirDevicePublic r) :
    (s.updateHandshakes S ks handshakes).2.AllSessions Q := by
  induction handshakes generalizing s with
  | nil => exact hs
  | cons x handshakes ih =>
    have hcreated : (s.createRatchetsIfNeeded S ks x.1 true [.receiving x.2]).store.AllSessions Q :=
      hs.createRatchetsIfNeeded fun b hb r hr => by
        obtain rfl := List.mem_singleton.mp hb
        exact hnew x List.mem_cons_self r hr
    rw [SessionStore.updateHandshakes]
    cases hresult : (s.createRatchetsIfNeeded S ks x.1 true [.receiving x.2]).result with
    | error e => simpa only [hresult] using hcreated
    | ok _ =>
      simpa only [hresult] using ih hcreated fun y hy => hnew y (List.mem_cons_of_mem _ hy)

end Operations

/-- A header is answered by a session that has the property. -/
theorem AllSessions.getKeyForDevice (hs : s.AllSessions Q) {fresh : K}
    {header : MessageHeader K} (hreceive : ∀ r, Q username header.deviceId r →
      Q username header.deviceId (r.advanceReceive S fresh header).2) :
    (s.getKeyForDevice S fresh username header).2.AllSessions Q := by
  cases hsession : s.session username header.deviceId with
  | none =>
    obtain ⟨what, h⟩ := getKeyForDevice_of_none (S := S) hsession fresh
    rwa [h]
  | some r =>
    have hafter := hreceive r (hs username header.deviceId r hsession)
    rw [getKeyForDevice_eq hsession]
    rcases hr : r.advanceReceive S fresh header with ⟨e | key, r'⟩
    · rw [hr] at hafter
      exact hs.hold hafter
    · rw [hr] at hafter
      exact (hs.hold hafter).save

/-- So is a message, -/
theorem AllSessions.afterMessage (hs : s.AllSessions Q) {m : Incoming K}
    (hreceive : ∀ r, Q m.username m.message.header.deviceId r →
      Q m.username m.message.header.deviceId
        (r.advanceReceive S m.fresh m.message.header).2) :
    (updateMessage S A m s).store.AllSessions Q := by
  have hkey : (s.getKeyForDevice S m.fresh m.username m.message.header).2.AllSessions Q :=
    hs.getKeyForDevice hreceive
  obtain ⟨e, t, hk, hm⟩ | ⟨key, t, hk, ⟨e, -, hm⟩ | ⟨decrypted, -, hm⟩⟩ :=
    updateMessage_cases (S := S) (A := A) m s
  · rw [hm]
    rwa [hk] at hkey
  · rw [hm]
    rwa [hk] at hkey
  · rw [hm]
    rwa [hk] at hkey

/-- and so is a batch of them. -/
theorem AllSessions.afterMessages (hs : s.AllSessions Q) {batch : List (Incoming K)}
    (hreceive : ∀ m ∈ batch, ∀ r, Q m.username m.message.header.deviceId r →
      Q m.username m.message.header.deviceId
        (r.advanceReceive S m.fresh m.message.header).2) :
    (updateMessages S A batch s).store.AllSessions Q := by
  induction batch generalizing s with
  | nil => exact hs
  | cons m batch ih =>
    have hfirst := hs.afterMessage (A := A) (hreceive m List.mem_cons_self)
    unfold updateMessages Polled.andThen
    cases (updateMessage S A m s).result with
    | error e => exact hfirst
    | ok _ => exact ih hfirst fun m' hm' => hreceive m' (List.mem_cons_of_mem _ hm')

/-- What is stored of sent messages does not touch the sessions. -/
theorem AllSessions.saveMessages {fKek : List UInt8} (hs : s.AllSessions Q)
    (messages : List (K × K × DeviceMessage K)) :
    (messages.foldl (fun s (x : K × K × DeviceMessage K) =>
      s.saveMessage x.2.2.header.fileUuid ⟨username, x.1, fKek, true⟩) s).AllSessions Q := by
  induction messages generalizing s with
  | nil => exact hs
  | cons x messages ih => exact ih (hs.congr fun u d => rfl)

/-- **`allow_access_to_file`** encrypts under keys of sessions that have the
property. -/
theorem AllSessions.afterAllowAccess [Zero K]
    (hsend : ∀ u d r, Q u d r → Q u d (r.advanceSend S).2) (hs : s.AllSessions Q)
    {newBundles : Option (List (SendingKeyBundle K))}
    (hnew : ∀ bundles, newBundles = some bundles → ∀ b ∈ bundles, ∀ r,
      b.createRatchet S ks = .ok r → Q username b.theirDevicePublic r)
    (uuid : String) (fKek : List UInt8) (nonce : K → List UInt8) :
    (allowAccessToFile S A ks username uuid fKek nonce newBundles s).store.AllSessions Q
      ∧ ∀ messages, (allowAccessToFile S A ks username uuid fKek nonce newBundles s).result
          = .ok messages → ∀ x ∈ messages, ∃ r header, Q username x.1 r
            ∧ (r.advanceSend S).1 = .ok (x.2.1, header) := by
  obtain ⟨hstore, hkeys⟩ := hs.getKeysForIdentity hsend hnew
  unfold allowAccessToFile
  cases hresult : (s.getKeysForIdentity S ks username newBundles).result with
  | error e =>
    simp only [hresult]
    refine ⟨hstore, fun messages hok => ?_⟩
    cases hok
  | ok keysToSend =>
    simp only [hresult]
    refine ⟨hstore.saveMessages _, fun messages hok x hx => ?_⟩
    rw [← Except.ok.inj hok] at hx
    obtain ⟨⟨d, key, header⟩, hmem, rfl⟩ := List.mem_map.mp hx
    exact hkeys keysToSend hresult (d, key, header) hmem

end SessionStore

/-! ## Sessions a relay was kept out of -/

namespace NewRatchet

variable {S : Sodium K} (L : S.Labelling) (P : Set K)

/-- **A session led to a key** of a device, or to one of the relay's if it
was brought into this session. -/
def Kept (brought : Prop) (r : NewRatchet K) : Prop :=
  ∃ a, Led L (S.boxPublic a) r ∧ (a ∈ P ∨ L.Secret a)
    ∧ (S.boxPublic a ∈ S.boxPublic '' P → brought)

variable {L} {P} {brought : Prop} {r : NewRatchet K}

theorem Kept.mono {brought' : Prop} (h : Kept L P brought r) (himp : brought → brought') :
    Kept L P brought' r := by
  obtain ⟨a, hled, hwhose, hbrought⟩ := h
  exact ⟨a, hled, hwhose, fun ha => himp (hbrought ha)⟩

theorem Kept.send [Zero K] (h : Kept L P brought r) : Kept L P brought (r.advanceSend S).2 := by
  obtain ⟨a, hled, hwhose, hbrought⟩ := h
  exact ⟨a, hled.send, hwhose, hbrought⟩

/-- A header keeps it, if its key was brought. -/
theorem Kept.receive [DecidableEq K] (hacc : S.AcceptsKeyPairs) (h : Kept L P brought r)
    {fresh : K} {header : MessageHeader K} (hfresh : L.Secret fresh)
    (hname : Nameable L P header.dhPublic) (hkey : header.dhPublic ∈ S.boxPublic '' P → brought) :
    Kept L P brought (r.advanceReceive S fresh header).2 := by
  obtain ⟨a, hled, hwhose, hbrought⟩ := h
  have hnext := hled.receive hacc hfresh hname
  rw [broughtBy_receive] at hnext
  split at hnext
  · rename_i hsome
    obtain hrefused | ⟨b, hb, hwhose'⟩ := hname.cases_pair
    · rw [hrefused] at hsome
      cases hsome
    · rw [Option.getD_some, hb] at hnext
      exact ⟨b, hnext, hwhose', fun hown => hkey (hb ▸ hown)⟩
  · exact ⟨a, hnext, hwhose, hbrought⟩

/-- A ratchet made with a key that can be named is led to it. -/
theorem kept_of_constructed [Zero K] (h : Epoch.Constructed S r)
    (hpair : r.localDhPublic = S.boxPublic r.localDhPriv) (hsecret : L.Secret r.localDhPriv)
    (hname : Nameable L P r.remoteDhPublic)
    (hkey : r.remoteDhPublic ∈ S.boxPublic '' P → brought) : Kept L P brought r := by
  have hled := led_of_constructed h hpair hsecret
  obtain hrefused | ⟨a, ha, hwhose⟩ := hname.cases_pair
  · obtain ⟨p, x, hx, -⟩ := exists_initial_of_constructed h
    rw [hrefused] at hx
    cases hx
  · rw [ha] at hled hkey
    exact ⟨a, hled, hwhose, hkey⟩

/-- **What a session the relay was kept out of sends** is secret. -/
theorem Kept.secret [Zero K] (h : Kept L P brought r) (hclean : ¬ brought) {key : K}
    {header : MessageHeader K} (hsend : (r.advanceSend S).1 = .ok (key, header)) :
    L.Secret key := by
  obtain ⟨a, hled, hwhose, hbrought⟩ := h
  have ha : L.Secret a := hwhose.resolve_left fun hown => hclean (hbrought ⟨a, hown, rfl⟩)
  obtain ⟨-, x, hx, -, hsecret⟩ := hled.sent hsend
  exact hsecret ((L.scalarmult hx).mpr ⟨hled.localSecret, ha⟩)

end NewRatchet

/-! ## Runs of a network -/

variable {ι : Type} [LinearOrder K] [Zero K] {S : Sodium K} {A : Aead K} {L : S.Labelling}
  {P : Set K}

open NewRatchet

namespace RelayStep

variable (S) (P) in
/-- **A key of the relay's brought into a session** of a device: in a bundle,
a handshake or a header. -/
def Brings (i : ι) (u : String) (d : K) : RelayStep ι K → Prop
  | allowAccess j _ _ username _ _ _ newBundles _ => j = i ∧ username = u
    ∧ ∃ bundles, newBundles = some bundles
      ∧ ∃ b ∈ bundles, b.theirDevicePublic = d ∧ b.theirSignedPublic ∈ S.boxPublic '' P
  | updateHandshakes j _ handshakes => j = i
    ∧ ∃ x ∈ handshakes, x.1 = u ∧ x.2.theirDevicePublic = d
      ∧ x.2.theirEphemeralPublic ∈ S.boxPublic '' P
  | updateMessages j batch => j = i
    ∧ ∃ m ∈ batch, m.1.username = u ∧ m.1.initiatorDevicePublicKey = d
      ∧ m.1.dhPublic ∈ S.boxPublic '' P

variable (L) (P) in
/-- **What a relay can bring about**: any public keys it can name. What the
devices draw is secret, and their signed prekeys are. -/
def Named : RelayStep ι K → Prop
  | allowAccess _ _ _ _ _ _ _ newBundles _ => ∀ bundles, newBundles = some bundles →
    ∀ b ∈ bundles, (b.myEphemeralPublic = S.boxPublic b.myEphemeralPrivate
      ∧ L.Secret b.myEphemeralPrivate) ∧ Nameable L P b.theirSignedPublic
  | updateHandshakes _ ks handshakes =>
    (∀ kp, ks.keypairs .signed = some kp → kp.1 = S.boxPublic kp.2 ∧ L.Secret kp.2)
      ∧ ∀ x ∈ handshakes, Nameable L P x.2.theirEphemeralPublic
  | updateMessages _ batch => ∀ m ∈ batch, L.Secret m.2 ∧ Nameable L P m.1.dhPublic

end RelayStep

section Steps

variable {ks : KeyStore K} {brought : Prop} {r : NewRatchet K}

omit [LinearOrder K] in
/-- The session of a bundle is led to its signed prekey, -/
theorem kept_of_sending {b : SendingKeyBundle K}
    (hpair : b.myEphemeralPublic = S.boxPublic b.myEphemeralPrivate)
    (hsecret : L.Secret b.myEphemeralPrivate) (hname : Nameable L P b.theirSignedPublic)
    (hkey : b.theirSignedPublic ∈ S.boxPublic '' P → brought)
    (h : b.createRatchet S ks = .ok r) : Kept L P brought r := by
  obtain ⟨secret, -, hnew⟩ := exists_of_bind_eq_ok h
  obtain ⟨x, -, rfl⟩ := exists_of_newInitiator S hnew
  exact kept_of_constructed (.initiator hnew) hpair hsecret hname hkey

/-- that of a handshake to its ephemeral key. -/
theorem kept_of_receiving {b : ReceivingKeyBundle K}
    (hsigned : ∀ kp, ks.keypairs .signed = some kp → kp.1 = S.boxPublic kp.2 ∧ L.Secret kp.2)
    (hname : Nameable L P b.theirEphemeralPublic)
    (hkey : b.theirEphemeralPublic ∈ S.boxPublic '' P → brought)
    (h : b.createRatchet S ks = .ok r) : Kept L P brought r := by
  obtain ⟨secret, -, h⟩ := exists_of_bind_eq_ok h
  obtain ⟨signed, hloaded, hnew⟩ := exists_of_bind_eq_ok h
  have hstored : ks.keypairs .signed = some signed := by
    unfold KeyStore.getDecryptedKeypair at hloaded
    cases hkp : ks.keypairs .signed with
    | none =>
      rw [hkp] at hloaded
      cases hloaded
    | some kp =>
      rw [hkp] at hloaded
      rw [Except.ok.inj hloaded]
  obtain ⟨x, -, rfl⟩ := exists_of_newRecipient S hnew
  obtain ⟨hpair, hsecret⟩ := hsigned signed hstored
  exact kept_of_constructed (.recipient hnew) hpair hsecret hname hkey

end Steps

namespace Network

variable [DecidableEq ι]

variable (S) (A) in
/-- The network after some steps. -/
def after (steps : List (RelayStep ι K)) : Network ι K :=
  steps.foldl (fun n step => n.next S A step) start

/-- **The invariant**: a session is led to a key of a device, or to one that
a step brought into it. -/
def Guarded (L : S.Labelling) (P : Set K) (steps : List (RelayStep ι K)) (n : Network ι K) :
    Prop :=
  ∀ i, (n.store i).AllSessions fun u d r => Kept L P (∃ step ∈ steps, step.Brings S P i u d) r

variable {n : Network ι K} {steps : List (RelayStep ι K)} {step : RelayStep ι K}

omit [Zero K] [DecidableEq ι] in
/-- Before a step the sessions are kept as after it, -/
theorem Guarded.mono (h : n.Guarded L P steps) (step : RelayStep ι K) :
    n.Guarded L P (steps ++ [step]) := by
  intro i u d r hr
  refine (h i u d r hr).mono ?_
  rintro ⟨step', hmem, hbrings⟩
  exact ⟨step', List.mem_append_left _ hmem, hbrings⟩

omit [Zero K] in
/-- and a step at one device asks only for what it does to its sessions. -/
theorem Guarded.update (h : n.Guarded L P steps) {i : ι} {s : SessionStore K}
    (hs : s.AllSessions fun u d r => Kept L P (∃ step ∈ steps, step.Brings S P i u d) r)
    (sent : List (SentKey K)) (delivered : ι → List (Incoming K)) :
    Guarded L P steps ⟨Function.update n.store i s, sent, delivered⟩ := by
  intro j
  by_cases hj : j = i
  · subst hj
    show SessionStore.AllSessions _ (Function.update n.store j s j)
    rwa [Function.update_self]
  · show SessionStore.AllSessions _ (Function.update n.store i s j)
    rw [Function.update_of_ne hj]
    exact h j

omit [LinearOrder K] [Zero K] [DecidableEq ι] in
/-- The last step is one of the steps. -/
theorem exists_brings {i : ι} {u : String} {d : K} (h : step.Brings S P i u d) :
    ∃ step' ∈ steps ++ [step], step'.Brings S P i u d :=
  ⟨step, List.mem_append_right _ (List.mem_singleton_self _), h⟩

/-- **A step keeps it.** -/
theorem Guarded.next (hacc : S.AcceptsKeyPairs) (h : n.Guarded L P steps)
    (hstep : step.Named L P) : (n.next S A step).Guarded L P (steps ++ [step]) := by
  have hbefore := h.mono step
  cases step with
  | allowAccess i ks myUsername username uuid fKek nonce newBundles posted =>
    have hnew : ∀ bundles, newBundles = some bundles → ∀ b ∈ bundles, ∀ r,
        b.createRatchet S ks = .ok r → Kept L P (∃ step ∈ steps ++ [.allowAccess i ks myUsername
          username uuid fKek nonce newBundles posted], step.Brings S P i username
            b.theirDevicePublic) r := by
      intro bundles hbundles b hb r hr
      obtain ⟨⟨hpair, hsecret⟩, hname⟩ := hstep bundles hbundles b hb
      exact kept_of_sending hpair hsecret hname
        (fun hkey => exists_brings ⟨rfl, rfl, bundles, hbundles, b, hb, rfl, hkey⟩) hr
    refine hbefore.update ?_ _ _
    cases posted with
    | true => exact ((hbefore i).afterAllowAccess (fun _ _ _ => Kept.send) hnew ..).1
    | false => exact ((hbefore i).getKeysForIdentity (fun _ _ _ => Kept.send) hnew).1
  | updateHandshakes i ks handshakes =>
    refine hbefore.update ((hbefore i).updateHandshakes fun x hx r hr => ?_) _ _
    exact kept_of_receiving hstep.1 (hstep.2 x hx)
      (fun hkey => exists_brings ⟨rfl, x, hx, rfl, rfl, hkey⟩) hr
  | updateMessages i batch =>
    refine hbefore.update ((hbefore i).afterMessages fun m hm r hr => ?_) _ _
    obtain ⟨m, hmem, rfl⟩ := List.mem_map.mp hm
    exact Kept.receive hacc hr (hstep m hmem).1 (hstep m hmem).2
      fun hkey => exists_brings ⟨rfl, m, hmem, rfl, rfl, hkey⟩

/-- **It holds after any steps.** -/
theorem guarded_after (hacc : S.AcceptsKeyPairs) (h : ∀ step ∈ steps, step.Named L P) :
    (after S A steps).Guarded L P steps := by
  induction steps using List.reverseRecOn with
  | nil =>
    intro i u d r hr
    change (⟨∅, ∅, ∅⟩ : SessionStore K).session u d = some r at hr
    rw [SessionStore.session_of_empty rfl] at hr
    cases hr
  | append_singleton steps step ih =>
    unfold after
    rw [List.foldl_append]
    exact (ih fun s hs => h s (List.mem_append_left _ hs)).next hacc
      (h step (List.mem_append_right _ (List.mem_singleton_self _)))

/-- **A message key is secret** if the relay was kept out of its session up
to the step that uses it. -/
theorem secret_of_not_brought (hacc : S.AcceptsKeyPairs)
    (hsteps : ∀ step ∈ steps, step.Named L P) {i : ι} {ks : KeyStore K}
    {myUsername username uuid : String} {fKek : List UInt8} {nonce : K → AeadNonce}
    {newBundles : Option (List (SendingKeyBundle K))} {posted : Bool}
    (hstep : step = .allowAccess i ks myUsername username uuid fKek nonce newBundles posted)
    (hnamed : step.Named L P) {messages : List (K × K × DeviceMessage K)}
    (hsent : (allowAccessToFile S A ks username uuid fKek (fun device => (nonce device).1)
      newBundles ((after S A steps).store i)).result = .ok messages)
    {device key : K} {m : DeviceMessage K} (hm : (device, key, m) ∈ messages)
    (hclean : ∀ step' ∈ steps ++ [step], ¬ step'.Brings S P i username device) :
    L.Secret key := by
  subst hstep
  have hguarded := ((guarded_after (A := A) hacc hsteps).mono (.allowAccess i ks myUsername
    username uuid fKek nonce newBundles posted) i)
  obtain ⟨-, hkeys⟩ := hguarded.afterAllowAccess (fun _ _ _ => Kept.send)
    (fun bundles hbundles b hb r hr => by
      obtain ⟨⟨hpair, hsecret⟩, hname⟩ := hnamed bundles hbundles b hb
      exact kept_of_sending hpair hsecret hname
        (fun hkey => exists_brings ⟨rfl, rfl, bundles, hbundles, b, hb, rfl, hkey⟩) hr)
    uuid fKek fun device => (nonce device).1
  obtain ⟨r, header, hkept, hsend⟩ := hkeys messages hsent _ hm
  refine hkept.secret ?_ hsend
  rintro ⟨step', hmem, hbrings⟩
  exact hclean step' hmem hbrings

/-- **What a relay cannot read.** After any steps of any devices, a relay
handing out whatever public keys it can name, let a device send the key of a
file to the devices of a user. The message key used for a device follows from
nothing that is not secret – unless the relay brought a key of its own into
this session of this device, in some step up to this one. -/
theorem not_derivable_of_not_brought (hacc : S.AcceptsKeyPairs)
    (hsteps : ∀ step ∈ steps, step.Named L P) {i : ι} {ks : KeyStore K}
    {myUsername username uuid : String} {fKek : List UInt8} {nonce : K → AeadNonce}
    {newBundles : Option (List (SendingKeyBundle K))} {posted : Bool}
    (hstep : step = .allowAccess i ks myUsername username uuid fKek nonce newBundles posted)
    (hnamed : step.Named L P) {messages : List (K × K × DeviceMessage K)}
    (hsent : (allowAccessToFile S A ks username uuid fKek (fun device => (nonce device).1)
      newBundles ((after S A steps).store i)).result = .ok messages)
    {device key : K} {m : DeviceMessage K} (hm : (device, key, m) ∈ messages)
    (hclean : ∀ step' ∈ steps ++ [step], ¬ step'.Brings S P i username device)
    {known : Set K} (hknown : ∀ k ∈ known, ¬ L.Secret k) : ¬ Derivable S known key :=
  fun hkey => hkey.public L hknown
    (secret_of_not_brought hacc hsteps hstep hnamed hsent hm hclean)

/-! ### A device with a session of the relay's and one of bob's -/

/-- The relay's own handshake with device 5, under its key 24. -/
def relayHandshake : RelayStep ℕ ℕ :=
  .updateHandshakes 5 (.ideal 5)
    [("mallory", { ReceivingKeyBundle.ideal 9 with
        theirEphemeralPublic := Sodium.ideal.boxPublic 24 })]

/-- What device 5 then sends bob. -/
def sentToBob : Except Fault (List (ℕ × ℕ × DeviceMessage ℕ)) :=
  (allowAccessToFile Sodium.ideal Aead.keyed (.ideal 5) "bob" "file" [1, 2, 3]
    (fun _ => FileRecord.zeroNonce.1) (some [.ideal 5])
    ((after Sodium.ideal Aead.keyed [relayHandshake]).store 5)).result

/-- The message to bob is under a key that does not follow from the
relay's. -/
theorem not_derivable_bob :
    ∃ device key m, (sentToBob.toOption.bind List.head?) = some (device, key, m)
      ∧ ¬ Derivable Sodium.ideal {24} key := by
  have hsome : (sentToBob.toOption.bind List.head?).isSome := by decide +kernel
  obtain ⟨⟨device, key, m⟩, hx⟩ := Option.isSome_iff_exists.mp hsome
  obtain ⟨messages, hmessages, hhead⟩ := Option.bind_eq_some_iff.mp hx
  have hsecret : ∀ n, 8 * n ∈ deviceKeys →
      (Sodium.idealLabelling deviceKeys).Secret (8 * n) := fun n => .drawn
  have h8 := hsecret 1 (by simp [deviceKeys])
  have h16 := hsecret 2 (by simp [deviceKeys])
  have hresult : sentToBob = .ok messages := by
    cases hb : sentToBob with
    | error e =>
      rw [hb] at hmessages
      cases hmessages
    | ok messages' =>
      rw [hb] at hmessages
      rw [Option.some.inj hmessages]
  have hsteps : ∀ step ∈ [relayHandshake], step.Named (Sodium.idealLabelling deviceKeys) {24} := by
    intro step hstep
    obtain rfl := List.mem_singleton.mp hstep
    refine ⟨fun kp hkp => ?_, fun x hx => ?_⟩
    · obtain rfl := Option.some.inj hkp
      exact ⟨rfl, h16⟩
    · obtain rfl := List.mem_singleton.mp hx
      exact .own rfl
  have hnamed : (sends 5 "alice" "file" [1, 2, 3] [.ideal 5]).Named
      (Sodium.idealLabelling deviceKeys) {24} := by
    intro bundles hbundles b hb
    obtain rfl := Option.some.inj hbundles
    obtain rfl := List.mem_singleton.mp hb
    exact ⟨⟨rfl, h8⟩, .device h16⟩
  have hstep : sends 5 "alice" "file" [1, 2, 3] [.ideal 5] = _ := rfl
  refine ⟨device, key, m, hx, not_derivable_of_not_brought Sodium.ideal_acceptsKeyPairs hsteps
    hstep hnamed hresult (List.mem_of_head? hhead) ?_ ?_⟩
  · intro step hstep
    obtain rfl | rfl := List.mem_pair.mp hstep
    · rintro ⟨-, x, hx, hu, -⟩
      obtain rfl := List.mem_singleton.mp hx
      exact absurd hu (by decide)
    · rintro ⟨-, -, bundles, hbundles, b, hb, -, a, ha, hown⟩
      obtain rfl := Option.some.inj hbundles
      obtain rfl := List.mem_singleton.mp hb
      rw [Set.mem_singleton_iff.mp ha] at hown
      exact absurd hown (by decide +kernel)
  · intro k hk hsecret
    rw [Set.mem_singleton_iff.mp hk] at hsecret
    exact absurd ((Sodium.IdealSecret.drawn_iff 3).mp hsecret) (by simp [deviceKeys])

end Network
