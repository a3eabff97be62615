import Eastwood.AuthCode
import Eastwood.IdentityKeys
import Eastwood.Runs
import Eastwood.SendFileTo

/-!
# The window a file is sent from

`SendFile` has a username, a file, and a flag: whether the key bundles of the
user have been fetched already, to show the authentication code. If they
have, sending does not fetch them again.

The flag is not of the user it was set for, and stays up when the username is
edited. And `get_keybundles` takes a request that failed for a user without
new devices. In either case there may be no session with the recipient, and
then `send_file_to` has nobody to send to, returns, and the window says that
the file was sent. A run of the window never says so in vain exactly if it
never sends to a user without sessions while the flag is up or the request
for bundles fails (`sends_reach_iff`).
-/

variable (sha256 : List UInt8 → List UInt8) (base64 : List UInt8 → String)
variable (S : Sodium Key) (A : Aead Key) (B : KeyBytes Key) (myUsername : String)

/-! ## The window -/

/-- What is shown. -/
inductive Dialog where
  | error (title text : String)
  | warning (title text : String)
  | info (title text : String)
  | code (title prompt code : String)
  deriving DecidableEq

/-- **`SendFile`**: its inputs and its flag, and the sessions of the device. -/
structure SendWindow where
  usernameInput : String
  filePathInput : String
  alreadyFetchedBundles : Bool
  store : SessionStore Key

/-- What `QFileDialog` and `QFileInfo` say of a file that was chosen. -/
structure ChosenFile where
  canonicalPath : String
  fileExists : Bool
  size : ℤ

namespace SendWindow

/-- **`onBrowseClicked`**: a file is taken over if there is one and it is not
too large. -/
def onBrowseClicked (chosen : Option ChosenFile) (w : SendWindow) : Option Dialog × SendWindow :=
  match chosen with
  | none => (none, w)
  | some file =>
    if file.canonicalPath = "" ∨ file.fileExists = false then
      (some (.error "Invalid File" "The selected file path is invalid or does not exist."), w)
    else if maxFileSizeBytes < file.size then
      (some (.error "File Too Large"
        "The selected file is too large. Maximum file size is 250.00 KB"), w)
    else (none, { w with filePathInput := file.canonicalPath })

/-- **`onShowAuthCodeClicked`**, given the replies to the requests for
handshakes and bundles, and the private keys drawn. -/
def onShowAuthCodeClicked (ks : KeyStore Key) (handshakes : Option Json) (draw : ℕ → Key)
    (reply : Option Json) (w : SendWindow) : Except Fault Dialog × SendWindow :=
  match fetchSessions S ks w.usernameInput (getHandshakeBacklog ks handshakes)
      (getKeybundles S ks draw reply) w.store with
  | (.error e, s) => (.error e, { w with store := s })
  | (.ok (), s) =>
    -- the flag is up before the code is made
    ((authCode sha256 base64 ks w.usernameInput s).map
      (.code "Authentication Code" "Please verify this code with the sender's device:"),
      { w with alreadyFetchedBundles := true, store := s })

/-- What is fetched for a send: nothing, if that has been done. -/
def newBundles (ks : KeyStore Key) (draw : ℕ → Key) (reply : Option Json) (w : SendWindow) :
    Option (Except Fault (List (SendingKeyBundle Key))) :=
  if w.alreadyFetchedBundles then none else some (getKeybundles S ks draw reply)

/-- The call of `send_file_to` in `onSendClicked`, given the reply to the
request for bundles, should it be made. -/
def sendFile (ks : KeyStore Key) (file : Option (List UInt8)) (metadata : FileMetadata)
    (draws : SendDraws) (server : SendServer) (draw : ℕ → Key) (reply : Option Json)
    (w : SendWindow) : Outcome Key (String × List (Key × Key × DeviceMessage Key)) :=
  sendFileTo S A B ks myUsername w.usernameInput w.filePathInput file metadata draws server
    (w.newBundles S ks draw reply) w.store

/-- What is shown of a file that was sent. -/
def fileSent : Dialog := .info "File Sent" "File has been sent successfully!"

/-- **`onSendClicked`**. -/
def onSendClicked (ks : KeyStore Key) (file : Option (List UInt8)) (metadata : FileMetadata)
    (draws : SendDraws) (server : SendServer) (draw : ℕ → Key) (reply : Option Json)
    (w : SendWindow) : Except Fault Dialog × SendWindow :=
  if w.filePathInput = "" then
    (.ok (.warning "No File Selected" "Please select a file to send."), w)
  else
    match validateUsername w.usernameInput with
    | .error errorMessage => (.ok (.warning "Invalid Username" errorMessage), w)
    | .ok () =>
      let sent := w.sendFile S A B myUsername ks file metadata draws server draw reply
      match sent.result with
      | .error e => (.error e, { w with store := sent.store })
      | .ok _ => (.ok fileSent, { w with alreadyFetchedBundles := false, store := sent.store })

end SendWindow

/-- **What a user does in the window.** -/
inductive SendAction where
  | browse (chosen : Option ChosenFile)
  | editUsername (username : String)
  /-- A button of the navigation bar, each of which clears the inputs. -/
  | navigate
  | showAuthCode (ks : KeyStore Key) (handshakes : Option Json) (draw : ℕ → Key)
      (reply : Option Json)
  | send (ks : KeyStore Key) (file : Option (List UInt8)) (metadata : FileMetadata)
      (draws : SendDraws) (server : SendServer) (draw : ℕ → Key) (reply : Option Json)

namespace SendAction

/-- What is shown, if anything, and the window afterwards. -/
def run : SendAction → SendWindow → Except Fault (Option Dialog) × SendWindow
  | browse chosen, w => (.ok (w.onBrowseClicked chosen).1, (w.onBrowseClicked chosen).2)
  | editUsername username, w => (.ok none, { w with usernameInput := username })
  | navigate, w => (.ok none, { w with usernameInput := "", filePathInput := "" })
  | showAuthCode ks handshakes draw reply, w =>
    let shown := w.onShowAuthCodeClicked sha256 base64 S ks handshakes draw reply
    (shown.1.map some, shown.2)
  | send ks file metadata draws server draw reply, w =>
    let shown := w.onSendClicked S A B myUsername ks file metadata draws server draw reply
    (shown.1.map some, shown.2)

/-- The window goes on, after an exception too, unless the behaviour was
undefined. -/
def step (a : SendAction) (w : SendWindow) : Option SendWindow :=
  match a.run sha256 base64 S A B myUsername w with
  | (.error e, w) => if e.isUndefined then none else some w
  | (.ok _, w) => some w

/-! ## Whom a file reaches -/

/-- **The file's key was posted to a device of the recipient**: on a session
with it a key was taken, the message under that key carries the key
encryption key, and it is one of those `/sendMessage` accepted. -/
def Reached (ks : KeyStore Key) (username : String) (fKek : Key) (server : SendServer)
    (newBundles : Option (List (SendingKeyBundle Key))) (s : SessionStore Key) : Prop :=
  ∃ keys device key header, (s.getKeysForIdentity S ks username newBundles).result = .ok keys
    ∧ (device, key, header) ∈ keys
    ∧ ((s.getKeysForIdentity S ks username newBundles).store.session username device).isSome
    ∧ ∃ devPub uuid nonce body entries, ks.getPublicKey .device = .ok devPub
      ∧ server.sendMessage body = .ok () ∧ body.find? "messages" = some (.arr entries)
      ∧ (postRatchetMessage myUsername devPub device
          (deviceMessage A uuid nonce (B.bytes fKek) key header)).entry ∈ entries

/-- **If the window says that the file was sent, it was sent to someone.** -/
def ReachesDevice : SendAction → SendWindow → Prop
  | send ks file metadata draws server draw reply, w =>
    (w.onSendClicked S A B myUsername ks file metadata draws server draw reply).1
        = .ok SendWindow.fileSent →
      ∃ newBundles, w.newBundles S ks draw reply = newBundles.map .ok
        ∧ Reached S A B myUsername ks w.usernameInput draws.fKek server newBundles w.store
  | _, _ => True

/-- **A file that goes to nobody**: everything is there, the file is uploaded,
but there is no session with the recipient, and no bundles to make one of: the
flag is up, or the request for them fails. -/
def ToNobody : SendAction → SendWindow → Prop
  | send ks file metadata draws server _ reply, w =>
    w.filePathInput ≠ "" ∧ validateUsername w.usernameInput = .ok ()
      ∧ (uploadFile A B w.filePathInput file metadata draws.fKek draws.upload
        >>= postUploadFile server.uploadFile).isOk
      ∧ (ks.getPublicKey .device).isOk
      ∧ w.store.getDeviceIdsOfExistingHandshakes w.usernameInput = []
      ∧ (w.alreadyFetchedBundles = true ∨ reply = none)
  | _, _ => False

instance (a : SendAction) (w : SendWindow) : Decidable (a.ToNobody A B w) := by
  cases a <;> unfold ToNobody <;> infer_instance

end SendAction

/-! ## Nobody to send to -/

section Nobody

variable {S} {A} {B} {ks : KeyStore Key} {draw : ℕ → Key} {reply : Option Json}
variable {s : SessionStore Key} {username : String}

/-- Where the loop over the entries made no bundle, there was no entry. -/
theorem eq_of_bundlesOfEntries_nil {pkDevice : Key} {entries : List (Json × Key)}
    {first identityHex : String}
    (h : bundlesOfEntries S pkDevice entries first = .ok (identityHex, [])) :
    identityHex = first := by
  cases entries with
  | nil => exact (congrArg Prod.fst (Except.ok.inj h)).symm
  | cons e entries =>
    obtain ⟨bundle, -, h⟩ := exists_of_bind_eq_ok h
    obtain ⟨rest, -, h⟩ := exists_of_bind_eq_ok h
    cases congrArg Prod.snd (Except.ok.inj h)

/-- **No bundles are returned** only where the request failed: a reply without
any ends in an exception, as it names no identity key to decode. -/
theorem getKeybundles_eq_nil_iff (S : Sodium Key) (ks : KeyStore Key) (draw : ℕ → Key) :
    getKeybundles S ks draw reply = .ok [] ↔ reply = none := by
  cases reply with
  | none => exact iff_of_true rfl rfl
  | some response =>
    refine iff_of_false (fun h => ?_) nofun
    obtain ⟨data, -, h⟩ := exists_of_bind_eq_ok h
    obtain ⟨slot, -, h⟩ := exists_of_bind_eq_ok h
    obtain ⟨myIdentityPublicHex, -, h⟩ := exists_of_bind_eq_ok h
    obtain ⟨myIdentityPublic, -, h⟩ := exists_of_bind_eq_ok h
    obtain ⟨device, -, h⟩ := exists_of_bind_eq_ok h
    obtain ⟨signed, -, h⟩ := exists_of_bind_eq_ok h
    obtain ⟨entries, -, h⟩ := exists_of_bind_eq_ok h
    obtain ⟨⟨identityHex, bundles⟩, hentries, h⟩ := exists_of_bind_eq_ok h
    obtain ⟨identity, hidentity, h⟩ := exists_of_bind_eq_ok h
    obtain rfl := Except.ok.inj h
    obtain rfl := eq_of_bundlesOfEntries_nil hentries
    cases hidentity

/-- Of a user there is no session with, there are no keys. -/
theorem advanceUser_of_no_device (hdev : (ks.getPublicKey .device).isOk) {t : SessionStore Key}
    (ht : t.getDeviceIdsOfExistingHandshakes username = []) :
    (t.advanceUser S ks username).1 = .ok [] := by
  obtain ⟨keys, hkeys⟩ := exists_of_isOk (SessionStore.advanceUser_isOk (S := S) hdev
    fun d r hr => by
      rw [SessionStore.getDeviceIds_eq_nil_iff.mp ht d] at hr
      cases hr)
  obtain ⟨_, -, hall⟩ := SessionStore.AdvancedAll.of_advanceUser hkeys
  rw [hkeys, List.map_eq_nil_iff.mp (hall.listed.trans ht)]

/-- **`get_keys_for_identity` returns nothing** exactly if there is no session
with the user and no bundle to make one of. -/
theorem getKeysForIdentity_eq_nil_iff {newBundles : Option (List (SendingKeyBundle Key))} :
    (s.getKeysForIdentity S ks username newBundles).result = .ok []
      ↔ (ks.getPublicKey .device).isOk ∧ s.getDeviceIdsOfExistingHandshakes username = []
        ∧ (newBundles = none ∨ newBundles = some []) := by
  constructor
  · intro h
    obtain ⟨e, -, hkeys⟩ | ⟨hcreated, hkeys⟩ :=
      SessionStore.getKeysForIdentity_cases S ks s username newBundles
    · rw [hkeys] at h
      cases h
    rw [hkeys] at h
    obtain ⟨devPub, hdev, hall⟩ := SessionStore.AdvancedAll.of_advanceUser h
    have hnone := SessionStore.getDeviceIds_eq_nil_iff.mp hall.listed.symm
    refine ⟨by rw [hdev]; rfl, SessionStore.getDeviceIds_eq_nil_iff.mpr fun d => ?_, ?_⟩
    · -- a session there was would be there still
      rw [← Option.not_isSome_iff_eq_none]
      intro hsome
      have hkept :
          ((s.ensureRatchets S ks username newBundles).store.session username d).isSome := by
        cases newBundles with
        | none => exact hsome
        | some bundles => exact SessionStore.session_create_isSome true _ hsome
      rw [hnone d] at hkept
      cases hkept
    · cases newBundles with
      | none => exact Or.inl rfl
      | some bundles =>
        cases bundles with
        | nil => exact Or.inr rfl
        | cons b bundles =>
          have hmade := (SessionStore.mem_devices_createRatchetsIfNeeded (u := username)
            (d := b.theirDevicePublic) hcreated).mpr
              (Or.inr ⟨rfl, .sending b, List.mem_cons_self, rfl⟩)
          replace hmade : ((s.ensureRatchets S ks username (some (b :: bundles))).store.session
            username b.theirDevicePublic).isSome := hmade
          rw [hnone] at hmade
          cases hmade
  · rintro ⟨hdev, hnone, hbundles⟩
    obtain rfl | rfl := hbundles
    · exact advanceUser_of_no_device hdev hnone
    · exact advanceUser_of_no_device (t := s.touch username) hdev
        (by rw [SessionStore.getDeviceIds_touch, hnone])

end Nobody

/-! ## One action -/

namespace SendAction

section Step

variable {S} {A} {B} {myUsername} {ks : KeyStore Key} {username : String} {fKek : Key}
variable {server : SendServer} {newBundles : Option (List (SendingKeyBundle Key))}
variable {s : SessionStore Key} {a : SendAction} {w : SendWindow}

/-- **Messages that were accepted reached someone**, if there are any. -/
theorem Reached.of_postAccess {uuid : String} {nonce : Key → AeadNonce}
    {messages : List (Key × Key × DeviceMessage Key)}
    (h : (postAccess S A ks myUsername username uuid (B.bytes fKek) nonce newBundles
      server.sendMessage s).result = .ok messages) (hne : messages ≠ []) :
    Reached S A B myUsername ks username fKek server newBundles s := by
  obtain ⟨hmade, haccepted⟩ := postAccess_cases h
  obtain ⟨keys, hkeys, rfl⟩ := allowAccessToFile_cases hmade
  obtain ⟨body, hbody, hsent⟩ := haccepted hne
  obtain ⟨entries, hentries, hbody⟩ := exists_of_bind_eq_ok hbody
  obtain rfl := Except.ok.inj hbody
  obtain ⟨⟨device, key, header⟩, hmem⟩ := List.exists_mem_of_ne_nil keys
    fun hnil => hne (congrArg _ hnil)
  obtain ⟨e, -, hcases⟩ | ⟨-, hcases⟩ :=
    SessionStore.getKeysForIdentity_cases S ks s username newBundles
  · rw [hcases] at hkeys
    cases hkeys
  have hkeys' := hkeys
  rw [hcases] at hkeys'
  obtain ⟨devPub, hdev, hall⟩ := SessionStore.AdvancedAll.of_advanceUser hkeys'
  obtain ⟨r, r', _, -, -, -, hsession⟩ := hall.advanced _ hmem
  obtain ⟨kp, hkp⟩ := KeyStore.exists_of_getPublicKey hdev
  refine ⟨keys, device, key, header, hkeys, hmem, ?_, kp.1, uuid, (nonce device).1, _, entries,
    KeyStore.getPublicKey_eq hkp, hsent, rfl, ?_⟩
  · rw [hcases, hsession]
    rfl
  · exact mem_messageEntries hkp hentries (List.mem_map.mpr
      ⟨_, List.mem_map.mpr ⟨(device, key, header), hmem, rfl⟩, rfl⟩)

/-- Nobody is reached where there is nobody. -/
theorem Reached.ne_nil (h : Reached S A B myUsername ks username fKek server newBundles s) :
    (s.getKeysForIdentity S ks username newBundles).result ≠ .ok [] := by
  obtain ⟨keys, device, key, header, hkeys, hmem, -⟩ := h
  intro hnil
  obtain rfl := Except.ok.inj (hkeys.symm.trans hnil)
  cases hmem

/-- **A send that returned**, and what it fetched. -/
theorem of_onSendClicked {file : Option (List UInt8)} {metadata : FileMetadata}
    {draws : SendDraws} {draw : ℕ → Key} {reply : Option Json}
    (h : (w.onSendClicked S A B myUsername ks file metadata draws server draw reply).1
      = .ok SendWindow.fileSent) :
    w.filePathInput ≠ "" ∧ validateUsername w.usernameInput = .ok ()
      ∧ ∃ uuid messages, (w.sendFile S A B myUsername ks file metadata draws server draw
        reply).result = .ok (uuid, messages) := by
  unfold SendWindow.onSendClicked at h
  by_cases hpath : w.filePathInput = ""
  · rw [if_pos hpath] at h
    cases h
  rw [if_neg hpath] at h
  cases hname : validateUsername w.usernameInput with
  | error message =>
    simp only [hname] at h
    cases h
  | ok _ =>
    refine ⟨hpath, rfl, ?_⟩
    simp only [hname] at h
    cases hsent : (w.sendFile S A B myUsername ks file metadata draws server draw reply).result with
    | error e =>
      simp only [hsent] at h
      cases h
    | ok sent => exact ⟨sent.1, sent.2, rfl⟩

/-- **A send to nobody returns.** -/
theorem onSendClicked_of_nil {file : Option (List UInt8)} {metadata : FileMetadata}
    {draws : SendDraws} {draw : ℕ → Key} {reply : Option Json} (hpath : w.filePathInput ≠ "")
    (hname : validateUsername w.usernameInput = .ok ())
    (hup : (uploadFile A B w.filePathInput file metadata draws.fKek draws.upload
      >>= postUploadFile server.uploadFile).isOk)
    (hbundles : w.newBundles S ks draw reply = newBundles.map .ok)
    (hnil : (w.store.getKeysForIdentity S ks w.usernameInput newBundles).result = .ok []) :
    (w.onSendClicked S A B myUsername ks file metadata draws server draw reply).1
      = .ok SendWindow.fileSent := by
  obtain ⟨uuid, hup⟩ := exists_of_isOk hup
  have hpost : (postAccess S A ks myUsername w.usernameInput uuid (B.bytes draws.fKek) draws.nonce
      newBundles server.sendMessage w.store).result = .ok [] := by
    have hmade : (allowAccessToFile S A ks w.usernameInput uuid (B.bytes draws.fKek)
        (fun device => (draws.nonce device).1) newBundles w.store).result = .ok [] := by
      unfold allowAccessToFile
      simp only [hnil]
      rfl
    unfold postAccess
    simp only [hmade]
    rfl
  have hsent : (w.sendFile S A B myUsername ks file metadata draws server draw reply).result
      = .ok (uuid, []) := by
    unfold SendWindow.sendFile sendFileTo
    rw [hbundles]
    simp only [hup]
    cases newBundles with
    | none => exact congrArg (Except.map _) hpost
    | some bundles => exact congrArg (Except.map _) hpost
  unfold SendWindow.onSendClicked
  rw [if_neg hpath, hname]
  simp only [hsent]

/-- **One action** of the window does not lie exactly if it does not send to
nobody. -/
theorem reachesDevice_iff (a : SendAction) (w : SendWindow) :
    a.ReachesDevice S A B myUsername w ↔ ¬ a.ToNobody A B w := by
  cases a with
  | send ks file metadata draws server draw reply =>
    constructor
    · rintro h ⟨hpath, hname, hup, hdev, hnone, hbundles⟩
      obtain ⟨newBundles, hnew, hnothing⟩ : ∃ newBundles,
          w.newBundles S ks draw reply = newBundles.map .ok
            ∧ (newBundles = none ∨ newBundles = some []) := by
        unfold SendWindow.newBundles
        by_cases hflag : w.alreadyFetchedBundles = true
        · exact ⟨none, by rw [if_pos hflag]; rfl, Or.inl rfl⟩
        · refine ⟨some [], ?_, Or.inr rfl⟩
          rw [if_neg hflag, (getKeybundles_eq_nil_iff _ _ _).mpr (hbundles.resolve_left hflag)]
          rfl
      have hnil := (getKeysForIdentity_eq_nil_iff (S := S)).mpr ⟨hdev, hnone, hnothing⟩
      obtain ⟨bundles, hbundles, hreached⟩ := h (onSendClicked_of_nil hpath hname hup hnew hnil)
      obtain rfl := Option.map_injective (fun _ _ => Except.ok.inj) (hnew.symm.trans hbundles)
      exact hreached.ne_nil hnil
    · intro hsomebody hshown
      obtain ⟨hpath, hname, uuid, messages, hsent⟩ := of_onSendClicked hshown
      obtain ⟨⟨record, hrecord, hup⟩, haccess⟩ := sendFileTo_cases hsent
      obtain ⟨bundles, hbundles, hpost⟩ := allowAccess_cases haccess
      refine ⟨bundles, hbundles, Reached.of_postAccess hpost fun hnil => hsomebody ?_⟩
      -- no message: no session, and none that was made
      subst hnil
      obtain ⟨keys, hkeys, hmade⟩ := allowAccessToFile_cases (postAccess_cases hpost).1
      rw [List.map_eq_nil_iff.mp hmade.symm] at hkeys
      obtain ⟨hdev, hnone, hnothing⟩ := getKeysForIdentity_eq_nil_iff.mp hkeys
      refine ⟨hpath, hname, by rw [hrecord]; show (postUploadFile _ _).isOk; rw [hup]; rfl, hdev,
        hnone, ?_⟩
      unfold SendWindow.newBundles at hbundles
      by_cases hflag : w.alreadyFetchedBundles = true
      · exact Or.inl hflag
      · rw [if_neg hflag] at hbundles
        refine Or.inr ((getKeybundles_eq_nil_iff S ks draw).mp ?_)
        obtain rfl | rfl := hnothing
        · cases hbundles
        · exact Option.some.inj hbundles
  | browse | editUsername | navigate | showAuthCode => exact iff_of_true trivial not_false

end Step

end SendAction

/-! ## Along a run -/

/-- **The window never says in vain that a file was sent**, whatever is done
in it and whatever the server answers, exactly if it never sends to nobody:
to a user there is no session with, while the flag is up – whomever it was
set for – or where the request for bundles fails. -/
theorem sends_reach_iff (actions : List SendAction) (w : SendWindow) :
    Run.Along (SendAction.step sha256 base64 S A B myUsername)
        (SendAction.ReachesDevice S A B myUsername) actions w
      ↔ Run.Along (SendAction.step sha256 base64 S A B myUsername)
        (fun a w => ¬ a.ToNobody A B w) actions w :=
  Run.along_congr SendAction.reachesDevice_iff actions w

/-! ## Sent to nobody -/

namespace SendWindow

/-- The window as it is opened. -/
def opened : SendWindow := ⟨"", "", false, ⟨∅, ∅, ∅⟩⟩

/-- Alice's device chooses a file of three bytes, -/
def chooses : SendAction := .browse (some ⟨"/a.txt", true, 3⟩)

/-- and sends it, given the reply to the request for bundles. -/
def sends (reply : Option Json) : SendAction :=
  .send (.repeated 5 []) (some [1, 2, 3]) ⟨"a.txt", 3, "text/plain"⟩ .repeated .accepting
    (fun _ => .repeated 7) reply

/-- The reply with the bundle of a device. -/
def reply : Json := (Published.repeated true).reply (.repeated 9)

/-- **The file goes to nobody**: after the code for carol was shown, or when the
request for bob's bundles fails. -/
theorem not_reachesDevice_shown_failed :
    ¬ Run.Along (SendAction.step id bin2hex Sodium.bytes .labelled .array "alice")
        (SendAction.ReachesDevice Sodium.bytes .labelled .array "alice")
        [.editUsername "carol",
          .showAuthCode (.repeated 5 []) none (fun _ => .repeated 7) (some reply),
          .editUsername "bob", chooses, sends (some reply)] opened
      ∧ ¬ Run.Along (SendAction.step id bin2hex Sodium.bytes .labelled .array "alice")
        (SendAction.ReachesDevice Sodium.bytes .labelled .array "alice")
        [.editUsername "bob", chooses, sends none] opened := by
  rw [Run.along_congr SendAction.reachesDevice_iff, Run.along_congr SendAction.reachesDevice_iff]
  exact ⟨by decide +kernel, by decide +kernel⟩

end SendWindow
