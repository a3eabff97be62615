import Eastwood.AuthCode
import Eastwood.Base642bin
import Mathlib.Tactic

/-!
# The code of a device

A device that is to be linked to an account draws a key pair and shows the
public key as a code: 32 bytes in base 64, in four fields of a window, to be
copied, and as a QR code. A device that holds the identity key of the account
takes such a code, typed or scanned, and once its user has agreed and named
the new device, signs the key with the identity key and posts it.

Between the two is a person, who may type anything, and a camera, which may
see anything. What is posted is right nevertheless: a registration is posted
for a key exactly if what was typed, spaces around it aside, or what was
scanned is the code of that key (`registers_iff_code`). The length that is
checked of what is typed is in UTF-16, and so is the number of bytes of its
UTF-8 that are decoded; a text that is not in ASCII is no code all the same
(`eq_fromStdString_of_take`).
-/

/-! ## Texts -/

/-- `QString::toStdString`: in UTF-8. -/
def toStdString (s : List Char) : List UInt8 := s.flatMap String.utf8EncodeChar

/-- `QString::fromStdString`, of the ASCII texts it is given here. -/
def fromStdString (s : List UInt8) : List Char := s.map fun b => Char.ofNat b.toNat

/-- `QString::mid` of such a text. -/
def mid (s : List Char) (position n : ℕ) : List Char := (s.drop position).take n

section Texts

variable {s : List Char} {t : List UInt8}

theorem toNat_ofNat {n : ℕ} (hn : n < 128) : (Char.ofNat n).toNat = n := by
  have hall : ∀ n < 128, (Char.ofNat n).toNat = n := by decide
  exact hall n hn

/-- A character in ASCII is one byte, and one unit of UTF-16. -/
theorem utf8EncodeChar_of_lt {c : Char} (hc : c.toNat < 128) :
    String.utf8EncodeChar c = [UInt8.ofNat c.toNat] := by
  have hle : c.val.toNat ≤ 127 := Nat.le_of_lt_succ hc
  simp only [String.utf8EncodeChar, if_pos hle]
  rfl

/-- Any other starts with a byte that is not. -/
theorem exists_utf8EncodeChar {c : Char} (hc : 128 ≤ c.toNat) :
    ∃ b rest, String.utf8EncodeChar c = b :: rest ∧ 128 ≤ b.toNat := by
  have hle : ¬ c.val.toNat ≤ 127 := by
    have hval : c.val.toNat = c.toNat := rfl
    omega
  simp only [String.utf8EncodeChar, if_neg hle]
  split
  · refine ⟨_, _, rfl, ?_⟩
    rw [UInt8.toNat_ofNat']
    omega
  · split
    · refine ⟨_, _, rfl, ?_⟩
      rw [UInt8.toNat_ofNat']
      omega
    · refine ⟨_, _, rfl, ?_⟩
      rw [UInt8.toNat_ofNat']
      omega

theorem qtLength_cons (c : Char) (s : List Char) :
    qtLength (c :: s) = (if c.toNat < 0x10000 then 1 else 2) + qtLength s := by
  rw [qtLength, List.map_cons, List.sum_cons]
  rfl

theorem qtLength_cons_of_lt {c : Char} (hc : c.toNat < 128) (s : List Char) :
    qtLength (c :: s) = qtLength s + 1 := by
  rw [qtLength_cons, if_pos (by omega), add_comm]

/-- **A text whose bytes, as many as it has units of UTF-16, are in ASCII, is
in ASCII.** Bytes that are left over would be after the first that is not. -/
theorem eq_fromStdString_of_take (ht : ∀ b ∈ t, b.toNat < 128)
    (h : (toStdString s).take (qtLength s) = t) : s = fromStdString t := by
  induction s generalizing t with
  | nil =>
    subst h
    rfl
  | cons c s ih =>
    rw [toStdString, List.flatMap_cons] at h
    rcases Nat.lt_or_ge c.toNat 128 with hc | hc
    · rw [utf8EncodeChar_of_lt hc, qtLength_cons_of_lt hc, List.singleton_append,
        List.take_succ_cons] at h
      subst h
      have hrest := ih (fun b hb => ht b (List.mem_cons_of_mem _ hb)) rfl
      have hchar : Char.ofNat (UInt8.ofNat c.toNat).toNat = c := by
        rw [UInt8.toNat_ofNat', Nat.mod_eq_of_lt (by omega), Char.ofNat_toNat]
      rw [fromStdString, List.map_cons, hchar]
      exact congrArg (c :: ·) hrest
    · obtain ⟨b, rest, hbytes, hb⟩ := exists_utf8EncodeChar hc
      obtain ⟨n, hn⟩ : ∃ n, qtLength (c :: s) = n + 1 := by
        rw [qtLength_cons]
        split
        · exact ⟨qtLength s, add_comm _ _⟩
        · exact ⟨qtLength s + 1, add_comm _ _⟩
      rw [hbytes, hn, List.cons_append, List.take_succ_cons] at h
      subst h
      exact absurd (ht b List.mem_cons_self) (not_lt.mpr hb)

/-- Texts in ASCII are bytes. -/
theorem toStdString_fromStdString (ht : ∀ b ∈ t, b.toNat < 128) :
    toStdString (fromStdString t) = t := by
  induction t with
  | nil => rfl
  | cons b t ih =>
    have hb := ht b List.mem_cons_self
    have hrest := ih fun b hb => ht b (List.mem_cons_of_mem _ hb)
    rw [fromStdString, List.map_cons, toStdString, List.flatMap_cons,
      utf8EncodeChar_of_lt (by rwa [toNat_ofNat hb]), toNat_ofNat hb, UInt8.ofNat_toNat]
    exact congrArg (b :: ·) hrest

theorem qtLength_fromStdString (ht : ∀ b ∈ t, b.toNat < 128) :
    qtLength (fromStdString t) = t.length := by
  induction t with
  | nil => rfl
  | cons b t ih =>
    have hb := ht b List.mem_cons_self
    rw [fromStdString, List.map_cons, qtLength_cons_of_lt (by rwa [toNat_ofNat hb]),
      List.length_cons]
    exact congrArg (· + 1) (ih fun b hb => ht b (List.mem_cons_of_mem _ hb))

/-- A text without spaces is not trimmed. -/
theorem trimmed_eq_self (h : ∀ c ∈ s, isQtSpace c = false) : trimmed s = s := by
  have hkeep : ∀ l : List Char, (∀ c ∈ l, isQtSpace c = false) → l.dropWhile isQtSpace = l := by
    rintro (_ | ⟨c, l⟩) hl
    · rfl
    · rw [List.dropWhile_cons_of_neg]
      rw [hl c List.mem_cons_self]
      exact Bool.false_ne_true
  rw [trimmed, hkeep s h, hkeep s.reverse fun c hc => h c (List.mem_reverse.mp hc),
    List.reverse_reverse]

end Texts

/-! ## The decoder -/

/-- The decoder of libsodium, in the variant the program uses: no characters
are skipped, and the whole text has to be read. -/
structure Base64Decoder where
  /-- The bytes `sodium_base642bin` writes to a buffer of a size that is
  given; none if it does not return zero. -/
  sodiumBase642bin : List UInt8 → ℕ → Option (List UInt8)

/-- **What is documented of it**: it reads the text of a byte string, and
fails if there is none or it does not fit. -/
def Base64Decoder.Standard (D : Base64Decoder) : Prop :=
  ∀ text maxlen, D.sodiumBase642bin text maxlen
    = (Base64.decode text).filter (·.length ≤ maxlen)

/-! ## The device that is new -/

/-- What a registration of a device draws and meets: what `sodium_init` says,
whether secure memory is had, the key pair, and the image a text is made
into. -/
structure RegistrationDraws (K Image : Type) where
  sodiumInit : Bool
  secured : Except Fault Unit
  keypair : K × K
  qrCode : List UInt8 → Option Image

/-- **`Login::setupDeviceRegistration`**: the code, its image, and the key
pair. -/
def setupDeviceRegistration {Image : Type} (L : Base64Library)
    (d : RegistrationDraws Key Image) : Except Fault (List UInt8 × Image × Key × Key) :=
  if ¬ d.sodiumInit then .error (.runtimeError "Libsodium initialization failed")
  else
    match d.secured with
    | .error e => .error e
    | .ok () =>
      let authCode := bin2base64 L d.keypair.1.1
      let qrCode := d.qrCode (bin2base64 L d.keypair.1.1)
      if authCode = [] then .error (.runtimeError "Failed to generate authentication code")
      else
        match qrCode with
        | none => .error (.runtimeError "Failed to generate QR code")
        | some qrCode => .ok (authCode, qrCode, d.keypair)

/-- **`DeviceRegister::displayAuthCode`**: the texts of the four fields. -/
def displayAuthCode (authCode : List UInt8) : List (List Char) :=
  let partLen := authCode.length / 4
  let code := fromStdString authCode
  [mid code 0 partLen, mid code partLen partLen, mid code (2 * partLen) partLen,
    code.drop (3 * partLen)]

/-! ## The device that holds the identity key -/

/-- A box of `StyledMessageBox`. -/
inductive MessageBox where
  | error (title text : String)
  | success (title text : String)
  | info (title text : String)
  deriving DecidableEq, Repr

/-- What is thrown, as far as the handler tells it apart. -/
inductive Thrown where
  | runtimeError (what : String)
  | exception (what : String)

/-- What the handling of a code meets: the name the request is agreed to
under, what `sodium_init` says, the identity key pair as it is read, how the
post ends, and how fetching the list of devices does. -/
structure ConnectionDraws where
  deviceName : Option String
  sodiumInit : Bool
  identity : Except Thrown (Key × Key)
  posted : Except Thrown Unit
  devices : Except Thrown (List String)

/-- What it does: the boxes it shows, the registration it posts, the devices
it lists, and what it returns. -/
structure Handled where
  boxes : List MessageBox
  posted : Option Json
  listed : List String
  accepted : Bool

/-- The body of **`post_register_device`**. -/
def registerDeviceBody (pkId pkDevice : Key) (pkSignature : List UInt8) (deviceName : String) :
    Json :=
  .obj [("identity_public", .str pkId.hex), ("device_public", .str pkDevice.hex),
    ("signature", .str (bin2hex pkSignature)), ("device_name", .str deviceName)]

/-- **`add_trusted_device`**: what it posts, and how it ends. -/
def addTrustedDevice (S : Sodium Key) (pkNewDevice : Key) (deviceName : String)
    (d : ConnectionDraws) : Option Json × Except Thrown Unit :=
  if ¬ d.sodiumInit then (none, .error (.runtimeError "Libsodium initialization failed"))
  else
    match d.identity with
    | .error e => (none, .error e)
    | .ok (pkIdentity, skIdentity) =>
      let pkSignature := S.signDetached skIdentity pkNewDevice
      (some (registerDeviceBody pkIdentity pkNewDevice pkSignature deviceName),
        match d.posted with
        | .error _ => .error (.runtimeError "Failed to register device with server")
        | .ok () => .ok ())

/-- What is shown of what is caught. -/
def connectionFailed : Thrown → MessageBox
  | .runtimeError what => .error "Connection Failed" s!"Failed to add trusted device: {what}"
  | .exception what => .error "Connection Failed" s!"An unexpected error occurred: {what}"

/-- An array of 32 bytes, if there are that many. -/
def toKey (bytes : List UInt8) : Option Key :=
  if h : bytes.length = 32 then some ⟨bytes, h⟩ else none

/-- **`Settings::handleDeviceConnection`.** The list of devices is fetched
once the success is shown, and a failure of that is shown after it. -/
def handleDeviceConnection (D : Base64Decoder) (S : Sodium Key) (publicKey : List Char)
    (d : ConnectionDraws) : Handled :=
  match d.deviceName with
  | none => ⟨[.info "Connection Denied" "Connection request has been denied."], none, [], false⟩
  | some deviceName =>
    let invalid : Handled := ⟨[.error "Invalid Key"
      "The authentication code contains an invalid public key."], none, [], false⟩
    match D.sodiumBase642bin ((toStdString publicKey).take (qtLength publicKey)) 32 with
    | none => invalid
    | some bytes =>
      match toKey bytes with
      | none => invalid
      | some pkNewDevice =>
        match addTrustedDevice S pkNewDevice deviceName d with
        | (posted, .error e) => ⟨[connectionFailed e], posted, [], false⟩
        | (posted, .ok ()) =>
          let success := .success "Connection Accepted"
            s!"Connection request has been accepted for device: {deviceName}"
          match d.devices with
          | .error e => ⟨[success, connectionFailed e], posted, [], false⟩
          | .ok devices => ⟨[success], posted, devices, true⟩

/-- **`Settings::onAuthVerifyClicked`**, with the text of the field. -/
def onAuthVerifyClicked (D : Base64Decoder) (S : Sodium Key) (authCodeInput : List Char)
    (d : ConnectionDraws) : Handled :=
  let authCode := trimmed authCodeInput
  if qtLength authCode ≠ 44 then
    ⟨[.error "Invalid Code" "The authentication code must be 44 characters long"], none, [], false⟩
  else handleDeviceConnection D S authCode d

/-! ### The camera -/

/-- `isalnum`, of a byte. -/
def isAlnum (c : UInt8) : Bool :=
  (48 ≤ c && c ≤ 57) || (65 ≤ c && c ≤ 90) || (97 ≤ c && c ≤ 122)

/-- **`CameraFunctionality::isValidQRCodeData`.** -/
def isValidQRCodeData (decodedInfo : List UInt8) : Bool :=
  if decodedInfo.length < 43 ∨ 44 < decodedInfo.length then false
  else decodedInfo.all fun c => isAlnum c || c = 43 || c = 47 || c = 61

/-- A frame of the camera: nothing in it, the text of a QR code and the number
of its corners, or an exception, after one kind of which the camera is opened
again. -/
inductive Frame where
  | empty
  | decoded (decodedInfo : List UInt8) (points : ℕ)
  | cvException (reopened : Bool)
  | exception

/-- **`CameraFunctionality::processFrame`**, frame after frame: the boxes that
are shown, and the text the scanning ends with. -/
def processFrames : List Frame → List MessageBox × Option (List UInt8)
  | [] => ([], none)
  | .empty :: frames | .exception :: frames | .cvException true :: frames => processFrames frames
  | .cvException false :: _ =>
    ([.error "Camera Error" "Failed to reset camera. Please check your camera connection."], none)
  | .decoded decodedInfo points :: frames =>
    if decodedInfo ≠ [] ∧ points = 4 ∧ isValidQRCodeData decodedInfo then ([], some decodedInfo)
    else processFrames frames

/-- **`CameraFunctionality::showScanDialog`**: the frames until the dialog is
closed, if the camera can be opened. -/
def showScanDialog (D : Base64Decoder) (S : Sodium Key) (camera : Option (List Frame))
    (d : ConnectionDraws) : Handled :=
  match camera with
  | none => ⟨[.error "Camera Error"
      "Failed to access camera. Please make sure you have granted camera permissions."],
      none, [], false⟩
  | some frames =>
    match processFrames frames with
    | (boxes, none) => ⟨boxes, none, [], false⟩
    | (_, some decodedInfo) => handleDeviceConnection D S (fromStdString decodedInfo) d

/-! ## Codes -/

section Codes

variable {L : Base64Library} {D : Base64Decoder}

/-- The code of a device, as it is shown. -/
def deviceCode (L : Base64Library) (pkDevice : Key) : List Char :=
  fromStdString (bin2base64 L pkDevice.1)

theorem toKey_eq_some_iff {bytes : List UInt8} {k : Key} : toKey bytes = some k ↔ bytes = k.1 := by
  rw [toKey]
  split
  · rename_i h
    rw [Option.some_inj]
    exact Subtype.ext_iff
  · rename_i h
    refine iff_of_false (fun hnone => by cases hnone) fun heq => h ?_
    rw [heq, k.2]

/-- A code is 44 characters long, -/
theorem length_bin2base64 (hL : L.Standard) (k : Key) : (bin2base64 L k.1).length = 44 := by
  rw [bin2base64_eq hL, Base64.length_encode, k.2]

/-- all of them what the camera takes, -/
theorem isValidQRCodeData_bin2base64 (hL : L.Standard) (k : Key) :
    isValidQRCodeData (bin2base64 L k.1) = true := by
  have hdigit : ∀ n < 64, (isAlnum (Base64.digit n) || Base64.digit n = 43
      || Base64.digit n = 47 || Base64.digit n = 61) = true := by decide
  have hlen := length_bin2base64 hL k
  rw [isValidQRCodeData, if_neg (by omega), List.all_eq_true, bin2base64_eq hL]
  exact Base64.forall_mem_encode hdigit (by decide) k.1

/-- in ASCII -/
theorem lt_of_mem_encode (bytes : List UInt8) : ∀ b ∈ Base64.encode bytes, b.toNat < 128 :=
  Base64.forall_mem_encode (by decide) (by decide) bytes

/-- and no spaces. -/
theorem not_isQtSpace_of_mem {bytes : List UInt8} :
    ∀ c ∈ fromStdString (Base64.encode bytes), isQtSpace c = false := by
  have hdigit : ∀ n < 64, isQtSpace (Char.ofNat (Base64.digit n).toNat) = false := by decide
  intro c hc
  obtain ⟨b, hb, rfl⟩ := List.mem_map.mp hc
  exact Base64.forall_mem_encode (P := fun b => isQtSpace (Char.ofNat b.toNat) = false)
    hdigit (by decide) bytes b hb

theorem trimmed_deviceCode (hL : L.Standard) (k : Key) :
    trimmed (deviceCode L k) = deviceCode L k := by
  rw [deviceCode, bin2base64_eq hL]
  exact trimmed_eq_self not_isQtSpace_of_mem

theorem qtLength_deviceCode (hL : L.Standard) (k : Key) : qtLength (deviceCode L k) = 44 := by
  have hlen := length_bin2base64 hL k
  rw [bin2base64_eq hL] at hlen
  rw [deviceCode, bin2base64_eq hL, qtLength_fromStdString (lt_of_mem_encode k.1), hlen]

/-- **The four fields are the code**, whatever its length. -/
theorem flatten_displayAuthCode (authCode : List UInt8) :
    (displayAuthCode authCode).flatten = fromStdString authCode := by
  generalize hcode : fromStdString authCode = code
  have hparts : ∀ n, code.take n ++ ((code.drop n).take n
      ++ ((code.drop (2 * n)).take n ++ code.drop (3 * n))) = code := by
    intro n
    have hthird : (code.drop (2 * n)).take n ++ code.drop (3 * n) = code.drop (2 * n) := by
      rw [show 3 * n = 2 * n + n by ring, ← List.drop_drop, List.take_append_drop]
    have hsecond : (code.drop n).take n ++ code.drop (2 * n) = code.drop n := by
      rw [show 2 * n = n + n by ring, ← List.drop_drop, List.take_append_drop]
    rw [hthird, hsecond, List.take_append_drop]
  simp only [displayAuthCode, hcode, mid, List.drop_zero, List.flatten_cons, List.flatten_nil,
    List.append_nil]
  exact hparts _

/-- **What is decoded of a text** is a key exactly if the text is its code. -/
theorem decoded_iff (hL : L.Standard) (hD : D.Standard) (publicKey : List Char) (k : Key) :
    (D.sodiumBase642bin ((toStdString publicKey).take (qtLength publicKey)) 32).bind toKey = some k
      ↔ publicKey = deviceCode L k := by
  rw [hD, deviceCode, bin2base64_eq hL, Option.bind_eq_some_iff]
  constructor
  · rintro ⟨bytes, hbytes, hkey⟩
    obtain rfl := toKey_eq_some_iff.mp hkey
    have hdecode := (Option.filter_eq_some_iff.mp hbytes).1
    exact eq_fromStdString_of_take (lt_of_mem_encode k.1)
      (Base64.decode_eq_some_iff.mp hdecode).symm
  · rintro rfl
    refine ⟨k.1, ?_, toKey_eq_some_iff.mpr rfl⟩
    rw [toStdString_fromStdString (lt_of_mem_encode k.1),
      qtLength_fromStdString (lt_of_mem_encode k.1), List.take_length, Base64.decode_encode,
      Option.filter_some, k.2]
    rfl

/-- No two devices have the same code. -/
theorem deviceCode_injective (hL : L.Standard) : Function.Injective (deviceCode L) := by
  intro k k' h
  rw [deviceCode, deviceCode, bin2base64_eq hL, bin2base64_eq hL] at h
  have hbytes := congrArg toStdString h
  rw [toStdString_fromStdString (lt_of_mem_encode k.1),
    toStdString_fromStdString (lt_of_mem_encode k'.1)] at hbytes
  exact Subtype.ext (Base64.encode_injective hbytes)

end Codes

/-! ## What is posted -/

/-- **The registration of a key** that is posted where a code is handled: the
request has been agreed to, and the identity key, which can be read, signs the
key. -/
def ConnectionDraws.Registers (S : Sodium Key) (d : ConnectionDraws) (k : Key) (body : Json) :
    Prop :=
  ∃ deviceName pkIdentity skIdentity, d.deviceName = some deviceName ∧ d.sodiumInit = true
    ∧ d.identity = .ok (pkIdentity, skIdentity)
    ∧ body = registerDeviceBody pkIdentity k (S.signDetached skIdentity k) deviceName

/-- The text a scan ends with. -/
def scanned (camera : Option (List Frame)) : Option (List UInt8) :=
  camera.bind fun frames => (processFrames frames).2

/-- A frame after which the scan goes on. -/
def Frame.passes : Frame → Bool
  | .empty | .exception => true
  | .cvException reopened => reopened
  | .decoded decodedInfo points =>
    decodedInfo = [] || points ≠ 4 || !isValidQRCodeData decodedInfo

section Posted

variable {L : Base64Library} {D : Base64Decoder} {S : Sodium Key} {d : ConnectionDraws}

theorem addTrustedDevice_posted_iff {deviceName : String} (hname : d.deviceName = some deviceName)
    {k : Key} {body : Json} :
    (addTrustedDevice S k deviceName d).1 = some body ↔ d.Registers S k body := by
  rw [addTrustedDevice]
  constructor
  · intro h
    split at h
    · cases h
    · rename_i hinit
      split at h
      · cases h
      · rename_i pkIdentity skIdentity hidentity
        exact ⟨deviceName, pkIdentity, skIdentity, hname, not_not.mp hinit, hidentity,
          (Option.some.inj h).symm⟩
  · rintro ⟨deviceName', pkIdentity, skIdentity, hname', hinit, hidentity, rfl⟩
    obtain rfl := Option.some.inj (hname.symm.trans hname')
    rw [if_neg (not_not.mpr hinit), hidentity]

/-- Where a key is decoded, what is posted is what `add_trusted_device` posts.
-/
theorem handleDeviceConnection_posted {deviceName : String}
    (hname : d.deviceName = some deviceName) (publicKey : List Char) :
    (handleDeviceConnection D S publicKey d).posted
      = ((D.sodiumBase642bin ((toStdString publicKey).take (qtLength publicKey)) 32).bind
          toKey).bind fun k => (addTrustedDevice S k deviceName d).1 := by
  unfold handleDeviceConnection
  rw [hname]
  dsimp only
  cases D.sodiumBase642bin ((toStdString publicKey).take (qtLength publicKey)) 32 with
  | none => rfl
  | some bytes =>
    dsimp only
    rw [Option.bind_some]
    cases toKey bytes with
    | none => rfl
    | some k =>
      dsimp only
      rw [Option.bind_some]
      generalize addTrustedDevice S k deviceName d = added
      obtain ⟨posted, _ | ⟨⟨⟩⟩⟩ := added
      · rfl
      · dsimp only
        split <;> rfl

theorem handleDeviceConnection_posted_iff (hL : L.Standard) (hD : D.Standard)
    (publicKey : List Char) {body : Json} :
    (handleDeviceConnection D S publicKey d).posted = some body
      ↔ ∃ k, d.Registers S k body ∧ publicKey = deviceCode L k := by
  cases hname : d.deviceName with
  | none =>
    refine iff_of_false (fun h => ?_) ?_
    · unfold handleDeviceConnection at h
      rw [hname] at h
      cases h
    · rintro ⟨k, ⟨_, _, _, hname', _⟩, _⟩
      cases hname.symm.trans hname'
  | some deviceName =>
    rw [handleDeviceConnection_posted hname, Option.bind_eq_some_iff]
    refine exists_congr fun k => ?_
    rw [decoded_iff hL hD, addTrustedDevice_posted_iff hname, and_comm]

/-- **What is typed**, spaces around it aside. -/
theorem onAuthVerifyClicked_posted_iff (hL : L.Standard) (hD : D.Standard)
    (authCodeInput : List Char) {body : Json} :
    (onAuthVerifyClicked D S authCodeInput d).posted = some body
      ↔ ∃ k, d.Registers S k body ∧ trimmed authCodeInput = deviceCode L k := by
  rw [onAuthVerifyClicked]
  split
  · rename_i hlen
    refine iff_of_false (fun h => by cases h) ?_
    rintro ⟨k, -, hcode⟩
    exact hlen (hcode ▸ qtLength_deviceCode hL k)
  · exact handleDeviceConnection_posted_iff hL hD _

theorem isValidQRCodeData_of_processFrames {frames : List Frame} {text : List UInt8}
    (h : (processFrames frames).2 = some text) : isValidQRCodeData text = true := by
  induction frames using processFrames.induct with
  | case1 => cases h
  | case2 frames ih => exact ih h
  | case3 frames ih => exact ih h
  | case4 frames ih => exact ih h
  | case5 frames => cases h
  | case6 decodedInfo points frames hvalid =>
    rw [processFrames, if_pos hvalid] at h
    obtain rfl := Option.some.inj h
    exact hvalid.2.2
  | case7 decodedInfo points frames hinvalid ih =>
    rw [processFrames, if_neg hinvalid] at h
    exact ih h

/-- What is scanned is in ASCII. -/
theorem lt_of_isValidQRCodeData {text : List UInt8} (h : isValidQRCodeData text = true) :
    ∀ b ∈ text, b.toNat < 128 := by
  have hall : ∀ n < 256, (isAlnum (UInt8.ofNat n) || UInt8.ofNat n = 43 || UInt8.ofNat n = 47
      || UInt8.ofNat n = 61) = true → n < 128 := by decide +kernel
  rw [isValidQRCodeData] at h
  split at h
  · cases h
  · intro b hb
    have hchar := List.all_eq_true.mp h b hb
    have hlt := hall b.toNat b.toNat_lt
    rw [UInt8.ofNat_toNat] at hlt
    exact hlt hchar

/-- **What is scanned.** -/
theorem showScanDialog_posted_iff (hL : L.Standard) (hD : D.Standard)
    (camera : Option (List Frame)) {body : Json} :
    (showScanDialog D S camera d).posted = some body
      ↔ ∃ k, d.Registers S k body ∧ scanned camera = some (bin2base64 L k.1) := by
  have hnothing : scanned camera = none →
      ¬ ∃ k, d.Registers S k body ∧ scanned camera = some (bin2base64 L k.1) := by
    rintro hnone ⟨k, -, hk⟩
    cases hnone.symm.trans hk
  cases camera with
  | none => exact iff_of_false (fun h => by cases h) (hnothing rfl)
  | some frames =>
    rw [scanned, Option.bind_some] at hnothing ⊢
    cases hframes : (processFrames frames).2 with
    | none =>
      rw [hframes] at hnothing
      refine iff_of_false (fun h => ?_) (hnothing rfl)
      rw [showScanDialog] at h
      split at h
      · cases h
      · rename_i hsome
        rw [hsome] at hframes
        cases hframes
    | some text =>
      have hposted : (showScanDialog D S (some frames) d).posted
          = (handleDeviceConnection D S (fromStdString text) d).posted := by
        rw [showScanDialog]
        split
        · rename_i hnone
          rw [hnone] at hframes
          cases hframes
        · rename_i hsome
          rw [hsome] at hframes
          obtain rfl := Option.some.inj hframes
          rfl
      rw [hposted, handleDeviceConnection_posted_iff hL hD]
      refine exists_congr fun k => and_congr_right fun _ => ?_
      have htext := lt_of_isValidQRCodeData (isValidQRCodeData_of_processFrames hframes)
      rw [Option.some_inj, deviceCode]
      refine ⟨fun h => ?_, fun h => h ▸ rfl⟩
      have hcode := lt_of_mem_encode k.1
      rw [← bin2base64_eq hL] at hcode
      have hbytes := congrArg toStdString h
      rwa [toStdString_fromStdString htext, toStdString_fromStdString hcode] at hbytes

/-- **A code that is shown to the camera is scanned**, after frames after which
the scan goes on. -/
theorem scanned_deviceCode (hL : L.Standard) {before : List Frame}
    (hbefore : ∀ frame ∈ before, frame.passes = true) (k : Key) (after : List Frame) :
    scanned (some (before ++ .decoded (bin2base64 L k.1) 4 :: after))
      = some (bin2base64 L k.1) := by
  rw [scanned, Option.bind_some]
  induction before with
  | nil =>
    have hlen := length_bin2base64 hL k
    have hne : bin2base64 L k.1 ≠ [] := by
      intro hnil
      rw [hnil] at hlen
      cases hlen
    rw [List.nil_append, processFrames, if_pos ⟨hne, rfl, isValidQRCodeData_bin2base64 hL k⟩]
  | cons frame before ih =>
    have hrest := ih fun frame hmem => hbefore frame (List.mem_cons_of_mem _ hmem)
    have hframe := hbefore frame List.mem_cons_self
    rw [List.cons_append]
    cases frame with
    | empty => exact hrest
    | exception => exact hrest
    | cvException reopened =>
      cases reopened with
      | true => exact hrest
      | false => cases hframe
    | decoded decodedInfo points =>
      rw [processFrames, if_neg]
      · exact hrest
      · rintro ⟨hne, rfl, hvalid⟩
        simp [Frame.passes, hne, hvalid] at hframe

end Posted

/-- **What a new device shows** is the code of the key it has drawn, and the
image of that. -/
theorem setupDeviceRegistration_eq_ok_iff {L : Base64Library} (hL : L.Standard) {Image : Type}
    {r : RegistrationDraws Key Image} {authCode : List UInt8} {qrCode : Image} {k skDevice : Key} :
    setupDeviceRegistration L r = .ok (authCode, qrCode, k, skDevice)
      ↔ r.sodiumInit = true ∧ r.secured = .ok () ∧ r.keypair = (k, skDevice)
        ∧ authCode = bin2base64 L k.1 ∧ r.qrCode authCode = some qrCode := by
  have hne : bin2base64 L r.keypair.1.1 ≠ [] := by
    intro hnil
    have hlen := length_bin2base64 hL r.keypair.1
    rw [hnil] at hlen
    cases hlen
  unfold setupDeviceRegistration
  cases hinit : r.sodiumInit with
  | false => exact iff_of_false (fun h => by cases h) fun h => by cases h.1
  | true =>
    rw [if_neg (not_not_intro rfl)]
    cases hsecured : r.secured with
    | error e => exact iff_of_false (fun h => by cases h) fun h => by cases h.2.1
    | ok _ =>
      simp only [if_neg hne]
      constructor
      · intro h
        split at h
        · cases h
        · rename_i hcode
          obtain ⟨rfl, hrest⟩ := Prod.mk.inj (Except.ok.inj h)
          obtain ⟨rfl, hpair⟩ := Prod.mk.inj hrest
          exact ⟨trivial, trivial, hpair, by rw [hpair], hcode⟩
      · rintro ⟨-, -, hpair, rfl, hcode⟩
        rw [hpair, hcode]

/-- **The code of a device is the only text its key is registered for**: a new
device shows the code of the key it has drawn, in four fields that make it up
and in an image a scan finds it in, and a registration is posted for a key,
signed by the identity key, exactly if the request is agreed to, libsodium
starts, the identity key can be read, and the text, trimmed where it is typed,
is the code of the key. -/
theorem registers_iff_code {L : Base64Library} (hL : L.Standard) {D : Base64Decoder}
    (hD : D.Standard) (S : Sodium Key) (d : ConnectionDraws) (body : Json) :
    (∀ (Image : Type) (r : RegistrationDraws Key Image) authCode qrCode k skDevice,
        setupDeviceRegistration L r = .ok (authCode, qrCode, k, skDevice) →
        r.keypair = (k, skDevice) ∧ (displayAuthCode authCode).flatten = deviceCode L k
          ∧ r.qrCode (bin2base64 L k.1) = some qrCode)
      ∧ (∀ k, (displayAuthCode (bin2base64 L k.1)).flatten = deviceCode L k
        ∧ ∀ before after, (∀ frame ∈ before, frame.passes = true) →
          scanned (some (before ++ .decoded (bin2base64 L k.1) 4 :: after))
            = some (bin2base64 L k.1))
      ∧ Function.Injective (deviceCode L)
      ∧ (∀ authCodeInput, (onAuthVerifyClicked D S authCodeInput d).posted = some body
        ↔ ∃ k, d.Registers S k body ∧ trimmed authCodeInput = deviceCode L k)
      ∧ ∀ camera, (showScanDialog D S camera d).posted = some body
        ↔ ∃ k, d.Registers S k body ∧ scanned camera = some (bin2base64 L k.1) := by
  refine ⟨fun Image r authCode qrCode k skDevice h => ?_, fun k => ⟨flatten_displayAuthCode _, ?_⟩,
    deviceCode_injective hL,
    fun authCodeInput => onAuthVerifyClicked_posted_iff hL hD authCodeInput,
    fun camera => showScanDialog_posted_iff hL hD camera⟩
  · obtain ⟨-, -, hpair, rfl, hcode⟩ := (setupDeviceRegistration_eq_ok_iff hL).mp h
    exact ⟨hpair, flatten_displayAuthCode _, hcode⟩
  · exact fun _ after hbefore => scanned_deviceCode hL hbefore k after

/-! ### A device with a key of sevens -/

/-- A decoder that does as documented. -/
def Base64Decoder.reference : Base64Decoder where
  sodiumBase642bin text maxlen := (Base64.decode text).filter (·.length ≤ maxlen)

theorem Base64Decoder.standard_reference : Base64Decoder.reference.Standard := fun _ _ => rfl

/-- A request that is agreed to, and a post that is answered. -/
def ConnectionDraws.agreed (deviceName : String) (identity : Key × Key) : ConnectionDraws where
  deviceName := some deviceName
  sodiumInit := true
  identity := .ok identity
  posted := .ok ()
  devices := .ok [deviceName]

/-- Typed with a space before it, the code of a key of sevens registers it. -/
theorem registers_iff_code_sevens :
    (onAuthVerifyClicked Base64Decoder.reference Sodium.bytes
        (' ' :: deviceCode Base64Library.reference (Key.repeated 7))
        (.agreed "Laptop" (.repeated 1, .repeated 2))).posted
      = some (registerDeviceBody (.repeated 1) (.repeated 7)
          (Sodium.bytes.signDetached (.repeated 2) (.repeated 7)) "Laptop") := by
  obtain ⟨-, -, -, htyped, -⟩ := registers_iff_code Base64Library.standard_reference
    Base64Decoder.standard_reference Sodium.bytes
    (.agreed "Laptop" (.repeated 1, .repeated 2))
    (registerDeviceBody (.repeated 1) (.repeated 7)
      (Sodium.bytes.signDetached (.repeated 2) (.repeated 7)) "Laptop")
  exact (htyped _).mpr ⟨.repeated 7, ⟨"Laptop", .repeated 1, .repeated 2, rfl, rfl, rfl, rfl⟩,
    by decide⟩
