import Eastwood.Accounts
import Eastwood.FileListing
import Eastwood.HttpResponse
import Eastwood.Signing

/-!
# Logging out

`logout` asks the server first, and clears what the process holds – the
connection, the KEK, the session token – when it has been answered. The
request is signed with the device key and carries the token, needs a
connection, and takes an error status for a failure: on every one of these
ways it throws, and nothing is cleared.

So what is cleared afterwards is everything, if the request returned, and
nothing, if it threw (`clears_iff`).
-/

/-! ## The process -/

/-- `SessionTokenManager`. -/
structure SessionTokenManager where
  token : List Char
  hasToken : Bool
  deriving DecidableEq

namespace SessionTokenManager

/-- `SessionTokenManager::getToken`. -/
def getToken (t : SessionTokenManager) : Except Fault (List Char) :=
  if t.hasToken then .ok t.token else .error (.runtimeError "Session token not set")

/-- A token that was cleared. -/
def cleared : SessionTokenManager := ⟨[], false⟩

end SessionTokenManager

/-- **A process** on its machine, with its session token. -/
structure Process where
  machine : Machine Key
  tokens : SessionTokenManager

/-- How a request ends that does not return. The last is `throw;` where there
is nothing to throw again, which ends the process. -/
inductive RequestFault where
  | fault (what : Fault)
  | httpError (e : HttpError)
  | terminated
  deriving DecidableEq

/-- A call on a process. -/
abbrev ProcessM := Throwing Process RequestFault

namespace Process

/-- A call that concerns the machine alone. -/
def onMachine {α : Type} (m : AccountM Key α) : Throwing Process Fault α := fun p =>
  ((m p.machine).1, { p with machine := (m p.machine).2 })

/-- `KekManager::unload`. -/
def unloadKek : AccountM Key Unit := Throwing.modify fun m => { m with kek := none }

/-- `SessionTokenManager::clearToken`. -/
def clearToken : ProcessM Unit := Throwing.modify fun p => { p with tokens := .cleared }

/-! ## Requests -/

/-- **How an exchange with the server goes**: whether there is a socket, a
handshake and a certificate to be trusted, and what is received. -/
structure Exchange where
  socket : Bool
  handshake : Bool
  verified : Bool
  received : List Char

/-- **`HTTPSClient::get`**: what keeps it from an answer is the answer. -/
def Exchange.response (x : Exchange) : List Char :=
  if x.socket = false then "Socket connection closed / lost".toList
  else if x.handshake = false then "TLS handshake failed".toList
  else if x.verified = false then "Certificate verification failed".toList
  else x.received

/-- What a `get` draws and meets. -/
structure Request where
  apiHost : Except Fault (List Char)
  nonce : RequestNonce
  context : Except Fault Unit
  exchange : Exchange

variable {S : Sodium Key} (sig : DetachedSignature S) (C : AccountCrypto Key)
  (parse : List Char → Except ParseFault Json)

/-- `pk_device_hex`. -/
def pkDeviceHex : AccountM Key String := do
  let row ← getEncryptedKeypair "device"
  return bin2hex row.publicKey.1

/-- `sign_nonce`. -/
def signNonce (nonce : RequestNonce) : AccountM Key String := do
  let keypair ← getDecryptedKeypair C "device"
  return bin2hex (sig.sign keypair.2 nonce.1)

/-- A line for each header. -/
def headerString (headers : List (String × List Char)) : List Char :=
  headers.flatMap fun (key, value) => key.toList ++ ": ".toList ++ value ++ "\r\n".toList

/-- **`generate_get_headers`**, in the order a map has them in. -/
def generateGetHeaders (nonce : RequestNonce) : Throwing Process Fault (List Char) := do
  let devicePublic ← onMachine pkDeviceHex
  let signature ← onMachine (signNonce sig C nonce)
  let sessionToken ← Throwing.reads fun p => p.tokens.getToken
  return headerString [("device_public", devicePublic.toList), ("nonce", (bin2hex nonce.1).toList),
    ("session_token", sessionToken), ("signature", signature.toList)]

/-- A request to a host. -/
def request (d : Request) : ProcessM Json := do
  let _ ← (generateGetHeaders sig C d.nonce).mapError .fault
  Throwing.answer (d.context.mapError .fault)
  Throwing.answer ((handleResponse parse d.exchange.response).mapError .httpError)

/-- **`get`**, which does not depend on what is sent beyond that it can be
put together. -/
def get (d : Request) : ProcessM Json := fun p =>
  match d.apiHost with
  | .error e => (.error (.fault e), p)
  | .ok [] => (.error .terminated, p)
  | .ok _ => request sig C parse d p

/-- **`logout`.** -/
def logout (d : Request) : ProcessM Unit := do
  let _ ← get sig C parse d
  (onMachine closeDatabase).mapError .fault
  (onMachine unloadKek).mapError .fault
  clearToken

/-! ## When a request returns -/

section Returns

variable {C} {parse} {m : Machine Key} {p : Process} {d : Request}

/-- **The device's key pair is there** and opens under the KEK. -/
def HoldsDevice (C : AccountCrypto Key) (m : Machine Key) : Prop :=
  ∃ t row kek, m.tables = .ok t ∧ t.keypairs.lookup "device" = some row ∧ m.kek = some kek
    ∧ (C.aead.decrypt row.encryptedPrivateKey.nonce row.encryptedPrivateKey.ciphertext kek).isSome

theorem getEncryptedKeypair_eq_ok {label : String} {row : KeypairRow Key} :
    (getEncryptedKeypair label m).1 = .ok row
      ↔ ∃ t, m.tables = .ok t ∧ t.keypairs.lookup label = some row := by
  show m.tables.bind _ = .ok row ↔ _
  cases m.tables with
  | error e => exact iff_of_false nofun nofun
  | ok t =>
    show orThrow _ (t.keypairs.lookup label) = .ok row ↔ _
    cases hrow : t.keypairs.lookup label with
    | none =>
      refine iff_of_false nofun ?_
      rintro ⟨t', ht', hrow'⟩
      obtain rfl := Except.ok.inj ht'
      cases hrow.symm.trans hrow'
    | some row' =>
      constructor
      · intro h
        obtain rfl := Except.ok.inj h
        exact ⟨t, rfl, hrow⟩
      · rintro ⟨t', ht', hrow'⟩
        obtain rfl := Except.ok.inj ht'
        exact congrArg Except.ok (Option.some.inj (hrow.symm.trans hrow'))

theorem readsOnly_getEncryptedKeypair (label : String) :
    Throwing.ReadsWithin Eq (getEncryptedKeypair label : AccountM Key _) :=
  Throwing.ReadsWithin.reads fun _ _ h => h ▸ rfl

theorem readsOnly_getDecryptedKeypair (label : String) :
    Throwing.ReadsWithin Eq (getDecryptedKeypair C label) :=
  (readsOnly_getEncryptedKeypair label).bind fun _ =>
    (Throwing.ReadsWithin.reads fun _ _ h => h ▸ rfl).bind fun _ =>
      (Throwing.ReadsWithin.answer _).bind fun _ => Throwing.ReadsWithin.pure _

/-- A key pair is decrypted if its row opens under the KEK. -/
theorem isOk_getDecryptedKeypair : (getDecryptedKeypair C "device" m).1.isOk ↔ HoldsDevice C m := by
  have hkek : Throwing.ReadsWithin Eq (getKek : AccountM Key Key) :=
    Throwing.ReadsWithin.reads fun _ _ h => h ▸ rfl
  have hopens : ∀ (e : EncryptedKey) kek,
      (C.decryptKey "Failed to decrypt secret key" e kek).isOk
        ↔ (C.aead.decrypt e.nonce e.ciphertext kek).isSome := by
    intro e kek
    unfold AccountCrypto.decryptKey
    cases C.aead.decrypt e.nonce e.ciphertext kek <;> exact Iff.rfl
  have hloaded : ∀ kek, (getKek m).1 = .ok kek ↔ m.kek = some kek := by
    intro kek
    show orThrow _ m.kek = .ok kek ↔ _
    cases m.kek with
    | none => exact iff_of_false nofun nofun
    | some _ =>
      exact ⟨fun h => congrArg some (Except.ok.inj h),
        fun h => congrArg Except.ok (Option.some.inj h)⟩
  unfold getDecryptedKeypair
  rw [(readsOnly_getEncryptedKeypair _).isOk_bind]
  simp only [getEncryptedKeypair_eq_ok, hkek.isOk_bind, Throwing.isOk_bind_pure, hloaded]
  simp only [Throwing.answer, hopens]
  constructor
  · rintro ⟨row, ⟨t, ht, hrow⟩, kek, hkek, hopen⟩
    exact ⟨t, row, kek, ht, hrow, hkek, hopen⟩
  · rintro ⟨t, row, kek, ht, hrow, hkek, hopen⟩
    exact ⟨row, ⟨t, ht, hrow⟩, kek, hkek, hopen⟩

/-- What the machine reads, the process reads. -/
theorem readsOnly_onMachine {α : Type} {m : AccountM Key α} (h : Throwing.ReadsWithin Eq m) :
    Throwing.ReadsWithin Eq (onMachine m) :=
  ⟨fun p => by rw [onMachine, h.1], fun _ _ h => h ▸ rfl⟩

theorem readsOnly_pkDeviceHex : Throwing.ReadsWithin Eq (onMachine pkDeviceHex) :=
  readsOnly_onMachine ((readsOnly_getEncryptedKeypair _).bind fun _ => Throwing.ReadsWithin.pure _)

theorem readsOnly_signNonce (nonce : RequestNonce) :
    Throwing.ReadsWithin Eq (onMachine (signNonce sig C nonce)) :=
  readsOnly_onMachine ((readsOnly_getDecryptedKeypair _).bind fun _ => Throwing.ReadsWithin.pure _)

theorem readsOnly_generateGetHeaders (nonce : RequestNonce) :
    Throwing.ReadsWithin Eq (generateGetHeaders sig C nonce) :=
  readsOnly_pkDeviceHex.bind fun _ => (readsOnly_signNonce sig nonce).bind fun _ =>
    (Throwing.ReadsWithin.reads fun _ _ h => h ▸ rfl).bind fun _ => Throwing.ReadsWithin.pure _

/-- **The headers can be put together** if the key pair is there and there is
a token. -/
theorem isOk_generateGetHeaders (nonce : RequestNonce) :
    (generateGetHeaders sig C nonce p).1.isOk
      ↔ HoldsDevice C p.machine ∧ p.tokens.hasToken = true := by
  have htoken : p.tokens.getToken.isOk ↔ p.tokens.hasToken = true := by
    unfold SessionTokenManager.getToken
    cases p.tokens.hasToken <;> exact Iff.rfl
  have hsigned : ((onMachine (signNonce sig C nonce)) p).1.isOk ↔ HoldsDevice C p.machine :=
    (Throwing.isOk_bind_pure _).trans isOk_getDecryptedKeypair
  unfold generateGetHeaders
  rw [readsOnly_pkDeviceHex.isOk_bind]
  simp only [(readsOnly_signNonce sig nonce).isOk_bind, Throwing.isOk_bind_pure]
  constructor
  · rintro ⟨pk, -, signature, hsignature, ht⟩
    exact ⟨hsigned.mp (hsignature ▸ rfl), htoken.mp ht⟩
  · rintro ⟨hdevice, ht⟩
    obtain ⟨signature, hsignature⟩ := exists_of_isOk (hsigned.mpr hdevice)
    obtain ⟨t, row, -, htables, hrow, -⟩ := hdevice
    have hpk : ((onMachine pkDeviceHex) p).1.isOk := by
      have hok : (pkDeviceHex p.machine).1.isOk := by
        refine (Throwing.isOk_bind_pure _).mpr ?_
        rw [getEncryptedKeypair_eq_ok.mpr ⟨t, htables, hrow⟩]
        rfl
      exact hok
    obtain ⟨pk, hpk⟩ := exists_of_isOk hpk
    exact ⟨pk, hpk, signature, hsignature, htoken.mpr ht⟩

/-- What keeps a request from an answer has no line. -/
theorem Exchange.accepted_response {x : Exchange} : Accepted parse x.response
    ↔ x.socket = true ∧ x.handshake = true ∧ x.verified = true ∧ Accepted parse x.received := by
  have hline : ∀ {message : String}, '\n' ∉ message.toList → ¬ Accepted parse message.toList :=
    fun h haccepted => h haccepted.line
  unfold response
  cases x.socket with
  | false => exact iff_of_false (hline (by decide)) nofun
  | true =>
    cases x.handshake with
    | false => exact iff_of_false (hline (by decide)) nofun
    | true =>
      cases x.verified with
      | false => exact iff_of_false (hline (by decide)) nofun
      | true => simp

/-- **A request that is answered**: there is a host to ask, the process can
sign and has a token, the connection is made, and the reply is accepted. -/
structure Request.Answered (C : AccountCrypto Key) (parse : List Char → Except ParseFault Json)
    (d : Request) (p : Process) : Prop where
  host : ∃ host, d.apiHost = .ok host ∧ host ≠ []
  device : HoldsDevice C p.machine
  token : p.tokens.hasToken = true
  context : d.context = .ok ()
  connected : d.exchange.socket = true ∧ d.exchange.handshake = true ∧ d.exchange.verified = true
  accepted : Accepted parse d.exchange.received

theorem readsOnly_request : Throwing.ReadsWithin Eq (request sig C parse d) :=
  ((readsOnly_generateGetHeaders sig _).mapError _).bind fun _ =>
    (Throwing.ReadsWithin.answer _).bind fun _ => Throwing.ReadsWithin.answer _

/-- Nothing but the process is asked for, -/
theorem get_snd : (get sig C parse d p).2 = p := by
  unfold get
  split
  · rfl
  · rfl
  · exact (readsOnly_request sig).1 p

theorem isOk_mapError {α ε ε' : Type} {f : ε → ε'} {x : Except ε α} :
    (x.mapError f).isOk ↔ x.isOk := by
  cases x <;> exact Iff.rfl

/-- A request to a host returns if it can be sent and its reply is accepted. -/
theorem isOk_request : (request sig C parse d p).1.isOk
    ↔ (HoldsDevice C p.machine ∧ p.tokens.hasToken = true) ∧ d.context = .ok ()
      ∧ Accepted parse d.exchange.response := by
  have hheaders := (readsOnly_generateGetHeaders sig (C := C) d.nonce).mapError RequestFault.fault
  have hcontext := Throwing.ReadsWithin.answer (σ := Process) (R := Eq)
    (d.context.mapError RequestFault.fault)
  have hreturned : d.context.isOk ↔ d.context = .ok () := by
    cases d.context with
    | error e => exact iff_of_false Bool.false_ne_true nofun
    | ok => exact iff_of_true rfl rfl
  unfold request
  rw [hheaders.isOk_bind_const, hcontext.isOk_bind_const, ← hreturned,
    ← isOk_generateGetHeaders sig d.nonce, ← handleResponse_isOk_iff]
  exact and_congr isOk_mapError (and_congr isOk_mapError isOk_mapError)

/-- and what it throws does not end the process. -/
theorem request_throwsOnly : Throwing.ThrowsOnly (· ≠ .terminated) (request sig C parse d) :=
  (Throwing.ThrowsOnly.mapError _ fun _ => nofun).bind fun _ =>
    (Throwing.ThrowsOnly.mapError (Throwing.answer d.context) fun _ => nofun).bind fun _ =>
      Throwing.ThrowsOnly.mapError
        (Throwing.answer (handleResponse parse d.exchange.response)) fun _ => nofun

/-- **A request returns exactly if it is answered.** -/
theorem isOk_get : (get sig C parse d p).1.isOk ↔ d.Answered C parse p := by
  unfold get
  split
  · rename_i e he
    refine iff_of_false Bool.false_ne_true fun h => ?_
    obtain ⟨host, hhost, -⟩ := h.host
    cases he.symm.trans hhost
  · rename_i he
    refine iff_of_false Bool.false_ne_true fun h => ?_
    obtain ⟨host, hhost, hne⟩ := h.host
    exact hne (Except.ok.inj (hhost.symm.trans he))
  · rename_i host hne hhost
    rw [isOk_request, Exchange.accepted_response]
    constructor
    · rintro ⟨⟨hdevice, htoken⟩, hcontext, hsocket, hhandshake, hverified, haccepted⟩
      exact ⟨⟨host, hhost, hne⟩, hdevice, htoken, hcontext, ⟨hsocket, hhandshake, hverified⟩,
        haccepted⟩
    · intro h
      exact ⟨⟨h.device, h.token⟩, h.context, h.connected.1, h.connected.2.1, h.connected.2.2,
        h.accepted⟩

/-- It ends the process exactly if there is no host. -/
theorem get_terminated : (get sig C parse d p).1 = .error .terminated ↔ d.apiHost = .ok [] := by
  unfold get
  split
  · rename_i he
    rw [he]
    exact iff_of_false nofun nofun
  · rename_i he
    exact iff_of_true rfl he
  · rename_i host hne hhost
    refine iff_of_false (fun h => request_throwsOnly sig p _ h rfl) fun h => ?_
    exact hne (Except.ok.inj (hhost.symm.trans h))

end Returns

/-! ## What is cleared -/

section Cleared

variable {p : Process} {d : Request}

/-- **Nothing secret is held**: the database is closed, the KEK is unloaded,
the token is cleared. -/
structure Cleared (p : Process) : Prop where
  connection : p.machine.connection = none
  kek : p.machine.kek = none
  tokens : p.tokens = .cleared

/-- What a process is after a logout that returned. -/
def loggedOut (p : Process) : Process :=
  ⟨{ p.machine with connection := none, kek := none }, .cleared⟩

theorem cleared_loggedOut : p.loggedOut.Cleared := ⟨rfl, rfl, rfl⟩

/-- **A logout** clears everything, if its request returns, and throws what
that throws without having done anything, if not. -/
theorem logout_cases (d : Request) (p : Process) :
    (∃ j, (get sig C parse d p).1 = .ok j ∧ logout sig C parse d p = (.ok (), p.loggedOut))
      ∨ ∃ e, (get sig C parse d p).1 = .error e ∧ logout sig C parse d p = (.error e, p) := by
  unfold logout
  obtain ⟨e, s, hget, hbind⟩ | ⟨j, s, hget, hbind⟩ := Throwing.bind_cases (get sig C parse d)
    (fun _ => do
      (onMachine closeDatabase).mapError .fault
      (onMachine unloadKek).mapError .fault
      clearToken) p
  · obtain rfl : s = p := (congrArg Prod.snd hget).symm.trans (get_snd sig)
    exact Or.inr ⟨e, congrArg Prod.fst hget, hbind⟩
  · obtain rfl : s = p := (congrArg Prod.snd hget).symm.trans (get_snd sig)
    exact Or.inl ⟨j, congrArg Prod.fst hget, hbind⟩

/-- **What a logout clears**: unless it ends the process, everything is clear
after it exactly if the request was answered – or if everything was before. -/
theorem clears_iff {S : Sodium Key} (sig : DetachedSignature S) (C : AccountCrypto Key)
    (parse : List Char → Except ParseFault Json) (d : Request) (p : Process) :
    ((logout sig C parse d p).1 ≠ .error .terminated → (logout sig C parse d p).2.Cleared)
      ↔ d.apiHost = .ok [] ∨ d.Answered C parse p ∨ p.Cleared := by
  rw [← get_terminated sig (C := C) (p := p), ← isOk_get sig]
  obtain ⟨j, hget, hlogout⟩ | ⟨e, hget, hlogout⟩ := logout_cases sig C parse d p
  · rw [hlogout, hget]
    exact iff_of_true (fun _ => cleared_loggedOut) (Or.inr (Or.inl rfl))
  · rw [hlogout, hget]
    constructor
    · intro h
      by_cases he : e = .terminated
      · exact Or.inl (he ▸ rfl)
      · exact Or.inr (Or.inr (h fun h => he (Except.error.inj h)))
    · rintro (h | h | h)
      · exact fun hne => (hne (congrArg Except.error (Except.error.inj h))).elim
      · cases h
      · exact fun _ => h

end Cleared

end Process

/-- So it is the logout of accounts, given that answer. -/
theorem logout_of_process {S : Sodium Key} (sig : DetachedSignature S) (C : AccountCrypto Key)
    (parse : List Char → Except ParseFault Json) (d : Process.Request) (p : Process) :
    ∃ answered, (answered.isOk ↔ d.Answered C parse p)
      ∧ (Process.logout sig C parse d p).2.machine = (logout answered p.machine).2 := by
  rw [← Process.isOk_get sig]
  obtain ⟨j, hget, hlogout⟩ | ⟨e, hget, hlogout⟩ := Process.logout_cases sig C parse d p
  · rw [hlogout, hget]
    exact ⟨.ok (), iff_of_true rfl rfl, rfl⟩
  · rw [hlogout, hget]
    exact ⟨.error .typeError, iff_of_false Bool.false_ne_true Bool.false_ne_true, rfl⟩

/-! ## Logouts of one process -/

namespace Process

/-- Keys that are labels of what they encrypt, and passwords that do not
matter. -/
def crypto : AccountCrypto Key := ⟨.labelled, .array, fun _ _ => .repeated 9⟩

/-- Alice's tables: the pair of her device, under the KEK. -/
def tables : Tables Key :=
  { Tables.empty with
    keypairs := (∅ : Finmap fun _ : String => KeypairRow Key).insert "device"
      ⟨.repeated 5, crypto.encryptKey [1] (.repeated 5) (.repeated 8), 0⟩ }

/-- Alice is logged in. -/
def alice : Process where
  machine :=
    { dataPath := ["data".toList]
      disk := fun _ => ⟨none, some ⟨.repeated 9, some tables⟩⟩
      connection := some ("alice", .repeated 9)
      kek := some (.repeated 8)
      ratchets := ∅ }
  tokens := ⟨['t'], true⟩

/-- A `/logout`, given the exchange. -/
def logoutRequest (x : Exchange) : Request where
  apiHost := .ok ['h']
  nonce := ⟨List.replicate 24 0, List.length_replicate⟩
  context := .ok ()
  exchange := x

/-- The server cannot be reached. -/
def unreachable : Exchange := ⟨false, false, false, []⟩

/-- The token has expired. -/
def expired : Exchange :=
  ⟨true, true, true, "HTTP/1.1 401 Unauthorized\r\n\r\n{}".toList⟩

def accepted : Exchange := ⟨true, true, true, "HTTP/1.1 200 OK\r\n\r\n{}".toList⟩

/-- Her logout, where no body is JSON. -/
def aliceOut (x : Exchange) : Except RequestFault Unit × Process :=
  logout DetachedSignature.bytes crypto (fun _ => .error .parseError) (logoutRequest x) alice

example : (aliceOut accepted).1.isOk ∧ (aliceOut accepted).2.machine.kek = none := by
  decide +kernel

/-- **Where nothing is cleared**: without a connection, or with a token the
server no longer takes, the logout throws, and she remains logged in. -/
theorem not_clears_alice :
    (aliceOut unreachable).1
        = .error (.httpError ⟨"Socket connection closed / lost".toList, 0⟩)
      ∧ ¬ (aliceOut unreachable).2.Cleared
      ∧ (aliceOut expired).1 = .error (.httpError ⟨['{', '}'], 401⟩)
      ∧ ¬ (aliceOut expired).2.Cleared := by
  have hkek : ∀ x ∈ [unreachable, expired], (aliceOut x).2.machine.kek = some (.repeated 8) := by
    decide +kernel
  refine ⟨by decide +kernel, fun hcleared => ?_, by decide +kernel, fun hcleared => ?_⟩
  · cases (hkek unreachable (by simp)).symm.trans hcleared.kek
  · cases (hkek expired (by simp)).symm.trans hcleared.kek

end Process
