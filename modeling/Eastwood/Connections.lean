import Eastwood.HttpRequest
import Eastwood.LocalActions

/-!
# Connections

Every request has a connection of its own. It opens a socket, of the addresses
of its host the first that can be connected to, a TLS session over it, checks
the certificate for that host, writes its text, reads until there is no more,
and closes what it opened; where a step fails the answer is a line that says
so.

What a call may be made on is checked of all requests at once, in any order
their calls come in, with descriptors and sessions that are used again: no
call is made on a socket or a session that is closed or somebody else's,
nothing is written to or read from a session whose certificate was not
verified for the host the request names, and when all requests are answered
nothing is open (`requests_interleaved`).
-/

open LocalActions

namespace HTTPSClient

/-! ## Sockets and sessions -/

/-- What a request opens. -/
inductive Handle where
  | socket (fd : ℕ)
  | session (ssl : ℕ)
  deriving DecidableEq

/-- A TLS session: its descriptor, the server it names and the host its
certificate is checked for, how far it is, and whether anything was sent. -/
structure TlsSession where
  fd : Option ℕ
  serverName : Option (List Char)
  checkedHost : Option (List Char)
  connected : Bool
  verified : Bool
  sent : Bool
  deriving DecidableEq

/-- A socket, connected or not, or a session. -/
inductive HandleState where
  | socket (connected : Bool)
  | session (s : TlsSession)
  deriving DecidableEq

/-- **The calls a request makes**, each with what it is answered. -/
inductive Call where
  | socket (fd : ℕ)
  | connect (fd : ℕ) (succeeds : Bool)
  | close (fd : ℕ)
  | sslNew (ssl : ℕ)
  | sslSetFd (ssl fd : ℕ)
  | sslSetTlsextHostName (ssl : ℕ) (host : List Char)
  | sslSet1Host (ssl : ℕ) (host : List Char)
  | sslConnect (ssl : ℕ) (succeeds : Bool)
  | sslGetVerifyResult (ssl : ℕ) (ok : Bool)
  | sslWrite (ssl : ℕ) (text : List Char)
  | sslRead (ssl : ℕ) (chunk : List Char)
  | sslShutdown (ssl : ℕ)
  | sslFree (ssl : ℕ)

namespace Call

/-- A session that is there is set up. -/
def set (ssl : ℕ) (h : TlsSession → Option TlsSession) :
    Store Handle HandleState → Option (Store Handle HandleState) :=
  change (.session ssl) fun
    | .session s => (h s).map .session
    | .socket _ => none

/-- A session is used, the socket of which has to be open and connected. -/
def through (ssl : ℕ) (h : TlsSession → Option TlsSession) :
    Store Handle HandleState → Option (Store Handle HandleState) :=
  looking (.session ssl) fun
    | .session ⟨some fd, _, _, _, _, _⟩ => looking (.socket fd) fun
      | .socket true => set ssl h
      | _ => fun _ => none
    | _ => fun _ => none

/-- A request names the host the session was verified for. -/
def Names (text : List Char) (s : TlsSession) : Bool :=
  match s.checkedHost with
  | some host => s.verified && s.serverName = s.checkedHost
    && (find ("Host: ".toList ++ host ++ crlf) text).isSome
  | none => false

/-- **What a call does**; none, if it must not be made. -/
def act : Call → Store Handle HandleState → Option (Store Handle HandleState)
  | socket fd => acquire (.socket fd) (.socket false)
  | connect fd succeeds => change (.socket fd) fun
    | .socket false => some (.socket succeeds)
    | _ => none
  | close fd => release (.socket fd)
  | sslNew ssl => acquire (.session ssl) (.session ⟨none, none, none, false, false, false⟩)
  | sslSetFd ssl fd => looking (.socket fd) fun
    | .socket true => set ssl fun s => some { s with fd := some fd }
    | _ => fun _ => none
  | sslSetTlsextHostName ssl host => set ssl fun s => some { s with serverName := some host }
  | sslSet1Host ssl host => set ssl fun s => some { s with checkedHost := some host }
  | sslConnect ssl succeeds => through ssl fun s => some { s with connected := succeeds }
  | sslGetVerifyResult ssl ok => set ssl fun s =>
    if s.connected then some { s with verified := ok } else none
  | sslWrite ssl text => through ssl fun s =>
    if Names text s && !s.sent then some { s with sent := true } else none
  | sslRead ssl _ => through ssl fun s => if s.sent then some s else none
  | sslShutdown ssl => through ssl fun s => if s.connected then some s else none
  | sslFree ssl => release (.session ssl)

/-- What it acquires. -/
def new : Call → List Handle
  | socket fd => [.socket fd]
  | sslNew ssl => [.session ssl]
  | _ => []

end Call

/-! ## Requests -/

/-- **What a request meets**: the addresses of its host, if there are any, each
with the descriptor `socket` gives and whether `connect` succeeds, its session,
whether the handshake and the verification succeed, and what is read. -/
structure Answers where
  addresses : Option (List (Option ℕ × Bool))
  ssl : ℕ
  connected : Bool
  verified : Bool
  chunks : List (List Char)

/-- The loop of **`BaseClient::create_socket`.** -/
def tryAddresses : List (Option ℕ × Bool) → List Call × Option ℕ
  | [] => ([], none)
  | (none, _) :: rest => tryAddresses rest
  | (some fd, true) :: _ => ([.socket fd, .connect fd true], some fd)
  | (some fd, false) :: rest =>
    let (calls, found) := tryAddresses rest
    (.socket fd :: .connect fd false :: .close fd :: calls, found)

/-- **`BaseClient::create_socket`.** -/
def createSocket : Option (List (Option ℕ × Bool)) → List Call × Option ℕ
  -- `getaddrinfo failed`
  | none => ([], none)
  | some addresses => tryAddresses addresses

/-- What a session is set up with. -/
def handshake (host : List Char) (a : Answers) (fd : ℕ) : List Call :=
  [.sslNew a.ssl, .sslSetFd a.ssl fd, .sslSetTlsextHostName a.ssl host, .sslSet1Host a.ssl host,
    .sslConnect a.ssl a.connected]

/-- The calls of a request and what it returns. -/
def exchange (host request : List Char) (noSocket : String) (a : Answers) :
    List Call × List Char :=
  match createSocket a.addresses with
  | (calls, none) => (calls, noSocket.toList)
  | (calls, some fd) =>
    let calls := calls ++ handshake host a fd
    if !a.connected then
      (calls ++ [.sslFree a.ssl, .close fd], "TLS handshake failed".toList)
    else
      let calls := calls ++ [.sslGetVerifyResult a.ssl a.verified]
      if !a.verified then
        (calls ++ [.sslFree a.ssl, .close fd], "Certificate verification failed".toList)
      else
        let calls := calls ++ .sslWrite a.ssl request :: a.chunks.map (.sslRead a.ssl)
        (calls ++ [.sslRead a.ssl [], .sslShutdown a.ssl, .sslFree a.ssl, .close fd],
          a.chunks.flatten)

/-- A request; a port, if one is given, is for `getaddrinfo` alone. -/
inductive Request where
  | get (host path headers : List Char)
  | post (host path headers body : List Char)

namespace Request

/-- What it writes. -/
def text : Request → List Char
  | get host path headers => HTTPSClient.get host path headers
  | post host path headers body => HTTPSClient.post host path headers body

/-- **`HTTPSClient::get`** and **`HTTPSClient::post`.** -/
def exchange : Request → Answers → List Call × List Char
  | get host path headers => HTTPSClient.exchange host (HTTPSClient.get host path headers)
    "Socket connection closed / lost"
  | post host path headers body =>
    HTTPSClient.exchange host (HTTPSClient.post host path headers body) "Socket connection failed"

end Request

/-- What is handed to `SSL_write` by some calls. It may fail, which nobody
notices. -/
def written (calls : List Call) : List (List Char) :=
  calls.filterMap fun
    | .sslWrite _ text => some text
    | _ => none

/-- What a request returns that was not answered. -/
def failures : List String :=
  ["Socket connection closed / lost", "Socket connection failed", "TLS handshake failed",
    "Certificate verification failed"]

/-! ## Every call is local -/

namespace Call

theorem local_set {ssl : ℕ} {h : TlsSession → Option TlsSession} : Local [] (set ssl h) :=
  local_change

theorem local_through {ssl : ℕ} {h : TlsSession → Option TlsSession} :
    Local [] (through ssl h) := by
  refine Local.looking fun t => ?_
  split
  · refine Local.looking fun t => ?_
    split
    · exact local_set
    · exact local_none
  · exact local_none

theorem local_act (c : Call) : Local c.new c.act := by
  cases c with
  | socket fd => exact local_acquire
  | connect fd succeeds => exact local_change
  | close fd => exact local_release
  | sslNew ssl => exact local_acquire
  | sslSetFd ssl fd =>
    refine Local.looking fun t => ?_
    split
    · exact local_set
    · exact local_none
  | sslSetTlsextHostName ssl host => exact local_set
  | sslSet1Host ssl host => exact local_set
  | sslConnect ssl succeeds => exact local_through
  | sslGetVerifyResult ssl ok => exact local_set
  | sslWrite ssl text => exact local_through
  | sslRead ssl chunk => exact local_through
  | sslShutdown ssl => exact local_through
  | sslFree ssl => exact local_release

end Call

/-! ## A request alone -/

/-- A store that has a connected socket, and perhaps a session. -/
def holding (fd ssl : ℕ) (s : Option TlsSession) : Store Handle HandleState := fun
  | .socket fd' => if fd' = fd then some (.socket true) else none
  | .session ssl' => if ssl' = ssl then s.map .session else none

section Alone

variable {fd ssl : ℕ} {s : TlsSession} {h : TlsSession → Option TlsSession} {s' : TlsSession}

theorem holding_socket (s : Option TlsSession) :
    holding fd ssl s (.socket fd) = some (.socket true) := if_pos rfl

theorem holding_session (s : Option TlsSession) :
    holding fd ssl s (.session ssl) = s.map .session := if_pos rfl

theorem update_holding (s s' : Option TlsSession) :
    Function.update (holding fd ssl s) (.session ssl) (s'.map .session) = holding fd ssl s' := by
  funext r
  by_cases hr : r = .session ssl
  · rw [hr, Function.update_self, holding_session]
  · rw [Function.update_of_ne hr]
    cases r with
    | socket fd' => rfl
    | session ssl' =>
      have hne : ssl' ≠ ssl := fun heq => hr (congrArg _ heq)
      rw [holding, holding, if_neg hne, if_neg hne]

theorem Call.set_holding (hs : h s = some s') :
    Call.set ssl h (holding fd ssl (some s)) = some (holding fd ssl (some s')) := by
  have hsession : Option.map HandleState.session (h s) = some (.session s') :=
    congrArg (Option.map _) hs
  exact (change_of_some (holding_session (some s)) hsession).trans
    (congrArg some (update_holding (some s) (some s')))

theorem Call.through_holding (hfd : s.fd = some fd) (hs : h s = some s') :
    Call.through ssl h (holding fd ssl (some s)) = some (holding fd ssl (some s')) := by
  obtain ⟨_, serverName, checkedHost, connected, verified, sent⟩ := s
  obtain rfl := hfd
  refine (looking_of_some (holding_session (some _))).trans ?_
  exact (looking_of_some (holding_socket _)).trans (Call.set_holding hs)

/-- The store of a request that has a connected socket, or none. -/
def connectedTo (ssl : ℕ) : Option ℕ → Store Handle HandleState
  | none => fun _ => none
  | some fd => holding fd ssl none

/-- A socket is opened and connected, -/
theorem alone_connected (fd ssl : ℕ) :
    alone Call.act [.socket fd, .connect fd true] (fun _ => none)
      = some (holding fd ssl none) := by
  have hopened : holding fd ssl none
      = Function.update (fun _ => none) (.socket fd) (some (.socket true)) := by
    funext r
    by_cases hr : r = .socket fd
    · rw [hr, Function.update_self, holding_socket]
    · rw [Function.update_of_ne hr]
      cases r with
      | socket fd' => exact if_neg fun heq => hr (congrArg _ heq)
      | session ssl' => exact ite_self _
  rw [hopened]
  simp only [alone, Call.act, acquire, change, Option.isNone_none, if_true, Option.bind_some,
    Function.update_self, Option.map_some, Function.update_idem]

/-- or closed again. -/
theorem alone_closed (fd : ℕ) :
    alone Call.act [.socket fd, .connect fd false, .close fd] (fun _ => none)
      = some fun _ => none := by
  simp only [alone, Call.act, acquire, change, release, Option.isNone_none, if_true,
    Option.bind_some, Function.update_self, Option.map_some, Function.update_idem,
    Option.isSome_some]
  exact congrArg some (Function.update_eq_self _ _)

/-- The sockets that could not be connected are closed again. -/
theorem alone_tryAddresses (addresses : List (Option ℕ × Bool)) (ssl : ℕ) :
    alone Call.act (tryAddresses addresses).1 (fun _ => none)
      = some (connectedTo ssl (tryAddresses addresses).2) := by
  induction addresses with
  | nil => rfl
  | cons address rest ih =>
    obtain ⟨found, succeeds⟩ := address
    cases found with
    | none => exact ih
    | some fd =>
      cases succeeds with
      | true => exact alone_connected fd ssl
      | false =>
        change alone Call.act ([.socket fd, .connect fd false, .close fd]
          ++ (tryAddresses rest).1) _ = _
        rw [alone_append, alone_closed, Option.bind_some]
        exact ih

theorem alone_createSocket (addresses : Option (List (Option ℕ × Bool))) (ssl : ℕ) :
    alone Call.act (createSocket addresses).1 (fun _ => none)
      = some (connectedTo ssl (createSocket addresses).2) := by
  cases addresses with
  | none => rfl
  | some addresses => exact alone_tryAddresses addresses ssl

/-- A session that is set up for a host. -/
def setUp (fd : ℕ) (host : List Char) (a : Answers) : TlsSession :=
  ⟨some fd, some host, some host, a.connected, false, false⟩

theorem alone_cons {c : Call} {calls : List Call} {m m' : Store Handle HandleState}
    (h : c.act m = some m') : alone Call.act (c :: calls) m = alone Call.act calls m' := by
  rw [alone, h, Option.bind_some]

/-- The handshake is made over the socket that is connected. -/
theorem alone_handshake (host : List Char) (a : Answers) (fd : ℕ) :
    alone Call.act (handshake host a fd) (holding fd a.ssl none)
      = some (holding fd a.ssl (some (setUp fd host a))) := by
  have hnew : (Call.sslNew a.ssl).act (holding fd a.ssl none)
      = some (holding fd a.ssl (some ⟨none, none, none, false, false, false⟩)) :=
    (acquire_of_none (holding_session none)).trans (congrArg some (update_holding none (some _)))
  have hfd : (Call.sslSetFd a.ssl fd).act
      (holding fd a.ssl (some ⟨none, none, none, false, false, false⟩))
      = some (holding fd a.ssl (some ⟨some fd, none, none, false, false, false⟩)) :=
    (looking_of_some (holding_socket _)).trans (Call.set_holding rfl)
  have hname : (Call.sslSetTlsextHostName a.ssl host).act
      (holding fd a.ssl (some ⟨some fd, none, none, false, false, false⟩))
      = some (holding fd a.ssl (some ⟨some fd, some host, none, false, false, false⟩)) :=
    Call.set_holding rfl
  have hcheck : (Call.sslSet1Host a.ssl host).act
      (holding fd a.ssl (some ⟨some fd, some host, none, false, false, false⟩))
      = some (holding fd a.ssl (some ⟨some fd, some host, some host, false, false, false⟩)) :=
    Call.set_holding rfl
  have hconnect : (Call.sslConnect a.ssl a.connected).act
      (holding fd a.ssl (some ⟨some fd, some host, some host, false, false, false⟩))
      = some (holding fd a.ssl (some (setUp fd host a))) := Call.through_holding rfl rfl
  rw [handshake, alone_cons hnew, alone_cons hfd, alone_cons hname, alone_cons hcheck,
    alone_cons hconnect]
  rfl

/-- What was opened is closed. -/
theorem alone_closing (fd ssl : ℕ) (s : TlsSession) :
    alone Call.act [.sslFree ssl, .close fd] (holding fd ssl (some s)) = some fun _ => none := by
  have hfree : (Call.sslFree ssl).act (holding fd ssl (some s)) = some (holding fd ssl none) :=
    (release_of_some (holding_session (some s))).trans
      (congrArg some (update_holding (some s) none))
  rw [alone_cons hfree]
  have hclose : (Call.close fd).act (holding fd ssl none)
      = some (Function.update (holding fd ssl none) (.socket fd) none) :=
    release_of_some (holding_socket none)
  rw [alone_cons hclose]
  refine congrArg some (funext fun r => ?_)
  by_cases hr : r = .socket fd
  · rw [hr, Function.update_self]
  · rw [Function.update_of_ne hr]
    cases r with
    | socket fd' => exact if_neg fun heq => hr (congrArg _ heq)
    | session ssl' => exact ite_self _

/-- What is read changes nothing. -/
theorem alone_reads {fd ssl : ℕ} {s : TlsSession} (hfd : s.fd = some fd) (hsent : s.sent = true)
    (chunks : List (List Char)) :
    alone Call.act (chunks.map (.sslRead ssl)) (holding fd ssl (some s))
      = some (holding fd ssl (some s)) := by
  induction chunks with
  | nil => rfl
  | cons chunk chunks ih =>
    have hread : (Call.sslRead ssl chunk).act (holding fd ssl (some s))
        = some (holding fd ssl (some s)) := Call.through_holding hfd (if_pos hsent)
    rw [List.map_cons, alone_cons hread]
    exact ih

end Alone

/-- On a session that was verified the request is written, what is answered
read, and all closed. -/
theorem alone_served {host text : List Char} (hnames : "Host: ".toList ++ host ++ crlf <:+: text)
    (fd : ℕ) {a : Answers} (hconnected : a.connected = true) (hverified : a.verified = true) :
    alone Call.act (.sslWrite a.ssl text :: a.chunks.map (.sslRead a.ssl)
        ++ [.sslRead a.ssl [], .sslShutdown a.ssl, .sslFree a.ssl, .close fd])
      (holding fd a.ssl (some { setUp fd host a with verified := a.verified }))
      = some fun _ => none := by
  have hwrite : (Call.sslWrite a.ssl text).act
      (holding fd a.ssl (some { setUp fd host a with verified := a.verified }))
      = some (holding fd a.ssl (some
        { setUp fd host a with verified := a.verified, sent := true })) := by
    refine Call.through_holding rfl (if_pos ?_)
    rw [hverified]
    simp only [Call.Names, setUp, decide_true, Bool.and_true, Bool.true_and, Bool.not_false]
    exact find_isSome.mpr hnames
  have hread : (Call.sslRead a.ssl []).act (holding fd a.ssl (some
      { setUp fd host a with verified := a.verified, sent := true })) = some (holding fd a.ssl
        (some { setUp fd host a with verified := a.verified, sent := true })) :=
    Call.through_holding rfl (if_pos rfl)
  have hshutdown : (Call.sslShutdown a.ssl).act (holding fd a.ssl (some
      { setUp fd host a with verified := a.verified, sent := true })) = some (holding fd a.ssl
        (some { setUp fd host a with verified := a.verified, sent := true })) :=
    Call.through_holding rfl (if_pos hconnected)
  rw [alone_append, alone_cons hwrite, alone_reads rfl rfl, Option.bind_some, alone_cons hread,
    alone_cons hshutdown]
  exact alone_closing fd a.ssl _

/-- **A request alone** makes no call it must not make, and leaves nothing
open. -/
theorem alone_exchange {host text : List Char} (hnames : "Host: ".toList ++ host ++ crlf <:+: text)
    (noSocket : String) (a : Answers) :
    alone Call.act (exchange host text noSocket a).1 (fun _ => none) = some fun _ => none := by
  have hsocket := alone_createSocket a.addresses a.ssl
  unfold exchange
  split
  · rename_i calls hcreate
    rw [hcreate] at hsocket
    exact hsocket
  · rename_i calls fd hcreate
    rw [hcreate] at hsocket
    have hsetUp : alone Call.act (calls ++ handshake host a fd) (fun _ => none)
        = some (holding fd a.ssl (some (setUp fd host a))) := by
      rw [alone_append, hsocket, Option.bind_some]
      exact alone_handshake host a fd
    cases hconnected : a.connected with
    | false =>
      show alone Call.act (_ ++ [.sslFree a.ssl, .close fd]) _ = _
      rw [alone_append, hsetUp]
      exact alone_closing fd a.ssl _
    | true =>
      have hresult : alone Call.act (calls ++ handshake host a fd
          ++ [.sslGetVerifyResult a.ssl a.verified]) (fun _ => none)
          = some (holding fd a.ssl (some { setUp fd host a with verified := a.verified })) := by
        have hget : (Call.sslGetVerifyResult a.ssl a.verified).act
            (holding fd a.ssl (some (setUp fd host a)))
            = some (holding fd a.ssl (some { setUp fd host a with verified := a.verified })) :=
          Call.set_holding (if_pos hconnected)
        rw [alone_append, hsetUp, Option.bind_some, alone_cons hget]
        rfl
      cases hverified : a.verified with
      | false =>
        show alone Call.act (_ ++ [.sslFree a.ssl, .close fd]) _ = _
        rw [alone_append, ← hverified, hresult]
        exact alone_closing fd a.ssl _
      | true =>
        show alone Call.act (_ ++ _ :: a.chunks.map _ ++ [.sslRead a.ssl [], _, _, _]) _ = _
        rw [List.append_assoc, alone_append, ← hverified, hresult, Option.bind_some]
        exact alone_served hnames fd hconnected hverified

/-! ## What is written -/

theorem written_append (as bs : List Call) : written (as ++ bs) = written as ++ written bs :=
  List.filterMap_append

theorem written_tryAddresses (addresses : List (Option ℕ × Bool)) :
    written (tryAddresses addresses).1 = [] := by
  induction addresses with
  | nil => rfl
  | cons address rest ih =>
    obtain ⟨found, succeeds⟩ := address
    cases found with
    | none => exact ih
    | some fd =>
      cases succeeds with
      | true => rfl
      | false => exact ih

theorem written_createSocket (addresses : Option (List (Option ℕ × Bool))) :
    written (createSocket addresses).1 = [] := by
  cases addresses with
  | none => rfl
  | some addresses => exact written_tryAddresses addresses

theorem written_reads (ssl : ℕ) (chunks : List (List Char)) :
    written (chunks.map (.sslRead ssl)) = [] := by
  induction chunks with
  | nil => rfl
  | cons chunk chunks ih => exact ih

/-- **A request is handed over once and answered with what is read**, or nothing
is and the answer says what failed. -/
theorem exchange_cases {noSocket : String} (hfailure : noSocket ∈ failures)
    (host text : List Char) (a : Answers) :
    (written (exchange host text noSocket a).1 = [text]
        ∧ (exchange host text noSocket a).2 = a.chunks.flatten)
      ∨ (written (exchange host text noSocket a).1 = []
        ∧ ∃ failure ∈ failures, (exchange host text noSocket a).2 = failure.toList) := by
  have hsocket := written_createSocket a.addresses
  unfold exchange
  split
  · rename_i calls hcreate
    rw [hcreate] at hsocket
    exact Or.inr ⟨hsocket, noSocket, hfailure, rfl⟩
  · rename_i calls fd hcreate
    rw [hcreate] at hsocket
    cases a.connected with
    | false =>
      refine Or.inr ⟨?_, "TLS handshake failed", by decide, rfl⟩
      show written (_ ++ _ ++ _) = _
      rw [written_append, written_append, hsocket]
      rfl
    | true =>
      cases a.verified with
      | false =>
        refine Or.inr ⟨?_, "Certificate verification failed", by decide, rfl⟩
        show written (_ ++ _ ++ _ ++ _) = _
        rw [written_append, written_append, written_append, hsocket]
        rfl
      | true =>
        refine Or.inl ⟨?_, rfl⟩
        show written (_ ++ _ ++ _ ++ ([.sslWrite a.ssl text] ++ a.chunks.map _) ++ _) = _
        rw [written_append, written_append, written_append, written_append, written_append,
          hsocket, written_reads]
        rfl

namespace Request

/-- The calls a request makes. -/
def calls (r : Request) (a : Answers) : List Call := (r.exchange a).1

/-- What it returns. -/
def response (r : Request) (a : Answers) : List Char := (r.exchange a).2

/-- What is in a text is in a longer one. -/
theorem infix_append_right {l a : List Char} (h : l <:+: a) (b : List Char) : l <:+: a ++ b :=
  h.trans (List.prefix_append a b).isInfix

theorem names_text (before host : List Char) :
    "Host: ".toList ++ host ++ crlf <:+: before ++ "Host: ".toList ++ host ++ crlf := by
  rw [List.append_assoc before, List.append_assoc before]
  exact (List.suffix_append before _).isInfix

/-- Both kinds of request name their host. -/
theorem exists_exchange_eq (r : Request) : ∃ host noSocket,
    r.exchange = HTTPSClient.exchange host r.text noSocket ∧ noSocket ∈ failures
      ∧ "Host: ".toList ++ host ++ crlf <:+: r.text := by
  cases r with
  | get host path headers =>
    refine ⟨host, "Socket connection closed / lost", rfl, List.mem_cons_self, ?_⟩
    unfold text HTTPSClient.get
    exact infix_append_right (infix_append_right (names_text _ host) _) _
  | post host path headers body =>
    refine ⟨host, "Socket connection failed", rfl, List.mem_cons_of_mem _ List.mem_cons_self, ?_⟩
    unfold text HTTPSClient.post
    iterate 7 refine infix_append_right ?_ _
    exact names_text _ host

end Request

/-- **Requests that are made at once**, their calls in any order and with
descriptors and sessions used again: no call is made that must not be, and
when all are answered nothing is open. Each is handed to `SSL_write` once and
returns what was read, or is not and says what failed. -/
theorem requests_interleaved {ι : Type} [DecidableEq ι] (requests : ι → Request)
    (answers : ι → Answers) {turns : List ι}
    (h : Run.Along (turn Call.act) (Fresh Call.new) turns
      ⟨fun i => (requests i).calls (answers i), fun _ => none⟩) :
    (∃ p, run Call.act turns ⟨fun i => (requests i).calls (answers i), fun _ => none⟩ = some p
        ∧ ((∀ i, p.todo i = []) → ∀ r, p.store r = none))
      ∧ ∀ i, (written ((requests i).calls (answers i)) = [(requests i).text]
          ∧ (requests i).response (answers i) = (answers i).chunks.flatten)
        ∨ (written ((requests i).calls (answers i)) = []
          ∧ ∃ failure ∈ failures, (requests i).response (answers i) = failure.toList) := by
  refine ⟨run_of_alone Call.local_act (fun i => ?_) h, fun i => ?_⟩
  · obtain ⟨host, noSocket, heq, -, hnames⟩ := (requests i).exists_exchange_eq
    rw [Request.calls, heq]
    exact alone_exchange hnames noSocket (answers i)
  · obtain ⟨host, noSocket, heq, hfailure, -⟩ := (requests i).exists_exchange_eq
    rw [Request.calls, Request.response, heq]
    exact exchange_cases hfailure host _ _

namespace Request

/-- A user is looked up. -/
def lookUp : Request := .get "host".toList "/isUserRegistered/bob".toList []

/-- The first address does not answer, for the second there is no socket, and
the third answers; of the two requests only the first is verified. -/
def answered : Fin 2 → Answers := fun i =>
  ⟨some [(some 3, false), (none, false), (some (4 + i), true)], i, true, i = 0,
    ["HTTP/1.1 200".toList, " OK".toList]⟩

/-- The second request is given the descriptor the first one has just closed,
and from there on they take turns. -/
def turns : List (Fin 2) := [0, 0, 0, 1, 1, 1] ++ (List.replicate 14 [0, 1]).flatten

end Request

/-- The first request returns what was read, the second says what failed. -/
theorem requests_interleaved_lookUp :
    (∃ p, run Call.act Request.turns
        ⟨fun i => Request.lookUp.calls (Request.answered i), fun _ => none⟩ = some p
        ∧ ((∀ i, p.todo i = []) → ∀ r, p.store r = none))
      ∧ ∀ i, (written (Request.lookUp.calls (Request.answered i)) = [Request.lookUp.text]
          ∧ Request.lookUp.response (Request.answered i) = (Request.answered i).chunks.flatten)
        ∨ (written (Request.lookUp.calls (Request.answered i)) = []
          ∧ ∃ failure ∈ failures,
            Request.lookUp.response (Request.answered i) = failure.toList) := by
  refine requests_interleaved (fun _ => Request.lookUp) Request.answered ?_
  unfold Fresh
  decide +kernel

end HTTPSClient
