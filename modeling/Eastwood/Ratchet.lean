import Eastwood.KeyChain
import Eastwood.Sodium
import Mathlib.Data.Finmap

/-!
# The ratchet

`NewRatchet` is the state one device keeps for one peer device: a key pair,
the peer's last public key, a sending and a receiving chain, and the keys of
messages that were skipped. `advanceSend` hands out the key and the header of
the next outgoing message; `advanceReceive` answers a header with its key.

Both mutate the object before they can throw, so a call is a function from
the state to its result *and* the state it leaves: a thrown exception does
not undo what was written. The private key `crypto_box_keypair` draws when a
new public key arrives is an argument, which makes the calls functions.

The two halves of `advance_receive` – what a header with a new public key
does to the ratchet, and the answer from the current receive chain – are
separate definitions (`receiveInChain` is the second), and so are its two
loops.
-/

variable {K : Type}

/-- A chain: the index of its next message and the current chain key. -/
structure NewChain (K : Type) where
  index : ℤ := 0
  key : K
  deriving DecidableEq

/-- The header of a message. -/
structure MessageHeader (K : Type) where
  /-- Sender's current ratchet public key. -/
  dhPublic : K
  /-- Length of previous sending chain. -/
  prevChainLength : ℤ
  /-- Message number in the chain. -/
  messageIndex : ℤ
  deviceId : K
  fileUuid : String
  deriving DecidableEq

/-- The header its constructor makes: everything zero. -/
def MessageHeader.empty [Zero K] : MessageHeader K := ⟨0, 0, 0, 0, ""⟩

/-- **The ratchet of one session.** -/
structure NewRatchet (K : Type) where
  reversed : Bool
  dueToSendNewDh : Bool
  rootKey : K
  sendChain : NewChain K
  receiveChain : NewChain K
  localDhPublic : K
  localDhPriv : K
  remoteDhPublic : K
  /-- The keys kept back, by message index alone. -/
  skippedKeys : Finmap (fun _ : ℤ => K)
  /-- Serialised with the rest; no operation reads it. -/
  prevChainLength : ℤ
  deriving DecidableEq

namespace NewRatchet

variable (S : Sodium K)

/-- DH output of the local private and the remote public key. -/
def dh (r : NewRatchet K) : Except Fault K :=
  match S.scalarmult r.localDhPriv r.remoteDhPublic with
  | some result => .ok result
  | none => .error (.runtimeError "Failed to perform dh")

/-! ## Set-up -/

section SetUp

variable [Zero K]

/-- The object before its constructor has run, with the shared secret copied
into the root key. What is still indeterminate is written as zero. -/
def blank (sharedSecret : K) : NewRatchet K where
  reversed := false
  dueToSendNewDh := false
  rootKey := sharedSecret
  sendChain := { key := 0 }
  receiveChain := { key := 0 }
  localDhPublic := 0
  localDhPriv := 0
  remoteDhPublic := 0
  skippedKeys := ∅
  prevChainLength := 0

/-- `set_up_initial_state_for_initiator`. -/
def setUpInitialStateForInitiator
    (recipientSignedPublic myEphemeralPublic myEphemeralPrivate : K)
    (r : NewRatchet K) : NewRatchet K :=
  { r with
    reversed := false
    localDhPublic := myEphemeralPublic
    localDhPriv := myEphemeralPrivate
    remoteDhPublic := recipientSignedPublic }

/-- `set_up_initial_state_for_recipient`, given the pair
`get_decrypted_keypair("signed")` returned. -/
def setUpInitialStateForRecipient (signed : K × K) (initiatorEphemeralPublic : K)
    (r : NewRatchet K) : NewRatchet K :=
  { r with
    reversed := true
    localDhPriv := signed.2
    localDhPublic := signed.1
    remoteDhPublic := initiatorEphemeralPublic }

/-- `set_up_initial_chain_keys`: both chain keys and the root key come from
the DH output, and the recipient swaps the chains. -/
def setUpInitialChainKeys (r : NewRatchet K) : Except Fault (NewRatchet K) :=
  match r.dh S with
  | .error e => .error e
  | .ok dhOutput =>
    let kdfKey := S.generichash [dhOutput]
    let sendKey := S.kdf kdfKey 0 .drxSend1
    let receiveKey := S.kdf kdfKey 1 .drxRecv1
    .ok { r with
      rootKey := S.kdf kdfKey 2 .drxRoot1
      sendChain := { r.sendChain with key := if r.reversed then receiveKey else sendKey }
      receiveChain := { r.receiveChain with key := if r.reversed then sendKey else receiveKey }
      dueToSendNewDh := false }

/-- The recipient's constructor: the other key is the initiator's
ephemeral. -/
def newRecipient (signed : K × K) (sharedSecret otherKey : K) :
    Except Fault (NewRatchet K) :=
  ((blank sharedSecret).setUpInitialStateForRecipient signed otherKey).setUpInitialChainKeys S

/-- The initiator's constructor: the other key is the recipient's signed
prekey. -/
def newInitiator (sharedSecret otherKey myEphemeralPublic myEphemeralPrivate : K) :
    Except Fault (NewRatchet K) :=
  ((blank sharedSecret).setUpInitialStateForInitiator otherKey myEphemeralPublic
    myEphemeralPrivate).setUpInitialChainKeys S

end SetUp

/-! ## The DH ratchet -/

/-- `generate_new_local_dh_keypair`, the private key drawn being given. -/
def generateNewLocalDhKeypair (fresh : K) (r : NewRatchet K) : NewRatchet K :=
  { r with localDhPublic := S.boxPublic fresh, localDhPriv := fresh }

/-- `dh_ratchet_step`: `some fresh` is `received_new_dh` with the private key
the new local pair gets, `none` is the step made on a send. -/
def dhRatchetStep (receivedNewDh : Option K) (r : NewRatchet K) :
    Except Fault Unit × NewRatchet K :=
  match r.dh S with
  | .error e => (.error e, r)
  | .ok dhOutput =>
    let kdfKey := S.generichash [dhOutput]
    let newRootKey := S.kdf kdfKey 0 .dhRatchet
    let newChainKey := S.kdf kdfKey 1 .dhRatchet
    -- the root key is written, and read by no later derivation
    let r := { r with rootKey := newRootKey }
    match receivedNewDh with
    | some fresh =>
      let r := { r with receiveChain := { index := 0, key := newChainKey } }
      let r := r.generateNewLocalDhKeypair S fresh
      match r.dh S with
      | .error e => (.error e, r)
      | .ok newDhOutput =>
        let newKdfKey := S.generichash [newDhOutput]
        (.ok (), { r with
          rootKey := S.kdf newKdfKey 0 .dhRatchet
          sendChain := { index := 0, key := S.kdf newKdfKey 1 .dhRatchet } })
    | none =>
      (.ok (), { r with sendChain := { index := 0, key := newChainKey } })

/-! ## The symmetric ratchets -/

/-- `progress_receive_ratchet`. -/
def progressReceiveRatchet (r : NewRatchet K) : K × NewRatchet K :=
  (S.kdf r.receiveChain.key 0 .drSndKey,
    { r with receiveChain :=
      { r.receiveChain with key := S.kdf r.receiveChain.key 1 .drSndKey } })

/-- `progress_sending_ratchet`. The counter is an `int`: past `intMax` its
increment is undefined, and no state is specified. -/
def progressSendingRatchet [Zero K] (r : NewRatchet K) :
    Except Fault (K × MessageHeader K) × NewRatchet K :=
  let header := { MessageHeader.empty with
    dhPublic := r.localDhPublic
    messageIndex := r.sendChain.index
    prevChainLength := r.receiveChain.index }
  if r.sendChain.index = intMax then (.error .signedOverflow, r)
  else
    (.ok (S.kdf r.sendChain.key 0 .drSndKey, header),
      { r with sendChain :=
        { index := r.sendChain.index + 1, key := S.kdf r.sendChain.key 1 .drSndKey } })

/-! ## The two operations -/

/-- **`advance_send`.** -/
def advanceSend [Zero K] (r : NewRatchet K) :
    Except Fault (K × MessageHeader K) × NewRatchet K :=
  if r.dueToSendNewDh then
    match r.dhRatchetStep S none with
    | (.error e, r) => (.error e, r)
    | (.ok (), r) => progressSendingRatchet S { r with dueToSendNewDh := false }
  else progressSendingRatchet S r

/-- One round of either loop of `advance_receive`: progress the receive chain
and keep the key back under `i`. -/
def keepBack (i : ℤ) (r : NewRatchet K) : NewRatchet K :=
  let (messageKey, r) := r.progressReceiveRatchet S
  { r with skippedKeys := r.skippedKeys.insert i messageKey }

/-- The loop over the indices between the header's `prev_chain_length` and
the receive index: `n` rounds from `i`. -/
def cacheForward : ℕ → ℤ → NewRatchet K → NewRatchet K
  | 0, _, r => r
  | n + 1, i, r => cacheForward n (i + 1) (r.keepBack S i)

/-- The loop that gets the key normally: at most `n` rounds from `i`, the one
that reaches `target` returning. -/
def receiveLoop (target : ℤ) : ℕ → ℤ → NewRatchet K → Except Fault K × NewRatchet K
  | 0, _, r => (.error (.runtimeError "Unexpected error in advance_receive"), r)
  | n + 1, i, r =>
    if i = target then
      let (messageKey, r) := r.progressReceiveRatchet S
      -- the receive index is written once, one past the target
      if i = intMax then (.error .signedOverflow, r)
      else (.ok messageKey, { r with receiveChain := { r.receiveChain with index := i + 1 } })
    else receiveLoop target n (i + 1) (r.keepBack S i)

/-- The answer from the current receive chain: from the backlog below the
receive index, by progressing the chain from there on. -/
def receiveInChain (h : MessageHeader K) (r : NewRatchet K) :
    Except Fault K × NewRatchet K :=
  if h.messageIndex < r.receiveChain.index then
    match r.skippedKeys.lookup h.messageIndex with
    | none => (.error (.runtimeError "Key not found in backlog"), r)
    | some key => (.ok key, { r with skippedKeys := r.skippedKeys.erase h.messageIndex })
  else
    receiveLoop S h.messageIndex (h.messageIndex + 1 - r.receiveChain.index).toNat
      r.receiveChain.index r

/-- **`advance_receive`**, `fresh` being the private key drawn should the
header carry a new public key. -/
def advanceReceive [DecidableEq K] (fresh : K) (h : MessageHeader K) (r : NewRatchet K) :
    Except Fault K × NewRatchet K :=
  if r.remoteDhPublic ≠ h.dhPublic then
    let r := r.cacheForward S (r.receiveChain.index - h.prevChainLength).toNat h.prevChainLength
    let r := { r with remoteDhPublic := h.dhPublic }
    -- what the loop kept back stays under its index in the backlog of the next chain
    match r.dhRatchetStep S (some fresh) with
    | (.error e, r) => (.error e, r)
    | (.ok (), r) => receiveInChain S h { r with dueToSendNewDh := true }
  else receiveInChain S h r

/-! ## Sequences of calls -/

/-- A call of one of the two operations. -/
inductive Call (K : Type) where
  | send
  | receive (fresh : K) (h : MessageHeader K)

/-- One call: the message key it returns, if it does, and the state it
leaves. -/
def call [DecidableEq K] [Zero K] (r : NewRatchet K) : Call K → Except Fault K × NewRatchet K
  | .send =>
    match r.advanceSend S with
    | (.ok (key, _), r) => (.ok key, r)
    | (.error e, r) => (.error e, r)
  | .receive fresh h => r.advanceReceive S fresh h

/-- What a sequence of calls returns. A call that runs into undefined
behaviour is the last one. -/
def replies [DecidableEq K] [Zero K] : List (Call K) → NewRatchet K → List (Except Fault K)
  | [], _ => []
  | c :: calls, r =>
    match r.call S c with
    | (.ok key, r) => .ok key :: replies calls r
    | (.error e, r) => .error e :: if e.isUndefined then [] else replies calls r

end NewRatchet
