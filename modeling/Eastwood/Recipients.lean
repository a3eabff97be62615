import Eastwood.FileBinding
import Eastwood.Revoking
import Eastwood.Runs

/-!
# Who is recorded as a recipient

`get_file_recipients` asks the table `messages` for the users a file was sent
to. `allow_access_to_file` writes a row for each device of a user, and the
primary key of the table is the file: of all the rows ever written for it the
last one is there, and `refresh_access` takes none away.

So what is recorded is the user granted access last, whenever that was. It is
who has access exactly if nobody else was granted it since the last
revocation, and the last to be granted it was not before
(`recordsRecipients_iff`).
-/

/-! ## What happens to a file -/

/-- What a call brings about: a user has been sent the key of the file, or
the server has dropped everyone. -/
inductive AccessEvent where
  | granted (username : String)
  | revoked
  deriving DecidableEq

namespace AccessEvent

/-- The user granted access. -/
def user? : AccessEvent → Option String
  | granted username => some username
  | revoked => none

/-- The user granted access last of all. -/
def lastGranted (log : List AccessEvent) : Option String := (log.filterMap user?).getLast?

/-- **The users granted access since the last revocation.** -/
def grantedSince (log : List AccessEvent) : List String :=
  (log.reverse.takeWhile (· ≠ revoked)).filterMap user?

@[simp] theorem lastGranted_nil : lastGranted [] = none := rfl

theorem lastGranted_append (log log' : List AccessEvent) :
    lastGranted (log ++ log') = (lastGranted log').or (lastGranted log) := by
  rw [lastGranted, List.filterMap_append, List.getLast?_append]
  rfl

end AccessEvent

open AccessEvent

/-! ## The calls -/

section Calls

variable (S : Sodium Key) (A : Aead Key) (B : KeyBytes Key) (ks : KeyStore Key)

/-- A call on a file. -/
inductive FileCall where
  | allowAccessToFile (username : String) (fKek : List UInt8)
      (newBundles : Option (Except Fault (List (SendingKeyBundle Key))))
      (nonce : Key → AeadNonce) (sendMessage : Json → Except Fault Unit)
  | refreshAccess (allowed : List (String × AllowAnswers)) (draws : RefreshDraws Key)
      (server : RevokeServer)

/-- A user is granted access by messages, not by there being none to send. -/
def grantEvents (username : String) (messages : List (Key × Key × DeviceMessage Key)) :
    List AccessEvent :=
  if messages = [] then [] else [.granted username]

/-- The grants of a row of calls. -/
def Granting.events (g : Granting) : List AccessEvent :=
  g.granted.flatMap fun call => grantEvents call.1 call.2

/-- **One call on the file `fileUuid`**: what it brings about, and the store
it leaves. -/
def FileCall.run (myUsername fileUuid : String) :
    FileCall → SessionStore Key → List AccessEvent × SessionStore Key
  | allowAccessToFile username fKek newBundles nonce sendMessage, s =>
    let access := allowAccess S A ks myUsername username fileUuid fKek nonce newBundles
      sendMessage s
    match access.result with
    | .error _ => ([], access.store)
    | .ok messages => (grantEvents username messages, access.store)
  | refreshAccess allowed draws server, s =>
    let g := refreshAccessOf S A B ks myUsername allowed fileUuid draws server s
    match postRevokeFileAccess server.revokeFileAccess fileUuid with
    | .error _ => ([], g.store)
    | .ok () => (.revoked :: g.events, g.store)

/-- **`get_file_recipients`**: there is one row of the file at most. -/
def SessionStore.getFileRecipients (currentUsername fileUuid : String) (s : SessionStore Key) :
    List String :=
  ((s.messages.lookup fileUuid).filter fun row =>
    row.username ≠ currentUsername ∧ row.isSender).toList.map (·.username)

/-- **The recorded recipients are all the recipients**: after a run, they are
the users other than the current one that were granted access since the last
revocation. -/
def RecordsRecipients (currentUsername fileUuid : String) (log : List AccessEvent)
    (s : SessionStore Key) : Prop :=
  ∀ u, u ∈ s.getFileRecipients currentUsername fileUuid
    ↔ u ∈ grantedSince log ∧ u ≠ currentUsername

/-- **Nobody is lost and nobody stays**: whoever has been granted access since
the last revocation was the last to be granted it, and the last to be granted
it has been since. The id has to fit its field, for the row to be found. -/
def LastIsOnly (currentUsername fileUuid : String) (log : List AccessEvent) : Prop :=
  (∀ u ∈ grantedSince log, u ≠ currentUsername →
      lastGranted log = some u ∧ copyFileUuid fileUuid = fileUuid)
    ∧ ∀ u, lastGranted log = some u → u ≠ currentUsername → copyFileUuid fileUuid = fileUuid →
      u ∈ grantedSince log

end Calls

/-! ## What is in the row -/

section Row

variable {S : Sodium Key} {A : Aead Key} {B : KeyBytes Key} {ks : KeyStore Key}
variable {myUsername username fileUuid : String} {fKek : List UInt8} {s t u : SessionStore Key}
variable {messages : List (Key × Key × DeviceMessage Key)} {log log' : List AccessEvent}

/-- **The row of a file goes with what has happened to it**: it names the user
granted access last, if it is found under the file's id, and is the old one
if nobody was. -/
structure RowFollows (fileUuid : String) (s : SessionStore Key) (log : List AccessEvent)
    (t : SessionStore Key) : Prop where
  kept : lastGranted log = none ∨ copyFileUuid fileUuid ≠ fileUuid →
    t.messages.lookup fileUuid = s.messages.lookup fileUuid
  written : ∀ u, lastGranted log = some u → copyFileUuid fileUuid = fileUuid →
    ∃ row, t.messages.lookup fileUuid = some row ∧ row.username = u ∧ row.isSender = true

theorem RowFollows.of_messages_eq (h : t.messages = s.messages) : RowFollows fileUuid s [] t where
  kept _ := by rw [h]
  written _ hu := by cases hu

theorem RowFollows.trans (h : RowFollows fileUuid s log t) (h' : RowFollows fileUuid t log' u) :
    RowFollows fileUuid s (log ++ log') u where
  kept hnone := by
    rw [lastGranted_append, Option.or_eq_none_iff] at hnone
    exact (h'.kept (hnone.imp_left And.left)).trans (h.kept (hnone.imp_left And.right))
  written v hv hfits := by
    rw [lastGranted_append] at hv
    cases hlast : lastGranted log' with
    | some v' =>
      obtain rfl : v' = v := Option.some.inj (by rw [← hv, hlast, Option.some_or])
      exact h'.written v' hlast hfits
    | none =>
      rw [hlast, Option.none_or] at hv
      rw [h'.kept (Or.inl hlast)]
      exact h.written v hv hfits

/-- **Storing what was sent** leaves the row of its last message. -/
theorem lookup_foldl_saveMessage (username : String) (fKek : List UInt8) (s : SessionStore Key)
    (hfile : ∀ m ∈ messages, m.2.2.header.fileUuid = copyFileUuid fileUuid)
    (hne : messages ≠ []) :
    ∃ row : StoredMessage Key, (messages.foldl
        (fun s m => s.saveMessage m.2.2.header.fileUuid ⟨username, m.1, fKek, true⟩)
        s).messages.lookup (copyFileUuid fileUuid) = some row
      ∧ row.username = username ∧ row.isSender = true := by
  rw [← List.dropLast_append_getLast hne, List.foldl_append, List.foldl_cons, List.foldl_nil,
    hfile _ (List.getLast_mem hne), SessionStore.saveMessage, Finmap.lookup_insert]
  exact ⟨_, rfl, rfl, rfl⟩

/-- It touches no other. -/
theorem lookup_foldl_saveMessage_of_ne {f : String}
    (hfile : ∀ m ∈ messages, m.2.2.header.fileUuid ≠ f) :
    (messages.foldl
        (fun s m => s.saveMessage m.2.2.header.fileUuid ⟨username, m.1, fKek, true⟩)
        s).messages.lookup f = s.messages.lookup f := by
  induction messages generalizing s with
  | nil => rfl
  | cons m messages ih =>
    rw [List.foldl_cons, ih fun m' hm' => hfile m' (List.mem_cons_of_mem m hm'),
      SessionStore.saveMessage,
      Finmap.lookup_insert_of_ne _ (hfile m List.mem_cons_self).symm]

variable {nonce : Key → AeadNonce} {sendMessage : Json → Except Fault Unit}
variable {newBundles : Option (Except Fault (List (SendingKeyBundle Key)))}

/-- `allow_access_to_file`, of what it made. -/
theorem rowFollows_allowAccessToFile {nonce : Key → List UInt8}
    {bundles : Option (List (SendingKeyBundle Key))}
    (h : (allowAccessToFile S A ks username fileUuid fKek nonce bundles s).result = .ok messages) :
    RowFollows fileUuid s (grantEvents username messages)
      (allowAccessToFile S A ks username fileUuid fKek nonce bundles s).store := by
  obtain ⟨keys, hkeys, hmessages⟩ := allowAccessToFile_cases h
  have hsame : (s.getKeysForIdentity S ks username bundles).store.messages = s.messages :=
    SessionStore.messages_getKeysForIdentity bundles
  have hfile : ∀ m ∈ messages, m.2.2.header.fileUuid = copyFileUuid fileUuid := by
    intro m hm
    rw [hmessages] at hm
    obtain ⟨e, -, rfl⟩ := List.mem_map.mp hm
    rfl
  have hstore : (allowAccessToFile S A ks username fileUuid fKek nonce bundles s).store
      = messages.foldl (fun s m => s.saveMessage m.2.2.header.fileUuid ⟨username, m.1, fKek, true⟩)
        (s.getKeysForIdentity S ks username bundles).store := by
    unfold allowAccessToFile
    simp only [hkeys]
    rw [hmessages]
  rw [hstore]
  by_cases hnil : messages = []
  · rw [grantEvents, if_pos hnil, hnil]
    exact RowFollows.of_messages_eq hsame
  · rw [grantEvents, if_neg hnil]
    refine ⟨fun hkept => ?_, fun v hv hfits => ?_⟩
    · have hne : copyFileUuid fileUuid ≠ fileUuid := hkept.resolve_left nofun
      rw [lookup_foldl_saveMessage_of_ne fun m hm => hfile m hm ▸ hne, hsame]
    · obtain rfl : username = v := Option.some.inj hv
      obtain ⟨row, hrow, hname⟩ := lookup_foldl_saveMessage username fKek
        (s.getKeysForIdentity S ks username bundles).store hfile hnil
      rw [hfits] at hrow
      exact ⟨row, hrow, hname⟩

/-- `allow_access_to_file` up to its end, however it ends. -/
theorem rowFollows_postAccess {bundles : Option (List (SendingKeyBundle Key))} {access}
    (h : access = postAccess S A ks myUsername username fileUuid fKek nonce bundles sendMessage s) :
    (∀ e, access.result = .error e → RowFollows fileUuid s [] access.store)
      ∧ ∀ messages, access.result = .ok messages →
        RowFollows fileUuid s (grantEvents username messages) access.store := by
  rcases postAccess_inv _ _ _ _ _ _ _ _ _ _ _ h with ⟨e, he, hstore⟩ | ⟨messages, hm, hsame⟩
  · refine ⟨fun _ _ => RowFollows.of_messages_eq ?_, fun messages hm => ?_⟩
    · rw [hstore]
      exact SessionStore.messages_getKeysForIdentity bundles
    · rw [he] at hm
      cases hm
  · refine ⟨fun e he => ?_, fun messages' hm' => ?_⟩
    · rw [hm] at he
      cases he
    · rw [hsame] at hm' ⊢
      exact rowFollows_allowAccessToFile hm'

theorem rowFollows_allowAccess {access}
    (h : access = allowAccess S A ks myUsername username fileUuid fKek nonce newBundles
      sendMessage s) :
    (∀ e, access.result = .error e → RowFollows fileUuid s [] access.store)
      ∧ ∀ messages, access.result = .ok messages →
        RowFollows fileUuid s (grantEvents username messages) access.store := by
  match newBundles with
  | none => exact rowFollows_postAccess h
  | some (.error e) =>
    subst h
    exact ⟨fun _ _ => RowFollows.of_messages_eq rfl, nofun⟩
  | some (.ok bundles) => exact rowFollows_postAccess h

/-- The loop of `refresh_access`, as far as it gets. -/
theorem rowFollows_allowEach (allowed : List (String × AllowAnswers)) (s : SessionStore Key) :
    RowFollows fileUuid s (allowEach S A ks myUsername fileUuid fKek allowed s).events
      (allowEach S A ks myUsername fileUuid fKek allowed s).store := by
  induction allowed generalizing s with
  | nil => exact RowFollows.of_messages_eq rfl
  | cons call allowed ih =>
    obtain ⟨access, haccess, ⟨e, he, hg⟩ | ⟨messages, rest, hm, rfl, hg⟩⟩ :=
      allowEach_cons_cases S A ks myUsername fileUuid fKek call allowed s
    · rw [hg]
      exact (rowFollows_allowAccess haccess).1 e he
    · rw [hg]
      exact ((rowFollows_allowAccess haccess).2 messages hm).trans (ih access.store)

/-- **One call**: the row goes with what it brings about. -/
theorem rowFollows_run (c : FileCall) (s : SessionStore Key) :
    RowFollows fileUuid s (c.run S A B ks myUsername fileUuid s).1
      (c.run S A B ks myUsername fileUuid s).2 := by
  cases c with
  | allowAccessToFile username fKek newBundles nonce sendMessage =>
    rw [FileCall.run]
    split
    · exact (rowFollows_allowAccess rfl).1 _ ‹_›
    · exact (rowFollows_allowAccess rfl).2 _ ‹_›
  | refreshAccess allowed draws server =>
    rw [FileCall.run]
    split
    · rename_i hrevoked
      unfold refreshAccessOf
      rw [hrevoked]
      exact RowFollows.of_messages_eq rfl
    · rename_i hrevoked
      -- the revocation itself writes and deletes nothing
      obtain ⟨hkept, hwritten⟩ : RowFollows fileUuid s
          (refreshAccessOf S A B ks myUsername allowed fileUuid draws server s).events
          (refreshAccessOf S A B ks myUsername allowed fileUuid draws server s).store := by
        rcases refreshAccessOf_cases S A B ks myUsername allowed fileUuid draws server s with
          ⟨e, hg⟩ | hg
        · rw [hg]
          exact RowFollows.of_messages_eq rfl
        · rw [hg]
          exact rowFollows_allowEach allowed s
      exact ⟨hkept, hwritten⟩

/-- **A run**: the row goes with all that happened. -/
theorem rowFollows_final (calls : List FileCall) (s : SessionStore Key) :
    RowFollows fileUuid s (Run.outputs (FileCall.run S A B ks myUsername fileUuid) calls s)
      (Run.final (FileCall.run S A B ks myUsername fileUuid) calls s) :=
  Run.final_induction (fun _ => RowFollows.of_messages_eq rfl) RowFollows.trans rowFollows_run
    calls s

end Row

/-! ## The recorded recipients -/

section Recipients

variable {S : Sodium Key} {A : Aead Key} {B : KeyBytes Key} {ks : KeyStore Key}
variable {myUsername fileUuid : String} {s t : SessionStore Key} {log : List AccessEvent}

theorem SessionStore.mem_getFileRecipients {u : String} :
    u ∈ s.getFileRecipients myUsername fileUuid
      ↔ ∃ row, s.messages.lookup fileUuid = some row ∧ row.username = u ∧ row.isSender = true
        ∧ u ≠ myUsername := by
  rw [getFileRecipients, List.mem_map]
  constructor
  · rintro ⟨row, hrow, rfl⟩
    obtain ⟨hrow, hsent⟩ := Option.filter_eq_some_iff.mp (Option.mem_toList.mp hrow)
    obtain ⟨hne, hsender⟩ := of_decide_eq_true hsent
    exact ⟨row, hrow, rfl, hsender, hne⟩
  · rintro ⟨row, hrow, rfl, hsender, hne⟩
    refine ⟨row, Option.mem_toList.mpr (Option.filter_eq_some_iff.mpr ⟨hrow, ?_⟩), rfl⟩
    exact decide_eq_true ⟨hne, hsender⟩

/-- **Recorded is the user granted access last**, if nobody was at first. -/
theorem RowFollows.mem_getFileRecipients (h : RowFollows fileUuid s log t)
    (hnone : s.getFileRecipients myUsername fileUuid = []) {u : String} :
    u ∈ t.getFileRecipients myUsername fileUuid
      ↔ lastGranted log = some u ∧ copyFileUuid fileUuid = fileUuid ∧ u ≠ myUsername := by
  by_cases hkept : lastGranted log = none ∨ copyFileUuid fileUuid ≠ fileUuid
  · have hsame : t.getFileRecipients myUsername fileUuid = [] := by
      rw [← hnone, SessionStore.getFileRecipients, h.kept hkept]
      rfl
    rw [hsame]
    refine iff_of_false List.not_mem_nil ?_
    rintro ⟨hlast, hfits, -⟩
    rcases hkept with hkept | hkept
    · rw [hkept] at hlast
      cases hlast
    · exact hkept hfits
  · obtain ⟨hlast, hfits⟩ := not_or.mp hkept
    obtain ⟨v, hv⟩ := Option.ne_none_iff_exists'.mp hlast
    obtain ⟨row, hrow, hname, hsender⟩ := h.written v hv (not_not.mp hfits)
    rw [SessionStore.mem_getFileRecipients, hrow, hv]
    constructor
    · rintro ⟨row', heq, rfl, -, hne⟩
      obtain rfl := Option.some.inj heq
      exact ⟨congrArg some hname.symm, not_not.mp hfits, hne⟩
    · rintro ⟨heq, -, hne⟩
      exact ⟨row, rfl, hname.trans (Option.some.inj heq), hsender, hne⟩

/-- So all recipients are recorded if it is all there are. -/
theorem RowFollows.recipients_iff (h : RowFollows fileUuid s log t)
    (hnone : s.getFileRecipients myUsername fileUuid = []) :
    RecordsRecipients myUsername fileUuid log t ↔ LastIsOnly myUsername fileUuid log := by
  unfold RecordsRecipients
  simp only [h.mem_getFileRecipients hnone]
  constructor
  · intro h
    refine ⟨fun u hu hne => ?_, fun u hlast hne hfits => ?_⟩
    · obtain ⟨hlast, hfits, -⟩ := (h u).mpr ⟨hu, hne⟩
      exact ⟨hlast, hfits⟩
    · exact ((h u).mp ⟨hlast, hfits, hne⟩).1
  · rintro ⟨honly, hsince⟩ u
    constructor
    · rintro ⟨hlast, hfits, hne⟩
      exact ⟨hsince u hlast hne hfits, hne⟩
    · rintro ⟨hu, hne⟩
      obtain ⟨hlast, hfits⟩ := honly u hu hne
      exact ⟨hlast, hfits, hne⟩

/-- **All recipients are recorded exactly if the last one is the only one**,
after any calls on a file nobody is recorded for at first. -/
theorem recordsRecipients_iff (S : Sodium Key) (A : Aead Key) (B : KeyBytes Key)
    (ks : KeyStore Key) (hnone : s.getFileRecipients myUsername fileUuid = [])
    (calls : List FileCall) :
    RecordsRecipients myUsername fileUuid
        (Run.outputs (FileCall.run S A B ks myUsername fileUuid) calls s)
        (Run.final (FileCall.run S A B ks myUsername fileUuid) calls s)
      ↔ LastIsOnly myUsername fileUuid
        (Run.outputs (FileCall.run S A B ks myUsername fileUuid) calls s) :=
  (rowFollows_final calls s).recipients_iff hnone

end Recipients

/-! ### Two recipients -/

namespace Recipients

/-- A device of carol. -/
def carolDevice : Published Sodium.bytes where
  ks := .repeated 11 [(Sodium.bytes.boxPublic (.repeated 13), .repeated 13)]
  device := .repeated 11
  signed := .repeated 12
  onetime := .present (.repeated 13)
  device_stored := rfl
  signed_stored := rfl
  onetime_stored o ho := by
    obtain rfl := OnetimeField.present.inj ho
    decide

/-- A call of `allow_access_to_file` for a user with one device. -/
def allow (username : String) (device : Published Sodium.bytes) : FileCall :=
  .allowAccessToFile username (Key.repeated 7).1
    (some (.ok [device.bundle (.repeated 5) (.repeated 7)])) (fun _ => FileRecord.zeroNonce)
    fun _ => .ok ()

/-- Alice's calls on the file `report`, from an empty store. -/
def outcome (calls : List FileCall) : List AccessEvent × SessionStore Key :=
  (Run.outputs (FileCall.run Sodium.bytes Aead.labelled .array (.repeated 5 []) "alice" "report")
      calls ⟨∅, ∅, ∅⟩,
    Run.final (FileCall.run Sodium.bytes Aead.labelled .array (.repeated 5 []) "alice" "report")
      calls ⟨∅, ∅, ∅⟩)

end Recipients

open Recipients in
/-- One recipient is recorded. -/
theorem recordsRecipients_iff_bob :
    RecordsRecipients "alice" "report" (outcome [allow "bob" (.repeated true)]).1
      (outcome [allow "bob" (.repeated true)]).2 := by
  have hlog : (outcome [allow "bob" (.repeated true)]).1 = [.granted "bob"] := by decide +kernel
  refine (recordsRecipients_iff Sodium.bytes Aead.labelled .array (.repeated 5 []) (by decide)
    [allow "bob" (.repeated true)]).mpr ?_
  show LastIsOnly "alice" "report" (outcome [allow "bob" (.repeated true)]).1
  rw [hlog]
  refine ⟨fun u hu _ => ?_, fun u hu _ _ => ?_⟩
  · obtain rfl : u = "bob" := List.mem_singleton.mp hu
    exact ⟨rfl, by decide⟩
  · obtain rfl : "bob" = u := Option.some.inj hu
    decide

open Recipients in
/-- **Of two, one is lost**: both are granted access, and carol is the only one
recorded. -/
theorem not_recordsRecipients_bob_carol :
    (outcome [allow "bob" (.repeated true), allow "carol" carolDevice]).1
        = [.granted "bob", .granted "carol"]
      ∧ (outcome [allow "bob" (.repeated true),
          allow "carol" carolDevice]).2.getFileRecipients "alice" "report" = ["carol"]
      ∧ ¬ RecordsRecipients "alice" "report"
        (outcome [allow "bob" (.repeated true), allow "carol" carolDevice]).1
        (outcome [allow "bob" (.repeated true), allow "carol" carolDevice]).2 := by
  have hlog : (outcome [allow "bob" (.repeated true), allow "carol" carolDevice]).1
      = [.granted "bob", .granted "carol"] := by decide +kernel
  have hrecipients : (outcome [allow "bob" (.repeated true),
      allow "carol" carolDevice]).2.getFileRecipients "alice" "report" = ["carol"] := by
    decide +kernel
  refine ⟨hlog, hrecipients, fun hrecords => ?_⟩
  have hbob := (hrecords "bob").mpr ⟨by rw [hlog]; decide, by decide⟩
  rw [hrecipients] at hbob
  exact absurd hbob (by decide)
