import Eastwood.SendFileTo

/-!
# Taking access away

To take a file away from a user is to give it to the others again:
`refresh_access` has the server drop everyone, replaces the file's key, and
lets those have the new one it is told to allow. Which they are it does not
know. The dialog of the sent files does: it shows a box for each recipient,
checked, and is accepted once one is no longer.

What the dialog hands over is the users whose box is *not* checked. They are
the ones who get the new key, as far as the server takes the messages with it,
and nobody who is still checked does. So it removes those it is to remove only
if no box is left checked and no message with the new key is accepted
(`removesUnchecked_iff`).
-/

variable (S : Sodium Key) (A : Aead Key) (B : KeyBytes Key) (ks : KeyStore Key)

/-! ## `refresh_access` -/

/-- What is answered and drawn in one call of `allow_access_to_file`: the new
bundles, which it asks for unless it is told not to, the nonces of the
messages, and what the server says to them. -/
structure AllowAnswers where
  newBundles : Except Fault (List (SendingKeyBundle Key))
  nonce : Key → AeadNonce
  sendMessage : Json → Except Fault Unit

/-- **What a row of such calls did**: how it ended, the users whose call
returned, each with the messages that were accepted, and the store it
left. -/
structure Granting where
  result : Except Fault Unit
  granted : List (String × List (Key × Key × DeviceMessage Key))
  store : SessionStore Key

/-- The users access was granted to again: those a message with the new key
was accepted for. There may be no device to send one to. -/
def Granting.users (g : Granting) : List String :=
  (g.granted.filter fun call => !call.2.isEmpty).map Prod.fst

/-- The loop over the users that are allowed. -/
def allowEach (myUsername fileUuid : String) (newFKek : List UInt8) :
    List (String × AllowAnswers) → SessionStore Key → Granting
  | [], s => ⟨.ok (), [], s⟩
  | (username, answers) :: allowed, s =>
    let access := allowAccess S A ks myUsername username fileUuid newFKek answers.nonce
      (some answers.newBundles) answers.sendMessage s
    match access.result with
    | .error e => ⟨.error e, [], access.store⟩
    | .ok messages =>
      let rest := allowEach myUsername fileUuid newFKek allowed access.store
      ⟨rest.result, (username, messages) :: rest.granted, rest.store⟩

/-- What the server answers to the two requests before it. -/
structure RevokeServer where
  revokeFileAccess : Json → Except Fault Unit
  updateFileKey : Json → Except Fault Unit

/-- `post_revoke_file_access`. -/
def postRevokeFileAccess (revokeFileAccess : Json → Except Fault Unit) (fileUuid : String) :
    Except Fault Unit :=
  revokeFileAccess (.obj [("file_id", .str fileUuid)])

/-- `post_update_file_key`. -/
def postUpdateFileKey (updateFileKey : Json → Except Fault Unit) (fileUuid : String)
    (newEncryptedKey : List UInt8) : Except Fault Unit :=
  updateFileKey (.obj [("file_id", .str fileUuid),
    ("new_encrypted_file_key", .str (bin2hex newEncryptedKey))])

/-- **`refresh_access`**, with all that is answered in it. -/
def refreshAccessOf (myUsername : String) (allowed : List (String × AllowAnswers))
    (fileUuid : String) (draws : RefreshDraws Key) (server : RevokeServer)
    (s : SessionStore Key) : Granting :=
  match postRevokeFileAccess server.revokeFileAccess fileUuid with
  | .error e => ⟨.error e, [], s⟩
  | .ok () =>
    match postUpdateFileKey server.updateFileKey fileUuid
        (encryptMessageGivenKey A draws.nonce.1 (B.bytes draws.newFileKey) draws.newFKek) with
    | .error e => ⟨.error e, [], s⟩
    | .ok () => allowEach S A ks myUsername fileUuid (B.bytes draws.newFKek) allowed s

section Granted

variable {S} {A} {B} {ks} {myUsername fileUuid : String} {newFKek : List UInt8}
variable {allowed : List (String × AllowAnswers)} {s : SessionStore Key} {u : String}

/-- **A round of the loop**: the call throws, and so does the loop, or it
returns, and the loop goes on with the store it left. -/
theorem allowEach_cons_cases (S : Sodium Key) (A : Aead Key) (ks : KeyStore Key)
    (myUsername fileUuid : String) (newFKek : List UInt8) (call : String × AllowAnswers)
    (allowed : List (String × AllowAnswers)) (s : SessionStore Key) :
    ∃ access, access = allowAccess S A ks myUsername call.1 fileUuid newFKek call.2.nonce
        (some call.2.newBundles) call.2.sendMessage s
      ∧ ((∃ e, access.result = .error e
          ∧ allowEach S A ks myUsername fileUuid newFKek (call :: allowed) s
            = ⟨.error e, [], access.store⟩)
        ∨ ∃ messages rest, access.result = .ok messages
          ∧ rest = allowEach S A ks myUsername fileUuid newFKek allowed access.store
          ∧ allowEach S A ks myUsername fileUuid newFKek (call :: allowed) s
            = ⟨rest.result, (call.1, messages) :: rest.granted, rest.store⟩) := by
  refine ⟨_, rfl, ?_⟩
  rw [allowEach]
  cases (allowAccess S A ks myUsername call.1 fileUuid newFKek call.2.nonce
    (some call.2.newBundles) call.2.sendMessage s).result with
  | error e => exact Or.inl ⟨e, rfl, rfl⟩
  | ok messages => exact Or.inr ⟨messages, _, rfl, rfl, rfl⟩

/-- The users of a round that returned: its own, if anything was sent, and
those of the rest. -/
theorem Granting.users_cons (result : Except Fault Unit) (store : SessionStore Key)
    (username : String) (messages : List (Key × Key × DeviceMessage Key))
    (granted : List (String × List (Key × Key × DeviceMessage Key))) :
    Granting.users ⟨result, (username, messages) :: granted, store⟩
      = (if messages = [] then [] else [username]) ++ Granting.users ⟨result, granted, store⟩ := by
  cases messages <;> rfl

/-- **Whoever is granted access is allowed.** -/
theorem mem_allowed_of_allowEach
    (h : u ∈ (allowEach S A ks myUsername fileUuid newFKek allowed s).users) :
    u ∈ allowed.map Prod.fst := by
  induction allowed generalizing s with
  | nil => exact h
  | cons call allowed ih =>
    obtain ⟨access, -, ⟨e, -, hg⟩ | ⟨messages, rest, -, rfl, hg⟩⟩ :=
      allowEach_cons_cases S A ks myUsername fileUuid newFKek call allowed s
    · rw [hg] at h
      cases h
    · rw [hg, Granting.users_cons] at h
      rcases List.mem_append.mp h with hown | hrest
      · have hu : u = call.1 := by
          split at hown
          · cases hown
          · exact List.mem_singleton.mp hown
        exact hu ▸ List.mem_cons_self
      · exact List.mem_cons_of_mem _ (ih hrest)

/-! ### Where nothing is posted -/

/-- **A call posts**: the bundles it asks for come, there is a key of at least
one device, and the server takes the messages made with these. -/
def AllowAnswers.Posts (S : Sodium Key) (A : Aead Key) (ks : KeyStore Key)
    (myUsername fileUuid : String) (newFKek : List UInt8) (username : String)
    (answers : AllowAnswers) (s : SessionStore Key) : Prop :=
  ∃ bundles keys body, answers.newBundles = .ok bundles
    ∧ (s.getKeysForIdentity S ks username (some bundles)).result = .ok keys ∧ keys ≠ []
    ∧ ratchetMessagesBody ks myUsername (posted (keys.map fun e =>
        (e.1, e.2.1, deviceMessage A fileUuid (answers.nonce e.1).1 newFKek e.2.1 e.2.2)))
      = .ok body
    ∧ answers.sendMessage body = .ok ()

/-- **No call of a row posts.** A call without a key returns, and the next one
starts from what the search for keys left; after one that throws there is no
other. -/
def PostsNothing (S : Sodium Key) (A : Aead Key) (ks : KeyStore Key)
    (myUsername fileUuid : String) (newFKek : List UInt8) :
    List (String × AllowAnswers) → SessionStore Key → Prop
  | [], _ => True
  | (username, answers) :: allowed, s =>
    ¬ answers.Posts S A ks myUsername fileUuid newFKek username s
      ∧ ∀ bundles, answers.newBundles = .ok bundles →
        (s.getKeysForIdentity S ks username (some bundles)).result = .ok [] →
        PostsNothing S A ks myUsername fileUuid newFKek allowed
          (s.getKeysForIdentity S ks username (some bundles)).store

section Posts

variable {username : String} {answers : AllowAnswers}
variable {messages : List (Key × Key × DeviceMessage Key)}

/-- A call that posts is one that returns messages. -/
theorem posts_iff : answers.Posts S A ks myUsername fileUuid newFKek username s
    ↔ ∃ messages, (allowAccess S A ks myUsername username fileUuid newFKek answers.nonce
        (some answers.newBundles) answers.sendMessage s).result = .ok messages
      ∧ messages ≠ [] := by
  constructor
  · rintro ⟨bundles, keys, body, hbundles, hkeys, hne, hbody, hsent⟩
    have hpost : ratchetMessagesBody ks myUsername (posted (keys.map fun e =>
        (e.1, e.2.1, deviceMessage A fileUuid (answers.nonce e.1).1 newFKek e.2.1 e.2.2)))
          >>= answers.sendMessage = .ok () := by
      rw [hbody]
      exact hsent
    refine ⟨keys.map fun e =>
      (e.1, e.2.1, deviceMessage A fileUuid (answers.nonce e.1).1 newFKek e.2.1 e.2.2), ?_,
      mt List.map_eq_nil_iff.mp hne⟩
    simp only [hbundles, allowAccess, postAccess, allowAccessToFile, hkeys, List.map_eq_nil_iff,
      if_neg hne, hpost]
  · rintro ⟨messages, hresult, hne⟩
    obtain ⟨bundles, hbundles, hpost⟩ := allowAccess_cases hresult
    obtain ⟨bundles, rfl, hanswer⟩ := Option.map_eq_some_iff.mp hbundles.symm
    obtain ⟨hallowed, hsent⟩ := postAccess_cases hpost
    obtain ⟨keys, hkeys, rfl⟩ := allowAccessToFile_cases hallowed
    obtain ⟨body, hbody, hsent⟩ := hsent hne
    exact ⟨bundles, keys, body, hanswer.symm, hkeys, mt List.map_eq_nil_iff.mpr hne, hbody, hsent⟩

/-- One that returns none has found no key, and leaves what the search for
keys left. -/
theorem allowAccess_nil_iff :
    (allowAccess S A ks myUsername username fileUuid newFKek answers.nonce
        (some answers.newBundles) answers.sendMessage s).result = .ok []
      ↔ ∃ bundles, answers.newBundles = .ok bundles
        ∧ (s.getKeysForIdentity S ks username (some bundles)).result = .ok [] := by
  constructor
  · intro hresult
    obtain ⟨bundles, hbundles, hpost⟩ := allowAccess_cases hresult
    obtain ⟨bundles, rfl, hanswer⟩ := Option.map_eq_some_iff.mp hbundles.symm
    obtain ⟨keys, hkeys, hnil⟩ := allowAccessToFile_cases (postAccess_cases hpost).1
    rw [List.map_eq_nil_iff.mp hnil.symm] at hkeys
    exact ⟨bundles, hanswer.symm, hkeys⟩
  · rintro ⟨bundles, hbundles, hkeys⟩
    simp only [hbundles, allowAccess, postAccess, allowAccessToFile, hkeys, List.map_nil, if_true]

theorem store_allowAccess_of_nil {bundles : List (SendingKeyBundle Key)}
    (hbundles : answers.newBundles = .ok bundles)
    (hkeys : (s.getKeysForIdentity S ks username (some bundles)).result = .ok []) :
    (allowAccess S A ks myUsername username fileUuid newFKek answers.nonce
        (some answers.newBundles) answers.sendMessage s).store
      = (s.getKeysForIdentity S ks username (some bundles)).store := by
  simp only [hbundles, allowAccess, postAccess, allowAccessToFile, hkeys, List.map_nil, if_true,
    List.foldl_nil]

end Posts

/-- **Nobody is granted access by a row of calls that post nothing**, and by
no other. -/
theorem users_allowEach_eq_nil_iff :
    (allowEach S A ks myUsername fileUuid newFKek allowed s).users = []
      ↔ PostsNothing S A ks myUsername fileUuid newFKek allowed s := by
  induction allowed generalizing s with
  | nil => exact iff_of_true rfl trivial
  | cons call allowed ih =>
    obtain ⟨username, answers⟩ := call
    rw [PostsNothing, posts_iff]
    obtain ⟨access, haccess, ⟨e, he, hg⟩ | ⟨messages, rest, hmessages, rfl, hg⟩⟩ :=
      allowEach_cons_cases S A ks myUsername fileUuid newFKek (username, answers) allowed s
    · -- it throws: nothing is posted, and there is no next call
      rw [hg, ← haccess, he]
      refine iff_of_true rfl ⟨?_, fun bundles hb hk => ?_⟩
      · rintro ⟨_, hok, -⟩
        cases hok
      · have hok : access.result = .ok [] := haccess ▸ allowAccess_nil_iff.mpr ⟨bundles, hb, hk⟩
        cases he.symm.trans hok
    · rw [hg, Granting.users_cons, ← haccess, hmessages]
      by_cases hnil : messages = []
      · -- no key, and the loop goes on
        rw [if_pos hnil, List.nil_append, ih]
        subst hnil
        obtain ⟨bundles, hb, hk⟩ := allowAccess_nil_iff.mp (haccess ▸ hmessages)
        have hstore : access.store = (s.getKeysForIdentity S ks username (some bundles)).store :=
          haccess ▸ store_allowAccess_of_nil hb hk
        rw [hstore]
        constructor
        · intro hrest
          refine ⟨fun ⟨_, hok, hne⟩ => hne (Except.ok.inj hok).symm, fun bundles' hb' _ => ?_⟩
          obtain rfl := Except.ok.inj (hb.symm.trans hb')
          exact hrest
        · rintro ⟨-, hrest⟩
          exact hrest bundles hb hk
      · rw [if_neg hnil]
        exact iff_of_false (List.cons_ne_nil _ _) fun h => h.1 ⟨messages, rfl, hnil⟩

variable {draws : RefreshDraws Key} {server : RevokeServer}

/-- How `refresh_access` can go: not as far as the loop, or as the loop
does. -/
theorem refreshAccessOf_cases (S : Sodium Key) (A : Aead Key) (B : KeyBytes Key)
    (ks : KeyStore Key) (myUsername : String) (allowed : List (String × AllowAnswers))
    (fileUuid : String) (draws : RefreshDraws Key) (server : RevokeServer)
    (s : SessionStore Key) :
    (∃ e, refreshAccessOf S A B ks myUsername allowed fileUuid draws server s = ⟨.error e, [], s⟩)
      ∨ refreshAccessOf S A B ks myUsername allowed fileUuid draws server s
        = allowEach S A ks myUsername fileUuid (B.bytes draws.newFKek) allowed s := by
  unfold refreshAccessOf
  split
  · exact Or.inl ⟨_, rfl⟩
  · split
    · exact Or.inl ⟨_, rfl⟩
    · exact Or.inr rfl

/-- Only those allowed are granted access. -/
theorem mem_allowed_of_refreshAccessOf
    (h : u ∈ (refreshAccessOf S A B ks myUsername allowed fileUuid draws server s).users) :
    u ∈ allowed.map Prod.fst := by
  rcases refreshAccessOf_cases S A B ks myUsername allowed fileUuid draws server s with
    ⟨e, hg⟩ | hg
  · rw [hg] at h
    cases h
  · rw [hg] at h
    exact mem_allowed_of_allowEach h

/-- **What keeps the new key from everybody**: the server refuses to revoke or
to replace the key, or none of the calls posts. -/
def GrantsNothing (S : Sodium Key) (A : Aead Key) (B : KeyBytes Key) (ks : KeyStore Key)
    (myUsername : String) (allowed : List (String × AllowAnswers)) (fileUuid : String)
    (draws : RefreshDraws Key) (server : RevokeServer) (s : SessionStore Key) : Prop :=
  postRevokeFileAccess server.revokeFileAccess fileUuid ≠ .ok ()
    ∨ postUpdateFileKey server.updateFileKey fileUuid
        (encryptMessageGivenKey A draws.nonce.1 (B.bytes draws.newFileKey) draws.newFKek) ≠ .ok ()
    ∨ PostsNothing S A ks myUsername fileUuid (B.bytes draws.newFKek) allowed s

/-- Nobody is granted access then, and only then. -/
theorem users_refreshAccessOf_eq_nil_iff :
    (refreshAccessOf S A B ks myUsername allowed fileUuid draws server s).users = []
      ↔ GrantsNothing S A B ks myUsername allowed fileUuid draws server s := by
  unfold refreshAccessOf GrantsNothing
  cases hrevoke : postRevokeFileAccess server.revokeFileAccess fileUuid with
  | error e => exact iff_of_true rfl (Or.inl (by rintro ⟨⟩))
  | ok _ =>
    cases hupdate : postUpdateFileKey server.updateFileKey fileUuid
        (encryptMessageGivenKey A draws.nonce.1 (B.bytes draws.newFileKey) draws.newFKek) with
    | error e => exact iff_of_true rfl (Or.inr (Or.inl (by rintro ⟨⟩)))
    | ok _ =>
      simp only [ne_eq, not_true_eq_false, false_or]
      exact users_allowEach_eq_nil_iff

/-! ### What it does where nothing is refused -/

variable {username : String} {fKek : List UInt8} {nonce : Key → AeadNonce}
variable {messages : List (Key × Key × DeviceMessage Key)}

/-- **How `allow_access_to_file` can end**: it throws, and has used the keys it
took at most; or it returns, and has done what it does where every post is
accepted. -/
theorem postAccess_inv (S : Sodium Key) (A : Aead Key) (ks : KeyStore Key)
    (myUsername username fileUuid : String) (fKek : List UInt8) (nonce : Key → AeadNonce)
    (bundles : Option (List (SendingKeyBundle Key))) (sendMessage : Json → Except Fault Unit)
    (s : SessionStore Key) {access}
    (h : access = postAccess S A ks myUsername username fileUuid fKek nonce bundles sendMessage s) :
    (∃ e, access.result = .error e
        ∧ access.store = (s.getKeysForIdentity S ks username bundles).store)
      ∨ ∃ messages, access.result = .ok messages
        ∧ access = allowAccessToFile S A ks username fileUuid fKek
          (fun device => (nonce device).1) bundles s := by
  have hallowed : ∃ allowed, allowed = allowAccessToFile S A ks username fileUuid fKek
      (fun device => (nonce device).1) bundles s := ⟨_, rfl⟩
  obtain ⟨allowed, hallowed⟩ := hallowed
  unfold postAccess at h
  simp only [← hallowed] at h
  cases hresult : allowed.result with
  | error e =>
    simp only [hresult] at h
    refine Or.inl ⟨e, congrArg _ h, (congrArg _ h).trans ?_⟩
    rw [hallowed] at hresult ⊢
    unfold allowAccessToFile at hresult ⊢
    cases hkeys : (s.getKeysForIdentity S ks username bundles).result with
    | error e' => simp only [hkeys]
    | ok keys =>
      simp only [hkeys] at hresult
      cases hresult
  | ok messages =>
    simp only [hresult] at h
    by_cases hnil : messages = []
    · rw [if_pos hnil] at h
      exact Or.inr ⟨[], congrArg _ h, by rw [h, ← hallowed, ← hnil, ← hresult]⟩
    · rw [if_neg hnil] at h
      cases hpost : ratchetMessagesBody ks myUsername (posted messages) >>= sendMessage with
      | error e =>
        rw [hpost] at h
        exact Or.inl ⟨e, congrArg _ h, congrArg _ h⟩
      | ok _ =>
        rw [hpost] at h
        exact Or.inr ⟨messages, congrArg _ h, by rw [h, ← hallowed, ← hresult]⟩

/-- **The loop, where it gets through**, is that over users for whom nothing
is refused: its messages and its store are those of `grantAccess`. -/
theorem grantAccess_of_allowEach
    (h : (allowEach S A ks myUsername fileUuid newFKek allowed s).result = .ok ()) :
    ∃ grants : List (Grant Key), grants.map (·.username) = allowed.map Prod.fst
      ∧ (grantAccess A S ks fileUuid newFKek grants s).result
        = .ok ((allowEach S A ks myUsername fileUuid newFKek allowed s).granted.flatMap
          fun g => g.2.map (g.1, ·))
      ∧ (grantAccess A S ks fileUuid newFKek grants s).store
        = (allowEach S A ks myUsername fileUuid newFKek allowed s).store := by
  induction allowed generalizing s with
  | nil => exact ⟨[], rfl, rfl, rfl⟩
  | cons call allowed ih =>
    obtain ⟨access, haccess, ⟨e, -, hg⟩ | ⟨messages, rest, hmessages, rfl, hg⟩⟩ :=
      allowEach_cons_cases S A ks myUsername fileUuid newFKek call allowed s
    · rw [hg] at h
      cases h
    · rw [hg] at h ⊢
      obtain ⟨bundles, hbundles, hpost⟩ := allowAccess_cases (haccess ▸ hmessages)
      obtain ⟨bundles, rfl, hanswer⟩ := Option.map_eq_some_iff.mp hbundles.symm
      have hpostAccess : access = postAccess S A ks myUsername call.1 fileUuid newFKek
          call.2.nonce (some bundles) call.2.sendMessage s := by
        rw [haccess, ← hanswer]
        rfl
      have hsame : access = allowAccessToFile S A ks call.1 fileUuid newFKek
          (fun device => (call.2.nonce device).1) (some bundles) s := by
        rcases postAccess_inv _ _ _ _ _ _ _ _ _ _ _ hpostAccess with ⟨e, he, -⟩ | ⟨_, -, hsame⟩
        · rw [hmessages] at he
          cases he
        · exact hsame
      obtain ⟨grants, hnames, hresult, hstore⟩ := ih h
      refine ⟨⟨call.1, bundles, call.2.nonce⟩ :: grants, congrArg (call.1 :: ·) hnames, ?_, ?_⟩
      · simp only [grantAccess, ← hsame, hmessages]
        rw [hresult]
        rfl
      · simp only [grantAccess, ← hsame, hmessages]
        exact hstore

end Granted

/-! ## The dialog -/

/-- The boxes of the dialog, each with its user and whether it is checked.
`get_file_recipients` gives no user twice. -/
abbrev Checkboxes := List (String × Bool)

/-- `selectedUsers` of the accept button. -/
def Checkboxes.selectedUsers (checkboxes : Checkboxes) : List String :=
  (checkboxes.filter fun checkbox => !checkbox.2).map Prod.fst

/-- **The accept button of `onRevokeAccessClicked`**: without a user selected
it only shows a warning, and no access is refreshed. What `refresh_access`
throws it catches. -/
def onAcceptClicked (myUsername : String) (checkboxes : Checkboxes)
    (answers : String → AllowAnswers) (fileUuid : String) (draws : RefreshDraws Key)
    (server : RevokeServer) (s : SessionStore Key) : Option Granting :=
  let selectedUsers := checkboxes.selectedUsers
  if selectedUsers = [] then none
  else
    some (refreshAccessOf S A B ks myUsername (selectedUsers.map fun u => (u, answers u)) fileUuid
      draws server s)

/-- **Exactly the unchecked users are removed**: access is granted again to
those whose box is still checked, and to no one else. -/
def Granting.RemovesUnchecked (checkboxes : Checkboxes) (g : Granting) : Prop :=
  ∀ u, u ∈ g.users ↔ (u, true) ∈ checkboxes

section Dialog

variable {checkboxes : Checkboxes} {u : String}

theorem Checkboxes.mem_selectedUsers : u ∈ checkboxes.selectedUsers ↔ (u, false) ∈ checkboxes := by
  rw [selectedUsers, List.mem_map]
  constructor
  · rintro ⟨⟨u, checked⟩, hmem, rfl⟩
    obtain ⟨hmem, hunchecked⟩ := List.mem_filter.mp hmem
    cases checked with
    | false => exact hmem
    | true => cases hunchecked
  · intro hmem
    exact ⟨(u, false), List.mem_filter.mpr ⟨hmem, rfl⟩, rfl⟩

/-- A user has one box. -/
theorem Checkboxes.not_checked_of_unchecked (hnames : (checkboxes.map Prod.fst).Nodup)
    (h : (u, false) ∈ checkboxes) : (u, true) ∉ checkboxes := by
  intro h'
  cases List.inj_on_of_nodup_map hnames h h' rfl

end Dialog

/-- **The dialog grants access to those it is to take it from.** Whatever the
boxes, as long as one is unchecked: the unchecked users alone are granted the
new key. So they are removed, and the others not, exactly if there are no
others and nobody is granted it. -/
theorem removesUnchecked_iff (myUsername : String) {checkboxes : Checkboxes}
    (hnames : (checkboxes.map Prod.fst).Nodup)
    (hunchecked : ∃ u, (u, false) ∈ checkboxes) (answers : String → AllowAnswers)
    (fileUuid : String) (draws : RefreshDraws Key) (server : RevokeServer)
    (s : SessionStore Key) :
    ∃ g, onAcceptClicked S A B ks myUsername checkboxes answers fileUuid draws server s = some g
      ∧ (∀ u ∈ g.users, (u, false) ∈ checkboxes ∧ (u, true) ∉ checkboxes)
      ∧ (g.RemovesUnchecked checkboxes
        ↔ (∀ u, (u, true) ∉ checkboxes)
          ∧ GrantsNothing S A B ks myUsername
            (checkboxes.selectedUsers.map fun u => (u, answers u)) fileUuid draws server s) := by
  obtain ⟨v, hv⟩ := hunchecked
  have hselected : checkboxes.selectedUsers ≠ [] :=
    List.ne_nil_of_mem (Checkboxes.mem_selectedUsers.mpr hv)
  have hallowed : (checkboxes.selectedUsers.map fun u => (u, answers u)).map Prod.fst
      = checkboxes.selectedUsers := by
    rw [List.map_map]
    exact List.map_id _
  have husers : ∀ u ∈ (refreshAccessOf S A B ks myUsername
      (checkboxes.selectedUsers.map fun u => (u, answers u)) fileUuid draws server s).users,
      (u, false) ∈ checkboxes ∧ (u, true) ∉ checkboxes := by
    intro u hu
    have hmem := mem_allowed_of_refreshAccessOf hu
    rw [hallowed] at hmem
    have hfalse := Checkboxes.mem_selectedUsers.mp hmem
    exact ⟨hfalse, Checkboxes.not_checked_of_unchecked hnames hfalse⟩
  refine ⟨_, if_neg hselected, husers, ?_⟩
  rw [← users_refreshAccessOf_eq_nil_iff]
  constructor
  · intro hremoves
    -- one who is granted access would have to be checked, and one who is checked to be granted it
    have hchecked : ∀ u, (u, true) ∉ checkboxes := fun u hu =>
      (husers u ((hremoves u).mpr hu)).2 hu
    exact ⟨hchecked, List.eq_nil_iff_forall_not_mem.mpr fun u hu =>
      hchecked u ((hremoves u).mp hu)⟩
  · rintro ⟨hchecked, hnil⟩ u
    refine iff_of_false (fun hu => ?_) (hchecked u)
    rw [hnil] at hu
    cases hu

/-! ### Bob's box, the only one, is unchecked -/

namespace Revoking

def checkboxes : Checkboxes := [("bob", false)]

/-- The server has one device of each user. -/
def answers (_ : String) : AllowAnswers where
  newBundles := .ok [(Published.repeated true).bundle (.repeated 5) (.repeated 7)]
  nonce _ := FileRecord.zeroNonce
  sendMessage _ := .ok ()

def draws : RefreshDraws Key := ⟨.repeated 8, .repeated 9, FileRecord.zeroNonce⟩

def server : RevokeServer := ⟨fun _ => .ok (), fun _ => .ok ()⟩

/-- It may also revoke nothing. -/
def refusing : RevokeServer := ⟨fun _ => .error (.runtimeError "403"), fun _ => .ok ()⟩

/-- The dialog is accepted. -/
def accepted : Option Granting :=
  onAcceptClicked Sodium.bytes Aead.labelled .array (.repeated 5 []) "alice" checkboxes answers
    "report" draws server ⟨∅, ∅, ∅⟩

/-- It goes through, and bob is sent one message. -/
def grantsBob : Bool :=
  match accepted with
  | some ⟨.ok (), [("bob", [_])], _⟩ => true
  | _ => false

theorem exists_of_grantsBob (h : grantsBob = true) :
    ∃ g m, accepted = some g ∧ g.result = .ok () ∧ g.granted = [("bob", [m])] := by
  unfold grantsBob at h
  split at h
  · rename_i m store haccepted
    exact ⟨_, m, haccepted, rfl, rfl⟩
  · cases h

end Revoking

open Revoking in
/-- Bob has a message with the new key. -/
theorem not_removesUnchecked_bob :
    ∃ g, accepted = some g ∧ g.result = .ok ()
      ∧ (∃ m, g.granted = [("bob", [m])]) ∧ ¬ g.RemovesUnchecked checkboxes := by
  obtain ⟨g, m, haccepted, hresult, hgranted⟩ := exists_of_grantsBob (by decide +kernel)
  refine ⟨g, haccepted, hresult, ⟨m, hgranted⟩, fun hremoves => ?_⟩
  have hbob : "bob" ∈ g.users := by
    rw [Granting.users, hgranted]
    exact List.mem_singleton_self _
  exact absurd ((hremoves "bob").mp hbob) (by decide)

open Revoking in
/-- A server that revokes nothing keeps him from having one. -/
theorem removesUnchecked_of_refused :
    ∃ g, onAcceptClicked Sodium.bytes Aead.labelled .array (.repeated 5 []) "alice" checkboxes
        answers "report" draws refusing ⟨∅, ∅, ∅⟩ = some g
      ∧ g.RemovesUnchecked checkboxes := by
  have hnames : (checkboxes.map Prod.fst).Nodup := by decide
  obtain ⟨g, hg, -, hremoves⟩ := removesUnchecked_iff Sodium.bytes Aead.labelled .array
    (.repeated 5 []) "alice" hnames ⟨"bob", by decide⟩ answers "report" draws refusing ⟨∅, ∅, ∅⟩
  refine ⟨g, hg, hremoves.mpr ⟨fun u hu => ?_, Or.inl (by rintro ⟨⟩)⟩⟩
  cases List.mem_singleton.mp hu
