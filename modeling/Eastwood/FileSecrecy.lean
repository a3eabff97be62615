import Eastwood.FileListing
import Eastwood.RelaySecrecy

/-!
# What a relay learns of the files

All that leaves a device of a file is encrypted: its content and its metadata
under the file key, the file key under the key encryption key, and that one
under a message key for each device it is sent to. The relay stores the first
three and passes on the fourth, so it has every one of them.

What it can come to know is a closure (`Learned`): it takes what was posted
apart, computes further keys from those it has, takes the bytes of a key for
the key wherever they are, and decrypts whatever a key opens. In a run in
which every key encryption key that is to stay secret only goes into sessions
the relay was kept out of, it learns nothing but parts of ciphertexts and of
what was encrypted under keys that are not secret
(`Cloud.learned_posted_or_public`), however it orders, repeats and forges
what it hands out.
-/

variable {K : Type}

/-! ## What follows from ciphertexts -/

/-- Bytes that were encrypted, with the key and the nonce. -/
structure Sealed (K : Type) where
  nonce : AeadNonce
  plaintext : List UInt8
  key : K

/-- `encrypt_message_given_key`. -/
def Sealed.ciphertext (A : Aead K) (e : Sealed K) : List UInt8 :=
  encryptMessageGivenKey A e.nonce.1 e.plaintext e.key

/-- **What can be known** from some keys and bytes: parts of bytes, keys
computed from keys, keys whose bytes are known, and bytes that are
decrypted. -/
inductive Learned (S : Sodium K) (A : Aead K) (B : KeyBytes K) (known : Set K)
    (posted : List (List UInt8)) : K ⊕ List UInt8 → Prop
  | known {k : K} : k ∈ known → Learned S A B known posted (.inl k)
  | posted {b : List UInt8} : b ∈ posted → Learned S A B known posted (.inr b)
  | boxPublic {k : K} : Learned S A B known posted (.inl k) →
      Learned S A B known posted (.inl (S.boxPublic k))
  | generichash {l : List K} : (∀ k ∈ l, Learned S A B known posted (.inl k)) →
      Learned S A B known posted (.inl (S.generichash l))
  | kdf {k : K} (i : ℕ) (c : KdfContext) : Learned S A B known posted (.inl k) →
      Learned S A B known posted (.inl (S.kdf k i c))
  | scalarmult {priv pub k : K} : Learned S A B known posted (.inl priv) →
      Learned S A B known posted (.inl pub) → S.scalarmult priv pub = some k →
      Learned S A B known posted (.inl k)
  | part {b c : List UInt8} : Learned S A B known posted (.inr c) → b <:+: c →
      Learned S A B known posted (.inr b)
  | key {k : K} : Learned S A B known posted (.inr (B.bytes k)) →
      Learned S A B known posted (.inl k)
  | decrypt {c m : List UInt8} {k : K} : Learned S A B known posted (.inr c) →
      Learned S A B known posted (.inl k) → decryptMessageGivenKey A c k = .ok m →
      Learned S A B known posted (.inr m)

/-- **No key is part of another**, as none is where all have one length. -/
def KeyBytes.Separate (B : KeyBytes K) : Prop :=
  ∀ k k', B.bytes k <:+: B.bytes k' → k = k'

/-- The keys of the source are separate: they are arrays of 32 bytes. -/
theorem KeyBytes.array_separate : KeyBytes.Separate .array := fun k k' h =>
  Subtype.ext (h.eq_of_length (k.2.trans k'.2.symm))

section Learned

variable {S : Sodium K} {A : Aead K} {B : KeyBytes K} {L : S.Labelling} {log : List (Sealed K)}

variable (B) (L) in
/-- **Bytes that give a secret key away**: its bytes are somewhere in them. -/
def GivesAway (b : List UInt8) : Prop := ∃ k, L.Secret k ∧ B.bytes k <:+: b

/-- What part of some bytes gives away, they do. -/
theorem GivesAway.of_infix {b c : List UInt8} (h : GivesAway B L b) (hbc : b <:+: c) :
    GivesAway B L c := by
  obtain ⟨k, hk, hkb⟩ := h
  exact ⟨k, hk, hkb.trans hbc⟩

/-- A key that is not secret gives none away. -/
theorem not_givesAway_bytes (hB : B.Separate) {k : K} (hk : ¬ L.Secret k) :
    ¬ GivesAway B L (B.bytes k) := by
  rintro ⟨k', hk', hbytes⟩
  exact hk (hB k' k hbytes ▸ hk')

variable (A) (L) in
/-- What may be known: keys that are not secret, and parts of ciphertexts and
of what was encrypted under keys that are not. -/
def Open (log : List (Sealed K)) : K ⊕ List UInt8 → Prop
  | .inl k => ¬ L.Secret k
  | .inr b => (∃ e ∈ log, b <:+: e.ciphertext A) ∨ ∃ e ∈ log, ¬ L.Secret e.key ∧ b <:+: e.plaintext

variable (A) (B) (L) in
/-- **Nothing coincides by accident**: no ciphertext has the bytes of a secret
key in it, and of the bytes that may be known only ciphertexts open, as they
were made. -/
structure NoAccidents (log : List (Sealed K)) : Prop where
  ciphertexts : ∀ e ∈ log, ¬ GivesAway B L (e.ciphertext A)
  opened : ∀ c, Open A L log (.inr c) → ∀ k m, ¬ L.Secret k →
    decryptMessageGivenKey A c k = .ok m → ∃ e ∈ log, c = e.ciphertext A

variable (B) (L) in
/-- **No secret key was given away**: encrypted under one that is not. -/
def Nested (log : List (Sealed K)) : Prop :=
  ∀ e ∈ log, ¬ L.Secret e.key → ¬ GivesAway B L e.plaintext

/-- What is opened was encrypted under that key. -/
theorem open_of_decrypt (hA : A.Ideal) (hlog : NoAccidents A B L log) {c m : List UInt8} {k : K}
    (hc : Open A L log (.inr c)) (hk : Open A L log (.inl k))
    (h : decryptMessageGivenKey A c k = .ok m) : Open A L log (.inr m) := by
  obtain ⟨e, he, rfl⟩ := hlog.opened c hc k m hk h
  obtain ⟨rfl, rfl⟩ := eq_of_decryptMessageGivenKey hA h
  exact Or.inr ⟨e, he, hk, List.infix_rfl⟩

/-- A part of what may be known may be known. -/
theorem open_of_infix {b c : List UInt8} (hc : Open A L log (.inr c)) (hbc : b <:+: c) :
    Open A L log (.inr b) := by
  obtain ⟨e, he, hce⟩ | ⟨e, he, hpublic, hce⟩ := hc
  · exact Or.inl ⟨e, he, hbc.trans hce⟩
  · exact Or.inr ⟨e, he, hpublic, hbc.trans hce⟩

/-- Bytes that may be known give no secret key away. -/
theorem not_givesAway_of_open (hlog : NoAccidents A B L log) (hnested : Nested B L log)
    {b : List UInt8} (hb : Open A L log (.inr b)) : ¬ GivesAway B L b := by
  obtain ⟨e, he, hbe⟩ | ⟨e, he, hpublic, hbe⟩ := hb
  · exact fun h => hlog.ciphertexts e he (h.of_infix hbe)
  · exact fun h => hnested e he hpublic (h.of_infix hbe)

/-- **Nothing else is ever known**, of what was posted if that is ciphertexts. -/
theorem Learned.isOpen (hA : A.Ideal) (hlog : NoAccidents A B L log) (hnested : Nested B L log)
    {known : Set K}
    (hknown : ∀ k ∈ known, ¬ L.Secret k) {posted : List (List UInt8)}
    (hposted : ∀ b ∈ posted, ∃ e ∈ log, b = e.ciphertext A) {v : K ⊕ List UInt8}
    (h : Learned S A B known posted v) : Open A L log v := by
  induction h with
  | known hk => exact hknown _ hk
  | posted hb =>
    obtain ⟨e, he, rfl⟩ := hposted _ hb
    exact Or.inl ⟨e, he, List.infix_rfl⟩
  | boxPublic _ _ => exact L.boxPublic _
  | generichash _ ih =>
    show ¬ L.Secret (S.generichash _)
    rw [L.generichash]
    rintro ⟨k, hk, hsecret⟩
    exact ih k hk hsecret
  | kdf i c _ ih =>
    show ¬ L.Secret (S.kdf _ i c)
    rw [L.kdf]
    exact ih
  | scalarmult _ _ hz ihpriv ihpub => exact L.scalarmult_public hz ihpriv ihpub
  | part _ hbc ih => exact open_of_infix ih hbc
  | key _ ih =>
    exact fun hsecret => not_givesAway_of_open hlog hnested ih ⟨_, hsecret, List.infix_rfl⟩
  | decrypt _ _ hm ihc ihk => exact open_of_decrypt hA hlog ihc ihk hm

end Learned

/-! ## Files and devices -/

/-- **Devices, a relay, and the files**: with the network, the bytes of files
and keys that were posted – and what was encrypted, which nobody is shown. -/
structure Cloud (ι K : Type) where
  network : Network ι K
  posted : List (List UInt8)
  log : List (Sealed K)

/-- What can happen next. `refresh_access` is an `updateFileKey` and then an
`allow_access_to_file` for each user, `send_file_to` an upload and one of
those. -/
inductive CloudStep (ι K : Type) where
  | relay (step : RelayStep ι K)
  | uploadFile (filePath : String) (file : Option (List UInt8)) (metadata : FileMetadata)
    (fKek : K) (draws : UploadDraws K)
  /-- What `refresh_access` posts to `/updateFileKey`. -/
  | updateFileKey (draws : RefreshDraws K)

variable {ι : Type} [DecidableEq ι] [LinearOrder K] [Zero K] (S : Sodium K) (A : Aead K)
  (B : KeyBytes K)

/-- What `upload_file` encrypts. -/
def UploadDraws.seals (draws : UploadDraws K) (content text : List UInt8) (fKek : K) :
    List (Sealed K) :=
  [⟨draws.fileNonce, content, draws.fileKey⟩, ⟨draws.metadataNonce, text, draws.fileKey⟩,
    ⟨draws.keyNonce, B.bytes draws.fileKey, fKek⟩]

namespace RelayStep

/-- The messages of a step, each with its device and key. -/
def messages (n : Network ι K) : RelayStep ι K → List (K × K × DeviceMessage K)
  | allowAccess i ks _ username uuid fKek nonce newBundles _ =>
    ((allowAccessToFile S A ks username uuid fKek (fun device => (nonce device).1) newBundles
      (n.store i)).result.toOption).getD []
  | _ => []

/-- What it encrypts. -/
def seals (n : Network ι K) (step : RelayStep ι K) : List (Sealed K) :=
  match step with
  | allowAccess _ _ _ _ _ fKek nonce _ _ =>
    (step.messages S A n).map fun x => ⟨nonce x.1, fKek, x.2.1⟩
  | _ => []

end RelayStep

namespace Cloud

/-- Nothing has happened yet. -/
def start : Cloud ι K := ⟨.start, [], []⟩

/-- **One step.** A post that throws has reached the relay all the same. -/
def next (c : Cloud ι K) : CloudStep ι K → Cloud ι K
  | .relay step =>
    { network := c.network.next S A step
      posted := c.posted ++ (step.messages S A c.network).map fun x => x.2.2.ciphertext
      log := c.log ++ step.seals S A c.network }
  | .uploadFile filePath file metadata fKek draws =>
    match uploadFile A B filePath file metadata fKek draws, file, metadata.text with
    | .ok record, some content, .ok text =>
      { c with
        posted := c.posted
          ++ [record.encryptedFile, record.encryptedMetadata, record.encryptedFileKey]
        log := c.log ++ draws.seals B content text fKek }
    | _, _, _ => c
  | .updateFileKey draws =>
    { c with
      posted := c.posted
        ++ [encryptMessageGivenKey A draws.nonce.1 (B.bytes draws.newFileKey) draws.newFKek]
      log := c.log ++ [⟨draws.nonce, B.bytes draws.newFileKey, draws.newFKek⟩] }

/-- After some steps. -/
def after (steps : List (CloudStep ι K)) : Cloud ι K :=
  steps.foldl (fun c step => c.next S A B step) start

end Cloud

namespace CloudStep

omit [DecidableEq ι] [LinearOrder K] [Zero K] in
/-- The step of the network it is, if it is one. -/
def relay? : CloudStep ι K → Option (RelayStep ι K)
  | relay step => some step
  | _ => none

variable {S} (L : S.Labelling) (P : Set K)

/-- **A step that gives no secret key away**, after some others: a file key
that is secret is encrypted under a key that is, a key encryption key with the
bytes of a secret key goes only into sessions the relay was kept out of, and a
file under a key that is not secret has those of none in it. -/
def Careful (earlier : List (CloudStep ι K)) : CloudStep ι K → Prop
  | relay step => step.Named L P ∧ ∀ i ks myUsername username uuid fKek nonce newBundles posted,
    step = .allowAccess i ks myUsername username uuid fKek nonce newBundles posted →
    GivesAway B L fKek →
    ∀ x ∈ step.messages S A (Network.after S A (earlier.filterMap relay?)),
    ∀ step' ∈ earlier.filterMap relay? ++ [step], ¬ step'.Brings S P i username x.1
  | uploadFile _ file metadata fKek draws => (L.Secret draws.fileKey → L.Secret fKek)
    ∧ (¬ L.Secret draws.fileKey → (∀ content ∈ file, ¬ GivesAway B L content)
      ∧ ∀ text, metadata.text = .ok text → ¬ GivesAway B L text)
  | updateFileKey draws => L.Secret draws.newFileKey → L.Secret draws.newFKek

end CloudStep

/-! ## What is learned in a run -/

section Run

variable {S} {A} {B} {L : S.Labelling} {P : Set K} {steps : List (CloudStep ι K)}
  {step : CloudStep ι K}

variable (A) (B) (L) (P) in
/-- A run whose steps are careful, each after those before it. -/
def CarefulRun (steps : List (CloudStep ι K)) : Prop :=
  ∀ earlier step later, steps = earlier ++ step :: later → step.Careful A B L P earlier

theorem CarefulRun.of_concat (h : CarefulRun A B L P (steps ++ [step])) :
    CarefulRun A B L P steps ∧ step.Careful A B L P steps := by
  refine ⟨fun earlier step' later heq => h earlier step' (later ++ [step]) ?_, h steps step [] rfl⟩
  rw [heq, List.append_assoc]
  rfl

/-- The relay's part of it names keys it can name. -/
theorem CarefulRun.named (h : CarefulRun A B L P steps) :
    ∀ s ∈ steps.filterMap CloudStep.relay?, s.Named L P := by
  intro s hs
  obtain ⟨step, hstep, hrelay⟩ := List.mem_filterMap.mp hs
  obtain ⟨earlier, later, heq⟩ := List.append_of_mem hstep
  have hcareful := h earlier step later heq
  cases step with
  | relay step =>
    obtain rfl := Option.some.inj hrelay
    exact hcareful.1
  | uploadFile _ _ _ _ _ => cases hrelay
  | updateFileKey _ => cases hrelay

namespace Cloud

theorem after_concat : after S A B (steps ++ [step]) = (after S A B steps).next S A B step := by
  unfold after
  rw [List.foldl_append]
  rfl

/-- **An upload** posts what it encrypts, or nothing. -/
theorem next_uploadFile_cases (c : Cloud ι K) (filePath : String) (file : Option (List UInt8))
    (metadata : FileMetadata) (fKek : K) (draws : UploadDraws K) :
    c.next S A B (.uploadFile filePath file metadata fKek draws) = c
      ∨ ∃ content text, file = some content ∧ metadata.text = .ok text
        ∧ c.next S A B (.uploadFile filePath file metadata fKek draws)
          = { c with
              posted := c.posted ++ (draws.seals B content text fKek).map (Sealed.ciphertext A)
              log := c.log ++ draws.seals B content text fKek } := by
  cases file with
  | none => exact Or.inl rfl
  | some content =>
    cases htext : metadata.text with
    | error e =>
      refine Or.inl ?_
      unfold next uploadFile
      simp only [orThrow, htext, ok_bind, error_bind]
    | ok text =>
      refine Or.inr ⟨content, text, rfl, rfl, ?_⟩
      unfold next uploadFile
      simp only [orThrow, htext, ok_bind]
      rfl

/-- The files do not touch the network. -/
theorem network_after : (after S A B steps).network
    = Network.after S A (steps.filterMap CloudStep.relay?) := by
  induction steps using List.reverseRecOn with
  | nil => rfl
  | append_singleton steps step ih =>
    rw [after_concat, List.filterMap_append]
    cases step with
    | relay step =>
      unfold Network.after at ih ⊢
      rw [show [CloudStep.relay step].filterMap CloudStep.relay? = [step] from rfl,
        List.foldl_append, ← ih]
      rfl
    | uploadFile filePath file metadata fKek draws =>
      rw [show [CloudStep.uploadFile filePath file metadata fKek draws].filterMap
        CloudStep.relay? = ([] : List (RelayStep ι K)) from rfl, List.append_nil, ← ih]
      obtain h | ⟨content, text, -, -, h⟩ := next_uploadFile_cases (S := S) (A := A) (B := B)
        (after S A B steps) filePath file metadata fKek draws
      · rw [h]
      · rw [h]
    | updateFileKey draws =>
      rw [show [CloudStep.updateFileKey draws].filterMap CloudStep.relay?
        = ([] : List (RelayStep ι K)) from rfl, List.append_nil, ← ih]
      rfl

omit [DecidableEq ι] in
/-- What a step posts for a device is what it encrypted. -/
theorem ciphertext_of_mem_messages {n : Network ι K} {step : RelayStep ι K}
    {x : K × K × DeviceMessage K} (hx : x ∈ step.messages S A n) :
    ∃ e ∈ step.seals S A n, x.2.2.ciphertext = e.ciphertext A := by
  cases step with
  | allowAccess i ks myUsername username uuid fKek nonce newBundles posted =>
    refine ⟨_, List.mem_map_of_mem hx, ?_⟩
    change x ∈ ((allowAccessToFile S A ks username uuid fKek (fun device => (nonce device).1)
      newBundles (n.store i)).result.toOption).getD [] at hx
    cases hresult : (allowAccessToFile S A ks username uuid fKek (fun device => (nonce device).1)
        newBundles (n.store i)).result with
    | error e =>
      rw [hresult] at hx
      cases hx
    | ok messages =>
      rw [hresult] at hx
      obtain ⟨device, key, m⟩ := x
      obtain ⟨header, rfl⟩ := eq_deviceMessage_of_allowAccessToFile hresult hx
      rfl
  | updateHandshakes i ks handshakes => cases hx
  | updateMessages i batch => cases hx

/-- **Only ciphertexts are posted.** -/
theorem ciphertext_of_mem_posted :
    ∀ b ∈ (after S A B steps).posted, ∃ e ∈ (after S A B steps).log, b = e.ciphertext A := by
  induction steps using List.reverseRecOn with
  | nil =>
    intro b hb
    cases hb
  | append_singleton steps step ih =>
    rw [after_concat]
    have hold : ∀ {more : List (Sealed K)}, ∀ b ∈ (after S A B steps).posted,
        ∃ e ∈ (after S A B steps).log ++ more, b = e.ciphertext A := by
      intro more b hb
      obtain ⟨e, he, hc⟩ := ih b hb
      exact ⟨e, List.mem_append_left _ he, hc⟩
    cases step with
    | relay step =>
      intro b hb
      obtain hb | hb := List.mem_append.mp hb
      · exact hold b hb
      · obtain ⟨x, hx, rfl⟩ := List.mem_map.mp hb
        obtain ⟨e, he, hc⟩ := ciphertext_of_mem_messages hx
        exact ⟨e, List.mem_append_right _ he, hc⟩
    | uploadFile filePath file metadata fKek draws =>
      obtain h | ⟨content, text, -, -, h⟩ := next_uploadFile_cases (S := S) (A := A) (B := B)
        (after S A B steps) filePath file metadata fKek draws
      · rw [h]
        exact ih
      · rw [h]
        intro b hb
        obtain hb | hb := List.mem_append.mp hb
        · exact hold b hb
        · obtain ⟨e, he, rfl⟩ := List.mem_map.mp hb
          exact ⟨e, List.mem_append_right _ he, rfl⟩
    | updateFileKey draws =>
      intro b hb
      obtain hb | hb := List.mem_append.mp hb
      · exact hold b hb
      · rw [List.mem_singleton.mp hb]
        exact ⟨_, List.mem_append_right _ (List.mem_singleton_self _), rfl⟩

/-- **A step that is careful gives no secret key away.** -/
theorem nested_next (hacc : S.AcceptsKeyPairs) (hB : B.Separate)
    (hrun : CarefulRun A B L P (steps ++ [step])) :
    Nested B L (after S A B steps).log → Nested B L (after S A B (steps ++ [step])).log := by
  intro hnested
  obtain ⟨hearlier, hcareful⟩ := hrun.of_concat
  have hold : ∀ {more : List (Sealed K)}, Nested B L more →
      Nested B L ((after S A B steps).log ++ more) := by
    intro more hmore e he
    exact (List.mem_append.mp he).elim (hnested e) (hmore e)
  rw [after_concat]
  cases step with
  | relay step =>
    refine hold fun e he hpublic hsecret => ?_
    rw [network_after] at he
    cases step with
    | allowAccess i ks myUsername username uuid fKek nonce newBundles posted =>
      obtain ⟨⟨device, key, m⟩, hx, rfl⟩ := List.mem_map.mp he
      have hclean := hcareful.2 i ks myUsername username uuid fKek nonce newBundles posted rfl
        hsecret _ hx
      change (device, key, m) ∈ ((allowAccessToFile S A ks username uuid fKek
        (fun device => (nonce device).1) newBundles
        ((Network.after S A (steps.filterMap CloudStep.relay?)).store i)).result.toOption).getD []
        at hx
      cases hresult : (allowAccessToFile S A ks username uuid fKek
          (fun device => (nonce device).1) newBundles
          ((Network.after S A (steps.filterMap CloudStep.relay?)).store i)).result with
      | error e =>
        rw [hresult] at hx
        cases hx
      | ok messages =>
        rw [hresult] at hx
        exact hpublic (Network.secret_of_not_brought hacc hearlier.named rfl hcareful.1 hresult hx
          hclean)
    | updateHandshakes i ks handshakes => cases he
    | updateMessages i batch => cases he
  | uploadFile filePath file metadata fKek draws =>
    obtain h | ⟨content, text, hcontent, htext, h⟩ := next_uploadFile_cases (S := S) (A := A)
      (B := B) (after S A B steps) filePath file metadata fKek draws
    · rw [h]
      exact hnested
    · rw [h]
      refine hold fun e he hpublic => ?_
      simp only [UploadDraws.seals, List.mem_cons, List.not_mem_nil, or_false] at he
      obtain rfl | rfl | rfl := he
      · exact (hcareful.2 hpublic).1 content hcontent
      · exact (hcareful.2 hpublic).2 text htext
      · exact not_givesAway_bytes hB fun hsecret => hpublic (hcareful.1 hsecret)
  | updateFileKey draws =>
    refine hold fun e he hpublic => ?_
    rw [List.mem_singleton.mp he] at hpublic ⊢
    exact not_givesAway_bytes hB fun hsecret => hpublic (hcareful hsecret)

/-- **So no step ever does.** -/
theorem nested_after (hacc : S.AcceptsKeyPairs) (hB : B.Separate)
    (hrun : CarefulRun A B L P steps) : Nested B L (after S A B steps).log := by
  induction steps using List.reverseRecOn with
  | nil =>
    intro e he
    cases he
  | append_singleton steps step ih => exact nested_next hacc hB hrun (ih hrun.of_concat.1)

/-- **What a relay learns of the files.** In any careful run of devices and a
relay that orders, repeats and forges what it hands out: from all that was
posted and any keys that are not secret it learns no secret key, and no bytes
but parts of ciphertexts and of what was encrypted under keys that are not
secret. The content of a file under a secret file key is thus safe, the key
encryption keys may be sent to any number of users, and file keys be
replaced. -/
theorem learned_posted_or_public (hacc : S.AcceptsKeyPairs) (hA : A.Ideal) (hB : B.Separate)
    (hrun : CarefulRun A B L P steps) (hlog : NoAccidents A B L (after S A B steps).log)
    {known : Set K} (hknown : ∀ k ∈ known, ¬ L.Secret k) :
    (∀ k, Learned S A B known (after S A B steps).posted (.inl k) → ¬ L.Secret k)
      ∧ ∀ b, Learned S A B known (after S A B steps).posted (.inr b) →
        (∃ e ∈ (after S A B steps).log, b <:+: e.ciphertext A)
          ∨ ∃ e ∈ (after S A B steps).log, ¬ L.Secret e.key ∧ b <:+: e.plaintext :=
  ⟨fun _ h => h.isOpen hA hlog (nested_after hacc hB hrun) hknown ciphertext_of_mem_posted,
    fun _ h => h.isOpen hA hlog (nested_after hacc hB hrun) hknown ciphertext_of_mem_posted⟩

end Cloud

end Run

/-! ### Keys and a cipher with which nothing coincides -/

/-- Numbers as keys, their codes between two zeros. -/
def KeyBytes.enclosed : KeyBytes ℕ where
  bytes key := 0 :: keyCode key
  keyAt bytes := keyOfCode bytes.tail
  keyAt_bytes := KeyBytes.code.keyAt_bytes
  bytes_ne_nil _ := List.cons_ne_nil _ _

/-- The digits of a code are not zero. -/
theorem ne_zero_of_mem_digits {key : ℕ} {b : UInt8}
    (h : b ∈ (Nat.digits 255 key).map fun d => UInt8.ofNat (d + 1)) : b ≠ 0 := by
  obtain ⟨d, hd, rfl⟩ := List.mem_map.mp h
  intro h0
  have htoNat : (UInt8.ofNat (d + 1)).toNat = d + 1 :=
    UInt8.toNat_ofNat_of_lt' (Nat.succ_lt_succ (Nat.digits_lt_base (by decide) hd))
  rw [h0] at htoNat
  exact Nat.succ_ne_zero d htoNat.symm

theorem count_zero_enclosed (key : ℕ) : (KeyBytes.enclosed.bytes key).count 0 = 2 := by
  have hdigits : ((Nat.digits 255 key).map fun d => UInt8.ofNat (d + 1)).count 0 = 0 :=
    List.count_eq_zero.mpr fun h => ne_zero_of_mem_digits h rfl
  show (0 :: (_ ++ [0])).count (0 : UInt8) = 2
  rw [List.count_cons_self, List.count_append, hdigits]
  rfl

/-- Every code has two zeros, one of them in front. -/
theorem KeyBytes.enclosed_separate : KeyBytes.enclosed.Separate := by
  rintro k k' ⟨pre, post, h⟩
  have hcount := congrArg (List.count 0) h
  rw [List.count_append, List.count_append, count_zero_enclosed, count_zero_enclosed] at hcount
  cases pre with
  | nil =>
    have htail : keyCode k ++ post = keyCode k' := (List.cons.inj h).2
    rw [← keyOfCode_append k post, htail]
    exact KeyBytes.code.keyAt_bytes k'
  | cons b pre =>
    obtain ⟨rfl, -⟩ := List.cons.inj h
    rw [List.count_cons_self] at hcount
    omega

/-- Two bytes from 1 to 16 for each. -/
def halves (bytes : List UInt8) : List UInt8 := bytes.flatMap fun b => [b / 16 + 1, b % 16 + 1]

/-- The bytes that were written so. -/
def ofHalves : List UInt8 → List UInt8
  | high :: low :: rest => ((high - 1) * 16 + (low - 1)) :: ofHalves rest
  | _ => []

theorem ofHalves_halves (bytes : List UInt8) : ofHalves (halves bytes) = bytes := by
  induction bytes with
  | nil => rfl
  | cons b bytes ih =>
    have hb : (b / 16 + 1 - 1) * 16 + (b % 16 + 1 - 1) = b := by
      have hlt := b.toNat_lt
      rw [UInt8.add_sub_cancel, UInt8.add_sub_cancel]
      refine UInt8.toNat_inj.mp ?_
      simp
      omega
    exact congrArg₂ List.cons hb ih

/-- None of them is a zero or a mark. -/
theorem bounds_of_mem_halves {bytes : List UInt8} {b : UInt8} (h : b ∈ halves bytes) :
    b ≠ 0 ∧ b ≠ 254 ∧ b ≠ 255 := by
  obtain ⟨a, -, hb⟩ := List.mem_flatMap.mp h
  have hlt : b.toNat ≤ 16 ∧ 0 < b.toNat := by
    have ha := a.toNat_lt
    simp at hb
    rcases hb with rfl | rfl
    · simp
      omega
    · simp
      omega
  refine ⟨?_, ?_, ?_⟩
  all_goals
    rintro rfl
    revert hlt
    decide

/-- A cipher that hides the text, between a mark at either end. -/
def Aead.enclosed : Aead ℕ where
  encrypt nonce message key := 254 :: (halves (Aead.keyed.encrypt nonce message key) ++ [255])
  decrypt nonce ciphertext key :=
    if ciphertext.head? = some 254 ∧ ciphertext.getLast? = some 255 then
      Aead.keyed.decrypt nonce (ofHalves ciphertext.tail.dropLast) key
    else none

theorem Aead.enclosed_decrypt (n m : List UInt8) (k k' : ℕ) :
    Aead.enclosed.decrypt n (Aead.enclosed.encrypt n m k) k'
      = Aead.keyed.decrypt n (Aead.keyed.encrypt n m k) k' := by
  have hlast : (254 :: (halves (Aead.keyed.encrypt n m k) ++ [255])).getLast? = some 255 := by
    rw [← List.cons_append, List.getLast?_concat]
  refine (if_pos ⟨rfl, hlast⟩).trans ?_
  show Aead.keyed.decrypt n (ofHalves (halves (Aead.keyed.encrypt n m k) ++ [255]).dropLast) k' = _
  rw [List.dropLast_concat, ofHalves_halves]

theorem Aead.enclosed_ideal : Aead.enclosed.Ideal where
  opens n m k := (Aead.enclosed_decrypt n m k k).trans (Aead.keyed_ideal.opens n m k)
  opens_only n m k k' h := by
    rw [Aead.enclosed_decrypt] at h
    exact Aead.keyed_ideal.opens_only n m k k' h
  tagged n m k := by
    have htagged := Aead.keyed_ideal.tagged n m k
    have hlen : ∀ bytes : List UInt8, bytes.length ≤ (halves bytes).length := by
      intro bytes
      induction bytes with
      | nil => exact le_rfl
      | cons b bytes ih =>
        show bytes.length + 1 ≤ (halves bytes).length + 1 + 1
        omega
    have hhalves := hlen (Aead.keyed.encrypt n m k)
    show tagBytes ≤ (halves (Aead.keyed.encrypt n m k) ++ [255]).length + 1
    rw [List.length_append]
    omega

/-- After a nonce of zeros there is one mark in front, -/
theorem index_of_first {hidden : List UInt8} (h : ∀ b ∈ hidden, b ≠ 0 ∧ b ≠ 254 ∧ b ≠ 255) {i : ℕ}
    (hi : (FileRecord.zeroNonce.1 ++ 254 :: (hidden ++ [255]))[i]? = some 254) :
    i = nonceBytes := by
  have hlen : FileRecord.zeroNonce.1.length = nonceBytes := FileRecord.zeroNonce.2
  rcases lt_trichotomy i nonceBytes with hlt | heq | hgt
  · rw [List.getElem?_append_left (by omega)] at hi
    cases List.eq_of_mem_replicate (List.mem_of_getElem? hi)
  · exact heq
  · obtain ⟨j, rfl⟩ := Nat.exists_eq_add_of_lt hgt
    rw [List.getElem?_append_right (by omega), hlen,
      show nonceBytes + j + 1 - nonceBytes = j + 1 by omega, List.getElem?_cons_succ] at hi
    obtain hmem | hmem := List.mem_append.mp (List.mem_of_getElem? hi)
    · exact absurd rfl (h _ hmem).2.1
    · cases List.mem_singleton.mp hmem

/-- and one at the end. -/
theorem index_of_last {hidden : List UInt8} (h : ∀ b ∈ hidden, b ≠ 0 ∧ b ≠ 254 ∧ b ≠ 255) {i : ℕ}
    (hi : (FileRecord.zeroNonce.1 ++ 254 :: (hidden ++ [255]))[i]? = some 255) :
    i = nonceBytes + 1 + hidden.length := by
  have hlen : FileRecord.zeroNonce.1.length = nonceBytes := FileRecord.zeroNonce.2
  have hbefore : 255 ∉ FileRecord.zeroNonce.1 ++ 254 :: hidden := by
    intro hmem
    obtain hmem | hmem := List.mem_append.mp hmem
    · cases List.eq_of_mem_replicate hmem
    · obtain hmem | hmem := List.mem_cons.mp hmem
      · cases hmem
      · exact absurd rfl (h _ hmem).2.2
  rw [← List.cons_append, ← List.append_assoc] at hi
  have hlength : (FileRecord.zeroNonce.1 ++ 254 :: hidden).length
      = nonceBytes + 1 + hidden.length := by
    rw [List.length_append, hlen, List.length_cons]
    omega
  rcases lt_trichotomy i (nonceBytes + 1 + hidden.length) with hlt | heq | hgt
  · rw [List.getElem?_append_left (by omega)] at hi
    exact absurd (List.mem_of_getElem? hi) hbefore
  · exact heq
  · rw [List.getElem?_eq_none (by rw [List.length_append, List.length_singleton]; omega)] at hi
    cases hi

/-- **Only the whole of it opens.** -/
theorem Aead.eq_of_enclosed {s message m : List UInt8} {k key : ℕ}
    (hc : s <:+: encryptMessageGivenKey Aead.enclosed FileRecord.zeroNonce.1 message key)
    (h : decryptMessageGivenKey Aead.enclosed s k = .ok m) :
    s = encryptMessageGivenKey Aead.enclosed FileRecord.zeroNonce.1 message key := by
  obtain ⟨pre, post, heq⟩ := hc
  have hmarks : (s.drop nonceBytes).head? = some 254 ∧ (s.drop nonceBytes).getLast? = some 255 := by
    by_contra hno
    have hnone : Aead.enclosed.decrypt (s.take nonceBytes) (s.drop nonceBytes) k = none :=
      if_neg hno
    unfold decryptMessageGivenKey at h
    simp only [hnone] at h
    split at h
    · cases h
    · split at h <;> cases h
  have hhidden : ∀ b ∈ halves (Aead.keyed.encrypt FileRecord.zeroNonce.1 message key),
      b ≠ 0 ∧ b ≠ 254 ∧ b ≠ 255 := fun _ hb => bounds_of_mem_halves hb
  have hwhole : FileRecord.zeroNonce.1
      ++ 254 :: (halves (Aead.keyed.encrypt FileRecord.zeroNonce.1 message key) ++ [255])
        = pre ++ s ++ post := heq.symm
  -- the marks of what opens are those of the ciphertext
  have hfirst : s[nonceBytes]? = some 254 := by rw [← List.head?_drop, hmarks.1]
  have hlast : s[s.length - 1]? = some 255 := by
    rw [← List.getLast?_eq_getElem?]
    rw [List.getLast?_drop] at hmarks
    split at hmarks
    · cases hmarks.2
    · exact hmarks.2
  obtain ⟨hlt, -⟩ := List.getElem?_eq_some_iff.mp hfirst
  have hpre := index_of_first (i := pre.length + nonceBytes) hhidden (by
    rw [hwhole, List.append_assoc, List.getElem?_append_right (Nat.le_add_right ..),
      Nat.add_sub_cancel_left, List.getElem?_append_left hlt, hfirst])
  have hpost := index_of_last (i := pre.length + (s.length - 1)) hhidden (by
    rw [hwhole, List.append_assoc, List.getElem?_append_right (Nat.le_add_right ..),
      Nat.add_sub_cancel_left, List.getElem?_append_left (by omega), hlast])
  have hlength := congrArg List.length hwhole
  simp only [List.length_append, List.length_cons, List.length_nil] at hlength
  have hz : FileRecord.zeroNonce.1.length = nonceBytes := FileRecord.zeroNonce.2
  have hpre : pre = [] := List.eq_nil_of_length_eq_zero (by omega)
  have hpost : post = [] := List.eq_nil_of_length_eq_zero (by omega)
  rw [← heq, hpre, hpost, List.nil_append, List.append_nil]

/-- A key has a zero after a digit that is none, a ciphertext has not. -/
theorem Aead.not_infix_enclosed {k : ℕ} (hk : k ≠ 0) (message : List UInt8) (key : ℕ) :
    ¬ KeyBytes.enclosed.bytes k
      <:+: encryptMessageGivenKey Aead.enclosed FileRecord.zeroNonce.1 message key := by
  intro h
  have hhidden : ∀ b ∈ Aead.enclosed.encrypt FileRecord.zeroNonce.1 message key, b ≠ 0 := by
    intro b hb
    obtain rfl | hb := List.mem_cons.mp hb
    · decide
    · obtain hb | hb := List.mem_append.mp hb
      · exact (bounds_of_mem_halves hb).1
      · rw [List.mem_singleton.mp hb]
        decide
  have hpairs : (encryptMessageGivenKey Aead.enclosed FileRecord.zeroNonce.1 message key).Pairwise
      fun a b => a ≠ 0 → b ≠ 0 := by
    refine List.pairwise_append.mpr ⟨?_, ?_, fun _ _ b hb _ => hhidden b hb⟩
    · exact List.pairwise_replicate.mpr (Or.inr fun h0 => absurd rfl h0)
    · exact List.pairwise_of_forall_mem_list fun _ _ b hb _ => hhidden b hb
  have hbytes := (List.pairwise_cons.mp (hpairs.sublist h.sublist)).2
  obtain ⟨d, hd⟩ := List.exists_mem_of_ne_nil _ (mt Nat.digits_eq_nil_iff_eq_zero.mp hk)
  have hdigit := List.mem_map_of_mem (f := fun d => UInt8.ofNat (d + 1)) hd
  exact (List.pairwise_append.mp hbytes).2.2 _ hdigit 0 (List.mem_singleton_self _)
    (ne_zero_of_mem_digits hdigit) rfl

/-! ### A file that is shared with bob -/

namespace Cloud

/-- The file key 32 goes to bob's device under the key encryption key 40, and
is then replaced. -/
def sharedWithBob : List (CloudStep ℕ ℕ) :=
  [.uploadFile "a.txt" (some [1, 2, 3]) FileRecord.metadata 40
      ⟨32, FileRecord.zeroNonce, FileRecord.zeroNonce, FileRecord.zeroNonce⟩,
    .relay (Network.sends 5 "alice" "file" (KeyBytes.enclosed.bytes 40) [.ideal 5]),
    .updateFileKey ⟨48, 40, FileRecord.zeroNonce⟩]

/-- The run is careful: the relay's key 24 is in none of it. -/
theorem carefulRun_sharedWithBob : CarefulRun Aead.enclosed .enclosed
    (Sodium.idealLabelling NewRatchet.deviceKeys) {24} sharedWithBob := by
  have hsecret : ∀ n, 8 * n ∈ NewRatchet.deviceKeys →
      (Sodium.idealLabelling NewRatchet.deviceKeys).Secret (8 * n) := fun n => .drawn
  have h32 := hsecret 4 (by simp [NewRatchet.deviceKeys])
  have h40 := hsecret 5 (by simp [NewRatchet.deviceKeys])
  intro earlier step later heq
  rcases earlier with _ | ⟨a, _ | ⟨b, _ | ⟨c, rest⟩⟩⟩
  · obtain ⟨rfl, -⟩ := List.cons.inj heq
    exact ⟨fun _ => h40, fun hpublic => absurd h32 hpublic⟩
  · obtain ⟨rfl, hrest⟩ := List.cons.inj heq
    obtain ⟨rfl, -⟩ := List.cons.inj hrest
    constructor
    · intro bundles hbundles b hb
      obtain rfl := Option.some.inj hbundles
      obtain rfl := List.mem_singleton.mp hb
      exact ⟨⟨rfl, hsecret 1 (by simp [NewRatchet.deviceKeys])⟩,
        .device (hsecret 2 (by simp [NewRatchet.deviceKeys]))⟩
    · rintro i ks myUsername username uuid fKek nonce newBundles posted hstep - x - step' hmem
      obtain rfl := List.mem_singleton.mp hmem
      rintro ⟨-, -, bundles, hbundles, b, hb, -, a, ha, hown⟩
      obtain rfl := Option.some.inj hbundles
      obtain rfl := List.mem_singleton.mp hb
      rw [Set.mem_singleton_iff.mp ha] at hown
      exact absurd hown (by decide +kernel)
  · obtain ⟨rfl, hrest⟩ := List.cons.inj heq
    obtain ⟨rfl, hlast⟩ := List.cons.inj hrest
    obtain ⟨rfl, -⟩ := List.cons.inj hlast
    exact fun _ => h40
  · simp [sharedWithBob] at heq

/-- The relay does not learn the file key. -/
theorem not_learned_sharedWithBob : ¬ Learned Sodium.ideal Aead.enclosed .enclosed {24}
    (after Sodium.ideal Aead.enclosed .enclosed sharedWithBob).posted (.inl 32) := by
  have hsecret : ∀ n, 8 * n ∈ NewRatchet.deviceKeys →
      (Sodium.idealLabelling NewRatchet.deviceKeys).Secret (8 * n) := fun n => .drawn
  have hshort : ∀ (plaintext : List UInt8), plaintext.length < nonceBytes → ∀ k m,
      decryptMessageGivenKey Aead.enclosed plaintext k ≠ .ok m := by
    intro plaintext hlen k m h
    rw [decryptMessageGivenKey, if_pos hlen] at h
    cases h
  have hlog : ∀ e ∈ (after Sodium.ideal Aead.enclosed .enclosed sharedWithBob).log,
      e.nonce = FileRecord.zeroNonce
        ∧ ((Sodium.idealLabelling NewRatchet.deviceKeys).Secret e.key
          ∨ e.plaintext.length < nonceBytes) := by
    intro e he
    obtain he | he := List.mem_append.mp he
    · obtain he | he := List.mem_append.mp he
      · obtain h | ⟨content, text, -, -, h⟩ := next_uploadFile_cases (S := Sodium.ideal)
          (A := Aead.enclosed) (B := .enclosed) (start : Cloud ℕ ℕ) "a.txt" (some [1, 2, 3])
          FileRecord.metadata 40
          ⟨32, FileRecord.zeroNonce, FileRecord.zeroNonce, FileRecord.zeroNonce⟩
        · change e ∈ (start.next Sodium.ideal Aead.enclosed .enclosed _).log at he
          rw [h] at he
          cases he
        · change e ∈ (start.next Sodium.ideal Aead.enclosed .enclosed _).log at he
          rw [h] at he
          simp only [start, UploadDraws.seals, List.nil_append, List.mem_cons, List.not_mem_nil,
            or_false] at he
          obtain rfl | rfl | rfl := he
          · exact ⟨rfl, Or.inl (hsecret 4 (by simp [NewRatchet.deviceKeys]))⟩
          · exact ⟨rfl, Or.inl (hsecret 4 (by simp [NewRatchet.deviceKeys]))⟩
          · exact ⟨rfl, Or.inl (hsecret 5 (by simp [NewRatchet.deviceKeys]))⟩
      · obtain ⟨x, -, rfl⟩ := List.mem_map.mp he
        refine ⟨rfl, Or.inr ?_⟩
        show (KeyBytes.enclosed.bytes 40).length < nonceBytes
        decide +kernel
    · rw [List.mem_singleton.mp he]
      exact ⟨rfl, Or.inl (hsecret 5 (by simp [NewRatchet.deviceKeys]))⟩
  have haccidents : NoAccidents Aead.enclosed .enclosed
      (Sodium.idealLabelling NewRatchet.deviceKeys)
      (after Sodium.ideal Aead.enclosed .enclosed sharedWithBob).log := by
    constructor
    · rintro e he ⟨k, hk, hbytes⟩
      unfold Sealed.ciphertext at hbytes
      rw [(hlog e he).1] at hbytes
      refine Aead.not_infix_enclosed ?_ _ _ hbytes
      rintro rfl
      exact absurd ((Sodium.IdealSecret.drawn_iff 0).mp hk) (by simp [NewRatchet.deviceKeys])
    · rintro c (⟨e, he, hc⟩ | ⟨e, he, hpublic, hc⟩) k m - hm
      · refine ⟨e, he, ?_⟩
        unfold Sealed.ciphertext at hc ⊢
        rw [(hlog e he).1] at hc ⊢
        exact Aead.eq_of_enclosed hc hm
      · exact absurd hm (hshort c
          (hc.length_le.trans_lt ((hlog e he).2.resolve_left hpublic)) k m)
  refine fun h => (learned_posted_or_public Sodium.ideal_acceptsKeyPairs Aead.enclosed_ideal
    KeyBytes.enclosed_separate carefulRun_sharedWithBob haccidents ?_).1 32 h
      (hsecret 4 (by simp [NewRatchet.deviceKeys]))
  intro k hk hkey
  rw [Set.mem_singleton_iff.mp hk] at hkey
  exact absurd ((Sodium.IdealSecret.drawn_iff 3).mp hkey) (by simp [NewRatchet.deviceKeys])

end Cloud
