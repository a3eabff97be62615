import Eastwood.AtRest
import Eastwood.FileListing
import Eastwood.Serialise
import Eastwood.StoredSessions
import Eastwood.Table
import Eastwood.Throwing

/-!
# Saving into two tables

A sealed entry is two rows: its ciphertext, and the wrapped key of that. A
save writes them by two statements, under a key it has just drawn, and
replaces what was there. After the first statement the new ciphertext is
under one key and the old key is still in the other table.

So a save that gets no further loses what it was to replace: it is not read
any more, neither the old value nor the new one, unless the key that was drawn
is the one that is stored (`savesLoseNothing_iff`).
-/

variable {κ α β : Type}

/-! ## The tables -/

/-- **A row with a ciphertext in it**: its primary key, what else there is to
know, and the two columns that are unique. -/
structure CipherRow (κ α : Type) where
  key : κ
  info : α
  nonce : List UInt8
  blob : List UInt8
  deriving DecidableEq

/-- Rows that have something in common that is unique. -/
def CipherRow.Clash (a b : CipherRow κ α) : Prop :=
  a.key = b.key ∨ a.nonce = b.nonce ∨ a.blob = b.blob

instance [DecidableEq κ] : DecidableRel (CipherRow.Clash (κ := κ) (α := α)) :=
  fun _ _ => inferInstanceAs (Decidable (_ ∨ _ ∨ _))

/-- `ratchets`, `ratchet_keys`, `messages`, `message_keys` and `file_keys`. -/
abbrev CipherTable (κ α : Type) := Table (CipherRow.Clash (κ := κ) (α := α))

/-- **The two tables of sealed entries**: what is encrypted, and the keys. -/
structure EntryTables (κ α β : Type) where
  data : CipherTable κ α
  keys : CipherTable κ β

/-- The two rows of an entry. -/
structure EntryRows (κ α β : Type) where
  data : CipherRow κ α
  key : CipherRow κ β

/-- Two rows with what is sealed, under one primary key. -/
def Envelope.rows (e : Envelope) (key : κ) (info : α) (keyInfo : β) : EntryRows κ α β :=
  ⟨⟨key, info, e.nonce, e.encryptedData⟩, ⟨key, keyInfo, e.keyNonce, e.encryptedKey⟩⟩

/-- A statement that writes: whether it succeeds, and what it does then. -/
def statement {σ : Type} (executed : Except Fault Unit) (f : σ → σ) : Throwing σ Fault Unit := do
  Throwing.answer executed
  Throwing.modify f

namespace EntryTables

/-- Tables without entries. -/
def empty : EntryTables κ α β := ⟨.empty, .empty⟩

section Save

variable [DecidableEq κ]

/-- **A save**: a statement for each table. A process that is cut off after
the first leaves what is left if the second fails. -/
def save (first second : Except Fault Unit) (rows : EntryRows κ α β) :
    Throwing (EntryTables κ α β) Fault Unit := do
  statement first fun t => { t with data := t.data.insertOrReplace rows.data }
  statement second fun t => { t with keys := t.keys.insertOrReplace rows.key }

end Save

section Read

variable (A : Aead Key) (B : KeyBytes Key) (kek : Option Key) (noEntry noKey : String)
  (p : CipherRow κ α → Bool) (q : CipherRow κ β → Bool)

/-- What is read of a row: its key is looked up, and both are decrypted. -/
def openRow (t : EntryTables κ α β) (row : CipherRow κ α) : Except Fault (List UInt8) := do
  let keyRow ← orThrow noKey (t.keys.select q)
  let kek ← orThrow "KEK not loaded" kek
  (Envelope.mk row.blob row.nonce keyRow.blob keyRow.nonce).contents A B kek

/-- **An entry is read**: its row, and with it its key. -/
def read (t : EntryTables κ α β) : Except Fault (List UInt8) := do
  let row ← orThrow noEntry (t.data.select p)
  t.openRow A B kek noKey q row

end Read

end EntryTables

/-! ### Messages -/

/-- `messages`, with username, device and `is_sender`, and `message_keys`. -/
abbrev MessageEntries := EntryTables String (String × Key × Bool) (String × Key)

namespace MessageEntries

/-- **`save_message_and_key`.** -/
def saveMessageAndKey (username : String) (fromDeviceId : Key) (fileUuid : String) (e : Envelope)
    (sender : Bool) (first second : Except Fault Unit) : Throwing MessageEntries Fault Unit :=
  EntryTables.save first second
    (e.rows fileUuid (username, fromDeviceId, sender) (username, fromDeviceId))

/-- **`get_decrypted_message`.** -/
def getDecryptedMessage (A : Aead Key) (B : KeyBytes Key) (kek : Option Key) (fileUuid : String)
    (t : MessageEntries) : Except Fault (List UInt8) :=
  t.read A B kek "No message found with the given file_uuid" "No key found for the given file_uuid"
    (·.key = fileUuid) (·.key = fileUuid)

end MessageEntries

/-! ### Ratchets -/

/-- `ratchets` and `ratchet_keys`, by device, with the username. -/
abbrev RatchetEntries := EntryTables Key String String

namespace RatchetEntries

/-- `WHERE username = ? AND device_id = ?`. -/
def ofDevice (username : String) (deviceId : Key) (row : CipherRow Key String) : Bool :=
  row.info = username && row.key = deviceId

/-- **`save_ratchet_and_key_by_username_device`.** -/
def saveRatchetAndKeyByUsernameDevice (username : String) (deviceId : Key) (e : Envelope)
    (first second : Except Fault Unit) : Throwing RatchetEntries Fault Unit :=
  EntryTables.save first second (e.rows deviceId username username)

variable (A : Aead Key) (B : KeyBytes Key) (kek : Option Key)

/-- **`NewRatchet::save`**: the bytes of a ratchet, under a key that is
drawn. -/
def saveRatchet (username : String) (deviceId : Key) {r : NewRatchet Key} (m : r.InMemory)
    (draws : EnvelopeDraws Key) (first second : Except Fault Unit) :
    Throwing RatchetEntries Fault Unit := do
  let kek ← Throwing.answer (orThrow "KEK not loaded" kek)
  saveRatchetAndKeyByUsernameDevice username deviceId (.enclose A B kek draws m.serialise) first
    second

/-- With a KEK that is a save of its bytes, from which the ratchet is made
again. -/
theorem saveRatchet_of_some {A : Aead Key} {B : KeyBytes Key} {kek : Key} {username : String}
    {deviceId : Key} {r : NewRatchet Key} (m : r.InMemory) (hlen : m.entries.length < 2 ^ 32)
    (draws : EnvelopeDraws Key) (first second : Except Fault Unit) :
    saveRatchet A B (some kek) username deviceId m draws first second
        = saveRatchetAndKeyByUsernameDevice username deviceId (.enclose A B kek draws m.serialise)
          first second
      ∧ NewRatchet.ofSerialised m.serialise = some r :=
  ⟨rfl, (NewRatchet.reads_deserialise m hlen).ofText⟩

/-- **`get_decrypted_ratchet_by_username_device`.** -/
def getDecryptedRatchetByUsernameDevice (username : String) (deviceId : Key)
    (t : RatchetEntries) : Except Fault (List UInt8) :=
  t.read A B kek "No ratchet found for the given username and device_id"
    "No key found for the given username and device_id" (ofDevice username deviceId)
    (ofDevice username deviceId)

/-- What `get_all_decrypted_ratchets` makes of a row. -/
def openRatchet (t : RatchetEntries) (row : CipherRow Key String) : Option (List UInt8) :=
  (t.openRow A B kek "" (ofDevice row.info row.key) row).toOption

/-- **`get_all_decrypted_ratchets`**: a row that cannot be opened is skipped. -/
def getAllDecryptedRatchets (t : RatchetEntries) : List (String × Key × List UInt8) :=
  t.data.rows.filterMap fun row =>
    (t.openRatchet A B kek row).map fun serialised => (row.info, row.key, serialised)

/-- A ratchet that is loaded; bytes of which none can be made are skipped as
well. -/
def loadRatchet (s : SessionStore Key) : String × Key × List UInt8 → SessionStore Key
  | (username, deviceId, serialised) =>
    match NewRatchet.ofSerialised serialised with
    | some r => s.hold username deviceId r
    | none => s

/-- **`load_ratchets_from_db`.** -/
def loadRatchetsFromDb (t : RatchetEntries) (s : SessionStore Key) : SessionStore Key :=
  (t.getAllDecryptedRatchets A B kek).foldl loadRatchet s

/-- The session a process has that has just loaded them. -/
def loaded (username : String) (deviceId : Key) (t : RatchetEntries) : Option (NewRatchet Key) :=
  (t.loadRatchetsFromDb A B kek ⟨∅, ∅, ∅⟩).session username deviceId

end RatchetEntries

/-! ## What is read -/

section Reading

variable {A : Aead Key} {B : KeyBytes Key} {kek : Option Key} {noEntry noKey : String}
  {p : CipherRow κ α → Bool} {q : CipherRow κ β → Bool} {t : EntryTables κ α β}

theorem toOption_orThrow_bind {γ δ : Type} (what : String) (x : Option γ)
    (f : γ → Except Fault δ) :
    (orThrow what x >>= f).toOption = x.bind fun a => (f a).toOption := by
  cases x <;> rfl

namespace EntryTables

/-- What is missing of a row does not matter to what is read of it. -/
theorem toOption_openRow (row : CipherRow κ α) : (t.openRow A B kek noKey q row).toOption
    = (t.keys.select q).bind fun keyRow => kek.bind fun kek =>
      ((Envelope.mk row.blob row.nonce keyRow.blob keyRow.nonce).contents A B kek).toOption := by
  unfold openRow
  simp only [toOption_orThrow_bind]

theorem toOption_read : (t.read A B kek noEntry noKey p q).toOption
    = (t.data.select p).bind fun row => (t.openRow A B kek noKey q row).toOption := by
  unfold read
  rw [toOption_orThrow_bind]

end EntryTables

namespace RatchetEntries

variable {t : RatchetEntries} {username : String} {deviceId : Key}

theorem ofDevice_iff {row : CipherRow Key String} :
    ofDevice username deviceId row = true ↔ row.info = username ∧ row.key = deviceId := by
  rw [ofDevice, Bool.and_eq_true, decide_eq_true_iff, decide_eq_true_iff]

theorem isKey_ofDevice : Table.IsKey CipherRow.Clash (ofDevice username deviceId) :=
  fun _ _ ha hb => Or.inl ((ofDevice_iff.mp ha).2.trans (ofDevice_iff.mp hb).2.symm)

/-- What is loaded is the session of its own username and device, -/
theorem session_loadRatchet_self (s : SessionStore Key) (serialised : List UInt8) :
    (loadRatchet s (username, deviceId, serialised)).session username deviceId
      = (NewRatchet.ofSerialised serialised).or (s.session username deviceId) := by
  rw [loadRatchet]
  split
  · rename_i r hr
    rw [hr, SessionStore.session_hold]
    rfl
  · rename_i hr
    rw [hr]
    rfl

/-- and of no other. -/
theorem session_loadRatchet_of_ne (s : SessionStore Key) {user : String} {device : Key}
    {serialised : List UInt8} (h : (username, deviceId) ≠ (user, device)) :
    (loadRatchet s (user, device, serialised)).session username deviceId
      = s.session username deviceId := by
  rw [loadRatchet]
  split
  · exact SessionStore.session_hold_of_ne _ _ _ _ _ _ h
  · rfl

/-- **What rows make of a session**, of which there is at most one of the
device. -/
theorem session_foldl (t : RatchetEntries) (l : List (CipherRow Key String))
    (hl : l.Pairwise fun a b => ¬ CipherRow.Clash a b) (s : SessionStore Key) :
    ((l.filterMap fun row => (t.openRatchet A B kek row).map fun serialised =>
        (row.info, row.key, serialised)).foldl loadRatchet s).session username deviceId
      = ((l.find? (ofDevice username deviceId)).bind fun row =>
          (t.openRatchet A B kek row).bind NewRatchet.ofSerialised).or
        (s.session username deviceId) := by
  induction l generalizing s with
  | nil => rfl
  | cons row l ih =>
    obtain ⟨hfirst, hrest⟩ := List.pairwise_cons.mp hl
    rw [List.filterMap_cons, List.find?_cons]
    cases hrow : ofDevice username deviceId row with
    | true =>
      obtain ⟨rfl, rfl⟩ := ofDevice_iff.mp hrow
      have hnone : l.find? (ofDevice row.info row.key) = none := by
        refine List.find?_eq_none.mpr fun r hr hof => hfirst r hr ?_
        exact Or.inl (ofDevice_iff.mp hof).2.symm
      simp only [Option.bind_some]
      cases t.openRatchet A B kek row with
      | none =>
        show (List.foldl loadRatchet s (l.filterMap _)).session _ _ = _
        rw [ih hrest, hnone]
        rfl
      | some serialised =>
        show (List.foldl loadRatchet (loadRatchet s _) (l.filterMap _)).session _ _ = _
        rw [ih hrest, hnone]
        exact session_loadRatchet_self s serialised
    | false =>
      have hne : (username, deviceId) ≠ (row.info, row.key) := by
        rintro ⟨⟩
        exact Bool.false_ne_true (hrow.symm.trans (ofDevice_iff.mpr ⟨rfl, rfl⟩))
      cases t.openRatchet A B kek row with
      | none => exact ih hrest s
      | some serialised =>
        show (List.foldl loadRatchet (loadRatchet s _) (l.filterMap _)).session _ _ = _
        rw [ih hrest]
        exact congrArg (Option.or _) (session_loadRatchet_of_ne s hne)

/-- **What is loaded is what is read**, made a ratchet. -/
theorem loaded_eq (t : RatchetEntries) : t.loaded A B kek username deviceId
    = (t.getDecryptedRatchetByUsernameDevice A B kek username deviceId).toOption.bind
      NewRatchet.ofSerialised := by
  have hempty : (⟨∅, ∅, ∅⟩ : SessionStore Key).session username deviceId = none :=
    SessionStore.session_restart (s := ⟨∅, ∅, ∅⟩)
  unfold loaded loadRatchetsFromDb getAllDecryptedRatchets
  rw [session_foldl t t.data.rows t.data.sound, hempty, Option.or_none]
  unfold getDecryptedRatchetByUsernameDevice
  rw [EntryTables.toOption_read, Option.bind_assoc]
  show (t.data.select (ofDevice username deviceId)).bind _ = _
  cases hrow : t.data.select (ofDevice username deviceId) with
  | none => rfl
  | some row =>
    obtain ⟨rfl, rfl⟩ := ofDevice_iff.mp ((Table.mem_select isKey_ofDevice).mp hrow).2
    rw [Option.bind_some, Option.bind_some, openRatchet, EntryTables.toOption_openRow,
      EntryTables.toOption_openRow]

end RatchetEntries

end Reading

/-! ## Saves that get no further -/

section Saves

variable {A : Aead Key} {B : KeyBytes Key} {kek : Key} {noEntry noKey : String}
  {p : CipherRow κ α → Bool} {q : CipherRow κ β → Bool} {t : EntryTables κ α β}
  {draws : EnvelopeDraws Key} {bytes : List UInt8}

/-- **Nothing is lost**: where something was read, it is read still, or what
was to replace it is. -/
def NothingLost {γ : Type} (before after : Option γ) (new : γ) : Prop :=
  ∀ old, before = some old → after = some old ∨ after = some new

/-- **The wrapped key that is stored** opens to a key. -/
def EntryTables.HoldsKey (A : Aead Key) (B : KeyBytes Key) (kek : Key)
    (q : CipherRow κ β → Bool) (key : Key) (t : EntryTables κ α β) : Prop :=
  ∃ keyRow, t.keys.select q = some keyRow
    ∧ (A.decrypt keyRow.nonce keyRow.blob kek).map B.keyAt = some key

/-- Something sealed under a key opens with a stored key that is the same,
and with no other. -/
theorem Envelope.contents_of_drawn (hA : A.Ideal) (e : Envelope)
    (hnonce : e.nonce = draws.nonce)
    (hdata : e.encryptedData = A.encrypt draws.nonce bytes draws.key) (found : List UInt8) :
    (e.contents A B kek).toOption = some found
      ↔ (A.decrypt e.keyNonce e.encryptedKey kek).map B.keyAt = some draws.key ∧ found = bytes := by
  unfold Envelope.contents
  rw [toOption_orThrow_bind, hnonce, hdata]
  cases A.decrypt e.keyNonce e.encryptedKey kek with
  | none => exact iff_of_false nofun fun h => nomatch h.1
  | some keyBytes =>
    rw [Option.bind_some, Option.map_some]
    constructor
    · intro h
      have hopen : A.decrypt draws.nonce (A.encrypt draws.nonce bytes draws.key)
          (B.keyAt keyBytes) = some found := by
        revert h
        cases A.decrypt draws.nonce (A.encrypt draws.nonce bytes draws.key) (B.keyAt keyBytes)
        · exact nofun
        · exact id
      have hkey : B.keyAt keyBytes = draws.key :=
        hA.opens_only draws.nonce bytes draws.key _ (hopen ▸ rfl)
      rw [hkey, hA.opens] at hopen
      exact ⟨congrArg some hkey, (Option.some.inj hopen).symm⟩
    · rintro ⟨hkey, rfl⟩
      rw [Option.some.inj hkey, hA.opens]
      rfl

section Entry

variable [DecidableEq κ] {first second : Except Fault Unit}

/-- A save whose first statement fails does nothing, -/
theorem EntryTables.save_of_first (rows : EntryRows κ α β) (h : first ≠ .ok ()) :
    (save first second rows t).2 = t := by
  cases first with
  | error e => rfl
  | ok _ => exact absurd rfl h

/-- and one whose second fails has done the first. -/
theorem EntryTables.save_of_second (rows : EntryRows κ α β) (h : second ≠ .ok ()) :
    (save (.ok ()) second rows t).2 = { t with data := t.data.insertOrReplace rows.data } := by
  cases second with
  | error e => rfl
  | ok _ => exact absurd rfl h

/-- **In between**, the new entry is read if its key happens to be stored, and
nothing if not. -/
theorem EntryTables.toOption_read_between (hA : A.Ideal) {key : κ} {info : α} {keyInfo : β}
    (hp : Table.IsKey CipherRow.Clash p)
    (hrow : p ((Envelope.enclose A B kek draws bytes).rows key info keyInfo).data = true)
    (found : List UInt8) :
    (read A B (some kek) noEntry noKey p q { t with
        data := t.data.insertOrReplace
          ((Envelope.enclose A B kek draws bytes).rows key info keyInfo).data }).toOption
        = some found
      ↔ t.HoldsKey A B kek q draws.key ∧ found = bytes := by
  rw [toOption_read, Table.select_insertOrReplace_self hp hrow, Option.bind_some,
    toOption_openRow]
  show (t.keys.select q).bind _ = some found ↔ _
  unfold HoldsKey
  cases t.keys.select q with
  | none => exact iff_of_false nofun fun ⟨⟨_, h, _⟩, _⟩ => nomatch h
  | some keyRow =>
    rw [Option.bind_some, Option.bind_some, Envelope.contents_of_drawn hA _ rfl rfl]
    refine and_congr_left fun _ => ⟨fun h => ⟨keyRow, rfl, h⟩, ?_⟩
    rintro ⟨keyRow', hkeyRow, h⟩
    obtain rfl := Option.some.inj hkeyRow
    exact h

/-- **A save that fails loses nothing** exactly if its first statement does,
or there is nothing to lose, or the key that was drawn is the one stored. -/
theorem EntryTables.nothingLost_iff (hA : A.Ideal) {key : κ} {info : α} {keyInfo : β}
    (hp : Table.IsKey CipherRow.Clash p)
    (hrow : p ((Envelope.enclose A B kek draws bytes).rows key info keyInfo).data = true)
    (hfails : first ≠ .ok () ∨ second ≠ .ok ()) :
    NothingLost (t.read A B (some kek) noEntry noKey p q).toOption
        ((save first second ((Envelope.enclose A B kek draws bytes).rows key info keyInfo)
          t).2.read A B (some kek) noEntry noKey p q).toOption bytes
      ↔ first ≠ .ok () ∨ (t.read A B (some kek) noEntry noKey p q).toOption = none
        ∨ t.HoldsKey A B kek q draws.key := by
  by_cases hfirst : first = .ok ()
  · subst hfirst
    have hsecond := hfails.resolve_left (not_not.mpr rfl)
    rw [save_of_second _ hsecond, or_iff_right (not_not.mpr rfl)]
    constructor
    · intro hlost
      cases hread : (t.read A B (some kek) noEntry noKey p q).toOption with
      | none => exact Or.inl rfl
      | some old =>
        refine Or.inr ?_
        rcases hlost old hread with hold | hnew
        · exact ((toOption_read_between hA hp hrow old).mp hold).1
        · exact ((toOption_read_between hA hp hrow bytes).mp hnew).1
    · rintro (hread | hkey) old hold
      · cases hread.symm.trans hold
      · exact Or.inr ((toOption_read_between hA hp hrow bytes).mpr ⟨hkey, rfl⟩)
  · rw [save_of_first _ hfirst]
    exact iff_of_true (fun old hold => Or.inl hold) (Or.inl hfirst)

end Entry

/-- Where nothing that is read is lost, neither is what is made of it. -/
theorem NothingLost.bind {γ δ : Type} {before after : Option γ} {new : γ}
    (h : NothingLost before after new) {f : γ → Option δ} {made : δ} (hnew : f new = some made) :
    NothingLost (before.bind f) (after.bind f) made := by
  intro old hold
  obtain ⟨a, ha, hf⟩ := Option.bind_eq_some_iff.mp hold
  rcases h a ha with h | h
  · rw [h]
    exact Or.inl hf
  · rw [h]
    exact Or.inr hnew

end Saves

namespace MessageEntries

theorem isKey_fileUuid {α : Type} {fileUuid : String} :
    Table.IsKey (CipherRow.Clash (κ := String) (α := α)) fun row => row.key = fileUuid :=
  fun _ _ ha hb => Or.inl ((of_decide_eq_true ha).trans (of_decide_eq_true hb).symm)

end MessageEntries

section Calls

variable (A : Aead Key) (B : KeyBytes Key) (kek : Key)

/-- **A ratchet is not lost**, whether it is read by itself or loaded with all
others. -/
def RatchetEntries.NotLost (username : String) (deviceId : Key) (bytes : List UInt8)
    (r : NewRatchet Key) (before after : RatchetEntries) : Prop :=
  NothingLost
      (before.getDecryptedRatchetByUsernameDevice A B (some kek) username deviceId).toOption
      (after.getDecryptedRatchetByUsernameDevice A B (some kek) username deviceId).toOption bytes
    ∧ NothingLost (before.loaded A B (some kek) username deviceId)
      (after.loaded A B (some kek) username deviceId) r

/-- **A message is not lost.** -/
def MessageEntries.NotLost (fileUuid : String) (bytes : List UInt8)
    (before after : MessageEntries) : Prop :=
  NothingLost (before.getDecryptedMessage A B (some kek) fileUuid).toOption
    (after.getDecryptedMessage A B (some kek) fileUuid).toOption bytes

variable {A}

/-- **A failed save loses nothing** exactly if its first statement did not
run, or nothing was there to be read, or the key that was drawn for it is the
one that is stored already. -/
theorem savesLoseNothing_iff (hA : A.Ideal) (draws : EnvelopeDraws Key) (bytes : List UInt8)
    (first second : Except Fault Unit) (hfails : first ≠ .ok () ∨ second ≠ .ok ()) :
    (∀ (t : RatchetEntries) username deviceId r, NewRatchet.ofSerialised bytes = some r →
      (t.NotLost A B kek username deviceId bytes r
          (RatchetEntries.saveRatchetAndKeyByUsernameDevice username deviceId
            (.enclose A B kek draws bytes) first second t).2
        ↔ first ≠ .ok ()
          ∨ (t.getDecryptedRatchetByUsernameDevice A B (some kek) username deviceId).toOption = none
          ∨ t.HoldsKey A B kek (RatchetEntries.ofDevice username deviceId) draws.key))
    ∧ ∀ (t : MessageEntries) username fromDeviceId fileUuid sender,
      (t.NotLost A B kek fileUuid bytes
          (MessageEntries.saveMessageAndKey username fromDeviceId fileUuid
            (.enclose A B kek draws bytes) sender first second t).2
        ↔ first ≠ .ok () ∨ (t.getDecryptedMessage A B (some kek) fileUuid).toOption = none
          ∨ t.HoldsKey A B kek (fun row => row.key = fileUuid) draws.key) := by
  refine ⟨fun t username deviceId r hr => ?_, fun t username fromDeviceId fileUuid sender => ?_⟩
  · refine Iff.trans ⟨And.left, fun h => ⟨h, ?_⟩⟩ (EntryTables.nothingLost_iff hA
      RatchetEntries.isKey_ofDevice (RatchetEntries.ofDevice_iff.mpr ⟨rfl, rfl⟩) hfails)
    rw [RatchetEntries.loaded_eq, RatchetEntries.loaded_eq]
    exact h.bind hr
  · exact EntryTables.nothingLost_iff hA MessageEntries.isKey_fileUuid (decide_eq_true rfl) hfails

end Calls

/-! ### Two saves of one entry -/

namespace EnvelopeDraws

/-- Drawn for a save: a key, and two nonces. -/
def repeated (n : UInt8) : EnvelopeDraws Key := ⟨.repeated n, [n, 0], [n, 1]⟩

end EnvelopeDraws

namespace EntryTables

/-- The bytes of a ratchet, sealed for a save. -/
def sealed (n : UInt8) : Envelope :=
  .enclose .labelled .array (.repeated 8) (.repeated n) NewRatchet.twoHeldBackInMemory.serialise

/-- Bob's ratchet is stored. -/
def bob : RatchetEntries :=
  (RatchetEntries.saveRatchetAndKeyByUsernameDevice "bob" (.repeated 5) (sealed 1) (.ok ()) (.ok ())
    .empty).2

/-- It is saved again, and the second statement fails. -/
def bobAgain (n : UInt8) : RatchetEntries :=
  (RatchetEntries.saveRatchetAndKeyByUsernameDevice "bob" (.repeated 5) (sealed n) (.ok ())
    (.error (.runtimeError "Failed to execute statement: disk I/O error")) bob).2

/-- A message is stored, -/
def report : MessageEntries :=
  (MessageEntries.saveMessageAndKey "bob" (.repeated 5) "report" (sealed 1) false (.ok ()) (.ok ())
    .empty).2

/-- and once more, not to the end. -/
def reportAgain (n : UInt8) : MessageEntries :=
  (MessageEntries.saveMessageAndKey "bob" (.repeated 5) "report" (sealed n) false (.ok ())
    (.error (.runtimeError "Failed to execute statement: disk I/O error")) report).2

end EntryTables

open EntryTables

/-- Drawn a second time, the key of the first is no loss; neither is a save
that does not begin. -/
theorem savesLoseNothing_iff_repeated :
    bob.NotLost .labelled .array (.repeated 8) "bob" (.repeated 5)
        NewRatchet.twoHeldBackInMemory.serialise NewRatchet.twoHeldBack (bobAgain 1)
      ∧ report.NotLost .labelled .array (.repeated 8) "report"
        NewRatchet.twoHeldBackInMemory.serialise (reportAgain 1) := by
  have hread : NewRatchet.ofSerialised NewRatchet.twoHeldBackInMemory.serialise
      = some NewRatchet.twoHeldBack :=
    (NewRatchet.reads_deserialise NewRatchet.twoHeldBackInMemory (by decide)).ofText
  have h := savesLoseNothing_iff .array (.repeated 8) Aead.labelled_ideal (.repeated 1)
    NewRatchet.twoHeldBackInMemory.serialise (.ok ())
    (.error (.runtimeError "Failed to execute statement: disk I/O error")) (Or.inr nofun)
  refine ⟨(h.1 bob "bob" (.repeated 5) _ hread).mpr (Or.inr (Or.inr ?_)),
    (h.2 report "bob" (.repeated 5) "report" false).mpr (Or.inr (Or.inr ?_))⟩
  · exact ⟨_, rfl, by decide +kernel⟩
  · exact ⟨_, rfl, by decide +kernel⟩

/-- **Where it is lost**: with another key, the ratchet cannot be decrypted and
is not loaded, and the message cannot be decrypted. -/
theorem not_savesLoseNothing_repeated :
    bob.getDecryptedRatchetByUsernameDevice .labelled .array (some (.repeated 8)) "bob"
        (.repeated 5) = .ok NewRatchet.twoHeldBackInMemory.serialise
      ∧ (bobAgain 2).getDecryptedRatchetByUsernameDevice .labelled .array (some (.repeated 8)) "bob"
        (.repeated 5) = .error (.runtimeError "Failed to decrypt file")
      ∧ (bob.loaded .labelled .array (some (.repeated 8)) "bob" (.repeated 5)).isSome
      ∧ (bobAgain 2).loaded .labelled .array (some (.repeated 8)) "bob" (.repeated 5) = none
      ∧ ¬ bob.NotLost .labelled .array (.repeated 8) "bob" (.repeated 5)
        NewRatchet.twoHeldBackInMemory.serialise NewRatchet.twoHeldBack (bobAgain 2)
      ∧ ¬ report.NotLost .labelled .array (.repeated 8) "report"
        NewRatchet.twoHeldBackInMemory.serialise (reportAgain 2) := by
  have hbefore : bob.getDecryptedRatchetByUsernameDevice .labelled .array (some (.repeated 8)) "bob"
      (.repeated 5) = .ok NewRatchet.twoHeldBackInMemory.serialise := by
    decide +kernel
  have hafter : (bobAgain 2).getDecryptedRatchetByUsernameDevice .labelled .array
      (some (.repeated 8)) "bob" (.repeated 5)
        = .error (.runtimeError "Failed to decrypt file") := by
    decide +kernel
  have hmessage : (report.getDecryptedMessage .labelled .array (some (.repeated 8))
      "report").toOption = some NewRatchet.twoHeldBackInMemory.serialise := by
    decide +kernel
  have hnone : ((reportAgain 2).getDecryptedMessage .labelled .array (some (.repeated 8))
      "report").toOption = none := by
    decide +kernel
  refine ⟨hbefore, hafter, by decide +kernel, by decide +kernel, fun hkept => ?_, fun hkept => ?_⟩
  · have hlost := hkept.1 NewRatchet.twoHeldBackInMemory.serialise (by rw [hbefore]; rfl)
    rw [hafter] at hlost
    exact hlost.elim nofun nofun
  · have hlost := hkept NewRatchet.twoHeldBackInMemory.serialise hmessage
    rw [hnone] at hlost
    exact hlost.elim nofun nofun
