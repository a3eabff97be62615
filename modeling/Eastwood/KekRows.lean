import Eastwood.OwnStore

/-!
# The rows of the KEK

Whatever is called, in whatever order, and wherever it throws, the KEK's row
of every database is one that `encrypt_kek` made
(`AccountCall.keepsKekEncrypted_run`): it is stored by one statement, and
nothing else writes to `keys`.
-/

open Throwing

variable {K : Type}

/-- The KEK's row, if there is one, is one `encrypt_kek` made. -/
def Tables.KekEncrypted (C : AccountCrypto K) (t : Tables K) : Prop :=
  ∀ e, t.keys.lookup "kek" = some e → ∃ kek nonce masterKey, e = encryptKek C kek nonce masterKey

/-- And so in every database. -/
def Machine.KekEncrypted (C : AccountCrypto K) (m : Machine K) : Prop :=
  ∀ username d t, (m.files username).database = some d → d.tables = some t → t.KekEncrypted C

section KekEncrypted

variable {C : AccountCrypto K} {m : Machine K}

theorem Machine.KekEncrypted.setDatabase (h : m.KekEncrypted C) (user : String) (key : K)
    {tables : Option (Tables K)} (ht : ∀ t, tables = some t → t.KekEncrypted C) :
    (m.setDatabase user ⟨key, tables⟩).KekEncrypted C := by
  intro username d t hd hdt
  by_cases hu : m.place username = m.place user
  · rw [files_eq_of_place (m := m.setDatabase user _) hu, database_setDatabase] at hd
    rw [← Option.some.inj hd] at hdt
    exact ht t hdt
  · rw [files_setDatabase_of_ne hu] at hd
    exact h username d t hd hdt

theorem Machine.KekEncrypted.setTables (h : m.KekEncrypted C) {t : Tables K}
    (ht : t.KekEncrypted C) : (m.setTables t).KekEncrypted C := by
  unfold Machine.setTables
  cases m.connection with
  | none => exact h
  | some c => exact h.setDatabase c.1 c.2 fun t' ht' => Option.some.inj ht' ▸ ht

/-- Whatever else is changed in a table, -/
theorem Tables.KekEncrypted.of_keys {t t' : Tables K} (h : t.KekEncrypted C)
    (hkeys : t'.keys.lookup "kek" = t.keys.lookup "kek") : t'.KekEncrypted C := fun e he =>
  h e (hkeys ▸ he)

/-- and when the KEK is stored. -/
theorem Tables.KekEncrypted.insert (t : Tables K) (kek : K) (nonce : List UInt8) (masterKey : K) :
    Tables.KekEncrypted C
      { t with keys := t.keys.insert "kek" (encryptKek C kek nonce masterKey) } := by
  intro e he
  rw [Finmap.lookup_insert] at he
  exact ⟨kek, nonce, masterKey, (Option.some.inj he).symm⟩

variable [LinearOrder K]

theorem Machine.KekEncrypted.tables (h : m.KekEncrypted C) {t : Tables K}
    (ht : m.tables = .ok t) : t.KekEncrypted C := by
  obtain ⟨user, key, -, hd⟩ := tables_eq_ok_iff.mp ht
  exact h user _ t hd rfl

theorem keepsKekEncrypted_execute {f : Tables K → Tables K}
    (hf : ∀ t : Tables K, t.KekEncrypted C → (f t).KekEncrypted C) :
    Keeps (Machine.KekEncrypted C) (execute f) := by
  intro m h
  obtain ⟨e, hrun⟩ | ⟨t, ht, hrun⟩ := execute_cases f m
  · rw [hrun]
    exact h
  · rw [hrun]
    exact h.setTables (hf t (h.tables ht))

theorem keepsKekEncrypted_dropAllTables : Keeps (Machine.KekEncrypted C) dropAllTables := by
  intro m h
  obtain hrun | ⟨user, key, -, hrun⟩ := dropAllTables_cases m
  · rw [hrun]
    exact h
  · rw [hrun]
    exact h.setDatabase user key nofun

theorem keepsKekEncrypted_initSchema (created : Except Fault Unit) :
    Keeps (Machine.KekEncrypted C) (initSchema created) := by
  intro m h
  obtain ⟨e, hrun⟩ | ⟨user, key, t, -, hfrom, hrun⟩ := initSchema_cases created m
  · rw [hrun]
    exact h
  · rw [hrun]
    refine h.setDatabase user key fun t' ht' => ?_
    obtain rfl := Option.some.inj ht'
    obtain rfl | ⟨d, hd, ht⟩ := hfrom
    · exact fun e he => absurd he nofun
    · exact h user d t hd ht

theorem keepsKekEncrypted_initializeDatabase (username : String) (masterKey : K)
    (opened : Except Fault Unit) :
    Keeps (Machine.KekEncrypted C) (initializeDatabase username masterKey opened) := by
  intro m h
  obtain ⟨e, hrun, -⟩ | ⟨c, hrun, -⟩ := initializeDatabase_cases username masterKey opened m
  · rw [hrun]
    exact h
  · rw [hrun]
    exact h

omit [LinearOrder K] in
theorem keepsKekEncrypted_setKek (kek : K) : Keeps (Machine.KekEncrypted C) (setKek kek) :=
  Keeps.modify fun _ h => h

theorem keepsKekEncrypted_saveKek (kek : K) (nonce : List UInt8) (masterKey : K) :
    Keeps (Machine.KekEncrypted C) (saveEncryptedKey "kek" (encryptKek C kek nonce masterKey)) :=
  keepsKekEncrypted_execute fun t _ => Tables.KekEncrypted.insert t kek nonce masterKey

theorem keepsKekEncrypted_saveKeypair (label : String) (row : KeypairRow K) :
    Keeps (Machine.KekEncrypted C) (saveEncryptedKeypair label row) :=
  keepsKekEncrypted_execute fun _ h => h.of_keys rfl

theorem keepsKekEncrypted_saveOnetimeKeys (keys : List (K × EncryptedKey)) :
    Keeps (Machine.KekEncrypted C) (saveEncryptedOnetimeKeys keys) := by
  refine Keeps.modify fun m h => ?_
  cases ht : m.tables with
  | error e => exact h
  | ok t =>
    obtain ⟨rows, hrows⟩ := t.foldl_insertOnetime keys
    simp only [hrows]
    exact h.setTables ((h.tables ht).of_keys rfl)

omit [LinearOrder K] in
theorem keepsKekEncrypted_writeSalt (username : String) (bytes : List UInt8) :
    Keeps (Machine.KekEncrypted C) (writeSalt (K := K) username bytes) := by
  refine Keeps.modify fun m h user file t hd => ?_
  by_cases hu : m.place user = m.place username
  · rw [files_eq_of_place (m := m.setSalt username bytes) hu, database_setSalt] at hd
    exact h username file t hd
  · rw [files_setSalt_of_ne hu] at hd
    exact h user file t hd

/-! ### The calls -/

theorem keepsKekEncrypted_registerUser (username : String) (password : List UInt8)
    (d : Registration K) : Keeps (Machine.KekEncrypted C) (registerUser C username password d) :=
  keeps_registerUser (keepsKekEncrypted_writeSalt username)
    (keepsKekEncrypted_initializeDatabase username) keepsKekEncrypted_dropAllTables
    keepsKekEncrypted_initSchema keepsKekEncrypted_setKek password d
    (keepsKekEncrypted_saveKek _ _) keepsKekEncrypted_saveKeypair

theorem keepsKekEncrypted_loginUser (username : String) (password : List UInt8)
    (d : LoginDraws K) : Keeps (Machine.KekEncrypted C) (loginUser C username password d) := by
  have hload : Keeps (Machine.KekEncrypted C) (loadRatchetsFromDb (K := K)) :=
    (Keeps.reads _).bind fun _ => Keeps.modify fun _ h => h
  exact keeps_loginUser (keepsKekEncrypted_initializeDatabase username) keepsKekEncrypted_setKek
    hload keepsKekEncrypted_saveKeypair keepsKekEncrypted_saveOnetimeKeys password d

/-- **Every row of a KEK is one `encrypt_kek` made**, after any calls. -/
theorem AccountCall.keepsKekEncrypted_run (c : AccountCall K) :
    Keeps (Machine.KekEncrypted C) (c.run C) := by
  cases c with
  | registers username password d => exact keepsKekEncrypted_registerUser username password d
  | logsIn username password d => exact keepsKekEncrypted_loginUser username password d
  | logsOut answered =>
    intro m h
    show ((logout answered : AccountM K Unit) m).2.KekEncrypted C
    cases answered with
    | error e => exact h
    | ok _ => exact h

end KekEncrypted

