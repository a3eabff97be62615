import Eastwood.RotatedAccess

/-!
# Published one-time prekeys

A login that posts new keys draws one-time prekeys, stores them row by row
and posts the public ones. A row that cannot be stored is reported and passed
over, and its key is posted all the same: a peer may use it, and the private
key is nowhere.

So all that is posted is stored exactly if the table has a row for each of
the keys that opens to its private key (`published_iff`), which for keys that
are drawn for the first time is that no row failed (`published_iff_of_new`).
-/

open Throwing

variable {K : Type} [LinearOrder K]

/-! ## Saving, with failures -/

/-- **A one-time key as it is drawn**, and how its statement goes: whether it
can be prepared, and whether it is carried out. A constraint other than that
of the public key is among what may fail. -/
structure OnetimeDraw (K : Type) where
  publicKey : K
  privateKey : K
  nonce : List UInt8
  prepared : Except Fault Unit
  stepped : Except Fault Unit

/-- The pair and the nonce. -/
def OnetimeDraw.drawn (d : OnetimeDraw K) : (K × K) × List UInt8 :=
  ((d.publicKey, d.privateKey), d.nonce)

/-- Nothing about the statement fails. -/
def OnetimeDraw.succeeds (d : OnetimeDraw K) : Bool := d.prepared.isOk && d.stepped.isOk

/-- One round of the loop: a row whose public key is there changes nothing. -/
def insertOnetimeKey (row : K × EncryptedKey) (d : OnetimeDraw K) : AccountM K Unit := do
  Throwing.answer d.prepared
  Throwing.answer d.stepped
  execute (Tables.insertOnetime · row)

/-- **`save_encrypted_onetime_keys`**, each row with how it goes: what is
thrown in a round is caught there. -/
def saveOnetimeKeys : List ((K × EncryptedKey) × OnetimeDraw K) → AccountM K Unit
  | [] => return
  | (row, d) :: keys => do
    caught (insertOnetimeKey row d)
    saveOnetimeKeys keys

section Publish

variable (C : AccountCrypto K)

/-- **`generate_onetime_keys`**: all that was drawn is returned. -/
def generateOnetimeKeys (draws : List (OnetimeDraw K)) : AccountM K (List (K × EncryptedKey)) := do
  let keys ← encryptOnetimeKeys C (draws.map OnetimeDraw.drawn)
  saveOnetimeKeys (keys.zip draws)
  return keys

/-- **What `login_user` passes to `post_new_keybundles`.** -/
def keysToPost (d : PrekeyDraws K) (draws : List (OnetimeDraw K)) :
    AccountM K (List (K × EncryptedKey)) := do
  let lastUpdated ← getSignedPrekeyLastUpdated
  (if lastUpdated.all fun t => t < d.now - Responder.maxAge then generateSignedPrekey C d
    else pure ())
  let _ ← getDecryptedKeypair C "device"
  generateOnetimeKeys C draws

/-- **Every published key is stored**: what is posted are the public keys
drawn, and each of them finds its private key. -/
def PublishedAreStored (keys : List (K × EncryptedKey)) (draws : List (OnetimeDraw K))
    (m : Machine K) : Prop :=
  keys.map (·.1) = draws.map (·.publicKey)
    ∧ ∀ d ∈ draws, (getOnetimePrivateKey C (some d.publicKey) m).1 = .ok (some d.privateKey)

/-- The private key a public one is kept with: that of the row there was, or
else that of the first row that succeeds. -/
def keptWith (kek : K) (rows : List (K × EncryptedKey)) (draws : List (OnetimeDraw K))
    (publicKey : K) : Option K :=
  match rows.find? (·.1 = publicKey) with
  | some row => (C.decryptKey "Failed to decrypt secret key" row.2 kek).toOption
  | none => (draws.find? fun d => d.publicKey = publicKey && d.succeeds).map (·.privateKey)

end Publish

/-! ## What is in the table -/

section Save

variable {m : Machine K} {t : Tables K}

/-- A row is found under its public key, unless there was one. -/
theorem find_insertOnetime (t : Tables K) (row : K × EncryptedKey) (publicKey : K) :
    (t.insertOnetime row).onetimePrekeys.find? (·.1 = publicKey)
      = (t.onetimePrekeys.find? (·.1 = publicKey)).or
        (if row.1 = publicKey then some row else none) := by
  unfold Tables.insertOnetime
  split
  · rename_i hthere
    split
    · rename_i hkey
      obtain ⟨row', hrow', hsame⟩ := List.any_eq_true.mp hthere
      cases hfind : t.onetimePrekeys.find? (·.1 = publicKey) with
      | some _ => rfl
      | none =>
        have hnone := List.find?_eq_none.mp hfind row' hrow'
        exact absurd (decide_eq_true ((of_decide_eq_true hsame).trans hkey)) hnone
    · rw [Option.or_none]
  · rw [List.find?_append, List.find?_cons, List.find?_nil]
    by_cases hkey : row.1 = publicKey
    · rw [if_pos hkey, decide_eq_true hkey]
    · rw [if_neg hkey, decide_eq_false hkey]

/-- **One round**: the row is inserted if nothing fails, and what fails is
nowhere else seen. -/
theorem caught_insertOnetimeKey (ht : m.tables = .ok t) (row : K × EncryptedKey)
    (d : OnetimeDraw K) : caught (insertOnetimeKey row d) m
      = (.ok (), if d.succeeds then m.setTables (t.insertOnetime row) else m) := by
  have hexecute : execute (Tables.insertOnetime · row) m
      = (.ok (), m.setTables (t.insertOnetime row)) :=
    bind_of_ok (query_of_tables ht Except.ok)
  unfold caught insertOnetimeKey OnetimeDraw.succeeds
  cases hprepared : d.prepared with
  | error e => rfl
  | ok _ =>
    cases hstepped : d.stepped with
    | error e => rfl
    | ok _ => exact congrArg (fun run => (Except.ok (), run.2)) hexecute

/-- **What the loop leaves**: the tables but for the rows, and of the rows
the first that succeeded of every key that had none. -/
theorem saveOnetimeKeys_spec (keys : List ((K × EncryptedKey) × OnetimeDraw K))
    (ht : m.tables = .ok t) :
    ∃ m' t', saveOnetimeKeys keys m = (.ok (), m') ∧ m'.tables = .ok t' ∧ m'.kek = m.kek
      ∧ ∀ publicKey, t'.onetimePrekeys.find? (·.1 = publicKey)
        = (t.onetimePrekeys.find? (·.1 = publicKey)).or
          ((keys.find? fun k => k.1.1 = publicKey && k.2.succeeds).map (·.1)) := by
  induction keys generalizing m t with
  | nil => exact ⟨m, t, rfl, ht, rfl, fun _ => (Option.or_none ..).symm⟩
  | cons k keys ih =>
    obtain ⟨row, d⟩ := k
    have hround := caught_insertOnetimeKey ht row d
    by_cases hd : d.succeeds
    · rw [if_pos hd] at hround
      obtain ⟨m', t', hrun, ht', hkek, hfind⟩ := ih (tables_setTables ht (t.insertOnetime row))
      refine ⟨m', t', (bind_of_ok hround).trans hrun, ht', hkek.trans (kek_setTables _),
        fun publicKey => ?_⟩
      rw [hfind, find_insertOnetime, Option.or_assoc, List.find?_cons, hd, Bool.and_true]
      by_cases hkey : row.1 = publicKey
      · rw [if_pos hkey, decide_eq_true hkey]
        rfl
      · rw [if_neg hkey, decide_eq_false hkey]
        rfl
    · rw [if_neg hd] at hround
      obtain ⟨m', t', hrun, ht', hkek, hfind⟩ := ih ht
      refine ⟨m', t', (bind_of_ok hround).trans hrun, ht', hkek, fun publicKey => ?_⟩
      rw [Bool.not_eq_true] at hd
      rw [hfind, List.find?_cons, hd, Bool.and_false]

end Save

/-! ## Where nothing fails -/

omit [LinearOrder K] in
/-- Tables that are written over are gone. -/
theorem setTables_setTables (m : Machine K) (t t' : Tables K) :
    (m.setTables t).setTables t' = m.setTables t' := by
  cases hconnection : m.connection with
  | none =>
    unfold Machine.setTables
    simp only [hconnection]
  | some c =>
    have hset : ∀ m' : Machine K, m'.connection = some c →
        ∀ t, m'.setTables t = m'.setDatabase c.1 ⟨c.2, some t⟩ := by
      intro m' h t
      unfold Machine.setTables
      rw [h]
    rw [hset m hconnection, hset m hconnection, hset (m.setDatabase _ _) hconnection,
      setDatabase_setDatabase]

/-- Tables that are as they are written stay. -/
theorem setTables_self {m : Machine K} {t : Tables K} (ht : m.tables = .ok t) :
    m.setTables t = m := by
  obtain ⟨user, key, hconnection, hdatabase⟩ := tables_eq_ok_iff.mp ht
  unfold Machine.setTables
  rw [hconnection]
  show m.setFiles user ⟨(m.files user).salt, some ⟨key, some t⟩⟩ = m
  rw [← hdatabase]
  exact setFiles_self

/-- Where there are no tables, every row fails. -/
theorem saveOnetimeKeys_of_error {m : Machine K} {e : Fault} (ht : m.tables = .error e)
    (keys : List ((K × EncryptedKey) × OnetimeDraw K)) :
    saveOnetimeKeys keys m = (.ok (), m) := by
  induction keys with
  | nil => rfl
  | cons k keys ih =>
    have hstays : (insertOnetimeKey k.1 k.2 m).2 = m := by
      unfold insertOnetimeKey
      cases k.2.prepared with
      | error e => rfl
      | ok _ =>
        cases k.2.stepped with
        | error e => rfl
        | ok _ =>
          obtain ⟨e', hrun⟩ | ⟨t, ht', -⟩ := execute_cases (Tables.insertOnetime · k.1) m
          · exact congrArg Prod.snd hrun
          · cases ht.symm.trans ht'
    have hround : caught (insertOnetimeKey k.1 k.2) m = (.ok (), m) :=
      congrArg (Except.ok (), ·) hstays
    exact (bind_of_ok hround).trans ih

/-- **Where no row fails**, the loop is one write. -/
theorem saveOnetimeKeys_of_succeeds {keys : List ((K × EncryptedKey) × OnetimeDraw K)}
    (h : ∀ k ∈ keys, k.2.succeeds) (m : Machine K) :
    saveOnetimeKeys keys m = saveEncryptedOnetimeKeys (keys.map (·.1)) m := by
  cases ht : m.tables with
  | error e => rw [saveEncryptedOnetimeKeys_of_error ht, saveOnetimeKeys_of_error ht]
  | ok t =>
    rw [saveEncryptedOnetimeKeys_of_tables ht]
    induction keys generalizing m t with
    | nil => exact congrArg (Except.ok (), ·) (setTables_self ht).symm
    | cons k keys ih =>
      obtain ⟨hk, hkeys⟩ := List.forall_mem_cons.mp h
      have hround := caught_insertOnetimeKey ht k.1 k.2
      rw [if_pos hk] at hround
      have hrest := ih hkeys _ _ (tables_setTables ht (t.insertOnetime k.1))
      rw [setTables_setTables] at hrest
      exact (bind_of_ok hround).trans hrest

section Stored

variable {C : AccountCrypto K} {m m' : Machine K} {t : Tables K} {kek : K}
  {draws : List (OnetimeDraw K)} {keys : List (K × EncryptedKey)}

/-- The row of a key, under the KEK. -/
def OnetimeDraw.row (C : AccountCrypto K) (kek : K) (d : OnetimeDraw K) : K × EncryptedKey :=
  (d.publicKey, C.encryptKey d.nonce d.privateKey kek)

omit [LinearOrder K] in
/-- Under a KEK that is loaded, keys are encrypted one by one. -/
theorem encryptOnetimeKeys_eq (hkek : m.kek = some kek) (draws : List (OnetimeDraw K)) :
    encryptOnetimeKeys C (draws.map OnetimeDraw.drawn) m
      = (.ok (draws.map (OnetimeDraw.row C kek)), m) := by
  induction draws with
  | nil => rfl
  | cons d draws ih =>
    have hsecret : encryptSecretKey C d.privateKey d.nonce m
        = (.ok (C.encryptKey d.nonce d.privateKey kek), m) := bind_of_ok (getKek_of_some hkek)
    exact (bind_of_ok hsecret).trans (bind_of_ok ih)

omit [LinearOrder K] in
/-- A key comes back from what it was encrypted to. -/
theorem decryptKey_encryptKey (hC : C.aead.Ideal) (what : String) (nonce : List UInt8)
    (sk kek : K) : C.decryptKey what (C.encryptKey nonce sk kek) kek = .ok sk := by
  unfold AccountCrypto.decryptKey AccountCrypto.encryptKey
  rw [hC.opens]
  exact congrArg Except.ok (C.keyBytes.keyAt_bytes sk)

/-- **What is found of a key**: its row, opened with the KEK. -/
theorem getOnetimePrivateKey_eq_iff (hkek : m.kek = some kek) (ht : m.tables = .ok t)
    (publicKey sk : K) : (getOnetimePrivateKey C (some publicKey) m).1 = .ok (some sk)
      ↔ ∃ row, t.onetimePrekeys.find? (·.1 = publicKey) = some row
        ∧ (C.decryptKey "Failed to decrypt secret key" row.2 kek).toOption = some sk := by
  have hquery := query_of_tables ht fun t =>
    Except.ok (t.onetimePrekeys.find? (·.1 = publicKey))
  simp only [getOnetimePrivateKey, bind_of_ok hquery]
  cases t.onetimePrekeys.find? (·.1 = publicKey) with
  | none => exact iff_of_false nofun fun ⟨_, hrow, _⟩ => nomatch hrow
  | some row =>
    simp only [bind_of_ok (getKek_of_some hkek)]
    cases hopened : C.decryptKey "Failed to decrypt secret key" row.2 kek with
    | error e =>
      refine iff_of_false nofun ?_
      rintro ⟨row', hrow, hsk⟩
      obtain rfl := Option.some.inj hrow
      rw [hopened] at hsk
      cases hsk
    | ok sk' =>
      constructor
      · intro h
        exact ⟨row, rfl, by rw [hopened]; exact Except.ok.inj h⟩
      · rintro ⟨row', hrow, hsk⟩
        obtain rfl := Option.some.inj hrow
        rw [hopened] at hsk
        exact congrArg Except.ok hsk

/-- **What is passed on, and what is stored of it**: every key drawn, and the
rows that are there. -/
theorem generateOnetimeKeys_spec (hC : C.aead.Ideal) (hkek : m.kek = some kek)
    (ht : m.tables = .ok t) (draws : List (OnetimeDraw K)) :
    ∃ m', generateOnetimeKeys C draws m = (.ok (draws.map (OnetimeDraw.row C kek)), m')
      ∧ ∀ publicKey sk, (getOnetimePrivateKey C (some publicKey) m').1 = .ok (some sk)
        ↔ keptWith C kek t.onetimePrekeys draws publicKey = some sk := by
  obtain ⟨m', t', hsaved, ht', hkek', hfind⟩ := saveOnetimeKeys_spec
    ((draws.map (OnetimeDraw.row C kek)).zip draws) ht
  refine ⟨m', (bind_of_ok (encryptOnetimeKeys_eq hkek draws)).trans (bind_of_ok hsaved),
    fun publicKey sk => ?_⟩
  rw [getOnetimePrivateKey_eq_iff (hkek'.trans hkek) ht', hfind, ← List.map_prod_right_eq_zip,
    List.find?_map, Option.map_map]
  unfold keptWith
  cases t.onetimePrekeys.find? (·.1 = publicKey) with
  | some row =>
    constructor
    · rintro ⟨row', hrow, hsk⟩
      obtain rfl := Option.some.inj hrow
      exact hsk
    · exact fun hsk => ⟨row, rfl, hsk⟩
  | none =>
    have hfirst : draws.find? ((fun k => decide (k.1.1 = publicKey) && k.2.succeeds) ∘
        fun d => (OnetimeDraw.row C kek d, d))
          = draws.find? fun d => d.publicKey = publicKey && d.succeeds := rfl
    rw [hfirst]
    cases draws.find? fun d => d.publicKey = publicKey && d.succeeds with
    | none => exact iff_of_false (fun ⟨_, hrow, _⟩ => nomatch hrow) nofun
    | some d =>
      have hopens : (C.decryptKey "Failed to decrypt secret key" (OnetimeDraw.row C kek d).2
          kek).toOption = some d.privateKey := by
        rw [OnetimeDraw.row, decryptKey_encryptKey hC]
        rfl
      constructor
      · rintro ⟨row, hrow, hsk⟩
        obtain rfl := Option.some.inj hrow
        exact hopens.symm.trans hsk
      · exact fun hsk => ⟨_, rfl, hopens.trans hsk⟩

omit [LinearOrder K] in
/-- No key is left out of those encrypted. -/
theorem length_encryptOnetimeKeys {onetime : List ((K × K) × List UInt8)}
    (h : encryptOnetimeKeys C onetime m = (.ok keys, m')) : keys.length = onetime.length := by
  induction onetime generalizing m keys m' with
  | nil =>
    obtain ⟨hkeys, -⟩ := Prod.mk.inj h
    obtain rfl := Except.ok.inj hkeys
    rfl
  | cons k onetime ih =>
    obtain ⟨e, m₁, -, hrest⟩ := exists_of_bind_ok h
    obtain ⟨rest, m₂, hencrypted, hreturned⟩ := exists_of_bind_ok hrest
    obtain rfl := Except.ok.inj (Prod.mk.inj hreturned).1
    exact congrArg (· + 1) (ih hencrypted)

/-- A key whose row does not fail. -/
def OnetimeDraw.ofDrawn (k : (K × K) × List UInt8) : OnetimeDraw K :=
  ⟨k.1.1, k.1.2, k.2, .ok (), .ok ()⟩

/-- **The prekeys of a login**, where no row fails, are those passed on. -/
theorem postNewKeys_eq (d : PrekeyDraws K) : postNewKeys C d = (do
    let _ ← keysToPost C d (d.onetime.map OnetimeDraw.ofDrawn)
    Throwing.answer d.posted) := by
  have hdrawn : (d.onetime.map OnetimeDraw.ofDrawn).map OnetimeDraw.drawn = d.onetime := by
    rw [List.map_map]
    exact List.map_id d.onetime
  have hgenerate : (encryptOnetimeKeys C d.onetime >>= fun keys =>
      saveEncryptedOnetimeKeys keys >>= fun _ => Throwing.answer d.posted)
        = generateOnetimeKeys C (d.onetime.map OnetimeDraw.ofDrawn) >>= fun _ =>
          Throwing.answer d.posted := by
    funext m
    unfold generateOnetimeKeys
    rw [hdrawn, Throwing.bind_assoc]
    obtain ⟨e, m', herror, hbind⟩ | ⟨keys, m', hkeys, hbind⟩ := bind_cases
      (encryptOnetimeKeys C d.onetime)
      (fun keys => saveEncryptedOnetimeKeys keys >>= fun _ => Throwing.answer d.posted) m
    · rw [hbind, bind_of_error herror]
    · have hlength : keys.length ≤ (d.onetime.map OnetimeDraw.ofDrawn).length := by
        rw [List.length_map]
        exact (length_encryptOnetimeKeys hkeys).le
      have hsucceeds : ∀ k ∈ keys.zip (d.onetime.map OnetimeDraw.ofDrawn), k.2.succeeds := by
        intro k hk
        obtain ⟨drawn, -, hdraw⟩ := List.mem_map.mp (List.of_mem_zip hk).2
        rw [← hdraw]
        rfl
      have hsaved := saveOnetimeKeys_of_succeeds hsucceeds m'
      rw [show (fun k : (K × EncryptedKey) × OnetimeDraw K => k.1) = Prod.fst from rfl,
        List.map_fst_zip hlength] at hsaved
      have hreturned : saveEncryptedOnetimeKeys keys m' = (.ok (), _) := rfl
      rw [hbind, bind_of_ok hkeys, bind_of_ok hreturned, Throwing.bind_assoc,
        bind_of_ok (hsaved.trans hreturned)]
      rfl
  unfold postNewKeys keysToPost
  simp only [Throwing.bind_assoc, hgenerate]

/-! ## The main result -/

/-- The one-time prekeys and the KEK as they were. -/
def Machine.KeepsOnetime (kek : Option K) (rows : List (K × EncryptedKey)) (m : Machine K) :
    Prop :=
  m.kek = kek ∧ ∃ t, m.tables = .ok t ∧ t.onetimePrekeys = rows

/-- The signed prekey is written to another table. -/
theorem keepsOnetime_generateSignedPrekey (kek : Option K) (rows : List (K × EncryptedKey))
    (d : PrekeyDraws K) : Keeps (Machine.KeepsOnetime kek rows) (generateSignedPrekey C d) := by
  have hexecute : ∀ label row, Keeps (Machine.KeepsOnetime kek rows)
      (saveEncryptedKeypair (K := K) label row) := by
    rintro label row m ⟨hkek, t, ht, hrows⟩
    obtain ⟨e, hrun⟩ | ⟨t', ht', hrun⟩ := execute_cases
      (fun t : Tables K => { t with keypairs := t.keypairs.insert label row }) m
    · rw [saveEncryptedKeypair, hrun]
      exact ⟨hkek, t, ht, hrows⟩
    · obtain rfl := Except.ok.inj (ht.symm.trans ht')
      rw [saveEncryptedKeypair, hrun]
      exact ⟨(kek_setTables _).trans hkek, _, tables_setTables ht _, hrows⟩
  exact (keeps_encryptSecretKey _ _).bind fun _ => (hexecute _ _).bind fun _ =>
    (keeps_getDecryptedKeypair _).bind fun _ => Keeps.pure _

/-- A key pair is only decrypted under a KEK. -/
theorem exists_kek_of_getDecryptedKeypair {label : String} {pair : K × K}
    (h : getDecryptedKeypair C label m = (.ok pair, m')) : ∃ kek, m'.kek = some kek := by
  obtain ⟨row, m₁, -, h⟩ := exists_of_bind_ok h
  obtain ⟨kek, m₂, hkek, h⟩ := exists_of_bind_ok h
  obtain ⟨sk, m₃, hsk, h⟩ := exists_of_bind_ok h
  obtain ⟨hread, rfl⟩ := Prod.mk.inj hkek
  obtain ⟨-, rfl⟩ := Prod.mk.inj hsk
  obtain ⟨-, rfl⟩ := Prod.mk.inj h
  have hread : orThrow "KEK not loaded" m₁.kek = .ok kek := hread
  cases hloaded : m₁.kek with
  | none =>
    rw [hloaded] at hread
    cases hread
  | some kek' => exact ⟨kek', rfl⟩

/-- **Where the prekeys of a login come from**: the tables it found, but for
the signed one. -/
theorem keysToPost_cases {d : PrekeyDraws K} (h : keysToPost C d draws m = (.ok keys, m')) :
    ∃ m₁ t t₁ kek, m.tables = .ok t ∧ m.kek = some kek ∧ m₁.tables = .ok t₁ ∧ m₁.kek = some kek
      ∧ t₁.onetimePrekeys = t.onetimePrekeys
      ∧ generateOnetimeKeys C draws m₁ = (.ok keys, m') := by
  obtain ⟨lastUpdated, m₀, hqueried, hrest⟩ := exists_of_bind_ok h
  obtain ⟨_, m₁, hsigned, hrest⟩ := exists_of_bind_ok hrest
  obtain ⟨pair, m₂, hpair, hgenerated⟩ := exists_of_bind_ok hrest
  obtain ⟨hread, rfl⟩ := Prod.mk.inj hqueried
  have hread : m.tables.bind _ = .ok lastUpdated := hread
  cases ht : m.tables with
  | error e =>
    rw [ht] at hread
    cases hread
  | ok t =>
    have hstart : m.KeepsOnetime m.kek t.onetimePrekeys := ⟨rfl, t, ht, rfl⟩
    have hkept : m₁.KeepsOnetime m.kek t.onetimePrekeys := by
      split at hsigned
      · exact (keepsOnetime_generateSignedPrekey _ _ d).gives _ _ _ hstart hsigned
      · exact (Keeps.pure ()).gives _ _ _ hstart hsigned
    obtain ⟨hkek₂, t₂, ht₂, hrows⟩ := (keeps_getDecryptedKeypair _).gives _ _ _ hkept hpair
    obtain ⟨kek, hkek⟩ := exists_kek_of_getDecryptedKeypair hpair
    exact ⟨m₂, t, t₂, kek, rfl, hkek₂.symm.trans hkek, ht₂, hkek, hrows, hgenerated⟩

/-- **What is passed on, and what is found of it**: every public key drawn,
and the private key it is kept with. -/
theorem keysToPost_spec (hC : C.Ideal) {d : PrekeyDraws K}
    (h : keysToPost C d draws m = (.ok keys, m')) :
    ∃ kek t, m.kek = some kek ∧ m.tables = .ok t
      ∧ keys.map (·.1) = draws.map (·.publicKey)
      ∧ ∀ publicKey sk, (getOnetimePrivateKey C (some publicKey) m').1 = .ok (some sk)
        ↔ keptWith C kek t.onetimePrekeys draws publicKey = some sk := by
  obtain ⟨m₁, t, t₁, kek, ht, hkek, ht₁, hkek₁, hrows, hgenerated⟩ := keysToPost_cases h
  obtain ⟨m₂, hgenerated', hstored⟩ := generateOnetimeKeys_spec hC.aead hkek₁ ht₁ draws
  obtain ⟨hkeys, rfl⟩ := Prod.mk.inj (hgenerated'.symm.trans hgenerated)
  obtain rfl := Except.ok.inj hkeys
  rw [hrows] at hstored
  refine ⟨kek, t, hkek, ht, ?_, hstored⟩
  rw [List.map_map]
  rfl

/-- **When all that is posted is stored**: for each key drawn the row there
was opens to its private key, or, if there was none, that of the first row
for it that succeeded. -/
theorem published_iff (hC : C.Ideal) {d : PrekeyDraws K}
    (h : keysToPost C d draws m = (.ok keys, m')) :
    PublishedAreStored C keys draws m' ↔ ∃ kek t, m.kek = some kek ∧ m.tables = .ok t
      ∧ ∀ d ∈ draws, keptWith C kek t.onetimePrekeys draws d.publicKey = some d.privateKey := by
  obtain ⟨kek, t, hkek, ht, hpublic, hstored⟩ := keysToPost_spec hC h
  constructor
  · rintro ⟨-, hfound⟩
    exact ⟨kek, t, hkek, ht, fun d hd => (hstored _ _).mp (hfound d hd)⟩
  · rintro ⟨kek', t', hkek', ht', hkept⟩
    obtain rfl := Option.some.inj (hkek.symm.trans hkek')
    obtain rfl := Except.ok.inj (ht.symm.trans ht')
    exact ⟨hpublic, fun d hd => (hstored _ _).mpr (hkept d hd)⟩

/-- **For keys that are new**, that is that no row failed. -/
theorem published_iff_of_new (hC : C.Ideal) {d : PrekeyDraws K}
    (h : keysToPost C d draws m = (.ok keys, m')) (hdistinct : (draws.map (·.publicKey)).Nodup)
    (hnew : ∀ t, m.tables = .ok t → ∀ d ∈ draws, ∀ row ∈ t.onetimePrekeys, row.1 ≠ d.publicKey) :
    PublishedAreStored C keys draws m' ↔ ∀ d ∈ draws, d.succeeds := by
  have hsame : ∀ d ∈ draws, ∀ d' ∈ draws, d'.publicKey = d.publicKey → d' = d :=
    fun d hd d' hd' hkey => List.inj_on_of_nodup_map hdistinct hd' hd hkey
  obtain ⟨kek, t, -, ht, hpublic, hstored⟩ := keysToPost_spec hC h
  have hkept : ∀ d ∈ draws,
      keptWith C kek t.onetimePrekeys draws d.publicKey = some d.privateKey ↔ d.succeeds := by
    intro d hd
    have hnone : t.onetimePrekeys.find? (·.1 = d.publicKey) = none :=
      List.find?_eq_none.mpr fun row hrow hkey => hnew t ht d hd row hrow (of_decide_eq_true hkey)
    unfold keptWith
    rw [hnone]
    cases hfound : draws.find? fun d' => d'.publicKey = d.publicKey && d'.succeeds with
    | none =>
      refine iff_of_false nofun fun hsucceeds => List.find?_eq_none.mp hfound d hd ?_
      rw [decide_eq_true rfl, hsucceeds]
      rfl
    | some d' =>
      have hfirst := List.find?_some hfound
      simp only [Bool.and_eq_true, decide_eq_true_eq] at hfirst
      obtain ⟨hkey, hsucceeds⟩ := hfirst
      obtain rfl := hsame d hd d' (List.mem_of_find?_eq_some hfound) hkey
      exact iff_of_true rfl hsucceeds
  exact ⟨fun hall d hd => (hkept d hd).mp ((hstored _ _).mp (hall.2 d hd)),
    fun hall => ⟨hpublic, fun d hd => (hstored _ _).mpr ((hkept d hd).mpr (hall d hd))⟩⟩

end Stored

/-! ## A row that fails -/

/-- Alice, logged in, with a device key. -/
def Machine.loggedIn : Machine ℕ where
  dataPath := ["data".toList]
  disk _ := ⟨none, some ⟨7, some { Tables.empty with
    keypairs := Finmap.singleton "device" ⟨2, AccountCrypto.ideal.encryptKey [2] 3 5, 0⟩ }⟩⟩
  connection := some ("alice", 7)
  kek := some 5
  ratchets := ∅

def PrekeyDraws.ideal : PrekeyDraws ℕ := ⟨0, 0, (11, 12), [3], [], .ok ()⟩

/-- Two keys, the second of which goes as given. -/
def OnetimeDraw.two (stepped : Except Fault Unit) : List (OnetimeDraw ℕ) :=
  [⟨21, 31, [4], .ok (), .ok ()⟩, ⟨22, 32, [5], .ok (), stepped⟩]

/-- If both go well, both are stored. -/
theorem published_iff_two : ∃ keys m', keysToPost .ideal .ideal (OnetimeDraw.two (.ok ()))
    .loggedIn = (.ok keys, m')
      ∧ PublishedAreStored .ideal keys (OnetimeDraw.two (.ok ())) m' := by
  have hok : (keysToPost .ideal .ideal (OnetimeDraw.two (.ok ())) .loggedIn).1.isOk := by
    decide +kernel
  obtain ⟨keys, hkeys⟩ := exists_of_isOk hok
  exact ⟨keys, _, Prod.ext hkeys rfl, (published_iff AccountCrypto.ideal_ideal
    (Prod.ext hkeys rfl)).mpr ⟨5, _, rfl, rfl, by decide +kernel⟩⟩

/-- A disk that is full. -/
def diskFull : Except Fault Unit :=
  .error (.runtimeError "Failed to execute statement: database or disk is full")

/-- **A key that is posted and not stored**: its row failed, and it is posted
with the other. -/
theorem not_publishedAreStored_two : ∃ keys m',
    keysToPost .ideal .ideal (OnetimeDraw.two diskFull) .loggedIn = (.ok keys, m')
      ∧ keys.map (·.1) = [21, 22]
      ∧ (∀ sk, (getOnetimePrivateKey .ideal (some 22) m').1 ≠ .ok (some sk))
      ∧ ¬ PublishedAreStored .ideal keys (OnetimeDraw.two diskFull) m' := by
  have hok : (keysToPost .ideal .ideal (OnetimeDraw.two diskFull) .loggedIn).1.isOk := by
    decide +kernel
  obtain ⟨keys, m', hrun⟩ : ∃ keys m',
      keysToPost .ideal .ideal (OnetimeDraw.two diskFull) .loggedIn = (.ok keys, m') :=
    (exists_of_isOk hok).imp fun keys hkeys => ⟨_, Prod.ext hkeys rfl⟩
  obtain ⟨kek, t, -, ht, hpublic, hstored⟩ := keysToPost_spec AccountCrypto.ideal_ideal hrun
  have hrows : t.onetimePrekeys = [] := by
    obtain rfl := Except.ok.inj ht
    rfl
  have hlost : ∀ sk, (getOnetimePrivateKey .ideal (some 22) m').1 ≠ .ok (some sk) := by
    intro sk hfound
    have hkept := (hstored 22 sk).mp hfound
    rw [hrows] at hkept
    cases hkept
  exact ⟨keys, m', hrun, hpublic, hlost, fun h => hlost 32 (h.2 _ (.tail _ (.head _)))⟩
