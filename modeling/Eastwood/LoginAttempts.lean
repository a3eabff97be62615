import Eastwood.Accounts
import Eastwood.Runs

/-!
# Login attempts

The login window counts attempts in a cache whose entry lives for a minute: a
fourth within the lifetime is refused before `login_user` is called. The
count is set before each attempt – and taken back within it, for the handler
clears the cache once it has the passphrase in secure memory, before it knows
whether the passphrase is right.

What is left to count is attempts that fail before that, for want of memory.
Three of those are followed by a refusal; three of which one had memory, and
got as far as `login_user`, are not, however fast they come
(`attemptsLimited_iff`).
-/

/-! ## The cache -/

/-- A number of seconds on the clock, which counts nanoseconds. -/
def seconds (n : ℤ) : ℤ := n * 10 ^ 9

/-- A value, and when it is out of date. -/
structure CacheEntry (T : Type) where
  data : T
  expiry : ℤ
  deriving DecidableEq

/-- **`Cache`**, whose entries last as long as `defaultTtl` unless they are
told otherwise. -/
structure Cache (T : Type) where
  cache : Finmap fun _ : String => CacheEntry T
  defaultTtl : ℤ

namespace Cache

variable {T : Type}

/-- `Cache::set`, at a time. -/
def set (now : ℤ) (key : String) (value : T) (ttl : ℤ) (c : Cache T) : Cache T :=
  let expiry := now + if 0 < ttl then ttl else c.defaultTtl
  { c with cache := c.cache.insert key ⟨value, expiry⟩ }

/-- `Cache::get`, at a time: what is out of date is erased. -/
def get (now : ℤ) (key : String) (c : Cache T) : Option T × Cache T :=
  match c.cache.lookup key with
  | none => (none, c)
  | some entry =>
    if entry.expiry < now then (none, { c with cache := c.cache.erase key })
    else (some entry.data, c)

/-- `Cache::clear`. -/
def clear (c : Cache T) : Cache T := { c with cache := ∅ }

variable {c : Cache T} {now later ttl : ℤ} {key : String} {value : T}

@[simp] theorem defaultTtl_set : (c.set now key value ttl).defaultTtl = c.defaultTtl := rfl

@[simp] theorem defaultTtl_clear : c.clear.defaultTtl = c.defaultTtl := rfl

@[simp] theorem defaultTtl_get : (c.get now key).2.defaultTtl = c.defaultTtl := by
  unfold get
  split
  · rfl
  · split <;> rfl

/-- **What is set is there until it is out of date.** -/
theorem get_set : ((c.set now key value 0).get later key).1
    = if now + c.defaultTtl < later then none else some value := by
  unfold get set
  simp only [Finmap.lookup_insert, lt_irrefl, if_false]
  split <;> rfl

/-- A value is got without a change. -/
theorem get_of_some {c' : Cache T} (h : c.get now key = (some value, c')) : c' = c := by
  unfold get at h
  split at h
  · cases (Prod.mk.inj h).1
  · split at h
    · cases (Prod.mk.inj h).1
    · exact (Prod.mk.inj h).2.symm

@[simp] theorem get_clear : (c.clear.get now key).1 = none := rfl

end Cache

/-! ## The passphrase -/

/-- A text as a `QString` has it. -/
abbrev QText := List UInt16

namespace PassphraseValidator

/-- `MIN_PASSPHRASE_LENGTH`. -/
def minPassphraseLength : ℕ := 15

/-- `MAX_PASSPHRASE_LENGTH`. -/
def maxPassphraseLength : ℕ := 64

/-- Three of the same character in a row. -/
def repeats : QText → Bool
  | a :: b :: c :: l => (a = b && a = c) || repeats (b :: c :: l)
  | _ => false

/-- **`PassphraseValidator::validate`**: the error message, if there is one.
The common passphrases are there if their file can be read. -/
def validate (commonPasswords : Option (List QText)) (passphrase confirmPassphrase : QText) :
    Option String :=
  if passphrase = [] then some "Passphrase is required"
  else if passphrase.length < minPassphraseLength then
    some "Passphrase must be at least 15 characters long"
  else if maxPassphraseLength < passphrase.length then
    some "Passphrase cannot be longer than 64 characters"
  else if confirmPassphrase = [] then some "Please verify your passphrase"
  else if passphrase ≠ confirmPassphrase then some "Passphrases do not match"
  else if repeats passphrase then
    some "Passphrase cannot contain 3 or more of the same character in a row"
  else if passphrase.head? = some 32 ∨ passphrase.getLast? = some 32 then
    some "Passphrase cannot start or end with spaces"
  else if passphrase.any fun c => c < 32 || 126 < c then
    some "Passphrase can only contain printable ASCII characters"
  else if commonPasswords.any (passphrase ∈ ·) then
    some "This passphrase is too common and not allowed"
  else none

end PassphraseValidator

/-! ## The handler -/

/-- `MAX_LOGIN_ATTEMPTS`. -/
def maxLoginAttempts : ℤ := 3

/-- How long a login window's cache keeps an entry. -/
def loginCountTtl : ℤ := seconds 60

/-- **A submission**: what is entered, what the clock says at each of the two
times it is read, how secure memory is had, what `login_user` meets, and how
the window after it opens. -/
structure LoginSubmission (K : Type) where
  username : String
  passphrase : QText
  readAt : ℤ
  setAt : ℤ
  secured : Except Fault Unit
  login : LoginDraws K
  shown : Except Fault Unit

/-- There is no secure memory to be had for the passphrase. -/
def LoginSubmission.unsecured {K : Type} (d : LoginSubmission K) : Bool := !d.secured.isOk

/-- The state of the window and of its machine. -/
structure LoginWindow (K : Type) where
  cache : Cache ℤ
  machine : Machine K

/-- A window that has just opened. -/
def LoginWindow.opened {K : Type} (m : Machine K) : LoginWindow K := ⟨⟨∅, loginCountTtl⟩, m⟩

/-- **How a submission ends**: in a message about the passphrase, in a
refusal, in a message of what failed – before `login_user` or no earlier than
it – or in the next window. -/
inductive LoginEnd where
  | invalid (errorMessage : String)
  | refused
  | failedToSecure (what : Fault)
  | failedToLogin (what : Fault)
  | received
  deriving DecidableEq

/-- It was let through, and failed. -/
def LoginEnd.failed : LoginEnd → Bool
  | failedToSecure _ | failedToLogin _ => true
  | _ => false

variable {K : Type} [LinearOrder K] (C : AccountCrypto K) (commonPasswords : Option (List QText))

/-- The `try` of the handler. -/
def tryLogin (d : LoginSubmission K) (w : LoginWindow K) : LoginEnd × LoginWindow K :=
  match d.secured with
  | .error e => (.failedToSecure e, w)
  | .ok () =>
    let cache := w.cache.clear
    -- a passphrase that is valid is ASCII
    match loginUser C d.username (d.passphrase.map (·.toUInt8)) d.login w.machine with
    | (.error e, m) => (.failedToLogin e, ⟨cache, m⟩)
    | (.ok (), m) =>
      match d.shown with
      | .error e => (.failedToLogin e, ⟨cache, m⟩)
      | .ok () => (.received, ⟨cache, m⟩)

/-- **`Login::onLoginButtonClicked`.** -/
def onLoginButtonClicked (d : LoginSubmission K) (w : LoginWindow K) :
    LoginEnd × LoginWindow K :=
  match PassphraseValidator.validate commonPasswords d.passphrase d.passphrase with
  | some errorMessage => (.invalid errorMessage, w)
  | none =>
    match w.cache.get d.readAt "login_count" with
    | (some count, cache) =>
      if count + 1 > maxLoginAttempts then (.refused, { w with cache := cache })
      else
        tryLogin C d { w with cache := cache.set d.setAt "login_count" (count + 1) 0 }
    | (none, cache) => tryLogin C d { w with cache := cache.set d.setAt "login_count" 1 0 }

/-- A submission with how it ended. -/
def submit (d : LoginSubmission K) (w : LoginWindow K) :
    List (LoginSubmission K × LoginEnd) × LoginWindow K :=
  let (result, w) := onLoginButtonClicked C commonPasswords d w
  ([(d, result)], w)

/-! ## The limit -/

section Limit

variable {C} {commonPasswords}

omit [LinearOrder K] in
/-- **The next submission comes within the lifetime** of what the one before
set. -/
def Within (a b : LoginSubmission K × LoginEnd) : Prop := b.1.readAt ≤ a.1.setAt + loginCountTtl

/-- **Of every three submissions that failed and the next**, each within the
lifetime of the one before it. -/
def EveryFourth (P : (a b c d : LoginSubmission K × LoginEnd) → Prop)
    (trace : List (LoginSubmission K × LoginEnd)) : Prop :=
  ∀ before a b c d after, trace = before ++ a :: b :: c :: d :: after →
    a.2.failed → b.2.failed → c.2.failed → Within a b → Within b c → Within c d → P a b c d

/-- **Attempts are limited**: the next is refused. -/
def AttemptsLimited (trace : List (LoginSubmission K × LoginEnd)) : Prop :=
  EveryFourth (fun _ _ _ d => d.2 = .refused) trace

/-- **None of the three had secure memory**: all failed before the cache was
cleared. -/
def FailEarly (trace : List (LoginSubmission K × LoginEnd)) : Prop :=
  EveryFourth (fun a b c _ => a.1.unsecured ∧ b.1.unsecured ∧ c.1.unsecured) trace

omit [LinearOrder K] in
instance (a b : LoginSubmission K × LoginEnd) : Decidable (Within a b) :=
  inferInstanceAs (Decidable (_ ≤ _))

/-- The count there is at a time. -/
def LoginWindow.loginCount (w : LoginWindow K) (now : ℤ) : Option ℤ :=
  (w.cache.get now "login_count").1

/-- **What a window can be**: its entries last a minute, and a count is of
something. -/
structure LoginWindow.Counts (w : LoginWindow K) : Prop where
  ttl : w.cache.defaultTtl = loginCountTtl
  pos : ∀ now n, w.loginCount now = some n → 1 ≤ n

variable {d : LoginSubmission K} {w : LoginWindow K}

omit [LinearOrder K] in
theorem LoginWindow.counts_opened (m : Machine K) : (LoginWindow.opened m).Counts where
  ttl := rfl
  pos _ _ h := by cases h

/-- **What an attempt with a count comes to**: the count is left if there was
no secure memory, for as long as it lives, and none otherwise. -/
structure LetThrough (d : LoginSubmission K) (n : ℤ) (o : LoginEnd × LoginWindow K) : Prop where
  ne_refused : o.1 ≠ .refused
  ttl : o.2.cache.defaultTtl = loginCountTtl
  count : ∀ now, o.2.loginCount now
    = if d.unsecured = true ∧ now ≤ d.setAt + loginCountTtl then some n else none

theorem letThrough_tryLogin (C : AccountCrypto K) {c : Cache ℤ} (hc : c.defaultTtl = loginCountTtl)
    (n : ℤ) : LetThrough d n
      (tryLogin C d { w with cache := c.set d.setAt "login_count" n 0 }) := by
  unfold tryLogin
  cases hsecured : d.secured with
  | error e =>
    have hunsecured : d.unsecured = true := by rw [LoginSubmission.unsecured, hsecured]; rfl
    refine ⟨fun h => (by cases h), hc, fun now => ?_⟩
    rw [LoginWindow.loginCount, Cache.get_set, hc]
    by_cases hnow : now ≤ d.setAt + loginCountTtl
    · rw [if_neg (not_lt.mpr hnow), if_pos ⟨hunsecured, hnow⟩]
    · rw [if_pos (not_le.mp hnow), if_neg fun h => hnow h.2]
  | ok _ =>
    have hsecure : ¬ d.unsecured = true := by
      rw [LoginSubmission.unsecured, hsecured]
      exact Bool.false_ne_true
    -- the cache is cleared whatever comes after
    have hcleared : ∀ (e : LoginEnd) (m : Machine K), e ≠ .refused →
        LetThrough d n (e, ⟨(c.set d.setAt "login_count" n 0).clear, m⟩) := by
      intro e m hne
      refine ⟨hne, hc, fun now => ?_⟩
      rw [LoginWindow.loginCount, Cache.get_clear, if_neg fun h => hsecure h.1]
    dsimp only
    split
    · exact hcleared _ _ fun h => by cases h
    · split
      · exact hcleared _ _ fun h => by cases h
      · exact hcleared _ _ fun h => by cases h

/-- **One submission** of a valid passphrase: it is refused, if the count has
reached the limit, and nothing happens; or it is let through, with a count
one higher. -/
theorem onLoginButtonClicked_cases (hw : w.Counts)
    (hvalid : PassphraseValidator.validate commonPasswords d.passphrase d.passphrase = none) :
    ((∃ n, w.loginCount d.readAt = some n ∧ maxLoginAttempts < n + 1)
        ∧ onLoginButtonClicked C commonPasswords d w = (.refused, w))
      ∨ ∃ n, n = (w.loginCount d.readAt).elim 1 (· + 1) ∧ 1 ≤ n ∧ n ≤ maxLoginAttempts
        ∧ LetThrough d n (onLoginButtonClicked C commonPasswords d w) := by
  unfold onLoginButtonClicked
  simp only [hvalid]
  have httl : (w.cache.get d.readAt "login_count").2.defaultTtl = loginCountTtl := by
    rw [Cache.defaultTtl_get, hw.ttl]
  cases hget : w.cache.get d.readAt "login_count" with
  | mk count c =>
    rw [hget] at httl
    have hcount : w.loginCount d.readAt = count := by rw [LoginWindow.loginCount, hget]
    cases count with
    | none =>
      refine Or.inr ⟨1, by rw [hcount]; rfl, le_rfl, by decide, ?_⟩
      exact letThrough_tryLogin C httl 1
    | some count =>
      have hpos := hw.pos _ _ hcount
      by_cases hlimit : count + 1 > maxLoginAttempts
      · refine Or.inl ⟨⟨count, hcount, hlimit⟩, ?_⟩
        simp only [if_pos hlimit, Cache.get_of_some hget]
      · refine Or.inr ⟨count + 1, by rw [hcount]; rfl, by omega, not_lt.mp hlimit, ?_⟩
        simp only [if_neg hlimit]
        exact letThrough_tryLogin C httl (count + 1)

/-- A window counts on. -/
theorem LoginWindow.Counts.next (C : AccountCrypto K) (commonPasswords : Option (List QText))
    (hw : w.Counts) (d : LoginSubmission K) :
    (onLoginButtonClicked C commonPasswords d w).2.Counts := by
  cases hvalid : PassphraseValidator.validate commonPasswords d.passphrase d.passphrase with
  | some errorMessage =>
    unfold onLoginButtonClicked
    simp only [hvalid]
    exact hw
  | none =>
    obtain ⟨-, heq⟩ | ⟨n, -, hn, -, hlet⟩ := onLoginButtonClicked_cases (C := C) hw hvalid
    · rw [heq]
      exact hw
    · refine ⟨hlet.ttl, fun now m hm => ?_⟩
      rw [hlet.count] at hm
      split at hm
      · exact Option.some.inj hm ▸ hn
      · cases hm

/-- So does the one a submission left. -/
theorem LoginWindow.Counts.of_click (hw : w.Counts) {w' : LoginWindow K} {result : LoginEnd}
    (h : onLoginButtonClicked C commonPasswords d w = (result, w')) : w'.Counts := by
  have hnext := hw.next C commonPasswords d
  rwa [h] at hnext

/-- So whether it is refused is a matter of the count, -/
theorem refused_iff (C : AccountCrypto K) (hw : w.Counts)
    (hvalid : PassphraseValidator.validate commonPasswords d.passphrase d.passphrase = none) :
    (onLoginButtonClicked C commonPasswords d w).1 = .refused
      ↔ ∃ n, w.loginCount d.readAt = some n ∧ maxLoginAttempts < n + 1 := by
  obtain ⟨hlimit, heq⟩ | ⟨n, hn, -, hle, hlet⟩ := onLoginButtonClicked_cases (C := C) hw hvalid
  · rw [heq]
    exact iff_of_true rfl hlimit
  · refine iff_of_false hlet.ne_refused ?_
    rintro ⟨m, hm, hlimit⟩
    rw [hm, Option.elim_some] at hn
    omega

/-- and what a failure leaves of the count is a matter of secure memory. -/
theorem loginCount_of_failed (hw : w.Counts)
    (hvalid : PassphraseValidator.validate commonPasswords d.passphrase d.passphrase = none)
    (hfailed : (onLoginButtonClicked C commonPasswords d w).1.failed = true) {now : ℤ}
    (hnow : now ≤ d.setAt + loginCountTtl) :
    ∃ n, n = (w.loginCount d.readAt).elim 1 (· + 1) ∧ 1 ≤ n ∧ n ≤ maxLoginAttempts
      ∧ (onLoginButtonClicked C commonPasswords d w).2.loginCount now
        = if d.unsecured then some n else none := by
  obtain ⟨-, heq⟩ | ⟨n, hn, hpos, hle, hlet⟩ := onLoginButtonClicked_cases (C := C) hw hvalid
  · rw [heq] at hfailed
    cases hfailed
  · refine ⟨n, hn, hpos, hle, ?_⟩
    rw [hlet.count]
    simp only [hnow, and_true]

/-- Three counts that start at least at 1, each one more than the one before
if that is left, reach the limit if all of them are left: they are 1, 2 and 3
then, and start anew behind one that is not. -/
theorem reaches_limit_iff {ra rb rc : Bool} {na nb nc : ℤ} (hna : 1 ≤ na)
    (hnb : nb = (if ra = true then some na else none).elim 1 (· + 1))
    (hnc : nc = (if rb = true then some nb else none).elim 1 (· + 1)) :
    (∃ n, (if rc = true then some nc else none) = some n ∧ maxLoginAttempts < n + 1)
      ↔ ra = true ∧ rb = true ∧ rc = true := by
  unfold maxLoginAttempts
  constructor
  · rintro ⟨n, hn, hlimit⟩
    have hrc : rc = true := by
      by_contra hlate
      rw [if_neg hlate] at hn
      cases hn
    rw [if_pos hrc] at hn
    obtain rfl := Option.some.inj hn
    -- a count of three has two behind it
    have hrb : rb = true := by
      by_contra hlate
      rw [if_neg hlate, Option.elim_none] at hnc
      omega
    rw [if_pos hrb, Option.elim_some] at hnc
    have hra : ra = true := by
      by_contra hlate
      rw [if_neg hlate, Option.elim_none] at hnb
      omega
    exact ⟨hra, hrb, hrc⟩
  · rintro ⟨hra, hrb, hrc⟩
    rw [if_pos hra, Option.elim_some] at hnb
    rw [if_pos hrb, Option.elim_some] at hnc
    exact ⟨nc, if_pos hrc, by omega⟩

/-- **After three failures**, each within the lifetime of the one before, the
next submission is refused exactly if none of them had secure memory. -/
theorem fourth_refused_iff (hw : w.Counts) {a b c d : LoginSubmission K}
    {w₁ w₂ w₃ : LoginWindow K} {ra rb rc rd : LoginEnd}
    (hvalid : ∀ e ∈ [a, b, c, d],
      PassphraseValidator.validate commonPasswords e.passphrase e.passphrase = none)
    (ha : onLoginButtonClicked C commonPasswords a w = (ra, w₁))
    (hb : onLoginButtonClicked C commonPasswords b w₁ = (rb, w₂))
    (hc : onLoginButtonClicked C commonPasswords c w₂ = (rc, w₃))
    (hd : (onLoginButtonClicked C commonPasswords d w₃).1 = rd)
    (hfa : ra.failed = true) (hfb : rb.failed = true) (hfc : rc.failed = true)
    (hab : b.readAt ≤ a.setAt + loginCountTtl) (hbc : c.readAt ≤ b.setAt + loginCountTtl)
    (hcd : d.readAt ≤ c.setAt + loginCountTtl) :
    rd = .refused ↔ a.unsecured = true ∧ b.unsecured = true ∧ c.unsecured = true := by
  simp only [List.forall_mem_cons] at hvalid
  obtain ⟨hva, hvb, hvc, hvd, -⟩ := hvalid
  have hw₁ := hw.of_click ha
  have hw₂ := hw₁.of_click hb
  have hw₃ := hw₂.of_click hc
  obtain ⟨na, -, hna, -, hcount₁⟩ :=
    loginCount_of_failed (C := C) hw hva (by rw [ha]; exact hfa) hab
  obtain ⟨nb, hnb, -, -, hcount₂⟩ :=
    loginCount_of_failed (C := C) hw₁ hvb (by rw [hb]; exact hfb) hbc
  obtain ⟨nc, hnc, -, -, hcount₃⟩ :=
    loginCount_of_failed (C := C) hw₂ hvc (by rw [hc]; exact hfc) hcd
  rw [ha] at hcount₁
  rw [hb] at hcount₂
  rw [hc] at hcount₃
  rw [hcount₁] at hnb
  rw [hcount₂] at hnc
  rw [← hd, refused_iff C hw₃ hvd, hcount₃]
  exact reaches_limit_iff hna hnb hnc

/-- Whatever was submitted, a window counts. -/
theorem counts_final (C : AccountCrypto K) (commonPasswords : Option (List QText))
    (submissions : List (LoginSubmission K)) (hw : w.Counts) :
    (Run.final (submit C commonPasswords) submissions w).Counts := by
  have hstep : ∀ d (w : LoginWindow K), w.Counts → (submit C commonPasswords d w).2.Counts :=
    fun d _ hs => hs.next C commonPasswords d
  exact Run.final_induction (R := fun s _ t => s.Counts → t.Counts) (fun _ hs => hs)
    (fun h h' hs => h' (h hs)) hstep submissions w hw

/-- What a trace begins with was submitted first, and what follows it came of
the window it left. -/
theorem exists_of_outputs_cons {submissions : List (LoginSubmission K)}
    {x : LoginSubmission K × LoginEnd} {after : List (LoginSubmission K × LoginEnd)}
    (h : Run.outputs (submit C commonPasswords) submissions w = x :: after) :
    ∃ later w', submissions = x.1 :: later
      ∧ onLoginButtonClicked C commonPasswords x.1 w = (x.2, w')
      ∧ Run.outputs (submit C commonPasswords) later w' = after := by
  obtain ⟨d, later, rfl, hx, hafter⟩ := Run.exists_of_outputs_eq_cons (fun _ _ => rfl) h
  obtain rfl : (d, (onLoginButtonClicked C commonPasswords d w).1) = x :=
    List.singleton_inj.mp hx
  exact ⟨later, _, rfl, rfl, hafter⟩

/-- **Login attempts are limited exactly as far as they fail early**: along
any submissions of valid passphrases, whatever the clock says, of every three
that fail and a next one, each within the lifetime of the one before, the
next is refused if and only if there was no secure memory for any of the
three – for then they failed before the cache was cleared, and before
`login_user`. -/
theorem attemptsLimited_iff (C : AccountCrypto K) (commonPasswords : Option (List QText))
    (m : Machine K) (submissions : List (LoginSubmission K))
    (hvalid : ∀ d ∈ submissions,
      PassphraseValidator.validate commonPasswords d.passphrase d.passphrase = none) :
    AttemptsLimited (Run.outputs (submit C commonPasswords) submissions (.opened m))
      ↔ FailEarly (Run.outputs (submit C commonPasswords) submissions (.opened m)) := by
  refine forall₄_congr fun before a b c => forall₂_congr fun d after =>
    forall_congr' fun htrace => forall₃_congr fun hfa hfb hfc => forall₃_congr fun hab hbc hcd => ?_
  obtain ⟨earlier, later, rfl, hrest⟩ :=
    Run.exists_of_outputs_eq_append (fun _ _ => rfl) htrace
  have hw := counts_final C commonPasswords earlier (LoginWindow.counts_opened m)
  obtain ⟨later, w₁, rfl, ha, hrest⟩ := exists_of_outputs_cons hrest
  obtain ⟨later, w₂, rfl, hb, hrest⟩ := exists_of_outputs_cons hrest
  obtain ⟨later, w₃, rfl, hc, hrest⟩ := exists_of_outputs_cons hrest
  obtain ⟨later, w₄, rfl, hd, -⟩ := exists_of_outputs_cons hrest
  have hmade : ∀ e ∈ [a.1, b.1, c.1, d.1],
      PassphraseValidator.validate commonPasswords e.passphrase e.passphrase = none := by
    intro e he
    refine hvalid e (List.mem_append_right _ ?_)
    exact List.mem_append_left later he
  exact fourth_refused_iff hw hmade ha hb hc (by rw [hd]) hfa hfb hfc hab hbc hcd

end Limit

/-! ## Four submissions -/

namespace LoginSubmission

/-- Fifteen letters in their order, from one of them on. -/
def letters (first : ℕ) : QText := (List.range' first 15).map UInt16.ofNat

/-- Of the letters from a on, at a second, as alice. -/
def ideal (secured : Except Fault Unit) (n : ℤ) : LoginSubmission ℕ where
  username := "alice"
  passphrase := letters 97
  readAt := seconds n
  setAt := seconds n
  secured := secured
  login := .ideal
  shown := .ok ()

/-- One a second. -/
def four (secured : Except Fault Unit) : List (LoginSubmission ℕ) :=
  [ideal secured 0, ideal secured 1, ideal secured 2, ideal secured 3]

/-- Alice's machine. Her passphrase is of the letters from b on. -/
def registered : Machine ℕ :=
  (registerUser .ideal "alice" ((letters 98).map (·.toUInt8)) (.ideal (.ideal 1) 5)
    .blank).2.restart

theorem valid_of_four {secured : Except Fault Unit} : ∀ d ∈ four secured,
    PassphraseValidator.validate none d.passphrase d.passphrase = none := by
  intro d hd
  have hpassphrase : d.passphrase = letters 97 := by
    simp only [four, List.mem_cons, List.not_mem_nil, or_false] at hd
    obtain rfl | rfl | rfl | rfl := hd <;> rfl
  rw [hpassphrase]
  decide +kernel

end LoginSubmission

open LoginSubmission

/-- Without memory to lock, the fourth is refused. -/
theorem attemptsLimited_iff_four :
    let e : Fault := .runtimeError "mlock failed"
    let trace := Run.outputs (submit .ideal none) (four (.error e)) (.opened registered)
    trace.map Prod.snd = [.failedToSecure e, .failedToSecure e, .failedToSecure e, .refused]
      ∧ AttemptsLimited trace := by
  intro e trace
  refine ⟨by decide +kernel, ?_⟩
  refine (attemptsLimited_iff .ideal none registered _ valid_of_four).mpr ?_
  have hunsecured : ∀ x ∈ trace, x.1.unsecured = true := by
    refine Run.mem_outputs (fun d hd w x hx => ?_) _
    obtain rfl := List.mem_singleton.mp hx
    simp only [four, List.mem_cons, List.not_mem_nil, or_false] at hd
    obtain rfl | rfl | rfl | rfl := hd <;> rfl
  intro before a b c d after htrace _ _ _ _ _ _
  have hmem : ∀ x ∈ [a, b, c], x ∈ trace := by
    intro x hx
    rw [show trace = before ++ ([a, b, c] ++ d :: after) from htrace]
    exact List.mem_append_right _ (List.mem_append_left _ hx)
  exact ⟨hunsecured a (hmem a (by simp)), hunsecured b (hmem b (by simp)),
    hunsecured c (hmem c (by simp))⟩

/-- **Where they are not**: of the wrong passphrase, in quick succession, the
fourth is tried as well. -/
theorem not_attemptsLimited_four :
    let e : LoginEnd := .failedToLogin
      (.runtimeError "Database verification failed: Incorrect password")
    let trace := Run.outputs (submit .ideal none) (four (.ok ())) (.opened registered)
    trace.map Prod.snd = [e, e, e, e] ∧ ¬ AttemptsLimited trace := by
  intro e trace
  have hends : trace.map Prod.snd = [e, e, e, e] := by decide +kernel
  have htrace : trace = (four (.ok ())).zip [e, e, e, e] := List.zip_of_prod rfl hends
  refine ⟨hends, fun hlimited => ?_⟩
  have hfourth := hlimited [] (ideal (.ok ()) 0, e) (ideal (.ok ()) 1, e) (ideal (.ok ()) 2, e)
    (ideal (.ok ()) 3, e) [] htrace rfl rfl rfl (by decide) (by decide) (by decide)
  cases hfourth
