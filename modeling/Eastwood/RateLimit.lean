import Eastwood.Runs
import Mathlib.Algebra.Order.Ring.Nat
import Mathlib.Logic.Function.Basic

/-!
# The rate limit

A client remembers when it last let a request through, host by host. A request
that comes too soon sleeps for what is missing of the delay, which is counted
in whole milliseconds, and the time is taken again once it is through. All the
while it holds a lock. Others that come meanwhile wait for that, whatever their
host, and look at the clock only then.

However many come at once, in whatever order they get the lock and however
late their threads are, two requests of a client to one host are never let
through within the delay, none sleeps for longer than that, and the first to a
host not at all. But it may wait for every request that is ahead of it
(`spaced`). Every request of the program has a client of its own, though,
whose lock nobody else asks for and which has seen no host.
-/

/-- **`BaseClient`**: when a request to a host was last let through, in
nanoseconds. -/
structure BaseClient where
  lastRequestTime : String → Option ℕ

namespace BaseClient

/-- A client that was just constructed. -/
def new : BaseClient := ⟨fun _ => none⟩

/-- `rateLimitDelay`, in milliseconds. -/
def rateLimitDelay : ℕ := 500

/-- A millisecond in nanoseconds. -/
def millisecond : ℕ := 1000000

/-- What a request that comes at some time asks to sleep. -/
def sleepTime (now : ℕ) (host : String) (c : BaseClient) : ℕ :=
  match c.lastRequestTime host with
  | none => 0
  | some last =>
    let elapsed := (now - last) / millisecond
    if elapsed < rateLimitDelay then (rateLimitDelay - elapsed) * millisecond else 0

/-- **`BaseClient::enforceRateLimit`** once it has the lock, at some time: the
time it is through at and the client then. A thread that sleeps may sleep longer
than it asks to, and what it does beside that takes its time too. -/
def enforceRateLimit (now : ℕ) (host : String) (oversleep running : ℕ) (c : BaseClient) :
    ℕ × BaseClient :=
  let asked := c.sleepTime now host
  let through := now + (if asked = 0 then 0 else asked + oversleep) + running
  (through, ⟨Function.update c.lastRequestTime host (some through)⟩)

/-! ## Runs -/

/-- **A request**: when it comes, its host, and how its thread was delayed:
before it has the lock, which may have been free for a while, and with it. -/
structure Visit where
  came : ℕ
  host : String
  grabbing : ℕ
  oversleep : ℕ
  running : ℕ

/-- The longest it takes if nobody has the lock. -/
def Visit.longest (v : Visit) : ℕ :=
  v.grabbing + rateLimitDelay * millisecond + v.oversleep + v.running

/-- A request that was let through: when it came, when it had the lock, and
when it was through. -/
structure Passage where
  host : String
  came : ℕ
  locked : ℕ
  through : ℕ
  deriving DecidableEq

/-- **The next request that gets the lock** of a client, which was free from
some time on. -/
def visit (v : Visit) (s : ℕ × BaseClient) : List Passage × (ℕ × BaseClient) :=
  let locked := max v.came s.1 + v.grabbing
  let (through, c) := s.2.enforceRateLimit locked v.host v.oversleep v.running
  ([⟨v.host, v.came, locked, through⟩], (through, c))

/-- The requests of a client in the order they get the lock, as they were let
through. They may have come in any other. -/
def passages (visits : List Visit) : List Passage := Run.outputs visit visits (0, new)

/-- Since when the lock is free after some requests. -/
def freeSince (visits : List Visit) : ℕ := (Run.final visit visits (0, new)).1

/-- **Kept apart**: one after the other, and of one host not within the
delay. -/
def Passage.Spaced (a b : Passage) : Prop :=
  a.through ≤ b.locked
    ∧ (a.host = b.host → a.through + rateLimitDelay * millisecond ≤ b.through)

/-- What a client remembers is past. -/
def Past (s : ℕ × BaseClient) : Prop :=
  ∀ {host last}, s.2.lastRequestTime host = some last → last ≤ s.1

variable {c : BaseClient} {now last oversleep running : ℕ} {host : String} {v : Visit}
  {s : ℕ × BaseClient}

/-- A client that has not seen a host lets everybody through. -/
theorem sleepTime_of_none (h : c.lastRequestTime host = none) : c.sleepTime now host = 0 := by
  rw [sleepTime, h]

/-- **Asleep or not, the delay is over** when a request is through. -/
theorem delay_le_sleepTime (h : c.lastRequestTime host = some last) (hpast : last ≤ now) :
    last + rateLimitDelay * millisecond ≤ now + c.sleepTime now host := by
  have hfloor : (now - last) / millisecond * millisecond ≤ now - last := Nat.div_mul_le_self ..
  rw [sleepTime, h]
  dsimp only
  split
  · -- what is asked for makes up for what is missing, if not for what was cut off
    rw [Nat.sub_mul]
    omega
  · rename_i hlong
    have := Nat.mul_le_mul_right millisecond (Nat.le_of_not_lt hlong)
    omega

theorem sleepTime_le (c : BaseClient) (now : ℕ) (host : String) :
    c.sleepTime now host ≤ rateLimitDelay * millisecond := by
  unfold sleepTime
  split
  · exact Nat.zero_le _
  · dsimp only
    split
    · exact Nat.mul_le_mul_right _ (Nat.sub_le ..)
    · exact Nat.zero_le _

/-- When a request is through. -/
theorem through_eq (now : ℕ) (host : String) (oversleep running : ℕ) (c : BaseClient) :
    ∃ late ≤ oversleep, (c.enforceRateLimit now host oversleep running).1
      = now + c.sleepTime now host + late + running := by
  unfold enforceRateLimit
  dsimp only
  split
  · rename_i hzero
    exact ⟨0, Nat.zero_le _, by rw [hzero]⟩
  · exact ⟨oversleep, Nat.le_refl _, by rw [Nat.add_assoc now (c.sleepTime now host)]⟩

/-- When the lock is free again. -/
theorem visit_through (v : Visit) (s : ℕ × BaseClient) :
    ∃ late ≤ v.oversleep, (visit v s).2.1 = max v.came s.1 + v.grabbing
      + s.2.sleepTime (max v.came s.1 + v.grabbing) v.host + late + v.running :=
  through_eq (max v.came s.1 + v.grabbing) v.host v.oversleep v.running s.2

theorem Past.visit (h : Past s) : Past (visit v s).2 := by
  intro host last hlast
  obtain ⟨late, -, hthrough⟩ := visit_through v s
  change Function.update s.2.lastRequestTime v.host _ host = some last at hlast
  by_cases hhost : host = v.host
  · rw [hhost, Function.update_self] at hlast
    exact Nat.le_of_eq (Option.some.inj hlast).symm
  · rw [Function.update_of_ne hhost] at hlast
    have := h hlast
    omega

/-- **Requests are kept apart** from each other, from those before and from
what a client remembers. -/
theorem pairwise_spaced (h : Past s) (visits : List Visit) :
    (Run.outputs visit visits s).Pairwise Passage.Spaced
      ∧ ∀ p ∈ Run.outputs visit visits s, s.1 ≤ p.locked
        ∧ ∀ last, s.2.lastRequestTime p.host = some last →
          last + rateLimitDelay * millisecond ≤ p.through := by
  induction visits generalizing s with
  | nil => exact ⟨List.Pairwise.nil, fun p hp => absurd hp List.not_mem_nil⟩
  | cons v visits ih =>
    obtain ⟨hpairwise, hbehind⟩ := ih (s := (visit v s).2) h.visit
    obtain ⟨late, -, hthrough⟩ := visit_through v s
    have hfirst : ∀ last, s.2.lastRequestTime v.host = some last →
        last + rateLimitDelay * millisecond ≤ (visit v s).2.1 := by
      intro last hlast
      have hpast := h hlast
      have hdelay : last + rateLimitDelay * millisecond ≤ max v.came s.1 + v.grabbing
          + s.2.sleepTime (max v.came s.1 + v.grabbing) v.host :=
        delay_le_sleepTime hlast (by omega)
      omega
    have hself : (visit v s).2.2.lastRequestTime v.host = some (visit v s).2.1 :=
      Function.update_self ..
    refine ⟨List.pairwise_cons.mpr ⟨fun p hp => ⟨(hbehind p hp).1, fun hhost => ?_⟩, hpairwise⟩,
      fun p hp => ?_⟩
    · exact (hbehind p hp).2 _ (hhost ▸ hself)
    · obtain rfl | hp := List.mem_cons.mp hp
      · exact ⟨(Nat.le_max_right ..).trans (Nat.le_add_right ..), hfirst⟩
      · obtain ⟨hlocked, hremembered⟩ := hbehind p hp
        refine ⟨by omega, fun last hlast => ?_⟩
        by_cases hhost : p.host = v.host
        · have hlater := hremembered _ (hhost ▸ hself)
          have := hfirst last (hhost ▸ hlast)
          omega
        · exact hremembered last ((Function.update_of_ne hhost ..).trans hlast)

/-- What was not visited is not remembered. -/
theorem lastRequestTime_final {visits : List Visit} (hvisits : ∀ w ∈ visits, w.host ≠ host)
    (h : s.2.lastRequestTime host = none) :
    (Run.final visit visits s).2.lastRequestTime host = none := by
  induction visits generalizing s with
  | nil => exact h
  | cons w visits ih =>
    refine ih (fun w' hw' => hvisits w' (List.mem_cons_of_mem w hw')) ?_
    exact (Function.update_of_ne (Ne.symm (hvisits w List.mem_cons_self)) ..).trans h

/-- **Who is ahead** holds the lock for so long at most: once all of them have
come, it is free when each has had its time. -/
theorem final_le {now : ℕ} {visits : List Visit} (hfree : s.1 ≤ now)
    (hcame : ∀ w ∈ visits, w.came ≤ now) :
    (Run.final visit visits s).1 ≤ now + (visits.map Visit.longest).sum := by
  induction visits generalizing s now with
  | nil => exact hfree
  | cons w visits ih =>
    obtain ⟨late, hlate, hthrough⟩ := visit_through w s
    have hsleep := sleepTime_le s.2 (max w.came s.1 + w.grabbing) w.host
    have hw := hcame w List.mem_cons_self
    have hnext : (visit w s).2.1 ≤ now + w.longest := by
      unfold Visit.longest
      omega
    refine (ih hnext fun w' hw' => ?_).trans ?_
    · exact (hcame w' (List.mem_cons_of_mem w hw')).trans (Nat.le_add_right ..)
    · rw [List.map_cons, List.sum_cons, Nat.add_assoc]

/-- **The limit**: two requests of a client to one host are let through at
least the delay apart, and never two at once. With the lock a request takes no
longer than the delay, but for what its thread is late, and the first one to a
host does not sleep. Before that it waits for those ahead of it: if these had
come when it did, no longer than they may take. -/
theorem spaced (visits : List Visit) :
    (passages visits).Pairwise Passage.Spaced
      ∧ ∀ earlier v later, visits = earlier ++ v :: later →
        ∃ after locked through,
          passages visits = passages earlier ++ ⟨v.host, v.came, locked, through⟩ :: after
          ∧ locked = max v.came (freeSince earlier) + v.grabbing
          ∧ through ≤ locked + rateLimitDelay * millisecond + v.oversleep + v.running
          ∧ ((∀ w ∈ earlier, w.host ≠ v.host) → through = locked + v.running)
          ∧ ∀ served ahead, earlier = served ++ ahead → freeSince served ≤ v.came →
            (∀ w ∈ ahead, w.came ≤ v.came) →
              through ≤ v.came + ((ahead ++ [v]).map Visit.longest).sum := by
  have hnew : Past (0, new) := by
    intro host last hlast
    cases hlast
  refine ⟨(pairwise_spaced hnew visits).1, ?_⟩
  rintro earlier v later rfl
  obtain ⟨⟨free, c⟩, hs⟩ : ∃ s, Run.final visit earlier (0, new) = s := ⟨_, rfl⟩
  have hfree : freeSince earlier = free := by rw [freeSince, hs]
  obtain ⟨late, hlate, hthrough⟩ := visit_through v (free, c)
  refine ⟨Run.outputs visit later (visit v (free, c)).2, max v.came free + v.grabbing,
    (visit v (free, c)).2.1, ?_, by rw [hfree], ?_, fun hfirst => ?_,
    fun served ahead hearlier hserved hahead => ?_⟩
  · unfold passages
    rw [Run.outputs_append, hs]
    rfl
  · have := sleepTime_le c (max v.came free + v.grabbing) v.host
    dsimp only at hthrough
    omega
  · have hnone : c.lastRequestTime v.host = none := by
      have := lastRequestTime_final (s := (0, new)) hfirst rfl
      rwa [hs] at this
    change (c.enforceRateLimit (max v.came free + v.grabbing) v.host v.oversleep v.running).1 = _
    unfold enforceRateLimit
    rw [sleepTime_of_none hnone]
    rfl
  · have hall : ∀ w ∈ ahead ++ [v], w.came ≤ v.came := by
      intro w hw
      obtain hw | hw := List.mem_append.mp hw
      · exact hahead w hw
      · rw [List.mem_singleton.mp hw]
    have hlast := final_le (s := Run.final visit served (0, new)) hserved hall
    rwa [← Run.final_append, ← List.append_assoc, ← hearlier, Run.final_append, hs] at hlast

/-- The first request to a host waits for one to another that sleeps. -/
example : passages [⟨0, "a", 0, 0, 0⟩, ⟨1, "a", 0, 0, 0⟩, ⟨2, "b", 0, 0, 0⟩]
    = [⟨"a", 0, 0, 0⟩, ⟨"a", 1, 1, 500000001⟩, ⟨"b", 2, 500000001, 500000001⟩] := by
  decide +kernel

end BaseClient
