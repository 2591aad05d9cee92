import RedisSmq.Admin.ManagedSteps
import RedisSmq.Consumers.Dequeuer
import RedisSmq.System.Conduct

/-!
# Rate limits

While a counter key lives, its checks let as many calls pass as the limit it was created
with says, and a call that has passed pops at most one message. So the number of messages
popped under a key is bounded by the stored limit if the key was created with no more than
that, and if every message is popped by a dequeuer that has passed a check under this key.
Both can fail: dequeuers go by the limit that they read when they were started, which may be
another one or none, and a dequeuer may pop long after its check.
-/

namespace RedisSmq

/-- The dequeuer that pops. -/
def DequeueAction.popper : DequeueAction → Option Dequeuer
  | .pop d => some d
  | _ => none

namespace Dequeuing

/-- A message is popped by a dequeuer that has passed a check under the current key. -/
def PopsCleared (s : Dequeuing) (a : DequeueAction) : Prop :=
  ∀ d ∈ a.popper, (s.popFor d).isSome = true → d.cleared = some s.counters
  deriving Decidable

/-- The stored rate limit is the given one, and the counter key lives. -/
def InWindow (limit : RateLimitParams) (s : Dequeuing) : Prop :=
  s.queue.rateLimit = some limit ∧ s.queue.rateCounter.isSome = true
  deriving Decidable

/-- The dequeuers that have passed a check under the key and have not popped yet. -/
def clearances (n : Nat) (s : Dequeuing) : Nat :=
  s.dequeuers.countP fun d => d.cleared = some n

/-- The calls that the counter still lets pass. -/
def left (s : Dequeuing) : Nat := (s.queue.rateCounter.getD 0).toNat

section Step

variable {s s' : Dequeuing} {d d' : Dequeuer} {n : Nat}

/-- One dequeuer gives up the clearance that it has, and may get another one. -/
theorem clearances_proceed (n : Nat) (cleared : Option Nat) (hd : d ∈ s.dequeuers) :
    (s.proceed d { d with cleared := cleared }).countP (fun d => d.cleared = some n) +
        (if d.cleared = some n then 1 else 0) =
      s.clearances n + if cleared = some n then 1 else 0 := by
  have hold : (s.dequeuers.erase d).countP (fun d => d.cleared = some n) +
      (if d.cleared = some n then 1 else 0) = s.clearances n := by
    rw [clearances]
    conv_rhs => rw [← Multiset.cons_erase hd]
    exact (Multiset.countP_cons _ _ _).symm
  have hnew : (s.proceed d { d with cleared := cleared }).countP (fun d => d.cleared = some n) =
      (s.dequeuers.erase d).countP (fun d => d.cleared = some n) +
        if cleared = some n then 1 else 0 := by
    rw [proceed, Multiset.countP_add, ← Multiset.cons_zero, Multiset.countP_cons,
      Multiset.countP_zero, Nat.zero_add]
  omega

theorem mem_proceed {e : Dequeuer} (h : e ∈ s.proceed d d') : e ∈ s.dequeuers ∨ e = d' := by
  rcases Multiset.mem_add.1 h with h | h
  · exact .inl (Multiset.mem_of_mem_erase h)
  · exact .inr (Multiset.mem_singleton.1 h)

/-- What a check does. -/
theorem check_cases {lost : Bool} (h : s.check d lost = some s') :
    ∃ limit cleared, d.rateLimit = some limit ∧ d ∈ s.dequeuers ∧ d.cleared = none ∧
      s'.queue = (s.queue.checkRateLimit limit).2 ∧ s'.counters = s.current ∧
      s'.dequeuers = s.proceed d { d with cleared := cleared } ∧ s'.pops = s.pops ∧
      (cleared = none ∨ cleared = some s.current ∧ (s.queue.checkRateLimit limit).1 = false) := by
  unfold check at h
  split at h
  · cases h
  rename_i limit hlimit
  split at h
  · rename_i hd
    cases h
    refine ⟨limit, _, hlimit, hd.1, hd.2, rfl, rfl, rfl, rfl, ?_⟩
    by_cases hstop : ((s.queue.checkRateLimit limit).1 || lost) = true
    · exact .inl (if_pos hstop)
    have hpass := hstop
    rw [Bool.not_eq_true, Bool.or_eq_false_iff] at hpass
    exact .inr ⟨if_neg hstop, hpass.1⟩
  · cases h

/-- What a pop does. -/
theorem pop_cases (h : s.pop d = some s') :
    d ∈ s.dequeuers ∧ s'.dequeuers = s.proceed d { d with cleared := none } ∧
      s'.counters = s.counters ∧
      (s'.queue = s.queue ∧ s'.pops = s.pops ∨
        s.popFor d = some s'.queue ∧ s'.pops = s.pops + 1) := by
  unfold pop at h
  split at h
  · rename_i hd
    dsimp only at h
    split at h
    · cases h
      exact ⟨hd.1, rfl, rfl, .inl ⟨rfl, rfl⟩⟩
    rename_i queue hqueue
    cases h
    exact ⟨hd.1, rfl, rfl, .inr ⟨hqueue, rfl⟩⟩
  · cases h

/-- A check under a living key: the counter is one less, and a call that passes uses up one
of those that were left. -/
theorem left_check (limit : RateLimitParams) (hkey : s.queue.rateCounter.isSome = true) :
    ((s.queue.checkRateLimit limit).2.rateCounter.getD 0).toNat +
      (if (s.queue.checkRateLimit limit).1 = false then 1 else 0) ≤ s.left := by
  obtain ⟨v, hv⟩ := Option.isSome_iff_exists.1 hkey
  simp only [Managed.checkRateLimit, left, hv, Option.isSome_some, Bool.true_and,
    Option.getD_some, decide_eq_false_iff_not]
  split <;> omega

end Step

end Dequeuing

/-- Nothing but a check counts the key down or creates one. -/
theorem Managed.rateCounter_of_step {k k' : Managed} {a : ManagedAction}
    (ha : a.isDequeue = false) (h : k.step a = some k') :
    k'.rateCounter = k.rateCounter ∨ k'.rateCounter = none := by
  cases a with
  | queue a =>
    obtain ⟨-, h⟩ := Option.ite_none_right_eq_some.1 h
    obtain ⟨sys, -, rfl⟩ := Option.map_eq_some_iff.1 h
    exact .inl rfl
  | checkRateLimit => cases ha
  | expireRateCounter =>
    cases h
    exact .inr rfl
  | beat | lapse | bind =>
    cases h
    exact .inl rfl
  | setRateLimit =>
    cases h
    unfold setRateLimit
    split
    · exact .inl rfl
    · split <;> exact .inl rfl
  | clearRateLimit =>
    cases h
    unfold clearRateLimit
    split
    · exact .inl rfl
    split
    · exact .inl rfl
    · exact .inr rfl
  | deleteGroup deleter g =>
    cases h
    rcases k.deleteConsumerGroup_effect OperationalState.locked.string none g (deleter.keys g)
      with ⟨-, heq⟩ | ⟨-, heq⟩ <;> rw [heq] <;> exact .inl rfl
  | deleteQueue consumers groups processing =>
    cases h
    rcases k.deleteQueue_effect (toString OperationalState.locked.int) none consumers groups
      processing with heq | ⟨-, -, heq⟩ <;> rw [heq]
    · exact .inl rfl
    · exact .inr rfl
  | subscribe =>
    cases h
    unfold subscribe
    split
    · exact .inl rfl
    split
    · exact .inl rfl
    · split <;> exact .inl rfl
  | unsubscribe =>
    cases h
    unfold unsubscribe
    split
    · exact .inl rfl
    · split <;> exact .inl rfl

namespace Dequeuing

section Runs

variable {s s' : Dequeuing} {a : DequeueAction} {limit : RateLimitParams}

/-- Clearances were given under keys that exist or have existed. -/
def Dated (s : Dequeuing) : Prop := ∀ d ∈ s.dequeuers, ∀ n ∈ d.cleared, n ≤ s.counters

theorem le_current (s : Dequeuing) : s.counters ≤ s.current := by
  unfold current
  split
  · exact Nat.le_succ _
  · exact le_rfl

theorem Dated.step (h : s.Dated) (hstep : s.step a = some s') : s'.Dated := by
  cases a with
  | manage a =>
    simp only [Dequeuing.step] at hstep
    split at hstep
    · cases hstep
    · obtain ⟨queue, -, rfl⟩ := Option.map_eq_some_iff.1 hstep
      exact h
  | init c group =>
    obtain ⟨-, heq⟩ := Option.ite_none_right_eq_some.1 hstep
    cases heq
    intro d hd n hn
    rcases Multiset.mem_cons.1 hd with rfl | hd
    · cases hn
    · exact h d hd n hn
  | check d lost =>
    obtain ⟨limit, cleared, -, -, -, -, hcounters, hdequeuers, -, hcleared⟩ := check_cases hstep
    intro e he n hn
    rw [hcounters]
    rw [hdequeuers] at he
    rcases mem_proceed he with he | rfl
    · exact (h e he n hn).trans s.le_current
    rcases hcleared with rfl | ⟨rfl, -⟩
    · cases hn
    · cases hn
      exact le_rfl
  | pop d =>
    obtain ⟨-, hdequeuers, hcounters, -⟩ := pop_cases hstep
    intro e he n hn
    rw [hcounters]
    rw [hdequeuers] at he
    rcases mem_proceed he with he | rfl
    · exact h e he n hn
    · cases hn
  | stop d =>
    cases hstep
    exact fun e he => h e (Multiset.mem_of_mem_erase he)

/-- What was popped, what is cleared and what is left do not grow together while the key
lives. -/
theorem spent_step {n : Nat} (hn : s.counters = n) (hwindow : s.InWindow limit)
    (hpops : s.PopsCleared a) (hstep : s.step a = some s') :
    s'.counters = n ∧
      s'.pops + s'.clearances n + s'.left ≤ s.pops + s.clearances n + s.left := by
  subst hn
  obtain ⟨-, hkey⟩ := hwindow
  cases a with
  | manage a =>
    simp only [Dequeuing.step] at hstep
    split at hstep
    · cases hstep
    rename_i hdequeue
    obtain ⟨queue, hqueue, rfl⟩ := Option.map_eq_some_iff.1 hstep
    refine ⟨rfl, Nat.add_le_add_left ?_ _⟩
    unfold left
    rcases Managed.rateCounter_of_step (by simpa using hdequeue) hqueue with heq | heq
    · rw [heq]
    · rw [heq]
      exact Nat.zero_le _
  | init c group =>
    obtain ⟨-, heq⟩ := Option.ite_none_right_eq_some.1 hstep
    cases heq
    refine ⟨rfl, le_of_eq ?_⟩
    simp [clearances, left]
  | check d lost =>
    obtain ⟨limit', cleared, -, hmem, hnone, hqueue, hcounters, hdequeuers, hpops', hcleared⟩ :=
      check_cases hstep
    have hcurrent : s.current = s.counters := by
      obtain ⟨v, hv⟩ := Option.isSome_iff_exists.1 hkey
      simp [current, hv]
    have hleft := left_check limit' hkey
    have hcount := clearances_proceed s.counters cleared hmem
    rw [hcurrent] at hcounters hcleared
    refine ⟨hcounters, ?_⟩
    rw [hnone, if_neg (by simp)] at hcount
    rw [hpops', clearances, hdequeuers, left, hqueue]
    rcases hcleared with rfl | ⟨rfl, hpass⟩
    · rw [if_neg (by simp)] at hcount
      omega
    rw [if_pos rfl] at hcount
    rw [if_pos hpass] at hleft
    omega
  | pop d =>
    obtain ⟨hmem, hdequeuers, hcounters, hcases⟩ := pop_cases hstep
    have hcount := clearances_proceed s.counters none hmem
    simp only [reduceCtorEq, if_false, Nat.add_zero] at hcount
    refine ⟨hcounters, ?_⟩
    rcases hcases with ⟨hqueue, hsame⟩ | ⟨hqueue, hmore⟩
    · rw [hsame, clearances, hdequeuers, left, left, hqueue]
      omega
    have hcleared := hpops d rfl (by rw [hqueue]; rfl)
    have hcounter : s'.queue.rateCounter = s.queue.rateCounter := by
      obtain ⟨-, h⟩ := Option.ite_none_right_eq_some.1 hqueue
      obtain ⟨sys, -, heq⟩ := Option.map_eq_some_iff.1 h
      rw [← heq]
    rw [if_pos hcleared] at hcount
    rw [hmore, clearances, hdequeuers, left, left, hcounter]
    omega
  | stop d =>
    cases hstep
    refine ⟨rfl, Nat.add_le_add_right (Nat.add_le_add_left ?_ _) _⟩
    exact Multiset.countP_le_of_le _ (Multiset.erase_le d s.dequeuers)

/-- What a check that creates the key can allow. -/
theorem spent_created {d : Dequeuer} {lost : Bool} (h : s.Dated)
    (hnone : s.queue.rateCounter = none) (hstep : s.step (.check d lost) = some s')
    (hlimit : ∀ l ∈ d.rateLimit, l.limit ≤ limit.limit) :
    s'.clearances s'.counters + s'.left ≤ limit.limit := by
  obtain ⟨l, cleared, hl, hmem, hfree, hqueue, hcounters, hdequeuers, -, -⟩ := check_cases hstep
  have hcurrent : s.current = s.counters + 1 := by simp [current, hnone]
  have hold : s.clearances (s.counters + 1) = 0 := by
    rw [clearances, Multiset.countP_eq_zero]
    intro e he heq
    exact Nat.not_succ_le_self _ (h e he _ heq)
  have hcount := clearances_proceed (s.counters + 1) cleared hmem
  have hleft : s'.left = l.limit - 1 := by
    simp only [left, hqueue, Managed.checkRateLimit, hnone, Option.getD_some]
    omega
  have hpos := l.limit_pos
  have hle := hlimit l hl
  rw [hcounters, hcurrent, clearances, hdequeuers, hleft]
  rw [hfree, if_neg (by simp), hold] at hcount
  have hone : (if cleared = some (s.counters + 1) then 1 else 0) ≤ 1 := by split <;> omega
  omega

end Runs

end Dequeuing

/-- Consumer 7 is started before the rate limit is set, and consumer 8 after that. Two
messages are pending. -/
def twoConsumers : List DequeueAction :=
  [.init 7 none, .manage (.setRateLimit (some oncePerSecond)), .init 8 none,
    .manage (.queue (.produce promptMessage none)), .manage (.queue (.produce promptMessage none))]

/-- The dequeuers of the two. -/
def unaware : Dequeuer := ⟨7, none, none, none⟩

def aware (cleared : Option Nat) : Dequeuer := ⟨8, none, some oncePerSecond, cleared⟩

/-- Two messages are popped while one counter key lives and the stored rate limit is one. -/
theorem rate_limit_exceeded :
    ∃ s s₁ s₂, (Dequeuing.created {} .fifo .pointToPoint [] 0).Runs twoConsumers s ∧
      s.queue.rateCounter = none ∧ s.step (.check (aware none) false) = some s₁ ∧
      Run.Along Dequeuing.step (fun s _ => s.InWindow oncePerSecond) s₁
        [.pop (aware (some 1)), .pop unaware] ∧
      s₁.Runs [.pop (aware (some 1)), .pop unaware] s₂ ∧ s₂.InWindow oncePerSecond ∧
      s₂.pops = s₁.pops + 2 := by
  have hrun : (Run.exec Dequeuing.step (Dequeuing.created {} .fifo .pointToPoint [] 0)
      twoConsumers).map (fun s => (s.queue.rateCounter, (s.step (.check (aware none) false)).map
        fun s₁ => (decide (Run.Along Dequeuing.step (fun s _ => s.InWindow oncePerSecond) s₁
          [.pop (aware (some 1)), .pop unaware]),
          (Run.exec Dequeuing.step s₁ [.pop (aware (some 1)), .pop unaware]).map fun s₂ =>
            (decide (s₂.InWindow oncePerSecond), decide (s₂.pops = s₁.pops + 2))))) =
      some (none, some (true, some (true, true))) := by decide
  obtain ⟨s, hs, heq⟩ := Option.map_eq_some_iff.1 hrun
  simp only [Prod.mk.injEq, decide_eq_true_eq, Option.map_eq_some_iff] at heq
  obtain ⟨hnone, s₁, hs₁, hwindow, s₂, hs₂, hin, hpops⟩ := heq
  exact ⟨s, s₁, s₂, hs, hnone, hs₁, hwindow, hs₂, hin, hpops⟩

/-- In every run in which a check creates the counter key with at most the stored limit, and
every message that is popped while the key lives is popped by a dequeuer that has passed a
check under it, no more messages are popped than the stored limit says. -/
theorem rate_limit_enforced (cfg : Config) (type : QueueType) (deliveryModel : DeliveryModel)
    (groups : List GroupId) (now : Nanos) (as bs : List DequeueAction) (s s₁ s₂ : Dequeuing)
    (hrun : (Dequeuing.created cfg type deliveryModel groups now).Runs as s)
    (limit : RateLimitParams) (hnone : s.queue.rateCounter = none) (d : Dequeuer) (lost : Bool)
    (hcreate : s.step (.check d lost) = some s₁)
    (hlimit : ∀ l ∈ d.rateLimit, l.limit ≤ limit.limit)
    (hwindow : Run.Along Dequeuing.step (fun s _ => s.InWindow limit) s₁ bs)
    (hcleared : Run.Along Dequeuing.step Dequeuing.PopsCleared s₁ bs) (hlater : s₁.Runs bs s₂) :
    s₂.pops ≤ s₁.pops + limit.limit := by
  have hdated : s.Dated := Run.invariant (fun _ _ _ h hstep => h.step hstep)
    (fun _ hd => absurd hd (Multiset.notMem_zero _)) hrun
  have hspent := Run.invariant_along
    (P := fun s => s.counters = s₁.counters ∧
      s.pops + s.clearances s₁.counters + s.left ≤ s₁.pops + limit.limit)
    (fun s a s' h hcond hstep => by
      obtain ⟨hcounters, hle⟩ := Dequeuing.spent_step h.1 hcond.1 hcond.2 hstep
      exact ⟨hcounters, hle.trans h.2⟩)
    ⟨rfl, by
      have hstart := Dequeuing.spent_created hdated hnone hcreate hlimit
      omega⟩
    (hwindow.and hcleared) hlater
  omega

theorem rate_limit_enforced_aware :
    ∃ s₁ s₂ : Dequeuing, s₁.Runs [.pop (aware (some 1)), .check (aware none) false,
        .manage .expireRateCounter] s₂ ∧ s₂.pops = 1 ∧ s₂.pops ≤ s₁.pops + 1 := by
  have hrun : (Run.exec Dequeuing.step (Dequeuing.created {} .fifo .pointToPoint [] 0)
      twoConsumers).map (fun s => (s.queue.rateCounter, (s.step (.check (aware none) false)).map
        fun s₁ => (decide (Run.Along Dequeuing.step (fun s _ => s.InWindow oncePerSecond) s₁
          [.pop (aware (some 1)), .check (aware none) false, .manage .expireRateCounter]),
          decide (Run.Along Dequeuing.step Dequeuing.PopsCleared s₁
            [.pop (aware (some 1)), .check (aware none) false, .manage .expireRateCounter]),
          (Run.exec Dequeuing.step s₁ [.pop (aware (some 1)), .check (aware none) false,
            .manage .expireRateCounter]).map fun s₂ => s₂.pops))) =
      some (none, some (true, true, some 1)) := by decide
  obtain ⟨s, hs, heq⟩ := Option.map_eq_some_iff.1 hrun
  simp only [Prod.mk.injEq, decide_eq_true_eq, Option.map_eq_some_iff] at heq
  obtain ⟨hnone, s₁, hs₁, hwindow, hcleared, s₂, hs₂, hpops⟩ := heq
  refine ⟨s₁, s₂, hs₂, hpops, ?_⟩
  exact rate_limit_enforced {} .fifo .pointToPoint [] 0 twoConsumers _ s s₁ s₂ hs
    oncePerSecond hnone
    (aware none) false hs₁ (fun l hl => by cases hl; exact le_rfl) hwindow hcleared hs₂

end RedisSmq
