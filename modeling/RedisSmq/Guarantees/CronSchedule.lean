import RedisSmq.Guarantees.Repetition

/-!
# Cron expressions with repeats

A message may have both a cron expression and a repeat count. Then each cron tick
starts a cycle of repeats, one period apart, that ends with the next tick. The
producer computes the first due time and stores the message. Each time the message is
due, the scheduled publisher decodes it, computes the next due time and writes the
scheduling fields back. All that the cycle remembers goes through the hash: whether
the cron expression has fired, and how many repeats have been counted since.
-/

namespace RedisSmq

/-! ## Rounds -/

/-- One call of `NextScheduledTimestamp`: when it was made, the cron tick that
followed, the due time it returned and the repeat count it left. -/
structure Occurrence where
  now : Nanos
  tick : Option Millis
  due : Millis
  repeatCount : Nat
  deriving DecidableEq, Repr

namespace Occurrence

def ofCall (nextTick : NextTick) (now : Nanos) (e : Envelope) : Occurrence where
  now := now
  tick := e.message.scheduledCron.bind fun c => nextTick c now
  due := (e.nextScheduledTimestamp nextTick now).1
  repeatCount := (e.nextScheduledTimestamp nextTick now).2.state.scheduledRepeatCount

/-- The due time is the cron tick. Otherwise it is that of a repeat. -/
def FromCron (o : Occurrence) : Prop := o.tick = some o.due
  deriving Decidable

end Occurrence

/-- What a round of the scheduled publisher draws: how long after the last round it
takes place, and the identifiers of the decoded state and of the copy. -/
structure Wakeup where
  wait : Nanos
  stateId : MessageId
  copyId : MessageId

/-- A round: the stored message is decoded, and the scheduling fields are written back. -/
def scheduleRound (cfg : Config) (now : Nanos) (w : Wakeup) (h : MessageHash) :
    Option (Occurrence × MessageHash) :=
  (Codec.decodeEnvelope cfg.defaults w.stateId now h).map fun e =>
    (.ofCall cfg.nextTick now e, (ScheduledArg.ofEnvelope cfg now w.copyId e).writeSchedule h)

def scheduleRounds (cfg : Config) : Nanos → MessageHash → List Wakeup → Option (List Occurrence)
  | _, _, [] => some []
  | now, h, w :: ws =>
      (scheduleRound cfg (now + w.wait) w h).bind fun r =>
        (scheduleRounds cfg (now + w.wait) r.2 ws).map fun os => r.1 :: os

/-- The occurrences of a message from the producer's call on. -/
def scheduleOf (cfg : Config) (now : Nanos) (e : Envelope) (ws : List Wakeup) :
    Option (List Occurrence) :=
  (scheduleRounds cfg now (Codec.publishedHash (e.dispatch cfg.nextTick now)) ws).map fun os =>
    .ofCall cfg.nextTick now e :: os

/-! ## One call -/

/-- The cron library finds a tick after every instant. -/
def TicksAfter (nextTick : NextTick) (c : Cron) : Prop :=
  ∀ now, ∃ t, nextTick c now = some t ∧ now < ofMillis t

section Call

variable {nextTick : NextTick} {c : Cron} {now : Nanos} {e : Envelope}

theorem toMillis_le_of_lt {t : Millis} (h : now < ofMillis t) : toMillis now ≤ t := by
  unfold toMillis ofMillis at *
  exact Nat.div_le_of_le_mul (by rw [Nat.mul_comm]; exact h.le)

theorem pos_of_lt_ofMillis {t : Millis} (h : now < ofMillis t) : 0 < t := by
  unfold ofMillis at h
  rcases Nat.eq_zero_or_pos t with ht | ht
  · rw [ht, Nat.zero_mul] at h
    exact absurd h (Nat.not_lt_zero now)
  · exact ht

/-- The repeat candidate comes one period after now, and only within the limit and
after the first tick. -/
theorem Envelope.repeatTimestamp_pos (hcron : e.message.scheduledCron = some c)
    (h : 0 < e.repeatTimestamp (toMillis now)) :
    e.state.scheduledRepeatCount < e.message.scheduledRepeat ∧
      e.state.scheduledCronFired = true ∧ toMillis now ≤ e.repeatTimestamp (toMillis now) := by
  unfold repeatTimestamp at h ⊢
  simp only [hcron, Option.isNone_some, Bool.false_or, Option.isSome_some, if_true] at h ⊢
  by_cases hcount : e.state.scheduledRepeatCount < e.message.scheduledRepeat
  · by_cases hfired : e.state.scheduledCronFired = true
    · cases hperiod : e.message.scheduledRepeatPeriod with
      | none => simp [hcount, hfired, hperiod] at h
      | some period => simp [hcount, hfired]
    · simp [hfired] at h
  · simp [hcount] at h

/-- What a call returns for a message with a cron expression and no delay: the tick,
which starts a cycle, or a repeat of the running cycle before the tick. -/
theorem Envelope.nextScheduledTimestamp_cron (now : Nanos) (htick : TicksAfter nextTick c)
    (hcron : e.message.scheduledCron = some c) (hdelay : e.state.effectiveScheduledDelay = 0) :
    ∃ t, nextTick c now = some t ∧ toMillis now ≤ t ∧
      (e.nextScheduledTimestamp nextTick now = (t, e.cronFires) ∨
        ∃ r, e.nextScheduledTimestamp nextTick now = (r, e.incrScheduledRepeatCount) ∧
          toMillis now ≤ r ∧ r < t ∧
          e.state.scheduledRepeatCount < e.message.scheduledRepeat ∧
          e.state.scheduledCronFired = true) := by
  obtain ⟨t, ht, hnow⟩ := htick now
  have hpos := pos_of_lt_ofMillis hnow
  have hsched : e.isSchedulable = true := by simp [isSchedulable, isPeriodic, hcron]
  refine ⟨t, ht, toMillis_le_of_lt hnow, ?_⟩
  simp only [nextScheduledTimestamp, hsched, if_true, hdelay, Nat.lt_irrefl, if_false, hcron,
    Option.isNone_some, Bool.false_and, Bool.false_eq_true, Option.bind_some, ht, Option.getD_some,
    hpos, true_and]
  by_cases hrepeat : 0 < e.repeatTimestamp (toMillis now)
  · obtain ⟨hcount, hfired, hle⟩ := repeatTimestamp_pos hcron hrepeat
    by_cases hbefore : e.repeatTimestamp (toMillis now) < t
    · right
      exact ⟨_, by rw [if_pos hrepeat, if_pos hbefore], hle, hbefore, hcount, hfired⟩
    · left
      rw [if_pos hrepeat, if_neg hbefore]
  · left
    rw [if_neg hrepeat]

end Call

/-! ## The stored cycle -/

/-- An occurrence is sound if it does not lie in the past, keeps to the limit and, if
it is a repeat, comes before the tick. -/
structure Occurrence.Sound (o : Occurrence) (limit : Nat) : Prop where
  count_le : o.repeatCount ≤ limit
  now_le : toMillis o.now ≤ o.due
  before_tick : ¬o.FromCron → ∃ t, o.tick = some t ∧ o.due < t

/-- A message whose cron expression has fired, with `count` repeats counted since. -/
structure Envelope.InCycle (e : Envelope) (c : Cron) (limit count : Nat) : Prop where
  cron : e.message.scheduledCron = some c
  repeats : e.message.scheduledRepeat = limit
  delay : e.state.effectiveScheduledDelay = 0
  fired : e.state.scheduledCronFired = true
  count_eq : e.state.scheduledRepeatCount = count

/-- The hash of such a message. -/
structure MessageHash.InCycle (h : MessageHash) (c : Cron) (limit count : Nat) : Prop where
  stored : ∃ p, h.message = some p ∧ p.scheduledCron = some c ∧ p.scheduledRepeat = limit ∧
    p.scheduledDelay.getD 0 = 0
  delay : h.effectiveScheduledDelay = some 0
  fired : h.scheduledCronFired = some true
  count_eq : h.scheduledRepeatCount = some count

section Rounds

variable {cfg : Config} {c : Cron} {limit count : Nat} {h : MessageHash} {now : Nanos}
variable {e : Envelope}

theorem MessageHash.InCycle.decode (hh : h.InCycle c limit count) (uuid : MessageId) :
    ∃ e, Codec.decodeEnvelope cfg.defaults uuid now h = some e ∧ e.InCycle c limit count := by
  obtain ⟨p, hp, hcron, hlimit, hdelay⟩ := hh.stored
  refine ⟨_, by rw [Codec.decodeEnvelope, hp]; rfl, hcron, hlimit, ?_, ?_, ?_⟩
  · simpa [Codec.decodeState, hh.delay] using hdelay
  · simp [Codec.decodeState, hh.fired]
  · simp [Codec.decodeState, hh.count_eq]

/-- A call within a cycle: the tick starts a new cycle, or one more repeat is counted. -/
theorem Envelope.InCycle.call (now : Nanos) (htick : TicksAfter cfg.nextTick c)
    (he : e.InCycle c limit count) :
    (Occurrence.ofCall cfg.nextTick now e).Sound limit ∧
      (e.nextScheduledTimestamp cfg.nextTick now).2.InCycle c limit
        (Occurrence.ofCall cfg.nextTick now e).repeatCount ∧
      (¬(Occurrence.ofCall cfg.nextTick now e).FromCron →
        (Occurrence.ofCall cfg.nextTick now e).repeatCount = count + 1) := by
  obtain ⟨t, ht, hle, hcall⟩ := e.nextScheduledTimestamp_cron now htick he.cron he.delay
  have htick' : (Occurrence.ofCall cfg.nextTick now e).tick = some t := by
    simp [Occurrence.ofCall, he.cron, ht]
  rcases hcall with hcall | ⟨r, hcall, hnow, hbefore, hlimit, hfired⟩
  · have hcron : (Occurrence.ofCall cfg.nextTick now e).FromCron := by
      rw [Occurrence.FromCron, htick', Occurrence.ofCall, hcall]
    refine ⟨⟨?_, ?_, fun hnot => absurd hcron hnot⟩, ?_, fun hnot => absurd hcron hnot⟩
    · simp [Occurrence.ofCall, hcall, cronFires]
    · simpa [Occurrence.ofCall, hcall] using hle
    · rw [Occurrence.ofCall, hcall]
      exact ⟨he.cron, he.repeats, he.delay, rfl, rfl⟩
  · have hnext : (Occurrence.ofCall cfg.nextTick now e).repeatCount = count + 1 := by
      simp [Occurrence.ofCall, hcall, incrScheduledRepeatCount, he.count_eq]
    rw [he.count_eq, he.repeats] at hlimit
    refine ⟨⟨?_, ?_, fun _ => ⟨t, htick', ?_⟩⟩, ?_, fun _ => hnext⟩
    · rw [hnext]
      exact hlimit
    · simpa [Occurrence.ofCall, hcall] using hnow
    · simpa [Occurrence.ofCall, hcall] using hbefore
    rw [hnext, hcall]
    exact ⟨he.cron, he.repeats, he.delay, hfired, by
      rw [incrScheduledRepeatCount, he.count_eq]⟩

/-- The first call is a tick, since no cycle has begun. -/
theorem Envelope.firstCall (now : Nanos) (htick : TicksAfter cfg.nextTick c)
    (hcron : e.message.scheduledCron = some c) (hdelay : e.state.effectiveScheduledDelay = 0)
    (hfired : e.state.scheduledCronFired = false) :
    (Occurrence.ofCall cfg.nextTick now e).FromCron ∧
      (Occurrence.ofCall cfg.nextTick now e).Sound e.message.scheduledRepeat ∧
      (e.nextScheduledTimestamp cfg.nextTick now).2.InCycle c e.message.scheduledRepeat 0 := by
  obtain ⟨t, ht, hle, hcall | ⟨r, _, _, _, _, hfired'⟩⟩ :=
    e.nextScheduledTimestamp_cron now htick hcron hdelay
  · have hcron' : (Occurrence.ofCall cfg.nextTick now e).FromCron := by
      simp [Occurrence.FromCron, Occurrence.ofCall, hcron, ht, hcall]
    refine ⟨hcron', ⟨?_, ?_, fun hnot => absurd hcron' hnot⟩, ?_⟩
    · simp [Occurrence.ofCall, hcall, cronFires]
    · simpa [Occurrence.ofCall, hcall] using hle
    · rw [hcall]
      exact ⟨hcron, rfl, hdelay, rfl, rfl⟩
  · rw [hfired] at hfired'
    cases hfired'

/-- What a round writes back keeps the cycle. -/
theorem MessageHash.InCycle.writeSchedule (hh : h.InCycle c limit count) {count' : Nat}
    (he : (e.nextScheduledTimestamp cfg.nextTick now).2.InCycle c limit count') (uuid : MessageId) :
    ((ScheduledArg.ofEnvelope cfg now uuid e).writeSchedule h).InCycle c limit count' where
  stored := hh.stored
  delay := congrArg some he.delay
  fired := congrArg some he.fired
  count_eq := congrArg some he.count_eq

/-- What the producer stores begins a cycle. -/
theorem Envelope.InCycle.publishedHash
    (he : (e.nextScheduledTimestamp cfg.nextTick now).2.InCycle c limit count)
    (hdelay : e.message.initialDelay = 0) :
    (Codec.publishedHash (e.dispatch cfg.nextTick now)).InCycle c limit count := by
  have hmessage := (@Envelope.nextScheduledTimestamp_frame cfg.nextTick now e).1
  have hdelay' : ((e.nextScheduledTimestamp cfg.nextTick now).2.toParams).scheduledDelay.getD 0 =
      0 := by
    rw [Envelope.toParams, Producible.toParams, hmessage]
    exact hdelay
  unfold Envelope.dispatch
  dsimp only
  split <;>
  · exact ⟨⟨_, rfl, he.cron, he.repeats, hdelay'⟩, congrArg some he.delay,
      congrArg some he.fired, congrArg some he.count_eq⟩

theorem MessageHash.InCycle.round (now : Nanos) (w : Wakeup) (htick : TicksAfter cfg.nextTick c)
    (hh : h.InCycle c limit count) :
    ∃ o h', scheduleRound cfg now w h = some (o, h') ∧ o.Sound limit ∧
      h'.InCycle c limit o.repeatCount ∧ (¬o.FromCron → o.repeatCount = count + 1) := by
  obtain ⟨e, hdecode, he⟩ := hh.decode w.stateId
  obtain ⟨hsound, hnext, hrepeat⟩ := he.call now htick
  exact ⟨_, _, by rw [scheduleRound, hdecode, Option.map_some], hsound,
    hh.writeSchedule hnext w.copyId, hrepeat⟩

/-- Any number of rounds: all occurrences are sound, and a block of repeats in a row
stays within the limit, counting those before it if it comes first. -/
theorem MessageHash.InCycle.rounds (now : Nanos) (htick : TicksAfter cfg.nextTick c)
    (hh : h.InCycle c limit count) (hcount : count ≤ limit) (ws : List Wakeup) :
    ∃ os, scheduleRounds cfg now h ws = some os ∧ os.length = ws.length ∧
      (∀ o ∈ os, o.Sound limit) ∧
      (∀ block, block <+: os → (∀ o ∈ block, ¬o.FromCron) → count + block.length ≤ limit) ∧
      ∀ block, block <:+: os → (∀ o ∈ block, ¬o.FromCron) → block.length ≤ limit := by
  induction ws generalizing h count now with
  | nil =>
    refine ⟨[], rfl, rfl, by simp, ?_, ?_⟩
    · intro block hblock _
      rw [List.prefix_nil.1 hblock]
      exact hcount
    · intro block hblock _
      rw [List.infix_nil.1 hblock]
      exact Nat.zero_le _
  | cons w ws ih =>
    obtain ⟨o, h', hround, hsound, hh', hrepeat⟩ := hh.round (now + w.wait) w htick
    obtain ⟨os, hrounds, hlength, hall, hfirst, hblocks⟩ :=
      ih (now + w.wait) hh' hsound.count_le
    have hstart : ∀ block, block <+: o :: os → (∀ o ∈ block, ¬o.FromCron) →
        count + block.length ≤ limit := by
      intro block hblock hnone
      rcases List.prefix_cons_iff.1 hblock with rfl | ⟨rest, rfl, hrest⟩
      · exact hcount
      have hcount' := hrepeat (hnone o List.mem_cons_self)
      have hrest' := hfirst rest hrest fun o ho => hnone o (List.mem_cons_of_mem _ ho)
      rw [hcount'] at hrest'
      rw [List.length_cons]
      omega
    refine ⟨o :: os, ?_, by rw [List.length_cons, hlength, List.length_cons], ?_, hstart, ?_⟩
    · rw [scheduleRounds, hround, Option.bind_some, hrounds, Option.map_some]
    · intro o' ho'
      rcases List.mem_cons.1 ho' with rfl | ho'
      · exact hsound
      · exact hall o' ho'
    · intro block hblock hnone
      rcases List.infix_cons_iff.1 hblock with hprefix | hinfix
      · have hle := hstart block hprefix hnone
        omega
      · exact hblocks block hinfix hnone

end Rounds

/-! ## The schedule -/

/-- A message with a cron expression, a repeat count and no delay, over any number of
rounds: the first occurrence is a cron tick, no occurrence lies in the past, the repeat
count keeps to its limit, every repeat comes before the next tick, and between two ticks
there are no more repeats than the limit. -/
theorem cron_schedule_sound (cfg : Config) (m : Producible) (group : Option GroupId)
    (id : MessageId) (start : Nanos) (ws : List Wakeup) {c : Cron}
    (hcron : m.scheduledCron = some c) (hdelay : m.initialDelay = 0)
    (htick : TicksAfter cfg.nextTick c) :
    ∃ first rest,
      scheduleOf cfg start { Envelope.new m id with consumerGroupId := group } ws =
        some (first :: rest) ∧
      rest.length = ws.length ∧ first.FromCron ∧
      (∀ o ∈ first :: rest, o.Sound m.scheduledRepeat) ∧
      ∀ block, block <:+: first :: rest → (∀ o ∈ block, ¬o.FromCron) →
        block.length ≤ m.scheduledRepeat := by
  obtain ⟨hfirst, hsound, hcycle⟩ :=
    Envelope.firstCall (e := { Envelope.new m id with consumerGroupId := group }) start htick hcron
      hdelay rfl
  obtain ⟨os, hrounds, hlength, hall, -, hblocks⟩ :=
    (hcycle.publishedHash hdelay).rounds start htick (Nat.zero_le _) ws
  refine ⟨_, os, by rw [scheduleOf, hrounds, Option.map_some], hlength, hfirst, ?_, ?_⟩
  · intro o ho
    rcases List.mem_cons.1 ho with rfl | ho
    · exact hsound
    · exact hall o ho
  · intro block hblock hnone
    rcases List.infix_cons_iff.1 hblock with hprefix | hinfix
    · rcases List.prefix_cons_iff.1 hprefix with rfl | ⟨rest, rfl, _⟩
      · exact Nat.zero_le _
      · exact absurd hfirst (hnone _ List.mem_cons_self)
    · exact hblocks block hinfix hnone

/-- A cron expression that ticks every second. -/
def secondTick : NextTick := fun _ now => some ((now / 1000000000 + 1) * 1000)

theorem ticksAfter_secondTick (c : Cron) : TicksAfter secondTick c := by
  intro (now : Nat)
  refine ⟨_, rfl, ?_⟩
  change now < (now / 1000000000 + 1) * 1000 * 1000000
  omega

/-- A message that is due every second and twice in between. -/
def digestMessage : Producible :=
  { Producible.new defaultConsumeOptions 0 7 with
    scheduledCron := some 5
    scheduledRepeat := 2
    scheduledRepeatPeriod := some 300000000 }

def digestWakeups : List Wakeup :=
  [⟨1000000000, 1, 2⟩, ⟨300000000, 3, 4⟩, ⟨300000000, 5, 6⟩]

theorem cron_schedule_sound_digest :
    (scheduleOf { nextTick := secondTick } 0
        { Envelope.new digestMessage 0 with consumerGroupId := none } digestWakeups).map
          (List.map Occurrence.due) = some [1000, 1300, 1600, 2000] ∧
      ∃ first rest,
        scheduleOf { nextTick := secondTick } 0
            { Envelope.new digestMessage 0 with consumerGroupId := none } digestWakeups =
          some (first :: rest) ∧
        rest.length = digestWakeups.length ∧ first.FromCron ∧
        (∀ o ∈ first :: rest, o.Sound digestMessage.scheduledRepeat) ∧
        ∀ block, block <:+: first :: rest → (∀ o ∈ block, ¬o.FromCron) →
          block.length ≤ digestMessage.scheduledRepeat :=
  ⟨by decide +kernel,
    cron_schedule_sound { nextTick := secondTick } digestMessage none 0 0 digestWakeups rfl rfl
      (ticksAfter_secondTick 5)⟩

end RedisSmq
