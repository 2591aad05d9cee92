import RedisSmq.Guarantees.Deletion

/-!
# Repeated messages

A message with a repeat count `n` should be delivered once and then `n` times more. The
loop goes through the store: the producer computes the first due time, and each time the
message is due the scheduled publisher decodes it, computes the next due time and writes
the state back, with a copy for the occasion.

Two slips keep the loop from doing this. Decoding restores the initial delay that was
already used up, so a delayed message is due again after the same delay for ever and its
repeats are never counted. Without a delay the producer's own call counts the first
delivery as a repeat, so the message is delivered once less than it should.
-/

namespace RedisSmq

/-! ## The next due time of a repeated message -/

section Next

variable {nextTick : NextTick} {now : Nanos} {e : Envelope}

/-- A delay comes first, and is used up. -/
theorem Envelope.nextScheduledTimestamp_delayed (h : 0 < e.state.effectiveScheduledDelay) :
    e.nextScheduledTimestamp nextTick now =
      (toMillis now + e.state.effectiveScheduledDelay, e.clearEffectiveScheduledDelay) := by
  have hsched : e.isSchedulable = true := by simp [isSchedulable, hasNextDelay, h]
  simp only [nextScheduledTimestamp, hsched, if_true, if_pos h]

/-- Without a delay and a cron expression the repeat count decides. -/
theorem Envelope.nextScheduledTimestamp_repeats (hdelay : e.state.effectiveScheduledDelay = 0)
    (hcron : e.message.scheduledCron = none) (hrepeat : 0 < e.message.scheduledRepeat) :
    e.nextScheduledTimestamp nextTick now =
      if 0 < e.repeatTimestamp (toMillis now) then
        (e.repeatTimestamp (toMillis now), e.incrScheduledRepeatCount)
      else (0, e) := by
  have hsched : e.isSchedulable = true := by simp [isSchedulable, isPeriodic, hrepeat]
  have hne : e.message.scheduledRepeat ≠ 0 := Nat.pos_iff_ne_zero.1 hrepeat
  simp [nextScheduledTimestamp, hsched, hdelay, hcron, hne]

end Next

/-! ## What the store knows of the message -/

/-- The hash of a repeated message in the schedule: `count` repeats are counted, and the
delay is used up. -/
structure MessageHash.Repeated (h : MessageHash) (id : MessageId) (p : Params) (count : Nat) :
    Prop where
  id_eq : h.id = some id
  message : h.message = some p
  count_eq : h.scheduledRepeatCount = some count
  delay : h.effectiveScheduledDelay = some 0

/-- The copy that is decoded from such a hash: it has its initial delay again. -/
theorem MessageHash.Repeated.decode {h : MessageHash} {id uuid : MessageId} {p : Params}
    {count : Nat} (hr : h.Repeated id p count) (opts : ConsumeOptions) (now : Nanos) :
    ∃ e, Codec.decodeEnvelope opts uuid now h = some e ∧ e.id = id ∧
      e.message = Codec.rebuildMessage opts now p ∧ e.consumerGroupId = p.consumerGroupId ∧
      e.state.scheduledRepeatCount = count ∧
      e.state.effectiveScheduledDelay = p.scheduledDelay.getD 0 := by
  refine ⟨_, by rw [Codec.decodeEnvelope, hr.message]; rfl, ?_, rfl, rfl, ?_, ?_⟩
  · simp [Envelope.id, Codec.decodeState, hr.id_eq]
  · simp [Codec.decodeState, hr.count_eq]
  · simp [Codec.decodeState, hr.delay]

/-- The number of messages that were delivered to the pending container of a group. -/
def Keyspace.pendingSize (db : Keyspace) (group : Option GroupId) : Nat :=
  (db.lists (.pending group)).length + (db.zsets (.priority group)).entries.length

theorem Keyspace.pendingSize_enqueueNew {db db' : Keyspace} {type : QueueType}
    {group : Option GroupId} {priority : Option Nat} {id : MessageId}
    (h : db.enqueueNew type group priority id = some db') (hnew : id ∉ db.zsets (.priority group)) :
    db'.pendingSize group = db.pendingSize group + 1 := by
  cases type with
  | fifo =>
    cases h
    simp [pendingSize, lpush, setList]
    omega
  | lifo =>
    cases h
    simp [pendingSize, rpush, setList]
    omega
  | priority =>
    obtain ⟨score, _, rfl⟩ := Option.map_eq_some_iff.1 h
    simp [pendingSize, zadd, setZset, SortedSet.length_add hnew]
    omega

theorem Keyspace.zsets_scheduled_enqueueNew {db db' : Keyspace} {type : QueueType}
    {group : Option GroupId} {priority : Option Nat} {id : MessageId}
    (h : db.enqueueNew type group priority id = some db') :
    db'.zsets .scheduled = db.zsets .scheduled := by
  cases type with
  | fifo | lifo =>
    cases h
    rfl
  | priority =>
    obtain ⟨score, _, rfl⟩ := Option.map_eq_some_iff.1 h
    have hne : ZsetKey.scheduled ≠ .priority group := by simp
    exact Function.update_of_ne hne ((db.zsets (.priority group)).add score id) db.zsets

theorem pendingSize_storePublished (a : PublishArgs) (c : Counter) (db : Keyspace)
    (group : Option GroupId) :
    (storePublished a c db).pendingSize group = db.pendingSize group := by
  simp [Keyspace.pendingSize, storePublished, Keyspace.rpush, Keyspace.setList, Keyspace.hset,
    Keyspace.hincrby]

/-! ## The loop -/

/-- One round of the scheduled publisher for a message: if the message is due after the
wait, it is fetched, loaded and published. -/
def System.fire (id : MessageId) (s : System) (wait : Nanos) : Option System :=
  (s.step (.tick wait)).bind fun s =>
    if id ∈ s.due .scheduler then
      (s.loadMessage id).bind fun e =>
        Run.exec System.step s
          [.fetch .scheduler, .load .scheduler id, .publishScheduled e.consumerGroupId [e] s.now]
    else none

section Fire

variable {type : QueueType} {s s' : System} {id : MessageId} {wait : Nanos} {e : Envelope}

/-- What a round of the publisher does. -/
theorem System.fire_some (h : s.fire id wait = some s') :
    ∃ e, id ∈ ({ s with now := s.now + wait } : System).due .scheduler ∧
      ({ s with now := s.now + wait } : System).loadMessage id = some e ∧
      s'.cfg = s.cfg ∧ s'.now = s.now + wait ∧
      s'.db = (RedisSmq.publishScheduled
        [ScheduledArg.ofEnvelope s.cfg (s.now + wait) (s.nextId + 1) e] s.db).db := by
  obtain ⟨s₁, hs₁, h⟩ := Option.bind_eq_some_iff.1 h
  cases hs₁
  obtain ⟨hdue, h⟩ := Option.ite_none_right_eq_some.1 h
  obtain ⟨e, he, h⟩ := Option.bind_eq_some_iff.1 h
  obtain ⟨s₂, hfetch, h⟩ := Run.exec_cons_some h
  cases hfetch
  obtain ⟨s₃, hload, h⟩ := Run.exec_cons_some h
  obtain ⟨_, hload⟩ := Option.ite_none_right_eq_some.1 hload
  cases hload
  obtain ⟨s₄, hpublish, h⟩ := Run.exec_cons_some h
  obtain ⟨_, hpublish⟩ := Option.ite_none_right_eq_some.1 hpublish
  cases hpublish
  cases h
  exact ⟨e, hdue, he, rfl, rfl, rfl⟩

theorem Sane.fire (hs : Sane type s) (h : s.fire id wait = some s') : Sane type s' := by
  obtain ⟨s₁, hs₁, h⟩ := Option.bind_eq_some_iff.1 h
  have hs₁ := hs.step (Step.of_step hs₁)
  obtain ⟨_, h⟩ := Option.ite_none_right_eq_some.1 h
  obtain ⟨e, _, h⟩ := Option.bind_eq_some_iff.1 h
  exact Run.invariant (fun _ _ _ hs hstep => hs.step (Step.of_step hstep)) hs₁ h

end Fire

/-! ## One occurrence -/

section Occurrence

variable {type : QueueType} {db : Keyspace} {a : ScheduledArg}

/-- A message that is due again goes back into the schedule, and a copy is delivered. -/
theorem scheduledMove_again {nextAt : Millis} {child : PublishArgs}
    (htype : db.queueType? = some type) (hstate : stateRefusal db.operationalState = none)
    (hfits : a.Fits type) (hgroup : db.groupExists a.group = true)
    (hnext : a.next = some (nextAt, child)) (hnew : child.id ∉ db.zsets (.priority a.group)) :
    (scheduledMove type db a).pendingSize a.group = db.pendingSize a.group + 1 ∧
      (scheduledMove type db a).zsets .scheduled = (db.zsets .scheduled).add nextAt a.id ∧
      Frame child.id (reschedule a nextAt db) (scheduledMove type db a) := by
  obtain ⟨hstatus, hchild, hpriority⟩ := hfits.child nextAt child hnext
  have hmove : scheduledMove type db a = (publishMessage child (reschedule a nextAt db)).db := by
    simp only [scheduledMove, hnext, hgroup, if_true]
  have hok : (publishMessage child (reschedule a nextAt db)).isOk = true := by
    refine @publishMessage_isOk child (reschedule a nextAt db) type htype hstate hpriority ?_
      (absurd hstatus)
    rw [hchild]
    exact hgroup
  rw [hmove]
  rcases @publishMessage_cases child (reschedule a nextAt db) with
    ⟨hno, _⟩ | ⟨_, type', container, db₁, _, _, _, hplaced, hdb⟩
  · rw [hok] at hno
    cases hno
  cases hplaced with
  | scheduled hnot => exact absurd hstatus hnot
  | pending _ hdb₁ =>
    rw [hchild] at hdb₁
    have hkeep : (reschedule a nextAt db).zsets (.priority a.group) =
        db.zsets (.priority a.group) := by
      simp [reschedule, Keyspace.zadd, Keyspace.setZset, Keyspace.hset]
    have hsched : (reschedule a nextAt db).zsets .scheduled =
        (db.zsets .scheduled).add nextAt a.id := by
      simp [reschedule, Keyspace.zadd, Keyspace.setZset, Keyspace.hset]
    refine ⟨?_, ?_, publishMessage_frame child _⟩
    · rw [hdb, pendingSize_storePublished,
        Keyspace.pendingSize_enqueueNew hdb₁ (by rw [hkeep]; exact hnew), Keyspace.pendingSize,
        hkeep]
      rfl
    · rw [hdb]
      exact (Keyspace.zsets_scheduled_enqueueNew hdb₁).trans hsched

/-- A message that is due for the last time leaves the schedule and is delivered itself. -/
theorem scheduledMove_last (hfits : a.Fits type) (hgroup : db.groupExists a.group = true)
    (hnext : a.next = none) (hmem : a.id ∈ db.zsets .scheduled)
    (hnew : a.id ∉ db.zsets (.priority a.group)) :
    (scheduledMove type db a).pendingSize a.group = db.pendingSize a.group + 1 ∧
      (scheduledMove type db a).zsets .scheduled = (db.zsets .scheduled).rem a.id := by
  obtain ⟨db₁, hdb₁⟩ := @Keyspace.enqueueNew_isSome (takeScheduled a db) type a.group a.priority
    a.id hfits.priority
  have hmove : scheduledMove type db a = (db₁.hincrby .pending 1).hset a.id a.writePublished := by
    have htake : (takeScheduled a db).groupExists a.group = true := hgroup
    simp only [scheduledMove, hnext, if_pos hmem, publishTaken, htake, if_true, hdb₁,
      Option.map_some, Option.getD_some]
  have hkeep : (takeScheduled a db).zsets (.priority a.group) = db.zsets (.priority a.group) := by
    simp [takeScheduled, Keyspace.zrem, Keyspace.setZset, Keyspace.hincrby]
  have hsched : (takeScheduled a db).zsets .scheduled = (db.zsets .scheduled).rem a.id := by
    simp [takeScheduled, Keyspace.zrem, Keyspace.setZset, Keyspace.hincrby]
  rw [hmove]
  constructor
  · change db₁.pendingSize a.group = _
    rw [Keyspace.pendingSize_enqueueNew hdb₁ (by rw [hkeep]; exact hnew), Keyspace.pendingSize,
      hkeep]
    rfl
  · exact (Keyspace.zsets_scheduled_enqueueNew hdb₁).trans hsched

end Occurrence

/-! ## The whole loop -/

/-- The initial delay in milliseconds. -/
def Producible.initialDelay (m : Producible) : Millis := (m.scheduledDelay.map toMillis).getD 0

/-- The message `0` is in the schedule, alone, with `count` counted repeats, and nothing
keeps it from being delivered. -/
structure RepeatWaiting (type : QueueType) (m : Producible) (group : Option GroupId)
    (count : Nat) (s : System) : Prop where
  state : stateRefusal s.db.operationalState = none
  groupExists : s.db.groupExists group = true
  fits : PriorityFits type m.priority
  stored : ∃ h, s.db.hgetall 0 = some h ∧ h.Repeated 0 (m.toParams group) count
  scheduled : ∀ id, id ∈ s.db.zsets .scheduled ↔ id = 0
  undelivered : 0 ∉ s.db.zsets (.priority group)

/-- How far the loop has come. While the message is in the schedule, it has a delay that
makes it due again, or one message less is delivered than repeats are counted. -/
inductive RepeatProgress (type : QueueType) (m : Producible) (group : Option GroupId)
    (s : System) : Prop
  | waiting {count : Nat} (hwaiting : RepeatWaiting type m group count s)
      (hcount : 0 < m.initialDelay ∨
        count = s.db.pendingSize group + 1 ∧ count ≤ m.scheduledRepeat) :
      RepeatProgress type m group s
  | finished (hsched : ∀ id, id ∉ s.db.zsets .scheduled)
      (hsize : s.db.pendingSize group ≤ m.scheduledRepeat) : RepeatProgress type m group s

section Loop

variable {type : QueueType} {m : Producible} {group : Option GroupId} {s s' : System}
variable {e : Envelope}
variable {count : Nat} {now : Nanos} {cfg : Config}

/-- What the next due time does to the counted repeats of a message without a cron
expression. -/
theorem Envelope.nextScheduledTimestamp_cases {nextTick : NextTick}
    (hcron : e.message.scheduledCron = none) (hrepeat : 0 < e.message.scheduledRepeat) :
    (0 < e.state.effectiveScheduledDelay ∧
      e.nextScheduledTimestamp nextTick now =
        (toMillis now + e.state.effectiveScheduledDelay, e.clearEffectiveScheduledDelay)) ∨
    (e.state.effectiveScheduledDelay = 0 ∧
      e.state.scheduledRepeatCount < e.message.scheduledRepeat ∧
      ∃ due, 0 < due ∧
        e.nextScheduledTimestamp nextTick now = (due, e.incrScheduledRepeatCount)) ∨
    e.state.effectiveScheduledDelay = 0 ∧ e.nextScheduledTimestamp nextTick now = (0, e) := by
  rcases Nat.eq_zero_or_pos e.state.effectiveScheduledDelay with hdelay | hdelay
  · right
    have hnext := @nextScheduledTimestamp_repeats nextTick now e hdelay hcron hrepeat
    by_cases hpos : 0 < e.repeatTimestamp (toMillis now)
    · left
      rw [if_pos hpos] at hnext
      refine ⟨hdelay, ?_, _, hpos, hnext⟩
      by_contra hlimit
      simp [repeatTimestamp, hlimit] at hpos
    · rw [if_neg hpos] at hnext
      exact .inr ⟨hdelay, hnext⟩
  · exact .inl ⟨hdelay, nextScheduledTimestamp_delayed hdelay⟩

/-- The publisher's copy of the message. -/
structure RepeatCopy (m : Producible) (group : Option GroupId) (count : Nat) (e : Envelope) :
    Prop where
  id_eq : e.id = 0
  group_eq : e.consumerGroupId = group
  priority : e.message.priority = m.priority
  cron : e.message.scheduledCron = m.scheduledCron
  limit : e.message.scheduledRepeat = m.scheduledRepeat
  count_eq : e.state.scheduledRepeatCount = count
  delay : e.state.effectiveScheduledDelay = m.initialDelay

theorem RepeatWaiting.copy (h : RepeatWaiting type m group count s)
    (hload : ({ s with now := now } : System).loadMessage 0 = some e) :
    RepeatCopy m group count e := by
  obtain ⟨hash, hget, hrepeated⟩ := h.stored
  obtain ⟨e', he', hid, hmessage, hgroup, hcount, hdelay⟩ :=
    @MessageHash.Repeated.decode hash 0 s.nextId _ _ hrepeated s.cfg.defaults now
  have hsome : (s.db.hgetall 0).bind (Codec.decodeEnvelope s.cfg.defaults s.nextId now) = some e :=
    hload
  rw [hget, Option.bind_some, he'] at hsome
  cases hsome
  refine ⟨hid, hgroup, ?_, ?_, ?_, hcount, hdelay⟩
  all_goals rw [hmessage]
  all_goals rfl

/-- The script runs the one move it is given. -/
private theorem publishScheduled_singleton {db : Keyspace} {a : ScheduledArg}
    (htype : db.queueType? = some type) (hstate : stateRefusal db.operationalState = none)
    (hfits : a.Fits type) : (publishScheduled [a] db).db = scheduledMove type db a := by
  rw [publishScheduled_moves htype hstate]
  · rfl
  intro a' ha'
  rw [List.mem_singleton.1 ha']
  exact hfits

/-- A round that puts the message back into the schedule. -/
theorem RepeatWaiting.again {uuid : MessageId}
    {due : Millis} {fired : Envelope} (h : RepeatWaiting type m group count s) (hs : Sane type s)
    (hcopy : RepeatCopy m group count e) (hperiodic : e.isPeriodic = true) (huuid : s.nextId < uuid)
    (hnext : e.nextScheduledTimestamp cfg.nextTick now = (due, fired)) (hpos : 0 < due)
    (hdelay : fired.state.effectiveScheduledDelay = 0)
    (hdb : s'.db = (publishScheduled [ScheduledArg.ofEnvelope cfg now uuid e] s.db).db) :
    RepeatWaiting type m group fired.state.scheduledRepeatCount s' ∧
      s'.db.pendingSize group = s.db.pendingSize group + 1 := by
  have hfits : (ScheduledArg.ofEnvelope cfg now uuid e).Fits type :=
    ScheduledArg.fits_ofEnvelope (by rw [hcopy.priority]; exact h.fits)
  rw [publishScheduled_singleton hs.type_eq h.state hfits] at hdb
  have hfired : fired.isPeriodic = true := by
    have hframe := @Envelope.nextScheduledTimestamp_frame cfg.nextTick now e
    rw [hnext] at hframe
    rw [Envelope.isPeriodic, hframe.1]
    exact hperiodic
  obtain ⟨child, hchild, hchildId⟩ : ∃ child,
      (ScheduledArg.ofEnvelope cfg now uuid e).next = some (due, child) ∧ child.id = uuid := by
    simp [ScheduledArg.ofEnvelope, hnext, hpos, hfired, PublishArgs.copy]
  have hblank := hs.blank uuid (hs.fresh uuid huuid.le)
  have hnew : child.id ∉ s.db.zsets (.priority e.consumerGroupId) := by
    rw [hchildId, Keyspace.mem_zset_iff, hblank.occ _ rfl]
    simp
  have hne : 0 ≠ child.id := by
    rw [hchildId]
    exact (Nat.zero_le _).trans_lt huuid |>.ne
  obtain ⟨hsize, hsched, hframe⟩ := scheduledMove_again hs.type_eq h.state hfits
    (show s.db.groupExists e.consumerGroupId = true by rw [hcopy.group_eq]; exact h.groupExists)
    hchild hnew
  rw [← hdb] at hsize hsched hframe
  obtain ⟨hash, hget, hrepeated⟩ := h.stored
  have hsettings : s'.db.settings = s.db.settings := hframe.settings
  have hid : (ScheduledArg.ofEnvelope cfg now uuid e).id = 0 := hcopy.id_eq
  refine ⟨⟨?_, ?_, h.fits, ?_, ?_, ?_⟩, ?_⟩
  · rw [Keyspace.operationalState_of_settings hsettings]
    exact h.state
  · rw [Keyspace.groupExists_of_settings hsettings]
    exact h.groupExists
  · refine ⟨(ScheduledArg.ofEnvelope cfg now uuid e).writeSchedule hash, ?_,
      hrepeated.id_eq, hrepeated.message, ?_, ?_⟩
    · rw [hframe.hash 0 hne, reschedule, hid, Keyspace.hgetall_hset_self, Keyspace.hgetall_zadd,
        hget]
      rfl
    · simp [ScheduledArg.writeSchedule, ScheduledArg.ofEnvelope, hnext]
    · simp [ScheduledArg.writeSchedule, ScheduledArg.ofEnvelope, hnext, hdelay]
  · intro id
    rw [hsched, SortedSet.mem_add, h.scheduled id, hid, or_self]
  · rw [Keyspace.mem_zset_iff, hframe.occ 0 hne _ rfl, reschedule, Keyspace.occ_hset,
      Keyspace.occ_zadd, if_neg (by simp), ← Keyspace.mem_zset_iff]
    exact h.undelivered
  · rw [← hcopy.group_eq]
    exact hsize

/-- The round in which the message is due for the last time. -/
theorem RepeatWaiting.last {uuid : MessageId}
    (h : RepeatWaiting type m group count s) (hs : Sane type s) (hcopy : RepeatCopy m group count e)
    (hnext : e.nextScheduledTimestamp cfg.nextTick now = (0, e))
    (hdb : s'.db = (publishScheduled [ScheduledArg.ofEnvelope cfg now uuid e] s.db).db) :
    (∀ id, id ∉ s'.db.zsets .scheduled) ∧
      s'.db.pendingSize group = s.db.pendingSize group + 1 := by
  have hfits : (ScheduledArg.ofEnvelope cfg now uuid e).Fits type :=
    ScheduledArg.fits_ofEnvelope (by rw [hcopy.priority]; exact h.fits)
  rw [publishScheduled_singleton hs.type_eq h.state hfits] at hdb
  have hnone : (ScheduledArg.ofEnvelope cfg now uuid e).next = none := by
    simp [ScheduledArg.ofEnvelope, hnext]
  have hid : (ScheduledArg.ofEnvelope cfg now uuid e).id = 0 := hcopy.id_eq
  have hgroup : (ScheduledArg.ofEnvelope cfg now uuid e).group = group := hcopy.group_eq
  obtain ⟨hsize, hsched⟩ := scheduledMove_last hfits (by rw [hgroup]; exact h.groupExists) hnone
    (by rw [hid]; exact (h.scheduled 0).2 rfl) (by rw [hid, hgroup]; exact h.undelivered)
  rw [← hdb] at hsize hsched
  constructor
  · intro id hmem
    rw [hsched, SortedSet.mem_rem, h.scheduled id, hid] at hmem
    exact hmem.2 hmem.1
  · rw [← hgroup]
    exact hsize

/-- A round keeps the progress of the loop. -/
theorem RepeatProgress.fire {wait : Nanos} (h : RepeatProgress type m group s) (hs : Sane type s)
    (hcron : m.scheduledCron = none) (hrepeat : 0 < m.scheduledRepeat)
    (hfire : s.fire 0 wait = some s') : RepeatProgress type m group s' := by
  obtain ⟨e, hdue, hload, _, _, hdb⟩ := System.fire_some hfire
  have hmem : 0 ∈ s.db.zsets .scheduled := SortedSet.mem_of_mem_upTo (List.mem_of_mem_take hdue)
  cases h with
  | finished hsched => exact absurd hmem (hsched 0)
  | @waiting count hwaiting hcount =>
    have hcopy := hwaiting.copy hload
    have hcron' : e.message.scheduledCron = none := hcopy.cron.trans hcron
    have hrepeat' : 0 < e.message.scheduledRepeat := by
      rw [hcopy.limit]
      exact hrepeat
    have hperiodic : e.isPeriodic = true := by simp [Envelope.isPeriodic, hrepeat']
    rcases @Envelope.nextScheduledTimestamp_cases e (s.now + wait) s.cfg.nextTick hcron' hrepeat'
      with ⟨hdelay, hnext⟩ | ⟨hdelay, hlt, due, hpos, hnext⟩ | ⟨hdelay, hnext⟩
    · obtain ⟨hwaiting', _⟩ := hwaiting.again hs hcopy hperiodic (Nat.lt_succ_self _) hnext
        (Nat.lt_of_lt_of_le hdelay (Nat.le_add_left _ _)) rfl hdb
      refine .waiting hwaiting' (.inl ?_)
      rw [← hcopy.delay]
      exact hdelay
    · obtain ⟨hwaiting', hsize⟩ := hwaiting.again hs hcopy hperiodic (Nat.lt_succ_self _) hnext
        hpos hdelay hdb
      refine .waiting hwaiting' (.inr ?_)
      rw [hcopy.delay] at hdelay
      rw [hcopy.count_eq, hcopy.limit] at hlt
      have hcount := hcount.resolve_left hdelay.not_gt
      have hfired : e.incrScheduledRepeatCount.state.scheduledRepeatCount = count + 1 :=
        congrArg Nat.succ hcopy.count_eq
      rw [hfired]
      omega
    · obtain ⟨hsched, hsize⟩ := hwaiting.last hs hcopy hnext hdb
      rw [hcopy.delay] at hdelay
      have hcount := hcount.resolve_left hdelay.not_gt
      refine .finished hsched ?_
      omega

/-- What the producer stores: the first delivery counts as a repeat if there is no delay. -/
theorem System.prepared_repeated (s : System) (group : Option GroupId)
    (hcron : m.scheduledCron = none) (hrepeat : 0 < m.scheduledRepeat) :
    (s.prepared m group).status = .pending ∨
      (s.prepared m group).status = .scheduled ∧
        (s.prepared m group).state.effectiveScheduledDelay = 0 ∧
        (0 < m.initialDelay ∨ (s.prepared m group).state.scheduledRepeatCount = 1) := by
  rcases @Envelope.nextScheduledTimestamp_cases
      { Envelope.new m s.nextId with consumerGroupId := group } s.now s.cfg.nextTick hcron hrepeat
    with ⟨hdelay, hnext⟩ | ⟨hdelay, _, due, hpos, hnext⟩ | ⟨_, hnext⟩
  · right
    have hpos := Nat.lt_of_lt_of_le hdelay (Nat.le_add_left _ (toMillis s.now))
    rw [System.prepared, Envelope.dispatch, hnext]
    dsimp only
    rw [if_pos hpos]
    exact ⟨rfl, rfl, .inl hdelay⟩
  · right
    rw [System.prepared, Envelope.dispatch, hnext]
    dsimp only
    rw [if_pos hpos]
    exact ⟨rfl, hdelay, .inr rfl⟩
  · left
    rw [System.prepared, Envelope.dispatch, hnext]
    rfl

/-- The message is stored in an empty queue, or refused. -/
private theorem RepeatProgress.published {groups : List GroupId} (hrepeat : 0 < m.scheduledRepeat)
    (hid : e.id = 0) (hgroup : e.consumerGroupId = group) (hmessage : e.message = m)
    (hprepared : e.status = .pending ∨ e.status = .scheduled ∧
      e.state.effectiveScheduledDelay = 0 ∧
      (0 < m.initialDelay ∨ e.state.scheduledRepeatCount = 1))
    (hdb : s.db = (publishMessage (PublishArgs.ofEnvelope e) (Keyspace.created type groups)).db) :
    RepeatProgress type m group s := by
  rcases @publishMessage_cases (PublishArgs.ofEnvelope e) (Keyspace.created type groups) with
    ⟨_, hrefused⟩ | ⟨_, type', container, db₁, htype, hfits, hexists, hplaced, hstored⟩
  · have hempty := hdb.trans hrefused
    apply RepeatProgress.finished
    · intro id
      rw [hempty]
      exact SortedSet.not_mem_empty id
    · rw [hempty]
      exact Nat.zero_le _
  · have hdb := hdb.trans hstored
    cases htype
    cases hplaced with
    | pending _ hdb₁ =>
      apply RepeatProgress.finished
      · intro id
        rw [hdb]
        change id ∉ db₁.zsets .scheduled
        rw [Keyspace.zsets_scheduled_enqueueNew hdb₁]
        exact SortedSet.not_mem_empty id
      · rw [hdb, pendingSize_storePublished, ← hgroup]
        exact (Keyspace.pendingSize_enqueueNew hdb₁ (SortedSet.not_mem_empty _)).trans_le hrepeat
    | @scheduled ts hnot hts =>
      obtain ⟨_, hdelay, hcount⟩ := hprepared.resolve_left hnot
      refine @RepeatProgress.waiting type m group s e.state.scheduledRepeatCount
        ⟨?_, ?_, ?_, ⟨Codec.publishedHash e, ?_, ?_⟩, ?_, ?_⟩ ?_
      · rw [hdb]
        rfl
      · rw [hdb, ← hgroup]
        exact hexists
      · rw [← hmessage]
        exact hfits
      · rw [hdb, storePublished, Keyspace.hgetall_hincrby, ← hid]
        exact Keyspace.hgetall_hset_self _ _ _
      · exact ⟨congrArg some hid, by rw [← hmessage, ← hgroup]; rfl, rfl, congrArg some hdelay⟩
      · intro id
        rw [hdb, ← hid]
        change id ∈ ((Keyspace.created type groups).zadd .scheduled ts e.id).zsets .scheduled ↔ _
        simp [Keyspace.zadd, Keyspace.setZset, Keyspace.created]
      · rw [hdb]
        change 0 ∉ ((Keyspace.created type groups).zadd .scheduled ts e.id).zsets (.priority group)
        simp [Keyspace.zadd, Keyspace.setZset, Keyspace.created]
      · rcases hcount with hcount | hcount
        · exact .inl hcount
        right
        have hsize : s.db.pendingSize group = 0 := by
          rw [hdb, pendingSize_storePublished]
          rfl
        rw [hcount, hsize]
        exact ⟨rfl, hrepeat⟩

/-- The loop starts with the production of the message. -/
theorem RepeatProgress.produced {groups : List GroupId}
    (hcron : m.scheduledCron = none) (hrepeat : 0 < m.scheduledRepeat)
    (hstep : (System.created cfg type groups now).step (.produce m group) = some s) :
    RepeatProgress type m group s := by
  cases Step.of_step hstep with
  | task _ hgo => cases hgo
  | produce _ hdb =>
    exact .published hrepeat (System.prepared_id _ m group) Envelope.dispatch_frame.2.1
      Envelope.dispatch_frame.1 (System.prepared_repeated _ group hcron hrepeat) hdb

end Loop

/-- The loop comes to an end with one initial delivery and as many repeats as the message
asks for, and the schedule is empty. -/
def RepeatsExactly (cfg : Config) (type : QueueType) (groups : List GroupId) (now : Nanos)
    (m : Producible) (group : Option GroupId) : Prop :=
  ∃ s waits s', (System.created cfg type groups now).step (.produce m group) = some s ∧
    Run.exec (System.fire 0) s waits = some s' ∧ (∀ id, id ∉ s'.db.zsets .scheduled) ∧
    s'.db.pendingSize group = m.scheduledRepeat + 1

/-- A message that is repeated twice without an initial delay. -/
def promptRepeat : Producible :=
  { promptMessage with scheduledRepeatPeriod := some 1000000, scheduledRepeat := 2 }

/-- The delayed message, of which three deliveries are asked for, is in the schedule after
four of them. The one without a delay is done after two. -/
theorem repeats_miss_count :
    ((System.created {} .fifo [] 1000000).step (.produce repeatedMessage none)).bind (fun s =>
        (Run.exec (System.fire 0) s [1000000, 1000000, 1000000, 1000000]).map fun s =>
          (decide (0 ∈ s.db.zsets .scheduled), s.db.pendingSize none)) = some (true, 4) ∧
      ((System.created {} .fifo [] 1000000).step (.produce promptRepeat none)).bind (fun s =>
        (Run.exec (System.fire 0) s [0, 1000000]).map fun s =>
          (decide (0 ∈ s.db.zsets .scheduled), s.db.pendingSize none)) = some (false, 2) := by
  constructor <;> decide +kernel

/-- No repeated message without a cron expression is delivered as often as it should be,
whatever its delay and its period are. -/
theorem not_repeatsExactly (cfg : Config) (type : QueueType) (groups : List GroupId)
    (now : Nanos) (m : Producible) (group : Option GroupId) (hcron : m.scheduledCron = none)
    (hrepeat : 1 ≤ m.scheduledRepeat) : ¬RepeatsExactly cfg type groups now m group := by
  rintro ⟨s, waits, s', hproduce, hloop, hempty, hsize⟩
  have hsane := (Sane.created cfg type groups now).step (Step.of_step hproduce)
  have h := Run.invariant (P := fun s => Sane type s ∧ RepeatProgress type m group s)
    (fun s wait s' ⟨hs, hprogress⟩ hfire =>
      ⟨hs.fire hfire, hprogress.fire hs hcron hrepeat hfire⟩)
    ⟨hsane, RepeatProgress.produced hcron hrepeat hproduce⟩ hloop
  cases h.2 with
  | waiting hwaiting => exact hempty 0 ((hwaiting.scheduled 0).2 rfl)
  | finished _ hle => omega

theorem not_repeatsExactly_repeatedMessage :
    ¬RepeatsExactly {} .fifo [] 1000000 repeatedMessage none :=
  not_repeatsExactly _ _ _ _ _ _ rfl (by decide)

end RedisSmq
