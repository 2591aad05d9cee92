import RedisSmq.Life.Scripts

/-!
# What the moves write to the books

The books of a queue are its counters and the hashes of its messages. Accounting
arguments look at nothing else, so for each move this module gives a keyspace with
the same books that is built from the old one by a single write to a hash and the
changes of counters that go with it.
-/

namespace RedisSmq

/-- The two keyspaces agree on counters and message hashes. -/
structure SameBooks (db db' : Keyspace) : Prop where
  counter : ∀ c, db'.counter c = db.counter c
  messages : db'.messages = db.messages

namespace SameBooks

variable {db db' db'' : Keyspace}

theorem refl (db : Keyspace) : SameBooks db db := ⟨fun _ => rfl, rfl⟩

theorem trans (h : SameBooks db db') (h' : SameBooks db' db'') : SameBooks db db'' :=
  ⟨fun c => (h'.counter c).trans (h.counter c), h'.messages.trans h.messages⟩

theorem setList (db : Keyspace) (k : ListKey) (l : List MessageId) :
    SameBooks db (db.setList k l) := ⟨fun _ => rfl, rfl⟩

theorem setZset (db : Keyspace) (z : ZsetKey) (s : SortedSet MessageId) :
    SameBooks db (db.setZset z s) := ⟨fun _ => rfl, rfl⟩

theorem groups (db : Keyspace) (groups : List GroupId) :
    SameBooks db { db with groups := groups } := ⟨fun _ => rfl, rfl⟩

theorem keepAudit (db : Keyspace) (k : ListKey) (audit : AuditQueue) (ids : List MessageId) :
    SameBooks db (db.keepAudit k audit ids) := by
  unfold Keyspace.keepAudit
  dsimp only
  split <;> exact ⟨fun _ => rfl, rfl⟩

theorem pushUnacked (cfg : Config) (a : UnackArg) (db : Keyspace) :
    SameBooks db (db.pushUnacked cfg a) := by
  unfold Keyspace.pushUnacked
  split
  · exact setList db _ _
  split
  · exact keepAudit db _ _ _
  · exact refl db

theorem recordUnack (cfg : Config) (a : UnackArg) (db : Keyspace) :
    SameBooks db (db.recordUnack cfg a) := by
  unfold Keyspace.recordUnack
  split <;> exact ⟨fun _ => rfl, rfl⟩

theorem enqueueNew {type : QueueType} {group : Option GroupId} {priority : Option Nat}
    {id : MessageId} (h : db.enqueueNew type group priority id = some db') : SameBooks db db' := by
  unfold Keyspace.enqueueNew at h
  cases type with
  | lifo =>
    cases h
    exact setList db _ _
  | fifo =>
    cases h
    exact setList db _ _
  | priority =>
    obtain ⟨p, _, rfl⟩ := Option.map_eq_some_iff.1 h
    exact setZset db _ _

theorem enqueueRetry {type : QueueType} {group : Option GroupId} {priority : Option Nat}
    {id : MessageId} (h : db.enqueueRetry type group priority id = some db') :
    SameBooks db db' := by
  unfold Keyspace.enqueueRetry at h
  cases type with
  | lifo =>
    cases h
    exact setList db _ _
  | fifo =>
    cases h
    exact setList db _ _
  | priority =>
    obtain ⟨p, _, rfl⟩ := Option.map_eq_some_iff.1 h
    exact setZset db _ _

section

variable (h : SameBooks db db')

include h

theorem hgetall (m : MessageId) : db'.hgetall m = db.hgetall m := by
  rw [Keyspace.hgetall, h.messages]
  rfl

theorem status (m : MessageId) : db'.status m = db.status m := by
  rw [Keyspace.status, h.hgetall]
  rfl

theorem statusCount (st : Status) : db'.statusCount st = db.statusCount st := by
  rw [Keyspace.statusCount, h.messages]
  rfl

theorem hset (id : MessageId) (f : MessageHash → MessageHash) :
    SameBooks (db.hset id f) (db'.hset id f) where
  counter := h.counter
  messages := by
    dsimp only [Keyspace.hset]
    rw [h.hgetall, h.messages]

theorem del (id : MessageId) : SameBooks (db.del id) (db'.del id) where
  counter := h.counter
  messages := by
    dsimp only [Keyspace.del]
    rw [h.messages]

theorem hincrby (c : Counter) (n : Int) : SameBooks (db.hincrby c n) (db'.hincrby c n) where
  counter c' := by
    rw [Keyspace.counter_hincrby, Keyspace.counter_hincrby, h.counter]
  messages := h.messages

theorem shift (a b : Counter) : SameBooks (db.shift a b) (db'.shift a b) :=
  (h.hincrby a (-1)).hincrby b 1

end

end SameBooks

section Settle

variable {cfg : Config} {c : ConsumerId} {now : Millis} {db : Keyspace}

theorem ackMove_books {id : MessageId} (h : id ∈ db.lists (.processing c)) :
    SameBooks ((db.hset id (acknowledgeWrite now)).shift .processing .acknowledged)
      (ackMove c now db id) := by
  rw [ackMove, if_pos h]
  exact ((SameBooks.setList db _ _).hset _ _).shift _ _

theorem unackMove_books {a : UnackArg} (h : a.id ∈ db.lists (.processing c)) :
    SameBooks
      ((db.hset a.id a.write).shift .processing (if a.retries then .requeued else .deadLettered))
      (unackMove cfg c db a) := by
  rw [unackMove, if_pos h, unacknowledgeOne]
  exact ((((SameBooks.setList db _ _).trans (SameBooks.pushUnacked cfg a _)).trans
    (SameBooks.recordUnack cfg a _)).hset _ _).shift _ _

theorem pop_books {type : QueueType} {group : Option GroupId} {id : MessageId} {db' : Keyspace}
    (h : pop type group c db = (some id, db')) : SameBooks db db' := by
  unfold pop at h
  cases type with
  | lifo | fifo | priority =>
    dsimp only at h
    split at h <;> cases h
    exact ⟨fun _ => rfl, rfl⟩

end Settle

section Requeue

variable {type : QueueType} {now : Millis} {db : Keyspace} {a : RequeueArg} {source : Counter}

/-- A retry goes to the pending messages or to the dead letters. -/
inductive Retried (now : Millis) (source : Counter) (a : RequeueArg) (db db' : Keyspace) : Prop
  | pending (h : SameBooks ((db.hset a.id (retriedWrite now)).shift source .pending) db')
  | dead (h : SameBooks ((db.hset a.id (deadLetteredWrite now)).shift source .deadLettered) db')

private theorem retryMove_books {db₀ : Keyspace} (hfit : PriorityFits type a.priority)
    (h : SameBooks db₀ db) : Retried now source a db₀ (retryMove type now source a db) := by
  unfold retryMove retryTaken
  by_cases hg : db.groupExists a.group = true
  · obtain ⟨db', hdb'⟩ := @Keyspace.enqueueRetry_isSome db type a.group a.priority a.id hfit
    simp only [hg, if_true, hdb', Option.map_some]
    exact .pending (((h.trans (SameBooks.enqueueRetry hdb')).hset _ _).shift _ _)
  · rw [if_neg hg]
    exact .dead (((h.trans (SameBooks.setList db _ _)).hset _ _).shift _ _)

/-- The books after a move of `requeue-immediate`. -/
theorem requeueMove_books (hfit : PriorityFits type a.priority) (h : a.id ∈ db.lists .requeued) :
    Retried now .requeued a db (requeueMove type now db a) ∨
      SameBooks ((db.hset a.id delayingWrite).shift .requeued
        .delayed) (requeueMove type now db a) := by
  rw [requeueMove, if_pos h]
  split
  · exact .inl (retryMove_books hfit (SameBooks.setList db _ _))
  · exact .inr (((((SameBooks.setList db _ _).hset _ _)).trans (SameBooks.setZset _ _ _)).shift _ _)

/-- The books after a move of `requeue-delayed`. -/
theorem delayedMove_books (hfit : PriorityFits type a.priority) (h : a.id ∈ db.zsets .delayed) :
    Retried now .delayed a db (delayedMove type now db a) := by
  rw [delayedMove, if_pos h]
  exact retryMove_books hfit (SameBooks.setZset db _ _)

end Requeue

section Publish

variable {type : QueueType} {db : Keyspace}

/-- The books after a message was published. -/
theorem publishMessage_books {a : PublishArgs} (h : (publishMessage a db).isOk = true) :
    SameBooks
      (((db.hincrby (if a.status = .pending then .pending else .scheduled) 1).hset a.id
        a.write).hincrby .messages 1)
      (publishMessage a db).db := by
  rcases @publishMessage_cases a db with ⟨hno, _⟩ | ⟨_, type, c, db', _, _, _, hp, hdb⟩
  · simp [hno] at h
  rw [hdb]
  cases hp with
  | pending hstatus hdb' =>
    rw [if_pos hstatus]
    exact ((((SameBooks.enqueueNew hdb').hincrby _ _).trans (SameBooks.setList _ _ _)).hset
      _ _).hincrby _ _
  | scheduled hstatus hts =>
    rw [if_neg hstatus]
    exact ((((SameBooks.setZset db _ _).hincrby _ _).trans (SameBooks.setList _ _ _)).hset
      _ _).hincrby _ _

variable {a : ScheduledArg}

/-- What the books show after a due message was taken out of the schedule. -/
inductive Fired (a : ScheduledArg) (db db' : Keyspace) : Prop
  | published (h : SameBooks ((db.hset a.id a.writePublished).shift .scheduled .pending) db')
  | dead (h : SameBooks ((db.hset a.id a.writeDeadLettered).shift .scheduled .deadLettered) db')

private theorem deadLetterTaken_books (a : ScheduledArg) (db : Keyspace) :
    Fired a db (deadLetterTaken a (takeScheduled a db)) :=
  .dead (((((SameBooks.setZset db _ _).hincrby .scheduled (-1)).trans
    (SameBooks.setList _ _ _)).hincrby .deadLettered 1).hset a.id a.writeDeadLettered)

/-- The books after a move of a message that is not scheduled again. -/
theorem scheduledMove_books_once (hfit : PriorityFits type a.priority)
    (h : a.id ∈ db.zsets .scheduled) (hnext : a.next = none) :
    Fired a db (scheduledMove type db a) := by
  unfold scheduledMove
  simp only [hnext, if_pos h]
  unfold publishTaken
  by_cases hg : (takeScheduled a db).groupExists a.group = true
  · obtain ⟨db', hdb'⟩ :=
      @Keyspace.enqueueNew_isSome (takeScheduled a db) type a.group a.priority a.id hfit
    simp only [hg, if_true, hdb', Option.map_some, Option.getD_some]
    exact .published (((((SameBooks.setZset db _ _).hincrby .scheduled (-1)).trans
      (SameBooks.enqueueNew hdb')).hincrby .pending 1).hset a.id a.writePublished)
  · rw [if_neg hg]
    exact deadLetterTaken_books a db

/-- The books after a move of a periodic message whose group is gone. -/
theorem scheduledMove_books_dead {next : Millis × PublishArgs}
    (h : a.id ∈ db.zsets .scheduled) (hnext : a.next = some next)
    (hg : db.groupExists a.group = false) : Fired a db (scheduledMove type db a) := by
  obtain ⟨nextAt, child⟩ := next
  unfold scheduledMove
  simp only [hnext, hg, if_pos h]
  exact deadLetterTaken_books a db

/-- The books of a periodic message that goes back into the schedule. -/
theorem reschedule_books (a : ScheduledArg) (nextAt : Millis) (db : Keyspace) :
    SameBooks (db.hset a.id a.writeSchedule) (reschedule a nextAt db) :=
  (SameBooks.setZset db _ _).hset _ _

end Publish

section Delete

variable {type : Option QueueType} {group : Option GroupId} {db : Keyspace} {id : MessageId}

private theorem removeFromContainer_books {st : Status} {counter : Option Counter}
    {db' : Keyspace} (h : removeFromContainer type group id db st = .ok (counter, db'))
    (hst : st ≠ .processing) : counter = counterOf st ∧ SameBooks db db' := by
  obtain ⟨hcounter, ⟨-, -, rfl⟩ | ⟨-, rfl⟩⟩ := removeFromContainer_cases h
  · exact ⟨hcounter hst, .refl _⟩
  refine ⟨hcounter hst, ?_⟩
  rcases st.home type group with _ | k | k
  exacts [.refl db, .setList db _ _, .setZset db _ _]

/-- A deletion erases the message and takes it off the count of its status, or does
nothing. -/
theorem deleteMove_books (type : Option QueueType) (group : Option GroupId) (db : Keyspace)
    (id : MessageId) (hnew : db.status id ≠ some .new) :
    deleteMove type group db id = db ∨
      ∃ st c, db.status id = some st ∧ counterOf st = some c ∧
        SameBooks (((db.del id).hincrby .messages (-1)).hincrby c (-1))
          (deleteMove type group db id) := by
  unfold deleteMove
  split
  · exact .inl rfl
  · exact .inl rfl
  rename_i st hproc hst
  split
  · exact .inl rfl
  rename_i counter db' hremove
  right
  have hst' : st ≠ .processing := hproc
  obtain ⟨hcounter, hbooks⟩ := removeFromContainer_books hremove hst'
  obtain ⟨c, hc⟩ : ∃ c, counterOf st = some c := by
    cases st with
    | new => exact absurd hst hnew
    | _ => exact ⟨_, rfl⟩
  refine ⟨st, c, hst, hc, ?_⟩
  rw [hcounter, hc]
  exact (((hbooks.del id).trans (SameBooks.setList _ _ _)).hincrby _ _).hincrby _ _

end Delete

theorem setQueueState_books (newState : OperationalState) (expected : Option OperationalState)
    (lock : Option LockId) (db : Keyspace) :
    SameBooks db (setQueueState newState expected lock db).2 := by
  rcases setQueueState_cases newState expected lock db with h | ⟨q, lockId, hq, h⟩
  · rw [h]
    exact .refl db
  · rw [h]
    exact ⟨fun c => by simp [Keyspace.counter, hq], rfl⟩

theorem deleteConsumerGroup_books {type : QueueType} (htype : db.queueType? = some type)
    (g : GroupId) (keys : Option GroupId) : SameBooks db (deleteConsumerGroup g keys db).2 := by
  rcases deleteConsumerGroup_cases htype g keys with h | ⟨_, h⟩
  · rw [h]
    exact .refl db
  · rw [h]
    exact ⟨fun _ => rfl, rfl⟩

end RedisSmq
