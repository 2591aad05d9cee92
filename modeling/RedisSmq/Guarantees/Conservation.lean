import RedisSmq.Counters.Scripts
import RedisSmq.System.Origin

/-!
# Conservation of the counters

Whatever happens to a queue, the number of its messages is the sum of its seven status
counters. Postings keep that sum whether or not they are honest, so the argument never
looks at where a message is: copies may be outdated, batches may name a message twice,
and `delete-message` may be aborted in the middle.
-/

namespace RedisSmq

variable {type : QueueType} {s s' : System} {a : Action}

theorem PublishArgs.coherent_prepared (s : System) (m : Producible) (group : Option GroupId) :
    (PublishArgs.ofEnvelope (s.prepared m group)).Coherent :=
  ⟨rfl, Envelope.dispatch_status⟩

theorem PublishArgs.coherent_requeued (cfg : Config) (t : Nanos) (uuid : MessageId)
    (e : Envelope) : (RequeueCopyArg.ofEnvelope cfg t uuid e).child.Coherent :=
  PublishArgs.coherent_copy _ _ _ _

/-- The copies of a batch of due messages are published as pending. -/
theorem coherent_scheduledArgs (hs : Sane type s) {batch : List Envelope} {t : Nanos}
    (hload : s.hasLoaded .scheduler batch) : ∀ a ∈ s.scheduledArgs batch t, ∀ nextAt child,
      a.next = some (nextAt, child) → child.Coherent := by
  intro a ha nextAt child hnext
  obtain ⟨_, e, publishedAt, parent, rfl⟩ := (scheduledArgs_copies hs hload).2.2 a ha _ _ hnext
  exact PublishArgs.coherent_copy ..

/-- Every step keeps the total. -/
theorem Step.balanced (hs : Sane type s) (h : Step s a s') (hdb : s.db.Balanced) :
    s'.db.Balanced := by
  cases h with
  | task | crash | fetch | load | tick | configure => exact hdb
  | setState => exact (setQueueState_books _ _ _ _).balanced hdb
  | saveGroup => exact (SameBooks.groups s.db _).balanced hdb
  | deleteGroup => exact (deleteConsumerGroup_books hs.type_eq _ _).balanced hdb
  | expire => exact (SameBooks.setList s.db _ _).balanced hdb
  | produce hm hdb' =>
    subst hdb'
    exact (publishMessage_posted (PublishArgs.coherent_prepared s _ _)).balanced hdb
  | pop hc htype hpop => exact (pop_books hpop).balanced hdb
  | checkout hmem hstate hget hst hdb' =>
    subst hdb'
    exact (checkout_posted _ hget hst).balanced hdb
  | acknowledge htasks ht hrun =>
    subst hrun
    exact acknowledgeMessage_balanced _ _ _ hdb
  | unacknowledge | reap => exact unacknowledgeMessage_balanced _ _ hdb
  | requeueImmediate hload =>
    exact requeueImmediate_balanced _ hs.type_eq (hs.requeueArgs_fit hload) hdb
  | requeueDelayed hload =>
    exact requeueDelayed_balanced _ hs.type_eq (hs.requeueArgs_fit hload) hdb
  | publishScheduled hload hgroup hnodup ht hdb' =>
    subst hdb'
    exact publishScheduled_balanced hs.type_eq (scheduledArgs_copies hs hload).1
      (coherent_scheduledArgs hs hload) hdb
  | delete hload hgroup hdb' =>
    subst hdb'
    exact deleteMessage_balanced _ _ _ hdb
  | @requeueMessage e t arg db' hload hstatus ht harg hdb' =>
    subst hdb'
    rw [requeueMessage_moves _ s.db (Keyspace.isSome_queue_of_queueType? hs.type_eq)]
    have hchild := PublishArgs.coherent_requeued s.cfg t s.nextId e
    rw [← harg] at hchild
    obtain ⟨mid, hmid, hend⟩ := @copyMove_posted s.db _ hchild
    exact hend.balanced (hmid.balanced hdb)

/-- A run from a created queue keeps what goes back to publications, and the total. -/
theorem balanced_of_runs {cfg : Config} {groups : List GroupId} {now : Nanos} {as : List Action}
    (hrun : (System.created cfg type groups now).Runs as s) : Sane type s ∧ s.db.Balanced :=
  Run.invariant (P := fun s => Sane type s ∧ s.db.Balanced)
    (fun _ _ _ ⟨hs, hdb⟩ hstep => ⟨hs.step (.of_step hstep), (Step.of_step hstep).balanced hs hdb⟩)
    ⟨.created cfg type groups now, Keyspace.balanced_created type groups⟩ hrun

/-- The number of messages of a queue is the sum of its status counters, in every state
that any run from a freshly created queue reaches. -/
theorem messages_eq_sum (cfg : Config) (type : QueueType) (groups : List GroupId) (now : Nanos)
    (as : List Action) (s : System) (hrun : (System.created cfg type groups now).Runs as s) :
    s.db.counter .messages = s.db.counter .scheduled + s.db.counter .pending +
      s.db.counter .processing + s.db.counter .acknowledged + s.db.counter .deadLettered +
      s.db.counter .delayed + s.db.counter .requeued := by
  have h := (balanced_of_runs hrun).2.imbalance
  unfold Keyspace.imbalance at h
  omega

/-- A message that was delivered and then stuck with a crashed consumer is still counted. -/
theorem messages_eq_sum_crashed :
    ∃ s, (System.created {} .fifo [] 0).Runs
        [.produce (Producible.new defaultConsumeOptions 0 0) none, .pop 7 none,
          .checkout 7 0 none, .crash 7] s ∧
      s.db.counter .messages = s.db.counter .scheduled + s.db.counter .pending +
        s.db.counter .processing + s.db.counter .acknowledged + s.db.counter .deadLettered +
        s.db.counter .delayed + s.db.counter .requeued := by
  have hsome : (Run.exec System.step (System.created {} .fifo [] 0)
      [.produce (Producible.new defaultConsumeOptions 0 0) none, .pop 7 none,
        .checkout 7 0 none, .crash 7]).isSome = true := by decide
  obtain ⟨s, hs⟩ := Option.isSome_iff_exists.1 hsome
  exact ⟨s, hs, messages_eq_sum _ _ _ _ _ s hs⟩

end RedisSmq
