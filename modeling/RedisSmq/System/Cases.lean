import RedisSmq.Life.Scripts
import RedisSmq.System.Step

/-!
# What a step can do

`Step s a s'` lists, for each kind of step, the state it leads to and what must hold
for it to be taken. Invariants are proved by going through this list once. The many
steps by which a goroutine goes on from one task to the next, without a change to the
keyspace, are one kind: `Goes s a c old new events` says from which task the consumer
`c` goes on to which tasks.
-/

namespace RedisSmq

/-- The steps of a goroutine that leave the keyspace alone. -/
inductive Goes (s : System) : Action → ConsumerId → Task → Multiset Task → List Event → Prop
  | refused {c : ConsumerId} {id : MessageId} {group : Option GroupId} {r : Refusal}
      (hr : stateRefusal s.db.operationalState = some r) :
      Goes s (.checkout c id group) c (.popped id group)
        {.unacking (.minimal s.cfg.defaults s.now id group) none (causeOfRefusal r)} []
  | missed {c : ConsumerId} {id : MessageId} {group : Option GroupId}
      (hstate : stateRefusal s.db.operationalState = none)
      (hst : s.db.status id ≠ some .pending) :
      Goes s (.checkout c id group) c (.popped id group) 0 []
  | cancelledPopped {c : ConsumerId} {id : MessageId} {group : Option GroupId} :
      Goes s (.cancel c (.popped id group)) c (.popped id group) 0 []
  | cancelledUnack {c : ConsumerId} {e : Envelope} {cause : UnackCause} :
      Goes s (.cancel c (.unacking e none cause)) c (.unacking e none cause) 0 []
  | expired {c : ConsumerId} {e : Envelope} {k : Nat}
      (he : e.isExpiredTransferable s.now = true) :
      Goes s (.consume c e k) c (.received e k) {.unacking e (some k) .ttlExpired} []
  | handed {c : ConsumerId} {e : Envelope} {k : Nat}
      (he : e.isExpiredTransferable s.now = false) :
      Goes s (.consume c e k) c (.received e k) {.handling e k s.now false}
        [.handed c e.id s.now]
  | acked {c : ConsumerId} {e : Envelope} {k : Nat} {started : Nanos} :
      Goes s (.finish c e k started true) c (.handling e k started false)
        {.acking e.id k, .returning e k started} []
  | failed {c : ConsumerId} {e : Envelope} {k : Nat} {started : Nanos} :
      Goes s (.finish c e k started false) c (.handling e k started false)
        {.unacking e (some k) .unacknowledged, .returning e k started} []
  | timedOut {c : ConsumerId} {e : Envelope} {k : Nat} {started : Nanos}
      (ht : e.timesOut started s.now) :
      Goes s (.timeout c e k started) c (.handling e k started false)
        {.unacking e (some k) .timeout, .handling e k started true} []
  | finishedTimedOut {c : ConsumerId} {e : Envelope} {k : Nat} {started : Nanos} :
      Goes s (.finishTimedOut c e k started) c (.handling e k started true) 0 []
  | late {c : ConsumerId} {e : Envelope} {k : Nat} {started : Nanos}
      (ht : e.timesOut started s.now) :
      Goes s (.lateTimeout c e k started) c (.returning e k started)
        {.unacking e (some k) .timeout} []
  | returned {c : ConsumerId} {e : Envelope} {k : Nat} {started : Nanos} :
      Goes s (.returned c e k started) c (.returning e k started) 0 []
  | reloaded {c : ConsumerId} {id : MessageId} {k : Nat} {cause : UnackCause} {e : Envelope}
      (he : s.loadMessage id = some e) :
      Goes s (.reload c id k cause) c (.ackFailed id k cause) {.unacking e (some k) cause} []
  | lost {c : ConsumerId} {id : MessageId} {k : Nat} {cause : UnackCause}
      (he : s.loadMessage id = none) :
      Goes s (.reload c id k cause) c (.ackFailed id k cause) 0 []

/-- The envelope that the producer stores. -/
def System.prepared (s : System) (m : Producible) (group : Option GroupId) : Envelope :=
  ({ Envelope.new m s.nextId with consumerGroupId := group } : Envelope).dispatch
    s.cfg.nextTick s.now

theorem System.prepared_id (s : System) (m : Producible) (group : Option GroupId) :
    (s.prepared m group).id = s.nextId :=
  Envelope.dispatch_frame.2.2.1

/-- The task after a successful checkout: there is none if the hash does not decode. -/
def System.received (s : System) (id : MessageId) (h : MessageHash) : Multiset Task :=
  match Codec.decodeEnvelope s.cfg.defaults s.nextId s.now h with
  | none => 0
  | some e => {.received e (s.deliveries id + 1)}

/-- The kinds of steps. -/
inductive Step (s : System) : Action → System → Prop
  | task {a : Action} {c : ConsumerId} {old : Task} {new : Multiset Task} {events : List Event}
      {n : Nat} (hmem : (c, old) ∈ s.tasks) (hgo : Goes s a c old new events) :
      Step s a
        { s with
          tasks := s.proceed c old new, log := events ++ s.log, nextId := s.nextId + n }
  | crash {c : ConsumerId} :
      Step s (.crash c)
        { s with tasks := s.tasks.filter fun t => t.1 ≠ c, crashed := c :: s.crashed }
  | fetch {w : Worker} :
      Step s (.fetch w) { s with fetched := (s.due w).map (fun id => (w, id)) ++ s.fetched }
  | load {w : Worker} {id : MessageId}
      (hw : (w, id) ∈ s.fetched ∨ w = .deleter ∨ w = .copier) :
      Step s (.load w id)
        { s with
          nextId := s.nextId + 1
          loaded := (s.loadMessage id).toList.map (fun e => (w, e)) ++ s.loaded }
  | tick {t : Nanos} : Step s (.tick t) { s with now := s.now + t }
  | configure {cfg : Config} : Step s (.configure cfg) { s with cfg := cfg }
  | setState {newState : OperationalState} {expected : Option OperationalState}
      {lock : Option LockId} :
      Step s (.setState newState expected lock)
        { s with db := (setQueueState newState expected lock s.db).2 }
  | saveGroup {g : GroupId} :
      Step s (.saveGroup g) { s with db := { s.db with groups := g :: s.db.groups } }
  | deleteGroup {g : GroupId} {keys : Option GroupId} :
      Step s (.deleteGroup g keys) { s with db := (deleteConsumerGroup g keys s.db).2 }
  | expire {k : ListKey} (hk : (Slot.list k).holds = false) :
      Step s (.expire k) { s with db := s.db.setList k [] }
  | produce {m : Producible} {group : Option GroupId} {db' : Keyspace}
      (hm : m.createdAt ≤ s.now)
      (hdb : db' = (publishMessage (PublishArgs.ofEnvelope (s.prepared m group)) s.db).db) :
      Step s (.produce m group)
        { s with
          db := db'
          nextId := s.nextId + 1
          log := System.publishedCopies [PublishArgs.ofEnvelope (s.prepared m group)] db' ++
            ((if (db'.hgetall s.nextId).isSome then [.produced s.nextId m] else []) ++ s.log) }
  | pop {c : ConsumerId} {group : Option GroupId} {type : QueueType} {id : MessageId}
      {db' : Keyspace} (hc : c ∉ s.crashed) (htype : s.db.queueType? = some type)
      (hpop : pop type group c s.db = (some id, db')) :
      Step s (.pop c group) { s with db := db', tasks := (c, .popped id group) ::ₘ s.tasks }
  | checkout {c : ConsumerId} {id : MessageId} {group : Option GroupId} {h : MessageHash}
      {db' : Keyspace} (hmem : (c, Task.popped id group) ∈ s.tasks)
      (hstate : stateRefusal s.db.operationalState = none) (hget : s.db.hgetall id = some h)
      (hst : h.status = some .pending)
      (hdb : db' = ((s.db.hset id (checkoutWrite (toMillis s.now))).hincrby .processing 1).hincrby
        .pending (-1)) :
      Step s (.checkout c id group)
        { s with
          db := db'
          nextId := s.nextId + 1
          tasks := s.proceed c (.popped id group)
            (s.received id (checkoutWrite (toMillis s.now) h))
          log := .checkedOut c id (decide (id ∈ s.db.lists (.processing c))) :: s.log }
  | acknowledge {c : ConsumerId} {batch : List (MessageId × Nat)} {t : Nanos}
      {run : Outcome (Except Refusal (List (MessageId × Bool)))}
      (htasks : System.ackTasks c batch ≤ s.tasks) (ht : t ≤ s.now)
      (hrun : run = acknowledgeMessage s.cfg c (toMillis t) (batch.map Prod.fst) s.db) :
      Step s (.acknowledge c batch t)
        { s with
          db := run.db
          tasks := s.tasks - System.ackTasks c batch + System.ackAftermath c batch run.reply
          log := (s.effective Prod.fst c batch).map (fun b =>
            .settled c b.1 (some b.2) (s.delivery b.1) none) ++ s.log }
  | unacknowledge {c : ConsumerId} {batch : List (Envelope × Option Nat × UnackCause)} {t : Nanos}
      (htasks : System.unackTasks c batch ≤ s.tasks) (ht : t ≤ s.now) :
      Step s (.unacknowledge c batch t)
        { s with
          db := (s.unackBatch c batch t).1
          tasks := s.tasks - System.unackTasks c batch
          log := (s.unackBatch c batch t).2 ++ s.log }
  | reap {c : ConsumerId} {batch : List Envelope} {t : Nanos}
      (hload : s.hasLoaded (.reaper c) batch) (ht : t ≤ s.now) :
      Step s (.reap c batch t)
        { s with
          db := (s.unackBatch c (batch.map fun e => (e, none, .offlineConsumer)) t).1
          log := (s.unackBatch c (batch.map fun e => (e, none, .offlineConsumer)) t).2 ++ s.log }
  | requeueImmediate {batch : List Envelope} {t : Nanos}
      (hload : s.hasLoaded .requeuer batch) (ht : t ≤ s.now) :
      Step s (.requeueImmediate batch t)
        { s with
          db := (requeueImmediate (toMillis t) (batch.map (RequeueArg.ofEnvelope t)) s.db).db }
  | requeueDelayed {batch : List Envelope} {t : Nanos}
      (hload : s.hasLoaded .delayedRequeuer batch) (ht : t ≤ s.now) :
      Step s (.requeueDelayed batch t)
        { s with
          db := (requeueDelayed (toMillis t) (batch.map (RequeueArg.ofEnvelope t)) s.db).db }
  | publishScheduled {group : Option GroupId} {batch : List Envelope} {t : Nanos} {db' : Keyspace}
      (hload : s.hasLoaded .scheduler batch) (hgroup : ∀ e ∈ batch, e.consumerGroupId = group)
      (hnodup : (batch.map Envelope.id).Nodup) (ht : t ≤ s.now)
      (hdb : db' = (publishScheduled (s.scheduledArgs batch t) s.db).db) :
      Step s (.publishScheduled group batch t)
        { s with
          db := db'
          nextId := s.nextId + batch.length
          log := System.publishedCopies
            ((s.scheduledArgs batch t).filterMap fun a => a.next.map Prod.snd) db' ++ s.log }
  | delete {group : Option GroupId} {lock : Option LockId} {batch : List Envelope}
      {db' : Keyspace} (hload : s.hasLoaded .deleter batch)
      (hgroup : ∀ e ∈ batch, e.consumerGroupId = group)
      (hdb : db' = (deleteMessage group lock (batch.map Envelope.id) s.db).db) :
      Step s (.delete group lock batch)
        { s with
          db := db'
          log := ((batch.map Envelope.id).filter fun id =>
            (s.db.hgetall id).isSome && (db'.hgetall id).isNone).map Event.deleted ++ s.log }
  | requeueMessage {e : Envelope} {t : Nanos} {arg : RequeueCopyArg} {db' : Keyspace}
      (hload : s.hasLoaded .copier [e]) (hstatus : e.status.isRequeuable = true) (ht : t ≤ s.now)
      (harg : arg = RequeueCopyArg.ofEnvelope s.cfg t s.nextId e)
      (hdb : db' = (requeueMessage [arg] s.db).db) :
      Step s (.requeueMessage e t)
        { s with
          db := db'
          nextId := s.nextId + 1
          log := System.publishedCopies [arg.child] db' ++ s.log }

section Inversion

variable {s s' : System}

-- A step of a goroutine, given the state it leads to.
private theorem Step.of_goes {a : Action} {c : ConsumerId} {old : Task} {new : Multiset Task}
    {events : List Event} (n : Nat) (hmem : (c, old) ∈ s.tasks) (hgo : Goes s a c old new events)
    (hs' : s' = { s with
      tasks := s.proceed c old new, log := events ++ s.log, nextId := s.nextId + n }) :
    Step s a s' := by
  subst hs'
  exact .task hmem hgo

private theorem step_of_checkout {c : ConsumerId} {id : MessageId} {group : Option GroupId}
    (h : s.checkout c id group = some s') : Step s (.checkout c id group) s' := by
  unfold System.checkout at h
  split at h
  · rename_i hmem
    rcases checkoutMessage_cases (toMillis s.now) id s.db with
      ⟨hash, hstate, hget, hst, hout⟩ | ⟨_, hno, hwhy⟩
    · rw [hout] at h
      cases h
      exact .checkout hmem hstate hget hst rfl
    · split at h
      · rename_i r db' hout
        have hr : stateRefusal s.db.operationalState = some r := by
          unfold checkoutMessage at hout
          split at hout
          · rename_i r' hr'
            cases hout
            exact hr'
          · split at hout
            · cases hout
            · split at hout <;> cases hout
        cases h
        exact .of_goes 0 hmem (.refused hr) rfl
      all_goals
        first
        | rename_i hout
          have hstate : stateRefusal s.db.operationalState = none := by
            rw [Option.eq_none_iff_forall_ne_some]
            intro r hr
            simp [checkoutMessage, hr] at hout
          have hst : s.db.status id ≠ some .pending :=
            hwhy.resolve_left fun ⟨r, hr⟩ => by simp [hr] at hstate
          cases h
          exact .of_goes 0 hmem (.missed hstate hst) rfl
        | rename_i hash db' hout
          exact absurd (congrArg Prod.fst hout) (hno hash)
  · cases h

/-- Every step is of one of the kinds. -/
theorem Step.of_step {a : Action} (h : s.step a = some s') : Step s a s' := by
  cases a with
  | produce m group =>
    obtain ⟨hm, h⟩ := Option.ite_none_right_eq_some.1 h
    cases h
    exact .produce hm rfl
  | pop c group =>
    obtain ⟨hc, h⟩ := Option.ite_none_left_eq_some.1 h
    split at h
    · cases h
    rename_i type htype
    split at h
    · cases h
    rename_i id db' hpop
    cases h
    exact .pop hc htype hpop
  | checkout c id group => exact step_of_checkout h
  | cancel c task =>
    obtain ⟨hmem, h⟩ := Option.ite_none_right_eq_some.1 h
    cases task with
    | popped id group =>
      cases h
      exact .of_goes 0 hmem .cancelledPopped rfl
    | unacking e k cause =>
      cases k with
      | none =>
        cases h
        exact .of_goes 0 hmem .cancelledUnack rfl
      | some k => cases h
    | _ => cases h
  | consume c e k =>
    obtain ⟨hmem, h⟩ := Option.ite_none_right_eq_some.1 h
    split at h
    · rename_i he
      cases h
      exact .of_goes 0 hmem (.expired he) rfl
    · rename_i he
      cases h
      exact .of_goes 0 hmem (.handed (by simpa using he)) rfl
  | finish c e k started ok =>
    obtain ⟨hmem, h⟩ := Option.ite_none_right_eq_some.1 h
    cases ok with
    | true =>
      cases h
      exact .of_goes 0 hmem .acked rfl
    | false =>
      cases h
      exact .of_goes 0 hmem .failed rfl
  | timeout c e k started =>
    obtain ⟨⟨hmem, ht⟩, h⟩ := Option.ite_none_right_eq_some.1 h
    cases h
    exact .of_goes 0 hmem (.timedOut ht) rfl
  | finishTimedOut c e k started =>
    obtain ⟨hmem, h⟩ := Option.ite_none_right_eq_some.1 h
    cases h
    exact .of_goes 0 hmem .finishedTimedOut rfl
  | lateTimeout c e k started =>
    obtain ⟨⟨hmem, ht⟩, h⟩ := Option.ite_none_right_eq_some.1 h
    cases h
    exact .of_goes 0 hmem (.late ht) rfl
  | returned c e k started =>
    obtain ⟨hmem, h⟩ := Option.ite_none_right_eq_some.1 h
    cases h
    exact .of_goes 0 hmem .returned rfl
  | acknowledge c batch t =>
    obtain ⟨⟨htasks, ht⟩, h⟩ := Option.ite_none_right_eq_some.1 h
    cases h
    exact .acknowledge htasks ht rfl
  | reload c id k cause =>
    obtain ⟨hmem, h⟩ := Option.ite_none_right_eq_some.1 h
    cases h
    cases he : s.loadMessage id with
    | none => exact .of_goes 1 hmem (.lost he) rfl
    | some e => exact .of_goes 1 hmem (.reloaded he) rfl
  | unacknowledge c batch t =>
    obtain ⟨⟨htasks, ht⟩, h⟩ := Option.ite_none_right_eq_some.1 h
    cases h
    exact .unacknowledge htasks ht
  | crash c =>
    cases h
    exact .crash
  | fetch w =>
    cases h
    exact .fetch
  | load w id =>
    obtain ⟨hw, h⟩ := Option.ite_none_right_eq_some.1 h
    cases h
    exact .load hw
  | requeueImmediate batch t =>
    obtain ⟨⟨hload, ht⟩, h⟩ := Option.ite_none_right_eq_some.1 h
    cases h
    exact .requeueImmediate hload ht
  | requeueDelayed batch t =>
    obtain ⟨⟨hload, ht⟩, h⟩ := Option.ite_none_right_eq_some.1 h
    cases h
    exact .requeueDelayed hload ht
  | publishScheduled group batch t =>
    obtain ⟨⟨hload, hgroup, hnodup, ht⟩, h⟩ := Option.ite_none_right_eq_some.1 h
    cases h
    exact .publishScheduled hload hgroup hnodup ht rfl
  | reap c batch t =>
    obtain ⟨⟨hload, ht⟩, h⟩ := Option.ite_none_right_eq_some.1 h
    cases h
    exact .reap hload ht
  | delete group lock batch =>
    obtain ⟨⟨hload, hgroup⟩, h⟩ := Option.ite_none_right_eq_some.1 h
    cases h
    exact .delete hload hgroup rfl
  | requeueMessage e t =>
    obtain ⟨⟨hload, hstatus, ht⟩, h⟩ := Option.ite_none_right_eq_some.1 h
    cases h
    exact .requeueMessage hload hstatus ht rfl rfl
  | setState newState expected lock =>
    cases h
    exact .setState
  | saveGroup g =>
    cases h
    exact .saveGroup
  | deleteGroup g keys =>
    cases h
    exact .deleteGroup
  | expire k =>
    obtain ⟨hk, h⟩ := Option.ite_none_right_eq_some.1 h
    cases h
    exact .expire (by rcases hk with rfl | rfl <;> rfl)
  | tick t =>
    cases h
    exact .tick
  | configure cfg =>
    cases h
    exact .configure

end Inversion

end RedisSmq
