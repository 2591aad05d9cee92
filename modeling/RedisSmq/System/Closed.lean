import RedisSmq.System.Origin

/-!
# Steps on a stopped or locked queue

The scripts that publish, check out, settle and requeue messages ask for the state of the
queue, each in its own way, before they write anything. On a queue that is stopped or
locked none of them writes. What is left are the steps that do not ask, and the deletion
of messages, which a locked queue refuses without its lock identifier.
-/

namespace RedisSmq

/-- What a step can do to the keys of a queue that is stopped or locked. -/
inductive ClosedStep (db : Keyspace) : Action → Keyspace → Prop
  | same {a : Action} : ClosedStep db a db
  | pop {c : ConsumerId} {group : Option GroupId} {type : QueueType} {id : MessageId}
      {db' : Keyspace} (htype : db.queueType? = some type)
      (hpop : pop type group c db = (some id, db')) : ClosedStep db (.pop c group) db'
  | delete {group : Option GroupId} {lock : Option LockId} {batch : List Envelope}
      (hlock : db.operationalState = .locked → db.lockMatches lock = true) :
      ClosedStep db (.delete group lock batch)
        (deleteMessage group lock (batch.map Envelope.id) db).db
  | setState {newState : OperationalState} {expected : Option OperationalState}
      {lock : Option LockId} :
      ClosedStep db (.setState newState expected lock) (setQueueState newState expected lock db).2
  | saveGroup {g : GroupId} : ClosedStep db (.saveGroup g) { db with groups := g :: db.groups }
  | deleteGroup {g : GroupId} {keys : Option GroupId} :
      ClosedStep db (.deleteGroup g keys) (deleteConsumerGroup g keys db).2
  | expire {k : ListKey} (hk : (Slot.list k).holds = false) :
      ClosedStep db (.expire k) (db.setList k [])

section Refusals

variable {db : Keyspace} {r : Refusal}

theorem Keyspace.accepts_of_refusal (hstate : stateRefusal db.operationalState = some r) :
    db.accepts = false := by
  simp [Keyspace.accepts, hstate]

theorem publishMessage_closed {a : PublishArgs} (hlock : a.lock = none)
    (hstate : stateRefusal db.operationalState = some r) :
    (publishMessage a db).isOk = false ∧ (publishMessage a db).db = db := by
  have hmatch : db.lockMatches a.lock = false := by simp [Keyspace.lockMatches, hlock]
  unfold publishMessage
  cases db.queueType? with
  | none => exact ⟨rfl, rfl⟩
  | some type =>
    cases hop : db.operationalState with
    | stopped => exact ⟨rfl, rfl⟩
    | locked => simp [hmatch, Outcome.isOk, Outcome.done]
    | active | paused => simp [hop, stateRefusal] at hstate

theorem copyMove_closed {a : RequeueCopyArg} (hlock : a.child.lock = none)
    (hstate : stateRefusal db.operationalState = some r) : copyMove db a = db := by
  have hok := (publishMessage_closed hlock hstate).1
  unfold copyMove
  split
  · rw [if_neg (by simp [hok])]
  · rfl

/-- A locked queue refuses a deletion that does not present its lock identifier. -/
theorem deleteMessage_locked {group : Option GroupId} {lock : Option LockId}
    {ids : List MessageId} (hlocked : db.operationalState = .locked)
    (hlock : db.lockMatches lock = false) : (deleteMessage group lock ids db).db = db := by
  unfold deleteMessage
  split
  · rfl
  split
  · rfl
  · rw [if_pos ⟨hlocked, hlock⟩]
    rfl

end Refusals

theorem Step.closed {type : QueueType} {s s' : System} {a : Action} {r : Refusal}
    (h : Step s a s') (hs : Sane type s)
    (hstate : stateRefusal s.db.operationalState = some r) : ClosedStep s.db a s'.db := by
  have hsame : ∀ {db' : Keyspace} {a : Action}, db' = s.db → ClosedStep s.db a db' := by
    intro db' a heq
    exact heq.symm ▸ .same
  have hacc := Keyspace.accepts_of_refusal hstate
  cases h with
  | task | crash | fetch | load | tick | configure => exact .same
  | setState => exact .setState
  | saveGroup => exact .saveGroup
  | deleteGroup => exact .deleteGroup
  | expire hk => exact .expire hk
  | pop hc htype hpop => exact .pop htype hpop
  | produce hm hdb => exact hsame (hdb.trans (publishMessage_closed rfl hstate).2)
  | checkout hmem hnone => cases hnone.symm.trans hstate
  | acknowledge htasks ht hrun =>
    subst hrun
    exact hsame (acknowledgeMessage_refused _ _ _ hacc)
  | unacknowledge | reap => exact hsame (unacknowledgeMessage_refused _ _ _ _ hacc)
  | requeueImmediate => exact hsame (requeueImmediate_refused _ hstate)
  | requeueDelayed => exact hsame (requeueDelayed_refused _ hstate)
  | publishScheduled hload hgroup hnodup ht hdb =>
    exact hsame (hdb.trans (publishScheduled_refused hstate))
  | @delete group lock batch db' hload hgroup hdb =>
    subst hdb
    by_cases hlock : s.db.operationalState = .locked ∧ s.db.lockMatches lock = false
    · exact hsame (deleteMessage_locked hlock.1 hlock.2)
    · refine .delete fun hlocked => ?_
      simpa using not_and.1 hlock hlocked
  | requeueMessage hload hstatus ht harg hdb =>
    subst harg hdb
    rw [requeueMessage_moves _ s.db (Keyspace.isSome_queue_of_queueType? hs.type_eq)]
    exact hsame (copyMove_closed rfl hstate)

end RedisSmq
