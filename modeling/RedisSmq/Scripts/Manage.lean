import RedisSmq.Scripts.Basic

/-!
# Deleting messages and managing the queue

`delete-message` removes messages of every status but processing. It takes the
identifier out of the container that the stored status names, deletes the hash
and updates the counters, message by message. The delayed container is a sorted
set, but the script sends it the list command `LREM`: Redis answers with a type
error, which aborts the script, unless the set is empty and its key does not
exist.
-/

namespace RedisSmq

structure DeleteStats where
  processed : Nat := 0
  success : Nat := 0
  notFound : Nat := 0
  inProcess : Nat := 0
  deriving DecidableEq, Repr

/-- `LREM` sent to the key of a sorted set. -/
def Keyspace.lremOnZset (db : Keyspace) (k : ZsetKey) : Except RedisError Keyspace :=
  if (db.zsets k).entries = [] then .ok db else .error .wrongType

/-- The part of `delete-message` that depends on the status: the identifier leaves
its container, and the counter to decrement is chosen. -/
def removeFromContainer (type : Option QueueType) (group : Option GroupId) (id : MessageId)
    (db : Keyspace) : Status → Except RedisError (Option Counter × Keyspace)
  | .acknowledged => .ok (some .acknowledged, db.lrem .acknowledged id)
  | .deadLettered => .ok (some .deadLettered, db.lrem .deadLetter id)
  | .scheduled => .ok (some .scheduled, db.zrem .scheduled id)
  | .unackDelaying => (db.lremOnZset .delayed).map fun db => (some .delayed, db)
  | .unackRequeuing => .ok (some .requeued, db.lrem .requeued id)
  | .pending =>
      .ok (some .pending,
        match type with
        | none => db
        | some .priority => db.zrem (.priority group) id
        | some .fifo | some .lifo => db.lrem (.pending group) id)
  | .new | .processing => .ok (none, db)

/-- The end of the loop body of `delete-message`. -/
def eraseMessage (id : MessageId) (counter : Option Counter) (db : Keyspace) : Keyspace :=
  let db := ((db.del id).lrem .published id).hincrby .messages (-1)
  match counter with
  | none => db
  | some c => db.hincrby c (-1)

/-- The loop of `delete-message`. -/
def deleteMessageLoop (type : Option QueueType) (group : Option GroupId) :
    List MessageId → DeleteStats → Keyspace → Outcome DeleteStats
  | [], stats, db => .done db stats
  | id :: ids, stats, db =>
      let stats := { stats with processed := stats.processed + 1 }
      match db.status id with
      | none =>
          deleteMessageLoop type group ids { stats with notFound := stats.notFound + 1 } db
      | some .processing =>
          deleteMessageLoop type group ids { stats with inProcess := stats.inProcess + 1 } db
      | some st =>
          match removeFromContainer type group id db st with
          | .error e => .abort db e
          | .ok (counter, db) =>
              deleteMessageLoop type group ids { stats with success := stats.success + 1 }
                (eraseMessage id counter db)

/-- `delete-message`. A stopped queue does not refuse it; a locked queue asks for
its lock identifier. -/
def deleteMessage (group : Option GroupId) (lock : Option LockId) (ids : List MessageId)
    (db : Keyspace) : Outcome (Except Refusal DeleteStats) :=
  if db.queue.isNone then .done db (.error .queueNotFound)
  else if db.operationalState = .locked ∧ lock = none then .done db (.error .queueLocked)
  else if db.operationalState = .locked ∧ db.lockMatches lock = false then
    .done db (.error .invalidLock)
  else
    match deleteMessageLoop db.queueType? group ids {} db with
    | ⟨db, .error e⟩ => .abort db e
    | ⟨db, .ok stats⟩ => .done db (.ok stats)

/-- `set-queue-state`, without the history of transitions. -/
def setQueueState (newState : OperationalState) (expected : Option OperationalState)
    (lock : Option LockId) (db : Keyspace) : Except Refusal Unit × Keyspace :=
  match db.queue with
  | none => (.error .queueNotFound, db)
  | some q =>
      let current := q.state.getD .active
      if expected.isSome ∧ expected ≠ some current then (.error .invalidStateTransition, db)
      else if newState = .locked then
        if lock.isNone then (.error .invalidLock, db)
        else (.ok (), { db with queue := some { q with state := some newState, lockId := lock } })
      else if current = .locked then
        if lock.isNone ∨ q.lockId ≠ lock then (.error .invalidLock, db)
        else (.ok (), { db with queue := some { q with state := some newState, lockId := none } })
      else (.ok (), { db with queue := some { q with state := some newState } })

/-- `delete-consumer-group` with the group whose pending keys the caller passes: its
own for a consumer that leaves, none for the group manager, which passes the keys of
the queue itself. The membership of the group is not modelled, so the check that it
has no consumers is left out and any attempt may pass it. -/
def deleteConsumerGroup (g : GroupId) (keys : Option GroupId) (db : Keyspace) :
    Except Refusal Unit × Keyspace :=
  match db.queueType? with
  | none => (.error .queueNotFound, db)
  | some type =>
      let empty :=
        match type with
        | .priority => decide ((db.zsets (.priority keys)).entries = [])
        | .fifo | .lifo => decide (db.lists (.pending keys) = [])
      if empty then
        (.ok (),
          { ((db.setList (.pending keys) []).setZset (.priority keys) SortedSet.empty) with
            groups := db.groups.filter (· ≠ g) })
      else (.error .consumerGroupNotEmpty, db)

end RedisSmq
