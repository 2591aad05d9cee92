import RedisSmq.Message.Schedule
import RedisSmq.Store.Keyspace

/-!
# Replies of the Lua scripts and their common parts

Redis runs a script without interruption and without rollback. A script either
replies, possibly with one of its error strings, or is aborted by a failing
command; in both cases the writes made so far stay. An `Outcome` therefore always
has a keyspace.

`QUEUE_INVALID_STATE`, `UNKNOWN_QUEUE_TYPE` and the argument-count errors have no
counterpart: the stored state and type are enumerations here, and the arguments
of a script are structured values.
-/

namespace RedisSmq

/-- The error strings that scripts reply with. -/
inductive Refusal where
  | queueNotFound
  | queueStopped
  | queueLocked
  | invalidLock
  | consumerGroupNotFound
  | messagePriorityRequired
  | priorityQueuingNotEnabled
  | invalidStateTransition
  | consumerGroupNotEmpty
  deriving DecidableEq, Repr

/-- The errors of single commands, which abort a script. -/
inductive RedisError where
  | wrongType
  | notAFloat
  | tooManyResults
  deriving DecidableEq, Repr

/-- How a script ended, and the keyspace it left. -/
structure Outcome (α : Type) where
  db : Keyspace
  reply : Except RedisError α

namespace Outcome

variable {α : Type}

def done {α : Type} (db : Keyspace) (a : α) : Outcome α := ⟨db, .ok a⟩

def abort {α : Type} (db : Keyspace) (e : RedisError) : Outcome α := ⟨db, .error e⟩

@[simp] theorem done_db (db : Keyspace) (a : α) : (done db a).db = db := rfl

@[simp] theorem abort_db (db : Keyspace) (e : RedisError) : (abort db e : Outcome α).db = db := rfl

end Outcome

/-- The audit of settled messages: whether their identifiers are kept, and how
many. Zero means no bound. -/
structure AuditQueue where
  enabled : Bool := false
  queueSize : Nat := 0
  deriving DecidableEq, Repr

/-- What the scripts' callers read from the configuration, and the parameters of
the outside world: the cron library and the largest table that Lua unpacks. -/
structure Config where
  acknowledged : AuditQueue := {}
  deadLettered : AuditQueue := {}
  historyEnabled : Bool := false
  historySize : Nat := 0
  defaults : ConsumeOptions := defaultConsumeOptions
  nextTick : NextTick := fun _ _ => none
  unpackLimit : Nat := 7999

/-- The state check shared by the scripts that settle and requeue. -/
def stateRefusal : OperationalState → Option Refusal
  | .stopped => some .queueStopped
  | .locked => some .queueLocked
  | .active | .paused => none

/-- The queue exists and its state lets messages be settled and requeued. -/
def Keyspace.accepts (db : Keyspace) : Bool :=
  db.queue.isSome && (stateRefusal db.operationalState).isNone

/-- Whether an operation that presents `lock` may pass a locked queue. -/
def Keyspace.lockMatches (db : Keyspace) (lock : Option LockId) : Bool :=
  lock.isSome && decide (db.queue.bind QueueProps.lockId = lock)

/-- The queue is locked with the identifier. -/
def Keyspace.LockedWith (db : Keyspace) (lock : LockId) : Prop :=
  db.operationalState = .locked ∧ db.queue.bind QueueProps.lockId = some lock
  deriving Decidable

/-- `HINCRBY` guarded by a positive number of messages. -/
def Keyspace.hincrbyPos (db : Keyspace) (c : Counter) (sign : Int) (n : Nat) : Keyspace :=
  if 0 < n then db.hincrby c (sign * n) else db

/-- Put a message that was never delivered into its pending container. On a
priority queue a missing priority makes `ZADD` fail. -/
def Keyspace.enqueueNew (db : Keyspace) (type : QueueType) (group : Option GroupId)
    (priority : Option Nat) (id : MessageId) : Option Keyspace :=
  match type with
  | .fifo => some (db.lpush (.pending group) id)
  | .lifo => some (db.rpush (.pending group) id)
  | .priority => priority.map fun p => db.zadd (.priority group) p id

/-- Put a retried message back so that it is popped as soon as possible. -/
def Keyspace.enqueueRetry (db : Keyspace) (type : QueueType) (group : Option GroupId)
    (priority : Option Nat) (id : MessageId) : Option Keyspace :=
  match type with
  | .fifo | .lifo => some (db.rpush (.pending group) id)
  | .priority => priority.map fun p => db.zadd (.priority group) p id

end RedisSmq
