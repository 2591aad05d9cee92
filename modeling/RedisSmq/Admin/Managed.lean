import RedisSmq.System.Uniform

/-!
# Managing a queue

Besides its messages, a queue has a rate limit, consumer groups with members, registered
consumers and bindings to exchanges, and it can be deleted. The scripts that change these
share a check of the lock: they compare the stored state with an argument that stands for
the locked state, and on a match ask for the lock identifier. The comparison is one of
texts. What is stored is the number of the state; what a caller passes is up to the caller.

The system of the messages is embedded: every step of it is a step here, except that
consumer groups are deleted by the script as a whole, with the checks that the system of
the messages leaves out. The model ends with the deletion of the queue.
-/

namespace RedisSmq

/-- `Int`, the number that is stored. -/
def OperationalState.int : OperationalState → Nat
  | .active => 0
  | .paused => 1
  | .stopped => 2
  | .locked => 3

def OperationalState.string : OperationalState → String
  | .active => "active"
  | .paused => "paused"
  | .stopped => "stopped"
  | .locked => "locked"

inductive DeliveryModel where
  | pointToPoint
  | pubSub
  deriving DecidableEq, Repr

/-- `RateLimitParams`, with what `Validate` checks. -/
structure RateLimitParams where
  limit : Nat
  interval : Millis
  limit_pos : 0 < limit
  interval_ge : 1000 ≤ interval
  deriving DecidableEq

/-- One message a second. -/
def oncePerSecond : RateLimitParams where
  limit := 1
  interval := 1000
  limit_pos := by decide
  interval_ge := by decide

/-- The replies of the scripts that manage a queue. -/
inductive ManageReply where
  | ok
  | queueNotFound
  | queueLocked
  | invalidLock
  | consumerGroupsNotSupported
  | consumerGroupHasActiveConsumers
  | consumerGroupNotEmpty
  | queueNotEmpty
  | queueHasBoundExchange
  | consumerSetMismatch
  | queueHasActiveConsumers
  | queueNotActive
  | processingQueueNotEmpty
  deriving DecidableEq, Repr

structure Managed where
  sys : System
  deliveryModel : DeliveryModel
  /-- The rate limit in the property hash; an empty text is none. -/
  rateLimit : Option RateLimitParams
  /-- The counter of the rate limit, until it expires. -/
  rateCounter : Option Int
  /-- The fields of the hash of the consumers. -/
  consumers : List ConsumerId
  /-- The consumers whose processing lists are registered. -/
  processing : List ConsumerId
  /-- The consumers of each group. -/
  members : GroupId → List ConsumerId
  heartbeats : List ConsumerId
  /-- The number of exchanges that the queue is bound to. -/
  bindings : Nat

/-- `HGET` of the field of the state: the text of its number. -/
def Keyspace.storedState (db : Keyspace) : Option String :=
  (db.queue.bind QueueProps.state).map fun state => toString state.int

/-- The check of the lock, with the text that stands for the locked state and the lock
identifier that the operation presents. -/
def Keyspace.checkLock (db : Keyspace) (locked : String) (lock : Option LockId) :
    Option ManageReply :=
  if db.storedState = some locked then
    if lock = none then some .queueLocked
    else if db.lockMatches lock = false then some .invalidLock
    else none
  else none

namespace Managed

/-- The queue has just been created. -/
def created (cfg : Config) (type : QueueType) (deliveryModel : DeliveryModel)
    (groups : List GroupId) (now : Nanos) : Managed where
  sys := System.created cfg type groups now
  deliveryModel := deliveryModel
  rateLimit := none
  rateCounter := none
  consumers := []
  processing := []
  members _ := []
  heartbeats := []
  bindings := 0

variable (k : Managed)

def db : Keyspace := k.sys.db

def setDb (db : Keyspace) : Managed := { k with sys := { k.sys with db := db } }

/-- `set-queue-rate-limit`. -/
def setRateLimit (limit : Option RateLimitParams) (locked : String) (lock : Option LockId) :
    ManageReply × Managed :=
  if k.db.queue.isNone then (.queueNotFound, k)
  else
    match k.db.checkLock locked lock with
    | some reply => (reply, k)
    | none => (.ok, { k with rateLimit := limit })

/-- `clear-queue-rate-limit`. -/
def clearRateLimit (locked : String) (lock : Option LockId) : ManageReply × Managed :=
  if k.db.queue.isNone then (.queueNotFound, k)
  else
    match k.db.checkLock locked lock with
    | some reply => (reply, k)
    | none => (.ok, { k with rateLimit := none, rateCounter := none })

/-- `check-queue-rate-limit`: whether the limit is exceeded. -/
def checkRateLimit (limit : RateLimitParams) : Bool × Managed :=
  let value :=
    match k.rateCounter with
    | none => (limit.limit : Int) - 1
    | some n => n - 1
  (k.rateCounter.isSome && decide (value < 0), { k with rateCounter := some value })

/-- `delete-consumer-group`, with the group whose pending keys the caller passes. -/
def deleteConsumerGroup (g : GroupId) (keys : Option GroupId) (locked : String)
    (lock : Option LockId) : ManageReply × Managed :=
  if k.db.queueType?.isNone then (.queueNotFound, k)
  else
    match k.db.checkLock locked lock with
    | some reply => (reply, k)
    | none =>
        if k.deliveryModel ≠ .pubSub then (.consumerGroupsNotSupported, k)
        else if k.members g ≠ [] then (.consumerGroupHasActiveConsumers, k)
        else
          match RedisSmq.deleteConsumerGroup g keys k.db with
          | (.error _, _) => (.consumerGroupNotEmpty, k)
          | (.ok (), db) => (.ok, { k.setDb db with members := Function.update k.members g [] })

/-- The keys that are left of a queue that was deleted with its groups and the processing
lists of its consumers, as far as the caller has read them. -/
def withoutQueue (groups : List GroupId) (processing : List ConsumerId) : Managed :=
  { k.setDb
      { k.db with
        queue := none
        lists := fun
          | .pending (some g) => if g ∈ groups then [] else k.db.lists (.pending (some g))
          | .processing c => if c ∈ processing then [] else k.db.lists (.processing c)
          | _ => []
        zsets := fun
          | .priority (some g) =>
              if g ∈ groups then SortedSet.empty else k.db.zsets (.priority (some g))
          | _ => SortedSet.empty
        groups := [] } with
    rateLimit := none
    rateCounter := none
    consumers := []
    processing := []
    bindings := 0 }

/-- `delete-queue`, with the consumers, the groups and the processing lists that the caller
has read. -/
def deleteQueue (consumers : List ConsumerId) (groups : List GroupId)
    (processing : List ConsumerId) (locked : String) (lock : Option LockId) :
    ManageReply × Managed :=
  if k.db.queue.isNone then (.queueNotFound, k)
  else
    match k.db.checkLock locked lock with
    | some reply => (reply, k)
    | none =>
        if k.db.counter .messages ≠ 0 then (.queueNotEmpty, k)
        else if 0 < k.bindings then (.queueHasBoundExchange, k)
        else if consumers.length ≠ k.consumers.length ∨ ¬ ∀ c ∈ consumers, c ∈ k.consumers then
          (.consumerSetMismatch, k)
        else if ∃ c ∈ consumers, c ∈ k.heartbeats then (.queueHasActiveConsumers, k)
        else (.ok, k.withoutQueue groups processing)

/-- `subscribe-consumer`. -/
def subscribe (c : ConsumerId) (group : Option GroupId) : ManageReply × Managed :=
  if k.db.queue.isNone then (.queueNotFound, k)
  else if k.db.operationalState ≠ .active then (.queueNotActive, k)
  else if c ∈ k.consumers then (.ok, k)
  else
    (.ok,
      { k with
        consumers := c :: k.consumers
        processing := c :: k.processing.filter (· ≠ c)
        members := group.elim k.members fun g =>
          Function.update k.members g (c :: (k.members g).filter (· ≠ c)) })

/-- `unsubscribe-consumer`. -/
def unsubscribe (c : ConsumerId) (group : Option GroupId) : ManageReply × Managed :=
  if k.db.queue.isNone then (.queueNotFound, k)
  else if k.db.lists (.processing c) ≠ [] then (.processingQueueNotEmpty, k)
  else
    (.ok,
      { k with
        consumers := k.consumers.filter (· ≠ c)
        processing := k.processing.filter (· ≠ c)
        members := group.elim k.members fun g =>
          Function.update k.members g ((k.members g).filter (· ≠ c)) })

end Managed

/-- Who deletes a consumer group: `ConsumerGroupStore.Delete` passes the pending keys of the
queue, and `DeleteEphemeralConsumerGroup` those of the group. -/
inductive GroupDeleter where
  | manager
  | consumer
  deriving DecidableEq, Repr

def GroupDeleter.keys (g : GroupId) : GroupDeleter → Option GroupId
  | .manager => none
  | .consumer => some g

inductive ManagedAction where
  /-- A step of the system of the messages. -/
  | queue (a : Action)
  /-- `Set` of the store of rate limits. -/
  | setRateLimit (limit : Option RateLimitParams)
  /-- `Clear` of the store of rate limits. -/
  | clearRateLimit
  /-- `Dequeue` checks the rate limit that it has loaded. -/
  | checkRateLimit (limit : RateLimitParams)
  /-- The counter of the rate limit expires. -/
  | expireRateCounter
  | deleteGroup (deleter : GroupDeleter) (g : GroupId)
  /-- `Delete` of the store of queues, with what it has read. -/
  | deleteQueue (consumers : List ConsumerId) (groups : List GroupId)
      (processing : List ConsumerId)
  | subscribe (c : ConsumerId) (group : Option GroupId)
  | unsubscribe (c : ConsumerId) (group : Option GroupId)
  | beat (c : ConsumerId)
  | lapse (c : ConsumerId)
  /-- Exchanges are bound or unbound. -/
  | bind (n : Nat)

/-- The action of the system of the messages that is replaced here. -/
def Action.isDeleteGroup : Action → Bool
  | .deleteGroup _ _ => true
  | _ => false

namespace Managed

variable (k : Managed)

/-- The state after an action. The callers of the scripts pass `StateLocked.String()`, but
for the deletion of the queue, where it is `StateLocked.Int()`; none presents a lock
identifier. -/
def step : ManagedAction → Option Managed
  | .queue a =>
      if k.db.queue.isSome ∧ a.isDeleteGroup = false then
        (k.sys.step a).map fun sys => { k with sys := sys }
      else none
  | .setRateLimit limit => some (k.setRateLimit limit OperationalState.locked.string none).2
  | .clearRateLimit => some (k.clearRateLimit OperationalState.locked.string none).2
  | .checkRateLimit limit => some (k.checkRateLimit limit).2
  | .expireRateCounter => some { k with rateCounter := none }
  | .deleteGroup deleter g =>
      some (k.deleteConsumerGroup g (deleter.keys g) OperationalState.locked.string none).2
  | .deleteQueue consumers groups processing =>
      some
        (k.deleteQueue consumers groups processing (toString OperationalState.locked.int) none).2
  | .subscribe c group => some (k.subscribe c group).2
  | .unsubscribe c group => some (k.unsubscribe c group).2
  | .beat c => some { k with heartbeats := c :: k.heartbeats }
  | .lapse c => some { k with heartbeats := k.heartbeats.filter (· ≠ c) }
  | .bind n => some { k with bindings := n }

/-- The run leads from one state to the other. -/
def Runs (as : List ManagedAction) (k' : Managed) : Prop := Run.exec step k as = some k'

end Managed

end RedisSmq
