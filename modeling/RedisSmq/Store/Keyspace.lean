import RedisSmq.Data.Table
import RedisSmq.Data.SortedSet
import RedisSmq.Message.Unacknowledge

/-!
# The Redis keys of one queue

The keyspace of a queue consists of its property hash with the counters, the
hashes of its messages, its lists and sorted sets of message identifiers, the
unacknowledgement histories and the set of consumer groups. Each Redis command
that the scripts use is one function on keyspaces.

A key of Redis holds a list or a sorted set, never both, so the two kinds of key
are two types here. A command sent to a key of the wrong kind is an error that
the script using it states itself.
-/

namespace RedisSmq

inductive QueueType where
  | lifo
  | fifo
  | priority
  deriving DecidableEq, Repr

inductive OperationalState where
  | active
  | paused
  | stopped
  | locked
  deriving DecidableEq, Repr

/-- The counters in the property hash. -/
inductive Counter where
  | messages
  | scheduled
  | pending
  | processing
  | acknowledged
  | deadLettered
  | delayed
  | requeued
  deriving DecidableEq, Repr

/-- The property hash of the queue. `HINCRBY` reads a missing counter as zero, and
an empty lock identifier is no lock identifier. -/
structure QueueProps where
  type : Option QueueType := none
  state : Option OperationalState := none
  lockId : Option LockId := none
  count : Counter → Int := fun _ => 0

/-- Keys that hold lists of message identifiers. -/
inductive ListKey where
  | pending (group : Option GroupId)
  | processing (consumer : ConsumerId)
  | requeued
  | acknowledged
  | deadLetter
  | published
  deriving DecidableEq, Repr

/-- Keys that hold sorted sets of message identifiers. -/
inductive ZsetKey where
  | priority (group : Option GroupId)
  | delayed
  | scheduled
  deriving DecidableEq, Repr

structure Keyspace where
  queue : Option QueueProps
  messages : Table MessageId MessageHash
  history : MessageId → List HistoryRecord
  lists : ListKey → List MessageId
  zsets : ZsetKey → SortedSet MessageId
  groups : List GroupId

namespace Keyspace

/-- The keys right after `create-queue`. -/
def created (type : QueueType) (groups : List GroupId) : Keyspace where
  queue := some { type := some type, state := some .active }
  messages := ∅
  history := fun _ => []
  lists := fun _ => []
  zsets := fun _ => SortedSet.empty
  groups := groups

/-- `HINCRBY` on the property hash. -/
def hincrby (db : Keyspace) (c : Counter) (n : Int) : Keyspace :=
  let q := db.queue.getD {}
  { db with queue := some { q with count := Function.update q.count c (q.count c + n) } }

/-- The value of a counter. -/
def counter (db : Keyspace) (c : Counter) : Int := (db.queue.getD {}).count c

/-- `HGETALL` on a message. -/
def hgetall (db : Keyspace) (id : MessageId) : Option MessageHash := db.messages.lookup id

/-- `HGET` of the field `status`. -/
def status (db : Keyspace) (id : MessageId) : Option Status :=
  (db.hgetall id).bind MessageHash.status

/-- `HSET` and `HINCRBY` on a message hash, which is created if it does not exist. -/
def hset (db : Keyspace) (id : MessageId) (write : MessageHash → MessageHash) : Keyspace :=
  { db with messages := db.messages.insert id (write ((db.hgetall id).getD {})) }

/-- `DEL` of a message hash and its history. -/
def del (db : Keyspace) (id : MessageId) : Keyspace :=
  { db with
    messages := db.messages.erase id
    history := Function.update db.history id [] }

def setList (db : Keyspace) (k : ListKey) (l : List MessageId) : Keyspace :=
  { db with lists := Function.update db.lists k l }

def setZset (db : Keyspace) (k : ZsetKey) (z : SortedSet MessageId) : Keyspace :=
  { db with zsets := Function.update db.zsets k z }

def lpush (db : Keyspace) (k : ListKey) (id : MessageId) : Keyspace :=
  db.setList k (id :: db.lists k)

def rpush (db : Keyspace) (k : ListKey) (id : MessageId) : Keyspace :=
  db.setList k (db.lists k ++ [id])

/-- `LREM k 1 id`: removes the first occurrence. Redis replies with the number of
removed elements, which is one exactly when `id` occurs in the list. -/
def lrem (db : Keyspace) (k : ListKey) (id : MessageId) : Keyspace :=
  db.setList k ((db.lists k).erase id)

/-- `LTRIM k -size -1`: keeps the last `size` elements. -/
def ltrimLast (db : Keyspace) (k : ListKey) (size : Nat) : Keyspace :=
  db.setList k ((db.lists k).drop ((db.lists k).length - size))

def zadd (db : Keyspace) (k : ZsetKey) (score : Nat) (id : MessageId) : Keyspace :=
  db.setZset k ((db.zsets k).add score id)

/-- `ZREM`. Redis replies one exactly when `id` is a member. -/
def zrem (db : Keyspace) (k : ZsetKey) (id : MessageId) : Keyspace :=
  db.setZset k ((db.zsets k).rem id)

/-- `LPUSH` on a message's history, trimmed to `maxSize` records if that is positive. -/
def pushHistory (db : Keyspace) (id : MessageId) (maxSize : Nat) (r : HistoryRecord) : Keyspace :=
  let records := r :: db.history id
  let kept := if 0 < maxSize then records.take maxSize else records
  { db with history := Function.update db.history id kept }

/-- `SISMEMBER` as the scripts use it: a message without a group always passes. -/
def groupExists (db : Keyspace) : Option GroupId → Bool
  | none => true
  | some g => decide (g ∈ db.groups)

/-- The stored state; a missing field reads as active. -/
def operationalState (db : Keyspace) : OperationalState :=
  (db.queue.bind QueueProps.state).getD .active

def queueType? (db : Keyspace) : Option QueueType := db.queue.bind QueueProps.type

end Keyspace

end RedisSmq
