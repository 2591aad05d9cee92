import Mathlib.Data.Multiset.Filter
import RedisSmq.Scripts.Publish
import RedisSmq.Scripts.Settle
import RedisSmq.Scripts.Requeue
import RedisSmq.Scripts.Manage

/-!
# The processes around a queue

A queue is used by producers, by consumers and by the background workers that
consumers run. Each of them calls scripts, and between two calls it remembers what
the first one told it: the identifier it popped, the decoded copy of the message it
hands to the handler, the copies it loaded for a batch. These memories are the state
of the system besides the keyspace. They may be outdated when they are used.

A task is what one goroutine of a consumer is doing with one message. A worker
remembers the identifiers it fetched and the copies it loaded; nothing is ever removed
from these pools, so a worker may act on any copy it ever loaded, as a slow or a
second worker would.

The log records what happened. It is not part of the program: no action reads it,
except that the tasks of a delivery carry its number, so that the settlement a task
asks for can be told from the settlements of other deliveries.
-/

namespace RedisSmq

/-- What a goroutine of a consumer is doing with a message. The number `k` counts the
deliveries of the message up to the one that the task belongs to. -/
inductive Task where
  /-- `Dequeue` has popped the identifier and not checked it out yet. -/
  | popped (id : MessageId) (group : Option GroupId)
  /-- `Dequeue` returned the message. -/
  | received (e : Envelope) (k : Nat)
  /-- `Consume` runs the handler; the flag is the one that the timer sets. -/
  | handling (e : Envelope) (k : Nat) (started : Nanos) (timedOut : Bool)
  /-- `Consume` has read the flag and found it unset, and has not returned yet. -/
  | returning (e : Envelope) (k : Nat) (started : Nanos)
  /-- The identifier is in the buffer of the batch acker or on its way. -/
  | acking (id : MessageId) (k : Nat)
  /-- The acknowledgement was rejected and `unacknowledgeFailed` is about to load the message. -/
  | ackFailed (id : MessageId) (k : Nat) (cause : UnackCause)
  /-- The message is in the buffer of the batch unacker or on its way. There is no
  delivery if the message was popped but not checked out. -/
  | unacking (e : Envelope) (k : Option Nat) (cause : UnackCause)
  deriving DecidableEq, Repr

namespace Task

def id : Task → MessageId
  | .popped id _ | .acking id _ | .ackFailed id _ _ => id
  | .received e _ | .handling e _ _ _ | .returning e _ _ | .unacking e _ _ => e.id

/-- The decoded copy of the message that a task of a delivery carries. -/
def copy? : Task → Option Envelope
  | .received e _ | .handling e _ _ _ | .returning e _ _ | .unacking e (some _) _ => some e
  | .popped _ _ | .acking _ _ | .ackFailed _ _ _ | .unacking _ none _ => none

/-- `Dequeue` is between its pop and its checkout. -/
def isPopped : Task → Bool
  | .popped _ _ => true
  | _ => false

end Task

/-- Those who load messages to build the arguments of a script. -/
inductive Worker where
  | requeuer
  | delayedRequeuer
  | scheduler
  | reaper (c : ConsumerId)
  | deleter
  | copier
  deriving DecidableEq, Repr

/-- What can be observed of a run. -/
inductive Event where
  /-- The application produced the message. -/
  | produced (id : MessageId) (m : Producible)
  /-- A message was stored, be it produced or a copy of another one. -/
  | published (id : MessageId) (p : Params)
  /-- A checkout succeeded; `held` tells whether the processing list had the identifier. -/
  | checkedOut (c : ConsumerId) (id : MessageId) (held : Bool)
  /-- The handler was called. -/
  | handed (c : ConsumerId) (id : MessageId) (time : Nanos)
  /-- A settlement took the message out of the processing list. `issuedFor` is the
  delivery for which it was asked, `during` the delivery that was going on. For an
  unacknowledgement there is also the instant at which it took effect, and whether the
  message is retried. -/
  | settled (c : ConsumerId) (id : MessageId) (issuedFor during : Option Nat)
      (unacked : Option (Nanos × Bool))
  /-- `delete-message` counted the message as a success. -/
  | deleted (id : MessageId)
  deriving DecidableEq, Repr

namespace Event

def id : Event → MessageId
  | .produced id _ | .published id _ | .checkedOut _ id _ | .handed _ id _ | .settled _ id _ _ _
  | .deleted id => id

def isCheckout (id : MessageId) : Event → Bool
  | .checkedOut _ id' _ => decide (id' = id)
  | _ => false

/-- The parameters under which the message was stored. -/
def origin? (id : MessageId) : Event → Option Params
  | .published id' p => if id' = id then some p else none
  | _ => none

end Event

structure System where
  cfg : Config
  db : Keyspace
  now : Nanos
  nextId : MessageId
  tasks : Multiset (ConsumerId × Task)
  crashed : List ConsumerId
  fetched : List (Worker × MessageId)
  loaded : List (Worker × Envelope)
  log : List Event

namespace System

/-- The system right after the queue was created. -/
def created (cfg : Config) (type : QueueType) (groups : List GroupId) (now : Nanos) : System where
  cfg := cfg
  db := Keyspace.created type groups
  now := now
  nextId := 0
  tasks := 0
  crashed := []
  fetched := []
  loaded := []
  log := []

/-- The number of successful checkouts of a message. -/
def deliveries (s : System) (id : MessageId) : Nat := s.log.countP (Event.isCheckout id)

/-- The parameters under which a message was first stored. -/
def origin (s : System) (id : MessageId) : Option Params := s.log.findSome? (Event.origin? id)

/-- The delivery that is going on. -/
def delivery (s : System) (id : MessageId) : Option Nat :=
  if s.db.status id = some .processing then some (s.deliveries id) else none

/-- What the worker reads first: the identifiers in its container. -/
def due (s : System) : Worker → List MessageId
  | .requeuer => (s.db.lists .requeued).take 100
  | .delayedRequeuer => ((s.db.zsets .delayed).upTo (toMillis s.now)).take 99
  | .scheduler => ((s.db.zsets .scheduled).upTo (toMillis s.now)).take 99
  | .reaper c => s.db.lists (.processing c)
  | .deleter | .copier => []

end System

end RedisSmq
