import RedisSmq.Admin.Managed
import RedisSmq.Control.Transition

/-!
# The keys of a queue, and its deletion

All keys of a queue are built from its namespace, its name and perhaps a consumer group or a
consumer. `Store.Delete` reads the consumers, the groups and the registered processing lists
and passes to the script the keys that it has computed from them; the script deletes these
keys and no others. Besides its keys a queue is an element of two registries, the set of all
queues and the set of the queues of its namespace.

To the queue that is managed this module adds the rest of what Redis has of it: the
registries, the list of the transitions and the lock of the background workers.
-/

namespace RedisSmq

/-- What a deletion that succeeds leaves. -/
theorem Managed.deleteQueue_eq_ok {k k' : Managed} {consumers : List ConsumerId}
    {groups : List GroupId} {processing : List ConsumerId} {locked : String} {lock : Option LockId}
    (h : k.deleteQueue consumers groups processing locked lock = (.ok, k')) :
    k' = k.withoutQueue groups processing := by
  unfold Managed.deleteQueue at h
  split at h
  · cases h
  split at h
  case h_1 reply hcheck =>
    -- the check of the lock never replies that all is well
    cases h
    unfold Keyspace.checkLock at hcheck
    split_ifs at hcheck <;> cases hcheck
  case h_2 =>
    split_ifs at h <;> cases h
    rfl

/-- The methods of `keys.Queue`. -/
inductive QueueKey where
  | properties
  | published
  | pending
  | priority
  | deadLetter
  | acknowledged
  | scheduled
  | delayed
  | requeued
  | consumers
  | consumerGroups
  | stateHistory
  | exchangeBindings
  | processingQueues
  | workersLock
  | rateLimit
  | pendingWithGroup (g : GroupId)
  | priorityWithGroup (g : GroupId)
  | consumerProcessing (c : ConsumerId)
  | consumerGroupMembers (g : GroupId)
  deriving DecidableEq, Repr

structure StoredQueue where
  queue : Managed
  transitions : List StateTransition
  workersLock : Option ConsumerId
  /-- The queue is in the set of all queues. -/
  inAllQueues : Bool
  /-- The queue is in the set of the queues of its namespace. -/
  inNamespace : Bool

namespace StoredQueue

variable (s : StoredQueue)

/-- Nothing is stored of the queue. -/
def absent (cfg : Config) (model : DeliveryModel) (now : Nanos) : StoredQueue where
  queue :=
    let k := Managed.created cfg .fifo model [] now
    k.setDb { k.db with queue := none }
  transitions := []
  workersLock := none
  inAllQueues := false
  inNamespace := false

/-- `EXISTS`: Redis has no empty hashes, lists or sets. -/
def hasKey : QueueKey → Bool
  | .properties => s.queue.db.queue.isSome
  | .published => !(s.queue.db.lists .published).isEmpty
  | .pending => !(s.queue.db.lists (.pending none)).isEmpty
  | .priority => !(s.queue.db.zsets (.priority none)).entries.isEmpty
  | .deadLetter => !(s.queue.db.lists .deadLetter).isEmpty
  | .acknowledged => !(s.queue.db.lists .acknowledged).isEmpty
  | .scheduled => !(s.queue.db.zsets .scheduled).entries.isEmpty
  | .delayed => !(s.queue.db.zsets .delayed).entries.isEmpty
  | .requeued => !(s.queue.db.lists .requeued).isEmpty
  | .consumers => !s.queue.consumers.isEmpty
  | .consumerGroups => !s.queue.db.groups.isEmpty
  | .stateHistory => !s.transitions.isEmpty
  | .exchangeBindings => decide (0 < s.queue.bindings)
  | .processingQueues => !s.queue.processing.isEmpty
  | .workersLock => s.workersLock.isSome
  | .rateLimit => s.queue.rateCounter.isSome
  | .pendingWithGroup g => !(s.queue.db.lists (.pending (some g))).isEmpty
  | .priorityWithGroup g => !(s.queue.db.zsets (.priority (some g))).entries.isEmpty
  | .consumerProcessing c => !(s.queue.db.lists (.processing c)).isEmpty
  | .consumerGroupMembers g => !(s.queue.members g).isEmpty

/-- The keys that `Store.Delete` passes to the script, in its order. -/
def keysToDelete (groups : List GroupId) (processing : List ConsumerId) : List QueueKey :=
  [.properties, .pending, .deadLetter, .processingQueues, .priority, .acknowledged, .consumers,
      .rateLimit, .scheduled, .delayed, .requeued, .published, .consumerGroups, .workersLock,
      .exchangeBindings, .stateHistory] ++
    groups.flatMap (fun g => [.pendingWithGroup g, .priorityWithGroup g]) ++
    processing.map .consumerProcessing

/-- `delete-queue` on everything that is stored of the queue. -/
def deleteQueue (consumers : List ConsumerId) (groups : List GroupId)
    (processing : List ConsumerId) : ManageReply × StoredQueue :=
  match s.queue.deleteQueue consumers groups processing
      (toString OperationalState.locked.int) none with
  | (.ok, queue) =>
      (.ok,
        { queue, transitions := [], workersLock := none
          inAllQueues := false, inNamespace := false })
  | (reply, queue) => (reply, { s with queue })

/-- `Store.Delete`, without steps of others between its commands. -/
def delete : ManageReply × StoredQueue :=
  s.deleteQueue s.queue.consumers s.queue.db.groups s.queue.processing

/-- `create-queue`. The flag tells whether the queue was created. -/
def createQueue (type : QueueType) (model : DeliveryModel) (limit : Option RateLimitParams)
    (now : Millis) : Bool × StoredQueue :=
  if s.inAllQueues then (false, s)
  else
    let props : QueueProps := { type := some type, state := some .active }
    (true,
      { s with
        queue :=
          { s.queue.setDb { s.queue.db with queue := some props } with
            deliveryModel := model, rateLimit := limit }
        transitions :=
          (newInitialTransition .active now :: s.transitions).take QueueRecord.maxHistorySize
        inAllQueues := true
        inNamespace := true })

end StoredQueue

inductive StoredAction where
  | create (type : QueueType) (model : DeliveryModel) (limit : Option RateLimitParams)
      (now : Millis)
  | managed (a : ManagedAction)
  /-- `set-queue-state` records a transition. -/
  | record (e : StateTransition)
  /-- The lock of the background workers is set, or gone. -/
  | lock (owner : Option ConsumerId)

namespace StoredQueue

variable (s : StoredQueue)

def step : StoredAction → Option StoredQueue
  | .create type model limit now => some (s.createQueue type model limit now).2
  | .managed (.deleteQueue consumers groups processing) =>
      some (s.deleteQueue consumers groups processing).2
  | .managed a => (s.queue.step a).map fun queue => { s with queue }
  | .record e => some { s with transitions := (e :: s.transitions).take QueueRecord.maxHistorySize }
  | .lock owner => some { s with workersLock := owner }

/-- The run leads from one state to the other. -/
def Runs (as : List StoredAction) (s' : StoredQueue) : Prop := Run.exec step s as = some s'

variable {s} {s' : StoredQueue} {consumers : List ConsumerId} {groups : List GroupId}
variable {processing : List ConsumerId}

theorem mem_keysToDelete {key : QueueKey} :
    key ∈ keysToDelete groups processing ↔
      match key with
      | .pendingWithGroup g | .priorityWithGroup g => g ∈ groups
      | .consumerProcessing c => c ∈ processing
      | .consumerGroupMembers _ => False
      | _ => True := by
  cases key <;> simp [keysToDelete]

/-- A deletion that succeeds has dropped the queue from the registries. -/
theorem deleteQueue_ok (h : s.deleteQueue consumers groups processing = (.ok, s')) :
    s' =
      { queue := s.queue.withoutQueue groups processing, transitions := [], workersLock := none
        inAllQueues := false, inNamespace := false } := by
  unfold deleteQueue at h
  split at h
  case h_1 queue hreply =>
    cases h
    rw [Managed.deleteQueue_eq_ok hreply]
  case h_2 reply queue hne hreply =>
    cases h
    exact absurd rfl hne

/-- The script deletes the keys that it is passed, and no others. -/
theorem deleteQueue_hasKey (h : s.deleteQueue consumers groups processing = (.ok, s'))
    (key : QueueKey) :
    s'.hasKey key = true ↔ s.hasKey key = true ∧ key ∉ keysToDelete groups processing := by
  rw [mem_keysToDelete, deleteQueue_ok h]
  cases key with
  | pendingWithGroup g | priorityWithGroup g =>
    by_cases hg : g ∈ groups <;>
      simp [hasKey, Managed.withoutQueue, Managed.setDb, Managed.db, SortedSet.empty, hg]
  | consumerProcessing c =>
    by_cases hc : c ∈ processing <;>
      simp [hasKey, Managed.withoutQueue, Managed.setDb, Managed.db, hc]
  | consumerGroupMembers g => simp [hasKey, Managed.withoutQueue, Managed.setDb]
  | properties | published | pending | priority | deadLetter | acknowledged | scheduled | delayed
  | requeued | consumers | consumerGroups | stateHistory | exchangeBindings | processingQueues
  | workersLock | rateLimit =>
    simp [hasKey, Managed.withoutQueue, Managed.setDb, Managed.db, SortedSet.empty]

end StoredQueue

end RedisSmq
