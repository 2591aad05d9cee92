import RedisSmq.Data.Segments
import RedisSmq.Exchange.Store

/-!
# The names of the Redis keys

Every key that the library uses is built by one of the functions below from a fixed start,
the namespace and the name of a queue or an exchange, and fixed words. Some keys also hold
an identifier, which is a UUID, or a text that the user chooses freely: a routing key, a
topic pattern or the identifier of a consumer group. `KeyCall` is a call of one of these
functions with its arguments.
-/

namespace RedisSmq

/-- The lower-case hexadecimal digits. -/
def isHexDigit (c : Char) : Bool := c.isDigit || ('a' ≤ c && c ≤ 'f')

/-- The text form of a UUID. -/
def IsUuid (text : String) : Prop :=
  (text.toList.splitOn '-').map List.length = [8, 4, 4, 4, 12] ∧
    ∀ c ∈ text.toList, c = '-' ∨ isHexDigit c = true
  deriving Decidable

structure Uuid where
  text : String
  isUuid : IsUuid text
  deriving DecidableEq

/-- `keys.Namespace`. -/
structure NamespaceId where
  name : String
  validName : ValidKey name

instance decidableEqNamespaceId : DecidableEq NamespaceId := fun ns ns' =>
  decidable_of_iff (ns.name = ns'.name) <| by
    obtain ⟨name, _⟩ := ns
    obtain ⟨name', _⟩ := ns'
    simp only [NamespaceId.mk.injEq]

/-- The methods of `keys.Queue`. -/
inductive QueueBuilder where
  | properties
  | published
  | pending
  | priority
  | deadLetter
  | acknowledged
  | scheduled
  | delayed
  | requeued
  | consumers
  | consumerGroups
  | stateHistory
  | exchangeBindings
  | processingQueues
  | workersLock
  | rateLimit
  | pendingWithGroup (groupId : String)
  | priorityWithGroup (groupId : String)
  | consumerProcessing (consumerId : Uuid)
  | consumerGroupMembers (groupId : String)
  deriving DecidableEq

/-- The methods of `keys.Exchange`. -/
inductive ExchangeBuilder where
  | exchange
  | properties
  | routingKeys
  | routingKeyQueues (routingKey : String)
  | bindingPatterns
  | patternQueues (pattern : String)
  | fanoutQueues
  deriving DecidableEq

/-- The methods of `keys.Namespace`. -/
inductive NamespaceBuilder where
  | queues
  | exchanges
  deriving DecidableEq

/-- The methods of `keys.System`, of which the last two are about messages. -/
inductive SystemBuilder where
  | config
  | allQueues
  | allExchanges
  | allNamespaces
  | purgeJobs
  | pendingPurgeJobs
  | activePurgeJobs
  | jobWorker (jobId : Uuid)
  | workerHeartbeat (workerId : Uuid)
  | consumerQueues (consumerId : Uuid)
  | consumerHeartbeat (consumerId : Uuid)
  | message (messageId : Uuid)
  | messageAcknowledgementHistory (messageId : Uuid)
  deriving DecidableEq

/-- A call of a function that builds a key. -/
inductive KeyCall where
  | queue (q : QueueParams) (b : QueueBuilder)
  | exchange (x : ExchangeId) (b : ExchangeBuilder)
  | ofNamespace (ns : NamespaceId) (b : NamespaceBuilder)
  | system (b : SystemBuilder)
  deriving DecidableEq

/-- What follows the name of the queue. -/
def QueueBuilder.parts : QueueBuilder → List String
  | .properties => ["prop"]
  | .published => ["pub"]
  | .pending => ["pend"]
  | .priority => ["prio"]
  | .deadLetter => ["dl"]
  | .acknowledged => ["ack"]
  | .scheduled => ["sched"]
  | .delayed => ["dly"]
  | .requeued => ["req"]
  | .consumers => ["cons"]
  | .consumerGroups => ["cgp"]
  | .stateHistory => ["sh"]
  | .exchangeBindings => ["bind"]
  | .processingQueues => ["proc-q"]
  | .workersLock => ["wlock"]
  | .rateLimit => ["rate"]
  | .pendingWithGroup groupId => ["cgp", groupId, "pend"]
  | .priorityWithGroup groupId => ["cgp", groupId, "prio"]
  | .consumerProcessing consumerId => ["cons", consumerId.text, "proc"]
  | .consumerGroupMembers groupId => ["cgp", groupId, "cons"]

/-- What follows the name of the exchange. -/
def ExchangeBuilder.parts : ExchangeBuilder → List String
  | .exchange => []
  | .properties => ["prop"]
  | .routingKeys => ["rk"]
  | .routingKeyQueues routingKey => ["rk", routingKey, "q"]
  | .bindingPatterns => ["pat"]
  | .patternQueues pattern => ["pat", pattern, "q"]
  | .fanoutQueues => ["q"]

/-- What follows the namespace. -/
def NamespaceBuilder.parts : NamespaceBuilder → List String
  | .queues => ["q"]
  | .exchanges => ["exs"]

/-- What follows the word `main`. -/
def SystemBuilder.parts : SystemBuilder → List String
  | .config => ["cfg"]
  | .allQueues => ["q"]
  | .allExchanges => ["exs"]
  | .allNamespaces => ["ns"]
  | .purgeJobs => ["pg-jobs"]
  | .pendingPurgeJobs => ["pg-jobs", "pend"]
  | .activePurgeJobs => ["pg-jobs", "proc"]
  | .jobWorker jobId => ["jobs", jobId.text, "wrk"]
  | .workerHeartbeat workerId => ["wrk", workerId.text, "hb"]
  | .consumerQueues consumerId => ["cons", consumerId.text, "q"]
  | .consumerHeartbeat consumerId => ["cons", consumerId.text, "hb"]
  | .message messageId => ["msg", messageId.text]
  | .messageAcknowledgementHistory messageId => ["msg", messageId.text, "uh"]

/-- The arguments that the function hands to `Key`. -/
def KeyCall.parts : KeyCall → List String
  | .queue q b => ["ns", q.ns, "q", q.name] ++ b.parts
  | .exchange x b => ["ns", x.ns, "exs", x.name] ++ b.parts
  | .ofNamespace ns b => ["ns", ns.name] ++ b.parts
  | .system b => "main" :: b.parts

/-- `Key`. -/
def buildKey (parts : List String) : String := Segments.path ':' "redis-smq:10" parts

/-- The key that a call returns. -/
def KeyCall.key (c : KeyCall) : String := buildKey c.parts

end RedisSmq
