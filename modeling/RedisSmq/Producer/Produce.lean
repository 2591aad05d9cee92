import RedisSmq.Exchange.Calls
import RedisSmq.Moves.Publish

/-!
# Producing

`Produce` sends a message to a queue, or to all queues that an exchange matches. For a queue
with consumer groups it sends one message to each of the groups that the producer knows. Each
of them is published by a script of its own, one after the other, and the first one that is
refused ends the call.

Other clients act between any two operations of the call. The sets that Redis returns in no
particular order are lists here, and what the other clients do may reorder them.
-/

namespace RedisSmq

section Matching

def matchTopicTokens : List (List Char) → List (List Char) → Bool
  | r, [] => r.isEmpty
  | r, token :: p =>
      match r with
      | [] => (token :: p).all (· = ['#'])
      | t :: ts =>
          if token = ['#'] then
            (List.range ((t :: ts).length + 1)).any fun i => matchTopicTokens ((t :: ts).drop i) p
          else if token = ['*'] then matchTopicTokens ts p
          else if t ≠ token then false
          else matchTopicTokens ts p

def matchTopicPattern (routingKey pattern : String) : Bool :=
  matchTopicTokens (tokens routingKey) (tokens pattern)

example : matchTopicPattern "orders.eu.paid" "orders.#" = true := by decide
example : matchTopicPattern "orders.eu.paid" "orders.*" = false := by decide

end Matching

/-- A queue, and one of its consumer groups if it has any. -/
structure Target where
  queue : QueueParams
  group : Option GroupId
  deriving DecidableEq

/-- A run of the script `publish-message`: the keys of the queue before and after. -/
structure Delivery where
  target : Target
  id : MessageId
  before : Keyspace
  after : Keyspace

/-- The message was added to the messages of the queue. -/
def Delivery.Stores (d : Delivery) : Prop :=
  d.after.lists .published = d.before.lists .published ++ [d.id]
  deriving Decidable

/-- What is stored in Redis. -/
structure Broker where
  queues : QueueParams → Keyspace
  exchanges : ExchangeStore

/-- What a call depends on, besides its arguments; all of it may change with each operation. -/
structure Surroundings where
  /-- What other clients do before the operation. -/
  others : Nat → Broker → Broker
  now : Nat → Nanos
  /-- The groups that the producer knows. -/
  groups : Nat → QueueParams → List GroupId
  nextTick : NextTick

inductive ProduceError where
  | notRunning
  | exchangeRequired
  | routingKeyRequired
  | unsupportedType
  | exchange (e : ExchangeError)
  | noMatchingQueues
  | refused (r : Refusal)
  | script (e : RedisError)
  /-- `produce to consumer group`. -/
  | toGroup (group : GroupId) (e : ProduceError)
  /-- `produce to queue`. -/
  | toQueue (name : String) (e : ProduceError)
  deriving DecidableEq, Repr

/-- The state in the middle of a call. The call itself knows neither the targets nor the
deliveries: they record what it was to do and what it has done. -/
structure ProduceState where
  broker : Broker
  operations : Nat := 0
  nextId : MessageId
  targets : List Target := []
  deliveries : List Delivery := []

/-- Where a message is to go. -/
inductive Destination where
  | nowhere
  | queue (q : QueueParams)
  | exchange (p : ExchangeParams) (routingKey : String)

namespace ProduceState

variable (env : Surroundings)

/-- The keys of exchanges are read, after other clients have acted. -/
def read {α : Type} (f : ExchangeStore → α) (st : ProduceState) : α × ProduceState :=
  let broker := env.others st.operations st.broker
  (f broker.exchanges, { st with broker := broker, operations := st.operations + 1 })

/-- The envelope that is published for a target. -/
def prepared (m : Producible) (t : Target) (st : ProduceState) : Envelope :=
  ({ Envelope.new m st.nextId with consumerGroupId := t.group } : Envelope).dispatch env.nextTick
    (env.now st.operations)

def dispatch (m : Producible) (t : Target) (st : ProduceState) :
    Except ProduceError MessageId × ProduceState :=
  let broker := env.others st.operations st.broker
  let e := prepared env m t st
  let before := broker.queues t.queue
  let outcome := publishMessage (PublishArgs.ofEnvelope e) before
  let st :=
    { st with
      broker := { broker with queues := Function.update broker.queues t.queue outcome.db }
      operations := st.operations + 1
      nextId := st.nextId + 1
      deliveries := st.deliveries ++ [⟨t, e.id, before, outcome.db⟩] }
  match outcome.reply with
  | .ok (.ok ()) => (.ok e.id, st)
  | .ok (.error r) => (.error (.refused r), st)
  | .error err => (.error (.script err), st)

/-- The loop of `produceToQueue` over the groups. -/
def dispatchGroups (m : Producible) (q : QueueParams) :
    List GroupId → List MessageId → ProduceState →
      Except ProduceError (List MessageId) × ProduceState
  | [], ids, st => (.ok ids, st)
  | g :: gs, ids, st =>
      match dispatch env m ⟨q, some g⟩ st with
      | (.ok id, st) => dispatchGroups m q gs (ids ++ [id]) st
      | (.error e, st) => (.error (.toGroup g e), st)

def targetsOf (q : QueueParams) : List GroupId → List Target
  | [] => [⟨q, none⟩]
  | g :: gs => (g :: gs).map fun g => ⟨q, some g⟩

def produceToQueue (m : Producible) (q : QueueParams) (st : ProduceState) :
    Except ProduceError (List MessageId) × ProduceState :=
  let groups := env.groups st.operations q
  let st := { st with targets := st.targets ++ targetsOf q groups }
  match groups with
  | [] =>
      match dispatch env m ⟨q, none⟩ st with
      | (.ok id, st) => (.ok [id], st)
      | (.error e, st) => (.error e, st)
  | g :: gs => dispatchGroups env m q (g :: gs) [] st

/-- `ValidateType`, and what follows if it finds no error. -/
def validateType (p : ExchangeParams)
    (next : ProduceState → Except ProduceError (List QueueParams) × ProduceState)
    (st : ProduceState) : Except ProduceError (List QueueParams) × ProduceState :=
  let (e, st) := read env (·.typeError p) st
  match e with
  | some e => (.error (.exchange e), st)
  | none => next st

/-- The queues that were not seen yet, by namespace and name. -/
def addUnseen (queues : List QueueParams) (q : QueueParams) : List QueueParams :=
  if queues.any fun x => x.ns ++ ":" ++ x.name = q.ns ++ ":" ++ q.name then queues
  else queues ++ [q]

/-- The queues that are bound under any of the patterns. -/
def collectQueues (i : RouteIndex) :
    List String → List QueueParams → ProduceState → List QueueParams × ProduceState
  | [], queues, st => (queues, st)
  | r :: rs, queues, st =>
      let (bound, st) := read env (·.routeQueues (i, r)) st
      collectQueues i rs (bound.foldl addUnseen queues) st

/-- `MatchQueues` of the direct store, which validates the type twice. -/
def matchDirect (p : ExchangeParams) (routingKey : String) :
    ProduceState → Except ProduceError (List QueueParams) × ProduceState :=
  validateType env p <| validateType env p fun st =>
    let (queues, st) := read env (·.routeQueues (⟨.direct, p.id⟩, routingKey)) st
    (.ok queues, st)

/-- `MatchQueues` of the topic store. -/
def matchTopic (p : ExchangeParams) (routingKey : String) :
    ProduceState → Except ProduceError (List QueueParams) × ProduceState :=
  validateType env p fun st =>
    let (patterns, st) := read env (·.routes ⟨.topic, p.id⟩) st
    let (queues, st) :=
      collectQueues env ⟨.topic, p.id⟩ (patterns.filter (matchTopicPattern routingKey)) [] st
    (.ok queues, st)

/-- `MatchQueues` of the fanout store. -/
def matchFanout (p : ExchangeParams) :
    ProduceState → Except ProduceError (List QueueParams) × ProduceState :=
  validateType env p fun st =>
    let (queues, st) := read env (·.fanoutQueues p.id) st
    (.ok queues, st)

def matchExchangeQueues (p : ExchangeParams) (routingKey : String) (st : ProduceState) :
    Except ProduceError (List QueueParams) × ProduceState :=
  match p.type with
  | .direct =>
      if routingKey = "" then (.error .routingKeyRequired, st) else matchDirect env p routingKey st
  | .topic =>
      if routingKey = "" then (.error .routingKeyRequired, st) else matchTopic env p routingKey st
  | .fanout => matchFanout env p st
  | .unknown _ => (.error .unsupportedType, st)

/-- The loop of `produceToExchange`. -/
def produceToQueues (m : Producible) :
    List QueueParams → List MessageId → ProduceState →
      Except ProduceError (List MessageId) × ProduceState
  | [], ids, st => (.ok ids, st)
  | q :: qs, ids, st =>
      match produceToQueue env m q st with
      | (.ok queueIds, st) => produceToQueues m qs (ids ++ queueIds) st
      | (.error e, st) => (.error (.toQueue q.name e), st)

def produceToExchange (m : Producible) (p : ExchangeParams) (routingKey : String)
    (st : ProduceState) : Except ProduceError (List MessageId) × ProduceState :=
  match matchExchangeQueues env p routingKey st with
  | (.error e, st) => (.error e, st)
  | (.ok [], st) => (.error .noMatchingQueues, st)
  | (.ok (q :: qs), st) => produceToQueues env m (q :: qs) [] st

def produce (running : Bool) (m : Producible) (d : Destination) (st : ProduceState) :
    Except ProduceError (List MessageId) × ProduceState :=
  if running = false then (.error .notRunning, st)
  else
    match d with
    | .nowhere => (.error .exchangeRequired, st)
    | .queue q => produceToQueue env m q st
    | .exchange p routingKey => produceToExchange env m p routingKey st

end ProduceState

end RedisSmq
