import RedisSmq.Exchange.Store

/-!
# Calls of the stores of exchanges

Creating, binding, unbinding and deleting are transactions: each watches some keys, reads,
and then writes in one go, and is tried again if a watched key has changed. What is read
through the validator or through `ValidateType` is read by another connection, within the
transaction all the same. The routing keys of an exchange that is to be deleted are read
before anything is watched.

`Store.Delete`, which the exchange manager uses for exchanges of every type, makes its
checks and then sends a pipeline of single commands, without a transaction.

The stores for direct and for topic exchanges differ in the names of their keys; a topic
store also checks the pattern, and a direct store validates the type before it reads the
routing keys for a deletion.
-/

namespace RedisSmq

inductive ExchangeError where
  | namespaceMismatch
  | invalidPattern
  | queueNotFound
  | notFound
  | typeMismatch
  | policyViolation
  | queueAlreadyBound
  | queueNotBound
  | hasBoundQueues
  | alreadyExists
  | exhausted
  deriving DecidableEq, Repr

inductive ExchangeResult where
  | ok
  | error (e : ExchangeError)
  deriving DecidableEq, Repr

/-- The store that is called. -/
inductive StoreKind where
  | route (kind : RouteKind)
  | fanout
  deriving DecidableEq, Repr

def StoreKind.type : StoreKind → ExchangeType
  | .route kind => kind.type
  | .fanout => .fanout

/-- The order in which `SMEMBERS` returns the members of a set. -/
structure SetOrder where
  arrange : List String → List String
  perm : ∀ l, (arrange l).Perm l

/-- The members in the order in which they were added. -/
def SetOrder.asAdded : SetOrder := ⟨id, fun _ => .refl _⟩

abbrev ExchangeAttempt := Optimistic.Attempt ExchangeStore ExchangeWrite ExchangeResult

abbrev ExchangeProgram :=
  Optimistic.Program ExchangeStore ExchangeKey ExchangeWrite ExchangeResult

section Patterns

/-- The rest of a literal token, after a letter or a digit. -/
def isLiteralRest : List Char → Bool
  | [] => true
  | [c] => c.isAlphanum
  | c :: d :: cs =>
      if c.isAlphanum then isLiteralRest (d :: cs)
      else (c = '-' || c = '_') && d.isAlphanum && isLiteralRest cs

/-- `literalTokenRE`. -/
def isLiteralToken : List Char → Bool
  | [] => false
  | c :: cs => c.isAlpha && isLiteralRest cs

/-- `strings.Split` at the dots. -/
def tokens (key : String) : List (List Char) := key.toList.splitOn '.'

def validateTopicPattern (pattern : String) : Bool :=
  (tokens pattern).all fun token => token = ['*'] || token = ['#'] || isLiteralToken token

example : validateTopicPattern "orders.*.created-at" = true := by decide
example : validateTopicPattern "orders..created" = false := by decide

end Patterns

/-- The type in the hash of properties. -/
def ExchangeStore.typeOf (s : ExchangeStore) (e : ExchangeId) : Option ExchangeType :=
  (s.props e).bind ExchangeHash.type

/-- `ValidateType`, where the exchange is required to exist. -/
def ExchangeStore.typeError (s : ExchangeStore) (p : ExchangeParams) : Option ExchangeError :=
  match s.typeOf p.id with
  | none => some .notFound
  | some type => if type = p.type then none else some .typeMismatch

section Transactions

def validateType (p : ExchangeParams) (next : ExchangeAttempt) : ExchangeAttempt :=
  .read fun s =>
    match s.typeError p with
    | some e => .fail (.error e)
    | none => next

/-- `ValidateQueueBinding`, which goes on with the type of the queue. -/
def validateQueueBinding (p : ExchangeParams) (q : QueueParams)
    (next : QueueType → ExchangeAttempt) : ExchangeAttempt :=
  .read fun s =>
    match s.queues q with
    | none => .fail (.error .queueNotFound)
    | some type =>
        .read fun s =>
          match s.props p.id with
          | none => next type
          | some h =>
              if h.decodedType ≠ p.type then .fail (.error .typeMismatch)
              else if h.decodedPolicy.allows type = false then .fail (.error .policyViolation)
              else next type

def withTransaction (tries : Nat) (keys : List ExchangeKey) (attempt : ExchangeAttempt) :
    ExchangeProgram :=
  .transaction tries
    { keys := keys, attempt := attempt, ok := .ok, exhausted := .error .exhausted }

/-- `Save`. -/
def saveExchange (p : ExchangeParams) (policy : ExchangePolicy) : ExchangeProgram :=
  withTransaction 3 [.props p.id, .allExchanges, .nsExchanges p.id.ns]
    (.read fun s =>
      if (s.typeOf p.id).isSome then .fail (.error .alreadyExists) else .exec (.save p policy))

/-- `Create` of a store. -/
def createExchange (store : StoreKind) (p : ExchangeParams) (policy : ExchangePolicy) :
    ExchangeProgram :=
  if p.type ≠ store.type then .done (.error .typeMismatch) else saveExchange p policy

/-- `BindQueue` of the direct and of the topic store. -/
def bindQueue (kind : RouteKind) (q : QueueParams) (p : ExchangeParams) (r : String) :
    ExchangeProgram :=
  let i : RouteIndex := ⟨kind, p.id⟩
  if q.ns ≠ p.id.ns then .done (.error .namespaceMismatch)
  else if kind = .topic ∧ validateTopicPattern r = false then .done (.error .invalidPattern)
  else
    withTransaction 5
      [.props p.id, .routes i, .routeQueues i r, .bindings q, .allExchanges,
        .nsExchanges p.id.ns]
      (validateQueueBinding p q fun type =>
        .read fun s =>
          if q ∈ s.routeQueues (i, r) then .fail (.error .queueAlreadyBound)
          else .exec (.bind kind p q r type))

/-- `BindQueue` of the fanout store. -/
def bindFanoutQueue (q : QueueParams) (p : ExchangeParams) : ExchangeProgram :=
  if q.ns ≠ p.id.ns then .done (.error .namespaceMismatch)
  else
    withTransaction 5
      [.props p.id, .fanoutQueues p.id, .bindings q, .allExchanges, .nsExchanges p.id.ns]
      (validateQueueBinding p q fun type =>
        .read fun s =>
          if q ∈ s.fanoutQueues p.id then .fail (.error .queueAlreadyBound)
          else .exec (.bindFanout p q type))

/-- Whether the queue is bound under one of the routing keys, looked up one by one. -/
def stillBound (i : RouteIndex) (q : QueueParams) (next : Bool → ExchangeAttempt) :
    List String → ExchangeAttempt
  | [] => next false
  | r :: rs => .read fun s => if q ∈ s.routeQueues (i, r) then next true else stillBound i q next rs

/-- `UnbindQueue` of the direct and of the topic store. -/
def unbindQueue (kind : RouteKind) (q : QueueParams) (p : ExchangeParams) (r : String)
    (order : SetOrder) : ExchangeProgram :=
  let i : RouteIndex := ⟨kind, p.id⟩
  if q.ns ≠ p.id.ns then .done (.error .namespaceMismatch)
  else if kind = .topic ∧ validateTopicPattern r = false then .done (.error .invalidPattern)
  else
    withTransaction 5 [.routes i, .routeQueues i r, .bindings q]
      (validateType p
        (.read fun s =>
          if q ∉ s.routeQueues (i, r) then .fail (.error .queueNotBound)
          else
            .read fun s =>
              stillBound i q
                (fun still =>
                  .read fun s =>
                    .exec (.unbind kind p q r (decide ((s.routeQueues (i, r)).length = 1)) still))
                ((order.arrange (s.routes i)).filter (· ≠ r))))

/-- `UnbindQueue` of the fanout store. -/
def unbindFanoutQueue (q : QueueParams) (p : ExchangeParams) : ExchangeProgram :=
  if q.ns ≠ p.id.ns then .done (.error .namespaceMismatch)
  else
    withTransaction 5 [.fanoutQueues p.id, .bindings q]
      (validateType p
        (.read fun s =>
          if q ∉ s.fanoutQueues p.id then .fail (.error .queueNotBound)
          else .exec (.unbindFanout p q)))

/-- Go on if no queue is bound under any of the routing keys, looked up one by one. -/
def noneBound (i : RouteIndex) (next : ExchangeAttempt) : List String → ExchangeAttempt
  | [] => next
  | r :: rs =>
      .read fun s =>
        if 0 < (s.routeQueues (i, r)).length then .fail (.error .hasBoundQueues)
        else noneBound i next rs

/-- The transaction of `Delete`, once the routing keys are known. -/
def deleteFound (kind : RouteKind) (p : ExchangeParams) (found : List String) : ExchangeProgram :=
  let i : RouteIndex := ⟨kind, p.id⟩
  withTransaction 5
    ([.routes i, .allExchanges, .nsExchanges p.id.ns] ++ found.map (.routeQueues i))
    (validateType p (noneBound i (.exec (.delete kind p found)) found))

/-- `Delete` of the direct and of the topic store. -/
def deleteExchange (kind : RouteKind) (p : ExchangeParams) (order : SetOrder) : ExchangeProgram :=
  let find : ExchangeProgram :=
    .read fun s => deleteFound kind p (order.arrange (s.routes ⟨kind, p.id⟩))
  match kind with
  | .direct =>
      .read fun s =>
        match s.typeError p with
        | some e => .done (.error e)
        | none => find
  | .topic => find

/-- `Delete` of the fanout store. -/
def deleteFanoutExchange (p : ExchangeParams) : ExchangeProgram :=
  withTransaction 5 [.fanoutQueues p.id, .allExchanges, .nsExchanges p.id.ns]
    (validateType p
      (.read fun s =>
        if 0 < (s.fanoutQueues p.id).length then .fail (.error .hasBoundQueues)
        else .exec (.deleteFanout p)))

end Transactions

section Manager

/-- The pipeline of `Store.Delete`. For an unknown type, the last command is not sent. -/
def removalPipeline (p : ExchangeParams) (found : List String) : ExchangeProgram :=
  .write (.dropProps p found)
    (.write (.dropListed p) (.write (.dropNsListed p) (.write (.dropIndex p) (.done .ok))))

/-- The checks of the routing keys that `Store.Delete` has found. -/
def checkFound (i : RouteIndex) (next : ExchangeProgram) : List String → ExchangeProgram
  | [] => next
  | r :: rs =>
      .read fun s =>
        if 0 < (s.routeQueues (i, r)).length then .done (.error .hasBoundQueues)
        else checkFound i next rs

def removeRoutes (i : RouteIndex) (p : ExchangeParams) (order : SetOrder) : ExchangeProgram :=
  .read fun s =>
    let found := order.arrange (s.routes i)
    checkFound i (removalPipeline p found) found

/-- `Store.Delete`. -/
def removeExchange (p : ExchangeParams) (order : SetOrder) : ExchangeProgram :=
  .read fun s =>
    if (s.props p.id).isNone then .done (.error .notFound)
    else
      match p.type with
      | .direct => removeRoutes ⟨.direct, p.id⟩ p order
      | .topic => removeRoutes ⟨.topic, p.id⟩ p order
      | .fanout =>
          .read fun s =>
            if 0 < (s.fanoutQueues p.id).length then .done (.error .hasBoundQueues)
            else removalPipeline p []
      | .unknown _ => removalPipeline p []

end Manager

inductive ExchangeCall where
  | create (store : StoreKind) (p : ExchangeParams) (policy : ExchangePolicy)
  | bind (kind : RouteKind) (q : QueueParams) (p : ExchangeParams) (r : String)
  | bindFanout (q : QueueParams) (p : ExchangeParams)
  | unbind (kind : RouteKind) (q : QueueParams) (p : ExchangeParams) (r : String)
      (order : SetOrder)
  | unbindFanout (q : QueueParams) (p : ExchangeParams)
  | delete (kind : RouteKind) (p : ExchangeParams) (order : SetOrder)
  | deleteFanout (p : ExchangeParams)
  /-- `Store.Delete`. -/
  | remove (p : ExchangeParams) (order : SetOrder)

namespace ExchangeCall

def program : ExchangeCall → ExchangeProgram
  | .create store p policy => createExchange store p policy
  | .bind kind q p r => bindQueue kind q p r
  | .bindFanout q p => bindFanoutQueue q p
  | .unbind kind q p r order => unbindQueue kind q p r order
  | .unbindFanout q p => unbindFanoutQueue q p
  | .delete kind p order => deleteExchange kind p order
  | .deleteFanout p => deleteFanoutExchange p
  | .remove p order => removeExchange p order

/-- The parameters have the type of the store. -/
def Typed : ExchangeCall → Prop
  | .create _ _ _ => True
  | .bind kind _ p _ | .unbind kind _ p _ _ | .delete kind p _ => p.type = kind.type
  | .bindFanout _ p | .unbindFanout _ p | .deleteFanout p => p.type = .fanout
  | .remove _ _ => True

def isRemoval : ExchangeCall → Bool
  | .remove _ _ => true
  | _ => false

end ExchangeCall

/-- The clients of the stores of exchanges. -/
abbrev ExchangeMachine :=
  Optimistic.Machine ExchangeStore ExchangeKey ExchangeWrite ExchangeResult

inductive ExchangeAction where
  | call (c : ExchangeCall)
  /-- A client takes a step. -/
  | step (c : Nat)
  | createQueue (q : QueueParams) (type : QueueType)
  | deleteQueue (q : QueueParams)

def ExchangeAction.move :
    ExchangeAction → Optimistic.Move ExchangeStore ExchangeKey ExchangeWrite ExchangeResult
  | .call c => .spawn c.program
  | .step c => .step c
  | .createQueue q type => .write (.createQueue q type)
  | .deleteQueue q => .write (.deleteQueue q)

/-- A client calls and takes steps. -/
def callAndSteps (c : Nat) (call : ExchangeCall) (n : Nat) : List ExchangeAction :=
  .call call :: List.replicate n (.step c)

namespace ExchangeMachine

/-- Only the queues exist, and nobody has called yet. -/
def initial (queues : QueueParams → Option QueueType) : ExchangeMachine :=
  ⟨.initial queues, []⟩

def step (m : ExchangeMachine) (a : ExchangeAction) : Option ExchangeMachine :=
  Optimistic.Machine.step exchangeServer m a.move

/-- The run leads from one state to the other. -/
def Runs (m : ExchangeMachine) (as : List ExchangeAction) (m' : ExchangeMachine) : Prop :=
  Run.exec step m as = some m'

end ExchangeMachine

end RedisSmq
