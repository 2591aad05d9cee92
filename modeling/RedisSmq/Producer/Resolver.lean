import RedisSmq.Admin.Managed
import RedisSmq.Data.CatchUp
import RedisSmq.Exchange.Store

/-!
# The targets that a producer knows

A producer keeps the consumer groups of all pub/sub queues. When it starts, it reads the set
of all queues, then for each of them the properties and the groups, and then subscribes to
four kinds of events, one after the other. From then on it follows the events.

Whoever changes a queue or its groups does so first and publishes the event afterwards, so
that other clients may act in between; a group that `DeleteEphemeralConsumerGroup` deletes is
not announced at all. A group is added after a look at the properties of the queue, which may
have changed by then.

A run of `delete-consumer-group` that is refused changes nothing and is no step here; whether
a group is empty and has no consumers is left open.
-/

namespace RedisSmq

inductive QueueEvent where
  | queueCreated (q : QueueParams) (model : DeliveryModel)
  | queueDeleted (q : QueueParams)
  | groupCreated (q : QueueParams) (g : GroupId)
  | groupDeleted (q : QueueParams) (g : GroupId)
  deriving DecidableEq

namespace QueueEvent

def queue : QueueEvent → QueueParams
  | queueCreated q _ | queueDeleted q | groupCreated q _ | groupDeleted q _ => q

/-- The subscriptions are made in this order. -/
def subscription : QueueEvent → Nat
  | queueCreated _ _ => 0
  | queueDeleted _ => 1
  | groupCreated _ _ => 2
  | groupDeleted _ _ => 3

end QueueEvent

section Handlers

/-- `Add`, on the entry for the queue. -/
def addTarget (g : GroupId) (entry : Option (List GroupId)) : Option (List GroupId) :=
  if g ∈ entry.getD [] then entry else some (entry.getD [] ++ [g])

/-- `Remove`. -/
def removeTarget (g : GroupId) (entry : Option (List GroupId)) : Option (List GroupId) :=
  entry.map (·.erase g)

def onQueueCreated (model : DeliveryModel) (entry : Option (List GroupId)) :
    Option (List GroupId) :=
  if model = .pubSub then
    match entry with
    | none => some []
    | some groups => some groups
  else entry

/-- The handlers of the four kinds of events. -/
def QueueEvent.handle : QueueEvent → Option (List GroupId) → Option (List GroupId)
  | .queueCreated _ model, entry => onQueueCreated model entry
  | .queueDeleted _, _ => none
  | .groupCreated _ g, entry => addTarget g entry
  | .groupDeleted _ g, entry => removeTarget g entry

end Handlers

/-- How far the resolver is with `Load`. -/
inductive LoadPhase where
  | idle
  /-- These queues are still to be looked at. -/
  | reading (remaining : List QueueParams)
  /-- The properties of the queue say that it is a pub/sub queue. -/
  | readingGroups (q : QueueParams) (remaining : List QueueParams)
  /-- This many of the subscriptions are made. -/
  | subscribing (n : Nat)
  | ready
  deriving DecidableEq

/-- Whether the resolver receives an event that is published now. -/
def LoadPhase.receives : LoadPhase → QueueEvent → Bool
  | .subscribing n, e => decide (e.subscription < n)
  | .ready, _ => true
  | _, _ => false

structure Directory where
  allQueues : List QueueParams
  /-- The delivery model in the properties of a queue. -/
  models : QueueParams → Option DeliveryModel
  groups : QueueParams → List GroupId
  /-- Clients that are about to add a group, after a look at the queue. -/
  checked : List (QueueParams × GroupId)
  /-- Changes that were made and are still to be published. -/
  unannounced : List QueueEvent
  phase : LoadPhase
  targets : QueueParams → Option (List GroupId)
  /-- Events that were published and are on their way to the resolver. -/
  undelivered : List QueueEvent

inductive DirectoryAction where
  | createQueue (q : QueueParams) (model : DeliveryModel)
  | deleteQueue (q : QueueParams)
  /-- `Save` of the group manager or `PrepareConsumerGroup` loads the properties. -/
  | checkGroup (q : QueueParams) (g : GroupId)
  /-- It then adds the group. -/
  | addGroup (q : QueueParams) (g : GroupId)
  /-- The group manager deletes a group, or a consumer that shuts down or the reaper does. -/
  | deleteGroup (deleter : GroupDeleter) (q : QueueParams) (g : GroupId)
  | announce (e : QueueEvent)
  /-- `Load` starts with the set of all queues, in any order. -/
  | load (members : List QueueParams)
  /-- `Load` goes on. -/
  | read
  /-- An event arrives at the resolver. -/
  | deliver

namespace Directory

/-- There are no queues yet, and the producer has not been started. -/
def initial : Directory where
  allQueues := []
  models _ := none
  groups _ := []
  checked := []
  unannounced := []
  phase := .idle
  targets _ := none
  undelivered := []

variable (s : Directory)

def createQueue (q : QueueParams) (model : DeliveryModel) : Option Directory :=
  if (s.models q).isNone then
    some
      { s with
        allQueues := sadd q s.allQueues
        models := Function.update s.models q (some model)
        unannounced := s.unannounced ++ [.queueCreated q model] }
  else none

def deleteQueue (q : QueueParams) : Option Directory :=
  if (s.models q).isSome then
    some
      { s with
        allQueues := srem q s.allQueues
        models := Function.update s.models q none
        groups := Function.update s.groups q []
        unannounced := s.unannounced ++ [.queueDeleted q] }
  else none

def checkGroup (q : QueueParams) (g : GroupId) : Option Directory :=
  if s.models q = some .pubSub then some { s with checked := (q, g) :: s.checked } else none

/-- The event is published only if `SADD` has added the group. -/
def addGroup (q : QueueParams) (g : GroupId) : Option Directory :=
  if (q, g) ∈ s.checked then
    let s := { s with checked := s.checked.erase (q, g) }
    if g ∈ s.groups q then some s
    else
      some
        { s with
          groups := Function.update s.groups q (sadd g (s.groups q))
          unannounced := s.unannounced ++ [.groupCreated q g] }
  else none

def deleteGroup (deleter : GroupDeleter) (q : QueueParams) (g : GroupId) : Option Directory :=
  if s.models q = some .pubSub then
    let s := { s with groups := Function.update s.groups q (srem g (s.groups q)) }
    match deleter with
    | .manager => some { s with unannounced := s.unannounced ++ [.groupDeleted q g] }
    | .consumer => some s
  else none

def announce (e : QueueEvent) : Option Directory :=
  if e ∈ s.unannounced then
    some
      { s with
        unannounced := s.unannounced.erase e
        undelivered := if s.phase.receives e then s.undelivered ++ [e] else s.undelivered }
  else none

def load (members : List QueueParams) : Option Directory :=
  if s.phase = .idle ∧ members.Perm s.allQueues then some { s with phase := .reading members }
  else none

def read : Option Directory :=
  match s.phase with
  | .idle | .ready => none
  | .reading [] => some { s with phase := .subscribing 0 }
  | .reading (q :: remaining) =>
      if s.models q = some .pubSub then some { s with phase := .readingGroups q remaining }
      else some { s with phase := .reading remaining }
  | .readingGroups q remaining =>
      some
        { s with
          phase := .reading remaining
          targets := Function.update s.targets q (some (s.groups q)) }
  | .subscribing n =>
      some { s with phase := if n + 1 < 4 then .subscribing (n + 1) else .ready }

def deliver : Option Directory :=
  match s.undelivered with
  | [] => none
  | e :: rest =>
      some
        { s with
          targets := Function.update s.targets e.queue (e.handle (s.targets e.queue))
          undelivered := rest }

def step : DirectoryAction → Option Directory
  | .createQueue q model => s.createQueue q model
  | .deleteQueue q => s.deleteQueue q
  | .checkGroup q g => s.checkGroup q g
  | .addGroup q g => s.addGroup q g
  | .deleteGroup deleter q g => s.deleteGroup deleter q g
  | .announce e => s.announce e
  | .load members => s.load members
  | .read => s.read
  | .deliver => s.deliver

/-- The run leads from one state to the other. -/
def Runs (as : List DirectoryAction) (s' : Directory) : Prop := Run.exec step s as = some s'

end Directory

end RedisSmq
