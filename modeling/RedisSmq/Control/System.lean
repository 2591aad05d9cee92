import RedisSmq.Control.Transition
import RedisSmq.Data.Run

/-!
# The processes that change and watch the states of queues

A request reads the stored state, then the newest transition, and then runs the script.
Between these steps any others may take place, so the readings are kept in pools from
which nothing is removed: a request may be based on any reading that was ever made. What
`saveState` has committed it announces in a later step. The announcements reach the
tracker of a consumer one by one, in the order in which they were published.

Whatever else happens to the keys of a queue, its messages and counters, is one kind of
step here: it leaves the state and the lock identifier alone.
-/

namespace RedisSmq

/-- `QueueStateTracker`: the printed forms of the queues it takes for paused, stopped or
locked. -/
structure QueueStateTracker where
  paused : List String := []
  stopped : List String := []
  locked : List String := []
  deriving DecidableEq, Repr

namespace QueueStateTracker

def handleStateChange (t : QueueStateTracker) (q : QueueParams) (transition : StateTransition) :
    QueueStateTracker :=
  let key := q.string
  let t : QueueStateTracker :=
    { paused := t.paused.filter (· ≠ key)
      stopped := t.stopped.filter (· ≠ key)
      locked := t.locked.filter (· ≠ key) }
  match transition.toState with
  | .stopped => { t with stopped := key :: t.stopped }
  | .paused => { t with paused := key :: t.paused }
  | .locked => { t with locked := key :: t.locked }
  | .active => t

def isStopped (t : QueueStateTracker) (q : QueueParams) : Bool := decide (q.string ∈ t.stopped)

def isPaused (t : QueueStateTracker) (q : QueueParams) : Bool := decide (q.string ∈ t.paused)

def isLocked (t : QueueStateTracker) (q : QueueParams) : Bool := decide (q.string ∈ t.locked)

def isActive (t : QueueStateTracker) (q : QueueParams) : Bool :=
  !t.isStopped q && !t.isPaused q && !t.isLocked q

end QueueStateTracker

structure Control where
  queues : QueueParams → QueueRecord
  /-- The stored states that `FetchCurrent` has read. -/
  states : List (QueueParams × OperationalState)
  /-- What `FetchCurrent` has returned. -/
  readings : List (QueueParams × StateTransition)
  /-- What is committed and still to be announced, in the order of the commits. -/
  unannounced : List (QueueParams × StateTransition)
  /-- What is announced and still to be delivered, in the order of the announcements. -/
  published : List (QueueParams × StateTransition)
  tracker : QueueStateTracker

inductive ControlAction where
  /-- `FetchCurrent` reads the stored state. -/
  | hget (q : QueueParams)
  /-- `FetchCurrent` reads the newest transition. -/
  | lindex (q : QueueParams) (state : OperationalState) (t : Millis)
  /-- A request that was prepared on the ground of a reading runs the script. -/
  | save (q : QueueParams) (req : StateRequest) (current : StateTransition) (t : Millis)
  | announce (q : QueueParams) (transition : StateTransition)
  /-- The tracker handles the oldest announcement. -/
  | deliver
  /-- The messages of the queue change. -/
  | traffic (q : QueueParams) (db : Keyspace)

namespace Control

variable (c : Control)

/-- All queues have just been created, each with its type and its consumer groups. -/
def created (shape : QueueParams → QueueType × List GroupId) (now : Millis) : Control where
  queues q := QueueRecord.created (shape q).1 (shape q).2 now
  states := []
  readings := []
  unannounced := []
  published := []
  tracker := {}

def hget (q : QueueParams) : Option Control :=
  (c.queues q).state?.map fun state => { c with states := (q, state) :: c.states }

def lindex (q : QueueParams) (state : OperationalState) (t : Millis) : Option Control :=
  if (q, state) ∈ c.states then
    let current := fetchCurrent state (c.queues q).transitions.head? t
    some { c with readings := (q, current) :: c.readings }
  else none

/-- What a request announces if the script has accepted it. -/
def announcement (q : QueueParams) (req : StateRequest) (args : SetStateArgs) :
    Except Refusal Unit → List (QueueParams × StateTransition)
  | .ok () => if req.announces then [(q, args.transition)] else []
  | .error _ => []

/-- The script has run with the arguments of a request. -/
def commit (q : QueueParams) (req : StateRequest) (args : SetStateArgs) : Control :=
  let run := (c.queues q).setState args
  { c with
    queues := Function.update c.queues q run.2
    unannounced := c.unannounced ++ announcement q req args run.1 }

@[simp] theorem commit_self (q : QueueParams) (req : StateRequest) (args : SetStateArgs) :
    (c.commit q req args).queues q = ((c.queues q).setState args).2 :=
  Function.update_self q _ _

theorem commit_of_ne {p q : QueueParams} (h : p ≠ q) (req : StateRequest) (args : SetStateArgs) :
    (c.commit q req args).queues p = c.queues p :=
  Function.update_of_ne h _ _

instance lawfulReadings : LawfulBEq (QueueParams × StateTransition) := inferInstance

def save (q : QueueParams) (req : StateRequest) (current : StateTransition) (t : Millis) :
    Option Control :=
  if (q, current) ∈ c.readings then (req.prepare current t).map (c.commit q req) else none

def announce (q : QueueParams) (transition : StateTransition) : Option Control :=
  if (q, transition) ∈ c.unannounced then
    some
      { c with
        unannounced := c.unannounced.erase (q, transition)
        published := c.published ++ [(q, transition)] }
  else none

def deliver : Option Control :=
  match c.published with
  | [] => none
  | (q, transition) :: rest =>
      some { c with published := rest, tracker := c.tracker.handleStateChange q transition }

def traffic (q : QueueParams) (db : Keyspace) : Option Control :=
  let r := { c.queues q with db := db }
  if r.state? = (c.queues q).state? ∧ r.lockId? = (c.queues q).lockId? then
    some { c with queues := Function.update c.queues q r }
  else none

/-- The state after an action. -/
def step : ControlAction → Option Control
  | .hget q => c.hget q
  | .lindex q state t => c.lindex q state t
  | .save q req current t => c.save q req current t
  | .announce q transition => c.announce q transition
  | .deliver => c.deliver
  | .traffic q db => c.traffic q db

/-- The run leads from one state to the other. -/
def Runs (as : List ControlAction) (c' : Control) : Prop := Run.exec step c as = some c'

end Control

/-- What a step does to the keys of a queue: nothing to the state and its transitions, or
it runs the script with the arguments of a request. -/
inductive ControlStep (q : QueueParams) (c : Control) : ControlAction → QueueRecord → Prop
  | same {a : ControlAction} : ControlStep q c a (c.queues q)
  | traffic {r : QueueRecord} (hstate : r.state? = (c.queues q).state?)
      (hlock : r.lockId? = (c.queues q).lockId?)
      (htransitions : r.transitions = (c.queues q).transitions) :
      ControlStep q c (.traffic q r.db) r
  | save {req : StateRequest} {current : StateTransition} {t : Millis} {args : SetStateArgs}
      (hargs : req.prepare current t = some args) :
      ControlStep q c (.save q req current t) ((c.queues q).setState args).2

/-- A step acts on every queue in one of these ways. -/
theorem ControlStep.of_step {c c' : Control} {a : ControlAction} (h : c.step a = some c')
    (q : QueueParams) : ControlStep q c a (c'.queues q) := by
  cases a with
  | hget q' =>
    obtain ⟨state, -, rfl⟩ := Option.map_eq_some_iff.1 h
    exact .same
  | lindex | announce =>
    obtain ⟨-, h⟩ := Option.ite_none_right_eq_some.1 h
    cases h
    exact .same
  | save q' req current t =>
    obtain ⟨-, h⟩ := Option.ite_none_right_eq_some.1 h
    obtain ⟨args, hargs, rfl⟩ := Option.map_eq_some_iff.1 h
    by_cases hq : q = q'
    · subst hq
      rw [Control.commit_self]
      exact .save hargs
    · rw [Control.commit_of_ne c hq]
      exact .same
  | deliver =>
    simp only [Control.step, Control.deliver] at h
    split at h
    · cases h
    · cases h
      exact .same
  | traffic q' db =>
    obtain ⟨⟨hstate, hlock⟩, h⟩ := Option.ite_none_right_eq_some.1 h
    cases h
    change ControlStep q c _ (Function.update c.queues q' _ q)
    by_cases hq : q = q'
    · subst hq
      rw [Function.update_self]
      exact .traffic hstate hlock rfl
    · rw [Function.update_of_ne hq]
      exact .same

end RedisSmq
