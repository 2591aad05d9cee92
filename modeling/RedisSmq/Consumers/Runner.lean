import RedisSmq.Consumers.Registry
import RedisSmq.Control.System

/-!
# The runner of message handlers

A consumer has one runner. It keeps the configured handlers, each for a queue and a group,
and the instances that were started for them. Handlers are added, removed, started and
stopped under a mutex, by the application or by a callback of the tracker of queue states,
which first collects the handlers of a queue and then calls for one after the other.

`Run` copies the configured handlers, creates the tracker, whose callbacks come from then on,
and starts an instance for each handler whose queue is active. Then, every few seconds,
`reconcile` looks for configured handlers of active queues that have no running instance, and
starts one for each. Both start an instance without the mutex and take the mutex to put it
into the list. An instance shuts itself down when it finds its queue stopped or locked; it
stays in the list.

An instance is found by its queue and its group, and the group is rewritten when an instance
without a group starts on a queue with groups. Its `config` is not part of the program: it
records what the instance was started for. So does `barred`, which holds what was stopped or
removed and not added or started again.
-/

namespace RedisSmq

/-- `handlerConfig`, without the function that handles the messages. -/
structure HandlerConfig where
  queue : QueueParams
  group : Option GroupId
  deriving DecidableEq

/-- The comparison of a queue and a group that all the loops of the runner make. -/
def HandlerConfig.sameAs (a b : HandlerConfig) : Bool :=
  decide (a.queue.string = b.queue.string ∧ a.group = b.group)

theorem HandlerConfig.sameAs_iff {a b : HandlerConfig} : a.sameAs b = true ↔ a = b := by
  cases a with
  | mk p g =>
    cases b with
    | mk q g' =>
      rw [sameAs, decide_eq_true_iff, HandlerConfig.mk.injEq]
      exact and_congr_left fun _ => ⟨QueueParams.string_injective, fun h => by rw [h]⟩

/-- `MessageHandler`. -/
structure Instance where
  config : HandlerConfig
  /-- `groupID`, as `Run` has left it. -/
  group : Option GroupId
  running : Bool
  deriving DecidableEq

def Instance.isFor (cfg : HandlerConfig) (i : Instance) : Bool :=
  HandlerConfig.sameAs ⟨i.config.queue, i.group⟩ cfg

/-- A call that waits for the mutex. -/
inductive RunnerCall where
  | start (cfg : HandlerConfig)
  | stop (cfg : HandlerConfig)
  deriving DecidableEq

/-- What an instance meets when it is run: the delivery model of its queue, and whether the
queue is there and lets the consumer subscribe. -/
structure Reception where
  model : DeliveryModel
  admitted : Bool
  deriving DecidableEq

/-- How far `Run` has come. -/
inductive RunnerPhase where
  /-- `Run` was not called, or it has failed and shut everything down. -/
  | down
  /-- The loop of `Run`, with the number of its handlers and of the instances it started. -/
  | starting (total started : Nat)
  /-- `Run` has returned, and `reconcile` is called again and again. -/
  | up
  deriving DecidableEq

structure Runner where
  consumer : ConsumerId
  handlers : List HandlerConfig
  instances : List Instance
  tracker : QueueStateTracker
  calls : List RunnerCall
  phase : RunnerPhase
  /-- What `Run` or `reconcile` still has to start. -/
  toStart : List HandlerConfig
  /-- The instance that `Run` or `reconcile` has started and not put into the list yet. -/
  launched : Option Instance
  barred : List HandlerConfig

inductive RunnerAction where
  /-- `AddHandler`. -/
  | add (cfg : HandlerConfig)
  /-- `RemoveHandler`. -/
  | remove (cfg : HandlerConfig)
  /-- The application calls for `StartHandler` or `StopHandler`. -/
  | request (call : RunnerCall)
  /-- The tracker handles a change of a state and calls back. -/
  | callback (q : QueueParams) (transition : StateTransition)
  /-- A call is carried out under the mutex. -/
  | serve (call : RunnerCall) (reception : Reception)
  /-- `Run` copies the handlers. -/
  | run
  /-- `Run` passes over a handler whose queue is not active. -/
  | skip
  /-- `Run` comes to the end of its loop. -/
  | finish
  /-- `reconcile` collects what is to be started. -/
  | scan
  /-- `Run` or `reconcile` starts the next instance. -/
  | launch (reception : Reception)
  /-- `Run` or `reconcile` puts the started instance into the list. -/
  | append
  /-- An instance of the list shuts itself down. -/
  | die (i : Nat)
  /-- The instance that is not in the list yet shuts itself down. -/
  | dieLaunched

namespace Runner

def new (c : ConsumerId) : Runner where
  consumer := c
  handlers := []
  instances := []
  tracker := {}
  calls := []
  phase := .down
  toStart := []
  launched := none
  barred := []

variable (r : Runner)

/-- `Run` of a new instance. -/
def runInstance (cfg : HandlerConfig) (reception : Reception) : Option Instance :=
  if reception.admitted = true then
    (effectiveGroup reception.model r.consumer cfg.group).map fun group => ⟨cfg, group, true⟩
  else none

/-- Shut down the first instance for a configured handler and take it out of the list. -/
def dropInstance (cfg : HandlerConfig) : Runner :=
  { r with instances := r.instances.eraseP (Instance.isFor cfg) }

def addHandler (cfg : HandlerConfig) : Runner :=
  if r.handlers.any (HandlerConfig.sameAs · cfg) then
    { r.dropInstance cfg with barred := r.barred.filter (· ≠ cfg) }
  else
    { r with handlers := r.handlers ++ [cfg], barred := r.barred.filter (· ≠ cfg) }

def removeHandler (cfg : HandlerConfig) : Runner :=
  { r.dropInstance cfg with
    handlers := r.handlers.eraseP (HandlerConfig.sameAs · cfg)
    barred := cfg :: r.barred }

def stopHandler (cfg : HandlerConfig) : Runner :=
  { r.dropInstance cfg with barred := cfg :: r.barred }

def startHandler (cfg : HandlerConfig) (reception : Reception) : Runner :=
  if r.handlers.any (HandlerConfig.sameAs · cfg) = false then r
  else if r.instances.any (Instance.isFor cfg) then r
  else
    match r.runInstance cfg reception with
    | none => r
    | some i =>
        { r with instances := r.instances ++ [i], barred := r.barred.filter (· ≠ cfg) }

/-- The calls that a callback makes. -/
def callbackCalls (q : QueueParams) (transition : StateTransition) : List RunnerCall :=
  let configs := r.handlers.filter fun cfg => cfg.queue.string = q.string
  match transition.toState with
  | .stopped | .paused | .locked => configs.map .stop
  | .active => configs.map .start

def serve (call : RunnerCall) (reception : Reception) : Runner :=
  match call with
  | .start cfg => r.startHandler cfg reception
  | .stop cfg => r.stopHandler cfg

/-- What `reconcile` finds to start. -/
def missing : List HandlerConfig :=
  r.handlers.filter fun cfg =>
    r.tracker.isActive cfg.queue && !r.instances.any fun i => i.isFor cfg && i.running

def shutdownLocked : Runner := { r with instances := [], phase := .down, toStart := [] }

/-- `Run` or `reconcile` starts the next instance. If it does not start, `Run` gives up and
`reconcile` goes on. -/
def launchNext (reception : Reception) : Option Runner :=
  match r.toStart, r.launched, r.phase with
  | cfg :: rest, none, .starting total started =>
      match r.runInstance cfg reception with
      | none => some r.shutdownLocked
      | some i =>
          some
            { r with
              toStart := rest, launched := some i, phase := .starting total (started + 1) }
  | cfg :: rest, none, .up =>
      some { r with toStart := rest, launched := r.runInstance cfg reception }
  | _, _, _ => none

/-- The end of the loop of `Run`. -/
def finishRun : Option Runner :=
  match r.toStart, r.launched, r.phase with
  | [], none, .starting total started =>
      some (if started = 0 ∧ 0 < total then r.shutdownLocked else { r with phase := .up })
  | _, _, _ => none

def skipNext : Option Runner :=
  match r.toStart, r.launched, r.phase with
  | _ :: rest, none, .starting _ _ => some { r with toStart := rest }
  | _, _, _ => none

def step : RunnerAction → Option Runner
  | .add cfg => some (r.addHandler cfg)
  | .remove cfg => some (r.removeHandler cfg)
  | .request call => some { r with calls := call :: r.calls }
  | .callback q transition =>
      some
        { r with
          tracker := r.tracker.handleStateChange q transition
          calls := r.callbackCalls q transition ++ r.calls }
  | .serve call reception =>
      if call ∈ r.calls then
        some ({ r with calls := r.calls.erase call }.serve call reception)
      else none
  | .run =>
      if r.phase = .down ∧ r.launched = none then
        some
          { r with
            tracker := {}
            phase := .starting r.handlers.length 0
            toStart := r.handlers }
      else none
  | .skip => r.skipNext
  | .finish => r.finishRun
  | .scan =>
      if r.phase = .up ∧ r.toStart = [] ∧ r.launched = none then
        some { r with toStart := r.missing }
      else none
  | .launch reception => r.launchNext reception
  | .append =>
      r.launched.map fun i => { r with instances := r.instances ++ [i], launched := none }
  | .die n =>
      some { r with instances := r.instances.modify n fun i => { i with running := false } }
  | .dieLaunched =>
      some { r with launched := r.launched.map fun i => { i with running := false } }

/-- The run leads from one state to the other. -/
def Runs (as : List RunnerAction) (r' : Runner) : Prop := Run.exec step r as = some r'

/-- The instances that are running for a configured handler. -/
def runningFor (cfg : HandlerConfig) : List Instance :=
  (r.launched.toList ++ r.instances).filter fun i => i.running ∧ i.config = cfg

end Runner

end RedisSmq
