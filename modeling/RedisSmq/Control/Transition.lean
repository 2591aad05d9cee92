import RedisSmq.Scripts.Manage

/-!
# Changes of the operational state

A queue is active, paused, stopped or locked, and it keeps the list of its latest
transitions from one state to another. Whoever changes the state reads the newest
transition first, decides on its ground whether the change is allowed and how it is
recorded, and then runs the script `set-queue-state`, which compares nothing but the
state that was read and, to leave a lock, the lock identifier.

Three callers prepare arguments for the script: the state manager of the public
interface, the purge manager and the recoverer of orphaned locks. The last one does it
by itself, with arguments that the state manager would prepare too.
-/

namespace RedisSmq

/-- `isLetter` and `isValidKeyChar`. -/
def isKeyChar (c : Char) : Bool := c.isLower || c.isDigit || c == '-' || c == '_' || c == '.'

/-- `ValidateKey`, for a key in lower case. -/
def ValidKey (key : String) : Prop :=
  (∃ c ∈ key.toList.head?, c.isLower = true) ∧ ∀ c ∈ key.toList, isKeyChar c = true

instance (key : String) : Decidable (ValidKey key) :=
  decidable_of_iff (key.toList.head?.any Char.isLower = true ∧ key.toList.all isKeyChar = true)
    (by simp [ValidKey, Option.any_eq_true])

/-- The name of a queue and its namespace, which are valid keys. -/
structure QueueParams where
  name : String
  ns : String
  validName : ValidKey name
  validNs : ValidKey ns
  deriving DecidableEq

def QueueParams.string (q : QueueParams) : String := q.name ++ "@" ++ q.ns

namespace OperationalState

def allowedTransitions : OperationalState → List OperationalState
  | .active => [.paused, .locked, .stopped]
  | .paused => [.active, .stopped, .locked]
  | .stopped => [.active]
  | .locked => [.active, .stopped]

def canTransitionTo (s target : OperationalState) : Bool := decide (target ∈ s.allowedTransitions)

end OperationalState

/-- Whoever holds the lock of a queue. The public interface takes any number. -/
inductive LockOwner where
  | purgeJob
  | unknown (code : Nat)
  deriving DecidableEq, Repr

/-- The reasons that can be given through the public interface. -/
inductive StateTransitionReason where
  | manual
  | scheduled
  | emergency
  | performance
  | error
  | configChange
  | testing
  | other
  deriving DecidableEq, Repr

inductive TransitionReason where
  | systemInit
  | recovery
  | purgeStart
  | purgeCancel
  | purgeFail
  | purgeComplete
  | user (r : StateTransitionReason)
  deriving DecidableEq, Repr

/-- A recorded change of the state. There is no previous state when the queue is created. -/
structure StateTransition where
  fromState : Option OperationalState
  toState : OperationalState
  reason : TransitionReason
  timestamp : Millis
  description : String := ""
  lockId : Option LockId := none
  owner : Option LockOwner := none
  deriving DecidableEq, Repr

structure StateTransitionOptions where
  reason : Option StateTransitionReason := none
  description : Option String := none
  lockId : Option LockId := none
  owner : Option LockOwner := none
  deriving DecidableEq, Repr

/-- The errors of the state manager. -/
inductive StateError where
  | notFound
  | invalidTransition
  | invalidLock
  | notLocked
  | lockOwnerMismatch
  | lockIdMismatch
  | unexpectedReply
  deriving DecidableEq, Repr

/-- The arguments of `set-queue-state` that differ between its calls. The time of the
change is the time stamp of the transition. -/
structure SetStateArgs where
  newState : OperationalState
  transition : StateTransition
  expected : Option OperationalState
  lockId : Option LockId

def newInitialTransition (state : OperationalState) (now : Millis) : StateTransition :=
  { fromState := none, toState := state, reason := .systemInit, timestamp := now }

def newTransition (fromState : Option OperationalState) (toState : OperationalState)
    (reason : TransitionReason) (opts : Option StateTransitionOptions) (now : Millis) :
    StateTransition where
  fromState := fromState
  toState := toState
  reason := reason
  timestamp := now
  description := (opts.bind StateTransitionOptions.description).getD ""
  lockId := opts.bind StateTransitionOptions.lockId
  owner := opts.bind StateTransitionOptions.owner

def reasonFromOpts (opts : Option StateTransitionOptions) : TransitionReason :=
  .user ((opts.bind StateTransitionOptions.reason).getD .manual)

/-- The arguments that `saveState` passes to the script. -/
def saveState (fromState : Option OperationalState) (toState : OperationalState)
    (reason : TransitionReason) (opts : Option StateTransitionOptions) (now : Millis) :
    SetStateArgs where
  newState := toState
  transition := newTransition fromState toState reason opts now
  expected := fromState
  lockId := opts.bind StateTransitionOptions.lockId

/-- `FetchCurrent`, given its two reads: the stored state and the newest transition. -/
def fetchCurrent (state : OperationalState) (latest : Option StateTransition) (now : Millis) :
    StateTransition :=
  latest.getD (newInitialTransition state now)

def transitionTo (current : StateTransition) (target : OperationalState)
    (reason : TransitionReason) (opts : Option StateTransitionOptions) (now : Millis) :
    Except StateError SetStateArgs :=
  if current.toState.canTransitionTo target then
    .ok (saveState (some current.toState) target reason opts now)
  else .error .invalidTransition

def acquireLock (current : StateTransition) (owner : LockOwner) (id : Option LockId)
    (reason : TransitionReason) (opts : Option StateTransitionOptions) (now : Millis) :
    Except StateError SetStateArgs :=
  if id.isNone then .error .invalidLock
  else if current.toState.canTransitionTo .locked then
    let description := (opts.bind StateTransitionOptions.description).getD "Exclusive lock"
    .ok (saveState (some current.toState) .locked reason
      (some { description := some description, lockId := id, owner := some owner }) now)
  else .error .invalidTransition

def releaseLock (current : StateTransition) (owner : LockOwner) (id : Option LockId)
    (reason : TransitionReason) (opts : Option StateTransitionOptions) (now : Millis) :
    Except StateError SetStateArgs :=
  if id.isNone then .error .invalidLock
  else if current.toState ≠ .locked then .error .notLocked
  else if current.owner ≠ some owner then .error .lockOwnerMismatch
  else if current.lockId ≠ id then .error .lockIdMismatch
  else
    let description := (opts.bind StateTransitionOptions.description).getD "Queue unlocked"
    .ok (saveState (some current.toState) .active reason
      (some { description := some description, lockId := id }) now)

/-- `recover` and `unlockQueue` of the recoverer of orphaned locks, apart from its look at
the worker of the job. -/
def recoverLock (current : StateTransition) (now : Millis) : Option SetStateArgs :=
  if current.toState = .locked ∧ current.owner = some .purgeJob ∧ current.lockId.isSome then
    some
      { newState := .active
        transition :=
          { fromState := some .locked
            toState := .active
            reason := .purgeComplete
            timestamp := now
            lockId := current.lockId }
        expected := some .locked
        lockId := current.lockId }
  else none

/-- Those who ask for a change of the state: the methods of `StateManager`, the purge
manager with its job and the recoverer. -/
inductive StateRequest where
  | pause (opts : Option StateTransitionOptions)
  | resume (opts : Option StateTransitionOptions)
  | stop (opts : Option StateTransitionOptions)
  | lock (owner : LockOwner) (id : Option LockId) (opts : Option StateTransitionOptions)
  | unlock (owner : LockOwner) (id : Option LockId) (opts : Option StateTransitionOptions)
  | purgeLock (job : LockId)
  | purgeUnlock (job : LockId) (reason : TransitionReason) (description : String)
  | recover
  deriving DecidableEq, Repr

namespace StateRequest

/-- The arguments that a request leads to after the newest transition was read, if it
gets as far as the script. -/
def prepare (current : StateTransition) (now : Millis) : StateRequest → Option SetStateArgs
  | .pause opts => (transitionTo current .paused (reasonFromOpts opts) opts now).toOption
  | .resume opts => (transitionTo current .active (reasonFromOpts opts) opts now).toOption
  | .stop opts => (transitionTo current .stopped (reasonFromOpts opts) opts now).toOption
  | .lock owner id opts =>
      (acquireLock current owner id (reasonFromOpts opts) opts now).toOption
  | .unlock owner id opts =>
      (releaseLock current owner id (reasonFromOpts opts) opts now).toOption
  | .purgeLock job =>
      (acquireLock current .purgeJob (some job) .purgeStart
        (some { description := some "Queue is being purged" }) now).toOption
  | .purgeUnlock job reason description =>
      (releaseLock current .purgeJob (some job) reason
        (some { description := some description }) now).toOption
  | .recover => recoverLock current now

/-- `saveState` announces the change after the script; the recoverer does not. -/
def announces : StateRequest → Bool
  | .recover => false
  | _ => true

end StateRequest

/-- The keys of a queue, with its transitions, the newest one first. -/
structure QueueRecord where
  db : Keyspace
  lastStateChangeAt : Millis
  transitions : List StateTransition

namespace QueueRecord

/-- The keys right after `create-queue`. -/
def created (type : QueueType) (groups : List GroupId) (now : Millis) : QueueRecord where
  db := Keyspace.created type groups
  lastStateChangeAt := now
  transitions := [newInitialTransition .active now]

def maxHistorySize : Nat := 100

/-- `set-queue-state` with its record of the transition. -/
def setState (args : SetStateArgs) (r : QueueRecord) : Except Refusal Unit × QueueRecord :=
  match setQueueState args.newState args.expected args.lockId r.db with
  | (.error e, _) => (.error e, r)
  | (.ok (), db) =>
      (.ok (),
        { db := db
          lastStateChangeAt := args.transition.timestamp
          transitions := (args.transition :: r.transitions).take maxHistorySize })

/-- The field `operationalState` of the property hash. -/
def state? (r : QueueRecord) : Option OperationalState := r.db.queue.bind QueueProps.state

/-- The field `lockId` of the property hash, if it is not empty. -/
def lockId? (r : QueueRecord) : Option LockId := r.db.queue.bind QueueProps.lockId

end QueueRecord

section Params

variable {p q : QueueParams}

theorem ValidKey.not_mem_at {key : String} (h : ValidKey key) : '@' ∉ key.toList := by
  intro hmem
  exact absurd (h.2 '@' hmem) (by decide)

theorem ValidKey.not_mem_colon {key : String} (h : ValidKey key) : ':' ∉ key.toList := by
  intro hmem
  exact absurd (h.2 ':' hmem) (by decide)

theorem QueueParams.eq_of_name_ns (hname : p.name = q.name) (hns : p.ns = q.ns) : p = q := by
  cases p
  cases q
  cases hname
  cases hns
  rfl

/-- The printed form of a queue tells which queue it is. -/
theorem QueueParams.string_injective (h : p.string = q.string) : p = q := by
  have hlist : p.name.toList ++ '@' :: p.ns.toList = q.name.toList ++ '@' :: q.ns.toList := by
    have := congrArg String.toList h
    simpa [QueueParams.string] using this
  obtain ⟨hname, _, hns⟩ := List.append_cons_inj_of_notMem p.validName.not_mem_at
    p.validNs.not_mem_at |>.1 hlist
  exact QueueParams.eq_of_name_ns (String.toList_injective hname) (String.toList_injective hns)

end Params

/-! ## Queues for examples -/

def ordersQueue : QueueParams := ⟨"orders", "shop", by decide, by decide⟩

def invoicesQueue : QueueParams := ⟨"invoices", "shop", by decide, ordersQueue.validNs⟩

/-- The first transition of a queue that was created at time zero. -/
def freshTransition : StateTransition := newInitialTransition .active 0

end RedisSmq
