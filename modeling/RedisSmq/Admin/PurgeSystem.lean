import RedisSmq.Admin.Jobs
import RedisSmq.Control.System
import Mathlib.Data.List.Perm.Basic

/-!
# The processes that purge queues

`Enqueue` locks the queue with the identifier of a new job and then stores the job. A
worker takes a job, starts it, and deletes its messages batch by batch; it asks before each
batch whether the job was cancelled, and it saves its progress after each. When the job is
over, whoever ended it unlocks the queue. A task is such a call on its way: each of its
steps is one Redis command or one script, and any other steps may come between two of them.
A process that crashes takes no further step. Once the context of a call is cancelled, every
further command fails before it reaches Redis: `purgeMessages` returns the error of the
context, what `failJob` then tries fails as well, `unlockQueue` only logs the error, and the
call returns.

The recoverer of orphaned locks reads the newest transition of a queue, then the worker of
the job that holds the lock, and then whether that worker has a heartbeat; what it has read
is kept, and it may act on it at any later time.

Identifiers of jobs are random. A new one is different from all identifiers that were made
or presented before; `used` records these.
-/

namespace RedisSmq

/-- The text of an error of `DeleteMessages`. What Redis or the JSON decoder say about an
error is left out. -/
def DeleteError.text : DeleteError → String
  | .undecodable => "message cannot be decoded"
  | .locked => "queue is locked"
  | .notFound => "queue not found"
  | .unexpectedReply _ => "unexpected script reply"
  | .script _ => "delete message script"

/-- How far a call has come that changes the state of a queue. -/
inductive Reading where
  | start
  | state (state : OperationalState)
  | current (transition : StateTransition)
  deriving DecidableEq, Repr

/-- A job in execution: the worker's copy of the job and the number of deleted messages. -/
structure Execution where
  worker : WorkerId
  job : PurgeJob
  purged : Nat
  deriving DecidableEq

inductive PurgeTask where
  /-- `Enqueue` is about to lock the queue. -/
  | locking (id : LockId) (q : QueueParams) (filter : BrowseFilter) (reading : Reading)
  /-- `Enqueue` is about to store the job. -/
  | creating (id : LockId) (q : QueueParams) (filter : BrowseFilter)
  /-- `Cancel` has read the job and is about to cancel it. -/
  | canceling (q : QueueParams) (job : PurgeJob)
  /-- A worker has taken the job. -/
  | acquired (worker : WorkerId) (id : LockId)
  /-- `execute` has read the job and is about to start it. -/
  | starting (worker : WorkerId) (job : PurgeJob)
  /-- `purgeMessages` is about to ask whether the job was cancelled. -/
  | checking (x : Execution)
  | fetching (x : Execution)
  | loading (x : Execution) (ids : List MessageId)
  /-- `DeleteMessages` is about to run the script for the next group. -/
  | deleting (x : Execution) (count success : Nat) (todo : List (Option GroupId × List Envelope))
  | trimming (x : Execution) (count : Nat)
  /-- `trimCategory` has read the front of a sorted set. -/
  | removing (x : Execution) (k : ZsetKey) (ids : List MessageId)
  | saving (x : Execution)
  /-- `purgeMessages` has returned. -/
  | finishing (x : Execution)
  | completing (x : Execution)
  | failing (x : Execution) (error : String)
  /-- `unlockQueue`. -/
  | unlocking (q : QueueParams) (id : LockId) (status : PurgeJobStatus) (description : String)
      (reading : Reading)
  deriving DecidableEq

structure PurgeSystem where
  cfg : Config
  control : Control
  keys : JobKeys
  tasks : List PurgeTask
  /-- The identifiers that `Enqueue` has made. -/
  jobIds : List LockId
  /-- All lock identifiers that were made or presented. -/
  used : List LockId
  /-- The links from jobs to workers that were read. -/
  links : List (LockId × Option WorkerId)
  /-- The transitions whose lock the recoverer takes for orphaned. -/
  orphans : List (QueueParams × StateTransition)

/-- The lock identifiers that a request presents. -/
def StateRequest.lockIds : StateRequest → List LockId
  | .pause opts | .resume opts | .stop opts =>
      (opts.bind StateTransitionOptions.lockId).toList
  | .lock _ id _ | .unlock _ id _ => id.toList
  | .purgeLock job | .purgeUnlock job _ _ => [job]
  | .recover => []

def ControlAction.lockIds : ControlAction → List LockId
  | .save _ req _ _ => req.lockIds
  | _ => []

inductive PurgeAction where
  | control (a : ControlAction)
  /-- `Enqueue` is called and has made an identifier. -/
  | enqueue (id : LockId) (q : QueueParams) (filter : BrowseFilter)
  /-- `Cancel` is called and reads the job. -/
  | cancel (q : QueueParams) (id : LockId)
  /-- A worker takes a job. -/
  | acquire (w : WorkerId)
  /-- A call takes its next step. -/
  | proceed (task : PurgeTask) (t : Millis)
  /-- The context of a call is cancelled, and the call returns. -/
  | abandon (task : PurgeTask)
  /-- `DeleteMessages` loads the messages and groups them, in some order of the groups. -/
  | load (x : Execution) (ids : List MessageId) (uuid : MessageId) (t : Nanos)
      (groups : List (Option GroupId))
  /-- A worker that starts looks for stuck jobs. -/
  | recoverStuckJobs (t : Millis)
  | beat (w : WorkerId)
  | lapse (w : WorkerId)
  /-- The recoverer reads the worker of a job. -/
  | inspect (id : LockId)
  /-- The recoverer finds no heartbeat of the worker. -/
  | orphan (q : QueueParams) (current : StateTransition) (link : Option WorkerId)

/-- The reason for the change of the state, as `unlockQueue` chooses it. -/
def unlockReason : PurgeJobStatus → TransitionReason
  | .failed => .purgeFail
  | .canceled => .purgeCancel
  | .completed | .pending | .processing => .purgeComplete

namespace Control

variable (c : Control)

/-- The keys of the messages of a queue change. -/
def setDb (q : QueueParams) (db : Keyspace) : Control :=
  { c with queues := Function.update c.queues q { c.queues q with db := db } }

/-- A step of a call that changes the state. It ends with the answer whether it did. -/
def call (q : QueueParams) (req : StateRequest) (t : Millis) : Reading → Control × (Reading ⊕ Bool)
  | .start =>
      match (c.queues q).state? with
      | none => (c, .inr false)
      | some state => (c, .inl (.state state))
  | .state state => (c, .inl (.current (fetchCurrent state (c.queues q).transitions.head? t)))
  | .current current =>
      match req.prepare current t with
      | none => (c, .inr false)
      | some args => (c.commit q req args, .inr ((c.queues q).setState args).1.isOk)

end Control

namespace PurgeSystem

def created (cfg : Config) (shape : QueueParams → QueueType × List GroupId) (now : Millis) :
    PurgeSystem where
  cfg := cfg
  control := Control.created shape now
  keys := JobKeys.empty
  tasks := []
  jobIds := []
  used := []
  links := []
  orphans := []

variable (s : PurgeSystem)

/-- The keys of the queue of a job. -/
def db (q : QueueParams) : Keyspace := (s.control.queues q).db

/-- `IsCanceled`, if the job is found. -/
def isCanceled? (id : LockId) : Option Bool :=
  (s.keys.job? id).map fun job => decide (job.status = .canceled)

/-- What the next step of a task does to the queues and to the jobs, and what the call goes
on with. Loading takes more than the time, so it is an action of its own. -/
def go (t : Millis) : PurgeTask → Option (Control × JobKeys × Option PurgeTask)
  | .locking id q filter reading =>
      match s.control.call q (.purgeLock id) t reading with
      | (c, .inl reading) => some (c, s.keys, some (.locking id q filter reading))
      | (c, .inr true) => some (c, s.keys, some (.creating id q filter))
      | (c, .inr false) => some (c, s.keys, none)
  | .creating id q filter =>
      let (reply, keys) := createJob id (newPurgeJob id q filter t) s.keys
      match runJobScript "create" reply with
      | .ok () => some (s.control, keys, none)
      | .error e => some (s.control, keys, some (.unlocking q id .failed e .start))
  | .canceling q job =>
      let job := { job with status := .canceled, completedAt := t }
      let (reply, keys) := cancelJob job.id job s.keys
      match runJobScript "cancel" reply with
      | .ok () =>
          some (s.control, keys,
            some (.unlocking q job.id .canceled "Purge job cancelled" .start))
      | .error _ => some (s.control, keys, none)
  | .acquired w id =>
      match s.keys.job? id with
      | none => some (s.control, s.keys, none)
      | some job => some (s.control, s.keys, some (.starting w job))
  | .starting w job =>
      let job := { job with status := .processing, startedAt := t }
      let (reply, keys) := startJob job.id job s.keys w
      match runJobScript "start" reply with
      | .ok () => some (s.control, keys, some (.checking ⟨w, job, 0⟩))
      | .error e => some (s.control, keys, some (.failing ⟨w, job, 0⟩ e))
  | .checking x =>
      match s.isCanceled? x.job.id with
      | none =>
          let e := "check canceled: purge: job not found: " ++ toString x.job.id
          some (s.control, s.keys, some (.failing x e))
      | some true => some (s.control, s.keys, some (.finishing x))
      | some false => some (s.control, s.keys, some (.fetching x))
  | .fetching x =>
      let key := resolveCategoryKey x.job.messageType
      match fetchBatch key x.job.batchSize (s.db x.job.queue) with
      | [] => some (s.control, s.keys, some (.finishing x))
      | ids => some (s.control, s.keys, some (.loading x ids))
  | .loading _ _ => none
  | .deleting x count success [] =>
      let x := { x with purged := x.purged + success }
      some (s.control, s.keys, some (.trimming x count))
  | .deleting x count success ((group, messages) :: todo) =>
      match deleteMessageGroup group messages (some x.job.id) (s.db x.job.queue) with
      | (db, .error e) =>
          some (s.control.setDb x.job.queue db, s.keys,
            some (.failing x ("delete messages: " ++ e.text)))
      | (db, .ok stats) =>
          some (s.control.setDb x.job.queue db, s.keys,
            some (.deleting x count (success + stats.success) todo))
  | .trimming x count =>
      let db := s.db x.job.queue
      match resolveCategoryKey x.job.messageType with
      | none => some (s.control, s.keys, some (.saving x))
      | some (.list k) =>
          some (s.control.setDb x.job.queue (db.setList k ((db.lists k).drop count)), s.keys,
            some (.saving x))
      | some (.zset k) =>
          match db.range (.zset k) count with
          | [] => some (s.control, s.keys, some (.saving x))
          | ids => some (s.control, s.keys, some (.removing x k ids))
  | .removing x k ids =>
      some (s.control.setDb x.job.queue ((s.db x.job.queue).zremAll k ids), s.keys,
        some (.saving x))
  | .saving x =>
      let job := { x.job with jobMeta := some { purged := x.purged }, updatedAt := t }
      some (s.control, s.keys.setJob job.id job, some (.checking { x with job := job }))
  | .finishing x =>
      match s.isCanceled? x.job.id with
      | some true => some (s.control, s.keys, none)
      | some false | none => some (s.control, s.keys, some (.completing x))
  | .completing x =>
      let job := { x.job with
        status := .completed, jobMeta := some { purged := x.purged }, completedAt := t }
      some (s.control, (completeJob job.id job s.keys).2,
        some (.unlocking job.queue job.id .completed "Purge completed" .start))
  | .failing x e =>
      let job := { x.job with status := .failed, error := e, completedAt := t }
      some (s.control, (failJob job.id job s.keys).2,
        some (.unlocking job.queue job.id .failed e .start))
  | .unlocking q id status description reading =>
      match s.control.call q (.purgeUnlock id (unlockReason status) description) t reading with
      | (c, .inl reading) =>
          some (c, s.keys, some (.unlocking q id status description reading))
      | (c, .inr _) => some (c, s.keys, none)

def proceed (task : PurgeTask) (t : Millis) : Option PurgeSystem :=
  if task ∈ s.tasks then
    (s.go t task).map fun (c, keys, next) =>
      { s with control := c, keys := keys, tasks := next.toList ++ s.tasks.erase task }
  else none

/-- The task of loading a batch goes on with `next`. -/
def load (x : Execution) (ids : List MessageId) (uuid : MessageId) (t : Nanos)
    (groups : List (Option GroupId)) : Option PurgeSystem :=
  if .loading x ids ∈ s.tasks then
    let decode := Codec.decodeEnvelope s.cfg.defaults uuid t
    match getMessages decode (s.db x.job.queue) ids with
    | none =>
        let next := PurgeTask.failing x ("delete messages: " ++ DeleteError.undecodable.text)
        some { s with tasks := next :: s.tasks.erase (.loading x ids) }
    | some messages =>
        if groups.Perm (messages.map Envelope.consumerGroupId).dedup then
          let todo := groups.map fun group =>
            (group, messages.filter (·.consumerGroupId = group))
          let next := PurgeTask.deleting x ids.length 0 todo
          some { s with tasks := next :: s.tasks.erase (.loading x ids) }
        else none
  else none

/-- `BRPOPLPUSH` from the pending to the active jobs. -/
def acquire (w : WorkerId) : Option PurgeSystem :=
  s.keys.pending.getLast?.map fun id =>
    { s with keys := s.keys.activate id, tasks := .acquired w id :: s.tasks }

/-- What is left to the others: the requests of purges are tasks, and the recoverer acts on
what it takes for orphaned. -/
def allows : ControlAction → Bool
  | .save _ (.purgeLock _) _ _ | .save _ (.purgeUnlock _ _ _) _ _ => false
  | .save q .recover current _ => decide ((q, current) ∈ s.orphans)
  | _ => true

/-- The state after an action. -/
def step : PurgeAction → Option PurgeSystem
  | .control a =>
      if s.allows a then
        (s.control.step a).map fun c => { s with control := c, used := a.lockIds ++ s.used }
      else none
  | .enqueue id q filter =>
      if id ∉ s.used ∧ validateFilter s.cfg filter then
        some
          { s with
            tasks := .locking id q filter .start :: s.tasks
            jobIds := id :: s.jobIds
            used := id :: s.used }
      else none
  | .cancel q id =>
      (s.keys.job? id).map fun job => { s with tasks := .canceling q job :: s.tasks }
  | .acquire w => s.acquire w
  | .proceed task t => s.proceed task t
  | .abandon task =>
      if task ∈ s.tasks then some { s with tasks := s.tasks.erase task } else none
  | .load x ids uuid t groups => s.load x ids uuid t groups
  | .recoverStuckJobs t => some { s with keys := s.keys.recoverStuckJobs t }
  | .beat w => some { s with keys := { s.keys with heartbeats := w :: s.keys.heartbeats } }
  | .lapse w =>
      some { s with keys := { s.keys with heartbeats := s.keys.heartbeats.filter (· ≠ w) } }
  | .inspect id => some { s with links := (id, s.keys.workers id) :: s.links }
  | .orphan q current link =>
      if (q, current) ∈ s.control.readings ∧ (∃ id ∈ current.lockId, (id, link) ∈ s.links) ∧
          link.all (· ∉ s.keys.heartbeats) then
        some { s with orphans := (q, current) :: s.orphans }
      else none

/-- The run leads from one state to the other. -/
def Runs (as : List PurgeAction) (s' : PurgeSystem) : Prop := Run.exec step s as = some s'

end PurgeSystem

end RedisSmq
