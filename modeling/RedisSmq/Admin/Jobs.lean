import RedisSmq.Admin.Purge
import RedisSmq.Control.Transition

/-!
# Purge jobs

A purge is carried out by a background job. The jobs are stored in a hash; the identifier
of a job is first in the list of pending jobs and, from the moment when a worker takes it,
in the list of active jobs. Six scripts change the status of a job and the lists together.
Besides, the progress of a job is written straight into the hash.

A stored job is the JSON text of its value. What is decoded from this text is the value
again, so the hash holds the values here. The scripts read the status from the text; they
reply with a number.
-/

namespace RedisSmq

abbrev WorkerId := Nat

inductive PurgeJobStatus where
  | pending
  | processing
  | completed
  | failed
  | canceled
  deriving DecidableEq, Repr

/-- The job is over. -/
def PurgeJobStatus.isTerminal : PurgeJobStatus → Bool
  | .pending | .processing => false
  | .completed | .failed | .canceled => true

structure PurgeJobMeta where
  purged : Nat
  deriving DecidableEq, Repr

/-- `PurgeJob`. The time stamps are zero and the error is empty where they are left out. -/
structure PurgeJob where
  id : LockId
  queue : QueueParams
  messageType : BrowseFilter
  status : PurgeJobStatus
  createdAt : Millis
  updatedAt : Millis := 0
  startedAt : Millis := 0
  completedAt : Millis := 0
  batchSize : Nat
  delayMs : Millis
  error : String := ""
  jobMeta : Option PurgeJobMeta
  deriving DecidableEq

/-- `defaultPurgeBatchDelay` in milliseconds. -/
def defaultPurgeBatchDelay : Millis := 5000

def newPurgeJob (id : LockId) (queue : QueueParams) (filter : BrowseFilter) (now : Millis) :
    PurgeJob where
  id := id
  queue := queue
  messageType := filter
  status := .pending
  createdAt := now
  batchSize := defaultPurgeBatchSize
  delayMs := defaultPurgeBatchDelay
  jobMeta := some { purged := 0 }

def validateFilter (cfg : Config) : BrowseFilter → Bool
  | .acknowledged => cfg.acknowledged.enabled
  | .deadLettered => cfg.deadLettered.enabled
  | .scheduled | .pending | .published => true

/-- The keys of all purge jobs: the hash, the two lists, the worker of each job and the
workers with a heartbeat. -/
structure JobKeys where
  jobs : Table LockId PurgeJob
  pending : List LockId
  active : List LockId
  workers : LockId → Option WorkerId
  heartbeats : List WorkerId

namespace JobKeys

def empty : JobKeys where
  jobs := ∅
  pending := []
  active := []
  workers _ := none
  heartbeats := []

variable (k : JobKeys)

/-- `HGET` on the jobs. -/
def job? (id : LockId) : Option PurgeJob := k.jobs.lookup id

/-- `HSET` on the jobs. -/
def setJob (id : LockId) (job : PurgeJob) : JobKeys := { k with jobs := k.jobs.insert id job }

/-- `LREM` of all occurrences in the pending list. -/
def lremPending (id : LockId) : JobKeys := { k with pending := k.pending.filter (· ≠ id) }

/-- `LREM` of all occurrences in the active list. -/
def lremActive (id : LockId) : JobKeys := { k with active := k.active.filter (· ≠ id) }

/-- The effect of `BRPOPLPUSH` from the pending to the active list, if the last pending job
is the given one. -/
def activate (id : LockId) : JobKeys :=
  { k with pending := k.pending.dropLast, active := id :: k.active }

/-- `DEL` of the link from a job to its worker. -/
def delWorker (id : LockId) : JobKeys := { k with workers := Function.update k.workers id none }

end JobKeys

section Scripts

variable (id : LockId) (job : PurgeJob) (k : JobKeys)

def createJob : Int × JobKeys :=
  if (k.job? id).isSome then (-1, k)
  else (1, { k.setJob id job with pending := id :: k.pending })

/-- `start-job`. The script removes the identifier from the active list to see whether it
is there, and puts it back at the end. -/
def startJob (worker : WorkerId) : Int × JobKeys :=
  match k.job? id with
  | none => (0, k)
  | some current =>
      match current.status with
      | .processing => (2, k)
      | .completed => (-1, k)
      | .failed => (-2, k)
      | .canceled => (-3, k)
      | .pending =>
          if id ∈ k.active then
            let k := k.lremActive id
            let k := { k with active := k.active ++ [id] }
            let k := k.setJob id job
            (1, { k with workers := Function.update k.workers id (some worker) })
          else (0, k)

/-- `complete-job` and `fail-job`, with the status that the script gives to the job and the
other one of the two. -/
def endJob (own other : PurgeJobStatus) : Int × JobKeys :=
  match k.job? id with
  | none => (0, k)
  | some current =>
      let cleaned := (k.lremActive id).delWorker id
      if current.status = own then (2, cleaned)
      else if current.status = other then (-1, cleaned)
      else if current.status = .canceled then (-2, cleaned)
      else if current.status ≠ .processing then (0, k)
      else (1, ((k.setJob id job).lremActive id).delWorker id)

def completeJob : Int × JobKeys := endJob id job k .completed .failed

def failJob : Int × JobKeys := endJob id job k .failed .completed

def cancelJob : Int × JobKeys :=
  match k.job? id with
  | none => (0, k)
  | some current =>
      let cleaned := ((k.lremPending id).lremActive id).delWorker id
      match current.status with
      | .canceled => (2, cleaned)
      | .completed => (-1, cleaned)
      | .failed => (-2, cleaned)
      | .pending | .processing =>
          (1, (((k.setJob id job).lremPending id).lremActive id).delWorker id)

def recoverStuckJob : Int × JobKeys :=
  match k.job? id with
  | none => (0, k)
  | some current =>
      let cleaned := (k.lremActive id).delWorker id
      match current.status with
      | .completed => (-1, cleaned)
      | .failed => (-2, cleaned)
      | .canceled => (-3, cleaned)
      | .pending => (0, k)
      | .processing =>
          let k := (k.setJob id job).lremActive id
          (1, { k with pending := id :: k.pending }.delWorker id)

end Scripts

/-- `runJobScript`: the error that a reply stands for. -/
def runJobScript (operation : String) (reply : Int) : Except String Unit :=
  if reply = 1 ∨ reply = 2 then .ok ()
  else if reply = 0 then .error ("purge: job not found for " ++ operation)
  else if reply = -1 then .error "purge: job already completed"
  else if reply = -2 then .error "purge: job already failed"
  else if reply = -3 then .error "purge: job already cancelled"
  else .error ("purge: unexpected " ++ operation ++ " reply: " ++ toString reply)

namespace JobKeys

variable (k : JobKeys)

/-- `IsWorkerAlive`, when its two reads are one. -/
def isWorkerAlive (id : LockId) : Bool := (k.workers id).any (· ∈ k.heartbeats)

/-- `SMEMBERS` on the key of the active jobs. The key holds a list, so Redis refuses the
command unless the list is empty. -/
def loadSetMembers : Except RedisError (List LockId) :=
  if k.active = [] then .ok [] else .error .wrongType

/-- What `recoverStuckJobs` does with one job. -/
def recoverOne (now : Millis) (k : JobKeys) (id : LockId) : JobKeys :=
  if k.isWorkerAlive id then k
  else
    match k.job? id with
    | none => k
    | some job =>
        let job :=
          { job with status := .pending, error := "Recovered from worker crash", updatedAt := now }
        (recoverStuckJob id job k).2

def recoverStuckJobs (now : Millis) : JobKeys :=
  match k.loadSetMembers with
  | .error _ => k
  | .ok ids => ids.foldl (recoverOne now) k

end JobKeys

end RedisSmq
