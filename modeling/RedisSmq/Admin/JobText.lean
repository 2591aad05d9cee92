import RedisSmq.Admin.Jobs
import RedisSmq.Data.Json

/-!
# The stored texts of purge jobs

A purge job is stored as the JSON text of its value, with the fields in the order of their
declaration. The scripts do not parse the text: each searches it for the member `status`
and compares the digit that follows with the statuses it is given as arguments. Here are
the five scripts that do so, on a hash that holds texts.
-/

namespace RedisSmq

/-- `PurgeJobStatus` as an integer. -/
def PurgeJobStatus.int : PurgeJobStatus → Nat
  | .pending => 0
  | .processing => 1
  | .completed => 2
  | .failed => 3
  | .canceled => 4

def PurgeJobStatus.string (s : PurgeJobStatus) : String := s.int.repr

/-- `BrowseFilter` as an integer. -/
def BrowseFilter.int : BrowseFilter → Nat
  | .deadLettered => 0
  | .acknowledged => 1
  | .scheduled => 2
  | .pending => 3
  | .published => 4

namespace PurgeJob

def statusName : JsonName := ⟨"status", rfl⟩

/-- A number with the option `omitempty`. -/
def omitZero (name : JsonName) (n : Nat) : List (JsonName × Json) :=
  if n = 0 then [] else [(name, .number n)]

/-- A text with the option `omitempty`. -/
def omitBlank (name : JsonName) (s : String) : List (JsonName × Json) :=
  if s = "" then [] else [(name, .str s)]

variable (uuid : LockId → String) (job : PurgeJob)

/-- `MarshalJSON` of the parameters of a queue. -/
def queueJson (q : QueueParams) : Json :=
  .object [(⟨"name", rfl⟩, .str q.name), (⟨"ns", rfl⟩, .str q.ns)]

/-- The members in front of the status. -/
def front : List (JsonName × Json) :=
  [(⟨"id", rfl⟩, .str (uuid job.id)),
    (⟨"payload", rfl⟩,
      .object [(⟨"queue", rfl⟩, queueJson job.queue),
        (⟨"messageType", rfl⟩, .number job.messageType.int)])]

/-- The members behind the status. -/
def back : List (JsonName × Json) :=
  [(⟨"createdAt", rfl⟩, .number job.createdAt)] ++
  omitZero ⟨"updatedAt", rfl⟩ job.updatedAt ++
  omitZero ⟨"startedAt", rfl⟩ job.startedAt ++
  omitZero ⟨"completedAt", rfl⟩ job.completedAt ++
  omitZero ⟨"batchSize", rfl⟩ job.batchSize ++
  omitZero ⟨"delay", rfl⟩ job.delayMs ++
  omitBlank ⟨"error", rfl⟩ job.error ++
  (job.jobMeta.map fun m =>
    (⟨"meta", rfl⟩, Json.object [(⟨"purged", rfl⟩, .number m.purged)])).toList

/-- The members of a job; `uuid` gives the texts of identifiers. -/
def members : List (JsonName × Json) :=
  front uuid job ++ (statusName, .number job.status.int) :: back job

/-- `mustMarshal`. -/
def marshal : String := String.ofList (Json.object (members uuid job)).chars

end PurgeJob

/-- The capture of the pattern that the scripts search for. -/
def statusStr? (data : String) : Option String :=
  (Json.findAt PurgeJob.statusName 0 data.toList).map fun found => String.ofList [found.2]

/-- The keys of all purge jobs, with texts in the hash. -/
structure JobTexts where
  jobs : Table LockId String
  pending : List LockId
  active : List LockId
  workers : LockId → Option WorkerId

namespace JobTexts

variable (t : JobTexts)

def setJob (id : LockId) (data : String) : JobTexts := { t with jobs := t.jobs.insert id data }

def lremPending (id : LockId) : JobTexts := { t with pending := t.pending.filter (· ≠ id) }

def lremActive (id : LockId) : JobTexts := { t with active := t.active.filter (· ≠ id) }

def delWorker (id : LockId) : JobTexts := { t with workers := Function.update t.workers id none }

/-- How every script begins: a job that is not found or has no status ends the script. -/
def withStatus (id : LockId) (branch : String → Int × JobTexts) : Int × JobTexts :=
  match t.jobs.lookup id with
  | none => (0, t)
  | some current =>
      match statusStr? current with
      | none => (0, t)
      | some status => branch status

variable (id : LockId) (data : String)

def startJob (worker : WorkerId) : Int × JobTexts :=
  t.withStatus id fun status =>
    if status = PurgeJobStatus.processing.string then (2, t)
    else if status = PurgeJobStatus.completed.string then (-1, t)
    else if status = PurgeJobStatus.failed.string then (-2, t)
    else if status = PurgeJobStatus.canceled.string then (-3, t)
    else if status ≠ PurgeJobStatus.pending.string then (0, t)
    else if id ∈ t.active then
      let t := t.lremActive id
      let t := { t with active := t.active ++ [id] }
      let t := t.setJob id data
      (1, { t with workers := Function.update t.workers id (some worker) })
    else (0, t)

/-- `complete-job` and `fail-job`. -/
def endJob (own other : PurgeJobStatus) : Int × JobTexts :=
  t.withStatus id fun status =>
    let cleaned := (t.lremActive id).delWorker id
    if status = own.string then (2, cleaned)
    else if status = other.string then (-1, cleaned)
    else if status = PurgeJobStatus.canceled.string then (-2, cleaned)
    else if status ≠ PurgeJobStatus.processing.string then (0, t)
    else (1, ((t.setJob id data).lremActive id).delWorker id)

def completeJob : Int × JobTexts := t.endJob id data .completed .failed

def failJob : Int × JobTexts := t.endJob id data .failed .completed

def cancelJob : Int × JobTexts :=
  t.withStatus id fun status =>
    let cleaned := ((t.lremPending id).lremActive id).delWorker id
    if status = PurgeJobStatus.canceled.string then (2, cleaned)
    else if status = PurgeJobStatus.completed.string then (-1, cleaned)
    else if status = PurgeJobStatus.failed.string then (-2, cleaned)
    else if status ≠ PurgeJobStatus.pending.string ∧
        status ≠ PurgeJobStatus.processing.string then (0, t)
    else (1, (((t.setJob id data).lremPending id).lremActive id).delWorker id)

def recoverStuckJob : Int × JobTexts :=
  t.withStatus id fun status =>
    let cleaned := (t.lremActive id).delWorker id
    if status = PurgeJobStatus.completed.string then (-1, cleaned)
    else if status = PurgeJobStatus.failed.string then (-2, cleaned)
    else if status = PurgeJobStatus.canceled.string then (-3, cleaned)
    else if status ≠ PurgeJobStatus.processing.string then (0, t)
    else
      let t := (t.setJob id data).lremActive id
      (1, { t with pending := id :: t.pending }.delWorker id)

end JobTexts

/-- The scripts that read the status of a job. -/
inductive JobScript where
  | start (worker : WorkerId)
  | complete
  | fail
  | cancel
  | recover
  deriving DecidableEq

namespace JobScript

/-- The script, on a hash that holds jobs. -/
def run (id : LockId) (job : PurgeJob) (k : JobKeys) : JobScript → Int × JobKeys
  | start worker => startJob id job k worker
  | complete => completeJob id job k
  | fail => failJob id job k
  | cancel => cancelJob id job k
  | recover => recoverStuckJob id job k

/-- The script, on a hash that holds texts. -/
def runText (id : LockId) (data : String) (t : JobTexts) : JobScript → Int × JobTexts
  | start worker => t.startJob id data worker
  | complete => t.completeJob id data
  | fail => t.failJob id data
  | cancel => t.cancelJob id data
  | recover => t.recoverStuckJob id data

end JobScript

/-- The texts are those of the jobs, and everything else is the same. -/
structure JobTexts.Stores (uuid : LockId → String) (t : JobTexts) (k : JobKeys) : Prop where
  jobs : ∀ id, t.jobs.lookup id = (k.jobs.lookup id).map (PurgeJob.marshal uuid)
  pending : t.pending = k.pending
  active : t.active = k.active
  workers : t.workers = k.workers

end RedisSmq
