import RedisSmq.Admin.JobText

/-!
# The status that the scripts read

The scripts search the text of a job for its status. Whatever the identifier, the names and
the error are, the first place that matches is the member `status` of the job, and the
digit there is its status. So the scripts do on the texts what they do on the jobs.
-/

namespace RedisSmq

/-- The digit of a status. -/
def PurgeJobStatus.digit : PurgeJobStatus → Char
  | .pending => '0'
  | .processing => '1'
  | .completed => '2'
  | .failed => '3'
  | .canceled => '4'

namespace PurgeJobStatus

theorem chars_number (s : PurgeJobStatus) : (Json.number s.int).chars = [s.digit] := by
  cases s <;> rfl

theorem string_eq (s : PurgeJobStatus) : s.string = String.ofList [s.digit] := by
  cases s <;> rfl

theorem string_injective : Function.Injective string := by
  intro s s' h
  cases s <;> cases s' <;> revert h <;> decide

end PurgeJobStatus

namespace PurgeJob

variable (uuid : LockId → String) (job : PurgeJob)

/-- No member in front of the status has its name, at any depth. -/
theorem firstIn_front (i : Nat) : Json.firstIn statusName i (front uuid job) = none := by
  have hname : ∀ n ∈ [(⟨"id", rfl⟩ : JsonName), ⟨"payload", rfl⟩, ⟨"queue", rfl⟩, ⟨"name", rfl⟩,
      ⟨"ns", rfl⟩, ⟨"messageType", rfl⟩], n ≠ statusName := by decide
  simp only [List.forall_mem_cons] at hname
  obtain ⟨hid, hpayload, hqueue, hqname, hns, htype, -⟩ := hname
  simp only [front, queueJson, Json.firstIn, Json.firstAt, if_neg hid, if_neg hpayload,
    if_neg hqueue, if_neg hqname, if_neg hns, if_neg htype, Option.or_none]

/-- The text of a job around its status. -/
theorem toList_marshal :
    ∃ after, (marshal uuid job).toList =
      '\x7b' :: Json.frontChars (front uuid job) ++
        (Json.label statusName ++ job.status.digit :: after) := by
  refine ⟨Json.comma (back job) ++ Json.memberChars (back job), ?_⟩
  rw [marshal, String.toList_ofList, Json.chars, members, Json.memberChars_append,
    Json.memberChars, job.status.chars_number]
  rfl

/-- The search ends at the status of the job. -/
theorem findAt_marshal :
    Json.findAt statusName 0 (marshal uuid job).toList =
      some (('\x7b' :: Json.frontChars (front uuid job)).length, job.status.digit) := by
  have hdigit : Json.headDigit? [job.status.digit] = some job.status.digit := by
    cases job.status <;> rfl
  rw [marshal, String.toList_ofList, Json.findAt_zero_chars, Json.firstAt, members,
    Json.firstIn_append, firstIn_front, Option.none_or, Json.firstIn, if_pos rfl,
    job.status.chars_number, hdigit, List.length_cons, Nat.zero_add, Nat.add_comm 1]
  rfl

theorem statusStr_marshal : statusStr? (marshal uuid job) = some job.status.string := by
  rw [statusStr?, findAt_marshal, job.status.string_eq]
  rfl

end PurgeJob

namespace JobTexts

variable {uuid : LockId → String} {t : JobTexts} {k : JobKeys}

namespace Stores

section

variable (h : t.Stores uuid k)

include h

theorem setJob (id : LockId) (job : PurgeJob) :
    (t.setJob id (PurgeJob.marshal uuid job)).Stores uuid (k.setJob id job) where
  jobs := by
    intro id'
    by_cases hid : id' = id
    · subst hid
      simp [JobTexts.setJob, JobKeys.setJob]
    · simp only [JobTexts.setJob, JobKeys.setJob, AList.lookup_insert_ne hid]
      exact h.jobs id'
  pending := h.pending
  active := h.active
  workers := h.workers

theorem lremPending (id : LockId) : (t.lremPending id).Stores uuid (k.lremPending id) :=
  ⟨h.jobs, by rw [JobTexts.lremPending, JobKeys.lremPending, h.pending], h.active, h.workers⟩

theorem lremActive (id : LockId) : (t.lremActive id).Stores uuid (k.lremActive id) :=
  ⟨h.jobs, h.pending, by rw [JobTexts.lremActive, JobKeys.lremActive, h.active], h.workers⟩

theorem delWorker (id : LockId) : (t.delWorker id).Stores uuid (k.delWorker id) :=
  ⟨h.jobs, h.pending, h.active, by rw [JobTexts.delWorker, JobKeys.delWorker, h.workers]⟩

/-- A script that finds no job does nothing, and otherwise it branches on the text of the
status. -/
theorem withStatus (id : LockId) (branch : String → Int × JobTexts) :
    t.withStatus id branch =
      match k.job? id with
      | none => (0, t)
      | some job => branch job.status.string := by
  have hjob := h.jobs id
  unfold JobTexts.withStatus JobKeys.job?
  rw [hjob]
  cases k.jobs.lookup id with
  | none => rfl
  | some job =>
    simp only [Option.map_some, PurgeJob.statusStr_marshal]

end

end Stores

/-- The reply and the effect of a script agree. -/
def Agrees (uuid : LockId → String) (r : Int × JobTexts) (r' : Int × JobKeys) : Prop :=
  r.1 = r'.1 ∧ r.2.Stores uuid r'.2

section Scripts

open PurgeJobStatus (string_injective)

variable (h : t.Stores uuid k) (id : LockId) (job : PurgeJob)
include h

theorem Stores.startJob (worker : WorkerId) :
    Agrees uuid (t.startJob id (PurgeJob.marshal uuid job) worker)
      (RedisSmq.startJob id job k worker) := by
  unfold JobTexts.startJob RedisSmq.startJob
  rw [h.withStatus]
  cases k.job? id with
  | none => exact ⟨rfl, h⟩
  | some current =>
    simp only [string_injective.eq_iff, ne_eq]
    cases current.status with
    | pending =>
      change Agrees uuid (if id ∈ t.active then _ else _) (if id ∈ k.active then _ else _)
      rw [h.active]
      split
      · have hset := (h.lremActive id).setJob id job
        refine ⟨rfl, hset.jobs, hset.pending, ?_, ?_⟩
        · exact congrArg (· ++ [id]) (h.lremActive id).active
        · exact congrArg (Function.update · id (some worker)) h.workers
      · exact ⟨rfl, h⟩
    | processing | completed | failed | canceled => exact ⟨rfl, h⟩

theorem Stores.endJob (own other : PurgeJobStatus) :
    Agrees uuid (t.endJob id (PurgeJob.marshal uuid job) own other)
      (RedisSmq.endJob id job k own other) := by
  have hcleaned := (h.lremActive id).delWorker id
  unfold JobTexts.endJob RedisSmq.endJob
  rw [h.withStatus]
  cases k.job? id with
  | none => exact ⟨rfl, h⟩
  | some current =>
    simp only [string_injective.eq_iff, ne_eq]
    split
    · exact ⟨rfl, hcleaned⟩
    split
    · exact ⟨rfl, hcleaned⟩
    split
    · exact ⟨rfl, hcleaned⟩
    split
    · exact ⟨rfl, h⟩
    · exact ⟨rfl, ((h.setJob id job).lremActive id).delWorker id⟩

theorem Stores.cancelJob :
    Agrees uuid (t.cancelJob id (PurgeJob.marshal uuid job)) (RedisSmq.cancelJob id job k) := by
  have hcleaned := ((h.lremPending id).lremActive id).delWorker id
  have hset := (((h.setJob id job).lremPending id).lremActive id).delWorker id
  unfold JobTexts.cancelJob RedisSmq.cancelJob
  rw [h.withStatus]
  cases k.job? id with
  | none => exact ⟨rfl, h⟩
  | some current =>
    simp only [string_injective.eq_iff, ne_eq]
    cases current.status with
    | pending => exact ⟨rfl, hset⟩
    | processing => exact ⟨rfl, hset⟩
    | completed | failed | canceled => exact ⟨rfl, hcleaned⟩

theorem Stores.recoverStuckJob :
    Agrees uuid (t.recoverStuckJob id (PurgeJob.marshal uuid job))
      (RedisSmq.recoverStuckJob id job k) := by
  have hcleaned := (h.lremActive id).delWorker id
  have hset := (h.setJob id job).lremActive id
  unfold JobTexts.recoverStuckJob RedisSmq.recoverStuckJob
  rw [h.withStatus]
  cases k.job? id with
  | none => exact ⟨rfl, h⟩
  | some current =>
    simp only [string_injective.eq_iff, ne_eq]
    cases current.status with
    | pending => exact ⟨rfl, h⟩
    | processing =>
      refine ⟨rfl, hset.jobs, congrArg (id :: ·) h.pending, hset.active, ?_⟩
      exact congrArg (Function.update · id none) h.workers
    | completed | failed | canceled => exact ⟨rfl, hcleaned⟩

theorem Stores.runText (script : JobScript) :
    Agrees uuid (script.runText id (PurgeJob.marshal uuid job) t) (script.run id job k) := by
  cases script with
  | start worker => exact h.startJob id job worker
  | complete => exact h.endJob id job .completed .failed
  | fail => exact h.endJob id job .failed .completed
  | cancel => exact h.cancelJob id job
  | recover => exact h.recoverStuckJob id job

end Scripts

end JobTexts

/-- What a decoder reads as the status: the value of the last member of the job itself, not
of its parts, that has the name. -/
def PurgeJob.decodedStatus (members : List (JsonName × Json)) : Option Json :=
  (members.reverse.find? fun member => member.1 = PurgeJob.statusName).map Prod.snd

theorem PurgeJob.name_ne_of_mem_back {job : PurgeJob} {member : JsonName × Json}
    (h : member ∈ PurgeJob.back job) : member.1 ≠ PurgeJob.statusName := by
  have hzero {name : JsonName} {n : Nat} (hmem : member ∈ omitZero name n) : member.1 = name := by
    unfold omitZero at hmem
    split at hmem
    · cases hmem
    · rw [List.mem_singleton.1 hmem]
  have hblank {name : JsonName} {e : String} (hmem : member ∈ omitBlank name e) :
      member.1 = name := by
    unfold omitBlank at hmem
    split at hmem
    · cases hmem
    · rw [List.mem_singleton.1 hmem]
  simp only [PurgeJob.back, List.mem_append, List.mem_singleton, Option.mem_toList,
    Option.map_eq_some_iff] at h
  rcases h with ((((((rfl | h) | h) | h) | h) | h) | h) | ⟨m, -, rfl⟩
  case inr => exact (by decide : (⟨"meta", rfl⟩ : JsonName) ≠ statusName)
  case inl.inr => rw [hblank h]; decide
  case inl.inl.inl.inl.inl.inl.inl =>
    exact (by decide : (⟨"createdAt", rfl⟩ : JsonName) ≠ statusName)
  all_goals rw [hzero h]; decide

theorem PurgeJob.decodedStatus_members (uuid : LockId → String) (job : PurgeJob) :
    PurgeJob.decodedStatus (PurgeJob.members uuid job) = some (.number job.status.int) := by
  have hback : (back job).reverse.find? (fun member => member.1 = statusName) = none := by
    rw [List.find?_eq_none]
    intro member hmem heq
    exact name_ne_of_mem_back (List.mem_reverse.1 hmem) (of_decide_eq_true heq)
  rw [decodedStatus, members, List.reverse_append, List.reverse_cons, List.append_assoc,
    List.find?_append, hback, Option.none_or]
  rfl

/-- The first match in the text of a job is its own status, which is also what is decoded,
and each script does with the texts what it does with the jobs. -/
theorem job_status_is_read (uuid : LockId → String) (job : PurgeJob) :
    (∃ before after,
      (PurgeJob.marshal uuid job).toList =
        before ++ (Json.label PurgeJob.statusName ++ job.status.digit :: after) ∧
      before = '\x7b' :: Json.frontChars (PurgeJob.front uuid job) ∧
      Json.findAt PurgeJob.statusName 0 (PurgeJob.marshal uuid job).toList =
        some (before.length, job.status.digit)) ∧
    statusStr? (PurgeJob.marshal uuid job) = some job.status.string ∧
    PurgeJob.decodedStatus (PurgeJob.members uuid job) = some (.number job.status.int) ∧
    ∀ (script : JobScript) (id : LockId) (t : JobTexts) (k : JobKeys), t.Stores uuid k →
      JobTexts.Agrees uuid (script.runText id (PurgeJob.marshal uuid job) t)
        (script.run id job k) := by
  obtain ⟨after, htext⟩ := PurgeJob.toList_marshal uuid job
  refine ⟨⟨_, after, htext, rfl, PurgeJob.findAt_marshal uuid job⟩,
    PurgeJob.statusStr_marshal uuid job, PurgeJob.decodedStatus_members uuid job, ?_⟩
  intro script id t k hstores
  exact hstores.runText id job script

/-- A job whose names and error look like a status. -/
def namedStatus : PurgeJob where
  id := 7
  queue := ⟨"status", "status", by decide, by decide⟩
  messageType := .pending
  status := .failed
  createdAt := 1700000000000
  batchSize := 1000
  delayMs := 5000
  error := "\"status\":1"
  jobMeta := some { purged := 12 }

/-- The job is processed by worker 9. -/
def processingKeys : JobKeys :=
  { JobKeys.empty.setJob 7 { namedStatus with status := .processing } with
    active := [7]
    workers := fun _ => some 9 }

/-- The same keys with the text of the job. -/
def processingTexts : JobTexts where
  jobs := AList.insert 7
    (PurgeJob.marshal (fun _ => "status") { namedStatus with status := .processing }) ∅
  pending := []
  active := [7]
  workers _ := some 9

theorem job_status_is_read_namedStatus :
    statusStr? (PurgeJob.marshal (fun _ => "status") namedStatus) = some "3" ∧
      processingTexts.Stores (fun _ => "status") processingKeys ∧
      ((JobScript.fail.run 7 namedStatus processingKeys).2.job? 7).map PurgeJob.status =
        some .failed ∧
      JobTexts.Agrees (fun _ => "status")
        (JobScript.fail.runText 7 (PurgeJob.marshal (fun _ => "status") namedStatus)
          processingTexts)
        (JobScript.fail.run 7 namedStatus processingKeys) := by
  have hempty : JobTexts.Stores (fun _ => "status") ⟨∅, [], [], fun _ => none⟩ JobKeys.empty :=
    ⟨fun _ => rfl, rfl, rfl, rfl⟩
  have hstores : processingTexts.Stores (fun _ => "status") processingKeys :=
    ⟨(hempty.setJob 7 { namedStatus with status := .processing }).jobs, rfl, rfl, rfl⟩
  have hread := job_status_is_read (fun _ => "status") namedStatus
  exact ⟨hread.2.1, hstores, rfl,
    hread.2.2.2 .fail 7 processingTexts processingKeys hstores⟩

end RedisSmq
