import RedisSmq.Admin.PurgeCases

/-!
# What a step does to one job

Seen from one job, the keys are its stored value and how often its identifier is in each of
the two lists. `JobMove` says what a step can do to that, and with which action; everything
about the life of a job is derived from it.
-/

namespace RedisSmq

/-- A job as the keys show it. -/
structure JobView where
  job : Option PurgeJob
  pending : Nat
  active : Nat

/-- What the keys show of a job. -/
def JobKeys.view (k : JobKeys) (id : LockId) : JobView where
  job := k.job? id
  pending := k.pending.count id
  active := k.active.count id

/-- The moves of one job. -/
inductive JobMove (id : LockId) : PurgeAction → JobView → JobView → Prop
  | idle {a : PurgeAction} {v : JobView} : JobMove id a v v
  | created {q : QueueParams} {filter : BrowseFilter} {t : Millis} {p n : Nat} :
      JobMove id (.proceed (.creating id q filter) t) ⟨none, p, n⟩
        ⟨some (newPurgeJob id q filter t), p + 1, n⟩
  | acquired {w : WorkerId} {job : Option PurgeJob} {p n : Nat} :
      JobMove id (.acquire w) ⟨job, p + 1, n⟩ ⟨job, p, n + 1⟩
  | started {w : WorkerId} {job current : PurgeJob} {t : Millis} {p n : Nat} (hid : job.id = id)
      (hst : current.status = .pending) (hn : 0 < n) :
      JobMove id (.proceed (.starting w job) t) ⟨some current, p, n⟩
        ⟨some { job with status := .processing, startedAt := t }, p, 1⟩
  | saved {x : Execution} {t : Millis} {v : JobView} (hid : x.job.id = id) :
      JobMove id (.proceed (.saving x) t) v
        ⟨some { x.job with jobMeta := some { purged := x.purged }, updatedAt := t }, v.pending,
          v.active⟩
  | completed {x : Execution} {t : Millis} {current : PurgeJob} {p n : Nat} (hid : x.job.id = id)
      (hst : current.status = .processing) :
      JobMove id (.proceed (.completing x) t) ⟨some current, p, n⟩
        ⟨some { x.job with
          status := .completed, jobMeta := some { purged := x.purged }, completedAt := t }, p, 0⟩
  | failed {x : Execution} {e : String} {t : Millis} {current : PurgeJob} {p n : Nat}
      (hid : x.job.id = id) (hst : current.status = .processing) :
      JobMove id (.proceed (.failing x e) t) ⟨some current, p, n⟩
        ⟨some { x.job with status := .failed, error := e, completedAt := t }, p, 0⟩
  | canceled {q : QueueParams} {job current : PurgeJob} {t : Millis} {p n : Nat}
      (hid : job.id = id) (hst : current.status.isTerminal = false) :
      JobMove id (.proceed (.canceling q job) t) ⟨some current, p, n⟩
        ⟨some { job with status := .canceled, completedAt := t }, 0, 0⟩
  | cleaned {a : PurgeAction} {current : PurgeJob} {p p' n : Nat}
      (hst : current.status.isTerminal = true) (hp : p' = p ∨ p' = 0) :
      JobMove id a ⟨some current, p, n⟩ ⟨some current, p', 0⟩

namespace JobKeys

variable {k : JobKeys} {id id' : LockId} {job : PurgeJob}

theorem job?_setJob_self : (k.setJob id job).job? id = some job := AList.lookup_insert _

theorem job?_setJob_of_ne (h : id' ≠ id) : (k.setJob id job).job? id' = k.job? id' :=
  AList.lookup_insert_ne h

theorem count_filter_self (l : List LockId) (id : LockId) : (l.filter (· ≠ id)).count id = 0 := by
  rw [List.count_eq_zero]
  intro hmem
  simpa using (List.mem_filter.1 hmem).2

theorem count_filter_of_ne (l : List LockId) (h : id' ≠ id) :
    (l.filter (· ≠ id)).count id' = l.count id' :=
  List.count_filter (by simpa using h)

/-! Commands on another job are not seen. -/

theorem view_setJob_of_ne (h : id' ≠ id) : (k.setJob id job).view id' = k.view id' := by
  simp only [view, job?_setJob_of_ne h]
  rfl

theorem view_lremPending_of_ne (h : id' ≠ id) : (k.lremPending id).view id' = k.view id' := by
  simp only [view, lremPending, count_filter_of_ne _ h]
  rfl

theorem view_lremActive_of_ne (h : id' ≠ id) : (k.lremActive id).view id' = k.view id' := by
  simp only [view, lremActive, count_filter_of_ne _ h]
  rfl

theorem view_setJob : (k.setJob id job).view id = { k.view id with job := some job } := by
  simp only [view, job?_setJob_self]
  rfl

theorem view_lremPending : (k.lremPending id).view id = { k.view id with pending := 0 } := by
  simp only [view, lremPending, count_filter_self]
  rfl

theorem view_lremActive : (k.lremActive id).view id = { k.view id with active := 0 } := by
  simp only [view, lremActive, count_filter_self]
  rfl

theorem view_delWorker : (k.delWorker id).view id' = k.view id' := rfl

/-- `recoverStuckJobs` does nothing: it finds no jobs, or it cannot read them. -/
theorem recoverStuckJobs_eq (k : JobKeys) (now : Millis) : k.recoverStuckJobs now = k := by
  unfold recoverStuckJobs loadSetMembers
  by_cases h : k.active = []
  · rw [if_pos h]
    rfl
  · rw [if_neg h]

end JobKeys

section Scripts

variable {k : JobKeys} {id id' : LockId} {job current : PurgeJob}
variable {t : Millis}

/-- A script that is given one job is not seen by another one. -/
private theorem view_scripts_of_ne (h : id' ≠ id) (w : WorkerId) (own other : PurgeJobStatus) :
    (createJob id job k).2.view id' = k.view id' ∧ (startJob id job k w).2.view id' = k.view id' ∧
      (endJob id job k own other).2.view id' = k.view id' ∧
      (cancelJob id job k).2.view id' = k.view id' := by
  have hset : (k.setJob id job).view id' = k.view id' := JobKeys.view_setJob_of_ne h
  have hcleaned : ((k.lremActive id).delWorker id).view id' = k.view id' := by
    rw [JobKeys.view_delWorker, JobKeys.view_lremActive_of_ne h]
  have hboth : (((k.lremPending id).lremActive id).delWorker id).view id' = k.view id' := by
    rw [JobKeys.view_delWorker, JobKeys.view_lremActive_of_ne h, JobKeys.view_lremPending_of_ne h]
  refine ⟨?_, ?_, ?_, ?_⟩
  · unfold createJob
    split
    · rfl
    · simp only [JobKeys.view, List.count_cons_of_ne (Ne.symm h)] at hset ⊢
      exact hset
  · unfold startJob
    repeat' split
    all_goals try rfl
    have happend : ((k.active.filter (· ≠ id)) ++ [id]).count id' = k.active.count id' := by
      rw [List.count_append, JobKeys.count_filter_of_ne _ h, List.count_singleton]
      simp [Ne.symm h]
    simp only [JobKeys.view] at hset ⊢
    simp only [JobKeys.setJob, JobKeys.lremActive, JobKeys.job?, happend] at hset ⊢
    exact hset
  · unfold endJob
    repeat' split
    all_goals try first | rfl | exact hcleaned
    rw [JobKeys.view_delWorker, JobKeys.view_lremActive_of_ne h, hset]
  · unfold cancelJob
    repeat' split
    all_goals try first | rfl | exact hboth
    all_goals
      rw [JobKeys.view_delWorker, JobKeys.view_lremActive_of_ne h,
        JobKeys.view_lremPending_of_ne h, hset]

private theorem createJob_move {q : QueueParams} {filter : BrowseFilter} :
    JobMove id' (.proceed (.creating id q filter) t) (k.view id')
      ((createJob id (newPurgeJob id q filter t) k).2.view id') := by
  by_cases h : id' = id
  · subst h
    unfold createJob
    cases hjob : k.job? id' with
    | some job => exact .idle
    | none =>
      have hbefore : k.view id' = ⟨none, k.pending.count id', k.active.count id'⟩ := by
        rw [JobKeys.view, hjob]
      have hafter : ({ k.setJob id' (newPurgeJob id' q filter t) with
          pending := id' :: k.pending } : JobKeys).view id' =
          ⟨some (newPurgeJob id' q filter t), k.pending.count id' + 1, k.active.count id'⟩ := by
        rw [JobKeys.view, List.count_cons_self]
        exact congrArg (JobView.mk · _ _) JobKeys.job?_setJob_self
      rw [hbefore]
      exact hafter ▸ .created
  · rw [(view_scripts_of_ne h 0 .failed .failed).1]
    exact .idle

private theorem startJob_move {w : WorkerId} :
    JobMove id' (.proceed (.starting w job) t) (k.view id')
      ((startJob job.id { job with status := .processing, startedAt := t } k w).2.view id') := by
  by_cases h : id' = job.id
  · subst h
    unfold startJob
    cases hjob : k.job? job.id with
    | none => exact .idle
    | some current =>
      cases hst : current.status with
      | processing | completed | failed | canceled =>
        simp only [hst]
        exact .idle
      | pending =>
        by_cases hactive : job.id ∈ k.active
        · simp only [hst, if_pos hactive]
          have hbefore : k.view job.id =
              ⟨some current, k.pending.count job.id, k.active.count job.id⟩ := by
            rw [JobKeys.view, hjob]
          have hcount : ((k.active.filter (· ≠ job.id)) ++ [job.id]).count job.id = 1 := by
            rw [List.count_append, JobKeys.count_filter_self, List.count_singleton_self]
          rw [hbefore, JobKeys.view]
          simp only [JobKeys.setJob, JobKeys.lremActive, JobKeys.job?, hcount,
            AList.lookup_insert]
          exact .started rfl hst (List.count_pos_iff.2 hactive)
        · simp only [hst, if_neg hactive]
          exact .idle
  · rw [(view_scripts_of_ne h w .failed .failed).2.1]
    exact .idle

/-- The script ends a job that is being processed, or at most cleans up after one that is
over. -/
private theorem endJob_view {own other : PurgeJobStatus} (hown : own.isTerminal = true)
    (hother : other.isTerminal = true) :
    (endJob id job k own other).2.view id = k.view id ∨
      (∃ current, current.status.isTerminal = true ∧
        k.view id = ⟨some current, k.pending.count id, k.active.count id⟩ ∧
        (endJob id job k own other).2.view id = ⟨some current, k.pending.count id, 0⟩) ∨
      ∃ current, current.status = .processing ∧
        k.view id = ⟨some current, k.pending.count id, k.active.count id⟩ ∧
        (endJob id job k own other).2.view id = ⟨some job, k.pending.count id, 0⟩ := by
  unfold endJob
  cases hjob : k.job? id with
  | none => exact .inl rfl
  | some current =>
    have hbefore : k.view id = ⟨some current, k.pending.count id, k.active.count id⟩ := by
      rw [JobKeys.view, hjob]
    have hcleaned : ((k.lremActive id).delWorker id).view id =
        ⟨some current, k.pending.count id, 0⟩ := by
      rw [JobKeys.view_delWorker, JobKeys.view_lremActive, hbefore]
    have hended : (((k.setJob id job).lremActive id).delWorker id).view id =
        ⟨some job, k.pending.count id, 0⟩ := by
      rw [JobKeys.view_delWorker, JobKeys.view_lremActive, JobKeys.view_setJob, hbefore]
    dsimp only
    split
    · rename_i hst
      exact .inr (.inl ⟨current, hst ▸ hown, hbefore, hcleaned⟩)
    split
    · rename_i hst
      exact .inr (.inl ⟨current, hst ▸ hother, hbefore, hcleaned⟩)
    split
    · rename_i hst
      exact .inr (.inl ⟨current, by rw [hst]; rfl, hbefore, hcleaned⟩)
    split
    · exact .inl rfl
    · rename_i hst
      exact .inr (.inr ⟨current, not_not.1 hst, hbefore, hended⟩)

private theorem endJob_move {a : PurgeAction} {own other : PurgeJobStatus}
    (hown : own.isTerminal = true) (hother : other.isTerminal = true)
    (hended : ∀ {current : PurgeJob} {p n : Nat}, current.status = .processing →
      JobMove id a ⟨some current, p, n⟩ ⟨some job, p, 0⟩) :
    JobMove id' a (k.view id') ((endJob id job k own other).2.view id') := by
  by_cases h : id' = id
  · subst h
    rcases @endJob_view k id' job own other hown hother with
      hidle | ⟨current, hst, hbefore, hafter⟩ | ⟨current, hst, hbefore, hafter⟩
    · rw [hidle]
      exact .idle
    · rw [hafter, hbefore]
      exact .cleaned hst (.inl rfl)
    · rw [hafter, hbefore]
      exact hended hst
  · rw [(view_scripts_of_ne h 0 _ _).2.2.1]
    exact .idle

private theorem cancelJob_move {q : QueueParams} :
    JobMove id' (.proceed (.canceling q job) t) (k.view id')
      ((cancelJob job.id { job with status := .canceled, completedAt := t } k).2.view id') := by
  by_cases h : id' = job.id
  · subst h
    unfold cancelJob
    cases hjob : k.job? job.id with
    | none => exact .idle
    | some current =>
      have hbefore : k.view job.id =
          ⟨some current, k.pending.count job.id, k.active.count job.id⟩ := by
        rw [JobKeys.view, hjob]
      have hcleaned : (((k.lremPending job.id).lremActive job.id).delWorker job.id).view job.id =
          ⟨some current, 0, 0⟩ := by
        rw [JobKeys.view_delWorker, JobKeys.view_lremActive, JobKeys.view_lremPending, hbefore]
      have hended : ∀ job' : PurgeJob,
          ((((k.setJob job.id job').lremPending job.id).lremActive job.id).delWorker
            job.id).view job.id = ⟨some job', 0, 0⟩ := by
        intro job'
        rw [JobKeys.view_delWorker, JobKeys.view_lremActive, JobKeys.view_lremPending,
          JobKeys.view_setJob]
      cases hst : current.status with
      | completed | failed | canceled =>
        simp only [hst, hcleaned, hbefore]
        exact .cleaned (by rw [hst]; rfl) (.inr rfl)
      | pending | processing =>
        simp only [hst, hended, hbefore]
        exact .canceled rfl (by rw [hst]; rfl)
  · rw [(view_scripts_of_ne h 0 .failed .failed).2.2.2]
    exact .idle

private theorem setJob_move {x : Execution} :
    JobMove id' (.proceed (.saving x) t) (k.view id')
      ((k.setJob x.job.id { x.job with
        jobMeta := some { purged := x.purged }, updatedAt := t }).view id') := by
  by_cases h : id' = x.job.id
  · subst h
    rw [JobKeys.view_setJob]
    exact .saved rfl
  · rw [JobKeys.view_setJob_of_ne h]
    exact .idle

end Scripts

/-- The keys of the jobs after the next step of a task. -/
def PurgeTask.keysAfter (t : Millis) (k : JobKeys) : PurgeTask → JobKeys
  | .creating id q filter => (createJob id (newPurgeJob id q filter t) k).2
  | .canceling _ job => (cancelJob job.id { job with status := .canceled, completedAt := t } k).2
  | .starting w job =>
      (startJob job.id { job with status := .processing, startedAt := t } k w).2
  | .saving x =>
      k.setJob x.job.id { x.job with jobMeta := some { purged := x.purged }, updatedAt := t }
  | .completing x =>
      (completeJob x.job.id { x.job with
        status := .completed, jobMeta := some { purged := x.purged }, completedAt := t } k).2
  | .failing x e =>
      (failJob x.job.id { x.job with status := .failed, error := e, completedAt := t } k).2
  | _ => k

section Steps

variable {s s' : PurgeSystem} {t : Millis} {task : PurgeTask} {c : Control} {keys : JobKeys}
variable {next : Option PurgeTask} {a : PurgeAction}

theorem PurgeSystem.go_keys (h : s.go t task = some (c, keys, next)) :
    keys = task.keysAfter t s.keys := by
  cases task with
  | loading => cases h
  | deleting x count success todo =>
    cases todo with
    | nil =>
      cases h
      rfl
    | cons b todo =>
      simp only [PurgeSystem.go] at h
      split at h <;> cases h <;> rfl
  | saving | removing | completing | failing =>
    cases h
    rfl
  | trimming =>
    simp only [PurgeSystem.go] at h
    split at h
    · cases h
      rfl
    · cases h
      rfl
    · split at h <;> cases h <;> rfl
  | locking | creating | canceling | acquired | starting | checking | fetching | finishing
  | unlocking =>
    simp only [PurgeSystem.go] at h
    split at h <;> cases h <;> rfl

/-- Every step moves a job in one of these ways. -/
theorem JobMove.of_step (h : s.step a = some s') (id : LockId) :
    JobMove id a (s.keys.view id) (s'.keys.view id) := by
  cases PurgeStep.of_step h with
  | control | enqueue | cancel | abandon | loadFailed | load | beat | lapse | inspect | orphan =>
    exact .idle
  | @acquire w id' hlast =>
    have hpending : s.keys.pending = s.keys.pending.dropLast ++ [id'] :=
      (List.dropLast_append_getLast? id' hlast).symm
    have hcount : s.keys.pending.count id =
        s.keys.pending.dropLast.count id + [id'].count id := by
      rw [← List.count_append, ← hpending]
    by_cases hid : id = id'
    · subst hid
      rw [List.count_singleton_self] at hcount
      rw [JobKeys.view, hcount]
      simp only [JobKeys.view, JobKeys.activate, List.count_cons_self]
      exact .acquired
    · have hne : [id'].count id = 0 := by simp [Ne.symm hid]
      rw [hne] at hcount
      have hview : (s.keys.activate id').view id = s.keys.view id := by
        simp only [JobKeys.view, JobKeys.activate, List.count_cons_of_ne (Ne.symm hid), hcount]
        rfl
      exact hview ▸ .idle
  | @proceed task t c keys next hmem hgo =>
    obtain rfl := PurgeSystem.go_keys hgo
    cases task with
    | creating => exact createJob_move
    | canceling => exact cancelJob_move
    | starting => exact startJob_move
    | saving => exact setJob_move
    | completing => exact endJob_move rfl rfl (.completed rfl)
    | failing => exact endJob_move rfl rfl (.failed rfl)
    | _ => exact .idle
  | recoverStuckJobs =>
    rw [JobKeys.recoverStuckJobs_eq]
    exact .idle

end Steps

end RedisSmq
