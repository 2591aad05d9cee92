import RedisSmq.Admin.JobMoves
import RedisSmq.System.Conduct

/-!
# The life of a purge job

The scripts let the status of a job move forward only, and keep its identifier in one list
at most. The progress of a job is saved past the scripts: the worker writes its own copy of
the job, with the status that the job had when it was started, and thereby revives a job
that was cancelled in the meantime. If a job is saved only while it is being processed, a
job that is over stays as it is.

The recovery of stuck jobs has no effect. It reads the list of active jobs as if it were a
set.
-/

namespace RedisSmq

/-- The changes of the status of a job. -/
def PurgeJobStatus.canBecome : PurgeJobStatus → PurgeJobStatus → Bool
  | .pending, .processing | .pending, .canceled => true
  | .processing, .completed | .processing, .failed | .processing, .canceled => true
  | .processing, .pending => true
  | _, _ => false

theorem PurgeJobStatus.not_canBecome {st st' : PurgeJobStatus} (h : st.isTerminal = true) :
    st.canBecome st' = false := by
  cases st with
  | pending | processing => cases h
  | completed | failed | canceled => cases st' <;> rfl

/-- The progress that the action saves. -/
def PurgeAction.saves : PurgeAction → Option Execution
  | .proceed (.saving x) _ => some x
  | _ => none

/-- A job is saved only while it is being processed. -/
def PurgeSystem.SavesProcessing (s : PurgeSystem) (a : PurgeAction) : Prop :=
  ∀ x ∈ a.saves, ∃ job ∈ s.keys.job? x.job.id, job.status = .processing
  deriving Decidable

/-- The identifier of a job is in one list at most, and in none if the job is not stored. -/
structure JobView.Listed (v : JobView) : Prop where
  once : v.pending + v.active ≤ 1
  stored : v.job = none → v.pending = 0 ∧ v.active = 0

/-- Moreover, the lists are those of the status of the job. -/
structure JobView.Orderly (v : JobView) : Prop extends v.Listed where
  terminal : ∀ job, v.job = some job → job.status.isTerminal = true → v.pending = 0 ∧ v.active = 0
  waiting : ∀ job, v.job = some job → 0 < v.pending → job.status = .pending

section Moves

variable {id : LockId} {a : PurgeAction} {v v' : JobView}

theorem JobMove.listed (h : JobMove id a v v') (hv : v.Listed) : v'.Listed := by
  obtain ⟨honce, hstored⟩ := hv
  cases h with
  | idle => exact ⟨honce, hstored⟩
  | created =>
    obtain ⟨hp, hn⟩ := hstored rfl
    simp only at hp hn
    exact ⟨by simp only; omega, fun hnone => (by cases hnone)⟩
  | acquired =>
    refine ⟨by simp only at honce ⊢; omega, fun hnone => ?_⟩
    have := (hstored hnone).1
    simp only at this
    omega
  | started hid hst hn =>
    exact ⟨by simp only at honce ⊢; omega, fun hnone => (by cases hnone)⟩
  | saved hid => exact ⟨honce, fun hnone => (by cases hnone)⟩
  | completed | failed | canceled | cleaned =>
    refine ⟨?_, fun hnone => (by cases hnone)⟩
    simp only at honce ⊢
    omega

/-- A move keeps the lists in order and changes the status in an allowed way, if jobs are
saved only while they are being processed. -/
theorem JobMove.orderly (h : JobMove id a v v') (hv : v.Orderly)
    (hsaves : ∀ x ∈ a.saves, x.job.id = id → x.job.status = .processing ∧
      ∃ job, v.job = some job ∧ job.status = .processing) :
    v'.Orderly ∧ (v.job = none → ∀ job', v'.job = some job' → job'.status = .pending) ∧
      ∀ job, v.job = some job → ∃ job', v'.job = some job' ∧
        (job'.status = job.status ∨ job.status.canBecome job'.status = true) := by
  have hlisted := h.listed hv.toListed
  obtain ⟨⟨honce, hstored⟩, hterminal, hwaiting⟩ := hv
  cases h with
  | idle =>
    exact ⟨⟨hlisted, hterminal, hwaiting⟩, fun hnone job' hjob' =>
      (by cases hnone.symm.trans hjob'),
      fun job hjob => ⟨job, hjob, .inl rfl⟩⟩
  | created =>
    obtain ⟨hp, hn⟩ := hstored rfl
    refine ⟨⟨hlisted, fun job hjob hst => ?_, fun job hjob _ => ?_⟩, fun _ job hjob => ?_,
      fun job hjob => (by cases hjob)⟩
    all_goals cases hjob
    · cases hst
    · rfl
    · rfl
  | acquired =>
    refine ⟨⟨hlisted, fun job hjob hst => ?_, fun job hjob _ => ?_⟩,
      fun hnone job' hjob' => (by cases hnone.symm.trans hjob'),
      fun job hjob => ⟨job, hjob, .inl rfl⟩⟩
    · have := (hterminal job hjob hst).1
      simp only at this
      omega
    · exact hwaiting job hjob (Nat.succ_pos _)
  | started hid hst hn =>
    refine ⟨⟨hlisted, fun job hjob hst => ?_, fun job hjob hp => ?_⟩,
      fun hnone => (by cases hnone), fun job hjob => ?_⟩
    · cases hjob
      cases hst
    · simp only at honce hp
      omega
    · cases hjob
      exact ⟨_, rfl, .inr (by rw [hst]; rfl)⟩
  | @saved x t v hid =>
    obtain ⟨hx, current, hcurrent, hst⟩ := hsaves x rfl hid
    refine ⟨⟨hlisted, fun job hjob hend => ?_, fun job hjob hp => ?_⟩,
      fun hnone => (by cases hnone.symm.trans hcurrent), fun job hjob => ?_⟩
    · cases hjob
      rw [hx] at hend
      cases hend
    · have := hwaiting current hcurrent hp
      rw [hst] at this
      cases this
    · cases hcurrent.symm.trans hjob
      exact ⟨_, rfl, .inl (hx.trans hst.symm)⟩
  | @completed x t current p n hid hst | @failed x e t current p n hid hst =>
    -- A job that is being processed is not in the pending list any more.
    have hp : p = 0 := by
      by_contra hne
      have := hwaiting current rfl (Nat.pos_of_ne_zero hne)
      rw [hst] at this
      cases this
    subst hp
    refine ⟨⟨hlisted, fun _ _ _ => ⟨rfl, rfl⟩, fun _ _ hp => absurd hp (Nat.lt_irrefl 0)⟩,
      fun hnone => (by cases hnone), fun job hjob => ?_⟩
    cases hjob
    exact ⟨_, rfl, .inr (by rw [hst]; rfl)⟩
  | @canceled q job current t p n hid hst =>
    refine ⟨⟨hlisted, fun _ _ _ => ⟨rfl, rfl⟩, fun _ _ hp => absurd hp (Nat.lt_irrefl 0)⟩,
      fun hnone => (by cases hnone), fun job' hjob' => ?_⟩
    cases hjob'
    refine ⟨_, rfl, .inr ?_⟩
    cases hcurrent : current.status with
    | pending | processing => rfl
    | completed | failed | canceled =>
      rw [hcurrent] at hst
      cases hst
  | @cleaned a current p p' n hst hp =>
    obtain ⟨hp₀, -⟩ := hterminal current rfl hst
    simp only at hp₀
    have hp' : p' = 0 := by omega
    subst hp'
    exact ⟨⟨hlisted, fun _ _ _ => ⟨rfl, rfl⟩, fun _ _ hp => absurd hp (Nat.lt_irrefl 0)⟩,
      fun hnone => (by cases hnone), fun job hjob => ⟨job, hjob, .inl rfl⟩⟩

end Moves

section Runs

variable {s s' : PurgeSystem} {a : PurgeAction} {cfg : Config}
variable {shape : QueueParams → QueueType × List GroupId} {now : Millis} {as : List PurgeAction}

/-- All jobs are listed as they should be, and the workers believe what they should. -/
structure PurgeSystem.Orderly (s : PurgeSystem) : Prop where
  believes : s.Believes
  views : ∀ id, (s.keys.view id).Orderly

theorem PurgeSystem.Orderly.move (h : s.Orderly) (hcond : s.SavesProcessing a)
    (hstep : s.step a = some s') (id : LockId) :
    (s'.keys.view id).Orderly ∧
      (s.keys.job? id = none → ∀ job', s'.keys.job? id = some job' → job'.status = .pending) ∧
      ∀ job, s.keys.job? id = some job → ∃ job', s'.keys.job? id = some job' ∧
        (job'.status = job.status ∨ job.status.canBecome job'.status = true) := by
  refine (JobMove.of_step hstep id).orderly (h.views id) fun x hx hid => ?_
  obtain ⟨job, hjob, hst⟩ := hcond x hx
  rw [hid] at hjob
  refine ⟨?_, job, hjob, hst⟩
  cases a with
  | proceed task t =>
    cases task with
    | saving y =>
      cases hx
      obtain ⟨hmem, -⟩ := Option.ite_none_right_eq_some.1 hstep
      exact h.believes _ hmem x rfl
    | _ => cases hx
  | _ => cases hx

theorem PurgeSystem.Orderly.step (h : s.Orderly) (hcond : s.SavesProcessing a)
    (hstep : s.step a = some s') : s'.Orderly :=
  ⟨h.believes.step hstep, fun id => (h.move hcond hstep id).1⟩

theorem PurgeSystem.Orderly.created (cfg : Config)
    (shape : QueueParams → QueueType × List GroupId) (now : Millis) :
    (PurgeSystem.created cfg shape now).Orderly where
  believes _ hτ := absurd hτ List.not_mem_nil
  views _ := ⟨⟨Nat.zero_le 1, fun _ => ⟨rfl, rfl⟩⟩, fun _ _ _ => ⟨rfl, rfl⟩,
    fun _ _ hp => absurd hp (Nat.lt_irrefl 0)⟩

/-- The identifier of a job is in one list at most, in every state that is reached. -/
theorem PurgeSystem.listed_of_runs (hrun : (PurgeSystem.created cfg shape now).Runs as s)
    (id : LockId) : (s.keys.view id).Listed :=
  Run.invariant (P := fun s => ∀ id, (s.keys.view id).Listed)
    (fun _ _ _ h hstep id => (JobMove.of_step hstep id).listed (h id))
    (fun id => ((Orderly.created cfg shape now).views id).toListed) hrun id

end Runs

/-! ## Lifecycle -/

/-- In every state that is reached by steps that meet the condition, the identifier of a job
is in one list at most, and in none once the job is over; a job is pending when it appears,
its status changes in allowed ways only, and it does not change any more once it is over. -/
theorem job_lifecycle (cfg : Config) (shape : QueueParams → QueueType × List GroupId)
    (now : Millis) (as : List PurgeAction) (s : PurgeSystem)
    (halong : Run.Along PurgeSystem.step PurgeSystem.SavesProcessing
      (PurgeSystem.created cfg shape now) as)
    (hrun : (PurgeSystem.created cfg shape now).Runs as s) (id : LockId) :
    s.keys.pending.count id + s.keys.active.count id ≤ 1 ∧
      (∀ job, s.keys.job? id = some job → job.status.isTerminal = true →
        id ∉ s.keys.pending ∧ id ∉ s.keys.active) ∧
      (∀ a s', s.SavesProcessing a → s.step a = some s' →
        (s.keys.job? id = none → ∀ job', s'.keys.job? id = some job' → job'.status = .pending) ∧
        ∀ job, s.keys.job? id = some job → ∃ job', s'.keys.job? id = some job' ∧
          (job'.status = job.status ∨ job.status.canBecome job'.status = true)) ∧
      ∀ bs s', Run.Along PurgeSystem.step PurgeSystem.SavesProcessing s bs → s.Runs bs s' →
        ∀ job, s.keys.job? id = some job → job.status.isTerminal = true →
          ∃ job', s'.keys.job? id = some job' ∧ job'.status = job.status := by
  have h : s.Orderly := Run.invariant_along (fun _ _ _ h hcond hstep => h.step hcond hstep)
    (.created cfg shape now) halong hrun
  obtain ⟨⟨honce, -⟩, hterminal, -⟩ := h.views id
  refine ⟨honce, fun job hjob hend => ?_, fun a s' hcond hstep => (h.move hcond hstep id).2,
    fun bs s' halong' hrun' job hjob hend => ?_⟩
  · obtain ⟨hp, hn⟩ := hterminal job hjob hend
    exact ⟨List.count_eq_zero.1 hp, List.count_eq_zero.1 hn⟩
  · have hstays := Run.invariant_along
      (P := fun s' => s'.Orderly ∧ ∃ job', s'.keys.job? id = some job' ∧ job'.status = job.status)
      (fun s₁ a s₂ ⟨h₁, job₁, hjob₁, hst₁⟩ hcond hstep => by
        obtain ⟨job₂, hjob₂, hst₂⟩ := (h₁.move hcond hstep id).2.2 job₁ hjob₁
        refine ⟨h₁.step hcond hstep, job₂, hjob₂, ?_⟩
        rcases hst₂ with hst₂ | hst₂
        · exact hst₂.trans hst₁
        · rw [hst₁, PurgeJobStatus.not_canBecome hend] at hst₂
          cases hst₂)
      ⟨h, job, hjob, rfl⟩ halong' hrun'
    exact hstays.2

/-- The keys of a queue with one pending message. -/
def onePending : Keyspace :=
  ((Run.exec System.step (System.created {} .fifo [] 0) [.produce promptMessage none]).map
    System.db).getD (Keyspace.created .fifo [])

/-- A job that purges the pending messages of the queue. -/
def ordersPurge : PurgeJob := newPurgeJob 1 ordersQueue .pending 0

/-- The job in the hands of the worker 9. -/
def ordersExecution (purged : Nat) : Execution :=
  ⟨9, { ordersPurge with status := .processing }, purged⟩

/-- The job is enqueued and taken by a worker. -/
def takenPurge : List PurgeAction :=
  [.control (.traffic ordersQueue onePending), .enqueue 1 ordersQueue .pending,
    .proceed (.locking 1 ordersQueue .pending .start) 0,
    .proceed (.locking 1 ordersQueue .pending (.state .active)) 0,
    .proceed (.locking 1 ordersQueue .pending (.current freshTransition)) 0,
    .proceed (.creating 1 ordersQueue .pending) 0, .acquire 9]

/-- The worker has started the job and loaded its first batch. -/
def startedPurge : List PurgeAction :=
  takenPurge ++
    [.proceed (.acquired 9 1) 0, .proceed (.starting 9 ordersPurge) 0,
      .proceed (.checking (ordersExecution 0)) 0, .proceed (.fetching (ordersExecution 0)) 0,
      .load (ordersExecution 0) [0] 1 0 [none]]

/-- The job is cancelled. -/
def canceledPurge : List PurgeAction :=
  startedPurge ++
    [.cancel ordersQueue 1, .proceed (.canceling ordersQueue (ordersExecution 0).job) 0]

/-- The worker goes on with its batch. -/
def finishedBatch : List PurgeAction :=
  [.proceed (.deleting (ordersExecution 0) 1 0 [(none, [.early promptMessage 0 .pending 0])]) 0,
    .proceed (.deleting (ordersExecution 0) 1 1 []) 0, .proceed (.trimming (ordersExecution 1) 1) 0,
    .proceed (.saving (ordersExecution 1)) 0]

/-- The worker saves its progress after the job was cancelled: the job is being processed
again, without being in any list. -/
theorem save_revives_canceled :
    (Run.exec PurgeSystem.step (PurgeSystem.created {} (fun _ => (.fifo, [])) 0)
        canceledPurge).map (fun s => ((s.keys.job? 1).map PurgeJob.status, s.keys.active)) =
        some (some .canceled, []) ∧
      (Run.exec PurgeSystem.step (PurgeSystem.created {} (fun _ => (.fifo, [])) 0)
        (canceledPurge ++ finishedBatch)).map (fun s =>
          ((s.keys.job? 1).map PurgeJob.status, s.keys.active)) =
        some (some .processing, []) := by
  decide +kernel

theorem job_lifecycle_startedPurge :
    ∃ s, (PurgeSystem.created {} (fun _ => (.fifo, [])) 0).Runs
        (startedPurge ++ finishedBatch) s ∧
      s.keys.pending.count 1 + s.keys.active.count 1 ≤ 1 := by
  have hsome : (Run.exec PurgeSystem.step (PurgeSystem.created {} (fun _ => (.fifo, [])) 0)
      (startedPurge ++ finishedBatch)).isSome = true := by decide +kernel
  obtain ⟨s, hs⟩ := Option.isSome_iff_exists.1 hsome
  exact ⟨s, hs, (job_lifecycle _ _ _ _ s (by decide +kernel) hs 1).1⟩

/-! ## Recovery -/

/-- Every job in the active list that is not over and has no living worker is pending again,
once, and the jobs of living workers are left alone. -/
def JobKeys.RecoversStuck (k k' : JobKeys) : Prop :=
  (∀ id ∈ k.active, ∀ job, k.job? id = some job → job.status.isTerminal = false →
      k.isWorkerAlive id = false →
        (∃ job', k'.job? id = some job' ∧ job'.status = .pending) ∧ k'.pending.count id = 1) ∧
    ∀ id, k.isWorkerAlive id = true → k'.view id = k.view id ∧ k'.workers id = k.workers id

/-- In every reachable state, `recoverStuckJobs` does what it should exactly if there is
nothing to do: no job in the active list that is not over lacks a living worker. -/
theorem recoversStuck_iff (cfg : Config) (shape : QueueParams → QueueType × List GroupId)
    (now : Millis) (as : List PurgeAction) (s : PurgeSystem)
    (hrun : (PurgeSystem.created cfg shape now).Runs as s) (t : Millis) :
    s.keys.RecoversStuck (s.keys.recoverStuckJobs t) ↔
      ∀ id ∈ s.keys.active, ∀ job, s.keys.job? id = some job → job.status.isTerminal = false →
        s.keys.isWorkerAlive id = true := by
  rw [JobKeys.recoverStuckJobs_eq]
  constructor
  · rintro ⟨hstuck, -⟩ id hid job hjob hopen
    by_contra hdead
    have hpending := (hstuck id hid job hjob hopen (by simpa using hdead)).2
    have honce := (PurgeSystem.listed_of_runs hrun id).once
    have hactive : 0 < s.keys.active.count id := List.count_pos_iff.2 hid
    simp only [JobKeys.view] at honce
    omega
  · intro halive
    refine ⟨fun id hid job hjob hopen hdead => ?_, fun id _ => ⟨rfl, rfl⟩⟩
    rw [halive id hid job hjob hopen] at hdead
    cases hdead

/-- A worker dies after it has taken a job. The recovery leaves the job where it is: in the
active list, where nobody looks for it. -/
theorem recovery_misses_takenPurge :
    (Run.exec PurgeSystem.step (PurgeSystem.created {} (fun _ => (.fifo, [])) 0)
      (takenPurge ++ [.recoverStuckJobs 1000000])).map (fun s =>
        (s.keys.isWorkerAlive 1, (s.keys.job? 1).map PurgeJob.status, s.keys.active,
          s.keys.pending)) =
      some (false, some .pending, [1], []) := by
  decide +kernel

theorem recoversStuck_iff_livingWorker :
    ∃ s, (PurgeSystem.created {} (fun _ => (.fifo, [])) 0).Runs (startedPurge ++ [.beat 9]) s ∧
      s.keys.active = [1] ∧ s.keys.RecoversStuck (s.keys.recoverStuckJobs 0) := by
  have hsome : (Run.exec PurgeSystem.step (PurgeSystem.created {} (fun _ => (.fifo, [])) 0)
      (startedPurge ++ [.beat 9])).map (fun s => (s.keys.active, s.keys.isWorkerAlive 1)) =
      some ([1], true) := by decide +kernel
  obtain ⟨s, hs, heq⟩ := Option.map_eq_some_iff.1 hsome
  obtain ⟨hactive, halive⟩ := Prod.mk.inj heq
  refine ⟨s, hs, hactive, (recoversStuck_iff _ _ _ _ s hs 0).2 fun id hid _ _ _ => ?_⟩
  rw [hactive] at hid
  rw [List.mem_singleton.1 hid]
  exact halive

end RedisSmq
