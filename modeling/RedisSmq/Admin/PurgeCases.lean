import RedisSmq.Admin.PurgeSystem

/-!
# The kinds of steps of a purge system

Every property of the steps of the system with jobs and workers is proved by going through
this list: what an action needs to be possible, and the state that it leads to. The first
such property is that a worker takes its job for one that is being processed.
-/

namespace RedisSmq

inductive PurgeStep (s : PurgeSystem) : PurgeAction → PurgeSystem → Prop
  | control {a : ControlAction} {c : Control} (hallows : s.allows a = true)
      (hc : s.control.step a = some c) :
      PurgeStep s (.control a) { s with control := c, used := a.lockIds ++ s.used }
  | enqueue {id : LockId} {q : QueueParams} {filter : BrowseFilter} (hfresh : id ∉ s.used)
      (hvalid : validateFilter s.cfg filter) :
      PurgeStep s (.enqueue id q filter)
        { s with
          tasks := .locking id q filter .start :: s.tasks
          jobIds := id :: s.jobIds
          used := id :: s.used }
  | cancel {q : QueueParams} {id : LockId} {job : PurgeJob} (hjob : s.keys.job? id = some job) :
      PurgeStep s (.cancel q id) { s with tasks := .canceling q job :: s.tasks }
  | acquire {w : WorkerId} {id : LockId} (hlast : s.keys.pending.getLast? = some id) :
      PurgeStep s (.acquire w)
        { s with keys := s.keys.activate id, tasks := .acquired w id :: s.tasks }
  | proceed {task : PurgeTask} {t : Millis} {c : Control} {keys : JobKeys}
      {next : Option PurgeTask} (hmem : task ∈ s.tasks)
      (hgo : s.go t task = some (c, keys, next)) :
      PurgeStep s (.proceed task t)
        { s with control := c, keys := keys, tasks := next.toList ++ s.tasks.erase task }
  | abandon {task : PurgeTask} (hmem : task ∈ s.tasks) :
      PurgeStep s (.abandon task) { s with tasks := s.tasks.erase task }
  | loadFailed {x : Execution} {ids : List MessageId} {uuid : MessageId} {t : Nanos}
      {groups : List (Option GroupId)} {e : String} (hmem : .loading x ids ∈ s.tasks) :
      PurgeStep s (.load x ids uuid t groups)
        { s with tasks := .failing x e :: s.tasks.erase (.loading x ids) }
  | load {x : Execution} {ids : List MessageId} {uuid : MessageId} {t : Nanos}
      {groups : List (Option GroupId)} {todo : List (Option GroupId × List Envelope)}
      (hmem : .loading x ids ∈ s.tasks) :
      PurgeStep s (.load x ids uuid t groups)
        { s with tasks := .deleting x ids.length 0 todo :: s.tasks.erase (.loading x ids) }
  | recoverStuckJobs {t : Millis} :
      PurgeStep s (.recoverStuckJobs t) { s with keys := s.keys.recoverStuckJobs t }
  | beat {w : WorkerId} :
      PurgeStep s (.beat w)
        { s with keys := { s.keys with heartbeats := w :: s.keys.heartbeats } }
  | lapse {w : WorkerId} :
      PurgeStep s (.lapse w)
        { s with keys := { s.keys with heartbeats := s.keys.heartbeats.filter (· ≠ w) } }
  | inspect {id : LockId} :
      PurgeStep s (.inspect id) { s with links := (id, s.keys.workers id) :: s.links }
  | orphan {q : QueueParams} {current : StateTransition} {link : Option WorkerId} :
      PurgeStep s (.orphan q current link) { s with orphans := (q, current) :: s.orphans }

/-- Every step is of one of the kinds. -/
theorem PurgeStep.of_step {s s' : PurgeSystem} {a : PurgeAction} (h : s.step a = some s') :
    PurgeStep s a s' := by
  cases a with
  | control a =>
    obtain ⟨hallows, h⟩ := Option.ite_none_right_eq_some.1 h
    obtain ⟨c, hc, rfl⟩ := Option.map_eq_some_iff.1 h
    exact .control hallows hc
  | enqueue id q filter =>
    obtain ⟨⟨hfresh, hvalid⟩, h⟩ := Option.ite_none_right_eq_some.1 h
    cases h
    exact .enqueue hfresh hvalid
  | cancel q id =>
    obtain ⟨job, hjob, rfl⟩ := Option.map_eq_some_iff.1 h
    exact .cancel hjob
  | acquire w =>
    obtain ⟨id, hlast, rfl⟩ := Option.map_eq_some_iff.1 h
    exact .acquire hlast
  | proceed task t =>
    obtain ⟨hmem, h⟩ := Option.ite_none_right_eq_some.1 h
    obtain ⟨⟨c, keys, next⟩, hgo, rfl⟩ := Option.map_eq_some_iff.1 h
    exact .proceed hmem hgo
  | abandon task =>
    obtain ⟨hmem, h⟩ := Option.ite_none_right_eq_some.1 h
    cases h
    exact .abandon hmem
  | load x ids uuid t groups =>
    obtain ⟨hmem, h⟩ := Option.ite_none_right_eq_some.1 h
    simp only at h
    split at h
    · cases h
      exact .loadFailed hmem
    obtain ⟨-, h⟩ := Option.ite_none_right_eq_some.1 h
    cases h
    exact .load hmem
  | recoverStuckJobs t =>
    cases h
    exact .recoverStuckJobs
  | beat w =>
    cases h
    exact .beat
  | lapse w =>
    cases h
    exact .lapse
  | inspect id =>
    cases h
    exact .inspect
  | orphan q current link =>
    obtain ⟨-, h⟩ := Option.ite_none_right_eq_some.1 h
    cases h
    exact .orphan

section Tasks

variable {s s' : PurgeSystem} {a : PurgeAction} {t : Millis} {task : PurgeTask}

/-- The execution that a task belongs to. -/
def PurgeTask.execution? : PurgeTask → Option Execution
  | .checking x | .fetching x | .loading x _ | .deleting x _ _ _ | .trimming x _
  | .removing x _ _ | .saving x | .finishing x | .completing x | .failing x _ => some x
  | .locking _ _ _ _ | .creating _ _ _ | .canceling _ _ | .acquired _ _ | .starting _ _
  | .unlocking _ _ _ _ _ => none

/-- A worker that goes on with an execution takes the job for one that is being processed, or
for what it took it before. -/
theorem PurgeSystem.go_next {c : Control} {keys : JobKeys} {next : PurgeTask} {x' : Execution}
    (h : s.go t task = some (c, keys, some next)) (hx' : next.execution? = some x') :
    x'.job.status = .processing ∨
      ∃ x, task.execution? = some x ∧ x'.job.status = x.job.status := by
  cases task with
  | loading => cases h
  | locking | creating | canceling | acquired | unlocking =>
    simp only [PurgeSystem.go] at h
    split at h <;> cases h <;> cases hx'
  | starting w job =>
    simp only [PurgeSystem.go] at h
    split at h <;> cases h <;> cases hx' <;> exact .inl rfl
  | deleting x count success todo =>
    cases todo with
    | nil =>
      cases h
      cases hx'
      exact .inr ⟨_, rfl, rfl⟩
    | cons b todo =>
      simp only [PurgeSystem.go] at h
      split at h <;> cases h <;> cases hx' <;> exact .inr ⟨_, rfl, rfl⟩
  | saving | removing =>
    cases h
    cases hx'
    exact .inr ⟨_, rfl, rfl⟩
  | completing | failing =>
    cases h
    cases hx'
  | trimming =>
    simp only [PurgeSystem.go] at h
    repeat' split at h
    all_goals
      cases h
      cases hx'
      exact .inr ⟨_, rfl, rfl⟩
  | checking | fetching | finishing =>
    simp only [PurgeSystem.go] at h
    split at h <;> cases h <;> cases hx' <;> exact .inr ⟨_, rfl, rfl⟩

/-- Every worker takes its job for one that is being processed. -/
def PurgeSystem.Believes (s : PurgeSystem) : Prop :=
  ∀ τ ∈ s.tasks, ∀ x, τ.execution? = some x → x.job.status = .processing

theorem PurgeSystem.Believes.step (h : s.Believes) (hstep : s.step a = some s') : s'.Believes := by
  intro τ hτ x hx
  cases PurgeStep.of_step hstep with
  | control | recoverStuckJobs | beat | lapse | inspect | orphan => exact h τ hτ x hx
  | enqueue | cancel | acquire =>
    rcases List.mem_cons.1 hτ with rfl | hτ
    · cases hx
    · exact h τ hτ x hx
  | @proceed task t c keys next hmem hgo =>
    rcases List.mem_append.1 hτ with hτ | hτ
    · rw [Option.mem_toList.1 hτ] at hgo
      rcases PurgeSystem.go_next hgo hx with hst | ⟨y, hy, hst⟩
      · exact hst
      · rw [hst]
        exact h task hmem y hy
    · exact h τ (List.mem_of_mem_erase hτ) x hx
  | abandon => exact h τ (List.mem_of_mem_erase hτ) x hx
  | loadFailed hmem | load hmem =>
    rcases List.mem_cons.1 hτ with rfl | hτ
    · cases hx
      exact h _ hmem _ rfl
    · exact h τ (List.mem_of_mem_erase hτ) x hx

end Tasks

end RedisSmq
