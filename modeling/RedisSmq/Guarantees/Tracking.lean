import RedisSmq.Guarantees.StateProtocol

/-!
# What consumers know of a queue's state

The tracker of a consumer learns of a change of the state by an announcement that follows
the change. Two things can keep it from the truth for good: a change that is never
announced, as when the recoverer of orphaned locks unlocks a queue, and announcements that
are published in another order than the changes were made in. Without these the stored
state is always the one that the last outstanding announcement tells, be it published or
still to be published.
-/

namespace RedisSmq

namespace QueueStateTracker

variable {t : QueueStateTracker} {p q : QueueParams} {transition : StateTransition}

/-- The tracker believes the latest announcement of a queue. -/
theorem isActive_handleStateChange :
    (t.handleStateChange q transition).isActive p =
      if q = p then decide (transition.toState = .active) else t.isActive p := by
  have hkey : p.string = q.string ↔ q = p :=
    ⟨fun h => (QueueParams.string_injective h).symm, fun h => by rw [h]⟩
  by_cases hq : q = p
  · subst hq
    cases h : transition.toState <;>
      simp [handleStateChange, isActive, isStopped, isPaused, isLocked, h]
  · cases h : transition.toState <;>
      simp [handleStateChange, isActive, isStopped, isPaused, isLocked, h, hkey, hq]

end QueueStateTracker

namespace Control

/-- What a series of announcements tells about a queue, to one who had an opinion before. -/
def toldActive (q : QueueParams) (before : Bool) (events : List (QueueParams × StateTransition)) :
    Bool :=
  (events.filter (·.1 = q)).foldl (fun _ e => decide (e.2.toState = .active)) before

section ToldActive

variable {p q : QueueParams} {before : Bool} {events events' : List (QueueParams × StateTransition)}
variable {transition : StateTransition}

theorem toldActive_append :
    toldActive q before (events ++ events') =
      toldActive q (toldActive q before events) events' := by
  rw [toldActive, List.filter_append, List.foldl_append]
  rfl

theorem toldActive_cons :
    toldActive q before ((p, transition) :: events) =
      toldActive q (if p = q then decide (transition.toState = .active) else before) events := by
  by_cases hp : p = q <;> simp [toldActive, hp]

theorem toldActive_of_forall_ne (h : ∀ e ∈ events, e.1 ≠ q) :
    toldActive q before events = before := by
  have hnil : events.filter (·.1 = q) = [] := by
    rw [List.filter_eq_nil_iff]
    intro e he
    simpa using h e he
  rw [toldActive, hnil]
  rfl

/-- Putting the oldest announcement of its queue in front leaves the order of the
announcements of each queue. -/
theorem filter_cons_erase (h : events.find? (·.1 = p) = some (p, transition)) :
    ((p, transition) :: events.erase (p, transition)).filter (·.1 = q) =
      events.filter (·.1 = q) := by
  induction events with
  | nil => cases h
  | cons e events ih =>
    by_cases hp : e.1 = p
    · rw [List.find?_cons_of_pos (by simpa using hp)] at h
      cases h
      rw [List.erase_cons_head]
    · rw [List.find?_cons_of_neg (by simpa using hp)] at h
      have htail : (e :: events).erase (p, transition) = e :: events.erase (p, transition) :=
        List.erase_cons_tail (by simp [Prod.ext_iff, hp])
      rw [htail, List.filter_cons, List.filter_cons, List.filter_cons, ← ih h, List.filter_cons]
      by_cases hq : p = q
      · subst hq
        simp [hp]
      · simp [hq]

/-- It does not matter whether the oldest announcement of its queue is published already. -/
theorem toldActive_announced (h : events'.find? (·.1 = p) = some (p, transition)) :
    toldActive q before (events ++ [(p, transition)] ++ events'.erase (p, transition)) =
      toldActive q before (events ++ events') := by
  rw [List.append_assoc, List.singleton_append, toldActive_append, toldActive_append]
  simp only [toldActive, filter_cons_erase h]

end ToldActive

variable (c : Control) (a : ControlAction)
variable {args : SetStateArgs} {q : QueueParams}

/-- The changes of a queue are announced, and in the order in which they were made: the
recoverer unlocks no queue, and an announcement is the oldest one of its queue. -/
def AnnouncesInOrder : Prop :=
  match a with
  | .save q req current t =>
      ∀ args ∈ req.prepare current t,
        req.announces = true ∨ ((c.queues q).setState args).1.isOk = false
  | .announce q transition => c.unannounced.find? (·.1 = q) = some (q, transition)
  | _ => True

instance : Decidable (c.AnnouncesInOrder a) := by
  unfold AnnouncesInOrder
  split <;> infer_instance

/-- The outstanding announcements tell the stored states. -/
def Announced : Prop :=
  ∀ q, toldActive q (c.tracker.isActive q) (c.published ++ c.unannounced) =
    decide ((c.queues q).state? = some .active)

variable {c c' : Control} {a : ControlAction}

theorem Announced.created (shape : QueueParams → QueueType × List GroupId) (now : Millis) :
    (Control.created shape now).Announced :=
  fun _ => rfl

/-- A script that has accepted a change has stored it. -/
theorem state?_commit (h : ((c.queues q).setState args).1 = .ok ()) :
    ((c.queues q).setState args).2.state? = some args.newState := by
  rcases QueueRecord.setState_cases args (c.queues q) with ⟨e, heq⟩ | ⟨_, _, _, _, _, heq⟩
  · rw [heq] at h
    cases h
  · rw [heq]
    rfl

theorem setState_refused {e : Refusal} (h : ((c.queues q).setState args).1 = .error e) :
    ((c.queues q).setState args).2 = c.queues q := by
  rcases QueueRecord.setState_cases args (c.queues q) with ⟨_, heq⟩ | ⟨_, _, _, _, _, heq⟩
  · rw [heq]
  · rw [heq] at h
    cases h

theorem Announced.commit (h : c.Announced) {req : StateRequest} (hargs : args.Valid)
    (hannounced : req.announces = true ∨ ((c.queues q).setState args).1.isOk = false) :
    (c.commit q req args).Announced := by
  intro p
  change toldActive p _ (c.published ++ (c.unannounced ++ _)) = _
  rw [← List.append_assoc, toldActive_append]
  change toldActive p (toldActive p (c.tracker.isActive p) _) _ = _
  rw [h p]
  cases hreply : ((c.queues q).setState args).1 with
  | error e =>
    -- The script refused the change, so there is nothing to tell.
    have hsame : (c.commit q req args).queues p = c.queues p := by
      by_cases hp : p = q
      · subst hp
        rw [commit_self, setState_refused hreply]
      · exact c.commit_of_ne hp req args
    rw [hsame]
    rfl
  | ok u =>
    have hreq : req.announces = true := by
      rcases hannounced with hreq | hrefused
      · exact hreq
      · rw [hreply] at hrefused
        cases hrefused
    simp only [announcement, hreq, if_true]
    rw [toldActive_cons]
    by_cases hp : p = q
    · subst hp
      rw [if_pos rfl, commit_self, state?_commit hreply, hargs.target]
      simp [toldActive]
    · rw [if_neg (Ne.symm hp), c.commit_of_ne hp]
      rfl

theorem Announced.step (h : c.Announced) (hcond : c.AnnouncesInOrder a)
    (hstep : c.step a = some c') : c'.Announced := by
  cases a with
  | hget q =>
    obtain ⟨state, -, rfl⟩ := Option.map_eq_some_iff.1 hstep
    exact h
  | lindex q state t =>
    obtain ⟨-, hstep⟩ := Option.ite_none_right_eq_some.1 hstep
    cases hstep
    exact h
  | save q req current t =>
    obtain ⟨-, hstep⟩ := Option.ite_none_right_eq_some.1 hstep
    obtain ⟨args, hargs, rfl⟩ := Option.map_eq_some_iff.1 hstep
    exact h.commit (StateRequest.prepare_valid hargs) (hcond args hargs)
  | announce q transition =>
    obtain ⟨-, hstep⟩ := Option.ite_none_right_eq_some.1 hstep
    cases hstep
    intro p
    exact (toldActive_announced hcond).trans (h p)
  | deliver =>
    simp only [Control.step, Control.deliver] at hstep
    split at hstep
    · cases hstep
    rename_i q transition rest hpublished
    cases hstep
    intro p
    have hp := h p
    rw [hpublished, List.cons_append, toldActive_cons] at hp
    rw [QueueStateTracker.isActive_handleStateChange]
    exact hp
  | traffic q db =>
    intro p
    have hstate : (c'.queues p).state? = (c.queues p).state? := by
      have hp := ControlStep.of_step hstep p
      generalize c'.queues p = r at hp
      cases hp with
      | same => rfl
      | traffic hstate => exact hstate
    obtain ⟨-, hstep⟩ := Option.ite_none_right_eq_some.1 hstep
    cases hstep
    rw [hstate]
    exact h p

end Control

/-- The tracker of a consumer reports a queue as active exactly if it is, whenever no change
of the queue's state is still to be announced and no announcement of it is still to be
delivered, provided that every change was announced and in the order of the changes. -/
theorem tracker_isActive_iff (shape : QueueParams → QueueType × List GroupId) (now : Millis)
    (as : List ControlAction) (c : Control)
    (halong : Run.Along Control.step Control.AnnouncesInOrder (Control.created shape now) as)
    (hrun : (Control.created shape now).Runs as c) (q : QueueParams)
    (hunannounced : ∀ e ∈ c.unannounced, e.1 ≠ q) (hpublished : ∀ e ∈ c.published, e.1 ≠ q) :
    c.tracker.isActive q = true ↔ (c.queues q).state? = some .active := by
  have h : c.Announced := Run.invariant_along (fun _ _ _ h hcond hstep => h.step hcond hstep)
    (Control.Announced.created shape now) halong hrun
  have hnone : ∀ e ∈ c.published ++ c.unannounced, e.1 ≠ q := by
    intro e he
    rcases List.mem_append.1 he with he | he
    · exact hpublished e he
    · exact hunannounced e he
  have hq := h q
  rw [Control.toldActive_of_forall_ne hnone] at hq
  rw [hq, decide_eq_true_eq]

/-- The transition by which a purge job locks a queue that was just created. -/
def purgeTransition (job : LockId) : StateTransition :=
  { fromState := some .active
    toState := .locked
    reason := .purgeStart
    timestamp := 1
    description := "Queue is being purged"
    lockId := some job
    owner := some .purgeJob }

/-- A purge job locks the queue, and the tracker learns of it. -/
def lockForPurge (job : LockId) : List ControlAction :=
  [.hget ordersQueue, .lindex ordersQueue .active 1,
    .save ordersQueue (.purgeLock job) freshTransition 1,
    .announce ordersQueue (purgeTransition job), .deliver,
    .hget ordersQueue, .lindex ordersQueue .locked 2]

/-- After the recoverer has unlocked a queue, nothing is outstanding, and the tracker takes
the active queue for locked. -/
theorem tracker_misled_by_recovery :
    (Run.exec Control.step (Control.created (fun _ => (.fifo, [])) 0)
      (lockForPurge 7 ++ [.save ordersQueue .recover (purgeTransition 7) 2])).map (fun c =>
        (c.unannounced, c.published, c.tracker.isActive ordersQueue,
          (c.queues ordersQueue).state?)) = some ([], [], false, some .active) := by
  decide

/-- The transition by which the purge manager unlocks the queue. -/
def unlockTransition (job : LockId) : StateTransition :=
  { fromState := some .locked
    toState := .active
    reason := .purgeComplete
    timestamp := 2
    description := "Purge completed"
    lockId := some job }

/-- The purge manager unlocks the queue when the job is done. -/
def purgedQueue : List ControlAction :=
  lockForPurge 7 ++
    [.save ordersQueue (.purgeUnlock 7 .purgeComplete "Purge completed") (purgeTransition 7) 2,
      .announce ordersQueue (unlockTransition 7), .deliver]

theorem tracker_isActive_iff_purgedQueue :
    ∃ c, (Control.created (fun _ => (.fifo, [])) 0).Runs purgedQueue c ∧
      (c.tracker.isActive ordersQueue = true ↔
        (c.queues ordersQueue).state? = some .active) := by
  have hsome : (Run.exec Control.step (Control.created (fun _ => (.fifo, [])) 0) purgedQueue).map
      (fun c => (c.unannounced, c.published)) = some ([], []) := by decide
  obtain ⟨c, hc, heq⟩ := Option.map_eq_some_iff.1 hsome
  obtain ⟨hunannounced, hpublished⟩ := Prod.mk.inj heq
  exact ⟨c, hc, tracker_isActive_iff _ _ _ c (by decide) hc ordersQueue
    (by simp [hunannounced]) (by simp [hpublished])⟩

end RedisSmq
