import RedisSmq.Control.Record

/-!
# The protocol of queue states

Requests for a change of the state may be interleaved in any way, and each may be based on
an outdated reading. The record of the transitions stays consistent with the stored state
and with itself all the same, and nobody leaves a lock without its identifier.
-/

namespace RedisSmq

variable {c c' : Control} {a : ControlAction} {q : QueueParams}

/-- The records of all queues are consistent. -/
def Control.Recorded (c : Control) : Prop := ∀ q, (c.queues q).Recorded

theorem Control.Recorded.step (h : c.Recorded) (hstep : c.step a = some c') : c'.Recorded := by
  intro q
  have hq := ControlStep.of_step hstep q
  generalize c'.queues q = r at hq
  cases hq with
  | same => exact h q
  | traffic hstate hlock htransitions => exact (h q).congr hstate hlock htransitions
  | save hargs => exact (h q).setState (StateRequest.prepare_valid hargs)

/-- Only a request that presents the stored lock identifier leaves a lock. -/
theorem ControlStep.leaves_lock {r : QueueRecord} (h : ControlStep q c a r)
    (hlocked : (c.queues q).state? = some .locked) (hleft : r.state? ≠ some .locked) :
    ∃ req current t args, a = .save q req current t ∧ req.prepare current t = some args ∧
      args.lockId = (c.queues q).lockId? ∧ args.lockId.isSome = true := by
  cases h with
  | same => exact absurd hlocked hleft
  | traffic hstate => exact absurd (hstate.trans hlocked) hleft
  | @save req current t args hargs =>
    refine ⟨req, current, t, args, rfl, hargs, ?_⟩
    rcases QueueRecord.setState_cases args (c.queues q) with
      ⟨e, heq⟩ | ⟨props, hprops, -, lock, hlock, heq⟩
    · rw [heq] at hleft
      exact absurd hlocked hleft
    rw [heq] at hleft
    rw [QueueRecord.state?, hprops] at hlocked
    have hstate : props.state.getD .active = .locked := by
      rw [show props.state = some .locked from hlocked]
      rfl
    rw [QueueRecord.lockId?, hprops]
    exact hlock.released_id hstate fun hnew => hleft (congrArg some hnew)

/-- In every state that is reached by any interleaving of requests, the newest transition
of a queue leads to its stored state, each transition starts where the one before it ended,
every transition is an allowed one, there are at most a hundred of them, and there is a lock
identifier exactly if the queue is locked. A step that leaves the lock of a queue is a
request that presents its lock identifier. -/
theorem transitions_recorded (shape : QueueParams → QueueType × List GroupId) (now : Millis)
    (as : List ControlAction) (c : Control) (hrun : (Control.created shape now).Runs as c)
    (q : QueueParams) :
    (∃ e rest, (c.queues q).transitions = e :: rest ∧
        (c.queues q).state? = some e.toState) ∧
      (c.queues q).transitions.IsChain (fun newer older =>
        newer.fromState = some older.toState) ∧
      (∀ e ∈ (c.queues q).transitions, ∀ s ∈ e.fromState, s.canTransitionTo e.toState = true) ∧
      (c.queues q).transitions.length ≤ 100 ∧
      ((c.queues q).lockId?.isSome = true ↔ (c.queues q).state? = some .locked) ∧
      ∀ a c', c.step a = some c' → (c.queues q).state? = some .locked →
        (c'.queues q).state? ≠ some .locked →
          ∃ req current t args, a = .save q req current t ∧ req.prepare current t = some args ∧
            args.lockId = (c.queues q).lockId? ∧ args.lockId.isSome = true := by
  have h : c.Recorded := Run.invariant (fun _ _ _ h hstep => h.step hstep)
    (fun q => QueueRecord.Recorded.created _ _ now) hrun
  obtain ⟨newest, chain, allowed, length_le, locked_iff⟩ := h q
  refine ⟨newest, chain, allowed, length_le, locked_iff, fun a c' hstep hlocked hleft => ?_⟩
  exact (ControlStep.of_step hstep q).leaves_lock hlocked hleft

/-- Two requests read the same state; one locks the queue, the other comes too late. -/
def lockRace : List ControlAction :=
  [.hget ordersQueue, .lindex ordersQueue .active 1,
    .save ordersQueue (.lock (.unknown 1) (some 5) none) freshTransition 1,
    .save ordersQueue (.pause none) freshTransition 2]

theorem transitions_recorded_lockRace :
    ∃ c, (Control.created (fun _ => (.fifo, [])) 0).Runs lockRace c ∧
      (c.queues ordersQueue).state? = some .locked ∧
      (c.queues ordersQueue).lockId?.isSome = true := by
  have hsome : (Run.exec Control.step (Control.created (fun _ => (.fifo, [])) 0) lockRace).map
      (fun c => (c.queues ordersQueue).state?) = some (some .locked) := by decide
  obtain ⟨c, hc, hstate⟩ := Option.map_eq_some_iff.1 hsome
  have h := (transitions_recorded _ _ _ c hc ordersQueue).2.2.2.2.1
  exact ⟨c, hc, hstate, h.2 hstate⟩

end RedisSmq
