import Mathlib.Data.List.Chain
import RedisSmq.Control.System

/-!
# The record of a queue's states

The script `set-queue-state` accepts a change if the state is the expected one and if the
lock identifiers agree; `setState_cases` says so once and everything else is derived from
it. Whoever prepares arguments for the script passes the same state as the expected one
and as the origin of the recorded transition, and checks that the transition is allowed.
This suffices for the record to stay consistent, however old the reading is.
-/

namespace RedisSmq

/-- The lock identifiers of a change that the script accepts: the presented one, the one
that was stored and the one that is stored after it. -/
inductive LockChange (newState state : OperationalState) (id : Option LockId) :
    Option LockId → Option LockId → Prop
  | acquired {lock : Option LockId} (hnew : newState = .locked) (hid : id.isSome = true) :
      LockChange newState state id lock id
  | released (hnew : newState ≠ .locked) (hlocked : state = .locked) (hid : id.isSome = true) :
      LockChange newState state id id none
  | free {lock : Option LockId} (hnew : newState ≠ .locked) (hfree : state ≠ .locked) :
      LockChange newState state id lock lock

/-- A lock identifier is stored exactly in the locked state. -/
theorem LockChange.isSome_iff {newState state : OperationalState} {id old new : Option LockId}
    (h : LockChange newState state id old new) (hold : old.isSome = true ↔ state = .locked) :
    new.isSome = true ↔ newState = .locked := by
  cases h with
  | acquired hnew hid => simp [hnew, hid]
  | released hnew hlocked hid => simp [hnew]
  | free hnew hfree =>
    have hnone : ¬ old.isSome = true := fun hsome => hfree (hold.1 hsome)
    simp [hnew, hnone]

/-- A lock is left with its own identifier. -/
theorem LockChange.released_id {newState state : OperationalState} {id old new : Option LockId}
    (h : LockChange newState state id old new) (hlocked : state = .locked)
    (hnew : newState ≠ .locked) : id = old ∧ id.isSome = true := by
  cases h with
  | acquired hnew' => exact absurd hnew' hnew
  | released _ _ hid => exact ⟨rfl, hid⟩
  | free _ hfree => exact absurd hlocked hfree

/-- The script refuses the change and does nothing, or it accepts it. -/
theorem setQueueState_refuses_or_accepts (newState : OperationalState)
    (expected : Option OperationalState)
    (id : Option LockId) (db : Keyspace) :
    (∃ e, setQueueState newState expected id db = (.error e, db)) ∨
      ∃ q, db.queue = some q ∧ (∀ s ∈ expected, s = q.state.getD .active) ∧
        ∃ lock, LockChange newState (q.state.getD .active) id q.lockId lock ∧
          setQueueState newState expected id db =
            (.ok (), { db with
              queue := some { q with state := some newState, lockId := lock } }) := by
  unfold setQueueState
  split
  · exact .inl ⟨_, rfl⟩
  rename_i q hq
  dsimp only
  split
  · exact .inl ⟨_, rfl⟩
  rename_i hexpected
  have hagree : ∀ s ∈ expected, s = q.state.getD .active := by
    intro s hs
    by_contra hne
    refine hexpected ⟨Option.isSome_of_mem hs, fun heq => hne ?_⟩
    exact Option.some.inj (hs.symm.trans heq)
  split
  · rename_i hnew
    split
    · exact .inl ⟨_, rfl⟩
    rename_i hid
    have hsome := Option.isSome_iff_ne_none.2 (by simpa using hid)
    exact .inr ⟨q, hq, hagree, id, .acquired hnew hsome, rfl⟩
  · rename_i hnew
    split
    · rename_i hlocked
      split
      · exact .inl ⟨_, rfl⟩
      rename_i hid
      obtain ⟨hsome, hstored⟩ := not_or.1 hid
      have hlock : LockChange newState (q.state.getD .active) id id none :=
        .released hnew hlocked (Option.isSome_iff_ne_none.2 (by simpa using hsome))
      exact .inr ⟨q, hq, hagree, none, not_not.1 hstored ▸ hlock, rfl⟩
    · rename_i hfree
      exact .inr ⟨q, hq, hagree, q.lockId, .free hnew hfree, rfl⟩

namespace QueueRecord

/-- The script does nothing to the record, or it accepts the change and records it. -/
theorem setState_cases (args : SetStateArgs) (r : QueueRecord) :
    (∃ e, r.setState args = (.error e, r)) ∨
      ∃ q, r.db.queue = some q ∧ (∀ s ∈ args.expected, s = q.state.getD .active) ∧
        ∃ lock, LockChange args.newState (q.state.getD .active) args.lockId q.lockId lock ∧
          r.setState args =
            (.ok (),
              { db := { r.db with
                  queue := some { q with state := some args.newState, lockId := lock } }
                lastStateChangeAt := args.transition.timestamp
                transitions := (args.transition :: r.transitions).take maxHistorySize }) := by
  rcases setQueueState_refuses_or_accepts args.newState args.expected args.lockId r.db with
    ⟨e, heq⟩ | ⟨q, hq, hagree, lock, hlock, heq⟩
  · exact .inl ⟨e, by simp only [setState, heq]⟩
  · exact .inr ⟨q, hq, hagree, lock, hlock, by simp only [setState, heq]⟩

end QueueRecord

/-- The arguments say the same thing to the script and to the record, and the transition
is an allowed one. -/
structure SetStateArgs.Valid (args : SetStateArgs) : Prop where
  origin : args.transition.fromState = args.expected
  target : args.transition.toState = args.newState
  allowed : ∃ s, args.expected = some s ∧ s.canTransitionTo args.newState = true

section Prepare

variable {current : StateTransition} {target : OperationalState} {reason : TransitionReason}
variable {opts : Option StateTransitionOptions} {now : Millis} {args : SetStateArgs}

theorem saveState_valid {s : OperationalState} (h : s.canTransitionTo target = true) :
    (saveState (some s) target reason opts now).Valid :=
  ⟨rfl, rfl, s, rfl, h⟩

theorem transitionTo_valid
    (h : (transitionTo current target reason opts now).toOption = some args) : args.Valid := by
  unfold transitionTo at h
  split at h
  · rename_i hallowed
    cases h
    exact saveState_valid hallowed
  · cases h

theorem acquireLock_valid {owner : LockOwner} {id : Option LockId}
    (h : (acquireLock current owner id reason opts now).toOption = some args) : args.Valid := by
  unfold acquireLock at h
  split at h
  · cases h
  split at h
  · rename_i hallowed
    cases h
    exact saveState_valid hallowed
  · cases h

/-- What a lock that can be released looked like when it was read. -/
theorem releaseLock_some {owner : LockOwner} {id : Option LockId}
    (h : (releaseLock current owner id reason opts now).toOption = some args) :
    args.Valid ∧ current.toState = .locked ∧ args.lockId = id := by
  unfold releaseLock at h
  split at h
  · cases h
  split at h
  · cases h
  rename_i hlocked
  have hlocked : current.toState = .locked := not_not.1 hlocked
  split at h
  · cases h
  split at h
  · cases h
  · cases h
    exact ⟨saveState_valid (by rw [hlocked]; rfl), hlocked, rfl⟩

theorem recoverLock_valid (h : recoverLock current now = some args) : args.Valid := by
  obtain ⟨-, h⟩ := Option.ite_none_right_eq_some.1 h
  cases h
  exact ⟨rfl, rfl, .locked, rfl, rfl⟩

/-- Every request that gets as far as the script has valid arguments. -/
theorem StateRequest.prepare_valid {req : StateRequest}
    (h : req.prepare current now = some args) : args.Valid := by
  cases req with
  | pause | resume | stop => exact transitionTo_valid h
  | lock owner id opts => exact acquireLock_valid h
  | unlock owner id opts => exact (releaseLock_some h).1
  | purgeLock job => exact acquireLock_valid h
  | purgeUnlock job reason description => exact (releaseLock_some h).1
  | recover => exact recoverLock_valid h

end Prepare

namespace QueueRecord

/-- The newer transition starts where the older one ended. -/
def Follows (newer older : StateTransition) : Prop := newer.fromState = some older.toState

/-- The record agrees with the stored state, and the lock identifier with both. -/
structure Recorded (r : QueueRecord) : Prop where
  newest : ∃ e rest, r.transitions = e :: rest ∧ r.state? = some e.toState
  chain : r.transitions.IsChain Follows
  allowed : ∀ e ∈ r.transitions, ∀ s ∈ e.fromState, s.canTransitionTo e.toState = true
  length_le : r.transitions.length ≤ maxHistorySize
  locked_iff : r.lockId?.isSome = true ↔ r.state? = some .locked

namespace Recorded

variable {r r' : QueueRecord} {args : SetStateArgs}

theorem created (type : QueueType) (groups : List GroupId) (now : Millis) :
    (QueueRecord.created type groups now).Recorded where
  newest := ⟨_, [], rfl, rfl⟩
  chain := .singleton _
  allowed e he s hs := by
    rw [List.mem_singleton.1 he] at hs
    cases hs
  length_le := Nat.le_of_ble_eq_true rfl
  locked_iff := by simp [QueueRecord.created, Keyspace.created, lockId?, state?]

/-- The invariant is about the state, the lock identifier and the transitions only. -/
theorem congr (h : r.Recorded) (hstate : r'.state? = r.state?) (hlock : r'.lockId? = r.lockId?)
    (htransitions : r'.transitions = r.transitions) : r'.Recorded where
  newest := by rw [htransitions, hstate]; exact h.newest
  chain := by rw [htransitions]; exact h.chain
  allowed := by rw [htransitions]; exact h.allowed
  length_le := by rw [htransitions]; exact h.length_le
  locked_iff := by rw [hlock, hstate]; exact h.locked_iff

/-- The stored state is the one that the newest transition leads to. -/
theorem state_eq (h : r.Recorded) {q : QueueProps} (hq : r.db.queue = some q) :
    ∃ e rest, r.transitions = e :: rest ∧ q.state = some e.toState := by
  obtain ⟨e, rest, htransitions, hstate⟩ := h.newest
  rw [state?, hq] at hstate
  exact ⟨e, rest, htransitions, hstate⟩

theorem setState (h : r.Recorded) (hargs : args.Valid) : (r.setState args).2.Recorded := by
  rcases setState_cases args r with ⟨e, heq⟩ | ⟨q, hq, hagree, lock, hlock, heq⟩
  · rw [heq]
    exact h
  obtain ⟨s, hexpected, hallowed⟩ := hargs.allowed
  obtain ⟨e, rest, htransitions, hstate⟩ := h.state_eq hq
  have hs : s = e.toState := by
    rw [hagree s hexpected, hstate]
    rfl
  have horigin : args.transition.fromState = some e.toState := by
    rw [hargs.origin, hexpected, hs]
  have hold : q.lockId.isSome = true ↔ e.toState = .locked := by
    have := h.locked_iff
    rw [lockId?, state?, hq] at this
    simpa [hstate] using this
  rw [heq]
  refine ⟨⟨args.transition, (r.transitions.take (maxHistorySize - 1)), rfl, ?_⟩, ?_, ?_, ?_, ?_⟩
  · exact congrArg some hargs.target.symm
  · refine List.IsChain.take ?_ _
    rw [htransitions, List.isChain_cons_cons, ← htransitions]
    exact ⟨horigin, h.chain⟩
  · intro t ht s' hs'
    rcases List.mem_cons.1 (List.mem_of_mem_take ht) with rfl | ht
    · rw [hargs.origin, hexpected] at hs'
      cases hs'
      rw [hargs.target]
      exact hallowed
    · exact h.allowed t ht s' hs'
  · exact List.length_take_le _ _
  change lock.isSome = true ↔ some args.newState = some .locked
  rw [hstate] at hlock
  rw [hlock.isSome_iff hold, Option.some.injEq]

end Recorded

end QueueRecord

end RedisSmq
