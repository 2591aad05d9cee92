import RedisSmq.Admin.ManagedSteps
import RedisSmq.System.Closed
import RedisSmq.System.Conduct

/-!
# A stopped queue is frozen

While a queue is stopped, whatever clients call and with whatever copies and arguments,
no message is added to it, none of its messages changes, and none of its counters
changes, unless messages are deleted. All that can still move is a message that is popped
from a pending container into a processing list.
-/

namespace RedisSmq

/-- The two keyspaces agree on the lists and sorted sets of messages. -/
structure SameContainers (db db' : Keyspace) : Prop where
  lists : db'.lists = db.lists
  zsets : db'.zsets = db.zsets

/-- The action is the deletion of messages. -/
def ManagedAction.isDelete : ManagedAction → Bool
  | .queue (.delete _ _ _) => true
  | _ => false

namespace Managed

variable (k : Managed) (a : ManagedAction)

/-- The stored state is the stopped one. -/
def IsStopped : Prop := k.db.queue.bind QueueProps.state = some .stopped
  deriving Decidable

/-- The queue is stopped, and the action does not delete messages. -/
def ActsOnStopped : Prop := k.IsStopped ∧ a.isDelete = false
  deriving Decidable

end Managed

/-- The movements of messages that are possible while a queue is stopped. -/
inductive StoppedMovement (db : Keyspace) : ManagedAction → Keyspace → Prop
  | none {a : ManagedAction} {db' : Keyspace} (hsame : SameContainers db db') :
      StoppedMovement db a db'
  | pop {c : ConsumerId} {group : Option GroupId} {type : QueueType} {id : MessageId}
      {db' : Keyspace} (htype : db.queueType? = some type)
      (hpop : pop type group c db = (some id, db')) :
      StoppedMovement db (.queue (.pop c group)) db'
  /-- No call, but Redis drops an audit list whose time is over. -/
  | expire {list : ListKey} (hlist : (Slot.list list).holds = false) :
      StoppedMovement db (.queue (.expire list)) (db.setList list [])

/-- The action, unless it deletes the queue, leaves the messages and the counters alone and
moves messages at most in a way that is possible while the queue is stopped. -/
def Managed.Freezes (k : Managed) (a : ManagedAction) : Prop :=
  ∀ k', k.step a = some k' → k'.db.queue.isSome = true →
    SameBooks k.db k'.db ∧ StoppedMovement k.db a k'.db

section Step

variable {type : QueueType} {k k' : Managed} {a : ManagedAction}

theorem Managed.IsStopped.refusal (h : k.IsStopped) :
    stateRefusal k.db.operationalState = some .queueStopped := by
  have hstate : k.db.operationalState = .stopped := by
    simpa [Keyspace.operationalState] using congrArg (fun o => o.getD .active) h
  rw [hstate]
  rfl

/-- The deletion of a group moves nothing, since nothing is in the keys that it deletes. -/
theorem SameContainers.of_deleteConsumerGroup {db : Keyspace} (huni : db.Uniform type)
    (htype : db.queueType? = some type) (g : GroupId) (keys : Option GroupId) :
    SameContainers db (deleteConsumerGroup g keys db).2 := by
  obtain ⟨hlists, hzsets⟩ := deleteConsumerGroup_removes_nothing huni htype g keys
  exact ⟨hlists, hzsets⟩

theorem SameContainers.of_setQueueState (newState : OperationalState)
    (expected : Option OperationalState) (lock : Option LockId) (db : Keyspace) :
    SameContainers db (setQueueState newState expected lock db).2 := by
  rcases setQueueState_cases newState expected lock db with h | ⟨q, lockId, -, h⟩
  · exact h.symm ▸ ⟨rfl, rfl⟩
  · exact h.symm ▸ ⟨rfl, rfl⟩

/-- One step on a stopped queue that stays in existence. -/
theorem Managed.stopped_step (hs : Sane type k.sys) (huni : k.sys.db.Uniform type)
    (ha : k.ActsOnStopped a) (hstep : k.step a = some k') (hq : k'.db.queue.isSome = true) :
    SameBooks k.db k'.db ∧ StoppedMovement k.db a k'.db := by
  have hsys := SysStep.of_step hstep
  change k'.sys.db.queue.isSome = true at hq
  change SameBooks k.sys.db k'.sys.db ∧ StoppedMovement k.sys.db a k'.sys.db
  generalize k'.sys = sys at hsys hq ⊢
  have hgroup : ∀ g keys, SameBooks k.sys.db (RedisSmq.deleteConsumerGroup g keys k.sys.db).2 ∧
      StoppedMovement k.sys.db a (RedisSmq.deleteConsumerGroup g keys k.sys.db).2 := by
    intro g keys
    exact ⟨deleteConsumerGroup_books hs.type_eq g keys,
      .none (.of_deleteConsumerGroup huni hs.type_eq g keys)⟩
  cases hsys with
  | same => exact ⟨.refl _, .none ⟨rfl, rfl⟩⟩
  | deleteGroup => exact hgroup _ _
  | deleteQueue => cases hq
  | queue _ hstep =>
    have hclosed := (Step.of_step hstep).closed hs ha.1.refusal
    generalize sys.db = db' at hclosed
    cases hclosed with
    | same => exact ⟨.refl _, .none ⟨rfl, rfl⟩⟩
    | pop htype hpop => exact ⟨pop_books hpop, .pop htype hpop⟩
    | delete => cases ha.2
    | setState => exact ⟨setQueueState_books _ _ _ _, .none (.of_setQueueState _ _ _ _)⟩
    | saveGroup => exact ⟨⟨fun _ => rfl, rfl⟩, .none ⟨rfl, rfl⟩⟩
    | deleteGroup => exact hgroup _ _
    | expire hlist => exact ⟨⟨fun _ => rfl, rfl⟩, .expire hlist⟩

end Step

section Run

variable (cfg : Config) (type : QueueType) (model : DeliveryModel) (groups : List GroupId)
  (now : Nanos)

theorem Managed.freezes_along {k : Managed} {as bs : List ManagedAction}
    (hrun : (Managed.created cfg type model groups now).Runs as k)
    (halong : Run.Along Managed.step Managed.ActsOnStopped k bs) :
    Run.Along Managed.step Managed.Freezes k bs := by
  refine Run.Along.of_invariant
    (P := fun k => ∃ as, (Managed.created cfg type model groups now).Runs as k) ?_ ?_ ⟨as, hrun⟩
    halong
  · intro k a k' ⟨as, hrun⟩ hstep
    exact ⟨_, Run.exec_snoc hrun hstep⟩
  intro k a ⟨as, hrun⟩ ha k' hstep hq
  obtain ⟨bs, hbs⟩ := Managed.reaches hrun ((SysStep.of_step hstep).queue_of_isSome hq)
  obtain ⟨hs, huni⟩ := uniform_of_runs hbs
  exact Managed.stopped_step hs huni ha hstep hq

/-- As long as a queue is stopped and exists, its messages and counters stay as they are
except for the deletion of messages, and messages move at most from a pending container
into a processing list. -/
theorem stopped_frozen (as : List ManagedAction) (k : Managed)
    (hrun : (Managed.created cfg type model groups now).Runs as k) (bs : List ManagedAction)
    (k' : Managed) (halong : Run.Along Managed.step Managed.ActsOnStopped k bs)
    (hrest : k.Runs bs k') (hq : k'.db.queue.isSome = true) :
    SameBooks k.db k'.db ∧ Run.Along Managed.step Managed.Freezes k bs := by
  have hfreeze := Managed.freezes_along cfg type model groups now hrun halong
  refine ⟨?_, hfreeze⟩
  refine Run.invariant_along (P := fun k' => k'.db.queue.isSome = true →
    SameBooks k.db k'.db) ?_ (fun _ => .refl _) hfreeze hrest hq
  intro k₁ a k₂ ih hfree hstep hq
  exact (ih ((SysStep.of_step hstep).queue_of_isSome hq)).trans (hfree k₂ hstep hq).1

/-- A queue is stopped while a message is pending, and a second message has been popped. -/
def stoppedWithMessages : List ManagedAction :=
  [.queue (.produce promptMessage none), .queue (.produce promptMessage none),
    .queue (.pop 7 none), .queue (.setState .stopped none none)]

/-- Clients go on as if the queue was active. -/
def callsOnStopped : List ManagedAction :=
  [.queue (.checkout 7 0 none), .queue (.produce promptMessage none), .queue (.pop 8 none),
    .subscribe 9 none]

theorem stopped_frozen_callsOnStopped :
    ∃ k k', (Managed.created {} .fifo .pointToPoint [] 0).Runs stoppedWithMessages k ∧
      k.Runs callsOnStopped k' ∧ SameBooks k.db k'.db ∧
      Run.Along Managed.step Managed.Freezes k callsOnStopped := by
  have hsome : ((Run.exec Managed.step (Managed.created {} .fifo .pointToPoint [] 0)
      stoppedWithMessages).bind fun k => (Run.exec Managed.step k callsOnStopped).map fun k' =>
        (decide (Run.Along Managed.step Managed.ActsOnStopped k callsOnStopped),
          k'.db.queue.isSome)) = some (true, true) := by decide
  obtain ⟨k, hk, hrest⟩ := Option.bind_eq_some_iff.1 hsome
  obtain ⟨k', hk', heq⟩ := Option.map_eq_some_iff.1 hrest
  obtain ⟨halong, hq⟩ := Prod.mk.inj heq
  exact ⟨k, k', hk, hk', stopped_frozen {} .fifo .pointToPoint [] 0 _ k hk _ k'
    (of_decide_eq_true halong) hk' hq⟩

end Run

end RedisSmq
