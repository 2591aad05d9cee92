import RedisSmq.Life.Scripts
import RedisSmq.System.Step

/-!
# Conditions on steps

Guarantees that do not hold of all runs hold of the runs whose steps meet a condition.
A condition looks at the state before the step and at the action, and is decidable.
-/

namespace RedisSmq

namespace Action

/-- The consumer whose messages the action settles, and their identifiers. -/
def settles : Action → Option (ConsumerId × List MessageId)
  | .acknowledge c batch _ => some (c, batch.map Prod.fst)
  | .unacknowledge c batch _ => some (c, batch.map fun b => b.1.id)
  | .reap c batch _ => some (c, batch.map Envelope.id)
  | _ => none

/-- The due messages that the action publishes, and the instant of their arguments. -/
def schedules : Action → Option (List Envelope × Nanos)
  | .publishScheduled _ batch t => some (batch, t)
  | _ => none

/-- The consumer that the action takes for dead. -/
def reaps : Action → Option ConsumerId
  | .fetch (.reaper c) | .load (.reaper c) _ | .reap c _ _ => some c
  | _ => none

/-- The messages that the action deletes, and their group. -/
def deletes : Action → Option (Option GroupId × List MessageId)
  | .delete group _ batch => some (group, batch.map Envelope.id)
  | _ => none

/-- A timer fires after `Consume` has found that it has not. -/
def isLate : Action → Bool
  | .lateTimeout _ _ _ _ => true
  | _ => false

/-- The context of `Dequeue` is cancelled under its feet. -/
def isCancel : Action → Bool
  | .cancel _ _ => true
  | _ => false

def isUnacknowledge : Action → Bool
  | .unacknowledge _ _ _ => true
  | _ => false

/-- The message that the action checks out. -/
def checksOut : Action → Option MessageId
  | .checkout _ id _ => some id
  | _ => none

/-- The message that the action loads to unacknowledge it. -/
def reloads : Action → Option MessageId
  | .reload _ id _ _ => some id
  | _ => none

end Action

namespace System

variable (s : System) (a : Action)

/-- A periodic message goes back into the schedule only if it is still there. -/
def ReschedulesInPlace : Prop :=
  ∀ x ∈ a.schedules, ∀ arg ∈ s.scheduledArgs x.1 x.2, s.db.ReschedulesInPlace arg
  deriving Decidable

/-- A settlement finds the messages that it takes out of a processing list to be
processing. -/
def SettlesProcessing : Prop :=
  ∀ x ∈ a.settles, s.db.accepts = true → ∀ id ∈ x.2, id ∈ s.db.lists (.processing x.1) →
    s.db.status id = some .processing
  deriving Decidable

/-- No message is settled while its consumer is about to check it out. -/
def SettlesNotPopped : Prop :=
  ∀ x ∈ a.settles, s.db.accepts = true → ∀ id ∈ x.2, id ∈ s.db.lists (.processing x.1) →
    ∀ task ∈ s.tasks, task.1 = x.1 → task.2.id = id → task.2.isPopped = false
  deriving Decidable

/-- Only consumers that take no further step are reaped. -/
def ReapsCrashed : Prop := ∀ c ∈ a.reaps, c ∈ s.crashed
  deriving Decidable

/-- A pending message is deleted only if it is in its pending container. -/
def DeletesInPlace : Prop :=
  ∀ x ∈ a.deletes, ∀ id ∈ x.2, s.db.status id = some .pending →
    ∀ type ∈ s.db.queueType?, 0 < s.db.occ (pendingSlot type x.1) id
  deriving Decidable

end System

end RedisSmq
