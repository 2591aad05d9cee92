import Mathlib.Algebra.Order.Sub.Unbundled.Basic
import RedisSmq.Data.Batcher
import RedisSmq.System.Conduct

/-!
# The batchers of the consumers

A message handler hands its settlements to a `BatchAcker` and a `BatchUnacker`, unless
batching is disabled. Both are batchers whose timer calls `flush` without the mutex. A task
of the system whose settlement is buffered, or on its way, stays a task of the system. A
batch that is sent twice settles its messages twice, and of an entry that is lost nothing is
left to be done: the task is gone.

If nothing happens to a batcher in the middle of an unlocked flush, the batchers are no more
than an order in which the system does its settlements (`Buffered.refines`).

One step copies the buffer as a whole. What the race detector of Go would report of a slice
that is copied while another goroutine appends to it is left out.
-/

namespace RedisSmq

/-- A batcher of a message handler. -/
structure BatcherId where
  consumer : ConsumerId
  /-- Whether it is a `BatchUnacker`; otherwise it is a `BatchAcker`. -/
  unacks : Bool
  handler : Nat
  deriving DecidableEq, Repr

namespace Task

def ackEntry? : Task → Option (MessageId × Nat)
  | .acking id k => some (id, k)
  | _ => none

def unackEntry? : Task → Option (Envelope × Option Nat × UnackCause)
  | .unacking e k cause => some (e, k, cause)
  | _ => none

end Task

namespace BatcherId

/-- `Ack` and `Unack`: which settlements the batcher is given. -/
def takes (b : BatcherId) (task : Task) : Bool :=
  if b.unacks then task.unackEntry?.isSome else task.ackEntry?.isSome

/-- `acknowledge` of the acker and `unacknowledge` of the unacker. -/
def request (b : BatcherId) (batch : List Task) (t : Nanos) : Action :=
  if b.unacks then .unacknowledge b.consumer (batch.filterMap Task.unackEntry?) t
  else .acknowledge b.consumer (batch.filterMap Task.ackEntry?) t

/-- The tasks that the request settles. -/
def settled (b : BatcherId) (batch : List Task) : Multiset (ConsumerId × Task) :=
  if b.unacks then System.unackTasks b.consumer (batch.filterMap Task.unackEntry?)
  else System.ackTasks b.consumer (batch.filterMap Task.ackEntry?)

end BatcherId

/-- The batchers that are left after the action. -/
def Action.spares : Action → BatcherId → Bool
  | .crash c, b => decide (b.consumer ≠ c)
  | _, _ => true

structure Buffered where
  sys : System
  batchSize : Nat
  batchers : Batchers BatcherId Task

inductive BufferedAction where
  | act (a : Action)
  | buffer (x : BatcherAction BatcherId Task)
  /-- The goroutine that a flush has started calls the script. -/
  | send (b : BatcherId) (batch : List Task) (t : Nanos)

/-- What the action does to the system, if it is more than a change of buffers. -/
def BufferedAction.action? : BufferedAction → Option Action
  | .act a => some a
  | .buffer _ => none
  | .send b batch t => some (b.request batch t)

namespace Buffered

def created (cfg : Config) (type : QueueType) (groups : List GroupId) (now : Nanos)
    (batchSize : Nat) : Buffered :=
  ⟨.created cfg type groups now, batchSize, .idle⟩

/-- The tasks of the entries. -/
def tasksOf (entries : Multiset (BatcherId × Task)) : Multiset (ConsumerId × Task) :=
  entries.map fun p => (p.1.consumer, p.2)

/-- An action of the system, such as a settlement that is not batched, cannot take a task
away that a batcher holds. A task can be handed to one batcher. -/
def step (s : Buffered) : BufferedAction → Option Buffered
  | .act a =>
      (s.sys.step a).bind fun sys' =>
        let batchers' := s.batchers.restrict a.spares
        if tasksOf batchers'.held ∩ s.sys.tasks ≤ sys'.tasks then
          some { s with sys := sys', batchers := batchers' }
        else none
  | .buffer x =>
      if (∀ p ∈ x.added, p.1.takes p.2 = true) ∧
          tasksOf x.added ≤ s.sys.tasks - tasksOf s.batchers.held then
        (s.batchers.step s.batchSize x).map fun batchers' =>
          { s with
            sys := { s.sys with tasks := s.sys.tasks - tasksOf (s.batchers.lost x) }
            batchers := batchers' }
      else none
  | .send b batch t =>
      if (b, batch) ∈ s.batchers.outgoing then
        (System.step { s.sys with tasks := s.sys.tasks ∪ b.settled batch } (b.request batch t)).map
          fun sys' => { s with sys := sys', batchers := s.batchers.sent b batch }
      else none

/-- The run leads from one state to the other. -/
def Runs (s : Buffered) (as : List BufferedAction) (s' : Buffered) : Prop :=
  Run.exec step s as = some s'

/-- A step that does not come in the middle of an unlocked flush of the batcher, and of which
what it does to the system meets the condition. -/
def Meets (cond : System → Action → Prop) (s : Buffered) (x : BufferedAction) : Prop :=
  (∀ y, x = .buffer y → s.batchers.Exclusive y) ∧ ∀ a ∈ x.action?, cond s.sys a

instance (cond : System → Action → Prop) [∀ s a, Decidable (cond s a)] (s : Buffered) :
    ∀ x, Decidable (s.Meets cond x)
  | .act a => decidable_of_iff (cond s.sys a) (by simp [Meets, BufferedAction.action?])
  | .buffer x => decidable_of_iff (s.batchers.Exclusive x)
      (by simp [Meets, BufferedAction.action?])
  | .send b batch t => decidable_of_iff (cond s.sys (b.request batch t))
      (by simp [Meets, BufferedAction.action?])

/-- The copies of unlocked flushes are exact, and what is held is still to be done. -/
structure Sound (s : Buffered) : Prop where
  orderly : s.batchers.Orderly
  held : tasksOf s.batchers.held ≤ s.sys.tasks

section Lemmas

variable {s s' : Buffered} {x : BufferedAction} {cond : System → Action → Prop}

private theorem map_filterMap_sublist {α β γ : Type*} {f : α → Option β} {g : β → γ} {h : α → γ}
    (hf : ∀ a b, f a = some b → g b = h a) (l : List α) :
    ((l.filterMap f).map g).Sublist (l.map h) := by
  induction l with
  | nil => exact .slnil
  | cons a l ih =>
    cases ha : f a with
    | none =>
      rw [List.filterMap_cons_none ha]
      exact ih.cons _
    | some b =>
      rw [List.filterMap_cons_some ha, List.map_cons, List.map_cons, hf a b ha]
      exact ih.cons_cons _

/-- A request settles tasks of its batch. -/
theorem settled_le (b : BatcherId) (batch : List Task) :
    b.settled batch ≤ tasksOf (batch.map (Prod.mk b) : List (BatcherId × Task)) := by
  have htasks : tasksOf (batch.map (Prod.mk b) : List (BatcherId × Task)) =
      (batch.map (Prod.mk b.consumer) : List (ConsumerId × Task)) := by
    rw [tasksOf, Multiset.map_coe, List.map_map]
    rfl
  rw [htasks]
  unfold BatcherId.settled
  split
  · refine Multiset.coe_le.2 (map_filterMap_sublist (fun task entry h => ?_) batch).subperm
    cases task <;> cases h
    rfl
  · refine Multiset.coe_le.2 (map_filterMap_sublist (fun task entry h => ?_) batch).subperm
    cases task <;> cases h
    rfl

/-- A request takes no other tasks away. -/
theorem sub_settled_le {sys sys' : System} {b : BatcherId} {batch : List Task} {t : Nanos}
    (h : sys.step (b.request batch t) = some sys') :
    sys.tasks - b.settled batch ≤ sys'.tasks := by
  unfold BatcherId.request at h
  unfold BatcherId.settled
  split at h <;> rename_i hb
  · obtain ⟨_, hs'⟩ := Option.ite_none_right_eq_some.1 h
    cases hs'
    rw [if_pos hb]
  · obtain ⟨_, hs'⟩ := Option.ite_none_right_eq_some.1 h
    cases hs'
    rw [if_neg hb]
    exact Multiset.le_add_right _ _

/-- A step that meets the condition is no step of the system or a step that meets it. -/
theorem Sound.step (h : s.Sound) (hx : s.Meets cond x) (hstep : s.step x = some s') :
    s'.Sound ∧ (s'.sys = s.sys ∨ ∃ a, cond s.sys a ∧ s.sys.step a = some s'.sys) := by
  cases x with
  | act a =>
    obtain ⟨sys', hsys, hs'⟩ := Option.bind_eq_some_iff.1 hstep
    obtain ⟨hkeeps, hs'⟩ := Option.ite_none_right_eq_some.1 hs'
    cases hs'
    refine ⟨⟨h.orderly.restrict _, ?_⟩, .inr ⟨a, hx.2 a rfl, hsys⟩⟩
    have hle : tasksOf (s.batchers.restrict a.spares).held ≤ s.sys.tasks :=
      (Multiset.map_le_map (s.batchers.held_restrict_le a.spares)).trans h.held
    exact (Multiset.le_inter le_rfl hle).trans hkeeps
  | buffer x =>
    obtain ⟨⟨_, hadded⟩, hs'⟩ := Option.ite_none_right_eq_some.1 hstep
    obtain ⟨batchers', hbatchers, rfl⟩ := Option.map_eq_some_iff.1 hs'
    obtain ⟨hlost, hheld⟩ := h.orderly.held_step hbatchers
    have hsys : { s.sys with tasks := s.sys.tasks - tasksOf (s.batchers.lost x) } = s.sys := by
      simp [hlost, tasksOf]
    rw [hsys]
    refine ⟨⟨h.orderly.step (hx.1 x rfl) hbatchers, ?_⟩, .inl rfl⟩
    rw [hheld, tasksOf, Multiset.map_add]
    exact (le_tsub_iff_right h.held).1 hadded
  | send b batch t =>
    obtain ⟨hmem, hs'⟩ := Option.ite_none_right_eq_some.1 hstep
    obtain ⟨sys', hsys, rfl⟩ := Option.map_eq_some_iff.1 hs'
    have hheld := h.held
    rw [Batchers.held_sent hmem, tasksOf, Multiset.map_add] at hheld
    have hsettled := settled_le b batch
    have hle := hsettled.trans ((Multiset.le_add_right _ _).trans hheld)
    rw [show s.sys.tasks ∪ b.settled batch = s.sys.tasks from sup_eq_left.2 hle] at hsys
    refine ⟨⟨h.orderly.sent, ?_⟩, .inr ⟨_, hx.2 _ rfl, hsys⟩⟩
    refine le_trans ?_ (sub_settled_le hsys)
    exact (le_tsub_iff_left hle).2 ((add_le_add_left hsettled _).trans hheld)

end Lemmas

/-- A run whose steps keep out of unlocked flushes is a run of the system. -/
theorem refines {cfg : Config} {type : QueueType} {groups : List GroupId} {now : Nanos}
    {batchSize : Nat} {cond : System → Action → Prop} {as : List BufferedAction} {s : Buffered}
    (halong : Run.Along step (Meets cond) (created cfg type groups now batchSize) as)
    (hrun : (created cfg type groups now batchSize).Runs as s) :
    ∃ bs, Run.Along System.step cond (System.created cfg type groups now) bs ∧
      (System.created cfg type groups now).Runs bs s.sys :=
  Run.refines Buffered.sys (fun _ _ _ h hx hstep => Sound.step h hx hstep)
    ⟨.idle, le_rfl⟩ halong hrun

end Buffered

namespace BufferedExample

/-- What the first delivery of a message to consumer 7 ends with. -/
def entry (m : Producible) (ok : Bool) (id : MessageId) : Task :=
  if ok then .acking id 1 else .unacking (.early m id .processing 1) (some 1) .unacknowledged

/-- Consumer 7 processes a message and hands the settlement to its batcher. -/
def handled (m : Producible) (ok : Bool) (id : MessageId) : List BufferedAction :=
  let e := Envelope.early m id .processing 1
  [.act (.pop 7 none), .act (.checkout 7 id none), .act (.consume 7 e 1),
    .act (.finish 7 e 1 0 ok), .act (.returned 7 e 1 0),
    .buffer (.add ⟨7, !ok, 0⟩ (entry m ok id))]

/-- The requeuer moves message 0 from the requeued to the pending list. -/
def requeued (m : Producible) (attempts : Nat) : List BufferedAction :=
  [.act (.fetch .requeuer), .act (.load .requeuer 0),
    .act (.requeueImmediate [.early m 0 .unackRequeuing attempts] 0)]

/-- The timer copies the failure of message 0, and the failure of message 1 makes a batch of
two full, which is sent. The requeuer makes message 0 pending again. -/
def copiedAndSent (m : Producible) : List BufferedAction :=
  [.act (.produce m none), .act (.produce m none)] ++ handled m false 0 ++
    [.buffer (.fire ⟨7, true, 0⟩), .buffer (.copy ⟨7, true, 0⟩)] ++ handled m false 1 ++
      [.send ⟨7, true, 0⟩ [entry m false 0, entry m false 1] 0] ++ requeued m 1

/-- The unlocked flush goes on and sends the failure of message 0 once more. -/
def sentAgain (m : Producible) : List BufferedAction :=
  [.buffer (.cut ⟨7, true, 0⟩ [entry m false 0]), .send ⟨7, true, 0⟩ [entry m false 0] 0]

/-- The failure of message 0 is flushed by the timer, and nothing comes in between. -/
def flushedByTimer (m : Producible) : List BufferedAction :=
  .act (.produce m none) :: handled m false 0 ++
    [.buffer (.fire ⟨7, true, 0⟩), .buffer (.copy ⟨7, true, 0⟩)] ++ sentAgain m

end BufferedExample

end RedisSmq
