import Mathlib.Data.Set.Insert
import RedisSmq.Life.Legal
import RedisSmq.System.State

/-!
# The life of one message

What happens to a single message is a small transition system of its own. Its state is
where the message is and what is stored of it, the tasks that concern it, the copies of
it that reapers have loaded, and its part of the log. Its steps abstract from the other
messages, from batches and from the reasons why a goroutine takes one branch or another.

How far consumers and reapers can be trusted differs from one guarantee to the next. A
`Discipline` says which liberties they may take, and the steps of a track depend on it.
-/

namespace RedisSmq

namespace Task

/-- The task can still lead to a settlement: its timer has not fired, and `Consume` has
not given up the message. -/
def isToken : Task → Bool
  | .popped _ _ | .received _ _ | .handling _ _ _ false | .acking _ _ | .ackFailed _ _ _
  | .unacking _ _ _ => true
  | .handling _ _ _ true | .returning _ _ _ => false

/-- The delivery that the task belongs to. -/
def delivery : Task → Option Nat
  | .popped _ _ => none
  | .received _ k | .handling _ k _ _ | .returning _ k _ | .acking _ k | .ackFailed _ k _ => some k
  | .unacking _ k _ => k

/-- The task waits for a batch to be settled. -/
def isSettling : Task → Bool
  | .acking _ _ | .unacking _ _ _ => true
  | _ => false

end Task

/-- The log entries that tell the fate of a message. -/
def Event.tells (m : MessageId) : Event → Bool
  | .checkedOut _ id _ | .settled _ id _ _ _ | .deleted id => decide (id = m)
  | .produced _ _ | .published _ _ | .handed _ _ _ => false

/-- The envelope is a copy of what is stored. -/
def MessageHash.Decodes (h : MessageHash) (e : Envelope) : Prop :=
  ∃ opts uuid now, Codec.decodeEnvelope opts uuid now h = some e

/-- The liberties that consumers and reapers may take. -/
structure Discipline where
  /-- A timer may fire after `Consume` has found that it has not. -/
  firesLate : Prop
  /-- A reaper may take a live consumer for dead. -/
  reapsLive : Prop
  /-- A message may be settled while its consumer is about to check it out. -/
  settlesPopped : Prop
  /-- A message may be deleted while a consumer is about to check it out. -/
  deletesPopped : Prop

structure Track where
  life : Life
  tasks : Multiset (ConsumerId × Task)
  crashed : List ConsumerId
  reaps : Set (ConsumerId × Envelope)
  log : List Event

/-- What the workers do to a message that no consumer holds, and what a copy of it
leaves on the message. -/
inductive Life.Worked (type : QueueType) (group : Option GroupId) (x : Life) : Life → Prop
  | requeue (groupExists : Bool) (now : Millis) {a : RequeueArg} (ha : a.group = group) :
      Life.Worked type group x (x.requeue type groupExists now a)
  | requeueDelayed (groupExists : Bool) (now : Millis) {a : RequeueArg} (ha : a.group = group) :
      Life.Worked type group x (x.requeueDelayed type groupExists now a)
  | fire (groupExists : Bool) {a : ScheduledArg} (ha : a.group = group) :
      Life.Worked type group x (x.fire type groupExists a)
  | note {h : MessageHash} {f : MessageHash → MessageHash} (hx : x.hash = some h)
      (hf : (f h).status = h.status ∧ (f h).message = h.message ∧ (f h).attempts = h.attempts) :
      Life.Worked type group x ⟨x.place, x.write f⟩

namespace Track

/-- The number of successful checkouts. -/
def deliveries (t : Track) (m : MessageId) : Nat := t.log.countP (Event.isCheckout m)

/-- The delivery that is going on. -/
def delivery (t : Track) (m : MessageId) : Option Nat :=
  if t.life.status = some .processing then some (t.deliveries m) else none

/-- A goroutine goes on with the delivery and the copy that it has; only a rejected
acknowledgement makes it load a new copy. It does not multiply its claims to the message,
unless its timer fires late. -/
structure Continues (d : Discipline) (x : Life) (old : Task) (new : Multiset Task) : Prop where
  isPopped : ∀ t ∈ new, t.isPopped = false
  delivery : ∀ t ∈ new, t.delivery = old.delivery
  tokens : d.firesLate ∨
    new.countP (fun t => t.isToken = true) ≤ if old.isToken = true then 1 else 0
  copy : ∀ t ∈ new, ∀ e, t.copy? = some e →
    old.copy? = some e ∨ ∃ h, x.hash = some h ∧ h.Decodes e

/-- What a settlement by the consumer `c` does to the message and to its log. It has no
effect if the queue refuses it or the message is not in the processing list of `c`. -/
inductive Settlement (d : Discipline) (m : MessageId) (t : Track) (c : ConsumerId)
    (settled : Multiset (ConsumerId × Task)) : Life → List Event → Prop
  | idle : Settlement d m t c settled t.life []
  | acknowledge {k : Nat} (now : Millis) (hmem : (c, Task.acking m k) ∈ settled)
      (hheld : t.life.heldBy c)
      (hopen : d.settlesPopped ∨ ∀ task ∈ t.tasks, task.1 = c → task.2.isPopped = false) :
      Settlement d m t c settled (t.life.acknowledge c now)
        [.settled c m (some k) (t.delivery m) none]
  | unacknowledge {e : Envelope} {k : Option Nat} {cause : UnackCause} {clock : Nanos}
      (cfg : Config) (now : Nanos) (hmem : (c, Task.unacking e k cause) ∈ settled)
      (hheld : t.life.heldBy c)
      (hopen : d.settlesPopped ∨ ∀ task ∈ t.tasks, task.1 = c → task.2.isPopped = false) :
      Settlement d m t c settled (t.life.unacknowledge c (UnackArg.ofEnvelope cfg now e cause))
        [.settled c m k (t.delivery m) (some (clock, (resolveUnackAction now e cause).retries))]
  | reap {e : Envelope} {clock : Nanos} (cfg : Config) (now : Nanos) (hmem : (c, e) ∈ t.reaps)
      (hheld : t.life.heldBy c)
      (hopen : d.settlesPopped ∨ ∀ task ∈ t.tasks, task.1 = c → task.2.isPopped = false) :
      Settlement d m t c settled
        (t.life.unacknowledge c (UnackArg.ofEnvelope cfg now e .offlineConsumer))
        [.settled c m none (t.delivery m)
          (some (clock, (resolveUnackAction now e .offlineConsumer).retries))]

/-- The steps of one message. -/
inductive Step (d : Discipline) (type : QueueType) (group : Option GroupId) (m : MessageId)
    (t : Track) : Track → Prop
  | idle : Step d type group m t t
  | task {c : ConsumerId} {old : Task} {new : Multiset Task} (hmem : (c, old) ∈ t.tasks)
      (hgo : Continues d t.life old new) :
      Step d type group m t
        { t with tasks := t.tasks.erase (c, old) + new.map fun task => (c, task) }
  | crash (c : ConsumerId) :
      Step d type group m t
        { t with tasks := t.tasks.filter fun task => task.1 ≠ c, crashed := c :: t.crashed }
  | load {c : ConsumerId} {e : Envelope} {h : MessageHash} (hc : d.reapsLive ∨ c ∈ t.crashed)
      (hx : t.life.hash = some h) (he : h.Decodes e) :
      Step d type group m t { t with reaps := insert (c, e) t.reaps }
  | work {x' : Life} (hx : t.life.Worked type group x') :
      Step d type group m t { t with life := x' }
  | delete (n : Nat)
      (hdelayed : t.life.status = some .unackDelaying → t.life.place ≠ some (.zset .delayed))
      (hplace : d.deletesPopped ∨
        (t.life.status = some .pending → t.life.place = some (pendingSlot type group)))
      (hn : 0 < n ↔ t.life.hash.isSome = true ∧ (t.life.delete type group).hash.isNone = true) :
      Step d type group m t
        { t with
          life := t.life.delete type group
          log := List.replicate n (.deleted m) ++ t.log }
  | pop {c : ConsumerId} {group' : Option GroupId} (hc : c ∉ t.crashed)
      (hp : t.life.place = some (pendingSlot type group')) :
      Step d type group m t
        { t with
          life := ⟨some (.list (.processing c)), t.life.hash⟩
          tasks := (c, .popped m group') ::ₘ t.tasks }
  | checkout {c : ConsumerId} {group' : Option GroupId} {h : MessageHash} {new : Multiset Task}
      (now : Millis) (hmem : (c, Task.popped m group') ∈ t.tasks) (hx : t.life.hash = some h)
      (hst : h.status = some .pending)
      (hnew : new = 0 ∨ ∃ e, new = {.received e (t.deliveries m + 1)} ∧
        (checkoutWrite now h).Decodes e) :
      Step d type group m t
        { t with
          life := ⟨t.life.place, some (checkoutWrite now h)⟩
          tasks := t.tasks.erase (c, .popped m group') + new.map fun task => (c, task)
          log := .checkedOut c m (decide (t.life.heldBy c)) :: t.log }
  | settle {c : ConsumerId} {settled failed : Multiset (ConsumerId × Task)} {x' : Life}
      {events : List Event} (hle : settled ≤ t.tasks)
      (hsettled : ∀ task ∈ settled, task.1 = c ∧ task.2.isSettling = true)
      (hcard : failed.card ≤ settled.card)
      (hfailed : ∀ task ∈ failed, ∃ k cause, task = (c, Task.ackFailed m k cause) ∧
        (c, Task.acking m k) ∈ settled)
      (heffect : Settlement d m t c settled x' events) :
      Step d type group m t
        { t with life := x', tasks := t.tasks - settled + failed, log := events ++ t.log }

end Track

section Tasks

variable {tasks : Multiset (ConsumerId × Task)} {c : ConsumerId} {old : Task} {new : Multiset Task}

theorem countP_map_task (q : Task → Prop) [DecidablePred q] (c : ConsumerId) (new : Multiset Task) :
    (new.map fun t => (c, t)).countP (fun task => q task.2) = new.countP q := by
  rw [Multiset.countP_map, Multiset.countP_eq_card_filter]

theorem countP_erase_add (q : ConsumerId × Task → Prop) [DecidablePred q]
    (hmem : (c, old) ∈ tasks) :
    (tasks.erase (c, old)).countP q + (if q (c, old) then 1 else 0) = tasks.countP q := by
  conv_rhs => rw [← Multiset.cons_erase hmem]
  exact (Multiset.countP_cons q _ _).symm

/-- The tasks after a step of a goroutine are old ones or what it went on with. -/
theorem mem_erase_add {task : ConsumerId × Task}
    (h : task ∈ tasks.erase (c, old) + new.map fun t => (c, t)) :
    task ∈ tasks ∨ task.1 = c ∧ task.2 ∈ new := by
  rcases Multiset.mem_add.1 h with h | h
  · exact .inl (Multiset.mem_of_mem_erase h)
  · obtain ⟨t, ht, rfl⟩ := Multiset.mem_map.1 h
    exact .inr ⟨rfl, ht⟩

end Tasks

section Legal

variable {type : QueueType} {group : Option GroupId} {x x' : Life}
variable {d : Discipline} {m : MessageId}

/-- The message is in a container of the workers. -/
def Life.Shelved (x : Life) : Prop :=
  x.place = some (.list .requeued) ∨ x.place = some (.zset .delayed) ∨
    x.place = some (.zset .scheduled)

theorem Legal.shelved (h : Legal type group x) (hx : x.Shelved) :
    x.status = some .unackRequeuing ∨ x.status = some .unackDelaying ∨
      x.status = some .scheduled := by
  rcases hx with hx | hx | hx
  · exact .inl (h.status_of_requeued hx)
  · exact .inr (.inl (h.status_of_delayed hx))
  · exact .inr (.inr (h.status_of_scheduled hx))

theorem Life.Shelved.not_heldBy (hx : x.Shelved) (c : ConsumerId) : ¬x.heldBy c := by
  unfold Life.heldBy
  rcases hx with hx | hx | hx <;> simp [hx]

namespace Life.Worked

theorem legal (hx : x.Worked type group x') (h : Legal type group x) : Legal type group x' := by
  cases hx with
  | requeue groupExists now ha => exact h.requeue groupExists now ha
  | requeueDelayed groupExists now ha => exact h.requeueDelayed groupExists now ha
  | fire groupExists ha => exact h.fire groupExists ha
  | note hx hf => exact h.write hx hf.1

private theorem retry_released (groupExists : Bool) (now : Millis) (a : RequeueArg) (x : Life) :
    (∀ c, ¬(x.retry type groupExists now a).heldBy c) ∧
      (x.retry type groupExists now a).status ≠ some .processing := by
  unfold Life.retry
  split
  · exact ⟨fun c => by simp [Life.heldBy, pendingSlot_ne_processing],
      by simp [Life.status, Life.write, retriedWrite]⟩
  · exact ⟨fun c => by simp [Life.heldBy], by simp [Life.status, Life.write, deadLetteredWrite]⟩

private theorem publishDue_released (groupExists : Bool) (a : ScheduledArg) (x : Life) :
    (∀ c, ¬(x.publishDue type groupExists a).heldBy c) ∧
      (x.publishDue type groupExists a).status ≠ some .processing := by
  unfold Life.publishDue
  split
  · exact ⟨fun c => by simp [Life.heldBy, pendingSlot_ne_processing],
      by simp [Life.status, Life.write, ScheduledArg.writePublished]⟩
  · exact ⟨fun c => by simp [Life.heldBy],
      by simp [Life.status, Life.write, ScheduledArg.writeDeadLettered]⟩

/-- The workers leave a message where it is, with its status, or take it off their own
containers. -/
theorem place (hx : x.Worked type group x') :
    x'.place = x.place ∧ x'.status = x.status ∨
      x.Shelved ∧ (∀ c, ¬x'.heldBy c) ∧ x'.status ≠ some .processing := by
  cases hx with
  | @requeue groupExists now a ha =>
    unfold Life.requeue
    split
    · rename_i hp
      refine .inr ⟨.inl hp, ?_⟩
      split
      · exact retry_released groupExists now a x
      · exact ⟨fun c => by simp [Life.heldBy], by simp [Life.status, Life.write, delayingWrite]⟩
    · exact .inl ⟨rfl, rfl⟩
  | @requeueDelayed groupExists now a ha =>
    unfold Life.requeueDelayed
    split
    · rename_i hp
      exact .inr ⟨.inr (.inl hp), retry_released groupExists now a x⟩
    · exact .inl ⟨rfl, rfl⟩
  | @fire groupExists a ha =>
    unfold Life.fire
    split
    · rename_i hp
      split
      · left
        refine ⟨rfl, ?_⟩
        cases hh : x.hash <;> simp [Life.status, Life.write, hh, ScheduledArg.writeSchedule]
      · exact .inr ⟨.inr (.inr hp), publishDue_released groupExists a x⟩
    · exact .inl ⟨rfl, rfl⟩
  | note hh hf => exact .inl ⟨rfl, by simp [Life.status, Life.write, hh, hf.1]⟩

/-- The workers keep the parameters and the number of attempts. -/
theorem hash (hx : x.Worked type group x') (h : Legal type group x) :
    x' = x ∨ ∃ old new, x.hash = some old ∧ x'.hash = some new ∧ new.message = old.message ∧
      new.attempts = old.attempts := by
  have hold : x.Shelved → ∃ old, x.hash = some old := by
    intro hs
    rcases h.shelved hs with hst | hst | hst <;>
      exact (Option.bind_eq_some_iff.1 hst).imp fun _ h => h.1
  have hretry : ∀ {old : MessageHash} (groupExists : Bool) (now : Millis) (a : RequeueArg),
      x.hash = some old → ∃ new, (x.retry type groupExists now a).hash = some new ∧
        new.message = old.message ∧ new.attempts = old.attempts := by
    intro old groupExists now a hx
    unfold Life.retry
    split <;> exact ⟨_, Life.write_of_hash hx, rfl, rfl⟩
  cases hx with
  | @requeue groupExists now a ha =>
    unfold Life.requeue
    split
    · rename_i hp
      obtain ⟨old, hx⟩ := hold (.inl hp)
      right
      split
      · obtain ⟨new, hnew⟩ := hretry groupExists now a hx
        exact ⟨old, new, hx, hnew⟩
      · exact ⟨old, _, hx, Life.write_of_hash hx, rfl, rfl⟩
    · exact .inl rfl
  | @requeueDelayed groupExists now a ha =>
    unfold Life.requeueDelayed
    split
    · rename_i hp
      obtain ⟨old, hx⟩ := hold (.inr (.inl hp))
      obtain ⟨new, hnew⟩ := hretry groupExists now a hx
      exact .inr ⟨old, new, hx, hnew⟩
    · exact .inl rfl
  | @fire groupExists a ha =>
    unfold Life.fire
    split
    · rename_i hp
      obtain ⟨old, hx⟩ := hold (.inr (.inr hp))
      right
      split
      · exact ⟨old, _, hx, Life.write_of_hash hx, rfl, rfl⟩
      unfold Life.publishDue
      split <;>
        exact ⟨old, _, hx, Life.write_of_hash hx, rfl, rfl⟩
    · exact .inl rfl
  | @note old f hx hf =>
    exact .inr ⟨old, f old, hx, Life.write_of_hash hx, hf.2.1, hf.2.2⟩

end Life.Worked

/-- A deletion has no effect, or it removes all fields and leaves the processing lists
alone. -/
theorem Life.delete_cases (type : QueueType) (group : Option GroupId) (x : Life) :
    x.delete type group = x ∨ x.status ≠ some .processing ∧ (x.delete type group).hash = none ∧
      (x.place = none → (x.delete type group).place = none) ∧
      ∀ c, x.heldBy c → (x.delete type group).heldBy c := by
  have hleave : ∀ p, (∀ c, p ≠ .list (.processing c)) →
      (x.place = none → (if x.place = some p then none else x.place) = none) ∧
        ∀ c, x.heldBy c →
          (if x.place = some p then none else x.place) = some (.list (.processing c)) := by
    intro p hp
    refine ⟨fun hnone => by rw [hnone]; rfl, fun c hc => ?_⟩
    rw [hc, if_neg fun h => hp c (Option.some.inj h).symm]
  unfold Life.delete
  split
  · exact .inl rfl
  · exact .inl rfl
  all_goals
    rename_i hst
    refine .inr ⟨by simp [hst], rfl, ?_⟩
  · exact ⟨id, fun _ => id⟩
  · exact ⟨id, fun _ => id⟩
  · exact ⟨id, fun _ => id⟩
  · exact hleave _ (by simp)
  · exact hleave _ (by simp)
  · exact hleave _ (pendingSlot_ne_processing type group)
  · exact ⟨id, fun _ => id⟩

/-- A settlement has no effect, or it ends the delivery that is going on. -/
theorem Track.Settlement.released {t : Track} {c : ConsumerId}
    {settled : Multiset (ConsumerId × Task)} {events : List Event}
    (hx : t.Settlement d m c settled x' events) :
    x' = t.life ∧ events = [] ∨
      t.life.heldBy c ∧ (∀ c', ¬x'.heldBy c') ∧ x'.status ≠ some .processing ∧
        (d.settlesPopped ∨ ∀ task ∈ t.tasks, task.1 = c → task.2.isPopped = false) ∧
        ∃ k unacked, events = [.settled c m k (t.delivery m) unacked] := by
  have hunack : ∀ a : UnackArg, t.life.heldBy c →
      (∀ c', ¬(t.life.unacknowledge c a).heldBy c') ∧
        (t.life.unacknowledge c a).status ≠ some .processing := by
    intro a hheld
    unfold Life.unacknowledge
    rw [if_pos hheld]
    by_cases hr : a.retries = true
    · exact ⟨fun c' => by simp [Life.heldBy, hr],
        by simp [Life.status, Life.write, UnackArg.write, hr]⟩
    · exact ⟨fun c' => by simp [Life.heldBy, hr],
        by simp [Life.status, Life.write, UnackArg.write, hr]⟩
  cases hx with
  | idle => exact .inl ⟨rfl, rfl⟩
  | acknowledge now hmem hheld hopen =>
    unfold Life.acknowledge
    rw [if_pos hheld]
    exact .inr ⟨hheld, fun c' => by simp [Life.heldBy],
      by simp [Life.status, Life.write, acknowledgeWrite], hopen, _, _, rfl⟩
  | unacknowledge cfg now hmem hheld hopen | reap cfg now hmem hheld hopen =>
    exact .inr ⟨hheld, (hunack _ hheld).1, (hunack _ hheld).2, hopen, _, _, rfl⟩

theorem Track.Settlement.legal {t : Track} {c : ConsumerId}
    {settled : Multiset (ConsumerId × Task)} {events : List Event}
    (hx : t.Settlement d m c settled x' events) (h : Legal type group t.life) :
    Legal type group x' := by
  cases hx with
  | idle => exact h
  | acknowledge now => exact h.acknowledge c now
  | unacknowledge => exact h.unacknowledge c _
  | reap => exact h.unacknowledge c _

/-- Every step keeps messages in the places that go with their status. -/
theorem Track.Step.legal {t t' : Track}
    (hstep : t.Step d type group m t') (h : Legal type group t.life) :
    Legal type group t'.life := by
  cases hstep with
  | idle => exact h
  | task => exact h
  | crash => exact h
  | load => exact h
  | work hx => exact hx.legal h
  | delete n hdelayed => exact h.delete hdelayed
  | pop hc hp => exact h.pop _ hp
  | @checkout c group' hash new now hmem hx hst hnew =>
    have hlegal := h.checkout now
    have hstatus : t.life.status = some .pending := by simp [Life.status, hx, hst]
    rw [Life.checkout, if_pos hstatus] at hlegal
    simpa only [Life.write, hx, Option.getD_some] using hlegal
  | settle hle hsettled hcard hfailed heffect => exact heffect.legal h

end Legal

end RedisSmq
