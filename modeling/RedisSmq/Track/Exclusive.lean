import RedisSmq.Track.Follow

/-!
# Exclusive deliveries

As long as nobody settles a message that its consumer is about to check out, the
message stays in the processing list of that consumer until the checkout. So a checkout
succeeds only for the consumer that holds the message, and a delivery is settled before
the next one begins.
-/

namespace RedisSmq

/-- The consumers whose deliveries of the message are not settled yet, by the log. -/
def openDeliveries (m : MessageId) : List Event → List ConsumerId
  | [] => []
  | .checkedOut c id _ :: log =>
      if id = m then c :: openDeliveries m log else openDeliveries m log
  | .settled c id _ _ _ :: log =>
      if id = m then (openDeliveries m log).erase c else openDeliveries m log
  | _ :: log => openDeliveries m log

theorem openDeliveries_filter (m : MessageId) (log : List Event) :
    openDeliveries m (log.filter (Event.tells m)) = openDeliveries m log := by
  induction log with
  | nil => rfl
  | cons ev log ih =>
    cases ev with
    | checkedOut c id | settled c id | deleted id =>
      by_cases h : id = m
      · subst h
        simp [List.filter, Event.tells, openDeliveries, ih]
      · simp [List.filter, Event.tells, openDeliveries, h, ih]
    | _ => simpa [List.filter, Event.tells, openDeliveries] using ih

theorem openDeliveries_deleted (m : MessageId) (n : Nat) (log : List Event) :
    openDeliveries m (List.replicate n (.deleted m) ++ log) = openDeliveries m log := by
  induction n with
  | zero => rfl
  | succ n ih => exact ih

namespace Track

/-- A popped message is in the processing list of the consumer that popped it, and a
message that is being processed has one open delivery, to the consumer that holds it. -/
structure Exclusive (type : QueueType) (m : MessageId) (p : Params) (t : Track) : Prop where
  legal : Legal type p.consumerGroupId t.life
  popped : ∀ task ∈ t.tasks, task.2.isPopped = true →
    t.life.heldBy task.1 ∧ t.life.status ≠ some .processing
  once : t.tasks.countP (fun task => task.2.isPopped = true) ≤ 1
  opened : t.life.status = some .processing ∧
      (∃ c, t.life.heldBy c ∧ openDeliveries m t.log = [c]) ∨
    t.life.status ≠ some .processing ∧ openDeliveries m t.log = []
  held : ∀ c held, .checkedOut c m held ∈ t.log → held = true

namespace Exclusive

variable {type : QueueType} {m : MessageId} {p : Params} {t t' : Track} {d : Discipline}

section

variable (h : t.Exclusive type m p)

include h

/-- Tasks may go, and tasks that have not popped the message may come. -/
private theorem of_tasks (crashed : List ConsumerId)
    {rest added : Multiset (ConsumerId × Task)} (hle : rest ≤ t.tasks)
    (hadded : ∀ task ∈ added, task.2.isPopped = false) :
    Exclusive type m p { t with tasks := rest + added, crashed := crashed } where
  legal := h.legal
  popped task htask hpop := by
    rcases Multiset.mem_add.1 htask with htask | htask
    · exact h.popped task (Multiset.mem_of_le hle htask) hpop
    · simp [hadded task htask] at hpop
  once := by
    have hzero : added.countP (fun task => task.2.isPopped = true) = 0 :=
      Multiset.countP_eq_zero.2 fun task htask => by simp [hadded task htask]
    rw [Multiset.countP_add, hzero]
    exact (Multiset.countP_le_of_le _ hle).trans h.once
  opened := h.opened
  held := h.held

/-- A message that is in no processing list is not about to be checked out. -/
private theorem not_popped (hheld : ∀ c, ¬t.life.heldBy c) :
    ∀ task ∈ t.tasks, task.2.isPopped = false := by
  intro task htask
  by_contra hpop
  exact hheld _ (h.popped task htask (by simpa using hpop)).1

private theorem opened_of_not_processing
    (hst : t.life.status ≠ some .processing) : openDeliveries m t.log = [] := by
  rcases h.opened with ⟨hproc, _⟩ | ⟨_, hnone⟩
  · exact absurd hproc hst
  · exact hnone

private theorem not_processing (hheld : ∀ c, ¬t.life.heldBy c) :
    t.life.status ≠ some .processing := by
  rcases h.opened with ⟨_, c, hc, _⟩ | ⟨hst, _⟩
  · exact absurd hc (hheld c)
  · exact hst

private theorem work {x' : Life}
    (hx : t.life.Worked type p.consumerGroupId x') : Exclusive type m p { t with life := x' } := by
  rcases hx.place with ⟨hplace, hst⟩ | ⟨hshelved, hheld, hst⟩
  · have hheld : ∀ c, x'.heldBy c ↔ t.life.heldBy c := fun c => by simp [Life.heldBy, hplace]
    exact ⟨hx.legal h.legal, fun task htask hpop => by
        simpa only [hheld, hst] using h.popped task htask hpop, h.once,
      by simpa only [hheld, hst] using h.opened, h.held⟩
  · refine ⟨hx.legal h.legal, fun task htask hpop => ?_, h.once, .inr ⟨hst, ?_⟩, h.held⟩
    · simp [h.not_popped hshelved.not_heldBy task htask] at hpop
    · exact h.opened_of_not_processing (h.not_processing hshelved.not_heldBy)

private theorem delete (n : Nat)
    (hdelayed : t.life.status = some .unackDelaying → t.life.place ≠ some (.zset .delayed)) :
    Exclusive type m p
      { t with
        life := t.life.delete type p.consumerGroupId
        log := List.replicate n (.deleted m) ++ t.log } := by
  have hlog : ∀ c held, .checkedOut c m held ∈ List.replicate n (.deleted m) ++ t.log →
      held = true := by
    intro c held hev
    rcases List.mem_append.1 hev with hev | hev
    · cases List.eq_of_mem_replicate hev
    · exact h.held c held hev
  rcases t.life.delete_cases type p.consumerGroupId with heq | ⟨hst, hhash, _, hheld⟩
  · refine ⟨h.legal.delete hdelayed, ?_, h.once, ?_, hlog⟩
    · rw [heq]
      exact h.popped
    · rw [heq, openDeliveries_deleted]
      exact h.opened
  · have hnone : (t.life.delete type p.consumerGroupId).status ≠ some .processing := by
      simp [Life.status, hhash]
    refine ⟨h.legal.delete hdelayed, fun task htask hpop => ?_, h.once, .inr ⟨hnone, ?_⟩, hlog⟩
    · exact ⟨hheld _ (h.popped task htask hpop).1, hnone⟩
    · rw [openDeliveries_deleted]
      exact h.opened_of_not_processing hst

private theorem pop (c : ConsumerId) {group : Option GroupId}
    (hplace : t.life.place = some (pendingSlot type group)) :
    Exclusive type m p
      { t with
        life := ⟨some (.list (.processing c)), t.life.hash⟩
        tasks := (c, .popped m group) ::ₘ t.tasks } := by
  have hheld : ∀ c, ¬t.life.heldBy c := fun c => by
    simp [Life.heldBy, hplace, pendingSlot_ne_processing]
  have hnone := h.not_popped hheld
  refine ⟨h.legal.pop c hplace, fun task htask hpop => ?_, ?_, .inr ⟨h.not_processing hheld, ?_⟩,
    h.held⟩
  · rcases Multiset.mem_cons.1 htask with rfl | htask
    · exact ⟨rfl, h.not_processing hheld⟩
    · simp [hnone task htask] at hpop
  · rw [Multiset.countP_cons, Multiset.countP_eq_zero.2 fun task htask =>
      by simp [hnone task htask]]
    split <;> omega
  · exact h.opened_of_not_processing (h.not_processing hheld)

private theorem checkout {c : ConsumerId} {group : Option GroupId}
    {hash : MessageHash} {new : Multiset Task} (now : Millis)
    (hmem : (c, Task.popped m group) ∈ t.tasks) (hx : t.life.hash = some hash)
    (hst : hash.status = some .pending) (hnew : ∀ task ∈ new, task.isPopped = false) :
    Exclusive type m p
      { t with
        life := ⟨t.life.place, some (checkoutWrite now hash)⟩
        tasks := t.tasks.erase (c, .popped m group) + new.map fun task => (c, task)
        log := .checkedOut c m (decide (t.life.heldBy c)) :: t.log } := by
  obtain ⟨hheld, hnot⟩ := h.popped _ hmem rfl
  have hlegal := h.legal.checkout now
  rw [Life.checkout, if_pos (by simp [Life.status, hx, hst]), Life.write_of_hash hx] at hlegal
  have hcount := countP_erase_add (fun task => task.2.isPopped = true) hmem
  rw [if_pos (by rfl)] at hcount
  -- The task that checks the message out is the only one that has popped it.
  have hzero : (t.tasks.erase (c, .popped m group)).countP
      (fun task => task.2.isPopped = true) = 0 := by
    have := h.once
    omega
  have hnone : ∀ task ∈ t.tasks.erase (c, .popped m group) + new.map fun task => (c, task),
      task.2.isPopped = false := by
    intro task htask
    rcases Multiset.mem_add.1 htask with htask | htask
    · simpa using Multiset.countP_eq_zero.1 hzero task htask
    · obtain ⟨next, hnext, rfl⟩ := Multiset.mem_map.1 htask
      exact hnew next hnext
  refine ⟨hlegal, fun task htask hpop => ?_, ?_, .inl ⟨rfl, c, hheld, ?_⟩, fun c' held hev => ?_⟩
  · simp [hnone task htask] at hpop
  · rw [Multiset.countP_eq_zero.2 fun task htask => by simp [hnone task htask]]
    exact Nat.zero_le 1
  · simp [openDeliveries, h.opened_of_not_processing hnot]
  rcases List.mem_cons.1 hev with heq | hev
  · cases heq
    simpa using hheld
  · exact h.held c' held hev

private theorem settle (hd : ¬d.settlesPopped) {c : ConsumerId}
    {settled failed : Multiset (ConsumerId × Task)} {x' : Life} {events : List Event}
    (hfailed : ∀ task ∈ failed, task.2.isPopped = false)
    (heffect : t.Settlement d m c settled x' events) :
    Exclusive type m p
      { t with life := x', tasks := t.tasks - settled + failed, log := events ++ t.log } := by
  have htasks := h.of_tasks t.crashed (Multiset.sub_le_self t.tasks settled) hfailed
  have hlegal := heffect.legal h.legal
  rcases heffect.released with ⟨rfl, rfl⟩ | ⟨hheld, hfree, hst, hopen, k, unacked, rfl⟩
  · exact htasks
  have hnone : ∀ task ∈ t.tasks, task.2.isPopped = false := by
    intro task htask
    by_contra hpop
    have hc : task.1 = c := by
      have := (h.popped task htask (by simpa using hpop)).1.symm.trans hheld
      simpa using this
    exact hpop ((hopen.resolve_left hd) task htask hc)
  refine ⟨hlegal, fun task htask hpop => ?_, htasks.once, .inr ⟨hst, ?_⟩, fun c' held hev => ?_⟩
  · rcases Multiset.mem_add.1 htask with htask | htask
    · simp [hnone task (Multiset.mem_of_le (Multiset.sub_le_self _ _) htask)] at hpop
    · simp [hfailed task htask] at hpop
  · rcases h.opened with ⟨_, c', hc', hlog⟩ | ⟨_, hlog⟩
    · obtain rfl : c' = c := by simpa using hc'.symm.trans hheld
      simp [openDeliveries, hlog]
    · simp [openDeliveries, hlog]
  · rcases List.mem_cons.1 hev with heq | hev
    · cases heq
    · exact h.held c' held hev

/-- Deliveries stay exclusive, even if timers fire late and live consumers are reaped. -/
theorem step (hd : ¬d.settlesPopped)
    (hstep : t.Step d type p.consumerGroupId m t') : t'.Exclusive type m p := by
  cases hstep with
  | idle => exact h
  | @task c old new hmem hgo =>
    refine h.of_tasks t.crashed (Multiset.erase_le _ _) fun task htask => ?_
    obtain ⟨next, hnext, rfl⟩ := Multiset.mem_map.1 htask
    exact hgo.isPopped next hnext
  | crash c =>
    have hcrash := h.of_tasks (c :: t.crashed) (Multiset.filter_le (fun task => task.1 ≠ c) t.tasks)
      fun _ hmem => absurd hmem (Multiset.notMem_zero _)
    rwa [Multiset.add_zero] at hcrash
  | load => exact ⟨h.legal, h.popped, h.once, h.opened, h.held⟩
  | work hx => exact h.work hx
  | delete n hdelayed hplace hn => exact h.delete n hdelayed
  | pop hc hp => exact h.pop _ hp
  | @checkout c group hash new now hmem hx hst hnew =>
    refine h.checkout now hmem hx hst fun task htask => ?_
    rcases hnew with rfl | ⟨e, rfl, _⟩
    · exact absurd htask (Multiset.notMem_zero _)
    · rw [Multiset.mem_singleton.1 htask]
      rfl
  | settle hle hsettled hcard hfailed heffect =>
    refine h.settle hd (fun task htask => ?_) heffect
    obtain ⟨k, cause, rfl, _⟩ := hfailed task htask
    rfl

end

end Exclusive

theorem exclusive_invariant {d : Discipline} (hd : ¬d.settlesPopped) (type : QueueType)
    (Selected : Params → Prop) : TrackInvariant d type Selected (Exclusive type) where
  legal h := h.legal
  born _ _ h := by
    refine ⟨h.legal, fun _ hmem => absurd hmem (Multiset.notMem_zero _), Nat.zero_le 1,
      .inr ⟨?_, rfl⟩, fun _ _ hev => absurd hev List.not_mem_nil⟩
    rcases h.stored with ⟨hst, _⟩ | ⟨hst, _⟩ <;> simp [hst]
  step _ h hstep := h.step hd hstep

end Track

end RedisSmq
