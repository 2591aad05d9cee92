import RedisSmq.Life.Scripts

/-!
# Where a message may be

`Legal type group x` says that the place of a message goes with its stored status: a
message that is scheduled, delayed or waiting for a retry is in the container of that
status, a settled or deleted one is in none. Two liberties remain. A processing list
may hold a message that is still pending, because a pop and its checkout are two
steps, and that message may be deleted in between. And a message in its pending
container may have the status of a message being processed: `checkout-message` looks
at the status alone. `Strict` rules the second one out.
-/

namespace RedisSmq

/-- The places that go with what is stored of a message of the given group. -/
inductive Legal (type : QueueType) (group : Option GroupId) : Life → Prop
  | gone : Legal type group ⟨none, none⟩
  | settled {h : MessageHash} (hst : h.status = some .acknowledged ∨
      h.status = some .deadLettered) :
      Legal type group ⟨none, some h⟩
  | orphaned (c : ConsumerId) : Legal type group ⟨some (.list (.processing c)), none⟩
  | held (c : ConsumerId) {h : MessageHash}
      (hst : h.status = some .pending ∨ h.status = some .processing) :
      Legal type group ⟨some (.list (.processing c)), some h⟩
  | waiting {h : MessageHash} (hst : h.status = some .pending ∨ h.status = some .processing) :
      Legal type group ⟨some (pendingSlot type group), some h⟩
  | requeued {h : MessageHash} (hst : h.status = some .unackRequeuing) :
      Legal type group ⟨some (.list .requeued), some h⟩
  | delayed {h : MessageHash} (hst : h.status = some .unackDelaying) :
      Legal type group ⟨some (.zset .delayed), some h⟩
  | scheduled {h : MessageHash} (hst : h.status = some .scheduled) :
      Legal type group ⟨some (.zset .scheduled), some h⟩

/-- A message that is being processed is in a processing list. -/
def Life.Strict (x : Life) : Prop := x.status = some .processing → ∃ c, x.heldBy c

theorem pendingSlot_ne_scheduled (type : QueueType) (group : Option GroupId) :
    pendingSlot type group ≠ .zset .scheduled := by
  cases type <;> simp [pendingSlot]

theorem pendingSlot_ne_processing (type : QueueType) (group : Option GroupId) (c : ConsumerId) :
    pendingSlot type group ≠ .list (.processing c) := by
  cases type <;> simp [pendingSlot]

namespace Legal

variable {type : QueueType} {group : Option GroupId} {x : Life}
variable {a : RequeueArg}

section

variable (h : Legal type group x)

include h

theorem holds : ∀ p ∈ x.place, p.holds = true := by
  cases h with
  | waiting hst => simp
  | _ => simp [Slot.holds]

/-- No message is in a pending container of a kind that the queue does not use. -/
theorem ne_other {p : Slot} {group' : Option GroupId}
    (hp : p = .list (.pending group') ∨ p = .zset (.priority group'))
    (hne : p ≠ pendingSlot type group') : x.place ≠ some p := by
  cases h with
  | waiting hst =>
    rintro heq
    cases heq
    rcases hp with hp | hp <;> cases type <;> simp_all [pendingSlot]
  | _ => rcases hp with rfl | rfl <;> simp

theorem place_of_settled {st : Status} (hst : x.status = some st)
    (hsettled : st = .acknowledged ∨ st = .deadLettered) : x.place = none := by
  cases h with
  | gone | settled => rfl
  | orphaned => cases hst
  | held _ h | waiting h =>
    rcases h with h | h <;> rcases hsettled with rfl | rfl <;> cases h.symm.trans hst
  | requeued h | delayed h | scheduled h =>
    rcases hsettled with rfl | rfl <;> cases h.symm.trans hst

theorem group_of_pending {group' : Option GroupId}
    (hp : x.place = some (pendingSlot type group')) : group' = group := by
  cases h with
  | waiting => cases type <;> simpa [pendingSlot, eq_comm] using hp
  | gone | settled => cases hp
  | _ => cases type <;> simp [pendingSlot] at hp

/-- The status of a message by the container it is in. -/
theorem status_of_requeued (hp : x.place = some (.list .requeued)) :
    x.status = some .unackRequeuing := by
  cases h with
  | requeued hst => exact hst
  | waiting hst => simp [pendingSlot_ne_requeued] at hp
  | _ => simp at hp

theorem status_of_delayed (hp : x.place = some (.zset .delayed)) :
    x.status = some .unackDelaying := by
  cases h with
  | delayed hst => exact hst
  | waiting hst => simp [pendingSlot_ne_delayed] at hp
  | _ => simp at hp

theorem status_of_scheduled (hp : x.place = some (.zset .scheduled)) :
    x.status = some .scheduled := by
  cases h with
  | scheduled hst => exact hst
  | waiting hst => simp [pendingSlot_ne_scheduled] at hp
  | _ => simp at hp

theorem acknowledge (c : ConsumerId) (now : Millis) : Legal type group (x.acknowledge c now) := by
  unfold Life.acknowledge
  split
  · exact .settled (.inl rfl)
  · exact h

theorem unacknowledge (c : ConsumerId) (a : UnackArg) : Legal type group (x.unacknowledge c a) := by
  unfold Life.unacknowledge
  split
  · by_cases hr : a.retries = true
    · rw [if_pos hr]
      exact .requeued (by simp [UnackArg.write, hr])
    · rw [if_neg hr]
      exact .settled (.inr (by simp [UnackArg.write, hr]))
  · exact h

end

theorem retry (x : Life) (groupExists : Bool) (now : Millis)
    (ha : a.group = group) : Legal type group (x.retry type groupExists now a) := by
  subst ha
  unfold Life.retry
  split
  · exact .waiting (.inl rfl)
  · exact .settled (.inr rfl)

theorem requeue (h : Legal type group x) (groupExists : Bool) (now : Millis)
    (ha : a.group = group) : Legal type group (x.requeue type groupExists now a) := by
  unfold Life.requeue
  split
  · split
    · exact retry x groupExists now ha
    · exact .delayed rfl
  · exact h

theorem requeueDelayed (h : Legal type group x) (groupExists : Bool) (now : Millis)
    (ha : a.group = group) : Legal type group (x.requeueDelayed type groupExists now a) := by
  unfold Life.requeueDelayed
  split
  · exact retry x groupExists now ha
  · exact h

theorem publishDue (x : Life) (groupExists : Bool) {a : ScheduledArg} (ha : a.group = group) :
    Legal type group (x.publishDue type groupExists a) := by
  subst ha
  unfold Life.publishDue
  split
  · exact .waiting (.inl rfl)
  · exact .settled (.inr rfl)

/-- A write that leaves the status alone. -/
theorem write (h : Legal type group x) {old : MessageHash} (hx : x.hash = some old)
    {f : MessageHash → MessageHash} (hf : (f old).status = old.status) :
    Legal type group ⟨x.place, x.write f⟩ := by
  rw [Life.write_of_hash hx]
  cases h <;> cases hx
  case settled hst => exact .settled (by rwa [hf])
  case held hst => exact .held _ (by rwa [hf])
  case waiting hst => exact .waiting (by rwa [hf])
  case requeued hst => exact .requeued (by rwa [hf])
  case delayed hst => exact .delayed (by rwa [hf])
  case scheduled hst => exact .scheduled (by rwa [hf])

theorem fire (h : Legal type group x) (groupExists : Bool) {a : ScheduledArg}
    (ha : a.group = group) : Legal type group (x.fire type groupExists a) := by
  unfold Life.fire
  split
  · rename_i hp
    split
    · have hst := h.status_of_scheduled hp
      obtain ⟨old, hold, _⟩ := Option.bind_eq_some_iff.1 hst
      exact h.write hold rfl
    · exact publishDue x groupExists ha
  · exact h

theorem checkout (h : Legal type group x) (now : Millis) : Legal type group (x.checkout now) := by
  unfold Life.checkout
  split
  · rename_i hst
    cases h with
    | held c _ => exact .held c (.inr rfl)
    | waiting _ => exact .waiting (.inr rfl)
    | gone => simp [Life.status] at hst
    | orphaned c => simp [Life.status] at hst
    | settled h => rcases h with h | h <;> simp [Life.status, h] at hst
    | requeued h | delayed h | scheduled h => simp [Life.status, h] at hst
  · exact h

theorem pop (c : ConsumerId) (h : Legal type group x) {group' : Option GroupId}
    (hp : x.place = some (pendingSlot type group')) :
    Legal type group ⟨some (.list (.processing c)), x.hash⟩ := by
  cases h with
  | gone => simp at hp
  | settled => simp at hp
  | orphaned c' => exact .orphaned c
  | held c' hst => exact .held c hst
  | waiting hst => exact .held c hst
  | requeued hst => simp [(pendingSlot_ne_requeued type group').symm] at hp
  | delayed hst => simp [(pendingSlot_ne_delayed type group').symm] at hp
  | scheduled hst => simp [(pendingSlot_ne_scheduled type group').symm] at hp

/-- A deletion leaves at most the identifier of a popped message behind. -/
theorem delete (h : Legal type group x)
    (hdelayed : x.status = some .unackDelaying → x.place ≠ some (.zset .delayed)) :
    Legal type group (x.delete type group) := by
  unfold Life.delete
  cases h with
  | gone => exact .gone
  | orphaned c => exact .orphaned c
  | settled hst => rcases hst with hst | hst <;> simpa [Life.status, hst] using .gone
  | held c hst =>
    rcases hst with hst | hst
    · simpa [Life.status, hst, (pendingSlot_ne_processing type group c).symm] using .orphaned c
    · simpa [Life.status, hst] using .held c (.inr hst)
  | waiting hst =>
    rcases hst with hst | hst
    · simpa [Life.status, hst] using .gone
    · simpa [Life.status, hst] using .waiting (.inr hst)
  | requeued hst => simpa [Life.status, hst] using .gone
  | delayed hst => exact absurd rfl (hdelayed hst)
  | scheduled hst => simpa [Life.status, hst] using .gone

end Legal

end RedisSmq
