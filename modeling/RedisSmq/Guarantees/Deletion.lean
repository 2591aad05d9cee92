import RedisSmq.Admin.Delete
import RedisSmq.Track.Follow

/-!
# Deleted messages

Workers read a message first and run their scripts later. Most scripts look for the
message in the container they take it from, and so have no effect on a message that was
deleted in between. Two do not notice. `publish-scheduled` puts a periodic message back
into the schedule without looking for it there. And `delete-message` looks for a pending
message in the pending container only; if the message was popped, its identifier stays
behind in a processing list, where an unacknowledgement finds it. `DeleteMessages` moreover
mixes the messages of a group with the name `_` with those without a group and looks for all
of them in the container of the first one; a message of the other group is popped later.
-/

namespace RedisSmq

/-- The steps that keep deleted messages deleted: a periodic message goes back into the
schedule only if it is still there, and a pending message is deleted only if it is in its
pending container. -/
def System.KeepsDeleted (s : System) (a : Action) : Prop :=
  s.ReschedulesInPlace a ∧ s.DeletesInPlace a
  deriving Decidable

section Erased

variable {type : QueueType} {s s' : System} {a : Action} {m : MessageId} {p : Params}
variable {d : Discipline}

/-- A deletion in place leaves nothing behind. -/
theorem Legal.delete_eq_gone {group : Option GroupId} {x : Life} (h : Legal type group x)
    (hdelayed : x.status = some .unackDelaying → x.place ≠ some (.zset .delayed))
    (hplace : x.status = some .pending → x.place = some (pendingSlot type group))
    (hsome : x.hash.isSome = true) (hnone : (x.delete type group).hash.isNone = true) :
    x.delete type group = ⟨none, none⟩ := by
  unfold Life.delete at hnone ⊢
  cases h with
  | gone | orphaned => cases hsome
  | settled hst => rcases hst with hst | hst <;> simp [Life.status, hst]
  | held c hst =>
    rcases hst with hst | hst
    · exact absurd (Option.some.inj (hplace hst)).symm (pendingSlot_ne_processing type group c)
    · simp [Life.status, hst] at hnone
  | waiting hst =>
    rcases hst with hst | hst
    · simp [Life.status, hst]
    · simp [Life.status, hst] at hnone
  | requeued hst => simp [Life.status, hst]
  | delayed hst => exact absurd rfl (hdelayed hst)
  | scheduled hst => simp [Life.status, hst]

/-- A message that is nowhere stays nowhere. -/
theorem Track.Step.gone {t t' : Track} (h : t.Step d type p.consumerGroupId m t')
    (ht : t.life = ⟨none, none⟩) : t'.life = ⟨none, none⟩ := by
  cases h with
  | idle | task | crash | load => exact ht
  | work hx =>
    rcases hx.hash (ht ▸ .gone) with rfl | ⟨old, new, hold, _⟩
    · exact ht
    · simp [ht] at hold
  | delete => simp [ht, Life.delete, Life.status]
  | pop hc hp => simp [ht] at hp
  | checkout now hmem hx => simp [ht] at hx
  | settle hle hsettled hcard hfailed heffect =>
    rcases heffect.released with ⟨heq, _⟩ | ⟨hheld, _⟩
    · exact heq.trans ht
    · simp [Life.heldBy, ht] at hheld

/-- A message that was deleted is nowhere. -/
structure Track.Erased (type : QueueType) (m : MessageId) (p : Params) (t : Track) : Prop where
  legal : Legal type p.consumerGroupId t.life
  gone : .deleted m ∈ t.log → t.life = ⟨none, none⟩

theorem Track.erased_invariant (type : QueueType) (Selected : Params → Prop) :
    TrackInvariant ⟨True, True, True, False⟩ type Selected (Track.Erased type) where
  legal h := h.legal
  born _ _ h := ⟨h.legal, fun hev => absurd hev List.not_mem_nil⟩
  step {m p t t'} _ h hstep := by
    refine ⟨hstep.legal h.legal, fun hev => ?_⟩
    by_cases hold : .deleted m ∈ t.log
    · exact hstep.gone (h.gone hold)
    -- The step has just deleted the message.
    cases hstep with
    | delete n hdelayed hplace hn =>
      rcases List.mem_append.1 hev with hnew | hnew
      · obtain ⟨hsome, hnone⟩ := hn.1 (Nat.pos_of_ne_zero (List.mem_replicate.1 hnew).1)
        exact h.legal.delete_eq_gone hdelayed (hplace.resolve_left id) hsome hnone
      · exact absurd hnew hold
    | checkout => exact absurd ((List.mem_cons.1 hev).resolve_left (by simp)) hold
    | settle hle hsettled hcard hfailed heffect =>
      rcases heffect.released with ⟨_, rfl⟩ | ⟨_, _, _, _, k, unacked, rfl⟩
      · exact absurd hev hold
      · exact absurd ((List.mem_cons.1 hev).resolve_left (by simp)) hold
    | _ => exact absurd hev hold

/-- No step touches a published message that is nowhere. -/
theorem Step.spares (h : Step s a s') (hs : Sane type s) (hp : s.origin m = some p)
    (hx : At s.db m ⟨none, none⟩) (hplace : s.ReschedulesInPlace a) : Spared m s.db s'.db := by
  have hocc : ∀ {q : Slot}, q.holds = true → s.db.occ q m = 0 := fun hq => by simp [hx.occ _ hq]
  have hfresh : ∀ {id}, s.nextId ≤ id → m ≠ id := fun hid =>
    (hs.fresh_ne hid (by rw [hp]; rfl)).symm
  cases h with
  | task | crash | fetch | load | tick | configure => exact .refl m s.db
  | setState => exact setQueueState_spared _ _ _ _ m
  | saveGroup =>
    exact ⟨rfl, fun q _ => by cases q <;> rfl, fun q => by cases q <;> exact le_rfl⟩
  | @deleteGroup g keys =>
    refine deleteConsumerGroup_spared hs.type_eq g keys fun q hq _ => hocc ?_
    rcases hq with rfl | rfl <;> rfl
  | expire hk => exact expire_spared hk m s.db
  | @produce msg group db' hm hdb =>
    subst hdb
    exact (publishMessage_frame _ _).spared (hfresh (s.prepared_id msg group).ge)
  | pop hc htype hpop =>
    obtain ⟨hpos, hframe, _⟩ := pop_spec hpop
    refine hframe.spared ?_
    rintro rfl
    simp [hocc] at hpos
  | checkout hmem hstate hget hst hdb =>
    rw [hdb]
    refine ((((Frame.refl _ s.db).hset _).hincrby _ _).hincrby _ _).spared ?_
    rintro rfl
    simp [hx.hash] at hget
  | acknowledge htasks ht hrun =>
    rw [hrun]
    exact acknowledgeMessage_spared fun _ => hocc rfl
  | unacknowledge | reap => exact unacknowledgeMessage_spared fun _ _ _ => hocc rfl
  | requeueImmediate hload =>
    exact requeueImmediate_spared hs.type_eq (hs.requeueArgs_fit hload) fun _ _ _ => hocc rfl
  | requeueDelayed hload =>
    exact requeueDelayed_spared hs.type_eq (hs.requeueArgs_fit hload) fun _ _ _ => hocc rfl
  | @publishScheduled group batch t db' hload hgroup hnodup ht hdb =>
    rw [hdb]
    obtain ⟨hfit, _, hcopies⟩ := scheduledArgs_copies (t := t) hs hload
    exact publishScheduled_spared hs.type_eq hfit
      (fun b hb nextAt child hnext => (hfresh (hcopies b hb nextAt child hnext).1.1).symm)
      fun b hb _ => ⟨hocc rfl, hplace (batch, t) rfl b hb⟩
  | delete hload hgroup hdb =>
    rw [hdb]
    exact deleteMessage_spared _ _ fun _ => hx.status_eq
  | @requeueMessage e t arg db' hload hstatus ht harg hdb =>
    rw [hdb, requeueMessage_moves _ s.db (Keyspace.isSome_queue_of_queueType? hs.type_eq)]
    refine copyMove_spared ?_ fun _ => by simp [hx.hash]
    rw [harg]
    exact (hfresh le_rfl).symm

end Erased

/-- The actions of the system, and the call of `delete-message` for a key of the map in which
`DeleteMessages` groups the messages. -/
inductive DeletionAction where
  | act (a : Action)
  | deleteGroup (lock : Option LockId) (batch : List Envelope)

/-- The group of the first message. -/
def headGroup (batch : List Envelope) : Option GroupId := batch.head?.bind Envelope.consumerGroupId

namespace System

variable (groupName : GroupId → String) (s : System)

/-- `deleteMessageGroup` is given messages that have the same key in the map, and uses the keys
of the group of the first one. -/
def deletionStep : DeletionAction → Option System
  | .act a => s.step a
  | .deleteGroup lock batch =>
      if s.hasLoaded .deleter batch ∧ ∀ e ∈ batch, groupKey groupName e.consumerGroupId =
          groupKey groupName (headGroup batch) then
        some (s.deleteUnder (headGroup batch) lock batch)
      else none

/-- The steps that keep deleted messages deleted; a deletion moreover mixes no groups. -/
def DeletesForGood : DeletionAction → Prop
  | .act a => s.KeepsDeleted a
  | .deleteGroup lock batch => (∀ e ∈ batch, e.consumerGroupId = headGroup batch) ∧
      s.KeepsDeleted (.delete (headGroup batch) lock batch)

instance : ∀ x, Decidable (s.DeletesForGood x)
  | .act a => inferInstanceAs (Decidable (s.KeepsDeleted a))
  | .deleteGroup _ _ => inferInstanceAs (Decidable (_ ∧ _))

variable {groupName s}

/-- A run that mixes no groups is a run of the system. -/
theorem refines_deletion {as : List DeletionAction} {s' : System}
    (halong : Run.Along (deletionStep groupName) DeletesForGood s as)
    (hrun : Run.exec (deletionStep groupName) s as = some s') :
    ∃ bs, Run.Along step KeepsDeleted s bs ∧ s.Runs bs s' := by
  refine Run.refines (P := fun _ => True) id (fun s x s' _ hx hstep => ⟨trivial, .inr ?_⟩) trivial
    halong hrun
  cases x with
  | act a => exact ⟨a, hx, hstep⟩
  | deleteGroup lock batch =>
    obtain ⟨⟨hload, _⟩, hs'⟩ := Option.ite_none_right_eq_some.1 hstep
    exact ⟨_, hx.2, (if_pos ⟨hload, hx.1⟩).trans hs'⟩

end System

/-- A message that is repeated twice, every millisecond from the first one on. -/
def repeatedMessage : Producible :=
  { promptMessage with
    scheduledDelay := some 1000000, scheduledRepeatPeriod := some 1000000, scheduledRepeat := 2 }

/-- The copy of the repeated message that is loaded when it is due. -/
def dueCopy : Envelope :=
  { Envelope.new { repeatedMessage with createdAt := 1000000 } 0 with
    status := .scheduled
    state :=
      { State.new 0 with
        scheduledAt := some 1, effectiveScheduledDelay := 1, scheduledTimes := 1 } }

/-- The message is deleted after the scheduler has loaded it. -/
def deletedBeforeDue : List Action :=
  [.produce repeatedMessage none, .tick 1000000, .fetch .scheduler, .load .scheduler 0,
    .load .deleter 0, .delete none none [dueCopy]]

/-- The message is deleted between its pop and its checkout, and the consumer crashes. -/
def deletedAfterPop : List Action :=
  [.produce promptMessage none, .pop 7 none, .crash 7, .fetch (.reaper 7), .load (.reaper 7) 0,
    .load .deleter 0, .delete none none [.early promptMessage 0 .pending 0]]

/-- A message without a group and one of a group with the name `_` are deleted together. -/
def deletedTogether : List DeletionAction :=
  [.act (.produce promptMessage none), .act (.produce promptMessage (some 1)),
    .act (.load .deleter 0), .act (.load .deleter 1),
    .deleteGroup none [.early promptMessage 0 .pending 0,
      { Envelope.early promptMessage 1 .pending 0 with consumerGroupId := some 1 }]]

/-- The messages are counted as deleted and are gone, and come back: one in the schedule, one
in the requeued list and one in a processing list. -/
theorem deleted_messages_return :
    (Run.exec System.step (System.created {} .fifo [] 0) deletedBeforeDue).map (fun s =>
        (decide (.deleted 0 ∈ s.log), (s.db.hgetall 0).isSome, s.db.occ (.zset .scheduled) 0)) =
          some (true, false, 0) ∧
      (Run.exec System.step (System.created {} .fifo [] 0)
        (deletedBeforeDue ++ [.publishScheduled none [dueCopy] 1000000])).map (fun s =>
          ((s.db.hgetall 0).isSome, s.db.occ (.zset .scheduled) 0)) = some (true, 1) ∧
      (Run.exec System.step (System.created {} .fifo [] 0) deletedAfterPop).map (fun s =>
        (decide (.deleted 0 ∈ s.log), (s.db.hgetall 0).isSome, s.db.occ (.list .requeued) 0)) =
          some (true, false, 0) ∧
      (Run.exec System.step (System.created {} .fifo [] 0)
        (deletedAfterPop ++ [.reap 7 [.early promptMessage 0 .pending 0] 0])).map (fun s =>
          ((s.db.hgetall 0).isSome, s.db.occ (.list .requeued) 0)) = some (true, 1) ∧
      (Run.exec (System.deletionStep fun _ => "_") (System.created {} .fifo [1] 0)
        deletedTogether).map (fun s => (decide (.deleted 1 ∈ s.log), (s.db.hgetall 1).isSome,
          s.db.occ (.list (.processing 7)) 1)) = some (true, false, 0) ∧
      (Run.exec (System.deletionStep fun _ => "_") (System.created {} .fifo [1] 0)
        (deletedTogether ++ [.act (.pop 7 (some 1))])).map (fun s =>
          s.db.occ (.list (.processing 7)) 1) = some 1 := by
  refine ⟨?_, ?_, ?_, ?_, ?_, ?_⟩ <;> decide +kernel

/-- A message that was deleted has no hash in any later state, and no list or sorted set
of the queue gains its identifier, if all steps meet the condition. -/
theorem deleted_stays_deleted (groupName : GroupId → String) (cfg : Config) (type : QueueType)
    (groups : List GroupId) (now : Nanos) (as bs : List DeletionAction) (s s' : System)
    (halong : Run.Along (System.deletionStep groupName) System.DeletesForGood
      (System.created cfg type groups now) (as ++ bs))
    (hrun : Run.exec (System.deletionStep groupName)
      (System.created cfg type groups now) as = some s)
    (hrun' : Run.exec (System.deletionStep groupName) s bs = some s')
    (m : MessageId) (hdeleted : .deleted m ∈ s.log) :
    s'.db.hgetall m = none ∧ ∀ q : Slot, s'.db.occ q m ≤ s.db.occ q m := by
  obtain ⟨halong, halong'⟩ := halong.of_append hrun
  obtain ⟨as, halong, hrun⟩ := System.refines_deletion halong hrun
  obtain ⟨bs, halong', hrun'⟩ := System.refines_deletion halong' hrun'
  have h := Run.invariant_along (P := Tracked type (fun _ => True) (Track.Erased type))
    (fun s a s' h hcond hstep =>
      h.step (Track.erased_invariant type _) (fun m _ _ _ =>
        .of_conduct hcond.1 (.inl trivial) (.inl trivial) (.inl trivial) (.inr hcond.2) m)
        (.of_step hstep))
    (Tracked.created cfg groups now) halong hrun
  obtain ⟨p, hp⟩ := Option.isSome_iff_exists.1 (h.sane.log _ hdeleted)
  obtain ⟨x, hx, herased⟩ := h.track m p hp trivial
  obtain rfl : x = ⟨none, none⟩ :=
    herased.gone (List.mem_filter.2 ⟨hdeleted, by simp [Event.tells]⟩)
  have hend : Sane type s' ∧ s'.origin m = some p ∧ At s'.db m ⟨none, none⟩ ∧
      ∀ q : Slot, s'.db.occ q m ≤ s.db.occ q m := by
    refine Run.invariant_along
      (P := fun s' => Sane type s' ∧ s'.origin m = some p ∧ At s'.db m ⟨none, none⟩ ∧
        ∀ q : Slot, s'.db.occ q m ≤ s.db.occ q m)
      ?_ ⟨h.sane, hp, hx, fun _ => le_rfl⟩ halong' hrun'
    rintro s₁ a s₂ ⟨hs, hp, hx, hocc⟩ hcond hstep
    have hstep := Step.of_step hstep
    have hspared := hstep.spares hs hp hx hcond.1
    exact ⟨hs.step hstep, hs.origin_mono (hs.sound hstep) hp, hspared.at_iff.2 hx,
      fun q => (hspared.occ_le q).trans (hocc q)⟩
  exact ⟨hend.2.2.1.hash, hend.2.2.2⟩

/-- The message is deleted from its pending list. -/
def deletedPending : List DeletionAction :=
  [.act (.produce promptMessage none), .act (.load .deleter 0),
    .deleteGroup none [.early promptMessage 0 .pending 0]]

/-- The message stays deleted, although a consumer comes to look for it. -/
theorem deleted_stays_deleted_pending :
    ∃ s s', Run.exec (System.deletionStep toString) (System.created {} .fifo [] 0) deletedPending =
        some s ∧
      Run.exec (System.deletionStep toString) s
        [.act (.produce promptMessage none), .act (.pop 7 none)] = some s' ∧
      s'.db.hgetall 0 = none ∧ ∀ q : Slot, s'.db.occ q 0 ≤ s.db.occ q 0 := by
  have hsome : (Run.exec (System.deletionStep toString) (System.created {} .fifo [] 0)
      deletedPending).map (fun s => (decide (.deleted 0 ∈ s.log),
        (Run.exec (System.deletionStep toString) s
          [.act (.produce promptMessage none), .act (.pop 7 none)]).isSome)) =
      some (true, true) := by decide +kernel
  obtain ⟨s, hs, heq⟩ := Option.map_eq_some_iff.1 hsome
  obtain ⟨hdeleted, hrest⟩ := Prod.mk.inj heq
  obtain ⟨s', hs'⟩ := Option.isSome_iff_exists.1 hrest
  exact ⟨s, s', hs, hs', deleted_stays_deleted _ _ _ _ _ _ _ s s' (by decide +kernel) hs hs' 0
    (of_decide_eq_true hdeleted)⟩

end RedisSmq
