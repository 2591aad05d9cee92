import RedisSmq.Admin.Erased
import RedisSmq.Consumers.Registry
import RedisSmq.Guarantees.Browsing

/-!
# Deleting a consumer group

`ConsumerGroupStore.Delete` should strand nothing: it should succeed only if the pending
container of the group is empty and nobody is subscribed with the group. The script checks
the members of the group and whether the container that it is given is empty, and the store
gives it the container of the queue itself, where a queue with groups keeps nothing. So the
group goes whatever is pending for it.
-/

namespace RedisSmq

/-- The containers of the other groups and the stored messages are what they were. -/
structure Managed.Spares (k k' : Managed) (g : GroupId) : Prop where
  lists : ∀ group ≠ some g, k'.db.lists (.pending group) = k.db.lists (.pending group)
  zsets : ∀ group ≠ some g, k'.db.zsets (.priority group) = k.db.zsets (.priority group)
  messages : k'.db.messages = k.db.messages

/-- A message of the group is stored as pending. -/
def Keyspace.AwaitsIn (db : Keyspace) (g : GroupId) (m : MessageId) : Prop :=
  db.status m = some .pending ∧ db.groupOf m = some g
  deriving Decidable

namespace Registry

/-- If the manager deletes the group, then nothing was pending for it, nobody was subscribed
with it, no other group loses a message, and no stored pending message belongs to it. -/
def DeletesSafely (type : QueueType) (r : Registry) (g : GroupId) : Prop :=
  ∀ k, r.queue.deleteGroupBy .manager g = (.ok, k) →
    r.queue.db.EmptyAt (pendingSlot type (some g)) ∧ r.queue.members g = [] ∧
      (∀ h ∈ r.subscribed, h.group ≠ some g) ∧ r.queue.Spares k g ∧
      ∀ m, ¬ k.db.AwaitsIn g m

/-- What the script would have to check besides the members: the container of the group. The
members are all that are subscribed with the group, and no message of the group is between
its pop and its checkout. -/
structure Checkable (type : QueueType) (r : Registry) (g : GroupId) : Prop where
  container : r.queue.db.EmptyAt (pendingSlot type (some g))
  enlisted : ∀ h ∈ r.subscribed, h.group = some g → h.consumer ∈ r.queue.members g
  popped : ∀ c, ∀ m ∈ r.queue.db.lists (.processing c), ¬ r.queue.db.AwaitsIn g m

/-- A periodic message goes back into the schedule only if it is still there. -/
def ReschedulesInPlace (r : Registry) : RegistryAction → Prop
  | .queue (.queue a) => r.queue.sys.ReschedulesInPlace a
  | _ => True

end Registry

section Steps

variable {type : QueueType} {k k' : Managed}

theorem Managed.step_deliveryModel {a : ManagedAction} (h : k.step a = some k') :
    k'.deliveryModel = k.deliveryModel := by
  cases a with
  | queue a =>
    obtain ⟨-, h⟩ := Option.ite_none_right_eq_some.1 h
    obtain ⟨sys, -, rfl⟩ := Option.map_eq_some_iff.1 h
    rfl
  | setRateLimit limit =>
    cases h
    unfold Managed.setRateLimit
    split
    · rfl
    · split <;> rfl
  | clearRateLimit =>
    cases h
    unfold Managed.clearRateLimit
    split
    · rfl
    · split <;> rfl
  | deleteGroup deleter g =>
    cases h
    rcases k.deleteConsumerGroup_effect OperationalState.locked.string none g (deleter.keys g)
      with ⟨-, heq⟩ | ⟨-, heq⟩
    · rw [heq]
    · rw [heq, Managed.setDb]
  | deleteQueue consumers groups processing =>
    cases h
    rcases k.deleteQueue_effect (toString OperationalState.locked.int) none consumers groups
      processing with heq | ⟨-, -, heq⟩
    · rw [heq]
    · rw [heq, Managed.withoutQueue, Managed.setDb]
  | subscribe c group =>
    cases h
    unfold Managed.subscribe
    split_ifs <;> rfl
  | unsubscribe c group =>
    cases h
    unfold Managed.unsubscribe
    split_ifs <;> rfl
  | checkRateLimit | expireRateCounter | beat | lapse | bind =>
    cases h
    rfl

theorem Registry.deliveryModel_of_runs {cfg : Config} {model : DeliveryModel}
    {groups : List GroupId} {now : Nanos} {as : List RegistryAction} {r : Registry}
    (hrun : (Registry.created cfg type model groups now).Runs as r) :
    r.queue.deliveryModel = model := by
  refine Run.invariant (P := fun r : Registry => r.queue.deliveryModel = model) ?_ rfl hrun
  intro r a r' hr hstep
  rcases (RegistryStep.of_step hstep).queue_step with heq | ⟨b, hb⟩
  · rwa [heq]
  · exact (Managed.step_deliveryModel hb).trans hr

/-- The manager's deletion changes no container, since it clears those of the queue itself,
which it has found empty. -/
theorem Managed.spares_withoutGroup (hs : Sane type k.sys) (huni : k.db.Uniform type)
    (hempty : k.db.EmptyAt (pendingSlot type none)) (g : GroupId) :
    k.Spares (k.setDb (k.db.withoutGroup g none)) g := by
  have hok : (RedisSmq.deleteConsumerGroup g none k.db).1 = .ok () :=
    (deleteConsumerGroup_ok_iff hs.type_eq g none).2 hempty
  have hsame := deleteConsumerGroup_removes_nothing huni hs.type_eq g none
  rw [deleteConsumerGroup_ok hok] at hsame
  exact ⟨fun group _ => congrFun hsame.1 _, fun group _ => congrFun hsame.2 _, rfl⟩

/-! ## Where the messages of a group are -/

theorem System.ReschedulesInPlace.of_schedules {s : System} {a : Action} (h : a.schedules = none) :
    s.ReschedulesInPlace a := by
  intro x hx
  rw [h] at hx
  cases hx

/-- As long as the queue exists, its messages are where they should be. -/
def Managed.Placed (type : QueueType) (k : Managed) : Prop :=
  k.db.queue.isSome = true → Located type k.sys

theorem Managed.placed_of_step {a : ManagedAction} (h : k.Placed type) (hstep : k.step a = some k')
    (hplace : ∀ b, a = .queue b → k.sys.ReschedulesInPlace b) : k'.Placed type := by
  intro hq
  have hsys := SysStep.of_step hstep
  have hloc := h (hsys.queue_of_isSome hq)
  change k'.sys.db.queue.isSome = true at hq
  generalize k'.sys = sys at hsys hq ⊢
  cases hsys with
  | same => exact hloc
  | queue _ hstep => exact hloc.step (Step.of_step hstep) (hplace _ rfl)
  | @deleteGroup deleter g =>
    have hstep : k.sys.step (.deleteGroup g (deleter.keys g)) = some _ := rfl
    exact hloc.step (Step.of_step hstep) (.of_schedules rfl)
  | deleteQueue => cases hq

theorem Registry.placed_of_step {r r' : Registry} {a : RegistryAction} (h : r.queue.Placed type)
    (hplace : r.ReschedulesInPlace a) (hstep : r.step a = some r') : r'.queue.Placed type := by
  have hstep := RegistryStep.of_step hstep
  generalize r'.queue = k, r'.subscribed = hs at hstep ⊢
  cases hstep with
  | idle => exact h
  | group hstep | popped hstep | crashed hstep =>
    refine Managed.placed_of_step h hstep fun b hb => ?_
    cases hb
    exact .of_schedules rfl
  | subscribed hreply | unsubscribed hreply | evicted hreply =>
    intro hq
    have hsys := congrArg Managed.sys (congrArg Prod.snd hreply)
    first
    | rw [Managed.subscribe_sys] at hsys
    | rw [Managed.unsubscribe_sys] at hsys
    rw [Managed.db, ← hsys] at hq
    exact hsys ▸ h hq
  | queue _ hstep =>
    refine Managed.placed_of_step h hstep fun b hb => ?_
    cases hb
    exact hplace

/-- A stored pending message of a group is in the container of the group, unless it was
popped. -/
theorem Located.awaits {s : System} (h : Located type s) {g : GroupId} {m : MessageId}
    (hm : s.db.AwaitsIn g m) :
    0 < s.db.occ (pendingSlot type (some g)) m ∨ ∃ c, m ∈ s.db.lists (.processing c) := by
  obtain ⟨hst, hgroup⟩ := hm
  obtain ⟨p, x, hp, hx, hlegal, hstatus⟩ := h.of_status hst
  have hparams : p.consumerGroupId = some g := by
    obtain ⟨hash, hget, -⟩ := Option.bind_eq_some_iff.1 hst
    rw [← hgroup, Keyspace.groupOf, hget, Option.bind_some]
    have hcore : s.db.core m = (hash.id, hash.message) := by simp [Keyspace.core, hget]
    rcases h.sane.core m with hnone | ⟨p', hp', hsome⟩
    · rw [Keyspace.groupOf, hget, Option.bind_some,
        (Prod.mk.inj (hcore.symm.trans hnone)).2] at hgroup
      cases hgroup
    · rw [(Prod.mk.inj (hcore.symm.trans hsome)).2, Option.some.inj (hp.symm.trans hp')]
      rfl
  cases hlegal with
  | waiting =>
    rw [hparams] at hx
    refine .inl ?_
    rw [hx.occ _ (holds_pendingSlot type _), if_pos rfl]
    exact Nat.one_pos
  | held c => exact .inr ⟨c, (hx.mem_list rfl).2 rfl⟩
  | gone | orphaned => cases hstatus
  | settled hst' => rcases hst' with hst' | hst' <;> cases hst'.symm.trans hstatus
  | requeued hst' | delayed hst' | scheduled hst' => cases hst'.symm.trans hstatus

theorem Keyspace.EmptyAt.occ_eq_zero {db : Keyspace} {p : Slot} (h : db.EmptyAt p)
    (m : MessageId) : db.occ p m = 0 := by
  cases p <;> simp_all [Keyspace.EmptyAt, Keyspace.occ]

end Steps

/-- In every state of a queue with groups that is reached while periodic messages are only
rescheduled in place, the deletion of a group by the manager is safe exactly if it is refused
or a check of the container of the group would have let it through. -/
theorem deletesSafely_iff (cfg : Config) (type : QueueType) (groups : List GroupId) (now : Nanos)
    (as : List RegistryAction) (r : Registry)
    (halong : Run.Along Registry.step Registry.ReschedulesInPlace
      (Registry.created cfg type .pubSub groups now) as)
    (hrun : (Registry.created cfg type .pubSub groups now).Runs as r)
    (hq : r.queue.db.queue.isSome = true) (g : GroupId) :
    r.DeletesSafely type g ↔
      ¬ r.queue.db.EmptyAt (pendingSlot type none) ∨ r.queue.members g ≠ [] ∨
        r.Checkable type g := by
  obtain ⟨bs, hbs⟩ := Registry.reaches hrun
  obtain ⟨acts, hacts⟩ := Managed.reaches hbs hq
  obtain ⟨hs, huni⟩ := uniform_of_runs hacts
  have hmodel := Registry.deliveryModel_of_runs hrun
  have hloc : Located type r.queue.sys :=
    Run.invariant_along (P := fun r : Registry => r.queue.Placed type)
      (fun _ _ _ h hplace hstep => Registry.placed_of_step h hplace hstep)
      (fun _ => Tracked.created cfg groups now) halong hrun hq
  rcases Managed.deleteGroupBy_cases hs.type_eq .manager g with
    ⟨⟨-, hmembers, hempty⟩, heq⟩ | ⟨hrefused, hreply, -⟩
  · have hcheck : r.DeletesSafely type g ↔ r.Checkable type g := by
      constructor
      · intro h
        obtain ⟨hown, -, hnobody, -, hmessages⟩ := h _ heq
        exact ⟨hown, fun h hh hgroup => absurd hgroup (hnobody h hh), fun _ m _ => hmessages m⟩
      · intro h k hk
        obtain rfl := (Prod.mk.inj (heq.symm.trans hk)).2
        refine ⟨h.container, hmembers, fun hd hhd hgroup => ?_,
          Managed.spares_withoutGroup hs huni hempty g, fun m hm => ?_⟩
        · have hmem := h.enlisted hd hhd hgroup
          rw [hmembers] at hmem
          cases hmem
        · -- The deletion has not touched the store, so the message was pending before it.
          have hm : r.queue.db.AwaitsIn g m := hm
          rcases hloc.awaits hm with hocc | ⟨c, hc⟩
          · exact hocc.ne' (h.container.occ_eq_zero m)
          · exact h.popped c m hc hm
    have hown : r.queue.db.EmptyAt (pendingSlot type none) := hempty
    rw [hcheck, or_iff_right (not_not.2 hown), or_iff_right (not_not.2 hmembers)]
  · refine iff_of_true (fun k hk => absurd (congrArg Prod.fst hk) hreply) ?_
    by_contra hnot
    simp only [not_or, not_not] at hnot
    exact hrefused ⟨hmodel, hnot.2.1, hnot.1⟩

/-- A message is pending for a group, and the group is deleted all the same. -/
theorem deleteGroup_strands_message :
    (Run.exec Registry.step (Registry.created {} .fifo .pubSub [2] 0)
      [.queue (.queue (.produce promptMessage (some 2)))]).map
      (fun r =>
        let (reply, k) := r.queue.deleteGroupBy .manager 2
        (reply, k.db.groups, k.db.lists (.pending (some 2)), decide (k.db.AwaitsIn 2 0))) =
      some (.ok, [], [0], true) := by
  decide

theorem deletesSafely_iff_otherGroup :
    ∃ r, (Registry.created {} .fifo .pubSub [2, 3] 0).Runs
        [.queue (.queue (.produce promptMessage (some 3)))] r ∧
      (r.queue.deleteGroupBy .manager 2).1 = .ok ∧ r.DeletesSafely .fifo 2 := by
  refine ⟨_, rfl, rfl, (deletesSafely_iff {} .fifo [2, 3] 0
    [.queue (.queue (.produce promptMessage (some 3)))] _ ?_ rfl rfl 2).2 (.inr (.inr ?_))⟩
  · exact ⟨System.ReschedulesInPlace.of_schedules rfl, fun _ _ => trivial⟩
  · exact ⟨rfl, fun _ hh => absurd hh List.not_mem_nil, fun _ _ hm => absurd hm List.not_mem_nil⟩

end RedisSmq
