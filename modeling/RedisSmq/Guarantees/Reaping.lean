import RedisSmq.Consumers.Reaper
import RedisSmq.System.Conduct

/-!
# What the reaper leaves of a dead consumer

After `recoverConsumer` nothing should be left of a dead consumer: its messages, its entry
among the consumers, its memberships, and its ephemeral group unless that has messages.

The ephemeral group is deleted before the consumer is unsubscribed, and the script refuses
to delete a group that has members, so the group of a consumer that was a member of it
stays. A consumer that was subscribed with another group stays a member of that group. And
an identifier whose message cannot be loaded stays in the processing list, which in turn
keeps the consumer registered.
-/

namespace RedisSmq

/-- The state of a consumer that `recoverConsumer` deals with. -/
structure Managed.Recoverable (type : QueueType) (k : Managed) (c : ConsumerId) : Prop where
  loads : ∀ id ∈ k.db.lists (.processing c), (k.sys.loadMessage id).isSome = true
  member : ∀ g, c ∈ k.members g → g = ephemeralGroupId c ∧ ephemeralGroupId c ∈ k.db.groups
  group : ephemeralGroupId c ∈ k.db.groups →
    k.db.EmptyAt (pendingSlot type (some (ephemeralGroupId c))) →
    k.deliveryModel = .pubSub ∧ k.members (ephemeralGroupId c) = []

/-- In every reachable state in which the queue is active, recovering a consumer leaves
nothing of it exactly under the condition on what it was subscribed with and what it holds. -/
theorem recoverConsumer_forgets_iff (cfg : Config) (type : QueueType) (model : DeliveryModel)
    (groups : List GroupId) (now : Nanos) (as : List RegistryAction) (r : Registry)
    (hrun : (Registry.created cfg type model groups now).Runs as r)
    (hq : r.queue.db.queue.isSome = true) (hactive : r.queue.db.operationalState = .active)
    (c : ConsumerId) (t : Nanos) :
    (r.queue.recoverConsumer c t).Forgotten type c ↔ r.queue.Recoverable type c := by
  obtain ⟨bs, hbs⟩ := Registry.reaches hrun
  obtain ⟨acts, hacts⟩ := Managed.reaches hbs hq
  have hs : Sane type r.queue.sys := (uniform_of_runs hacts).1
  have hacc : r.queue.db.accepts = true := by
    rw [Keyspace.accepts, hq, hactive]
    rfl
  have hunack := Managed.unacknowledges (c := c) (t := t) hs hacc
  have htype : (r.queue.unacknowledgeProcessingQueue c t).db.queueType? = some type :=
    (Keyspace.queueType?_of_settings hunack.settings).trans hs.type_eq
  have hgroups := Keyspace.groups_of_settings hunack.settings
  have hiff := Managed.forgotten_recover_iff (c := c) htype
  rw [hunack.processing, hunack.pending, hgroups, hunack.members, hunack.deliveryModel] at hiff
  rw [Managed.recoverConsumer, hgroups]
  exact hiff.trans ⟨fun h => ⟨h.1, h.2.1, h.2.2⟩, fun h => ⟨h.loads, h.member, h.group⟩⟩

/-- A consumer that was subscribed with the group dies. -/
def diesInGroup (group : Option GroupId) : List RegistryAction :=
  [.prepare 1 group, .start ⟨1, some (group.getD (ephemeralGroupId 1))⟩ true, .crash 1]

/-- A consumer that dies in a group of its own leaves the group, and one that dies in another
group stays a member of it. -/
theorem recoverConsumer_leaves_traces :
    (Run.exec Registry.step (Registry.created {} .fifo .pubSub [] 0) (diesInGroup none)).map
        (fun r => (r.queue.consumers, (r.queue.recoverConsumer 1 0).consumers,
          (r.queue.recoverConsumer 1 0).db.groups)) =
        some ([1], [], [ephemeralGroupId 1]) ∧
      (Run.exec Registry.step (Registry.created {} .fifo .pubSub [] 0) (diesInGroup (some 2))).map
        (fun r => (r.queue.consumers, (r.queue.recoverConsumer 1 0).consumers,
          (r.queue.recoverConsumer 1 0).members 2)) = some ([1], [], [1]) := by
  decide

/-- A consumer of a queue without groups dies while it has a message. -/
def diesWithMessage : List RegistryAction :=
  [.queue (.queue (.produce promptMessage none)), .prepare 1 none, .start ⟨1, none⟩ true,
    .pop ⟨1, none⟩, .crash 1]

theorem recoverConsumer_forgets_iff_diesWithMessage :
    ∃ r, (Registry.created {} .fifo .pointToPoint [] 0).Runs diesWithMessage r ∧
      r.queue.db.lists (.processing 1) ≠ [] ∧ (r.queue.recoverConsumer 1 0).Forgotten .fifo 1 := by
  have hsome : ((Run.exec Registry.step (Registry.created {} .fifo .pointToPoint [] 0)
      diesWithMessage).map fun r => (decide (r.queue.db.queue.isSome = true ∧
        r.queue.db.operationalState = .active), r.queue.db.lists (.processing 1),
        (r.queue.sys.loadMessage 0).isSome, r.queue.db.groups)) = some (true, [0], true, []) := by
    decide
  have hmembers : ((Run.exec Registry.step (Registry.created {} .fifo .pointToPoint [] 0)
      diesWithMessage).map fun r => r.queue.members) = some fun _ => [] := rfl
  obtain ⟨r, hr, hstate⟩ := Option.map_eq_some_iff.1 hsome
  rw [hr] at hmembers
  simp only [Prod.mk.injEq, decide_eq_true_iff] at hstate
  obtain ⟨⟨hq, hactive⟩, hheld, hload, hgroups⟩ := hstate
  refine ⟨r, hr, by simp [hheld], (recoverConsumer_forgets_iff {} .fifo .pointToPoint [] 0 _ r hr hq
    hactive 1 0).2 ⟨fun id hid => ?_, fun g hg => ?_, fun hmem => ?_⟩⟩
  · rw [hheld, List.mem_singleton] at hid
    rwa [hid]
  · have hnone : r.queue.members = fun _ => [] := Option.some.inj hmembers
    rw [hnone] at hg
    cases hg
  · rw [hgroups] at hmem
    cases hmem

end RedisSmq
