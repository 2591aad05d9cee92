import RedisSmq.Consumers.Registry
import RedisSmq.System.Holding

/-!
# Recovering what a dead consumer leaves

The reaper of another consumer unacknowledges the messages of the dead one, deletes its
ephemeral group if there is one, and unsubscribes it: with the ephemeral group if that was
among the groups of the queue, and otherwise without any. Each of the three scripts refuses
on its own, and what it replies is only logged.
-/

namespace RedisSmq

namespace Managed

variable (k : Managed) (c : ConsumerId) (t : Nanos)

/-- `UnacknowledgeProcessingQueue`. Identifiers whose message is missing or cannot be decoded
are skipped. -/
def unacknowledgeProcessingQueue : Managed :=
  match (k.db.lists (.processing c)).filterMap k.sys.loadMessage with
  | [] => k
  | e :: batch =>
      k.setDb (k.sys.unackBatch c ((e :: batch).map fun e => (e, none, .offlineConsumer)) t).1

def recoverConsumer : Managed :=
  let k := k.unacknowledgeProcessingQueue c t
  if ephemeralGroupId c ∈ k.db.groups then
    let k := (k.deleteGroupBy .consumer (ephemeralGroupId c)).2
    (k.unsubscribe c (some (ephemeralGroupId c))).2
  else (k.unsubscribe c none).2

end Managed

/-- What is left of a list after some of its entries were withdrawn. -/
theorem List.diff_filter_eq_nil_iff {α : Type} [DecidableEq α] (p : α → Bool) (l : List α) :
    l.diff (l.filter p) = [] ↔ ∀ a ∈ l, p a = true := by
  rw [List.eq_nil_iff_forall_not_mem]
  refine forall_congr' fun a => ?_
  rw [← List.count_eq_zero, List.count_diff, Nat.sub_eq_zero_iff_le]
  by_cases hp : p a = true
  · rw [List.count_filter hp]
    exact iff_of_true le_rfl fun _ => hp
  rw [List.count_eq_zero.2 fun hmem => hp (List.mem_filter.1 hmem).2, Nat.le_zero,
    List.count_eq_zero]
  exact ⟨fun hmem ha => absurd ha hmem, fun h ha => hp (h ha)⟩

section Effects

variable {type : QueueType} {k : Managed} {c : ConsumerId} {t : Nanos}

/-- The identifiers of the messages that are loaded. -/
theorem Sane.map_id_loaded {s : System} (hs : Sane type s) (ids : List MessageId) :
    (ids.filterMap s.loadMessage).map Envelope.id =
      ids.filter fun id => (s.loadMessage id).isSome := by
  induction ids with
  | nil => rfl
  | cons id ids ih =>
    cases hload : s.loadMessage id with
    | none => simp [hload, ih]
    | some e => simp [hload, ih, (hs.load hload).1]

namespace Managed

/-- Only the messages of the queue change, and its pending containers do not. -/
structure Unacknowledges (type : QueueType) (k : Managed) (c : ConsumerId) (k' : Managed) :
    Prop where
  members : k'.members = k.members
  deliveryModel : k'.deliveryModel = k.deliveryModel
  settings : k'.db.settings = k.db.settings
  pending : ∀ group,
    k'.db.EmptyAt (pendingSlot type group) ↔ k.db.EmptyAt (pendingSlot type group)
  processing : k'.db.lists (.processing c) = [] ↔
    ∀ id ∈ k.db.lists (.processing c), (k.sys.loadMessage id).isSome = true

theorem unacknowledges (hs : Sane type k.sys) (hacc : k.db.accepts = true) :
    k.Unacknowledges type c (k.unacknowledgeProcessingQueue c t) := by
  have hids := hs.map_id_loaded (k.db.lists (.processing c))
  unfold unacknowledgeProcessingQueue
  split
  · rename_i hnone
    rw [hnone, List.map_nil] at hids
    refine ⟨rfl, rfl, rfl, fun _ => Iff.rfl, ?_⟩
    rw [← List.diff_filter_eq_nil_iff, ← hids, List.diff_nil]
  · rename_i e batch hsome
    rw [hsome] at hids
    refine ⟨rfl, rfl, settings_unacknowledgeMessage _, fun group => ?_, ?_⟩
    · have hsame := k.sys.unackBatch_writes c ((e :: batch).map fun e => (e, none,
        UnackCause.offlineConsumer)) t (pendingSlot type group)
        (by cases type <;> simp [settlement, pendingSlot])
      cases type <;> exact iff_of_eq (congrArg (· = _) hsame)
    · have hwithdraws := k.sys.unackBatch_withdraws c ((e :: batch).map fun e => (e, none,
        UnackCause.offlineConsumer)) t hacc c
      rw [if_pos rfl, List.map_map] at hwithdraws
      rw [← List.diff_filter_eq_nil_iff, ← hids]
      exact iff_of_eq (congrArg (· = []) hwithdraws)

/-- What is to be left of a consumer: nothing. -/
structure Forgotten (type : QueueType) (k : Managed) (c : ConsumerId) : Prop where
  processing : k.db.lists (.processing c) = []
  consumer : c ∉ k.consumers
  member : ∀ g, c ∉ k.members g
  group : k.db.EmptyAt (pendingSlot type (some (ephemeralGroupId c))) →
    ephemeralGroupId c ∉ k.db.groups

theorem forgotten_unsubscribe_iff (hq : k.db.queue.isSome = true) (group : Option GroupId) :
    (k.unsubscribe c group).2.Forgotten type c ↔
      k.db.lists (.processing c) = [] ∧ (∀ g, c ∈ k.members g → group = some g) ∧
        (k.db.EmptyAt (pendingSlot type (some (ephemeralGroupId c))) →
          ephemeralGroupId c ∉ k.db.groups) := by
  have hdb : (k.unsubscribe c group).2.db = k.db :=
    congrArg System.db (k.unsubscribe_sys c group)
  by_cases hempty : k.db.lists (.processing c) = []
  · have hok : (k.unsubscribe c group).1 = .ok := by
      simp [unsubscribe, hempty, Option.isSome_iff_ne_none.1 hq]
    obtain ⟨-, hconsumers, hmembers⟩ := unsubscribe_ok (Prod.ext hok rfl)
    constructor
    · intro h
      refine ⟨hempty, fun g hg => ?_, hdb ▸ h.group⟩
      by_contra hne
      exact h.member g ((hmembers c g).2 ⟨hg, fun hc => hne hc.2⟩)
    · rintro ⟨-, hmember, hgroup⟩
      refine ⟨hdb ▸ hempty, by simp [hconsumers], fun g hg => ?_, hdb.symm ▸ hgroup⟩
      have hg := (hmembers c g).1 hg
      exact hg.2 ⟨rfl, hmember g hg.1⟩
  · refine iff_of_false (fun h => hempty ?_) fun h => hempty h.1
    rw [← hdb]
    exact h.processing

/-- What recovery leaves, in terms of the queue after the messages were unacknowledged. -/
theorem forgotten_recover_iff (htype : k.db.queueType? = some type) :
    (if ephemeralGroupId c ∈ k.db.groups then
        ((k.deleteGroupBy .consumer (ephemeralGroupId c)).2.unsubscribe c
          (some (ephemeralGroupId c))).2
      else (k.unsubscribe c none).2).Forgotten type c ↔
      k.db.lists (.processing c) = [] ∧
        (∀ g, c ∈ k.members g → g = ephemeralGroupId c ∧ ephemeralGroupId c ∈ k.db.groups) ∧
        (ephemeralGroupId c ∈ k.db.groups →
          k.db.EmptyAt (pendingSlot type (some (ephemeralGroupId c))) →
          k.deliveryModel = .pubSub ∧ k.members (ephemeralGroupId c) = []) := by
  have hq : k.db.queue.isSome = true := Keyspace.isSome_queue_of_queueType? htype
  by_cases hgroup : ephemeralGroupId c ∈ k.db.groups
  · rw [if_pos hgroup]
    simp only [hgroup, and_true, forall_const]
    rcases deleteGroupBy_cases htype .consumer (ephemeralGroupId c) with
      ⟨⟨hmodel, hmembers, hempty⟩, heq⟩ | ⟨hrefused, -, heq⟩
    · have hq' : (k.setDb (k.db.withoutGroup (ephemeralGroupId c)
          (some (ephemeralGroupId c)))).db.queue.isSome = true := hq
      rw [heq]
      refine (forgotten_unsubscribe_iff hq' _).trans (and_congr Iff.rfl (and_congr ?_ ?_))
      · simp only [Option.some.injEq, eq_comm]
        rfl
      · refine iff_of_true (fun _ hmem => ?_) fun _ => ⟨hmodel, hmembers⟩
        exact absurd rfl (of_decide_eq_true (List.mem_filter.1 hmem).2)
    · rw [heq, forgotten_unsubscribe_iff hq]
      refine and_congr Iff.rfl (and_congr ?_ ?_)
      · simp only [Option.some.injEq, eq_comm]
      · exact ⟨fun h hempty => absurd hgroup (h hempty),
          fun h hempty => (hrefused ⟨(h hempty).1, (h hempty).2, hempty⟩).elim⟩
  · rw [if_neg hgroup, forgotten_unsubscribe_iff hq]
    simp [hgroup]

end Managed

end Effects

end RedisSmq
