import RedisSmq.Moves.Footprint
import RedisSmq.System.Origin

/-!
# One kind of pending container

A queue keeps its pending messages in lists, or in sorted sets if it is a priority queue.
Nothing is ever put into a container of the other kind. The deletion of a consumer group,
which clears a list and a sorted set after a look at one of them, therefore removes nothing.
-/

namespace RedisSmq

/-- Nothing is in the container. -/
def Keyspace.EmptyAt (db : Keyspace) : Slot → Prop
  | .list k => db.lists k = []
  | .zset z => db.zsets z = SortedSet.empty

/-- The pending containers that a queue of the type does not use. -/
def foreign (type : QueueType) : Set Slot
  | .list (.pending _) => type = .priority
  | .zset (.priority _) => type ≠ .priority
  | _ => False

/-- The containers of the other kind are empty. -/
def Keyspace.Uniform (type : QueueType) (db : Keyspace) : Prop := ∀ p ∈ foreign type, db.EmptyAt p

section Foreign

variable {type : QueueType} {p : Slot}

theorem traffic_notMem_of_foreign (h : p ∈ foreign type) : p ∉ traffic type := by
  cases p with
  | list k =>
    cases k with
    | pending group => exact fun hne => hne h
    | _ => exact h.elim
  | zset z =>
    cases z with
    | priority group => exact h
    | _ => exact h.elim

theorem pendingSlot_ne_of_foreign (h : p ∈ foreign type) (group : Option GroupId) :
    p ≠ pendingSlot type group := by
  rintro rfl
  exact traffic_notMem_of_foreign h (pendingSlot_mem_traffic type group)

theorem settlement_notMem_of_foreign {c : ConsumerId} (h : p ∈ foreign type) :
    p ∉ settlement c := by
  rintro (rfl | rfl | rfl | rfl) <;> exact h

end Foreign

section Invariant

variable {type : QueueType} {db db' : Keyspace} {W : Set Slot} {s s' : System} {a : Action}

namespace Keyspace.Uniform

theorem created (type : QueueType) (groups : List GroupId) :
    (Keyspace.created type groups).Uniform type := by
  intro p _
  cases p <;> rfl

theorem of_writes (h : db.Uniform type) (hwrites : Writes W db db')
    (hW : ∀ p ∈ foreign type, p ∉ W) : db'.Uniform type := by
  intro p hp
  have hsame := hwrites p (hW p hp)
  have hempty := h p hp
  cases p with
  | list k => exact Eq.trans hsame hempty
  | zset z => exact Eq.trans hsame hempty

theorem withoutGroup (h : db.Uniform type) (g : GroupId) (keys : Option GroupId) :
    (db.withoutGroup g keys).Uniform type := by
  intro p hp
  have hempty := h p hp
  cases p with
  | list k =>
    by_cases hk : k = .pending keys
    · subst hk
      exact Function.update_self _ _ _
    · exact (Function.update_of_ne hk _ _).trans hempty
  | zset z =>
    by_cases hz : z = .priority keys
    · subst hz
      exact Function.update_self _ _ _
    · exact (Function.update_of_ne hz _ _).trans hempty

end Keyspace.Uniform

/-- Every step keeps the containers of the other kind empty. -/
theorem Step.uniform (h : Step s a s') (hs : Sane type s) (hdb : s.db.Uniform type) :
    s'.db.Uniform type := by
  have htraffic : ∀ {db' : Keyspace}, Writes (traffic type) s.db db' → db'.Uniform type :=
    fun hwrites => hdb.of_writes hwrites fun _ => traffic_notMem_of_foreign
  have hsettle : ∀ {db' : Keyspace} {c : ConsumerId}, Writes (settlement c) s.db db' →
      db'.Uniform type :=
    fun hwrites => hdb.of_writes hwrites fun _ => settlement_notMem_of_foreign
  cases h with
  | task | crash | fetch | load | tick | configure => exact hdb
  | setState => exact hdb.of_writes (setQueueState_writes _ _ _ _) fun _ _ => id
  | saveGroup =>
    intro p hp
    have hempty := hdb p hp
    cases p <;> exact hempty
  | @deleteGroup g keys =>
    rcases deleteConsumerGroup_cases hs.type_eq g keys with heq | ⟨-, heq⟩
    · exact heq.symm ▸ hdb
    · exact heq.symm ▸ hdb.withoutGroup g keys
  | @expire k hk =>
    refine hdb.of_writes ((Writes.refl {.list k} s.db).setList rfl []) fun p hp hmem => ?_
    rw [Set.mem_singleton_iff.1 hmem] at hp
    cases k with
    | pending => cases hk
    | _ => exact hp
  | produce hm hdb' =>
    subst hdb'
    exact htraffic (publishMessage_writes _ hs.type_eq)
  | pop hc htype hpop =>
    cases htype.symm.trans hs.type_eq
    refine hdb.of_writes (pop_writes hpop) fun p hp => ?_
    rintro (rfl | rfl)
    · exact pendingSlot_ne_of_foreign hp _ rfl
    · exact hp
  | checkout hmem hstate hget hst hdb' =>
    subst hdb'
    exact hdb.of_writes ((((Writes.refl ∅ s.db).hset _ _).hincrby _ _).hincrby _ _)
      fun _ _ => id
  | acknowledge htasks ht hrun =>
    subst hrun
    exact hsettle (acknowledgeMessage_writes _ _)
  | unacknowledge | reap => exact hsettle (unacknowledgeMessage_writes _)
  | requeueImmediate hload =>
    exact htraffic (requeueImmediate_writes hs.type_eq (hs.requeueArgs_fit hload))
  | requeueDelayed hload =>
    exact htraffic (requeueDelayed_writes hs.type_eq (hs.requeueArgs_fit hload))
  | publishScheduled hload hgroup hnodup ht hdb' =>
    subst hdb'
    exact htraffic (publishScheduled_writes hs.type_eq (scheduledArgs_copies hs hload).1)
  | delete hload hgroup hdb' =>
    subst hdb'
    exact htraffic (deleteMessage_writes _ _ _ hs.type_eq)
  | requeueMessage hload hstatus ht harg hdb' =>
    subst hdb'
    rw [requeueMessage_moves _ s.db (Keyspace.isSome_queue_of_queueType? hs.type_eq)]
    exact htraffic (copyMove_writes _ hs.type_eq)

theorem uniform_of_runs {cfg : Config} {groups : List GroupId} {now : Nanos} {as : List Action}
    (hrun : (System.created cfg type groups now).Runs as s) : Sane type s ∧ s.db.Uniform type :=
  Run.invariant (P := fun s => Sane type s ∧ s.db.Uniform type)
    (fun _ _ _ ⟨hs, hdb⟩ hstep => ⟨hs.step (.of_step hstep), (Step.of_step hstep).uniform hs hdb⟩)
    ⟨.created cfg type groups now, .created type groups⟩ hrun

/-- The deletion of a consumer group removes no message. -/
theorem deleteConsumerGroup_removes_nothing (hdb : db.Uniform type)
    (htype : db.queueType? = some type) (g : GroupId) (keys : Option GroupId) :
    (deleteConsumerGroup g keys db).2.lists = db.lists ∧
      (deleteConsumerGroup g keys db).2.zsets = db.zsets := by
  rcases deleteConsumerGroup_cases htype g keys with heq | ⟨hocc, heq⟩
  · rw [heq]
    exact ⟨rfl, rfl⟩
  rw [heq]
  have hlist : db.lists (.pending keys) = [] := by
    cases type with
    | lifo | fifo => exact List.eq_nil_iff_forall_not_mem.2 fun m => List.count_eq_zero.1 (hocc m)
    | priority => exact hdb (.list (.pending keys)) rfl
  have hzset : db.zsets (.priority keys) = SortedSet.empty := by
    cases type with
    | lifo | fifo => exact hdb (.zset (.priority keys)) (nomatch ·)
    | priority =>
      refine SortedSet.eq_of_entries (List.eq_nil_iff_forall_not_mem.2 fun x hx => ?_)
      have hnone : x.2 ∉ db.zsets (.priority keys) := by
        simpa [Keyspace.occ, pendingSlot] using hocc x.2
      exact hnone (List.mem_map_of_mem hx)
  exact ⟨Function.update_eq_self_iff.2 hlist.symm, Function.update_eq_self_iff.2 hzset.symm⟩

end Invariant

end RedisSmq
