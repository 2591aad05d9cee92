import RedisSmq.Life.Legal
import RedisSmq.System.Conduct
import RedisSmq.System.Origin

/-!
# What a step does to one message

A step runs one script on a batch, or none. Seen from one published message it does one of
a few things, and it does it once: the batch may name the message several times, but after
the first time the message is no longer where the script looks for it.
-/

namespace RedisSmq

/-- What an action can make of the message `m`. -/
inductive System.Fate (s : System) (type : QueueType) (a : Action) (m : MessageId) (x : Life) :
    Life → Prop
  | stays : Fate s type a m x x
  | pop {c : ConsumerId} {group : Option GroupId}
      (hplace : x.place = some (pendingSlot type group)) :
      Fate s type a m x ⟨some (.list (.processing c)), x.hash⟩
  | checkout (now : Millis) : Fate s type a m x ⟨x.place, x.write (checkoutWrite now)⟩
  | acknowledge (c : ConsumerId) (now : Millis) : Fate s type a m x (x.acknowledge c now)
  | unacknowledge (c : ConsumerId) (arg : UnackArg) : Fate s type a m x (x.unacknowledge c arg)
  | requeue {batch : List Envelope} {t : Nanos} {e : Envelope} (ha : a = .requeueImmediate batch t)
      (hload : s.hasLoaded .requeuer batch) (hstate : stateRefusal s.db.operationalState = none)
      (he : e ∈ batch) (hid : e.id = m) :
      Fate s type a m x
        (x.requeue type (s.db.groupExists e.consumerGroupId) (toMillis t) (.ofEnvelope t e))
  | requeueDelayed {batch : List Envelope} {t : Nanos} {e : Envelope}
      (ha : a = .requeueDelayed batch t) (hstate : stateRefusal s.db.operationalState = none)
      (he : e ∈ batch) (hid : e.id = m) :
      Fate s type a m x
        (x.requeueDelayed type (s.db.groupExists e.consumerGroupId) (toMillis t) (.ofEnvelope t e))
  | fire {group : Option GroupId} {batch : List Envelope} {t : Nanos} {arg : ScheduledArg}
      (ha : a = .publishScheduled group batch t) (harg : arg ∈ s.scheduledArgs batch t)
      (hid : arg.id = m) : Fate s type a m x (x.fire type (s.db.groupExists arg.group) arg)
  | delete (group : Option GroupId) : Fate s type a m x (x.delete type group)
  | copied (arg : RequeueCopyArg) : Fate s type a m x ⟨x.place, x.write arg.writeRequeued⟩

section Step

variable {type : QueueType} {s s' : System} {a : Action} {m : MessageId} {p : Params} {x : Life}

/-- A script that refuses its batch leaves the message alone. -/
theorem System.Fate.ite {c : Prop} [Decidable c] {y : Life} (h : c → s.Fate type a m x y) :
    s.Fate type a m x (if c then y else x) := by
  split
  · rename_i hc
    exact h hc
  · exact .stays

/-- The first argument that names the message decides. -/
theorem System.Fate.afterFirst {α : Type} {key : α → MessageId} {act : α → Life → Life}
    {args : List α} (h : ∀ b ∈ args, key b = m → s.Fate type a m x (act b x)) :
    s.Fate type a m x (x.afterFirst key act args m) := by
  rcases Life.afterFirst_cases key act args m x with heq | ⟨b, hb, hkey, heq⟩ <;> rw [heq]
  · exact .stays
  · exact h b hb hkey

/-- Every step does one of these things to a published message. -/
theorem Step.fate (h : Step s a s') (hs : Sane type s) (hp : s.origin m = some p)
    (hx : At s.db m x) (hlegal : Legal type p.consumerGroupId x) (hplace : s.ReschedulesInPlace a) :
    ∃ x', At s'.db m x' ∧ s.Fate type a m x x' := by
  have hspared : ∀ {db'}, Spared m s.db db' → ∃ x', At db' m x' ∧ s.Fate type a m x x' :=
    fun h => ⟨x, h.at_iff.2 hx, .stays⟩
  have hfresh : s.nextId ≤ m → False := fun hle => hs.fresh_ne hle (by rw [hp]; rfl) rfl
  cases h with
  | task | crash | fetch | load | tick | configure => exact hspared (.refl m s.db)
  | setState => exact hspared (setQueueState_spared _ _ _ _ m)
  | saveGroup =>
    refine hspared ⟨rfl, fun q _ => ?_, fun q => ?_⟩
    · cases q <;> rfl
    · cases q <;> exact le_rfl
  | @deleteGroup g keys =>
    refine hspared (deleteConsumerGroup_spared hs.type_eq g keys fun q hq hne => ?_)
    rw [hx.occ q (by rcases hq with rfl | rfl <;> rfl), if_neg (hlegal.ne_other hq hne)]
  | expire hk => exact hspared (expire_spared hk m s.db)
  | @produce msg group db' hm hdb =>
    subst hdb
    refine hspared ((publishMessage_frame _ _).spared fun heq => ?_)
    exact hfresh (heq ▸ (s.prepared_id msg group).ge)
  | @pop c group type' id db' hc htype hpop =>
    cases hs.type_eq.symm.trans htype
    obtain ⟨hocc, hframe, hself⟩ := pop_spec hpop
    by_cases hm : m = id
    · subst hm
      have hplace : x.place = some (pendingSlot type group) := by
        rw [hx.occ _ (holds_pendingSlot _ _)] at hocc
        by_contra hne
        simp [hne] at hocc
      exact ⟨_, hself x hx hplace, .pop hplace⟩
    · exact hspared (hframe.spared hm)
  | @checkout c id group hash db' hmem hstate hget hst hdb =>
    subst hdb
    by_cases hm : m = id
    · subst hm
      exact ⟨_, ((hx.hset _).hincrby _ _).hincrby _ _, .checkout _⟩
    · exact hspared (((((Frame.refl id s.db).hset _).hincrby _ _).hincrby _ _).spared hm)
  | acknowledge htasks ht hrun =>
    subst hrun
    exact ⟨_, At.acknowledgeMessage hx, .ite fun _ => .acknowledge _ _⟩
  | unacknowledge | reap =>
    exact ⟨_, At.unacknowledgeMessage hx, .ite fun _ => .afterFirst fun _ _ _ => .unacknowledge _ _⟩
  | requeueImmediate hload =>
    refine ⟨_, At.requeueImmediate hx hs.type_eq (hs.requeueArgs_fit hload),
      .ite fun hstate => .afterFirst fun b hb hid => ?_⟩
    obtain ⟨e, he, rfl⟩ := List.mem_map.1 hb
    exact .requeue rfl hload hstate he hid
  | requeueDelayed hload =>
    refine ⟨_, At.requeueDelayed hx hs.type_eq (hs.requeueArgs_fit hload),
      .ite fun hstate => .afterFirst fun b hb hid => ?_⟩
    obtain ⟨e, he, rfl⟩ := List.mem_map.1 hb
    exact .requeueDelayed rfl hstate he hid
  | @publishScheduled group batch t db' hload hgroup hnodup ht hdb =>
    subst hdb
    obtain ⟨hfits, -, hcopies⟩ := scheduledArgs_copies (t := t) hs hload
    have hat := hx.publishScheduled hs.type_eq hfits
      (by rw [System.scheduledArgs, ScheduledArg.map_id_ofBatch]; exact hnodup)
      (fun b hb nextAt child hnext hid => hfresh (hid ▸ (hcopies b hb nextAt child hnext).1.1))
      fun b hb _ => hplace (batch, t) rfl b hb
    exact ⟨_, hat, .ite fun _ => .afterFirst fun b hb hid => .fire rfl hb hid⟩
  | @delete group lock batch db' hload hgroup hdb =>
    subst hdb
    rcases hx.deleteMessage hs.type_eq lock (batch.map Envelope.id) with hat | ⟨-, -, hat⟩
    · exact ⟨x, hat, .stays⟩
    · exact ⟨_, hat, .delete group⟩
  | @requeueMessage e t arg db' hload hstatus ht harg hdb =>
    rw [requeueMessage_moves arg s.db (Keyspace.isSome_queue_of_queueType? hs.type_eq)] at hdb
    subst hdb
    have hchild : arg.child.id ≠ m := by
      rw [harg]
      rintro rfl
      exact hfresh le_rfl
    rcases hx.copyMove hchild with hat | ⟨-, hat⟩
    · exact ⟨x, hat, .stays⟩
    · exact ⟨_, hat, .copied arg⟩

end Step

end RedisSmq
