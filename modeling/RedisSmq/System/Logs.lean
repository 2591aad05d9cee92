import RedisSmq.System.Origin

/-!
# What a step logs

The log tells what happened in a run. Each kind of step makes entries of one kind, and an
entry about a settlement names a message that was in the processing list.
-/

namespace RedisSmq

/-- The log entries that an action can make. -/
inductive Logs (s : System) : Action → Event → Prop
  | produced {m : Producible} {group : Option GroupId} :
      Logs s (.produce m group) (.produced s.nextId m)
  | published {a : Action} {id : MessageId} {p : Params} : Logs s a (.published id p)
  | checkedOut {a : Action} {c : ConsumerId} {id : MessageId} {held : Bool} :
      Logs s a (.checkedOut c id held)
  | handed {c : ConsumerId} {e : Envelope} {k : Nat} (hmem : (c, Task.received e k) ∈ s.tasks)
      (he : e.isExpiredTransferable s.now = false) :
      Logs s (.consume c e k) (.handed c e.id s.now)
  | acked {a : Action} {c : ConsumerId} {id : MessageId} {issuedFor during : Option Nat} :
      Logs s a (.settled c id issuedFor during none)
  | unacked {c : ConsumerId} {batch : List (Envelope × Option Nat × UnackCause)} {t : Nanos}
      {e : Envelope} {k : Option Nat} {cause : UnackCause} {during : Option Nat}
      (hb : (e, k, cause) ∈ batch) (hmem : (c, Task.unacking e k cause) ∈ s.tasks)
      (hheld : e.id ∈ s.db.lists (.processing c)) :
      Logs s (.unacknowledge c batch t)
        (.settled c e.id k during (some (s.now, (resolveUnackAction t e cause).retries)))
  | reaped {c : ConsumerId} {batch : List Envelope} {t : Nanos} {e : Envelope}
      {during : Option Nat} (he : e ∈ batch) (hload : (Worker.reaper c, e) ∈ s.loaded)
      (hheld : e.id ∈ s.db.lists (.processing c)) :
      Logs s (.reap c batch t)
        (.settled c e.id none during
          (some (s.now, (resolveUnackAction t e .offlineConsumer).retries)))
  | deleted {a : Action} {id : MessageId} : Logs s a (.deleted id)

section Logs

variable {s s' : System} {a : Action} {ev : Event}

private theorem logs_publishedCopies {children : List PublishArgs} {db' : Keyspace}
    (h : ev ∈ System.publishedCopies children db') : Logs s a ev := by
  obtain ⟨child, _, hev⟩ := List.mem_filterMap.1 h
  obtain ⟨p, _, rfl⟩ := Option.map_eq_some_iff.1 hev
  exact .published

private theorem Goes.logs {c : ConsumerId} {old : Task} {new : Multiset Task}
    {events : List Event} (hmem : (c, old) ∈ s.tasks) (hgo : Goes s a c old new events)
    (h : ev ∈ events) : Logs s a ev := by
  cases hgo with
  | handed he =>
    rw [List.mem_singleton.1 h]
    exact .handed hmem he
  | _ => cases h

/-- A step makes no other log entries. -/
theorem Step.logs (h : Step s a s') (hev : ev ∈ s'.log) : ev ∈ s.log ∨ Logs s a ev := by
  cases h with
  | crash | fetch | load | tick | configure | setState | saveGroup | deleteGroup | expire | pop
  | requeueImmediate | requeueDelayed => exact .inl hev
  | task hmem hgo => exact (List.mem_append.1 hev).symm.imp_right (hgo.logs hmem)
  | produce =>
    rcases List.mem_append.1 hev with hev | hev
    · exact .inr (logs_publishedCopies hev)
    rcases List.mem_append.1 hev with hev | hev
    · split at hev
      · rw [List.mem_singleton.1 hev]
        exact .inr .produced
      · cases hev
    · exact .inl hev
  | checkout =>
    rcases List.mem_cons.1 hev with rfl | hev
    · exact .inr .checkedOut
    · exact .inl hev
  | acknowledge =>
    refine (List.mem_append.1 hev).symm.imp_right fun hev => ?_
    obtain ⟨b, _, rfl⟩ := List.mem_map.1 hev
    exact .acked
  | unacknowledge htasks =>
    refine (List.mem_append.1 hev).symm.imp_right fun hev => ?_
    obtain ⟨b, hb, rfl⟩ := List.mem_map.1 hev
    obtain ⟨hb, hheld⟩ := mem_of_mem_effective hb
    exact .unacked hb (Multiset.mem_of_le htasks (Multiset.mem_coe.2 (List.mem_map_of_mem hb)))
      hheld
  | reap hload =>
    refine (List.mem_append.1 hev).symm.imp_right fun hev => ?_
    obtain ⟨b, hb, rfl⟩ := List.mem_map.1 hev
    obtain ⟨hb, hheld⟩ := mem_of_mem_effective hb
    obtain ⟨e, he, rfl⟩ := List.mem_map.1 hb
    exact .reaped he (hload e he) hheld
  | publishScheduled =>
    exact (List.mem_append.1 hev).symm.imp_right logs_publishedCopies
  | delete =>
    refine (List.mem_append.1 hev).symm.imp_right fun hev => ?_
    obtain ⟨id, _, rfl⟩ := List.mem_map.1 hev
    exact .deleted
  | requeueMessage =>
    exact (List.mem_append.1 hev).symm.imp_right logs_publishedCopies

end Logs

end RedisSmq
