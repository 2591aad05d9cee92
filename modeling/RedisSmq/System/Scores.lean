import RedisSmq.Admin.Erased
import RedisSmq.Moves.Footprint
import RedisSmq.System.Conduct
import RedisSmq.System.Origin

/-!
# The sets of messages that wait for an instant

Delayed and scheduled messages are in sorted sets, and the scores are the instants at which
they are due. Few scripts touch these sets: an entry of one of them is as old as the script,
or belongs to a message that is published now, or is written by `requeue-immediate` or
`publish-scheduled` from their arguments.
-/

namespace RedisSmq

variable {z : ZsetKey} {type : QueueType} {db : Keyspace} {entry : Millis × MessageId}

theorem delayed_ne_priority (g : Option GroupId) : ZsetKey.delayed ≠ .priority g := by simp

theorem scheduled_ne_priority (g : Option GroupId) : ZsetKey.scheduled ≠ .priority g := by simp

namespace Keyspace

theorem entries_zadd {k : ZsetKey} {score : Millis} {id : MessageId}
    (h : entry ∈ ((db.zadd k score id).zsets z).entries) :
    entry ∈ (db.zsets z).entries ∧ (z = k → entry.2 ≠ id) ∨ z = k ∧ entry = (score, id) := by
  change entry ∈ (Function.update db.zsets k _ z).entries at h
  by_cases hz : z = k
  · subst hz
    rw [Function.update_self] at h
    rcases SortedSet.mem_entries_add.1 h with heq | ⟨hold, hne⟩
    · exact .inr ⟨rfl, heq⟩
    · exact .inl ⟨hold, fun _ => hne⟩
  · rw [Function.update_of_ne hz] at h
    exact .inl ⟨h, fun heq => absurd heq hz⟩

theorem entries_zrem {k : ZsetKey} {id : MessageId}
    (h : entry ∈ ((db.zrem k id).zsets z).entries) : entry ∈ (db.zsets z).entries := by
  change entry ∈ (Function.update db.zsets k _ z).entries at h
  by_cases hz : z = k
  · subst hz
    rw [Function.update_self] at h
    exact SortedSet.mem_entries_of_rem h
  · rwa [Function.update_of_ne hz] at h

end Keyspace

/-- All containers but the sorted set. -/
def elsewhere (z : ZsetKey) : Set Slot := {p | p ≠ .zset z}

@[simp] theorem mem_elsewhere {p : Slot} : p ∈ elsewhere z ↔ p ≠ .zset z := Iff.rfl

theorem Writes.zset {db' : Keyspace} {W : Set Slot} (h : Writes W db db') (hW : .zset z ∉ W) :
    db'.zsets z = db.zsets z := h _ hW

theorem Edits.zset {db' : Keyspace} (h : Edits (elsewhere z) db db') :
    db'.zsets z = db.zsets z := h.writes.zset (by simp)

section Moves

variable {now : Millis} (hz : ∀ g, z ≠ .priority g)

include hz

theorem pendingSlot_mem_elsewhere (type : QueueType) (group : Option GroupId) :
    pendingSlot type group ∈ elsewhere z := by
  cases type with
  | fifo | lifo => simp [pendingSlot]
  | priority => simpa [pendingSlot] using (hz group).symm

/-- Publishing adds at most the message that it publishes, and nothing if that is pending. -/
theorem publishMessage_entries {a : PublishArgs}
    (h : entry ∈ ((publishMessage a db).db.zsets z).entries) :
    entry ∈ (db.zsets z).entries ∨ entry.2 = a.id ∧ a.status ≠ .pending := by
  rcases @publishMessage_cases a db with ⟨-, hdb⟩ | ⟨-, type, c, db', -, -, -, hp, hdb⟩
  · rw [hdb] at h
    exact .inl h
  rw [hdb] at h
  cases hp with
  | pending hstatus henqueue =>
    rw [← (Edits.refl.enqueueNew (pendingSlot_mem_elsewhere hz type _) henqueue).zset]
    exact .inl h
  | scheduled hstatus hts =>
    exact (Keyspace.entries_zadd h).imp And.left fun hnew => ⟨congrArg Prod.snd hnew.2, hstatus⟩

theorem retryMove_zset (source : Counter) (a : RequeueArg) :
    (retryMove type now source a db).zsets z = db.zsets z :=
  (retryMove_edits source (pendingSlot_mem_elsewhere hz type _) (by simp)).zset

/-- The delayed set gains the message that is moved, with the score of its argument, if the
message was requeued and has a delay. -/
theorem requeueMove_entries {a : RequeueArg}
    (h : entry ∈ ((requeueMove type now db a).zsets z).entries) :
    entry ∈ (db.zsets z).entries ∨ z = .delayed ∧ a.id ∈ db.lists .requeued ∧ a.retryDelay ≠ 0 ∧
      entry = (a.delayedTimestamp, a.id) := by
  unfold requeueMove at h
  split at h
  · rename_i hmem
    split at h
    · rw [retryMove_zset hz] at h
      exact .inl h
    · rename_i hdelay
      exact (Keyspace.entries_zadd h).imp And.left fun hnew => ⟨hnew.1, hmem, hdelay, hnew.2⟩
  · exact .inl h

theorem delayedMove_entries {a : RequeueArg}
    (h : entry ∈ ((delayedMove type now db a).zsets z).entries) : entry ∈ (db.zsets z).entries := by
  unfold delayedMove at h
  split at h
  · rw [retryMove_zset hz] at h
    exact Keyspace.entries_zrem h
  · exact h

theorem requeueImmediate_entries {args : List RequeueArg} (htype : db.queueType? = some type)
    (hfit : ∀ a ∈ args, PriorityFits type a.priority)
    (h : entry ∈ ((requeueImmediate now args db).db.zsets z).entries) :
    entry ∈ (db.zsets z).entries ∨ stateRefusal db.operationalState = none ∧ z = .delayed ∧
      ∃ a ∈ args, a.id ∈ db.lists .requeued ∧ a.retryDelay ≠ 0 ∧
        entry = (a.delayedTimestamp, a.id) := by
  revert h
  refine requeueImmediate_run now htype hfit .inl fun hstate h => Or.imp_right (.intro hstate) ?_
  revert entry
  refine (List.foldlRecOn (motive := fun db' : Keyspace =>
    (∀ {entry : Nat × MessageId}, entry ∈ (db'.zsets z).entries →
      entry ∈ (db.zsets z).entries ∨ z = .delayed ∧ ∃ a ∈ args, a.id ∈ db.lists .requeued ∧
        a.retryDelay ≠ 0 ∧ entry = (a.delayedTimestamp, a.id)) ∧
      (db'.lists .requeued).Sublist (db.lists .requeued))
    args _ ⟨.inl, List.Sublist.refl _⟩ ?_).1
  rintro db' ⟨hentries, hsub⟩ a ha
  refine ⟨fun hentry => ?_, (requeueMove_requeued a).trans hsub⟩
  rcases requeueMove_entries hz hentry with hold | ⟨hdelayed, hmem, hdelay, heq⟩
  · exact hentries hold
  · exact .inr ⟨hdelayed, a, ha, hsub.subset hmem, hdelay, heq⟩

theorem requeueDelayed_entries {args : List RequeueArg} (htype : db.queueType? = some type)
    (hfit : ∀ a ∈ args, PriorityFits type a.priority)
    (h : entry ∈ ((requeueDelayed now args db).db.zsets z).entries) :
    entry ∈ (db.zsets z).entries := by
  revert h
  refine requeueDelayed_run now htype hfit id fun _ => ?_
  exact List.foldlRecOn (motive := fun db' : Keyspace => entry ∈ (db'.zsets z).entries →
    entry ∈ (db.zsets z).entries) args _ id
    fun db' hdb' a _ hentry => hdb' (delayedMove_entries hz hentry)

/-- A message that is put back into the schedule has the next due time only. -/
theorem scheduledMove_entries {a : ScheduledArg} (hfit : a.Fits type)
    (h : entry ∈ ((scheduledMove type db a).zsets z).entries) :
    entry ∈ (db.zsets z).entries ∧ (z = .scheduled → entry.2 = a.id → a.next.isSome = true →
        db.groupExists a.group = false) ∨
      z = .scheduled ∧ ∃ next ∈ a.next, db.groupExists a.group = true ∧
        entry = (next.1, a.id) := by
  have htaken : ∀ {db' : Keyspace}, Edits (elsewhere z) (takeScheduled a db) db' →
      entry ∈ (db'.zsets z).entries → entry ∈ (db.zsets z).entries := by
    intro db' hedits hmem
    rw [hedits.zset] at hmem
    exact Keyspace.entries_zrem hmem
  have hletter : ∀ db', Edits (elsewhere z) db' (deadLetterTaken a db') := fun db' =>
    ((Edits.refl.setList (by simp) _).hincrby _ _).hset _ _
  unfold scheduledMove at h
  cases hnext : a.next with
  | none =>
    rw [hnext] at h
    refine .inl ⟨?_, fun _ _ hsome => nomatch hsome⟩
    dsimp only at h
    split at h
    · cases hp : publishTaken type a (takeScheduled a db) with
      | none =>
        rw [hp] at h
        exact htaken .refl h
      | some db' =>
        rw [hp] at h
        refine htaken ?_ h
        unfold publishTaken at hp
        split at hp
        · obtain ⟨db₁, hdb₁, rfl⟩ := Option.map_eq_some_iff.1 hp
          have henqueued := Edits.refl.enqueueNew (pendingSlot_mem_elsewhere hz type _) hdb₁
          exact (henqueued.hincrby _ _).hset _ _
        · cases hp
          exact hletter _
    · exact h
  | some next =>
    obtain ⟨nextAt, child⟩ := next
    rw [hnext] at h
    dsimp only at h
    split at h
    · rename_i hgroup
      obtain ⟨hpending, -, -⟩ := hfit.child nextAt child hnext
      have hback := (publishMessage_entries hz h).resolve_right fun hnew => hnew.2 hpending
      refine (Keyspace.entries_zadd hback).imp (fun hold => ⟨hold.1, fun hz' heq => ?_⟩)
        fun hnew => ⟨hnew.1, _, rfl, hgroup, hnew.2⟩
      exact absurd heq (hold.2 hz')
    · rename_i hgroup
      refine .inl ⟨?_, fun _ _ _ => by simpa using hgroup⟩
      split at h
      · exact htaken (hletter _) h
      · exact h

theorem foldl_scheduledMove_entries {args : List ScheduledArg} (hfit : ∀ a ∈ args, a.Fits type)
    (h : entry ∈ ((args.foldl (scheduledMove type) db).zsets z).entries) :
    entry ∈ (db.zsets z).entries ∧ (z = .scheduled → ∀ a ∈ args, entry.2 = a.id →
        a.next.isSome = true → db.groupExists a.group = false) ∨
      z = .scheduled ∧ ∃ a ∈ args, ∃ next ∈ a.next, db.groupExists a.group = true ∧
        entry = (next.1, a.id) := by
  induction args generalizing db with
  | nil => exact .inl ⟨h, fun _ a ha => nomatch ha⟩
  | cons b args ih =>
    have hgroup := fun group =>
      Keyspace.groupExists_of_settings (@settings_scheduledMove type b db) group
    simp only [List.foldl_cons] at h
    rcases ih (fun a ha => hfit a (List.mem_cons_of_mem b ha)) h with ⟨hmem, hrest⟩ |
      ⟨hz', a, ha, next, hnext, hexists, heq⟩
    · simp only [hgroup] at hrest
      rcases scheduledMove_entries hz (hfit b List.mem_cons_self) hmem with ⟨hold, hfirst⟩ |
        ⟨hz', next, hnext, hexists, heq⟩
      · exact .inl ⟨hold, fun hz' => List.forall_mem_cons.2 ⟨hfirst hz', hrest hz'⟩⟩
      · exact .inr ⟨hz', b, List.mem_cons_self, next, hnext, hexists, heq⟩
    · rw [hgroup] at hexists
      exact .inr ⟨hz', a, List.mem_cons_of_mem b ha, next, hnext, hexists, heq⟩

end Moves

theorem mem_of_mem_delayedMove {now : Millis} {a : RequeueArg} {m : MessageId}
    (hm : m ∈ (delayedMove type now db a).zsets .delayed) : m ∈ db.zsets .delayed := by
  obtain ⟨entry, hentry, rfl⟩ := List.mem_map.1 hm
  exact List.mem_map_of_mem (delayedMove_entries delayed_ne_priority hentry)

/-- Deleting only takes messages away. -/
theorem deleteMessage_entries {group : Option GroupId} {lock : Option LockId}
    {ids : List MessageId} (h : entry ∈ ((deleteMessage group lock ids db).db.zsets z).entries) :
    entry ∈ (db.zsets z).entries := by
  obtain ⟨done, -, hdone⟩ := @deleteMessage_moves group lock ids db
  rw [hdone] at h
  revert h
  refine List.foldlRecOn (motive := fun db' : Keyspace =>
    entry ∈ (db'.zsets z).entries → entry ∈ (db.zsets z).entries) done _ id
    fun db' hdb' id _ hmem => hdb' ?_
  unfold deleteMove at hmem
  split at hmem
  · exact hmem
  · exact hmem
  split at hmem
  · exact hmem
  rename_i counter db'' hremove
  rw [zsets_eraseMessage] at hmem
  obtain ⟨-, ⟨-, -, rfl⟩ | ⟨-, rfl⟩⟩ := removeFromContainer_cases hremove
  · exact hmem
  rw [Keyspace.zsets_removeAt] at hmem
  split at hmem
  · exact SortedSet.mem_entries_of_rem hmem
  · exact hmem

/-- How an entry comes into the delayed set or into the schedule. -/
inductive System.Waits (s : System) (z : ZsetKey) (entry : Millis × MessageId) : Action → Prop
  | old {a : Action} (h : entry ∈ (s.db.zsets z).entries) : Waits s z entry a
  | fresh {a : Action} (h : s.origin entry.2 = none) : Waits s z entry a
  | delayed {batch : List Envelope} {t : Nanos} {e : Envelope} (hz : z = .delayed)
      (hload : s.hasLoaded .requeuer batch) (hstate : stateRefusal s.db.operationalState = none)
      (he : e ∈ batch) (hmem : e.id ∈ s.db.lists .requeued)
      (hdelay : toMillis e.message.retryDelay ≠ 0)
      (hentry : entry = (toMillis t + toMillis e.message.retryDelay, e.id)) :
      Waits s z entry (.requeueImmediate batch t)
  | scheduled {group : Option GroupId} {batch : List Envelope} {t : Nanos} {arg : ScheduledArg}
      {next : Millis × PublishArgs} (hz : z = .scheduled) (harg : arg ∈ s.scheduledArgs batch t)
      (hnext : arg.next = some next) (hgroup : s.db.groupExists arg.group = true)
      (hentry : entry = (next.1, arg.id)) : Waits s z entry (.publishScheduled group batch t)

section Step

variable {s s' : System} {a : Action}

/-- Every entry after a step came there in one of these ways. -/
theorem Step.waits (h : Step s a s') (hs : Sane type s) (hz : ∀ g, z ≠ .priority g)
    (hentry : entry ∈ (s'.db.zsets z).entries) : s.Waits z entry a := by
  have hsame : s'.db.zsets z = s.db.zsets z → s.Waits z entry a := fun heq => .old (heq ▸ hentry)
  cases h with
  | task | crash | fetch | load | tick | configure | saveGroup | expire => exact .old hentry
  | setState => exact hsame ((setQueueState_writes _ _ _ _).zset (by simp))
  | deleteGroup => exact hsame ((deleteConsumerGroup_writes hs.type_eq _ _).zset (by simp [hz]))
  | produce hm hdb =>
    subst hdb
    rcases publishMessage_entries hz hentry with hold | ⟨hid, -⟩
    · exact .old hold
    · refine .fresh (hs.fresh _ ?_)
      rw [hid]
      exact (s.prepared_id _ _).ge
  | pop hc htype hpop =>
    exact hsame (pop_edits hpop (pendingSlot_mem_elsewhere hz _ _) (by simp)).zset
  | checkout hmem hstate hget hst hdb =>
    subst hdb
    exact .old hentry
  | acknowledge htasks ht hrun =>
    subst hrun
    exact hsame ((acknowledgeMessage_writes _ _).zset (by simp [settlement]))
  | unacknowledge | reap =>
    exact hsame ((unacknowledgeMessage_writes _).zset (by simp [settlement]))
  | @requeueImmediate batch t hload =>
    rcases requeueImmediate_entries hz hs.type_eq (hs.requeueArgs_fit hload) hentry with
      hold | ⟨hstate, hz', arg, harg, hmem, hdelay, heq⟩
    · exact .old hold
    obtain ⟨e, he, rfl⟩ := List.mem_map.1 harg
    have hpos : 0 < e.message.retryDelay := by
      refine Nat.pos_of_ne_zero fun hzero => hdelay ?_
      rw [RequeueArg.ofEnvelope, hzero]
      rfl
    refine .delayed hz' hload hstate he hmem hdelay (heq.trans ?_)
    rw [RequeueArg.ofEnvelope, if_pos hpos]
  | requeueDelayed hload =>
    exact .old (requeueDelayed_entries hz hs.type_eq (hs.requeueArgs_fit hload) hentry)
  | @publishScheduled group batch t db' hload hgroup hnodup ht hdb =>
    subst hdb
    have hfits := (scheduledArgs_copies (t := t) hs hload).1
    change entry ∈ ((RedisSmq.publishScheduled _ s.db).db.zsets z).entries at hentry
    revert hentry
    refine publishScheduled_run hs.type_eq hfits .old fun _ hentry => ?_
    rcases foldl_scheduledMove_entries hz hfits hentry with
      ⟨hold, -⟩ | ⟨hz', arg, harg, next, hnext, hexists, heq⟩
    · exact .old hold
    · exact .scheduled hz' harg hnext hexists heq
  | delete hload hgroup hdb =>
    subst hdb
    exact .old (deleteMessage_entries hentry)
  | requeueMessage hload hstatus ht harg hdb =>
    subst hdb
    rw [requeueMessage_moves _ s.db (Keyspace.isSome_queue_of_queueType? hs.type_eq)] at hentry
    unfold copyMove at hentry
    split at hentry
    · split at hentry
      · rcases publishMessage_entries hz hentry with hold | ⟨hid, -⟩
        · exact .old hold
        · refine .fresh (hs.fresh _ ?_)
          rw [hid, harg]
          exact le_rfl
      · exact .old hentry
    · exact .old hentry

/-- A published message is in the schedule only if it was there before. -/
theorem Step.mem_scheduled (h : Step s a s') (hs : Sane type s) (hplace : s.ReschedulesInPlace a)
    {m : MessageId} (hm : (s.origin m).isSome = true) (hin : m ∈ s'.db.zsets .scheduled) :
    m ∈ s.db.zsets .scheduled := by
  obtain ⟨entry, hentry, rfl⟩ := List.mem_map.1 hin
  cases h.waits hs scheduled_ne_priority hentry with
  | old hold => exact List.mem_map_of_mem hold
  | fresh hnone =>
    rw [hnone] at hm
    cases hm
  | delayed hz => cases hz
  | scheduled hz harg hnext hgroup heq =>
    rw [heq]
    exact hplace _ rfl _ harg (by simp [hnext]) hgroup

end Step

end RedisSmq
