import Mathlib.Data.List.Basic
import Mathlib.Data.Set.Basic
import RedisSmq.Life.Scripts

/-!
# What a script can write

Publishing, requeuing and deleting move messages between some of the containers of a queue,
and settling takes them out of one processing list. `Writes W db db'` says that containers
outside of `W` are left alone; the footprint of a script is such a set. The processing lists
are outside of most footprints, and the pending containers of the other kind of queue are
outside of all.
-/

namespace RedisSmq

/-- The container has the same contents. -/
def Keyspace.SameAt (db db' : Keyspace) : Slot → Prop
  | .list k => db'.lists k = db.lists k
  | .zset z => db'.zsets z = db.zsets z

/-- The containers outside of the set have the same contents. -/
def Writes (W : Set Slot) (db db' : Keyspace) : Prop := ∀ p, p ∉ W → db.SameAt db' p

/-- The containers that messages are moved between without being delivered: all but the
processing lists and the pending containers of the other kind of queue. -/
def traffic (type : QueueType) : Set Slot
  | .list (.pending _) => type ≠ .priority
  | .zset (.priority _) => type = .priority
  | .list (.processing _) => False
  | .list .requeued | .list .acknowledged | .list .deadLetter | .list .published => True
  | .zset .delayed | .zset .scheduled => True

theorem pendingSlot_mem_traffic (type : QueueType) (group : Option GroupId) :
    pendingSlot type group ∈ traffic type := by
  cases type with
  | lifo | fifo => exact fun h => nomatch h
  | priority => exact rfl

namespace Writes

variable {W : Set Slot} {db db' db'' : Keyspace}

theorem refl (W : Set Slot) (db : Keyspace) : Writes W db db := by
  intro p _
  cases p <;> rfl

section

variable (h : Writes W db db')
variable {k : ListKey}

include h

theorem trans (h' : Writes W db' db'') : Writes W db db'' := by
  intro p hp
  have hfirst := h p hp
  have hsecond := h' p hp
  cases p with
  | list k => exact Eq.trans hsecond hfirst
  | zset z => exact Eq.trans hsecond hfirst

theorem hset (id : MessageId) (f : MessageHash → MessageHash) : Writes W db (db'.hset id f) := by
  intro p hp
  have := h p hp
  cases p <;> exact this

theorem hincrby (c : Counter) (n : Int) : Writes W db (db'.hincrby c n) := by
  intro p hp
  have := h p hp
  cases p <;> exact this

theorem shift (a b : Counter) : Writes W db (db'.shift a b) :=
  (h.hincrby a (-1)).hincrby b 1

theorem setList (hk : .list k ∈ W) (l : List MessageId) : Writes W db (db'.setList k l) := by
  intro p hp
  have hsame := h p hp
  cases p with
  | list k' =>
    have hne : k' ≠ k := by
      rintro rfl
      exact hp hk
    exact (Function.update_of_ne hne _ _).trans hsame
  | zset z => exact hsame

theorem setZset {z : ZsetKey} (hz : .zset z ∈ W)
    (s : SortedSet MessageId) : Writes W db (db'.setZset z s) := by
  intro p hp
  have hsame := h p hp
  cases p with
  | list k => exact hsame
  | zset z' =>
    have hne : z' ≠ z := by
      rintro rfl
      exact hp hz
    exact (Function.update_of_ne hne _ _).trans hsame

theorem rpush (hk : .list k ∈ W) (id : MessageId) : Writes W db (db'.rpush k id) := h.setList hk _

theorem lrem (hk : .list k ∈ W) (id : MessageId) : Writes W db (db'.lrem k id) := h.setList hk _

theorem keepAudit (hk : .list k ∈ W) (audit : AuditQueue)
    (ids : List MessageId) : Writes W db (db'.keepAudit k audit ids) := by
  unfold Keyspace.keepAudit
  dsimp only
  split
  · exact h.setList hk _
  · exact (h.setList hk _).setList hk _

theorem pushUnacked (hrequeued : .list .requeued ∈ W)
    (hdead : .list .deadLetter ∈ W) (cfg : Config) (a : UnackArg) :
    Writes W db (db'.pushUnacked cfg a) := by
  unfold Keyspace.pushUnacked
  split
  · exact h.rpush hrequeued _
  split
  · exact h.keepAudit hdead _ _
  · exact h

theorem recordUnack (cfg : Config) (a : UnackArg) : Writes W db (db'.recordUnack cfg a) := by
  unfold Keyspace.recordUnack
  split
  · exact h
  intro p hp
  have := h p hp
  cases p <;> exact this

end

theorem foldl {α : Type} {move : Keyspace → α → Keyspace} {args : List α}
    (hmove : ∀ db, ∀ a ∈ args, Writes W db (move db a)) : Writes W db (args.foldl move db) :=
  List.foldlRecOn (motive := Writes W db) args move (refl W db)
    fun db' hdb a ha => hdb.trans (hmove db' a ha)

end Writes

/-- Hashes, counters and the containers in the set are written. No history is, and nothing
is deleted. -/
inductive Edits (W : Set Slot) (db : Keyspace) : Keyspace → Prop
  | refl : Edits W db db
  | hset {db' : Keyspace} (h : Edits W db db') (id : MessageId)
      (f : MessageHash → MessageHash) : Edits W db (db'.hset id f)
  | hincrby {db' : Keyspace} (h : Edits W db db') (c : Counter) (n : Int) :
      Edits W db (db'.hincrby c n)
  | setList {db' : Keyspace} (h : Edits W db db') {k : ListKey} (hk : .list k ∈ W)
      (l : List MessageId) : Edits W db (db'.setList k l)
  | setZset {db' : Keyspace} (h : Edits W db db') {z : ZsetKey} (hz : .zset z ∈ W)
      (s : SortedSet MessageId) : Edits W db (db'.setZset z s)

namespace Edits

variable {W : Set Slot} {db db' db'' : Keyspace} {type : QueueType} {group : Option GroupId}
variable {priority : Option Nat} {id : MessageId}

section

variable (h : Edits W db db')

include h

theorem trans (h' : Edits W db' db'') : Edits W db db'' := by
  induction h' with
  | refl => exact h
  | hset _ id f ih => exact ih.hset id f
  | hincrby _ c n ih => exact ih.hincrby c n
  | setList _ hk l ih => exact ih.setList hk l
  | setZset _ hz s ih => exact ih.setZset hz s

theorem writes : Writes W db db' := by
  induction h with
  | refl => exact .refl W db
  | hset _ id f ih => exact ih.hset id f
  | hincrby _ c n ih => exact ih.hincrby c n
  | setList _ hk l ih => exact ih.setList hk l
  | setZset _ hz s ih => exact ih.setZset hz s

theorem history : db'.history = db.history := by
  induction h with
  | refl => rfl
  | hset _ _ _ ih | hincrby _ _ _ ih | setList _ _ _ ih | setZset _ _ _ ih => exact ih

/-- A stored message stays stored. -/
theorem stored {m : MessageId} (hm : (db.hgetall m).isSome = true) :
    (db'.hgetall m).isSome = true := by
  induction h with
  | refl => exact hm
  | hset _ id f ih =>
    by_cases hid : m = id
    · subst hid
      rw [Keyspace.hgetall_hset_self]
      rfl
    · rwa [Keyspace.hgetall_hset_ne _ _ _ _ hid]
  | hincrby _ _ _ ih | setList _ _ _ ih | setZset _ _ _ ih => exact ih

theorem shift (a b : Counter) : Edits W db (db'.shift a b) :=
  (h.hincrby a (-1)).hincrby b 1

theorem keepAudit {k : ListKey} (hk : .list k ∈ W) (audit : AuditQueue)
    (ids : List MessageId) : Edits W db (db'.keepAudit k audit ids) := by
  unfold Keyspace.keepAudit
  dsimp only
  split
  · exact h.setList hk _
  · exact (h.setList hk _).setList hk _

theorem pushUnacked (hrequeued : .list .requeued ∈ W)
    (hdead : .list .deadLetter ∈ W) (cfg : Config) (a : UnackArg) :
    Edits W db (db'.pushUnacked cfg a) := by
  unfold Keyspace.pushUnacked
  split
  · exact h.setList hrequeued _
  split
  · exact h.keepAudit hdead _ _
  · exact h

theorem enqueueNew (hmem : pendingSlot type group ∈ W)
    (hdb : db'.enqueueNew type group priority id = some db'') : Edits W db db'' := by
  unfold Keyspace.enqueueNew at hdb
  cases type with
  | lifo | fifo =>
    cases hdb
    exact h.setList hmem _
  | priority =>
    obtain ⟨p, -, rfl⟩ := Option.map_eq_some_iff.1 hdb
    exact h.setZset hmem _

theorem enqueueRetry (hmem : pendingSlot type group ∈ W)
    (hdb : db'.enqueueRetry type group priority id = some db'') : Edits W db db'' := by
  unfold Keyspace.enqueueRetry at hdb
  cases type with
  | lifo | fifo =>
    cases hdb
    exact h.setList hmem _
  | priority =>
    obtain ⟨p, -, rfl⟩ := Option.map_eq_some_iff.1 hdb
    exact h.setZset hmem _

end

end Edits

theorem Keyspace.lrem_sublist (db : Keyspace) (k k' : ListKey) (id : MessageId) :
    ((db.lrem k id).lists k').Sublist (db.lists k') := by
  unfold Keyspace.lrem Keyspace.setList
  dsimp only
  by_cases hk : k' = k
  · subst hk
    rw [Function.update_self]
    exact List.erase_sublist
  · rw [Function.update_of_ne hk]

section Requeue

variable {type : QueueType} {now : Millis} {db : Keyspace} {W : Set Slot}
variable {a : RequeueArg}

theorem retryMove_edits (source : Counter) (hpending : pendingSlot type a.group ∈ W)
    (hdead : db.groupExists a.group = false → .list .deadLetter ∈ W) :
    Edits W db (retryMove type now source a db) := by
  have htaken : ∀ {r}, retryTaken type now a db = some r → Edits W db r.2 := by
    intro r h
    unfold retryTaken at h
    split at h
    · obtain ⟨db₁, hdb₁, rfl⟩ := Option.map_eq_some_iff.1 h
      exact (Edits.refl.enqueueRetry hpending hdb₁).hset _ _
    rename_i hgroup
    cases h
    exact (Edits.refl.setList (hdead (by simpa using hgroup)) _).hset _ _
  unfold retryMove
  split
  · exact .refl
  · rename_i h
    exact (htaken h).shift _ _
  · rename_i h
    exact (htaken h).shift _ _

/-- A message of the requeued list goes to its pending container or to the delayed set. It
goes to the dead-letter list only if it is to be retried at once and its group is gone. -/
theorem requeueMove_edits (hrequeued : .list .requeued ∈ W)
    (hdelayed : .zset .delayed ∈ W) (hpending : pendingSlot type a.group ∈ W)
    (hdead : a.id ∈ db.lists .requeued → a.retryDelay = 0 → db.groupExists a.group = false →
      .list .deadLetter ∈ W) : Edits W db (requeueMove type now db a) := by
  have htaken : Edits W db (db.lrem .requeued a.id) := Edits.refl.setList hrequeued _
  unfold requeueMove
  split
  · rename_i hmem
    split
    · rename_i hdelay
      exact htaken.trans (retryMove_edits _ hpending (hdead hmem hdelay))
    · exact ((htaken.hset _ _).setZset hdelayed _).shift _ _
  · exact .refl

theorem delayedMove_edits (hdelayed : .zset .delayed ∈ W) (hpending : pendingSlot type a.group ∈ W)
    (hdead : a.id ∈ db.zsets .delayed → db.groupExists a.group = false → .list .deadLetter ∈ W) :
    Edits W db (delayedMove type now db a) := by
  unfold delayedMove
  split
  · rename_i hmem
    exact (Edits.refl.setZset hdelayed _).trans (retryMove_edits _ hpending (hdead hmem))
  · exact .refl

/-- The requeued list loses the message that is moved. -/
theorem requeueMove_requeued (a : RequeueArg) :
    ((requeueMove type now db a).lists .requeued).Sublist (db.lists .requeued) := by
  have hlrem := db.lrem_sublist .requeued .requeued a.id
  unfold requeueMove
  split
  · split
    · have hedits : Edits {p | p ≠ .list .requeued} (db.lrem .requeued a.id)
          (retryMove type now .requeued a (db.lrem .requeued a.id)) :=
        retryMove_edits _ (by cases type <;> simp [pendingSlot]) (by simp)
      have hsame := hedits.writes (.list .requeued) (by simp)
      exact hsame ▸ hlrem
    · exact hlrem
  · exact List.Sublist.refl _

theorem requeueImmediate_writes {args : List RequeueArg} (htype : db.queueType? = some type)
    (hfit : ∀ a ∈ args, PriorityFits type a.priority) :
    Writes (traffic type) db (requeueImmediate now args db).db := by
  refine requeueImmediate_run now htype hfit (Writes.refl _ db) fun _ => ?_
  refine Writes.foldl fun db a _ => Edits.writes ?_
  exact requeueMove_edits trivial trivial (pendingSlot_mem_traffic type a.group)
    fun _ _ _ => trivial

theorem requeueDelayed_writes {args : List RequeueArg} (htype : db.queueType? = some type)
    (hfit : ∀ a ∈ args, PriorityFits type a.priority) :
    Writes (traffic type) db (requeueDelayed now args db).db := by
  refine requeueDelayed_run now htype hfit (Writes.refl _ db) fun _ => ?_
  refine Writes.foldl fun db a _ => Edits.writes ?_
  exact delayedMove_edits trivial (pendingSlot_mem_traffic type a.group) fun _ _ => trivial

end Requeue

section Publish

variable {type : QueueType} {db db' : Keyspace}

theorem publishMessage_edits {a : PublishArgs} {W : Set Slot} (htype : db.queueType? = some type)
    (hpublished : .list .published ∈ W) (hscheduled : .zset .scheduled ∈ W)
    (hpending : pendingSlot type a.group ∈ W) : Edits W db (publishMessage a db).db := by
  rcases @publishMessage_cases a db with ⟨_, h⟩ | ⟨_, type', c, db', htype', _, _, hp, h⟩
  · rw [h]
    exact .refl
  cases htype.symm.trans htype'
  have hplaced : Edits W db db' := by
    cases hp with
    | pending hstatus hdb => exact Edits.refl.enqueueNew hpending hdb
    | scheduled hstatus hts => exact Edits.refl.setZset hscheduled _
  rw [h]
  exact (((hplaced.hincrby c 1).setList hpublished _).hset _ _).hincrby .messages 1

theorem publishMessage_writes (a : PublishArgs) (htype : db.queueType? = some type) :
    Writes (traffic type) db (publishMessage a db).db :=
  (publishMessage_edits (W := traffic type) htype trivial trivial
    (pendingSlot_mem_traffic type a.group)).writes

/-- A due message goes to its pending container, or stays and has a copy published. It goes
to the dead-letter list only if it is in the schedule and its group is gone. -/
theorem scheduledMove_edits {a : ScheduledArg} {W : Set Slot} (htype : db.queueType? = some type)
    (hpublished : .list .published ∈ W) (hscheduled : .zset .scheduled ∈ W)
    (hpending : ∀ group, pendingSlot type group ∈ W)
    (hdead : a.id ∈ db.zsets .scheduled → db.groupExists a.group = false →
      .list .deadLetter ∈ W) : Edits W db (scheduledMove type db a) := by
  have htaken : Edits W db (takeScheduled a db) := (Edits.refl.setZset hscheduled _).hincrby _ _
  have hletter : a.id ∈ db.zsets .scheduled → db.groupExists a.group = false →
      Edits W db (deadLetterTaken a (takeScheduled a db)) := fun hmem hgroup =>
    ((htaken.setList (hdead hmem hgroup) _).hincrby _ _).hset _ _
  unfold scheduledMove
  split
  · split
    · rename_i hmem
      cases hp : publishTaken type a (takeScheduled a db) with
      | none => exact htaken
      | some db' =>
        unfold publishTaken at hp
        split at hp
        · obtain ⟨db₁, hdb₁, rfl⟩ := Option.map_eq_some_iff.1 hp
          exact ((htaken.enqueueNew (hpending _) hdb₁).hincrby _ _).hset _ _
        rename_i hgroup
        have hgone : ¬ db.groupExists a.group = true := hgroup
        cases hp
        exact hletter hmem (by simpa using hgone)
    · exact .refl
  · rename_i nextAt child _
    have hback : Edits W db (reschedule a nextAt db) :=
      (Edits.refl.setZset hscheduled _).hset _ _
    split
    · exact hback.trans (publishMessage_edits htype hpublished hscheduled (hpending _))
    rename_i hgroup
    split
    · rename_i hmem
      exact hletter hmem (by simpa using hgroup)
    · exact .refl

theorem publishScheduled_writes {args : List ScheduledArg} (htype : db.queueType? = some type)
    (hfit : ∀ a ∈ args, a.Fits type) : Writes (traffic type) db (publishScheduled args db).db := by
  refine publishScheduled_run htype hfit (Writes.refl _ db) fun _ => ?_
  have hfold : Writes (traffic type) db (args.foldl (scheduledMove type) db) ∧
      (args.foldl (scheduledMove type) db).queueType? = some type :=
    List.foldlRecOn
      (motive := fun db' => Writes (traffic type) db db' ∧ db'.queueType? = some type)
      args (scheduledMove type) ⟨Writes.refl _ db, htype⟩ fun db' ⟨hdb, htype'⟩ a _ =>
        ⟨hdb.trans (scheduledMove_edits (W := traffic type) htype' trivial trivial
            (pendingSlot_mem_traffic type) fun _ _ => trivial).writes,
          (congrArg Prod.fst settings_scheduledMove).trans htype'⟩
  exact hfold.1

theorem copyMove_writes (a : RequeueCopyArg) (htype : db.queueType? = some type) :
    Writes (traffic type) db (copyMove db a) := by
  unfold copyMove
  split
  · split
    · exact (publishMessage_writes a.child htype).hset _ _
    · exact Writes.refl _ db
  · exact Writes.refl _ db

end Publish

section Manage

variable {type : QueueType} {db db' : Keyspace} {group : Option GroupId}

theorem removeFromContainer_edits {type : Option QueueType} {id : MessageId} {st : Status}
    {counter : Option Counter} {W : Set Slot}
    (h : removeFromContainer type group id db st = .ok (counter, db'))
    (hacknowledged : .list .acknowledged ∈ W) (hdead : .list .deadLetter ∈ W)
    (hrequeued : .list .requeued ∈ W) (hscheduled : .zset .scheduled ∈ W)
    (hpending : ∀ t ∈ type, pendingSlot t group ∈ W) : Edits W db db' := by
  obtain ⟨-, ⟨-, -, rfl⟩ | ⟨hst, rfl⟩⟩ := removeFromContainer_cases h
  · exact .refl
  have hW : ∀ p, st.home type group = some p → p ∈ W := by
    intro p hp
    cases st with
    | pending =>
      obtain ⟨t, ht, rfl⟩ := Option.map_eq_some_iff.1 hp
      exact hpending t ht
    | unackDelaying => exact absurd rfl hst
    | new | processing => cases hp
    | acknowledged | deadLettered | scheduled | unackRequeuing =>
      cases hp
      assumption
  rcases hp : st.home type group with _ | k | k
  · exact .refl
  · exact Edits.refl.setList (hW _ hp) _
  · exact Edits.refl.setZset (hW _ hp) _

theorem deleteMessage_writes (group : Option GroupId) (lock : Option LockId)
    (ids : List MessageId) (htype : db.queueType? = some type) :
    Writes (traffic type) db (deleteMessage group lock ids db).db := by
  obtain ⟨done, _, hdone⟩ := @deleteMessage_moves group lock ids db
  rw [hdone, htype]
  refine Writes.foldl fun db id _ => ?_
  unfold deleteMove
  split
  · exact Writes.refl _ db
  · exact Writes.refl _ db
  split
  · exact Writes.refl _ db
  rename_i counter db' hremove
  have hremoved : Writes (traffic type) db db' :=
    (removeFromContainer_edits (W := traffic type) hremove trivial trivial trivial trivial
      fun t ht => by cases ht; exact pendingSlot_mem_traffic type group).writes
  have hdel : Writes (traffic type) db (db'.del id) := fun p hp => by
    have := hremoved p hp
    cases p <;> exact this
  have herased := (hdel.lrem (k := .published) (by exact trivial) id).hincrby .messages (-1)
  cases counter with
  | none => exact herased
  | some c => exact herased.hincrby c (-1)

theorem setQueueState_writes (newState : OperationalState) (expected : Option OperationalState)
    (lock : Option LockId) (db : Keyspace) :
    Writes ∅ db (setQueueState newState expected lock db).2 := by
  intro p _
  rcases setQueueState_cases newState expected lock db with h | ⟨q, lockId, _, h⟩ <;> rw [h] <;>
    cases p <;> rfl

/-- Deleting a consumer group clears the two pending containers that the caller names. -/
theorem deleteConsumerGroup_writes (htype : db.queueType? = some type) (g : GroupId)
    (keys : Option GroupId) :
    Writes {.list (.pending keys), .zset (.priority keys)} db
      (deleteConsumerGroup g keys db).2 := by
  rcases deleteConsumerGroup_cases htype g keys with h | ⟨_, h⟩ <;> rw [h]
  · exact Writes.refl _ db
  have hcleared := ((Writes.refl {.list (.pending keys), .zset (.priority keys)} db).setList
    (k := .pending keys) (by simp) []).setZset (z := .priority keys) (by simp) SortedSet.empty
  intro p hp
  have := hcleared p hp
  cases p <;> exact this

end Manage

section Settle

variable {type : QueueType} {cfg : Config} {c : ConsumerId} {db db' : Keyspace}

/-- What settlements write. -/
def settlement (c : ConsumerId) : Set Slot :=
  {.list (.processing c), .list .requeued, .list .acknowledged, .list .deadLetter}

theorem ackMove_edits {W : Set Slot} (hprocessing : .list (.processing c) ∈ W) (now : Millis)
    (id : MessageId) : Edits W db (ackMove c now db id) := by
  unfold ackMove
  split
  · exact ((Edits.refl.setList hprocessing _).hset _ _).shift _ _
  · exact .refl

theorem acknowledgeMessage_writes (now : Millis) (ids : List MessageId) :
    Writes (settlement c) db (acknowledgeMessage cfg c now ids db).db := by
  refine acknowledgeMessage_run c now cfg (Writes.refl _ db) (fun _ => ?_) fun _ hmoves => ?_
  · exact Writes.foldl fun db id _ => (ackMove_edits (by simp [settlement]) now id).writes
  · exact hmoves.keepAudit (by simp [settlement]) _ _

theorem unacknowledgeMessage_writes (args : List UnackArg) :
    Writes (settlement c) db (unacknowledgeMessage cfg c args db).2 := by
  refine unacknowledgeMessage_run cfg c args (Writes.refl _ db) fun _ => ?_
  refine Writes.foldl fun db a _ => ?_
  unfold unackMove
  split
  · have htaken : Writes (settlement c) db (db.lrem (.processing c) a.id) :=
      (Writes.refl _ db).lrem (by simp [settlement]) _
    exact (((htaken.pushUnacked (by simp [settlement]) (by simp [settlement]) cfg a).recordUnack
      cfg a).hset _ _).shift _ _
  · exact Writes.refl _ db

/-- A pop takes from a pending container of the queue's kind. -/
theorem pop_edits {group : Option GroupId} {id : MessageId} {W : Set Slot}
    (h : pop type group c db = (some id, db')) (hpending : pendingSlot type group ∈ W)
    (hprocessing : .list (.processing c) ∈ W) : Edits W db db' := by
  unfold pop at h
  cases type with
  | lifo | fifo =>
    dsimp only at h
    split at h
    · cases h
    · cases h
      exact (Edits.refl.setList hpending _).setList hprocessing _
  | priority =>
    dsimp only at h
    split at h
    · cases h
    · cases h
      exact (Edits.refl.setZset hpending _).setList hprocessing _

theorem pop_writes {group : Option GroupId} {id : MessageId}
    (h : pop type group c db = (some id, db')) :
    Writes {pendingSlot type group, .list (.processing c)} db db' :=
  (pop_edits h (by simp) (by simp)).writes

end Settle

end RedisSmq
