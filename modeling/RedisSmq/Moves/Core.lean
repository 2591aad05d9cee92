import RedisSmq.Moves.Books

/-!
# What identifies a stored message

The identifier and the parameters of a message are written once, when it is published.
No other script changes these fields: a script can write to a hash that is gone, but
then it leaves them unset, and only a deletion removes them. The two fields together
are the core of a hash.
-/

namespace RedisSmq

namespace Keyspace

/-- The identifier and the parameters that are stored of a message. -/
def core (db : Keyspace) (m : MessageId) : Option MessageId × Option Params :=
  ((db.hgetall m).bind MessageHash.id, (db.hgetall m).bind MessageHash.message)

/-- The core of every message stays, or is erased. -/
def KeepsCore (db db' : Keyspace) : Prop :=
  ∀ m, db'.core m = db.core m ∨ db'.core m = (none, none)

end Keyspace

/-- The write leaves the core alone. -/
def CoreSafe (f : MessageHash → MessageHash) : Prop :=
  ∀ h, (f h).id = h.id ∧ (f h).message = h.message

section Laws

variable {db db' db'' : Keyspace} {id m : MessageId} {f : MessageHash → MessageHash}

theorem core_hset (hf : CoreSafe f) : (db.hset id f).core m = db.core m := by
  unfold Keyspace.core
  by_cases hm : m = id
  · subst hm
    rw [Keyspace.hgetall_hset_self]
    cases hget : db.hgetall m with
    | none => simpa using hf {}
    | some h => simpa using hf h
  · rw [Keyspace.hgetall_hset_ne _ _ _ _ hm]

theorem core_of_hash (h : db'.hgetall m = db.hgetall m) : db'.core m = db.core m := by
  rw [Keyspace.core, h]
  rfl

theorem SameBooks.core (h : SameBooks db db') (m : MessageId) : db'.core m = db.core m :=
  core_of_hash (h.hgetall m)

namespace Keyspace.KeepsCore

theorem refl (db : Keyspace) : db.KeepsCore db := fun _ => .inl rfl

theorem trans (h : db.KeepsCore db') (h' : db'.KeepsCore db'') : db.KeepsCore db'' := by
  intro m
  rcases h' m with h'' | h''
  · rw [h'']
    exact h m
  · exact .inr h''

theorem of_books (h : SameBooks db db') : db.KeepsCore db' := fun m => .inl (h.core m)

theorem of_eq (h : ∀ m, db'.core m = db.core m) : db.KeepsCore db' := fun m => .inl (h m)

theorem write (hf : CoreSafe f) {a b : Counter}
    (h : SameBooks ((db.hset id f).shift a b) db') : db.KeepsCore db' :=
  of_eq fun m => (h.core m).trans (core_hset hf)

theorem foldl {α : Type} {move : Keyspace → α → Keyspace} {args : List α}
    (hmove : ∀ db : Keyspace, ∀ a ∈ args, db.KeepsCore (move db a)) :
    db.KeepsCore (args.foldl move db) := by
  induction args generalizing db with
  | nil => exact refl db
  | cons a args ih =>
    exact (hmove db a List.mem_cons_self).trans
      (ih fun db b hb => hmove db b (List.mem_cons_of_mem _ hb))

end Keyspace.KeepsCore

end Laws

section Settle

variable {cfg : Config} {c : ConsumerId} {now : Millis} {db : Keyspace}

theorem acknowledgeMessage_core (ids : List MessageId) :
    db.KeepsCore (acknowledgeMessage cfg c now ids db).db := by
  refine acknowledgeMessage_run c now cfg (.refl db) (fun _ => ?_) fun _ hfold => ?_
  · refine .foldl fun db id _ => ?_
    by_cases hid : id ∈ db.lists (.processing c)
    · exact .write (f := acknowledgeWrite now) (fun _ => ⟨rfl, rfl⟩) (ackMove_books hid)
    · rw [show ackMove c now db id = db from if_neg hid]
      exact .refl db
  · exact hfold.trans (.of_books (SameBooks.keepAudit _ _ _ _))

theorem unacknowledgeMessage_core (args : List UnackArg) :
    db.KeepsCore (unacknowledgeMessage cfg c args db).2 := by
  refine unacknowledgeMessage_run cfg c args (.refl db) fun _ => ?_
  refine .foldl fun db a _ => ?_
  by_cases hid : a.id ∈ db.lists (.processing c)
  · exact .write (f := a.write) (fun _ => ⟨rfl, rfl⟩) (unackMove_books hid)
  · rw [show unackMove cfg c db a = db from if_neg hid]
    exact .refl db

end Settle

section Requeue

variable {type : QueueType} {now : Millis} {db : Keyspace} {args : List RequeueArg}

private theorem Retried.core {source : Counter} {a : RequeueArg} {db' : Keyspace}
    (h : Retried now source a db db') : db.KeepsCore db' := by
  cases h with
  | pending h => exact .write (f := retriedWrite now) (fun _ => ⟨rfl, rfl⟩) h
  | dead h => exact .write (f := deadLetteredWrite now) (fun _ => ⟨rfl, rfl⟩) h

theorem requeueImmediate_core (htype : db.queueType? = some type)
    (hfit : ∀ a ∈ args, PriorityFits type a.priority) :
    db.KeepsCore (requeueImmediate now args db).db := by
  refine requeueImmediate_run now htype hfit (.refl db) fun _ => ?_
  refine .foldl fun db a ha => ?_
  by_cases hid : a.id ∈ db.lists .requeued
  · rcases @requeueMove_books type now db a (hfit a ha) hid with h | h
    · exact h.core
    · exact .write (f := delayingWrite)
        (fun _ => ⟨rfl, rfl⟩) h
  · rw [show requeueMove type now db a = db from if_neg hid]
    exact .refl db

theorem requeueDelayed_core (htype : db.queueType? = some type)
    (hfit : ∀ a ∈ args, PriorityFits type a.priority) :
    db.KeepsCore (requeueDelayed now args db).db := by
  refine requeueDelayed_run now htype hfit (.refl db) fun _ => ?_
  refine .foldl fun db a ha => ?_
  by_cases hid : a.id ∈ db.zsets .delayed
  · exact (@delayedMove_books type now db a (hfit a ha) hid).core
  · rw [show delayedMove type now db a = db from if_neg hid]
    exact .refl db

end Requeue

section Publish

variable {type : QueueType} {db : Keyspace} {m : MessageId}

theorem publishMessage_core (a : PublishArgs) (hm : m ≠ a.id) :
    (publishMessage a db).db.core m = db.core m :=
  core_of_hash ((publishMessage_frame a db).hash m hm)

private theorem scheduledMove_core {a : ScheduledArg} (hfit : PriorityFits type a.priority)
    (hchild : ∀ nextAt child, a.next = some (nextAt, child) → child.id ≠ m) :
    (scheduledMove type db a).core m = db.core m := by
  have hfired : ∀ {db'}, Fired a db db' → db'.core m = db.core m := by
    intro db' h
    cases h with
    | published h =>
      exact (h.core m).trans (core_hset (f := a.writePublished) fun _ => ⟨rfl, rfl⟩)
    | dead h =>
      exact (h.core m).trans (core_hset (f := a.writeDeadLettered) fun _ => ⟨rfl, rfl⟩)
  cases hnext : a.next with
  | none =>
    by_cases hid : a.id ∈ db.zsets .scheduled
    · exact hfired (scheduledMove_books_once hfit hid hnext)
    · simp only [scheduledMove, hnext, if_neg hid]
  | some next =>
    by_cases hg : db.groupExists a.group = true
    · simp only [scheduledMove, hnext, if_pos hg]
      refine (publishMessage_core next.2 (hchild next.1 next.2 hnext).symm).trans ?_
      exact ((reschedule_books a next.1 db).core m).trans
        (core_hset (f := a.writeSchedule) fun _ => ⟨rfl, rfl⟩)
    · by_cases hid : a.id ∈ db.zsets .scheduled
      · exact hfired (scheduledMove_books_dead hid hnext (by simpa using hg))
      · simp only [scheduledMove, hnext, if_neg hg, if_neg hid]

theorem publishScheduled_core {args : List ScheduledArg} (htype : db.queueType? = some type)
    (hfit : ∀ a ∈ args, a.Fits type)
    (hchild : ∀ a ∈ args, ∀ nextAt child, a.next = some (nextAt, child) → child.id ≠ m) :
    (publishScheduled args db).db.core m = db.core m := by
  refine publishScheduled_run htype hfit rfl fun hstate => ?_
  clear htype hstate
  induction args generalizing db with
  | nil => rfl
  | cons a args ih =>
    rw [List.foldl_cons, ih (fun b hb => hfit b (List.mem_cons_of_mem _ hb))
      fun b hb => hchild b (List.mem_cons_of_mem _ hb)]
    exact scheduledMove_core (hfit a List.mem_cons_self).priority
      (hchild a List.mem_cons_self)

theorem copyMove_core {a : RequeueCopyArg} (hchild : a.child.id ≠ m) :
    (copyMove db a).core m = db.core m := by
  unfold copyMove
  split
  · split
    · rw [core_hset (f := a.writeRequeued) fun _ => ⟨rfl, rfl⟩]
      exact publishMessage_core a.child hchild.symm
    · rfl
  · rfl

private theorem deleteMove_core (type : Option QueueType) (group : Option GroupId)
    (db : Keyspace) (id : MessageId) : db.KeepsCore (deleteMove type group db id) := by
  have herase : ∀ (counter : Option Counter) (db' : Keyspace),
      (eraseMessage id counter db').hgetall id = none := by
    intro counter db'
    cases counter <;> exact db'.hgetall_del_self id
  intro m
  by_cases hm : m = id
  · subst hm
    unfold deleteMove
    split
    · exact .inl rfl
    · exact .inl rfl
    split
    · exact .inl rfl
    · right
      simp [Keyspace.core, herase]
  · exact .inl (core_of_hash ((deleteMove_frame type group db id).hash m hm))

theorem deleteMessage_core (group : Option GroupId) (lock : Option LockId)
    (ids : List MessageId) : db.KeepsCore (deleteMessage group lock ids db).db := by
  obtain ⟨done, _, hdone⟩ := @deleteMessage_moves group lock ids db
  rw [hdone]
  exact .foldl fun db' id _ => deleteMove_core _ group db' id

end Publish

end RedisSmq
