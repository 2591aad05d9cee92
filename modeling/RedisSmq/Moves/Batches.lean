import RedisSmq.Admin.DeleteLaws
import RedisSmq.Scripts.Timed

/-!
# Cutting a batch

The laws that let a batch be cut in two. Every script checks the queue first, and
none changes what its check reads. The counters that a script puts off may be
written at any earlier point, since no command in its loop looks at them. So may
the audit of acknowledged messages: a trim followed by a push and a second trim
keeps the same messages as the second trim alone.
-/

namespace RedisSmq

section Timed

variable (t : Timed)

@[simp] theorem Timed.db_after (db : Keyspace) : (t.after db).db = db := rfl

@[simp] theorem Timed.db_expireIn (k : MortalKey) (clock lifetime : Millis) :
    (t.expireIn k clock lifetime).db = t.db := by
  unfold Timed.expireIn
  split <;> rfl

theorem db_unacknowledgeOneTimed (cfg : Config) (expiry : AuditExpiry) (clock : Millis)
    (c : ConsumerId) (a : UnackArg) :
    (unacknowledgeOneTimed cfg expiry clock c a t).db = unacknowledgeOne cfg c a t.db := by
  unfold unacknowledgeOneTimed unacknowledgeOne
  dsimp only
  split <;> split <;> simp

end Timed

theorem RequeueTally.add_assoc (t u v : RequeueTally) : (t.add u).add v = t.add (u.add v) := by
  simp only [RequeueTally.add, Nat.add_assoc]

theorem RequeueTally.nothing_add (t : RequeueTally) : RequeueTally.add {} t = t := by
  simp only [RequeueTally.add, Nat.zero_add]

theorem DeleteStats.nothing_add (stats : DeleteStats) : DeleteStats.add {} stats = stats := by
  apply DeleteStats.ext <;> simp only [DeleteStats.add, Nat.zero_add]

/-! ## The checks -/

/-- What the checks of the scripts read: the property hash without its counters. -/
def Keyspace.head (db : Keyspace) :
    Option (Option QueueType × Option OperationalState × Option LockId) :=
  db.queue.map fun q => (q.type, q.state, q.lockId)

section Checks

variable {β α : Type} {t t' : Timed} (h : t'.db.head = t.db.head)
variable {db db' : Keyspace}

theorem Keyspace.head_adjust (hq : db.queue.isSome) (d : Counter → Int) :
    (db.adjust d).head = db.head := by
  obtain ⟨q, hq⟩ := Option.isSome_iff_exists.1 hq
  simp [Keyspace.head, Keyspace.adjust, hq]

theorem Keyspace.head_of_queue (hq : db'.queue = db.queue) : db'.head = db.head := by
  rw [Keyspace.head, hq, Keyspace.head]

theorem isSome_queue_of_head (h : db'.head = db.head) : db'.queue.isSome = db.queue.isSome := by
  have hmap := congrArg Option.isSome h
  simpa [Keyspace.head] using hmap

private theorem bind_of_head {γ : Type} (h : db'.head = db.head)
    (f : Option QueueType × Option OperationalState × Option LockId → Option γ) :
    (db'.queue.bind fun q => f (q.type, q.state, q.lockId)) =
      db.queue.bind fun q => f (q.type, q.state, q.lockId) := by
  have hbind := congrArg (fun o => o.bind f) h
  simpa only [Keyspace.head, Option.bind_map, Function.comp_def] using hbind

include h

theorem operationalState_of_head : t'.db.operationalState = t.db.operationalState := by
  have hstate := bind_of_head h fun q => q.2.1
  exact congrArg (fun o => o.getD .active) hstate

theorem queueType?_of_head : t'.db.queueType? = t.db.queueType? := bind_of_head h fun q => q.1

theorem settleCheck_of_head (b : β) :
    (settleCheck b t' : Except (Except Refusal α) β) = settleCheck b t := by
  have hsome := isSome_queue_of_head h
  simp only [settleCheck, operationalState_of_head h, ← Option.not_isSome, hsome]

theorem requeueCheck_of_head (b : QueueType → β) : requeueCheck b t' = requeueCheck b t := by
  simp only [requeueCheck, operationalState_of_head h, queueType?_of_head h]

theorem deleteCheck_of_head (lock : Option LockId) (b : Option QueueType → β) :
    deleteCheck lock b t' = deleteCheck lock b t := by
  have hsome := isSome_queue_of_head h
  have hlock : t'.db.lockMatches lock = t.db.lockMatches lock := by
    have hid := bind_of_head h fun q => q.2.2
    exact congrArg (fun o => lock.isSome && decide (o = lock)) hid
  simp only [deleteCheck, operationalState_of_head h, queueType?_of_head h, hlock,
    ← Option.not_isSome, hsome]

end Checks

/-! ## Counters that are put off -/

namespace Timed

/-- The counters changed, and nothing else. -/
def adjust (t : Timed) (d : Counter → Int) : Timed where
  db := t.db.adjust d
  deadline := t.deadline
  live k h := by cases k <;> exact t.live _ h

variable (t : Timed) (db : Keyspace) (d d' : Counter → Int) (k : MortalKey)

theorem holds_adjust : (db.adjust d).Holds k ↔ db.Holds k := by cases k <;> rfl

theorem after_adjust : (t.adjust d).after (db.adjust d) = (t.after db).adjust d := by
  ext k
  · rfl
  · simp only [after, adjust, holds_adjust]

/-- Commands that do not look at the counters may be run before or after them. -/
theorem after_of_adjust (f : Keyspace → Keyspace) (hf : ∀ db, f (db.adjust d) = (f db).adjust d) :
    (t.adjust d).after (f (t.adjust d).db) = (t.after (f t.db)).adjust d := by
  rw [← after_adjust, ← hf]
  rfl

theorem expireIn_adjust (clock lifetime : Millis) :
    (t.adjust d).expireIn k clock lifetime = (t.expireIn k clock lifetime).adjust d := by
  unfold expireIn
  split
  · rfl
  ext k'
  · rfl
  · simp only [pexpire, adjust, holds_adjust]

theorem adjust_adjust : (t.adjust d).adjust d' = t.adjust fun c => d c + d' c := by
  ext k
  · exact t.db.adjust_adjust d d'
  · rfl

variable {t k} in
theorem deadline_eq_none (h : ¬t.db.Holds k) : t.deadline k = none := by
  by_contra hsome
  exact h (t.live k (Option.isSome_iff_ne_none.2 hsome))

theorem deadline_after (h : ∀ k, t.db.Holds k → db.Holds k) :
    (t.after db).deadline = t.deadline := by
  funext k
  by_cases hk : db.Holds k
  · simp only [after, if_pos hk]
  · have hnone : t.deadline k = none := deadline_eq_none fun hold => hk (h k hold)
    simp only [after, if_neg hk, hnone]

theorem after_counters : t.after (t.db.adjust d) = t.adjust d := by
  ext k
  · rfl
  rw [deadline_after]
  · rfl
  · intro k hk
    exact (holds_adjust _ _ _).2 hk

end Timed

/-- A batch that puts off nothing but counters may be cut. -/
theorem lawful_of_counters {ι τ : Type} {b : Batch ι Timed τ (RedisError × Timed)}
    {inv : Timed → Prop} (delta : τ → Counter → Int) (hnothing : ∀ n, b.join b.nothing n = n)
    (hassoc : ∀ n m k, b.join (b.join n m) k = b.join n (b.join m k))
    (hinv : ∀ {t t' : Timed}, t'.db.head = t.db.head → inv t → inv t')
    (hsome : ∀ {t : Timed}, inv t → t.db.queue.isSome)
    (hdelta : ∀ n m, delta (b.join n m) = fun c => delta n c + delta m c)
    (hcommit : ∀ {n t}, inv t → b.commit n t = .ok (t.adjust (delta n)))
    (hqueue : ∀ {i n t t'}, b.step i t = .ok (n, t') → t'.db.queue = t.db.queue)
    (hstep : ∀ {i n t t'} d, b.step i t = .ok (n, t') →
      b.step i (t.adjust d) = .ok (n, t'.adjust d)) : b.Lawful inv where
  nothing_join := hnothing
  join_assoc := hassoc
  step_inv hs h := hinv (Keyspace.head_of_queue (hqueue h)) hs
  commit_inv hs h := by
    rw [hcommit hs] at h
    cases h
    exact hinv (Keyspace.head_adjust (hsome hs) _) hs
  commit_join {n m t t₂} ht h := by
    rw [hcommit ht, hdelta] at h
    cases h
    refine ⟨_, hcommit ht, ?_⟩
    rw [hcommit (hinv (Keyspace.head_adjust (hsome ht) _) ht), Timed.adjust_adjust]
  commit_step {i n m t t' t₂} ht hs h := by
    have ht' : inv t' := hinv (Keyspace.head_of_queue (hqueue hs)) ht
    rw [hcommit ht'] at h
    cases h
    exact ⟨_, hcommit ht, hstep _ hs⟩

section Unacknowledge

variable (cfg : Config) (expiry : AuditExpiry) (clock : Millis) (c : ConsumerId)

theorem unacknowledgeOneTimed_adjust (a : UnackArg) (t : Timed) (d : Counter → Int) :
    unacknowledgeOneTimed cfg expiry clock c a (t.adjust d) =
      (unacknowledgeOneTimed cfg expiry clock c a t).adjust d := by
  have htake := t.after_of_adjust d (·.lrem (.processing c) a.id) fun _ => rfl
  have hpush := fun t : Timed => t.after_of_adjust d (·.pushUnacked cfg a)
    fun db => Keyspace.pushUnacked_adjust cfg db a d
  have hrecord := fun t : Timed => t.after_of_adjust d (·.recordUnack cfg a)
    fun db => Keyspace.recordUnack_adjust cfg db a d
  have hwrite := fun t : Timed => t.after_of_adjust d (·.hset a.id a.write) fun _ => rfl
  unfold unacknowledgeOneTimed
  dsimp only
  rw [htake, hpush]
  split <;> split <;> simp only [Timed.expireIn_adjust, hrecord, hwrite]

theorem settleCheck_eq_ok {β α : Type} {b b' : β} {t : Timed}
    (h : (settleCheck b t : Except (Except Refusal α) β) = .ok b') :
    b = b' ∧ t.db.queue.isSome := by
  unfold settleCheck at h
  split at h
  · cases h
  rename_i hq
  split at h
  · cases h
  · cases h
    exact ⟨rfl, Option.isSome_iff_ne_none.2 (by simpa using hq)⟩

theorem unacknowledgeBatch_lawful {α : Type} :
    (unacknowledgeBatch cfg expiry clock c).Lawful fun t =>
      (settleCheck (unacknowledgeBatch cfg expiry clock c) t : Except (Except Refusal α) _) =
        .ok (unacknowledgeBatch cfg expiry clock c) := by
  refine lawful_of_counters (fun n => unackDelta n.1 n.2) ?_ ?_ ?_ ?_ ?_ ?_ ?_ ?_
  · rintro ⟨n, m⟩
    simp [unacknowledgeBatch]
  · rintro n m k
    simp [unacknowledgeBatch, Nat.add_assoc]
  · intro t t' h ht
    rw [settleCheck_of_head h]
    exact ht
  · intro t ht
    exact (settleCheck_eq_ok ht).2
  · intro n m
    funext c'
    cases c' <;> simp [unackDelta, unacknowledgeBatch]
    omega
  · intro n t ht
    have hq := (settleCheck_eq_ok ht).2
    rw [← Timed.after_counters]
    simp only [unacknowledgeBatch]
    rw [Keyspace.hincrbyPos_eq_adjust t.db _ hq, Keyspace.hincrbyPos_adjust,
      Keyspace.hincrbyPos_adjust]
    congr 3
    funext c'
    cases c' <;> simp [unackDelta]
  · intro a n t t' h
    simp only [unacknowledgeBatch] at h
    split at h
    · cases h
      rw [db_unacknowledgeOneTimed, unacknowledgeOne, Keyspace.queue_hset,
        Keyspace.queue_recordUnack, Keyspace.queue_pushUnacked]
      rfl
    · cases h
      rfl
  · intro a n t t' d h
    simp only [unacknowledgeBatch] at h ⊢
    by_cases hmem : a.id ∈ t.db.lists (.processing c)
    · rw [if_pos hmem] at h
      cases h
      rw [if_pos (show a.id ∈ (t.adjust d).db.lists (.processing c) from hmem),
        unacknowledgeOneTimed_adjust]
    · rw [if_neg hmem] at h
      cases h
      rw [if_neg (show a.id ∉ (t.adjust d).db.lists (.processing c) from hmem)]

end Unacknowledge

section Requeue

variable (now : Millis) (type : QueueType)

theorem retryTimed_adjust {a : RequeueArg} {t t' : Timed} {n : RequeueTally} (d : Counter → Int)
    (h : retryTimed type now a t = .ok (n, t')) :
    retryTimed type now a (t.adjust d) = .ok (n, t'.adjust d) := by
  unfold retryTimed at h ⊢
  rw [show (t.adjust d).db = t.db.adjust d from rfl, retryTaken_adjust]
  cases hr : retryTaken type now a t.db with
  | none =>
    rw [hr] at h
    cases h
  | some r =>
    obtain ⟨moved, db⟩ := r
    rw [hr] at h
    cases moved <;>
    · cases h
      dsimp only [Option.map_some]
      rw [Timed.after_adjust]

theorem queue_of_retryTimed {a : RequeueArg} {t t' : Timed} {n : RequeueTally}
    (h : retryTimed type now a t = .ok (n, t')) : t'.db.queue = t.db.queue := by
  unfold retryTimed at h
  cases hr : retryTaken type now a t.db with
  | none =>
    rw [hr] at h
    cases h
  | some r =>
    have hqueue := queue_of_retryTaken type now a t.db hr
    obtain ⟨moved, db⟩ := r
    rw [hr] at h
    cases moved <;>
    · cases h
      exact hqueue

theorem requeueCheck_eq_ok {β : Type} {b : QueueType → β} {b' : β} {t : Timed}
    (h : requeueCheck b t = .ok b') : (∃ type, b type = b') ∧ t.db.queue.isSome := by
  unfold requeueCheck at h
  split at h
  · cases h
  rename_i type htype
  split at h
  · cases h
  · cases h
    exact ⟨⟨type, rfl⟩, Keyspace.isSome_queue_of_queueType? htype⟩

theorem requeueImmediateBatch_lawful :
    (requeueImmediateBatch now type).Lawful fun t =>
      requeueCheck (requeueImmediateBatch now) t = .ok (requeueImmediateBatch now type) := by
  refine lawful_of_counters (requeueDelta .requeued) RequeueTally.nothing_add
    RequeueTally.add_assoc ?_ ?_ ?_ ?_ ?_ ?_
  · intro t t' h ht
    rw [requeueCheck_of_head h]
    exact ht
  · intro t ht
    exact (requeueCheck_eq_ok ht).2
  · intro n m
    funext c
    cases c <;> simp [requeueDelta, requeueImmediateBatch, RequeueTally.add, RequeueTally.total]
    omega
  · intro n t ht
    have hq := (requeueCheck_eq_ok ht).2
    rw [← Timed.after_counters]
    simp only [requeueImmediateBatch]
    rw [Keyspace.hincrbyPos_eq_adjust t.db _ hq, Keyspace.hincrbyPos_adjust,
      Keyspace.hincrbyPos_adjust, Keyspace.hincrbyPos_adjust]
    congr 3
    funext c
    cases c <;> simp [requeueDelta]
  · intro a n t t' h
    simp only [requeueImmediateBatch] at h
    split at h
    · split at h
      · have hqueue := queue_of_retryTimed now type h
        exact hqueue
      · cases h
        rfl
    · cases h
      rfl
  · intro a n t t' d h
    have htake := t.after_of_adjust d (·.lrem .requeued a.id) fun _ => rfl
    have hdelay := fun t : Timed => t.after_of_adjust d (delayTaken a) fun _ => rfl
    simp only [requeueImmediateBatch] at h ⊢
    by_cases hmem : a.id ∈ t.db.lists .requeued
    · rw [if_pos hmem] at h
      rw [if_pos (show a.id ∈ (t.adjust d).db.lists .requeued from hmem), htake]
      by_cases hnow : a.retryDelay = 0
      · rw [if_pos hnow] at h ⊢
        exact retryTimed_adjust now type d h
      rw [if_neg hnow] at h ⊢
      cases h
      rw [hdelay]
    · rw [if_neg hmem] at h
      cases h
      rw [if_neg (show a.id ∉ (t.adjust d).db.lists .requeued from hmem)]

/-- What a batch of `requeue-delayed` adds to the counters. -/
def delayedDelta (n : RequeueTally) (c : Counter) : Int :=
  (if c = .pending then (n.pending : Int) else 0) +
    (if c = .deadLettered then (n.deadLettered : Int) else 0) +
      if c = .delayed then -(n.total : Int) else 0

theorem requeueDelayedBatch_lawful :
    (requeueDelayedBatch now type).Lawful fun t =>
      requeueCheck (requeueDelayedBatch now) t = .ok (requeueDelayedBatch now type) := by
  refine lawful_of_counters delayedDelta RequeueTally.nothing_add RequeueTally.add_assoc
    ?_ ?_ ?_ ?_ ?_ ?_
  · intro t t' h ht
    rw [requeueCheck_of_head h]
    exact ht
  · intro t ht
    exact (requeueCheck_eq_ok ht).2
  · intro n m
    funext c
    cases c <;> simp [delayedDelta, requeueDelayedBatch, RequeueTally.add, RequeueTally.total]
    omega
  · intro n t ht
    have hq := (requeueCheck_eq_ok ht).2
    rw [← Timed.after_counters]
    simp only [requeueDelayedBatch]
    rw [Keyspace.hincrbyPos_eq_adjust t.db _ hq, Keyspace.hincrbyPos_adjust,
      Keyspace.hincrbyPos_adjust]
    congr 3
    funext c
    cases c <;> simp [delayedDelta]
  · intro a n t t' h
    simp only [requeueDelayedBatch] at h
    split at h
    · have hqueue := queue_of_retryTimed now type h
      exact hqueue
    · cases h
      rfl
  · intro a n t t' d h
    have htake := t.after_of_adjust d (·.zrem .delayed a.id) fun _ => rfl
    simp only [requeueDelayedBatch] at h ⊢
    by_cases hmem : a.id ∈ t.db.zsets .delayed
    · rw [if_pos hmem] at h
      rw [if_pos (show a.id ∈ (t.adjust d).db.zsets .delayed from hmem), htake]
      exact retryTimed_adjust now type d h
    · rw [if_neg hmem] at h
      cases h
      rw [if_neg (show a.id ∉ (t.adjust d).db.zsets .delayed from hmem)]

end Requeue

section Delete

variable (group : Option GroupId) (lock : Option LockId) (type : Option QueueType)

theorem deleteCheck_eq_ok {β : Type} {b : Option QueueType → β} {b' : β} {t : Timed}
    (h : deleteCheck lock b t = .ok b') : (∃ type, b type = b') ∧ t.db.queue.isSome := by
  unfold deleteCheck at h
  split at h
  · cases h
  rename_i hq
  split at h
  · cases h
  split at h
  · cases h
  · cases h
    exact ⟨⟨_, rfl⟩, Option.isSome_iff_ne_none.2 (by simpa using hq)⟩

theorem head_eraseMessage (id : MessageId) (counter : Option Counter) {db : Keyspace}
    (hq : db.queue.isSome) : (eraseMessage id counter db).head = db.head := by
  have hmessages : (((db.del id).lrem .published id).hincrby .messages (-1)).head = db.head := by
    have hdel : ((db.del id).lrem .published id).queue.isSome = true := hq
    rw [Keyspace.hincrby_eq_adjust]
    exact Keyspace.head_adjust hdel _
  unfold eraseMessage
  cases counter with
  | none => exact hmessages
  | some c =>
    dsimp only
    rw [← hmessages, Keyspace.hincrby_eq_adjust _ c]
    exact Keyspace.head_adjust rfl _

theorem deleteBatch_lawful :
    (deleteBatch group type).Lawful fun t =>
      deleteCheck lock (deleteBatch group) t = .ok (deleteBatch group type) where
  nothing_join := DeleteStats.nothing_add
  join_assoc := DeleteStats.add_assoc
  step_inv {id t n t'} ht h := by
    rw [deleteCheck_of_head (t := t) ?_]
    · exact ht
    simp only [deleteBatch] at h
    split at h
    · cases h
      rfl
    · cases h
      rfl
    split at h
    · cases h
    rename_i counter db hremove
    cases h
    have hqueue := queue_removeFromContainer hremove
    have hq := (deleteCheck_eq_ok lock ht).2
    rw [Timed.db_after, head_eraseMessage _ _ (by rw [hqueue]; exact hq)]
    exact Keyspace.head_of_queue hqueue
  commit_inv ht h := by
    cases h
    exact ht
  commit_join _ h := ⟨_, rfl, h⟩
  commit_step _ h hcommit := by
    cases hcommit
    exact ⟨_, rfl, h⟩

end Delete

/-! ## The audit of acknowledged messages -/

section Audit

variable (audit : AuditQueue) (db : Keyspace) (key : ListKey) (ids ids' : List MessageId)

/-- What `LTRIM` leaves of an audit list. -/
def AuditQueue.kept (l : List MessageId) : List MessageId :=
  if audit.queueSize = 0 then l else l.drop (l.length - audit.queueSize)

theorem Keyspace.keepAudit_eq_setList :
    db.keepAudit key audit ids = db.setList key (audit.kept (db.lists key ++ ids)) := by
  unfold Keyspace.keepAudit AuditQueue.kept
  dsimp only
  split
  · rfl
  · simp only [Keyspace.ltrimLast, Keyspace.setList, Function.update_self, Function.update_idem]

/-- A trim before a push does not change what the trim after it leaves. -/
theorem AuditQueue.kept_append (l l' : List MessageId) :
    audit.kept (audit.kept l ++ l') = audit.kept (l ++ l') := by
  unfold AuditQueue.kept
  split
  · rfl
  by_cases hl : l.length ≤ audit.queueSize
  · rw [Nat.sub_eq_zero_of_le hl, List.drop_zero]
  have hsize : (l.drop (l.length - audit.queueSize)).length = audit.queueSize := by
    rw [List.length_drop]
    omega
  have hcut : l.length + l'.length - audit.queueSize =
      l.length - audit.queueSize + l'.length := by omega
  rw [List.length_append, List.length_append, hsize, hcut, ← List.drop_drop,
    List.drop_append_of_le_length (Nat.sub_le _ _), Nat.add_sub_cancel_left]

theorem AuditQueue.kept_ne_nil {l : List MessageId} (h : l ≠ []) : audit.kept l ≠ [] := by
  unfold AuditQueue.kept
  split
  · exact h
  have hlength := List.length_pos_iff.2 h
  rw [← List.length_pos_iff, List.length_drop]
  omega

theorem Keyspace.lists_keepAudit_ne {key' : ListKey} (h : key' ≠ key) :
    (db.keepAudit key audit ids).lists key' = db.lists key' := by
  rw [Keyspace.keepAudit_eq_setList]
  exact Function.update_of_ne h _ _

theorem Keyspace.holds_keepAudit_ne {k : MortalKey} (h : k ≠ .list key) :
    (db.keepAudit key audit ids).Holds k ↔ db.Holds k := by
  cases k with
  | list key' =>
    have hne : key' ≠ key := fun heq => h (congrArg _ heq)
    simp only [Keyspace.Holds, Keyspace.lists_keepAudit_ne audit db key ids hne]
  | zset _ | message _ | history _ =>
    rw [Keyspace.keepAudit_eq_setList]
    rfl

theorem Keyspace.holds_keepAudit_self {ids : List MessageId} (h : ids ≠ []) :
    (db.keepAudit key audit ids).Holds (.list key) := by
  rw [Keyspace.keepAudit_eq_setList]
  change Function.update db.lists key _ key ≠ []
  rw [Function.update_self]
  exact audit.kept_ne_nil (List.append_ne_nil_of_right_ne_nil _ h)

theorem Keyspace.keepAudit_keepAudit :
    (db.keepAudit key audit ids).keepAudit key audit ids' =
      db.keepAudit key audit (ids ++ ids') := by
  simp only [Keyspace.keepAudit_eq_setList, Keyspace.setList, Function.update_self,
    Function.update_idem, audit.kept_append, List.append_assoc]

end Audit

section Acknowledge

variable (cfg : Config) (expiry : AuditExpiry) (clock : Millis) (c : ConsumerId) (now : Millis)
variable (t : Timed) {ids ids' : List MessageId} {id : MessageId}

/-- The identifiers of acknowledged messages go to the audit list. -/
def Timed.keepAcked (ids : List MessageId) (t : Timed) : Timed :=
  (t.after (t.db.keepAudit .acknowledged cfg.acknowledged ids)).expireIn (.list .acknowledged)
    clock expiry.acknowledged

theorem Timed.keepAcked_adjust (d : Counter → Int) :
    (t.adjust d).keepAcked cfg expiry clock ids = (t.keepAcked cfg expiry clock ids).adjust d := by
  have hkeep := t.after_of_adjust d (·.keepAudit .acknowledged cfg.acknowledged ids)
    fun db => Keyspace.keepAudit_adjust cfg.acknowledged db .acknowledged ids d
  unfold Timed.keepAcked
  rw [hkeep, Timed.expireIn_adjust]

theorem Timed.db_keepAcked : (t.keepAcked cfg expiry clock ids).db =
    t.db.keepAudit .acknowledged cfg.acknowledged ids := by
  rw [Timed.keepAcked, Timed.db_expireIn, Timed.db_after]

/-- The audit changes the deadline of its own list only. -/
theorem Timed.deadline_keepAcked (h : ids ≠ []) :
    (t.keepAcked cfg expiry clock ids).deadline =
      if expiry.acknowledged = 0 then t.deadline
      else
        Function.update t.deadline (.list .acknowledged)
          (some (clock + expiry.acknowledged)) := by
  have hself := Keyspace.holds_keepAudit_self cfg.acknowledged t.db .acknowledged h
  have hafter : (t.after (t.db.keepAudit .acknowledged cfg.acknowledged ids)).deadline =
      t.deadline := by
    apply t.deadline_after
    intro k hk
    by_cases hlist : k = .list .acknowledged
    · rw [hlist]
      exact hself
    · exact (Keyspace.holds_keepAudit_ne _ _ _ _ hlist).2 hk
  unfold Timed.keepAcked Timed.expireIn
  split
  · exact hafter
  · simp only [Timed.pexpire, Timed.db_after, if_pos hself, hafter]

theorem Timed.keepAcked_keepAcked (h : ids ≠ []) (h' : ids' ≠ []) :
    (t.keepAcked cfg expiry clock ids).keepAcked cfg expiry clock ids' =
      t.keepAcked cfg expiry clock (ids ++ ids') := by
  apply Timed.ext
  · simp only [Timed.db_keepAcked, Keyspace.keepAudit_keepAudit]
  rw [Timed.deadline_keepAcked _ _ _ _ h', Timed.deadline_keepAcked _ _ _ _ h,
    Timed.deadline_keepAcked _ _ _ _ (List.append_ne_nil_of_left_ne_nil h _)]
  split <;> simp

/-- What one message of `acknowledge-message` writes at once. -/
def ackTaken (id : MessageId) (db : Keyspace) : Keyspace :=
  (db.lrem (.processing c) id).hset id (acknowledgeWrite now)

theorem ackTaken_keepAudit (db : Keyspace) :
    ackTaken c now id (db.keepAudit .acknowledged cfg.acknowledged ids) =
      (ackTaken c now id db).keepAudit .acknowledged cfg.acknowledged ids := by
  have hne : ListKey.processing c ≠ .acknowledged := by simp
  simp only [ackTaken, Keyspace.keepAudit_eq_setList, Keyspace.lrem, Keyspace.hset,
    Keyspace.setList, Function.update_of_ne hne, Function.update_of_ne hne.symm,
    Function.update_comm hne]
  rfl

theorem Timed.keepAcked_ackTaken (h : ids ≠ []) :
    (t.keepAcked cfg expiry clock ids).after
        (ackTaken c now id (t.keepAcked cfg expiry clock ids).db) =
      (t.after (ackTaken c now id t.db)).keepAcked cfg expiry clock ids := by
  apply Timed.ext
  · simp only [Timed.db_after, Timed.db_keepAcked, ackTaken_keepAudit]
  funext k
  rw [Timed.deadline_keepAcked _ _ _ _ h]
  simp only [Timed.after, Timed.db_keepAcked, ackTaken_keepAudit,
    Timed.deadline_keepAcked _ _ _ _ h]
  by_cases hk : k = .list .acknowledged
  · subst hk
    rw [if_pos (Keyspace.holds_keepAudit_self _ _ _ h)]
    have hsame : (ackTaken c now id t.db).Holds (.list .acknowledged) ↔
        t.db.Holds (.list .acknowledged) := Iff.rfl
    split
    · dsimp only
      by_cases hold : t.db.Holds (.list .acknowledged)
      · rw [if_pos (hsame.2 hold)]
      · rw [if_neg (fun h => hold (hsame.1 h)), Timed.deadline_eq_none hold]
    · simp
  · simp only [Keyspace.holds_keepAudit_ne _ _ _ _ hk]
    by_cases hexpiry : expiry.acknowledged = 0
    · simp only [if_pos hexpiry]
    · simp only [if_neg hexpiry, Function.update_of_ne hk]

/-- The writes at the end of `acknowledge-message`. -/
def ackWrites (ids : List MessageId) (t : Timed) : Timed :=
  if ids = [] then t
  else if cfg.acknowledged.enabled then
    (t.adjust (ackDelta ids.length)).keepAcked cfg expiry clock ids
  else t.adjust (ackDelta ids.length)

theorem commitAcknowledged_eq_ok {results : List (MessageId × Bool)} {t' : Timed} :
    commitAcknowledged cfg expiry clock results t = .ok t' ↔
      (cfg.acknowledged.enabled → (ackedIds results).length ≤ cfg.unpackLimit) ∧
        ackWrites cfg expiry clock (ackedIds results) t = t' := by
  have hcounters : ∀ n : Nat,
      t.after ((t.db.hincrby .acknowledged n).hincrby .processing (-n)) =
        t.adjust (ackDelta n) := by
    intro n
    rw [Keyspace.hincrby_eq_adjust, Keyspace.hincrby_eq_adjust, Keyspace.adjust_adjust,
      Timed.after_counters]
    rfl
  unfold commitAcknowledged ackWrites
  simp only [hcounters]
  by_cases hids : ackedIds results = []
  · simp [hids]
  by_cases henabled : cfg.acknowledged.enabled
  · by_cases hlimit : cfg.unpackLimit < (ackedIds results).length
    · simp [hids, henabled, hlimit]
    · simp [hids, henabled, hlimit, Nat.not_lt.1 hlimit, Timed.keepAcked]
  · simp [hids, henabled]

theorem ackedIds_append (results results' : List (MessageId × Bool)) :
    ackedIds (results ++ results') = ackedIds results ++ ackedIds results' := by
  simp only [ackedIds, List.filter_append, List.map_append]

theorem ackWrites_append (ids ids' : List MessageId) :
    ackWrites cfg expiry clock (ids ++ ids') t =
      ackWrites cfg expiry clock ids' (ackWrites cfg expiry clock ids t) := by
  have hdelta : ∀ t : Timed, (t.adjust (ackDelta ids.length)).adjust (ackDelta ids'.length) =
      t.adjust (ackDelta (ids ++ ids').length) := by
    intro t
    rw [Timed.adjust_adjust]
    congr 1
    funext c'
    cases c' <;> simp [ackDelta]
    omega
  by_cases h : ids = []
  · simp [ackWrites, h]
  by_cases h' : ids' = []
  · simp [ackWrites, h']
  have happend : ids ++ ids' ≠ [] := List.append_ne_nil_of_left_ne_nil h _
  unfold ackWrites
  rw [if_neg h, if_neg h', if_neg happend]
  by_cases henabled : cfg.acknowledged.enabled
  · simp only [if_pos henabled]
    rw [← Timed.keepAcked_adjust, Timed.keepAcked_keepAcked _ _ _ _ h h', hdelta]
  · simp only [if_neg henabled]
    rw [hdelta]

theorem ackWrites_ackTaken (ids : List MessageId) :
    (ackWrites cfg expiry clock ids t).after
        (ackTaken c now id (ackWrites cfg expiry clock ids t).db) =
      ackWrites cfg expiry clock ids (t.after (ackTaken c now id t.db)) := by
  have hadjust : ∀ d, (t.adjust d).after (ackTaken c now id (t.adjust d).db) =
      (t.after (ackTaken c now id t.db)).adjust d := fun d =>
    t.after_of_adjust d (ackTaken c now id) fun _ => rfl
  unfold ackWrites
  split
  · rfl
  rename_i hids
  split
  · rw [Timed.keepAcked_ackTaken _ _ _ _ _ _ hids, hadjust]
  · exact hadjust _

theorem lists_ackWrites (ids : List MessageId) :
    (ackWrites cfg expiry clock ids t).db.lists (.processing c) =
      t.db.lists (.processing c) := by
  unfold ackWrites
  split
  · rfl
  split
  · rw [Timed.db_keepAcked, Keyspace.lists_keepAudit_ne _ _ _ _ (by simp)]
    rfl
  · rfl

theorem head_ackWrites (ids : List MessageId) (hq : t.db.queue.isSome) :
    (ackWrites cfg expiry clock ids t).db.head = t.db.head := by
  unfold ackWrites
  split
  · rfl
  split
  · rw [Timed.db_keepAcked, Keyspace.keepAudit_eq_setList]
    exact Keyspace.head_adjust hq _
  · exact Keyspace.head_adjust hq _

theorem acknowledgeBatch_lawful {α : Type} :
    (acknowledgeBatch cfg expiry clock c now).Lawful fun t =>
      (settleCheck (acknowledgeBatch cfg expiry clock c now) t : Except (Except Refusal α) _) =
        .ok (acknowledgeBatch cfg expiry clock c now) where
  nothing_join := List.nil_append
  join_assoc := List.append_assoc
  step_inv {id t n t'} ht h := by
    rw [settleCheck_of_head (t := t) ?_]
    · exact ht
    simp only [acknowledgeBatch] at h
    split at h
    · cases h
      rfl
    · cases h
      rfl
  commit_inv {results t t'} ht h := by
    obtain ⟨-, rfl⟩ := (commitAcknowledged_eq_ok cfg expiry clock t).1 h
    rw [settleCheck_of_head (head_ackWrites cfg expiry clock t _ (settleCheck_eq_ok ht).2)]
    exact ht
  commit_join {results results' t t₂} ht h := by
    obtain ⟨hlimit, rfl⟩ := (commitAcknowledged_eq_ok cfg expiry clock t).1 h
    simp only [acknowledgeBatch, ackedIds_append, List.length_append] at hlimit ⊢
    refine ⟨_, (commitAcknowledged_eq_ok cfg expiry clock t).2 ⟨?_, rfl⟩,
      (commitAcknowledged_eq_ok cfg expiry clock _).2 ⟨?_, ?_⟩⟩
    · intro henabled
      have hsum := hlimit henabled
      omega
    · intro henabled
      have hsum := hlimit henabled
      omega
    · rw [ackWrites_append]
  commit_step {id results n t t' t₂} ht hstep h := by
    obtain ⟨hlimit, rfl⟩ := (commitAcknowledged_eq_ok cfg expiry clock t').1 h
    refine ⟨_, (commitAcknowledged_eq_ok cfg expiry clock t).2 ⟨hlimit, rfl⟩, ?_⟩
    simp only [acknowledgeBatch, lists_ackWrites] at hstep ⊢
    by_cases hmem : id ∈ t.db.lists (.processing c)
    · rw [if_pos hmem] at hstep ⊢
      cases hstep
      exact congrArg (fun t => Except.ok (_, t))
        (ackWrites_ackTaken cfg expiry clock c now t (ackedIds results))
    · rw [if_neg hmem] at hstep ⊢
      cases hstep
      rfl

end Acknowledge

end RedisSmq
