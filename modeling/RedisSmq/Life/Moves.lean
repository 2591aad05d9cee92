import RedisSmq.Moves.Publish

/-!
# What the moves do to their message

Each move has an abstract counterpart on `Life`: what the queue shows of the
message after the move, as a function of what it showed before. The theorems
`At.ackMove`, `At.unackMove` and so on connect the two levels, and the frames say
that a move leaves every other message alone. Together they make the keyspace
simulate, for each message separately, the small automaton of this module.
-/

namespace RedisSmq

namespace Life

/-- The message lies in the processing list of the consumer. -/
def heldBy (x : Life) (c : ConsumerId) : Prop := x.place = some (.list (.processing c))
  deriving Decidable

def acknowledge (c : ConsumerId) (now : Millis) (x : Life) : Life :=
  if x.heldBy c then ⟨none, x.write (acknowledgeWrite now)⟩ else x

def unacknowledge (c : ConsumerId) (a : UnackArg) (x : Life) : Life :=
  if x.heldBy c then ⟨if a.retries then some (.list .requeued) else none, x.write a.write⟩ else x

/-- A retried message is pending again, or dead-lettered if its group is gone. -/
def retry (type : QueueType) (groupExists : Bool) (now : Millis) (a : RequeueArg) (x : Life) :
    Life :=
  if groupExists then ⟨some (pendingSlot type a.group), x.write (retriedWrite now)⟩
  else ⟨none, x.write (deadLetteredWrite now)⟩

def requeue (type : QueueType) (groupExists : Bool) (now : Millis) (a : RequeueArg) (x : Life) :
    Life :=
  if x.place = some (.list .requeued) then
    if a.retryDelay = 0 then x.retry type groupExists now a
    else ⟨some (.zset .delayed), x.write delayingWrite⟩
  else x

def requeueDelayed (type : QueueType) (groupExists : Bool) (now : Millis) (a : RequeueArg)
    (x : Life) : Life :=
  if x.place = some (.zset .delayed) then x.retry type groupExists now a else x

def checkout (now : Millis) (x : Life) : Life :=
  if x.status = some .pending then ⟨x.place, x.write (checkoutWrite now)⟩ else x

/-- A due message leaves the schedule for good. -/
def publishDue (type : QueueType) (groupExists : Bool) (a : ScheduledArg) (x : Life) : Life :=
  if groupExists then
    ⟨some (pendingSlot type a.group), x.write a.writePublished⟩
  else ⟨none, x.write a.writeDeadLettered⟩

/-- A deletion names the container by the stored status and removes the message
from there, if it is there. -/
def delete (type : QueueType) (group : Option GroupId) (x : Life) : Life :=
  let leave (p : Slot) : Life := ⟨if x.place = some p then none else x.place, none⟩
  match x.status with
  | none | some .processing => x
  | some .acknowledged | some .deadLettered | some .new => ⟨x.place, none⟩
  | some .scheduled => leave (.zset .scheduled)
  | some .unackRequeuing => leave (.list .requeued)
  | some .pending => leave (pendingSlot type group)
  | some .unackDelaying => ⟨x.place, none⟩

theorem delete_place (type : QueueType) (group : Option GroupId) (x : Life) :
    (x.delete type group).place = none ∨ (x.delete type group).place = x.place := by
  unfold delete
  dsimp only
  split <;> first | exact .inr rfl | (split; exacts [.inl rfl, .inr rfl])

end Life

section Settle

variable {db : Keyspace} {m : MessageId} {x : Life} {c : ConsumerId} {now : Millis} {cfg : Config}
variable {a : UnackArg}

theorem ackMove_frame (c : ConsumerId) (now : Millis) (db : Keyspace) (id : MessageId) :
    Frame id db (ackMove c now db id) := by
  unfold ackMove
  split
  · exact (((Frame.refl id db).lrem _).hset _).shift _ _
  · exact Frame.refl id db

theorem At.ackMove (h : At db m x) : At (ackMove c now db m) m (x.acknowledge c now) := by
  unfold RedisSmq.ackMove Life.acknowledge
  by_cases hp : x.heldBy c
  · rw [if_pos ((h.mem_list rfl).2 hp), if_pos hp]
    exact ((h.lrem hp).hset _).shift _ _
  · rw [if_neg fun hm => hp ((h.mem_list rfl).1 hm), if_neg hp]
    exact h

theorem unackMove_frame (cfg : Config) (c : ConsumerId) (db : Keyspace) (a : UnackArg) :
    Frame a.id db (unackMove cfg c db a) := by
  unfold unackMove
  split
  · exact (((((Frame.refl a.id db).lrem _).pushUnacked cfg rfl).recordUnack cfg a).hset _).shift _ _
  · exact Frame.refl a.id db

private theorem At.pushUnacked (h : At db m x) (hx : x.place = none)
    (ha : a.id = m) :
    At (db.pushUnacked cfg a) m
      ⟨if a.retries then some (.list .requeued) else none, x.hash⟩ := by
  subst ha
  unfold Keyspace.pushUnacked
  by_cases hr : a.retries = true
  · rw [if_pos hr, if_pos hr]
    exact h.rpush hx .requeued
  have hx' : (⟨none, x.hash⟩ : Life) = x := by rw [← hx]
  rw [if_neg hr, if_neg hr, hx']
  split
  · exact h.keepAudit rfl _ _
  · exact h

private theorem At.recordUnack (h : At db m x) : At (db.recordUnack cfg a) m x where
  hash := by rw [Keyspace.hgetall_recordUnack]; exact h.hash
  occ p hp := by rw [Keyspace.occ_recordUnack]; exact h.occ p hp

theorem At.unackMove (h : At db a.id x) : At (unackMove cfg c db a) a.id (x.unacknowledge c a) := by
  unfold RedisSmq.unackMove Life.unacknowledge
  by_cases hp : x.heldBy c
  · rw [if_pos ((h.mem_list rfl).2 hp), if_pos hp]
    exact ((((h.lrem hp).pushUnacked rfl rfl).recordUnack).hset _).shift _ _
  · rw [if_neg fun hm => hp ((h.mem_list rfl).1 hm), if_neg hp]
    exact h

/-- The cases of a checkout: it succeeds exactly on a pending message of a queue
that is neither stopped nor locked. -/
theorem checkoutMessage_cases (now : Millis) (id : MessageId) (db : Keyspace) :
    (∃ h, stateRefusal db.operationalState = none ∧ db.hgetall id = some h ∧
        h.status = some .pending ∧
        checkoutMessage now id db = (.checkedOut (checkoutWrite now h),
          ((db.hset id (checkoutWrite now)).hincrby .processing 1).hincrby .pending (-1))) ∨
      (checkoutMessage now id db).2 = db ∧
        (∀ h, (checkoutMessage now id db).1 ≠ .checkedOut h) ∧
        ((∃ r, stateRefusal db.operationalState = some r) ∨ db.status id ≠ some .pending) := by
  unfold checkoutMessage
  cases hstate : stateRefusal db.operationalState with
  | some r => exact .inr ⟨rfl, by simp, .inl ⟨r, rfl⟩⟩
  | none =>
    cases hget : db.hgetall id with
    | none => exact .inr ⟨rfl, by simp, .inr (by simp [Keyspace.status, hget])⟩
    | some h =>
      cases hst : h.status with
      | none => exact .inr ⟨by simp [hst], by simp [hst],
          .inr (by simp [Keyspace.status, hget, hst])⟩
      | some st =>
        by_cases hp : st = .pending
        · subst hp
          exact .inl ⟨h, rfl, rfl, hst, by simp [hst]⟩
        refine .inr ⟨?_, ?_, .inr (by simp [Keyspace.status, hget, hst, hp])⟩
        · cases st <;> simp_all
        · cases st <;> simp_all

private theorem occ_dropLast {k : ListKey} {id : MessageId}
    (hlast : (db.lists k).getLast? = some id)
    (p : Slot) (m : MessageId) :
    (db.setList k (db.lists k).dropLast).occ p m =
      db.occ p m - if p = .list k ∧ m = id then 1 else 0 := by
  rw [Keyspace.occ_setList]
  by_cases hp : p = .list k
  · subst hp
    have hsplit : (db.lists k).count m = (db.lists k).dropLast.count m + [id].count m := by
      rw [← List.count_append, List.dropLast_append_getLast? id hlast]
    by_cases hm : m = id
    · subst hm
      simp only [List.count_singleton_self] at hsplit
      simp [Keyspace.occ, hsplit]
    · simp only [List.count_singleton, beq_iff_eq, Ne.symm hm, if_false] at hsplit
      simp [Keyspace.occ, hsplit, hm]
  · simp [hp]

/-- A pop takes a message of the pending container. -/
theorem pop_spec {type : QueueType} {group : Option GroupId} {id : MessageId} {db' : Keyspace}
    (h : pop type group c db = (some id, db')) :
    0 < db.occ (pendingSlot type group) id ∧ Frame id db db' ∧
      ∀ x, At db id x → x.place = some (pendingSlot type group) →
        At db' id ⟨some (.list (.processing c)), x.hash⟩ := by
  have hlist : ∀ (k : ListKey), (db.lists k).getLast? = some id → (Slot.list k).holds = true →
      0 < db.occ (.list k) id ∧
        Frame id db ((db.setList k (db.lists k).dropLast).lpush (.processing c) id) ∧
        ∀ x, At db id x → x.place = some (.list k) →
          At ((db.setList k (db.lists k).dropLast).lpush (.processing c) id) id
            ⟨some (.list (.processing c)), x.hash⟩ := by
    intro k hlast hk
    have hframe : Frame id db (db.setList k (db.lists k).dropLast) :=
      ⟨rfl, fun _ _ => rfl, fun m hm p _ => by simp [occ_dropLast hlast, hm],
        fun m hm p => by simp [occ_dropLast hlast, hm]⟩
    refine ⟨(db.mem_list_iff k id).1 (List.mem_of_getLast? hlast), hframe.lpush _, ?_⟩
    intro x hx hplace
    have hleft : At (db.setList k (db.lists k).dropLast) id ⟨none, x.hash⟩ := by
      refine ⟨hx.hash, fun p hp => ?_⟩
      rw [occ_dropLast hlast, hx.occ p hp, hplace]
      by_cases hpk : p = .list k
      · simp [hpk]
      · simp [hpk, Ne.symm hpk]
    exact hleft.lpush rfl _
  unfold pop at h
  cases type with
  | lifo | fifo =>
    dsimp only at h
    split at h
    · cases h
    rename_i hlast
    cases h
    exact hlist _ hlast rfl
  | priority =>
    dsimp only at h
    split at h
    · cases h
    rename_i hfirst
    cases h
    refine ⟨(db.mem_zset_iff _ _).1 (SortedSet.mem_of_first? hfirst),
      ((Frame.refl _ db).zrem _).lpush _, ?_⟩
    intro x hx hplace
    exact (hx.zrem hplace).lpush rfl _

end Settle

section Requeue

variable {type : QueueType} {now : Millis} {db : Keyspace} {a : RequeueArg} {x : Life}
variable {source : Counter}

theorem retryTaken_frame {r : Bool × Keyspace} (h : retryTaken type now a db = some r) :
    Frame a.id db r.2 := by
  unfold retryTaken at h
  split at h
  · obtain ⟨db', hdb', rfl⟩ := Option.map_eq_some_iff.1 h
    exact ((Frame.refl a.id db).enqueueRetry hdb').hset _
  · cases h
    exact ((Frame.refl a.id db).rpush _).hset _

theorem retryMove_frame (type : QueueType) (now : Millis) (source : Counter) (a : RequeueArg)
    (db : Keyspace) : Frame a.id db (retryMove type now source a db) := by
  unfold retryMove
  split
  · exact Frame.refl a.id db
  · rename_i h
    exact (retryTaken_frame h).shift _ _
  · rename_i h
    exact (retryTaken_frame h).shift _ _

theorem requeueMove_frame (type : QueueType) (now : Millis) (db : Keyspace) (a : RequeueArg) :
    Frame a.id db (requeueMove type now db a) := by
  unfold requeueMove
  split
  · split
    · exact ((Frame.refl a.id db).lrem _).trans (retryMove_frame _ _ _ _ _)
    · exact ((((Frame.refl a.id db).lrem _).hset _).zadd _ _).shift _ _
  · exact Frame.refl a.id db

theorem delayedMove_frame (type : QueueType) (now : Millis) (db : Keyspace) (a : RequeueArg) :
    Frame a.id db (delayedMove type now db a) := by
  unfold delayedMove
  split
  · exact ((Frame.refl a.id db).zrem _).trans (retryMove_frame _ _ _ _ _)
  · exact Frame.refl a.id db

private theorem At.retryMove (h : At db a.id x) (hx : x.place = none)
    (hfit : PriorityFits type a.priority) :
    At (retryMove type now source a db) a.id (x.retry type (db.groupExists a.group) now a) := by
  unfold RedisSmq.retryMove retryTaken Life.retry
  by_cases hg : db.groupExists a.group = true
  · obtain ⟨db', hdb'⟩ := @Keyspace.enqueueRetry_isSome db type a.group a.priority a.id hfit
    simp only [hg, if_true, hdb', Option.map_some]
    exact ((h.enqueueRetry hx hdb').hset _).shift _ _
  · have hdead := ((h.rpush_audit (k := .deadLetter) rfl a.id).hset (deadLetteredWrite now)).shift
      source .deadLettered
    rw [hx] at hdead
    rw [if_neg hg, if_neg hg]
    exact hdead

theorem At.requeueMove (h : At db a.id x) (hfit : PriorityFits type a.priority) :
    At (requeueMove type now db a) a.id (x.requeue type (db.groupExists a.group) now a) := by
  unfold RedisSmq.requeueMove Life.requeue
  by_cases hp : x.place = some (.list .requeued)
  · rw [if_pos ((h.mem_list rfl).2 hp), if_pos hp]
    split
    · exact (h.lrem hp).retryMove rfl hfit
    · exact (((h.lrem hp).hset _).zadd (.inl rfl) _).shift _ _
  · rw [if_neg fun hm => hp ((h.mem_list rfl).1 hm), if_neg hp]
    exact h

theorem At.delayedMove (h : At db a.id x) (hfit : PriorityFits type a.priority) :
    At (delayedMove type now db a) a.id (x.requeueDelayed type (db.groupExists a.group) now a) := by
  unfold RedisSmq.delayedMove Life.requeueDelayed
  by_cases hp : x.place = some (.zset .delayed)
  · rw [if_pos (h.mem_zset.2 hp), if_pos hp]
    exact (h.zrem hp).retryMove rfl hfit
  · rw [if_neg fun hm => hp (h.mem_zset.1 hm), if_neg hp]
    exact h

end Requeue

section Publish

variable {type : QueueType} {db : Keyspace} {x : Life}

/-- A published message that was nowhere is in the container of its status. -/
theorem At.publishMessage {a : PublishArgs} (h : At db a.id x) (hx : x.place = none)
    (hok : (publishMessage a db).isOk = true) :
    ∃ type p, db.queueType? = some type ∧ PriorityFits type a.priority ∧
      p = (if a.status = .pending then pendingSlot type a.group else .zset .scheduled) ∧
      At (publishMessage a db).db a.id
        ⟨some p, x.write a.write⟩ := by
  rcases @publishMessage_cases a db with ⟨hno, _⟩ | ⟨_, type, c, db', htype, hfit, _, hp, hdb⟩
  · simp [hno] at hok
  refine ⟨type, _, htype, hfit, rfl, ?_⟩
  rw [hdb]
  have hstore : ∀ {p : Slot}, At db' a.id ⟨some p, x.hash⟩ →
      At (storePublished a c db') a.id ⟨some p, x.write a.write⟩ :=
    fun h' => (((h'.hincrby c 1).rpush_audit (k := .published) rfl a.id).hset _).hincrby _ _
  cases hp with
  | pending hstatus hdb' =>
    rw [if_pos hstatus]
    exact hstore (h.enqueueNew hx hdb')
  | scheduled hstatus hts =>
    rw [if_neg hstatus]
    exact hstore (h.zadd (.inl hx) _)

variable {a : ScheduledArg}

/-- A due message that is not scheduled again. -/
theorem At.scheduledMove_once (h : At db a.id x) (hfit : PriorityFits type a.priority)
    (hnext : a.next = none) :
    At (scheduledMove type db a) a.id
      (if x.place = some (.zset .scheduled) then
        x.publishDue type (db.groupExists a.group) a else x) := by
  unfold scheduledMove
  simp only [hnext]
  by_cases hp : x.place = some (.zset .scheduled)
  · rw [if_pos (h.mem_zset.2 hp), if_pos hp]
    have htaken : At (takeScheduled a db) a.id ⟨none, x.hash⟩ := (h.zrem hp).hincrby _ _
    have hgroup : (takeScheduled a db).groupExists a.group = db.groupExists a.group :=
      Keyspace.groupExists_of_settings (takeScheduled_frame a db).settings _
    unfold publishTaken Life.publishDue
    rw [hgroup]
    by_cases hg : db.groupExists a.group = true
    · obtain ⟨db', hdb'⟩ :=
        @Keyspace.enqueueNew_isSome (takeScheduled a db) type a.group a.priority a.id hfit
      simp only [hg, if_true, hdb', Option.map_some, Option.getD_some]
      exact ((htaken.enqueueNew rfl hdb').hincrby _ _).hset _
    · rw [if_neg hg, if_neg hg]
      exact ((htaken.rpush_audit rfl a.id).hincrby _ _).hset _
  · rw [if_neg fun hm => hp (h.mem_zset.1 hm), if_neg hp]
    exact h

/-- A due periodic message that is still in the schedule stays there, or is
dead-lettered if its group is gone. -/
theorem At.scheduledMove_periodic (h : At db a.id x) {nextAt : Millis} {child : PublishArgs}
    (hnext : a.next = some (nextAt, child)) (hchild : child.id ≠ a.id)
    (hp : x.place = some (.zset .scheduled)) :
    At (scheduledMove type db a) a.id
      (if db.groupExists a.group then ⟨x.place, x.write a.writeSchedule⟩
        else x.publishDue type false a) := by
  unfold scheduledMove
  simp only [hnext]
  by_cases hg : db.groupExists a.group = true
  · rw [if_pos hg, if_pos hg]
    have hback : At (reschedule a nextAt db) a.id ⟨x.place, x.write a.writeSchedule⟩ := by
      rw [hp]
      exact (h.zadd (.inr hp) _).hset _
    exact ((publishMessage_frame child _).at_iff hchild.symm).2 hback
  · rw [if_neg hg, if_neg hg, if_pos (h.mem_zset.2 hp)]
    have htaken : At (takeScheduled a db) a.id ⟨none, x.hash⟩ := (h.zrem hp).hincrby _ _
    exact ((htaken.rpush_audit rfl a.id).hincrby _ _).hset _

/-- A move of a due message leaves every other message alone, apart from the copy that
it publishes. -/
theorem scheduledMove_spared {m : MessageId} (hm : m ≠ a.id)
    (hchild : ∀ nextAt child, a.next = some (nextAt, child) → m ≠ child.id) :
    Spared m db (scheduledMove type db a) := by
  unfold scheduledMove
  cases hnext : a.next with
  | none =>
    dsimp only
    split
    · cases hp : publishTaken type a (takeScheduled a db) with
      | none => exact (takeScheduled_frame a db).spared hm
      | some db' => exact ((takeScheduled_frame a db).trans (publishTaken_frame hp)).spared hm
    · exact Spared.refl m db
  | some next =>
    obtain ⟨nextAt, child⟩ := next
    dsimp only
    split
    · exact ((reschedule_frame a nextAt db).spared hm).trans
        ((publishMessage_frame child _).spared (hchild nextAt child hnext))
    split
    · exact ((takeScheduled_frame a db).trans (deadLetterTaken_frame a _)).spared hm
    · exact Spared.refl m db

end Publish

section Delete

variable {type : QueueType} {group : Option GroupId} {db : Keyspace} {m : MessageId} {x : Life}

private theorem At.eraseMessage (h : At db m x) (counter : Option Counter) :
    At (eraseMessage m counter db) m ⟨x.place, none⟩ := by
  have hbase := ((h.del.lrem_audit (k := .published) rfl m)).hincrby .messages (-1)
  unfold RedisSmq.eraseMessage
  cases counter with
  | none => exact hbase
  | some c => exact hbase.hincrby c (-1)

private theorem At.lrem_any (h : At db m x) (k : ListKey) :
    At (db.lrem k m) m ⟨if x.place = some (.list k) then none else x.place, x.hash⟩ := by
  by_cases hp : x.place = some (.list k)
  · rw [if_pos hp]
    exact h.lrem hp
  · rw [if_neg hp]
    exact h.lrem_of_ne hp

private theorem At.zrem_any (h : At db m x) (z : ZsetKey) :
    At (db.zrem z m) m ⟨if x.place = some (.zset z) then none else x.place, x.hash⟩ := by
  by_cases hp : x.place = some (.zset z)
  · rw [if_pos hp]
    exact h.zrem hp
  · rw [if_neg hp]
    exact h.zrem_of_ne hp

/-- A deletion erases its message, unless it is a delayed message that Redis refuses
to remove. -/
theorem At.deleteMove (h : At db m x) :
    (x.status = some .unackDelaying → x.place ≠ some (.zset .delayed)) ∧
        At (deleteMove (some type) group db m) m (x.delete type group) ∨
      deleteMove (some type) group db m = db := by
  have hst := h.status_eq
  unfold RedisSmq.deleteMove Life.delete
  rw [hst]
  cases hx : x.status with
  | none => exact .inr rfl
  | some st =>
    cases st with
    | processing => exact .inr rfl
    | new => exact .inl ⟨by simp, h.eraseMessage _⟩
    | acknowledged | deadLettered => exact .inl ⟨by simp, (h.lrem_audit rfl m).eraseMessage _⟩
    | scheduled => exact .inl ⟨by simp, (h.zrem_any .scheduled).eraseMessage _⟩
    | unackRequeuing => exact .inl ⟨by simp, (h.lrem_any .requeued).eraseMessage _⟩
    | pending =>
      refine .inl ⟨by simp, ?_⟩
      cases type with
      | fifo | lifo => exact (h.lrem_any (.pending group)).eraseMessage _
      | priority => exact (h.zrem_any (.priority group)).eraseMessage _
    | unackDelaying =>
      by_cases hempty : (db.zsets .delayed).entries = []
      · refine .inl ⟨fun _ hp => ?_, ?_⟩
        · have hmem := h.mem_zset.2 hp
          simp [SortedSet.mem_def, hempty] at hmem
        · simp only [removeFromContainer, Keyspace.lremOnZset, if_pos hempty]
          exact h.eraseMessage _
      · right
        simp only [removeFromContainer, Keyspace.lremOnZset, if_neg hempty]
        rfl

end Delete

end RedisSmq
