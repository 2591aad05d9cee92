import RedisSmq.Life.Basic
import RedisSmq.Moves.Requeue
import RedisSmq.Scripts.Publish
import RedisSmq.Scripts.Manage

/-!
# Publishing and deleting as sequences of moves

`publish-scheduled` and `delete-message` already update the counters message by
message, so their moves are the bodies of their loops. What remains to be shown is
when a loop runs to its end: the copies that the scheduled publisher makes are
never refused when they fit the queue, and a deletion stops at the first delayed
message.
-/

namespace RedisSmq

/-! ## Publishing one message -/

/-- The reply of `publish_message` is `OK`. -/
def Outcome.isOk (o : Outcome (Except Refusal Unit)) : Bool :=
  match o.reply with
  | .ok (.ok ()) => true
  | _ => false

/-- The message is put into its container, ready to be stored. -/
inductive Placed (type : QueueType) (a : PublishArgs) (db : Keyspace) : Counter → Keyspace → Prop
  | pending {db' : Keyspace} (hstatus : a.status = .pending)
      (hdb : db.enqueueNew type a.group a.priority a.id = some db') :
      Placed type a db .pending db'
  | scheduled {ts : Millis} (hstatus : a.status ≠ .pending) (hts : a.scheduledTimestamp = some ts) :
      Placed type a db .scheduled (db.zadd .scheduled ts a.id)

section Publish

variable {a : PublishArgs} {db : Keyspace}

/-- Either the message is stored, or the keyspace is left as it is. -/
theorem publishMessage_cases :
    ((publishMessage a db).isOk = false ∧ (publishMessage a db).db = db) ∨
      ((publishMessage a db).isOk = true ∧
        ∃ type container db', db.queueType? = some type ∧ PriorityFits type a.priority ∧
          db.groupExists a.group = true ∧ Placed type a db container db' ∧
          (publishMessage a db).db = storePublished a container db') := by
  unfold publishMessage
  split
  · exact .inl ⟨rfl, rfl⟩
  rename_i type htype
  split
  · exact .inl ⟨rfl, rfl⟩
  split
  · exact .inl ⟨rfl, rfl⟩
  split
  · exact .inl ⟨rfl, rfl⟩
  rename_i hgroup
  split
  · exact .inl ⟨rfl, rfl⟩
  rename_i hrequired
  split
  · exact .inl ⟨rfl, rfl⟩
  rename_i henabled
  have hfit : PriorityFits type a.priority := by
    rw [PriorityFits, Option.isSome_iff_ne_none]
    constructor
    · exact fun ht hp => hrequired ⟨ht, hp⟩
    intro hp
    by_contra ht
    exact henabled ⟨ht, hp⟩
  have hgroup' : db.groupExists a.group = true := by simpa using hgroup
  split
  · rename_i hstatus
    split
    · exact .inl ⟨rfl, rfl⟩
    · rename_i db' hdb
      exact .inr ⟨rfl, type, .pending, db', htype, hfit, hgroup', .pending hstatus hdb, rfl⟩
  · rename_i hstatus
    split
    · exact .inl ⟨rfl, rfl⟩
    · rename_i ts hts
      exact .inr ⟨rfl, type, .scheduled, _, htype, hfit, hgroup', .scheduled hstatus hts, rfl⟩

/-- A pending message that fits an accepting queue is never refused. -/
theorem publishMessage_isOk {type : QueueType} (htype : db.queueType? = some type)
    (hstate : stateRefusal db.operationalState = none) (hfit : PriorityFits type a.priority)
    (hgroup : db.groupExists a.group = true)
    (hdue : a.status ≠ .pending → a.scheduledTimestamp.isSome = true) :
    (publishMessage a db).isOk = true := by
  have hstopped : db.operationalState ≠ .stopped := by
    intro h
    simp [h, stateRefusal] at hstate
  have hlocked : db.operationalState ≠ .locked := by
    intro h
    simp [h, stateRefusal] at hstate
  obtain ⟨db', hdb⟩ := @Keyspace.enqueueNew_isSome db type a.group a.priority a.id hfit
  have hrequired : ¬(type = .priority ∧ a.priority = none) := by
    rintro ⟨ht, hp⟩
    simpa [hp] using hfit.1 ht
  have henabled : ¬(type ≠ .priority ∧ a.priority ≠ none) := by
    rintro ⟨ht, hp⟩
    exact ht (hfit.2 (Option.isSome_iff_ne_none.2 hp))
  simp only [publishMessage, htype, if_neg hstopped, hlocked, false_and, if_false, hgroup,
    if_neg hrequired, if_neg henabled]
  by_cases hstatus : a.status = .pending
  · simp only [hstatus, if_true, hdb]
    rfl
  obtain ⟨ts, hts⟩ := Option.isSome_iff_exists.1 (hdue hstatus)
  simp only [if_neg hstatus, hts]
  rfl

end Publish

/-! ## Due messages -/

/-- One message of `publish-scheduled`. -/
def scheduledMove (type : QueueType) (db : Keyspace) (a : ScheduledArg) : Keyspace :=
  match a.next with
  | none =>
      if a.id ∈ db.zsets .scheduled then
        (publishTaken type a (takeScheduled a db)).getD (takeScheduled a db)
      else db
  | some (nextAt, child) =>
      if db.groupExists a.group then (publishMessage child (reschedule a nextAt db)).db
      else if a.id ∈ db.zsets .scheduled then deadLetterTaken a (takeScheduled a db)
      else db

/-- The arguments fit the queue: their priorities, and the copies to publish. -/
structure ScheduledArg.Fits (type : QueueType) (a : ScheduledArg) : Prop where
  priority : PriorityFits type a.priority
  child : ∀ nextAt child, a.next = some (nextAt, child) →
    child.status = .pending ∧ child.group = a.group ∧ PriorityFits type child.priority

/-- The identifiers of the copies that a batch of due messages asks for. -/
def copyIds (args : List ScheduledArg) : List MessageId :=
  args.filterMap fun a => a.next.map fun next => next.2.id

section Batch

variable {type : QueueType} {cfg : Config} {now : Nanos} {uuid : MessageId} {e : Envelope}

/-- Only a periodic message goes back into the schedule, and then a copy of it without
the schedule is published. -/
theorem ScheduledArg.next_ofEnvelope {nextAt : Millis} {child : PublishArgs}
    (h : (ScheduledArg.ofEnvelope cfg now uuid e).next = some (nextAt, child)) :
    e.isPeriodic = true ∧
      child = PublishArgs.copy
        ((e.nextScheduledTimestamp cfg.nextTick now).2.cloneUnscheduled cfg.defaults now uuid)
        (toMillis now) (some e.id) none := by
  obtain ⟨hmessage, _⟩ := @Envelope.nextScheduledTimestamp_frame cfg.nextTick now e
  dsimp only [ScheduledArg.ofEnvelope] at h
  obtain ⟨hrepeats, h⟩ := Option.ite_none_right_eq_some.1 h
  cases h
  refine ⟨?_, rfl⟩
  rw [Bool.and_eq_true, Envelope.isPeriodic, hmessage] at hrepeats
  exact hrepeats.2

theorem ScheduledArg.fits_ofEnvelope (hfit : PriorityFits type e.message.priority) :
    (ScheduledArg.ofEnvelope cfg now uuid e).Fits type where
  priority := hfit
  child nextAt child h := by
    obtain ⟨hmessage, hgroup, _⟩ := @Envelope.nextScheduledTimestamp_frame cfg.nextTick now e
    obtain ⟨_, rfl⟩ := ScheduledArg.next_ofEnvelope h
    refine ⟨rfl, hgroup, ?_⟩
    rw [PublishArgs.copy, Envelope.cloneUnscheduled_priority, hmessage]
    exact hfit

theorem ScheduledArg.map_id_ofBatch (batch : List Envelope) :
    (ScheduledArg.ofBatch cfg now uuid batch).map ScheduledArg.id = batch.map Envelope.id := by
  induction batch generalizing uuid with
  | nil => rfl
  | cons e batch ih => exact congrArg (e.id :: ·) ih

theorem ScheduledArg.mem_ofBatch {batch : List Envelope} {a : ScheduledArg}
    (h : a ∈ ScheduledArg.ofBatch cfg now uuid batch) :
    ∃ e ∈ batch, ∃ i, uuid ≤ i ∧ i < uuid + batch.length ∧
      a = ScheduledArg.ofEnvelope cfg now i e := by
  induction batch generalizing uuid with
  | nil => exact absurd h List.not_mem_nil
  | cons e batch ih =>
    rcases List.mem_cons.1 h with rfl | h
    · exact ⟨e, List.mem_cons_self, uuid, le_rfl, by simp, rfl⟩
    obtain ⟨e', he', i, hle, hlt, rfl⟩ := ih h
    refine ⟨e', List.mem_cons_of_mem _ he', i, (Nat.le_succ uuid).trans hle, ?_, rfl⟩
    rw [List.length_cons, Nat.add_comm batch.length, ← Nat.add_assoc]
    exact hlt

/-- The copies have different identifiers. -/
theorem ScheduledArg.nodup_copyIds (batch : List Envelope) :
    (copyIds (ScheduledArg.ofBatch cfg now uuid batch)).Nodup := by
  induction batch generalizing uuid with
  | nil => exact List.nodup_nil
  | cons e batch ih =>
    cases hnext : (ScheduledArg.ofEnvelope cfg now uuid e).next with
    | none =>
      have : copyIds (ScheduledArg.ofBatch cfg now uuid (e :: batch)) =
          copyIds (ScheduledArg.ofBatch cfg now (uuid + 1) batch) := by
        simp [copyIds, ScheduledArg.ofBatch, hnext]
      rw [this]
      exact ih
    | some next =>
      obtain ⟨_, hchild⟩ := @ScheduledArg.next_ofEnvelope _ _ _ _ next.1 next.2 hnext
      have : copyIds (ScheduledArg.ofBatch cfg now uuid (e :: batch)) =
          uuid :: copyIds (ScheduledArg.ofBatch cfg now (uuid + 1) batch) := by
        simp [copyIds, ScheduledArg.ofBatch, hnext, hchild, PublishArgs.copy]
      rw [this]
      refine List.nodup_cons.2 ⟨fun hmem => ?_, ih⟩
      obtain ⟨a, ha, hcopy⟩ := List.mem_filterMap.1 hmem
      obtain ⟨next', hnext', hid⟩ := Option.map_eq_some_iff.1 hcopy
      obtain ⟨e', _, i, hle, _, rfl⟩ := ScheduledArg.mem_ofBatch ha
      obtain ⟨_, hchild'⟩ := @ScheduledArg.next_ofEnvelope _ _ _ _ next'.1 next'.2 hnext'
      rw [hchild'] at hid
      exact absurd (hid ▸ hle) (Nat.not_succ_le_self uuid)

end Batch

section Scheduled

variable {type : QueueType} {a : ScheduledArg} {db : Keyspace}
variable {args : List ScheduledArg}

theorem Placed.frame {a : PublishArgs} {c : Counter} {db' : Keyspace}
    (h : Placed type a db c db') : Frame a.id db db' := by
  cases h with
  | pending hstatus hdb => exact (Frame.refl a.id db).enqueueNew hdb
  | scheduled hstatus hts => exact (Frame.refl a.id db).zadd _ _

/-- Publishing touches only the message it publishes. -/
theorem publishMessage_frame (a : PublishArgs) (db : Keyspace) :
    Frame a.id db (publishMessage a db).db := by
  rcases @publishMessage_cases a db with ⟨_, h⟩ | ⟨_, type, c, db', _, _, _, hp, h⟩
  · rw [h]
    exact Frame.refl a.id db
  · rw [h]
    exact (((hp.frame.hincrby c 1).rpush .published).hset _).hincrby .messages 1

theorem takeScheduled_frame (a : ScheduledArg) (db : Keyspace) :
    Frame a.id db (takeScheduled a db) :=
  ((Frame.refl a.id db).zrem _).hincrby _ _

theorem deadLetterTaken_frame (a : ScheduledArg) (db : Keyspace) :
    Frame a.id db (deadLetterTaken a db) :=
  (((Frame.refl a.id db).rpush _).hincrby _ _).hset _

theorem publishTaken_frame {db' : Keyspace} (h : publishTaken type a db = some db') :
    Frame a.id db db' := by
  unfold publishTaken at h
  split at h
  · obtain ⟨db₁, hdb₁, rfl⟩ := Option.map_eq_some_iff.1 h
    exact (((Frame.refl a.id db).enqueueNew hdb₁).hincrby _ _).hset _
  · cases h
    exact deadLetterTaken_frame a db

theorem reschedule_frame (a : ScheduledArg) (nextAt : Millis) (db : Keyspace) :
    Frame a.id db (reschedule a nextAt db) :=
  ((Frame.refl a.id db).zadd _ _).hset _

theorem publishTaken_isSome (hfit : PriorityFits type a.priority) :
    ∃ db', publishTaken type a db = some db' := by
  unfold publishTaken
  split
  · obtain ⟨db₁, h⟩ := @Keyspace.enqueueNew_isSome db type a.group a.priority a.id hfit
    exact ⟨_, by rw [h, Option.map_some]⟩
  · exact ⟨_, rfl⟩

theorem settings_scheduledMove : (scheduledMove type db a).settings = db.settings := by
  unfold scheduledMove
  split
  · split
    · cases hp : publishTaken type a (takeScheduled a db) with
      | none => exact (takeScheduled_frame a db).settings
      | some db' => exact ((takeScheduled_frame a db).trans (publishTaken_frame hp)).settings
    · rfl
  · rename_i nextAt child _
    split
    · exact (publishMessage_frame child _).settings.trans (reschedule_frame a nextAt db).settings
    split
    · exact ((takeScheduled_frame a db).trans (deadLetterTaken_frame a _)).settings
    · rfl

/-- A run of `publish-scheduled` on a queue that accepts it is the sequence of its
moves: no copy is refused and no command fails. -/
theorem publishScheduledLoop_moves
    (htype : db.queueType? = some type) (hstate : stateRefusal db.operationalState = none)
    (hfit : ∀ a ∈ args, a.Fits type) (done : Nat) :
    (publishScheduledLoop type args done db).db = args.foldl (scheduledMove type) db := by
  induction args generalizing db done with
  | nil => rfl
  | cons a args ih =>
    have hmove : (scheduledMove type db a).settings = db.settings := settings_scheduledMove
    have htype' := (Keyspace.queueType?_of_settings hmove).trans htype
    have hstate' := (congrArg stateRefusal
      (Keyspace.operationalState_of_settings hmove)).trans hstate
    have hrest := ih htype' hstate' fun b hb => hfit b (List.mem_cons_of_mem _ hb)
    have hfa := hfit a List.mem_cons_self
    rw [List.foldl_cons]
    unfold publishScheduledLoop
    unfold scheduledMove at hrest ⊢
    cases hnext : a.next with
    | none =>
      simp only [hnext] at hrest
      dsimp only
      by_cases hmem : a.id ∈ db.zsets .scheduled
      · obtain ⟨db', hdb'⟩ := @publishTaken_isSome type a (takeScheduled a db) hfa.priority
        simp only [if_pos hmem, hdb', Option.getD_some] at hrest ⊢
        exact hrest (done + 1)
      · simp only [if_neg hmem] at hrest ⊢
        exact hrest done
    | some next =>
      obtain ⟨nextAt, child⟩ := next
      obtain ⟨hstatus, hgroup, hcfit⟩ := hfa.child nextAt child hnext
      simp only [hnext] at hrest
      dsimp only
      by_cases hg : db.groupExists a.group = true
      · have hframe := reschedule_frame a nextAt db
        have hok : (publishMessage child (reschedule a nextAt db)).isOk = true :=
          publishMessage_isOk
            ((Keyspace.queueType?_of_settings hframe.settings).trans htype)
            ((congrArg stateRefusal
              (Keyspace.operationalState_of_settings hframe.settings)).trans hstate)
            hcfit
            (by rw [hgroup, Keyspace.groupExists_of_settings hframe.settings]; exact hg)
            (absurd hstatus)
        simp only [if_pos hg] at hrest ⊢
        cases hpub : publishMessage child (reschedule a nextAt db) with
        | mk db' reply =>
          rw [hpub] at hok hrest
          cases reply with
          | error e => simp [Outcome.isOk] at hok
          | ok r =>
            cases r with
            | error r => simp [Outcome.isOk] at hok
            | ok u => exact hrest (done + 1)
      · simp only [if_neg hg] at hrest ⊢
        by_cases hmem : a.id ∈ db.zsets .scheduled
        · simp only [if_pos hmem] at hrest ⊢
          exact hrest (done + 1)
        · simp only [if_neg hmem] at hrest ⊢
          exact hrest (done + 1)

theorem publishScheduled_moves (htype : db.queueType? = some type)
    (hstate : stateRefusal db.operationalState = none) (hfit : ∀ a ∈ args, a.Fits type) :
    (publishScheduled args db).db = args.foldl (scheduledMove type) db := by
  unfold publishScheduled
  simp only [htype, hstate]
  exact publishScheduledLoop_moves htype hstate hfit 0

theorem publishScheduled_refused {r : Refusal}
    (hstate : stateRefusal db.operationalState = some r) : (publishScheduled args db).db = db := by
  unfold publishScheduled
  cases db.queueType? with
  | none => rfl
  | some type => simp [hstate]

@[elab_as_elim]
theorem publishScheduled_run {motive : Keyspace → Prop}
    (htype : db.queueType? = some type) (hfit : ∀ a ∈ args, a.Fits type) (hrefused : motive db)
    (hmoves : stateRefusal db.operationalState = none →
      motive (args.foldl (scheduledMove type) db)) : motive (publishScheduled args db).db := by
  cases hstate : stateRefusal db.operationalState with
  | some r => rwa [publishScheduled_refused hstate]
  | none =>
    rw [publishScheduled_moves htype hstate hfit]
    exact hmoves hstate

end Scheduled

/-! ## Copies of settled messages -/

/-- One message of `requeue-message`. -/
def copyMove (db : Keyspace) (a : RequeueCopyArg) : Keyspace :=
  if ((db.hgetall a.original).bind MessageHash.id).isSome && db.groupExists a.child.group then
    if (publishMessage a.child db).isOk then
      (publishMessage a.child db).db.hset a.original a.writeRequeued
    else db
  else db

section RequeueMessage

variable {a : RequeueCopyArg} {db : Keyspace}

/-- The script finds the original and the group of the copy. -/
def RequeueCopyArg.Present (a : RequeueCopyArg) (db : Keyspace) : Prop :=
  (((db.hgetall a.original).bind MessageHash.id).isSome && db.groupExists a.child.group) = true

theorem requeueMessageLoop_absent (habsent : ¬ a.Present db) :
    requeueMessageLoop [a] 0 db = .done db (.ok 0) :=
  if_neg habsent

theorem requeueMessageLoop_published (hpresent : a.Present db)
    (hok : (publishMessage a.child db).isOk = true) :
    requeueMessageLoop [a] 0 db =
      .done ((publishMessage a.child db).db.hset a.original a.writeRequeued) (.ok 1) := by
  unfold RequeueCopyArg.Present at hpresent
  rw [requeueMessageLoop, if_pos hpresent]
  generalize publishMessage a.child db = out at hok ⊢
  obtain ⟨db', reply⟩ := out
  cases reply with
  | error e => cases hok
  | ok r =>
    cases r with
    | error r => cases hok
    | ok u => rfl

/-- A copy that is not published leaves the keyspace as it is, and is not counted. -/
theorem requeueMessageLoop_refused (hpresent : a.Present db)
    (hok : (publishMessage a.child db).isOk = false) :
    (requeueMessageLoop [a] 0 db).db = db ∧
      ∀ n, (requeueMessageLoop [a] 0 db).reply ≠ .ok (.ok n) := by
  have hdb : (publishMessage a.child db).db = db := by
    rcases @publishMessage_cases a.child db with ⟨-, hdb⟩ | ⟨hok', -⟩
    · exact hdb
    · rw [hok] at hok'
      cases hok'
  unfold RequeueCopyArg.Present at hpresent
  rw [requeueMessageLoop, if_pos hpresent]
  generalize publishMessage a.child db = out at hok hdb ⊢
  obtain ⟨db', reply⟩ := out
  cases reply with
  | error e => exact ⟨hdb, fun n h => by cases h⟩
  | ok r =>
    cases r with
    | error r => exact ⟨hdb, fun n h => by cases h⟩
    | ok u => cases hok

/-- `requeue-message` for one message, as its only caller uses it. -/
theorem requeueMessage_moves (a : RequeueCopyArg) (db : Keyspace) (hq : db.queue.isSome) :
    (requeueMessage [a] db).db = copyMove db a := by
  have hnone : db.queue.isNone = false := by simpa using hq
  rw [requeueMessage, if_neg (by simp [hnone]), copyMove]
  split
  case isTrue hpresent =>
    split
    case isTrue hok => rw [requeueMessageLoop_published hpresent hok]; rfl
    case isFalse hok => exact (requeueMessageLoop_refused hpresent (by simpa using hok)).1
  case isFalse habsent => rw [requeueMessageLoop_absent habsent]; rfl

end RequeueMessage

/-! ## Deletions -/

/-- The container of the messages with a status, as the deletion script sees it. -/
def Status.home (type : Option QueueType) (group : Option GroupId) : Status → Option Slot
  | .scheduled => some (.zset .scheduled)
  | .pending => type.map fun type => pendingSlot type group
  | .acknowledged => some (.list .acknowledged)
  | .deadLettered => some (.list .deadLetter)
  | .unackRequeuing => some (.list .requeued)
  | .unackDelaying => some (.zset .delayed)
  | .new | .processing => none

/-- The counter that holds the messages of a status. -/
def counterOf : Status → Option Counter
  | .new => none
  | .pending => some .pending
  | .processing => some .processing
  | .scheduled => some .scheduled
  | .acknowledged => some .acknowledged
  | .unackRequeuing => some .requeued
  | .unackDelaying => some .delayed
  | .deadLettered => some .deadLettered

/-- Take an identifier out of a key. -/
def Keyspace.removeAt (db : Keyspace) (m : MessageId) : Option Slot → Keyspace
  | none => db
  | some (.list k) => db.lrem k m
  | some (.zset k) => db.zrem k m

/-- One message of `delete-message`. -/
def deleteMove (type : Option QueueType) (group : Option GroupId) (db : Keyspace)
    (id : MessageId) : Keyspace :=
  match db.status id with
  | none | some .processing => db
  | some st =>
      match removeFromContainer type group id db st with
      | .error _ => db
      | .ok (counter, db') => eraseMessage id counter db'

section Delete

variable {type : Option QueueType} {group : Option GroupId} {db : Keyspace} {id : MessageId}
variable {counter : Option Counter} {db' : Keyspace} {st : Status}

section

variable (h : removeFromContainer type group id db st = .ok (counter, db'))

include h

/-- The script takes the identifier out of the container of the status, unless the message is
delayed, and decrements the counter of the status. -/
theorem removeFromContainer_cases
    :
    (st ≠ .processing → counter = counterOf st) ∧
      (st = .unackDelaying ∧ (db.zsets .delayed).entries = [] ∧ db' = db ∨
        st ≠ .unackDelaying ∧ db' = db.removeAt id (st.home type group)) := by
  cases st with
  | processing =>
    cases h
    exact ⟨absurd rfl, .inr ⟨by decide, rfl⟩⟩
  | new | acknowledged | deadLettered | scheduled | unackRequeuing =>
    cases h
    exact ⟨fun _ => rfl, .inr ⟨by decide, rfl⟩⟩
  | pending =>
    cases h
    refine ⟨fun _ => rfl, .inr ⟨by decide, ?_⟩⟩
    cases type with
    | none => rfl
    | some type => cases type <;> rfl
  | unackDelaying =>
    simp only [removeFromContainer, Keyspace.lremOnZset] at h
    split at h
    · rename_i hempty
      cases h
      exact ⟨fun _ => rfl, .inl ⟨rfl, hempty, rfl⟩⟩
    · cases h

theorem removeFromContainer_frame
    : Frame id db db' := by
  obtain ⟨-, ⟨-, -, rfl⟩ | ⟨-, rfl⟩⟩ := removeFromContainer_cases h
  · exact .refl id _
  · rcases st.home type group with _ | k | k
    exacts [.refl id db, (Frame.refl id db).lrem k, (Frame.refl id db).zrem k]

theorem queue_removeFromContainer
    : db'.queue = db.queue := by
  obtain ⟨-, ⟨-, -, rfl⟩ | ⟨-, rfl⟩⟩ := removeFromContainer_cases h
  · rfl
  · rcases st.home type group with _ | _ | _ <;> rfl

end

theorem eraseMessage_frame (id : MessageId) (counter : Option Counter) (db : Keyspace) :
    Frame id db (eraseMessage id counter db) := by
  have hbase := (((Frame.refl id db).del).lrem .published).hincrby .messages (-1)
  unfold eraseMessage
  cases counter with
  | none => exact hbase
  | some c => exact hbase.hincrby c (-1)

theorem deleteMove_frame (type : Option QueueType) (group : Option GroupId) (db : Keyspace)
    (id : MessageId) : Frame id db (deleteMove type group db id) := by
  unfold deleteMove
  split
  · exact Frame.refl id db
  · exact Frame.refl id db
  split
  · exact Frame.refl id db
  · rename_i hremove
    exact (removeFromContainer_frame hremove).trans (eraseMessage_frame id _ _)

/-- A run of the deletion loop is the sequence of the moves of its messages, up to
the first one whose removal Redis refuses. -/
theorem deleteMessageLoop_moves (ids : List MessageId) (stats : DeleteStats) (db : Keyspace) :
    ∃ done, done <+: ids ∧
      (deleteMessageLoop type group ids stats db).db = done.foldl (deleteMove type group) db := by
  induction ids generalizing stats db with
  | nil => exact ⟨[], List.prefix_refl _, rfl⟩
  | cons id ids ih =>
    have hcons : ∀ stats', (deleteMessageLoop type group (id :: ids) stats db) =
        deleteMessageLoop type group ids stats' (deleteMove type group db id) →
        ∃ done, done <+: id :: ids ∧
          (deleteMessageLoop type group (id :: ids) stats db).db =
            done.foldl (deleteMove type group) db := by
      intro stats' h
      obtain ⟨done, hpre, hdone⟩ := ih stats' (deleteMove type group db id)
      exact ⟨id :: done, List.cons_prefix_cons.2 ⟨rfl, hpre⟩, by rw [h, hdone]; rfl⟩
    cases hst : db.status id with
    | none =>
      refine hcons { stats with
        processed := stats.processed + 1, notFound := stats.notFound + 1 } ?_
      simp only [deleteMessageLoop, deleteMove, hst]
    | some st =>
      by_cases hproc : st = .processing
      · subst hproc
        refine hcons { stats with
          processed := stats.processed + 1, inProcess := stats.inProcess + 1 } ?_
        simp only [deleteMessageLoop, deleteMove, hst]
      · cases hremove : removeFromContainer type group id db st with
        | error e =>
          refine ⟨[], List.nil_prefix, ?_⟩
          unfold deleteMessageLoop
          cases st <;> simp_all
        | ok r =>
          obtain ⟨counter, db'⟩ := r
          refine hcons { stats with
            processed := stats.processed + 1, success := stats.success + 1 } ?_
          unfold deleteMove
          cases st <;> simp_all [deleteMessageLoop]

/-- A run of `delete-message`, aborted or not, is a sequence of moves of the
messages it names. -/
theorem deleteMessage_moves (lock : Option LockId) (ids : List MessageId) (db : Keyspace) :
    ∃ done, done <+: ids ∧
      (deleteMessage group lock ids db).db = done.foldl (deleteMove db.queueType? group) db := by
  have hnil : ∃ done, done <+: ids ∧ db = done.foldl (deleteMove db.queueType? group) db :=
    ⟨[], List.nil_prefix, rfl⟩
  unfold deleteMessage
  split
  · exact hnil
  split
  · exact hnil
  split
  · exact hnil
  obtain ⟨done, hpre, hdone⟩ :=
    @deleteMessageLoop_moves db.queueType? group ids {} db
  refine ⟨done, hpre, ?_⟩
  cases hloop : deleteMessageLoop db.queueType? group ids {} db with
  | mk db' reply =>
    rw [hloop] at hdone
    cases reply <;> exact hdone

end Delete

end RedisSmq
