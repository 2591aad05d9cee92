import RedisSmq.Message.Document
import RedisSmq.Moves.Publish

/-!
# Requeuing a message by its identifier

`RequeueMessage` loads a settled message, clones it without its schedule, and runs the
script `requeue-message`, which publishes the clone and marks the original. What the call
does in Go comes first here: the checks before the script, the document it stores for the
clone, and how it reads the reply. Other clients may run between the load and the script,
so the keyspace that is read and the one that the script finds are two arguments.
-/

namespace RedisSmq

/-- Why `RequeueMessage` fails. -/
inductive RequeueError where
  | notFound
  | undecodable
  | notRequeuable
  | noDestination
  | script (e : RedisError)
  | refused (r : Refusal)
  deriving DecidableEq, Repr

def getMessage (decode : MessageHash → Option Envelope) (db : Keyspace) (id : MessageId) :
    Except RequeueError Envelope :=
  match db.hgetall id with
  | none => .error .notFound
  | some h =>
      match decode h with
      | none => .error .undecodable
      | some e => .ok e

/-- A call of `RequeueMessage`: the message, the queue that its document names, when it is
decoded and when it is cloned, and the identifiers drawn for the decoded state and for the
clone. -/
structure RequeueCall where
  id : MessageId
  destinationQueue : Option QueueParams
  readAt : Nanos
  stateId : MessageId
  now : Nanos
  copyId : MessageId

namespace RequeueCall

variable (c : RequeueCall) (cfg : Config)

/-- The clone, with what the caller sets on it. -/
def clone (original : Envelope) : Envelope :=
  let clone := original.cloneUnscheduled cfg.defaults c.now c.copyId
  { clone with
    state :=
      { clone.state with
        publishedAt := some (toMillis c.now)
        requeuedMessageParentId := some c.id } }

/-- The document that is stored for the clone. -/
def document (original : Envelope) : Document :=
  ((c.clone cfg original).toTransferable c.destinationQueue).encode

/-- The arguments of the script. It stores the document, and takes the parent from the
hash of the original. -/
def arg (original : Envelope) : RequeueCopyArg :=
  let child := PublishArgs.copy (c.clone cfg original) (toMillis c.now) none (some original.id)
  { original := c.id
    child :=
      { child with
        hash :=
          { child.hash with
            message := (c.document cfg original).decodeParams.map AddressedParams.params } }
    requeuedAt := original.state.requeuedAt.getD (toMillis c.now)
    lastRequeuedAt := toMillis c.now }

/-- `RequeueMessage`: `read` is the keyspace at the load, `db` the one the script finds. -/
def run (read db : Keyspace) : Keyspace × Except RequeueError MessageId :=
  match getMessage (Codec.decodeEnvelope cfg.defaults c.stateId c.readAt) read c.id with
  | .error e => (db, .error e)
  | .ok original =>
      if original.status.isRequeuable = false then (db, .error .notRequeuable)
      else if c.destinationQueue.isNone then (db, .error .noDestination)
      else
        match requeueMessage [c.arg cfg original] db with
        | ⟨db, .error e⟩ => (db, .error (.script e))
        | ⟨db, .ok (.error r)⟩ => (db, .error (.refused r))
        | ⟨db, .ok (.ok 0)⟩ => (db, .error .notFound)
        | ⟨db, .ok (.ok (_ + 1))⟩ => (db, .ok c.copyId)

end RequeueCall

/-! ## The script -/

section Script

variable {a : RequeueCopyArg} {db : Keyspace}

/-- The script has published the copy and marked the original. -/
structure Copied (a : RequeueCopyArg) (db db' : Keyspace) : Prop where
  original : ∃ h, db.hgetall a.original = some h ∧ h.id.isSome = true
  stored : ∃ type container placed, db.queueType? = some type ∧
    Placed type a.child db container placed ∧
    db' = (storePublished a.child container placed).hset a.original a.writeRequeued

theorem copied_of_isOk (hpresent : a.Present db) (hok : (publishMessage a.child db).isOk = true) :
    Copied a db ((publishMessage a.child db).db.hset a.original a.writeRequeued) := by
  obtain ⟨hid, -⟩ := Bool.and_eq_true_iff.1 hpresent
  obtain ⟨id, hbind⟩ := Option.isSome_iff_exists.1 hid
  obtain ⟨h, hget, hsome⟩ := Option.bind_eq_some_iff.1 hbind
  refine ⟨⟨h, hget, by rw [hsome]; rfl⟩, ?_⟩
  rcases @publishMessage_cases a.child db with
    ⟨hrefused, -⟩ | ⟨-, type, container, placed, htype, -, -, hplaced, hdb⟩
  · rw [hok] at hrefused
    cases hrefused
  · exact ⟨type, container, placed, htype, hplaced, by rw [hdb]⟩

/-- The script replies one after it has copied the message. With any other reply it has
left the keyspace as it was. -/
theorem requeueMessage_cases :
    ((requeueMessage [a] db).db = db ∧
        ∀ n, (requeueMessage [a] db).reply ≠ .ok (.ok (n + 1))) ∨
      ((requeueMessage [a] db).reply = .ok (.ok 1) ∧ Copied a db (requeueMessage [a] db).db) := by
  unfold requeueMessage
  split
  · exact .inl ⟨rfl, fun n h => by cases h⟩
  by_cases hpresent : a.Present db
  · cases hok : (publishMessage a.child db).isOk with
    | false =>
      obtain ⟨hdb, hreply⟩ := requeueMessageLoop_refused hpresent hok
      exact .inl ⟨hdb, fun n => hreply (n + 1)⟩
    | true =>
      rw [requeueMessageLoop_published hpresent hok]
      exact .inr ⟨rfl, copied_of_isOk hpresent hok⟩
  · rw [requeueMessageLoop_absent hpresent]
    exact .inl ⟨rfl, fun n h => by cases h⟩

/-- Where a new message enters a pending list, whose last element is popped next. -/
def QueueType.enter : QueueType → MessageId → List MessageId → List MessageId
  | .lifo, id, l => l ++ [id]
  | _, id, l => id :: l

theorem hgetall_storePublished_self (a : PublishArgs) (container : Counter) (db : Keyspace) :
    (storePublished a container db).hgetall a.id =
      some (a.write ((db.hgetall a.id).getD {})) :=
  Keyspace.hgetall_hset_self _ _ _

theorem hgetall_storePublished_ne {a : PublishArgs} {m : MessageId} (container : Counter)
    (db : Keyspace) (h : m ≠ a.id) : (storePublished a container db).hgetall m = db.hgetall m :=
  Keyspace.hgetall_hset_ne _ _ _ _ h

/-- A new message enters its pending container, and no other key changes. -/
theorem Keyspace.enqueueNew_spec {type : QueueType} {db' : Keyspace} {group : Option GroupId}
    {priority : Option Nat} {id : MessageId} (h : db.enqueueNew type group priority id = some db') :
    (∀ k, db'.lists k =
        if Slot.list k = pendingSlot type group then type.enter id (db.lists k)
        else db.lists k) ∧
      (∀ k, db'.zsets k =
        if Slot.zset k = pendingSlot type group then (db.zsets k).add (priority.getD 0) id
        else db.zsets k) ∧
      db'.queue = db.queue ∧ db'.messages = db.messages ∧ db'.history = db.history ∧
      db'.groups = db.groups := by
  cases type with
  | fifo =>
    cases h
    refine ⟨fun k => ?_, fun k => ?_, rfl, rfl, rfl, rfl⟩
    · by_cases hk : k = .pending group
      · subst hk
        simp [Keyspace.lpush, Keyspace.setList, pendingSlot, QueueType.enter]
      · simp [Keyspace.lpush, Keyspace.setList, pendingSlot, hk]
    · simp [Keyspace.lpush, Keyspace.setList, pendingSlot]
  | lifo =>
    cases h
    refine ⟨fun k => ?_, fun k => ?_, rfl, rfl, rfl, rfl⟩
    · by_cases hk : k = .pending group
      · subst hk
        simp [Keyspace.rpush, Keyspace.setList, pendingSlot, QueueType.enter]
      · simp [Keyspace.rpush, Keyspace.setList, pendingSlot, hk]
    · simp [Keyspace.rpush, Keyspace.setList, pendingSlot]
  | priority =>
    obtain ⟨p, rfl, rfl⟩ := Option.map_eq_some_iff.1 h
    refine ⟨fun k => ?_, fun k => ?_, rfl, rfl, rfl, rfl⟩
    · simp [Keyspace.zadd, Keyspace.setZset, pendingSlot]
    by_cases hk : k = .priority group
    · subst hk
      simp [Keyspace.zadd, Keyspace.setZset, pendingSlot]
    · simp [Keyspace.zadd, Keyspace.setZset, pendingSlot, hk]

namespace Copied

variable {db' : Keyspace} {type : QueueType}

/-- The original and the copy are two messages. -/
theorem copy_ne_original (h : Copied a db db') (hnew : db.hgetall a.child.id = none) :
    a.child.id ≠ a.original := by
  obtain ⟨hash, hget, -⟩ := h.original
  intro heq
  rw [← heq, hnew] at hget
  cases hget

/-- A copy that is published as pending has been put into its pending container. -/
theorem placed (h : Copied a db db') (htype : db.queueType? = some type)
    (hstatus : a.child.status = .pending) :
    ∃ placed, db.enqueueNew type a.child.group a.child.priority a.child.id = some placed ∧
      db' = (storePublished a.child .pending placed).hset a.original a.writeRequeued := by
  obtain ⟨type', container, placed, htype', hplaced, hdb⟩ := h.stored
  obtain rfl : type' = type := Option.some.inj (htype'.symm.trans htype)
  cases hplaced with
  | scheduled hscheduled hts => exact absurd hstatus hscheduled
  | pending _ hplaced => exact ⟨placed, hplaced, hdb⟩

variable (h : Copied a db db') (htype : db.queueType? = some type)
variable (hstatus : a.child.status = .pending) (hnew : db.hgetall a.child.id = none)

include h htype hstatus

theorem hgetall_ne {m : MessageId} (hcopy : m ≠ a.child.id) (horiginal : m ≠ a.original) :
    db'.hgetall m = db.hgetall m := by
  obtain ⟨placed, hplaced, rfl⟩ := h.placed htype hstatus
  obtain ⟨-, -, -, hmessages, -⟩ := Keyspace.enqueueNew_spec hplaced
  rw [Keyspace.hgetall_hset_ne _ _ _ _ horiginal, hgetall_storePublished_ne _ _ hcopy,
    Keyspace.hgetall, hmessages]
  rfl

theorem lists_eq (k : ListKey) :
    db'.lists k =
      if k = .published then db.lists k ++ [a.child.id]
      else if Slot.list k = pendingSlot type a.child.group then
        type.enter a.child.id (db.lists k)
      else db.lists k := by
  obtain ⟨placed, hplaced, rfl⟩ := h.placed htype hstatus
  obtain ⟨hlists, -⟩ := Keyspace.enqueueNew_spec hplaced
  have hpublished : Slot.list .published ≠ pendingSlot type a.child.group := by
    cases type <;> simp [pendingSlot]
  change Function.update placed.lists .published (placed.lists .published ++ [a.child.id]) k = _
  by_cases hk : k = .published
  · subst hk
    rw [Function.update_self, if_pos rfl, hlists, if_neg hpublished]
  · rw [Function.update_of_ne hk, if_neg hk]
    exact hlists k

theorem zsets_eq (k : ZsetKey) :
    db'.zsets k =
      if Slot.zset k = pendingSlot type a.child.group then
        (db.zsets k).add (a.child.priority.getD 0) a.child.id
      else db.zsets k := by
  obtain ⟨placed, hplaced, rfl⟩ := h.placed htype hstatus
  obtain ⟨-, hzsets, -⟩ := Keyspace.enqueueNew_spec hplaced
  exact hzsets k

theorem queue_eq :
    ∃ q, db.queue = some q ∧ db'.queue = some
      { q with
        count := fun k => if k = .pending ∨ k = .messages then q.count k + 1 else q.count k } := by
  obtain ⟨q, hq⟩ := Option.isSome_iff_exists.1 (Keyspace.isSome_queue_of_queueType? htype)
  obtain ⟨placed, hplaced, rfl⟩ := h.placed htype hstatus
  obtain ⟨-, -, hqueue, -⟩ := Keyspace.enqueueNew_spec hplaced
  refine ⟨q, hq, ?_⟩
  have hcount : ∀ k, ((placed.hincrby .pending 1).hincrby .messages 1).counter k =
      if k = .pending ∨ k = .messages then q.count k + 1 else q.count k := by
    intro k
    have hk : placed.counter k = q.count k := by rw [Keyspace.counter, hqueue, hq]; rfl
    rw [Keyspace.counter_hincrby, Keyspace.counter_hincrby, hk]
    cases k <;> simp
  change some { placed.queue.getD {} with
    count := ((placed.hincrby .pending 1).hincrby .messages 1).counter } = _
  rw [hqueue, hq, funext hcount]
  rfl

theorem history_eq : db'.history = db.history := by
  obtain ⟨placed, hplaced, rfl⟩ := h.placed htype hstatus
  obtain ⟨-, -, -, -, hhistory, -⟩ := Keyspace.enqueueNew_spec hplaced
  exact hhistory

theorem groups_eq : db'.groups = db.groups := by
  obtain ⟨placed, hplaced, rfl⟩ := h.placed htype hstatus
  obtain ⟨-, -, -, -, -, hgroups⟩ := Keyspace.enqueueNew_spec hplaced
  exact hgroups

include hnew

theorem hgetall_copy : db'.hgetall a.child.id = some (a.child.write {}) := by
  have hne := h.copy_ne_original hnew
  obtain ⟨placed, hplaced, rfl⟩ := h.placed htype hstatus
  obtain ⟨-, -, -, hmessages, -⟩ := Keyspace.enqueueNew_spec hplaced
  rw [Keyspace.hgetall_hset_ne _ _ _ _ hne, hgetall_storePublished_self, Keyspace.hgetall,
    hmessages]
  change some (a.child.write ((db.hgetall a.child.id).getD {})) = _
  rw [hnew]
  rfl

theorem hgetall_original :
    ∃ hash, db.hgetall a.original = some hash ∧
      db'.hgetall a.original = some (a.writeRequeued hash) := by
  have hne := h.copy_ne_original hnew
  obtain ⟨hash, hget, -⟩ := h.original
  obtain ⟨placed, hplaced, rfl⟩ := h.placed htype hstatus
  obtain ⟨-, -, -, hmessages, -⟩ := Keyspace.enqueueNew_spec hplaced
  refine ⟨hash, hget, ?_⟩
  rw [Keyspace.hgetall_hset_self, hgetall_storePublished_ne _ _ hne.symm, Keyspace.hgetall,
    hmessages]
  change some (a.writeRequeued ((db.hgetall a.original).getD {})) = _
  rw [hget]
  rfl

end Copied

end Script

/-! ## The call -/

namespace RequeueCall

variable {c : RequeueCall} {cfg : Config} {read db : Keyspace} {original : Envelope}

theorem getMessage_eq_ok {decode : MessageHash → Option Envelope} {id : MessageId} {e : Envelope}
    (h : getMessage decode db id = .ok e) :
    ∃ hash, db.hgetall id = some hash ∧ decode hash = some e := by
  unfold getMessage at h
  split at h
  · cases h
  rename_i hash hget
  split at h
  · cases h
  rename_i e' hdec
  cases h
  exact ⟨hash, hget, hdec⟩

/-- The longer document of the clone is read as the parameters of the clone, with the
destination queue of the original. -/
theorem decodeParams_document :
    (c.document cfg original).decodeParams =
      some ⟨(c.clone cfg original).toParams, c.destinationQueue⟩ :=
  Document.decodeParams_encode_transferable _

/-- The script gets the arguments that it gets from the workers of the system. -/
theorem arg_eq (hid : original.id = c.id) :
    c.arg cfg original = RequeueCopyArg.ofEnvelope cfg c.now c.copyId original := by
  unfold arg RequeueCopyArg.ofEnvelope
  rw [decodeParams_document, hid]
  rfl

/-- A call fails and leaves the keyspace as it is, or the script has made the copy. -/
theorem run_cases :
    (∃ err, c.run cfg read db = (db, .error err)) ∨
      ∃ original db',
        getMessage (Codec.decodeEnvelope cfg.defaults c.stateId c.readAt) read c.id =
          .ok original ∧
        original.status.isRequeuable = true ∧ c.destinationQueue.isSome = true ∧
        c.run cfg read db = (db', .ok c.copyId) ∧ Copied (c.arg cfg original) db db' := by
  unfold run
  split
  case h_1 e hload => exact .inl ⟨e, rfl⟩
  case h_2 original hload =>
    split
    · exact .inl ⟨_, rfl⟩
    rename_i hstatus
    split
    · exact .inl ⟨_, rfl⟩
    rename_i hqueue
    rcases @requeueMessage_cases (c.arg cfg original) db with ⟨hdb, hreply⟩ | ⟨hreply, hcopied⟩
    · refine .inl ?_
      generalize requeueMessage [c.arg cfg original] db = out at hdb hreply ⊢
      obtain ⟨db', reply⟩ := out
      subst hdb
      cases reply with
      | error e => exact ⟨_, rfl⟩
      | ok r =>
        cases r with
        | error r => exact ⟨_, rfl⟩
        | ok n =>
          cases n with
          | zero => exact ⟨_, rfl⟩
          | succ n => exact absurd rfl (hreply n)
    · refine .inr ⟨original, _, hload, by simpa using hstatus,
        by simpa [Option.isSome_iff_ne_none] using hqueue, ?_, hcopied⟩
      generalize requeueMessage [c.arg cfg original] db = out at hreply ⊢
      obtain ⟨db', reply⟩ := out
      subst hreply
      rfl

end RequeueCall

end RedisSmq
