import RedisSmq.Admin.Requeue
import RedisSmq.Guarantees.Deletion

/-!
# A requeued message is a copy

A call of `RequeueMessage` that fails has changed nothing. One that succeeds has added a
copy of the message, without its schedule and its past, and has marked the original;
every other key holds what it held before. The call reads the message at one time and
runs its script at another, and both may lie anywhere in a run.
-/

namespace RedisSmq

/-- What is decoded of the copy, against what was decoded of the original. -/
structure RequeuedAs (original copy : Envelope) : Prop where
  body : copy.message.body = original.message.body
  priority : copy.message.priority = original.message.priority
  ttl : copy.message.ttl = original.message.ttl
  retryThreshold : copy.message.retryThreshold = original.message.retryThreshold
  retryDelay : copy.message.retryDelay = original.message.retryDelay
  consumeTimeout : copy.message.consumeTimeout = original.message.consumeTimeout
  group : copy.consumerGroupId = original.consumerGroupId
  status : copy.status = .pending
  unscheduled : copy.isSchedulable = false ∧ copy.message.scheduledDelay = none ∧
    copy.message.scheduledRepeatPeriod = none ∧ copy.state.scheduledAt = none
  attempts : copy.state.attempts = 0
  parent : copy.state.requeuedMessageParentId = some original.id

/-- All that a successful call changes: every key after it, in terms of the keys before. -/
structure RequeueChanges (type : QueueType) (cfg : Config) (c : RequeueCall)
    (original : Envelope) (db db' : Keyspace) : Prop where
  /-- The hash of the copy is new. Its document names the destination queue, and whoever
  decodes the hash gets the copy. -/
  copy : db.hgetall c.copyId = none ∧ ∃ h p, db'.hgetall c.copyId = some h ∧
    h.message = some p ∧ (c.document cfg original).decodeParams = some ⟨p, c.destinationQueue⟩ ∧
    ∀ opts uuid t, opts.ttl = 0 → ∃ copy, Codec.decodeEnvelope opts uuid t h = some copy ∧
      copy.id = c.copyId ∧ RequeuedAs original copy
  marked : ∃ h, db.hgetall c.id = some h ∧ db'.hgetall c.id = some
    { h with
      requeuedAt := some (original.state.requeuedAt.getD (toMillis c.now))
      lastRequeuedAt := some (toMillis c.now)
      requeueCount := some (h.requeueCount.getD 0 + 1) }
  otherHashes : ∀ m, m ≠ c.copyId → m ≠ c.id → db'.hgetall m = db.hgetall m
  lists : ∀ k, db'.lists k =
    if k = .published then db.lists k ++ [c.copyId]
    else if Slot.list k = pendingSlot type original.consumerGroupId then
      type.enter c.copyId (db.lists k)
    else db.lists k
  zsets : ∀ k, db'.zsets k =
    if Slot.zset k = pendingSlot type original.consumerGroupId then
      (db.zsets k).add (original.message.priority.getD 0) c.copyId
    else db.zsets k
  queue : ∃ q, db.queue = some q ∧ db'.queue = some
    { q with
      count := fun k => if k = .pending ∨ k = .messages then q.count k + 1 else q.count k }
  history : db'.history = db.history
  groups : db'.groups = db.groups

section

variable {type : QueueType} {cfg : Config} {c : RequeueCall} {original : Envelope}
variable {db db' : Keyspace}

/-- Whole milliseconds survive the way through a document. -/
theorem ofMillis_toMillis_ofMillis (t : Millis) : ofMillis (toMillis (ofMillis t)) = ofMillis t :=
  congrArg ofMillis (Codec.toMillis_ofMillis t)

/-- A decoded time to live is stored and decoded again. -/
theorem rebuildMessage_ttl {opts opts' : ConsumeOptions} (h : opts.ttl = 0) (h' : opts'.ttl = 0)
    (t : Nanos) (p : Params) :
    (if 0 < toMillis (Codec.rebuildMessage opts t p).ttl then
        ofMillis (toMillis (Codec.rebuildMessage opts t p).ttl)
      else ofMillis opts'.ttl) = (Codec.rebuildMessage opts t p).ttl := by
  have httl : (Codec.rebuildMessage opts t p).ttl = ofMillis p.ttl := by
    change (if 0 < p.ttl then ofMillis p.ttl else ofMillis opts.ttl) = ofMillis p.ttl
    split
    case isTrue => rfl
    case isFalse hzero => rw [h, Nat.eq_zero_of_not_pos hzero]
  rw [httl, Codec.toMillis_ofMillis, h']
  split
  case isTrue => rfl
  case isFalse hzero => rw [Nat.eq_zero_of_not_pos hzero]

/-- What the script writes for the copy decodes to a copy of the original. -/
theorem requeuedAs_decode {p : Params} {now t : Nanos} {copyId uuid : MessageId}
    {opts : ConsumeOptions} (httl : cfg.defaults.ttl = 0) (hopts : opts.ttl = 0)
    (horiginal : original.message = Codec.rebuildMessage cfg.defaults t p) (t' : Nanos) :
    ∃ copy, Codec.decodeEnvelope opts uuid t'
        (RequeueCopyArg.ofEnvelope cfg now copyId original).child.hash = some copy ∧
      copy.id = copyId ∧ RequeuedAs original copy := by
  refine ⟨_, rfl, rfl, ?_⟩
  exact {
    body := rfl
    priority := rfl
    ttl := by
      have h := rebuildMessage_ttl httl hopts t p
      rw [← horiginal] at h
      exact h
    retryThreshold := rfl
    retryDelay := by
      change ofMillis (toMillis original.message.retryDelay) = original.message.retryDelay
      rw [horiginal]
      exact ofMillis_toMillis_ofMillis p.retryDelay
    consumeTimeout := by
      change ofMillis (toMillis original.message.consumeTimeout) = original.message.consumeTimeout
      rw [horiginal]
      exact ofMillis_toMillis_ofMillis p.consumeTimeout
    group := rfl
    status := rfl
    unscheduled := ⟨rfl, rfl, rfl, rfl⟩
    attempts := rfl
    parent := rfl }

/-- The script that made the copy changed nothing else. -/
theorem Copied.changes {p : Params}
    (h : Copied (RequeueCopyArg.ofEnvelope cfg c.now c.copyId original) db db')
    (hid : original.id = c.id) (htype : db.queueType? = some type)
    (hnew : db.hgetall c.copyId = none) (httl : cfg.defaults.ttl = 0)
    (horiginal : original.message = Codec.rebuildMessage cfg.defaults c.readAt p) :
    RequeueChanges type cfg c original db db' where
  copy := by
    refine ⟨hnew, _, (c.clone cfg original).toParams, h.hgetall_copy htype rfl hnew, rfl,
      RequeueCall.decodeParams_document, ?_⟩
    intro opts uuid t hopts
    exact requeuedAs_decode httl hopts horiginal t
  marked := by
    rw [← hid]
    exact h.hgetall_original htype rfl hnew
  otherHashes := by
    rw [← hid]
    intro m hcopy hm
    exact h.hgetall_ne htype rfl hcopy hm
  lists := h.lists_eq htype rfl
  zsets := h.zsets_eq htype rfl
  queue := h.queue_eq htype rfl
  history := h.history_eq htype rfl
  groups := h.groups_eq htype rfl

end

/-- In every run and for every message, `RequeueMessage` fails and changes nothing, or it
makes a copy of the message and changes nothing else. The message is read in the state `s`,
and the script runs in the state `s'`. -/
theorem requeue_is_pure_copy (cfg₀ : Config) (type : QueueType) (groups : List GroupId)
    (now₀ : Nanos) {as as' : List Action} {s s' : System}
    (hrun : (System.created cfg₀ type groups now₀).Runs as s) (hrun' : s.Runs as' s')
    (cfg : Config) (httl : cfg.defaults.ttl = 0) (c : RequeueCall)
    (hfresh : s'.nextId ≤ c.copyId) :
    (∃ err, c.run cfg s.db s'.db = (s'.db, .error err)) ∨
      ∃ original db',
        getMessage (Codec.decodeEnvelope cfg.defaults c.stateId c.readAt) s.db c.id =
          .ok original ∧
        original.id = c.id ∧ original.status.isRequeuable = true ∧
        c.destinationQueue.isSome = true ∧
        c.run cfg s.db s'.db = (db', .ok c.copyId) ∧
        RequeueChanges type cfg c original s'.db db' := by
  have hs : Sane type s := (Sane.created cfg₀ type groups now₀).runs hrun
  have hs' : Sane type s' := hs.runs hrun'
  rcases RequeueCall.run_cases with hfails | ⟨original, db', hload, hstatus, hqueue, hok, hcopied⟩
  · exact .inl hfails
  refine .inr ⟨original, db', hload, ?_⟩
  obtain ⟨h, hget, hdec⟩ := RequeueCall.getMessage_eq_ok hload
  obtain ⟨p, -, hmessage, -⟩ := Codec.decodeEnvelope_message hdec
  have hcore : (h.id, h.message) = s.db.core c.id := by simp [Keyspace.core, hget]
  obtain ⟨hid, -⟩ := hs.decode hcore hdec
  have hnew : s'.db.hgetall c.copyId = none := (hs'.blank _ (hs'.fresh _ hfresh)).hash
  rw [RequeueCall.arg_eq hid] at hcopied
  exact ⟨hid, hstatus, hqueue, hok, hcopied.changes hid hs'.type_eq hnew httl hmessage⟩

/-- A message is delivered and acknowledged. -/
def acknowledgedOnce : List Action :=
  [.produce promptMessage none, .pop 7 none, .checkout 7 0 none,
    .consume 7 (.early promptMessage 0 .processing 1) 1,
    .finish 7 (.early promptMessage 0 .processing 1) 1 0 true, .acknowledge 7 [(0, 1)] 0]

/-- The acknowledged message is requeued. -/
def requeueFirst : RequeueCall where
  id := 0
  destinationQueue := some ordersQueue
  readAt := 0
  stateId := 8
  now := 5000000
  copyId := 9

theorem requeue_is_pure_copy_acknowledgedOnce :
    ∃ s s', (System.created {} .fifo [] 0).Runs acknowledgedOnce s ∧
      s.Runs [.produce promptMessage none] s' ∧ s'.nextId ≤ requeueFirst.copyId ∧
      (requeueFirst.run {} s.db s'.db).2 = .ok 9 ∧
      ((∃ err, requeueFirst.run {} s.db s'.db = (s'.db, .error err)) ∨
        ∃ original db',
          getMessage (Codec.decodeEnvelope defaultConsumeOptions 8 0) s.db 0 = .ok original ∧
          original.id = 0 ∧ original.status.isRequeuable = true ∧
          requeueFirst.destinationQueue.isSome = true ∧
          requeueFirst.run {} s.db s'.db = (db', .ok 9) ∧
          RequeueChanges .fifo {} requeueFirst original s'.db db') :=
  ⟨_, _, rfl, rfl, by decide, rfl, @requeue_is_pure_copy {} .fifo [] 0 acknowledgedOnce
    [.produce promptMessage none] _ _ rfl rfl {} rfl requeueFirst (by decide)⟩

end RedisSmq
