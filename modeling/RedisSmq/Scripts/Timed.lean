import RedisSmq.Admin.Delete
import RedisSmq.Data.Batch
import RedisSmq.Scripts.Requeue
import RedisSmq.Scripts.Settle

/-!
# Times to live

`PEXPIRE` gives a key a deadline, which the key loses when it is removed: Redis
removes a list or a sorted set together with its last element. The scripts that
settle messages set deadlines on the audit lists and on the histories. Here the
scripts that take batches are stated on keyspaces with deadlines. Each is a batch
behind a check of the queue: one message at a time, and at the end the writes that
were put off.

The property hash of the queue and its set of groups are never removed by these
scripts, so their deadlines do not appear. The clock does not move during a
script, and a keyspace has only keys that are alive when the script starts.
-/

namespace RedisSmq

/-- The keys that a batch script may remove. -/
inductive MortalKey where
  | list (k : ListKey)
  | zset (k : ZsetKey)
  | message (id : MessageId)
  | history (id : MessageId)
  deriving DecidableEq, Repr

/-- The key exists. -/
def Keyspace.Holds (db : Keyspace) : MortalKey → Prop
  | .list k => db.lists k ≠ []
  | .zset k => (db.zsets k).entries ≠ []
  | .message id => (db.hgetall id).isSome
  | .history id => db.history id ≠ []

instance Keyspace.decidableHolds (db : Keyspace) : ∀ k, Decidable (db.Holds k)
  | .list k => inferInstanceAs (Decidable (db.lists k ≠ []))
  | .zset k => inferInstanceAs (Decidable ((db.zsets k).entries ≠ []))
  | .message id => inferInstanceAs (Decidable ((db.hgetall id).isSome = true))
  | .history id => inferInstanceAs (Decidable (db.history id ≠ []))

/-- A keyspace with deadlines. Only a key that exists has one. -/
@[ext] structure Timed where
  db : Keyspace
  deadline : MortalKey → Option Millis
  live : ∀ k, (deadline k).isSome → db.Holds k

namespace Timed

/-- The keys after some commands, none of which creates a key that an earlier one
removed. A key that is gone has lost its deadline. -/
def after (t : Timed) (db : Keyspace) : Timed where
  db := db
  deadline k := if db.Holds k then t.deadline k else none
  live k h := by
    by_contra hk
    simp [hk] at h

/-- `PEXPIRE`, which does nothing to a key that does not exist. -/
def pexpire (t : Timed) (k : MortalKey) (instant : Millis) : Timed where
  db := t.db
  deadline := if t.db.Holds k then Function.update t.deadline k (some instant) else t.deadline
  live k' h := by
    by_cases hk : t.db.Holds k
    · by_cases hkk : k' = k
      · rw [hkk]
        exact hk
      · apply t.live
        simpa [hk, hkk] using h
    · apply t.live
      simpa [hk] using h

/-- `PEXPIRE` at `clock`, guarded by a lifetime that is not zero. -/
def expireIn (t : Timed) (k : MortalKey) (clock lifetime : Millis) : Timed :=
  if lifetime = 0 then t else t.pexpire k (clock + lifetime)

end Timed

/-- The configured lifetimes of the audit lists. Zero means that they do not expire. -/
structure AuditExpiry where
  acknowledged : Millis := 0
  deadLettered : Millis := 0
  deriving DecidableEq, Repr

/-- How a script on a keyspace with deadlines ended. -/
abbrev TimedOutcome (α : Type) := Except (RedisError × Timed) (α × Timed)

/-- The check of the scripts that settle. -/
def settleCheck {β α : Type} (b : β) (t : Timed) : Except (Except Refusal α) β :=
  if t.db.queue.isNone then .error (.error .queueNotFound)
  else
    match stateRefusal t.db.operationalState with
    | some r => .error (.error r)
    | none => .ok b

/-- The check of the scripts that requeue: a queue that does not exist requeues
nothing. -/
def requeueCheck {β : Type} (b : QueueType → β) (t : Timed) : Except (Except Refusal Nat) β :=
  match t.db.queueType? with
  | none => .error (.ok 0)
  | some type =>
      match stateRefusal t.db.operationalState with
      | some r => .error (.error r)
      | none => .ok (b type)

/-- The check of `delete-message`. -/
def deleteCheck {β : Type} (lock : Option LockId) (b : Option QueueType → β) (t : Timed) :
    Except (Except Refusal DeleteStats) β :=
  if t.db.queue.isNone then .error (.error .queueNotFound)
  else if t.db.operationalState = .locked ∧ lock = none then .error (.error .queueLocked)
  else if t.db.operationalState = .locked ∧ t.db.lockMatches lock = false then
    .error (.error .invalidLock)
  else .ok (b t.db.queueType?)

/-! ## Settling -/

/-- The end of `acknowledge-message`. `LTRIM` leaves at least one element, so it
makes no difference that `PEXPIRE` comes before it in the script. -/
def commitAcknowledged (cfg : Config) (expiry : AuditExpiry) (clock : Millis)
    (results : List (MessageId × Bool)) (t : Timed) : Except (RedisError × Timed) Timed :=
  let acked := ackedIds results
  if acked = [] then .ok t
  else
    let t := t.after
      ((t.db.hincrby .acknowledged acked.length).hincrby .processing (-acked.length))
    if cfg.acknowledged.enabled then
      if cfg.unpackLimit < acked.length then .error (.tooManyResults, t)
      else
        .ok ((t.after (t.db.keepAudit .acknowledged cfg.acknowledged acked)).expireIn
          (.list .acknowledged) clock expiry.acknowledged)
    else .ok t

def acknowledgeBatch (cfg : Config) (expiry : AuditExpiry) (clock : Millis) (c : ConsumerId)
    (now : Millis) : Batch MessageId Timed (List (MessageId × Bool)) (RedisError × Timed) where
  nothing := []
  join := (· ++ ·)
  step id t :=
    if id ∈ t.db.lists (.processing c) then
      .ok ([(id, true)],
        t.after ((t.db.lrem (.processing c) id).hset id (acknowledgeWrite now)))
    else .ok ([(id, false)], t)
  commit := commitAcknowledged cfg expiry clock

/-- `acknowledge-message` on a keyspace with deadlines. -/
def acknowledgeTimed (cfg : Config) (expiry : AuditExpiry) (clock : Millis) (c : ConsumerId)
    (now : Millis) (ids : List MessageId) (t : Timed) :
    TimedOutcome (Except Refusal (List (MessageId × Bool))) :=
  Batch.guarded (settleCheck (acknowledgeBatch cfg expiry clock c now)) .ok ids t

/-- The lifetime that `unacknowledge-message` is given, for the dead-letter list and
for the histories. -/
def unackLifetime (cfg : Config) (expiry : AuditExpiry) : Millis :=
  if cfg.deadLettered.enabled then expiry.deadLettered else 0

/-- The body of the loop of `unacknowledge-message`, with the deadline of the
dead-letter list if the identifier was put there, and that of the history if a
record was. -/
def unacknowledgeOneTimed (cfg : Config) (expiry : AuditExpiry) (clock : Millis) (c : ConsumerId)
    (a : UnackArg) (t : Timed) : Timed :=
  let lifetime := unackLifetime cfg expiry
  let t := t.after (t.db.lrem (.processing c) a.id)
  let t := t.after (t.db.pushUnacked cfg a)
  let t := if a.retries then t else t.expireIn (.list .deadLetter) clock lifetime
  let t := t.after (t.db.recordUnack cfg a)
  let t := if a.history.isSome then t.expireIn (.history a.id) clock lifetime else t
  t.after (t.db.hset a.id a.write)

/-- The tally of `unacknowledge-message` counts the requeued and the dead-lettered
messages. -/
def unacknowledgeBatch (cfg : Config) (expiry : AuditExpiry) (clock : Millis) (c : ConsumerId) :
    Batch UnackArg Timed (Nat × Nat) (RedisError × Timed) where
  nothing := (0, 0)
  join n m := (n.1 + m.1, n.2 + m.2)
  step a t :=
    if a.id ∈ t.db.lists (.processing c) then
      .ok (if a.retries then (1, 0) else (0, 1), unacknowledgeOneTimed cfg expiry clock c a t)
    else .ok ((0, 0), t)
  commit n t :=
    .ok (t.after
      (((t.db.hincrbyPos .processing (-1) (n.1 + n.2)).hincrbyPos .deadLettered 1
        n.2).hincrbyPos .requeued 1 n.1))

/-- `unacknowledge-message` on a keyspace with deadlines. -/
def unacknowledgeTimed (cfg : Config) (expiry : AuditExpiry) (clock : Millis) (c : ConsumerId)
    (args : List UnackArg) (t : Timed) : TimedOutcome (Except Refusal Nat) :=
  Batch.guarded (settleCheck (unacknowledgeBatch cfg expiry clock c)) (fun n => .ok (n.1 + n.2))
    args t

/-! ## Requeuing -/

def RequeueTally.add (t u : RequeueTally) : RequeueTally where
  pending := t.pending + u.pending
  delayed := t.delayed + u.delayed
  deadLettered := t.deadLettered + u.deadLettered

/-- The retry of a message that has been taken out of its container. -/
def retryTimed (type : QueueType) (now : Millis) (a : RequeueArg) (t : Timed) :
    TimedOutcome RequeueTally :=
  match retryTaken type now a t.db with
  | none => .error (.notAFloat, t)
  | some (true, db) => .ok ({ pending := 1 }, t.after db)
  | some (false, db) => .ok ({ deadLettered := 1 }, t.after db)

def requeueImmediateBatch (now : Millis) (type : QueueType) :
    Batch RequeueArg Timed RequeueTally (RedisError × Timed) where
  nothing := {}
  join := RequeueTally.add
  step a t :=
    if a.id ∈ t.db.lists .requeued then
      let t := t.after (t.db.lrem .requeued a.id)
      if a.retryDelay = 0 then retryTimed type now a t
      else .ok ({ delayed := 1 }, t.after (delayTaken a t.db))
    else .ok ({}, t)
  commit n t :=
    .ok (t.after
      ((((t.db.hincrbyPos .requeued (-1) n.total).hincrbyPos .delayed 1 n.delayed).hincrbyPos
        .pending 1 n.pending).hincrbyPos .deadLettered 1 n.deadLettered))

/-- `requeue-immediate` on a keyspace with deadlines. -/
def requeueImmediateTimed (now : Millis) (args : List RequeueArg) (t : Timed) :
    TimedOutcome (Except Refusal Nat) :=
  Batch.guarded (requeueCheck (requeueImmediateBatch now)) (fun n => .ok n.total) args t

def requeueDelayedBatch (now : Millis) (type : QueueType) :
    Batch RequeueArg Timed RequeueTally (RedisError × Timed) where
  nothing := {}
  join := RequeueTally.add
  step a t :=
    if a.id ∈ t.db.zsets .delayed then
      retryTimed type now a (t.after (t.db.zrem .delayed a.id))
    else .ok ({}, t)
  commit n t :=
    .ok (t.after
      (((t.db.hincrbyPos .pending 1 n.pending).hincrbyPos .deadLettered 1
        n.deadLettered).hincrbyPos .delayed (-1) n.total))

/-- `requeue-delayed` on a keyspace with deadlines. -/
def requeueDelayedTimed (now : Millis) (args : List RequeueArg) (t : Timed) :
    TimedOutcome (Except Refusal Nat) :=
  Batch.guarded (requeueCheck (requeueDelayedBatch now)) (fun n => .ok n.total) args t

/-! ## Deleting -/

/-- `delete-message` puts nothing off. -/
def deleteBatch (group : Option GroupId) (type : Option QueueType) :
    Batch MessageId Timed DeleteStats (RedisError × Timed) where
  nothing := {}
  join := DeleteStats.add
  step id t :=
    match t.db.status id with
    | none => .ok ({ processed := 1, notFound := 1 }, t)
    | some .processing => .ok ({ processed := 1, inProcess := 1 }, t)
    | some st =>
        match removeFromContainer type group id t.db st with
        | .error e => .error (e, t)
        | .ok (counter, db) =>
            .ok ({ processed := 1, success := 1 }, t.after (eraseMessage id counter db))
  commit _ t := .ok t

/-- `delete-message` on a keyspace with deadlines. -/
def deleteMessageTimed (group : Option GroupId) (lock : Option LockId) (ids : List MessageId)
    (t : Timed) : TimedOutcome (Except Refusal DeleteStats) :=
  Batch.guarded (deleteCheck lock (deleteBatch group)) .ok ids t

end RedisSmq
