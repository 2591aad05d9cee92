import RedisSmq.Control.Transition

/-!
# The documents of a message

The field `message` of a message hash holds a JSON document. A producer stores the
`Params` of the message there. `RequeueMessage` and the scheduled publisher store the
copy they make as a `Transferable`, a longer document that also has the identifier, the
state and the status. Both are read as `Params`: the reader takes the fields it knows by
their names, whatever else the document has.

A document is the list of its fields. The fields `exchange` and `queue`, which say how
the message was addressed, are left out.
-/

namespace RedisSmq

/-- The names of the fields of `Params` and `Transferable`. -/
inductive DocumentKey where
  | id
  | createdAt
  | ttl
  | retryThreshold
  | retryDelay
  | consumeTimeout
  | body
  | priority
  | scheduledCron
  | scheduledDelay
  | scheduledRepeatPeriod
  | scheduledRepeat
  | destinationQueue
  | consumerGroupId
  | messageState
  | status
  deriving DecidableEq, Repr

inductive DocumentValue where
  | null
  | number (n : Nat)
  | body (b : Body)
  | cron (c : Cron)
  | queue (q : QueueParams)
  | group (g : GroupId)
  | uuid (id : MessageId)
  | state (s : State)
  | status (s : Status)
  deriving DecidableEq

abbrev Document := List (DocumentKey × DocumentValue)

namespace Document

/-- A field with the option `omitempty`. -/
def omitEmpty (k : DocumentKey) : Option DocumentValue → Document
  | none => []
  | some v => [(k, v)]

/-- A pointer without that option. -/
def pointer (k : DocumentKey) : Option DocumentValue → Document
  | none => [(k, .null)]
  | some v => [(k, v)]

end Document

/-- `Params` with the destination queue. -/
structure AddressedParams where
  params : Params
  destinationQueue : Option QueueParams
  deriving DecidableEq

/-- `Transferable`, which repeats the fields of `Params`. -/
structure Transferable where
  id : MessageId
  params : AddressedParams
  messageState : State
  status : Status

/-- `EncodeParams`. -/
def AddressedParams.encode (p : AddressedParams) : Document :=
  [(.createdAt, .number p.params.createdAt), (.ttl, .number p.params.ttl),
    (.retryThreshold, .number p.params.retryThreshold),
    (.retryDelay, .number p.params.retryDelay),
    (.consumeTimeout, .number p.params.consumeTimeout), (.body, .body p.params.body)] ++
  Document.omitEmpty .priority (p.params.priority.map .number) ++
  Document.omitEmpty .scheduledCron (p.params.scheduledCron.map .cron) ++
  Document.omitEmpty .scheduledDelay (p.params.scheduledDelay.map .number) ++
  Document.omitEmpty .scheduledRepeatPeriod (p.params.scheduledRepeatPeriod.map .number) ++
  [(.scheduledRepeat, .number p.params.scheduledRepeat)] ++
  Document.pointer .destinationQueue (p.destinationQueue.map .queue) ++
  Document.omitEmpty .consumerGroupId (p.params.consumerGroupId.map .group)

/-- The JSON of a `Transferable`. -/
def Transferable.encode (t : Transferable) : Document :=
  (.id, .uuid t.id) :: t.params.encode ++
    [(.messageState, .state t.messageState), (.status, .status t.status)]

/-- `ToTransferable`, with the destination queue of the envelope. -/
def Envelope.toTransferable (e : Envelope) (destinationQueue : Option QueueParams) :
    Transferable where
  id := e.id
  params := ⟨e.toParams, destinationQueue⟩
  messageState := e.state
  status := e.status

namespace AddressedParams

/-- The payload of a document that has none. -/
def nullBody : Body := 0

/-- The zero value of `Params`, from which a document is read. -/
def zero : AddressedParams where
  params :=
    { createdAt := 0
      ttl := 0
      retryThreshold := 0
      retryDelay := 0
      consumeTimeout := 0
      body := nullBody
      priority := none
      scheduledCron := none
      scheduledDelay := none
      scheduledRepeatPeriod := none
      scheduledRepeat := 0
      consumerGroupId := none }
  destinationQueue := none

/-- One field of a document is read. Names that `Params` does not have are skipped, and a
value of the wrong kind is an error. -/
def read (p : AddressedParams) : DocumentKey × DocumentValue → Option AddressedParams
  | (.id, _) | (.messageState, _) | (.status, _) => some p
  | (.createdAt, .number n) => some { p with params := { p.params with createdAt := n } }
  | (.ttl, .number n) => some { p with params := { p.params with ttl := n } }
  | (.retryThreshold, .number n) =>
      some { p with params := { p.params with retryThreshold := n } }
  | (.retryDelay, .number n) => some { p with params := { p.params with retryDelay := n } }
  | (.consumeTimeout, .number n) =>
      some { p with params := { p.params with consumeTimeout := n } }
  | (.body, .body b) => some { p with params := { p.params with body := b } }
  | (.priority, .number n) => some { p with params := { p.params with priority := some n } }
  | (.scheduledCron, .cron c) =>
      some { p with params := { p.params with scheduledCron := some c } }
  | (.scheduledDelay, .number n) =>
      some { p with params := { p.params with scheduledDelay := some n } }
  | (.scheduledRepeatPeriod, .number n) =>
      some { p with params := { p.params with scheduledRepeatPeriod := some n } }
  | (.scheduledRepeat, .number n) =>
      some { p with params := { p.params with scheduledRepeat := n } }
  | (.destinationQueue, .queue q) => some { p with destinationQueue := some q }
  | (.destinationQueue, .null) => some { p with destinationQueue := none }
  | (.consumerGroupId, .group g) =>
      some { p with params := { p.params with consumerGroupId := some g } }
  | _ => none

end AddressedParams

def Document.decodeParams (d : Document) : Option AddressedParams :=
  d.foldlM AddressedParams.read AddressedParams.zero

/-- What a producer stores is read back. -/
theorem Document.decodeParams_encode (p : AddressedParams) :
    Document.decodeParams p.encode = some p := by
  obtain ⟨⟨_, _, _, _, _, _, priority, cron, delay, period, _, group⟩, destination⟩ := p
  -- The fields that may be missing are those with an optional value.
  cases priority <;> cases cron <;> cases delay <;> cases period <;> cases destination <;>
    cases group <;> rfl

/-- From a `Transferable` the parameters are read that it was made of. -/
theorem Document.decodeParams_encode_transferable (t : Transferable) :
    Document.decodeParams t.encode = some t.params := by
  have hparams := Document.decodeParams_encode t.params
  unfold Document.decodeParams at hparams ⊢
  rw [Transferable.encode, List.cons_append, List.foldlM_cons]
  change List.foldlM AddressedParams.read AddressedParams.zero (t.params.encode ++ _) = _
  rw [List.foldlM_append, hparams]
  rfl

end RedisSmq
