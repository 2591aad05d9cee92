import RedisSmq.Message.Wire

/-!
# Both encoders of a message state

The producer writes the state of a message as positional arguments of a script, the codec
writes it as a map. What matters to the reader is which text stands under which field.
`Shows` collects this, and a state that the texts show is the state that is read. Each of
the two encoders then only has to show what it was given.
-/

namespace RedisSmq

namespace StateTransferable

variable (t : StateTransferable)

/-- The fields that hold timestamps. -/
def timestamps : List (Field × Option Int64) :=
  [(.scheduledAt, t.scheduledAt), (.publishedAt, t.publishedAt), (.requeuedAt, t.requeuedAt),
    (.processingStartedAt, t.processingStartedAt), (.acknowledgedAt, t.acknowledgedAt),
    (.unacknowledgedAt, t.unacknowledgedAt), (.deadLetteredAt, t.deadLetteredAt),
    (.lastRequeuedAt, t.lastRequeuedAt), (.lastUnacknowledgedAt, t.lastUnacknowledgedAt),
    (.lastScheduledAt, t.lastScheduledAt), (.lastRetriedAttemptAt, t.lastRetriedAttemptAt),
    (.lastProcessedAt, t.lastProcessedAt)]

/-- The fields that hold numbers which are always set. -/
def counters : List (Field × Int64) :=
  [(.attempts, t.attempts), (.scheduledRepeatCount, t.scheduledRepeatCount),
    (.requeueCount, t.requeueCount), (.effectiveScheduledDelay, t.effectiveScheduledDelay),
    (.scheduledTimes, t.scheduledTimes)]

def flags : List (Field × Bool) :=
  [(.scheduledCronFired, t.scheduledCronFired), (.expired, t.expired)]

def parents : List (Field × String) :=
  [(.scheduledMessageParentId, t.scheduledMessageParentId),
    (.requeuedMessageParentId, t.requeuedMessageParentId)]

/-- Every timestamp is unset or positive. -/
def PositiveTimestamps : Prop := ∀ row ∈ t.timestamps, ∀ ts ∈ row.2, 0 < ts

-- Not by the instance for all members of a finite type: there are too many timestamps.
instance : Decidable t.PositiveTimestamps :=
  decidable_of_iff ((t.timestamps.all fun row => row.2.all fun ts => decide (0 < ts)) = true) <| by
    simp only [PositiveTimestamps, List.all_eq_true, Option.all_eq_true, decide_eq_true_eq,
      Option.mem_def]

end StateTransferable

namespace Wire

/-- The texts of the fields show a state. A timestamp that is not set is shown by an empty
text or by none. -/
structure Shows (read : Field → Option String) (t : StateTransferable) : Prop where
  uuid : read .id = some t.uuid
  timestamps : ∀ row ∈ t.timestamps, (read row.1).getD "" = orEmptyInt64 row.2
  counters : ∀ row ∈ t.counters, read row.1 = some (Decimal.render row.2)
  flags : ∀ row ∈ t.flags, read row.1 = some (boolToStr row.2)
  parents : ∀ row ∈ t.parents, (read row.1).getD "" = row.2

section Readers

variable {read : Field → Option String} {f : Field}

theorem readInt_eq {n : Int64} (h : read f = some (Decimal.render n)) : readInt read f = n := by
  unfold readInt
  rw [h]
  change Decimal.valueOf (Decimal.parse (Decimal.render n)) = n
  rw [Decimal.parse_render, Decimal.valueOf_ok]

theorem readFlag_eq {b : Bool} (h : read f = some (boolToStr b)) : readFlag read f = b := by
  unfold readFlag
  rw [h]
  cases b <;> decide

/-- An empty text is no timestamp. -/
theorem parseOptionalTS_eq {ts : Option Int64} (hpos : ∀ t ∈ ts, 0 < t)
    (h : (read f).getD "" = orEmptyInt64 ts) : parseOptionalTS read f = ts := by
  have hempty : Decimal.parse "" = .error .malformed := rfl
  unfold parseOptionalTS
  cases ts with
  | none =>
    cases hread : read f with
    | none => rfl
    | some v =>
      have hv : v = "" := by rw [hread] at h; exact h
      rw [hv, Option.map_some, hempty]
  | some t =>
    have ht : (0 : Int64) < t := hpos t rfl
    cases hread : read f with
    | none =>
      -- The text of a number is not empty, since it can be read.
      have hrender : Decimal.render t = "" := by rw [hread] at h; exact h.symm
      have hparse := Decimal.parse_render t
      rw [hrender, hempty] at hparse
      cases hparse
    | some v =>
      have hv : v = Decimal.render t := by rw [hread] at h; exact h
      rw [hv, Option.map_some, Decimal.parse_render]
      exact if_pos ht

end Readers

/-- The state that is read is the one that the texts show. -/
theorem Shows.decodeFields {read : Field → Option String} {t : StateTransferable}
    (h : Shows read t) (hpos : t.PositiveTimestamps) (uuid : String) :
    decodeFields read uuid = t := by
  have stamp : ∀ row ∈ t.timestamps, parseOptionalTS read row.1 = row.2 := by
    intro row hrow
    exact parseOptionalTS_eq (hpos row hrow) (h.timestamps row hrow)
  have counter : ∀ row ∈ t.counters, readInt read row.1 = row.2 := by
    intro row hrow
    exact readInt_eq (h.counters row hrow)
  have flag : ∀ row ∈ t.flags, readFlag read row.1 = row.2 := by
    intro row hrow
    exact readFlag_eq (h.flags row hrow)
  have parent := h.parents
  simp only [StateTransferable.timestamps, StateTransferable.counters, StateTransferable.flags,
    StateTransferable.parents, List.forall_mem_cons, List.not_mem_nil, false_implies,
    implies_true, and_true] at stamp counter flag parent
  simp only [Wire.decodeFields, h.uuid, Option.getD_some, stamp, counter, flag, parent]

section Positional

variable (e : WireEnvelope)

/-- The text that `publish_message` stores under a field. -/
def published : Field → String
  | .id => e.state.uuid
  | .status => statusText e.status
  | .message => e.message
  | .scheduledAt => orEmptyInt64 e.state.scheduledAt
  | .publishedAt => orEmptyInt64 e.state.publishedAt
  | .processingStartedAt => orEmptyInt64 e.state.processingStartedAt
  | .deadLetteredAt => orEmptyInt64 e.state.deadLetteredAt
  | .acknowledgedAt => orEmptyInt64 e.state.acknowledgedAt
  | .unacknowledgedAt => orEmptyInt64 e.state.unacknowledgedAt
  | .lastUnacknowledgedAt => orEmptyInt64 e.state.lastUnacknowledgedAt
  | .lastScheduledAt => orEmptyInt64 e.state.lastScheduledAt
  | .lastProcessedAt => orEmptyInt64 e.state.lastProcessedAt
  | .requeuedAt => orEmptyInt64 e.state.requeuedAt
  | .requeueCount => Decimal.render e.state.requeueCount
  | .lastRequeuedAt => orEmptyInt64 e.state.lastRequeuedAt
  | .lastRetriedAttemptAt => orEmptyInt64 e.state.lastRetriedAttemptAt
  | .scheduledCronFired => boolToStr e.state.scheduledCronFired
  | .attempts => Decimal.render e.state.attempts
  | .scheduledRepeatCount => Decimal.render e.state.scheduledRepeatCount
  | .expired => boolToStr e.state.expired
  | .effectiveScheduledDelay => Decimal.render e.state.effectiveScheduledDelay
  | .scheduledTimes => Decimal.render e.state.scheduledTimes
  | .scheduledMessageParentId => e.state.scheduledMessageParentId
  | .requeuedMessageParentId => e.state.requeuedMessageParentId

/-- The positions of keys and values agree. -/
theorem publishedPairs_buildPublishArgs :
    publishedPairs (buildPublishArgs e) = publishOrder.map fun f => (f.key, published e f) := rfl

theorem mem_publishOrder (f : Field) : f ∈ publishOrder := by
  cases f <;> decide

theorem lookup_publishMessageHash (old : Hash) (f : Field) :
    (publishMessageHash (buildPublishArgs e) old).lookup f.key = some (published e f) := by
  have hkeys : ((publishedPairs (buildPublishArgs e)).map Prod.fst).Nodup := by
    have hmap : (publishedPairs (buildPublishArgs e)).map Prod.fst = publishOrder.map Field.key :=
      rfl
    rw [hmap]
    exact List.Nodup.map Field.injective_key (by decide)
  have hmem : (f.key, published e f) ∈ publishedPairs (buildPublishArgs e) := by
    rw [publishedPairs_buildPublishArgs]
    exact List.mem_map.2 ⟨f, mem_publishOrder f, rfl⟩
  exact Table.lookup_insertAll_of_mem old hkeys hmem

theorem shows_published : Shows (fun f => some (published e f)) e.state where
  uuid := rfl
  timestamps := by
    simp only [StateTransferable.timestamps, List.forall_mem_cons, Option.getD_some]
    exact ⟨rfl, rfl, rfl, rfl, rfl, rfl, rfl, rfl, rfl, rfl, rfl, rfl, by simp⟩
  counters := by
    simp only [StateTransferable.counters, List.forall_mem_cons]
    exact ⟨rfl, rfl, rfl, rfl, rfl, by simp⟩
  flags := by
    simp only [StateTransferable.flags, List.forall_mem_cons]
    exact ⟨rfl, rfl, by simp⟩
  parents := by
    simp only [StateTransferable.parents, List.forall_mem_cons]
    exact ⟨rfl, rfl, by simp⟩

end Positional

section Keyed

variable (t : StateTransferable)

theorem lookup_encodeState (f : Field) : (encodeState t).lookup f.key = encoded t f := by
  unfold encodeState
  cases hf : encoded t f with
  | none =>
    apply Table.lookup_insertAll_of_notMem
    intro row hrow hkey
    obtain ⟨g, -, hg⟩ := List.mem_filterMap.1 hrow
    obtain ⟨v, hv, rfl⟩ := Option.map_eq_some_iff.1 hg
    rw [Field.injective_key hkey, hf] at hv
    cases hv
  | some v =>
    apply Table.lookup_insertAll_of_mem
    · have hall : (Field.all.map Field.key).Nodup :=
        List.Nodup.map Field.injective_key (by decide)
      exact (Table.keys_filterMap_sublist Field.key (encoded t) Field.all).nodup hall
    · exact List.mem_filterMap.2 ⟨f, f.mem_all, by rw [hf]; rfl⟩

theorem getD_optionalTS {ts : Option Int64} (hpos : ∀ t ∈ ts, 0 < t) :
    (optionalTS ts).getD "" = orEmptyInt64 ts := by
  cases ts with
  | none => rfl
  | some t =>
    have ht : decide ((0 : Int64) < t) = true := decide_eq_true (hpos t rfl)
    rw [optionalTS, Option.filter_some, if_pos ht]
    rfl

theorem getD_optionalParent (id : String) : (optionalParent id).getD "" = id := by
  unfold optionalParent
  split
  · rfl
  · next h => exact (not_not.1 h).symm

theorem shows_encoded (hpos : t.PositiveTimestamps) : Shows (encoded t) t where
  uuid := rfl
  timestamps := by
    intro row hrow
    have henc : encoded t row.1 = optionalTS row.2 := by
      simp only [StateTransferable.timestamps, List.mem_cons, List.not_mem_nil, or_false] at hrow
      rcases hrow with rfl | rfl | rfl | rfl | rfl | rfl | rfl | rfl | rfl | rfl | rfl | rfl <;> rfl
    rw [henc]
    exact getD_optionalTS (hpos row hrow)
  counters := by
    simp only [StateTransferable.counters, List.forall_mem_cons]
    exact ⟨rfl, rfl, rfl, rfl, rfl, by simp⟩
  flags := by
    simp only [StateTransferable.flags, List.forall_mem_cons]
    exact ⟨rfl, rfl, by simp⟩
  parents := by
    simp only [StateTransferable.parents, List.forall_mem_cons]
    exact ⟨getD_optionalParent _, getD_optionalParent _, by simp⟩

end Keyed

/-- A hash that has the identifier is decoded by its fields. -/
theorem decodeState_eq {hash : Hash} {read : Field → Option String}
    (hlookup : ∀ f : Field, hash.lookup f.key = read f) (hid : read .id ≠ none) (uuid : String) :
    decodeState uuid hash = some (decodeFields read uuid) := by
  have hne : hash.entries.isEmpty = false := by
    rw [List.isEmpty_eq_false_iff]
    intro hnil
    apply hid
    rw [← hlookup, AList.lookup, hnil]
    rfl
  have hread : (fun f : Field => hash.lookup f.key) = read := funext hlookup
  rw [decodeState, hne, hread]
  rfl

/-- Whichever encoder wrote the state, and whatever the hash held before, the state is read
back as it was. -/
theorem decodeState_of_encoders (e : WireEnvelope) (old : Hash) (uuid : String)
    (hpos : e.state.PositiveTimestamps) :
    decodeState uuid (publishMessageHash (buildPublishArgs e) old) = some e.state ∧
      decodeState uuid (encodeState e.state) = some e.state := by
  constructor
  · have hread := lookup_publishMessageHash e old
    rw [decodeState_eq hread (by simp), (shows_published e).decodeFields hpos]
  · have hread := lookup_encodeState e.state
    rw [decodeState_eq hread (by simp [encoded]), (shows_encoded e.state hpos).decodeFields hpos]

/-- A scheduled and requeued message, with a negative counter. -/
def sampleState : StateTransferable where
  uuid := "4f"
  scheduledAt := some 1700000000000
  publishedAt := none
  requeuedAt := some 5
  processingStartedAt := none
  acknowledgedAt := none
  unacknowledgedAt := none
  deadLetteredAt := none
  lastRequeuedAt := some 7
  lastUnacknowledgedAt := none
  lastScheduledAt := none
  lastRetriedAttemptAt := none
  lastProcessedAt := some 6
  scheduledCronFired := true
  attempts := -1
  scheduledRepeatCount := 2
  requeueCount := 1
  expired := false
  effectiveScheduledDelay := 60000
  scheduledTimes := 3
  scheduledMessageParentId := ""
  requeuedMessageParentId := "3e"

def sampleEnvelope : WireEnvelope where
  state := sampleState
  status := .scheduled
  message := "null"
  priority := some 4
  consumerGroupId := "g"

theorem decodeState_of_encoders_sample :
    sampleState.PositiveTimestamps ∧
      decodeState "" (publishMessageHash (buildPublishArgs sampleEnvelope) ∅) =
        some sampleState ∧
      decodeState "" (encodeState sampleState) = some sampleState :=
  ⟨by decide, decodeState_of_encoders sampleEnvelope ∅ "" (by decide)⟩

end Wire

/-! ## The hash whose fields have been read -/

section Read

variable (name : MessageId → String)

/-- The texts of a state, with the names of the identifiers. -/
def State.wire (s : State) : StateTransferable where
  uuid := name s.id
  scheduledAt := s.scheduledAt.map Int64.ofNat
  publishedAt := s.publishedAt.map Int64.ofNat
  requeuedAt := s.requeuedAt.map Int64.ofNat
  processingStartedAt := s.processingStartedAt.map Int64.ofNat
  acknowledgedAt := s.acknowledgedAt.map Int64.ofNat
  unacknowledgedAt := s.unacknowledgedAt.map Int64.ofNat
  deadLetteredAt := s.deadLetteredAt.map Int64.ofNat
  lastRequeuedAt := s.lastRequeuedAt.map Int64.ofNat
  lastUnacknowledgedAt := s.lastUnacknowledgedAt.map Int64.ofNat
  lastScheduledAt := s.lastScheduledAt.map Int64.ofNat
  lastRetriedAttemptAt := s.lastRetriedAttemptAt.map Int64.ofNat
  lastProcessedAt := s.lastProcessedAt.map Int64.ofNat
  scheduledCronFired := s.scheduledCronFired
  attempts := Int64.ofNat s.attempts
  scheduledRepeatCount := Int64.ofNat s.scheduledRepeatCount
  requeueCount := Int64.ofNat s.requeueCount
  expired := s.expired
  effectiveScheduledDelay := Int64.ofNat s.effectiveScheduledDelay
  scheduledTimes := Int64.ofNat s.scheduledTimes
  scheduledMessageParentId := (s.scheduledMessageParentId.map name).getD ""
  requeuedMessageParentId := (s.requeuedMessageParentId.map name).getD ""

/-- An envelope with the texts of its parameters and of its group. -/
def Envelope.wire (json : Params → String) (group : Option GroupId → String) (e : Envelope) :
    WireEnvelope where
  state := e.state.wire name
  status := e.status
  message := json e.toParams
  priority := e.message.priority.map Int64.ofNat
  consumerGroupId := group e.consumerGroupId

theorem Codec.parseOptionalTS_eq {ts : Option Millis}
    (h : ∀ t ∈ ts.map Int64.ofNat, 0 < t) : Codec.parseOptionalTS ts = ts := by
  cases ts with
  | none => rfl
  | some t =>
    have hpos : 0 < t := by
      have hwire : (0 : Int64) < Int64.ofNat t := h (Int64.ofNat t) rfl
      rcases Nat.eq_zero_or_pos t with rfl | ht
      · exact absurd hwire (by decide)
      · exact ht
    rw [Codec.parseOptionalTS, Option.filter_some, if_pos (decide_eq_true hpos)]

/-- Publishing a message and reading its state in the texts of the hash is what the hash
with fields computes. -/
theorem Wire.decodeState_wire (json : Params → String) (group : Option GroupId → String)
    (e : Envelope) (old : Wire.Hash) (uuid : String) (id : MessageId)
    (hpos : (e.state.wire name).PositiveTimestamps) :
    Wire.decodeState uuid
        (Wire.publishMessageHash (Wire.buildPublishArgs (e.wire name json group)) old) =
      some ((Codec.decodeState id (Codec.publishedHash e)).wire name) := by
  have hstate : Codec.decodeState id (Codec.publishedHash e) = e.state := by
    have stamp : ∀ row ∈ (e.state.wire name).timestamps, ∀ ts : Option Millis,
        row.2 = ts.map Int64.ofNat → Codec.parseOptionalTS ts = ts := by
      intro row hrow ts hts
      exact Codec.parseOptionalTS_eq (by rw [← hts]; exact hpos row hrow)
    simp only [StateTransferable.timestamps, List.forall_mem_cons, State.wire] at stamp
    simp only [Codec.decodeState, Codec.publishedHash, Cell.toOption_ofOption,
      Option.getD_some, stamp]
  rw [hstate, decodeState_eq (lookup_publishMessageHash (e.wire name json group) old) (by simp),
    (shows_published (e.wire name json group)).decodeFields hpos]
  rfl

/-- A message on its second attempt. -/
def secondAttempt : Envelope :=
  { Envelope.new (.new defaultConsumeOptions 0 0) 4 with
    state := { State.new 4 with publishedAt := some 5, attempts := 2 } }

theorem Wire.decodeState_wire_secondAttempt :
    (secondAttempt.state.wire Nat.repr).PositiveTimestamps ∧
      Wire.decodeState "" (Wire.publishMessageHash
        (Wire.buildPublishArgs (secondAttempt.wire Nat.repr (fun _ => "null") fun _ => "")) ∅) =
        some ((Codec.decodeState 4 (Codec.publishedHash secondAttempt)).wire Nat.repr) :=
  ⟨by decide, Wire.decodeState_wire Nat.repr _ _ _ ∅ "" 4 (by decide)⟩

end Read

end RedisSmq
