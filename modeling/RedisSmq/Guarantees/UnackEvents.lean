import RedisSmq.Consumers.Unacker
import RedisSmq.Moves.Footprint
import RedisSmq.Track.Follow

/-!
# What the events of an unacknowledgement tell

An event about a message tells the truth if the script run took the message out of the
processing list and put it where the event says. The script settles a message by the first
of its entries, and only if it runs, the queue accepts the batch and the message is on the
processing list. The event gets out only if the batch unacker made the call, the call
returned and the user bus is running. Nothing makes the two go together, nor makes the
second evaluation of `resolveUnackAction` agree with the first.
-/

namespace RedisSmq

/-- An unacknowledgement of the entry that is decided at the instant retries the message. -/
def UnackEntry.retriesAt (entry : UnackEntry) (now : Nanos) : Prop :=
  (resolveUnackAction now entry.message entry.cause).retries = true
  deriving Decidable

/-- What is to be seen of a message: how often it is on the processing list of the consumer
and on the requeued list, and its status. -/
structure Sight where
  processing : Nat
  requeued : Nat
  status : Option Status

def Keyspace.sight (c : ConsumerId) (m : MessageId) (db : Keyspace) : Sight :=
  ⟨(db.lists (.processing c)).count m, (db.lists .requeued).count m, db.status m⟩

/-- What is to be seen of a message that is settled by the argument. -/
def Sight.settle (x : Sight) (a : UnackArg) : Sight :=
  ⟨x.processing - 1, x.requeued + if a.retries then 1 else 0,
    some (if a.retries then .unackRequeuing else .deadLettered)⟩

section Script

variable (cfg : Config) (c : ConsumerId) (db : Keyspace) (a : UnackArg) (m : MessageId)

private theorem lists_unacknowledgeOne (k : ListKey) :
    (unacknowledgeOne cfg c a db).lists k =
      ((db.lrem (.processing c) a.id).pushUnacked cfg a).lists k :=
  ((Writes.refl ∅ _).recordUnack cfg a).hset a.id a.write (.list k) (Set.notMem_empty _)

private theorem lists_processing_pushUnacked :
    (db.pushUnacked cfg a).lists (.processing c) = db.lists (.processing c) :=
  (Writes.refl {.list .requeued, .list .deadLetter} db).pushUnacked (by simp) (by simp) cfg a
    (.list (.processing c)) (by simp)

private theorem lists_requeued_pushUnacked :
    (db.pushUnacked cfg a).lists .requeued =
      db.lists .requeued ++ if a.retries then [a.id] else [] := by
  unfold Keyspace.pushUnacked
  by_cases hr : a.retries = true
  · rw [if_pos hr, if_pos hr]
    exact Function.update_self ListKey.requeued _ db.lists
  rw [if_neg hr, if_neg hr, List.append_nil]
  split
  · exact (Writes.refl {.list .deadLetter} db).keepAudit (by simp) _ _ (.list .requeued) (by simp)
  · rfl

/-- An entry settles its message if it finds it on the processing list, and no other. -/
theorem sight_unackMove :
    (unackMove cfg c db a).sight c m =
      if a.id = m ∧ m ∈ db.lists (.processing c) then (db.sight c m).settle a
      else db.sight c m := by
  unfold unackMove
  by_cases h : a.id ∈ db.lists (.processing c)
  · rw [if_pos h]
    have hprocessing : (unacknowledgeOne cfg c a db).lists (.processing c) =
        (db.lists (.processing c)).erase a.id := by
      rw [lists_unacknowledgeOne, lists_processing_pushUnacked]
      exact Function.update_self (ListKey.processing c) _ _
    have hrequeued : (unacknowledgeOne cfg c a db).lists .requeued =
        db.lists .requeued ++ if a.retries then [a.id] else [] := by
      rw [lists_unacknowledgeOne, lists_requeued_pushUnacked]
      congr 1
    change Keyspace.sight c m (unacknowledgeOne cfg c a db) = _
    unfold Keyspace.sight
    rw [hprocessing, hrequeued, unacknowledgeOne]
    by_cases hm : a.id = m
    · subst hm
      rw [if_pos (And.intro (Eq.refl a.id) h), List.count_erase_self, List.count_append,
        Keyspace.status,
        Keyspace.hgetall_hset_self]
      cases hr : a.retries <;> simp [Sight.settle, UnackArg.write, hr]
    · rw [if_neg (not_and_of_not_left _ hm), List.count_erase_of_ne (Ne.symm hm), List.count_append,
        Keyspace.status, Keyspace.hgetall_hset_ne _ _ _ _ (Ne.symm hm),
        Keyspace.hgetall_recordUnack, Keyspace.hgetall_pushUnacked, Keyspace.hgetall_lrem]
      cases a.retries <;> simp [hm, Keyspace.status]
  · have hnot : ¬ (a.id = m ∧ m ∈ db.lists (.processing c)) := fun hh => h (hh.1 ▸ hh.2)
    rw [if_neg h, if_neg hnot]

/-- A run settles a message by its first entry, if the message is on the processing list. -/
theorem sight_unackMoves (args : List UnackArg) (h : (db.lists (.processing c)).count m ≤ 1) :
    (args.foldl (unackMove cfg c) db).sight c m =
      (args.find? fun a => a.id = m ∧ m ∈ db.lists (.processing c)).elim (db.sight c m)
        (db.sight c m).settle := by
  induction args generalizing db with
  | nil => rfl
  | cons a args ih =>
    have hmove := sight_unackMove cfg c db a m
    rw [List.foldl_cons]
    by_cases hfound : a.id = m ∧ m ∈ db.lists (.processing c)
    · rw [if_pos hfound] at hmove
      have hcount : ((unackMove cfg c db a).lists (.processing c)).count m = 0 := by
        have := congrArg Sight.processing hmove
        simp only [Keyspace.sight, Sight.settle] at this
        omega
      rw [ih _ (hcount.trans_le (Nat.zero_le 1)), List.find?_cons_of_pos (by simpa using hfound),
        List.find?_eq_none.2 (by simp [List.count_eq_zero.1 hcount])]
      exact hmove
    · rw [if_neg hfound] at hmove
      have hcount : ((unackMove cfg c db a).lists (.processing c)).count m =
          (db.lists (.processing c)).count m := congrArg Sight.processing hmove
      have hmem : m ∈ (unackMove cfg c db a).lists (.processing c) ↔
          m ∈ db.lists (.processing c) := by
        rw [← List.count_pos_iff, hcount, List.count_pos_iff]
      rw [ih _ (hcount.trans_le h), List.find?_cons_of_neg (by simpa using hfound), hmove]
      simp only [hmem]

end Script

/-- The events tell what became of the message: that it was requeued or delayed if and
only if the run took it out of the processing list and put it on the requeued list, that it
was dead-lettered if and only if the run took it and gave it that status. -/
structure TellsTruth (c : ConsumerId) (db db' : Keyspace) (events : List ConsumerEvent)
    (m : MessageId) : Prop where
  retried : .messageRequeued m c ∈ events ∨ .messageDelayed m c ∈ events ↔
    (db'.lists (.processing c)).count m < (db.lists (.processing c)).count m ∧
      (db.lists .requeued).count m < (db'.lists .requeued).count m
  deadLettered : (∃ cause, .messageDeadLettered m c cause ∈ events) ↔
    (db'.lists (.processing c)).count m < (db.lists (.processing c)).count m ∧
      db'.status m = some .deadLettered

section Truth

variable {c : ConsumerId} {db db' : Keyspace} {events : List ConsumerEvent} {m : MessageId}

/-- Of a message that was not settled nothing must be told. -/
theorem tellsTruth_untouched (h : db'.sight c m = db.sight c m) :
    TellsTruth c db db' events m ↔
      ¬ (.messageRequeued m c ∈ events ∨ .messageDelayed m c ∈ events) ∧
        ¬ ∃ cause, .messageDeadLettered m c cause ∈ events := by
  have hcount : (db'.lists (.processing c)).count m = (db.lists (.processing c)).count m :=
    congrArg Sight.processing h
  have hnot : ¬ (db'.lists (.processing c)).count m < (db.lists (.processing c)).count m := by
    omega
  constructor
  · intro hh
    exact ⟨fun hr => hnot (hh.retried.1 hr).1, fun hd => hnot (hh.deadLettered.1 hd).1⟩
  · rintro ⟨hretried, hdead⟩
    exact ⟨iff_of_false hretried fun hh => hnot hh.1, iff_of_false hdead fun hh => hnot hh.1⟩

/-- Of a message that was settled the verdict of the argument must be told. -/
theorem tellsTruth_settled {a : UnackArg} (h : db'.sight c m = (db.sight c m).settle a)
    (hmem : m ∈ db.lists (.processing c)) :
    TellsTruth c db db' events m ↔
      (.messageRequeued m c ∈ events ∨ .messageDelayed m c ∈ events ↔ a.retries = true) ∧
        ((∃ cause, .messageDeadLettered m c cause ∈ events) ↔ ¬ a.retries = true) := by
  have hpos := List.count_pos_iff.2 hmem
  obtain ⟨hprocessing, hrequeued, hstatus⟩ := Sight.mk.inj h
  have htaken : (db'.lists (.processing c)).count m < (db.lists (.processing c)).count m := by
    rw [hprocessing]
    exact Nat.sub_lt hpos Nat.zero_lt_one
  have hput : (db.lists .requeued).count m < (db'.lists .requeued).count m ↔ a.retries = true := by
    rw [hrequeued]
    cases a.retries <;> simp [Keyspace.sight]
  have hdead : db'.status m = some .deadLettered ↔ ¬ a.retries = true := by
    rw [hstatus]
    cases a.retries <;> simp
  rw [← hdead, ← hput]
  exact ⟨fun hh => ⟨hh.retried.trans (and_iff_right htaken),
    hh.deadLettered.trans (and_iff_right htaken)⟩, fun hh =>
      ⟨hh.1.trans (and_iff_right htaken).symm, hh.2.trans (and_iff_right htaken).symm⟩⟩

end Truth

/-- The event about what is to become of the message gets out. -/
def UnackCaller.Announces (caller : UnackCaller) (callEnd : CallEnd) (a : Announcement) : Prop :=
  caller = .batchUnacker ∧ callEnd = .answered ∧ a.second = .running
  deriving Decidable

section Events

variable (caller : UnackCaller) (cfg : Config) (c : ConsumerId) (callEnd : CallEnd)
variable (now : Nanos) (later : Nat → Announcement) (entries : List UnackEntry) (db : Keyspace)
variable (m : MessageId)

/-- The script takes the message out of the processing list. -/
def Settles : Prop :=
  callEnd ≠ .requestLost ∧ db.accepts = true ∧ m ∈ db.lists (.processing c)
  deriving Decidable

/-- The events about a message are right: the script settles it and an event about it gets
out, and each such event has the verdict that the first entry of the message had when the
arguments were built; or neither happens. -/
def EventsFit : Prop :=
  ∀ first, entries.find? (fun entry => entry.id = m) = some first →
    (Settles c callEnd db m ∧
        (∃ p ∈ entries.zipIdx, p.1.id = m ∧ caller.Announces callEnd (later p.2)) ∧
        ∀ p ∈ entries.zipIdx, p.1.id = m → caller.Announces callEnd (later p.2) →
          (p.1.retriesAt (later p.2).time ↔ first.retriesAt now)) ∨
      (¬ Settles c callEnd db m ∧
        ∀ p ∈ entries.zipIdx, p.1.id = m → ¬ caller.Announces callEnd (later p.2))

private theorem mem_events {ev : ConsumerEvent} (hev : ∀ entry : UnackEntry,
      ev ≠ .messageUnacknowledged entry.id c entry.cause) :
    ev ∈ (caller.unacknowledge cfg c callEnd now later entries db).1 ↔
      ∃ p ∈ entries.zipIdx, caller.Announces callEnd (later p.2) ∧
        ev = p.1.outcome c (later p.2).time := by
  have hentry : ∀ p : UnackEntry × Nat, ev ∈ p.1.events c (later p.2) ↔
      (later p.2).second = .running ∧ ev = p.1.outcome c (later p.2).time := by
    intro p
    unfold UnackEntry.events
    cases (later p.2).first <;> cases (later p.2).second <;> simp [UserBus.publish, hev]
  cases entries with
  | nil =>
    cases caller <;> simp [UnackCaller.unacknowledge, MessageUnacknowledger.unacknowledgeBatch]
  | cons first rest =>
    cases caller <;> cases callEnd <;>
      simp only [UnackCaller.unacknowledge, MessageUnacknowledger.unacknowledgeBatch,
        UnackCaller.Announces, List.mem_flatMap, hentry, List.not_mem_nil, reduceCtorEq,
        false_and, and_false, exists_false, true_and]

private theorem outcome_retried (entry : UnackEntry) (t : Nanos) :
    .messageRequeued m c = entry.outcome c t ∨ .messageDelayed m c = entry.outcome c t ↔
      entry.id = m ∧ entry.retriesAt t := by
  unfold UnackEntry.outcome UnackEntry.retriesAt
  cases resolveUnackAction t entry.message entry.cause <;> simp [UnackAction.retries, eq_comm]

private theorem outcome_deadLettered (entry : UnackEntry) (t : Nanos) :
    (∃ cause, .messageDeadLettered m c cause = entry.outcome c t) ↔
      entry.id = m ∧ ¬ entry.retriesAt t := by
  unfold UnackEntry.outcome UnackEntry.retriesAt
  cases resolveUnackAction t entry.message entry.cause <;> simp [UnackAction.retries, eq_comm]

/-- A message is told to be retried if an entry whose event gets out is to be retried then. -/
theorem retried_mem_events :
    .messageRequeued m c ∈ (caller.unacknowledge cfg c callEnd now later entries db).1 ∨
        .messageDelayed m c ∈ (caller.unacknowledge cfg c callEnd now later entries db).1 ↔
      ∃ p ∈ entries.zipIdx, p.1.id = m ∧ caller.Announces callEnd (later p.2) ∧
        p.1.retriesAt (later p.2).time := by
  rw [mem_events, mem_events, ← exists_or]
  · refine exists_congr fun p => ?_
    have := outcome_retried c m p.1 (later p.2).time
    tauto
  all_goals simp

theorem deadLettered_mem_events :
    (∃ cause, .messageDeadLettered m c cause ∈
        (caller.unacknowledge cfg c callEnd now later entries db).1) ↔
      ∃ p ∈ entries.zipIdx, p.1.id = m ∧ caller.Announces callEnd (later p.2) ∧
        ¬ p.1.retriesAt (later p.2).time := by
  have hmem : ∀ cause, .messageDeadLettered m c cause ∈
      (caller.unacknowledge cfg c callEnd now later entries db).1 ↔ _ :=
    fun cause => mem_events caller cfg c callEnd now later entries db (by simp)
  simp only [hmem]
  constructor
  · rintro ⟨cause, p, hp, hannounced, hev⟩
    obtain ⟨hid, hdead⟩ := (outcome_deadLettered c m p.1 _).1 ⟨cause, hev⟩
    exact ⟨p, hp, hid, hannounced, hdead⟩
  · rintro ⟨p, hp, hid, hannounced, hdead⟩
    obtain ⟨cause, hev⟩ := (outcome_deadLettered c m p.1 _).2 ⟨hid, hdead⟩
    exact ⟨cause, p, hp, hannounced, hev⟩

/-- A call settles a message by its first entry, if it settles it at all. -/
theorem sight_unacknowledge {first : UnackEntry}
    (hfirst : entries.find? (fun entry => entry.id = m) = some first)
    (honce : (db.lists (.processing c)).count m ≤ 1) :
    (caller.unacknowledge cfg c callEnd now later entries db).2.sight c m =
      if Settles c callEnd db m then
        (db.sight c m).settle (.ofEnvelope cfg now first.message first.cause)
      else db.sight c m := by
  have hdb : (caller.unacknowledge cfg c callEnd now later entries db).2 =
      if callEnd = .requestLost then db
      else (unacknowledgeMessage cfg c (buildBatchLuaArgs cfg now entries) db).2 := by
    cases entries with
    | nil => cases hfirst
    | cons first rest =>
      cases caller <;> cases callEnd <;> rfl
  rw [hdb]
  by_cases hlost : callEnd = .requestLost
  · rw [if_pos hlost, if_neg fun hs => hs.1 hlost]
  rw [if_neg hlost]
  cases hacc : db.accepts with
  | false =>
    rw [unacknowledgeMessage_refused cfg c _ db hacc,
      if_neg fun hs => absurd (hacc.symm.trans hs.2.1) (by decide)]
  | true =>
    rw [unacknowledgeMessage_moves cfg c _ db hacc, sight_unackMoves cfg c db m _ honce]
    by_cases hmem : m ∈ db.lists (.processing c)
    · have hfind : (buildBatchLuaArgs cfg now entries).find?
          (fun a => a.id = m ∧ m ∈ db.lists (.processing c)) =
            some (UnackArg.ofEnvelope cfg now first.message first.cause) := by
        rw [buildBatchLuaArgs, List.find?_map]
        simp only [hmem, and_true]
        exact congrArg _ hfirst
      rw [hfind, if_pos ⟨hlost, hacc, hmem⟩]
      rfl
    · rw [List.find?_eq_none.2 (by simp [hmem]), if_neg fun hs => hmem hs.2.2]
      rfl

end Events

/-- The events about the messages of a batch are right exactly if they fit, in a state in
which the processing list has no message of the batch twice. -/
theorem unack_events_tell_truth_iff (caller : UnackCaller) (cfg : Config) (c : ConsumerId)
    (callEnd : CallEnd) (now : Nanos) (later : Nat → Announcement) (entries : List UnackEntry)
    (db : Keyspace)
    (honce : ∀ entry ∈ entries, (db.lists (.processing c)).count entry.id ≤ 1) :
    (∀ entry ∈ entries,
        TellsTruth c db (caller.unacknowledge cfg c callEnd now later entries db).2
          (caller.unacknowledge cfg c callEnd now later entries db).1 entry.id) ↔
      ∀ entry ∈ entries, EventsFit caller c callEnd now later entries db entry.id := by
  refine forall₂_congr fun entry hentry => ?_
  obtain ⟨first, hfirst⟩ : ∃ first, entries.find? (fun e => e.id = entry.id) = some first :=
    Option.isSome_iff_exists.1 (List.find?_isSome.2 ⟨entry, hentry, by simp⟩)
  have hsight := sight_unacknowledge caller cfg c callEnd now later entries db entry.id hfirst
    (honce entry hentry)
  simp only [EventsFit, hfirst, Option.some.injEq, forall_eq']
  by_cases hsettles : Settles c callEnd db entry.id
  · rw [if_pos hsettles] at hsight
    rw [tellsTruth_settled hsight hsettles.2.2, retried_mem_events, deadLettered_mem_events]
    simp only [hsettles, true_and, not_true, false_and, or_false]
    change (_ ↔ first.retriesAt now) ∧ (_ ↔ ¬ first.retriesAt now) ↔ _
    by_cases hr : first.retriesAt now
    · simp only [hr, iff_true, not_true, iff_false]
      constructor
      · rintro ⟨⟨p, hp, hid, hannounced, _⟩, hdead⟩
        refine ⟨⟨p, hp, hid, hannounced⟩, fun q hq hid hannounced => ?_⟩
        by_contra hno
        exact hdead ⟨q, hq, hid, hannounced, hno⟩
      · rintro ⟨⟨p, hp, hid, hannounced⟩, hall⟩
        exact ⟨⟨p, hp, hid, hannounced, hall p hp hid hannounced⟩,
          fun ⟨q, hq, hid, hannounced, hno⟩ => hno (hall q hq hid hannounced)⟩
    · simp only [hr, iff_false, not_false_iff, iff_true]
      constructor
      · rintro ⟨hretried, ⟨p, hp, hid, hannounced, _⟩⟩
        exact ⟨⟨p, hp, hid, hannounced⟩, fun q hq hid hannounced hyes =>
          hretried ⟨q, hq, hid, hannounced, hyes⟩⟩
      · rintro ⟨⟨p, hp, hid, hannounced⟩, hall⟩
        exact ⟨fun ⟨q, hq, hid, hannounced, hyes⟩ => hall q hq hid hannounced hyes,
          ⟨p, hp, hid, hannounced, hall p hp hid hannounced⟩⟩
  · rw [if_neg hsettles] at hsight
    rw [tellsTruth_untouched hsight, retried_mem_events, deadLettered_mem_events]
    simp only [hsettles, false_and, not_false_iff, true_and, false_or]
    constructor
    · rintro ⟨hretried, hdead⟩ p hp hid hannounced
      by_cases hr : p.1.retriesAt (later p.2).time
      · exact hretried ⟨p, hp, hid, hannounced, hr⟩
      · exact hdead ⟨p, hp, hid, hannounced, hr⟩
    · intro hall
      exact ⟨fun ⟨p, hp, hid, hannounced, _⟩ => hall p hp hid hannounced,
        fun ⟨p, hp, hid, hannounced, _⟩ => hall p hp hid hannounced⟩

namespace UnackExample

/-- A message that lives for one second. -/
def message : Producible :=
  { Producible.new defaultConsumeOptions 0 0 with ttl := ofMillis 1000 }

/-- The queue after the message was published, popped by consumer 7 and checked out. -/
def delivered : Keyspace :=
  let e := (Envelope.new message 0).dispatch (fun _ _ => none) 0
  let db := (publishMessage (PublishArgs.ofEnvelope e) (Keyspace.created .fifo [])).db
  (checkoutMessage 0 0 (pop .fifo none 7 db).2).2

/-- The handler of consumer 7 failed. -/
def entry : UnackEntry where
  message := ((delivered.hgetall 0).bind (Codec.decodeEnvelope defaultConsumeOptions 1 0)).getD
    (Envelope.new message 0)
  cause := .unacknowledged

/-- The queue is stopped before the batch is sent. -/
def stopped : Keyspace := (setQueueState .stopped none none delivered).2

/-- The unacknowledgement of the entry, decided at 0 and told of at a later instant. -/
def unacked (caller : UnackCaller) (bus : UserBus) (later : Nanos) (db : Keyspace) :
    List ConsumerEvent × Keyspace :=
  caller.unacknowledge {} 7 .answered 0 (fun _ => ⟨later, bus, bus⟩) [entry] db

/-- A stopped queue keeps the message on the processing list, and yet it is told to be
delayed. If the message expires between the two evaluations, it is told to be
dead-lettered, and yet it is on the requeued list. If the user bus is down, or if a reaper
made the call, the message is on the requeued list and nothing is told. -/
theorem unack_events_of_stopped_and_expired :
    (.messageDelayed 0 7 ∈ (unacked .batchUnacker .running 0 stopped).1 ∧
      (unacked .batchUnacker .running 0 stopped).2.lists (.processing 7) = [0]) ∧
    (.messageDeadLettered 0 7 .ttlExpired ∈
        (unacked .batchUnacker .running (ofMillis 1000) delivered).1 ∧
      (unacked .batchUnacker .running (ofMillis 1000) delivered).2.status 0 =
        some .unackRequeuing) ∧
    ((unacked .batchUnacker .down 0 delivered).1 = [] ∧
      (unacked .batchUnacker .down 0 delivered).2.lists .requeued = [0]) ∧
    (unacked .reaper .running 0 delivered).1 = [] ∧
      (unacked .reaper .running 0 delivered).2.lists .requeued = [0] := by
  decide +kernel

theorem unack_events_tell_truth_iff_delivered :
    TellsTruth 7 delivered (unacked .batchUnacker .running (ofMillis 999) delivered).2
      (unacked .batchUnacker .running (ofMillis 999) delivered).1 entry.id := by
  refine (unack_events_tell_truth_iff .batchUnacker {} 7 .answered 0
    (fun _ => ⟨ofMillis 999, .running, .running⟩) [entry] delivered ?_).2 ?_ entry
      (List.mem_singleton_self _)
  · decide +kernel
  intro e he first hfirst
  obtain rfl := List.mem_singleton.1 he
  obtain rfl : entry = first := Option.some.inj hfirst
  refine .inl ⟨by decide +kernel, ⟨(entry, 0), List.mem_singleton_self _, rfl, by decide⟩, ?_⟩
  intro p hp _ _
  obtain rfl := List.mem_singleton.1 hp
  exact iff_of_true (by decide +kernel) (by decide +kernel)

end UnackExample

end RedisSmq
