import RedisSmq.Moves.Processing
import RedisSmq.System.Origin

/-!
# What a step does to the processing lists

A step leaves all processing lists alone, or it is a pop that adds one identifier to the
list of its consumer, or a settlement that takes a batch out of one list.
-/

namespace RedisSmq

/-- The actions that change processing lists. -/
def Action.holds : Action → Bool
  | .pop .. | .acknowledge .. | .unacknowledge .. | .reap .. => true
  | _ => false

inductive HoldMove (s : System) : Action → Keyspace → Prop
  | same {a : Action} {db : Keyspace} (h : SameProcessing s.db db) : HoldMove s a db
  | pop {c : ConsumerId} {group : Option GroupId} {id : MessageId} {db : Keyspace}
      (h : ∀ c', db.lists (.processing c') =
        if c' = c then id :: s.db.lists (.processing c) else s.db.lists (.processing c')) :
      HoldMove s (.pop c group) db
  | withdraw {a : Action} {c : ConsumerId} {ids : List MessageId} {db : Keyspace}
      (h : Withdraws c ids s.db db) : HoldMove s a db

section Holding

variable {type : QueueType} {s s' : System} {a : Action}

theorem System.unackBatch_withdraws (s : System) (c : ConsumerId)
    (batch : List (Envelope × Option Nat × UnackCause)) (t : Nanos) (hacc : s.db.accepts = true) :
    Withdraws c (batch.map fun b => b.1.id) s.db (s.unackBatch c batch t).1 := by
  have hmove := @unacknowledgeMessage_withdraws s.cfg c s.db
    (batch.map fun b => UnackArg.ofEnvelope s.cfg t b.1 b.2.2) hacc
  rw [List.map_map] at hmove
  exact hmove

theorem System.unackBatch_writes (s : System) (c : ConsumerId)
    (batch : List (Envelope × Option Nat × UnackCause)) (t : Nanos) :
    Writes (settlement c) s.db (s.unackBatch c batch t).1 :=
  unacknowledgeMessage_writes _

private theorem HoldMove.unackBatch (c : ConsumerId)
    (batch : List (Envelope × Option Nat × UnackCause)) (t : Nanos) :
    HoldMove s a (s.unackBatch c batch t).1 := by
  cases hacc : s.db.accepts with
  | true => exact .withdraw (s.unackBatch_withdraws c batch t hacc)
  | false =>
    have hsame : (s.unackBatch c batch t).1 = s.db := unacknowledgeMessage_refused _ _ _ _ hacc
    exact .same fun _ => by rw [hsame]

/-- A step that pops nothing and settles nothing. -/
theorem Step.sameProcessing (h : Step s a s') (hs : Sane type s) (ha : a.holds = false) :
    SameProcessing s.db s'.db := by
  cases h with
  | task | crash | fetch | load | tick | configure | saveGroup => exact fun _ => rfl
  | setState => exact (setQueueState_writes _ _ _ _).sameProcessing fun _ => id
  | deleteGroup => exact (deleteConsumerGroup_writes hs.type_eq _ _).sameProcessing (by simp)
  | @expire k hk =>
    refine ((Writes.refl {.list k} s.db).setList rfl []).sameProcessing fun c hc => ?_
    rw [← Set.mem_singleton_iff.1 hc] at hk
    cases hk
  | produce hm hdb =>
    subst hdb
    exact (publishMessage_writes _ hs.type_eq).traffic_sameProcessing
  | checkout hmem hstate hget hst hdb =>
    subst hdb
    exact fun _ => rfl
  | requeueImmediate hload =>
    exact (requeueImmediate_writes hs.type_eq (hs.requeueArgs_fit hload)).traffic_sameProcessing
  | requeueDelayed hload =>
    exact (requeueDelayed_writes hs.type_eq (hs.requeueArgs_fit hload)).traffic_sameProcessing
  | publishScheduled hload hgroup hnodup ht hdb =>
    subst hdb
    exact (publishScheduled_writes hs.type_eq
      (scheduledArgs_copies hs hload).1).traffic_sameProcessing
  | delete hload hgroup hdb =>
    subst hdb
    exact (deleteMessage_writes _ _ _ hs.type_eq).traffic_sameProcessing
  | requeueMessage hload hstatus ht harg hdb =>
    subst hdb
    rw [requeueMessage_moves _ s.db (Keyspace.isSome_queue_of_queueType? hs.type_eq)]
    exact (copyMove_writes _ hs.type_eq).traffic_sameProcessing
  | pop | acknowledge | unacknowledge | reap => cases ha

theorem HoldMove.of_step (h : Step s a s') (hs : Sane type s) : HoldMove s a s'.db := by
  by_cases ha : a.holds = false
  · exact .same (h.sameProcessing hs ha)
  cases h with
  | task => exact .same fun _ => rfl
  | pop hc htype hpop => exact .pop (pop_processing hpop)
  | @acknowledge c batch t run htasks ht hrun =>
    subst hrun
    cases hacc : s.db.accepts with
    | true => exact .withdraw (acknowledgeMessage_withdraws _ _ hacc)
    | false =>
      refine .same fun c' => ?_
      exact congrArg (fun db => db.lists (.processing c'))
        (acknowledgeMessage_refused _ _ _ hacc)
  | unacknowledge => exact .unackBatch _ _ _
  | reap => exact .unackBatch _ _ _
  | _ => exact absurd rfl ha

/-- A processing list that a step fills belongs to a consumer that pops. -/
theorem HoldMove.nonempty {db : Keyspace} (h : HoldMove s a db) {c : ConsumerId}
    (hne : db.lists (.processing c) ≠ []) :
    s.db.lists (.processing c) ≠ [] ∨ ∃ group, a = .pop c group := by
  cases h with
  | same h => exact .inl (h c ▸ hne)
  | @pop c' group id _ h =>
    by_cases hc : c = c'
    · exact .inr ⟨group, by rw [hc]⟩
    · rw [h c, if_neg hc] at hne
      exact .inl hne
  | @withdraw _ c' ids _ h =>
    refine .inl fun hnil => hne ?_
    rw [h c]
    by_cases hc : c = c'
    · rw [if_pos hc, ← hc, hnil, List.nil_diff]
    · rw [if_neg hc, hnil]

end Holding

end RedisSmq
