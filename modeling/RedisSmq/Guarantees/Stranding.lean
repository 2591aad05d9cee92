import RedisSmq.Consumers.Buffered
import RedisSmq.System.Holding
import RedisSmq.Track.Basic

/-!
# No stranded delivery

An identifier in the processing list of a live consumer should have a goroutine of that
consumer that will take it out. A goroutine gives up its message when the checkout does not
find the message pending, when its context is cancelled and when an unacknowledgement is
refused, and leaves the identifier in the list. And a batcher loses a settlement that is
added while the timer flushes without the mutex. Without these exits the identifiers in a
processing list are covered by goroutines, each occurrence by one of its own.
-/

namespace RedisSmq

namespace System

/-- The message is stored in full. -/
def IsStored (s : System) (id : MessageId) : Prop :=
  ((s.db.hgetall id).bind MessageHash.message).isSome = true
  deriving Decidable

/-- The steps that strand no message: no `Dequeue` is cancelled, a checkout that is not
refused finds the message pending, messages are stored in full when they are decoded, and
no unacknowledgement is refused. -/
def KeepsCovered (s : System) (a : Action) : Prop :=
  a.isCancel = false ∧ (a.isUnacknowledge = true → s.db.accepts = true) ∧
    (∀ id ∈ a.checksOut, stateRefusal s.db.operationalState = none →
      s.db.status id = some .pending ∧ s.IsStored id) ∧
    ∀ id ∈ a.reloads, s.IsStored id
  deriving Decidable

/-- The task of the consumer is to settle the message, now or later. -/
def Covers (c : ConsumerId) (id : MessageId) (task : ConsumerId × Task) : Prop :=
  task.1 = c ∧ task.2.id = id ∧ task.2.isToken = true

instance (c : ConsumerId) (id : MessageId) : DecidablePred (Covers c id) :=
  fun _ => inferInstanceAs (Decidable (_ ∧ _ ∧ _))

/-- Every occurrence in the processing list of a live consumer has a task of its own. -/
def Covered (s : System) : Prop :=
  ∀ c id, c ∉ s.crashed → (s.db.lists (.processing c)).count id ≤ s.tasks.countP (Covers c id)

end System

section Cover

variable {type : QueueType} {s s' : System} {a : Action} {c c' : ConsumerId} {id : MessageId}

/-- What is stored in full can be decoded. -/
theorem isSome_loadMessage (h : s.IsStored id) : (s.loadMessage id).isSome = true := by
  obtain ⟨p, hp⟩ := Option.isSome_iff_exists.1 h
  obtain ⟨hash, hget, hmessage⟩ := Option.bind_eq_some_iff.1 hp
  simp [System.loadMessage, hget, Codec.decodeEnvelope, hmessage]

/-- A goroutine that goes on keeps its claim to the message. -/
theorem Goes.keeps_token {old : Task} {new : Multiset Task} {events : List Event}
    (hgo : Goes s a c old new events) (hcond : s.KeepsCovered a) (hold : old.isToken = true) :
    ∃ task ∈ new, task.isToken = true := by
  obtain ⟨hcancel, _, hcheckout, hreload⟩ := hcond
  cases hgo with
  | missed hstate hst => exact absurd (hcheckout _ rfl hstate).1 hst
  | cancelledPopped | cancelledUnack => cases hcancel
  | lost he =>
    have hsome := isSome_loadMessage (hreload _ rfl)
    rw [he] at hsome
    cases hsome
  | refused | expired | handed | late | reloaded => exact ⟨_, Multiset.mem_singleton_self _, rfl⟩
  | acked | failed | timedOut => exact ⟨_, Multiset.mem_cons_self _ _, rfl⟩
  | finishedTimedOut | returned => cases hold

/-- A message that is stored in full reaches the handler. -/
theorem received_token {h : MessageHash} (hget : s.db.hgetall id = some h)
    (hstored : s.IsStored id) :
    ∃ task ∈ s.received id (checkoutWrite (toMillis s.now) h), task.isToken = true := by
  obtain ⟨p, hp⟩ := Option.isSome_iff_exists.1 hstored
  rw [hget] at hp
  have hmessage : (checkoutWrite (toMillis s.now) h).message = some p := hp
  unfold System.received Codec.decodeEnvelope
  rw [hmessage]
  exact ⟨_, Multiset.mem_singleton_self _, rfl⟩

theorem countP_proceed {old : Task} {new : Multiset Task} (hmem : (c, old) ∈ s.tasks)
    (hid : ∀ task ∈ new, task.id = old.id)
    (hkeeps : old.isToken = true → ∃ task ∈ new, task.isToken = true) :
    s.tasks.countP (System.Covers c' id) ≤ (s.proceed c old new).countP (System.Covers c' id) := by
  have hcount := countP_erase_add (System.Covers c' id) hmem
  unfold System.proceed
  rw [Multiset.countP_add, ← hcount]
  refine Nat.add_le_add_left ?_ _
  split
  · rename_i hcovers
    obtain ⟨rfl, rfl, htoken⟩ := hcovers
    obtain ⟨task, htask, htoken⟩ := hkeeps htoken
    exact Multiset.countP_pos.2
      ⟨(_, task), Multiset.mem_map_of_mem _ htask, rfl, hid task htask, htoken⟩
  · exact Nat.zero_le _

/-- The tasks of a batch cover its messages. -/
theorem countP_batch {β : Type} (f : β → ConsumerId × Task) (key : β → MessageId)
    (hf : ∀ b, (f b).1 = c ∧ (f b).2.id = key b ∧ (f b).2.isToken = true) (batch : List β) :
    Multiset.countP (System.Covers c' id) (batch.map f : List (ConsumerId × Task)) =
      if c' = c then (batch.map key).count id else 0 := by
  have hcovers : ∀ b, System.Covers c' id (f b) ↔ c' = c ∧ key b = id := by
    intro b
    obtain ⟨hc, hkey, htoken⟩ := hf b
    simp [System.Covers, hc, hkey, htoken, eq_comm]
  rw [Multiset.coe_countP, List.countP_map, List.count, List.countP_map]
  by_cases hc : c' = c
  · rw [if_pos hc]
    refine List.countP_congr fun b _ => ?_
    have := hcovers b
    simp_all
  · rw [if_neg hc, List.countP_eq_zero]
    intro b _
    simp [hcovers, hc]

/-- A step that leaves the processing lists alone. -/
private theorem Covered.of_same (h : s.Covered) (hlists : SameProcessing s.db s'.db)
    (hcrashed : s'.crashed = s.crashed)
    (htasks : ∀ c id, s.tasks.countP (System.Covers c id) ≤ s'.tasks.countP (System.Covers c id)) :
    s'.Covered := by
  intro c id hc
  rw [hlists c]
  exact (h c id (hcrashed ▸ hc)).trans (htasks c id)

/-- A step that takes a batch out of a processing list together with its tasks. -/
private theorem Covered.of_withdraws (h : s.Covered) {ids : List MessageId}
    (hlists : Withdraws c ids s.db s'.db) (hcrashed : s'.crashed = s.crashed)
    (htasks : ∀ c' id, s.tasks.countP (System.Covers c' id) -
      (if c' = c then ids.count id else 0) ≤ s'.tasks.countP (System.Covers c' id)) :
    s'.Covered := by
  intro c' id hc'
  have hle := h c' id (hcrashed ▸ hc')
  have htasks := htasks c' id
  rw [hlists c']
  by_cases hc : c' = c
  · subst hc
    rw [if_pos rfl, List.count_diff]
    rw [if_pos rfl] at htasks
    omega
  · rw [if_neg hc]
    rw [if_neg hc] at htasks
    omega

/-- A step that meets the condition keeps the processing lists covered. -/
theorem Step.covered (h : Step s a s') (hs : Sane type s) (hcond : s.KeepsCovered a)
    (hcov : s.Covered) : s'.Covered := by
  have hsame : ∀ {db' : Keyspace} {nextId : MessageId} {log : List Event},
      SameProcessing s.db db' →
      System.Covered { s with db := db', nextId := nextId, log := log } :=
    fun hlists => Covered.of_same hcov hlists rfl fun _ _ => le_rfl
  have hlists := h.sameProcessing hs
  cases h with
  | task hmem hgo =>
    exact Covered.of_same hcov (fun _ => rfl) rfl fun c id =>
      countP_proceed hmem (hgo.id_eq hs) (hgo.keeps_token hcond)
  | @crash c =>
    intro c' id hc'
    obtain ⟨hne, hlive⟩ := not_or.1 (List.mem_cons.not.1 hc')
    refine (hcov c' id hlive).trans_eq ?_
    rw [Multiset.countP_filter]
    refine Multiset.countP_congr rfl fun task _ => ?_
    exact propext ⟨fun hcovers => ⟨hcovers, hcovers.1.trans_ne hne⟩, And.left⟩
  | fetch | load | tick | configure => exact hcov
  | @pop c group type' id db' hc htype hpop =>
    intro c' id' hc'
    have hle := hcov c' id' hc'
    dsimp only
    rw [pop_processing hpop c', Multiset.countP_cons]
    by_cases hc : c' = c
    · subst hc
      rw [if_pos rfl, List.count_cons]
      by_cases hid : id = id'
      · subst hid
        rw [if_pos (beq_self_eq_true id), if_pos ⟨rfl, rfl, rfl⟩]
        exact Nat.succ_le_succ hle
      · rw [if_neg (by simpa using hid)]
        exact hle.trans (Nat.le_add_right _ _)
    · rw [if_neg hc]
      exact hle.trans (Nat.le_add_right _ _)
  | checkout hmem hstate hget hst hdb =>
    subst hdb
    refine Covered.of_same hcov (fun _ => rfl) rfl fun c id =>
      countP_proceed hmem (fun task htask => ?_) fun _ => ?_
    · obtain ⟨e, rfl, hid, _⟩ := hs.received hget task htask
      exact hid
    · exact received_token hget (hcond.2.2.1 _ rfl hstate).2
  | @acknowledge c batch t run htasks ht hrun =>
    subst hrun
    have hbatch := fun c' id => @countP_batch c c' id _ (fun b : MessageId × Nat =>
      (c, Task.acking b.1 b.2)) Prod.fst (fun _ => ⟨rfl, rfl, rfl⟩) batch
    by_cases hacc : s.db.accepts = true
    · refine Covered.of_withdraws hcov (acknowledgeMessage_withdraws _ _ hacc) rfl
        fun c' id => ?_
      rw [Multiset.countP_add, Multiset.countP_sub htasks, System.ackTasks, hbatch]
      exact Nat.le_add_right _ _
    · have hacc : s.db.accepts = false := by simpa using hacc
      obtain ⟨r, hr⟩ := @acknowledgeMessage_reply_refused c (toMillis t) (batch.map Prod.fst)
        s.db s.cfg hacc
      have hfailed := fun c' id => @countP_batch c c' id _ (fun b : MessageId × Nat =>
        (c, Task.ackFailed b.1 b.2 (causeOfRefusal r))) Prod.fst (fun _ => ⟨rfl, rfl, rfl⟩) batch
      refine Covered.of_same hcov ?_ rfl fun c' id => ?_
      · dsimp only
        rw [acknowledgeMessage_refused _ _ _ hacc]
        exact fun _ => rfl
      · rw [Multiset.countP_add, Multiset.countP_sub htasks, hr, System.ackTasks, hbatch,
          System.ackAftermath, hfailed]
        exact Nat.le_add_of_sub_le le_rfl
  | @unacknowledge c batch t htasks ht =>
    refine Covered.of_withdraws hcov (s.unackBatch_withdraws c batch t (hcond.2.1 rfl)) rfl
      fun c' id => ?_
    rw [Multiset.countP_sub htasks, System.unackTasks, @countP_batch c c' id _
      (fun b : Envelope × Option Nat × UnackCause => (c, Task.unacking b.1 b.2.1 b.2.2))
      (fun b => b.1.id) (fun _ => ⟨rfl, rfl, rfl⟩) batch]
  | @reap c batch t hload ht =>
    by_cases hacc : s.db.accepts = true
    · exact Covered.of_withdraws hcov (s.unackBatch_withdraws c _ t hacc) rfl
        fun c' id => Nat.sub_le _ _
    · refine hsame fun c' => ?_
      rw [System.unackBatch, unacknowledgeMessage_refused _ _ _ _ (by simpa using hacc)]
  | _ => exact hsame (hlists rfl)

end Cover

/-- The message is deleted between its pop and its checkout, which then finds nothing. -/
def deletedBeforeCheckout : List Action :=
  [.produce promptMessage none, .pop 7 none, .load .deleter 0,
    .delete none none [.early promptMessage 0 .pending 0], .checkout 7 0 none]

/-- The queue is stopped while the handler runs, and the unacknowledgement is refused. -/
def stoppedBeforeUnack : List Action :=
  [.produce promptMessage none, .pop 7 none, .checkout 7 0 none,
    .consume 7 (.early promptMessage 0 .processing 1) 1,
    .finish 7 (.early promptMessage 0 .processing 1) 1 0 false,
    .returned 7 (.early promptMessage 0 .processing 1) 1 0, .setState .stopped none none,
    .unacknowledge 7 [(.early promptMessage 0 .processing 1, some 1, .unacknowledged)] 0]

/-- The consumer is shut down between the pop and the checkout. -/
def cancelledBeforeCheckout : List Action :=
  [.produce promptMessage none, .pop 7 none, .cancel 7 (.popped 0 none)]

open BufferedExample in
/-- The acknowledgement of message 1 is added between the copying and the emptying of the
buffer by the timer. -/
def addedDuringFlush : List BufferedAction :=
  [.act (.produce promptMessage none), .act (.produce promptMessage none)] ++
    handled promptMessage true 0 ++
      [.buffer (.fire ⟨7, false, 0⟩), .buffer (.copy ⟨7, false, 0⟩)] ++
      handled promptMessage true 1 ++ [.buffer (.cut ⟨7, false, 0⟩ [.acking 0 1]),
        .send ⟨7, false, 0⟩ [.acking 0 1] 0]

/-- The identifier stays in the processing list of the live consumer, which does nothing
any more. -/
theorem strands_message :
    (Run.exec System.step (System.created {} .fifo [] 0) deletedBeforeCheckout).map (fun s =>
        (s.db.lists (.processing 7), s.crashed, s.tasks)) = some ([0], [], 0) ∧
      (Run.exec System.step (System.created {} .fifo [] 0) stoppedBeforeUnack).map (fun s =>
        (s.db.lists (.processing 7), s.crashed, s.tasks)) = some ([0], [], 0) ∧
      (Run.exec System.step (System.created {} .fifo [] 0) cancelledBeforeCheckout).map (fun s =>
        (s.db.lists (.processing 7), s.crashed, s.tasks)) = some ([0], [], 0) ∧
      (Run.exec Buffered.step (.created {} .fifo [] 0 10) addedDuringFlush).map (fun s =>
        (s.sys.db.lists (.processing 7), s.sys.crashed, s.sys.tasks, s.batchers.held.card)) =
          some ([1], [], 0, 0) := by
  refine ⟨?_, ?_, ?_, ?_⟩ <;> decide

/-- In every state that is reached by steps that meet the condition, a message is in the
processing list of a live consumer only while a `Dequeue` call, a handler call or a
settlement of that consumer concerns it. -/
theorem processing_concerned (cfg : Config) (type : QueueType) (groups : List GroupId)
    (now : Nanos) (batchSize : Nat) (as : List BufferedAction) (s : Buffered)
    (halong : Run.Along Buffered.step (Buffered.Meets System.KeepsCovered)
      (.created cfg type groups now batchSize) as)
    (hrun : (Buffered.created cfg type groups now batchSize).Runs as s) (c : ConsumerId)
    (hc : c ∉ s.sys.crashed) (id : MessageId) (hid : id ∈ s.sys.db.lists (.processing c)) :
    ∃ task, (c, task) ∈ s.sys.tasks ∧ task.id = id ∧ task.isToken = true := by
  obtain ⟨bs, halong, hrun⟩ := Buffered.refines halong hrun
  have h := Run.invariant_along (P := fun s => Sane type s ∧ s.Covered)
    (fun s a s' ⟨hs, hcov⟩ hcond hstep =>
      have hstep := Step.of_step hstep
      ⟨hs.step hstep, hstep.covered hs hcond hcov⟩)
    ⟨Sane.created cfg type groups now, fun _ _ _ => Nat.zero_le _⟩ halong hrun
  have hpos := (List.count_pos_iff.2 hid).trans_le (h.2 c id hc)
  obtain ⟨⟨_, task⟩, hmem, rfl, hcovers⟩ := Multiset.countP_pos.1 hpos
  exact ⟨task, hmem, hcovers⟩

/-- The queue is stopped for a while: the consumer is about to give the popped message back
when the queue runs again. -/
def stoppedForAWhile : List BufferedAction :=
  List.map .act [.produce promptMessage none, .pop 7 none, .setState .stopped none none,
    .checkout 7 0 none, .setState .active none none]

theorem processing_concerned_stoppedForAWhile :
    ∃ s, (Buffered.created {} .fifo [] 0 10).Runs stoppedForAWhile s ∧
      ∃ task, (7, task) ∈ s.sys.tasks ∧ task.id = 0 ∧ task.isToken = true := by
  have hsome : (Run.exec Buffered.step (.created {} .fifo [] 0 10) stoppedForAWhile).map
      (fun s => (s.sys.crashed, s.sys.db.lists (.processing 7))) = some ([], [0]) := by decide
  obtain ⟨s, hs, heq⟩ := Option.map_eq_some_iff.1 hsome
  obtain ⟨hcrashed, hlist⟩ := Prod.mk.inj heq
  exact ⟨s, hs, processing_concerned _ _ _ _ _ _ s (by decide) hs 7 (by simp [hcrashed]) 0
    (by simp [hlist])⟩

end RedisSmq
