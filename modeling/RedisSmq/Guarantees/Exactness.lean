import RedisSmq.Guarantees.Conservation
import RedisSmq.Track.Follow

/-!
# Exact counters

A status counter should be the number of stored messages with that status. A script
that moves a message changes the counters that it expects to concern the message, so
the counters stay exact as long as a message has the status that its container stands
for. The processing lists are the exception: a message that was popped and not checked
out yet is there with the status pending, and an unacknowledgement takes it from the
processing counter all the same.
-/

namespace RedisSmq

variable {type : QueueType} {s s' : System} {a : Action}

/-- Every message is in the place that goes with its status. -/
abbrev Located (type : QueueType) (s : System) : Prop :=
  Tracked type (fun _ => True) (fun _ p t => Legal type p.consumerGroupId t.life) s

namespace Located

theorem step (h : Located type s) (hstep : Step s a s') (hplace : s.ReschedulesInPlace a) :
    Located type s' :=
  Tracked.step h (legal_invariant ⟨True, True, True, True⟩ type _) (fun m _ _ _ =>
    .of_conduct hplace (.inl trivial) (.inl trivial) (.inl trivial) (.inl trivial) m) hstep

theorem legal (h : Located type s) {m : MessageId} {group : Option GroupId}
    (hm : ∃ p, s.origin m = some p ∧ group = p.consumerGroupId) :
    ∃ x, At s.db m x ∧ Legal type group x := by
  obtain ⟨p, hp, rfl⟩ := hm
  exact h.track m p hp trivial

/-- An accepted settlement finds the messages of its consumer to be processing. -/
theorem settled (h : Located type s) (hset : s.SettlesProcessing a) {c : ConsumerId}
    {ids : List MessageId} (ha : a.settles = some (c, ids))
    (hids : ∀ id ∈ ids, (s.origin id).isSome = true) (hacc : s.db.accepts = true) :
    ∀ id ∈ ids, ∃ x, At s.db id x ∧ (x.heldBy c → x.status = some .processing) := by
  intro id hid
  obtain ⟨p, hp⟩ := Option.isSome_iff_exists.1 (hids id hid)
  obtain ⟨x, hx, _⟩ := h.track id p hp trivial
  refine ⟨x, hx, fun hheld => ?_⟩
  rw [← hx.status_eq]
  exact hset (c, ids) ha hacc id hid ((hx.mem_list rfl).2 hheld)

end Located

private theorem exact_unackBatch (h : Located type s) (hset : s.SettlesProcessing a)
    {c : ConsumerId} {batch : List (Envelope × Option Nat × UnackCause)} (t : Nanos)
    (ha : a.settles = some (c, batch.map fun b => b.1.id))
    (hbatch : ∀ b ∈ batch, (s.origin b.1.id).isSome = true) (hexact : s.db.Exact) :
    (s.unackBatch c batch t).1.Exact := by
  refine unacknowledgeMessage_exact (fun hacc arg harg => ?_) hexact
  obtain ⟨b, hb, rfl⟩ := List.mem_map.1 harg
  refine h.settled hset ha (fun id hid => ?_) hacc b.1.id (List.mem_map.2 ⟨b, hb, rfl⟩)
  obtain ⟨b, hb, rfl⟩ := List.mem_map.1 hid
  exact hbatch b hb

/-- A step that meets the condition keeps the counters exact. -/
theorem Step.exact (h : Step s a s') (hloc : Located type s) (hset : s.SettlesProcessing a)
    (hbal : s.db.Balanced) (hexact : s.db.Exact) : s'.db.Exact := by
  have hs := hloc.sane
  have hnew : ∀ {m}, s.nextId ≤ m → At s.db m ⟨none, none⟩ := fun hm =>
    hs.blank _ (hs.fresh _ hm)
  cases h with
  | task | crash | fetch | load | tick | configure => exact hexact
  | setState => exact (setQueueState_books _ _ _ _).exact hexact
  | saveGroup => exact (SameBooks.groups s.db _).exact hexact
  | deleteGroup => exact (deleteConsumerGroup_books hs.type_eq _ _).exact hexact
  | expire => exact (SameBooks.setList s.db _ _).exact hexact
  | @produce m group db' hm hdb' =>
    subst hdb'
    refine (publishMessage_posted (PublishArgs.coherent_prepared s _ _)).exact ?_ hexact
    exact (hnew (s.prepared_id m group).ge).status_eq
  | pop hc htype hpop => exact (pop_books hpop).exact hexact
  | checkout hmem hstate hget hst hdb' =>
    subst hdb'
    exact (checkout_posted _ hget hst).exact trivial hexact
  | @acknowledge c batch t run htasks ht hrun =>
    subst hrun
    refine acknowledgeMessage_exact (hloc.settled hset rfl fun id hid => ?_) hexact
    obtain ⟨b, hb, rfl⟩ := List.mem_map.1 hid
    exact (hs.tasks c (.acking b.1 b.2)
      (Multiset.mem_of_le htasks (Multiset.mem_coe.2 (List.mem_map_of_mem hb)))).1
  | @unacknowledge c batch t htasks ht =>
    exact exact_unackBatch hloc hset t rfl (fun b hb => (hs.tasks c (.unacking b.1 b.2.1 b.2.2)
      (Multiset.mem_of_le htasks (Multiset.mem_coe.2 (List.mem_map_of_mem hb)))).1) hexact
  | @reap c batch t hload ht =>
    refine exact_unackBatch hloc hset t (by simp [Action.settles, Function.comp_def])
      (fun b hb => ?_) hexact
    obtain ⟨e, he, rfl⟩ := List.mem_map.1 hb
    exact (hs.loaded _ e (hload e he)).origin_isSome
  | requeueImmediate hload =>
    exact requeueImmediate_exact hs.type_eq (hs.requeueArgs_fit hload)
      (fun b hb => hloc.legal (hs.requeueArgs_group hload b hb)) hexact
  | requeueDelayed hload =>
    exact requeueDelayed_exact hs.type_eq (hs.requeueArgs_fit hload)
      (fun b hb => hloc.legal (hs.requeueArgs_group hload b hb)) hexact
  | @publishScheduled group batch t db' hload hgroup hnodup ht hdb' =>
    subst hdb'
    refine publishScheduled_exact hs.type_eq (scheduledArgs_copies hs hload).1
      (by rw [System.scheduledArgs, ScheduledArg.map_id_ofBatch]; exact hnodup)
      (ScheduledArg.nodup_copyIds batch) (coherent_scheduledArgs hs hload) (fun m hm => ?_)
      (fun b hb => hloc.legal (scheduledArgs_group hs hload b hb)) hexact
    obtain ⟨hle, hne⟩ := scheduledArgs_new hs hload m hm
    exact ⟨hnew hle, hne⟩
  | delete hload hgroup hdb' =>
    subst hdb'
    exact deleteMessage_exact _ _ _ hbal hexact
  | @requeueMessage e t arg db' hload hstatus ht harg hdb' =>
    subst hdb'
    rw [requeueMessage_moves _ s.db (Keyspace.isSome_queue_of_queueType? hs.type_eq)]
    have hchild := PublishArgs.coherent_requeued s.cfg t s.nextId e
    rw [← harg] at hchild
    obtain ⟨mid, hmid, hend⟩ := @copyMove_posted s.db _ hchild
    refine hend.exact trivial (hmid.exact ?_ hexact)
    rw [harg]
    exact (hnew le_rfl).status_eq

/-- The steps that keep the counters exact: a settlement finds the messages that it takes
out of a processing list to be processing, and a periodic message goes back into the
schedule only if it is still there. -/
def System.KeepsCounters (s : System) (a : Action) : Prop :=
  s.SettlesProcessing a ∧ s.ReschedulesInPlace a
  deriving Decidable

/-- A run in which the counters go wrong: the reaper recovers a message from a consumer
that crashed between its pop and its checkout. -/
def crashBeforeCheckout : List Action :=
  [.produce promptMessage none, .pop 7 none, .crash 7, .fetch (.reaper 7), .load (.reaper 7) 0,
    .reap 7 [.early promptMessage 0 .pending 0] 0]

/-- The processing counter is negative after such a crash, and the pending counter is one
although no message is pending. -/
theorem counters_after_crashBeforeCheckout :
    (Run.exec System.step (System.created {} .fifo [] 0) crashBeforeCheckout).map (fun s =>
      (s.db.counter .processing, s.db.statusCount .processing, s.db.counter .pending,
        s.db.statusCount .pending)) = some (-1, 0, 1, 0) := by
  decide

/-- Steps that meet the condition keep every message in its place and the counters exact. -/
theorem exact_of_runs {cfg : Config} {groups : List GroupId} {now : Nanos} {as : List Action}
    (halong : Run.Along System.step System.KeepsCounters (System.created cfg type groups now) as)
    (hrun : (System.created cfg type groups now).Runs as s) : Located type s ∧ s.db.Exact := by
  have hinit : (Keyspace.created type groups).Balanced ∧ (Keyspace.created type groups).Exact :=
    ⟨Keyspace.balanced_created type groups, Keyspace.exact_created type groups⟩
  have h := Run.invariant_along (P := fun s => Located type s ∧ s.db.Balanced ∧ s.db.Exact)
    (fun s a s' ⟨hloc, hbal, hexact⟩ hcond hstep =>
      have hstep := Step.of_step hstep
      ⟨hloc.step hstep hcond.2, hstep.balanced hloc.sane hbal,
        hstep.exact hloc hcond.1 hbal hexact⟩)
    ⟨Tracked.created cfg groups now, hinit⟩ halong hrun
  exact ⟨h.1, h.2.2⟩

/-- The status counters are exact, and so never negative, in every state that is reached
by steps that meet the condition. -/
theorem counter_eq_statusCount (cfg : Config) (type : QueueType) (groups : List GroupId)
    (now : Nanos) (as : List Action) (s : System)
    (halong : Run.Along System.step System.KeepsCounters (System.created cfg type groups now) as)
    (hrun : (System.created cfg type groups now).Runs as s) (st : Status) (c : Counter)
    (hc : counterOf st = some c) : s.db.counter c = s.db.statusCount st ∧ 0 ≤ s.db.counter c := by
  have hexact := (exact_of_runs halong hrun).2 st c hc
  exact ⟨hexact, hexact ▸ Int.natCast_nonneg _⟩

/-- A run that keeps the counters exact: the consumer crashes after its checkout. -/
def crashAfterCheckout : List Action :=
  [.produce promptMessage none, .pop 7 none, .checkout 7 0 none, .crash 7, .fetch (.reaper 7),
    .load (.reaper 7) 0, .reap 7 [.early promptMessage 0 .processing 1] 0]

theorem counter_eq_statusCount_crashAfterCheckout :
    ∃ s, (System.created {} .fifo [] 0).Runs crashAfterCheckout s ∧
      s.db.counter .requeued = s.db.statusCount .unackRequeuing ∧ 0 ≤ s.db.counter .requeued := by
  have hsome : (Run.exec System.step (System.created {} .fifo [] 0)
      crashAfterCheckout).isSome = true := by decide
  obtain ⟨s, hs⟩ := Option.isSome_iff_exists.1 hsome
  exact ⟨s, hs, counter_eq_statusCount _ _ _ _ _ s (by decide) hs _ _ rfl⟩

end RedisSmq
