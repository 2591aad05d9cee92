import RedisSmq.Guarantees.Exactness
import RedisSmq.System.Fate
import RedisSmq.System.Logs
import RedisSmq.System.Scores

/-!
# Retry delays

A message with a retry delay that is unacknowledged goes to the requeued list, from there to
the delayed set with the instant at which it is due as its score, and then to its pending
container. Two kinds of workers carry it: they read identifiers, load the messages and run
their scripts later. Neither script looks at the clock. `requeue-delayed` takes a message
whatever its score, and `requeue-immediate` takes the score from its argument. A worker that
acts on what it read before the message was delivered and failed once more therefore puts it
back too early.
-/

namespace RedisSmq

/-- The instant at which the message was unacknowledged with a retry. -/
def Event.retriedAt? (m : MessageId) : Event → Option Nanos
  | .settled _ id _ _ (some (t, true)) => if id = m then some t else none
  | _ => none

namespace Action

/-- The messages that the action takes off the requeued list, and the instant of its
arguments. -/
def requeues : Action → Option (List Envelope × Nanos)
  | .requeueImmediate batch t => some (batch, t)
  | _ => none

/-- The messages that the action takes out of the delayed set. -/
def requeuesDelayed : Action → Option (List Envelope)
  | .requeueDelayed batch _ => some batch
  | _ => none

end Action

namespace System

/-- The instants at which the message was unacknowledged with a retry. -/
def retriesOf (s : System) (m : MessageId) : List Nanos := s.log.filterMap (Event.retriedAt? m)

theorem mem_retriesOf {s : System} {m : MessageId} {t : Nanos} :
    t ∈ s.retriesOf m ↔
      ∃ c issuedFor during, .settled c m issuedFor during (some (t, true)) ∈ s.log := by
  unfold retriesOf
  rw [List.mem_filterMap]
  constructor
  · rintro ⟨ev, hev, heq⟩
    unfold Event.retriedAt? at heq
    split at heq
    · split at heq
      · rename_i hid
        subst hid
        cases heq
        exact ⟨_, _, _, hev⟩
      · cases heq
    · cases heq
  · rintro ⟨c, issuedFor, during, hev⟩
    exact ⟨_, hev, if_pos rfl⟩

variable (s : System) (a : Action)

/-- The immediate requeuer has built its arguments after the last unacknowledgement of the
messages that it delays. -/
def RequeuesAfterFailure : Prop :=
  ∀ x ∈ a.requeues, stateRefusal s.db.operationalState = none → ∀ e ∈ x.1,
    e.id ∈ s.db.lists .requeued → toMillis e.message.retryDelay ≠ 0 →
      ∀ t ∈ s.retriesOf e.id, toMillis t ≤ toMillis x.2
  deriving Decidable

/-- The messages that the delayed requeuer takes are due. -/
def RequeuesDue : Prop :=
  ∀ batch ∈ a.requeuesDelayed, stateRefusal s.db.operationalState = none → ∀ e ∈ batch,
    ∀ entry ∈ (s.db.zsets .delayed).entries, entry.2 = e.id → entry.1 ≤ toMillis s.now
  deriving Decidable

/-- The steps that respect retry delays: the requeuers do not act on what they read before
the last failure of a message, and a periodic message goes back into the schedule only if it
is still there. -/
def RespectsDelays : Prop :=
  s.ReschedulesInPlace a ∧ s.RequeuesAfterFailure a ∧ s.RequeuesDue a
  deriving Decidable

end System

/-! ## Steps -/

section Steps

variable {type : QueueType} {s s' : System} {a : Action} {m : MessageId} {x : Life}

/-- A message is unacknowledged while a consumer holds it. -/
theorem Step.retries (h : Step s a s') (hx : At s.db m x) {t : Nanos} (ht : t ∈ s'.retriesOf m) :
    t ∈ s.retriesOf m ∨ t = s.now ∧ ∃ c, x.heldBy c := by
  obtain ⟨c, issuedFor, during, hev⟩ := System.mem_retriesOf.1 ht
  rcases h.logs hev with hold | hnew
  · exact .inl (System.mem_retriesOf.2 ⟨c, issuedFor, during, hold⟩)
  generalize hevent : Event.settled c m issuedFor during (some (t, true)) = ev at hnew
  cases hnew with
  | unacked hb hmem hheld | reaped he hload hheld =>
    simp only [Event.settled.injEq, Option.some.injEq, Prod.mk.injEq] at hevent
    obtain ⟨rfl, rfl, -, -, rfl, -⟩ := hevent
    exact .inr ⟨rfl, c, (hx.mem_list rfl).1 hheld⟩
  | _ => cases hevent

/-- How a message that is not pending becomes pending. -/
theorem System.Fate.pending {x' : Life} {g : Option GroupId} (h : s.Fate type a m x x')
    (hplace : x'.place = some (pendingSlot type g)) :
    x.place = some (pendingSlot type g) ∨ x.place = some (.zset .scheduled) ∨
      (∃ batch t e, a = .requeueImmediate batch t ∧ s.hasLoaded .requeuer batch ∧ e ∈ batch ∧
        e.id = m ∧ toMillis e.message.retryDelay = 0) ∨
      x.place = some (.zset .delayed) ∧ ∃ batch t e, a = .requeueDelayed batch t ∧
        stateRefusal s.db.operationalState = none ∧ e ∈ batch ∧ e.id = m := by
  cases h with
  | stays | checkout | copied => exact .inl hplace
  | pop => exact absurd (Option.some.inj hplace).symm (pendingSlot_ne_processing type g _)
  | acknowledge =>
    unfold Life.acknowledge at hplace
    split at hplace
    · cases hplace
    · exact .inl hplace
  | unacknowledge =>
    unfold Life.unacknowledge at hplace
    split at hplace
    · dsimp only at hplace
      split at hplace
      · exact absurd (Option.some.inj hplace).symm (pendingSlot_ne_requeued type g)
      · cases hplace
    · exact .inl hplace
  | requeue ha hload hstate he hid =>
    unfold Life.requeue at hplace
    split at hplace
    · split at hplace
      · rename_i hdelay
        exact .inr (.inr (.inl ⟨_, _, _, ha, hload, he, hid, hdelay⟩))
      · exact absurd (Option.some.inj hplace).symm (pendingSlot_ne_delayed type g)
    · exact .inl hplace
  | requeueDelayed ha hstate he hid =>
    unfold Life.requeueDelayed at hplace
    split at hplace
    · rename_i hdelayed
      exact .inr (.inr (.inr ⟨hdelayed, _, _, _, ha, hstate, he, hid⟩))
    · exact .inl hplace
  | fire =>
    unfold Life.fire at hplace
    split at hplace
    · rename_i hscheduled
      exact .inr (.inl hscheduled)
    · exact .inl hplace
  | delete group =>
    rcases Life.delete_place type group x with hnone | hsame
    · rw [hnone] at hplace
      cases hplace
    · exact .inl (hsame.symm.trans hplace)

end Steps

/-! ## Runs -/

/-- Retries are in the past, the score of a delayed message is not before the end of
its delay, and a message in the schedule was never retried. -/
structure Delays (s : System) : Prop where
  past : ∀ m, ∀ t ∈ s.retriesOf m, t ≤ s.now
  delayed : ∀ entry ∈ (s.db.zsets .delayed).entries, ∀ p, s.origin entry.2 = some p →
    ∀ t ∈ s.retriesOf entry.2, toMillis t + p.retryDelay ≤ entry.1
  scheduled : ∀ m ∈ s.db.zsets .scheduled, s.retriesOf m = []

section Runs

variable {type : QueueType} {s s' : System} {a : Action}

theorem Sane.retriesOf_fresh (hs : Sane type s) {m : MessageId} (hm : s.origin m = none) :
    s.retriesOf m = [] := by
  rw [List.eq_nil_iff_forall_not_mem]
  intro t ht
  obtain ⟨c, issuedFor, during, hev⟩ := System.mem_retriesOf.1 ht
  have hsome : (s.origin m).isSome = true := hs.log _ hev
  rw [hm] at hsome
  cases hsome

/-- A published message is somewhere, and another one nowhere. -/
theorem Located.place (h : Located type s) (m : MessageId) : ∃ x, At s.db m x := by
  cases horigin : s.origin m with
  | none => exact ⟨_, h.sane.blank m horigin⟩
  | some p =>
    obtain ⟨x, hx, -⟩ := h.track m p horigin trivial
    exact ⟨x, hx⟩

theorem Step.now_le (h : Step s a s') : s.now ≤ s'.now := by
  cases h with
  | tick => exact Nat.le_add_right _ _
  | _ => exact le_rfl

/-- The retry delay of a copy is that of the message. -/
theorem retryDelay_of_copy {e : Envelope} {p : Params} (he : s.Copy e)
    (hp : s.origin e.id = some p) : toMillis e.message.retryDelay = p.retryDelay := by
  obtain ⟨p', opts, t, hp', hmessage, -⟩ := he
  rw [hp] at hp'
  cases hp'
  rw [hmessage]
  exact Codec.toMillis_ofMillis _

theorem delays_of_step (hstep : Step s a s') (hloc : Located type s)
    (hcond : s.RespectsDelays a) (h : Delays s) : Delays s' where
  past m t ht := by
    obtain ⟨x, hx⟩ := hloc.place m
    refine le_trans ?_ hstep.now_le
    rcases hstep.retries hx ht with hold | ⟨hnow, -⟩
    · exact h.past m t hold
    · exact hnow.le
  delayed entry hentry p hp t ht := by
    obtain ⟨x, hx⟩ := hloc.place entry.2
    -- A message that waits is held by no consumer.
    have hpast : (∀ c, ¬ x.heldBy c) → t ∈ s.retriesOf entry.2 :=
      fun hfree => (hstep.retries hx ht).resolve_right fun hnew => hnew.2.elim hfree
    cases hstep.waits hloc.sane delayed_ne_priority hentry with
    | old hold =>
      have hplace := hx.mem_zset.1 (List.mem_map_of_mem hold)
      have htold := hpast fun c hheld => by cases hheld.symm.trans hplace
      cases horigin : s.origin entry.2 with
      | none =>
        rw [hloc.sane.retriesOf_fresh horigin] at htold
        cases htold
      | some p' =>
        cases (hloc.sane.origin_mono (hloc.sane.sound hstep) horigin).symm.trans hp
        exact h.delayed entry hold p horigin t htold
    | fresh hnone =>
      rcases hstep.retries (hloc.sane.blank _ hnone) ht with htold | ⟨-, c, hheld⟩
      · rw [hloc.sane.retriesOf_fresh hnone] at htold
        cases htold
      · cases hheld
    | @delayed batch t' e hz hload hstate he hmem hdelay heq =>
      subst heq
      have hplace := (hx.mem_list rfl).1 hmem
      have htold := hpast fun c hheld => by cases hheld.symm.trans hplace
      have hcopy := hloc.sane.loaded _ e (hload e he)
      obtain ⟨p', hp'⟩ := Option.isSome_iff_exists.1 hcopy.origin_isSome
      cases (hloc.sane.origin_mono (hloc.sane.sound hstep) hp').symm.trans hp
      rw [← retryDelay_of_copy hcopy hp']
      exact Nat.add_le_add_right (hcond.2.1 (batch, t') rfl hstate e he hmem hdelay t htold) _
    | scheduled hz => cases hz
  scheduled m hm := by
    rw [List.eq_nil_iff_forall_not_mem]
    intro t ht
    have hold : ∀ {x : Life}, At s.db m x → (∀ c, ¬ x.heldBy c) → t ∈ s.retriesOf m :=
      fun hx hfree => (hstep.retries hx ht).resolve_right fun hnew => hnew.2.elim hfree
    cases horigin : s.origin m with
    | none =>
      have hmem := hold (hloc.sane.blank m horigin) fun c hheld => by cases hheld
      rw [hloc.sane.retriesOf_fresh horigin] at hmem
      cases hmem
    | some p =>
      obtain ⟨x, hx, -⟩ := hloc.track m p horigin trivial
      have hin := hstep.mem_scheduled hloc.sane hcond.1 (by simp [horigin]) hm
      have hplace := hx.mem_zset.1 hin
      have hmem := hold hx fun c hheld => by cases hheld.symm.trans hplace
      rw [h.scheduled m hin] at hmem
      cases hmem

/-- A message that comes back into a pending container does so after the end of its delay. -/
theorem due_of_pending (hstep : Step s a s') (hloc : Located type s) (hcond : s.RespectsDelays a)
    (h : Delays s) {m : MessageId} {p : Params} (hp : s.origin m = some p) {g : Option GroupId}
    (hback : s.db.occ (pendingSlot type g) m < s'.db.occ (pendingSlot type g) m) {t : Nanos}
    (ht : t ∈ s.retriesOf m) : toMillis t + p.retryDelay ≤ toMillis s.now := by
  obtain ⟨x, hx, hlegal⟩ := hloc.track m p hp trivial
  obtain ⟨x', hx', hfate⟩ := hstep.fate hloc.sane hp hx hlegal hcond.1
  rw [hx.occ _ (holds_pendingSlot _ _), hx'.occ _ (holds_pendingSlot _ _)] at hback
  have hplace : x'.place = some (pendingSlot type g) := by
    by_contra hne
    rw [if_neg hne] at hback
    exact Nat.not_lt_zero _ hback
  have hpast : toMillis t ≤ toMillis s.now := Nat.div_le_div_right (h.past m t ht)
  rcases hfate.pending hplace with hsame | hscheduled | ⟨batch, t', e, rfl, hload, he, rfl, hzero⟩ |
    ⟨hdelayed, batch, t', e, rfl, hstate, he, rfl⟩
  · rw [if_pos hsame, if_pos hplace] at hback
    exact absurd hback (Nat.lt_irrefl _)
  · rw [h.scheduled m (hx.mem_zset.2 hscheduled)] at ht
    cases ht
  · rw [← retryDelay_of_copy (hloc.sane.loaded _ e (hload e he)) hp, hzero]
    exact hpast
  obtain ⟨entry, hentry, hid⟩ := List.mem_map.1 (hx.mem_zset.2 hdelayed)
  have hdue := hcond.2.2 batch rfl hstate e he entry hentry hid
  rw [← hid] at hp ht
  exact (h.delayed entry hentry p hp t ht).trans hdue

end Runs

/-- A message that is to be retried after a second. -/
def slowMessage : Producible := { promptMessage with retryDelay := 1000000000 }

/-- The message fails at zero. After a second two delayed requeuers find it due and load it,
and the first of them puts it back. -/
def failsOnce : List Action :=
  let e := Envelope.early slowMessage 0 .processing 1
  [.produce slowMessage none, .pop 7 none, .checkout 7 0 none, .consume 7 e 1,
    .finish 7 e 1 0 false, .unacknowledge 7 [(e, some 1, .unacknowledged)] 0,
    .fetch .requeuer, .load .requeuer 0,
    .requeueImmediate [.early slowMessage 0 .unackRequeuing 1] 0, .tick 1000000000,
    .fetch .delayedRequeuer, .load .delayedRequeuer 0,
    .fetch .delayedRequeuer, .load .delayedRequeuer 0,
    .requeueDelayed [.early { slowMessage with createdAt := 1000000000 } 0 .unackDelaying 1]
      1000000000]

/-- The copies of the second delivery, a second after the first one. -/
def secondCopy (status : Status) (unacknowledgedAt : Option Millis) : Envelope :=
  { Envelope.early { slowMessage with createdAt := 1000000000 } 0 status 2 with
    state :=
      { State.new 0 with
        attempts := 2
        lastProcessedAt := some 1000
        lastRetriedAttemptAt := some 1000
        unacknowledgedAt := unacknowledgedAt
        lastUnacknowledgedAt := unacknowledgedAt } }

/-- The message fails again at once, and is delayed for another second. -/
def failsAgain : List Action :=
  let e := secondCopy .processing none
  [.pop 7 none, .checkout 7 0 none, .consume 7 e 2, .finish 7 e 2 1000000000 false,
    .unacknowledge 7 [(e, some 2, .unacknowledged)] 1000000000,
    .fetch .requeuer, .load .requeuer 0,
    .requeueImmediate [secondCopy .unackRequeuing (some 1000)] 1000000000]

/-- The script of the other delayed requeuer. -/
def lateRequeuer : Action :=
  .requeueDelayed [.early { slowMessage with createdAt := 1000000000 } 0 .unackDelaying 1]
    1000000000

/-- The message is pending again at the instant of its second failure. -/
theorem retry_delay_cut_short :
    ∃ s s', (System.created {} .fifo [] 0).Runs (failsOnce ++ failsAgain) s ∧
      s.step lateRequeuer = some s' ∧ s.origin 0 = some (slowMessage.toParams none) ∧
      .settled 7 0 (some 2) (some 2) (some (1000000000, true)) ∈ s.log ∧
      s.db.occ (pendingSlot .fifo none) 0 = 0 ∧ s'.db.occ (pendingSlot .fifo none) 0 = 1 ∧
      toMillis s'.now < toMillis 1000000000 + (slowMessage.toParams none).retryDelay := by
  have hrun : (Run.exec System.step (System.created {} .fifo [] 0)
      (failsOnce ++ failsAgain)).map (fun s =>
        (s.origin 0, decide (.settled 7 0 (some 2) (some 2) (some (1000000000, true)) ∈ s.log),
          s.db.occ (pendingSlot .fifo none) 0, (s.step lateRequeuer).map fun s' =>
            (s'.db.occ (pendingSlot .fifo none) 0, toMillis s'.now))) =
      some (some (slowMessage.toParams none), true, 0, some (1, 1000)) := by decide
  obtain ⟨s, hs, heq⟩ := Option.map_eq_some_iff.1 hrun
  simp only [Prod.mk.injEq, decide_eq_true_eq, Option.map_eq_some_iff] at heq
  obtain ⟨horigin, hlog, hout, s', hs', hin, hnow⟩ := heq
  refine ⟨s, s', hs, hs', horigin, hlog, hout, hin, ?_⟩
  rw [hnow]
  decide

/-- In every run whose steps meet the condition, a step puts a message into a pending
container only if the delays of all its retries are over, in milliseconds, as instants and
delays are stored. -/
theorem retry_delay_respected (cfg : Config) (type : QueueType) (groups : List GroupId)
    (now : Nanos) (as : List Action) (s : System)
    (halong : Run.Along System.step System.RespectsDelays (System.created cfg type groups now) as)
    (hrun : (System.created cfg type groups now).Runs as s) (a : Action) (s' : System)
    (hcond : s.RespectsDelays a) (hstep : s.step a = some s') (m : MessageId) (p : Params)
    (hp : s.origin m = some p) (g : Option GroupId)
    (hback : s.db.occ (pendingSlot type g) m < s'.db.occ (pendingSlot type g) m)
    (c : ConsumerId) (issuedFor during : Option Nat) (t : Nanos)
    (hfailed : .settled c m issuedFor during (some (t, true)) ∈ s.log) :
    toMillis t + p.retryDelay ≤ toMillis s'.now := by
  have hinv := Run.invariant_along (P := fun s => Located type s ∧ Delays s)
    (fun s a s' h hcond hstep => ⟨h.1.step (Step.of_step hstep) hcond.1,
      delays_of_step (Step.of_step hstep) h.1 hcond h.2⟩)
    ⟨Tracked.created cfg groups now, fun _ _ ht => absurd ht List.not_mem_nil,
      fun _ hentry => absurd hentry List.not_mem_nil, fun _ _ => rfl⟩ halong hrun
  have hdue := due_of_pending (Step.of_step hstep) hinv.1 hcond hinv.2 hp hback
    (System.mem_retriesOf.2 ⟨c, issuedFor, during, hfailed⟩)
  exact hdue.trans (Nat.div_le_div_right (Step.of_step hstep).now_le)

theorem retry_delay_respected_failsOnce :
    ∃ s s', (System.created {} .fifo [] 0).Runs failsOnce.dropLast s ∧
      s.step lateRequeuer = some s' ∧
      .settled 7 0 (some 1) (some 1) (some (0, true)) ∈ s.log ∧
      s'.db.occ (pendingSlot .fifo none) 0 = 1 ∧
      toMillis 0 + (slowMessage.toParams none).retryDelay ≤ toMillis s'.now := by
  have hrun : (Run.exec System.step (System.created {} .fifo [] 0) failsOnce.dropLast).map (fun s =>
        (s.origin 0, decide (.settled 7 0 (some 1) (some 1) (some (0, true)) ∈ s.log),
          s.db.occ (pendingSlot .fifo none) 0, decide (s.RespectsDelays lateRequeuer),
          (s.step lateRequeuer).map fun s' => s'.db.occ (pendingSlot .fifo none) 0)) =
      some (some (slowMessage.toParams none), true, 0, true, some 1) := by decide
  obtain ⟨s, hs, heq⟩ := Option.map_eq_some_iff.1 hrun
  simp only [Prod.mk.injEq, decide_eq_true_eq, Option.map_eq_some_iff] at heq
  obtain ⟨horigin, hlog, hout, hcond, s', hs', hin⟩ := heq
  refine ⟨s, s', hs, hs', hlog, hin, ?_⟩
  exact retry_delay_respected {} .fifo [] 0 failsOnce.dropLast s (by decide) hs lateRequeuer s'
    hcond hs' 0 _ horigin none (by rw [hout, hin]; decide) 7 _ _ 0 hlog

end RedisSmq
