import RedisSmq.Consumers.Buffered
import RedisSmq.Track.Owned

/-!
# A settlement belongs to one delivery

Acknowledgements and unacknowledgements name a message and not a delivery of it. That is
enough as long as each delivery is settled by at most one goroutine. `Consume` settles a
message when the handler returns, and its timer settles the message when it fires; each
looks whether the other one came first, but the timer may fire after the handler path has
looked. The second settlement then meets whatever delivery is going on when it runs. And the
timer of a batcher, which flushes without the mutex, may send a settlement a second time.
-/

namespace RedisSmq

/-- The settlement took effect during the given delivery of the message. -/
def Event.endsDelivery (m : MessageId) (k : Nat) : Event → Bool
  | .settled _ id _ (some d) _ => decide (id = m ∧ d = k)
  | _ => false

theorem Event.tells_of_endsDelivery {m : MessageId} {k : Nat} {ev : Event}
    (h : ev.endsDelivery m k = true) : ev.tells m = true := by
  rcases ev with _ | _ | _ | _ | ⟨c, id, issued, _ | during, unacked⟩ | _
  case settled.some => exact decide_eq_true (of_decide_eq_true h).1
  all_goals cases h

namespace Track

/-- Settlements took effect during the deliveries that they were issued for, and no
settlement has ended the delivery that is going on, or a later one. -/
structure Ledger (m : MessageId) (t : Track) : Prop where
  issued : ∀ c k during unacked, .settled c m (some k) during unacked ∈ t.log → during = some k
  ended : ∀ k, t.log.countP (Event.endsDelivery m k) ≤ 1
  going : t.life.status = some .processing →
    t.log.countP (Event.endsDelivery m (t.deliveries m)) = 0
  later : ∀ k, t.deliveries m < k → t.log.countP (Event.endsDelivery m k) = 0

namespace Ledger

variable {type : QueueType} {m : MessageId} {p : Params} {t t' : Track} {d : Discipline}

/-- A step that tells nothing, after which the message is processed only if it was before. -/
private theorem of_log (h : t.Ledger m) (hlog : t'.log = t.log)
    (hst : t'.life.status = some .processing → t.life.status = some .processing) : t'.Ledger m := by
  refine ⟨?_, ?_, fun hproc => ?_, ?_⟩
  all_goals simp only [deliveries, hlog]
  · exact h.issued
  · exact h.ended
  · exact h.going (hst hproc)
  · exact h.later

private theorem delete (h : t.Ledger m) (n : Nat) :
    Ledger m
      { t with
        life := t.life.delete type p.consumerGroupId
        log := List.replicate n (.deleted m) ++ t.log } := by
  have hcount : ∀ k, (List.replicate n (Event.deleted m) ++ t.log).countP (Event.endsDelivery m k) =
      t.log.countP (Event.endsDelivery m k) := by
    intro k
    rw [List.countP_append, List.countP_replicate]
    simp [Event.endsDelivery]
  have hdeliveries := deliveries_deleted m n t.log
  refine ⟨fun c k during unacked hev => ?_, fun k => ?_, fun hproc => ?_, fun k hk => ?_⟩
  · rcases List.mem_append.1 hev with hev | hev
    · cases List.eq_of_mem_replicate hev
    · exact h.issued c k during unacked hev
  · rw [hcount]
    exact h.ended k
  · have hst : t.life.status = some .processing := by
      rcases t.life.delete_cases type p.consumerGroupId with heq | ⟨_, hhash, _⟩
      · exact heq ▸ hproc
      · simp [Life.status, hhash] at hproc
    simp only [deliveries, hdeliveries, hcount]
    exact h.going hst
  · rw [hcount]
    exact h.later k (by simpa only [deliveries, hdeliveries] using hk)

private theorem checkout (h : t.Ledger m) (x' : Life) (tasks : Multiset (ConsumerId × Task))
    (c : ConsumerId) (held : Bool) :
    Ledger m { t with life := x', tasks := tasks, log := .checkedOut c m held :: t.log } := by
  have hcount : ∀ k, (Event.checkedOut c m held :: t.log).countP (Event.endsDelivery m k) =
      t.log.countP (Event.endsDelivery m k) :=
    fun k => List.countP_cons_of_neg (by simp [Event.endsDelivery])
  have hdeliveries : (Event.checkedOut c m held :: t.log).countP (Event.isCheckout m) =
      t.log.countP (Event.isCheckout m) + 1 := by
    simp [Event.isCheckout]
  refine ⟨fun c k during unacked hev => ?_, fun k => ?_, fun _ => ?_, fun k hk => ?_⟩
  · exact h.issued c k during unacked ((List.mem_cons.1 hev).resolve_left (by simp))
  · rw [hcount]
    exact h.ended k
  · simp only [deliveries, hdeliveries, hcount]
    exact h.later _ (Nat.lt_succ_self _)
  rw [hcount]
  simp only [deliveries, hdeliveries] at hk
  exact h.later k (Nat.lt_of_succ_lt hk)

/-- The settlement was issued for the delivery that it ends. -/
private theorem issued_settle (hown : t.Owned type m p) {c : ConsumerId}
    {settled : Multiset (ConsumerId × Task)} {x' : Life} {events : List Event}
    (hle : settled ≤ t.tasks) (heffect : t.Settlement d m c settled x' events) :
    ∀ c k during unacked, .settled c m (some k) during unacked ∈ events → during = some k := by
  have hclaim : ∀ {task : Task} {k : Nat}, (c, task) ∈ settled → t.life.heldBy c →
      task.isToken = true → task.delivery = some k → t.delivery m = some k := by
    intro task k hmem hheld htoken hk
    have hclaim := hown.claims _ (Multiset.mem_of_le hle hmem) htoken
    rw [hk] at hclaim
    obtain ⟨_, hst, rfl⟩ := hclaim.resolve_left (by rw [hheld]; simp)
    exact if_pos hst
  intro c' k during unacked hev
  cases heffect with
  | idle => exact absurd hev List.not_mem_nil
  | acknowledge now hmem hheld | unacknowledge cfg now hmem hheld =>
    cases List.mem_singleton.1 hev
    exact hclaim hmem hheld rfl rfl
  | reap => cases List.mem_singleton.1 hev

private theorem settle (h : t.Ledger m) (hown : t.Owned type m p) {c : ConsumerId}
    {settled failed : Multiset (ConsumerId × Task)} {x' : Life} {events : List Event}
    (hle : settled ≤ t.tasks) (heffect : t.Settlement d m c settled x' events) :
    Ledger m
      { t with life := x', tasks := t.tasks - settled + failed, log := events ++ t.log } := by
  have hissued := issued_settle hown hle heffect
  rcases heffect.released with ⟨rfl, rfl⟩ | ⟨_, _, hst, _, k, unacked, rfl⟩
  · exact h.of_log rfl id
  have hdeliveries : (Event.settled c m k (t.delivery m) unacked :: t.log).countP
      (Event.isCheckout m) = t.log.countP (Event.isCheckout m) :=
    List.countP_cons_of_neg (by simp [Event.isCheckout])
  -- Only the delivery that is going on is ended, and it had not been ended before.
  have hcount : ∀ k', (Event.settled c m k (t.delivery m) unacked :: t.log).countP
      (Event.endsDelivery m k') = t.log.countP (Event.endsDelivery m k') ∨
        t.life.status = some .processing ∧ k' = t.deliveries m ∧
          (Event.settled c m k (t.delivery m) unacked :: t.log).countP
            (Event.endsDelivery m k') = 1 := by
    intro k'
    by_cases hends : Event.endsDelivery m k' (.settled c m k (t.delivery m) unacked) = true
    · right
      by_cases hproc : t.life.status = some .processing
      · have hdelivery : t.delivery m = some (t.deliveries m) := if_pos hproc
        rw [hdelivery] at hends ⊢
        obtain rfl : t.deliveries m = k' := by simpa [Event.endsDelivery] using hends
        exact ⟨hproc, rfl, by rw [List.countP_cons_of_pos hends, h.going hproc]⟩
      · have hdelivery : t.delivery m = none := if_neg hproc
        rw [hdelivery] at hends
        cases hends
    · exact .inl (List.countP_cons_of_neg hends)
  refine ⟨fun c' k' during unacked' hev => ?_, fun k' => ?_, fun hproc => absurd hproc hst,
    fun k' hk' => ?_⟩
  · rcases List.mem_append.1 hev with hev | hev
    · exact hissued c' k' during unacked' hev
    · exact h.issued c' k' during unacked' hev
  · rcases hcount k' with heq | ⟨_, _, heq⟩
    · exact heq.trans_le (h.ended k')
    · exact heq.le
  · simp only [deliveries, List.singleton_append, hdeliveries] at hk'
    rcases hcount k' with heq | ⟨_, rfl, _⟩
    · exact heq.trans (h.later k' hk')
    · exact absurd hk' (Nat.lt_irrefl _)

theorem step (h : t.Ledger m) (hown : t.Owned type m p)
    (hstep : t.Step d type p.consumerGroupId m t') : t'.Ledger m := by
  cases hstep with
  | idle => exact h
  | task | crash | load | pop => exact h.of_log rfl id
  | work hx =>
    refine h.of_log rfl fun hproc => ?_
    rcases hx.place with ⟨_, hst⟩ | ⟨_, _, hst⟩
    · exact hst.symm.trans hproc
    · exact absurd hproc hst
  | delete n => exact h.delete n
  | checkout => exact h.checkout _ _ _ _
  | settle hle hsettled hcard hfailed heffect => exact h.settle hown hle heffect

end Ledger

theorem ledger_invariant (type : QueueType) (Selected : Params → Prop) :
    TrackInvariant ⟨False, False, True, True⟩ type Selected
      fun m p t => t.Owned type m p ∧ t.Ledger m where
  legal h := h.1.legal
  born crashed _ h :=
    ⟨.born crashed h, fun _ _ _ _ hev => absurd hev List.not_mem_nil, fun _ => Nat.zero_le 1,
      fun _ => rfl, fun _ _ => rfl⟩
  step _ h hstep := ⟨h.1.step id id hstep, h.2.step h.1 hstep⟩

end Track

/-- The steps that keep settlements with their deliveries: no timer fires late, only
consumers that take no further step are reaped, and a periodic message goes back into the
schedule only if it is still there. -/
def System.KeepsSettlements (s : System) (a : Action) : Prop :=
  a.isLate = false ∧ s.ReapsCrashed a ∧ s.ReschedulesInPlace a
  deriving Decidable

/-- A message that may be processed for one millisecond. -/
def timedMessage : Producible := { promptMessage with consumeTimeout := 1000000 }

/-- The handler of the first delivery fails just before the time is up, and the timer fires
before `Consume` has returned. The message is redelivered to the same consumer before the
unacknowledgement of the timer runs. -/
def lateTimer : List Action :=
  [.produce timedMessage none, .pop 7 none, .checkout 7 0 none,
    .consume 7 (.early timedMessage 0 .processing 1) 1,
    .finish 7 (.early timedMessage 0 .processing 1) 1 0 false, .tick 1000000,
    .lateTimeout 7 (.early timedMessage 0 .processing 1) 1 0,
    .unacknowledge 7 [(.early timedMessage 0 .processing 1, some 1, .unacknowledged)] 0,
    .fetch .requeuer, .load .requeuer 0,
    .requeueImmediate
      [.early { timedMessage with createdAt := 1000000 } 0 .unackRequeuing 1] 1000000,
    .pop 7 none, .checkout 7 0 none,
    .unacknowledge 7 [(.early timedMessage 0 .processing 1, some 1, .timeout)] 1000000]

open BufferedExample in
/-- The failure of the first delivery is sent once more during the second one. -/
def sentTwice : List BufferedAction :=
  copiedAndSent promptMessage ++ [.act (.pop 7 none), .act (.checkout 7 0 none)] ++
    sentAgain promptMessage

/-- The settlement that was issued for the first delivery ends the second one. -/
theorem lateTimer_hits_redelivery :
    (Run.exec System.step (System.created {} .fifo [] 0) lateTimer).map (fun s =>
        decide (.settled 7 0 (some 1) (some 2) (some (1000000, true)) ∈ s.log)) = some true ∧
      (Run.exec Buffered.step (.created {} .fifo [] 0 2) sentTwice).map (fun s =>
        decide (.settled 7 0 (some 1) (some 2) (some (0, true)) ∈ s.sys.log)) = some true := by
  decide

/-- Settlements take effect during the delivery that they were issued for, and at most one
takes effect per delivery, in every state that is reached by steps that meet the
condition. -/
theorem settlement_of_delivery (cfg : Config) (type : QueueType) (groups : List GroupId)
    (now : Nanos) (batchSize : Nat) (as : List BufferedAction) (s : Buffered)
    (halong : Run.Along Buffered.step (Buffered.Meets System.KeepsSettlements)
      (.created cfg type groups now batchSize) as)
    (hrun : (Buffered.created cfg type groups now batchSize).Runs as s) (m : MessageId) :
    (∀ c k during unacked, .settled c m (some k) during unacked ∈ s.sys.log → during = some k) ∧
      ∀ k, s.sys.log.countP (Event.endsDelivery m k) ≤ 1 := by
  obtain ⟨bs, halong, hrun⟩ := Buffered.refines halong hrun
  have h := Run.invariant_along
    (P := Tracked type (fun _ => True) (fun m p t => t.Owned type m p ∧ t.Ledger m))
    (fun s a s' h hcond hstep =>
      h.step (Track.ledger_invariant type _) (fun m _ _ _ =>
        .of_conduct hcond.2.2 (.inr hcond.1) (.inr hcond.2.1) (.inl trivial) (.inl trivial) m)
        (.of_step hstep))
    (Tracked.created cfg groups now) halong hrun
  have hmem : ∀ c k during unacked, .settled c m (some k) during unacked ∈ s.sys.log →
      .settled c m (some k) during unacked ∈ s.sys.log.filter (Event.tells m) :=
    fun c k during unacked hev => List.mem_filter.2 ⟨hev, by simp [Event.tells]⟩
  have hcount : ∀ k, s.sys.log.countP (Event.endsDelivery m k) =
      (s.sys.log.filter (Event.tells m)).countP (Event.endsDelivery m k) := by
    intro k
    rw [List.countP_filter]
    refine List.countP_congr fun ev _ => ?_
    rw [Bool.and_eq_true]
    exact ⟨fun h => ⟨h, Event.tells_of_endsDelivery h⟩, And.left⟩
  simp only [hcount]
  cases hp : s.sys.origin m with
  | none =>
      rw [h.sane.filter_tells hp] at hmem ⊢
      exact ⟨fun c k during unacked hev => absurd (hmem c k during unacked hev) List.not_mem_nil,
        fun k => Nat.zero_le 1⟩
  | some p =>
      obtain ⟨x, _, _, hx⟩ := h.track m p hp trivial
      exact ⟨fun c k during unacked hev =>
          hx.issued c k during unacked (hmem c k during unacked hev),
        hx.ended⟩

/-- The timer fires while the handler runs. -/
def timelyTimer : List BufferedAction :=
  List.map .act [.produce timedMessage none, .pop 7 none, .checkout 7 0 none,
    .consume 7 (.early timedMessage 0 .processing 1) 1, .tick 1000000,
    .timeout 7 (.early timedMessage 0 .processing 1) 1 0,
    .unacknowledge 7 [(.early timedMessage 0 .processing 1, some 1, .timeout)] 1000000,
    .finishTimedOut 7 (.early timedMessage 0 .processing 1) 1 0]

theorem settlement_of_delivery_timelyTimer :
    ∃ s, (Buffered.created {} .fifo [] 0 2).Runs timelyTimer s ∧
      (∀ c k during unacked, .settled c 0 (some k) during unacked ∈ s.sys.log →
        during = some k) ∧
        ∀ k, s.sys.log.countP (Event.endsDelivery 0 k) ≤ 1 := by
  have hsome : (Run.exec Buffered.step (.created {} .fifo [] 0 2) timelyTimer).isSome = true := by
    decide
  obtain ⟨s, hs⟩ := Option.isSome_iff_exists.1 hsome
  exact ⟨s, hs, settlement_of_delivery _ _ _ _ _ _ s (by decide) hs 0⟩

end RedisSmq
