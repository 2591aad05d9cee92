import RedisSmq.Track.Exclusive

/-!
# Exclusive delivery

`checkout-message` looks at the status of a message and not at the processing list of
the consumer. A consumer that is only slow may be reaped between its pop and its
checkout; the message is then requeued under its hands, and its checkout succeeds
nevertheless. Without such settlements deliveries are exclusive.
-/

namespace RedisSmq

/-- The steps that keep deliveries exclusive: no message is settled while its consumer is
about to check it out, and a periodic message goes back into the schedule only if it is
still there. -/
def System.KeepsExclusive (s : System) (a : Action) : Prop :=
  s.SettlesNotPopped a ∧ s.ReschedulesInPlace a
  deriving Decidable

/-- The consumer 7 is slow. It is reaped after its pop, and its message is requeued. It
checks the message out although the message is back in the pending list. The consumer 8
pops the message and cannot check it out; when it is reaped, the message is requeued and
delivered to the consumer 9, while the handler of the consumer 7 is still running. -/
def slowConsumer : List Action :=
  [.produce promptMessage none, .pop 7 none,
    .fetch (.reaper 7), .load (.reaper 7) 0, .reap 7 [.early promptMessage 0 .pending 0] 0,
    .fetch .requeuer, .load .requeuer 0,
    .requeueImmediate [.early promptMessage 0 .unackRequeuing 0] 0, .checkout 7 0 none,
    .consume 7 (.early promptMessage 0 .processing 1) 1, .pop 8 none, .checkout 8 0 none,
    .fetch (.reaper 8), .load (.reaper 8) 0, .reap 8 [.early promptMessage 0 .processing 1] 0,
    .fetch .requeuer, .load .requeuer 0,
    .requeueImmediate [.early promptMessage 0 .unackRequeuing 1] 0, .pop 9 none, .checkout 9 0 none,
    .consume 9 (.early promptMessage 0 .processing 2) 2]

/-- A checkout succeeds without the message, and two handlers run for the same message. -/
theorem slowConsumer_overlaps :
    (Run.exec System.step (System.created {} .fifo [] 0) slowConsumer).map (fun s =>
      (decide (.checkedOut 7 0 false ∈ s.log), openDeliveries 0 s.log,
        decide ((7, .handling (.early promptMessage 0 .processing 1) 1 0 false) ∈ s.tasks),
        decide ((9, .handling (.early promptMessage 0 .processing 2) 2 0 false) ∈ s.tasks))) =
      some (true, [9, 7], true, true) := by
  decide

/-- A checkout succeeds only for a consumer that has the message in its processing list,
and a message has at most one delivery that is not settled, in every state that is reached
by steps that meet the condition. -/
theorem delivery_exclusive (cfg : Config) (type : QueueType) (groups : List GroupId) (now : Nanos)
    (as : List Action) (s : System)
    (halong : Run.Along System.step System.KeepsExclusive (System.created cfg type groups now) as)
    (hrun : (System.created cfg type groups now).Runs as s) (m : MessageId) :
    (∀ c held, .checkedOut c m held ∈ s.log → held = true) ∧
      (openDeliveries m s.log).length ≤ 1 := by
  have h := Run.invariant_along
    (P := Tracked type (fun _ => True) (Track.Exclusive type))
    (fun s a s' h hcond hstep =>
      h.step (Track.exclusive_invariant (d := ⟨True, True, False, True⟩) id type _) (fun m _ _ _ =>
        .of_conduct hcond.2 (.inl trivial) (.inl trivial) (.inr hcond.1) (.inl trivial) m)
        (.of_step hstep))
    (Tracked.created cfg groups now) halong hrun
  rw [← openDeliveries_filter]
  have hmem : ∀ c held, .checkedOut c m held ∈ s.log →
      .checkedOut c m held ∈ s.log.filter (Event.tells m) := fun c held hev =>
    List.mem_filter.2 ⟨hev, by simp [Event.tells]⟩
  cases hp : s.origin m with
  | none =>
      rw [h.sane.filter_tells hp] at hmem ⊢
      exact ⟨fun c held hev => absurd (hmem c held hev) List.not_mem_nil, Nat.zero_le 1⟩
  | some p =>
      obtain ⟨x, _, hx⟩ := h.track m p hp trivial
      refine ⟨fun c held hev => hx.held c held (hmem c held hev), ?_⟩
      have hopened : (openDeliveries m (s.track m x).log).length ≤ 1 := by
        rcases hx.opened with ⟨_, c, _, hlog⟩ | ⟨_, hlog⟩ <;> simp [hlog]
      exact hopened

/-- A message whose first delivery fails is delivered a second time. -/
def redelivery : List Action :=
  [.produce promptMessage none, .pop 7 none, .checkout 7 0 none,
    .consume 7 (.early promptMessage 0 .processing 1) 1,
    .finish 7 (.early promptMessage 0 .processing 1) 1 0 false,
    .unacknowledge 7 [(.early promptMessage 0 .processing 1, some 1, .unacknowledged)] 0,
    .fetch .requeuer, .load .requeuer 0,
    .requeueImmediate [.early promptMessage 0 .unackRequeuing 1] 0, .pop 8 none, .checkout 8 0 none]

theorem delivery_exclusive_redelivery :
    ∃ s, (System.created {} .fifo [] 0).Runs redelivery s ∧
      (∀ c held, .checkedOut c 0 held ∈ s.log → held = true) ∧
        (openDeliveries 0 s.log).length ≤ 1 := by
  have hsome : (Run.exec System.step (System.created {} .fifo [] 0) redelivery).isSome = true := by
    decide
  obtain ⟨s, hs⟩ := Option.isSome_iff_exists.1 hsome
  exact ⟨s, hs, delivery_exclusive _ _ _ _ _ s (by decide) hs 0⟩

end RedisSmq
