import RedisSmq.Consumers.Buffered
import RedisSmq.Track.Owned

/-!
# No lost and no duplicated message

A message that is not periodic and has no consume timeout is in at most one container of
the queue, whatever its producers, consumers and workers do, however outdated the copies
are that they act on. While it is not settled it is in the container of its status. It is
assumed that a reaper is right about the death of a consumer, and that the timer of a batcher
does not flush while others use the batcher: an unacknowledgement that is sent twice takes
the message from a consumer that has popped it again and not checked it out yet.
-/

namespace RedisSmq

/-- The message is neither periodic nor limited in the time of its processing. -/
def Params.IsPlain (p : Params) : Prop := p.isPeriodic = false ∧ p.consumeTimeout = 0

section Plain

variable {type : QueueType} {s s' : System} {a : Action} {m : MessageId} {p : Params}

private theorem message_of_copy {e : Envelope} (he : s.Copy e) (hid : e.id = m)
    (hp : s.origin m = some p) : ∃ opts t, e.message = Codec.rebuildMessage opts t p := by
  obtain ⟨p', opts, t, hp', hmessage, _⟩ := he
  rw [hid, hp] at hp'
  cases hp'
  exact ⟨opts, t, hmessage⟩

/-- A message that is not periodic never goes back into the schedule. -/
theorem Step.reschedules_aperiodic (h : Step s a s') (hs : Sane type s) (hp : s.origin m = some p)
    (haperiodic : p.isPeriodic = false) (group : Option GroupId) (batch : List Envelope)
    (t : Nanos) (ha : a = .publishScheduled group batch t) :
    ∀ arg ∈ s.scheduledArgs batch t, arg.id = m → s.db.ReschedulesInPlace arg := by
  intro arg harg hid hnext _
  subst ha
  have hload : s.hasLoaded .scheduler batch := by
    cases h with
    | task hmem hgo => cases hgo
    | publishScheduled hload => exact hload
  obtain ⟨e, he, i, _, _, rfl⟩ := ScheduledArg.mem_ofBatch harg
  obtain ⟨⟨nextAt, child⟩, hnext⟩ := Option.isSome_iff_exists.1 hnext
  obtain ⟨opts, t', hmessage⟩ := message_of_copy (hs.loaded _ e (hload e he)) hid hp
  have hperiodic := (ScheduledArg.next_ofEnvelope hnext).1
  rw [Envelope.isPeriodic, hmessage] at hperiodic
  exact absurd (haperiodic.symm.trans hperiodic) (by decide)

/-- A plain message never goes back into the schedule, and no timer is set for it. -/
theorem Step.obeys_plain (h : Step s a s') (hs : Sane type s) (hp : s.origin m = some p)
    (hplain : p.IsPlain) (hreaps : s.ReapsCrashed a) : Obeys ⟨False, False, True, True⟩ m s a where
  reschedules := h.reschedules_aperiodic hs hp hplain.1
  late c e k started _ hmem htimeout hid := by
    obtain ⟨opts, t', hmessage⟩ :=
      message_of_copy ((hs.tasks c _ hmem).2 e rfl) hid hp
    have hzero : e.message.consumeTimeout = ofMillis 0 := by
      rw [hmessage, ← hplain.2]
      rfl
    exact absurd htimeout.1 (by rw [hzero]; decide)
  reaps c ha := by
    subst ha
    exact .inr (hreaps c rfl)
  settles _ _ _ _ _ _ := .inl trivial
  deletes _ _ _ _ _ := .inl trivial

end Plain

/-- The containers in which a message with the status can be. -/
def Status.IsContainer (type : QueueType) (group : Option GroupId) : Status → Slot → Prop
  | .scheduled, p => p = .zset .scheduled
  | .pending, p => p = pendingSlot type group ∨ ∃ c, p = .list (.processing c)
  | .processing, p => ∃ c, p = .list (.processing c)
  | .unackRequeuing, p => p = .list .requeued
  | .unackDelaying, p => p = .zset .delayed
  | .new, _ | .acknowledged, _ | .deadLettered, _ => False

/-- A message that is not settled is in a container of its status. -/
theorem Legal.isContainer {type : QueueType} {group : Option GroupId} {x : Life} {st : Status}
    (h : Legal type group x) (hstrict : x.Strict) (hst : x.status = some st)
    (hopen : st ≠ .acknowledged ∧ st ≠ .deadLettered) :
    ∃ p, x.place = some p ∧ st.IsContainer type group p := by
  cases h with
  | gone | orphaned => cases hst
  | settled hfinal =>
    rcases hfinal with hfinal | hfinal
    · exact absurd (Option.some.inj (hst.symm.trans hfinal)) hopen.1
    · exact absurd (Option.some.inj (hst.symm.trans hfinal)) hopen.2
  | held c hheld =>
    rcases hheld with hheld | hheld
    all_goals
      obtain rfl := Option.some.inj (hst.symm.trans hheld)
      refine ⟨_, rfl, ?_⟩
    · exact .inr ⟨c, rfl⟩
    · exact ⟨c, rfl⟩
  | waiting hwaiting =>
    rcases hwaiting with hwaiting | hwaiting
    · obtain rfl := Option.some.inj (hst.symm.trans hwaiting)
      exact ⟨_, rfl, .inl rfl⟩
    · obtain ⟨c, hc⟩ := hstrict hwaiting
      exact absurd (Option.some.inj hc) (pendingSlot_ne_processing type group c)
  | requeued h | delayed h | scheduled h =>
    obtain rfl := Option.some.inj (hst.symm.trans h)
    exact ⟨_, rfl, rfl⟩

section Located

variable (type : QueueType) (s : System) (m : MessageId) (p : Params)

/-- The message is in at most one container of the queue, and there once. As long as it is
not settled, it is in exactly one, which is a container of its status. -/
def System.Locates : Prop :=
  (∀ q : Slot, q.holds = true → s.db.occ q m ≤ 1) ∧
    (∀ q r : Slot, q.holds = true → r.holds = true → 0 < s.db.occ q m → 0 < s.db.occ r m →
      q = r) ∧
    ∀ st, s.db.status m = some st → st ≠ .acknowledged ∧ st ≠ .deadLettered →
      ∃ q : Slot, q.holds = true ∧ st.IsContainer type p.consumerGroupId q ∧ s.db.occ q m = 1

end Located

/-- A plain message is where it belongs. -/
theorem locates_of_runs (cfg : Config) (type : QueueType) (groups : List GroupId) (now : Nanos)
    (as : List Action) (s : System)
    (halong : Run.Along System.step System.ReapsCrashed (System.created cfg type groups now) as)
    (hrun : (System.created cfg type groups now).Runs as s) (m : MessageId) (p : Params)
    (hp : s.origin m = some p) (hplain : p.IsPlain) : s.Locates type m p := by
  have h := Run.invariant_along (P := Tracked type Params.IsPlain (Track.Owned type))
    (fun s a s' h hcond hstep =>
      have hstep := Step.of_step hstep
      h.step (Track.owned_invariant type _)
        (fun m p hp hplain => hstep.obeys_plain h.sane hp hplain hcond) hstep)
    (Tracked.created cfg groups now) halong hrun
  obtain ⟨x, hx, hown⟩ := h.track m p hp hplain
  have hplace : ∀ q : Slot, q.holds = true → 0 < s.db.occ q m → x.place = some q := by
    intro q hq hocc
    rw [hx.occ q hq] at hocc
    by_contra hne
    simp [hne] at hocc
  refine ⟨fun q hq => ?_, fun q r hq hr hocc hocc' => ?_, fun st hst hopen => ?_⟩
  · rw [hx.occ q hq]
    split <;> omega
  · exact Option.some.inj ((hplace q hq hocc).symm.trans (hplace r hr hocc'))
  · obtain ⟨q, hq, hcontainer⟩ :=
      hown.legal.isContainer hown.strict (hx.status_eq.symm.trans hst) hopen
    have hholds := hown.legal.holds q hq
    exact ⟨q, hholds, hcontainer, (hx.occ q hholds).trans (if_pos hq)⟩

open BufferedExample in
/-- The stale unacknowledgement takes message 0 from the consumer that has popped it again.
It is requeued once more, and then the checkout succeeds. -/
def poppedAndTaken : List BufferedAction :=
  copiedAndSent promptMessage ++ [.act (.pop 7 none)] ++ sentAgain promptMessage ++
    requeued promptMessage 1 ++ [.act (.checkout 7 0 none)]

/-- The message has the status of a message that is processed and is in the pending list. -/
theorem processing_message_pending :
    (Run.exec Buffered.step (.created {} .fifo [] 0 2) poppedAndTaken).map (fun s =>
      (s.sys.db.status 0, s.sys.db.lists (.processing 7), s.sys.db.lists (.pending none))) =
        some (some .processing, [], [0]) := by
  decide

/-- In every state that is reached by steps that meet the condition, a plain message is where
it belongs. -/
theorem message_located (cfg : Config) (type : QueueType) (groups : List GroupId) (now : Nanos)
    (batchSize : Nat) (as : List BufferedAction) (s : Buffered)
    (halong : Run.Along Buffered.step (Buffered.Meets System.ReapsCrashed)
      (.created cfg type groups now batchSize) as)
    (hrun : (Buffered.created cfg type groups now batchSize).Runs as s) (m : MessageId)
    (p : Params) (hp : s.sys.origin m = some p) (hplain : p.IsPlain) :
    s.sys.Locates type m p := by
  obtain ⟨bs, halong, hrun⟩ := Buffered.refines halong hrun
  exact locates_of_runs cfg type groups now bs s.sys halong hrun m p hp hplain

/-- A message whose failure the timer has flushed is in the requeued list. -/
theorem message_located_flushedByTimer :
    ∃ s, (Buffered.created {} .fifo [] 0 2).Runs (BufferedExample.flushedByTimer promptMessage) s ∧
      s.sys.db.status 0 = some .unackRequeuing ∧
      ∃ q : Slot, q.holds = true ∧ Status.IsContainer .fifo none .unackRequeuing q ∧
        s.sys.db.occ q 0 = 1 := by
  have hsome : (Run.exec Buffered.step (.created {} .fifo [] 0 2)
      (BufferedExample.flushedByTimer promptMessage)).map
        (fun s => (s.sys.origin 0, s.sys.db.status 0)) =
          some (some (promptMessage.toParams none), some .unackRequeuing) := by decide
  obtain ⟨s, hs, heq⟩ := Option.map_eq_some_iff.1 hsome
  obtain ⟨horigin, hstatus⟩ := Prod.mk.inj heq
  exact ⟨s, hs, hstatus, (message_located _ _ _ _ _ _ s (by decide) hs 0 _ horigin
    ⟨by decide, by decide⟩).2.2 _ hstatus (by decide)⟩

end RedisSmq
