import RedisSmq.Guarantees.Location

/-!
# Bounded deliveries

A message is retried only if the copy that an unacknowledgement is based on shows fewer
attempts than the threshold. Copies are as old as the delivery that they belong to, so the
copy that decides on a message being processed shows the attempts that are stored. Hence a
message that can still be delivered has been delivered less often than it may be. A copy that
is sent twice, because the timer of the batcher flushes without the mutex, decides on a later
delivery and shows fewer attempts.
-/

namespace RedisSmq

/-- A copy shows the attempts and the threshold of what is stored. -/
theorem MessageHash.Decodes.attempts_eq {h : MessageHash} {e : Envelope} (he : h.Decodes e) :
    ∃ p, h.message = some p ∧ e.state.attempts = h.attempts.getD 0 ∧
      e.message.retryThreshold = p.retryThreshold := by
  obtain ⟨opts, uuid, now, he⟩ := he
  obtain ⟨p, hp, rfl⟩ := Option.map_eq_some_iff.1 he
  exact ⟨p, hp, rfl, rfl⟩

namespace Track

/-- The copy shows how often the message was delivered and how often it may be. -/
def Shows (t : Track) (m : MessageId) (p : Params) (e : Envelope) : Prop :=
  e.state.attempts = t.deliveries m ∧ e.message.retryThreshold = p.retryThreshold

/-- The attempts are counted, and the copies on which retries are decided show them. -/
structure Counted (m : MessageId) (p : Params) (t : Track) : Prop where
  message : ∀ h, t.life.hash = some h → h.message = none ∨
    h.message = some p ∧ h.attempts = some (t.deliveries m)
  stored : .deleted m ∉ t.log → ∃ h, t.life.hash = some h ∧ h.message = some p
  bound : t.deliveries m ≤ max 1 p.retryThreshold
  room : t.life.place ≠ none → t.life.status ≠ some .processing →
    t.deliveries m < max 1 p.retryThreshold
  copies : ∀ task ∈ t.tasks, task.2.isToken = true → ∀ e, task.2.copy? = some e → t.Shows m p e
  reaped : ∀ r ∈ t.reaps, t.life.heldBy r.1 → t.life.status = some .processing → t.Shows m p r.2

namespace Counted

variable {type : QueueType} {m : MessageId} {p : Params} {t t' : Track} {d : Discipline}

section

variable (h : t.Counted m p)
variable {c : ConsumerId}

include h

theorem shows_of_decodes {hash : MessageHash} {e : Envelope}
    (hx : t.life.hash = some hash) (he : hash.Decodes e) : t.Shows m p e := by
  obtain ⟨p', hp', hattempts, hthreshold⟩ := he.attempts_eq
  rcases h.message hash hx with hnone | ⟨hsome, hcount⟩
  · cases hnone.symm.trans hp'
  · cases hsome.symm.trans hp'
    exact ⟨by rw [hattempts, hcount]; rfl, hthreshold⟩

private theorem task (hd : ¬d.firesLate) {old : Task}
    {new : Multiset Task} (hmem : (c, old) ∈ t.tasks) (hgo : Continues d t.life old new) :
    Counted m p { t with tasks := t.tasks.erase (c, old) + new.map fun task => (c, task) } := by
  refine ⟨h.message, h.stored, h.bound, h.room, fun task htask htoken e he => ?_, h.reaped⟩
  rcases mem_erase_add htask with htask | ⟨hc, hnew⟩
  · exact h.copies task htask htoken e he
  rcases hgo.copy _ hnew e he with hold | ⟨hash, hx, hdecodes⟩
  · exact h.copies _ hmem (hgo.isToken_old hd hnew htoken) e hold
  · exact h.shows_of_decodes hx hdecodes

private theorem work (hlegal : Legal type p.consumerGroupId t.life) {x' : Life}
    (hx : t.life.Worked type p.consumerGroupId x') : Counted m p { t with life := x' } := by
  rcases hx.hash hlegal with rfl | ⟨old, new, hold, hnew, hmessage, hattempts⟩
  · exact ⟨h.message, h.stored, h.bound, h.room, h.copies, h.reaped⟩
  refine ⟨fun hash hhash => ?_, fun hlog => ⟨new, hnew, ?_⟩, h.bound, fun hplace hst => ?_,
    h.copies,
    fun r hr hheld hst => ?_⟩
  · cases hnew.symm.trans hhash
    rw [hmessage, hattempts]
    exact h.message old hold
  · obtain ⟨hash, hhash, hp⟩ := h.stored hlog
    cases hold.symm.trans hhash
    exact hmessage.trans hp
  · rcases hx.place with ⟨hplace', hst'⟩ | ⟨hshelved, _⟩
    · exact h.room (hplace' ▸ hplace) (hst' ▸ hst)
    · refine h.room (by rcases hshelved with h | h | h <;> simp [h]) ?_
      rcases hlegal.shelved hshelved with h | h | h <;> simp [h]
  · rcases hx.place with ⟨hplace', hst'⟩ | ⟨_, hheld', _⟩
    · exact h.reaped r hr (hplace'.symm.trans hheld) (hst'.symm.trans hst)
    · exact absurd hheld (hheld' r.1)

private theorem delete (n : Nat) (hn : 0 < n ↔ t.life.hash.isSome = true ∧
      (t.life.delete type p.consumerGroupId).hash.isNone = true) :
    Counted m p
      { t with
        life := t.life.delete type p.consumerGroupId
        log := List.replicate n (.deleted m) ++ t.log } := by
  have hlog := deliveries_deleted m n t.log
  have hshows : ∀ e, t.Shows m p e →
      Shows { t with
        life := t.life.delete type p.consumerGroupId
        log := List.replicate n (.deleted m) ++ t.log } m p e :=
    fun e he => ⟨he.1.trans hlog.symm, he.2⟩
  rcases t.life.delete_cases type p.consumerGroupId with heq | ⟨hst, hhash, hplace, _⟩
  · rw [heq] at hshows ⊢
    refine ⟨?_, fun hno => h.stored fun hmem => hno (List.mem_append.2 (.inr hmem)), ?_, ?_,
      fun task htask htoken e he => hshows e (h.copies task htask htoken e he),
      fun r hr hheld hst => hshows r.2 (h.reaped r hr hheld hst)⟩
    all_goals simp only [deliveries, hlog]
    · exact h.message
    · exact h.bound
    · exact h.room
  · refine ⟨fun hash hsome => ?_, fun hno => ?_, ?_, fun hplace' _ => ?_,
      fun task htask htoken e he => hshows e (h.copies task htask htoken e he),
      fun r hr _ hproc => ?_⟩
    · cases hhash.symm.trans hsome
    · exfalso
      obtain ⟨hash, hsome, _⟩ := h.stored fun hmem => hno (List.mem_append.2 (.inr hmem))
      have hpos := hn.2 ⟨by simp [hsome], by simp [hhash]⟩
      exact hno (List.mem_append.2 (.inl (List.mem_replicate.2 ⟨hpos.ne', rfl⟩)))
    · simp only [deliveries, hlog]
      exact h.bound
    · simp only [deliveries, hlog]
      exact h.room (fun hnone => hplace' (hplace hnone)) hst
    · simp [Life.status, hhash] at hproc

private theorem pop (hown : t.Owned type m p) {group : Option GroupId} (hc : c ∉ t.crashed)
    (hplace : t.life.place = some (pendingSlot type group)) :
    Counted m p
      { t with
        life := ⟨some (.list (.processing c)), t.life.hash⟩
        tasks := (c, .popped m group) ::ₘ t.tasks } := by
  refine ⟨h.message, h.stored, h.bound, fun _ hst => h.room (by simp [hplace]) hst,
    fun task htask htoken e he => ?_, fun r hr hheld _ => ?_⟩
  · rcases Multiset.mem_cons.1 htask with rfl | htask
    · cases he
    · exact h.copies task htask htoken e he
  · have heq : c = r.1 := by simpa [Life.heldBy] using hheld
    exact absurd (hown.reaps r hr) (heq ▸ hc)

private theorem checkout (hown : t.Owned type m p)
    {group : Option GroupId} {hash : MessageHash} {new : Multiset Task} (now : Millis)
    (hmem : (c, Task.popped m group) ∈ t.tasks) (hx : t.life.hash = some hash)
    (hst : hash.status = some .pending)
    (hnew : new = 0 ∨ ∃ e, new = {.received e (t.deliveries m + 1)} ∧
      (checkoutWrite now hash).Decodes e) :
    Counted m p
      { t with
        life := ⟨t.life.place, some (checkoutWrite now hash)⟩
        tasks := t.tasks.erase (c, .popped m group) + new.map fun task => (c, task)
        log := .checkedOut c m (decide (t.life.heldBy c)) :: t.log } := by
  have hheld : t.life.heldBy c := (hown.claims _ hmem rfl).1
  have hnone := hown.not_token_erase hmem rfl
  have hdeliveries : (Event.checkedOut c m (decide (t.life.heldBy c)) :: t.log).countP
      (Event.isCheckout m) = t.deliveries m + 1 := by
    simp [Event.isCheckout, deliveries]
  have hmessage : ∀ {q}, hash.message = some q →
      q = p ∧ (checkoutWrite now hash).attempts = some (t.deliveries m + 1) := by
    intro q hq
    rcases h.message hash hx with hno | ⟨hp, hattempts⟩
    · cases hno.symm.trans hq
    · cases hp.symm.trans hq
      exact ⟨rfl, by simp [checkoutWrite, hattempts]⟩
  refine ⟨fun hash' hhash' => ?_, fun hlog => ?_, ?_, fun _ hno => absurd rfl hno,
    fun task htask htoken e he => ?_, fun r hr hheld' _ => ?_⟩
  · cases hhash'
    cases hq : hash.message with
    | none => exact .inl hq
    | some q =>
      obtain ⟨rfl, hattempts⟩ := hmessage hq
      exact .inr ⟨hq, hattempts.trans (congrArg some hdeliveries.symm)⟩
  · obtain ⟨hash', hhash', hp⟩ := h.stored fun hmem => hlog (List.mem_cons_of_mem _ hmem)
    cases hx.symm.trans hhash'
    exact ⟨_, rfl, hp⟩
  · rw [deliveries, hdeliveries]
    refine h.room (by rw [hheld]; simp) ?_
    simp [Life.status, hx, hst]
  · rcases Multiset.mem_add.1 htask with htask | htask
    · simp [hnone task htask] at htoken
    obtain ⟨next, hnext, rfl⟩ := Multiset.mem_map.1 htask
    rcases hnew with rfl | ⟨e', rfl, hdecodes⟩
    · exact absurd hnext (Multiset.notMem_zero _)
    rw [Multiset.mem_singleton.1 hnext] at he
    cases he
    obtain ⟨q, hq, hattempts, hthreshold⟩ := hdecodes.attempts_eq
    obtain ⟨rfl, hcount⟩ := hmessage hq
    exact ⟨by rw [hattempts, hcount]; exact hdeliveries.symm, hthreshold⟩
  · have heq : c = r.1 := by simpa using hheld.symm.trans hheld'
    exact absurd (hown.reaps r hr) (heq ▸ hown.alive _ hmem)

/-- A retry is based on a copy that shows the attempts, or on a message that has not been
checked out. -/
private theorem room_unacknowledge (hheld : t.life.heldBy c)
    {cfg : Config} {now : Nanos} {e : Envelope} {cause : UnackCause}
    (hshows : t.life.status = some .processing → t.Shows m p e)
    (hplace : (t.life.unacknowledge c (UnackArg.ofEnvelope cfg now e cause)).place ≠ none) :
    t.deliveries m < max 1 p.retryThreshold := by
  by_cases hst : t.life.status = some .processing
  · obtain ⟨hattempts, hthreshold⟩ := hshows hst
    have hretries : (resolveUnackAction now e cause).retries = true := by
      by_contra hno
      rw [Life.unacknowledge, if_pos hheld] at hplace
      exact hplace (if_neg hno)
    have hlt := (retries_resolveUnackAction.1 hretries).2.2.2
    rw [hattempts, hthreshold] at hlt
    exact Nat.lt_of_lt_of_le hlt (Nat.le_max_right _ _)
  · exact h.room (by rw [hheld]; simp) hst

/-- A settlement that took effect. -/
private theorem of_settled {x' : Life} {tasks : Multiset (ConsumerId × Task)}
    {f : MessageHash → MessageHash} (hx' : x'.hash = t.life.write f)
    (hf : ∀ hash, (f hash).message = hash.message ∧ (f hash).attempts = hash.attempts)
    (hheld : ∀ c, ¬x'.heldBy c) (hroom : x'.place ≠ none → t.deliveries m < max 1 p.retryThreshold)
    (htasks : ∀ task ∈ tasks, ∀ e, task.2.copy? = some e → task ∈ t.tasks)
    {k : Option Nat} {unacked : Option (Nanos × Bool)} :
    Counted m p
      { t with
        life := x', tasks := tasks
        log := [.settled c m k (t.delivery m) unacked] ++ t.log } := by
  have hdeliveries : ([Event.settled c m k (t.delivery m) unacked] ++ t.log).countP
      (Event.isCheckout m) = t.deliveries m :=
    List.countP_cons_of_neg (by simp [Event.isCheckout])
  refine ⟨fun hash hhash => ?_, fun hlog => ?_, ?_, fun hplace _ => ?_,
    fun task htask htoken e he => ?_, fun r _ hheld' _ => absurd hheld' (hheld r.1)⟩
  · cases hx : t.life.hash with
    | none =>
      left
      cases hhash.symm.trans (hx'.trans (by rw [Life.write, hx]))
      exact (hf {}).1
    | some old =>
      cases hhash.symm.trans (hx'.trans (Life.write_of_hash hx))
      rw [(hf old).1, (hf old).2, deliveries, hdeliveries]
      exact h.message old hx
  · obtain ⟨old, hx, hp⟩ := h.stored fun hmem => hlog (List.mem_append.2 (.inr hmem))
    exact ⟨f old, hx'.trans (Life.write_of_hash hx), (hf old).1.trans hp⟩
  · rw [deliveries, hdeliveries]
    exact h.bound
  · rw [deliveries, hdeliveries]
    exact hroom hplace
  · obtain ⟨hattempts, hthreshold⟩ := h.copies task (htasks task htask e he) htoken e he
    exact ⟨hattempts.trans hdeliveries.symm, hthreshold⟩

private theorem settle (hown : t.Owned type m p)
    {settled failed : Multiset (ConsumerId × Task)} {x' : Life} {events : List Event}
    (hle : settled ≤ t.tasks)
    (hfailed : ∀ task ∈ failed, ∃ k cause, task = (c, Task.ackFailed m k cause) ∧
      (c, Task.acking m k) ∈ settled) (heffect : t.Settlement d m c settled x' events) :
    Counted m p
      { t with life := x', tasks := t.tasks - settled + failed, log := events ++ t.log } := by
  have htasks : ∀ task ∈ t.tasks - settled + failed, ∀ e, task.2.copy? = some e →
      task ∈ t.tasks := by
    intro task htask e he
    rcases Multiset.mem_add.1 htask with htask | htask
    · exact Multiset.mem_of_le (Multiset.sub_le_self _ _) htask
    · obtain ⟨k, cause, rfl, _⟩ := hfailed task htask
      cases he
  have hfree := heffect.released
  cases heffect with
  | idle =>
    exact ⟨h.message, h.stored, h.bound, h.room, fun task htask htoken e he =>
      h.copies task (htasks task htask e he) htoken e he, h.reaped⟩
  | acknowledge now hmem hheld hopen =>
    refine h.of_settled (f := acknowledgeWrite now) ?_ (fun _ => ⟨rfl, rfl⟩)
      (hfree.resolve_left (by simp)).2.1 (fun hplace => ?_) htasks
    · rw [Life.acknowledge, if_pos hheld]
    · rw [Life.acknowledge, if_pos hheld] at hplace
      exact absurd rfl hplace
  | @unacknowledge e k cause _ cfg now hmem hheld hopen =>
    refine h.of_settled (f := (UnackArg.ofEnvelope cfg now e cause).write) ?_
      (fun _ => ⟨rfl, rfl⟩) (hfree.resolve_left (by simp)).2.1
      (h.room_unacknowledge hheld fun hst => ?_) htasks
    · rw [Life.unacknowledge, if_pos hheld]
    have hmem' := Multiset.mem_of_le hle hmem
    cases k with
    | none => exact absurd hst (hown.claims _ hmem' rfl).2
    | some k => exact h.copies _ hmem' rfl e rfl
  | @reap e _ cfg now hmem hheld hopen =>
    refine h.of_settled (f := (UnackArg.ofEnvelope cfg now e .offlineConsumer).write) ?_
      (fun _ => ⟨rfl, rfl⟩) (hfree.resolve_left (by simp)).2.1
      (h.room_unacknowledge hheld (h.reaped _ hmem hheld)) htasks
    rw [Life.unacknowledge, if_pos hheld]

theorem step (hown : t.Owned type m p) (hd : ¬d.firesLate)
    (hstep : t.Step d type p.consumerGroupId m t') : t'.Counted m p := by
  cases hstep with
  | idle => exact h
  | task hmem hgo => exact h.task hd hmem hgo
  | crash c =>
    exact ⟨h.message, h.stored, h.bound, h.room, fun task htask =>
      h.copies task (Multiset.mem_filter.1 htask).1, h.reaped⟩
  | load hc hx he =>
    refine ⟨h.message, h.stored, h.bound, h.room, h.copies, fun r hr hheld hst => ?_⟩
    rcases Set.mem_insert_iff.1 hr with rfl | hr
    · exact h.shows_of_decodes hx he
    · exact h.reaped r hr hheld hst
  | work hx => exact h.work hown.legal hx
  | delete n hdelayed hplace hn => exact h.delete n hn
  | pop hc hp => exact h.pop hown hc hp
  | checkout now hmem hx hst hnew => exact h.checkout hown now hmem hx hst hnew
  | settle hle hsettled hcard hfailed heffect => exact h.settle hown hle hfailed heffect

end

end Counted

theorem counted_invariant (type : QueueType) (Selected : Params → Prop) :
    TrackInvariant ⟨False, False, True, True⟩ type Selected
      fun m p t => t.Owned type m p ∧ t.Counted m p where
  legal h := h.1.legal
  born crashed _ h := by
    obtain ⟨hash, hx, _, hp, hattempts⟩ := h.hash
    refine ⟨.born crashed h, fun hash' hx' => ?_, fun _ => ⟨hash, hx, hp⟩, Nat.zero_le _,
      fun _ _ => Nat.lt_of_lt_of_le Nat.zero_lt_one (Nat.le_max_left _ _),
      fun _ hmem => absurd hmem (Multiset.notMem_zero _),
      fun _ hmem => absurd hmem (Set.notMem_empty _)⟩
    cases hx.symm.trans hx'
    exact .inr ⟨hp, hattempts⟩
  step _ h hstep := ⟨h.1.step id id hstep, h.2.step h.1 id hstep⟩

end Track

/-- A plain message is delivered at most as often as its retry threshold says, and at most
once if that is zero. Unless the message was deleted, its stored number of attempts is the
number of its deliveries. -/
theorem deliveries_le_of_runs (cfg : Config) (type : QueueType) (groups : List GroupId)
    (now : Nanos)
    (as : List Action) (s : System)
    (halong : Run.Along System.step System.ReapsCrashed (System.created cfg type groups now) as)
    (hrun : (System.created cfg type groups now).Runs as s) (m : MessageId) (p : Params)
    (hp : s.origin m = some p) (hplain : p.IsPlain) :
    s.deliveries m ≤ max 1 p.retryThreshold ∧
      (.deleted m ∉ s.log →
        ∃ h, s.db.hgetall m = some h ∧ h.attempts = some (s.deliveries m)) := by
  have h := Run.invariant_along
    (P := Tracked type Params.IsPlain fun m p t => t.Owned type m p ∧ t.Counted m p)
    (fun s a s' h hcond hstep =>
      have hstep := Step.of_step hstep
      h.step (Track.counted_invariant type _)
        (fun m p hp hplain => hstep.obeys_plain h.sane hp hplain hcond) hstep)
    (Tracked.created cfg groups now) halong hrun
  obtain ⟨x, hx, _, hcounted⟩ := h.track m p hp hplain
  have hdeliveries : (s.track m x).deliveries m = s.deliveries m := System.deliveries_track
  refine ⟨hdeliveries ▸ hcounted.bound, fun hlog => ?_⟩
  obtain ⟨hash, hhash, hmessage⟩ := hcounted.stored fun hmem => hlog (List.mem_filter.1 hmem).1
  refine ⟨hash, hx.hash.trans hhash, ?_⟩
  rcases hcounted.message hash hhash with hnone | ⟨_, hattempts⟩
  · cases hnone.symm.trans hmessage
  · exact hattempts.trans (congrArg some hdeliveries)

/-- A message that may be delivered twice. -/
def twiceMessage : Producible := { promptMessage with retryThreshold := 2 }

open BufferedExample in
/-- The stale unacknowledgement ends the second delivery. -/
def deliveredAgain : List BufferedAction :=
  copiedAndSent twiceMessage ++ [.act (.pop 7 none), .act (.checkout 7 0 none)] ++
    sentAgain twiceMessage ++ requeued twiceMessage 2 ++
      [.act (.pop 7 none), .act (.checkout 7 0 none)]

/-- The message is delivered three times. -/
theorem delivered_past_threshold :
    (Run.exec Buffered.step (.created {} .fifo [] 0 2) deliveredAgain).map (fun s =>
      ((s.sys.origin 0).map Params.retryThreshold, s.sys.deliveries 0)) = some (some 2, 3) := by
  decide

/-- In every state that is reached by steps that meet the condition, a plain message has been
delivered at most as often as its retry threshold says, and at most once if that is zero.
Unless it was deleted, its stored number of attempts is the number of its deliveries. -/
theorem deliveries_bounded (cfg : Config) (type : QueueType) (groups : List GroupId) (now : Nanos)
    (batchSize : Nat) (as : List BufferedAction) (s : Buffered)
    (halong : Run.Along Buffered.step (Buffered.Meets System.ReapsCrashed)
      (.created cfg type groups now batchSize) as)
    (hrun : (Buffered.created cfg type groups now batchSize).Runs as s) (m : MessageId)
    (p : Params) (hp : s.sys.origin m = some p) (hplain : p.IsPlain) :
    s.sys.deliveries m ≤ max 1 p.retryThreshold ∧
      (.deleted m ∉ s.sys.log →
        ∃ h, s.sys.db.hgetall m = some h ∧ h.attempts = some (s.sys.deliveries m)) := by
  obtain ⟨bs, halong, hrun⟩ := Buffered.refines halong hrun
  exact deliveries_le_of_runs cfg type groups now bs s.sys halong hrun m p hp hplain

/-- The handler fails on a message that may be delivered once. -/
def lastAttempt : List BufferedAction :=
  BufferedExample.flushedByTimer { promptMessage with retryThreshold := 1 }

theorem deliveries_bounded_lastAttempt :
    ∃ s, (Buffered.created {} .fifo [] 0 2).Runs lastAttempt s ∧
      s.sys.db.status 0 = some .deadLettered ∧ s.sys.deliveries 0 ≤ max 1 1 ∧
        (.deleted 0 ∉ s.sys.log →
          ∃ h, s.sys.db.hgetall 0 = some h ∧ h.attempts = some (s.sys.deliveries 0)) := by
  have hsome : (Run.exec Buffered.step (.created {} .fifo [] 0 2) lastAttempt).map
      (fun s => (s.sys.origin 0, s.sys.db.status 0)) =
        some (some (Producible.toParams { promptMessage with retryThreshold := 1 } none),
          some .deadLettered) := by decide
  obtain ⟨s, hs, heq⟩ := Option.map_eq_some_iff.1 hsome
  obtain ⟨horigin, hstatus⟩ := Prod.mk.inj heq
  exact ⟨s, hs, hstatus, deliveries_bounded _ _ _ _ _ _ s (by decide) hs 0 _ horigin
    ⟨by decide, by decide⟩⟩

end RedisSmq
