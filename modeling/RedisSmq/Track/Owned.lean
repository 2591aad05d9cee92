import RedisSmq.Track.Follow

/-!
# One owner at a time

If timers do not fire late and only crashed consumers are reaped, a message has at most
one goroutine that can settle it. That goroutine belongs to the consumer in whose
processing list the message is, and to the delivery that is going on.
-/

namespace RedisSmq

theorem Task.isToken_of_isSettling {task : Task} (h : task.isSettling = true) :
    task.isToken = true := by
  cases task <;> first | rfl | cases h

namespace Track

/-- What a goroutine of the consumer `c` that can settle the message relies on. A message
that was settled for good is in no container. -/
def Claims (t : Track) (m : MessageId) (c : ConsumerId) : Option Nat → Prop
  | none => t.life.heldBy c ∧ t.life.status ≠ some .processing
  | some k => t.life.place = none ∨
      t.life.heldBy c ∧ t.life.status = some .processing ∧ t.deliveries m = k

/-- At most one goroutine can settle the message, and what it relies on is so. -/
structure Owned (type : QueueType) (m : MessageId) (p : Params) (t : Track) : Prop where
  legal : Legal type p.consumerGroupId t.life
  strict : t.life.Strict
  alive : ∀ task ∈ t.tasks, task.1 ∉ t.crashed
  reaps : ∀ r ∈ t.reaps, r.1 ∈ t.crashed
  once : t.tasks.countP (fun task => task.2.isToken = true) ≤ 1
  claims : ∀ task ∈ t.tasks, task.2.isToken = true → t.Claims m task.1 task.2.delivery

theorem deliveries_deleted (m : MessageId) (n : Nat) (log : List Event) :
    (List.replicate n (Event.deleted m) ++ log).countP (Event.isCheckout m) =
      log.countP (Event.isCheckout m) := by
  rw [List.countP_append, List.countP_replicate]
  simp [Event.isCheckout]

variable {type : QueueType} {m : MessageId} {p : Params} {t t' : Track} {d : Discipline}

theorem Claims.congr {c : ConsumerId} {k : Option Nat} (h : t.Claims m c k)
    (hplace : t'.life.place = t.life.place) (hst : t'.life.status = t.life.status)
    (hlog : t'.deliveries m = t.deliveries m) : t'.Claims m c k := by
  cases k with
  | none => simpa only [Claims, Life.heldBy, hplace, hst] using h
  | some k => simpa only [Claims, Life.heldBy, hplace, hst, hlog] using h

/-- Who can settle the message after a step could do so before. -/
theorem Continues.isToken_old (hd : ¬d.firesLate) {x : Life} {old : Task} {new : Multiset Task}
    (hgo : Continues d x old new) {task : Task} (hnew : task ∈ new) (htoken : task.isToken = true) :
    old.isToken = true := by
  by_contra hold
  have htokens := hgo.tokens.resolve_left hd
  rw [if_neg hold] at htokens
  have := (Multiset.countP_pos (p := fun task : Task => task.isToken = true)).2
    ⟨task, hnew, htoken⟩
  omega

namespace Owned

section

variable (h : t.Owned type m p)
variable {c : ConsumerId}

include h

/-- Nobody can settle a message that waits in a container of the queue. -/
theorem not_token (hplace : t.life.place ≠ none)
    (hheld : ∀ c, ¬t.life.heldBy c) : ∀ task ∈ t.tasks, task.2.isToken = false := by
  intro task htask
  by_contra htoken
  have hclaim := h.claims task htask (by simpa using htoken)
  cases hk : task.2.delivery with
  | none =>
    rw [hk] at hclaim
    exact hheld _ hclaim.1
  | some k =>
    rw [hk] at hclaim
    exact hclaim.elim hplace fun hclaim => hheld _ hclaim.1

/-- Nobody else can settle the message. -/
theorem not_token_erase {task : ConsumerId × Task} (hmem : task ∈ t.tasks)
    (htoken : task.2.isToken = true) : ∀ other ∈ t.tasks.erase task, other.2.isToken = false := by
  obtain ⟨c, old⟩ := task
  have hcount := countP_erase_add (fun task => task.2.isToken = true) hmem
  rw [if_pos htoken] at hcount
  have hzero : (t.tasks.erase (c, old)).countP (fun task => task.2.isToken = true) = 0 := by
    have := h.once
    omega
  intro other hother
  simpa using Multiset.countP_eq_zero.1 hzero other hother

private theorem task (hd : ¬d.firesLate) {old : Task}
    {new : Multiset Task} (hmem : (c, old) ∈ t.tasks) (hgo : Continues d t.life old new) :
    Owned type m p
      { t with tasks := t.tasks.erase (c, old) + new.map fun task => (c, task) } := by
  have htokens := hgo.tokens.resolve_left hd
  refine ⟨h.legal, h.strict, fun task htask => ?_, h.reaps, ?_, fun task htask htoken => ?_⟩
  · rcases mem_erase_add htask with htask | ⟨hc, _⟩
    · exact h.alive task htask
    · rw [hc]
      exact h.alive _ hmem
  · have hcount := countP_erase_add (fun task => task.2.isToken = true) hmem
    rw [Multiset.countP_add, countP_map_task fun task => task.isToken = true]
    exact (Nat.add_le_add_left htokens _).trans (hcount.le.trans h.once)
  · rcases mem_erase_add htask with htask | ⟨hc, hnew⟩
    · exact h.claims task htask htoken
    · rw [hc, hgo.delivery _ hnew]
      exact h.claims _ hmem (hgo.isToken_old hd hnew htoken)

private theorem crash (c : ConsumerId) :
    Owned type m p
      { t with tasks := t.tasks.filter fun task => task.1 ≠ c, crashed := c :: t.crashed } := by
  refine ⟨h.legal, h.strict, fun task htask => ?_,
    fun r hr => List.mem_cons_of_mem c (h.reaps r hr),
    (Multiset.countP_le_of_le _ (Multiset.filter_le _ _)).trans h.once, fun task htask => ?_⟩
  · obtain ⟨htask, hc⟩ := Multiset.mem_filter.1 htask
    exact fun hmem => (List.mem_cons.1 hmem).elim hc (h.alive task htask)
  · exact h.claims task (Multiset.mem_filter.1 htask).1

private theorem work {x' : Life}
    (hx : t.life.Worked type p.consumerGroupId x') : Owned type m p { t with life := x' } := by
  rcases hx.place with ⟨hplace, hst⟩ | ⟨hshelved, _, hst⟩
  · refine ⟨hx.legal h.legal, fun hproc => ?_, h.alive, h.reaps, h.once, fun task htask htoken =>
      (h.claims task htask htoken).congr hplace hst rfl⟩
    simpa only [Life.heldBy, hplace] using h.strict (hst.symm.trans hproc)
  · have hnone := h.not_token (by rcases hshelved with h | h | h <;> simp [h]) hshelved.not_heldBy
    exact ⟨hx.legal h.legal, fun hproc => absurd hproc hst, h.alive, h.reaps, h.once,
      fun task htask htoken => by simp [hnone task htask] at htoken⟩

private theorem delete (n : Nat)
    (hdelayed : t.life.status = some .unackDelaying → t.life.place ≠ some (.zset .delayed)) :
    Owned type m p
      { t with
        life := t.life.delete type p.consumerGroupId
        log := List.replicate n (.deleted m) ++ t.log } := by
  have hlegal := h.legal.delete hdelayed
  have hlog := deliveries_deleted m n t.log
  rcases t.life.delete_cases type p.consumerGroupId with heq | ⟨hst, hhash, hplace, hheld⟩
  · rw [heq] at hlegal ⊢
    exact ⟨hlegal, h.strict, h.alive, h.reaps, h.once, fun task htask htoken =>
      (h.claims task htask htoken).congr rfl rfl hlog⟩
  · have hnone : (t.life.delete type p.consumerGroupId).status ≠ some .processing := by
      simp [Life.status, hhash]
    refine ⟨hlegal, fun hproc => absurd hproc hnone, h.alive, h.reaps, h.once,
      fun task htask htoken => ?_⟩
    have hclaim := h.claims task htask htoken
    cases hk : task.2.delivery with
    | none =>
      rw [hk] at hclaim
      exact ⟨hheld _ hclaim.1, hnone⟩
    | some k =>
      rw [hk] at hclaim
      exact .inl (hplace (hclaim.resolve_right fun hclaim => hst hclaim.2.1))

private theorem pop {group : Option GroupId}
    (hc : c ∉ t.crashed) (hplace : t.life.place = some (pendingSlot type group)) :
    Owned type m p
      { t with
        life := ⟨some (.list (.processing c)), t.life.hash⟩
        tasks := (c, .popped m group) ::ₘ t.tasks } := by
  have hheld : ∀ c, ¬t.life.heldBy c := fun c => by
    simp [Life.heldBy, hplace, pendingSlot_ne_processing]
  have hnone := h.not_token (by simp [hplace]) hheld
  refine ⟨h.legal.pop c hplace, fun _ => ⟨c, rfl⟩, fun task htask => ?_, h.reaps, ?_,
    fun task htask htoken => ?_⟩
  · rcases Multiset.mem_cons.1 htask with rfl | htask
    · exact hc
    · exact h.alive task htask
  · rw [Multiset.countP_cons, Multiset.countP_eq_zero.2 fun task htask =>
      by simp [hnone task htask]]
    split <;> omega
  rcases Multiset.mem_cons.1 htask with rfl | htask
  · exact ⟨rfl, fun hproc => (h.strict hproc).elim hheld⟩
  · simp [hnone task htask] at htoken

private theorem checkout {group : Option GroupId}
    {hash : MessageHash} {new : Multiset Task} (now : Millis)
    (hmem : (c, Task.popped m group) ∈ t.tasks) (hx : t.life.hash = some hash)
    (hst : hash.status = some .pending)
    (hnew : new = 0 ∨ ∃ e, new = {.received e (t.deliveries m + 1)}) :
    Owned type m p
      { t with
        life := ⟨t.life.place, some (checkoutWrite now hash)⟩
        tasks := t.tasks.erase (c, .popped m group) + new.map fun task => (c, task)
        log := .checkedOut c m (decide (t.life.heldBy c)) :: t.log } := by
  have hheld : t.life.heldBy c := (h.claims _ hmem rfl).1
  have hnone := h.not_token_erase hmem rfl
  have hlegal := h.legal.checkout now
  rw [Life.checkout, if_pos (by simp [Life.status, hx, hst]), Life.write_of_hash hx] at hlegal
  refine ⟨hlegal, fun _ => ⟨c, hheld⟩, fun task htask => ?_,
    h.reaps, ?_, fun task htask htoken => ?_⟩
  · rcases mem_erase_add htask with htask | ⟨hc, _⟩
    · exact h.alive task htask
    · rw [hc]
      exact h.alive _ hmem
  · have hcard : new.card ≤ 1 := by rcases hnew with rfl | ⟨e, rfl⟩ <;> simp
    rw [Multiset.countP_add, Multiset.countP_eq_zero.2 fun task htask => by simp [hnone task htask],
      countP_map_task fun task => task.isToken = true, Nat.zero_add]
    exact (Multiset.countP_le_card _ _).trans hcard
  · rcases Multiset.mem_add.1 htask with htask | htask
    · simp [hnone task htask] at htoken
    obtain ⟨next, hnext, rfl⟩ := Multiset.mem_map.1 htask
    rcases hnew with rfl | ⟨e, rfl⟩
    · exact absurd hnext (Multiset.notMem_zero _)
    · rw [Multiset.mem_singleton.1 hnext]
      exact .inr ⟨hheld, rfl, by simp [deliveries, Event.isCheckout]⟩

end

section Settle

variable (h : t.Owned type m p) {c : ConsumerId} {settled failed : Multiset (ConsumerId × Task)}
  {x' : Life} {events : List Event} (hle : settled ≤ t.tasks)
  (hsettled : ∀ task ∈ settled, task.1 = c ∧ task.2.isSettling = true)
  (hcard : failed.card ≤ settled.card)
  (hfailed : ∀ task ∈ failed, ∃ k cause, task = (c, Task.ackFailed m k cause) ∧
    (c, Task.acking m k) ∈ settled)
  (heffect : t.Settlement d m c settled x' events)

include h hle hsettled hcard hfailed heffect

/-- After a settlement that took effect, only the acknowledgement of a message that was
acknowledged for good can still be on its way. -/
private theorem claims_settle :
    ∀ task ∈ t.tasks - settled + failed, task.2.isToken = true →
      Claims { t with life := x', log := events ++ t.log } m task.1 task.2.delivery := by
  have hfail : ∀ task ∈ failed, ∃ k, (c, Task.acking m k) ∈ settled ∧ task.1 = c ∧
      task.2.delivery = some k := by
    intro task htask
    obtain ⟨k, cause, rfl, hmem⟩ := hfailed task htask
    exact ⟨k, hmem, rfl, rfl⟩
  have hclaim : ∀ task ∈ t.tasks - settled + failed, task.2.isToken = true →
      t.Claims m task.1 task.2.delivery := by
    intro task htask htoken
    rcases Multiset.mem_add.1 htask with htask | htask
    · exact h.claims task (Multiset.mem_of_le (Multiset.sub_le_self _ _) htask) htoken
    obtain ⟨k, hmem, hc, hk⟩ := hfail task htask
    rw [hc, hk]
    exact h.claims _ (Multiset.mem_of_le hle hmem) rfl
  -- The goroutine that settles is the only one that can.
  have hothers : ∀ task ∈ settled, ∀ other ∈ t.tasks - settled + failed,
      other.2.isToken = true → ∃ k, (c, Task.acking m k) = task ∧ other.2.delivery = some k := by
    intro task htask other hother htoken
    have hnone := h.not_token_erase (Multiset.mem_of_le hle htask)
      (Task.isToken_of_isSettling (hsettled task htask).2)
    rcases Multiset.mem_add.1 hother with hother | hother
    · have hmem : other ∈ t.tasks.erase task := by
        rw [← Multiset.sub_add_cancel hle, Multiset.erase_add_right_pos _ htask]
        exact Multiset.mem_add.2 (.inl hother)
      simp [hnone other hmem] at htoken
    · obtain ⟨k, hmem, _, hk⟩ := hfail other hother
      refine ⟨k, ?_, hk⟩
      by_contra hne
      have := hnone _ ((Multiset.mem_erase_of_ne hne).2 (Multiset.mem_of_le hle hmem))
      simp [Task.isToken] at this
  intro task htask htoken
  cases heffect with
  | idle => exact hclaim task htask htoken
  | acknowledge now hmem hheld hopen =>
    obtain ⟨k, _, hk⟩ := hothers _ hmem task htask htoken
    rw [hk]
    exact .inl (by simp [Life.acknowledge, hheld])
  | unacknowledge cfg now hmem hheld hopen =>
    obtain ⟨k, heq, _⟩ := hothers _ hmem task htask htoken
    cases heq
  | reap cfg now hmem hheld hopen =>
    have hcrashed := h.reaps _ hmem
    have hzero : settled = 0 := by
      by_contra hne
      obtain ⟨task, htask⟩ := Multiset.exists_mem_of_ne_zero hne
      refine h.alive task (Multiset.mem_of_le hle htask) ?_
      rw [(hsettled task htask).1]
      exact hcrashed
    subst hzero
    obtain rfl : failed = 0 := Multiset.card_eq_zero.1 (Nat.le_zero.1 hcard)
    rw [Multiset.sub_zero, Multiset.add_zero] at htask
    have hc : task.1 = c := by
      have hclaim := h.claims task htask htoken
      have hheld' : t.life.heldBy task.1 := by
        cases hk : task.2.delivery with
        | none =>
          rw [hk] at hclaim
          exact hclaim.1
        | some k =>
          rw [hk] at hclaim
          exact (hclaim.resolve_left (by rw [hheld]; simp)).1
      simpa using hheld'.symm.trans hheld
    exact absurd (hc ▸ hcrashed) (h.alive task htask)

private theorem settle :
    Owned type m p
      { t with life := x', tasks := t.tasks - settled + failed, log := events ++ t.log } := by
  refine ⟨heffect.legal h.legal, ?_, fun task htask => ?_, h.reaps, ?_,
    h.claims_settle hle hsettled hcard hfailed heffect⟩
  · rcases heffect.released with ⟨rfl, _⟩ | ⟨_, _, hst, _⟩
    · exact h.strict
    · exact fun hproc => absurd hproc hst
  · rcases Multiset.mem_add.1 htask with htask | htask
    · exact h.alive task (Multiset.mem_of_le (Multiset.sub_le_self _ _) htask)
    · obtain ⟨k, cause, rfl, hmem⟩ := hfailed task htask
      exact h.alive (c, .acking m k) (Multiset.mem_of_le hle hmem)
  · have hall : settled.countP (fun task => task.2.isToken = true) = settled.card :=
      Multiset.countP_eq_card.2 fun task htask => Task.isToken_of_isSettling (hsettled task htask).2
    have hsub := Multiset.countP_le_of_le
      (fun task : ConsumerId × Task => task.2.isToken = true) hle
    have hrest := Multiset.countP_sub hle fun task : ConsumerId × Task => task.2.isToken = true
    have hfail := failed.countP_le_card fun task : ConsumerId × Task => task.2.isToken = true
    have honce := h.once
    rw [Multiset.countP_add]
    omega

end Settle

/-- A message keeps having one owner at a time. -/
theorem step (h : t.Owned type m p) (hlate : ¬d.firesLate) (hreaps : ¬d.reapsLive)
    (hstep : t.Step d type p.consumerGroupId m t') : t'.Owned type m p := by
  cases hstep with
  | idle => exact h
  | task hmem hgo => exact h.task hlate hmem hgo
  | crash c => exact h.crash c
  | load hc =>
    refine ⟨h.legal, h.strict, h.alive, fun r hr => ?_, h.once, h.claims⟩
    rcases Set.mem_insert_iff.1 hr with rfl | hr
    · exact hc.resolve_left hreaps
    · exact h.reaps r hr
  | work hx => exact h.work hx
  | delete n hdelayed => exact h.delete n hdelayed
  | pop hc hp => exact h.pop hc hp
  | checkout now hmem hx hst hnew =>
    exact h.checkout now hmem hx hst (hnew.imp_right fun ⟨e, he, _⟩ => ⟨e, he⟩)
  | settle hle hsettled hcard hfailed heffect => exact h.settle hle hsettled hcard hfailed heffect

theorem born {x : Life} (crashed : List ConsumerId) (h : Newborn type m p x) :
    Owned type m p ⟨x, 0, crashed, ∅, []⟩ where
  legal := h.legal
  strict hproc := by
    have hst : x.status = some .processing := hproc
    rcases h.stored with ⟨hst', _⟩ | ⟨hst', _⟩ <;> simp [hst'] at hst
  alive _ hmem := absurd hmem (Multiset.notMem_zero _)
  reaps _ hmem := absurd hmem (Set.notMem_empty _)
  once := Nat.zero_le 1
  claims _ hmem := absurd hmem (Multiset.notMem_zero _)

end Owned

theorem owned_invariant (type : QueueType) (Selected : Params → Prop) :
    TrackInvariant ⟨False, False, True, True⟩ type Selected (Owned type) where
  legal h := h.legal
  born crashed _ h := .born crashed h
  step _ h hstep := h.step id id hstep

end Track

end RedisSmq
