import RedisSmq.Moves.Batches

/-!
# Batching

A script that takes a batch of messages does with it what it does with the parts
of the batch one after the other: the keys, their deadlines and the counters end
the same, and the replies add up. A batch may be aborted where its parts are not,
because Lua cannot unpack a table that is too long, but never the other way round.
-/

namespace RedisSmq

/-- The reply for a whole batch from the replies for its parts. A refusal depends on
the queue only, so both parts are refused alike. -/
def combineReplies {τ : Type} (join : τ → τ → τ) : Except Refusal τ → Except Refusal τ →
    Except Refusal τ
  | .ok a, .ok b => .ok (join a b)
  | .ok _, .error r => .error r
  | .error r, _ => .error r

/-- Unless the script is aborted, a run on two batches at once is a run on the first
followed by a run on the second. -/
def SplitsBatches {ι τ : Type} (script : List ι → Timed → TimedOutcome (Except Refusal τ))
    (join : τ → τ → τ) : Prop :=
  ∀ (xs ys : List ι) (t t' : Timed) (reply : Except Refusal τ),
    script (xs ++ ys) t = .ok (reply, t') →
      ∃ reply₁ t₁ reply₂, script xs t = .ok (reply₁, t₁) ∧ script ys t₁ = .ok (reply₂, t') ∧
        reply = combineReplies join reply₁ reply₂

section

variable (cfg : Config) (expiry : AuditExpiry) (clock now : Millis) (c : ConsumerId)

theorem settleCheck_refusal {β α : Type} {b : β} {t : Timed} {r : Except Refusal α}
    (h : settleCheck b t = .error r) (join : α → α → α) : combineReplies join r r = r := by
  unfold settleCheck at h
  split at h
  · cases h
    rfl
  · split at h <;> cases h
    rfl

theorem requeueCheck_refusal {β : Type} {b : QueueType → β} {t : Timed} {r : Except Refusal Nat}
    (h : requeueCheck b t = .error r) : combineReplies (· + ·) r r = r := by
  unfold requeueCheck at h
  split at h
  · cases h
    rfl
  · split at h <;> cases h
    rfl

theorem deleteCheck_refusal {β : Type} {lock : Option LockId} {b : Option QueueType → β}
    {t : Timed} {r : Except Refusal DeleteStats} (h : deleteCheck lock b t = .error r) :
    combineReplies DeleteStats.add r r = r := by
  unfold deleteCheck at h
  split at h
  · cases h
    rfl
  split at h
  · cases h
    rfl
  · split at h <;> cases h
    rfl

theorem acknowledgeTimed_splits :
    SplitsBatches (acknowledgeTimed cfg expiry clock c now) (· ++ ·) := by
  intro xs ys t t' reply h
  refine Batch.guarded_append ?_ ?_ ?_ h
  · intro t b hcheck
    obtain ⟨rfl, -⟩ := settleCheck_eq_ok hcheck
    exact acknowledgeBatch_lawful cfg expiry clock c now
  · intro t r hrefused
    exact settleCheck_refusal hrefused _
  intro t b hcheck n m
  obtain ⟨rfl, -⟩ := settleCheck_eq_ok hcheck
  rfl

theorem unacknowledgeTimed_splits :
    SplitsBatches (unacknowledgeTimed cfg expiry clock c) (· + ·) := by
  intro xs ys t t' reply h
  refine Batch.guarded_append ?_ ?_ ?_ h
  · intro t b hcheck
    obtain ⟨rfl, -⟩ := settleCheck_eq_ok hcheck
    exact unacknowledgeBatch_lawful cfg expiry clock c
  · intro t r hrefused
    exact settleCheck_refusal hrefused _
  intro t b hcheck n m
  obtain ⟨rfl, -⟩ := settleCheck_eq_ok hcheck
  refine congrArg Except.ok ?_
  change n.1 + m.1 + (n.2 + m.2) = n.1 + n.2 + (m.1 + m.2)
  omega

theorem RequeueTally.total_add (n m : RequeueTally) : (n.add m).total = n.total + m.total := by
  simp only [RequeueTally.total, RequeueTally.add]
  omega

theorem requeueImmediateTimed_splits : SplitsBatches (requeueImmediateTimed now) (· + ·) := by
  intro xs ys t t' reply h
  refine Batch.guarded_append ?_ ?_ ?_ h
  · intro t b hcheck
    obtain ⟨⟨type, rfl⟩, -⟩ := requeueCheck_eq_ok hcheck
    exact requeueImmediateBatch_lawful now type
  · intro t r hrefused
    exact requeueCheck_refusal hrefused
  intro t b hcheck n m
  obtain ⟨⟨type, rfl⟩, -⟩ := requeueCheck_eq_ok hcheck
  exact congrArg Except.ok (n.total_add m)

theorem requeueDelayedTimed_splits : SplitsBatches (requeueDelayedTimed now) (· + ·) := by
  intro xs ys t t' reply h
  refine Batch.guarded_append ?_ ?_ ?_ h
  · intro t b hcheck
    obtain ⟨⟨type, rfl⟩, -⟩ := requeueCheck_eq_ok hcheck
    exact requeueDelayedBatch_lawful now type
  · intro t r hrefused
    exact requeueCheck_refusal hrefused
  intro t b hcheck n m
  obtain ⟨⟨type, rfl⟩, -⟩ := requeueCheck_eq_ok hcheck
  exact congrArg Except.ok (n.total_add m)

theorem deleteMessageTimed_splits (group : Option GroupId) (lock : Option LockId) :
    SplitsBatches (deleteMessageTimed group lock) DeleteStats.add := by
  intro xs ys t t' reply h
  refine Batch.guarded_append ?_ ?_ ?_ h
  · intro t b hcheck
    obtain ⟨⟨type, rfl⟩, -⟩ := deleteCheck_eq_ok lock hcheck
    exact deleteBatch_lawful group lock type
  · intro t r hrefused
    exact deleteCheck_refusal hrefused
  intro t b hcheck n m
  obtain ⟨⟨type, rfl⟩, -⟩ := deleteCheck_eq_ok lock hcheck
  rfl

/-- Batching is only an optimisation, for each of the five scripts and whatever the
batches hold: identifiers that are unknown, settled already or repeated. -/
theorem batching_only_optimises (group : Option GroupId) (lock : Option LockId) :
    SplitsBatches (acknowledgeTimed cfg expiry clock c now) (· ++ ·) ∧
      SplitsBatches (unacknowledgeTimed cfg expiry clock c) (· + ·) ∧
      SplitsBatches (requeueImmediateTimed now) (· + ·) ∧
      SplitsBatches (requeueDelayedTimed now) (· + ·) ∧
      SplitsBatches (deleteMessageTimed group lock) DeleteStats.add :=
  ⟨acknowledgeTimed_splits cfg expiry clock now c, unacknowledgeTimed_splits cfg expiry clock c,
    requeueImmediateTimed_splits now, requeueDelayedTimed_splits now,
    deleteMessageTimed_splits group lock⟩

end

end RedisSmq
