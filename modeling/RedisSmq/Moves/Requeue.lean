import RedisSmq.Moves.Settle
import RedisSmq.Scripts.Requeue

/-!
# Requeuing as a sequence of moves

As with settling, a run of `requeue-immediate` or `requeue-delayed` is the
sequence of the moves of its messages. The one way in which these scripts can be
aborted is a message without priority on a priority queue; the theorems assume
that the priorities fit the queue, which is what publishing enforces.
-/

namespace RedisSmq

/-- Exactly the messages of a priority queue have a priority. -/
def PriorityFits (type : QueueType) (priority : Option Nat) : Prop :=
  type = .priority ↔ priority.isSome
  deriving Decidable

theorem Keyspace.enqueueRetry_isSome {db : Keyspace} {type : QueueType} {group : Option GroupId}
    {priority : Option Nat} {id : MessageId} (hfit : PriorityFits type priority) :
    ∃ db', db.enqueueRetry type group priority id = some db' := by
  cases type with
  | lifo => exact ⟨_, rfl⟩
  | fifo => exact ⟨_, rfl⟩
  | priority =>
    obtain ⟨p, rfl⟩ := Option.isSome_iff_exists.1 (hfit.1 rfl)
    exact ⟨_, rfl⟩

theorem Keyspace.enqueueNew_isSome {db : Keyspace} {type : QueueType} {group : Option GroupId}
    {priority : Option Nat} {id : MessageId} (hfit : PriorityFits type priority) :
    ∃ db', db.enqueueNew type group priority id = some db' := by
  cases type with
  | lifo => exact ⟨_, rfl⟩
  | fifo => exact ⟨_, rfl⟩
  | priority =>
    obtain ⟨p, rfl⟩ := Option.isSome_iff_exists.1 (hfit.1 rfl)
    exact ⟨_, rfl⟩

/-- The retry of a message that has been taken out of its container, with its
counters. -/
def retryMove (type : QueueType) (now : Millis) (source : Counter) (a : RequeueArg)
    (db : Keyspace) : Keyspace :=
  match retryTaken type now a db with
  | none => db
  | some (true, db) => db.shift source .pending
  | some (false, db) => db.shift source .deadLettered

/-- One message of `requeue-immediate`, with its counters. -/
def requeueMove (type : QueueType) (now : Millis) (db : Keyspace) (a : RequeueArg) : Keyspace :=
  if a.id ∈ db.lists .requeued then
    if a.retryDelay = 0 then retryMove type now .requeued a (db.lrem .requeued a.id)
    else (delayTaken a (db.lrem .requeued a.id)).shift .requeued .delayed
  else db

/-- One message of `requeue-delayed`, with its counters. -/
def delayedMove (type : QueueType) (now : Millis) (db : Keyspace) (a : RequeueArg) : Keyspace :=
  if a.id ∈ db.zsets .delayed then
    retryMove type now .delayed a (db.zrem .delayed a.id)
  else db

section

variable (type : QueueType) (now : Millis) (a : RequeueArg) (args : List RequeueArg)
variable (db : Keyspace) (source : Counter)

theorem retryTaken_adjust (d : Counter → Int) :
    retryTaken type now a (db.adjust d) =
      (retryTaken type now a db).map fun r => (r.1, r.2.adjust d) := by
  have hgroup : (db.adjust d).groupExists a.group = db.groupExists a.group := rfl
  unfold retryTaken
  rw [hgroup]
  split
  · cases type with
    | lifo => rfl
    | fifo => rfl
    | priority => cases a.priority <;> rfl
  · rfl

theorem queue_of_retryTaken {r : Bool × Keyspace} (h : retryTaken type now a db = some r) :
    r.2.queue = db.queue := by
  unfold retryTaken at h
  split at h
  · obtain ⟨db', hdb', rfl⟩ := Option.map_eq_some_iff.1 h
    unfold Keyspace.enqueueRetry at hdb'
    cases type with
    | lifo =>
      cases hdb'
      rfl
    | fifo =>
      cases hdb'
      rfl
    | priority =>
      obtain ⟨p, _, rfl⟩ := Option.map_eq_some_iff.1 hdb'
      rfl
  · cases h
    rfl

private theorem retryTaken_isSome (hfit : PriorityFits type a.priority) :
    ∃ r, retryTaken type now a db = some r := by
  unfold retryTaken
  split
  · obtain ⟨db', h⟩ := Keyspace.enqueueRetry_isSome hfit
    exact ⟨_, by rw [h, Option.map_some]⟩
  · exact ⟨_, rfl⟩

/-- What a batch adds to the counters, the messages coming from the count `source`. -/
def requeueDelta (source : Counter) (t : RequeueTally) (c : Counter) : Int :=
  (if c = source then -(t.total : Int) else 0) + (if c = .delayed then (t.delayed : Int) else 0) +
    (if c = .pending then (t.pending : Int) else 0) +
      if c = .deadLettered then (t.deadLettered : Int) else 0

-- The counters of the messages retried so far are outstanding; the next message adds its own.
private theorem retryMove_adjust {r : Bool × Keyspace} (h : retryTaken type now a db = some r)
    (t : RequeueTally) :
    retryMove type now source a (db.adjust (requeueDelta source t)) =
      r.2.adjust (requeueDelta source
        (if r.1 then { t with pending := t.pending + 1 }
          else { t with deadLettered := t.deadLettered + 1 })) := by
  obtain ⟨moved, db'⟩ := r
  unfold retryMove
  rw [retryTaken_adjust, h]
  cases moved with
  | true =>
    dsimp only [Option.map_some]
    rw [Keyspace.shift_adjust]
    congr 1
    funext c
    simp only [requeueDelta, Keyspace.shiftDelta, RequeueTally.total, if_true]
    split <;> split <;> split <;> split <;> simp_all <;> omega
  | false =>
    dsimp only [Option.map_some]
    rw [Keyspace.shift_adjust]
    congr 1
    funext c
    simp only [requeueDelta, Keyspace.shiftDelta, RequeueTally.total]
    split <;> split <;> split <;> split <;> simp_all <;> omega

variable {type args db}

private theorem requeueImmediateLoop_moves (hfit : ∀ a ∈ args, PriorityFits type a.priority)
    (t : RequeueTally) :
    ∃ db' t', requeueImmediateLoop type now args t db = .done db' t' ∧ db'.queue = db.queue ∧
      db'.adjust (requeueDelta .requeued t') =
        args.foldl (requeueMove type now) (db.adjust (requeueDelta .requeued t)) := by
  induction args generalizing db t with
  | nil => exact ⟨db, t, rfl, rfl, rfl⟩
  | cons a args ih =>
    have hrest : ∀ a ∈ args, PriorityFits type a.priority :=
      fun b hb => hfit b (List.mem_cons_of_mem _ hb)
    rw [List.foldl_cons]
    by_cases h : a.id ∈ db.lists .requeued
    · have hmem : a.id ∈ (db.adjust (requeueDelta .requeued t)).lists .requeued := h
      simp only [requeueImmediateLoop, if_pos h, requeueMove, if_pos hmem]
      by_cases hdelay : a.retryDelay = 0
      · obtain ⟨⟨moved, db'⟩, hr⟩ := retryTaken_isSome type now a (db.lrem .requeued a.id)
          (hfit a List.mem_cons_self)
        have hmove := retryMove_adjust type now a (db.lrem .requeued a.id) .requeued hr t
        have hqueue := queue_of_retryTaken type now a (db.lrem .requeued a.id) hr
        simp only [if_pos hdelay, hr]
        change ∃ db' t', _ ∧ _ ∧ _ = List.foldl _
          (retryMove type now .requeued a
            ((db.lrem .requeued a.id).adjust (requeueDelta .requeued t))) args
        rw [hmove]
        cases moved with
        | true =>
          obtain ⟨db₂, t₂, hloop, hq, hfold⟩ := ih hrest { t with pending := t.pending + 1 }
          exact ⟨db₂, t₂, hloop, hq.trans hqueue, hfold⟩
        | false =>
          obtain ⟨db₂, t₂, hloop, hq, hfold⟩ :=
            ih hrest { t with deadLettered := t.deadLettered + 1 }
          exact ⟨db₂, t₂, hloop, hq.trans hqueue, hfold⟩
      · simp only [if_neg hdelay]
        obtain ⟨db₂, t₂, hloop, hq, hfold⟩ := ih hrest { t with delayed := t.delayed + 1 }
        refine ⟨db₂, t₂, hloop, hq, hfold.trans ?_⟩
        congr 1
        change _ = ((delayTaken a (db.lrem .requeued a.id)).adjust
          (requeueDelta .requeued t)).shift .requeued .delayed
        rw [Keyspace.shift_adjust]
        congr 1
        funext c
        simp only [requeueDelta, Keyspace.shiftDelta, RequeueTally.total]
        split <;> split <;> split <;> split <;> simp_all
        omega
    · have hmem : a.id ∉ (db.adjust (requeueDelta .requeued t)).lists .requeued := h
      simp only [requeueImmediateLoop, if_neg h, requeueMove, if_neg hmem]
      exact ih hrest t

private theorem requeueDelayedLoop_moves (hfit : ∀ a ∈ args, PriorityFits type a.priority)
    (t : RequeueTally) (ht : t.delayed = 0) :
    ∃ db' t', requeueDelayedLoop type now args t db = .done db' t' ∧ db'.queue = db.queue ∧
      t'.delayed = 0 ∧
      db'.adjust (requeueDelta .delayed t') =
        args.foldl (delayedMove type now) (db.adjust (requeueDelta .delayed t)) := by
  induction args generalizing db t with
  | nil => exact ⟨db, t, rfl, rfl, ht, rfl⟩
  | cons a args ih =>
    have hrest : ∀ a ∈ args, PriorityFits type a.priority :=
      fun b hb => hfit b (List.mem_cons_of_mem _ hb)
    rw [List.foldl_cons]
    by_cases h : a.id ∈ db.zsets .delayed
    · have hmem : a.id ∈ (db.adjust (requeueDelta .delayed t)).zsets .delayed := h
      obtain ⟨⟨moved, db'⟩, hr⟩ := retryTaken_isSome type now a (db.zrem .delayed a.id)
        (hfit a List.mem_cons_self)
      have hmove := retryMove_adjust type now a (db.zrem .delayed a.id) .delayed hr t
      have hqueue := queue_of_retryTaken type now a (db.zrem .delayed a.id) hr
      simp only [requeueDelayedLoop, if_pos h, delayedMove, if_pos hmem, hr]
      change ∃ db' t', _ ∧ _ ∧ _ ∧ _ = List.foldl _
        (retryMove type now .delayed a
          ((db.zrem .delayed a.id).adjust (requeueDelta .delayed t))) args
      rw [hmove]
      cases moved with
      | true =>
        obtain ⟨db₂, t₂, hloop, hq, ht₂, hfold⟩ :=
          ih hrest { t with pending := t.pending + 1 } ht
        exact ⟨db₂, t₂, hloop, hq.trans hqueue, ht₂, hfold⟩
      | false =>
        obtain ⟨db₂, t₂, hloop, hq, ht₂, hfold⟩ :=
          ih hrest { t with deadLettered := t.deadLettered + 1 } ht
        exact ⟨db₂, t₂, hloop, hq.trans hqueue, ht₂, hfold⟩
    · have hmem : a.id ∉ (db.adjust (requeueDelta .delayed t)).zsets .delayed := h
      simp only [requeueDelayedLoop, if_neg h, delayedMove, if_neg hmem]
      exact ih hrest t ht

private theorem requeueDelta_empty (source : Counter) : requeueDelta source {} = fun _ => 0 := by
  funext c
  simp [requeueDelta, RequeueTally.total]

/-- A run of `requeue-immediate` on a queue that accepts it is the sequence of its
moves, and is not aborted. -/
theorem requeueImmediate_moves (htype : db.queueType? = some type)
    (haccepts : stateRefusal db.operationalState = none)
    (hfit : ∀ a ∈ args, PriorityFits type a.priority) :
    (requeueImmediate now args db).db = args.foldl (requeueMove type now) db := by
  have hq := Keyspace.isSome_queue_of_queueType? htype
  obtain ⟨db', t, hloop, hqueue, hfold⟩ := requeueImmediateLoop_moves now hfit {}
  rw [requeueDelta_empty, db.adjust_zero hq] at hfold
  have hq' : db'.queue.isSome := by rw [hqueue]; exact hq
  unfold requeueImmediate
  simp only [htype, haccepts, hloop, Outcome.done]
  rw [← hfold, Keyspace.hincrbyPos_eq_adjust db' _ hq',
    Keyspace.hincrbyPos_adjust, Keyspace.hincrbyPos_adjust, Keyspace.hincrbyPos_adjust]
  congr 1
  funext c
  cases c <;> simp [requeueDelta]

/-- A run of `requeue-delayed` on a queue that accepts it is the sequence of its
moves, and is not aborted. -/
theorem requeueDelayed_moves (htype : db.queueType? = some type)
    (haccepts : stateRefusal db.operationalState = none)
    (hfit : ∀ a ∈ args, PriorityFits type a.priority) :
    (requeueDelayed now args db).db = args.foldl (delayedMove type now) db := by
  have hq := Keyspace.isSome_queue_of_queueType? htype
  obtain ⟨db', t, hloop, hqueue, ht, hfold⟩ := requeueDelayedLoop_moves now hfit {} rfl
  rw [requeueDelta_empty, db.adjust_zero hq] at hfold
  have hq' : db'.queue.isSome := by rw [hqueue]; exact hq
  unfold requeueDelayed
  simp only [htype, haccepts, hloop, Outcome.done]
  rw [← hfold, Keyspace.hincrbyPos_eq_adjust db' _ hq',
    Keyspace.hincrbyPos_adjust, Keyspace.hincrbyPos_adjust]
  congr 1
  funext c
  cases c <;> simp [requeueDelta, ht]

/-- A queue whose state refuses to requeue is left as it is. -/
theorem requeueImmediate_refused {r : Refusal} (h : stateRefusal db.operationalState = some r) :
    (requeueImmediate now args db).db = db := by
  unfold requeueImmediate
  cases db.queueType? with
  | none => rfl
  | some type => simp only [h, Outcome.done]

theorem requeueDelayed_refused {r : Refusal} (h : stateRefusal db.operationalState = some r) :
    (requeueDelayed now args db).db = db := by
  unfold requeueDelayed
  cases db.queueType? with
  | none => rfl
  | some type => simp only [h, Outcome.done]

/-- The rule of `requeue-immediate`: a run leaves the keys as they are, or makes its moves. -/
@[elab_as_elim]
theorem requeueImmediate_run {motive : Keyspace → Prop} (htype : db.queueType? = some type)
    (hfit : ∀ a ∈ args, PriorityFits type a.priority) (hrefused : motive db)
    (hmoves : stateRefusal db.operationalState = none →
      motive (args.foldl (requeueMove type now) db)) :
    motive (requeueImmediate now args db).db := by
  cases hstate : stateRefusal db.operationalState with
  | some r => rwa [requeueImmediate_refused now hstate]
  | none =>
    rw [requeueImmediate_moves now htype hstate hfit]
    exact hmoves hstate

@[elab_as_elim]
theorem requeueDelayed_run {motive : Keyspace → Prop} (htype : db.queueType? = some type)
    (hfit : ∀ a ∈ args, PriorityFits type a.priority) (hrefused : motive db)
    (hmoves : stateRefusal db.operationalState = none →
      motive (args.foldl (delayedMove type now) db)) : motive (requeueDelayed now args db).db := by
  cases hstate : stateRefusal db.operationalState with
  | some r => rwa [requeueDelayed_refused now hstate]
  | none =>
    rw [requeueDelayed_moves now htype hstate hfit]
    exact hmoves hstate

end

end RedisSmq
