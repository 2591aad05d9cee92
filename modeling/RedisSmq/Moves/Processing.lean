import RedisSmq.Moves.Footprint

/-!
# Processing lists

Only pops and settlements touch the processing lists. A pop adds the identifier that it
takes, and a settlement that the queue accepts removes the identifiers of its batch, each
as often as the batch names it.
-/

namespace RedisSmq

/-- The processing lists are the same. -/
def SameProcessing (db db' : Keyspace) : Prop :=
  ∀ c, db'.lists (.processing c) = db.lists (.processing c)

theorem Writes.sameProcessing {W : Set Slot} {db db' : Keyspace} (h : Writes W db db')
    (hW : ∀ c, .list (.processing c) ∉ W) : SameProcessing db db' :=
  fun c => h _ (hW c)

/-- Publishing, requeuing and deleting do not touch processing lists. -/
theorem Writes.traffic_sameProcessing {type : QueueType} {db db' : Keyspace}
    (h : Writes (traffic type) db db') : SameProcessing db db' :=
  h.sameProcessing fun _ => id

section Settle

variable {cfg : Config} {c : ConsumerId} {db : Keyspace}

/-- The batch leaves the processing list of the consumer and no other. -/
def Withdraws (c : ConsumerId) (ids : List MessageId) (db db' : Keyspace) : Prop :=
  ∀ c', db'.lists (.processing c') =
    if c' = c then (db.lists (.processing c)).diff ids else db.lists (.processing c')

private theorem Withdraws.of_move {db db' : Keyspace} {id : MessageId}
    (hmem : id ∈ db.lists (.processing c) → SameProcessing (db.lrem (.processing c) id) db')
    (hnot : id ∉ db.lists (.processing c) → db' = db) (c' : ConsumerId) :
    db'.lists (.processing c') =
      if c' = c then (db.lists (.processing c)).erase id else db.lists (.processing c') := by
  by_cases h : id ∈ db.lists (.processing c)
  · rw [hmem h c']
    by_cases hc : c' = c
    · subst hc
      simp [Keyspace.lrem, Keyspace.setList]
    · simp [Keyspace.lrem, Keyspace.setList, hc]
  · rw [hnot h, List.erase_of_not_mem h]
    split
    · rename_i hc
      rw [hc]
    · rfl

private theorem Withdraws.foldl {α : Type} {key : α → MessageId} {move : Keyspace → α → Keyspace}
    (hmove : ∀ db a c', (move db a).lists (.processing c') =
      if c' = c then (db.lists (.processing c)).erase (key a) else db.lists (.processing c'))
    (args : List α) (db : Keyspace) : Withdraws c (args.map key) db (args.foldl move db) := by
  induction args generalizing db with
  | nil =>
    intro c'
    by_cases hc : c' = c
    · simp [hc]
    · simp [hc]
  | cons a args ih =>
    intro c'
    rw [List.foldl_cons, ih (move db a) c', hmove, hmove, if_pos rfl]
    by_cases hc : c' = c
    · rw [if_pos hc, if_pos hc, List.map_cons, List.diff_cons]
    · rw [if_neg hc, if_neg hc, if_neg hc]

theorem acknowledgeMessage_withdraws (now : Millis) (ids : List MessageId)
    (hacc : db.accepts = true) : Withdraws c ids db (acknowledgeMessage cfg c now ids db).db := by
  have hfold := @Withdraws.foldl c MessageId (fun id => id) (ackMove c now)
    (fun db id => Withdraws.of_move (fun hmem => by
      rw [ackMove, if_pos hmem]
      exact fun _ => rfl) fun hnot => if_neg hnot) ids db
  rw [List.map_id'] at hfold
  rcases acknowledgeMessage_moves c now cfg hacc with hdb | ⟨-, hdb⟩
  · rw [hdb]
    exact hfold
  rw [hdb]
  have haudit := ((Writes.refl {.list .acknowledged} (ids.foldl (ackMove c now) db)).keepAudit
    (k := .acknowledged) (by simp) cfg.acknowledged
    (ackedIds (acknowledgeLoop c now ids db).1)).sameProcessing (by simp)
  exact fun c' => (haudit c').trans (hfold c')

theorem unacknowledgeMessage_withdraws (args : List UnackArg) (hacc : db.accepts = true) :
    Withdraws c (args.map UnackArg.id) db (unacknowledgeMessage cfg c args db).2 := by
  rw [unacknowledgeMessage_moves cfg c args db hacc]
  refine Withdraws.foldl (fun db a => Withdraws.of_move (fun hmem => ?_) fun hnot => if_neg hnot)
    args db
  rw [if_pos hmem]
  have hwrites : Writes {.list .requeued, .list .deadLetter} (db.lrem (.processing c) a.id) _ :=
    (((Writes.refl _ _).pushUnacked (by simp) (by simp) cfg a).recordUnack cfg a).hset a.id a.write
  exact hwrites.sameProcessing (by simp)

/-- A pop adds its identifier to the processing list of the consumer. -/
theorem pop_processing {type : QueueType} {group : Option GroupId} {id : MessageId}
    {db' : Keyspace} (h : pop type group c db = (some id, db')) (c' : ConsumerId) :
    db'.lists (.processing c') =
      if c' = c then id :: db.lists (.processing c) else db.lists (.processing c') := by
  have hpush : ∀ db₁ : Keyspace, SameProcessing db db₁ →
      (db₁.lpush (.processing c) id).lists (.processing c') =
        if c' = c then id :: db.lists (.processing c) else db.lists (.processing c') := by
    intro db₁ hsame
    by_cases hc : c' = c
    · subst hc
      simp [Keyspace.lpush, Keyspace.setList, hsame c']
    · simp [Keyspace.lpush, Keyspace.setList, hc, hsame c']
  unfold pop at h
  cases type with
  | lifo | fifo =>
    dsimp only at h
    split at h
    · cases h
    cases h
    exact hpush _ (((Writes.refl {.list (.pending group)} db).setList rfl _).sameProcessing
      (by simp))
  | priority =>
    dsimp only at h
    split at h
    · cases h
    · cases h
      exact hpush _ fun _ => rfl

end Settle

end RedisSmq
