import RedisSmq.Scripts.Settle
import RedisSmq.Store.Laws

/-!
# Settling as a sequence of moves

The settling scripts update the counters once for a whole batch. A move settles
one message and updates the counters at once. This module shows that a run of a
settling script is the sequence of the moves of its messages, so that everything
that follows can be proved about one message at a time.
-/

namespace RedisSmq

namespace Keyspace

/-- One message leaves the count `source` and enters the count `target`. -/
def shift (db : Keyspace) (source target : Counter) : Keyspace :=
  (db.hincrby source (-1)).hincrby target 1

section Shift

variable (db : Keyspace) (source target c : Counter) (m : MessageId)

@[simp] theorem hgetall_shift : (db.shift source target).hgetall m = db.hgetall m := rfl

theorem counter_shift :
    (db.shift source target).counter c =
      db.counter c - (if c = source then 1 else 0) + if c = target then 1 else 0 := by
  simp only [shift, counter_hincrby]
  split <;> omega

/-- What a shift adds to each counter. -/
def shiftDelta (source target c : Counter) : Int :=
  (if c = source then -1 else 0) + if c = target then 1 else 0

theorem shift_adjust (d : Counter → Int) :
    (db.adjust d).shift source target = db.adjust fun c => d c + shiftDelta source target c := by
  rw [shift, hincrby_eq_adjust, hincrby_eq_adjust, adjust_adjust, adjust_adjust]
  rfl

theorem hincrbyPos_eq_adjust (h : db.queue.isSome) (sign : Int) (n : Nat) :
    db.hincrbyPos c sign n = db.adjust fun c' => if c' = c then sign * n else 0 := by
  unfold hincrbyPos
  by_cases hn : 0 < n
  · rw [if_pos hn, hincrby_eq_adjust]
  have hn0 : n = 0 := by omega
  subst hn0
  simpa using (db.adjust_zero h).symm

theorem hincrbyPos_adjust (d : Counter → Int) (sign : Int) (n : Nat) :
    (db.adjust d).hincrbyPos c sign n =
      db.adjust fun c' => d c' + if c' = c then sign * n else 0 := by
  rw [hincrbyPos_eq_adjust (db.adjust d) c rfl, adjust_adjust]

end Shift

/-! ## Audit lists and histories -/

section Audit

variable (cfg : Config) (audit : AuditQueue) (db : Keyspace) (k : ListKey) (ids : List MessageId)
variable (m : MessageId) (p : Slot) (c : Counter) (a : UnackArg)

@[simp] theorem hgetall_keepAudit : (db.keepAudit k audit ids).hgetall m = db.hgetall m := by
  unfold keepAudit
  dsimp only
  split <;> rfl

@[simp] theorem settings_keepAudit : (db.keepAudit k audit ids).settings = db.settings := by
  unfold keepAudit
  dsimp only
  split <;> rfl

theorem occ_keepAudit_ne (h : p ≠ .list k) : (db.keepAudit k audit ids).occ p m = db.occ p m := by
  unfold keepAudit
  dsimp only
  split <;> simp [ltrimLast, occ_setList, h]

/-- An audit list gains no identifier that is not pushed. -/
theorem occ_keepAudit_le (h : m ∉ ids) : (db.keepAudit k audit ids).occ p m ≤ db.occ p m := by
  by_cases hp : p = .list k
  · subst hp
    have happend : (db.lists k ++ ids).count m = (db.lists k).count m := by
      rw [List.count_append, List.count_eq_zero_of_not_mem h, Nat.add_zero]
    unfold keepAudit
    dsimp only
    split
    · rw [occ_setList, if_pos rfl, happend]
      exact le_rfl
    rw [ltrimLast, occ_setList, if_pos rfl]
    calc (((db.setList k (db.lists k ++ ids)).lists k).drop _).count m
        ≤ ((db.setList k (db.lists k ++ ids)).lists k).count m :=
          (List.drop_sublist _ _).count_le m
      _ = db.occ (.list k) m := by simp [setList, occ, happend]
  · rw [occ_keepAudit_ne _ _ _ _ _ _ hp]

@[simp] theorem hgetall_recordUnack : (db.recordUnack cfg a).hgetall m = db.hgetall m := by
  unfold recordUnack
  split <;> rfl

@[simp] theorem occ_recordUnack : (db.recordUnack cfg a).occ p m = db.occ p m := by
  unfold recordUnack
  split <;> simp

@[simp] theorem settings_recordUnack : (db.recordUnack cfg a).settings = db.settings := by
  unfold recordUnack
  split <;> simp

@[simp] theorem hgetall_pushUnacked : (db.pushUnacked cfg a).hgetall m = db.hgetall m := by
  unfold pushUnacked
  split
  · rfl
  · split <;> simp

theorem keepAudit_adjust (d : Counter → Int) :
    (db.adjust d).keepAudit k audit ids = (db.keepAudit k audit ids).adjust d := by
  unfold keepAudit
  dsimp only
  split <;> rfl

theorem pushUnacked_adjust (d : Counter → Int) :
    (db.adjust d).pushUnacked cfg a = (db.pushUnacked cfg a).adjust d := by
  unfold pushUnacked
  split
  · rfl
  split
  · exact keepAudit_adjust _ _ _ _ d
  · rfl

theorem recordUnack_adjust (d : Counter → Int) :
    (db.adjust d).recordUnack cfg a = (db.recordUnack cfg a).adjust d := by
  unfold recordUnack
  split <;> rfl

@[simp] theorem queue_recordUnack : (db.recordUnack cfg a).queue = db.queue := by
  unfold recordUnack
  split <;> rfl

@[simp] theorem queue_pushUnacked : (db.pushUnacked cfg a).queue = db.queue := by
  unfold pushUnacked keepAudit
  dsimp only
  split
  · rfl
  split
  · split <;> rfl
  · rfl

end Audit

end Keyspace

/-! ## Acknowledging -/

/-- One message of `acknowledge-message`, with its counters. -/
def ackMove (c : ConsumerId) (now : Millis) (db : Keyspace) (id : MessageId) : Keyspace :=
  if id ∈ db.lists (.processing c) then
    ((db.lrem (.processing c) id).hset id (acknowledgeWrite now)).shift .processing .acknowledged
  else db

/-- What the batch adds to the counters when it found `n` identifiers. -/
def ackDelta (n : Nat) (c : Counter) : Int :=
  (if c = .acknowledged then (n : Int) else 0) + if c = .processing then -(n : Int) else 0

section Acknowledge

variable (c : ConsumerId) (now : Millis) (ids : List MessageId) (db : Keyspace)

-- The counters of the messages before this one are still outstanding: they are `d`.
private theorem acknowledgeLoop_moves (d : Counter → Int) :
    (acknowledgeLoop c now ids db).2.adjust
        (fun c' => d c' + ackDelta (ackedIds (acknowledgeLoop c now ids db).1).length c') =
      ids.foldl (ackMove c now) (db.adjust d) := by
  induction ids generalizing db d with
  | nil =>
    simp only [acknowledgeLoop, ackedIds, ackDelta, List.foldl_nil]
    congr 1
    funext c'
    simp
  | cons id ids ih =>
    rw [List.foldl_cons]
    by_cases h : id ∈ db.lists (.processing c)
    · have hmove : ackMove c now (db.adjust d) id =
          ((db.lrem (.processing c) id).hset id (acknowledgeWrite now)).adjust fun c' =>
            d c' + Keyspace.shiftDelta .processing .acknowledged c' := by
        rw [ackMove, if_pos (show id ∈ (db.adjust d).lists (.processing c) from h)]
        exact Keyspace.shift_adjust ((db.lrem (.processing c) id).hset id (acknowledgeWrite now))
          .processing .acknowledged d
      rw [hmove, ← ih]
      simp only [acknowledgeLoop, if_pos h]
      congr 1
      funext c'
      simp only [ackedIds, ackDelta, Keyspace.shiftDelta, List.filter_cons_of_pos, List.map_cons,
        List.length_cons]
      split <;> split <;> omega
    · have hmove : ackMove c now (db.adjust d) id = db.adjust d :=
        if_neg (show id ∉ (db.adjust d).lists (.processing c) from h)
      rw [hmove, ← ih]
      simp [acknowledgeLoop, if_neg h, ackedIds]

variable {ids db}

/-- The script acknowledges only what was in the processing list. -/
theorem mem_of_mem_ackedIds {m : MessageId}
    (h : m ∈ ackedIds (acknowledgeLoop c now ids db).1) : m ∈ db.lists (.processing c) := by
  induction ids generalizing db with
  | nil => simp [acknowledgeLoop, ackedIds] at h
  | cons id ids ih =>
    by_cases hid : id ∈ db.lists (.processing c)
    · simp only [acknowledgeLoop, if_pos hid, ackedIds, List.filter_cons_of_pos, List.map_cons,
        List.mem_cons] at h
      rcases h with rfl | h
      · exact hid
      have hrest := ih h
      rw [Keyspace.mem_list_iff, Keyspace.occ_hset, Keyspace.occ_lrem] at hrest
      rw [Keyspace.mem_list_iff]
      omega
    · have hskip : ackedIds (acknowledgeLoop c now (id :: ids) db).1 =
          ackedIds (acknowledgeLoop c now ids db).1 := by
        simp [acknowledgeLoop, if_neg hid, ackedIds]
      exact ih (hskip ▸ h)

/-- The script acknowledges only what it is given. -/
theorem mem_batch_of_mem_ackedIds {m : MessageId}
    (h : m ∈ ackedIds (acknowledgeLoop c now ids db).1) : m ∈ ids := by
  induction ids generalizing db with
  | nil => simp [acknowledgeLoop, ackedIds] at h
  | cons id ids ih =>
    by_cases hid : id ∈ db.lists (.processing c)
    · simp only [acknowledgeLoop, if_pos hid, ackedIds, List.filter_cons_of_pos, List.map_cons,
        List.mem_cons] at h
      rcases h with rfl | h
      · exact List.mem_cons_self
      · exact List.mem_cons_of_mem _ (ih h)
    · have hskip : ackedIds (acknowledgeLoop c now (id :: ids) db).1 =
          ackedIds (acknowledgeLoop c now ids db).1 := by
        simp [acknowledgeLoop, if_neg hid, ackedIds]
      exact List.mem_cons_of_mem _ (ih (hskip ▸ h))

private theorem acknowledgeLoop_queue : (acknowledgeLoop c now ids db).2.queue = db.queue := by
  induction ids generalizing db with
  | nil => rfl
  | cons id ids ih =>
    by_cases hid : id ∈ db.lists (.processing c)
    · simp only [acknowledgeLoop, if_pos hid, ih]
      rfl
    · simp only [acknowledgeLoop, if_neg hid, ih]

/-- A run of `acknowledge-message` on a queue that accepts it is the sequence of its
moves, followed at most by a write to the audit list if that is enabled. -/
theorem acknowledgeMessage_moves (cfg : Config) (h : db.accepts = true) :
    (acknowledgeMessage cfg c now ids db).db = ids.foldl (ackMove c now) db ∨
      cfg.acknowledged.enabled = true ∧ (acknowledgeMessage cfg c now ids db).db =
        (ids.foldl (ackMove c now) db).keepAudit .acknowledged cfg.acknowledged
          (ackedIds (acknowledgeLoop c now ids db).1) := by
  simp only [Keyspace.accepts, Bool.and_eq_true, Option.isNone_iff_eq_none] at h
  obtain ⟨hq, hstate⟩ := h
  have hloop := acknowledgeLoop_moves c now ids db fun _ => 0
  rw [db.adjust_zero hq] at hloop
  have hcounters : ((acknowledgeLoop c now ids db).2.hincrby .acknowledged
      (ackedIds (acknowledgeLoop c now ids db).1).length).hincrby .processing
        (-(ackedIds (acknowledgeLoop c now ids db).1).length) =
      ids.foldl (ackMove c now) db := by
    rw [← hloop, Keyspace.hincrby_eq_adjust, Keyspace.hincrby_eq_adjust, Keyspace.adjust_adjust]
    congr 1
    funext c'
    simp [ackDelta]
  have hsome : db.queue.isNone = false := by simpa using hq
  unfold acknowledgeMessage
  rw [if_neg (by simp [hsome]), hstate]
  dsimp only
  by_cases hnone : ackedIds (acknowledgeLoop c now ids db).1 = []
  · rw [if_pos hnone, ← hloop, hnone]
    left
    simpa [ackDelta] using
      ((acknowledgeLoop c now ids db).2.adjust_zero (by rw [acknowledgeLoop_queue]; exact hq)).symm
  · rw [if_neg hnone, ← hcounters]
    by_cases haudit : cfg.acknowledged.enabled = true
    · rw [if_pos haudit]
      by_cases hlimit : cfg.unpackLimit < (ackedIds (acknowledgeLoop c now ids db).1).length
      · exact .inl (congrArg Outcome.db (if_pos hlimit))
      · exact .inr ⟨haudit, congrArg Outcome.db (if_neg hlimit)⟩
    · rw [if_neg haudit]
      exact .inl rfl

/-- A queue that does not accept an acknowledgement is left as it is. -/
theorem acknowledgeMessage_refused (cfg : Config) (h : db.accepts = false) :
    (acknowledgeMessage cfg c now ids db).db = db := by
  unfold acknowledgeMessage
  split
  · rfl
  rename_i hq
  split
  · rfl
  · rename_i hstate
    simp_all [Keyspace.accepts]

/-- The rule of `acknowledge-message`: a run leaves the keys as they are, or makes its moves
and may then write to the audit list. -/
@[elab_as_elim]
theorem acknowledgeMessage_run {motive : Keyspace → Prop} (cfg : Config) (hrefused : motive db)
    (hmoves : db.accepts = true → motive (ids.foldl (ackMove c now) db))
    (haudit : cfg.acknowledged.enabled = true → motive (ids.foldl (ackMove c now) db) →
      motive ((ids.foldl (ackMove c now) db).keepAudit .acknowledged cfg.acknowledged
        (ackedIds (acknowledgeLoop c now ids db).1))) :
    motive (acknowledgeMessage cfg c now ids db).db := by
  cases hacc : db.accepts with
  | false => rwa [acknowledgeMessage_refused c now cfg hacc]
  | true =>
    rcases acknowledgeMessage_moves c now cfg hacc with hdb | ⟨henabled, hdb⟩ <;> rw [hdb]
    · exact hmoves hacc
    · exact haudit henabled (hmoves hacc)

/-- A queue that does not accept an acknowledgement says so. -/
theorem acknowledgeMessage_reply_refused (cfg : Config) (h : db.accepts = false) :
    ∃ r, (acknowledgeMessage cfg c now ids db).reply = .ok (.error r) := by
  unfold acknowledgeMessage
  split
  · exact ⟨_, rfl⟩
  rename_i hq
  split
  · exact ⟨_, rfl⟩
  · rename_i hstate
    simp_all [Keyspace.accepts]

end Acknowledge

/-! ## Unacknowledging -/

/-- One message of `unacknowledge-message`, with its counters. -/
def unackMove (cfg : Config) (c : ConsumerId) (db : Keyspace) (a : UnackArg) : Keyspace :=
  if a.id ∈ db.lists (.processing c) then
    (unacknowledgeOne cfg c a db).shift .processing (if a.retries then .requeued else .deadLettered)
  else db

/-- What a batch of `unacknowledge-message` adds to the counters. -/
def unackDelta (requeued dead : Nat) (c : Counter) : Int :=
  (if c = .processing then -((requeued + dead : Nat) : Int) else 0) +
    (if c = .deadLettered then (dead : Int) else 0) + if c = .requeued then (requeued : Int) else 0

section Unacknowledge

variable (cfg : Config) (c : ConsumerId) (a : UnackArg) (args : List UnackArg) (db : Keyspace)

theorem unacknowledgeOne_adjust (d : Counter → Int) :
    unacknowledgeOne cfg c a (db.adjust d) = (unacknowledgeOne cfg c a db).adjust d := by
  unfold unacknowledgeOne
  rw [show (db.adjust d).lrem (.processing c) a.id =
      (db.lrem (.processing c) a.id).adjust d from rfl,
    Keyspace.pushUnacked_adjust, Keyspace.recordUnack_adjust]
  rfl

private theorem unackMove_adjust (h : a.id ∈ db.lists (.processing c)) (d : Counter → Int) :
    unackMove cfg c (db.adjust d) a =
      (unacknowledgeOne cfg c a db).adjust fun c' =>
        d c' + Keyspace.shiftDelta .processing
          (if a.retries then .requeued else .deadLettered) c' := by
  rw [unackMove, if_pos (show a.id ∈ (db.adjust d).lists (.processing c) from h),
    unacknowledgeOne_adjust, Keyspace.shift_adjust]

private theorem unacknowledgeLoop_moves (requeued dead : Nat) :
    (unacknowledgeLoop cfg c args requeued dead db).2.adjust
        (unackDelta (unacknowledgeLoop cfg c args requeued dead db).1.1
          (unacknowledgeLoop cfg c args requeued dead db).1.2) =
      args.foldl (unackMove cfg c) (db.adjust (unackDelta requeued dead)) := by
  induction args generalizing db requeued dead with
  | nil => rfl
  | cons a args ih =>
    rw [List.foldl_cons]
    by_cases h : a.id ∈ db.lists (.processing c)
    · rw [unackMove_adjust cfg c a db h]
      by_cases hr : a.retries = true
      · simp only [unacknowledgeLoop, if_pos h, if_pos hr, ih]
        congr 2
        funext c'
        cases c' <;> simp [unackDelta, Keyspace.shiftDelta]
        omega
      · simp only [unacknowledgeLoop, if_pos h, if_neg hr, ih]
        congr 2
        funext c'
        cases c' <;> simp [unackDelta, Keyspace.shiftDelta]
        omega
    · rw [show unackMove cfg c (db.adjust (unackDelta requeued dead)) a = _ from if_neg h]
      simp only [unacknowledgeLoop, if_neg h, ih]

private theorem unacknowledgeLoop_queue (requeued dead : Nat) :
    (unacknowledgeLoop cfg c args requeued dead db).2.queue = db.queue := by
  induction args generalizing db requeued dead with
  | nil => rfl
  | cons a args ih =>
    have hone : (unacknowledgeOne cfg c a db).queue = db.queue := by
      rw [unacknowledgeOne, Keyspace.queue_hset, Keyspace.queue_recordUnack,
        Keyspace.queue_pushUnacked]
      rfl
    unfold unacknowledgeLoop
    split
    · split <;> rw [ih, hone]
    · exact ih db requeued dead

/-- A run of `unacknowledge-message` on a queue that accepts it is the sequence of
its moves. -/
theorem unacknowledgeMessage_moves (h : db.accepts = true) :
    (unacknowledgeMessage cfg c args db).2 = args.foldl (unackMove cfg c) db := by
  simp only [Keyspace.accepts, Bool.and_eq_true, Option.isNone_iff_eq_none] at h
  obtain ⟨hq, hstate⟩ := h
  have hloop := unacknowledgeLoop_moves cfg c args db 0 0
  have hzero : unackDelta 0 0 = fun _ => 0 := by
    funext c'
    simp [unackDelta]
  rw [hzero, db.adjust_zero hq] at hloop
  have hloopq : (unacknowledgeLoop cfg c args 0 0 db).2.queue.isSome := by
    rw [unacknowledgeLoop_queue]
    exact hq
  have hsome : db.queue.isNone = false := by simpa using hq
  unfold unacknowledgeMessage
  rw [if_neg (by simp [hsome]), hstate, ← hloop]
  dsimp only
  rw [Keyspace.hincrbyPos_eq_adjust (unacknowledgeLoop cfg c args 0 0 db).2 _ hloopq,
    Keyspace.hincrbyPos_adjust, Keyspace.hincrbyPos_adjust]
  congr 1
  funext c'
  cases c' <;> simp [unackDelta]

/-- A queue that does not accept an unacknowledgement is left as it is. -/
theorem unacknowledgeMessage_refused (h : db.accepts = false) :
    (unacknowledgeMessage cfg c args db).2 = db := by
  unfold unacknowledgeMessage
  split
  · rfl
  split
  · rfl
  · simp_all [Keyspace.accepts]

variable {db} in
@[elab_as_elim]
theorem unacknowledgeMessage_run {motive : Keyspace → Prop} (hrefused : motive db)
    (hmoves : db.accepts = true → motive (args.foldl (unackMove cfg c) db)) :
    motive (unacknowledgeMessage cfg c args db).2 := by
  cases hacc : db.accepts with
  | false => rwa [unacknowledgeMessage_refused cfg c args db hacc]
  | true =>
    rw [unacknowledgeMessage_moves cfg c args db hacc]
    exact hmoves hacc

end Unacknowledge

end RedisSmq
