import RedisSmq.Admin.DeleteAcross
import RedisSmq.Admin.DeleteLaws
import Mathlib.Algebra.BigOperators.Group.List.Lemmas
import Mathlib.Algebra.GroupWithZero.Nat

/-!
# The statistics of a deletion

A script counts every identifier it is given once, as deleted, as not found or as being
processed, and it removes one hash for each that it counts as deleted. This holds on any
keyspace. What other clients do between the commands of a call can therefore change which
messages are deleted, but not that the statistics of the call add up.
-/

namespace RedisSmq

/-- The second keyspace has the hashes of the first one without those in `gone`. -/
structure Keyspace.Removes (db : Keyspace) (gone : List MessageId) (db' : Keyspace) : Prop where
  nodup : gone.Nodup
  stored : ∀ m ∈ gone, (db.hgetall m).isSome
  hash : ∀ m, db'.hgetall m = if m ∈ gone then none else db.hgetall m

namespace Keyspace.Removes

variable {db db' db'' : Keyspace} {gone gone' : List MessageId}

theorem refl (db : Keyspace) : db.Removes [] db :=
  ⟨List.nodup_nil, by simp, by simp⟩

theorem trans (h : db.Removes gone db') (h' : db'.Removes gone' db'') :
    db.Removes (gone ++ gone') db'' := by
  have hkept : ∀ m ∈ gone', m ∉ gone := by
    intro m hm hgone
    have hstored := h'.stored m hm
    rw [h.hash, if_pos hgone] at hstored
    cases hstored
  refine ⟨?_, ?_, ?_⟩
  · refine List.nodup_append.2 ⟨h.nodup, h'.nodup, ?_⟩
    rintro a ha b hb rfl
    exact hkept a hb ha
  · intro m hm
    rcases List.mem_append.1 hm with hm | hm
    · exact h.stored m hm
    · have hstored := h'.stored m hm
      rwa [h.hash, if_neg (hkept m hm)] at hstored
  · intro m
    rw [h'.hash, h.hash]
    by_cases hm : m ∈ gone <;> by_cases hm' : m ∈ gone' <;> simp [hm, hm']

/-- As many hashes are removed as there are identifiers in the list. -/
theorem length_removed (h : db.Removes gone db') : (db.removed db').length = gone.length := by
  have hperm : (db.removed db').Perm gone := by
    refine (List.perm_ext_iff_of_nodup (db.messages.keys_nodup.filter _) h.nodup).2 ?_
    intro m
    rw [List.mem_filter, h.hash]
    by_cases hm : m ∈ gone
    · have hstored := h.stored m hm
      rw [Keyspace.hgetall, AList.lookup_isSome] at hstored
      simp only [hm, if_true, Option.isNone_none, and_true, iff_true]
      exact hstored
    · simp only [hm, if_false, iff_false, not_and]
      intro hmem hnone
      have hstored : (db.messages.lookup m).isSome := AList.lookup_isSome.2 hmem
      rw [Keyspace.hgetall, Option.isNone_iff_eq_none] at hnone
      rw [hnone] at hstored
      cases hstored
  exact hperm.length_eq

end Keyspace.Removes

/-- The statistics count each of `n` identifiers once, and `m` of them as deleted. -/
structure DeleteStats.Counts (stats : DeleteStats) (n m : Nat) : Prop where
  processed : stats.processed = n
  total : stats.processed = stats.success + stats.notFound + stats.inProcess
  success : stats.success = m

theorem DeleteStats.counts_missing (n : Nat) :
    ({ processed := n, notFound := n } : DeleteStats).Counts n 0 :=
  ⟨rfl, (Nat.zero_add n).symm, rfl⟩

theorem DeleteStats.Counts.add {s t : DeleteStats} {n m n' m' : Nat} (h : s.Counts n m)
    (h' : t.Counts n' m') : (s.add t).Counts (n + n') (m + m') := by
  obtain ⟨h₁, h₂, h₃⟩ := h
  obtain ⟨h₁', h₂', h₃'⟩ := h'
  constructor <;> simp only [DeleteStats.add] <;> omega

section Script

variable {type : Option QueueType} {group : Option GroupId} {lock : Option LockId}

/-- One round of the loop: a message is deleted, or nothing is. -/
theorem deleteMessageLoop_cons (id : MessageId) (ids : List MessageId) (stats : DeleteStats)
    (db : Keyspace) {db'' : Keyspace} {t : DeleteStats}
    (h : deleteMessageLoop type group (id :: ids) stats db = .done db'' t) :
    ∃ db' one gone, deleteMessageLoop type group ids (stats.add one) db' = .done db'' t ∧
      db.Removes gone db' ∧ one.Counts 1 gone.length := by
  cases hst : db.status id with
  | none =>
    refine ⟨db, { processed := 1, notFound := 1 }, [], ?_, .refl db, ⟨rfl, rfl, rfl⟩⟩
    rw [← h]
    simp only [deleteMessageLoop, hst]
    rfl
  | some st =>
    by_cases hproc : st = .processing
    · subst hproc
      refine ⟨db, { processed := 1, inProcess := 1 }, [], ?_, .refl db, ⟨rfl, rfl, rfl⟩⟩
      rw [← h]
      simp only [deleteMessageLoop, hst]
      rfl
    · cases hremove : removeFromContainer type group id db st with
      | error e =>
        exfalso
        rw [deleteMessageLoop, hst] at h
        cases st <;> first | exact hproc rfl | (dsimp only at h; rw [hremove] at h; cases h)
      | ok r =>
        obtain ⟨counter, db'⟩ := r
        refine ⟨eraseMessage id counter db', { processed := 1, success := 1 }, [id], ?_, ?_,
          ⟨rfl, rfl, rfl⟩⟩
        · rw [← h, deleteMessageLoop, hst]
          cases st <;> first | exact absurd rfl hproc | (dsimp only; rw [hremove]; rfl)
        have hhash : ∀ m, db'.hgetall m = db.hgetall m := by
          intro m
          rw [(removeFromContainer_ok hproc hremove).2, Keyspace.hgetall_removeAt]
        refine ⟨List.nodup_singleton id, ?_, ?_⟩
        · intro m hm
          rw [List.mem_singleton.1 hm]
          obtain ⟨h, hh, -⟩ := Option.bind_eq_some_iff.1 hst
          rw [hh]
          rfl
        · intro m
          rw [hgetall_eraseMessage, hhash]
          simp only [List.mem_singleton]

/-- The loop counts every identifier once, and removes the hashes of those that it counts
as deleted. -/
theorem deleteMessageLoop_counts (ids : List MessageId) (stats : DeleteStats) (db : Keyspace)
    {db' : Keyspace} {t : DeleteStats}
    (h : deleteMessageLoop type group ids stats db = .done db' t) :
    ∃ gone one, t = stats.add one ∧ db.Removes gone db' ∧ one.Counts ids.length gone.length := by
  induction ids generalizing stats db with
  | nil =>
    cases h
    exact ⟨[], {}, rfl, .refl _, ⟨rfl, rfl, rfl⟩⟩
  | cons id ids ih =>
    obtain ⟨db₁, one, gone, hrest, hremoves, hone⟩ := deleteMessageLoop_cons id ids stats _ h
    obtain ⟨gone', others, rfl, hremoves', hothers⟩ := ih _ _ hrest
    refine ⟨gone ++ gone', one.add others, DeleteStats.add_assoc stats one others,
      hremoves.trans hremoves', ?_⟩
    rw [List.length_cons, List.length_append, Nat.add_comm ids.length]
    exact hone.add hothers

/-- A script that replies with statistics has run its loop to the end. -/
theorem deleteMessage_loop {ids : List MessageId} {db db' : Keyspace} {stats : DeleteStats}
    (h : deleteMessage group lock ids db = ⟨db', .ok (.ok stats)⟩) :
    deleteMessageLoop db.queueType? group ids {} db = .done db' stats := by
  unfold deleteMessage at h
  split at h
  · cases h
  split at h
  · cases h
  split at h
  · cases h
  cases hloop : deleteMessageLoop db.queueType? group ids {} db with
  | mk db₁ reply =>
    rw [hloop] at h
    cases reply with
    | error e => cases h
    | ok t =>
      cases h
      rfl

theorem deleteMessageGroup_counts {messages : List Envelope} {db db' : Keyspace}
    {stats : DeleteStats} (h : deleteMessageGroup group messages lock db = (db', .ok stats)) :
    stats.Counts messages.length (db.removed db').length := by
  have hscript : deleteMessage group lock (messages.map Envelope.id) db =
      ⟨db', .ok (.ok stats)⟩ := by
    unfold deleteMessageGroup at h
    split at h <;> cases h
    assumption
  obtain ⟨gone, one, rfl, hremoves, hone⟩ :=
    deleteMessageLoop_counts _ {} db (deleteMessage_loop hscript)
  have hempty : ({} : DeleteStats).Counts 0 0 := ⟨rfl, rfl, rfl⟩
  rw [hremoves.length_removed]
  have hcounts := hempty.add hone
  rwa [Nat.zero_add, Nat.zero_add, List.length_map] at hcounts

end Script

section Call

variable {env : Interference} {opts : ConsumeOptions} {draws : Draws}
variable {groupName : GroupId → String}
variable {messages : List LoadedMessage}

theorem World.destinationQueue_eq {w : World} {id : MessageId} {q : QueueParams} (p : Params)
    (h : w.home id = some q) : w.destinationQueue id p = some q := by
  rw [World.destinationQueue, Document.decodeParams_encode, h]
  rfl

/-- A message that is loaded names its queue. -/
theorem World.getMessage_some {w : World} {draw : MessageId × Nanos} {id : MessageId}
    {m : LoadedMessage} (h : w.getMessage opts draw id = some (some m)) :
    ∃ q, m.destinationQueue = some q := by
  obtain ⟨hash, hhash, hdecode⟩ := Option.map_eq_some_iff.1 h
  obtain ⟨q, hq, -⟩ := Option.bind_eq_some_iff.1 hhash
  obtain ⟨e, he, rfl⟩ := Option.map_eq_some_iff.1 hdecode
  obtain ⟨p, hp, -⟩ := Codec.decodeEnvelope_message he
  refine ⟨q, ?_⟩
  change hash.message.bind (w.destinationQueue id) = some q
  rw [hp]
  exact World.destinationQueue_eq p hq

/-- There are not more messages than identifiers, and each names its queue. -/
theorem loadMessages_some (ids : List MessageId) (n : Nat) (w : World) {n' : Nat} {w' : World}
    (h : loadMessages env opts draws ids n w = (some messages, n', w')) :
    messages.length ≤ ids.length ∧ ∀ m ∈ messages, ∃ q, m.destinationQueue = some q := by
  induction ids generalizing n w messages with
  | nil =>
    cases h
    exact ⟨Nat.le_refl 0, by simp⟩
  | cons id ids ih =>
    rw [loadMessages] at h
    cases hread : (env n w).getMessage opts (draws n) id with
    | none =>
      simp only [hread] at h
      obtain ⟨hle, hnamed⟩ := ih _ _ h
      exact ⟨Nat.le_succ_of_le hle, hnamed⟩
    | some decoded =>
      cases decoded with
      | none =>
        simp only [hread] at h
        cases h
      | some m =>
        simp only [hread] at h
        obtain ⟨hmessages, -⟩ := Prod.mk.inj h
        obtain ⟨rest, hrest, rfl⟩ := Option.map_eq_some_iff.1 hmessages
        obtain ⟨hle, hnamed⟩ := ih (n + 1) (env n w) (Prod.ext hrest (Prod.mk.inj h).2)
        refine ⟨Nat.succ_le_succ hle, ?_⟩
        intro m' hm'
        rcases List.mem_cons.1 hm' with rfl | hm'
        · exact World.getMessage_some hread
        · exact hnamed m' hm'

/-- The number of messages under the keys. -/
def groupedCount (groupName : GroupId → String) (messages : List LoadedMessage)
    (keys : List (QueueParams × String)) : Nat :=
  (keys.map fun key => (messagesOf groupName messages key).length).sum

/-- The scripts of all groups together. -/
theorem deleteGroups_counts {lock : Option LockId}
    (keys : List (QueueParams × String)) (progress : DeleteProgress) (n : Nat) (w : World)
    {k : Nat} (hstart : progress.stats.Counts k progress.removed.length)
    {progress' : DeleteProgress} {w' : World}
    (h : deleteGroups env groupName messages lock keys progress n w = (.ok progress', w')) :
    progress'.stats.Counts (k + groupedCount groupName messages keys)
      progress'.removed.length := by
  induction keys generalizing progress n w k with
  | nil =>
    cases h
    exact hstart
  | cons key keys ih =>
    rw [deleteGroups] at h
    split at h
    · cases h
    next db' stats hscript =>
      have hstats := hstart.add (deleteMessageGroup_counts hscript)
      have hnext := ih _ _ _ (by simpa using hstats) h
      rw [Nat.add_assoc] at hnext
      simpa [groupedCount] using hnext

/-- Sorting by a key, the parts are as many as the elements that have one. -/
theorem sum_length_filter {α β : Type} [DecidableEq β] (f : α → Option β) (l : List α) :
    ((l.filterMap f).dedup.map fun b => (l.filter fun a => f a = some b).length).sum =
      (l.filterMap f).length := by
  rw [← List.sum_map_count_dedup_eq_length]
  congr 1
  apply List.map_congr_left
  intro b _
  rw [List.count_filterMap, List.countP_eq_length_filter]
  simp only [beq_eq_decide]

/-- Every message that names its queue is under just one key. -/
theorem groupedCount_eq {keys : List (QueueParams × String)}
    (hnamed : ∀ m ∈ messages, ∃ q, m.destinationQueue = some q)
    (hkeys : keys.Perm (messages.filterMap (LoadedMessage.groupKey groupName)).dedup) :
    groupedCount groupName messages keys = messages.length := by
  have hlength : (messages.filterMap (LoadedMessage.groupKey groupName)).length =
      messages.length := by
    rw [List.filterMap_length_eq_length]
    intro m hm
    obtain ⟨q, hq⟩ := hnamed m hm
    rw [LoadedMessage.groupKey, hq]
    rfl
  rw [groupedCount, (hkeys.map _).sum_eq, ← hlength, ← sum_length_filter]
  simp only [messagesOf, List.length_map]

/-- A status follows from the statistics if they count every entry of the list. -/
theorem DeleteStats.Counts.status {stats : DeleteStats} {n m : Nat} (h : stats.Counts n m)
    (hn : 0 < n) :
    (stats.status = .ok ↔ stats.success = n) ∧
      (stats.status = .partialSuccess ↔ 0 < stats.success ∧ stats.success < n) ∧
      (stats.status = .notDeleted ↔ stats.success = 0) := by
  obtain ⟨hprocessed, htotal, -⟩ := h
  unfold DeleteStats.status
  by_cases hall : stats.processed = stats.success ∧ 0 < stats.processed
  · rw [if_pos hall]
    simp only [true_iff, reduceCtorEq, false_iff]
    omega
  · rw [if_neg hall]
    by_cases hsome : 0 < stats.success
    · rw [if_pos hsome]
      simp only [reduceCtorEq, true_iff, false_iff]
      omega
    · rw [if_neg hsome]
      simp only [reduceCtorEq, true_iff, false_iff]
      omega

/-- Whatever other clients do meanwhile, the statistics of a call without an error count
every entry of the list once, the deleted ones are as many as the hashes that the call
removed, and the status says whether all, some or none were deleted. -/
theorem delete_statistics_add_up (env : Interference) (opts : ConsumeOptions) (draws : Draws)
    (groupName : GroupId → String)
    (order : (keys : List (QueueParams × String)) → { keys' // List.Perm keys' keys })
    (ids : List MessageId) (lock : Option LockId) (w : World) (response : DeleteResponse)
    (removed : List (QueueParams × MessageId))
    (h : deleteMessagesAcross env opts draws groupName order ids lock w =
      .ok (response, removed)) :
    response.stats.processed = ids.length ∧
      response.stats.processed =
        response.stats.success + response.stats.notFound + response.stats.inProcess ∧
      response.stats.success = removed.length ∧
      (response.status = .ok ↔ ids = [] ∨ response.stats.success = ids.length) ∧
      (response.status = .partialSuccess ↔
        0 < response.stats.success ∧ response.stats.success < ids.length) ∧
      (response.status = .notDeleted ↔ ids ≠ [] ∧ response.stats.success = 0) := by
  unfold deleteMessagesAcross at h
  by_cases hids : ids = []
  · rw [if_pos hids] at h
    cases h
    simp [hids]
  rw [if_neg hids] at h
  have hpos : 0 < ids.length := List.length_pos_of_ne_nil hids
  suffices hcounts : response.stats.Counts ids.length removed.length ∧
      response.status = response.stats.status by
    obtain ⟨hcounts, hstatus⟩ := hcounts
    obtain ⟨hok, hpartial, hnot⟩ := hcounts.status hpos
    rw [hstatus, hok, hpartial, hnot]
    exact ⟨hcounts.processed, hcounts.total, hcounts.success, by simp [hids], Iff.rfl,
      by simp [hids]⟩
  split at h
  · cases h
  · next messages n w' hload =>
      obtain ⟨hle, hnamed⟩ := loadMessages_some ids 0 w hload
      have hstart := DeleteStats.counts_missing (ids.length - messages.length)
      dsimp only at h
      split at h
      · next hempty =>
          cases h
          subst hempty
          refine ⟨hstart, ?_⟩
          have hnone : ¬ (ids.length - 0 = 0 ∧ 0 < ids.length - 0) := by omega
          exact ((if_neg hnone).trans (if_neg (Nat.lt_irrefl 0))).symm
      · split at h
        · cases h
        · next progress hgroups =>
            cases h
            refine ⟨?_, rfl⟩
            have hcounts := deleteGroups_counts _ ⟨_, []⟩ n w' hstart (Prod.ext hgroups rfl)
            rwa [groupedCount_eq hnamed (order _).2, Nat.sub_add_cancel hle] at hcounts

end Call

namespace DeleteExample

def params : Params where
  createdAt := 0
  ttl := 0
  retryThreshold := 3
  retryDelay := 0
  consumeTimeout := 0
  body := 0
  priority := none
  scheduledCron := none
  scheduledDelay := none
  scheduledRepeatPeriod := none
  scheduledRepeat := 0
  consumerGroupId := none

def hash (id : MessageId) (status : Status) : MessageHash where
  id := some id
  status := some status
  message := some params

/-- Messages 1 and 2 are pending in one queue; in the other one message 3 is acknowledged and
message 4 is being processed. -/
def world : World where
  queues := fun q =>
    if q = ordersQueue then
      { Keyspace.created .fifo [] with
        messages := ((∅ : Table MessageId MessageHash).insert 1 (hash 1 .pending)).insert 2
          (hash 2 .pending)
        lists := fun k => if k = .pending none ∨ k = .published then [1, 2] else [] }
    else
      { Keyspace.created .fifo [] with
        messages := ((∅ : Table MessageId MessageHash).insert 3 (hash 3 .acknowledged)).insert 4
          (hash 4 .processing)
        lists := fun k =>
          if k = .acknowledged then [3] else if k = .published then [3, 4] else [] }
  home := fun id =>
    if id = 1 ∨ id = 2 then some ordersQueue
    else if id = 3 ∨ id = 4 then some invoicesQueue else none

/-- After the messages were read, another client deletes message 2. -/
def meanwhile : Interference := fun n w =>
  if n = 6 then w.setQueue ordersQueue (eraseMessage 2 (some .pending) (w.queues ordersQueue))
  else w

theorem delete_statistics_add_up_meanwhile :
    deleteMessagesAcross meanwhile defaultConsumeOptions (fun _ => (0, 0)) (fun _ => "g")
        (fun keys => ⟨keys, List.Perm.refl keys⟩) [1, 2, 3, 1, 4, 9] none world =
      .ok (⟨.partialSuccess, ⟨6, 2, 3, 1⟩⟩, [(ordersQueue, 1), (invoicesQueue, 3)]) ∧
    (6 : Nat) = [1, 2, 3, 1, 4, 9].length ∧ 2 = [(ordersQueue, 1), (invoicesQueue, 3)].length := by
  have hcall : deleteMessagesAcross meanwhile defaultConsumeOptions (fun _ => (0, 0))
      (fun _ => "g") (fun keys => ⟨keys, List.Perm.refl keys⟩) [1, 2, 3, 1, 4, 9] none world =
      .ok (⟨.partialSuccess, ⟨6, 2, 3, 1⟩⟩, [(ordersQueue, 1), (invoicesQueue, 3)]) := by rfl
  have hstats := delete_statistics_add_up _ _ _ _ _ _ _ _ _ _ hcall
  exact ⟨hcall, hstats.1, hstats.2.2.1⟩

end DeleteExample

end RedisSmq
