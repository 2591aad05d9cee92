import RedisSmq.Admin.DeleteLaws
import RedisSmq.Admin.Purge

/-!
# Rounds of a purge

One round of a purge deletes the messages at the front of its key and then cuts the front
off. A round that ends without an error touches no message outside of the key. The script
has taken the deleted messages out of the key already, so what the round cuts off is the
batch that stands behind them.
-/

namespace RedisSmq

section Keys

variable {keys : Option GroupId → Option GroupId}
variable {db db' : Keyspace} {gone : List MessageId} {p : Slot} {n : Nat} {m : MessageId}

private theorem filter_notMem_take {α β : Type} [DecidableEq β] (f : α → β) {l : List α}
    (h : (l.map f).Nodup) (n : Nat) : l.filter (fun a => f a ∉ (l.map f).take n) = l.drop n := by
  conv_lhs => enter [2]; rw [← List.take_append_drop n l]
  rw [List.filter_append, List.filter_eq_nil_iff.2, List.nil_append, List.filter_eq_self]
  · intro a ha
    have hsplit : ((l.map f).take n ++ (l.map f).drop n).Nodup := by
      rwa [List.take_append_drop]
    rw [decide_eq_true_eq]
    intro htake
    refine List.disjoint_of_nodup_append hsplit htake ?_
    rw [← List.map_drop]
    exact List.mem_map_of_mem ha
  · intro a ha
    have htake : f a ∈ (l.map f).take n := by
      rw [← List.map_take]
      exact List.mem_map_of_mem ha
    simp [htake]

theorem Keyspace.entries_zremAll (db : Keyspace) (k : ZsetKey) (ids : List MessageId) :
    ((db.zremAll k ids).zsets k).entries = (db.zsets k).entries.filter fun e => e.2 ∉ ids := by
  induction ids generalizing db with
  | nil => simp [Keyspace.zremAll]
  | cons id ids ih =>
    have hrem : ((db.zrem k id).zsets k).entries =
        (db.zsets k).entries.filter fun e => e.2 ≠ id := by
      simp [Keyspace.zrem, Keyspace.setZset, SortedSet.rem]
    rw [Keyspace.zremAll, List.foldl_cons, ← Keyspace.zremAll, ih, hrem, List.filter_filter]
    refine List.filter_congr fun e _ => ?_
    simp [Bool.and_comm]

theorem Keyspace.zremAll_frame (db : Keyspace) (k : ZsetKey) (ids : List MessageId) :
    (db.zremAll k ids).settings = db.settings ∧
      ∀ m, (db.zremAll k ids).hgetall m = db.hgetall m := by
  induction ids generalizing db with
  | nil => exact ⟨rfl, fun _ => rfl⟩
  | cons id ids ih =>
    obtain ⟨hsettings, hhash⟩ := ih (db.zrem k id)
    exact ⟨hsettings, hhash⟩

theorem settings_trimCategory (key : Option Slot) (n : Nat) (db : Keyspace) :
    (trimCategory key n db).settings = db.settings := by
  rcases key with _ | k | k
  · rfl
  · rfl
  · exact (db.zremAll_frame k _).1

theorem hgetall_trimCategory (key : Option Slot) (n : Nat) (db : Keyspace) (m : MessageId) :
    (trimCategory key n db).hgetall m = db.hgetall m := by
  rcases key with _ | k | k
  · rfl
  · rfl
  · exact (db.zremAll_frame k _).2 m

/-- `trimCategory` cuts the front off. -/
theorem idsAt_trimCategory (hn : 0 < n) :
    (trimCategory (some p) n db).idsAt p = (db.idsAt p).drop n := by
  cases p with
  | list k => simp [trimCategory, Keyspace.idsAt, Keyspace.setList]
  | zset k =>
    have hrange : db.range (.zset k) n = ((db.zsets k).entries.map Prod.snd).take n := by
      rw [Keyspace.range, if_neg hn.ne']
      rfl
    rw [trimCategory, Keyspace.idsAt, Keyspace.entries_zremAll, hrange,
      filter_notMem_take Prod.snd (db.zsets k).nodup n, List.map_drop]
    rfl

/-- Nothing is left to cut off. -/
theorem trimCategory_of_nil (h : db.idsAt p = []) (n : Nat) : trimCategory (some p) n db = db := by
  cases p with
  | list k =>
    change db.lists k = [] at h
    have hdrop : (db.lists k).drop n = db.lists k := by rw [h, List.drop_nil]
    rw [trimCategory, hdrop, Keyspace.setList, Function.update_eq_self]
  | zset k =>
    have hrange : db.range (.zset k) n = [] := by
      rw [Keyspace.range, h, List.take_nil, ite_self]
    rw [trimCategory, hrange]
    rfl

theorem Keyspace.range_sublist (db : Keyspace) (p : Slot) (n : Nat) :
    (db.range p n).Sublist (db.idsAt p) := by
  rw [Keyspace.range]
  split
  · exact List.Sublist.refl _
  · exact List.take_sublist n _

theorem ErasedBy.idsAt_sublist (h : ErasedBy keys db gone db') (p : Slot) :
    (db'.idsAt p).Sublist (db.idsAt p) := by
  cases p with
  | list k =>
    rw [Keyspace.idsAt, Keyspace.idsAt, h.lists]
    exact List.diff_sublist _ _
  | zset k =>
    rw [Keyspace.idsAt, Keyspace.idsAt, h.zsets]
    exact List.filter_sublist.map _

/-- What a deletion leaves in a key without repetitions. -/
theorem Erased.idsAt_eq (h : Erased db gone db') (hnodup : (db.idsAt p).Nodup) :
    db'.idsAt p = (db.idsAt p).filter fun m => ¬ (m ∈ gone ∧ db.Clears id m p) := by
  cases p with
  | list k =>
    change (db.lists k).Nodup at hnodup
    rw [Keyspace.idsAt, Keyspace.idsAt, h.lists, hnodup.sdiff_eq_filter]
    exact List.filter_congr fun m _ => by simp
  | zset k =>
    rw [Keyspace.idsAt, Keyspace.idsAt, h.zsets, List.filter_map]
    rfl

/-- The messages at the front of their key are deleted, and leave it. -/
theorem Erased.idsAt_front (h : Erased db gone db') (hnodup : (db.idsAt p).Nodup)
    (hgone : ∀ m, m ∈ gone ↔ m ∈ (db.idsAt p).take n) (hhome : ∀ m ∈ gone, db.home m = some p) :
    db'.idsAt p = (db.idsAt p).drop n := by
  have hdrop := filter_notMem_take id (l := db.idsAt p) (by rwa [List.map_id]) n
  rw [h.idsAt_eq hnodup, ← hdrop, List.map_id]
  refine List.filter_congr fun m _ => decide_eq_decide.2 (not_congr ?_)
  rw [id_eq, ← hgone]
  constructor
  · exact fun ⟨hm, _⟩ => hm
  · exact fun hm => ⟨hm, .inr (hhome m hm)⟩

end Keys

section Rounds

variable {groupName : GroupId → String} {decode : MessageHash → Option Envelope}
variable {order : List String → List String}
variable {p : Slot} {batchSize : Nat} {job : LockId}
variable {db db' : Keyspace} {fuel purged n : Nat} {m : MessageId}

/-- The job may delete messages, and what it loads of them is right. -/
structure Purgeable (decode : MessageHash → Option Envelope) (job : LockId) (db : Keyspace) :
    Prop where
  admits : db.Admits (some job)
  decodes : Decodes decode db

theorem Purgeable.trim (h : Purgeable decode job db) (key : Option Slot) (n : Nat) :
    Purgeable decode job (trimCategory key n db) := by
  have hsettings := settings_trimCategory key n db
  constructor
  · have htype := Keyspace.queueType?_of_settings hsettings
    have hstate := Keyspace.operationalState_of_settings hsettings
    have hlock := congrArg (fun s => s.2.2.1) hsettings
    obtain ⟨hsome, hmatch⟩ := h.admits
    constructor
    · rw [htype]
      exact hsome
    intro hlocked
    rw [hstate] at hlocked
    have := hmatch hlocked
    simp only [Keyspace.lockMatches] at this ⊢
    change (trimCategory key n db).queue.bind QueueProps.lockId =
      db.queue.bind QueueProps.lockId at hlock
    rw [hlock]
    exact this
  · intro id hash e hget hdec
    rw [hgetall_trimCategory] at hget
    rw [Keyspace.groupOf, hgetall_trimCategory]
    exact h.decodes id hash e hget hdec

theorem Purgeable.erased {keys : Option GroupId → Option GroupId} {gone : List MessageId}
    (h : Purgeable decode job db) (hdb : ErasedBy keys db gone db') : Purgeable decode job db' :=
  ⟨hdb.admits h.admits, hdb.decodes h.decodes⟩

/-- The rounds of a purge: one that finds nothing ends it, one that meets an obstacle ends it
with an error, and any other deletes its batch and is followed by the next one. -/
inductive PurgeRound (groupName : GroupId → String) (decode : MessageHash → Option Envelope)
    (order : List String → List String) (p : Slot) (batchSize : Nat) (job : LockId)
    (fuel purged : Nat) (db : Keyspace) : Prop
  | last (hnil : db.idsAt p = [])
      (h : purgeLoop groupName decode order (some p) batchSize job (fuel + 1) purged db =
        some (db, .ok purged))
  | failed (db' : Keyspace) (e : DeleteError) (hobs : db.Obstructs decode (db.range p batchSize))
      (h : purgeLoop groupName decode order (some p) batchSize job (fuel + 1) purged db =
        some (db', .error e))
  | next (db₁ : Keyspace) (gone : List MessageId) (hne : db.range p batchSize ≠ [])
      (hsel : Selects db (db.range p batchSize) gone)
      (hdb : ErasedBy (db.scriptKeys groupName (db.range p batchSize)) db gone db₁)
      (h : purgeLoop groupName decode order (some p) batchSize job (fuel + 1) purged db =
        purgeLoop groupName decode order (some p) batchSize job fuel (purged + gone.length)
          (trimCategory (some p) (db.range p batchSize).length db₁))

theorem Keyspace.range_eq_nil_iff : db.range p batchSize = [] ↔ db.idsAt p = [] := by
  rw [Keyspace.range]
  split
  · exact Iff.rfl
  · rw [List.take_eq_nil_iff]
    simp [*]

theorem PurgeRound.of_loop (groupName : GroupId → String) (hdb : Purgeable decode job db)
    (horder : ∀ l, (order l).Perm l) (p : Slot) (batchSize fuel purged : Nat) :
    PurgeRound groupName decode order p batchSize job fuel purged db := by
  by_cases hnil : db.range p batchSize = []
  · exact .last (Keyspace.range_eq_nil_iff.1 hnil) (by simp [purgeLoop, fetchBatch, hnil])
  by_cases hobs : db.Obstructs decode (db.range p batchSize)
  · obtain ⟨db', e, herror⟩ := deleteMessages_fails groupName hdb.admits hdb.decodes horder hobs
    exact .failed db' e hobs (by simp [purgeLoop, fetchBatch, hnil, herror])
  obtain ⟨db₁, gone, r, hok, hsel, herased, htally⟩ :=
    deleteMessages_erases groupName hdb.admits hdb.decodes horder hobs
  exact .next db₁ gone hnil hsel herased
    (by simp [purgeLoop, fetchBatch, hnil, hok, htally.success])

/-- A purge touches no message outside of its key. -/
theorem purgeLoop_spares (horder : ∀ l, (order l).Perm l) (fuel : Nat)
    (hdb : Purgeable decode job db)
    (hm : m ∉ db.idsAt p)
    (h : purgeLoop groupName decode order (some p) batchSize job fuel purged db =
      some (db', .ok n)) :
    db'.hgetall m = db.hgetall m := by
  induction fuel generalizing db purged with
  | zero => cases h
  | succ fuel ih =>
    cases PurgeRound.of_loop groupName hdb horder p batchSize fuel purged with
    | last _ hloop =>
      rw [hloop] at h
      cases h
      rfl
    | failed _ _ _ hloop =>
      rw [hloop] at h
      cases h
    | next db₁ gone hne hsel herased hloop =>
      have hgone : m ∉ gone := fun hmem =>
        hm ((db.range_sublist p batchSize).subset ((hsel.mem_iff m).1 hmem).1)
      rw [hloop] at h
      rw [ih ((hdb.erased herased).trim _ _) ?_ h, hgetall_trimCategory,
        herased.hash_of_notMem hgone]
      rw [idsAt_trimCategory (List.length_pos_iff.2 hne)]
      exact fun hmem => hm ((herased.idsAt_sublist p).subset (List.mem_of_mem_drop hmem))

/-- Every round takes something out of the key, so the fuel suffices. -/
theorem purgeLoop_returns (horder : ∀ l, (order l).Perm l) (fuel purged : Nat)
    (hdb : Purgeable decode job db) (hfuel : (db.idsAt p).length < fuel) :
    ∃ out, purgeLoop groupName decode order (some p) batchSize job fuel purged db = some out := by
  induction fuel generalizing db purged with
  | zero => omega
  | succ fuel ih =>
    cases PurgeRound.of_loop groupName hdb horder p batchSize fuel purged with
    | last _ hloop => exact ⟨_, hloop⟩
    | failed _ _ _ hloop => exact ⟨_, hloop⟩
    | next db₁ gone hne hsel herased hloop =>
      rw [hloop]
      refine ih _ ((hdb.erased herased).trim _ _) ?_
      have hpos := List.length_pos_iff.2 hne
      have hle := (herased.idsAt_sublist p).length_le
      have hne' : 0 < (db.idsAt p).length :=
        hpos.trans_le (db.range_sublist p batchSize).length_le
      rw [idsAt_trimCategory hpos, List.length_drop]
      omega

/-- `purgeMessages` returns, be it with an error. -/
theorem purgeMessages_returns (horder : ∀ l, (order l).Perm l) (hdb : Purgeable decode job db)
    (key : Option Slot) (batchSize : Nat) :
    ∃ out, purgeMessages groupName decode order key batchSize job db = some out := by
  cases key with
  | none => exact ⟨(db, .ok 0), rfl⟩
  | some p => exact purgeLoop_returns horder _ _ hdb (Nat.lt_succ_self _)

end Rounds

end RedisSmq
