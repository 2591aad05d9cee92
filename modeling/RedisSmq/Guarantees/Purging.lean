import RedisSmq.Admin.PurgeLaws
import RedisSmq.Guarantees.Erasure
import RedisSmq.Guarantees.Tidiness

/-!
# Purging a category

A purge should delete the messages of one category, all of them, and nothing else. On a
queue in good order it does so exactly if two things are the case. The messages of the
category are all in the key that the purge reads: this key is not the one of a priority
queue, nor of a consumer group, nor has a popped message, and an audit list may have been
disabled, cut or expired. And the first batch takes them all: the script has removed the
batch from the key when the purge cuts a batch off, so the one behind it is cut off instead
and its messages are left without a container.
-/

namespace RedisSmq

/-- The status of the messages of a category. Any message is a published one. -/
def BrowseFilter.status : BrowseFilter → Option Status
  | .deadLettered => some .deadLettered
  | .acknowledged => some .acknowledged
  | .scheduled => some .scheduled
  | .pending => some .pending
  | .published => none

/-- `purgeMessages`, run without interruption in a state of the system. -/
def System.purgeMessages (s : System) (groupName : GroupId → String)
    (order : List String → List String) (filter : BrowseFilter) (batchSize : Nat) (job : LockId) :
    Option (Keyspace × Except DeleteError Nat) :=
  RedisSmq.purgeMessages groupName (Codec.decodeEnvelope s.cfg.defaults s.nextId s.now) order
    (resolveCategoryKey filter) batchSize job s.db

namespace Keyspace

/-- The purge returns without error, the messages with the status and no others are deleted,
their number is the one returned, and the containers and the counter of the status are empty. -/
def Purges (db : Keyspace) (st : Status)
    (out : Option (Keyspace × Except DeleteError Nat)) : Prop :=
  ∃ db' n gone, out = some (db', .ok n) ∧ gone.Nodup ∧ (∀ m, m ∈ gone ↔ db.status m = some st) ∧
    Erased db gone db' ∧ n = gone.length ∧
    (∀ type group p, st.home type group = some p → db'.idsAt p = []) ∧
    ∀ c, counterOf st = some c → db'.counter c = 0

theorem LockedWith.admits {db : Keyspace} {lock : LockId} (h : db.LockedWith lock)
    (htype : db.queueType?.isSome = true) : db.Admits (some lock) :=
  ⟨htype, fun _ => by simp [lockMatches, h.2]⟩

/-- The messages with a status are counted by listing them. -/
theorem statusCount_eq_length {db : Keyspace} {st : Status} {ids : List MessageId}
    (hnodup : ids.Nodup) (hmem : ∀ m, m ∈ ids ↔ db.status m = some st) :
    db.statusCount st = ids.length := by
  refine Table.countRows_eq_length _ _ hnodup fun m => ?_
  rw [hmem, Keyspace.status, Option.bind_eq_some_iff]
  simp only [decide_eq_true_eq]
  rfl

end Keyspace

theorem BrowseFilter.key_of_status {filter : BrowseFilter} {st : Status}
    (h : filter.status = some st) :
    ∃ p, resolveCategoryKey filter = some p ∧ st.home (some .fifo) none = some p ∧
      st ≠ .processing ∧ st ≠ .unackDelaying := by
  cases filter <;> cases h <;> exact ⟨_, rfl, rfl, by decide, by decide⟩

section Category

variable {s : System} {groupName : GroupId → String} {order : List String → List String}
variable {job : LockId} {st : Status} {p : Slot} {batchSize : Nat} {db db' : Keyspace}
variable {ids gone : List MessageId} {m : MessageId}

/-- In a container of the status nothing is in the way of a deletion. -/
private theorem Keyspace.Tidy.not_obstructs {opts : ConsumeOptions} {uuid : MessageId} {t : Nanos}
    (h : db.Tidy st) (hdelay : st ≠ .unackDelaying) (hids : ∀ m ∈ ids, db.status m = some st) :
    ¬ db.Obstructs (Codec.decodeEnvelope opts uuid t) ids := by
  rw [Keyspace.not_obstructs_iff]
  intro id hid hash hget
  have hst : hash.status = some st := by
    have := hids id hid
    rwa [Keyspace.status, hget] at this
  refine ⟨h.readable id hash hget hst, fun hdelayed => ?_⟩
  rw [hst] at hdelayed
  cases hdelayed
  exact absurd rfl hdelay

/-- All messages of a list in a container of the status are deleted. -/
private theorem Selects.mem_iff_of_status (h : Selects db ids gone) (hproc : st ≠ .processing)
    (hids : ∀ m ∈ ids, db.status m = some st) (m : MessageId) : m ∈ gone ↔ m ∈ ids := by
  rw [h.mem_iff]
  constructor
  · exact fun hm => hm.1
  · exact fun hm => ⟨hm, st, hids m hm, hproc⟩

/-- The keys that are used for a message are those of the group of a listed message. -/
theorem Keyspace.scriptKeys_mem (groupName : GroupId → String) (hm : m ∈ ids)
    (hst : db.status m = some st) :
    ∃ m' ∈ ids, db.scriptKeys groupName ids (db.groupOf m) = db.groupOf m' := by
  have hsome : (ids.find? fun id => (db.hgetall id).isSome ∧
      groupKey groupName (db.groupOf id) = groupKey groupName (db.groupOf m)).isSome = true :=
    List.find?_isSome.2 ⟨m, hm, by simp [isSome_hgetall_of_status hst]⟩
  obtain ⟨m', hfind⟩ := Option.isSome_iff_exists.1 hsome
  exact ⟨m', List.mem_of_find?_eq_some hfind, by rw [scriptKeys, hfind]; rfl⟩

/-- If the listed messages have one container, it is the one that the script looks into. -/
private theorem ErasedBy.of_home {groupName : GroupId → String}
    (h : ErasedBy (db.scriptKeys groupName ids) db gone db') (hsub : ∀ m ∈ gone, m ∈ ids)
    (hhome : ∀ m ∈ ids, db.status m = some st ∧ db.home m = some p) : Erased db gone db' := by
  refine h.congr fun m hm => ?_
  obtain ⟨hst, hm'⟩ := hhome m (hsub m hm)
  obtain ⟨m', hm'', hkeys⟩ := Keyspace.scriptKeys_mem groupName (hsub m hm) hst
  obtain ⟨hst', hhome'⟩ := hhome m' hm''
  change _ = db.home m
  rw [hm', ← hhome', Keyspace.homeBy, Keyspace.home, Keyspace.homeBy, hst, hst', hkeys]
  rfl

/-- A batch that takes everything empties the containers and the counter of the status. -/
private theorem Erased.empties (hdb : Erased db gone db') (htidy : db.Tidy st)
    (hnodup : gone.Nodup) (hgone : ∀ m, m ∈ gone ↔ db.status m = some st) :
    (∀ type group p, st.home type group = some p → db'.idsAt p = []) ∧
      ∀ c, counterOf st = some c → db'.counter c = 0 := by
  constructor
  · intro type group p hp
    rw [hdb.idsAt_eq (htidy.nodup type group p hp), List.filter_eq_nil_iff]
    intro m hm
    obtain ⟨hst, hhome⟩ := htidy.listed type group p hp m hm
    have hclears : db.Clears id m p := .inr hhome
    simp [(hgone m).2 hst, hclears]
  · intro c hc
    have hcharges : gone.countP (db.Charges · c) = gone.length := by
      rw [List.countP_eq_length]
      intro m hm
      simp [Keyspace.Charges, (hgone m).1 hm, hc]
    rw [hdb.counter, htidy.exact c hc, hcharges, Keyspace.statusCount_eq_length hnodup hgone]
    omega

variable {decode : MessageHash → Option Envelope}

/-- If the key has all messages of the category and one batch takes them, the purge works. -/
private theorem purgeMessages_purges (hdb : Purgeable decode job db)
    (horder : ∀ l, (order l).Perm l) (htidy : db.Tidy st) (hproc : st ≠ .processing)
    (hfree : ¬ db.Obstructs decode (db.idsAt p)) (hhome : st.home (some .fifo) none = some p)
    (hall : ∀ m, db.status m = some st → m ∈ db.idsAt p)
    (hbatch : batchSize = 0 ∨ (db.idsAt p).length ≤ batchSize) :
    db.Purges st (purgeMessages groupName decode order (some p) batchSize job db) := by
  have hlisted := htidy.listed _ _ p hhome
  have hrange : db.range p batchSize = db.idsAt p := by
    rw [Keyspace.range]
    split
    · rfl
    · exact List.take_of_length_le (hbatch.resolve_left ‹_›)
  rw [purgeMessages, Option.elim_some]
  cases PurgeRound.of_loop groupName hdb horder p batchSize (db.idsAt p).length 0 with
  | last hnil h =>
    have hnone : ∀ m, db.status m ≠ some st := by
      intro m hst
      have := hall m hst
      rw [hnil] at this
      cases this
    have hgone : ∀ m, m ∈ ([] : List MessageId) ↔ db.status m = some st := by
      intro m
      simp [hnone m]
    exact ⟨db, 0, [], h, List.nodup_nil, hgone, .refl db, rfl,
      Erased.empties (.refl db) htidy List.nodup_nil hgone⟩
  | failed _ _ hobs =>
    rw [hrange] at hobs
    exact absurd hobs hfree
  | next db₁ gone hne hsel herased h =>
    rw [hrange] at hne hsel herased h
    have herased := herased.of_home (fun m hm => ((hsel.mem_iff m).1 hm).1) hlisted
    have hgone : ∀ m, m ∈ gone ↔ db.status m = some st := by
      intro m
      rw [hsel.mem_iff_of_status hproc (fun m hm => (hlisted m hm).1)]
      exact ⟨fun hm => (hlisted m hm).1, hall m⟩
    have hempty := herased.empties htidy hsel.nodup hgone
    have hnil := hempty.1 _ _ p hhome
    -- The second round finds nothing.
    obtain ⟨fuel, hfuel⟩ := Nat.exists_eq_add_one.2 (List.length_pos_iff.2 hne)
    have hlast : purgeLoop groupName decode order (some p) batchSize job (db.idsAt p).length
        (0 + gone.length) db₁ = some (db₁, .ok (0 + gone.length)) := by
      rw [hfuel]
      have hrange₁ : db₁.range p batchSize = [] := Keyspace.range_eq_nil_iff.2 hnil
      simp [purgeLoop, fetchBatch, hrange₁]
    rw [trimCategory_of_nil hnil, hlast] at h
    exact ⟨db₁, _, gone, h, hsel.nodup, hgone, herased, Nat.zero_add _, hempty⟩

/-- A message that is not in the key, or behind the first batch, survives the purge. -/
private theorem Purges.takes_all (hdb : Purgeable decode job db)
    (horder : ∀ l, (order l).Perm l) (htidy : db.Tidy st) (hproc : st ≠ .processing)
    (hhome : st.home (some .fifo) none = some p)
    (h : db.Purges st (purgeMessages groupName decode order (some p) batchSize job db)) :
    (∀ m, db.status m = some st → m ∈ db.idsAt p) ∧
      (batchSize = 0 ∨ (db.idsAt p).length ≤ batchSize) := by
  obtain ⟨db', n, gone, hout, -, hgone, herased, -⟩ := h
  have hdeleted : ∀ m, db.status m = some st → db'.hgetall m ≠ db.hgetall m := by
    intro m hst heq
    obtain ⟨hash, hget, -⟩ := Option.bind_eq_some_iff.1 hst
    rw [herased.hash, if_pos ((hgone m).2 hst), hget] at heq
    cases heq
  have hlisted := htidy.listed _ _ p hhome
  have hnodup := htidy.nodup _ _ p hhome
  rw [purgeMessages, Option.elim_some] at hout
  constructor
  · intro m hst
    by_contra hm
    exact hdeleted m hst (purgeLoop_spares horder _ hdb hm hout)
  · by_contra hbatch
    obtain ⟨hpos, hlong⟩ := not_or.1 hbatch
    have hlt : batchSize < (db.idsAt p).length := by omega
    have hrange : db.range p batchSize = (db.idsAt p).take batchSize := if_neg hpos
    have htake : ((db.idsAt p).take batchSize).length = batchSize := by
      rw [List.length_take]
      omega
    have hsub : ∀ m ∈ db.range p batchSize, db.status m = some st := fun m hm =>
      (hlisted m ((db.range_sublist p batchSize).subset hm)).1
    cases PurgeRound.of_loop groupName hdb horder p batchSize (db.idsAt p).length 0 with
    | last hnil =>
      rw [hnil] at hlt
      exact absurd hlt (Nat.not_lt_zero _)
    | failed _ _ _ hloop =>
      rw [hloop] at hout
      cases hout
    | next db₁ gone₁ hne hsel hdb₁ hloop =>
      have hdb₁ := hdb₁.of_home (fun m hm => ((hsel.mem_iff m).1 hm).1) fun m hm =>
        hlisted m ((db.range_sublist p batchSize).subset hm)
      have hgone₁ : ∀ m, m ∈ gone₁ ↔ m ∈ (db.idsAt p).take batchSize := by
        intro m
        rw [hsel.mem_iff_of_status hproc hsub, hrange]
      have hfront : db₁.idsAt p = (db.idsAt p).drop batchSize :=
        hdb₁.idsAt_front hnodup hgone₁ fun m hm =>
          (hlisted m (List.mem_of_mem_take ((hgone₁ m).1 hm))).2
      -- The message right behind the batch is cut off with the batch behind it.
      have hsplit := List.drop_eq_getElem_cons hlt
      have hnext : (db.idsAt p)[batchSize] ∉ (db.idsAt p).take batchSize := by
        have hall := List.take_append_drop batchSize (db.idsAt p) ▸ hnodup
        rw [hsplit] at hall
        exact fun hmem => List.disjoint_of_nodup_append hall hmem List.mem_cons_self
      have hcut : (db.idsAt p)[batchSize] ∉
          (trimCategory (some p) (db.range p batchSize).length db₁).idsAt p := by
        rw [idsAt_trimCategory (List.length_pos_iff.2 hne), hfront, hrange, htake, hsplit]
        obtain ⟨k, rfl⟩ := Nat.exists_eq_succ_of_ne_zero hpos
        have hrest : ((db.idsAt p)[k + 1] :: (db.idsAt p).drop (k + 2)).Nodup := by
          rw [← hsplit]
          exact hnodup.sublist (List.drop_sublist _ _)
        rw [List.drop_succ_cons]
        exact fun hmem => (List.nodup_cons.1 hrest).1 (List.mem_of_mem_drop hmem)
      rw [hloop] at hout
      have hspared := purgeLoop_spares horder _ ((hdb.erased hdb₁).trim _ _) hcut hout
      rw [hgetall_trimCategory, hdb₁.hash_of_notMem (fun hmem => hnext ((hgone₁ _).1 hmem))]
        at hspared
      exact hdeleted _ (hlisted _ (List.getElem_mem hlt)).1 hspared

end Category

/-- On a locked queue in good order, a purge deletes the messages of its category, and no
others, exactly if the key that it reads has all of them and one batch takes the whole key. -/
theorem purges_iff (cfg : Config) (type : QueueType) (groups : List GroupId) (now : Nanos)
    (as : List Action) (s : System) (hrun : (System.created cfg type groups now).Runs as s)
    (job : LockId) (hlock : s.db.LockedWith job) (filter : BrowseFilter) (st : Status)
    (hst : filter.status = some st) (htidy : s.db.Tidy st)
    (groupName : GroupId → String) (order : List String → List String)
    (horder : ∀ l, (order l).Perm l) (batchSize : Nat) :
    s.db.Purges st (s.purgeMessages groupName order filter batchSize job) ↔
      ∀ p ∈ resolveCategoryKey filter, (∀ m, s.db.status m = some st → m ∈ s.db.idsAt p) ∧
        (batchSize = 0 ∨ (s.db.idsAt p).length ≤ batchSize) := by
  have hs : Sane type s := (balanced_of_runs hrun).1
  have hdb : Purgeable (Codec.decodeEnvelope s.cfg.defaults s.nextId s.now) job s.db :=
    ⟨hlock.admits (by rw [hs.type_eq]; rfl), hs.decodes⟩
  obtain ⟨p, hkey, hhome, hproc, hdelay⟩ := BrowseFilter.key_of_status hst
  rw [System.purgeMessages, hkey]
  simp only [Option.mem_def, Option.some.injEq, forall_eq']
  constructor
  · exact Purges.takes_all hdb horder htidy hproc hhome
  · rintro ⟨hall, hbatch⟩
    refine purgeMessages_purges hdb horder htidy hproc ?_ hhome hall hbatch
    exact htidy.not_obstructs hdelay fun m hm => (htidy.listed _ _ p hhome m hm).1

/-- A purge of a locked queue returns in every reachable state. Unless it fails, it has not
touched a message that its key did not list. -/
theorem purge_returns_and_spares (cfg : Config) (type : QueueType) (groups : List GroupId)
    (now : Nanos) (as : List Action) (s : System)
    (hrun : (System.created cfg type groups now).Runs as s) (job : LockId)
    (hlock : s.db.LockedWith job) (filter : BrowseFilter)
    (groupName : GroupId → String) (order : List String → List String)
    (horder : ∀ l, (order l).Perm l) (batchSize : Nat) :
    ∃ db' r, s.purgeMessages groupName order filter batchSize job = some (db', r) ∧ ∀ n, r = .ok n →
      ∀ m, (∀ p ∈ resolveCategoryKey filter, m ∉ s.db.idsAt p) →
        db'.hgetall m = s.db.hgetall m := by
  have hs : Sane type s := (balanced_of_runs hrun).1
  have hdb : Purgeable (Codec.decodeEnvelope s.cfg.defaults s.nextId s.now) job s.db :=
    ⟨hlock.admits (by rw [hs.type_eq]; rfl), hs.decodes⟩
  obtain ⟨⟨db', r⟩, hout⟩ :=
    purgeMessages_returns horder hdb (resolveCategoryKey filter) batchSize
  refine ⟨db', r, hout, ?_⟩
  rintro n rfl m hm
  cases hkey : resolveCategoryKey filter with
  | none =>
    rw [hkey] at hout
    cases hout
    rfl
  | some p =>
    rw [hkey] at hout
    exact purgeLoop_spares horder _ hdb (hm p hkey) hout

/-- A message with a priority. -/
def urgentMessage : Producible := { promptMessage with priority := some 0 }

/-- The pending messages of a priority queue and of a consumer group are in other keys than
the purge reads: it deletes nothing and reports no error. -/
theorem purge_misses_pending :
    (Run.exec System.step (System.created {} .priority [] 0)
        [.produce urgentMessage none, .setState .locked none (some 5)]).bind (fun s =>
          (s.purgeMessages toString id .pending defaultPurgeBatchSize 5).map fun out =>
            (s.db.queue.bind QueueProps.lockId, out.2.toOption, out.1.status 0,
              out.1.counter .pending)) =
        some (some 5, some 0, some .pending, 1) ∧
      (Run.exec System.step (System.created {} .fifo [1] 0)
        [.produce promptMessage (some 1), .setState .locked none (some 5)]).bind (fun s =>
          (s.purgeMessages toString id .pending defaultPurgeBatchSize 5).map fun out =>
            (s.db.queue.bind QueueProps.lockId, out.2.toOption, out.1.status 0,
              out.1.counter .pending)) =
        some (some 5, some 0, some .pending, 1) := by
  decide

/-- Two messages are pending when the queue is locked. -/
def lockedWithTwo : List Action :=
  [.produce promptMessage none, .produce promptMessage none, .setState .locked none (some 5)]

/-- A purge of the two pending messages, one a batch, spares the scheduled message. -/
theorem purge_returns_and_spares_besideScheduled :
    ∃ s db' r, (System.created {} .fifo [] 0).Runs
        (.produce { promptMessage with scheduledDelay := some 5000000000 } none :: lockedWithTwo)
          s ∧
      s.db.lists (.pending none) = [2, 1] ∧
      s.purgeMessages toString id .pending 1 5 = some (db', r) ∧
      db'.status 0 = some .scheduled ∧ db'.hgetall 0 = s.db.hgetall 0 := by
  obtain ⟨db', r, hout, hspares⟩ := purge_returns_and_spares {} .fifo [] 0
    (.produce { promptMessage with scheduledDelay := some 5000000000 } none :: lockedWithTwo)
    _ rfl 5
    ⟨rfl, rfl⟩ .pending toString id (fun l => .refl l) 1
  cases hout
  exact ⟨_, _, _, rfl, rfl, rfl, rfl, hspares _ rfl 0 (by decide)⟩

/-- One batch takes them both. -/
theorem purges_iff_lockedWithTwo :
    ∃ s, (System.created {} .fifo [] 0).Runs lockedWithTwo s ∧
      s.db.Purges .pending (s.purgeMessages toString id .pending defaultPurgeBatchSize 5) := by
  have hsome : (Run.exec System.step (System.created {} .fifo [] 0) lockedWithTwo).map (fun s =>
      (s.db.operationalState, s.db.queue.bind QueueProps.lockId,
        (List.range s.nextId).all fun m => decide (m ∈ s.db.lists (.pending none)),
        decide ((s.db.lists (.pending none)).length ≤ defaultPurgeBatchSize))) =
      some (.locked, some 5, true, true) := by decide
  obtain ⟨s, hs, heq⟩ := Option.map_eq_some_iff.1 hsome
  simp only [Prod.mk.injEq] at heq
  obtain ⟨hlocked, hlock, hlisted, hbatch⟩ := heq
  have hsane : Sane .fifo s := (balanced_of_runs hs).1
  refine ⟨s, hs, (purges_iff _ _ _ _ _ s hs 5 ⟨hlocked, hlock⟩ .pending .pending rfl
    (tidy_of_runs (by decide) hs (.inl rfl)) toString id (fun l => .refl l) _).2 ?_⟩
  intro p hp
  cases hp
  refine ⟨fun m hst => ?_, .inr (of_decide_eq_true hbatch)⟩
  by_cases hm : m < s.nextId
  · exact of_decide_eq_true (List.all_eq_true.1 hlisted m (List.mem_range.2 hm))
  · have hblank := (hsane.blank m (hsane.fresh m (Nat.not_lt.1 hm))).status_eq
    rw [hst] at hblank
    cases hblank

end RedisSmq
