import RedisSmq.Admin.Erased

/-!
# Deleting a list of messages

The deletion loop, the script, the loop over the groups and `DeleteMessages` itself delete
exactly the messages they are given that are stored and not being processed, and count them.
The loop over the groups looks for a pending message under the keys of the first message that
has the same name of its group. They fail if and only if they are given a delayed message
while the delayed container is not empty, or a message whose hash does not decode.
-/

namespace RedisSmq

/-- The statistics of a deletion: of the listed identifiers, those in `gone` were deleted. -/
structure Tally (db : Keyspace) (ids gone : List MessageId) (stats : DeleteStats) : Prop where
  processed : stats.processed = ids.length
  success : stats.success = gone.length
  inProcess : stats.inProcess = ids.countP fun m => db.status m = some .processing
  total : stats.processed = stats.success + stats.notFound + stats.inProcess

/-- The deletable ones of the listed messages are those in `gone`. -/
structure Selects (db : Keyspace) (ids gone : List MessageId) : Prop where
  nodup : gone.Nodup
  mem_iff : ∀ m, m ∈ gone ↔ m ∈ ids ∧ db.Deletable m

/-- The keys for every stored message of the list are those of the given group. -/
def Keyspace.AllOf (db : Keyspace) (keys : Option GroupId → Option GroupId)
    (group : Option GroupId) (ids : List MessageId) : Prop :=
  ∀ m ∈ ids, db.status m ≠ none → keys (db.groupOf m) = group

/-- The list has a delayed message that Redis refuses to remove. -/
def Keyspace.Stuck (db : Keyspace) (ids : List MessageId) : Prop :=
  (∃ m ∈ ids, db.status m = some .unackDelaying) ∧ (db.zsets .delayed).entries ≠ []
  deriving Decidable

namespace ErasedBy

variable {keys : Option GroupId → Option GroupId}
variable {db db' : Keyspace} {gone ids : List MessageId} {m : MessageId}

theorem status_eq (h : ErasedBy keys db gone db') :
    db'.status m = if m ∈ gone then none else db.status m := by
  by_cases hm : m ∈ gone
  · rw [if_pos hm, h.status_of_mem hm]
  · rw [if_neg hm, h.status_of_notMem hm]

theorem deletable_iff (h : ErasedBy keys db gone db') :
    db'.Deletable m ↔ m ∉ gone ∧ db.Deletable m := by
  rw [Keyspace.Deletable, h.status_eq]
  by_cases hm : m ∈ gone <;> simp [hm, Keyspace.Deletable]

theorem allOf (h : ErasedBy keys db gone db') {group : Option GroupId}
    (hall : db.AllOf keys group ids) :
    db'.AllOf keys group ids := by
  intro m hm hstatus
  have hgone : m ∉ gone := fun hmem => hstatus (h.status_of_mem hmem)
  rw [h.status_of_notMem hgone] at hstatus
  rw [Keyspace.groupOf, h.hash_of_notMem hgone]
  exact hall m hm hstatus

/-- A deletion does not loosen what is stuck. -/
theorem stuck_iff (h : ErasedBy keys db gone db')
    (hgone : ∀ m ∈ gone, db.status m = some .unackDelaying → (db.zsets .delayed).entries = []) :
    db'.Stuck ids ↔ db.Stuck ids := by
  have hdelayed : (db.zsets .delayed).entries ≠ [] →
      ∀ m ∈ gone, db.status m ≠ some .unackDelaying := fun hne m hm hst => hne (hgone m hm hst)
  have hclears : ∀ m, db.Clears keys m (.zset .delayed) → db.status m = some .unackDelaying := by
    rintro m (hp | hhome)
    · cases hp
    obtain ⟨st, hst, hhome⟩ := Option.bind_eq_some_iff.1 hhome
    rw [hst]
    cases st with
    | unackDelaying => rfl
    | pending =>
      obtain ⟨type, -, htype⟩ := Option.map_eq_some_iff.1 hhome
      cases type <;> cases htype
    | _ => cases hhome
  have hentries : (db.zsets .delayed).entries ≠ [] →
      (db'.zsets .delayed).entries = (db.zsets .delayed).entries := by
    intro hne
    rw [h.zsets, List.filter_eq_self]
    intro e _
    simp only [decide_eq_true_eq]
    exact fun ⟨hmem, hclear⟩ => hdelayed hne _ hmem (hclears _ hclear)
  by_cases hne : (db.zsets .delayed).entries = []
  · have hne' : (db'.zsets .delayed).entries = [] := by rw [h.zsets, hne]; rfl
    simp [Keyspace.Stuck, hne, hne']
  have hstatus : ∀ m, db'.status m = some .unackDelaying ↔ db.status m = some .unackDelaying := by
    intro m
    rw [h.status_eq]
    by_cases hm : m ∈ gone
    · simp [hm, hdelayed hne m hm]
    · rw [if_neg hm]
  simp [Keyspace.Stuck, hentries hne, hstatus]

end ErasedBy

namespace DeleteStats

theorem ext {s t : DeleteStats} (h₁ : s.processed = t.processed) (h₂ : s.success = t.success)
    (h₃ : s.notFound = t.notFound) (h₄ : s.inProcess = t.inProcess) : s = t := by
  cases s
  cases t
  cases h₁
  cases h₂
  cases h₃
  cases h₄
  rfl

theorem add_assoc (s t u : DeleteStats) : (s.add t).add u = s.add (t.add u) := by
  apply ext <;> simp only [add] <;> omega

end DeleteStats

section Loop

variable {keys : Option GroupId → Option GroupId}
variable {db : Keyspace} {group : Option GroupId} {ids : List MessageId} {id : MessageId}

/-- What the loop does with its first message. -/
inductive LoopStep (keys : Option GroupId → Option GroupId) (db : Keyspace)
    (group : Option GroupId) (id : MessageId) (ids : List MessageId) (stats : DeleteStats) : Prop
  | missing (hst : db.status id = none)
      (h : deleteMessageLoop db.queueType? group (id :: ids) stats db =
        deleteMessageLoop db.queueType? group ids
          (stats.add { processed := 1, notFound := 1 }) db)
  | processing (hst : db.status id = some .processing)
      (h : deleteMessageLoop db.queueType? group (id :: ids) stats db =
        deleteMessageLoop db.queueType? group ids
          (stats.add { processed := 1, inProcess := 1 }) db)
  | stuck (hst : db.status id = some .unackDelaying) (hne : (db.zsets .delayed).entries ≠ [])
      (h : deleteMessageLoop db.queueType? group (id :: ids) stats db = .abort db .wrongType)
  | deleted (db' : Keyspace) (hdel : db.Deletable id)
      (hfree : db.status id = some .unackDelaying → (db.zsets .delayed).entries = [])
      (hdb : ErasedBy keys db [id] db')
      (h : deleteMessageLoop db.queueType? group (id :: ids) stats db =
        deleteMessageLoop db'.queueType? group ids
          (stats.add { processed := 1, success := 1 }) db')

theorem LoopStep.of_loop (hall : db.AllOf keys group (id :: ids)) (stats : DeleteStats) :
    LoopStep keys db group id ids stats := by
  cases hst : db.status id with
  | none => exact .missing hst (by simp only [deleteMessageLoop, hst]; rfl)
  | some st =>
    by_cases hproc : st = .processing
    · subst hproc
      exact .processing hst (by simp only [deleteMessageLoop, hst]; rfl)
    have hgroup : keys (db.groupOf id) = group := hall id List.mem_cons_self (by simp [hst])
    cases hremove : removeFromContainer db.queueType? group id db st with
    | error e =>
      have hloop : deleteMessageLoop db.queueType? group (id :: ids) stats db =
          .abort db e := by
        rw [deleteMessageLoop, hst]
        cases st <;> first | exact absurd rfl hproc | (dsimp only; rw [hremove])
      obtain ⟨rfl, hne⟩ := removeFromContainer_error hremove
      have he : e = .wrongType := by
        simp only [removeFromContainer, Keyspace.lremOnZset, if_neg hne] at hremove
        cases hremove
        rfl
      subst he
      exact .stuck hst hne hloop
    | ok r =>
      obtain ⟨counter, db'⟩ := r
      have hloop : deleteMessageLoop db.queueType? group (id :: ids) stats db =
          deleteMessageLoop db.queueType? group ids
            (stats.add { processed := 1, success := 1 }) (eraseMessage id counter db') := by
        rw [deleteMessageLoop, hst]
        cases st <;> first | exact absurd rfl hproc | (dsimp only; rw [hremove]; rfl)
      obtain ⟨rfl, rfl⟩ := removeFromContainer_ok hproc hremove
      have herased : ErasedBy keys db [id] _ := eraseMessage_erased hst
      rw [hgroup] at herased
      refine .deleted _ ⟨st, hst, hproc⟩ (fun hdelay => ?_) herased ?_
      · rw [hst] at hdelay
        cases hdelay
        by_contra hne
        simp only [removeFromContainer, Keyspace.lremOnZset, if_neg hne] at hremove
        cases hremove
      · rw [hloop, herased.type_eq]

theorem Selects.kept (hid : ¬ db.Deletable id) : Selects db [id] [] where
  nodup := List.nodup_nil
  mem_iff m := by
    constructor
    · exact fun hm => absurd hm List.not_mem_nil
    rintro ⟨hm, hdel⟩
    rw [List.mem_singleton.1 hm] at hdel
    exact absurd hdel hid

theorem Selects.deleted (hid : db.Deletable id) : Selects db [id] [id] where
  nodup := List.nodup_singleton id
  mem_iff m := by
    rw [List.mem_singleton]
    constructor
    · rintro rfl
      exact ⟨rfl, hid⟩
    · exact fun ⟨hm, _⟩ => hm

/-- What is selected from two lists, the second one after the deletion of the first. -/
theorem Selects.append {ids' gone gone' : List MessageId} {db' : Keyspace}
    (h : Selects db ids gone) (hdb : ErasedBy keys db gone db') (h' : Selects db' ids' gone') :
    Selects db (ids ++ ids') (gone ++ gone') where
  nodup := by
    refine List.nodup_append'.2 ⟨h.nodup, h'.nodup, fun m hm hm' => ?_⟩
    exact (hdb.deletable_iff.1 ((h'.mem_iff m).1 hm').2).1 hm
  mem_iff m := by
    rw [List.mem_append, List.mem_append, h'.mem_iff, hdb.deletable_iff]
    by_cases hm : m ∈ gone
    · simp [hm, ((h.mem_iff m).1 hm).1, ((h.mem_iff m).1 hm).2]
    have hids : db.Deletable m → m ∉ ids := fun hdel hids => hm ((h.mem_iff m).2 ⟨hids, hdel⟩)
    constructor
    · rintro (hmem | ⟨hmem, _, hdel⟩)
      · exact absurd hmem hm
      · exact ⟨.inr hmem, hdel⟩
    · rintro ⟨hmem | hmem, hdel⟩
      · exact absurd hmem (hids hdel)
      · exact .inr ⟨hmem, hm, hdel⟩

/-- What is selected from a list without a stuck message can be removed. -/
theorem Selects.removable {gone : List MessageId} (h : Selects db ids gone)
    (hfree : ¬ db.Stuck ids) :
    ∀ m ∈ gone, db.status m = some .unackDelaying → (db.zsets .delayed).entries = [] := by
  intro m hm hst
  by_contra hne
  exact hfree ⟨⟨m, ((h.mem_iff m).1 hm).1, hst⟩, hne⟩

/-- The statistics of two deletions in a row add up. -/
theorem Tally.append {ids' gone gone' : List MessageId} {db' : Keyspace} {t t' : DeleteStats}
    (h : Tally db ids gone t) (hsel : Selects db ids gone) (hdb : ErasedBy keys db gone db')
    (h' : Tally db' ids' gone' t') : Tally db (ids ++ ids') (gone ++ gone') (t.add t') := by
  have hprocessing : ∀ m, db'.status m = some .processing ↔ db.status m = some .processing := by
    intro m
    rw [hdb.status_eq]
    by_cases hm : m ∈ gone
    · obtain ⟨st, hst, hne⟩ := ((hsel.mem_iff m).1 hm).2
      simp [hm, Option.mem_def.1 hst, hne]
    · rw [if_neg hm]
  obtain ⟨h₁, h₂, h₃, h₄⟩ := h
  obtain ⟨h₁', h₂', h₃', h₄'⟩ := h'
  simp only [hprocessing] at h₃'
  constructor <;> simp only [DeleteStats.add, List.length_append, List.countP_append] <;> omega

/-- Two deletions in a row, the second one of messages that can be deleted after the first. -/
theorem ErasedBy.trans_selects {db' db'' : Keyspace} {gone gone' : List MessageId}
    (h : ErasedBy keys db gone db') (h' : ErasedBy keys db' gone' db'')
    (hsel : Selects db' ids gone') : ErasedBy keys db (gone ++ gone') db'' :=
  h.trans h' fun m hm => (h.deletable_iff.1 ((hsel.mem_iff m).1 hm).2).1

/-- Without a stuck message the loop deletes what can be deleted. -/
theorem deleteMessageLoop_erases (ids : List MessageId) (stats : DeleteStats) (db : Keyspace)
    (hall : db.AllOf keys group ids) (hfree : ¬ db.Stuck ids) :
    ∃ db' gone t, deleteMessageLoop db.queueType? group ids stats db = .done db' (stats.add t) ∧
      Selects db ids gone ∧ ErasedBy keys db gone db' ∧ Tally db ids gone t := by
  induction ids generalizing stats db with
  | nil =>
    refine ⟨db, [], {}, rfl, ⟨List.nodup_nil, by simp⟩, .refl db, ?_⟩
    constructor <;> rfl
  | cons id ids ih =>
    have hall' : db.AllOf keys group ids := fun m hm => hall m (List.mem_cons_of_mem id hm)
    have hfree' : ¬ db.Stuck ids := fun ⟨⟨m, hm, hst⟩, hne⟩ =>
      hfree ⟨⟨m, List.mem_cons_of_mem id hm, hst⟩, hne⟩
    have hrefl : ErasedBy keys db [] db := .refl db
    cases LoopStep.of_loop hall stats with
    | missing hst h =>
      obtain ⟨db', gone, t, hloop, hsel, hdb, htally⟩ := ih _ db hall' hfree'
      have hid : Selects db [id] [] := .kept (by simp [Keyspace.Deletable, hst])
      have hone : Tally db [id] [] { processed := 1, notFound := 1 } :=
        ⟨rfl, rfl, by simp [hst], rfl⟩
      rw [h, hloop, DeleteStats.add_assoc]
      exact ⟨db', gone, _, rfl, hid.append hrefl hsel, hdb,
        hone.append hid hrefl htally⟩
    | processing hst h =>
      obtain ⟨db', gone, t, hloop, hsel, hdb, htally⟩ := ih _ db hall' hfree'
      have hid : Selects db [id] [] := .kept (by simp [Keyspace.Deletable, hst])
      have hone : Tally db [id] [] { processed := 1, inProcess := 1 } :=
        ⟨rfl, rfl, by simp [hst], rfl⟩
      rw [h, hloop, DeleteStats.add_assoc]
      exact ⟨db', gone, _, rfl, hid.append hrefl hsel, hdb,
        hone.append hid hrefl htally⟩
    | stuck hst hne => exact absurd ⟨⟨id, List.mem_cons_self, hst⟩, hne⟩ hfree
    | deleted db₁ hdel hid hdb₁ h =>
      have hgone : ∀ m ∈ [id], db.status m = some .unackDelaying →
          (db.zsets .delayed).entries = [] := by
        intro m hm
        rw [List.mem_singleton.1 hm]
        exact hid
      have hfree₁ : ¬ db₁.Stuck ids := by
        rw [hdb₁.stuck_iff hgone]
        exact hfree'
      obtain ⟨db', gone, t, hloop, hsel, hdb, htally⟩ := ih _ db₁ (hdb₁.allOf hall') hfree₁
      have hone : Tally db [id] [id] { processed := 1, success := 1 } := by
        obtain ⟨st, hst, hne⟩ := hdel
        exact ⟨rfl, rfl, by simp [Option.mem_def.1 hst, hne], rfl⟩
      rw [h, hloop, DeleteStats.add_assoc]
      exact ⟨db', id :: gone, _, rfl, (Selects.deleted hdel).append hdb₁ hsel,
        hdb₁.trans_selects hdb hsel, hone.append (.deleted hdel) hdb₁ htally⟩

/-- With a stuck message the loop is aborted. -/
theorem deleteMessageLoop_aborts (ids : List MessageId) (stats : DeleteStats) (db : Keyspace)
    (hall : db.AllOf keys group ids) (hstuck : db.Stuck ids) :
    ∃ db', deleteMessageLoop db.queueType? group ids stats db = .abort db' .wrongType := by
  induction ids generalizing stats db with
  | nil =>
    obtain ⟨⟨m, hm, -⟩, -⟩ := hstuck
    cases hm
  | cons id ids ih =>
    have hall' : db.AllOf keys group ids := fun m hm => hall m (List.mem_cons_of_mem id hm)
    have hrest : db.status id ≠ some .unackDelaying → db.Stuck ids := by
      intro hid
      obtain ⟨⟨m, hm, hst⟩, hne⟩ := hstuck
      rcases List.mem_cons.1 hm with rfl | hm
      · exact absurd hst hid
      · exact ⟨⟨m, hm, hst⟩, hne⟩
    cases LoopStep.of_loop hall stats with
    | missing hst h | processing hst h =>
      rw [h]
      exact ih _ db hall' (hrest (by simp [hst]))
    | stuck hst hne h => exact ⟨db, h⟩
    | deleted db₁ hdel hid hdb₁ h =>
      have hgone : ∀ m ∈ [id], db.status m = some .unackDelaying →
          (db.zsets .delayed).entries = [] := by
        intro m hm
        rw [List.mem_singleton.1 hm]
        exact hid
      rw [h]
      refine ih _ db₁ (hdb₁.allOf hall') ((hdb₁.stuck_iff hgone).2 (hrest fun hst => ?_))
      exact hstuck.2 (hid hst)

end Loop

/-- The queue exists, and it is not locked or the presented lock identifier is its own. -/
def Keyspace.Admits (db : Keyspace) (lock : Option LockId) : Prop :=
  db.queueType?.isSome = true ∧ (db.operationalState = .locked → db.lockMatches lock = true)

theorem ErasedBy.admits {keys : Option GroupId → Option GroupId} {db db' : Keyspace}
    {gone : List MessageId} {lock : Option LockId} (h : ErasedBy keys db gone db')
    (hadm : db.Admits lock) : db'.Admits lock := by
  have hstate : db'.operationalState = db.operationalState :=
    congrArg (fun s => s.2.1) h.settings
  have hlock : db'.queue.bind QueueProps.lockId = db.queue.bind QueueProps.lockId :=
    congrArg (fun s => s.2.2.1) h.settings
  rw [Keyspace.Admits, h.type_eq, hstate, Keyspace.lockMatches, hlock]
  exact hadm

section Groups

variable {keys : Option GroupId → Option GroupId} {groupName : GroupId → String}
variable {db : Keyspace} {group : Option GroupId} {lock : Option LockId}
variable {messages : List Envelope}

/-- A script that is admitted runs its loop. -/
theorem deleteMessage_admitted (hadm : db.Admits lock) (ids : List MessageId) :
    deleteMessage group lock ids db =
      match deleteMessageLoop db.queueType? group ids {} db with
      | ⟨db, .error e⟩ => .abort db e
      | ⟨db, .ok stats⟩ => .done db (.ok stats) := by
  obtain ⟨htype, hlock⟩ := hadm
  obtain ⟨type, htype⟩ := Option.isSome_iff_exists.1 htype
  have hqueue : db.queue.isNone = false := by
    obtain ⟨q, hq, -⟩ := Option.bind_eq_some_iff.1 htype
    rw [hq]
    rfl
  have hnone : ¬ (db.operationalState = .locked ∧ lock = none) := by
    rintro ⟨hlocked, rfl⟩
    exact absurd (hlock hlocked) (by simp [Keyspace.lockMatches])
  have hmatch : ¬ (db.operationalState = .locked ∧ db.lockMatches lock = false) := by
    rintro ⟨hlocked, hfalse⟩
    rw [hlock hlocked] at hfalse
    cases hfalse
  unfold deleteMessage
  exact (if_neg (by simp [hqueue])).trans ((if_neg hnone).trans (if_neg hmatch))

theorem deleteMessageGroup_erases (hadm : db.Admits lock)
    (hall : db.AllOf keys group (messages.map Envelope.id))
    (hfree : ¬ db.Stuck (messages.map Envelope.id)) :
    ∃ db' gone t, deleteMessageGroup group messages lock db = (db', .ok t) ∧
      Selects db (messages.map Envelope.id) gone ∧ ErasedBy keys db gone db' ∧
      Tally db (messages.map Envelope.id) gone t := by
  obtain ⟨db', gone, t, hloop, hrest⟩ := deleteMessageLoop_erases _ {} db hall hfree
  refine ⟨db', gone, DeleteStats.add {} t, ?_, hrest.1, hrest.2.1, ?_⟩
  · rw [deleteMessageGroup, deleteMessage_admitted hadm, hloop]
    rfl
  · obtain ⟨h₁, h₂, h₃, h₄⟩ := hrest.2.2
    constructor <;> simp only [DeleteStats.add] <;> omega

theorem deleteMessageGroup_aborts (hadm : db.Admits lock)
    (hall : db.AllOf keys group (messages.map Envelope.id))
    (hstuck : db.Stuck (messages.map Envelope.id)) :
    ∃ db', deleteMessageGroup group messages lock db = (db', .error (.script .wrongType)) := by
  obtain ⟨db', hloop⟩ := deleteMessageLoop_aborts _ {} db hall hstuck
  refine ⟨db', ?_⟩
  rw [deleteMessageGroup, deleteMessage_admitted hadm, hloop]
  rfl

/-- The identifiers that the scripts are given, one key of the map after the other. -/
def groupedIds (groupName : GroupId → String) (messages : List Envelope) (names : List String) :
    List MessageId :=
  names.flatMap fun name => (messagesUnder groupName messages name).map Envelope.id

/-- The copies name the groups of their messages. -/
def Keyspace.Names (db : Keyspace) (messages : List Envelope) : Prop :=
  ∀ e ∈ messages, db.status e.id ≠ none → db.groupOf e.id = e.consumerGroupId

/-- The group whose keys are used for a group: that of the first message under its key. -/
def sharedKeys (groupName : GroupId → String) (messages : List Envelope) (group : Option GroupId) :
    Option GroupId :=
  (messagesUnder groupName messages (groupKey groupName group)).head?.bind Envelope.consumerGroupId

theorem Keyspace.Names.allOf (h : db.Names messages) (name : String) :
    db.AllOf (sharedKeys groupName messages)
      ((messagesUnder groupName messages name).head?.bind Envelope.consumerGroupId)
      ((messagesUnder groupName messages name).map Envelope.id) := by
  intro m hm hst
  obtain ⟨e, he, rfl⟩ := List.mem_map.1 hm
  obtain ⟨he, hname⟩ := List.mem_filter.1 he
  rw [sharedKeys, h e he hst, of_decide_eq_true hname]

theorem ErasedBy.names {db' : Keyspace} {gone : List MessageId} (hdb : ErasedBy keys db gone db')
    (h : db.Names messages) : db'.Names messages := by
  intro e he hst
  have hgone : e.id ∉ gone := fun hmem => hst (hdb.status_of_mem hmem)
  rw [hdb.status_of_notMem hgone] at hst
  rw [Keyspace.groupOf, hdb.hash_of_notMem hgone]
  exact h e he hst

theorem Keyspace.stuck_append {ids ids' : List MessageId} :
    db.Stuck (ids ++ ids') ↔ db.Stuck ids ∨ db.Stuck ids' := by
  simp only [Keyspace.Stuck, List.mem_append, or_and_right, exists_or]

theorem deleteMessageGroups_erases (names : List String) (stats : DeleteStats)
    (db : Keyspace) (hadm : db.Admits lock) (hnames : db.Names messages)
    (hfree : ¬ db.Stuck (groupedIds groupName messages names)) :
    ∃ db' gone t, deleteMessageGroups groupName messages lock names stats db =
        (db', .ok (stats.add t)) ∧
      Selects db (groupedIds groupName messages names) gone ∧
      ErasedBy (sharedKeys groupName messages) db gone db' ∧
      Tally db (groupedIds groupName messages names) gone t := by
  induction names generalizing stats db with
  | nil =>
    refine ⟨db, [], {}, rfl, ⟨List.nodup_nil, by simp [groupedIds]⟩, .refl db, ?_⟩
    constructor <;> rfl
  | cons name names ih =>
    rw [groupedIds, List.flatMap_cons, Keyspace.stuck_append, not_or] at hfree
    obtain ⟨db₁, gone₁, t₁, hgroup, hsel₁, hdb₁, htally₁⟩ :=
      deleteMessageGroup_erases hadm (hnames.allOf name) hfree.1
    have hfree₁ : ¬ db₁.Stuck (groupedIds groupName messages names) := by
      rw [hdb₁.stuck_iff (hsel₁.removable hfree.1)]
      exact hfree.2
    obtain ⟨db', gone, t, hgroups, hsel, hdb, htally⟩ :=
      ih (stats.add t₁) db₁ (hdb₁.admits hadm) (hdb₁.names hnames) hfree₁
    refine ⟨db', gone₁ ++ gone, t₁.add t, ?_, hsel₁.append hdb₁ hsel,
      hdb₁.trans_selects hdb hsel, htally₁.append hsel₁ hdb₁ htally⟩
    rw [deleteMessageGroups, hgroup, ← DeleteStats.add_assoc]
    exact hgroups

theorem deleteMessageGroups_fails (names : List String) (stats : DeleteStats)
    (db : Keyspace) (hadm : db.Admits lock) (hnames : db.Names messages)
    (hstuck : db.Stuck (groupedIds groupName messages names)) :
    ∃ db' e, deleteMessageGroups groupName messages lock names stats db = (db', .error e) := by
  induction names generalizing stats db with
  | nil =>
    obtain ⟨⟨m, hm, -⟩, -⟩ := hstuck
    cases hm
  | cons name names ih =>
    rw [groupedIds, List.flatMap_cons, Keyspace.stuck_append] at hstuck
    by_cases hfirst : db.Stuck ((messagesUnder groupName messages name).map Envelope.id)
    · obtain ⟨db', hgroup⟩ := deleteMessageGroup_aborts hadm (hnames.allOf name) hfirst
      exact ⟨db', _, by rw [deleteMessageGroups, hgroup]⟩
    obtain ⟨db₁, gone₁, t₁, hgroup, hsel₁, hdb₁, -⟩ :=
      deleteMessageGroup_erases hadm (hnames.allOf name) hfirst
    have hrest := (hdb₁.stuck_iff (hsel₁.removable hfirst)).2 (hstuck.resolve_left hfirst)
    rw [deleteMessageGroups, hgroup]
    exact ih (stats.add t₁) db₁ (hdb₁.admits hadm) (hdb₁.names hnames) hrest

end Groups

section Messages

variable {groupName : GroupId → String} {decode : MessageHash → Option Envelope}
variable {db : Keyspace} {lock : Option LockId} {order : List String → List String}
variable {ids ids' gone : List MessageId} {messages : List Envelope}

-- The elements of a list that belong to one of finitely many classes, class by class.
private theorem flatMap_filter_perm_filter {α β : Type} [DecidableEq β] (key : α → β) (l : List α)
    {classes : List β} (h : classes.Nodup) :
    (classes.flatMap fun b => l.filter (key · = b)).Perm (l.filter (key · ∈ classes)) := by
  induction classes with
  | nil => simp
  | cons b classes ih =>
    obtain ⟨hb, hnodup⟩ := List.nodup_cons.1 h
    have hsplit := List.filter_append_perm (key · = b) (l.filter (key · ∈ b :: classes))
    have hhead : (l.filter (key · ∈ b :: classes)).filter (key · = b) = l.filter (key · = b) := by
      rw [List.filter_filter]
      refine List.filter_congr fun a _ => ?_
      by_cases ha : key a = b <;> simp [ha]
    have htail : (l.filter (key · ∈ b :: classes)).filter (fun a => !decide (key a = b)) =
        l.filter (key · ∈ classes) := by
      rw [List.filter_filter]
      refine List.filter_congr fun a _ => ?_
      by_cases ha : key a = b
      · simp [ha, hb]
      · simp [ha]
    rw [hhead, htail] at hsplit
    rw [List.flatMap_cons]
    exact ((ih hnodup).append_left _).trans hsplit

private theorem flatMap_filter_perm {α β : Type} [DecidableEq β] (key : α → β) (l : List α)
    {classes : List β} (h : classes.Nodup) (hmem : ∀ a ∈ l, key a ∈ classes) :
    (classes.flatMap fun b => l.filter (key · = b)).Perm l := by
  have hall : l.filter (key · ∈ classes) = l :=
    List.filter_eq_self.2 fun a ha => decide_eq_true (hmem a ha)
  exact (flatMap_filter_perm_filter key l h).trans (.of_eq hall)

theorem groupedIds_perm {names : List String} (hnodup : names.Nodup)
    (hmem : ∀ e ∈ messages, groupKey groupName e.consumerGroupId ∈ names) :
    (groupedIds groupName messages names).Perm (messages.map Envelope.id) := by
  have hperm := (flatMap_filter_perm (fun e : Envelope => groupKey groupName e.consumerGroupId)
    messages hnodup hmem).map Envelope.id
  rw [List.map_flatMap] at hperm
  exact hperm

theorem Selects.perm (h : Selects db ids gone) (hperm : ids.Perm ids') : Selects db ids' gone where
  nodup := h.nodup
  mem_iff m := by rw [h.mem_iff, hperm.mem_iff]

theorem Tally.perm {t : DeleteStats} (h : Tally db ids gone t) (hperm : ids.Perm ids') :
    Tally db ids' gone t where
  processed := by rw [h.processed, hperm.length_eq]
  success := h.success
  inProcess := by rw [h.inProcess, hperm.countP_eq]
  total := h.total

/-- A decoded copy knows its message and its group. -/
def Decodes (decode : MessageHash → Option Envelope) (db : Keyspace) : Prop :=
  ∀ id h e, db.hgetall id = some h → decode h = some e →
    e.id = id ∧ e.consumerGroupId = db.groupOf id

theorem ErasedBy.decodes {keys : Option GroupId → Option GroupId} {db' : Keyspace}
    (hdb : ErasedBy keys db gone db') (h : Decodes decode db) :
    Decodes decode db' := by
  intro id hash e hget hdec
  have hid : id ∉ gone := by
    intro hmem
    rw [hdb.hash, if_pos hmem] at hget
    cases hget
  rw [hdb.hash_of_notMem hid] at hget
  rw [Keyspace.groupOf, hdb.hash_of_notMem hid]
  exact h id hash e hget hdec

/-- The stored ones of the listed messages are loaded. -/
theorem getMessages_some (hdec : Decodes decode db)
    (h : getMessages decode db ids = some messages) :
    messages.map Envelope.id = ids.filter (fun id => (db.hgetall id).isSome) ∧
      ∀ e ∈ messages, e.consumerGroupId = db.groupOf e.id := by
  induction ids generalizing messages with
  | nil =>
    cases h
    exact ⟨rfl, by simp⟩
  | cons id ids ih =>
    cases hget : db.hgetall id with
    | none =>
      rw [getMessages, hget] at h
      simpa [hget] using ih h
    | some hash =>
      rw [getMessages, hget] at h
      obtain ⟨e, he, h⟩ := Option.bind_eq_some_iff.1 h
      obtain ⟨rest, hrest, rfl⟩ := Option.map_eq_some_iff.1 h
      obtain ⟨hid, hgroup⟩ := hdec id hash e hget he
      obtain ⟨hids, hgroups⟩ := ih hrest
      refine ⟨by simp [hget, hid, hids], fun e' he' => ?_⟩
      rcases List.mem_cons.1 he' with rfl | he'
      · rw [hid, hgroup]
      · exact hgroups e' he'

theorem getMessages_eq_none_iff :
    getMessages decode db ids = none ↔
      ∃ id ∈ ids, ∃ h, db.hgetall id = some h ∧ decode h = none := by
  induction ids with
  | nil => simp [getMessages]
  | cons id ids ih =>
    cases hget : db.hgetall id with
    | none => simp [getMessages, hget, ih]
    | some hash =>
      cases hdec : decode hash with
      | none => simp [getMessages, hget, hdec]
      | some e => simp [getMessages, hget, hdec, ih]

theorem Keyspace.isSome_hgetall_of_status {m : MessageId} {st : Status}
    (h : db.status m = some st) : (db.hgetall m).isSome = true := by
  obtain ⟨hash, hget, -⟩ := Option.bind_eq_some_iff.1 h
  rw [hget]
  rfl

theorem Keyspace.stuck_stored :
    db.Stuck (ids.filter fun id => (db.hgetall id).isSome) ↔ db.Stuck ids := by
  refine and_congr_left fun _ => exists_congr fun m => ?_
  rw [List.mem_filter]
  constructor
  · exact fun ⟨⟨hm, _⟩, hst⟩ => ⟨hm, hst⟩
  · exact fun ⟨hm, hst⟩ => ⟨⟨hm, isSome_hgetall_of_status hst⟩, hst⟩

theorem Selects.of_stored (h : Selects db (ids.filter fun id => (db.hgetall id).isSome) gone) :
    Selects db ids gone where
  nodup := h.nodup
  mem_iff m := by
    rw [h.mem_iff, List.mem_filter]
    constructor
    · exact fun ⟨⟨hm, _⟩, hdel⟩ => ⟨hm, hdel⟩
    rintro ⟨hm, hdel⟩
    obtain ⟨st, hst, -⟩ := id hdel
    exact ⟨⟨hm, Keyspace.isSome_hgetall_of_status hst⟩, hdel⟩

/-- The statistics, with the identifiers that were not found when the messages were loaded. -/
theorem Tally.of_stored {t : DeleteStats} {n : Nat}
    (h : Tally db (ids.filter fun id => (db.hgetall id).isSome) gone t)
    (hn : n + (ids.filter fun id => (db.hgetall id).isSome).length = ids.length) :
    Tally db ids gone (DeleteStats.add { processed := n, notFound := n } t) := by
  obtain ⟨h₁, h₂, h₃, h₄⟩ := h
  have hcount : (ids.filter fun id => (db.hgetall id).isSome).countP
      (fun m => db.status m = some .processing) =
      ids.countP fun m => db.status m = some .processing := by
    rw [List.countP_filter]
    refine List.countP_congr fun m _ => ?_
    simp only [Bool.and_eq_true, decide_eq_true_eq]
    exact ⟨fun h => h.1, fun h => ⟨h, Keyspace.isSome_hgetall_of_status h⟩⟩
  rw [hcount] at h₃
  constructor <;> simp only [DeleteStats.add] <;> omega

/-- What `DeleteMessages` can fail on: a hash that does not decode or a stuck message. -/
def Keyspace.Obstructs (db : Keyspace) (decode : MessageHash → Option Envelope)
    (ids : List MessageId) : Prop :=
  (∃ id ∈ ids, ∃ h, db.hgetall id = some h ∧ decode h = none) ∨ db.Stuck ids

/-- `DeleteMessages` after the messages were loaded. -/
theorem deleteMessages_loaded (hids : ids ≠ []) (hmessages : messages ≠ [])
    (h : getMessages decode db ids = some messages) :
    deleteMessages groupName decode order ids lock db =
      match deleteMessageGroups groupName messages lock
        (order (messages.map fun e => groupKey groupName e.consumerGroupId).dedup)
        { processed := ids.length - messages.length, notFound := ids.length - messages.length }
        db with
      | (db, .error e) => (db, .error e)
      | (db, .ok stats) => (db, .ok { status := stats.status, stats := stats }) := by
  rw [deleteMessages, if_neg hids, h]
  exact if_neg hmessages

/-- The scripts are given the stored ones of the listed messages. -/
theorem groupedIds_loaded (hdec : Decodes decode db) (horder : ∀ l, (order l).Perm l)
    (h : getMessages decode db ids = some messages) :
    (groupedIds groupName messages
      (order (messages.map fun e => groupKey groupName e.consumerGroupId).dedup)).Perm
        (ids.filter fun id => (db.hgetall id).isSome) := by
  have hclasses := horder (messages.map fun e => groupKey groupName e.consumerGroupId).dedup
  rw [← (getMessages_some hdec h).1]
  refine groupedIds_perm (hclasses.nodup_iff.2 (List.nodup_dedup _)) fun e he => ?_
  rw [hclasses.mem_iff, List.mem_dedup]
  exact List.mem_map_of_mem (f := fun e : Envelope => groupKey groupName e.consumerGroupId) he

theorem Keyspace.stuck_perm (h : ids.Perm ids') : db.Stuck ids ↔ db.Stuck ids' := by
  simp only [Keyspace.Stuck, h.mem_iff]

/-- The group whose keys `DeleteMessages` uses for a group: that of the first stored message
of the list that has the same key in the map. -/
def Keyspace.scriptKeys (db : Keyspace) (groupName : GroupId → String) (ids : List MessageId)
    (group : Option GroupId) : Option GroupId :=
  (ids.find? fun id => (db.hgetall id).isSome ∧
    groupKey groupName (db.groupOf id) = groupKey groupName group).bind db.groupOf

theorem sharedKeys_loaded (hdec : Decodes decode db)
    (h : getMessages decode db ids = some messages) :
    sharedKeys groupName messages = db.scriptKeys groupName ids := by
  obtain ⟨hstored, hgroups⟩ := getMessages_some hdec h
  funext group
  have hfind : ∀ l : List Envelope, (∀ e ∈ l, e.consumerGroupId = db.groupOf e.id) →
      (messagesUnder groupName l (groupKey groupName group)).head?.bind Envelope.consumerGroupId =
        ((l.map Envelope.id).find? fun id =>
          groupKey groupName (db.groupOf id) = groupKey groupName group).bind db.groupOf := by
    intro l hl
    induction l with
    | nil => rfl
    | cons e l ih =>
      have he := hl e List.mem_cons_self
      rw [messagesUnder, List.map_cons]
      by_cases hkey : groupKey groupName (db.groupOf e.id) = groupKey groupName group
      · rw [List.filter_cons_of_pos (by simpa [he] using hkey),
          List.find?_cons_of_pos (by simpa using hkey)]
        exact he
      · rw [List.filter_cons_of_neg (by simpa [he] using hkey),
          List.find?_cons_of_neg (by simpa using hkey)]
        exact ih fun e he => hl e (List.mem_cons_of_mem _ he)
  rw [sharedKeys, hfind messages hgroups, hstored, List.find?_filter, Keyspace.scriptKeys]
  simp only [Bool.decide_and, Bool.decide_eq_true]

/-- Unless something obstructs it, `DeleteMessages` deletes what can be deleted. -/
theorem deleteMessages_erases (groupName : GroupId → String) (hadm : db.Admits lock)
    (hdec : Decodes decode db) (horder : ∀ l, (order l).Perm l)
    (hfree : ¬ db.Obstructs decode ids) :
    ∃ db' gone r, deleteMessages groupName decode order ids lock db = (db', .ok r) ∧
      Selects db ids gone ∧ ErasedBy (db.scriptKeys groupName ids) db gone db' ∧
      Tally db ids gone r.stats := by
  by_cases hids : ids = []
  · subst hids
    refine ⟨db, [], { status := .ok }, rfl, ⟨List.nodup_nil, by simp⟩, .refl db, ?_⟩
    constructor <;> rfl
  obtain ⟨hdecodes, hstuck⟩ := not_or.1 hfree
  rw [← getMessages_eq_none_iff] at hdecodes
  obtain ⟨messages, hget⟩ := Option.ne_none_iff_exists'.1 hdecodes
  obtain ⟨hstored, hgroups⟩ := getMessages_some hdec hget
  have hlength : ids.length - messages.length +
      (ids.filter fun id => (db.hgetall id).isSome).length = ids.length := by
    have hle := List.length_filter_le (fun id => (db.hgetall id).isSome) ids
    rw [← hstored, List.length_map] at hle ⊢
    omega
  by_cases hmessages : messages = []
  · subst hmessages
    have hnil : ids.filter (fun id => (db.hgetall id).isSome) = [] := hstored.symm
    have hsel : Selects db (ids.filter fun id => (db.hgetall id).isSome) [] := by
      rw [hnil]
      exact ⟨List.nodup_nil, by simp⟩
    have htally : Tally db (ids.filter fun id => (db.hgetall id).isSome) [] {} := by
      rw [hnil]
      constructor <;> rfl
    refine ⟨db, [], { stats := _ }, ?_, hsel.of_stored, .refl db, htally.of_stored hlength⟩
    rw [deleteMessages, if_neg hids, hget]
    rfl
  · have hperm : (groupedIds groupName messages _).Perm _ := groupedIds_loaded hdec horder hget
    rw [← Keyspace.stuck_stored, ← Keyspace.stuck_perm hperm] at hstuck
    obtain ⟨db', gone, t, hrun, hsel, hdb, htally⟩ := deleteMessageGroups_erases _
      { processed := ids.length - messages.length, notFound := ids.length - messages.length } db
      hadm (fun e he _ => (hgroups e he).symm) hstuck
    have hdone := @deleteMessages_loaded groupName decode db lock order ids messages
      hids hmessages hget
    rw [hrun] at hdone
    rw [sharedKeys_loaded hdec hget] at hdb
    exact ⟨db', gone, _, hdone, (hsel.perm hperm).of_stored, hdb,
      (htally.perm hperm).of_stored hlength⟩

/-- What obstructs `DeleteMessages` makes it fail. -/
theorem deleteMessages_fails (groupName : GroupId → String) (hadm : db.Admits lock)
    (hdec : Decodes decode db) (horder : ∀ l, (order l).Perm l) (hobs : db.Obstructs decode ids) :
    ∃ db' e, deleteMessages groupName decode order ids lock db = (db', .error e) := by
  have hids : ids ≠ [] := by
    rintro rfl
    rcases hobs with ⟨id, hid, -⟩ | ⟨⟨id, hid, -⟩, -⟩ <;> cases hid
  cases hget : getMessages decode db ids with
  | none => exact ⟨db, .undecodable, by rw [deleteMessages, if_neg hids, hget]⟩
  | some messages =>
    obtain ⟨hstored, hgroups⟩ := getMessages_some hdec hget
    have hstuck : db.Stuck ids := by
      refine hobs.resolve_left fun hundecodable => ?_
      rw [getMessages_eq_none_iff.2 hundecodable] at hget
      cases hget
    have hperm : (groupedIds groupName messages _).Perm _ := groupedIds_loaded hdec horder hget
    rw [← Keyspace.stuck_stored, ← Keyspace.stuck_perm hperm] at hstuck
    have hmessages : messages ≠ [] := by
      rintro rfl
      obtain ⟨⟨m, hm, -⟩, -⟩ := hstuck
      rw [hperm.mem_iff, ← hstored] at hm
      cases hm
    obtain ⟨db', e, hrun⟩ := deleteMessageGroups_fails _
      { processed := ids.length - messages.length, notFound := ids.length - messages.length } db
      hadm (fun e he _ => (hgroups e he).symm) hstuck
    exact ⟨db', e, by rw [deleteMessages_loaded hids hmessages hget, hrun]⟩

end Messages

end RedisSmq
