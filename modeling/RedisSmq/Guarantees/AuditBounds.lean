import RedisSmq.System.Scores

/-!
# The bounds of the audit lists

The acknowledged and the dead-letter list are for audits: they are kept only if the
configuration says so, with at most as many entries as it says, and so are the histories
of unacknowledgements. `acknowledge-message` and `unacknowledge-message` see to that. The
scripts that requeue a message or publish a due one put it on the dead-letter list too,
when its consumer group is gone, and they neither ask whether the list is kept nor trim it.
-/

namespace RedisSmq

/-- The list is as the configuration wants it: empty if it is not kept, and not longer
than its size if one is set. -/
structure AuditQueue.Bounds (audit : AuditQueue) (l : List MessageId) : Prop where
  disabled : audit.enabled = false → l = []
  size : 0 < audit.queueSize → l.length ≤ audit.queueSize

/-- The audit lists and the histories are as the configuration wants them. -/
structure AuditBounded (cfg : Config) (db : Keyspace) : Prop where
  acknowledged : cfg.acknowledged.Bounds (db.lists .acknowledged)
  deadLetter : cfg.deadLettered.Bounds (db.lists .deadLetter)
  history : ∀ m, 0 < cfg.historySize → (db.history m).length ≤ cfg.historySize

/-- The part of the configuration that is about audits. -/
def Config.audit (cfg : Config) : AuditQueue × AuditQueue × Bool × Nat :=
  (cfg.acknowledged, cfg.deadLettered, cfg.historyEnabled, cfg.historySize)

namespace AuditQueue

variable {audit : AuditQueue} {l l' : List MessageId}

/-- The list is kept whole. -/
def KeepsAll (audit : AuditQueue) : Prop := audit.enabled = true ∧ audit.queueSize = 0
  deriving Decidable

theorem KeepsAll.bounds (h : audit.KeepsAll) (l : List MessageId) : audit.Bounds l where
  disabled hoff := by
    rw [h.1] at hoff
    cases hoff
  size hsize := by
    rw [h.2] at hsize
    cases hsize

theorem Bounds.sublist (h : audit.Bounds l) (hsub : l'.Sublist l) : audit.Bounds l' where
  disabled hoff := List.sublist_nil.1 (h.disabled hoff ▸ hsub)
  size hsize := hsub.length_le.trans (h.size hsize)

end AuditQueue

/-- A list that is kept is trimmed when it grows. -/
theorem Keyspace.bounds_keepAudit {audit : AuditQueue} (henabled : audit.enabled = true)
    (db : Keyspace) (k : ListKey) (ids : List MessageId) :
    audit.Bounds ((db.keepAudit k audit ids).lists k) := by
  refine ⟨fun hoff => ?_, fun hsize => ?_⟩
  · rw [henabled] at hoff
    cases hoff
  have hne : audit.queueSize ≠ 0 := hsize.ne'
  unfold Keyspace.keepAudit
  dsimp only
  rw [if_neg hne]
  have htrim : ((db.setList k (db.lists k ++ ids)).ltrimLast k audit.queueSize).lists k =
      (db.lists k ++ ids).drop ((db.lists k ++ ids).length - audit.queueSize) := by
    simp [Keyspace.ltrimLast, Keyspace.setList]
  rw [htrim, List.length_drop]
  omega

namespace AuditBounded

variable {cfg : Config} {db db' : Keyspace}

theorem of_audit {cfg' : Config} (h : AuditBounded cfg db) (haudit : cfg'.audit = cfg.audit) :
    AuditBounded cfg' db := by
  simp only [Config.audit, Prod.mk.injEq] at haudit
  obtain ⟨hack, hdead, -, hsize⟩ := haudit
  exact ⟨hack ▸ h.acknowledged, hdead ▸ h.deadLetter, hsize ▸ h.history⟩

/-- The lists and the histories may lose entries. -/
theorem shrink (h : AuditBounded cfg db)
    (hack : (db'.lists .acknowledged).Sublist (db.lists .acknowledged))
    (hdead : (db'.lists .deadLetter).Sublist (db.lists .deadLetter))
    (hhistory : ∀ m, (db'.history m).Sublist (db.history m)) : AuditBounded cfg db' where
  acknowledged := h.acknowledged.sublist hack
  deadLetter := h.deadLetter.sublist hdead
  history m hsize := (hhistory m).length_le.trans (h.history m hsize)

end AuditBounded

/-- The containers that may be written without regard to the audits. -/
def unaudited (cfg : Config) : Set Slot :=
  {p | p ≠ .list .acknowledged ∧ (p = .list .deadLetter → cfg.deadLettered.KeepsAll)}

theorem pendingSlot_mem_unaudited (cfg : Config) (type : QueueType) (group : Option GroupId) :
    pendingSlot type group ∈ unaudited cfg := by
  cases type <;> simp [unaudited, pendingSlot]

namespace AuditBounded

variable {cfg : Config} {db db' : Keyspace}

theorem edits (h : AuditBounded cfg db) (hedits : Edits (unaudited cfg) db db') :
    AuditBounded cfg db' where
  acknowledged := by
    have hsame : db'.lists .acknowledged = db.lists .acknowledged :=
      hedits.writes (.list .acknowledged) (by simp [unaudited])
    rw [hsame]
    exact h.acknowledged
  deadLetter := by
    by_cases hall : cfg.deadLettered.KeepsAll
    · exact hall.bounds _
    have hsame : db'.lists .deadLetter = db.lists .deadLetter :=
      hedits.writes (.list .deadLetter) (by simp [unaudited, hall])
    rw [hsame]
    exact h.deadLetter
  history := by
    rw [hedits.history]
    exact h.history

theorem keepAcknowledged (h : AuditBounded cfg db) (henabled : cfg.acknowledged.enabled = true)
    (ids : List MessageId) :
    AuditBounded cfg (db.keepAudit .acknowledged cfg.acknowledged ids) := by
  have hedits : Edits {.list .acknowledged} db
      (db.keepAudit .acknowledged cfg.acknowledged ids) := Edits.refl.keepAudit (by simp) _ _
  have hdead : (db.keepAudit .acknowledged cfg.acknowledged ids).lists .deadLetter =
      db.lists .deadLetter := hedits.writes (.list .deadLetter) (by simp)
  exact ⟨Keyspace.bounds_keepAudit henabled db _ ids, hdead ▸ h.deadLetter,
    hedits.history ▸ h.history⟩

theorem pushUnacked (h : AuditBounded cfg db) (a : UnackArg) :
    AuditBounded cfg (db.pushUnacked cfg a) := by
  unfold Keyspace.pushUnacked
  split
  · exact h.edits (Edits.refl.setList (by simp [unaudited]) _)
  split
  · rename_i henabled
    have hedits : Edits {.list .deadLetter} db
        (db.keepAudit .deadLetter cfg.deadLettered [a.id]) :=
      Edits.refl.keepAudit (by simp) _ _
    have hack : (db.keepAudit .deadLetter cfg.deadLettered [a.id]).lists .acknowledged =
        db.lists .acknowledged := hedits.writes (.list .acknowledged) (by simp)
    exact ⟨hack ▸ h.acknowledged, Keyspace.bounds_keepAudit henabled db _ _,
      hedits.history ▸ h.history⟩
  · exact h

/-- A record is written only if histories are kept, and then the history is trimmed. -/
theorem recordUnack (h : AuditBounded cfg db) {a : UnackArg}
    (hkept : a.history.isSome = true → cfg.historyEnabled = true) :
    AuditBounded cfg (db.recordUnack cfg a) := by
  unfold Keyspace.recordUnack
  split
  · exact h
  rename_i r hr
  refine ⟨h.acknowledged, h.deadLetter, fun m hsize => ?_⟩
  rw [if_pos (hkept (by rw [hr]; rfl)), Keyspace.pushHistory, if_pos hsize]
  dsimp only
  by_cases hm : m = a.id
  · subst hm
    rw [Function.update_self]
    exact List.length_take_le _ _
  · rw [Function.update_of_ne hm]
    exact h.history m hsize

end AuditBounded

/-! ## Scripts -/

section Scripts

variable {cfg : Config} {type : QueueType} {now : Millis} {db : Keyspace} {c : ConsumerId}

theorem acknowledgeMessage_bounded (c : ConsumerId) (now : Millis) (ids : List MessageId)
    (h : AuditBounded cfg db) : AuditBounded cfg (acknowledgeMessage cfg c now ids db).db := by
  refine acknowledgeMessage_run c now cfg h (fun _ => ?_) fun henabled hmoves => ?_
  · exact List.foldlRecOn (motive := AuditBounded cfg) ids _ h fun db' hdb' id _ =>
      hdb'.edits (ackMove_edits (by simp [unaudited]) now id)
  · exact hmoves.keepAcknowledged henabled _

theorem unackMove_bounded (c : ConsumerId) {a : UnackArg}
    (hkept : a.history.isSome = true → cfg.historyEnabled = true) (h : AuditBounded cfg db) :
    AuditBounded cfg (unackMove cfg c db a) := by
  unfold unackMove
  split
  · have htaken : AuditBounded cfg (db.lrem (.processing c) a.id) :=
      h.edits (Edits.refl.setList (by simp [unaudited]) _)
    have hrecorded := (htaken.pushUnacked a).recordUnack hkept
    exact hrecorded.edits ((Edits.refl.hset _ _).shift _ _)
  · exact h

theorem unacknowledgeMessage_bounded (c : ConsumerId) {args : List UnackArg}
    (hkept : ∀ a ∈ args, a.history.isSome = true → cfg.historyEnabled = true)
    (h : AuditBounded cfg db) : AuditBounded cfg (unacknowledgeMessage cfg c args db).2 := by
  refine unacknowledgeMessage_run cfg c args h fun _ => ?_
  exact List.foldlRecOn (motive := AuditBounded cfg) args _ h fun db' hdb' a ha =>
    unackMove_bounded c (hkept a ha) hdb'

/-- A requeue keeps the bounds if every message that it would retry at once finds its group,
or if the dead-letter list is kept whole. -/
theorem requeueImmediate_bounded {args : List RequeueArg} (htype : db.queueType? = some type)
    (hfit : ∀ a ∈ args, PriorityFits type a.priority)
    (hgroup : cfg.deadLettered.KeepsAll ∨ (stateRefusal db.operationalState = none →
      ∀ a ∈ args, a.id ∈ db.lists .requeued → a.retryDelay = 0 → db.groupExists a.group = true))
    (h : AuditBounded cfg db) : AuditBounded cfg (requeueImmediate now args db).db := by
  refine requeueImmediate_run now htype hfit h fun hstate => ?_
  refine (List.foldlRecOn (motive := fun db' => AuditBounded cfg db' ∧
    db'.settings = db.settings ∧ (db'.lists .requeued).Sublist (db.lists .requeued))
    args _ ⟨h, rfl, List.Sublist.refl _⟩ ?_).1
  rintro db' ⟨hdb', hsettings, hsub⟩ a ha
  refine ⟨hdb'.edits (requeueMove_edits (by simp [unaudited]) (by simp [unaudited])
    (pendingSlot_mem_unaudited cfg type a.group) fun hmem hdelay hgone => ?_),
    (requeueMove_frame type now db' a).settings.trans hsettings,
    (requeueMove_requeued a).trans hsub⟩
  rcases hgroup with hall | hfinds
  · simpa [unaudited] using hall
  rw [Keyspace.groupExists_of_settings hsettings,
    hfinds hstate a ha (hsub.subset hmem) hdelay] at hgone
  cases hgone

theorem requeueDelayed_bounded {args : List RequeueArg} (htype : db.queueType? = some type)
    (hfit : ∀ a ∈ args, PriorityFits type a.priority)
    (hgroup : cfg.deadLettered.KeepsAll ∨ (stateRefusal db.operationalState = none →
      ∀ a ∈ args, a.id ∈ db.zsets .delayed → db.groupExists a.group = true))
    (h : AuditBounded cfg db) : AuditBounded cfg (requeueDelayed now args db).db := by
  refine requeueDelayed_run now htype hfit h fun hstate => ?_
  refine (List.foldlRecOn (motive := fun db' => AuditBounded cfg db' ∧
    db'.settings = db.settings ∧ ∀ m, m ∈ db'.zsets .delayed → m ∈ db.zsets .delayed)
    args _ ⟨h, rfl, fun _ hm => hm⟩ ?_).1
  rintro db' ⟨hdb', hsettings, hsub⟩ a ha
  refine ⟨hdb'.edits (delayedMove_edits (by simp [unaudited])
    (pendingSlot_mem_unaudited cfg type a.group) fun hmem hgone => ?_),
    (delayedMove_frame type now db' a).settings.trans hsettings,
    fun m hm => hsub m (mem_of_mem_delayedMove hm)⟩
  rcases hgroup with hall | hfinds
  · simpa [unaudited] using hall
  rw [Keyspace.groupExists_of_settings hsettings,
    hfinds hstate a ha (hsub _ hmem)] at hgone
  cases hgone

/-- The move of a message that is not in the schedule and whose group is gone. -/
theorem scheduledMove_idle {a : ScheduledArg} (hmem : a.id ∉ db.zsets .scheduled)
    (hgone : db.groupExists a.group = false) : scheduledMove type db a = db := by
  unfold scheduledMove
  split
  · rw [if_neg hmem]
  · rw [hgone, if_neg (by simp), if_neg hmem]

/-- The scheduler works for one group at a time. If the group is gone, then the batch is
dead-lettered. -/
theorem publishScheduled_bounded {args : List ScheduledArg} (group : Option GroupId)
    (htype : db.queueType? = some type) (hfit : ∀ a ∈ args, a.Fits type)
    (hsame : ∀ a ∈ args, a.group = group)
    (hgroup : cfg.deadLettered.KeepsAll ∨ (stateRefusal db.operationalState = none →
      ∀ a ∈ args, a.id ∈ db.zsets .scheduled → db.groupExists group = true))
    (h : AuditBounded cfg db) : AuditBounded cfg (publishScheduled args db).db := by
  refine publishScheduled_run htype hfit h fun hstate => ?_
  have hmoves : (cfg.deadLettered.KeepsAll ∨ db.groupExists group = true) →
      AuditBounded cfg (args.foldl (scheduledMove type) db) := by
    intro hkept
    refine (List.foldlRecOn (motive := fun db' => AuditBounded cfg db' ∧
      db'.settings = db.settings) args _ ⟨h, rfl⟩ ?_).1
    rintro db' ⟨hdb', hsettings⟩ a ha
    refine ⟨hdb'.edits (scheduledMove_edits
      ((Keyspace.queueType?_of_settings hsettings).trans htype) (by simp [unaudited])
      (by simp [unaudited]) (pendingSlot_mem_unaudited cfg type) fun _ hgone => ?_),
      settings_scheduledMove.trans hsettings⟩
    rcases hkept with hall | hfound
    · simpa [unaudited] using hall
    · rw [Keyspace.groupExists_of_settings hsettings, hsame a ha, hfound] at hgone
      cases hgone
  rcases hgroup with hall | hfinds
  · exact hmoves (.inl hall)
  by_cases hfound : db.groupExists group = true
  · exact hmoves (.inr hfound)
  have hidle : args.foldl (scheduledMove type) db = db := by
    refine List.foldlRecOn (motive := fun db' => db' = db) args _ rfl ?_
    rintro db' rfl a ha
    refine scheduledMove_idle (fun hmem => hfound (hfinds hstate a ha hmem)) ?_
    rw [hsame a ha]
    simpa using hfound
  rw [hidle]
  exact h

theorem removeFromContainer_sublist {type : Option QueueType} {group : Option GroupId}
    {id : MessageId} {st : Status} {counter : Option Counter} {db' : Keyspace}
    (h : removeFromContainer type group id db st = .ok (counter, db')) (k : ListKey) :
    (db'.lists k).Sublist (db.lists k) := by
  obtain ⟨-, ⟨-, -, rfl⟩ | ⟨-, rfl⟩⟩ := removeFromContainer_cases h
  · exact .refl _
  · rcases st.home type group with _ | k' | _
    exacts [.refl _, db.lrem_sublist k' k id, .refl _]

/-- A deletion takes from the audit lists, and forgets the history of its message. -/
theorem deleteMove_bounded (type : Option QueueType) (group : Option GroupId) (id : MessageId)
    (h : AuditBounded cfg db) : AuditBounded cfg (deleteMove type group db id) := by
  unfold deleteMove
  split
  · exact h
  · exact h
  rename_i st _ _
  split
  · exact h
  rename_i counter db' hremove
  have hhistory : db'.history = db.history :=
    (removeFromContainer_edits (W := Set.univ) hremove trivial trivial trivial trivial
      fun _ _ => trivial).history
  have hremoved : AuditBounded cfg db' :=
    h.shrink (removeFromContainer_sublist hremove _) (removeFromContainer_sublist hremove _)
      fun m => by rw [hhistory]
  refine hremoved.shrink ?_ ?_ fun m => ?_
  · rw [lists_eraseMessage, if_neg (by simp)]
  · rw [lists_eraseMessage, if_neg (by simp)]
  rw [history_eraseMessage]
  split
  · exact List.nil_sublist _
  · exact List.Sublist.refl _

theorem deleteMessage_bounded (group : Option GroupId) (lock : Option LockId)
    (ids : List MessageId) (h : AuditBounded cfg db) :
    AuditBounded cfg (deleteMessage group lock ids db).db := by
  obtain ⟨done, _, hdone⟩ := @deleteMessage_moves group lock ids db
  rw [hdone]
  exact List.foldlRecOn (motive := AuditBounded cfg) done _ h
    fun db' hdb' id _ => deleteMove_bounded _ group id hdb'

end Scripts

/-! ## Steps -/

namespace Action

/-- The container that a requeue or the scheduler takes messages from to make them pending,
and the messages with their groups. -/
def takes : Action → Option (Slot × List (MessageId × Option GroupId))
  | .requeueImmediate batch _ =>
      some (.list .requeued, (batch.filter fun e => toMillis e.message.retryDelay = 0).map
        fun e => (e.id, e.consumerGroupId))
  | .requeueDelayed batch _ =>
      some (.zset .delayed, batch.map fun e => (e.id, e.consumerGroupId))
  | .publishScheduled _ batch _ =>
      some (.zset .scheduled, batch.map fun e => (e.id, e.consumerGroupId))
  | _ => none

/-- The configuration that the action sets. -/
def configures : Action → Option Config
  | .configure cfg => some cfg
  | _ => none

end Action

namespace System

variable (s : System) (a : Action)

/-- The configuration of the audits stays as it is. -/
def KeepsAuditConfig : Prop := ∀ cfg ∈ a.configures, cfg.audit = s.cfg.audit
  deriving Decidable

/-- A message that is to become pending again, or for the first time, finds its group. -/
def FindsGroups : Prop :=
  ∀ x ∈ a.takes, stateRefusal s.db.operationalState = none → ∀ y ∈ x.2, 0 < s.db.occ x.1 y.1 →
    s.db.groupExists y.2 = true
  deriving Decidable

/-- The steps that keep the audits within their bounds: dead letters are all kept, or no
message comes back for a group that is gone. -/
def KeepsAudits : Prop :=
  s.KeepsAuditConfig a ∧ (s.cfg.deadLettered.KeepsAll ∨ s.FindsGroups a)
  deriving Decidable

end System

section Steps

variable {type : QueueType} {s s' : System} {a : Action}

/-- A record is built only if histories are kept. -/
theorem UnackArg.history_kept {cfg : Config} {now : Nanos} {e : Envelope} {cause : UnackCause}
    (h : (UnackArg.ofEnvelope cfg now e cause).history.isSome = true) :
    cfg.historyEnabled = true := by
  by_contra hoff
  simp [UnackArg.ofEnvelope, hoff] at h

theorem unackBatch_bounded (c : ConsumerId) (batch : List (Envelope × Option Nat × UnackCause))
    (t : Nanos) (h : AuditBounded s.cfg s.db) : AuditBounded s.cfg (s.unackBatch c batch t).1 := by
  refine unacknowledgeMessage_bounded c (fun arg harg => ?_) h
  obtain ⟨b, -, rfl⟩ := List.mem_map.1 harg
  exact UnackArg.history_kept

/-- Neither the audit lists nor the histories are touched. -/
theorem AuditBounded.of_same {cfg : Config} {db db' : Keyspace} (h : AuditBounded cfg db)
    (hack : db'.lists .acknowledged = db.lists .acknowledged)
    (hdead : db'.lists .deadLetter = db.lists .deadLetter) (hhistory : db'.history = db.history) :
    AuditBounded cfg db' :=
  h.shrink (by rw [hack]) (by rw [hdead]) fun m => by rw [hhistory]

/-- A step that meets the condition keeps the audits within their bounds. -/
theorem bounded_of_step (hstep : s.step a = some s') (hs : Sane type s) (hkeeps : s.KeepsAudits a)
    (h : AuditBounded s.cfg s.db) : AuditBounded s'.cfg s'.db := by
  obtain ⟨hconfig, hgroups⟩ := hkeeps
  cases Step.of_step hstep with
  | task | crash | fetch | load | tick => exact h
  | configure => exact h.of_audit (hconfig _ rfl)
  | saveGroup => exact h.of_same rfl rfl rfl
  | setState =>
    rcases setQueueState_cases _ _ _ s.db with hdb | ⟨q, lockId, -, hdb⟩
    · exact h.of_same (by rw [hdb]) (by rw [hdb]) (by rw [hdb])
    · exact h.of_same (by rw [hdb]) (by rw [hdb]) (by rw [hdb])
  | @deleteGroup g keys =>
    have hwrites := deleteConsumerGroup_writes hs.type_eq g keys
    refine h.of_same (hwrites (.list .acknowledged) (by simp))
      (hwrites (.list .deadLetter) (by simp)) ?_
    rcases deleteConsumerGroup_cases hs.type_eq g keys with hdb | ⟨-, hdb⟩ <;> rw [hdb]
    rfl
  | @expire k hk =>
    have hsub : ∀ k', ((s.db.setList k []).lists k').Sublist (s.db.lists k') := by
      intro k'
      unfold Keyspace.setList
      dsimp only
      by_cases hk' : k' = k
      · subst hk'
        rw [Function.update_self]
        exact List.nil_sublist _
      · rw [Function.update_of_ne hk']
    exact h.shrink (hsub _) (hsub _) fun m => List.Sublist.refl _
  | produce hm hdb =>
    subst hdb
    exact h.edits (publishMessage_edits hs.type_eq (by simp [unaudited]) (by simp [unaudited])
      (pendingSlot_mem_unaudited s.cfg type _))
  | pop hc htype hpop =>
    exact h.edits (pop_edits hpop (pendingSlot_mem_unaudited s.cfg _ _) (by simp [unaudited]))
  | checkout hmem hstate hget hst hdb =>
    subst hdb
    exact h.edits (((Edits.refl.hset _ _).hincrby _ _).hincrby _ _)
  | acknowledge htasks ht hrun =>
    subst hrun
    exact acknowledgeMessage_bounded _ _ _ h
  | unacknowledge => exact unackBatch_bounded _ _ _ h
  | reap => exact unackBatch_bounded _ _ _ h
  | @requeueImmediate batch t hload =>
    refine requeueImmediate_bounded hs.type_eq (hs.requeueArgs_fit hload)
      (hgroups.imp_right fun hfinds hstate arg harg hmem hdelay => ?_) h
    obtain ⟨e, he, rfl⟩ := List.mem_map.1 harg
    exact hfinds _ rfl hstate (e.id, e.consumerGroupId)
      (List.mem_map.2 ⟨e, List.mem_filter.2 ⟨he, decide_eq_true hdelay⟩, rfl⟩)
      ((s.db.mem_list_iff _ _).1 hmem)
  | @requeueDelayed batch t hload =>
    refine requeueDelayed_bounded hs.type_eq (hs.requeueArgs_fit hload)
      (hgroups.imp_right fun hfinds hstate arg harg hmem => ?_) h
    obtain ⟨e, he, rfl⟩ := List.mem_map.1 harg
    exact hfinds _ rfl hstate (e.id, e.consumerGroupId) (List.mem_map_of_mem he)
      ((s.db.mem_zset_iff _ _).1 hmem)
  | @publishScheduled group batch t db' hload hgroup hnodup ht hdb =>
    subst hdb
    have harg : ∀ arg ∈ s.scheduledArgs batch t, ∃ e ∈ batch, arg.id = e.id ∧
        arg.group = e.consumerGroupId := by
      intro arg harg
      obtain ⟨e, he, i, -, -, rfl⟩ := ScheduledArg.mem_ofBatch harg
      exact ⟨e, he, rfl, rfl⟩
    refine publishScheduled_bounded group hs.type_eq (scheduledArgs_copies hs hload).1
      (fun arg hmem => ?_) (hgroups.imp_right fun hfinds hstate arg hmem hocc => ?_) h
    · obtain ⟨e, he, -, heq⟩ := harg arg hmem
      exact heq.trans (hgroup e he)
    obtain ⟨e, he, hid, -⟩ := harg arg hmem
    rw [hid] at hocc
    rw [← hgroup e he]
    exact hfinds _ rfl hstate (e.id, e.consumerGroupId) (List.mem_map_of_mem he)
      ((s.db.mem_zset_iff _ _).1 hocc)
  | delete hload hgroup hdb =>
    subst hdb
    exact deleteMessage_bounded _ _ _ h
  | @requeueMessage e t arg db' hload hstatus ht harg hdb =>
    subst hdb
    rw [requeueMessage_moves _ s.db (Keyspace.isSome_queue_of_queueType? hs.type_eq), copyMove]
    have hpublish : Edits (unaudited s.cfg) s.db (publishMessage arg.child s.db).db :=
      publishMessage_edits hs.type_eq (by simp [unaudited]) (by simp [unaudited])
        (pendingSlot_mem_unaudited s.cfg type _)
    split
    · split
      · exact h.edits (hpublish.hset _ _)
      · exact h
    · exact h

/-- The configuration of the audits is fixed along the run. -/
theorem audit_of_step (hstep : s.step a = some s') (hkeeps : s.KeepsAudits a) :
    s'.cfg.audit = s.cfg.audit := by
  cases Step.of_step hstep with
  | configure => exact hkeeps.1 _ rfl
  | task | crash | fetch | load | tick | setState | saveGroup | deleteGroup | expire | produce
  | pop | checkout | acknowledge | unacknowledge | reap | requeueImmediate | requeueDelayed
  | publishScheduled | delete | requeueMessage => rfl

end Steps

/-- A copy of a message of the group that is loaded while its time stamps are zero. -/
def groupCopy (m : Producible) (group : GroupId) (status : Status) (attempts : Nat) : Envelope :=
  { Envelope.early m 0 status attempts with consumerGroupId := some group }

/-- A message fails, and its group is removed before it is retried. -/
def groupVanishes : List Action :=
  [.produce promptMessage (some 5), .pop 7 (some 5), .checkout 7 0 (some 5),
    .consume 7 (groupCopy promptMessage 5 .processing 1) 1,
    .finish 7 (groupCopy promptMessage 5 .processing 1) 1 0 false,
    .unacknowledge 7 [(groupCopy promptMessage 5 .processing 1, some 1, .unacknowledged)] 0,
    .deleteGroup 5 (some 5), .fetch .requeuer, .load .requeuer 0,
    .requeueImmediate [groupCopy promptMessage 5 .unackRequeuing 1] 0]

/-- No audits are configured, and the dead-letter list has the message all the same. -/
theorem deadLetter_kept_groupVanishes :
    ∃ s, (System.created {} .fifo [5] 0).Runs groupVanishes s ∧
      s.cfg.deadLettered.enabled = false ∧ s.db.lists .deadLetter = [0] ∧
        ¬ AuditBounded {} s.db := by
  have hrun : (Run.exec System.step (System.created {} .fifo [5] 0) groupVanishes).map (fun s =>
      (s.cfg.deadLettered.enabled, s.db.lists .deadLetter)) = some (false, [0]) := by decide
  obtain ⟨s, hs, heq⟩ := Option.map_eq_some_iff.1 hrun
  obtain ⟨henabled, hlist⟩ := Prod.mk.inj heq
  refine ⟨s, hs, henabled, hlist, fun hbounded => ?_⟩
  have hempty := hbounded.deadLetter.disabled rfl
  rw [hlist] at hempty
  cases hempty

/-- In every run whose steps meet the condition, the audit lists and the histories have the
bounds of the configuration that the queue was created with. -/
theorem audits_bounded (cfg : Config) (type : QueueType) (groups : List GroupId) (now : Nanos)
    (as : List Action) (s : System)
    (halong : Run.Along System.step System.KeepsAudits (System.created cfg type groups now) as)
    (hrun : (System.created cfg type groups now).Runs as s) : AuditBounded cfg s.db := by
  have hinv := Run.invariant_along
    (P := fun s => Sane type s ∧ s.cfg.audit = cfg.audit ∧ AuditBounded s.cfg s.db)
    (fun s a s' h hcond hstep => ⟨h.1.step (Step.of_step hstep),
      (audit_of_step hstep hcond).trans h.2.1, bounded_of_step hstep h.1 hcond h.2.2⟩)
    ⟨Sane.created cfg type groups now, rfl, ⟨fun _ => rfl, fun _ => Nat.zero_le _⟩,
      ⟨fun _ => rfl, fun _ => Nat.zero_le _⟩, fun _ _ => Nat.zero_le _⟩ halong hrun
  exact hinv.2.2.of_audit hinv.2.1.symm

/-- A message of a group may be delivered twice, and fails twice. -/
def failsTwice : List Action :=
  let m := { promptMessage with retryThreshold := 2 }
  [.produce m (some 5), .pop 7 (some 5), .checkout 7 0 (some 5),
    .consume 7 (groupCopy m 5 .processing 1) 1, .finish 7 (groupCopy m 5 .processing 1) 1 0 false,
    .unacknowledge 7 [(groupCopy m 5 .processing 1, some 1, .unacknowledged)] 0,
    .fetch .requeuer, .load .requeuer 0,
    .requeueImmediate [groupCopy m 5 .unackRequeuing 1] 0,
    .pop 7 (some 5), .checkout 7 0 (some 5),
    .consume 7 (groupCopy m 5 .processing 2) 2, .finish 7 (groupCopy m 5 .processing 2) 2 0 false,
    .unacknowledge 7 [(groupCopy m 5 .processing 2, some 2, .unacknowledged)] 0]

/-- All audits are kept, with one entry each. -/
def oneEntry : Config where
  acknowledged := { enabled := true, queueSize := 1 }
  deadLettered := { enabled := true, queueSize := 1 }
  historyEnabled := true
  historySize := 1

theorem audits_bounded_failsTwice :
    ∃ s, (System.created oneEntry .fifo [5] 0).Runs failsTwice s ∧
      s.db.lists .deadLetter = [0] ∧ s.deliveries 0 = 2 ∧ (s.db.history 0).length ≤ 1 := by
  have hrun : (Run.exec System.step (System.created oneEntry .fifo [5] 0) failsTwice).map (fun s =>
      (s.db.lists .deadLetter, s.deliveries 0)) = some ([0], 2) := by decide
  obtain ⟨s, hs, heq⟩ := Option.map_eq_some_iff.1 hrun
  obtain ⟨hlist, hdeliveries⟩ := Prod.mk.inj heq
  exact ⟨s, hs, hlist, hdeliveries,
    (audits_bounded oneEntry .fifo [5] 0 failsTwice s (by decide) hs).history 0 (by decide)⟩

end RedisSmq
