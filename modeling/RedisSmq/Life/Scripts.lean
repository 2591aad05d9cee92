import RedisSmq.Life.Moves

/-!
# What a script run does to one message

A batch may name a message any number of times, with arguments built from
different and possibly outdated copies of it. Only the first argument that names
the message can have an effect, because it takes the message out of the container
that the script requires it to be in. So a run of a script does to a message what
the abstract move of that first argument does, and nothing if the message is not
named, is not in that container or the queue refuses.
-/

namespace RedisSmq

/-- The effect on a message of a batch in which only the first argument counts. -/
def Life.afterFirst {α : Type} (key : α → MessageId) (act : α → Life → Life) (args : List α)
    (m : MessageId) (x : Life) : Life :=
  (args.find? fun a => key a = m).elim x fun a => act a x

/-- The acts require the message to be in `source` and take it out of there. -/
structure Guarded {α : Type} (source : Slot) (act : α → Life → Life) : Prop where
  idle : ∀ a x, x.place ≠ some source → act a x = x
  leaves : ∀ a x, x.place = some source → (act a x).place ≠ some source

section Fold

variable {α : Type} {key : α → MessageId} {move : Keyspace → α → Keyspace} {source : Slot}
variable {act : α → Life → Life} {args : List α} {db : Keyspace} {m : MessageId} {x : Life}

/-- A second act on the same message changes nothing. -/
theorem Guarded.stable (h : Guarded source act) (a b : α) (x : Life) :
    act b (act a x) = act a x := by
  by_cases hx : x.place = some source
  · exact h.idle b _ (h.leaves a x hx)
  · rw [h.idle a x hx, h.idle b x hx]

theorem Life.afterFirst_eq_self (hx : ∀ b ∈ args, key b = m → act b x = x) :
    x.afterFirst key act args m = x := by
  unfold Life.afterFirst
  cases hfind : args.find? fun a => decide (key a = m) with
  | none => rfl
  | some b =>
    exact hx b (List.mem_of_find?_eq_some hfind) (by simpa using List.find?_some hfind)

/-- What the effect of a batch can be. -/
theorem Life.afterFirst_cases (key : α → MessageId) (act : α → Life → Life) (args : List α)
    (m : MessageId) (x : Life) :
    x.afterFirst key act args m = x ∨
      ∃ a ∈ args, key a = m ∧ x.afterFirst key act args m = act a x := by
  unfold Life.afterFirst
  cases hfind : args.find? fun a => decide (key a = m) with
  | none => exact .inl rfl
  | some a =>
    exact .inr ⟨a, List.mem_of_find?_eq_some hfind, by simpa using List.find?_some hfind, rfl⟩

/-- A message that is still in the source has not been acted on. -/
theorem Guarded.afterFirst_eq_self (h : Guarded source act)
    (hp : (x.afterFirst key act args m).place = some source) : x.afterFirst key act args m = x := by
  rcases Life.afterFirst_cases key act args m x with hx | ⟨a, _, _, hx⟩
  · exact hx
  by_cases hsource : x.place = some source
  · rw [hx] at hp
    exact absurd hp (h.leaves a x hsource)
  · rw [hx, h.idle a x hsource]

-- The first move of the message does the work, the later ones find it gone.
/-- A sequence of guarded moves seen from one message. -/
theorem At.foldl_guarded (hact : Guarded source act) (hframe : ∀ db a, Frame (key a) db (move db a))
    (hself : ∀ db' x, ∀ a ∈ args, db'.settings = db.settings → At db' (key a) x →
      At (move db' a) (key a) (act a x))
    (h : At db m x) : At (args.foldl move db) m (x.afterFirst key act args m) := by
  suffices hgen : ∀ db', db'.settings = db.settings → ∀ x, At db' m x →
      At (args.foldl move db') m (x.afterFirst key act args m) from hgen db rfl x h
  induction args with
  | nil => exact fun db' _ x h => h
  | cons a args ih =>
    intro db' hset x hx
    have hrest := ih (fun db' x b hb => hself db' x b (List.mem_cons_of_mem _ hb))
      (move db' a) ((hframe db' a).settings.trans hset)
    rw [List.foldl_cons]
    by_cases hm : key a = m
    · subst hm
      have hdone := hrest _ (hself db' x a List.mem_cons_self hset hx)
      rw [Life.afterFirst_eq_self fun b _ _ => hact.stable a b x] at hdone
      simpa [Life.afterFirst] using hdone
    · have hother := hrest _ (((hframe db' a).at_iff (Ne.symm hm)).2 hx)
      simpa [Life.afterFirst, hm] using hother

/-- A sequence of moves leaves a message alone when those that name it have nothing
to do. -/
theorem Spared.foldl (Idle : α → Keyspace → Prop)
    (hother : ∀ db, ∀ a ∈ args, key a ≠ m → Spared m db (move db a))
    (hsettings : ∀ db a, (move db a).settings = db.settings)
    (hidle : ∀ db a, key a = m → Idle a db → move db a = db)
    (hkeep : ∀ db db' a, key a = m → Spared m db db' → db'.settings = db.settings →
      Idle a db → Idle a db')
    (h : ∀ a ∈ args, key a = m → Idle a db) : Spared m db (args.foldl move db) := by
  induction args generalizing db with
  | nil => exact Spared.refl m db
  | cons a args ih =>
    have hmove : Spared m db (move db a) := by
      by_cases hm : key a = m
      · rw [hidle db a hm (h a List.mem_cons_self hm)]
        exact Spared.refl m db
      · exact hother db a List.mem_cons_self hm
    exact hmove.trans (ih (fun db b hb => hother db b (List.mem_cons_of_mem _ hb))
      fun b hb hbm => hkeep db _ b hbm hmove (hsettings db a)
        (h b (List.mem_cons_of_mem _ hb) hbm))

/-- A sequence of moves leaves a message alone that is not in their source. -/
theorem Spared.foldl_source (hsource : source.holds = true)
    (hframe : ∀ db a, Frame (key a) db (move db a))
    (hidle : ∀ db a, db.occ source (key a) = 0 → move db a = db)
    (h : ∀ a ∈ args, key a = m → db.occ source m = 0) : Spared m db (args.foldl move db) :=
  Spared.foldl (fun _ db => db.occ source m = 0)
    (fun db a _ hm => (hframe db a).spared (Ne.symm hm)) (fun db a => (hframe db a).settings)
    (fun db a hm hocc => hidle db a (hm ▸ hocc))
    (fun _ _ _ _ hsp _ hocc => (hsp.occ _ hsource).trans hocc) h

/-- A sequence of moves of different messages seen from one of them. -/
theorem At.foldl_once (hnodup : (args.map key).Nodup)
    (hother : ∀ db', ∀ a ∈ args, key a ≠ m → Spared m db' (move db' a))
    (hsettings : ∀ db' a, (move db' a).settings = db'.settings)
    (hself : ∀ db', ∀ a ∈ args, key a = m → db'.settings = db.settings → At db' m x →
      At (move db' a) m (act a x))
    (h : At db m x) : At (args.foldl move db) m (x.afterFirst key act args m) := by
  suffices hgen : ∀ db', db'.settings = db.settings → At db' m x →
      At (args.foldl move db') m (x.afterFirst key act args m) from hgen db rfl h
  induction args with
  | nil => exact fun db' _ h => h
  | cons a args ih =>
    intro db' hset hx
    obtain ⟨hnot, hnodup⟩ := List.nodup_cons.1 hnodup
    have hother' : ∀ db', ∀ b ∈ args, key b ≠ m → Spared m db' (move db' b) :=
      fun db' b hb => hother db' b (List.mem_cons_of_mem _ hb)
    rw [List.foldl_cons]
    by_cases hm : key a = m
    · have hne : ∀ b ∈ args, key b ≠ m := fun b hb hbm =>
        hnot (hm ▸ hbm ▸ List.mem_map_of_mem hb)
      have hrest : Spared m (move db' a) (args.foldl move (move db' a)) :=
        Spared.foldl (fun _ _ => False) hother' hsettings (fun _ _ _ h => h.elim)
          (fun _ _ _ _ _ _ h => h) fun b hb hbm => hne b hb hbm
      have hdone := hrest.at_iff.2 (hself db' a List.mem_cons_self hm hset hx)
      simpa [Life.afterFirst, hm] using hdone
    · have hrest := ih hnodup hother'
        (fun db' b hb => hself db' b (List.mem_cons_of_mem _ hb)) (move db' a)
        ((hsettings db' a).trans hset) ((hother db' a List.mem_cons_self hm).at_iff.2 hx)
      simpa [Life.afterFirst, hm] using hrest

/-- A batch of moves that all spare the message. -/
theorem Spared.foldl_other (h : ∀ db, ∀ a ∈ args, Spared m db (move db a)) :
    Spared m db (args.foldl move db) :=
  List.foldlRecOn args move (Spared.refl m db) fun _ hdb a ha => hdb.trans (h _ a ha)

theorem settings_foldl (hmove : ∀ db a, (move db a).settings = db.settings) :
    (args.foldl move db).settings = db.settings := by
  induction args generalizing db with
  | nil => rfl
  | cons a args ih => exact ih.trans (hmove db a)

end Fold

section Settle

variable {cfg : Config} {c : ConsumerId} {now : Millis} {db : Keyspace} {m : MessageId} {x : Life}

theorem Life.guarded_acknowledge (c : ConsumerId) (now : Millis) :
    Guarded (.list (.processing c)) fun (_ : MessageId) (x : Life) => x.acknowledge c now where
  idle _ x hx := if_neg hx
  leaves _ x hx := by
    rw [show x.acknowledge c now = _ from if_pos hx]
    simp

theorem Life.guarded_unacknowledge (c : ConsumerId) :
    Guarded (.list (.processing c)) fun (a : UnackArg) (x : Life) => x.unacknowledge c a where
  idle _ x hx := if_neg hx
  leaves a x hx := by
    rw [show x.unacknowledge c a = _ from if_pos hx]
    by_cases hr : a.retries = true <;> simp [hr]

private theorem ackMove_idle (db : Keyspace) (id : MessageId)
    (h : db.occ (.list (.processing c)) id = 0) : ackMove c now db id = db := by
  refine if_neg fun hmem => ?_
  rw [Keyspace.mem_list_iff] at hmem
  omega

private theorem unackMove_idle (db : Keyspace) (a : UnackArg)
    (h : db.occ (.list (.processing c)) a.id = 0) : unackMove cfg c db a = db := by
  refine if_neg fun hmem => ?_
  rw [Keyspace.mem_list_iff] at hmem
  omega

/-- A run of `acknowledge-message`, aborted or not, seen from one message. -/
theorem At.acknowledgeMessage {ids : List MessageId} (h : At db m x) :
    At (acknowledgeMessage cfg c now ids db).db m
      (if db.accepts = true ∧ m ∈ ids then x.acknowledge c now else x) := by
  by_cases hacc : db.accepts = true
  · have hfold : At (ids.foldl (RedisSmq.ackMove c now) db) m
        (x.afterFirst (fun id => id) (fun _ x => x.acknowledge c now) ids m) :=
      h.foldl_guarded (Life.guarded_acknowledge c now) (fun db id => ackMove_frame c now db id)
        fun _ _ _ _ _ h => h.ackMove
    have hfirst : x.afterFirst (fun id => id) (fun _ x => x.acknowledge c now) ids m =
        if db.accepts = true ∧ m ∈ ids then x.acknowledge c now else x := by
      by_cases hm : m ∈ ids
      · rw [if_pos ⟨hacc, hm⟩]
        obtain ⟨b, hb⟩ : ∃ b, ids.find? (fun id => decide (id = m)) = some b :=
          Option.isSome_iff_exists.1 (List.find?_isSome.2 ⟨m, hm, by simp⟩)
        simp [Life.afterFirst, hb]
      · rw [if_neg fun h => hm h.2]
        exact Life.afterFirst_eq_self fun b hb hbm => absurd (hbm ▸ hb) hm
    rw [hfirst] at hfold
    rcases acknowledgeMessage_moves c now cfg hacc with hdb | ⟨-, hdb⟩
    · rw [hdb]
      exact hfold
    · rw [hdb]
      exact hfold.keepAudit rfl _ _
  · rw [acknowledgeMessage_refused c now cfg (by simpa using hacc)]
    simpa [hacc] using h

theorem acknowledgeMessage_spared {ids : List MessageId}
    (h : m ∈ ids → db.occ (.list (.processing c)) m = 0) :
    Spared m db (acknowledgeMessage cfg c now ids db).db := by
  refine acknowledgeMessage_run c now cfg (Spared.refl m db) (fun _ => ?_) fun _ hfold => ?_
  · exact @Spared.foldl_source _ (fun id => id) _ (.list (.processing c)) _ _ _ rfl
      (fun db id => ackMove_frame c now db id) ackMove_idle fun id hid hm => h (hm ▸ hid)
  have hnot : m ∉ ackedIds (acknowledgeLoop c now ids db).1 := fun hmem => by
    have hlist := mem_of_mem_ackedIds c now hmem
    rw [Keyspace.mem_list_iff, h (mem_batch_of_mem_ackedIds c now hmem)] at hlist
    exact absurd hlist (lt_irrefl 0)
  refine hfold.trans ⟨by simp, fun p hp => ?_, fun p => ?_⟩
  · exact Keyspace.occ_keepAudit_ne _ _ _ _ _ _ (by rintro rfl; simp [Slot.holds] at hp)
  · exact Keyspace.occ_keepAudit_le _ _ _ _ _ _ hnot

theorem settings_acknowledgeMessage (ids : List MessageId) :
    (acknowledgeMessage cfg c now ids db).db.settings = db.settings := by
  refine acknowledgeMessage_run c now cfg rfl (fun _ => ?_) fun _ hfold => ?_
  · exact settings_foldl fun db id => (ackMove_frame c now db id).settings
  · rw [Keyspace.settings_keepAudit, hfold]

/-- A run of `unacknowledge-message` seen from one message. -/
theorem At.unacknowledgeMessage {args : List UnackArg} (h : At db m x) :
    At (unacknowledgeMessage cfg c args db).2 m
      (if db.accepts = true then
        x.afterFirst UnackArg.id (fun a x => x.unacknowledge c a) args m else x) := by
  by_cases hacc : db.accepts = true
  · rw [unacknowledgeMessage_moves cfg c args db hacc, if_pos hacc]
    exact h.foldl_guarded (Life.guarded_unacknowledge c) (fun db a => unackMove_frame cfg c db a)
      fun _ _ _ _ _ h => h.unackMove
  · rw [unacknowledgeMessage_refused cfg c args db (by simpa using hacc), if_neg hacc]
    exact h

theorem unacknowledgeMessage_spared {args : List UnackArg}
    (h : ∀ a ∈ args, a.id = m → db.occ (.list (.processing c)) m = 0) :
    Spared m db (unacknowledgeMessage cfg c args db).2 := by
  refine unacknowledgeMessage_run cfg c args (Spared.refl m db) fun _ => ?_
  exact Spared.foldl_source rfl (fun db a => unackMove_frame cfg c db a) unackMove_idle h

theorem settings_unacknowledgeMessage (args : List UnackArg) :
    (unacknowledgeMessage cfg c args db).2.settings = db.settings := by
  refine unacknowledgeMessage_run cfg c args rfl fun _ => ?_
  exact settings_foldl fun db a => (unackMove_frame cfg c db a).settings

end Settle

section Requeue

variable {type : QueueType} {now : Millis} {db : Keyspace} {m : MessageId} {x : Life}
variable {args : List RequeueArg}

theorem pendingSlot_ne_requeued (type : QueueType) (group : Option GroupId) :
    pendingSlot type group ≠ .list .requeued := by
  cases type <;> simp [pendingSlot]

theorem pendingSlot_ne_delayed (type : QueueType) (group : Option GroupId) :
    pendingSlot type group ≠ .zset .delayed := by
  cases type <;> simp [pendingSlot]

private theorem Life.retry_leaves {source : Slot} (groupExists : Bool) (a : RequeueArg) (x : Life)
    (h : pendingSlot type a.group ≠ source) :
    (x.retry type groupExists now a).place ≠ some source := by
  unfold Life.retry
  split
  · simpa using h
  · simp

theorem Life.guarded_requeue (type : QueueType) (groupExists : Option GroupId → Bool)
    (now : Millis) :
    Guarded (.list .requeued) fun (a : RequeueArg) (x : Life) =>
      x.requeue type (groupExists a.group) now a where
  idle _ x hx := if_neg hx
  leaves a x hx := by
    rw [show x.requeue type (groupExists a.group) now a = _ from if_pos hx]
    split
    · exact Life.retry_leaves _ a x (pendingSlot_ne_requeued type a.group)
    · simp

theorem Life.guarded_requeueDelayed (type : QueueType) (groupExists : Option GroupId → Bool)
    (now : Millis) :
    Guarded (.zset .delayed) fun (a : RequeueArg) (x : Life) =>
      x.requeueDelayed type (groupExists a.group) now a where
  idle _ x hx := if_neg hx
  leaves a x hx := by
    rw [show x.requeueDelayed type (groupExists a.group) now a = _ from if_pos hx]
    exact Life.retry_leaves _ a x (pendingSlot_ne_delayed type a.group)

private theorem requeueMove_idle (db : Keyspace) (a : RequeueArg)
    (h : db.occ (.list .requeued) a.id = 0) : requeueMove type now db a = db := by
  refine if_neg fun hmem => ?_
  rw [Keyspace.mem_list_iff] at hmem
  omega

private theorem delayedMove_idle (db : Keyspace) (a : RequeueArg)
    (h : db.occ (.zset .delayed) a.id = 0) : delayedMove type now db a = db := by
  refine if_neg fun hmem => ?_
  rw [Keyspace.mem_zset_iff] at hmem
  omega

/-- A run of `requeue-immediate` seen from one message. -/
theorem At.requeueImmediate (h : At db m x) (htype : db.queueType? = some type)
    (hfit : ∀ a ∈ args, PriorityFits type a.priority) :
    At (requeueImmediate now args db).db m
      (if stateRefusal db.operationalState = none then
        x.afterFirst RequeueArg.id
          (fun a x => x.requeue type (db.groupExists a.group) now a) args m else x) := by
  cases hstate : stateRefusal db.operationalState with
  | some r =>
    rw [requeueImmediate_refused now hstate]
    simpa using h
  | none =>
    rw [requeueImmediate_moves now htype hstate hfit, if_pos rfl]
    refine h.foldl_guarded (Life.guarded_requeue type db.groupExists now)
      (fun db a => requeueMove_frame type now db a) fun db' x a ha hset h => ?_
    rw [← Keyspace.groupExists_of_settings hset]
    exact h.requeueMove (hfit a ha)

theorem requeueImmediate_spared (htype : db.queueType? = some type)
    (hfit : ∀ a ∈ args, PriorityFits type a.priority)
    (h : ∀ a ∈ args, a.id = m → db.occ (.list .requeued) m = 0) :
    Spared m db (requeueImmediate now args db).db := by
  refine requeueImmediate_run now htype hfit (Spared.refl m db) fun _ => ?_
  exact Spared.foldl_source rfl (fun db a => requeueMove_frame type now db a) requeueMove_idle h

theorem settings_requeueImmediate (htype : db.queueType? = some type)
    (hfit : ∀ a ∈ args, PriorityFits type a.priority) :
    (requeueImmediate now args db).db.settings = db.settings := by
  refine requeueImmediate_run now htype hfit rfl fun _ => ?_
  exact settings_foldl fun db a => (requeueMove_frame type now db a).settings

/-- A run of `requeue-delayed` seen from one message. -/
theorem At.requeueDelayed (h : At db m x) (htype : db.queueType? = some type)
    (hfit : ∀ a ∈ args, PriorityFits type a.priority) :
    At (requeueDelayed now args db).db m
      (if stateRefusal db.operationalState = none then
        x.afterFirst RequeueArg.id
          (fun a x => x.requeueDelayed type (db.groupExists a.group) now a) args m else x) := by
  cases hstate : stateRefusal db.operationalState with
  | some r =>
    rw [requeueDelayed_refused now hstate]
    simpa using h
  | none =>
    rw [requeueDelayed_moves now htype hstate hfit, if_pos rfl]
    refine h.foldl_guarded (Life.guarded_requeueDelayed type db.groupExists now)
      (fun db a => delayedMove_frame type now db a) fun db' x a ha hset h => ?_
    rw [← Keyspace.groupExists_of_settings hset]
    exact h.delayedMove (hfit a ha)

theorem requeueDelayed_spared (htype : db.queueType? = some type)
    (hfit : ∀ a ∈ args, PriorityFits type a.priority)
    (h : ∀ a ∈ args, a.id = m → db.occ (.zset .delayed) m = 0) :
    Spared m db (requeueDelayed now args db).db := by
  refine requeueDelayed_run now htype hfit (Spared.refl m db) fun _ => ?_
  exact Spared.foldl_source rfl (fun db a => delayedMove_frame type now db a) delayedMove_idle h

theorem settings_requeueDelayed (htype : db.queueType? = some type)
    (hfit : ∀ a ∈ args, PriorityFits type a.priority) :
    (requeueDelayed now args db).db.settings = db.settings := by
  refine requeueDelayed_run now htype hfit rfl fun _ => ?_
  exact settings_foldl fun db a => (delayedMove_frame type now db a).settings

end Requeue

section Scheduled

variable {type : QueueType} {db : Keyspace} {m : MessageId} {x : Life} {args : List ScheduledArg}

/-- A due message that is in the schedule: it becomes pending, or stays scheduled if it
is periodic, or is dead-lettered if its group is gone. -/
def Life.fire (type : QueueType) (groupExists : Bool) (a : ScheduledArg) (x : Life) : Life :=
  if x.place = some (.zset .scheduled) then
    if a.next.isSome && groupExists then ⟨x.place, x.write a.writeSchedule⟩
    else x.publishDue type groupExists a
  else x

/-- The message goes back into the schedule only if it is still there. -/
def Keyspace.ReschedulesInPlace (db : Keyspace) (a : ScheduledArg) : Prop :=
  a.next.isSome = true → db.groupExists a.group = true → a.id ∈ db.zsets .scheduled
  deriving Decidable

private theorem At.scheduledMove {a : ScheduledArg} (h : At db a.id x)
    (hfit : PriorityFits type a.priority)
    (hchild : ∀ nextAt child, a.next = some (nextAt, child) → child.id ≠ a.id)
    (hplace : db.ReschedulesInPlace a) :
    At (scheduledMove type db a) a.id (x.fire type (db.groupExists a.group) a) := by
  unfold Life.fire
  by_cases hp : x.place = some (.zset .scheduled)
  · rw [if_pos hp]
    cases hnext : a.next with
    | none => simpa [hp] using h.scheduledMove_once hfit hnext
    | some next =>
      have := @At.scheduledMove_periodic type db x a h _ _ hnext (hchild _ _ hnext) hp
      by_cases hg : db.groupExists a.group = true <;> simpa [hg] using this
  · rw [if_neg hp]
    have hmem : a.id ∉ db.zsets .scheduled := fun hmem => hp (h.mem_zset.1 hmem)
    cases hnext : a.next with
    | none => simpa [hp] using h.scheduledMove_once hfit hnext
    | some next =>
      have hg : ¬db.groupExists a.group = true := fun hg => hmem (hplace (by simp [hnext]) hg)
      simp only [RedisSmq.scheduledMove, hnext, if_neg hg, if_neg hmem]
      exact h

/-- A run of `publish-scheduled` seen from one message. -/
theorem At.publishScheduled (h : At db m x) (htype : db.queueType? = some type)
    (hfit : ∀ a ∈ args, a.Fits type) (hnodup : (args.map ScheduledArg.id).Nodup)
    (hchild : ∀ a ∈ args, ∀ nextAt child, a.next = some (nextAt, child) → child.id ≠ m)
    (hplace : ∀ a ∈ args, a.id = m → db.ReschedulesInPlace a) :
    At (publishScheduled args db).db m
      (if stateRefusal db.operationalState = none then
        x.afterFirst ScheduledArg.id
          (fun a x => x.fire type (db.groupExists a.group) a) args m else x) := by
  cases hstate : stateRefusal db.operationalState with
  | some r =>
    rw [publishScheduled_refused hstate]
    simpa using h
  | none =>
    rw [publishScheduled_moves htype hstate hfit, if_pos rfl]
    refine h.foldl_once hnodup ?_ (fun _ _ => settings_scheduledMove) ?_
    · intro db' a ha hne
      exact scheduledMove_spared (Ne.symm hne) fun nextAt child hnext =>
        (hchild a ha nextAt child hnext).symm
    · intro db' a ha hm hset h'
      subst hm
      have hgroup := Keyspace.groupExists_of_settings hset a.group
      rw [← hgroup]
      refine h'.scheduledMove (hfit a ha).priority (hchild a ha) fun hnext hg => ?_
      rw [hgroup] at hg
      exact h'.mem_zset.2 (h.mem_zset.1 (hplace a ha rfl hnext hg))

theorem publishScheduled_spared (htype : db.queueType? = some type) (hfit : ∀ a ∈ args, a.Fits type)
    (hchild : ∀ a ∈ args, ∀ nextAt child, a.next = some (nextAt, child) → child.id ≠ m)
    (h : ∀ a ∈ args, a.id = m → db.occ (.zset .scheduled) m = 0 ∧ db.ReschedulesInPlace a) :
    Spared m db (publishScheduled args db).db := by
  refine publishScheduled_run htype hfit (Spared.refl m db) fun _ => ?_
  refine Spared.foldl (fun a db => db.occ (.zset .scheduled) m = 0 ∧ db.ReschedulesInPlace a)
    (fun db a ha hm => scheduledMove_spared (Ne.symm hm) fun nextAt child hnext =>
      (hchild a ha nextAt child hnext).symm)
    (fun _ _ => settings_scheduledMove) ?_ ?_ h
  · rintro db a hm ⟨hocc, hplace⟩
    have hmem : a.id ∉ db.zsets .scheduled := by
      rw [hm, Keyspace.mem_zset_iff]
      omega
    cases hnext : a.next with
    | none => simp only [scheduledMove, hnext, if_neg hmem]
    | some next =>
      have hg : ¬db.groupExists a.group = true :=
        fun hg => hmem (hplace (by simp [hnext]) hg)
      simp only [scheduledMove, hnext, if_neg hg, if_neg hmem]
  · rintro db db' a hm hsp hset ⟨hocc, hplace⟩
    refine ⟨(hsp.occ _ rfl).trans hocc, fun hnext hg => ?_⟩
    rw [Keyspace.groupExists_of_settings hset] at hg
    have hmem := hplace hnext hg
    rw [hm, Keyspace.mem_zset_iff] at hmem
    omega

/-- A fresh message that is published becomes pending, or the queue refuses it. -/
theorem At.publishMessage_fresh {a : PublishArgs} (h : At db a.id ⟨none, none⟩)
    (htype : db.queueType? = some type) :
    At (RedisSmq.publishMessage a db).db a.id ⟨none, none⟩ ∧
        (RedisSmq.publishMessage a db).isOk = false ∨
      At (RedisSmq.publishMessage a db).db a.id
        ⟨some (if a.status = .pending then pendingSlot type a.group else .zset .scheduled),
          some (a.write {})⟩ ∧
        PriorityFits type a.priority := by
  by_cases hok : (RedisSmq.publishMessage a db).isOk = true
  · obtain ⟨type', p, htype', hfit, rfl, hat⟩ := h.publishMessage rfl hok
    cases htype.symm.trans htype'
    exact .inr ⟨hat, hfit⟩
  · rcases @publishMessage_cases a db with ⟨_, hdb⟩ | ⟨hyes, _⟩
    · rw [hdb]
      exact .inl ⟨h, by simpa using hok⟩
    · exact absurd hyes hok

/-- A copy is published by the move of its own message or not at all. -/
theorem At.publishScheduled_copy {a : ScheduledArg} {nextAt : Millis} {child : PublishArgs}
    (ha : a ∈ args) (hnext : a.next = some (nextAt, child)) (h : At db child.id ⟨none, none⟩)
    (htype : db.queueType? = some type) (hfit : ∀ b ∈ args, b.Fits type)
    (hids : ∀ b ∈ args, b.id ≠ child.id) (hcopies : (copyIds args).Nodup) :
    At (RedisSmq.publishScheduled args db).db child.id ⟨none, none⟩ ∨
      At (RedisSmq.publishScheduled args db).db child.id
        ⟨some (pendingSlot type child.group), some (child.write {})⟩ := by
  refine publishScheduled_run htype hfit (.inl h) fun hstate => ?_
  have hpending : child.status = .pending := ((hfit a ha).child nextAt child hnext).1
  clear hstate hfit
  induction args generalizing db with
  | nil => exact absurd ha List.not_mem_nil
  | cons b args ih =>
    have hrest : ∀ c ∈ args, c.id ≠ child.id :=
      fun c hc => hids c (List.mem_cons_of_mem _ hc)
    rw [List.foldl_cons]
    by_cases hb : ∃ next, b.next = some next ∧ next.2.id = child.id
    · obtain ⟨⟨nextAt', child'⟩, hbnext, hbid⟩ := hb
      have hnot : child.id ∉ copyIds args := by
        have : copyIds (b :: args) = child.id :: copyIds args := by
          simpa [copyIds, hbnext] using hbid
        rw [this] at hcopies
        exact (List.nodup_cons.1 hcopies).1
      have hab : a = b := by
        rcases List.mem_cons.1 ha with rfl | ha
        · rfl
        · exact absurd (List.mem_filterMap.2 ⟨a, ha, by simp [hnext]⟩) hnot
      subst hab
      cases hnext.symm.trans hbnext
      have htail : Spared child.id (RedisSmq.scheduledMove type db a)
          (args.foldl (RedisSmq.scheduledMove type) (RedisSmq.scheduledMove type db a)) := by
        refine Spared.foldl (fun _ _ => False)
          (fun db c hc _ => scheduledMove_spared (hrest c hc).symm fun nextAt child' hc' =>
            fun heq => hnot (List.mem_filterMap.2 ⟨c, hc, by simp [hc', heq]⟩))
          (fun _ _ => settings_scheduledMove) (fun _ _ _ h => h.elim)
          (fun _ _ _ _ _ _ h => h) hrest
      rw [htail.at_iff, htail.at_iff]
      by_cases hg : db.groupExists a.group = true
      · simp only [RedisSmq.scheduledMove, hnext, if_pos hg]
        have hframe := reschedule_frame a nextAt db
        have hblank : At (reschedule a nextAt db) child.id ⟨none, none⟩ :=
          (hframe.at_iff (hids a List.mem_cons_self).symm).2 h
        have htype' := (Keyspace.queueType?_of_settings hframe.settings).trans htype
        rcases hblank.publishMessage_fresh htype' with ⟨hat, _⟩ | ⟨hat, _⟩
        · exact .inl hat
        · rw [if_pos hpending] at hat
          exact .inr hat
      · refine .inl (((?_ : Spared child.id db _)).at_iff.2 h)
        simp only [RedisSmq.scheduledMove, hnext, if_neg hg]
        split
        · exact ((takeScheduled_frame a db).trans (deadLetterTaken_frame a _)).spared
            (hids a List.mem_cons_self).symm
        · exact Spared.refl _ db
    · have hab : a ≠ b := by
        rintro rfl
        exact hb ⟨_, hnext, rfl⟩
      have hmove : Spared child.id db (RedisSmq.scheduledMove type db b) :=
        scheduledMove_spared (hids b List.mem_cons_self).symm fun nextAt' child' hb' heq =>
          hb ⟨_, hb', heq.symm⟩
      refine ih ((List.mem_cons.1 ha).resolve_left hab) (hmove.at_iff.2 h)
        ((Keyspace.queueType?_of_settings settings_scheduledMove).trans htype) hrest ?_
      have hsub : (copyIds args).Sublist (copyIds (b :: args)) :=
        (List.sublist_cons_self b args).filterMap _
      exact hcopies.sublist hsub

theorem settings_publishScheduled (htype : db.queueType? = some type)
    (hfit : ∀ a ∈ args, a.Fits type) : (publishScheduled args db).db.settings = db.settings := by
  refine publishScheduled_run htype hfit rfl fun _ => ?_
  exact settings_foldl fun _ _ => settings_scheduledMove

end Scheduled

section Manage

variable {type : QueueType} {group : Option GroupId} {db : Keyspace} {m : MessageId} {x : Life}
variable {a : RequeueCopyArg}

/-- A deletion leaves a message as it is or erases its hash. -/
theorem Life.delete_eq_or_erased (type : QueueType) (group : Option GroupId) (x : Life) :
    x.delete type group = x ∨ (x.delete type group).hash = none := by
  unfold Life.delete
  cases x.status with
  | none => exact .inl rfl
  | some st =>
    cases st with
    | processing => exact .inl rfl
    | _ => exact .inr rfl

private theorem Life.delete_delete (type : QueueType) (group : Option GroupId) (x : Life) :
    (x.delete type group).delete type group = x.delete type group := by
  rcases x.delete_eq_or_erased type group with h | h
  · rw [h, h]
  · have hstatus : (x.delete type group).status = none := by simp [Life.status, h]
    rw [Life.delete, hstatus]

/-- A run of `delete-message`, aborted or not, seen from one message. -/
theorem At.deleteMessage (h : At db m x) (htype : db.queueType? = some type)
    (lock : Option LockId) (ids : List MessageId) :
    At (deleteMessage group lock ids db).db m x ∨
      m ∈ ids ∧ (x.status = some .unackDelaying → x.place ≠ some (.zset .delayed)) ∧
        At (deleteMessage group lock ids db).db m (x.delete type group) := by
  obtain ⟨done, hpre, hdone⟩ := @deleteMessage_moves group lock ids db
  rw [hdone, htype]
  suffices hgen : ∀ db x, At db m x →
      At (done.foldl (RedisSmq.deleteMove (some type) group) db) m x ∨
        m ∈ done ∧ (x.status = some .unackDelaying → x.place ≠ some (.zset .delayed)) ∧
          At (done.foldl (RedisSmq.deleteMove (some type) group) db) m (x.delete type group) from
    (hgen db x h).imp_right fun h => ⟨hpre.subset h.1, h.2⟩
  clear hpre hdone
  induction done with
  | nil => exact fun db x h => .inl h
  | cons id done ih =>
    intro db x h
    rw [List.foldl_cons]
    by_cases hm : id = m
    · subst hm
      rcases @At.deleteMove type group db id x h with ⟨hdelayed, hdel⟩ | hsame
      · refine .inr ⟨List.mem_cons_self, hdelayed, ?_⟩
        rcases ih _ _ hdel with hrest | ⟨_, _, hrest⟩
        · exact hrest
        · rwa [Life.delete_delete] at hrest
      · rw [hsame]
        exact (ih db x h).imp_right fun h => ⟨List.mem_cons_self, h.2⟩
    · have hother := ((deleteMove_frame (some type) group db id).at_iff (Ne.symm hm)).2 h
      exact (ih _ x hother).imp_right fun h => ⟨List.mem_cons_of_mem _ h.1, h.2⟩

theorem deleteMessage_spared (lock : Option LockId) (ids : List MessageId)
    (h : m ∈ ids → db.status m = none) : Spared m db (deleteMessage group lock ids db).db := by
  obtain ⟨done, hpre, hdone⟩ := @deleteMessage_moves group lock ids db
  rw [hdone]
  refine @Spared.foldl _ (fun id => id) _ _ _ _ (fun _ db => db.status m = none)
    (fun db id _ hm => (deleteMove_frame _ group db id).spared (Ne.symm hm))
    (fun db id => (deleteMove_frame _ group db id).settings) ?_ ?_
    fun id hid hm => h (hm ▸ hpre.subset hid)
  · rintro db id rfl hstatus
    simp only [deleteMove, hstatus]
  intro db db' id _ hsp _ hstatus
  rw [Keyspace.status, hsp.hash]
  exact hstatus

theorem settings_deleteMessage (lock : Option LockId) (ids : List MessageId) :
    (deleteMessage group lock ids db).db.settings = db.settings := by
  obtain ⟨done, _, hdone⟩ := @deleteMessage_moves group lock ids db
  rw [hdone]
  exact settings_foldl fun db id => (deleteMove_frame _ group db id).settings

/-- What the copy of a settled message leaves of the others. -/
theorem copyMove_spared (hchild : a.child.id ≠ m)
    (h : a.original = m → (db.hgetall m).bind MessageHash.id = none) :
    Spared m db (copyMove db a) := by
  unfold copyMove
  split
  · rename_i hguard
    split
    · by_cases hm : a.original = m
      · rw [hm, h hm] at hguard
        simp at hguard
      · refine ((publishMessage_frame a.child db).spared hchild.symm).trans
          (((Frame.refl a.original _).hset _).spared (Ne.symm hm))
    · exact Spared.refl m db
  · exact Spared.refl m db

theorem settings_copyMove (a : RequeueCopyArg) : (copyMove db a).settings = db.settings := by
  unfold copyMove
  split
  · split
    · exact (publishMessage_frame a.child db).settings
    · rfl
  · rfl

/-- The copied message itself only notes that it was copied. -/
theorem At.copyMove (h : At db m x) (hchild : a.child.id ≠ m) :
    At (copyMove db a) m x ∨
      (∃ old, x.hash = some old) ∧ At (copyMove db a) m ⟨x.place, x.write a.writeRequeued⟩ := by
  by_cases hm : a.original = m
  · subst hm
    unfold RedisSmq.copyMove
    split
    · rename_i hguard
      split
      · refine .inr ⟨?_, (((publishMessage_frame a.child db).at_iff hchild.symm).2 h).hset _⟩
        cases hhash : x.hash with
        | none => simp [h.hash, hhash] at hguard
        | some old => exact ⟨old, rfl⟩
      · exact .inl h
    · exact .inl h
  · exact .inl ((copyMove_spared hchild fun h => absurd h hm).at_iff.2 h)

/-- The copy becomes pending, or is not published. -/
theorem At.copyMove_copy (h : At db a.child.id ⟨none, none⟩)
    (htype : db.queueType? = some type) (hne : a.child.id ≠ a.original)
    (hstatus : a.child.status = .pending) :
    At (RedisSmq.copyMove db a) a.child.id ⟨none, none⟩ ∨
      At (RedisSmq.copyMove db a) a.child.id
        ⟨some (pendingSlot type a.child.group), some (a.child.write {})⟩ ∧
        PriorityFits type a.child.priority := by
  unfold RedisSmq.copyMove
  split
  · rcases h.publishMessage_fresh htype with ⟨_, hno⟩ | ⟨hat, hfit⟩
    · rw [if_neg (by simp [hno])]
      exact .inl h
    rw [if_pos hstatus] at hat
    split
    · exact .inr ⟨(((Frame.refl a.original _).hset _).at_iff hne).2 hat, hfit⟩
    · exact .inl h
  · exact .inl h

/-- A change of state touches nothing but the state and the lock of the queue. -/
theorem setQueueState_cases (newState : OperationalState) (expected : Option OperationalState)
    (lock : Option LockId) (db : Keyspace) :
    (setQueueState newState expected lock db).2 = db ∨
      ∃ q lockId, db.queue = some q ∧ (setQueueState newState expected lock db).2 =
        { db with queue := some { q with state := some newState, lockId := lockId } } := by
  unfold setQueueState
  cases hq : db.queue with
  | none => exact .inl rfl
  | some q =>
    dsimp only
    split
    · exact .inl rfl
    split
    · split
      · exact .inl rfl
      · exact .inr ⟨q, _, rfl, rfl⟩
    split
    · split
      · exact .inl rfl
      · exact .inr ⟨q, _, rfl, rfl⟩
    · exact .inr ⟨q, q.lockId, rfl, rfl⟩

theorem setQueueState_spared (newState : OperationalState) (expected : Option OperationalState)
    (lock : Option LockId) (db : Keyspace) (m : MessageId) :
    Spared m db (setQueueState newState expected lock db).2 := by
  rcases setQueueState_cases newState expected lock db with h | ⟨q, lockId, _, h⟩
  · rw [h]
    exact Spared.refl m db
  rw [h]
  refine ⟨rfl, fun p _ => ?_, fun p => ?_⟩
  · cases p <;> rfl
  · cases p <;> exact le_rfl

/-- What the deletion of a group leaves. -/
def Keyspace.withoutGroup (db : Keyspace) (g : GroupId) (keys : Option GroupId) : Keyspace :=
  { ((db.setList (.pending keys) []).setZset (.priority keys) SortedSet.empty) with
    groups := db.groups.filter (· ≠ g) }

theorem Keyspace.occ_withoutGroup (db : Keyspace) (g : GroupId) (keys : Option GroupId) (p : Slot)
    (m : MessageId) : (db.withoutGroup g keys).occ p m =
      if p = .list (.pending keys) ∨ p = .zset (.priority keys) then 0 else db.occ p m := by
  have h : (db.withoutGroup g keys).occ p m =
      ((db.setList (.pending keys) []).setZset (.priority keys) SortedSet.empty).occ p m := by
    cases p <;> rfl
  rw [h, Keyspace.occ_setZset, Keyspace.occ_setList]
  by_cases hz : p = .zset (.priority keys)
  · simp [hz]
  · simp [hz]

/-- A group is deleted only with empty pending messages. -/
theorem deleteConsumerGroup_cases (htype : db.queueType? = some type) (g : GroupId)
    (keys : Option GroupId) :
    (deleteConsumerGroup g keys db).2 = db ∨
      (∀ m, db.occ (pendingSlot type keys) m = 0) ∧
        (deleteConsumerGroup g keys db).2 = db.withoutGroup g keys := by
  unfold deleteConsumerGroup
  simp only [htype]
  cases type with
  | lifo | fifo =>
    dsimp only
    split
    · rename_i h
      exact .inr ⟨fun m => by simp [pendingSlot, Keyspace.occ, of_decide_eq_true h], rfl⟩
    · exact .inl rfl
  | priority =>
    dsimp only
    split
    · rename_i h
      refine .inr ⟨fun m => ?_, rfl⟩
      simp [pendingSlot, Keyspace.occ, SortedSet.mem_def, of_decide_eq_true h]
    · exact .inl rfl

/-- The deletion of a group empties pending containers that it has found empty, or that
a queue of this type does not use. -/
theorem deleteConsumerGroup_spared (htype : db.queueType? = some type) (g : GroupId)
    (keys : Option GroupId)
    (h : ∀ p, p = .list (.pending keys) ∨ p = .zset (.priority keys) → p ≠ pendingSlot type keys →
      db.occ p m = 0) : Spared m db (deleteConsumerGroup g keys db).2 := by
  rcases deleteConsumerGroup_cases htype g keys with hdb | ⟨hempty, hdb⟩
  · rw [hdb]
    exact Spared.refl m db
  have hocc : ∀ p, (db.withoutGroup g keys).occ p m = db.occ p m := by
    intro p
    rw [Keyspace.occ_withoutGroup]
    split
    · rename_i hp
      by_cases hslot : p = pendingSlot type keys
      · rw [hslot, hempty m]
      · rw [h p hp hslot]
    · rfl
  rw [hdb]
  exact ⟨rfl, fun p _ => hocc p, fun p => (hocc p).le⟩

/-- A list that is no container may expire. -/
theorem expire_spared {k : ListKey} (hk : (Slot.list k).holds = false) (m : MessageId)
    (db : Keyspace) : Spared m db (db.setList k []) where
  hash := rfl
  occ p hp := by
    rw [Keyspace.occ_setList, if_neg (by rintro rfl; simp [hk] at hp)]
  occ_le p := by
    rw [Keyspace.occ_setList]
    split
    · exact Nat.zero_le _
    · exact le_rfl

end Manage

end RedisSmq
