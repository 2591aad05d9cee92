import RedisSmq.Admin.Erased
import RedisSmq.Guarantees.Exactness
import RedisSmq.Moves.Footprint

/-!
# The list of published messages

Publishing puts an identifier on the list of published messages and stores its hash,
deleting takes both away, and no other script touches the list. So the list has every
stored message once, as long as no script brings back the hash of a deleted message: a
settlement does so if its message was deleted between the pop and the checkout, and the
scheduler if it works on an old copy of a periodic message.
-/

namespace RedisSmq

/-- The list of published messages has every stored message once, and nothing else. -/
def Keyspace.Lists (db : Keyspace) : Prop :=
  ∀ m, (db.lists .published).count m = if (db.hgetall m).isSome then 1 else 0

/-- Nothing is published and nothing is deleted. -/
structure Stays (db db' : Keyspace) : Prop where
  published : db'.lists .published = db.lists .published
  stored : ∀ m, (db.hgetall m).isSome = true → (db'.hgetall m).isSome = true

/-- All containers but the list of published messages. -/
def unlisted : Set Slot := {p | p ≠ .list .published}

theorem pendingSlot_mem_unlisted (type : QueueType) (group : Option GroupId) :
    pendingSlot type group ∈ unlisted := by
  cases type <;> simp [unlisted, pendingSlot]

theorem Edits.stays {db db' : Keyspace} (h : Edits unlisted db db') : Stays db db' :=
  ⟨h.writes (.list .published) (by simp [unlisted]), fun _ => h.stored⟩

namespace Stays

variable {db db' db'' : Keyspace} {id : MessageId}

theorem trans (h : Stays db db') (h' : Stays db' db'') : Stays db db'' :=
  ⟨h'.published.trans h.published, fun m hm => h'.stored m (h.stored m hm)⟩

/-- A step that concerns one stored message only keeps the list right. -/
theorem lists (h : Stays db db') (hframe : Frame id db db') (hid : (db.hgetall id).isSome = true)
    (hlists : db.Lists) : db'.Lists := by
  intro m
  rw [h.published, hlists m]
  by_cases hm : m = id
  · subst hm
    rw [if_pos hid, if_pos (h.stored m hid)]
  · rw [hframe.hash m hm]

end Stays

section Moves

variable (type : QueueType) (now : Millis) (db : Keyspace)

theorem ackMove_stays (c : ConsumerId) (id : MessageId) : Stays db (ackMove c now db id) :=
  (ackMove_edits (by simp [unlisted]) now id).stays

theorem unackMove_stays (cfg : Config) (c : ConsumerId) (a : UnackArg) :
    Stays db (unackMove cfg c db a) := by
  have hpushed : Edits unlisted db ((db.lrem (.processing c) a.id).pushUnacked cfg a) :=
    (Edits.refl.setList (by simp [unlisted]) _).pushUnacked (by simp [unlisted])
      (by simp [unlisted]) cfg a
  have hrecorded : ∀ db : Keyspace, Stays db (db.recordUnack cfg a) := by
    intro db
    unfold Keyspace.recordUnack
    split <;> exact ⟨rfl, fun _ h => h⟩
  unfold unackMove
  split
  · exact hpushed.stays.trans ((hrecorded _).trans ((Edits.refl.hset _ _).shift _ _).stays)
  · exact Edits.refl.stays

theorem requeueMove_stays (a : RequeueArg) : Stays db (requeueMove type now db a) :=
  (requeueMove_edits (by simp [unlisted]) (by simp [unlisted])
    (pendingSlot_mem_unlisted type a.group) fun _ _ _ => by simp [unlisted]).stays

theorem delayedMove_stays (a : RequeueArg) : Stays db (delayedMove type now db a) :=
  (delayedMove_edits (by simp [unlisted]) (pendingSlot_mem_unlisted type a.group)
    fun _ _ => by simp [unlisted]).stays

end Moves

/-! ## Scripts -/

section Scripts

variable {type : QueueType} {now : Millis} {db db' : Keyspace} {c : ConsumerId}

/-- Moves that look for their message in a container, where it is only if it is stored. -/
theorem lists_foldl {α : Type} {key : α → MessageId} {move : Keyspace → α → Keyspace}
    {source : Slot} {args : List α} (hsource : source.holds = true)
    (hframe : ∀ db a, Frame (key a) db (move db a)) (hstays : ∀ db a, Stays db (move db a))
    (hidle : ∀ db a, db.occ source (key a) = 0 → move db a = db)
    (hstored : ∀ a ∈ args, 0 < db.occ source (key a) → (db.hgetall (key a)).isSome = true)
    (h : db.Lists) : (args.foldl move db).Lists := by
  induction args generalizing db with
  | nil => exact h
  | cons a args ih =>
    rcases Nat.eq_zero_or_pos (db.occ source (key a)) with hzero | hpos
    · rw [List.foldl_cons, hidle db a hzero]
      exact ih (fun b hb => hstored b (List.mem_cons_of_mem a hb)) h
    have ha := hstored a List.mem_cons_self hpos
    refine ih (fun b hb hocc => ?_) ((hstays db a).lists (hframe db a) ha h)
    by_cases hb' : key b = key a
    · rw [hb']
      exact (hstays db a).stored _ ha
    rw [(hframe db a).occ _ hb' source hsource] at hocc
    rw [(hframe db a).hash _ hb']
    exact hstored b (List.mem_cons_of_mem a hb) hocc

theorem acknowledgeMessage_lists (cfg : Config) {ids : List MessageId}
    (hstored : db.accepts = true → ∀ id ∈ ids, id ∈ db.lists (.processing c) →
      (db.hgetall id).isSome = true)
    (h : db.Lists) : (acknowledgeMessage cfg c now ids db).db.Lists := by
  refine acknowledgeMessage_run c now cfg h (fun hacc => ?_) fun _ hfold m => ?_
  · refine @lists_foldl _ _ (fun id => id) _ (.list (.processing c)) _ rfl (ackMove_frame c now)
      (fun db => ackMove_stays now db c) (fun db id hocc => if_neg fun hmem => ?_)
      (fun id hid hocc => hstored hacc id hid ((db.mem_list_iff _ _).2 hocc)) h
    rw [Keyspace.mem_list_iff] at hmem
    omega
  · have haudit : Edits unlisted (ids.foldl (ackMove c now) db) _ :=
      Edits.refl.keepAudit (k := .acknowledged) (by simp [unlisted]) cfg.acknowledged
        (ackedIds (acknowledgeLoop c now ids db).1)
    rw [haudit.stays.published, Keyspace.hgetall_keepAudit]
    exact hfold m

theorem unacknowledgeMessage_lists (cfg : Config) {args : List UnackArg}
    (hstored : db.accepts = true → ∀ a ∈ args, a.id ∈ db.lists (.processing c) →
      (db.hgetall a.id).isSome = true)
    (h : db.Lists) : (unacknowledgeMessage cfg c args db).2.Lists := by
  refine unacknowledgeMessage_run cfg c args h fun hacc => ?_
  have hsource : (Slot.list (.processing c)).holds = true := rfl
  refine lists_foldl hsource (unackMove_frame cfg c)
    (fun db => unackMove_stays db cfg c) (fun db a hocc => if_neg fun hmem => ?_)
    (fun a ha hocc => hstored hacc a ha ((db.mem_list_iff _ _).2 hocc)) h
  rw [Keyspace.mem_list_iff] at hmem
  omega

theorem requeueImmediate_lists {args : List RequeueArg} (htype : db.queueType? = some type)
    (hfit : ∀ a ∈ args, PriorityFits type a.priority)
    (hstored : ∀ a ∈ args, a.id ∈ db.lists .requeued → (db.hgetall a.id).isSome = true)
    (h : db.Lists) : (requeueImmediate now args db).db.Lists := by
  refine requeueImmediate_run now htype hfit h fun _ => ?_
  have hsource : (Slot.list .requeued).holds = true := rfl
  refine lists_foldl hsource (requeueMove_frame type now)
    (requeueMove_stays type now) (fun db a hocc => if_neg fun hmem => ?_)
    (fun a ha hocc => hstored a ha ((db.mem_list_iff _ _).2 hocc)) h
  rw [Keyspace.mem_list_iff] at hmem
  omega

theorem requeueDelayed_lists {args : List RequeueArg} (htype : db.queueType? = some type)
    (hfit : ∀ a ∈ args, PriorityFits type a.priority)
    (hstored : ∀ a ∈ args, a.id ∈ db.zsets .delayed → (db.hgetall a.id).isSome = true)
    (h : db.Lists) : (requeueDelayed now args db).db.Lists := by
  refine requeueDelayed_run now htype hfit h fun _ => ?_
  have hsource : (Slot.zset .delayed).holds = true := rfl
  refine lists_foldl hsource (delayedMove_frame type now)
    (delayedMove_stays type now) (fun db a hocc => if_neg fun hmem => ?_)
    (fun a ha hocc => hstored a ha ((db.mem_zset_iff _ _).2 hocc)) h
  rw [Keyspace.mem_zset_iff] at hmem
  omega

/-- A message that is not stored yet is published. -/
theorem publishMessage_lists {a : PublishArgs} (hnew : db.hgetall a.id = none) (h : db.Lists) :
    (publishMessage a db).db.Lists := by
  rcases @publishMessage_cases a db with ⟨_, hdb⟩ | ⟨_, type, container, placed, _, _, _, hp, hdb⟩
  · rw [hdb]
    exact h
  have hstays : Stays db placed := by
    apply Edits.stays
    cases hp with
    | pending hstatus hplaced =>
      exact Edits.refl.enqueueNew (pendingSlot_mem_unlisted type a.group) hplaced
    | scheduled hstatus hts => exact Edits.refl.setZset (by simp [unlisted]) _
  rw [hdb]
  intro m
  have hpublished : (storePublished a container placed).lists .published =
      placed.lists .published ++ [a.id] := by
    exact Function.update_self ListKey.published _ placed.lists
  have hhash : (storePublished a container placed).hgetall m =
      (placed.hset a.id a.write).hgetall m := rfl
  rw [hpublished, hhash, hstays.published, List.count_append, h m]
  by_cases hm : m = a.id
  · subst hm
    rw [hnew, Keyspace.hgetall_hset_self]
    simp
  · rw [Keyspace.hgetall_hset_ne _ _ _ _ hm, hp.frame.hash m hm]
    simp [Ne.symm hm]

/-- The original of a copy is stored, and the copy is not stored yet. -/
theorem copyMove_lists {a : RequeueCopyArg} (hnew : db.hgetall a.child.id = none) (h : db.Lists) :
    (copyMove db a).Lists := by
  unfold copyMove
  split
  · rename_i hpresent
    have hstored : (db.hgetall a.original).isSome = true := by
      cases hget : db.hgetall a.original with
      | none => simp [hget] at hpresent
      | some hash => rfl
    have hne : a.original ≠ a.child.id := by
      intro heq
      rw [heq, hnew] at hstored
      cases hstored
    split
    · refine (Edits.refl.hset _ _).stays.lists ((Frame.refl a.original _).hset _) ?_
        (publishMessage_lists hnew h)
      rw [(publishMessage_frame a.child db).hash _ hne]
      exact hstored
    · exact h
  · exact h

/-- A deletion takes a message out of the store and out of the list. -/
theorem deleteMove_lists (type : Option QueueType) (group : Option GroupId) (id : MessageId)
    (h : db.Lists) : (deleteMove type group db id).Lists := by
  unfold deleteMove
  split
  · exact h
  · exact h
  rename_i st _ hst
  split
  · exact h
  rename_i counter db' hremove
  have hstays : Stays db db' :=
    (removeFromContainer_edits hremove (by simp [unlisted]) (by simp [unlisted])
      (by simp [unlisted]) (by simp [unlisted])
      fun t _ => pendingSlot_mem_unlisted t group).stays
  have hframe := removeFromContainer_frame hremove
  have hstored : (db.hgetall id).isSome = true := by
    cases hget : db.hgetall id with
    | none => simp [Keyspace.status, hget] at hst
    | some hash => rfl
  have hmid := hstays.lists hframe hstored h
  intro m
  rw [lists_eraseMessage, if_pos rfl, hgetall_eraseMessage]
  by_cases hm : m = id
  · subst hm
    rw [List.count_erase_self, hmid m, if_pos (hstays.stored m hstored)]
    simp
  · rw [List.count_erase_of_ne hm, hmid m, if_neg hm]

theorem deleteMessage_lists (group : Option GroupId) (lock : Option LockId)
    (ids : List MessageId) (h : db.Lists) : (deleteMessage group lock ids db).db.Lists := by
  obtain ⟨done, _, hdone⟩ := @deleteMessage_moves group lock ids db
  rw [hdone]
  exact List.foldlRecOn (motive := Keyspace.Lists) done _ h
    fun db' hdb' id _ => deleteMove_lists _ group id hdb'

/-- What is known of a due message before its move: it is stored if it is in the schedule
or if the move puts it back there. -/
def ScheduledArg.Stocked (a : ScheduledArg) (db : Keyspace) : Prop :=
  a.id ∈ db.zsets .scheduled ∨ a.next.isSome = true ∧ db.groupExists a.group = true →
    (db.hgetall a.id).isSome = true

private theorem takeScheduled_edits (a : ScheduledArg) : Edits unlisted db (takeScheduled a db) :=
  (Edits.refl.setZset (by simp [unlisted]) _).hincrby _ _

private theorem deadLetterTaken_edits (a : ScheduledArg) :
    Edits unlisted db (deadLetterTaken a (takeScheduled a db)) :=
  (((takeScheduled_edits a).setList (by simp [unlisted]) _).hincrby _ _).hset _ _

private theorem publishTaken_stays {a : ScheduledArg}
    (h : publishTaken type a (takeScheduled a db) = some db') : Stays db db' := by
  apply Edits.stays
  unfold publishTaken at h
  split at h
  · obtain ⟨db₁, hdb₁, rfl⟩ := Option.map_eq_some_iff.1 h
    exact (((takeScheduled_edits a).enqueueNew (pendingSlot_mem_unlisted type a.group)
      hdb₁).hincrby _ _).hset _ _
  · cases h
    exact deadLetterTaken_edits a

/-- The move of a due message, whose copy is not stored yet. -/
theorem scheduledMove_lists {a : ScheduledArg} (hfit : PriorityFits type a.priority)
    (hstored : a.Stocked db) (hcopy : ∀ nextAt child, a.next = some (nextAt, child) →
      db.hgetall child.id = none ∧ child.id ≠ a.id)
    (h : db.Lists) : (scheduledMove type db a).Lists := by
  unfold scheduledMove
  cases hnext : a.next with
  | none =>
    dsimp only
    split
    · rename_i hmem
      obtain ⟨db', hdb'⟩ := @publishTaken_isSome type a (takeScheduled a db) hfit
      rw [hdb', Option.getD_some]
      exact (publishTaken_stays hdb').lists
        ((takeScheduled_frame a db).trans (publishTaken_frame hdb')) (hstored (.inl hmem)) h
    · exact h
  | some next =>
    obtain ⟨nextAt, child⟩ := next
    dsimp only
    split
    · rename_i hgroup
      obtain ⟨hnew, hne⟩ := hcopy nextAt child hnext
      have hback : Edits unlisted db (reschedule a nextAt db) :=
        (Edits.refl.setZset (by simp [unlisted]) _).hset _ _
      refine publishMessage_lists ?_ (hback.stays.lists (reschedule_frame a nextAt db)
        (hstored (.inr ⟨by rw [hnext]; rfl, hgroup⟩)) h)
      rw [(reschedule_frame a nextAt db).hash _ hne]
      exact hnew
    · split
      · rename_i hmem
        exact (deadLetterTaken_edits a).stays.lists
          ((takeScheduled_frame a db).trans (deadLetterTaken_frame a _)) (hstored (.inl hmem)) h
      · exact h

/-- The scheduler keeps the list right if the periodic messages of its batch are stored and
their copies are new. -/
theorem publishScheduled_lists {args : List ScheduledArg} (htype : db.queueType? = some type)
    (hfit : ∀ a ∈ args, a.Fits type) (hnodup : (args.map ScheduledArg.id).Nodup)
    (hcopies : (copyIds args).Nodup)
    (hblank : ∀ m ∈ copyIds args, db.hgetall m = none ∧ ∀ a ∈ args, a.id ≠ m)
    (hstored : ∀ a ∈ args, a.Stocked db) (h : db.Lists) : (publishScheduled args db).db.Lists := by
  refine publishScheduled_run htype hfit h fun hstate => ?_
  clear htype hstate
  induction args generalizing db with
  | nil => exact h
  | cons a args ih =>
    have hcopy : ∀ nextAt child, a.next = some (nextAt, child) →
        copyIds (a :: args) = child.id :: copyIds args := by
      intro nextAt child hnext
      simp [copyIds, hnext]
    have hsub : ∀ m ∈ copyIds args, m ∈ copyIds (a :: args) := fun m hm =>
      List.mem_filterMap.2 ((List.mem_filterMap.1 hm).imp fun b hb =>
        ⟨List.mem_cons_of_mem a hb.1, hb.2⟩)
    have hrest : (copyIds args).Nodup :=
      hcopies.sublist ((List.sublist_cons_self a args).filterMap _)
    -- What the move does not name is as it was.
    have hspared : ∀ m, m ≠ a.id → (∀ nextAt child, a.next = some (nextAt, child) →
        m ≠ child.id) → Spared m db (scheduledMove type db a) := fun m hm hchild =>
      scheduledMove_spared hm hchild
    have hmove : (scheduledMove type db a).Lists := by
      refine scheduledMove_lists (hfit a List.mem_cons_self).priority
        (hstored a List.mem_cons_self) (fun nextAt child hnext => ?_) h
      have hmem : child.id ∈ copyIds (a :: args) := by
        rw [hcopy nextAt child hnext]
        exact List.mem_cons_self
      exact ⟨(hblank _ hmem).1, ((hblank _ hmem).2 a List.mem_cons_self).symm⟩
    have hnodup' := List.nodup_cons.1 hnodup
    refine ih (fun b hb => hfit b (List.mem_cons_of_mem a hb)) hnodup'.2 hrest
      (fun m hm => ?_) (fun b hb => ?_) hmove
    · obtain ⟨hnone, hne⟩ := hblank m (hsub m hm)
      refine ⟨?_, fun b hb => hne b (List.mem_cons_of_mem a hb)⟩
      rw [(hspared m (hne a List.mem_cons_self).symm fun nextAt child hnext heq => ?_).hash]
      · exact hnone
      · rw [hcopy nextAt child hnext, ← heq] at hcopies
        exact (List.nodup_cons.1 hcopies).1 hm
    · have hsp : Spared b.id db (scheduledMove type db a) := by
        refine hspared b.id (fun heq => ?_) fun nextAt child hnext heq => ?_
        · exact hnodup'.1 (List.mem_map.2 ⟨b, hb, heq⟩)
        have hmem : child.id ∈ copyIds (a :: args) := by
          rw [hcopy nextAt child hnext]
          exact List.mem_cons_self
        exact (hblank _ hmem).2 b (List.mem_cons_of_mem a hb) heq
      intro hcase
      rw [hsp.hash]
      refine hstored b (List.mem_cons_of_mem a hb) (hcase.imp (fun hmem => ?_) fun hgroup => ?_)
      · rw [Keyspace.mem_zset_iff] at hmem ⊢
        rwa [hsp.occ _ rfl] at hmem
      · exact ⟨hgroup.1,
          by rw [← Keyspace.groupExists_of_settings settings_scheduledMove]; exact hgroup.2⟩

end Scripts

/-! ## Steps -/

/-- A settlement finds the messages that it takes out of a processing list to be stored. -/
def System.SettlesStored (s : System) (a : Action) : Prop :=
  ∀ x ∈ a.settles, s.db.accepts = true → ∀ id ∈ x.2, id ∈ s.db.lists (.processing x.1) →
    (s.db.hgetall id).isSome = true
  deriving Decidable

section Steps

variable {type : QueueType} {s s' : System} {a : Action}

/-- What waits in a container other than a processing list is stored. -/
theorem Located.stored (h : Located type s) {m : MessageId} {p : Slot} (hp : p.holds = true)
    (hprocessing : ∀ c, p ≠ .list (.processing c)) (hocc : 0 < s.db.occ p m) :
    (s.db.hgetall m).isSome = true := by
  cases horigin : s.origin m with
  | none =>
    rw [(h.sane.blank m horigin).occ p hp] at hocc
    simp at hocc
  | some params =>
    obtain ⟨x, hx, hlegal⟩ := h.track m params horigin trivial
    have hplace : x.place = some p := by
      by_contra hne
      rw [hx.occ p hp, if_neg hne] at hocc
      exact Nat.lt_irrefl 0 hocc
    rw [hx.hash]
    cases hlegal with
    | gone | settled => cases hplace
    | orphaned c =>
      cases hplace
      exact absurd rfl (hprocessing c)
    | held | waiting | requeued | delayed | scheduled => rfl

/-- A message that is due is stored, and the copy to follow it is not. -/
theorem Located.publishScheduled_lists (hloc : Located type s) {batch : List Envelope} {t : Nanos}
    (hload : s.hasLoaded .scheduler batch) (hnodup : (batch.map Envelope.id).Nodup)
    (hplace : ∀ b ∈ s.scheduledArgs batch t, s.db.ReschedulesInPlace b) (h : s.db.Lists) :
    (publishScheduled (s.scheduledArgs batch t) s.db).db.Lists := by
  have hs := hloc.sane
  refine RedisSmq.publishScheduled_lists hs.type_eq (scheduledArgs_copies hs hload).1
    (by rw [System.scheduledArgs, ScheduledArg.map_id_ofBatch]; exact hnodup)
    (ScheduledArg.nodup_copyIds batch) (fun m hm => ?_) (fun b hb hcase => ?_) h
  · obtain ⟨hle, hne⟩ := scheduledArgs_new hs hload m hm
    exact ⟨(hs.blank _ (hs.fresh _ hle)).hash, hne⟩
  · have hmem : b.id ∈ s.db.zsets .scheduled :=
      hcase.elim id fun hback => hplace b hb hback.1 hback.2
    exact hloc.stored rfl (by simp) ((s.db.mem_zset_iff _ _).1 hmem)

/-- Neither the list nor the store is touched. -/
theorem Keyspace.Lists.of_same {db db' : Keyspace} (h : db.Lists)
    (hpublished : db'.lists .published = db.lists .published)
    (hmessages : db'.messages = db.messages) : db'.Lists := by
  intro m
  rw [hpublished, Keyspace.hgetall, hmessages]
  exact h m

/-- A step that meets the condition keeps the list of published messages right. -/
theorem lists_of_step (hstep : s.step a = some s') (hloc : Located type s)
    (hplace : s.ReschedulesInPlace a) (hset : s.SettlesStored a) (h : s.db.Lists) :
    s'.db.Lists := by
  have hs := hloc.sane
  have hnew : ∀ {m}, s.nextId ≤ m → s.db.hgetall m = none := fun hm =>
    (hs.blank _ (hs.fresh _ hm)).hash
  cases Step.of_step hstep with
  | task | crash | fetch | load | tick | configure | saveGroup => exact h
  | setState =>
    rcases setQueueState_cases _ _ _ s.db with hdb | ⟨q, lockId, -, hdb⟩
    · exact h.of_same (by rw [hdb]) (by rw [hdb])
    · exact h.of_same (by rw [hdb]) (by rw [hdb])
  | @deleteGroup g keys =>
    rcases deleteConsumerGroup_cases hs.type_eq g keys with hdb | ⟨-, hdb⟩
    · exact h.of_same (by rw [hdb]) (by rw [hdb])
    have hne : ListKey.published ≠ .pending keys := by simp
    refine h.of_same ?_ (by rw [hdb]; rfl)
    rw [hdb]
    exact Function.update_of_ne hne [] s.db.lists
  | @expire k hk =>
    -- The kind of the step forgets which lists expire.
    have hkey : k = .acknowledged ∨ k = .deadLetter := by
      by_contra hnot
      simp only [System.step, System.expire, if_neg hnot, reduceCtorEq] at hstep
    refine h.of_same (Function.update_of_ne ?_ _ _) rfl
    rcases hkey with rfl | rfl <;> simp
  | produce hm hdb =>
    subst hdb
    exact publishMessage_lists (hnew (s.prepared_id _ _).ge) h
  | @pop c group type' id db' hc htype hpop =>
    refine h.of_same (pop_writes hpop (.list .published) ?_) (pop_books hpop).messages
    cases type' <;> simp [pendingSlot]
  | checkout hmem hstate hget hst hdb =>
    subst hdb
    exact (((Edits.refl.hset _ _).hincrby _ _).hincrby _ _).stays.lists
      ((((Frame.refl _ s.db).hset _).hincrby _ _).hincrby _ _) (by rw [hget]; rfl) h
  | acknowledge htasks ht hrun =>
    subst hrun
    exact acknowledgeMessage_lists s.cfg (hset _ rfl) h
  | @unacknowledge c batch t htasks ht =>
    refine unacknowledgeMessage_lists s.cfg (fun hacc arg harg => ?_) h
    obtain ⟨b, hb, rfl⟩ := List.mem_map.1 harg
    exact hset _ rfl hacc _ (List.mem_map_of_mem hb)
  | @reap c batch t hload ht =>
    refine unacknowledgeMessage_lists s.cfg (fun hacc arg harg => ?_) h
    obtain ⟨b, hb, rfl⟩ := List.mem_map.1 harg
    obtain ⟨e, he, rfl⟩ := List.mem_map.1 hb
    exact hset _ rfl hacc _ (List.mem_map_of_mem he)
  | requeueImmediate hload =>
    exact requeueImmediate_lists hs.type_eq (hs.requeueArgs_fit hload)
      (fun b _ hmem => hloc.stored rfl (by simp) ((s.db.mem_list_iff _ _).1 hmem)) h
  | requeueDelayed hload =>
    exact requeueDelayed_lists hs.type_eq (hs.requeueArgs_fit hload)
      (fun b _ hmem => hloc.stored rfl (by simp) ((s.db.mem_zset_iff _ _).1 hmem)) h
  | publishScheduled hload hgroup hnodup ht hdb =>
    subst hdb
    exact hloc.publishScheduled_lists hload hnodup (hplace _ rfl) h
  | delete hload hgroup hdb =>
    subst hdb
    exact deleteMessage_lists _ _ _ h
  | @requeueMessage e t arg db' hload hstatus ht harg hdb =>
    subst hdb
    rw [requeueMessage_moves _ s.db (Keyspace.isSome_queue_of_queueType? hs.type_eq)]
    exact copyMove_lists (by rw [harg]; exact hnew le_rfl) h

end Steps

end RedisSmq
