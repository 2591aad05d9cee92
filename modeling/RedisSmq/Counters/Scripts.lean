import RedisSmq.Counters.Posting
import RedisSmq.Life.Legal

/-!
# The scripts as sequences of postings

Each move posts at most once, or twice where it publishes a copy. It does so honestly
if the message has the status that goes with the container in which the move finds it.
-/

namespace RedisSmq

section Moves

variable {type : QueueType} {db : Keyspace}
variable {a : RequeueArg}

theorem ackMove_posted (c : ConsumerId) (now : Millis) (db : Keyspace) (id : MessageId) :
    Posted (id ∈ db.lists (.processing c) → db.status id = some .processing) db
      (ackMove c now db id) := by
  by_cases h : id ∈ db.lists (.processing c)
  · exact .posted (.transfer id (acknowledgeWrite now) .processing .acknowledged)
      ⟨by simp, .acknowledged, rfl, rfl⟩ (fun hst => ⟨.processing, hst h, rfl⟩) (ackMove_books h)
  · rw [ackMove, if_neg h]
    exact .same (.refl db)

theorem unackMove_posted (cfg : Config) (c : ConsumerId) (db : Keyspace) (a : UnackArg) :
    Posted (a.id ∈ db.lists (.processing c) → db.status a.id = some .processing) db
      (unackMove cfg c db a) := by
  by_cases h : a.id ∈ db.lists (.processing c)
  · refine .posted (.transfer a.id a.write .processing (if a.retries then .requeued
      else .deadLettered)) ⟨by simp, if a.retries then .unackRequeuing else .deadLettered, rfl, ?_⟩
      (fun hst => ⟨.processing, hst h, rfl⟩) (unackMove_books h)
    split <;> rfl
  · rw [unackMove, if_neg h]
    exact .same (.refl db)

private theorem Retried.posted {now : Millis} {source : Counter}
    {db' : Keyspace} {honest : Prop} (h : Retried now source a db db')
    (hsource : source ≠ .messages)
    (hhonest : honest → Posting.Stored db a.id source) : Posted honest db db' := by
  cases h with
  | pending h =>
    exact .posted (.transfer a.id (retriedWrite now) source .pending)
      ⟨hsource, .pending, rfl, rfl⟩ hhonest h
  | dead h =>
    exact .posted (.transfer a.id (deadLetteredWrite now) source .deadLettered)
      ⟨hsource, .deadLettered, rfl, rfl⟩ hhonest h

theorem requeueMove_posted (hfit : PriorityFits type a.priority) (now : Millis) :
    Posted (a.id ∈ db.lists .requeued → db.status a.id = some .unackRequeuing) db
      (requeueMove type now db a) := by
  by_cases h : a.id ∈ db.lists .requeued
  · rcases @requeueMove_books type now db a hfit h with hbooks | hbooks
    · exact hbooks.posted (by simp) fun hst => ⟨.unackRequeuing, hst h, rfl⟩
    exact .posted (.transfer a.id delayingWrite .requeued
      .delayed) ⟨by simp, .unackDelaying, rfl, rfl⟩ (fun hst => ⟨.unackRequeuing, hst h, rfl⟩)
      hbooks
  · rw [requeueMove, if_neg h]
    exact .same (.refl db)

theorem delayedMove_posted (hfit : PriorityFits type a.priority) (now : Millis) :
    Posted (a.id ∈ db.zsets .delayed → db.status a.id = some .unackDelaying) db
      (delayedMove type now db a) := by
  by_cases h : a.id ∈ db.zsets .delayed
  · exact (@delayedMove_books type now db a hfit h).posted (by simp)
      fun hst => ⟨.unackDelaying, hst h, rfl⟩
  · rw [delayedMove, if_neg h]
    exact .same (.refl db)

/-- The hash to publish has the status under which the message is published. -/
def PublishArgs.Coherent (a : PublishArgs) : Prop :=
  a.hash.status = some a.status ∧ (a.status = .pending ∨ a.status = .scheduled)

theorem PublishArgs.coherent_copy (e : Envelope) (publishedAt : Millis)
    (scheduledParent requeuedParent : Option MessageId) :
    (PublishArgs.copy e publishedAt scheduledParent requeuedParent).Coherent :=
  ⟨rfl, .inl rfl⟩

theorem publishMessage_posted {a : PublishArgs} (ha : a.Coherent) :
    Posted (db.status a.id = none) db (publishMessage a db).db := by
  rcases @publishMessage_cases a db with ⟨_, hdb⟩ | ⟨hok, _⟩
  · rw [hdb]
    exact .same (.refl db)
  refine .posted (.entry a.id a.write (if a.status = .pending then .pending else .scheduled))
    ⟨a.status, ha.1, ?_⟩ (fun h => h) (publishMessage_books hok)
  rcases ha.2 with h | h <;> rw [h] <;> rfl

private theorem Fired.posted {a : ScheduledArg} {db' : Keyspace} {honest : Prop}
    (h : Fired a db db') (hhonest : honest → Posting.Stored db a.id .scheduled) :
    Posted honest db db' := by
  cases h with
  | published h =>
    exact .posted (.transfer a.id a.writePublished .scheduled .pending)
      ⟨by simp, .pending, rfl, rfl⟩ hhonest h
  | dead h =>
    exact .posted (.transfer a.id a.writeDeadLettered .scheduled .deadLettered)
      ⟨by simp, .deadLettered, rfl, rfl⟩ hhonest h

/-- A due message is posted, and after it the copy that is made of it. -/
theorem scheduledMove_posted {a : ScheduledArg} (hfit : a.Fits type)
    (hchild : ∀ nextAt child, a.next = some (nextAt, child) → child.Coherent) :
    ∃ mid, Posted (a.id ∈ db.zsets .scheduled → db.status a.id = some .scheduled) db mid ∧
      Posted (∀ nextAt child, a.next = some (nextAt, child) → child.id ≠ a.id ∧
        db.status child.id = none) mid (scheduledMove type db a) := by
  by_cases hnext : ∃ nextAt child, a.next = some (nextAt, child) ∧ db.groupExists a.group = true
  · obtain ⟨nextAt, child, hnext, hg⟩ := hnext
    refine ⟨reschedule a nextAt db, .posted (.note a.id a.writeSchedule)
      (Posting.valid_note (fun _ => rfl) a.id) (fun _ => trivial)
      (reschedule_books a nextAt db), ?_⟩
    have hmove : scheduledMove type db a = (publishMessage child (reschedule a nextAt db)).db := by
      simp only [scheduledMove, hnext, hg, if_true]
    rw [hmove]
    refine (publishMessage_posted (hchild nextAt child hnext)).mono fun h => ?_
    obtain ⟨hne, hnone⟩ := h nextAt child hnext
    rw [(reschedule_books a nextAt db).status, status_hset, if_neg hne, hnone]
  · by_cases hmem : a.id ∈ db.zsets .scheduled
    · have hfired : Fired a db (scheduledMove type db a) := by
        cases hn : a.next with
        | none => exact scheduledMove_books_once hfit.priority hmem hn
        | some next =>
          have hg : db.groupExists a.group = false := by
            simpa using fun hg => hnext ⟨next.1, next.2, hn, hg⟩
          exact scheduledMove_books_dead hmem hn hg
      exact ⟨_, hfired.posted fun h => ⟨.scheduled, h hmem, rfl⟩, .same (.refl _)⟩
    · have hidle : scheduledMove type db a = db := by
        unfold scheduledMove
        cases hn : a.next with
        | none => exact if_neg hmem
        | some next =>
          have hg : db.groupExists a.group = false := by
            simpa using fun hg => hnext ⟨next.1, next.2, hn, hg⟩
          simp [hg, hmem]
      rw [hidle]
      exact ⟨db, .same (.refl db), .same (.refl db)⟩

/-- The copy of a settled message is posted, and then a note on the message. -/
theorem copyMove_posted {a : RequeueCopyArg} (hchild : a.child.Coherent) :
    ∃ mid, Posted (db.status a.child.id = none) db mid ∧ Posted True mid (copyMove db a) := by
  unfold copyMove
  split
  · split
    · exact ⟨_, publishMessage_posted hchild,
        .posted (.note a.original a.writeRequeued) (Posting.valid_note (fun _ => rfl) a.original)
          (fun _ => trivial) (.refl _)⟩
    · exact ⟨db, .same (.refl db), .same (.refl db)⟩
  · exact ⟨db, .same (.refl db), .same (.refl db)⟩

theorem deleteMove_posted (type : Option QueueType) (group : Option GroupId)
    (hdb : db.Balanced) (id : MessageId) : Posted True db (deleteMove type group db id) := by
  rcases deleteMove_books type group db id (hdb.counted id) with h | ⟨st, c, hst, hc, h⟩
  · rw [h]
    exact .same (.refl db)
  · exact .posted (.removal id c) (counterOf_ne_messages hc) (fun _ => ⟨st, hst, hc⟩) h

/-- A checkout finds the status that it takes the message from. -/
theorem checkout_posted {id : MessageId} {h : MessageHash} (now : Millis)
    (hget : db.hgetall id = some h) (hst : h.status = some .pending) :
    Posted True db
      (((db.hset id (checkoutWrite now)).hincrby .processing 1).hincrby .pending (-1)) := by
  refine .posted (.transfer id (checkoutWrite now) .pending .processing)
    ⟨by simp, .processing, rfl, rfl⟩
    (fun _ => ⟨.pending, by simp [Keyspace.status, hget, hst], rfl⟩)
    ⟨fun c => ?_, rfl⟩
  simp only [Posting.post, Keyspace.shift, Keyspace.counter_hincrby]
  omega

end Moves

section Balanced

variable {cfg : Config} {type : QueueType} {db : Keyspace}

private theorem balanced_foldl {α : Type} {move : Keyspace → α → Keyspace} {args : List α}
    (hmove : ∀ db, ∀ a ∈ args, db.Balanced → (move db a).Balanced) (h : db.Balanced) :
    (args.foldl move db).Balanced :=
  List.foldlRecOn args move h fun db hdb a ha => hmove db a ha hdb

theorem acknowledgeMessage_balanced (c : ConsumerId) (now : Millis) (ids : List MessageId)
    (h : db.Balanced) : (acknowledgeMessage cfg c now ids db).db.Balanced := by
  refine acknowledgeMessage_run c now cfg h (fun _ => ?_) fun _ hfold => ?_
  · exact balanced_foldl (fun db id _ => (ackMove_posted c now db id).balanced) h
  · exact (SameBooks.keepAudit _ _ _ _).balanced hfold

theorem unacknowledgeMessage_balanced (c : ConsumerId) (args : List UnackArg) (h : db.Balanced) :
    (unacknowledgeMessage cfg c args db).2.Balanced := by
  refine unacknowledgeMessage_run cfg c args h fun _ => ?_
  exact balanced_foldl (fun db a _ => (unackMove_posted cfg c db a).balanced) h

theorem requeueImmediate_balanced (now : Millis) {args : List RequeueArg}
    (htype : db.queueType? = some type) (hfit : ∀ a ∈ args, PriorityFits type a.priority)
    (h : db.Balanced) : (requeueImmediate now args db).db.Balanced := by
  refine requeueImmediate_run now htype hfit h fun _ => ?_
  exact balanced_foldl (fun db a ha => (requeueMove_posted (hfit a ha) now).balanced) h

theorem requeueDelayed_balanced (now : Millis) {args : List RequeueArg}
    (htype : db.queueType? = some type) (hfit : ∀ a ∈ args, PriorityFits type a.priority)
    (h : db.Balanced) : (requeueDelayed now args db).db.Balanced := by
  refine requeueDelayed_run now htype hfit h fun _ => ?_
  exact balanced_foldl (fun db a ha => (delayedMove_posted (hfit a ha) now).balanced) h

theorem publishScheduled_balanced {args : List ScheduledArg} (htype : db.queueType? = some type)
    (hfit : ∀ a ∈ args, a.Fits type)
    (hchild : ∀ a ∈ args, ∀ nextAt child, a.next = some (nextAt, child) → child.Coherent)
    (h : db.Balanced) : (publishScheduled args db).db.Balanced := by
  refine publishScheduled_run htype hfit h fun _ => ?_
  refine balanced_foldl (fun db a ha hdb => ?_) h
  obtain ⟨mid, hmid, hend⟩ := scheduledMove_posted (hfit a ha) (hchild a ha)
  exact hend.balanced (hmid.balanced hdb)

theorem deleteMessage_balanced (group : Option GroupId) (lock : Option LockId)
    (ids : List MessageId) (h : db.Balanced) : (deleteMessage group lock ids db).db.Balanced := by
  obtain ⟨done, _, hdone⟩ := @deleteMessage_moves group lock ids db
  rw [hdone]
  exact balanced_foldl (fun db id _ hdb => (deleteMove_posted _ group hdb id).balanced hdb) h

end Balanced

section Exact

variable {cfg : Config} {type : QueueType} {db : Keyspace}
variable {now : Millis}

/-- Exactness after a batch, from what each move finds. -/
private theorem exact_foldl {α : Type} {move : Keyspace → α → Keyspace} {args : List α}
    (hmove : ∀ done a rest, args = done ++ a :: rest → (done.foldl move db).Exact →
      (move (done.foldl move db) a).Exact) (h : db.Exact) : (args.foldl move db).Exact := by
  suffices hgen : ∀ rest done, args = done ++ rest → (done.foldl move db).Exact →
      (rest.foldl move (done.foldl move db)).Exact from hgen args [] rfl h
  intro rest
  induction rest with
  | nil => exact fun _ _ h => h
  | cons a rest ih =>
    intro done hargs hdone
    have hnext := ih (done ++ [a]) (by simpa using hargs)
    rw [List.foldl_append] at hnext
    exact hnext (hmove done a rest hargs hdone)

/-- Guarded moves find a message in their source once, as it was before the batch. -/
private theorem exact_foldl_guarded {α : Type} {key : α → MessageId}
    {move : Keyspace → α → Keyspace} {args : List α} {source : Slot} {act : α → Life → Life}
    {st : Status} (hact : Guarded source act) (hsource : source.holds = true)
    (hframe : ∀ db a, Frame (key a) db (move db a))
    (hself : ∀ db' x, ∀ a ∈ args, db'.settings = db.settings → At db' (key a) x →
      At (move db' a) (key a) (act a x)) (hposted : ∀ db', ∀ a ∈ args,
      Posted (0 < db'.occ source (key a) → db'.status (key a) = some st) db' (move db' a))
    (hat : ∀ a ∈ args, ∃ x, At db (key a) x ∧ (x.place = some source → x.status = some st))
    (h : db.Exact) : (args.foldl move db).Exact := by
  refine exact_foldl (fun done a rest hargs hdone => ?_) h
  have ha : a ∈ args := by simp [hargs]
  obtain ⟨x, hx, hst⟩ := hat a ha
  have hthen : At (done.foldl move db) (key a) (x.afterFirst key act done (key a)) :=
    hx.foldl_guarded hact hframe fun db' x b hb => hself db' x b (by simp [hargs, hb])
  refine (hposted _ a ha).exact (fun hocc => ?_) hdone
  have hplace : (x.afterFirst key act done (key a)).place = some source := by
    rw [hthen.occ source hsource] at hocc
    by_contra hne
    simp [hne] at hocc
  rw [hact.afterFirst_eq_self hplace] at hthen hplace
  rw [hthen.status_eq]
  exact hst hplace

/-- Acknowledgements are honest about messages that are being processed. -/
theorem acknowledgeMessage_exact {c : ConsumerId} {ids : List MessageId} (hat : db.accepts = true →
      ∀ id ∈ ids, ∃ x, At db id x ∧ (x.heldBy c → x.status = some .processing))
    (h : db.Exact) : (acknowledgeMessage cfg c now ids db).db.Exact := by
  refine acknowledgeMessage_run c now cfg h (fun hacc => ?_) fun _ hfold => ?_
  · exact @exact_foldl_guarded _ _ (fun id => id) _ _ _ _ _ (Life.guarded_acknowledge c now) rfl
      (fun db id => ackMove_frame c now db id) (fun _ _ _ _ _ h => h.ackMove)
      (fun db id _ => (ackMove_posted c now db id).mono
        fun h hmem => h ((db.mem_list_iff _ _).1 hmem)) (hat hacc) h
  · exact (SameBooks.keepAudit _ _ _ _).exact hfold

theorem unacknowledgeMessage_exact {c : ConsumerId} {args : List UnackArg}
    (hat : db.accepts = true →
      ∀ a ∈ args, ∃ x, At db a.id x ∧ (x.heldBy c → x.status = some .processing))
    (h : db.Exact) : (unacknowledgeMessage cfg c args db).2.Exact := by
  refine unacknowledgeMessage_run cfg c args h fun hacc => ?_
  exact exact_foldl_guarded (Life.guarded_unacknowledge c) rfl
    (fun db a => unackMove_frame cfg c db a) (fun _ _ _ _ _ h => h.unackMove)
    (fun db a _ => (unackMove_posted cfg c db a).mono
      fun h hmem => h ((db.mem_list_iff _ _).1 hmem)) (hat hacc) h

/-- The requeuers are honest about legal messages. -/
theorem requeueImmediate_exact {args : List RequeueArg}
    (htype : db.queueType? = some type) (hfit : ∀ a ∈ args, PriorityFits type a.priority)
    (hat : ∀ a ∈ args, ∃ x, At db a.id x ∧ Legal type a.group x) (h : db.Exact) :
    (requeueImmediate now args db).db.Exact := by
  refine requeueImmediate_run now htype hfit h fun _ => ?_
  refine exact_foldl_guarded (Life.guarded_requeue type db.groupExists now) rfl
    (fun db a => requeueMove_frame type now db a) (fun db' x a ha hset h => ?_)
    (fun db a ha => (requeueMove_posted (hfit a ha) now).mono
      fun h hmem => h ((db.mem_list_iff _ _).1 hmem)) (fun a ha => ?_) h
  · rw [← Keyspace.groupExists_of_settings hset]
    exact h.requeueMove (hfit a ha)
  · obtain ⟨x, hx, hlegal⟩ := hat a ha
    exact ⟨x, hx, hlegal.status_of_requeued⟩

theorem requeueDelayed_exact {args : List RequeueArg}
    (htype : db.queueType? = some type) (hfit : ∀ a ∈ args, PriorityFits type a.priority)
    (hat : ∀ a ∈ args, ∃ x, At db a.id x ∧ Legal type a.group x) (h : db.Exact) :
    (requeueDelayed now args db).db.Exact := by
  refine requeueDelayed_run now htype hfit h fun _ => ?_
  refine exact_foldl_guarded (Life.guarded_requeueDelayed type db.groupExists now) rfl
    (fun db a => delayedMove_frame type now db a) (fun db' x a ha hset h => ?_)
    (fun db a ha => (delayedMove_posted (hfit a ha) now).mono
      fun h hmem => h ((db.mem_zset_iff _ _).1 hmem)) (fun a ha => ?_) h
  · rw [← Keyspace.groupExists_of_settings hset]
    exact h.delayedMove (hfit a ha)
  · obtain ⟨x, hx, hlegal⟩ := hat a ha
    exact ⟨x, hx, hlegal.status_of_delayed⟩

/-- The scheduler is honest about legal messages and about copies with fresh identifiers. -/
theorem publishScheduled_exact {args : List ScheduledArg} (htype : db.queueType? = some type)
    (hfit : ∀ a ∈ args, a.Fits type) (hnodup : (args.map ScheduledArg.id).Nodup)
    (hcopies : (copyIds args).Nodup)
    (hcoherent : ∀ a ∈ args, ∀ nextAt child, a.next = some (nextAt, child) → child.Coherent)
    (hblank : ∀ m ∈ copyIds args, At db m ⟨none, none⟩ ∧ ∀ a ∈ args, a.id ≠ m)
    (hat : ∀ a ∈ args, ∃ x, At db a.id x ∧ Legal type a.group x) (h : db.Exact) :
    (publishScheduled args db).db.Exact := by
  refine publishScheduled_run htype hfit h fun _ => ?_
  refine exact_foldl (fun done a rest hargs hdone => ?_) h
  have ha : a ∈ args := by simp [hargs]
  have hcopy : ∀ b ∈ args, ∀ nextAt child, b.next = some (nextAt, child) →
      child.id ∈ copyIds args := fun b hb nextAt child hnext =>
    List.mem_filterMap.2 ⟨b, hb, by simp [hnext]⟩
  -- What the earlier moves of the batch do not name is as it was.
  have hspared : ∀ m, (∀ b ∈ done, b.id ≠ m) → m ∉ copyIds done →
      Spared m db (done.foldl (scheduledMove type) db) := by
    intro m hids hm
    refine Spared.foldl_other fun db' b hb => scheduledMove_spared (Ne.symm (hids b hb)) ?_
    rintro nextAt child hnext rfl
    exact hm (List.mem_filterMap.2 ⟨b, hb, by simp [hnext]⟩)
  obtain ⟨mid, hmid, hend⟩ := @scheduledMove_posted type
    (done.foldl (scheduledMove type) db) a (hfit a ha) (hcoherent a ha)
  refine hend.exact (fun nextAt child hnext => ?_) (hmid.exact (fun hmem => ?_) hdone)
  · obtain ⟨hat, hne⟩ := hblank child.id (hcopy a ha nextAt child hnext)
    have hsp := hspared child.id (fun b hb => hne b (by simp [hargs, hb])) ?_
    · exact ⟨(hne a ha).symm, by rw [(hsp.at_iff.2 hat).status_eq]; rfl⟩
    rw [hargs] at hcopies
    simp only [copyIds, List.filterMap_append, List.filterMap_cons, hnext, Option.map_some,
      List.nodup_append] at hcopies
    exact fun hm => hcopies.2.2 _ hm _ List.mem_cons_self rfl
  · obtain ⟨x, hx, hlegal⟩ := hat a ha
    have hsp := hspared a.id (fun b hb heq => ?_) fun hm => ?_
    · have hthen := hsp.at_iff.2 hx
      rw [hthen.status_eq]
      exact hlegal.status_of_scheduled (hthen.mem_zset.1 hmem)
    · rw [hargs] at hnodup
      simp only [List.map_append, List.map_cons, List.nodup_append] at hnodup
      exact hnodup.2.2 _ (List.mem_map_of_mem hb) _ List.mem_cons_self heq
    · exact (hblank a.id (by
        rw [hargs, copyIds, List.filterMap_append]
        exact List.mem_append_left _ hm)).2 a ha rfl

theorem deleteMessage_exact (group : Option GroupId) (lock : Option LockId) (ids : List MessageId)
    (hdb : db.Balanced) (h : db.Exact) : (deleteMessage group lock ids db).db.Exact := by
  obtain ⟨done, _, hdone⟩ := @deleteMessage_moves group lock ids db
  rw [hdone]
  have hboth : (done.foldl (deleteMove db.queueType? group) db).Balanced ∧
      (done.foldl (deleteMove db.queueType? group) db).Exact :=
    List.foldlRecOn (motive := fun db : Keyspace => db.Balanced ∧ db.Exact) done _ ⟨hdb, h⟩
      fun db hdb id _ =>
        have hposted := deleteMove_posted _ group hdb.1 id
        ⟨hposted.balanced hdb.1, hposted.exact trivial hdb.2⟩
  exact hboth.2

end Exact

end RedisSmq
