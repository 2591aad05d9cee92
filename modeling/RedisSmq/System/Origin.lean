import RedisSmq.Moves.Core
import RedisSmq.System.Cases

/-!
# Every copy goes back to what was published

The first invariant of the system, which holds in every run. An identifier is stored
only by the publication that drew it, so what is not published is nowhere, and what
is stored or remembered of a message, in however many copies, has the parameters
under which it was published. In particular the priorities of all messages fit the
queue, so no script fails halfway for lack of a priority.
-/

namespace RedisSmq

variable {type : QueueType}

namespace System

/-- The envelope was decoded from what was published under its identifier. -/
def Copy (s : System) (e : Envelope) : Prop :=
  ∃ p opts t, s.origin e.id = some p ∧ e.message = Codec.rebuildMessage opts t p ∧
    e.consumerGroupId = p.consumerGroupId

/-- The task concerns a published message, and its copy of it is one. -/
def TaskCopies (s : System) (t : Task) : Prop :=
  (s.origin t.id).isSome = true ∧ ∀ e, t.copy? = some e → s.Copy e

end System

/-- The entry of the log that stores a message. -/
def Event.isPublication : Event → Bool
  | .produced _ _ | .published _ _ => true
  | _ => false

/-- The log entry concerns a published message, and a produced message is published
with its parameters. -/
def System.Vouches (s : System) : Event → Prop
  | .produced id m => ∃ group, s.origin id = some (m.toParams group)
  | ev => (s.origin ev.id).isSome = true

/-- The log entry reports on a message that is already published. -/
def System.Reports (s : System) (ev : Event) : Prop :=
  ev.isPublication = false ∧ (s.origin ev.id).isSome = true

/-- How a message is first stored: never delivered, and in the container of its status. -/
structure Newborn (type : QueueType) (m : MessageId) (p : Params) (x : Life) : Prop where
  hash : ∃ h, x.hash = some h ∧ h.id = some m ∧ h.message = some p ∧ h.attempts = some 0
  stored : x.status = some .pending ∧ x.place = some (pendingSlot type p.consumerGroupId) ∨
    x.status = some .scheduled ∧ x.place = some (.zset .scheduled)

/-- What is stored, queued and remembered goes back to publications. -/
structure Sane (type : QueueType) (s : System) : Prop where
  type_eq : s.db.queueType? = some type
  fresh : ∀ m, s.nextId ≤ m → s.origin m = none
  blank : ∀ m, s.origin m = none → At s.db m ⟨none, none⟩
  core : ∀ m, s.db.core m = (none, none) ∨
    ∃ p, s.origin m = some p ∧ s.db.core m = (some m, some p)
  fits : ∀ m p, s.origin m = some p → PriorityFits type p.priority
  loaded : ∀ w e, (w, e) ∈ s.loaded → s.Copy e
  tasks : ∀ c t, (c, t) ∈ s.tasks → s.TaskCopies t
  log : ∀ ev ∈ s.log, s.Vouches ev

/-- A step that may publish fresh messages and otherwise keeps what goes back to
publications. -/
structure Sound (type : QueueType) (s s' : System) : Prop where
  type_eq : s'.db.queueType? = s.db.queueType?
  nextId_le : s.nextId ≤ s'.nextId
  origin : ∀ m, s'.origin m = s.origin m ∨ s.nextId ≤ m ∧ m < s'.nextId ∧
    ∃ p x, s'.origin m = some p ∧ At s'.db m x ∧ Newborn type m p x ∧ PriorityFits type p.priority
  spared : ∀ m, s.origin m = none → s'.origin m = none → At s'.db m ⟨none, none⟩
  core : ∀ m, s'.origin m = s.origin m →
    s'.db.core m = s.db.core m ∨ s'.db.core m = (none, none)
  loaded : ∀ w e, (w, e) ∈ s'.loaded → (w, e) ∈ s.loaded ∨ s.Copy e
  tasks : ∀ c t, (c, t) ∈ s'.tasks → (c, t) ∈ s.tasks ∨ s.TaskCopies t
  log : ∀ ev ∈ s'.log, ev ∈ s.log ∨ s.Reports ev ∨ ev.isPublication = true ∧ s'.Vouches ev

theorem Newborn.core {db : Keyspace} {m : MessageId} {p : Params} {x : Life}
    (h : Newborn type m p x) (hat : At db m x) : db.core m = (some m, some p) := by
  obtain ⟨hash, hx, hid, hp, _⟩ := h.hash
  simp [Keyspace.core, hat.hash, hx, hid, hp]

/-- An identifier that is not given out yet is no published message. -/
theorem Sane.fresh_ne {s : System} (hs : Sane type s) {m m' : MessageId} (hm : s.nextId ≤ m)
    (hm' : (s.origin m').isSome = true) : m ≠ m' := by
  rintro rfl
  rw [hs.fresh m hm] at hm'
  cases hm'

/-- Publications are never revoked. -/
theorem Sane.origin_mono {s s' : System} (hs : Sane type s)
    (h : Sound type s s') {m : MessageId} {p : Params} (hp : s.origin m = some p) :
    s'.origin m = some p := by
  rcases h.origin m with heq | ⟨hle, _⟩
  · exact heq.trans hp
  · rw [hs.fresh m hle] at hp
    cases hp

theorem Sane.of_sound {s s' : System} (hs : Sane type s) (h : Sound type s s') : Sane type s' := by
  have hcopy : ∀ e, s.Copy e → s'.Copy e := fun e ⟨p, opts, t, hp, hrest⟩ =>
    ⟨p, opts, t, hs.origin_mono h hp, hrest⟩
  have hsome : ∀ m, (s.origin m).isSome = true → (s'.origin m).isSome = true := by
    intro m hm
    obtain ⟨p, hp⟩ := Option.isSome_iff_exists.1 hm
    simp [hs.origin_mono h hp]
  have htask : ∀ t, s.TaskCopies t → s'.TaskCopies t := fun t ⟨hm, hcopies⟩ =>
    ⟨hsome _ hm, fun e he => hcopy e (hcopies e he)⟩
  refine ⟨h.type_eq.trans hs.type_eq, fun m hm => ?_, fun m hm => ?_, fun m => ?_, fun m p hp => ?_,
    fun w e he => ?_, fun c t ht => ?_, fun ev hev => ?_⟩
  · rcases h.origin m with heq | ⟨_, hlt, _⟩
    · exact heq.trans (hs.fresh m (h.nextId_le.trans hm))
    · exact absurd hlt (not_lt.2 hm)
  · rcases h.origin m with heq | ⟨_, _, p, x, hp, _⟩
    · exact h.spared m (heq.symm.trans hm) hm
    · rw [hp] at hm
      cases hm
  · rcases h.origin m with heq | ⟨_, _, p, x, hp, hat, hborn, _⟩
    · rcases h.core m heq with hcore | hcore
      · rw [hcore, heq]
        exact hs.core m
      · exact .inl hcore
    · exact .inr ⟨p, hp, hborn.core hat⟩
  · rcases h.origin m with heq | ⟨_, _, p', x, hp', _, _, hfit⟩
    · exact hs.fits m p (heq.symm.trans hp)
    · cases hp.symm.trans hp'
      exact hfit
  · exact (h.loaded w e he).elim (fun he => hcopy e (hs.loaded w e he)) (hcopy e)
  · exact (h.tasks c t ht).elim (fun ht => htask t (hs.tasks c t ht)) (htask t)
  rcases h.log ev hev with hev | ⟨hno, hold⟩ | ⟨_, hnew⟩
  · have hold := hs.log ev hev
    cases ev with
    | produced id m =>
      obtain ⟨group, hp⟩ := hold
      exact ⟨group, hs.origin_mono h hp⟩
    | _ => exact hsome _ hold
  · cases ev with
    | produced id m => cases hno
    | _ => exact hsome _ hold
  · exact hnew

theorem Sane.created (cfg : Config) (type : QueueType) (groups : List GroupId) (now : Nanos) :
    Sane type (System.created cfg type groups now) where
  type_eq := rfl
  fresh _ _ := rfl
  blank m _ := ⟨rfl, fun p _ => by
    cases p with
    | list k => rfl
    | zset z => simp [Keyspace.occ, System.created, Keyspace.created]⟩
  core _ := .inl rfl
  fits _ _ h := by cases h
  loaded _ _ h := by cases h
  tasks _ _ h := absurd h (Multiset.notMem_zero _)
  log _ h := absurd h List.not_mem_nil

section Lemmas

variable {type : QueueType} {s s' : System}
variable {events : List Event} {e : Envelope}

theorem mem_proceed {c : ConsumerId} {old : Task} {new : Multiset Task} {τ : ConsumerId × Task}
    (h : τ ∈ s.proceed c old new) : τ ∈ s.tasks ∨ ∃ t ∈ new, τ = (c, t) := by
  rcases Multiset.mem_add.1 h with h | h
  · exact .inl (Multiset.mem_of_mem_erase h)
  · obtain ⟨t, ht, rfl⟩ := Multiset.mem_map.1 h
    exact .inr ⟨t, ht, rfl⟩

/-- A published identifier is one that a hash or a container can show. -/
theorem Sane.origin_isSome (hs : Sane type s) {m : MessageId} {p : Slot} (hp : p.holds = true)
    (hocc : 0 < s.db.occ p m) : (s.origin m).isSome = true := by
  by_contra hnone
  have := (hs.blank m (by simpa using hnone)).occ p hp
  simp [this] at hocc

/-- What decodes is a copy of the message it is stored under. -/
theorem Sane.decode (hs : Sane type s) {id uuid : MessageId} {opts : ConsumeOptions} {t : Nanos}
    {h : MessageHash} (hcore : (h.id, h.message) = s.db.core id)
    (hd : Codec.decodeEnvelope opts uuid t h = some e) : e.id = id ∧ s.Copy e := by
  obtain ⟨p, hp, hmessage, hgroup⟩ := Codec.decodeEnvelope_message hd
  rcases hs.core id with hnone | ⟨p', horigin, hsome⟩
  · rw [hnone, hp] at hcore
    simp at hcore
  rw [hsome] at hcore
  obtain ⟨hid, hm⟩ := Prod.mk.inj hcore
  have heid : e.id = id := by rw [Codec.decodeEnvelope_id hd, hid]; rfl
  cases hp.symm.trans hm
  exact ⟨heid, p, opts, t, heid ▸ horigin, hmessage, hgroup⟩

theorem Sane.load (hs : Sane type s) {id : MessageId}
    (h : s.loadMessage id = some e) : e.id = id ∧ s.Copy e := by
  obtain ⟨h', hget, hd⟩ := Option.bind_eq_some_iff.1 h
  exact hs.decode (by simp [Keyspace.core, hget]) hd

/-- What `Dequeue` returns is a copy of the message that was checked out. -/
theorem Sane.received (hs : Sane type s) {id : MessageId} {h : MessageHash}
    (hget : s.db.hgetall id = some h) :
    ∀ t ∈ s.received id (checkoutWrite (toMillis s.now) h),
      ∃ e, t = .received e (s.deliveries id + 1) ∧ e.id = id ∧ s.Copy e := by
  intro t ht
  have hcore : ((checkoutWrite (toMillis s.now) h).id,
      (checkoutWrite (toMillis s.now) h).message) = s.db.core id := by
    simp [Keyspace.core, hget, checkoutWrite]
  unfold System.received at ht
  split at ht
  · exact absurd ht (Multiset.notMem_zero t)
  · rename_i e hd
    exact ⟨e, Multiset.mem_singleton.1 ht, hs.decode hcore hd⟩

/-- A goroutine goes on with its message. -/
theorem Goes.id_eq {a : Action} {c : ConsumerId} {old : Task} {new : Multiset Task}
    (hgo : Goes s a c old new events) (hs : Sane type s) : ∀ t ∈ new, t.id = old.id := by
  intro t ht
  cases hgo with
  | reloaded he =>
    rw [Multiset.mem_singleton.1 ht]
    exact (hs.load he).1
  | acked | failed | timedOut =>
    rcases Multiset.mem_cons.1 ht with rfl | ht
    · rfl
    · rw [Multiset.mem_singleton.1 ht]
      rfl
  | refused | expired | handed | late =>
    rw [Multiset.mem_singleton.1 ht]
    rfl
  | _ => exact absurd ht (Multiset.notMem_zero t)

/-- The priority of a copy fits the queue. -/
theorem Sane.copy_fits (hs : Sane type s) (h : s.Copy e) :
    PriorityFits type e.message.priority := by
  obtain ⟨p, opts, t, hp, hm, _⟩ := h
  have := hs.fits _ p hp
  rw [hm]
  exact this

theorem System.Copy.origin_isSome (h : s.Copy e) : (s.origin e.id).isSome = true := by
  obtain ⟨p, _, _, hp, _⟩ := h
  simp [hp]

/-- A copy knows the group that its message was published for. -/
theorem System.Copy.origin_group (h : s.Copy e) :
    ∃ p, s.origin e.id = some p ∧ e.consumerGroupId = p.consumerGroupId := by
  obtain ⟨p, _, _, hp, _, hg⟩ := h
  exact ⟨p, hp, hg⟩

section Requeuer

variable {w : Worker} {batch : List Envelope} {t : Nanos}

/-- Requeuers pass priorities that fit. -/
theorem Sane.requeueArgs_fit (hs : Sane type s) (hload : s.hasLoaded w batch) :
    ∀ a ∈ batch.map (RequeueArg.ofEnvelope t), PriorityFits type a.priority := by
  intro a ha
  obtain ⟨e, he, rfl⟩ := List.mem_map.1 ha
  exact hs.copy_fits (hs.loaded w e (hload e he))

/-- Requeuers pass the groups that the messages were published for. -/
theorem Sane.requeueArgs_group (hs : Sane type s) (hload : s.hasLoaded w batch) :
    ∀ a ∈ batch.map (RequeueArg.ofEnvelope t),
      ∃ p, s.origin a.id = some p ∧ a.group = p.consumerGroupId := by
  intro a ha
  obtain ⟨e, he, rfl⟩ := List.mem_map.1 ha
  exact (hs.loaded w e (hload e he)).origin_group

end Requeuer

/-- Reports publish nothing. -/
theorem origin_append (h : ∀ ev ∈ events, ev.isPublication = false)
    (m : MessageId) : (events ++ s.log).findSome? (Event.origin? m) = s.origin m := by
  rw [List.findSome?_append, List.findSome?_eq_none_iff.2 fun ev hev => ?_]
  · rfl
  · have := h ev hev
    cases ev <;> first | rfl | cases this

private theorem log_of_reports (hlog : s'.log = events ++ s.log) (h : ∀ ev ∈ events, s.Reports ev) :
    ∀ ev ∈ s'.log, ev ∈ s.log ∨ s.Reports ev ∨ ev.isPublication = true ∧ s'.Vouches ev := by
  intro ev hev
  rw [hlog] at hev
  rcases List.mem_append.1 hev with hev | hev
  · exact .inr (.inl (h ev hev))
  · exact .inl hev

private theorem origin_of_reports (hlog : s'.log = events ++ s.log)
    (h : ∀ ev ∈ events, s.Reports ev) (m : MessageId) : s'.origin m = s.origin m := by
  rw [System.origin, hlog]
  exact origin_append (fun ev hev => (h ev hev).1) m

/-- A step that leaves the keyspace and the publications alone. -/
theorem Sound.of_db_eq (hs : Sane type s) (events : List Event) (hlog : s'.log = events ++ s.log)
    (hevents : ∀ ev ∈ events, s.Reports ev) (hdb : s'.db = s.db) (hnext : s.nextId ≤ s'.nextId)
    (hloaded : ∀ w e, (w, e) ∈ s'.loaded → (w, e) ∈ s.loaded ∨ s.Copy e)
    (htasks : ∀ c t, (c, t) ∈ s'.tasks → (c, t) ∈ s.tasks ∨ s.TaskCopies t) : Sound type s s' where
  type_eq := by rw [hdb]
  nextId_le := hnext
  origin m := .inl (origin_of_reports hlog hevents m)
  spared m hm _ := by
    rw [hdb]
    exact hs.blank m hm
  core m _ := by
    rw [hdb]
    exact .inl rfl
  loaded := hloaded
  tasks := htasks
  log := log_of_reports hlog hevents

/-- A step that changes the keyspace, but neither publishes nor loads. -/
theorem Sound.of_db (hs : Sane type s) (events : List Event) (hlog : s'.log = events ++ s.log)
    (hevents : ∀ ev ∈ events, s.Reports ev) (hset : s'.db.queueType? = s.db.queueType?)
    (hnext : s.nextId ≤ s'.nextId)
    (hspared : ∀ m, s.origin m = none → Spared m s.db s'.db) (hcore : s.db.KeepsCore s'.db)
    (hloaded : s'.loaded = s.loaded)
    (htasks : ∀ c t, (c, t) ∈ s'.tasks → (c, t) ∈ s.tasks ∨ s.TaskCopies t) : Sound type s s' where
  type_eq := hset
  nextId_le := hnext
  origin m := .inl (origin_of_reports hlog hevents m)
  spared m hm _ := (hspared m hm).at_iff.2 (hs.blank m hm)
  core m _ := hcore m
  loaded _ _ h := .inl (hloaded ▸ h)
  tasks := htasks
  log := log_of_reports hlog hevents

end Lemmas

section Steps

variable {type : QueueType} {s s' : System}
variable {batch : List (Envelope × Option Nat × UnackCause)} {c : ConsumerId} {new : Multiset Task}
variable {db' : Keyspace} {m : MessageId} {old : Task} {p : Params}

private theorem ne_of_origin {id m : MessageId} (h : (s.origin id).isSome = true)
    (hm : s.origin m = none) : id ≠ m := by
  rintro rfl
  rw [hm] at h
  cases h

private theorem taskCopies_of_copy {t : Task} {e : Envelope} (hid : t.id = e.id)
    (hcopy : t.copy? = none ∨ t.copy? = some e) (h : s.Copy e) : s.TaskCopies t := by
  refine ⟨by rw [hid]; exact h.origin_isSome, fun e' he' => ?_⟩
  rcases hcopy with hc | hc
  · rw [hc] at he'
    cases he'
  rw [hc] at he'
  cases he'
  exact h

private theorem taskCopies_of_id {t : Task} (hcopy : t.copy? = none)
    (h : (s.origin t.id).isSome = true) : s.TaskCopies t :=
  ⟨h, fun e he => by rw [hcopy] at he; cases he⟩

/-- The tasks after a consumer went on from a task of its own. -/
private theorem taskCopies_proceed (hnew : ∀ t ∈ new, s.TaskCopies t) (c' : ConsumerId) (t : Task)
    (h : (c', t) ∈ s.proceed c old new) : (c', t) ∈ s.tasks ∨ s.TaskCopies t := by
  rcases mem_proceed h with h | ⟨t', ht', heq⟩
  · exact .inl h
  · cases heq
    exact .inr (hnew t ht')

/-- A goroutine goes on with the message, and with the copy, that it has. -/
private theorem taskCopies_goes (hs : Sane type s) {a : Action}
    {events : List Event} (hgo : Goes s a c old new events)
    (hold : s.TaskCopies old) : ∀ t ∈ new, s.TaskCopies t := by
  have hpair : ∀ {t₁ t₂ t : Task}, t ∈ ({t₁, t₂} : Multiset Task) → t = t₁ ∨ t = t₂ := by
    intro t₁ t₂ t h
    simpa using h
  intro t ht
  cases hgo with
  | refused hr =>
    rw [Multiset.mem_singleton.1 ht]
    exact taskCopies_of_id rfl hold.1
  | expired | handed | late =>
    rw [Multiset.mem_singleton.1 ht]
    exact taskCopies_of_copy rfl (.inr rfl) (hold.2 _ rfl)
  | acked =>
    rcases hpair ht with rfl | rfl
    · exact taskCopies_of_copy rfl (.inl rfl) (hold.2 _ rfl)
    · exact taskCopies_of_copy rfl (.inr rfl) (hold.2 _ rfl)
  | failed | timedOut =>
    rcases hpair ht with rfl | rfl <;> exact taskCopies_of_copy rfl (.inr rfl) (hold.2 _ rfl)
  | reloaded he =>
    rw [Multiset.mem_singleton.1 ht]
    exact taskCopies_of_copy rfl (.inr rfl) (hs.load he).2
  | missed | cancelledPopped | cancelledUnack | finishedTimedOut | returned | lost =>
    exact absurd ht (Multiset.notMem_zero t)

private theorem reports_goes {a : Action}
    {events : List Event} (hgo : Goes s a c old new events) (hold : s.TaskCopies old) :
    ∀ ev ∈ events, s.Reports ev := by
  cases hgo with
  | handed he =>
    intro ev hev
    rw [List.mem_singleton.1 hev]
    exact ⟨rfl, hold.1⟩
  | _ => exact fun ev hev => absurd hev List.not_mem_nil

/-- The tasks left over by a batch of acknowledgements. -/
private theorem taskCopies_aftermath (hs : Sane type s)
    {batch : List (MessageId × Nat)} (htasks : System.ackTasks c batch ≤ s.tasks)
    {reply : Except RedisError (Except Refusal (List (MessageId × Bool)))} (c' : ConsumerId)
    (t : Task) (h : (c', t) ∈ s.tasks - System.ackTasks c batch +
      System.ackAftermath c batch reply) : (c', t) ∈ s.tasks ∨ s.TaskCopies t := by
  have hfailed : ∀ cause, (c', t) ∈ ((batch.map fun b =>
      (c, Task.ackFailed b.1 b.2 cause) : List (ConsumerId × Task)) : Multiset _) →
        s.TaskCopies t := by
    intro cause hmem
    obtain ⟨b, hb, heq⟩ := List.mem_map.1 (Multiset.mem_coe.1 hmem)
    cases heq
    have hold : (c, Task.acking b.1 b.2) ∈ s.tasks :=
      Multiset.mem_of_le htasks (Multiset.mem_coe.2 (List.mem_map_of_mem hb))
    exact taskCopies_of_id rfl (hs.tasks _ _ hold).1
  rcases Multiset.mem_add.1 h with h | h
  · exact .inl (Multiset.mem_of_le (Multiset.sub_le_self _ _) h)
  unfold System.ackAftermath at h
  split at h
  · exact absurd h (Multiset.notMem_zero _)
  · exact .inr (hfailed _ h)
  · exact .inr (hfailed _ h)

/-- An unacknowledged batch names published messages. -/
private theorem spared_unackBatch
    {t : Nanos} (hbatch : ∀ b ∈ batch, (s.origin b.1.id).isSome = true)
    (hm : s.origin m = none) : Spared m s.db (s.unackBatch c batch t).1 := by
  refine unacknowledgeMessage_spared fun a ha hid => ?_
  obtain ⟨b, hb, rfl⟩ := List.mem_map.1 ha
  exact absurd hid (ne_of_origin (hbatch b hb) hm)

theorem mem_of_mem_removals {β : Type} {key : β → MessageId} {l : List MessageId} {batch : List β}
    {b : β} (h : b ∈ removals key l batch) : b ∈ batch ∧ key b ∈ l := by
  induction batch generalizing l with
  | nil => cases h
  | cons b' batch ih =>
    unfold removals at h
    split at h
    · rename_i hmem
      rcases List.mem_cons.1 h with rfl | h
      · exact ⟨List.mem_cons_self, hmem⟩
      · exact ⟨List.mem_cons_of_mem _ (ih h).1, List.mem_of_mem_erase (ih h).2⟩
    · exact ⟨List.mem_cons_of_mem _ (ih h).1, (ih h).2⟩

theorem mem_of_mem_effective {β : Type} {key : β → MessageId} {batch : List β}
    {b : β} (h : b ∈ s.effective key c batch) :
    b ∈ batch ∧ key b ∈ s.db.lists (.processing c) := by
  unfold System.effective at h
  split at h
  · exact mem_of_mem_removals h
  · cases h

private theorem reports_unackBatch
    (t : Nanos) (hbatch : ∀ b ∈ batch, (s.origin b.1.id).isSome = true) :
    ∀ ev ∈ (s.unackBatch c batch t).2, s.Reports ev := by
  intro ev hev
  obtain ⟨b, hb, rfl⟩ := List.mem_map.1 hev
  exact ⟨rfl, hbatch b (mem_of_mem_effective hb).1⟩

private theorem Sound.unackBatch (hs : Sane type s) {t : Nanos}
    (hbatch : ∀ b ∈ batch, (s.origin b.1.id).isSome = true)
    {tasks : Multiset (ConsumerId × Task)} (htasks : tasks ≤ s.tasks) :
    Sound type s
      { s with
        db := (s.unackBatch c batch t).1, tasks := tasks
        log := (s.unackBatch c batch t).2 ++ s.log } :=
  .of_db hs _ rfl (reports_unackBatch t hbatch)
    (Keyspace.queueType?_of_settings (settings_unacknowledgeMessage _)) le_rfl
    (fun _ hm => spared_unackBatch hbatch hm) (unacknowledgeMessage_core _) rfl
    fun _ _ h => .inl (Multiset.mem_of_le htasks h)

/-- What the log says of copies that were to be published. -/
private theorem findSome?_publishedCopies {children : List PublishArgs}
        (h : (System.publishedCopies children db').findSome? (Event.origin? m) = some p) :
    ∃ a ∈ children, a.id = m ∧ a.hash.message = some p ∧ (db'.hgetall a.id).isSome = true := by
  obtain ⟨ev, hev, hp⟩ := List.exists_of_findSome?_eq_some h
  obtain ⟨a, ha, hmap⟩ := List.mem_filterMap.1 hev
  obtain ⟨p', hp', rfl⟩ := Option.map_eq_some_iff.1 hmap
  obtain ⟨hid, hpp⟩ := Option.ite_none_right_eq_some.1 hp
  cases hpp
  exact ⟨a, (List.mem_filter.1 ha).1, hid, hp', (List.mem_filter.1 ha).2⟩

private theorem publishedCopies_singleton {a : PublishArgs}
    (h : (db'.hgetall a.id).isSome = true) (hp : a.hash.message = some p) :
    System.publishedCopies [a] db' = [.published a.id p] := by
  simp [System.publishedCopies, List.filter, h, hp]

private theorem hash_of_publishedCopies {children : List PublishArgs}
    (h : (System.publishedCopies children db').findSome? (Event.origin? m) = none)
    {a : PublishArgs} (ha : a ∈ children) (hid : a.id = m)
    (hp : a.hash.message = some p) : db'.hgetall m = none := by
  by_contra hsome
  have hmem : Event.published a.id p ∈ System.publishedCopies children db' := by
    refine List.mem_filterMap.2 ⟨a, List.mem_filter.2 ⟨ha, ?_⟩, by simp [hp]⟩
    rw [hid]
    simpa [Option.isSome_iff_ne_none] using hsome
  have := List.findSome?_eq_none_iff.1 h _ hmem
  simp [Event.origin?, hid] at this

theorem newborn_copy (type : QueueType) (e : Envelope) (publishedAt : Millis)
    (scheduledParent requeuedParent : Option MessageId) :
    Newborn type e.id e.toParams
      ⟨some (pendingSlot type e.consumerGroupId),
        some ((PublishArgs.copy e publishedAt scheduledParent requeuedParent).write {})⟩ where
  hash := ⟨_, rfl, rfl, rfl, rfl⟩
  stored := .inl ⟨rfl, rfl⟩

theorem newborn_ofEnvelope (s : System) (m : Producible)
    (group : Option GroupId) :
    Newborn type (PublishArgs.ofEnvelope (s.prepared m group)).id (s.prepared m group).toParams
      ⟨some (if (s.prepared m group).status = .pending
          then pendingSlot type (s.prepared m group).consumerGroupId else .zset .scheduled),
        some ((PublishArgs.ofEnvelope (s.prepared m group)).write {})⟩ where
  hash := by
    refine ⟨_, rfl, rfl, rfl, ?_⟩
    have hattempts := (@Envelope.dispatch_frame s.cfg.nextTick s.now
      { Envelope.new m s.nextId with consumerGroupId := group }).2.2.2
    simp only [PublishArgs.write, PublishArgs.ofEnvelope, Codec.publishedHash]
    rw [System.prepared, hattempts]
    rfl
  stored := by
    have hst : (⟨some (if (s.prepared m group).status = .pending
          then pendingSlot type (s.prepared m group).consumerGroupId else .zset .scheduled),
        some ((PublishArgs.ofEnvelope (s.prepared m group)).write {})⟩ : Life).status =
          some (s.prepared m group).status := rfl
    rw [hst]
    rcases @Envelope.dispatch_status s.cfg.nextTick s.now
      { Envelope.new m s.nextId with consumerGroupId := group } with h | h
    · left
      rw [System.prepared, h]
      exact ⟨rfl, by simp [Envelope.toParams, Producible.toParams]⟩
    · right
      rw [System.prepared, h]
      exact ⟨rfl, by simp⟩

/-- The copy is not published, or stored as a new message. -/
def PublishArgs.StoredOrNot (type : QueueType) (db' : Keyspace) (a : PublishArgs) : Prop :=
  At db' a.id ⟨none, none⟩ ∨ ∃ p x, a.hash.message = some p ∧ At db' a.id x ∧
    Newborn type a.id p x ∧ PriorityFits type p.priority

section

variable (hs : Sane type s)
variable {db' : Keyspace} {t : Nanos}

include hs

/-- A step that publishes copies under fresh identifiers. -/
private theorem Sound.of_copies {children : List PublishArgs} {n : Nat}
    {extra : List Event} (hlog : s'.log = System.publishedCopies children s'.db ++ (extra ++ s.log))
    (hnext : s'.nextId = s.nextId + n) (hloaded : s'.loaded = s.loaded)
    (htasks : s'.tasks = s.tasks)
    (hextra : ∀ ev ∈ extra, (∀ m, ev.origin? m = none) ∧ ev.isPublication = true ∧ s'.Vouches ev)
    (hset : s'.db.queueType? = s.db.queueType?)
    (hid : ∀ a ∈ children, s.nextId ≤ a.id ∧ a.id < s.nextId + n)
    (hchild : ∀ a ∈ children, a.StoredOrNot type s'.db)
    (hother : ∀ m, (∀ a ∈ children, a.id ≠ m) → s'.db.core m = s.db.core m ∧
      (s.origin m = none → Spared m s.db s'.db)) : Sound type s s' := by
  have horigin : ∀ m, s'.origin m =
      ((System.publishedCopies children s'.db).findSome? (Event.origin? m)).or (s.origin m) := by
    intro m
    rw [System.origin, hlog, List.findSome?_append, List.findSome?_append,
      List.findSome?_eq_none_iff.2 fun ev hev => (hextra ev hev).1 m]
    rfl
  have hblank : ∀ m, (System.publishedCopies children s'.db).findSome? (Event.origin? m) = none →
      ∀ a ∈ children, a.id = m → At s'.db m ⟨none, none⟩ := by
    rintro m hnone a ha rfl
    rcases hchild a ha with hat | ⟨p, x, hp, hat, hborn, _⟩
    · exact hat
    have hget := hat.hash
    obtain ⟨h, hx, _⟩ := hborn.hash
    rw [hash_of_publishedCopies hnone ha rfl hp, hx] at hget
    cases hget
  refine ⟨hset, by rw [hnext]; exact Nat.le_add_right _ _, fun m => ?_, fun m hm hm' => ?_,
    fun m heq => ?_, fun _ _ h => .inl (hloaded ▸ h), fun _ _ h => .inl (htasks ▸ h),
    fun ev hev => ?_⟩
  · cases hfind : (System.publishedCopies children s'.db).findSome? (Event.origin? m) with
    | none => exact .inl (by rw [horigin, hfind]; rfl)
    | some p =>
      obtain ⟨a, ha, rfl, hp, hstored⟩ := findSome?_publishedCopies hfind
      refine .inr ⟨(hid a ha).1, hnext ▸ (hid a ha).2, ?_⟩
      rcases hchild a ha with hat | ⟨p', x, hp', hrest⟩
      · rw [hat.hash] at hstored
        cases hstored
      · cases hp.symm.trans hp'
        exact ⟨p, x, by rw [horigin, hfind]; rfl, hrest⟩
  · have hnone : (System.publishedCopies children s'.db).findSome? (Event.origin? m) = none := by
      rw [horigin, Option.or_eq_none_iff] at hm'
      exact hm'.1
    by_cases hex : ∃ a ∈ children, a.id = m
    · obtain ⟨a, ha, haid⟩ := hex
      exact hblank m hnone a ha haid
    · exact ((hother m fun a ha haid => hex ⟨a, ha, haid⟩).2 hm).at_iff.2 (hs.blank m hm)
  · by_cases hex : ∃ a ∈ children, a.id = m
    · obtain ⟨a, ha, rfl⟩ := hex
      rw [horigin, hs.fresh _ (hid a ha).1, Option.or_none] at heq
      have hat := hblank _ heq a ha rfl
      exact .inr (by simp [Keyspace.core, hat.hash])
    · exact .inl (hother m fun a ha haid => hex ⟨a, ha, haid⟩).1
  · rw [hlog] at hev
    rcases List.mem_append.1 hev with hev | hev
    · obtain ⟨a, ha, hmap⟩ := List.mem_filterMap.1 hev
      obtain ⟨p, hp, rfl⟩ := Option.map_eq_some_iff.1 hmap
      refine .inr (.inr ⟨rfl, ?_⟩)
      change (s'.origin a.id).isSome = true
      rw [horigin, Option.isSome_or, Bool.or_eq_true]
      exact .inl (List.findSome?_isSome_iff.2 ⟨_, hev, by simp [Event.origin?]⟩)
    · rcases List.mem_append.1 hev with hev | hev
      · exact .inr (.inr (hextra ev hev).2)
      · exact .inl hev

private theorem Sound.produce (m : Producible) (group : Option GroupId)
    (hdb : db' = (publishMessage (PublishArgs.ofEnvelope (s.prepared m group)) s.db).db) :
    Sound type s
      { s with
        db := db'
        nextId := s.nextId + 1
        log := System.publishedCopies [PublishArgs.ofEnvelope (s.prepared m group)] db' ++
          ((if (db'.hgetall s.nextId).isSome then [.produced s.nextId m] else []) ++ s.log) } := by
  have hid : (PublishArgs.ofEnvelope (s.prepared m group)).id = s.nextId := s.prepared_id m group
  have hparams : (s.prepared m group).toParams = m.toParams group := by
    obtain ⟨hm, hg, _⟩ := @Envelope.dispatch_frame s.cfg.nextTick s.now
      { Envelope.new m s.nextId with consumerGroupId := group }
    rw [Envelope.toParams, System.prepared, hm, hg]
    rfl
  have hframe := publishMessage_frame (PublishArgs.ofEnvelope (s.prepared m group)) s.db
  have hblank := hs.blank _ (hs.fresh s.nextId le_rfl)
  rw [← hid] at hblank
  have hfresh := hblank.publishMessage_fresh hs.type_eq
  rw [← hdb] at hframe hfresh
  refine .of_copies hs rfl rfl rfl rfl ?_ (Keyspace.queueType?_of_settings hframe.settings) ?_ ?_ ?_
  · intro ev hev
    split at hev
    · rename_i hsome
      rw [List.mem_singleton.1 hev]
      refine ⟨fun _ => rfl, rfl, group, ?_⟩
      change List.findSome? _ (_ ++ _) = _
      rw [← hid] at hsome ⊢
      have hmessage : (PublishArgs.ofEnvelope (s.prepared m group)).hash.message =
          some (m.toParams group) := congrArg some hparams
      rw [publishedCopies_singleton hsome hmessage]
      simp [Event.origin?]
    · cases hev
  · intro a ha
    rw [List.mem_singleton.1 ha, hid]
    exact ⟨le_rfl, Nat.lt_succ_self _⟩
  · intro a ha
    rw [List.mem_singleton.1 ha]
    refine hfresh.imp And.left fun h => ?_
    exact ⟨_, _, rfl, h.1, newborn_ofEnvelope s m group, h.2⟩
  · intro m hm
    have hne := (hm _ (List.mem_singleton.2 rfl)).symm
    exact ⟨core_of_hash (hframe.hash m hne), fun _ => hframe.spared hne⟩

private theorem Sound.requeueMessage {e : Envelope}
    {arg : RequeueCopyArg} (hload : s.hasLoaded .copier [e])
    (harg : arg = RequeueCopyArg.ofEnvelope s.cfg t s.nextId e)
    (hdb : db' = (RedisSmq.requeueMessage [arg] s.db).db) :
    Sound type s
      { s with
        db := db', nextId := s.nextId + 1
        log := System.publishedCopies [arg.child] db' ++ s.log } := by
  rw [requeueMessage_moves arg s.db (Keyspace.isSome_queue_of_queueType? hs.type_eq)] at hdb
  have hcopy := hs.loaded _ e (hload e (List.mem_singleton.2 rfl))
  have hid : arg.child.id = s.nextId := by rw [harg]; rfl
  have hblank := hs.blank _ (hs.fresh s.nextId le_rfl)
  have hne : arg.child.id ≠ arg.original := by
    rw [hid, harg]
    exact (ne_of_origin hcopy.origin_isSome (hs.fresh _ le_rfl)).symm
  rw [← hid] at hblank
  have hfresh := hblank.copyMove_copy hs.type_eq hne (by rw [harg]; rfl)
  rw [← hdb] at hfresh
  refine @Sound.of_copies _ _ _ hs _ _ [] rfl rfl rfl rfl
    (fun ev hev => absurd hev List.not_mem_nil)
    ?_ ?_ ?_ ?_
  · rw [hdb]
    exact Keyspace.queueType?_of_settings (settings_copyMove arg)
  · intro a ha
    rw [List.mem_singleton.1 ha, hid]
    exact ⟨le_rfl, Nat.lt_succ_self _⟩
  · intro a ha
    rw [List.mem_singleton.1 ha]
    refine hfresh.imp id fun h => ?_
    rw [harg] at h ⊢
    exact ⟨_, _, rfl, h.1, newborn_copy .., h.2⟩
  · intro m hm
    have hne := hm _ (List.mem_singleton.2 rfl)
    rw [hdb]
    refine ⟨copyMove_core hne, fun hnone => copyMove_spared hne fun _ => ?_⟩
    rw [(hs.blank m hnone).hash]
    rfl

/-- What a batch of due messages asks for. -/
theorem scheduledArgs_copies {batch : List Envelope} (hload : s.hasLoaded .scheduler batch) :
    (∀ a ∈ s.scheduledArgs batch t, a.Fits type) ∧
      (∀ a ∈ s.scheduledArgs batch t, (s.origin a.id).isSome = true) ∧
      ∀ a ∈ s.scheduledArgs batch t, ∀ nextAt child, a.next = some (nextAt, child) →
        (s.nextId ≤ child.id ∧ child.id < s.nextId + batch.length) ∧
          ∃ e publishedAt parent, child = PublishArgs.copy e publishedAt parent none := by
  refine ⟨fun a ha => ?_, fun a ha => ?_, fun a ha nextAt child hnext => ?_⟩
  all_goals
    obtain ⟨e, he, i, hle, hlt, rfl⟩ := ScheduledArg.mem_ofBatch ha
    have hcopy := hs.loaded _ e (hload e he)
  · exact ScheduledArg.fits_ofEnvelope (hs.copy_fits hcopy)
  · exact hcopy.origin_isSome
  · obtain ⟨_, rfl⟩ := ScheduledArg.next_ofEnvelope hnext
    exact ⟨⟨hle, hlt⟩, _, _, _, rfl⟩

/-- The copies of due messages are new. -/
theorem scheduledArgs_new {batch : List Envelope} (hload : s.hasLoaded .scheduler batch) :
    ∀ m ∈ copyIds (s.scheduledArgs batch t),
      s.nextId ≤ m ∧ ∀ a ∈ s.scheduledArgs batch t, a.id ≠ m := by
  obtain ⟨-, hnamed, hcopies⟩ := scheduledArgs_copies (t := t) hs hload
  intro m hm
  obtain ⟨b, hb, hmap⟩ := List.mem_filterMap.1 hm
  obtain ⟨⟨nextAt, child⟩, hnext, rfl⟩ := Option.map_eq_some_iff.1 hmap
  have hle := (hcopies b hb nextAt child hnext).1.1
  exact ⟨hle, fun a ha => (hs.fresh_ne hle (hnamed a ha)).symm⟩

theorem scheduledArgs_group {batch : List Envelope} (hload : s.hasLoaded .scheduler batch) :
    ∀ a ∈ s.scheduledArgs batch t, ∃ p, s.origin a.id = some p ∧ a.group = p.consumerGroupId := by
  intro a ha
  obtain ⟨e, he, i, _, _, rfl⟩ := ScheduledArg.mem_ofBatch ha
  exact (hs.loaded _ e (hload e he)).origin_group

private theorem Sound.publishScheduled {batch : List Envelope}
    (hload : s.hasLoaded .scheduler batch)
    (hdb : db' = (RedisSmq.publishScheduled (s.scheduledArgs batch t) s.db).db) :
    Sound type s
      { s with
        db := db', nextId := s.nextId + batch.length
        log := System.publishedCopies
          ((s.scheduledArgs batch t).filterMap fun a => a.next.map Prod.snd) db' ++ s.log } := by
  obtain ⟨hfit, hnamed, hchild⟩ := scheduledArgs_copies (t := t) hs hload
  have hmem : ∀ {child},
      child ∈ ((s.scheduledArgs batch t).filterMap fun a => a.next.map Prod.snd) →
      ∃ a ∈ s.scheduledArgs batch t, ∃ nextAt, a.next = some (nextAt, child) := by
    intro child hmem
    obtain ⟨a, ha, hmap⟩ := List.mem_filterMap.1 hmem
    obtain ⟨⟨nextAt, _⟩, hnext, rfl⟩ := Option.map_eq_some_iff.1 hmap
    exact ⟨a, ha, nextAt, hnext⟩
  have hfresh : ∀ {m}, s.nextId ≤ m → ∀ a ∈ s.scheduledArgs batch t, a.id ≠ m :=
    fun hm a ha => ne_of_origin (hnamed a ha) (hs.fresh _ hm)
  refine @Sound.of_copies _ _ _ hs _ _ [] rfl rfl rfl rfl
    (fun ev hev => absurd hev List.not_mem_nil)
    ?_ ?_ ?_ ?_
  · rw [hdb]
    exact Keyspace.queueType?_of_settings (settings_publishScheduled hs.type_eq hfit)
  · intro child hc
    obtain ⟨a, ha, nextAt, hnext⟩ := hmem hc
    exact (hchild a ha nextAt child hnext).1
  · intro child hc
    obtain ⟨a, ha, nextAt, hnext⟩ := hmem hc
    obtain ⟨⟨hle, _⟩, e, publishedAt, parent, hcopy⟩ := hchild a ha nextAt child hnext
    have hat := At.publishScheduled_copy ha hnext (hs.blank _ (hs.fresh _ hle)) hs.type_eq hfit
      (hfresh hle) (ScheduledArg.nodup_copyIds batch)
    have hpriority := ((hfit a ha).child nextAt child hnext).2.2
    rw [← hdb] at hat
    refine hat.imp id fun h => ?_
    rw [hcopy] at h hpriority ⊢
    exact ⟨_, _, rfl, h, newborn_copy .., hpriority⟩
  · intro m hm
    have hne : ∀ a ∈ s.scheduledArgs batch t, ∀ nextAt child, a.next = some (nextAt, child) →
        child.id ≠ m := fun a ha nextAt child hnext =>
      hm child (List.mem_filterMap.2 ⟨a, ha, by simp [hnext]⟩)
    rw [hdb]
    refine ⟨publishScheduled_core hs.type_eq hfit hne, fun hnone => ?_⟩
    exact publishScheduled_spared hs.type_eq hfit hne fun a ha hid =>
      absurd hid (ne_of_origin (hnamed a ha) hnone)

private theorem Sound.checkout {id : MessageId} {group : Option GroupId} {h : MessageHash}
    (hmem : (c, Task.popped id group) ∈ s.tasks) (hget : s.db.hgetall id = some h)
    (hdb : db' = ((s.db.hset id (checkoutWrite (toMillis s.now))).hincrby .processing 1).hincrby
      .pending (-1)) :
    Sound type s
      { s with
        db := db'
        nextId := s.nextId + 1
        tasks := s.proceed c (.popped id group) (s.received id (checkoutWrite (toMillis s.now) h))
        log := .checkedOut c id (decide (id ∈ s.db.lists (.processing c))) :: s.log } := by
  have hsome := (hs.tasks _ _ hmem).1
  have hframe : Frame id s.db db' := by
    rw [hdb]
    exact (((Frame.refl id s.db).hset _).hincrby _ _).hincrby _ _
  refine .of_db hs [_] rfl (fun ev hev => ?_) (Keyspace.queueType?_of_settings hframe.settings)
    (Nat.le_succ _) (fun m hm => hframe.spared ?_) ?_ rfl (taskCopies_proceed fun t ht => ?_)
  · rw [List.mem_singleton.1 hev]
    exact ⟨rfl, hsome⟩
  · exact (ne_of_origin hsome hm).symm
  · rw [hdb]
    exact .of_eq fun m => core_hset (f := checkoutWrite (toMillis s.now)) fun _ => ⟨rfl, rfl⟩
  · obtain ⟨e, rfl, _, hcopy⟩ := hs.received hget t ht
    exact taskCopies_of_copy rfl (.inr rfl) hcopy

/-- A script that reports nothing and leaves the goroutines alone. -/
private theorem Sound.of_script (htype : db'.queueType? = s.db.queueType?)
    (hspared : ∀ m, s.origin m = none → Spared m s.db db') (hcore : s.db.KeepsCore db') :
    Sound type s { s with db := db' } :=
  .of_db hs [] rfl (fun _ hev => absurd hev List.not_mem_nil) htype le_rfl hspared hcore rfl
    fun _ _ h => .inl h

private theorem Sound.deleteGroup (g : GroupId) (keys : Option GroupId) :
    Sound type s { s with db := (deleteConsumerGroup g keys s.db).2 } := by
  refine .of_script hs ?_ (fun m hm => ?_) (.of_books (deleteConsumerGroup_books hs.type_eq g keys))
  · rcases deleteConsumerGroup_cases hs.type_eq g keys with h | ⟨_, h⟩ <;> rw [h]
    rfl
  · refine deleteConsumerGroup_spared hs.type_eq g keys fun p hp _ => ?_
    rw [(hs.blank m hm).occ p (by rcases hp with rfl | rfl <;> rfl)]
    simp

private theorem Sound.pop {group : Option GroupId} {type' : QueueType} {id : MessageId}
    (hpop : RedisSmq.pop type' group c s.db = (some id, db')) :
    Sound type s { s with db := db', tasks := (c, .popped id group) ::ₘ s.tasks } := by
  obtain ⟨hocc, hframe, _⟩ := pop_spec hpop
  have hsome := hs.origin_isSome (holds_pendingSlot _ _) hocc
  refine .of_db hs [] rfl (fun _ hev => absurd hev List.not_mem_nil)
    (Keyspace.queueType?_of_settings hframe.settings) le_rfl
    (fun m hm => hframe.spared (ne_of_origin hsome hm).symm) (.of_books (pop_books hpop)) rfl
    fun c' t ht => ?_
  rcases Multiset.mem_cons.1 ht with heq | ht
  · cases heq
    exact .inr (taskCopies_of_id rfl hsome)
  · exact .inl ht

private theorem Sound.acknowledge {batch : List (MessageId × Nat)}
    {run : Outcome (Except Refusal (List (MessageId × Bool)))}
    (htasks : System.ackTasks c batch ≤ s.tasks)
    (hrun : run = acknowledgeMessage s.cfg c (toMillis t) (batch.map Prod.fst) s.db) :
    Sound type s
      { s with
        db := run.db
        tasks := s.tasks - System.ackTasks c batch + System.ackAftermath c batch run.reply
        log := (s.effective Prod.fst c batch).map (fun b =>
          .settled c b.1 (some b.2) (s.delivery b.1) none) ++ s.log } := by
  subst hrun
  have hacking : ∀ b ∈ batch, (s.origin b.1).isSome = true := fun b hb =>
    (hs.tasks _ _ (Multiset.mem_of_le htasks (Multiset.mem_coe.2 (List.mem_map_of_mem hb)))).1
  refine .of_db hs _ rfl (fun ev hev => ?_)
    (Keyspace.queueType?_of_settings (settings_acknowledgeMessage _)) le_rfl
    (fun m hm => acknowledgeMessage_spared fun hmem => ?_)
    (acknowledgeMessage_core _) rfl (taskCopies_aftermath hs htasks)
  · obtain ⟨b, hb, rfl⟩ := List.mem_map.1 hev
    exact ⟨rfl, hacking b (mem_of_mem_effective hb).1⟩
  · obtain ⟨b, hb, hid⟩ := List.mem_map.1 hmem
    exact absurd hid (ne_of_origin (hacking b hb) hm)

private theorem Sound.delete {group : Option GroupId} {lock : Option LockId}
    {batch : List Envelope} (hload : s.hasLoaded .deleter batch)
    (hdb : db' = (deleteMessage group lock (batch.map Envelope.id) s.db).db) :
    Sound type s
      { s with
        db := db'
        log := ((batch.map Envelope.id).filter fun id =>
          (s.db.hgetall id).isSome && (db'.hgetall id).isNone).map Event.deleted ++ s.log } := by
  subst hdb
  refine .of_db hs _ rfl (fun ev hev => ?_)
    (Keyspace.queueType?_of_settings (settings_deleteMessage _ _)) le_rfl
    (fun m hm => deleteMessage_spared _ _ fun _ => ?_)
    (deleteMessage_core _ _ _) rfl fun _ _ h => .inl h
  · obtain ⟨id, hid, rfl⟩ := List.mem_map.1 hev
    obtain ⟨e, he, rfl⟩ := List.mem_map.1 (List.mem_filter.1 hid).1
    exact ⟨rfl, (hs.loaded _ e (hload e he)).origin_isSome⟩
  · rw [Keyspace.status, (hs.blank m hm).hash]
    rfl

/-- Every step keeps what goes back to publications. -/
theorem Sane.sound {a : Action} (h : Step s a s') : Sound type s s' := by
  have hkeep : ∀ {tasks : Multiset (ConsumerId × Task)}, tasks ≤ s.tasks → ∀ c t, (c, t) ∈ tasks →
      (c, t) ∈ s.tasks ∨ s.TaskCopies t := fun hle _ _ h => .inl (Multiset.mem_of_le hle h)
  have hnamed : ∀ {w t} {batch : List Envelope}, s.hasLoaded w batch → ∀ {m}, s.origin m = none →
      ∀ a ∈ batch.map (RequeueArg.ofEnvelope t), a.id ≠ m := by
    intro w t batch hload m hm a ha
    obtain ⟨p, hp, _⟩ := hs.requeueArgs_group hload a ha
    exact ne_of_origin (by rw [hp]; rfl) hm
  have hquiet : ∀ ev ∈ ([] : List Event), s.Reports ev := fun ev hev => absurd hev List.not_mem_nil
  cases h with
  | task hmem hgo =>
    exact .of_db_eq hs _ rfl (reports_goes hgo (hs.tasks _ _ hmem)) rfl (Nat.le_add_right _ _)
      (fun _ _ h => .inl h) (taskCopies_proceed (taskCopies_goes hs hgo (hs.tasks _ _ hmem)))
  | crash =>
    exact .of_db_eq hs [] rfl hquiet rfl le_rfl (fun _ _ h => .inl h)
      (hkeep (Multiset.filter_le _ _))
  | fetch | tick | configure =>
    exact .of_db_eq hs [] rfl hquiet rfl le_rfl (fun _ _ h => .inl h) (hkeep le_rfl)
  | load hw =>
    refine .of_db_eq hs [] rfl hquiet rfl (Nat.le_succ _) (fun w e h => ?_) (hkeep le_rfl)
    rcases List.mem_append.1 h with h | h
    · obtain ⟨e', he', heq⟩ := List.mem_map.1 h
      cases heq
      exact .inr (hs.load (Option.mem_toList.1 he')).2
    · exact .inl h
  | @setState newState expected lock =>
    refine .of_script hs ?_ (fun m _ => setQueueState_spared _ _ _ _ m)
      (.of_books (setQueueState_books _ _ _ _))
    rcases setQueueState_cases newState expected lock s.db with h | ⟨q, lockId, hq, h⟩ <;> rw [h]
    simp [Keyspace.queueType?, hq]
  | saveGroup =>
    refine .of_script hs rfl (fun m _ => ?_) (.of_eq fun _ => rfl)
    exact ⟨rfl, fun p _ => by cases p <;> rfl, fun p => by cases p <;> exact le_rfl⟩
  | deleteGroup => exact .deleteGroup hs _ _
  | expire hk =>
    exact .of_script hs rfl (fun m _ => expire_spared hk m s.db) (.of_eq fun _ => rfl)
  | produce hm hdb => exact Sound.produce hs _ _ hdb
  | pop hc htype hpop => exact .pop hs hpop
  | checkout hmem hstate hget hst hdb => exact Sound.checkout hs hmem hget hdb
  | acknowledge htasks ht hrun => exact .acknowledge hs htasks hrun
  | unacknowledge htasks ht =>
    refine .unackBatch hs (fun b hb => ?_) (Multiset.sub_le_self _ _)
    exact (hs.tasks _ _
      (Multiset.mem_of_le htasks (Multiset.mem_coe.2 (List.mem_map_of_mem hb)))).1
  | reap hload ht =>
    refine .unackBatch hs (fun b hb => ?_) le_rfl
    obtain ⟨e, he, rfl⟩ := List.mem_map.1 hb
    exact (hs.loaded _ e (hload e he)).origin_isSome
  | @requeueImmediate batch t hload ht =>
    have hfit := hs.requeueArgs_fit (t := t) hload
    refine .of_script hs
      (Keyspace.queueType?_of_settings (settings_requeueImmediate hs.type_eq hfit))
      (fun m hm => ?_) (requeueImmediate_core hs.type_eq hfit)
    exact requeueImmediate_spared hs.type_eq hfit fun a ha hid => absurd hid (hnamed hload hm a ha)
  | @requeueDelayed batch t hload ht =>
    have hfit := hs.requeueArgs_fit (t := t) hload
    refine .of_script hs (Keyspace.queueType?_of_settings (settings_requeueDelayed hs.type_eq hfit))
      (fun m hm => ?_) (requeueDelayed_core hs.type_eq hfit)
    exact requeueDelayed_spared hs.type_eq hfit fun a ha hid => absurd hid (hnamed hload hm a ha)
  | publishScheduled hload hgroup hnodup ht hdb => exact Sound.publishScheduled hs hload hdb
  | delete hload hgroup hdb => exact .delete hs hload hdb
  | requeueMessage hload hstatus ht harg hdb => exact Sound.requeueMessage hs hload harg hdb

theorem Sane.step {a : Action} (h : Step s a s') : Sane type s' :=
  hs.of_sound (hs.sound h)

theorem Sane.runs {as : List Action} (hrun : s.Runs as s') : Sane type s' :=
  Run.invariant (fun _ _ _ hs hstep => hs.step (.of_step hstep)) hs hrun

end

end Steps

end RedisSmq
