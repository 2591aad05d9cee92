import RedisSmq.System.Conduct
import RedisSmq.System.Origin
import RedisSmq.Track.Basic

/-!
# The system as seen from one message

Every step of the system is, for a message that is already published, a step of its
track. So an invariant of tracks that holds when a message is published holds of every
message in every run. The steps of the system must keep to the discipline of the track,
and a due periodic message must still be in the schedule when it is put back there.
-/

namespace RedisSmq

/-- The action keeps to the discipline, as far as the message `m` is concerned. -/
structure Obeys (d : Discipline) (m : MessageId) (s : System) (a : Action) : Prop where
  reschedules : ∀ group batch t, a = .publishScheduled group batch t →
    ∀ arg ∈ s.scheduledArgs batch t, arg.id = m → s.db.ReschedulesInPlace arg
  late : ∀ c e k started, a = .lateTimeout c e k started →
    (c, Task.returning e k started) ∈ s.tasks →
    e.timesOut started s.now → e.id = m → d.firesLate
  reaps : ∀ c, a = .load (.reaper c) m → d.reapsLive ∨ c ∈ s.crashed
  settles : ∀ c ids, a.settles = some (c, ids) → m ∈ ids → s.db.accepts = true →
    m ∈ s.db.lists (.processing c) →
      d.settlesPopped ∨ ∀ task ∈ s.tasks, task.1 = c → task.2.id = m → task.2.isPopped = false
  deletes : ∀ group lock batch, a = .delete group lock batch → m ∈ batch.map Envelope.id →
    d.deletesPopped ∨ (s.db.status m = some .pending →
      ∀ type ∈ s.db.queueType?, 0 < s.db.occ (pendingSlot type group) m)

theorem Obeys.of_conduct {d : Discipline} {s : System} {a : Action}
    (hplace : s.ReschedulesInPlace a) (hlate : d.firesLate ∨ a.isLate = false)
    (hreaps : d.reapsLive ∨ s.ReapsCrashed a) (hsettles : d.settlesPopped ∨ s.SettlesNotPopped a)
    (hdeletes : d.deletesPopped ∨ s.DeletesInPlace a) (m : MessageId) : Obeys d m s a where
  reschedules group batch t ha arg harg _ := by
    subst ha
    exact hplace (batch, t) rfl arg harg
  late c e k started ha _ _ _ := by
    subst ha
    exact hlate.resolve_right fun h => by cases h
  reaps c ha := by
    subst ha
    exact hreaps.imp_right fun h => h c rfl
  settles c ids ha hm hacc hheld := hsettles.imp_right fun h => h (c, ids) ha hacc m hm hheld
  deletes group lock batch ha hm := by
    subst ha
    exact hdeletes.imp_right fun h => h (group, batch.map Envelope.id) rfl m hm

namespace System

/-- What concerns the message `m`. -/
def track (s : System) (m : MessageId) (x : Life) : Track where
  life := x
  tasks := s.tasks.filter fun task => task.2.id = m
  crashed := s.crashed
  reaps := {r | (Worker.reaper r.1, r.2) ∈ s.loaded ∧ r.2.id = m}
  log := s.log.filter (Event.tells m)

variable {s s' : System} {m : MessageId} {x : Life}

theorem deliveries_track : (s.track m x).deliveries m = s.deliveries m := by
  unfold Track.deliveries System.deliveries
  change (s.log.filter (Event.tells m)).countP (Event.isCheckout m) = _
  rw [List.countP_filter]
  refine List.countP_congr fun ev _ => ?_
  cases ev <;> simp [Event.isCheckout, Event.tells]

theorem delivery_track (hx : At s.db m x) : (s.track m x).delivery m = s.delivery m := by
  unfold Track.delivery System.delivery
  rw [deliveries_track, hx.status_eq]
  rfl

/-- A step that loads nothing changes a track in its life, tasks and log, or by a crash. -/
theorem track_eq (x : Life) {x' : Life} {tasks : Multiset (ConsumerId × Task)} {log : List Event}
    (htasks : s'.tasks.filter (fun task => task.2.id = m) = tasks) (hloaded : s'.loaded = s.loaded)
    (hlog : s'.log.filter (Event.tells m) = log) :
    s'.track m x' =
      { s.track m x with life := x', tasks := tasks, crashed := s'.crashed, log := log } := by
  simp only [track, htasks, hloaded, hlog]

/-- The tasks of a message after a goroutine went on. -/
theorem filter_proceed {c : ConsumerId} {old : Task} {new : Multiset Task}
    (hnew : ∀ t ∈ new, t.id = old.id) :
    (s.proceed c old new).filter (fun task => task.2.id = m) =
      if old.id = m then
        (s.tasks.filter fun task => task.2.id = m).erase (c, old) + new.map fun t => (c, t)
      else s.tasks.filter fun task => task.2.id = m := by
  unfold System.proceed
  rw [Multiset.filter_add, ← Multiset.sub_singleton, Multiset.filter_sub, Multiset.filter_map]
  by_cases hm : old.id = m
  · have hall : ∀ t ∈ new, ((fun task : ConsumerId × Task => task.2.id = m) ∘ fun t => (c, t)) t :=
      fun t ht => (hnew t ht).trans hm
    rw [if_pos hm, Multiset.filter_eq_self.2 hall, Multiset.filter_singleton, if_pos hm,
      Multiset.sub_singleton]
  · have hnone : ∀ t ∈ new, ¬((fun task : ConsumerId × Task => task.2.id = m) ∘
        fun t => (c, t)) t := fun t ht h => hm ((hnew t ht).symm.trans h)
    rw [if_neg hm, Multiset.filter_eq_nil.2 hnone, Multiset.filter_singleton, if_neg hm]
    simp

end System

section Tasks

variable {type : QueueType} {d : Discipline} {s : System} {m : MessageId} {x : Life}

private theorem tells_goes {a : Action} {c : ConsumerId} {old : Task} {new : Multiset Task}
    {events : List Event} (hgo : Goes s a c old new events) :
    events.filter (Event.tells m) = [] := by
  cases hgo <;> rfl

/-- A goroutine goes on as the track of its message says. -/
private theorem continues_goes {a : Action} {c : ConsumerId} {old : Task} {new : Multiset Task}
    {events : List Event} (hmem : (c, old) ∈ s.tasks) (hgo : Goes s a c old new events)
    (hold : old.id = m) (hx : At s.db m x) (hd : Obeys d m s a) : Track.Continues d x old new := by
  have hone : ∀ t : Task, ({t} : Multiset Task).countP (fun t => t.isToken = true) ≤ 1 :=
    fun t => Multiset.countP_le_card _ _
  have htwo : ∀ t u : Task, u.isToken = false →
      ({t, u} : Multiset Task).countP (fun t => t.isToken = true) ≤ 1 := by
    intro t u hu
    rw [Multiset.pair_comm, Multiset.insert_eq_cons,
      Multiset.countP_cons_of_neg _ (by simp [hu])]
    exact hone t
  cases hgo with
  | reloaded he =>
    obtain ⟨h, hget, hdecode⟩ := Option.bind_eq_some_iff.1 he
    refine ⟨by simp [Task.isPopped], by simp [Task.delivery], .inr (hone _), ?_⟩
    intro t ht e' he'
    rw [Multiset.mem_singleton.1 ht] at he'
    cases he'
    exact .inr ⟨h, by rw [← hx.hash, ← hold]; exact hget, _, _, _, hdecode⟩
  | late ht =>
    refine ⟨by simp [Task.isPopped], by simp [Task.delivery],
      .inl (hd.late _ _ _ _ rfl hmem ht hold), ?_⟩
    intro t ht e' he'
    rw [Multiset.mem_singleton.1 ht] at he'
    exact .inl he'
  | acked =>
    refine ⟨by simp [Task.isPopped], by simp [Task.delivery], .inr (htwo _ _ rfl), ?_⟩
    intro t ht e' he'
    rcases Multiset.mem_cons.1 ht with rfl | ht
    · cases he'
    · rw [Multiset.mem_singleton.1 ht] at he'
      exact .inl he'
  | failed | timedOut =>
    refine ⟨by simp [Task.isPopped], by simp [Task.delivery], .inr (htwo _ _ rfl), ?_⟩
    intro t ht e' he'
    rcases Multiset.mem_cons.1 ht with rfl | ht
    · exact .inl he'
    · rw [Multiset.mem_singleton.1 ht] at he'
      exact .inl he'
  | refused hr =>
    refine ⟨by simp [Task.isPopped], by simp [Task.delivery], .inr (hone _), ?_⟩
    intro t ht e' he'
    rw [Multiset.mem_singleton.1 ht] at he'
    cases he'
  | expired | handed =>
    refine ⟨by simp [Task.isPopped], by simp [Task.delivery], .inr (hone _), ?_⟩
    intro t ht e' he'
    rw [Multiset.mem_singleton.1 ht] at he'
    exact .inl he'
  | _ => exact ⟨by simp, by simp, .inr (by simp), by simp⟩

end Tasks

section Settle

variable {β : Type} {type : QueueType} {group : Option GroupId} {d : Discipline} {s : System}
variable {m : MessageId} {x : Life}

theorem filter_removals (key : β → MessageId) (l : List MessageId) (batch : List β)
    (m : MessageId) :
    (removals key l batch).filter (fun b => key b = m) =
      (batch.filter fun b => key b = m).take (l.count m) := by
  induction batch generalizing l with
  | nil => simp [removals]
  | cons b batch ih =>
    unfold removals
    by_cases hl : key b ∈ l
    · rw [if_pos hl]
      by_cases hm : key b = m
      · subst hm
        obtain ⟨n, hn⟩ := Nat.exists_eq_succ_of_ne_zero (List.count_pos_iff.2 hl).ne'
        rw [List.filter_cons_of_pos (by simp), List.filter_cons_of_pos (by simp), ih,
          List.count_erase_self, hn]
        rfl
      · rw [List.filter_cons_of_neg (by simpa using hm),
          List.filter_cons_of_neg (by simpa using hm),
          ih, List.count_erase_of_ne (Ne.symm hm)]
    · rw [if_neg hl, ih]
      by_cases hm : key b = m
      · subst hm
        rw [List.count_eq_zero.2 hl]
        simp
      · rw [List.filter_cons_of_neg (by simpa using hm)]

/-- A settlement takes effect on a message at most once. -/
theorem filter_effective (hx : At s.db m x) (key : β → MessageId) (c : ConsumerId)
    (batch : List β) :
    (s.effective key c batch).filter (fun b => key b = m) =
      if s.db.accepts = true ∧ x.heldBy c then (batch.filter fun b => key b = m).take 1
      else [] := by
  have hcount : (s.db.lists (.processing c)).count m = if x.heldBy c then 1 else 0 :=
    hx.occ (.list (.processing c)) rfl
  unfold System.effective
  by_cases hacc : s.db.accepts = true
  · rw [if_pos hacc, filter_removals, hcount]
    by_cases hheld : x.heldBy c
    · rw [if_pos hheld, if_pos ⟨hacc, hheld⟩]
    · rw [if_neg hheld, if_neg fun h => hheld h.2]
      rfl
  · rw [if_neg hacc, if_neg fun h => hacc h.1]
    rfl

/-- The tasks of a batch that concern the message. -/
private theorem filter_tasks (f : β → ConsumerId × Task) (key : β → MessageId)
    (hf : ∀ b, (f b).2.id = key b) (batch : List β) :
    Multiset.filter (fun task : ConsumerId × Task => task.2.id = m) (batch.map f : List _) =
      ((batch.filter fun b => key b = m).map f : List (ConsumerId × Task)) := by
  rw [Multiset.filter_coe, List.filter_map]
  congr 3
  funext b
  simp [hf]

/-- The part of the log that a batch of settlements adds for the message. -/
private theorem filter_settled (f : β → Event) (key : β → MessageId)
    (hf : ∀ b, (f b).tells m = decide (key b = m)) (batch : List β) :
    (batch.map f).filter (Event.tells m) = (batch.filter fun b => key b = m).map f := by
  rw [List.filter_map]
  congr 2
  funext b
  simp [hf]

/-- A batch of settlements seen from one message. -/
private theorem follow_settle {s' : System} (c : ConsumerId) {x' : Life}
    (settled failed : Multiset (ConsumerId × Task)) {events : List Event}
    (htasks : s'.tasks = s.tasks - settled + failed) (hcrashed : s'.crashed = s.crashed)
    (hloaded : s'.loaded = s.loaded) (hlog : s'.log = events ++ s.log) (hle : settled ≤ s.tasks)
    (hsettled : ∀ task ∈ settled, task.1 = c ∧ task.2.isSettling = true)
    (hcard : (failed.filter fun task => task.2.id = m).card ≤
      (settled.filter fun task => task.2.id = m).card)
    (hfailed : ∀ task ∈ failed, ∃ id k cause, task = (c, Task.ackFailed id k cause) ∧
      (c, Task.acking id k) ∈ settled)
    (heffect : (s.track m x).Settlement d m c (settled.filter fun task => task.2.id = m) x'
      (events.filter (Event.tells m))) : (s.track m x).Step d type group m (s'.track m x') := by
  have htasks' : s'.tasks.filter (fun task => task.2.id = m) = (s.track m x).tasks -
      settled.filter (fun task => task.2.id = m) + failed.filter fun task => task.2.id = m := by
    rw [htasks, Multiset.filter_add, Multiset.filter_sub]
    rfl
  have hlog' : s'.log.filter (Event.tells m) =
      events.filter (Event.tells m) ++ (s.track m x).log := by
    rw [hlog, List.filter_append]
    rfl
  rw [System.track_eq x htasks' hloaded hlog', hcrashed]
  refine .settle (c := c) (Multiset.filter_le_filter _ hle)
    (fun task h => hsettled task (Multiset.mem_filter.1 h).1) hcard (fun task h => ?_) heffect
  obtain ⟨hmem, hid⟩ := Multiset.mem_filter.1 h
  obtain ⟨id, k, cause, rfl, hacking⟩ := hfailed task hmem
  obtain rfl : id = m := hid
  exact ⟨k, cause, rfl, Multiset.mem_filter.2 ⟨hacking, rfl⟩⟩

/-- The first entry of a batch for the message is the one that counts. -/
private theorem first_of_batch (key : β → MessageId) (batch : List β) :
    (∀ b ∈ batch, key b ≠ m) ∧ batch.filter (fun b => decide (key b = m)) = [] ∨
      ∃ b rest, b ∈ batch ∧ key b = m ∧ batch.find? (fun b => decide (key b = m)) = some b ∧
        batch.filter (fun b => decide (key b = m)) = b :: rest := by
  cases h : batch.filter fun b => decide (key b = m) with
  | nil => exact .inl ⟨fun b hb hm => by simpa [hm] using List.filter_eq_nil_iff.1 h b hb, rfl⟩
  | cons b rest =>
    have hb : b ∈ batch.filter fun b => decide (key b = m) := by simp [h]
    refine .inr ⟨b, rest, (List.mem_filter.1 hb).1,
      by simpa using (List.mem_filter.1 hb).2, ?_, rfl⟩
    rw [← List.head?_filter, h]
    rfl

private theorem follow_acknowledge {c : ConsumerId} {batch : List (MessageId × Nat)} {t : Nanos}
    (hx : At s.db m x) (hd : Obeys d m s (.acknowledge c batch t))
    (htasks : System.ackTasks c batch ≤ s.tasks) {run : Outcome (Except Refusal _)}
    (hrun : run = acknowledgeMessage s.cfg c (toMillis t) (batch.map Prod.fst) s.db) :
    ∃ x', At run.db m x' ∧ (s.track m x).Step d type group m
      (System.track
        { s with
          db := run.db
          tasks := s.tasks - System.ackTasks c batch + System.ackAftermath c batch run.reply
          log := (s.effective Prod.fst c batch).map (fun b =>
            .settled c b.1 (some b.2) (s.delivery b.1) none) ++ s.log } m x') := by
  have hat := @At.acknowledgeMessage s.cfg c (toMillis t) s.db m x (batch.map Prod.fst) hx
  rw [← hrun] at hat
  have haftermath : System.ackAftermath c batch run.reply = 0 ∨
      ∃ cause, System.ackAftermath c batch run.reply =
        (batch.map fun b => (c, Task.ackFailed b.1 b.2 cause) : List (ConsumerId × Task)) := by
    unfold System.ackAftermath
    split
    · exact .inl rfl
    · exact .inr ⟨_, rfl⟩
    · exact .inr ⟨_, rfl⟩
  refine ⟨_, hat, follow_settle c _ _ rfl rfl rfl rfl htasks (fun task htask => ?_) ?_
    (fun task htask => ?_) ?_⟩
  · obtain ⟨b, _, rfl⟩ := List.mem_map.1 (Multiset.mem_coe.1 htask)
    exact ⟨rfl, rfl⟩
  · rcases haftermath with h | ⟨cause, h⟩
    · simp [h]
    rw [h, System.ackTasks, filter_tasks _ Prod.fst fun _ => rfl,
      filter_tasks _ Prod.fst fun _ => rfl]
    simp
  · rcases haftermath with h | ⟨cause, h⟩
    · rw [h] at htask
      exact absurd htask (Multiset.notMem_zero _)
    rw [h] at htask
    obtain ⟨b, hb, rfl⟩ := List.mem_map.1 (Multiset.mem_coe.1 htask)
    exact ⟨b.1, b.2, cause, rfl, Multiset.mem_coe.2 (List.mem_map_of_mem hb)⟩
  · rw [filter_settled _ Prod.fst fun _ => rfl, filter_effective hx, System.ackTasks,
      filter_tasks _ Prod.fst fun _ => rfl]
    rcases first_of_batch (m := m) Prod.fst batch with ⟨hnone, hnil⟩ | ⟨b, rest, hb, rfl, _, hcons⟩
    · rw [hnil, if_neg fun h => ?_]
      · rw [List.take_nil, ite_self]
        exact .idle
      · obtain ⟨b, hb, hbm⟩ := List.mem_map.1 h.2
        exact hnone b hb hbm
    · have hmem : b.1 ∈ batch.map Prod.fst := List.mem_map_of_mem hb
      by_cases heffect : s.db.accepts = true ∧ x.heldBy c
      · obtain ⟨hacc, hheld⟩ := heffect
        rw [if_pos ⟨hacc, hmem⟩, if_pos ⟨hacc, hheld⟩, hcons, List.take_succ_cons, List.take_zero,
          List.map_singleton, ← System.delivery_track hx]
        refine .acknowledge _ (Multiset.mem_coe.2 List.mem_cons_self) hheld ?_
        refine (hd.settles c _ rfl hmem hacc ((hx.mem_list rfl).2 hheld)).imp_right ?_
        exact fun h task htask hc => h task (Multiset.mem_filter.1 htask).1 hc
          (Multiset.mem_filter.1 htask).2
      · have hsame : (if s.db.accepts = true ∧ b.1 ∈ batch.map Prod.fst
            then x.acknowledge c (toMillis t) else x) = x := by
          split
          · rename_i h
            exact if_neg fun hheld => heffect ⟨h.1, hheld⟩
          · rfl
        rw [hsame, if_neg heffect]
        exact .idle

/-- The effect of `unacknowledge-message` on one message, by a consumer or by its reaper. -/
private theorem follow_unackBatch (c : ConsumerId)
    (batch : List (Envelope × Option Nat × UnackCause)) (t : Nanos)
    (settled : Multiset (ConsumerId × Task)) (a : Action) (hx : At s.db m x) (hd : Obeys d m s a)
    (ha : a.settles = some (c, batch.map fun b => b.1.id))
    (hwhy : ∀ b ∈ batch, b.1.id = m → (c, Task.unacking b.1 b.2.1 b.2.2) ∈ settled ∨
      b.2 = (none, .offlineConsumer) ∧ (c, b.1) ∈ (s.track m x).reaps) :
    ∃ x', At (s.unackBatch c batch t).1 m x' ∧ (s.track m x).Settlement d m c settled x'
      ((s.unackBatch c batch t).2.filter (Event.tells m)) := by
  have hat := @At.unacknowledgeMessage s.cfg c s.db m x
    (batch.map fun b => UnackArg.ofEnvelope s.cfg t b.1 b.2.2) hx
  refine ⟨_, hat, ?_⟩
  have hevents : (s.unackBatch c batch t).2.filter (Event.tells m) =
      (if s.db.accepts = true ∧ x.heldBy c then
        (batch.filter fun b => b.1.id = m).take 1 else []).map fun b =>
          .settled c b.1.id b.2.1 (s.delivery b.1.id)
            (some (s.now, (resolveUnackAction t b.1 b.2.2).retries)) := by
    rw [← filter_effective hx]
    exact filter_settled _ (fun b : Envelope × Option Nat × UnackCause => b.1.id) (fun _ => rfl) _
  have hfirst : x.afterFirst UnackArg.id (fun a x => x.unacknowledge c a)
      (batch.map fun b => UnackArg.ofEnvelope s.cfg t b.1 b.2.2) m =
        (batch.find? fun b => decide (b.1.id = m)).elim x fun b =>
          x.unacknowledge c (UnackArg.ofEnvelope s.cfg t b.1 b.2.2) := by
    unfold Life.afterFirst
    rw [List.find?_map]
    cases hfind : batch.find? fun b => decide (b.1.id = m) with
    | none | some => simp [Function.comp_def, UnackArg.ofEnvelope, hfind]
  rw [hevents, hfirst]
  by_cases heffect : s.db.accepts = true ∧ x.heldBy c
  · rw [if_pos heffect.1, if_pos heffect]
    rcases first_of_batch (m := m) (fun b : Envelope × Option Nat × UnackCause => b.1.id) batch with
      ⟨hnone, hnil⟩ | ⟨⟨e, k, cause⟩, rest, hb, rfl, hfind, hcons⟩
    · rw [hnil, List.find?_eq_none.2 fun b hb => by simpa using hnone b hb]
      exact .idle
    rw [hcons, hfind, List.take_succ_cons, List.take_zero, List.map_singleton,
      ← System.delivery_track hx]
    have hopen := hd.settles c _ ha (List.mem_map_of_mem hb) heffect.1
      ((hx.mem_list rfl).2 heffect.2)
    have hopen' : d.settlesPopped ∨
        ∀ task ∈ (s.track e.id x).tasks, task.1 = c → task.2.isPopped = false :=
      hopen.imp_right fun h task htask hc => h task (Multiset.mem_filter.1 htask).1 hc
        (Multiset.mem_filter.1 htask).2
    rcases hwhy _ hb rfl with hmem | ⟨hk, hmem⟩
    · exact .unacknowledge s.cfg t hmem heffect.2 hopen'
    · cases hk
      exact .reap s.cfg t hmem heffect.2 hopen'
  · have hsame : (if s.db.accepts = true then (batch.find? fun b => decide (b.1.id = m)).elim x
        fun b => x.unacknowledge c (UnackArg.ofEnvelope s.cfg t b.1 b.2.2) else x) = x := by
      split
      · rename_i hacc
        cases batch.find? fun b => decide (b.1.id = m) with
        | none => rfl
        | some b => exact if_neg fun hheld => heffect ⟨hacc, hheld⟩
      · rfl
    rw [hsame, if_neg heffect]
    exact .idle

end Settle

section Follow

variable {type : QueueType} {d : Discipline} {s s' : System} {a : Action} {m : MessageId}
variable {p : Params} {x : Life}
variable {group : Option GroupId} {c : ConsumerId} {id : MessageId}

/-- A step that neither moves the message nor tells anything about it. -/
private theorem follow_idle (hat : At s'.db m x)
    (htasks : s'.tasks.filter (fun task => task.2.id = m) =
      s.tasks.filter fun task => task.2.id = m)
    (hcrashed : s'.crashed = s.crashed) (hloaded : s'.loaded = s.loaded)
    (hlog : s'.log.filter (Event.tells m) = s.log.filter (Event.tells m)) :
    ∃ x', At s'.db m x' ∧ (s.track m x).Step d type group m (s'.track m x') := by
  refine ⟨x, hat, ?_⟩
  rw [System.track_eq x htasks hloaded hlog, hcrashed]
  exact .idle

/-- A step that does the work of a worker on the message. -/
private theorem follow_work {x' : Life} (hat : At s'.db m x')
    (hx : x.Worked type group x') (htasks : s'.tasks = s.tasks) (hcrashed : s'.crashed = s.crashed)
    (hloaded : s'.loaded = s.loaded)
    (hlog : s'.log.filter (Event.tells m) = s.log.filter (Event.tells m)) :
    ∃ x', At s'.db m x' ∧ (s.track m x).Step d type group m (s'.track m x') := by
  refine ⟨x', hat, ?_⟩
  rw [System.track_eq x (congrArg _ htasks) hloaded hlog, hcrashed]
  exact .work hx

private theorem filter_publishedCopies (children : List PublishArgs) (db' : Keyspace)
    (log : List Event) :
    (System.publishedCopies children db' ++ log).filter (Event.tells m) =
      log.filter (Event.tells m) := by
  rw [List.filter_append, List.filter_eq_nil_iff.2, List.nil_append]
  intro ev hev
  obtain ⟨b, _, hmap⟩ := List.mem_filterMap.1 hev
  obtain ⟨p, _, rfl⟩ := Option.map_eq_some_iff.1 hmap
  simp [Event.tells]

/-- A step that does the work of a worker on a batch, in which the message may be named. -/
private theorem follow_batch {α : Type} {key : α → MessageId} {act : α → Life → Life}
    {args : List α} {ready : Prop} [Decidable ready]
    (hat : At s'.db m (if ready then x.afterFirst key act args m else x))
    (hact : ∀ b ∈ args, key b = m → x.Worked type group (act b x))
    (htasks : s'.tasks = s.tasks) (hcrashed : s'.crashed = s.crashed)
    (hloaded : s'.loaded = s.loaded)
    (hlog : s'.log.filter (Event.tells m) = s.log.filter (Event.tells m)) :
    ∃ x', At s'.db m x' ∧ (s.track m x).Step d type group m (s'.track m x') := by
  split at hat
  · rcases Life.afterFirst_cases key act args m x with h | ⟨b, hb, hkey, h⟩ <;> rw [h] at hat
    · exact follow_idle hat (congrArg _ htasks) hcrashed hloaded hlog
    · exact follow_work hat (hact b hb hkey) htasks hcrashed hloaded hlog
  · exact follow_idle hat (congrArg _ htasks) hcrashed hloaded hlog

private theorem follow_load (hs : Sane type s) (hx : At s.db m x) {w : Worker}
    (hd : Obeys d m s (.load w id)) :
    ∃ x', At s.db m x' ∧ (s.track m x).Step d type group m
      (System.track
        { s with
          nextId := s.nextId + 1
          loaded := (s.loadMessage id).toList.map (fun e => (w, e)) ++ s.loaded } m x') := by
  refine ⟨x, hx, ?_⟩
  have hsame : (∀ c e, w = .reaper c → s.loadMessage id = some e → e.id ≠ m) →
      System.track
        { s with
          nextId := s.nextId + 1
          loaded := (s.loadMessage id).toList.map (fun e => (w, e)) ++ s.loaded } m x =
        s.track m x := by
    intro hno
    have hreaps : ∀ r : ConsumerId × Envelope,
        ((Worker.reaper r.1, r.2) ∈ (s.loadMessage id).toList.map (fun e => (w, e)) ++ s.loaded ∧
          r.2.id = m) ↔ ((Worker.reaper r.1, r.2) ∈ s.loaded ∧ r.2.id = m) := by
      intro r
      refine and_congr_left fun hid => ?_
      rw [List.mem_append, or_iff_right]
      intro hmem
      obtain ⟨e, he, heq⟩ := List.mem_map.1 hmem
      cases heq
      exact hno r.1 r.2 rfl (Option.mem_toList.1 he) hid
    simp only [System.track, hreaps]
  cases he : s.loadMessage id with
  | none =>
    rw [← he, hsame fun c e _ h => by rw [he] at h; cases h]
    exact .idle
  | some e =>
    obtain ⟨heid, _⟩ := hs.load he
    by_cases hw : ∃ c, w = .reaper c ∧ id = m
    · obtain ⟨c, rfl, rfl⟩ := hw
      obtain ⟨h, hget, hdecode⟩ := Option.bind_eq_some_iff.1 he
      have htrack : System.track
          { s with
            nextId := s.nextId + 1
            loaded := ([e] : List Envelope).map (fun e => (Worker.reaper c, e)) ++ s.loaded } id x =
          { s.track id x with reaps := insert (c, e) (s.track id x).reaps } := by
        simp only [System.track, Track.mk.injEq, true_and, and_true]
        ext ⟨c', e'⟩
        simp only [List.map_cons, List.map_nil, List.singleton_append, List.mem_cons,
          Set.mem_ofPred_eq, Set.mem_insert_iff, Prod.mk.injEq, Worker.reaper.injEq]
        constructor
        · rintro ⟨⟨rfl, rfl⟩ | hmem, hid⟩
          · exact .inl ⟨rfl, rfl⟩
          · exact .inr ⟨hmem, hid⟩
        · rintro (⟨rfl, rfl⟩ | ⟨hmem, hid⟩)
          · exact ⟨.inl ⟨rfl, rfl⟩, heid⟩
          · exact ⟨.inr hmem, hid⟩
      simp only [Option.toList_some]
      rw [htrack]
      exact .load (hd.reaps c rfl) (hx.hash.symm.trans hget) ⟨_, _, _, hdecode⟩
    · rw [← he, hsame fun c e' hc he' hid => ?_]
      · exact .idle
      rw [he] at he'
      cases he'
      exact hw ⟨c, hc, heid.symm.trans hid⟩

private theorem follow_task {old : Task} {new : Multiset Task}
    {events : List Event} (hs : Sane type s) (hx : At s.db m x) (hd : Obeys d m s a)
    (hmem : (c, old) ∈ s.tasks) (hgo : Goes s a c old new events) (hdb : s'.db = s.db)
    (htasks : s'.tasks = s.proceed c old new) (hcrashed : s'.crashed = s.crashed)
    (hloaded : s'.loaded = s.loaded) (hlog : s'.log = events ++ s.log) :
    ∃ x', At s'.db m x' ∧
      (s.track m x).Step d type p.consumerGroupId m (s'.track m x') := by
  have hfilter := @System.filter_proceed s m c old new (hgo.id_eq hs)
  have hlog' : s'.log.filter (Event.tells m) = s.log.filter (Event.tells m) := by
    rw [hlog, List.filter_append, tells_goes hgo, List.nil_append]
  rw [← htasks] at hfilter
  by_cases hold : old.id = m
  · rw [if_pos hold] at hfilter
    refine ⟨x, hdb ▸ hx, ?_⟩
    rw [System.track_eq x hfilter hloaded hlog', hcrashed]
    exact .task (Multiset.mem_filter.2 ⟨hmem, hold⟩) (continues_goes hmem hgo hold hx hd)
  · rw [if_neg hold] at hfilter
    exact follow_idle (hdb ▸ hx) hfilter hcrashed hloaded hlog'

private theorem step_crash
    (htasks : s'.tasks = s.tasks.filter fun t => t.1 ≠ c) (hcrashed : s'.crashed = c :: s.crashed)
    (hloaded : s'.loaded = s.loaded) (hlog : s'.log = s.log) :
    (s.track m x).Step d type group m (s'.track m x) := by
  have hfilter : s'.tasks.filter (fun task => task.2.id = m) =
      (s.track m x).tasks.filter fun t => t.1 ≠ c := by
    simp only [htasks, System.track, Multiset.filter_filter, and_comm]
  rw [System.track_eq x hfilter hloaded (congrArg _ hlog), hcrashed]
  exact .crash c

private theorem follow_pop
    (hx : At s.db m x) (hc : c ∉ s.crashed) (hpop : pop type group c s.db = (some id, s'.db))
    (htasks : s'.tasks = (c, .popped id group) ::ₘ s.tasks) (hcrashed : s'.crashed = s.crashed)
    (hloaded : s'.loaded = s.loaded) (hlog : s'.log = s.log) :
    ∃ x', At s'.db m x' ∧
      (s.track m x).Step d type p.consumerGroupId m (s'.track m x') := by
  obtain ⟨hocc, hframe, hself⟩ := pop_spec hpop
  by_cases hm : id = m
  · subst hm
    have hplace : x.place = some (pendingSlot type group) := by
      rw [hx.occ _ (holds_pendingSlot _ _)] at hocc
      by_contra hne
      simp [hne] at hocc
    have hfilter : s'.tasks.filter (fun task => task.2.id = id) =
        (c, .popped id group) ::ₘ (s.track id x).tasks := by
      rw [htasks, Multiset.filter_cons_of_pos _ (by rfl)]
      rfl
    refine ⟨_, hself x hx hplace, ?_⟩
    rw [System.track_eq x hfilter hloaded (congrArg _ hlog), hcrashed]
    exact .pop hc hplace
  · refine follow_idle ((hframe.at_iff (Ne.symm hm)).2 hx) ?_ hcrashed hloaded (congrArg _ hlog)
    rw [htasks]
    exact Multiset.filter_cons_of_neg _ hm

private theorem follow_checkout {h : MessageHash} (hs : Sane type s) (hx : At s.db m x)
    (hmem : (c, Task.popped id group) ∈ s.tasks) (hget : s.db.hgetall id = some h)
    (hst : h.status = some .pending)
    (hdb : s'.db = ((s.db.hset id (checkoutWrite (toMillis s.now))).hincrby .processing 1).hincrby
      .pending (-1)) (htasks : s'.tasks = s.proceed c (.popped id group)
      (s.received id (checkoutWrite (toMillis s.now) h)))
    (hcrashed : s'.crashed = s.crashed) (hloaded : s'.loaded = s.loaded)
    (hlog : s'.log = .checkedOut c id (decide (id ∈ s.db.lists (.processing c))) :: s.log) :
    ∃ x', At s'.db m x' ∧
      (s.track m x).Step d type p.consumerGroupId m (s'.track m x') := by
  have hreceived : s.received id (checkoutWrite (toMillis s.now) h) = 0 ∨
      ∃ e, s.received id (checkoutWrite (toMillis s.now) h) = {.received e (s.deliveries id + 1)} ∧
        Codec.decodeEnvelope s.cfg.defaults s.nextId s.now (checkoutWrite (toMillis s.now) h) =
          some e := by
    unfold System.received
    split
    · exact .inl rfl
    · rename_i e hdecode
      exact .inr ⟨e, rfl, hdecode⟩
  have hids : ∀ t ∈ s.received id (checkoutWrite (toMillis s.now) h),
      t.id = (Task.popped id group).id := by
    intro t ht
    rcases hreceived with hr | ⟨e, hr, hdecode⟩
    · rw [hr] at ht
      exact absurd ht (Multiset.notMem_zero t)
    rw [hr] at ht
    rw [Multiset.mem_singleton.1 ht]
    have hcore : ((checkoutWrite (toMillis s.now) h).id,
        (checkoutWrite (toMillis s.now) h).message) = s.db.core id := by
      simp [Keyspace.core, hget, checkoutWrite]
    exact (hs.decode hcore hdecode).1
  have hfilter := @System.filter_proceed s m c (.popped id group) _ hids
  rw [← htasks, show (Task.popped id group).id = id from rfl] at hfilter
  by_cases hm : id = m
  · subst hm
    have hxhash : x.hash = some h := hx.hash.symm.trans hget
    have hat : At s'.db id ⟨x.place, some (checkoutWrite (toMillis s.now) h)⟩ := by
      rw [hdb, ← Life.write_of_hash hxhash]
      exact ((hx.hset _).hincrby _ _).hincrby _ _
    have hlog' : s'.log.filter (Event.tells id) =
        .checkedOut c id (decide (x.heldBy c)) :: (s.track id x).log := by
      rw [hlog, List.filter_cons_of_pos (by simp [Event.tells]),
        decide_eq_decide.2 (hx.mem_list rfl)]
      rfl
    rw [if_pos rfl] at hfilter
    refine ⟨_, hat, ?_⟩
    rw [System.track_eq x hfilter hloaded hlog', hcrashed]
    refine .checkout (toMillis s.now) (Multiset.mem_filter.2 ⟨hmem, rfl⟩) hxhash hst ?_
    rw [System.deliveries_track]
    rcases hreceived with hr | ⟨e, hr, hdecode⟩
    · exact .inl hr
    · exact .inr ⟨e, hr, _, _, _, hdecode⟩
  · have hframe : Frame id s.db s'.db := by
      rw [hdb]
      exact (((Frame.refl id s.db).hset _).hincrby _ _).hincrby _ _
    rw [if_neg hm] at hfilter
    refine follow_idle ((hframe.at_iff (Ne.symm hm)).2 hx) hfilter hcrashed hloaded ?_
    rw [hlog]
    exact List.filter_cons_of_neg (by simp [Event.tells, hm])

/-- A message that is named several times in a deletion is reported as often. -/
private theorem filter_deleted (ids : List MessageId) (gone : MessageId → Bool) :
    ∃ n, ((ids.filter gone).map Event.deleted).filter (Event.tells m) =
      List.replicate n (.deleted m) ∧ (0 < n ↔ m ∈ ids ∧ gone m = true) := by
  have hmem : ∀ b ∈ (ids.filter gone).filter fun b => decide (id b = m), b = m :=
    fun b hb => by simpa using (List.mem_filter.1 hb).2
  refine ⟨((ids.filter gone).filter fun b => decide (id b = m)).length, ?_, ?_⟩
  · rw [filter_settled _ id fun _ => rfl, List.eq_replicate_of_mem hmem, List.map_replicate,
      List.length_replicate]
  rw [List.length_pos_iff_exists_mem]
  constructor
  · rintro ⟨b, hb⟩
    obtain rfl := hmem b hb
    exact List.mem_filter.1 (List.mem_filter.1 hb).1
  · exact fun h => ⟨m, List.mem_filter.2 ⟨List.mem_filter.2 h, by simp⟩⟩

private theorem follow_delete {lock : Option LockId}
    {batch : List Envelope} (hs : Sane type s) (hx : At s.db m x) (hp : s.origin m = some p)
    (hd : Obeys d m s (.delete group lock batch)) (hload : s.hasLoaded .deleter batch)
    (hgroup : ∀ e ∈ batch, e.consumerGroupId = group)
    (hdb : s'.db = (deleteMessage group lock (batch.map Envelope.id) s.db).db)
    (htasks : s'.tasks = s.tasks) (hcrashed : s'.crashed = s.crashed)
    (hloaded : s'.loaded = s.loaded) (hlog : s'.log = ((batch.map Envelope.id).filter fun id =>
      (s.db.hgetall id).isSome && (s'.db.hgetall id).isNone).map Event.deleted ++ s.log) :
    ∃ x', At s'.db m x' ∧
      (s.track m x).Step d type p.consumerGroupId m (s'.track m x') := by
  have hat := @At.deleteMessage type group s.db m x hx hs.type_eq lock (batch.map Envelope.id)
  rw [← hdb] at hat
  obtain ⟨n, hdeleted, hn⟩ := filter_deleted (m := m) (batch.map Envelope.id) fun id =>
    (s.db.hgetall id).isSome && (s'.db.hgetall id).isNone
  have hlog' : s'.log.filter (Event.tells m) =
      List.replicate n (.deleted m) ++ s.log.filter (Event.tells m) := by
    rw [hlog, List.filter_append, hdeleted]
  rw [Bool.and_eq_true, hx.hash] at hn
  rcases hat with hat | ⟨hmem, hdelayed, hat⟩
  · refine follow_idle hat (congrArg _ htasks) hcrashed hloaded ?_
    have hzero : n = 0 := by
      by_contra hne
      obtain ⟨_, hsome, hnone⟩ := hn.1 (Nat.pos_of_ne_zero hne)
      rw [hat.hash] at hnone
      simp_all
    rw [hlog', hzero]
    rfl
  · obtain ⟨e, he, hid⟩ := List.mem_map.1 hmem
    obtain ⟨p', hp', hg⟩ := (hs.loaded _ e (hload e he)).origin_group
    rw [hid, hp] at hp'
    cases hp'
    have hpg : group = p.consumerGroupId := (hgroup e he).symm.trans hg
    subst hpg
    refine ⟨_, hat, ?_⟩
    rw [System.track_eq x (congrArg _ htasks) hloaded hlog', hcrashed]
    refine .delete n hdelayed ((hd.deletes _ _ _ rfl hmem).imp_right fun h hst => ?_) ?_
    · have hocc := h (hx.status_eq.trans hst) type hs.type_eq
      rw [hx.occ _ (holds_pendingSlot ..)] at hocc
      by_contra hplace
      exact Nat.lt_irrefl 0 (hocc.trans_eq (if_neg hplace))
    · rw [hn, hat.hash]
      exact and_iff_right hmem

private theorem follow_unacknowledge {batch : List (Envelope × Option Nat × UnackCause)}
    {t : Nanos} (hx : At s.db m x) (hd : Obeys d m s (.unacknowledge c batch t))
    (htasks : System.unackTasks c batch ≤ s.tasks) :
    ∃ x', At (s.unackBatch c batch t).1 m x' ∧ (s.track m x).Step d type group m
      (System.track
        { s with
          db := (s.unackBatch c batch t).1
          tasks := s.tasks - System.unackTasks c batch
          log := (s.unackBatch c batch t).2 ++ s.log } m x') := by
  obtain ⟨x', hat, heffect⟩ := follow_unackBatch c batch t
    ((System.unackTasks c batch).filter fun task => task.2.id = m) _ hx hd rfl fun b hb hid =>
      .inl (Multiset.mem_filter.2 ⟨Multiset.mem_coe.2 (List.mem_map_of_mem hb), hid⟩)
  refine ⟨x', hat, follow_settle c _ 0 (Multiset.add_zero _).symm rfl rfl rfl htasks
    (fun task htask => ?_) (by simp) (by simp) heffect⟩
  obtain ⟨b, _, rfl⟩ := List.mem_map.1 (Multiset.mem_coe.1 htask)
  exact ⟨rfl, rfl⟩

private theorem follow_reap {batch : List Envelope} {t : Nanos} (hx : At s.db m x)
    (hd : Obeys d m s (.reap c batch t)) (hload : s.hasLoaded (.reaper c) batch) :
    ∃ x', At (s.unackBatch c (batch.map fun e => (e, none, .offlineConsumer)) t).1 m x' ∧
      (s.track m x).Step d type group m
        (System.track
          { s with
            db := (s.unackBatch c (batch.map fun e => (e, none, .offlineConsumer)) t).1
            log := (s.unackBatch c (batch.map fun e => (e, none, .offlineConsumer)) t).2 ++ s.log }
          m x') := by
  have hsettles : (Action.reap c batch t).settles = some (c, (batch.map fun e =>
      (e, (none : Option Nat), UnackCause.offlineConsumer)).map fun b => b.1.id) := by
    simp [Action.settles, Function.comp_def]
  obtain ⟨x', hat, heffect⟩ := follow_unackBatch c _ t 0 _ hx hd hsettles fun b hb hid => by
    obtain ⟨e, he, rfl⟩ := List.mem_map.1 hb
    exact .inr ⟨rfl, hload e he, hid⟩
  exact ⟨x', hat, follow_settle c 0 0 (by simp) rfl rfl rfl (Multiset.zero_le _) (by simp)
    (by simp) (by simp) (by simpa using heffect)⟩

/-- The copy is another message, and the original is noted as requeued. -/
private theorem follow_requeueMessage {e : Envelope} {t : Nanos} {arg : RequeueCopyArg}
    (hs : Sane type s) (hx : At s.db m x) (hm : s.nextId ≠ m)
    (harg : arg = RequeueCopyArg.ofEnvelope s.cfg t s.nextId e)
    (hdb : s'.db = (requeueMessage [arg] s.db).db) (htasks : s'.tasks = s.tasks)
    (hcrashed : s'.crashed = s.crashed) (hloaded : s'.loaded = s.loaded)
    (hlog : s'.log = System.publishedCopies [arg.child] s'.db ++ s.log) :
    ∃ x', At s'.db m x' ∧ (s.track m x).Step d type group m (s'.track m x') := by
  rw [requeueMessage_moves arg s.db (Keyspace.isSome_queue_of_queueType? hs.type_eq)] at hdb
  have hchild : arg.child.id ≠ m := by
    rw [harg]
    exact hm
  have hat := hx.copyMove hchild
  rw [← hdb] at hat
  have hlog' : s'.log.filter (Event.tells m) = s.log.filter (Event.tells m) := by
    rw [hlog, filter_publishedCopies]
  rcases hat with hat | ⟨⟨old, hold⟩, hat⟩
  · exact follow_idle hat (congrArg _ htasks) hcrashed hloaded hlog'
  · exact follow_work hat (.note hold ⟨rfl, rfl, rfl⟩) htasks hcrashed hloaded hlog'

/-- Every step of the system is a step of the track of each published message. -/
theorem Step.follow (hs : Sane type s) (h : Step s a s') (hp : s.origin m = some p)
    (hx : At s.db m x) (hlegal : Legal type p.consumerGroupId x) (hd : Obeys d m s a) :
    ∃ x', At s'.db m x' ∧
      (s.track m x).Step d type p.consumerGroupId m (s'.track m x') := by
  have hspared : ∀ {db'}, Spared m s.db db' → At db' m x := fun h => h.at_iff.2 hx
  have hgroup : ∀ {id : MessageId} {group : Option GroupId}, id = m →
      (∃ p, s.origin id = some p ∧ group = p.consumerGroupId) → group = p.consumerGroupId := by
    rintro id group rfl ⟨p', hp', rfl⟩
    cases hp.symm.trans hp'
    rfl
  have hfresh : s.nextId ≤ m → False := fun hle => hs.fresh_ne hle (by rw [hp]; rfl) rfl
  cases h with
  | task hmem hgo => exact follow_task hs hx hd hmem hgo rfl rfl rfl rfl rfl
  | crash => exact ⟨x, hx, step_crash rfl rfl rfl rfl⟩
  | fetch | tick | configure => exact follow_idle hx rfl rfl rfl rfl
  | load hw => exact follow_load hs hx hd
  | setState => exact follow_idle (hspared (setQueueState_spared _ _ _ _ m)) rfl rfl rfl rfl
  | saveGroup =>
    refine follow_idle (hspared ⟨rfl, fun q _ => ?_, fun q => ?_⟩) rfl rfl rfl rfl
    · cases q <;> rfl
    · cases q <;> exact le_rfl
  | @deleteGroup g keys =>
    refine follow_idle (hspared (deleteConsumerGroup_spared hs.type_eq g keys fun q hq hne => ?_))
      rfl rfl rfl rfl
    rw [hx.occ q (by rcases hq with rfl | rfl <;> rfl), if_neg (hlegal.ne_other hq hne)]
  | expire hk => exact follow_idle (hspared (expire_spared hk m s.db)) rfl rfl rfl rfl
  | @produce msg group db' hm hdb =>
    subst hdb
    refine follow_idle (hspared ((publishMessage_frame _ _).spared ?_)) rfl rfl rfl ?_
    · intro heq
      exact hfresh (heq ▸ (s.prepared_id msg group).ge)
    change List.filter _ (_ ++ (_ ++ s.log)) = _
    rw [filter_publishedCopies]
    split <;> simp [Event.tells]
  | pop hc htype hpop =>
    cases hs.type_eq.symm.trans htype
    exact follow_pop hx hc hpop rfl rfl rfl rfl
  | checkout hmem hstate hget hst hdb =>
    exact follow_checkout hs hx hmem hget hst hdb rfl rfl rfl rfl
  | acknowledge htasks ht hrun => exact follow_acknowledge hx hd htasks hrun
  | unacknowledge htasks ht => exact follow_unacknowledge hx hd htasks
  | reap hload ht => exact follow_reap hx hd hload
  | @requeueImmediate batch t hload ht =>
    refine follow_batch (hx.requeueImmediate hs.type_eq (hs.requeueArgs_fit (t := t) hload))
      (fun b hb hid => ?_) rfl rfl rfl rfl
    exact .requeue _ _ (hgroup hid (hs.requeueArgs_group hload b hb))
  | @requeueDelayed batch t hload ht =>
    refine follow_batch (hx.requeueDelayed hs.type_eq (hs.requeueArgs_fit (t := t) hload))
      (fun b hb hid => ?_) rfl rfl rfl rfl
    exact .requeueDelayed _ _ (hgroup hid (hs.requeueArgs_group hload b hb))
  | @publishScheduled group batch t db' hload _ hnodup ht hdb =>
    obtain ⟨hfits, _, hcopies⟩ := scheduledArgs_copies (t := t) hs hload
    have hat := hx.publishScheduled hs.type_eq hfits
      (by rw [System.scheduledArgs, ScheduledArg.map_id_ofBatch]; exact hnodup)
      (fun b hb nextAt child hnext hid => hfresh (hid ▸ (hcopies b hb nextAt child hnext).1.1))
      (hd.reschedules group batch t rfl)
    rw [← hdb] at hat
    refine follow_batch hat (fun b hb hid => ?_) rfl rfl rfl (filter_publishedCopies _ db' s.log)
    exact .fire _ (hgroup hid (scheduledArgs_group hs hload b hb))
  | delete hload hbatch hdb => exact follow_delete hs hx hp hd hload hbatch hdb rfl rfl rfl rfl
  | requeueMessage hload hstatus ht harg hdb =>
    exact follow_requeueMessage hs hx (fun h => hfresh h.le) harg hdb rfl rfl rfl rfl

/-- Nothing has happened yet to a message that is just being published. -/
theorem Sound.born (hs : Sane type s) (h : Sound type s s') (hm : s.origin m = none)
    (hp : s'.origin m = some p) :
    ∃ x, At s'.db m x ∧ Newborn type m p x ∧ s'.track m x = ⟨x, 0, s'.crashed, ∅, []⟩ := by
  rcases h.origin m with heq | ⟨_, _, p', x, hp', hat, hborn, _⟩
  · rw [heq, hm] at hp
    cases hp
  cases hp.symm.trans hp'
  have hno : ∀ {id}, (s.origin id).isSome = true → id ≠ m := by
    rintro id hsome rfl
    rw [hm] at hsome
    cases hsome
  refine ⟨x, hat, hborn, ?_⟩
  have htasks : s'.tasks.filter (fun task => task.2.id = m) = 0 := by
    refine Multiset.filter_eq_nil.2 fun task htask => ?_
    rcases h.tasks _ _ htask with htask | htask
    · exact hno (hs.tasks _ _ htask).1
    · exact hno htask.1
  have hreaps : {r : ConsumerId × Envelope | (Worker.reaper r.1, r.2) ∈ s'.loaded ∧ r.2.id = m} =
      ∅ := by
    refine Set.eq_empty_iff_forall_notMem.2 fun r hr => ?_
    rcases h.loaded _ _ hr.1 with he | he
    · exact hno (hs.loaded _ _ he).origin_isSome hr.2
    · exact hno he.origin_isSome hr.2
  have hlog : s'.log.filter (Event.tells m) = [] := by
    refine List.filter_eq_nil_iff.2 fun ev hev htells => ?_
    have hid : ev.id = m := by
      cases ev <;> first | cases htells | exact of_decide_eq_true htells
    rcases h.log ev hev with hev | ⟨_, hsome⟩ | ⟨hpub, _⟩
    · have hvouch := hs.log ev hev
      cases ev <;> first | cases htells | exact hno hvouch hid
    · exact hno hsome hid
    · cases ev <;> first | cases htells | cases hpub
  simp only [System.track, htasks, hreaps, hlog]

end Follow

section Rule

variable {type : QueueType} {d : Discipline} {Selected : Params → Prop}
variable {Inv : MessageId → Params → Track → Prop} {s s' : System}

/-- A property of the track of a message that every step of the track preserves. -/
structure TrackInvariant (d : Discipline) (type : QueueType) (Selected : Params → Prop)
    (Inv : MessageId → Params → Track → Prop) : Prop where
  legal : ∀ {m p t}, Inv m p t → Legal type p.consumerGroupId t.life
  born : ∀ {m p x} (crashed : List ConsumerId), Selected p → Newborn type m p x →
    Inv m p ⟨x, 0, crashed, ∅, []⟩
  step : ∀ {m p t t'}, Selected p → Inv m p t → t.Step d type p.consumerGroupId m t' → Inv m p t'

/-- All messages with the selected parameters are where they can be followed, and their
tracks have the property. -/
structure Tracked (type : QueueType) (Selected : Params → Prop)
    (Inv : MessageId → Params → Track → Prop) (s : System) : Prop where
  sane : Sane type s
  track : ∀ m p, s.origin m = some p → Selected p → ∃ x, At s.db m x ∧ Inv m p (s.track m x)

theorem Tracked.created (cfg : Config) (groups : List GroupId) (now : Nanos) :
    Tracked type Selected Inv (System.created cfg type groups now) :=
  ⟨.created cfg type groups now, fun m p hp => by cases hp⟩

/-- Nothing is told about a message that is not published. -/
theorem Sane.filter_tells (hs : Sane type s) {m : MessageId} (hm : s.origin m = none) :
    s.log.filter (Event.tells m) = [] := by
  rw [List.filter_eq_nil_iff]
  intro ev hev htells
  have hvouches := hs.log ev hev
  cases ev with
  | checkedOut _ id _ | settled _ id _ _ _ | deleted id =>
    obtain rfl : id = m := of_decide_eq_true htells
    exact absurd hvouches (by simp [System.Vouches, Event.id, hm])
  | _ => cases htells

/-- The rule of tracks: an invariant of single messages is one of the system, as long as
its steps keep to the discipline. -/
theorem Tracked.step (h : Tracked type Selected Inv s) (hinv : TrackInvariant d type Selected Inv)
    {a : Action} (hobeys : ∀ m p, s.origin m = some p → Selected p → Obeys d m s a)
    (hstep : Step s a s') : Tracked type Selected Inv s' := by
  have hsound := h.sane.sound hstep
  refine ⟨h.sane.of_sound hsound, fun m p hp hsel => ?_⟩
  cases hm : s.origin m with
  | none =>
    obtain ⟨x, hat, hnew, htrack⟩ := hsound.born h.sane hm hp
    refine ⟨x, hat, ?_⟩
    rw [htrack]
    exact hinv.born _ hsel hnew
  | some p' =>
    cases hp.symm.trans (h.sane.origin_mono hsound hm)
    obtain ⟨x, hx, hx'⟩ := h.track m p hm hsel
    obtain ⟨x', hat, hmove⟩ := hstep.follow h.sane hm hx (hinv.legal hx') (hobeys m p hm hsel)
    exact ⟨x', hat, hinv.step hsel hx' hmove⟩

theorem Newborn.legal {m : MessageId} {p : Params} {x : Life} (h : Newborn type m p x) :
    Legal type p.consumerGroupId x := by
  obtain ⟨place, hash⟩ := x
  obtain ⟨hash', rfl, _⟩ := h.hash
  rcases h.stored with ⟨hst, rfl⟩ | ⟨hst, rfl⟩
  · exact .waiting (.inl hst)
  · exact .scheduled hst

/-- The places of messages go with their status, under every discipline. -/
theorem legal_invariant (d : Discipline) (type : QueueType) (Selected : Params → Prop) :
    TrackInvariant d type Selected fun _ p t => Legal type p.consumerGroupId t.life where
  legal h := h
  born _ _ h := h.legal
  step _ h hstep := hstep.legal h

end Rule

end RedisSmq
