import RedisSmq.Guarantees.Deletion
import RedisSmq.System.Scores

/-!
# Occurrences of periodic messages

A periodic message stays in the schedule. Each time it is due, a scheduled publisher
publishes a copy of it and writes the next due time back. Publishers read what is due, load
the messages, compute in Go and write later, and two of them may overlap.

The script does not look whether the message is still in the schedule, or is due at all. So a
message can be published for a due time that another publisher has already dealt with, and a
message that has left the schedule can come back. Neither happens if publishers act only on
messages that are due when they build their arguments and still so when the script runs. The
due time in the schedule then grows with each copy, and tells the occurrences apart.
-/

namespace RedisSmq

/-- The due time that the message has in the schedule, if it is due at the instant `t`. -/
def Keyspace.dueAt (db : Keyspace) (t : Nanos) (m : MessageId) : Option Millis :=
  ((db.zsets .scheduled).entries.find? fun entry =>
    decide (entry.2 = m ∧ entry.1 ≤ toMillis t)).map Prod.fst

/-- The message goes back into the schedule only if it is due there, and for a later time. -/
def Keyspace.FiresDue (db : Keyspace) (t : Nanos) (a : ScheduledArg) : Prop :=
  ∀ next ∈ a.next, db.groupExists a.group = true → ∃ due ∈ db.dueAt t a.id, due < next.1
  deriving Decidable

theorem Keyspace.mem_of_dueAt {db : Keyspace} {t : Nanos} {m : MessageId} {due : Millis}
    (h : db.dueAt t m = some due) : (due, m) ∈ (db.zsets .scheduled).entries := by
  obtain ⟨⟨score, id⟩, hfind, rfl⟩ := Option.map_eq_some_iff.1 h
  have hid : id = m := (of_decide_eq_true (List.find?_some hfind :)).1
  exact hid ▸ List.mem_of_find?_eq_some hfind

namespace System

variable (s : System) (a : Action)

/-- Publishers act on messages that are due. -/
def FiresDue : Prop :=
  ∀ x ∈ a.schedules, ∀ arg ∈ s.scheduledArgs x.1 x.2, s.db.FiresDue x.2 arg
  deriving Decidable

/-- The copies that a batch publishes, by the message and the due time that it is published
for. A message that is not due is published for none. -/
def fires (t : Nanos) (args : List ScheduledArg) (db db' : Keyspace) :
    List (MessageId × Option Millis) :=
  (args.filter fun a => a.next.any fun next => (db'.hgetall next.2.id).isSome).map fun a =>
    (a.id, db.dueAt t a.id)

/-- The copies that the action publishes. -/
def firings : Action → List (MessageId × Option Millis)
  | .publishScheduled _ batch t =>
      fires t (s.scheduledArgs batch t) s.db
        (RedisSmq.publishScheduled (s.scheduledArgs batch t) s.db).db
  | _ => []

end System

theorem System.FiresDue.reschedulesInPlace {s : System} {a : Action} (h : s.FiresDue a) :
    s.ReschedulesInPlace a := by
  intro x hx arg harg hnext hgroup
  obtain ⟨next, hnext⟩ := Option.isSome_iff_exists.1 hnext
  obtain ⟨due, hdue, -⟩ := h x hx arg harg next hnext hgroup
  exact List.mem_map.2 ⟨_, Keyspace.mem_of_dueAt hdue, rfl⟩

/-- The due time of a published message does not fall. -/
theorem Step.due_mono {type : QueueType} {s s' : System} {a : Action}
    {entry : Millis × MessageId} (h : Step s a s') (hs : Sane type s) (hdue : s.FiresDue a)
    (hentry : entry ∈ (s'.db.zsets .scheduled).entries)
    (hm : (s.origin entry.2).isSome = true) :
    ∃ due ≤ entry.1, (due, entry.2) ∈ (s.db.zsets .scheduled).entries := by
  cases h.waits hs scheduled_ne_priority hentry with
  | old hold => exact ⟨_, le_rfl, hold⟩
  | fresh hnone =>
    rw [hnone] at hm
    cases hm
  | delayed hz => cases hz
  | @scheduled group batch t arg next hz harg hnext hgroup heq =>
    obtain ⟨due, hmem, hlt⟩ := hdue (batch, t) rfl arg harg next hnext hgroup
    rw [heq]
    exact ⟨due, hlt.le, Keyspace.mem_of_dueAt hmem⟩

/-! ## Copies -/

section Copies

variable {type : QueueType} {db : Keyspace} {args : List ScheduledArg} {a b : ScheduledArg}
variable {nextAt : Millis} {child : PublishArgs}

/-- Every copy belongs to one argument. -/
theorem eq_of_copyIds_nodup (hnodup : (copyIds args).Nodup) (ha : a ∈ args) (hb : b ∈ args)
    (hnext : a.next = some (nextAt, child)) {nextAt' : Millis} {child' : PublishArgs}
    (hnext' : b.next = some (nextAt', child')) (hid : child'.id = child.id) : b = a := by
  have hmem : ∀ {args : List ScheduledArg} {a : ScheduledArg} {nextAt : Millis}
      {child : PublishArgs}, a ∈ args → a.next = some (nextAt, child) →
        child.id ∈ copyIds args := by
    intro args a nextAt child ha hnext
    exact List.mem_filterMap.2 ⟨a, ha, by simp [hnext]⟩
  induction args with
  | nil => cases ha
  | cons c args ih =>
    cases hc : c.next with
    | none =>
      have hcons : copyIds (c :: args) = copyIds args := by simp [copyIds, hc]
      rw [hcons] at hnodup
      refine ih hnodup ((List.mem_cons.1 ha).resolve_left ?_)
        ((List.mem_cons.1 hb).resolve_left ?_)
      · rintro rfl
        cases hc.symm.trans hnext
      · rintro rfl
        cases hc.symm.trans hnext'
    | some next =>
      have hcons : copyIds (c :: args) = next.2.id :: copyIds args := by simp [copyIds, hc]
      rw [hcons, List.nodup_cons] at hnodup
      rcases List.mem_cons.1 ha with rfl | ha'
      · rcases List.mem_cons.1 hb with rfl | hb'
        · rfl
        · cases hc.symm.trans hnext
          exact absurd (hid ▸ hmem hb' hnext') hnodup.1
      · rcases List.mem_cons.1 hb with rfl | hb'
        · cases hc.symm.trans hnext'
          exact absurd (hid.symm ▸ hmem ha' hnext) hnodup.1
        · exact ih hnodup.2 ha' hb'

/-- The moves of a batch do not store a copy whose group does not exist. -/
theorem hgetall_foldl_scheduledMove {group : Option GroupId} {id : MessageId}
    (hnone : db.hgetall id = none) (hgroup : db.groupExists group = false)
    (hids : ∀ b ∈ args, b.id ≠ id)
    (hcopy : ∀ b ∈ args, ∀ nextAt child, b.next = some (nextAt, child) → child.id = id →
      b.group = group) : (args.foldl (scheduledMove type) db).hgetall id = none := by
  induction args generalizing db with
  | nil => exact hnone
  | cons b args ih =>
    refine ih ?_ ((Keyspace.groupExists_of_settings settings_scheduledMove group).trans hgroup)
      (fun c hc => hids c (List.mem_cons_of_mem _ hc))
      fun c hc => hcopy c (List.mem_cons_of_mem _ hc)
    have hne := (hids b List.mem_cons_self).symm
    by_cases hown : ∃ nextAt child, b.next = some (nextAt, child) ∧ child.id = id
    · obtain ⟨nextAt, child, hnext, hid⟩ := hown
      have hmissing : ¬ db.groupExists b.group = true := by
        rw [hcopy b List.mem_cons_self nextAt child hnext hid, hgroup]
        decide
      unfold scheduledMove
      simp only [hnext, if_neg hmissing]
      split
      · exact (((takeScheduled_frame b db).trans (deadLetterTaken_frame b _)).hash id hne).trans
          hnone
      · exact hnone
    · have hspared : Spared id db (scheduledMove type db b) :=
        scheduledMove_spared hne fun nextAt child hnext hid =>
          hown ⟨nextAt, child, hnext, hid.symm⟩
      exact hspared.hash.trans hnone

/-- A copy is stored only if the queue accepts it and its group exists. -/
theorem publishScheduled_stores (ha : a ∈ args) (hnext : a.next = some (nextAt, child))
    (hnone : db.hgetall child.id = none) (htype : db.queueType? = some type)
    (hfit : ∀ b ∈ args, b.Fits type) (hids : ∀ b ∈ args, b.id ≠ child.id)
    (hcopies : (copyIds args).Nodup)
    (hstored : ((publishScheduled args db).db.hgetall child.id).isSome = true) :
    stateRefusal db.operationalState = none ∧ db.groupExists a.group = true := by
  cases hstate : stateRefusal db.operationalState with
  | some r =>
    rw [publishScheduled_refused hstate, hnone] at hstored
    cases hstored
  | none =>
    refine ⟨rfl, ?_⟩
    by_contra hgroup
    rw [publishScheduled_moves htype hstate hfit, hgetall_foldl_scheduledMove hnone
      (by simpa using hgroup) hids fun b hb nextAt' child' hnext' hid => by
        rw [eq_of_copyIds_nodup hcopies ha hb hnext hnext' hid]] at hstored
    cases hstored

end Copies

/-! ## Runs -/

section Runs

variable {type : QueueType} {s s' : System} {a : Action}

/-- A copy is published of a message that is due, and the due time that the message has
afterwards is later. -/
theorem Sane.fired (hs : Sane type s) (hstep : Step s a s') (hdue : s.FiresDue a)
    {f : MessageId × Option Millis} (hf : f ∈ s.firings a) :
    (s.origin f.1).isSome = true ∧ ∃ due, f.2 = some due ∧
      (due, f.1) ∈ (s.db.zsets .scheduled).entries ∧
      ∀ entry ∈ (s'.db.zsets .scheduled).entries, entry.2 = f.1 → due < entry.1 := by
  cases hstep with
  | @publishScheduled group batch t db' hload hgroup hnodup ht hdb =>
    subst hdb
    obtain ⟨arg, harg, rfl⟩ := List.mem_map.1 hf
    obtain ⟨harg, hany⟩ := List.mem_filter.1 harg
    obtain ⟨hfits, hnamed, hcopies⟩ := scheduledArgs_copies (t := t) hs hload
    have hnext : ∃ nextAt child, arg.next = some (nextAt, child) ∧
        ((publishScheduled (s.scheduledArgs batch t) s.db).db.hgetall child.id).isSome = true := by
      cases hnext : arg.next with
      | none =>
        rw [hnext] at hany
        cases hany
      | some next =>
        rw [hnext] at hany
        exact ⟨next.1, next.2, rfl, hany⟩
    obtain ⟨nextAt, child, hnext, hstored⟩ := hnext
    have hle := (hcopies arg harg nextAt child hnext).1.1
    obtain ⟨hstate, hexists⟩ := publishScheduled_stores harg hnext
      (hs.blank _ (hs.fresh _ hle)).hash hs.type_eq hfits
      (fun b hb => (hs.fresh_ne hle (hnamed b hb)).symm) (ScheduledArg.nodup_copyIds batch) hstored
    obtain ⟨due, hmem, hlt⟩ := hdue (batch, t) rfl arg harg _ hnext hexists
    refine ⟨hnamed arg harg, due, hmem, Keyspace.mem_of_dueAt hmem, fun entry hentry hid => ?_⟩
    have hids : ((s.scheduledArgs batch t).map ScheduledArg.id).Nodup := by
      rw [System.scheduledArgs, ScheduledArg.map_id_ofBatch]
      exact hnodup
    dsimp only at hentry
    rw [publishScheduled_moves hs.type_eq hstate hfits] at hentry
    rcases foldl_scheduledMove_entries scheduled_ne_priority hfits hentry with ⟨-, hidle⟩ |
      ⟨-, b, hb, next, hnext', -, rfl⟩
    · have hgone := hidle rfl arg harg hid (by simp [hnext])
      rw [hexists] at hgone
      cases hgone
    · obtain rfl := List.inj_on_of_nodup_map hids hb harg hid
      cases hnext.symm.trans hnext'
      exact hlt
  | task _ hgo => cases hgo <;> cases hf
  | _ => cases hf

theorem Step.firings_nodup (h : Step s a s') : (s.firings a).Nodup := by
  cases h with
  | @publishScheduled group batch t db' hload hgroup hnodup ht hdb =>
    refine List.Nodup.of_map Prod.fst ?_
    have hids : ((s.scheduledArgs batch t).map ScheduledArg.id).Nodup := by
      rw [System.scheduledArgs, ScheduledArg.map_id_ofBatch]
      exact hnodup
    rw [System.firings, System.fires, List.map_map]
    exact hids.sublist (List.filter_sublist.map ScheduledArg.id)
  | task _ hgo => cases hgo <;> exact List.nodup_nil
  | _ => exact List.nodup_nil

/-- All occurrences seen so far are different, and a message that is still in the schedule is
due later than for any of them. -/
structure Occurred (seen : List (MessageId × Option Millis)) (s : System) : Prop where
  nodup : seen.Nodup
  published : ∀ f ∈ seen, (s.origin f.1).isSome = true
  passed : ∀ f ∈ seen, ∃ due, f.2 = some due ∧
    ∀ entry ∈ (s.db.zsets .scheduled).entries, entry.2 = f.1 → due < entry.1

theorem Occurred.step {seen : List (MessageId × Option Millis)} (h : Occurred seen s)
    (hs : Sane type s) (hstep : Step s a s') (hdue : s.FiresDue a) :
    Occurred (seen ++ s.firings a) s' := by
  have hfired := fun f hf => hs.fired (f := f) hstep hdue hf
  have hmono : ∀ {m}, (s.origin m).isSome = true → (s'.origin m).isSome = true := by
    intro m hm
    obtain ⟨p, hp⟩ := Option.isSome_iff_exists.1 hm
    rw [hs.origin_mono (hs.sound hstep) hp]
    rfl
  refine ⟨List.nodup_append.2 ⟨h.nodup, hstep.firings_nodup, ?_⟩, ?_, ?_⟩
  · rintro f hseen _ hnew rfl
    obtain ⟨due, hdue, hpassed⟩ := h.passed f hseen
    obtain ⟨-, due', hdue', hin, -⟩ := hfired f hnew
    cases hdue.symm.trans hdue'
    exact Nat.lt_irrefl _ (hpassed _ hin rfl)
  · intro f hf
    rcases List.mem_append.1 hf with hf | hf
    · exact hmono (h.published f hf)
    · exact hmono (hfired f hf).1
  · intro f hf
    rcases List.mem_append.1 hf with hf | hf
    · obtain ⟨due, heq, hpassed⟩ := h.passed f hf
      refine ⟨due, heq, fun entry hentry hid => ?_⟩
      obtain ⟨due', hle, hold⟩ := hstep.due_mono hs hdue hentry (hid ▸ h.published f hf)
      exact (hpassed _ hold hid).trans_le hle
    · obtain ⟨-, due, heq, -, hlater⟩ := hfired f hf
      exact ⟨due, heq, hlater⟩

/-- A published message that is not in the schedule is never put back. -/
theorem unscheduled_along {bs : List Action} {m : MessageId} (hs : Sane type s)
    (hm : (s.origin m).isSome = true) (hout : m ∉ s.db.zsets .scheduled)
    (halong : Run.Along System.step System.FiresDue s bs) (hrun : s.Runs bs s') :
    m ∉ s'.db.zsets .scheduled := by
  have h := Run.invariant_along (P := fun s => Sane type s ∧ (s.origin m).isSome = true ∧
    m ∉ s.db.zsets .scheduled) ?_ ⟨hs, hm, hout⟩ halong hrun
  · exact h.2.2
  intro s a s' ⟨hs, hm, hout⟩ hdue hstep
  have hstep := Step.of_step hstep
  obtain ⟨p, hp⟩ := Option.isSome_iff_exists.1 hm
  refine ⟨hs.step hstep, ?_, fun hin => hout ?_⟩
  · rw [hs.origin_mono (hs.sound hstep) hp]
    rfl
  · exact hstep.mem_scheduled hs hdue.reschedulesInPlace hm hin

/-- In every run in which publishers act on messages that are due, every copy is published for
a due time of its message, no two for the same one, and no published message that is out of
the schedule is put back there. -/
theorem occurrences_fire_once (cfg : Config) (type : QueueType) (groups : List GroupId)
    (now : Nanos) (as bs : List Action) (s s' : System)
    (hrun : (System.created cfg type groups now).Runs as s) (hrest : s.Runs bs s')
    (halong : Run.Along System.step System.FiresDue (System.created cfg type groups now)
      (as ++ bs)) :
    (∀ f ∈ Run.observe System.step System.firings (System.created cfg type groups now) (as ++ bs),
        f.2.isSome = true) ∧
      (Run.observe System.step System.firings (System.created cfg type groups now)
        (as ++ bs)).Nodup ∧
      ∀ m, (s.origin m).isSome = true → m ∉ s.db.zsets .scheduled →
        m ∉ s'.db.zsets .scheduled := by
  have hsane : Sane type (System.created cfg type groups now) := Sane.created cfg type groups now
  obtain ⟨hfirst, hsecond⟩ := halong.of_append hrun
  have hwhole : (System.created cfg type groups now).Runs (as ++ bs) s' := by
    rw [System.Runs, Run.exec_append, show Run.exec _ _ as = some s from hrun]
    exact hrest
  have h : Sane type s' ∧ Occurred ([] ++ Run.observe System.step System.firings
      (System.created cfg type groups now) (as ++ bs)) s' := by
    refine Run.observe_invariant (P := fun seen s => Sane type s ∧ Occurred seen s) ?_
      ⟨hsane, List.nodup_nil, by simp, by simp⟩ halong hwhole
    intro seen s a s' ⟨hs, hseen⟩ hdue hstep
    have hstep := Step.of_step hstep
    exact ⟨hs.step hstep, hseen.step hs hstep hdue⟩
  refine ⟨fun f hf => ?_, h.2.nodup, fun m hm hout => ?_⟩
  · obtain ⟨due, heq, -⟩ := h.2.passed f hf
    rw [heq]
    rfl
  · exact unscheduled_along (hsane.runs hrun) hm hout hsecond hrest

/-- Two publishers have found the same message due. -/
def overlappingPublishers : List Action :=
  [.produce repeatedMessage none, .tick 1000000, .fetch .scheduler, .fetch .scheduler,
    .load .scheduler 0, .load .scheduler 0]

/-- Both publish a copy, although the message is due for the first one only; and if the message
is deleted before, it comes back. -/
theorem occurrence_fires_twice :
    (Run.exec System.step (System.created {} .fifo [] 0) (overlappingPublishers ++
        [.publishScheduled none [dueCopy] 1000000, .publishScheduled none [dueCopy] 1000000])).map
          (fun s => s.db.lists (.pending none)) = some [4, 3] ∧
      Run.observe System.step System.firings (System.created {} .fifo [] 0)
        (overlappingPublishers ++ [.publishScheduled none [dueCopy] 1000000,
          .publishScheduled none [dueCopy] 1000000]) = [(0, some 1), (0, none)] ∧
      (Run.exec System.step (System.created {} .fifo [] 0) deletedBeforeDue).map
        (fun s => (decide (0 ∈ s.db.zsets .scheduled), s.db.status 0)) = some (false, none) ∧
      (Run.exec System.step (System.created {} .fifo [] 0)
        (deletedBeforeDue ++ [.publishScheduled none [dueCopy] 1000000])).map
          (fun s => decide (0 ∈ s.db.zsets .scheduled)) = some true := by
  decide

theorem occurrences_fire_once_overlappingPublishers :
    ∃ s s', (System.created {} .fifo [] 0).Runs overlappingPublishers s ∧
      s.Runs [.publishScheduled none [dueCopy] 1000000] s' ∧
      (Run.observe System.step System.firings (System.created {} .fifo [] 0)
        (overlappingPublishers ++ [.publishScheduled none [dueCopy] 1000000])).Nodup ∧
      ∀ m, (s.origin m).isSome = true → m ∉ s.db.zsets .scheduled →
        m ∉ s'.db.zsets .scheduled := by
  have hsome : ((Run.exec System.step (System.created {} .fifo [] 0) overlappingPublishers).bind
      fun s => (Run.exec System.step s [.publishScheduled none [dueCopy] 1000000]).map fun s' =>
        s'.db.lists (.pending none)) = some [3] := by decide
  obtain ⟨s, hs, hrest⟩ := Option.bind_eq_some_iff.1 hsome
  obtain ⟨s', hs', -⟩ := Option.map_eq_some_iff.1 hrest
  exact ⟨s, s', hs, hs', (occurrences_fire_once {} .fifo [] 0 _ _ s s' hs hs' (by decide)).2⟩

end Runs

end RedisSmq
