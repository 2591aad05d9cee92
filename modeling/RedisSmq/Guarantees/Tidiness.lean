import RedisSmq.Admin.Purge
import RedisSmq.Admin.Erased
import RedisSmq.Guarantees.Deletion
import RedisSmq.Guarantees.Exactness
import RedisSmq.Track.Exclusive

/-!
# A queue in good order

The containers of a status are in good order if they hold messages with the status that
belong there, each of them once, if their counter is right, and if these messages can be
read. Steps that keep counters exact, deliveries exclusive and deleted messages deleted
keep the containers of pending and of scheduled messages in good order.
-/

namespace RedisSmq

/-- The containers of the status are in good order. -/
structure Keyspace.Tidy (db : Keyspace) (st : Status) : Prop where
  listed : ∀ type group p, st.home type group = some p → ∀ m ∈ db.idsAt p,
    db.status m = some st ∧ db.home m = some p
  nodup : ∀ type group p, st.home type group = some p → (db.idsAt p).Nodup
  readable : ∀ m h, db.hgetall m = some h → h.status = some st → h.message.isSome = true
  exact : ∀ c, counterOf st = some c → db.counter c = db.statusCount st

/-- A message with a hash has its parameters in it, and one without is in no container. -/
structure Track.Whole (type : QueueType) (m : MessageId) (p : Params) (t : Track) : Prop where
  legal : Legal type p.consumerGroupId t.life
  message : ∀ h, t.life.hash = some h → h.message = some p
  place : t.life.hash = none → t.life.place = none

namespace Track.Whole

variable {type : QueueType} {m : MessageId} {p : Params} {t t' : Track} {d : Discipline}

/-- A message in a container has a hash. -/
private theorem hash_of_place (h : t.Whole type m p) {q : Slot} (hq : t.life.place = some q) :
    ∃ hash, t.life.hash = some hash ∧ hash.message = some p := by
  cases hhash : t.life.hash with
  | none =>
    rw [h.place hhash] at hq
    cases hq
  | some hash => exact ⟨hash, rfl, h.message hash hhash⟩

private theorem settle (h : t.Whole type m p) {c : ConsumerId}
    {settled : Multiset (ConsumerId × Task)} {x' : Life} {events : List Event}
    (heffect : Settlement d m t c settled x' events) :
    (∀ h, x'.hash = some h → h.message = some p) ∧ (x'.hash = none → x'.place = none) := by
  have hunack : ∀ a : UnackArg, t.life.heldBy c → ∃ hash,
      (t.life.unacknowledge c a).hash = some hash ∧ hash.message = some p := by
    intro a hheld
    obtain ⟨hash, hhash, hmessage⟩ := h.hash_of_place hheld
    rw [Life.unacknowledge, if_pos hheld]
    exact ⟨_, Life.write_of_hash hhash, hmessage⟩
  have hdone : ∀ {y : Life}, (∃ hash, y.hash = some hash ∧ hash.message = some p) →
      (∀ h, y.hash = some h → h.message = some p) ∧ (y.hash = none → y.place = none) := by
    rintro y ⟨hash, hhash, hmessage⟩
    constructor
    · intro hash' hhash'
      cases hhash.symm.trans hhash'
      exact hmessage
    · intro hnone
      cases hhash.symm.trans hnone
  cases heffect with
  | idle => exact ⟨h.message, h.place⟩
  | acknowledge now hmem hheld =>
    obtain ⟨hash, hhash, hmessage⟩ := h.hash_of_place hheld
    refine hdone ⟨acknowledgeWrite now hash, ?_, hmessage⟩
    rw [Life.acknowledge, if_pos hheld]
    exact Life.write_of_hash hhash
  | unacknowledge cfg now hmem hheld => exact hdone (hunack _ hheld)
  | reap cfg now hmem hheld => exact hdone (hunack _ hheld)

private theorem delete (h : t.Whole type m p)
    (hdelayed : t.life.status = some .unackDelaying → t.life.place ≠ some (.zset .delayed))
    (hplace : t.life.status = some .pending →
      t.life.place = some (pendingSlot type p.consumerGroupId)) :
    let x' := t.life.delete type p.consumerGroupId
    (∀ h, x'.hash = some h → h.message = some p) ∧ (x'.hash = none → x'.place = none) := by
  intro x'
  rcases t.life.delete_cases type p.consumerGroupId with heq | ⟨-, hnone, hkeep, -⟩
  · change x' = t.life at heq
    rw [heq]
    exact ⟨h.message, h.place⟩
  · refine ⟨fun hash hhash => ?_, fun _ => ?_⟩
    · cases hnone.symm.trans hhash
    cases hhash : t.life.hash with
    | none => exact hkeep (h.place hhash)
    | some hash =>
      have hgone := h.legal.delete_eq_gone hdelayed hplace (by rw [hhash]; rfl)
        (by rw [hnone]; rfl)
      change x' = _ at hgone
      rw [hgone]

theorem step (h : t.Whole type m p) (hd : ¬d.deletesPopped)
    (hstep : t.Step d type p.consumerGroupId m t') : t'.Whole type m p := by
  have hlegal := hstep.legal h.legal
  cases hstep with
  | idle | task | crash | load => exact ⟨hlegal, h.message, h.place⟩
  | work hx =>
    rcases hx.hash h.legal with rfl | ⟨old, new, hold, hnew, hmessage, -⟩
    · exact ⟨hlegal, h.message, h.place⟩
    refine ⟨hlegal, fun hash hhash => ?_, fun hnone => ?_⟩
    · cases hnew.symm.trans hhash
      exact hmessage.trans (h.message old hold)
    · cases hnew.symm.trans hnone
  | delete n hdelayed hplace =>
    obtain ⟨hmessage, hnone⟩ := h.delete hdelayed (hplace.resolve_left hd)
    exact ⟨hlegal, hmessage, hnone⟩
  | pop hc hp =>
    obtain ⟨hash, hhash, -⟩ := h.hash_of_place hp
    refine ⟨hlegal, h.message, fun hnone => ?_⟩
    cases hhash.symm.trans hnone
  | @checkout c group' hash new now hmem hx hst hnew =>
    refine ⟨hlegal, fun hash' hhash' => ?_, fun hnone => ?_⟩
    · cases hhash'
      exact h.message hash hx
    · cases hnone
  | settle hle hsettled hcard hfailed heffect =>
    obtain ⟨hmessage, hnone⟩ := h.settle heffect
    exact ⟨hlegal, hmessage, hnone⟩

theorem invariant (type : QueueType) (Selected : Params → Prop) :
    TrackInvariant ⟨True, True, True, False⟩ type Selected (Track.Whole type) where
  legal h := h.legal
  born _ _ h := by
    obtain ⟨hash, hhash, -, hmessage, -⟩ := h.hash
    refine ⟨h.legal, fun hash' hhash' => ?_, fun hnone => ?_⟩
    · cases hhash.symm.trans hhash'
      exact hmessage
    · cases hhash.symm.trans hnone
  step _ h hstep := h.step id hstep

end Track.Whole

/-- The steps that keep the containers of open messages in good order. -/
def System.KeepsTidy (s : System) (a : Action) : Prop :=
  s.KeepsCounters a ∧ s.SettlesNotPopped a ∧ s.DeletesInPlace a
  deriving Decidable

section Runs

variable {cfg : Config} {type : QueueType} {groups : List GroupId} {now : Nanos}
variable {as : List Action} {s : System} {m : MessageId} {st : Status}
variable {p : Slot}

section

variable (halong : Run.Along System.step System.KeepsTidy (System.created cfg type groups now) as)

include halong

theorem whole_of_runs (hrun : (System.created cfg type groups now).Runs as s) :
    Tracked type (fun _ => True) (Track.Whole type) s :=
  Run.invariant_along
    (fun _ _ _ h hcond hstep =>
      h.step (Track.Whole.invariant type _) (fun m _ _ _ =>
        .of_conduct hcond.1.2 (.inl trivial) (.inl trivial) (.inl trivial) (.inr hcond.2.2) m)
        (.of_step hstep))
    (Tracked.created cfg groups now) halong hrun

theorem exclusive_of_runs (hrun : (System.created cfg type groups now).Runs as s) :
    Tracked type (fun _ => True) (Track.Exclusive type) s :=
  Run.invariant_along
    (fun _ _ _ h hcond hstep =>
      h.step (Track.exclusive_invariant (d := ⟨True, True, False, True⟩) id type _) (fun m _ _ _ =>
        .of_conduct hcond.1.2 (.inl trivial) (.inl trivial) (.inr hcond.2.1) (.inl trivial) m)
        (.of_step hstep))
    (Tracked.created cfg groups now) halong hrun

end

/-- The containers of the pending and of the scheduled messages hold what belongs there. -/
private theorem Legal.status_of_home {group group' : Option GroupId} {x : Life}
    {type' : Option QueueType} (h : Legal type group x) (hopen : st = .pending ∨ st = .scheduled)
    (hhome : st.home type' group' = some p) (hp : x.place = some p)
    (hproc : x.status = some .processing → ∃ c, x.heldBy c) :
    x.status = some st ∧ st.home (some type) group = some p := by
  rcases hopen with rfl | rfl
  · obtain ⟨type', -, rfl⟩ := Option.map_eq_some_iff.1 hhome
    have hheld : ∀ c, ¬x.heldBy c := by
      intro c hc
      exact pendingSlot_ne_processing type' group' c (Option.some.inj (hp.symm.trans hc))
    cases h with
    | gone | settled | orphaned | held | requeued | delayed | scheduled =>
      cases type' <;> cases hp
    | waiting hst =>
      rcases hst with hst | hst
      · exact ⟨hst, hp⟩
      · obtain ⟨c, hc⟩ := hproc hst
        exact absurd hc (hheld c)
  · cases hhome
    exact ⟨h.status_of_scheduled hp, rfl⟩

private theorem Status.holds_of_home {type : Option QueueType} {group : Option GroupId}
    (hopen : st = .pending ∨ st = .scheduled) (hhome : st.home type group = some p) :
    p.holds = true := by
  rcases hopen with rfl | rfl
  · obtain ⟨type, -, rfl⟩ := Option.map_eq_some_iff.1 hhome
    exact holds_pendingSlot type group
  · cases hhome
    rfl

private theorem Keyspace.occ_pos_of_mem_idsAt {db : Keyspace} (h : m ∈ db.idsAt p) :
    0 < db.occ p m := by
  cases p with
  | list k => exact List.count_pos_iff.2 h
  | zset k =>
    have hm : m ∈ db.zsets k := h
    simp [Keyspace.occ, hm]

private theorem Keyspace.nodup_idsAt {db : Keyspace} (h : ∀ m, db.occ p m ≤ 1) :
    (db.idsAt p).Nodup := by
  cases p with
  | list k => exact List.nodup_iff_count_le_one.2 h
  | zset k => exact (db.zsets k).nodup

/-- Steps that meet the condition keep the containers of the pending and of the scheduled
messages in good order. -/
theorem tidy_of_runs
    (halong : Run.Along System.step System.KeepsTidy (System.created cfg type groups now) as)
    (hrun : (System.created cfg type groups now).Runs as s)
    (hopen : st = .pending ∨ st = .scheduled) : s.db.Tidy st := by
  have hwhole := whole_of_runs halong hrun
  have hexcl := exclusive_of_runs halong hrun
  have hexact := (exact_of_runs (halong.mono fun _ _ h => h.1) hrun).2
  have hs := hwhole.sane
  refine ⟨fun type' group p hhome m hm => ?_, fun type' group p hhome => ?_,
    fun m hash hget _ => ?_, fun c hc => hexact st c hc⟩
  · have hholds := Status.holds_of_home hopen hhome
    have hocc := Keyspace.occ_pos_of_mem_idsAt hm
    obtain ⟨params, hparams⟩ := Option.isSome_iff_exists.1 (hs.origin_isSome hholds hocc)
    obtain ⟨x, hx, htrack⟩ := hexcl.track m params hparams trivial
    obtain ⟨y, hy, hmessage⟩ := hwhole.track m params hparams trivial
    have hplace : x.place = some p := by
      rw [hx.occ p hholds] at hocc
      by_contra hne
      simp [hne] at hocc
    have hproc : x.status = some .processing → ∃ c, x.heldBy c := by
      intro hproc
      rcases htrack.opened with ⟨-, c, hc, -⟩ | ⟨hne, -⟩
      · exact ⟨c, hc⟩
      · exact absurd hproc hne
    obtain ⟨hst, hhome'⟩ := htrack.legal.status_of_home hopen hhome hplace hproc
    have hstatus : s.db.status m = some st := hx.status_eq.trans hst
    obtain ⟨hash, hget, -⟩ := Option.bind_eq_some_iff.1 hstatus
    have hgroup : s.db.groupOf m = params.consumerGroupId := by
      rw [Keyspace.groupOf, hget, Option.bind_some,
        hmessage.message hash (hy.hash.symm.trans hget)]
      rfl
    refine ⟨hstatus, ?_⟩
    rw [Keyspace.home, Keyspace.homeBy, hstatus, hs.type_eq, hgroup]
    exact hhome'
  · have hholds := Status.holds_of_home hopen hhome
    refine Keyspace.nodup_idsAt fun m => ?_
    cases horigin : s.origin m with
    | none =>
      rw [(hs.blank m horigin).occ p hholds]
      simp
    | some params =>
      obtain ⟨x, hx, -⟩ := hexcl.track m params horigin trivial
      rw [hx.occ p hholds]
      split <;> omega
  · cases horigin : s.origin m with
    | none =>
      have hnone := (hs.blank m horigin).hash
      cases hget.symm.trans hnone
    | some params =>
      obtain ⟨y, hy, hmessage⟩ := hwhole.track m params horigin trivial
      rw [hmessage.message hash (hy.hash.symm.trans hget)]
      rfl

end Runs

end RedisSmq
