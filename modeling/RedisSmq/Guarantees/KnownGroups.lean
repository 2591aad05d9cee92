import RedisSmq.Producer.Resolver
import RedisSmq.Consumers.Registry

/-!
# Producers and the groups of their queues

What a producer knows of a queue, together with the events about it that are still to be
published or delivered, is what is stored. This needs that every change is announced, that
the events of a queue are published in the order of its changes, that none is published while
the producer reads its targets and has not made all its subscriptions, and that groups are
only added to pub/sub queues that exist.
-/

namespace RedisSmq

open CatchUp

namespace Directory

variable (s : Directory)

/-- All changes of the queue have been published. -/
def Announced (q : QueueParams) : Prop := ∀ e ∈ s.unannounced, e.queue ≠ q
  deriving Decidable

/-- The condition on the actions. -/
def Careful : DirectoryAction → Prop
  | .createQueue q _ | .deleteQueue q => s.Announced q
  | .addGroup q _ => s.Announced q ∧ s.models q = some .pubSub
  | .deleteGroup .manager q _ => s.Announced q
  | .deleteGroup .consumer q g => g ∉ s.groups q
  | .announce _ => s.phase = .idle ∨ s.phase = .ready
  | _ => True

instance decidableCareful (a : DirectoryAction) : Decidable (s.Careful a) := by
  cases a with
  | deleteGroup deleter q g => cases deleter <;> unfold Careful <;> infer_instance
  | _ =>
      unfold Careful
      infer_instance

/-- The producer knows the groups of the queue, each of them once. -/
def Informed (q : QueueParams) : Prop :=
  ∃ l, s.targets q = some l ∧ l.Nodup ∧ ∀ g, g ∈ l ↔ g ∈ s.groups q

end Directory

section Entries

variable {entry : Option (List GroupId)}

/-- The entry for a queue is right: it has the stored groups, each of them once. -/
def Matches : Option (List GroupId) → Option (List GroupId) → Prop
  | some l, some groups => l.Nodup ∧ ∀ g, g ∈ l ↔ g ∈ groups
  | none, none => True
  | _, _ => False

theorem matches_some_iff {groups : List GroupId} :
    Matches entry (some groups) ↔ ∃ l, entry = some l ∧ l.Nodup ∧ ∀ g, g ∈ l ↔ g ∈ groups := by
  cases entry with
  | none => exact ⟨False.elim, fun ⟨_, h, _⟩ => nomatch h⟩
  | some l => exact ⟨fun h => ⟨l, rfl, h⟩, fun ⟨_, h, h'⟩ => Option.some.inj h ▸ h'⟩

theorem matches_none_iff : Matches entry none ↔ entry = none := by
  cases entry with
  | none => exact iff_of_true trivial rfl
  | some l => exact iff_of_false id nofun

theorem addTarget_some (g : GroupId) (l : List GroupId) :
    addTarget g (some l) = some (sadd g l) := by
  unfold addTarget sadd
  dsimp only [Option.getD_some]
  split <;> rfl

theorem matches_addTarget {groups groups' : List GroupId}
    {g : GroupId} (h : Matches entry (some groups))
    (hgroups : ∀ x, x ∈ groups' ↔ x = g ∨ x ∈ groups) :
    Matches (addTarget g entry) (some groups') := by
  obtain ⟨l, rfl, hnodup, hmem⟩ := matches_some_iff.1 h
  rw [addTarget_some]
  refine ⟨nodup_sadd hnodup, fun x => ?_⟩
  rw [mem_sadd, hgroups, hmem]

theorem matches_removeTarget {groups groups' : List GroupId}
    {g : GroupId} (h : Matches entry (some groups))
    (hgroups : ∀ x, x ∈ groups' ↔ x ∈ groups ∧ x ≠ g) :
    Matches (removeTarget g entry) (some groups') := by
  obtain ⟨l, rfl, hnodup, hmem⟩ := matches_some_iff.1 h
  refine ⟨hnodup.erase g, fun x => ?_⟩
  rw [hnodup.mem_erase_iff, hgroups, hmem, and_comm]

end Entries

namespace Directory

/-- What the entry for a queue should be. -/
def stored (s : Directory) (q : QueueParams) : Option (List GroupId) :=
  if s.models q = some .pubSub then some (s.groups q) else none

/-- What the entry for a queue will be, once the events about it have been published and have
arrived. -/
def caughtUp (s : Directory) (q : QueueParams) : Option (List GroupId) :=
  catchUp QueueEvent.queue QueueEvent.handle (s.undelivered ++ s.unannounced) q (s.targets q)

/-- The change that the event tells of is the last one of its queue. -/
def Tells (s : Directory) : QueueEvent → Prop
  | .queueCreated q model => s.models q = some model ∧ s.groups q = []
  | .queueDeleted q => s.models q = none
  | .groupCreated q g => s.models q = some .pubSub ∧ g ∈ s.groups q
  | .groupDeleted q g => s.models q = some .pubSub ∧ g ∉ s.groups q

end Directory

/-- `Load` has dealt with the queue. -/
def LoadPhase.Loaded : LoadPhase → QueueParams → Prop
  | .idle, _ => False
  | .reading remaining, q => q ∉ remaining
  | .readingGroups q₀ remaining, q => q ≠ q₀ ∧ q ∉ remaining
  | .subscribing _, _ | .ready, _ => True

/-- The queues that `Load` still has to deal with. -/
def LoadPhase.queues : LoadPhase → List QueueParams
  | .reading remaining => remaining
  | .readingGroups q remaining => q :: remaining
  | _ => []

namespace Directory

/-- The invariant of the runs. -/
structure Sound (s : Directory) : Prop where
  nodup : ∀ q, (s.groups q).Nodup
  supported : ∀ q, s.models q ≠ some .pubSub → s.groups q = []
  listed : ∀ q, q ∈ s.allQueues ↔ s.models q ≠ none
  listedOnce : s.allQueues.Nodup
  /-- At most one change of a queue is still to be published. -/
  single : ∀ q, (s.unannounced.filter (·.queue = q)).length ≤ 1
  tells : ∀ e ∈ s.unannounced, s.Tells e
  remaining : s.phase.queues.Nodup
  /-- A queue that was found to be a pub/sub queue is one, or has just been deleted. -/
  current : ∀ q remaining, s.phase = .readingGroups q remaining →
    s.models q = some .pubSub ∨ .queueDeleted q ∈ s.unannounced
  undelivered : s.phase ≠ .ready → s.undelivered = []
  fresh : ∀ q, ¬ s.phase.Loaded q → s.targets q = none
  caught : ∀ q, s.phase.Loaded q → Matches (s.caughtUp q) (s.stored q)

theorem Sound.initial : Directory.initial.Sound where
  nodup _ := List.nodup_nil
  supported _ _ := rfl
  listed _ := iff_of_false List.not_mem_nil fun h => h rfl
  listedOnce := List.nodup_nil
  single _ := Nat.zero_le 1
  tells := nofun
  remaining := List.nodup_nil
  current := nofun
  undelivered _ := rfl
  fresh _ _ := rfl
  caught _ h := h.elim

variable {s s' : Directory} {q : QueueParams} {g : GroupId} {e : QueueEvent}

theorem Tells.congr (h : s.Tells e) (hmodels : s'.models e.queue = s.models e.queue)
    (hgroups : s'.groups e.queue = s.groups e.queue) : s'.Tells e := by
  cases e with
  | queueCreated q model => exact ⟨hmodels.trans h.1, hgroups.trans h.2⟩
  | queueDeleted q => exact hmodels.trans h
  | groupCreated | groupDeleted => exact ⟨hmodels.trans h.1, hgroups.symm ▸ h.2⟩

/-- An event that tells of the last change does no harm if the entry is right already. -/
theorem Tells.matches_handle (h : s.Tells e) {entry : Option (List GroupId)}
    (hentry : Matches entry (s.stored e.queue)) : Matches (e.handle entry) (s.stored e.queue) := by
  cases e with
  | queueCreated q model =>
    change Matches entry (s.stored q) at hentry
    change Matches (onQueueCreated model entry) (s.stored q)
    unfold onQueueCreated
    split
    · rename_i hmodel
      have hstored : s.stored q = some (s.groups q) := by rw [stored, h.1, hmodel, if_pos rfl]
      rw [hstored] at hentry ⊢
      obtain ⟨l, rfl, hl⟩ := matches_some_iff.1 hentry
      exact hl
    · exact hentry
  | queueDeleted q =>
    have hstored : s.stored q = none := by
      rw [stored, if_neg]
      rw [(h : s.models q = none)]
      nofun
    change Matches none (s.stored q)
    rw [hstored]
    trivial
  | groupCreated q g =>
    change Matches _ (s.stored q) at hentry
    change Matches (addTarget g entry) (s.stored q)
    rw [stored, if_pos h.1] at hentry ⊢
    exact matches_addTarget hentry fun x => ⟨.inr, fun hx => hx.elim (fun heq => heq ▸ h.2) id⟩
  | groupDeleted q g =>
    change Matches _ (s.stored q) at hentry
    change Matches (removeTarget g entry) (s.stored q)
    rw [stored, if_pos h.1] at hentry ⊢
    exact matches_removeTarget hentry fun x =>
      ⟨fun hx => ⟨hx, fun heq => h.2 (heq ▸ hx)⟩, And.left⟩

/-- What is read now will be right once the event about the queue has arrived. -/
theorem Sound.caughtUp_of_read (htells : ∀ e ∈ s.unannounced, s.Tells e)
    (hsingle : (s.unannounced.filter (·.queue = q)).length ≤ 1) (hnone : s.undelivered = [])
    (hentry : Matches (s.targets q) (s.stored q)) : Matches (s.caughtUp q) (s.stored q) := by
  rw [caughtUp, hnone, List.nil_append]
  by_cases hq : s.Announced q
  · rw [catchUp_of_forall_ne hq]
    exact hentry
  obtain ⟨e, he, hqueue⟩ : ∃ e ∈ s.unannounced, e.queue = q := by
    by_contra hno
    exact hq fun e he hqueue => hno ⟨e, he, hqueue⟩
  rw [catchUp_of_mem hsingle he hqueue]
  subst hqueue
  exact (htells e he).matches_handle hentry

/-- What a change of one queue leaves for the others. -/
structure Changes (s s' : Directory) (q : QueueParams) (e : QueueEvent) : Prop where
  queue : e.queue = q
  models : ∀ q', q' ≠ q → s'.models q' = s.models q'
  groups : ∀ q', q' ≠ q → s'.groups q' = s.groups q'
  unannounced : s'.unannounced = s.unannounced ++ [e]
  phase : s'.phase = s.phase
  targets : s'.targets = s.targets
  undelivered : s'.undelivered = s.undelivered

theorem Changes.stored (h : Changes s s' q e) {q' : QueueParams} (hq : q' ≠ q) :
    s'.stored q' = s.stored q' := by
  rw [Directory.stored, h.models q' hq, h.groups q' hq, Directory.stored]

theorem Changes.caughtUp_other (h : Changes s s' q e) {q' : QueueParams} (hq : q' ≠ q) :
    s'.caughtUp q' = s.caughtUp q' := by
  have hne : e.queue ≠ q' := by
    rw [h.queue]
    exact hq.symm
  rw [Directory.caughtUp, h.undelivered, h.unannounced, h.targets, ← List.append_assoc,
    catchUp_append, catchUp_singleton_other hne, Directory.caughtUp]

theorem Changes.caughtUp_self (h : Changes s s' q e) : s'.caughtUp q = e.handle (s.caughtUp q) := by
  rw [Directory.caughtUp, h.undelivered, h.unannounced, h.targets, ← List.append_assoc,
    catchUp_append, catchUp_cons_self h.queue, Directory.caughtUp]
  rfl

theorem Changes.tells (h : Changes s s' q e) (htells : ∀ e ∈ s.unannounced, s.Tells e)
    (hannounced : s.Announced q) (hnew : s'.Tells e) : ∀ e ∈ s'.unannounced, s'.Tells e := by
  intro e' he'
  rw [h.unannounced] at he'
  rcases List.mem_append.1 he' with hold | hlast
  · have hne := hannounced e' hold
    exact (htells e' hold).congr (h.models _ hne) (h.groups _ hne)
  · rw [List.mem_singleton.1 hlast]
    exact hnew

/-- A change of a queue all of whose earlier changes have been published. -/
theorem Sound.change (hs : s.Sound) (h : Changes s s' q e) (hannounced : s.Announced q)
    (hnew : s'.Tells e) (hnodup : (s'.groups q).Nodup)
    (hsupported : s'.models q ≠ some .pubSub → s'.groups q = [])
    (hlisted : ∀ q, q ∈ s'.allQueues ↔ s'.models q ≠ none) (honce : s'.allQueues.Nodup)
    (hcurrent : s.models q = some .pubSub → s'.models q = some .pubSub ∨ e = .queueDeleted q)
    (hcaught : ∀ entry, Matches entry (s.stored q) → Matches (e.handle entry) (s'.stored q)) :
    s'.Sound where
  nodup q' := by
    by_cases hq : q' = q
    · exact hq ▸ hnodup
    · rw [h.groups q' hq]
      exact hs.nodup q'
  supported q' hmodel := by
    by_cases hq : q' = q
    · subst hq
      exact hsupported hmodel
    rw [h.models q' hq] at hmodel
    rw [h.groups q' hq]
    exact hs.supported q' hmodel
  listed := hlisted
  listedOnce := honce
  single q' := by
    rw [h.unannounced, List.filter_append, List.length_append]
    by_cases hq : q' = q
    · subst hq
      have hnone : s.unannounced.filter (·.queue = q') = [] := by
        simpa [List.filter_eq_nil_iff, Announced] using hannounced
      rw [hnone, List.length_nil, Nat.zero_add]
      exact List.length_filter_le _ [e]
    · have hnone : [e].filter (·.queue = q') = [] := by simp [h.queue, Ne.symm hq]
      rw [hnone]
      exact hs.single q'
  tells := h.tells hs.tells hannounced hnew
  remaining := h.phase ▸ hs.remaining
  current q' remaining hphase := by
    rw [h.phase] at hphase
    rw [h.unannounced]
    by_cases hq : q' = q
    · subst hq
      rcases hs.current q' remaining hphase with hmodel | hdeleted
      · refine (hcurrent hmodel).imp_right fun heq => List.mem_append_right _ ?_
        exact List.mem_singleton.2 heq.symm
      · exact absurd rfl (hannounced _ hdeleted)
    · rw [h.models q' hq]
      exact (hs.current q' remaining hphase).imp_right (List.mem_append_left _)
  undelivered hphase := h.undelivered.trans (hs.undelivered (h.phase ▸ hphase))
  fresh q' hloaded := by
    rw [h.targets]
    exact hs.fresh q' (h.phase ▸ hloaded)
  caught q' hloaded := by
    have hold := hs.caught q' (h.phase ▸ hloaded)
    by_cases hq : q' = q
    · subst hq
      rw [h.caughtUp_self]
      exact hcaught _ hold
    · rw [h.caughtUp_other hq, h.stored hq]
      exact hold

section Steps

section

variable (hs : s.Sound)

include hs

theorem Sound.createQueue {model : DeliveryModel} (hannounced : s.Announced q)
    (hstep : s.createQueue q model = some s') : s'.Sound := by
  obtain ⟨hnone, hs'⟩ := Option.ite_none_right_eq_some.1 hstep
  cases hs'
  have hmodel : s.models q = none := Option.isNone_iff_eq_none.1 hnone
  have hgroups : s.groups q = [] := hs.supported q (by rw [hmodel]; nofun)
  have hself : Function.update s.models q (some model) q = some model := Function.update_self _ _ _
  refine hs.change (q := q) (e := .queueCreated q model)
    ⟨rfl, fun q' hq => Function.update_of_ne hq _ _, fun _ _ => rfl, rfl, rfl, rfl, rfl⟩ hannounced
    ⟨hself, hgroups⟩ (hs.nodup q) (fun _ => hgroups) (fun q' => ?_) (nodup_sadd hs.listedOnce)
    (fun hpubSub => ?_) fun entry hentry => ?_
  · change q' ∈ sadd q s.allQueues ↔ Function.update s.models q (some model) q' ≠ none
    rw [mem_sadd, hs.listed, Function.update_apply]
    by_cases hq : q' = q
    · simp [hq]
    · simp [hq]
  · cases hmodel.symm.trans hpubSub
  have hentry' : entry = none := by
    rw [stored, hmodel, if_neg (by nofun)] at hentry
    exact matches_none_iff.1 hentry
  change Matches (onQueueCreated model entry)
    (if Function.update s.models q (some model) q = some .pubSub then some (s.groups q) else none)
  rw [hentry', hself, hgroups, onQueueCreated]
  cases model with
  | pubSub => exact ⟨List.nodup_nil, fun _ => .rfl⟩
  | pointToPoint => trivial

theorem Sound.deleteQueue (hannounced : s.Announced q)
    (hstep : s.deleteQueue q = some s') : s'.Sound := by
  obtain ⟨-, hs'⟩ := Option.ite_none_right_eq_some.1 hstep
  cases hs'
  have hself : Function.update s.models q none q = none := Function.update_self _ _ _
  have hgroups : Function.update s.groups q [] q = [] := Function.update_self _ _ _
  have hnodup : (Function.update s.groups q [] q).Nodup := hgroups.symm ▸ List.nodup_nil
  refine hs.change (q := q) (e := .queueDeleted q)
    ⟨rfl, fun q' hq => Function.update_of_ne hq _ _, fun q' hq => Function.update_of_ne hq _ _, rfl,
      rfl, rfl, rfl⟩ hannounced hself hnodup (fun _ => hgroups)
    (fun q' => ?_) (hs.listedOnce.filter _) (fun _ => .inr rfl) fun entry _ => ?_
  · change q' ∈ srem q s.allQueues ↔ Function.update s.models q none q' ≠ none
    rw [mem_srem, hs.listed, Function.update_apply]
    by_cases hq : q' = q
    · simp [hq]
    · simp [hq]
  · change Matches none (if Function.update s.models q none q = some .pubSub then _ else none)
    rw [hself, if_neg (by nofun)]
    trivial

/-- A group of a pub/sub queue is added or deleted. -/
theorem Sound.changeGroups {groups : List GroupId} (hannounced : s.Announced q)
    (hmodel : s.models q = some .pubSub) (hqueue : e.queue = q) (hnodup : groups.Nodup) (hs' : s' =
      { s with
        groups := Function.update s.groups q groups
        unannounced := s.unannounced ++ [e] }) (hnew : s'.Tells e)
    (hcaught : ∀ entry, Matches entry (some (s.groups q)) →
      Matches (e.handle entry) (some groups)) : s'.Sound := by
  subst hs'
  have hself : Function.update s.groups q groups q = groups := Function.update_self _ _ _
  have hnodup' : (Function.update s.groups q groups q).Nodup := hself.symm ▸ hnodup
  refine hs.change (q := q) (e := e)
    ⟨hqueue, fun _ _ => rfl, fun q' hq => Function.update_of_ne hq _ _, rfl, rfl, rfl, rfl⟩
    hannounced hnew hnodup' (fun hnot => absurd hmodel hnot) hs.listed
    hs.listedOnce .inl fun entry hentry => ?_
  rw [stored, if_pos hmodel] at hentry
  have hstored : Matches (e.handle entry) (some (Function.update s.groups q groups q)) :=
    hself.symm ▸ hcaught entry hentry
  rw [stored, if_pos hmodel]
  exact hstored

/-- The clients that are about to add a group do not matter. -/
theorem Sound.setChecked (checked : List (QueueParams × GroupId)) :
    { s with checked := checked }.Sound :=
  ⟨hs.nodup, hs.supported, hs.listed, hs.listedOnce, hs.single, fun e he =>
    (hs.tells e he).congr rfl rfl, hs.remaining, hs.current, hs.undelivered, hs.fresh, hs.caught⟩

theorem Sound.addGroup (hannounced : s.Announced q)
    (hmodel : s.models q = some .pubSub) (hstep : s.addGroup q g = some s') : s'.Sound := by
  obtain ⟨-, hs'⟩ := Option.ite_none_right_eq_some.1 hstep
  have hs₀ := hs.setChecked (s.checked.erase (q, g))
  dsimp only at hs'
  split at hs'
  · cases hs'
    exact hs₀
  refine hs₀.changeGroups (e := .groupCreated q g) hannounced hmodel rfl (nodup_sadd (hs.nodup q))
    (Option.some.inj hs').symm ?_ fun entry hentry => matches_addTarget hentry fun x => mem_sadd
  cases hs'
  refine ⟨hmodel, ?_⟩
  change g ∈ Function.update s.groups q _ q
  rw [Function.update_self]
  exact mem_sadd.2 (.inl rfl)

theorem Sound.deleteGroup_manager (hannounced : s.Announced q)
    (hstep : s.deleteGroup .manager q g = some s') : s'.Sound := by
  obtain ⟨hmodel, hs'⟩ := Option.ite_none_right_eq_some.1 hstep
  refine hs.changeGroups (e := .groupDeleted q g) hannounced hmodel rfl ((hs.nodup q).filter _)
    (Option.some.inj hs').symm ?_ fun entry hentry => matches_removeTarget hentry fun x => mem_srem
  cases hs'
  refine ⟨hmodel, ?_⟩
  change g ∉ Function.update s.groups q _ q
  rw [Function.update_self]
  exact fun hg => (mem_srem.1 hg).2 rfl

theorem Sound.deleteGroup_consumer (hg : g ∉ s.groups q)
    (hstep : s.deleteGroup .consumer q g = some s') : s'.Sound := by
  obtain ⟨-, hs'⟩ := Option.ite_none_right_eq_some.1 hstep
  have hsame : srem g (s.groups q) = s.groups q := by
    refine List.filter_eq_self.2 fun x hx => decide_eq_true ?_
    rintro rfl
    exact hg hx
  rw [hsame, Function.update_eq_self] at hs'
  cases hs'
  exact hs

theorem Sound.announce (hphase : s.phase = .idle ∨ s.phase = .ready)
    (hstep : s.announce e = some s') : s'.Sound := by
  obtain ⟨he, hs'⟩ := Option.ite_none_right_eq_some.1 hstep
  cases hs'
  have hsub : ∀ e' ∈ s.unannounced.erase e, e' ∈ s.unannounced := fun e' => List.mem_of_mem_erase
  refine ⟨hs.nodup, hs.supported, hs.listed, hs.listedOnce, fun q => ?_, fun e' he' => ?_,
    hs.remaining, fun q remaining hreading => ?_, fun hnot => ?_, hs.fresh, fun q hloaded => ?_⟩
  · have hsublist := (List.erase_sublist (a := e) (l := s.unannounced)).filter (·.queue = q)
    exact hsublist.length_le.trans (hs.single q)
  · exact (hs.tells e' (hsub e' he')).congr rfl rfl
  · rcases hphase with hphase | hphase <;> cases hphase.symm.trans hreading
  · rcases hphase with hphase | hphase
    · change (if s.phase.receives e then _ else _) = []
      rw [hphase, hs.undelivered hnot]
      rfl
    · exact absurd hphase hnot
  · have hready : s.phase = .ready := by
      rcases hphase with hphase | hphase
      · change s.phase.Loaded q at hloaded
        rw [hphase] at hloaded
        exact hloaded.elim
      · exact hphase
    have hold := hs.caught q hloaded
    -- the event moves from the end of the one list to the end of the other
    have hsame : caughtUp
        { s with
          unannounced := s.unannounced.erase e
          undelivered := if s.phase.receives e then s.undelivered ++ [e] else s.undelivered } q =
        s.caughtUp q := by
      unfold caughtUp
      dsimp only
      rw [hready]
      change catchUp _ _ ((s.undelivered ++ [e]) ++ s.unannounced.erase e) q _ = _
      rw [List.append_assoc, catchUp_append, catchUp_append, catchUp_append]
      by_cases hq : e.queue = q
      · rw [catchUp_of_forall_ne (forall_ne_of_erase (hs.single q) he hq), catchUp_cons_self hq,
          catchUp_of_mem (hs.single q) he hq]
        rfl
      · rw [catchUp_singleton_other hq, catchUp_erase_other hq]
    rw [hsame]
    exact hold

/-- A queue that is not a pub/sub queue needs no entry. -/
theorem Sound.caughtUp_skipped (hnone : s.undelivered = [])
    (htarget : s.targets q = none) (hmodel : s.models q ≠ some .pubSub) :
    Matches (s.caughtUp q) (s.stored q) := by
  refine Sound.caughtUp_of_read hs.tells (hs.single q) hnone ?_
  rw [htarget, stored, if_neg hmodel]
  trivial

theorem Sound.load {members : List QueueParams} (hstep : s.load members = some s') : s'.Sound := by
  obtain ⟨⟨hphase, hperm⟩, hs'⟩ := Option.ite_none_right_eq_some.1 hstep
  cases hs'
  have hnone : s.undelivered = [] := hs.undelivered (by rw [hphase]; nofun)
  have hfresh : ∀ q, s.targets q = none := fun q => hs.fresh q (by rw [hphase]; exact id)
  refine ⟨hs.nodup, hs.supported, hs.listed, hs.listedOnce, hs.single,
    fun e he => (hs.tells e he).congr rfl rfl, hperm.nodup_iff.2 hs.listedOnce, nofun,
    fun _ => hnone, fun q _ => hfresh q, fun q hloaded => ?_⟩
  have hmodel : s.models q = none := by
    by_contra hsome
    exact hloaded (hperm.mem_iff.2 ((hs.listed q).2 hsome))
  exact hs.caughtUp_skipped hnone (hfresh q) (by rw [hmodel]; nofun)

/-- A step of `Load` that changes the entries of one queue at most. -/
theorem Sound.loaded {phase : LoadPhase}
    (targets : QueueParams → Option (List GroupId)) (hbefore : s.phase ≠ .ready)
    (hremaining : phase.queues.Nodup)
    (hcurrent : ∀ q remaining, phase = .readingGroups q remaining → s.models q = some .pubSub)
    (hfresh : ∀ q, ¬ phase.Loaded q → targets q = none)
    (hcaught : ∀ q, phase.Loaded q → (s.phase.Loaded q ∧ targets q = s.targets q) ∨
      Matches ({ s with targets := targets }.caughtUp q) (s.stored q)) :
    { s with phase := phase, targets := targets }.Sound := by
  refine ⟨hs.nodup, hs.supported, hs.listed, hs.listedOnce, hs.single,
    fun e he => (hs.tells e he).congr rfl rfl, hremaining,
    fun q remaining hphase => .inl (hcurrent q remaining hphase),
    fun _ => hs.undelivered hbefore, hfresh, fun q hloaded => ?_⟩
  rcases hcaught q hloaded with ⟨hold, htarget⟩ | hnew
  · have hsame := hs.caught q hold
    rw [caughtUp, ← htarget] at hsame
    exact hsame
  · exact hnew

/-- The groups of a queue that was found to be a pub/sub queue are read. -/
theorem Sound.caughtUp_groups (hnone : s.undelivered = [])
    (hcurrent : s.models q = some .pubSub ∨ .queueDeleted q ∈ s.unannounced) :
    Matches
      ({ s with targets := Function.update s.targets q (some (s.groups q)) }.caughtUp q)
      (s.stored q) := by
  rcases hcurrent with hmodel | hdeleted
  · refine Sound.caughtUp_of_read
      (s := { s with targets := Function.update s.targets q (some (s.groups q)) })
      (fun e he => (hs.tells e he).congr rfl rfl) (hs.single q) hnone ?_
    have hstored : s.stored q = some (s.groups q) := if_pos hmodel
    change Matches (Function.update s.targets q (some (s.groups q)) q) (s.stored q)
    rw [Function.update_self, hstored]
    exact ⟨hs.nodup q, fun _ => .rfl⟩
  · have hmodel : s.models q = none := hs.tells _ hdeleted
    have hstored : s.stored q = none := by rw [stored, hmodel, if_neg (by nofun)]
    rw [hstored, caughtUp]
    change Matches (catchUp _ _ (s.undelivered ++ s.unannounced) q _) none
    rw [hnone, List.nil_append, catchUp_of_mem (hs.single q) hdeleted rfl]
    trivial

theorem Sound.read (hstep : s.read = some s') : s'.Sound := by
  unfold Directory.read at hstep
  cases hphase : s.phase with
  | idle | ready =>
    rw [hphase] at hstep
    cases hstep
  | reading remaining =>
    have hnone : s.undelivered = [] := hs.undelivered (by rw [hphase]; nofun)
    have hremaining := hs.remaining
    have hfresh := hs.fresh
    rw [hphase] at hstep hremaining hfresh
    cases remaining with
    | nil =>
      cases hstep
      refine hs.loaded s.targets (by rw [hphase]; nofun) List.nodup_nil nofun
        (fun q hloaded => absurd trivial hloaded) fun q _ => .inl ⟨?_, rfl⟩
      rw [hphase]
      exact List.not_mem_nil
    | cons q₀ remaining =>
      obtain ⟨hnot, hrest⟩ := List.nodup_cons.1 hremaining
      dsimp only at hstep
      split at hstep
      · rename_i hmodel
        cases hstep
        refine hs.loaded s.targets (by rw [hphase]; nofun) hremaining
          (fun q remaining heq => ?_) (fun q hloaded => hfresh q fun hq => hloaded ?_)
          fun q hloaded => .inl ⟨?_, rfl⟩
        · cases heq
          exact hmodel
        · exact List.ne_and_not_mem_of_not_mem_cons hq
        · rw [hphase]
          exact List.not_mem_cons_of_ne_of_not_mem hloaded.1 hloaded.2
      · rename_i hmodel
        cases hstep
        refine hs.loaded s.targets (by rw [hphase]; nofun) hrest nofun
          (fun q hloaded => hfresh q fun hq => hloaded fun hmem => hq (.tail _ hmem))
          fun q hloaded => ?_
        by_cases hq : q = q₀
        · subst hq
          exact .inr (hs.caughtUp_skipped hnone (hfresh q fun hmem => hmem (.head _)) hmodel)
        refine .inl ⟨?_, rfl⟩
        rw [hphase]
        exact List.not_mem_cons_of_ne_of_not_mem hq hloaded
  | readingGroups q₀ remaining =>
    have hnone : s.undelivered = [] := hs.undelivered (by rw [hphase]; nofun)
    have hremaining := hs.remaining
    have hfresh := hs.fresh
    rw [hphase] at hstep hremaining hfresh
    obtain ⟨hnot, hrest⟩ := List.nodup_cons.1 hremaining
    cases hstep
    refine hs.loaded _ (by rw [hphase]; nofun) hrest nofun (fun q hloaded => ?_)
      fun q hloaded => ?_
    · have hmem : q ∈ remaining := not_not.1 hloaded
      have hne : q ≠ q₀ := fun heq => hnot (heq ▸ hmem)
      rw [Function.update_of_ne hne]
      exact hfresh q fun hq => hq.2 hmem
    · by_cases hq : q = q₀
      · subst hq
        exact .inr (hs.caughtUp_groups hnone (hs.current q remaining hphase))
      refine .inl ⟨?_, Function.update_of_ne hq _ _⟩
      rw [hphase]
      exact ⟨hq, hloaded⟩
  | subscribing n =>
    rw [hphase] at hstep
    cases hstep
    have hloaded : ∀ q, s.phase.Loaded q := by
      intro q
      rw [hphase]
      trivial
    split
    · exact hs.loaded s.targets (by rw [hphase]; nofun) List.nodup_nil nofun
        (fun q hnot => absurd trivial hnot) fun q _ => .inl ⟨hloaded q, rfl⟩
    · exact hs.loaded s.targets (by rw [hphase]; nofun) List.nodup_nil nofun
        (fun q hnot => absurd trivial hnot) fun q _ => .inl ⟨hloaded q, rfl⟩

theorem Sound.deliver (hstep : s.deliver = some s') : s'.Sound := by
  unfold Directory.deliver at hstep
  split at hstep
  · cases hstep
  rename_i e rest hundelivered
  cases hstep
  have hready : s.phase = .ready := by
    by_contra hnot
    cases hundelivered.symm.trans (hs.undelivered hnot)
  refine ⟨hs.nodup, hs.supported, hs.listed, hs.listedOnce, hs.single,
    fun e' he' => (hs.tells e' he').congr rfl rfl, hs.remaining, hs.current,
    fun hnot => absurd hready hnot, fun q hloaded => ?_, fun q hloaded => ?_⟩
  · change ¬ s.phase.Loaded q at hloaded
    rw [hready] at hloaded
    exact absurd trivial hloaded
  · have hold := hs.caught q hloaded
    rw [caughtUp, hundelivered, List.cons_append] at hold
    change Matches (catchUp _ _ (rest ++ s.unannounced) q (Function.update s.targets _ _ q)) _
    by_cases hq : e.queue = q
    · rw [catchUp_cons_self hq] at hold
      rw [hq, Function.update_self]
      exact hold
    · rw [catchUp_cons_other hq] at hold
      rw [Function.update_of_ne (Ne.symm hq)]
      exact hold

theorem Sound.step {a : DirectoryAction} (hcareful : s.Careful a)
    (hstep : s.step a = some s') : s'.Sound := by
  cases a with
  | createQueue q model => exact hs.createQueue hcareful hstep
  | deleteQueue q => exact hs.deleteQueue hcareful hstep
  | checkGroup q g =>
    obtain ⟨-, hs'⟩ := Option.ite_none_right_eq_some.1 hstep
    cases hs'
    exact hs.setChecked _
  | addGroup q g => exact hs.addGroup hcareful.1 hcareful.2 hstep
  | deleteGroup deleter q g =>
    cases deleter with
    | manager => exact hs.deleteGroup_manager hcareful hstep
    | consumer => exact hs.deleteGroup_consumer hcareful hstep
  | announce e => exact hs.announce hcareful hstep
  | load members => exact hs.load hstep
  | read => exact hs.read hstep
  | deliver => exact hs.deliver hstep

end

end Steps

end Directory

/-- In every run in which changes are announced as they should be: once the producer has made
its subscriptions and all published events have arrived, it knows exactly the stored groups
of every pub/sub queue whose changes have all been published, each of them once. -/
theorem producer_informed_of_careful {as : List DirectoryAction} {s : Directory}
    (hcareful : Run.Along Directory.step Directory.Careful Directory.initial as)
    (hrun : Directory.initial.Runs as s) (hready : s.phase = .ready)
    (hdelivered : s.undelivered = []) (q : QueueParams) (hannounced : s.Announced q)
    (hmodel : s.models q = some .pubSub) : s.Informed q := by
  have hs : s.Sound :=
    Run.invariant_along (fun _ _ _ hs hc hstep => hs.step hc hstep) .initial hcareful hrun
  have hcaught := hs.caught q (by rw [hready]; trivial)
  rw [Directory.caughtUp, hdelivered, List.nil_append, catchUp_of_forall_ne hannounced,
    Directory.stored, if_pos hmodel] at hcaught
  exact matches_some_iff.1 hcaught

/-- The queue of the orders is created, a group is added to it, and both are announced. -/
def ordersWithGroup (g : GroupId) : List DirectoryAction :=
  [.createQueue ordersQueue .pubSub, .announce (.queueCreated ordersQueue .pubSub),
    .checkGroup ordersQueue g, .addGroup ordersQueue g, .announce (.groupCreated ordersQueue g)]

/-- The producer reads the queue of the orders and makes its subscriptions. -/
def loadOrders : List DirectoryAction := .load [ordersQueue] :: List.replicate 7 .read

/-- A consumer without a group of its own is started and shuts down after the producer has
loaded its targets. -/
def unannouncedShutdown : List DirectoryAction :=
  ordersWithGroup (ephemeralGroupId 4) ++ loadOrders ++
    [.deleteGroup .consumer ordersQueue (ephemeralGroupId 4)]

/-- A group is added and announced after the producer has read the groups of the queue, before
it has subscribed. -/
def announcedTooEarly : List DirectoryAction :=
  ordersWithGroup 2 ++ (.load [ordersQueue] :: List.replicate 3 .read) ++
    [.checkGroup ordersQueue 6, .addGroup ordersQueue 6, .announce (.groupCreated ordersQueue 6)] ++
    List.replicate 4 .read

/-- A group is added by one client and deleted by another, and the two events are published in
the other order. -/
def crossedAnnouncements : List DirectoryAction :=
  ordersWithGroup 2 ++ loadOrders ++
    [.checkGroup ordersQueue 6, .addGroup ordersQueue 6, .deleteGroup .manager ordersQueue 6,
      .announce (.groupDeleted ordersQueue 6), .announce (.groupCreated ordersQueue 6), .deliver,
      .deliver]

/-- What the producer knows of the orders, and what is stored, once everything has been
published and has arrived. -/
def ordersAfter (as : List DirectoryAction) : Option (Option (List GroupId) × List GroupId) :=
  (Run.exec Directory.step Directory.initial as).bind fun s =>
    if s.phase = .ready ∧ s.unannounced = [] ∧ s.undelivered = [] then
      some (s.targets ordersQueue, s.groups ordersQueue)
    else none

/-- The producer keeps a group that does not exist any more, misses one that exists, and keeps
one that was deleted at once. -/
theorem producer_misinformed :
    ordersAfter unannouncedShutdown = some (some [9], []) ∧
      ordersAfter announcedTooEarly = some (some [2], [2, 6]) ∧
      ordersAfter crossedAnnouncements = some (some [2, 6], [2]) := by
  decide

/-- A group is added after the producer has made its subscriptions. -/
def announcedInTime : List DirectoryAction :=
  ordersWithGroup 2 ++ loadOrders ++
    [.checkGroup ordersQueue 6, .addGroup ordersQueue 6, .announce (.groupCreated ordersQueue 6),
      .deliver]

theorem producer_informed_of_careful_inTime :
    ∃ s, Directory.initial.Runs announcedInTime s ∧ s.targets ordersQueue = some [2, 6] ∧
      s.Informed ordersQueue := by
  have hsome : ((Run.exec Directory.step Directory.initial announcedInTime).map fun s =>
      ((s.phase, s.undelivered, s.unannounced), s.models ordersQueue, s.targets ordersQueue)) =
      some ((.ready, [], []), some .pubSub, some [2, 6]) := by
    decide
  obtain ⟨s, hs, hleft⟩ := Option.map_eq_some_iff.1 hsome
  simp only [Prod.mk.injEq] at hleft
  obtain ⟨⟨hready, hdelivered, hannounced⟩, hmodel, htargets⟩ := hleft
  have hall : s.Announced ordersQueue := by
    intro e he
    rw [hannounced] at he
    cases he
  exact ⟨s, hs, htargets,
    producer_informed_of_careful (by decide) hs hready hdelivered ordersQueue hall hmodel⟩

end RedisSmq
