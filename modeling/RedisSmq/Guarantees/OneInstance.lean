import RedisSmq.Consumers.Runner

/-!
# One instance for each handler

At most one instance should be running for each configured handler, and none after the
handler was stopped or removed. This fails in four ways. The group of an instance is
rewritten when a handler without a group starts on a queue with groups, so that the instance
is never found again. An instance that has shut itself down stays in the list, ahead of the
one that `reconcile` starts in its place, and is the one that is found when the handler is
stopped. `reconcile` starts handlers of active queues again that were stopped. And handlers
are started, stopped or removed while `Run` or `reconcile` is about to start them.
-/

namespace RedisSmq

namespace Runner

/-- At most one instance runs for each handler, and none for one that was stopped. -/
structure Single (r : Runner) : Prop where
  atMostOne : ∀ cfg, (r.runningFor cfg).length ≤ 1
  barred : ∀ cfg ∈ r.barred, r.runningFor cfg = []

/-- If an instance runs for the handler, then the first one that is found does. -/
def FindsRunning (r : Runner) (cfg : HandlerConfig) : Prop :=
  ∀ i, r.instances.find? (Instance.isFor cfg) = some i → i.running = true ∨ r.runningFor cfg = []
  deriving Decidable

/-- Neither `Run` nor `reconcile` is about to start an instance for the handler, or to put one
into the list. -/
def Untouched (r : Runner) (cfg : HandlerConfig) : Prop :=
  cfg ∉ r.toStart ∧ ∀ i, r.launched = some i → i.config ≠ cfg
  deriving Decidable

/-- An instance for the handler keeps the group if it starts. -/
def KeepsGroup (r : Runner) (cfg : HandlerConfig) (reception : Reception) : Prop :=
  ∀ i, r.runInstance cfg reception = some i → i.group = cfg.group
  deriving Decidable

/-- The condition on an action. -/
def Careful (r : Runner) : RunnerAction → Prop
  | .remove cfg | .serve (.stop cfg) _ => r.FindsRunning cfg ∧ r.Untouched cfg
  | .serve (.start cfg) reception => r.KeepsGroup cfg reception ∧ r.Untouched cfg
  | .run => r.instances = [] ∧ ∀ cfg ∈ r.handlers, cfg ∉ r.barred
  | .scan => ∀ cfg ∈ r.missing, cfg ∉ r.barred
  | .launch reception => ∀ cfg ∈ r.toStart.head?, r.KeepsGroup cfg reception
  | _ => True

instance decidableCareful (r : Runner) : ∀ a, Decidable (r.Careful a)
  | .remove _ | .serve (.stop _) _ | .serve (.start _) _ | .run =>
      inferInstanceAs (Decidable (_ ∧ _))
  | .scan => inferInstanceAs (Decidable (∀ cfg ∈ r.missing, cfg ∉ r.barred))
  | .launch reception =>
      inferInstanceAs (Decidable (∀ cfg ∈ r.toStart.head?, r.KeepsGroup cfg reception))
  | .add _ | .request _ | .callback _ _ | .skip | .finish | .append | .die _ | .dieLaunched =>
      isTrue trivial

end Runner

section Steps

variable {r r' : Runner} {cfg : HandlerConfig} {a : RunnerAction}

namespace Runner

variable {reception : Reception}

/-- No instance has had its group rewritten. -/
def Kept (r : Runner) : Prop := ∀ i ∈ r.launched.toList ++ r.instances, i.group = i.config.group

theorem Kept.isFor_iff {i : Instance} (h : r.Kept) (hi : i ∈ r.instances) :
    i.isFor cfg = true ↔ i.config = cfg := by
  rw [Instance.isFor, HandlerConfig.sameAs_iff, h i (List.mem_append_right _ hi)]

/-- Dropping an instance leaves fewer. -/
theorem runningFor_dropInstance_sublist (r : Runner) (cfg cfg' : HandlerConfig) :
    ((r.dropInstance cfg).runningFor cfg').Sublist (r.runningFor cfg') :=
  (List.Sublist.append_left List.eraseP_sublist _).filter _

theorem runningFor_dropInstance_subperm (r : Runner) (cfg cfg' : HandlerConfig) :
    ((r.dropInstance cfg).runningFor cfg').Subperm (r.runningFor cfg') :=
  (r.runningFor_dropInstance_sublist cfg cfg').subperm

/-- After the first instance for a handler is dropped, none is running for it. -/
theorem runningFor_dropInstance_self (hkept : r.Kept) (hone : (r.runningFor cfg).length ≤ 1)
    (hfinds : r.FindsRunning cfg) (hnot : r.Untouched cfg) :
    (r.dropInstance cfg).runningFor cfg = [] := by
  have hsub := r.runningFor_dropInstance_sublist cfg cfg
  cases hfind : r.instances.find? (Instance.isFor cfg) with
  | none =>
    refine List.filter_eq_nil_iff.2 fun i hi hrun => ?_
    rw [decide_eq_true_iff] at hrun
    rcases List.mem_append.1 hi with hi | hi
    · exact hnot.2 i (Option.mem_toList.1 hi) hrun.2
    · have hi := List.mem_of_mem_eraseP hi
      exact List.find?_eq_none.1 hfind i hi ((hkept.isFor_iff hi).2 hrun.2)
  | some i =>
    rcases hfinds i hfind with hrun | hnone
    · -- the one that runs is the one that is dropped
      obtain ⟨hfor, before, after, hsplit, hbefore⟩ := List.find?_eq_some_iff_append.1 hfind
      have hdrop : (r.dropInstance cfg).instances = before ++ after := by
        change r.instances.eraseP _ = _
        rw [hsplit, List.eraseP_append_right _ (by simpa using hbefore),
          List.eraseP_cons_of_pos hfor]
      have hi : i ∈ r.instances := List.mem_of_find?_eq_some hfind
      have hcfg : i.config = cfg := (hkept.isFor_iff hi).1 hfor
      rw [runningFor, hsplit] at hone
      rw [runningFor, hdrop]
      simp only [List.filter_append, List.filter_cons, hrun, hcfg, List.length_append,
        List.length_cons, decide_true, and_self, if_true] at hone ⊢
      refine List.eq_nil_of_length_eq_zero ?_
      simp only [List.length_append]
      change (List.filter _ r.launched.toList).length + _ = 0
      omega
    · exact List.sublist_nil.1 (hnone ▸ hsub)

/-- A handler has no running instance if there is none in the list and none on its way. -/
theorem runningFor_eq_nil (hkept : r.Kept)
    (hnone : ∀ i ∈ r.instances, i.running = true → i.isFor cfg = false)
    (hnot : ∀ i, r.launched = some i → i.config ≠ cfg) : r.runningFor cfg = [] := by
  refine List.filter_eq_nil_iff.2 fun i hi hrun => ?_
  rw [decide_eq_true_iff] at hrun
  rcases List.mem_append.1 hi with hi | hi
  · exact hnot i (Option.mem_toList.1 hi) hrun.2
  · exact Bool.eq_false_iff.1 (hnone i hi hrun.1) ((hkept.isFor_iff hi).2 hrun.2)

/-- No further instance runs. -/
theorem Single.of_subperm (hs : r.Single)
    (hsub : ∀ cfg, (r'.runningFor cfg).Subperm (r.runningFor cfg))
    (hbarred : ∀ cfg ∈ r'.barred, cfg ∈ r.barred ∨ r'.runningFor cfg = []) : r'.Single where
  atMostOne cfg := (hsub cfg).length_le.trans (hs.atMostOne cfg)
  barred cfg hcfg := by
    rcases hbarred cfg hcfg with hold | hnone
    · exact List.subperm_nil.1 (hs.barred cfg hold ▸ hsub cfg)
    · exact hnone

/-- One more instance runs, for a handler that has none. -/
theorem Single.of_insert {i : Instance} (hs : r.Single) (hnone : r.runningFor i.config = [])
    (hperm : (r'.launched.toList ++ r'.instances).Perm
      (i :: (r.launched.toList ++ r.instances)))
    (hbarred : ∀ cfg ∈ r'.barred, cfg ∈ r.barred ∧ cfg ≠ i.config) : r'.Single := by
  have hfilter : ∀ cfg, (r'.runningFor cfg).Perm
      ((i :: (r.launched.toList ++ r.instances)).filter fun i => i.running ∧ i.config = cfg) :=
    fun cfg => hperm.filter _
  have hother : ∀ cfg, cfg ≠ i.config → (r'.runningFor cfg).Perm (r.runningFor cfg) := by
    intro cfg hne
    refine (hfilter cfg).trans (.of_eq (List.filter_cons_of_neg ?_))
    simp [Ne.symm hne]
  constructor
  · intro cfg
    by_cases hcfg : cfg = i.config
    · subst hcfg
      have hrest : (r.launched.toList ++ r.instances).filter
          (fun j => j.running ∧ j.config = i.config) = [] := hnone
      rw [(hfilter _).length_eq, List.filter_cons, hrest]
      split <;> simp
    · rw [(hother cfg hcfg).length_eq]
      exact hs.atMostOne cfg
  · intro cfg hcfg
    obtain ⟨hold, hne⟩ := hbarred cfg hcfg
    exact List.perm_nil.1 (hs.barred cfg hold ▸ hother cfg hne)

theorem Kept.mono (hkept : r.Kept) (h : ∀ i ∈ r'.launched.toList ++ r'.instances,
      i ∈ r.launched.toList ++ r.instances ∨ i.group = i.config.group) : r'.Kept := by
  intro i hi
  rcases h i hi with hold | hnew
  · exact hkept i hold
  · exact hnew

theorem Kept.dropInstance (hkept : r.Kept) (cfg : HandlerConfig) : (r.dropInstance cfg).Kept :=
  hkept.mono fun _ hi =>
    .inl ((List.Sublist.append_left List.eraseP_sublist _).subset hi)

/-- What is known of an instance that starts. -/
theorem runInstance_config {i : Instance}
    (h : r.runInstance cfg reception = some i) : i.config = cfg := by
  obtain ⟨-, h⟩ := Option.ite_none_right_eq_some.1 h
  obtain ⟨group, -, rfl⟩ := Option.map_eq_some_iff.1 h
  rfl

/-- The invariant of the runs. -/
structure Steady (r : Runner) : Prop where
  kept : r.Kept
  single : r.Single
  handlers : r.handlers.Nodup
  distinct : r.toStart.Nodup
  /-- What is about to be started was not stopped, and nothing runs for it. -/
  due : ∀ cfg ∈ r.toStart, cfg ∉ r.barred ∧ r.runningFor cfg = []

/-- A step after which no further instance runs. -/
theorem Steady.shrink (h : r.Steady) (hkept : r'.Kept)
    (hsub : ∀ cfg, (r'.runningFor cfg).Subperm (r.runningFor cfg))
    (hbarred : ∀ cfg ∈ r'.barred,
      cfg ∈ r.barred ∨ cfg ∉ r'.toStart ∧ r'.runningFor cfg = [])
    (hhandlers : r'.handlers.Nodup) (hdue : r'.toStart.Sublist r.toStart) : r'.Steady where
  kept := hkept
  single := h.single.of_subperm hsub fun cfg hcfg => (hbarred cfg hcfg).imp id And.right
  handlers := hhandlers
  distinct := h.distinct.sublist hdue
  due cfg hcfg := by
    obtain ⟨hfree, hnone⟩ := h.due cfg (hdue.subset hcfg)
    refine ⟨fun hmem => ?_, List.subperm_nil.1 (hnone ▸ hsub cfg)⟩
    rcases hbarred cfg hmem with hold | ⟨hout, -⟩
    · exact hfree hold
    · exact hout hcfg

/-- The instances are the same, in the list or on their way to it. -/
theorem Steady.of_perm (h : r.Steady)
    (hperm : (r'.launched.toList ++ r'.instances).Perm (r.launched.toList ++ r.instances))
    (hbarred : r'.barred = r.barred) (hhandlers : r'.handlers = r.handlers)
    (hdue : r'.toStart.Sublist r.toStart) : r'.Steady :=
  h.shrink (h.kept.mono fun _ hi => .inl (hperm.subset hi))
    (fun _ => (hperm.filter _).subperm) (fun _ hcfg => .inl (hbarred ▸ hcfg))
    (hhandlers ▸ h.handlers) hdue

/-- An instance that shuts itself down. -/
theorem filter_modify_sublist (l : List Instance) (n : Nat) (cfg : HandlerConfig) :
    ((l.modify n fun i => { i with running := false }).filter
      fun i => i.running ∧ i.config = cfg).Sublist
      (l.filter fun i => i.running ∧ i.config = cfg) := by
  induction l generalizing n with
  | nil => simp
  | cons i l ih =>
    cases n with
    | zero =>
      rw [List.modify_zero_cons, List.filter_cons_of_neg (by simp)]
      exact (List.sublist_cons_self i l).filter _
    | succ n =>
      rw [List.modify_succ_cons, List.filter_cons, List.filter_cons]
      split
      · exact (ih n).cons_cons i
      · exact ih n

theorem forall_mem_modify {l : List Instance} {n : Nat} (h : ∀ i ∈ l, i.group = i.config.group) :
    ∀ i ∈ l.modify n fun i => { i with running := false }, i.group = i.config.group := by
  induction l generalizing n with
  | nil => simp
  | cons i l ih =>
    rw [List.forall_mem_cons] at h
    cases n with
    | zero => exact List.forall_mem_cons.2 h
    | succ n => exact List.forall_mem_cons.2 ⟨h.1, ih h.2⟩

theorem Steady.addHandler (h : r.Steady) (cfg : HandlerConfig) : (r.addHandler cfg).Steady := by
  have hbarred : ∀ cfg' ∈ r.barred.filter (· ≠ cfg), cfg' ∈ r.barred :=
    fun cfg' hcfg => (List.mem_filter.1 hcfg).1
  unfold Runner.addHandler
  split
  · exact h.shrink (h.kept.dropInstance cfg) (r.runningFor_dropInstance_subperm cfg)
      (fun cfg' hcfg => .inl (hbarred cfg' hcfg)) h.handlers (.refl _)
  · rename_i hany
    refine h.shrink h.kept (fun _ => .refl _) (fun cfg' hcfg => .inl (hbarred cfg' hcfg)) ?_
      (.refl _)
    refine List.nodup_append.2 ⟨h.handlers, List.nodup_singleton cfg, ?_⟩
    rintro cfg₁ hcfg₁ cfg₂ hcfg₂ rfl
    refine hany (List.any_eq_true.2 ⟨cfg₁, hcfg₁, ?_⟩)
    exact HandlerConfig.sameAs_iff.2 (List.mem_singleton.1 hcfg₂)

/-- `RemoveHandler` and `StopHandler`. -/
theorem Steady.bar (h : r.Steady) (hfinds : r.FindsRunning cfg) (hnot : r.Untouched cfg)
    {handlers : List HandlerConfig} (hhandlers : handlers.Nodup) :
    Steady { r.dropInstance cfg with handlers := handlers, barred := cfg :: r.barred } := by
  refine h.shrink (h.kept.dropInstance cfg) (r.runningFor_dropInstance_subperm cfg) ?_ hhandlers
    (.refl _)
  intro cfg' hcfg
  rcases List.mem_cons.1 hcfg with rfl | hold
  · exact .inr ⟨hnot.1,
      runningFor_dropInstance_self h.kept (h.single.atMostOne _) hfinds hnot⟩
  · exact .inl hold

/-- One more instance runs, for a handler that has none. -/
theorem Steady.insert {i : Instance} (h : r.Steady) (hgroup : i.group = i.config.group)
    (hnone : r.runningFor i.config = [])
    (hperm : (r'.launched.toList ++ r'.instances).Perm (i :: (r.launched.toList ++ r.instances)))
    (hbarred : ∀ cfg ∈ r'.barred, cfg ∈ r.barred ∧ cfg ≠ i.config)
    (hhandlers : r'.handlers = r.handlers) (hdue : r'.toStart.Sublist r.toStart)
    (hout : i.config ∉ r'.toStart) : r'.Steady where
  kept := h.kept.mono fun j hj => by
    rcases List.mem_cons.1 (hperm.subset hj) with rfl | hold
    · exact .inr hgroup
    · exact .inl hold
  single := h.single.of_insert hnone hperm hbarred
  handlers := hhandlers ▸ h.handlers
  distinct := h.distinct.sublist hdue
  due cfg hcfg := by
    obtain ⟨hfree, hnone'⟩ := h.due cfg (hdue.subset hcfg)
    refine ⟨fun hmem => hfree (hbarred cfg hmem).1, ?_⟩
    have hne : i.config ≠ cfg := fun heq => hout (heq ▸ hcfg)
    have hrunning : (r'.runningFor cfg).Perm
        ((i :: (r.launched.toList ++ r.instances)).filter fun i => i.running ∧ i.config = cfg) :=
      hperm.filter _
    rw [List.filter_cons_of_neg (by simp [hne])] at hrunning
    exact List.perm_nil.1 (hnone' ▸ hrunning)

theorem Steady.startHandler (h : r.Steady)
    (hkeeps : r.KeepsGroup cfg reception) (hnot : r.Untouched cfg) :
    (r.startHandler cfg reception).Steady := by
  unfold Runner.startHandler
  split
  · exact h
  split
  · exact h
  rename_i hany
  split
  · exact h
  rename_i i hrun
  obtain rfl : i.config = cfg := runInstance_config hrun
  have hlist : ∀ j ∈ r.instances, j.running = true → j.isFor i.config = false :=
    fun j hj _ => Bool.eq_false_iff.2 fun hfor => hany (List.any_eq_true.2 ⟨j, hj, hfor⟩)
  refine h.insert (hkeeps i hrun) (runningFor_eq_nil h.kept hlist hnot.2) ?_ (fun cfg' hmem => ?_)
    rfl (.refl _) hnot.1
  · rw [← List.append_assoc]
    exact List.perm_append_singleton _ _
  · rw [List.mem_filter, decide_eq_true_iff] at hmem
    exact hmem

/-- The next instance starts, or it does not. -/
theorem Steady.launch {rest : List HandlerConfig} {phase : RunnerPhase} (h : r.Steady)
    (htoStart : r.toStart = cfg :: rest) (hlaunched : r.launched = none)
    (hkeeps : r.KeepsGroup cfg reception) :
    Steady { r with toStart := rest, launched := r.runInstance cfg reception, phase := phase } := by
  have hrest : rest.Sublist r.toStart := htoStart ▸ List.sublist_cons_self cfg rest
  cases hrun : r.runInstance cfg reception with
  | none => exact h.of_perm (by rw [hlaunched]) rfl rfl hrest
  | some i =>
    obtain rfl : i.config = cfg := runInstance_config hrun
    obtain ⟨hfree, hnone⟩ := h.due i.config (htoStart ▸ List.mem_cons_self)
    have hdistinct := h.distinct
    rw [htoStart] at hdistinct
    exact h.insert (hkeeps i hrun) hnone (by rw [hlaunched]; rfl)
      (fun cfg' hmem => ⟨hmem, fun heq => hfree (heq ▸ hmem)⟩) rfl hrest
      (List.nodup_cons.1 hdistinct).1

theorem Steady.shutdownLocked (h : r.Steady) : r.shutdownLocked.Steady := by
  have hsub : ∀ cfg, ((r.shutdownLocked).runningFor cfg).Sublist (r.runningFor cfg) :=
    fun cfg => (List.Sublist.append_left (List.nil_sublist _) _).filter _
  exact h.shrink
    (h.kept.mono fun _ hi => .inl ((List.Sublist.append_left (List.nil_sublist _) _).subset hi))
    (fun cfg => (hsub cfg).subperm) (fun _ hcfg => .inl hcfg) h.handlers (List.nil_sublist _)

/-- The handlers that `Run` or `reconcile` collects. -/
theorem Steady.collect {cfgs : List HandlerConfig} {tracker : QueueStateTracker}
    {phase : RunnerPhase} (h : r.Steady) (hcfgs : cfgs.Sublist r.handlers)
    (hdue : ∀ cfg ∈ cfgs, cfg ∉ r.barred ∧ r.runningFor cfg = []) :
    Steady { r with tracker := tracker, phase := phase, toStart := cfgs } :=
  ⟨h.kept, ⟨h.single.atMostOne, h.single.barred⟩, h.handlers, h.handlers.sublist hcfgs, hdue⟩

/-- An instance of the list shuts itself down. -/
theorem Steady.die (h : r.Steady) (n : Nat) :
    Steady { r with instances := r.instances.modify n fun i => { i with running := false } } := by
  refine h.shrink (fun i hi => ?_) (fun cfg => ?_) (fun _ hcfg => .inl hcfg) h.handlers (.refl _)
  · rcases List.mem_append.1 hi with hi | hi
    · exact h.kept i (List.mem_append_left _ hi)
    · exact forall_mem_modify (fun j hj => h.kept j (List.mem_append_right _ hj)) i hi
  · simp only [runningFor, List.filter_append]
    exact ((filter_modify_sublist r.instances n cfg).append_left _).subperm

/-- The instance that is not in the list yet shuts itself down. -/
theorem Steady.dieLaunched (h : r.Steady) :
    Steady { r with launched := r.launched.map fun i => { i with running := false } } := by
  cases hlaunched : r.launched with
  | none => exact h.of_perm (by rw [hlaunched]; rfl) rfl rfl (.refl _)
  | some i =>
    have hlive : r.launched.toList ++ r.instances = i :: r.instances := by rw [hlaunched]; rfl
    refine h.shrink (fun j hj => ?_) (fun cfg => ?_) (fun _ hcfg => .inl hcfg) h.handlers (.refl _)
    · rcases List.mem_cons.1 hj with rfl | hold
      · exact h.kept i (hlive ▸ List.mem_cons_self)
      · exact h.kept j (List.mem_append_right _ hold)
    · rw [runningFor, runningFor, hlive]
      refine List.Sublist.subperm ?_
      change (List.filter _ ({ i with running := false } :: r.instances)).Sublist _
      rw [List.filter_cons_of_neg (by simp)]
      exact (List.sublist_cons_self i _).filter _

/-- A step of the runner that meets the condition. -/
theorem Steady.step (h : r.Steady) (hcond : r.Careful a) (hstep : r.step a = some r') :
    r'.Steady := by
  cases a with
  | add cfg =>
    cases hstep
    exact h.addHandler cfg
  | remove cfg =>
    cases hstep
    exact h.bar hcond.1 hcond.2 (h.handlers.sublist List.eraseP_sublist)
  | request call | callback q transition =>
    cases hstep
    exact h.of_perm (.refl _) rfl rfl (.refl _)
  | serve call reception =>
    obtain ⟨-, hstep⟩ := Option.ite_none_right_eq_some.1 hstep
    cases hstep
    have hr : Steady { r with calls := r.calls.erase call } := h.of_perm (.refl _) rfl rfl (.refl _)
    cases call with
    | start cfg => exact hr.startHandler hcond.1 hcond.2
    | stop cfg => exact hr.bar hcond.1 hcond.2 h.handlers
  | run =>
    obtain ⟨⟨-, hlaunched⟩, hstep⟩ := Option.ite_none_right_eq_some.1 hstep
    cases hstep
    refine h.collect (.refl _) fun cfg hcfg => ⟨hcond.2 cfg hcfg, ?_⟩
    rw [runningFor, hlaunched, hcond.1]
    rfl
  | skip =>
    change r.skipNext = some r' at hstep
    unfold Runner.skipNext at hstep
    split at hstep
    · rename_i htoStart _ _
      cases hstep
      exact h.of_perm (.refl _) rfl rfl (htoStart ▸ List.sublist_cons_self _ _)
    · cases hstep
  | finish =>
    change r.finishRun = some r' at hstep
    unfold Runner.finishRun at hstep
    split at hstep
    · cases hstep
      split
      · exact h.shutdownLocked
      · exact h.of_perm (.refl _) rfl rfl (.refl _)
    · cases hstep
  | scan =>
    obtain ⟨⟨-, -, hlaunched⟩, hstep⟩ := Option.ite_none_right_eq_some.1 hstep
    cases hstep
    refine h.collect List.filter_sublist fun cfg hcfg => ⟨hcond cfg hcfg, ?_⟩
    refine runningFor_eq_nil h.kept (fun i hi hrun => ?_) (fun i hi => ?_)
    · have hnot := (List.mem_filter.1 hcfg).2
      simp only [Bool.and_eq_true, Bool.not_eq_true', List.any_eq_false] at hnot
      exact Bool.eq_false_iff.2 fun hfor => hnot.2 i hi ⟨hfor, hrun⟩
    · cases hlaunched.symm.trans hi
  | launch reception =>
    change r.launchNext reception = some r' at hstep
    unfold Runner.launchNext at hstep
    split at hstep
    · rename_i cfg rest total started htoStart hlaunched _
      split at hstep
      · cases hstep
        exact h.shutdownLocked
      · rename_i i hrun
        cases hstep
        exact hrun ▸ h.launch htoStart hlaunched (hcond cfg (by rw [htoStart]; rfl))
    · rename_i cfg rest htoStart hlaunched _
      cases hstep
      exact h.launch htoStart hlaunched (hcond cfg (by rw [htoStart]; rfl))
    · cases hstep
  | append =>
    obtain ⟨i, hi, rfl⟩ := Option.map_eq_some_iff.1 hstep
    refine h.of_perm ?_ rfl rfl (.refl _)
    rw [hi]
    exact List.perm_append_singleton i r.instances
  | die n =>
    cases hstep
    exact h.die n
  | dieLaunched =>
    cases hstep
    exact h.dieLaunched

end Runner

end Steps

/-- At most one instance is running for each handler, and none for a handler that was stopped
or removed, in every state of a run whose steps all meet the condition. -/
theorem single_of_careful (c : ConsumerId) (as : List RunnerAction) (r : Runner)
    (hcond : Run.Along Runner.step Runner.Careful (Runner.new c) as)
    (hrun : (Runner.new c).Runs as r) : r.Single := by
  have hinit : (Runner.new c).Steady :=
    ⟨fun i hi => absurd hi List.not_mem_nil,
      ⟨fun _ => Nat.zero_le 1, fun _ hcfg => absurd hcfg List.not_mem_nil⟩, List.nodup_nil,
      List.nodup_nil, fun _ hcfg => absurd hcfg List.not_mem_nil⟩
  exact (Run.invariant_along (P := Runner.Steady) (fun _ _ _ h hc hs => h.step hc hs) hinit hcond
    hrun).single

/-- A handler of the orders without a group. -/
def ordersHandler : HandlerConfig := ⟨ordersQueue, none⟩

/-- A handler is added and started by `Run`. -/
def addAndRun (cfg : HandlerConfig) (model : DeliveryModel) : List RunnerAction :=
  [.add cfg, .run, .launch ⟨model, true⟩, .append, .finish]

/-- A second instance is started next to one whose group was rewritten; a handler that was
stopped is started again by `reconcile`; stopping a handler finds the instance that has shut
itself down; and a callback starts an instance before `Run` does. -/
theorem several_instances_run :
    (Run.exec Runner.step (Runner.new 1) (addAndRun ordersHandler .pubSub ++
        [.scan, .launch ⟨.pubSub, true⟩])).map
        (fun r => (r.runningFor ordersHandler).length) = some 2 ∧
      (Run.exec Runner.step (Runner.new 1) (addAndRun ordersHandler .pointToPoint ++
        [.request (.stop ordersHandler), .serve (.stop ordersHandler) ⟨.pointToPoint, true⟩,
          .scan, .launch ⟨.pointToPoint, true⟩])).map
        (fun r => (decide (ordersHandler ∈ r.barred), (r.runningFor ordersHandler).length)) =
        some (true, 1) ∧
      (Run.exec Runner.step (Runner.new 1) (addAndRun ordersHandler .pointToPoint ++
        [.die 0, .scan, .launch ⟨.pointToPoint, true⟩, .append, .request (.stop ordersHandler),
          .serve (.stop ordersHandler) ⟨.pointToPoint, true⟩])).map
        (fun r => (decide (ordersHandler ∈ r.barred), (r.runningFor ordersHandler).length)) =
        some (true, 1) ∧
      (Run.exec Runner.step (Runner.new 1)
        [.add ordersHandler, .run, .callback ordersQueue
            { fromState := some .paused, toState := .active, reason := .recovery, timestamp := 0 },
          .serve (.start ordersHandler) ⟨.pointToPoint, true⟩,
          .launch ⟨.pointToPoint, true⟩]).map
        (fun r => (r.runningFor ordersHandler).length) = some 2 := by
  decide

theorem single_of_careful_restart :
    ∃ r, (Runner.new 1).Runs (addAndRun ordersHandler .pointToPoint ++
        [.die 0, .scan, .launch ⟨.pointToPoint, true⟩, .append]) r ∧
      (r.runningFor ordersHandler).length = 1 ∧ r.Single := by
  have hsome : ((Run.exec Runner.step (Runner.new 1) (addAndRun ordersHandler .pointToPoint ++
      [.die 0, .scan, .launch ⟨.pointToPoint, true⟩, .append])).map
      fun r => (r.runningFor ordersHandler).length) = some 1 := by decide
  obtain ⟨r, hr, hone⟩ := Option.map_eq_some_iff.1 hsome
  refine ⟨r, hr, hone, single_of_careful 1 _ r ?_ hr⟩
  decide

end RedisSmq
