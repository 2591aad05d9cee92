import RedisSmq.Guarantees.ConfigUpdates

/-!
# Initialisation of the configuration

`Init` falls back on the defaults when the hash is absent or cannot be decoded, and saves
them as if the stored version were zero. So it fails where the hash has another version: a
damaged hash that still has its version is never repaired, and of several processes that
find no hash only the first one succeeds.
-/

namespace RedisSmq.Configuration

/-- The steps of a call of `Init`. -/
def Action.Initialises : Action → Prop
  | .init _ _ | .proceed _ => True
  | _ => False

instance Action.decidableInitialises : ∀ a : Action, Decidable a.Initialises
  | .init .. | .proceed .. => inferInstanceAs (Decidable True)
  | .save .. | .reload .. | .reset .. | .deliver .. => inferInstanceAs (Decidable False)

/-- The number of commands that a call has still to make. -/
def Phase.remaining : Phase → Nat
  | .idle => 0
  | .writingEpoch _ _ => 1
  | .creating => 2

namespace ConfigHash

variable {h : ConfigHash}

/-- The defaults are saved over a hash without a version, or with the version zero. -/
theorem saveConfig_defaults (hv : h.version = none ∨ h.version = some (.number 0)) :
    h.saveConfig 0 defaultSettings =
      ({ h with version := some (.number 1), data := some (.json defaultSettings) }, .ok 1) := by
  have hplain : defaultSettings.marshal = defaultSettings :=
    Settings.defaultSettings_plain.marshal
  rcases hv with hv | hv
  · simp [saveConfig, hv, hplain]
  · simp [saveConfig, hv, hplain, VersionText.tonumber, VersionText.increment]

/-- They are saved over no other one. -/
theorem saveConfig_defaults_error (hnone : h.version ≠ none)
    (hzero : h.version ≠ some (.number 0)) :
    ∃ h' e, h.saveConfig 0 defaultSettings = (h', .error e) := by
  obtain ⟨v, hv⟩ := Option.ne_none_iff_exists'.1 hnone
  simp only [saveConfig, hv]
  split
  case isTrue heq =>
    cases v with
    | other => exact ⟨_, _, rfl⟩
    | number n =>
      have hn : n = 0 := (Double.round_eq_round_iff (by decide)).1 (Option.some.inj heq)
      exact absurd (hn ▸ hv) hzero
  case isFalse => exact ⟨_, _, rfl⟩

end ConfigHash

namespace World

/-- The replies of the calls that end with the step. -/
def replies (w : World) : Action → List (ManagerId × Reply)
  | .init i fresh => ((w.act (.init i fresh)).bind Prod.snd).toList.map (i, ·)
  | .proceed i => ((w.act (.proceed i)).bind Prod.snd).toList.map (i, ·)
  | _ => []

/-- A call that is about to save the defaults finds no version, or the version zero. -/
def Creatable (w : World) : Action → Prop
  | .proceed i => (w.managers i).phase = .creating →
      w.hash.version = none ∨ w.hash.version = some (.number 0)
  | _ => True

instance decidableCreatable (w : World) : ∀ a : Action, Decidable (w.Creatable a)
  | .proceed i => inferInstanceAs (Decidable ((w.managers i).phase = .creating → _ ∨ _))
  | .init .. | .save .. | .reload .. | .reset .. | .deliver .. =>
      inferInstanceAs (Decidable True)

/-- `Init` has returned nil and the manager holds what the hash holds: what was there before
any initialisation, or else the defaults. -/
def Initialised (h : ConfigHash) (w : World) (x : ManagerId × Reply) : Prop :=
  (∃ version, x.2 = .ok version) ∧
    ∃ c, (w.managers x.1).current = some c ∧ w.hash.decode = some c ∧
      (h.decode = some c ∨ (h.decode = none ∧ c.toSettings = defaultSettings))

variable {w w' : World} {a : Action} {i : ManagerId} {h : ConfigHash}

/-- A call that is in progress can always go on, and comes closer to its end. -/
theorem proceed_remaining (hphase : (w.managers i).phase ≠ .idle) :
    ∃ w', w.step (.proceed i) = some w' ∧
      (w'.managers i).phase.remaining < (w.managers i).phase.remaining := by
  cases hcase : (w.managers i).phase with
  | idle => exact absurd hcase hphase
  | creating =>
    refine ⟨_, by simp [step, act, hcase]; rfl, ?_⟩
    rw [runScript]
    split <;> simp [Phase.remaining]
  | writingEpoch c publish =>
    refine ⟨_, by simp [step, act, hcase]; rfl, ?_⟩
    simp [writeEpoch, setCurrent, Phase.remaining]

/-- The steps of initialisations, with the replies of the calls that end. -/
inductive InitStep (w : World) : Action → World → List (ManagerId × Reply) → Prop
  | again {a : Action} {i : ManagerId} {c : Config} (hcurrent : (w.managers i).current = some c) :
      InitStep w a w [(i, .ok c.version)]
  | loaded {a : Action} {i : ManagerId} {c : Config} (hdecode : w.hash.decode = some c) :
      InitStep w a
        (w.set i { w.managers i with epoch := w.hash.epoch, current := some c, phase := .idle })
        [(i, .ok c.version)]
  | unmarked {a : Action} {i : ManagerId} {c : Config} {fresh : String}
      (hdecode : w.hash.decode = some c) :
      InitStep w a
        (w.set i { w.managers i with epoch := fresh, phase := .writingEpoch c false }) []
  | unreadable {a : Action} {i : ManagerId} {fresh : String} (hdecode : w.hash.decode = none) :
      InitStep w a (w.set i { w.managers i with epoch := fresh, phase := .creating }) []
  | created {i : ManagerId} {hash : ConfigHash} {version : Int}
      (hphase : (w.managers i).phase = .creating)
      (hsave : w.hash.saveConfig 0 defaultSettings = (hash, .ok version)) :
      InitStep w (.proceed i)
        ({ w with hash }.set i
          { w.managers i with phase := .writingEpoch { defaultSettings with version } false }) []
  | failed {i : ManagerId} {hash : ConfigHash} {e : Failure}
      (hphase : (w.managers i).phase = .creating)
      (hsave : w.hash.saveConfig 0 defaultSettings = (hash, .error e)) :
      InitStep w (.proceed i) ({ w with hash }.set i { w.managers i with phase := .idle })
        [(i, .error e)]
  | wrote {a : Action} {i : ManagerId} {c : Config} {publish : Bool}
      (hphase : (w.managers i).phase = .writingEpoch c publish) :
      InitStep w a (w.writeEpoch i c publish).1 [(i, .ok c.version)]

theorem InitStep.of_step (ha : a.Initialises) (hstep : w.step a = some w') :
    InitStep w a w' (w.replies a) := by
  obtain ⟨x, hact, rfl⟩ := Option.map_eq_some_iff.1 hstep
  cases a with
  | init i fresh =>
    rw [replies, hact]
    simp only [act] at hact
    split at hact
    · cases hact
      rw [load]
      cases hdecode : w.hash.decode with
      | none => exact .unreadable hdecode
      | some c =>
        dsimp only
        split
        · exact .unmarked hdecode
        · rw [setCurrent, set_set, set_self]
          exact .loaded hdecode
    · cases hact
      exact .again ‹_›
    · cases hact
  | proceed i =>
    rw [replies, hact]
    simp only [act] at hact
    split at hact
    · cases hact
    case h_2 hphase =>
      cases hact
      rw [runScript]
      rcases hsave : w.hash.saveConfig 0 defaultSettings with ⟨hash, e | version⟩
      · exact .failed hphase hsave
      · exact .created hphase hsave
    case h_3 c publish hphase =>
      cases hact
      exact .wrote hphase
  | save | reload | reset | deliver => exact ha.elim

namespace InitStep

variable {rs : List (ManagerId × Reply)} {j : ManagerId}

section

variable (hstep : InitStep w a w' rs)

include hstep

/-- A call saves the defaults if it could not decode the hash. -/
theorem creating (hj : (w'.managers j).phase = .creating) :
    (w.managers j).phase = .creating ∨ w.hash.decode = none := by
  by_cases hsame : w'.managers j = w.managers j
  · rw [hsame] at hj
    exact .inl hj
  cases hstep with
  | again => exact absurd rfl hsame
  | unreadable hdecode => exact .inr hdecode
  | @loaded _ i | @unmarked _ i | @created i | @failed i | @wrote _ i =>
    by_cases hi : j = i
    · subst hi
      simp [writeEpoch, setCurrent] at hj
    · exact absurd (set_of_ne hi _) hsame

/-- The hash keeps its version and data, or gets the defaults. -/
theorem hash (hcreatable : w.Creatable a) :
    (w'.hash.version = w.hash.version ∧ w'.hash.data = w.hash.data) ∨
      ∃ i, (w.managers i).phase = .creating ∧
        (w.hash.version = none ∨ w.hash.version = some (.number 0)) ∧
        w'.hash.version = some (.number 1) ∧ w'.hash.data = some (.json defaultSettings) := by
  cases hstep with
  | again | loaded | unmarked | unreadable | wrote => exact .inl ⟨rfl, rfl⟩
  | @created i hash version hphase hsave =>
    have hv := hcreatable hphase
    rw [ConfigHash.saveConfig_defaults hv] at hsave
    cases hsave
    exact .inr ⟨i, hphase, hv, rfl, rfl⟩
  | failed hphase hsave =>
    rw [ConfigHash.saveConfig_defaults (hcreatable hphase)] at hsave
    cases hsave

/-- A manager gets what the hash holds after the step. -/
theorem holds {c : Config} (hcreatable : w.Creatable a)
    (hc : w'.Holds j c) : w.Holds j c ∨ w'.hash.decode = some c := by
  cases hstep with
  | again => exact .inl hc
  | loaded hdecode =>
    obtain hc | ⟨-, heq⟩ := holds_set_of_idle hc rfl
    · exact .inl hc
    · exact .inr (hdecode.trans heq)
  | unmarked hdecode =>
    obtain hc | ⟨publish, heq⟩ := holds_set_of_current hc rfl
    · exact .inl hc
    · cases heq
      exact .inr hdecode
  | unreadable =>
    obtain hc | ⟨publish, heq⟩ := holds_set_of_current hc rfl
    · exact .inl hc
    · cases heq
  | created hphase hsave =>
    rw [ConfigHash.saveConfig_defaults (hcreatable hphase)] at hsave
    cases hsave
    obtain hc | ⟨publish, heq⟩ := holds_set_of_current hc rfl
    · exact .inl hc
    · cases heq
      exact .inr rfl
  | failed hphase hsave =>
    rw [ConfigHash.saveConfig_defaults (hcreatable hphase)] at hsave
    cases hsave
  | wrote hphase =>
    obtain hc | ⟨rfl, heq⟩ := holds_set_of_idle hc rfl
    · exact .inl hc
    · cases heq
      exact .inl (.inr ⟨_, hphase⟩)

/-- A call that ends has succeeded, and its manager is initialised. -/
theorem replied {x : ManagerId × Reply} (hcreatable : w.Creatable a) (hx : x ∈ rs) :
    (∃ version, x.2 = .ok version) ∧ (w'.managers x.1).current.isSome := by
  cases hstep with
  | unmarked | unreadable | created => exact absurd hx List.not_mem_nil
  | again hcurrent =>
    rw [List.mem_singleton.1 hx]
    exact ⟨⟨_, rfl⟩, by simp [hcurrent]⟩
  | loaded =>
    rw [List.mem_singleton.1 hx]
    exact ⟨⟨_, rfl⟩, by simp⟩
  | failed hphase hsave =>
    rw [ConfigHash.saveConfig_defaults (hcreatable hphase)] at hsave
    cases hsave
  | wrote =>
    rw [List.mem_singleton.1 hx]
    exact ⟨⟨_, rfl⟩, by simp [writeEpoch, setCurrent]⟩

end

end InitStep

/-- While managers are initialised, the hash is as it was before or holds the defaults, and
all managers hold what it holds. -/
structure Initialising (h : ConfigHash) (w : World) : Prop where
  held : ∀ i c, w.Holds i c → w.hash.decode = some c
  hash : (w.hash.version = h.version ∧ w.hash.data = h.data) ∨
    (h.decode = none ∧ w.hash.version = some (.number 1) ∧
      w.hash.data = some (.json defaultSettings))
  creating : ∀ i, (w.managers i).phase = .creating → h.decode = none

namespace Initialising

theorem start (h : ConfigHash) : Initialising h (World.start h) where
  held i c hc := by
    obtain hc | ⟨_, hc⟩ := hc <;> cases hc
  hash := .inl ⟨rfl, rfl⟩
  creating i hphase := by cases hphase

theorem decode_eq (hi : Initialising h w) :
    w.hash.decode = h.decode ∨
      (h.decode = none ∧ w.hash.decode = some { defaultSettings with version := 1 }) := by
  rcases hi.hash with ⟨hv, hd⟩ | ⟨hnone, hv, hd⟩
  · rw [ConfigHash.decode, hv, hd]
    exact .inl rfl
  · refine .inr ⟨hnone, ?_⟩
    simp [ConfigHash.decode, hv, hd, VersionText.atoi]

theorem step {rs : List (ManagerId × Reply)} (hi : Initialising h w) (hcreatable : w.Creatable a)
    (hstep : InitStep w a w' rs) : Initialising h w' := by
  refine ⟨fun j c hc => ?_, ?_, fun j hj => ?_⟩
  · rcases hstep.holds hcreatable hc with hc | hdecode
    · have hdecode := hi.held j c hc
      rcases hstep.hash hcreatable with ⟨hv, hd⟩ | ⟨i, hphase, hversion, -⟩
      · rwa [ConfigHash.decode, hv, hd]
      -- the defaults are created only while nobody holds anything
      rcases hi.hash with ⟨hv, hd⟩ | ⟨-, hone, -⟩
      · rw [ConfigHash.decode, hv, hd] at hdecode
        exact absurd ((hi.creating i hphase).symm.trans hdecode) (by simp)
      · rw [hone] at hversion
        simp at hversion
    · exact hdecode
  · rcases hstep.hash hcreatable with ⟨hv, hd⟩ | ⟨i, hphase, -, hv, hd⟩
    · rw [hv, hd]
      exact hi.hash
    · exact .inr ⟨hi.creating i hphase, hv, hd⟩
  · rcases hstep.creating hj with hj | hnone
    · exact hi.creating j hj
    rcases hi.decode_eq with heq | ⟨hnone', -⟩
    · rw [← heq, hnone]
    · exact hnone'

end Initialising

/-- A call that would save the defaults over another version fails. -/
theorem creatable_of_replies (hstep : w.step a = some w')
    (hok : ∀ x ∈ w.replies a, ∃ version, x.2 = .ok version) : w.Creatable a := by
  cases a with
  | proceed i =>
    intro hphase
    by_contra hversion
    push Not at hversion
    obtain ⟨h', e, hsave⟩ := ConfigHash.saveConfig_defaults_error hversion.1 hversion.2
    have hreply : (i, .error e) ∈ w.replies (.proceed i) := by
      simp [replies, act, hphase, runScript, hsave]
    obtain ⟨version, heq⟩ := hok _ hreply
    cases heq
  | init | save | reload | reset | deliver => trivial

theorem along_creatable_of_replies {as : List Action} (hrun : w.Runs as w')
    (hok : ∀ x ∈ Run.observe step replies w as, ∃ version, x.2 = .ok version) :
    Run.Along step Creatable w as := by
  induction as generalizing w with
  | nil => trivial
  | cons a as ih =>
    obtain ⟨t, ht, hrun⟩ := Run.exec_cons_some hrun
    have hobserve : Run.observe step replies w (a :: as) =
        w.replies a ++ Run.observe step replies t as := by
      simp [Run.observe, ht]
    rw [hobserve] at hok
    refine ⟨creatable_of_replies ht fun x hx => hok x (List.mem_append_left _ hx), ?_⟩
    intro t' ht'
    cases ht.symm.trans ht'
    exact ih hrun fun x hx => hok x (List.mem_append_right _ hx)

/-- The calls that have ended succeeded, and their managers are initialised. -/
structure Replied (h : ConfigHash) (seen : List (ManagerId × Reply)) (w : World) : Prop where
  ok : ∀ x ∈ seen, (∃ version, x.2 = .ok version) ∧ (w.managers x.1).current.isSome
  initialising : Initialising h w

theorem Replied.start (h : ConfigHash) : Replied h [] (World.start h) :=
  ⟨fun _ hx => absurd hx List.not_mem_nil, .start h⟩

theorem Replied.step {seen : List (ManagerId × Reply)} (hr : Replied h seen w)
    (ha : a.Initialises) (hcreatable : w.Creatable a) (hstep : w.step a = some w') :
    Replied h (seen ++ w.replies a) w' := by
  have hinit := InitStep.of_step ha hstep
  refine ⟨fun x hx => ?_, hr.initialising.step hcreatable hinit⟩
  rcases List.mem_append.1 hx with hx | hx
  · obtain ⟨hok, hsome⟩ := hr.ok x hx
    exact ⟨hok, (Change.of_step hstep).current_isSome hsome⟩
  · exact hinit.replied hcreatable hx

end World

/-- For every content of the hash and every interleaving of initialisations: a call in
progress can always go on and has at most two commands to make, and all calls that have
ended returned nil with what the hash now holds exactly if every call that saved the
defaults found no version, or the version zero. -/
theorem init_yields_iff (h : ConfigHash) (as : List Action) (w : World)
    (hrun : (World.start h).Runs as w) (hinit : ∀ a ∈ as, a.Initialises) :
    (∀ i, (w.managers i).phase ≠ .idle → ∃ w', w.step (.proceed i) = some w' ∧
        (w'.managers i).phase.remaining < (w.managers i).phase.remaining) ∧
      ((∀ x ∈ Run.observe World.step World.replies (World.start h) as, w.Initialised h x) ↔
        Run.Along World.step World.Creatable (World.start h) as) := by
  refine ⟨fun i => World.proceed_remaining, fun hok => ?_, fun halong x hx => ?_⟩
  · exact World.along_creatable_of_replies hrun fun x hx => (hok x hx).1
  · obtain ⟨hreplied, hi⟩ := Run.observe_invariant (P := World.Replied h)
      (fun _ _ _ _ hr hcond hstep => hr.step hcond.1 hcond.2 hstep)
      (World.Replied.start h) (halong.and_forall hinit) hrun
    obtain ⟨hok, hsome⟩ := hreplied x hx
    obtain ⟨c, hc⟩ := Option.isSome_iff_exists.1 hsome
    have hdecode := hi.held x.1 c (.inl hc)
    refine ⟨hok, c, hc, hdecode, ?_⟩
    rcases hi.decode_eq with heq | ⟨hnone, heq⟩
    · exact .inl (heq ▸ hdecode)
    · rw [heq] at hdecode
      cases hdecode
      exact .inr ⟨hnone, rfl⟩

/-- Two processes find no hash; the second one cannot save the defaults any more. -/
def initRace : List Action :=
  [.init 0 "e0", .init 1 "e1", .proceed 0, .proceed 1, .proceed 0]

theorem init_fails_initRace :
    Run.observe World.step World.replies (World.start {}) initRace =
      [(1, .error .versionMismatch), (0, .ok 1)] := by
  decide +kernel

theorem init_yields_iff_twoManagers :
    ∃ w, (World.start {}).Runs twoManagers w ∧ w.Initialised {} (1, .ok 1) := by
  have hsome : (Run.exec World.step (World.start {}) twoManagers).isSome := by decide +kernel
  obtain ⟨w, hw⟩ := Option.isSome_iff_exists.1 hsome
  refine ⟨w, hw, (init_yields_iff {} twoManagers w hw (by decide)).2.2 (by decide +kernel) _ ?_⟩
  decide +kernel

end RedisSmq.Configuration
