import RedisSmq.Configuration.Versions

/-!
# Updates of the configuration

A save is checked against the version that the manager holds when it runs, not against the
version of the configuration that the caller has changed. An event or a reload between the
caller's `Get` and its `Save` therefore lets the save overwrite an update that the caller
never saw.
-/

namespace RedisSmq.Configuration

/-- A new Redis and managers that are not initialised. -/
def World.fresh : World := World.start {}

theorem World.Versioned.fresh : World.fresh.Versioned :=
  .start (.inl ⟨rfl, rfl⟩)

/-- A save of a configuration that was derived from an older one than the stored one is
refused, and leaves the hash alone. -/
def World.Protected (w : World) (i : ManagerId) (c : Config) (fresh : String) : Prop :=
  w.hash.stored ≠ c.version →
    ∃ w', w.act (.save i c fresh) = some (w', some (.error .versionMismatch)) ∧ w'.hash = w.hash

theorem World.act_save {w : World} {i : ManagerId} {current : Config} (c : Config)
    (fresh : String) (hidle : (w.managers i).phase = .idle)
    (hcurrent : (w.managers i).current = some current) :
    w.act (.save i c fresh) = some (w.persist i current c.toSettings fresh) := by
  simp [World.act, hidle, hcurrent]

/-- The script takes the version of the manager for the stored one only if they agree. -/
theorem World.Versioned.accepted {w : World} {i : ManagerId} {current : Config} {s : Settings}
    {hash : ConfigHash} {version : Int} (hv : w.Versioned) (hlow : w.hash.Low)
    (hcurrent : (w.managers i).current = some current)
    (hsave : w.hash.saveConfig current.version s = (hash, .ok version)) :
    current.version = w.hash.stored := by
  have hbounds := hv.held i current (.inl hcurrent)
  have hlow' : w.hash.stored + 1 < 2 ^ 53 := hlow
  rcases ConfigHash.saveConfig_ok_round hsave with hzero | hround
  · omega
  · exact ((Double.round_eq_round_iff (by omega)).1 hround).symm

/-- In every state that is reached from a new Redis by any interleaving of calls and events,
with versions that floating-point numbers can tell apart, a save is protected exactly if its
manager still holds the version that the caller started from, or is itself behind the hash. -/
theorem save_protected_iff (as : List Action) (w : World) (i : ManagerId) (c current : Config)
    (fresh : String) (hrun : World.fresh.Runs as w)
    (hlow : Run.Along World.step (fun w _ => w.hash.Low) World.fresh as) (hlast : w.hash.Low)
    (hidle : (w.managers i).phase = .idle) (hcurrent : (w.managers i).current = some current) :
    w.Protected i c fresh ↔
      current.version = c.version ∨ current.version ≠ w.hash.stored := by
  have hv : w.Versioned := Run.invariant_along (fun _ _ _ h hlow hstep => h.step hlow hstep)
    World.Versioned.fresh hlow hrun
  rw [World.Protected, World.act_save c fresh hidle hcurrent, World.persist, World.runScript]
  rcases hsave : w.hash.saveConfig current.version c.toSettings with ⟨hash, e | version⟩
  · obtain ⟨rfl, rfl, hne⟩ := ConfigHash.saveConfig_error hv.kept hlast hsave
    have hbehind : current.version ≠ w.hash.stored := by
      intro heq
      rw [heq] at hne
      exact hne rfl
    exact ⟨fun _ => .inr hbehind, fun _ _ => ⟨_, rfl, rfl⟩⟩
  · have heq := hv.accepted hlast hcurrent hsave
    constructor
    · intro h
      by_contra hcond
      push Not at hcond
      obtain ⟨w', hact, -⟩ := h (by omega)
      cases hact
    · intro hcond hstale
      omega

/-- The default settings with another size of the acknowledged audit. -/
def sizedSettings (size : Int) : Settings :=
  { defaultSettings with
    messageAudit :=
      { defaultSettings.messageAudit with
        acknowledgedMessages := { enabled := true, queueSize := size, expire := 0 } } }

/-- Two managers are initialised: the first creates the defaults, the second loads them. -/
def twoManagers : List Action :=
  [.init 0 "e0", .proceed 0, .proceed 0, .init 1 "e1"]

/-- The second manager saves settings of the given size, and the first one hears of it. -/
def heardSave (size : Int) : List Action :=
  [.save 1 { sizedSettings size with version := 1 } "e2", .proceed 1,
    .deliver 0 ⟨sizedSettings size, 2, "e0"⟩]

/-- The first manager's caller has read version 1 and saves what it made of it. In between
the manager heard of version 2, so the save is accepted and replaces that version's data. -/
theorem update_lost :
    ((Run.exec World.step World.fresh twoManagers).map
        fun w => (w.managers 0).current.map Config.version) = some (some 1) ∧
      (∃ w, World.fresh.Runs (twoManagers ++ heardSave 10) w ∧
        w.hash.decode = some { sizedSettings 10 with version := 2 } ∧
        ¬ w.Protected 0 { sizedSettings 20 with version := 1 } "e3") ∧
      (Run.exec World.step World.fresh
        (twoManagers ++ heardSave 10 ++
          [.save 0 { sizedSettings 20 with version := 1 } "e3", .proceed 0])).map
        (fun w => w.hash.decode) = some (some { sizedSettings 20 with version := 3 }) := by
  refine ⟨by decide +kernel, ?_, by decide +kernel⟩
  have hrun : (Run.exec World.step World.fresh (twoManagers ++ heardSave 10)).map (fun w =>
      (w.hash.decode, w.hash.stored,
        (w.act (.save 0 { sizedSettings 20 with version := 1 } "e3")).map Prod.snd)) =
      some (some { sizedSettings 10 with version := 2 }, 2, some none) := by decide +kernel
  obtain ⟨w, hw, heq⟩ := Option.map_eq_some_iff.1 hrun
  simp only [Prod.mk.injEq] at heq
  obtain ⟨hdecode, hstored, hreply⟩ := heq
  refine ⟨w, hw, hdecode, fun hprotected => ?_⟩
  have hstale : w.hash.stored ≠ 1 := by
    rw [hstored]
    decide
  obtain ⟨w', hact, -⟩ := hprotected hstale
  rw [hact] at hreply
  cases hreply

theorem save_protected_iff_twoManagers :
    ∃ w current, World.fresh.Runs twoManagers w ∧ (w.managers 0).current = some current ∧
      current.version = 1 ∧ w.Protected 0 { sizedSettings 20 with version := 1 } "e3" := by
  have hrun : (Run.exec World.step World.fresh twoManagers).map (fun w =>
      (w.managers 0, decide w.hash.Low)) =
      some (⟨some { defaultSettings with version := 1 }, "e0", .idle⟩, true) := by decide +kernel
  obtain ⟨w, hw, heq⟩ := Option.map_eq_some_iff.1 hrun
  simp only [Prod.mk.injEq, decide_eq_true_eq] at heq
  obtain ⟨hmanager, hlow⟩ := heq
  have hidle : (w.managers 0).phase = .idle := by rw [hmanager]
  have hcurrent : (w.managers 0).current = some { defaultSettings with version := 1 } := by
    rw [hmanager]
  exact ⟨w, _, hw, hcurrent, rfl, (save_protected_iff twoManagers w 0 _ _ "e3" hw
    (by decide +kernel) hlow hidle hcurrent).2 (.inl rfl)⟩

end RedisSmq.Configuration
