import Mathlib.Data.List.Nodup
import RedisSmq.Guarantees.ConfigUpdates

/-!
# Agreement of the configuration managers

A version stands for one configuration: the one that the save with this version has
written. Managers get it from their own save, from the hash or from an event, so they agree
whenever the configuration comes through JSON and through the event bus unchanged. A number
with more than 53 bits does not: the event bus turns it into another one, under the same
version.
-/

namespace RedisSmq.Configuration

/-- The configurations that callers save come through JSON and the event bus unchanged. -/
def Action.Plain : Action → Prop
  | .save _ c _ => c.toSettings.Plain
  | _ => True

instance Action.decidablePlain : ∀ a : Action, Decidable a.Plain
  | .save _ c _ => inferInstanceAs (Decidable c.toSettings.Plain)
  | .init .. | .reload .. | .reset .. | .proceed .. | .deliver .. =>
      inferInstanceAs (Decidable True)

namespace World

variable {w w' : World} {a : Action}

theorem call_plain {expected : Int} {s : Settings} (h : a.Plain)
    (hcall : w.call a = some (expected, s)) : s.Plain := by
  cases a with
  | save i c fresh =>
    simp only [call] at hcall
    split at hcall
    · obtain ⟨current, -, heq⟩ := Option.map_eq_some_iff.1 hcall
      cases heq
      exact h
    · cases hcall
  | reset i fresh =>
    simp only [call] at hcall
    split at hcall
    · obtain ⟨current, -, heq⟩ := Option.map_eq_some_iff.1 hcall
      cases heq
      exact Settings.defaultSettings_plain
    · cases hcall
  | proceed i =>
    simp only [call] at hcall
    split at hcall
    · cases hcall
      exact Settings.defaultSettings_plain
    · cases hcall
  | init | reload | deliver => cases hcall

theorem saves_plain {c : Config} (h : a.Plain) (hc : c ∈ w.saves a) : c.toSettings.Plain := by
  unfold saves at hc
  split at hc
  case h_1 expected s hcall =>
    split at hc
    · rw [List.mem_singleton.1 hc]
      exact call_plain h hcall
    · cases hc
  case h_2 => cases hc

/-- Everything that managers hold, that the hash holds and that was published is among the
saves so far, whose versions are increasing. -/
structure Agreed (saved : List Config) (w : World) : Prop where
  versioned : w.Versioned
  increasing : saved.Pairwise fun c d => c.version < d.version
  bounded : ∀ c ∈ saved, c.version ≤ w.hash.stored
  plain : ∀ c ∈ saved, c.toSettings.Plain
  latest : ∀ c, w.hash.decode = some c → c ∈ saved
  held : ∀ i c, w.Holds i c → c ∈ saved
  announced : ∀ p ∈ w.published, { p.settings with version := p.version } ∈ saved

namespace Agreed

variable {saved : List Config}

theorem fresh : Agreed [] World.fresh where
  versioned := .fresh
  increasing := .nil
  bounded _ hc := absurd hc List.not_mem_nil
  plain _ hc := absurd hc List.not_mem_nil
  latest c hc := by cases hc
  held i c hc := by
    obtain hc | ⟨_, hc⟩ := hc <;> cases hc
  announced _ hp := absurd hp List.not_mem_nil

/-- Configurations with one version are one. -/
theorem unique (h : Agreed saved w) {c d : Config} (hc : c ∈ saved) (hd : d ∈ saved)
    (heq : c.version = d.version) : c = d := by
  have hnodup : (saved.map Config.version).Nodup :=
    List.pairwise_map.2 (h.increasing.imp fun hlt => hlt.ne)
  exact List.inj_on_of_nodup_map hnodup hc hd heq

/-- What the event bus delivers is among the saves. -/
theorem received (h : Agreed saved w) (hlow : w.hash.Low) {p q : UpdatedPayload}
    (hp : p ∈ w.published) (hq : p.received = some q) :
    { q.settings with version := q.version } ∈ saved := by
  have hmem := h.announced p hp
  have hplain : p.settings.Plain := h.plain _ hmem
  have hbounds := h.versioned.announced p hp
  have hlow' : w.hash.stored + 1 < 2 ^ 53 := hlow
  have hsettings : p.settings.marshal.mapNumbers Double.reread = some p.settings := by
    rw [hplain.marshal]
    exact hplain.mapNumbers fun _ => Double.reread_of_lt
  have hversion : Double.reread p.version = some p.version :=
    Double.reread_of_lt (by omega)
  simp only [UpdatedPayload.received, hsettings, hversion] at hq
  cases hq
  exact hmem

theorem step (h : Agreed saved w) (hplain : a.Plain) (hlow : w.hash.Low)
    (hstep : w.step a = some w') : Agreed (saved ++ w.saves a) w' := by
  have hchange := Change.of_step hstep
  have hversioned := h.versioned.step hlow hstep
  have hstored := h.versioned.stored_step hlow hstep
  have hnew : ∀ c ∈ w.saves a, c.version = w.hash.stored + 1 ∧ 0 < (w.saves a).length :=
    fun c hc => ⟨World.Versioned.saved hc, List.length_pos_of_mem hc⟩
  have hold : ∀ {c : Config}, c ∈ saved → c ∈ saved ++ w.saves a :=
    fun hc => List.mem_append_left _ hc
  refine ⟨hversioned, ?_, fun c hc => ?_, fun c hc => ?_, fun c hc => ?_, fun i c hc => ?_,
    fun p hp => ?_⟩
  · refine List.pairwise_append.2 ⟨h.increasing, ?_, fun c hc d hd => ?_⟩
    · rcases hchange.hash h.versioned.kept hlow with ⟨hnone, -⟩ | ⟨_, _, _, -, hsaves, -⟩
      · exact hnone ▸ .nil
      · exact hsaves ▸ List.pairwise_singleton _ _
    · have := h.bounded c hc
      have := hnew d hd
      omega
  · rcases List.mem_append.1 hc with hc | hc
    · have := h.bounded c hc
      omega
    · have := hnew c hc
      omega
  · rcases List.mem_append.1 hc with hc | hc
    · exact h.plain c hc
    · exact saves_plain hplain hc
  · -- the hash holds an old configuration or the new one
    rcases hchange.hash h.versioned.kept hlow with ⟨-, hv, hd⟩ | ⟨e, s, v, hcall, hsaves, hsave⟩
    · rw [ConfigHash.decode, hv, hd] at hc
      exact hold (h.latest c hc)
    obtain ⟨hv, hd, -⟩ := ConfigHash.saveConfig_ok hsave
    obtain ⟨hv', hd'⟩ := hversioned.kept.decode hc
    rw [hv] at hv'
    rw [hd, (call_plain hplain hcall).marshal] at hd'
    cases c
    cases hv'
    cases hd'
    rw [hsaves]
    exact List.mem_append_right _ (List.mem_singleton_self _)
  · obtain hc | hdecode | hc | ⟨p, hp, q, hq, rfl⟩ := hchange.holds hc
    · exact hold (h.held i c hc)
    · exact hold (h.latest c hdecode)
    · exact List.mem_append_right _ hc
    · exact hold (h.received hlow hp hq)
  · obtain hp | ⟨i, c, hc, hsettings, hversion⟩ := hchange.published hp
    · exact hold (h.announced p hp)
    · rw [hsettings, hversion]
      exact hold (h.held i c hc)

end Agreed

end World

/-- In every run from a new Redis in which callers save plain configurations, at versions
that floating-point numbers can tell apart: no manager is ahead of the hash; what it holds is
what the save with this version has written, so managers with one version agree; an accepted
save raises the stored version by one, nothing else changes it, and no manager goes back. -/
theorem versions_agree (as : List Action) (w : World) (hrun : World.fresh.Runs as w)
    (hplain : Run.Along World.step (fun w a => a.Plain ∧ w.hash.Low) World.fresh as) :
    (∀ i c, (w.managers i).current = some c →
        c.version ≤ w.hash.stored ∧ c ∈ Run.observe World.step World.saves World.fresh as) ∧
      (∀ c ∈ Run.observe World.step World.saves World.fresh as,
        ∀ d ∈ Run.observe World.step World.saves World.fresh as,
          c.version = d.version → c = d) ∧
      (∀ i j c d, (w.managers i).current = some c → (w.managers j).current = some d →
        c.version = d.version → c = d) ∧
      ∀ a w', w.hash.Low → w.step a = some w' →
        (w.saves a = [] → w'.hash.stored = w.hash.stored) ∧
        (∀ c ∈ w.saves a, w'.hash.stored = w.hash.stored + 1 ∧ c.version = w'.hash.stored) ∧
        ∀ i c, (w.managers i).current = some c →
          ∃ d, (w'.managers i).current = some d ∧ c.version ≤ d.version := by
  have h : w.Agreed ([] ++ Run.observe World.step World.saves World.fresh as) :=
    Run.observe_invariant (fun _ _ _ _ h hcond hstep => h.step hcond.1 hcond.2 hstep)
      World.Agreed.fresh hplain hrun
  rw [List.nil_append] at h
  refine ⟨fun i c hc => ⟨(h.versioned.held i c (.inl hc)).2, h.held i c (.inl hc)⟩,
    fun c hc d hd => h.unique hc hd,
    fun i j c d hc hd => h.unique (h.held i c (.inl hc)) (h.held j d (.inl hd)),
    fun a w' hlow hstep => ?_⟩
  have hchange := Change.of_step hstep
  have hstored := h.versioned.stored_step hlow hstep
  refine ⟨fun hnone => ?_, fun c hc => ?_, fun i c hc => ?_⟩
  · simpa [hnone] using hstored
  · rcases hchange.hash h.versioned.kept hlow with ⟨hnone, -⟩ | ⟨_, _, _, -, hsaves, -⟩
    · exact absurd (hnone ▸ hc) List.not_mem_nil
    · have hversion := World.Versioned.saved hc
      rw [hsaves, List.length_singleton] at hstored
      omega
  · obtain ⟨d, hd⟩ := Option.isSome_iff_exists.1 (hchange.current_isSome (j := i) (by simp [hc]))
    exact ⟨d, hd, h.versioned.current_step hstep hc hd⟩

/-- A save with a size of 54 bits: both managers hold version 2, and disagree. -/
theorem versions_disagree :
    ∃ w c d, World.fresh.Runs (twoManagers ++ heardSave (2 ^ 53 + 1)) w ∧
      (w.managers 0).current = some c ∧ (w.managers 1).current = some d ∧
      c.version = d.version ∧ c ≠ d := by
  have hrun : (Run.exec World.step World.fresh (twoManagers ++ heardSave (2 ^ 53 + 1))).map
      (fun w => ((w.managers 0).current, (w.managers 1).current)) =
        some (some { sizedSettings (2 ^ 53) with version := 2 },
          some { sizedSettings (2 ^ 53 + 1) with version := 2 }) := by decide +kernel
  obtain ⟨w, hw, heq⟩ := Option.map_eq_some_iff.1 hrun
  simp only [Prod.mk.injEq] at heq
  exact ⟨w, _, _, hw, heq.1, heq.2, rfl, by decide +kernel⟩

theorem versions_agree_heardSave :
    ∃ w c d, World.fresh.Runs (twoManagers ++ heardSave 10) w ∧
      (w.managers 0).current = some c ∧ (w.managers 1).current = some d ∧
      c.version = 2 ∧ c = d := by
  have hrun : (Run.exec World.step World.fresh (twoManagers ++ heardSave 10)).map
      (fun w => ((w.managers 0).current.map Config.version,
        (w.managers 1).current.map Config.version)) = some (some 2, some 2) := by decide +kernel
  obtain ⟨w, hw, heq⟩ := Option.map_eq_some_iff.1 hrun
  simp only [Prod.mk.injEq] at heq
  obtain ⟨c, hc, hc2⟩ := Option.map_eq_some_iff.1 heq.1
  obtain ⟨d, hd, hd2⟩ := Option.map_eq_some_iff.1 heq.2
  have hagree := (versions_agree _ w hw (by decide +kernel)).2.2.1
  exact ⟨w, c, d, hw, hc, hd, hc2, hagree 0 1 c d hc hd (hc2.trans hd2.symm)⟩

end RedisSmq.Configuration
