import RedisSmq.Configuration.Manager

/-!
# The versions that managers hold

The script accepts a save only by raising the stored version by one, and what a manager
holds comes from the hash, from its own save or from an event that another save published.
So no manager is ahead of the hash, as long as the versions are numbers that Lua and the
event bus can tell apart.
-/

namespace RedisSmq.Configuration

namespace ConfigHash

variable {h h' : ConfigHash} {expected version : Int} {s : Settings} {e : Failure}

/-- The hash is as saves leave it, or absent. -/
def Kept (h : ConfigHash) : Prop :=
  (h.version = none ∧ h.data = none) ∨
    ∃ n s, h.version = some (.number n) ∧ h.data = some (.json s) ∧ 0 ≤ n

/-- Saves to come get versions that Lua and the event bus can tell apart. -/
def Low (h : ConfigHash) : Prop := h.stored + 1 < 2 ^ 53
  deriving Decidable

theorem stored_of_number {n : Int} (h : h'.version = some (.number n)) : h'.stored = n := by
  simp [stored, h]

theorem Kept.stored_nonneg (hk : h.Kept) : 0 ≤ h.stored := by
  obtain ⟨hv, -⟩ | ⟨n, s, hv, -, hn⟩ := hk
  · simp [stored, hv]
  · simpa [stored, hv] using hn

/-- An accepted save. -/
theorem saveConfig_ok (hsave : h.saveConfig expected s = (h', .ok version)) :
    h'.version = some (.number version) ∧ h'.data = some (.json s.marshal) ∧
      version = h.stored + 1 := by
  unfold saveConfig at hsave
  split at hsave
  case h_1 hv =>
    cases hsave
    simp [stored, hv]
  case h_2 v hv =>
    split at hsave
    · cases v with
      | other => cases hsave
      | number n =>
        simp only [VersionText.increment] at hsave
        split at hsave <;> cases hsave
        simp_all [stored]
    · cases hsave

/-- Lua took the stored version for the expected one, unless there was none. -/
theorem saveConfig_ok_round (hsave : h.saveConfig expected s = (h', .ok version)) :
    h.stored = 0 ∨ Double.round h.stored = Double.round expected := by
  unfold saveConfig at hsave
  split at hsave
  case h_1 hv => exact .inl (by simp [stored, hv])
  case h_2 v hv =>
    split at hsave
    case isTrue heq =>
      cases v with
      | other => cases hsave
      | number n =>
        rw [stored_of_number hv]
        exact .inr (Option.some.inj heq)
    case isFalse => cases hsave

/-- A refused save leaves a hash with a low version unchanged. -/
theorem saveConfig_error (hk : h.Kept) (hlow : h.Low)
    (hsave : h.saveConfig expected s = (h', .error e)) :
    h' = h ∧ e = .versionMismatch ∧ Double.round h.stored ≠ Double.round expected := by
  obtain ⟨hv, -⟩ | ⟨n, -, hv, -, hn⟩ := hk
  · simp [saveConfig, hv] at hsave
  have hn' : n + 1 < 2 ^ 53 := by
    simpa [Low, stored, hv] using hlow
  have hincrement : (VersionText.number n).increment = some (n + 1) := by
    rw [VersionText.increment, if_pos (by omega)]
  simp only [saveConfig, hv, hincrement, VersionText.tonumber, Option.some.injEq] at hsave
  split at hsave
  · cases hsave
  case isFalse hne =>
    cases hsave
    exact ⟨rfl, rfl, by rwa [stored_of_number hv]⟩

theorem Kept.save (hk : h.Kept) (hsave : h.saveConfig expected s = (h', .ok version)) :
    h'.Kept := by
  obtain ⟨hversion, hdata, heq⟩ := saveConfig_ok hsave
  have := hk.stored_nonneg
  exact .inr ⟨version, s.marshal, hversion, hdata, by omega⟩

/-- What a kept hash decodes to has the stored version. -/
theorem Kept.decode {c : Config} (hk : h.Kept) (hdecode : h.decode = some c) :
    h.version = some (.number c.version) ∧ h.data = some (.json c.toSettings) := by
  obtain ⟨-, hd⟩ | ⟨n, s, hv, hd, hn⟩ := hk
  · simp [ConfigHash.decode, hd] at hdecode
  simp only [ConfigHash.decode, hd, hv, VersionText.atoi] at hdecode
  split at hdecode <;> cases hdecode
  exact ⟨hv, hd⟩

end ConfigHash

namespace World

variable {w : World} {i j : ManagerId} {m : Manager} {c : Config}

/-- A step that leaves the current configuration alone. -/
theorem holds_set_of_current (h : (w.set i m).Holds j c)
    (hcurrent : m.current = (w.managers i).current) :
    w.Holds j c ∨ ∃ publish, m.phase = .writingEpoch c publish := by
  by_cases hj : j = i
  · subst hj
    rw [Holds, set_self, hcurrent] at h
    rcases h with h | h
    · exact .inl (.inl h)
    · exact .inr h
  · rw [Holds, set_of_ne hj] at h
    exact .inl h

/-- A step that ends a call. -/
theorem holds_set_of_idle (h : (w.set i m).Holds j c) (hphase : m.phase = .idle) :
    w.Holds j c ∨ (j = i ∧ m.current = some c) := by
  by_cases hj : j = i
  · subst hj
    rw [Holds, set_self, hphase] at h
    rcases h with h | ⟨publish, h⟩
    · exact .inr ⟨rfl, h⟩
    · cases h
  · rw [Holds, set_of_ne hj] at h
    exact .inl h

theorem current_set (h : ((w.set i m).managers j).current = some c) :
    (j = i ∧ m.current = some c) ∨ (w.managers j).current = some c := by
  by_cases hj : j = i
  · subst hj
    rw [set_self] at h
    exact .inl ⟨rfl, h⟩
  · rw [set_of_ne hj] at h
    exact .inr h

end World

namespace Change

variable {w w' : World} {a : Action} {i j : ManagerId} {c c' : Config}

theorem mem_saves {expected version : Int} {s : Settings} {hash : ConfigHash}
    (hcall : w.call a = some (expected, s))
    (hsave : w.hash.saveConfig expected s = (hash, .ok version)) :
    w.saves a = [{ s with version }] := by
  simp [World.saves, hcall, hsave]

section

variable (h : Change w a w')

include h

/-- Where a configuration that a manager holds comes from. -/
theorem holds (hc : w'.Holds j c) :
    w.Holds j c ∨ w.hash.decode = some c ∨ c ∈ w.saves a ∨
      ∃ p ∈ w.published, ∃ q, p.received = some q ∧
        c = { q.settings with version := q.version } := by
  cases h with
  | same => exact .inl hc
  | loaded _ hdecode =>
    obtain hc | ⟨-, heq⟩ := World.holds_set_of_idle hc rfl
    · exact .inl hc
    · exact .inr (.inl (hdecode.trans heq))
  | unmarked _ hdecode =>
    obtain hc | ⟨publish, heq⟩ := World.holds_set_of_current hc rfl
    · exact .inl hc
    · cases heq
      exact .inr (.inl hdecode)
  | unreadable | refused =>
    obtain hc | ⟨publish, heq⟩ := World.holds_set_of_current hc rfl
    · exact .inl hc
    · cases heq
  | saved hcall hsave =>
    obtain hc | ⟨publish, heq⟩ := World.holds_set_of_current hc rfl
    · exact .inl hc
    cases heq
    rw [mem_saves hcall hsave]
    exact .inr (.inr (.inl (List.mem_singleton_self _)))
  | wrote _ hphase =>
    obtain hc | ⟨rfl, heq⟩ := World.holds_set_of_idle hc rfl
    · exact .inl hc
    · cases heq
      exact .inl (.inr ⟨_, hphase⟩)
  | updated _ _ _ hp hq _ =>
    obtain hc | ⟨-, heq⟩ := World.holds_set_of_idle hc rfl
    · exact .inl hc
    · cases heq
      exact .inr (.inr (.inr ⟨_, hp, _, hq, rfl⟩))

/-- How a current configuration replaces another. -/
theorem current (hc : ((w'.managers j).current) = some c) :
    (w.managers j).current = some c ∨ w.hash.decode = some c ∨
      (∃ publish, (w.managers j).phase = .writingEpoch c publish) ∨
      ∃ d, (w.managers j).current = some d ∧ d.version < c.version := by
  cases h with
  | same => exact .inl hc
  | loaded _ hdecode =>
    obtain ⟨rfl, heq⟩ | hc := World.current_set hc
    · exact .inr (.inl (hdecode.trans heq))
    · exact .inl hc
  | unmarked | unreadable | saved | refused =>
    obtain ⟨rfl, heq⟩ | hc := World.current_set hc
    · exact .inl heq
    · exact .inl hc
  | wrote _ hphase =>
    obtain ⟨rfl, heq⟩ | hc := World.current_set hc
    · cases heq
      exact .inr (.inr (.inl ⟨_, hphase⟩))
    · exact .inl hc
  | updated _ _ hcurrent _ _ hlt =>
    obtain ⟨rfl, heq⟩ | hc := World.current_set hc
    · cases heq
      exact .inr (.inr (.inr ⟨_, hcurrent, hlt⟩))
    · exact .inl hc

/-- A manager stays initialised. -/
theorem current_isSome (hc : (w.managers j).current.isSome) : (w'.managers j).current.isSome := by
  by_cases hsame : w'.managers j = w.managers j
  · rwa [hsame]
  cases h with
  | same => exact absurd rfl hsame
  | @loaded i | @unmarked i | @unreadable i | @saved i | @refused i | @wrote i | @updated i =>
    by_cases hj : j = i
    · subst hj
      simp [World.writeEpoch, World.setCurrent, hc]
    · exact absurd (World.set_of_ne hj _) hsame

/-- A call that is about to end, over a current configuration. -/
theorem pending {publish : Bool} (hphase : (w'.managers j).phase = .writingEpoch c publish)
    (hd : (w'.managers j).current = some c') :
    (w.managers j).current = some c' ∧
      ((w.managers j).phase = .writingEpoch c publish ∨ w.hash.decode = some c ∨
        c ∈ w.saves a) := by
  by_cases hsame : w'.managers j = w.managers j
  · rw [hsame] at hphase hd
    exact ⟨hd, .inl hphase⟩
  cases h with
  | same => exact absurd rfl hsame
  | @loaded i | @unreadable i | @refused i | @wrote i | @updated i =>
    by_cases hj : j = i
    · subst hj
      simp [World.writeEpoch, World.setCurrent] at hphase
    · exact absurd (World.set_of_ne hj _) hsame
  | @unmarked i _ _ _ hdecode =>
    by_cases hj : j = i
    · subst hj
      rw [World.set_self] at hphase hd
      cases hphase
      exact ⟨hd, .inr (.inl hdecode)⟩
    · exact absurd (World.set_of_ne hj _) hsame
  | @saved i _ _ _ _ _ _ hcall hsave =>
    by_cases hj : j = i
    · subst hj
      rw [World.set_self] at hphase hd
      cases hphase
      rw [mem_saves hcall hsave]
      exact ⟨hd, .inr (.inr (List.mem_singleton_self _))⟩
    · exact absurd (World.set_of_ne hj _) hsame

/-- Only what a manager holds is published. -/
theorem published {p : UpdatedPayload} (hp : p ∈ w'.published) :
    p ∈ w.published ∨ ∃ i c, w.Holds i c ∧ p.settings = c.toSettings ∧ p.version = c.version := by
  cases h with
  | same | loaded | unmarked | unreadable | saved | refused | updated => exact .inl hp
  | @wrote i c publish _ hphase =>
    cases publish with
    | false => exact .inl hp
    | true =>
      rcases List.mem_cons.1 hp with rfl | hp
      · exact .inr ⟨i, c, .inr ⟨_, hphase⟩, rfl, rfl⟩
      · exact .inl hp

/-- The hash keeps its version and data, or an accepted save has replaced both. -/
theorem hash (hk : w.hash.Kept) (hlow : w.hash.Low) :
    (w.saves a = [] ∧ w'.hash.version = w.hash.version ∧ w'.hash.data = w.hash.data) ∨
      ∃ expected s version, w.call a = some (expected, s) ∧ w.saves a = [{ s with version }] ∧
        w.hash.saveConfig expected s = (w'.hash, .ok version) := by
  cases h with
  | same hcall | loaded hcall | unmarked hcall | unreadable hcall | wrote hcall | updated hcall =>
    exact .inl ⟨by simp [World.saves, hcall], rfl, rfl⟩
  | saved hcall hsave => exact .inr ⟨_, _, _, hcall, mem_saves hcall hsave, hsave⟩
  | refused hcall hsave =>
    obtain ⟨rfl, -, -⟩ := ConfigHash.saveConfig_error hk hlow hsave
    exact .inl ⟨by simp [World.saves, hcall, hsave], rfl, rfl⟩

end

end Change

/-- No manager and no event is ahead of the hash, and no call would take its manager back. -/
structure World.Versioned (w : World) : Prop where
  kept : w.hash.Kept
  held : ∀ i c, w.Holds i c → 0 ≤ c.version ∧ c.version ≤ w.hash.stored
  announced : ∀ p ∈ w.published, 0 ≤ p.version ∧ p.version ≤ w.hash.stored
  forward : ∀ i c d publish, (w.managers i).phase = .writingEpoch c publish →
    (w.managers i).current = some d → d.version ≤ c.version

namespace World.Versioned

variable {w w' : World} {a : Action}

theorem start {h : ConfigHash} (hk : h.Kept) : (World.start h).Versioned where
  kept := hk
  held i c hc := by
    obtain hc | ⟨_, hc⟩ := hc <;> cases hc
  announced p hp := absurd hp List.not_mem_nil
  forward i c d publish hphase := by cases hphase

/-- What the hash decodes to has the stored version. -/
theorem decoded {c : Config} (h : w.Versioned) (hdecode : w.hash.decode = some c) :
    c.version = w.hash.stored :=
  (ConfigHash.stored_of_number (h.kept.decode hdecode).1).symm

theorem saved {c : Config} (hc : c ∈ w.saves a) : c.version = w.hash.stored + 1 := by
  unfold World.saves at hc
  split at hc
  case h_1 expected s hcall =>
    rcases hsave : w.hash.saveConfig expected s with ⟨hash, e | version⟩
    · simp [hsave] at hc
    simp only [hsave, List.mem_singleton] at hc
    rw [hc]
    exact (ConfigHash.saveConfig_ok hsave).2.2
  case h_2 => cases hc

/-- An accepted save raises the stored version by one; no other step changes it. -/
theorem stored_step (h : w.Versioned) (hlow : w.hash.Low) (hstep : w.step a = some w') :
    w'.hash.stored = w.hash.stored + (w.saves a).length := by
  rcases (Change.of_step hstep).hash h.kept hlow with ⟨hnone, hv, -⟩ | ⟨_, s, v, -, hsaves, hsave⟩
  · simp [ConfigHash.stored, hv, hnone]
  obtain ⟨hv, -, heq⟩ := ConfigHash.saveConfig_ok hsave
  rw [ConfigHash.stored_of_number hv, heq, hsaves]
  rfl

theorem kept_step (h : w.Versioned) (hlow : w.hash.Low) (hstep : w.step a = some w') :
    w'.hash.Kept := by
  rcases (Change.of_step hstep).hash h.kept hlow with ⟨-, hv, hd⟩ | ⟨_, s, v, -, -, hsave⟩
  · rw [ConfigHash.Kept, hv, hd]
    exact h.kept
  · exact h.kept.save hsave

theorem step (h : w.Versioned) (hlow : w.hash.Low) (hstep : w.step a = some w') : w'.Versioned := by
  have hchange := Change.of_step hstep
  have hstored := h.stored_step hlow hstep
  have hpos := h.kept.stored_nonneg
  have hsaved : ∀ c ∈ w.saves a, c.version = w.hash.stored + 1 ∧ 0 < (w.saves a).length :=
    fun c hc => ⟨saved hc, List.length_pos_of_mem hc⟩
  refine ⟨h.kept_step hlow hstep, fun i c hc => ?_, fun p hp => ?_,
    fun i c d publish hphase hd => ?_⟩
  · obtain hc | hdecode | hc | ⟨p, hp, q, hq, rfl⟩ := hchange.holds hc
    · have := h.held i c hc
      omega
    · have := h.decoded hdecode
      omega
    · have := hsaved c hc
      omega
    -- the event bus does not change a low version
    have hbound := h.announced p hp
    have hlow' : p.version.natAbs < 2 ^ 53 := by
      have : w.hash.stored + 1 < 2 ^ 53 := hlow
      omega
    have hversion : q.version = p.version := by
      simp only [UpdatedPayload.received, Double.reread_of_lt hlow'] at hq
      obtain ⟨s, -, hq⟩ := Option.bind_eq_some_iff.1 hq
      cases hq
      rfl
    simp only [hversion]
    omega
  · obtain hp | ⟨i, c, hc, -, hversion⟩ := hchange.published hp
    · have := h.announced p hp
      omega
    · have := h.held i c hc
      omega
  · obtain ⟨hd, hphase | hdecode | hc⟩ := hchange.pending hphase hd
    · exact h.forward i c d publish hphase hd
    · have := h.decoded hdecode
      have := h.held i d (.inl hd)
      omega
    · have := hsaved c hc
      have := h.held i d (.inl hd)
      omega

/-- The version of a manager never goes back. -/
theorem current_step {i : ManagerId} {c d : Config} (h : w.Versioned)
    (hstep : w.step a = some w') (hd : (w.managers i).current = some d)
    (hc : (w'.managers i).current = some c) : d.version ≤ c.version := by
  obtain hc | hdecode | ⟨publish, hphase⟩ | ⟨d', hd', hlt⟩ := (Change.of_step hstep).current hc
  · rw [hd] at hc
    cases hc
    exact le_rfl
  · rw [h.decoded hdecode]
    exact (h.held i d (.inl hd)).2
  · exact h.forward i c d publish hphase hd
  rw [hd] at hd'
  cases hd'
  exact hlt.le

end World.Versioned

end RedisSmq.Configuration
