import RedisSmq.Data.Run
import RedisSmq.Message.Types

/-!
# Heartbeats

A consumer shows that it is alive by a key that expires. `register` sets the key once the
handlers run, with the configured time to live as it is. The heartbeat sets it again at the
ticks of a clock, with a time to live of at least three seconds of which the ticks are a third
apart. To the reapers of other consumers, the consumer is dead when the key is gone.

A beat may get lost, or come late because the goroutine or the network is slow. `Punctual`
bounds by how much. `register` and the start of the clock are one step, and no beat is in
flight while the heartbeat is stopped.
-/

namespace RedisSmq

/-- `Heartbeat`, as far as its times are concerned. -/
structure Heartbeat where
  ttl : Nanos
  interval : Nanos

/-- `NewHeartbeat`. The configured time to live is not checked and may be negative. -/
def Heartbeat.new (ttl : Int) : Heartbeat :=
  let ttl := if ttl < 3000000000 then 3000000000 else ttl.toNat
  ⟨ttl, ttl / 3⟩

/-- The key of the heartbeat. -/
inductive HeartbeatKey where
  | absent
  | lasting
  | expiring (instant : Nanos)
  deriving DecidableEq, Repr

/-- The expiry of a key that the client sends, in whole milliseconds and at least one. -/
def lifetime (ttl : Nanos) : Nanos := ofMillis (max 1 (toMillis ttl))

/-- `SET`. The client sends no expiry with a time to live that is zero or negative. -/
def HeartbeatKey.set (now : Nanos) (ttl : Int) : HeartbeatKey :=
  if ttl ≤ 0 then .lasting else .expiring (now + lifetime ttl.toNat)

structure Pulse where
  now : Nanos
  key : HeartbeatKey
  /-- When the clock of the heartbeat ticks next. -/
  next : Nanos
  running : Bool

inductive PulseAction where
  | pass (d : Nanos)
  | beat
  /-- A beat that does not reach the server. -/
  | lose
  | stop
  | crash
  deriving DecidableEq, Repr

namespace Pulse

/-- `register` and `Heartbeat.Start`. -/
def registered (ttl : Int) (now : Nanos) : Pulse :=
  ⟨now, .set now ttl, now + (Heartbeat.new ttl).interval, true⟩

/-- What `AreAlive` finds. -/
def alive (s : Pulse) : Bool :=
  match s.key with
  | .absent => false
  | .lasting => true
  | .expiring instant => decide (s.now < instant)

def step (h : Heartbeat) (s : Pulse) : PulseAction → Option Pulse
  | .pass d => some { s with now := s.now + d }
  | .beat =>
      if s.running && decide (s.next ≤ s.now) then
        some { s with key := .set s.now h.ttl, next := s.next + h.interval }
      else none
  | .lose =>
      if s.running && decide (s.next ≤ s.now) then some { s with next := s.next + h.interval }
      else none
  | .stop => some { s with key := .absent, running := false }
  | .crash => some { s with running := false }

/-- No beat is lost, and none is late by more than `slack`. -/
def Punctual (slack : Nanos) (s : Pulse) (a : PulseAction) : Prop :=
  a ≠ .lose ∧ ∀ d, a = .pass d → s.running = true → s.now + d ≤ s.next + slack

/-- The key of a running consumer outlasts its next tick and the delay of the beat. -/
def Outlasts (slack : Nanos) (s : Pulse) : Prop :=
  s.running = true → s.now ≤ s.next + slack ∧
    (s.key = .lasting ∨ ∃ instant, s.key = .expiring instant ∧ s.next + slack < instant)

variable {ttl : Int} {slack : Nanos} {s s' : Pulse} {a : PulseAction}

theorem le_ttl_new (ttl : Int) : max 3000000000 ttl.toNat ≤ (Heartbeat.new ttl).ttl := by
  unfold Heartbeat.new
  split <;> lia

theorem set_ttl_new (now : Nanos) (ttl : Int) :
    HeartbeatKey.set now (Heartbeat.new ttl).ttl =
      .expiring (now + lifetime (Heartbeat.new ttl).ttl) := by
  have hle := le_ttl_new ttl
  exact if_neg (by lia)

theorem interval_add_lt_lifetime (hslack : slack < (Heartbeat.new ttl).interval) :
    (Heartbeat.new ttl).interval + slack < lifetime (Heartbeat.new ttl).ttl := by
  have hlow := le_ttl_new ttl
  have hthird : (Heartbeat.new ttl).interval = (Heartbeat.new ttl).ttl / 3 := rfl
  simp only [lifetime, ofMillis, toMillis, nanosPerMilli]
  lia

theorem Outlasts.step (h : s.Outlasts slack) (hslack : slack < (Heartbeat.new ttl).interval)
    (hcond : s.Punctual slack a) (hstep : s.step (.new ttl) a = some s') : s'.Outlasts slack := by
  cases a with
  | pass d =>
    cases hstep
    exact fun hrun => ⟨hcond.2 d rfl hrun, (h hrun).2⟩
  | beat =>
    obtain ⟨hguard, heq⟩ := Option.ite_none_right_eq_some.1 hstep
    cases heq
    obtain ⟨hrun, htick⟩ := Bool.and_eq_true_iff.1 hguard
    have hle := of_decide_eq_true htick
    have hlt := interval_add_lt_lifetime hslack
    refine fun _ => ⟨?_, .inr ⟨_, set_ttl_new s.now ttl, ?_⟩⟩
    · have := (h hrun).1
      dsimp only
      lia
    · dsimp only
      lia
  | lose => exact absurd rfl hcond.1
  | stop | crash =>
    cases hstep
    exact fun hrun => (nomatch hrun)

theorem Outlasts.alive (h : s.Outlasts slack) (hrun : s.running = true) : s.alive = true := by
  obtain ⟨hnow, hkey | ⟨instant, hkey, hlt⟩⟩ := h hrun
  · simp [Pulse.alive, hkey]
  · simpa [Pulse.alive, hkey] using Nat.lt_of_le_of_lt hnow hlt

/-- A running consumer whose beats are late by less than an interval is never taken for dead,
exactly if the first key outlasts the first beat. With a time to live of one second or less
it does not, unless the time to live is zero or negative. -/
theorem alive_of_punctual_iff (ttl : Int) (now slack : Nanos)
    (hslack : slack < (Heartbeat.new ttl).interval) :
    (∀ as s, Run.Along (Pulse.step (.new ttl)) (Punctual slack) (registered ttl now) as →
        Run.exec (Pulse.step (.new ttl)) (registered ttl now) as = some s →
        s.running = true → s.alive = true) ↔
      ttl ≤ 0 ∨ (Heartbeat.new ttl).interval + slack < lifetime ttl.toNat := by
  constructor
  · intro h
    by_contra hnot
    obtain ⟨hpos, hle⟩ := not_or.1 hnot
    -- The clock may reach the expiry of the first key before the first beat is too late.
    have hdead := h [.pass (lifetime ttl.toNat)] _
      ⟨⟨nofun, fun d hd _ => ?_⟩, fun _ _ => trivial⟩ rfl rfl
    · simp [Pulse.alive, registered, HeartbeatKey.set, hpos] at hdead
    · cases hd
      simp only [registered]
      lia
  · intro h as s halong hrun
    refine Outlasts.alive (Run.invariant_along
      (fun _ _ _ hout hcond hstep => Outlasts.step hout hslack hcond hstep) ?_ halong hrun)
    refine fun _ => ⟨by simp only [registered]; lia, ?_⟩
    by_cases hzero : ttl ≤ 0
    · exact .inl (if_pos hzero)
    · have hlt := h.resolve_left hzero
      exact .inr ⟨_, if_neg hzero, by simp only [registered]; lia⟩

theorem alive_of_punctual_iff_halfSecond :
    (0 : Nanos) < (Heartbeat.new 500000000).interval ∧
      ¬ ∀ as s, Run.Along (Pulse.step (.new 500000000)) (Punctual 0) (registered 500000000 7) as →
        Run.exec (Pulse.step (.new 500000000)) (registered 500000000 7) as = some s →
        s.running = true → s.alive = true :=
  ⟨by decide, fun h => absurd ((alive_of_punctual_iff 500000000 7 0 (by decide)).1 h) (by decide)⟩

/-- A key that expires does so by the instant `bound`, if nothing sets it before. -/
def Ends (bound : Nanos) (s : Pulse) : Prop :=
  ∀ instant, s.key = .expiring instant → instant ≤ bound

variable {bound : Nanos} {h : Heartbeat}

theorem Ends.mono {bound' : Nanos} (hends : s.Ends bound) (hle : bound ≤ bound') :
    s.Ends bound' :=
  fun instant hkey => Nat.le_trans (hends instant hkey) hle

theorem ends_set {now : Nanos} (ttl : Int) (hkey : s.key = .set now ttl) :
    s.Ends (now + lifetime ttl.toNat) := by
  intro instant hinstant
  rw [hkey, HeartbeatKey.set] at hinstant
  split at hinstant
  · cases hinstant
  · cases hinstant
    exact Nat.le_refl _

theorem Ends.step (hends : s.Ends bound) (hbeat : a ≠ .beat) (hstep : s.step h a = some s') :
    s'.Ends bound := by
  cases a with
  | beat => exact absurd rfl hbeat
  | lose =>
    cases (Option.ite_none_right_eq_some.1 hstep).2
    exact hends
  | stop =>
    cases hstep
    exact nofun
  | pass | crash =>
    cases hstep
    exact hends

theorem Ends.alive_iff (hends : s.Ends bound) (hlate : bound ≤ s.now) :
    s.alive = true ↔ s.key = .lasting := by
  unfold Pulse.alive
  cases hkey : s.key with
  | absent | lasting => simp
  | expiring instant =>
    have hgone : instant ≤ s.now := Nat.le_trans (hends instant hkey) hlate
    simpa using hgone

theorem now_le_of_step (hstep : s.step h a = some s') : s.now ≤ s'.now := by
  cases a with
  | beat | lose =>
    cases (Option.ite_none_right_eq_some.1 hstep).2
    exact Nat.le_refl _
  | pass d =>
    cases hstep
    exact Nat.le_add_right s.now d
  | stop | crash =>
    cases hstep
    exact Nat.le_refl _

theorem ends_of_exec {now : Nanos} {as : List PulseAction}
    (hrun : Run.exec (Pulse.step (.new ttl)) (registered ttl now) as = some s) :
    s.Ends (s.now + lifetime (Heartbeat.new ttl).ttl) := by
  have hle := le_ttl_new ttl
  refine Run.invariant (P := fun s : Pulse => s.Ends (s.now + _)) (fun s a s' hends hstep => ?_)
    ((ends_set ttl rfl).mono ?_) hrun
  · by_cases hbeat : a = .beat
    · subst hbeat
      cases (Option.ite_none_right_eq_some.1 hstep).2
      simpa using ends_set (Heartbeat.new ttl).ttl rfl
    · exact (hends.step hbeat hstep).mono (Nat.add_le_add_right (now_le_of_step hstep) _)
  · simp only [registered, lifetime, ofMillis, toMillis, nanosPerMilli]
    lia

theorem lasting_iff_of_step (hstep : s.step (.new ttl) a = some s') :
    s'.key = .lasting ↔ s.key = .lasting ∧ a ≠ .beat ∧ a ≠ .stop := by
  cases a with
  | beat =>
    cases (Option.ite_none_right_eq_some.1 hstep).2
    simp [set_ttl_new]
  | lose =>
    cases (Option.ite_none_right_eq_some.1 hstep).2
    simp
  | pass | stop | crash =>
    cases hstep
    simp

theorem lasting_iff_of_exec {as : List PulseAction}
    (hrun : Run.exec (Pulse.step (.new ttl)) s as = some s') :
    s'.key = .lasting ↔ s.key = .lasting ∧ .beat ∉ as ∧ .stop ∉ as := by
  induction as generalizing s with
  | nil =>
    cases hrun
    simp
  | cons a as ih =>
    obtain ⟨s₁, hstep, hrest⟩ := Run.exec_cons_some hrun
    rw [ih hrest, lasting_iff_of_step hstep]
    simp only [List.mem_cons, not_or, ne_comm (a := a)]
    tauto

/-- Once the server has received no beat from a consumer for the time to live of its heartbeat,
whatever it did before, it is found alive exactly if the configured time to live is zero or
negative, no beat was ever received and the consumer was not stopped: the key that `register`
set then stays for good. -/
theorem alive_of_silent_iff (ttl : Int) (now : Nanos) (as bs : List PulseAction) (s s' : Pulse)
    (hrun : Run.exec (Pulse.step (.new ttl)) (registered ttl now) as = some s)
    (hrun' : Run.exec (Pulse.step (.new ttl)) s bs = some s') (hquiet : .beat ∉ bs)
    (hlong : s.now + lifetime (Heartbeat.new ttl).ttl ≤ s'.now) :
    s'.alive = true ↔ ttl ≤ 0 ∧ .beat ∉ as ∧ .stop ∉ as ++ bs := by
  have halong : Run.Along (Pulse.step (.new ttl)) (fun _ a => a ≠ .beat) s bs :=
    Run.Along.of_forall fun a ha _ hbeat => hquiet (hbeat ▸ ha)
  have hends := Run.invariant_along (fun _ _ _ hends hbeat hstep => Ends.step hends hbeat hstep)
    (ends_of_exec hrun) halong hrun'
  have hfirst : (registered ttl now).key = .lasting ↔ ttl ≤ 0 := by
    simp [registered, HeartbeatKey.set]
  rw [hends.alive_iff hlong, lasting_iff_of_exec hrun', lasting_iff_of_exec hrun, hfirst,
    List.mem_append]
  tauto

/-- A consumer that crashes before its first beat. -/
theorem alive_of_silent_iff_noExpiry :
    Run.exec (Pulse.step (.new (-1000000))) (registered (-1000000) 7)
        [.crash, .pass 3000000000] = some ⟨3000000007, .lasting, 1000000007, false⟩ ∧
      Pulse.alive ⟨3000000007, .lasting, 1000000007, false⟩ = true :=
  ⟨rfl, (alive_of_silent_iff (-1000000) 7 [.crash] [.pass 3000000000]
    ⟨7, .lasting, 1000000007, false⟩ _ rfl rfl (by decide) (by decide)).2 (by decide)⟩

end Pulse

end RedisSmq
