import RedisSmq.Guarantees.RequeueCopy
import RedisSmq.Guarantees.Location
import RedisSmq.System.Uniform

/-!
# What the system never takes back

The parameters of a message, the group it is for and its settlement are final. Nothing is
assumed of the runs here: timers may fire late, live consumers may be reaped, and every
worker may act on outdated copies.
-/

namespace RedisSmq

section Aperiodic

variable {type : QueueType} {s s' : System} {a : Action} {m : MessageId} {p : Params}

/-- The message that is not periodic is followed under every discipline. -/
theorem Step.obeys_aperiodic (h : Step s a s') (hs : Sane type s) (hp : s.origin m = some p)
    (haperiodic : p.isPeriodic = false) : Obeys ⟨True, True, True, True⟩ m s a where
  reschedules := h.reschedules_aperiodic hs hp haperiodic
  late _ _ _ _ _ _ _ _ := trivial
  reaps _ _ := .inl trivial
  settles _ _ _ _ _ _ := .inl trivial
  deletes _ _ _ _ _ := .inl trivial

/-- Every message that is not periodic is in the place that goes with its status. -/
abbrev Shelf (type : QueueType) (s : System) : Prop :=
  Tracked type (fun p => p.isPeriodic = false) (fun _ p t => Legal type p.consumerGroupId t.life) s

theorem Shelf.step (h : Shelf type s) (hstep : Step s a s') : Shelf type s' :=
  Tracked.step h (legal_invariant _ type _)
    (fun _ _ hp haperiodic => hstep.obeys_aperiodic h.sane hp haperiodic) hstep

theorem Shelf.of_runs {cfg : Config} {groups : List GroupId} {now : Nanos} {as : List Action}
    (hrun : (System.created cfg type groups now).Runs as s) : Shelf type s :=
  Run.invariant (fun _ _ _ h hstep => h.step (.of_step hstep)) (Tracked.created cfg groups now) hrun

end Aperiodic

namespace Track

/-- The message is in no container, has no other status than `st`, if any, and was delivered
`n` times. -/
structure Final (st : Status) (n : Nat) (m : MessageId) (t : Track) : Prop where
  place : t.life.place = none
  status : ∀ st', t.life.status = some st' → st' = st
  deliveries : t.deliveries m = n

variable {st : Status} {n : Nat} {m : MessageId} {t t' : Track}

/-- Nothing happens any more to a message in no container, but that it is deleted. -/
theorem Final.step {d : Discipline} {type : QueueType} {group : Option GroupId}
    (h : t.Final st n m) (hst : st ≠ .pending) (hstep : t.Step d type group m t') :
    t'.Final st n m := by
  cases hstep with
  | idle | task | crash | load => exact ⟨h.place, h.status, h.deliveries⟩
  | work hx =>
    rcases hx.place with ⟨hplace, hstatus⟩ | ⟨hshelved, _⟩
    · exact ⟨hplace.trans h.place, fun st' => by rw [hstatus]; exact h.status st', h.deliveries⟩
    · rcases hshelved with hp | hp | hp <;> cases h.place.symm.trans hp
  | delete k =>
    have hlog := (deliveries_deleted m k t.log).trans h.deliveries
    rcases t.life.delete_cases type group with heq | ⟨_, hhash, hplace, _⟩
    · exact ⟨by rw [heq]; exact h.place, by rw [heq]; exact h.status, hlog⟩
    · exact ⟨hplace h.place, fun st' hst' => by simp [Life.status, hhash] at hst', hlog⟩
  | pop hc hp => cases h.place.symm.trans hp
  | checkout now hmem hx hpending =>
    exact absurd (h.status .pending (by simp [Life.status, hx, hpending])) hst.symm
  | settle hle hsettled hcard hfailed heffect =>
    rcases heffect.released with ⟨rfl, rfl⟩ | ⟨hheld, _⟩
    · exact ⟨h.place, h.status, h.deliveries⟩
    · cases h.place.symm.trans hheld

end Track

/-- The message is published with the parameters, settled with the status or deleted since,
and was delivered `n` times. -/
def SettledAs (type : QueueType) (m : MessageId) (p : Params) (st : Status) (n : Nat)
    (s : System) : Prop :=
  Sane type s ∧ s.origin m = some p ∧
    ∃ x, At s.db m x ∧ Legal type p.consumerGroupId x ∧ (s.track m x).Final st n m

section Final

variable {type : QueueType} {s s' : System} {m : MessageId} {p : Params} {st : Status} {n : Nat}

theorem SettledAs.step (h : SettledAs type m p st n s) (haperiodic : p.isPeriodic = false)
    (hst : st ≠ .pending) {a : Action} (hstep : Step s a s') : SettledAs type m p st n s' := by
  obtain ⟨hs, hp, x, hx, hlegal, hfinal⟩ := h
  have hsound := hs.sound hstep
  obtain ⟨x', hx', hmove⟩ := hstep.follow hs hp hx hlegal (hstep.obeys_aperiodic hs hp haperiodic)
  exact ⟨hs.of_sound hsound, hs.origin_mono hsound hp, x', hx', hmove.legal hlegal,
    hfinal.step hst hmove⟩

/-- A settled message is in no container. -/
theorem Shelf.settledAs (h : Shelf type s) (hp : s.origin m = some p)
    (haperiodic : p.isPeriodic = false) (hst : s.db.status m = some st)
    (hsettled : st = .acknowledged ∨ st = .deadLettered) :
    SettledAs type m p st (s.deliveries m) s := by
  obtain ⟨x, hx, hlegal⟩ := h.track m p hp haperiodic
  have hstatus : x.status = some st := hx.status_eq.symm.trans hst
  refine ⟨h.sane, hp, x, hx, hlegal, hlegal.place_of_settled hstatus hsettled, fun st' hst' => ?_,
    System.deliveries_track⟩
  exact Option.some.inj (hst'.symm.trans hstatus)

end Final

/-- A message that is acknowledged or dead-lettered stays so until it is deleted, and does
not come back then. It is in no container of the queue, and is not delivered again. -/
theorem settled_is_final (cfg : Config) (type : QueueType) (groups : List GroupId) (now : Nanos)
    (as bs : List Action) (s s' : System) (hrun : (System.created cfg type groups now).Runs as s)
    (hmore : s.Runs bs s') (m : MessageId) (p : Params) (hp : s.origin m = some p)
    (haperiodic : p.isPeriodic = false) (st : Status) (hst : s.db.status m = some st)
    (hsettled : st = .acknowledged ∨ st = .deadLettered) :
    (∀ st', s'.db.status m = some st' → st' = st) ∧
      (∀ q : Slot, q.holds = true → s'.db.occ q m = 0) ∧ s'.deliveries m = s.deliveries m := by
  have hpending : st ≠ .pending := by rcases hsettled with rfl | rfl <;> decide
  obtain ⟨_, _, x, hx, _, hfinal⟩ := Run.invariant
    (fun _ _ _ h hstep => SettledAs.step h haperiodic hpending (.of_step hstep))
    ((Shelf.of_runs hrun).settledAs hp haperiodic hst hsettled) hmore
  have hplace : x.place = none := hfinal.place
  refine ⟨fun st' hst' => hfinal.status st' (hx.status_eq.symm.trans hst'), fun q hq => ?_,
    System.deliveries_track.symm.trans hfinal.deliveries⟩
  rw [hx.occ q hq, hplace]
  rfl

/-- After an acknowledgement another message is delivered. -/
theorem settled_is_final_acknowledgedOnce :
    ∃ s s', (System.created {} .fifo [] 0).Runs acknowledgedOnce s ∧
      s.Runs [.produce promptMessage none, .pop 7 none] s' ∧
      s.db.status 0 = some .acknowledged ∧ s'.db.occ (.list (.processing 7)) 0 = 0 ∧
      s'.deliveries 0 = 1 :=
  have h := settled_is_final {} .fifo [] 0 acknowledgedOnce
    [.produce promptMessage none, .pop 7 none] _ _ rfl rfl 0 (promptMessage.toParams none)
    (by decide) (by decide) .acknowledged (by decide) (.inl rfl)
  ⟨_, _, rfl, rfl, by decide, h.2.1 _ rfl, h.2.2⟩

/-- The envelope carries the parameters, all but the creation time and an unset time to live,
which `rebuildMessage` does not restore. -/
def Envelope.Carries (e : Envelope) (p : Params) : Prop :=
  { e.toParams with createdAt := p.createdAt, ttl := p.ttl } = p ∧
    (0 < p.ttl → e.toParams.ttl = p.ttl)

theorem System.Copy.carries {s : System} {e : Envelope} (h : s.Copy e) {p : Params}
    (hp : s.origin e.id = some p) : e.Carries p := by
  obtain ⟨p', opts, t, hp', hmessage, hgroup⟩ := h
  cases hp.symm.trans hp'
  unfold Envelope.Carries Envelope.toParams
  rw [hmessage, hgroup]
  refine ⟨?_, fun hpos => ?_⟩
  · cases p
    simp [Producible.toParams, Codec.rebuildMessage, Producible.new, Function.comp_def,
      Codec.toMillis_ofMillis]
  · simp [Producible.toParams, Codec.rebuildMessage, hpos, Codec.toMillis_ofMillis]

/-- A message keeps the parameters it was published with: nothing else is ever stored under
its identifier, and every copy in the memory of a consumer or of a worker carries what the
decoder restores of them. -/
theorem parameters_kept (cfg : Config) (type : QueueType) (groups : List GroupId) (now : Nanos)
    (as bs : List Action) (s s' : System) (hrun : (System.created cfg type groups now).Runs as s)
    (hmore : s.Runs bs s') (m : MessageId) (p : Params) (hp : s.origin m = some p) :
    (∀ h p', s'.db.hgetall m = some h → h.message = some p' → h.id = some m ∧ p' = p) ∧
      (∀ w e, (w, e) ∈ s'.loaded → e.id = m → e.Carries p) ∧
      ∀ c t e, (c, t) ∈ s'.tasks → t.copy? = some e → e.id = m → e.Carries p := by
  obtain ⟨hs, hp⟩ := Run.invariant (P := fun s' => Sane type s' ∧ s'.origin m = some p)
    (fun _ _ _ h hstep => ⟨h.1.step (.of_step hstep),
      h.1.origin_mono (h.1.sound (.of_step hstep)) h.2⟩)
    ⟨(Sane.created cfg type groups now).runs hrun, hp⟩ hmore
  refine ⟨fun h p' hget hmessage => ?_, fun w e he hid => ?_, fun c t e ht he hid => ?_⟩
  · have hcore : s'.db.core m = (h.id, some p') := by simp [Keyspace.core, hget, hmessage]
    rcases hs.core m with hnone | ⟨p'', hp'', hsome⟩
    · cases (Prod.mk.inj (hcore.symm.trans hnone)).2
    cases hp.symm.trans hp''
    obtain ⟨hid, heq⟩ := Prod.mk.inj (hcore.symm.trans hsome)
    exact ⟨hid, Option.some.inj heq⟩
  · exact (hs.loaded w e he).carries (hid ▸ hp)
  · exact ((hs.tasks c t ht).2 e he).carries (hid ▸ hp)

theorem parameters_kept_checkedOut :
    ∃ s s', (System.created {} .fifo [] 0).Runs [.produce promptMessage none] s ∧
      s.Runs [.pop 7 none, .checkout 7 0 none] s' ∧
      s.origin 0 = some (promptMessage.toParams none) ∧
      ∀ c t e, (c, t) ∈ s'.tasks → t.copy? = some e → e.id = 0 →
        e.Carries (promptMessage.toParams none) :=
  ⟨_, _, rfl, rfl, by decide, (parameters_kept {} .fifo [] 0 [.produce promptMessage none]
    [.pop 7 none, .checkout 7 0 none] _ _ rfl rfl 0 _ (by decide)).2.2⟩

/-- Only the group that a message was published for is offered it, and nothing is put into
pending containers of the kind that the queue does not use. -/
theorem pending_addressed (cfg : Config) (type : QueueType) (groups : List GroupId) (now : Nanos)
    (as : List Action) (s : System) (hrun : (System.created cfg type groups now).Runs as s) :
    (∀ g m p, s.origin m = some p → p.isPeriodic = false → 0 < s.db.occ (pendingSlot type g) m →
        g = p.consumerGroupId) ∧
      ∀ q ∈ foreign type, s.db.EmptyAt q := by
  refine ⟨fun g m p hp haperiodic hocc => ?_, (uniform_of_runs hrun).2⟩
  obtain ⟨x, hx, hlegal⟩ := (Shelf.of_runs hrun).track m p hp haperiodic
  rw [hx.occ _ (holds_pendingSlot _ _)] at hocc
  have hplace : x.place = some (pendingSlot type g) := by
    by_contra hne
    simp [hne] at hocc
  exact hlegal.group_of_pending hplace

theorem pending_addressed_oneGroup :
    ∃ s, (System.created {} .fifo [4, 5] 0).Runs [.produce promptMessage (some 4)] s ∧
      0 < s.db.occ (pendingSlot .fifo (some 4)) 0 ∧
      (∀ g, 0 < s.db.occ (pendingSlot .fifo g) 0 → g = some 4) ∧
      ∀ q ∈ foreign .fifo, s.db.EmptyAt q :=
  have h := pending_addressed {} .fifo [4, 5] 0 [.produce promptMessage (some 4)] _ rfl
  ⟨_, rfl, by decide, fun g => h.1 g 0 (promptMessage.toParams (some 4)) (by decide) (by decide),
    h.2⟩

end RedisSmq
