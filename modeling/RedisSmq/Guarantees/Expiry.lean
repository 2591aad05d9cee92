import RedisSmq.System.Conduct
import RedisSmq.System.Logs

/-!
# Time to live

A message should expire when its time to live has passed since its creation. The time to
live survives storing and decoding, the creation time does not: `rebuildMessage` takes the
instant of the decoding in its place. So a copy expires when its time to live has passed
since it was decoded, and the message that `unacknowledgePoppedMessage` makes up expires by
the default options.
-/

namespace RedisSmq

/-- The time to live of the message has passed since its creation. -/
def Producible.HasExpired (m : Producible) (t : Nanos) : Prop :=
  0 < m.ttl ∧ m.createdAt + m.ttl ≤ t
  deriving Decidable

namespace Event

def produced? (id : MessageId) : Event → Option Producible
  | .produced id' m => if id' = id then some m else none
  | _ => none

/-- The message was not expired when it was handed to the handler or retried. -/
def Timely (m : Producible) : Event → Prop
  | .handed _ _ t => ¬m.HasExpired t
  | .settled _ _ _ _ (some (t, retried)) => m.HasExpired t → retried = false
  | _ => True

theorem timely_of_isPublication {m : Producible} {ev : Event} (h : ev.isPublication = true) :
    ev.Timely m := by
  cases ev with
  | produced | published => trivial
  | _ => cases h

end Event

/-- The copies that the action checks for expiry, with the instant of the check: scripts run
later than that. The flag tells the copies that were decoded from those that were made up. -/
def Action.judges (now : Nanos) : Action → Option (Nanos × List (Envelope × Bool))
  | .consume _ e _ => some (now, [(e, true)])
  | .unacknowledge _ batch t => some (t, batch.map fun b => (b.1, b.2.1.isSome))
  | .reap _ batch t => some (t, batch.map fun e => (e, true))
  | _ => none

namespace System

/-- What was produced under the identifier. -/
def productions (s : System) (id : MessageId) : List Producible :=
  s.log.filterMap (Event.produced? id)

/-- The steps that enforce the time to live: the copy of a message that is expired when the
step is taken had been decoded that long ago when it was checked, and the time to live is a
millisecond or more. -/
def JudgesOldCopies (s : System) (a : Action) : Prop :=
  ∀ x ∈ a.judges s.now, ∀ copy ∈ x.2, ∀ m ∈ s.productions copy.1.id, m.HasExpired s.now →
    copy.2 = true ∧ nanosPerMilli ≤ m.ttl ∧ copy.1.message.createdAt + m.ttl ≤ x.1
  deriving Decidable

theorem mem_productions {s : System} {id : MessageId} {m : Producible} :
    m ∈ s.productions id ↔ .produced id m ∈ s.log := by
  refine List.mem_filterMap.trans ⟨?_, fun h => ⟨_, h, if_pos rfl⟩⟩
  rintro ⟨ev, hev, hm⟩
  cases ev with
  | produced id' m' =>
    obtain ⟨rfl, heq⟩ := Option.ite_none_right_eq_some.1 hm
    cases heq
    exact hev
  | _ => cases hm

/-- The handler calls and retries of produced messages were timely. -/
def Timely (s : System) : Prop :=
  ∀ id m, .produced id m ∈ s.log → ∀ ev ∈ s.log, ev.id = id → ev.Timely m

end System

section Copies

variable {type : QueueType} {s s' : System} {a : Action} {e : Envelope} {m : Producible} {t : Nanos}

theorem ofMillis_toMillis_le (t : Nanos) : ofMillis (toMillis t) ≤ t := Nat.div_mul_le_self t _

/-- The time to live that a copy has of the message. -/
theorem Sane.copy_ttl (hs : Sane type s) (hcopy : s.Copy e) (hm : .produced e.id m ∈ s.log)
    (httl : nanosPerMilli ≤ m.ttl) :
    0 < toMillis m.ttl ∧ e.message.ttl = ofMillis (toMillis m.ttl) := by
  have hpos : 0 < toMillis m.ttl := Nat.div_pos httl (by decide)
  obtain ⟨p, opts, _, hp, hmessage, _⟩ := hcopy
  obtain ⟨group, horigin⟩ := hs.log _ hm
  cases hp.symm.trans horigin
  rw [hmessage]
  exact ⟨hpos, if_pos hpos⟩

theorem Sane.isExpired_copy (hs : Sane type s) (hcopy : s.Copy e) (hm : .produced e.id m ∈ s.log)
    (httl : nanosPerMilli ≤ m.ttl) (hold : e.message.createdAt + m.ttl ≤ t) :
    e.isExpired t = true := by
  obtain ⟨hpos, hcopied⟩ := hs.copy_ttl hcopy hm httl
  have hle := ofMillis_toMillis_le m.ttl
  have hposn : 0 < ofMillis (toMillis m.ttl) := Nat.mul_pos hpos (by decide)
  unfold Envelope.isExpired
  rw [hcopied, decide_eq_true hposn, decide_eq_true ((Nat.add_le_add_left hle _).trans hold)]
  rfl

theorem Sane.isExpiredTransferable_copy (hs : Sane type s) (hcopy : s.Copy e)
    (hm : .produced e.id m ∈ s.log) (httl : nanosPerMilli ≤ m.ttl)
    (hold : e.message.createdAt + m.ttl ≤ t) : e.isExpiredTransferable t = true := by
  obtain ⟨hpos, hcopied⟩ := hs.copy_ttl hcopy hm httl
  have hle := Nat.add_le_add (ofMillis_toMillis_le e.message.createdAt) (ofMillis_toMillis_le m.ttl)
  unfold Envelope.isExpiredTransferable
  rw [hcopied, Codec.toMillis_ofMillis, decide_eq_true hpos, decide_eq_true (hle.trans hold)]
  rfl

theorem retries_expired {cause : UnackCause} (h : e.isExpired t = true) :
    (resolveUnackAction t e cause).retries = false := by
  rw [← Bool.not_eq_true, retries_resolveUnackAction]
  rintro ⟨_, hnot, _⟩
  rw [h] at hnot
  cases hnot

end Copies

section Logs

variable {type : QueueType} {s s' : System} {a : Action} {ev : Event}

/-- What a step that meets the condition logs of a produced message is timely. -/
theorem Logs.timely (h : Logs s a ev) (hs : Sane type s) (hcond : s.JudgesOldCopies a)
    {m : Producible} (hm : .produced ev.id m ∈ s.log) : ev.Timely m := by
  cases h with
  | produced | published | checkedOut | acked | deleted => trivial
  | handed hmem he =>
    intro hexp
    obtain ⟨_, httl, hold⟩ := hcond _ rfl _ (List.mem_singleton_self _) m
      (System.mem_productions.2 hm) hexp
    have hcopy := (hs.tasks _ _ hmem).2 _ rfl
    rw [hs.isExpiredTransferable_copy hcopy hm httl hold] at he
    cases he
  | @unacked c batch t e k cause during hb hmem hheld =>
    intro hexp
    obtain ⟨hfull, httl, hold⟩ := hcond _ rfl _ (List.mem_map_of_mem hb) m
      (System.mem_productions.2 hm) hexp
    obtain ⟨k, rfl⟩ := Option.isSome_iff_exists.1 hfull
    exact retries_expired (hs.isExpired_copy ((hs.tasks _ _ hmem).2 _ rfl) hm httl hold)
  | reaped he hload =>
    intro hexp
    obtain ⟨_, httl, hold⟩ := hcond _ rfl _ (List.mem_map_of_mem he) m
      (System.mem_productions.2 hm) hexp
    exact retries_expired (hs.isExpired_copy (hs.loaded _ _ hload) hm httl hold)

/-- The entries about a message that are not publications come after its publication. -/
private theorem Sane.reported (hs : Sane type s) (hstep : Step s a s') (hev : ev ∈ s'.log)
    (hnot : ev.isPublication = false) : (s.origin ev.id).isSome = true := by
  rcases (hs.sound hstep).log ev hev with hold | hreports | ⟨hpub, _⟩
  · have hvouches := hs.log ev hold
    cases ev with
    | produced => cases hnot
    | _ => exact hvouches
  · exact hreports.2
  · rw [hnot] at hpub
    cases hpub

/-- A step that meets the condition keeps the log timely. -/
theorem Step.timely (h : Step s a s') (hs : Sane type s) (hcond : s.JudgesOldCopies a)
    (htimely : s.Timely) : s'.Timely := by
  intro id m hm ev hev hid
  subst hid
  rcases h.logs hm with hold | hnew
  · rcases h.logs hev with hev | hlogs
    · exact htimely _ m hold ev hev rfl
    · exact hlogs.timely hs hcond hold
  · -- A message that is only produced now has no other entries than those of its publication.
    by_cases hpub : ev.isPublication = true
    · exact Event.timely_of_isPublication hpub
    have hsome := hs.reported h hev (by simpa using hpub)
    generalize hid : ev.id = id at hnew hsome
    cases hnew
    rw [hs.fresh _ le_rfl] at hsome
    cases hsome

end Logs

/-- A message that lives for a millisecond. -/
def shortLived : Producible := { promptMessage with ttl := 1000000 }

/-- The copy of it that is decoded after a second. -/
def lateCopy : Envelope :=
  { Envelope.new { shortLived with createdAt := 1000000000 } 0 with
    status := .processing
    state :=
      { State.new 0 with
        processingStartedAt := some 1000, lastProcessedAt := some 1000, attempts := 1 } }

/-- The message waits for a second in its pending list before it is consumed. -/
def waitsTooLong : List Action :=
  [.produce shortLived none, .tick 1000000000, .pop 7 none, .checkout 7 0 none,
    .consume 7 lateCopy 1, .finish 7 lateCopy 1 1000000000 false,
    .unacknowledge 7 [(lateCopy, some 1, .unacknowledged)] 1000000000]

/-- The message is handed to the handler a second after its creation, and the
unacknowledgement that follows requeues it. -/
theorem handed_and_retried_after_ttl :
    shortLived.HasExpired 1000000000 ∧
      (Run.exec System.step (System.created {} .fifo [] 0) waitsTooLong).map (fun s =>
        (decide (.produced 0 shortLived ∈ s.log), decide (.handed 7 0 1000000000 ∈ s.log),
          decide (.settled 7 0 (some 1) (some 1) (some (1000000000, true)) ∈ s.log),
          s.db.lists .requeued)) = some (true, true, true, [0]) := by
  decide

/-- In every run whose steps meet the condition, a message with a time to live is handed to
the handler only before that time has passed since its creation, and no unacknowledgement
retries it from then on. -/
theorem expired_not_handed_not_retried (cfg : Config) (type : QueueType) (groups : List GroupId)
    (now : Nanos) (as : List Action) (s : System)
    (halong : Run.Along System.step System.JudgesOldCopies (System.created cfg type groups now) as)
    (hrun : (System.created cfg type groups now).Runs as s) (id : MessageId) (m : Producible)
    (hm : .produced id m ∈ s.log) (httl : 0 < m.ttl) :
    (∀ c t, .handed c id t ∈ s.log → t < m.createdAt + m.ttl) ∧
      ∀ c issuedFor during t retried,
        .settled c id issuedFor during (some (t, retried)) ∈ s.log → m.createdAt + m.ttl ≤ t →
          retried = false := by
  have h := Run.invariant_along (P := fun s => Sane type s ∧ s.Timely)
    (fun s a s' ⟨hs, htimely⟩ hcond hstep =>
      have hstep := Step.of_step hstep
      ⟨hs.step hstep, hstep.timely hs hcond htimely⟩)
    ⟨Sane.created cfg type groups now, fun _ _ h => absurd h List.not_mem_nil⟩ halong hrun
  refine ⟨fun c t ht => ?_, fun c issuedFor during t retried ht hexp => ?_⟩
  · have htimely : ¬m.HasExpired t := h.2 id m hm _ ht rfl
    exact Nat.lt_of_not_le fun hexp => htimely ⟨httl, hexp⟩
  · exact h.2 id m hm _ ht rfl ⟨httl, hexp⟩

/-- The message expires between its checkout and the call of the handler. -/
def expiresInTime : List Action :=
  [.produce shortLived none, .pop 7 none, .checkout 7 0 none, .tick 1000000,
    .consume 7 (.early shortLived 0 .processing 1) 1,
    .unacknowledge 7 [(.early shortLived 0 .processing 1, some 1, .ttlExpired)] 1000000]

theorem expired_not_handed_not_retried_expiresInTime :
    ∃ s, (System.created {} .fifo [] 0).Runs expiresInTime s ∧
      (∀ c t, .handed c 0 t ∈ s.log → t < 1000000) ∧
        ∀ c issuedFor during t retried,
          .settled c 0 issuedFor during (some (t, retried)) ∈ s.log → 1000000 ≤ t →
            retried = false := by
  have hsome : (Run.exec System.step (System.created {} .fifo [] 0) expiresInTime).map
      (fun s => decide (.produced 0 shortLived ∈ s.log)) = some true := by decide
  obtain ⟨s, hs, hproduced⟩ := Option.map_eq_some_iff.1 hsome
  exact ⟨s, hs, expired_not_handed_not_retried _ _ _ _ _ s (by decide) hs 0 shortLived
    (of_decide_eq_true hproduced) (by decide)⟩

end RedisSmq
