import RedisSmq.Exchange.Removal
import RedisSmq.Guarantees.RouteIndex

/-!
# Removing exchanges through the manager

`Store.Delete` looks for bound queues where the type in its parameters tells it to, and then
sends its commands without a transaction. It is safe if it is given the type that the exchange
has, and if no other client binds a queue to the exchange, or changes its properties, before
it has returned.
-/

namespace RedisSmq

open Optimistic

/-- The exchange that the manager is asked to remove. -/
def ExchangeCall.target : ExchangeCall → Option ExchangeId
  | .remove p _ => some p.id
  | _ => none

def ExchangeAction.called : ExchangeAction → List ExchangeCall
  | .call c => [c]
  | _ => []

/-- The clients, and the call that each of them makes. -/
structure TracedMachine where
  machine : ExchangeMachine
  calls : List ExchangeCall

namespace TracedMachine

variable (t : TracedMachine)

def initial (queues : QueueParams → Option QueueType) : TracedMachine :=
  ⟨.initial queues, []⟩

def step (a : ExchangeAction) : Option TracedMachine :=
  (t.machine.step a).map fun m => ⟨m, t.calls ++ a.called⟩

/-- A client of `Store.Delete` for the exchange has not returned. -/
def Removes (e : ExchangeId) : Prop :=
  ∃ x ∈ t.calls.zip t.machine.procs, x.1.target = some e ∧ x.2.result = none
  deriving Decidable

/-- What is written in this step is undisturbed, and no queue is bound to an exchange while a
client of `Store.Delete` looks at it or removes it. -/
def Undisturbed (a : ExchangeAction) : Prop :=
  ∀ x ∈ t.machine.written a.move,
    t.machine.store.Undisturbed x.2 ∧ ∀ e ∈ x.2.binds, ¬ t.Removes e
  deriving Decidable

end TracedMachine

/-- What a client that removes an exchange relies on: nobody else ends the removal, or adds the
exchange to a registry. -/
def KeepsRemoval (c : Nat) (s s' : ExchangeStore) : Prop :=
  ∀ p, (c, p) ∈ s.removing →
    (c, p) ∈ s'.removing ∧ ∀ g, ¬ s.Registers p g → ¬ s'.Registers p g

/-- At the first command no queue is bound to the exchange, and after the last one nothing is
left of it. -/
def RemovesSafely (c : Option Nat) (s : ExchangeStore) : ExchangeWrite → Prop
  | .dropProps p _ => s.Unbound p.id
  | .dropIndex p => (s.apply c (.dropIndex p)).Gone p.id
  | _ => True

/-- The contract of a client. One that is asked to remove an exchange also relies on others
not to bind a queue to it. -/
def removalContract (target : Option ExchangeId) : Contract ExchangeStore ExchangeWrite where
  I := ExchangeStore.Removable
  R c s s' := KeepsRemoval c s s' ∧ ∀ e ∈ target, ExchangeStore.Dwindles e s s'
  C _ w s := s.Undisturbed w
  A c w s := RemovesSafely c s w
  refl _ s := ⟨fun _ hp => ⟨hp, fun _ h => h⟩, fun e _ => .refl e s⟩
  trans _ _ _ _ h h' := by
    refine ⟨fun p hp => ?_, fun e he => (h.2 e he).trans (h'.2 e he)⟩
    obtain ⟨hp', hkept⟩ := h.1 p hp
    obtain ⟨hp'', hkept'⟩ := h'.1 p hp'
    exact ⟨hp'', fun g hg => hkept' g (hkept g hg)⟩

section Contract

variable {s : ExchangeStore} {w : ExchangeWrite} {p : ExchangeParams} {c : Option Nat}

theorem keepsRemoval_apply {d : Nat} (hfree : ∀ x ∈ w.retypes, ¬ s.Removing x.1)
    (hkeep : ∀ p, (d, p) ∈ s.removing → (d, p) ∈ (s.apply c w).removing) :
    KeepsRemoval d s (s.apply c w) := by
  intro p hp
  refine ⟨hkeep p hp, fun g hnot hg => ?_⟩
  rcases hg.of_apply with hold | ⟨t, ht⟩
  · exact hnot hold
  · exact hfree _ ht ⟨(d, p), hp, rfl⟩

/-- A write other than the manager's commands keeps the contract of a client that removes
nothing. -/
theorem keeps_of_fits (hI : s.Removable) (hdrop : w.isDrop = false) (hfits : s.Fits w)
    (hknown : s.RoutesKnown w) (hC : s.Undisturbed w) :
    Keeps exchangeServer (removalContract none) c w s := by
  obtain ⟨htyped, hcurrent, -, hfree⟩ := hC
  refine ⟨hI.apply hdrop htyped hfits hknown hcurrent fun e t h => hfree (e, t) h,
    fun d _ => ⟨?_, fun e he => absurd he (Option.not_mem_none e)⟩, ?_⟩
  · refine keepsRemoval_apply hfree fun p hp => ?_
    rw [ExchangeStore.removing_apply hdrop]
    exact hp
  · change RemovesSafely c s w
    cases w with
    | dropProps p found | dropIndex p => cases hdrop
    | _ => trivial

/-- The pipeline of `Store.Delete` keeps the contract, if what was looked at is empty. -/
theorem removalPipeline_safe {c : Nat} {known : ExchangeStore} {found : List String}
    (hknown : known.FoundEmpty p found) :
    (removalPipeline p found).Safe exchangeServer (removalContract (some p.id)) c known := by
  have hdwindles : ∀ (w : ExchangeWrite) (s : ExchangeStore), w.binds = none →
      ∀ e ∈ some p.id, ExchangeStore.Dwindles e s (exchangeServer.apply (some c) w s) := by
    intro w s hw e he
    exact ExchangeStore.dwindles_apply (by rw [hw]; exact (Option.some_ne_none e).symm)
  intro s₁ hI₁ hR₁ hC₁
  obtain ⟨-, -, htype, hfree⟩ := hC₁
  have hfound : s₁.FoundEmpty p found := hknown.mono (hR₁.2 _ rfl)
  refine ⟨⟨hI₁.dropProps (hfree _ rfl) htype hfound, fun d _ => ⟨?_, hdwindles _ _ rfl⟩,
    hI₁.unbound_of_found htype hfound⟩, ?_⟩
  · exact keepsRemoval_apply hfree fun p' hp' => .tail _ hp'
  intro s₂ hI₂ hR₂ _
  have hp₂ : (c, p) ∈ s₂.removing := (hR₂.1 p (.head _)).1
  refine ⟨⟨hI₂.dropListed (c := some c) hp₂, fun d _ => ⟨?_, hdwindles _ _ rfl⟩, trivial⟩, ?_⟩
  · exact keepsRemoval_apply nofun fun p' hp' => hp'
  intro s₃ hI₃ hR₃ _
  obtain ⟨hp₃, hkept₃⟩ := hR₃.1 p hp₂
  have hall : ¬ s₃.Registers p .all :=
    hkept₃ .all fun h => ((ExchangeStore.registers_unlistAll s₂ p p .all).1 h).2 rfl rfl
  refine ⟨⟨hI₃.dropNsListed (c := some c) hp₃, fun d _ => ⟨?_, hdwindles _ _ rfl⟩, trivial⟩, ?_⟩
  · exact keepsRemoval_apply nofun fun p' hp' => hp'
  intro s₄ hI₄ hR₄ _
  obtain ⟨hp₄, hkept₄⟩ := hR₄.1 p hp₃
  have hout : ∀ g, ¬ s₄.Registers p g := by
    intro g
    refine hkept₄ g fun h => ?_
    obtain ⟨hold, hns⟩ := (ExchangeStore.registers_unlistNs s₃ p p g).1 h
    cases g with
    | all => exact hall hold
    | ns => exact hns rfl rfl
  refine ⟨⟨hI₄.dropIndex (c := some c) hp₄ hout, fun d hd => ⟨?_, hdwindles _ _ rfl⟩,
    hI₄.gone (c := some c) hp₄ hout⟩, trivial⟩
  refine keepsRemoval_apply nofun fun p' hp' => ?_
  refine ExchangeStore.mem_removing_dropIndex.2 ⟨hp', fun he => hd ?_⟩
  cases hI₄.listed.unique _ hp₄ _ hp' he.symm
  rfl

theorem ExchangeCall.safe_target (call : ExchangeCall) (c : Nat) (known : ExchangeStore) :
    call.program.Safe exchangeServer (removalContract call.target) c known := by
  by_cases hremoval : call.isRemoval = true
  · cases call with
    | remove p order =>
      exact ExchangeStore.removeExchange_safe (fun _ _ hR => hR.2 _ rfl) fun _ _ =>
        removalPipeline_safe
    | _ => cases hremoval
  · have hcall : call.isRemoval = false := Bool.not_eq_true _ ▸ hremoval
    have htarget : call.target = none := by
      cases call with
      | remove p order => cases hcall
      | _ => rfl
    rw [htarget]
    refine call.safe hcall fun w hmay s hI hknows hC => ?_
    have hfits := hknows.fits (fun s h => h.listed) hI fun e t h => hC.2.2.2 (e, t) h
    exact keeps_of_fits hI (call.isDrop_eq_false hcall hmay) hfits
      (ExchangeStore.routesKnown_of_knows hknows) hC

end Contract

section Runs

variable {t t' : TracedMachine} {a : ExchangeAction}

namespace TracedMachine

/-- The contract of a client. -/
def contract (t : TracedMachine) (c : Nat) : Contract ExchangeStore ExchangeWrite :=
  removalContract (t.calls[c]?.bind ExchangeCall.target)

structure Sound (t : TracedMachine) : Prop where
  store : t.machine.store.Removable
  calls : t.calls.length = t.machine.procs.length
  safe : ∀ (c : Nat) p, t.machine.procs[c]? = some p →
    p.Safe exchangeServer (t.contract c) c t.machine.store

/-- What is written keeps the contract of a client, or of one that removes nothing. -/
theorem Sound.keeps (h : t.Sound) (hcond : t.Undisturbed a) :
    ∀ x ∈ t.machine.written a.move,
      ∃ target, Keeps exchangeServer (removalContract target) x.1 x.2 t.machine.store := by
  rintro ⟨c, w⟩ hx
  have hC := (hcond _ hx).1
  cases a with
  | call call => cases hx
  | createQueue q type | deleteQueue q =>
    cases hx
    exact ⟨none, keeps_of_fits h.store rfl trivial trivial hC⟩
  | step d =>
    obtain ⟨w', hw, heq⟩ := Option.map_eq_some_iff.1 hx
    cases heq
    exact ⟨_, Machine.keeps_of_safe (K := t.contract) h.safe h.store hx hC⟩

theorem Sound.step (h : t.Sound) (hcond : t.Undisturbed a) (hstep : t.step a = some t') :
    t'.Sound := by
  obtain ⟨m, hm, rfl⟩ := Option.map_eq_some_iff.1 hstep
  have hkeeps := h.keeps hcond
  have hcontract : ∀ c, c < t.machine.procs.length →
      contract ⟨m, t.calls ++ a.called⟩ c = t.contract c := by
    intro c hc
    rw [contract, contract, List.getElem?_append_left (h.calls.symm ▸ hc)]
  have hlt : ∀ {c p}, t.machine.procs[c]? = some p → c < t.machine.procs.length :=
    fun hp => (List.getElem?_eq_some_iff.1 hp).1
  refine ⟨?_, ?_, ?_⟩
  · change m.store.Removable
    rw [Machine.store_of_step hm]
    cases hw : t.machine.written a.move with
    | none => exact h.store
    | some x =>
      obtain ⟨target, hkept⟩ := hkeeps x hw
      exact hkept.invariant
  · rw [List.length_append, h.calls, Machine.length_of_step hm]
    cases a <;> rfl
  · refine Machine.each_safe_step (fun c p hp => ?_) (fun c => h.store) (fun p hp => ?_)
      (fun c w hw => (hcond _ hw).1) (fun x hx d p hd hp hlive => ?_) hm
    · rw [hcontract c (hlt hp)]
      exact h.safe c p hp
    · cases a with
      | call call =>
        cases hp
        have hcall : (t.calls ++ [call])[t.machine.procs.length]? = some call := by
          rw [← h.calls, List.getElem?_concat_length]
        change call.program.Safe exchangeServer (removalContract
          ((t.calls ++ [call])[t.machine.procs.length]?.bind ExchangeCall.target)) _ _
        rw [hcall]
        exact call.safe_target _ _
      | _ => cases hp
    · obtain ⟨target, hkept⟩ := hkeeps x hx
      rw [hcontract d (hlt hp)]
      refine ⟨(hkept.rely d hd).1, fun e he => ExchangeStore.dwindles_apply fun hbinds => ?_⟩
      obtain ⟨call, hcall, htarget⟩ := Option.bind_eq_some_iff.1 he
      refine (hcond x hx).2 e hbinds ⟨(call, p), ?_, htarget, hlive⟩
      exact List.mem_of_getElem? (i := d) (by rw [List.getElem?_zip_eq_some]; exact ⟨hcall, hp⟩)

theorem sound_of_runs {queues : QueueParams → Option QueueType} {as : List ExchangeAction}
    (hcond : Run.Along step Undisturbed (initial queues) as)
    (hrun : Run.exec step (initial queues) as = some t) : t.Sound :=
  Run.invariant_along (fun _ _ _ h hcond hstep => h.step hcond hstep)
    ⟨.initial queues, rfl, fun c _ hp => absurd hp (by simp [initial, ExchangeMachine.initial])⟩
    hcond hrun

end TracedMachine

end Runs

/-- In every run whose writes are all undisturbed and in which no queue is bound to an exchange
that is about to be removed: when a client of `Store.Delete` starts to remove an exchange, no
queue is bound to it, and when the client returns without an error, nothing is left of the
exchange and no queue has it among its bindings. -/
theorem removal_leaves_nothing {queues : QueueParams → Option QueueType}
    {as : List ExchangeAction} {t t' : TracedMachine} {c : Nat}
    (hcond : Run.Along TracedMachine.step TracedMachine.Undisturbed
      (TracedMachine.initial queues) (as ++ [.step c]))
    (hrun : Run.exec TracedMachine.step (TracedMachine.initial queues) as = some t)
    (hstep : t.step (.step c) = some t') :
    (∀ p found, t.machine.procs[c]? = some (.running (removalPipeline p found)) →
        t.machine.store.Unbound p.id) ∧
      ∀ p, t.machine.procs[c]? = some (.running (.write (.dropIndex p) (.done .ok))) →
        t'.machine.store.Gone p.id := by
  obtain ⟨hbefore, hlast⟩ := hcond.of_append hrun
  have hkeeps := (TracedMachine.sound_of_runs hbefore hrun).keeps hlast.1
  constructor
  · intro p found hp
    obtain ⟨target, hkept⟩ := hkeeps (some c, .dropProps p found) (by
      simp [Machine.written, ExchangeAction.move, Machine.clientStep, hp, removalPipeline,
        Process.step])
    exact hkept.assertion
  · intro p hp
    have hwritten : t.machine.written (.step c) = some (some c, .dropIndex p) := by
      simp [Machine.written, Machine.clientStep, hp, Process.step]
    obtain ⟨target, hkept⟩ := hkeeps _ hwritten
    obtain ⟨m, hm, rfl⟩ := Option.map_eq_some_iff.1 hstep
    have hstore := Machine.store_of_step hm
    rw [ExchangeAction.move, hwritten] at hstore
    change m.store.Gone p.id
    rw [hstore]
    exact hkept.assertion

/-- A fanout exchange with a bound queue is removed as if it were a direct exchange. -/
def mistypedRemoval : List ExchangeAction :=
  callAndSteps 0 (.bindFanout ordersQueue ⟨salesExchange, .fanout⟩) 5 ++
    callAndSteps 1 (.remove salesDirect .asAdded) 6

/-- A queue is bound to an exchange after `Store.Delete` has looked for bound queues. -/
def removalUnderBinding : List ExchangeAction :=
  callAndSteps 0 (.create (.route .direct) salesDirect .standard) 3 ++
    callAndSteps 1 (.remove salesDirect .asAdded) 2 ++
    callAndSteps 2 (.bind .direct ordersQueue salesDirect "paid") 5 ++
    List.replicate 4 (.step 1)

/-- Both times, `Store.Delete` returns without an error and the queue keeps its binding to an
exchange that has no properties any more. In the first run, the exchange also stays listed. -/
theorem removal_leaves_bindings :
    ((Run.exec ExchangeMachine.step (ExchangeMachine.initial fun _ => some .fifo)
        mistypedRemoval).map fun m =>
          (m.procs[1]?.bind Process.result, m.store.props salesExchange,
            m.store.bindings ordersQueue, m.store.allExchanges)) =
        some (some .ok, none, [⟨salesExchange, .fanout⟩], [⟨salesExchange, .fanout⟩]) ∧
      ((Run.exec ExchangeMachine.step (ExchangeMachine.initial fun _ => some .fifo)
        removalUnderBinding).map fun m =>
          (m.procs[1]?.bind Process.result, m.store.props salesExchange,
            m.store.bindings ordersQueue,
            m.store.routeQueues (⟨.direct, salesExchange⟩, "paid"))) =
        some (some .ok, none, [salesDirect], [ordersQueue]) := by
  decide

/-- A queue is bound to an exchange and unbound, and the exchange is removed, up to the last
command. -/
def orderlyRemoval : List ExchangeAction :=
  callAndSteps 0 (.bind .direct ordersQueue salesDirect "paid") 5 ++
    callAndSteps 1 (.unbind .direct ordersQueue salesDirect "paid" .asAdded) 6 ++
    callAndSteps 2 (.remove salesDirect .asAdded) 5

theorem removal_leaves_nothing_unbound :
    ∃ t t', Run.exec TracedMachine.step (TracedMachine.initial fun _ => some .fifo)
        orderlyRemoval = some t ∧
      t.step (.step 2) = some t' ∧ t'.machine.store.Gone salesExchange := by
  have hsome : ((Run.exec TracedMachine.step (TracedMachine.initial fun _ => some .fifo)
      orderlyRemoval).map fun t => t.machine.procs[2]?) =
      some (some (.running (.write (.dropIndex salesDirect) (.done .ok)))) := rfl
  obtain ⟨t, ht, hp⟩ := Option.map_eq_some_iff.1 hsome
  have hstep : (t.step (.step 2)).isSome = true := by
    simp [TracedMachine.step, ExchangeMachine.step, ExchangeAction.move, Machine.step,
      Machine.clientStep, hp, Process.step]
  obtain ⟨t', ht'⟩ := Option.isSome_iff_exists.1 hstep
  exact ⟨t, t', ht, ht', (removal_leaves_nothing (by decide) ht ht').2 salesDirect hp⟩

end RedisSmq
