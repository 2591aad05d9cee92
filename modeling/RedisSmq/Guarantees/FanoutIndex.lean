import RedisSmq.Exchange.Index

/-!
# Bindings to fanout exchanges

However the calls of the stores of exchanges interleave, a fanout exchange and the queues
that are bound to it agree on the bindings.
-/

namespace RedisSmq

open Optimistic

/-- A call of a store with parameters of its type, or an event of a queue. -/
def ExchangeAction.Plain : ExchangeAction → Prop
  | .call c => c.isRemoval = false ∧ c.Typed
  | _ => True

/-- No exchange is being removed by the manager, and the indices agree. -/
structure ExchangeStore.Settled (s : ExchangeStore) : Prop where
  listed : s.Listed
  fanout : s.FanoutIndexed
  quiet : s.removing = []

namespace ExchangeStore.Settled

variable {s : ExchangeStore} {w : ExchangeWrite}

theorem initial (queues : QueueParams → Option QueueType) :
    (ExchangeStore.initial queues).Settled :=
  ⟨.initial queues, .initial queues, rfl⟩

theorem not_removing (h : s.Settled) (e : ExchangeId) : ¬ s.Removing e := by
  rintro ⟨x, hx, -⟩
  rw [h.quiet] at hx
  cases hx

theorem apply {c : Option Nat} (h : s.Settled) (hdrop : w.isDrop = false) (htyped : w.Typed)
    (hfits : s.Fits w) : (s.apply c w).Settled where
  listed := h.listed.apply hdrop hfits fun e _ _ => h.not_removing e
  fanout := h.fanout.apply hdrop hfits htyped
  quiet := (removing_apply hdrop).trans h.quiet

/-- What happens to queues leaves the exchanges as they are. -/
theorem createQueue (h : s.Settled) (q : QueueParams) (type : QueueType) :
    (s.apply none (.createQueue q type)).Settled :=
  h.apply rfl trivial trivial

theorem deleteQueue (h : s.Settled) (q : QueueParams) : (s.apply none (.deleteQueue q)).Settled :=
  h.apply rfl trivial trivial

end ExchangeStore.Settled

/-- The contract of the calls of the stores. -/
def settledContract : Contract ExchangeStore ExchangeWrite where
  I := ExchangeStore.Settled
  R _ _ _ := True
  C _ _ _ := True
  A _ _ _ := True
  refl _ _ := trivial
  trans _ _ _ _ _ _ := trivial

theorem settledContract_conforms : Conforms settledContract ExchangeAction.Plain where
  call call hcall c known := by
    refine call.safe hcall.1 fun w hmay s hI hknows _ => ⟨?_, fun _ _ => trivial, trivial⟩
    have hfits := hknows.fits (fun s h => h.listed) hI fun e _ _ => hI.not_removing e
    exact hI.apply (call.isDrop_eq_false hcall.1 hmay) (hcall.2.write hmay) hfits
  createQueue q type _ s hI _ := ⟨hI.createQueue q type, fun _ _ => trivial, trivial⟩
  deleteQueue q _ s hI _ := ⟨hI.deleteQueue q, fun _ _ => trivial, trivial⟩

/-- In every state of every run, a queue is among those of a fanout exchange if and only if
the exchange is among its bindings, and then the exchange exists with the fanout type and
both registries list it. -/
theorem fanout_bindings_agree {queues : QueueParams → Option QueueType}
    {as : List ExchangeAction} {m : ExchangeMachine} (hplain : ∀ a ∈ as, a.Plain)
    (hrun : (ExchangeMachine.initial queues).Runs as m) (e : ExchangeId) (q : QueueParams) :
    (q ∈ m.store.fanoutQueues e ↔ ⟨e, .fanout⟩ ∈ m.store.bindings q) ∧
      (q ∈ m.store.fanoutQueues e →
        m.store.typeOf e = some .fanout ∧ ⟨e, .fanout⟩ ∈ m.store.allExchanges ∧
          ⟨e, .fanout⟩ ∈ m.store.nsExchanges e.ns) := by
  have hsteady := settledContract_conforms.steady
    (ExchangeMachine.initial_steady (.initial queues))
    (.of_forall fun a ha _ => ⟨hplain a ha, fun _ _ => trivial⟩) hrun
  have hs : m.store.Settled := hsteady.invariant
  refine ⟨hs.fanout.bound e q, fun hq => ?_⟩
  have htype := hs.fanout.typed e q hq
  have hnot := hs.not_removing e
  exact ⟨htype, (hs.listed.registers e _ .all hnot).2 htype,
    (hs.listed.registers e _ .ns hnot).2 htype⟩

theorem fanout_bindings_agree_bound :
    ∃ m, (ExchangeMachine.initial fun _ => some .fifo).Runs
        (callAndSteps 0 (.bindFanout ordersQueue ⟨salesExchange, .fanout⟩) 5) m ∧
      ordersQueue ∈ m.store.fanoutQueues salesExchange ∧
      ⟨salesExchange, .fanout⟩ ∈ m.store.bindings ordersQueue := by
  have hsome : ((Run.exec ExchangeMachine.step (ExchangeMachine.initial fun _ => some .fifo)
      (callAndSteps 0 (.bindFanout ordersQueue ⟨salesExchange, .fanout⟩) 5)).map
      fun m => m.store.fanoutQueues salesExchange) = some [ordersQueue] := by decide
  obtain ⟨m, hm, hqueues⟩ := Option.map_eq_some_iff.1 hsome
  have hq : ordersQueue ∈ m.store.fanoutQueues salesExchange := hqueues ▸ .head _
  refine ⟨m, hm, hq, (fanout_bindings_agree (fun a ha => ?_) hm salesExchange ordersQueue).1.1 hq⟩
  rcases List.mem_cons.1 ha with rfl | ha
  · exact ⟨rfl, rfl⟩
  · rw [List.eq_of_mem_replicate ha]
    trivial

end RedisSmq
