import RedisSmq.Exchange.Routes
import RedisSmq.Guarantees.FanoutIndex

/-!
# Bindings to direct and topic exchanges

An unbinding decides by the queues of all other routing keys whether the exchange stays among
the bindings of the queue, but it does not watch them. A binding does not watch whether the
queue exists, and a deletion reads the routing keys before it watches anything. As long as
what was read there still holds when a transaction is carried out, the exchanges and the
queues agree on the bindings; otherwise they need not.
-/

namespace RedisSmq

open Optimistic

/-- A transaction that is carried out in this step has read nothing that has changed. -/
def ExchangeMachine.CommitsCurrent (m : ExchangeMachine) (a : ExchangeAction) : Prop :=
  ∀ x ∈ m.written a.move, m.store.Current x.2
  deriving Decidable

/-- The contract of the calls of the stores, if nothing that they read changes. -/
def routesContract : Contract ExchangeStore ExchangeWrite where
  I s := s.Settled ∧ s.RouteIndexed
  R _ _ _ := True
  C _ w s := s.Current w
  A _ _ _ := True
  refl _ _ := trivial
  trans _ _ _ _ _ _ := trivial

theorem routesContract_conforms : Conforms routesContract ExchangeAction.Plain where
  call call hcall c known := by
    refine call.safe hcall.1 fun w hmay s hI hknows hcurrent =>
      ⟨?_, fun _ _ => trivial, trivial⟩
    have hfits := hknows.fits (fun s h => h.1.listed) hI fun e _ _ => hI.1.not_removing e
    have hdrop := call.isDrop_eq_false hcall.1 hmay
    have htyped := hcall.2.write hmay
    exact ⟨hI.1.apply hdrop htyped hfits,
      hI.2.apply hdrop htyped hfits (ExchangeStore.routesKnown_of_knows hknows) hcurrent⟩
  createQueue q type _ s hI _ :=
    ⟨⟨hI.1.createQueue q type, hI.2.createQueue (c := none) q type⟩, fun _ _ => trivial, trivial⟩
  deleteQueue q _ s hI _ :=
    ⟨⟨hI.1.deleteQueue q, hI.2.deleteQueue (c := none) q⟩, fun _ _ => trivial, trivial⟩

/-- In every run in which nothing that a transaction has read changes before it is carried
out, an exchange is among the bindings of a queue if and only if the queue is bound to it
under a routing key or pattern, those with a bound queue are listed, and the queues and
exchanges that are bound exist. -/
theorem route_bindings_agree {queues : QueueParams → Option QueueType}
    {as : List ExchangeAction} {m : ExchangeMachine} (hplain : ∀ a ∈ as, a.Plain)
    (hcurrent : Run.Along ExchangeMachine.step ExchangeMachine.CommitsCurrent
      (ExchangeMachine.initial queues) as)
    (hrun : (ExchangeMachine.initial queues).Runs as m) : m.store.RouteIndexed := by
  have hsteady := routesContract_conforms.steady
    (ExchangeMachine.initial_steady ⟨.initial queues, .initial queues⟩)
    (hcurrent.and_forall hplain) hrun
  exact hsteady.invariant.2

/-- Four bindings, of two queues under two routing keys, and an unbinding of one of the queues
under each of the routing keys. Both are in the middle of their transaction at once. -/
def crossedUnbindings : List ExchangeAction :=
  callAndSteps 0 (.bind .direct ordersQueue salesDirect "paid") 5 ++
    callAndSteps 1 (.bind .direct ordersQueue salesDirect "sent") 5 ++
    callAndSteps 2 (.bind .direct invoicesQueue salesDirect "paid") 5 ++
    callAndSteps 3 (.bind .direct invoicesQueue salesDirect "sent") 5 ++
    callAndSteps 4 (.unbind .direct ordersQueue salesDirect "paid" .asAdded) 6 ++
    callAndSteps 5 (.unbind .direct ordersQueue salesDirect "sent" .asAdded) 6 ++
    [.step 4, .step 5]

/-- The queue is deleted after the binding has found it. -/
def bindToDeleted : List ExchangeAction :=
  callAndSteps 0 (.bind .direct ordersQueue salesDirect "paid") 4 ++
    [.deleteQueue ordersQueue, .step 0]

/-- A queue is bound after the deletion has read the routing keys. -/
def deleteUnderBinding : List ExchangeAction :=
  callAndSteps 0 (.create (.route .direct) salesDirect .standard) 3 ++
    callAndSteps 1 (.delete .direct salesDirect .asAdded) 2 ++
    callAndSteps 2 (.bind .direct ordersQueue salesDirect "paid") 5 ++
    List.replicate 3 (.step 1)

theorem crossedUnbindings_leave :
    ((Run.exec ExchangeMachine.step (ExchangeMachine.initial fun _ => some .fifo)
      crossedUnbindings).map fun m =>
        (m.store.bindings ordersQueue, m.store.routes ⟨.direct, salesExchange⟩,
          m.store.routeQueues (⟨.direct, salesExchange⟩, "paid"),
          m.store.routeQueues (⟨.direct, salesExchange⟩, "sent"))) =
      some ([salesDirect], ["paid", "sent"], [invoicesQueue], [invoicesQueue]) := by
  decide

theorem bindToDeleted_leaves :
    ((Run.exec ExchangeMachine.step (ExchangeMachine.initial fun _ => some .fifo)
      bindToDeleted).map fun m =>
        (m.store.routeQueues (⟨.direct, salesExchange⟩, "paid"), m.store.queues ordersQueue)) =
      some ([ordersQueue], none) := by
  decide

theorem deleteUnderBinding_leaves :
    ((Run.exec ExchangeMachine.step (ExchangeMachine.initial fun _ => some .fifo)
      deleteUnderBinding).map fun m =>
        (m.store.routeQueues (⟨.direct, salesExchange⟩, "paid"),
          m.store.typeOf salesExchange)) =
      some ([ordersQueue], none) := by
  decide

/-- Two unbindings each find the queue bound under the other routing key, and both leave the
exchange among its bindings; a queue that was deleted is bound; an exchange is deleted while
a queue is bound to it. -/
theorem route_bindings_disagree :
    (∃ m, (ExchangeMachine.initial fun _ => some .fifo).Runs crossedUnbindings m ∧
        salesDirect ∈ m.store.bindings ordersQueue ∧ ¬ m.store.RouteIndexed) ∧
      (∃ m, (ExchangeMachine.initial fun _ => some .fifo).Runs bindToDeleted m ∧
        m.store.queues ordersQueue = none ∧ ¬ m.store.RouteIndexed) ∧
      ∃ m, (ExchangeMachine.initial fun _ => some .fifo).Runs deleteUnderBinding m ∧
        m.store.typeOf salesExchange = none ∧ ¬ m.store.RouteIndexed := by
  refine ⟨?_, ?_, ?_⟩
  · obtain ⟨m, hm, hleft⟩ := Option.map_eq_some_iff.1 crossedUnbindings_leave
    simp only [Prod.mk.injEq] at hleft
    obtain ⟨hbindings, hroutes, hpaid, hsent⟩ := hleft
    have hmem : salesDirect ∈ m.store.bindings ordersQueue := hbindings ▸ .head _
    refine ⟨m, hm, hmem, fun h => ?_⟩
    obtain ⟨r, hr⟩ := (h.bound .direct salesExchange ordersQueue).1 hmem
    have hlisted := h.listed _ r _ hr
    rw [hroutes] at hlisted
    rcases List.mem_pair.1 hlisted with rfl | rfl
    · rw [hpaid] at hr
      exact absurd hr (by decide)
    · rw [hsent] at hr
      exact absurd hr (by decide)
  · obtain ⟨m, hm, hleft⟩ := Option.map_eq_some_iff.1 bindToDeleted_leaves
    obtain ⟨hqueues, hnone⟩ := Prod.mk.inj hleft
    refine ⟨m, hm, hnone, fun h => ?_⟩
    have hexists := h.queue ⟨.direct, salesExchange⟩ "paid" ordersQueue (hqueues ▸ .head _)
    rw [hnone] at hexists
    cases hexists
  · obtain ⟨m, hm, hleft⟩ := Option.map_eq_some_iff.1 deleteUnderBinding_leaves
    obtain ⟨hqueues, hnone⟩ := Prod.mk.inj hleft
    refine ⟨m, hm, hnone, fun h => ?_⟩
    have htyped := h.typed ⟨.direct, salesExchange⟩ "paid" ordersQueue (hqueues ▸ .head _)
    cases hnone.symm.trans htyped

/-- A queue is bound under two routing keys and unbound from one of them. -/
def orderlyUnbinding : List ExchangeAction :=
  callAndSteps 0 (.bind .direct ordersQueue salesDirect "paid") 5 ++
    callAndSteps 1 (.bind .direct ordersQueue salesDirect "sent") 5 ++
    callAndSteps 2 (.unbind .direct ordersQueue salesDirect "paid" .asAdded) 7

theorem route_bindings_agree_unbound :
    ∃ m, (ExchangeMachine.initial fun _ => some .fifo).Runs orderlyUnbinding m ∧
      salesDirect ∈ m.store.bindings ordersQueue ∧ m.store.RouteIndexed := by
  have hsome : ((Run.exec ExchangeMachine.step (ExchangeMachine.initial fun _ => some .fifo)
      orderlyUnbinding).map fun m => m.store.bindings ordersQueue) = some [salesDirect] := by
    decide
  obtain ⟨m, hm, hbindings⟩ := Option.map_eq_some_iff.1 hsome
  refine ⟨m, hm, hbindings ▸ .head _, route_bindings_agree (fun a ha => ?_) (by decide) hm⟩
  have hplain : ∀ a ∈ orderlyUnbinding, a.Plain := by
    simp [orderlyUnbinding, callAndSteps, ExchangeAction.Plain, ExchangeCall.isRemoval,
      ExchangeCall.Typed, salesDirect, RouteKind.type]
  exact hplain a ha

end RedisSmq
