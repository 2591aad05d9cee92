import RedisSmq.Guarantees.RouteIndex

/-!
# Policies of exchanges

The policy of an exchange tells which types of queues may be bound to it. An exchange that
comes into being by the first binding gets no policy, and is taken for a standard one from
then on; the queue that is bound first is not checked against this.
-/

namespace RedisSmq

open Optimistic

namespace ExchangeStore

/-- The queue is bound to the exchange, in any way. -/
def Bound (s : ExchangeStore) (e : ExchangeId) (q : QueueParams) : Prop :=
  q ∈ s.fanoutQueues e ∨ ∃ kind r, q ∈ s.routeQueues (⟨kind, e⟩, r)

/-- The type of the queue is allowed by the policy to which the properties decode. -/
def Allowed (s : ExchangeStore) (e : ExchangeId) (q : QueueParams) : Prop :=
  ∃ h type, s.props e = some h ∧ s.queues q = some type ∧ h.decodedPolicy.allows type = true

/-- The invariant of the runs. -/
structure PolicyKept (s : ExchangeStore) : Prop where
  typed : ∀ e h, s.props e = some h → h.type ≠ none
  allowed : ∀ e q, s.Bound e q → s.Allowed e q

/-- A binding that creates its exchange is one of a queue that a standard exchange allows. -/
def CreatesStandard (s : ExchangeStore) : ExchangeWrite → Prop
  | .bind _ p _ _ type | .bindFanout p _ type =>
      s.props p.id = none → ExchangePolicy.standard.allows type = true
  | _ => True

instance decidableCreatesStandard (s : ExchangeStore) :
    (w : ExchangeWrite) → Decidable (s.CreatesStandard w)
  | .bind .. | .bindFanout .. => inferInstanceAs (Decidable (_ = _ → _ = _))
  | .save .. | .unbind .. | .unbindFanout .. | .delete .. | .deleteFanout .. | .dropProps ..
  | .dropListed .. | .dropNsListed .. | .dropIndex .. | .createQueue .. | .deleteQueue .. =>
      inferInstanceAs (Decidable True)

variable {s s' : ExchangeStore} {p : ExchangeParams} {q : QueueParams} {type : QueueType}

theorem PolicyKept.initial (queues : QueueParams → Option QueueType) :
    (initial queues).PolicyKept :=
  ⟨nofun, fun _ _ hq => hq.elim nofun nofun⟩

/-- What was allowed stays allowed if no policy and no type of a queue changes. -/
theorem Allowed.mono {e : ExchangeId} (h : s.Allowed e q) (hprops : ∀ hash, s.props e = some hash →
      ∃ hash', s'.props e = some hash' ∧ hash'.decodedPolicy = hash.decodedPolicy)
    (hqueues : ∀ type, s.queues q = some type → s'.queues q = some type) : s'.Allowed e q := by
  obtain ⟨hash, type, hhash, htype, hallows⟩ := h
  obtain ⟨hash', hhash', hpolicy⟩ := hprops hash hhash
  exact ⟨hash', type, hhash', hqueues type htype, by rw [hpolicy, hallows]⟩

/-- The properties and the queues stay, and nothing new is bound. -/
theorem PolicyKept.of_same (h : s.PolicyKept) (hprops : s'.props = s.props)
    (hqueues : ∀ q type, s.queues q = some type → s'.queues q = some type)
    (hbound : ∀ e q, s'.Bound e q → s.Bound e q) : s'.PolicyKept where
  typed e hash hhash := h.typed e hash (hprops ▸ hhash)
  allowed e q hq :=
    (h.allowed e q (hbound e q hq)).mono (fun hash hhash => ⟨hash, hprops ▸ hhash, rfl⟩) (hqueues q)

/-- The properties after a binding. -/
theorem setType_props (s : ExchangeStore) (p : ExchangeParams) {e : ExchangeId}
    {hash : ExchangeHash} (hhash : s.props e = some hash) :
    ∃ hash', (s.setType p).props e = some hash' ∧ hash'.decodedPolicy = hash.decodedPolicy := by
  by_cases he : e = p.id
  · subst he
    refine ⟨{ hash with type := some p.type }, ?_, rfl⟩
    simp [setType, hhash]
  · exact ⟨hash, (Function.update_of_ne he _ _).trans hhash, rfl⟩

theorem setType_typed (h : s.PolicyKept) (p : ExchangeParams) (e : ExchangeId)
    (hash : ExchangeHash) (hhash : (s.setType p).props e = some hash) : hash.type ≠ none := by
  change Function.update s.props p.id _ e = some hash at hhash
  rw [Function.update_apply] at hhash
  split at hhash
  · cases hhash
    nofun
  · exact h.typed e hash hhash

/-- The queue that is bound is allowed from then on. -/
theorem setType_allowed (hqueue : s.queues q = some type) (haccepts : s.Accepts p type)
    (hcreates : s.props p.id = none → ExchangePolicy.standard.allows type = true) :
    (s.setType p).Allowed p.id q := by
  refine ⟨{ (s.props p.id).getD {} with type := some p.type }, type, Function.update_self _ _ _,
    hqueue, ?_⟩
  cases hprops : s.props p.id with
  | none => exact hcreates hprops
  | some hash => exact (haccepts hash hprops).2

/-- A binding to an exchange keeps the policies. -/
theorem PolicyKept.bound (h : s.PolicyKept) (hprops : s'.props = (s.setType p).props)
    (hqueues : s'.queues = s.queues)
    (hbound : ∀ e q', s'.Bound e q' → (e = p.id ∧ q' = q) ∨ s.Bound e q')
    (hqueue : s.queues q = some type) (haccepts : s.Accepts p type)
    (hcreates : s.props p.id = none → ExchangePolicy.standard.allows type = true) :
    s'.PolicyKept where
  typed e hash hhash := setType_typed h p e hash (hprops ▸ hhash)
  allowed e q' hq' := by
    rcases hbound e q' hq' with ⟨rfl, rfl⟩ | hold
    · exact (setType_allowed hqueue haccepts hcreates).mono
        (fun hash hhash => ⟨hash, hprops ▸ hhash, rfl⟩) fun type htype => hqueues ▸ htype
    refine (h.allowed e q' hold).mono (fun hash hhash => ?_) fun type htype => hqueues ▸ htype
    rw [hprops]
    exact setType_props s p hhash

/-- A new exchange has no queues. -/
theorem PolicyKept.save (h : s.PolicyKept) {policy : ExchangePolicy} {c : Option Nat}
    (hnew : s.typeOf p.id = none) : (s.apply c (.save p policy)).PolicyKept := by
  have hnone : s.props p.id = none := by
    cases hprops : s.props p.id with
    | none => rfl
    | some hash =>
      rw [typeOf, hprops] at hnew
      exact absurd hnew (h.typed p.id hash hprops)
  have hother : ∀ e hash, s.props e = some hash →
      (s.apply c (.save p policy)).props e = some hash := by
    intro e hash hhash
    refine (Function.update_of_ne ?_ _ _).trans hhash
    rintro rfl
    cases hnone.symm.trans hhash
  refine ⟨fun e hash hhash => ?_, fun e q hq => ?_⟩
  · change Function.update s.props p.id _ e = some hash at hhash
    rw [Function.update_apply] at hhash
    split at hhash
    · cases hhash
      exact Option.some_ne_none _
    · exact h.typed e hash hhash
  · exact (h.allowed e q hq).mono (fun hash hhash => ⟨hash, hother e hash hhash, rfl⟩)
      fun _ htype => htype

end ExchangeStore

/-- Creations, bindings and unbindings of exchanges, and creations of queues. -/
def ExchangeAction.Lasting : ExchangeAction → Prop
  | .call (.delete _ _ _) | .call (.deleteFanout _) | .call (.remove _ _) | .deleteQueue _ => False
  | _ => True

/-- A binding that is carried out in this step and creates its exchange is one of a queue that
a standard exchange allows. -/
def ExchangeMachine.CreatesStandard (m : ExchangeMachine) (a : ExchangeAction) : Prop :=
  ∀ x ∈ m.written a.move, m.store.CreatesStandard x.2

instance ExchangeMachine.decidableCreatesStandard (m : ExchangeMachine) (a : ExchangeAction) :
    Decidable (m.CreatesStandard a) :=
  inferInstanceAs (Decidable (∀ x ∈ m.written a.move, m.store.CreatesStandard x.2))

/-- The contract of the calls; the queues that exist stay as they are. -/
def policyContract : Contract ExchangeStore ExchangeWrite where
  I := ExchangeStore.PolicyKept
  R _ s s' := ∀ q type, s.queues q = some type → s'.queues q = some type
  C _ w s := s.CreatesStandard w
  A _ _ _ := True
  refl _ _ _ _ h := h
  trans _ _ _ _ h h' q type hq := h' q type (h q type hq)

section Contract

variable {s : ExchangeStore} {c : Option Nat}
variable {p : ExchangeParams} {q : QueueParams}

theorem keptPolicy_bind {n : Nat} {kind : RouteKind}
    {r : String} {type : QueueType} : KeptByCall policyContract n (.bind kind p q r type) := by
  intro s hI hknows hC
  obtain ⟨⟨s₁, hR, htype⟩, haccepts, -⟩ := hknows
  refine ⟨hI.bound rfl rfl (fun e q' hq' => ?_) (hR q type htype) haccepts hC,
    fun _ _ _ _ h => h, trivial⟩
  rcases hq' with hfanout | ⟨kind', r', hroute⟩
  · exact .inr (.inl hfanout)
  rcases mem_update_sadd.1 hroute with ⟨heq, rfl⟩ | hold
  · cases heq
    exact .inl ⟨rfl, rfl⟩
  · exact .inr (.inr ⟨kind', r', hold⟩)

theorem keptPolicy_bindFanout {n : Nat} {type : QueueType} :
    KeptByCall policyContract n (.bindFanout p q type) := by
  intro s hI hknows hC
  obtain ⟨⟨s₁, hR, htype⟩, haccepts, -⟩ := hknows
  refine ⟨hI.bound rfl rfl (fun e q' hq' => ?_) (hR q type htype) haccepts hC,
    fun _ _ _ _ h => h, trivial⟩
  rcases hq' with hfanout | hroute
  · rcases mem_update_sadd.1 hfanout with ⟨rfl, rfl⟩ | hold
    · exact .inl ⟨rfl, rfl⟩
    · exact .inr (.inl hold)
  · exact .inr (.inr hroute)

theorem keptPolicy_unbind {n : Nat} {kind : RouteKind} {r : String} {last still : Bool} :
    KeptByCall policyContract n (.unbind kind p q r last still) := by
  intro s hI _ _
  have hsame : (s.apply (some n) (.unbind kind p q r last still)).props = s.props ∧
      (s.apply (some n) (.unbind kind p q r last still)).queues = s.queues ∧
      (s.apply (some n) (.unbind kind p q r last still)).fanoutQueues = s.fanoutQueues := by
    cases last <;> cases still <;> exact ⟨rfl, rfl, rfl⟩
  obtain ⟨hprops, hqueues, hfanout⟩ := hsame
  have hrely : ∀ q' type, s.queues q' = some type →
      (s.apply (some n) (.unbind kind p q r last still)).queues q' = some type := by
    intro q' type htype
    rw [hqueues]
    exact htype
  refine ⟨hI.of_same hprops hrely fun e q' hq' => ?_, fun _ _ => hrely, trivial⟩
  rcases hq' with hq' | ⟨kind', r', hq'⟩
  · exact .inl (hfanout ▸ hq')
  · exact .inr ⟨kind', r', ((ExchangeStore.mem_routeQueues_unbind (c := some n)).1 hq').1⟩

theorem policyContract_conforms : Conforms policyContract ExchangeAction.Lasting where
  call call hcall c known := by
    cases call with
    | create store p policy =>
      refine ExchangeCall.safe rfl fun w hmay s hI hknows _ => ?_
      obtain ⟨-, rfl⟩ := hmay
      exact ⟨hI.save (c := some c) hknows, fun _ _ _ _ h => h, trivial⟩
    | bind kind q p r =>
      refine ExchangeCall.safe rfl fun w hmay => ?_
      obtain ⟨type, rfl⟩ := hmay
      exact keptPolicy_bind
    | bindFanout q p =>
      refine ExchangeCall.safe rfl fun w hmay => ?_
      obtain ⟨type, rfl⟩ := hmay
      exact keptPolicy_bindFanout
    | unbind kind q p r order =>
      refine ExchangeCall.safe rfl fun w hmay => ?_
      obtain ⟨last, still, rfl⟩ := hmay
      exact keptPolicy_unbind
    | unbindFanout q p =>
      refine ExchangeCall.safe rfl fun w hmay s hI _ _ => ?_
      cases hmay
      refine ⟨hI.of_same rfl (fun _ _ h => h) fun e q' hq' => ?_, fun _ _ _ _ h => h, trivial⟩
      exact hq'.imp (fun hq' => (mem_update_srem.1 hq').1) id
    | delete kind p order | deleteFanout p | remove p order => exact hcall.elim
  createQueue q type _ s hI _ := by
    have hrely : ∀ q' type', s.queues q' = some type' →
        (s.apply none (.createQueue q type)).queues q' = some type' := by
      intro q' type' htype
      change ExchangeStore.queues (if _ then _ else _) q' = _
      split
      · exact htype
      rename_i hnone
      refine (Function.update_of_ne ?_ _ _).trans htype
      rintro rfl
      rw [htype] at hnone
      exact hnone rfl
    refine ⟨hI.of_same ?_ hrely fun e q' hq' => ?_, fun _ _ => hrely, trivial⟩
    · change ExchangeStore.props (if _ then _ else _) = _
      split <;> rfl
    · change ExchangeStore.Bound (if _ then _ else _) e q' at hq'
      split at hq' <;> exact hq'
  deleteQueue q hq := hq.elim

end Contract

/-- In every run in which an exchange comes into being by a binding only if a standard exchange
allows the queue, every queue that is bound to an exchange has a type that the policy of the
exchange allows. -/
theorem bound_queues_allowed {queues : QueueParams → Option QueueType}
    {as : List ExchangeAction} {m : ExchangeMachine} (hlasting : ∀ a ∈ as, a.Lasting)
    (hcreates : Run.Along ExchangeMachine.step ExchangeMachine.CreatesStandard
      (ExchangeMachine.initial queues) as)
    (hrun : (ExchangeMachine.initial queues).Runs as m) (e : ExchangeId) (q : QueueParams)
    (hbound : m.store.Bound e q) : m.store.Allowed e q := by
  have hsteady := policyContract_conforms.steady
    (ExchangeMachine.initial_steady (.initial queues)) (hcreates.and_forall hlasting) hrun
  exact hsteady.invariant.allowed e q hbound

/-- A priority queue is bound to an exchange that does not exist yet, which is a standard one
from then on. -/
theorem first_binding_not_allowed :
    ((Run.exec ExchangeMachine.step (ExchangeMachine.initial fun _ => some .priority)
      (callAndSteps 0 (.bind .direct ordersQueue salesDirect "paid") 5)).map fun m =>
        (m.store.routeQueues (⟨.direct, salesExchange⟩, "paid"), m.store.queues ordersQueue,
          (m.store.props salesExchange).map fun h =>
            (h.decodedPolicy, h.decodedPolicy.allows .priority))) =
      some ([ordersQueue], some .priority, some (.standard, false)) := by
  decide

/-- A priority queue is bound to a priority exchange. -/
def priorityBinding : List ExchangeAction :=
  callAndSteps 0 (.create (.route .direct) salesDirect .priority) 3 ++
    callAndSteps 1 (.bind .direct ordersQueue salesDirect "paid") 5

theorem bound_queues_allowed_priority :
    ∃ m, (ExchangeMachine.initial fun _ => some .priority).Runs priorityBinding m ∧
      m.store.Bound salesExchange ordersQueue ∧ m.store.Allowed salesExchange ordersQueue := by
  have hsome : ((Run.exec ExchangeMachine.step (ExchangeMachine.initial fun _ => some .priority)
      priorityBinding).map fun m => m.store.routeQueues (⟨.direct, salesExchange⟩, "paid")) =
      some [ordersQueue] := by
    decide
  obtain ⟨m, hm, hqueues⟩ := Option.map_eq_some_iff.1 hsome
  have hbound : m.store.Bound salesExchange ordersQueue :=
    .inr ⟨.direct, "paid", hqueues ▸ .head _⟩
  have hlasting : ∀ a ∈ priorityBinding, a.Lasting := by
    simp [priorityBinding, callAndSteps, ExchangeAction.Lasting]
  exact ⟨m, hm, hbound, bound_queues_allowed hlasting (by decide) hm _ _ hbound⟩

end RedisSmq
