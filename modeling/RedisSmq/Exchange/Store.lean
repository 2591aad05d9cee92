import RedisSmq.Control.Transition
import RedisSmq.Data.Optimistic

/-!
# The keys of exchanges

An exchange has a hash of properties and is listed in two registries, one for all exchanges
and one for its namespace. A direct exchange has a set of routing keys and for each of them
a set of queues; a topic exchange has patterns in place of routing keys, and a fanout
exchange has one set of queues. Every queue has a set of the exchanges that it is bound to.

A set is a list without repetitions here. The writes are the transactions and scripts that
the stores of exchanges run, and the single commands of the pipeline with which the exchange
manager removes an exchange. The key that names the exchange itself is left out: it is
watched and deleted, but nothing ever writes it.

`removing` is not part of the program. It records which client is in the middle of such a
pipeline, and for which exchange.
-/

namespace RedisSmq

/-- The type of an exchange. Any number is accepted for it. -/
inductive ExchangeType where
  | direct
  | fanout
  | topic
  | unknown (code : Nat)
  deriving DecidableEq, Repr

/-- The policy of an exchange. Any number is accepted for it. -/
inductive ExchangePolicy where
  | standard
  | priority
  | unknown (code : Nat)
  deriving DecidableEq, Repr

/-- `checkPolicy`. -/
def ExchangePolicy.allows : ExchangePolicy → QueueType → Bool
  | .standard, type => type = .fifo || type = .lifo
  | .priority, type => type = .priority
  | .unknown _, _ => true

/-- The name of an exchange and its namespace, which are valid keys. -/
structure ExchangeId where
  name : String
  ns : String
  validName : ValidKey name
  validNs : ValidKey ns

instance decidableEqExchangeId : DecidableEq ExchangeId := fun e e' =>
  decidable_of_iff (e.name = e'.name ∧ e.ns = e'.ns) <| by
    obtain ⟨name, ns, _, _⟩ := e
    obtain ⟨name', ns', _, _⟩ := e'
    simp only [ExchangeId.mk.injEq]

structure ExchangeParams where
  id : ExchangeId
  type : ExchangeType
  deriving DecidableEq

/-- The fields of the hash of properties. -/
structure ExchangeHash where
  type : Option ExchangeType := none
  policy : Option ExchangePolicy := none
  deriving DecidableEq

/-- The type that `DecodeProps` finds. -/
def ExchangeHash.decodedType (h : ExchangeHash) : ExchangeType := h.type.getD .direct

/-- The policy that `DecodeProps` finds. -/
def ExchangeHash.decodedPolicy (h : ExchangeHash) : ExchangePolicy := h.policy.getD .standard

/-- The stores whose bindings have a routing key or a pattern. -/
inductive RouteKind where
  | direct
  | topic
  deriving DecidableEq, Repr

def RouteKind.type : RouteKind → ExchangeType
  | .direct => .direct
  | .topic => .topic

/-- The routing keys, or the patterns, of an exchange. -/
structure RouteIndex where
  kind : RouteKind
  exchange : ExchangeId
  deriving DecidableEq

structure ExchangeStore where
  props : ExchangeId → Option ExchangeHash
  routes : RouteIndex → List String
  routeQueues : RouteIndex × String → List QueueParams
  fanoutQueues : ExchangeId → List QueueParams
  bindings : QueueParams → List ExchangeParams
  allExchanges : List ExchangeParams
  nsExchanges : String → List ExchangeParams
  /-- The types of the queues that exist. -/
  queues : QueueParams → Option QueueType
  removing : List (Nat × ExchangeParams)

inductive ExchangeKey where
  | props (e : ExchangeId)
  | routes (i : RouteIndex)
  | routeQueues (i : RouteIndex) (r : String)
  | fanoutQueues (e : ExchangeId)
  | bindings (q : QueueParams)
  | allExchanges
  | nsExchanges (ns : String)
  | queue (q : QueueParams)

inductive ExchangeWrite where
  | save (p : ExchangeParams) (policy : ExchangePolicy)
  /-- A binding, with the type of the queue that was found to be allowed. -/
  | bind (kind : RouteKind) (p : ExchangeParams) (q : QueueParams) (r : String) (type : QueueType)
  | bindFanout (p : ExchangeParams) (q : QueueParams) (type : QueueType)
  /-- An unbinding, with whether the queue was the only one of its routing key, and whether it
  was still bound under another one. -/
  | unbind (kind : RouteKind) (p : ExchangeParams) (q : QueueParams) (r : String)
      (last stillBound : Bool)
  | unbindFanout (p : ExchangeParams) (q : QueueParams)
  /-- A deletion, with the routing keys that were found. -/
  | delete (kind : RouteKind) (p : ExchangeParams) (found : List String)
  | deleteFanout (p : ExchangeParams)
  /-- The first command of the manager's pipeline, with the routing keys that were found. -/
  | dropProps (p : ExchangeParams) (found : List String)
  | dropListed (p : ExchangeParams)
  | dropNsListed (p : ExchangeParams)
  /-- The last command, which depends on the type. -/
  | dropIndex (p : ExchangeParams)
  | createQueue (q : QueueParams) (type : QueueType)
  | deleteQueue (q : QueueParams)

section Sets

variable {α : Type} [DecidableEq α]
variable {a b : α} {l : List α}

def sadd (a : α) (l : List α) : List α := if a ∈ l then l else l ++ [a]

def srem (a : α) (l : List α) : List α := l.filter (· ≠ a)

@[simp] theorem mem_sadd : b ∈ sadd a l ↔ b = a ∨ b ∈ l := by
  unfold sadd
  split
  · rename_i ha
    exact ⟨.inr, fun h => h.elim (fun heq => heq ▸ ha) id⟩
  · rw [List.mem_append, List.mem_singleton, or_comm]

@[simp] theorem mem_srem : b ∈ srem a l ↔ b ∈ l ∧ b ≠ a := by
  rw [srem, List.mem_filter, decide_eq_true_iff]

theorem nodup_sadd (h : l.Nodup) : (sadd a l).Nodup := by
  unfold sadd
  split
  · exact h
  rename_i ha
  refine List.nodup_append.2 ⟨h, List.nodup_singleton a, ?_⟩
  rintro x hx y hy rfl
  exact ha (List.mem_singleton.1 hy ▸ hx)

variable {β : Type} [DecidableEq β]

/-- `SADD` to one set of many. -/
theorem mem_update_sadd {f : β → List α} {k k' : β} :
    b ∈ Function.update f k (sadd a (f k)) k' ↔ (k' = k ∧ b = a) ∨ b ∈ f k' := by
  by_cases hk : k' = k
  · subst hk
    simp
  · simp [hk]

/-- `SREM` from one set of many. -/
theorem mem_update_srem {f : β → List α} {k k' : β} :
    b ∈ Function.update f k (srem a (f k)) k' ↔ b ∈ f k' ∧ ¬ (k' = k ∧ b = a) := by
  by_cases hk : k' = k
  · subst hk
    simp
  · simp [hk]

end Sets

namespace ExchangeStore

variable (s : ExchangeStore)

/-- Only the queues exist. -/
def initial (queues : QueueParams → Option QueueType) : ExchangeStore where
  props _ := none
  routes _ := []
  routeQueues _ := []
  fanoutQueues _ := []
  bindings _ := []
  allExchanges := []
  nsExchanges _ := []
  queues := queues
  removing := []

/-- `HSET` of the field of the type. -/
def setType (p : ExchangeParams) : ExchangeStore :=
  let h := (s.props p.id).getD {}
  { s with props := Function.update s.props p.id (some { h with type := some p.type }) }

def delProps (e : ExchangeId) : ExchangeStore :=
  { s with props := Function.update s.props e none }

/-- `SADD` to both registries. -/
def list (p : ExchangeParams) : ExchangeStore :=
  { s with
    allExchanges := sadd p s.allExchanges
    nsExchanges := Function.update s.nsExchanges p.id.ns (sadd p (s.nsExchanges p.id.ns)) }

def unlistAll (p : ExchangeParams) : ExchangeStore :=
  { s with allExchanges := srem p s.allExchanges }

def unlistNs (p : ExchangeParams) : ExchangeStore :=
  { s with
    nsExchanges := Function.update s.nsExchanges p.id.ns (srem p (s.nsExchanges p.id.ns)) }

def setRoutes (i : RouteIndex) (l : List String) : ExchangeStore :=
  { s with routes := Function.update s.routes i l }

def setRouteQueues (i : RouteIndex) (r : String) (l : List QueueParams) : ExchangeStore :=
  { s with routeQueues := Function.update s.routeQueues (i, r) l }

def setFanoutQueues (e : ExchangeId) (l : List QueueParams) : ExchangeStore :=
  { s with fanoutQueues := Function.update s.fanoutQueues e l }

def setBindings (q : QueueParams) (l : List ExchangeParams) : ExchangeStore :=
  { s with bindings := Function.update s.bindings q l }

def delRouteQueues (i : RouteIndex) (rs : List String) : ExchangeStore :=
  { s with routeQueues := fun k => if k.1 = i ∧ k.2 ∈ rs then [] else s.routeQueues k }

/-- What a write does. -/
def apply (s : ExchangeStore) (c : Option Nat) : ExchangeWrite → ExchangeStore
  | .save p policy =>
      { s with props := Function.update s.props p.id (some ⟨some p.type, some policy⟩) }.list p
  | .bind kind p q r _ =>
      let i : RouteIndex := ⟨kind, p.id⟩
      let s := (s.setType p).list p
      ((s.setRoutes i (sadd r (s.routes i))).setRouteQueues i r
        (sadd q (s.routeQueues (i, r)))).setBindings q (sadd p (s.bindings q))
  | .bindFanout p q _ =>
      let s := (s.setType p).list p
      (s.setFanoutQueues p.id (sadd q (s.fanoutQueues p.id))).setBindings q (sadd p (s.bindings q))
  | .unbind kind p q r last stillBound =>
      let i : RouteIndex := ⟨kind, p.id⟩
      let s := s.setRouteQueues i r (srem q (s.routeQueues (i, r)))
      let s := if last then s.setRoutes i (srem r (s.routes i)) else s
      if stillBound then s else s.setBindings q (srem p (s.bindings q))
  | .unbindFanout p q =>
      (s.setFanoutQueues p.id (srem q (s.fanoutQueues p.id))).setBindings q (srem p (s.bindings q))
  | .delete kind p found =>
      let i : RouteIndex := ⟨kind, p.id⟩
      ((((s.delProps p.id).setRoutes i []).unlistAll p).unlistNs p).delRouteQueues i found
  | .deleteFanout p => (((s.delProps p.id).setFanoutQueues p.id []).unlistAll p).unlistNs p
  | .dropProps p _ =>
      { s.delProps p.id with removing := c.toList.map (fun c => (c, p)) ++ s.removing }
  | .dropListed p => s.unlistAll p
  | .dropNsListed p => s.unlistNs p
  | .dropIndex p =>
      let s := { s with removing := s.removing.filter fun x => x.2.id ≠ p.id }
      match p.type with
      | .direct => s.setRoutes ⟨.direct, p.id⟩ []
      | .topic => s.setRoutes ⟨.topic, p.id⟩ []
      | .fanout => s.setFanoutQueues p.id []
      | .unknown _ => s
  | .createQueue q type =>
      if (s.queues q).isSome then s else { s with queues := Function.update s.queues q (some type) }
  | .deleteQueue q =>
      if s.bindings q = [] then { s with queues := Function.update s.queues q none } else s

/-- What a key holds. -/
def Value : ExchangeKey → Type
  | .props _ => Option ExchangeHash
  | .routes _ => List String
  | .routeQueues _ _ => List QueueParams
  | .fanoutQueues _ => List QueueParams
  | .bindings _ => List ExchangeParams
  | .allExchanges => List ExchangeParams
  | .nsExchanges _ => List ExchangeParams
  | .queue _ => Option QueueType

def value : (k : ExchangeKey) → Value k
  | .props e => s.props e
  | .routes i => s.routes i
  | .routeQueues i r => s.routeQueues (i, r)
  | .fanoutQueues e => s.fanoutQueues e
  | .bindings q => s.bindings q
  | .allExchanges => s.allExchanges
  | .nsExchanges ns => s.nsExchanges ns
  | .queue q => s.queues q

instance decEqValue : (k : ExchangeKey) → DecidableEq (Value k)
  | .props _ => inferInstanceAs (DecidableEq (Option ExchangeHash))
  | .routes _ => inferInstanceAs (DecidableEq (List String))
  | .routeQueues _ _ => inferInstanceAs (DecidableEq (List QueueParams))
  | .fanoutQueues _ => inferInstanceAs (DecidableEq (List QueueParams))
  | .bindings _ => inferInstanceAs (DecidableEq (List ExchangeParams))
  | .allExchanges => inferInstanceAs (DecidableEq (List ExchangeParams))
  | .nsExchanges _ => inferInstanceAs (DecidableEq (List ExchangeParams))
  | .queue _ => inferInstanceAs (DecidableEq (Option QueueType))

end ExchangeStore

/-- Redis, as far as exchanges go. -/
def exchangeServer : Optimistic.Server ExchangeStore ExchangeKey ExchangeWrite where
  Value := ExchangeStore.Value
  value := ExchangeStore.value
  decEq := ExchangeStore.decEqValue
  apply := fun c w s => s.apply c w

/-! ## An exchange for examples -/

def salesExchange : ExchangeId := ⟨"sales", "shop", by decide, ordersQueue.validNs⟩

def salesDirect : ExchangeParams := ⟨salesExchange, .direct⟩

end RedisSmq
