import RedisSmq.Admin.ManagedSteps

/-!
# The handlers of a queue

A consumer may run several message handlers on one queue, one for each consumer group. A
handler prepares its group, subscribes and then pops messages; when it is shut down, it
unsubscribes. The scripts that subscribe and unsubscribe know the consumer and the group,
but the hash of the consumers has one field for a consumer and all its handlers together
have one processing list.

Besides the keys of the queue there is what each handler is up to. A handler that is shut
down cancels its loop before it unsubscribes, and a pop that is on its way to Redis by then
is carried out nevertheless. `subscribed` is not part of the program: it records which
handlers have subscribed and not unsubscribed since.
-/

namespace RedisSmq

/-- `ephemeralGroupID`. Names are numbers here; what matters is that every consumer has a
group of its own. -/
def ephemeralGroupId (c : ConsumerId) : GroupId := 2 * c + 1

/-- The group that `PrepareConsumerGroup` returns; there is none if it fails. -/
def effectiveGroup (model : DeliveryModel) (c : ConsumerId) (group : Option GroupId) :
    Option (Option GroupId) :=
  match model with
  | .pubSub => some (some (group.getD (ephemeralGroupId c)))
  | .pointToPoint => if group = none then some none else none

/-- A handler of a consumer, with the group that it works for. -/
structure Handler where
  consumer : ConsumerId
  group : Option GroupId
  deriving DecidableEq, Repr

structure Registry where
  queue : Managed
  /-- Handlers that have prepared their group and are about to subscribe. -/
  prepared : List Handler
  /-- Handlers that were started and not shut down. -/
  running : List Handler
  /-- Handlers whose loop may still pop. -/
  loops : List Handler
  /-- Handlers that have subscribed and not unsubscribed since. -/
  subscribed : List Handler

inductive RegistryAction where
  /-- `PrepareConsumerGroup`, with the group that the application has given. -/
  | prepare (c : ConsumerId) (group : Option GroupId)
  /-- `SubscribeConsumer`; the loop is started if it and then `Init` of the dequeuer succeed. -/
  | start (h : Handler) (ready : Bool)
  | pop (h : Handler)
  /-- `Shutdown` cancels the loop and calls `UnsubscribeConsumer`. -/
  | stop (h : Handler)
  /-- The loop of a handler that was shut down has ended. -/
  | halt (h : Handler)
  | crash (c : ConsumerId)
  /-- The reaper calls `UnsubscribeConsumer` for a consumer that it takes for dead. -/
  | evict (c : ConsumerId) (group : Option GroupId)
  /-- Everything else that happens to the queue. -/
  | queue (a : ManagedAction)

/-- The actions on the queue that are not those of handlers. -/
def ManagedAction.isForeign : ManagedAction → Bool
  | .queue (.pop _ _) | .queue (.crash _) | .subscribe _ _ | .unsubscribe _ _ => false
  | _ => true

namespace Registry

/-- The queue has just been created, and nobody consumes it. -/
def created (cfg : Config) (type : QueueType) (model : DeliveryModel) (groups : List GroupId)
    (now : Nanos) : Registry where
  queue := Managed.created cfg type model groups now
  prepared := []
  running := []
  loops := []
  subscribed := []

variable (r : Registry)

def prepare (c : ConsumerId) (group : Option GroupId) : Option Registry :=
  match effectiveGroup r.queue.deliveryModel c group with
  | none => none
  | some none => some { r with prepared := ⟨c, none⟩ :: r.prepared }
  | some (some g) =>
      (r.queue.step (.queue (.saveGroup g))).map fun k =>
        { r with queue := k, prepared := ⟨c, some g⟩ :: r.prepared }

def start (h : Handler) (ready : Bool) : Option Registry :=
  if h ∈ r.prepared then
    match r.queue.subscribe h.consumer h.group with
    | (.ok, k) =>
        some
          { queue := k
            prepared := r.prepared.erase h
            running := if ready then h :: r.running else r.running
            loops := if ready then h :: r.loops else r.loops
            subscribed := h :: r.subscribed.filter (· ≠ h) }
    | (_, k) => some { r with queue := k, prepared := r.prepared.erase h }
  else none

def pop (h : Handler) : Option Registry :=
  if h ∈ r.loops then
    (r.queue.step (.queue (.pop h.consumer h.group))).map fun k => { r with queue := k }
  else none

def stop (h : Handler) : Option Registry :=
  if h ∈ r.running then
    match r.queue.unsubscribe h.consumer h.group with
    | (.ok, k) =>
        some
          { r with
            queue := k
            running := r.running.erase h
            subscribed := r.subscribed.filter (· ≠ h) }
    | (_, k) => some { r with queue := k, running := r.running.erase h }
  else none

def crash (c : ConsumerId) : Option Registry :=
  (r.queue.step (.queue (.crash c))).map fun k =>
    { queue := k
      prepared := r.prepared.filter fun h => h.consumer ≠ c
      running := r.running.filter fun h => h.consumer ≠ c
      loops := r.loops.filter fun h => h.consumer ≠ c
      subscribed := r.subscribed }

def evict (c : ConsumerId) (group : Option GroupId) : Option Registry :=
  match r.queue.unsubscribe c group with
  | (.ok, k) =>
      some { r with queue := k, subscribed := r.subscribed.filter fun h => h.consumer ≠ c }
  | (_, k) => some { r with queue := k }

/-- The state after an action. -/
def step : RegistryAction → Option Registry
  | .prepare c group => r.prepare c group
  | .start h ready => r.start h ready
  | .pop h => r.pop h
  | .stop h => r.stop h
  | .halt h =>
      if h ∈ r.loops ∧ h ∉ r.running then some { r with loops := r.loops.erase h } else none
  | .crash c => r.crash c
  | .evict c group => r.evict c group
  | .queue a =>
      if a.isForeign = true then (r.queue.step a).map fun k => { r with queue := k } else none

/-- The run leads from one state to the other. -/
def Runs (as : List RegistryAction) (r' : Registry) : Prop := Run.exec step r as = some r'

end Registry

/-- What an action does, as far as the queue and the subscriptions go. -/
inductive RegistryStep (r : Registry) : RegistryAction → Managed → List Handler → Prop
  | idle {a : RegistryAction} : RegistryStep r a r.queue r.subscribed
  | group {c : ConsumerId} {group : Option GroupId} {g : GroupId} {k : Managed}
      (hstep : r.queue.step (.queue (.saveGroup g)) = some k) :
      RegistryStep r (.prepare c group) k r.subscribed
  | subscribed {h : Handler} {ready : Bool} {k : Managed}
      (hreply : r.queue.subscribe h.consumer h.group = (.ok, k)) :
      RegistryStep r (.start h ready) k (h :: r.subscribed.filter (· ≠ h))
  | popped {h : Handler} {k : Managed}
      (hstep : r.queue.step (.queue (.pop h.consumer h.group)) = some k) :
      RegistryStep r (.pop h) k r.subscribed
  | unsubscribed {h : Handler} {k : Managed}
      (hreply : r.queue.unsubscribe h.consumer h.group = (.ok, k)) :
      RegistryStep r (.stop h) k (r.subscribed.filter (· ≠ h))
  | crashed {c : ConsumerId} {k : Managed} (hstep : r.queue.step (.queue (.crash c)) = some k) :
      RegistryStep r (.crash c) k r.subscribed
  | evicted {c : ConsumerId} {group : Option GroupId} {k : Managed}
      (hreply : r.queue.unsubscribe c group = (.ok, k)) :
      RegistryStep r (.evict c group) k (r.subscribed.filter fun h => h.consumer ≠ c)
  | queue {a : ManagedAction} {k : Managed} (ha : a.isForeign = true)
      (hstep : r.queue.step a = some k) : RegistryStep r (.queue a) k r.subscribed

section Steps

variable {r r' : Registry} {a : RegistryAction}
variable {group : Option GroupId} {k k' : Managed} {c : ConsumerId}

/-- A refused subscription leaves the queue as it is. -/
theorem Managed.subscribe_refused
    {reply : ManageReply} (h : k.subscribe c group = (reply, k')) (hne : reply ≠ .ok) : k' = k := by
  unfold Managed.subscribe at h
  split_ifs at h <;> cases h <;> first | rfl | exact absurd rfl hne

/-- A refused unsubscription leaves the queue as it is. -/
theorem Managed.unsubscribe_refused
    {reply : ManageReply} (h : k.unsubscribe c group = (reply, k')) (hne : reply ≠ .ok) :
    k' = k := by
  unfold Managed.unsubscribe at h
  split_ifs at h <;> cases h <;> first | rfl | exact absurd rfl hne

/-- What a subscription that succeeds does. -/
theorem Managed.subscribe_ok (h : k.subscribe c group = (.ok, k')) :
    c ∈ k.consumers ∧ k' = k ∨
      c ∉ k.consumers ∧ k'.consumers = c :: k.consumers ∧
        ∀ c' g, c' ∈ k'.members g ↔ c' = c ∧ group = some g ∨ c' ∈ k.members g := by
  unfold Managed.subscribe at h
  split_ifs at h with hq hstate hmem
  · cases h
  · cases h
  · cases h
    exact .inl ⟨hmem, rfl⟩
  cases h
  refine .inr ⟨hmem, rfl, fun c' g => ?_⟩
  cases group with
  | none => simp
  | some g' =>
    by_cases hg : g = g'
    · subst hg
      by_cases hc : c' = c <;> simp [hc]
    · simp [Function.update_of_ne hg, Ne.symm hg]

/-- What an unsubscription that succeeds does. -/
theorem Managed.unsubscribe_ok (h : k.unsubscribe c group = (.ok, k')) :
    k.db.lists (.processing c) = [] ∧ k'.consumers = k.consumers.filter (· ≠ c) ∧
      ∀ c' g, c' ∈ k'.members g ↔ c' ∈ k.members g ∧ ¬ (c' = c ∧ group = some g) := by
  unfold Managed.unsubscribe at h
  split_ifs at h with hq hempty
  · cases h
  · cases h
  cases h
  refine ⟨not_not.1 hempty, rfl, fun c' g => ?_⟩
  cases group with
  | none => simp
  | some g' =>
    by_cases hg : g = g'
    · subst hg
      simp
    · simp [Function.update_of_ne hg, Ne.symm hg]

theorem RegistryStep.of_step (h : r.step a = some r') :
    RegistryStep r a r'.queue r'.subscribed := by
  cases a with
  | prepare c group =>
    change r.prepare c group = some r' at h
    unfold Registry.prepare at h
    split at h
    · cases h
    · cases h
      exact .idle
    · obtain ⟨k, hstep, rfl⟩ := Option.map_eq_some_iff.1 h
      exact .group hstep
  | start hd ready =>
    obtain ⟨-, h⟩ := Option.ite_none_right_eq_some.1 h
    split at h
    · rename_i k hreply
      cases h
      exact .subscribed hreply
    · rename_i reply k hne hreply
      cases h
      have hk : k = r.queue := Managed.subscribe_refused hreply hne
      exact hk ▸ .idle
  | pop hd =>
    obtain ⟨-, h⟩ := Option.ite_none_right_eq_some.1 h
    obtain ⟨k, hstep, rfl⟩ := Option.map_eq_some_iff.1 h
    exact .popped hstep
  | stop hd =>
    obtain ⟨-, h⟩ := Option.ite_none_right_eq_some.1 h
    split at h
    · rename_i k hreply
      cases h
      exact .unsubscribed hreply
    · rename_i reply k hne hreply
      cases h
      have hk : k = r.queue := Managed.unsubscribe_refused hreply hne
      exact hk ▸ .idle
  | halt hd =>
    obtain ⟨-, h⟩ := Option.ite_none_right_eq_some.1 h
    cases h
    exact .idle
  | crash c =>
    obtain ⟨k, hstep, rfl⟩ := Option.map_eq_some_iff.1 h
    exact .crashed hstep
  | evict c group =>
    change r.evict c group = some r' at h
    unfold Registry.evict at h
    split at h
    · rename_i k hreply
      cases h
      exact .evicted hreply
    · rename_i reply k hne hreply
      cases h
      have hk : k = r.queue := Managed.unsubscribe_refused hreply hne
      exact hk ▸ .idle
  | queue a =>
    obtain ⟨ha, h⟩ := Option.ite_none_right_eq_some.1 h
    obtain ⟨k, hstep, rfl⟩ := Option.map_eq_some_iff.1 h
    exact .queue ha hstep

/-- The queue takes a step of its own, or none. -/
theorem RegistryStep.queue_step {hs : List Handler} (h : RegistryStep r a k hs) :
    k = r.queue ∨ ∃ b, r.queue.step b = some k := by
  cases h with
  | idle => exact .inl rfl
  | group hstep | popped hstep | crashed hstep | queue _ hstep => exact .inr ⟨_, hstep⟩
  | @subscribed hd ready k hreply =>
    exact .inr ⟨.subscribe hd.consumer hd.group, by rw [Managed.step, hreply]⟩
  | @unsubscribed hd k hreply =>
    exact .inr ⟨.unsubscribe hd.consumer hd.group, by rw [Managed.step, hreply]⟩
  | @evicted c group k hreply => exact .inr ⟨.unsubscribe c group, by rw [Managed.step, hreply]⟩

/-- The queue of a registry is where a run of its own leads. -/
theorem Registry.reaches {cfg : Config} {type : QueueType} {model : DeliveryModel}
    {groups : List GroupId} {now : Nanos} {as : List RegistryAction}
    (hrun : (Registry.created cfg type model groups now).Runs as r) :
    ∃ bs, (Managed.created cfg type model groups now).Runs bs r.queue := by
  refine Run.invariant (P := fun r : Registry =>
    ∃ bs, (Managed.created cfg type model groups now).Runs bs r.queue) ?_ ?_ hrun
  · intro r a r' ⟨bs, hbs⟩ hstep
    rcases (RegistryStep.of_step hstep).queue_step with heq | ⟨b, hb⟩
    · exact ⟨bs, heq ▸ hbs⟩
    · exact ⟨bs ++ [b], Run.exec_snoc hbs hb⟩
  · exact ⟨[], rfl⟩

end Steps

end RedisSmq
