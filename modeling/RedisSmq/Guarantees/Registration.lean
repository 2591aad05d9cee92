import RedisSmq.Consumers.Registry
import RedisSmq.System.Holding
import RedisSmq.System.Conduct

/-!
# Who is registered

A consumer should be in the hash of the consumers exactly while one of its handlers is
subscribed, and in the set of a group exactly while its handler for that group is. Then a
consumer that holds messages is registered, and the reaper finds it if it dies.

Subscribing does nothing if the consumer is registered already, whatever the group, and
unsubscribing takes the consumer out of the hash whatever its other handlers do. So this
holds as long as a consumer has one handler at a time on the queue, and as long as no pop
of a handler is carried out after it has unsubscribed.
-/

namespace RedisSmq

/-- The hash of the consumers and the sets of the groups tell which handlers are subscribed. -/
structure Managed.Registers (k : Managed) (subscribed : List Handler) : Prop where
  registered : ∀ c, c ∈ k.consumers ↔ ∃ h ∈ subscribed, h.consumer = c
  member : ∀ c g, c ∈ k.members g ↔ ⟨c, some g⟩ ∈ subscribed
  holding : ∀ c, k.db.lists (.processing c) ≠ [] → c ∈ k.consumers

namespace Registry

/-- No other handler of the consumer is subscribed. -/
def Alone (r : Registry) (h : Handler) : Prop :=
  ∀ h' ∈ r.subscribed, h'.consumer = h.consumer → h' = h

/-- The condition on an action. -/
def Orderly (r : Registry) : RegistryAction → Prop
  | .start h _ | .stop h => r.Alone h
  | .pop h => ∃ h' ∈ r.subscribed, h'.consumer = h.consumer
  | .evict c group => ∀ h ∈ r.subscribed, h.consumer = c → h.group = group
  | .queue (.deleteQueue _ _ _) => r.subscribed = []
  | _ => True

instance decidableAlone (r : Registry) (h : Handler) : Decidable (r.Alone h) :=
  inferInstanceAs (Decidable (∀ h' ∈ r.subscribed, h'.consumer = h.consumer → h' = h))

instance decidableOrderly (r : Registry) : ∀ a, Decidable (r.Orderly a)
  | .start h _ | .stop h => r.decidableAlone h
  | .pop h => inferInstanceAs (Decidable (∃ h' ∈ r.subscribed, h'.consumer = h.consumer))
  | .evict c group =>
      inferInstanceAs (Decidable (∀ h ∈ r.subscribed, h.consumer = c → h.group = group))
  | .queue (.deleteQueue _ _ _) => inferInstanceAs (Decidable (r.subscribed = []))
  | .prepare _ _ | .halt _ | .crash _ => isTrue trivial
  | .queue (.queue _) | .queue (.setRateLimit _) | .queue .clearRateLimit
  | .queue (.checkRateLimit _) | .queue .expireRateCounter | .queue (.deleteGroup _ _)
  | .queue (.subscribe _ _) | .queue (.unsubscribe _ _) | .queue (.beat _) | .queue (.lapse _)
  | .queue (.bind _) => isTrue trivial

end Registry

/-- The actions that change who is registered. -/
def ManagedAction.isRegistration : ManagedAction → Bool
  | .subscribe _ _ | .unsubscribe _ _ | .deleteQueue _ _ _ => true
  | _ => false

section Queue

variable {type : QueueType} {k k' : Managed} {a : ManagedAction}

namespace Managed

theorem step_registration (h : k.step a = some k') (ha : a.isRegistration = false) :
    k'.consumers = k.consumers ∧ k'.members = k.members := by
  cases a with
  | queue a =>
    obtain ⟨-, h⟩ := Option.ite_none_right_eq_some.1 h
    obtain ⟨sys, -, rfl⟩ := Option.map_eq_some_iff.1 h
    exact ⟨rfl, rfl⟩
  | setRateLimit limit =>
    cases h
    unfold setRateLimit
    split
    · exact ⟨rfl, rfl⟩
    · split <;> exact ⟨rfl, rfl⟩
  | clearRateLimit =>
    cases h
    unfold clearRateLimit
    split
    · exact ⟨rfl, rfl⟩
    · split <;> exact ⟨rfl, rfl⟩
  | deleteGroup deleter g =>
    cases h
    rcases k.deleteConsumerGroup_effect OperationalState.locked.string none g (deleter.keys g)
      with ⟨-, heq⟩ | ⟨hadmits, heq⟩
    · rw [heq]
      exact ⟨rfl, rfl⟩
    -- a group is deleted only if it has no members
    rw [heq]
    exact ⟨rfl, Function.update_eq_self_iff.2 hadmits.2.2.1.symm⟩
  | deleteQueue | subscribe | unsubscribe => cases ha
  | checkRateLimit | expireRateCounter | beat | lapse | bind =>
    cases h
    exact ⟨rfl, rfl⟩

end Managed

theorem deleteConsumerGroup_processing (g : GroupId) (keys : Option GroupId) (db : Keyspace)
    (c : ConsumerId) :
    (deleteConsumerGroup g keys db).2.lists (.processing c) = db.lists (.processing c) := by
  unfold deleteConsumerGroup
  cases db.queueType? with
  | none => rfl
  | some type => cases type <;> dsimp only <;> split <;> rfl

/-- A processing list that an action fills belongs to a consumer that pops. -/
theorem SysStep.nonempty {sys : System} (h : SysStep k a sys)
    (hs : k.db.queue.isSome = true → Sane type k.sys) {c : ConsumerId}
    (hne : sys.db.lists (.processing c) ≠ []) :
    k.db.lists (.processing c) ≠ [] ∨ ∃ group, a = .queue (.pop c group) := by
  cases h with
  | same => exact .inl hne
  | queue hq hstep =>
    have hmove := HoldMove.of_step (Step.of_step hstep) (hs hq)
    rcases hmove.nonempty hne with hbefore | ⟨group, rfl⟩
    · exact .inl hbefore
    · exact .inr ⟨group, rfl⟩
  | deleteGroup => exact .inl (deleteConsumerGroup_processing _ _ k.db c ▸ hne)
  | deleteQueue =>
    refine .inl fun hnil => hne ?_
    exact ite_eq_left_iff.2 fun _ => hnil

end Queue

section Steps

variable {r : Registry} {a : RegistryAction} {k : Managed} {hs : List Handler}

namespace Managed.Registers

section

variable (hr : r.queue.Registers r.subscribed)

include hr

theorem subscribe {h : Handler} (halone : r.Alone h)
    (hreply : r.queue.subscribe h.consumer h.group = (.ok, k)) :
    k.Registers (h :: r.subscribed.filter (· ≠ h)) := by
  have hsys : k.sys = r.queue.sys := by
    have hsame := r.queue.subscribe_sys h.consumer h.group
    rwa [hreply] at hsame
  have hmem : ∀ h', h' ∈ h :: r.subscribed.filter (· ≠ h) ↔ h' = h ∨ h' ∈ r.subscribed := by
    intro h'
    by_cases heq : h' = h <;> simp [heq]
  rcases Managed.subscribe_ok hreply with ⟨hreg, rfl⟩ | ⟨hreg, hconsumers, hmembers⟩
  · -- the consumer is registered, so that the handler itself is the one that is subscribed
    obtain ⟨h', hsub, hc⟩ := (hr.registered _).1 hreg
    obtain rfl := halone h' hsub hc
    have hsame : ∀ h, h ∈ h' :: r.subscribed.filter (· ≠ h') ↔ h ∈ r.subscribed := by
      intro h
      rw [hmem, or_iff_right_of_imp (fun heq => heq ▸ hsub)]
    refine ⟨fun c => ?_, fun c g => ?_, hr.holding⟩
    · simp only [hr.registered, hsame]
    · rw [hr.member, hsame]
  · refine ⟨fun c => ?_, fun c g => ?_, fun c hne => ?_⟩
    · rw [hconsumers, List.mem_cons, hr.registered]
      simp only [hmem, or_and_right, exists_or, exists_eq_left, eq_comm (a := c)]
    · rw [hmembers, hr.member, hmem]
      refine or_congr ⟨?_, ?_⟩ Iff.rfl
      · rintro ⟨rfl, hg⟩
        rw [← hg]
      · rintro rfl
        exact ⟨rfl, rfl⟩
    · rw [hconsumers]
      refine List.mem_cons_of_mem _ (hr.holding c ?_)
      rwa [Managed.db, hsys] at hne

/-- Unsubscribing takes out the only handler of a consumer. -/
theorem unsubscribe {c : ConsumerId} {group : Option GroupId} {p : Handler → Prop} [DecidablePred p]
    (hsole : ∀ h ∈ r.subscribed, p h ↔ h.consumer ≠ c)
    (hgroup : ∀ h ∈ r.subscribed, h.consumer = c → h.group = group)
    (hreply : r.queue.unsubscribe c group = (.ok, k)) : k.Registers (r.subscribed.filter p) := by
  have hsys : k.sys = r.queue.sys := by
    have hsame := r.queue.unsubscribe_sys c group
    rwa [hreply] at hsame
  obtain ⟨hempty, hconsumers, hmembers⟩ := Managed.unsubscribe_ok hreply
  have hmem : ∀ h, h ∈ r.subscribed.filter p ↔ h ∈ r.subscribed ∧ h.consumer ≠ c := by
    intro h
    rw [List.mem_filter, decide_eq_true_iff]
    exact and_congr_right (hsole h)
  refine ⟨fun c' => ?_, fun c' g => ?_, fun c' hne => ?_⟩
  · rw [hconsumers, List.mem_filter, decide_eq_true_iff, hr.registered]
    constructor
    · rintro ⟨⟨h, hsub, rfl⟩, hne⟩
      exact ⟨h, (hmem h).2 ⟨hsub, hne⟩, rfl⟩
    · rintro ⟨h, hsub, rfl⟩
      exact ⟨⟨h, ((hmem h).1 hsub).1, rfl⟩, ((hmem h).1 hsub).2⟩
  · rw [hmembers, hr.member, hmem]
    refine and_congr_right fun hsub => ⟨fun hnot hc => hnot ⟨hc, ?_⟩, fun hne hc => hne hc.1⟩
    exact (hgroup _ hsub hc).symm
  · rw [Managed.db, hsys] at hne
    rw [hconsumers, List.mem_filter, decide_eq_true_iff]
    refine ⟨hr.holding c' hne, fun hc => hne ?_⟩
    rw [hc]
    exact hempty

/-- An action on the queue that registers nobody, where only a registered consumer pops. -/
theorem step {type : QueueType} {b : ManagedAction}
    (hsane : r.queue.db.queue.isSome = true → Sane type r.queue.sys)
    (hb : b.isRegistration = false) (hstep : r.queue.step b = some k)
    (hpop : ∀ c group, b = .queue (.pop c group) → c ∈ r.queue.consumers) :
    k.Registers r.subscribed := by
  obtain ⟨hconsumers, hmembers⟩ := Managed.step_registration hstep hb
  refine ⟨hconsumers.symm ▸ hr.registered, hmembers.symm ▸ hr.member, fun c hne => ?_⟩
  rw [hconsumers]
  rcases (SysStep.of_step hstep).nonempty hsane hne with hbefore | ⟨group, hb⟩
  · exact hr.holding c hbefore
  · exact hpop c group hb

theorem deleteQueue {consumers : List ConsumerId} {groups : List GroupId}
    {processing : List ConsumerId}
    (hnobody : r.subscribed = []) (hstep : r.queue.step (.deleteQueue consumers groups processing) =
      some k) : k.Registers r.subscribed := by
  obtain rfl := Option.some.inj hstep
  rcases r.queue.deleteQueue_effect (toString OperationalState.locked.int) none consumers groups
    processing with heq | ⟨-, -, heq⟩
  · rwa [heq]
  rw [heq]
  refine ⟨?_, hr.member, fun c hne => ?_⟩
  · simp [hnobody, Managed.withoutQueue]
  exfalso
  have hbefore := hr.holding c fun hnil => hne (ite_eq_left_iff.2 fun _ => hnil)
  rw [hr.registered, hnobody] at hbefore
  simp at hbefore

end

end Managed.Registers

/-- One action keeps the registrations right if it meets the condition. -/
theorem RegistryStep.registers (type : QueueType) (h : RegistryStep r a k hs)
    (hsane : r.queue.db.queue.isSome = true → Sane type r.queue.sys)
    (hr : r.queue.Registers r.subscribed) (hcond : r.Orderly a) : k.Registers hs := by
  cases h with
  | idle => exact hr
  | group hstep | crashed hstep =>
    refine hr.step hsane rfl hstep fun c group hb => ?_
    cases hb
  | subscribed hreply => exact hr.subscribe hcond hreply
  | @popped hd k hstep =>
    refine hr.step hsane rfl hstep fun c group hb => ?_
    cases hb
    exact (hr.registered _).2 hcond
  | @unsubscribed hd k hreply =>
    refine hr.unsubscribe (fun h' hsub => ?_) (fun h' hsub hc => ?_) hreply
    · exact ⟨fun hne hc => hne (hcond h' hsub hc), fun hne heq => hne (heq ▸ rfl)⟩
    · rw [hcond h' hsub hc]
  | evicted hreply => exact hr.unsubscribe (fun _ _ => Iff.rfl) hcond hreply
  | @queue b k hb hstep =>
    cases b with
    | subscribe | unsubscribe => cases hb
    | deleteQueue => exact hr.deleteQueue hcond hstep
    | queue act =>
      refine hr.step hsane rfl hstep fun c group heq => ?_
      cases heq
      cases hb
    | _ =>
      refine hr.step hsane rfl hstep fun c group heq => ?_
      cases heq

end Steps

/-- The registry is in order in every state of a run in which a consumer has one handler at a
time on the queue and pops only while it is subscribed. -/
theorem registers_of_orderly (cfg : Config) (type : QueueType) (model : DeliveryModel)
    (groups : List GroupId) (now : Nanos) (as : List RegistryAction) (r : Registry)
    (hcond : Run.Along Registry.step Registry.Orderly
      (Registry.created cfg type model groups now) as)
    (hrun : (Registry.created cfg type model groups now).Runs as r) :
    r.queue.Registers r.subscribed := by
  refine (Run.invariant_along (P := fun r : Registry => r.queue.Registers r.subscribed ∧
    ∃ bs, (Managed.created cfg type model groups now).Runs bs r.queue) ?_ ?_ hcond hrun).1
  · rintro r a r' ⟨hr, bs, hbs⟩ hc hstep
    have hmove := RegistryStep.of_step hstep
    refine ⟨hmove.registers type (fun hq => ?_) hr hc, ?_⟩
    · obtain ⟨acts, hacts⟩ := Managed.reaches hbs hq
      exact (uniform_of_runs hacts).1
    · rcases hmove.queue_step with heq | ⟨b, hb⟩
      · exact ⟨bs, heq ▸ hbs⟩
      · exact ⟨bs ++ [b], Run.exec_snoc hbs hb⟩
  · refine ⟨⟨fun c => ?_, fun c g => ?_, fun c hne => absurd rfl hne⟩, [], rfl⟩ <;>
      simp [Registry.created, Managed.created]

/-- A consumer starts handlers for two groups. -/
def twoHandlers : List RegistryAction :=
  [.prepare 1 (some 2), .start ⟨1, some 2⟩ true, .prepare 1 (some 4), .start ⟨1, some 4⟩ true]

/-- With handlers for two groups, the consumer is a member of the first group only. Once the
first handler is shut down it is not registered at all, and the second one pops. -/
theorem twoHandlers_unregistered :
    (Run.exec Registry.step (Registry.created {} .fifo .pubSub [] 0)
      (twoHandlers ++ [.stop ⟨1, some 2⟩, .queue (.queue (.produce promptMessage (some 4))),
        .pop ⟨1, some 4⟩])).map
      (fun r => (r.subscribed, r.queue.consumers, r.queue.members 4,
        r.queue.db.lists (.processing 1))) =
      some ([⟨1, some 4⟩], [], [], [0]) := by
  decide

theorem registers_of_orderly_oneHandler :
    ∃ r, (Registry.created {} .fifo .pubSub [] 0).Runs
        [.prepare 1 none, .start ⟨1, some 3⟩ true,
          .queue (.queue (.produce promptMessage (some 3))), .pop ⟨1, some 3⟩] r ∧
      r.queue.db.lists (.processing 1) ≠ [] ∧ r.queue.Registers r.subscribed := by
  have hsome : ((Run.exec Registry.step (Registry.created {} .fifo .pubSub [] 0)
      [.prepare 1 none, .start ⟨1, some 3⟩ true,
        .queue (.queue (.produce promptMessage (some 3))), .pop ⟨1, some 3⟩]).map
      fun r => r.queue.db.lists (.processing 1)) = some [0] := by decide
  obtain ⟨r, hr, hheld⟩ := Option.map_eq_some_iff.1 hsome
  refine ⟨r, hr, by simp [hheld], registers_of_orderly {} .fifo .pubSub [] 0 _ r ?_ hr⟩
  decide

end RedisSmq
