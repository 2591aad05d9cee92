import RedisSmq.Admin.Managed

/-!
# The steps of a managed queue

What the actions on a managed queue do to the system of its messages. As long as the queue
is not deleted, that system is where a run of its own leads, so that what holds of every
reachable state of it holds here too.
-/

namespace RedisSmq

section Scripts

variable (k : Managed) (locked : String) (lock : Option LockId)

namespace Managed

theorem setRateLimit_sys (limit : Option RateLimitParams) :
    (k.setRateLimit limit locked lock).2.sys = k.sys := by
  unfold setRateLimit
  split
  · rfl
  · split <;> rfl

theorem clearRateLimit_sys : (k.clearRateLimit locked lock).2.sys = k.sys := by
  unfold clearRateLimit
  split
  · rfl
  · split <;> rfl

theorem subscribe_sys (c : ConsumerId) (group : Option GroupId) :
    (k.subscribe c group).2.sys = k.sys := by
  unfold subscribe
  split
  · rfl
  split
  · rfl
  · split <;> rfl

theorem unsubscribe_sys (c : ConsumerId) (group : Option GroupId) :
    (k.unsubscribe c group).2.sys = k.sys := by
  unfold unsubscribe
  split
  · rfl
  · split <;> rfl

/-- What the script that deletes a group asks for. -/
def AdmitsGroupDeletion (g : GroupId) (keys : Option GroupId) : Prop :=
  k.db.checkLock locked lock = none ∧ k.deliveryModel = .pubSub ∧ k.members g = [] ∧
    (RedisSmq.deleteConsumerGroup g keys k.db).1 = .ok ()

/-- A group is deleted, together with its membership, or nothing happens. -/
theorem deleteConsumerGroup_effect (g : GroupId) (keys : Option GroupId) :
    ¬ k.AdmitsGroupDeletion locked lock g keys ∧
        (k.deleteConsumerGroup g keys locked lock).2 = k ∨
      k.AdmitsGroupDeletion locked lock g keys ∧
        (k.deleteConsumerGroup g keys locked lock).2 =
          { k.setDb (RedisSmq.deleteConsumerGroup g keys k.db).2 with
            members := Function.update k.members g [] } := by
  unfold deleteConsumerGroup
  split
  · rename_i htype
    refine .inl ⟨fun h => ?_, rfl⟩
    have hok := h.2.2.2
    rw [RedisSmq.deleteConsumerGroup, Option.isNone_iff_eq_none.1 htype] at hok
    cases hok
  · split
    · rename_i reply hcheck
      exact .inl ⟨fun h => (nomatch hcheck.symm.trans h.1), rfl⟩
    rename_i hcheck
    split
    · rename_i hmodel
      exact .inl ⟨fun h => hmodel h.2.1, rfl⟩
    rename_i hmodel
    split
    · rename_i hmembers
      exact .inl ⟨fun h => hmembers h.2.2.1, rfl⟩
    rename_i hmembers
    split
    · rename_i hdel
      exact .inl ⟨fun h => (nomatch (congrArg Prod.fst hdel).symm.trans h.2.2.2), rfl⟩
    · rename_i hdel
      exact .inr ⟨⟨hcheck, not_not.1 hmodel, not_not.1 hmembers, by rw [hdel]⟩, by rw [hdel]⟩

/-- A queue is deleted only if the lock is passed and no message is counted. -/
theorem deleteQueue_effect (consumers : List ConsumerId) (groups : List GroupId)
    (processing : List ConsumerId) :
    (k.deleteQueue consumers groups processing locked lock).2 = k ∨
      k.db.checkLock locked lock = none ∧ k.db.counter .messages = 0 ∧
        (k.deleteQueue consumers groups processing locked lock).2 =
          k.withoutQueue groups processing := by
  unfold deleteQueue
  split
  · exact .inl rfl
  split
  · exact .inl rfl
  rename_i hcheck
  split
  · exact .inl rfl
  rename_i hcount
  split
  · exact .inl rfl
  split
  · exact .inl rfl
  split
  · exact .inl rfl
  · exact .inr ⟨hcheck, not_not.1 hcount, rfl⟩

/-- A check that refuses an operation. -/
theorem refused_iff {c : Prop} [Decidable c] {reply : ManageReply} (hreply : reply ≠ .ok)
    (next : ManageReply × Managed) :
    (if c then (reply, k) else next).1 = .ok ↔ ¬ c ∧ next.1 = .ok := by
  by_cases hc : c
  · simp [hc, hreply]
  · simp [hc]

/-- When a queue is deleted by a caller who presents no lock identifier. -/
theorem deleteQueue_eq_ok_iff (consumers : List ConsumerId) (groups : List GroupId)
    (processing : List ConsumerId) :
    (k.deleteQueue consumers groups processing locked none).1 = .ok ↔
      k.db.queue.isSome = true ∧ k.db.storedState ≠ some locked ∧
        k.db.counter .messages = 0 ∧ k.bindings = 0 ∧
          (consumers.length = k.consumers.length ∧ ∀ c ∈ consumers, c ∈ k.consumers) ∧
            ∀ c ∈ consumers, c ∉ k.heartbeats := by
  unfold deleteQueue Keyspace.checkLock
  rw [refused_iff k (by decide)]
  refine and_congr (by simp [Option.isSome_iff_ne_none]) ?_
  by_cases hlocked : k.db.storedState = some locked
  · simp [hlocked]
  rw [if_neg hlocked]
  dsimp only
  rw [refused_iff k (by decide), refused_iff k (by decide), refused_iff k (by decide),
    refused_iff k (by decide)]
  simp only [hlocked, not_false_eq_true, ne_eq, true_and, not_not, Nat.not_lt,
    Nat.le_zero_eq, not_or, not_exists, not_and, and_true]

end Managed

end Scripts

theorem deleteConsumerGroup_queue (g : GroupId) (keys : Option GroupId) (db : Keyspace) :
    (deleteConsumerGroup g keys db).2.queue = db.queue := by
  unfold deleteConsumerGroup
  cases db.queueType? with
  | none => rfl
  | some type => cases type <;> dsimp only <;> split <;> rfl

theorem deleteConsumerGroup_ok {g : GroupId} {keys : Option GroupId} {db : Keyspace}
    (h : (deleteConsumerGroup g keys db).1 = .ok ()) :
    (deleteConsumerGroup g keys db).2 = db.withoutGroup g keys := by
  unfold deleteConsumerGroup at h ⊢
  cases htype : db.queueType? with
  | none =>
    rw [htype] at h
    cases h
  | some type =>
    rw [htype] at h
    cases type <;> dsimp only at h ⊢ <;> split_ifs at h ⊢ <;> rfl

/-- The text of the number of a state is never the name of the locked one. -/
theorem Keyspace.checkLock_name (db : Keyspace) (lock : Option LockId) :
    db.checkLock OperationalState.locked.string lock = none := by
  refine if_neg ?_
  rw [Keyspace.storedState]
  cases db.queue.bind QueueProps.state with
  | none => exact Option.some_ne_none _ ∘ Eq.symm
  | some state => cases state <;> decide

/-- The script looks at the container that a queue of the type uses. -/
theorem deleteConsumerGroup_ok_iff {type : QueueType} {db : Keyspace}
    (htype : db.queueType? = some type) (g : GroupId) (keys : Option GroupId) :
    (deleteConsumerGroup g keys db).1 = .ok () ↔ db.EmptyAt (pendingSlot type keys) := by
  unfold deleteConsumerGroup
  simp only [htype]
  cases type with
  | lifo | fifo =>
    by_cases h : db.lists (.pending keys) = [] <;> simp [h, pendingSlot, Keyspace.EmptyAt]
  | priority =>
    have hzset : (db.zsets (.priority keys)).entries = [] ↔
        db.zsets (.priority keys) = SortedSet.empty :=
      ⟨fun h => SortedSet.eq_of_entries h, fun h => congrArg SortedSet.entries h⟩
    by_cases h : (db.zsets (.priority keys)).entries = [] <;>
      simp [h, pendingSlot, Keyspace.EmptyAt, ← hzset]

namespace Managed

variable {type : QueueType} {k : Managed}

/-- The script, as the two callers call it. -/
def deleteGroupBy (k : Managed) (deleter : GroupDeleter) (g : GroupId) : ManageReply × Managed :=
  k.deleteConsumerGroup g (deleter.keys g) OperationalState.locked.string none

/-- A group is deleted if it has no members and the container that the caller passes is
empty; otherwise nothing happens. -/
theorem deleteGroupBy_cases (htype : k.db.queueType? = some type) (deleter : GroupDeleter)
    (g : GroupId) :
    (k.deliveryModel = .pubSub ∧ k.members g = [] ∧
        k.db.EmptyAt (pendingSlot type (deleter.keys g))) ∧
      k.deleteGroupBy deleter g = (.ok, k.setDb (k.db.withoutGroup g (deleter.keys g))) ∨
    ¬ (k.deliveryModel = .pubSub ∧ k.members g = [] ∧
        k.db.EmptyAt (pendingSlot type (deleter.keys g))) ∧
      (k.deleteGroupBy deleter g).1 ≠ .ok ∧ (k.deleteGroupBy deleter g).2 = k := by
  have hsome : ¬ k.db.queueType?.isNone = true := by simp [htype]
  rw [deleteGroupBy, deleteConsumerGroup, if_neg hsome, Keyspace.checkLock_name]
  dsimp only
  split_ifs with hmodel hmembers
  · exact .inr ⟨fun h => hmodel h.1, nofun, rfl⟩
  · exact .inr ⟨fun h => hmembers h.2.1, nofun, rfl⟩
  have hiff := deleteConsumerGroup_ok_iff htype g (deleter.keys g)
  split
  · rename_i heq
    refine .inr ⟨fun h => ?_, nofun, rfl⟩
    cases (congrArg Prod.fst heq).symm.trans (hiff.2 h.2.2)
  · rename_i db heq
    have hok := congrArg Prod.fst heq
    refine .inl ⟨⟨not_not.1 hmodel, not_not.1 hmembers, hiff.1 hok⟩, ?_⟩
    have hdb : db = k.db.withoutGroup g (deleter.keys g) := by
      rw [← deleteConsumerGroup_ok hok, heq]
    have hupdate : Function.update k.members g [] = k.members :=
      Function.update_eq_self_iff.2 (not_not.1 hmembers).symm
    rw [hdb, hupdate]
    rfl

end Managed

/-- How an action changes the system of the messages. -/
inductive SysStep (k : Managed) : ManagedAction → System → Prop
  | same {a : ManagedAction} : SysStep k a k.sys
  | queue {a : Action} {sys : System} (hq : k.db.queue.isSome)
      (hstep : k.sys.step a = some sys) : SysStep k (.queue a) sys
  | deleteGroup {deleter : GroupDeleter} {g : GroupId} :
      SysStep k (.deleteGroup deleter g)
        { k.sys with db := (deleteConsumerGroup g (deleter.keys g) k.db).2 }
  | deleteQueue {consumers : List ConsumerId} {groups : List GroupId}
      {processing : List ConsumerId} :
      SysStep k (.deleteQueue consumers groups processing) (k.withoutQueue groups processing).sys

section Projection

variable {k k' : Managed} {a : ManagedAction}

theorem SysStep.of_step (h : k.step a = some k') : SysStep k a k'.sys := by
  have hsame : ∀ {k' : Managed} {a : ManagedAction}, k'.sys = k.sys → SysStep k a k'.sys := by
    intro k' a heq
    exact heq.symm ▸ .same
  cases a with
  | queue a =>
    obtain ⟨⟨hq, -⟩, h⟩ := Option.ite_none_right_eq_some.1 h
    obtain ⟨sys, hstep, rfl⟩ := Option.map_eq_some_iff.1 h
    exact .queue hq hstep
  | setRateLimit limit =>
    cases h
    exact hsame (k.setRateLimit_sys _ _ limit)
  | clearRateLimit =>
    cases h
    exact hsame (k.clearRateLimit_sys _ _)
  | deleteGroup deleter g =>
    cases h
    rcases k.deleteConsumerGroup_effect OperationalState.locked.string none g (deleter.keys g)
      with ⟨-, heq⟩ | ⟨-, heq⟩
    · exact hsame (congrArg Managed.sys heq)
    · rw [heq]
      exact .deleteGroup
  | deleteQueue consumers groups processing =>
    cases h
    rcases k.deleteQueue_effect (toString OperationalState.locked.int) none consumers groups
      processing with heq | ⟨-, -, heq⟩
    · exact hsame (congrArg Managed.sys heq)
    · rw [heq]
      exact .deleteQueue
  | subscribe c group =>
    cases h
    exact hsame (k.subscribe_sys c group)
  | unsubscribe c group =>
    cases h
    exact hsame (k.unsubscribe_sys c group)
  | checkRateLimit | expireRateCounter | beat | lapse | bind =>
    cases h
    exact .same

theorem SysStep.queue_of_isSome {sys : System} (h : SysStep k a sys)
    (hq : sys.db.queue.isSome = true) : k.db.queue.isSome = true := by
  cases h with
  | same => exact hq
  | queue hsome => exact hsome
  | deleteGroup =>
    rw [← deleteConsumerGroup_queue]
    exact hq
  | deleteQueue => cases hq

/-- Where the system of the messages is as long as the queue exists. -/
theorem Managed.reaches {cfg : Config} {type : QueueType} {model : DeliveryModel}
    {groups : List GroupId} {now : Nanos} {as : List ManagedAction}
    (hrun : (Managed.created cfg type model groups now).Runs as k) (hq : k.db.queue.isSome = true) :
    ∃ bs, (System.created cfg type groups now).Runs bs k.sys := by
  refine Run.invariant (P := fun k : Managed => k.db.queue.isSome = true →
    ∃ bs, (System.created cfg type groups now).Runs bs k.sys) ?_ ?_ hrun hq
  · intro k a k' ih hstep hq
    have hsys := SysStep.of_step hstep
    obtain ⟨bs, hbs⟩ := ih (hsys.queue_of_isSome hq)
    change k'.sys.db.queue.isSome = true at hq
    generalize k'.sys = sys at hsys hq ⊢
    cases hsys with
    | same => exact ⟨bs, hbs⟩
    | queue _ hstep => exact ⟨_, Run.exec_snoc hbs hstep⟩
    | @deleteGroup deleter g =>
      exact ⟨bs ++ [.deleteGroup g (deleter.keys g)], Run.exec_snoc hbs rfl⟩
    | deleteQueue => cases hq
  · exact fun _ => ⟨[], rfl⟩

end Projection

end RedisSmq
