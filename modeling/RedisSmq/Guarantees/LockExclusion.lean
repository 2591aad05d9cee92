import RedisSmq.Guarantees.Freezing
import RedisSmq.Moves.Processing

/-!
# What a lock keeps out

While a queue is locked, an operation that does not present the lock identifier should
change none of its messages, containers and counters, nor its rate limit or its groups.
The scripts of messages keep to this, but for the pop at the start of `Dequeue`, which asks
for nothing. The scripts of the rate limit and of the groups would, but their callers pass
the name of the locked state where the script compares with its number, so that the check
never applies. The deletion of the queue passes the number.
-/

namespace RedisSmq

def Action.isPop : Action → Bool
  | .pop _ _ => true
  | _ => false

namespace ManagedAction

/-- The lock identifier that the operation presents. -/
def lock : ManagedAction → Option LockId
  | .queue (.delete _ lock _) => lock
  | _ => none

/-- The lock is not meant to keep out the creation of groups, and it cannot keep Redis
from dropping keys whose time is over. -/
def isExcluded : ManagedAction → Bool
  | .queue (.saveGroup _) | .queue (.expire _) | .expireRateCounter => false
  | _ => true

end ManagedAction

namespace Managed

/-- The two states agree on what a lock protects. -/
structure SameContents (k k' : Managed) : Prop where
  books : SameBooks k.db k'.db
  containers : SameContainers k.db k'.db
  rateLimit : k'.rateLimit = k.rateLimit
  rateCounter : k'.rateCounter = k.rateCounter
  groups : k'.db.groups = k.db.groups

/-- The operation changes what it works on without asking for the lock. -/
def PassesLock (k : Managed) : ManagedAction → Prop
  | .queue a => a.isPop = true
  | .checkRateLimit _ => True
  | .setRateLimit limit => limit ≠ k.rateLimit
  | .clearRateLimit => k.rateLimit ≠ none ∨ k.rateCounter ≠ none
  | .deleteGroup deleter g =>
      g ∈ k.db.groups ∧ k.deliveryModel = .pubSub ∧ k.members g = [] ∧
        (RedisSmq.deleteConsumerGroup g (deleter.keys g) k.db).1 = .ok ()
  | _ => False

end Managed

section Lock

variable {db : Keyspace} {lock : LockId}

namespace Keyspace.LockedWith

section

variable (h : db.LockedWith lock)

include h

theorem refusal : stateRefusal db.operationalState = some .queueLocked := by
  rw [h.1]
  rfl

theorem queue_isSome : db.queue.isSome = true := by
  obtain ⟨q, hq, -⟩ := Option.bind_eq_some_iff.1 h.2
  rw [hq]
  rfl

theorem storedState_eq : db.storedState = some "3" := by
  have hlocked := h.1
  rw [Keyspace.operationalState] at hlocked
  rw [Keyspace.storedState]
  cases hstate : db.queue.bind QueueProps.state with
  | none =>
    rw [hstate] at hlocked
    cases hlocked
  | some state =>
    rw [hstate] at hlocked
    cases (hlocked : state = .locked)
    decide

/-- Passed the number of the locked state, it refuses what presents no lock identifier. -/
theorem checkLock_int :
    db.checkLock (toString OperationalState.locked.int) none = some .queueLocked := by
  rw [Keyspace.checkLock, h.storedState_eq, if_pos (by decide), if_pos rfl]

theorem lockMatches_iff {presented : Option LockId} :
    db.lockMatches presented = true ↔ presented = some lock := by
  cases presented with
  | none => simp [Keyspace.lockMatches]
  | some other => simp [Keyspace.lockMatches, h.2, eq_comm]

end

end Keyspace.LockedWith

end Lock

namespace Managed

variable {type : QueueType} {k k' : Managed} {lock : LockId}

theorem SameContents.refl (k : Managed) : SameContents k k :=
  ⟨.refl _, ⟨rfl, rfl⟩, rfl, rfl, rfl⟩

theorem not_sameContents_of_pop {a : Action} {sys : System} (ha : a.isPop = true)
    (hstep : k.sys.step a = some sys) : ¬ SameContents k { k with sys := sys } := by
  intro h
  cases a with
  | pop c group =>
    have hlists := h.containers.lists
    cases Step.of_step hstep with
    | task _ hgo => cases hgo
    | pop _ _ hpop =>
      have hlist := (congrFun hlists (.processing c)).symm.trans (pop_processing hpop c)
      rw [if_pos rfl] at hlist
      exact List.cons_ne_self _ _ hlist.symm
  | _ => cases ha

/-- The steps of the system of the messages that present no valid lock identifier. -/
theorem sameContents_queue_iff {a : Action} {sys : System} (hs : Sane type k.sys)
    (hlocked : k.db.LockedWith lock) (hgroup : a.isDeleteGroup = false)
    (hexcl : (ManagedAction.queue a).isExcluded = true)
    (hlock : (ManagedAction.queue a).lock ≠ some lock) (hstep : k.sys.step a = some sys) :
    SameContents k { k with sys := sys } ↔ ¬ a.isPop = true := by
  refine ⟨fun h ha => not_sameContents_of_pop ha hstep h, fun ha => ?_⟩
  have hclosed := (Step.of_step hstep).closed hs hlocked.refusal
  have hdb : SameBooks k.sys.db sys.db ∧ SameContainers k.sys.db sys.db ∧
      sys.db.groups = k.sys.db.groups := by
    generalize sys.db = db' at hclosed
    cases hclosed with
    | same => exact ⟨.refl _, ⟨rfl, rfl⟩, rfl⟩
    | pop => cases ha rfl
    | delete hmatch =>
      exact absurd (hlocked.lockMatches_iff.1 (hmatch hlocked.1)) hlock
    | @setState newState expected lock =>
      refine ⟨setQueueState_books _ _ _ _, .of_setQueueState _ _ _ _, ?_⟩
      rcases setQueueState_cases newState expected lock k.sys.db with h | ⟨q, lockId, -, h⟩ <;>
        rw [h]
    | saveGroup => cases hexcl
    | deleteGroup => cases hgroup
    | expire => cases hexcl
  exact ⟨hdb.1, hdb.2.1, rfl, rfl, hdb.2.2⟩

/-- The deletion of a group goes through on a locked queue as on any other. -/
theorem sameContents_deleteGroup_iff {deleter : GroupDeleter} {g : GroupId}
    (hs : Sane type k.sys) (huni : k.sys.db.Uniform type)
    (hstep : k.step (.deleteGroup deleter g) = some k') :
    SameContents k k' ↔ ¬ k.PassesLock (.deleteGroup deleter g) := by
  obtain rfl := Option.some.inj hstep
  rcases k.deleteConsumerGroup_effect OperationalState.locked.string none g (deleter.keys g) with
    ⟨hrefused, heq⟩ | ⟨hadmits, heq⟩
  · rw [heq]
    exact iff_of_true (.refl k) fun h => hrefused ⟨Keyspace.checkLock_name _ _, h.2⟩
  have hgroups : (RedisSmq.deleteConsumerGroup g (deleter.keys g) k.db).2.groups =
      k.db.groups.filter (· ≠ g) :=
    congrArg Keyspace.groups (deleteConsumerGroup_ok hadmits.2.2.2)
  have hiff : k.PassesLock (.deleteGroup deleter g) ↔ g ∈ k.db.groups :=
    and_iff_left hadmits.2
  rw [heq, hiff]
  constructor
  · intro h hmem
    have hfilter : k.db.groups.filter (· ≠ g) = k.db.groups := hgroups.symm.trans h.groups
    exact absurd rfl (of_decide_eq_true (List.filter_eq_self.1 hfilter g hmem))
  · intro hmem
    refine ⟨deleteConsumerGroup_books hs.type_eq _ _, .of_deleteConsumerGroup huni hs.type_eq _ _,
      rfl, rfl, hgroups.trans (List.filter_eq_self.2 fun x hx => ?_)⟩
    exact decide_eq_true fun hxg => hmem (hxg ▸ hx)

theorem sameContents_deleteQueue {consumers : List ConsumerId} {groups : List GroupId}
    {processing : List ConsumerId} (hlocked : k.db.LockedWith lock)
    (hstep : k.step (.deleteQueue consumers groups processing) = some k') : SameContents k k' := by
  cases hstep
  rcases k.deleteQueue_effect (toString OperationalState.locked.int) none consumers groups
    processing with heq | ⟨hcheck, -⟩
  · rw [heq]
    exact .refl k
  · cases hcheck.symm.trans hlocked.checkLock_int

theorem setRateLimit_locked (hlocked : k.db.LockedWith lock) (limit : Option RateLimitParams) :
    k.setRateLimit limit OperationalState.locked.string none =
      (.ok, { k with rateLimit := limit }) := by
  have hq : k.db.queue.isNone = false := by simpa using hlocked.queue_isSome
  simp [setRateLimit, hq, Keyspace.checkLock_name]

theorem clearRateLimit_locked (hlocked : k.db.LockedWith lock) :
    k.clearRateLimit OperationalState.locked.string none =
      (.ok, { k with rateLimit := none, rateCounter := none }) := by
  have hq : k.db.queue.isNone = false := by simpa using hlocked.queue_isSome
  simp [clearRateLimit, hq, Keyspace.checkLock_name]

theorem subscribe_sameContents (k : Managed) (c : ConsumerId) (group : Option GroupId) :
    SameContents k (k.subscribe c group).2 := by
  unfold subscribe
  split
  · exact .refl k
  split
  · exact .refl k
  split
  · exact .refl k
  · exact ⟨.refl _, ⟨rfl, rfl⟩, rfl, rfl, rfl⟩

theorem unsubscribe_sameContents (k : Managed) (c : ConsumerId) (group : Option GroupId) :
    SameContents k (k.unsubscribe c group).2 := by
  unfold unsubscribe
  split
  · exact .refl k
  split
  · exact .refl k
  · exact ⟨.refl _, ⟨rfl, rfl⟩, rfl, rfl, rfl⟩

/-- Every check counts, so that the counter is never what it was. -/
theorem checkRateLimit_counter (k : Managed) (limit : RateLimitParams) :
    (k.checkRateLimit limit).2.rateCounter ≠ k.rateCounter := by
  unfold checkRateLimit
  cases k.rateCounter with
  | none => exact Option.some_ne_none _
  | some n =>
    intro h
    have hn : n - 1 = n := Option.some.inj h
    omega

end Managed

/-- From every reachable state in which the queue is locked, an operation that does not
present the lock identifier leaves the messages, their containers, the counters, the rate
limit and the groups alone exactly if it is not one of those that do not ask for the lock
and have something to change. -/
theorem lock_excludes_iff (cfg : Config) (type : QueueType) (model : DeliveryModel)
    (groups : List GroupId) (now : Nanos) (as : List ManagedAction) (k : Managed)
    (hrun : (Managed.created cfg type model groups now).Runs as k) (lock : LockId)
    (hlocked : k.db.LockedWith lock) (a : ManagedAction) (hexcl : a.isExcluded = true)
    (hlock : a.lock ≠ some lock) (k' : Managed) (hstep : k.step a = some k') :
    k.SameContents k' ↔ ¬ k.PassesLock a := by
  obtain ⟨bs, hbs⟩ := Managed.reaches hrun hlocked.queue_isSome
  obtain ⟨hs, huni⟩ := uniform_of_runs hbs
  cases a with
  | queue a =>
      obtain ⟨⟨-, hgroup⟩, hmap⟩ := Option.ite_none_right_eq_some.1 hstep
      obtain ⟨sys, hsys, rfl⟩ := Option.map_eq_some_iff.1 hmap
      exact Managed.sameContents_queue_iff hs hlocked hgroup hexcl hlock hsys
  | setRateLimit limit =>
      obtain rfl := Option.some.inj hstep
      rw [Managed.setRateLimit_locked hlocked]
      constructor
      · exact fun h hne => hne h.rateLimit
      · exact fun h => ⟨.refl _, ⟨rfl, rfl⟩, not_not.1 h, rfl, rfl⟩
  | clearRateLimit =>
      obtain rfl := Option.some.inj hstep
      rw [Managed.clearRateLimit_locked hlocked]
      constructor
      · intro h hne
        exact hne.elim (fun hne => hne h.rateLimit.symm) fun hne => hne h.rateCounter.symm
      · intro h
        obtain ⟨hlimit, hcounter⟩ := not_or.1 h
        exact ⟨.refl _, ⟨rfl, rfl⟩, (not_not.1 hlimit).symm, (not_not.1 hcounter).symm, rfl⟩
  | checkRateLimit limit =>
      obtain rfl := Option.some.inj hstep
      exact iff_of_false (fun h => k.checkRateLimit_counter limit h.rateCounter) fun h => h trivial
  | deleteGroup deleter g => exact Managed.sameContents_deleteGroup_iff hs huni hstep
  | deleteQueue consumers groups processing =>
      exact iff_of_true (Managed.sameContents_deleteQueue hlocked hstep) id
  | subscribe c group =>
      obtain rfl := Option.some.inj hstep
      exact iff_of_true (k.subscribe_sameContents c group) id
  | unsubscribe c group =>
      obtain rfl := Option.some.inj hstep
      exact iff_of_true (k.unsubscribe_sameContents c group) id
  | expireRateCounter => cases hexcl
  | beat | lapse | bind =>
      obtain rfl := Option.some.inj hstep
      exact iff_of_true ⟨.refl _, ⟨rfl, rfl⟩, rfl, rfl, rfl⟩ id

/-- A queue with a group and a pending message of it is locked. -/
def lockedWithGroups : List ManagedAction :=
  [.queue (.produce promptMessage (some 1)), .queue (.setState .locked none (some 5))]

/-- On a locked queue the rate limit is set and a group is deleted without the lock
identifier, while the deletion of the queue is refused. -/
theorem rateLimit_and_groups_pass_lock :
    (Run.exec Managed.step (Managed.created {} .fifo .pubSub [1, 2] 0) lockedWithGroups).map
      (fun k => (decide (k.db.LockedWith 5),
        ((k.step (.setRateLimit (some oncePerSecond))).map fun k' =>
          decide (k'.rateLimit = k.rateLimit)),
        ((k.step (.deleteGroup .manager 2)).map fun k' => k'.db.groups),
        (k.deleteQueue [] [1, 2] [] (toString OperationalState.locked.int) none).1)) =
      some (true, some false, some [1], .queueLocked) := by
  decide

theorem lock_excludes_iff_produce :
    ∃ k k', (Managed.created {} .fifo .pubSub [1, 2] 0).Runs lockedWithGroups k ∧
      k.step (.queue (.produce promptMessage none)) = some k' ∧ k.SameContents k' := by
  have hsome : ((Run.exec Managed.step (Managed.created {} .fifo .pubSub [1, 2] 0)
      lockedWithGroups).bind fun k =>
        (k.step (.queue (.produce promptMessage none))).map fun _ =>
          decide (k.db.LockedWith 5)) = some true := by decide
  obtain ⟨k, hk, hrest⟩ := Option.bind_eq_some_iff.1 hsome
  obtain ⟨k', hk', hlocked⟩ := Option.map_eq_some_iff.1 hrest
  refine ⟨k, k', hk, hk', (lock_excludes_iff {} .fifo .pubSub [1, 2] 0 _ k hk 5
    (of_decide_eq_true hlocked) _ rfl (by decide) k' hk').2 ?_⟩
  exact Bool.false_ne_true

end RedisSmq
