import RedisSmq.Admin.QueueKeys

/-!
# What is left of a deleted queue

The script `delete-queue` deletes the keys that its caller has computed, and the caller
leaves out one kind of key: the sets of the members of the consumer groups. A consumer that
has joined a group and died without being reaped stays in such a set, although the deletion
succeeds because its heartbeat is over. A queue that is created later under the same name
inherits the set, and with it a group that cannot be deleted.
-/

namespace RedisSmq.StoredQueue

variable {s s' : StoredQueue}

/-- No key is left of the queue, and it is in no registry. -/
def Vanished (s : StoredQueue) : Prop :=
  (∀ key, s.hasKey key = false) ∧ s.inAllQueues = false ∧ s.inNamespace = false

/-- A queue that is created now has nothing but its properties and its first transition. -/
def StartsEmpty (s : StoredQueue) : Prop :=
  ∀ type model limit now key, (s.createQueue type model limit now).2.hasKey key = true ↔
    key = .properties ∨ key = .stateHistory

/-- What the caller does not list is empty: the sets of the members, the pending containers
of groups that are not registered, and the processing lists that are not registered. -/
structure Listed (s : StoredQueue) : Prop where
  members : ∀ g, s.queue.members g = []
  groups : ∀ g ∉ s.queue.db.groups, s.queue.db.lists (.pending (some g)) = [] ∧
    (s.queue.db.zsets (.priority (some g))).entries = []
  processing : ∀ c ∉ s.queue.processing, s.queue.db.lists (.processing c) = []

/-- All keys that exist are among those that the caller lists. -/
theorem listed_iff : s.Listed ↔ ∀ key, s.hasKey key = true →
    key ∈ keysToDelete s.queue.db.groups s.queue.processing := by
  constructor
  · intro h key hkey
    rw [mem_keysToDelete]
    cases key with
    | pendingWithGroup g =>
      by_contra hg
      simp [hasKey, (h.groups g hg).1] at hkey
    | priorityWithGroup g =>
      by_contra hg
      simp [hasKey, (h.groups g hg).2] at hkey
    | consumerProcessing c =>
      by_contra hc
      simp [hasKey, h.processing c hc] at hkey
    | consumerGroupMembers g => simp [hasKey, h.members g] at hkey
    | _ => trivial
  · intro h
    refine ⟨fun g => ?_, fun g hg => ⟨?_, ?_⟩, fun c hc => ?_⟩
    · by_contra hne
      exact mem_keysToDelete.1 (h (.consumerGroupMembers g) (by simpa [hasKey] using hne))
    · by_contra hne
      exact hg (mem_keysToDelete.1 (h (.pendingWithGroup g) (by simpa [hasKey] using hne)))
    · by_contra hne
      exact hg (mem_keysToDelete.1 (h (.priorityWithGroup g) (by simpa [hasKey] using hne)))
    · by_contra hne
      exact hc (mem_keysToDelete.1 (h (.consumerProcessing c) (by simpa [hasKey] using hne)))

/-- A queue that is created where there is nothing starts empty. -/
theorem Vanished.startsEmpty (h : s.Vanished) : s.StartsEmpty := by
  intro type model limit now key
  have hkey := h.1 key
  cases key <;>
    simp_all [createQueue, hasKey, h.2.1, Managed.setDb, Managed.db, QueueRecord.maxHistorySize]

/-- Whenever `Store.Delete` succeeds with no concurrent step, nothing is left of the queue,
and a queue that is created later under its name starts empty, exactly if what the caller
does not list was empty. -/
theorem delete_leaves_nothing_iff (s s' : StoredQueue) (hdelete : s.delete = (.ok, s')) :
    s'.Vanished ∧ s'.StartsEmpty ↔ s.Listed := by
  rw [listed_iff]
  constructor
  · intro h key hkey
    by_contra hnot
    have hleft := (deleteQueue_hasKey hdelete key).2 ⟨hkey, hnot⟩
    rw [h.1.1 key] at hleft
    cases hleft
  · intro h
    have hvanished : s'.Vanished := by
      refine ⟨fun key => ?_, by rw [deleteQueue_ok hdelete], by rw [deleteQueue_ok hdelete]⟩
      by_contra hkey
      obtain ⟨hkey, hnot⟩ := (deleteQueue_hasKey hdelete key).1 (by simpa using hkey)
      exact hnot (h key hkey)
    exact ⟨hvanished, hvanished.startsEmpty⟩

/-- A consumer joins a group and dies. -/
def deadMember : List StoredAction :=
  [.create .fifo .pubSub none 0, .managed (.queue (.saveGroup 1)),
    .managed (.subscribe 7 (some 1)), .managed (.beat 7), .managed (.lapse 7)]

/-- The same consumer is unsubscribed first. -/
def reapedMember : List StoredAction := deadMember ++ [.managed (.unsubscribe 7 (some 1))]

/-- The queue is deleted, and created again: its group has the dead consumer as a member, and
so cannot be deleted. -/
theorem members_inherited :
    ∃ s s', (absent {} .pubSub 0).Runs deadMember s ∧ s.delete = (.ok, s') ∧
      ¬ (s'.Vanished ∧ s'.StartsEmpty) ∧
      let fresh := (s'.createQueue .fifo .pubSub none 1).2
      fresh.queue.members 1 = [7] ∧
        (fresh.queue.deleteConsumerGroup 1 (some 1) OperationalState.locked.string none).1 =
          .consumerGroupHasActiveConsumers := by
  have hrun : (Run.exec step (absent {} .pubSub 0) deadMember).map (fun s =>
      (s.delete.1, s.delete.2.hasKey (.consumerGroupMembers 1),
        (s.delete.2.createQueue .fifo .pubSub none 1).2.queue.members 1,
        ((s.delete.2.createQueue .fifo .pubSub none 1).2.queue.deleteConsumerGroup 1 (some 1)
          OperationalState.locked.string none).1)) =
      some (.ok, true, [7], .consumerGroupHasActiveConsumers) := by decide +kernel
  obtain ⟨s, hs, heq⟩ := Option.map_eq_some_iff.1 hrun
  simp only [Prod.mk.injEq] at heq
  obtain ⟨hok, hkey, hmembers, hreply⟩ := heq
  refine ⟨s, s.delete.2, hs, Prod.ext hok rfl, fun h => ?_, hmembers, hreply⟩
  rw [h.1.1] at hkey
  cases hkey

theorem delete_leaves_nothing_iff_reapedMember :
    ∃ s s', (absent {} .pubSub 0).Runs reapedMember s ∧ s.delete = (.ok, s') ∧ s'.Vanished := by
  let start := absent {} .pubSub 0
  let s := (Run.exec step start reapedMember).getD start
  have hdelete : s.delete = (.ok, s.delete.2) := rfl
  have hmembers : ∀ g, s.queue.members g = [] := by
    intro g
    by_cases hg : g = 1
    · subst hg
      rfl
    · exact (Function.update_of_ne hg _ _).trans (Function.update_of_ne hg _ _)
  have hlisted : s.Listed := ⟨hmembers, fun g _ => ⟨rfl, rfl⟩, fun c _ => rfl⟩
  exact ⟨s, s.delete.2, rfl, hdelete, ((delete_leaves_nothing_iff s _ hdelete).2 hlisted).1⟩

end RedisSmq.StoredQueue
