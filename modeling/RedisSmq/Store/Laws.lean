import RedisSmq.Store.Keyspace

/-!
# What the commands do to one message

Every argument about the queue looks at a keyspace through the same three
windows: the hash of a message, how often its identifier occurs in each list and
sorted set, and the counters. This module says, for each command, what it does to
each window. All later proofs use these laws and never unfold a command.
-/

namespace RedisSmq

/-- A key that holds message identifiers. -/
inductive Slot where
  | list (k : ListKey)
  | zset (k : ZsetKey)
  deriving DecidableEq, Repr

namespace Keyspace

/-- How often an identifier occurs under a key. -/
def occ (db : Keyspace) : Slot → MessageId → Nat
  | .list k, m => (db.lists k).count m
  | .zset k, m => if m ∈ db.zsets k then 1 else 0

/-- The number of stored messages with a status. -/
def statusCount (db : Keyspace) (st : Status) : Nat :=
  Table.countRows (fun h => decide (h.status = some st)) db.messages

section Laws

variable (db : Keyspace) (c c' : Counter) (n n' : Int) (k : ListKey) (z : ZsetKey)
variable (id m : MessageId) (p : Slot) (score : Nat) (f : MessageHash → MessageHash)

theorem mem_list_iff : m ∈ db.lists k ↔ 0 < db.occ (.list k) m := List.count_pos_iff.symm

theorem mem_zset_iff : m ∈ db.zsets z ↔ 0 < db.occ (.zset z) m := by
  by_cases h : m ∈ db.zsets z <;> simp [occ, h]

/-! ## Message hashes -/

@[simp] theorem hgetall_hincrby : (db.hincrby c n).hgetall m = db.hgetall m := rfl

@[simp] theorem hgetall_lrem : (db.lrem k id).hgetall m = db.hgetall m := rfl

@[simp] theorem hgetall_zadd : (db.zadd z score id).hgetall m = db.hgetall m := rfl

@[simp] theorem hgetall_hset_self :
    (db.hset id f).hgetall id = some (f ((db.hgetall id).getD {})) :=
  AList.lookup_insert _

theorem hgetall_hset_ne (h : m ≠ id) : (db.hset id f).hgetall m = db.hgetall m :=
  AList.lookup_insert_ne h

@[simp] theorem hgetall_del_self : (db.del id).hgetall id = none :=
  AList.lookup_erase _ _

theorem hgetall_del_ne (h : m ≠ id) : (db.del id).hgetall m = db.hgetall m :=
  AList.lookup_erase_ne h

/-! ## Lists and sorted sets -/

@[simp] theorem occ_hincrby : (db.hincrby c n).occ p m = db.occ p m := by cases p <;> rfl

@[simp] theorem occ_hset : (db.hset id f).occ p m = db.occ p m := by cases p <;> rfl

@[simp] theorem occ_del : (db.del id).occ p m = db.occ p m := by cases p <;> rfl

@[simp] theorem occ_pushHistory (size : Nat) (r : HistoryRecord) :
    (db.pushHistory id size r).occ p m = db.occ p m := by cases p <;> rfl

theorem occ_setList (l : List MessageId) :
    (db.setList k l).occ p m = if p = .list k then l.count m else db.occ p m := by
  cases p with
  | list k' =>
    by_cases h : k' = k
    · subst h
      simp [occ, setList]
    · simp [occ, setList, h]
  | zset z' =>
    rw [if_neg (by simp)]
    rfl

theorem occ_setZset (s : SortedSet MessageId) :
    (db.setZset z s).occ p m = if p = .zset z then (if m ∈ s then 1 else 0) else db.occ p m := by
  cases p with
  | list k' => simp [occ, setZset]
  | zset z' =>
    by_cases h : z' = z
    · subst h
      simp [occ, setZset]
    · simp [occ, setZset, h]

theorem occ_lpush :
    (db.lpush k id).occ p m = db.occ p m + if p = .list k ∧ m = id then 1 else 0 := by
  rw [lpush, occ_setList]
  by_cases hp : p = .list k
  · subst hp
    by_cases hm : m = id
    · subst hm
      simp [occ]
    · simp [occ, hm, List.count_cons_of_ne (Ne.symm hm)]
  · simp [hp]

theorem occ_rpush :
    (db.rpush k id).occ p m = db.occ p m + if p = .list k ∧ m = id then 1 else 0 := by
  rw [rpush, occ_setList]
  by_cases hp : p = .list k
  · subst hp
    by_cases hm : m = id
    · subst hm
      simp [occ]
    · simp [occ, hm, List.count_cons_of_ne (Ne.symm hm)]
  · simp [hp]

theorem occ_lrem :
    (db.lrem k id).occ p m = db.occ p m - if p = .list k ∧ m = id then 1 else 0 := by
  rw [lrem, occ_setList]
  by_cases hp : p = .list k
  · subst hp
    by_cases hm : m = id
    · subst hm
      simp [occ]
    · simp [occ, hm, List.count_erase_of_ne hm]
  · simp [hp]

theorem occ_zadd :
    (db.zadd z score id).occ p m = if p = .zset z ∧ m = id then 1 else db.occ p m := by
  rw [zadd, occ_setZset]
  by_cases hp : p = .zset z
  · subst hp
    by_cases hm : m = id <;> simp [occ, hm]
  · simp [hp]

theorem occ_zrem :
    (db.zrem z id).occ p m = if p = .zset z ∧ m = id then 0 else db.occ p m := by
  rw [zrem, occ_setZset]
  by_cases hp : p = .zset z
  · subst hp
    by_cases hm : m = id <;> simp [occ, hm]
  · simp [hp]

/-! ## Counters -/

theorem counter_hincrby :
    (db.hincrby c n).counter c' = db.counter c' + if c' = c then n else 0 := by
  by_cases h : c' = c
  · subst h
    simp [counter, hincrby]
  · simp [counter, hincrby, h]

@[simp] theorem counter_lrem : (db.lrem k id).counter c = db.counter c := rfl

@[simp] theorem counter_hset : (db.hset id f).counter c = db.counter c := rfl

@[simp] theorem counter_del : (db.del id).counter c = db.counter c := rfl

/-! ## Statuses -/

/-- What a stored status contributes to the number of messages with status `st`. -/
def statusWeight (st : Status) (stored : Option Status) : Int :=
  if stored = some st then 1 else 0

private theorem weight_hgetall (st : Status) :
    (Table.weight (fun h => decide (h.status = some st)) (db.hgetall id) : Int) =
      statusWeight st (db.status id) := by
  unfold status
  cases db.hgetall id with
  | none => simp [statusWeight]
  | some h => by_cases hs : h.status = some st <;> simp [statusWeight, hs]

/-- Writing a hash moves the message from the count of its old status to that of
its new one. -/
theorem statusCount_hset (st : Status) :
    ((db.hset id f).statusCount st : Int) =
      db.statusCount st - statusWeight st (db.status id) +
        statusWeight st (f ((db.hgetall id).getD {})).status := by
  have hrows := Table.countRows_insert_add (fun h : MessageHash => decide (h.status = some st)) id
    (f ((db.hgetall id).getD {})) db.messages
  have hold := db.weight_hgetall id st
  have hnew : (Table.weight (fun h : MessageHash => decide (h.status = some st))
      (some (f ((db.hgetall id).getD {}))) : Int) =
        statusWeight st (f ((db.hgetall id).getD {})).status := by
    by_cases hs : (f ((db.hgetall id).getD {})).status = some st <;> simp [statusWeight, hs]
  change _ + Table.weight _ (db.hgetall id) = _ at hrows
  dsimp only [statusCount, hset]
  omega

/-- Deleting a hash takes the message out of the count of its status. -/
theorem statusCount_del (st : Status) :
    ((db.del id).statusCount st : Int) = db.statusCount st - statusWeight st (db.status id) := by
  have hrows := Table.countRows_erase_add (fun h : MessageHash => decide (h.status = some st)) id
    db.messages
  have hold := db.weight_hgetall id st
  change _ + Table.weight _ (db.hgetall id) = _ at hrows
  dsimp only [statusCount, del]
  omega

/-! ## Changing several counters at once -/

/-- Add to every counter what `delta` says. -/
def adjust (delta : Counter → Int) : Keyspace :=
  let q := db.queue.getD {}
  { db with queue := some { q with count := fun c => q.count c + delta c } }

theorem hincrby_eq_adjust : db.hincrby c n = db.adjust fun c' => if c' = c then n else 0 := by
  dsimp only [hincrby, adjust]
  congr 3
  funext c'
  by_cases h : c' = c
  · subst h
    simp
  · simp [h]

theorem adjust_adjust (d d' : Counter → Int) :
    (db.adjust d).adjust d' = db.adjust fun c => d c + d' c := by
  dsimp only [adjust, Option.getD_some]
  congr 3
  funext c
  omega

theorem adjust_zero (h : db.queue.isSome) : (db.adjust fun _ => 0) = db := by
  obtain ⟨q, hq⟩ := Option.isSome_iff_exists.1 h
  cases db
  simp only at hq
  subst hq
  simp [adjust]

@[simp] theorem queue_hset : (db.hset id f).queue = db.queue := rfl

end Laws

/-! ## Settings

What no script that handles messages changes: the type, the state and the lock of
the queue, and its consumer groups. -/

def settings (db : Keyspace) :
    Option QueueType × OperationalState × Option LockId × List GroupId :=
  (db.queueType?, db.operationalState, db.queue.bind QueueProps.lockId, db.groups)

section Settings

variable (db : Keyspace) (c : Counter) (n : Int) (id : MessageId)

@[simp] theorem settings_adjust (d : Counter → Int) : (db.adjust d).settings = db.settings := by
  obtain ⟨q, _, _, _, _, _⟩ := db
  cases q <;> rfl

@[simp] theorem settings_hincrby : (db.hincrby c n).settings = db.settings := by
  rw [hincrby_eq_adjust, settings_adjust]

@[simp] theorem settings_pushHistory (size : Nat) (r : HistoryRecord) :
    (db.pushHistory id size r).settings = db.settings := rfl

end Settings

section SettingsEq

variable {db db' : Keyspace} (h : db'.settings = db.settings)

include h

theorem queueType?_of_settings : db'.queueType? = db.queueType? := congrArg Prod.fst h

theorem operationalState_of_settings : db'.operationalState = db.operationalState :=
  congrArg (fun s => s.2.1) h

theorem groups_of_settings : db'.groups = db.groups := congrArg (fun s => s.2.2.2) h

theorem groupExists_of_settings (g : Option GroupId) : db'.groupExists g = db.groupExists g := by
  cases g with
  | none => rfl
  | some g => simp [groupExists, groups_of_settings h]

end SettingsEq

theorem isSome_queue_of_queueType? {db : Keyspace} {type : QueueType}
    (h : db.queueType? = some type) : db.queue.isSome := by
  obtain ⟨q, hq, _⟩ := Option.bind_eq_some_iff.1 h
  simp [hq]

end Keyspace

end RedisSmq
