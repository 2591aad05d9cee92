import RedisSmq.Moves.Settle

/-!
# Where a message stands

Seen from one message, the whole keyspace is its hash and the place that holds
its identifier. `At db m x` says that this is all there is to see: the hash of `m`
is the one in `x`, and over all containers of the queue its identifier occurs once,
in the place of `x`, or nowhere. The audit lists and the list of published
messages are no containers.

`Frame id db db'` says that `db'` differs from `db` at most in what concerns the
message `id`; every command and every move has such a frame, so what it does to
other messages never has to be looked at again.
-/

namespace RedisSmq

/-- The keys that hold a message that is still under way. -/
def Slot.holds : Slot → Bool
  | .list (.pending _) | .list (.processing _) | .list .requeued => true
  | .list .acknowledged | .list .deadLetter | .list .published => false
  | .zset _ => true

/-- The container of the pending messages of a group. -/
def pendingSlot (type : QueueType) (group : Option GroupId) : Slot :=
  match type with
  | .fifo | .lifo => .list (.pending group)
  | .priority => .zset (.priority group)

@[simp] theorem holds_pendingSlot (type : QueueType) (group : Option GroupId) :
    (pendingSlot type group).holds = true := by
  cases type <;> rfl

/-- A message as the queue sees it: where it is and what is stored of it. -/
structure Life where
  place : Option Slot
  hash : Option MessageHash

def Life.status (x : Life) : Option Status := x.hash.bind MessageHash.status

/-- The hash that a script reads, writes and stores. -/
def Life.write (x : Life) (f : MessageHash → MessageHash) : Option MessageHash :=
  some (f (x.hash.getD {}))

theorem Life.write_of_hash {x : Life} {h : MessageHash} {f : MessageHash → MessageHash}
    (hx : x.hash = some h) : x.write f = some (f h) := by
  simp [Life.write, hx]

/-- The keyspace shows exactly `x` of the message `m`. -/
structure At (db : Keyspace) (m : MessageId) (x : Life) : Prop where
  hash : db.hgetall m = x.hash
  occ : ∀ p, p.holds = true → db.occ p m = if x.place = some p then 1 else 0

/-- What concerns the message `m` is left alone. A list that is no container may lose
its identifier but does not gain it. -/
structure Spared (m : MessageId) (db db' : Keyspace) : Prop where
  hash : db'.hgetall m = db.hgetall m
  occ : ∀ p, p.holds = true → db'.occ p m = db.occ p m
  occ_le : ∀ p, db'.occ p m ≤ db.occ p m

namespace Spared

variable {m : MessageId} {db db' db'' : Keyspace}

theorem refl (m : MessageId) (db : Keyspace) : Spared m db db :=
  ⟨rfl, fun _ _ => rfl, fun _ => le_rfl⟩

theorem trans (h : Spared m db db') (h' : Spared m db' db'') : Spared m db db'' where
  hash := h'.hash.trans h.hash
  occ p hp := (h'.occ p hp).trans (h.occ p hp)
  occ_le p := (h'.occ_le p).trans (h.occ_le p)

theorem at_iff (h : Spared m db db') {x : Life} : At db' m x ↔ At db m x := by
  constructor
  · rintro ⟨hhash, hocc⟩
    exact ⟨h.hash.symm.trans hhash, fun p hp => (h.occ p hp).symm.trans (hocc p hp)⟩
  · rintro ⟨hhash, hocc⟩
    exact ⟨h.hash.trans hhash, fun p hp => (h.occ p hp).trans (hocc p hp)⟩

end Spared

/-- Nothing but the message `id` is touched, and settings stay. -/
structure Frame (id : MessageId) (db db' : Keyspace) : Prop where
  settings : db'.settings = db.settings
  hash : ∀ m, m ≠ id → db'.hgetall m = db.hgetall m
  occ : ∀ m, m ≠ id → ∀ p, p.holds = true → db'.occ p m = db.occ p m
  occ_le : ∀ m, m ≠ id → ∀ p, db'.occ p m ≤ db.occ p m

namespace Frame

variable {id : MessageId} {db db' db'' : Keyspace}

theorem refl (id : MessageId) (db : Keyspace) : Frame id db db :=
  ⟨rfl, fun _ _ => rfl, fun _ _ _ _ => rfl, fun _ _ _ => le_rfl⟩

section

variable (h : Frame id db db')

include h

theorem trans (h' : Frame id db' db'') : Frame id db db'' where
  settings := h'.settings.trans h.settings
  hash m hm := (h'.hash m hm).trans (h.hash m hm)
  occ m hm p hp := (h'.occ m hm p hp).trans (h.occ m hm p hp)
  occ_le m hm p := (h'.occ_le m hm p).trans (h.occ_le m hm p)

theorem hset (f : MessageHash → MessageHash) : Frame id db (db'.hset id f) :=
  h.trans ⟨rfl, fun m hm => db'.hgetall_hset_ne id m f hm, fun m _ p _ => by simp,
    fun m _ p => by simp⟩

theorem del : Frame id db (db'.del id) :=
  h.trans ⟨rfl, fun m hm => db'.hgetall_del_ne id m hm, fun m _ p _ => by simp,
    fun m _ p => by simp⟩

theorem hincrby (c : Counter) (n : Int) : Frame id db (db'.hincrby c n) :=
  h.trans ⟨by simp, fun _ _ => rfl, fun m _ p _ => by simp, fun m _ p => by simp⟩

theorem shift (a b : Counter) : Frame id db (db'.shift a b) :=
  (h.hincrby a (-1)).hincrby b 1

theorem lpush (k : ListKey) : Frame id db (db'.lpush k id) :=
  h.trans ⟨rfl, fun _ _ => rfl, fun m hm p _ => by simp [Keyspace.occ_lpush, hm],
    fun m hm p => by simp [Keyspace.occ_lpush, hm]⟩

theorem rpush (k : ListKey) : Frame id db (db'.rpush k id) :=
  h.trans ⟨rfl, fun _ _ => rfl, fun m hm p _ => by simp [Keyspace.occ_rpush, hm],
    fun m hm p => by simp [Keyspace.occ_rpush, hm]⟩

theorem lrem (k : ListKey) : Frame id db (db'.lrem k id) :=
  h.trans ⟨rfl, fun _ _ => rfl, fun m hm p _ => by simp [Keyspace.occ_lrem, hm],
    fun m hm p => by simp [Keyspace.occ_lrem, hm]⟩

theorem zadd (z : ZsetKey) (score : Nat) : Frame id db (db'.zadd z score id) :=
  h.trans ⟨rfl, fun _ _ => rfl, fun m hm p _ => by simp [Keyspace.occ_zadd, hm],
    fun m hm p => by simp [Keyspace.occ_zadd, hm]⟩

theorem zrem (z : ZsetKey) : Frame id db (db'.zrem z id) :=
  h.trans ⟨rfl, fun _ _ => rfl, fun m hm p _ => by simp [Keyspace.occ_zrem, hm],
    fun m hm p => by simp [Keyspace.occ_zrem, hm]⟩

theorem keepAudit (k : ListKey) (hk : (Slot.list k).holds = false)
    (audit : AuditQueue) : Frame id db (db'.keepAudit k audit [id]) :=
  h.trans ⟨by simp, fun m _ => by simp,
    fun m _ p hp => db'.occ_keepAudit_ne audit k [id] m p (by rintro rfl; simp [hk] at hp),
    fun m hm p => db'.occ_keepAudit_le audit k [id] m p (by simpa using hm)⟩

theorem pushUnacked (cfg : Config) {a : UnackArg} (ha : a.id = id) :
    Frame id db (db'.pushUnacked cfg a) := by
  subst ha
  unfold Keyspace.pushUnacked
  split
  · exact h.rpush .requeued
  split
  · exact h.keepAudit .deadLetter rfl cfg.deadLettered
  · exact h

theorem recordUnack (cfg : Config) (a : UnackArg) : Frame id db (db'.recordUnack cfg a) :=
  h.trans ⟨by simp, fun m _ => by simp, fun m _ p _ => by simp, fun m _ p => by simp⟩

theorem enqueueNew {type : QueueType} {group : Option GroupId}
    {priority : Option Nat} (hdb : db'.enqueueNew type group priority id = some db'') :
    Frame id db db'' := by
  unfold Keyspace.enqueueNew at hdb
  cases type with
  | lifo =>
    cases hdb
    exact h.rpush _
  | fifo =>
    cases hdb
    exact h.lpush _
  | priority =>
    obtain ⟨p, _, rfl⟩ := Option.map_eq_some_iff.1 hdb
    exact h.zadd _ p

theorem enqueueRetry {type : QueueType} {group : Option GroupId}
    {priority : Option Nat} (hdb : db'.enqueueRetry type group priority id = some db'') :
    Frame id db db'' := by
  unfold Keyspace.enqueueRetry at hdb
  cases type with
  | lifo =>
    cases hdb
    exact h.rpush _
  | fifo =>
    cases hdb
    exact h.rpush _
  | priority =>
    obtain ⟨p, _, rfl⟩ := Option.map_eq_some_iff.1 hdb
    exact h.zadd _ p

theorem spared {m : MessageId} (hm : m ≠ id) : Spared m db db' :=
  ⟨h.hash m hm, h.occ m hm, h.occ_le m hm⟩

/-- What concerns another message is as before. -/
theorem at_iff {m : MessageId} {x : Life} (hm : m ≠ id) : At db' m x ↔ At db m x :=
  (h.spared hm).at_iff

end

end Frame

namespace At

variable {db : Keyspace} {m : MessageId} {x : Life}

section

variable (h : At db m x)
variable {k : ListKey} {z : ZsetKey} {db' : Keyspace}

include h

theorem status_eq : db.status m = x.status := by
  unfold Keyspace.status Life.status
  rw [h.hash]

theorem mem_list (hk : (Slot.list k).holds = true) : m ∈ db.lists k ↔ x.place = some (.list k) := by
  rw [Keyspace.mem_list_iff, h.occ _ hk]
  by_cases hp : x.place = some (.list k) <;> simp [hp]

theorem mem_zset : m ∈ db.zsets z ↔ x.place = some (.zset z) := by
  rw [Keyspace.mem_zset_iff, h.occ _ rfl]
  by_cases hp : x.place = some (.zset z) <;> simp [hp]

theorem hset (f : MessageHash → MessageHash) : At (db.hset m f) m ⟨x.place, x.write f⟩ where
  hash := by rw [Keyspace.hgetall_hset_self, h.hash]; rfl
  occ p hp := by rw [Keyspace.occ_hset]; exact h.occ p hp

theorem del : At (db.del m) m ⟨x.place, none⟩ where
  hash := db.hgetall_del_self m
  occ p hp := by rw [Keyspace.occ_del]; exact h.occ p hp

theorem hincrby (c : Counter) (n : Int) : At (db.hincrby c n) m x where
  hash := h.hash
  occ p hp := by rw [Keyspace.occ_hincrby]; exact h.occ p hp

theorem shift (a b : Counter) : At (db.shift a b) m x :=
  (h.hincrby a (-1)).hincrby b 1

/-- A removal from the list that holds the message leaves it without a place. -/
theorem lrem (hk : x.place = some (.list k)) : At (db.lrem k m) m ⟨none, x.hash⟩ where
  hash := h.hash
  occ p hp := by
    rw [Keyspace.occ_lrem, h.occ p hp, hk]
    by_cases hpk : p = .list k
    · simp [hpk]
    · simp [hpk, Ne.symm hpk]

/-- A list that does not hold the message has nothing to remove. -/
theorem lrem_of_ne (hk : x.place ≠ some (.list k)) : At (db.lrem k m) m x where
  hash := h.hash
  occ p hp := by
    rw [Keyspace.occ_lrem, h.occ p hp]
    by_cases hpk : p = .list k
    · subst hpk
      simp [hk]
    · simp [hpk]

theorem zrem (hz : x.place = some (.zset z)) : At (db.zrem z m) m ⟨none, x.hash⟩ where
  hash := h.hash
  occ p hp := by
    rw [Keyspace.occ_zrem, h.occ p hp, hz]
    by_cases hpk : p = .zset z
    · simp [hpk]
    · simp [hpk, Ne.symm hpk]

theorem zrem_of_ne (hz : x.place ≠ some (.zset z)) : At (db.zrem z m) m x where
  hash := h.hash
  occ p hp := by
    rw [Keyspace.occ_zrem, h.occ p hp]
    by_cases hpk : p = .zset z
    · subst hpk
      simp [hz]
    · simp [hpk]

private theorem push (hx : x.place = none) {q : Slot}
    (hhash : db'.hgetall m = db.hgetall m)
    (hocc : ∀ p, db'.occ p m = db.occ p m + if p = q then 1 else 0) :
    At db' m ⟨some q, x.hash⟩ where
  hash := hhash.trans h.hash
  occ p hp := by
    rw [hocc, h.occ p hp, hx]
    by_cases hpq : p = q
    · simp [hpq]
    · simp [hpq, Ne.symm hpq]

theorem rpush (hx : x.place = none) (k : ListKey) : At (db.rpush k m) m ⟨some (.list k), x.hash⟩ :=
  h.push hx rfl fun p => by simp [Keyspace.occ_rpush]

theorem lpush (hx : x.place = none) (k : ListKey) : At (db.lpush k m) m ⟨some (.list k), x.hash⟩ :=
  h.push hx rfl fun p => by simp [Keyspace.occ_lpush]

/-- A list that is no container does not change where a message is. -/
theorem rpush_audit (hk : (Slot.list k).holds = false)
    (id : MessageId) : At (db.rpush k id) m x where
  hash := h.hash
  occ p hp := by
    have hne : p ≠ .list k := by rintro rfl; simp [hk] at hp
    rw [Keyspace.occ_rpush, h.occ p hp]
    simp [hne]

theorem lrem_audit (hk : (Slot.list k).holds = false) (id : MessageId) : At (db.lrem k id) m x where
  hash := h.hash
  occ p hp := by
    have hne : p ≠ .list k := by rintro rfl; simp [hk] at hp
    rw [Keyspace.occ_lrem, h.occ p hp]
    simp [hne]

theorem keepAudit (hk : (Slot.list k).holds = false)
    (audit : AuditQueue) (ids : List MessageId) : At (db.keepAudit k audit ids) m x where
  hash := by rw [Keyspace.hgetall_keepAudit]; exact h.hash
  occ p hp := by
    rw [db.occ_keepAudit_ne audit k ids m p (by rintro rfl; simp [hk] at hp)]
    exact h.occ p hp

/-- Adding to a sorted set places the message there, if it is nowhere else. -/
theorem zadd (hx : x.place = none ∨ x.place = some (.zset z))
    (score : Nat) : At (db.zadd z score m) m ⟨some (.zset z), x.hash⟩ where
  hash := h.hash
  occ p hp := by
    rw [Keyspace.occ_zadd, h.occ p hp]
    rcases hx with hx | hx <;> by_cases hpz : p = .zset z <;> simp [hx, hpz, eq_comm]

theorem enqueueNew (hx : x.place = none) {type : QueueType}
    {group : Option GroupId} {priority : Option Nat}
    (hdb : db.enqueueNew type group priority m = some db') :
    At db' m ⟨some (pendingSlot type group), x.hash⟩ := by
  unfold Keyspace.enqueueNew at hdb
  cases type with
  | lifo =>
    cases hdb
    exact h.rpush hx _
  | fifo =>
    cases hdb
    exact h.lpush hx _
  | priority =>
    obtain ⟨p, _, rfl⟩ := Option.map_eq_some_iff.1 hdb
    exact h.zadd (.inl hx) p

theorem enqueueRetry (hx : x.place = none) {type : QueueType}
    {group : Option GroupId} {priority : Option Nat}
    (hdb : db.enqueueRetry type group priority m = some db') :
    At db' m ⟨some (pendingSlot type group), x.hash⟩ := by
  unfold Keyspace.enqueueRetry at hdb
  cases type with
  | lifo =>
    cases hdb
    exact h.rpush hx _
  | fifo =>
    cases hdb
    exact h.rpush hx _
  | priority =>
    obtain ⟨p, _, rfl⟩ := Option.map_eq_some_iff.1 hdb
    exact h.zadd (.inl hx) p

end

end At

end RedisSmq
