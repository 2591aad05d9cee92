import RedisSmq.Moves.Books

/-!
# Postings

The accounting of a queue, apart from what moves where. A posting is one entry in the
books: a note on a message that leaves its status alone, a transfer to another status,
the entry of a new message, or the removal of a message. Every script leaves the books
as a sequence of postings would.

A valid posting adds to the counter of the status that it writes, so it keeps the
total, whatever status the message had. An honest posting moreover takes from the
counter of the status that the message has. Only honest postings keep counters exact.
-/

namespace RedisSmq

inductive Posting where
  | note (id : MessageId) (f : MessageHash → MessageHash)
  | transfer (id : MessageId) (f : MessageHash → MessageHash) (source target : Counter)
  | entry (id : MessageId) (f : MessageHash → MessageHash) (target : Counter)
  | removal (id : MessageId) (source : Counter)

/-- The number of messages that are not in the counter of a status. -/
def Keyspace.imbalance (db : Keyspace) : Int :=
  db.counter .messages - (db.counter .scheduled + db.counter .pending + db.counter .processing +
    db.counter .acknowledged + db.counter .deadLettered + db.counter .delayed +
    db.counter .requeued)

/-- The total is the sum of the counters, and every stored status has a counter. -/
structure Keyspace.Balanced (db : Keyspace) : Prop where
  imbalance : db.imbalance = 0
  counted : ∀ m, db.status m ≠ some .new

/-- Each counter is the number of stored messages with its status. -/
def Keyspace.Exact (db : Keyspace) : Prop :=
  ∀ st c, counterOf st = some c → db.counter c = db.statusCount st

namespace Posting

def post (db : Keyspace) : Posting → Keyspace
  | .note id f => db.hset id f
  | .transfer id f source target => (db.hset id f).shift source target
  | .entry id f target => ((db.hincrby target 1).hset id f).hincrby .messages 1
  | .removal id source => ((db.del id).hincrby .messages (-1)).hincrby source (-1)

/-- The status that the write leaves is the one of the counter. -/
def Writes (db : Keyspace) (id : MessageId) (f : MessageHash → MessageHash) (c : Counter) : Prop :=
  ∃ st, (f ((db.hgetall id).getD {})).status = some st ∧ counterOf st = some c

/-- The stored status is the one of the counter. -/
def Stored (db : Keyspace) (id : MessageId) (c : Counter) : Prop :=
  ∃ st, db.status id = some st ∧ counterOf st = some c

def Valid (db : Keyspace) : Posting → Prop
  | .note id f => (f ((db.hgetall id).getD {})).status = db.status id
  | .transfer id f source target => source ≠ .messages ∧ Writes db id f target
  | .entry id f target => Writes db id f target
  | .removal _ source => source ≠ .messages

def Honest (db : Keyspace) : Posting → Prop
  | .note _ _ => True
  | .transfer id _ source _ => Stored db id source
  | .entry id _ _ => db.status id = none
  | .removal id source => Stored db id source

end Posting

section Laws

variable {db db' : Keyspace} {p : Posting}
variable {c : Counter}

theorem counterOf_ne_messages {st : Status} (h : counterOf st = some c) : c ≠ .messages := by
  rintro rfl
  cases st <;> cases h

theorem counterOf_injective {st st' : Status} (h : counterOf st = some c)
    (h' : counterOf st' = some c) : st = st' := by
  cases st <;> cases h <;> cases st' <;> first | rfl | cases h'

theorem Keyspace.imbalance_hincrby (db : Keyspace) (c : Counter) (n : Int) :
    (db.hincrby c n).imbalance = db.imbalance + if c = .messages then n else -n := by
  unfold Keyspace.imbalance
  simp only [Keyspace.counter_hincrby]
  cases c <;> simp <;> omega

theorem Keyspace.imbalance_hset (db : Keyspace) (id : MessageId) (f : MessageHash → MessageHash) :
    (db.hset id f).imbalance = db.imbalance := rfl

theorem Keyspace.imbalance_del (db : Keyspace) (id : MessageId) :
    (db.del id).imbalance = db.imbalance := rfl

theorem Keyspace.balanced_created (type : QueueType) (groups : List GroupId) :
    (Keyspace.created type groups).Balanced :=
  ⟨rfl, fun _ => by simp [Keyspace.status, Keyspace.created, Keyspace.hgetall]⟩

theorem Keyspace.exact_created (type : QueueType) (groups : List GroupId) :
    (Keyspace.created type groups).Exact :=
  fun _ _ _ => rfl

theorem SameBooks.imbalance (h : SameBooks db db') : db'.imbalance = db.imbalance := by
  simp only [Keyspace.imbalance, h.counter]

theorem SameBooks.balanced (h : SameBooks db db') (hdb : db.Balanced) : db'.Balanced where
  imbalance := h.imbalance.trans hdb.imbalance
  counted m := by
    rw [h.status]
    exact hdb.counted m

theorem SameBooks.exact (h : SameBooks db db') (hdb : db.Exact) : db'.Exact := by
  intro st c hc
  rw [h.counter, h.statusCount]
  exact hdb st c hc

theorem status_hset (db : Keyspace) (id m : MessageId) (f : MessageHash → MessageHash) :
    (db.hset id f).status m =
      if m = id then (f ((db.hgetall id).getD {})).status else db.status m := by
  unfold Keyspace.status
  by_cases hm : m = id
  · subst hm
    simp [Keyspace.hgetall_hset_self]
  · simp [Keyspace.hgetall_hset_ne _ _ _ _ hm, hm]

theorem Posting.Writes.ne_new {id : MessageId} {f : MessageHash → MessageHash}
    (h : Posting.Writes db id f c) : (f ((db.hgetall id).getD {})).status ≠ some .new := by
  obtain ⟨st, hst, hc⟩ := h
  rintro hnew
  cases hst.symm.trans hnew
  cases hc

/-- A note may be put on a message that is not stored. -/
theorem Posting.valid_note {f : MessageHash → MessageHash} (hf : ∀ h, (f h).status = h.status)
    (id : MessageId) : (Posting.note id f).Valid db := by
  change (f ((db.hgetall id).getD {})).status = (db.hgetall id).bind MessageHash.status
  rw [hf]
  cases db.hgetall id <;> rfl

theorem Posting.imbalance_post (h : p.Valid db) : (p.post db).imbalance = db.imbalance := by
  cases p with
  | note id f => rfl
  | transfer id f source target =>
    obtain ⟨hsource, st, _, hc⟩ := h
    simp only [Posting.post, Keyspace.shift, Keyspace.imbalance_hincrby, Keyspace.imbalance_hset,
      if_neg hsource, if_neg (counterOf_ne_messages hc)]
    omega
  | entry id f target =>
    obtain ⟨st, _, hc⟩ := h
    simp only [Posting.post, Keyspace.imbalance_hincrby, Keyspace.imbalance_hset, if_true,
      if_neg (counterOf_ne_messages hc)]
    omega
  | removal id source =>
    simp only [Posting.post, Keyspace.imbalance_hincrby, Keyspace.imbalance_del, if_true,
      if_neg h]
    omega

/-- A valid posting keeps the total. -/
theorem Keyspace.Balanced.post (hdb : db.Balanced) (h : p.Valid db) : (p.post db).Balanced where
  imbalance := (Posting.imbalance_post h).trans hdb.imbalance
  counted m := by
    have hwrite : ∀ id f, (f ((db.hgetall id).getD {})).status ≠ some .new →
        (db.hset id f).status m ≠ some .new := by
      intro id f hne
      rw [status_hset]
      split
      · exact hne
      · exact hdb.counted m
    cases p with
    | note id f =>
      refine hwrite id f ?_
      rw [show (f ((db.hgetall id).getD {})).status = db.status id from h]
      exact hdb.counted id
    | transfer id f source target => exact hwrite id f h.2.ne_new
    | entry id f target => exact hwrite id f h.ne_new
    | removal id source =>
      change (db.del id).status m ≠ some .new
      unfold Keyspace.status
      by_cases hm : m = id
      · subst hm
        simp [Keyspace.hgetall_del_self]
      · rw [Keyspace.hgetall_del_ne _ _ _ hm]
        exact hdb.counted m

-- What a status adds to its counter.
private theorem statusWeight_of_counter {st st' : Status} {c c' : Counter}
    (hc : counterOf st = some c) (hc' : counterOf st' = some c') :
    Keyspace.statusWeight st (some st') = if c = c' then 1 else 0 := by
  unfold Keyspace.statusWeight
  by_cases heq : c = c'
  · subst heq
    rw [if_pos rfl, if_pos (congrArg some (counterOf_injective hc' hc))]
  rw [if_neg heq, if_neg]
  intro h
  cases h
  exact heq (Option.some.inj (hc.symm.trans hc'))

/-- A valid and honest posting keeps counters exact. -/
theorem Keyspace.Exact.post (hdb : db.Exact) (hvalid : p.Valid db) (h : p.Honest db) :
    (p.post db).Exact := by
  intro st c hc
  have hold := hdb st c hc
  have hne : c ≠ .messages := counterOf_ne_messages hc
  cases p with
  | note id f =>
    change db.counter c = ((db.hset id f).statusCount st : Int)
    have hkeep : (f ((db.hgetall id).getD {})).status = db.status id := hvalid
    rw [Keyspace.statusCount_hset, hkeep]
    omega
  | transfer id f source target =>
    obtain ⟨_, st', hst', hc'⟩ := hvalid
    obtain ⟨st₀, hst₀, hc₀⟩ := h
    change ((db.hset id f).shift source target).counter c = ((db.hset id f).statusCount st : Int)
    rw [Keyspace.statusCount_hset, hst', hst₀, statusWeight_of_counter hc hc',
      statusWeight_of_counter hc hc₀, Keyspace.counter_shift, Keyspace.counter_hset]
    omega
  | entry id f target =>
    obtain ⟨st', hst', hc'⟩ := hvalid
    have hnone : db.status id = none := h
    change (((db.hincrby target 1).hset id f).hincrby .messages 1).counter c =
      ((db.hset id f).statusCount st : Int)
    rw [Keyspace.statusCount_hset, hst', hnone, statusWeight_of_counter hc hc',
      Keyspace.counter_hincrby, Keyspace.counter_hset, Keyspace.counter_hincrby, if_neg hne]
    simp only [Keyspace.statusWeight, reduceCtorEq, if_false]
    omega
  | removal id source =>
    obtain ⟨st₀, hst₀, hc₀⟩ := h
    change (((db.del id).hincrby .messages (-1)).hincrby source (-1)).counter c =
      ((db.del id).statusCount st : Int)
    rw [Keyspace.statusCount_del, hst₀, statusWeight_of_counter hc hc₀,
      Keyspace.counter_hincrby, Keyspace.counter_hincrby, Keyspace.counter_del, if_neg hne]
    split <;> omega

end Laws

/-- The books after one posting at most, which is honest if `honest` holds. -/
inductive Posted (honest : Prop) (db db' : Keyspace) : Prop
  | same (h : SameBooks db db')
  | posted (p : Posting) (hvalid : p.Valid db) (hhonest : honest → p.Honest db)
      (h : SameBooks (p.post db) db')

namespace Posted

variable {db db' : Keyspace} {honest honest' : Prop}

theorem mono (h : Posted honest db db') (himp : honest' → honest) : Posted honest' db db' := by
  cases h with
  | same h => exact .same h
  | posted p hvalid hhonest h => exact .posted p hvalid (fun h => hhonest (himp h)) h

theorem balanced (h : Posted honest db db') (hdb : db.Balanced) : db'.Balanced := by
  cases h with
  | same h => exact h.balanced hdb
  | posted p hvalid _ h => exact h.balanced (hdb.post hvalid)

theorem exact (h : Posted honest db db') (hhonest : honest) (hdb : db.Exact) : db'.Exact := by
  cases h with
  | same h => exact h.exact hdb
  | posted p hvalid hp h => exact h.exact (hdb.post hvalid (hp hhonest))

end Posted

end RedisSmq
