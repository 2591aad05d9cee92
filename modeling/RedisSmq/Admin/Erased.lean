import RedisSmq.Admin.Delete
import RedisSmq.Moves.Books

/-!
# What a deletion leaves

`Erased db gone db'` says that `db'` is `db` without the messages in `gone`: their hashes
and histories, one entry of each in the list of published messages and one in the container
of its status, and what they contributed to the counters. Nothing else differs.

The deletion script does this for the messages that it may delete, unless it meets a
delayed message while the delayed container is not empty. It looks for pending messages
under the keys of the group that it was given, be it that of the message or another one:
`ErasedBy keys db gone db'` says which.
-/

namespace RedisSmq

namespace Keyspace

/-- The consumer group in the stored parameters of a message. -/
def groupOf (db : Keyspace) (m : MessageId) : Option GroupId :=
  ((db.hgetall m).bind MessageHash.message).bind Params.consumerGroupId

/-- The container of a message's status, if the keys of some group stand for those of its own. -/
def homeBy (db : Keyspace) (keys : Option GroupId → Option GroupId) (m : MessageId) : Option Slot :=
  (db.status m).bind (Status.home db.queueType? (keys (db.groupOf m)))

/-- The container of a message's status. -/
def home (db : Keyspace) (m : MessageId) : Option Slot := db.homeBy id m

/-- The message is stored and not being processed. -/
def Deletable (db : Keyspace) (m : MessageId) : Prop :=
  ∃ st ∈ db.status m, st ≠ .processing
  deriving Decidable

/-- The deletion of the message takes its identifier out of the key. -/
def Clears (db : Keyspace) (keys : Option GroupId → Option GroupId) (m : MessageId) (p : Slot) :
    Prop :=
  p = .list .published ∨ db.homeBy keys m = some p
  deriving Decidable

/-- The deletion of the message decrements the counter. -/
def Charges (db : Keyspace) (m : MessageId) (c : Counter) : Prop :=
  c = .messages ∨ (db.status m).bind counterOf = some c
  deriving Decidable

end Keyspace

/-- Exactly the messages in `gone` were deleted, and looked for under the keys of these groups. -/
structure ErasedBy (keys : Option GroupId → Option GroupId) (db : Keyspace)
    (gone : List MessageId) (db' : Keyspace) : Prop where
  settings : db'.settings = db.settings
  hash : ∀ m, db'.hgetall m = if m ∈ gone then none else db.hgetall m
  history : ∀ m, db'.history m = if m ∈ gone then [] else db.history m
  lists : ∀ k, db'.lists k = (db.lists k).diff (gone.filter (db.Clears keys · (.list k)))
  zsets : ∀ k, (db'.zsets k).entries =
    (db.zsets k).entries.filter fun e => ¬ (e.2 ∈ gone ∧ db.Clears keys e.2 (.zset k))
  counter : ∀ c, db'.counter c = db.counter c - gone.countP (db.Charges · c)

/-- Exactly the messages in `gone` were deleted. -/
abbrev Erased := ErasedBy id

namespace ErasedBy

variable {keys : Option GroupId → Option GroupId}
variable {db db' db'' : Keyspace} {gone gone' : List MessageId} {m : MessageId}

theorem refl (db : Keyspace) : ErasedBy keys db [] db where
  settings := rfl
  hash _ := by simp
  history _ := by simp
  lists _ := by simp
  zsets _ := by simp
  counter _ := by simp

section

variable (h : ErasedBy keys db gone db')

include h

theorem type_eq : db'.queueType? = db.queueType? :=
  congrArg Prod.fst h.settings

theorem hash_of_notMem (hm : m ∉ gone) : db'.hgetall m = db.hgetall m := by
  rw [h.hash, if_neg hm]

theorem status_of_notMem (hm : m ∉ gone) : db'.status m = db.status m := by
  rw [Keyspace.status, h.hash_of_notMem hm, Keyspace.status]

theorem clears_iff (hm : m ∉ gone) (p : Slot) : db'.Clears keys m p ↔ db.Clears keys m p := by
  rw [Keyspace.Clears, Keyspace.Clears, Keyspace.homeBy, Keyspace.homeBy, h.status_of_notMem hm,
    h.type_eq, Keyspace.groupOf, Keyspace.groupOf, h.hash_of_notMem hm]

theorem charges_iff (hm : m ∉ gone) (c : Counter) : db'.Charges m c ↔ db.Charges m c := by
  rw [Keyspace.Charges, Keyspace.Charges, h.status_of_notMem hm]

theorem status_of_mem (hm : m ∈ gone) : db'.status m = none := by
  rw [Keyspace.status, h.hash, if_pos hm]
  rfl

/-- Two deletions in a row. -/
theorem trans (h' : ErasedBy keys db' gone' db'')
    (hdisj : ∀ m ∈ gone', m ∉ gone) : ErasedBy keys db (gone ++ gone') db'' where
  settings := h'.settings.trans h.settings
  hash m := by
    rw [h'.hash, h.hash]
    by_cases hm' : m ∈ gone' <;> by_cases hm : m ∈ gone <;> simp [hm, hm']
  history m := by
    rw [h'.history, h.history]
    by_cases hm' : m ∈ gone' <;> by_cases hm : m ∈ gone <;> simp [hm, hm']
  lists k := by
    have hfilter : gone'.filter (db'.Clears keys · (.list k)) =
        gone'.filter (db.Clears keys · (.list k)) :=
      List.filter_congr fun m hm => decide_eq_decide.2 (h.clears_iff (hdisj m hm) _)
    rw [h'.lists, h.lists, hfilter, List.filter_append, List.diff_append]
  zsets k := by
    rw [h'.zsets, h.zsets, List.filter_filter]
    refine List.filter_congr fun e _ => ?_
    by_cases hm' : e.2 ∈ gone'
    · simp [hm', hdisj _ hm', h.clears_iff (hdisj _ hm')]
    · simp [hm']
  counter c := by
    have hcount : gone'.countP (db'.Charges · c) = gone'.countP (db.Charges · c) :=
      List.countP_congr fun m hm => by simp [h.charges_iff (hdisj m hm)]
    rw [h'.counter, h.counter, hcount, List.countP_append]
    omega

/-- Only the containers that are looked into matter. -/
theorem congr {keys' : Option GroupId → Option GroupId}
    (hhome : ∀ m ∈ gone, db.homeBy keys m = db.homeBy keys' m) : ErasedBy keys' db gone db' where
  settings := h.settings
  hash := h.hash
  history := h.history
  lists k := by
    have hfilter : gone.filter (db.Clears keys · (.list k)) =
        gone.filter (db.Clears keys' · (.list k)) :=
      List.filter_congr fun m hm => decide_eq_decide.2 (by simp only [Keyspace.Clears, hhome m hm])
    rw [h.lists, hfilter]
  zsets k := by
    rw [h.zsets]
    refine List.filter_congr fun e _ => decide_eq_decide.2
      (not_congr (and_congr_right fun hm => ?_))
    rw [Keyspace.Clears, Keyspace.Clears, hhome _ hm]
  counter := h.counter

end

end ErasedBy

section One

variable {db db' : Keyspace} {id : MessageId} {st : Status} {counter : Option Counter}
variable {type : Option QueueType} {group : Option GroupId}

/-- `ZREM` on an empty set does nothing. -/
theorem Keyspace.zrem_of_entries_nil {k : ZsetKey} (h : (db.zsets k).entries = []) :
    db.zrem k id = db := by
  have hrem : (db.zsets k).rem id = db.zsets k := by
    apply SortedSet.eq_of_entries
    simp [SortedSet.rem, h]
  rw [Keyspace.zrem, hrem, Keyspace.setZset, Function.update_eq_self]

theorem removeFromContainer_ok (hst : st ≠ .processing)
    (h : removeFromContainer type group id db st = .ok (counter, db')) :
    counter = counterOf st ∧ db' = db.removeAt id (st.home type group) := by
  obtain ⟨hcounter, ⟨rfl, hempty, rfl⟩ | ⟨-, hdb⟩⟩ := removeFromContainer_cases h
  · exact ⟨hcounter hst, (Keyspace.zrem_of_entries_nil hempty).symm⟩
  · exact ⟨hcounter hst, hdb⟩

/-- The script fails on nothing but a delayed message. -/
theorem removeFromContainer_error {e : RedisError}
    (h : removeFromContainer type group id db st = .error e) :
    st = .unackDelaying ∧ (db.zsets .delayed).entries ≠ [] := by
  cases st with
  | unackDelaying =>
    simp only [removeFromContainer, Keyspace.lremOnZset] at h
    split at h
    · cases h
    · rename_i hne
      exact ⟨rfl, hne⟩
  | new | acknowledged | deadLettered | scheduled | unackRequeuing | pending | processing =>
    cases h

theorem Keyspace.settings_removeAt (db : Keyspace) (id : MessageId) (p : Option Slot) :
    (db.removeAt id p).settings = db.settings := by
  rcases p with _ | _ | _ <;> rfl

theorem Keyspace.hgetall_removeAt (db : Keyspace) (id m : MessageId) (p : Option Slot) :
    (db.removeAt id p).hgetall m = db.hgetall m := by
  rcases p with _ | _ | _ <;> rfl

theorem Keyspace.history_removeAt (db : Keyspace) (id : MessageId) (p : Option Slot) :
    (db.removeAt id p).history = db.history := by
  rcases p with _ | _ | _ <;> rfl

theorem Keyspace.counter_removeAt (db : Keyspace) (id : MessageId) (p : Option Slot) (c : Counter) :
    (db.removeAt id p).counter c = db.counter c := by
  rcases p with _ | _ | _ <;> rfl

theorem Keyspace.lists_removeAt (db : Keyspace) (id : MessageId) (p : Option Slot) (k : ListKey) :
    (db.removeAt id p).lists k =
      if p = some (.list k) then (db.lists k).erase id else db.lists k := by
  rcases p with _ | k' | k'
  · rfl
  · by_cases hk : k = k'
    · subst hk
      simp [Keyspace.removeAt, Keyspace.lrem, Keyspace.setList]
    · simp [Keyspace.removeAt, Keyspace.lrem, Keyspace.setList, hk, Ne.symm hk]
  · rfl

theorem Keyspace.zsets_removeAt (db : Keyspace) (id : MessageId) (p : Option Slot) (k : ZsetKey) :
    (db.removeAt id p).zsets k =
      if p = some (.zset k) then (db.zsets k).rem id else db.zsets k := by
  rcases p with _ | k' | k'
  · rfl
  · rfl
  by_cases hk : k = k'
  · subst hk
    simp [Keyspace.removeAt, Keyspace.zrem, Keyspace.setZset]
  · simp [Keyspace.removeAt, Keyspace.zrem, Keyspace.setZset, hk, Ne.symm hk]

/-- The published messages are no container of a status. -/
theorem Status.home_ne_published (type : Option QueueType) (group : Option GroupId) (st : Status) :
    st.home type group ≠ some (.list .published) := by
  cases st with
  | pending =>
    cases type with
    | none => simp [Status.home]
    | some type => cases type <;> simp [Status.home, pendingSlot]
  | _ => simp [Status.home]

theorem hgetall_eraseMessage (db : Keyspace) (counter : Option Counter) (m : MessageId) :
    (eraseMessage id counter db).hgetall m = if m = id then none else db.hgetall m := by
  have hdel : (eraseMessage id counter db).hgetall m = (db.del id).hgetall m := by
    cases counter <;> rfl
  rw [hdel]
  by_cases hm : m = id
  · rw [if_pos hm, hm, Keyspace.hgetall_del_self]
  · rw [if_neg hm, db.hgetall_del_ne id m hm]

theorem history_eraseMessage (db : Keyspace) (counter : Option Counter) (m : MessageId) :
    (eraseMessage id counter db).history m = if m = id then [] else db.history m := by
  have hdel : (eraseMessage id counter db).history m = (db.del id).history m := by
    cases counter <;> rfl
  rw [hdel, Keyspace.del]
  exact Function.update_apply _ _ _ _

theorem lists_eraseMessage (db : Keyspace) (counter : Option Counter) (k : ListKey) :
    (eraseMessage id counter db).lists k =
      if k = .published then (db.lists k).erase id else db.lists k := by
  have hlrem : (eraseMessage id counter db).lists k = (db.lrem .published id).lists k := by
    cases counter <;> rfl
  rw [hlrem, Keyspace.lrem, Keyspace.setList]
  by_cases hk : k = .published
  · subst hk
    simp
  · simp [hk]

theorem zsets_eraseMessage (db : Keyspace) (counter : Option Counter) :
    (eraseMessage id counter db).zsets = db.zsets := by
  cases counter <;> rfl

theorem counter_eraseMessage (db : Keyspace) (counter : Option Counter) (c : Counter) :
    (eraseMessage id counter db).counter c =
      db.counter c - (if c = .messages then 1 else 0) - if counter = some c then 1 else 0 := by
  cases counter with
  | none =>
    simp only [eraseMessage, Keyspace.counter_hincrby]
    split
    · simp
      rfl
    · simp
  | some c' =>
    simp only [eraseMessage, Keyspace.counter_hincrby, Option.some.injEq, eq_comm (a := c')]
    split <;> split <;> simp <;> rfl

/-- The script deletes one message. -/
theorem eraseMessage_erased {keys : Option GroupId → Option GroupId}
    (hst : db.status id = some st) :
    ErasedBy keys db [id]
      (eraseMessage id (counterOf st)
        (db.removeAt id (st.home db.queueType? (keys (db.groupOf id))))) := by
  have hhome : st.home db.queueType? (keys (db.groupOf id)) = db.homeBy keys id := by
    rw [Keyspace.homeBy, hst]
    rfl
  have hpublished : db.homeBy keys id ≠ some (.list .published) := by
    rw [← hhome]
    exact st.home_ne_published _ _
  rw [hhome]
  refine ⟨?_, fun m => ?_, fun m => ?_, fun k => ?_, fun k => ?_, fun c => ?_⟩
  · rw [(eraseMessage_frame id _ _).settings, Keyspace.settings_removeAt]
  · rw [hgetall_eraseMessage, Keyspace.hgetall_removeAt]
    simp
  · rw [history_eraseMessage, Keyspace.history_removeAt]
    simp
  · rw [lists_eraseMessage, Keyspace.lists_removeAt]
    by_cases hk : k = .published
    · subst hk
      simp [hpublished, Keyspace.Clears]
    · by_cases hhome : db.homeBy keys id = some (.list k) <;>
        simp [hk, hhome, Keyspace.Clears]
  · rw [zsets_eraseMessage, Keyspace.zsets_removeAt]
    by_cases hhome : db.homeBy keys id = some (.zset k)
    · rw [if_pos hhome, SortedSet.rem]
      refine List.filter_congr fun e _ => ?_
      by_cases he : e.2 = id
      · simp [he, Keyspace.Clears, hhome]
      · simp [he]
    · rw [if_neg hhome, eq_comm, List.filter_eq_self]
      intro e _
      by_cases he : e.2 = id
      · simp [he, Keyspace.Clears, hhome]
      · simp [he]
  · have hcharges : db.Charges id c ↔ c = .messages ∨ counterOf st = some c := by
      rw [Keyspace.Charges, hst]
      rfl
    have hmessages : counterOf st ≠ some .messages := by
      cases st <;> simp [counterOf]
    rw [counter_eraseMessage, Keyspace.counter_removeAt]
    by_cases hc : c = .messages
    · subst hc
      simp [hcharges, hmessages]
    · by_cases hcounter : counterOf st = some c <;> simp [hcharges, hc, hcounter]

end One

end RedisSmq
