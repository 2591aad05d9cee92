import RedisSmq.Data.Line
import RedisSmq.Moves.Footprint
import RedisSmq.System.Origin

/-!
# What a step does to a pending list

The pending list of a FIFO or LIFO queue is a waiting line. Publishing a message, be it
produced, due or a copy, lets it enter; a retry lets it come back; a deletion takes it
out of the middle, and a pop serves it. All other steps leave the list alone. The
messages of a batch enter one after the other, so a step may stand for several events,
but they are all of one kind.
-/

namespace RedisSmq

/-- LIFO queues push new messages to the end that is popped. The pending container of
a priority queue is not a list. -/
def QueueType.discipline : QueueType → Line.Discipline
  | .fifo => .queue
  | .lifo | .priority => .stack

/-- The kind of event that an action causes on the pending list of the group. -/
def Action.Causes (g : Option GroupId) : Action → Line.Event MessageId → Prop
  | .produce .., .enter _ | .publishScheduled .., .enter _ | .requeueMessage .., .enter _ => True
  | .requeueImmediate .., .retry _ | .requeueDelayed .., .retry _ => True
  | .delete .., .remove _ => True
  | .pop _ group, .pop => group = g
  | _, _ => False

/-- Events of the kind lead from one content of the pending list to the other. -/
def Accounts (type : QueueType) (g : Option GroupId) (kind : Line.Event MessageId → Prop)
    (db db' : Keyspace) : Prop :=
  ∃ events : List (Line.Event MessageId), (∀ ev ∈ events, kind ev) ∧
    db'.lists (.pending g) = events.foldl (Line.onList type.discipline) (db.lists (.pending g))

namespace Accounts

variable {type : QueueType} {g : Option GroupId} {kind : Line.Event MessageId → Prop}
variable {db db' db'' : Keyspace}

theorem of_same (h : db'.lists (.pending g) = db.lists (.pending g)) :
    Accounts type g kind db db' :=
  ⟨[], by simp, h⟩

theorem refl (db : Keyspace) : Accounts type g kind db db := of_same rfl

theorem of_event {ev : Line.Event MessageId} (hev : kind ev)
    (h : db'.lists (.pending g) = Line.onList type.discipline (db.lists (.pending g)) ev) :
    Accounts type g kind db db' :=
  ⟨[ev], by simpa using hev, h⟩

theorem trans (h : Accounts type g kind db db') (h' : Accounts type g kind db' db'') :
    Accounts type g kind db db'' := by
  obtain ⟨events, hkind, hlist⟩ := h
  obtain ⟨events', hkind', hlist'⟩ := h'
  refine ⟨events ++ events', ?_, ?_⟩
  · intro ev hev
    rcases List.mem_append.1 hev with hev | hev
    · exact hkind ev hev
    · exact hkind' ev hev
  · rw [List.foldl_append, ← hlist, hlist']

theorem foldl {α : Type} {move : Keyspace → α → Keyspace} {args : List α}
    (hmove : ∀ db, ∀ a ∈ args, Accounts type g kind db (move db a)) :
    Accounts type g kind db (args.foldl move db) :=
  List.foldlRecOn (motive := Accounts type g kind db) args move (refl db)
    fun db' hdb a ha => hdb.trans (hmove db' a ha)

theorem of_writes {W : Set Slot} (h : Writes W db db') (hg : .list (.pending g) ∉ W) :
    Accounts type g kind db db' := of_same (h _ hg)

/-- A list that is not a pending list. -/
theorem other {k : ListKey} (hk : ListKey.pending g ≠ k) (db : Keyspace) (l : List MessageId) :
    Accounts type g kind db (db.setList k l) := by
  apply of_same
  exact Function.update_of_ne hk l db.lists

/-- An event on the pending list of some group. -/
theorem setList {group : Option GroupId} (ev : Line.Event MessageId) (hkind : group = g → kind ev)
    (db : Keyspace) :
    Accounts type g kind db
      (db.setList (.pending group)
        (Line.onList type.discipline (db.lists (.pending group)) ev)) := by
  by_cases hg : group = g
  · subst hg
    exact .of_event (hkind rfl) (Function.update_self _ _ _)
  have hne : ListKey.pending g ≠ .pending group := by
    intro heq
    cases heq
    exact hg rfl
  exact .of_same (Function.update_of_ne hne _ _)

end Accounts

section Scripts

variable {type : QueueType} {g group : Option GroupId} {kind : Line.Event MessageId → Prop}
variable {db db' : Keyspace} {id : MessageId} {priority : Option Nat}

section

variable (hlist : type ≠ .priority)

include hlist

end

end Scripts

end RedisSmq
