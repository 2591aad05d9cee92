import Mathlib.Logic.Function.Basic
import RedisSmq.Data.Run
import RedisSmq.Message.Types

/-!
# The lock of the background workers

Every message handler builds a `Lock` on the key of its queue, with the identifier of its
consumer as the owner. So all handlers that one consumer has for a queue compare the key
with the same owner. `setter` is not part of Redis: it records the instance that has set the
key last.

An attempt and the setting of the flag that follows it are one step, because the mutex of
the instance is held in between. The key has a time to live, so it may vanish at any moment;
and the process of an instance may end without a release.
-/

namespace RedisSmq

abbrev LockInstance := Nat

structure WorkerLock where
  /-- The content of the key. -/
  key : Option ConsumerId
  setter : Option LockInstance
  /-- The flag `acquired` of the instances. -/
  acquired : LockInstance → Bool
  /-- The process of the instance has not ended. -/
  alive : LockInstance → Bool

inductive LockAction where
  /-- One turn of the loop of `Acquire`. -/
  | acquire (l : LockInstance)
  /-- A tick of `refreshLoop`. -/
  | refresh (l : LockInstance)
  | release (l : LockInstance)
  | exit (l : LockInstance)
  /-- The time to live of the key is over. -/
  | expire
  deriving DecidableEq, Repr

namespace WorkerLock

variable (owner : LockInstance → ConsumerId) (s : WorkerLock)

def initial : WorkerLock := ⟨none, none, fun _ => false, fun _ => true⟩

/-- `tryAcquire`: `SET NX` with the owner. -/
def tryAcquire (l : LockInstance) : WorkerLock :=
  match s.key with
  | none =>
      { s with
        key := some (owner l), setter := some l, acquired := Function.update s.acquired l true }
  | some _ => s

/-- Whether the scripts `extend-lock` and `release-lock` find the owner of the instance. -/
def ownerMatches (l : LockInstance) : Bool := decide (s.key = some (owner l))

/-- The script `release-lock`. -/
def releaseLock (l : LockInstance) : WorkerLock :=
  if s.ownerMatches owner l then { s with key := none } else s

def release (l : LockInstance) : WorkerLock :=
  if s.acquired l then
    { s.releaseLock owner l with acquired := Function.update s.acquired l false }
  else s

/-- An instance whose process has ended does nothing. A refresh changes nothing but the time
to live of the key, and what `extend-lock` replies is ignored. -/
def step : LockAction → Option WorkerLock
  | .acquire l => if s.alive l && !s.acquired l then some (s.tryAcquire owner l) else none
  | .refresh l => if s.alive l then some s else none
  | .release l => if s.alive l then some (s.release owner l) else none
  | .exit l => some { s with alive := Function.update s.alive l false }
  | .expire => some { s with key := none }

/-- The instance extends or removes the key in this step. -/
def Touches (l : LockInstance) : LockAction → Prop
  | .refresh l' => l' = l ∧ s.alive l ∧ s.acquired l ∧ s.ownerMatches owner l
  | .release l' => l' = l ∧ s.alive l ∧ s.acquired l ∧ s.ownerMatches owner l
  | .acquire _ | .exit _ | .expire => False

/-- The run leads from one state to the other. -/
def Runs (as : List LockAction) (s' : WorkerLock) : Prop :=
  Run.exec (step owner) s as = some s'

end WorkerLock

end RedisSmq
