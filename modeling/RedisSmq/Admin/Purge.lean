import RedisSmq.Admin.Delete
import RedisSmq.Store.Laws

/-!
# Purging a category of messages

A purge reads the identifiers at the front of one key, deletes these messages, and then
cuts as many identifiers off the front of the key, until nothing is left in it. The key of
a category does not depend on the type of the queue nor on its consumer groups.

`purgeMessages` is the loop without interruption. Its fuel is the number of identifiers in
the key, plus one: every round takes at least one of them away.
-/

namespace RedisSmq

inductive BrowseFilter where
  | deadLettered
  | acknowledged
  | scheduled
  | pending
  | published
  deriving DecidableEq, Repr

/-- `resolveCategoryKey`. For the published messages it is the empty string, a key that
does not exist. -/
def resolveCategoryKey : BrowseFilter → Option Slot
  | .pending => some (.list (.pending none))
  | .scheduled => some (.zset .scheduled)
  | .acknowledged => some (.list .acknowledged)
  | .deadLettered => some (.list .deadLetter)
  | .published => none

def defaultPurgeBatchSize : Nat := 1000

namespace Keyspace

/-- The identifiers under a key, in its order. -/
def idsAt (db : Keyspace) : Slot → List MessageId
  | .list k => db.lists k
  | .zset k => (db.zsets k).entries.map Prod.snd

/-- `LRANGE` and `ZRANGE` from 0 to `count - 1`, which is the whole range for zero. -/
def range (db : Keyspace) (p : Slot) (count : Nat) : List MessageId :=
  if count = 0 then db.idsAt p else (db.idsAt p).take count

/-- `ZREM` of several members. -/
def zremAll (db : Keyspace) (k : ZsetKey) (ids : List MessageId) : Keyspace :=
  ids.foldl (fun db id => db.zrem k id) db

end Keyspace

/-- `fetchBatch`. A key that does not exist has no identifiers. -/
def fetchBatch (key : Option Slot) (count : Nat) (db : Keyspace) : List MessageId :=
  match key with
  | none => []
  | some p => db.range p count

def trimCategory (key : Option Slot) (count : Nat) (db : Keyspace) : Keyspace :=
  match key with
  | none => db
  | some (.list k) => db.setList k ((db.lists k).drop count)
  | some (.zset k) => db.zremAll k (db.range (.zset k) count)

section Loop

variable (groupName : GroupId → String) (decode : MessageHash → Option Envelope)
variable (order : List String → List String)
variable (key : Option Slot) (batchSize : Nat) (job : LockId)

/-- The loop of `purgeMessages`; there is no result if the fuel does not suffice. -/
def purgeLoop : Nat → Nat → Keyspace → Option (Keyspace × Except DeleteError Nat)
  | 0, _, _ => none
  | fuel + 1, purged, db =>
      let ids := fetchBatch key batchSize db
      if ids = [] then some (db, .ok purged)
      else
        match deleteMessages groupName decode order ids (some job) db with
        | (db, .error e) => some (db, .error e)
        | (db, .ok r) =>
            purgeLoop fuel (purged + r.stats.success) (trimCategory key ids.length db)

/-- `purgeMessages`, when nobody interferes and the job is not cancelled. -/
def purgeMessages (db : Keyspace) : Option (Keyspace × Except DeleteError Nat) :=
  purgeLoop groupName decode order key batchSize job ((key.elim [] db.idsAt).length + 1) 0 db

end Loop

end RedisSmq
