import RedisSmq.Scripts.Manage
import Mathlib.Data.List.Dedup

/-!
# Deleting messages by their identifiers

`DeleteMessages` loads the messages, groups them by the name of their consumer group, for
which `_` stands if there is none, and runs the script `delete-message` once for each name,
with the keys of the group of the first message. The messages of a consumer group with the
name `_` are thus mixed with those without a group. Identifiers without a hash are counted
as not found. A hash that does not decode makes the whole call fail before any script runs; a
script that fails makes it fail after the scripts of other groups may have run. The groups
come from a Go map, so their order is arbitrary: it is a parameter here.
-/

namespace RedisSmq

inductive DeleteStatus where
  | ok
  | partialSuccess
  | notDeleted
  deriving DecidableEq, Repr

structure DeleteResponse where
  status : DeleteStatus := .notDeleted
  stats : DeleteStats := {}
  deriving DecidableEq, Repr

/-- Why `DeleteMessages` fails. -/
inductive DeleteError where
  | undecodable
  | locked
  | notFound
  | unexpectedReply (r : Refusal)
  | script (e : RedisError)
  deriving DecidableEq, Repr

/-- `GetMessages`: a missing hash is skipped, one that does not decode is an error. -/
def getMessages (decode : MessageHash → Option Envelope) (db : Keyspace) :
    List MessageId → Option (List Envelope)
  | [] => some []
  | id :: ids =>
      match db.hgetall id with
      | none => getMessages decode db ids
      | some h => (decode h).bind fun e => (getMessages decode db ids).map (e :: ·)

/-- `deleteMessageGroup`: the script, and how its replies are read. -/
def deleteMessageGroup (group : Option GroupId) (messages : List Envelope) (lock : Option LockId)
    (db : Keyspace) : Keyspace × Except DeleteError DeleteStats :=
  match deleteMessage group lock (messages.map Envelope.id) db with
  | ⟨db, .error e⟩ => (db, .error (.script e))
  | ⟨db, .ok (.error .queueLocked)⟩ => (db, .error .locked)
  | ⟨db, .ok (.error .queueNotFound)⟩ => (db, .error .notFound)
  | ⟨db, .ok (.error r)⟩ => (db, .error (.unexpectedReply r))
  | ⟨db, .ok (.ok stats)⟩ => (db, .ok stats)

def DeleteStats.add (s t : DeleteStats) : DeleteStats where
  processed := s.processed + t.processed
  success := s.success + t.success
  notFound := s.notFound + t.notFound
  inProcess := s.inProcess + t.inProcess

section Groups

variable (groupName : GroupId → String)

/-- The key of a group in the map of groups. -/
def groupKey (group : Option GroupId) : String := (group.map groupName).getD "_"

/-- The messages under a key of the map. -/
def messagesUnder (messages : List Envelope) (key : String) : List Envelope :=
  messages.filter fun e => groupKey groupName e.consumerGroupId = key

/-- The loop over the groups. -/
def deleteMessageGroups (messages : List Envelope) (lock : Option LockId) :
    List String → DeleteStats → Keyspace → Keyspace × Except DeleteError DeleteStats
  | [], stats, db => (db, .ok stats)
  | key :: keys, stats, db =>
      let messages' := messagesUnder groupName messages key
      match deleteMessageGroup (messages'.head?.bind Envelope.consumerGroupId) messages'
          lock db with
      | (db, .error e) => (db, .error e)
      | (db, .ok stats') => deleteMessageGroups messages lock keys (stats.add stats') db

end Groups

/-- The status of a response follows from its statistics. -/
def DeleteStats.status (stats : DeleteStats) : DeleteStatus :=
  if stats.processed = stats.success ∧ 0 < stats.processed then .ok
  else if 0 < stats.success then .partialSuccess
  else .notDeleted

/-- `DeleteMessages`, with the order in which the map of groups is traversed. -/
def deleteMessages (groupName : GroupId → String) (decode : MessageHash → Option Envelope)
    (order : List String → List String) (ids : List MessageId) (lock : Option LockId)
    (db : Keyspace) : Keyspace × Except DeleteError DeleteResponse :=
  if ids = [] then (db, .ok { status := .ok })
  else
    match getMessages decode db ids with
    | none => (db, .error .undecodable)
    | some messages =>
        let missing := ids.length - messages.length
        let stats : DeleteStats := { processed := missing, notFound := missing }
        if messages = [] then (db, .ok { stats := stats })
        else
          let keys := order (messages.map fun e => groupKey groupName e.consumerGroupId).dedup
          match deleteMessageGroups groupName messages lock keys stats db with
          | (db, .error e) => (db, .error e)
          | (db, .ok stats) => (db, .ok { status := stats.status, stats := stats })

end RedisSmq
