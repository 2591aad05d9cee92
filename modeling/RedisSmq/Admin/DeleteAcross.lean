import RedisSmq.Admin.Delete
import RedisSmq.Message.Document

/-!
# Deleting messages of several queues while others work

`DeleteMessages` takes identifiers of messages of any queues. It reads the messages one by
one, groups them by the queue and the consumer group that their documents name, and runs
the script `delete-message` once for each group, on the keys of the queue. Between two of
these commands other clients may do anything: `Interference` is what they do before each.

A group is found under the name of its queue and the identifier of the consumer group, for
which `_` stands if there is none. A consumer group of that name is therefore mixed up with
the messages without a group, and the keys are then those of the first message.
-/

namespace RedisSmq

/-- The keys of all queues. The hash of a message is among the keys of its queue, and its
document names this queue. -/
structure World where
  queues : QueueParams → Keyspace
  home : MessageId → Option QueueParams

/-- A message as `GetMessages` returns it. -/
structure LoadedMessage where
  envelope : Envelope
  destinationQueue : Option QueueParams

/-- What other clients do before the command with this number. -/
abbrev Interference := Nat → World → World

/-- What the process draws for each message that it decodes: an identifier and the time. -/
abbrev Draws := Nat → MessageId × Nanos

namespace World

variable (w : World)

/-- The destination queue in the document of a message. -/
def destinationQueue (id : MessageId) (p : Params) : Option QueueParams :=
  (Document.decodeParams (AddressedParams.encode ⟨p, w.home id⟩)).bind
    AddressedParams.destinationQueue

/-- `GetMessage`: `none` if there is no hash, and nothing in it if it does not decode. -/
def getMessage (opts : ConsumeOptions) (draw : MessageId × Nanos) (id : MessageId) :
    Option (Option LoadedMessage) :=
  ((w.home id).bind fun q => (w.queues q).hgetall id).map fun h =>
    (Codec.decodeEnvelope opts draw.1 draw.2 h).map fun e =>
      ⟨e, h.message.bind (w.destinationQueue id)⟩

def setQueue (q : QueueParams) (db : Keyspace) : World :=
  { w with queues := Function.update w.queues q db }

end World

/-- The hashes that are in the first keyspace and not in the second one. -/
def Keyspace.removed (db db' : Keyspace) : List MessageId :=
  db.messages.keys.filter fun id => (db'.hgetall id).isNone

section Call

variable (env : Interference) (opts : ConsumeOptions) (draws : Draws)

/-- `GetMessages`, from the command with number `n` on. -/
def loadMessages : List MessageId → Nat → World → Option (List LoadedMessage) × Nat × World
  | [], n, w => (some [], n, w)
  | id :: ids, n, w =>
      let w := env n w
      match w.getMessage opts (draws n) id with
      | none => loadMessages ids (n + 1) w
      | some none => (none, n + 1, w)
      | some (some m) =>
          let (rest, n, w) := loadMessages ids (n + 1) w
          (rest.map (m :: ·), n, w)

variable (groupName : GroupId → String)

/-- The keys of the two maps under which a message is grouped. A message without a
destination queue is passed over. -/
def LoadedMessage.groupKey (m : LoadedMessage) : Option (QueueParams × String) :=
  m.destinationQueue.map fun q => (q, RedisSmq.groupKey groupName m.envelope.consumerGroupId)

/-- The messages under a key. -/
def messagesOf (messages : List LoadedMessage) (key : QueueParams × String) : List Envelope :=
  (messages.filter fun m => m.groupKey groupName = some key).map LoadedMessage.envelope

/-- The statistics so far and, for each script, the queue and the hashes it removed. -/
structure DeleteProgress where
  stats : DeleteStats
  removed : List (QueueParams × MessageId)

/-- The loop over the groups, from the command with number `n` on. -/
def deleteGroups (messages : List LoadedMessage) (lock : Option LockId) :
    List (QueueParams × String) → DeleteProgress → Nat → World →
      Except DeleteError DeleteProgress × World
  | [], progress, _, w => (.ok progress, w)
  | key :: keys, progress, n, w =>
      let w := env n w
      let group := (messagesOf groupName messages key).head?.bind Envelope.consumerGroupId
      let db := w.queues key.1
      match deleteMessageGroup group (messagesOf groupName messages key) lock db with
      | (db', .error e) => (.error e, w.setQueue key.1 db')
      | (db', .ok stats) =>
          deleteGroups messages lock keys
            { stats := progress.stats.add stats
              removed := progress.removed ++ (db.removed db').map (key.1, ·) }
            (n + 1) (w.setQueue key.1 db')

/-- `DeleteMessages`: the response and the hashes that its scripts removed. The order in
which the maps are traversed is any. -/
def deleteMessagesAcross
    (order : (keys : List (QueueParams × String)) → { keys' // List.Perm keys' keys })
    (ids : List MessageId) (lock : Option LockId) (w : World) :
    Except DeleteError (DeleteResponse × List (QueueParams × MessageId)) :=
  if ids = [] then .ok ({ status := .ok }, [])
  else
    match loadMessages env opts draws ids 0 w with
    | (none, _, _) => .error .undecodable
    | (some messages, n, w) =>
        let missing := ids.length - messages.length
        let stats : DeleteStats := { processed := missing, notFound := missing }
        if messages = [] then .ok ({ stats := stats }, [])
        else
          let keys := (messages.filterMap (LoadedMessage.groupKey groupName)).dedup
          match (deleteGroups env groupName messages lock (order keys).1 ⟨stats, []⟩ n w).1 with
          | .error e => .error e
          | .ok progress =>
              .ok ({ status := progress.stats.status, stats := progress.stats },
                progress.removed)

end Call

end RedisSmq
