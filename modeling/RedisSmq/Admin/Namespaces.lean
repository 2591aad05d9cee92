import RedisSmq.Admin.Managed
import RedisSmq.Exchange.Calls

/-!
# Deletion of a namespace

A namespace is an element of the set of all namespaces, and it has a set of queues and a set
of exchanges. `Delete` looks up the queues and deletes them one after the other, then the
exchanges, and at last it takes the namespace out of the set. Each deletion has its own
checks, and the first one that fails ends the call. The error that the loops pass over is
that of a missing namespace, which neither of the two stores returns.

Between two commands other clients may do anything: `Others` is what they do before each.
The members of a set are in the order in which `SMEMBERS` returns them, which is any. Of a
queue the realm has what the deletion reads, and the exchanges that it is bound to are those
of the store of exchanges.
-/

namespace RedisSmq

/-- `unicode.ToLower`. Outside ASCII there are two characters that become a letter of ASCII;
any other one makes a key invalid, before as after. -/
def lowerKeyChar (c : Char) : Char :=
  if c = '\u0130' then 'i' else if c = '\u212a' then 'k' else c.toLower

def validateKey (key : String) : Option String :=
  let key := String.ofList (key.toList.map lowerKeyChar)
  if ValidKey key then some key else none

/-- A queue or an exchange of a namespace. -/
inductive Member where
  | queue (q : QueueParams)
  | exchange (p : ExchangeParams)
  deriving DecidableEq

/-- A queue is known by its parameters and an exchange by its name. -/
abbrev MemberKey := QueueParams ⊕ ExchangeId

def Member.key : Member → MemberKey
  | .queue q => .inl q
  | .exchange p => .inr p.id

/-- The errors of the two stores, and the one that the loops pass over. -/
inductive StoreError where
  | namespaceNotFound
  | queue (reply : ManageReply)
  | exchange (e : ExchangeError)
  deriving DecidableEq

inductive NamespaceError where
  | nameRequired
  | invalidName
  | notFound
  | deleteQueue (name : String) (e : StoreError)
  | deleteExchange (name : String) (e : StoreError)
  deriving DecidableEq

/-- The error with which a loop ends. -/
def Member.failure (e : StoreError) : Member → NamespaceError
  | .queue q => .deleteQueue q.name e
  | .exchange p => .deleteExchange p.id.name e

/-- `validate`. -/
def validateNamespace (name : String) : Except NamespaceError String :=
  if name = "" then .error .nameRequired
  else
    match validateKey name with
    | none => .error .invalidName
    | some ns => .ok ns

structure Realm where
  namespaces : List String
  allQueues : List QueueParams
  nsQueues : String → List QueueParams
  queues : QueueParams → Managed
  exchanges : ExchangeStore

/-- What other clients do before the command with this number. -/
abbrev Others := Nat → Realm → Realm

/-- Nobody else is there. -/
def nobody : Others := fun _ w => w

namespace Realm

variable (w : Realm)

/-- The queue with its bindings. -/
def managed (q : QueueParams) : Managed :=
  { w.queues q with bindings := (w.exchanges.bindings q).length }

/-- What the script `delete-queue` leaves of the realm, once its checks have passed. -/
def dropQueue (q : QueueParams) (k : Managed) : Realm :=
  { w with
    allQueues := srem q w.allQueues
    nsQueues := Function.update w.nsQueues q.ns (srem q (w.nsQueues q.ns))
    queues := Function.update w.queues q k
    exchanges := w.exchanges.apply none (.deleteQueue q) }

/-- `delete-queue`, with what the caller has read. -/
def deleteQueueScript (q : QueueParams) (consumers : List ConsumerId) (groups : List GroupId)
    (processing : List ConsumerId) : ManageReply × Realm :=
  match (w.managed q).deleteQueue consumers groups processing
      (toString OperationalState.locked.int) none with
  | (.ok, k) => (.ok, w.dropQueue q k)
  | (reply, _) => (reply, w)

/-- A command to the store of exchanges. -/
def writeExchange (c : ExchangeWrite) : Realm :=
  { w with exchanges := w.exchanges.apply none c }

end Realm

section Stores

variable (others : Others)

/-- `Delete` of the store of queues, from the command with number `n` on. -/
def Realm.deleteQueue (q : QueueParams) (n : Nat) (w : Realm) :
    Option StoreError × Nat × Realm :=
  let w := others n w
  let consumers := (w.queues q).consumers
  let w := others (n + 1) w
  let groups := (w.queues q).db.groups
  let w := others (n + 2) w
  let processing := (w.queues q).processing
  let (reply, w) := (others (n + 3) w).deleteQueueScript q consumers groups processing
  (if reply = .ok then none else some (.queue reply), n + 4, w)

/-- What a client of the store of exchanges finds in the realm. -/
def Realm.exchangeSurroundings :
    Optimistic.Surroundings ExchangeStore ExchangeWrite Realm where
  view := Realm.exchanges
  write c w := w.writeExchange c
  before := others

/-- A program of the store of exchanges, from the command with number `n` on. -/
def Realm.run (program : ExchangeProgram) (n : Nat) (w : Realm) :
    ExchangeResult × Nat × Realm :=
  program.run exchangeServer (exchangeSurroundings others) n w

variable (order : SetOrder)

/-- `Delete` of the store of exchanges. -/
def Realm.deleteExchange (p : ExchangeParams) (n : Nat) (w : Realm) :
    Option StoreError × Nat × Realm :=
  match Realm.run others (removeExchange p order) n w with
  | (.ok, n, w) => (none, n, w)
  | (.error e, n, w) => (some (.exchange e), n, w)

def Member.delete : Member → Nat → Realm → Option StoreError × Nat × Realm
  | .queue q => Realm.deleteQueue others q
  | .exchange p => Realm.deleteExchange others order p

end Stores

/-- Where a call has come to: its error, the members that it has deleted, the number of the
next command and the realm. -/
structure Deletion where
  error : Option NamespaceError
  removed : List Member
  next : Nat
  realm : Realm

section Manager

variable (others : Others) (order : SetOrder)

/-- The loop over the queues, or the exchanges, of the namespace. -/
def deleteMembers : List Member → List Member → Nat → Realm → Deletion
  | [], removed, n, w => ⟨none, removed, n, w⟩
  | x :: xs, removed, n, w =>
      match x.delete others order n w with
      | (none, n, w) => deleteMembers xs (removed ++ [x]) n w
      | (some e, n, w) =>
          if e = .namespaceNotFound then deleteMembers xs removed n w
          else ⟨some (x.failure e), removed, n, w⟩

/-- The loop over the queues of the namespace. -/
def deleteNamespaceQueues (ns : String) (w : Realm) : Deletion :=
  deleteMembers others order ((w.nsQueues ns).map .queue) [] 2 w

/-- The loop over the exchanges, after that over the queues. -/
def deleteNamespaceExchanges (ns : String) (d : Deletion) : Deletion :=
  let w := others d.next d.realm
  deleteMembers others order ((w.exchanges.nsExchanges ns).map .exchange) d.removed (d.next + 1) w

/-- The namespace is taken out of the set. -/
def deleteNamespaceEntry (ns : String) (d : Deletion) : Deletion :=
  let w := others d.next d.realm
  { d with next := d.next + 1, realm := { w with namespaces := srem ns w.namespaces } }

/-- `Delete` of the namespace manager. -/
def deleteNamespace (name : String) (w : Realm) : Deletion :=
  match validateNamespace name with
  | .error e => ⟨some e, [], 0, w⟩
  | .ok ns =>
      let w := others 0 w
      if ns ∉ w.namespaces then ⟨some .notFound, [], 1, w⟩
      else
        let d := deleteNamespaceQueues others order ns (others 1 w)
        if d.error.isSome then d
        else
          let d := deleteNamespaceExchanges others order ns d
          if d.error.isSome then d else deleteNamespaceEntry others ns d

end Manager

end RedisSmq
