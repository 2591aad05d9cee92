import RedisSmq.Admin.Purge
import RedisSmq.Data.Paging

/-!
# Browsing messages

`BrowseMessages` gives one page of the identifiers under one key of the queue. Which key
that is depends on the filter, and for pending messages on the type of the queue. The
caller gets all pages by going on at the end of each page for as long as there is more.

Offsets and counts are 64-bit numbers in the source. A second page is only asked for
when the first one is shorter than the key, so their sum stays far from the bound.
-/

namespace RedisSmq

structure BrowseParams where
  filter : BrowseFilter
  offset : Int := 0
  count : Int := 0

structure BrowseResult where
  ids : List MessageId
  total : Nat
  offset : Int
  count : Nat
  hasMore : Bool
  deriving DecidableEq, Repr

inductive BrowseError where
  | queueNotFound
  | acknowledgedAuditDisabled
  | deadLetteredAuditDisabled
  deriving DecidableEq, Repr

def defaultBrowseCount : Int := 100

/-- `LRANGE` and `ZRANGE`: the elements from `start` to `stop`, where a negative number
counts from the end. -/
def redisRange {α : Type} (l : List α) (start stop : Int) : List α :=
  let start := if start < 0 then max (start + l.length) 0 else start
  let stop := if stop < 0 then stop + l.length else stop
  if stop < start ∨ l.length ≤ start then []
  else (l.drop start.toNat).take (stop - start + 1).toNat

/-- `browseList` and `browseSortedSet`. -/
def browseSlot (db : Keyspace) (p : Slot) (offset count : Int) : BrowseResult :=
  let ids := redisRange (db.idsAt p) offset (offset + count - 1)
  { ids := ids
    total := (db.idsAt p).length
    offset := offset
    count := ids.length
    hasMore := decide (offset + ids.length < (db.idsAt p).length) }

/-- The key that is browsed, or the error if the audit of such messages is disabled. -/
def browseKey (cfg : Config) (type : Option QueueType) : BrowseFilter → Except BrowseError Slot
  | .published => .ok (.list .published)
  | .pending =>
      if type = some .priority then .ok (.zset (.priority none)) else .ok (.list (.pending none))
  | .scheduled => .ok (.zset .scheduled)
  | .acknowledged =>
      if cfg.acknowledged.enabled then .ok (.list .acknowledged)
      else .error .acknowledgedAuditDisabled
  | .deadLettered =>
      if cfg.deadLettered.enabled then .ok (.list .deadLetter)
      else .error .deadLetteredAuditDisabled

def browseMessages (cfg : Config) (params : Option BrowseParams) (db : Keyspace) :
    Except BrowseError BrowseResult :=
  let params := params.getD { filter := .published }
  let count := if params.count ≤ 0 then defaultBrowseCount else params.count
  match db.queue with
  | none => .error .queueNotFound
  | some q =>
      match browseKey cfg q.type params.filter with
      | .error e => .error e
      | .ok p => .ok (browseSlot db p params.offset count)

/-- One page of the paging loop. -/
def browsePage (cfg : Config) (filter : BrowseFilter) (count : Int) (db : Keyspace)
    (offset : Int) : Except BrowseError (Paging.Page MessageId) :=
  (browseMessages cfg (some ⟨filter, offset, count⟩) db).map fun r => ⟨r.ids, r.hasMore⟩

/-- The paging loop from the offset 0 on; there is no result if the fuel does not suffice. -/
def browseAll (cfg : Config) (filter : BrowseFilter) (count : Int) (db : Keyspace) (fuel : Nat) :
    Option (Except BrowseError (List MessageId)) :=
  Paging.collect (browsePage cfg filter count db) fuel 0

section Pages

variable {db : Keyspace} {p : Slot} {cfg : Config} {filter : BrowseFilter}

/-- Within a list, a range of positive length is a window. -/
theorem redisRange_eq {α : Type} (l : List α) {n : Nat} (hn : 1 ≤ n) (offset : Nat) :
    redisRange l offset (offset + n - 1) = (l.drop offset).take n := by
  have hstart : ¬ (offset : Int) < 0 := by omega
  have hstop : ¬ (offset : Int) + n - 1 < 0 := by omega
  have hlength : ((offset : Int) + n - 1 - offset + 1).toNat = n := by omega
  unfold redisRange
  simp only [if_neg hstart, if_neg hstop, hlength, Int.toNat_natCast]
  by_cases hle : l.length ≤ offset
  · rw [if_pos (.inr (by exact_mod_cast hle)), List.drop_of_length_le hle, List.take_nil]
  · rw [if_neg (by omega)]

/-- The pages of a queue are windows of the key. -/
theorem browsePage_windows {q : QueueProps} (hqueue : db.queue = some q)
    (hkey : browseKey cfg q.type filter = .ok p) {n : Nat} (hn : 1 ≤ n) :
    Paging.Windows (browsePage cfg filter n db) (db.idsAt p) n := by
  intro offset _
  have hcount : ¬ (n : Int) ≤ 0 := by omega
  have hrange := redisRange_eq (db.idsAt p) hn offset
  simp only [browsePage, browseMessages, Option.getD_some, if_neg hcount, hqueue, hkey,
    browseSlot, hrange, Except.map, Paging.window]
  norm_cast

/-- The paging loop ends and gives the identifiers under the key, in their order. -/
theorem browseAll_eq {q : QueueProps} (hqueue : db.queue = some q)
    (hkey : browseKey cfg q.type filter = .ok p) {n fuel : Nat} (hn : 1 ≤ n)
    (hfuel : (db.idsAt p).length < fuel) :
    browseAll cfg filter n db fuel = some (.ok (db.idsAt p)) :=
  Paging.collect_eq hn (browsePage_windows hqueue hkey hn) fuel 0 (Nat.zero_le _)
    (by simpa using hfuel)

end Pages

end RedisSmq
