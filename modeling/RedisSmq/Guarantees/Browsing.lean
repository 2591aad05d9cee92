import RedisSmq.Admin.Browse
import RedisSmq.Guarantees.Listing

/-!
# What browsing shows

The paging loop gives the contents of one key. Whether these are the messages of a
category is a question about the containers of the queue: every stored message is on the
list of published messages, every scheduled one is in the schedule, and every pending
one that is not popped is in the pending container of its consumer group. `BrowseMessages`
looks at the pending container without a group only.
-/

namespace RedisSmq

/-- The messages of a category; there are none of the audit lists. A pending message is
popped when it is in a processing list. -/
def InCategory (db : Keyspace) (m : MessageId) : BrowseFilter → Prop
  | .published => (db.hgetall m).isSome = true
  | .pending => db.status m = some .pending ∧ ∀ c, m ∉ db.lists (.processing c)
  | .scheduled => db.status m = some .scheduled
  | .acknowledged | .deadLettered => False

/-- The paging loop with pages of the given size ends, and what it gives has every message
of the category once. -/
def BrowsesAll (cfg : Config) (filter : BrowseFilter) (count : Nat) (db : Keyspace) : Prop :=
  ∃ n ids, (∀ fuel, n ≤ fuel → browseAll cfg filter count db fuel = some (.ok ids)) ∧
    ∀ m, InCategory db m filter → ids.count m = 1

/-- The steps after which the containers show the messages: a periodic message goes back
into the schedule only if it is still there, and no settlement brings back a deleted
message. -/
def System.KeepsListing (s : System) (a : Action) : Prop :=
  s.ReschedulesInPlace a ∧ s.SettlesStored a
  deriving Decidable

section State

variable {type : QueueType} {s : System} {m : MessageId}

theorem listing_of_runs {cfg : Config} {groups : List GroupId} {now : Nanos} {as : List Action}
    (halong : Run.Along System.step System.KeepsListing (System.created cfg type groups now) as)
    (hrun : (System.created cfg type groups now).Runs as s) : Located type s ∧ s.db.Lists := by
  refine Run.invariant_along (P := fun s => Located type s ∧ s.db.Lists) ?_
    ⟨Tracked.created cfg groups now, fun m => rfl⟩ halong hrun
  intro s a s' h hcond hstep
  exact ⟨h.1.step (Step.of_step hstep) hcond.1, lists_of_step hstep h.1 hcond.1 hcond.2 h.2⟩

/-- The number of occurrences under a key. -/
theorem count_idsAt (db : Keyspace) (p : Slot) (m : MessageId) :
    (db.idsAt p).count m = db.occ p m := by
  cases p with
  | list k => rfl
  | zset z =>
    by_cases hm : m ∈ db.zsets z
    · rw [Keyspace.idsAt, List.count_eq_one_of_mem (db.zsets z).nodup hm]
      simp [Keyspace.occ, hm]
    · rw [Keyspace.idsAt, List.count_eq_zero_of_not_mem hm]
      simp [Keyspace.occ, hm]

/-- A stored message with a status is a published one, and it is where it should be. -/
theorem Located.of_status (h : Located type s) {st : Status} (hst : s.db.status m = some st) :
    ∃ p x, s.origin m = some p ∧ At s.db m x ∧ Legal type p.consumerGroupId x ∧
      x.status = some st := by
  cases horigin : s.origin m with
  | none =>
    rw [(h.sane.blank m horigin).status_eq] at hst
    cases hst
  | some p =>
    obtain ⟨x, hx, hlegal⟩ := h.track m p horigin trivial
    exact ⟨p, x, rfl, hx, hlegal, by rw [← hx.status_eq]; exact hst⟩

/-- Scheduled messages are in the schedule. -/
theorem Located.scheduled (h : Located type s) (hst : s.db.status m = some .scheduled) :
    s.db.occ (.zset .scheduled) m = 1 := by
  obtain ⟨p, x, -, hx, hlegal, hstatus⟩ := h.of_status hst
  rw [hx.occ _ rfl]
  cases hlegal with
  | scheduled => exact if_pos rfl
  | gone | orphaned => cases hstatus
  | settled hst' | held _ hst' | waiting hst' =>
    rcases hst' with hst' | hst' <;> cases hst'.symm.trans hstatus
  | requeued hst' | delayed hst' => cases hst'.symm.trans hstatus

/-- Pending messages that are not popped are in the pending container of their group. -/
theorem Located.pending (h : Located type s) (hm : InCategory s.db m .pending) :
    ∃ g, ∀ g', s.db.occ (pendingSlot type g') m = if g' = g then 1 else 0 := by
  obtain ⟨hst, hpopped⟩ := hm
  obtain ⟨p, x, -, hx, hlegal, hstatus⟩ := h.of_status hst
  refine ⟨p.consumerGroupId, fun g' => ?_⟩
  rw [hx.occ _ (holds_pendingSlot type g')]
  have hplace : x.place = some (pendingSlot type p.consumerGroupId) := by
    cases hlegal with
    | waiting => rfl
    | gone | orphaned => cases hstatus
    | held c => exact absurd ((hx.mem_list rfl).2 rfl) (hpopped c)
    | settled hst' => rcases hst' with hst' | hst' <;> cases hst'.symm.trans hstatus
    | requeued hst' | delayed hst' | scheduled hst' => cases hst'.symm.trans hstatus
  rw [hplace]
  refine if_congr ?_ rfl rfl
  cases type <;> simp [pendingSlot, eq_comm]

end State

/-- A consumer group has a pending message that is not popped. -/
def GroupPending (type : QueueType) (db : Keyspace) : Prop :=
  ∃ g m, InCategory db m .pending ∧ 0 < db.occ (pendingSlot type (some g)) m

/-- The key that is browsed for the category. -/
def browsedSlot (type : QueueType) : BrowseFilter → Slot
  | .published => .list .published
  | .pending => pendingSlot type none
  | .scheduled => .zset .scheduled
  | .acknowledged => .list .acknowledged
  | .deadLettered => .list .deadLetter

/-- Browsing is complete if the key that it reads has every message of the category once. -/
theorem browsesAll_iff_occ {cfg : Config} {type : QueueType} {db : Keyspace}
    {filter : BrowseFilter} {count : Nat} (htype : db.queueType? = some type)
    (hfilter : filter = .published ∨ filter = .pending ∨ filter = .scheduled) (hcount : 1 ≤ count) :
    BrowsesAll cfg filter count db ↔
      ∀ m, InCategory db m filter → db.occ (browsedSlot type filter) m = 1 := by
  obtain ⟨q, hqueue, hq⟩ := Option.bind_eq_some_iff.1 htype
  have hkey : browseKey cfg q.type filter = .ok (browsedSlot type filter) := by
    rw [hq]
    rcases hfilter with rfl | rfl | rfl
    · rfl
    · cases type <;> rfl
    · rfl
  have hall := fun fuel => @browseAll_eq db _ cfg filter q hqueue hkey count fuel hcount
  constructor
  · rintro ⟨n, ids, hloop, hids⟩ m hm
    have hfuel := hall (max n ((db.idsAt (browsedSlot type filter)).length + 1)) (by omega)
    rw [hloop _ (le_max_left _ _)] at hfuel
    cases hfuel
    rw [← count_idsAt]
    exact hids m hm
  · intro h
    refine ⟨_, _, fun fuel hfuel => hall fuel hfuel, fun m hm => ?_⟩
    rw [count_idsAt]
    exact h m hm

/-- In every state that is reached by steps that meet the condition, paging through a
category shows every message of it once, except for the pending messages of consumer
groups, of which it shows none. -/
theorem browses_all_iff (cfg : Config) (type : QueueType) (groups : List GroupId) (now : Nanos)
    (as : List Action) (s : System)
    (halong : Run.Along System.step System.KeepsListing (System.created cfg type groups now) as)
    (hrun : (System.created cfg type groups now).Runs as s) (filter : BrowseFilter)
    (hfilter : filter = .published ∨ filter = .pending ∨ filter = .scheduled) (count : Nat)
    (hcount : 1 ≤ count) :
    BrowsesAll s.cfg filter count s.db ↔ (filter = .pending → ¬ GroupPending type s.db) := by
  obtain ⟨hloc, hlists⟩ := listing_of_runs halong hrun
  rw [browsesAll_iff_occ hloc.sane.type_eq hfilter hcount]
  rcases hfilter with rfl | rfl | rfl
  · refine iff_of_true (fun m hm => ?_) (fun h => by cases h)
    have hstored : (s.db.hgetall m).isSome = true := hm
    exact (hlists m).trans (if_pos hstored)
  · constructor
    · rintro h - ⟨g, m, hm, hocc⟩
      obtain ⟨g', hg'⟩ := hloc.pending hm
      have hnone := h m hm
      rw [browsedSlot, hg'] at hnone
      rw [hg'] at hocc
      by_cases hgroup : some g = g'
      · subst hgroup
        simp at hnone
      · rw [if_neg hgroup] at hocc
        exact Nat.lt_irrefl 0 hocc
    · intro h m hm
      obtain ⟨g', hg'⟩ := hloc.pending hm
      rw [browsedSlot, hg']
      cases g' with
      | none => exact if_pos rfl
      | some g => exact absurd ⟨g, m, hm, by rw [hg', if_pos rfl]; exact Nat.one_pos⟩ (h rfl)
  · exact iff_of_true (fun m hm => hloc.scheduled hm) (fun h => by cases h)

/-- A message is produced for a consumer group. -/
def groupMessage : List Action := [.produce promptMessage (some 5)]

/-- The message of the group is pending and not popped, and browsing the pending messages
ends at once without showing it. -/
theorem browse_misses_groupMessage :
    ∃ s, (System.created {} .fifo [5] 0).Runs groupMessage s ∧ InCategory s.db 0 .pending ∧
      browseAll {} .pending 10 s.db 1 = some (.ok []) ∧ ¬ BrowsesAll {} .pending 10 s.db := by
  refine ⟨_, rfl, ⟨rfl, fun c hmem => ?_⟩, rfl, ?_⟩
  · cases hmem
  · rw [@browsesAll_iff_occ _ .fifo _ _ _ rfl (.inr (.inl rfl)) (by decide)]
    intro h
    have hocc := h 0 ⟨rfl, fun c hmem => by cases hmem⟩
    cases hocc

/-- Three messages are produced and one of them is popped. -/
def twoLeft : List Action :=
  [.produce promptMessage none, .produce promptMessage none, .produce promptMessage none,
    .pop 7 none]

theorem browses_all_iff_twoLeft :
    ∃ s, (System.created {} .fifo [5] 0).Runs twoLeft s ∧ ¬ GroupPending .fifo s.db ∧
      BrowsesAll {} .pending 1 s.db := by
  have hgroup : ∀ s, (System.created {} .fifo [5] 0).Runs twoLeft s →
      ¬ GroupPending .fifo s.db := by
    rintro s hs ⟨g, m, -, hocc⟩
    cases hs
    exact Nat.lt_irrefl 0 hocc
  have hsome : (Run.exec System.step (System.created {} .fifo [5] 0) twoLeft).isSome = true := by
    decide
  obtain ⟨s, hs⟩ := Option.isSome_iff_exists.1 hsome
  refine ⟨s, hs, hgroup s hs, ?_⟩
  have hcfg : s.cfg = {} := by
    cases hs
    rfl
  rw [← hcfg]
  exact (browses_all_iff {} .fifo [5] 0 twoLeft s (by decide) hs .pending (.inr (.inl rfl)) 1
    (by decide)).2 fun _ => hgroup s hs

end RedisSmq
