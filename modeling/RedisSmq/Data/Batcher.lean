import Mathlib.Algebra.Order.Group.Multiset
import Mathlib.Data.List.Flatten

/-!
# Batchers whose timer does not take the lock

A batcher collects entries and sends them in batches. Adding an entry and flushing are done
under a lock, and so is the flush of a full buffer. The first entry arms a timer, which
flushes the buffer as well, but without the lock: it copies the buffer, and empties it in a
second step. What other flushes copy in between is sent twice, and what is added in between
is lost. An unlocked flush that nothing comes in between of does neither.

The state is that of any number of batchers. `held` is what was added and not sent yet.
-/

universe u v

inductive BatchTimer where
  | off
  | armed
  | fired
  deriving DecidableEq, Repr

structure Batchers (β : Type u) (ε : Type v) where
  buffered : List (β × ε)
  timer : β → BatchTimer
  /-- The timers that have fired and whose flush has not begun. -/
  waiting : List β
  /-- The copies of unlocked flushes that have not emptied the buffer yet. -/
  copied : List (β × List ε)
  /-- The batches that are to be sent. -/
  outgoing : List (β × List ε)

inductive BatcherAction (β : Type u) (ε : Type v) where
  | add (b : β) (e : ε)
  | flush (b : β)
  /-- The timer fires and starts a goroutine. -/
  | fire (b : β)
  /-- The unlocked flush copies the buffer, unless it is empty. -/
  | copy (b : β)
  /-- The unlocked flush empties the buffer. -/
  | cut (b : β) (batch : List ε)

/-- The entries that an action adds. -/
def BatcherAction.added {β : Type u} {ε : Type v} : BatcherAction β ε → Multiset (β × ε)
  | .add b e => {(b, e)}
  | _ => 0

namespace Batchers

variable {β : Type u} {ε : Type v} (s : Batchers β ε)

def idle : Batchers β ε := ⟨[], fun _ => .off, [], [], []⟩

/-- The entries that are buffered or to be sent. -/
def held : Multiset (β × ε) :=
  (s.buffered : Multiset (β × ε)) + (s.outgoing.flatMap fun p => p.2.map (Prod.mk p.1) : List _)

/-- An unlocked flush of the batcher has copied the buffer and not emptied it. -/
def Copying (b : β) : Prop := b ∈ s.copied.map Prod.fst

/-- Nothing is added, flushed or copied in the middle of an unlocked flush. -/
def Exclusive : BatcherAction β ε → Prop
  | .add b _ | .flush b | .copy b => ¬ s.Copying b
  | .fire _ | .cut _ _ => True

/-- Only the batchers with the property are left. -/
def restrict (keep : β → Bool) : Batchers β ε :=
  { s with
    buffered := s.buffered.filter fun p => keep p.1
    waiting := s.waiting.filter keep
    copied := s.copied.filter fun p => keep p.1
    outgoing := s.outgoing.filter fun p => keep p.1 }

theorem held_restrict_le (keep : β → Bool) : (s.restrict keep).held ≤ s.held :=
  add_le_add (Multiset.coe_le.2 List.filter_sublist.subperm)
    (Multiset.coe_le.2 (List.filter_sublist.flatMap _).subperm)

section Buffer

variable [DecidableEq β]

instance (b : β) : Decidable (s.Copying b) := inferInstanceAs (Decidable (b ∈ _))

instance : ∀ x : BatcherAction β ε, Decidable (s.Exclusive x)
  | .add b _ | .flush b | .copy b => inferInstanceAs (Decidable (¬ s.Copying b))
  | .fire _ | .cut _ _ => isTrue trivial

def contents (b : β) : List ε := (s.buffered.filter fun p => p.1 = b).map Prod.snd

def setTimer (b : β) (t : BatchTimer) : β → BatchTimer := Function.update s.timer b t

/-- The buffer is emptied, and the batch goes out. -/
def emit (b : β) (batch : List ε) : Batchers β ε :=
  { s with
    buffered := s.buffered.filter fun p => p.1 ≠ b
    timer := s.setTimer b .off
    outgoing := (b, batch) :: s.outgoing }

/-- A flush under the lock. -/
def flush (b : β) : Batchers β ε :=
  if s.contents b = [] then s else s.emit b (s.contents b)

def append (b : β) (e : ε) : Batchers β ε :=
  { s with
    buffered := s.buffered ++ [(b, e)]
    timer := if s.timer b = .off then s.setTimer b .armed else s.timer }

/-- In the middle of an unlocked flush the buffer is as it was copied. -/
structure Orderly : Prop where
  nodup : (s.copied.map Prod.fst).Nodup
  contents : ∀ p ∈ s.copied, p.2 = s.contents p.1

variable {s} {b b' : β} {batch : List ε} {e : ε}

private theorem contents_filter (keep : β → Bool) (h : keep b = true) :
    ((s.buffered.filter fun p => keep p.1).filter fun p => p.1 = b).map Prod.snd =
      s.contents b := by
  rw [List.filter_filter, contents]
  congr 1
  refine List.filter_congr fun p _ => ?_
  by_cases hp : p.1 = b <;> simp [hp, h]

private theorem contents_emit (h : b' ≠ b) : (s.emit b batch).contents b' = s.contents b' :=
  contents_filter (fun b' => b' ≠ b) (by simpa using h)

private theorem contents_append (h : b' ≠ b) : (s.append b e).contents b' = s.contents b' := by
  simp [contents, append, List.filter_append, h.symm]

/-- Emptying the buffer of a batcher moves its contents to the outgoing batches. -/
theorem held_emit : (s.emit b (s.contents b)).held = s.held := by
  have hcontents : ((s.contents b).map (Prod.mk b) : List (β × ε)) =
      s.buffered.filter fun p => p.1 = b := by
    rw [contents, List.map_map]
    refine (List.map_congr_left fun p hp => ?_).trans (List.map_id _)
    rw [← of_decide_eq_true (List.mem_filter.1 hp).2]
    rfl
  have hsplit := Multiset.filter_add_not (fun p => p.1 = b) (s.buffered : Multiset (β × ε))
  rw [Multiset.filter_coe, Multiset.filter_coe] at hsplit
  unfold held emit
  rw [List.flatMap_cons, ← Multiset.coe_add, hcontents, ← hsplit, ← add_assoc]
  congr 1
  exact add_comm _ _

theorem held_flush : (s.flush b).held = s.held := by
  unfold flush
  split
  · rfl
  · exact held_emit

theorem held_append : (s.append b e).held = {(b, e)} + s.held := by
  unfold held append
  rw [← Multiset.coe_add, Multiset.coe_singleton, add_right_comm, add_comm]

namespace Orderly

theorem idle : (idle : Batchers β ε).Orderly :=
  ⟨List.nodup_nil, fun _ h => absurd h List.not_mem_nil⟩

theorem restrict (h : s.Orderly) (keep : β → Bool) : (s.restrict keep).Orderly := by
  refine ⟨h.nodup.sublist (List.filter_sublist.map _), fun p hp => ?_⟩
  obtain ⟨hp, hkeep⟩ := List.mem_filter.1 hp
  exact (h.contents p hp).trans (contents_filter keep hkeep).symm

/-- A change of the buffer of a batcher that is not in the middle of an unlocked flush. -/
private theorem of_contents {s' : Batchers β ε} (h : s.Orderly) (hb : ¬ s.Copying b)
    (hcopied : s'.copied = s.copied) (hcontents : ∀ b' ≠ b, s'.contents b' = s.contents b') :
    s'.Orderly := by
  refine ⟨hcopied ▸ h.nodup, fun p hp => ?_⟩
  rw [hcopied] at hp
  exact (h.contents p hp).trans
    (hcontents p.1 fun heq => hb (heq ▸ List.mem_map_of_mem hp)).symm

theorem append (h : s.Orderly) (hb : ¬ s.Copying b) : (s.append b e).Orderly :=
  h.of_contents hb rfl fun _ => contents_append

theorem flush (h : s.Orderly) (hb : ¬ s.Copying b) : (s.flush b).Orderly := by
  unfold Batchers.flush
  split
  · exact h
  · exact h.of_contents hb rfl fun _ => contents_emit

end Orderly

end Buffer

section Step

variable [DecidableEq β] [DecidableEq ε]

def step (size : Nat) : BatcherAction β ε → Option (Batchers β ε)
  | .add b e =>
      let s' := s.append b e
      some (if size ≤ (s'.contents b).length then s'.flush b else s')
  | .flush b => some (s.flush b)
  | .fire b =>
      if s.timer b = .armed then
        some { s with timer := s.setTimer b .fired, waiting := b :: s.waiting }
      else none
  | .copy b =>
      if b ∈ s.waiting then
        some
          { s with
            waiting := s.waiting.erase b
            copied := if s.contents b = [] then s.copied else (b, s.contents b) :: s.copied }
      else none
  | .cut b batch =>
      if (b, batch) ∈ s.copied then
        some { s.emit b batch with copied := s.copied.erase (b, batch) }
      else none

/-- A batch has been sent. -/
def sent (b : β) (batch : List ε) : Batchers β ε :=
  { s with outgoing := s.outgoing.erase (b, batch) }

/-- The entries that are in the buffer when it is emptied and in no batch of that flush. -/
def lost : BatcherAction β ε → Multiset (β × ε)
  | .cut b batch => ((s.contents b : Multiset ε) - batch).map (Prod.mk b)
  | _ => 0

variable {s} {s' : Batchers β ε} {size : Nat} {x : BatcherAction β ε} {b : β} {batch : List ε}

/-- A batch that is sent was held. -/
theorem held_sent (h : (b, batch) ∈ s.outgoing) :
    s.held = (batch.map (Prod.mk b) : List (β × ε)) + (s.sent b batch).held := by
  have hperm := ((List.perm_cons_erase h).flatMap_right fun p => p.2.map (Prod.mk p.1))
  rw [List.flatMap_cons] at hperm
  unfold held sent
  rw [Multiset.coe_eq_coe.2 hperm, ← Multiset.coe_add]
  exact add_left_comm _ _ _

namespace Orderly

theorem sent (h : s.Orderly) : (s.sent b batch).Orderly := ⟨h.nodup, h.contents⟩

/-- The copies stay exact if nothing comes in between. -/
theorem step (h : s.Orderly) (hx : s.Exclusive x) (hstep : s.step size x = some s') :
    s'.Orderly := by
  cases x with
  | add b e =>
    cases hstep
    split
    · exact (h.append hx).flush hx
    · exact h.append hx
  | flush b =>
    cases hstep
    exact h.flush hx
  | fire b =>
    obtain ⟨_, hs'⟩ := Option.ite_none_right_eq_some.1 hstep
    cases hs'
    exact ⟨h.nodup, h.contents⟩
  | copy b =>
    obtain ⟨_, hs'⟩ := Option.ite_none_right_eq_some.1 hstep
    cases hs'
    by_cases hempty : s.contents b = []
    · simp only [hempty, if_true]
      exact ⟨h.nodup, h.contents⟩
    simp only [hempty, if_false]
    refine ⟨List.nodup_cons.2 ⟨hx, h.nodup⟩, fun p hp => ?_⟩
    rcases List.mem_cons.1 hp with rfl | hp
    · rfl
    · exact h.contents p hp
  | cut b batch =>
    obtain ⟨hmem, hs'⟩ := Option.ite_none_right_eq_some.1 hstep
    cases hs'
    -- The other copies are of other batchers, whose buffers are not touched.
    have hnodup := ((List.perm_cons_erase hmem).map Prod.fst).nodup_iff.1 h.nodup
    refine ⟨(List.nodup_cons.1 hnodup).2, fun p hp => ?_⟩
    have hne : p.1 ≠ b := by
      intro heq
      have hfirst : p.1 ∈ (s.copied.erase (b, batch)).map Prod.fst := List.mem_map_of_mem hp
      exact (List.nodup_cons.1 hnodup).1 (heq ▸ hfirst)
    exact (h.contents p (List.mem_of_mem_erase hp)).trans
      (contents_filter (fun b' => b' ≠ b) (by simpa using hne)).symm

/-- Nothing is lost, and only what is added is held anew. -/
theorem held_step (h : s.Orderly) (hstep : s.step size x = some s') :
    s.lost x = 0 ∧ s'.held = x.added + s.held := by
  cases x with
  | add b e =>
    cases hstep
    refine ⟨rfl, ?_⟩
    split
    · exact held_flush.trans held_append
    · exact held_append
  | flush b =>
    cases hstep
    exact ⟨rfl, held_flush.trans (zero_add _).symm⟩
  | fire b | copy b =>
    obtain ⟨_, hs'⟩ := Option.ite_none_right_eq_some.1 hstep
    cases hs'
    exact ⟨rfl, (zero_add _).symm⟩
  | cut b batch =>
    obtain ⟨hmem, hs'⟩ := Option.ite_none_right_eq_some.1 hstep
    cases hs'
    obtain rfl : batch = s.contents b := h.contents _ hmem
    refine ⟨?_, held_emit.trans (zero_add _).symm⟩
    rw [lost, ← Multiset.eq_sub_of_add_eq (zero_add _), Multiset.map_zero]

end Orderly

end Step

end Batchers
