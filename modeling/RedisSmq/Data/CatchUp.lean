import Mathlib.Data.List.Basic

/-!
# Copies that follow events

A copy is kept for every key, and events tell how the copies change. An event concerns one
key. `catchUp` is the copy after all events of a list that concern it: what a copy will be
once the events that are still under way have arrived.
-/

universe u v w

namespace CatchUp

variable {κ : Type u} {ε : Type v} {σ : Type w} [DecidableEq κ]
variable (key : ε → κ) (apply : ε → σ → σ)

/-- The copy for the key, after the events that concern it. -/
def catchUp (es : List ε) (k : κ) (x : σ) : σ :=
  (es.filter (key · = k)).foldl (fun x e => apply e x) x

variable {key apply} {es es' : List ε} {e : ε} {k : κ} {x : σ}

theorem catchUp_append :
    catchUp key apply (es ++ es') k x = catchUp key apply es' k (catchUp key apply es k x) := by
  simp [catchUp]

theorem catchUp_cons_self (h : key e = k) :
    catchUp key apply (e :: es) k x = catchUp key apply es k (apply e x) := by
  simp [catchUp, h]

theorem catchUp_cons_other (h : key e ≠ k) :
    catchUp key apply (e :: es) k x = catchUp key apply es k x := by
  simp [catchUp, h]

/-- No event concerns the key. -/
theorem catchUp_of_forall_ne (h : ∀ e ∈ es, key e ≠ k) : catchUp key apply es k x = x := by
  have hnone : es.filter (key · = k) = [] := by
    simpa [List.filter_eq_nil_iff] using h
  rw [catchUp, hnone]
  rfl

theorem catchUp_singleton_other (h : key e ≠ k) : catchUp key apply [e] k x = x :=
  catchUp_of_forall_ne fun _ he => List.mem_singleton.1 he ▸ h

/-- Only one event concerns the key. -/
theorem catchUp_of_mem (hone : (es.filter (key · = k)).length ≤ 1) (he : e ∈ es)
    (hkey : key e = k) : catchUp key apply es k x = apply e x := by
  have hmem : e ∈ es.filter (key · = k) := List.mem_filter.2 ⟨he, by simpa using hkey⟩
  obtain ⟨e', hsingle⟩ : ∃ e', es.filter (key · = k) = [e'] :=
    List.length_eq_one_iff.1 (Nat.le_antisymm hone (List.length_pos_of_mem hmem))
  rw [hsingle, List.mem_singleton] at hmem
  rw [catchUp, hsingle, hmem]
  rfl

variable [DecidableEq ε]

/-- An event that is taken out does not matter for other keys. -/
theorem catchUp_erase_other (h : key e ≠ k) :
    catchUp key apply (es.erase e) k x = catchUp key apply es k x := by
  have hfilter : (es.erase e).filter (key · = k) = es.filter (key · = k) := by
    rw [List.erase_filter.symm, List.erase_of_not_mem]
    simp [h]
  rw [catchUp, hfilter, catchUp]

/-- The only event that concerns the key is taken out. -/
theorem forall_ne_of_erase (hone : (es.filter (key · = k)).length ≤ 1) (he : e ∈ es)
    (hkey : key e = k) : ∀ e' ∈ es.erase e, key e' ≠ k := by
  intro e' he' hkey'
  have hmem : e ∈ es.filter (key · = k) := List.mem_filter.2 ⟨he, by simpa using hkey⟩
  have hmem' : e' ∈ (es.filter (key · = k)).erase e := by
    rw [List.erase_filter]
    exact List.mem_filter.2 ⟨he', by simpa using hkey'⟩
  have hlen := List.length_pos_of_mem hmem'
  rw [List.length_erase_of_mem hmem] at hlen
  omega

end CatchUp
