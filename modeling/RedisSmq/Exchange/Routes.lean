import RedisSmq.Exchange.Index

/-!
# Indices of routing keys and patterns

Which writes keep the bindings of direct and topic exchanges in agreement. A transaction
reads some keys without watching them: whether the queue exists, the queues of the other
routing keys, and the routing keys of an exchange that is to be deleted. The agreement is
kept if what was read there still holds when the transaction is carried out.
-/

namespace RedisSmq.ExchangeStore

/-- What the transaction has read without watching it still holds. -/
def Current (s : ExchangeStore) : ExchangeWrite → Prop
  | .bind _ _ q _ _ => (s.queues q).isSome = true
  | .unbind kind p q r _ still =>
      still = true ↔
        ∃ r' ∈ s.routes ⟨kind, p.id⟩, r' ≠ r ∧ q ∈ s.routeQueues (⟨kind, p.id⟩, r')
  | .delete kind p found => ∀ r ∈ s.routes ⟨kind, p.id⟩, r ∈ found
  | _ => True

instance decidableCurrent (s : ExchangeStore) (w : ExchangeWrite) : Decidable (s.Current w) := by
  unfold Current
  split <;> infer_instance

/-- What a transaction knows of the routing keys when it is carried out. -/
def RoutesKnown (s : ExchangeStore) : ExchangeWrite → Prop
  | .unbind kind p q r last _ =>
      q ∈ s.routeQueues (⟨kind, p.id⟩, r) ∧
        last = decide ((s.routeQueues (⟨kind, p.id⟩, r)).length = 1)
  | .delete kind p found => ∀ r ∈ found, s.routeQueues (⟨kind, p.id⟩, r) = []
  | _ => True

theorem routesKnown_of_knows {K : Optimistic.Contract ExchangeStore ExchangeWrite} {c : Nat}
    (h : Knows K c s w) : s.RoutesKnown w := by
  cases w with
  | unbind kind p q r last still => exact h
  | delete kind p found => exact h.2
  | _ => trivial

variable {s s' : ExchangeStore} {w : ExchangeWrite} {e : ExchangeId} {c : Option Nat}

/-- The agreement depends on a part of the store only. -/
theorem RouteIndexed.of_same (h : s.RouteIndexed) (hbindings : ∀ kind e q,
      ⟨e, RouteKind.type kind⟩ ∈ s'.bindings q ↔ ⟨e, RouteKind.type kind⟩ ∈ s.bindings q)
    (hroutes : s'.routes = s.routes) (hqueues : s'.routeQueues = s.routeQueues)
    (htyped : ∀ i r q, q ∈ s.routeQueues (i, r) → s'.typeOf i.exchange = some i.kind.type)
    (hexist : s'.queues = s.queues) : s'.RouteIndexed where
  bound kind e q := by rw [hbindings, hqueues, h.bound]
  listed i r q hq := by
    rw [hroutes]
    exact h.listed i r q (hqueues ▸ hq)
  typed i r q hq := htyped i r q (hqueues ▸ hq)
  queue i r q hq := by
    rw [hexist]
    exact h.queue i r q (hqueues ▸ hq)

/-- An exchange that changes its type has no queues of another type. -/
theorem RouteIndexed.typed_of_retype (h : s.RouteIndexed) {t : Option ExchangeType}
    (htype : ∀ kind r q, q ∈ s.routeQueues (⟨kind, e⟩, r) → t = some kind.type)
    (hw : w.retypes = some (e, t)) (i : RouteIndex) (r : String) (q : QueueParams)
    (hq : q ∈ s.routeQueues (i, r)) : (s.apply c w).typeOf i.exchange = some i.kind.type := by
  rw [typeOf_apply, hw]
  dsimp only
  split
  · rename_i he
    subst he
    exact htype i.kind r q hq
  · exact h.typed i r q hq

theorem RouteIndexed.bind (h : s.RouteIndexed) {kind : RouteKind} {p : ExchangeParams}
    {q : QueueParams} {r : String} {type : QueueType} (hp : p.type = kind.type)
    (hfits : ∀ t, s.typeOf p.id = some t → t = p.type) (hq : (s.queues q).isSome = true) :
    (s.apply c (.bind kind p q r type)).RouteIndexed := by
  obtain ⟨e₀, t⟩ := p
  obtain rfl : t = kind.type := hp
  have hmem : ∀ {i r' q'}, q' ∈ (s.apply c (.bind kind ⟨e₀, kind.type⟩ q r type)).routeQueues
      (i, r') ↔ ((i, r') = (⟨kind, e₀⟩, r) ∧ q' = q) ∨ q' ∈ s.routeQueues (i, r') :=
    mem_update_sadd
  refine ⟨fun kind' e q' => ?_, fun i r' q' hq' => ?_, fun i r' q' hq' => ?_, fun i r' q' hq' => ?_⟩
  · refine mem_update_sadd.trans ((or_congr_right (h.bound kind' e q')).trans ?_)
    constructor
    · rintro (⟨rfl, heq⟩ | ⟨r', hr'⟩)
      · obtain ⟨rfl, hkind⟩ := ExchangeParams.mk.inj heq
        cases RouteKind.type_injective hkind
        exact ⟨r, hmem.2 (.inl ⟨rfl, rfl⟩)⟩
      · exact ⟨r', hmem.2 (.inr hr')⟩
    · rintro ⟨r', hr'⟩
      rcases hmem.1 hr' with ⟨heq, rfl⟩ | hold
      · cases heq
        exact .inl ⟨rfl, rfl⟩
      · exact .inr ⟨r', hold⟩
  · refine mem_update_sadd.2 ?_
    rcases hmem.1 hq' with ⟨heq, -⟩ | hold
    · cases heq
      exact .inl ⟨rfl, rfl⟩
    · exact .inr (h.listed i r' q' hold)
  · rcases hmem.1 hq' with ⟨heq, -⟩ | hold
    · cases heq
      simp [typeOf_apply, ExchangeWrite.retypes]
    · refine h.typed_of_retype (fun kind' r'' q'' hq'' => ?_) rfl i r' q' hold
      exact congrArg some (hfits _ (h.typed _ r'' q'' hq'')).symm
  · rcases hmem.1 hq' with ⟨-, rfl⟩ | hold
    · exact hq
    · exact h.queue i r' q' hold

/-- A queue that is the only one of its routing key. -/
theorem eq_of_length_eq_one {l : List QueueParams} {q q' : QueueParams} (hq : q ∈ l)
    (hlen : l.length = 1) (hq' : q' ∈ l) : q' = q := by
  obtain ⟨x, rfl⟩ := List.length_eq_one_iff.1 hlen
  rw [List.mem_singleton.1 hq, List.mem_singleton.1 hq']

section Unbind

variable {kind : RouteKind} {p : ExchangeParams} {q : QueueParams} {r : String}
variable {last still : Bool}

theorem mem_routeQueues_unbind {k : RouteIndex × String} {q' : QueueParams} :
    q' ∈ (s.apply c (.unbind kind p q r last still)).routeQueues k ↔
      q' ∈ s.routeQueues k ∧ ¬ (k = (⟨kind, p.id⟩, r) ∧ q' = q) := by
  cases last <;> cases still <;> exact mem_update_srem

theorem mem_routes_unbind {i : RouteIndex} {r' : String} :
    r' ∈ (s.apply c (.unbind kind p q r last still)).routes i ↔
      r' ∈ s.routes i ∧ ¬ (last = true ∧ i = ⟨kind, p.id⟩ ∧ r' = r) := by
  cases last with
  | false => cases still <;> exact (and_iff_left nofun).symm
  | true =>
    have hmem :
        r' ∈ Function.update s.routes ⟨kind, p.id⟩ (srem r (s.routes ⟨kind, p.id⟩)) i ↔ _ :=
      mem_update_srem
    simp only [true_and]
    cases still <;> exact hmem

theorem mem_bindings_unbind {p' : ExchangeParams} {q' : QueueParams} :
    p' ∈ (s.apply c (.unbind kind p q r last still)).bindings q' ↔
      p' ∈ s.bindings q' ∧ ¬ (still = false ∧ q' = q ∧ p' = p) := by
  cases still with
  | true => cases last <;> exact (and_iff_left nofun).symm
  | false =>
    have hmem : p' ∈ Function.update s.bindings q (srem p (s.bindings q)) q' ↔ _ :=
      mem_update_srem
    simp only [true_and]
    cases last <;> exact hmem

theorem RouteIndexed.unbind (h : s.RouteIndexed) (hp : p.type = kind.type)
    (hknown : s.RoutesKnown (.unbind kind p q r last still))
    (hcurrent : s.Current (.unbind kind p q r last still)) :
    (s.apply c (.unbind kind p q r last still)).RouteIndexed := by
  obtain ⟨e₀, t⟩ := p
  obtain rfl : t = kind.type := hp
  obtain ⟨hq, hlast⟩ := hknown
  refine ⟨fun kind' e q' => ?_, fun i r' q' hq' => ?_, fun i r' q' hq' => ?_, fun i r' q' hq' => ?_⟩
  · rw [mem_bindings_unbind, h.bound]
    simp only [mem_routeQueues_unbind]
    by_cases hsame : q' = q ∧ ExchangeParams.mk e kind'.type = ⟨e₀, kind.type⟩
    · -- the queue itself: it stays among the bindings if another routing key has it
      obtain ⟨rfl, heq⟩ := hsame
      obtain ⟨rfl, hkind⟩ := ExchangeParams.mk.inj heq
      cases RouteKind.type_injective hkind
      constructor
      · rintro ⟨-, hstill⟩
        have hstill : still = true := by simpa using hstill
        obtain ⟨r', -, hne, hr'⟩ := hcurrent.1 hstill
        exact ⟨r', hr', fun heq => hne (congrArg Prod.snd heq.1)⟩
      · rintro ⟨r', hr', hne⟩
        have hne : r' ≠ r := fun heq => hne ⟨by rw [heq], rfl⟩
        have hstill := hcurrent.2 ⟨r', h.listed _ r' _ hr', hne, hr'⟩
        exact ⟨⟨r', hr'⟩, fun hnot => by simp [hstill] at hnot⟩
    · rw [and_iff_left fun hnot => hsame hnot.2]
      refine exists_congr fun r' => (and_iff_left ?_).symm
      rintro ⟨heq, rfl⟩
      cases heq
      exact hsame ⟨rfl, rfl⟩
  · obtain ⟨hold, hne⟩ := mem_routeQueues_unbind.1 hq'
    refine mem_routes_unbind.2 ⟨h.listed i r' q' hold, ?_⟩
    rintro ⟨rfl, rfl, rfl⟩
    exact hne ⟨rfl, eq_of_length_eq_one hq (of_decide_eq_true hlast.symm) hold⟩
  · rw [typeOf_apply]
    exact h.typed i r' q' (mem_routeQueues_unbind.1 hq').1
  · have hold := h.queue i r' q' (mem_routeQueues_unbind.1 hq').1
    cases last <;> cases still <;> exact hold

end Unbind

theorem RouteIndexed.delete (h : s.RouteIndexed) {kind : RouteKind} {p : ExchangeParams}
    {found : List String} (hp : p.type = kind.type) (hfits : s.typeOf p.id = some p.type)
    (hknown : ∀ r ∈ found, s.routeQueues (⟨kind, p.id⟩, r) = [])
    (hcurrent : ∀ r ∈ s.routes ⟨kind, p.id⟩, r ∈ found) :
    (s.apply c (.delete kind p found)).RouteIndexed := by
  have hnone : ∀ r q, q ∉ s.routeQueues (⟨kind, p.id⟩, r) := by
    intro r q hq
    rw [hknown r (hcurrent r (h.listed _ r q hq))] at hq
    cases hq
  have hqueues : (s.apply c (.delete kind p found)).routeQueues = s.routeQueues := by
    funext k
    change (if _ then _ else _) = _
    split
    · rename_i hk
      rw [← hknown k.2 hk.2, ← hk.1]
    · rfl
  have htyped : ∀ kind' r q, q ∈ s.routeQueues (⟨kind', p.id⟩, r) → none = some kind'.type := by
    intro kind' r q hq
    have htype := hfits.symm.trans (h.typed _ r q hq)
    cases RouteKind.type_injective (hp.symm.trans (Option.some.inj htype))
    exact absurd hq (hnone r q)
  refine ⟨fun kind' e q => ?_, fun i r q hq => ?_, fun i r q hq => ?_, fun i r q hq => ?_⟩
  · rw [hqueues]
    exact h.bound kind' e q
  · rw [hqueues] at hq
    change r ∈ Function.update s.routes _ [] i
    rw [Function.update_of_ne]
    · exact h.listed i r q hq
    · rintro rfl
      exact hnone r q hq
  · rw [hqueues] at hq
    exact h.typed_of_retype htyped rfl i r q hq
  · rw [hqueues] at hq
    exact h.queue i r q hq

theorem RouteIndexed.deleteQueue (h : s.RouteIndexed) (q : QueueParams) :
    (s.apply c (.deleteQueue q)).RouteIndexed := by
  change RouteIndexed (if _ then _ else _)
  split
  · rename_i hnone
    refine ⟨h.bound, h.listed, h.typed, fun i r q' hq' => ?_⟩
    change (Function.update s.queues q none q').isSome = true
    rw [Function.update_of_ne]
    · exact h.queue i r q' hq'
    rintro rfl
    have hbound := (h.bound i.kind i.exchange q').2 ⟨r, hq'⟩
    rw [hnone] at hbound
    cases hbound
  · exact h

theorem RouteIndexed.createQueue (h : s.RouteIndexed) (q : QueueParams) (type : QueueType) :
    (s.apply c (.createQueue q type)).RouteIndexed := by
  change RouteIndexed (if _ then _ else _)
  split
  · exact h
  refine ⟨h.bound, h.listed, h.typed, fun i r q' hq' => ?_⟩
  change (Function.update s.queues q (some type) q').isSome = true
  rw [Function.update_apply]
  split
  · rfl
  · exact h.queue i r q' hq'

/-- A write that fits keeps the agreement if what was read without watching still holds. -/
theorem RouteIndexed.apply (h : s.RouteIndexed) (hdrop : w.isDrop = false) (htyped : w.Typed)
    (hfits : s.Fits w) (hknown : s.RoutesKnown w) (hcurrent : s.Current w) :
    (s.apply c w).RouteIndexed := by
  cases w with
  | save p policy =>
    refine h.of_same (fun _ _ _ => .rfl) rfl rfl
      (h.typed_of_retype (fun kind r q hq => ?_) rfl) rfl
    cases hfits.symm.trans (h.typed _ r q hq)
  | bind kind p q r type => exact h.bind htyped hfits hcurrent
  | bindFanout p q type =>
    refine h.of_same (fun kind e q' => ?_) rfl rfl
      (h.typed_of_retype (fun kind r q hq => ?_) rfl) rfl
    · refine mem_update_sadd.trans (or_iff_right fun heq => ?_)
      exact kind.type_ne_fanout ((congrArg ExchangeParams.type heq.2).trans htyped)
    · exact congrArg some (hfits _ (h.typed _ r q hq)).symm
  | unbind kind p q r last still => exact h.unbind htyped hknown hcurrent
  | unbindFanout p q =>
    refine h.of_same (fun kind e q' => ?_) rfl rfl h.typed rfl
    refine mem_update_srem.trans (and_iff_left fun heq => ?_)
    exact kind.type_ne_fanout ((congrArg ExchangeParams.type heq.2).trans htyped)
  | delete kind p found => exact h.delete htyped hfits hknown hcurrent
  | deleteFanout p =>
    refine h.of_same (fun _ _ _ => .rfl) rfl rfl
      (h.typed_of_retype (fun kind r q hq => ?_) rfl) rfl
    have htype := hfits.1.symm.trans (h.typed _ r q hq)
    exact absurd ((Option.some.inj htype).symm.trans htyped) kind.type_ne_fanout
  | createQueue q type => exact h.createQueue q type
  | deleteQueue q => exact h.deleteQueue q
  | _ => cases hdrop

theorem RouteIndexed.initial (queues : QueueParams → Option QueueType) :
    (initial queues).RouteIndexed where
  bound _ _ _ := iff_of_false nofun nofun
  listed _ _ _ hq := absurd hq List.not_mem_nil
  typed _ _ _ hq := absurd hq List.not_mem_nil
  queue _ _ _ hq := absurd hq List.not_mem_nil

end RedisSmq.ExchangeStore
