import RedisSmq.Exchange.Routes

/-!
# Removal of exchanges by the manager

`Store.Delete` sends single commands: the properties are deleted first, then the exchange is
taken out of the two registries, and the set of its routing keys or queues is deleted last.
In between, other clients may write. This module follows an exchange through the commands.
-/

namespace RedisSmq

/-- The exchange that the write binds a queue to. -/
def ExchangeWrite.binds : ExchangeWrite → Option ExchangeId
  | .bind _ p _ _ _ | .bindFanout p _ _ => some p.id
  | _ => none

end RedisSmq

namespace RedisSmq.ExchangeStore

open Optimistic

/-- The sets that `Store.Delete` looks at before its first command are empty. -/
def FoundEmpty (s : ExchangeStore) (p : ExchangeParams) (found : List String) : Prop :=
  (p.type = .fanout → s.fanoutQueues p.id = []) ∧
    ∀ kind : RouteKind, p.type = kind.type →
      (∀ r ∈ s.routes ⟨kind, p.id⟩, r ∈ found) ∧
        ∀ r ∈ found, s.routeQueues (⟨kind, p.id⟩, r) = []

/-- `Store.Delete` is called with the type that the exchange has. -/
def RightType (s : ExchangeStore) : ExchangeWrite → Prop
  | .dropProps p _ => s.typeOf p.id = some p.type
  | _ => True

instance decidableRightType (s : ExchangeStore) (w : ExchangeWrite) :
    Decidable (s.RightType w) := by
  unfold RightType
  split <;> infer_instance

instance decidableTyped : (w : ExchangeWrite) → Decidable w.Typed
  | .bind .. | .unbind .. | .delete .. => inferInstanceAs (Decidable (_ = _))
  | .bindFanout .. | .unbindFanout .. | .deleteFanout .. => inferInstanceAs (Decidable (_ = _))
  | .save .. | .dropProps .. | .dropListed .. | .dropNsListed .. | .dropIndex ..
  | .createQueue .. | .deleteQueue .. => inferInstanceAs (Decidable True)

instance decidableRemoving (s : ExchangeStore) (e : ExchangeId) : Decidable (s.Removing e) :=
  inferInstanceAs (Decidable (∃ x ∈ s.removing, x.2.id = e))

/-- A write with parameters of the right type that rests on nothing that has changed, and that
gives a type to no exchange, or takes it from none, that is being removed. -/
def Undisturbed (s : ExchangeStore) (w : ExchangeWrite) : Prop :=
  w.Typed ∧ s.Current w ∧ s.RightType w ∧ ∀ x ∈ w.retypes, ¬ s.Removing x.1
  deriving Decidable

/-- Nothing is left of the exchange, and no queue has it among its bindings. -/
structure Gone (s : ExchangeStore) (e : ExchangeId) : Prop where
  props : s.props e = none
  registers : ∀ t, ⟨e, t⟩ ∉ s.allExchanges ∧ ⟨e, t⟩ ∉ s.nsExchanges e.ns
  routes : ∀ kind, s.routes ⟨kind, e⟩ = []
  unbound : s.Unbound e
  bindings : ∀ q t, ⟨e, t⟩ ∉ s.bindings q

/-- The invariant of the runs in which exchanges are removed. -/
structure Removable (s : ExchangeStore) : Prop where
  listed : s.Listed
  fanout : s.FanoutIndexed
  route : s.RouteIndexed
  /-- An exchange with routing keys has their type, or is being removed. -/
  owned : ∀ kind e, s.routes ⟨kind, e⟩ ≠ [] →
    s.typeOf e = some kind.type ∨ ∃ x ∈ s.removing, x.2 = ⟨e, kind.type⟩
  known : ∀ q p n, p ∈ s.bindings q → p.type ≠ .unknown n

variable {s s' : ExchangeStore} {w : ExchangeWrite} {p : ExchangeParams} {c : Option Nat}

theorem Removable.initial (queues : QueueParams → Option QueueType) : (initial queues).Removable :=
  ⟨.initial queues, .initial queues, .initial queues, fun _ _ h => absurd rfl h,
    fun _ _ _ hp => absurd hp List.not_mem_nil⟩

/-- Only exchanges that get a type are added to the registries. -/
theorem Registers.of_apply {g : Registry} (h : (s.apply c w).Registers p g) :
    s.Registers p g ∨ ∃ t, w.retypes = some (p.id, t) := by
  have hlist : ∀ p' : ExchangeParams, (s.list p').Registers p g →
      s.Registers p g ∨ ∃ t, some (p'.id, some p'.type) = some (p.id, t) := by
    intro p' hp
    rcases (registers_list s p' p g).1 hp with rfl | hold
    · exact .inr ⟨_, rfl⟩
    · exact .inl hold
  cases w with
  | save p' policy | bind kind p' q r type | bindFanout p' q type =>
    refine hlist p' ?_
    cases g <;> exact h
  | unbind kind p' q r last still =>
    left
    cases last <;> cases still <;> cases g <;> exact h
  | delete kind p' found | deleteFanout p' =>
    left
    have hun : ((s.unlistAll p').unlistNs p').Registers p g := by cases g <;> exact h
    exact ((registers_unlistAll s p' p g).1 ((registers_unlistNs _ p' p g).1 hun).1).1
  | dropListed p' => exact .inl ((registers_unlistAll s p' p g).1 h).1
  | dropNsListed p' => exact .inl ((registers_unlistNs s p' p g).1 h).1
  | dropIndex p' =>
    left
    obtain ⟨e, t⟩ := p'
    cases t <;> cases g <;> exact h
  | createQueue q type | deleteQueue q =>
    left
    change ExchangeStore.Registers (if _ then _ else _) p g at h
    split at h
    · cases g <;> exact h
    · cases g <;> exact h
  | _ =>
    left
    cases g <;> exact h

section Writes

/-- An exchange that is not being removed has only routing keys of its type. -/
theorem Removable.typeOf_of_routes (h : s.Removable) {kind : RouteKind} {e : ExchangeId}
    (hnot : ¬ s.Removing e) (hroutes : s.routes ⟨kind, e⟩ ≠ []) : s.typeOf e = some kind.type := by
  rcases h.owned kind e hroutes with htype | ⟨x, hx, heq⟩
  · exact htype
  · exact absurd ⟨x, hx, by rw [heq]⟩ hnot

theorem Removable.owned_of_retype (h : s.Removable) {e : ExchangeId} {t : Option ExchangeType}
    (hw : w.retypes = some (e, t)) (hdrop : w.isDrop = false) (hnot : ¬ s.Removing e)
    (hroutes : ∀ i, i.exchange ≠ e → (s.apply c w).routes i = s.routes i)
    (htype : ∀ kind, (s.apply c w).routes ⟨kind, e⟩ ≠ [] → t = some kind.type)
    (kind : RouteKind) (e' : ExchangeId) (hne : (s.apply c w).routes ⟨kind, e'⟩ ≠ []) :
    (s.apply c w).typeOf e' = some kind.type ∨
      ∃ x ∈ (s.apply c w).removing, x.2 = ⟨e', kind.type⟩ := by
  rw [removing_apply hdrop, typeOf_apply, hw]
  dsimp only
  by_cases he : e' = e
  · subst he
    rw [if_pos rfl]
    exact .inl (htype kind hne)
  · rw [if_neg he]
    rw [hroutes ⟨kind, e'⟩ he] at hne
    exact h.owned kind e' hne

/-- A change of the index of one kind leaves that of the other kind. -/
theorem ne_of_update_kind {f : RouteIndex → List String} {kind kind₀ : RouteKind} {e : ExchangeId}
    {rs : List String} (hkind : kind ≠ kind₀)
    (h : Function.update f ⟨kind₀, e⟩ rs ⟨kind, e⟩ ≠ []) : f ⟨kind, e⟩ ≠ [] := by
  rwa [Function.update_of_ne (fun heq => hkind (congrArg RouteIndex.kind heq))] at h

theorem Removable.owned_apply (h : s.Removable) (hdrop : w.isDrop = false) (htyped : w.Typed)
    (hfits : s.Fits w) (hnot : ∀ e t, w.retypes = some (e, t) → ¬ s.Removing e)
    (kind : RouteKind) (e : ExchangeId) (hne : (s.apply c w).routes ⟨kind, e⟩ ≠ []) :
    (s.apply c w).typeOf e = some kind.type ∨
      ∃ x ∈ (s.apply c w).removing, x.2 = ⟨e, kind.type⟩ := by
  cases w with
  | save p policy =>
    refine h.owned_of_retype rfl hdrop (hnot _ _ rfl) (fun _ _ => rfl)
      (fun kind hne => ?_) kind e hne
    cases hfits.symm.trans (h.typeOf_of_routes (hnot _ _ rfl) hne)
  | bind kind₀ p q r type =>
    refine h.owned_of_retype rfl hdrop (hnot _ _ rfl) (fun i hi => ?_)
      (fun kind hne => ?_) kind e hne
    · exact Function.update_of_ne (fun heq => hi (by rw [heq])) _ _
    by_cases hkind : kind = kind₀
    · rw [hkind, htyped]
    · have hne : s.routes ⟨kind, p.id⟩ ≠ [] := ne_of_update_kind hkind hne
      exact congrArg some (hfits _ (h.typeOf_of_routes (hnot _ _ rfl) hne)).symm
  | bindFanout p q type =>
    refine h.owned_of_retype rfl hdrop (hnot _ _ rfl) (fun _ _ => rfl)
      (fun kind hne => ?_) kind e hne
    exact congrArg some (hfits _ (h.typeOf_of_routes (hnot _ _ rfl) hne)).symm
  | delete kind₀ p found =>
    refine h.owned_of_retype rfl hdrop (hnot _ _ rfl) (fun i hi => ?_)
      (fun kind hne => ?_) kind e hne
    · exact Function.update_of_ne (fun heq => hi (by rw [heq])) _ _
    by_cases hkind : kind = kind₀
    · subst hkind
      exact absurd (Function.update_self _ _ _) hne
    have hne : s.routes ⟨kind, p.id⟩ ≠ [] := ne_of_update_kind hkind hne
    have htype := hfits.symm.trans (h.typeOf_of_routes (hnot _ _ rfl) hne)
    exact absurd (RouteKind.type_injective (htyped.symm.trans (Option.some.inj htype))).symm
      hkind
  | deleteFanout p =>
    refine h.owned_of_retype rfl hdrop (hnot _ _ rfl) (fun _ _ => rfl)
      (fun kind hne => ?_) kind e hne
    have htype := hfits.1.symm.trans (h.typeOf_of_routes (hnot _ _ rfl) hne)
    exact absurd ((Option.some.inj htype).symm.trans htyped) kind.type_ne_fanout
  | unbind kind₀ p q r last still =>
    obtain ⟨r', hr'⟩ := List.exists_mem_of_ne_nil _ hne
    rw [typeOf_apply, removing_apply hdrop]
    exact h.owned kind e (List.ne_nil_of_mem (mem_routes_unbind.1 hr').1)
  | unbindFanout p q => exact h.owned kind e hne
  | createQueue q type | deleteQueue q =>
    rw [typeOf_apply, removing_apply hdrop]
    refine h.owned kind e ?_
    change ExchangeStore.routes (if _ then _ else _) _ ≠ [] at hne
    split at hne <;> exact hne
  | _ => cases hdrop

theorem Removable.known_apply (h : s.Removable) (hdrop : w.isDrop = false) (htyped : w.Typed)
    (q : QueueParams) (p : ExchangeParams) (n : Nat) (hp : p ∈ (s.apply c w).bindings q) :
    p.type ≠ .unknown n := by
  have hadd : ∀ (p' : ExchangeParams) (q' : QueueParams), p'.type ≠ .unknown n →
      p ∈ Function.update s.bindings q' (sadd p' (s.bindings q')) q → p.type ≠ .unknown n := by
    intro p' q' hne hp'
    rcases mem_update_sadd.1 hp' with ⟨-, rfl⟩ | hold
    · exact hne
    · exact h.known q p n hold
  cases w with
  | bind kind p' q' r type =>
    refine hadd p' q' ?_ hp
    rw [htyped]
    cases kind <;> nofun
  | bindFanout p' q' type =>
    refine hadd p' q' ?_ hp
    rw [htyped]
    nofun
  | unbind kind p' q' r last still => exact h.known q p n (mem_bindings_unbind.1 hp).1
  | unbindFanout p' q' => exact h.known q p n (mem_update_srem.1 hp).1
  | createQueue q' type | deleteQueue q' =>
    refine h.known q p n ?_
    change p ∈ ExchangeStore.bindings (if _ then _ else _) q at hp
    split at hp <;> exact hp
  | dropProps p found | dropListed p | dropNsListed p | dropIndex p => cases hdrop
  | _ => exact h.known q p n hp

/-- A write other than the commands of the manager. -/
theorem Removable.apply (h : s.Removable) (hdrop : w.isDrop = false) (htyped : w.Typed)
    (hfits : s.Fits w) (hknown : s.RoutesKnown w) (hcurrent : s.Current w)
    (hnot : ∀ e t, w.retypes = some (e, t) → ¬ s.Removing e) : (s.apply c w).Removable where
  listed := h.listed.apply hdrop hfits hnot
  fanout := h.fanout.apply hdrop hfits htyped
  route := h.route.apply hdrop htyped hfits hknown hcurrent
  owned := h.owned_apply hdrop htyped hfits hnot
  known := h.known_apply hdrop htyped

end Writes

section Commands

variable {found : List String} {client : Nat}

/-- No queue is bound to an exchange without a type. -/
theorem Removable.unbound_of_typeOf (h : s.Removable) {e : ExchangeId} (htype : s.typeOf e = none) :
    s.Unbound e where
  fanout q hq := nomatch htype.symm.trans (h.fanout.typed e q hq)
  route kind r q hq := nomatch htype.symm.trans (h.route.typed ⟨kind, e⟩ r q hq)

/-- No queue is bound to the exchange if the sets for its type are empty. -/
theorem Removable.unbound_of_found (h : s.Removable) (htype : s.typeOf p.id = some p.type)
    (hfound : s.FoundEmpty p found) : s.Unbound p.id := by
  obtain ⟨hfanout, hroute⟩ := hfound
  constructor
  · intro q hq
    rw [hfanout (Option.some.inj (htype.symm.trans (h.fanout.typed p.id q hq)))] at hq
    cases hq
  · intro kind r q hq
    obtain ⟨hfound, hempty⟩ :=
      hroute kind (Option.some.inj (htype.symm.trans (h.route.typed ⟨kind, p.id⟩ r q hq)))
    rw [hempty r (hfound r (h.route.listed _ r q hq))] at hq
    cases hq

theorem removing_dropProps :
    (s.apply (some client) (.dropProps p found)).removing = (client, p) :: s.removing := rfl

/-- The first command. -/
theorem Removable.dropProps (h : s.Removable) (hnot : ¬ s.Removing p.id)
    (htype : s.typeOf p.id = some p.type) (hfound : s.FoundEmpty p found) :
    (s.apply (some client) (.dropProps p found)).Removable := by
  have hunbound := h.unbound_of_found htype hfound
  have hne : ∀ x ∈ s.removing, x.2.id ≠ p.id := fun x hx he => hnot ⟨x, hx, he⟩
  have hregisters : ∀ p' g, (s.apply (some client) (.dropProps p found)).Registers p' g ↔
      s.Registers p' g := by
    intro p' g
    cases g <;> exact .rfl
  refine ⟨⟨fun e t g hrem => ?_, fun x hx => ?_, fun x hx t g ht => ?_, fun x hx y hy he => ?_⟩,
    ⟨h.fanout.bound, h.fanout.typed_of_retype (fun q hq => absurd hq (hunbound.fanout q)) rfl⟩,
    h.route.of_same (fun _ _ _ => .rfl) rfl rfl (h.route.typed_of_retype
      (fun kind r q hq => absurd hq (hunbound.route kind r q)) rfl) rfl,
    fun kind e hroutes => ?_, h.known⟩
  · have he : e ≠ p.id := fun he => hrem ⟨(client, p), .head _, he.symm⟩
    have hrem' : ¬ s.Removing e := fun ⟨x, hx, hxe⟩ => hrem ⟨x, .tail _ hx, hxe⟩
    rw [hregisters, h.listed.registers e t g hrem', typeOf_apply]
    simp [ExchangeWrite.retypes, he]
  · change Function.update s.props p.id none x.2.id = none
    rcases List.mem_cons.1 hx with rfl | hx
    · exact Function.update_self _ _ _
    · rw [Function.update_of_ne (hne x hx)]
      exact h.listed.dropped x hx
  · rw [hregisters] at ht
    rcases List.mem_cons.1 hx with rfl | hx
    · exact Option.some.inj (((h.listed.registers _ t g hnot).1 ht).symm.trans htype)
    · exact h.listed.removed x hx t g ht
  · rcases List.mem_cons.1 hx with rfl | hx <;> rcases List.mem_cons.1 hy with rfl | hy
    · rfl
    · exact absurd he.symm (hne y hy)
    · exact absurd he (hne x hx)
    · exact h.listed.unique x hx y hy he
  · rw [typeOf_apply, removing_dropProps]
    dsimp only [ExchangeWrite.retypes]
    split
    · rename_i he
      subst he
      have htype' := h.typeOf_of_routes hnot hroutes
      refine .inr ⟨(client, p), .head _, ?_⟩
      rw [← Option.some.inj (htype.symm.trans htype')]
    · rcases h.owned kind e hroutes with hold | ⟨x, hx, heq⟩
      · exact .inl hold
      · exact .inr ⟨x, .tail _ hx, heq⟩

/-- The commands that take the exchange out of the registries. -/
theorem Removable.unlist (h : s.Removable) {x : Nat × ExchangeParams} (hx : x ∈ s.removing)
    (hsame : s' = { s with allExchanges := s'.allExchanges, nsExchanges := s'.nsExchanges })
    (hregisters : ∀ p g, s'.Registers p g → s.Registers p g)
    (hother : ∀ p g, p.id ≠ x.2.id → s.Registers p g → s'.Registers p g) : s'.Removable := by
  generalize s'.allExchanges = all at hsame
  generalize s'.nsExchanges = ns at hsame
  subst hsame
  refine ⟨⟨fun e t g hrem => ?_, h.listed.dropped, fun y hy t g ht => ?_, h.listed.unique⟩,
    ⟨h.fanout.bound, h.fanout.typed⟩,
    ⟨h.route.bound, h.route.listed, h.route.typed, h.route.queue⟩, h.owned, h.known⟩
  · have he : e ≠ x.2.id := fun he => hrem ⟨x, hx, he.symm⟩
    refine Iff.trans ?_ (h.listed.registers e t g hrem)
    exact ⟨hregisters ⟨e, t⟩ g, hother ⟨e, t⟩ g he⟩
  · exact h.listed.removed y hy t g (hregisters _ g ht)

theorem Removable.dropListed (h : s.Removable) (hp : (client, p) ∈ s.removing) :
    (s.apply c (.dropListed p)).Removable := by
  refine h.unlist hp rfl (fun p' g hp' => ((registers_unlistAll s p p' g).1 hp').1) ?_
  exact fun p' g hne hp' =>
    (registers_unlistAll s p p' g).2 ⟨hp', fun _ heq => hne (congrArg ExchangeParams.id heq)⟩

theorem Removable.dropNsListed (h : s.Removable) (hp : (client, p) ∈ s.removing) :
    (s.apply c (.dropNsListed p)).Removable := by
  refine h.unlist hp rfl (fun p' g hp' => ((registers_unlistNs s p p' g).1 hp').1) ?_
  exact fun p' g hne hp' =>
    (registers_unlistNs s p p' g).2 ⟨hp', fun _ heq => hne (congrArg ExchangeParams.id heq)⟩

theorem routes_dropIndex (kind : RouteKind) (e : ExchangeId) :
    (s.apply c (.dropIndex p)).routes ⟨kind, e⟩ =
      if e = p.id ∧ p.type = kind.type then [] else s.routes ⟨kind, e⟩ := by
  obtain ⟨e₀, t⟩ := p
  by_cases he : e = e₀
  · subst he
    cases t <;> cases kind <;>
      simp [ExchangeStore.apply, setRoutes, setFanoutQueues, RouteKind.type]
  · cases t <;> cases kind <;> simp [ExchangeStore.apply, setRoutes, setFanoutQueues, he]

theorem mem_fanoutQueues_dropIndex {e : ExchangeId} {q : QueueParams}
    (hq : q ∈ (s.apply c (.dropIndex p)).fanoutQueues e) : q ∈ s.fanoutQueues e := by
  obtain ⟨e₀, t⟩ := p
  cases t with
  | fanout =>
    change q ∈ Function.update s.fanoutQueues e₀ [] e at hq
    rw [Function.update_apply] at hq
    split at hq
    · cases hq
    · exact hq
  | _ => exact hq

/-- What the last command leaves as it is. -/
theorem dropIndex_same :
    (s.apply c (.dropIndex p)).props = s.props ∧
      (s.apply c (.dropIndex p)).routeQueues = s.routeQueues ∧
      (s.apply c (.dropIndex p)).bindings = s.bindings ∧
      (s.apply c (.dropIndex p)).queues = s.queues ∧
      (s.apply c (.dropIndex p)).allExchanges = s.allExchanges ∧
      (s.apply c (.dropIndex p)).nsExchanges = s.nsExchanges := by
  obtain ⟨e₀, t⟩ := p
  cases t <;> exact ⟨rfl, rfl, rfl, rfl, rfl, rfl⟩

theorem mem_removing_dropIndex {x : Nat × ExchangeParams} :
    x ∈ (s.apply c (.dropIndex p)).removing ↔ x ∈ s.removing ∧ x.2.id ≠ p.id := by
  have hfilter : x ∈ s.removing.filter (fun x => x.2.id ≠ p.id) ↔
      x ∈ s.removing ∧ x.2.id ≠ p.id := by
    rw [List.mem_filter, decide_eq_true_iff]
  refine Iff.trans ?_ hfilter
  obtain ⟨e₀, t⟩ := p
  cases t <;> exact .rfl

theorem registers_dropIndex {p' : ExchangeParams} {g : Registry} :
    (s.apply c (.dropIndex p)).Registers p' g ↔ s.Registers p' g := by
  obtain ⟨-, -, -, -, hall, hns⟩ := @dropIndex_same s p c
  cases g with
  | all => exact iff_of_eq (congrArg (p' ∈ ·) hall)
  | ns => exact iff_of_eq (congrArg (p' ∈ · p'.id.ns) hns)

section Last

variable {client : Nat}

/-- The routing keys of an exchange whose removal is about to end are those of its type. -/
theorem Removable.type_of_routes (h : s.Removable) (hp : (client, p) ∈ s.removing)
    {kind : RouteKind} (hroutes : s.routes ⟨kind, p.id⟩ ≠ []) : p.type = kind.type := by
  rcases h.owned kind p.id hroutes with htype | ⟨x, hx, heq⟩
  · rw [typeOf, h.listed.dropped _ hp] at htype
    cases htype
  have hsame := h.listed.unique _ hp x hx (by rw [heq])
  rw [← hsame] at heq
  exact congrArg ExchangeParams.type heq

theorem Removable.routes_dropIndex_self (h : s.Removable) (hp : (client, p) ∈ s.removing)
    (kind : RouteKind) : (s.apply c (.dropIndex p)).routes ⟨kind, p.id⟩ = [] := by
  rw [routes_dropIndex]
  split
  · rfl
  rename_i hne
  by_contra hroutes
  exact hne ⟨rfl, h.type_of_routes hp hroutes⟩

/-- The registries do not list an exchange that was taken out of them. -/
theorem Removable.not_registers (h : s.Removable) (hp : (client, p) ∈ s.removing)
    (hout : ∀ g, ¬ s.Registers p g) (t : ExchangeType) (g : Registry) :
    ¬ s.Registers ⟨p.id, t⟩ g := by
  intro ht
  cases h.listed.removed _ hp t g ht
  exact hout g ht

/-- The last command. -/
theorem Removable.dropIndex (h : s.Removable) (hp : (client, p) ∈ s.removing)
    (hout : ∀ g, ¬ s.Registers p g) : (s.apply c (.dropIndex p)).Removable := by
  have hdropped : s.props p.id = none := h.listed.dropped _ hp
  have htype : s.typeOf p.id = none := by rw [typeOf, hdropped]; rfl
  have hunbound := h.unbound_of_typeOf htype
  obtain ⟨hprops, hqueues, hbindings, hexist, -, -⟩ := @dropIndex_same s p c
  refine ⟨⟨fun e t g hrem => ?_, fun x hx => ?_, fun x hx t g ht => ?_, fun x hx y hy he => ?_⟩,
    ⟨fun e q => ?_, fun e q hq => ?_⟩, ⟨fun kind e q => ?_, fun i r q hq => ?_, fun i r q hq => ?_,
      fun i r q hq => ?_⟩, fun kind e hroutes => ?_, fun q p' n hp' => ?_⟩
  · rw [registers_dropIndex, typeOf_apply]
    change _ ↔ s.typeOf e = some t
    by_cases he : e = p.id
    · subst he
      rw [htype]
      exact iff_of_false (h.not_registers hp hout t g) (Option.some_ne_none t).symm
    · refine h.listed.registers e t g fun hold => hrem ?_
      obtain ⟨x, hx, hxe⟩ := hold
      refine ⟨x, ?_, hxe⟩
      exact mem_removing_dropIndex.2 ⟨hx, fun heq => he (hxe ▸ heq)⟩
  · rw [hprops]
    exact h.listed.dropped x (mem_removing_dropIndex.1 hx).1
  · exact h.listed.removed x (mem_removing_dropIndex.1 hx).1 t g (registers_dropIndex.1 ht)
  · exact h.listed.unique x (mem_removing_dropIndex.1 hx).1 y (mem_removing_dropIndex.1 hy).1 he
  · rw [hbindings, ← h.fanout.bound e q]
    refine ⟨mem_fanoutQueues_dropIndex, fun hq => ?_⟩
    have hne : e ≠ p.id := fun he => hunbound.fanout q (he ▸ hq)
    obtain ⟨e₀, t⟩ := p
    cases t with
    | fanout =>
      change q ∈ Function.update s.fanoutQueues e₀ [] e
      rwa [Function.update_of_ne hne]
    | _ => exact hq
  · rw [typeOf_apply]
    exact h.fanout.typed e q (mem_fanoutQueues_dropIndex hq)
  · rw [hbindings, hqueues]
    exact h.route.bound kind e q
  · rw [hqueues] at hq
    obtain ⟨kind, e⟩ := i
    rw [routes_dropIndex, if_neg]
    · exact h.route.listed _ r q hq
    · rintro ⟨rfl, -⟩
      exact hunbound.route kind r q hq
  · rw [typeOf_apply]
    exact h.route.typed i r q (hqueues ▸ hq)
  · rw [hexist]
    exact h.route.queue i r q (hqueues ▸ hq)
  · have hne : e ≠ p.id := by
      rintro rfl
      exact hroutes (h.routes_dropIndex_self hp kind)
    rw [routes_dropIndex, if_neg fun he => hne he.1] at hroutes
    rw [typeOf_apply]
    rcases h.owned kind e hroutes with hold | ⟨x, hx, heq⟩
    · exact .inl hold
    · exact .inr ⟨x, mem_removing_dropIndex.2 ⟨hx, by rw [heq]; exact hne⟩, heq⟩
  · exact h.known q p' n (hbindings ▸ hp')

/-- After the last command, nothing is left of the exchange. -/
theorem Removable.gone (h : s.Removable) (hp : (client, p) ∈ s.removing)
    (hout : ∀ g, ¬ s.Registers p g) : (s.apply c (.dropIndex p)).Gone p.id := by
  have hdropped : s.props p.id = none := h.listed.dropped _ hp
  have h' := h.dropIndex (c := c) hp hout
  obtain ⟨hprops, -, -, -, hall, hns⟩ := @dropIndex_same s p c
  have hprops' : (s.apply c (.dropIndex p)).props p.id = none := by rw [hprops, hdropped]
  have hunbound := h'.unbound_of_typeOf (e := p.id) (by rw [typeOf, hprops']; rfl)
  refine ⟨hprops', fun t => ?_, h.routes_dropIndex_self hp, hunbound, fun q t ht => ?_⟩
  · rw [hall, hns]
    exact ⟨h.not_registers hp hout t .all, h.not_registers hp hout t .ns⟩
  cases t with
  | direct =>
    obtain ⟨r, hr⟩ := (h'.route.bound .direct p.id q).1 ht
    exact hunbound.route .direct r q hr
  | topic =>
    obtain ⟨r, hr⟩ := (h'.route.bound .topic p.id q).1 ht
    exact hunbound.route .topic r q hr
  | fanout => exact hunbound.fanout q ((h'.fanout.bound p.id q).2 ht)
  | unknown n => exact h'.known q _ n ht rfl

end Last

end Commands

/-! ## The checks -/

/-- No routing key and no queue is added to the exchange. -/
structure Dwindles (e : ExchangeId) (s s' : ExchangeStore) : Prop where
  routes : ∀ kind, s'.routes ⟨kind, e⟩ ⊆ s.routes ⟨kind, e⟩
  queues : ∀ kind r, s'.routeQueues (⟨kind, e⟩, r) ⊆ s.routeQueues (⟨kind, e⟩, r)
  fanout : s'.fanoutQueues e ⊆ s.fanoutQueues e

theorem Dwindles.refl (e : ExchangeId) (s : ExchangeStore) : Dwindles e s s :=
  ⟨fun _ => .refl _, fun _ _ => .refl _, .refl _⟩

theorem Dwindles.trans {e : ExchangeId} {s'' : ExchangeStore} (h : Dwindles e s s')
    (h' : Dwindles e s' s'') : Dwindles e s s'' where
  routes kind := List.Subset.trans (h'.routes kind) (h.routes kind)
  queues kind r := List.Subset.trans (h'.queues kind r) (h.queues kind r)
  fanout := List.Subset.trans h'.fanout h.fanout

/-- What was found empty stays so. -/
theorem FoundEmpty.mono {found : List String} (h : s.FoundEmpty p found)
    (hd : Dwindles p.id s s') : s'.FoundEmpty p found := by
  refine ⟨fun ht => ?_, fun kind ht => ⟨fun r hr => ?_, fun r hr => ?_⟩⟩
  · exact List.subset_nil.1 (h.1 ht ▸ hd.fanout)
  · exact (h.2 kind ht).1 r (hd.routes kind hr)
  · exact List.subset_nil.1 ((h.2 kind ht).2 r hr ▸ hd.queues kind r)

/-- Only a binding adds to the sets of an exchange. -/
theorem dwindles_apply {e : ExchangeId} (h : w.binds ≠ some e) : Dwindles e s (s.apply c w) := by
  have hupdate : ∀ {α β : Type} [DecidableEq α] (f : α → List β) (k k' : α) {l : List β},
      (k' = k → l ⊆ f k) → Function.update f k l k' ⊆ f k' := by
    intro α β _ f k k' l hl
    by_cases hk : k' = k
    · subst hk
      rw [Function.update_self]
      exact hl rfl
    · rw [Function.update_of_ne hk]
      exact .refl _
  cases w with
  | bind kind p q r type =>
    have hne : ∀ kind', (⟨kind', e⟩ : RouteIndex) ≠ ⟨kind, p.id⟩ :=
      fun kind' heq => h (congrArg some (congrArg RouteIndex.exchange heq).symm)
    exact ⟨fun kind' => hupdate _ _ _ fun heq => absurd heq (hne kind'),
      fun kind' r' => hupdate _ _ _ fun heq => absurd (congrArg Prod.fst heq) (hne kind'), .refl _⟩
  | bindFanout p q type =>
    exact ⟨fun _ => .refl _, fun _ _ => .refl _,
      hupdate _ _ _ fun heq => absurd (congrArg some heq.symm) h⟩
  | unbind kind p q r last still =>
    refine ⟨fun kind' r' hr' => (mem_routes_unbind.1 hr').1,
      fun kind' r' q' hq' => (mem_routeQueues_unbind.1 hq').1, ?_⟩
    cases last <;> cases still <;> exact .refl _
  | unbindFanout p q =>
    exact ⟨fun _ => .refl _, fun _ _ => .refl _, fun q' hq' => (mem_update_srem.1 hq').1⟩
  | delete kind p found =>
    refine ⟨fun _ => hupdate _ _ _ fun _ => List.nil_subset _, fun kind' r => ?_, .refl _⟩
    refine fun q hq => ?_
    change q ∈ if _ then _ else _ at hq
    split at hq
    · cases hq
    · exact hq
  | deleteFanout p =>
    exact ⟨fun _ => .refl _, fun _ _ => .refl _, hupdate _ _ _ fun _ => List.nil_subset _⟩
  | dropIndex p =>
    refine ⟨fun kind => ?_, fun kind r => ?_, fun q hq => mem_fanoutQueues_dropIndex hq⟩
    · rw [routes_dropIndex]
      split
      · exact List.nil_subset _
      · exact .refl _
    · rw [dropIndex_same.2.1]
      exact .refl _
  | createQueue q type | deleteQueue q =>
    change Dwindles e s (if _ then _ else _)
    split <;> exact ⟨fun _ => .refl _, fun _ _ => .refl _, .refl _⟩
  | _ => exact ⟨fun _ => .refl _, fun _ _ => .refl _, .refl _⟩

section Checks

variable {K : Contract ExchangeStore ExchangeWrite} {client : Nat} {known : ExchangeStore}

/-- The checks of the routing keys, as long as no queue is bound meanwhile. -/
theorem checkFound_safe {kind : RouteKind} {next : ExchangeProgram} (before : List String)
    {rs : List String} (hrely : ∀ s s', K.R client s s' → Dwindles p.id s s')
    (hroutes : ∀ r ∈ known.routes ⟨kind, p.id⟩, r ∈ before ++ rs)
    (hbefore : ∀ r ∈ before, known.routeQueues (⟨kind, p.id⟩, r) = [])
    (hnext : ∀ s, (∀ r ∈ s.routes ⟨kind, p.id⟩, r ∈ before ++ rs) →
      (∀ r ∈ before ++ rs, s.routeQueues (⟨kind, p.id⟩, r) = []) →
        next.Safe exchangeServer K client s) :
    (checkFound ⟨kind, p.id⟩ next rs).Safe exchangeServer K client known := by
  induction rs generalizing known before with
  | nil => exact hnext known hroutes (by simpa using hbefore)
  | cons r rs ih =>
    intro s hI hR
    have hd := hrely _ _ hR
    dsimp only
    split
    · trivial
    rename_i hempty
    refine ih (before ++ [r]) (fun r' hr' => ?_) (fun r' hr' => ?_) (by simpa using hnext)
    · simpa using hroutes r' (hd.routes kind hr')
    · rcases List.mem_append.1 hr' with hr' | hr'
      · exact List.subset_nil.1 (hbefore r' hr' ▸ hd.queues kind r')
      · rw [List.mem_singleton.1 hr']
        exact List.eq_nil_of_length_eq_zero (Nat.eq_zero_of_not_pos hempty)

/-- `Store.Delete` starts its pipeline with what it has looked at still empty, as long as no
queue is bound to the exchange meanwhile. -/
theorem removeExchange_safe {order : SetOrder}
    (hrely : ∀ s s', K.R client s s' → Dwindles p.id s s')
    (h : ∀ found s, s.FoundEmpty p found →
      (removalPipeline p found).Safe exchangeServer K client s) :
    (removeExchange p order).Safe exchangeServer K client known := by
  have hkind : ∀ kind : RouteKind, p.type = kind.type → ∀ known,
      (removeRoutes ⟨kind, p.id⟩ p order).Safe exchangeServer K client known := by
    intro kind htype known s hI hR
    refine checkFound_safe [] hrely (fun r hr => (order.perm _).mem_iff.2 hr)
      (fun r hr => absurd hr List.not_mem_nil) fun s' hroutes hqueues => h _ s' ⟨fun ht => ?_, ?_⟩
    · exact absurd (htype.symm.trans ht) kind.type_ne_fanout
    · intro kind' hkind'
      cases RouteKind.type_injective (htype.symm.trans hkind')
      exact ⟨hroutes, hqueues⟩
  intro s hI hR
  dsimp only
  split
  · trivial
  split
  · rename_i ht
    exact hkind .direct ht s
  · rename_i ht
    exact hkind .topic ht s
  · rename_i ht
    intro s' hI' hR'
    dsimp only
    split
    · trivial
    rename_i hempty
    refine h [] s' ⟨fun _ => ?_, fun kind hk => absurd (hk.symm.trans ht) kind.type_ne_fanout⟩
    exact List.eq_nil_of_length_eq_zero (Nat.eq_zero_of_not_pos hempty)
  · rename_i n ht
    refine h [] s ⟨fun hf => ?_, fun kind hk => ?_⟩
    · cases ht.symm.trans hf
    · cases kind <;> cases ht.symm.trans hk

end Checks

end RedisSmq.ExchangeStore
