import RedisSmq.Exchange.Knowledge

/-!
# Indices of exchanges and bindings

What is stored about an exchange is stored several times: its type is in its properties and
in both registries, and a binding is found from the exchange and from the queue. This module
states that these places agree, and shows which writes keep them in agreement.
-/

namespace RedisSmq

/-- The parameters of the write have the type of the store that makes it. -/
def ExchangeWrite.Typed : ExchangeWrite → Prop
  | .bind kind p _ _ _ | .unbind kind p _ _ _ _ | .delete kind p _ => p.type = kind.type
  | .bindFanout p _ _ | .unbindFanout p _ | .deleteFanout p => p.type = .fanout
  | _ => True

/-- The write is a command of the manager's pipeline. -/
def ExchangeWrite.isDrop : ExchangeWrite → Bool
  | .dropProps _ _ | .dropListed _ | .dropNsListed _ | .dropIndex _ => true
  | _ => false

/-- What a write leaves as the type of an exchange, where it sets or deletes one. -/
def ExchangeWrite.retypes : ExchangeWrite → Option (ExchangeId × Option ExchangeType)
  | .save p _ | .bind _ p _ _ _ | .bindFanout p _ _ => some (p.id, some p.type)
  | .delete _ p _ | .deleteFanout p | .dropProps p _ => some (p.id, none)
  | _ => none

theorem ExchangeCall.Typed.write {call : ExchangeCall} {w : ExchangeWrite} (h : call.Typed)
    (hmay : call.May w) : w.Typed := by
  cases call with
  | create store p policy =>
    obtain ⟨-, rfl⟩ := hmay
    trivial
  | bind kind q p r | bindFanout q p =>
    obtain ⟨type, rfl⟩ := hmay
    exact h
  | unbind kind q p r order =>
    obtain ⟨last, still, rfl⟩ := hmay
    exact h
  | delete kind p order =>
    obtain ⟨found, rfl⟩ := hmay
    exact h
  | unbindFanout q p | deleteFanout p =>
    cases hmay
    exact h
  | remove p order =>
    rcases hmay with ⟨found, rfl⟩ | rfl | rfl | rfl <;> trivial

theorem ExchangeCall.isDrop_eq_false {call : ExchangeCall} {w : ExchangeWrite}
    (hcall : call.isRemoval = false) (hmay : call.May w) : w.isDrop = false := by
  cases call with
  | create store p policy =>
    obtain ⟨-, rfl⟩ := hmay
    rfl
  | bind kind q p r | bindFanout q p | delete kind p order =>
    obtain ⟨x, rfl⟩ := hmay
    rfl
  | unbind kind q p r order =>
    obtain ⟨last, still, rfl⟩ := hmay
    rfl
  | unbindFanout q p | deleteFanout p =>
    cases hmay
    rfl
  | remove p order => cases hcall

theorem RouteKind.type_injective : Function.Injective RouteKind.type := by
  intro a b h
  cases a <;> cases b <;> first | rfl | cases h

theorem RouteKind.type_ne_fanout (kind : RouteKind) : kind.type ≠ .fanout := by
  cases kind <;> nofun

namespace ExchangeStore

/-- The manager's pipeline is in the middle of removing the exchange. -/
def Removing (s : ExchangeStore) (e : ExchangeId) : Prop := ∃ x ∈ s.removing, x.2.id = e

/-- No queue is bound to the exchange. -/
structure Unbound (s : ExchangeStore) (e : ExchangeId) : Prop where
  fanout : ∀ q, q ∉ s.fanoutQueues e
  route : ∀ kind r q, q ∉ s.routeQueues (⟨kind, e⟩, r)

/-- The two registries of exchanges. -/
inductive Registry where
  | all
  | ns

/-- The registry lists the exchange. -/
def Registers (s : ExchangeStore) (p : ExchangeParams) : Registry → Prop
  | .all => p ∈ s.allExchanges
  | .ns => p ∈ s.nsExchanges p.id.ns

/-- The registries list the exchanges that have a type, under this type. While an exchange is
being removed, its properties are gone and it may still be listed. -/
structure Listed (s : ExchangeStore) : Prop where
  registers : ∀ e t g, ¬ s.Removing e → (s.Registers ⟨e, t⟩ g ↔ s.typeOf e = some t)
  dropped : ∀ x ∈ s.removing, s.props x.2.id = none
  removed : ∀ x ∈ s.removing, ∀ t g, s.Registers ⟨x.2.id, t⟩ g → t = x.2.type
  unique : ∀ x ∈ s.removing, ∀ y ∈ s.removing, x.2.id = y.2.id → x = y

/-- The queues of a fanout exchange are those that have it among their bindings. -/
structure FanoutIndexed (s : ExchangeStore) : Prop where
  bound : ∀ e q, q ∈ s.fanoutQueues e ↔ ⟨e, .fanout⟩ ∈ s.bindings q
  typed : ∀ e q, q ∈ s.fanoutQueues e → s.typeOf e = some .fanout

/-- The queues of a direct or topic exchange, under any of its listed routing keys or
patterns, are those that have it among their bindings. -/
structure RouteIndexed (s : ExchangeStore) : Prop where
  bound : ∀ kind e q,
    ⟨e, RouteKind.type kind⟩ ∈ s.bindings q ↔ ∃ r, q ∈ s.routeQueues (⟨kind, e⟩, r)
  listed : ∀ i r q, q ∈ s.routeQueues (i, r) → r ∈ s.routes i
  typed : ∀ i r q, q ∈ s.routeQueues (i, r) → s.typeOf i.exchange = some i.kind.type
  queue : ∀ i r q, q ∈ s.routeQueues (i, r) → (s.queues q).isSome = true

section Writes

variable {s s' : ExchangeStore} {p : ExchangeParams} {w : ExchangeWrite} {e : ExchangeId}
variable {c : Option Nat}

theorem typeOf_apply (s : ExchangeStore) (c : Option Nat) (w : ExchangeWrite) (e : ExchangeId) :
    (s.apply c w).typeOf e =
      match w.retypes with
      | some (e', t) => if e = e' then t else s.typeOf e
      | none => s.typeOf e := by
  cases w with
  | save p _ | bind _ p _ _ _ | bindFanout p _ _ | delete _ p _ | deleteFanout p | dropProps p _ =>
    by_cases he : e = p.id
    · simp [he, typeOf, apply, ExchangeWrite.retypes, setType, list, setRoutes, setRouteQueues,
        setBindings, setFanoutQueues, delProps, unlistAll, unlistNs, delRouteQueues]
    · simp [he, typeOf, apply, ExchangeWrite.retypes, setType, list, setRoutes, setRouteQueues,
        setBindings, setFanoutQueues, delProps, unlistAll, unlistNs, delRouteQueues]
  | unbind kind p q r last still => cases last <;> cases still <;> rfl
  | dropIndex p => cases p with | mk e t => cases t <;> rfl
  | createQueue | deleteQueue =>
    change ExchangeStore.typeOf (if _ then _ else _) e = _
    split <;> rfl
  | _ => rfl

theorem registers_list (s : ExchangeStore) (p p' : ExchangeParams) (g : Registry) :
    (s.list p).Registers p' g ↔ p' = p ∨ s.Registers p' g := by
  cases g with
  | all => exact mem_sadd
  | ns =>
    refine mem_update_sadd.trans (or_congr_left ?_)
    exact and_iff_right_of_imp fun heq => by rw [heq]

theorem registers_unlistAll (s : ExchangeStore) (p p' : ExchangeParams) (g : Registry) :
    (s.unlistAll p).Registers p' g ↔ s.Registers p' g ∧ (g = .all → p' ≠ p) := by
  cases g with
  | all => exact mem_srem.trans (and_congr_right fun _ => ⟨fun h _ => h, fun h => h rfl⟩)
  | ns => exact (and_iff_left nofun).symm

theorem registers_unlistNs (s : ExchangeStore) (p p' : ExchangeParams) (g : Registry) :
    (s.unlistNs p).Registers p' g ↔ s.Registers p' g ∧ (g = .ns → p' ≠ p) := by
  cases g with
  | all => exact (and_iff_left nofun).symm
  | ns =>
    refine mem_update_srem.trans (and_congr_right fun _ => ?_)
    exact ⟨fun h _ heq => h ⟨by rw [heq], heq⟩, fun h heq => h rfl heq.2⟩

/-- What the registries list depends on a part of the store only. -/
theorem Listed.of_same (h : s.Listed) (hprops : s'.props = s.props)
    (hall : s'.allExchanges = s.allExchanges) (hns : s'.nsExchanges = s.nsExchanges)
    (hrem : s'.removing = s.removing) : s'.Listed := by
  cases s
  cases s'
  cases hprops
  cases hall
  cases hns
  cases hrem
  exact ⟨h.registers, h.dropped, h.removed, h.unique⟩

/-- What the registries list if an exchange gets a type. -/
theorem Listed.gain {hash : ExchangeHash} (h : s.Listed) (hnot : ¬ s.Removing p.id)
    (hfits : ∀ t, s.typeOf p.id = some t → t = p.type) (htype : hash.type = some p.type) :
    ({ s with props := Function.update s.props p.id (some hash) }.list p).Listed := by
  have hother : ∀ e, e ≠ p.id →
      Function.update s.props p.id (some hash) e = s.props e := fun e he =>
    Function.update_of_ne he _ _
  have hne : ∀ x ∈ s.removing, x.2.id ≠ p.id := fun x hx he => hnot ⟨x, hx, he⟩
  constructor
  · intro e t g hrem
    refine (registers_list _ p ⟨e, t⟩ g).trans ?_
    change _ ∨ s.Registers ⟨e, t⟩ g ↔ (Function.update s.props p.id (some hash) e).bind _ = _
    rw [h.registers e t g hrem]
    by_cases he : e = p.id
    · subst he
      rw [Function.update_self, Option.bind_some, htype]
      constructor
      · rintro (heq | hold)
        · rw [← heq]
        · rw [hfits t hold]
      · intro heq
        cases heq
        exact .inl rfl
    · rw [hother e he]
      refine or_iff_right fun heq => he ?_
      rw [← heq]
  · intro x hx
    exact (hother _ (hne x hx)).trans (h.dropped x hx)
  · intro x hx t g ht
    rcases (registers_list _ p _ g).1 ht with heq | hold
    · exact absurd (congrArg ExchangeParams.id heq) (hne x hx)
    · exact h.removed x hx t g hold
  · exact h.unique

/-- What the registries list if an exchange is deleted in one go. -/
theorem Listed.lose (h : s.Listed) (htype : s.typeOf p.id = some p.type) :
    (((s.delProps p.id).unlistAll p).unlistNs p).Listed := by
  have hne : ∀ x ∈ s.removing, x.2.id ≠ p.id := by
    intro x hx he
    rw [typeOf, ← he, h.dropped x hx] at htype
    cases htype
  have hregisters : ∀ p' g,
      (((s.delProps p.id).unlistAll p).unlistNs p).Registers p' g ↔ s.Registers p' g ∧ p' ≠ p := by
    intro p' g
    rw [registers_unlistNs, registers_unlistAll, and_assoc]
    refine and_congr_right fun _ => ?_
    cases g <;> simp
  constructor
  · intro e t g hrem
    rw [hregisters, h.registers e t g hrem]
    change _ ↔ (Function.update s.props p.id none e).bind _ = _
    by_cases he : e = p.id
    · subst he
      rw [Function.update_self]
      refine iff_of_false (fun hold => hold.2 ?_) (Option.some_ne_none t).symm
      cases htype.symm.trans hold.1
      rfl
    · rw [Function.update_of_ne he]
      refine and_iff_left fun heq => he ?_
      rw [← heq]
  · intro x hx
    exact (Function.update_of_ne (hne x hx) _ _).trans (h.dropped x hx)
  · exact fun x hx t g ht => h.removed x hx t g ((hregisters _ g).1 ht).1
  · exact h.unique

/-- What holds of the store in which a write is made. -/
def Fits (s : ExchangeStore) : ExchangeWrite → Prop
  | .save p _ => s.typeOf p.id = none
  | .bind _ p _ _ _ | .bindFanout p _ _ => ∀ t, s.typeOf p.id = some t → t = p.type
  | .delete _ p _ => s.typeOf p.id = some p.type
  | .deleteFanout p => s.typeOf p.id = some p.type ∧ s.fanoutQueues p.id = []
  | _ => True

theorem removing_apply (hdrop : w.isDrop = false) : (s.apply c w).removing = s.removing := by
  cases w with
  | unbind kind p q r last still => cases last <;> cases still <;> rfl
  | createQueue q type | deleteQueue q =>
    change ExchangeStore.removing (if _ then _ else _) = _
    split <;> rfl
  | dropProps p found | dropListed p | dropNsListed p | dropIndex p => cases hdrop
  | _ => rfl

theorem Listed.apply (h : s.Listed) (hdrop : w.isDrop = false) (hfits : s.Fits w)
    (hrem : ∀ e t, w.retypes = some (e, t) → ¬ s.Removing e) : (s.apply c w).Listed := by
  cases w with
  | save p policy =>
    exact h.gain (hrem _ _ rfl) (fun t ht => (nomatch hfits.symm.trans ht)) rfl
  | bind | bindFanout =>
    refine (h.gain (hrem _ _ rfl) hfits ?_).of_same rfl rfl rfl rfl
    rfl
  | unbind kind p q r last still =>
    cases last <;> cases still <;> exact h.of_same rfl rfl rfl rfl
  | unbindFanout p q => exact h.of_same rfl rfl rfl rfl
  | delete kind p found => exact (h.lose hfits).of_same rfl rfl rfl rfl
  | deleteFanout p => exact (h.lose hfits.1).of_same rfl rfl rfl rfl
  | createQueue q type =>
    change Listed (if _ then _ else _)
    split
    · exact h
    · exact h.of_same rfl rfl rfl rfl
  | deleteQueue q =>
    change Listed (if _ then _ else _)
    split
    · exact h.of_same rfl rfl rfl rfl
    · exact h
  | _ => cases hdrop

/-- An exchange that changes its type has no queues of another type. -/
theorem FanoutIndexed.typed_of_retype (h : s.FanoutIndexed) {t : Option ExchangeType}
    (htype : ∀ q, q ∈ s.fanoutQueues e → t = some .fanout)
    (hw : w.retypes = some (e, t)) (e' : ExchangeId) (q : QueueParams)
    (hq : q ∈ s.fanoutQueues e') : (s.apply c w).typeOf e' = some .fanout := by
  rw [typeOf_apply, hw]
  dsimp only
  split
  · rename_i he
    exact htype q (he ▸ hq)
  · exact h.typed e' q hq

theorem same_binding_iff {e e' : ExchangeId} {q q' : QueueParams} {t : ExchangeType} :
    (e = e' ∧ q = q') ↔ (q = q' ∧ ExchangeParams.mk e t = ⟨e', t⟩) := by
  rw [ExchangeParams.mk.injEq, and_iff_left rfl, and_comm]

theorem FanoutIndexed.apply (h : s.FanoutIndexed) (hdrop : w.isDrop = false)
    (hfits : s.Fits w) (htyped : w.Typed) : (s.apply c w).FanoutIndexed := by
  cases w with
  | save p policy =>
    refine ⟨h.bound, h.typed_of_retype (fun q hq => ?_) rfl⟩
    cases hfits.symm.trans (h.typed p.id q hq)
  | bind kind p q r type =>
    refine ⟨fun e q' => ?_, h.typed_of_retype (fun q hq => ?_) rfl⟩
    · refine (h.bound e q').trans (mem_update_sadd.trans (or_iff_right fun heq => ?_)).symm
      exact kind.type_ne_fanout (htyped.symm.trans (congrArg ExchangeParams.type heq.2).symm)
    · rw [hfits _ (h.typed p.id q hq)]
  | bindFanout p q type =>
    obtain ⟨e₀, t⟩ := p
    cases htyped
    refine ⟨fun e q' => ?_, fun e q' hq' => ?_⟩
    · exact mem_update_sadd.trans
        ((or_congr same_binding_iff (h.bound e q')).trans mem_update_sadd.symm)
    rw [typeOf_apply]
    dsimp only [ExchangeWrite.retypes]
    split
    · rfl
    rename_i he
    rcases mem_update_sadd.1 hq' with hnew | hold
    · exact absurd hnew.1 he
    · exact h.typed e q' hold
  | unbind kind p q r last still =>
    have hbound : ∀ e q', q' ∈ s.fanoutQueues e ↔
        ⟨e, .fanout⟩ ∈ (s.setBindings q (srem p (s.bindings q))).bindings q' := by
      intro e q'
      refine (h.bound e q').trans (mem_update_srem.trans (and_iff_left fun heq => ?_)).symm
      exact kind.type_ne_fanout (htyped.symm.trans (congrArg ExchangeParams.type heq.2).symm)
    cases last <;> cases still
    · exact ⟨hbound, h.typed⟩
    · exact ⟨h.bound, h.typed⟩
    · exact ⟨hbound, h.typed⟩
    · exact ⟨h.bound, h.typed⟩
  | unbindFanout p q =>
    obtain ⟨e₀, t⟩ := p
    cases htyped
    refine ⟨fun e q' => ?_, fun e q' hq' => h.typed e q' (mem_update_srem.1 hq').1⟩
    exact mem_update_srem.trans
      ((and_congr (h.bound e q') (not_congr same_binding_iff)).trans mem_update_srem.symm)
  | delete kind p found =>
    refine ⟨h.bound, h.typed_of_retype (fun q hq => ?_) rfl⟩
    have hfanout := hfits.symm.trans (h.typed p.id q hq)
    exact absurd (htyped.symm.trans (Option.some.inj hfanout)) kind.type_ne_fanout
  | deleteFanout p =>
    have hsame : (s.apply c (.deleteFanout p)).fanoutQueues = s.fanoutQueues := by
      change Function.update s.fanoutQueues p.id [] = s.fanoutQueues
      rw [← hfits.2, Function.update_eq_self]
    refine ⟨fun e q => hsame ▸ h.bound e q, fun e q hq => ?_⟩
    rw [hsame] at hq
    refine h.typed_of_retype (fun q' hq' => ?_) rfl e q hq
    rw [hfits.2] at hq'
    cases hq'
  | createQueue q type =>
    change FanoutIndexed (if _ then _ else _)
    split
    · exact h
    · exact ⟨h.bound, h.typed⟩
  | deleteQueue q =>
    change FanoutIndexed (if _ then _ else _)
    split
    · exact ⟨h.bound, h.typed⟩
    · exact h
  | _ => cases hdrop

end Writes

theorem Listed.initial (queues : QueueParams → Option QueueType) : (initial queues).Listed where
  registers _ _ g _ := by cases g <;> simp [Registers, typeOf, ExchangeStore.initial]
  dropped := nofun
  removed := nofun
  unique := nofun

theorem FanoutIndexed.initial (queues : QueueParams → Option QueueType) :
    (initial queues).FanoutIndexed :=
  ⟨fun _ _ => iff_of_false List.not_mem_nil nofun, fun _ _ hq => absurd hq List.not_mem_nil⟩

end ExchangeStore

section Fitting

open ExchangeStore

variable {K : Optimistic.Contract ExchangeStore ExchangeWrite} {s : ExchangeStore}
variable {p : ExchangeParams} {w : ExchangeWrite}

theorem ExchangeStore.Accepts.fits {type : QueueType} (h : s.Accepts p type) (t : ExchangeType)
    (ht : s.typeOf p.id = some t) : t = p.type := by
  obtain ⟨hash, hprops, htype⟩ := Option.bind_eq_some_iff.1 ht
  rw [← (h hash hprops).1, ExchangeHash.decodedType, htype]
  rfl

/-- The registry tells that the exchange still has its type. -/
theorem WasTyped.typeOf (h : WasTyped K p s) (hlisted : ∀ s, K.I s → s.Listed) (hI : K.I s)
    (hnot : ¬ s.Removing p.id) : s.typeOf p.id = some p.type := by
  obtain ⟨s₁, hI₁, htype, hall⟩ := h
  have hnot₁ : ¬ s₁.Removing p.id := by
    rintro ⟨x, hx, he⟩
    rw [ExchangeStore.typeOf, ← he, (hlisted s₁ hI₁).dropped x hx] at htype
    cases htype
  have hmem : p ∈ s₁.allExchanges := ((hlisted s₁ hI₁).registers p.id p.type .all hnot₁).2 htype
  rw [hall] at hmem
  exact ((hlisted s hI).registers p.id p.type .all hnot).1 hmem

/-- What a call knows is enough for its write to fit. -/
theorem Knows.fits {c : Nat} (h : Knows K c s w) (hlisted : ∀ s, K.I s → s.Listed) (hI : K.I s)
    (hnot : ∀ e t, w.retypes = some (e, t) → ¬ s.Removing e) : s.Fits w := by
  cases w with
  | save p policy => exact h
  | bind kind p q r type => exact h.2.1.fits
  | bindFanout p q type => exact h.2.1.fits
  | delete kind p found => exact h.1.typeOf hlisted hI (hnot _ _ rfl)
  | deleteFanout p => exact ⟨h.1.typeOf hlisted hI (hnot _ _ rfl), h.2⟩
  | _ => trivial

end Fitting

end RedisSmq
