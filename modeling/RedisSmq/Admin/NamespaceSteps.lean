import RedisSmq.Admin.ManagedSteps
import RedisSmq.Admin.Namespaces
import RedisSmq.Admin.QueueKeys

/-!
# What deletions leave of a realm

A deletion takes queues and exchanges out of a realm and leaves all others as they are.
Nobody who deletes binds a queue, or unbinds one. This holds of the script that deletes a
queue, and of the commands that remove an exchange to which no queue is bound. Whether a
member of a namespace can be deleted is therefore a matter of the realm at the beginning of
a call, as long as the member is there at all.
-/

namespace RedisSmq

/-- A queue is bound to the exchange, as far as `Store.Delete` looks for one. -/
def ExchangeStore.HasBound (s : ExchangeStore) (p : ExchangeParams) : Prop :=
  match p.type with
  | .direct => ∃ r ∈ s.routes ⟨.direct, p.id⟩, s.routeQueues (⟨.direct, p.id⟩, r) ≠ []
  | .topic => ∃ r ∈ s.routes ⟨.topic, p.id⟩, s.routeQueues (⟨.topic, p.id⟩, r) ≠ []
  | .fanout => s.fanoutQueues p.id ≠ []
  | .unknown _ => False

namespace Realm

variable (w : Realm)

/-- The hash of properties of the member is stored. -/
def Has : Member → Prop
  | .queue q => (w.queues q).db.queue.isSome = true
  | .exchange p => (w.exchanges.props p.id).isSome = true

/-- The queue has no messages and no live consumer. -/
def Idle (q : QueueParams) : Prop :=
  (w.queues q).db.counter .messages = 0 ∧
    ∀ c ∈ (w.queues q).consumers, c ∉ (w.queues q).heartbeats
  deriving Decidable

/-- The queue is neither locked nor bound. -/
def Free (q : QueueParams) : Prop :=
  (w.queues q).db.storedState ≠ some (toString OperationalState.locked.int) ∧
    w.exchanges.bindings q = []
  deriving Decidable

instance decidableHas : (x : Member) → Decidable (w.Has x)
  | .queue _ => inferInstanceAs (Decidable (_ = true))
  | .exchange _ => inferInstanceAs (Decidable (_ = true))

/-- What the deletion of a member asks for. -/
def Deletable : Member → Prop
  | .queue q => w.Has (.queue q) ∧ w.Free q ∧ w.Idle q
  | .exchange p => w.Has (.exchange p) ∧ ¬ w.exchanges.HasBound p

variable {w} in
theorem Deletable.has {x : Member} (h : w.Deletable x) : w.Has x := by
  cases x with
  | queue q => exact h.1
  | exchange p => exact h.1

theorem not_has_dropQueue (q : QueueParams) {k : Managed} (hnone : k.db.queue = none) :
    ¬ (w.dropQueue q k).Has (.queue q) := by
  have hself : (w.dropQueue q k).queues q = k := by exact Function.update_self q k w.queues
  rw [Has, hself, hnone]
  exact Bool.false_ne_true

end Realm

/-- The second store is the first one without some exchanges, whose keys are in `gone`. Every
queue that was bound still is. -/
structure ExchangeStore.Loses (gone : Set MemberKey) (s s' : ExchangeStore) : Prop where
  bindings : s'.bindings = s.bindings
  exchange : ∀ e, (.inr e ∈ gone ∧ s'.props e = none) ∨
    s'.props e = s.props e ∧ ∀ t ns, ⟨e, t⟩ ∈ s.nsExchanges ns → ⟨e, t⟩ ∈ s'.nsExchanges ns
  listed : ∀ ns, (s'.nsExchanges ns).Sublist (s.nsExchanges ns)
  routes : ∀ i r, r ∈ s'.routes i → r ∈ s.routes i
  routed : ∀ i r, r ∈ s.routes i → s.routeQueues (i, r) ≠ [] → r ∈ s'.routes i
  routeQueues : ∀ k, s'.routeQueues k = [] ↔ s.routeQueues k = []
  fanoutQueues : ∀ e, s'.fanoutQueues e = [] ↔ s.fanoutQueues e = []

namespace ExchangeStore.Loses

variable {gone gone' : Set MemberKey} {s s' s'' : ExchangeStore} {p : ExchangeParams}

theorem mono (h : s.Loses gone s') (hsub : gone ⊆ gone') : s.Loses gone' s' where
  __ := h
  exchange e := (h.exchange e).imp_left fun hgone => ⟨hsub hgone.1, hgone.2⟩

/-- Of the rest, only the registry of all exchanges and the queues may differ. -/
theorem of_eq (hbindings : s'.bindings = s.bindings) (hprops : s'.props = s.props)
    (hlisted : s'.nsExchanges = s.nsExchanges) (hroutes : s'.routes = s.routes)
    (hqueues : s'.routeQueues = s.routeQueues) (hfanout : s'.fanoutQueues = s.fanoutQueues) :
    s.Loses gone s' where
  bindings := hbindings
  exchange e := .inr ⟨congrFun hprops e, fun _ _ h => hlisted ▸ h⟩
  listed ns := by rw [hlisted]
  routes _ _ h := hroutes ▸ h
  routed _ _ h _ := hroutes ▸ h
  routeQueues _ := by rw [hqueues]
  fanoutQueues _ := by rw [hfanout]

theorem refl (s : ExchangeStore) : s.Loses gone s := of_eq rfl rfl rfl rfl rfl rfl

theorem trans (h : s.Loses gone s') (h' : s'.Loses gone s'') : s.Loses gone s'' where
  bindings := h'.bindings.trans h.bindings
  exchange e := by
    rcases h'.exchange e with hgone | ⟨hprops', hlisted'⟩
    · exact .inl hgone
    rcases h.exchange e with ⟨hmem, hnone⟩ | ⟨hprops, hlisted⟩
    · exact .inl ⟨hmem, hprops'.trans hnone⟩
    · exact .inr ⟨hprops'.trans hprops, fun t ns ht => hlisted' t ns (hlisted t ns ht)⟩
  listed ns := (h'.listed ns).trans (h.listed ns)
  routes i r hr := h.routes i r (h'.routes i r hr)
  routed i r hr hqueues :=
    h'.routed i r (h.routed i r hr hqueues) fun hnil => hqueues ((h.routeQueues _).1 hnil)
  routeQueues k := (h'.routeQueues k).trans (h.routeQueues k)
  fanoutQueues e := (h'.fanoutQueues e).trans (h.fanoutQueues e)

theorem exists_bound (h : s.Loses gone s') (i : RouteIndex) :
    (∃ r ∈ s'.routes i, s'.routeQueues (i, r) ≠ []) ↔
      ∃ r ∈ s.routes i, s.routeQueues (i, r) ≠ [] := by
  constructor
  · rintro ⟨r, hr, hqueues⟩
    exact ⟨r, h.routes i r hr, fun hnil => hqueues ((h.routeQueues _).2 hnil)⟩
  · rintro ⟨r, hr, hqueues⟩
    exact ⟨r, h.routed i r hr hqueues, fun hnil => hqueues ((h.routeQueues _).1 hnil)⟩

theorem hasBound (h : s.Loses gone s') (p : ExchangeParams) : s'.HasBound p ↔ s.HasBound p := by
  unfold HasBound
  split
  · exact h.exists_bound _
  · exact h.exists_bound _
  · exact not_congr (h.fanoutQueues _)
  · exact .rfl

/-- An exchange that is not lost is listed as before. -/
theorem mem_nsExchanges (h : s.Loses gone s') (hp : .inr p.id ∉ gone) {ns : String} :
    p ∈ s'.nsExchanges ns ↔ p ∈ s.nsExchanges ns := by
  refine ⟨fun hmem => (h.listed ns).subset hmem, fun hmem => ?_⟩
  rcases h.exchange p.id with ⟨hgone, -⟩ | ⟨-, hkept⟩
  · exact absurd hgone hp
  · exact hkept p.type ns hmem

/-- The deletion of a queue takes nothing from the exchanges. -/
theorem deleteQueue (s : ExchangeStore) (q : QueueParams) :
    s.Loses gone (s.apply none (.deleteQueue q)) := by
  unfold ExchangeStore.apply
  dsimp only
  split
  · exact of_eq rfl rfl rfl rfl rfl rfl
  · exact refl s

section Commands

variable (hkey : .inr p.id ∈ gone)
include hkey

theorem dropProps (s : ExchangeStore) (found : List String) :
    s.Loses gone (s.apply none (.dropProps p found)) where
  bindings := rfl
  exchange e := by
    by_cases he : e = p.id
    · subst he
      exact .inl ⟨hkey, Function.update_self _ _ _⟩
    · exact .inr ⟨Function.update_of_ne he _ _, fun _ _ h => h⟩
  listed _ := .refl _
  routes _ _ h := h
  routed _ _ h _ := h
  routeQueues _ := .rfl
  fanoutQueues _ := .rfl

omit hkey in
theorem dropListed (s : ExchangeStore) (p : ExchangeParams) :
    s.Loses gone (s.apply none (.dropListed p)) :=
  of_eq rfl rfl rfl rfl rfl rfl

theorem dropNsListed (hprops : s.props p.id = none) :
    s.Loses gone (s.apply none (.dropNsListed p)) where
  bindings := rfl
  exchange e := by
    by_cases he : e = p.id
    · subst he
      exact .inl ⟨hkey, hprops⟩
    · refine .inr ⟨rfl, fun t ns ht => mem_update_srem.2 ⟨ht, fun h => he ?_⟩⟩
      exact congrArg ExchangeParams.id h.2
  listed ns := by
    change (Function.update s.nsExchanges p.id.ns (srem p (s.nsExchanges p.id.ns)) ns).Sublist _
    by_cases hns : ns = p.id.ns
    · subst hns
      rw [Function.update_self]
      exact List.filter_sublist
    · rw [Function.update_of_ne hns]
  routes _ _ h := h
  routed _ _ h _ := h
  routeQueues _ := .rfl
  fanoutQueues _ := .rfl

omit hkey in
/-- The routing keys of an exchange to which no queue is bound are deleted. -/
theorem setRoutes {i : RouteIndex} (hnone : ¬ ∃ r ∈ s.routes i, s.routeQueues (i, r) ≠ []) :
    s.Loses gone (s.setRoutes i []) where
  bindings := rfl
  exchange _ := .inr ⟨rfl, fun _ _ h => h⟩
  listed _ := .refl _
  routes j r hr := by
    change r ∈ Function.update s.routes i [] j at hr
    by_cases hj : j = i
    · subst hj
      rw [Function.update_self] at hr
      cases hr
    · rwa [Function.update_of_ne hj] at hr
  routed j r hr hqueues := by
    have hj : j ≠ i := fun hj => hnone ⟨r, hj ▸ hr, hj ▸ hqueues⟩
    change r ∈ Function.update s.routes i [] j
    rwa [Function.update_of_ne hj]
  routeQueues _ := .rfl
  fanoutQueues _ := .rfl

omit hkey in
theorem setFanoutQueues {e : ExchangeId} (hnone : s.fanoutQueues e = []) :
    s.Loses gone (s.setFanoutQueues e []) where
  bindings := rfl
  exchange _ := .inr ⟨rfl, fun _ _ h => h⟩
  listed _ := .refl _
  routes _ _ h := h
  routed _ _ h _ := h
  routeQueues _ := .rfl
  fanoutQueues e' := by
    change Function.update s.fanoutQueues e [] e' = [] ↔ _
    by_cases he : e' = e
    · subst he
      rw [Function.update_self, hnone]
    · rw [Function.update_of_ne he]

omit hkey in
theorem dropIndex (hbound : ¬ s.HasBound p) : s.Loses gone (s.apply none (.dropIndex p)) := by
  have hrest : ∀ l, s.Loses gone { s with removing := l } := fun l => of_eq rfl rfl rfl rfl rfl rfl
  obtain ⟨e, type⟩ := p
  cases type with
  | direct | topic => exact (hrest _).trans (setRoutes hbound)
  | fanout => exact (hrest _).trans (setFanoutQueues (not_not.1 hbound))
  | unknown code => exact hrest _

end Commands

end ExchangeStore.Loses

/-- The second realm is the first one without some queues and exchanges, whose keys are in
`gone`. -/
structure Realm.Loses (gone : Set MemberKey) (w w' : Realm) : Prop where
  queue : ∀ q, (.inl q ∈ gone ∧ ¬ w'.Has (.queue q)) ∨
    w'.queues q = w.queues q ∧ (q ∈ w.nsQueues q.ns → q ∈ w'.nsQueues q.ns)
  exchanges : w.exchanges.Loses gone w'.exchanges

namespace Realm.Loses

variable {gone gone' : Set MemberKey} {w w' w'' : Realm}
variable {x : Member}

theorem mono (h : w.Loses gone w') (hsub : gone ⊆ gone') : w.Loses gone' w' where
  queue q := (h.queue q).imp_left fun hgone => ⟨hsub hgone.1, hgone.2⟩
  exchanges := h.exchanges.mono hsub

theorem refl (w : Realm) : w.Loses gone w := ⟨fun _ => .inr ⟨rfl, id⟩, .refl _⟩

section

variable (h : w.Loses gone w')

include h

theorem trans (h' : w'.Loses gone w'') : w.Loses gone w'' where
  queue q := by
    rcases h'.queue q with hgone | ⟨hsame', hlisted'⟩
    · exact .inl hgone
    rcases h.queue q with ⟨hmem, hnot⟩ | ⟨hsame, hlisted⟩
    · refine .inl ⟨hmem, ?_⟩
      rwa [Has, hsame']
    · exact .inr ⟨hsame'.trans hsame, fun hq => hlisted' (hlisted hq)⟩
  exchanges := h.exchanges.trans h'.exchanges

theorem has (hx : w'.Has x) : w.Has x := by
  cases x with
  | queue q =>
    rcases h.queue q with ⟨-, hnot⟩ | ⟨hsame, -⟩
    · exact absurd hx hnot
    · rwa [Has, hsame] at hx
  | exchange p =>
    rcases h.exchanges.exchange p.id with ⟨-, hnone⟩ | ⟨hsame, -⟩
    · rw [Has, hnone] at hx
      cases hx
    · rwa [Has, hsame] at hx

/-- A member that is not lost is there as before. -/
theorem has_iff (hx : x.key ∉ gone) : w'.Has x ↔ w.Has x := by
  refine ⟨h.has, fun hhas => ?_⟩
  cases x with
  | queue q =>
    rcases h.queue q with ⟨hmem, -⟩ | ⟨hsame, -⟩
    · exact absurd hmem hx
    · rwa [Has, hsame]
  | exchange p =>
    rcases h.exchanges.exchange p.id with ⟨hmem, -⟩ | ⟨hsame, -⟩
    · exact absurd hmem hx
    · rwa [Has, hsame]

/-- A member that is still there can be deleted if it could. -/
theorem deletable (x : Member) : w'.Deletable x ↔ w.Deletable x ∧ w'.Has x := by
  constructor
  · intro hx
    cases x with
    | queue q =>
      obtain ⟨hhas, hfree, hidle⟩ := hx
      rcases h.queue q with ⟨-, hnot⟩ | ⟨hsame, -⟩
      · exact absurd hhas hnot
      rw [Free, hsame, h.exchanges.bindings] at hfree
      rw [Idle, hsame] at hidle
      exact ⟨⟨h.has hhas, hfree, hidle⟩, hhas⟩
    | exchange p =>
      exact ⟨⟨h.has hx.1, fun hbound => hx.2 ((h.exchanges.hasBound p).2 hbound)⟩, hx.1⟩
  · rintro ⟨hx, hhas⟩
    cases x with
    | queue q =>
      obtain ⟨-, hfree, hidle⟩ := hx
      rcases h.queue q with ⟨-, hnot⟩ | ⟨hsame, -⟩
      · exact absurd hhas hnot
      rw [Free, ← hsame, ← h.exchanges.bindings] at hfree
      rw [Idle, ← hsame] at hidle
      exact ⟨hhas, hfree, hidle⟩
    | exchange p =>
      exact ⟨hhas, fun hbound => hx.2 ((h.exchanges.hasBound p).1 hbound)⟩

/-- A member that is not lost can be deleted if it could. -/
theorem deletable_iff (hx : x.key ∉ gone) : w'.Deletable x ↔ w.Deletable x := by
  rw [h.deletable, h.has_iff hx]
  exact and_iff_left_of_imp Deletable.has

end

/-- A command to the store of exchanges. -/
theorem writeExchange {c : ExchangeWrite}
    (h : w.exchanges.Loses gone (w.exchanges.apply none c)) : w.Loses gone (w.writeExchange c) :=
  ⟨fun _ => .inr ⟨rfl, id⟩, h⟩

theorem dropQueue {q : QueueParams} (hkey : .inl q ∈ gone) {k : Managed}
    (hnone : k.db.queue = none) : w.Loses gone (w.dropQueue q k) where
  queue q' := by
    by_cases hq : q' = q
    · subst hq
      exact .inl ⟨hkey, not_has_dropQueue w q' hnone⟩
    · refine .inr ⟨Function.update_of_ne hq _ _, fun hmem => ?_⟩
      exact mem_update_srem.2 ⟨hmem, fun h => hq h.2⟩
  exchanges := .deleteQueue _ q

end Realm.Loses

/-- The realm in which it is decided whether a member is deleted: for a queue the one that the
script finds, for an exchange the one in which it is looked for. -/
def Member.decisive (others : Others) : Member → Nat → Realm → Realm
  | .queue _, n, w => others (n + 3) (others (n + 2) (others (n + 1) (others n w)))
  | .exchange _, n, w => others n w

/-- What the deletion of a member comes to, after the realm `w` in which it is decided. -/
structure Member.Settles (gone : Set MemberKey) (x : Member) (w : Realm)
    (r : Option StoreError × Nat × Realm) : Prop where
  loses : w.Loses (if r.1 = none then insert x.key gone else gone) r.2.2
  deletes : r.1 = none ↔ w.Deletable x
  gone : r.1 = none → ¬ r.2.2.Has x
  error : r.1 ≠ some .namespaceNotFound

namespace Member.Settles

variable {gone : Set MemberKey} {x : Member} {w w' : Realm} {n : Nat}

theorem deleted (hloses : w.Loses (insert x.key gone) w') (hdel : w.Deletable x)
    (hgone : ¬ w'.Has x) : x.Settles gone w (none, n, w') :=
  ⟨hloses, iff_of_true rfl hdel, fun _ => hgone, (Option.some_ne_none _).symm⟩

theorem refused (hloses : w.Loses gone w') (hnot : ¬ w.Deletable x) {e : StoreError}
    (he : e ≠ .namespaceNotFound) : x.Settles gone w (some e, n, w') :=
  ⟨hloses, iff_of_false (Option.some_ne_none _) hnot, fun h => absurd h (Option.some_ne_none _),
    fun h => he (Option.some.inj h)⟩

theorem loses_insert {r : Option StoreError × Nat × Realm} (h : x.Settles gone w r) :
    w.Loses (insert x.key gone) r.2.2 := by
  refine h.loses.mono ?_
  split
  · exact subset_rfl
  · exact Set.subset_insert _ _

end Member.Settles

section Script

variable (w : Realm) (q : QueueParams) (consumers : List ConsumerId) (groups : List GroupId)
variable (processing : List ConsumerId)

/-- The script deletes the queue, or it leaves the realm as it is. -/
theorem Realm.deleteQueueScript_effect :
    (∃ k : Managed, k.db.queue = none ∧
        ((w.managed q).deleteQueue consumers groups processing
          (toString OperationalState.locked.int) none).1 = .ok ∧
        w.deleteQueueScript q consumers groups processing = (.ok, w.dropQueue q k)) ∨
      ∃ reply, reply ≠ .ok ∧
        ((w.managed q).deleteQueue consumers groups processing
          (toString OperationalState.locked.int) none).1 ≠ .ok ∧
        w.deleteQueueScript q consumers groups processing = (reply, w) := by
  unfold deleteQueueScript
  split
  case h_1 k hscript =>
    refine .inl ⟨k, ?_, by rw [hscript], rfl⟩
    rw [Managed.deleteQueue_eq_ok hscript]
    rfl
  case h_2 reply k hne hscript =>
    have hreply : reply ≠ .ok := hne
    exact .inr ⟨reply, hreply, by rwa [hscript], rfl⟩

theorem Realm.Loses.deleteQueueScript {gone : Set MemberKey} (hkey : .inl q ∈ gone) :
    w.Loses gone (w.deleteQueueScript q consumers groups processing).2 := by
  rcases w.deleteQueueScript_effect q consumers groups processing with
    ⟨k, hnone, -, hscript⟩ | ⟨reply, -, -, hscript⟩
  · rw [hscript]
    exact .dropQueue hkey hnone
  · rw [hscript]
    exact .refl w

variable {w q} in
/-- The consumers that were read are still those of the queue, if it is still there. -/
theorem Realm.Loses.deleteQueue_iff {gone : Set MemberKey} {w₀ : Realm} (h : w₀.Loses gone w) :
    ((w.managed q).deleteQueue (w₀.queues q).consumers groups processing
        (toString OperationalState.locked.int) none).1 = .ok ↔ w.Deletable (.queue q) := by
  rw [Managed.deleteQueue_eq_ok_iff]
  rcases h.queue q with ⟨-, hnot⟩ | ⟨hsame, -⟩
  · exact ⟨fun hok => absurd hok.1 hnot, fun hdel => absurd hdel.1 hnot⟩
  · rw [← hsame]
    constructor
    · rintro ⟨hhas, hunlocked, hempty, hbound, -, hlive⟩
      exact ⟨hhas, ⟨hunlocked, List.eq_nil_of_length_eq_zero hbound⟩, hempty, hlive⟩
    · rintro ⟨hhas, ⟨hunlocked, hbound⟩, hempty, hlive⟩
      exact ⟨hhas, hunlocked, hempty, congrArg List.length hbound, ⟨rfl, fun _ hc => hc⟩, hlive⟩

end Script

/-- What the removal of an exchange comes to, from a realm in which it was found on. -/
inductive Realm.Removes (gone : Set MemberKey) (p : ExchangeParams) (w : Realm) :
    ExchangeResult × Nat × Realm → Prop
  | removed {n : Nat} {w' : Realm} (hbound : ¬ w.exchanges.HasBound p)
      (hloses : w.Loses (insert (.inr p.id) gone) w') (hgone : ¬ w'.Has (.exchange p)) :
      Removes gone p w (.ok, n, w')
  | refused {e : ExchangeError} {n : Nat} {w' : Realm} (hbound : w.exchanges.HasBound p)
      (hloses : w.Loses gone w') : Removes gone p w (.error e, n, w')

theorem Realm.Removes.trans {gone : Set MemberKey} {p : ExchangeParams} {w w' : Realm}
    {r : ExchangeResult × Nat × Realm} (h : w.Loses gone w') (h' : Removes gone p w' r) :
    Removes gone p w r := by
  cases h' with
  | removed hbound hloses hgone =>
    exact .removed (mt (h.exchanges.hasBound p).2 hbound)
      ((h.mono (Set.subset_insert _ _)).trans hloses) hgone
  | refused hbound hloses =>
    exact .refused ((h.exchanges.hasBound p).1 hbound) (h.trans hloses)

/-- What `Store.Delete` does for a fanout exchange that it has found. -/
def removeFanout (p : ExchangeParams) : ExchangeProgram :=
  .read fun s =>
    if 0 < (s.fanoutQueues p.id).length then .done (.error .hasBoundQueues)
    else removalPipeline p []

/-- What `Store.Delete` does for an exchange that it has found. -/
def removeFound (p : ExchangeParams) (order : SetOrder) : ExchangeProgram :=
  match p.type with
  | .direct => removeRoutes ⟨.direct, p.id⟩ p order
  | .topic => removeRoutes ⟨.topic, p.id⟩ p order
  | .fanout => removeFanout p
  | .unknown _ => removalPipeline p []

section Stores

variable {others : Others} {gone : Set MemberKey}
variable (hothers : ∀ n w, Realm.Loses gone w (others n w))
include hothers
variable {w : Realm}

theorem Realm.deleteQueue_settles (q : QueueParams) (n : Nat) (w : Realm) :
    (Member.queue q).Settles gone ((Member.queue q).decisive others n w)
      (Realm.deleteQueue others q n w) := by
  have hloses : (others n w).Loses gone ((Member.queue q).decisive others n w) :=
    ((hothers (n + 1) _).trans (hothers (n + 2) _)).trans (hothers (n + 3) _)
  unfold Realm.deleteQueue
  dsimp only
  rcases ((Member.queue q).decisive others n w).deleteQueueScript_effect q
      ((others n w).queues q).consumers ((others (n + 1) (others n w)).queues q).db.groups
      ((others (n + 2) (others (n + 1) (others n w))).queues q).processing with
    ⟨k, hnone, hok, hscript⟩ | ⟨reply, hreply, hnot, hscript⟩
  · rw [Member.decisive] at hscript
    rw [hscript, if_pos rfl]
    exact .deleted (.dropQueue (Set.mem_insert _ _) hnone) ((hloses.deleteQueue_iff _ _).1 hok)
      (Realm.not_has_dropQueue _ q hnone)
  · rw [Member.decisive] at hscript
    rw [hscript, if_neg hreply]
    exact .refused (.refl _) (mt (hloses.deleteQueue_iff _ _).2 hnot) (by simp)

variable {p : ExchangeParams}

/-- The pipeline of a removal, once no queue is bound. -/
theorem Realm.removes_pipeline (hbound : ¬ w.exchanges.HasBound p) (found : List String) (n : Nat) :
    Removes gone p w (run others (removalPipeline p found) n w) := by
  let w₁ := (others n w).writeExchange (.dropProps p found)
  let w₂ := (others (n + 1) w₁).writeExchange (.dropListed p)
  let w₃ := (others (n + 2) w₂).writeExchange (.dropNsListed p)
  let w₄ := (others (n + 3) w₃).writeExchange (.dropIndex p)
  let gone' := insert (.inr p.id) gone
  have hkey : .inr p.id ∈ gone' := Set.mem_insert _ _
  have hothers' : ∀ n w, Realm.Loses gone' w (others n w) := fun n w =>
    (hothers n w).mono (Set.subset_insert _ _)
  have h₁ : w.Loses gone' w₁ := (hothers' n w).trans (.writeExchange (.dropProps hkey _ found))
  have hgone₁ : ¬ w₁.Has (.exchange p) := by
    have hself : w₁.exchanges.props p.id = none := by
      exact Function.update_self p.id none (others n w).exchanges.props
    rw [Has, hself]
    exact Bool.false_ne_true
  have h₂ : w₁.Loses gone' w₂ := (hothers' _ w₁).trans (.writeExchange (.dropListed _ p))
  have hloses₂ : w₁.Loses gone' (others (n + 2) w₂) := h₂.trans (hothers' _ w₂)
  have hprops : (others (n + 2) w₂).exchanges.props p.id = none :=
    Option.not_isSome_iff_eq_none.1 fun hsome => hgone₁ (hloses₂.has (x := .exchange p) hsome)
  have h₃ : w₁.Loses gone' w₃ := hloses₂.trans (.writeExchange (.dropNsListed hkey hprops))
  have hloses₃ : w₁.Loses gone' (others (n + 3) w₃) := h₃.trans (hothers' _ w₃)
  have hbound₃ : ¬ (others (n + 3) w₃).exchanges.HasBound p :=
    mt ((h₁.trans hloses₃).exchanges.hasBound p).1 hbound
  have h₄ : w₁.Loses gone' w₄ := hloses₃.trans (.writeExchange (.dropIndex hbound₃))
  exact .removed hbound (h₁.trans h₄) (mt h₄.has hgone₁)

/-- The checks of the routing keys that were found, and the pipeline. -/
theorem Realm.removes_checkFound {i : RouteIndex} {rs : List String} (found : List String) (n : Nat)
    (hbound : w.exchanges.HasBound p ↔ ∃ r ∈ rs, w.exchanges.routeQueues (i, r) ≠ []) :
    Removes gone p w (run others (checkFound i (removalPipeline p found) rs) n w) := by
  induction rs generalizing n w with
  | nil => exact removes_pipeline hothers (mt hbound.1 (by simp)) found n
  | cons r rs ih =>
    have hloses := hothers n w
    have hstep : run others (checkFound i (removalPipeline p found) (r :: rs)) n w =
        run others
          (if 0 < ((others n w).exchanges.routeQueues (i, r)).length then
            .done (.error .hasBoundQueues)
          else checkFound i (removalPipeline p found) rs) (n + 1) (others n w) := rfl
    have hpos : 0 < ((others n w).exchanges.routeQueues (i, r)).length ↔
        w.exchanges.routeQueues (i, r) ≠ [] :=
      List.length_pos_iff.trans (not_congr (hloses.exchanges.routeQueues (i, r)))
    rw [hstep]
    by_cases hr : w.exchanges.routeQueues (i, r) = []
    · rw [if_neg (mt hpos.1 (not_not.2 hr))]
      refine .trans hloses (ih (n + 1) ?_)
      rw [hloses.exchanges.hasBound, hbound]
      simp [hr, hloses.exchanges.routeQueues]
    · rw [if_pos (hpos.2 hr)]
      exact .refused (hbound.2 ⟨r, .head _, hr⟩) hloses

/-- An exchange with routing keys. -/
theorem Realm.removes_routes {i : RouteIndex} (hbound : w.exchanges.HasBound p ↔
      ∃ r ∈ w.exchanges.routes i, w.exchanges.routeQueues (i, r) ≠ [])
    (order : SetOrder) (n : Nat) : Removes gone p w (run others (removeRoutes i p order) n w) := by
  have hloses := hothers n w
  refine .trans hloses (removes_checkFound hothers _ (n + 1) ?_)
  rw [hloses.exchanges.hasBound, hbound, ← hloses.exchanges.exists_bound i]
  exact exists_congr fun r => and_congr_left fun _ => (order.perm _).mem_iff.symm

/-- An exchange with one set of queues. -/
theorem Realm.removes_fanout
    (hbound : w.exchanges.HasBound p ↔ w.exchanges.fanoutQueues p.id ≠ []) (n : Nat) :
    Removes gone p w (run others (removeFanout p) n w) := by
  have hloses := hothers n w
  have hstep : run others (removeFanout p) n w =
      run others
        (if 0 < ((others n w).exchanges.fanoutQueues p.id).length then
          .done (.error .hasBoundQueues)
        else removalPipeline p []) (n + 1) (others n w) := rfl
  have hpos : 0 < ((others n w).exchanges.fanoutQueues p.id).length ↔ w.exchanges.HasBound p :=
    (List.length_pos_iff.trans (not_congr (hloses.exchanges.fanoutQueues p.id))).trans hbound.symm
  rw [hstep]
  by_cases hb : w.exchanges.HasBound p
  · rw [if_pos (hpos.2 hb)]
    exact .refused hb hloses
  rw [if_neg (mt hpos.1 hb)]
  exact .trans hloses
    (removes_pipeline hothers (mt (hloses.exchanges.hasBound p).1 hb) [] (n + 1))

/-- `Store.Delete`, after it has found the exchange. -/
theorem Realm.removes_found (order : SetOrder) (n : Nat) (w : Realm) :
    Removes gone p w (run others (removeFound p order) n w) := by
  obtain ⟨e, type⟩ := p
  cases type with
  | direct | topic => exact removes_routes hothers .rfl order n
  | fanout => exact removes_fanout hothers .rfl n
  | unknown code => exact removes_pipeline hothers id [] n

theorem Realm.deleteExchange_settles (p : ExchangeParams) (order : SetOrder) (n : Nat) (w : Realm) :
    (Member.exchange p).Settles gone ((Member.exchange p).decisive others n w)
      (Realm.deleteExchange others order p n w) := by
  have hstep : run others (removeExchange p order) n w =
      run others
        (if ((others n w).exchanges.props p.id).isNone then .done (.error .notFound)
        else removeFound p order) (n + 1) (others n w) := rfl
  have hnone : ((others n w).exchanges.props p.id).isNone = true ↔
      ¬ (others n w).Has (.exchange p) := by
    simp [Has]
  unfold deleteExchange
  rw [hstep]
  by_cases hhas : (others n w).Has (.exchange p)
  · rw [if_neg (mt hnone.1 (not_not.2 hhas))]
    cases hrun : run others (removeFound p order) (n + 1) (others n w) with
    | mk r rest =>
      have hremoves := removes_found (p := p) hothers order (n + 1) (others n w)
      rw [hrun] at hremoves
      cases hremoves with
      | removed hbound hloses hgone => exact .deleted hloses ⟨hhas, hbound⟩ hgone
      | refused hbound hloses =>
        have hnot : ¬ (others n w).Deletable (.exchange p) := fun hdel => hdel.2 hbound
        exact .refused hloses hnot (by simp)
  · rw [if_pos (hnone.2 hhas)]
    have hnot : ¬ (others n w).Deletable (.exchange p) := fun hdel => hhas hdel.1
    exact .refused (.refl _) hnot (by simp)

/-- The deletion of a member, by either store. -/
theorem Member.delete_settles (order : SetOrder) (x : Member) (n : Nat) (w : Realm) :
    x.Settles gone (x.decisive others n w) (x.delete others order n w) := by
  cases x with
  | queue q => exact Realm.deleteQueue_settles hothers q n w
  | exchange p => exact Realm.deleteExchange_settles hothers p order n w

end Stores

end RedisSmq
