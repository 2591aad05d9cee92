import RedisSmq.Admin.NamespaceSteps

/-!
# All or nothing in the deletion of a namespace

`Delete` removes the queues and the exchanges of a namespace one by one and undoes nothing.
It therefore leaves a namespace half deleted exactly if a member can be removed and one
after it cannot: if the first member is refused, nothing has happened yet. A member is
refused if it was not deletable when the call began, or if somebody else has deleted it
before its turn; that it is gone already counts as a failure.

A queue that is bound is refused, and nothing is unbound, so that a namespace whose queues
are bound to its exchanges cannot be deleted, however idle it is.
-/

namespace RedisSmq

def Member.ns : Member → String
  | .queue q => q.ns
  | .exchange p => p.id.ns

/-- Nothing is left of the namespace. -/
structure Realm.Cleared (w : Realm) (ns : String) : Prop where
  members : ∀ x : Member, x.ns = ns → ¬ w.Has x
  entry : ns ∉ w.namespaces

/-- Every queue and every exchange is listed in its namespace. -/
structure Realm.Registered (w : Realm) : Prop where
  queues : ∀ q, w.Has (.queue q) → q ∈ w.nsQueues q.ns
  exchanges : ∀ e, (w.exchanges.props e).isSome = true →
    ∃ t, ⟨e, t⟩ ∈ w.exchanges.nsExchanges e.ns

/-- Without an error nothing is left, and with one nothing was removed by the call. -/
structure Deletion.AllOrNothing (name : String) (d : Deletion) : Prop where
  all : d.error = none → ∀ ns, validateNamespace name = .ok ns → d.realm.Cleared ns
  nothing : d.error ≠ none → d.removed = []

/-- A member whose turn it is, and the realm in which it is decided whether it is deleted. -/
structure Turn where
  member : Member
  realm : Realm

/-- The member could be deleted at the beginning and is still there. -/
def Turn.Passes (w : Realm) (t : Turn) : Prop := w.Deletable t.member ∧ t.realm.Has t.member

section Turns

variable (others : Others) (order : SetOrder)

/-- The turns of a loop. -/
def turns : List Member → Nat → Realm → List Turn
  | [], _, _ => []
  | x :: xs, n, w =>
      let (_, n', w') := x.delete others order n w
      ⟨x, x.decisive others n w⟩ :: turns xs n' w'

/-- The turns of a call. Those of the exchanges come only if all queues were deleted. -/
def namespaceTurns (name : String) (w : Realm) : List Turn :=
  match validateNamespace name with
  | .error _ => []
  | .ok ns =>
      if ns ∉ (others 0 w).namespaces then []
      else
        let w := others 1 (others 0 w)
        let d := deleteNamespaceQueues others order ns w
        let queueTurns := turns others order ((w.nsQueues ns).map .queue) 2 w
        if d.error.isSome then queueTurns
        else
          let w := others d.next d.realm
          queueTurns ++
            turns others order ((w.exchanges.nsExchanges ns).map .exchange) (d.next + 1) w

end Turns

section Loop

variable {others : Others} {order : SetOrder} {gone : Set MemberKey}

theorem Realm.Loses.univ {w w' : Realm} (h : w.Loses gone w') : w.Loses Set.univ w' :=
  h.mono (Set.subset_univ _)

theorem Realm.Loses.registered {w w' : Realm} (h : w.Loses gone w') (hw : w.Registered) :
    w'.Registered where
  queues q hhas := by
    rcases h.queue q with ⟨-, hnot⟩ | ⟨hsame, hlisted⟩
    · exact absurd hhas hnot
    · exact hlisted (hw.queues q (h.has hhas))
  exchanges e hhas := by
    rcases h.exchanges.exchange e with ⟨-, hnone⟩ | ⟨hsame, hlisted⟩
    · rw [hnone] at hhas
      cases hhas
    rw [hsame] at hhas
    obtain ⟨t, ht⟩ := hw.exchanges e hhas
    exact ⟨t, hlisted t _ ht⟩

variable (others order) in
theorem turns_map_member (xs : List Member) (n : Nat) (w : Realm) :
    (turns others order xs n w).map Turn.member = xs := by
  induction xs generalizing n w with
  | nil => rfl
  | cons x xs ih => exact congrArg (x :: ·) (ih _ _)

def Member.keys (xs : List Member) : Set MemberKey := {k | ∃ x ∈ xs, x.key = k}

theorem Member.keys_mono {xs ys : List Member} (h : xs ⊆ ys) : keys xs ⊆ keys ys := by
  rintro k ⟨x, hx, hk⟩
  exact ⟨x, h hx, hk⟩

/-- What a loop comes to, with the members that were removed before it. -/
structure Deletion.Follows (gone : Set MemberKey) (w : Realm) (xs removed : List Member)
    (ts : List Turn) (d : Deletion) : Prop where
  loses : w.Loses (gone ∪ Member.keys d.removed) d.realm
  before : removed ⊆ d.removed
  within : d.removed ⊆ removed ++ xs
  members : ts.map Turn.member = xs
  turns : ∀ t ∈ ts, w.Loses Set.univ t.realm
  error : d.error = none ↔ ∀ t ∈ ts, t.realm.Deletable t.member
  gone : d.error = none → ∀ x ∈ xs, ¬ d.realm.Has x
  all : d.error = none → d.removed = removed ++ xs
  nothing : d.error ≠ none →
    (d.removed = [] ↔ removed = [] ∧ ∃ t ∈ ts.head?, ¬ t.realm.Deletable t.member)

section Rounds

variable {x : Member} {xs removed : List Member} {w w₀ w' : Realm} {n : Nat} {ts : List Turn}

/-- A round in which the member is deleted. -/
theorem Deletion.Follows.deleted {d : Deletion} (hdecisive : w.Loses gone w₀)
    (hx : x.Settles gone w₀ (none, n, w')) (h : d.Follows gone w' xs (removed ++ [x]) ts) :
    d.Follows gone w (x :: xs) removed (⟨x, w₀⟩ :: ts) := by
  have hdel : w₀.Deletable x := hx.deletes.1 rfl
  have hmem : x ∈ d.removed := h.before (by simp)
  have happend : removed ++ [x] ++ xs = removed ++ x :: xs := List.append_assoc removed [x] xs
  refine ⟨?_, fun y hy => h.before (List.mem_append_left _ hy), happend ▸ h.within,
    congrArg (x :: ·) h.members, ?_, ?_, fun hnone y hy => ?_,
    fun hnone => (h.all hnone).trans happend, fun hsome => ?_⟩
  · have hkey : x.key ∈ gone ∪ Member.keys d.removed := .inr ⟨x, hmem, rfl⟩
    refine ((hdecisive.mono Set.subset_union_left).trans ?_).trans h.loses
    exact hx.loses_insert.mono (Set.insert_subset hkey Set.subset_union_left)
  · refine List.forall_mem_cons.2 ⟨hdecisive.univ, fun t ht => ?_⟩
    exact (hdecisive.univ.trans hx.loses.univ).trans (h.turns t ht)
  · rw [List.forall_mem_cons, and_iff_right hdel]
    exact h.error
  · rcases List.mem_cons.1 hy with rfl | hy
    · exact mt h.loses.has (hx.gone rfl)
    · exact h.gone hnone y hy
  · refine (h.nothing hsome).trans (iff_of_false ?_ ?_)
    · exact fun hnil => List.append_ne_nil_of_right_ne_nil _ (List.cons_ne_nil x []) hnil.1
    rintro ⟨-, t, ht, hnot⟩
    cases ht
    exact hnot hdel

/-- A round in which the member is refused. -/
theorem Deletion.Follows.refused {e : StoreError} {failure : NamespaceError}
    (hdecisive : w.Loses gone w₀) (hx : x.Settles gone w₀ (some e, n, w'))
    (hmembers : ts.map Turn.member = xs) (hturns : ∀ t ∈ ts, w.Loses Set.univ t.realm) :
    Follows gone w (x :: xs) removed (⟨x, w₀⟩ :: ts) ⟨some failure, removed, n, w'⟩ := by
  have hnot : ¬ w₀.Deletable x := mt hx.deletes.2 (Option.some_ne_none e)
  have hloses : w.Loses gone w' := hdecisive.trans hx.loses
  refine ⟨hloses.mono Set.subset_union_left, fun _ h => h, List.subset_append_left _ _,
    congrArg (x :: ·) hmembers, List.forall_mem_cons.2 ⟨hdecisive.univ, hturns⟩,
    iff_of_false (Option.some_ne_none _) fun h => hnot (h _ (.head _)),
    fun h => absurd h (Option.some_ne_none _), fun h => absurd h (Option.some_ne_none _),
    fun _ => ?_⟩
  exact (and_iff_left ⟨_, rfl, hnot⟩).symm

end Rounds

variable (hothers : ∀ n w, Realm.Loses gone w (others n w))
include hothers

theorem Member.decisive_loses (x : Member) (n : Nat) (w : Realm) :
    w.Loses gone (x.decisive others n w) := by
  cases x with
  | queue q =>
    exact (((hothers n w).trans (hothers (n + 1) _)).trans (hothers (n + 2) _)).trans
      (hothers (n + 3) _)
  | exchange p => exact hothers n w

theorem turns_loses {xs : List Member} {n : Nat} {w : Realm} {t : Turn}
    (ht : t ∈ turns others order xs n w) : w.Loses Set.univ t.realm := by
  induction xs generalizing n w with
  | nil => cases ht
  | cons x xs ih =>
    have hdecisive := x.decisive_loses hothers n w
    rcases List.mem_cons.1 ht with rfl | ht
    · exact hdecisive.univ
    · have hsettles := x.delete_settles hothers order n w
      exact (hdecisive.univ.trans hsettles.loses.univ).trans (ih ht)

variable (order) in
theorem deleteMembers_follows (xs removed : List Member) (n : Nat) (w : Realm) :
    (deleteMembers others order xs removed n w).Follows gone w xs removed
      (turns others order xs n w) := by
  induction xs generalizing removed n w with
  | nil => exact ⟨.refl w, fun _ h => h, by simp [deleteMembers], rfl, by simp [turns],
      by simp [turns, deleteMembers], by simp, by simp [deleteMembers], fun h => absurd rfl h⟩
  | cons x xs ih =>
    have hdecisive := x.decisive_loses hothers n w
    have hsettles := x.delete_settles hothers order n w
    rw [deleteMembers, turns]
    cases hdelete : x.delete others order n w with
    | mk e rest =>
      obtain ⟨n', w'⟩ := rest
      rw [hdelete] at hsettles
      cases e with
      | none => exact .deleted hdecisive hsettles (ih (removed ++ [x]) n' w')
      | some e =>
        have he : e ≠ .namespaceNotFound := fun he => hsettles.error (congrArg some he)
        have hloses : w.Loses Set.univ w' := hdecisive.univ.trans hsettles.loses.univ
        dsimp only
        rw [if_neg he]
        exact .refused hdecisive hsettles (turns_map_member _ _ _ _ _)
          fun t ht => hloses.trans (turns_loses hothers ht)

end Loop

theorem Deletion.allOrNothing_iff_removed {name : String} {d : Deletion} (h : d.error ≠ none) :
    d.AllOrNothing name ↔ d.removed = [] :=
  ⟨fun hd => hd.nothing h, fun hd => ⟨fun hnone => absurd hnone h, fun _ => hd⟩⟩

/-- No turn is refused, or already the first one is. -/
def Undivided (ok : Turn → Prop) (ts : List Turn) : Prop :=
  (∀ t ∈ ts, ok t) ∨ ∃ t ∈ ts.head?, ¬ ok t

/-- What a call has come to, and the turns that it has had. -/
inductive Deletion.Course (gone : Set MemberKey) (name : String) (w : Realm) :
    Deletion → List Turn → Prop
  | rejected {e : NamespaceError} {n : Nat} {w' : Realm} (hloses : w.Loses gone w') :
      Course gone name w ⟨some e, [], n, w'⟩ []
  | queues {ns : String} {w₁ : Realm} {d : Deletion} {ts : List Turn} (hloses : w.Loses gone w₁)
      (hd : d.Follows gone w₁ ((w₁.nsQueues ns).map .queue) [] ts) (herror : d.error ≠ none) :
      Course gone name w d ts
  | exchanges {ns : String} {w₁ w₂ : Realm} {d d' : Deletion} {ts ts' : List Turn}
      (hloses : w.Loses gone w₁)
      (hd : d.Follows gone w₁ ((w₁.nsQueues ns).map .queue) [] ts) (hnone : d.error = none)
      (hloses' : d.realm.Loses gone w₂)
      (hd' : d'.Follows gone w₂ ((w₂.exchanges.nsExchanges ns).map .exchange) d.removed ts')
      (herror : d'.error ≠ none) : Course gone name w d' (ts ++ ts')
  | entry {ns : String} {w₁ w₂ w₃ : Realm} {d d' : Deletion} {ts ts' : List Turn}
      (hname : validateNamespace name = .ok ns) (hloses : w.Loses gone w₁)
      (hd : d.Follows gone w₁ ((w₁.nsQueues ns).map .queue) [] ts) (hnone : d.error = none)
      (hloses' : d.realm.Loses gone w₂)
      (hd' : d'.Follows gone w₂ ((w₂.exchanges.nsExchanges ns).map .exchange) d.removed ts')
      (hnone' : d'.error = none) (hloses'' : d'.realm.Loses gone w₃) :
      Course gone name w
        ⟨none, d'.removed, d'.next + 1, { w₃ with namespaces := srem ns w₃.namespaces }⟩ (ts ++ ts')

theorem deleteNamespace_course {others : Others} {gone : Set MemberKey}
    (hothers : ∀ n w, Realm.Loses gone w (others n w)) (order : SetOrder) (name : String)
    (w : Realm) :
    Deletion.Course gone name w (deleteNamespace others order name w)
      (namespaceTurns others order name w) := by
  unfold deleteNamespace namespaceTurns
  cases hname : validateNamespace name with
  | error e => exact .rejected (.refl w)
  | ok ns =>
    dsimp only
    by_cases hns : ns ∉ (others 0 w).namespaces
    · rw [if_pos hns, if_pos hns]
      exact .rejected (hothers 0 w)
    rw [if_neg hns, if_neg hns]
    let w₁ := others 1 (others 0 w)
    let d := deleteNamespaceQueues others order ns w₁
    let d' := deleteNamespaceExchanges others order ns d
    have hloses : w.Loses gone w₁ := (hothers 0 w).trans (hothers 1 _)
    have hd : d.Follows gone w₁ ((w₁.nsQueues ns).map .queue) [] _ :=
      deleteMembers_follows order hothers _ [] 2 w₁
    have hd' := deleteMembers_follows order hothers
      (((others d.next d.realm).exchanges.nsExchanges ns).map .exchange) d.removed (d.next + 1)
      (others d.next d.realm)
    by_cases hnone : d.error = none
    · rw [if_neg (Option.not_isSome_iff_eq_none.2 hnone),
        if_neg (Option.not_isSome_iff_eq_none.2 hnone)]
      by_cases hnone' : d'.error = none
      · rw [if_neg (Option.not_isSome_iff_eq_none.2 hnone')]
        have hentry : deleteNamespaceEntry others ns d' =
            ⟨none, d'.removed, d'.next + 1,
              { others d'.next d'.realm with
                namespaces := srem ns (others d'.next d'.realm).namespaces }⟩ := by
          rw [← hnone']
          rfl
        rw [hentry]
        exact .entry hname hloses hd hnone (hothers _ _) hd' hnone' (hothers _ _)
      · rw [if_pos (Option.isSome_iff_ne_none.2 hnone')]
        exact .exchanges hloses hd hnone (hothers _ _) hd' hnone'
    · rw [if_pos (Option.isSome_iff_ne_none.2 hnone),
        if_pos (Option.isSome_iff_ne_none.2 hnone)]
      exact .queues hloses hd hnone

section BothLoops

variable {gone : Set MemberKey} {w₁ w₂ : Realm} {ns : String} {d d' : Deletion}
variable {ts ts' : List Turn}
variable (hd : d.Follows gone w₁ ((w₁.nsQueues ns).map .queue) [] ts)
variable (hloses' : d.realm.Loses gone w₂)
variable (hd' : d'.Follows gone w₂ ((w₂.exchanges.nsExchanges ns).map .exchange) d.removed ts')
include hd hloses' hd'

theorem Deletion.Follows.both_lose : w₁.Loses (gone ∪ Member.keys d'.removed) d'.realm := by
  have hkeys := Set.union_subset_union_right gone (Member.keys_mono hd'.before)
  exact ((hd.loses.mono hkeys).trans (hloses'.mono Set.subset_union_left)).trans hd'.loses

/-- What is listed was deleted, and nothing else was there. -/
theorem Deletion.Follows.both_gone (hw : w₁.Registered) (hnone : d.error = none)
    (hnone' : d'.error = none) {x : Member} (hx : x.ns = ns) : ¬ d'.realm.Has x := by
  subst hx
  intro hhas
  have hhas₂ := hd'.loses.has hhas
  have hhas₁ := hd.loses.has (hloses'.has hhas₂)
  cases x with
  | queue q =>
    have hlisted := hw.queues q hhas₁
    exact hd.gone hnone (.queue q) (List.mem_map_of_mem hlisted) (hloses'.has hhas₂)
  | exchange p =>
    have hw₂ := (hd.loses.univ.trans hloses'.univ).registered hw
    obtain ⟨t, ht⟩ := hw₂.exchanges p.id hhas₂
    exact hd'.gone hnone' (.exchange ⟨p.id, t⟩) (List.mem_map_of_mem ht) hhas

end BothLoops

namespace Deletion.Course

variable {gone : Set MemberKey} {name : String} {w : Realm} {d : Deletion} {ts : List Turn}

theorem loses (h : Course gone name w d ts) : w.Loses (gone ∪ Member.keys d.removed) d.realm := by
  cases h with
  | rejected hloses => exact hloses.mono Set.subset_union_left
  | queues hloses hd => exact (hloses.mono Set.subset_union_left).trans hd.loses
  | exchanges hloses hd hnone hloses' hd' =>
    exact (hloses.mono Set.subset_union_left).trans (hd.both_lose hloses' hd')
  | entry hname hloses hd hnone hloses' hd' hnone' hloses'' =>
    have hlast := (hd.both_lose hloses' hd').trans (hloses''.mono Set.subset_union_left)
    have hwhole := (hloses.mono Set.subset_union_left).trans hlast
    exact ⟨hwhole.queue, hwhole.exchanges⟩

theorem turns_lose (h : Course gone name w d ts) {t : Turn} (ht : t ∈ ts) :
    w.Loses Set.univ t.realm := by
  cases h with
  | rejected => cases ht
  | queues hloses hd => exact hloses.univ.trans (hd.turns t ht)
  | exchanges hloses hd hnone hloses' hd' | entry hname hloses hd hnone hloses' hd' =>
    rcases List.mem_append.1 ht with ht | ht
    · exact hloses.univ.trans (hd.turns t ht)
    · exact ((hloses.univ.trans hd.loses.univ).trans hloses'.univ).trans (hd'.turns t ht)

theorem allOrNothing (h : Course gone name w d ts) (hw : w.Registered) :
    d.AllOrNothing name ↔ Undivided (fun t => t.realm.Deletable t.member) ts := by
  cases h with
  | rejected =>
    exact iff_of_true ((allOrNothing_iff_removed (Option.some_ne_none _)).2 rfl) (.inl (by simp))
  | queues hloses hd herror =>
    rw [allOrNothing_iff_removed herror]
    refine (hd.nothing herror).trans ⟨fun h => .inr h.2, fun h => ⟨rfl, h.resolve_left ?_⟩⟩
    exact mt hd.error.2 herror
  | @exchanges ns w₁ w₂ d d' ts ts' hloses hd hnone hloses' hd' herror =>
    rw [allOrNothing_iff_removed herror, hd'.nothing herror, hd.all hnone, ← hd.members]
    have hrefused := mt hd'.error.2 herror
    cases ts with
    | nil => exact ⟨fun h => .inr h.2, fun h => ⟨rfl, h.resolve_left hrefused⟩⟩
    | cons t ts =>
      refine iff_of_false (fun h => List.cons_ne_nil _ _ h.1) ?_
      rintro (hall | ⟨t', ht', hnot⟩)
      · exact hrefused fun u hu => hall u (List.mem_append_right _ hu)
      · cases ht'
        exact hnot (hd.error.1 hnone t (.head _))
  | entry hname hloses hd hnone hloses' hd' hnone' hloses'' =>
    refine iff_of_true ⟨fun _ ns' hname' => ?_, fun h => absurd rfl h⟩ (.inl ?_)
    · cases hname.symm.trans hname'
      refine ⟨fun x hx hhas => ?_, fun h => (mem_srem.1 h).2 rfl⟩
      exact hd.both_gone hloses' hd' (hloses.registered hw) hnone hnone' hx
        (hloses''.has (x := x) hhas)
    · exact List.forall_mem_append.2 ⟨hd.error.1 hnone, hd'.error.1 hnone'⟩

end Deletion.Course

theorem Undivided.congr {ok ok' : Turn → Prop} {ts : List Turn}
    (h : ∀ t ∈ ts, ok t ↔ ok' t) : Undivided ok ts ↔ Undivided ok' ts := by
  refine or_congr (forall₂_congr h) (exists_congr fun t => and_congr_right fun ht => ?_)
  exact not_congr (h t (List.mem_of_mem_head? ht))

section Nobody

variable {order : SetOrder} {w : Realm}

theorem nobody_loses (n : Nat) (w : Realm) : w.Loses ∅ (nobody n w) := .refl w

theorem Member.decisive_nobody (x : Member) (n : Nat) (w : Realm) : x.decisive nobody n w = w := by
  cases x <;> rfl

/-- A member that nobody else deletes is there at its turn. -/
theorem turns_nobody_has {xs : List Member} (hnodup : (xs.map Member.key).Nodup) {n : Nat}
    {t : Turn} (ht : t ∈ turns nobody order xs n w) : t.realm.Has t.member ↔ w.Has t.member := by
  induction xs generalizing n w with
  | nil => cases ht
  | cons x xs ih =>
    rw [turns] at ht
    rcases List.mem_cons.1 ht with rfl | ht
    · rw [x.decisive_nobody]
    obtain ⟨hnot, hnodup⟩ := List.nodup_cons.1 hnodup
    have hsettles := x.delete_settles nobody_loses order n w
    rw [x.decisive_nobody] at hsettles
    have hmem : t.member ∈ xs := by
      rw [← turns_map_member nobody order xs]
      exact List.mem_map_of_mem ht
    refine (ih hnodup ht).trans (hsettles.loses_insert.has_iff fun hkey => hnot ?_)
    rw [← hkey.resolve_right (Set.notMem_empty _)]
    exact List.mem_map_of_mem hmem

variable (order) in
/-- Alone, a loop deletes all members if each of them was deletable when it began. -/
theorem deleteMembers_nobody {xs : List Member} (hnodup : (xs.map Member.key).Nodup)
    (removed : List Member) (n : Nat) (w : Realm) :
    (deleteMembers nobody order xs removed n w).error = none ↔ ∀ x ∈ xs, w.Deletable x := by
  have hfollows := deleteMembers_follows order nobody_loses xs removed n w
  have hturn : ∀ t ∈ turns nobody order xs n w,
      t.realm.Deletable t.member ↔ w.Deletable t.member := by
    intro t ht
    rw [(hfollows.turns t ht).deletable, turns_nobody_has hnodup ht]
    exact and_iff_left_of_imp Realm.Deletable.has
  rw [hfollows.error, forall₂_congr hturn]
  conv_rhs => rw [← hfollows.members]
  exact List.forall_mem_map.symm

/-- Alone, a call succeeds if all queues and all exchanges of the namespace were deletable
when it began. -/
theorem deleteNamespace_nobody {name ns : String} (hname : validateNamespace name = .ok ns)
    (hns : ns ∈ w.namespaces) (hqueues : (w.nsQueues ns).Nodup)
    (hexchanges : ((w.exchanges.nsExchanges ns).map ExchangeParams.id).Nodup) :
    (deleteNamespace nobody order name w).error = none ↔
      (∀ q ∈ w.nsQueues ns, w.Deletable (.queue q)) ∧
        ∀ p ∈ w.exchanges.nsExchanges ns, w.Deletable (.exchange p) := by
  let d := deleteNamespaceQueues nobody order ns w
  let d' := deleteNamespaceExchanges nobody order ns d
  have hd : d.Follows ∅ w ((w.nsQueues ns).map .queue) [] _ :=
    deleteMembers_follows order nobody_loses _ [] 2 w
  have hspared : ∀ p : ExchangeParams, (Member.exchange p).key ∉ ∅ ∪ Member.keys d.removed := by
    rintro p (hempty | ⟨x, hx, hkey⟩)
    · exact hempty
    · obtain ⟨q, -, rfl⟩ := List.mem_map.1 (hd.within hx)
      cases hkey
  have herror : d.error = none ↔ ∀ q ∈ w.nsQueues ns, w.Deletable (.queue q) := by
    refine (deleteMembers_nobody order ?_ [] 2 w).trans List.forall_mem_map
    rw [List.map_map]
    exact hqueues.map Sum.inl_injective
  have herror' : d'.error = none ↔ ∀ p ∈ w.exchanges.nsExchanges ns, w.Deletable (.exchange p) := by
    refine (deleteMembers_nobody order ?_ _ _ _).trans (List.forall_mem_map.trans ?_)
    · have hids := hexchanges.sublist ((hd.loses.exchanges.listed ns).map ExchangeParams.id)
      have hkeys := hids.map (Sum.inr_injective (α := QueueParams))
      rwa [List.map_map] at hkeys ⊢
    · exact forall_congr' fun p => imp_congr (hd.loses.exchanges.mem_nsExchanges (hspared p))
        (hd.loses.deletable_iff (hspared p))
  have hcall : deleteNamespace nobody order name w =
      if d.error.isSome then d
      else if d'.error.isSome then d' else deleteNamespaceEntry nobody ns d' := by
    unfold deleteNamespace
    rw [hname]
    exact if_neg (not_not.2 hns)
  rw [hcall, ← herror, ← herror']
  by_cases hnone : d.error = none
  · rw [if_neg (Option.not_isSome_iff_eq_none.2 hnone), and_iff_right hnone]
    split
    · exact .rfl
    · exact .rfl
  · rw [if_pos (Option.isSome_iff_ne_none.2 hnone)]
    exact iff_of_false hnone fun h => hnone h.1

end Nobody

/-- While others delete at most what is in `gone`, a call is all or nothing if and only if all
members pass or the first one does not, and what is missing after it is in `gone` or among
what the call has removed. And when the queues of a namespace are empty and have no live
consumers, its deletion succeeds, with nobody else there, if and only if all its members exist,
no queue is locked or bound and no exchange has a queue bound to it. -/
theorem namespace_deletion_undivided (order : SetOrder) (name : String) {others : Others}
    {gone : Set MemberKey} (hothers : ∀ n w, Realm.Loses gone w (others n w)) {w : Realm}
    (hw : w.Registered) :
    ((deleteNamespace others order name w).AllOrNothing name ↔
        Undivided (Turn.Passes w) (namespaceTurns others order name w)) ∧
      (∀ x, w.Has x → ¬ (deleteNamespace others order name w).realm.Has x →
        x.key ∈ gone ∨ ∃ y ∈ (deleteNamespace others order name w).removed, y.key = x.key) ∧
      ∀ ns, validateNamespace name = .ok ns → ns ∈ w.namespaces → (w.nsQueues ns).Nodup →
        ((w.exchanges.nsExchanges ns).map ExchangeParams.id).Nodup →
        (∀ q ∈ w.nsQueues ns, w.Idle q) →
        ((deleteNamespace nobody order name w).error = none ↔
          (∀ q ∈ w.nsQueues ns, w.Has (.queue q) ∧ w.Free q) ∧
            ∀ p ∈ w.exchanges.nsExchanges ns,
              w.Has (.exchange p) ∧ ¬ w.exchanges.HasBound p) := by
  have hcourse := deleteNamespace_course hothers order name w
  refine ⟨?_, fun x hhas hnot => ?_, ?_⟩
  · rw [hcourse.allOrNothing hw]
    exact Undivided.congr fun t ht => (hcourse.turns_lose ht).deletable t.member
  · by_contra hkey
    exact hnot ((hcourse.loses.has_iff hkey).2 hhas)
  · intro ns hname hns hqueues hexchanges hidle
    rw [deleteNamespace_nobody hname hns hqueues hexchanges]
    refine and_congr (forall₂_congr fun q hq => ?_) .rfl
    exact ⟨fun h => ⟨h.1, h.2.1⟩, fun h => ⟨h.1, h.2, hidle q hq⟩⟩

/-- Another queue in the namespace of the orders. -/
def refundsQueue : QueueParams := ⟨"refunds", "shop", by decide, ordersQueue.validNs⟩

def emptyQueue : Managed := .created {} .fifo .pointToPoint [] 0

/-- A namespace with two queues and a fanout exchange, to which the orders may be bound. -/
def shop (refunds : Managed) (bound : Bool) : Realm where
  namespaces := ["shop"]
  allQueues := [ordersQueue, refundsQueue]
  nsQueues ns := if ns = "shop" then [ordersQueue, refundsQueue] else []
  queues q :=
    if q = ordersQueue then emptyQueue
    else if q = refundsQueue then refunds
    else emptyQueue.setDb { emptyQueue.db with queue := none }
  exchanges :=
    { ExchangeStore.initial fun q =>
        if q = ordersQueue ∨ q = refundsQueue then some .fifo else none with
      props := fun e => if e = salesExchange then some ⟨some .fanout, some .standard⟩ else none
      fanoutQueues := fun e => if e = salesExchange ∧ bound = true then [ordersQueue] else []
      bindings := fun q =>
        if q = ordersQueue ∧ bound = true then [⟨salesExchange, .fanout⟩] else []
      allExchanges := [⟨salesExchange, .fanout⟩]
      nsExchanges := fun ns => if ns = "shop" then [⟨salesExchange, .fanout⟩] else [] }

/-- Another client deletes the refunds after they were listed. -/
def rival : Others := fun n w =>
  if n = 5 then (w.deleteQueueScript refundsQueue [] [] []).2 else w

/-- The orders are gone when the deletion of the refunds fails, because there is a message in
them or because they are gone too; and a queue that is bound keeps a namespace, although all
its queues are empty and without consumers. -/
theorem namespace_deletion_divided :
    ¬ (deleteNamespace nobody .asAdded "shop"
        (shop (emptyQueue.setDb (emptyQueue.db.hincrby .messages 1)) false)).AllOrNothing "shop" ∧
      ¬ (deleteNamespace rival .asAdded "shop" (shop emptyQueue false)).AllOrNothing "shop" ∧
      (∀ q ∈ (shop emptyQueue true).nsQueues "shop", (shop emptyQueue true).Idle q) ∧
      (deleteNamespace nobody .asAdded "shop" (shop emptyQueue true)).error =
        some (.deleteQueue "orders" (.queue .queueHasBoundExchange)) := by
  refine ⟨fun h => ?_, fun h => ?_, ?_, by rfl⟩
  · have hremoved := h.nothing (by decide)
    revert hremoved
    decide
  · have hremoved := h.nothing (by decide)
    revert hremoved
    decide
  · decide

theorem rival_loses (n : Nat) (w : Realm) : w.Loses {.inl refundsQueue} (rival n w) := by
  unfold rival
  split
  · exact .deleteQueueScript w refundsQueue [] [] [] rfl
  · exact .refl w

theorem shop_registered : (shop emptyQueue false).Registered where
  queues q hhas := by
    by_cases horders : q = ordersQueue
    · subst horders
      decide
    by_cases hrefunds : q = refundsQueue
    · subst hrefunds
      decide
    have hnone : (shop emptyQueue false).queues q =
        emptyQueue.setDb { emptyQueue.db with queue := none } :=
      (if_neg horders).trans (if_neg hrefunds)
    rw [Realm.Has, hnone] at hhas
    cases hhas
  exchanges e hhas := by
    by_cases hsales : e = salesExchange
    · subst hsales
      exact ⟨.fanout, by decide⟩
    have hnone : (shop emptyQueue false).exchanges.props e = none := if_neg hsales
    rw [hnone] at hhas
    cases hhas

theorem namespace_deletion_undivided_shop :
    (deleteNamespace nobody .asAdded "Shop" (shop emptyQueue false)).error = none ∧
      ¬ Undivided (Turn.Passes (shop emptyQueue false))
        (namespaceTurns rival .asAdded "Shop" (shop emptyQueue false)) := by
  have h := namespace_deletion_undivided .asAdded "Shop" rival_loses shop_registered
  refine ⟨(h.2.2 "shop" (by rfl) (by decide) (by decide) (by decide) (by decide)).2 ?_,
    fun hu => ?_⟩
  · refine ⟨by decide, fun p hp => ?_⟩
    cases List.mem_singleton.1 hp
    exact ⟨by decide, fun hbound => hbound rfl⟩
  · have hremoved := (h.1.2 hu).nothing (by decide)
    revert hremoved
    decide

end RedisSmq
