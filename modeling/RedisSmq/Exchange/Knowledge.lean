import RedisSmq.Exchange.Calls

/-!
# What a call knows when it writes

A call decides on its write by what it has read. Of what it has read, the values of the
watched keys still hold when the write is carried out; the rest may have changed. This
module states for each kind of write what is known at that point, and shows that a call is
safe if its writes keep the contract in every store of which that is known.
-/

namespace RedisSmq

open Optimistic

/-- The write is one that the call may come to. -/
def ExchangeCall.May : ExchangeCall → ExchangeWrite → Prop
  | .create store p policy, w => p.type = store.type ∧ w = .save p policy
  | .bind kind q p r, w => ∃ type, w = .bind kind p q r type
  | .bindFanout q p, w => ∃ type, w = .bindFanout p q type
  | .unbind kind q p r _, w => ∃ last still, w = .unbind kind p q r last still
  | .unbindFanout q p, w => w = .unbindFanout p q
  | .delete kind p _, w => ∃ found, w = .delete kind p found
  | .deleteFanout p, w => w = .deleteFanout p
  | .remove p _, w =>
      (∃ found, w = .dropProps p found) ∨ w = .dropListed p ∨ w = .dropNsListed p ∨
        w = .dropIndex p

/-- The validator would let a queue of the type be bound, or the exchange does not exist. -/
def ExchangeStore.Accepts (s : ExchangeStore) (p : ExchangeParams) (type : QueueType) : Prop :=
  ∀ h, s.props p.id = some h → h.decodedType = p.type ∧ h.decodedPolicy.allows type = true

/-- The exchange had the type in an earlier store, with the same registry of all exchanges. -/
def WasTyped (K : Contract ExchangeStore ExchangeWrite) (p : ExchangeParams) (s : ExchangeStore) :
    Prop :=
  ∃ s₁, K.I s₁ ∧ s₁.typeOf p.id = some p.type ∧ s₁.allExchanges = s.allExchanges

/-- The queue had the type in an earlier store. -/
def HadType (K : Contract ExchangeStore ExchangeWrite) (c : Nat) (q : QueueParams)
    (type : QueueType) (s : ExchangeStore) : Prop :=
  ∃ s₁, K.R c s₁ s ∧ s₁.queues q = some type

/-- What a call knows of the store in which it writes. -/
def Knows (K : Contract ExchangeStore ExchangeWrite) (c : Nat) (s : ExchangeStore) :
    ExchangeWrite → Prop
  | .save p _ => s.typeOf p.id = none
  | .bind kind p q r type =>
      HadType K c q type s ∧ s.Accepts p type ∧ q ∉ s.routeQueues (⟨kind, p.id⟩, r)
  | .bindFanout p q type => HadType K c q type s ∧ s.Accepts p type ∧ q ∉ s.fanoutQueues p.id
  | .unbind kind p q r last _ =>
      q ∈ s.routeQueues (⟨kind, p.id⟩, r) ∧
        last = decide ((s.routeQueues (⟨kind, p.id⟩, r)).length = 1)
  | .unbindFanout p q => q ∈ s.fanoutQueues p.id
  | .delete kind p found => WasTyped K p s ∧ ∀ r ∈ found, s.routeQueues (⟨kind, p.id⟩, r) = []
  | .deleteFanout p => WasTyped K p s ∧ s.fanoutQueues p.id = []
  | _ => True

section Attempts

variable {K : Contract ExchangeStore ExchangeWrite} {c : Nat} {keys : List ExchangeKey}
variable {known : ExchangeStore} {p : ExchangeParams} {q : QueueParams} {i : RouteIndex}

theorem ExchangeStore.typeError_eq_none_iff {s : ExchangeStore} :
    s.typeError p = none ↔ s.typeOf p.id = some p.type := by
  unfold typeError
  cases s.typeOf p.id with
  | none => simp
  | some type => by_cases h : type = p.type <;> simp [h]

theorem validateType_safe {next : ExchangeAttempt}
    (hnext : ∀ s, K.I s → K.R c known s → exchangeServer.SameOn keys known s →
      s.typeOf p.id = some p.type → next.Safe exchangeServer K c keys s) :
    (validateType p next).Safe exchangeServer K c keys known := by
  intro s hI hR hsame
  dsimp only
  split
  · trivial
  · rename_i hnone
    exact hnext s hI hR hsame (ExchangeStore.typeError_eq_none_iff.1 hnone)

theorem validateQueueBinding_safe {next : QueueType → ExchangeAttempt}
    (hnext : ∀ type s, K.I s → HadType K c q type s → s.Accepts p type →
      (next type).Safe exchangeServer K c keys s) :
    (validateQueueBinding p q next).Safe exchangeServer K c keys known := by
  intro s₁ hI₁ hR₁ hsame₁
  dsimp only
  split
  · trivial
  rename_i type htype
  intro s₂ hI₂ hR₂ hsame₂
  dsimp only
  split
  · rename_i hprops
    exact hnext type s₂ hI₂ ⟨s₁, hR₂, htype⟩ fun h hh => (nomatch hprops.symm.trans hh)
  rename_i h hprops
  split
  · trivial
  rename_i hdecoded
  split
  · trivial
  rename_i hallows
  refine hnext type s₂ hI₂ ⟨s₁, hR₂, htype⟩ fun h' hh => ?_
  cases hprops.symm.trans hh
  exact ⟨not_not.1 hdecoded, Bool.not_eq_false _ ▸ hallows⟩

/-- Whatever the routing keys are, the transaction goes on in a store that it knows. -/
theorem stillBound_safe {next : Bool → ExchangeAttempt} {rs : List String} (hI : K.I known)
    (hnext : ∀ still s, K.I s → K.R c known s → exchangeServer.SameOn keys known s →
      (next still).Safe exchangeServer K c keys s) :
    (stillBound i q next rs).Safe exchangeServer K c keys known := by
  induction rs generalizing known with
  | nil => exact hnext false known hI (K.refl c known) (.refl _ _)
  | cons r rs ih =>
    intro s hs hR hsame
    dsimp only
    split
    · exact hnext true s hs hR hsame
    · exact ih hs fun still s' hs' hR' hsame' =>
        hnext still s' hs' (K.trans c _ _ _ hR hR') (hsame.trans hsame')

/-- All watched sets that were found empty are empty at the end. -/
theorem noneBound_safe {next : ExchangeAttempt} (before : List String) {rs : List String}
    (hI : K.I known) (hkeys : ∀ r ∈ before ++ rs, ExchangeKey.routeQueues i r ∈ keys)
    (hbefore : ∀ r ∈ before, known.routeQueues (i, r) = [])
    (hnext : ∀ s, K.I s → K.R c known s → exchangeServer.SameOn keys known s →
      (∀ r ∈ before ++ rs, s.routeQueues (i, r) = []) → next.Safe exchangeServer K c keys s) :
    (noneBound i next rs).Safe exchangeServer K c keys known := by
  induction rs generalizing known before with
  | nil => exact hnext known hI (K.refl c known) (.refl _ _) (by simpa using hbefore)
  | cons r rs ih =>
    intro s hs hR hsame
    dsimp only
    split
    · trivial
    rename_i hempty
    refine ih (before ++ [r]) hs (by simpa using hkeys) (fun r' hr' => ?_) ?_
    · rcases List.mem_append.1 hr' with hr' | hr'
      · have hsame' : known.routeQueues (i, r') = s.routeQueues (i, r') :=
          hsame _ (hkeys r' (List.mem_append_left _ hr'))
        rw [← hsame', hbefore r' hr']
      · rw [List.mem_singleton.1 hr']
        exact List.eq_nil_of_length_eq_zero (Nat.eq_zero_of_not_pos hempty)
    · intro s' hs' hR' hsame' hall
      exact hnext s' hs' (K.trans c _ _ _ hR hR') (hsame.trans hsame') (by simpa using hall)

end Attempts

section Calls

variable {K : Contract ExchangeStore ExchangeWrite} {c : Nat} {known : ExchangeStore}
variable {p : ExchangeParams} {q : QueueParams}
variable {kind : RouteKind} {order : SetOrder}

/-- A write keeps the contract wherever a call knows enough to make it. -/
def KeptByCall (K : Contract ExchangeStore ExchangeWrite) (c : Nat) (w : ExchangeWrite) : Prop :=
  ∀ s, K.I s → Knows K c s w → K.C (some c) w s → Keeps exchangeServer K (some c) w s

theorem saveExchange_safe {policy : ExchangePolicy} (h : KeptByCall K c (.save p policy)) :
    (saveExchange p policy).Safe exchangeServer K c known := by
  intro s₀ hI₀ hR₀ s₁ hI₁ hR₁ hsame₁
  dsimp only
  split
  · trivial
  rename_i hnone
  intro s hI hR hsame
  have hprops : s₁.props p.id = s.props p.id := hsame (.props p.id) (by simp)
  refine h s hI ?_
  change (s.props p.id).bind _ = none
  rw [← hprops]
  simpa [ExchangeStore.typeOf] using hnone

theorem bindQueue_safe {r : String} (h : ∀ type, KeptByCall K c (.bind kind p q r type)) :
    (bindQueue kind q p r).Safe exchangeServer K c known := by
  unfold bindQueue
  dsimp only
  split
  · trivial
  split
  · trivial
  intro s₀ hI₀ hR₀
  refine validateQueueBinding_safe fun type s₁ hI₁ htype haccepts => ?_
  intro s₂ hI₂ hR₂ hsame₂
  dsimp only
  split
  · trivial
  rename_i hnot
  intro s hI hR hsame
  have hsame₁ := hsame₂.trans hsame
  have hprops : s₁.props p.id = s.props p.id := hsame₁ (.props p.id) (by simp)
  have hqueues : s₂.routeQueues (⟨kind, p.id⟩, r) = s.routeQueues (⟨kind, p.id⟩, r) :=
    hsame (.routeQueues ⟨kind, p.id⟩ r) (by simp)
  obtain ⟨s', hR', htype'⟩ := htype
  exact h type s hI ⟨⟨s', K.trans c _ _ _ hR' (K.trans c _ _ _ hR₂ hR), htype'⟩,
    fun hash hh => haccepts hash (hprops.trans hh), hqueues ▸ hnot⟩

theorem bindFanoutQueue_safe (h : ∀ type, KeptByCall K c (.bindFanout p q type)) :
    (bindFanoutQueue q p).Safe exchangeServer K c known := by
  unfold bindFanoutQueue
  split
  · trivial
  intro s₀ hI₀ hR₀
  refine validateQueueBinding_safe fun type s₁ hI₁ htype haccepts => ?_
  intro s₂ hI₂ hR₂ hsame₂
  dsimp only
  split
  · trivial
  rename_i hnot
  intro s hI hR hsame
  have hsame₁ := hsame₂.trans hsame
  have hprops : s₁.props p.id = s.props p.id := hsame₁ (.props p.id) (by simp)
  have hqueues : s₂.fanoutQueues p.id = s.fanoutQueues p.id :=
    hsame (.fanoutQueues p.id) (by simp)
  obtain ⟨s', hR', htype'⟩ := htype
  exact h type s hI ⟨⟨s', K.trans c _ _ _ hR' (K.trans c _ _ _ hR₂ hR), htype'⟩,
    fun hash hh => haccepts hash (hprops.trans hh), hqueues ▸ hnot⟩

theorem unbindQueue_safe {r : String}
    (h : ∀ last still, KeptByCall K c (.unbind kind p q r last still)) :
    (unbindQueue kind q p r order).Safe exchangeServer K c known := by
  unfold unbindQueue
  dsimp only
  split
  · trivial
  split
  · trivial
  intro s₀ hI₀ hR₀
  refine validateType_safe fun s₁ hI₁ hR₁ hsame₁ _ => ?_
  intro s₂ hI₂ hR₂ hsame₂
  dsimp only
  split
  · trivial
  rename_i hmem
  intro s₃ hI₃ hR₃ hsame₃
  refine stillBound_safe hI₃ fun still s₄ hI₄ hR₄ hsame₄ => ?_
  intro s₅ hI₅ hR₅ hsame₅ s hI hR hsame
  have hchain := ((hsame₃.trans hsame₄).trans hsame₅).trans hsame
  have hqueues : s₂.routeQueues (⟨kind, p.id⟩, r) = s.routeQueues (⟨kind, p.id⟩, r) :=
    hchain (.routeQueues ⟨kind, p.id⟩ r) (by simp)
  have hcount : s₅.routeQueues (⟨kind, p.id⟩, r) = s.routeQueues (⟨kind, p.id⟩, r) :=
    hsame (.routeQueues ⟨kind, p.id⟩ r) (by simp)
  exact h _ still s hI ⟨hqueues ▸ not_not.1 hmem, by rw [hcount]⟩

theorem unbindFanoutQueue_safe (h : KeptByCall K c (.unbindFanout p q)) :
    (unbindFanoutQueue q p).Safe exchangeServer K c known := by
  unfold unbindFanoutQueue
  split
  · trivial
  intro s₀ hI₀ hR₀
  refine validateType_safe fun s₁ hI₁ hR₁ hsame₁ _ => ?_
  intro s₂ hI₂ hR₂ hsame₂
  dsimp only
  split
  · trivial
  rename_i hmem
  intro s hI hR hsame
  have hqueues : s₂.fanoutQueues p.id = s.fanoutQueues p.id :=
    hsame (.fanoutQueues p.id) (by simp)
  have hbound : q ∈ s.fanoutQueues p.id := hqueues ▸ not_not.1 hmem
  exact h s hI hbound

theorem deleteFound_safe {found : List String} (h : KeptByCall K c (.delete kind p found)) :
    (deleteFound kind p found).Safe exchangeServer K c known := by
  intro s₀ hI₀ hR₀
  refine validateType_safe fun s₁ hI₁ hR₁ hsame₁ htype => ?_
  refine noneBound_safe [] hI₁ (fun r hr => ?_) (fun r hr => (nomatch hr)) ?_
  · exact List.mem_append_right _ (List.mem_map_of_mem hr)
  intro s₂ hI₂ hR₂ hsame₂ hempty s hI hR hsame
  have hall : s₁.allExchanges = s.allExchanges := (hsame₂.trans hsame) .allExchanges (by simp)
  refine h s hI ⟨⟨s₁, hI₁, htype, hall⟩, fun r hr => ?_⟩
  have hqueues : s₂.routeQueues (⟨kind, p.id⟩, r) = s.routeQueues (⟨kind, p.id⟩, r) :=
    hsame (.routeQueues ⟨kind, p.id⟩ r) (List.mem_append_right _ (List.mem_map_of_mem hr))
  rw [← hqueues]
  exact hempty r hr

theorem deleteExchange_safe (h : ∀ found, KeptByCall K c (.delete kind p found)) :
    (deleteExchange kind p order).Safe exchangeServer K c known := by
  unfold deleteExchange
  cases kind with
  | direct =>
    intro s hI hR
    dsimp only
    split
    · trivial
    · exact fun s' _ _ => deleteFound_safe (h _)
  | topic => exact fun s' _ _ => deleteFound_safe (h _)

theorem deleteFanoutExchange_safe (h : KeptByCall K c (.deleteFanout p)) :
    (deleteFanoutExchange p).Safe exchangeServer K c known := by
  intro s₀ hI₀ hR₀
  refine validateType_safe fun s₁ hI₁ hR₁ hsame₁ htype => ?_
  intro s₂ hI₂ hR₂ hsame₂
  dsimp only
  split
  · trivial
  rename_i hempty
  intro s hI hR hsame
  have hall : s₁.allExchanges = s.allExchanges := (hsame₂.trans hsame) .allExchanges (by simp)
  have hqueues : s₂.fanoutQueues p.id = s.fanoutQueues p.id :=
    hsame (.fanoutQueues p.id) (by simp)
  refine h s hI ⟨⟨s₁, hI₁, htype, hall⟩, ?_⟩
  rw [← hqueues]
  exact List.eq_nil_of_length_eq_zero (Nat.eq_zero_of_not_pos hempty)

/-- A call other than the manager's removal is safe if its writes keep the contract wherever
it knows enough to make them. -/
theorem ExchangeCall.safe {call : ExchangeCall} (hcall : call.isRemoval = false)
    (h : ∀ w, call.May w → KeptByCall K c w) : call.program.Safe exchangeServer K c known := by
  cases call with
  | create store p policy =>
    change (createExchange store p policy).Safe exchangeServer K c known
    unfold createExchange
    split
    · trivial
    · rename_i htype
      exact saveExchange_safe (h _ ⟨not_not.1 htype, rfl⟩)
  | bind kind q p r => exact bindQueue_safe fun type => h _ ⟨type, rfl⟩
  | bindFanout q p => exact bindFanoutQueue_safe fun type => h _ ⟨type, rfl⟩
  | unbind kind q p r order => exact unbindQueue_safe fun last still => h _ ⟨last, still, rfl⟩
  | unbindFanout q p => exact unbindFanoutQueue_safe (h _ rfl)
  | delete kind p order => exact deleteExchange_safe fun found => h _ ⟨found, rfl⟩
  | deleteFanout p => exact deleteFanoutExchange_safe (h _ rfl)
  | remove p order => cases hcall

end Calls

section Runs

/-- The actions that are considered keep the contract. -/
structure Conforms (K : Contract ExchangeStore ExchangeWrite) (considered : ExchangeAction → Prop) :
    Prop where
  call : ∀ call, considered (.call call) →
    ∀ c known, call.program.Safe exchangeServer K c known
  createQueue : ∀ q type, considered (.createQueue q type) → ∀ s, K.I s →
    K.C none (.createQueue q type) s → Keeps exchangeServer K none (.createQueue q type) s
  deleteQueue : ∀ q, considered (.deleteQueue q) → ∀ s, K.I s →
    K.C none (.deleteQueue q) s → Keeps exchangeServer K none (.deleteQueue q) s

variable {K : Contract ExchangeStore ExchangeWrite} {considered : ExchangeAction → Prop}
variable {m m' : ExchangeMachine} {a : ExchangeAction} {as : List ExchangeAction}

theorem Conforms.admits (h : Conforms K considered) (ha : considered a) :
    m.Admits exchangeServer K a.move := by
  cases a with
  | call call => exact h.call call ha _ _
  | step c => trivial
  | createQueue q type => exact h.createQueue q type ha m.store
  | deleteQueue q => exact h.deleteQueue q ha m.store

/-- The rule for runs of the clients of the stores of exchanges. -/
theorem Conforms.steady (h : Conforms K considered) (hsteady : m.Steady exchangeServer K)
    (halong : Run.Along ExchangeMachine.step
      (fun m a => considered a ∧ m.Allows K a.move) m as)
    (hrun : m.Runs as m') : m'.Steady exchangeServer K :=
  Run.invariant_along (fun _ _ _ hs hcond hstep => hs.step (h.admits hcond.1) hcond.2 hstep)
    hsteady halong hrun

theorem ExchangeMachine.initial_steady {queues : QueueParams → Option QueueType}
    (hI : K.I (.initial queues)) : (initial queues).Steady exchangeServer K :=
  ⟨hI, nofun⟩

end Runs

end RedisSmq
