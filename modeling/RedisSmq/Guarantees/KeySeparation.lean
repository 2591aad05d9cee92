import RedisSmq.Store.Keys

/-!
# Keys of different calls are different

A valid name, a UUID and each of the fixed words is one piece of the key it is part of. The
freely chosen texts may have any number of pieces, but they stand between fixed words only,
and there is at most one of them. So the pieces of a key tell which function built it and
from what.

Behind the name of a queue or an exchange there are at most three parts, of which only the
second can be chosen freely. `Framed` says this, and it is what makes the pieces of these
parts determine the parts.
-/

namespace RedisSmq

/-- The part is one piece of a key. -/
def OnePiece (part : String) : Prop := ':' ∉ part.toList
  deriving Decidable

theorem ValidKey.onePiece {key : String} (h : ValidKey key) : OnePiece key := h.not_mem_colon

theorem Uuid.onePiece (u : Uuid) : OnePiece u.text := by
  intro hmem
  cases u.isUuid.2 ':' hmem with
  | inl h => exact absurd h (by decide)
  | inr h => exact absurd h (by decide)

theorem Uuid.text_injective : Function.Injective Uuid.text := by
  rintro ⟨text, _⟩ ⟨text', _⟩ h
  cases h
  rfl

/-- The pieces of a list of parts. -/
def piecesOf (parts : List String) : List String := parts.flatMap (Segments.pieces ':')

@[simp] theorem piecesOf_nil : piecesOf [] = [] := rfl

@[simp] theorem piecesOf_cons (part : String) (parts : List String) :
    piecesOf (part :: parts) = Segments.pieces ':' part ++ piecesOf parts := rfl

theorem piecesOf_cons_of_onePiece {part : String} (h : OnePiece part) (parts : List String) :
    piecesOf (part :: parts) = part :: piecesOf parts := by
  rw [piecesOf_cons, Segments.pieces_of_notMem h, List.singleton_append]

theorem KeyCall.key_eq_iff {c c' : KeyCall} :
    c.key = c'.key ↔ piecesOf c.parts = piecesOf c'.parts :=
  Segments.path_eq_iff

/-- At most three parts, of which only the second of three may hold separators. -/
def Framed : List String → Prop
  | [] => True
  | [a] => OnePiece a
  | [a, b] => OnePiece a ∧ OnePiece b
  | [a, _, c] => OnePiece a ∧ OnePiece c
  | _ => False

theorem pieces_ne_nil (text : String) : Segments.pieces ':' text ≠ [] := by
  intro h
  exact List.splitOn_ne_nil ':' text.toList (List.map_eq_nil_iff.1 h)

/-- At most two parts are their pieces. -/
theorem Framed.short_or_long {parts : List String} (h : Framed parts) :
    (parts.length ≤ 2 ∧ piecesOf parts = parts) ∨
      ∃ a b c, parts = [a, b, c] ∧ piecesOf parts = a :: (Segments.pieces ':' b ++ [c]) := by
  rcases parts with _ | ⟨a, _ | ⟨b, _ | ⟨c, _ | ⟨d, parts⟩⟩⟩⟩
  · exact .inl ⟨by decide, rfl⟩
  · exact .inl ⟨by simp, piecesOf_cons_of_onePiece h []⟩
  · refine .inl ⟨by simp, ?_⟩
    rw [piecesOf_cons_of_onePiece h.1, piecesOf_cons_of_onePiece h.2, piecesOf_nil]
  · refine .inr ⟨a, b, c, rfl, ?_⟩
    rw [piecesOf_cons_of_onePiece h.1, piecesOf_cons, piecesOf_cons_of_onePiece h.2, piecesOf_nil]
  · exact h.elim

theorem three_le_length (a b c : String) : 3 ≤ (a :: (Segments.pieces ':' b ++ [c])).length := by
  have hpos := List.length_pos_of_ne_nil (pieces_ne_nil b)
  simp only [List.length_cons, List.length_append, List.length_nil]
  omega

/-- The number of pieces tells three parts from fewer, since every text has a piece. -/
theorem Framed.eq_of_piecesOf {parts parts' : List String} (h : Framed parts)
    (h' : Framed parts') (heq : piecesOf parts = piecesOf parts') : parts = parts' := by
  rcases h.short_or_long with ⟨hle, hp⟩ | ⟨a, b, c, hparts, hp⟩ <;>
    rcases h'.short_or_long with ⟨hle', hp'⟩ | ⟨a', b', c', hparts', hp'⟩
  · rw [← hp, heq, hp']
  · have hlong := three_le_length a' b' c'
    rw [← hp', ← heq, hp] at hlong
    omega
  · have hlong := three_le_length a b c
    rw [← hp, heq, hp'] at hlong
    omega
  · rw [hp, hp'] at heq
    obtain ⟨ha, hrest⟩ := List.cons.inj heq
    obtain ⟨hb, hc⟩ := List.append_inj' hrest rfl
    rw [hparts, hparts', ha, Segments.pieces_injective ':' hb, List.singleton_inj.1 hc]

theorem QueueBuilder.parts_injective : Function.Injective QueueBuilder.parts := by
  intro b b' h
  cases b <;> cases b' <;> simp [QueueBuilder.parts, Uuid.text_injective.eq_iff] at h ⊢ <;> exact h

theorem ExchangeBuilder.parts_injective : Function.Injective ExchangeBuilder.parts := by
  intro b b' h
  cases b <;> cases b' <;> simp [ExchangeBuilder.parts] at h ⊢ <;> exact h

theorem SystemBuilder.parts_injective : Function.Injective SystemBuilder.parts := by
  intro b b' h
  cases b <;> cases b' <;> simp [SystemBuilder.parts, Uuid.text_injective.eq_iff] at h ⊢ <;> exact h

theorem QueueBuilder.framed (b : QueueBuilder) : Framed b.parts := by
  cases b with
  | consumerProcessing consumerId => exact ⟨by decide, by decide⟩
  | pendingWithGroup groupId => exact ⟨by decide, by decide⟩
  | priorityWithGroup groupId => exact ⟨by decide, by decide⟩
  | consumerGroupMembers groupId => exact ⟨by decide, by decide⟩
  | _ => change OnePiece _; decide

theorem ExchangeBuilder.framed (b : ExchangeBuilder) : Framed b.parts := by
  cases b with
  | exchange => trivial
  | routingKeyQueues routingKey => exact ⟨by decide, by decide⟩
  | patternQueues pattern => exact ⟨by decide, by decide⟩
  | _ => change OnePiece _; decide

theorem SystemBuilder.framed (b : SystemBuilder) : Framed b.parts := by
  cases b with
  | pendingPurgeJobs => exact ⟨by decide, by decide⟩
  | activePurgeJobs => exact ⟨by decide, by decide⟩
  | jobWorker jobId => exact ⟨by decide, by decide⟩
  | workerHeartbeat workerId => exact ⟨by decide, by decide⟩
  | consumerQueues consumerId => exact ⟨by decide, by decide⟩
  | consumerHeartbeat consumerId => exact ⟨by decide, by decide⟩
  | message messageId => exact ⟨by decide, messageId.onePiece⟩
  | messageAcknowledgementHistory messageId => exact ⟨by decide, by decide⟩
  | _ => change OnePiece _; decide

theorem NamespaceBuilder.parts_injective : Function.Injective NamespaceBuilder.parts := by
  intro b b' h
  cases b <;> cases b' <;> simp [NamespaceBuilder.parts] at h ⊢

section Calls

variable {q q' : QueueParams} {x x' : ExchangeId} {ns ns' : NamespaceId}

/-! What stands in front of the framed parts is one piece each. -/

theorem KeyCall.piecesOf_queue (b : QueueBuilder) :
    piecesOf (KeyCall.queue q b).parts = "ns" :: q.ns :: "q" :: q.name :: piecesOf b.parts := by
  change piecesOf ("ns" :: q.ns :: "q" :: q.name :: b.parts) = _
  rw [piecesOf_cons_of_onePiece (by decide), piecesOf_cons_of_onePiece q.validNs.onePiece,
    piecesOf_cons_of_onePiece (by decide), piecesOf_cons_of_onePiece q.validName.onePiece]

theorem KeyCall.piecesOf_exchange (b : ExchangeBuilder) :
    piecesOf (KeyCall.exchange x b).parts =
      "ns" :: x.ns :: "exs" :: x.name :: piecesOf b.parts := by
  change piecesOf ("ns" :: x.ns :: "exs" :: x.name :: b.parts) = _
  rw [piecesOf_cons_of_onePiece (by decide), piecesOf_cons_of_onePiece x.validNs.onePiece,
    piecesOf_cons_of_onePiece (by decide), piecesOf_cons_of_onePiece x.validName.onePiece]

theorem KeyCall.piecesOf_ofNamespace (b : NamespaceBuilder) :
    piecesOf (KeyCall.ofNamespace ns b).parts = "ns" :: ns.name :: b.parts := by
  have hb : piecesOf b.parts = b.parts := by
    cases b <;> exact piecesOf_cons_of_onePiece (by decide) []
  change piecesOf ("ns" :: ns.name :: b.parts) = _
  rw [piecesOf_cons_of_onePiece (by decide), piecesOf_cons_of_onePiece ns.validName.onePiece, hb]

theorem KeyCall.piecesOf_system (b : SystemBuilder) :
    piecesOf (KeyCall.system b).parts = "main" :: piecesOf b.parts :=
  piecesOf_cons_of_onePiece (by decide) b.parts

theorem ExchangeId.eq_of_name_ns (hname : x.name = x'.name) (hns : x.ns = x'.ns) : x = x' := by
  cases x
  cases x'
  cases hname
  cases hns
  rfl

theorem NamespaceId.eq_of_name (hname : ns.name = ns'.name) : ns = ns' := by
  cases ns
  cases ns'
  cases hname
  rfl

/-- A namespace is followed by one word, a queue or an exchange by its kind and its name. -/
theorem NamespaceBuilder.parts_ne (b : NamespaceBuilder) (kind name : String)
    (rest : List String) : b.parts ≠ kind :: name :: rest := by
  cases b <;> simp [NamespaceBuilder.parts]

end Calls

theorem KeyCall.eq_of_key_eq {c c' : KeyCall} (h : c.key = c'.key) : c = c' := by
  have hpieces : piecesOf c.parts = piecesOf c'.parts := KeyCall.key_eq_iff.1 h
  cases c <;> cases c' <;>
    simp only [KeyCall.piecesOf_queue, KeyCall.piecesOf_exchange, KeyCall.piecesOf_ofNamespace,
      KeyCall.piecesOf_system, List.cons.injEq, String.reduceEq, true_and, false_and,
      and_false] at hpieces
  case queue.queue q b q' b' =>
    obtain ⟨hns, hname, hb⟩ := hpieces
    rw [QueueParams.eq_of_name_ns hname hns,
      QueueBuilder.parts_injective (b.framed.eq_of_piecesOf b'.framed hb)]
  case exchange.exchange x b x' b' =>
    obtain ⟨hns, hname, hb⟩ := hpieces
    rw [ExchangeId.eq_of_name_ns hname hns,
      ExchangeBuilder.parts_injective (b.framed.eq_of_piecesOf b'.framed hb)]
  case ofNamespace.ofNamespace ns b ns' b' =>
    rw [NamespaceId.eq_of_name hpieces.1, NamespaceBuilder.parts_injective hpieces.2]
  case system.system b b' =>
    rw [SystemBuilder.parts_injective (b.framed.eq_of_piecesOf b'.framed hpieces)]
  case queue.ofNamespace b' | exchange.ofNamespace b' =>
    exact absurd hpieces.2.symm (b'.parts_ne _ _ _)
  case ofNamespace.queue b _ _ | ofNamespace.exchange b _ _ =>
    exact absurd hpieces.2 (b.parts_ne _ _ _)

/-- Two calls give the same key only if they are the same call. -/
theorem KeyCall.key_injective : Function.Injective KeyCall.key := by
  intro c c' h
  exact KeyCall.eq_of_key_eq h

end RedisSmq
