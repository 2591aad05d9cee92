import RedisSmq.Guarantees.Reporting

/-!
# Routing by topic

A pattern matches a routing key if the tokens of the key can be cut into consecutive parts,
one for each token of the pattern: a `#` takes any part, a `*` takes one token, and any other
token takes itself. The matcher decides this by trying all parts for a `#`, with a case of
its own for a key that is used up.
-/

namespace RedisSmq

/-- What a token of a pattern takes from the tokens of a routing key. -/
def Takes (token : List Char) (part : List (List Char)) : Prop :=
  if token = ['#'] then True
  else if token = ['*'] then part.length = 1
  else part = [token]

/-- The tokens of the key can be cut into parts that the tokens of the pattern take. -/
def Cuts (pattern key : List (List Char)) : Prop :=
  ∃ parts, List.Forall₂ Takes pattern parts ∧ parts.flatten = key

section Matching

variable {token t : List Char} {p r : List (List Char)}

theorem cuts_nil : Cuts [] r ↔ r = [] := by
  constructor
  · rintro ⟨parts, hparts, rfl⟩
    cases hparts
    rfl
  · rintro rfl
    exact ⟨[], .nil, rfl⟩

/-- The first part is what the first token takes. -/
theorem cuts_cons :
    Cuts (token :: p) r ↔ ∃ part rest, r = part ++ rest ∧ Takes token part ∧ Cuts p rest := by
  constructor
  · rintro ⟨parts, hparts, rfl⟩
    cases hparts with
    | @cons _ part _ parts htakes hparts =>
      exact ⟨part, parts.flatten, rfl, htakes, parts, hparts, rfl⟩
  · rintro ⟨part, rest, rfl, htakes, parts, hparts, rfl⟩
    exact ⟨part :: parts, .cons htakes hparts, rfl⟩

theorem cuts_hash_cons : Cuts (['#'] :: p) r ↔ ∃ i ≤ r.length, Cuts p (r.drop i) := by
  rw [cuts_cons]
  constructor
  · rintro ⟨part, rest, rfl, -, hrest⟩
    exact ⟨part.length, by simp, by simpa using hrest⟩
  · rintro ⟨i, -, hrest⟩
    exact ⟨r.take i, r.drop i, (List.take_append_drop i r).symm, by simp [Takes], hrest⟩

theorem cuts_star_cons : Cuts (['*'] :: p) (t :: r) ↔ Cuts p r := by
  rw [cuts_cons]
  constructor
  · rintro ⟨part, rest, heq, htakes, hrest⟩
    have hlength : part.length = 1 := by simpa [Takes] using htakes
    obtain ⟨t', rfl⟩ := List.length_eq_one_iff.1 hlength
    cases heq
    exact hrest
  · intro hrest
    exact ⟨[t], r, rfl, by simp [Takes], hrest⟩

theorem cuts_literal_cons (hhash : token ≠ ['#']) (hstar : token ≠ ['*']) :
    Cuts (token :: p) (t :: r) ↔ t = token ∧ Cuts p r := by
  rw [cuts_cons]
  constructor
  · rintro ⟨part, rest, heq, htakes, hrest⟩
    have hpart : part = [token] := by simpa [Takes, hhash, hstar] using htakes
    subst hpart
    cases heq
    exact ⟨rfl, hrest⟩
  · rintro ⟨rfl, hrest⟩
    exact ⟨[t], r, rfl, by simp [Takes, hhash, hstar], hrest⟩

/-- A key that is used up is cut into empty parts, which only `#` takes. -/
theorem cuts_nil_right : Cuts p [] ↔ ∀ token ∈ p, token = ['#'] := by
  induction p with
  | nil => simp [cuts_nil]
  | cons token p ih =>
    rw [cuts_cons, List.forall_mem_cons, ← ih]
    constructor
    · rintro ⟨part, rest, heq, htakes, hrest⟩
      obtain ⟨rfl, rfl⟩ := List.append_eq_nil_iff.1 heq.symm
      refine ⟨?_, hrest⟩
      by_contra hhash
      unfold Takes at htakes
      rw [if_neg hhash] at htakes
      split_ifs at htakes
    · rintro ⟨rfl, hrest⟩
      exact ⟨[], [], rfl, by simp [Takes], hrest⟩

/-- The matcher decides whether the key can be cut. -/
theorem matchTopicTokens_iff : matchTopicTokens r p = true ↔ Cuts p r := by
  induction p generalizing r with
  | nil => simp [matchTopicTokens, cuts_nil]
  | cons token p ih =>
    cases r with
    | nil => simp [matchTopicTokens, cuts_nil_right]
    | cons t r =>
      simp only [matchTopicTokens]
      split_ifs with hhash hstar hne
      · subst hhash
        simp only [cuts_hash_cons, List.any_eq_true, List.mem_range, ih, Nat.lt_succ_iff]
      · subst hstar
        rw [ih, cuts_star_cons]
      · simp [cuts_literal_cons hhash hstar, hne]
      · rw [ih, cuts_literal_cons hhash hstar]
        simp [not_not.1 hne]

end Matching

/-- The key under which `MatchQueues` remembers a queue tells which queue it is. -/
theorem QueueParams.seenKey_injective {q q' : QueueParams}
    (h : q.ns ++ ":" ++ q.name = q'.ns ++ ":" ++ q'.name) : q = q' := by
  have hlist : q.ns.toList ++ ':' :: q.name.toList = q'.ns.toList ++ ':' :: q'.name.toList := by
    have := congrArg String.toList h
    simpa using this
  obtain ⟨hns, _, hname⟩ := List.append_cons_inj_of_notMem q.validNs.not_mem_colon
    q.validName.not_mem_colon |>.1 hlist
  exact QueueParams.eq_of_name_ns (String.toList_injective hname) (String.toList_injective hns)

namespace ProduceState

section Unseen

variable {queues bound : List QueueParams} {q x : QueueParams}

theorem addUnseen_eq (queues : List QueueParams) (q : QueueParams) :
    addUnseen queues q = if q ∈ queues then queues else queues ++ [q] := by
  have hany : (queues.any fun x => x.ns ++ ":" ++ x.name = q.ns ++ ":" ++ q.name) = true ↔
      q ∈ queues := by
    simp only [List.any_eq_true, decide_eq_true_eq]
    constructor
    · rintro ⟨x, hx, heq⟩
      exact QueueParams.seenKey_injective heq ▸ hx
    · intro hq
      exact ⟨q, hq, rfl⟩
  unfold addUnseen
  by_cases hq : q ∈ queues
  · rw [if_pos (hany.2 hq), if_pos hq]
  · rw [if_neg fun h => hq (hany.1 h), if_neg hq]

theorem mem_addUnseen : x ∈ addUnseen queues q ↔ x ∈ queues ∨ x = q := by
  rw [addUnseen_eq]
  split_ifs with hq
  · exact ⟨.inl, fun h => h.elim id fun heq => heq ▸ hq⟩
  · simp

theorem nodup_addUnseen (h : queues.Nodup) : (addUnseen queues q).Nodup := by
  rw [addUnseen_eq]
  split_ifs with hq
  · exact h
  exact List.nodup_append.2 ⟨h, List.nodup_singleton q, fun a ha b hb => by
    rw [List.mem_singleton.1 hb]
    exact fun heq => hq (heq ▸ ha)⟩

theorem mem_foldl_addUnseen : x ∈ bound.foldl addUnseen queues ↔ x ∈ queues ∨ x ∈ bound := by
  induction bound generalizing queues with
  | nil => simp
  | cons q bound ih => rw [List.foldl_cons, ih, mem_addUnseen, List.mem_cons, or_assoc]

theorem nodup_foldl_addUnseen (h : queues.Nodup) : (bound.foldl addUnseen queues).Nodup := by
  induction bound generalizing queues with
  | nil => exact h
  | cons q bound ih => exact ih (nodup_addUnseen h)

end Unseen

section Snapshot

variable {env : Surroundings} (hsnapshot : ∀ n b, (env.others n b).exchanges = b.exchanges)

include hsnapshot

theorem read_snapshot {α : Type} (f : ExchangeStore → α) (st : ProduceState) :
    (read env f st).1 = f st.broker.exchanges ∧
      (read env f st).2.broker.exchanges = st.broker.exchanges := by
  simp [read, hsnapshot]

/-- The loop over the matched patterns adds what is bound under them, each queue once. -/
theorem collectQueues_snapshot (i : RouteIndex) (rs : List String) (queues : List QueueParams)
    (st : ProduceState) (hnodup : queues.Nodup) :
    (collectQueues env i rs queues st).1.Nodup ∧
      ∀ q, q ∈ (collectQueues env i rs queues st).1 ↔
        q ∈ queues ∨ ∃ r ∈ rs, q ∈ st.broker.exchanges.routeQueues (i, r) := by
  induction rs generalizing queues st with
  | nil => simp [collectQueues, hnodup]
  | cons r rs ih =>
    obtain ⟨hbound, hsame⟩ := read_snapshot hsnapshot (·.routeQueues (i, r)) st
    have hrest := ih (List.foldl addUnseen queues (st.broker.exchanges.routeQueues (i, r)))
      (read env (·.routeQueues (i, r)) st).2 (nodup_foldl_addUnseen hnodup)
    simp only [collectQueues, hbound]
    refine ⟨hrest.1, fun q => ?_⟩
    rw [hrest.2, hsame, mem_foldl_addUnseen, List.exists_mem_cons_iff, or_assoc]

end Snapshot

end ProduceState

/-- For every routing key, every pattern and every set of bindings that is read as one
snapshot: the matcher accepts a pattern exactly if the key can be cut as its tokens ask, and
`MatchQueues` of a topic exchange returns no queue twice, and returns a queue exactly if it
is bound with a pattern that matches. -/
theorem topic_routing (env : Surroundings) (p : ExchangeParams) (routingKey : String)
    (st : ProduceState) (hsnapshot : ∀ n b, (env.others n b).exchanges = b.exchanges)
    (htype : st.broker.exchanges.typeError p = none) :
    (∀ pattern, matchTopicPattern routingKey pattern = true ↔
        Cuts (tokens pattern) (tokens routingKey)) ∧
      ∃ queues st', st.matchTopic env p routingKey = (.ok queues, st') ∧ queues.Nodup ∧
        ∀ q, q ∈ queues ↔ ∃ pattern ∈ st.broker.exchanges.routes ⟨.topic, p.id⟩,
          Cuts (tokens pattern) (tokens routingKey) ∧
            q ∈ st.broker.exchanges.routeQueues (⟨.topic, p.id⟩, pattern) := by
  have hmatch : ∀ pattern, matchTopicPattern routingKey pattern = true ↔
      Cuts (tokens pattern) (tokens routingKey) := fun pattern => matchTopicTokens_iff
  refine ⟨hmatch, ?_⟩
  obtain ⟨herror, hfirst⟩ := ProduceState.read_snapshot hsnapshot (·.typeError p) st
  obtain ⟨hroutes, hsecond⟩ := ProduceState.read_snapshot hsnapshot (·.routes ⟨.topic, p.id⟩)
    (ProduceState.read env (·.typeError p) st).2
  simp only [ProduceState.matchTopic, ProduceState.validateType, herror, htype, hroutes, hfirst]
  have hcollect := ProduceState.collectQueues_snapshot hsnapshot ⟨.topic, p.id⟩
    ((st.broker.exchanges.routes ⟨.topic, p.id⟩).filter (matchTopicPattern routingKey)) []
    (ProduceState.read env (·.routes ⟨.topic, p.id⟩)
      (ProduceState.read env (·.typeError p) st).2).2 List.nodup_nil
  refine ⟨_, _, rfl, hcollect.1, fun q => ?_⟩
  rw [hcollect.2, hsecond, hfirst]
  simp only [List.not_mem_nil, false_or, List.mem_filter, hmatch, and_assoc]

/-- A topic exchange to which one queue is bound with two patterns. -/
def topicBroker : Broker :=
  { salesBroker with
    exchanges :=
      { salesBroker.exchanges with
        props := fun _ => some ⟨some .topic, none⟩
        routes := fun _ => ["orders.#", "orders.*.paid"]
        routeQueues := fun _ => [ordersQueue] } }

theorem topic_routing_topicBroker :
    ∃ queues st', ProduceState.matchTopic quietSurroundings ⟨salesExchange, .topic⟩
        "orders.eu.paid" { broker := topicBroker, nextId := 0 } = (.ok queues, st') ∧
      queues.Nodup ∧ ordersQueue ∈ queues := by
  obtain ⟨hmatch, queues, st', heq, hnodup, hmem⟩ := topic_routing quietSurroundings
    ⟨salesExchange, .topic⟩ "orders.eu.paid" { broker := topicBroker, nextId := 0 }
    (fun _ _ => rfl) (by decide)
  refine ⟨queues, st', heq, hnodup, (hmem ordersQueue).2 ⟨"orders.#", .head _, ?_, .head _⟩⟩
  exact (hmatch "orders.#").1 (by decide)

end RedisSmq
