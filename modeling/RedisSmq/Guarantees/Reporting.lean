import RedisSmq.Producer.Produce
import RedisSmq.System.Closed

/-!
# What a producer reports

The messages of a call are published one by one. If one of them is refused after others were
stored, the call returns an error and no identifiers, but what was stored stays. This module
shows that this is the only way in which the report of a call is wrong.
-/

namespace RedisSmq

variable {m : Producible}

section Script

variable {db : Keyspace} {a : PublishArgs}

/-- The script stores a message for the group: the queue exists, it is neither stopped nor
locked, it has the group, and the priority is right for its type. -/
def Keyspace.Takes (db : Keyspace) (m : Producible) (group : Option GroupId) : Prop :=
  ∃ type ∈ db.queueType?, stateRefusal db.operationalState = none ∧
    db.groupExists group = true ∧ PriorityFits type m.priority
  deriving Decidable

theorem publishMessage_isOk_iff (hlock : a.lock = none)
    (hdue : a.status ≠ .pending → a.scheduledTimestamp.isSome = true) :
    (publishMessage a db).isOk = true ↔
      ∃ type ∈ db.queueType?, stateRefusal db.operationalState = none ∧
        db.groupExists a.group = true ∧ PriorityFits type a.priority := by
  constructor
  · intro hok
    rcases @publishMessage_cases a db with ⟨hnot, -⟩ | ⟨-, type, -, -, htype, hfit, hgroup, -⟩
    · rw [hnot] at hok
      cases hok
    refine ⟨type, htype, ?_, hgroup, hfit⟩
    cases hstate : stateRefusal db.operationalState with
    | none => rfl
    | some r =>
      rw [(publishMessage_closed hlock hstate).1] at hok
      cases hok
  · rintro ⟨type, htype, hstate, hgroup, hfit⟩
    exact publishMessage_isOk htype hstate hfit hgroup hdue

theorem Placed.published {type : QueueType} {container : Counter} {db' : Keyspace}
    (h : Placed type a db container db') : db'.lists .published = db.lists .published := by
  cases h with
  | pending hstatus hdb =>
    unfold Keyspace.enqueueNew at hdb
    cases type with
    | lifo | fifo =>
      cases hdb
      simp [Keyspace.rpush, Keyspace.lpush, Keyspace.setList]
    | priority =>
      obtain ⟨p, -, rfl⟩ := Option.map_eq_some_iff.1 hdb
      rfl
  | scheduled hstatus hts => rfl

/-- The script replies with success if and only if it stores the message. -/
theorem publishMessage_stores_iff :
    (publishMessage a db).db.lists .published = db.lists .published ++ [a.id] ↔
      (publishMessage a db).isOk = true := by
  rcases @publishMessage_cases a db with ⟨hnot, hsame⟩ |
      ⟨hok, type, container, db', -, -, -, hp, hdb⟩
  · rw [hnot, hsame]
    exact iff_of_false (by simp) nofun
  rw [hok, hdb]
  refine iff_of_true ?_ rfl
  have hstored : (storePublished a container db').lists .published =
      db'.lists .published ++ [a.id] := by
    simp [storePublished, Keyspace.hincrby, Keyspace.rpush, Keyspace.setList, Keyspace.hset]
  rw [hstored, hp.published]

/-- A message that is not pending when it is dispatched is due at some time. -/
theorem Envelope.dispatch_due {nextTick : NextTick} {now : Nanos} {e : Envelope}
    (h : (e.dispatch nextTick now).status ≠ .pending) :
    (e.dispatch nextTick now).state.scheduledAt.isSome = true := by
  unfold Envelope.dispatch at h ⊢
  dsimp only at h ⊢
  split
  · rfl
  rename_i hdue
  rw [if_neg hdue] at h
  exact absurd rfl h

end Script

/-- A queue that takes its message, which is stored. -/
def Delivery.Taken (m : Producible) (d : Delivery) : Prop :=
  d.Stores ∧ d.before.Takes m d.target.group

/-- A queue that does not take its message, which is not stored. -/
def Delivery.Refused (m : Producible) (d : Delivery) : Prop :=
  ¬ d.Stores ∧ ¬ d.before.Takes m d.target.group

/-- What a part of a call returns, given what it has done and what it would do if it went on
after a refusal: the identifiers if all of its messages were stored, and an error if the last
one was refused. -/
inductive Reports (m : Producible) :
    Except ProduceError (List MessageId) → List Target → List Delivery → List Delivery → Prop
  | stored {ds : List Delivery} (hds : ∀ d ∈ ds, d.Taken m) :
      Reports m (.ok (ds.map Delivery.id)) (ds.map Delivery.target) ds ds
  | refused {e : ProduceError} {ts : List Target} {ds rest : List Delivery} {last : Delivery}
      (hds : ∀ d ∈ ds, d.Taken m) (hlast : last.Refused m) :
      Reports m (.error e) ts (ds ++ [last]) (ds ++ last :: rest)

theorem Reports.nil : Reports m (.ok []) [] [] [] :=
  .stored fun _ hd => absurd hd List.not_mem_nil

theorem taken_singleton {d : Delivery} (h : d.Taken m) : ∀ d' ∈ [d], d'.Taken m :=
  fun _ hd => List.mem_singleton.1 hd ▸ h

theorem Reports.single {d : Delivery} (h : d.Taken m) :
    Reports m (.ok [d.id]) [d.target] [d] [d] :=
  .stored (taken_singleton h)

theorem Reports.single_refused {d : Delivery} {e : ProduceError} {ts : List Target}
    {rest : List Delivery} (h : d.Refused m) : Reports m (.error e) ts [d] (d :: rest) :=
  @Reports.refused m e ts [] rest d (fun _ hd => absurd hd List.not_mem_nil) h

/-- A part whose messages were all stored, and the rest of the call. -/
theorem Reports.append {r : Except ProduceError (List MessageId)}
    {ts : List Target} {ds ds' all : List Delivery} (hds : ∀ d ∈ ds, d.Taken m)
    (h : Reports m r ts ds' all) :
    Reports m (r.map (ds.map Delivery.id ++ ·)) (ds.map Delivery.target ++ ts) (ds ++ ds')
      (ds ++ all) := by
  cases h with
  | stored hds' =>
    have hall : ∀ d ∈ ds ++ ds', d.Taken m := fun d hd =>
      (List.mem_append.1 hd).elim (hds d) (hds' d)
    have hstored := Reports.stored hall
    rwa [List.map_append, List.map_append] at hstored
  | refused hds' hlast =>
    rw [← List.append_assoc, ← List.append_assoc]
    exact .refused (fun d hd => (List.mem_append.1 hd).elim (hds d) (hds' d)) hlast

/-- The rest of a plan after a refusal. -/
theorem Reports.more {e : ProduceError} {ts : List Target} {ds all : List Delivery}
    (e' : ProduceError) (rest : List Delivery) (h : Reports m (.error e) ts ds all) :
    Reports m (.error e') ts ds (all ++ rest) := by
  cases h with
  | refused hds hlast =>
    rw [List.append_assoc, List.cons_append]
    exact .refused hds hlast

namespace ProduceState

section Plan

variable (env : Surroundings) (m : Producible)

/-- The scripts for the targets, one after the other, whatever their replies are. -/
def dispatchAll (ts : List Target) (st : ProduceState) : ProduceState :=
  ts.foldl (fun st t => (dispatch env m t st).2) st

/-- The scripts for all targets of the queues. -/
def dispatchQueues (qs : List QueueParams) (st : ProduceState) : ProduceState :=
  qs.foldl (fun st q =>
    let targets := targetsOf q (env.groups st.operations q)
    dispatchAll env m targets { st with targets := st.targets ++ targets }) st

/-- The targets of a call, each with the keys of its queue when it is its turn, as they are if
no refusal ends the call. -/
def plan (running : Bool) (d : Destination) (st : ProduceState) : List Delivery :=
  if running = false then []
  else
    match d with
    | .nowhere => []
    | .queue q => (dispatchQueues env m [q] st).deliveries
    | .exchange p routingKey =>
        match matchExchangeQueues env p routingKey st with
        | (.error _, _) => []
        | (.ok qs, st) => (dispatchQueues env m qs st).deliveries

end Plan

variable {env : Surroundings} {m : Producible} {t : Target} {st : ProduceState}

/-- Going on only adds to what was done. -/
theorem dispatchAll_deliveries (ts : List Target) (st : ProduceState) :
    ∃ ds, (dispatchAll env m ts st).deliveries = st.deliveries ++ ds := by
  refine List.foldlRecOn (motive := fun st' : ProduceState =>
    ∃ ds, st'.deliveries = st.deliveries ++ ds) ts _ ⟨[], by simp⟩ ?_
  rintro st' ⟨ds, hds⟩ t -
  obtain ⟨d, hd⟩ : ∃ d, (dispatch env m t st').2.deliveries = st'.deliveries ++ [d] := by
    unfold dispatch
    dsimp only
    split <;> exact ⟨_, rfl⟩
  exact ⟨ds ++ [d], by rw [hd, hds, List.append_assoc]⟩

theorem dispatchQueues_deliveries (qs : List QueueParams) (st : ProduceState) :
    ∃ ds, (dispatchQueues env m qs st).deliveries = st.deliveries ++ ds := by
  refine List.foldlRecOn (motive := fun st' : ProduceState =>
    ∃ ds, st'.deliveries = st.deliveries ++ ds) qs _ ⟨[], by simp⟩ ?_
  rintro st' ⟨ds, hds⟩ q -
  obtain ⟨ds', hds'⟩ := @dispatchAll_deliveries env m (targetsOf q (env.groups st'.operations q))
    { st' with targets := st'.targets ++ targetsOf q (env.groups st'.operations q) }
  exact ⟨ds ++ ds', by rw [hds', ← List.append_assoc, ← hds]⟩

theorem prepared_frame :
    (prepared env m t st).message = m ∧ (prepared env m t st).consumerGroupId = t.group := by
  have hframe := @Envelope.dispatch_frame env.nextTick (env.now st.operations)
    { Envelope.new m st.nextId with consumerGroupId := t.group }
  exact ⟨hframe.1, hframe.2.1⟩

/-- One message. -/
theorem dispatch_reports :
    ∃ d : Delivery, d.target = t ∧ (dispatch env m t st).2.deliveries = st.deliveries ++ [d] ∧
      (dispatch env m t st).2.targets = st.targets ∧
      (((dispatch env m t st).1 = .ok d.id ∧ d.Taken m) ∨
        ((∃ e, (dispatch env m t st).1 = .error e) ∧ d.Refused m)) := by
  obtain ⟨hmessage, hgroup⟩ := @prepared_frame env m t st
  -- the keys of the queue when the script is run, and its arguments
  generalize hbefore : (env.others st.operations st.broker).queues t.queue = before
  generalize hargs : PublishArgs.ofEnvelope (prepared env m t st) = args
  have htakes : (publishMessage args before).isOk = true ↔ before.Takes m t.group := by
    have hiff := @publishMessage_isOk_iff before args (hargs ▸ rfl)
      (hargs ▸ fun h => Envelope.dispatch_due h)
    have hgroup' : args.group = t.group := hargs ▸ hgroup
    have hpriority : args.priority = m.priority := hargs ▸ congrArg Producible.priority hmessage
    rw [hiff, hgroup', hpriority, Keyspace.Takes]
  have hstores := @publishMessage_stores_iff before args
  refine ⟨⟨t, args.id, before, (publishMessage args before).db⟩, rfl, ?_⟩
  have hid : (prepared env m t st).id = args.id := hargs ▸ rfl
  unfold dispatch
  dsimp only
  rw [hbefore, hargs, hid]
  cases hreply : (publishMessage args before).reply with
  | error err =>
    have hnot : ¬ (publishMessage args before).isOk = true := by simp [Outcome.isOk, hreply]
    exact ⟨rfl, rfl, .inr ⟨⟨_, rfl⟩, fun h => hnot (hstores.1 h), fun h => hnot (htakes.2 h)⟩⟩
  | ok reply =>
    cases reply with
    | error r =>
      have hnot : ¬ (publishMessage args before).isOk = true := by simp [Outcome.isOk, hreply]
      exact ⟨rfl, rfl, .inr ⟨⟨_, rfl⟩, fun h => hnot (hstores.1 h), fun h => hnot (htakes.2 h)⟩⟩
    | ok u =>
      have hok : (publishMessage args before).isOk = true := by simp [Outcome.isOk, hreply]
      exact ⟨rfl, rfl, .inl ⟨rfl, hstores.2 hok, htakes.1 hok⟩⟩

/-- The messages for the groups of a queue. -/
theorem dispatchGroups_reports (q : QueueParams) (gs : List GroupId) (ids : List MessageId)
    (st : ProduceState) :
    ∃ r ds all, (dispatchGroups env m q gs ids st).1 = r.map (ids ++ ·) ∧
      Reports m r (gs.map fun g => ⟨q, some g⟩) ds all ∧
      (dispatchGroups env m q gs ids st).2.deliveries = st.deliveries ++ ds ∧
      (dispatchGroups env m q gs ids st).2.targets = st.targets ∧
      (dispatchAll env m (gs.map fun g => ⟨q, some g⟩) st).deliveries = st.deliveries ++ all ∧
      (r.isOk = true → (dispatchGroups env m q gs ids st).2 =
        dispatchAll env m (gs.map fun g => ⟨q, some g⟩) st) := by
  induction gs generalizing ids st with
  | nil =>
    exact ⟨.ok [], [], [], by simp [dispatchGroups, Except.map], .nil, by simp [dispatchGroups],
      rfl, by simp [dispatchAll], fun _ => rfl⟩
  | cons g gs ih =>
    obtain ⟨d, htarget, hds, htargets, hcase⟩ := @dispatch_reports env m ⟨q, some g⟩ st
    have hall : dispatchAll env m ((g :: gs).map fun g => ⟨q, some g⟩) st =
      dispatchAll env m (gs.map fun g => ⟨q, some g⟩) (dispatch env m ⟨q, some g⟩ st).2 := rfl
    rw [hall]
    unfold dispatchGroups
    generalize dispatch env m ⟨q, some g⟩ st = result at hds htargets hcase
    obtain ⟨reply, st'⟩ := result
    rcases hcase with ⟨hok, htaken⟩ | ⟨⟨e, herror⟩, hrefused⟩
    · obtain rfl : reply = .ok d.id := hok
      obtain ⟨r, ds, all, hreply, hreports, hds', htargets', hall', hsame⟩ :=
        ih (ids ++ [d.id]) st'
      refine ⟨r.map ([d.id] ++ ·), [d] ++ ds, [d] ++ all, ?_, ?_, ?_, htargets'.trans htargets, ?_,
        fun hok => hsame (by cases r <;> first | rfl | cases hok)⟩
      · refine hreply.trans ?_
        cases r <;> simp [Except.map]
      · have happend := hreports.append (taken_singleton htaken)
        rw [List.map_cons, ← htarget]
        exact happend
      · rw [← List.append_assoc, ← hds]
        exact hds'
      · rw [← List.append_assoc, ← hds]
        exact hall'
    · obtain rfl : reply = .error e := herror
      obtain ⟨rest, hrest⟩ := @dispatchAll_deliveries env m (gs.map fun g => ⟨q, some g⟩) st'
      refine ⟨.error (.toGroup g e), [d], d :: rest, rfl, .single_refused hrefused, hds, htargets,
        ?_, fun hok => nomatch hok⟩
      rw [hrest, hds, List.append_assoc]
      rfl

/-- The messages for a queue. -/
theorem produceToQueue_reports (q : QueueParams) (st : ProduceState) :
    ∃ ts ds all, Reports m (produceToQueue env m q st).1 ts ds all ∧
      (produceToQueue env m q st).2.deliveries = st.deliveries ++ ds ∧
      (produceToQueue env m q st).2.targets = st.targets ++ ts ∧
      (dispatchQueues env m [q] st).deliveries = st.deliveries ++ all ∧
      ((produceToQueue env m q st).1.isOk = true →
        (produceToQueue env m q st).2 = dispatchQueues env m [q] st) := by
  unfold produceToQueue dispatchQueues
  dsimp only [List.foldl_cons, List.foldl_nil]
  cases env.groups st.operations q with
  | nil =>
    obtain ⟨d, htarget, hds, htargets, hcase⟩ := @dispatch_reports env m ⟨q, none⟩
      { st with targets := st.targets ++ [⟨q, none⟩] }
    dsimp only [targetsOf, dispatchAll, List.foldl_cons, List.foldl_nil]
    generalize dispatch env m ⟨q, none⟩ _ = result at hds htargets hcase
    obtain ⟨reply, st'⟩ := result
    rcases hcase with ⟨hok, htaken⟩ | ⟨⟨e, herror⟩, hrefused⟩
    · obtain rfl : reply = .ok d.id := hok
      exact ⟨[d.target], [d], [d], .single htaken, hds, htarget ▸ htargets, hds, fun _ => rfl⟩
    · obtain rfl : reply = .error e := herror
      exact ⟨[⟨q, none⟩], [d], [d], .single_refused hrefused, hds, htargets, hds,
        fun hok => nomatch hok⟩
  | cons g gs =>
    obtain ⟨r, ds, all, hreply, hreports, hds, htargets, hall, hsame⟩ :=
      @dispatchGroups_reports env m q (g :: gs) []
        { st with targets := st.targets ++ targetsOf q (g :: gs) }
    have hr : r.map ([] ++ ·) = r := by cases r <;> rfl
    rw [hr] at hreply
    refine ⟨_, ds, all, ?_, hds, htargets, hall, fun hok => hsame ?_⟩
    · rw [hreply]
      exact hreports
    · exact hreply ▸ hok

/-- The messages for the queues that an exchange matches. -/
theorem produceToQueues_reports (qs : List QueueParams) (ids : List MessageId) (st : ProduceState) :
    ∃ r ts ds all, (produceToQueues env m qs ids st).1 = r.map (ids ++ ·) ∧
      Reports m r ts ds all ∧
      (produceToQueues env m qs ids st).2.deliveries = st.deliveries ++ ds ∧
      (produceToQueues env m qs ids st).2.targets = st.targets ++ ts ∧
      (dispatchQueues env m qs st).deliveries = st.deliveries ++ all := by
  induction qs generalizing ids st with
  | nil =>
    exact ⟨.ok [], [], [], [], by simp [produceToQueues, Except.map], .nil,
      by simp [produceToQueues], by simp [produceToQueues], by simp [dispatchQueues]⟩
  | cons q qs ih =>
    obtain ⟨ts, ds, all, hreports, hds, htargets, hall, hsame⟩ := @produceToQueue_reports env m q st
    have hplan : dispatchQueues env m (q :: qs) st =
      dispatchQueues env m qs (dispatchQueues env m [q] st) := rfl
    rw [hplan]
    unfold produceToQueues
    generalize produceToQueue env m q st = result at hreports hds htargets hsame
    obtain ⟨reply, st'⟩ := result
    cases reply with
    | ok queueIds =>
      obtain rfl : st' = _ := hsame rfl
      cases hreports with
      | stored htaken =>
        obtain ⟨r, ts', ds', all', hreply, hreports', hds', htargets', hall'⟩ :=
          ih (ids ++ ds.map Delivery.id) (dispatchQueues env m [q] st)
        refine ⟨_, _, _, _, ?_, hreports'.append htaken, ?_, ?_, ?_⟩
        · refine hreply.trans ?_
          cases r <;> simp [Except.map]
        · rw [← List.append_assoc, ← hds]
          exact hds'
        · rw [← List.append_assoc, ← htargets]
          exact htargets'
        · rw [← List.append_assoc, ← hds]
          exact hall'
    | error e =>
      obtain ⟨rest, hrest⟩ :=
        @dispatchQueues_deliveries env m qs (dispatchQueues env m [q] st)
      refine ⟨.error (.toQueue q.name e), ts, ds, all ++ rest, rfl, hreports.more _ rest, hds,
        htargets, ?_⟩
      rw [hrest, hall, List.append_assoc]

/-- Looking for the queues of an exchange publishes nothing. -/
def SameRecord (st st' : ProduceState) : Prop :=
  st'.deliveries = st.deliveries ∧ st'.targets = st.targets

theorem SameRecord.refl (st : ProduceState) : SameRecord st st := ⟨rfl, rfl⟩

theorem SameRecord.trans {st st₁ st₂ : ProduceState} (h : SameRecord st st₁)
    (h' : SameRecord st₁ st₂) : SameRecord st st₂ :=
  ⟨h'.1.trans h.1, h'.2.trans h.2⟩

theorem read_same {α : Type} (f : ExchangeStore → α) (st : ProduceState) :
    SameRecord st (read env f st).2 :=
  ⟨rfl, rfl⟩

theorem validateType_same {p : ExchangeParams}
    {next : ProduceState → Except ProduceError (List QueueParams) × ProduceState}
    (hnext : ∀ st, SameRecord st (next st).2) (st : ProduceState) :
    SameRecord st (validateType env p next st).2 := by
  have hread := @read_same env _ (·.typeError p) st
  unfold validateType
  dsimp only
  cases (read env (·.typeError p) st).1 with
  | some e => exact hread
  | none => exact hread.trans (hnext _)

theorem collectQueues_same (i : RouteIndex) (rs : List String) (queues : List QueueParams)
    (st : ProduceState) : SameRecord st (collectQueues env i rs queues st).2 := by
  induction rs generalizing queues st with
  | nil => exact .refl st
  | cons r rs ih => exact (@read_same env _ (·.routeQueues (i, r)) st).trans (ih _ _)

theorem matchExchangeQueues_same (p : ExchangeParams) (routingKey : String) (st : ProduceState) :
    SameRecord st (matchExchangeQueues env p routingKey st).2 := by
  unfold matchExchangeQueues
  split
  · split
    · exact .refl st
    · refine validateType_same (validateType_same fun st => ?_) st
      exact read_same (·.routeQueues (⟨.direct, p.id⟩, routingKey)) st
  · split
    · exact .refl st
    · refine validateType_same (fun st => ?_) st
      exact (read_same (·.routes ⟨.topic, p.id⟩) st).trans (collectQueues_same _ _ _ _)
  · exact validateType_same (read_same (·.fanoutQueues p.id)) st
  · exact .refl st

/-- A call either fails before it publishes anything, and then nothing is planned, or reports
on what it has published. -/
theorem produce_reports (running : Bool) (d : Destination) (st : ProduceState)
    (hst : st.deliveries = []) :
    ((∃ e, (produce env running m d st).1 = .error e) ∧
        (produce env running m d st).2.deliveries = [] ∧ plan env m running d st = []) ∨
      ∃ ts ds, Reports m (produce env running m d st).1 ts ds (plan env m running d st) ∧
        (produce env running m d st).2.deliveries = ds ∧
        (produce env running m d st).2.targets = st.targets ++ ts := by
  unfold produce plan
  split
  · exact .inl ⟨⟨_, rfl⟩, hst, rfl⟩
  cases d with
  | nowhere => exact .inl ⟨⟨_, rfl⟩, hst, rfl⟩
  | queue q =>
    obtain ⟨ts, ds, all, hreports, hds, htargets, hall, -⟩ := @produceToQueue_reports env m q st
    rw [hst, List.nil_append] at hds hall
    subst hall
    exact .inr ⟨ts, ds, hreports, hds, htargets⟩
  | exchange p routingKey =>
    dsimp only
    unfold produceToExchange
    have hmatch := @matchExchangeQueues_same env p routingKey st
    generalize matchExchangeQueues env p routingKey st = result at hmatch
    obtain ⟨reply, st'⟩ := result
    obtain ⟨hdeliveries, htargets⟩ : SameRecord st st' := hmatch
    have hst' := hdeliveries.trans hst
    cases reply with
    | error e => exact .inl ⟨⟨e, rfl⟩, hst', rfl⟩
    | ok qs =>
      cases qs with
      | nil => exact .inl ⟨⟨_, rfl⟩, hst', hst'⟩
      | cons q qs =>
        right
        obtain ⟨r, ts, ds, all, hreply, hreports, hds, hts, hall⟩ :=
          @produceToQueues_reports env m (q :: qs) [] st'
        have hsame : r.map ([] ++ ·) = r := by cases r <;> rfl
        rw [hst', List.nil_append] at hds hall
        refine ⟨ts, ds, ?_, hds, htargets ▸ hts⟩
        dsimp only
        rw [hreply, hsame, hall]
        exact hreports

/-- If the call returns an error, none of its messages is stored; if it returns identifiers,
they are those of the stored messages, one for each target. -/
def TellsStored (result : Except ProduceError (List MessageId) × ProduceState) : Prop :=
  match result.1 with
  | .error _ => ∀ d ∈ result.2.deliveries, ¬ d.Stores
  | .ok ids =>
      ids = (result.2.deliveries.filter fun d => d.Stores).map Delivery.id ∧
        (result.2.deliveries.filter fun d => d.Stores).map Delivery.target = result.2.targets

/-- All queues take their messages when it is their turn, or already the first does not. -/
def Untroubled (m : Producible) (ds : List Delivery) : Prop :=
  (∀ d ∈ ds, d.before.Takes m d.target.group) ∨ ∃ d ∈ ds.head?, ¬ d.before.Takes m d.target.group

theorem Reports.tells_iff {r : Except ProduceError (List MessageId)} {ts : List Target}
    {ds all : List Delivery} (h : Reports m r ts ds all) (hds : st.deliveries = ds)
    (hts : st.targets = ts) : TellsStored (r, st) ↔ Untroubled m all := by
  cases h with
  | stored htaken =>
    refine iff_of_true ?_ (.inl fun d hd => (htaken d hd).2)
    have hall : (st.deliveries.filter fun d => d.Stores) = ds := by
      rw [hds]
      exact List.filter_eq_self.2 fun d hd => decide_eq_true (htaken d hd).1
    exact ⟨by rw [hall], by rw [hall, hts]⟩
  | @refused e _ init rest last htaken hlast =>
    constructor
    · intro htells
      cases init with
      | nil => exact .inr ⟨last, rfl, hlast.2⟩
      | cons d init =>
        have hstored := (htaken d (.head _)).1
        exact absurd hstored (htells d (hds ▸ .head _))
    · intro huntroubled d hd
      rw [hds] at hd
      have hinit : init = [] := by
        rcases huntroubled with hall | ⟨d, hd, hnot⟩
        · exact absurd (hall last (List.mem_append_right _ (.head _))) hlast.2
        cases init with
        | nil => rfl
        | cons d' init =>
          cases hd
          exact absurd (htaken d (.head _)).2 hnot
      rw [hinit] at hd
      rw [List.mem_singleton.1 hd]
      exact hlast.1

end ProduceState

open ProduceState

/-- A call tells what it has stored if and only if the queues of all its targets take their
messages when it is their turn, or the first one does not. -/
theorem produce_tells_iff (env : Surroundings) (running : Bool) (m : Producible)
    (d : Destination) (broker : Broker) (nextId : MessageId) :
    TellsStored (produce env running m d { broker := broker, nextId := nextId }) ↔
      Untroubled m (plan env m running d { broker := broker, nextId := nextId }) := by
  rcases @produce_reports env m running d { broker := broker, nextId := nextId } rfl with
    ⟨⟨e, herror⟩, hnone, hplan⟩ | ⟨ts, ds, hreports, hds, hts⟩
  · rw [TellsStored, herror, hnone, hplan]
    exact iff_of_true (fun _ hd => absurd hd List.not_mem_nil)
      (.inl fun _ hd => absurd hd List.not_mem_nil)
  · rw [List.nil_append] at hts
    exact Reports.tells_iff hreports hds hts

/-- Other clients are idle, and the producer knows two groups of each queue. -/
def quietSurroundings : Surroundings where
  others _ broker := broker
  now _ := 0
  groups _ _ := [1, 2]
  nextTick _ _ := none

/-- A fanout exchange to which two queues are bound: the first one has the group 1, the second
one has no groups and is stopped. -/
def salesBroker : Broker where
  queues q :=
    if q = ordersQueue then .created .fifo [1]
    else
      { Keyspace.created .fifo [] with
        queue := some { type := some .fifo, state := some .stopped } }
  exchanges :=
    { ExchangeStore.initial fun _ => some .fifo with
      props := fun _ => some ⟨some .fanout, none⟩
      fanoutQueues := fun _ => [ordersQueue, invoicesQueue] }

/-- One of the two groups that the producer knows does not exist any more. -/
def produceToStaleGroup : Except ProduceError (List MessageId) × ProduceState :=
  produce quietSurroundings true promptMessage (.queue ordersQueue)
    { broker := salesBroker, nextId := 7 }

/-- One of the two queues of an exchange is stopped. -/
def produceToStoppedQueue : Except ProduceError (List MessageId) × ProduceState :=
  produce { quietSurroundings with groups := fun _ q => if q = ordersQueue then [1] else [] } true
    promptMessage (.exchange ⟨salesExchange, .fanout⟩ "") { broker := salesBroker, nextId := 7 }

/-- Both calls return an error after they have stored a message. -/
theorem produce_hides_stored :
    produceToStaleGroup.1 = .error (.toGroup 2 (.refused .consumerGroupNotFound)) ∧
      produceToStaleGroup.2.deliveries.map (fun d => (d.target, d.id, decide d.Stores)) =
        [(⟨ordersQueue, some 1⟩, 7, true), (⟨ordersQueue, some 2⟩, 8, false)] ∧
      produceToStoppedQueue.1 = .error (.toQueue "invoices" (.refused .queueStopped)) ∧
      produceToStoppedQueue.2.deliveries.map (fun d => (d.target, d.id, decide d.Stores)) =
        [(⟨ordersQueue, some 1⟩, 7, true), (⟨invoicesQueue, none⟩, 8, false)] := by
  decide

/-- The producer knows only the group that exists. -/
def produceToGroup : Except ProduceError (List MessageId) × ProduceState :=
  produce { quietSurroundings with groups := fun _ _ => [1] } true promptMessage
    (.queue ordersQueue) { broker := salesBroker, nextId := 7 }

theorem produce_tells_iff_group :
    produceToGroup.1 = .ok [7] ∧ TellsStored produceToGroup := by
  refine ⟨by decide, (produce_tells_iff _ true promptMessage _ salesBroker 7).2 (.inl ?_)⟩
  have htakes : ∀ d ∈ plan { quietSurroundings with groups := fun _ _ => [1] } promptMessage true
      (.queue ordersQueue) { broker := salesBroker, nextId := 7 },
      d.before.Takes promptMessage d.target.group := by
    decide
  exact htakes

end RedisSmq
