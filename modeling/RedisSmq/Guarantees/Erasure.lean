import RedisSmq.Admin.DeleteLaws
import RedisSmq.Guarantees.Conservation
import RedisSmq.System.Conduct

/-!
# Deleting messages on request

`DeleteMessages` should delete every listed message that is not being processed. It does so
exactly if every listed hash can be decoded and three things are not the case. A listed
message is delayed: the delayed messages are in a sorted set, to which the deletion script
sends a list command, and Redis aborts the script there, after the messages that stand before
it in the batch are gone. A listed message is pending and was popped: the script looks for it
in the pending container only. Or a listed message is looked for under the keys of another
group, because groups are told apart by their names and `_` stands for no group.
-/

namespace RedisSmq

/-- `DeleteMessages`, called without interruption in a state of the system. -/
def System.deleteMessages (s : System) (groupName : GroupId → String)
    (order : List String → List String) (ids : List MessageId) (lock : Option LockId) :
    Keyspace × Except DeleteError DeleteResponse :=
  RedisSmq.deleteMessages groupName (Codec.decodeEnvelope s.cfg.defaults s.nextId s.now) order ids
    lock s.db

/-- The call returns without error, and exactly the listed messages that are stored and not
being processed are deleted, with their entries in the container of their status, which for a
pending message may be a processing list; the others are reported. -/
def Keyspace.DeletesListed (db : Keyspace) (ids : List MessageId)
    (out : Keyspace × Except DeleteError DeleteResponse) : Prop :=
  ∃ gone r, out.2 = .ok r ∧ Selects db ids gone ∧ Erased db gone out.1 ∧
    (∀ m ∈ gone, db.status m = some .pending → ∀ c, m ∉ out.1.lists (.processing c)) ∧
    Tally db ids gone r.stats

/-- The script that is given the keys looks for the pending message in its container, or the
message is in neither of the two. -/
def Keyspace.LooksInPlace (db : Keyspace) (type : QueueType)
    (keys : Option GroupId → Option GroupId) (m : MessageId) : Prop :=
  keys (db.groupOf m) = db.groupOf m ∨ db.occ (pendingSlot type (db.groupOf m)) m = 0 ∧
    db.occ (pendingSlot type (keys (db.groupOf m))) m = 0
  deriving Decidable

section Containers

variable {keys : Option GroupId → Option GroupId} {type : QueueType}
variable {db db' : Keyspace} {gone gone' : List MessageId} {m : MessageId}

-- Only the elements of a list can be taken out of it.
private theorem diff_filter_congr {α : Type} [DecidableEq α] {P Q : α → Prop} [DecidablePred P]
    [DecidablePred Q] (xs l : List α) (h : ∀ x ∈ xs, x ∈ l → (P x ↔ Q x)) :
    l.diff (xs.filter P) = l.diff (xs.filter Q) := by
  induction xs generalizing l with
  | nil => rfl
  | cons x xs ih =>
    have hrest := ih l fun y hy => h y (List.mem_cons_of_mem x hy)
    have herase := ih (l.erase x) fun y hy hmem =>
      h y (List.mem_cons_of_mem x hy) (List.mem_of_mem_erase hmem)
    by_cases hx : x ∈ l
    · by_cases hP : P x
      · simpa [hP, (h x List.mem_cons_self hx).1 hP] using herase
      · have hQ : ¬ Q x := fun hQ => hP ((h x List.mem_cons_self hx).2 hQ)
        simpa [hP, hQ] using hrest
    · by_cases hP : P x <;> by_cases hQ : Q x <;>
        simpa [hP, hQ, List.erase_of_not_mem hx] using hrest

theorem ErasedBy.perm (h : ErasedBy keys db gone db') (hperm : gone.Perm gone') :
    ErasedBy keys db gone' db' where
  settings := h.settings
  hash m := by simp only [h.hash, hperm.mem_iff]
  history m := by simp only [h.history, hperm.mem_iff]
  lists k := by rw [h.lists, List.Perm.diff_left _ (hperm.filter _)]
  zsets k := by simp only [h.zsets, hperm.mem_iff]
  counter c := by rw [h.counter, hperm.countP_eq]

/-- A deletion under the keys of other groups is one under their own if the containers that
have the messages are looked into all the same. -/
theorem ErasedBy.erased_iff (h : ErasedBy keys db gone db') (hnodup : gone.Nodup) :
    Erased db gone db' ↔ ∀ m ∈ gone, ∀ p, 0 < db.occ p m →
      (db.Clears keys m p ↔ db.Clears id m p) := by
  constructor
  · intro h' m hm p hocc
    cases p with
    | list k =>
      have hcount := congrArg (List.count m) ((h.lists k).symm.trans (h'.lists k))
      have hone : ∀ keys, (gone.filter (db.Clears keys · (.list k))).count m =
          if db.Clears keys m (.list k) then 1 else 0 := by
        intro keys
        rw [List.Nodup.count (hnodup.filter _)]
        simp [hm]
      rw [List.count_diff, List.count_diff, hone, hone] at hcount
      change 0 < (db.lists k).count m at hocc
      by_cases hk : db.Clears keys m (.list k) <;> by_cases hi : db.Clears id m (.list k) <;>
        simp only [hk, hi, if_true, if_false] at hcount ⊢ <;> omega
    | zset k =>
      have hmem : m ∈ db.zsets k := by
        by_contra hno
        simp [Keyspace.occ, hno] at hocc
      obtain ⟨e, he, rfl⟩ := List.mem_map.1 hmem
      have hiff : e ∈ (db'.zsets k).entries ↔ e ∈ (db'.zsets k).entries := Iff.rfl
      nth_rewrite 1 [h.zsets] at hiff
      rw [h'.zsets] at hiff
      simp only [List.mem_filter, he, hm, true_and, decide_eq_true_eq] at hiff
      exact not_iff_not.1 hiff
  · intro hclears
    refine ⟨h.settings, h.hash, h.history, fun k => ?_, fun k => ?_, h.counter⟩
    · rw [h.lists]
      exact diff_filter_congr gone _ fun m hm hmem =>
        hclears m hm (.list k) (List.count_pos_iff.2 hmem)
    · rw [h.zsets]
      refine List.filter_congr fun e he => decide_eq_decide.2 (not_congr (and_congr_right ?_))
      intro hm
      refine hclears _ hm (.zset k) ?_
      have hmem : e.2 ∈ db.zsets k := List.mem_map_of_mem he
      simp [Keyspace.occ, hmem]

/-- For the status of the message the keys matter only if it is pending. -/
theorem clears_iff_looksInPlace (htype : db.queueType? = some type) :
    (∀ p, 0 < db.occ p m → (db.Clears keys m p ↔ db.Clears id m p)) ↔
      (db.status m = some .pending → db.LooksInPlace type keys m) := by
  by_cases hst : db.status m = some .pending
  · have hhome : ∀ keys, db.homeBy keys m = some (pendingSlot type (keys (db.groupOf m))) := by
      intro keys
      rw [Keyspace.homeBy, hst, htype]
      rfl
    simp only [hst, true_implies, Keyspace.Clears, hhome, Option.some.injEq, id_eq]
    have hpublished : ∀ group, pendingSlot type group ≠ .list .published := by
      intro group
      cases type <;> simp [pendingSlot]
    constructor
    · intro hiff
      by_cases hkeys : keys (db.groupOf m) = db.groupOf m
      · exact .inl hkeys
      have hne : pendingSlot type (keys (db.groupOf m)) ≠ pendingSlot type (db.groupOf m) := by
        cases type <;> simpa [pendingSlot] using hkeys
      refine .inr ⟨?_, ?_⟩ <;> by_contra hpos
      · have := hiff _ (Nat.pos_of_ne_zero hpos)
        simp [hpublished, hne] at this
      · have := hiff _ (Nat.pos_of_ne_zero hpos)
        simp [hpublished, hne.symm] at this
    · rintro (hkeys | ⟨hown, hother⟩) p hocc
      · rw [hkeys]
      refine or_congr_right (iff_of_false ?_ ?_) <;> rintro rfl <;> omega
  · have hhome : db.homeBy keys m = db.homeBy id m := by
      unfold Keyspace.homeBy
      cases h : db.status m with
      | none => rfl
      | some st => cases st <;> first | exact absurd h hst | rfl
    simp [hst, Keyspace.Clears, hhome]

/-- A deletion leaves the processing lists alone. -/
theorem ErasedBy.lists_processing (h : ErasedBy keys db gone db') (c : ConsumerId) :
    db'.lists (.processing c) = db.lists (.processing c) := by
  have hnone : gone.filter (db.Clears keys · (.list (.processing c))) = [] := by
    rw [List.filter_eq_nil_iff]
    intro m _ hclears
    rcases of_decide_eq_true hclears with hpublished | hhome
    · cases hpublished
    obtain ⟨st, _, hhome⟩ := Option.bind_eq_some_iff.1 hhome
    cases st with
    | pending =>
      obtain ⟨type, -, htype⟩ := Option.map_eq_some_iff.1 hhome
      exact pendingSlot_ne_processing type _ c htype
    | _ => cases hhome
  rw [h.lists, hnone, List.diff_nil]

end Containers

theorem Sane.decodes {type : QueueType} {s : System} (hs : Sane type s) :
    Decodes (Codec.decodeEnvelope s.cfg.defaults s.nextId s.now) s.db := by
  intro id h e hget hdec
  have hcore : (h.id, h.message) = s.db.core id := by simp [Keyspace.core, hget]
  obtain ⟨hid, -⟩ := hs.decode hcore hdec
  obtain ⟨p, hp, -, hgroup⟩ := Codec.decodeEnvelope_message hdec
  refine ⟨hid, ?_⟩
  rw [hgroup, Keyspace.groupOf, hget, Option.bind_some, hp]
  rfl

/-- What obstructs the call, in terms of the stored hashes. -/
theorem Keyspace.not_obstructs_iff {db : Keyspace} {opts : ConsumeOptions} {uuid : MessageId}
    {t : Nanos} {ids : List MessageId} :
    ¬ db.Obstructs (Codec.decodeEnvelope opts uuid t) ids ↔
      ∀ id ∈ ids, ∀ h, db.hgetall id = some h → h.message.isSome = true ∧
        (h.status = some .unackDelaying → (db.zsets .delayed).entries = []) := by
  rw [Keyspace.Obstructs, not_or]
  constructor
  · rintro ⟨hdec, hstuck⟩ id hid h hget
    constructor
    · by_contra hnone
      rw [← @Codec.decodeEnvelope_isSome opts uuid t h] at hnone
      exact hdec ⟨id, hid, h, hget, by simpa using hnone⟩
    · intro hst
      by_contra hne
      exact hstuck ⟨⟨id, hid, by rw [Keyspace.status, hget]; exact hst⟩, hne⟩
  · intro hall
    constructor
    · rintro ⟨id, hid, h, hget, hnone⟩
      have hsome := (hall id hid h hget).1
      rw [← @Codec.decodeEnvelope_isSome opts uuid t h, hnone] at hsome
      cases hsome
    · rintro ⟨⟨m, hm, hst⟩, hne⟩
      obtain ⟨h, hget, hst⟩ := Option.bind_eq_some_iff.1 hst
      exact hne ((hall m hm h hget).2 hst)

/-- In every reachable state with an unlocked queue, `DeleteMessages` does what it should
exactly if each stored message of the list can be decoded, is not delayed unless there is
nothing in the delayed container, and if it is pending, was not popped and is looked for under
the keys of its group. -/
theorem deletesListed_iff (cfg : Config) (type : QueueType) (groups : List GroupId) (now : Nanos)
    (as : List Action) (s : System) (hrun : (System.created cfg type groups now).Runs as s)
    (hunlocked : s.db.operationalState ≠ .locked) (groupName : GroupId → String)
    (order : List String → List String) (horder : ∀ l, (order l).Perm l)
    (ids : List MessageId) (lock : Option LockId) :
    s.db.DeletesListed ids (s.deleteMessages groupName order ids lock) ↔
      ∀ id ∈ ids, ∀ h, s.db.hgetall id = some h → h.message.isSome = true ∧
        (h.status = some .unackDelaying → (s.db.zsets .delayed).entries = []) ∧
        (h.status = some .pending → (∀ c, id ∉ s.db.lists (.processing c)) ∧
          s.db.LooksInPlace type (s.db.scriptKeys groupName ids) id) := by
  have hs : Sane type s := (balanced_of_runs hrun).1
  have hadm : s.db.Admits lock := ⟨by rw [hs.type_eq]; rfl, fun hlocked => absurd hlocked hunlocked⟩
  have hobstructs := @Keyspace.not_obstructs_iff s.db s.cfg.defaults s.nextId s.now ids
  have hpending : ∀ {m}, m ∈ ids → s.db.status m = some .pending → ∃ h, s.db.hgetall m = some h ∧
      h.status = some .pending := fun _ hst => Option.bind_eq_some_iff.1 hst
  constructor
  · rintro ⟨gone, r, hok, hsel, hdb, hprocessing, -⟩
    have hfree : ¬ s.db.Obstructs (Codec.decodeEnvelope s.cfg.defaults s.nextId s.now) ids := by
      intro hobs
      obtain ⟨db', e, herror⟩ := deleteMessages_fails groupName hadm hs.decodes horder hobs
      rw [System.deleteMessages, herror] at hok
      cases hok
    obtain ⟨db', gone', r', hout, hsel', hdb', -⟩ :=
      deleteMessages_erases groupName hadm hs.decodes horder hfree
    rw [System.deleteMessages, hout] at hdb hprocessing
    have hperm : gone'.Perm gone :=
      (List.perm_ext_iff_of_nodup hsel'.nodup hsel.nodup).2 fun m => by
      rw [hsel.mem_iff, hsel'.mem_iff]
    have hplaces := ((hdb'.perm hperm).erased_iff hsel.nodup).1 hdb
    intro id hid h hget
    obtain ⟨hmessage, hdelayed⟩ := hobstructs.1 hfree id hid h hget
    refine ⟨hmessage, hdelayed, fun hst => ?_⟩
    have hst : s.db.status id = some .pending := by rw [Keyspace.status, hget]; exact hst
    have hgone : id ∈ gone := (hsel.mem_iff id).2 ⟨hid, .pending, hst, by decide⟩
    refine ⟨fun c => ?_, (clears_iff_looksInPlace hs.type_eq).1 (hplaces id hgone) hst⟩
    rw [← hdb'.lists_processing c]
    exact hprocessing id hgone hst c
  · intro hall
    have hfree := hobstructs.2 fun id hid h hget =>
      ⟨(hall id hid h hget).1, (hall id hid h hget).2.1⟩
    obtain ⟨db', gone, r, hok, hsel, hdb, htally⟩ :=
      deleteMessages_erases groupName hadm hs.decodes horder hfree
    rw [System.deleteMessages, hok]
    refine ⟨gone, r, rfl, hsel, (hdb.erased_iff hsel.nodup).2 fun m hm => ?_, ?_, htally⟩
    · refine (clears_iff_looksInPlace hs.type_eq).2 fun hst => ?_
      obtain ⟨h, hget, hst⟩ := hpending ((hsel.mem_iff m).1 hm).1 hst
      exact ((hall m ((hsel.mem_iff m).1 hm).1 h hget).2.2 hst).2
    · intro m hm hst c
      obtain ⟨h, hget, hst⟩ := hpending ((hsel.mem_iff m).1 hm).1 hst
      rw [hdb.lists_processing]
      exact ((hall m ((hsel.mem_iff m).1 hm).1 h hget).2.2 hst).1 c

/-- A message with the default options, which is retried after a minute. -/
def patientMessage : Producible := Producible.new defaultConsumeOptions 0 0

/-- The first message fails and is delayed; a second one is pending. -/
def delayedAndPending : List Action :=
  [.produce patientMessage none, .pop 7 none, .checkout 7 0 none,
    .consume 7 (.early patientMessage 0 .processing 1) 1,
    .finish 7 (.early patientMessage 0 .processing 1) 1 0 false,
    .unacknowledge 7 [(.early patientMessage 0 .processing 1, some 1, .unacknowledged)] 0,
    .fetch .requeuer, .load .requeuer 0,
    .requeueImmediate [.early patientMessage 0 .unackRequeuing 1] 0, .produce patientMessage none]

/-- One message has no group, and another one is for the group 1. -/
def withAndWithoutGroup : List Action :=
  [.produce promptMessage none, .produce promptMessage (some 1)]

/-- Deleting a delayed message fails when the one before it is gone. If the group has the name
`_`, its message stays in its pending list, and a popped message stays in the processing list. -/
theorem delete_aborts_delayedAndPending :
    (Run.exec System.step (System.created {} .fifo [] 0) delayedAndPending).map (fun s =>
      (s.db.operationalState, s.db.status 0, (s.deleteMessages toString id [3, 0] none).2.toOption,
        s.db.status 3, (s.deleteMessages toString id [3, 0] none).1.status 3)) =
      some (.active, some .unackDelaying, none, some .pending, none) ∧
    (Run.exec System.step (System.created {} .fifo [1] 0) withAndWithoutGroup).map (fun s =>
      (s.db.lists (.pending (some 1)),
        (s.deleteMessages (fun _ => "_") id [0, 1] none).2.toOption.map DeleteResponse.status,
        (s.deleteMessages (fun _ => "_") id [0, 1] none).1.lists (.pending (some 1)))) =
      some ([1], some .ok, [1]) ∧
    (Run.exec System.step (System.created {} .fifo [] 0)
        [.produce promptMessage none, .pop 7 none]).map (fun s =>
      (s.db.status 0, (s.deleteMessages toString id [0] none).1.status 0,
        (s.deleteMessages toString id [0] none).1.lists (.processing 7))) =
      some (some .pending, none, [0]) := by
  refine ⟨?_, ?_, ?_⟩ <;> decide +kernel

/-- One message is pending, another one is scheduled. -/
def pendingAndScheduled : List Action :=
  [.produce promptMessage none,
    .produce { promptMessage with scheduledDelay := some 5000000000 } none]

theorem deletesListed_iff_pendingAndScheduled :
    ∃ s, (System.created {} .fifo [] 0).Runs pendingAndScheduled s ∧
      s.db.DeletesListed [0, 1] (s.deleteMessages toString id [0, 1] none) := by
  refine ⟨_, rfl, (deletesListed_iff {} .fifo [] 0 pendingAndScheduled _ rfl (by decide) toString id
    (fun l => .refl l) [0, 1] none).2 ?_⟩
  intro id hid h hget
  rcases List.mem_pair.1 hid with rfl | rfl
  all_goals cases hget
  · exact ⟨rfl, by decide, fun _ => ⟨fun c => List.not_mem_nil, .inl rfl⟩⟩
  · exact ⟨rfl, by decide, fun hst => absurd hst (by decide)⟩

end RedisSmq
