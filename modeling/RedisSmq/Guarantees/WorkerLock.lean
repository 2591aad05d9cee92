import RedisSmq.Consumers.WorkerLock

/-!
# Who holds the lock of the background workers

The flag of an instance is set by its own attempt and cleared only by its own release. As
long as the key does not expire under an instance that still counts on it, the key is the
one that this instance has set. After such an expiry two things go wrong: the instance goes
on to report the lock as acquired, and if another handler of the same consumer has set the
key meanwhile, the owner still matches and the first instance extends or removes it.
-/

namespace RedisSmq.WorkerLock

variable {owner : LockInstance → ConsumerId} {s s' : WorkerLock} {a : LockAction}
variable {l l' : LockInstance}

/-- Only the instance that has set the key last extends or removes it, and an instance whose
refresh does not find its owner in the key reports the lock as lost. -/
structure Sound (owner : LockInstance → ConsumerId) (s : WorkerLock) (a : LockAction)
    (s' : WorkerLock) : Prop where
  touches : ∀ l, s.Touches owner l a → s.setter = some l
  lost : ∀ l, a = .refresh l → s.ownerMatches owner l = false → s'.acquired l = false

/-- The key does not expire while the instance that has set it counts on it. -/
def InTime (s : WorkerLock) : LockAction → Prop
  | .expire => ∀ l ∈ s.setter, (s.alive l && s.acquired l) = false
  | .acquire _ | .refresh _ | .release _ | .exit _ => True

instance decidableInTime (s : WorkerLock) : ∀ a, Decidable (s.InTime a)
  | .expire => inferInstanceAs (Decidable (∀ l ∈ s.setter, _))
  | .acquire _ | .refresh _ | .release _ | .exit _ => inferInstanceAs (Decidable True)

/-- An instance that counts on the lock has set the key. -/
def Held (owner : LockInstance → ConsumerId) (s : WorkerLock) : Prop :=
  ∀ l, s.alive l → s.acquired l → s.key = some (owner l) ∧ s.setter = some l

theorem Held.initial : Held owner initial := by
  intro l _ hacquired
  cases hacquired

theorem Held.tryAcquire (h : Held owner s) : Held owner (s.tryAcquire owner l) := by
  unfold WorkerLock.tryAcquire
  split
  case h_1 hkey =>
    intro l' halive hacquired
    by_cases hl : l' = l
    · subst hl
      exact ⟨rfl, rfl⟩
    -- another holder would have its owner in the key
    simp only [Function.update_of_ne hl] at hacquired
    have hset := (h l' halive hacquired).1
    rw [hkey] at hset
    cases hset
  case h_2 => exact h

theorem Held.release (h : Held owner s) (halive : s.alive l) : Held owner (s.release owner l) := by
  unfold WorkerLock.release
  split
  case isTrue hl =>
    intro l' halive' hacquired
    have hne : l' ≠ l := by
      rintro rfl
      simp at hacquired
    simp only [Function.update_of_ne hne] at hacquired
    have hset : (s.releaseLock owner l).alive l' = s.alive l' := by
      unfold releaseLock
      split <;> rfl
    have hother := (h l' (hset ▸ halive') hacquired).2
    exact absurd (Option.some.inj (hother.symm.trans (h l halive hl).2)) hne
  case isFalse => exact h

theorem Held.step (h : Held owner s) (hin : s.InTime a) (hstep : s.step owner a = some s') :
    Held owner s' := by
  cases a with
  | acquire l =>
    obtain ⟨-, heq⟩ := Option.ite_none_right_eq_some.1 hstep
    cases heq
    exact h.tryAcquire
  | refresh l =>
    obtain ⟨-, heq⟩ := Option.ite_none_right_eq_some.1 hstep
    cases heq
    exact h
  | release l =>
    obtain ⟨halive, heq⟩ := Option.ite_none_right_eq_some.1 hstep
    cases heq
    exact h.release halive
  | exit l =>
    cases hstep
    intro l' halive hacquired
    by_cases hl : l' = l
    · subst hl
      simp at halive
    · simp only [Function.update_of_ne hl] at halive
      exact h l' halive hacquired
  | expire =>
    cases hstep
    intro l halive hacquired
    have hidle := hin l (h l halive hacquired).2
    rw [halive, hacquired] at hidle
    cases hidle

theorem Held.sound (h : Held owner s) (hstep : s.step owner a = some s') : Sound owner s a s' where
  touches l ht := by
    cases a with
    | refresh l' | release l' => exact (h l ht.2.1 ht.2.2.1).2
    | acquire | exit | expire => exact ht.elim
  lost l ha hlost := by
    subst ha
    obtain ⟨halive, heq⟩ := Option.ite_none_right_eq_some.1 hstep
    cases heq
    by_contra hacquired
    have hkey := (h l halive (by simpa using hacquired)).1
    simp [ownerMatches, hkey] at hlost

/-- In every run in which the key does not expire under an instance that counts on it, every
step is sound, for any assignment of owners to the instances. -/
theorem lock_sound (owner : LockInstance → ConsumerId) (as : List LockAction) (a : LockAction)
    (s s' : WorkerLock) (hrun : initial.Runs owner as s)
    (hin : Run.Along (step owner) InTime initial as) (hstep : s.step owner a = some s') :
    Sound owner s a s' := by
  have h : Held owner s := Run.invariant_along (fun _ _ _ h hin hstep => h.step hin hstep)
    Held.initial hin hrun
  exact h.sound hstep

/-- Two handlers of one consumer. -/
def oneConsumer : LockInstance → ConsumerId := fun _ => 7

/-- The key expires under the first handler. Its refresh leaves the flag, and once the second
handler has set the key, the first one's release removes it. -/
theorem lock_unsound :
    (∃ s s', initial.Runs oneConsumer [.acquire 0, .expire] s ∧
        s.step oneConsumer (.refresh 0) = some s' ∧ ¬ Sound oneConsumer s (.refresh 0) s') ∧
      ∃ s s', initial.Runs oneConsumer [.acquire 0, .expire, .acquire 1] s ∧
        s.step oneConsumer (.release 0) = some s' ∧ s.setter = some 1 ∧ s'.key = none ∧
        ¬ Sound oneConsumer s (.release 0) s' := by
  refine ⟨⟨_, _, rfl, rfl, fun h => ?_⟩, ⟨_, _, rfl, rfl, rfl, rfl, fun h => ?_⟩⟩
  · exact absurd (h.lost 0 rfl rfl) (by decide)
  · exact absurd (h.touches 0 ⟨rfl, rfl, rfl, rfl⟩) (by decide)

theorem lock_sound_handover :
    ∃ s s', initial.Runs oneConsumer [.acquire 0, .refresh 0, .exit 0, .expire, .acquire 1] s ∧
      s.step oneConsumer (.release 1) = some s' ∧ Sound oneConsumer s (.release 1) s' :=
  ⟨_, _, rfl, rfl, lock_sound oneConsumer
    [.acquire 0, .refresh 0, .exit 0, .expire, .acquire 1] (.release 1) _ _ rfl (by decide) rfl⟩

end RedisSmq.WorkerLock
