import RedisSmq.Data.Run

/-!
# Clients of a store with optimistic transactions

Clients share a store of keys. A client reads, writes, or runs a transaction: it watches
some keys, reads, and then asks for a write to be carried out, which happens only if no
watched key has changed since. If one has, the client starts over, a bounded number of
times. Other clients act between any two steps of a client. A write that leaves a key as it
was does not count as a change of it.

The rule of this module is one of rely and guarantee. It concerns an invariant `I` of the
store, a relation `R c` that each client `c` relies on the writes of others to keep to, an
assertion `A` about writes, and a condition `C` on them. A client is safe if each of its
writes keeps `I`, keeps to what the other clients rely on and makes `A` true, in every store
that meets `C` and that the client may meet there: one that is related by what it relies on
to the store that it has last read from or written to and, inside a transaction, has the
same values at the watched keys. If all clients are safe, then `I` holds after every run
whose writes all meet the condition, and `A` holds of all these writes.
-/

namespace Optimistic

/-- A store with its keys and the writes that it knows. A write may depend on the client. -/
structure Server (σ κ ω : Type) where
  Value : κ → Type
  value : σ → (k : κ) → Value k
  decEq : (k : κ) → DecidableEq (Value k)
  apply : Option Nat → ω → σ → σ

/-- One attempt of a transaction: reads, and then a write or a failure. -/
inductive Attempt (σ ω ρ : Type) where
  | fail (r : ρ)
  | read (next : σ → Attempt σ ω ρ)
  | exec (w : ω)

structure Transaction (σ κ ω ρ : Type) where
  keys : List κ
  attempt : Attempt σ ω ρ
  ok : ρ
  exhausted : ρ

inductive Program (σ κ ω ρ : Type) where
  | done (r : ρ)
  | read (next : σ → Program σ κ ω ρ)
  | write (w : ω) (next : Program σ κ ω ρ)
  | transaction (tries : Nat) (t : Transaction σ κ ω ρ)

/-- A client in the middle of its program, or of an attempt of its transaction. It is dirty if
a watched key has changed. -/
inductive Process (σ κ ω ρ : Type) where
  | running (p : Program σ κ ω ρ)
  | trying (t : Transaction σ κ ω ρ) (tries : Nat) (rest : Attempt σ ω ρ) (dirty : Bool)

/-- The store and the clients, which are known by their positions. -/
structure Machine (σ κ ω ρ : Type) where
  store : σ
  procs : List (Process σ κ ω ρ)

inductive Move (σ κ ω ρ : Type) where
  /-- A new client starts. -/
  | spawn (p : Program σ κ ω ρ)
  /-- A client takes a step. -/
  | step (c : Nat)
  /-- Something else writes. -/
  | write (w : ω)

def Move.isSpawn {σ κ ω ρ : Type} : Move σ κ ω ρ → Bool
  | .spawn _ => true
  | _ => false

section Semantics

variable {σ κ ω ρ : Type} (srv : Server σ κ ω)

/-- The keys have the same values in both stores. -/
def Server.SameOn (keys : List κ) (s s' : σ) : Prop := ∀ k ∈ keys, srv.value s k = srv.value s' k

instance Server.decidableSameOn (keys : List κ) (s s' : σ) : Decidable (srv.SameOn keys s s') :=
  have := srv.decEq
  inferInstanceAs (Decidable (∀ k ∈ keys, srv.value s k = srv.value s' k))

/-- The next step of a client, and what it writes. -/
def Process.step (s : σ) : Process σ κ ω ρ → Option (Process σ κ ω ρ × Option ω)
  | .running (.done _) => none
  | .running (.read next) => some (.running (next s), none)
  | .running (.write w next) => some (.running next, some w)
  | .running (.transaction 0 t) => some (.running (.done t.exhausted), none)
  | .running (.transaction (n + 1) t) => some (.trying t n t.attempt false, none)
  | .trying _ _ (.fail r) _ => some (.running (.done r), none)
  | .trying t n (.read next) dirty => some (.trying t n (next s) dirty, none)
  | .trying t n (.exec _) true => some (.running (.transaction n t), none)
  | .trying t _ (.exec w) false => some (.running (.done t.ok), some w)

/-- What a client has returned. -/
def Process.result : Process σ κ ω ρ → Option ρ
  | .running (.done r) => some r
  | _ => none

/-- A client that watches a key that has changed becomes dirty. -/
def Process.notice (s s' : σ) : Process σ κ ω ρ → Process σ κ ω ρ
  | .running p => .running p
  | .trying t n rest dirty => .trying t n rest (dirty || !decide (srv.SameOn t.keys s s'))

namespace Machine

variable (m : Machine σ κ ω ρ)

def commit (c : Option Nat) (w : ω) : Machine σ κ ω ρ where
  store := srv.apply c w m.store
  procs := m.procs.map (Process.notice srv m.store (srv.apply c w m.store))

/-- The next step of a client. -/
def clientStep (c : Nat) : Option (Process σ κ ω ρ × Option ω) :=
  m.procs[c]?.bind (Process.step m.store)

def step : Move σ κ ω ρ → Option (Machine σ κ ω ρ)
  | .spawn p => some { m with procs := m.procs ++ [.running p] }
  | .step c =>
      (m.clientStep c).map fun (p, w) =>
        let m' : Machine σ κ ω ρ := { m with procs := m.procs.set c p }
        match w with
        | none => m'
        | some w => m'.commit srv (some c) w
  | .write w => some (m.commit srv none w)

/-- What a move writes, and for whom. -/
def written : Move σ κ ω ρ → Option (Option Nat × ω)
  | .spawn _ => none
  | .step c => ((m.clientStep c).bind Prod.snd).map fun w => (some c, w)
  | .write w => some (none, w)

end Machine

end Semantics

/-- What surrounds a client that is followed alone: where its store is in the state of the
world, how its writes change that state, and what happens before its command with a number. -/
structure Surroundings (σ ω τ : Type) where
  view : τ → σ
  write : ω → τ → τ
  before : Nat → τ → τ

section Alone

variable {σ κ ω ρ τ : Type} (srv : Server σ κ ω) (env : Surroundings σ ω τ)

/-- The reads of an attempt, from the command with number `n` on, and whether a watched key
has changed meanwhile. -/
def Attempt.run (keys : List κ) :
    Attempt σ ω ρ → Bool → Nat → τ → (ρ ⊕ ω) × Bool × Nat × τ
  | .fail r, dirty, n, t => (.inl r, dirty, n, t)
  | .exec w, dirty, n, t => (.inr w, dirty, n, t)
  | .read next, dirty, n, t =>
      let t' := env.before n t
      let changed := !decide (srv.SameOn keys (env.view t) (env.view t'))
      (next (env.view t')).run keys (dirty || changed) (n + 1) t'

def Transaction.run (x : Transaction σ κ ω ρ) : Nat → Nat → τ → ρ × Nat × τ
  | 0, n, t => (x.exhausted, n, t)
  | tries + 1, n, t =>
      match x.attempt.run srv env x.keys false (n + 1) (env.before n t) with
      | (.inl r, _, n, t) => (r, n, t)
      | (.inr w, dirty, n, t) =>
          let t' := env.before n t
          if dirty || !decide (srv.SameOn x.keys (env.view t) (env.view t')) then
            x.run tries (n + 1) t'
          else (x.ok, n + 1, env.write w t')

/-- The program, from the command with number `n` on: its result, the number of the next
command and the state of the world. -/
def Program.run : Program σ κ ω ρ → Nat → τ → ρ × Nat × τ
  | .done r, n, t => (r, n, t)
  | .read next, n, t => (next (env.view (env.before n t))).run (n + 1) (env.before n t)
  | .write w next, n, t => next.run (n + 1) (env.write w (env.before n t))
  | .transaction tries x, n, t => x.run srv env tries n t

end Alone

/-- What a proof about clients is about. -/
structure Contract (σ ω : Type) where
  /-- The invariant of the store. -/
  I : σ → Prop
  /-- What a client relies on others to keep to. -/
  R : Nat → σ → σ → Prop
  /-- The condition on writes. -/
  C : Option Nat → ω → σ → Prop
  /-- What is asserted about writes. -/
  A : Option Nat → ω → σ → Prop
  refl : ∀ c s, R c s s
  trans : ∀ c s₁ s₂ s₃, R c s₁ s₂ → R c s₂ s₃ → R c s₁ s₃

section Rule

variable {σ κ ω ρ : Type} (srv : Server σ κ ω) (K : Contract σ ω)
variable {p p' : Process σ κ ω ρ}

/-- The write keeps the invariant and what others rely on, and the assertion holds of it. -/
structure Keeps (c : Option Nat) (w : ω) (s : σ) : Prop where
  invariant : K.I (srv.apply c w s)
  rely : ∀ d, c ≠ some d → K.R d s (srv.apply c w s)
  assertion : K.A c w s

/-- An attempt is safe if it goes on in a store that it knows. -/
def Attempt.Safe (c : Nat) (keys : List κ) : Attempt σ ω ρ → σ → Prop
  | .fail _, _ => True
  | .read next, known =>
      ∀ s, K.I s → K.R c known s → srv.SameOn keys known s → (next s).Safe c keys s
  | .exec w, known =>
      ∀ s, K.I s → K.R c known s → srv.SameOn keys known s → K.C (some c) w s →
        Keeps srv K (some c) w s

/-- A program is safe if it goes on in a store that it knows. -/
def Program.Safe (c : Nat) : Program σ κ ω ρ → σ → Prop
  | .done _, _ => True
  | .read next, known => ∀ s, K.I s → K.R c known s → (next s).Safe c s
  | .write w next, known =>
      ∀ s, K.I s → K.R c known s → K.C (some c) w s →
        Keeps srv K (some c) w s ∧ next.Safe c (srv.apply (some c) w s)
  | .transaction _ t, known => ∀ s, K.I s → K.R c known s → t.attempt.Safe srv K c t.keys s

def Process.Safe (c : Nat) (s : σ) : Process σ κ ω ρ → Prop
  | .running p => p.Safe srv K c s
  | .trying t n rest dirty =>
      (Program.transaction n t).Safe srv K c s ∧
        (dirty = false → rest.Safe srv K c t.keys s)

/-- The invariant holds and all clients are safe. -/
structure Machine.Steady (m : Machine σ κ ω ρ) : Prop where
  invariant : K.I m.store
  safe : ∀ (c : Nat) (p : Process σ κ ω ρ), m.procs[c]? = some p → p.Safe srv K c m.store

/-- A new client is safe, and so is what else writes. -/
def Machine.Admits (m : Machine σ κ ω ρ) : Move σ κ ω ρ → Prop
  | .spawn p => p.Safe srv K m.procs.length m.store
  | .step _ => True
  | .write w => K.I m.store → K.C none w m.store → Keeps srv K none w m.store

/-- The condition on a move. -/
def Machine.Allows (m : Machine σ κ ω ρ) (a : Move σ κ ω ρ) : Prop :=
  ∀ x ∈ m.written a, K.C x.1 x.2 m.store

variable {srv K} {m m' : Machine σ κ ω ρ} {a : Move σ κ ω ρ} {c : Nat} {s s' : σ}

theorem Server.SameOn.refl (keys : List κ) (s : σ) : srv.SameOn keys s s := fun _ _ => rfl

theorem Server.SameOn.trans {keys : List κ} {s'' : σ} (h : srv.SameOn keys s s')
    (h' : srv.SameOn keys s' s'') : srv.SameOn keys s s'' :=
  fun k hk => (h k hk).trans (h' k hk)

theorem Attempt.Safe.mono {keys : List κ} {t : Attempt σ ω ρ} (h : t.Safe srv K c keys s)
    (hR : K.R c s s') (hsame : srv.SameOn keys s s') : t.Safe srv K c keys s' := by
  cases t with
  | fail r => trivial
  | read | exec => exact fun s₁ hI h₁ hkeys => h s₁ hI (K.trans c _ _ _ hR h₁) (hsame.trans hkeys)

theorem Program.Safe.mono {p : Program σ κ ω ρ} (h : p.Safe srv K c s) (hR : K.R c s s') :
    p.Safe srv K c s' := by
  cases p with
  | done r => trivial
  | read | write | transaction => exact fun s₁ hI h₁ => h s₁ hI (K.trans c _ _ _ hR h₁)

/-- A client that notices what others write stays safe; one that has returned relies on
nothing. -/
theorem Process.Safe.notice (h : p.Safe srv K c s) (hR : p.result = none → K.R c s s') :
    (p.notice srv s s').Safe srv K c s' := by
  cases p with
  | running p =>
    cases p with
    | done r => trivial
    | _ => exact Program.Safe.mono h (hR rfl)
  | trying t n rest dirty =>
    refine ⟨Program.Safe.mono h.1 (hR rfl), fun hclean => ?_⟩
    obtain ⟨hdirty, hsame⟩ := Bool.or_eq_false_iff.1 hclean
    exact (h.2 hdirty).mono (hR rfl) (of_decide_eq_true (by simpa using hsame))

/-- A client that has written is not in a transaction. -/
theorem Process.step_writes {w : ω}
    (hstep : p.step s = some (p', some w)) : ∃ prog, p' = .running prog := by
  cases p with
  | running p =>
    cases p with
    | write x next =>
      cases hstep
      exact ⟨next, rfl⟩
    | transaction n t => cases n <;> cases hstep
    | _ => cases hstep
  | trying t n rest dirty =>
    cases rest with
    | exec x =>
      cases dirty with
      | true => cases hstep
      | false =>
        cases hstep
        exact ⟨.done t.ok, rfl⟩
    | _ => cases hstep

/-- A step of a safe client that writes nothing. -/
theorem Process.Safe.step_none (h : p.Safe srv K c s) (hI : K.I s)
    (hstep : p.step s = some (p', none)) : p'.Safe srv K c s := by
  cases p with
  | running p =>
    cases p with
    | done r | write x next => cases hstep
    | read next =>
      cases hstep
      exact h s hI (K.refl c s)
    | transaction n t =>
      cases n with
      | zero =>
        cases hstep
        trivial
      | succ n =>
        cases hstep
        exact ⟨h, fun _ => h s hI (K.refl c s)⟩
  | trying t n rest dirty =>
    cases rest with
    | fail r =>
      cases hstep
      trivial
    | read next =>
      cases hstep
      exact ⟨h.1, fun hd => h.2 hd s hI (K.refl c s) (.refl _ _)⟩
    | exec x =>
      cases dirty with
      | true =>
        cases hstep
        exact h.1
      | false => cases hstep

/-- A step of a safe client that writes. -/
theorem Process.Safe.step_some {w : ω} (h : p.Safe srv K c s)
    (hI : K.I s) (hstep : p.step s = some (p', some w)) (hC : K.C (some c) w s) :
    Keeps srv K (some c) w s ∧ p'.Safe srv K c (srv.apply (some c) w s) := by
  cases p with
  | running p =>
    cases p with
    | done r | read next => cases hstep
    | write x next =>
      cases hstep
      exact h s hI (K.refl c s) hC
    | transaction n t => cases n <;> cases hstep
  | trying t n rest dirty =>
    cases rest with
    | fail r | read next => cases hstep
    | exec x =>
      cases dirty with
      | true => cases hstep
      | false =>
        cases hstep
        exact ⟨h.2 rfl s hI (K.refl c s) (.refl _ _) hC, trivial⟩

theorem Machine.store_of_step (hstep : m.step srv a = some m') :
    m'.store = (m.written a).elim m.store fun x => srv.apply x.1 x.2 m.store := by
  cases a with
  | spawn p | write w =>
    cases hstep
    rfl
  | step c =>
    obtain ⟨⟨p', w⟩, hclient, rfl⟩ := Option.map_eq_some_iff.1 hstep
    rw [written, hclient]
    cases w <;> rfl

theorem Machine.length_of_step (hstep : m.step srv a = some m') :
    m'.procs.length = m.procs.length + if a.isSpawn then 1 else 0 := by
  cases a with
  | spawn p =>
    cases hstep
    exact List.length_append
  | write w =>
    cases hstep
    exact List.length_map _
  | step c =>
    obtain ⟨⟨p', w⟩, -, rfl⟩ := Option.map_eq_some_iff.1 hstep
    cases w with
    | none => exact List.length_set
    | some w => exact (List.length_map _).trans List.length_set

/-- The step of a family of clients with a contract each. What is written has to keep to what
the other clients rely on that have not returned. -/
theorem Machine.each_safe_step {K : Nat → Contract σ ω}
    (h : ∀ (c : Nat) (p : Process σ κ ω ρ), m.procs[c]? = some p → p.Safe srv (K c) c m.store)
    (hI : ∀ c, (K c).I m.store)
    (hspawn : ∀ p, a = .spawn p → p.Safe srv (K m.procs.length) m.procs.length m.store)
    (hC : ∀ c w, m.written a = some (some c, w) → (K c).C (some c) w m.store)
    (hrely : ∀ x ∈ m.written a, ∀ (d : Nat) (p : Process σ κ ω ρ), x.1 ≠ some d →
      m.procs[d]? = some p → p.result = none → (K d).R d m.store (srv.apply x.1 x.2 m.store))
    (hstep : m.step srv a = some m') (d : Nat) (q : Process σ κ ω ρ) (hq : m'.procs[d]? = some q) :
    q.Safe srv (K d) d m'.store := by
  cases a with
  | spawn p =>
    cases hstep
    rcases Nat.lt_trichotomy d m.procs.length with hlt | heq | hgt
    · exact h d q ((List.getElem?_append_left hlt).symm.trans hq)
    · subst heq
      rw [List.getElem?_concat_length] at hq
      cases hq
      exact hspawn p rfl
    · have hlen : (m.procs ++ [Process.running p]).length ≤ d := by
        rw [List.length_append]
        exact hgt
      rw [List.getElem?_eq_none hlen] at hq
      cases hq
  | write w =>
    cases hstep
    obtain ⟨p, hp, rfl⟩ := Option.map_eq_some_iff.1 (List.getElem?_map.symm.trans hq)
    exact (h d p hp).notice (hrely _ rfl d p nofun hp)
  | step c =>
    obtain ⟨⟨p', w⟩, hclient, rfl⟩ := Option.map_eq_some_iff.1 hstep
    obtain ⟨p, hget, hp⟩ := Option.bind_eq_some_iff.1 hclient
    have hset : ∀ d q, (m.procs.set c p')[d]? = some q →
        d = c ∧ q = p' ∨ d ≠ c ∧ m.procs[d]? = some q := by
      intro d q hq
      rw [List.getElem?_set] at hq
      by_cases hd : c = d
      · subst hd
        rw [if_pos rfl, if_pos (List.getElem?_eq_some_iff.1 hget).1] at hq
        exact .inl ⟨rfl, (Option.some.inj hq).symm⟩
      · rw [if_neg hd] at hq
        exact .inr ⟨Ne.symm hd, hq⟩
    cases w with
    | none =>
      rcases hset d q hq with ⟨rfl, rfl⟩ | ⟨-, hold⟩
      · exact (h d p hget).step_none (hI d) hp
      · exact h d q hold
    | some w =>
      have hwritten : m.written (.step c) = some (some c, w) := by rw [written, hclient]; rfl
      obtain ⟨q₀, hq₀, rfl⟩ := Option.map_eq_some_iff.1 (List.getElem?_map.symm.trans hq)
      rcases hset d q₀ hq₀ with ⟨rfl, rfl⟩ | ⟨hd, hold⟩
      · obtain ⟨prog, rfl⟩ := Process.step_writes hp
        exact ((h d p hget).step_some (hI d) hp (hC d w hwritten)).2
      · exact (h d q₀ hold).notice
          (hrely _ hwritten d q₀ (fun heq => hd (Option.some.inj heq).symm) hold)

/-- What a client writes keeps its contract. -/
theorem Machine.keeps_of_safe {K : Nat → Contract σ ω} {w : ω}
    (h : ∀ (c : Nat) (p : Process σ κ ω ρ), m.procs[c]? = some p → p.Safe srv (K c) c m.store)
    (hI : (K c).I m.store) (hwritten : m.written a = some (some c, w))
    (hC : (K c).C (some c) w m.store) : Keeps srv (K c) (some c) w m.store := by
  cases a with
  | spawn p | write w => cases hwritten
  | step d =>
    obtain ⟨w', hw, heq⟩ := Option.map_eq_some_iff.1 hwritten
    cases heq
    obtain ⟨⟨p', w'⟩, hclient, hsnd⟩ := Option.bind_eq_some_iff.1 hw
    cases (hsnd : w' = some w)
    obtain ⟨p, hget, hp⟩ := Option.bind_eq_some_iff.1 hclient
    exact ((h c p hget).step_some hI hp hC).1

/-- The writes of safe clients keep the contract. -/
theorem Machine.Steady.keeps (h : m.Steady srv K) (hadmits : m.Admits srv K a)
    (hC : m.Allows K a) : ∀ x ∈ m.written a, Keeps srv K x.1 x.2 m.store := by
  rintro ⟨c, w⟩ hx
  cases a with
  | spawn p => cases hx
  | write w' =>
    cases hx
    exact hadmits h.invariant (hC _ rfl)
  | step d =>
    obtain ⟨w', hw, heq⟩ := Option.map_eq_some_iff.1 hx
    cases heq
    exact keeps_of_safe (K := fun _ => K) h.safe h.invariant hx (hC _ hx)

theorem Machine.Steady.step (h : m.Steady srv K) (hadmits : m.Admits srv K a)
    (hC : m.Allows K a) (hstep : m.step srv a = some m') : m'.Steady srv K := by
  have hkeeps := h.keeps hadmits hC
  refine ⟨?_, each_safe_step (K := fun _ => K) h.safe (fun _ => h.invariant) ?_
    (fun c w hw => hC _ hw) (fun x hx d _ hd _ _ => (hkeeps x hx).rely d hd) hstep⟩
  · rw [store_of_step hstep]
    cases hw : m.written a with
    | none => exact h.invariant
    | some x => exact (hkeeps x hw).invariant
  · rintro p rfl
    exact hadmits

end Rule

end Optimistic
