import Mathlib.Logic.Function.Basic
import RedisSmq.Configuration.Settings
import RedisSmq.Data.Run

/-!
# The configuration managers

Any number of managers share the configuration hash. A call holds the mutex of its manager
from its first to its last command, but the commands of calls on different managers may be
interleaved in any way. So a call is cut at its commands: what it has still to do is the
`Phase` of its manager, and while there is something to do, the manager starts nothing else
and handles no event.

A published event may reach every manager, at any time, any number of times or never. The
reload that a foreign epoch starts in the background is a reload like any other.
-/

namespace RedisSmq.Configuration

abbrev ManagerId := Nat

/-- What a call has still to do before it releases the mutex. -/
inductive Phase where
  | idle
  /-- `createDefaultsLocked` is about to run the script. -/
  | creating
  /-- The epoch is to be written, and then the configuration becomes the current one; a
  save also publishes it. -/
  | writingEpoch (c : Config) (publish : Bool)
  deriving DecidableEq, Repr

/-- `Manager`, with `current` for its field `instance`. -/
structure Manager where
  current : Option Config := none
  epoch : String := ""
  phase : Phase := .idle
  deriving DecidableEq, Repr

/-- The arguments of `configuration.updated`. -/
structure UpdatedPayload where
  settings : Settings
  version : Int
  epoch : String
  deriving DecidableEq, Repr

/-- The arguments as the subscriber decodes them. It drops an event with a number that is
out of range. -/
def UpdatedPayload.received (p : UpdatedPayload) : Option UpdatedPayload := do
  let settings ← p.settings.marshal.mapNumbers Double.reread
  let version ← Double.reread p.version
  pure { p with settings, version }

/-- The error of a call, or the version that it leaves the manager with. -/
abbrev Reply := Except Failure Int

/-- Calls carry the epoch that they would draw. -/
inductive Action where
  | init (i : ManagerId) (fresh : String)
  | reload (i : ManagerId) (fresh : String)
  | save (i : ManagerId) (c : Config) (fresh : String)
  | reset (i : ManagerId) (fresh : String)
  /-- The call in progress makes its next command. -/
  | proceed (i : ManagerId)
  | deliver (i : ManagerId) (p : UpdatedPayload)

structure World where
  hash : ConfigHash
  managers : ManagerId → Manager
  published : List UpdatedPayload

namespace World

variable (w : World)

/-- No manager is initialised, and no event was published. -/
def start (h : ConfigHash) : World := ⟨h, fun _ => {}, []⟩

def set (i : ManagerId) (m : Manager) : World :=
  { w with managers := Function.update w.managers i m }

/-- `setCurrentConfigLocked` -/
def setCurrent (i : ManagerId) (c : Config) : World :=
  w.set i { w.managers i with current := some c, phase := .idle }

/-- The first command of `loadOrCreateLocked`. -/
def load (i : ManagerId) (fresh : String) : World × Option Reply :=
  let m := w.managers i
  match w.hash.decode with
  | some c =>
      if w.hash.epoch = "" then
        (w.set i { m with epoch := fresh, phase := .writingEpoch c false }, none)
      else
        ((w.set i { m with epoch := w.hash.epoch }).setCurrent i c, some (.ok c.version))
  | none => (w.set i { m with epoch := fresh, phase := .creating }, none)

/-- The script, run by a manager that will then write the epoch. -/
def runScript (i : ManagerId) (epoch : String) (expected : Int) (s : Settings) (publish : Bool) :
    World × Option Reply :=
  let m := { w.managers i with epoch }
  match w.hash.saveConfig expected s with
  | (hash, .ok version) =>
      ({ w with hash }.set i { m with phase := .writingEpoch { s with version } publish }, none)
  | (hash, .error e) => ({ w with hash }.set i { m with phase := .idle }, some (.error e))

/-- The first command of `persistAndPublishLocked`. -/
def persist (i : ManagerId) (current : Config) (s : Settings) (fresh : String) :
    World × Option Reply :=
  let m := w.managers i
  w.runScript i (if m.epoch = "" then fresh else m.epoch) current.version s true

/-- The last command of a call, and what follows it. -/
def writeEpoch (i : ManagerId) (c : Config) (publish : Bool) : World × Option Reply :=
  let m := w.managers i
  let payload : UpdatedPayload := ⟨c.toSettings, c.version, m.epoch⟩
  ({ w with
      hash := { w.hash with epoch := m.epoch }
      published := if publish then payload :: w.published else w.published }.setCurrent i c,
    some (.ok c.version))

/-- The handler of `configuration.updated`. -/
def handle (i : ManagerId) (p : UpdatedPayload) : World :=
  let m := w.managers i
  match m.current, p.received with
  | some c, some p =>
      if p.epoch ≠ m.epoch then w
      else if c.version < p.version then w.setCurrent i { p.settings with version := p.version }
      else w
  | _, _ => w

/-- An action, with the reply of the call that it ends. -/
def act : Action → Option (World × Option Reply)
  | .init i fresh =>
      match (w.managers i).phase, (w.managers i).current with
      | .idle, none => some (w.load i fresh)
      | .idle, some c => some (w, some (.ok c.version))
      | _, _ => none
  | .reload i fresh =>
      match (w.managers i).phase, (w.managers i).current with
      | .idle, some _ => some (w.load i fresh)
      | .idle, none => some (w, some (.error .notInitialized))
      | _, _ => none
  | .save i c fresh =>
      match (w.managers i).phase, (w.managers i).current with
      | .idle, some current => some (w.persist i current c.toSettings fresh)
      | .idle, none => some (w, some (.error .notInitialized))
      | _, _ => none
  | .reset i fresh =>
      match (w.managers i).phase, (w.managers i).current with
      | .idle, some current => some (w.persist i current defaultSettings fresh)
      | .idle, none => some (w, some (.error .notInitialized))
      | _, _ => none
  | .proceed i =>
      match (w.managers i).phase with
      | .idle => none
      | .creating => some (w.runScript i (w.managers i).epoch 0 defaultSettings false)
      | .writingEpoch c publish => some (w.writeEpoch i c publish)
  | .deliver i p =>
      if (w.managers i).phase = .idle ∧ p ∈ w.published then some (w.handle i p, none) else none

def step (a : Action) : Option World := (w.act a).map Prod.fst

/-- The run leads from one state to the other. -/
def Runs (as : List Action) (w' : World) : Prop := Run.exec step w as = some w'

/-- The script call that an action makes: the expected version and the settings. -/
def call : Action → Option (Int × Settings)
  | .save i c _ =>
      if (w.managers i).phase = .idle then
        (w.managers i).current.map fun current => (current.version, c.toSettings)
      else none
  | .reset i _ =>
      if (w.managers i).phase = .idle then
        (w.managers i).current.map fun current => (current.version, defaultSettings)
      else none
  | .proceed i => if (w.managers i).phase = .creating then some (0, defaultSettings) else none
  | .init _ _ | .reload _ _ | .deliver _ _ => none

/-- What a successful script call writes, with its version. -/
def saves (a : Action) : List Config :=
  match w.call a with
  | some (expected, s) =>
      match (w.hash.saveConfig expected s).2 with
      | .ok version => [{ s with version }]
      | .error _ => []
  | none => []

/-- The manager has the configuration, or will have it when its call ends. -/
def Holds (i : ManagerId) (c : Config) : Prop :=
  (w.managers i).current = some c ∨ ∃ publish, (w.managers i).phase = .writingEpoch c publish

variable {w}

@[simp] theorem set_self (i : ManagerId) (m : Manager) : (w.set i m).managers i = m := by
  simp [set]

theorem set_of_ne {i j : ManagerId} (h : j ≠ i) (m : Manager) :
    (w.set i m).managers j = w.managers j := by
  simp [set, h]

@[simp] theorem set_set (i : ManagerId) (m m' : Manager) : (w.set i m).set i m' = w.set i m' := by
  simp [set]

end World

/-- What a step does. A script call is named by `World.call`; the other steps make none. -/
inductive Change (w : World) (a : Action) : World → Prop
  | same (hcall : w.call a = none) : Change w a w
  | loaded {i : ManagerId} {c : Config} (hcall : w.call a = none)
      (hdecode : w.hash.decode = some c) (hphase : (w.managers i).phase = .idle) :
      Change w a
        (w.set i { w.managers i with epoch := w.hash.epoch, current := some c, phase := .idle })
  /-- A valid hash has no epoch yet. -/
  | unmarked {i : ManagerId} {c : Config} {fresh : String} (hcall : w.call a = none)
      (hdecode : w.hash.decode = some c) (hphase : (w.managers i).phase = .idle) :
      Change w a
        (w.set i { w.managers i with epoch := fresh, phase := .writingEpoch c false })
  | unreadable {i : ManagerId} {fresh : String} (hcall : w.call a = none)
      (hdecode : w.hash.decode = none) (hphase : (w.managers i).phase = .idle) :
      Change w a (w.set i { w.managers i with epoch := fresh, phase := .creating })
  | saved {i : ManagerId} {expected version : Int} {s : Settings} {hash : ConfigHash}
      {epoch : String} {publish : Bool} (hcall : w.call a = some (expected, s))
      (hsave : w.hash.saveConfig expected s = (hash, .ok version)) :
      Change w a
        ({ w with hash }.set i
          { w.managers i with epoch, phase := .writingEpoch { s with version } publish })
  | refused {i : ManagerId} {expected : Int} {s : Settings} {hash : ConfigHash}
      {epoch : String} {e : Failure} (hcall : w.call a = some (expected, s))
      (hsave : w.hash.saveConfig expected s = (hash, .error e)) :
      Change w a ({ w with hash }.set i { w.managers i with epoch, phase := .idle })
  | wrote {i : ManagerId} {c : Config} {publish : Bool} (hcall : w.call a = none)
      (hphase : (w.managers i).phase = .writingEpoch c publish) :
      Change w a (w.writeEpoch i c publish).1
  | updated {i : ManagerId} {c : Config} {p q : UpdatedPayload} (hcall : w.call a = none)
      (hphase : (w.managers i).phase = .idle) (hcurrent : (w.managers i).current = some c)
      (hp : p ∈ w.published) (hq : p.received = some q) (hlt : c.version < q.version) :
      Change w a (w.setCurrent i { q.settings with version := q.version })

namespace Change

variable {w w' : World} {a : Action} {i : ManagerId} {r : Option Reply}

theorem of_load {fresh : String} (hcall : w.call a = none)
    (hphase : (w.managers i).phase = .idle) : Change w a (w.load i fresh).1 := by
  unfold World.load
  cases hdecode : w.hash.decode with
  | none => exact .unreadable hcall hdecode hphase
  | some c =>
    dsimp only
    split
    · exact .unmarked hcall hdecode hphase
    · rw [World.setCurrent, World.set_set, World.set_self]
      exact .loaded hcall hdecode hphase

theorem of_runScript {epoch : String} {expected : Int} {s : Settings} {publish : Bool}
    (hcall : w.call a = some (expected, s)) :
    Change w a (w.runScript i epoch expected s publish).1 := by
  unfold World.runScript
  rcases hsave : w.hash.saveConfig expected s with ⟨hash, e | version⟩
  · exact .refused hcall hsave
  · exact .saved hcall hsave

theorem of_handle {p : UpdatedPayload} (hcall : w.call a = none)
    (hphase : (w.managers i).phase = .idle) (hp : p ∈ w.published) : Change w a (w.handle i p) := by
  simp only [World.handle]
  split
  case h_1 c q hcurrent hq =>
    split
    · exact .same hcall
    split
    case isTrue hlt => exact .updated hcall hphase hcurrent hp hq hlt
    case isFalse => exact .same hcall
  case h_2 => exact .same hcall

/-- Every step is one of these changes. -/
theorem of_step (h : w.step a = some w') : Change w a w' := by
  obtain ⟨x, hact, rfl⟩ := Option.map_eq_some_iff.1 h
  cases a with
  | init | reload =>
    simp only [World.act] at hact
    split at hact <;> cases hact
    · exact of_load rfl ‹_›
    · exact .same rfl
  | save | reset =>
    simp only [World.act] at hact
    split at hact <;> cases hact
    case h_1.refl current hphase hcurrent =>
      exact of_runScript (by simp [World.call, hphase, hcurrent])
    case h_2.refl hphase hcurrent =>
      exact .same (by simp [World.call, hcurrent])
  | proceed i =>
    simp only [World.act] at hact
    split at hact <;> cases hact
    case h_2.refl hphase =>
      exact of_runScript (by simp [World.call, hphase])
    case h_3.refl c publish hphase =>
      exact .wrote (by simp [World.call, hphase]) hphase
  | deliver i p =>
    simp only [World.act] at hact
    split at hact
    case isTrue hguard =>
      cases hact
      exact of_handle rfl hguard.1 hguard.2
    case isFalse => cases hact

end Change

end RedisSmq.Configuration
