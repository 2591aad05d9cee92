import RedisSmq.Data.Double

/-!
# The configuration and its stored form

The configuration is kept in one hash with the fields `version`, `data` and `epoch`. The
data is the JSON text of all fields but the version. An update event carries the same JSON,
but the event bus decodes it into untyped values, in which every number is a floating-point
number, before the subscriber reads it.

Texts are sequences of characters and of bytes that belong to no character; JSON replaces
the latter.
-/

namespace RedisSmq.Configuration

/-- A piece of a Go string. -/
inductive Rune where
  | char (c : Char)
  | stray (byte : UInt8)
  deriving DecidableEq, Repr

/-- What JSON makes of it. -/
def Rune.marshal : Rune → Rune
  | .char c => .char c
  | .stray _ => .char '�'

abbrev Text := List Rune

def Text.ofString (s : String) : Text := s.toList.map .char

/-- `AuditMessagesConfig` -/
structure AuditMessages where
  enabled : Bool
  queueSize : Int
  expire : Int
  deriving DecidableEq, Repr

/-- `AuditHistoryConfig` -/
structure AuditHistory where
  enabled : Bool
  maxSize : Int
  deriving DecidableEq, Repr

structure LoggerOptions where
  includeTimestamp : Bool
  colorize : Bool
  logLevel : Int
  deriving DecidableEq, Repr

structure Logger where
  enabled : Bool
  options : LoggerOptions
  deriving DecidableEq, Repr

structure MessageAudit where
  acknowledgedMessages : AuditMessages
  deadLetteredMessages : AuditMessages
  unacknowledgementHistory : AuditHistory
  deriving DecidableEq, Repr

/-- The fields of the configuration that are part of its JSON. -/
structure Settings where
  defaultNamespace : Text
  logger : Logger
  messageAudit : MessageAudit
  deriving DecidableEq, Repr

structure Config extends Settings where
  version : Int
  deriving DecidableEq, Repr

/-- `DefaultConfig` -/
def defaultSettings : Settings where
  defaultNamespace := Text.ofString "default"
  logger :=
    { enabled := false
      options := { includeTimestamp := true, colorize := true, logLevel := 1 } }
  messageAudit :=
    { acknowledgedMessages := { enabled := false, queueSize := 0, expire := 0 }
      deadLetteredMessages := { enabled := false, queueSize := 0, expire := 0 }
      unacknowledgementHistory := { enabled := false, maxSize := 100 } }

namespace Settings

/-- What is read back from the JSON of the settings. -/
def marshal (s : Settings) : Settings :=
  { s with defaultNamespace := s.defaultNamespace.map Rune.marshal }

/-- The settings with every number replaced. -/
def mapNumbers (f : Int → Option Int) (s : Settings) : Option Settings := do
  let logLevel ← f s.logger.options.logLevel
  let ackSize ← f s.messageAudit.acknowledgedMessages.queueSize
  let ackExpire ← f s.messageAudit.acknowledgedMessages.expire
  let deadSize ← f s.messageAudit.deadLetteredMessages.queueSize
  let deadExpire ← f s.messageAudit.deadLetteredMessages.expire
  let maxSize ← f s.messageAudit.unacknowledgementHistory.maxSize
  pure
    { s with
      logger := { s.logger with options := { s.logger.options with logLevel } }
      messageAudit :=
        { acknowledgedMessages :=
            { s.messageAudit.acknowledgedMessages with queueSize := ackSize, expire := ackExpire }
          deadLetteredMessages :=
            { s.messageAudit.deadLetteredMessages with queueSize := deadSize, expire := deadExpire }
          unacknowledgementHistory :=
            { s.messageAudit.unacknowledgementHistory with maxSize } } }

/-- The numbers of the settings. -/
def numbers (s : Settings) : List Int :=
  [s.logger.options.logLevel,
    s.messageAudit.acknowledgedMessages.queueSize, s.messageAudit.acknowledgedMessages.expire,
    s.messageAudit.deadLetteredMessages.queueSize, s.messageAudit.deadLetteredMessages.expire,
    s.messageAudit.unacknowledgementHistory.maxSize]

/-- The settings survive JSON and floating-point numbers: the namespace is made of
characters, and the numbers have at most 53 bits. -/
def Plain (s : Settings) : Prop :=
  (∀ r ∈ s.defaultNamespace, r.marshal = r) ∧ ∀ n ∈ s.numbers, n.natAbs < 2 ^ 53
  deriving Decidable

variable {s : Settings}

theorem Plain.marshal (h : s.Plain) : s.marshal = s := by
  have hname : s.defaultNamespace.map Rune.marshal = s.defaultNamespace :=
    (List.map_congr_left h.1).trans (List.map_id' _)
  unfold Settings.marshal
  rw [hname]

theorem Plain.mapNumbers {f : Int → Option Int} (h : s.Plain)
    (hf : ∀ n : Int, n.natAbs < 2 ^ 53 → f n = some n) : s.mapNumbers f = some s := by
  have hsome : ∀ n ∈ s.numbers, f n = some n := fun n hn => hf n (h.2 n hn)
  simp only [numbers, List.forall_mem_cons] at hsome
  obtain ⟨h1, h2, h3, h4, h5, h6, -⟩ := hsome
  simp [Settings.mapNumbers, h1, h2, h3, h4, h5, h6]

theorem defaultSettings_plain : defaultSettings.Plain := by decide

end Settings

/-- The content of the field `version`. A text that is not the usual numeral of an integer
is given by what Go's `Atoi` and what Lua's `tonumber` make of it; `HINCRBY` refuses it. A
number that is not whole is equal to no version, and stands here as no number. -/
inductive VersionText where
  | number (n : Int)
  | other (atoi tonumber : Option Int)
  deriving DecidableEq, Repr

namespace VersionText

def atoi : VersionText → Option Int
  | .number n => if -2 ^ 63 ≤ n ∧ n < 2 ^ 63 then some n else none
  | .other atoi _ => atoi

def tonumber : VersionText → Option Int
  | .number n => some (Double.round n)
  | .other _ tonumber => tonumber

/-- The number after `HINCRBY` by one. -/
def increment : VersionText → Option Int
  | .number n => if -2 ^ 63 ≤ n ∧ n + 1 < 2 ^ 63 then some (n + 1) else none
  | .other _ _ => none

end VersionText

/-- The content of the field `data`: the JSON text of settings, or anything else. -/
inductive DataText where
  | json (s : Settings)
  | broken
  deriving DecidableEq, Repr

/-- The hash of the configuration. An absent epoch and an empty one are the same to every
reader. -/
structure ConfigHash where
  version : Option VersionText := none
  data : Option DataText := none
  epoch : String := ""
  deriving DecidableEq, Repr

/-- What a call returns instead of a version. -/
inductive Failure where
  | notInitialized
  | versionMismatch
  /-- A command has aborted the script. -/
  | script
  deriving DecidableEq, Repr

namespace ConfigHash

def decode (h : ConfigHash) : Option Config :=
  match h.data with
  | some (.json s) =>
      match h.version with
      | none => some { s with version := 0 }
      | some v => v.atoi.map fun n => { s with version := n }
  | some .broken | none => none

/-- The script `save-config`. Its writes stay when `HINCRBY` fails. -/
def saveConfig (h : ConfigHash) (expected : Int) (s : Settings) :
    ConfigHash × Except Failure Int :=
  match h.version with
  | none =>
      ({ h with version := some (.number 1), data := some (.json s.marshal) }, .ok 1)
  | some v =>
      if v.tonumber = some (Double.round expected) then
        match v.increment with
        | some n => ({ h with version := some (.number n), data := some (.json s.marshal) }, .ok n)
        | none => ({ h with data := some (.json s.marshal) }, .error .script)
      else (h, .error .versionMismatch)

/-- The stored version; a hash without one is at zero. -/
def stored (h : ConfigHash) : Int :=
  match h.version with
  | some (.number n) => n
  | _ => 0

end ConfigHash

end RedisSmq.Configuration
