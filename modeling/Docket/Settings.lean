import Docket.Error
import Docket.Json.Basic

/-!
# Settings

* `RetrySettings`, `RollSettings`, `InvoiceSettings`, `DailySettings`, `Settings`: the sections and
  their defaults;
* `RetrySettings.baseDelay`, `RetrySettings.attemptTimeout`, `RetrySettings.backoff`: the spans they
  give; the pause after attempt `a` is `a` times the base delay;
* `Settings.validate`: the first setting that cannot be used;
* `Settings.toJson`, `Settings.ofJson?`: the JSON form, every part of which may be left out.
-/

namespace Docket

/-- How often and how patiently to try. -/
structure RetrySettings where
  maxAttempts : Nat := 3
  baseDelayMs : Nat := 100
  attemptTimeoutMs : Nat := 5000
deriving DecidableEq, Repr

/-- Roll numbers. -/
structure RollSettings where
  maxSequence : UInt64 := 99
  field : String := "registration_no"
deriving DecidableEq, Repr

/-- Monthly invoice IDs. -/
structure InvoiceSettings where
  counterName : String := "invoice"
  paddingWidth : Nat := 3
  randomChars : Nat := 3
  field : String := "invoiceId"
deriving DecidableEq, Repr

/-- Daily invoice IDs. -/
structure DailySettings where
  family : String := "daily-invoice"
  paddingWidth : Nat := 4
  field : String := "invoiceId"
deriving DecidableEq, Repr

/-- All settings. -/
structure Settings where
  retry : RetrySettings := {}
  roll : RollSettings := {}
  invoice : InvoiceSettings := {}
  daily : DailySettings := {}
deriving DecidableEq, Repr

namespace RetrySettings

/-- The pause after the first attempt. -/
def baseDelay (r : RetrySettings) : Span := .ofMillis r.baseDelayMs

/-- How long an attempt may take. -/
def attemptTimeout (r : RetrySettings) : Span := .ofMillis r.attemptTimeoutMs

/-- The pause after an attempt. -/
def backoff (r : RetrySettings) (attempt : Nat) : Span := r.baseDelay.times attempt

end RetrySettings

/-! ## Checking -/

namespace Settings

/-- Whether a width is one that sequences are padded to. -/
def paddingOk (width : Nat) : Bool := 1 ≤ width && width ≤ 20

/-- Whether a counter name is nonempty and free of `:`. -/
def nameOk (name : String) : Bool := !name.isEmpty && !name.contains ':'

/-- The rules in the order in which they are checked, each with what it refuses. -/
def rules (s : Settings) : List (Bool × Refusal) :=
  [(1 ≤ s.retry.maxAttempts, .noAttempts),
   (1 ≤ s.roll.maxSequence && s.roll.maxSequence ≤ 99, .rollMaxSequence),
   (paddingOk s.invoice.paddingWidth, .invoicePadding),
   (paddingOk s.daily.paddingWidth, .dailyPadding),
   (s.invoice.randomChars ≤ 16, .randomChars),
   (nameOk s.invoice.counterName, .counterName),
   (nameOk s.daily.family, .dailyNamespace),
   (!s.roll.field.isEmpty, .emptyField "roll.field"),
   (!s.invoice.field.isEmpty, .emptyField "invoice.field"),
   (!s.daily.field.isEmpty, .emptyField "daily_invoice.field")]

/-- The first rule that is broken, if any. -/
def validate (s : Settings) : Except Error Unit :=
  match s.rules.find? (!·.1) with
  | some (_, why) => .error (.invalid why)
  | none => .ok ()

end Settings

/-! ## JSON form -/

/-- The section as an object. -/
def RetrySettings.toJson (r : RetrySettings) : Json :=
  .obj [("max_attempts", .nat r.maxAttempts), ("base_delay_ms", .nat r.baseDelayMs),
    ("attempt_timeout_ms", .nat r.attemptTimeoutMs)]

@[inherit_doc RetrySettings.toJson]
def RollSettings.toJson (r : RollSettings) : Json :=
  .obj [("max_sequence", .nat r.maxSequence.toNat), ("field", .str r.field)]

@[inherit_doc RetrySettings.toJson]
def InvoiceSettings.toJson (i : InvoiceSettings) : Json :=
  .obj [("counter_name", .str i.counterName), ("padding_width", .nat i.paddingWidth),
    ("random_chars", .nat i.randomChars), ("field", .str i.field)]

@[inherit_doc RetrySettings.toJson]
def DailySettings.toJson (d : DailySettings) : Json :=
  .obj [("namespace", .str d.family), ("padding_width", .nat d.paddingWidth),
    ("field", .str d.field)]

/-- The sections as an object. -/
def Settings.toJson (s : Settings) : Json :=
  .obj [("retry", s.retry.toJson), ("roll", s.roll.toJson), ("invoice", s.invoice.toJson),
    ("daily_invoice", s.daily.toJson)]

/-- Reads a whole number under `bound`, or takes the default of a missing field. -/
def natField (field : Option Json) (bound default : Nat) : Option Nat :=
  Json.fieldOr field (·.natBelow? bound) default

/-- Reads a string, or takes the default of a missing field. -/
def strField (field : Option Json) (default : String) : Option String :=
  Json.fieldOr field (·.str?) default

/-- Reads the section; missing fields keep their defaults. -/
def RetrySettings.ofJson? (j : Json) : Option RetrySettings := do
  let d : RetrySettings := {}
  let [attempts, delay, timeout] ←
    j.fields? ["max_attempts", "base_delay_ms", "attempt_timeout_ms"] | none
  return ⟨← natField attempts UInt32.size d.maxAttempts, ← natField delay UInt64.size d.baseDelayMs,
    ← natField timeout UInt64.size d.attemptTimeoutMs⟩

@[inherit_doc RetrySettings.ofJson?]
def RollSettings.ofJson? (j : Json) : Option RollSettings := do
  let d : RollSettings := {}
  let [top, field] ← j.fields? ["max_sequence", "field"] | none
  return ⟨← Json.fieldOr top (·.word?) d.maxSequence, ← strField field d.field⟩

@[inherit_doc RetrySettings.ofJson?]
def InvoiceSettings.ofJson? (j : Json) : Option InvoiceSettings := do
  let d : InvoiceSettings := {}
  let [name, width, chars, field] ←
    j.fields? ["counter_name", "padding_width", "random_chars", "field"] | none
  return ⟨← strField name d.counterName, ← natField width UInt64.size d.paddingWidth,
    ← natField chars UInt64.size d.randomChars, ← strField field d.field⟩

@[inherit_doc RetrySettings.ofJson?]
def DailySettings.ofJson? (j : Json) : Option DailySettings := do
  let d : DailySettings := {}
  let [family, width, field] ← j.fields? ["namespace", "padding_width", "field"] | none
  return ⟨← strField family d.family, ← natField width UInt64.size d.paddingWidth,
    ← strField field d.field⟩

/-- Reads settings; missing sections and fields keep their defaults. -/
def Settings.ofJson? (j : Json) : Option Settings := do
  let [retry, roll, invoice, daily] ←
    j.fields? ["retry", "roll", "invoice", "daily_invoice"] | none
  return ⟨← Json.fieldOr retry RetrySettings.ofJson? {},
    ← Json.fieldOr roll RollSettings.ofJson? {},
    ← Json.fieldOr invoice InvoiceSettings.ofJson? {},
    ← Json.fieldOr daily DailySettings.ofJson? {}⟩

end Docket
