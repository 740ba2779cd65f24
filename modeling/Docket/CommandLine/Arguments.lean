import Docket.CommandLine.Command

/-!
# Arguments

Arguments are options of the program, the name of a command, and what belongs to that command. A
value stands in an argument of its own, behind `=`, or behind a short option; in an argument of its
own it does not start with `-`. An option is checked when the next one on its side of the name
starts, or at the end; a request for help that comes before that wins.

* `Slot`, `Slot.Accepts`: what can be given a value, and the values it takes;
* `Verb`, `Level`: the names of commands, and what may stand on either side of one;
* `Level.scan`: the arguments up to a name;
* **`Invocation.ofArguments`**: the invocation that arguments and environment variables give. A
  variable counts where its option is not given.
-/

namespace Docket.CommandLine

/-- Why arguments give no invocation. -/
inductive Stop where
  | usage
  | help
  | version
deriving DecidableEq, Repr

/-- The line that names the program and its version. -/
def versionLine : String := "registrar 0.3.2"

/-- How the program ends where arguments give no invocation. -/
def Stop.exitCode : Stop → UInt32
  | .usage => 2
  | .help | .version => 0

/-! ## Values -/

/-- A path, which is not empty. -/
def readPath? (s : String) : Option String := if s.isEmpty then none else some s

/-- A whole number under `bound`, behind `+` or not. -/
def readNumber? (bound : Nat) (s : String) : Option Nat := do
  let n ← Decimal.read? (match s.toList with
    | '+' :: r => r
    | r => r)
  if n < bound then some n else none

/-- A number of attempts; zero may be negative. -/
def readAttempts? (s : String) : Option Nat :=
  match s.toList with
  | '-' :: r => (Decimal.read? r).bind fun n => if n = 0 then some 0 else none
  | _ => readNumber? UInt32.size s

/-- What can be given a value. -/
inductive Slot where
  | state
  | config
  | date
  | maxAttempts
  | baseDelayMs
  | attemptTimeoutMs
  | count
  | existing
  | batch
  | kind
deriving DecidableEq, Repr

namespace Slot

/-- The option's name. -/
def long : Slot → String
  | .state => "state"
  | .config => "config"
  | .date => "date"
  | .maxAttempts => "max-attempts"
  | .baseDelayMs => "base-delay-ms"
  | .attemptTimeoutMs => "attempt-timeout-ms"
  | .count => "count"
  | .existing => "existing"
  | .batch => "batch"
  | .kind => "kind"

/-- The option's letter. -/
def short? : Slot → Option Char
  | .count => some 'n'
  | _ => none

/-- The environment variable behind the option. -/
def variableName? : Slot → Option String
  | .state => some "REGISTRAR_STATE"
  | .config => some "REGISTRAR_CONFIG"
  | .date => some "REGISTRAR_DATE"
  | .maxAttempts => some "REGISTRAR_MAX_ATTEMPTS"
  | .baseDelayMs => some "REGISTRAR_BASE_DELAY_MS"
  | .attemptTimeoutMs => some "REGISTRAR_ATTEMPT_TIMEOUT_MS"
  | _ => none

/-- Whether the slot takes a value. -/
def Accepts (slot : Slot) (value : String) : Prop :=
  match slot with
  | .state | .config | .existing => (readPath? value).isSome
  | .date => (Date.read? value).isSome
  | .maxAttempts => (readAttempts? value).isSome
  | .kind => (CounterKind.ofName? value).isSome
  | _ => (readNumber? UInt64.size value).isSome

instance (slot : Slot) (value : String) : Decidable (slot.Accepts value) := by
  cases slot <;> unfold Accepts <;> infer_instance

end Slot

/-! ## Commands by name -/

/-- The commands by name. -/
inductive Verb where
  | preview
  | dryRun
  | roll
  | reserve
  | invoice
  | dailyInvoice
  | reset
deriving DecidableEq, Repr

namespace Verb

/-- All commands. -/
def all : List Verb := [.preview, .dryRun, .roll, .reserve, .invoice, .dailyInvoice, .reset]

/-- The command's name. -/
def name : Verb → String
  | .preview => "preview"
  | .dryRun => "dry-run"
  | .roll => "roll"
  | .reserve => "reserve"
  | .invoice => "invoice"
  | .dailyInvoice => "daily-invoice"
  | .reset => "reset"

/-- The command with a name. -/
def ofName? (s : String) : Option Verb := all.find? (·.name == s)

end Verb

/-- What may stand on one side of a command's name. -/
structure Level where
  options : List Slot := []
  /-- What a plain argument is a value of, if there may be one. -/
  plain : Option Slot := none
  /-- Whether a command, or a request for help with one or for the version, may follow. -/
  top : Bool := false

/-- What may stand before a command's name. -/
def Level.program : Level where
  options := [.state, .config, .date, .maxAttempts, .baseDelayMs, .attemptTimeoutMs]
  top := true

/-- What may stand behind a command's name. -/
def Verb.level : Verb → Level
  | .preview | .reserve => { options := [.count] }
  | .dryRun => { options := [.count, .existing] }
  | .invoice => { options := [.batch] }
  | .reset => { plain := some .kind }
  | .roll | .dailyInvoice => {}

/-! ## Scanning -/

/-- Values given so far, and the slot named last with the value it has got. -/
structure Found where
  values : List (Slot × String) := []
  latest : Option (Slot × Option String) := none
deriving DecidableEq, Repr

namespace Found

/-- The value of a slot. -/
def get? (f : Found) (slot : Slot) : Option String := f.values.lookup slot

/-- Gives a slot a value that it takes, unless it has one. -/
def put (f : Found) (slot : Slot) (value : String) : Except Stop Found :=
  if (f.get? slot).isSome ∨ ¬ slot.Accepts value then .error .usage
  else .ok { f with values := (slot, value) :: f.values }

/-- Gives the slot named last its value. -/
def settle (f : Found) : Except Stop Found :=
  match f.latest with
  | none => .ok f
  | some (slot, some value) => { f with latest := none }.put slot value
  | some (_, none) => .error .usage

/-- Names a slot, whose value may be known. -/
def name (f : Found) (slot : Slot) (value : Option String) : Except Stop Found :=
  f.settle.map ({ · with latest := some (slot, value) })

end Found

/-- An argument by its form. -/
inductive Form where
  /-- `--name` or `--name=value`. -/
  | long (name : String) (value : Option String)
  /-- `-x` or `-xvalue`; the value may start with `=`, which does not count. -/
  | short (letter : Char) (value : Option String)
  /-- `--`, behind which all is plain. -/
  | divider
  | plain
deriving DecidableEq, Repr

/-- The form of an argument. -/
def Form.of (arg : String) : Form :=
  match arg.toList with
  | ['-', '-'] => .divider
  | '-' :: '-' :: r =>
    let value := r.dropWhile (· ≠ '=')
    .long (String.ofList (r.takeWhile (· ≠ '=')))
      (if value.isEmpty then none else some (String.ofList value.tail))
  | ['-', c] => .short c none
  | '-' :: c :: '=' :: r => .short c (some (String.ofList r))
  | '-' :: c :: r => .short c (some (String.ofList r))
  | _ => .plain

namespace Level

/-- What a request to stop comes to once the slot named last has its value. -/
def stop (f : Found) (why : Stop) : Except Stop Found := f.settle.bind fun _ => .error why

/-- Names a slot; a value that stands in the same argument is given at once. -/
def option (f : Found) (slot : Slot) : Option String → Except Stop Found
  | none => f.name slot none
  | some value => (f.name slot (some value)).bind Found.settle

/-- A long option. -/
def long (l : Level) (f : Found) (name : String) (value : Option String) : Except Stop Found :=
  match l.options.find? (·.long == name) with
  | some slot => option f slot value
  | none =>
    if name = "help" ∧ value = none then stop f .help
    else if l.top ∧ name = "version" ∧ value = none then stop f .version
    else .error .usage

/-- A short option. -/
def short (l : Level) (f : Found) (letter : Char) (value : Option String) : Except Stop Found :=
  match l.options.find? (·.short? == some letter) with
  | some slot => option f slot value
  | none =>
    if letter = 'h' then stop f .help
    else if l.top ∧ letter = 'V' then stop f .version
    else .error .usage

/-- A plain argument that is no value of an option. -/
def plainArgument (l : Level) (f : Found) (arg : String) : Except Stop Found :=
  match l.plain with
  | some slot =>
    if (f.get? slot).isSome ∨ f.latest.any (·.1 == slot) then .error .usage
    else f.name slot (some arg)
  | none => .error .usage

/-- The arguments behind `--`. -/
def scanPlain (l : Level) : List String → Found → Except Stop Found
  | [], f => .ok f
  | arg :: rest, f => do l.scanPlain rest (← l.plainArgument f arg)

/-- Whether an argument names a command, or asks for help with one. -/
def isName (l : Level) (arg : String) : Bool :=
  l.top && (arg == "help" || (Verb.ofName? arg).isSome)

/-- The arguments up to the first name of a command, and that name with what follows it. -/
def scan (l : Level) : List String → Found → Except Stop (Found × Option (String × List String))
  | [], f => .ok (f, none)
  | arg :: rest, f =>
    match f.latest, Form.of arg with
    | some (slot, none), .plain => l.scan rest { f with latest := some (slot, some arg) }
    | some (_, none), _ => .error .usage
    | _, .long name value => do l.scan rest (← l.long f name value)
    | _, .short letter value => do l.scan rest (← l.short f letter value)
    | _, .divider => return (← l.scanPlain rest f, none)
    | _, .plain =>
      if l.isName arg then .ok (f, some (arg, rest))
      else do l.scan rest (← l.plainArgument f arg)

end Level

/-! ## Invocations -/

/-- The values behind a command's name. -/
def Verb.scan (v : Verb) (args : List String) : Except Stop Found := do
  let (f, _) ← v.level.scan args {}
  f.settle

/-- How many entries a forecast has where no number is given. -/
def defaultCount : Nat := 5

/-- The command with its values, if all that it needs are there. -/
def Verb.command? (v : Verb) (f : Found) : Option Command :=
  let count := (f.get? .count).bind (readNumber? UInt64.size)
  match v with
  | .preview => some (.preview (count.getD defaultCount))
  | .dryRun => some (.dryRun (count.getD defaultCount) (f.get? .existing))
  | .roll => some .roll
  | .reserve => count.map .reserve
  | .invoice => some (((f.get? .batch).bind (readNumber? UInt64.size)).elim .invoice .invoices)
  | .dailyInvoice => some .dailyInvoice
  | .reset => ((f.get? .kind).bind CounterKind.ofName?).map .reset

/-- What a request for help comes to: at most one name may follow. -/
def helpWith (args : List String) : Stop :=
  match args with
  | [] => .help
  | [name] => if Level.program.isName name then .help else .usage
  | _ => .usage

/-- Gives each slot without a value the value of its variable. -/
def Found.complete (f : Found) (environment : String → Option String) : Except Stop Found :=
  Level.program.options.foldlM (fun f slot =>
    match f.get? slot, slot.variableName?.bind environment with
    | none, some value => f.put slot value
    | _, _ => .ok f) f

/-- An invocation of a command with the options that have been found. -/
def Invocation.ofFound (f : Found) (command : Command) : Invocation where
  state := f.get? .state
  config := f.get? .config
  date := (f.get? .date).bind Date.read?
  maxAttempts := (f.get? .maxAttempts).bind readAttempts?
  baseDelayMs := (f.get? .baseDelayMs).bind (readNumber? UInt64.size)
  attemptTimeoutMs := (f.get? .attemptTimeoutMs).bind (readNumber? UInt64.size)
  command := command

/-- The invocation that arguments and environment variables give. -/
def Invocation.ofArguments (args : List String) (environment : String → Option String) :
    Except Stop Invocation := do
  let (f, rest) ← Level.program.scan args {}
  let some (name, args) := rest | throw .usage
  let some verb := Verb.ofName? name | throw (helpWith args)
  let some command := verb.command? (← verb.scan args) | throw .usage
  return .ofFound (← (← f.settle).complete environment) command

example : (Invocation.ofArguments ["--state=s", "preview", "-n3"] fun _ => none).toOption =
    some { state := some "s", command := .preview 3 } := by decide +kernel
example : Invocation.ofArguments ["--date", "roll", "--help"] (fun _ => none) = .error .usage := by
  cbv
example : Invocation.ofArguments ["--date", "x", "roll", "-h"] (fun _ => none) = .error .help := by
  cbv

end Docket.CommandLine
