import Docket.Calendar.Zone.Reader
import Docket.CommandLine.Arguments
import Docket.CommandLine.EnvFile
import Docket.CommandLine.Visit
import Docket.Run.Words
import Std.Time

/-!
# The program

Reads arguments, variables and files, has the invocation carried out, writes the state it leaves,
and prints its answer. The program ends with 0, with 1 for an invocation that failed, and with 2 for
arguments that give none.
-/

namespace Docket.CommandLine

/-- What a path leads to. -/
def readingAt (path : String) : IO Reading := do
  try return .text (← IO.FS.readFile path)
  catch
    | .noFileOrDirectory .. => return .absent
    | _ => return .unreadable

/-- The nearest file of variables, in the current directory or one above it. -/
def envText : IO String := do
  let depth := (← IO.currentDir).components.length
  for up in [0:depth] do
    if let .text s ← readingAt (String.join (List.replicate up "../") ++ ".env") then return s
  return ""

/-- The variables that matter, along with those of the nearest file. -/
def environment : IO EnvFile.Variables := do
  let file ← envText
  let slots := Level.program.options.filterMap Slot.variableName?
  let known ← (EnvFile.names file ++ slots ++ ["TZ"]).filterMapM fun name => do
    return (← IO.getEnv name).map (name, ·)
  return EnvFile.load known file

/-- The local time zone. Where no variable gives it, it keeps the system's offset at a moment. -/
def localZone (vars : EnvFile.Variables) (moment : Int) : IO Zone := do
  match vars.lookup "TZ" with
  | some text => return Zone.ofText (some text)
  | none =>
    try
      let rules ← Std.Time.Database.defaultGetLocalZoneRules
      let stamp := Std.Time.Timestamp.ofSecondsSinceUnixEpoch (.ofInt moment)
      return .fixed (rules.timezoneAt stamp).offset.second.val
    catch _ => return .fixed 0

/-- What an invocation finds. -/
def surroundings (i : Invocation) (vars : EnvFile.Variables) : IO Surroundings := do
  let existing := match i.command with
    | .dryRun _ existing => existing
    | _ => none
  let files ← ([i.config, i.state, existing].filterMap id).mapM fun path => do
    return (path, ← readingAt path)
  let stamp ← Std.Time.Timestamp.now
  let second := stamp.toSecondsSinceUnixEpoch.val
  let nanos := (stamp.toNanosecondsSinceUnixEpoch.val % Span.perSecond).toNat
  let moment := match i.date with
    | some date => date.dayNumber * Time.perDay + Time.perDay / 2
    | none => second
  let zone ← localZone vars moment
  let seed := (← IO.getRandomBytes 8).foldl (fun n b => n * 256 + b.toUInt64) 0
  return {
    files := fun path => (files.lookup path).getD .absent
    now := ⟨second, nanos, zone.offsetAt second⟩
    noon := zone.noon?
    words := Words.ofSeed seed }

/-- Writes a state beside its path and then moves it there. -/
def save (path : String) (s : Snapshot) : IO (Except Failure Unit) := do
  try IO.FS.writeFile (stagingPath path) (stateText s)
  catch _ => return .error (.stateUnwritten path)
  try IO.FS.rename (stagingPath path) path
  catch _ => return .error (.stateUnreplaced path)
  return .ok ()

/-- Carries out an invocation; the answer is what it prints. -/
def carryOut (i : Invocation) (vars : EnvFile.Variables) : IO (Except Failure Json) := do
  match i.visit (← surroundings i vars) with
  | .error e => return .error e
  | .ok v =>
    match v.saved with
    | none => return .ok v.output
    | some (path, s) => return (← save path s).map fun _ => v.output

/-- How the program is called. -/
def helpText : String :=
  String.intercalate "\n"
    (["Usage: registrar [OPTIONS] <COMMAND>", "", "Commands:"] ++
      Verb.all.map (fun v => "  " ++ v.name) ++ ["", "Options:"] ++
      Level.program.options.map (fun slot => "  --" ++ slot.long) ++
      ["  --help", "  --version"])

end Docket.CommandLine

open Docket.CommandLine in
/-- Runs the program. -/
def main (args : List String) : IO UInt32 := do
  let vars ← environment
  match Invocation.ofArguments args fun name => vars.lookup name with
  | .error stop =>
    match stop with
    | .help => IO.println helpText
    | .version => IO.println versionLine
    | .usage => IO.eprintln "error: see --help for how to call the program"
    return stop.exitCode
  | .ok i =>
    match ← carryOut i vars with
    | .ok output => IO.println output.pretty; return 0
    | .error e =>
      IO.eprintln ("Error: " ++ e.message)
      if let some cause := e.cause? then
        if cause.message ≠ e.message then IO.eprintln ("Caused by: " ++ cause.message)
      return 1
