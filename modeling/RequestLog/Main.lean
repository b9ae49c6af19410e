import RequestLog.Program
import Std.Time.DateTime.Timestamp

/-!
# The command line

Runs the program on what the machine has: its arguments, the variables of its
environment, its files and its clock. What the program does with them is settled
elsewhere; here they are only fetched.

No engine and no server is at hand here, so prices and conditions can be asked for,
and a metric ends with the store that cannot be opened.
-/

namespace RequestLog.Machine

def reasoned {α : Type} (act : IO α) : IO (Except String α) := do
  match ← act.toBaseIO with
  | .ok a => return .ok a
  | .error e => return .error (toString e)

/-- A file is there unless the machine says that it is not. -/
def files : Files IO where
  exists? path := do
    match ← (IO.FS.readBinFile path).toBaseIO with
    | .error (.noFileOrDirectory ..) => return false
    | _ => return true
  read path := reasoned (IO.FS.readFile path)
  makeFolder path := reasoned (IO.FS.createDirAll path)

/-- What takes too long is let finish, and its result is not used. -/
def clock : Clock IO where
  now := do
    let t ← Std.Time.Timestamp.now
    return ⟨t.toSecondsSinceUnixEpoch.val, (t.val.nano.val).toNat⟩
  within limit act := do
    let start ← IO.monoMsNow
    let result ← act
    let finish ← IO.monoMsNow
    return if limit < finish - start then none else some result

def unreachable : String := "nothing answers here"

def surroundings : Surroundings IO where
  files := files
  clock := clock
  sqlite := { openFile := fun _ => throw (.io unreachable) }
  postgres := { connect := fun _ => throw (.io unreachable) }
  duckdb := { openFile := fun _ => throw unreachable }
  clickhouse := { send := fun _ => throw (.network unreachable) }

def variableNames : List String :=
  Config.dataVariable ::
    (CommandLine.settings ++ [CommandLine.orgOption]).filterMap (·.envName?)

def environment : IO Config.Variables :=
  variableNames.filterMapM fun name => do
    return (← IO.getEnv name).map (name, ·)

def run (args : List String) : IO Outcome := do
  let home := (← IO.getEnv "HOME").getD "/"
  let current := (← IO.currentDir).toString
  Program.run surroundings home current (← environment) args

end RequestLog.Machine

def main (args : List String) : IO UInt32 := do
  let outcome ← RequestLog.Machine.run args
  IO.print outcome.output
  if let some message := outcome.message then
    IO.eprintln s!"Error: {message}"
  return outcome.status.toUInt32
