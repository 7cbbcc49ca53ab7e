import Fleet.Settings.Machine
import Fleet.Simulation.Bridge

/-!
The command line. `openclaw-bridge` runs a bridge over standard input and output, with a runtime that
needs no command of its own.
-/

namespace Fleet.CommandLine

open Simulation (BridgeRun Plan)

/-- The variables that a bridge looks at, as far as they are set. -/
def bridgeVariables : IO (List (String × String)) := do
  let mut env := []
  for (key, _) in Settings.Bridge.rules do
    if let some value ← IO.getEnv key then
      env := env ++ [(key, value)]
  return env

/-- A bridge for settings; it runs no commands. -/
def bridge (s : Settings.Bridge) : Except Error (BridgeRun Unit) :=
  let run (name : String) (play : Bridge.TurnInput → Bridge.Play) : BridgeRun Unit :=
    { core := { runner := name, timeout := s.cpRequestTimeout }
      runner := fun i _ => (Plan.ofPlay 0 (play i), ())
      memory := () }
  match s.runner, s.sdkCommand with
  | .mock, _ => .ok (run "mock" .mock)
  | .sdk, none => .ok (run "fallback" fun i => .ofReply (Bridge.Sdk.fallback i.message))
  | .sdk, some _ => .error (.config "OPENCLAW_SDK_CMD is set, but no command can be run here")

/-- Writes what the bridge has said. -/
def flush (output : IO.FS.Stream) (b : BridgeRun Unit) : IO (BridgeRun Unit) := do
  for m in b.out do
    output.putStrLn (Json.print m.toJson)
  output.flush
  return { b with out := [] }

/-- Serves until the input ends or the bridge has stopped. -/
partial def serve (input output : IO.FS.Stream) (b : BridgeRun Unit) (now : Nat) : IO Unit := do
  if b.core.phase = .ended then return ()
  let bytes ← input.read 65536
  let later ← IO.monoMsNow
  let b := BridgeRun.works.advance (later - now) b
  if bytes.isEmpty then
    discard (flush output b.close)
  else
    serve input output (← flush output (b.feed bytes.toList)) later

def runBridge : IO UInt32 := do
  match (Settings.Bridge.ofEnv (← bridgeVariables)).bind bridge with
  | .error e =>
    IO.eprintln ("Error: " ++ e.message)
    return 1
  | .ok b =>
    serve (← IO.getStdin) (← IO.getStdout) b (← IO.monoMsNow)
    return 0

end Fleet.CommandLine

def main (args : List String) : IO UInt32 := do
  match args with
  | ["openclaw-bridge"] => Fleet.CommandLine.runBridge
  | _ =>
    IO.eprintln "usage: fleet openclaw-bridge"
    return 2
