import Fleet.Bridge.Sdk
import Fleet.Settings.Machine

/-!
The near side of a bridge process. Commands are written to the process in order; each line that it
writes is an event of the session, a report, or a call whose answer is written back. When a process
ends that nobody stopped, the session is told.
-/

namespace Fleet.Bridge

/-- A call of the process that the control plane has not answered. -/
structure OpenCall where
  key : Nat
  id : String
  method : String
  params : Json
  deriving DecidableEq, Repr

structure Process where
  /-- All commands for the process so far, in order. -/
  commands : List Command := []
  /-- Whether its end was asked for. -/
  stopping : Bool := false
  killed : Bool := false
  calls : List OpenCall := []
  /-- How it ended, once that was seen. -/
  exit : Option Exit := none
  deriving DecidableEq, Repr

structure Link where
  session : String
  /-- By key, oldest first. -/
  processes : List Process := []
  /-- The key of the process that commands go to. -/
  current : Option Nat := none
  /-- How many calls there have been. -/
  calls : Nat := 0
  deriving DecidableEq, Repr

/-- The variables that a bridge process is given. -/
def environment (s : Settings.Bridge) (secrets : List (String × String)) :
    List (String × String) :=
  secrets ++ [("OPENCLAW_RUNNER", s.runner.name),
    ("OPENCLAW_SDK_TIMEOUT_MS", toString s.sdkTimeout),
    ("OPENCLAW_CP_TIMEOUT_MS", toString s.cpRequestTimeout)]
    ++ (s.sdkCommand.map fun c => ("OPENCLAW_SDK_CMD", c)).toList

namespace Link

def notRunning (l : Link) : Error :=
  .bridge ⟨Code.bridgeExited, s!"OpenClaw bridge for session {l.session} is not running"⟩

def change (l : Link) (key : Nat) (f : Process → Process) : Link :=
  { l with processes := l.processes.modify key f }

/-- The key of the process that runs, as far as is known. -/
def running? (l : Link) : Option Nat :=
  l.current.filter fun key => (l.processes[key]?).any fun p => p.exit.isNone

/-- Starts a process unless one runs, and gives it the session. -/
def start (l : Link) (p : StartSession) : Link :=
  if l.running?.isSome then l
  else
    { l with
      processes := l.processes ++ [{ commands := [.start (.ofSession p)] }]
      current := some l.processes.length }

def send (l : Link) (c : Command) : Except Error Link :=
  match l.running? with
  | some key => .ok (l.change key fun p => { p with commands := p.commands ++ [c] })
  | none => .error l.notRunning

/-- Asks the process to end, and gives it up; the key is that of the process to wait for. -/
def stop (l : Link) : Link × Option Nat :=
  match l.current with
  | none => (l, none)
  | some key =>
    let l := l.change key fun p => { p with stopping := true, commands := p.commands ++ [.stop] }
    ({ l with current := none }, some key)

/-- A link that is forgotten takes its process along. -/
def discard (l : Link) : Link :=
  match l.current with
  | none => l
  | some key =>
    { l.change key fun p => { p with stopping := true, killed := true } with current := none }

def hasExited (l : Link) (key : Nat) : Bool := (l.processes[key]?).all fun p => p.exit.isSome

/-- One line of a process's output. Blank and bad lines are passed over. -/
def readLine (l : Link) (key : Nat) (line : String) : Link × List Sent :=
  if Text.isAllBlank line then (l, [])
  else match Message.decode line with
    | .error _ => (l, [])
    | .ok (.cpRequest id method params) =>
      let call : OpenCall := ⟨l.calls, id, method, params⟩
      ({ l.change key fun p => { p with calls := p.calls ++ [call] } with calls := l.calls + 1 },
        [.call method params])
    | .ok (.cpFireAndForget method payload) => (l, [.report method payload])
    | .ok m => (l, (m.event?.map Sent.event).toList)

def response (id : String) : Except Error Json → Command
  | .ok v => .cpResponse id (some v) none
  | .error e => .cpResponse id none (some e.fault)

/-- The control plane has answered a call. -/
def answer (l : Link) (key call : Nat) (outcome : Except Error Json) : Link :=
  l.change key fun p =>
    match p.calls.find? fun c => c.key == call with
    | none => p
    | some c =>
      { p with
        calls := p.calls.filter fun d => d.key != call
        commands := p.commands ++ [response c.id outcome] }

/-- A process has ended. -/
def ended (l : Link) (key : Nat) (exit : Exit) : Link × List Sent :=
  let stopping := (l.processes[key]?).any Process.stopping
  let text := "OpenClaw bridge exited unexpectedly (" ++ exit.describe ++ ")"
  (l.change key fun p => { p with exit := some exit },
    if stopping then [] else [.event (.error ⟨Code.bridgeExited, text⟩)])

end Link

end Fleet.Bridge
