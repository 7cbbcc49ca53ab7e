import Fleet.Bridge.Core
import Fleet.Text.Utf8

/-!
A runtime behind a command: it is given a request in JSON on its input, and its output is a reply in
JSON or plain text.
-/

namespace Fleet.Bridge

open Json (Form Reader)

structure ToolUse where
  id : Option String
  name : String
  input : Json
  output : Json
  isError : Bool
  deriving DecidableEq, Repr

structure SdkReply where
  reasoning : Option String := none
  content : String
  tools : List ToolUse := []
  deriving DecidableEq, Repr

/-- How a process ended. -/
inductive Exit where
  | code (n : Nat)
  | signal (n : Nat)
  deriving DecidableEq, Repr

/-- What running the command came to. -/
inductive CommandResult where
  | timedOut
  | ended (exit : Exit) (output errors : List UInt8)
  deriving DecidableEq, Repr

namespace TurnInput

def toJson (i : TurnInput) : Json :=
  Json.object [("sessionId", .str i.sessionId), ("message", .str i.message),
    ("history", .arr (i.history.map ChatMessage.toJson)),
    ("memory", .arr (i.memory.map Json.str)), ("skills", .arr i.skills),
    ("agentConfig", i.agentConfig)]

end TurnInput

namespace ToolUse

def toJson (t : ToolUse) : Json :=
  Json.object [("id", Json.ofOption (t.id.map Json.str)), ("name", .str t.name),
    ("input", t.input), ("output", t.output), ("isError", .bool t.isError)]

def form : Form ToolUse :=
  ToolUse.mk <$> .optional "id" .text <*> .required "name" .text
    <*> .defaulted "input" .any .null <*> .defaulted "output" .any .null
    <*> .defaulted "isError" .boolean false

def reader : Reader ToolUse := form.reader "struct SdkToolCall"

end ToolUse

namespace SdkReply

def toJson (r : SdkReply) : Json :=
  Json.object [("reasoning", Json.ofOption (r.reasoning.map Json.str)),
    ("content", .str r.content), ("toolCalls", .arr (r.tools.map ToolUse.toJson))]

def form : Form SdkReply :=
  SdkReply.mk <$> .optional "reasoning" .text <*> .defaultedAs "content" ["text"] .text ""
    <*> .defaulted "toolCalls" (.list ToolUse.reader) []

def reader : Reader SdkReply := form.reader "struct SdkResponse"

end SdkReply

namespace Exit

/-- The names of signals from number 1 on. -/
def signalNames : List String := ["SIGHUP", "SIGINT", "SIGQUIT", "SIGILL", "SIGTRAP", "SIGABRT",
  "SIGBUS", "SIGFPE", "SIGKILL", "SIGUSR1", "SIGSEGV", "SIGUSR2", "SIGPIPE", "SIGALRM", "SIGTERM",
  "SIGSTKFLT", "SIGCHLD", "SIGCONT", "SIGSTOP", "SIGTSTP", "SIGTTIN", "SIGTTOU", "SIGURG",
  "SIGXCPU", "SIGXFSZ", "SIGVTALRM", "SIGPROF", "SIGWINCH", "SIGIO", "SIGPWR", "SIGSYS"]

def describe : Exit → String
  | code n => s!"exit status: {n}"
  | signal n =>
    match if n = 0 then none else signalNames[n - 1]? with
    | some name => s!"signal: {n} ({name})"
    | none => s!"signal: {n}"

end Exit

namespace Sdk

/-- How much of a failed command's complaint is told. -/
def excerptLength : Nat := 500

def invalid (text : String) : Error := .bridge ⟨Code.outputInvalid, text⟩

/-- The reply in the output of a command: an object is read, any other text is the content. -/
def parse (output : List UInt8) : Except Error SdkReply :=
  match Text.decode? output with
  | none => .error (invalid "SDK output is not UTF-8")
  | some raw =>
    let text := Text.trim raw
    match text.toList with
    | [] => .error (invalid "SDK produced no output")
    | '{' :: _ =>
      (SdkReply.reader.ofText text).mapError fun e =>
        invalid ("SDK output is not a valid reply: " ++ e.message)
    | _ => .ok { content := text }

def excerpt (errors : List UInt8) : String :=
  String.ofList ((Text.trim (Text.decodeLossy errors)).toList.take excerptLength)

/-- The reply of a command that had so many milliseconds. -/
def reply (timeoutMs : Nat) : CommandResult → Except Error SdkReply
  | .timedOut =>
    .error (.bridge ⟨Code.commandTimeout, s!"SDK command timed out after {timeoutMs}ms"⟩)
  | .ended (.code 0) output _ => parse output
  | .ended exit _ errors =>
    .error (.bridge
      ⟨Code.commandFailed, "SDK command exited with " ++ exit.describe ++ ": " ++ excerpt errors⟩)

/-- The answer when no command is set. -/
def fallback (message : String) : SdkReply where
  reasoning := some "No OpenClaw SDK configured; answering locally"
  content := "OpenClaw is not configured on this execution plane. You said: " ++ message

end Sdk

end Fleet.Bridge
