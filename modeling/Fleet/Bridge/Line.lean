import Fleet.Event
import Fleet.Session.Command

/-!
The lines between a session and its bridge process: commands in, messages out, one JSON object with
a `type` on each line. A line is read as a value first, so of two equal names the later wins.
-/

namespace Fleet.Bridge

open Json (Form Reader)

/-- The part of a session's parameters that its bridge may see. -/
structure StartPayload where
  sessionId : String
  runtime : Runtime := .semigraph
  agentConfig : Json := .null
  mcpConfig : Json := .null
  skills : List String := []
  deriving DecidableEq, Repr, Inhabited

def StartPayload.ofSession (p : StartSession) : StartPayload :=
  ⟨p.sessionId, p.runtime, p.agentConfig, p.mcpConfig, p.skills⟩

inductive Command where
  | start (payload : StartPayload)
  | userMessage (message : String)
  | cancel
  | stop
  | cpResponse (id : String) (result : Option Json) (fault : Option Fault)
  deriving DecidableEq, Repr

inductive Message where
  | cpRequest (id method : String) (params : Json)
  | cpFireAndForget (method : String) (payload : Json)
  | reasoning (content : String)
  | assistantMessage (content : String)
  | toolStarted (toolCallId name : String) (input : Json)
  | toolFinished (toolCallId name : String) (output : Json) (isError : Bool)
  | done (cancelled : Bool)
  | error (fault : Fault)
  deriving DecidableEq, Repr

inductive LineError where
  /-- Nothing can be made of the line. -/
  | malformed (line reason : String)
  | unknownType (name : String)
  deriving DecidableEq, Repr

def LineError.message : LineError → String
  | .malformed line reason => s!"malformed bridge line ({reason}): {line}"
  | .unknownType name => s!"unknown bridge message type '{name}'"

def LineError.toError (e : LineError) : Error := .protocol e.message

namespace Command

def kind : Command → String
  | .start _ => "start"
  | .userMessage _ => "user_message"
  | .cancel => "cancel"
  | .stop => "stop"
  | .cpResponse .. => "cp_response"

def kinds : List String := ["start", "user_message", "cancel", "stop", "cp_response"]

def members : Command → List (String × Json)
  | .start p =>
    [("sessionId", .str p.sessionId), ("runtimeType", .str p.runtime.name),
      ("agentConfig", p.agentConfig), ("mcpConfig", p.mcpConfig),
      ("skills", .arr (p.skills.map Json.str))]
  | .userMessage message => [("message", .str message)]
  | .cancel | .stop => []
  | .cpResponse id result fault =>
    ("id", .str id) :: (member? "result" (fun v => v) result ++ member? "error" Fault.toJson fault)

def toJson (c : Command) : Json := Json.object (("type", .str c.kind) :: c.members)

def variant (name : String) {α : Type} (form : Form α) : Reader α :=
  form.reader ("struct variant BridgeCommand::" ++ name)

/-- A command without members takes no notice of any. -/
def bare (c : Command) : Reader Command := fun _ _ => .ok c

def choices : List (String × Reader Command) :=
  [("start",
      ((fun session runtime agent mcp skills => .start ⟨session, runtime, agent, mcp, skills⟩)
        <$> .required "sessionId" .text <*> .defaulted "runtimeType" Runtime.reader .semigraph
        <*> .defaulted "agentConfig" .any .null <*> .defaulted "mcpConfig" .any .null
        <*> .defaulted "skills" (.list .text) [] : Form Command).reader "struct StartPayload"),
    ("user_message", variant "UserMessage" (.userMessage <$> .required "message" .text)),
    ("cancel", bare .cancel),
    ("stop", bare .stop),
    ("cp_response", variant "CpResponse"
      (.cpResponse <$> .required "id" .text <*> .optional "result" .any
        <*> .optional "error" Fault.reader))]

def reader : Reader Command := .tagged "internally tagged enum BridgeCommand" "type" choices

end Command

namespace Message

def kind : Message → String
  | .cpRequest .. => "cp_request"
  | .cpFireAndForget .. => "cp_fire_and_forget"
  | .reasoning _ => "reasoning"
  | .assistantMessage _ => "assistant_message"
  | .toolStarted .. => "tool_started"
  | .toolFinished .. => "tool_finished"
  | .done _ => "done"
  | .error _ => "error"

def kinds : List String :=
  ["cp_request", "cp_fire_and_forget", "reasoning", "assistant_message", "tool_started",
    "tool_finished", "done", "error"]

def members : Message → List (String × Json)
  | .cpRequest id method params =>
    [("id", .str id), ("method", .str method), ("params", params)]
  | .cpFireAndForget method payload => [("method", .str method), ("payload", payload)]
  | .reasoning content | .assistantMessage content => [("content", .str content)]
  | .toolStarted id name input => [("toolCallId", .str id), ("name", .str name), ("input", input)]
  | .toolFinished id name output isError =>
    [("toolCallId", .str id), ("name", .str name), ("output", output), ("isError", .bool isError)]
  | .done cancelled => [("cancelled", .bool cancelled)]
  | .error f => [("code", .str f.code), ("message", .str f.message)]

def toJson (m : Message) : Json := Json.object (("type", .str m.kind) :: m.members)

def variant (name : String) {α : Type} (form : Form α) : Reader α :=
  form.reader ("struct variant BridgeMessage::" ++ name)

def choices : List (String × Reader Message) :=
  [("cp_request", variant "CpRequest"
      (.cpRequest <$> .required "id" .text <*> .required "method" .text
        <*> .defaulted "params" .any .null)),
    ("cp_fire_and_forget", variant "CpFireAndForget"
      (.cpFireAndForget <$> .required "method" .text <*> .defaulted "payload" .any .null)),
    ("reasoning", variant "Reasoning" (.reasoning <$> .required "content" .text)),
    ("assistant_message", variant "AssistantMessage"
      (.assistantMessage <$> .required "content" .text)),
    ("tool_started", variant "ToolStarted"
      (.toolStarted <$> .required "toolCallId" .text <*> .required "name" .text
        <*> .defaulted "input" .any .null)),
    ("tool_finished", variant "ToolFinished"
      (.toolFinished <$> .required "toolCallId" .text <*> .required "name" .text
        <*> .defaulted "output" .any .null <*> .defaulted "isError" .boolean false)),
    ("done", variant "Done" (.done <$> .defaulted "cancelled" .boolean false)),
    ("error", variant "Error"
      ((fun code message => .error ⟨code, message⟩) <$> .required "code" .text
        <*> .required "message" .text))]

def reader : Reader Message := .tagged "internally tagged enum BridgeMessage" "type" choices

/-- The event that a message of the runtime stands for. Calls to the control plane stand for none. -/
def event? : Message → Option Event
  | .reasoning content => some (.thinking content)
  | .assistantMessage content => some (.text content)
  | .toolStarted id name input => some (.toolCall id name input)
  | .toolFinished id name output isError => some (.toolResult id name output isError)
  | .done cancelled => some (.done cancelled)
  | .error f => some (.error f)
  | .cpRequest .. | .cpFireAndForget .. => none

end Message

/-- A bad line is quoted up to this many characters. -/
def quotedLength : Nat := 200

/-- Reads one line whose type is among the known ones. -/
def decode {α : Type} (kinds : List String) (r : Reader α) (line : String) : Except LineError α :=
  let malformed (reason : String) : LineError :=
    .malformed (String.ofList (line.toList.take quotedLength)) reason
  match Json.ofText? line with
  | none => .error (malformed Json.ReadError.malformed.message)
  | some v =>
    match (v.get? "type").bind Json.text? with
    | none => .error (malformed "missing type")
    | some kind =>
      if kinds.contains kind then (r.ofJson v).mapError fun e => malformed e.message
      else .error (.unknownType kind)

def Command.decode (line : String) : Except LineError Command :=
  Bridge.decode Command.kinds Command.reader line

def Message.decode (line : String) : Except LineError Message :=
  Bridge.decode Message.kinds Message.reader line

/-- The line of a command, its newline included. -/
def Command.line (c : Command) : String := Json.print c.toJson ++ "\n"

def Message.line (m : Message) : String := Json.print m.toJson ++ "\n"

end Fleet.Bridge
