import Fleet.Frame.Text

/-!
What a session's runtime tells about a run as it goes. Every run ends with one terminal event.
-/

namespace Fleet

open Json (Form Reader)

inductive Event where
  | thinking (content : String)
  | text (content : String)
  | toolCall (toolCallId name : String) (input : Json)
  | toolResult (toolCallId name : String) (output : Json) (isError : Bool)
  | done (cancelled : Bool)
  | error (fault : Fault)
  deriving DecidableEq, Repr

/-- Whether a browser's stream ends with events of this name. -/
def isTerminalName (name : String) : Bool := name == "done" || name == "error"

namespace Event

/-- The name that browsers know the event by. -/
def streamName : Event → String
  | .done _ => "done"
  | .error _ => "error"
  | _ => "message"

def isTerminal : Event → Bool
  | .done _ | .error _ => true
  | _ => false

def kind : Event → String
  | .thinking _ => "thinking"
  | .text _ => "text"
  | .toolCall .. => "tool_call"
  | .toolResult .. => "tool_result"
  | .done _ => "done"
  | .error _ => "error"

def members : Event → List (String × Json)
  | .thinking content | .text content => [("content", .str content)]
  | .toolCall id name input => [("toolCallId", .str id), ("name", .str name), ("input", input)]
  | .toolResult id name output isError =>
    [("toolCallId", .str id), ("name", .str name), ("output", output), ("isError", .bool isError)]
  | .done cancelled => [("cancelled", .bool cancelled)]
  | .error f => [("code", .str f.code), ("message", .str f.message)]

def toJson (e : Event) : Json := Json.object (("type", .str e.kind) :: e.members)

def variant (name : String) {α : Type} (form : Form α) : Reader α :=
  form.reader ("struct variant ExecutionEvent::" ++ name)

def choices : List (String × Reader Event) :=
  [("thinking", variant "Thinking" (.thinking <$> .required "content" .text)),
    ("text", variant "Text" (.text <$> .required "content" .text)),
    ("tool_call", variant "ToolCall"
      (.toolCall <$> .required "toolCallId" .text <*> .required "name" .text
        <*> .defaulted "input" .any .null)),
    ("tool_result", variant "ToolResult"
      (.toolResult <$> .required "toolCallId" .text <*> .required "name" .text
        <*> .defaulted "output" .any .null <*> .defaulted "isError" .boolean false)),
    ("done", variant "Done" (.done <$> .defaulted "cancelled" .boolean false)),
    ("error", variant "Error"
      ((fun code message => .error ⟨code, message⟩) <$> .required "code" .text
        <*> .required "message" .text))]

def reader : Reader Event := .tagged "internally tagged enum ExecutionEvent" "type" choices

end Event

end Fleet
