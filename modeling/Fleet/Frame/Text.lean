import Fleet.Frame.Basic

/-!
Frames as JSON text, one object with a `type` each. Absent options are left out when writing, and
null stands for an absent option when reading.
-/

namespace Fleet

open Json (Form Reader)

/-- A member that is left out when there is nothing to say. -/
def member? {α : Type} (name : String) (write : α → Json) : Option α → List (String × Json)
  | some a => [(name, write a)]
  | none => []

namespace Credentials

def members (c : Credentials) : List (String × Json) :=
  [("userId", .str c.userId), ("orgId", .str c.orgId), ("connectTicket", .str c.connectTicket)]
    ++ member? "token" .str c.token

def form : Form Credentials :=
  Credentials.mk <$> .defaulted "userId" .text "" <*> .defaulted "orgId" .text ""
    <*> .defaulted "connectTicket" .text "" <*> .optional "token" .text

def reader : Reader Credentials := form.reader "struct AuthFrame"

end Credentials

namespace Welcome

def members (w : Welcome) : List (String × Json) :=
  [("connectionId", .str w.connectionId),
    ("secrets", Json.object (w.secrets.map fun (k, v) => (k, .str v))),
    ("heartbeatIntervalMs", .nat w.heartbeatIntervalMs)]

def form : Form Welcome :=
  Welcome.mk <$> .required "connectionId" .text <*> .defaulted "secrets" (.table .text) []
    <*> .required "heartbeatIntervalMs" .nat64

def reader : Reader Welcome := form.reader "struct InitFrame"

end Welcome

namespace Call

def members (c : Call) : List (String × Json) :=
  [("id", .str c.id), ("method", .str c.method), ("params", c.params)]

def form : Form Call :=
  Call.mk <$> .required "id" .text <*> .required "method" .text <*> .defaulted "params" .any .null

def reader : Reader Call := form.reader "struct RequestFrame"

end Call

namespace Reply

def members (r : Reply) : List (String × Json) :=
  ("id", .str r.id) :: (member? "result" (fun v => v) r.result ++ member? "error" Fault.toJson r.fault)

def toJson (r : Reply) : Json := Json.object r.members

def form : Form Reply :=
  Reply.mk <$> .required "id" .text <*> .optional "result" .any <*> .optional "error" Fault.reader

def reader : Reader Reply := form.reader "struct ResponseFrame"

end Reply

namespace Recall

def name : Recall → String
  | .completed => "completed"
  | .lost => "lost"

def reader : Reader Recall := .choice [("completed", .completed), ("lost", .lost)]

end Recall

namespace Resumed

def toJson (r : Resumed) : Json :=
  Json.object ([("requestId", .str r.requestId), ("status", .str r.status.name)]
    ++ member? "result" (fun v => v) r.result ++ member? "error" Fault.toJson r.fault)

def form : Form Resumed :=
  Resumed.mk <$> .required "requestId" .text <*> .required "status" Recall.reader
    <*> .optional "result" .any <*> .optional "error" Fault.reader

def reader : Reader Resumed := form.reader "struct ResumeResult"

end Resumed

namespace Frame

/-- The members of a frame besides its tag. -/
def members : Frame → List (String × Json)
  | .auth c => c.members
  | .init w => w.members
  | .heartbeat ts => member? "ts" Json.int ts
  | .request c => c.members
  | .response r => r.members
  | .fireAndForget method payload => [("method", .str method), ("payload", payload)]
  | .sessionEvent session event data =>
    [("sessionId", .str session), ("event", .str event), ("data", data)]
  | .resume ids => [("lastSeenRequestIds", .arr (ids.map Json.str))]
  | .resumeResponse results => [("results", .arr (results.map Resumed.toJson))]
  | .error f => [("code", .str f.code), ("message", .str f.message)]

def toJson (f : Frame) : Json := Json.object (("type", .str f.kind) :: f.members)

def text (f : Frame) : String := Json.print f.toJson

def variant (name : String) {α : Type} (form : Form α) : Reader α :=
  form.reader ("struct variant ControlFrame::" ++ name)

def choices : List (String × Reader Frame) :=
  [("auth", fun ctx d => (Credentials.reader ctx d).map .auth),
    ("init", fun ctx d => (Welcome.reader ctx d).map .init),
    ("heartbeat", variant "Heartbeat" (.heartbeat <$> .optional "ts" .int64)),
    ("request", fun ctx d => (Call.reader ctx d).map .request),
    ("response", fun ctx d => (Reply.reader ctx d).map .response),
    ("fire_and_forget", variant "FireAndForget"
      (.fireAndForget <$> .required "method" .text <*> .defaulted "payload" .any .null)),
    ("session_event", variant "SessionEvent"
      (.sessionEvent <$> .required "sessionId" .text <*> .required "event" .text
        <*> .defaulted "data" .any .null)),
    ("resume", variant "Resume"
      (.resume <$> .defaulted "lastSeenRequestIds" (.list .text) [])),
    ("resume_response", variant "ResumeResponse"
      (.resumeResponse <$> .required "results" (.list Resumed.reader))),
    ("error", variant "Error"
      ((fun code message => .error ⟨code, message⟩) <$> .required "code" .text
        <*> .required "message" .text))]

def reader : Reader Frame := .tagged "internally tagged enum ControlFrame" "type" choices

/-- Reads the text of one frame. -/
def parse (s : String) : Except Error Frame :=
  (reader.ofText s).mapError fun e => .protocol ("Malformed control frame: " ++ e.message)

end Frame

end Fleet
