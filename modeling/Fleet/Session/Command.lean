import Fleet.Frame.Text

/-!
What the control plane asks a machine to do with a session: start it, give it a message, cancel its
runs, stop it. A session id names a directory, so only letters, digits, `-` and `_` are taken.
-/

namespace Fleet

open Json (Form Reader)

/-- The agent runtime that a session is bound to. -/
inductive Runtime where
  /-- Runs in the machine's own process. -/
  | semigraph
  /-- Runs in a bridge process of its own. -/
  | openclaw
  deriving DecidableEq, Repr, Inhabited

namespace Runtime

def name : Runtime → String
  | .semigraph => "semigraph"
  | .openclaw => "openclaw"

def reader : Reader Runtime := .choice [("semigraph", .semigraph), ("openclaw", .openclaw)]

end Runtime

/-- One turn of a conversation. -/
structure ChatMessage where
  role : String
  content : String
  deriving DecidableEq, Repr, Inhabited

namespace ChatMessage

def user (content : String) : ChatMessage := ⟨"user", content⟩

def assistant (content : String) : ChatMessage := ⟨"assistant", content⟩

def toJson (m : ChatMessage) : Json :=
  Json.object [("role", .str m.role), ("content", .str m.content)]

def form : Form ChatMessage :=
  ChatMessage.mk <$> .required "role" .text <*> .required "content" .text

def reader : Reader ChatMessage := form.reader "struct ChatMessage"

end ChatMessage

structure StartSession where
  sessionId : String
  userId : String := ""
  agentId : String := ""
  runtime : Runtime := .semigraph
  agentConfig : Json := .null
  mcpConfig : Json := .null
  skills : List String := []
  /-- The conversation to start from. Without it the runtime restores its own. -/
  history : Option (List ChatMessage) := none
  deriving DecidableEq, Repr, Inhabited

namespace StartSession

def toJson (p : StartSession) : Json :=
  Json.object ([("sessionId", .str p.sessionId), ("userId", .str p.userId),
    ("agentId", .str p.agentId), ("runtimeType", .str p.runtime.name),
    ("agentConfig", p.agentConfig), ("mcpConfig", p.mcpConfig),
    ("skills", .arr (p.skills.map Json.str))]
    ++ member? "history" (fun h => .arr (h.map ChatMessage.toJson)) p.history)

def form : Form StartSession :=
  StartSession.mk <$> .required "sessionId" .text <*> .defaulted "userId" .text ""
    <*> .defaulted "agentId" .text "" <*> .defaulted "runtimeType" Runtime.reader .semigraph
    <*> .defaulted "agentConfig" .any .null <*> .defaulted "mcpConfig" .any .null
    <*> .defaulted "skills" (.list .text) []
    <*> .optional "history" (.list ChatMessage.reader)

def reader : Reader StartSession := form.reader "struct StartSessionParams"

end StartSession

structure UserMessage where
  sessionId : String
  message : String
  deriving DecidableEq, Repr

namespace UserMessage

def toJson (p : UserMessage) : Json :=
  Json.object [("sessionId", .str p.sessionId), ("message", .str p.message)]

def form : Form UserMessage :=
  UserMessage.mk <$> .required "sessionId" .text <*> .required "message" .text

def reader : Reader UserMessage := form.reader "struct UserMessageParams"

end UserMessage

/-- The session that a cancel or a stop is for. -/
structure SessionRef where
  sessionId : String
  deriving DecidableEq, Repr

namespace SessionRef

def toJson (p : SessionRef) : Json := Json.object [("sessionId", .str p.sessionId)]

def form : Form SessionRef := SessionRef.mk <$> .required "sessionId" .text

def reader : Reader SessionRef := form.reader "struct SessionRef"

end SessionRef

/-- What a browser sends to talk to a session. -/
structure ChatRequest where
  message : String
  agentId : String := ""
  runtime : Runtime := .semigraph
  agentConfig : Json := .null
  mcpConfig : Json := .null
  skills : List String := []
  history : Option (List ChatMessage) := none
  deriving DecidableEq, Repr, Inhabited

namespace ChatRequest

def toJson (p : ChatRequest) : Json :=
  Json.object [("message", .str p.message),
    ("agentId", .str p.agentId), ("runtimeType", .str p.runtime.name),
    ("agentConfig", p.agentConfig), ("mcpConfig", p.mcpConfig),
    ("skills", .arr (p.skills.map Json.str)),
    ("history", Json.ofOption (p.history.map fun h => .arr (h.map ChatMessage.toJson)))]

def form : Form ChatRequest :=
  ChatRequest.mk <$> .required "message" .text
    <*> .defaulted "agentId" .text "" <*> .defaulted "runtimeType" Runtime.reader .semigraph
    <*> .defaulted "agentConfig" .any .null <*> .defaulted "mcpConfig" .any .null
    <*> .defaulted "skills" (.list .text) []
    <*> .optional "history" (.list ChatMessage.reader)

def reader : Reader ChatRequest := form.reader "struct ChatRequest"

end ChatRequest

/-- Session ids are at most this many characters long. -/
def sessionIdLimit : Nat := 128

def isSessionIdChar (c : Char) : Bool := c.isAlphanum || c = '-' || c = '_'

def isSessionId (id : String) : Bool :=
  !id.isEmpty && id.utf8ByteSize ≤ sessionIdLimit && id.toList.all isSessionIdChar

def checkSessionId (id : String) : Except Error Unit :=
  if isSessionId id then .ok ()
  else .error (.session s!"Invalid session id '{Text.escaped id}'")

end Fleet
