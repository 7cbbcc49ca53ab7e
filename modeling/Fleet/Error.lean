import Fleet.Json.Reader

/-!
What can go wrong, and how it is told: a text for people, a stable code for programs, and an HTTP
status for browsers.
-/

namespace Fleet

/-- A failure as it crosses a wire. -/
structure Fault where
  code : String
  message : String
  deriving DecidableEq, Repr, Inhabited

inductive Error where
  | config (text : String)
  | store (text : String)
  | protocol (text : String)
  /-- The user's machine cannot take work yet. -/
  | notReady (status : String) (retryAfterMs : Option Nat) (lastError : Option String)
  | auth (text : String)
  | transport (text : String)
  | timeout (text : String)
  | notFound (text : String)
  | session (text : String)
  /-- The other side of a call answered with a fault. -/
  | remote (fault : Fault)
  /-- A failure of the bridge process or of its runner. -/
  | bridge (fault : Fault)
  | io (text : String)
  | serialization (cause : Json.ReadError)
  | internal (text : String)
  deriving DecidableEq, Repr

namespace Code

def spawnFailed := "BOOTSTRAP_SPAWN_FAILED"
def attemptsExceeded := "BOOTSTRAP_ATTEMPTS_EXCEEDED"
def timedOut := "BOOTSTRAP_TIMED_OUT"
def notReady := "EXECUTION_PLANE_NOT_READY"
def commandTimeout := "SDK_COMMAND_TIMEOUT"
def commandFailed := "SDK_COMMAND_FAILED"
def outputInvalid := "SDK_OUTPUT_INVALID"
def bridgeExited := "OPENCLAW_BRIDGE_EXITED"
def bridgeInternal := "OPENCLAW_BRIDGE_INTERNAL_ERROR"
def runFailed := "SEMIGRAPH_EXECUTION_FAILED"
def sessionNotFound := "SESSION_NOT_FOUND"
def methodNotFound := "METHOD_NOT_FOUND"
def requestFailed := "REQUEST_FAILED"
def skillNotFound := "SKILL_NOT_FOUND"
def internal := "INTERNAL_ERROR"
def unwritable := "SERIALIZATION_ERROR"

end Code

/-- A delay in whole seconds, rounded up and never zero. -/
def retrySeconds (ms : Nat) : Nat := max ((ms + 999) / 1000) 1

namespace Error

def message : Error → String
  | config t => s!"Configuration error: {t}"
  | store t => s!"Store error: {t}"
  | protocol t => s!"Protocol error: {t}"
  | notReady status none _ => s!"Execution plane not ready (status: {status})"
  | notReady status (some ms) _ =>
    s!"Execution plane not ready (status: {status}), retry in {retrySeconds ms}s"
  | auth t => s!"Authentication failed: {t}"
  | transport t => s!"Transport error: {t}"
  | timeout t => s!"Operation timed out: {t}"
  | notFound t => s!"Not found: {t}"
  | session t => s!"Session error: {t}"
  | remote f => s!"Remote error [{f.code}]: {f.message}"
  | bridge f => s!"Bridge error [{f.code}]: {f.message}"
  | io t => s!"IO error: {t}"
  | serialization e => s!"Serialization error: {e.message}"
  | internal t => s!"Internal error: {t}"

/-- The stable code. A fault from elsewhere keeps its own. -/
def code : Error → String
  | notReady .. => Code.notReady
  | remote f | bridge f => f.code
  | session _ => Code.sessionNotFound
  | notFound _ => "NOT_FOUND"
  | timeout _ => "TIMEOUT"
  | auth _ => "AUTH_FAILED"
  | protocol _ => "PROTOCOL_ERROR"
  | config _ | store _ | transport _ | io _ | serialization _ | internal _ => Code.internal

/-- The failure as the other side of a call gets it. -/
def fault (e : Error) : Fault := ⟨e.code, e.message⟩

/-- The name of the kind of error. -/
def kind : Error → String
  | config _ => "Config"
  | store _ => "Store"
  | protocol _ => "Protocol"
  | notReady .. => "NotReady"
  | auth _ => "Auth"
  | transport _ => "Transport"
  | timeout _ => "Timeout"
  | notFound _ => "NotFound"
  | session _ => "Session"
  | remote _ => "Remote"
  | bridge _ => "Bridge"
  | io _ => "Io"
  | serialization _ => "Serialization"
  | internal _ => "Internal"

/-- The error of a kind that is named, with its parts. -/
def ofKind (kind text code : String) (retryAfterMs : Option Nat) (lastError : Option String)
    (status : String) : Error :=
  match kind with
  | "Config" => config text
  | "Store" => store text
  | "Protocol" => protocol text
  | "NotReady" => notReady status retryAfterMs lastError
  | "Auth" => auth text
  | "Transport" => transport text
  | "Timeout" => timeout text
  | "NotFound" => notFound text
  | "Session" => session text
  | "Remote" => remote ⟨code, text⟩
  | "Bridge" => bridge ⟨code, text⟩
  | "Io" => io text
  | "Serialization" => serialization (.custom text)
  | _ => internal text

def httpStatus : Error → Nat
  | notReady .. => 503
  | session _ | notFound _ => 404
  | auth _ => 401
  | timeout _ => 504
  | remote _ | transport _ => 502
  | protocol _ | serialization _ => 400
  | config _ | store _ | bridge _ | io _ | internal _ => 500

/-- The delay that a browser is told to wait, in seconds. -/
def retryAfter : Error → Option Nat
  | notReady _ (some ms) _ => some (retrySeconds ms)
  | _ => none

/-- The details of the JSON body of an HTTP answer. -/
def httpBody (e : Error) : Json :=
  let base := [("code", .str e.code), ("message", .str e.message)]
  let more := match e with
    | notReady status retry last =>
      [("vmStatus", .str status), ("retryAfterMs", Json.ofOption (retry.map Json.nat)),
        ("lastError", Json.ofOption (last.map Json.str))]
    | _ => []
  Json.object [("error", Json.object (base ++ more))]

end Error

namespace Fault

def toJson (f : Fault) : Json := Json.object [("code", .str f.code), ("message", .str f.message)]

def form : Json.Form Fault :=
  Fault.mk <$> .required "code" .text <*> .required "message" .text

def reader : Json.Reader Fault := form.reader "struct RpcError"

end Fault

/-- The object with these members. A name that is no scalar has no JSON form, and the object says so
instead. -/
def Json.ofTable (members : List (Json × Json)) : Json :=
  let name? : Json → Option String
    | .str s => some s
    | .bool b => some (toString b)
    | .num n => some (Json.print (.num n))
    | _ => none
  match members.mapM fun (k, v) => (name? k).map (·, v) with
  | some members => .object members
  | none =>
    Json.object [("error", Fault.toJson ⟨Code.unwritable, "key must be a string"⟩)]

end Fleet
