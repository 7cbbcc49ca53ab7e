import Fleet.Settings.ControlPlane

/-!
The settings of a machine and of the bridge processes on it, which come from the environment that
the launcher sets.
-/

namespace Fleet.Settings

open Json (Form Reader)

/-- Who answers a turn in a bridge process. -/
inductive Runner where
  /-- Canned answers. -/
  | mock
  /-- A command, or a built-in answer when there is none. -/
  | sdk
  deriving DecidableEq, Repr, Inhabited

namespace Runner

def name : Runner → String
  | .mock => "mock"
  | .sdk => "sdk"

def reader : Reader Runner := .choice [("mock", .mock), ("sdk", .sdk)]

def ofText (v : String) : Except Error Runner :=
  match word v with
  | "mock" => .ok .mock
  | "sdk" | "" => .ok .sdk
  | other => .error (.config s!"OPENCLAW_RUNNER must be 'mock' or 'sdk', got '{other}'")

end Runner

structure Bridge where
  bridgeCommand : Option String := none
  sdkCommand : Option String := none
  sdkTimeout : Nat := 15000
  runner : Runner := .sdk
  cpRequestTimeout : Nat := 30000
  deriving DecidableEq, Repr, Inhabited

namespace Bridge

def toJson (s : Bridge) : Json :=
  Json.object [("bridge_command", text? s.bridgeCommand), ("sdk_command", text? s.sdkCommand),
    ("sdk_timeout_ms", .nat s.sdkTimeout), ("runner", .str s.runner.name),
    ("cp_request_timeout_ms", .nat s.cpRequestTimeout)]

def form : Form Bridge :=
  let d : Bridge := {}
  Bridge.mk <$> .optional "bridge_command" .text <*> .optional "sdk_command" .text
    <*> .defaulted "sdk_timeout_ms" .nat64 d.sdkTimeout <*> .defaulted "runner" Runner.reader .sdk
    <*> .defaulted "cp_request_timeout_ms" .nat64 d.cpRequestTimeout

def rules : List (Rule Bridge) :=
  [("OPENCLAW_BRIDGE_CMD", fun s v => .ok { s with bridgeCommand := unlessBlank v }),
    ("OPENCLAW_SDK_CMD", fun s v => .ok { s with sdkCommand := unlessBlank v }),
    ("OPENCLAW_SDK_TIMEOUT_MS", fun s v => do
      let n ← number 64 "OPENCLAW_SDK_TIMEOUT_MS" v
      return { s with sdkTimeout := n }),
    ("OPENCLAW_CP_TIMEOUT_MS", fun s v => do
      let n ← number 64 "OPENCLAW_CP_TIMEOUT_MS" v
      return { s with cpRequestTimeout := n }),
    ("OPENCLAW_RUNNER", fun s v => do
      let r ← Runner.ofText v
      return { s with runner := r })]

def ofEnv (env : Env) : Except Error Bridge :=
  match overlay env rules {} with
  | (s, .ok ()) => .ok s
  | (_, .error e) => .error e

end Bridge

structure Machine where
  controlPlaneUrl : String := "ws://127.0.0.1:18800/ws/vm"
  userId : String := ""
  orgId : String := ""
  token : String := ""
  ticket : String := ""
  workspaceRoot : String := "."
  heartbeatInterval : Nat := 10000
  requestTimeout : Nat := 30000
  bridge : Bridge := {}
  deriving DecidableEq, Repr, Inhabited

namespace Machine

def toJson (s : Machine) : Json :=
  Json.object [("control_plane_url", .str s.controlPlaneUrl), ("user_id", .str s.userId),
    ("org_id", .str s.orgId), ("token", .str s.token), ("ticket", .str s.ticket),
    ("workspace_root", .str s.workspaceRoot), ("heartbeat_interval_ms", .nat s.heartbeatInterval),
    ("request_timeout_ms", .nat s.requestTimeout), ("openclaw", s.bridge.toJson)]

def form : Form Machine :=
  let d : Machine := {}
  Machine.mk <$> .defaulted "control_plane_url" .text d.controlPlaneUrl
    <*> .defaulted "user_id" .text "" <*> .defaulted "org_id" .text ""
    <*> .defaulted "token" .text "" <*> .defaulted "ticket" .text ""
    <*> .defaulted "workspace_root" path d.workspaceRoot
    <*> .defaulted "heartbeat_interval_ms" .nat64 d.heartbeatInterval
    <*> .defaulted "request_timeout_ms" .nat64 d.requestTimeout
    <*> .defaulted "openclaw" (Bridge.form.reader "struct OpenClawConfig") {}

def reader : Reader Machine := form.reader "struct ExecutionPlaneConfig"

def require (env : Env) (key : String) : Except Error String :=
  match env.lookup key with
  | some v => if v.isEmpty then .error (.config s!"{key} is required") else .ok v
  | none => .error (.config s!"{key} is required")

/-- Three intervals, in 64 bits. -/
def threefold (interval : Nat) : Nat := interval * 3 % bitBound 64

def rules : List (Rule Machine) :=
  [("VM_CONTROL_PLANE_URL", fun s v => .ok { s with controlPlaneUrl := v }),
    ("SEMIBOT_WORKSPACE", fun s v => .ok { s with workspaceRoot := v }),
    ("VM_HEARTBEAT_INTERVAL_MS", fun s v => do
      let n ← number 64 "VM_HEARTBEAT_INTERVAL_MS" v
      return { s with heartbeatInterval := n, requestTimeout := threefold n }),
    ("VM_REQUEST_TIMEOUT_MS", fun s v => do
      let n ← number 64 "VM_REQUEST_TIMEOUT_MS" v
      return { s with requestTimeout := n })]

/-- A user and a ticket there have to be. A heartbeat interval also sets the time for requests. -/
def ofEnv (env : Env) : Except Error Machine := do
  let user ← require env "VM_USER_ID"
  let ticket ← require env "VM_TICKET"
  let s : Machine :=
    { userId := user
      ticket := ticket
      orgId := (env.lookup "VM_ORG_ID").getD ""
      token := (env.lookup "VM_TOKEN").getD "" }
  match overlay env rules s with
  | (_, .error e) => throw e
  | (s, .ok ()) =>
    let bridge ← Bridge.ofEnv env
    return { s with bridge := bridge }

end Machine

end Fleet.Settings
