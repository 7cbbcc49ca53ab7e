import Fleet.Settings.Hcl.Body
import Fleet.Settings.Numbers
import Fleet.Frame.Text

/-!
The control plane's settings: defaults, then a configuration text, then the environment, and the
conditions that they have to meet before anything starts.
-/

namespace Fleet

open Json (Form Reader)

inductive Environment where
  | development
  | test
  | production
  deriving DecidableEq, Repr, Inhabited

namespace Environment

def ofText (s : String) : Environment :=
  match Settings.word s with
  | "production" | "prod" => .production
  | "test" => .test
  | _ => .development

def name : Environment → String
  | .development => "development"
  | .test => "test"
  | .production => "production"

def choices : List (String × Environment) :=
  [("development", .development), ("test", .test), ("production", .production)]

def reader : Reader Environment := .choice choices

end Environment

namespace Settings

structure Server where
  host : String := "127.0.0.1"
  port : Nat := 18800
  corsOrigins : List String := []
  deriving DecidableEq, Repr, Inhabited

/-- How machines are brought up. Times are milliseconds unless named otherwise. -/
structure Vm where
  bootstrapCommand : Option String := none
  maxAttempts : Nat := 5
  cooldown : Nat := 30000
  readyRetry : Nat := 3000
  bootstrapTimeout : Nat := 120000
  tokenTtlSecs : Nat := 600
  jwtSecret : Option String := none
  publicWsUrl : String := "ws://127.0.0.1:18800/ws/vm"
  deriving DecidableEq, Repr, Inhabited

/-- How connections of machines are kept. -/
structure Channel where
  heartbeatInterval : Nat := 10000
  heartbeatTimeout : Nat := 30000
  authTimeout : Nat := 10000
  requestTimeout : Nat := 30000
  resumeTtl : Nat := 300000
  resumeMaxEntries : Nat := 2048
  deriving DecidableEq, Repr, Inhabited

structure Storage where
  databasePath : Option String := none
  skillsDir : Option String := none
  deriving DecidableEq, Repr, Inhabited

structure ControlPlane where
  environment : Environment := .development
  server : Server := {}
  vm : Vm := {}
  ws : Channel := {}
  storage : Storage := {}
  forwardedSecrets : List String :=
    ["OPENAI_API_KEY", "ANTHROPIC_API_KEY", "DEEPSEEK_API_KEY"]
  deriving DecidableEq, Repr, Inhabited

def nat16 : Reader Nat := .natural 16 "u16"
def nat32 : Reader Nat := .natural 32 "u32"
def size : Reader Nat := .natural 64 "usize"
def path : Reader String := fun ctx d =>
  (Reader.text ctx d).mapError fun
    | .invalidType found _ => .invalidType found "path string"
    | e => e

/-- What a term makes of the settings that stand under some names, defaults for the others. -/
def ofMember {α : Type} (found : List (String × Hcl.Term)) (name : String)
    (read : Hcl.Term → Option α) (absent : α) : Option α :=
  match found.lookup name with
  | some t => read t
  | none => some absent

def ofText (t : Hcl.Term) : Option String := some t.string
def ofOptionalText (t : Hcl.Term) : Option (Option String) := some (t.optional Hcl.Term.string)

def texts (ss : List String) : Json := .arr (ss.map Json.str)

def text? (s : Option String) : Json := Json.ofOption (s.map Json.str)

namespace Server

def toJson (s : Server) : Json :=
  Json.object [("host", .str s.host), ("port", .nat s.port), ("cors_origins", texts s.corsOrigins)]

def form : Form Server :=
  Server.mk <$> .defaulted "host" .text ({} : Server).host
    <*> .defaulted "port" nat16 ({} : Server).port <*> .defaulted "cors_origins" (.list .text) []

def ofTerm (t : Hcl.Term) : Option Server := do
  let d : Server := {}
  let found ← t.record? ["host", "port", "cors_origins"]
  return {
    host := ← ofMember found "host" ofText d.host
    port := ← ofMember found "port" (·.natural? 16) d.port
    corsOrigins := ← ofMember found "cors_origins" (·.strings?) d.corsOrigins }

end Server

namespace Vm

def toJson (s : Vm) : Json :=
  Json.object [("bootstrap_command", text? s.bootstrapCommand), ("max_attempts", .nat s.maxAttempts),
    ("cooldown_ms", .nat s.cooldown), ("ready_retry_ms", .nat s.readyRetry),
    ("bootstrap_timeout_ms", .nat s.bootstrapTimeout), ("token_ttl_secs", .nat s.tokenTtlSecs),
    ("jwt_secret", text? s.jwtSecret), ("public_ws_url", .str s.publicWsUrl)]

def form : Form Vm :=
  let d : Vm := {}
  Vm.mk <$> .optional "bootstrap_command" .text <*> .defaulted "max_attempts" nat32 d.maxAttempts
    <*> .defaulted "cooldown_ms" .nat64 d.cooldown <*> .defaulted "ready_retry_ms" .nat64 d.readyRetry
    <*> .defaulted "bootstrap_timeout_ms" .nat64 d.bootstrapTimeout
    <*> .defaulted "token_ttl_secs" .nat64 d.tokenTtlSecs <*> .optional "jwt_secret" .text
    <*> .defaulted "public_ws_url" .text d.publicWsUrl

def reader : Reader Vm := form.reader "struct VmConfig"

def ofTerm (t : Hcl.Term) : Option Vm := do
  let d : Vm := {}
  let found ← t.record? ["bootstrap_command", "max_attempts", "cooldown_ms", "ready_retry_ms",
    "bootstrap_timeout_ms", "token_ttl_secs", "jwt_secret", "public_ws_url"]
  return {
    bootstrapCommand := ← ofMember found "bootstrap_command" ofOptionalText d.bootstrapCommand
    maxAttempts := ← ofMember found "max_attempts" (·.natural? 32) d.maxAttempts
    cooldown := ← ofMember found "cooldown_ms" (·.natural? 64) d.cooldown
    readyRetry := ← ofMember found "ready_retry_ms" (·.natural? 64) d.readyRetry
    bootstrapTimeout := ← ofMember found "bootstrap_timeout_ms" (·.natural? 64) d.bootstrapTimeout
    tokenTtlSecs := ← ofMember found "token_ttl_secs" (·.natural? 64) d.tokenTtlSecs
    jwtSecret := ← ofMember found "jwt_secret" ofOptionalText d.jwtSecret
    publicWsUrl := ← ofMember found "public_ws_url" ofText d.publicWsUrl }

end Vm

namespace Channel

def toJson (s : Channel) : Json :=
  Json.object [("heartbeat_interval_ms", .nat s.heartbeatInterval),
    ("heartbeat_timeout_ms", .nat s.heartbeatTimeout), ("auth_timeout_ms", .nat s.authTimeout),
    ("request_timeout_ms", .nat s.requestTimeout), ("resume_ttl_ms", .nat s.resumeTtl),
    ("resume_max_entries", .nat s.resumeMaxEntries)]

def form : Form Channel :=
  let d : Channel := {}
  Channel.mk <$> .defaulted "heartbeat_interval_ms" .nat64 d.heartbeatInterval
    <*> .defaulted "heartbeat_timeout_ms" .nat64 d.heartbeatTimeout
    <*> .defaulted "auth_timeout_ms" .nat64 d.authTimeout
    <*> .defaulted "request_timeout_ms" .nat64 d.requestTimeout
    <*> .defaulted "resume_ttl_ms" .nat64 d.resumeTtl
    <*> .defaulted "resume_max_entries" size d.resumeMaxEntries

def ofTerm (t : Hcl.Term) : Option Channel := do
  let d : Channel := {}
  let found ← t.record? ["heartbeat_interval_ms", "heartbeat_timeout_ms", "auth_timeout_ms",
    "request_timeout_ms", "resume_ttl_ms", "resume_max_entries"]
  return {
    heartbeatInterval := ← ofMember found "heartbeat_interval_ms" (·.natural? 64) d.heartbeatInterval
    heartbeatTimeout := ← ofMember found "heartbeat_timeout_ms" (·.natural? 64) d.heartbeatTimeout
    authTimeout := ← ofMember found "auth_timeout_ms" (·.natural? 64) d.authTimeout
    requestTimeout := ← ofMember found "request_timeout_ms" (·.natural? 64) d.requestTimeout
    resumeTtl := ← ofMember found "resume_ttl_ms" (·.natural? 64) d.resumeTtl
    resumeMaxEntries := ← ofMember found "resume_max_entries" (·.natural? 64) d.resumeMaxEntries }

end Channel

namespace Storage

def toJson (s : Storage) : Json :=
  Json.object [("database_path", text? s.databasePath), ("skills_dir", text? s.skillsDir)]

def form : Form Storage :=
  Storage.mk <$> .optional "database_path" path <*> .optional "skills_dir" path

def ofTerm (t : Hcl.Term) : Option Storage := do
  let found ← t.record? ["database_path", "skills_dir"]
  return {
    databasePath := ← ofMember found "database_path" ofOptionalText none
    skillsDir := ← ofMember found "skills_dir" ofOptionalText none }

end Storage

namespace ControlPlane

def toJson (s : ControlPlane) : Json :=
  Json.object [("environment", .str s.environment.name), ("server", s.server.toJson),
    ("vm", s.vm.toJson), ("ws", s.ws.toJson), ("storage", s.storage.toJson),
    ("forwarded_secrets", texts s.forwardedSecrets)]

def form : Form ControlPlane :=
  ControlPlane.mk <$> .defaulted "environment" Environment.reader .development
    <*> .defaulted "server" (Server.form.reader "struct ServerConfig") {}
    <*> .defaulted "vm" Vm.reader {}
    <*> .defaulted "ws" (Channel.form.reader "struct WsConfig") {}
    <*> .defaulted "storage" (Storage.form.reader "struct StorageConfig") {}
    <*> .defaulted "forwarded_secrets" (.list .text) ({} : ControlPlane).forwardedSecrets

def reader : Reader ControlPlane := form.reader "struct ControlPlaneConfig"

def ofTerm (t : Hcl.Term) : Option ControlPlane := do
  let d : ControlPlane := {}
  let found ← t.record? ["environment", "server", "vm", "ws", "storage", "forwarded_secrets"]
  return {
    environment := ← ofMember found "environment" (·.choice? Environment.choices) d.environment
    server := ← ofMember found "server" Server.ofTerm d.server
    vm := ← ofMember found "vm" Vm.ofTerm d.vm
    ws := ← ofMember found "ws" Channel.ofTerm d.ws
    storage := ← ofMember found "storage" Storage.ofTerm d.storage
    forwardedSecrets := ← ofMember found "forwarded_secrets" (·.strings?) d.forwardedSecrets }

/-- Settings from a configuration text. -/
def ofHcl (s : String) : Except Error ControlPlane :=
  match (Hcl.parse? s).bind ofTerm with
  | some settings => .ok settings
  | none => .error (.config "Invalid HCL config: <hcl error>")

def vmNumber (bits : Nat) (key : String) (set : Vm → Nat → Vm) : Rule ControlPlane :=
  (key, fun s v => do return { s with vm := set s.vm (← number bits key v) })

def wsNumber (key : String) (set : Channel → Nat → Channel) : Rule ControlPlane :=
  (key, fun s v => do return { s with ws := set s.ws (← number 64 key v) })

/-- What the environment sets, in this order. -/
def rules : List (Rule ControlPlane) :=
  [("SEMIBOT_ENV", fun s v => .ok { s with environment := .ofText v }),
    ("SEMIBOT_HOST", fun s v => .ok { s with server.host := v }),
    ("SEMIBOT_PORT", fun s v => do
      let port ← number 16 "SEMIBOT_PORT" v
      return { s with server.port := port }),
    ("VM_BOOTSTRAP_COMMAND", fun s v => .ok { s with vm.bootstrapCommand := unlessBlank v }),
    vmNumber 32 "VM_BOOTSTRAP_MAX_ATTEMPTS" fun vm n => { vm with maxAttempts := n },
    vmNumber 64 "VM_BOOTSTRAP_COOLDOWN_MS" fun vm n => { vm with cooldown := n },
    vmNumber 64 "VM_BOOTSTRAP_TIMEOUT_MS" fun vm n => { vm with bootstrapTimeout := n },
    vmNumber 64 "VM_READY_RETRY_MS" fun vm n => { vm with readyRetry := n },
    vmNumber 64 "VM_TOKEN_TTL_SECS" fun vm n => { vm with tokenTtlSecs := n },
    ("VM_JWT_SECRET", fun s v => .ok { s with vm.jwtSecret := if v.isEmpty then none else some v }),
    ("VM_CONTROL_PLANE_URL", fun s v => .ok { s with vm.publicWsUrl := v }),
    wsNumber "WS_HEARTBEAT_INTERVAL_MS" fun ws n => { ws with heartbeatInterval := n },
    wsNumber "WS_HEARTBEAT_TIMEOUT_MS" fun ws n => { ws with heartbeatTimeout := n },
    wsNumber "WS_REQUEST_TIMEOUT_MS" fun ws n => { ws with requestTimeout := n },
    wsNumber "WS_RESUME_TTL_MS" fun ws n => { ws with resumeTtl := n },
    wsNumber "WS_RESUME_MAX_ENTRIES" fun ws n => { ws with resumeMaxEntries := n },
    ("SEMIBOT_DATABASE_PATH", fun s v => .ok { s with storage.databasePath := some v }),
    ("SEMIBOT_SKILLS_DIR", fun s v => .ok { s with storage.skillsDir := some v })]

/-- Settings with the environment laid over them. -/
def withEnv (s : ControlPlane) (env : Env) : ControlPlane × Except Error Unit :=
  overlay env rules s

/-- At least one attempt, time for a heartbeat before its timeout, and a secret in production. -/
def validate (s : ControlPlane) : Except Error Unit :=
  if s.vm.maxAttempts = 0 then .error (.config "VM_BOOTSTRAP_MAX_ATTEMPTS must be at least 1")
  else if s.ws.heartbeatTimeout ≤ s.ws.heartbeatInterval then
    let timeout := s.ws.heartbeatTimeout
    let interval := s.ws.heartbeatInterval
    .error (.config
      s!"heartbeat timeout ({timeout}ms) must exceed the heartbeat interval ({interval}ms)")
  else if s.environment = .production ∧ s.vm.jwtSecret = none then
    .error (.config "VM_JWT_SECRET must be set in production")
  else .ok ()

end ControlPlane

end Settings

end Fleet
