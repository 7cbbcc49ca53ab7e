import Fleet.Control.Plane
import Fleet.Http.MediaType
import Fleet.Http.Origins

/-!
The control plane as a web service: what a request asks for, and what an outcome looks like.
-/

namespace Fleet.Http

open Control (Ask Errand Hub Moment Plane Visit)

structure Identity where
  userId : String
  orgId : String
  deriving DecidableEq, Repr

/-- What a header says, if it says anything. -/
def said? (r : Request) (name : String) : Option String :=
  ((r.headerText? name).map Text.trim).filter fun s => !s.isEmpty

/-- Who asks, as the gateway in front of the service tells. -/
def identity (r : Request) : Except Response Identity :=
  match said? r "x-user-id" with
  | some user => .ok ⟨user, (said? r "x-org-id").getD ""⟩
  | none => .error (.ofError (.auth "missing x-user-id header"))

/-- The session that a path names. -/
def sessionOf (part : String) : Except Response String :=
  match percentText? part with
  | some s => .ok s
  | none => .error (.text 400 "Invalid URL: Invalid UTF-8 in `id`")

/-- Bodies are at most this many bytes long. -/
def bodyLimit : Nat := 2 * 1024 * 1024

/-- Reads the body of a message. What follows the first value is not looked at. -/
def chatRequest (r : Request) : Except Response ChatRequest :=
  if !((r.headerText? "content-type").map isJsonType).getD false then
    .error (.text 415 "Expected request with `Content-Type: application/json`")
  else if bodyLimit < r.body.length then
    .error (.text 413 "Failed to buffer the request body: length limit exceeded")
  else match ChatRequest.reader.ofHead r.body with
    | .ok c => .ok c
    | .error e =>
      if e.root = .malformed then
        .error (.text 400 ("Failed to parse the request body as JSON: " ++ e.located))
      else .error (.text 422
        ("Failed to deserialize the JSON body into the target type: " ++ e.located))

/-- A header in small letters, empty if there is none. -/
def lowered (r : Request) (name : String) : String :=
  (((r.header? name).map Text.decodeLossy).getD "").map Char.toLower

/-- Why a plain request cannot become a machine's socket. -/
def refuseSocket (r : Request) : Response :=
  if r.method ≠ "GET" then .text 405 "Request method must be `GET`"
  else if ((lowered r "connection").splitOn "upgrade").length = 1 then
    .text 400 "Connection header did not include 'upgrade'"
  else if lowered r "upgrade" ≠ "websocket" then
    .text 400 "`Upgrade` header did not include 'websocket'"
  else if lowered r "sec-websocket-version" ≠ "13" then
    .text 400 "`Sec-WebSocket-Version` header did not include '13'"
  else if (r.header? "sec-websocket-key").isNone then
    .text 400 "`Sec-WebSocket-Key` header missing"
  else .text 426 "WebSocket request couldn't be upgraded since no upgrade state was present"

/-- What a request asks for. -/
inductive Action where
  | health
  | status (user : String)
  | rebootstrap (who : Identity)
  | chat (errand : Errand)
  deriving Repr

def action (r : Request) : Endpoint → Except Response Action
  | .health => .ok .health
  | .machineStatus => do return .status (← identity r).userId
  | .rebootstrap => do return .rebootstrap (← identity r)
  | .messages part => do
    let session ← sessionOf part
    let request ← chatRequest r
    let who ← identity r
    return .chat ⟨who.userId, session, .message who.orgId request⟩
  | .cancel part => do
    let session ← sessionOf part
    return .chat ⟨(← identity r).userId, session, .cancel⟩
  | .stop part => do
    let session ← sessionOf part
    return .chat ⟨(← identity r).userId, session, .stop⟩
  | .machineSocket => .error (refuseSocket r)

/-- The action of a request, or the answer to one that asks for none. -/
def decide? (r : Request) : Except Response Action :=
  let endpoint := Endpoint.ofPath? r.path
  if r.method = "OPTIONS" then .error (preflight endpoint)
  else match endpoint with
    | none => .error { status := 404 }
    | some e =>
      if e.allows r.method then action r e
      else .error { status := 405, headers := allowHeader (some e) }

def version : String := "0.1.0"

def health (h : Hub) : Response :=
  .json 200 (Json.object [("status", .str "ok"), ("version", .str version),
    ("vmConnections", .nat h.connections.count), ("sseConnections", .nat h.relay.count)])

def machineStatus (user : String) : Except Error (Option Vm.Row) → Response
  | .ok (some row) => .json 200 row.view
  | .ok none => .ofError (.notFound s!"No VM instance for user {user}")
  | .error e => .ofError e

def outcome : Except Error Vm.Outcome → Response
  | .ok o => .json 202 o.toJson
  | .error e => .ofError e

/-- The answer to a browser's errand. -/
def chatOutcome : Ask → Except Error Json → Response
  | _, .error e => .ofError e
  | .message _ _, .ok _ => .events
  | .cancel, .ok v => .json 202 v
  | .stop, .ok v => .json 200 v

/-- The answer to a visit, once there is one. -/
def visitResponse? (v : Visit) : Option Response :=
  v.stage.outcome?.map (chatOutcome v.errand.ask)

/-- Serves a request: an answer now, or else a new visit of the plane that will have one. -/
def serve (p : Plane) (m : Moment) (r : Request) : Option Response × Plane :=
  match decide? r with
  | .error a => (some a, p)
  | .ok .health => (some (health p.hub), p)
  | .ok (.status user) =>
    let (a, hub) := p.hub.perform (Vm.Work.status user)
    (some (machineStatus user a), { p with hub := hub })
  | .ok (.rebootstrap who) =>
    let (a, hub) := p.hub.perform (p.hub.policy.forceRebootstrap m.vm who.userId who.orgId)
    (some (outcome a), { p with hub := hub })
  | .ok (.chat errand) => (none, p.visit m errand)

end Fleet.Http
