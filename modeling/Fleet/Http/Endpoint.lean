import Fleet.Http.Message
import Fleet.Json.Document

/-!
The paths that the control plane serves, each with its one method. Sessions are named in the path,
with percent signs for bytes that cannot stand there.
-/

namespace Fleet.Http

/-- What a path stands for. Sessions are as they stand in the path. -/
inductive Endpoint where
  | health
  | machineStatus
  | rebootstrap
  | messages (session : String)
  | cancel (session : String)
  | stop (session : String)
  /-- Where machines dial in. -/
  | machineSocket
  deriving DecidableEq, Repr

namespace Endpoint

def ofPath? (path : String) : Option Endpoint :=
  match path.splitOn "/" with
  | ["", "health"] => some .health
  | ["", "ws", "vm"] => some .machineSocket
  | ["", "api", "v1", "vm", "status"] => some .machineStatus
  | ["", "api", "v1", "vm", "rebootstrap"] => some .rebootstrap
  | ["", "api", "v1", "chat", "sessions", id, "messages"] => some (.messages id)
  | ["", "api", "v1", "chat", "sessions", id, "cancel"] => some (.cancel id)
  | ["", "api", "v1", "chat", "sessions", id, "stop"] => some (.stop id)
  | _ => none

/-- Whether the endpoint is asked for, and not told, something. -/
def isRead : Endpoint → Bool
  | .health | .machineStatus | .machineSocket => true
  | _ => false

/-- The methods of an endpoint, as they are told. -/
def allowed (e : Endpoint) : String := if e.isRead then "GET,HEAD" else "POST"

def allows (e : Endpoint) (method : String) : Bool :=
  if e.isRead then method = "GET" || method = "HEAD" else method = "POST"

end Endpoint

/-- The bytes that percent signs stand for. A sign without two digits stands for itself. -/
def percentBytes : List UInt8 → List UInt8
  | 37 :: a :: b :: rest =>
    match Json.hexValue? (Char.ofNat a.toNat), Json.hexValue? (Char.ofNat b.toNat) with
    | some x, some y => UInt8.ofNat (16 * x + y) :: percentBytes rest
    | _, _ => 37 :: percentBytes (a :: b :: rest)
  | a :: rest => a :: percentBytes rest
  | [] => []

/-- What a part of a path says, if that is text. -/
def percentText? (s : String) : Option String := Text.decode? (percentBytes (Text.encode s))

end Fleet.Http
