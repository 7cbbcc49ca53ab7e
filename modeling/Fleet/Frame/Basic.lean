import Fleet.Error

/-!
The messages of the control channel between the control plane and one machine.
-/

namespace Fleet

/-- What a machine says about itself when it dials in. -/
structure Credentials where
  userId : String
  orgId : String
  connectTicket : String
  /-- The signed token from its bootstrap. -/
  token : Option String
  deriving DecidableEq, Repr, Inhabited

/-- The answer to accepted credentials. -/
structure Welcome where
  connectionId : String
  /-- Secrets for the machine's processes, by name. -/
  secrets : List (String × String)
  heartbeatIntervalMs : Nat
  deriving DecidableEq, Repr, Inhabited

structure Call where
  id : String
  method : String
  params : Json
  deriving DecidableEq, Repr, Inhabited

structure Reply where
  id : String
  result : Option Json
  fault : Option Fault
  deriving DecidableEq, Repr, Inhabited

inductive Recall where
  /-- The answer was kept and is given again. -/
  | completed
  /-- Nothing is known; the call has to be made again. -/
  | lost
  deriving DecidableEq, Repr

/-- What became of one call that was open when a connection broke. -/
structure Resumed where
  requestId : String
  status : Recall
  result : Option Json
  fault : Option Fault
  deriving DecidableEq, Repr

inductive Frame where
  | auth (body : Credentials)
  | init (body : Welcome)
  | heartbeat (ts : Option Int)
  | request (call : Call)
  | response (reply : Reply)
  /-- A report that gets no answer. -/
  | fireAndForget (method : String) (payload : Json)
  /-- Something that happened in a session, under the name browsers know it by. -/
  | sessionEvent (sessionId event : String) (data : Json)
  /-- The calls that were open when the last connection broke. -/
  | resume (requestIds : List String)
  | resumeResponse (results : List Resumed)
  | error (fault : Fault)
  deriving DecidableEq, Repr

/-- What arrives at one end of a socket. -/
inductive Arrival where
  | text (s : String)
  /-- Anything that is no text; it is passed over. -/
  | other
  | close
  /-- The far end is gone without a word. -/
  | lost
  deriving DecidableEq, Repr

namespace Reply

def ok (id : String) (result : Json) : Reply := ⟨id, some result, none⟩

def err (id : String) (fault : Fault) : Reply := ⟨id, none, some fault⟩

/-- The outcome for the caller. A fault wins over a result, and no result is null. -/
def outcome (r : Reply) : Except Error Json :=
  match r.fault with
  | some f => .error (.remote f)
  | none => .ok (r.result.getD .null)

/-- The reply that carries an outcome. -/
def ofOutcome (id : String) : Except Fault Json → Reply
  | .ok v => ok id v
  | .error f => err id f

end Reply

def Resumed.missing (requestId : String) : Resumed := ⟨requestId, .lost, none, none⟩

namespace Frame

/-- The tag of a frame. -/
def kind : Frame → String
  | .auth _ => "auth"
  | .init _ => "init"
  | .heartbeat _ => "heartbeat"
  | .request _ => "request"
  | .response _ => "response"
  | .fireAndForget .. => "fire_and_forget"
  | .sessionEvent .. => "session_event"
  | .resume _ => "resume"
  | .resumeResponse _ => "resume_response"
  | .error _ => "error"

end Frame

end Fleet
