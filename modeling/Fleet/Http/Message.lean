import Fleet.Error
import Fleet.Text.Blank

/-!
HTTP requests and responses, as far as the control plane looks at them.
-/

namespace Fleet.Http

structure Request where
  method : String
  /-- The path, with what follows it. -/
  target : String
  headers : List (String × List UInt8) := []
  body : List UInt8 := []
  deriving Repr

inductive Body where
  | empty
  | text (s : String)
  | json (v : Json)
  /-- A stream of events. -/
  | events
  deriving DecidableEq, Repr

structure Response where
  status : Nat
  headers : List (String × String) := []
  body : Body := .empty
  deriving DecidableEq, Repr

namespace Request

/-- The first header of a name, which is given in small letters. -/
def header? (r : Request) (name : String) : Option (List UInt8) :=
  (r.headers.find? fun h => h.1.map Char.toLower == name).map Prod.snd

/-- Whether a header can be shown as text. -/
def isShown (bytes : List UInt8) : Bool :=
  bytes.all fun b => b == 9 || (32 ≤ b && b < 127)

def headerText? (r : Request) (name : String) : Option String :=
  ((r.header? name).filter isShown).map Text.decodeLossy

/-- The path of a target. -/
def path (r : Request) : String :=
  String.ofList (r.target.toList.takeWhile fun c => c ≠ '?' && c ≠ '#')

end Request

namespace Response

def text (status : Nat) (s : String) : Response :=
  ⟨status, [("content-type", "text/plain; charset=utf-8")], .text s⟩

def json (status : Nat) (v : Json) : Response :=
  ⟨status, [("content-type", "application/json")], .json v⟩

def events : Response := ⟨200, [("content-type", "text/event-stream")], .events⟩

def ofError (e : Error) : Response :=
  let r := json e.httpStatus e.httpBody
  match e.retryAfter with
  | some s => { r with headers := r.headers ++ [("retry-after", toString s)] }
  | none => r

end Response

end Fleet.Http
