import Fleet.Session.Command

/-!
What a run works on: the conversation, the number of nodes run so far, and what was recalled last.
-/

namespace Fleet.Graph

open Json (Form Reader)

structure State where
  messages : List ChatMessage := []
  step : Nat := 0
  memory : List String := []
  deriving DecidableEq, Repr, Inhabited

namespace State

def toJson (s : State) : Json :=
  Json.object [("messages", .arr (s.messages.map ChatMessage.toJson)), ("step", .nat s.step),
    ("memory", .arr (s.memory.map Json.str))]

def form : Form State :=
  State.mk <$> .required "messages" (.list ChatMessage.reader) <*> .defaulted "step" .nat64 0
    <*> .defaulted "memory" (.list .text) []

def reader : Reader State := form.reader "struct GraphState"

/-- What the user said last. -/
def lastUserMessage (s : State) : Option String :=
  (s.messages.reverse.find? fun m => m.role == "user").map ChatMessage.content

def push (s : State) (m : ChatMessage) : State := { s with messages := s.messages ++ [m] }

end State

end Fleet.Graph
