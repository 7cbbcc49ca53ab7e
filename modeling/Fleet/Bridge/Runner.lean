import Fleet.Bridge.Sdk

/-!
What runtimes do with a turn: the messages that they emit, and the reply or the error at the end.
-/

namespace Fleet.Bridge

structure Play where
  said : List Message
  result : Except Error String
  deriving Repr

namespace Play

def skillNames (skills : List Json) : List Json :=
  skills.filterMap fun s => (s.get? "name").bind fun n => n.text?.map Json.str

/-- The runtime for trying things out: it echoes the message and counts what it was given. -/
def mock (i : TurnInput) : Play :=
  let turn := i.history.length / 2 + 1
  let opening : Message := .reasoning
    s!"mock turn {turn} with {i.memory.length} memories and {i.skills.length} skills"
  let listing : List Message := if i.skills.isEmpty then [] else
    [.toolStarted "mock-skills" "list_skills" .null,
      .toolFinished "mock-skills" "list_skills" (.arr (skillNames i.skills)) false]
  let reply := "[mock] " ++ i.message
  ⟨opening :: listing ++ [.assistantMessage reply], .ok reply⟩

/-- The messages of tool uses; one without an id is numbered. -/
def toolMessages : Nat → List ToolUse → List Message
  | _, [] => []
  | n, t :: rest =>
    let id := t.id.getD s!"sdk-tool-{n}"
    .toolStarted id t.name t.input :: .toolFinished id t.name t.output t.isError ::
      toolMessages (n + 1) rest

/-- A turn that a command answered. -/
def ofReply (r : SdkReply) : Play :=
  let thoughts := ((r.reasoning.filter (!·.isEmpty)).map Message.reasoning).toList
  ⟨thoughts ++ toolMessages 0 r.tools ++ [.assistantMessage r.content], .ok r.content⟩

def ofSdk : Except Error SdkReply → Play
  | .ok r => ofReply r
  | .error e => ⟨[], .error e⟩

end Play

namespace Core

/-- The runtime plays a whole turn at once. -/
def perform (c : Core) (p : Play) : Option (Core × List Message) := do
  let (c, said) ← p.said.foldlM (fun (c, out) m => do
    let (c, ms) ← c.say m
    return (c, out ++ ms)) (c, [])
  let (c, last) ← c.finish p.result
  return (c, said ++ last)

end Core

end Fleet.Bridge
