import Fleet.Proofs.Graph.Files
import Fleet.Proofs.Graph.Steps

/-!
What happens to a session whose runs take turns on its state. Messages, cancels and a stop come at any
time, the runs take their steps in any order, and what they do is noted down.
-/

namespace Fleet

/-- Whether this is the event that ends a run. -/
def Sent.isTerminal : Sent → Bool
  | .event e => e.isTerminal
  | _ => false

namespace Graph

inductive Note where
  | accepted (r : Run)
  /-- The memory has answered the run. -/
  | recalled (r : Run) (outcome : Except Error Json)
  | wrote (r : Run) (written : Except Error Checkpoint)
  | told (r : Run) (sent : List Sent)

/-- A session and its machine's disk, with all that has happened, oldest first. -/
structure Course where
  session : Session
  disk : Disk
  log : List Note := []

inductive Turn where
  | message (text : String)
  | cancel
  | stop
  | step (x : Step)

/-- The messages that were accepted. -/
def accepted (log : List Note) : List Run :=
  log.filterMap fun
    | .accepted r => some r
    | _ => none

/-- Whether the note is of a checkpoint that could not be written. -/
def Note.isFailure : Note → Bool
  | wrote _ (.error _) => true
  | _ => false

/-- Whether the note is of a checkpoint or of the end of a run. -/
def Note.closes : Note → Bool
  | wrote _ _ => true
  | told _ sent => sent.any Sent.isTerminal
  | _ => false

namespace Session

/-- What is noted of a step, with what it sent. -/
def notes (s : Session) (d : Disk) (workspace : Path) (sent : List Sent) : Step → List Note
  | .enter _ | .giveUp => []
  | .walk _ | .tell => (s.active.map fun (r, _) => .told r sent).toList
  | .answer outcome => (s.active.map fun (r, _) => [.recalled r outcome, .told r sent]).getD []
  | .save now =>
    match s.active with
    | some (r, .walking (.ended outcome st)) =>
      [.wrote r (Checkpoint.append d (sessionRoot workspace s.id) s.id outcome.status st
        outcome.failure now).1]
    | _ => []

end Session

namespace Course

def take (workspace : Path) (w : Course) : Turn → Course
  | .message text =>
    match w.session.accept text with
    | .ok t => { w with
        session := t
        log := w.log ++ [.accepted ⟨w.session.count, w.session.token, text⟩] }
    | .error _ => w
  | .cancel => { w with session := w.session.cancel }
  | .stop => { w with session := w.session.stop }
  | .step x =>
    match w.session.advance w.disk workspace x with
    | some (t, e, sent) => ⟨t, e, w.log ++ w.session.notes w.disk workspace sent x⟩
    | none => w

def play (workspace : Path) (turns : List Turn) (w : Course) : Course :=
  turns.foldl (take workspace) w

/-- No write of a checkpoint has failed. -/
def Written (log : List Note) : Prop := ∀ x ∈ log, x.isFailure = false

instance (log : List Note) : Decidable (Written log) :=
  inferInstanceAs (Decidable (∀ x ∈ log, x.isFailure = false))

end Course

/-- How a run ended: its checkpoint, its last event, and its reply if it has one. -/
structure End where
  run : Run
  checkpoint : Checkpoint
  event : Event
  reply : Option String

namespace End

/-- The report of a checkpoint. -/
def snapshot (e : End) : Sent :=
  .report Method.snapshot (Json.object [("sessionId", .str e.checkpoint.sessionId),
    ("sequence", .nat e.checkpoint.index), ("state", e.checkpoint.state.toJson)])

/-- The checkpoint is written, and then it is reported and the end is told. -/
def notes (e : End) : List Note :=
  [.wrote e.run (.ok e.checkpoint), .told e.run [e.snapshot, .event e.event]]

/-- What the run has added to the conversation. -/
def messages (e : End) : List ChatMessage :=
  .user e.run.message :: (e.reply.map ChatMessage.assistant).toList

/-- What a run was told that asked the memory. -/
def remembered : Except Error Json → List String
  | .ok answer => memoryHits answer
  | .error _ => []

/-- A run that was completed has replied to its message, with what the memory answered it; one that was
cancelled has not, and its token is spent. -/
inductive Right (w : Course) (e : End) : Prop
  | completed (outcome : Except Error Json) (status : e.checkpoint.status = .completed)
    (event : e.event = .done false) (recalled : Note.recalled e.run outcome ∈ w.log)
    (reply : e.reply = some (Node.replyText e.run.message (remembered outcome)))
  | cancelled (status : e.checkpoint.status = .cancelled) (event : e.event = .done true)
    (reply : e.reply = none) (spent : w.session.isCancelled e.run = true)

end End

/-- What happened in a session, now that no run of it is left: `ends`, in the order of the checkpoints.
It started from a state, on a disk where its largest checkpoint was `first`. -/
structure Story (workspace : Path) (start : State) (first : Nat) (ends : List End) (w : Course) :
    Prop where
  distinct : (accepted w.log).Nodup
  /-- Each message that was accepted has one end. -/
  runs : (ends.map End.run).Perm (accepted w.log)
  /-- There are no other checkpoints and no other last events. -/
  closed : w.log.filter Note.closes = ends.flatMap End.notes
  right : ∀ e ∈ ends, e.Right w
  /-- The indices grow by one, as long as they have 64 bits. -/
  indices : ∀ k e, ends[k]? = some e → first + k + 1 < bitBound 64 →
    e.checkpoint.index = first + k + 1
  /-- The last one's is the largest in the session's directory. -/
  newest : first + ends.length < bitBound 64 →
    Checkpoint.newest w.disk (sessionRoot workspace w.session.id) = first + ends.length
  /-- A checkpoint has what was said until then. -/
  states : ∀ k e, ends[k]? = some e →
    e.checkpoint.state.messages = start.messages ++ (ends.take (k + 1)).flatMap End.messages
  messages : w.session.state.messages = start.messages ++ ends.flatMap End.messages

end Graph

end Fleet
