import Fleet.Json.Reader
import Fleet.Json.Stream

/-!
The claims that every token may make: expiry, start, subject, issuer and audience. They are read
apart from the claims that matter here, and leniently: a claim of the wrong kind counts as none, and
the reading goes on from where that claim stopped to fit. So a claim of the wrong kind may leave
something that is no JSON.
-/

namespace Fleet.Token.Registered

open Json (Document ReadError)
open Json.Stream

/-- How a claim's value is read. -/
inductive Kind where
  /-- A number; a container is entered and left at once. -/
  | time
  /-- A text; a container is not entered. -/
  | subject
  /-- A text or a list of texts; any value is read whole. -/
  | parties
  deriving DecidableEq, Repr

def kinds : List (String × Kind) :=
  [("exp", .time), ("nbf", .time), ("sub", .subject), ("iss", .parties), ("aud", .parties)]

/-- Whether a claim names whom the token is for. -/
def namesParties : Document → Bool
  | .text _ => true
  | .list items => items.all fun d => match d with
    | .text _ => true
    | _ => false
  | _ => false

/-- Reads a claim as far as it fits. -/
def claim (kind : Kind) (input : Input) : Reading Document :=
  match kind, skipBlanks input with
  | .time, some '[' :: rest => ⟨none, (endList rest).rest⟩
  | .time, some '\x7b' :: rest => ⟨none, (endRecord rest).rest⟩
  | .parties, here => value true (fuel here) (Json.depthLimit - 1) here
  | _, here => leaf true here

/-- Reads the members of the claims. The result is whether an audience is named. -/
def members : Nat → Bool → List String → Bool → Input → Except ReadError Bool
  | 0, _, _, _, _ => .error .malformed
  | fuel + 1, first, seen, audience, input =>
    match nextName first input with
    | .wrong _ => .error .malformed
    | .close rest =>
      if (skipBlanks (rest.drop 1)).isEmpty then .ok audience else .error .malformed
    | .more rest =>
      match name true rest with
      | ⟨none, _⟩ => .error .malformed
      | ⟨some k, rest⟩ =>
        match kinds.lookup k with
        | none =>
          match skip rest with
          | ⟨none, _⟩ => .error .malformed
          | ⟨some _, rest⟩ => members fuel false seen audience rest
        | some kind =>
          if seen.contains k then .error (.duplicateField k)
          else
            let r := claim kind rest
            let named := k == "aud" && (r.value.map namesParties).getD false
            members fuel false (k :: seen) (audience || named) r.rest

/-- Whether claims that are a JSON value name an audience. -/
def audience (input : Input) : Except ReadError Bool :=
  match skipBlanks input with
  | some '\x7b' :: rest => members (rest.length + 1) true [] false rest
  | _ => .error (.invalidLength 4 "struct ClaimsForValidation with 5 elements")

end Fleet.Token.Registered
