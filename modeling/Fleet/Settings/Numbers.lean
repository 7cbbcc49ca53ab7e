import Fleet.Bits
import Fleet.Error
import Fleet.Text.Blank

/-!
Settings taken from an environment: a list of names with texts, looked up one by one.
-/

namespace Fleet.Settings

abbrev Env := List (String × String)

/-- Digits after an optional plus sign, as a number up to a limit. -/
def natural? (limit : Nat) (s : String) : Option Nat :=
  let ds := match s.toList with
    | '+' :: ds => ds
    | ds => ds
  if ds.isEmpty || !ds.all Char.isDigit then none
  else
    let n := ds.foldl (fun n c => n * 10 + (c.toNat - '0'.toNat)) 0
    if n ≤ limit then some n else none

/-- The number under a name. Blanks around it do not matter. -/
def number (bits : Nat) (key value : String) : Except Error Nat :=
  match natural? (bitBound bits - 1) (Text.trim value) with
  | some n => .ok n
  | none => .error (.config s!"{key} must be a number, got '{value}'")

/-- A text that counts only when it is not blank. -/
def unlessBlank (s : String) : Option String := if Text.isAllBlank s then none else some s

/-- A text in small letters, blanks at its ends dropped. ASCII letters only change. -/
def word (s : String) : String :=
  String.ofList ((Text.trim s).toList.map Char.toLower)

/-- What one name does to settings. -/
abbrev Rule (σ : Type) := String × (σ → String → Except Error σ)

/-- Applies rules in order. The first that fails ends it, and what was set before stays. -/
def overlay {σ : Type} (env : Env) : List (Rule σ) → σ → σ × Except Error Unit
  | [], s => (s, .ok ())
  | (key, set) :: rest, s =>
    match env.lookup key with
    | none => overlay env rest s
    | some v =>
      match set s v with
      | .ok s => overlay env rest s
      | .error e => (s, .error e)

end Fleet.Settings
