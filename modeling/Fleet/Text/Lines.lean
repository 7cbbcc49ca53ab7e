import Fleet.Text.Utf8

/-!
Lines of a stream of bytes. A line ends with a newline, before which a carriage return is dropped;
what follows the last newline is a line once the stream ends.
-/

namespace Fleet.Text

/-- The complete lines of bytes, and what follows the last newline. -/
def splitLines : List UInt8 → List UInt8 → List (List UInt8) × List UInt8
  | acc, [] => ([], acc.reverse)
  | acc, b :: rest =>
    if b = 10 then
      let (lines, left) := splitLines [] rest
      (acc.reverse :: lines, left)
    else splitLines (b :: acc) rest

def dropReturn (line : List UInt8) : List UInt8 :=
  if line.getLast? = some 13 then line.dropLast else line

/-- What a reader of lines holds: the bytes after the last newline. -/
structure LineReader where
  pending : List UInt8 := []
  deriving DecidableEq, Repr, Inhabited

namespace LineReader

/-- Takes up bytes and gives the lines that they complete. -/
def feed (r : LineReader) (bytes : List UInt8) : List (List UInt8) × LineReader :=
  let (lines, left) := splitLines r.pending.reverse bytes
  (lines.map dropReturn, ⟨left⟩)

/-- The stream has ended: what is left is a line. -/
def rest (r : LineReader) : List (List UInt8) := if r.pending.isEmpty then [] else [r.pending]

end LineReader

end Fleet.Text
