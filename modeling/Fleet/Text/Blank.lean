import Fleet.Text.Ranges

/-!
White space, and the words that it separates.
-/

namespace Fleet.Text

/-- The characters that count as white space. -/
def blankRanges : List (Nat × Nat) := [
  (9, 13), (32, 32), (133, 133), (160, 160), (5760, 5760), (8192, 8202), (8232, 8233),
  (8239, 8239), (8287, 8287), (12288, 12288)]

def isBlank (c : Char) : Bool := inRanges blankRanges c.toNat

def dropBlanks : List Char → List Char
  | [] => []
  | c :: cs => if isBlank c then dropBlanks cs else c :: cs

/-- A text without the blanks at its ends. -/
def trim (s : String) : String :=
  String.ofList (dropBlanks (dropBlanks s.toList).reverse).reverse

def isAllBlank (s : String) : Bool := s.toList.all isBlank

/-- How many runs of characters other than blanks there are, given whether one is open. -/
def countWords : Bool → List Char → Nat
  | _, [] => 0
  | within, c :: cs =>
    if isBlank c then countWords false cs
    else (if within then 0 else 1) + countWords true cs

def wordCount (s : String) : Nat := countWords false s.toList

end Fleet.Text
