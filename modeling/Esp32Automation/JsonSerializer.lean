import Esp32Automation.Json

/-!
# serializeJson

The text of a document, without white space. A floating-point number, which no document of
the sketches holds, is given no text here.
-/
namespace Esp32Automation

namespace JsonSerializer

/-- `EscapeSequence::escapeChar`. -/
def escapeChar (c : UInt8) : Option UInt8 :=
  if c = 34 ∨ c = 92 then some c
  else if c = 8 then some 98
  else if c = 12 then some 102
  else if c = 10 then some 110
  else if c = 13 then some 114
  else if c = 9 then some 116
  else none

/-- `TextFormatter::writeChar`. -/
def writeChar (c : UInt8) : List UInt8 :=
  match escapeChar c with
  | some special => [92, special]
  | none => if c = 0 then ascii "\\u0000" else [c]

/-- `TextFormatter::writeString`. -/
def writeString (s : List UInt8) : List UInt8 := 34 :: (s.flatMap writeChar ++ [34])

/-- The texts of the elements or members, with commas between them. -/
def separate : List (List UInt8) → List UInt8
  | [] => []
  | [t] => t
  | t :: ts => t ++ 44 :: separate ts

mutual

/-- `JsonSerializer::visit`. -/
def visit : Json → Option (List UInt8)
  | .null => some (ascii "null")
  | .boolean b => some (ascii (if b then "true" else "false"))
  | .integer n => some (ascii (toString n))
  | .float _ | .double _ => none
  | .string s => some (writeString s)
  | .array elements => (visitElements elements).map fun ts => 91 :: (separate ts ++ [93])
  | .object members => (visitMembers members).map fun ts => 123 :: (separate ts ++ [125])

def visitElements : List Json → Option (List (List UInt8))
  | [] => some []
  | j :: js => (visit j).bind fun t => (visitElements js).map fun ts => t :: ts

def visitMembers : List (List UInt8 × Json) → Option (List (List UInt8))
  | [] => some []
  | (key, j) :: ms =>
    (visit j).bind fun t => (visitMembers ms).map fun ts => (writeString key ++ 58 :: t) :: ts

end

end JsonSerializer

/-- `serializeJson(doc, buffer)` into `size` bytes: what is written. -/
def serializeJson (doc : Json) (size : ℕ) : Option (List UInt8) :=
  (JsonSerializer.visit doc).map fun text => text.take size

end Esp32Automation
