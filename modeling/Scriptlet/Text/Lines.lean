/-!
# Line ends

Texts from different systems end their lines in a carriage return, a line feed or
both. Here they are brought to the line feed alone.
-/

namespace Scriptlet.Text

/-- The text in which every line ends in a line feed alone. -/
def normalizeLines : List Char → List Char
  | [] => []
  | '\r' :: '\n' :: cs => '\n' :: normalizeLines cs
  | c :: cs => (if c == '\r' then '\n' else c) :: normalizeLines cs

end Scriptlet.Text
