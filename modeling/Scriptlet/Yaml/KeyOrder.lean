import Scriptlet.Text.Digit
import Scriptlet.Text.Letter

/-!
# The order of keys

Keys are written in an order in which numbers inside them count as numbers, so
that `a2` comes before `a10`. Two keys are told apart at their first difference:
two letters by code point; a letter after any other character, but before it
where a number just ends; and otherwise the numbers that begin there are
compared, then their lengths, then the characters.
-/

namespace Scriptlet.Yaml.KeyOrder

/-- The number that the digits at the front continue from `n`, and their count. -/
def digitRun (n : Int64) (cs : List Char) : Int64 × Nat :=
  let ds := cs.takeWhile Text.isDigit
  (ds.foldl (fun m d => m * 10 + (Int64.ofNat d.toNat - 48)) n, ds.length)

/-- Whether the digits just before a place, the last first, are not all zero. -/
def nonzeroBefore (before : List Char) : Bool :=
  (before.takeWhile Text.isDigit).any (· != '0')

/-- The order of two keys that differ at their first character and share the
characters `before` it, the last first. -/
def differing (before : List Char) (a b : Char) (as bs : List Char) : Bool :=
  match Text.isLetter a, Text.isLetter b with
  | true, true => a < b
  | true, false => before.head?.any Text.isDigit
  | false, true => !before.head?.any Text.isDigit
  | false, false =>
      let start : Int64 := if (a == '0' || b == '0') && nonzeroBefore before then 1 else 0
      let (m, i) := digitRun start (a :: as)
      let (n, j) := digitRun start (b :: bs)
      if m ≠ n then m < n else if i ≠ j then i < j else a < b

/-- Whether the first key comes before the second, when they share the characters
`before`, the last first. -/
def lessFrom (before : List Char) : List Char → List Char → Bool
  | a :: as, b :: bs =>
      if a = b then lessFrom (a :: before) as bs else differing before a b as bs
  | [], _ :: _ => true
  | _, [] => false

/-- Whether the first key comes before the second. -/
def less (a b : String) : Bool :=
  lessFrom [] a.toList b.toList

/-- Entries in the order of their keys. -/
def sort {α : Type} (entries : List (String × α)) : List (String × α) :=
  entries.mergeSort fun a b => !less b.1 a.1

end Scriptlet.Yaml.KeyOrder
