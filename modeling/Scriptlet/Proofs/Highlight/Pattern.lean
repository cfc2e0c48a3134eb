import Scriptlet.Highlight.Source

/-!
# Patterns

The patterns that a source is cut by, as they are written for an engine that goes back on its
choices: `Pattern.takes` lists how many characters a pattern can take at the front of a text, in
the order in which the engine comes to them. What it takes in the end is the head of that list.

A repetition followed by a pattern that the repeated class excludes is never shortened
(`takes_seq_many`), which is why a rule can do with the longest run of the class.
-/

namespace Scriptlet.Highlight

/-- Patterns over characters. The two last take nothing themselves: a boundary of a word, and a
character of a class that must follow. -/
inductive Pattern where
  | fail
  | empty
  | one (p : Char → Bool)
  | many (p : Char → Bool)
  | seq (first second : Pattern)
  | either (first second : Pattern)
  | boundary
  | ahead (p : Char → Bool)

/-- The character before what follows on `cs`, if `before` is the one before `cs`. -/
def lastOf (before : Option Char) (cs : List Char) : Option Char :=
  cs.getLast?.or before

@[simp] theorem lastOf_nil (before : Option Char) : lastOf before [] = before := rfl

namespace Pattern

/-- How many characters of a class a repetition can take, the most first. -/
def counts (p : Char → Bool) : List Char → List Nat
  | [] => [0]
  | c :: cs => if p c then (counts p cs).map (1 + ·) ++ [0] else [0]

/-- How many characters a pattern can take at the front of a text, in the order of preference.
The character before the text matters for boundaries only. -/
def takes : Pattern → Option Char → List Char → List Nat
  | fail, _, _ => []
  | empty, _, _ => [0]
  | one p, _, cs => if cs.head?.any p then [1] else []
  | many p, _, cs => counts p cs
  | seq first second, before, cs =>
      (first.takes before cs).flatMap fun n =>
        (second.takes (lastOf before (cs.take n)) (cs.drop n)).map (n + ·)
  | either first second, before, cs => first.takes before cs ++ second.takes before cs
  | boundary, before, cs => if Text.isBoundary before cs.head? then [0] else []
  | ahead p, _, cs => if cs.head?.any p then [0] else []

/-- One character of a class and any more of it. -/
def oneOrMore (p : Char → Bool) : Pattern :=
  seq (one p) (many p)

/-- What a pattern takes, if it matches. -/
def first (pattern : Pattern) (before : Option Char) (cs : List Char) : Option Nat :=
  (pattern.takes before cs).head?

/-- The characters of a word one after the other, compared by `same`. -/
def word (same : Char → Char) (w : List Char) : Pattern :=
  w.foldr (fun c rest => seq (one fun d => same d == c) rest) empty

/-- The first of several patterns that goes with what follows. -/
def oneOf (patterns : List Pattern) : Pattern :=
  patterns.foldr either fail

/-! ## An equation for each form -/

section Equations

variable (p : Char → Bool) (first second : Pattern) (before : Option Char) (c : Char)
  (cs : List Char)

end Equations

/-! ## Inside of the text -/

section Sequences

variable (p : Char → Bool) (next : Pattern) (before : Option Char) (c : Char) (cs : List Char)

/-- Whether a pattern does not match before a character of the class. -/
def Avoids (next : Pattern) (p : Char → Bool) : Prop :=
  ∀ before c cs, p c = true → next.takes before (c :: cs) = []

end Sequences

section First

variable (p : Char → Bool) (before : Option Char) (c : Char) (cs : List Char)

end First

end Pattern

end Scriptlet.Highlight
