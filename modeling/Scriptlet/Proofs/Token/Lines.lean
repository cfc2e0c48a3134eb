import Scriptlet.Proofs.Program.Places
import Scriptlet.Token.Lexer

/-!
# Reading line by line

A line feed ends whatever was being read, except for a string literal. So two sources on
lines of their own are read as they are read alone, up to the places of the second one, as
long as the first closes its literals. The main statement is `Lexer.tokensFrom_line`.
-/

namespace Scriptlet

namespace Lexed

/-- More tokens in front. -/
def append (ts : List Token) (l : Lexed) : Lexed :=
  { l with tokens := ts ++ l.tokens }

theorem append_nil (l : Lexed) : l.append [] = l :=
  rfl

theorem append_append (ts us : List Token) (l : Lexed) :
    (l.append us).append ts = l.append (ts ++ us) := by
  simp only [append, List.append_assoc]

/-- The tokens and the error without their places. -/
def unplaced (l : Lexed) : Lexed :=
  ⟨l.tokens.map Token.unplaced, l.error?.map Error.unplaced⟩

theorem unplaced_cons (t : Token) (l : Lexed) :
    (l.cons t).unplaced = l.unplaced.cons t.unplaced :=
  rfl

theorem unplaced_append (ts : List Token) (l : Lexed) :
    (l.append ts).unplaced = l.unplaced.append (ts.map Token.unplaced) := by
  simp only [append, unplaced, List.map_append]

end Lexed

namespace Lexer

variable {c : Char} {cs : List Char}

/-! ### The forms of a token -/

theorem tokensFrom_nil (p : Position) : tokensFrom p [] = ⟨[], none⟩ := by
  rw [tokensFrom]

theorem tokensFrom_comment (h : c == '#') (p : Position) :
    tokensFrom p (c :: cs) =
      tokensFrom (p.after (c :: cs.takeWhile inComment)) (cs.dropWhile inComment) := by
  rw [tokensFrom, if_pos h]

theorem tokensFrom_blank (hcomment : ¬c == '#') (h : Text.isBlank c || Text.isControl c)
    (p : Position) : tokensFrom p (c :: cs) = tokensFrom (p.next c) cs := by
  rw [tokensFrom, if_neg hcomment, if_pos h]

theorem tokensFrom_string (hcomment : ¬c == '#') (hblank : ¬(Text.isBlank c || Text.isControl c))
    (h : c == '"') (p : Position) :
    tokensFrom p (c :: cs) =
      match untilQuote cs with
      | none => ⟨[], some (Cause.unterminatedString.located p)⟩
      | some (text, rest) =>
          Lexed.cons ⟨.string (String.ofList text), p, text.length + 2⟩
            (tokensFrom ((p.next c).after (text ++ ['"'])) rest) := by
  rw [tokensFrom, if_neg hcomment, if_neg hblank, if_pos h]
  split <;> rename_i hq <;> rw [hq]

theorem tokensFrom_symbol {first : Lexeme} (hcomment : ¬c == '#')
    (hblank : ¬(Text.isBlank c || Text.isControl c)) (hquote : ¬c == '"')
    (h : symbol? c = some first) (p : Position) :
    tokensFrom p (c :: cs) =
      Lexed.cons ⟨(symbol first cs).1, p, (symbol first cs).2.1⟩
        (tokensFrom (p.after ((c :: cs).take (symbol first cs).2.1)) (symbol first cs).2.2) := by
  rw [tokensFrom, if_neg hcomment, if_neg hblank, if_neg hquote, h]

theorem tokensFrom_word (hcomment : ¬c == '#') (hblank : ¬(Text.isBlank c || Text.isControl c))
    (hquote : ¬c == '"') (h : symbol? c = none) (p : Position) :
    tokensFrom p (c :: cs) =
      Lexed.cons
        ⟨classify (c :: (cs.takeWhile inWord).filter (!Text.isControl ·)), p,
          (cs.takeWhile inWord).length + 1⟩
        (tokensFrom (p.after (c :: cs.takeWhile inWord)) (cs.dropWhile inWord)) := by
  rw [tokensFrom, if_neg hcomment, if_neg hblank, if_neg hquote, h]

/-- What is read does not depend on the place where it stands. -/
theorem unplaced_tokensFrom (p q : Position) (cs : List Char) :
    (tokensFrom p cs).unplaced = (tokensFrom q cs).unplaced := by
  induction p, cs using tokensFrom.induct generalizing q with
  | case1 p => rw [tokensFrom_nil, tokensFrom_nil]
  | case2 p c cs h ih =>
      rw [tokensFrom_comment h, tokensFrom_comment h]
      exact ih _
  | case3 p c cs hcomment h ih =>
      rw [tokensFrom_blank hcomment h, tokensFrom_blank hcomment h]
      exact ih _
  | case4 p c cs hcomment hblank h hq =>
      rw [tokensFrom_string hcomment hblank h, tokensFrom_string hcomment hblank h, hq]
      rfl
  | case5 p c cs hcomment hblank h text rest hq ih =>
      rw [tokensFrom_string hcomment hblank h, tokensFrom_string hcomment hblank h, hq]
      exact congrArg (Lexed.cons _) (ih _)
  | case6 p c cs hcomment hblank hquote first h read ih =>
      rw [tokensFrom_symbol hcomment hblank hquote h, tokensFrom_symbol hcomment hblank hquote h]
      exact congrArg (Lexed.cons _) (ih _)
  | case7 p c cs hcomment hblank hquote h run ih =>
      rw [tokensFrom_word hcomment hblank hquote h, tokensFrom_word hcomment hblank hquote h]
      exact congrArg (Lexed.cons _) (ih _)

/-! ### Up to a line feed -/

theorem isBlank_lineFeed : Text.isBlank '\n' = true := by
  decide +kernel

theorem inWord_lineFeed : inWord '\n' = false := by
  rw [inWord, isBlank_lineFeed]
  rfl

theorem tokensFrom_lineFeed (p : Position) (cs : List Char) :
    tokensFrom p ('\n' :: cs) = tokensFrom (p.next '\n') cs :=
  tokensFrom_blank (by decide) (by rw [isBlank_lineFeed, Bool.true_or]) p

theorem takeWhile_line {more : Char → Bool} (h : more '\n' = false) (cs rest : List Char) :
    (cs ++ '\n' :: rest).takeWhile more = cs.takeWhile more := by
  induction cs with
  | nil => rw [List.nil_append, List.takeWhile_cons, h]; rfl
  | cons c cs ih => rw [List.cons_append, List.takeWhile_cons, List.takeWhile_cons, ih]

theorem dropWhile_line {more : Char → Bool} (h : more '\n' = false) (cs rest : List Char) :
    (cs ++ '\n' :: rest).dropWhile more = cs.dropWhile more ++ '\n' :: rest := by
  induction cs with
  | nil => rw [List.nil_append, List.dropWhile_cons, h]; rfl
  | cons c cs ih =>
      rw [List.cons_append, List.dropWhile_cons, List.dropWhile_cons, ih]
      split <;> rfl

theorem untilQuote_append {text after : List Char} (h : untilQuote cs = some (text, after))
    (more : List Char) : untilQuote (cs ++ more) = some (text, after ++ more) := by
  induction cs generalizing text with
  | nil => cases h
  | cons c cs ih =>
      rw [List.cons_append]
      unfold untilQuote at h ⊢
      split at h
      · rename_i hquote
        cases h
        rw [if_pos hquote]
      · rename_i hquote
        obtain ⟨⟨text', after'⟩, hcs, heq⟩ := Option.map_eq_some_iff.1 h
        cases heq
        rw [if_neg hquote, ih hcs]
        rfl

/-- No symbol takes in a line feed. -/
theorem symbol_line (first : Lexeme) (cs rest : List Char) :
    symbol first (cs ++ '\n' :: rest) =
      ((symbol first cs).1, (symbol first cs).2.1, (symbol first cs).2.2 ++ '\n' :: rest) := by
  unfold symbol
  cases withEquals? first with
  | none => rfl
  | some joined =>
      cases cs with
      | nil => rfl
      | cons c cs =>
          by_cases hc : c = '='
          · subst hc
            rfl
          · simp [hc]

/-- A source whose literals are closed and a source on the next line are read one after the
other. -/
theorem tokensFrom_line {p : Position} (h : (tokensFrom p cs).error? = none) (q : Position)
    (rest : List Char) :
    (tokensFrom p (cs ++ '\n' :: rest)).unplaced =
      ((tokensFrom q rest).append (tokensFrom p cs).tokens).unplaced := by
  induction p, cs using tokensFrom.induct with
  | case1 p =>
      rw [List.nil_append, tokensFrom_lineFeed, tokensFrom_nil]
      exact unplaced_tokensFrom _ q rest
  | case2 p c cs hc ih =>
      rw [tokensFrom_comment hc] at h ⊢
      rw [List.cons_append, tokensFrom_comment hc, takeWhile_line (by decide),
        dropWhile_line (by decide)]
      exact ih h
  | case3 p c cs hcomment hblank ih =>
      rw [tokensFrom_blank hcomment hblank] at h ⊢
      rw [List.cons_append, tokensFrom_blank hcomment hblank]
      exact ih h
  | case4 p c cs hcomment hblank hc hq =>
      rw [tokensFrom_string hcomment hblank hc, hq] at h
      cases h
  | case5 p c cs hcomment hblank hc text after hq ih =>
      rw [tokensFrom_string hcomment hblank hc, hq] at h ⊢
      rw [List.cons_append, tokensFrom_string hcomment hblank hc, untilQuote_append hq]
      exact congrArg (Lexed.cons _) (ih h)
  | case6 p c cs hcomment hblank hquote first hc read ih =>
      rw [tokensFrom_symbol hcomment hblank hquote hc] at h ⊢
      rw [List.cons_append, tokensFrom_symbol hcomment hblank hquote hc, symbol_line]
      -- The place after the symbol is counted on the longer text.
      rw [Lexed.unplaced_cons, unplaced_tokensFrom _ (p.after ((c :: cs).take read.2.1))]
      exact congrArg (Lexed.cons _) (ih h)
  | case7 p c cs hcomment hblank hquote hc run ih =>
      rw [tokensFrom_word hcomment hblank hquote hc] at h ⊢
      rw [List.cons_append, tokensFrom_word hcomment hblank hquote hc,
        takeWhile_line inWord_lineFeed, dropWhile_line inWord_lineFeed]
      exact congrArg (Lexed.cons _) (ih h)

theorem symbol_alone {first : Lexeme} (h : withEquals? first = none) (cs : List Char) :
    symbol first cs = (first, 1, cs) := by
  unfold symbol
  rw [h]

/-- A symbol that joins no equals sign is a token by itself. -/
theorem tokensFrom_alone {first : Lexeme} (hcomment : ¬c == '#')
    (hblank : ¬(Text.isBlank c || Text.isControl c)) (hquote : ¬c == '"')
    (h : symbol? c = some first) (hequals : withEquals? first = none) (p : Position) :
    (tokensFrom p (c :: cs)).unplaced = (tokensFrom p cs).unplaced.cons ⟨first, .start, 1⟩ := by
  rw [tokensFrom_symbol hcomment hblank hquote h, symbol_alone hequals, Lexed.unplaced_cons,
    unplaced_tokensFrom _ p]
  rfl

end Lexer

/-! ### Sources -/

open Lexer

/-- Two sources with a semicolon on a line between them. -/
theorem tokenize_joined {a : String} (h : (tokenize a).error? = none) (b : String) :
    (tokenize (a ++ "\n;\n" ++ b)).unplaced =
      (((tokenize b).cons ⟨.semicolon, .start, 1⟩).append (tokenize a).tokens).unplaced := by
  have hchars : (a ++ "\n;\n" ++ b).toList = a.toList ++ '\n' :: ';' :: '\n' :: b.toList := by
    simp [String.toList_append]
  unfold tokenize at h ⊢
  rw [hchars, tokensFrom_line h .start, Lexed.unplaced_append, Lexed.unplaced_append,
    tokensFrom_alone (by decide) (by decide +kernel) (by decide) rfl rfl, tokensFrom_lineFeed,
    unplaced_tokensFrom _ .start]
  rfl

/-- A source between braces on lines of their own. -/
theorem tokenize_braced {a : String} (h : (tokenize a).error? = none) :
    (tokenize ("\x7b\n" ++ a ++ "\n\x7d")).unplaced =
      (Lexed.mk (⟨.openBrace, .start, 1⟩ :: ((tokenize a).tokens ++ [⟨.closeBrace, .start, 1⟩]))
        none).unplaced := by
  have hchars : ("\x7b\n" ++ a ++ "\n\x7d").toList =
      '\x7b' :: '\n' :: (a.toList ++ '\n' :: ['\x7d']) := by
    simp [String.toList_append]
  unfold tokenize at h ⊢
  rw [hchars, tokensFrom_alone (by decide) (by decide +kernel) (by decide) rfl rfl,
    tokensFrom_lineFeed, unplaced_tokensFrom _ .start, tokensFrom_line h .start,
    Lexed.unplaced_append,
    tokensFrom_alone (by decide) (by decide +kernel) (by decide) rfl rfl, tokensFrom_nil]
  simp [Lexed.unplaced, Lexed.append, Lexed.cons, Token.unplaced]

end Scriptlet
