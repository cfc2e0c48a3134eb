import Scriptlet.Error
import Scriptlet.Number.Numeral
import Scriptlet.Text.Blank

/-!
# From source to tokens

`tokenize` cuts a source into tokens. Blanks, control characters and comments
separate tokens and are dropped. A string literal runs from quote to quote, over
lines if need be, and knows no escapes. Symbols stand for themselves, and some of
them join a directly following equals sign. All other characters form words,
which `classify` sorts into literals, reserved words and names.

The only error is a string literal that is never closed, and the tokens before it
are kept. Each step leaves a shorter rest, which is why the reading ends.
-/

namespace Scriptlet

namespace Lexer

/-- The lexeme of a character that stands for itself. -/
def symbol? : Char → Option Lexeme
  | '=' => some (.op .set)
  | '*' => some (.op .mul)
  | '/' => some (.op .div)
  | '%' => some (.op .rem)
  | '+' => some (.op .add)
  | '-' => some (.op .sub)
  | '>' => some (.op .gt)
  | '<' => some (.op .lt)
  | '(' => some .openParen
  | ')' => some .closeParen
  | '{' => some .openBrace
  | '}' => some .closeBrace
  | ';' => some .semicolon
  | ',' => some .comma
  | '&' => some .ref
  | _ => none

/-- What an operator becomes when an equals sign follows directly. -/
def withEquals? : Lexeme → Option Lexeme
  | .op .set => some (.op .eq)
  | .op .lt => some (.op .le)
  | .op .gt => some (.op .ge)
  | .op .add => some (.op .addSet)
  | .op .sub => some (.op .subSet)
  | .op .mul => some (.op .mulSet)
  | .op .div => some (.op .divSet)
  | _ => none

/-- The symbol that begins with the character read as `first`, its length, and the
characters after it. -/
def symbol (first : Lexeme) (cs : List Char) : Lexeme × Nat × List Char :=
  match withEquals? first, cs with
  | some joined, '=' :: rest => (joined, 2, rest)
  | _, _ => (first, 1, cs)

/-- Whether a character belongs to the word before it. -/
def inWord (c : Char) : Bool :=
  !(Text.isBlank c || c == '"' || c == '#' || (symbol? c).isSome)

/-- Whether a character belongs to the comment before it. -/
def inComment (c : Char) : Bool :=
  c != '\n' && c != '\r'

/-- The characters up to the next quote, and those after it. -/
def untilQuote : List Char → Option (List Char × List Char)
  | [] => none
  | c :: cs =>
      if c == '"' then some ([], cs) else (untilQuote cs).map fun (text, rest) => (c :: text, rest)

/-- A character in the form that does not tell cases apart, for the letters of the
truth values. The long s is a form of s. -/
def fold (c : Char) : Char :=
  if c.toNat == 0x17f then 's' else Numeral.lower c

/-- The truth value that a word spells, in any case. -/
def truth? (word : List Char) : Option Bool :=
  if word.map fold == "true".toList then some true
  else if word.map fold == "false".toList then some false
  else none

/-- Whether a word that is no integer may still be a number. -/
def startsNumeric : List Char → Bool
  | [] => false
  | c :: _ => Numeral.isDigit c || c == '.'

/-- The reserved word or operator that a word spells. -/
def reserved? : String → Option Lexeme
  | "AND" => some (.op .and)
  | "OR" => some (.op .or)
  | "IF" => some (.keyword .ifWord)
  | "WHILE" => some (.keyword .whileWord)
  | "DEF" => some (.keyword .defWord)
  | "IMP" => some (.keyword .impWord)
  | "FOR" => some (.keyword .forWord)
  | "IN" => some (.keyword .inWord)
  | "BREAK" => some (.keyword .breakWord)
  | "CONTINUE" => some (.keyword .continueWord)
  | "RETURN" => some (.keyword .returnWord)
  | _ => none

/-- The number that a word spells, an integer if it can be one. -/
def number? (word : List Char) : Option Lexeme :=
  match Numeral.int? word with
  | some n => some (.int (String.ofList word) n)
  | none =>
      if startsNumeric word then
        (Numeral.float? word).map fun x => .float (String.ofList word) x
      else none

/-- The lexeme of a word: a truth value, else a number, else a reserved word, else
a name. -/
def classify (word : List Char) : Lexeme :=
  let spelled := String.ofList word
  match truth? word with
  | some b => .bool spelled b
  | none => (number? word <|> reserved? spelled).getD (.name spelled)

theorem untilQuote_length {cs text rest : List Char} (h : untilQuote cs = some (text, rest)) :
    cs.length = text.length + rest.length + 1 := by
  induction cs generalizing text with
  | nil => simp [untilQuote] at h
  | cons c cs ih =>
      unfold untilQuote at h
      split at h
      · simp only [Option.some.injEq, Prod.mk.injEq] at h
        obtain ⟨rfl, rfl⟩ := h
        simp
      · obtain ⟨⟨t, r⟩, ht, heq⟩ := Option.map_eq_some_iff.1 h
        simp only [Prod.mk.injEq] at heq
        obtain ⟨rfl, rfl⟩ := heq
        simp [ih ht]
        omega

theorem symbol_length (first : Lexeme) (cs : List Char) :
    (symbol first cs).2.2.length ≤ cs.length := by
  unfold symbol
  split <;> simp

theorem length_dropWhile_le (p : Char → Bool) (cs : List Char) :
    (cs.dropWhile p).length ≤ cs.length :=
  (List.dropWhile_sublist p).length_le

end Lexer

/-- The tokens of a source, and the error at which reading ended, if any. -/
structure Lexed where
  tokens : List Token
  error? : Option Error

namespace Lexed

/-- One more token in front. -/
def cons (t : Token) (l : Lexed) : Lexed :=
  { l with tokens := t :: l.tokens }

/-- The tokens, unless reading ended in an error. -/
def toExcept (l : Lexed) : Except Error (List Token) :=
  match l.error? with
  | some e => .error e
  | none => .ok l.tokens

theorem toExcept_of_closed {l : Lexed} (h : l.error?.isNone) : l.toExcept = .ok l.tokens := by
  rw [toExcept, Option.isNone_iff_eq_none.1 h]

theorem tokens_of_toExcept {l : Lexed} {ts : List Token} (h : l.toExcept = .ok ts) :
    l.tokens = ts := by
  unfold toExcept at h
  split at h
  · cases h
  · cases h
    rfl

end Lexed

namespace Lexer

/-- The tokens of the characters that follow the place `p`. -/
def tokensFrom (p : Position) : List Char → Lexed
  | [] => ⟨[], none⟩
  | c :: cs =>
      if c == '#' then
        tokensFrom (p.after (c :: cs.takeWhile inComment)) (cs.dropWhile inComment)
      else if Text.isBlank c || Text.isControl c then tokensFrom (p.next c) cs
      else if c == '"' then
        match _h : untilQuote cs with
        | none => ⟨[], some (Cause.unterminatedString.located p)⟩
        | some (text, rest) =>
            Lexed.cons ⟨.string (String.ofList text), p, text.length + 2⟩
              (tokensFrom ((p.next c).after (text ++ ['"'])) rest)
      else
        match symbol? c with
        | some first =>
            let read := symbol first cs
            Lexed.cons ⟨read.1, p, read.2.1⟩
              (tokensFrom (p.after ((c :: cs).take read.2.1)) read.2.2)
        | none =>
            let run := cs.takeWhile inWord
            let word := c :: run.filter (!Text.isControl ·)
            Lexed.cons ⟨classify word, p, run.length + 1⟩
              (tokensFrom (p.after (c :: run)) (cs.dropWhile inWord))
termination_by cs => cs.length
decreasing_by
  · simpa using Nat.lt_succ_of_le (length_dropWhile_le inComment cs)
  · simp
  · have := untilQuote_length _h
    simp only [List.length_cons]
    omega
  · simpa using Nat.lt_succ_of_le (symbol_length first cs)
  · simpa using Nat.lt_succ_of_le (length_dropWhile_le inWord cs)

end Lexer

/-- The tokens of a source. -/
def tokenize (source : String) : Lexed :=
  Lexer.tokensFrom Position.start source.toList

end Scriptlet
