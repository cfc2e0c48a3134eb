import Mathlib.Data.List.Basic
import Scriptlet.Proofs.Token.Layout

/-!
# A literal that is never closed

Reading fails only at a quote that nothing closes. `Crosses` says that reading comes through
some characters in the same way whether the text ends behind them or goes on as it did, and
it holds of everything in front of that quote (`crosses_unclosed`). So the tokens in front of
the quote are those of the text that ends there, and one more quote at the end of the text
adds the literal to them. The main statement is `tokenize_unclosed`.
-/

namespace Scriptlet

namespace Lexer

variable {p : Position} {c : Char} {cs span before rest : List Char} {ts us : List Token}

/-- Whether `more` begins as `rest` does, if it is not empty. -/
def BeginsAs (rest more : List Char) : Prop :=
  ∀ c ∈ more.head?, c ∈ rest.head?

theorem beginsAs_nil (rest : List Char) : BeginsAs rest [] :=
  fun _ hc => by cases hc

theorem beginsAs_cons (c : Char) (cs ds : List Char) : BeginsAs (c :: cs) (c :: ds) :=
  fun _ hc => hc

/-- What follows on a common front may be exchanged for something that begins alike. -/
theorem BeginsAs.behind {more : List Char} (h : BeginsAs rest more) (front : List Char) :
    BeginsAs (front ++ rest) (front ++ more) := by
  cases front with
  | nil => exact h
  | cons c front => exact beginsAs_cons c _ _

/-- Reading comes through `span` from the place `p` with the tokens `ts`, whether the text ends
there or goes on as in `rest`. -/
def Crosses (p : Position) (span : List Char) (ts : List Token) (rest : List Char) : Prop :=
  ∀ more, BeginsAs rest more →
    tokensFrom p (span ++ more) = (tokensFrom (p.after span) more).append ts

theorem crosses_nil (p : Position) (rest : List Char) : Crosses p [] [] rest :=
  fun _ _ => rfl

theorem Crosses.trans (h : Crosses p span ts (before ++ rest))
    (hbefore : Crosses (p.after span) before us rest) :
    Crosses p (span ++ before) (ts ++ us) rest := by
  intro more hmore
  rw [List.append_assoc, h _ (hmore.behind before), hbefore more hmore, Lexed.append_append,
    Position.after_append]

/-! ### One step of reading -/

/-- Where a run of characters stopped it stops again. -/
theorem run_of_beginsAs {within : Char → Bool} {more : List Char} (cs : List Char)
    (h : BeginsAs (cs.dropWhile within) more) :
    (cs.takeWhile within ++ more).takeWhile within = cs.takeWhile within ∧
      (cs.takeWhile within ++ more).dropWhile within = more := by
  have hrun : ∀ c ∈ cs.takeWhile within, within c := fun _ hc => List.mem_takeWhile_imp hc
  rw [List.takeWhile_append_of_pos hrun, List.dropWhile_append_of_pos hrun]
  cases more with
  | nil => simp
  | cons c more =>
      have hc : ¬within c := by
        have hstop := List.head?_dropWhile_not within cs
        rw [Option.mem_def.1 (h c rfl)] at hstop
        simpa using hstop
      simp [hc]

theorem crosses_comment (h : c == '#') (p : Position) (cs : List Char) :
    Crosses p (c :: cs.takeWhile inComment) [] (cs.dropWhile inComment) := by
  intro more hmore
  obtain ⟨htake, hdrop⟩ := run_of_beginsAs cs hmore
  rw [List.cons_append, tokensFrom_comment h, htake, hdrop, Lexed.append_nil]

theorem crosses_blank (hcomment : ¬c == '#') (h : Text.isBlank c || Text.isControl c)
    (p : Position) (rest : List Char) : Crosses p [c] [] rest := by
  intro more _
  rw [List.singleton_append, tokensFrom_blank hcomment h]
  rfl

theorem crosses_string (hcomment : ¬c == '#') (hblank : ¬(Text.isBlank c || Text.isControl c))
    (h : c == '"') {text : List Char} (htext : '"' ∉ text) (p : Position) (rest : List Char) :
    Crosses p (c :: (text ++ ['"'])) [⟨.string (String.ofList text), p, text.length + 2⟩]
      rest := by
  intro more _
  have hchars : c :: (text ++ ['"']) ++ more = c :: (text ++ '"' :: more) := by simp
  rw [hchars, tokensFrom_string hcomment hblank h, untilQuote_text htext]
  rfl

/-- A symbol takes in an equals sign or leaves another character, and does so again. -/
theorem crosses_symbol {first : Lexeme} (hcomment : ¬c == '#')
    (hblank : ¬(Text.isBlank c || Text.isControl c)) (hquote : ¬c == '"')
    (h : symbol? c = some first) (p : Position) (cs : List Char) :
    Crosses p ((c :: cs).take (symbol first cs).2.1)
      [⟨(symbol first cs).1, p, (symbol first cs).2.1⟩] (symbol first cs).2.2 := by
  by_cases hjoin : ∃ joined rest, withEquals? first = some joined ∧ cs = '=' :: rest
  · obtain ⟨joined, rest, hjoined, rfl⟩ := hjoin
    rw [symbol_joined hjoined]
    intro more _
    change tokensFrom p (c :: '=' :: more) = _
    rw [tokensFrom_symbol hcomment hblank hquote h, symbol_joined hjoined]
    rfl
  · have halone (more : List Char) (hmore : BeginsAs cs more) :
        symbol first more = (first, 1, more) := by
      unfold symbol
      split
      · rename_i joined rest hjoined
        exact absurd ⟨joined, _, hjoined, List.eq_cons_of_mem_head? (hmore '=' rfl)⟩ hjoin
      · rfl
    rw [halone cs fun _ hd => hd]
    intro more hmore
    change tokensFrom p (c :: more) = _
    rw [tokensFrom_symbol hcomment hblank hquote h, halone more hmore]
    rfl

theorem crosses_word (hcomment : ¬c == '#') (hblank : ¬(Text.isBlank c || Text.isControl c))
    (hquote : ¬c == '"') (h : symbol? c = none) (p : Position) (cs : List Char) :
    Crosses p (c :: cs.takeWhile inWord)
      [⟨classify (c :: (cs.takeWhile inWord).filter (!Text.isControl ·)), p,
        (cs.takeWhile inWord).length + 1⟩] (cs.dropWhile inWord) := by
  intro more hmore
  obtain ⟨htake, hdrop⟩ := run_of_beginsAs cs hmore
  rw [List.cons_append, tokensFrom_word hcomment hblank hquote h, htake, hdrop]
  rfl

/-! ### Up to the quote -/

/-- When reading fails, it has come through everything in front of a quote that is the last
one. -/
theorem crosses_unclosed {e : Error} (h : (tokensFrom p cs).error? = some e) :
    ∃ before rest ts, cs = before ++ '"' :: rest ∧ '"' ∉ rest ∧
      Crosses p before ts ('"' :: rest) := by
  -- Each step of the reading is crossed, and what follows on it fails as well.
  induction p, cs using tokensFrom.induct with
  | case1 p =>
      rw [tokensFrom_nil] at h
      cases h
  | case2 p c cs hc ih =>
      rw [tokensFrom_comment hc] at h
      obtain ⟨before, rest, ts, hrest, hquote, hbefore⟩ := ih h
      have hstep := crosses_comment hc p cs
      rw [hrest] at hstep
      refine ⟨c :: cs.takeWhile inComment ++ before, rest, ts, ?_, hquote, hstep.trans hbefore⟩
      rw [List.append_assoc, ← hrest, List.cons_append, List.takeWhile_append_dropWhile]
  | case3 p c cs hcomment hblank ih =>
      rw [tokensFrom_blank hcomment hblank] at h
      obtain ⟨before, rest, ts, rfl, hquote, hbefore⟩ := ih h
      exact ⟨c :: before, rest, ts, rfl, hquote,
        (crosses_blank hcomment hblank p _).trans hbefore⟩
  | case4 p c cs hcomment hblank hc hq =>
      obtain rfl := eq_of_beq hc
      exact ⟨[], cs, [], rfl, untilQuote_eq_none hq, crosses_nil p _⟩
  | case5 p c cs hcomment hblank hc text after hq ih =>
      rw [tokensFrom_string hcomment hblank hc, hq] at h
      obtain ⟨before, rest, ts, rfl, hquote, hbefore⟩ := ih h
      obtain ⟨rfl, htext⟩ := untilQuote_eq_some hq
      have hstep := crosses_string hcomment hblank hc htext p (before ++ '"' :: rest)
      exact ⟨_, rest, _, by simp, hquote, hstep.trans hbefore⟩
  | case6 p c cs hcomment hblank hquote first hc read ih =>
      rw [tokensFrom_symbol hcomment hblank hquote hc] at h
      obtain ⟨before, rest, ts, hrest, hlast, hbefore⟩ := ih h
      have hstep := crosses_symbol hcomment hblank hquote hc p cs
      rw [hrest] at hstep
      refine ⟨_, rest, _, ?_, hlast, hstep.trans hbefore⟩
      rw [List.append_assoc, ← hrest]
      exact (spells_symbol hc cs).2.1
  | case7 p c cs hcomment hblank hquote hc run ih =>
      rw [tokensFrom_word hcomment hblank hquote hc] at h
      obtain ⟨before, rest, ts, hrest, hlast, hbefore⟩ := ih h
      have hstep := crosses_word hcomment hblank hquote hc p cs
      rw [hrest] at hstep
      refine ⟨_, rest, _, ?_, hlast, hstep.trans hbefore⟩
      rw [List.append_assoc, ← hrest, List.cons_append, List.takeWhile_append_dropWhile]

/-- A quote that nothing closes is where reading fails. -/
theorem tokensFrom_unclosed (h : '"' ∉ rest) (p : Position) :
    tokensFrom p ('"' :: rest) = ⟨[], some (Cause.unterminatedString.located p)⟩ := by
  rw [tokensFrom_string (by decide) (by decide +kernel) (by decide)]
  cases hq : untilQuote rest with
  | none => rfl
  | some found =>
      obtain ⟨rfl, -⟩ := untilQuote_eq_some hq
      exact absurd (List.mem_append_right _ List.mem_cons_self) h

/-- One more quote closes it. -/
theorem tokensFrom_closed (h : '"' ∉ rest) (p : Position) :
    tokensFrom p ('"' :: (rest ++ ['"'])) =
      ⟨[⟨.string (String.ofList rest), p, rest.length + 2⟩], none⟩ := by
  have hread := tokensFrom_spells (.string h) ends_nil p
  rw [List.append_nil, tokensFrom_nil] at hread
  simpa [Lexed.cons] using hread

end Lexer

open Lexer

/-- Reading a source fails only at a quote that is the last one. Then the tokens are those of the
text in front of the quote, which is read without an error, and with a quote at its end the
source is read as these tokens and the literal of the text behind the quote. -/
theorem tokenize_unclosed {source : String} {e : Error} (h : (tokenize source).error? = some e) :
    ∃ p, e = Cause.unterminatedString.located p ∧ e.cause.kind = .lex ∧ p.In source.toList ∧
      source.toList[p.offset]? = some '"' ∧ '"' ∉ source.toList.drop (p.offset + 1) ∧
      tokenize (String.ofList (source.toList.take p.offset)) = ⟨(tokenize source).tokens, none⟩ ∧
      tokenize (source ++ "\"") =
        ⟨(tokenize source).tokens ++
          [⟨.string (String.ofList (source.toList.drop (p.offset + 1))), p,
            source.length + 1 - p.offset⟩], none⟩ := by
  obtain ⟨before, rest, ts, hsource, hquote, hcrosses⟩ := crosses_unclosed h
  have hfailed : tokenize source =
      ⟨ts ++ [], some (Cause.unterminatedString.located (Position.start.after before))⟩ := by
    rw [tokenize, hsource, hcrosses _ (beginsAs_cons '"' rest rest), tokensFrom_unclosed hquote]
    rfl
  have hfront : tokenize (String.ofList before) = ⟨ts ++ [], none⟩ := by
    have hread := hcrosses [] (beginsAs_nil _)
    rw [List.append_nil, tokensFrom_nil] at hread
    rw [tokenize, String.toList_ofList, hread]
    rfl
  have hclosed : tokenize (source ++ "\"") = ⟨ts ++ [⟨.string (String.ofList rest),
      Position.start.after before, rest.length + 2⟩], none⟩ := by
    have hchars : (source ++ "\"").toList = before ++ '"' :: (rest ++ ['"']) := by
      simp [String.toList_append, hsource]
    rw [tokenize, hchars, hcrosses _ (beginsAs_cons '"' rest _), tokensFrom_closed hquote]
    rfl
  have hoffset : (Position.start.after before).offset = before.length := by
    rw [Position.offset_after]
    exact Nat.zero_add _
  have hlength : source.length + 1 - before.length = rest.length + 2 := by
    rw [← String.length_toList, hsource, List.length_append, List.length_cons]
    omega
  rw [hfailed] at h ⊢
  cases h
  refine ⟨Position.start.after before, rfl, rfl, ?_⟩
  rw [hoffset, hlength, hsource, List.drop_length_add_append, List.take_left, hfront, hclosed]
  refine ⟨Position.in_after before _, ?_, hquote, rfl, ?_⟩
  · simp
  · simp

/-- A source in which a closed literal and a comment with a quote stand in front of an operator
and the quote that is left open. -/
def leftOpen : String :=
  "s+\"a\"#\"\n<\"b\nc"

theorem tokenize_unclosed_leftOpen :
    ∃ p, p.offset = 9 ∧
      (tokenize leftOpen).error? = some (Cause.unterminatedString.located p) ∧
      tokenize "s+\"a\"#\"\n<" = ⟨(tokenize leftOpen).tokens, none⟩ ∧
      tokenize (leftOpen ++ "\"") =
        ⟨(tokenize leftOpen).tokens ++ [⟨.string "b\nc", p, 5⟩], none⟩ := by
  have hplace : ((tokenize leftOpen).error?.bind (·.pos?)).map (·.offset) = some 9 := by
    decide +kernel
  cases he : (tokenize leftOpen).error? with
  | none =>
      rw [he] at hplace
      cases hplace
  | some e =>
      obtain ⟨p, rfl, -, -, -, -, hfront, hclosed⟩ := tokenize_unclosed he
      have hp : p.offset = 9 := by
        rw [he] at hplace
        exact Option.some.inj hplace
      rw [hp] at hfront hclosed
      exact ⟨p, hp, rfl, hfront, hclosed⟩

end Scriptlet
