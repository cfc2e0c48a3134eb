import Mathlib.Data.List.Induction
import Mathlib.Data.List.TakeWhile
import Scriptlet.Proofs.Token.Spelling

/-!
# How tokens lie in a text

Reading cuts a text into gaps and tokens, one after the other, until the text or a literal
without a closing quote ends it. `Laid` is this cut, and `laid_tokensFrom` says that reading
makes it. What a token is and where it stands then follows from the characters before it
(`Laid.split`), and what stands between tokens by going through the cut once more
(`Laid.gaps`). The main statement is `tokenize_tiled`.
-/

namespace Scriptlet

/-! ### Places -/

namespace Position

theorem after_append (p : Position) (cs ds : List Char) :
    p.after (cs ++ ds) = (p.after cs).after ds :=
  List.foldl_append

theorem offset_next (p : Position) (c : Char) : (p.next c).offset = p.offset + 1 := by
  unfold next
  split <;> rfl

theorem offset_after (p : Position) (cs : List Char) :
    (p.after cs).offset = p.offset + cs.length := by
  induction cs generalizing p with
  | nil => rfl
  | cons c cs ih =>
      change ((p.next c).after cs).offset = _
      rw [ih, offset_next, List.length_cons]
      omega

theorem line_after (p : Position) (cs : List Char) :
    (p.after cs).line = p.line + cs.count '\n' := by
  induction cs generalizing p with
  | nil => rfl
  | cons c cs ih =>
      change ((p.next c).after cs).line = _
      rw [ih, List.count_cons]
      unfold next
      split <;> simp only <;> omega

/-- Columns count from the last line feed. -/
theorem column_after (cs : List Char) :
    (start.after cs).column = 1 + (cs.reverse.takeWhile (· != '\n')).length := by
  induction cs using List.reverseRecOn with
  | nil => rfl
  | append_singleton cs c ih =>
      rw [after_append, List.reverse_append]
      change ((start.after cs).next c).column = 1 + ((c :: cs.reverse).takeWhile _).length
      rw [List.takeWhile_cons]
      by_cases hc : c = '\n'
      · subst hc
        rfl
      · simp only [next, beq_iff_eq, hc, if_false, bne_iff_ne, ne_eq, not_false_eq_true, if_true,
          List.length_cons, ih]
        omega

/-- A place of the text `cs`: its line is one more than the number of line feeds before it,
and its column counts from the last of them. -/
def In (p : Position) (cs : List Char) : Prop :=
  p.line = 1 + (cs.take p.offset).count '\n' ∧
    p.column = 1 + ((cs.take p.offset).reverse.takeWhile (· != '\n')).length

theorem in_after (cs ds : List Char) : (start.after cs).In (cs ++ ds) := by
  have htake : (cs ++ ds).take (start.after cs).offset = cs := by
    rw [offset_after]
    simp [start]
  unfold In
  rw [htake, line_after, column_after]
  exact ⟨rfl, rfl⟩

end Position

/-! ### Tokens in a text -/

/-- Whether the character at the index `i` belongs to the token. -/
def Token.Covers (t : Token) (i : Nat) : Prop :=
  t.pos.offset ≤ i ∧ i < t.pos.offset + t.length

/-- The characters of the text that belong to the token. -/
def Token.span (t : Token) (cs : List Char) : List Char :=
  (cs.drop t.pos.offset).take t.length

/-- No token of `ts` has the character at the index `i`. -/
def Uncovered (ts : List Token) (i : Nat) : Prop :=
  ∀ t ∈ ts, ¬t.Covers i

/-- The character at the index `i` belongs to a comment: from a number sign up to it the
characters are `free` and end no line. -/
def Commented (cs : List Char) (free : Nat → Prop) (i : Nat) : Prop :=
  ∃ j ≤ i, cs[j]? = some '#' ∧
    ∀ k, j ≤ k → k ≤ i → free k ∧ ∀ c, cs[k]? = some c → Lexer.inComment c

namespace Commented

variable {cs : List Char} {free free' : Nat → Prop} {i : Nat}

theorem mono (h : Commented cs free i) (hfree : ∀ k, free k → free' k) :
    Commented cs free' i := by
  obtain ⟨j, hj, hsign, hrun⟩ := h
  exact ⟨j, hj, hsign, fun k hjk hki => ⟨hfree k (hrun k hjk hki).1, (hrun k hjk hki).2⟩⟩

/-- A comment stays one behind other characters. -/
theorem behind {front : List Char} (h : Commented cs (fun k => free (front.length + k)) i) :
    Commented (front ++ cs) free (front.length + i) := by
  obtain ⟨j, hj, hsign, hrun⟩ := h
  refine ⟨front.length + j, Nat.add_le_add_left hj _, ?_, fun k hjk hki => ?_⟩
  · rwa [List.getElem?_append_right (Nat.le_add_right ..), Nat.add_sub_cancel_left]
  · obtain ⟨k, rfl⟩ := Nat.exists_eq_add_of_le (Nat.le_trans (Nat.le_add_right ..) hjk)
    rw [List.getElem?_append_right (Nat.le_add_right ..), Nat.add_sub_cancel_left]
    exact hrun k (Nat.le_of_add_le_add_left hjk) (Nat.le_of_add_le_add_left hki)

end Commented

/-- The characters of a token are those that its lexeme is written with. -/
structure Token.Spelled (t : Token) (cs : List Char) : Prop where
  string : ∀ text, t.lexeme = .string text → t.span cs = '"' :: (text.toList ++ ['"'])
  word : t.lexeme.isWord →
    (t.span cs).filter (!Text.isControl ·) = t.lexeme.payload.toList
  symbol : ¬t.lexeme.isWord → t.span cs = t.lexeme.spelling.toList

/-- The tokens `l` were read from the text `cs`, and nothing else is in it up to the place
where reading ended. -/
structure Lexed.Tiled (l : Lexed) (cs : List Char) : Prop where
  nonempty : ∀ t ∈ l.tokens, 0 < t.length
  inside : ∀ t ∈ l.tokens, t.pos.offset + t.length ≤ cs.length
  ordered : l.tokens.Pairwise fun t u => t.pos.offset + t.length ≤ u.pos.offset
  placed : ∀ t ∈ l.tokens, t.pos.In cs
  spelled : ∀ t ∈ l.tokens, t.Spelled cs
  between : ∀ i c, cs[i]? = some c → Uncovered l.tokens i →
    (∀ p, l.error? = some (Cause.unterminatedString.located p) → i < p.offset) →
      Text.isBlank c ∨ Text.isControl c ∨ Commented cs (Uncovered l.tokens) i
  unclosed : ∀ e, l.error? = some e → ∃ p, e = Cause.unterminatedString.located p ∧ p.In cs ∧
    cs[p.offset]? = some '"' ∧ '"' ∉ cs.drop (p.offset + 1) ∧
      ∀ t ∈ l.tokens, t.pos.offset + t.length ≤ p.offset

namespace Lexer

variable {c : Char} {cs span rest : List Char} {l : Lexed} {p : Position} {t : Token}

/-- What is passed over at once between tokens. -/
inductive Gap : List Char → Prop where
  | blank {c : Char} (h : Text.isBlank c || Text.isControl c) : Gap [c]
  | comment {cs : List Char} (h : ∀ c ∈ cs, inComment c) : Gap ('#' :: cs)

/-- The text `cs` at the place `p` is cut into gaps and the tokens `l`. -/
inductive Laid : Position → List Char → Lexed → Prop where
  | done (p : Position) : Laid p [] ⟨[], none⟩
  | unclosed {cs : List Char} (h : '"' ∉ cs) (p : Position) :
      Laid p ('"' :: cs) ⟨[], some (Cause.unterminatedString.located p)⟩
  | gap {p : Position} {cs rest : List Char} {l : Lexed} (h : Gap cs)
      (hrest : Laid (p.after cs) rest l) : Laid p (cs ++ rest) l
  | token {p : Position} {span rest : List Char} {lexeme : Lexeme} {l : Lexed}
      (h : Spells span lexeme) (hrest : Laid (p.after span) rest l) :
      Laid p (span ++ rest) (l.cons ⟨lexeme, p, span.length⟩)

/-- A gap is blank, a control character or a comment, as long as no token takes from it. -/
theorem Gap.between {run rest : List Char} {free : Nat → Prop} {i : Nat} (h : Gap run)
    (hi : i < run.length) (hc : (run ++ rest)[i]? = some c)
    (hfree : ∀ k, k < run.length → free k) :
    Text.isBlank c ∨ Text.isControl c ∨ Commented (run ++ rest) free i := by
  rw [List.getElem?_append_left hi] at hc
  cases h with
  | blank h =>
      obtain rfl := List.mem_singleton.1 (List.mem_of_getElem? hc)
      rw [Bool.or_eq_true] at h
      exact h.imp_right .inl
  | @comment cs h =>
      refine .inr (.inr ⟨0, Nat.zero_le i, rfl, fun k _ hk => ?_⟩)
      have hlt : k < ('#' :: cs).length := Nat.lt_of_le_of_lt hk hi
      refine ⟨hfree k hlt, fun d hd => ?_⟩
      rw [List.getElem?_append_left hlt] at hd
      obtain rfl | hmem := List.mem_cons.1 (List.mem_of_getElem? hd)
      · decide
      · exact h d hmem

/-! ### Reading cuts the text -/

/-- A symbol takes its one or two characters off the text. -/
theorem spells_symbol {first : Lexeme} (h : symbol? c = some first) (cs : List Char) :
    Spells ((c :: cs).take (symbol first cs).2.1) (symbol first cs).1 ∧
      c :: cs = (c :: cs).take (symbol first cs).2.1 ++ (symbol first cs).2.2 ∧
      ((c :: cs).take (symbol first cs).2.1).length = (symbol first cs).2.1 := by
  unfold symbol
  split
  · rename_i joined rest hjoined
    exact ⟨.joined h hjoined, rfl, rfl⟩
  · exact ⟨.symbol h, rfl, rfl⟩

theorem laid_tokensFrom (p : Position) (cs : List Char) : Laid p cs (tokensFrom p cs) := by
  induction p, cs using tokensFrom.induct with
  | case1 p =>
      rw [tokensFrom_nil]
      exact .done p
  | case2 p c cs hc ih =>
      rw [tokensFrom_comment hc]
      obtain rfl := eq_of_beq hc
      have hgap : Gap ('#' :: cs.takeWhile inComment) :=
        .comment fun _ hd => List.mem_takeWhile_imp hd
      have hlaid := Laid.gap hgap ih
      rwa [List.cons_append, List.takeWhile_append_dropWhile] at hlaid
  | case3 p c cs hcomment hblank ih =>
      rw [tokensFrom_blank hcomment hblank]
      exact .gap (.blank hblank) ih
  | case4 p c cs hcomment hblank hc hq =>
      rw [tokensFrom_string hcomment hblank hc, hq]
      obtain rfl := eq_of_beq hc
      exact .unclosed (untilQuote_eq_none hq) p
  | case5 p c cs hcomment hblank hc text rest hq ih =>
      rw [tokensFrom_string hcomment hblank hc, hq]
      obtain rfl := eq_of_beq hc
      obtain ⟨rfl, htext⟩ := untilQuote_eq_some hq
      have hlaid := Laid.token (.string htext) ih
      simpa using hlaid
  | case6 p c cs hcomment hblank hquote first hc read ih =>
      rw [tokensFrom_symbol hcomment hblank hquote hc]
      obtain ⟨hspells, happend, hlength⟩ := spells_symbol hc cs
      have hlaid := Laid.token hspells ih
      rwa [← happend, hlength] at hlaid
  | case7 p c cs hcomment hblank hquote hc run ih =>
      rw [tokensFrom_word hcomment hblank hquote hc]
      rw [Bool.or_eq_true, not_or] at hblank
      have hinWord : inWord c := by simp_all [inWord]
      have hspells := Spells.word hinWord hblank.2 fun d (hd : d ∈ cs.takeWhile inWord) =>
        List.mem_takeWhile_imp hd
      have hlaid := Laid.token hspells ih
      rwa [List.cons_append, List.takeWhile_append_dropWhile] at hlaid

/-! ### Single tokens -/

/-- What stands before a token, the token, and what follows it. -/
theorem Laid.split (h : Laid p cs l) (ht : t ∈ l.tokens) :
    ∃ before span rest, cs = before ++ (span ++ rest) ∧ Spells span t.lexeme ∧
      t.pos = p.after before ∧ t.length = span.length := by
  induction h with
  | done p => cases ht
  | unclosed h p => cases ht
  | @gap p run rest l hgap hrest ih =>
      obtain ⟨before, span, rest, rfl, hspells, hpos, hlength⟩ := ih ht
      refine ⟨run ++ before, span, rest, (List.append_assoc ..).symm, hspells, ?_, hlength⟩
      rw [hpos, Position.after_append]
  | @token p span rest lexeme l hspells hrest ih =>
      obtain rfl | ht := List.mem_cons.1 ht
      · exact ⟨[], span, rest, rfl, hspells, rfl, rfl⟩
      · obtain ⟨before, span', rest, rfl, hspells', hpos, hlength⟩ := ih ht
        refine ⟨span ++ before, span', rest, (List.append_assoc ..).symm, hspells', ?_, hlength⟩
        rw [hpos, Position.after_append]

/-- What the characters of a token are shows in its lexeme. -/
theorem spelled_of_spells (h : Spells (t.span cs) t.lexeme) : t.Spelled cs where
  string text htext := by
    rw [htext] at h
    rw [h.symbol_spelling Bool.false_ne_true, Lexeme.spelling_string]
  word := h.word_payload
  symbol := h.symbol_spelling

theorem Laid.ends (h : Laid p cs l) (ht : t ∈ l.tokens) :
    t.pos.offset + t.length ≤ p.offset + cs.length := by
  obtain ⟨before, span, rest, rfl, -, hpos, hlength⟩ := h.split ht
  rw [hpos, hlength, Position.offset_after]
  simp only [List.length_append]
  omega

theorem Laid.starts (h : Laid p cs l) (ht : t ∈ l.tokens) : p.offset ≤ t.pos.offset := by
  obtain ⟨before, -, -, -, -, hpos, -⟩ := h.split ht
  rw [hpos, Position.offset_after]
  omega

/-! ### All tokens -/

theorem Laid.ordered (h : Laid p cs l) :
    l.tokens.Pairwise fun t u => t.pos.offset + t.length ≤ u.pos.offset := by
  induction h with
  | done p => exact .nil
  | unclosed h p => exact .nil
  | gap hgap hrest ih => exact ih
  | token hspells hrest ih =>
      refine .cons (fun u hu => ?_) ih
      rw [← Position.offset_after]
      exact hrest.starts hu

/-- Nothing but gaps is between the tokens of a text and before its unclosed literal. -/
theorem Laid.gaps (h : Laid p cs l) {i : Nat} (hc : cs[i]? = some c)
    (hfree : Uncovered l.tokens (p.offset + i))
    (hbefore : ∀ q, l.error? = some (Cause.unterminatedString.located q) →
      p.offset + i < q.offset) :
    Text.isBlank c ∨ Text.isControl c ∨
      Commented cs (fun k => Uncovered l.tokens (p.offset + k)) i := by
  induction h generalizing i with
  | done p => cases hc
  | unclosed h p => exact absurd (hbefore p rfl) (by omega)
  | @gap p run rest l hgap hrest ih =>
      simp only [Position.offset_after, Nat.add_assoc] at ih
      obtain hi | ⟨i, rfl⟩ := Nat.lt_or_ge i run.length |>.imp_right Nat.exists_eq_add_of_le
      · exact hgap.between hi hc fun k hk t ht hcovers => by
          have hstarts := hrest.starts ht
          rw [Position.offset_after] at hstarts
          have := hcovers.1
          omega
      · rw [List.getElem?_append_right (Nat.le_add_right ..), Nat.add_sub_cancel_left] at hc
        exact (ih hc hfree hbefore).imp_right fun h => h.imp_right Commented.behind
  | @token p span rest lexeme l hspells hrest ih =>
      simp only [Position.offset_after, Nat.add_assoc] at ih
      obtain hi | ⟨i, rfl⟩ := Nat.lt_or_ge i span.length |>.imp_right Nat.exists_eq_add_of_le
      · exact absurd ⟨Nat.le_add_right .., Nat.add_lt_add_left hi _⟩ (hfree _ List.mem_cons_self)
      · rw [List.getElem?_append_right (Nat.le_add_right ..), Nat.add_sub_cancel_left] at hc
        have hrest := ih hc (fun t ht => hfree t (List.mem_cons_of_mem _ ht)) hbefore
        refine hrest.imp_right fun h => h.imp_right fun h => .behind (h.mono fun k hk => ?_)
        rintro t ht
        obtain rfl | ht := List.mem_cons.1 ht
        · rintro ⟨-, hend⟩
          change _ < p.offset + span.length at hend
          omega
        · exact hk t ht

/-- The literal without a closing quote goes to the end of the text. -/
theorem Laid.unclosed_literal {e : Error} (h : Laid p cs l) (he : l.error? = some e) :
    ∃ before rest, cs = before ++ '"' :: rest ∧ '"' ∉ rest ∧
      e = Cause.unterminatedString.located (p.after before) ∧
      ∀ t ∈ l.tokens, t.pos.offset + t.length ≤ (p.after before).offset := by
  induction h with
  | done p => cases he
  | @unclosed cs h p =>
      cases he
      exact ⟨[], cs, rfl, h, rfl, fun t ht => by cases ht⟩
  | @gap p run rest l hgap hrest ih =>
      obtain ⟨before, rest, rfl, hquote, rfl, hends⟩ := ih he
      refine ⟨run ++ before, rest, (List.append_assoc ..).symm, hquote, ?_⟩
      rw [Position.after_append]
      exact ⟨rfl, hends⟩
  | @token p span rest lexeme l hspells hrest ih =>
      obtain ⟨before, rest, rfl, hquote, rfl, hends⟩ := ih he
      refine ⟨span ++ before, rest, (List.append_assoc ..).symm, hquote, ?_⟩
      rw [Position.after_append]
      refine ⟨rfl, fun t ht => ?_⟩
      obtain rfl | ht := List.mem_cons.1 ht
      · rw [Position.offset_after, Position.offset_after]
        exact Nat.le_add_right ..
      · exact hends t ht

/-- The characters of a token, in a text that begins at the first place. -/
theorem Laid.span_spells (h : Laid .start cs l) (ht : t ∈ l.tokens) :
    Spells (t.span cs) t.lexeme := by
  obtain ⟨before, span, rest, rfl, hspells, hpos, hlength⟩ := h.split ht
  have hspan : t.span (before ++ (span ++ rest)) = span := by
    rw [Token.span, hpos, hlength, Position.offset_after]
    simp [Position.start]
  rwa [hspan]

theorem Laid.tiled (h : Laid .start cs l) : l.Tiled cs where
  nonempty t ht := by
    obtain ⟨_, span, _, -, hspells, -, hlength⟩ := h.split ht
    rw [hlength]
    exact List.length_pos_iff.2 hspells.ne_nil
  inside t ht := by
    have hends := h.ends ht
    simpa [Position.start] using hends
  ordered := h.ordered
  placed t ht := by
    obtain ⟨before, span, rest, rfl, -, hpos, -⟩ := h.split ht
    rw [hpos]
    exact Position.in_after before _
  spelled t ht := spelled_of_spells (h.span_spells ht)
  between i c hc hfree hbefore := by
    have hgaps := h.gaps (i := i) hc
    simp only [Position.start, Nat.zero_add] at hgaps
    exact hgaps hfree hbefore
  unclosed e he := by
    obtain ⟨before, rest, rfl, hquote, rfl, hends⟩ := h.unclosed_literal he
    have hoffset : (Position.start.after before).offset = before.length := by
      rw [Position.offset_after]
      exact Nat.zero_add _
    refine ⟨_, rfl, Position.in_after before _, ?_, ?_, hends⟩
    · simp [hoffset]
    · rwa [hoffset, List.drop_length_add_append]

end Lexer

theorem tiled_tokenize (source : String) : (tokenize source).Tiled source.toList :=
  (Lexer.laid_tokensFrom .start source.toList).tiled

/-- The tokens of a source lie in it one after the other, and with the same characters they
say the same. -/
theorem tokenize_tiled (source : String) :
    (tokenize source).Tiled source.toList ∧
      ∀ other, ∀ t ∈ (tokenize source).tokens, ∀ u ∈ (tokenize other).tokens,
        t.span source.toList = u.span other.toList → t.lexeme = u.lexeme := by
  have hlaid (source : String) := Lexer.laid_tokensFrom .start source.toList
  refine ⟨(hlaid source).tiled, fun other t ht u hu hspan => ?_⟩
  have hspells := (hlaid other).span_spells hu
  rw [← hspan] at hspells
  exact ((hlaid source).span_spells ht).unique hspells

end Scriptlet
