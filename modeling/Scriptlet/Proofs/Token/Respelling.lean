import Scriptlet.Proofs.Token.Layout

/-!
# Spelling tokens anew

The kind and the payload of a lexeme settle how it is spelled, and so they settle the lexeme
if it was read from a source (`lexemes_eq`). Written with single spaces between them, the
tokens of a source are read as the lexemes that they are (`tokenize_spaced`). Both rest on
the spelling without control characters being one of the spellings of a lexeme.
-/

namespace Scriptlet

/-- The kinds of lexemes. Every operator and every reserved word is a kind of its own. -/
inductive LexemeKind where
  | string
  | int
  | float
  | bool
  | openParen
  | closeParen
  | openBrace
  | closeBrace
  | semicolon
  | comma
  | ref
  | op (o : Operator)
  | keyword (k : Keyword)
  | name
  deriving DecidableEq

namespace Lexeme

def kind : Lexeme → LexemeKind
  | string _ => .string
  | int .. => .int
  | float .. => .float
  | bool .. => .bool
  | openParen => .openParen
  | closeParen => .closeParen
  | openBrace => .openBrace
  | closeBrace => .closeBrace
  | semicolon => .semicolon
  | comma => .comma
  | ref => .ref
  | op o => .op o
  | keyword k => .keyword k
  | name _ => .name

/-- A lexeme is spelled by its payload, with quotes for a string, or as its kind says. -/
theorem spelling_congr {l l' : Lexeme} (hkind : l.kind = l'.kind)
    (hpayload : l.payload = l'.payload) : l.spelling = l'.spelling := by
  cases l <;> cases l' <;> cases hkind <;> first | rfl | exact hpayload |
    exact congrArg (fun text => "\"" ++ text ++ "\"") hpayload

/-- The lexemes as a text, with single spaces between them. -/
def spaced (ls : List Lexeme) : String :=
  " ".intercalate (ls.map spelling)

end Lexeme

/-- What a token says: its kind and its payload. -/
def Token.said (t : Token) : LexemeKind × String :=
  (t.lexeme.kind, t.lexeme.payload)

/-- Whether a text has been read to its end, as the given lexemes. -/
structure Lexed.Says (l : Lexed) (ls : List Lexeme) : Prop where
  lexemes : l.tokens.map (·.lexeme) = ls
  closed : l.error? = none

namespace Lexed.Says

variable {l : Lexed} {ls : List Lexeme}

theorem cons (h : l.Says ls) (t : Token) : (l.cons t).Says (t.lexeme :: ls) :=
  ⟨congrArg (t.lexeme :: ·) h.lexemes, h.closed⟩

theorem toExcept (h : l.Says ls) :
    ∃ ts, l.toExcept = .ok ts ∧ ts.map (·.lexeme) = ls :=
  ⟨l.tokens, toExcept_of_closed (Option.isNone_iff_eq_none.2 h.closed), h.lexemes⟩

end Lexed.Says

namespace Lexer

variable {span : List Char} {l : Lexeme}

/-- A lexeme that has a spelling is spelled by its text. -/
theorem Spells.respell (h : Spells span l) : Spells l.spelling.toList l := by
  cases h with
  | string htext =>
      rw [Lexeme.spelling_string, String.toList_ofList]
      exact .string htext
  | symbol hc =>
      rw [(symbol?_spelling hc).2]
      exact .symbol hc
  | joined hc hl =>
      rw [(withEquals?_spelling hl).2, (symbol?_spelling hc).2]
      exact .joined hc hl
  | @word c cs hc hplain hcs =>
      have hword := classify_payload (c :: cs.filter (!Text.isControl ·))
      rw [Lexeme.spelling_of_isWord hword.1, hword.2, String.toList_ofList]
      have hspells := Spells.word hc hplain fun d (hd : d ∈ cs.filter (!Text.isControl ·)) =>
        hcs d (List.mem_filter.1 hd).1
      rwa [List.filter_filter, funext fun d => Bool.and_self _] at hspells

theorem ends_space (rest : List Char) : Ends (' ' :: rest) := by
  intro c hc
  cases hc
  decide +kernel

/-- Lexemes with single spaces between them are read one by one. -/
theorem says_spaced {ls : List Lexeme} (h : ∀ l ∈ ls, Spells l.spelling.toList l)
    (p : Position) :
    (tokensFrom p ([' '].intercalate (ls.map (·.spelling.toList)))).Says ls := by
  induction ls generalizing p with
  | nil =>
      rw [List.map_nil, List.intercalate_nil, tokensFrom_nil]
      exact ⟨rfl, rfl⟩
  | cons l ls ih =>
      obtain ⟨hl, hls⟩ := List.forall_mem_cons.1 h
      cases ls with
      | nil =>
          have hread := tokensFrom_spells hl ends_nil p
          rw [List.append_nil, tokensFrom_nil] at hread
          rw [List.map_singleton, List.intercalate_singleton, hread]
          exact ⟨rfl, rfl⟩
      | cons l' ls =>
          have hblank : Text.isBlank ' ' || Text.isControl ' ' := by decide +kernel
          rw [List.map_cons, List.map_cons, List.intercalate_cons_cons, List.append_assoc,
            List.singleton_append, tokensFrom_spells hl (ends_space _),
            tokensFrom_blank (by decide) hblank]
          exact (ih hls ((p.after l.spelling.toList).next ' ')).cons ⟨l, p, _⟩

/-- Lexemes that have spellings are settled by what they say. -/
theorem lexemes_eq {ts us : List Token} (hts : ∀ t ∈ ts, Spells t.lexeme.spelling.toList t.lexeme)
    (hus : ∀ u ∈ us, Spells u.lexeme.spelling.toList u.lexeme)
    (h : us.map Token.said = ts.map Token.said) : us.map (·.lexeme) = ts.map (·.lexeme) := by
  induction ts generalizing us with
  | nil =>
      rw [List.map_eq_nil_iff.1 h]
  | cons t ts ih =>
      obtain ⟨u, us, rfl, hsaid, hrest⟩ := List.map_eq_cons_iff.1 h
      obtain ⟨ht, hts⟩ := List.forall_mem_cons.1 hts
      obtain ⟨hu, hus⟩ := List.forall_mem_cons.1 hus
      have hspelling : u.lexeme.spelling = t.lexeme.spelling :=
        Lexeme.spelling_congr (congrArg Prod.fst hsaid) (congrArg Prod.snd hsaid)
      rw [hspelling] at hu
      exact congrArg₂ List.cons (hu.unique ht) (ih hts hus hrest)

end Lexer

/-! ### Sources -/

variable {source : String} {ts : List Token}

theorem spells_of_toExcept (h : (tokenize source).toExcept = .ok ts) :
    ∀ t ∈ ts, Lexer.Spells t.lexeme.spelling.toList t.lexeme := by
  intro t ht
  rw [← Lexed.tokens_of_toExcept h] at ht
  exact ((Lexer.laid_tokensFrom .start source.toList).span_spells ht).respell

/-- The tokens of a source, spelled anew, are read as what they are. -/
theorem tokenize_spaced (h : (tokenize source).toExcept = .ok ts) :
    ∃ us, (tokenize (Lexeme.spaced (ts.map (·.lexeme)))).toExcept = .ok us ∧
      us.map (·.lexeme) = ts.map (·.lexeme) := by
  have hspells : ∀ l ∈ ts.map (·.lexeme), Lexer.Spells l.spelling.toList l :=
    List.forall_mem_map.2 (spells_of_toExcept h)
  have hchars : (Lexeme.spaced (ts.map (·.lexeme))).toList =
      [' '].intercalate ((ts.map (·.lexeme)).map (·.spelling.toList)) := by
    rw [Lexeme.spaced, String.toList_intercalate, List.map_map]
    rfl
  have hread := Lexer.says_spaced hspells .start
  rw [← hchars] at hread
  exact hread.toExcept

end Scriptlet
