import Scriptlet.Proofs.Token.Lines

/-!
# Spellings

Which characters stand for which lexeme. A string has one spelling, its text between
quotes, and so has a symbol. A word may be interspersed with control characters, which do
not count. Where a spelling is followed by something that neither continues a word nor is
an equals sign it is read as its lexeme (`tokensFrom_spells`), so the characters of a
token settle what it says (`Spells.unique`).
-/

namespace Scriptlet

namespace Lexeme

/-- Whether the lexeme is read as a word, which is so for literals other than strings, for
reserved words with the two operators among them, and for names. -/
def isWord : Lexeme → Bool
  | int .. | float .. | bool .. | keyword _ | name _ | op .and | op .or => true
  | _ => false

/-- The text of a lexeme in a source. -/
def spelling : Lexeme → String
  | string text => "\"" ++ text ++ "\""
  | int word _ | float word _ | bool word _ | name word => word
  | symbol => symbol.quoted

theorem spelling_of_isWord {l : Lexeme} (h : l.isWord) : l.spelling = l.payload := by
  unfold isWord at h
  split at h <;> first | rfl | cases h

theorem spelling_string (text : String) :
    (string text).spelling.toList = '"' :: (text.toList ++ ['"']) := by
  simp [spelling, String.toList_append]

end Lexeme

namespace Lexer

/-- The characters `span` are read as one lexeme. -/
inductive Spells : (span : List Char) → Lexeme → Prop where
  | string {text : List Char} (h : '"' ∉ text) :
      Spells ('"' :: (text ++ ['"'])) (.string (String.ofList text))
  | symbol {c : Char} {first : Lexeme} (h : symbol? c = some first) : Spells [c] first
  | joined {c : Char} {first l : Lexeme} (h : symbol? c = some first)
      (hl : withEquals? first = some l) : Spells [c, '='] l
  | word {c : Char} {cs : List Char} (h : inWord c) (hplain : ¬Text.isControl c)
      (hcs : ∀ d ∈ cs, inWord d) :
      Spells (c :: cs) (classify (c :: cs.filter (!Text.isControl ·)))

/-- Whatever token stands before `rest` ends there. -/
def Ends (rest : List Char) : Prop :=
  ∀ c ∈ rest.head?, ¬inWord c ∧ c ≠ '='

theorem ends_nil : Ends [] :=
  fun c hc => by cases hc

variable {c : Char} {cs span rest text : List Char} {first l : Lexeme}

/-! ### Symbols -/

/-- The character of a symbol is none of those that are looked for before it. -/
theorem symbol?_plain (h : symbol? c = some first) :
    ¬c == '#' ∧ ¬(Text.isBlank c || Text.isControl c) ∧ ¬c == '"' := by
  unfold symbol? at h
  split at h <;> first | cases h; decide +kernel | cases h

/-- A symbol is no word, and its character spells it. -/
theorem symbol?_spelling (h : symbol? c = some first) :
    first.isWord = false ∧ first.spelling.toList = [c] := by
  unfold symbol? at h
  split at h <;> first | cases h; decide | cases h

/-- A symbol that takes in an equals sign is no word, and the equals sign is added to its
spelling. -/
theorem withEquals?_spelling (h : withEquals? first = some l) :
    l.isWord = false ∧ l.spelling.toList = first.spelling.toList ++ ['='] := by
  unfold withEquals? at h
  split at h <;> first | cases h; decide | cases h

/-- A symbol is read by itself in front of anything but an equals sign. -/
theorem symbol_apart (h : ∀ c ∈ rest.head?, c ≠ '=') (first : Lexeme) :
    symbol first rest = (first, 1, rest) := by
  unfold symbol
  split
  · exact absurd rfl (h '=' rfl)
  · rfl

theorem tokensFrom_apart (h : symbol? c = some first) (hrest : ∀ d ∈ rest.head?, d ≠ '=')
    (p : Position) :
    tokensFrom p (c :: rest) = (tokensFrom (p.next c) rest).cons ⟨first, p, 1⟩ := by
  obtain ⟨hcomment, hblank, hquote⟩ := symbol?_plain h
  rw [tokensFrom_symbol hcomment hblank hquote h, symbol_apart hrest]
  rfl

theorem ends_symbol (h : symbol? c = some first) (hc : c ≠ '=') : Ends (c :: cs) := by
  intro d hd
  cases hd
  refine ⟨?_, hc⟩
  simp [inWord, h]

theorem symbol_joined (hl : withEquals? first = some l) (rest : List Char) :
    symbol first ('=' :: rest) = (l, 2, rest) := by
  simp only [symbol, hl]

/-! ### Words -/

theorem inWord_plain (h : inWord c) :
    ¬c == '#' ∧ ¬Text.isBlank c ∧ ¬c == '"' ∧ symbol? c = none := by
  simpa [inWord, and_assoc, and_comm, and_left_comm] using h

theorem reserved?_payload {word : String} (h : reserved? word = some l) :
    l.isWord ∧ l.payload = word := by
  unfold reserved? at h
  split at h <;> first | cases h; exact ⟨rfl, rfl⟩ | cases h

theorem number?_payload (h : number? cs = some l) : l.isWord ∧ l.payload = String.ofList cs := by
  unfold number? at h
  split at h
  · cases h
    exact ⟨rfl, rfl⟩
  · split at h
    · obtain ⟨x, -, rfl⟩ := Option.map_eq_some_iff.1 h
      exact ⟨rfl, rfl⟩
    · cases h

/-- The lexeme of a word keeps the word. -/
theorem classify_payload (word : List Char) :
    (classify word).isWord ∧ (classify word).payload = String.ofList word := by
  simp only [classify]
  split
  · exact ⟨rfl, rfl⟩
  · cases hnumber : number? word with
    | some l => exact number?_payload hnumber
    | none =>
        cases hreserved : reserved? (String.ofList word) with
        | some l => exact reserved?_payload hreserved
        | none => exact ⟨rfl, rfl⟩

/-- Characters that are all of a word are read as this word. -/
theorem spells_word (hne : cs ≠ []) (hcs : ∀ c ∈ cs, inWord c ∧ ¬Text.isControl c) :
    Spells cs (classify cs) := by
  obtain ⟨c, cs, rfl⟩ := List.exists_cons_of_ne_nil hne
  obtain ⟨hc, hcs⟩ := List.forall_mem_cons.1 hcs
  have hspells := Spells.word hc.1 hc.2 fun d hd => (hcs d hd).1
  rwa [List.filter_eq_self.2 fun d hd => by simpa using (hcs d hd).2] at hspells

theorem takeWhile_of_ends (hcs : ∀ d ∈ cs, inWord d) (h : Ends rest) :
    (cs ++ rest).takeWhile inWord = cs ∧ (cs ++ rest).dropWhile inWord = rest := by
  rw [List.takeWhile_append_of_pos hcs, List.dropWhile_append_of_pos hcs]
  cases rest with
  | nil => simp
  | cons d rest => simp [(h d rfl).1]

/-! ### Strings -/

theorem untilQuote_text (h : '"' ∉ text) (rest : List Char) :
    untilQuote (text ++ '"' :: rest) = some (text, rest) := by
  induction text with
  | nil => rfl
  | cons c text ih =>
      rw [List.mem_cons, not_or] at h
      have hc : ¬(c == '"') := fun heq => h.1 (eq_of_beq heq).symm
      rw [List.cons_append, untilQuote, if_neg hc, ih h.2]
      rfl

theorem untilQuote_eq_none (h : untilQuote cs = none) : '"' ∉ cs := by
  induction cs with
  | nil => exact List.not_mem_nil
  | cons c cs ih =>
      unfold untilQuote at h
      split at h
      · cases h
      · rename_i hc
        rw [List.mem_cons, not_or]
        exact ⟨fun heq => hc (beq_of_eq heq.symm), ih (Option.map_eq_none_iff.1 h)⟩

theorem untilQuote_eq_some (h : untilQuote cs = some (text, rest)) :
    cs = text ++ '"' :: rest ∧ '"' ∉ text := by
  induction cs generalizing text with
  | nil => cases h
  | cons c cs ih =>
      unfold untilQuote at h
      split at h
      · rename_i hc
        cases h
        exact ⟨by rw [List.nil_append, eq_of_beq hc], List.not_mem_nil⟩
      · rename_i hc
        obtain ⟨⟨text', rest'⟩, hcs, heq⟩ := Option.map_eq_some_iff.1 h
        cases heq
        obtain ⟨rfl, htext⟩ := ih hcs
        refine ⟨rfl, ?_⟩
        rw [List.mem_cons, not_or]
        exact ⟨fun heq => hc (beq_of_eq heq.symm), htext⟩

/-! ### Reading a spelling -/

theorem Spells.ne_nil (h : Spells span l) : span ≠ [] := by
  cases h <;> exact List.cons_ne_nil _ _

/-- A word is what its characters are without the control characters. -/
theorem Spells.word_payload (h : Spells span l) (hword : l.isWord) :
    span.filter (!Text.isControl ·) = l.payload.toList := by
  cases h with
  | string htext => cases hword
  | symbol hc => cases (symbol?_spelling hc).1.symm.trans hword
  | joined hc hl => cases (withEquals?_spelling hl).1.symm.trans hword
  | word hc hplain hcs =>
      rw [(classify_payload _).2, String.toList_ofList]
      exact List.filter_cons_of_pos (by simpa using hplain)

/-- A symbol or a string has one spelling. -/
theorem Spells.symbol_spelling (h : Spells span l) (hword : ¬l.isWord) :
    span = l.spelling.toList := by
  cases h with
  | string htext => rw [Lexeme.spelling_string, String.toList_ofList]
  | symbol hc => exact (symbol?_spelling hc).2.symm
  | joined hc hl => rw [(withEquals?_spelling hl).2, (symbol?_spelling hc).2]; rfl
  | word hc hplain hcs => exact absurd (classify_payload _).1 hword

/-- A spelling that ends is read as its lexeme. -/
theorem tokensFrom_spells (h : Spells span l) (hrest : Ends rest) (p : Position) :
    tokensFrom p (span ++ rest) =
      (tokensFrom (p.after span) rest).cons ⟨l, p, span.length⟩ := by
  cases h with
  | @string text htext =>
      have hchars : '"' :: (text ++ ['"']) ++ rest = '"' :: (text ++ '"' :: rest) := by simp
      rw [hchars, tokensFrom_string (by decide) (by decide +kernel) (by decide),
        untilQuote_text htext]
      simp [Position.after]
  | @symbol c _ hc =>
      rw [List.singleton_append, tokensFrom_apart hc fun d hd => (hrest d hd).2]
      rfl
  | @joined c first _ hc hl =>
      obtain ⟨hcomment, hblank, hquote⟩ := symbol?_plain hc
      have hchars : [c, '='] ++ rest = c :: '=' :: rest := rfl
      rw [hchars, tokensFrom_symbol hcomment hblank hquote hc, symbol_joined hl]
      rfl
  | @word c cs hc hplain hcs =>
      obtain ⟨hcomment, hblank, hquote, hsymbol⟩ := inWord_plain hc
      obtain ⟨htake, hdrop⟩ := takeWhile_of_ends hcs hrest
      have hcontrol : ¬(Text.isBlank c || Text.isControl c) := by
        rw [Bool.or_eq_true, not_or]
        exact ⟨hblank, hplain⟩
      rw [List.cons_append, tokensFrom_word hcomment hcontrol hquote hsymbol, htake, hdrop]
      rfl

/-- The characters of a token settle what it says. -/
theorem Spells.unique {l' : Lexeme} (h : Spells span l) (h' : Spells span l') : l = l' := by
  have hread :=
    (tokensFrom_spells h ends_nil .start).symm.trans (tokensFrom_spells h' ends_nil .start)
  exact congrArg Token.lexeme (List.cons.inj (congrArg Lexed.tokens hread)).1

end Lexer

end Scriptlet
