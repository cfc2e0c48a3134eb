import Scriptlet.Proofs.Parsing.Commas
import Scriptlet.Proofs.Parsing.Refusal
import Scriptlet.Proofs.Session.Arguments
import Scriptlet.Proofs.Session.ExpressionStatement
import Scriptlet.Proofs.Token.Respelling

/-!
# A call on bare names

The source of a call whose arguments are all names, from its text to the expression that it
is read as. `callText` is read as `callLexemes` (`says_callText`), and every source that is
read so becomes a single call, for which the names are resolved one after the other
(`parseExpr_call`).
-/

namespace Scriptlet

/-- Whether a text is read as one name, which is the text itself. -/
def IsIdentifier (word : String) : Prop :=
  (tokenize word).Says [.name word]

theorem isIdentifier_iff {word : String} :
    IsIdentifier word ↔ (tokenize word).tokens.map Token.said = [(.name, word)] ∧
      (tokenize word).error?.isNone := by
  have hname {l : Lexeme} : l = .name word ↔ (l.kind, l.payload) = (.name, word) := by
    cases l <;> simp [Lexeme.kind, Lexeme.payload]
  have htokens : (tokenize word).tokens.map (·.lexeme) = [.name word] ↔
      (tokenize word).tokens.map Token.said = [(.name, word)] := by
    simp only [List.map_eq_singleton_iff, hname, Token.said]
  rw [← htokens, Option.isNone_iff_eq_none]
  exact ⟨fun h => ⟨h.lexemes, h.closed⟩, fun h => ⟨h.1, h.2⟩⟩

instance (word : String) : Decidable (IsIdentifier word) :=
  decidable_of_iff _ isIdentifier_iff.symm

/-- The lexemes of names with commas between them. -/
def argumentLexemes (names : List String) : List Lexeme :=
  (names.map Lexeme.name).intersperse .comma

/-- The lexemes of a call on bare names. -/
def callLexemes (function : String) (names : List String) : List Lexeme :=
  .name function :: .openParen :: (argumentLexemes names ++ [.closeParen])

/-- A call on bare names as a text. -/
def callText (function : String) (names : List String) : String :=
  function ++ "(" ++ ", ".intercalate names ++ ")"

/-! ### The text -/

namespace Lexer

variable {c : Char} {cs : List Char} {first : Lexeme} {ls : List Lexeme} {word : String}

theorem spells_of_isIdentifier (h : IsIdentifier word) : Spells word.toList (.name word) := by
  obtain ⟨ts, hts, hlexemes⟩ := h.toExcept
  obtain ⟨t, rfl, ht⟩ := List.map_eq_singleton_iff.1 hlexemes
  have hspells := spells_of_toExcept hts t (List.mem_singleton_self t)
  rwa [ht] at hspells

/-- A symbol that joins no equals sign ends the name before it. -/
theorem says_symbol (h : symbol? c = some first) (hequals : withEquals? first = none)
    {p : Position} (hcs : ∀ q, (tokensFrom q cs).Says ls) :
    (tokensFrom p (c :: cs)).Says (first :: ls) := by
  obtain ⟨hcomment, hblank, hquote⟩ := symbol?_plain h
  rw [tokensFrom_symbol hcomment hblank hquote h, symbol_alone hequals]
  exact (hcs _).cons _

theorem says_name (hword : IsIdentifier word) (hends : Ends cs) {p : Position}
    (hcs : ∀ q, (tokensFrom q cs).Says ls) :
    (tokensFrom p (word.toList ++ cs)).Says (.name word :: ls) := by
  rw [tokensFrom_spells (spells_of_isIdentifier hword) hends]
  exact (hcs _).cons _

/-- The arguments are read one by one, up to the bracket that closes the call. -/
theorem says_arguments {names : List String} (h : ∀ name ∈ names, IsIdentifier name)
    (p : Position) :
    (tokensFrom p ([',', ' '].intercalate (names.map String.toList) ++ [')'])).Says
      (argumentLexemes names ++ [.closeParen]) := by
  have hclose (q : Position) : (tokensFrom q [')']).Says [.closeParen] := by
    refine says_symbol rfl rfl fun q => ?_
    rw [tokensFrom_nil]
    exact ⟨rfl, rfl⟩
  induction names generalizing p with
  | nil => exact hclose p
  | cons name names ih =>
      obtain ⟨hname, hnames⟩ := List.forall_mem_cons.1 h
      cases names with
      | nil =>
          rw [List.map_singleton, List.intercalate_singleton]
          exact says_name hname (ends_symbol rfl (by decide)) hclose
      | cons next names =>
          have hblank : Text.isBlank ' ' || Text.isControl ' ' := by decide +kernel
          rw [List.map_cons, List.map_cons, List.intercalate_cons_cons, List.append_assoc,
            List.append_assoc, List.cons_append, List.singleton_append]
          refine says_name hname (ends_symbol rfl (by decide)) fun q => ?_
          refine says_symbol rfl rfl fun q => ?_
          rw [tokensFrom_blank (by decide) hblank]
          exact ih hnames _

end Lexer

theorem says_callText {function : String} {names : List String} (hf : IsIdentifier function)
    (hnames : ∀ name ∈ names, IsIdentifier name) :
    (tokenize (callText function names)).Says (callLexemes function names) := by
  have hchars : (callText function names).toList = function.toList ++
      '(' :: ([',', ' '].intercalate (names.map String.toList) ++ [')']) := by
    simp [callText, String.toList_append, String.toList_intercalate]
  unfold tokenize
  rw [hchars]
  refine Lexer.says_name hf (Lexer.ends_symbol rfl (by decide)) fun q => ?_
  exact Lexer.says_symbol rfl rfl fun q => Lexer.says_arguments hnames q

/-! ### The expression -/

/-- The bracket that closes a group without brackets inside. -/
theorem Bracket.group?_flat {b : Bracket} {inner : List Token} {close : Token}
    (hinner : ∀ t ∈ inner, b.opens t.lexeme = false ∧ b.closes t.lexeme = false)
    (hopens : b.opens close.lexeme = false) (hcloses : b.closes close.lexeme = true)
    (rest : List Token) :
    b.group? 0 (inner ++ close :: rest) = some ⟨inner, close, rest⟩ := by
  induction inner with
  | nil => simp [group?, hopens, hcloses]
  | cons t inner ih =>
      obtain ⟨ht, hinner⟩ := List.forall_mem_cons.1 hinner
      simp [group?, ht, ih hinner, Group.cons]

theorem eq_or_mem_of_mem_intersperse {α : Type} {a sep : α} {as : List α}
    (h : a ∈ as.intersperse sep) : a = sep ∨ a ∈ as := by
  induction as with
  | nil => cases h
  | cons b as ih =>
      cases as with
      | nil => exact .inr h
      | cons c as =>
          rw [List.intersperse_cons_cons, List.mem_cons, List.mem_cons] at h
          rcases h with rfl | rfl | hrest
          · exact .inr List.mem_cons_self
          · exact .inl rfl
          · exact (ih hrest).imp_right (List.mem_cons_of_mem b)

variable {function : String} {names : List String} {t opening closing : Token}
  {inner : List Token}

/-- There are no brackets among names and commas. -/
theorem flat_names (h : inner.map (·.lexeme) = argumentLexemes names) (b : Bracket) :
    ∀ t ∈ inner, b.opens t.lexeme = false ∧ b.closes t.lexeme = false := by
  intro t ht
  have hmem : t.lexeme ∈ argumentLexemes names := h ▸ List.mem_map_of_mem ht
  obtain heq | hname := eq_or_mem_of_mem_intersperse hmem
  · rw [heq]
    cases b <;> exact ⟨rfl, rfl⟩
  · obtain ⟨name, -, heq⟩ := List.mem_map.1 hname
    rw [← heq]
    cases b <;> exact ⟨rfl, rfl⟩

theorem group?_names (hc : closing.lexeme = .closeParen)
    (h : inner.map (·.lexeme) = argumentLexemes names) :
    Bracket.paren.group? 0 (inner ++ [closing]) = some ⟨inner, closing, []⟩ :=
  Bracket.group?_flat (flat_names h .paren) (by rw [hc]; rfl) (by rw [hc]; rfl) []

theorem Extent.callParen?_open (ho : opening.lexeme = .openParen) (ts : List Token) :
    callParen? (.name function) (opening :: ts) = some (opening, ts) := by
  obtain ⟨lexeme, pos, length⟩ := opening
  subst ho
  rfl

namespace Parser

variable {scope : Scope}

/-- Names between commas, each an argument. -/
theorem arguments_names (h : inner.map (·.lexeme) = argumentLexemes names) :
    arguments scope (splitCommas 0 inner) = (do
      let slots ← names.mapM (resolve scope)
      return slots.map .cell) := by
  induction names generalizing inner with
  | nil =>
      obtain rfl := List.map_eq_nil_iff.1 h
      rw [splitCommas, arguments_skip, arguments_nil]
      rfl
  | cons name names ih =>
      cases names with
      | nil =>
          obtain ⟨t, rfl, ht⟩ := List.map_eq_singleton_iff.1 h
          rw [splitCommas_other (by simp [ht]), splitCommas, consPart, arguments_bare ht,
            arguments_nil]
          simp
      | cons next names =>
          obtain ⟨t, after, rfl, ht, hafter⟩ := List.map_eq_cons_iff.1 h
          obtain ⟨comma, inner, rfl, hcomma, hinner⟩ := List.map_eq_cons_iff.1 hafter
          have hdepth : t.lexeme.depthAfter 0 = 0 := by
            rw [ht]
            rfl
          rw [splitCommas_other (by simp [ht]), hdepth, splitCommas_comma hcomma, consPart,
            arguments_bare ht, ih hinner]
          simp only [List.mapM_cons, bind_assoc, pure_bind, List.map_cons]

/-- A name with names in brackets after it is a call. -/
theorem terms_bareCall {operand : Bool} (ht : t.lexeme = .name function)
    (ho : opening.lexeme = .openParen) (hc : closing.lexeme = .closeParen)
    (hinner : inner.map (·.lexeme) = argumentLexemes names) :
    terms scope operand (t :: opening :: (inner ++ [closing])) = (do
      let index ← callee function t.pos
      let slots ← names.mapM (resolve scope)
      return [.call index function (slots.map .cell) t.pos]) := by
  have hcall (tail : List Token) :
      Extent.callParen? t.lexeme (opening :: tail) = some (opening, tail) := by
    rw [ht, Extent.callParen?_open ho]
  rw [terms_call ht hcall (group?_names hc hinner), arguments_names hinner, terms_nil]
  simp only [bind_assoc, pure_bind]

end Parser

theorem Extent.find_call (ht : t.lexeme = .name function) (ho : opening.lexeme = .openParen)
    (hc : closing.lexeme = .closeParen)
    (hinner : inner.map (·.lexeme) = argumentLexemes names) :
    find true (t :: opening :: (inner ++ [closing])) =
      .ok ⟨t :: opening :: (inner ++ [closing]), []⟩ := by
  rw [find_cons, if_neg (by simp [ht, ends]), if_neg (by simp [ht, Bracket.opens]), ht,
    callParen?_open ho]
  dsimp only
  rw [group?_names hc hinner]
  dsimp only
  rw [find]
  simp [Except.map, prepend]

/-- A source that is read as a call on bare names is parsed as this call. -/
theorem Exec.parseExpr_call {source : String}
    (h : (tokenize source).Says (callLexemes function names)) :
    ∃ pos, parseExpr source = declaring (do
      let index ← Parser.callee function pos
      let slots ← names.mapM (Parser.resolve .top)
      return .mk [.call index function (slots.map .cell) pos] pos) := by
  obtain ⟨ts, hts, hlexemes⟩ := h.toExcept
  obtain ⟨t, ts, rfl, ht, hlexemes⟩ := List.map_eq_cons_iff.1 hlexemes
  obtain ⟨opening, ts, rfl, ho, hlexemes⟩ := List.map_eq_cons_iff.1 hlexemes
  obtain ⟨inner, last, rfl, hinner, hlast⟩ := List.map_eq_append_iff.1 hlexemes
  obtain ⟨closing, rfl, hc⟩ := List.map_eq_singleton_iff.1 hlast
  have hdrop : dropSemicolons (t :: opening :: (inner ++ [closing])) =
      t :: opening :: (inner ++ [closing]) := by
    simp [dropSemicolons, hc]
  refine ⟨t.pos, ?_⟩
  rw [parseExpr_of_cover hts hdrop (Extent.find_call ht ho hc hinner) rfl, Parser.expression,
    Parser.terms_bareCall ht ho hc hinner]
  simp only [bind_assoc, pure_bind]

end Scriptlet
