import Scriptlet.Proofs.Number.Numeral
import Scriptlet.Proofs.Token.Respelling

/-!
# Numbers as words

Words are cut before it is looked at whether they are numbers, and a sign is a symbol, which
cuts a word wherever it stands. So a number in base ten is one token unless its exponent has
a sign, and with a sign it is three: a name that ends in the mark of the exponent, an operator,
and the digits of the exponent. The main statement is `tokenize_decimal`.
-/

namespace Scriptlet

namespace Lexer

open Numeral

variable {c : Char} {cs : List Char}

theorem inWord_of_inNumeral (h : inNumeral c) : inWord c ∧ ¬Text.isControl c := by
  have hlt : c.toNat < 128 := by
    rcases Bool.or_eq_true_iff.1 h with hmantissa | hmark
    · simp only [Base.inMantissa, Bool.or_eq_true, beq_iff_eq] at hmantissa
      rcases hmantissa with (rfl | rfl) | hdigit
      · decide
      · decide
      · refine lt_of_isDigit ?_
        by_contra hc
        simp [Base.digit?, hc] at hdigit
    · exact lt_of_lower (eq_of_beq hmark) (by decide)
  revert h
  refine of_ascii c hlt ?_
  decide +kernel

/-! ### What a word that begins like a number can be -/

theorem truth?_of_starts (h : startsNumeric cs) : truth? cs = none := by
  cases cs with
  | nil => cases h
  | cons c cs =>
      obtain ⟨-, -, -, hfold, hword⟩ := starts_plain h
      simp only [List.mem_cons, not_or] at hword
      have htrue : ¬((c :: cs).map fold == "true".toList) := by
        simp [hfold, hword]
      have hfalse : ¬((c :: cs).map fold == "false".toList) := by
        simp [hfold, hword]
      rw [truth?, if_neg htrue, if_neg hfalse]

theorem reserved?_of_starts (h : startsNumeric cs) : reserved? (String.ofList cs) = none := by
  cases hreserved : reserved? (String.ofList cs) with
  | none => rfl
  | some l =>
      have hcs : cs = (String.ofList cs).toList := String.toList_ofList.symm
      rw [hcs] at h
      unfold reserved? at hreserved
      split at hreserved <;> rename_i hspelled <;>
        first | (rw [hspelled] at h; cases h) | cases hreserved

/-- A word that begins like a number is a number or a name. -/
theorem classify_of_starts (h : startsNumeric cs) :
    classify cs = (number? cs).getD (.name (String.ofList cs)) := by
  simp only [classify, truth?_of_starts h, reserved?_of_starts h]
  cases number? cs <;> rfl

theorem startsNumeric_front {rest : List Char} (h : startsNumeric (cs ++ rest)) (hne : cs ≠ []) :
    startsNumeric cs := by
  obtain ⟨c, cs, rfl⟩ := List.exists_cons_of_ne_nil hne
  exact h

theorem kind_of_number? {l : Lexeme} (h : number? cs = some l) : l.kind = .int ∨ l.kind = .float := by
  unfold number? at h
  split at h
  · cases h
    exact .inl rfl
  · split at h
    · obtain ⟨x, -, rfl⟩ := Option.map_eq_some_iff.1 h
      exact .inr rfl
    · cases h

theorem exists_number? (h : IsDecimal cs) : ∃ l, number? cs = some l := by
  unfold number?
  split
  · exact ⟨_, rfl⟩
  · obtain ⟨x, hx⟩ := Option.isSome_iff_exists.1 h.writes
    rw [if_pos h.starts, hx]
    exact ⟨_, rfl⟩

/-- A number that ends in the mark of its exponent is none. -/
theorem number?_unfinished {mantissa : List Char} {mark : Char}
    (hstarts : startsNumeric (mantissa ++ [mark]))
    (hbase : (splitBase (mantissa ++ [mark])).1 = .decimal)
    (hmantissa : ∀ c ∈ mantissa, Base.decimal.inMantissa c) (hmark : lower mark = 'e') :
    number? (mantissa ++ [mark]) = none := by
  have hdigits : ¬(mantissa ++ [mark]).all isDigit := by
    intro hall
    have hdigit := List.all_eq_true.1 hall mark (by simp)
    have hstart : startsNumeric [mark] := Bool.or_eq_true_iff.2 (.inl hdigit)
    rw [← (starts_plain hstart).2.2.1, hmark] at hdigit
    cases hdigit
  have hint : int? (mantissa ++ [mark]) = none := by
    simp [int?, integer?, splitSign_of_starts hstarts, hdigits]
  rw [number?, hint, float?_unfinished hstarts hbase hmantissa hmark]
  simp

/-! ### What the text of a number is read as -/

/-- The digits of a natural number are a word, and it is whatever number they make. -/
theorem spells_toDigits {n : Nat} {l : Lexeme} (h : number? (Nat.toDigits 10 n) = some l) :
    Spells (Nat.toDigits 10 n) l := by
  have hword : ∀ c ∈ Nat.toDigits 10 n, inWord c ∧ ¬Text.isControl c :=
    fun c hc => inWord_of_inNumeral (inNumeral_of_isDigit (isDigit_of_mem_toDigits hc))
  have hspells := spells_word Nat.toDigits_ne_nil hword
  rwa [classify_of_starts (startsNumeric_toDigits n), h] at hspells

theorem tokensFrom_numeral (hne : cs ≠ []) (hcs : ∀ c ∈ cs, inNumeral c) (p : Position) :
    tokensFrom p cs = ⟨[⟨classify cs, p, cs.length⟩], none⟩ := by
  have hspells := spells_word hne fun c hc => inWord_of_inNumeral (hcs c hc)
  have hread := tokensFrom_spells hspells ends_nil p
  rw [List.append_nil, tokensFrom_nil] at hread
  exact hread

/-- Without a sign the text of a number is a single word. -/
theorem tokensFrom_unsigned (h : IsDecimal cs) (hcs : ∀ c ∈ cs, inNumeral c) (p : Position) :
    ∃ l : Lexeme, (l.kind = .int ∨ l.kind = .float) ∧ l.payload = String.ofList cs ∧
      tokensFrom p cs = ⟨[⟨l, p, cs.length⟩], none⟩ := by
  obtain ⟨l, hl⟩ := exists_number? h
  refine ⟨l, kind_of_number? hl, (number?_payload hl).2, ?_⟩
  have hne : cs ≠ [] := by
    rintro rfl
    cases h.starts
  rw [tokensFrom_numeral hne hcs, classify_of_starts h.starts, hl]
  rfl

/-- A sign ends the word in front of it, and the digits behind it are a word of their own. -/
theorem tokensFrom_signed {front digits : List Char} {sign : Char} {o : Operator}
    (hstarts : startsNumeric front) (hfront : ∀ c ∈ front, inNumeral c)
    (hnumber : number? front = none) (hsign : symbol? sign = some (.op o)) (hother : sign ≠ '=')
    (hne : digits ≠ []) (hdigits : ∀ c ∈ digits, inNumeral c) (p : Position) :
    tokensFrom p (front ++ sign :: digits) =
      ⟨[⟨.name (String.ofList front), p, front.length⟩, ⟨.op o, p.after front, 1⟩,
        ⟨classify digits, p.after (front ++ [sign]), digits.length⟩], none⟩ := by
  have hname : classify front = .name (String.ofList front) := by
    rw [classify_of_starts hstarts, hnumber]
    rfl
  have hfrontNe : front ≠ [] := by
    rintro rfl
    cases hstarts
  have hspells := spells_word hfrontNe fun c hc => inWord_of_inNumeral (hfront c hc)
  have hequals : ∀ d ∈ digits.head?, d ≠ '=' := by
    rintro d hd rfl
    cases hdigits '=' (List.mem_of_mem_head? hd)
  rw [tokensFrom_spells hspells (ends_symbol hsign hother), hname, tokensFrom_apart hsign hequals,
    tokensFrom_numeral hne hdigits, Position.after_append]
  rfl

/-- The front of a number that has a sign, up to the sign. -/
theorem number?_front {mantissa digits : List Char} {mark sign : Char}
    (h : IsDecimal (mantissa ++ mark :: sign :: digits))
    (hmantissa : ∀ c ∈ mantissa, Base.decimal.inMantissa c) (hmark : lower mark = 'e') :
    startsNumeric (mantissa ++ [mark]) ∧ (∀ c ∈ mantissa ++ [mark], inNumeral c) ∧
      number? (mantissa ++ [mark]) = none := by
  have hcut : mantissa ++ mark :: sign :: digits = (mantissa ++ [mark]) ++ sign :: digits := by
    simp
  have hstarts := h.starts
  have hbase := h.base
  rw [hcut] at hstarts hbase
  have hfront := startsNumeric_front hstarts (by simp)
  refine ⟨hfront, ?_, number?_unfinished hfront (splitBase_front hbase) hmantissa hmark⟩
  intro c hc
  rcases List.mem_append.1 hc with hc | hc
  · exact inNumeral_of_inMantissa (hmantissa c hc)
  · obtain rfl := List.mem_singleton.1 hc
    simp [inNumeral, hmark]

theorem exists_operator_of_sign {sign : Char} (h : sign = '+' ∨ sign = '-') :
    ∃ o : Operator, (o = .add ∨ o = .sub) ∧ symbol? sign = some (.op o) ∧
      o.symbol.toList = [sign] ∧ sign ≠ '=' := by
  rcases h with rfl | rfl
  · exact ⟨.add, .inl rfl, rfl, rfl, by decide⟩
  · exact ⟨.sub, .inr rfl, rfl, rfl, by decide⟩

end Lexer

open Numeral

/-- A number in base ten that begins with a digit or a point is one token, unless its exponent
has a sign. Then it is a name, the operator that the sign is, and the word of the digits. -/
theorem tokenize_decimal {source : String} (h : IsDecimal source.toList) :
    ('+' ∉ source.toList ∧ '-' ∉ source.toList → ∃ l : Lexeme,
      (l.kind = .int ∨ l.kind = .float) ∧ l.payload = source ∧
        tokenize source = ⟨[⟨l, .start, source.length⟩], none⟩) ∧
    ('+' ∈ source.toList ∨ '-' ∈ source.toList → ∃ front digits o,
      (o = .add ∨ o = .sub) ∧ source = front ++ o.symbol ++ digits ∧
        tokenize source =
          ⟨[⟨.name front, .start, front.length⟩,
            ⟨.op o, Position.start.after front.toList, 1⟩,
            ⟨Lexer.classify digits.toList,
              Position.start.after (front.toList ++ o.symbol.toList), digits.length⟩], none⟩) := by
  obtain ⟨cs, rfl⟩ : ∃ cs, source = String.ofList cs :=
    ⟨source.toList, String.ofList_toList.symm⟩
  rw [String.toList_ofList] at h ⊢
  cases h.parts with
  | unsigned hcs =>
      refine ⟨fun _ => ?_, ?_⟩
      · rw [tokenize, String.toList_ofList, String.length_ofList]
        exact Lexer.tokensFrom_unsigned h hcs .start
      · rintro (hplus | hminus)
        · cases hcs '+' hplus
        · cases hcs '-' hminus
  | @signed mantissa digits mark sign hmantissa hmark hsign hdigits hne =>
      refine ⟨?_, fun _ => ?_⟩
      · rintro ⟨hplus, hminus⟩
        rcases hsign with rfl | rfl
        · exact absurd (by simp) hplus
        · exact absurd (by simp) hminus
      · obtain ⟨o, ho, hsymbol, hspelled, hother⟩ := Lexer.exists_operator_of_sign hsign
        obtain ⟨hstarts, hfront, hnumber⟩ := Lexer.number?_front h hmantissa hmark
        have hread := Lexer.tokensFrom_signed hstarts hfront hnumber hsymbol hother hne hdigits
          .start
        refine ⟨String.ofList (mantissa ++ [mark]), String.ofList digits, o, ho, ?_, ?_⟩
        · rw [← String.toList_inj]
          simp [hspelled]
        · rw [tokenize, String.toList_ofList, ← List.singleton_append, ← List.append_assoc]
          simpa only [String.toList_ofList, String.length_ofList, hspelled] using hread

theorem tokenize_decimal_fraction :
    IsDecimal "1_0.50E3".toList ∧ ∃ l : Lexeme, (l.kind = .int ∨ l.kind = .float) ∧
      l.payload = "1_0.50E3" ∧ tokenize "1_0.50E3" = ⟨[⟨l, .start, 8⟩], none⟩ := by
  have hdecimal : IsDecimal "1_0.50E3".toList := by decide +kernel
  exact ⟨hdecimal, (tokenize_decimal hdecimal).1 (by decide)⟩

/-- A million is shown with a sign in its exponent, and this text is not one token. -/
theorem tokenize_decimal_million :
    (Value.float 1000000).text = "1e+06" ∧ IsDecimal "1e+06".toList ∧
      ¬∃ l : Lexeme, (l.kind = .int ∨ l.kind = .float) ∧
        tokenize "1e+06" = ⟨[⟨l, .start, 5⟩], none⟩ := by
  refine ⟨by decide +kernel, by decide +kernel, ?_⟩
  rintro ⟨l, -, hread⟩
  have hthree : (tokenize "1e+06").tokens.length = 3 := by decide +kernel
  rw [hread] at hthree
  cases hthree

end Scriptlet
