import Scriptlet.Token.Lexer

/-!
# Reading numerals

What the readers of numbers accept. The text of an integer is read as the integer
(`int?_toString`). A double in base ten that begins with a digit or a point is a mantissa with
an exponent after it, if there is one (`IsDecimal.parts`), and the exponent may have a sign.
-/

namespace Scriptlet.Numeral

variable {c : Char} {cs : List Char}

/-! ### Characters -/

/-- A property of characters may be checked on the first 128, if it is asked of these only. -/
@[elab_as_elim]
theorem of_ascii {motive : Char → Prop} (c : Char) (hc : c.toNat < 128)
    (h : ∀ n < 128, motive (Char.ofNat n)) : motive c := by
  have hofNat := h c.toNat hc
  rwa [Char.ofNat_toNat] at hofNat

theorem lt_of_isDigit (h : isDigit c) : c.toNat < 128 := by
  simp only [isDigit, Bool.and_eq_true, decide_eq_true_eq, Char.le_def, UInt32.le_iff_toNat_le] at h
  have hle : c.toNat ≤ 57 := h.2
  omega

theorem lt_of_lower {d : Char} (h : lower c = d) (hd : d.toNat < 128) : c.toNat < 128 := by
  unfold lower at h
  split at h
  · rename_i hupper
    simp only [Bool.and_eq_true, decide_eq_true_eq, Char.le_def, UInt32.le_iff_toNat_le] at hupper
    have hle : c.toNat ≤ 90 := hupper.2
    omega
  · rwa [h]

/-- A number does not begin with a sign, nor like a word for a truth value or a special
number. -/
theorem starts_plain (h : Lexer.startsNumeric (c :: cs)) :
    c ≠ '+' ∧ c ≠ '-' ∧ lower c = c ∧ Lexer.fold c = c ∧ c ∉ ['t', 'f', 'i', 'n'] := by
  have hlt : c.toNat < 128 := by
    rcases Bool.or_eq_true_iff.1 h with hdigit | hpoint
    · exact lt_of_isDigit hdigit
    · rw [eq_of_beq hpoint]
      decide
  change (isDigit c || c == '.') = true at h
  revert h
  refine of_ascii c hlt ?_
  decide +kernel

/-! ### Integers -/

theorem splitSign_of_starts (h : Lexer.startsNumeric cs) : splitSign cs = (false, cs) := by
  unfold splitSign
  split
  · exact absurd rfl (starts_plain h).1
  · exact absurd rfl (starts_plain h).2.1
  · rfl

theorem natOf_digits (h : ∀ c ∈ cs, isDigit c) :
    Base.decimal.natOf cs = Nat.ofDigitChars 10 cs 0 := by
  unfold Base.natOf
  rw [Nat.ofDigitChars_eq_foldl]
  generalize 0 = acc
  induction cs generalizing acc with
  | nil => rfl
  | cons c cs ih =>
      obtain ⟨hc, hcs⟩ := List.forall_mem_cons.1 h
      have hdigit : Base.decimal.digit? c = some (c.toNat - '0'.toNat) := if_pos hc
      rw [List.filterMap_cons_some hdigit, List.foldl_cons, List.foldl_cons, ih hcs, Nat.mul_comm]
      rfl

theorem isDigit_of_mem_toDigits {n : Nat} (h : c ∈ Nat.toDigits 10 n) : isDigit c :=
  Nat.isDigit_of_mem_toDigits (by decide) (by decide) h

/-- The digits of a natural number, after a sign or none, are read as an integer. -/
theorem integer?_of_splitSign {negative : Bool} {n : Nat}
    (h : splitSign cs = (negative, Nat.toDigits 10 n)) :
    integer? cs = some (if negative then -(n : Int) else n) := by
  have hdigits : (Nat.toDigits 10 n).all isDigit :=
    List.all_eq_true.2 fun _ => isDigit_of_mem_toDigits
  have hnat : Base.decimal.natOf (Nat.toDigits 10 n) = n := by
    rw [natOf_digits fun _ => isDigit_of_mem_toDigits, Nat.ofDigitChars_ten_toDigits]
  simp only [integer?, h, hdigits, hnat]
  simp

theorem startsNumeric_toDigits (n : Nat) : Lexer.startsNumeric (Nat.toDigits 10 n) := by
  obtain ⟨c, cs, hcs⟩ := List.exists_cons_of_ne_nil (Nat.toDigits_ne_nil (n := n) (b := 10))
  have hc : isDigit c := isDigit_of_mem_toDigits (hcs ▸ List.mem_cons_self)
  rw [hcs]
  exact Bool.or_eq_true_iff.2 (.inl hc)

theorem toList_toString (n : Int) :
    (toString n).toList =
      if 0 ≤ n then Nat.toDigits 10 n.toNat else '-' :: Nat.toDigits 10 (-n).toNat := by
  change n.repr.toList = _
  rw [Int.repr_eq_if, apply_ite String.toList, String.toList_append, Nat.toList_repr,
    Nat.toList_repr]
  rfl

theorem integer?_toString (n : Int) : integer? (toString n).toList = some n := by
  rw [toList_toString]
  split
  · rename_i hn
    rw [integer?_of_splitSign (splitSign_of_starts (startsNumeric_toDigits _)),
      if_neg Bool.false_ne_true, Int.toNat_of_nonneg hn]
  · rename_i hn
    have hsign : splitSign ('-' :: Nat.toDigits 10 (-n).toNat) =
        (true, Nat.toDigits 10 (-n).toNat) := rfl
    rw [integer?_of_splitSign hsign, if_pos rfl, Int.toNat_of_nonneg (by omega), Int.neg_neg]

/-- The text of an integer of sixty-four bits is read as this integer. -/
theorem int?_toString (n : Int64) : int? (toString n.toInt).toList = some n := by
  rw [int?, integer?_toString, Option.bind_some, if_pos ⟨n.minValue_le_toInt, n.toInt_le⟩,
    Int64.ofInt_toInt]

/-- Only the least integer has no counterpart of the other sign. -/
theorem toInt_neg {n : Int64} (h : n ≠ Int64.minValue) : (-n).toInt = -n.toInt := by
  have hne : n.toInt ≠ Int64.minValue.toInt := mt Int64.toInt_inj.1 h
  have hmin : Int64.minValue.toInt = -9223372036854775808 := rfl
  have hmax : Int64.maxValue.toInt = 9223372036854775807 := rfl
  have hlower := n.minValue_le_toInt
  have hupper := n.toInt_le
  rw [Int64.toInt_neg]
  exact Int.bmod_eq_of_le (by omega) (by omega)

/-! ### Doubles in base ten -/

/-- Whether the text begins with a digit or a point and writes a double in base ten. -/
structure IsDecimal (cs : List Char) : Prop where
  starts : Lexer.startsNumeric cs
  base : (splitBase cs).1 = .decimal
  writes : (float? cs).isSome

theorem isDecimal_iff :
    IsDecimal cs ↔
      Lexer.startsNumeric cs ∧ (splitBase cs).1 = .decimal ∧ (float? cs).isSome :=
  ⟨fun h => ⟨h.starts, h.base, h.writes⟩, fun h => ⟨h.1, h.2.1, h.2.2⟩⟩

instance (cs : List Char) : Decidable (IsDecimal cs) :=
  decidable_of_iff _ isDecimal_iff.symm

/-- The characters of a numeral in base ten, signs apart. -/
def inNumeral (c : Char) : Bool :=
  Base.decimal.inMantissa c || lower c == 'e'

/-- What a numeral in base ten is made of, as far as signs go. Only an exponent has one. -/
inductive Parts : List Char → Prop where
  | unsigned {cs : List Char} (h : ∀ c ∈ cs, inNumeral c) : Parts cs
  | signed {mantissa digits : List Char} {mark sign : Char}
      (hmantissa : ∀ c ∈ mantissa, Base.decimal.inMantissa c) (hmark : lower mark = 'e')
      (hsign : sign = '+' ∨ sign = '-') (hdigits : ∀ c ∈ digits, inNumeral c)
      (hne : digits ≠ []) : Parts (mantissa ++ mark :: sign :: digits)

theorem special?_of_starts (h : Lexer.startsNumeric cs) : special? cs = none := by
  cases cs with
  | nil => cases h
  | cons c cs =>
      obtain ⟨-, -, hlower, -, hword⟩ := starts_plain h
      have hmap : (c :: cs).map lower = c :: cs.map lower := by
        rw [List.map_cons, hlower]
      have hstarts : Lexer.startsNumeric (c :: cs.map lower) := h
      simp only [special?, hmap, splitSign_of_starts hstarts]
      simp_all

/-- A text that begins like a number is a double only if its parts can be told. -/
theorem float?_of_starts (h : Lexer.startsNumeric cs) (hwritten : written? cs = none) :
    float? cs = none := by
  simp only [float?, special?_of_starts h, splitSign_of_starts h, hwritten]
  simp

theorem splitBase_decimal (h : (splitBase cs).1 = .decimal) : splitBase cs = (.decimal, cs) := by
  unfold splitBase at h ⊢
  split at h
  · split at h
    · cases h
    · rename_i hx
      rw [if_neg hx]
  · rfl

theorem splitBase_front {ds : List Char} (h : (splitBase (cs ++ ds)).1 = .decimal) :
    (splitBase cs).1 = .decimal := by
  unfold splitBase
  split
  · rw [List.cons_append, List.cons_append, List.cons_append, splitBase] at h
    split at h
    · cases h
    · rename_i hx
      rw [if_neg hx]
  · rfl

theorem eq_of_splitSign {negative : Bool} {digits : List Char}
    (h : splitSign cs = (negative, digits)) :
    cs = digits ∨ ∃ sign, (sign = '+' ∨ sign = '-') ∧ cs = sign :: digits := by
  unfold splitSign at h
  split at h
  · cases h
    exact .inr ⟨'+', .inl rfl, rfl⟩
  · cases h
    exact .inr ⟨'-', .inr rfl, rfl⟩
  · cases h
    exact .inl rfl

theorem inNumeral_of_inMantissa (h : Base.decimal.inMantissa c) : inNumeral c :=
  Bool.or_eq_true_iff.2 (.inl h)

theorem inNumeral_of_isDigit (h : isDigit c) : inNumeral c :=
  inNumeral_of_inMantissa (by simp [Base.inMantissa, Base.digit?, h])

/-- The characters after the sign of an exponent may stand in a mantissa too. -/
theorem inNumeral_of_exponent (h : isDigit c || c == '_') : inNumeral c := by
  rcases Bool.or_eq_true_iff.1 h with hdigit | hline
  · exact inNumeral_of_isDigit hdigit
  · exact inNumeral_of_inMantissa (by simp [Base.inMantissa, hline])

theorem exponent?_parts (h : (exponent? cs).isSome) :
    ∃ digits, digits ≠ [] ∧ (∀ c ∈ digits, inNumeral c) ∧
      (cs = digits ∨ ∃ sign, (sign = '+' ∨ sign = '-') ∧ cs = sign :: digits) := by
  rcases hsign : splitSign cs with ⟨negative, digits⟩
  simp only [exponent?, hsign] at h
  cases digits with
  | nil => cases h
  | cons c rest =>
      dsimp only at h
      split at h
      · rename_i hdigits
        obtain ⟨hc, hrest⟩ := Bool.and_eq_true_iff.1 hdigits
        refine ⟨c :: rest, List.cons_ne_nil _ _, ?_, eq_of_splitSign hsign⟩
        refine List.forall_mem_cons.2 ⟨inNumeral_of_exponent ?_, fun d hd => ?_⟩
        · rw [hc, Bool.true_or]
        · exact inNumeral_of_exponent (List.all_eq_true.1 hrest d hd)
      · cases h

theorem parts_of_written? {w : Written} (hbase : (splitBase cs).1 = .decimal)
    (h : written? cs = some w) : Parts cs := by
  have hmantissa : ∀ c ∈ cs.takeWhile Base.decimal.inMantissa, Base.decimal.inMantissa c :=
    fun c hc => List.all_eq_true.1 List.all_takeWhile c hc
  have hcs : cs.takeWhile Base.decimal.inMantissa ++ cs.dropWhile Base.decimal.inMantissa = cs :=
    List.takeWhile_append_dropWhile
  simp only [written?, splitBase_decimal hbase] at h
  split at h
  · cases h
  · split at h
    · rename_i hrest
      rw [hrest, List.append_nil] at hcs
      rw [← hcs]
      exact .unsigned fun c hc => inNumeral_of_inMantissa (hmantissa c hc)
    · rename_i mark rest hrest
      rw [hrest] at hcs
      split at h
      · rename_i hmark
        have hmark : lower mark = 'e' := eq_of_beq hmark
        obtain ⟨e, he, -⟩ := Option.map_eq_some_iff.1 h
        obtain ⟨digits, hne, hdigits, rfl | ⟨sign, hsign, rfl⟩⟩ :=
          exponent?_parts (Option.isSome_iff_exists.2 ⟨e, he⟩)
        · rw [← hcs]
          refine .unsigned fun c hc => ?_
          rcases List.mem_append.1 hc with hc | hc
          · exact inNumeral_of_inMantissa (hmantissa c hc)
          · rcases List.mem_cons.1 hc with rfl | hc
            · simp [inNumeral, hmark]
            · exact hdigits c hc
        · rw [← hcs]
          exact .signed hmantissa hmark hsign hdigits hne
      · cases h

theorem IsDecimal.parts (h : IsDecimal cs) : Parts cs := by
  cases hwritten : written? cs with
  | some w => exact parts_of_written? h.base hwritten
  | none =>
      have hwrites := h.writes
      rw [float?_of_starts h.starts hwritten] at hwrites
      cases hwrites

/-- An exponent needs a digit. -/
theorem float?_unfinished {mantissa : List Char} {mark : Char}
    (hstarts : Lexer.startsNumeric (mantissa ++ [mark]))
    (hbase : (splitBase (mantissa ++ [mark])).1 = .decimal)
    (hmantissa : ∀ c ∈ mantissa, Base.decimal.inMantissa c) (hmark : lower mark = 'e') :
    float? (mantissa ++ [mark]) = none := by
  have hstop : ¬Base.decimal.inMantissa mark := by
    have hlt : mark.toNat < 128 := lt_of_lower hmark (by decide)
    revert hmark
    refine of_ascii mark hlt ?_
    decide +kernel
  have htake : (mantissa ++ [mark]).takeWhile Base.decimal.inMantissa = mantissa := by
    rw [List.takeWhile_append_of_pos hmantissa]
    simp [hstop]
  have hdrop : (mantissa ++ [mark]).dropWhile Base.decimal.inMantissa = [mark] := by
    rw [List.dropWhile_append_of_pos hmantissa]
    simp [hstop]
  refine float?_of_starts hstarts ?_
  simp only [written?, splitBase_decimal hbase, htake, hdrop, hmark]
  split
  · rfl
  · rfl

end Scriptlet.Numeral
