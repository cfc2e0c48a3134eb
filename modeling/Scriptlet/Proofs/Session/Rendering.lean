import Scriptlet.Proofs.Session.Literals
import Scriptlet.Proofs.Token.Decimal

/-!
# Values written as sources

`Value.source` writes a value down as an expression: a string in quotes, an array in braces
with commas between its elements, and anything else as it is shown. `Value.Writable` says of
which values nothing is lost. A string that holds a quote would end there, and of a string that
writes no text only the characters are read (`eval_source_stray`). The least integer would be
read as a double, because the sign is no part of a number and its digits alone do not fit into
sixty-four bits. The main statement is `eval_source`: a source that was written for a value is
evaluated to this value.
-/

namespace Scriptlet

mutual

/-- The source of a value, with `gap` after each comma. -/
def Value.source (gap : String) : Value → Octets
  | .string s => "\"" ++ s ++ "\""
  | .array items => "\x7b" ++ Octets.intercalate ("," ++ gap) (Value.sources gap items) ++ "\x7d"
  | v => v.text

/-- The sources of the elements of an array. -/
def Value.sources (gap : String) : List Value → List Octets
  | [] => []
  | v :: vs => Value.source gap v :: Value.sources gap vs

end

/-- Whether a value can be read back from its source. -/
inductive Value.Writable : Value → Prop where
  | string {s : String} (h : '"' ∉ s.toList) : Writable (.string s)
  | int {n : Int64} (h : n ≠ Int64.minValue) : Writable (.int n)
  | bool (b : Bool) : Writable (.bool b)
  | array {items : List Value} (h : ∀ v ∈ items, Writable v) : Writable (.array items)

namespace Value.Writable

theorem nil : (Value.array []).Writable :=
  .array (List.forall_mem_nil _)

theorem cons {v : Value} {vs : List Value} (hv : v.Writable) (hvs : (Value.array vs).Writable) :
    (Value.array (v :: vs)).Writable := by
  cases hvs with
  | array hvs => exact .array (List.forall_mem_cons.2 ⟨hv, hvs⟩)

end Value.Writable

namespace Lexer

variable {p : Position} {c : Char} {span more : List Char} {first l : Lexeme} {ts us : List Token}

/-- The characters `span` at the place `p` are read as `ts`, if the last token ends there. -/
def ReadAs (p : Position) (span : List Char) (ts : List Token) : Prop :=
  ∀ rest, Ends rest → tokensFrom p (span ++ rest) = (tokensFrom (p.after span) rest).append ts

theorem readAs_nil (p : Position) : ReadAs p [] [] :=
  fun _ _ => rfl

theorem readAs_spells (h : Spells span l) (p : Position) :
    ReadAs p span [⟨l, p, span.length⟩] :=
  fun _ hrest => tokensFrom_spells h hrest p

theorem ReadAs.append (h : ReadAs p span ts) (hends : ∀ rest, Ends (more ++ rest))
    (hmore : ReadAs (p.after span) more us) : ReadAs p (span ++ more) (ts ++ us) := by
  intro rest hrest
  rw [List.append_assoc, h _ (hends rest), hmore rest hrest, Lexed.append_append,
    Position.after_append]

theorem ReadAs.symbol (hspan : ReadAs (p.next c) span ts) (h : symbol? c = some first)
    (halone : ∀ rest, Lexer.symbol first (span ++ rest) = (first, 1, span ++ rest)) :
    ReadAs p (c :: span) (⟨first, p, 1⟩ :: ts) := by
  intro rest hrest
  obtain ⟨hcomment, hblank, hquote⟩ := symbol?_plain h
  rw [List.cons_append, tokensFrom_symbol hcomment hblank hquote h, halone]
  exact congrArg (Lexed.cons _) (hspan rest hrest)

theorem ReadAs.blanks {gap : List Char} (hspan : ReadAs (p.after gap) span ts)
    (hgap : ∀ c ∈ gap, Text.isBlank c) : ReadAs p (gap ++ span) ts := by
  induction gap generalizing p with
  | nil => exact hspan
  | cons c gap ih =>
      obtain ⟨hc, hgap⟩ := List.forall_mem_cons.1 hgap
      have hcomment : ¬c == '#' := by
        intro heq
        rw [eq_of_beq heq] at hc
        revert hc
        decide +kernel
      intro rest hrest
      rw [List.cons_append, List.cons_append, tokensFrom_blank hcomment (by simp [hc])]
      exact ih hspan hgap rest hrest

/-- The characters are read as tokens that write the value, wherever they stand. -/
def ReadAsValue (span : List Char) (v : Value) : Prop :=
  ∀ p, ∃ ts, ReadAs p span ts ∧ Writes ts v

theorem readAsValue_spells {v : Value} (h : Spells span l) (hl : Parser.literal? l = some v) :
    ReadAsValue span v :=
  fun p => ⟨_, readAs_spells h p, .literal hl⟩

/-! ### Scalars -/

theorem readAsValue_string {text : String} (h : '"' ∉ text.toList) :
    ReadAsValue ("\"" ++ text ++ "\"").toList (.string text) := by
  have hspells := Spells.string h
  rw [String.ofList_toList] at hspells
  have hchars : ("\"" ++ text ++ "\"").toList = '"' :: (text.toList ++ ['"']) := by
    simp [String.toList_append]
  rw [hchars]
  exact readAsValue_spells hspells rfl

theorem readAsValue_bool (b : Bool) :
    ReadAsValue (Value.bool b).text.toString.toList (.bool b) := by
  have hall : (Value.bool b).text.toString.toList.all fun c => inWord c && !Text.isControl c := by
    cases b <;> decide +kernel
  have hword : ∀ c ∈ (Value.bool b).text.toString.toList, inWord c ∧ ¬Text.isControl c := by
    intro c hc
    simpa using List.all_eq_true.1 hall c hc
  have hne : (Value.bool b).text.toString.toList ≠ [] := by
    cases b <;> decide +kernel
  have htruth : truth? (Value.bool b).text.toString.toList = some b := by
    cases b <;> decide +kernel
  refine readAsValue_spells (spells_word hne hword) ?_
  rw [classify, htruth]
  rfl

theorem number?_toDigits {n : Int64} (h : 0 ≤ n.toInt) :
    number? (Nat.toDigits 10 n.toInt.toNat) =
      some (.int (String.ofList (Nat.toDigits 10 n.toInt.toNat)) n) := by
  have hint := Numeral.int?_toString n
  rw [Numeral.toList_toString, if_pos h] at hint
  rw [number?, hint]

/-- A minus sign in front of digits is a token of its own, and the parser joins the two. -/
theorem readAsValue_minus {m : Nat} {v : Value} (h : number? (Nat.toDigits 10 m) = some l)
    (hl : ∀ pos length, Parser.negated? [⟨l, pos, length⟩] = some (v, [])) :
    ReadAsValue ('-' :: Nat.toDigits 10 m) v := by
  have hequals (rest : List Char) : ∀ d ∈ (Nat.toDigits 10 m ++ rest).head?, d ≠ '=' := by
    have hstarts := Numeral.startsNumeric_toDigits m
    cases hdigits : Nat.toDigits 10 m with
    | nil => exact absurd hdigits Nat.toDigits_ne_nil
    | cons c cs =>
        rw [hdigits] at hstarts
        rintro d ⟨⟩ rfl
        cases hstarts
  intro p
  have hminus := (readAs_spells (spells_toDigits h) (p.next '-')).symbol rfl
    fun rest => symbol_apart (hequals rest) (.op .sub)
  exact ⟨_, hminus, .signed rfl (hl _ _)⟩

theorem readAsValue_int {n : Int64} (h : n ≠ Int64.minValue) :
    ReadAsValue (Value.int n).text.toString.toList (.int n) := by
  rw [Value.text, Octets.toString_ofString, Numeral.toList_toString]
  split
  · rename_i hn
    exact readAsValue_spells (spells_toDigits (number?_toDigits hn)) rfl
  · have hneg : (-n).toInt = -n.toInt := Numeral.toInt_neg h
    have hnumber := number?_toDigits (n := -n) (by omega)
    rw [hneg] at hnumber
    have hvalue : Value.zero.sub (.int (-n)) = .int n := by
      change Value.int (0 - -n) = .int n
      rw [Int64.zero_sub, Int64.neg_neg]
    refine readAsValue_minus hnumber fun pos length => ?_
    rw [← hvalue]
    rfl

/-! ### Arrays -/

variable {gap : List Char}

/-- Elements are read one by one. -/
theorem readAs_elements (hgap : ∀ c ∈ gap, Text.isBlank c) {chars : Value → List Char}
    {vs : List Value} (h : ∀ v ∈ vs, ReadAsValue (chars v) v) (p : Position) :
    ∃ ts, ReadAs p ((',' :: gap).intercalate (vs.map chars)) ts ∧ WritesAll ts vs := by
  induction vs generalizing p with
  | nil => exact ⟨[], readAs_nil p, .nil⟩
  | cons v vs ih =>
      obtain ⟨hv, hvs⟩ := List.forall_mem_cons.1 h
      obtain ⟨ts, hts, hwrites⟩ := hv p
      cases vs with
      | nil => exact ⟨ts, by simpa using hts, .last hwrites⟩
      | cons w vs =>
          obtain ⟨us, hus, hothers⟩ := ih hvs (((p.after (chars v)).next ',').after gap)
          have hcomma := (hus.blanks hgap).symbol (c := ',') rfl fun rest => symbol_alone rfl _
          rw [List.map_cons, List.map_cons, List.intercalate_cons_cons, List.append_assoc,
            List.cons_append]
          have hall := hts.append (fun rest => ends_symbol rfl (by decide)) hcomma
          exact ⟨_, hall, .cons hwrites rfl hothers⟩

theorem readAsValue_array (hgap : ∀ c ∈ gap, Text.isBlank c) {chars : Value → List Char}
    {vs : List Value} (h : ∀ v ∈ vs, ReadAsValue (chars v) v) :
    ReadAsValue ('\x7b' :: ((',' :: gap).intercalate (vs.map chars) ++ ['\x7d'])) (.array vs) := by
  intro p
  obtain ⟨ts, hts, hwrites⟩ := readAs_elements hgap h (p.next '\x7b')
  have hclosing := hts.append (fun rest => ends_symbol rfl (by decide))
    (readAs_spells (.symbol (c := '\x7d') rfl) _)
  exact ⟨_, hclosing.symbol rfl fun rest => symbol_alone rfl _, .array rfl rfl hwrites⟩

end Lexer

namespace Value

variable {gap : String}

theorem sources_eq_map (gap : String) (vs : List Value) : sources gap vs = vs.map (source gap) := by
  induction vs with
  | nil => rfl
  | cons v vs ih => rw [sources, ih, List.map_cons]

/-- Elements whose sources are texts are put together to a text. -/
theorem source_array {vs : List Value}
    (h : ∀ v ∈ vs, Octets.ofString (source gap v).toString = source gap v) :
    source gap (.array vs) = Octets.ofString
      ("\x7b" ++ ("," ++ gap).intercalate (vs.map fun v => (source gap v).toString) ++ "\x7d") := by
  have hsources : sources gap vs =
      (vs.map fun v => (source gap v).toString).map Octets.ofString := by
    rw [sources_eq_map, List.map_map]
    exact List.map_congr_left fun v hv => (h v hv).symm
  rw [source, hsources, ← Octets.ofString_append, ← Octets.ofString_intercalate,
    Octets.ofString_append, Octets.ofString_append]

/-- The source of a value is a text. -/
theorem Writable.ofString_source {v : Value} (h : v.Writable) :
    Octets.ofString (v.source gap).toString = v.source gap := by
  have htext {o : Octets} {t : String} (ho : o = t) : Octets.ofString o.toString = o := by
    rw [ho, Octets.toString_ofString]
  induction h with
  | @string s h =>
      have hsource : source gap (.string s) = ("\"" ++ s ++ "\"" : String) := by
        simp only [source, Octets.ofString_append]
      exact htext hsource
  | int h => exact htext rfl
  | bool b => cases b <;> exact htext rfl
  | array h ih => exact htext (source_array ih)

/-- The source of a value is read as tokens that write this value. -/
theorem Writable.readAsValue (hgap : ∀ c ∈ gap.toList, Text.isBlank c) {v : Value}
    (h : v.Writable) : Lexer.ReadAsValue (v.source gap).toString.toList v := by
  induction h with
  | @string s h =>
      rw [source, ← Octets.ofString_append, ← Octets.ofString_append, Octets.toString_ofString]
      exact Lexer.readAsValue_string h
  | int h => exact Lexer.readAsValue_int h
  | bool b => exact Lexer.readAsValue_bool b
  | @array items h ih =>
      have hchars : (source gap (.array items)).toString.toList = '\x7b' ::
          ((',' :: gap.toList).intercalate (items.map fun v => (source gap v).toString.toList) ++
            ['\x7d']) := by
        rw [source_array fun v hv => (h v hv).ofString_source, Octets.toString_ofString]
        simp [String.toList_append, String.toList_intercalate, List.map_map, Function.comp_def]
      rw [hchars]
      exact Lexer.readAsValue_array hgap ih

end Value

/-- A source that is read as tokens that write a value is evaluated to this value. -/
theorem Exec.eval_of_readAsValue {source : String} {v : Value}
    (h : Lexer.ReadAsValue source.toList v) (fuel : Nat) (s : Session) :
    eval fuel source s = .ok v s := by
  obtain ⟨ts, hts, hwrites⟩ := h .start
  have htokens := hts [] Lexer.ends_nil
  rw [List.append_nil, Lexer.tokensFrom_nil] at htokens
  have hlexed : (tokenize source).toExcept = .ok ts := by
    rw [tokenize, htokens, Lexed.toExcept, Lexed.append, List.append_nil]
  exact eval_of_writes hlexed hwrites fuel s

/-- An octet that is in no text. -/
def strayOctet : Octets := ⟨[0xff]⟩

/-- A string that writes no text has a source without a quote inside, which is evaluated to
another string. -/
theorem eval_source_stray :
    '"' ∉ strayOctet.toString.toList ∧ Value.string strayOctet ≠ .string "\ufffd" ∧
      Exec.eval 0 ((Value.string strayOctet).source " ").toString Session.empty =
        .ok (.string "\ufffd") Session.empty := by
  have hsource : ((Value.string strayOctet).source " ").toString = "\"" ++ "\ufffd" ++ "\"" := by
    decide +kernel
  refine ⟨by decide +kernel, ?_, ?_⟩
  · intro h
    injection h with h
    exact absurd h (by decide +kernel)
  · rw [hsource]
    exact Exec.eval_of_readAsValue (Lexer.readAsValue_string (by decide +kernel)) 0 _

/-- What is written for a value is evaluated to this value and changes nothing. -/
theorem eval_source {gap : String} (hgap : ∀ c ∈ gap.toList, Text.isBlank c) {v : Value}
    (h : v.Writable) (fuel : Nat) (s : Session) :
    Exec.eval fuel (v.source gap).toString s = .ok v s :=
  Exec.eval_of_readAsValue (h.readAsValue hgap) fuel s

theorem eval_source_nested :
    ∃ v : Value, v.Writable ∧ (∀ c ∈ " ".toList, Text.isBlank c) ∧
      v.source " " = "\x7b\"é\x7b,# \n\", \x7b-9223372036854775807, \x7b\x7d\x7d, False\x7d" ∧
      ∀ fuel s, Exec.eval fuel (v.source " ").toString s = .ok v s := by
  have hgap : ∀ c ∈ " ".toList, Text.isBlank c := List.all_eq_true.1 (by decide +kernel)
  have hinner : (Value.array [.int (-9223372036854775807), .array []]).Writable :=
    .cons (.int (by decide)) (.cons .nil .nil)
  have hwritable := Value.Writable.cons (.string (s := "é\x7b,# \n") (by decide))
    (hinner.cons (.cons (.bool false) .nil))
  exact ⟨_, hwritable, hgap, by decide +kernel, eval_source hgap hwritable⟩

end Scriptlet
