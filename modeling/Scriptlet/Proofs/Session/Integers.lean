import Scriptlet.Proofs.Session.Provided
import Scriptlet.Proofs.Session.Rendering

/-!
# Integers read from their text

The text of an integer can be evaluated as an expression, and it can be handed to the function
`int` as a string. The function reads the sign and the digits together. In an expression the
sign is an operator, which joins the number after it, and the digits are read alone. The two
part at the least integer, whose digits are one too large for an integer and are read as a
double. The main statement is `int_text_by_literal_and_call`.
-/

namespace Scriptlet

/-! ### By the function -/

theorem Text.trim_eq_self {cs : List Char} (h : ∀ c ∈ cs, ¬isBlank c) : trim cs = cs := by
  have hdrop {ds : List Char} (hds : ∀ c ∈ ds, ¬isBlank c) : ds.dropWhile isBlank = ds := by
    cases ds with
    | nil => rfl
    | cons c ds => exact List.dropWhile_cons_of_neg (hds c List.mem_cons_self)
  rw [trim, hdrop h, hdrop fun c hc => h c (List.mem_reverse.1 hc), List.reverse_reverse]

theorem not_isBlank_toString {n : Int} {c : Char} (hc : c ∈ (toString n).toList) :
    ¬Text.isBlank c := by
  have hdigit {m : Nat} (hd : c ∈ Nat.toDigits 10 m) : ¬Text.isBlank c := by
    have hnumeral := Numeral.inNumeral_of_isDigit (Numeral.isDigit_of_mem_toDigits hd)
    exact (Lexer.inWord_plain (Lexer.inWord_of_inNumeral hnumeral).1).2.1
  rw [Numeral.toList_toString] at hc
  split at hc
  · exact hdigit hc
  · rcases List.mem_cons.1 hc with rfl | hc
    · decide +kernel
    · exact hdigit hc

/-- The function `int` reads the text of every integer. -/
theorem Library.int_text (n : Int64) (f : Function) :
    Library.int (f.frame [.string (Value.int n).text]) =
      .ok ((f.frame [.string (Value.int n).text]).setResult (.int n)) := by
  have htrim : Text.trim (Value.int n).text.chars = (toString n.toInt).toList := by
    rw [Value.text, Octets.chars_ofString]
    exact Text.trim_eq_self fun _ => not_isBlank_toString
  have hint : Numeral.int? (Text.trim (Value.int n).text.chars) = some n := by
    rw [htrim, Numeral.int?_toString]
  have harg : (f.frame [.string (Value.int n).text]).arg 0 = .ok (.string (Value.int n).text) :=
    rfl
  have hrequire : (f.frame [.string (Value.int n).text]).require 1 = .ok () := rfl
  simp only [Library.int, hrequire, harg, bind, Except.bind, hint]
  rfl

/-! ### As a literal -/

/-- The digits of the least integer make a double, which the sign is put before. -/
theorem Lexer.readAsValue_minValue :
    ReadAsValue (Value.int Int64.minValue).text.toString.toList
      (Value.zero.sub (.float 9223372036854775808)) := by
  have hchars : (Value.int Int64.minValue).text.toString.toList =
      '-' :: Nat.toDigits 10 9223372036854775808 := by decide +kernel
  have hint : Numeral.int? (Nat.toDigits 10 9223372036854775808) = none := by decide +kernel
  have hfloat : Numeral.float? (Nat.toDigits 10 9223372036854775808) =
      some 9223372036854775808 := by decide +kernel
  have hnumber : number? (Nat.toDigits 10 9223372036854775808) =
      some (.float (String.ofList (Nat.toDigits 10 9223372036854775808)) 9223372036854775808) := by
    rw [number?, hint, hfloat, if_pos (Numeral.startsNumeric_toDigits _)]
    rfl
  rw [hchars]
  exact readAsValue_minus hnumber fun pos length => rfl

/-- The text of an integer is read by the function `int` as this integer. It is evaluated to
this integer too, unless it is the least one: this is evaluated to a double. -/
theorem int_text_by_literal_and_call {s : Session} (hint : s.env.Provides "int" Library.int)
    (hroom : s.frames.length < maxFrames) (fuel : Nat) (n : Int64) :
    (∃ t, Exec.call fuel "int" [.string (Value.int n).text] s =
      .ok (.int n, [.string (Value.int n).text]) t) ∧
    (n ≠ Int64.minValue → Exec.eval fuel (Value.int n).text.toString s = .ok (.int n) s) ∧
    (n = Int64.minValue → Exec.eval fuel (Value.int n).text.toString s =
      .ok (Value.zero.sub (.float 9223372036854775808)) s) := by
  refine ⟨Exec.call_of_setResult fuel hint hroom (Library.int_text n), fun hn => ?_, ?_⟩
  · exact Exec.eval_of_readAsValue (Lexer.readAsValue_int hn) fuel s
  · rintro rfl
    exact Exec.eval_of_readAsValue Lexer.readAsValue_minValue fuel s

theorem int_text_by_literal_and_call_least :
    Session.empty.withLibrary.env.Provides "int" Library.int ∧
      Session.empty.withLibrary.frames.length < maxFrames ∧
      (Value.int Int64.minValue).text = "-9223372036854775808" ∧
      (∃ t, Exec.call 0 "int" [.string (Value.int Int64.minValue).text]
        Session.empty.withLibrary =
          .ok (.int Int64.minValue, [.string (Value.int Int64.minValue).text]) t) ∧
      Exec.eval 0 (Value.int Int64.minValue).text.toString Session.empty.withLibrary =
        .ok (Value.zero.sub (.float 9223372036854775808)) Session.empty.withLibrary := by
  have hprovides : Session.empty.withLibrary.env.Provides "int" Library.int :=
    Session.empty.provides_withLibrary (f := ⟨"int", ["x"], Library.int⟩)
      (by simp [Library.functions, Library.conversion])
  have hroom : Session.empty.withLibrary.frames.length < maxFrames := by decide
  obtain ⟨hcall, -, heval⟩ := int_text_by_literal_and_call hprovides hroom 0 Int64.minValue
  exact ⟨hprovides, hroom, by decide +kernel, hcall, heval rfl⟩

end Scriptlet
