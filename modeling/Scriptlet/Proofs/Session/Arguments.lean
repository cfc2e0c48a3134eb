import Scriptlet.Proofs.Parsing.Forms
import Scriptlet.Proofs.Session.Calls
import Scriptlet.Session.Host

/-!
# A name as an argument

An argument that is a name alone passes the cell of the name, so that a parameter passed by
reference can be copied back to it. In parentheses it is an expression, which passes a
value. For a function that takes all of its parameters by value, one difference is left: a
cell is read when the call begins, after all arguments are evaluated, but an expression is
evaluated when its turn comes. So the two differ where an argument to the right changes
what the name holds, and nowhere else. The main statement is `bare_argument`.
-/

namespace Scriptlet

/-- The argument that a name in parentheses makes. -/
def Argument.parenthesised (slot : Slot) (opening closing : Position) : Argument :=
  .expr (.mk [.openParen opening, .slot slot, .closeParen closing] opening)

/-- Calls a function with arguments that are still to be evaluated. -/
def evalCall (call : Caller) (index : Nat) (args : List Argument) (pos? : Option Position) :
    Exec Frame := do
  let sources ← evalArguments call args
  call index sources pos?

/-- Whether the function at an index, if there is one, takes all of its parameters by
value. -/
def Session.ByValue (s : Session) (index : Nat) : Prop :=
  ∀ f, s.env.functions[index]? = some f → ∀ p ∈ f.params, p.byRef = false

/-- Running declares parameters that are passed by value only. -/
theorem Session.ByValue.kept {s t : Session} {index : Nat} (h : s.ByValue index)
    (hst : s.Kept t) : t.ByValue index := by
  intro g hg
  have hlt : index < s.env.functions.length := by
    rw [← hst.functions_length]
    exact (List.getElem?_eq_some_iff.1 hg).1
  have hf : s.env.functions[index]? = some s.env.functions[index] := List.getElem?_eq_getElem hlt
  obtain ⟨added, hparams, hadded⟩ := (hst.functions hf hg).extended
  rw [hparams, List.forall_mem_append]
  exact ⟨h _ hf, hadded⟩

theorem Function.byValue_paramsFor {params : List Param} (h : ∀ p ∈ params, p.byRef = false)
    (argCount : Nat) : ∀ p ∈ paramsFor params argCount, p.byRef = false := by
  rw [paramsFor, List.forall_mem_append]
  refine ⟨h, fun p hp => ?_⟩
  obtain ⟨i, _, rfl⟩ := List.mem_map.1 hp
  rfl

/-! ### Parsing -/

namespace Parser

variable {scope : Scope} {t opening closing : Token} {word : String}

theorem arguments_append (scope : Scope) (before after : List (List Token)) :
    arguments scope (before ++ after) = (do
      let first ← arguments scope before
      let rest ← arguments scope after
      return first ++ rest) := by
  induction before with
  | nil =>
      rw [List.nil_append, arguments_nil, pure_bind]
      exact (bind_pure _).symm
  | cons part before ih =>
      cases part with
      | nil => rw [List.cons_append, arguments_skip, arguments_skip, ih]
      | cons t ts =>
          rw [List.cons_append]
          cases hsimple : simpleArgument scope (t :: ts) with
          | none =>
              rw [arguments_expr _ hsimple, arguments_expr _ hsimple, ih]
              simp only [bind_assoc, pure_bind, List.cons_append]
          | some simple =>
              rw [arguments_simple _ hsimple, arguments_simple _ hsimple, ih]
              simp only [bind_assoc, pure_bind, List.cons_append]

theorem arguments_bare (ht : t.lexeme = .name word) (after : List (List Token)) :
    arguments scope ([t] :: after) = (do
      let slot ← resolve scope word
      let rest ← arguments scope after
      return .cell slot :: rest) := by
  obtain ⟨lexeme, pos, length⟩ := t
  subst ht
  rw [arguments_simple after (show simpleArgument scope [⟨.name word, pos, length⟩] =
    some (Argument.cell <$> resolve scope word) from rfl), bind_map_left]

theorem terms_parenthesised (ht : t.lexeme = .name word) (ho : opening.lexeme = .openParen)
    (hc : closing.lexeme = .closeParen) :
    terms scope true [opening, t, closing] = (do
      let slot ← resolve scope word
      return [.openParen opening.pos, .slot slot, .closeParen closing.pos]) := by
  have hcall : Extent.callParen? t.lexeme [closing] = none := by
    obtain ⟨lexeme, pos, length⟩ := closing
    subst hc
    rw [ht]
    rfl
  rw [terms_openParen ho, terms_name ht, hcall]
  dsimp only
  rw [terms_closeParen hc, terms_nil]
  simp only [bind_assoc, pure_bind]

theorem arguments_parenthesised (ht : t.lexeme = .name word) (ho : opening.lexeme = .openParen)
    (hc : closing.lexeme = .closeParen) (after : List (List Token)) :
    arguments scope ([opening, t, closing] :: after) = (do
      let slot ← resolve scope word
      let rest ← arguments scope after
      return .parenthesised slot opening.pos closing.pos :: rest) := by
  have hsimple : simpleArgument scope [opening, t, closing] = none := by
    obtain ⟨lexeme, pos, length⟩ := opening
    subst ho
    rfl
  rw [arguments_expr after hsimple, terms_parenthesised ht ho hc]
  simp only [map_bind, map_pure, bind_assoc, pure_bind]
  rfl

end Parser

/-! ### Evaluation -/

section Evaluation

variable {call : Caller} {slot : Slot} {s : Session}

theorem evalArguments_append (call : Caller) (before after : List Argument) :
    evalArguments call (before ++ after) = (do
      let first ← evalArguments call before
      let rest ← evalArguments call after
      return first ++ rest) := by
  induction before with
  | nil =>
      rw [List.nil_append, evalArguments, pure_bind]
      exact (bind_pure _).symm
  | cons arg before ih =>
      cases arg <;>
        simp only [List.cons_append, evalArguments, ih, bind_assoc, pure_bind]

/-- In parentheses, a name is read like a name alone. -/
theorem evalExpr_parenthesised (call : Caller) (slot : Slot) (opening closing : Position) :
    evalExpr call (.mk [.openParen opening, .slot slot, .closeParen closing] opening) =
      Exec.read slot := by
  funext s
  change _ = Exec.readIn s slot s
  rw [evalExpr, bind_of_ok (show (get : Exec Session) s = .ok s s from rfl)]
  simp only [Term.slots, List.filterMap_cons, List.filterMap_nil, sortTerms, List.forM_eq_forM,
    List.forM_cons, List.forM_nil]
  cases hcell : s.cell slot with
  | ok v =>
      have hread : Exec.readIn s slot = pure v := by rw [Exec.readIn, hcell]
      rw [hread]
      rfl
  | error p =>
      have hread : Exec.readIn s slot = throw (.panic p) := by rw [Exec.readIn, hcell]
      rw [hread]
      rfl

theorem copyBack_byValue {params : List Param} (h : ∀ p ∈ params, p.byRef = false)
    (sources : List Source) (vs : List Value) : copyBack params sources vs = pure () := by
  fun_induction copyBack params sources vs with
  | case1 p params sources v vs copyRest slot href ih =>
      rw [h p List.mem_cons_self] at href
      cases href
  | case2 p params sources v vs copyRest slot href ih =>
      exact ih fun q hq => h q (List.mem_cons_of_mem p hq)
  | case3 p params sources v vs copyRest w ih =>
      exact ih fun q hq => h q (List.mem_cons_of_mem p hq)
  | case4 => rfl

theorem read_of_cell {v : Value} (h : s.cell slot = .ok v) : Exec.read slot s = .ok v s := by
  have hvalue : (Source.cell slot).valueIn s = .ok v := h
  exact Source.read_eq_ok hvalue

theorem read_of_panic {p : Panic} (h : s.cell slot = .error p) :
    Exec.read slot s = .error (.panic p) s := by
  have hread : Exec.readIn s slot = throw (.panic p) := by rw [Exec.readIn, h]
  change Exec.readIn s slot s = _
  rw [hread]
  rfl

/-- Reading an argument has no effect. -/
theorem Source.after_read (source : Source) (s : Session) :
    After source.read s (fun _ t => t = s) fun _ t => t = s := by
  cases source with
  | value v => rfl
  | cell slot =>
      rw [read, Exec.read, after_bind, after_get, Exec.readIn]
      cases s.cell slot with
      | ok v => rfl
      | error p => rfl

/-- A cell is read like the value that it holds. -/
theorem mapM_read_cell {v : Value} (hv : s.cell slot = .ok v) (before after : List Source) :
    (before ++ .cell slot :: after).mapM Source.read s =
      (before ++ .value v :: after).mapM Source.read s := by
  induction before with
  | nil =>
      have hread : (Source.cell slot).read s = (Source.value v).read s := read_of_cell hv
      rw [List.nil_append, List.nil_append, List.mapM_cons, List.mapM_cons]
      exact bind_congr_left hread
  | cons source before ih =>
      rw [List.cons_append, List.cons_append, List.mapM_cons, List.mapM_cons]
      refine bind_congr_right fun w t hread => ?_
      obtain rfl := (source.after_read s).of_ok hread
      exact bind_congr_left ih

/-- For a function that takes its parameters by value, a cell is as good as the value that it
holds when the call begins. -/
theorem callFunction_cell {run : Frame → Body → Exec Unit} {index : Nat} {v : Value}
    (hvalue : s.ByValue index) (hv : s.cell slot = .ok v) (before after : List Source)
    (pos? : Option Position) :
    callFunction run index (before ++ .cell slot :: after) pos? s =
      callFunction run index (before ++ .value v :: after) pos? s := by
  rw [callFunction, callFunction]
  refine bind_congr_right fun start t hstart => ?_
  cases hstart
  have hlength : (before ++ .cell slot :: after).length = (before ++ .value v :: after).length := by
    simp
  cases hf : s.env.functions[index]? with
  | none => rfl
  | some f =>
      dsimp only
      rw [hlength]
      refine bind_congr_right fun _ t hmodify => ?_
      cases hmodify
      let params := Function.paramsFor f.params (before ++ .value v :: after).length
      have hcell : (s.modifyFunction index ({ · with params := params })).cell slot = .ok v := by
        rw [Session.cell_modifyFunction index, hv]
        exact fun g => rfl
      refine (bind_congr_left (mapM_read_cell hcell before after)).trans ?_
      refine bind_congr_right fun args t _ => bind_congr_right fun left u _ => ?_
      have hparams := Function.byValue_paramsFor (hvalue f hf) (before ++ .value v :: after).length
      rw [copyBack_byValue hparams, copyBack_byValue hparams]

theorem invoke_cell (fuel room : Nat) {index : Nat} {v : Value} (hvalue : s.ByValue index)
    (hv : s.cell slot = .ok v) (before after : List Source) (pos? : Option Position) :
    invoke fuel room index (before ++ .cell slot :: after) pos? s =
      invoke fuel room index (before ++ .value v :: after) pos? s := by
  cases room with
  | zero => exact callFunction_cell hvalue hv before after pos?
  | succ below => exact callFunction_cell hvalue hv before after pos?

theorem kept_evalArguments (fuel : Nat) (args : List Argument) (s : Session) :
    After (evalArguments (invoke fuel maxFrames) args) s (fun _ t => s.Kept t) fun _ _ => True := by
  refine (Source.within_evalArguments (fun s₀ => ?_) args s).mono (fun _ _ h => h.1) fun _ _ h => h
  exact fun index sources pos? _ _ => kept_invoke fuel maxFrames index sources pos? s₀

/-- A name alone passes what it holds after all arguments are evaluated. -/
theorem evalCall_bare (fuel : Nat) {index : Nat} (hvalue : s.ByValue index)
    (before after : List Argument) (slot : Slot) (pos? : Option Position) :
    evalCall (invoke fuel maxFrames) index (before ++ .cell slot :: after) pos? s = (do
      let first ← evalArguments (invoke fuel maxFrames) before
      discard (Exec.read slot)
      let rest ← evalArguments (invoke fuel maxFrames) after
      let v ← Exec.read slot
      invoke fuel maxFrames index (first ++ Source.value v :: rest) pos?) s := by
  rw [evalCall, evalArguments_append]
  simp only [evalArguments, bind_assoc, pure_bind]
  refine bind_congr_right fun first t hfirst => ?_
  have hkept : s.Kept t := (kept_evalArguments fuel before s).of_ok hfirst
  cases hcell : t.cell slot with
  | error p =>
      have hread := discard_of_error (read_of_panic hcell)
      rw [bind_of_error hread, bind_of_error hread]
  | ok w =>
      have hread := discard_of_ok (read_of_cell hcell)
      rw [bind_of_ok hread, bind_of_ok hread]
      refine bind_congr_right fun rest u hrest => ?_
      have hkept' : t.Kept u := (kept_evalArguments fuel after t).of_ok hrest
      -- The cell that could be read before the arguments to the right can be read after them.
      obtain ⟨v, hv⟩ := Session.has_iff.1 (hkept'.has (Session.has_iff.2 ⟨w, hcell⟩))
      rw [bind_of_ok (read_of_cell hv)]
      exact invoke_cell fuel maxFrames (hvalue.kept (hkept.trans hkept')) hv first rest pos?

/-- A name in parentheses passes what it holds when its turn comes. -/
theorem evalCall_parenthesised (call : Caller) (index : Nat) (before after : List Argument)
    (slot : Slot) (opening closing : Position) (pos? : Option Position) :
    evalCall call index (before ++ .parenthesised slot opening closing :: after) pos? = (do
      let first ← evalArguments call before
      let v ← Exec.read slot
      let rest ← evalArguments call after
      call index (first ++ Source.value v :: rest) pos?) := by
  rw [evalCall, evalArguments_append, Argument.parenthesised]
  simp only [evalArguments, evalExpr_parenthesised, bind_assoc, pure_bind]

end Evaluation

/-- An argument may be a name alone or a name in parentheses. The two are parsed alike, and a
function that takes its parameters by value is called alike with them, but for the time at
which the name is read. So they make no difference where the arguments to the right leave
the name with what it holds. -/
theorem bare_argument {t opening closing : Token} {word : String} (ht : t.lexeme = .name word)
    (ho : opening.lexeme = .openParen) (hc : closing.lexeme = .closeParen) (scope : Scope)
    (partsBefore partsAfter : List (List Token)) :
    (∃ parse : Parser (List Argument × Slot × List Argument),
      Parser.arguments scope (partsBefore ++ [t] :: partsAfter) = (do
        let (before, slot, after) ← parse
        return before ++ .cell slot :: after) ∧
      Parser.arguments scope (partsBefore ++ [opening, t, closing] :: partsAfter) = (do
        let (before, slot, after) ← parse
        return before ++ .parenthesised slot opening.pos closing.pos :: after)) ∧
      ∀ (fuel index : Nat) (before after : List Argument) (slot : Slot) (pos? : Option Position)
        (s : Session), s.ByValue index →
        let call := invoke fuel maxFrames
        let bare := evalCall call index (before ++ .cell slot :: after) pos?
        let parenthesised := evalCall call index
          (before ++ .parenthesised slot opening.pos closing.pos :: after) pos?
        bare s = (do
            let first ← evalArguments call before
            discard (Exec.read slot)
            let rest ← evalArguments call after
            let v ← Exec.read slot
            call index (first ++ Source.value v :: rest) pos?) s ∧
          parenthesised s = (do
            let first ← evalArguments call before
            let v ← Exec.read slot
            let rest ← evalArguments call after
            call index (first ++ Source.value v :: rest) pos?) s ∧
          ((∀ first t rest u, evalArguments call before s = .ok first t →
            evalArguments call after t = .ok rest u → u.cell slot = t.cell slot) →
            bare s = parenthesised s) := by
  constructor
  · refine ⟨do
      let before ← Parser.arguments scope partsBefore
      let slot ← Parser.resolve scope word
      let after ← Parser.arguments scope partsAfter
      return (before, slot, after), ?_, ?_⟩
    · rw [Parser.arguments_append, Parser.arguments_bare ht]
      simp only [bind_assoc, pure_bind]
    · rw [Parser.arguments_append, Parser.arguments_parenthesised ht ho hc]
      simp only [bind_assoc, pure_bind]
  · intro fuel index before after slot pos? s hvalue
    dsimp only
    refine ⟨evalCall_bare fuel hvalue before after slot pos?,
      congrFun (evalCall_parenthesised _ index before after slot _ _ pos?) s, fun hsame => ?_⟩
    rw [evalCall_bare fuel hvalue, evalCall_parenthesised]
    refine bind_congr_right fun first t hfirst => ?_
    cases hcell : t.cell slot with
    | error p =>
        rw [bind_of_error (discard_of_error (read_of_panic hcell)),
          bind_of_error (read_of_panic hcell)]
    | ok v =>
        rw [bind_of_ok (discard_of_ok (read_of_cell hcell)), bind_of_ok (read_of_cell hcell)]
        refine bind_congr_right fun rest u hrest => ?_
        have hv : u.cell slot = .ok v := (hsame first t rest u hfirst hrest).trans hcell
        rw [bind_of_ok (read_of_cell hv)]

/-- A function of two parameters that gives the first one back. -/
def firstOfTwo : Function where
  name := "f"
  params := [⟨"a", false⟩, ⟨"b", false⟩]
  body := .script [.expr (.mk [.slot (.result "f"), .op .set .start, .slot (.param 0 "a")] .start)]
  last := .zero

/-- A session with this function and a global that holds one. -/
def firstOfTwoSession : Session where
  env := .ofLists [("x", .int 1)] [firstOfTwo]
  program := []
  frames := []
  printed := ""
  frames_le := Nat.zero_le _

theorem byValue_firstOfTwo : firstOfTwoSession.ByValue 0 := by
  intro f hf
  cases hf
  decide

theorem bare_argument_unchanged :
    evalCall (invoke 0 maxFrames) 0 [.cell (.global 0 "x"), .literal (.int 5)] none
        firstOfTwoSession =
      evalCall (invoke 0 maxFrames) 0
        [.parenthesised (.global 0 "x") .start .start, .literal (.int 5)] none
        firstOfTwoSession := by
  have h := @bare_argument ⟨.name "x", .start, 1⟩ ⟨.openParen, .start, 1⟩
    ⟨.closeParen, .start, 1⟩ _ rfl rfl rfl .top [] []
  refine (h.2 0 0 [] [.literal (.int 5)] (.global 0 "x") none _ byValue_firstOfTwo).2.2 ?_
  intro first t rest u hfirst hrest
  simp only [evalArguments, pure_bind] at hfirst hrest
  cases hfirst
  cases hrest
  rfl

/-- The integer that a source has as its value in this session. -/
def firstOfTwoValue (source : String) : Option Int64 :=
  match Exec.eval 0 source firstOfTwoSession with
  | .ok (.int n) _ => some n
  | _ => none

/-- A name that an argument to the right assigns to makes a difference. -/
theorem bare_argument_assigned :
    firstOfTwoSession.ByValue 0 ∧ firstOfTwoValue "f(x, x = 5)" = some 5 ∧
      firstOfTwoValue "f((x), x = 5)" = some 1 :=
  ⟨byValue_firstOfTwo, by decide +kernel, by decide +kernel⟩

end Scriptlet
