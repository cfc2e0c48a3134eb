import Scriptlet.Proofs.Parsing.Reading
import Scriptlet.Proofs.Session.Rollback

/-!
# The code of a session

The code of a session is the program loaded so far and the bodies of its functions. A
property of code that parsing establishes stays true of all of it, because running writes
no code and a refused source leaves none.
-/

namespace Scriptlet

variable {good : Body → Prop} {s t : Session}

namespace Session

/-- Whether all code of a session satisfies `good`: the loaded program, taken as a body, and
the body of each function. -/
structure Code (s : Session) (good : Body → Prop) : Prop where
  program : good (.script s.program)
  bodies : s.env.Bodies good

theorem Kept.bodies (h : s.Kept t) (hs : s.env.Bodies good) : t.env.Bodies good := by
  intro g hg
  obtain ⟨i, hi⟩ := List.mem_iff_getElem?.1 hg
  have hlt : i < s.env.functions.length := by
    rw [← h.functions_length]
    exact (List.getElem?_eq_some_iff.1 hi).1
  have hf : s.env.functions[i]? = some s.env.functions[i] := List.getElem?_eq_getElem hlt
  rw [(h.functions hf hi).body]
  exact hs _ (List.mem_of_getElem? hf)

theorem Kept.code (h : s.Kept t) (hs : s.Code good) : t.Code good := by
  refine ⟨?_, h.bodies hs.bodies⟩
  rw [h.program]
  exact hs.program

theorem code_empty (hnil : good (.script [])) : Session.empty.Code good :=
  ⟨hnil, List.forall_mem_nil _⟩

theorem Code.set (h : s.Code good) (name : String) (v : Value) : (s.set name v).Code good :=
  ⟨h.program, h.bodies.of_functions_eq (s.env.functions_declare name)⟩

theorem Code.provide (h : s.Code good) (name : String) (params : List String) {native : Native}
    (hnative : good (.native native)) : (s.provide name params native).Code good := by
  refine ⟨h.program, ?_⟩
  change (s.env.provide name (params.map Param.ofString) native).Bodies good
  unfold Environment.provide
  cases s.env.functionIndex? name with
  | none => exact h.bodies.addFunction hnative
  | some i => exact h.bodies.modifyFunction fun _ _ => hnative

theorem Code.withLibrary (h : s.Code good)
    (hlibrary : ∀ f ∈ Library.functions, good (.native f.native)) : s.withLibrary.Code good := by
  refine withLibrary_of_steps (P := (Session.Code · good)) ?_ ?_ h
  · intro f hf s' hs'
    exact hs'.provide f.name f.params (hlibrary f hf)
  · intro name v s' hs'
    exact hs'.set name v

end Session

/-! ### Parsing -/

namespace Exec

theorem after_declaring {α : Type} {parser : Parser α} (hgrows : parser.Grows)
    {ok : α → Environment → Prop} {failed : Failure → Prop}
    (h : After parser s.env ok fun e _ => failed e) :
    After (declaring parser) s (fun a t => ok a t.env ∧ t = { s with env := t.env })
      fun e t => failed e ∧ t = s := by
  have hrollback := rollsBack_declaring hgrows s
  unfold After declaring at *
  cases hp : parser s.env with
  | ok a env =>
      rw [hp] at h
      exact ⟨h, rfl⟩
  | error e env =>
      rw [hp] at h hrollback
      exact ⟨h, hrollback⟩

/-- A source that is accepted is read as a program, and one that is refused is refused by an
error of the language. -/
theorem after_parse (source : String) (s : Session) :
    After (parse source) s
      (fun stmts t => ∃ ts, (tokenize source).toExcept = .ok ts ∧
        Parser.Reads .top ts s.env stmts t.env ∧ t = { s with env := t.env })
      fun e t => (∃ error, e = .error error) ∧ t = s := by
  rw [parse, after_bind, after_ofExcept]
  cases htokens : (tokenize source).toExcept with
  | error e => exact ⟨⟨e, rfl⟩, rfl⟩
  | ok ts =>
      have hreads := Parser.reads_block .top ts s.env
      refine (after_declaring (Parser.grows_block .top ts) hreads).mono ?_ fun _ _ h => h
      rintro stmts t ⟨hstmts, hsame⟩
      exact ⟨ts, rfl, hstmts, hsame⟩

/-- What holds after the expression of a source was parsed, if it comes to that, and of every
error before. -/
theorem after_parseExpr_of {source : String} {ok : Expr → Session → Prop}
    {failed : Failure → Session → Prop}
    (hdeclaring : ∀ t ts, After (declaring (Parser.expression .top (t :: ts))) s ok failed)
    (hfailed : ∀ e, failed (.error e) s) : After (parseExpr source) s ok failed := by
  rw [parseExpr, after_bind, after_ofExcept]
  cases (tokenize source).toExcept with
  | error e => exact hfailed e
  | ok ts =>
      dsimp only
      split
      · exact hfailed _
      · rename_i t ts _
        rw [after_bind, after_ofExcept]
        cases Extent.find true (t :: ts) with
        | error e => exact hfailed e
        | ok extent =>
            dsimp only
            split
            · exact hdeclaring t ts
            · exact hfailed _

theorem after_parseExpr (source : String) (s : Session) :
    After (parseExpr source) s
      (fun _ t => t.env.functions = s.env.functions ∧ t = { s with env := t.env })
      fun e t => (∃ error, e = .error error) ∧ t = s := by
  refine after_parseExpr_of (fun t ts => ?_) fun e => ⟨⟨e, rfl⟩, rfl⟩
  exact after_declaring (Parser.grows_expression .top _)
    (Parser.after_expression .top (List.cons_ne_nil t ts) s.env)

end Exec

namespace Session

/-- The session after loading a source, whether it is accepted or not. -/
def loaded (s : Session) (source : String) : Session :=
  match Exec.load source s with
  | .ok _ t | .error _ t => t

theorem load_of_accepts {source : String} (h : s.accepts source = true) :
    Exec.load source s = .ok () (s.loaded source) := by
  unfold accepts at h
  unfold loaded Exec.load
  cases hparse : Exec.parse source s with
  | ok stmts t =>
      rw [bind_of_ok hparse]
      rfl
  | error e t =>
      rw [hparse] at h
      cases h

/-- A host can come to the session after a source that is accepted. -/
theorem reachable_loaded {natives : Native → Prop} {accepted : List String} {source : String}
    (hs : Reachable natives accepted s) (h : s.accepts source = true) :
    ∃ accepted', Reachable natives accepted' (s.loaded source) := by
  have hload : (Request.load source).perform 0 s = .ok [] (s.loaded source) :=
    bind_of_ok (load_of_accepts h)
  exact ⟨_, hs.answered (r := .load source) trivial hload⟩

theorem load_of_not_accepts {source : String} (h : s.accepts source = false) :
    ∃ e, Exec.load source s = .error e s := by
  unfold accepts at h
  unfold Exec.load
  cases hparse : Exec.parse source s with
  | ok stmts t =>
      rw [hparse] at h
      cases h
  | error e t =>
      obtain rfl := ((Exec.rollsBack_parse source s).of_error hparse)
      exact ⟨e, bind_of_error hparse⟩

/-- What `good` has to do with parsing: it holds of all that is read, outside of every loop,
from tokens that satisfy `keep`, and programs can be put one after the other. -/
structure Established (keep : Token → Prop) (good : Body → Prop) : Prop where
  reads : ∀ {scope ts env stmts env'}, scope.loop? = none → (∀ t ∈ ts, keep t) →
    Parser.Reads scope ts env stmts env' → good (.script stmts)
  append : ∀ {stmts stmts'}, good (.script stmts) → good (.script stmts') →
    good (.script (stmts ++ stmts'))

variable {keep : Token → Prop} {source : String}

theorem Code.parse (hs : s.Code good) (hgood : Established keep good)
    (hsource : ∀ ts, (tokenize source).toExcept = .ok ts → ∀ t ∈ ts, keep t) :
    After (Exec.parse source) s (fun stmts t => t.Code good ∧ good (.script stmts))
      fun e t => t.Code good ∧ ∃ error, e = .error error := by
  refine (Exec.after_parse source s).mono ?_ ?_
  · rintro stmts t ⟨ts, htokens, hreads, hsame⟩
    have hkeep := hsource ts htokens
    have hbodies : t.env.Bodies good := hreads.bodies (hgood.reads rfl) hkeep hs.bodies
    refine ⟨⟨?_, hbodies⟩, hgood.reads rfl hkeep hreads⟩
    rw [hsame]
    exact hs.program
  · rintro e t ⟨he, rfl⟩
    exact ⟨hs, he⟩

theorem Code.load (hs : s.Code good) (hgood : Established keep good)
    (hsource : ∀ ts, (tokenize source).toExcept = .ok ts → ∀ t ∈ ts, keep t) :
    After (Exec.load source) s (fun _ t => t.Code good)
      fun e t => t.Code good ∧ ∃ error, e = .error error := by
  rw [Exec.load, after_bind]
  refine (hs.parse hgood hsource).mono ?_ fun _ _ h => h
  rintro stmts t ⟨ht, hstmts⟩
  exact ⟨hgood.append ht.program hstmts, ht.bodies⟩

theorem Code.parseExpr (hs : s.Code good) (source : String) :
    After (Exec.parseExpr source) s (fun _ t => t.Code good)
      fun e t => t.Code good ∧ ∃ error, e = .error error := by
  refine (Exec.after_parseExpr source s).mono ?_ ?_
  · rintro e t ⟨hfunctions, hsame⟩
    refine ⟨?_, hs.bodies.of_functions_eq hfunctions⟩
    rw [hsame]
    exact hs.program
  · rintro e t ⟨he, rfl⟩
    exact ⟨hs, he⟩

end Session

end Scriptlet
