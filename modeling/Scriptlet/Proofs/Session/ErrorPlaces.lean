import Scriptlet.Proofs.Parsing.ErrorPlaces
import Scriptlet.Proofs.Session.Fallback
import Scriptlet.Proofs.Token.Layout

/-!
# A source that cannot be parsed is told where

The error of a source that cannot be read or parsed always has a place, and the place is inside
of the source: the quote of a literal that does not end, or a token. So the message gives a line
and a column of the source, however deep the failing piece is nested. The main statement is
`unparsed_source_is_located`.
-/

namespace Scriptlet

/-- Whether a token of the source stands at `p`. -/
def TokenAt (source : String) (p : Position) : Prop :=
  ∃ t ∈ (tokenize source).tokens, t.pos = p

/-- Whether `p` is the place of a quote after which the source has no other quote, and which is
no part of a token. -/
structure OpeningQuote (source : String) (p : Position) : Prop where
  quote : source.toList[p.offset]? = some '"'
  unclosed : '"' ∉ source.toList.drop (p.offset + 1)
  opening : ∀ t ∈ (tokenize source).tokens, t.pos.offset + t.length ≤ p.offset

/-- Whether an error names `p`, and this is a place of the source where it has a token, or
where a literal without an end begins. -/
structure Error.PointsTo (e : Error) (source : String) (p : Position) : Prop where
  place : e.pos? = some p
  inside : p.In source.toList ∧ p.offset < source.toList.length
  message : e.message = s!"{e.cause.kind.name} at {p.text}: {e.cause.reason}"
  lex : e.cause.kind = .lex → OpeningQuote source p
  token : e.cause.kind ≠ .lex → TokenAt source p

/-- Whether a failure is an error of the language that names a place of the source. -/
def Failure.PointsInto (failure : Failure) (source : String) : Prop :=
  ∃ e p, failure = .error e ∧ e.PointsTo source p

variable {source : String} {e : Error} {p : Position}

/-- A literal without an end is reported at its quote. -/
theorem pointsTo_of_lexed (h : (tokenize source).error? = some e) : ∃ p, e.PointsTo source p := by
  obtain ⟨p, rfl, hplace, hquote, hunclosed, hopening⟩ := (tiled_tokenize source).unclosed e h
  refine ⟨p, rfl, ⟨hplace, ?_⟩, rfl, fun _ => ⟨hquote, hunclosed, hopening⟩, fun hkind => ?_⟩
  · exact (List.getElem?_eq_some_iff.1 hquote).1
  · exact absurd rfl hkind

/-- Other errors are reported at a token. -/
theorem pointsTo_of_foundIn (h : e.FoundIn (TokenAt source)) : ∃ p, e.PointsTo source p := by
  obtain ⟨hkind, p, hplace, t, ht, rfl⟩ := h
  have htiled := tiled_tokenize source
  have hinside := htiled.inside t ht
  have hnonempty := htiled.nonempty t ht
  refine ⟨t.pos, hplace, ⟨htiled.placed t ht, by omega⟩, ?_, fun hlex => absurd hlex hkind,
    fun _ => ⟨t, ht, rfl⟩⟩
  rw [Error.message, hplace]

namespace Exec

/-- What is wrong with a source has a place in it, whatever has been declared before. -/
theorem parse_pointsInto (source : String) (s : Session) :
    After (parse source) s (fun _ _ => True) fun failure _ => failure.PointsInto source := by
  rw [parse, after_bind]
  cases herror : (tokenize source).error? with
  | some e =>
      have htokens : (tokenize source).toExcept = .error e := by rw [Lexed.toExcept, herror]
      obtain ⟨p, hp⟩ := pointsTo_of_lexed herror
      rw [htokens]
      exact ⟨e, p, rfl, hp⟩
  | none =>
      rw [Lexed.toExcept_of_closed (Option.isNone_iff_eq_none.2 herror)]
      have hfails := Parser.failsIn_block (TokenAt source) .top (tokenize source).tokens
        fun t ht => ⟨t, ht, rfl⟩
      have hgrows := Parser.grows_block .top (tokenize source).tokens
      refine (after_declaring hgrows (hfails s.env)).mono (fun _ _ _ => trivial) ?_
      rintro failure t ⟨⟨e, rfl, hfound⟩, -⟩
      obtain ⟨p, hp⟩ := pointsTo_of_foundIn hfound
      exact ⟨e, p, rfl, hp⟩

theorem load_pointsInto (source : String) (s : Session) :
    After (load source) s (fun _ _ => True) fun failure _ => failure.PointsInto source := by
  rw [load, after_bind]
  exact (parse_pointsInto source s).mono (fun _ _ _ => trivial) fun _ _ h => h

end Exec

/-- In every session, a source that is loaded or run fails before anything of it is run by an
error that names a place inside of it. -/
theorem unparsed_source_is_located (s : Session) (source : String) (fuel : Nat) :
    (∀ failure t, Exec.load source s = .error failure t → failure.PointsInto source) ∧
      ∀ failure t, Exec.parse source s = .error failure t →
        Exec.exec fuel source s = .error failure t ∧ failure.PointsInto source := by
  refine ⟨fun failure t h => ?_, fun failure t h => ⟨bind_of_error h, ?_⟩⟩
  · exact (Exec.load_pointsInto source s).of_error h
  · exact (Exec.parse_pointsInto source s).of_error h

/-- A call of an undeclared function, as an argument, in an array literal, in a loop. -/
def nestedCall : String :=
  "DEF f x;\nWHILE 1 \x7b\n y = \x7b1, f(2, g(3))\x7d;\n\x7d"

theorem unparsed_source_is_located_nested :
    ∃ failure t, Exec.load nestedCall Session.empty = .error failure t ∧
      failure.kind? = some .undefinedReference ∧ failure.PointsInto nestedCall := by
  have hkind : (Exec.load nestedCall).failureKind? Session.empty = some .undefinedReference := by
    decide +kernel
  obtain ⟨failure, t, hload, hkind⟩ := Exec.exists_of_failureKind? hkind
  have hlocated := (unparsed_source_is_located Session.empty nestedCall 0).1
  exact ⟨failure, t, hload, hkind, hlocated failure t hload⟩

end Scriptlet
