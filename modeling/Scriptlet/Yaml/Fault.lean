/-!
# Faults

What can be wrong with a text, as causes. `Fault.message` has the wording. A
`Flaw` is a fault together with the line that is told with it; faults on the first
line are told without one.
-/

namespace Scriptlet.Yaml

/-- The place of a character in a text. Lines and columns are counted from zero. -/
structure Mark where
  index : Nat
  line : Nat
  column : Nat
  deriving DecidableEq, Repr

/-- The beginning of a text. -/
def Mark.start : Mark := ⟨0, 0, 0⟩

/-- What can be wrong with a text. -/
inductive Fault where
  /-- The text cannot be read at all. -/
  | unreadable (reason : String)
  | controlCharacter
  -- Tokens
  | noToken
  | entryNotAllowed
  | keyNotAllowed
  | valueNotAllowed
  | missingColon
  | tooDeep (limit : Nat)
  | unknownDirective
  | noDirectiveName
  | badDirectiveName
  | longVersion
  | noVersion
  | noVersionPoint
  | noBlankInDirective
  | noGapInDirective
  | noLineEnd
  | noAnchorName
  | noTagMark
  | noTagName
  | noTagEnd
  | noTagGap
  | noTagOctet
  | badLeadingOctet
  | badTrailingOctet
  | zeroIndentation
  | tabInBlock
  | tabInPlain
  | markerInQuotes
  | endInQuotes
  | unknownEscape
  | noEscapeDigit
  | badEscapeCode
  -- Structure
  | noDocumentStart
  | repeatedVersion
  | unsupportedVersion
  | repeatedHandle
  | unknownHandle
  | noContent
  | noDash
  | noKey
  | noCommaOrBracket
  | noCommaOrBrace
  -- Meaning
  | unknownAnchor (name : String)
  | selfContaining (name : String)
  | excessiveAliases
  | noMergedMapping
  | collectionKey (key : String)
  | badBinary
  | mismatch (found text wanted : String)
  /-- The text has more parts than were reckoned with. -/
  | unknown
  deriving DecidableEq, Repr

/-- The wording of a fault. -/
def Fault.message : Fault → String
  | unreadable reason => "input error: " ++ reason
  | controlCharacter => "control characters are not allowed"
  | noToken => "found character that cannot start any token"
  | entryNotAllowed => "block sequence entries are not allowed in this context"
  | keyNotAllowed => "mapping keys are not allowed in this context"
  | valueNotAllowed => "mapping values are not allowed in this context"
  | missingColon => "could not find expected ':'"
  | tooDeep limit => s!"exceeded max depth of {limit}"
  | unknownDirective => "found unknown directive name"
  | noDirectiveName => "could not find expected directive name"
  | badDirectiveName => "found unexpected non-alphabetical character"
  | longVersion => "found extremely long version number"
  | noVersion => "did not find expected version number"
  | noVersionPoint => "did not find expected digit or '.' character"
  | noBlankInDirective => "did not find expected whitespace"
  | noGapInDirective | noTagGap => "did not find expected whitespace or line break"
  | noLineEnd => "did not find expected comment or line break"
  | noAnchorName => "did not find expected alphabetic or numeric character"
  | noTagMark => "did not find expected '!'"
  | noTagName => "did not find expected tag URI"
  | noTagEnd => "did not find the expected '>'"
  | noTagOctet => "did not find URI escaped octet"
  | badLeadingOctet => "found an incorrect leading UTF-8 octet"
  | badTrailingOctet => "found an incorrect trailing UTF-8 octet"
  | zeroIndentation => "found an indentation indicator equal to 0"
  | tabInBlock => "found a tab character where an indentation space is expected"
  | tabInPlain => "found a tab character that violates indentation"
  | markerInQuotes => "found unexpected document indicator"
  | endInQuotes => "found unexpected end of stream"
  | unknownEscape => "found unknown escape character"
  | noEscapeDigit => "did not find expected hexdecimal number"
  | badEscapeCode => "found invalid Unicode character escape code"
  | noDocumentStart => "did not find expected <document start>"
  | repeatedVersion => "found duplicate %YAML directive"
  | unsupportedVersion => "found incompatible YAML document"
  | repeatedHandle => "found duplicate %TAG directive"
  | unknownHandle => "found undefined tag handle"
  | noContent => "did not find expected node content"
  | noDash => "did not find expected '-' indicator"
  | noKey => "did not find expected key"
  | noCommaOrBracket => "did not find expected ',' or ']'"
  | noCommaOrBrace => "did not find expected ',' or '\x7d'"
  | unknownAnchor name => s!"unknown anchor '{name}' referenced"
  | selfContaining name => s!"anchor '{name}' value contains itself"
  | excessiveAliases => "document contains excessive aliasing"
  | noMergedMapping => "map merge requires map or sequence of maps as the value"
  | collectionKey key => "invalid map key: " ++ key
  | badBinary => "!!binary value contains invalid base64 data"
  | mismatch found text wanted => s!"cannot decode {found} `{text}` as a {wanted}"
  | unknown => "unknown problem parsing YAML content"

/-- A fault and the line that is told with it. -/
structure Flaw where
  fault : Fault
  line? : Option Nat
  deriving DecidableEq, Repr

namespace Flaw

/-- The first of two lines that is not the first of the text. -/
def pick (outer inner : Mark) : Option Nat :=
  if outer.line ≠ 0 then some outer.line
  else if inner.line ≠ 0 then some inner.line
  else none

/-- A fault without a line. -/
def bare (f : Fault) : Flaw := ⟨f, none⟩

/-- A fault of a token that begins at `outer` and goes wrong at `inner`. The lines of
tokens are told counting from one. -/
def inToken (f : Fault) (outer inner : Mark) : Flaw :=
  ⟨f, (pick outer inner).map (· + 1)⟩

/-- A fault of a part of the structure that begins at `outer` and goes wrong at `inner`.
The lines of the structure are told counting from zero. -/
def inStructure (f : Fault) (outer inner : Mark) : Flaw :=
  ⟨f, pick outer inner⟩

/-- The wording of a flaw. -/
def message (f : Flaw) : String :=
  match f.line? with
  | some line => s!"line {line}: {f.fault.message}"
  | none => f.fault.message

end Flaw

end Scriptlet.Yaml
