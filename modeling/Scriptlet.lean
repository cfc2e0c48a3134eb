import Scriptlet.Main
import Scriptlet.Proofs.Expression.Grouping
import Scriptlet.Proofs.Expression.Sorting
import Scriptlet.Proofs.Outcome
import Scriptlet.Proofs.Parsing.Growth
import Scriptlet.Proofs.Session.Upkeep
import Scriptlet.Proofs.Session.Calls
import Scriptlet.Proofs.Session.History
import Scriptlet.Proofs.Session.Rollback
import Scriptlet.Proofs.Parsing.Scoping
import Scriptlet.Proofs.Parsing.Soundness
import Scriptlet.Proofs.Session.Safety
import Scriptlet.Proofs.Parsing.Reading
import Scriptlet.Proofs.Session.Code
import Scriptlet.Proofs.Session.Termination
import Scriptlet.Proofs.Parsing.Locality
import Scriptlet.Proofs.Session.Structure
import Scriptlet.Proofs.Session.Arguments
import Scriptlet.Proofs.Parsing.Places
import Scriptlet.Proofs.Parsing.Balance
import Scriptlet.Proofs.Session.Joining
import Scriptlet.Proofs.Session.Fallback
import Scriptlet.Proofs.Session.ExpressionStatement
import Scriptlet.Proofs.Program.Recast
import Scriptlet.Proofs.Parsing.Recast
import Scriptlet.Proofs.Session.Recast
import Scriptlet.Proofs.Session.Declared
import Scriptlet.Proofs.Session.Moving
import Scriptlet.Proofs.Session.Unnamed
import Scriptlet.Proofs.Expression.Parentheses
import Scriptlet.Proofs.Parsing.Commas
import Scriptlet.Proofs.Parsing.Refusal
import Scriptlet.Proofs.Session.Braces
import Scriptlet.Proofs.Session.Line
import Scriptlet.Proofs.Token.Spelling
import Scriptlet.Proofs.Token.Layout
import Scriptlet.Proofs.Token.Respelling
import Scriptlet.Proofs.Session.Layout
import Scriptlet.Proofs.Session.Names
import Scriptlet.Proofs.Parsing.BareCall
import Scriptlet.Proofs.Session.HostCall
import Scriptlet.Proofs.Token.Unclosed
import Scriptlet.Proofs.Number.Numeral
import Scriptlet.Proofs.Token.Decimal
import Scriptlet.Proofs.Session.Literals
import Scriptlet.Proofs.Session.Rendering
import Scriptlet.Proofs.Session.Provided
import Scriptlet.Proofs.Session.Integers
import Scriptlet.Proofs.HostData
import Scriptlet.Proofs.Expression.Malformed
import Scriptlet.Proofs.Expression.Assignment
import Scriptlet.Proofs.Library.Elements
import Scriptlet.Proofs.Session.ByReference
import Scriptlet.Proofs.Number.Distance
import Scriptlet.Proofs.Value.Comparison
import Scriptlet.Proofs.Value.Arithmetic
import Scriptlet.Proofs.Parsing.ErrorPlaces
import Scriptlet.Proofs.Session.ErrorPlaces
import Scriptlet.Proofs.Highlight.Line
import Scriptlet.Proofs.Parsing.Division
import Scriptlet.Proofs.Parsing.Pieces
import Scriptlet.Proofs.Highlight.Pattern
import Scriptlet.Proofs.Highlight.Source
import Scriptlet.Proofs.Yaml.Distinct
import Scriptlet.Proofs.Yaml.Variables
