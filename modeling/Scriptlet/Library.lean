import Scriptlet.Library.Array
import Scriptlet.Library.Math

/-!
# The standard library

The functions and constants that every program can count on, provided to a
session in a fixed order.
-/

namespace Scriptlet

/-- The session with the standard library. -/
def Session.withLibrary (s : Session) : Session :=
  let s := (s.provideAll Library.conversion).provideAll Library.array
  let s := Library.constants.foldl (fun s' c => s'.set c.1 c.2) s
  s.provideAll Library.math

end Scriptlet
