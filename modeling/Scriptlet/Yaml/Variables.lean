import Scriptlet.Files
import Scriptlet.Session.Host
import Scriptlet.Yaml.Mapping
import Scriptlet.Yaml.Writer

/-!
# Globals as YAML

Setting globals from a document of variables, and writing all globals as such a
document.
-/

namespace Scriptlet

/-- Sets a global from a datum of the file `path`. -/
def Exec.setVariable (path : String) (name : String) (d : HostData) : Exec Unit :=
  match d.toValue with
  | .ok v => modify (·.set name v)
  | .error cause => throw (.wrapped s!"variable {name} in {path}: " cause.nowhere)

/-- Sets a global for every variable of the file `path` with the given content. -/
def Exec.loadVariables (path content : String) : Exec Unit :=
  match Yaml.read content with
  | .error problem => throw (.foreign s!"parse {path}: {problem.message}")
  | .ok found => found.forM fun (name, d) => Exec.setVariable path name d

/-- Sets a global for every variable of a file. A directory can be opened, and only fails
to be parsed. -/
def Exec.loadVariablesFrom (files : Files) (path : String) : Exec Unit :=
  match files path, (files path).failure? path with
  | .content text, _ => Exec.loadVariables path text
  | .directory, some reason =>
      let problem := Yaml.Problem.flawed (.bare (.unreadable reason))
      throw (.foreign s!"parse {path}: {problem.message}")
  | _, reason? => throw (.foreign (reason?.getD ""))

/-- The mapping from the names of the globals to the data that their values become. -/
def Session.hostData (s : Session) : List (String × HostData) :=
  s.names.filterMap fun name => (s.get? name).map fun v => (name, HostData.ofValue v)

/-- All globals as YAML. -/
def Session.dump (s : Session) : String :=
  (Yaml.write s.hostData).getD ""

end Scriptlet
