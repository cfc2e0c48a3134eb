import Scriptlet.Highlight.Source
import Scriptlet.Library
import Scriptlet.Yaml.Variables

/-!
# The command line

What the program does with its arguments, as a function of them, of the standard
input and of the files it may read. `Options.parse` reads the flags, `perform`
carries out a run on a session, whose printed text is the standard output, and
`run` puts both together.
-/

namespace Scriptlet.CommandLine

/-- What the flags ask for. -/
structure Options where
  debugTokens : Bool
  debugTree : Bool
  highlight : Bool
  /-- The file of variables, or nothing. -/
  vars : String
  dump : Bool
  noColor : Bool
  version : Bool
  deriving DecidableEq, Repr

/-- No flag is given. -/
def Options.unset : Options := ⟨false, false, false, "", false, false, false⟩

/-- Why the arguments are not accepted. -/
inductive Refusal where
  /-- Help is asked for. -/
  | help
  | badSyntax (arg : String)
  | unknown (name : String)
  | badBool (value name : String)
  | needsValue (name : String)
  deriving DecidableEq, Repr

/-- The line that explains a refusal. -/
def Refusal.message : Refusal → String
  | help => ""
  | badSyntax arg => s!"bad flag syntax: {arg}\n"
  | unknown name => s!"flag provided but not defined: -{name}\n"
  | badBool value name =>
      "invalid boolean value " ++ Text.Quoted.quote value ++ s!" for -{name}: parse error\n"
  | needsValue name => s!"flag needs an argument: -{name}\n"

/-- The flags without a value, and what each of them sets. -/
def switch? : String → Option (Bool → Options → Options)
  | "debug-tokens" => some fun b o => { o with debugTokens := b }
  | "debug-tree" => some fun b o => { o with debugTree := b }
  | "highlight" => some fun b o => { o with highlight := b }
  | "dump" => some fun b o => { o with dump := b }
  | "no-color" => some fun b o => { o with noColor := b }
  | "version" => some fun b o => { o with version := b }
  | _ => none

/-- The spellings of truth values that a switch takes. -/
def truth? : String → Option Bool
  | "1" | "t" | "T" | "TRUE" | "true" | "True" => some true
  | "0" | "f" | "F" | "FALSE" | "false" | "False" => some false
  | _ => none

/-- A flag by its name and the value given with it. -/
structure Flag where
  name : String
  value? : Option String

/-- What the first argument is. -/
inductive Argument where
  | flag (f : Flag)
  /-- The flags end after this argument. -/
  | terminator
  /-- The flags end before this argument. -/
  | operand
  | malformed

/-- The flag after its dashes. An equals sign, not at the front, divides the value
off. -/
def Flag.ofName (cs : List Char) : Flag :=
  let name := cs.take 1 ++ (cs.drop 1).takeWhile (· != '=')
  match cs.drop name.length with
  | [] => ⟨String.ofList name, none⟩
  | _ :: value => ⟨String.ofList name, some (String.ofList value)⟩

/-- The flag after its dashes, unless a sign that no name has is at the front. -/
def Argument.ofName : List Char → Argument
  | [] => .malformed
  | c :: cs => if c == '-' || c == '=' then .malformed else .flag (Flag.ofName (c :: cs))

/-- What an argument is. One dash or two introduce a flag; a single dash is an
operand. -/
def Argument.ofString (arg : String) : Argument :=
  match arg.toList with
  | ['-', '-'] => .terminator
  | '-' :: '-' :: name => .ofName name
  | '-' :: c :: cs => .ofName (c :: cs)
  | _ => .operand

/-- Reads the flags at the front of the arguments; the others are operands. -/
def Options.parse (o : Options) : List String → Except Refusal (Options × List String)
  | [] => .ok (o, [])
  | arg :: args =>
      match Argument.ofString arg with
      | .operand => .ok (o, arg :: args)
      | .terminator => .ok (o, args)
      | .malformed => .error (.badSyntax arg)
      | .flag f =>
          match switch? f.name with
          | some set =>
              match f.value? with
              | none => Options.parse (set true o) args
              | some value =>
                  match truth? value with
                  | some b => Options.parse (set b o) args
                  | none => .error (.badBool value f.name)
          | none =>
              if f.name == "vars" then
                match f.value? with
                | some value => Options.parse { o with vars := value } args
                | none =>
                    match args with
                    | [] => .error (.needsValue f.name)
                    | value :: rest => Options.parse { o with vars := value } rest
              else if f.name == "help" || f.name == "h" then .error .help
              else .error (.unknown f.name)

/-- The help text. -/
def usage : String :=
  "tucan is a tiny embeddable scripting language.\n\n" ++
  "Usage:\n  tucan [flags] [file]\n\n" ++
  "Without a file, tucan reads a program from stdin, or starts a REPL when\n" ++
  "stdin is a terminal.\n\n" ++
  "Flags:\n" ++
  "  -debug-tokens\n    \tprint tokens before running\n" ++
  "  -debug-tree\n    \tprint the parsed statement tree before running\n" ++
  "  -dump\n    \tprint global variables as YAML after running\n" ++
  "  -highlight\n    \tprint the source with syntax highlighting instead of running it\n" ++
  "  -no-color\n    \tdisable colored output\n" ++
  "  -vars string\n    \tYAML file of global variables to set before running\n" ++
  "  -version\n    \tprint version and exit\n"

/-- The line that names the program and its version. -/
def versionLine : String := "tucan 0.1.0\n"

/-- What a run leaves behind. -/
structure Output where
  stdout : Octets
  stderr : String
  exitCode : Nat
  deriving DecidableEq, Repr

/-- The answer to arguments that are not accepted. Asking for help is no mistake. -/
def Refusal.output (r : Refusal) : Output :=
  ⟨"", r.message ++ usage, if r = .help then 0 else 2⟩

/-- The content of a file. -/
def readFile (files : Files) (name : String) : Exec String :=
  match files name with
  | .content text => pure text
  | reading => throw (.foreign ((reading.failure? name).getD ""))

/-- Adds to what was printed. -/
def print (text : Octets) : Exec Unit :=
  modify fun s => { s with printed := s.printed ++ text }

/-- Prints the tokens of a source, a line for each, and fails if there is an error. -/
def printTokens (source : String) : Exec Unit := do
  let lexed := tokenize source
  print (String.join (lexed.tokens.map fun t => s!"{t.pos.text} {t.lexeme.quoted}\n"))
  match lexed.error? with
  | some e => Exec.fail e
  | none => pure ()

/-- Provides the library and sets the variables that the flags ask for. -/
def prepare (o : Options) (files : Files) : Exec Unit := do
  modify (·.withLibrary)
  if o.vars != "" then Exec.loadVariablesFrom files o.vars

/-- Runs a source, or colours it, as the flags ask for. -/
def runSource (o : Options) (color : Bool) (fuel : Nat) (files : Files) (source : String) :
    Exec Unit := do
  if o.highlight then print (Highlight.source color source)
  else
    if o.debugTokens then printTokens source
    prepare o files
    Exec.load source
    if o.debugTree then print (← get).tree
    Exec.runProgram fuel
    if o.dump then print (← get).dump

/-- Carries out a run: the program is in the file of the first operand, or else in the
standard input. -/
def perform (o : Options) (color : Bool) (fuel : Nat) (files : Files) (stdin : String)
    (operands : List String) : Exec Unit := do
  if o.version then print versionLine
  else
    let source ← match operands with
      | name :: _ => readFile files name
      | [] => pure stdin
    runSource o color fuel files source

/-- The output of a run that is carried out. The message of a failure goes to the
standard error. -/
def outputOf (action : Exec Unit) : Output :=
  match action.run .empty with
  | .ok _ s => ⟨s.printed, "", 0⟩
  | .error failure s => ⟨s.printed, failure.message ++ "\n", 1⟩

/-- The output of the program for its arguments. Colours need a terminal and must not be
switched off. -/
def run (terminal : Bool) (fuel : Nat) (files : Files) (stdin : String) (args : List String) :
    Output :=
  match Options.unset.parse args with
  | .error refusal => refusal.output
  | .ok (o, operands) =>
      outputOf (perform o (terminal && !o.noColor) fuel files stdin operands)

/-- The answer to a line of a conversation: what it prints, then the value if it has
one. A blank line has no answer. -/
def answer (o : Options) (color : Bool) (fuel : Nat) (line : String) (s : Session) :
    Output × Session :=
  if (Text.trim line.toList).isEmpty then (⟨"", "", 0⟩, s)
  else
    let tokens := if o.debugTokens then (outputOf (printTokens line)).stdout else ""
    match (Exec.evalLine fuel line).run s with
    | .ok v? t =>
        let shown := (v?.map fun v => Highlight.value color v ++ "\n").getD ""
        (⟨tokens ++ t.flush.1 ++ shown, "", 0⟩, t.flush.2)
    | .error failure t => (⟨tokens ++ t.flush.1, failure.message ++ "\n", 1⟩, t.flush.2)

/-- The names of the files that a run with these arguments may read. -/
def fileNames (args : List String) : List String :=
  match Options.unset.parse args with
  | .error _ => []
  | .ok (o, operands) => operands.take 1 ++ (if o.vars == "" then [] else [o.vars])

end Scriptlet.CommandLine
