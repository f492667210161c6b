import ImportSweep.Parser.Answer
import ImportSweep.Parser.Request
import ImportSweep.Text.Blank
import ImportSweep.Text.Utf8

/-!
# The parsing service

Sources are parsed by a program of its own, to which a request is written and whose output is the
answer. A parser is any function from sources to trees; `serviceParser` is the one that uses the
program.
-/

namespace ImportSweep.Parser

open ImportSweep.Tree

/-- A parser of stylesheets, which also resolves their imports. -/
abbrev SourceParser := String → ParseContext → Except ParseError Node

/-- How the program is run once. -/
structure Invocation where
  /-- The program. -/
  program : String
  /-- The less.js module that it should load. -/
  lessModule : Option String
  /-- What is written to it. -/
  input : String
  deriving DecidableEq, Repr

/-- How a run of the program ended. -/
structure Completion where
  /-- The exit status; zero is success. -/
  status : Nat
  /-- What it wrote to its output. -/
  stdout : List UInt8
  /-- What it wrote to its error output. -/
  stderr : List UInt8
  deriving DecidableEq, Repr

/-- Running the program. -/
abbrev Service := Invocation → Except Files.FileError Completion

/-- The tree or error that the end of a run stands for. -/
def Completion.result (c : Completion) : Except ParseError Node :=
  if c.status = 0 then readAnswer (Text.symbols c.stdout)
  else
    .error (.failed s!"exit status: {c.status}"
      (String.ofList (Text.trim (Text.decodeLossy c.stderr))))

/-- How the program is run for a source. -/
def invocation (program : String) (lessModule : Option String) (source : String)
    (options : ParseContext) : Invocation :=
  ⟨program, lessModule, requestText source options⟩

/-- The run cannot be asked for, because the character that ends texts for the system stands in the
name of the program or of the module. -/
def Invocation.holdsNul (i : Invocation) : Bool :=
  i.program.toList.contains '\x00' || i.lessModule.any fun name => name.toList.contains '\x00'

/-- The parser that runs the program. -/
def serviceParser (service : Service) (program : String) (lessModule : Option String) :
    SourceParser := fun source options =>
  let call := invocation program lessModule source options
  if call.holdsNul then .error (.notStarted .holdsNul)
  else
    match service call with
    | .ok completion => completion.result
    | .error cause => .error (.notStarted (.unusable cause))

end ImportSweep.Parser
