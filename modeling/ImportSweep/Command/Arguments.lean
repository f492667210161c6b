import ImportSweep.Command.Basic

/-!
# Arguments

Reads a command off the arguments of the program. Options may stand before and after the operand;
a value follows its option as the next argument, after an equals sign, or directly after a
one-letter option. What follows `--` is no option. The two options for the parsing program may
stand before and after the name of the command; the later place wins, then the environment is
asked.
-/

namespace ImportSweep.Command

open ImportSweep.Tree

/-- An option that takes a value. -/
inductive Setting where
  /-- The parsing program. -/
  | program
  /-- The less.js module. -/
  | lessModule
  /-- A directory that is searched for imports. -/
  | importDir
  /-- The format of the report. -/
  | format
  /-- A kind of nodes. -/
  | kind
  deriving DecidableEq, Repr

/-- The name of an option that takes a value. -/
def Setting.long : Setting → String
  | program => "node"
  | lessModule => "less-module"
  | importDir => "import-dir"
  | format => "format"
  | kind => "kind"

/-- The letter of an option that takes a value. -/
def Setting.short? : Setting → Option Char
  | importDir => some 'I'
  | format => some 'f'
  | program | lessModule | kind => none

/-- An option without a value. -/
inductive Switch where
  /-- Only tell what would be removed. -/
  | check
  /-- Go on with the next file when one fails. -/
  | keepGoing
  /-- Consider only imports for reference. -/
  | referenceOnly
  deriving DecidableEq, Repr

/-- The name of an option without a value. -/
def Switch.long : Switch → String
  | check => "check"
  | keepGoing => "keep-going"
  | referenceOnly => "reference-only"

/-- Why arguments are rejected. -/
inductive UsageError where
  /-- There is no such option. -/
  | unknownOption (argument : String)
  /-- There is no such command. -/
  | unknownCommand (argument : String)
  /-- An option has no value. -/
  | missingValue (setting : Setting)
  /-- An option without a value is given one. -/
  | unneededValue (option : String)
  /-- A value is not what it should be. -/
  | badValue (option value : String)
  /-- An option is given twice. -/
  | repeated (option : String)
  /-- The operand is missing. -/
  | missingOperand
  /-- There is more than one operand. -/
  | unexpectedOperand (argument : String)
  deriving DecidableEq, Repr

/-- The wording of an error. -/
def UsageError.message : UsageError → String
  | unknownOption argument => "unexpected argument '" ++ argument ++ "' found"
  | unknownCommand argument => "unrecognized subcommand '" ++ argument ++ "'"
  | missingValue setting =>
    "a value is required for '--" ++ setting.long ++ "' but none was supplied"
  | unneededValue option => "unexpected value for '--" ++ option ++ "' found; no more were expected"
  | badValue option value => "invalid value '" ++ value ++ "' for '" ++ option ++ "'"
  | repeated option => "the argument '--" ++ option ++ "' cannot be used multiple times"
  | missingOperand => "the required argument was not provided"
  | unexpectedOperand argument => "unexpected argument '" ++ argument ++ "' found"

/-- Why arguments do not give a command. -/
inductive Halt where
  /-- They are rejected. -/
  | rejected (why : UsageError)
  /-- The version is asked for. -/
  | version
  /-- Help is asked for. -/
  | help
  deriving DecidableEq, Repr

/-- The shape of an argument. -/
inductive Shape where
  /-- Two dashes, which end the options. -/
  | options
  /-- A named option, maybe with a value. -/
  | long (name : String) (value : Option String)
  /-- A one-letter option, and what stands directly after it. -/
  | short (letter : Char) (rest : List Char)
  /-- Anything else. -/
  | plain
  deriving DecidableEq, Repr

/-- Splits at the first equals sign. -/
def splitEquals : List Char → List Char × Option (List Char)
  | [] => ([], none)
  | c :: rest =>
    if c = '=' then ([], some rest)
    else
      let (name, value) := splitEquals rest
      (c :: name, value)

/-- The shape of an argument. A dash alone is no option. -/
def Shape.ofArgument (argument : String) : Shape :=
  match argument.toList with
  | ['-', '-'] => .options
  | '-' :: '-' :: rest =>
    let (name, value) := splitEquals rest
    .long (String.ofList name) (value.map String.ofList)
  | '-' :: letter :: rest => .short letter rest
  | _ => .plain

/-- The options and the operand that were read. -/
structure Options where
  /-- The parsing program. -/
  program : Option String := none
  /-- The less.js module. -/
  lessModule : Option String := none
  /-- The directories that are searched for imports, in the order given. -/
  importDirs : List String := []
  /-- The format of the report. -/
  format : Option ReportFormat := none
  /-- A kind of nodes. -/
  kind : Option Kind := none
  /-- Only tell what would be removed. -/
  check : Bool := false
  /-- Go on with the next file when one fails. -/
  keepGoing : Bool := false
  /-- Consider only imports for reference. -/
  referenceOnly : Bool := false
  /-- The directory or file. -/
  operand : Option String := none

/-- A value that is not empty. -/
def nonempty (option value : String) : Except UsageError String :=
  if value = "" then .error (.badValue option value) else .ok value

/-- A value that may be given once. -/
def once {α : Type} (s : Setting) (before : Option α) (value : Except UsageError α) :
    Except UsageError (Option α) := do
  if before.isSome then .error (.repeated s.long)
  return some (← value)

namespace Options

/-- Takes an option with its value. -/
def set (o : Options) (s : Setting) (value : String) : Except UsageError Options := do
  let path := nonempty s.long value
  match s with
  | .program => return { o with program := ← once s o.program path }
  | .lessModule => return { o with lessModule := ← once s o.lessModule (.ok value) }
  | .importDir => return { o with importDirs := o.importDirs ++ [← path] }
  | .format =>
    let format := (ReportFormat.ofName? value).elim (.error (.badValue s.long value)) .ok
    return { o with format := ← once s o.format format }
  | .kind =>
    let kind := (Kind.ofName? value).elim (.error (.badValue s.long value)) .ok
    return { o with kind := ← once s o.kind kind }

/-- Takes an option without a value. -/
def turnOn (o : Options) (s : Switch) : Except UsageError Options :=
  match s with
  | .check =>
    if o.check then .error (.repeated s.long) else .ok { o with check := true }
  | .keepGoing =>
    if o.keepGoing then .error (.repeated s.long) else .ok { o with keepGoing := true }
  | .referenceOnly =>
    if o.referenceOnly then .error (.repeated s.long) else .ok { o with referenceOnly := true }

/-- Takes the operand. -/
def setOperand (o : Options) (argument : String) : Except UsageError Options := do
  if o.operand.isSome then .error (.unexpectedOperand argument)
  return { o with operand := some (← nonempty "operand" argument) }

end Options

/-- What may stand in a row of arguments. -/
structure Grammar where
  /-- The options with values. -/
  settings : List Setting
  /-- The options without values. -/
  switches : List Switch
  /-- There is an operand. -/
  operand : Bool
  /-- The version can be asked for. -/
  version : Bool

/-- Where a reader of arguments is. -/
inductive Mode where
  /-- Anything may come. -/
  | anything
  /-- The value of an option is due. -/
  | value (s : Setting)
  /-- Options are over. -/
  | operands
  deriving DecidableEq, Repr

namespace Grammar

/-- What a step of a reader gives. -/
abbrev Step := Except Halt (Mode × Options)

/-- Goes on in a mode. -/
def proceed (mode : Mode) (o : Except UsageError Options) : Step :=
  match o with
  | .ok o => .ok (mode, o)
  | .error why => .error (.rejected why)

/-- Takes a named option. -/
def takeLong (g : Grammar) (o : Options) (name : String) (value : Option String) : Step :=
  match g.settings.find? (·.long = name), g.switches.find? (·.long = name), value with
  | some s, _, some v => proceed .anything (o.set s v)
  | some s, _, none => .ok (.value s, o)
  | none, some s, none => proceed .anything (o.turnOn s)
  | none, some s, some _ => .error (.rejected (.unneededValue s.long))
  | none, none, _ =>
    if name = "help" || (g.version && name = "version") then
      if value.isSome then .error (.rejected (.unneededValue name))
      else .error (if name = "help" then .help else .version)
    else .error (.rejected (.unknownOption ("--" ++ name)))

/-- Takes a one-letter option. -/
def takeShort (g : Grammar) (o : Options) (letter : Char) (rest : List Char) : Step :=
  match g.settings.find? (·.short? = some letter) with
  | some s =>
    match rest with
    | [] => .ok (.value s, o)
    | '=' :: value => proceed .anything (o.set s (String.ofList value))
    | value => proceed .anything (o.set s (String.ofList value))
  | none =>
    if letter = 'h' then .error .help
    else if g.version && letter = 'V' then .error .version
    else .error (.rejected (.unknownOption (String.ofList ['-', letter])))

/-- Takes the operand. -/
def takeOperand (g : Grammar) (mode : Mode) (o : Options) (argument : String) : Step :=
  if g.operand then proceed mode (o.setOperand argument)
  else .error (.rejected (.unexpectedOperand argument))

/-- Takes an argument. -/
def take (g : Grammar) (mode : Mode) (o : Options) (argument : String) : Step :=
  match mode, Shape.ofArgument argument with
  | .operands, _ => g.takeOperand .operands o argument
  | .value s, .plain => proceed .anything (o.set s argument)
  | .value s, _ => .error (.rejected (.missingValue s))
  | .anything, .options => .ok (.operands, o)
  | .anything, .long name value => g.takeLong o name value
  | .anything, .short letter rest => g.takeShort o letter rest
  | .anything, .plain => g.takeOperand .anything o argument

/-- Ends a row of arguments. -/
def finish (mode : Mode) (o : Options) : Except Halt Options :=
  match mode with
  | .value s => .error (.rejected (.missingValue s))
  | .anything | .operands => .ok o

/-- Reads a row of arguments. -/
def read (g : Grammar) : Mode → Options → List String → Except Halt Options
  | mode, o, [] => finish mode o
  | mode, o, argument :: rest => do
    let (mode, o) ← g.take mode o argument
    g.read mode o rest

end Grammar

/-- The names of the commands. -/
inductive Verb where
  /-- Prunes a directory. -/
  | prune
  /-- Lists unused imports. -/
  | unused
  /-- Lists names. -/
  | names
  /-- Lists nodes. -/
  | nodes
  /-- Tells the version. -/
  | version
  /-- Gives help. -/
  | help
  deriving DecidableEq, Repr

/-- The command of that name. -/
def Verb.ofName? : String → Option Verb
  | "prune" => some prune
  | "unused" => some unused
  | "names" => some names
  | "nodes" => some nodes
  | "version" => some version
  | "help" => some help
  | _ => none

/-- The options for the parsing program. -/
def sharedSettings : List Setting :=
  [.program, .lessModule]

/-- What may stand before the name of the command. -/
def outerGrammar : Grammar :=
  ⟨sharedSettings, [], false, true⟩

/-- What may stand after the name of the command. -/
def Verb.grammar : Verb → Grammar
  | prune =>
    ⟨sharedSettings ++ [.importDir, .format], [.check, .keepGoing, .referenceOnly], true, false⟩
  | unused => ⟨sharedSettings ++ [.importDir, .format], [.referenceOnly], true, false⟩
  | names => ⟨sharedSettings ++ [.importDir, .format], [], true, false⟩
  | nodes => ⟨sharedSettings ++ [.importDir, .kind], [], true, false⟩
  | version | help => ⟨sharedSettings, [], false, false⟩

/-- Reads the arguments up to the name of the command, and gives that name with the arguments after
it. -/
def readOuter : Mode → Options → List String → Except Halt (Options × Option (Verb × List String))
  | mode, o, [] => do return (← Grammar.finish mode o, none)
  | mode, o, argument :: rest =>
    match mode, Verb.ofName? argument with
    | .anything, some verb => .ok (o, some (verb, rest))
    | _, _ =>
      match outerGrammar.take mode o argument with
      | .ok (mode, o) => readOuter mode o rest
      | .error (.rejected (.unexpectedOperand name)) => .error (.rejected (.unknownCommand name))
      | .error halt => .error halt

/-- What the environment says about the parsing program. -/
structure Environment where
  /-- The parsing program. -/
  program : Option String
  /-- The less.js module. -/
  lessModule : Option String

/-- Options completed by the environment. An option that is given hides the environment. -/
def Environment.complete (env : Environment) (o : Options) : Except Halt Options := do
  let program ← match o.program, env.program with
    | some program, _ => pure (some program)
    | none, some program =>
      match nonempty Setting.program.long program with
      | .ok program => pure (some program)
      | .error why => .error (.rejected why)
    | none, none => pure none
  return { o with program := program, lessModule := o.lessModule <|> env.lessModule }

/-- The parsing program if none is named. -/
def defaultProgram : String := "node"

/-- The command that a name and its options make. -/
def Verb.command (verb : Verb) (o : Options) : Except Halt Command :=
  let format := o.format.getD .text
  match verb, o.operand with
  | prune, some dir =>
    .ok (.prune ⟨dir, o.importDirs, o.check, o.keepGoing, o.referenceOnly, format⟩)
  | unused, some file => .ok (.unused file o.importDirs o.referenceOnly format)
  | names, some file => .ok (.names file o.importDirs format)
  | nodes, some file => .ok (.nodes file o.importDirs o.kind)
  | version, _ => .ok .version
  | help, _ => .error .help
  | prune, none | unused, none | names, none | nodes, none => .error (.rejected .missingOperand)

/-- Help may be asked for one command. -/
def readHelp : List String → Halt
  | [] => .help
  | [name] => if (Verb.ofName? name).isSome then .help else .rejected (.unknownCommand name)
  | _ :: name :: _ => .rejected (.unknownCommand name)

/-- Reads a command off the arguments. -/
def parseArguments (env : Environment) (arguments : List String) : Except Halt CommandLine := do
  let (outer, rest) ← readOuter .anything {} arguments
  match rest with
  | none =>
    let o ← env.complete outer
    return ⟨o.program.getD defaultProgram, o.lessModule, .banner⟩
  | some (.help, rest) => .error (readHelp rest)
  | some (verb, rest) =>
    let inner ← verb.grammar.read .anything {} rest
    let command ← verb.command inner
    let completed ← env.complete inner
    let _ ← env.complete outer
    return ⟨(inner.program <|> outer.program <|> completed.program).getD defaultProgram,
      inner.lessModule <|> outer.lessModule <|> completed.lessModule, command⟩

end ImportSweep.Command
