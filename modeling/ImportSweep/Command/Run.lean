import ImportSweep.Command.Arguments
import ImportSweep.Report.Json
import ImportSweep.Tree.Line
import ImportSweep.Tree.Walk

/-!
# Running a command

What a command prints, how it exits, and what it leaves in the files. Files are pruned one after
the other; without `keepGoing` the first error ends the run, and then no report is printed.
-/

namespace ImportSweep.Command

open ImportSweep.Tree ImportSweep.Files ImportSweep.Parser

/-- How a run ends. -/
structure Finish where
  /-- The exit code. -/
  code : Nat
  /-- What is printed. -/
  stdout : String
  /-- What is printed as errors. -/
  stderr : String
  deriving DecidableEq, Repr

/-- Ends a run with errors, each the cause of the one before. -/
def Finish.failure (chain : List String) : Finish :=
  ⟨1, "", "Error: " ++ ": ".intercalate chain ++ "\n"⟩

/-- Ends a run with text. -/
def Finish.success (stdout : String) : Finish :=
  ⟨0, stdout, ""⟩

/-- The end of a run that gives text or errors. -/
def Finish.ofResult : Except (List String) String → Finish
  | .ok stdout => .success stdout
  | .error chain => .failure chain

/-- The release of the program. -/
def release : String := "0.1.0"

/-- What the program says about itself. -/
def bannerText : String :=
  "lessprune - Unused LESS import remover\n"
    ++ "Run 'lessprune prune <DIR>' to remove unused imports\n"
    ++ "Run 'lessprune --help' for more information\n"

variable {σ : Type} [Store σ]

/-- Directories for imports have to exist. -/
def ensureDirectories (files : σ) (dirs : List String) : Except (List String) Unit :=
  match dirs.find? (!Store.isDirectory files ·) with
  | some dir => .error ["Could not find import dir \"" ++ dir ++ "\""]
  | none => .ok ()

/-- Prunes a file, or only finds out what would be removed. -/
def pruneFile (s : Sweep) (check : Bool) (importDirs : List String) (files : σ) (file : String) :
    Except SweepError FileResult × σ :=
  let target := Target.mk none file importDirs
  if check then
    let report := (s.unused files target).map fun unused =>
      { FileResult.ofUnused file unused with changed := !unused.isEmpty }
    (report, files)
  else
    let (outcome, files') := s.apply files target
    (outcome.map FileResult.ofOutcome, files')

/-- Prunes files one after the other. An error is given with its file. -/
def pruneFiles (w : Wording) (s : Sweep) (o : PruneOptions) (files : σ) :
    List String → Except (String × SweepError) (List FileResult) × σ
  | [] => (.ok [], files)
  | file :: rest =>
    match pruneFile s o.check o.importDirs files file with
    | (.ok report, files') =>
      let (reports, final) := pruneFiles w s o files' rest
      (reports.map (report :: ·), final)
    | (.error e, files') =>
      if o.keepGoing then
        let (reports, final) := pruneFiles w s o files' rest
        (reports.map (FileResult.ofError file (e.messageIn w) :: ·), final)
      else (.error (file, e), files')

/-- The files that are to be pruned. -/
def listFiles (files : σ) (o : PruneOptions) : Except (List String) (List String) := do
  if !Store.isDirectory files o.dir then
    .error ["First argument must be a valid directory to search in. Got \"" ++ o.dir ++ "\""]
  ensureDirectories files o.importDirs
  (Store.stylesheets files o.dir).mapError fun e =>
    ["Failed to list .less files in " ++ o.dir, e.message, e.cause.message]

/-- Prunes the stylesheets below a directory. -/
def runPrune (w : Wording) (s : Sweep) (o : PruneOptions) (files : σ) : Finish × σ :=
  match listFiles files o with
  | .error chain => (.failure chain, files)
  | .ok paths =>
    match pruneFiles w s o files paths with
    | (.ok reports, files') =>
      let report := Report.mk reports o.check
      (⟨report.exitCode, report.render o.format, ""⟩, files')
    | (.error (file, e), files') => (.failure (("Failed to process " ++ file) :: e.chain w), files')

/-- The report on a single file. -/
def singleReport (format : ReportFormat) (report : FileResult) : String :=
  (Report.mk [report] false).render format

/-- Pads a text on the left to a width. -/
def padLeft (width : Nat) (text : String) : String :=
  String.ofList (List.replicate (width - text.length) ' ') ++ text

/-- The line on a node. -/
def nodeLine (n : Node) : String :=
  let index := n.index.elim "-" toString
  let line := match n.line with
    | .ok line => line
    | .error _ => "(no leaf)"
  padLeft 6 index ++ "  " ++ n.kind.name ++ " " ++ line ++ "\n"

/-- The lines on the nodes of a tree, or on those of a kind. -/
def nodeLines (kind : Option Kind) (root : Node) : String :=
  String.join (((root.preorder false).filter fun n => kind.all (· = n.kind)).map nodeLine)

/-- Lists the unused imports of a file. -/
def runUnused (w : Wording) (s : Sweep) (files : σ) (file : String) (importDirs : List String)
    (format : ReportFormat) : Except (List String) String := do
  ensureDirectories files importDirs
  let unused ← (s.unused files ⟨none, file, importDirs⟩).mapError (·.chain w)
  return singleReport format (.ofUnused file unused)

/-- Lists the names of a file. -/
def runNames (w : Wording) (s : Sweep) (files : σ) (file : String) (importDirs : List String)
    (format : ReportFormat) : Except (List String) String := do
  ensureDirectories files importDirs
  let names ← (s.names files file importDirs).mapError (·.chain w)
  return singleReport format (.ofNames file names)

/-- Lists the nodes of a file. -/
def runNodes (w : Wording) (s : Sweep) (files : σ) (file : String) (importDirs : List String)
    (kind : Option Kind) : Except (List String) String := do
  ensureDirectories files importDirs
  let source ← (Store.read files file).mapError fun cause =>
    ["Failed to read " ++ file, cause.message]
  let root ← (s.parse source file importDirs).mapError (·.chain w)
  return nodeLines kind root

/-- Runs a command. -/
def run (w : Wording) (parser : SourceParser) (files : σ) : Command → Finish × σ
  | .prune o => runPrune w ⟨parser, o.referenceOnly⟩ o files
  | .unused file importDirs referenceOnly format =>
    (.ofResult (runUnused w ⟨parser, referenceOnly⟩ files file importDirs format), files)
  | .names file importDirs format =>
    (.ofResult (runNames w ⟨parser, false⟩ files file importDirs format), files)
  | .nodes file importDirs kind =>
    (.ofResult (runNodes w ⟨parser, false⟩ files file importDirs kind), files)
  | .version => (.success ("lessprune v" ++ release ++ "\n"), files)
  | .banner => (.success bannerText, files)

/-- The runs of the parsing program that a command may make. -/
def invocations (line : CommandLine) (files : σ) : List Invocation :=
  let call := fun (importDirs : List String) (file : String) =>
    (Store.read files file).toOption.map fun source =>
      invocation line.program line.lessModule source ⟨some file, importDirs⟩
  match line.command with
  | .prune o =>
    match listFiles files o with
    | .ok paths => paths.filterMap (call o.importDirs)
    | .error _ => []
  | .unused file importDirs _ _ | .names file importDirs _ | .nodes file importDirs _ =>
    (call importDirs file).toList
  | .version | .banner => []

/-- What is printed for help. -/
def usageText : String :=
  "Finds and removes unused @import statements from LESS stylesheets\n\n"
    ++ "Usage: lessprune [OPTIONS] [COMMAND]\n\n"
    ++ "Commands:\n"
    ++ "  prune    Remove unused imports from every .less file under a directory\n"
    ++ "  unused   List the unused imports of one file\n"
    ++ "  names    Show the names a file exports and the names it references\n"
    ++ "  nodes    Print the syntax tree of a file, one node per line\n"
    ++ "  version  Show version information\n"

/-- How a run ends that does not get to a command. -/
def Halt.finish : Halt → Finish
  | .rejected why => ⟨2, "", "error: " ++ why.message ++ "\n"⟩
  | .version => .success ("lessprune " ++ release ++ "\n")
  | .help => .success usageText

/-- Runs the program on its arguments. -/
def runArguments (w : Wording) (service : Service) (env : Environment) (arguments : List String)
    (files : σ) : Finish × σ :=
  match parseArguments env arguments with
  | .error halt => (halt.finish, files)
  | .ok line => run w (serviceParser service line.program line.lessModule) files line.command

end ImportSweep.Command
