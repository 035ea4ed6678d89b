import VolumeClaim.Create
import VolumeClaim.Options.Arguments

/-!
# The command line

`claimctl [--config PATH] create persistentvolumeclaim NAME ...`: one command on one kind of
resource, with a flag that may also stand in front of the command.  `CommandLine.run` is a whole
invocation: from the arguments and the surroundings to the exit code, both output streams, the
log and the surroundings afterwards.
-/

namespace VolumeClaim

/-- what an invocation finds around it and leaves behind: variables, configuration files as
parsed, all directories and files, and the logger -/
structure Surroundings where
  environment : Environment
  documents : Settings.Documents
  tree : FileTree
  logger : Option Logger

structure Outcome where
  exitCode : Nat
  output : Output
  errors : Text
  entries : List LogEntry

namespace CommandLine
open Text

def usageLines : List String := [
  "Create a persistentvolumeclaim with the specified name.",
  "",
  "Usage:",
  "  claimctl [--config <path>] create persistentvolumeclaim NAME --storage-request=<quantity> [options]",
  "",
  "Aliases:",
  "  persistentvolumeclaim, pvc",
  "",
  "Examples:",
  "  # Create a persistentvolumeclaim",
  "  claimctl create persistentvolumeclaim my-pvc --storage-request=1Gi",
  "",
  "  # Create a persistentvolumeclaim with a resource limit",
  "  claimctl create persistentvolumeclaim my-pvc --storage-request=500Mi --storage-limit=1Gi",
  "",
  "  # Create a persistentvolumeclaim with an access mode",
  "  claimctl create persistentvolumeclaim my-pvc --storage-request=500Mi --access-modes=ReadWriteOnce",
  "",
  "Options:",
  "  --storage-request=<q>       Storage request capacity for the pvc (required)",
  "  --storage-limit=<q>         Storage limit capacity for the pvc",
  "  --access-modes=m1,m2        Access modes: ReadOnlyMany, ReadWriteMany, ReadWriteOnce",
  "  --storage-class-name=<s>    Storage class name that pvc will use",
  "  -n, --namespace=<ns>        Namespace to create the pvc in",
  "  --dry-run[=none|client|server]",
  "  -o, --output=json|yaml|name",
  "  --save-config               Record the object in the last-applied-configuration annotation",
  "  --config=<path>             Config file (default $CLAIMCTL_CONFIG or ~/.claimctl/config.yaml)"]

def usage : Text := usageLines.flatMap fun line => ascii line ++ [10]

def isClaimResource (t : Text) : Bool := t = ascii "persistentvolumeclaim" || t = ascii "pvc"

/-- the configuration flags in front of the command, each as one argument, and the arguments
that follow them -/
def hoist : List Text → List Text × List Text
  | [] => ([], [])
  | [argument] =>
    if (ascii "--config=").isPrefixOf argument then ([argument], []) else ([], [argument])
  | argument :: value :: rest =>
    if (ascii "--config=").isPrefixOf argument then
      let (flags, others) := hoist (value :: rest)
      (argument :: flags, others)
    else if argument = ascii "--config" then
      let (flags, others) := hoist rest
      ((ascii "--config=" ++ value) :: flags, others)
    else ([], argument :: value :: rest)

inductive Command where
  | usage (exitCode : Nat)
  | create (arguments : List Text)
  deriving DecidableEq

/-- the command that the arguments name; flags in front of it become its own first flags -/
def Command.ofArguments (arguments : List Text) : Command :=
  match hoist arguments with
  | (_, [word]) => if word = ascii "-h" ∨ word = ascii "--help" then .usage 0 else .usage 1
  | (flags, command :: resource :: rest) =>
    if command = ascii "create" ∧ isClaimResource resource then .create (flags ++ rest)
    else .usage 1
  | _ => .usage 1

def errorLine (message : Text) : Text := ascii "error: " ++ message ++ [10]

def usageHint : Text :=
  ascii "See 'claimctl create persistentvolumeclaim --help' for usage." ++ [10]

def showUsage (w : Surroundings) (exitCode : Nat) : Outcome × Surroundings :=
  (⟨exitCode, .text usage, [], []⟩, w)

/-- ends with an error and nothing printed -/
def fail (w : Surroundings) (exitCode : Nat) (errors : Text) : Outcome × Surroundings :=
  (⟨exitCode, .nothing, errors, []⟩, w)

/-- the file tree after an attempt -/
def treeAfter (w : Surroundings) (store : Option Store) : FileTree :=
  match store with
  | some (.disk d) => d.tree
  | _ => w.tree

/-- creates a claim with settings that are in force; the logger is removed at the end -/
def runCreate (w : Surroundings) (s : Settings) (o : Options) : Outcome × Surroundings :=
  let store : Store := .disk ⟨s.storeRoot w.environment, w.tree⟩
  let attempt := Create.run s o (some store) w.logger
  let tree := treeAfter w attempt.store
  match attempt.result with
  | .ok _ =>
    (⟨0, attempt.output, [], attempt.entries⟩,
      { w with tree := tree, logger := Log.stop attempt.logger })
  | .error fault =>
    let (logger, failed) := Log.record attempt.logger .debug (ascii "create failed")
      [⟨ascii "error", fault.message⟩]
    (⟨1, attempt.output, errorLine fault.message, attempt.entries ++ failed⟩,
      { w with tree := tree, logger := Log.stop logger })

/-- loads the settings, starts the log, and creates a claim -/
def runOptions (w : Surroundings) (o : Options) : Outcome × Surroundings :=
  match Settings.find w.environment w.tree w.documents o.configPath with
  | .error fault => fail w 2 (errorLine fault.message)
  | .ok s => match Log.start w.environment s w.logger with
    | (.error fault, logger) => fail { w with logger := logger } 2 (errorLine fault.message)
    | (.ok (), logger) => runCreate { w with logger := logger } s o

/-- one invocation with the given arguments -/
def run (w : Surroundings) (arguments : List Text) : Outcome × Surroundings :=
  match Command.ofArguments arguments with
  | .usage exitCode => showUsage w exitCode
  | .create arguments => match Options.parse arguments with
    | .error fault => fail w 1 (errorLine fault.message ++ usageHint)
    | .ok o => if o.help then showUsage w 0 else runOptions w o

end CommandLine
end VolumeClaim
