import VolumeClaim.Environment
import VolumeClaim.FileTree
import VolumeClaim.Node.Typing

/-!
# Settings

Settings come from a configuration file: how to log, which namespace to use when none is named,
and where the store is.  `Settings.load` reads a file that has been parsed into a tree;
`Settings.locate` says which file to read.  A file must be a mapping, or empty; it may hold
the known sections and fields only, and every field must be a text.
-/

namespace VolumeClaim

/-- what can be configured; an empty text means not configured -/
structure Settings where
  level : Text
  pattern : Text
  namespaceName : Text
  rootPath : Text
  deriving DecidableEq

namespace Settings

def empty : Settings := ⟨[], [], [], []⟩

/-! ## Reading a document -/

def readLogging (s : Settings) (key : Text) (v : Value) : Option Settings :=
  if key = ascii "level" then (v.textOr s.level).map fun t => { s with level := t }
  else if key = ascii "pattern" then (v.textOr s.pattern).map fun t => { s with pattern := t }
  else none

def readContext (s : Settings) (key : Text) (v : Value) : Option Settings :=
  if key = ascii "namespace" then
    (v.textOr s.namespaceName).map fun t => { s with namespaceName := t }
  else none

def readStore (s : Settings) (key : Text) (v : Value) : Option Settings :=
  if key = ascii "root_path" ∨ key = ascii "rootPath" then
    (v.textOr s.rootPath).map fun t => { s with rootPath := t }
  else none

/-- the fields of a section; a section that is null counts as not given -/
def readSection (read : Settings → Text → Value → Option Settings) (s : Settings) :
    Value → Option Settings
  | .null => some s
  | v => Value.readFields read s v

def readField (s : Settings) (key : Text) (v : Value) : Option Settings :=
  if key = ascii "logging" then readSection readLogging s v
  else if key = ascii "context" then readSection readContext s v
  else if key = ascii "store" then readSection readStore s v
  else none

def ofDocument? : Value → Option Settings := Value.readFields readField empty

/-! ## Loading a file -/

inductive Flaw where
  | notAMapping
  | badKey (fault : Node.Fault)
  | badContent
  deriving DecidableEq

def Flaw.message : Flaw → Text
  | .notAMapping => ascii "top level must be a mapping"
  | .badKey fault => fault.message
  | .badContent => ascii "<detail>"

inductive Fault where
  | unreadable (path : Text)
  | invalid (path : Text) (flaw : Flaw)
  deriving DecidableEq

def Fault.message : Fault → Text
  | .unreadable path =>
    (ascii "failed to load config " ++ path ++ ascii ": <detail>").untilZero
  | .invalid path flaw =>
    (ascii "invalid config " ++ path ++ ascii ": " ++ flaw.message).untilZero

/-- the configuration files that can be read, by path -/
abbrev Documents := List (Text × Node)

/-- the value of a document, which must be a mapping -/
def documentValue : Node → Except Flaw Value
  | .map entries => match (Node.map entries).value with
    | .ok v => .ok v
    | .error fault => .error (.badKey fault)
  | _ => .error .notAMapping

/-- the settings of a document; an empty document configures nothing -/
def ofNode : Node → Except Flaw Settings
  | .null => .ok empty
  | node => do
    let v ← documentValue node
    if !v.allFinite then .error .badContent
    else match ofDocument? v with
      | some s => .ok s
      | none => .error .badContent

/-- the settings of the file at a path -/
def load (documents : Documents) (path : Text) : Except Fault Settings :=
  match documents.lookup path with
  | none => .error (.unreadable path)
  | some node => (ofNode node).mapError (.invalid path)

/-! ## Finding the file -/

def configVariable : Text := ascii "CLAIMCTL_CONFIG"

def homeVariable : Text := ascii "HOME"

def userDirectory (home : Text) : Text := Path.join home (ascii ".claimctl")

/-- the configuration file in the home directory, if it exists -/
def homeFile? (env : Environment) (tree : FileTree) : Option Text :=
  match env.value? homeVariable with
  | none => none
  | some home =>
    let path := Path.join (userDirectory home) (ascii "config.yaml")
    if tree.hasFile path then some path else none

/-- the path of the configuration file: the one that is named, else the one that the
environment names, else the one in the home directory -/
def locate (env : Environment) (tree : FileTree) (named : Text) : Option Text :=
  if named ≠ [] then some named
  else match env.value? configVariable with
    | some path => some path
    | none => homeFile? env tree

/-- the settings from the file that is found; none configured if there is no file -/
def find (env : Environment) (tree : FileTree) (documents : Documents) (named : Text) :
    Except Fault Settings :=
  match locate env tree named with
  | some path => load documents path
  | none => .ok empty

/-- the directory of the store: the configured one, else one in the home directory, else a
shared one -/
def storeRoot (s : Settings) (env : Environment) : Text :=
  if s.rootPath ≠ [] then s.rootPath
  else match env.value? homeVariable with
    | some home => Path.join (userDirectory home) (ascii "store")
    | none => ascii "/tmp/claimctl"

end Settings
end VolumeClaim
