import VolumeClaim.Output
import VolumeClaim.Request

/-!
# Options of the create command

What the command line can say about a claim to create: the request, the namespace, whether the
store is asked for good, how the claim is printed.  Every option has a flag; `Options.set`
takes the value of a flag, or tells why it is not one.
-/

namespace VolumeClaim

/-- whether a claim is created: for good, not even submitted, or submitted as a check -/
inductive DryRun where
  | none
  | client
  | server
  deriving DecidableEq

namespace DryRun

/-- the word of a dry run; truth values are old words, and `unchanged` is the flag alone -/
def ofText? (t : Text) : Option DryRun :=
  if t = ascii "none" ∨ t = ascii "false" then some .none
  else if t = ascii "client" ∨ t = ascii "true" ∨ t = ascii "unchanged" then some .client
  else if t = ascii "server" then some .server
  else Option.none

/-- what was done to the claim, for the standard format -/
def operation : DryRun → Text
  | .none => ascii "created"
  | .client => ascii "created (dry run)"
  | .server => ascii "created (server dry run)"

end DryRun

inductive Flag where
  | storageRequest
  | storageLimit
  | accessModes
  | storageClass
  | namespaceName
  | output
  | config
  | dryRun
  | saveConfig
  | help
  deriving DecidableEq

namespace Flag

def all : List Flag :=
  [.storageRequest, .storageLimit, .accessModes, .storageClass, .namespaceName, .output, .config,
    .dryRun, .saveConfig, .help]

def name : Flag → Text
  | .storageRequest => ascii "storage-request"
  | .storageLimit => ascii "storage-limit"
  | .accessModes => ascii "access-modes"
  | .storageClass => ascii "storage-class-name"
  | .namespaceName => ascii "namespace"
  | .output => ascii "output"
  | .config => ascii "config"
  | .dryRun => ascii "dry-run"
  | .saveConfig => ascii "save-config"
  | .help => ascii "help"

/-- the letter of a flag that has one -/
def letter? : Flag → Option UInt8
  | .namespaceName => some (byte 'n')
  | .output => some (byte 'o')
  | .help => some (byte 'h')
  | _ => none

/-- the value of a flag that stands alone; the other flags need a value -/
def implied? : Flag → Option Text
  | .dryRun => some (ascii "unchanged")
  | .saveConfig | .help => some (ascii "true")
  | _ => none

def ofName? (t : Text) : Option Flag := all.find? fun flag => flag.name = t

def ofLetter? (b : UInt8) : Option Flag := all.find? fun flag => flag.letter? = some b

end Flag

inductive UsageFault where
  | unknownFlag (name : Text)
  | unknownLetter (letter : UInt8) (argument : Text)
  | missingValue (name : Text)
  | missingLetterValue (letter : UInt8)
  | badTruthValue (flag value : Text)
  | badDryRun (value : Text)
  | badOutputFormat (value : Text)
  | nameCount (n : Nat)
  deriving DecidableEq

/-- what the command line says -/
structure Options where
  request : Request
  namespaceName : Text
  configPath : Text
  dryRun : DryRun
  format : OutputFormat
  saveConfig : Bool
  help : Bool
  deriving DecidableEq

namespace Options

def standard : Options := ⟨.empty, [], [], .none, .standard, false, false⟩

def truth? (t : Text) : Option Bool :=
  if t = ascii "true" ∨ t = ascii "1" then some true
  else if t = ascii "false" ∨ t = ascii "0" then some false
  else none

def truth (flag : Flag) (t : Text) : Except UsageFault Bool :=
  match truth? t with
  | some b => .ok b
  | none => .error (.badTruthValue flag.name t)

def dryRunOf (t : Text) : Except UsageFault DryRun :=
  match DryRun.ofText? t with
  | some d => .ok d
  | none => .error (.badDryRun t)

def formatOf (t : Text) : Except UsageFault OutputFormat :=
  match OutputFormat.ofText? t with
  | some format => .ok format
  | none => .error (.badOutputFormat t)

def set (o : Options) (flag : Flag) (value : Text) : Except UsageFault Options :=
  match flag with
  | .storageRequest => .ok { o with request := { o.request with storageRequest := value } }
  | .storageLimit => .ok { o with request := { o.request with storageLimit := value } }
  | .accessModes => .ok { o with request := { o.request with accessModes := value } }
  | .storageClass => .ok { o with request := { o.request with storageClass := value } }
  | .namespaceName => .ok { o with namespaceName := value }
  | .output => (formatOf value).map fun format => { o with format := format }
  | .config => .ok { o with configPath := value }
  | .dryRun => (dryRunOf value).map fun d => { o with dryRun := d }
  | .saveConfig => (truth flag value).map fun b => { o with saveConfig := b }
  | .help => (truth flag value).map fun b => { o with help := b }

def setName (o : Options) (name : Text) : Options :=
  { o with request := { o.request with name := name } }

end Options
end VolumeClaim
