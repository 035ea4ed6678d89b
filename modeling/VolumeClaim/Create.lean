import VolumeClaim.Claim.LastApplied
import VolumeClaim.Log
import VolumeClaim.Options
import VolumeClaim.Store

/-!
# Creating a claim

The create command resolves the namespace, checks the request, drafts the claim, records the
applied configuration if asked to, submits the claim unless it is a client dry run, and prints
what it got back.  `Create.run` is the whole of it: its result, what it printed and logged, and
the store and the logger afterwards.  A fault adds no claim and prints nothing.
-/

namespace VolumeClaim

/-- a namespace, and whether the claim itself must name it -/
structure NamespaceChoice where
  name : Text
  enforce : Bool
  deriving DecidableEq

namespace Create

def standardNamespace : Text := ascii "default"

/-- the namespace that the user named, which is enforced, else the configured one, else the
standard one -/
def resolveNamespace (o : Options) (s : Settings) : NamespaceChoice :=
  if o.namespaceName ≠ [] then ⟨o.namespaceName, true⟩
  else if s.namespaceName ≠ [] then ⟨s.namespaceName, false⟩
  else ⟨standardNamespace, false⟩

/-- why a claim was not created -/
inductive Fault where
  | badRequest (flaw : Request.Flaw)
  | badDraft (fault : Draft.Fault)
  | noStore
  | refused (fault : Store.Fault)
  deriving DecidableEq

def Fault.message : Fault → Text
  | .badRequest flaw => flaw.message
  | .badDraft fault => fault.message
  | .noStore => ascii "no claim store configured"
  | .refused fault => ascii "failed to create persistentVolumeClaim " ++ fault.message

def draft (o : Options) (space : NamespaceChoice) : Except Fault Draft :=
  let request := { o.request with namespaceName := space.name }
  match request.check with
  | .error flaw => .error (.badRequest flaw)
  | .ok () => (request.draft space.enforce).mapError .badDraft

/-- the claim of a draft, with its own text if the options ask for that -/
def claimOf (o : Options) (d : Draft) : Claim :=
  if o.saveConfig then d.claim.recordLastApplied else d.claim

def requestText (d : Draft) : Text :=
  ((d.requests.lookup Draft.storage).map Quantity.toText).getD []

def builtFields (d : Draft) (space : NamespaceChoice) : List LogField :=
  [⟨ascii "name", d.name⟩, ⟨ascii "namespace", space.name⟩,
    .ofBool (ascii "enforce_namespace") space.enforce,
    ⟨ascii "storage_request", requestText d⟩]

def submittedFields (d : Draft) (space : NamespaceChoice) (checkOnly : Bool) : List LogField :=
  [⟨ascii "name", d.name⟩, ⟨ascii "namespace", space.name⟩, .ofBool (ascii "dry_run") checkOnly]

/-- everything that an attempt to create a claim leaves behind -/
structure Attempt where
  result : Except Fault Claim
  output : Output
  entries : List LogEntry
  store : Option Store
  logger : Option Logger

/-- what comes back for a claim: the claim itself for a client dry run, else what the store
made of it -/
def submit (dryRun : DryRun) (store : Option Store) (space : NamespaceChoice) (c : Claim) :
    Except Fault Claim × Option Store :=
  if dryRun = .client then (.ok c, store)
  else match store with
    | none => (.error .noStore, none)
    | some s =>
      let (result, s) := s.create space.name c (dryRun = .server)
      (result.mapError .refused, some s)

/-- the message about a claim that was submitted; there is none for a client dry run -/
def recordSubmitted (dryRun : DryRun) (logger : Option Logger) (d : Draft)
    (space : NamespaceChoice) : Option Logger × List LogEntry :=
  if dryRun = .client then (logger, [])
  else Log.record logger .info (ascii "claim submitted")
    (submittedFields d space (dryRun = .server))

/-- submits and prints the claim of a draft -/
def runDraft (o : Options) (d : Draft) (space : NamespaceChoice) (store : Option Store)
    (logger : Option Logger) : Attempt :=
  let (logger, built) := Log.record logger .debug (ascii "claim built") (builtFields d space)
  match submit o.dryRun store space (claimOf o d) with
  | (.error fault, store) => ⟨.error fault, .nothing, built, store, logger⟩
  | (.ok c, store) =>
    let (logger, submitted) := recordSubmitted o.dryRun logger d space
    ⟨.ok c, .print o.format o.dryRun.operation c, built ++ submitted, store, logger⟩

/-- an attempt to create the claim that the options ask for -/
def run (s : Settings) (o : Options) (store : Option Store) (logger : Option Logger) : Attempt :=
  let space := resolveNamespace o s
  match draft o space with
  | .error fault => ⟨.error fault, .nothing, [], store, logger⟩
  | .ok d => runDraft o d space store logger

end Create
end VolumeClaim
