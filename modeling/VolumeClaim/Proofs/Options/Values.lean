import VolumeClaim.Options.Arguments

/-!
# Values of flags

Every flag sets its own part of the options, so of several values for one flag the last one counts,
whatever is given for other flags in between.

* `Options.set_ofGiven`     one more value, if it is one for its flag;
* `Options.set_of_fault`    and if it is not.
-/

namespace VolumeClaim

/-- the value of a flag that stands alone, as it would be written out; the other flags are given
with a value -/
def Flag.whenAlone? : Flag → Option Text
  | .dryRun => some (ascii "client")
  | .saveConfig | .help => some (ascii "true")
  | _ => none

namespace Options

/-- the fault of a value that is not read -/
def unread {α : Type} (fault : UsageFault) (read : Option α) : Option UsageFault :=
  read.elim (some fault) fun _ => none

/-- what is wrong with a value for a flag -/
def fault? (flag : Flag) (value : Text) : Option UsageFault :=
  match flag with
  | .output => unread (.badOutputFormat value) (OutputFormat.ofText? value)
  | .dryRun => unread (.badDryRun value) (DryRun.ofText? value)
  | .saveConfig | .help => unread (.badTruthValue flag.name value) (truth? value)
  | _ => none

theorem formatOf_eq (t : Text) :
    formatOf t = (OutputFormat.ofText? t).elim (.error (.badOutputFormat t)) .ok := by
  unfold formatOf
  cases OutputFormat.ofText? t <;> rfl

theorem dryRunOf_eq (t : Text) :
    dryRunOf t = (DryRun.ofText? t).elim (.error (.badDryRun t)) .ok := by
  unfold dryRunOf
  cases DryRun.ofText? t <;> rfl

theorem truth_eq (flag : Flag) (t : Text) :
    truth flag t = (truth? t).elim (.error (.badTruthValue flag.name t)) .ok := by
  unfold truth
  cases truth? t <;> rfl

section
variable {α β : Type} {fault : UsageFault} {read : Option α} (f : α → β)

theorem map_of_unread {found : UsageFault} (h : unread fault read = some found) :
    (read.elim (.error fault) .ok : Except UsageFault α).map f = .error found := by
  cases read with
  | none =>
    cases h
    rfl
  | some a => cases h

theorem map_of_read (h : unread fault read = none) : ∃ a, read = some a ∧
    (read.elim (.error fault) .ok : Except UsageFault α).map f = .ok (f a) := by
  cases read with
  | none => cases h
  | some a => exact ⟨a, rfl, rfl⟩

end

/-- the last value that is given for a flag -/
def latest? (flag : Flag) (given : List (Flag × Text)) : Option Text :=
  (given.filter fun e => e.1 = flag).getLast?.map Prod.snd

theorem latest?_concat (flag : Flag) (given : List (Flag × Text)) (e : Flag × Text) :
    latest? flag (given ++ [e]) = if e.1 = flag then some e.2 else latest? flag given := by
  unfold latest?
  rw [List.filter_append]
  by_cases h : e.1 = flag
  · rw [if_pos h]
    simp [h]
  · rw [if_neg h]
    simp [h]

/-- the options by the last value for every flag; there is no name yet -/
def ofGiven (given : List (Flag × Text)) : Options where
  request := { Request.empty with
    storageRequest := (latest? .storageRequest given).getD []
    storageLimit := (latest? .storageLimit given).getD []
    accessModes := (latest? .accessModes given).getD []
    storageClass := (latest? .storageClass given).getD [] }
  namespaceName := (latest? .namespaceName given).getD []
  configPath := (latest? .config given).getD []
  dryRun := ((latest? .dryRun given).bind DryRun.ofText?).getD .none
  format := ((latest? .output given).bind OutputFormat.ofText?).getD .standard
  saveConfig := ((latest? .saveConfig given).bind truth?).getD false
  help := ((latest? .help given).bind truth?).getD false

/-- a flag that stands alone is set as if its value were written out -/
theorem set_implied {flag : Flag} {value : Text} (h : flag.whenAlone? = some value) :
    ∃ implied, flag.implied? = some implied ∧ ∀ o, set o flag implied = set o flag value := by
  cases flag <;> cases h
  case dryRun => exact ⟨ascii "unchanged", rfl, fun _ => rfl⟩
  case saveConfig | help => exact ⟨ascii "true", rfl, fun _ => rfl⟩

theorem implied?_eq_none_iff {flag : Flag} : flag.implied? = none ↔ flag.whenAlone? = none := by
  cases flag <;> decide

theorem set_of_fault {flag : Flag} {value : Text} {fault : UsageFault}
    (h : fault? flag value = some fault) (o : Options) : set o flag value = .error fault := by
  cases flag with
  | output =>
    unfold set
    rw [formatOf_eq]
    exact map_of_unread _ h
  | dryRun =>
    unfold set
    rw [dryRunOf_eq]
    exact map_of_unread _ h
  | saveConfig | help =>
    unfold set
    rw [truth_eq]
    exact map_of_unread _ h
  | _ => cases h

theorem set_ofGiven {flag : Flag} {value : Text} (h : fault? flag value = none)
    (given : List (Flag × Text)) :
    (ofGiven given).set flag value = .ok (ofGiven (given ++ [(flag, value)])) := by
  cases flag with
  | output =>
    unfold set
    rw [formatOf_eq]
    obtain ⟨format, hread, hmap⟩ :=
      map_of_read (fun format => { ofGiven given with format := format }) h
    rw [hmap]
    simp [ofGiven, latest?_concat, hread]
  | dryRun =>
    unfold set
    rw [dryRunOf_eq]
    obtain ⟨dryRun, hread, hmap⟩ :=
      map_of_read (fun d => { ofGiven given with dryRun := d }) h
    rw [hmap]
    simp [ofGiven, latest?_concat, hread]
  | saveConfig =>
    unfold set
    rw [truth_eq]
    obtain ⟨b, hread, hmap⟩ := map_of_read (fun b => { ofGiven given with saveConfig := b }) h
    rw [hmap]
    simp [ofGiven, latest?_concat, hread]
  | help =>
    unfold set
    rw [truth_eq]
    obtain ⟨b, hread, hmap⟩ := map_of_read (fun b => { ofGiven given with help := b }) h
    rw [hmap]
    simp [ofGiven, latest?_concat, hread]
  | _ => simp [set, ofGiven, latest?_concat]

end Options
end VolumeClaim
