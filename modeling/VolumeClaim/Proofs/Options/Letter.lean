import VolumeClaim.Proofs.Options.Spelling

/-!
# Letters with a value

`-f=value` is meant like `--flag=value`, and is for the flags that need a value.  The letter of help
stands for help alone: what is written behind it is not looked at.

* `Complete`               arguments that can stand in front of a flag;
* `scan_append`            these are read first, and then the rest;
* `parse_letter_assigned`  what a letter with a value says, among any other arguments.
-/

namespace VolumeClaim.Options
open Text

/-! ## Arguments in front of others -/

/-- the arguments end where an item ends: none of them waits for a value, and no two dashes stand
for themselves -/
inductive Complete : List Text → Prop where
  | nil : Complete []
  | name {argument : Text} {rest : List Text} (token : Token.ofArgument argument = .name)
    (complete : Complete rest) : Complete (argument :: rest)
  | setting {argument : Text} {rest : List Text} {flag : Flag} {value : Text}
    (token : Token.ofArgument argument = .setting flag value) (complete : Complete rest) :
    Complete (argument :: rest)
  | awaiting {argument value : Text} {rest : List Text} {flag : Flag} {fault : UsageFault}
    (token : Token.ofArgument argument = .awaiting flag fault) (complete : Complete rest) :
    Complete (argument :: value :: rest)
  | refused {argument : Text} {rest : List Text} {fault : UsageFault}
    (token : Token.ofArgument argument = .refused fault) (complete : Complete rest) :
    Complete (argument :: rest)

theorem Complete.append_arguments {flag : Flag} {value : Text} (spelling : Spelling flag value)
    {rest : List Text} (h : Complete rest) : Complete (spelling.arguments ++ rest) := by
  have htold := spelling.told_arguments
  generalize spelling.arguments = arguments at htold ⊢
  cases htold with
  | setting token => exact .setting token h
  | awaiting token => exact .awaiting token h

/-- whatever is written from items is complete -/
theorem complete_items (items : List Item) : Complete (items.flatMap Item.arguments) := by
  induction items with
  | nil => exact .nil
  | cons item items ih =>
    rw [List.flatMap_cons]
    cases item with
    | name t plain => exact .name (Token.ofArgument_name plain) ih
    | setting flag value spelling => exact ih.append_arguments spelling

/-- complete arguments are read to their end before the rest is looked at -/
theorem scan_append {before : List Text} (h : Complete before) (p : Progress) (rest : List Text) :
    scan p (before ++ rest) = (scan p before >>= fun q => scan q rest) := by
  induction h generalizing p with
  | nil => rfl
  | name token _ ih => rw [List.cons_append, scan_of_name p _ token, scan_of_name p _ token, ih]
  | setting token _ ih =>
    rw [List.cons_append, scan_of_setting p _ token, scan_of_setting p _ token, bind_assoc]
    exact bind_congr ih
  | awaiting token _ ih =>
    rw [List.cons_append, List.cons_append, scan_of_awaiting p _ token, scan_of_awaiting p _ token,
      bind_assoc]
    exact bind_congr ih
  | refused token =>
    rw [List.cons_append, scan_of_refused p _ token, scan_of_refused p _ token]
    rfl

/-- one argument can be written for the other, wherever an item can begin -/
def Interchangeable (argument other : Text) : Prop :=
  ∀ before after, Complete before →
    parse (before ++ argument :: after) = parse (before ++ other :: after)

theorem interchangeable_of_setting {argument other : Text} {flag : Flag} {value written : Text}
    (token : Token.ofArgument argument = .setting flag value)
    (token' : Token.ofArgument other = .setting flag written)
    (same : ∀ o, set o flag value = set o flag written) : Interchangeable argument other := by
  intro before after h
  unfold parse
  rw [scan_append h, scan_append h]
  have hscan (p : Progress) : scan p (argument :: after) = scan p (other :: after) := by
    rw [scan_of_setting p _ token, scan_of_setting p _ token', Progress.set, Progress.set, same]
  simp only [hscan]

/-! ## A letter with a value -/

section
variable {flag : Flag} {letter : UInt8}

theorem implied?_of_letter? (has : flag.letter? = some letter) (h : flag ≠ .help) :
    flag.implied? = none := by
  cases flag <;> first | rfl | exact absurd rfl h | cases has

theorem truth?_eq_some_true_iff {t : Text} :
    truth? t = some true ↔ t = ascii "true" ∨ t = ascii "1" := by
  unfold truth?
  split
  · rename_i h
    exact iff_of_true rfl h
  · rename_i h
    split
    · exact iff_of_false nofun h
    · exact iff_of_false nofun h

theorem set_help (o : Options) (t : Text) :
    set o .help t = (truth .help t).map fun b => { o with help := b } := rfl

theorem ofArgument_help (rest : Text) :
    Token.ofArgument (byte '-' :: byte 'h' :: rest) = .setting .help (ascii "true") :=
  Token.ofArgument_letter rfl rfl rest

/-- the letter of help says less than the flag, if the value is no word for yes -/
theorem parse_help_ne {value : Text} (h : truth? value ≠ some true) (rest : Text) :
    parse [byte '-' :: byte 'h' :: rest] ≠ parse [Flag.help.long ++ byte '=' :: value] := by
  have hshort : parse [byte '-' :: byte 'h' :: rest] = .ok { standard with help := true } := by
    unfold parse
    rw [scan_of_setting .start [] (ofArgument_help rest)]
    rfl
  have hlong : parse [Flag.help.long ++ byte '=' :: value] =
      (truth .help value).bind fun b => if b then .ok { standard with help := true }
        else .error (.nameCount 0) := by
    unfold parse
    rw [scan_of_setting .start [] (Token.ofArgument_assigned .help value), Progress.set, set_help]
    cases truth .help value with
    | error fault => rfl
    | ok b => cases b <;> rfl
  rw [hshort, hlong, truth_eq]
  intro hsame
  cases hword : truth? value with
  | none =>
    rw [hword] at hsame
    cases hsame
  | some b =>
    cases b with
    | false =>
      rw [hword] at hsame
      cases hsame
    | true => exact absurd hword h

/-- **A letter with a value says what its flag says with that value, among any other arguments,
except for help**: its letter asks for help whatever follows. -/
theorem parse_letter_assigned (has : flag.letter? = some letter) (value : Text) :
    (Interchangeable (byte '-' :: letter :: byte '=' :: value) (flag.long ++ byte '=' :: value) ↔
      (flag = .help → value = ascii "true" ∨ value = ascii "1")) ∧
    (flag = .help → Interchangeable (byte '-' :: letter :: byte '=' :: value)
      (flag.long ++ byte '=' :: ascii "true")) := by
  by_cases hhelp : flag = .help
  · subst hhelp
    cases has
    have htoken := ofArgument_help (byte '=' :: value)
    have hyes : Interchangeable (byte '-' :: byte 'h' :: byte '=' :: value)
        (Flag.help.long ++ byte '=' :: ascii "true") :=
      interchangeable_of_setting htoken (Token.ofArgument_assigned .help _) fun _ => rfl
    refine ⟨?_, fun _ => hyes⟩
    rw [← truth?_eq_some_true_iff]
    constructor
    · intro hsame _
      by_contra hword
      exact parse_help_ne hword _ (hsame [] [] .nil)
    · intro hword
      refine interchangeable_of_setting htoken (Token.ofArgument_assigned .help value) fun o => ?_
      rw [set_help, set_help, truth_eq, truth_eq, hword rfl]
      rfl
  · refine ⟨iff_of_true ?_ fun h => absurd h hhelp, fun h => absurd h hhelp⟩
    exact interchangeable_of_setting
      (Token.ofArgument_letterAssigned has (implied?_of_letter? has hhelp) value)
      (Token.ofArgument_assigned flag value) fun _ => rfl

end

/-- the value holds an equals sign, and the dashes in front are a value too -/
theorem parse_letter_assigned_namespace :
    Flag.namespaceName.letter? = some (byte 'n') ∧
      parse (["-o", "json", "--config", "--", "-n=a=b", "data"].map ascii) =
        parse (["-o", "json", "--config", "--", "--namespace=a=b", "data"].map ascii) := by
  refine ⟨rfl, ?_⟩
  have hconfig : Token.ofArgument (ascii "--config") =
    .awaiting .config (.missingValue (ascii "config")) := rfl
  have houtput : Token.ofArgument (ascii "-o") =
    .awaiting .output (.missingLetterValue (byte 'o')) := rfl
  have hletter : Flag.namespaceName.letter? = some (byte 'n') := rfl
  have hsame := (parse_letter_assigned hletter (ascii "a=b")).1.mpr nofun
  exact hsame _ [ascii "data"] (.awaiting houtput (.awaiting hconfig .nil))

/-- behind the letter of help no value is looked at, not even one that is none -/
theorem help_letter_drops_value :
    parse (["data", "-h=false"].map ascii) = .ok { standard with help := true } ∧
      parse (["data", "--help=false"].map ascii) = .ok (standard.setName (ascii "data")) ∧
      parse (["data", "-h=no"].map ascii) = .ok { standard with help := true } ∧
      parse (["data", "--help=no"].map ascii) =
        .error (.badTruthValue (ascii "help") (ascii "no")) ∧
      ¬ Interchangeable (ascii "-h=false") (ascii "--help=false") := by
  refine ⟨by decide, by decide, by decide, by decide, fun hsame => ?_⟩
  have heq := hsame [ascii "data"] [] (.name rfl .nil)
  revert heq
  decide

end VolumeClaim.Options
