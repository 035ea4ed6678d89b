import VolumeClaim.Proofs.CommandLine.Naming
import VolumeClaim.Proofs.Options.Spelling

/-!
# Flags in front of the command and behind it

In front of the command `--config` is rewritten, behind it the arguments are read as they stand;
both set the same path, and only the last path that is set counts.

* `scan_flags`              the rewritten flags are read like the ones that were written;
* `scan_of_later`           no path counts that another one follows;
* `run_globals_moved`       what an invocation does, by the place of these flags.
-/

namespace VolumeClaim

namespace Options

/-- another configuration path, everything else as it is -/
def Progress.withConfig (p : Progress) (path : Text) : Progress :=
  { p with options := { p.options with configPath := path } }

theorem Progress.set_config (p : Progress) (path : Text) :
    p.set .config path = .ok (p.withConfig path) := rfl

theorem Progress.withConfig_withConfig (p : Progress) (old path : Text) :
    (p.withConfig old).withConfig path = p.withConfig path := rfl

theorem Progress.addNames_withConfig (p : Progress) (path : Text) (names : List Text) :
    (p.withConfig path).addNames names = (p.addNames names).withConfig path := rfl

/-- no flag looks at the path, and every other flag leaves it as it is -/
theorem Progress.set_withConfig (p : Progress) (path : Text) (flag : Flag) (value : Text) :
    (p.withConfig path).set flag value =
      (p.set flag value).map fun q => if flag = .config then q else q.withConfig path := by
  cases flag with
  | output =>
    unfold Progress.set Options.set
    cases formatOf value <;> rfl
  | dryRun =>
    unfold Progress.set Options.set
    cases dryRunOf value <;> rfl
  | saveConfig | help =>
    unfold Progress.set Options.set
    cases truth _ value <;> rfl
  | _ => rfl

/-- a path does not count if another one follows, whatever stands between the two -/
theorem scan_of_later (p : Progress) (old : Text) (items : List Item) {path : Text}
    (later : Spelling .config path) (rest : List Text) :
    scan (p.withConfig old) (items.flatMap Item.arguments ++ (later.arguments ++ rest)) =
      scan p (items.flatMap Item.arguments ++ (later.arguments ++ rest)) := by
  induction items generalizing p old with
  | nil =>
    rw [List.flatMap_nil, List.nil_append, later.scan_arguments, later.scan_arguments,
      Progress.set_config, Progress.set_config, Progress.withConfig_withConfig]
  | cons item items ih =>
    rw [List.flatMap_cons, List.append_assoc]
    cases item with
    | name t plain =>
      have hname : Token.ofArgument t = .name := Token.ofArgument_name plain
      show scan (p.withConfig old) (t :: _) = scan p (t :: _)
      rw [scan_of_name _ _ hname, scan_of_name _ _ hname, Progress.addNames_withConfig]
      exact ih (p.addNames [t]) old
    | setting flag value spelling =>
      show scan (p.withConfig old) (spelling.arguments ++ _) = scan p (spelling.arguments ++ _)
      rw [spelling.scan_arguments, spelling.scan_arguments, Progress.set_withConfig]
      cases p.set flag value with
      | error fault => rfl
      | ok q =>
        show scan (if flag = .config then q else q.withConfig old) _ = scan q _
        split
        · rfl
        · exact ih q old

end Options

namespace CommandLine
open Text Options

/-! ## The flags as the command reads them -/

namespace Global

def path : Global → Text
  | assigned path => path
  | spaced path => path

def spelling : (g : Global) → Spelling .config g.path
  | assigned _ => .assigned
  | spaced _ => .spaced rfl

theorem arguments_spelling (g : Global) : g.spelling.arguments = g.arguments := by
  cases g <;> rfl

theorem scan_arguments (g : Global) (p : Progress) (rest : List Text) :
    scan p (g.arguments ++ rest) = scan (p.withConfig g.path) rest := by
  rw [← g.arguments_spelling, g.spelling.scan_arguments]
  rfl

/-- however it was written, the flag is handed on in one argument -/
theorem scan_flag (g : Global) (p : Progress) (rest : List Text) :
    scan p (g.flag :: rest) = scan (p.withConfig g.path) rest := by
  have hflag : g.flag = Flag.config.long ++ byte '=' :: g.path := by
    cases g <;> rfl
  rw [hflag]
  exact scan_of_setting p rest (Token.ofArgument_assigned .config g.path)

end Global

theorem scan_flags (globals : List Global) (p : Progress) (rest : List Text) :
    scan p (globals.map Global.flag ++ rest) =
      scan p (globals.flatMap Global.arguments ++ rest) := by
  induction globals generalizing p with
  | nil => rfl
  | cons g globals ih =>
    rw [List.map_cons, List.cons_append, g.scan_flag, List.flatMap_cons, List.append_assoc,
      g.scan_arguments, ih]

/-- all that is left of the flags is a path -/
theorem scan_globals (globals : List Global) (p : Progress) (rest : List Text) :
    globals = [] ∨
      ∃ path, scan p (globals.flatMap Global.arguments ++ rest) = scan (p.withConfig path) rest := by
  induction globals generalizing p with
  | nil => exact .inl rfl
  | cons g globals ih =>
    right
    rw [List.flatMap_cons, List.append_assoc, g.scan_arguments]
    rcases ih (p.withConfig g.path) with rfl | ⟨path, hpath⟩
    · exact ⟨g.path, rfl⟩
    · exact ⟨path, hpath⟩

theorem scan_globals_of_later (globals : List Global) (p : Progress) (items : List Item)
    {path : Text} (later : Spelling .config path) (rest : List Text) :
    scan p (globals.flatMap Global.arguments ++
        (items.flatMap Item.arguments ++ (later.arguments ++ rest))) =
      scan p (items.flatMap Item.arguments ++ (later.arguments ++ rest)) := by
  rcases scan_globals globals p (items.flatMap Item.arguments ++ (later.arguments ++ rest)) with
    rfl | ⟨old, hold⟩
  · rfl
  · rw [hold, scan_of_later]

/-! ## The invocation -/

theorem ofArguments_globals (globals : List Global) (resource : Text) (rest : List Text) :
    Command.ofArguments (globals.flatMap Global.arguments ++ ascii "create" :: resource :: rest) =
      if isClaimResource resource then .create (globals.map Global.flag ++ rest)
      else .usage 1 := by
  have hhoist : hoist (ascii "create" :: resource :: rest) =
      ([], ascii "create" :: resource :: rest) := rfl
  unfold Command.ofArguments
  rw [hoist_globals, hhoist, List.append_nil]
  simp

/-- an invocation of the command depends on what its arguments are read as -/
theorem run_of_scan_eq (w : Surroundings) (globals globals' : List Global) (resource : Text)
    {rest rest' : List Text} (h : scan .start (globals.map Global.flag ++ rest) =
      scan .start (globals'.map Global.flag ++ rest')) :
    run w (globals.flatMap Global.arguments ++ ascii "create" :: resource :: rest) =
      run w (globals'.flatMap Global.arguments ++ ascii "create" :: resource :: rest') := by
  have hparse : Options.parse (globals.map Global.flag ++ rest) =
      Options.parse (globals'.map Global.flag ++ rest') := by
    unfold Options.parse
    rw [h]
  unfold run
  rw [ofArguments_globals, ofArguments_globals]
  cases isClaimResource resource with
  | false => rfl
  | true =>
    simp only [if_true]
    rw [hparse]

/-- **`--config` means the same in front of the command as behind its resource**, in either spelling,
with any paths and any arguments behind it, in all surroundings; and if another `--config` is read
behind the resource, it means nothing at all. -/
theorem run_globals_moved (w : Surroundings) (globals : List Global) (resource : Text) :
    (∀ rest, run w (globals.flatMap Global.arguments ++ ascii "create" :: resource :: rest) =
      run w (ascii "create" :: resource :: (globals.flatMap Global.arguments ++ rest))) ∧
    (∀ (items : List Item) (path : Text) (later : Spelling .config path) (rest : List Text),
      run w (globals.flatMap Global.arguments ++ ascii "create" :: resource ::
          (items.flatMap Item.arguments ++ (later.arguments ++ rest))) =
        run w (ascii "create" :: resource ::
          (items.flatMap Item.arguments ++ (later.arguments ++ rest)))) := by
  constructor
  · intro rest
    exact run_of_scan_eq w globals [] resource (scan_flags globals .start rest)
  · intro items path later rest
    refine run_of_scan_eq w globals [] resource ?_
    rw [scan_flags, scan_globals_of_later]
    rfl

end CommandLine
end VolumeClaim
