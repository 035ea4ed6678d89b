import Mathlib.Data.List.TakeWhile
import VolumeClaim.Proofs.Options.Values

/-!
# Spellings

A flag with its value can be written in several ways, and what an argument is depends on the one
before it.  Arguments that are written from items are read back as these items, from left to right:
a value is never taken for a flag, nor a name for a value.

* `Options.Spelling.scan_arguments` one flag with its value, in front of any arguments;
* `Options.scan_items`      any number of items without a fault;
* `Options.parse_spell`     what a command line says.
-/

namespace VolumeClaim
open Text

namespace Flag

theorem ofName?_name (flag : Flag) : ofName? flag.name = some flag := by
  cases flag <;> decide

theorem name_ne_nil (flag : Flag) : flag.name ≠ [] := by
  cases flag <;> decide

theorem all_ne_equals_name (flag : Flag) : flag.name.all (· ≠ byte '=') = true := by
  cases flag <;> decide

theorem ofLetter?_of_letter? {flag : Flag} {letter : UInt8} (h : flag.letter? = some letter) :
    ofLetter? letter = some flag := by
  cases flag <;> cases h <;> decide

theorem ne_dash_of_letter? {flag : Flag} {letter : UInt8} (h : flag.letter? = some letter) :
    letter ≠ byte '-' := by
  cases flag <;> cases h <;> decide

def long (flag : Flag) : Text := byte '-' :: byte '-' :: flag.name

end Flag

namespace Options

/-! ## Single arguments -/

namespace Token

theorem ofArgument_long {t : Text} (h : t ≠ []) :
    ofArgument (byte '-' :: byte '-' :: t) = ofLong t := by
  simp only [ofArgument, ne_eq, not_true_eq_false, if_false, if_neg h]

theorem ofArgument_short {letter : UInt8} (h : letter ≠ byte '-') (rest : Text) :
    ofArgument (byte '-' :: letter :: rest) = ofShort letter rest := by
  simp only [ofArgument, ne_eq, not_true_eq_false, if_false, h, not_false_eq_true, if_true]

theorem ofArgument_terminator : ofArgument (ascii "--") = .terminator := rfl

theorem ofArgument_name {t : Text} (h : t = [byte '-'] ∨ t.head? ≠ some (byte '-')) :
    ofArgument t = .name := by
  rcases t with _ | ⟨a, _ | ⟨b, rest⟩⟩
  · rfl
  · rfl
  · have hne : a ≠ byte '-' := by
      rintro rfl
      rcases h with h | h
      · cases h
      · exact h rfl
    simp only [ofArgument, hne, ne_eq, not_false_eq_true, if_true]

variable (flag : Flag) (value : Text)

theorem ofArgument_assigned :
    ofArgument (flag.long ++ byte '=' :: value) = .setting flag value := by
  have hname : ∀ b ∈ flag.name, decide (b ≠ byte '=') = true :=
    List.all_eq_true.mp flag.all_ne_equals_name
  have hend : flag.name ++ byte '=' :: value ≠ [] := by
    intro h
    cases (List.append_eq_nil_iff.mp h).2
  show ofArgument (byte '-' :: byte '-' :: (flag.name ++ byte '=' :: value)) = _
  rw [ofArgument_long hend]
  simp only [ofLong, assigned?, List.takeWhile_append_of_pos hname,
    List.dropWhile_append_of_pos hname]
  simp [flag.ofName?_name]

theorem ofArgument_flag : ofArgument flag.long =
    flag.implied?.elim (.awaiting flag (.missingValue flag.name)) (.setting flag) := by
  have hname : ∀ b ∈ flag.name, decide (b ≠ byte '=') = true :=
    List.all_eq_true.mp flag.all_ne_equals_name
  show ofArgument (byte '-' :: byte '-' :: flag.name) = _
  rw [ofArgument_long flag.name_ne_nil]
  have htake : flag.name.takeWhile (· ≠ byte '=') = flag.name :=
    List.takeWhile_eq_self_iff.mpr hname
  have hdrop : flag.name.dropWhile (· ≠ byte '=') = [] := List.dropWhile_eq_nil_iff.mpr hname
  simp only [ofLong, assigned?, htake, hdrop, flag.ofName?_name]
  cases flag.implied? <;> rfl

variable {flag} {letter : UInt8} (has : flag.letter? = some letter)
include has

/-- a flag that can stand alone does so at its letter, whatever follows -/
theorem ofArgument_letter {implied : Text} (stands : flag.implied? = some implied) (rest : Text) :
    ofArgument (byte '-' :: letter :: rest) = .setting flag implied := by
  rw [ofArgument_short (Flag.ne_dash_of_letter? has)]
  simp only [ofShort, Flag.ofLetter?_of_letter? has, stands]

theorem ofArgument_letterAssigned (needs : flag.implied? = none) (value : Text) :
    ofArgument (byte '-' :: letter :: byte '=' :: value) = .setting flag value := by
  rw [ofArgument_short (Flag.ne_dash_of_letter? has)]
  simp only [ofShort, Flag.ofLetter?_of_letter? has, needs, if_true]

end Token

section
variable {argument : Text} {flag : Flag} {value : Text} (p : Progress) (rest : List Text)

theorem scan_of_setting (h : Token.ofArgument argument = .setting flag value) :
    scan p (argument :: rest) = (p.set flag value >>= fun p => scan p rest) := by
  rw [scan, h]

theorem scan_of_awaiting {fault : UsageFault}
    (h : Token.ofArgument argument = .awaiting flag fault) (value : Text) :
    scan p (argument :: value :: rest) = (p.set flag value >>= fun p => scan p rest) := by
  rw [scan, h]

theorem scan_of_name (h : Token.ofArgument argument = .name) :
    scan p (argument :: rest) = scan (p.addNames [argument]) rest := by
  rw [scan, h]

theorem scan_of_terminator (h : Token.ofArgument argument = .terminator) :
    scan p (argument :: rest) = .ok (p.addNames rest) := by
  rw [scan, h]

theorem scan_of_refused {fault : UsageFault} (h : Token.ofArgument argument = .refused fault) :
    scan p (argument :: rest) = .error fault := by
  rw [scan, h]

end

/-! ## A flag with its value -/

/-- the ways to write a flag with a value; a flag that can stand alone never takes the argument
that follows it -/
inductive Spelling (flag : Flag) (value : Text) where
  | assigned
  | spaced (needs : flag.whenAlone? = none)
  | letterSpaced (letter : UInt8) (has : flag.letter? = some letter)
    (needs : flag.whenAlone? = none)
  | letterJoined (letter : UInt8) (has : flag.letter? = some letter)
    (needs : flag.whenAlone? = none) (plain : value ≠ [] ∧ value.head? ≠ some (byte '='))
  | letterAssigned (letter : UInt8) (has : flag.letter? = some letter)
    (needs : flag.whenAlone? = none)
  | alone (stands : flag.whenAlone? = some value)
  | letterAlone (letter : UInt8) (has : flag.letter? = some letter)
    (stands : flag.whenAlone? = some value)

namespace Spelling
variable {flag : Flag} {value : Text}

/-- `--flag=value`, `--flag value`, `-f value`, `-fvalue`, `-f=value`, `--flag`, `-f` -/
def arguments : Spelling flag value → List Text
  | assigned => [flag.long ++ byte '=' :: value]
  | spaced _ => [flag.long, value]
  | letterSpaced letter _ _ => [[byte '-', letter], value]
  | letterJoined letter _ _ _ => [byte '-' :: letter :: value]
  | letterAssigned letter _ _ => [byte '-' :: letter :: byte '=' :: value]
  | alone _ => [flag.long]
  | letterAlone letter _ _ => [[byte '-', letter]]

/-- what the first argument of a spelling is: it sets the flag, or it waits for the value -/
inductive Told (flag : Flag) (value : Text) : List Text → Prop where
  | setting {argument written : Text} (token : Token.ofArgument argument = .setting flag written)
    (same : ∀ o, Options.set o flag written = Options.set o flag value) : Told flag value [argument]
  | awaiting {argument : Text} {fault : UsageFault}
    (token : Token.ofArgument argument = .awaiting flag fault) : Told flag value [argument, value]

theorem told_arguments (spelling : Spelling flag value) : Told flag value spelling.arguments := by
  cases spelling with
  | assigned => exact .setting (Token.ofArgument_assigned flag value) fun _ => rfl
  | spaced needs =>
    have htoken : Token.ofArgument flag.long = .awaiting flag (.missingValue flag.name) := by
      rw [Token.ofArgument_flag, implied?_eq_none_iff.mpr needs, Option.elim_none]
    exact .awaiting htoken
  | letterSpaced letter has needs =>
    have htoken : Token.ofArgument [byte '-', letter] =
        .awaiting flag (.missingLetterValue letter) := by
      rw [Token.ofArgument_short (Flag.ne_dash_of_letter? has)]
      simp only [Token.ofShort, Flag.ofLetter?_of_letter? has, implied?_eq_none_iff.mpr needs]
    exact .awaiting htoken
  | letterJoined letter has needs plain =>
    have htoken : Token.ofArgument (byte '-' :: letter :: value) = .setting flag value := by
      rw [Token.ofArgument_short (Flag.ne_dash_of_letter? has)]
      cases value with
      | nil => exact absurd rfl plain.1
      | cons b value =>
        have hb : b ≠ byte '=' := fun h => plain.2 (congrArg some h)
        simp only [Token.ofShort, Flag.ofLetter?_of_letter? has, implied?_eq_none_iff.mpr needs,
          if_neg hb]
    exact .setting htoken fun _ => rfl
  | letterAssigned letter has needs =>
    have htoken := Token.ofArgument_letterAssigned has (implied?_eq_none_iff.mpr needs) value
    exact .setting htoken fun _ => rfl
  | alone stands =>
    -- what the flag implies need not be the word for it, but it sets the same
    obtain ⟨implied, himplied, hset⟩ := set_implied stands
    have htoken : Token.ofArgument flag.long = .setting flag implied := by
      rw [Token.ofArgument_flag, himplied, Option.elim_some]
    exact .setting htoken hset
  | letterAlone letter has stands =>
    obtain ⟨implied, himplied, hset⟩ := set_implied stands
    exact .setting (Token.ofArgument_letter has himplied []) hset

/-- however it is written, the flag is set and the rest is read -/
theorem scan_arguments (spelling : Spelling flag value) (p : Progress) (rest : List Text) :
    scan p (spelling.arguments ++ rest) = (p.set flag value >>= fun p => scan p rest) := by
  have htold := spelling.told_arguments
  generalize spelling.arguments = arguments at htold ⊢
  cases htold with
  | setting token same =>
    rw [Progress.set, ← same, ← Progress.set]
    exact scan_of_setting p rest token
  | awaiting token => exact scan_of_awaiting p rest token value

end Spelling

/-! ## Any number of items -/

/-- a name, or a flag with a value -/
inductive Item where
  | name (t : Text) (plain : t = [byte '-'] ∨ t.head? ≠ some (byte '-'))
  | setting (flag : Flag) (value : Text) (spelling : Spelling flag value)

namespace Item

def arguments : Item → List Text
  | name t _ => [t]
  | setting _ _ spelling => spelling.arguments

def names : Item → List Text
  | name t _ => [t]
  | setting _ _ _ => []

def given : Item → List (Flag × Text)
  | name _ _ => []
  | setting flag value _ => [(flag, value)]

def fault? : Item → Option UsageFault
  | name _ _ => none
  | setting flag value _ => Options.fault? flag value

end Item

/-- what follows the items: two dashes and more names, or nothing -/
def closing : Option (List Text) → List Text
  | none => []
  | some names => ascii "--" :: names

/-- a command line that is written from items -/
def spell (items : List Item) (others : Option (List Text)) : List Text :=
  items.flatMap Item.arguments ++ closing others

def optionsOf (items : List Item) : Options := ofGiven (items.flatMap Item.given)

def namesOf (items : List Item) (others : Option (List Text)) : List Text :=
  items.flatMap Item.names ++ others.getD []

/-- what is known once the items are read -/
def Progress.after (items : List Item) : Progress := ⟨optionsOf items, items.flatMap Item.names⟩

theorem Progress.after_nil : after [] = .start := rfl

theorem Progress.after_concat (past : List Item) (item : Item) : after (past ++ [item]) =
    ⟨ofGiven (past.flatMap Item.given ++ item.given), past.flatMap Item.names ++ item.names⟩ := by
  simp [after, optionsOf]

section
variable {item : Item} (rest : List Text)

theorem scan_item (h : item.fault? = none) (past : List Item) :
    scan (.after past) (item.arguments ++ rest) = scan (.after (past ++ [item])) rest := by
  rw [Progress.after_concat]
  cases item with
  | name t plain =>
    show scan _ (t :: rest) = scan ⟨ofGiven (past.flatMap Item.given ++ []), _⟩ rest
    rw [List.append_nil]
    exact scan_of_name _ rest (Token.ofArgument_name plain)
  | setting flag value spelling =>
    show scan _ (spelling.arguments ++ rest) = scan ⟨_, past.flatMap Item.names ++ []⟩ rest
    rw [spelling.scan_arguments, List.append_nil, Progress.set, Progress.after, optionsOf,
      set_ofGiven h]
    rfl

theorem scan_item_of_fault {fault : UsageFault} (h : item.fault? = some fault) (p : Progress) :
    scan p (item.arguments ++ rest) = .error fault := by
  cases item with
  | name t plain => cases h
  | setting flag value spelling =>
    show scan p (spelling.arguments ++ rest) = .error fault
    rw [spelling.scan_arguments, Progress.set, set_of_fault h]
    rfl

theorem scan_items {items : List Item} (h : ∀ item ∈ items, item.fault? = none)
    (past : List Item) :
    scan (.after past) (items.flatMap Item.arguments ++ rest) =
      scan (.after (past ++ items)) rest := by
  induction items generalizing past with
  | nil => rw [List.flatMap_nil, List.nil_append, List.append_nil]
  | cons item items ih =>
    rw [List.forall_mem_cons] at h
    rw [List.flatMap_cons, List.append_assoc, scan_item _ h.1, ih h.2, List.append_assoc,
      List.singleton_append]

end

theorem scan_closing (p : Progress) (others : Option (List Text)) :
    scan p (closing others) = .ok (p.addNames (others.getD [])) := by
  cases others with
  | none =>
    show Except.ok p = .ok (p.addNames [])
    rw [Progress.addNames, List.append_nil]
  | some names => exact scan_of_terminator p names Token.ofArgument_terminator

/-- a flag alone takes nothing, a dash is a value, and the last namespace counts -/
example : parse (["-n=a", "--dry-run", "x", "--namespace", "--", "-ojson"].map ascii) =
    .ok { standard with
      request := { Request.empty with name := ascii "x" }
      namespaceName := ascii "--"
      dryRun := .client
      format := .json } := by decide

end Options
end VolumeClaim
