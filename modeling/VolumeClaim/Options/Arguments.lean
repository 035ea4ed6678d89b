import VolumeClaim.Options
import VolumeClaim.Text.Digits

/-!
# Reading arguments

Arguments are read from left to right.  `--flag=value` and `--flag value` set a flag, `-fvalue`,
`-f=value` and `-f value` a flag with a letter; a flag that can stand alone never takes the next
argument.  `--` ends the flags.  What is no flag is a name, and there must be exactly one, unless
help is asked for.  The first fault from the left is reported.
-/

namespace VolumeClaim
open Text

def UsageFault.message : UsageFault → Text
  | .unknownFlag name => untilZero (ascii "unknown flag: --" ++ name)
  | .unknownLetter letter argument =>
    untilZero (ascii "unknown shorthand flag: '" ++ [letter] ++ ascii "' in " ++ argument)
  | .missingValue name => untilZero (ascii "flag needs an argument: --" ++ name)
  | .missingLetterValue letter =>
    untilZero (ascii "flag needs an argument: '" ++ [letter] ++ ascii "' in -" ++ [letter])
  | .badTruthValue flag value =>
    untilZero (ascii "invalid argument \"" ++ value ++ ascii "\" for \"--" ++ flag ++
      ascii "\" flag")
  | .badDryRun value =>
    untilZero (ascii "Invalid dry-run value (" ++ value ++
      ascii "). Must be \"none\", \"server\", or \"client\".")
  | .badOutputFormat value =>
    untilZero (ascii "unable to match a printer suitable for the output format \"" ++ value ++
      ascii "\", allowed formats are: json,name,yaml")
  | .nameCount n => ascii "exactly one NAME is required, got " ++ decimal n

namespace Options

/-- what an argument is on its own -/
inductive Token where
  | terminator
  | name
  | setting (flag : Flag) (value : Text)
  | awaiting (flag : Flag) (otherwise : UsageFault)
  | refused (fault : UsageFault)
  deriving DecidableEq

namespace Token

def assigned? (t : Text) : Option Text :=
  match t.dropWhile (· ≠ byte '=') with
  | [] => none
  | _ :: value => some value

/-- a flag by its name, after the two dashes -/
def ofLong (t : Text) : Token :=
  let name := t.takeWhile (· ≠ byte '=')
  match Flag.ofName? name with
  | none => .refused (.unknownFlag name)
  | some flag => match assigned? t, flag.implied? with
    | some value, _ => .setting flag value
    | none, some value => .setting flag value
    | none, none => .awaiting flag (.missingValue name)

/-- a flag by its letter, after the dash; a flag that can stand alone does so here, and what
follows its letter is not looked at -/
def ofShort (letter : UInt8) (rest : Text) : Token :=
  match Flag.ofLetter? letter with
  | none => .refused (.unknownLetter letter (byte '-' :: letter :: rest))
  | some flag => match flag.implied? with
    | some value => .setting flag value
    | none => match rest with
      | [] => .awaiting flag (.missingLetterValue letter)
      | b :: value => .setting flag (if b = byte '=' then value else b :: value)

/-- what an argument is; a dash alone is a name -/
def ofArgument (argument : Text) : Token :=
  match argument with
  | [] => .name
  | [_] => .name
  | a :: b :: rest =>
    if a ≠ byte '-' then .name
    else if b ≠ byte '-' then ofShort b rest
    else if rest = [] then .terminator
    else ofLong rest

end Token

/-- the options and the names found so far -/
structure Progress where
  options : Options
  names : List Text
  deriving DecidableEq

def Progress.start : Progress := ⟨.standard, []⟩

def Progress.set (p : Progress) (flag : Flag) (value : Text) : Except UsageFault Progress :=
  (p.options.set flag value).map fun o => { p with options := o }

def Progress.addNames (p : Progress) (names : List Text) : Progress :=
  { p with names := p.names ++ names }

/-- reads the arguments from left to right -/
def scan (p : Progress) : List Text → Except UsageFault Progress
  | [] => .ok p
  | argument :: rest => match Token.ofArgument argument with
    | .terminator => .ok (p.addNames rest)
    | .name => scan (p.addNames [argument]) rest
    | .setting flag value => do
      let p ← p.set flag value
      scan p rest
    | .awaiting flag otherwise => match rest with
      | [] => .error otherwise
      | value :: rest => do
        let p ← p.set flag value
        scan p rest
    | .refused fault => .error fault

/-- the options with the one name; the names do not matter if help is asked for -/
def Progress.finish (p : Progress) : Except UsageFault Options :=
  if p.options.help then .ok p.options
  else match p.names with
    | [name] => .ok (p.options.setName name)
    | names => .error (.nameCount names.length)

def parse (arguments : List Text) : Except UsageFault Options := do
  let p ← scan .start arguments
  p.finish

end Options
end VolumeClaim
