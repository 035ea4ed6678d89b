import VolumeClaim.CommandLine
import VolumeClaim.Output.Rendering

/-!
# The program

One invocation of the command line.  The surroundings have the variables of the process and no
files, so the store starts empty and lasts as long as the process.
-/

namespace VolumeClaim.Main

def readVariable (name : Text) : IO Environment := do
  let value ← IO.getEnv (String.ofList (name.map fun b => Char.ofNat b.toNat))
  return (value.map fun v => (name, v.toUTF8.toList)).toList

def readEnvironment : IO Environment := do
  let config ← readVariable Settings.configVariable
  let home ← readVariable Settings.homeVariable
  let level ← readVariable Log.levelVariable
  let pattern ← readVariable Log.patternVariable
  return config ++ home ++ level ++ pattern

def entryLine (e : LogEntry) : Text :=
  byte '[' :: e.level.name ++ ascii "] " ++ e.message ++ [10]

def write (stream : IO.FS.Stream) (t : Text) : IO Unit := do
  stream.write (ByteArray.mk t.toArray)
  stream.flush

end VolumeClaim.Main

open VolumeClaim in
def main (arguments : List String) : IO UInt32 := do
  let environment ← Main.readEnvironment
  let surroundings : Surroundings := ⟨environment, [], .empty, none⟩
  let (outcome, _) := CommandLine.run surroundings (arguments.map fun a => a.toUTF8.toList)
  Main.write (← IO.getStderr) (outcome.entries.flatMap Main.entryLine ++ outcome.errors)
  Main.write (← IO.getStdout) outcome.output.render
  return outcome.exitCode.toUInt32
