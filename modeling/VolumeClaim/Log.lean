import VolumeClaim.Settings

/-!
# Logging

A logger has a level and a pattern; it accepts a message whose level is at or above its own.
There is at most one logger.  `Log.start` puts one in place from the environment and the
settings, `Log.stop` removes it, and `Log.record` makes the standard logger if there is none.
Fields follow the message as `key=value`; a value is quoted if it is empty or holds a blank, a
quote or an equals sign.
-/

namespace VolumeClaim

/-- how grave a message is; nothing graver than `off` -/
inductive Level where
  | trace
  | debug
  | info
  | warning
  | error
  | critical
  | off
  deriving DecidableEq

namespace Level

def all : List Level := [.trace, .debug, .info, .warning, .error, .critical, .off]

def rank : Level → Nat
  | .trace => 0
  | .debug => 1
  | .info => 2
  | .warning => 3
  | .error => 4
  | .critical => 5
  | .off => 6

def name : Level → Text
  | .trace => ascii "trace"
  | .debug => ascii "debug"
  | .info => ascii "info"
  | .warning => ascii "warning"
  | .error => ascii "error"
  | .critical => ascii "critical"
  | .off => ascii "off"

/-- the level of a name; two levels have a short name too -/
def ofName? (t : Text) : Option Level :=
  if t = ascii "warn" then some .warning
  else if t = ascii "err" then some .error
  else all.find? fun level => level.name = t

end Level

structure Logger where
  level : Level
  pattern : Text
  deriving DecidableEq

/-- a message that a logger accepted -/
structure LogEntry where
  level : Level
  message : Text
  deriving DecidableEq

/-- a named value after a message -/
structure LogField where
  key : Text
  value : Text
  deriving DecidableEq

namespace LogField

def isSpecial (b : UInt8) : Bool := b = byte ' ' || b = 9 || b = byte '"' || b = byte '='

def needsQuotes (t : Text) : Bool := t.isEmpty || t.any isSpecial

/-- quotes and backslashes get a backslash -/
def escapeByte (b : UInt8) : Text :=
  if b = byte '"' ∨ b = byte '\\' then [byte '\\', b] else [b]

def valueText (t : Text) : Text :=
  if needsQuotes t then byte '"' :: (t.flatMap escapeByte ++ [byte '"']) else t

def toText (f : LogField) : Text := f.key ++ byte '=' :: valueText f.value

def ofBool (key : Text) (b : Bool) : LogField :=
  ⟨key, if b then ascii "true" else ascii "false"⟩

/-- fields with a space between every two of them -/
def listText : List LogField → Text
  | [] => []
  | [f] => f.toText
  | f :: g :: fields => f.toText ++ byte ' ' :: listText (g :: fields)

end LogField

namespace Log

def standardLevel : Text := ascii "warn"

def standardPattern : Text := ascii "%Y-%m-%dT%H:%M:%S.%e%z [%^%l%$] %v"

def levelVariable : Text := ascii "CLAIMCTL_LOG_LEVEL"

def patternVariable : Text := ascii "CLAIMCTL_LOG_PATTERN"

/-- the logger that is there without any settings -/
def standard : Logger := ⟨.warning, standardPattern⟩

inductive Fault where
  | unknownLevel (name : Text)
  deriving DecidableEq

def Fault.message : Fault → Text
  | .unknownLevel name =>
    (ascii "unknown log level \"" ++ name ++ ascii "\"").untilZero

/-- a variable that is set to something, else what is configured, else the standard -/
def choose (env : Environment) (name configured standard : Text) : Text :=
  match env.value? name with
  | some value => value
  | none => if configured = [] then standard else configured

/-- the logger that environment and settings ask for -/
def configured (env : Environment) (s : Settings) : Except Fault Logger :=
  let level := choose env levelVariable s.level standardLevel
  match Level.ofName? level with
  | none => .error (.unknownLevel level)
  | some level => .ok ⟨level, choose env patternVariable s.pattern standardPattern⟩

/-- puts a logger in place; a fault leaves the one that was there -/
def start (env : Environment) (s : Settings) (current : Option Logger) :
    Except Fault Unit × Option Logger :=
  match configured env s with
  | .error fault => (.error fault, current)
  | .ok logger => (.ok (), some logger)

def stop (_current : Option Logger) : Option Logger := none

def accepts (logger : Logger) (level : Level) : Bool := logger.level.rank ≤ level.rank

/-- a message and its fields on one line; no space is left if the fields leave no text -/
def line (message : Text) (fields : List LogField) : Text :=
  let rendered := LogField.listText fields
  if rendered = [] then message else message ++ byte ' ' :: rendered

/-- a message for the logger, the standard one if there is none yet: the logger afterwards and
what it accepted -/
def record (current : Option Logger) (level : Level) (message : Text)
    (fields : List LogField) : Option Logger × List LogEntry :=
  let logger := current.getD standard
  (some logger, if accepts logger level then [⟨level, line message fields⟩] else [])

end Log
end VolumeClaim
