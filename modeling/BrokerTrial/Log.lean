/-!
Log entries. Every component returns what it logs as a list of entries in order, so that what is
written, and when, is part of its result.
-/

namespace BrokerTrial

namespace Log

inductive Level
  | debug | info | warning | error | critical
deriving DecidableEq, Repr

def Level.label : Level → String
  | .debug => "DEBUG"
  | .info => "INFO"
  | .warning => "WARNING"
  | .error => "ERROR"
  | .critical => "CRITICAL"

def Level.rank : Level → Nat
  | .debug => 10
  | .info => 20
  | .warning => 30
  | .error => 40
  | .critical => 50

structure Entry where
  level : Level
  text : String
deriving DecidableEq, Repr

def debug (text : String) : Entry := ⟨.debug, text⟩
def info (text : String) : Entry := ⟨.info, text⟩
def warning (text : String) : Entry := ⟨.warning, text⟩
def error (text : String) : Entry := ⟨.error, text⟩

/-- What a log that starts at level `least` keeps. -/
def atLeast (least : Level) (entries : List Entry) : List Entry :=
  entries.filter fun e => least.rank ≤ e.level.rank

end Log

end BrokerTrial
