/-!
# `LogRecord` — what is logged

## Contents
- `Level`, how grave a record is, with its rank, its name and its colour.
- `LogRecord`, a level and a message.
-/

namespace LineCensus

/-- How grave a log record is; the gravest first. -/
inductive Level where
  | error
  | warn
  | info
  | debug
  | trace
  deriving DecidableEq, Repr

namespace Level

/-- The rank of a level, the gravest lowest. -/
def rank : Level → Nat
  | error => 1
  | warn => 2
  | info => 3
  | debug => 4
  | trace => 5

/-- The name of a level. -/
def name : Level → String
  | error => "ERROR"
  | warn => "WARN"
  | info => "INFO"
  | debug => "DEBUG"
  | trace => "TRACE"

/-- The levels, the gravest first. -/
def all : List Level := [error, warn, info, debug, trace]

/-- The parameters of the colour of a level. -/
def codes : Level → List String
  | error => ["1", "31"]
  | warn => ["33"]
  | info => ["32"]
  | debug => ["34"]
  | trace => ["36"]

end Level

/-- A log record. -/
structure LogRecord where
  level : Level
  message : String
  deriving DecidableEq, Repr

end LineCensus
