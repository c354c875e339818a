/-!
# The log of a run

A run notes what it does and what goes wrong. Each note has a weight and names the part of the
program that made it.
-/

namespace SliceLint

/-- The weight of a note. -/
inductive LogLevel where
  | debug
  | info
  | warning
  | error
deriving DecidableEq, Repr

namespace LogLevel

def name : LogLevel → String
  | debug => "DEBUG"
  | info => "INFO"
  | warning => "WARNING"
  | error => "ERROR"

/-- Weights in ascending order. -/
def rank : LogLevel → Nat
  | debug => 0
  | info => 1
  | warning => 2
  | error => 3

end LogLevel

/-- A note in the log. -/
structure LogEntry where
  level : LogLevel
  channel : String
  text : String
deriving DecidableEq, Repr

namespace LogEntry

/-- The line that shows a note. -/
def shown (e : LogEntry) : String := e.level.name ++ " " ++ e.channel ++ ": " ++ e.text

/-- The note weighs at least so much. -/
def reaches (least : LogLevel) (e : LogEntry) : Bool := least.rank ≤ e.level.rank

def engineChannel : String := "fsdlint.analysis.engine"

def sourceChannel : String := "fsdlint.analysis.source"

def runChannel : String := "fsdlint.analysis.runner"

def configChannel : String := "fsdlint.config"

end LogEntry

/-- What a step leads to, and the notes made on the way. -/
structure Logged (α : Type) where
  log : List LogEntry
  value : α
deriving Repr

namespace Logged

/-- Put notes before those of a step. -/
def after {α : Type} (log : List LogEntry) (step : Logged α) : Logged α :=
  { step with log := log ++ step.log }

end Logged

end SliceLint
