import PlaneReport.Environment.Layer
import PlaneReport.Error
import PlaneReport.Log.Filter

/-!
# Loggers

A logger writes down the events that its filter admits.  It is set up from the environment: the
variable `RUST_LOG` counts more than a level that was asked for, and `NO_COLOR` keeps colours away.
A program has one logger for good.
-/

namespace PlaneReport
namespace Log

/-- The filter that a run asks for.  The variable `RUST_LOG` counts more than the level. -/
def readingOf (objection? : String → Option String) (environment : Environment) (level : Level) :
    Filter.Reading :=
  match environment.lookup "RUST_LOG" with
  | some text => Filter.ofText objection? text
  | none => ⟨[], .ok (Filter.upTo level)⟩

theorem readingOf_eq_upTo {environment : Environment} (h : environment.lookup "RUST_LOG" = none)
    (objection? : String → Option String) (level : Level) :
    readingOf objection? environment level = ⟨[], .ok (Filter.upTo level)⟩ := by
  rw [readingOf, h]

/-- Whether a log has colours.  It has them unless `NO_COLOR` holds anything. -/
def isColoured (environment : Environment) : Bool :=
  match environment.lookup "NO_COLOR" with
  | some text => text.isEmpty
  | none => true

structure Logger where
  filter : Filter
  coloured : Bool
deriving DecidableEq, Repr

namespace Logger

/-- The lines of those events that a logger admits. -/
def lines (logger : Logger) (events : List Event) : List String :=
  (events.filter logger.filter.admits).map (Event.line logger.coloured)

@[simp] theorem lines_nil (logger : Logger) : logger.lines [] = [] := rfl

@[simp] theorem lines_append (logger : Logger) (events more : List Event) :
    logger.lines (events ++ more) = logger.lines events ++ logger.lines more := by
  simp [lines]

/-- Sets a logger up.  There must be none yet. -/
def install (installed? : Option Logger) (logger : Logger) : Except Error Logger :=
  match installed? with
  | none => .ok logger
  | some _ => .error (.general
      "failed to install logger: a global default trace dispatcher has already been set")

@[simp] theorem install_none (logger : Logger) : install none logger = .ok logger := rfl

end Logger
end Log
end PlaneReport
