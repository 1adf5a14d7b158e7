/-
Which events become log lines.

A filter is a list of directives.  A directive names a target and how much of it to
show; it covers every event whose target begins with that name, and an empty name covers
all.  The most specific directive that covers an event decides, which is the one with
the longest name, and among equals the last.  Events that no directive covers are not
shown.

Filters are one way to read a choice of events.  A logger has any such way, and any line
for an event.
-/
import MonkeyTokens.Event.Basic

namespace MonkeyTokens

/-- How much a directive shows.  Each step shows all that the steps before it show. -/
inductive Verbosity where
  | off
  | error
  | warn
  | info
  | debug
  | trace
  deriving DecidableEq

namespace Verbosity

/-- The verbosity with a given name, in which case does not count, or with a given number. -/
def ofName? (name : String) : Option Verbosity :=
  match name.toLower with
  | "off" | "0" => some .off
  | "error" | "1" => some .error
  | "warn" | "2" => some .warn
  | "info" | "3" => some .info
  | "debug" | "4" => some .debug
  | "trace" | "5" => some .trace
  | _ => none

/-- Does the verbosity show events of this level? -/
def shows : Verbosity → Level → Bool
  | .trace, _ => true
  | .debug, .debug => true
  | _, _ => false

end Verbosity

/-- One entry of a filter. -/
structure Directive where
  /-- The beginning of the targets that the directive covers. -/
  target : String
  verbosity : Verbosity
  deriving DecidableEq

namespace Directive

/-- Reads `target=verbosity`, or a verbosity alone, which covers every target, or a target
alone, with or without the sign, of which everything is shown.  A target before the sign
has at least one character. -/
def ofText? (text : String) : Option Directive :=
  match text.splitOn "=" with
  | "" :: _ => none
  | [word] =>
    match Verbosity.ofName? word with
    | some v => some ⟨"", v⟩
    | none => some ⟨word, .trace⟩
  | [target, ""] => some ⟨target, .trace⟩
  | [target, name] => (Verbosity.ofName? name).map (⟨target, ·⟩)
  | _ => none

/-- Does the directive speak about an event? -/
def covers (d : Directive) (e : Event) : Bool :=
  d.target.toList.isPrefixOf e.target.toList

end Directive

/-- A choice of events. -/
structure LogFilter where
  directives : List Directive
  deriving DecidableEq

namespace LogFilter

/-- Reads directives between commas and skips those that say nothing. -/
def ofText (text : String) : LogFilter :=
  ⟨(text.splitOn ",").filterMap Directive.ofText?⟩

/-- The directive that decides about an event: of those that cover it the last with the
longest target. -/
def decisive? (f : LogFilter) (e : Event) : Option Directive :=
  (f.directives.filter (·.covers e)).foldl (fun best d =>
    match best with
    | some b => if d.target.length < b.target.length then some b else some d
    | none => some d) none

/-- Is the event shown? -/
def selects (f : LogFilter) (e : Event) : Bool :=
  match f.decisive? e with
  | some d => d.verbosity.shows e.level
  | none => false

end LogFilter

/-- A way to log events. -/
structure Logger where
  /-- Does a choice of events, as it is written down, show this one? -/
  shows : String → Event → Bool
  /-- The log line of an event, without the line break. -/
  line : Event → String

namespace Logger

/-- Logs what a filter selects. -/
def standard : Logger where
  shows text := (LogFilter.ofText text).selects
  line := Event.render

/-- The log lines of the events that a choice shows, in order, each with its line break.
Without a choice there are none. -/
def lines (logger : Logger) (choice : Option String) (events : List Event) : List String :=
  match choice with
  | none => []
  | some text => (events.filter (logger.shows text)).map fun e => logger.line e ++ "\n"

end Logger

end MonkeyTokens
