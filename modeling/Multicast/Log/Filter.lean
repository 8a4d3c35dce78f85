import Multicast.Environment
import Multicast.Log
import Multicast.Settings.Number
import Multicast.Text.LowerCase
import Multicast.Text.WordTable
/-!
Which lines of the log are shown. A filter is a list of directives separated by commas:
`target=level` sets the level up to which a part of the service is shown, a target alone shows all
its lines, and a level alone concerns every part. The directive with the longest target that the
part begins with decides, of two with one target the later one; a part that no directive concerns is
not shown.
-/

namespace Multicast

/-- The level up to which lines are shown; without one no line is. -/
abbrev LogLimit := Option LogLevel

namespace LogLimit

/-- The limits by their ranks, from none at all to the most detailed level. -/
def all : List LogLimit := none :: LogLevel.all.map some

/-- The names of the limits, in the same order. -/
def names : List String := ["off", "error", "warn", "info", "debug", "trace"]

/-- The limit that a text names, by its name in any case or by its rank. -/
def ofText? (s : String) : Option LogLimit :=
  match Settings.numberOfChars? 64 s.toList with
  | some n => all[n]?
  | none => (names.zip all).lookup (Text.lowerCaseAscii s)

/-- Whether a line of the given level is shown. -/
def admits (limit : LogLimit) (level : LogLevel) : Bool :=
  match limit with
  | none => false
  | some l => decide (level.rank ≤ l.rank)

end LogLimit

/-- A directive of a filter: the limit for the parts of the service whose names begin with the
target, or for every part. -/
structure Directive where
  target : Option String
  limit : LogLimit
  deriving DecidableEq, Repr

namespace Directive

/-- Whether a directive may begin with the character. -/
def startsWell (c : Char) : Bool := Text.isWordChar c || c == '-' || c == ':' || c == '_'

/-- The directive without an equals sign: a limit for every part, or a target. -/
def ofWord (word : String) : Directive :=
  match LogLimit.ofText? word with
  | some limit => ⟨none, limit⟩
  | none => ⟨some word, some .trace⟩

/-- The directive that the text spells. Brackets would select by more than a target and are not
known. -/
def ofText? (s : String) : Option Directive :=
  match s.toList with
  | [] => none
  | c :: _ =>
    let target := String.ofList (s.toList.takeWhile (· != '='))
    if !startsWell c || target.contains '[' then none
    else
      match s.toList.dropWhile (· != '=') with
      | [] => some (ofWord s)
      | [_] => some ⟨some target, some .trace⟩
      | _ :: level => (LogLimit.ofText? (String.ofList level)).map fun limit => ⟨some target, limit⟩

/-- Whether the directive concerns a part of the service. -/
def concerns (d : Directive) (part : String) : Bool :=
  match d.target with
  | none => true
  | some t => t.toList.isPrefixOf part.toList

/-- How narrow the directive is: one that concerns every part is the widest. -/
def weight (d : Directive) : Nat :=
  match d.target with
  | none => 0
  | some t => t.utf8ByteSize + 1

end Directive

/-- A filter of the log. -/
structure LogFilter where
  directives : List Directive
  deriving DecidableEq, Repr

namespace LogFilter

/-- The filter that the text spells; one directive that cannot be read spoils the whole. -/
def ofText? (s : String) : Option LogFilter :=
  (((s.splitOn ",").filter fun part => !part.isEmpty).mapM Directive.ofText?).map LogFilter.mk

/-- The filter of a service for which none is asked. -/
def standard : LogFilter :=
  ⟨[⟨some "stream_fanout", some .info⟩, ⟨some "h2", some .warn⟩, ⟨some "tonic", some .warn⟩]⟩

def key : String := "RUST_LOG"

def ofEnvironment (env : Environment) : LogFilter := ((env.text? key).bind ofText?).getD standard

/-- The directive that decides about a part of the service. -/
def decisive? (f : LogFilter) (part : String) : Option Directive :=
  (f.directives.filter (·.concerns part)).foldl
    (fun best d => if best.any fun b => decide (d.weight < b.weight) then best else some d) none

/-- Whether a line of the given level from a part of the service is shown. -/
def shows (f : LogFilter) (part : String) (level : LogLevel) : Bool :=
  match f.decisive? part with
  | some d => d.limit.admits level
  | none => false

end LogFilter

end Multicast
