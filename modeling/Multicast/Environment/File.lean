import Multicast.Environment
import Multicast.Text.Blank
/-!
Files of variables: each line names a variable and its value, `KEY=VALUE`, perhaps after the word
`export`; a value may stand in quotes, and `#` begins a comment. A line that is none of this ends
the reading, but the lines before it count.
-/

namespace Multicast

/-- What a line of a file of variables says. -/
inductive FileLine
  | nothing
  | assigns (key value : String)
  | malformed
  deriving DecidableEq, Repr

namespace FileLine

/-- Where the reading of a value stands: outside of quotes, inside of one kind, or after the
value. -/
inductive Place
  | bare
  | single
  | double
  | ended
  deriving DecidableEq, Repr

/-- The character for which a character after a backslash stands. -/
def escaped? : Char → Option Char
  | 'n' => some '\n'
  | c => if ['\\', '\'', '"', '$', ' '].contains c then some c else none

def value? : Place → List Char → Option (List Char)
  | .bare, [] | .ended, [] => some []
  | .single, [] | .double, [] => none
  | .ended, c :: cs =>
    if c = ' ' || c = '\t' then value? .ended cs else if c = '#' then some [] else none
  | .single, c :: cs => if c = '\'' then value? .bare cs else (value? .single cs).map (c :: ·)
  | .bare, ['\\'] => some []
  | .double, ['\\'] => none
  | .bare, '\\' :: e :: cs => (escaped? e).bind fun c => (value? .bare cs).map (c :: ·)
  | .double, '\\' :: e :: cs => (escaped? e).bind fun c => (value? .double cs).map (c :: ·)
  | .double, c :: cs => if c = '"' then value? .bare cs else (value? .double cs).map (c :: ·)
  | .bare, c :: cs =>
    if c = '\'' then value? .single cs
    else if c = '"' then value? .double cs
    else if c = ' ' || c = '\t' then value? .ended cs
    else (value? .bare cs).map (c :: ·)

/-- Whether a name of a variable may begin with the character. -/
def startsKey (c : Char) : Bool := c.isAlpha || c == '_'

/-- Whether a name of a variable may go on with the character. -/
def continuesKey (c : Char) : Bool := c.isAlphanum || c == '_' || c == '.'

/-- The name at the beginning, and what follows it and the blanks after it. -/
def key? (cs : List Char) : Option (List Char × List Char) :=
  match cs with
  | c :: _ =>
    if startsKey c then
      some (cs.takeWhile continuesKey, (cs.dropWhile continuesKey).dropWhile Text.isBlank)
    else none
  | [] => none

/-- The line that sets the variable to what the rest spells. -/
def assign (key rest : List Char) : FileLine :=
  match rest with
  | '=' :: value =>
    match value.dropWhile Text.isBlank with
    | [] | '#' :: _ => .assigns (String.ofList key) ""
    | cs =>
      match value? .bare cs with
      | some v => .assigns (String.ofList key) (String.ofList v)
      | none => .malformed
  | _ => .malformed

/-- What the characters of a line say. The word `export` is a name only before an equals sign. -/
def ofChars (line : List Char) : FileLine :=
  match Text.trimChars line with
  | [] | '#' :: _ => .nothing
  | cs =>
    match key? cs with
    | none => .malformed
    | some (key, rest) =>
      if key = "export".toList && rest.head? != some '=' then
        match key? rest with
        | none => .malformed
        | some (key, rest) => assign key rest
      else assign key rest

end FileLine

namespace Environment

/-- Sets the variables of the lines that are not set yet. The answer says whether every line could
be read. -/
def loadLines : List String → Environment → Environment × Bool
  | [], env => (env, true)
  | line :: rest, env =>
    match FileLine.ofChars line.toList with
    | .nothing => loadLines rest env
    | .assigns key value => loadLines rest (env.setDefault key value)
    | .malformed => (env, false)

/-- Sets the variables of a file that are not set yet. -/
def loadFile (env : Environment) (file : String) : Environment × Bool :=
  loadLines (file.splitOn "\n") env

/-- Sets the variables of the nearest file; `files` holds those of the working directory and of the
directories above it, where there is one. If that file cannot be read to its end, the nearest file
above the working directory is read as well. -/
def loadNearest (env : Environment) (files : List (Option String)) : Environment :=
  match files.findSome? id with
  | none => env
  | some file =>
    match env.loadFile file with
    | (env, true) => env
    | (env, false) =>
      match files.tail.findSome? id with
      | none => env
      | some file => (env.loadFile file).1

end Environment

end Multicast
