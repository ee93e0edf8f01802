/-!
# Text on a terminal

Text that is shown on a terminal could control it. Control characters are left out, but for those
that are blank, and so are the sequences that an escape character begins: a letter behind it, a
command in parameters and a letter, or a string up to its terminator.
-/

namespace DotMatrix.Text.Terminal

/-- What a control sequence has come to. -/
inductive State where
  /-- Outside of sequences. -/
  | plain
  /-- Right behind the escape character. -/
  | escape
  /-- Behind a mark that the letter is still to follow. -/
  | marked
  /-- In a command with parameters. -/
  | command
  /-- In the title of a window. -/
  | title
  /-- In another string. -/
  | string
deriving DecidableEq, Repr, Inhabited

def isBlankControl (c : Char) : Bool := c = '\t' || c = '\n' || c = '\x0c' || c = '\r'

def isHarmless (c : Char) : Bool := isBlankControl c || (0x20 ≤ c.toNat && c.toNat ≠ 0x7F)

def terminator : UInt8 := 0x9C

def State.afterEscape (c : Char) : State :=
  if c = '[' then .command
  else if c = ']' then .title
  else if ['P', 'X', '^', '_'].contains c then .string
  else if '0' ≤ c && c ≤ '~' then .plain
  else if ' ' ≤ c && c ≤ '/' then .marked
  else .escape

def State.next (state : State) (c : Char) : State :=
  if c = '\x1b' then .escape
  else if c = '\x18' || c = '\x1a' then .plain
  else
    match state with
    | .plain => .plain
    | .escape => .afterEscape c
    | .marked => if '0' ≤ c && c ≤ '~' then .plain else .marked
    | .command => if '@' ≤ c && c ≤ '~' then .plain else .command
    | .title => if c = '\x07' then .plain else .title
    | .string => if (String.singleton c).toUTF8.data.contains terminator then .plain else .string

def State.shows (state : State) (c : Char) : Bool :=
  match state with
  | .plain => isHarmless c
  | .escape | .marked | .command => isBlankControl c
  | .title | .string => false

/-- Leaves out what could control a terminal. Once a character is shown, all that are harmless
are, up to the next that is not; a sequence then goes on where it was. -/
def cleanFrom (state : State) (showing : Bool) : List Char → List Char
  | [] => []
  | c :: rest =>
    if (showing && isHarmless c) || state.shows c then
      c :: cleanFrom (if c.toNat < 0x80 then state else .plain) true rest
    else cleanFrom (state.next c) false rest

def clean (text : String) : String := String.ofList (cleanFrom .plain false text.toList)

/-- The first line of text, without what could control a terminal. -/
def firstLine (text : String) : String :=
  let line := (clean text).toList.takeWhile (· ≠ '\n')
  String.ofList (if line.getLast? = some '\r' then line.dropLast else line)

end DotMatrix.Text.Terminal
