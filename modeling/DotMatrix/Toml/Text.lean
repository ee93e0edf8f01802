import DotMatrix.Text.Hex

/-!
# Text in settings files

Text stands in quotation marks. Between double quotes a backslash begins an escape; between single
quotes every character stands for itself. Three quotes in a row open a text of several lines.
A line ends in a line feed, before which a carriage return may stand; both belong to the text.

When text is written, the form that needs no escapes is preferred: double quotes, then single
quotes, then the forms of several lines, which also hold quotes.
-/

namespace DotMatrix.Toml

def isPlain (c : Char) : Bool := c = '\t' || (0x20 ≤ c.toNat && c.toNat ≠ 0x7F)

namespace Text

/-! ## Reading -/

def keep (chars : List Char) (cut : List Char × List Char) : List Char × List Char :=
  (chars ++ cut.1, cut.2)

/-- Cuts at the double quote that ends a text. A backslash protects the character behind it. -/
def closeDouble? : List Char → Option (List Char × List Char)
  | [] => none
  | '"' :: rest => some ([], rest)
  | '\\' :: c :: rest => (closeDouble? rest).map (keep ['\\', c])
  | c :: rest => (closeDouble? rest).map (keep [c])

/-- Cuts at the three quotes that end a text of several lines; up to two more belong to it. -/
def closeTriple? (quote : Char) (escapes : Bool) : List Char → Option (List Char × List Char)
  | [] => none
  | [_] => none
  | [_, _] => none
  | a :: b :: c :: rest =>
    if a = quote && b = quote && c = quote then
      let extra := (rest.take 2).takeWhile (· = quote)
      some (extra, rest.drop extra.length)
    else if escapes && a = '\\' then (closeTriple? quote escapes (c :: rest)).map (keep [a, b])
    else (closeTriple? quote escapes (b :: c :: rest)).map (keep [a])

def escape? : Char → Option Char
  | 'b' => some '\x08'
  | 't' => some '\t'
  | 'n' => some '\n'
  | 'f' => some '\x0c'
  | 'r' => some '\r'
  | 'e' => some '\x1b'
  | '"' => some '"'
  | '\\' => some '\\'
  | _ => none

def numbered? (digits : List Char) : Option Char := do
  let n ← DotMatrix.Text.Hex.number? digits
  if n.isValidChar then some (Char.ofNat n) else none

def unescape? : List Char → Option (List Char)
  | [] => some []
  | '\\' :: 'x' :: a :: b :: rest => do
    return (← numbered? [a, b]) :: (← unescape? rest)
  | '\\' :: 'u' :: a :: b :: c :: d :: rest => do
    return (← numbered? [a, b, c, d]) :: (← unescape? rest)
  | '\\' :: 'U' :: a :: b :: c :: d :: e :: f :: g :: h :: rest => do
    return (← numbered? [a, b, c, d, e, f, g, h]) :: (← unescape? rest)
  | '\\' :: c :: rest => do
    return (← escape? c) :: (← unescape? rest)
  | ['\\'] => none
  | c :: rest => do
    return c :: (← unescape? rest)

def isLines : List Char → Bool
  | [] => true
  | '\n' :: rest => isLines rest
  | '\r' :: '\n' :: rest => isLines rest
  | c :: rest => isPlain c && isLines rest

def isBlankBeforeBreak (c : Char) : Bool := c = ' ' || c = '\t' || c = '\r'

/-- Where a backslash at the end of a line has led to. -/
inductive Gap where
  /-- Not in a gap. -/
  | closed
  /-- Behind the backslash, with nothing but blanks up to the end of the line. -/
  | opening
  /-- In the blanks and line ends that follow. -/
  | open
deriving DecidableEq, Repr, Inhabited

/-- Removes the backslashes at the ends of lines, and the blanks and line ends behind them. -/
def joinLines? : Gap → List Char → Option (List Char)
  | .opening, [] => none
  | _, [] => some []
  | .opening, c :: rest =>
    if c = '\n' then joinLines? .open rest
    else if isBlankBeforeBreak c then joinLines? .opening rest
    else none
  | .open, ' ' :: rest => joinLines? .open rest
  | .open, '\t' :: rest => joinLines? .open rest
  | .open, '\r' :: rest => joinLines? .open rest
  | .open, '\n' :: rest => joinLines? .open rest
  | _, '\\' :: c :: rest =>
    if c = '\n' then joinLines? .open rest
    else if isBlankBeforeBreak c then joinLines? .opening rest
    else (joinLines? .closed rest).map (['\\', c] ++ ·)
  | _, c :: rest => (joinLines? .closed rest).map (c :: ·)

/-- Takes a line end: a line feed, before which a carriage return may stand. -/
def takeBreak? : List Char → Option (List Char)
  | '\n' :: rest => some rest
  | '\r' :: '\n' :: rest => some rest
  | _ => none

/-- Reads a text of several lines behind its opening quotes. A line end right behind these does
not count. -/
def readLines? (quote : Char) (text : List Char) : Option (List Char × List Char) := do
  let (body, rest) ← closeTriple? quote (quote = '"') ((takeBreak? text).getD text)
  guard (isLines body)
  if quote = '"' then return (← unescape? (← joinLines? .closed body), rest)
  else return (body, rest)

def readLine? (quote : Char) (text : List Char) : Option (List Char × List Char) := do
  if quote = '"' then
    let (body, rest) ← closeDouble? text
    guard (body.all isPlain)
    return (← unescape? body, rest)
  else
    let body := text.takeWhile (· ≠ quote)
    guard (body.length < text.length && body.all isPlain)
    return (body, text.drop (body.length + 1))

def read? : List Char → Option (List Char × List Char)
  | a :: b :: c :: rest =>
    if b = a && c = a then readLines? a rest else readLine? a (b :: c :: rest)
  | a :: rest => readLine? a rest
  | [] => none

/-! ## Writing -/

def longestRun (c : Char) (text : List Char) : Nat :=
  (text.foldl (fun (best, here) x =>
    if x = c then (max best (here + 1), here + 1) else (best, 0)) (0, 0)).1

inductive Form where
  | double | single | doubleLines | singleLines
deriving DecidableEq, Repr, Inhabited

namespace Form

def quote : Form → Char
  | double | doubleLines => '"'
  | single | singleLines => '\''

def mark : Form → List Char
  | double => ['"']
  | single => ['\'']
  | doubleLines => ['"', '"', '"']
  | singleLines => ['\'', '\'', '\'']

def severalLines : Form → Bool
  | double | single => false
  | doubleLines | singleLines => true

def escapes : Form → Bool
  | double | doubleLines => true
  | single | singleLines => false

/-- The run of quotes that the form can hold as they are. -/
def quotesHeld (form : Form) : Nat := if form.severalLines then 2 else 0

/-- The form holds the text without escapes; a tab is no hindrance. -/
def suits (form : Form) (text : List Char) : Bool :=
  text.all (fun c => isPlain c || (form.severalLines && c = '\n'))
    && !(form.escapes && text.contains '\\')
    && longestRun form.quote text ≤ form.quotesHeld

end Form

/-- The form that a text is written in: the first that suits it, and else one with escapes. -/
def chooseForm (text : List Char) : Form :=
  (([Form.double, .single, .doubleLines, .singleLines].find? (·.suits text))).getD
    (if text.contains '\n' then .doubleLines else .double)

def escape (form : Form) (quotes : Nat) (c : Char) : List Char :=
  if c = '"' then if form.quotesHeld ≤ quotes then ['\\', '"'] else ['"']
  else if c = '\x08' then ['\\', 'b']
  else if c = '\t' then ['\\', 't']
  else if c = '\n' then if form.severalLines then ['\n'] else ['\\', 'n']
  else if c = '\x0c' then ['\\', 'f']
  else if c = '\r' then ['\\', 'r']
  else if c = '\\' then ['\\', '\\']
  else if isPlain c then [c]
  else ['\\', 'u'] ++ DotMatrix.Text.Hex.digits 4 c.toNat

/-- Escapes what a form cannot hold. An escaped quote ends a run of quotes. -/
def escapeAll (form : Form) : Nat → List Char → List Char
  | _, [] => []
  | quotes, c :: rest =>
    let run := if c = '"' && quotes < form.quotesHeld then quotes + 1 else 0
    escape form quotes c ++ escapeAll form run rest

def write (text : List Char) : List Char :=
  let form := chooseForm text
  let first := if form.severalLines && text.contains '\n' then ['\n'] else []
  let body := if form.escapes then escapeAll form 0 text else text
  form.mark ++ first ++ body ++ form.mark

end Text

end DotMatrix.Toml
