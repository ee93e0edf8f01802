import DotMatrix.Toml.Value

/-!
# Settings documents

A document is a tree of tables, in which keys lead to values, to tables or to lists of tables. It
is kept as the list of what each path leads to. A header names the table that the lines behind it
belong to; the tables it passes on the way are implied, and may get a header of their own later.
Dotted keys make tables as well, but those are complete without a header. No key may be given
twice.
-/

namespace DotMatrix.Toml

inductive Step where
  | key (name : List Char)
  /-- An element of a list of tables. -/
  | element (index : Nat)
deriving DecidableEq, Repr, Inhabited

abbrev Path := List Step

/-- How a table came to be. -/
inductive Origin where
  | header | implied | dotted
deriving DecidableEq, Repr, Inhabited

inductive Node where
  | value (v : Value)
  | table (origin : Origin)
  /-- A list of tables, with the index of the last. -/
  | tables (last : Nat)

structure Document where
  nodes : List (Path × Node)

namespace Document

def empty : Document := ⟨[]⟩

def find? (d : Document) (path : Path) : Option Node := d.nodes.lookup path

def set (d : Document) (path : Path) (node : Node) : Document := ⟨(path, node) :: d.nodes⟩

/-- Follows the keys of a header from a table, into the last element of each list. -/
def follow? (d : Document) (here : Path) : List (List Char) → Option (Document × Path)
  | [] => some (d, here)
  | key :: rest =>
    let next := here ++ [.key key]
    match d.find? next with
    | none => follow? (d.set next (.table .implied)) next rest
    | some (.table _) => follow? d next rest
    | some (.tables last) => follow? d (next ++ [.element last]) rest
    | some (.value _) => none

def openTable? (d : Document) (keys : List (List Char)) : Option (Document × Path) := do
  let (d, here) ← d.follow? [] keys.dropLast
  let path := here ++ [.key (← keys.getLast?)]
  match d.find? path with
  | none => some (d.set path (.table .header), path)
  | some (.table .implied) => some (d.set path (.table .header), path)
  | some _ => none

def openElement? (d : Document) (keys : List (List Char)) : Option (Document × Path) := do
  let (d, here) ← d.follow? [] keys.dropLast
  let path := here ++ [.key (← keys.getLast?)]
  match d.find? path with
  | none => some (d.set path (.tables 0), path ++ [.element 0])
  | some (.tables last) => some (d.set path (.tables (last + 1)), path ++ [.element (last + 1)])
  | some _ => none

/-- Follows dotted keys from a table. A table with a header of its own is closed to them. -/
def followDotted? (d : Document) (here : Path) : List (List Char) → Option (Document × Path)
  | [] => some (d, here)
  | key :: rest =>
    let next := here ++ [.key key]
    match d.find? next with
    | none => followDotted? (d.set next (.table .dotted)) next rest
    | some (.table .dotted) => followDotted? d next rest
    | some (.table .implied) => followDotted? d next rest
    | some _ => none

def addValue? (d : Document) (table : Path) (keys : List (List Char)) (value : Value) :
    Option Document := do
  let (d, here) ← d.followDotted? table keys.dropLast
  let path := here ++ [.key (← keys.getLast?)]
  match d.find? path with
  | none => some (d.set path (.value value))
  | some _ => none

/-! ## Reading -/

def isSpace (c : Char) : Bool := c = ' ' || c = '\t'

def isKeyChar (c : Char) : Bool := c.isAlphanum || c = '_' || c = '-'

def skipSpaces (text : List Char) : List Char := text.dropWhile isSpace

def skipComment? (text : List Char) : Option (List Char) :=
  match text with
  | '#' :: rest =>
    let comment := rest.takeWhile fun c => c ≠ '\n' && c ≠ '\r'
    if comment.all isPlain then some (rest.drop comment.length) else none
  | text => some text

/-- Skips to the next line. Only a comment may come before it. -/
def endLine? (text : List Char) : Option (List Char) := do
  match ← skipComment? (skipSpaces text) with
  | [] => some []
  | text => Text.takeBreak? text

def skipGap? : Nat → List Char → Option (List Char)
  | 0, text => some text
  | n + 1, text => do
    let text ← skipComment? (skipSpaces text)
    match Text.takeBreak? text with
    | some rest => skipGap? n rest
    | none => some text

def skipAll? (text : List Char) : Option (List Char) := skipGap? (text.length + 1) text

def readKey? (text : List Char) : Option (List Char × List Char) :=
  match text with
  | '"' :: rest => Text.readLine? '"' rest
  | '\'' :: rest => Text.readLine? '\'' rest
  | _ =>
    let key := text.takeWhile isKeyChar
    if key = [] then none else some (key, text.dropWhile isKeyChar)

/-- Keys have at most so many parts, and brackets are nested at most so deeply. -/
def depthLimit : Nat := 80

/-- Reads the parts of a key, with points between them, at most as many as the first argument
says. -/
def readKeys? : Nat → List Char → Option (List (List Char) × List Char)
  | 0, _ => none
  | n + 1, text => do
    let (key, rest) ← readKey? (skipSpaces text)
    match skipSpaces rest with
    | '.' :: rest => do
      let (keys, rest) ← readKeys? n rest
      return (key :: keys, rest)
    | rest => return ([key], rest)

def endsWord (c : Char) : Bool := isSpace c || ['\n', '\r', ',', ']', '}', '#', '='].contains c

/-- Takes a value of one word. A space may stand between a date and a time. -/
def takeWord (text : List Char) : List Char × List Char :=
  let word := text.takeWhile (!endsWord ·)
  let rest := text.dropWhile (!endsWord ·)
  match rest with
  | ' ' :: c :: more =>
    if Value.takeDate? word = some [] && c.isDigit then
      let time := (c :: more).takeWhile (!endsWord ·)
      (word ++ ' ' :: time, (c :: more).drop time.length)
    else (word, rest)
  | _ => (word, rest)

mutual

/-- Reads a value, in which brackets are nested at most as deeply as the first argument says. The
second argument bounds the number of steps. -/
def readValue? : Nat → Nat → List Char → Option (Value × List Char)
  | _, 0, _ => none
  | depth, n + 1, text =>
    match text, depth with
    | '"' :: _, _ => (Text.read? text).map fun (chars, rest) => (.text chars, rest)
    | '\'' :: _, _ => (Text.read? text).map fun (chars, rest) => (.text chars, rest)
    | '[' :: rest, depth + 1 => (skipItems? depth n rest).map (.other, ·)
    | '\x7b' :: rest, depth + 1 => (skipPairs? depth n .empty rest).map (.other, ·)
    | _, _ =>
      let (word, rest) := takeWord text
      (Value.ofWord? word).map (·, rest)

def skipItems? : Nat → Nat → List Char → Option (List Char)
  | _, 0, _ => none
  | depth, n + 1, text => do
    match ← skipAll? text with
    | ']' :: rest => some rest
    | text =>
      let (_, rest) ← readValue? depth n text
      match ← skipAll? rest with
      | ',' :: rest => skipItems? depth n rest
      | ']' :: rest => some rest
      | _ => none

/-- Skips the rest of a record, whose keys have to differ. -/
def skipPairs? : Nat → Nat → Document → List Char → Option (List Char)
  | _, 0, _, _ => none
  | depth, n + 1, d, text => do
    match ← skipAll? text with
    | '\x7d' :: rest => some rest
    | text =>
      let (keys, rest) ← readKeys? depthLimit text
      match skipSpaces rest with
      | '=' :: rest =>
        let (value, rest) ← readValue? depth n (skipSpaces rest)
        let d ← d.addValue? [] keys value
        match ← skipAll? rest with
        | ',' :: rest => skipPairs? depth n d rest
        | '\x7d' :: rest => some rest
        | _ => none
      | _ => none

end

/-- Reads the lines of a table, and of the tables behind it, at most as many as the first argument
says. -/
def readLines? : Nat → Document → Path → List Char → Option Document
  | 0, _, _, _ => none
  | n + 1, d, table, text => do
    match skipSpaces text with
    | [] => some d
    | '\n' :: rest => readLines? n d table rest
    | '\r' :: '\n' :: rest => readLines? n d table rest
    | '#' :: rest => readLines? n d table (← endLine? ('#' :: rest))
    | '[' :: '[' :: rest =>
      let (keys, rest) ← readKeys? depthLimit rest
      match rest with
      | ']' :: ']' :: rest =>
        let (d, table) ← d.openElement? keys
        readLines? n d table (← endLine? rest)
      | _ => none
    | '[' :: rest =>
      let (keys, rest) ← readKeys? depthLimit rest
      match rest with
      | ']' :: rest =>
        let (d, table) ← d.openTable? keys
        readLines? n d table (← endLine? rest)
      | _ => none
    | text =>
      let (keys, rest) ← readKeys? depthLimit text
      match rest with
      | '=' :: rest =>
        let (value, rest) ← readValue? depthLimit (rest.length + 1) (skipSpaces rest)
        let d ← d.addValue? table keys value
        readLines? n d table (← endLine? rest)
      | _ => none

/-- A mark of the byte order at the very start does not count. -/
def dropByteMark : List Char → List Char
  | '\ufeff' :: rest => rest
  | text => text

def read? (text : List Char) : Option Document :=
  let text := dropByteMark text
  readLines? (text.length + 1) .empty [] text

end Document

end DotMatrix.Toml
