import DotMatrix.Decimal.Literal
import DotMatrix.Toml.Text

/-!
# Values in settings files

A value is text, a whole number, a decimal, a truth value, or something else: a moment, a list or
a record, of which only the form is checked. Digits may be grouped with underscores.
-/

namespace DotMatrix.Toml

inductive Value where
  | text (chars : List Char)
  | whole (n : Int)
  | decimal (x : Float)
  | truth (b : Bool)
  /-- A moment, a list or a record. -/
  | other

namespace Value

/-! ## Numbers -/

/-- Removes underscores, each of which has to stand between two digits. -/
def ungroup? (digit : Char → Bool) : Bool → List Char → Option (List Char)
  | _, [] => some []
  | _, ['_'] => none
  | behindDigit, '_' :: c :: rest =>
    if behindDigit && digit c then (ungroup? digit true rest).map (c :: ·) else none
  | _, c :: rest => (ungroup? digit (digit c) rest).map (c :: ·)

def inRange (n : Int) : Bool := -(1 <<< 127 : Nat) ≤ n && n < (1 <<< 128 : Nat)

def whole? (n : Int) : Option Value := if inRange n then some (.whole n) else none

def base? : Char → Option Nat
  | 'x' => some 16
  | 'o' => some 8
  | 'b' => some 2
  | _ => none

def ofBase? (base : Nat) (digits : List Char) : Option Nat :=
  digits.foldlM (fun n c => do
    let d ← DotMatrix.Text.Hex.value? c
    if d < base then some (base * n + d) else none) 0

def ofMarked? (mark : Char) (text : List Char) : Option Value := do
  let base ← base? mark
  let digits ← ungroup? (fun c => (DotMatrix.Text.Hex.value? c).any (· < base)) false text
  guard (digits ≠ [])
  whole? (← ofBase? base digits)

/-- Reads a number in digits. The whole part does not begin with a needless zero, and there are
digits behind a point. -/
def ofDigits? (text : List Char) : Option Value := do
  let (negative, digits) := Decimal.takeSign text
  let digits ← ungroup? Char.isDigit false digits
  let whole := digits.takeWhile Char.isDigit
  guard (whole ≠ [] && (whole.length = 1 || whole.head? ≠ some '0'))
  match digits.dropWhile Char.isDigit with
  | [] =>
    let n := Decimal.ofDigits whole
    whole? (if negative then -(n : Int) else n)
  | '.' :: rest =>
    guard (rest.head?.any Char.isDigit)
    finite? negative digits
  | _ => finite? negative digits
where
  /-- A decimal that is not too large. -/
  finite? (negative : Bool) (digits : List Char) : Option Value := do
    let value ← Decimal.readScientific? digits
    let x := (⟨negative, value⟩ : Decimal.Literal).toFloat
    if x.isFinite then some (.decimal x) else none

/-! ## Moments -/

def takeTwo? (low high : Nat) : List Char → Option (Nat × List Char)
  | a :: b :: rest =>
    let n := Decimal.ofDigits [a, b]
    if a.isDigit && b.isDigit && low ≤ n && n ≤ high then some (n, rest) else none
  | _ => none

def takeChar? (c : Char) : List Char → Option (List Char)
  | d :: rest => if d = c then some rest else none
  | [] => none

def daysIn (year month : Nat) : Nat :=
  if month = 2 then if year % 4 = 0 && (year % 100 ≠ 0 || year % 400 = 0) then 29 else 28
  else if [4, 6, 9, 11].contains month then 30
  else 31

def takeDate? (text : List Char) : Option (List Char) := do
  let (century, rest) ← takeTwo? 0 99 text
  let (year, rest) ← takeTwo? 0 99 rest
  let (month, rest) ← takeTwo? 1 12 (← takeChar? '-' rest)
  let (_, rest) ← takeTwo? 1 (daysIn (100 * century + year) month) (← takeChar? '-' rest)
  return rest

/-- Takes a time of day; the seconds and their fraction may be left out. -/
def takeTime? (text : List Char) : Option (List Char) := do
  let (_, rest) ← takeTwo? 0 23 text
  let (_, rest) ← takeTwo? 0 59 (← takeChar? ':' rest)
  match rest with
  | ':' :: rest =>
    let (_, rest) ← takeTwo? 0 60 rest
    match rest with
    | '.' :: c :: rest => if c.isDigit then some (rest.dropWhile Char.isDigit) else none
    | _ => some rest
  | _ => some rest

/-- The text is nothing or an offset from universal time. -/
def isOffset (text : List Char) : Bool :=
  match text with
  | [] => true
  | ['Z'] => true
  | ['z'] => true
  | sign :: rest =>
    let ends := do
      let (_, rest) ← takeTwo? 0 23 rest
      let (_, rest) ← takeTwo? 0 59 (← takeChar? ':' rest)
      some (rest.isEmpty)
    (sign = '+' || sign = '-') && ends.getD false

def isMoment (text : List Char) : Bool :=
  match takeDate? text with
  | none => takeTime? text = some []
  | some [] => true
  | some (c :: rest) =>
    (c = 'T' || c = 't' || c = ' ') && (takeTime? rest).any isOffset

/-! ## Values of one word -/

def word? (text : List Char) : Option Value :=
  let (negative, name) := Decimal.takeSign text
  let text := String.ofList text
  if text = "true" then some (.truth true)
  else if text = "false" then some (.truth false)
  else if name = ['i', 'n', 'f'] || name = ['n', 'a', 'n'] then
    (Decimal.named? name).map fun x => .decimal (if negative then -x else x)
  else none

def number? (text : List Char) : Option Value :=
  match text with
  | '0' :: mark :: rest => if (base? mark).isSome then ofMarked? mark rest else ofDigits? text
  | _ => ofDigits? text

def ofWord? (text : List Char) : Option Value :=
  match word? text with
  | some value => some value
  | none => if isMoment text then some .other else number? text

end Value

end DotMatrix.Toml
