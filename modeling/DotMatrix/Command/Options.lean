import DotMatrix.Decimal.Literal

/-!
# Options

The words of a command line: one image, switches, and settings with a value, either behind an
equals sign or as the next word. No option is given twice. Behind two dashes on their own every
word is an image. Reading stops at the first mistake, and at a request for help or for the
version.
-/

namespace DotMatrix.Command

inductive Switch where
  | builtinBoot | unpaced | saveSettings | verbose
deriving DecidableEq, Repr, Inhabited

def Switch.ofName? : String → Option Switch
  | "builtin-boot-rom" => some builtinBoot
  | "unpaced" => some unpaced
  | "save-config" => some saveSettings
  | "debug" => some verbose
  | _ => none

inductive Setting where
  | bootImage | frames | seconds | speed | screenshot | wave | videoDump | settings
deriving DecidableEq, Repr, Inhabited

def Setting.ofName? : String → Option Setting
  | "bootrom" => some bootImage
  | "frames" => some frames
  | "seconds" => some seconds
  | "speed" => some speed
  | "screenshot" => some screenshot
  | "wav" => some wave
  | "dump-vram" => some videoDump
  | "config" => some settings
  | _ => none

/-- Reads a count of at most 64 bits. -/
def readCount? (text : String) : Option Nat :=
  let digits :=
    match text.toList with
    | '+' :: rest => rest
    | chars => chars
  let n := Decimal.ofDigits digits
  if digits ≠ [] && digits.all Char.isDigit && n < 1 <<< 64 then some n else none

/-- The text is a value for the setting. Paths are not empty. -/
def Setting.accepts : Setting → String → Bool
  | frames, text => (readCount? text).isSome
  | seconds, text | speed, text => (Decimal.read? text).isSome
  | bootImage, text | screenshot, text | wave, text | videoDump, text | settings, text =>
    text ≠ ""

def usage : String := "\n".intercalate [
  "Usage: dotmatrix [OPTIONS] <ROM>",
  "",
  "      --bootrom <PATH>     a boot image of 256 bytes",
  "      --builtin-boot-rom   start in the built-in boot program",
  "      --frames <COUNT>     quit after so many frames",
  "      --seconds <TIME>     quit after so much time",
  "      --unpaced            run as fast as possible instead of in real time",
  "      --speed <FACTOR>     the speed, 1 being real time",
  "      --screenshot <PATH>  write the last frame as a picture",
  "      --wav <PATH>         record the sound",
  "      --dump-vram <PATH>   write an image of the video memory after the run",
  "      --config <PATH>      the settings file, if not the usual one",
  "      --save-config        keep the settings of this run",
  "      --debug              log more",
  "  -h, --help               print this text",
  "  -V, --version            print the version"]

def version : String := "dotmatrix 0.1.0"

structure Options where
  image : String
  switches : List Switch
  values : List (Setting × String)
deriving DecidableEq, Repr, Inhabited

namespace Options

def has (o : Options) (switch : Switch) : Bool := o.switches.contains switch

def value? (o : Options) (setting : Setting) : Option String := o.values.lookup setting

def frames? (o : Options) : Option Nat := (o.value? .frames).bind readCount?

def seconds? (o : Options) : Option Float := (o.value? .seconds).bind Decimal.read?

def speed? (o : Options) : Option Float := (o.value? .speed).bind Decimal.read?

end Options

inductive Request where
  | run (options : Options)
  | help
  | version
  /-- The command line makes no sense. -/
  | misuse
deriving DecidableEq, Repr, Inhabited

structure Given where
  image : Option String
  switches : List Switch
  values : List (Setting × String)
deriving DecidableEq, Repr, Inhabited

namespace Given

def nothing : Given := ⟨none, [], []⟩

def addImage? (g : Given) (path : String) : Option Given :=
  if g.image.isSome || path = "" then none else some { g with image := some path }

def addSwitch? (g : Given) (switch : Switch) : Option Given :=
  if g.switches.contains switch then none else some { g with switches := switch :: g.switches }

def addValue? (g : Given) (setting : Setting) (text : String) : Option Given :=
  if (g.values.lookup setting).isSome || !setting.accepts text then none
  else some { g with values := (setting, text) :: g.values }

/-- What is asked for at the end of the line. There is an image, and at most one choice of a boot
image. -/
def conclude (g : Given) : Request :=
  let twoBoots := g.switches.contains .builtinBoot && (g.values.lookup .bootImage).isSome
  match g.image with
  | some image => if twoBoots then .misuse else .run ⟨image, g.switches, g.values⟩
  | none => .misuse

/-- A word that may be the value of the setting before it. -/
def isValue (word : String) : Bool := word = "-" || word.toList.head? ≠ some '-'

def splitOption (word : List Char) : String × Option String :=
  let name := word.takeWhile (· ≠ '=')
  (String.ofList name,
    if name.length < word.length then some (String.ofList (word.drop (name.length + 1)))
    else none)

/-- What a word means for the words behind it. -/
inductive Move where
  | ends (request : Request)
  | goesOn (given : Given)
  /-- The next word is the value of a setting. -/
  | needsValue (setting : Setting)
deriving DecidableEq, Repr, Inhabited

def Move.ofGiven? : Option Given → Move
  | some given => .goesOn given
  | none => .ends .misuse

def takeOption (g : Given) (name : String) (value : Option String) : Move :=
  match Switch.ofName? name, Setting.ofName? name, value with
  | some switch, _, none => .ofGiven? (g.addSwitch? switch)
  | none, some setting, some value => .ofGiven? (g.addValue? setting value)
  | none, some setting, none => .needsValue setting
  | none, none, none =>
    .ends (if name = "help" then .help else if name = "version" then .version else .misuse)
  | _, _, some _ => .ends .misuse

def takeWord (g : Given) (word : String) : Move :=
  match word.toList with
  | '-' :: '-' :: option =>
    let (name, value) := splitOption option
    g.takeOption name value
  | '-' :: letter :: _ =>
    .ends (if letter = 'h' then .help else if letter = 'V' then .version else .misuse)
  | _ => .ofGiven? (g.addImage? word)

def read (g : Given) : List String → Request
  | [] => g.conclude
  | word :: rest =>
    if word = "--" then ((rest.foldlM addImage? g).map conclude).getD .misuse
    else
      match g.takeWord word with
      | .ends request => request
      | .goesOn g => g.read rest
      | .needsValue setting =>
        match rest with
        | [] => .misuse
        | value :: rest =>
          match if isValue value then g.addValue? setting value else none with
          | some g => g.read rest
          | none => .misuse

end Given

def Request.ofWords (words : List String) : Request := Given.nothing.read words

end DotMatrix.Command
