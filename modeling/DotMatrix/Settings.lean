import DotMatrix.Host
import DotMatrix.Toml.Document

/-!
# Settings

What is kept between runs. The settings file may leave out any setting, and keys that mean nothing
are ignored. A file that cannot be read as settings counts as empty, and a speed that makes no
sense as real time.
-/

namespace DotMatrix

structure Settings where
  /-- The boot image to start in. -/
  bootImage : Option String
  /-- Start in the built-in boot program. -/
  builtinBoot : Bool
  /-- The speed of the console; 1 is real time. -/
  speed : Float
  /-- The folder for save files, if they do not go beside the image. -/
  saveFolder : Option String

/-- The variables that the user has set. -/
abbrev Environment := String → Option String

def isSpeed (x : Float) : Bool := x.isFinite && 0 < x

namespace Settings

def default : Settings := ⟨none, false, 1.0, none⟩

/-! ## Reading -/

/-- Reads a setting of a document: absent settings have a fallback, and the others have to be of
the right kind. -/
def setting {α : Type} (d : Toml.Document) (key : String) (fallback : α)
    (read : Toml.Value → Option α) : Option α :=
  match d.find? [.key key.toList] with
  | none => some fallback
  | some (.value v) => read v
  | some _ => none

def readText : Toml.Value → Option (Option String)
  | .text chars => some (some (String.ofList chars))
  | _ => none

def readTruth : Toml.Value → Option Bool
  | .truth b => some b
  | _ => none

/-- Reads a number. Whole numbers have to fit into 64 bits. -/
def readNumber : Toml.Value → Option Float
  | .decimal x => some x
  | .whole n =>
    if -(1 <<< 63 : Nat) ≤ n && n < (1 <<< 64 : Nat) then
      some (⟨n < 0, ⟨n.natAbs, 0⟩⟩ : Decimal.Literal).toFloat
    else none
  | _ => none

def ofDocument? (d : Toml.Document) : Option Settings := do
  return {
    bootImage := ← setting d "boot_rom_path" none readText
    builtinBoot := ← setting d "builtin_boot_rom" false readTruth
    speed := ← setting d "speed" 1.0 readNumber
    saveFolder := ← setting d "save_dir" none readText }

def parse? (text : String) : Option Settings :=
  (Toml.Document.read? text.toList).bind ofDocument?

def load {τ : Type} (host : Host τ) (path : String) : Settings × Host τ :=
  match host.storage.read path with
  | .error _ => (default, host)
  | .ok bytes =>
    match String.fromUTF8? bytes with
    | none => (default, host)
    | some text =>
      match parse? text with
      | none => (default, host.warn s!"Failed to parse config {path}; using defaults")
      | some settings =>
        if isSpeed settings.speed then (settings, host)
        else
          ({ settings with speed := 1.0 },
            host.warn s!"Invalid speed {Decimal.write settings.speed 0} in {path}; using 1.0")

/-! ## Writing -/

def line (key : String) (value : String) : String := s!"{key} = {value}\n"

def writeText (text : String) : String := String.ofList (Toml.Text.write text.toList)

def textLine (key : String) : Option String → String
  | some text => line key (writeText text)
  | none => ""

def render (s : Settings) : String :=
  textLine "boot_rom_path" s.bootImage
    ++ line "builtin_boot_rom" (if s.builtinBoot then "true" else "false")
    ++ line "speed" (Decimal.write s.speed 1)
    ++ textLine "save_dir" s.saveFolder

def save (s : Settings) (path : String) (storage : Storage) :
    Except StorageError Unit × Storage :=
  storage.writeDeep path s.render.toUTF8

/-- Where the settings file is, if no other is asked for: in the user's configuration folder. -/
def defaultPath (env : Environment) : String :=
  match env "XDG_CONFIG_HOME" with
  | some folder => Path.join (Path.join folder "pocketemu") "config.toml"
  | none =>
    match env "HOME" with
    | some home => Path.join (Path.join (Path.join home ".config") "pocketemu") "config.toml"
    | none => "config.toml"

end Settings

end DotMatrix
