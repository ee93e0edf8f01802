import DotMatrix.Command.Failure
import DotMatrix.Command.Options
import DotMatrix.Recording.Picture
import DotMatrix.Session.Limits
import DotMatrix.Text.Terminal

/-!
# Command

Running an image from the command line: the settings are loaded and changed by the options, the
cartridge and the boot image are loaded, the session runs within its limits, and what was asked
for is recorded. What has been logged and written before a failure stays.
-/

namespace DotMatrix.Command

abbrev Work (τ : Type) := ExceptT Failure (StateM (Host τ))

variable {τ : Type}

def report (level : LogLevel) (text : String) : Work τ Unit :=
  modify fun host => host.report level text

/-- Work on the storage alone. What was done before a failure stays. -/
def onStorage (work : Storage → Except StorageError Unit × Storage)
    (failure : StorageError → Failure) : Work τ Unit := do
  let (result, storage) := work (← get).storage
  modify fun host => { host with storage }
  match result with
  | .ok () => pure ()
  | .error cause => throw (failure cause)

/-! ## Preparing -/

def applyOptions (o : Options) (s : Settings) : Work τ Settings := do
  let s :=
    match o.value? .bootImage with
    | some path => { s with bootImage := some path, builtinBoot := false }
    | none => s
  let s := if o.has .builtinBoot then { s with builtinBoot := true } else s
  match o.speed? with
  | none => return s
  | some speed =>
    if isSpeed speed then return { s with speed }
    else
      report .warn s!"Ignoring invalid --speed {Decimal.write speed 0}"
      return s

def loadSettings (o : Options) (env : Environment) : Work τ Settings := do
  let path := (o.value? .settings).getD (Settings.defaultPath env)
  let (settings, host) := Settings.load (← get) path
  set host
  let settings ← applyOptions o settings
  if o.has .saveSettings then
    onStorage (settings.save path) .file
    report .info s!"Saved config to {path}"
  return settings

def loadCartridge [Timeline τ] (path : String) : Work τ (Cartridge τ) := do
  let (result, host) := Cartridge.ofFile (← get) path
  set host
  match result with
  | .error cause => throw (.cartridge cause)
  | .ok cartridge => return cartridge

def loadBootImage (s : Settings) : Work τ (Option BootImage) := do
  if s.builtinBoot then return some .builtin
  match s.bootImage with
  | none => return none
  | some path =>
    match (← get).storage.read path with
    | .error cause => throw (.bootFile path cause)
    | .ok bytes =>
      match BootImage.ofBytes bytes with
      | .error cause => throw (.bootImage cause)
      | .ok image => return some image

def milliseconds (seconds : Float) : Except DurationError Nat :=
  if seconds < 0 then .error .negative
  else if seconds < Float.ofNat (1 <<< 64) then .ok (seconds * 1000).toUInt64.toNat
  else .error .notFinite

def createWave (path : String) : Work τ Recording.Recorder := do
  onStorage (·.makeFolders path) .file
  match Recording.Recorder.create (← get).storage path with
  | .error cause => throw (.wave cause)
  | .ok (recorder, storage) =>
    modify fun host => { host with storage }
    return recorder

structure Prepared (τ : Type) where
  session : Session τ
  limits : Limits
  /-- The console keeps to real time. -/
  paced : Bool

def prepare [Timeline τ] (o : Options) (env : Environment) :
    Work τ (Prepared τ) := do
  let settings ← loadSettings o env
  modify fun host => { host with saveFolder := settings.saveFolder }
  let cartridge ← loadCartridge o.image
  let boot ← loadBootImage settings
  let duration ←
    match o.seconds?.map milliseconds with
    | none => pure none
    | some (.ok duration) => pure (some duration)
    | some (.error cause) => throw (.duration cause)
  let recorder ← (o.value? .wave).mapM createWave
  let host ← get
  let console := Console.create (Machine.create cartridge host boot) settings.speed
  return {
    session := {
      console
      screen := (o.value? .screenshot).map fun _ => .blank
      speakers := recorder.map fun recorder => { Speakers.silent with recorder := some recorder } }
    limits := .fromNow host.uptime o.frames? duration
    paced := !o.has .unpaced }

/-! ## Recording -/

def writePicture (path : String) (frame : Display.Frame) : Work τ Unit := do
  onStorage (·.writeDeep path (Recording.Picture.ofFrame frame).encode) .file
  report .info s!"Wrote screenshot to {path}"

def recordScreen (path : String) (screen : Screen) : Work τ Unit :=
  match screen.frame with
  | some frame => writePicture path frame
  | none => report .warn s!"No frame was rendered, {path} not written"

def recordVideoMemory (path : String) (machine : Machine τ) : Work τ Unit := do
  onStorage (·.write path machine.videoImage) .file
  report .info s!"Wrote VRAM to {path}"

def conclude (o : Options) (fault : Option Fault) (s : Session τ) : Work τ Unit := do
  set s.console.machine.bus.host
  match o.value? .screenshot, s.screen with
  | some path, some screen => recordScreen path screen
  | _, _ => pure ()
  (o.value? .videoDump).forM (recordVideoMemory · s.console.machine)
  match fault with
  | some fault => throw (.fault fault)
  | none => pure ()

/-! ## Running -/

/-- What a command leaves: the code that it ends with, its failure, and the host. -/
structure Outcome (τ : Type) where
  code : Nat
  failure : Option Failure
  host : Host τ

def Outcome.ofWork (result : Except Failure Unit × Host τ) : Outcome τ :=
  match result with
  | (.ok (), host) => ⟨0, none, host⟩
  | (.error failure, host) => ⟨1, some failure, host⟩

/-- The code of a command line that makes no sense. -/
def misuseCode : Nat := 2

/-- Runs an image as the options say, for at most `limit` rounds. -/
def execute [Timeline τ] (limit : Nat) (o : Options) (env : Environment)
    (host : Host τ) : Outcome τ :=
  match (prepare o env).run host with
  | (.error failure, host) => ⟨1, some failure, host⟩
  | (.ok prepared, _) =>
    let (fault, session) := prepared.session.run limit Limits.ask prepared.limits
    .ofWork ((conclude o fault session).run host)

def perform [Timeline τ] (limit : Nat) (words : List String)
    (env : Environment) (host : Host τ) : Outcome τ :=
  match Request.ofWords words with
  | .run options => execute limit options env host
  | .help | .version => ⟨0, none, host⟩
  | .misuse => ⟨misuseCode, none, host⟩

/-! ## Log -/

/-- The weight of a level: the higher, the less important. -/
def weight : LogLevel → Nat
  | .error => 1
  | .warn => 2
  | .info => 3

def levelVariable : String := "RUST_LOG"

/-- The weight up to which lines are shown; without a level named, all are. -/
def shownWeight (env : Environment) : Nat :=
  match (env levelVariable).map String.toLower with
  | none => 3
  | some "error" | some "" => 1
  | some "warn" => 2
  | some "info" | some "debug" | some "trace" => 3
  | some _ => 0

/-- The log lines that are shown, in order, each on one line of a terminal. -/
def shownLines (env : Environment) (host : Host τ) : List LogLine :=
  (host.log.reverse.filter fun line => weight line.level ≤ shownWeight env).map fun line =>
    { line with text := Text.Terminal.firstLine line.text }

end DotMatrix.Command
