import DotMatrix.Command
import Std.Time.Format

/-!
# The program

The outer layer: it looks at the files that a command line is about, runs the session against the
clock, and writes the files that have changed.
-/

namespace DotMatrix.Program

def pathOf (loc : Location) : String := "/" ++ "/".intercalate loc

def lookAt (s : Storage) (loc : Location) : IO Storage := do
  let path := (← IO.currentDir) / pathOf loc
  if ← path.isDir then return { s with folders := loc :: s.folders }
  if ← path.pathExists then return s.put loc (← IO.FS.readBinFile path)
  return s

/-- Puts what a path leads to from the working folder, and all that it passes on the way, into the
storage. -/
def look (home : Location) (s : Storage) (path : String) : IO Storage := do
  if !(Storage.checkPath path).isOk then return s
  let mut s := s
  let mut here := Storage.start home path
  for segment in Storage.segments path do
    here := here.enter segment
    s ← lookAt s here
  return s

/-- Makes the folders and writes the files that differ from those looked at before. -/
def writeChanges (before after : Storage) : IO Unit := do
  for loc in after.folders do
    if !before.isFolder loc then IO.FS.createDirAll (pathOf loc)
  for (loc, bytes) in after.files do
    if (before.fileAt? loc).any (·.data = bytes.data) then continue
    IO.FS.createDirAll (pathOf loc.dropLast)
    IO.FS.writeBinFile (pathOf loc) bytes

def printLog (env : Environment) (host : Host Float) : IO (Host Float) := do
  for line in Command.shownLines env host do
    IO.eprintln line.render
  return { host with log := [] }

/-- Seconds since 1970. -/
def calendarNow : IO Float := do
  let now ← Std.Time.Timestamp.now
  return Float.ofInt now.toMillisecondsSinceUnixEpoch.val / 1000

def readEnvironment : IO Environment := do
  let names := ["XDG_CONFIG_HOME", "HOME", Command.levelVariable]
  let known ← names.filterMapM fun name => return (← IO.getEnv name).map (name, ·)
  return fun name => known.lookup name

/-- Looks at the files that the options name, and at those that the settings lead to. -/
def lookAll (o : Command.Options) (env : Environment) (home : Location) : IO Storage := do
  let config := (o.value? .settings).getD (Settings.defaultPath env)
  let s ← look home (.emptyTree home) config
  let (settings, _) := Settings.load (⟨s, none, (0.0 : Float), 0, []⟩ : Host Float) config
  let boot := (o.value? .bootImage).toList ++ settings.bootImage.toList
  let saves := [SaveKind.ram, .clock].map (saveLocation settings.saveFolder o.image)
  let outputs := [Command.Setting.screenshot, .wave, .videoDump].filterMap o.value?
  (o.image :: boot ++ saves ++ outputs).foldlM (look home) s

def tellTime (origin : Nat) (s : Session Float) : IO (Session Float) := do
  let calendar ← calendarNow
  let uptime := (← IO.monoMsNow) - origin
  return { s with console := s.console.updateHost ({ · with calendar, uptime }) }

/-- Goes through the rounds of a session against the clock. -/
partial def live (p : Command.Prepared Float) (env : Environment) (origin : Nat) :
    Session Float → IO (Option Fault × Session Float) := fun s => do
  let s ← tellTime origin s
  match s.round (p.limits.ask s).1 with
  | (.ends fault, s) => return (fault, s)
  | (.goesOn, s) =>
    let before := s.console.machine.bus.host.storage
    let s := s.proceed
    let host ← printLog env s.console.machine.bus.host
    if host.storage.journal.length ≠ before.journal.length then writeChanges before host.storage
    let s := { s with console := s.console.updateHost fun _ => host }
    if p.paced then
      let due := s.console.playingTime
      let now := (← IO.monoMsNow) - origin
      if now < due then IO.sleep (due - now).toUInt32
    live p env origin s

def execute (o : Command.Options) : IO UInt32 := do
  let env ← readEnvironment
  let home := Storage.follow [] (← IO.currentDir).toString
  let storage ← lookAll o env home
  let origin ← IO.monoMsNow
  let host : Host Float := ⟨storage, none, ← calendarNow, 0, []⟩
  let (prepared, host) := (Command.prepare o env).run host
  let finish (out : Command.Outcome Float) : IO UInt32 := do
    let host ← printLog env out.host
    writeChanges storage host.storage
    if let some failure := out.failure then IO.eprintln s!"Error: {failure.describe}"
    return out.code.toUInt32
  match prepared with
  | .error failure => finish ⟨1, some failure, host⟩
  | .ok prepared =>
    let (fault, session) ← live prepared env origin prepared.session.start
    let (fault, session) := (← tellTime origin session).finish fault
    let host := session.console.machine.bus.host
    finish (.ofWork ((Command.conclude o fault session).run host))

end DotMatrix.Program

open DotMatrix

def main (words : List String) : IO UInt32 := do
  match Command.Request.ofWords words with
  | .run options => Program.execute options
  | .help =>
    IO.println Command.usage
    return 0
  | .version =>
    IO.println Command.version
    return 0
  | .misuse =>
    IO.eprintln Command.usage
    return Command.misuseCode.toUInt32
