import DotMatrix.Console
import DotMatrix.Recording.Wave

/-!
# Session

A console together with what stands around it: a screen and speakers, if there are any, and
someone who asks for things. What the speakers play may be recorded. In every round the requests
are heard first; then the screen and the speakers get what is new, and the console goes on for a
frame. A session ends when it is asked to, or after a fault. Then the console is stopped, and the
screen and the speakers get the rest.
-/

namespace DotMatrix

/-- What was asked for since the last round. -/
structure Requests where
  quit : Bool
  buttons : Option Buttons
  pause : Option Bool
  speed : Option Float

def Requests.none : Requests := ⟨false, Option.none, Option.none, Option.none⟩

structure Screen where
  frame : Option Display.Frame
  shown : Nat

namespace Screen

def blank : Screen := ⟨none, 0⟩

/-- Shows a frame; without a new one the last stays. -/
def display (s : Screen) : Option Display.Frame → Screen
  | some frame => ⟨some frame, s.shown + 1⟩
  | none => s

end Screen

structure Speakers where
  /-- The runs of samples played, the latest first. -/
  played : List Sound.AudioFrame
  /-- How often they were told that there is no more to come. -/
  stops : Nat
  recorder : Option Recording.Recorder

namespace Speakers

def silent : Speakers := ⟨[], 0, none⟩

def play (s : Speakers) (frame : Sound.AudioFrame) : StateM Storage Speakers := do
  let recorder ← s.recorder.mapM (·.play frame)
  return { s with played := frame :: s.played, recorder }

/-- There is no more to come: the recording ends. -/
def stop {τ : Type} (s : Speakers) : StateM (Host τ) Speakers := do
  if let some recorder := s.recorder then
    Host.onStorage recorder.finish
    modify (·.info s!"Wrote {recorder.frames} audio frames")
  return { s with stops := s.stops + 1, recorder := none }

end Speakers

structure Session (τ : Type) where
  console : Console τ
  screen : Option Screen
  speakers : Option Speakers

namespace Session

variable {τ : Type}

def render (s : Session τ) : Session τ :=
  match s.screen with
  | none => s
  | some screen =>
    let (frame, console) := s.console.takeFrame
    { s with console, screen := some (screen.display frame) }

/-- Lets the speakers do something with the host, if there are any. -/
def onSpeakers (s : Session τ) (work : Speakers → StateM (Host τ) Speakers) : Session τ :=
  match s.speakers with
  | none => s
  | some speakers =>
    let (speakers, host) := (work speakers).run s.console.machine.bus.host
    { s with console := s.console.updateHost fun _ => host, speakers := some speakers }

def playAudio (s : Session τ) : Session τ :=
  if s.speakers.isNone then s
  else
    let (frames, console) := s.console.takeAllAudio s.console.machine.bus.sound.queue.size
    { s with console }.onSpeakers fun speakers =>
      Host.onStorage (frames.foldlM Speakers.play speakers)

/-- Does what was asked for. A new speed is set while the console is paused. -/
def hear (s : Session τ) (r : Requests) : Session τ :=
  let c := s.console
  let c := (r.buttons.map c.press).getD c
  let c := if r.pause.isSome then c.setPause r.pause else c
  let c :=
    match r.speed with
    | some speed => ((c.setPause (some true)).setSpeed speed).setPause (some c.paused)
    | none => c
  { s with console := c }

/-- How a round ends: the session goes on, or it ends with or without a fault. -/
inductive Verdict where
  | goesOn
  | ends (fault : Option Fault)
deriving DecidableEq, Repr, Inhabited

/-- The first part of a round: hears the requests, and shows and plays what is new. -/
def round (s : Session τ) (r : Requests) : Verdict × Session τ :=
  let s := s.hear r
  if r.quit then (.ends none, s)
  else
    match s.console.takeFault with
    | (some fault, console) => (.ends (some fault), { s with console })
    | (none, _) => (.goesOn, s.render.playAudio)

def start (s : Session τ) : Session τ :=
  { s with console := s.console.start.updateHost (·.info "Emulation running") }

def roundTime : Nat := 2

variable [Timeline τ]

/-- The second part of a round: the console goes on for a frame, and time passes. -/
def proceed (s : Session τ) : Session τ :=
  { s with console :=
      s.console.frame.updateHost fun host => { host with uptime := host.uptime + roundTime } }

def finish (s : Session τ) (fault : Option Fault) : Option Fault × Session τ :=
  let s := ({ s with console := s.console.stop } : Session τ).render.playAudio
  let s := s.onSpeakers Speakers.stop
  match fault with
  | some fault => (some fault, s)
  | none =>
    let (fault, console) := s.console.takeFault
    (fault, { s with console })

/-- Goes through rounds until the session ends, at most as many as the first argument says. Before
each round `ask` is asked for requests. -/
def rounds {σ : Type} (ask : σ → Session τ → Requests × σ) :
    Nat → σ → Session τ → Option Fault × Session τ
  | 0, _, s => (none, s)
  | n + 1, wishes, s =>
    let (requests, wishes) := ask wishes s
    match s.round requests with
    | (.ends fault, s) => (fault, s)
    | (.goesOn, s) => rounds ask n wishes s.proceed

def run {σ : Type} (limit : Nat) (ask : σ → Session τ → Requests × σ) (wishes : σ)
    (s : Session τ) : Option Fault × Session τ :=
  let (fault, s) := rounds ask limit wishes s.start
  s.finish fault

end Session

end DotMatrix
