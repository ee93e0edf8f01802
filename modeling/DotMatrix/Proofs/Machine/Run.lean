import DotMatrix.Proofs.Cpu.Control
import DotMatrix.Proofs.Cpu.Traffic
import DotMatrix.Proofs.Machine.Meanwhile

/-!
# Runs of a machine

A run is a sequence of steps with anything in between that the surroundings may do, and it
records what each step did. What a new machine has, and what the processor, the passing of time
and the surroundings keep, every machine has that a run leads to (`Reachable.invariant`).
-/

namespace DotMatrix

variable {τ : Type}

namespace Machine

/-- What the next step does. -/
def action (m : Machine τ) : Action := Core.stepAction m.cpu m.bus

variable [Timeline τ]

/-- The machine after some steps, and what each of them did. -/
inductive Run (m : Machine τ) : List Action → Machine τ → Prop where
  | start : Run m [] m
  | step {actions : List Action} {m' : Machine τ} (before : Run m actions m') :
      Run m (actions ++ [m'.action]) m'.step.2
  | meanwhile {actions : List Action} {m' m'' : Machine τ} (before : Run m actions m')
      (between : m'.Meanwhile m'') : Run m actions m''

/-- A machine that a run of a new machine leads to. -/
def Reachable (m : Machine τ) : Prop :=
  ∃ cartridge host boot actions, Run (create cartridge host boot) actions m

/-! ## One step -/

theorem cpu_step (m : Machine τ) : m.step.2.cpu = (Core.step m.cpu m.bus).1.cpu := by
  unfold step
  split <;> rename_i h <;> rw [h]

theorem bus_step (m : Machine τ) :
    m.step.2.bus =
      if (Core.step m.cpu m.bus).2.isSome then (Core.step m.cpu m.bus).1.bus
      else ((Core.step m.cpu m.bus).1.bus.advance (Core.step m.cpu m.bus).1.cycles).2 := by
  unfold step
  split <;> rename_i h <;> rw [h] <;> rfl

theorem saving_step (m : Machine τ) : m.step.2.saving = m.saving := by
  unfold step
  split <;> rfl

theorem switch_step (m : Machine τ) :
    m.step.2.cpu.ime = m.action.imeAfter m.cpu.ime m.cpu.enabling ∧
      m.step.2.cpu.enabling = m.action.enablingAfter m.cpu.enabling := by
  rw [cpu_step]
  exact Core.switch_step m.cpu m.bus

/-- What the copy to object memory, the processor and the passing of time keep, a step keeps. -/
theorem step_invariant {P : Bus τ → Prop}
    (hcopy : ∀ b, P b → P b.runDma.2)
    (hcpu : ∀ b b', b.Becomes b' → P b → P b')
    (htime : ∀ b cycles, P b → P (b.advance cycles).2)
    {m : Machine τ} (h : P m.bus) : P m.step.2.bus := by
  have hcore := hcpu _ _ (Core.becomes_step m.cpu m.bus) (hcopy _ h)
  rw [bus_step]
  split
  -- after a fault no time passes
  · exact hcore
  · exact htime _ _ hcore

/-! ## Runs -/

theorem Run.trans {a b c : Machine τ} {first second : List Action} (hab : Run a first b)
    (hbc : Run b second c) : Run a (first ++ second) c := by
  induction hbc with
  | start => rwa [List.append_nil]
  | step _ ih =>
    rw [← List.append_assoc]
    exact ih.step
  | meanwhile _ hbetween ih => exact ih.meanwhile hbetween

theorem run_step (m : Machine τ) : Run m [m.action] m.step.2 := Run.step .start

theorem Run.invariant {P : Machine τ → Prop} (hstep : ∀ m, P m → P m.step.2)
    (hbetween : ∀ m m', m.Meanwhile m' → P m → P m') {m m' : Machine τ} {actions : List Action}
    (h : Run m actions m') (hm : P m) : P m' := by
  induction h with
  | start => exact hm
  | step _ ih => exact hstep _ ih
  | meanwhile _ between ih => exact hbetween _ _ between ih

namespace Reachable

theorem create (cartridge : Cartridge τ) (host : Host τ) (boot : Option BootImage) :
    (Machine.create cartridge host boot).Reachable :=
  ⟨cartridge, host, boot, [], .start⟩

theorem step {m : Machine τ} (h : m.Reachable) : m.step.2.Reachable := by
  obtain ⟨cartridge, host, boot, actions, hrun⟩ := h
  exact ⟨cartridge, host, boot, _, hrun.step⟩

theorem meanwhile {m m' : Machine τ} (h : m.Reachable) (hm : m.Meanwhile m') : m'.Reachable := by
  obtain ⟨cartridge, host, boot, actions, hrun⟩ := h
  exact ⟨cartridge, host, boot, actions, hrun.meanwhile hm⟩

theorem invariant {P : Machine τ → Prop}
    (hcreate : ∀ cartridge host boot, P (Machine.create cartridge host boot))
    (hstep : ∀ m, P m → P m.step.2) (hbetween : ∀ m m', m.Meanwhile m' → P m → P m')
    {m : Machine τ} (h : m.Reachable) : P m := by
  obtain ⟨cartridge, host, boot, actions, hrun⟩ := h
  exact hrun.invariant hstep hbetween (hcreate cartridge host boot)

end Reachable

/-! ## Frames and cycles -/

section Frames

variable {P : Machine τ → Prop} (hstep : ∀ m, P m → P m.step.2)
include hstep

theorem run_invariant (stop : Bool → Machine τ → Bool) {m : Machine τ} (h : P m) (steps : Nat) :
    P (m.run stop steps).2 := by
  -- a run ends with a fault, when it is told to stop, or when its steps are used up
  induction steps generalizing m with
  | zero => exact h
  | succ steps ih =>
    have hnext := hstep m h
    unfold run
    split <;> rename_i hresult <;> rw [hresult] at hnext
    · exact hnext
    · split
      · exact hnext
      · exact ih hnext

variable (hcollect : ∀ m, P m → P m.collectCommit)
include hcollect

/-- What steps and the picking up of a snapshot keep, a frame keeps, also one that ends in a
fault. -/
theorem runFrame_invariant {m : Machine τ} (h : P m) : P m.runFrame.2 := by
  unfold runFrame
  dsimp only
  split <;> rename_i hresult <;>
    have hrun := congrArg Prod.snd hresult ▸ run_invariant hstep _ h frameSteps
  · exact hrun
  · exact hcollect _ hrun

theorem runCycles_invariant {m : Machine τ} (h : P m) (cycles : Nat) :
    P (m.runCycles cycles).2 := by
  unfold runCycles
  split
  · exact hcollect m h
  · dsimp only
    split <;> rename_i hresult <;>
      have hrun := congrArg Prod.snd hresult ▸
        run_invariant hstep _ h (cycles / machineCycle + 1)
    · exact hrun
    · exact hcollect _ hrun

end Frames

theorem reachable_runFrame {m : Machine τ} (h : m.Reachable) : m.runFrame.2.Reachable :=
  runFrame_invariant (fun _ hm => hm.step)
    (fun m hm => hm.meanwhile (meanwhile_collectCommit m)) h

theorem reachable_runCycles {m : Machine τ} (h : m.Reachable) (cycles : Nat) :
    (m.runCycles cycles).2.Reachable :=
  runCycles_invariant (fun _ hm => hm.step)
    (fun m hm => hm.meanwhile (meanwhile_collectCommit m)) h cycles

/-! ## Programs -/

/-- A cartridge without a bank controller, that holds a program at the address that machines start
at. -/
def programCartridge (code : List UInt8) : Cartridge Float where
  rom := ⟨(List.replicate 0x100 0 ++ code).toArray⟩
  ram := .create 0
  capability := ⟨0, .romOnly, false, false, false, false, 0, 2⟩
  title := ""
  color := false
  controller := .fixed
  paths := none
  commit := none

def ofProgram (code : List UInt8) : Machine Float :=
  create (programCartridge code) ⟨default, none, 0, 0, []⟩ none

/-- The machine after some steps. -/
def afterSteps (m : Machine τ) : Nat → Machine τ
  | 0 => m
  | n + 1 => (afterSteps m n).step.2

theorem reachable_ofProgram (code : List UInt8) : (ofProgram code).Reachable :=
  .create (programCartridge code) ⟨default, none, 0, 0, []⟩ none

theorem reachable_afterSteps {m : Machine τ} (h : m.Reachable) (n : Nat) :
    (m.afterSteps n).Reachable := by
  induction n with
  | zero => exact h
  | succ n ih => exact ih.step

end Machine

end DotMatrix
