import Chip8.Monitor.Scenario

/-!
A window that shows the display with an afterglow. Lit cells are at full brightness at once, and
unlit ones fade.
-/

namespace Chip8

structure Window where
  session : Monitor
  /-- The brightness of the cells, row by row. -/
  glow : List Float32
  /-- The thread that executes, until it has been stopped. -/
  cpu : Option Nat

inductive RedrawError where
  | surfaceMissing
  | execution (cause : StepError)
  deriving DecidableEq, Repr

def RedrawError.message : RedrawError → String
  | surfaceMissing => "Window surface missing"
  | execution cause => "Chip8 execution error: " ++ cause.message

namespace Window

/-- The brightness that an unlit cell loses in a second. -/
def decay : Float32 := 10

def start (m : Machine) : Window where
  session := .start m
  glow := List.replicate (m.display.width * m.display.height) 0
  cpu := none

/-- Brightness after `dt` seconds without light. It ends at zero, also when there is no telling
how much time has passed. -/
def fade (dt level : Float32) : Float32 :=
  let faded := level - decay * dt
  if 0 < faded then faded else 0

def updateGlow (w : Window) (dt : Float32) : Window :=
  let d := w.session.machine.display
  { w with glow := w.glow.mapIdx fun i level =>
      if d.pixel (i % d.width) (i / d.width) then 1 else fade dt level }

/-- Whether the thread that executes has ended by itself. -/
def cpuEnded (w : Window) : Option Nat :=
  match w.cpu with
  | none => none
  | some t =>
    match w.session.stage? t with
    | some (.finished _) => some t
    | _ => none

/-- Draws a frame, for which there is no surface. The glow goes to the surface with the frame and
so is lost with it. A machine that has faulted is reported first. -/
def redrawWithoutSurface (fuel : Nat) (w : Window) (dt : Float32) : RedrawError × Window :=
  match w.cpuEnded with
  | none => (.surfaceMissing, { w.updateGlow dt with glow := [] })
  | some t =>
    let (result, session) := w.session.stopThread fuel t
    let w := { w with session, cpu := none }
    match result with
    | .error cause => (.execution cause, w)
    | .ok () => (.surfaceMissing, { w.updateGlow dt with glow := [] })

/-- Starts the thread that executes and lets it run to its end. -/
def runCpu (fuel : Nat) (w : Window) : Window :=
  let t := w.session.threads.length
  { w with session := (w.session.spawn .cpu).settle fuel t, cpu := some t }

end Window

end Chip8
