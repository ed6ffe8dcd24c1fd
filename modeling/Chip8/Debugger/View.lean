import Chip8.Debugger.Terminal

/-!
What the panels of the debugger show.
-/

namespace Chip8

inductive Color where
  | black
  | white
  | red
  | green
  | yellow
  | cyan
  | darkGray
  deriving DecidableEq, Repr

structure Style where
  foreground : Option Color := none
  background : Option Color := none
  deriving DecidableEq, Repr

structure Span where
  text : String
  style : Style := {}
  deriving DecidableEq, Repr

/-- A line of spans; their styles come on top of its own. -/
structure StyledLine where
  spans : List Span
  style : Style := {}
  deriving DecidableEq, Repr

namespace StyledLine

def plain (text : String) : StyledLine := { spans := [{ text }] }

def styled (text : String) (style : Style) : StyledLine := { spans := [{ text }], style }

def text (l : StyledLine) : String := String.join (l.spans.map Span.text)

@[simp] theorem text_plain (text : String) : (plain text).text = text := String.empty_append

@[simp] theorem text_styled (text : String) (style : Style) : (styled text style).text = text :=
  String.empty_append

end StyledLine

namespace View

open StyledLine (plain styled)

def status (d : Debugger) : StyledLine :=
  let (label, color) : String × Color :=
    if d.machine.fault.isSome then ("HALTED", .red)
    else if d.machine.awaiting.isSome then ("KEY WAIT", .cyan)
    else if d.running then ("RUNNING", .green)
    else ("PAUSED", .yellow)
  styled label { foreground := some color }

def litCell : Char := '█'

def screenRow (cells : List Bool) : List Char := cells.map fun lit => if lit then litCell else ' '

def screen (d : Display) : List StyledLine :=
  d.rows.map fun cells =>
    styled (String.ofList (screenRow cells)) { foreground := some .green }

private def registerPair (m : Machine) (r : Nat) : StyledLine :=
  let cell (x : Nibble) : String := "V" ++ x.text ++ " " ++ Hex.text 2 (m.v.get x).toNat
  plain (cell (.low r) ++ "     " ++ cell (.low (r + 8)))

def registers (m : Machine) : List StyledLine :=
  [ plain ("PC " ++ Hex.text 3 m.pc.toNat ++ "    I " ++ Hex.text 3 m.index.toNat),
    plain ("DT " ++ Hex.text 2 m.delayTimer.toNat ++ "     ST " ++ Hex.text 2 m.soundTimer.toNat) ]
    ++ (List.range 8).map (registerPair m)

/-- Keys that are down are shown in reverse. -/
private def keySpan (pad : Keypad) (k : Nibble) : Span where
  text := k.text
  style := if pad.isDown k then { foreground := some .black, background := some .white } else {}

def keypad (pad : Keypad) : List StyledLine :=
  KeypadLayout.face.map fun keys =>
    { spans := (keys.map (keySpan pad)).intersperse { text := " " } }

private def padLeft (width : Nat) (s : String) : String :=
  String.ofList (List.replicate (width - s.length) ' ') ++ s

/-- At most `count` return addresses, the innermost first, with their depths. -/
def stack (s : CallStack) (count : Nat) : List StyledLine :=
  if s.entries.isEmpty then [styled "empty" { foreground := some .darkGray }]
  else (s.fromBottom.zipIdx.reverse.take count).map fun (a, depth) =>
    plain (padLeft 2 depth.repr ++ "  " ++ Hex.text 3 a.toNat)

/-- Up to `count` words from number `a` on, as far as the number is an address of 16 bits and the
word lies in memory. -/
def codeWords (m : Memory) : Nat → Nat → List (UInt16 × UInt16)
  | 0, _ => []
  | n + 1, a =>
    if a < UInt16.size then
      match m.readWord a with
      | .ok word => (.ofNat a, word) :: codeWords m n (a + 2)
      | .error _ => []
    else []

/-- The instructions from the program counter on. A star marks a breakpoint. -/
def code (m : Machine) (breakpoints : Breakpoints) (count : Nat) : List StyledLine :=
  (codeWords m.memory count m.pc.toNat).map fun (a, word) =>
    let marker := if breakpoints.contains a then "*" else " "
    let text := marker ++ Hex.text 3 a.toNat ++ " " ++ (Instruction.decode word).text
    if a = m.pc then styled text { foreground := some .black, background := some .yellow }
    else plain text

end View

end Chip8
