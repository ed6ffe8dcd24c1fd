import Chip8.Debugger.Glyph
import Chip8.Debugger.View

/-!
The panels of the debugger laid out in a rectangle of character cells.
-/

namespace Chip8.Screen

/-- What each cell of a row shows, left to right. -/
abbrev Row := List String

/-- Cuts or fills a line to `width` cells. A centred line is first cut, and then half of its width
is put left of the middle. -/
def fit (width : Nat) (centred : Bool) (line : List Char) : Row :=
  let cells := Glyph.clip width (Glyph.ofLine line)
  let offset := if centred then width / 2 - cells.length / 2 else 0
  (List.replicate offset " " ++ cells).rightpad width " "

/-- A row with its first and last cell replaced. Of a single cell only the first is seen. -/
private def edged (width : Nat) (left right : String) (inner : Row) : Row :=
  match width with
  | 0 => []
  | 1 => [left]
  | n + 2 => left :: (inner.take n).rightpad n " " ++ [right]

private def edge (width : Nat) (left right : String) (title : List Char) : Row :=
  edged width left right ((title.map Char.toString).rightpad width "─")

/-- A frame with a title in its upper edge and lines inside it. -/
def box (width height : Nat) (title : String) (centred : Bool) (lines : List (List Char)) :
    List Row :=
  match height with
  | 0 => []
  | 1 => [edge width "┌" "┐" title.toList]
  | n + 2 =>
    let body := (lines.take n).rightpad n []
    [edge width "┌" "┐" title.toList]
      ++ body.map (fun line => edged width "│" "│" (fit (width - 2) centred line))
      ++ [edge width "└" "┘" []]

def panel (width height : Nat) (title : String) (centred : Bool) (lines : List StyledLine) :
    List Row :=
  box width height title centred (lines.map fun l => l.text.toList)

def sidebarWidth : Nat := 24

/-- Puts `inner` in the middle of an empty area. An odd cell is left on its upper left. -/
def centre (width height innerWidth : Nat) (inner : List Row) : List Row :=
  let margin (outer size : Nat) : Nat := (outer - size + 1) / 2
  let empty := List.replicate width " "
  let rows := List.replicate (margin height inner.length) empty
    ++ inner.map fun row =>
        (List.replicate (margin width innerWidth) " " ++ row).rightpad width " "
  rows.rightpad height empty

def tooSmall (width height minWidth minHeight : Nat) : List Row :=
  let text := "Terminal too small, need " ++ minWidth.repr ++ "x" ++ minHeight.repr
  centre width height (min 45 width) (box (min 45 width) (min 3 height) "" true [text.toList])

/-- The lines of a text. -/
def textLines (s : String) : List (List Char) :=
  match s.toList.splitOn '\n' with
  | [[]] => []
  | lines => if lines.getLast? = some [] then lines.dropLast else lines

def mainColumn (t : Terminal) (width height : Nat) : List Row :=
  let displayHeight := t.machine.display.height + 2
  panel width displayHeight " Display " true (View.screen t.machine.display)
    ++ box width (height - displayHeight - 3) " Output " false (textLines t.output)
    ++ box width 3 " Command " false [("> " ++ t.input).toList]

def sidebar (t : Terminal) (height : Nat) : List Row :=
  let m := t.machine
  panel sidebarWidth 3 " State " true [View.status t.debugger]
    ++ panel sidebarWidth 12 " Registers " false (View.registers m)
    ++ panel sidebarWidth 6 " Keypad " true (View.keypad m.keypad)
    ++ panel sidebarWidth 6 " Stack " false (View.stack m.stack 4)
    ++ panel sidebarWidth (height - 27) " Code " false
        (View.code m t.debugger.breakpoints (height - 29))

/-- The debugger drawn in `width` by `height` cells, or a note that they are too few. -/
def render (t : Terminal) (width height : Nat) : List Row :=
  let minWidth := t.machine.display.width + 2 + sidebarWidth
  let minHeight := t.machine.display.height + 2 + 3 + 3
  if width < minWidth ∨ height < minHeight then tooSmall width height minWidth minHeight
  else List.zipWith (· ++ ·) (mainColumn t (width - sidebarWidth) height) (sidebar t height)

end Chip8.Screen
