import Prune.Text.Bytes

/-!
The lines of a source. A line keeps its own terminator, so that the lines put together are the
content again, byte for byte, and a line can be blanked without moving those below it.
-/

namespace Prune

namespace Lines

/-- The lines of a content, each with its terminator; only the last may lack one. -/
def split : Bytes → List Bytes
  | [] => []
  | b :: bs =>
    if b = 0x0A then [b] :: split bs
    else
      match split bs with
      | [] => [[b]]
      | l :: ls => (b :: l) :: ls

/-- A line as body and terminator: CR LF, LF, or nothing. -/
def parts : Bytes → Bytes × Bytes
  | [] => ([], [])
  | [b] => if b = 0x0A then ([], [b]) else ([b], [])
  | [a, b] => if b = 0x0A then if a = 0x0D then ([], [a, b]) else ([a], [b]) else ([a, b], [])
  | b :: bs =>
    let (body, terminator) := parts bs
    (b :: body, terminator)

def body (line : Bytes) : Bytes := (parts line).1

def terminator (line : Bytes) : Bytes := (parts line).2

inductive State where
  | present
  /-- Only the terminator is left. -/
  | blanked
  | dropped
deriving DecidableEq, Repr

def State.apply : State → Bytes → Bytes
  | .present, line => line
  | .blanked, line => terminator line
  | .dropped, _ => []

def render (lines : List Bytes) (states : List State) : Bytes :=
  (List.zipWith State.apply states lines).flatten

/-- Blanked lines go for good. -/
def State.settle : State → State
  | .blanked => .dropped
  | s => s

end Lines

end Prune
