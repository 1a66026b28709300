import Prune.Text.Bytes

/-!
Text without what a terminal would take for a control: escape sequences, and control characters other
than white space. A sequence begins with ESC and goes on as long as its kind allows; white space in the
middle of one is printed and ends it.
-/

namespace Prune.Text.Terminal

inductive State where
  | ground
  | escape
  | escapeIntermediate
  | csiEntry
  | csiParameter
  | csiIntermediate
  | csiIgnore
  | dcsEntry
  | dcsParameter
  | dcsIntermediate
  | dcsPassthrough
  | dcsIgnore
  | oscString
  /-- A string that is meant for nobody. -/
  | string

inductive Action where
  | print | execute | swallow

def isControl (n : Nat) : Bool := n < 0x20 && n != 0x18 && n != 0x1A && n != 0x1B

def isBetween (low high n : Nat) : Bool := low ≤ n && n ≤ high

def startsCharacter (n : Nat) : Bool := isBetween 0xC2 0xF4 n

def continuesCharacter (n : Nat) : Bool := isBetween 0x80 0xBF n

def State.inSequence (s : State) (n : Nat) : State × Action :=
  let intermediate := isBetween 0x20 0x2F n
  let parameter := isBetween 0x30 0x3B n
  let mark := isBetween 0x3C 0x3F n
  let final := isBetween 0x40 0x7E n
  match s with
  | .ground =>
    (.ground, if n < 0x20 then .execute else if n < 0x80 || startsCharacter n then .print else .swallow)
  | .escape =>
    if isControl n then (s, .execute)
    else if intermediate then (.escapeIntermediate, .swallow)
    else if n = 0x5B then (.csiEntry, .swallow)
    else if n = 0x5D then (.oscString, .swallow)
    else if n = 0x50 then (.dcsEntry, .swallow)
    else if n = 0x58 || n = 0x5E || n = 0x5F then (.string, .swallow)
    else if isBetween 0x30 0x7E n then (.ground, .swallow)
    else (s, .swallow)
  | .escapeIntermediate =>
    if isControl n then (s, .execute)
    else if isBetween 0x30 0x7E n then (.ground, .swallow)
    else (s, .swallow)
  | .csiEntry =>
    if isControl n then (s, .execute)
    else if intermediate then (.csiIntermediate, .swallow)
    else if parameter || mark then (.csiParameter, .swallow)
    else if final then (.ground, .swallow)
    else (s, .swallow)
  | .csiParameter =>
    if isControl n then (s, .execute)
    else if intermediate then (.csiIntermediate, .swallow)
    else if mark then (.csiIgnore, .swallow)
    else if final then (.ground, .swallow)
    else (s, .swallow)
  | .csiIntermediate =>
    if isControl n then (s, .execute)
    else if parameter || mark then (.csiIgnore, .swallow)
    else if final then (.ground, .swallow)
    else (s, .swallow)
  | .csiIgnore =>
    if isControl n then (s, .execute)
    else if final then (.ground, .swallow)
    else (s, .swallow)
  | .dcsEntry =>
    if intermediate then (.dcsIntermediate, .swallow)
    else if parameter || mark then (.dcsParameter, .swallow)
    else if final then (.dcsPassthrough, .swallow)
    else (s, .swallow)
  | .dcsParameter =>
    if intermediate then (.dcsIntermediate, .swallow)
    else if mark then (.dcsIgnore, .swallow)
    else if final then (.dcsPassthrough, .swallow)
    else (s, .swallow)
  | .dcsIntermediate =>
    if parameter || mark then (.dcsIgnore, .swallow)
    else if final then (.dcsPassthrough, .swallow)
    else (s, .swallow)
  | .dcsPassthrough | .dcsIgnore => (if n = 0x9C then .ground else s, .swallow)
  | .oscString => (if n = 0x07 then .ground else s, .swallow)
  | .string => (if n = 0x9C then .ground else s, .swallow)

def State.next (s : State) (n : Nat) : State × Action :=
  if n = 0x1B then (.escape, .swallow)
  else if n = 0x18 || n = 0x1A then (.ground, .execute)
  else s.inSequence n

def isSpacing (n : Nat) : Bool := n == 0x09 || n == 0x0A || n == 0x0C || n == 0x0D

def isPrinted (a : Action) (n : Nat) : Bool :=
  match a with
  | .print => n != 0x7F
  | .execute => isSpacing n
  | .swallow => false

/-- What is printed of a text that stands at `s`, where `printing` says that the byte before was
printed. A printed byte ends any sequence. -/
def printed : (printing : Bool) → State → Bytes → Bytes
  | _, _, [] => []
  | printing, s, b :: rest =>
    let n := b.toNat
    let (after, action) := s.next n
    if (printing && continuesCharacter n) || isPrinted action n then b :: printed true .ground rest
    else printed false after rest

end Prune.Text.Terminal

namespace Prune.Text

def shown (s : String) : String := Utf8.lossy (Terminal.printed false .ground (Bytes.ofString s))

end Prune.Text
