import Prune.Utility.Basic

/-!
Lines taken from a file one by one. The file is read in blocks, and no further than the lines that
are asked for need.
-/

namespace Prune.Utility

open Host Util

structure Source where
  fd : Nat
  mark : Char
  ready : List Chars
  /-- What was read of a line whose end has not been seen, the latest first. -/
  begun : List Chars
  exhausted : Bool
  fault : Option Fault

namespace Source

def ofDescriptor (fd : Nat) (mark : Char) : Source := ⟨fd, mark, [], [], false, none⟩

variable (s : Source)

def feed (block : Chars) : Source :=
  match Chars.splitAt s.mark block with
  | [] => s
  | [part] => { s with begun := part :: s.begun }
  | first :: others =>
    { s with
      ready := s.ready ++ (first :: s.begun).reverse.flatten :: others.dropLast
      begun := match others.getLastD [] with
        | [] => []
        | part => [part] }

def nextFrom : Nat → Source → Util (Option (Chars × Bool) × Source)
  | 0, s => return (none, s)
  | n + 1, s =>
    match s.ready with
    | line :: ready => return (some (line, true), { s with ready := ready })
    | [] =>
      if s.exhausted then
        if s.begun.isEmpty then return (none, s)
        else return (some (s.begun.reverse.flatten, false), { s with begun := [] })
      else do
        match ← ask (.read s.fd Act.blockSize false) with
        | .error f => nextFrom n { s with exhausted := true, fault := some f }
        | .ok [] => nextFrom n { s with exhausted := true }
        | .ok block => nextFrom n (s.feed block)

def next : Util (Option (Chars × Bool) × Source) := nextFrom Act.patience s

def ofFile (file : Chars) (mark : Char) : Util (Except Fault Source) := do
  if file = ['-'] then return .ok (ofDescriptor 0 mark)
  return (← Act.openToRead file).map (ofDescriptor · mark)

def close : Util Unit := if s.fd = 0 then return else ask (.close s.fd)

def forLinesFrom (step : σ → Chars → Bool → Util σ) : Nat → Source → σ → Util (σ × Source)
  | 0, s, state => return (state, s)
  | n + 1, s, state => do
    match ← s.next with
    | (none, s) => return (state, s)
    | (some (line, ended), s) => forLinesFrom step n s (← step state line ended)

def forLines (step : σ → Chars → Bool → Util σ) (state : σ) : Util (σ × Source) :=
  forLinesFrom step Act.patience s state

def unread : Nat :=
  (s.ready.map fun line => line.length + 1).foldl (· + ·) 0 + (s.begun.map List.length).foldl (· + ·) 0

def giveBack : Util Unit := ask (.rewind s.fd s.unread)

end Source

/-- Takes each line of files in turn, of the standard input if there are none, and goes on behind a file
that cannot be read. -/
def forEachLine (files : List Chars) (mark : Char) (step : σ → Chars → Bool → Util σ) (state : σ) :
    Util (Nat × σ) :=
  (if files.isEmpty then [['-']] else files).foldlM (fun (status, state) file => do
    match ← Source.ofFile file mark with
    | .error f =>
      complainOf file f
      return (1, state)
    | .ok s =>
      let (state, s) ← s.forLines step state
      s.close
      let some f := s.fault | return (status, state)
      complainOf file f
      return (1, state)) (0, state)

/-- Passes what can be read on in blocks. -/
def forEachBlock (step : σ → Chars → Util σ) (fd : Nat) : Nat → σ → Util (Option Fault × σ)
  | 0, state => return (none, state)
  | n + 1, state => do
    match ← ask (.read fd Act.blockSize false) with
    | .error f => return (some f, state)
    | .ok [] => return (none, state)
    | .ok block => forEachBlock step fd n (← step state block)

end Prune.Utility
