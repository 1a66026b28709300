import Prune.Disk.Basic

/-!
From paths to locations. Resolution goes name by name from the root or from the working directory,
through directories that may be entered; links on the way are followed, at most forty of them, and
the last one if that is asked for.
-/

namespace Prune.Disk

def maxName : Nat := 255

def maxPath : Nat := 4096

def maxLinks : Nat := 40

/-- Where a path leads: to an entry, or to a free name in a directory. -/
inductive Place where
  | entry (loc : Location) (entry : Entry)
  | vacant (loc : Location)
deriving DecidableEq, Repr

def Place.location : Place → Location
  | .entry loc _ | .vacant loc => loc

def names (text : Bytes) : List Bytes := (Bytes.splitOn Path.slash text).filter (!·.isEmpty)

/-- The steps of a path: its names, and a `.` for a slash at the end, which asks for a directory. -/
def steps (text : Bytes) : List Bytes :=
  names text ++ if text.getLast? = some Path.slash then [[Path.dot]] else []

def origin (here : Location) (text : Bytes) : Location := if text.head? = some Path.slash then [] else here

/-- Takes the steps one by one from a directory. `onLink` goes on when a link is to be followed: it
gets the directory of the link and what is left to do from there. -/
def descend (d : Disk) (follow : Bool)
    (onLink : Location → List Bytes → Except Fault Place) :
    Location → List Bytes → Except Fault Place
  | here, [] => .ok (.entry here ((d.get? here).getD (.dir plainDirMode)))
  | here, s :: rest =>
    if !d.mayEnter here then .error .denied
    else if s = [Path.dot] then descend d follow onLink here rest
    else if s = [Path.dot, Path.dot] then descend d follow onLink here.dropLast rest
    else if maxName < s.length then .error .nameTooLong
    else
      let next := here ++ [s]
      match d.get? next with
      | none => if rest.isEmpty then .ok (.vacant next) else .error .notFound
      | some (.dir _) => descend d follow onLink next rest
      | some (.link target) =>
        if rest.isEmpty && !follow then .ok (.entry next (.link target))
        else onLink (origin here target) (steps target ++ rest)
      | some e => if rest.isEmpty then .ok (.entry next e) else .error .notDirectory

def walkSteps (d : Disk) (follow : Bool) : Nat → Location → List Bytes → Except Fault Place
  | 0 => descend d follow fun _ _ => .error .tooManyLinks
  | links + 1 => descend d follow (walkSteps d follow links)

def checkText (text : Bytes) : Except Fault Unit :=
  if text.elem 0 then .error .zeroInPath
  else if text.isEmpty then .error .notFound
  else if maxPath ≤ text.length then .error .nameTooLong
  else .ok ()

def resolve (d : Disk) (follow : Bool) (p : Path) : Except Fault Place := do
  checkText p.text
  walkSteps d follow maxLinks (origin d.cwd p.text) (steps p.text)

/-- A name in a directory, which a path ends in without following it. -/
inductive Spot where
  | named (dir : Location) (name : Bytes)
  | unnamed
deriving DecidableEq, Repr

def locate (d : Disk) (p : Path) : Except Fault Spot := do
  checkText p.text
  let ns := names p.text
  match ns.getLast? with
  | none => return .unnamed
  | some last =>
    match ← walkSteps d true maxLinks (origin d.cwd p.text) (ns.dropLast) with
    | .vacant _ => .error .notFound
    | .entry dir (.dir mode) =>
      if !allows mode runBit then .error .denied
      else if last = [Path.dot] || last = [Path.dot, Path.dot] then return .unnamed
      else if maxName < last.length then .error .nameTooLong
      else return .named dir last
    | .entry .. => .error .notDirectory

def endsInSlash (p : Path) : Bool := p.text.getLast? == some Path.slash

end Prune.Disk
