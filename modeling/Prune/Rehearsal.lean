import Prune.Disk.Arrange
import Prune.World

/-!
Builds that are answered by a rule instead of a tool, for trying out a sweep. A script may also
change the disk during a build, and cut the run off at one.
-/

namespace Prune

inductive Action where
  | write (path : Path) (content : Bytes) (mode : Option Nat)
  | makeDirectory (path : Path)
  | link (path : Path) (target : Bytes)
  | remove (path : Path)
  | setMode (path : Path) (mode : Nat)
  | rename (source target : Path)
deriving DecidableEq, Repr

namespace Action

def withParents (d : Disk) (p : Path) : Except Fault Disk :=
  match p.parent? with
  | some dir => if dir.isEmpty then .ok d else d.makeDirectories dir
  | none => .ok d

def perform : Action → Disk → Except Fault Disk
  | .write p content mode, d => do
    let d ← (← withParents d p).write p content
    match mode with
    | some m => d.setMode p m
    | none => return d
  | .makeDirectory p, d => d.makeDirectories p
  | .link p target, d => do (← withParents d p).makeLink p target
  | .remove p, d => .ok (d.clear p)
  | .setMode p mode, d => d.setMode p mode
  | .rename source target, d => d.rename source target

/-- An action that cannot be carried out changes nothing. -/
def apply (d : Disk) (a : Action) : Disk :=
  match a.perform d with
  | .ok d | .error _ => d

def applyAll (d : Disk) (actions : List Action) : Disk := actions.foldl apply d

end Action

namespace Rehearsal

inductive Rule where
  | always (verdict : Bool)
  /-- The file can be read and holds the bytes. -/
  | contains (path : Path) (needle : Bytes)
  | exists (path : Path)
  | all (rules : List Rule)
  | any (rules : List Rule)
  | not (rule : Rule)
  /-- The first rule for the first build, and so on; the last one for all later builds. -/
  | inTurn (rules : List Rule)
  | project (path : Path)
  | configuration (name : String)

mutual

def Rule.verdict (n : Nat) (call : BuildCall) (d : Disk) : Rule → Bool
  | .always verdict => verdict
  | .contains path needle =>
    match d.read path with
    | .ok content => needle.occursIn content
    | .error _ => false
  | .exists path => d.exists? path
  | .all rules => Rule.verdictAll n call d rules
  | .any rules => Rule.verdictAny n call d rules
  | .not rule => !rule.verdict n call d
  | .inTurn rules => Rule.verdictTurn n call d (n - 1) rules
  | .project path => call.project.same path
  | .configuration name => call.configuration == name

def Rule.verdictAll (n : Nat) (call : BuildCall) (d : Disk) : List Rule → Bool
  | [] => true
  | r :: rs => r.verdict n call d && Rule.verdictAll n call d rs

def Rule.verdictAny (n : Nat) (call : BuildCall) (d : Disk) : List Rule → Bool
  | [] => false
  | r :: rs => r.verdict n call d || Rule.verdictAny n call d rs

def Rule.verdictTurn (n : Nat) (call : BuildCall) (d : Disk) : Nat → List Rule → Bool
  | _, [] => false
  | _, [r] | 0, r :: _ => r.verdict n call d
  | skip + 1, _ :: rs => Rule.verdictTurn n call d skip rs

end

structure Script where
  rule : Rule
  /-- The build at which the run is cut off. -/
  cutAt : Option Nat
  /-- What is done during which build. -/
  actions : List (Nat × List Action)

/-- The builds of a script: the actions first, then the cut or the verdict. -/
def Script.oracle (s : Script) : Oracle := fun n call h =>
  let d := Action.applyAll h.disk ((s.actions.lookup n).getD [])
  { toHost := { h with disk := d }
    verdict := if s.cutAt = some n then none else some (s.rule.verdict n call d)
    notes := [] }

end Rehearsal

end Prune
