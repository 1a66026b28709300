import Prune.Backup
import Prune.Lines

/-!
One pass over a source. From top to bottom each candidate line is blanked and the project is built:
a line the build does without stays out, any other comes back. At the end blanked lines are dropped.
-/

namespace Prune.Pass

def target : String := "sweeper_engine::minimizer"

structure Candidate where
  /-- Its place among the lines, from zero. -/
  index : Nat
  text : String
deriving DecidableEq, Repr

def Candidate.number (c : Candidate) : Nat := c.index + 1

structure Finding where
  candidate : Candidate
  removed : Bool
deriving DecidableEq, Repr

structure Report where
  path : Path
  findings : List Finding
deriving DecidableEq, Repr

def Report.removed (r : Report) : List Finding := r.findings.filter (·.removed)

inductive Problem where
  | read (path : Path) (cause : Fault)
  | write (path : Path) (cause : Fault)
  | backup (problem : Backup.Problem)
deriving DecidableEq, Repr

def Problem.message : Problem → String
  | .read path cause => s!"failed to read {path.display}: {cause.message}"
  | .write path cause => s!"failed to write {path.display}: {cause.message}"
  | .backup problem => problem.message

def candidatesFrom (m : Directive.Matcher) : Nat → List Bytes → List Candidate
  | _, [] => []
  | index, line :: rest =>
    let body := Lines.body line
    if m.accepts body then ⟨index, Text.trimEnd (Utf8.lossy body)⟩ :: candidatesFrom m (index + 1) rest
    else candidatesFrom m (index + 1) rest

def candidates (m : Directive.Matcher) (lines : List Bytes) : List Candidate := candidatesFrom m 0 lines

def trials (oracle : Oracle) (call : BuildCall) (path : Path) (lines : List Bytes) :
    List Candidate → List Lines.State → Run (Except Problem (List Finding × List Lines.State))
  | [], states => return .ok ([], states)
  | c :: rest, states => do
    let blanked := states.set c.index .blanked
    match ← Work.replace path (Lines.render lines blanked) with
    | .error f => return .error (.write path f)
    | .ok () =>
      let passed ← Run.build oracle call
      if passed then
        Work.report .info target "redundant directive removed"
          [("file", .path path), ("line", .number c.number), ("text", .shown c.text)]
      else Work.report .debug target "directive required" [("file", .path path), ("line", .number c.number)]
      match ← trials oracle call path lines rest (if passed then blanked else states) with
      | .error e => return .error e
      | .ok (findings, final) => return .ok (⟨c, passed⟩ :: findings, final)

def run (oracle : Oracle) (call : BuildCall) (m : Directive.Matcher) (path : Path) :
    Run (Except Problem Report) := do
  match (← Work.disk).read path with
  | .error f => return .error (.read path f)
  | .ok content =>
    let lines := Lines.split content
    let cs := candidates m lines
    Work.report .debug target "starting pass" [("file", .path path), ("candidates", .number cs.length)]
    match ← trials oracle call path lines cs (List.replicate lines.length .present) with
    | .error e => return .error e
    | .ok (findings, states) =>
      if cs.isEmpty then return .ok ⟨path, findings⟩
      else
        match ← Work.replace path (Lines.render lines (states.map Lines.State.settle)) with
        | .error f => return .error (.write path f)
        | .ok () => return .ok ⟨path, findings⟩

end Prune.Pass
