import Prune.Pass
import Prune.Progress
import Prune.Sources

/-!
A whole sweep: go on where an interrupted one left off, make sure that the project builds, then take
the sources one after the other. The position is kept before each source is touched, and each source
has a backup while it is worked on.
-/

namespace Prune.Sweep

def target : String := "sweeper_engine::orchestrator"

inductive Fate where
  | committed (report : Pass.Report)
  /-- The pass failed and the source has its content back. -/
  | restored (problem : Pass.Problem)
  /-- The pass failed, and the content is left in the backup. -/
  | restoreFailed (problem : Pass.Problem) (restore : Backup.Problem) (copy : Path)
  | notStarted (problem : Backup.Problem)
deriving DecidableEq, Repr

structure Summary where
  filesProcessed : Nat
  linesRemoved : Nat
  restored : List Path
  restoreFailed : List Path
  notStarted : List Path
deriving DecidableEq, Repr

namespace Summary

def empty : Summary := ⟨0, 0, [], [], []⟩

def record (s : Summary) (file : Path) (fate : Fate) : Summary :=
  let s := { s with filesProcessed := s.filesProcessed + 1 }
  match fate with
  | .committed report => { s with linesRemoved := s.linesRemoved + report.removed.length }
  | .restored _ => { s with restored := s.restored ++ [file] }
  | .restoreFailed .. => { s with restoreFailed := s.restoreFailed ++ [file] }
  | .notStarted _ => { s with notStarted := s.notStarted ++ [file] }

end Summary

inductive Outcome where
  | alreadyComplete
  | completed (summary : Summary)
deriving DecidableEq, Repr

inductive Problem where
  | baselineFailed (project : Path)
  | enumeration (root : Path) (problem : Sources.Problem)
  | trialProject (path : Path) (cause : Fault)
  | recovery (path : Path) (problem : Backup.Problem)
  | progress (problem : Progress.Problem)
deriving DecidableEq, Repr

def Problem.message : Problem → String
  | .baselineFailed project => s!"baseline build of {project.display} failed; nothing was changed"
  | .enumeration root problem => s!"failed to enumerate source files under {root.display}: {problem.message}"
  | .trialProject path cause => s!"failed to create working project {path.display}: {cause.message}"
  | .recovery path problem => s!"failed to recover interrupted file {path.display}: {problem.message}"
  | .progress problem => problem.message

def recover (file : Path) : Work (Except Problem Unit) := do
  match Backup.existing? (← Work.disk) file with
  | none =>
    Work.report .info target "interrupted file has no backup; nothing to recover" [("file", .path file)]
    return .ok ()
  | some b =>
    match ← b.restore with
    | .error e => return .error (.recovery file e)
    | .ok () =>
      Work.report .warn target "restored interrupted file from backup" [("file", .path file)]
      return .ok ()

def revert (b : Backup) (problem : Pass.Problem) : Work Fate := do
  Work.report .warn target "pass failed; restoring original content"
    [("file", .path b.live), ("error", .shown problem.message)]
  match ← b.restore with
  | .ok () => return .restored problem
  | .error e =>
    Work.report .error target "restore failed; original content left in backup"
      [("file", .path b.live), ("backup", .path b.copy), ("restore_error", .shown e.message)]
    return .restoreFailed problem e b.copy

variable (s : Settings)

def trialCall : BuildCall := ⟨s.trialProject, s.configuration⟩

variable (oracle : Oracle)

def processFile (file : Path) : Run Fate := do
  match ← Backup.create file with
  | .error e =>
    Work.report .error target "could not back up file; skipping it"
      [("file", .path file), ("error", .shown e.message)]
    return .notStarted e
  | .ok b =>
    match ← Pass.run oracle (trialCall s) s.matcher file with
    | .error e => revert b e
    | .ok report =>
      match ← b.commit with
      | .ok () => return .committed report
      | .error e => revert b (.backup e)

/-- Takes the sources that are left, the first of them at `position` in the whole list. -/
def processFiles (total : Nat) :
    Nat → List Path → Summary → Run (Except Problem Summary)
  | _, [], summary => return .ok summary
  | position, file :: rest, summary => do
    Work.report .info target "processing file"
      [("file", .path file), ("position", .number position), ("total", .number total)]
    match ← Progress.save s.progressFile (.inProgress file) with
    | .error e => return .error (.progress e)
    | .ok () =>
      let fate ← processFile s oracle file
      match ← Progress.save s.progressFile .fresh with
      | .error e => return .error (.progress e)
      | .ok () => processFiles total (position + 1) rest (summary.record file fate)

def resumeIndex (files : List Path) : Option Path → Nat
  | none => 0
  | some marker => partitionPoint (·.lt marker) files

def removeTrialProject (path : Path) : Work Unit := do
  match ← Work.carryOut (·.remove path) with
  | .ok () => return ()
  | .error f =>
    Work.report .warn target "failed to delete working project"
      [("path", .path path), ("error", .shown f.message)]

def sweepFiles (files : List Path) (marker : Option Path) :
    Run (Except Problem Outcome) := do
  let start := resumeIndex files marker
  Work.report .info target "starting sweep"
    [("total", .number files.length), ("remaining", .number (files.length - start))]
  match ← processFiles s oracle files.length (start + 1) (files.drop start) .empty with
  | .error e => return .error e
  | .ok summary =>
    match ← Progress.save s.progressFile .done with
    | .error e => return .error (.progress e)
    | .ok () =>
      removeTrialProject s.trialProject
      Work.report .info target "sweep complete"
        [("files", .number summary.filesProcessed), ("removed", .number summary.linesRemoved),
          ("restored", .number summary.restored.length),
          ("restore_failed", .number summary.restoreFailed.length),
          ("not_started", .number summary.notStarted.length)]
      return .ok (.completed summary)

def checkBaseline : Run (Except Problem Unit) := do
  Work.report .info target "running baseline build" [("project", .path s.project)]
  if ← Run.build oracle ⟨s.project, s.configuration⟩ then return .ok ()
  else
    Work.report .error target "baseline build failed" [("project", .path s.project)]
    return .error (.baselineFailed s.project)

def sweepFrom (marker : Option Path) :
    Run (Except Problem Outcome) := do
  match ← checkBaseline s oracle with
  | .error e => return .error e
  | .ok () =>
    match ← Sources.find s.sourceRoot s.extensions with
    | .error e => return .error (.enumeration s.sourceRoot e)
    | .ok files =>
      match ← Work.copy s.project s.trialProject with
      | .error f => return .error (.trialProject s.trialProject f)
      | .ok () => sweepFiles s oracle files marker

def run : Run (Except Problem Outcome) := do
  match Progress.read (← Work.disk) s.progressFile with
  | .error e => return .error (.progress e)
  | .ok .done =>
    Work.report .info target "previous run already completed" [("progress", .path s.progressFile)]
    return .ok .alreadyComplete
  | .ok .fresh => sweepFrom s oracle none
  | .ok (.inProgress file) =>
    match ← recover file with
    | .error e => return .error e
    | .ok () => sweepFrom s oracle (some file)

end Prune.Sweep
