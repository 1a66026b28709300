import Prune.CommandLine.Arguments
import Prune.Sweep

/-!
A call of the program with settings at hand: check them, open the log, sweep, and say what came of
it.
-/

namespace Prune.CommandLine

inductive Exit where
  | completed | usage | baselineFailed | enumeration | alreadyComplete | failure
deriving DecidableEq, Repr

def Exit.code : Exit → Nat
  | .completed => 0
  | .usage => 1
  | .baselineFailed => 2
  | .enumeration => 3
  | .alreadyComplete => 4
  | .failure => 5

structure Result where
  exit : Option Exit
  stdout : String
  stderr : String
  host : Host
  builds : List Build

inductive Failure where
  | settings (flaw : Settings.Flaw)
  | filter (flaw : Log.FilterFlaw)
  | logFile (path : Path) (cause : Fault)
  | sweep (problem : Sweep.Problem)
deriving DecidableEq, Repr

namespace Failure

def message : Failure → String
  | .settings flaw => s!"invalid configuration: {flaw.message}"
  | .filter flaw => s!"invalid log filter: {flaw.message}"
  | .logFile path cause => s!"failed to open log file {path.display}: {cause.message}"
  | .sweep problem => problem.message

def exit : Failure → Exit
  | .settings _ => .usage
  | .filter _ | .logFile .. => .failure
  | .sweep (.baselineFailed _) => .baselineFailed
  | .sweep (.enumeration ..) => .enumeration
  | .sweep _ => .failure

def line (f : Failure) : String := programName ++ ": " ++ f.message ++ "\n"

end Failure

def target : String := "sweeper_cli"

variable (s : Settings)

def openLog (stamp : String) (d : Disk) : Except Failure (Disk × LogFile) :=
  match Log.Filter.read s.logFilter with
  | .error flaw => .error (.filter flaw)
  | .ok filter =>
    match d.openFile s.logFile Disk.plainMode with
    | .error f => .error (.logFile s.logFile f)
    | .ok o =>
      if o.device then .ok (d, ⟨none, filter, s.logFormat, stamp⟩)
      else
        let (number, d) := o.disk.hold o.location
        .ok (d, ⟨some number, filter, s.logFormat, stamp⟩)

def announce : Work Unit :=
  Work.report .info target "starting include sweep"
    [("tool", .path s.tool), ("project", .path s.project), ("configuration", .text s.configuration),
      ("source_root", .path s.sourceRoot), ("progress", .path s.progressFile)]

def sweep (oracle : Oracle) : Run (Except Sweep.Problem Sweep.Outcome) := do
  announce s
  Sweep.run s oracle

def summaryText (s : Sweep.Summary) : String × String :=
  let each (words : String) (files : List Path) : String :=
    String.join (files.map fun f => words ++ ": " ++ f.display ++ "\n")
  (s!"processed {s.filesProcessed} files, removed {s.linesRemoved} directives\n",
    each "reverted after an error" s.restored ++
      each "skipped, a backup already exists" s.notStarted ++
      each "restore failed, original content kept in backup" s.restoreFailed)

def logText (log : LogFile) (w : World) : String :=
  String.join ((w.events.filter log.filter.passes).map (·.line log.format log.stamp))

def execute (oracle : Oracle) (stamp : String) (h : Host) : Result :=
  let failed (f : Failure) (h : Host) (log : String) (builds : List Build) : Result :=
    ⟨some f.exit, "", log ++ f.line, h, builds⟩
  match s.flaw? with
  | some flaw => failed (.settings flaw) h "" []
  | none =>
    match openLog s stamp h.disk with
    | .error f => failed f h "" []
    | .ok (disk, log) =>
      let (result, w) := (sweep s oracle).run.run { World.start { h with disk } with log := some log }
      let lines := logText log w
      match result with
      | .error _ => ⟨none, "", lines, log.close w.toHost, w.builds⟩
      | .ok (.error problem) => failed (.sweep problem) (log.close w.toHost) lines w.builds
      | .ok (.ok .alreadyComplete) =>
        ⟨some .alreadyComplete,
          s!"already complete: delete {s.progressFile.display} to sweep again\n",
          lines, log.close w.toHost, w.builds⟩
      | .ok (.ok (.completed summary)) =>
        let (out, err) := summaryText summary
        ⟨some .completed, out, lines ++ err, log.close w.toHost, w.builds⟩

end Prune.CommandLine
