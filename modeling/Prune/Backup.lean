import Prune.World

/-!
The backup of one source. It is made before the source is touched; committing takes it away,
restoring puts its content back and takes it away. It lies where the source's name says, so that it
is found again after an interruption.
-/

namespace Prune

structure Backup where
  live : Path
  copy : Path
deriving DecidableEq, Repr

namespace Backup

inductive Problem where
  | alreadyExists (live copy : Path)
  | read (path : Path) (cause : Fault)
  | write (path : Path) (cause : Fault)
  | remove (path : Path) (cause : Fault)
deriving DecidableEq, Repr

def Problem.message : Problem → String
  | .alreadyExists live copy => s!"backup {copy.display} already exists for {live.display}"
  | .read path cause => s!"failed to read {path.display}: {cause.message}"
  | .write path cause => s!"failed to write {path.display}: {cause.message}"
  | .remove path cause => s!"failed to remove backup {path.display}: {cause.message}"

def target : String := "sweeper_engine::backup"

def of (live : Path) : Backup := ⟨live, Artefact.backup live⟩

def create (live : Path) : Work (Except Problem Backup) := do
  let b := Backup.of live
  let disk ← Work.disk
  if disk.exists? b.copy then return .error (.alreadyExists live b.copy)
  match disk.read live with
  | .error f => return .error (.read live f)
  | .ok content =>
    match ← Work.replace b.copy content with
    | .error f => return .error (.write b.copy f)
    | .ok () =>
      Work.report .debug target "backup created" [("file", .path live), ("backup", .path b.copy)]
      return .ok b

def existing? (d : Disk) (live : Path) : Option Backup :=
  let b := Backup.of live
  if d.isFile b.copy then some b else none

/-- Takes the backup away. One that is already gone is no problem. -/
def discard (b : Backup) : Work (Except Problem Unit) := do
  match ← Work.carryOut (·.remove b.copy) with
  | .ok () | .error .notFound => return .ok ()
  | .error f => return .error (.remove b.copy f)

/-- The source stays as it is, and the backup goes. -/
def commit (b : Backup) : Work (Except Problem Unit) := do
  match ← b.discard with
  | .error e => return .error e
  | .ok () =>
    Work.report .debug target "backup discarded after commit" [("file", .path b.live)]
    return .ok ()

/-- The source gets its content back, and the backup goes. -/
def restore (b : Backup) : Work (Except Problem Unit) := do
  match (← Work.disk).read b.copy with
  | .error f => return .error (.read b.copy f)
  | .ok content =>
    match ← Work.replace b.live content with
    | .error f => return .error (.write b.live f)
    | .ok () =>
      match ← b.discard with
      | .error e => return .error e
      | .ok () =>
        Work.report .debug target "file restored from backup" [("file", .path b.live)]
        return .ok ()

end Backup

end Prune
