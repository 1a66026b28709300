import Prune.Disk.Walk
import Prune.World

/-!
The sources under a root: the regular files with a listed extension, without the sweep's own
artefacts, in the order of their paths. Temporaries that an interrupted write left are removed on
the way.
-/

namespace Prune.Sources

def target : String := "sweeper_engine::discovery"

inductive Problem where
  | walk (path : Path) (cause : Fault)
  | notText (path : Path)
deriving DecidableEq, Repr

def Problem.message : Problem → String
  | .walk path cause => s!"IO error for operation on {path.display}: {cause.message}"
  | .notText path => s!"path is not valid UTF-8: {path.display}"

/-- Whether the extension is listed; the case of letters does not matter. -/
def hasExtension (extensions : List Bytes) (p : Path) : Bool :=
  match p.extension? with
  | some ext => extensions.any fun e => e.lower == ext.lower
  | none => false

def isSource (extensions : List Bytes) (p : Path) : Bool :=
  hasExtension extensions p && !Artefact.isArtefact p

def discard (p : Path) : Work Unit := do
  match ← Work.carryOut (·.remove p) with
  | .ok () => Work.report .warn target "removed temporary left by an interrupted write" [("path", .path p)]
  | .error f =>
    Work.report .warn target "failed to remove temporary left by an interrupted write"
      [("path", .path p), ("error", .shown f.message)]

/-- The sources among the entries of a walk, in the order of the walk. -/
def sift (extensions : List Bytes) : List Disk.Found → Work (Except Problem (List Path))
  | [] => return .ok []
  | f :: rest => do
    if f.kind = .closed then return .error (.walk f.path .denied)
    else if f.kind = .other then sift extensions rest
    else if !Utf8.isValid f.path.text then return .error (.notText f.path)
    else if Artefact.isTemporary f.path then
      discard f.path
      sift extensions rest
    else
      match ← sift extensions rest with
      | .error e => return .error e
      | .ok files => return .ok (if isSource extensions f.path then f.path :: files else files)

def find (root : Path) (extensions : List Bytes) : Work (Except Problem (List Path)) := do
  match (← Work.disk).walk root with
  | .error f => return .error (.walk root f)
  | .ok found =>
    match ← sift extensions found with
    | .error e => return .error e
    | .ok files => return .ok (sortBy Path.le files)

end Prune.Sources
