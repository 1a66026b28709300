import Prune.World

/-!
How far a sweep has come, kept in a file of one text: nothing, the source being worked on, or the
sentinel of a finished sweep.
-/

namespace Prune

inductive Resume where
  | fresh
  | inProgress (file : Path)
  | done
deriving DecidableEq, Repr

namespace Progress

def sentinel : Bytes := "include-sweeper:complete"

def isLineEnd (b : UInt8) : Bool := b == 0x0A || b == 0x0D

def encode : Resume → Bytes
  | .fresh => []
  | .inProgress file => file.text
  | .done => sentinel

/-- Line ends behind the text do not count. -/
def decode (content : Bytes) : Resume :=
  let text := (content.reverse.dropWhile isLineEnd).reverse
  if text = [] then .fresh
  else if text = sentinel then .done
  else .inProgress ⟨text⟩

inductive Problem where
  | read (path : Path) (cause : Fault)
  | write (path : Path) (cause : Fault)
deriving DecidableEq, Repr

def Problem.message : Problem → String
  | .read path cause => s!"failed to read progress file {path.display}: {cause.message}"
  | .write path cause => s!"failed to write progress file {path.display}: {cause.message}"

def target : String := "sweeper_engine::progress"

def read (d : Disk) (path : Path) : Except Problem Resume :=
  match d.readText path with
  | .ok content => .ok (decode content)
  | .error .notFound => .ok .fresh
  | .error f => .error (.read path f)

def save (path : Path) (position : Resume) : Work (Except Problem Unit) := do
  match ← Work.replace path (encode position) with
  | .error f => return .error (.write path f)
  | .ok () =>
    Work.report .debug target "progress persisted" [("marker", .text (Utf8.lossy (encode position)))]
    return .ok ()

end Progress

end Prune
