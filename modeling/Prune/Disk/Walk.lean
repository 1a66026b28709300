import Prune.Disk.Access
import Prune.Order

/-!
Walking a tree: everything at and below a root, each entry once and by its own kind. Links are not
followed, except one at the root itself in order to look below it.
-/

namespace Prune.Disk

inductive Meeting where
  | file | other | closed
deriving DecidableEq, Repr

structure Found where
  path : Path
  kind : Meeting
deriving DecidableEq, Repr

/-- Whether the directory at `k` below `l` cannot be listed: its names may not be read, or one on the
way to it may not be entered. -/
def isClosed (d : Disk) (l k : Location) : Bool :=
  match d.get? (l ++ k) with
  | some (.dir mode) =>
    !allows mode readBit || (List.range k.length).any fun n => !d.mayEnter (l ++ k.take n)
  | _ => false

/-- What an entry met at a path is, a directory that cannot be listed being met twice. -/
def meetings (path : Path) (e : Entry) (closed : Bool) : List Found :=
  if e.isFile then [⟨path, .file⟩]
  else if closed then [⟨path, .other⟩, ⟨path, .closed⟩]
  else [⟨path, .other⟩]

/-- The entries below a location, by paths that start with `root`. What is below a directory that
cannot be listed is not seen. -/
def foundBelow (d : Disk) (root : Path) (l : Location) : List Found :=
  let seen := (d.below l).filter fun (k, _) =>
    !(List.range k.length).any fun n => d.isClosed l (k.take n)
  sortBy (fun a b => a.path.le b.path) (seen.flatMap fun (k, e) =>
    meetings (root.join (Bytes.joinWith Path.slash k)) e (d.isClosed l k))

def foundAt (d : Disk) (root : Path) (l : Location) (mode : Nat) : List Found :=
  if allows mode readBit then ⟨root, .other⟩ :: d.foundBelow root l
  else [⟨root, .other⟩, ⟨root, .closed⟩]

def walk (d : Disk) (root : Path) : Except Fault (List Found) := do
  match ← d.resolve false root with
  | .vacant _ => .error .notFound
  | .entry loc (.dir mode) => return d.foundAt root loc mode
  | .entry _ (.link _) =>
    match ← d.resolve true root with
    | .vacant _ => .error .notFound
    | .entry loc (.dir mode) => return d.foundAt root loc mode
    | .entry .. => return [⟨root, .other⟩]
  | .entry _ e => return [⟨root, if e.isFile then .file else .other⟩]

end Prune.Disk
