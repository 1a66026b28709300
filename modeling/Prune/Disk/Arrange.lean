import Prune.Disk.Access
import Prune.Order

/-!
Changing the shape of a tree: directories, links, permission bits, moving and clearing away.
-/

namespace Prune.Disk

variable (d : Disk)

variable (p : Path)

def make (e : Entry) : Except Fault Disk := do
  match ← d.locate p with
  | .unnamed => .error .exists
  | .named dir name =>
    match d.get? (dir ++ [name]) with
    | some _ => .error .exists
    | none =>
      if endsInSlash p && !e.isDir then .error .notFound
      else if d.mayAlter dir then return (d.put (dir ++ [name]) e).noteNew (dir ++ [name])
      else .error .denied

/-- Another name for the file that `p` names, a link at its end not followed. -/
def makeName (p new : Path) : Except Fault Disk := do
  match ← d.resolve false p with
  | .vacant _ => .error .notFound
  | .entry _ (.dir _) => .error .notPermitted
  | .entry loc e =>
    match ← d.locate new with
    | .unnamed => .error .exists
    | .named dir name =>
      let spot := dir ++ [name]
      if (d.get? spot).isSome then .error .exists
      else if endsInSlash new then .error .notFound
      else if d.mayAlter dir then
        let stamp := d.stampOf loc
        let d := (((d.put spot e).noteNew spot).join loc spot).restamp loc fun _ => stamp
        return d.noteStatus loc
      else .error .denied

def makeDirectory (mode : Nat) : Except Fault Disk := d.make p (.dir mode)

def removeDirectory : Except Fault Disk := do
  match ← d.locate p with
  | .unnamed => .error .invalid
  | .named dir name =>
    let loc := dir ++ [name]
    match d.get? loc with
    | none => .error .notFound
    | some (.dir _) =>
      if !d.mayAlter dir then .error .denied
      else if (d.below loc).isEmpty then return (d.erase loc).noteGone loc
      else .error .notEmpty
    | some _ => .error .notDirectory

/-- The paths of the directories on the way to `p`, the longest first, `p` among them. -/
def ancestry : Nat → Path → List Path
  | 0, _ => []
  | n + 1, p =>
    match p.parent? with
    | some q => p :: ancestry n q
    | none => [p]

/-- A directory, with those on the way to it. One that is there already is left alone. -/
def makeDirectories : Except Fault Disk :=
  let way := (ancestry (p.text.length + 1) p).reverse.filter fun q => !q.isEmpty
  way.foldlM (fun d q =>
    match d.stat q with
    | .ok (.dir _) => .ok d
    | _ => d.makeDirectory q plainDirMode) d

def makeLink (target : Bytes) : Except Fault Disk := d.make p (.link target)

def setMode (mode : Nat) : Except Fault Disk := do
  match ← d.resolve true p with
  | .entry loc (.file _ content) => return (d.amend loc (.file mode content)).noteStatus loc
  | .entry loc (.dir _) => return (d.put loc (.dir mode)).noteStatus loc
  | .entry .. => return d
  | .vacant _ => .error .notFound

def setStamp (follow : Bool) (p : Path) (f : Stamp → Stamp) : Except Fault Disk := do
  match ← d.resolve follow p with
  | .entry loc _ => return (d.restamp loc f).noteStatus loc
  | .vacant _ => .error .notFound

def stampAt? (follow : Bool) (p : Path) : Option Stamp :=
  match d.resolve follow p with
  | .ok (.entry loc _) => some (d.stampOf loc)
  | _ => none

def isSame (p q : Path) : Bool :=
  match d.resolve true p, d.resolve true q with
  | .ok (.entry l _), .ok (.entry k _) => (d.twins l).contains k
  | _, _ => false

def nameCount (l : Location) : Nat := (d.twins l).length

/-- The subtree at `source` at `target` instead, where nothing or a file stood. -/
def moveTree (source target : Location) : Disk :=
  let d := d.release target
  let kept := ((d.erase target).entries.map fun p =>
    if source.isPrefixOf p.1 then (target ++ p.1.drop source.length, p.2) else p)
  (({ d with entries := kept }.carry source target).noteGone source).noteGone target

/-- Moves an entry. It replaces a file by a file and an empty directory by a directory. -/
def rename (source target : Path) : Except Fault Disk := do
  let oldSpot ← d.locate source
  let newSpot ← d.locate target
  match oldSpot, newSpot with
  | .named oldDir oldName, .named newDir newName =>
    let old := oldDir ++ [oldName]
    let new := newDir ++ [newName]
    let mayMove := d.mayAlter oldDir && d.mayAlter newDir
    match d.get? old with
    | none => .error .notFound
    | some (.dir mode) =>
      if new = old then return d
      else if old.isPrefixOf new then .error .invalid
      else if new.isPrefixOf old then .error .notEmpty
      else if !mayMove || (oldDir ≠ newDir && !allows mode writeBit) then .error .denied
      else
        match d.get? new with
        | none => return d.moveTree old new
        | some (.dir _) => if (d.below new).isEmpty then return d.moveTree old new else .error .notEmpty
        | some _ => .error .notDirectory
    | some e =>
      if endsInSlash source || endsInSlash target then .error .notDirectory
      else if new = old || (d.twins old).contains new then return d
      else if new.isPrefixOf old then .error .notEmpty
      else if !mayMove then .error .denied
      else
        match d.get? new with
        | some (.dir _) => .error .isDirectory
        | _ =>
          let moved := (((d.release new).carry old new).erase old).put new e
          return ((moved.noteStatus new).noteGone old).noteGone new
  | _, _ => .error .busy

/-- Takes away whatever is at `p`, a directory with all it holds; nothing if there is nothing. -/
def clear : Disk :=
  match d.locate p with
  | .ok (.named dir name) => ((d.release (dir ++ [name])).eraseTree (dir ++ [name])).noteGone (dir ++ [name])
  | _ => d

def listing (l : Location) : List (Bytes × Entry) :=
  sortBy (fun a b => Bytes.le a.1 b.1) ((d.below l).map fun (k, e) => (Bytes.joinWith Path.slash k, e))

end Prune.Disk

/-!
What is known about an entry besides what it holds: its bits, its size, the room it takes, how many
names it has, and when it was changed.
-/

namespace Prune

def Entry.mode : Entry → Nat
  | .file mode _ | .dir mode => mode
  | .link _ => 0o777
  | .special (.program _) => 0o755
  | .special _ => 0o666

def Entry.size : Entry → Nat
  | .file _ content => content.length
  | .dir _ => 4096
  | .link target => target.length
  | .special (.program _) => 4096
  | .special _ => 0

def Entry.letter : Entry → Char
  | .file .. => '-'
  | .dir _ => 'd'
  | .link _ => 'l'
  | .special (.program _) => '-'
  | .special _ => 'c'

def Entry.isLink : Entry → Bool
  | .link _ => true
  | _ => false

def Entry.device? : Entry → Option (Nat × Nat)
  | .special .null => some (1, 3)
  | .special .full => some (1, 7)
  | .special .zero => some (1, 5)
  | .special .terminal => some (5, 0)
  | .special (.descriptor fd) => some (136, fd)
  | _ => none

structure Facts where
  entry : Entry
  stamp : Stamp
  names : Nat

namespace Facts

def block : Nat := 4096

def room (f : Facts) : Nat :=
  match f.entry with
  | .file _ content => (content.length + block - 1) / block * block
  | .dir _ => block
  | .link target => if target.length < 60 then 0 else block
  | .special (.program _) => block
  | .special _ => 0

end Facts

namespace Disk

/-- What is known about the entry at a location. A directory is named by what is above it, by itself,
and by each directory in it. -/
def factsOf (d : Disk) (loc : Location) (e : Entry) : Facts :=
  let names := if e.isDir then
      2 + (d.entries.filter fun p => p.2.isDir && p.1.length = loc.length + 1 && loc.isPrefixOf p.1).length
    else d.nameCount loc
  ⟨e, d.stampOf loc, names⟩

/-- What is known about what `p` leads to, or about a link at its end. -/
def facts (d : Disk) (follow : Bool) (p : Path) : Except Fault Facts := do
  match ← d.resolve follow p with
  | .entry loc e => return d.factsOf loc e
  | .vacant _ => .error .notFound

end Disk

end Prune
