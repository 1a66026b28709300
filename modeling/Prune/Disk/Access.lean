import Prune.Disk.Resolve

/-!
Looking at files, and changing what they hold. Everything here goes through links, except `remove`,
which takes away the entry itself.
-/

namespace Prune.Disk

variable (d : Disk)

variable (p : Path)

def stat : Except Fault Entry := do
  match ← d.resolve true p with
  | .entry _ e => return e
  | .vacant _ => .error .notFound

def look : Except Fault Entry := do
  match ← d.resolve false p with
  | .entry _ e => return e
  | .vacant _ => .error .notFound

def exists? : Bool := (d.stat p).isOk

def isFile : Bool :=
  match d.stat p with
  | .ok e => e.isFile
  | .error _ => false

/-- The bits of a file whose content was written: it no longer runs as its owner, nor as its group
if the group may run it. -/
def writtenMode (mode : Nat) : Nat :=
  let mode := if allows mode 0o4000 then mode - 0o4000 else mode
  if allows mode 0o2000 && allows mode 0o10 then mode - 0o2000 else mode

def masked (mode mask : Nat) : Nat :=
  [0o400, 0o200, 0o100, 0o40, 0o20, 0o10, 4, 2, 1].foldl
    (fun m bit => if allows m bit && allows mask bit then m - bit else m) mode

def programMark : Bytes := 0x7F :: "ELF"

def read : Except Fault Bytes := do
  match ← d.stat p with
  | .file mode content => if allows mode readBit then return content else .error .denied
  | .special (.program _) => return programMark
  | .special .terminal => .error .noDevice
  | .special _ => return []
  | _ => .error .isDirectory

def readText : Except Fault Bytes := do
  let content ← d.read p
  if Utf8.isValid content then return content else .error .notText

structure Opened where
  location : Location
  mode : Nat
  content : Bytes
  /-- What is written to a device leaves no trace. -/
  device : Bool
  disk : Disk
deriving DecidableEq, Repr

/-- Refuses a path that is spelled with a slash at its end, or ends in a link to one that is: it asks for
a directory. The path starts from `here`, and a number of links may follow each other. -/
def checkSpelling : Nat → Location → Path → Except Fault Unit
  | 0, _, _ => .error .tooManyLinks
  | links + 1, here, p => do
    match ← { d with cwd := here }.locate p with
    | .unnamed => if endsInSlash p then .error .isDirectory else return ()
    | .named dir name =>
      if endsInSlash p then .error .isDirectory
      else
        match d.get? (dir ++ [name]) with
        | some (.link target) => checkSpelling links dir ⟨target⟩
        | _ => return ()

/-- Opens the file at `p` for writing. Where there is none, an empty one is made with `mode`, and it
may be written whatever its bits are. -/
def openFile (mode : Nat) : Except Fault Opened := do
  d.checkSpelling (maxLinks + 1) d.cwd p
  match ← d.resolve true p with
  | .entry loc (.file mode content) =>
    if allows mode writeBit then return ⟨loc, mode, content, false, d⟩ else .error .denied
  | .entry _ (.special .terminal) => .error .noDevice
  | .entry loc (.special (.program _)) => return ⟨loc, 0o755, programMark, true, d⟩
  | .entry loc (.special _) => return ⟨loc, 0o666, [], true, d⟩
  | .entry .. => .error .isDirectory
  | .vacant loc =>
    if d.mayAlter loc.dropLast then return ⟨loc, mode, [], false, (d.put loc (.file mode [])).noteNew loc⟩
    else .error .denied

def Opened.truncate (o : Opened) : Opened :=
  if o.device then o
  else
    let mode := writtenMode o.mode
    ⟨o.location, mode, [], false, (o.disk.amend o.location (.file mode [])).noteChange o.location⟩

/-- `content` behind what the file holds; writing nothing leaves its bits alone. -/
def Opened.append (o : Opened) (content : Bytes) : Disk :=
  if o.device || content.isEmpty then o.disk
  else (o.disk.amend o.location (.file (writtenMode o.mode) (o.content ++ content))).noteChange o.location

def write (content : Bytes) : Except Fault Disk := do
  return (← d.openFile p plainMode).truncate.append content

/-- A copy of a regular file, with its bits: the disks that come one after the other until it is there.
The file is made or emptied, gets the bits, and then the content. -/
def copy (source target : Path) : Except Fault (List Disk) := do
  match ← d.stat source with
  | .file mode _ =>
    if allows mode readBit then
      let emptied := (← d.openFile target (masked mode 0o22)).truncate
      let o := if emptied.device then emptied
        else { emptied with mode, disk := emptied.disk.amend emptied.location (.file mode []) }
      match o.disk.stat source with
      | .ok (.file _ content) => return [emptied.disk, o.disk, o.append content]
      | _ => return [emptied.disk, o.disk]
    else .error .denied
  | .dir mode => .error (if allows mode readBit then .notRegular else .denied)
  | .special .terminal => .error .noDevice
  | _ => .error .notRegular

def remove : Except Fault Disk := do
  match ← d.locate p with
  | .unnamed => .error .isDirectory
  | .named dir name =>
    let loc := dir ++ [name]
    match d.get? loc with
    | none => .error .notFound
    | some e =>
      if endsInSlash p then .error (if e.isDir then .isDirectory else .notDirectory)
      else if !d.mayAlter dir then .error .denied
      else if e.isDir then .error .isDirectory
      else return ((d.release loc).erase loc).noteGone loc

def children : Except Fault (List (Bytes × Entry)) := do
  match ← d.resolve true p with
  | .entry loc (.dir mode) =>
    if allows mode readBit then
      return (d.below loc).filterMap fun
        | ([name], e) => some (name, e)
        | _ => none
    else .error .denied
  | .entry .. => .error .notDirectory
  | .vacant _ => .error .notFound

/-!
Open files. A file that is opened gets a number, and is read and written by that number until it is
closed, whatever becomes of its name in the meantime.
-/

/-- Opens the file at `loc`; one that is open already keeps its number. -/
def hold (loc : Location) : Nat × Disk :=
  let all := d.twins loc
  match d.held.find? fun h => all.any fun k => h.place = .at k with
  | some h =>
    (h.number, { d with held := d.held.map fun g =>
      if g.number = h.number then { g with uses := g.uses + 1 } else g })
  | none =>
    let number := (d.held.map (·.number)).foldl max 0 + 1
    (number, { d with held := ⟨number, 1, .at loc⟩ :: d.held })

variable (number : Nat)

def holdAgain : Disk :=
  { d with held := d.held.map fun h => if h.number = number then { h with uses := h.uses + 1 } else h }

def letGo : Disk :=
  { d with held := d.held.filterMap fun h =>
      if h.number = number then if h.uses ≤ 1 then none else some { h with uses := h.uses - 1 }
      else some h }

def place? : Option Whereabouts := (d.held.find? (·.number = number)).map (·.place)

def heldFile? : Option (Nat × Bytes) :=
  match d.place? number with
  | some (.at loc) =>
    match d.get? loc with
    | some (.file mode content) => some (mode, content)
    | _ => none
  | some (.nameless mode content) => some (mode, content)
  | none => none

def putHeld (number mode : Nat) (content : Bytes) : Disk :=
  match d.place? number with
  | some (.at loc) => (d.amend loc (.file mode content)).noteChange loc
  | some (.nameless ..) =>
    { d with held := d.held.map fun h =>
        if h.number = number then { h with place := .nameless mode content } else h }
  | none => d

/-- `content` behind what an open file holds; writing nothing leaves its bits alone. -/
def appendHeld (content : Bytes) : Disk :=
  match d.heldFile? number with
  | some (mode, old) => if content.isEmpty then d else d.putHeld number (writtenMode mode) (old ++ content)
  | none => d

end Prune.Disk
