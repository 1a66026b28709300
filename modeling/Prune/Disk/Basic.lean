import Prune.Path
import Prune.Text.Hidden

/-!
What can go wrong on a disk, and in starting a program, each with its wording.
-/

namespace Prune

inductive Fault where
  | notPermitted
  | notFound
  | noProcess
  | noDevice
  | tooManyArguments
  | badFormat
  | badDescriptor
  | denied
  | busy
  | exists
  | notDirectory
  | isDirectory
  | invalid
  | nameTooLong
  | noSpace
  | brokenPipe
  | notEmpty
  | tooManyLinks
  | notText
  | notRegular
  | zeroInPath
  | zeroInArgument
  | making (cause : Fault) (path : Path)
deriving DecidableEq, Repr

namespace Fault

/-- The system's number of a fault, where it has one, and its words. -/
def words : Fault → Option Nat × String
  | .notPermitted => (some 1, "Operation not permitted")
  | .notFound => (some 2, "No such file or directory")
  | .noProcess => (some 3, "No such process")
  | .noDevice => (some 6, "No such device or address")
  | .tooManyArguments => (some 7, "Argument list too long")
  | .badFormat => (some 8, "Exec format error")
  | .badDescriptor => (some 9, "Bad file descriptor")
  | .denied => (some 13, "Permission denied")
  | .busy => (some 16, "Device or resource busy")
  | .exists => (some 17, "File exists")
  | .notDirectory => (some 20, "Not a directory")
  | .isDirectory => (some 21, "Is a directory")
  | .invalid => (some 22, "Invalid argument")
  | .noSpace => (some 28, "No space left on device")
  | .brokenPipe => (some 32, "Broken pipe")
  | .nameTooLong => (some 36, "File name too long")
  | .notEmpty => (some 39, "Directory not empty")
  | .tooManyLinks => (some 40, "Too many levels of symbolic links")
  | .notText => (none, "stream did not contain valid UTF-8")
  | .notRegular => (none, "the source path is neither a regular file nor a symlink to a regular file")
  | .zeroInPath => (none, "file name contained an unexpected NUL byte")
  | .zeroInArgument => (none, "nul byte found in provided data")
  | .making cause _ => words cause

def plainMessage (f : Fault) : String :=
  match f.words with
  | (some n, text) => s!"{text} (os error {n})"
  | (none, text) => text

def message : Fault → String
  | .making cause path => message cause ++ " at path " ++ Text.quoted path.display
  | f => f.plainMessage

end Fault

/-!
A disk: entries at locations. A location is the list of names that lead to it from the root, so it
is free of links, of `.` and of `..`; a path is resolved to one. The view of a disk is `get?`, and
the lemmas here say what each change does to it.

A file that is open is held: it stays what it is when it gets another name, and keeps its content when
its name goes. A file can have several names; what is written under one of them is found under all.
-/

inductive Special where
  | null
  | full
  | zero
  | terminal
  /-- Stands for what the one who looks has open under a number. -/
  | descriptor (fd : Nat)
  | program (name : String)
deriving DecidableEq, Repr

/-- What stands at a location. All belongs to the one who looks, so of the permission bits it is the
owner's that count. -/
inductive Entry where
  | file (mode : Nat) (content : Bytes)
  | dir (mode : Nat)
  | link (target : Bytes)
  | special (what : Special)
deriving DecidableEq, Repr

def Entry.isDir : Entry → Bool
  | .dir _ => true
  | _ => false

def Entry.isFile : Entry → Bool
  | .file .. | .special (.program _) => true
  | _ => false

abbrev Location := List Bytes

/-- Where an open file is, or what it holds since its name went. -/
inductive Whereabouts where
  | at (loc : Location)
  | nameless (mode : Nat) (content : Bytes)
deriving DecidableEq, Repr

structure Held where
  number : Nat
  uses : Nat
  place : Whereabouts
deriving DecidableEq, Repr

/-- When something was changed and when it was looked at, in microseconds since the beginning of 1970. -/
structure Stamp where
  modified : Int
  accessed : Int
  changed : Int
  number : Nat
deriving DecidableEq, Repr

def dawn : Nat := 1794830400000000

/-- The entries of a disk, the directory that relative paths start from, and the open files. The root
is always there. -/
structure Disk where
  entries : List (Location × Entry)
  cwd : Location
  held : List Held := []
  /-- The names of files that have several, each with a number that stands for the file. -/
  shared : List (Location × Nat) := []
  stamps : List (Location × Stamp) := []
  made : Nat := 0
  now : Nat := dawn
deriving DecidableEq, Repr

namespace Disk

def readBit : Nat := 0o400

def writeBit : Nat := 0o200

def runBit : Nat := 0o100

def allows (mode bit : Nat) : Bool := mode / bit % 2 == 1

def plainMode : Nat := 0o644

def plainDirMode : Nat := 0o755

/-- What the entries say about a location: the first one for it counts. -/
def find? (l : Location) : List (Location × Entry) → Option Entry
  | [] => none
  | (k, e) :: rest => if k = l then some e else find? l rest

variable (d : Disk)

variable (l : Location)

def get? : Option Entry :=
  if l = [] then some (.dir plainDirMode) else find? l d.entries

def erase : Disk :=
  { d with
    entries := d.entries.filter fun p => !decide (p.1 = l)
    shared := d.shared.filter fun p => !decide (p.1 = l)
    stamps := d.stamps.filter fun p => !decide (p.1 = l) }

def put (e : Entry) : Disk := { d with entries := (l, e) :: (d.erase l).entries }

def eraseTree : Disk :=
  { d with
    entries := d.entries.filter fun p => !l.isPrefixOf p.1
    shared := d.shared.filter fun p => !l.isPrefixOf p.1
    stamps := d.stamps.filter fun p => !l.isPrefixOf p.1 }

def twins : List Location :=
  match d.shared.lookup l with
  | some n => (d.shared.filter (·.2 = n)).map (·.1)
  | none => [l]

def amend (e : Entry) : Disk := (d.twins l).foldl (fun d k => d.put k e) d

def join (l new : Location) : Disk :=
  match d.shared.lookup l with
  | some n => { d with shared := (new, n) :: d.shared }
  | none =>
    let n := (d.shared.map (·.2)).foldl max 0 + 1
    { d with shared := (new, n) :: (l, n) :: d.shared }

def firstNumber : Nat :=
  l.flatten.foldl (fun n b => (n * 257 + b.toNat + 1) % 1000003) l.length + 2

def installed : Stamp :=
  let time : Int := 1735689600000000
  ⟨time, time, time, firstNumber l⟩

def stampOf : Stamp := (d.stamps.lookup l).getD (installed l)

def tick : Int := (d.now / 4000 * 4000 : Nat)

def restamp (f : Stamp → Stamp) : Disk :=
  let all := d.twins l
  let new := f (d.stampOf l)
  { d with stamps := (all.map fun k => (k, new)) ++ d.stamps.filter fun p => !all.contains p.1 }

def noteChange : Disk :=
  d.restamp l fun s => { s with modified := d.tick, changed := d.tick }

/-- The bits of what is at `l`, or one of its names, have changed now. -/
def noteStatus : Disk := d.restamp l fun s => { s with changed := d.tick }

def noteNew : Disk :=
  ({ d with shared := d.shared.filter fun p => !decide (p.1 = l), made := d.made + 1 }.restamp l
    fun _ => ⟨d.tick, d.tick, d.tick, 1048576 + d.made⟩).noteChange l.dropLast

def noteGone : Disk := d.noteChange l.dropLast

/-- What stands below `l`, each with the names that lead there from `l`. -/
def below : List (Location × Entry) :=
  d.entries.filterMap fun (k, e) =>
    if l.isPrefixOf k && k.length != l.length then some (k.drop l.length, e) else none

def mayEnter : Bool :=
  match d.get? l with
  | some (.dir mode) => allows mode runBit
  | _ => false

/-- Whether names in the directory at `l` can be made and taken away. -/
def mayAlter : Bool :=
  match d.get? l with
  | some (.dir mode) => allows mode runBit && allows mode writeBit
  | _ => false

/-- Open files at `l` or below it lose their names, as they are now. One that has another name is known
by that. -/
def release : Disk :=
  { d with held := d.held.map fun h =>
      match h.place with
      | .at k =>
        if l.isPrefixOf k then
          match (d.twins k).find? (!l.isPrefixOf ·), d.get? k with
          | some other, _ => { h with place := .at other }
          | none, some (.file mode content) => { h with place := .nameless mode content }
          | none, _ => { h with place := .nameless plainMode [] }
        else h
      | .nameless .. => h }

/-- Open files, names and stamps at `old` or below it are at `new` or below it, in place of what was
known of that. -/
def carry (old new : Location) : Disk :=
  let moved (k : Location) : Location := if old.isPrefixOf k then new ++ k.drop old.length else k
  { d with
    held := d.held.map fun h =>
      match h.place with
      | .at k => { h with place := .at (moved k) }
      | .nameless .. => h
    shared := (d.shared.filter fun p => !new.isPrefixOf p.1).map fun p => (moved p.1, p.2)
    stamps := (d.stamps.filter fun p => !new.isPrefixOf p.1).map fun p => (moved p.1, p.2) }

theorem find?_filter_ne {l k : Location} (h : k ≠ l) (es : List (Location × Entry)) :
    find? k (es.filter fun p => !decide (p.1 = l)) = find? k es := by
  induction es with
  | nil => rfl
  | cons p es ih =>
    by_cases hp : p.1 = l
    · have : p.1 ≠ k := fun hk => h (hk.symm.trans hp)
      simp [find?, hp, ih, hp ▸ this]
    · simp [find?, hp, ih]

theorem find?_filter_self (es : List (Location × Entry)) :
    find? l (es.filter fun p => !decide (p.1 = l)) = none := by
  induction es with
  | nil => rfl
  | cons p es ih => by_cases hp : p.1 = l <;> simp [find?, hp, ih]

variable (d : Disk)

@[simp] theorem get?_root : d.get? [] = some (.dir plainDirMode) := rfl

theorem get?_erase {d : Disk} {l : Location} (h : l ≠ []) (k : Location) :
    (d.erase l).get? k = if k = l then none else d.get? k := by
  by_cases hk : k = l
  · subst hk; simp [get?, erase, h, find?_filter_self]
  · by_cases hn : k = []
    · subst hn; simp [hk]
    · simp [get?, erase, hk, hn, find?_filter_ne hk]

theorem get?_put {d : Disk} {l : Location} (h : l ≠ []) (e : Entry) (k : Location) :
    (d.put l e).get? k = if k = l then some e else d.get? k := by
  by_cases hk : k = l
  · subst hk; simp [get?, put, h, find?]
  · by_cases hn : k = []
    · subst hn; simp [hk]
    · simp [get?, put, erase, hk, hn, find?, Ne.symm hk, find?_filter_ne hk]

@[simp] theorem get?_noteChange (l k : Location) : (d.noteChange l).get? k = d.get? k := rfl

@[simp] theorem get?_noteNew (l k : Location) : (d.noteNew l).get? k = d.get? k := rfl

end Disk

end Prune
