import Prune.Utility.Mode
import Prune.Utility.Where

/-!
Files that would be overwritten and are kept under another name.
-/

namespace Prune.Utility

open Host

inductive Keeping where
  | simple | numbered | existing
deriving DecidableEq

structure Backup where
  keeping : Keeping
  ending : Chars

def keepingWords : List (String × Option Keeping) :=
  [("none", none), ("off", none), ("simple", some .simple), ("never", some .simple),
    ("existing", some .existing), ("nil", some .existing), ("numbered", some .numbered),
    ("t", some .numbered)]

def backupOptions : List OptionSpec := optionsOf "bS:" "backup=b:: suffix=S:"

def withBackup (p : Parsed) (body : Option Backup → Applet) : Applet := do
  let env := (← read).env
  let endings := [p.value? "S", env.lookup "SIMPLE_BACKUP_SUFFIX".toList]
  let ending := ((endings.filterMap id).head?.filter fun e => !e.isEmpty && !e.contains '/').getD ['~']
  let given := (p.value? "b").filter (!·.isEmpty)
  let setting := (env.lookup "VERSION_CONTROL".toList).filter (!·.isEmpty)
  let goOn (option : String) (words : List Chars) : Applet :=
    withWords option keepingWords 1 words fun kinds =>
      body ((kinds.headD (some .existing)).map fun keeping => ⟨keeping, ending⟩)
  if !p.has "b" && !p.has "S" then body none
  else
    match given, setting with
    | some word, _ => goOn "backup type" [word]
    | none, some word => goOn "$VERSION_CONTROL" [word]
    | none, none => goOn "backup type" []

variable (d : Disk)

def keptNumbers (name : Chars) : List Nat :=
  let base := baseName name ++ ".~"
  match d.children (dirName name) with
  | .error _ => []
  | .ok children => children.filterMap fun (child, _) =>
    let child := Chars.ofBytes child
    let digits := (child.drop base.length).dropLast
    if base.isPrefixOf child && child.getLast? = some '~' && digits.head? ≠ some '0' then Chars.toNat? digits
    else none

def Backup.nameFor (b : Backup) (d : Disk) (name : Chars) : Chars :=
  let name := withoutSlashes name
  let numbers := keptNumbers d name
  let next := numbers.foldl max 0 + 1
  let numbered := name ++ ".~" ++ Chars.ofNat next ++ ['~']
  match b.keeping with
  | .simple => name ++ b.ending
  | .numbered => numbered
  | .existing => if numbers.isEmpty then name ++ b.ending else numbered

/-!
Files that are carried from one name to another: copied, moved, or given further names. What is asked
for, what has been done so far, and when two names stand for one file.
-/

inductive Overwriting where
  | unsaid | always | never | asks
deriving DecidableEq

structure Carrying where
  moves : Bool := false
  recursive : Bool := false
  following : Following
  overwriting : Overwriting
  /-- A file that cannot be written is taken away first. -/
  force : Bool := false
  /-- What is there is taken away first. -/
  clears : Bool := false
  /-- Only what is missing or older is written. -/
  updates : Bool := false
  keepsMode : Bool := false
  /-- The bits of the source are not looked at. -/
  dropsMode : Bool := false
  keepsTimes : Bool
  /-- Names of one file become names of one copy. -/
  keepsNames : Bool := false
  /-- Further names are made, and no copies. -/
  names : Bool := false
  /-- Links are made, and no copies. -/
  symbols : Bool := false
  attributesOnly : Bool := false
  /-- What is no file is read like one. -/
  asFiles : Bool := false
  mode : Option Nat := none
  verbose : Bool
  backup : Option Backup

structure Trace where
  place : Option Location
  number : Nat
deriving DecidableEq

structure Carried where
  copies : List (Nat × Chars) := []
  hasMade : Bool := false
  /-- The operands, and what was made for them, if several were given. -/
  given : List Trace := []
  made : List Trace := []

inductive Outcome where
  | done
  | failed
  /-- A directory was to be carried into itself. -/
  | intoItself
deriving DecidableEq

/-- Work on one file, which may end before all is done. -/
abbrev Carry := ExceptT Outcome (StateT Carried Util)

namespace Carry

def refuse (text : Chars) : Carry α := do
  Util.complain text
  throw .failed

def insist (words : Fault → Chars) : Except Fault α → Carry α
  | .ok a => return a
  | .error f => refuse (words f)

def outcome (t : Carry Unit) : Carry Outcome :=
  tryCatch (do
    t
    return .done) pure

end Carry

def nameAt (name : Chars) : Option Location :=
  match d.resolve true (dirName name) with
  | .ok (.entry loc _) => some (loc ++ [Chars.toBytes (baseName name)])
  | _ => none

/-- The path of what a name stands for, behind all links if those are followed. -/
def realPath (follow : Bool) (name : Chars) : Path :=
  match follow, d.resolve true name with
  | true, .ok (.entry loc _) => ⟨Bytes.joinWith Path.slash ([] :: loc)⟩
  | _, _ => name

def isOneName (a b : Chars) : Bool := (nameAt d a).isSome && nameAt d a = nameAt d b

def traceOf (name : Chars) (f : Facts) : Trace := ⟨nameAt d name, f.stamp.number⟩

def isSamePlace (follow : Bool) (a b : Chars) : Util Bool := do
  let d ← Util.disk
  match d.resolve follow a, d.resolve follow b with
  | .ok (.entry l _), .ok (.entry k _) => return (d.twins l).contains k
  | _, _ => return false

inductive Relation where
  | different
  /-- They are one file, and that is all that was asked for. -/
  | settled
  | same
deriving DecidableEq

/-- The relation of two names and what was found there. One file may be overwritten by itself only where
it is taken away or kept under another name first. -/
def Carrying.relation (o : Carrying) (d : Disk) (source target : Chars) (src dst : Facts) : Relation :=
  let isOne (a b : Facts) : Bool := a.stamp.number = b.stamp.number
  let isLink (f : Facts) : Bool := f.entry.isLink
  let oneName := isOneName d source target
  let looksOnly := o.following = .never
  let atName (name : Chars) : Option Facts := (d.facts false name).toOption
  if isOne src dst && o.names then .settled
  else if looksOnly && isLink src && isLink dst then
    if oneName then .same
    else if o.backup.isSome || !isOne src dst then .different
    else if o.moves then .same
    else .settled
  else if !looksOnly && !isOne src dst then .different
  else
    let itself := if looksOnly then some (src, dst)
      else (atName source).bind fun a => (atName target).map fun b => (a, b)
    match itself with
    | none => .different
    | some (a, b) =>
      let canTakeAway := o.moves || o.clears
      if !looksOnly && isLink a && isLink b && o.clears then .different
      else if o.backup.isSome then
        if isOne a b then if oneName then .same else .different
        else if !o.moves && !looksOnly && isLink a && !isLink b then .same
        else .different
      else if canTakeAway && isLink b then .different
      else if canTakeAway && isOne a b && b.names > 1 && !oneName then
        if o.moves then .same else .different
      else if !isLink a && !isLink b && !isOne a b then .different
      else if !isLink a && !isLink b && o.names then .settled
      else if o.moves && isLink src && b.names > 1 then
        match whereTo d .all false source with
        | .ok loc => if some loc = nameAt d target then .same else .different
        | .error _ => .same
      else if o.symbols && isLink b then .different
      else if looksOnly then
        let through (f : Facts) (name : Chars) : Option Facts :=
          if isLink f then (d.facts true name).toOption else some f
        match through a source, through b target with
        | some x, some y =>
          if !isOne x y then .different
          else if o.names then if isLink b then .different else .settled
          else .same
        | _, _ => .different
      else .same

def Carrying.question (o : Carrying) (target : Chars) (old : Facts) : Chars :=
  let mode := old.entry.mode
  if old.entry.isLink || Disk.allows mode Disk.writeBit then "overwrite " ++ quotedName target
  else if o.moves || o.clears || o.force then
    "replace " ++ quotedName target ++ ", overriding mode " ++ modeWords mode
  else
    "unwritable " ++ quotedName target ++ " (mode " ++ modeDigits mode ++ ", " ++
      modeLetters mode ++ "); try anyway"

def sameFileWords (a b : Chars) : Chars := quotedName a ++ " and " ++ quotedName b ++ " are the same file"

def Carrying.announcement (source target : Chars) (kept : Option Chars) : Chars :=
  quotedName source ++ " -> " ++ quotedName target ++
    (kept.map fun name => " (backup: " ++ quotedName name ++ [')']).getD []

end Prune.Utility
