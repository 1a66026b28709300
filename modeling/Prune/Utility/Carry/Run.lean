import Prune.Utility.Carry.Basic

/-!
How files are carried, one after the other, and directories with all in them.
-/

namespace Prune.Utility

open Host Util

namespace Carrying

open Carry (refuse insist)

structure Readied where
  isNew : Bool
  old : Option Facts := none
  kept : Option Chars := none

variable (o : Carrying)

variable (isGiven : Bool)

def follows : Bool := o.following = .always || (o.following = .given && isGiven)

def keepOld (b : Backup) (source target : Chars) (src dst : Facts) : Carry Readied := do
  let d ← disk
  let isSourceKept := baseName source = baseName target ++ b.ending &&
    ((d.facts false (target ++ b.ending)).toOption.any fun f => f.stamp.number = src.stamp.number)
  if b.keeping ≠ .numbered && isSourceKept then
    refuse ("backing up " ++ quotedName target ++ " might destroy source;  " ++
      quotedName source ++ (if o.moves then " not moved" else " not copied").toList)
  let name := b.nameFor d target
  match ← change fun d => d.rename target name with
  | .ok _ => return ⟨true, some dst, some name⟩
  | .error .notFound => return ⟨true, some dst, none⟩
  | .error f => refuse (cannot "backup" target f.text)

def mayReplace (target : Chars) (src dst : Facts) : Carry Bool := do
  if !o.moves && src.entry.isDir then return true
  match o.overwriting with
  | .never => return false
  | .asks => confirm (o.question target dst)
  | _ => return true

def readyOver (source target : Chars) (src dst : Facts) : Carry Readied := do
  let d ← disk
  let relation := o.relation d source target src dst
  let isDir := src.entry.isDir
  let overDir := dst.entry.isDir
  let keepsAll := o.moves && o.backup.isSome
  if o.overwriting ≠ .never && relation = .same then refuse (sameFileWords source target)
  if o.updates && !isDir && dst.stamp.modified ≥ src.stamp.modified then throw .done
  if !(← o.mayReplace target src dst) || relation = .settled then throw .done
  if isDir && !overDir && !keepsAll then
    refuse ("cannot overwrite non-directory " ++ quotedName target ++ " with directory " ++ quotedName source)
  if isGiven && !overDir && !o.backup.any (·.keeping = .numbered) &&
      (← get).made.contains (traceOf d target dst) then
    refuse ("will not overwrite just-created " ++ quotedName target ++ " with " ++ quotedName source)
  if !isDir && overDir && !keepsAll then
    refuse ("cannot overwrite directory " ++ quotedName target ++ " with non-directory")
  let last := baseName source
  let isDots := last = ['.'] || last = ['.', '.']
  let takesAway := !overDir && !o.moves && (o.clears || (!o.attributesOnly &&
    ((o.keepsNames && dst.names > 1) || (o.following = .never && !src.entry.isFile))))
  match o.backup, !isDots && (o.moves || !overDir), takesAway with
  | some b, true, _ => o.keepOld b source target src dst
  | _, _, true =>
    insist (cannot "remove" target ·.text) (← change fun d => d.remove target)
    if o.verbose then printLine ("removed " ++ quotedName target)
    return ⟨true, some dst, none⟩
  | _, _, false => return ⟨false, some dst, none⟩

def ready (source target : Chars) (src : Facts) : Carry Readied := do
  let e := src.entry
  let isRegular := e.isFile || (o.asFiles && !e.isDir && !e.isLink)
  let looksOnly := !isRegular || o.moves || o.symbols || o.names || o.backup.isSome || o.clears
  let r ← match (← disk).facts (!looksOnly) target with
    | .ok dst => o.readyOver isGiven source target src dst
    | .error .notFound => pure { isNew := true }
    | .error f =>
      if f = .tooManyLinks && o.force then pure { isNew := false }
      else refuse (cannot "stat" target f.text)
  let d ← disk
  let link := ((d.facts false target).toOption).filter fun f => f.entry.isLink
  let made := (← get).made
  if isGiven && !o.moves && o.backup.isNone && link.any fun f => made.contains (traceOf d target f) then
    refuse ("will not copy " ++ quotedName source ++ " through just-created symlink " ++ quotedName target)
  return r

def makeName (first target : Chars) (replaces follow tells : Bool) : Carry Unit := do
  let real := realPath (← disk) follow first
  let made ← change fun d => d.makeName real target
  let result ← if !replaces || !(made matches .error .exists) then pure made
    else
      change fun d => do
        if d.isSame real target then return d else (← d.remove target).makeName real target
  insist (fun f => "cannot create hard link " ++ quotedName target ++ " to " ++ quotedName first ++
    ": " ++ f.text) result
  if tells && !(made matches .ok _) then printLine ("removed " ++ quotedName target)

def makeSymbol (text : Bytes) (target words : Chars) : Carry Unit := do
  let made ← change fun d => d.makeLink target text
  let result ← if !o.force || !(made matches .error .exists) then pure made
    else change fun d => do (← d.remove target).makeLink target text
  insist (words ++ ": " ++ ·.text) result

def giveTimes (s : Stamp) (follow : Bool) (target : Chars) : Util Unit := do
  if o.keepsTimes then
    let _ ← change fun d => d.setStamp follow target
      fun old => { old with modified := s.modified, accessed := s.accessed }

/-- Opens a target for a copy: the disk with the opened file, whether the file is new, and whether one
was taken away for it. -/
def openTarget (isNew : Bool) (bits : Nat) (target : Chars) (d : Disk) :
    Except Fault (Disk.Opened × Bool × Bool) := do
  let place : Path := target
  let fresh (d : Disk) (cleared : Bool) : Except Fault (Disk.Opened × Bool × Bool) :=
    match d.openFile place bits with
    | .error .isDirectory => .error (if Disk.endsInSlash place then .notDirectory else .isDirectory)
    | r => r.map fun opened => (opened, true, cleared)
  if isNew then fresh d false
  else
    match d.openFile place bits with
    | .ok opened => .ok (opened, false, false)
    | .error f =>
      if o.force then do fresh (← d.remove place) true
      else if f = .notFound then fresh d false
      else .error f

def copyContent (r : Readied) (target : Chars) (src : Facts) (text : Chars) (mask : Nat) (d : Disk) :
    Except Fault (Disk × Bool) := do
  let mode := o.mode.getD src.entry.mode
  let bits := without (mode &&& 0o777) mask
  let (opened, isNew, cleared) ← o.openTarget r.isNew bits target d
  let d := if o.attributesOnly then opened.disk else opened.truncate.append (Chars.toBytes text)
  let d ← if o.keepsMode then d.setMode target src.entry.mode
    else if o.mode.isSome then d.setMode target mode
    else if o.dropsMode && isNew then d.setMode target (without 0o666 mask)
    else pure d
  return (d, cleared)

def copyFile (r : Readied) (source target : Chars) (src : Facts) : Carry Unit := do
  let text ← insist (unopened source) (← Act.readFile source)
  let d ← disk
  let mask ← umask
  let insist {α} := insist (α := α) (cannot "create regular file" target ·.text)
  if r.isNew && (d.look target).toOption.any Entry.isLink then
    refuse ("not writing through dangling symlink " ++ quotedName target)
  match src.entry, (d.stat target).toOption.any fun e => e matches .special _ with
  | .special (.program name), false =>
    insist (← change fun d => (d.clear target).make target (.special (.program name)))
  | _, true =>
    let fd ← insist (← ask (.open target .writing 0o644))
    let _ ← Act.write fd text
    ask (.close fd)
  | _, false =>
    let copy := o.copyContent r target src text mask
    let cleared := (copy d).toOption.any (·.2)
    insist (← change fun d => (copy d).map (·.1))
    if cleared && o.verbose then printLine ("removed " ++ quotedName target)
    o.giveTimes src.stamp true target

def putBack (target name : Chars) : Carry Unit := do
  match ← change fun d => d.rename name target with
  | .ok _ => if o.verbose then printLine (quotedName name ++ " -> " ++ quotedName target ++ " (unbackup)")
  | .error f => complain (cannot "un-backup" target f.text)

def copyPlain (r : Readied) (source target : Chars) (src : Facts) : Carry Unit := do
  let words := "cannot create symbolic link " ++ quotedName target
  if o.symbols then
    let d ← disk
    let isHere := source.head? = some '/' ||
      (match d.resolve true (dirName target) with
        | .ok (.entry loc _) => loc = d.cwd
        | _ => true)
    if !isHere then
      refuse (namedFile target ++ ": can make relative symbolic links only in current directory")
    o.makeSymbol (Chars.toBytes source) target (words ++ " to " ++ quotedName source)
  else if o.names then makeName source target (o.force || o.overwriting = .asks) (o.follows isGiven) false
  else
    match src.entry with
    | .link text =>
      o.makeSymbol text target words
      o.giveTimes src.stamp false target
    | e =>
      if e.isFile || o.asFiles then o.copyFile r source target src
      else refuse (cannot "create special file" target "Operation not permitted")

def earlier (target : Chars) (src : Facts) : Carry (Option Chars) := do
  let s ← get
  let number := src.stamp.number
  let known := s.copies.lookup number
  let notes := if src.entry.isDir then o.recursive && isGiven
    else !o.moves && o.keepsNames && !o.names && (src.names > 1 || o.follows isGiven)
  let asks := notes || (src.entry.isDir && o.recursive)
  if notes && known.isNone then set { s with copies := (number, target) :: s.copies }
  return if asks then known else none

def rename (top : Chars × Chars) (r : Readied) (source target : Chars) : Carry Unit := do
  match ← change fun d => d.rename source target with
  | .ok _ => if o.verbose then printLine ("renamed " ++ announcement source target r.kept)
  | .error .invalid =>
    complain ("cannot move " ++ quotedName top.1 ++ " to a subdirectory of itself, " ++ quotedName top.2)
    throw .intoItself
  | .error f => refuse ("cannot move " ++ quotedName source ++ " to " ++ quotedName target ++ ": " ++ f.text)

variable (again : Chars → Chars → Carry Unit)

def copyChildren (source target : Chars) : Carry Unit := do
  let d ← disk
  let entries ← insist (cannot "access" source ·.text) (d.children source)
  let numbered := entries.map fun (name, _) =>
    let name := Chars.ofBytes name
    (((d.facts false (inside source name)).toOption.map fun (f : Facts) => f.stamp.number).getD 0, name)
  let names := (numbered.mergeSort fun a b => a.1 ≤ b.1).map (·.2)
  let outcome ← names.foldlM (fun outcome name => do
    if outcome = .intoItself then return outcome
    match ← (again (inside source name) (inside target name)).outcome with
    | .done => return outcome
    | other => return other) Outcome.done
  if outcome ≠ .done then throw outcome

def copyDirectory (r : Readied) (source target : Chars) (src : Facts) :
    Carry Unit := do
  let mask ← umask
  let isNew := r.isNew || !r.old.any fun f => f.entry.isDir
  let bits := without (src.entry.mode &&& 0o1777) mask
  if isNew then
    insist (cannot "create directory" target ·.text)
      (← change fun d => d.makeDirectory target (bits ||| 0o700))
    let s ← get
    if !s.hasMade then
      (((← disk).facts true target).toOption).forM fun f =>
        set { s with hasMade := true, copies := (f.stamp.number, target) :: s.copies }
    if o.verbose then printLine (announcement source target none)
  let outcome ← (copyChildren again source target).outcome
  o.giveTimes src.stamp true target
  let final := if o.keepsMode then some src.entry.mode
    else if o.dropsMode && isNew then some (without 0o777 mask)
    else if isNew && bits ||| 0o700 ≠ bits then some bits
    else none
  final.forM fun mode => do let _ ← change fun d => d.setMode target mode
  if outcome ≠ .done then throw outcome

/-- Deals with a file of which a copy has been made. Says whether that was all there is to do. -/
def isSettled (top : Chars × Chars) (source target first : Chars) (src : Facts) :
    Carry Bool := do
  let d ← disk
  if !src.entry.isDir then
    makeName first target true (o.following ≠ .never) o.verbose
    return true
  else if isOneName d source first then
    complain ("cannot copy a directory, " ++ quotedName top.1 ++ ", into itself, " ++ quotedName top.2)
    throw .intoItself
  else if isOneName d target first then
    complain ("warning: source directory " ++ quotedName top.1 ++ " specified more than once")
    return true
  else if o.follows isGiven then return false
  else refuse ("will not create hard link " ++ quotedName target ++ " to directory " ++ quotedName first)

def carryKnown (again : List Nat → Chars → Chars → Carry Unit) (isGiven : Bool) (lineage : List Nat)
    (top : Chars × Chars) (source target : Chars) (src : Facts) : Carry Unit := do
  let r ← o.ready isGiven source target src
  let isDir := src.entry.isDir
  if o.verbose && !o.moves && !isDir then printLine (announcement source target r.kept)
  let work : Carry Unit := do
    if let some first ← o.earlier isGiven target src then
      if ← o.isSettled isGiven top source target first src then return
    if o.moves then o.rename top r source target
    else if !isDir then o.copyPlain isGiven r source target src
    else if lineage.contains src.stamp.number then
      refuse ("cannot copy cyclic symbolic link " ++ quotedName source)
    else o.copyDirectory (again (src.stamp.number :: lineage)) r source target src
  try work
  catch outcome =>
    if o.moves || !isDir then r.kept.forM (o.putBack target)
    throw outcome
  if isGiven then
    let d ← disk
    (d.facts false target).toOption.forM fun f => modify fun s => { s with made := traceOf d target f :: s.made }

def carryAt (top : Chars × Chars) : Nat → Bool → List Nat → (source target : Chars) → Carry Unit
  | 0, _, _, _, _ => throw .failed
  | n + 1, isGiven, lineage, source, target => do
    let d ← disk
    let src ← insist (cannot "stat" source ·.text) (d.facts (o.follows isGiven) source)
    if src.entry.isDir && !o.recursive && !o.moves then
      let words := if o.mode.isSome then "" else "-r not specified; "
      refuse (words.toList ++ "omitting directory " ++ quotedName source)
    let trace := traceOf d source src
    let isAgain := isGiven && !o.moves && !src.entry.isDir && o.backup.isNone &&
      (← get).given.contains trace
    if isAgain then
      complain ("warning: source file " ++ quotedName source ++ " specified more than once")
      return
    if isGiven && !o.moves then modify fun s => { s with given := trace :: s.given }
    o.carryKnown (carryAt top n false) isGiven lineage top source target src

def carryAll (pairs : List (Chars × Chars)) : Util Nat := do
  let isMany := pairs.length > 1
  let all : Carry Nat := pairs.foldlM (fun status (source, target) => do
    modify fun s =>
      { s with hasMade := false, given := if isMany then s.given else [], made := if isMany then s.made else [] }
    let outcome ← (o.carryAt (source, target) 1000 true [] source target).outcome
    return if outcome = .done then status else 1) 0
  return (← all.run.run' {}).toOption.getD 1

end Carrying

/-- The operands of a call: what is carried into a directory, or one file to one name. -/
inductive Errand where
  | into (dir : Chars) (sources : List Chars)
  | onto (source target : Chars)

/-- What the operands stand for. `accepts` says whether the last one is a directory to carry into. -/
def withErrand (p : Parsed) (accepts : Chars → Util Bool) (body : Errand → Applet) : Applet := do
  let whyNot (name : Chars) : Util Chars := do
    match (← disk).stat name with
    | .ok _ => return Fault.notDirectory.text
    | .error f => return f.text
  match p.value? "t", p.operands with
  | _, [] => missing "missing file operand"
  | none, [only] => missing ("missing destination file operand after " ++ quotedName only)
  | some dir, sources =>
    if p.has "T" then
      failWith 1 "cannot combine --target-directory (-t) and --no-target-directory (-T)"
    else if ← isDirectory dir then body (.into dir sources)
    else failWith 1 ("target directory " ++ quotedName dir ++ ": " ++ (← whyNot dir))
  | none, first :: second :: rest =>
    let target := (second :: rest).getLastD []
    let sources := (first :: second :: rest).dropLast
    if p.has "T" then
      match rest with
      | [] => body (.onto first second)
      | extra :: _ => missing ("extra operand " ++ quotedName extra)
    else if ← accepts target then body (.into target sources)
    else if rest.isEmpty then body (.onto first second)
    else failWith 1 ("target " ++ quotedName target ++ ": " ++ (← whyNot target))

def withKeeping (p : Parsed) (keepsOld : Bool) (body : Option Backup → Applet) : Applet :=
  if keepsOld && (p.has "b" || p.has "S") then
    missing "options --backup and --no-clobber are mutually exclusive"
  else withBackup p body

end Prune.Utility
