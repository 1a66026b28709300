import Prune.Shell.Assign

/-!
Redirections: the numbers a command reads from and writes to, changed for a while or for good.
-/

namespace Prune.Shell

open Host

inductive Aimed where
  | file (fd : Nat) (opening : Opening) (name : Chars)
  /-- Without a source the number is closed. -/
  | copy (fd : Nat) (source : Option Nat)
  | text (fd : Nat) (content : Chars)
  /-- The number stays as it is when the command has ended. -/
  | lasting (a : Aimed)

abbrev Undo := List (Nat × Option Nat)

def openingFault (making : Bool) (f : Fault) : Chars :=
  if f = .notFound || f = .notDirectory then
    (if making then "Directory nonexistent" else "No such file").toList
  else f.text

namespace Sh

variable (self : Self)

def ambiguous (w : Word) : Sh α := do
  complain (writtenForm w ++ ": ambiguous redirect")
  throw (.fault 1)

def fileName (w : Word) : Sh Chars := do
  if ← isExtended then
    match ← fields self w with
    | [name] => return name
    | _ => ambiguous w
  else single self w

def freeFrom : Nat → Nat → Sh Nat
  | 0, n => return n
  | k + 1, n => do
    match ← ask (.describe n) with
    | some _ => freeFrom k (n + 1)
    | none => return n

def aimCopy (fd : Nat) (source : Word) : Sh (List Aimed) := do
  let text ← single self source
  let extended ← isExtended
  let moves := extended && text.length > 1 && text.getLast? = some '-'
  let digits := if moves then text.dropLast else text
  match digits, Chars.toNat? digits with
  | ['-'], _ => return [.copy fd none]
  | _, some n =>
    if !extended && digits.length ≠ 1 then bad
    else return .copy fd (some n) :: (if moves && n ≠ fd then [.copy n none] else [])
  | _, none =>
    if !extended then bad
    else if fd = 1 && !text.isEmpty then return [.file 1 .output text, .copy 2 (some 1)]
    else ambiguous source
where
  bad : Sh (List Aimed) := giveUp "Syntax error: Bad fd number"

def aimAt (fd : Nat) : Redirection → Sh (List Aimed)
  | .file _ opening name => do return [.file fd opening (← fileName self name)]
  | .document _ number => do
    return [.text fd (← document self (((← get).documents.lookup number).getD []))]
  | .copy _ source => aimCopy self fd source
  | .text _ content => do return [.text fd ((← single self content) ++ ['\n'])]
  | _ => return []

def aim (r : Redirection) : Sh (List Aimed) := do
  match r with
  | .file fd .. | .document fd _ | .copy fd _ | .text fd _ => aimAt self fd r
  | .both appends name =>
    return [.file 1 (if appends then .append else .output) (← fileName self name), .copy 2 (some 1)]
  | .chosen name (.copy _ [.plain '-']) =>
    match (← value name).bind Chars.toNat? with
    | some n => return [.lasting (.copy n none)]
    | none => ambiguous (plainWord name)
  | .chosen name r =>
    let fd ← freeFrom 1000 10
    let aimed ← aimAt self fd r
    assign name (Chars.ofNat fd)
    return aimed.map .lasting

def keep (fd : Nat) : Sh (Nat × Option Nat) := do
  return (fd, (← ask (.duplicate fd 10)).toOption)

def undo (u : Undo) : Sh Unit := do
  for (fd, copy) in u do
    let some n := copy | ask (.close fd)
    let _ ← ask (.duplicateTo n fd)
    ask (.close n)

def moveTo (source fd : Nat) : Sh Unit := do
  if source ≠ fd then
    let _ ← ask (.duplicateTo source fd)
    ask (.close source)

def openFor (opening : Opening) (name : Chars) : Sh (Option Nat) := do
  let path : Path := name
  let protects := (← option 'C') && opening = .output
  let isThere ← if protects then do pure ((← ask .disk).isFile path) else pure false
  let result ←
    if isThere then pure (.error Fault.exists)
    else
      match opening with
      | .input => ask (.open path .reading 0)
      | .output | .force => ask (.open path .writing 0o666)
      | .append => ask (.open path .appending 0o666)
      | .both => ask (.open path .both 0o666)
  match result with
  | .ok fd => return some fd
  | .error f =>
    let making := opening ≠ .input
    if ← isExtended then
      complain (name ++ ": " ++ (if isThere then "cannot overwrite existing file".toList else f.text))
    else complain ((if making then "cannot create " else "cannot open ").toList ++ name ++ ": " ++
      openingFault making f)
    return none

def redirectOne : Aimed → Sh Bool
  | .lasting a => redirectOne a
  | .file fd opening name => do
    match ← openFor opening name with
    | some source => moveTo source fd; return true
    | none => return false
  | .copy fd none => do ask (.close fd); return true
  | .copy fd (some source) => do
    if fd = source then return true
    match ← ask (.duplicateTo source fd) with
    | .ok _ => return true
    | .error f =>
      complain (Chars.ofNat source ++ ": " ++ f.text)
      return false
  | .text fd content => do
    let (out, into) ← ask .pipe
    if content.length ≤ 4096 then let _ ← put into content
    else
      let _ ← act (Act.fork do
        Act.ask (.close out)
        let _ ← Act.write into content
        return 0)
    ask (.close into)
    moveTo out fd
    return true

def Aimed.changed? : Aimed → Option Nat
  | .file fd .. | .copy fd _ | .text fd _ => some fd
  | .lasting _ => none

/-- Carries out redirections one after the other; what to undo, or none if one fails, when those
before it are undone. -/
def redirectAll : List Aimed → Undo → Sh (Option Undo)
  | [], u => return some u
  | a :: rest, u => do
    let u ← match (Aimed.changed? a).filter fun fd => !u.any (·.1 = fd) with
      | some fd => do pure ((← keep fd) :: u)
      | none => pure u
    if ← redirectOne a then redirectAll rest u
    else
      undo u
      return none

def settle (u : Undo) : Sh Unit := do
  for (_, copy) in u do
    copy.forM fun n => ask (.close n)

def redirectFault : Sh Nat := do return if ← isExtended then 1 else 2

def closeFeeds (before : List Nat) : Sh Unit := do
  for fd in (← get).feeds do
    if !before.contains fd then ask (.close fd)
  modify ({ · with feeds := before })

/-- The redirections carried out; none if the words of one are not what they should be, or one fails. -/
def redirect (rs : List Redirection) : Sh (Option Undo) := do
  match ← outcome (rs.mapM (aim self)) with
  | .ok aimed => redirectAll aimed.flatten []
  | .error (.fault status) => if ← isExtended then return none else throw (.fault status)
  | .error stop => throw stop

def redirected (rs : List Redirection) (body : Sh Nat) : Sh Nat := do
  let feeds := (← get).feeds
  let some u ← redirect self rs | redirectFault
  let back := do
    undo u
    closeFeeds feeds
  always back body

end Sh

end Prune.Shell
