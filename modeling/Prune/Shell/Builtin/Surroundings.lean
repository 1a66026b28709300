import Prune.Shell.Builtin.Variables
import Prune.Utility.Printf
import Prune.Utility.Test

/-!
Built-in commands on what surrounds a command: directories, masks, names of commands; and those that
print or test something.
-/

namespace Prune.Shell.Builtin

open Host Sh

def locationText (l : Location) : Chars :=
  if l.isEmpty then ['/'] else (l.map fun name => '/' :: Chars.ofBytes name).flatten

def normalized (path : Chars) : Chars :=
  let names := (Chars.splitAt '/' path).foldl (fun (done : List Chars) name =>
    if name.isEmpty || name = ['.'] then done
    else if name = ['.', '.'] then done.tail
    else name :: done) []
  if names.isEmpty then ['/'] else (names.reverse.map ('/' :: ·)).flatten

def workingDirectory : Sh Chars := do
  return (← value "PWD").getD (locationText (← ask .disk).cwd)

def directoryText (physical : Bool) : Sh Chars := do
  if physical then return locationText (← ask .disk).cwd else workingDirectory

def setDirectory (path : Chars) : Sh Unit := do
  let old ← workingDirectory
  putVar (.ofText "OLDPWD" (some old) true false)
  putVar (.ofText "PWD" (some path) true false)

def isLocal (dest : Chars) : Bool :=
  dest.head? = some '/' || dest = ['.'] || dest = ['.', '.'] ||
    "./".toList.isPrefixOf dest || "../".toList.isPrefixOf dest

def isDirAt (d : Disk) (p : Chars) : Bool := (d.stat p).toOption.any Entry.isDir

/-- Where a directory is found by `CDPATH`, and whether that is told. -/
def byRoots (dest : Chars) (prints : Bool) : Sh (Chars × Bool) := do
  let d ← ask .disk
  let roots := Chars.splitAt ':' ((← value "CDPATH").getD [])
  return match roots.find? fun r => !r.isEmpty && isDirAt d (r ++ '/' :: dest) with
    | some r => (r ++ '/' :: dest, true)
    | none => (dest, prints)

def enter (dest : Chars) (physical prints : Bool) (refuse : Fault → Sh Nat) : Sh Nat := do
  let old ← workingDirectory
  let logical := normalized (if dest.head? = some '/' then dest else old ++ '/' :: dest)
  match ← ask (.enter (if physical then dest else logical)) with
  | .error f => refuse f
  | .ok _ =>
    let now ← if physical then directoryText true else pure logical
    setDirectory now
    if prints then say (now ++ ['\n'])
    return 0

def changeDirectory : Builtin := fun _ _ args => do
  let options := args.takeWhile fun a => a = ['-', 'L'] || a = ['-', 'P'] || a = ['-', '-']
  let physical := (options.filter (· ≠ ['-', '-'])).getLast? = some ['-', 'P']
  let operands := args.drop options.length
  let home ← value "HOME"
  let (dest, prints) ← match operands with
    | [] => pure (home.getD [], false)
    | ['-'] :: _ => pure ((← value "OLDPWD").getD [], true)
    | d :: _ => pure (d, false)
  let (dest, prints) ← if isLocal dest then pure (dest, prints) else byRoots dest prints
  let refuse : Sh Nat := refuse "cd" ("can't cd to " ++ dest)
  if dest.isEmpty then return 0
  else if !isDirAt (← ask .disk) dest then refuse
  else enter dest physical prints fun _ => refuse

def printDirectory : Builtin := fun _ _ args => do
  tell ((← directoryText (args.head? = some ['-', 'P'])) ++ ['\n'])

def rightsOf (letters : Chars) : Nat :=
  (if letters.contains 'r' then 4 else 0) + (if letters.contains 'w' then 2 else 0) +
    (if letters.contains 'x' then 1 else 0)

def octalDigits (n : Nat) : List Nat := [n / 64 % 8, n / 8 % 8, n % 8]

/-- A mask changed by a text such as `g-w` or `u=rwx,o=`; the rights in it are those that are kept. -/
def symbolicMask (mask : Nat) (text : Chars) : Option Nat :=
  let clause (digits : Option (List Nat)) (part : Chars) : Option (List Nat) := do
    let digits ← digits
    let who := part.takeWhile fun c => "ugoa".contains c
    let op :: letters := part.drop who.length | none
    if !letters.all (fun c => "rwx".contains c) then none
    else
      let bits := rightsOf letters
      let isMeant (i : Nat) : Bool :=
        who.isEmpty || who.contains 'a' || who.contains ("ugo".toList.getD i 'u')
      let change (kept : Nat) : Option Nat :=
        if op = '=' then some bits
        else if op = '+' then some (kept ||| bits)
        else if op = '-' then some (kept - (kept &&& bits))
        else none
      (digits.zipIdx).mapM fun (kept, i) => if isMeant i then change kept else some kept
  let kept := (octalDigits mask).map (7 - ·)
  ((Chars.splitAt ',' text).foldl clause (some kept)).map fun digits =>
    digits.foldl (fun n k => 8 * n + (7 - k)) 0

def umask : Builtin := fun _ _ args => do
  let mask ← ask (.umask none)
  match args with
  | [] => tell ((Nat.toDigits 8 mask).leftpad 4 '0' ++ ['\n'])
  | [['-', 'S']] =>
    let letters (n : Nat) : Chars :=
      (if n / 4 % 2 = 0 then ['r'] else []) ++ (if n / 2 % 2 = 0 then ['w'] else []) ++
        (if n % 2 = 0 then ['x'] else [])
    let parts := (octalDigits mask).zipIdx.map fun (n, i) => "ugo".toList.getD i 'u' :: '=' :: letters n
    tell (Chars.join [','] parts ++ ['\n'])
  | text :: _ =>
    let isNumber := text.head?.any Char.isDigit
    let new := if !isNumber then symbolicMask mask text
      else if text.all (Chars.isDigitOf 8) then some (Chars.valueIn 8 text % 512)
      else none
    let some n := new | refuse "umask" ((if isNumber then "Illegal number: " else "Illegal mode: ").toList ++ text)
    let _ ← ask (.umask (some n))
    return 0

def echo : Builtin := fun _ _ args => do
  tell (Utility.echoShell args)

def printf : Builtin := fun _ _ args => do
  let args := behindDashes args
  let format :: rest := args | refuse "printf" "usage: printf format [arg ...]"
  let r := Utility.Printf.run .shell format rest
  for text in r.complaints do
    complainPlain ("printf: " ++ text)
  say r.output
  return if r.broken then 2 else if r.ok then 0 else 1

def test (bracket : Bool) : Builtin := fun _ _ args => do
  if bracket && args.getLast? ≠ some [']'] then refuse "[" "missing ]"
  let words := if bracket then args.dropLast else args
  if words.isEmpty then return 1
  match Utility.Test.holds (← ask .disk) words with
  | .ok b => return if b then 0 else 1
  | .error text => fail 2 ((if bracket then "[: " else "test: ").toList ++ text)

def notFound (command : String) (name : Chars) : Sh Nat := do
  if ← isExtended then complainPlain (command.toList ++ ": " ++ name ++ ": not found")
  else let _ ← put 2 (command.toList ++ ": " ++ name ++ " not found\n")
  return 1

def aliases : Builtin := fun _ _ args => do
  let (extended, wide) := (← isExtended, ← wide)
  let args := if extended then args.filter (· ≠ ['-', 'p']) else args
  let line (p : Chars × Chars) : Chars :=
    (if extended then "alias " ++ p.1 ++ '=' :: Quoting.single wide p.2 else p.1 ++ '=' :: Quoting.between p.2) ++ ['\n']
  if args.isEmpty then
    let all := sortBy (fun (a : Chars × Chars) b => Chars.le a.1 b.1) (← get).aliases
    return ← tell (all.map line).flatten
  forEach args fun arg => do
    match Chars.cut '=' arg with
    | (name, some text) =>
      modify fun s => { s with aliases := (name, text) :: s.aliases.filter (·.1 ≠ name) }
      return 0
    | (name, none) =>
      match (← get).aliases.lookup name with
      | some text => tell (line (name, text))
      | none => notFound "alias" name

def unalias : Builtin := fun _ _ args => do
  if args = [['-', 'a']] || ((← isExtended) && args.head? = some ['-', 'a']) then
    modify ({ · with aliases := [] })
    return 0
  forEach args fun name => do
    if !(← get).aliases.any (·.1 = name) then return ← notFound "unalias" name
    modify fun s => { s with aliases := s.aliases.filter (·.1 ≠ name) }
    return 0

def limits : Builtin := fun _ _ args => do
  if args.all fun a => a.head? = some '-' then say "unlimited\n"
  return 0

def times : Builtin := fun _ _ _ => do
  tell "0m0.00s 0m0.00s\n0m0.00s 0m0.00s\n"

end Prune.Shell.Builtin
