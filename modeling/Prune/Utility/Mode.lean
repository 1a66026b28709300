import Prune.Utility.Basic

/-!
The permission bits of files: how they are written, how a text changes them, and the program that
does so.
-/

namespace Prune.Utility

open Host Util

def allBits : Nat := 0o7777

def identityBits : Nat := 0o6000

def without (bits others : Nat) : Nat := bits - (bits &&& others)

inductive BitSource where
  | given
  /-- Those that the file has already for its owner, its group or others. -/
  | copied
  /-- They are given, with the bit to run for what can be run or entered already. -/
  | runnable

structure ModeChange where
  sign : Char
  source : BitSource
  /-- Whose bits are changed; none if all are, as the mask of the process allows. -/
  affected : Nat
  value : Nat
  mentioned : Nat

namespace ModeChange

def leadingOctal (text : Chars) : Nat × Chars :=
  let (digits, rest) := text.span (Chars.isDigitOf 8)
  (Chars.valueIn 8 digits, rest)

def affectedBy : Char → Option Nat
  | 'u' => some 0o4700
  | 'g' => some 0o2070
  | 'o' => some 0o1007
  | 'a' => some allBits
  | _ => none

def bitsOf : Char → Option Nat
  | 'r' => some 0o444
  | 'w' => some 0o222
  | 'x' => some 0o111
  | 'X' => some 0
  | 's' => some identityBits
  | 't' => some 0o1000
  | _ => none

def isSign (c : Char) : Bool := c = '=' || c = '+' || c = '-'

/-- The changes of one clause behind its first letters, and what follows the clause. -/
def readSigns (affected : Nat) : Nat → Chars → Option (List ModeChange × Chars)
  | 0, _ => none
  | n + 1, text =>
    match text with
    | [] => none
    | sign :: rest =>
      let made (source : BitSource) (value : Nat) : ModeChange :=
        ⟨sign, source, affected, value, if affected = 0 then value else affected &&& value⟩
      let next (c : ModeChange) (rest : Chars) : Option (List ModeChange × Chars) :=
        if rest.head?.any isSign then (readSigns affected n rest).map fun (more, rest) => (c :: more, rest)
        else some ([c], rest)
      match rest with
      | 'u' :: rest => next (made .copied 0o700) rest
      | 'g' :: rest => next (made .copied 0o070) rest
      | 'o' :: rest => next (made .copied 0o007) rest
      | _ =>
        if rest.head?.any (Chars.isDigitOf 8) then
          let (value, behind) := leadingOctal rest
          let isAlone := behind.isEmpty || behind.head? = some ','
          if affected ≠ 0 || !isAlone || value > allBits then none
          else some ([⟨sign, .given, allBits, value, allBits⟩], behind)
        else
          let (letters, rest) := rest.span fun c => (bitsOf c).isSome
          let value := letters.foldl (fun n c => n ||| (bitsOf c).getD 0) 0
          next (made (if letters.contains 'X' then .runnable else .given) value) rest

def readClauses : Nat → Chars → Option (List ModeChange)
  | 0, _ => none
  | n + 1, text =>
    let (who, rest) := text.span fun c => (affectedBy c).isSome
    let affected := who.foldl (fun bits c => bits ||| (affectedBy c).getD 0) 0
    if !rest.head?.any isSign then none
    else
      match readSigns affected (rest.length + 1) rest with
      | some (changes, []) => some changes
      | some (changes, ',' :: rest) => (readClauses n rest).map (changes ++ ·)
      | _ => none

/-- The changes that a text stands for. A number sets all bits; one of few digits leaves those alone that
a directory passes on. -/
def read? (text : Chars) : Option (List ModeChange) :=
  if text.head?.any (Chars.isDigitOf 8) then
    let (value, rest) := leadingOctal text
    if !rest.isEmpty || value > allBits then none
    else
      let mentioned := if text.length < 5 then (value &&& identityBits) ||| 0o1777 else allBits
      some [⟨'=', .given, allBits, value, mentioned⟩]
  else readClauses (text.length + 1) text

def ofBits (mode : Nat) : ModeChange := ⟨'=', .given, allBits, mode, allBits⟩

def kept (isDir : Bool) (c : ModeChange) : Nat := if isDir then without identityBits c.mentioned else 0

def bitsFor (mask : Nat) (isDir : Bool) (mode : Nat) (c : ModeChange) : Nat :=
  let value := match c.source with
    | .given => c.value
    | .copied =>
      let own := c.value &&& mode
      [0o444, 0o222, 0o111].foldl (fun bits same => if own &&& same ≠ 0 then bits ||| same else bits) own
    | .runnable => if isDir || mode &&& 0o111 ≠ 0 then c.value ||| 0o111 else c.value
  without (if c.affected = 0 then without value mask else value &&& c.affected) (c.kept isDir)

def preserved (isDir : Bool) (c : ModeChange) : Nat :=
  (if c.affected = 0 then 0 else without allBits c.affected) ||| c.kept isDir

def apply (mask : Nat) (isDir : Bool) (mode : Nat) (c : ModeChange) : Nat :=
  let bits := c.bitsFor mask isDir mode
  match c.sign with
  | '+' => mode ||| bits
  | '-' => without mode bits
  | _ => (mode &&& c.preserved isDir) ||| bits

def applyAll (changes : List ModeChange) (mask : Nat) (isDir : Bool) (mode : Nat) : Nat :=
  changes.foldl (apply mask isDir) mode

def touched : List ModeChange → Nat → Bool → Nat → Nat
  | [], _, _, _ => 0
  | c :: rest, mask, isDir, mode =>
    let bits := if c.sign = '=' then without allBits (c.preserved isDir) else c.bitsFor mask isDir mode
    bits ||| touched rest mask isDir (apply mask isDir mode c)

end ModeChange

def bitLetters (bits : Nat) (extra : Bool) (letter : Char) : Chars :=
  let runs := bits % 2 == 1
  let last := match extra, runs with
    | true, true => letter
    | true, false => letter.toUpper
    | false, true => 'x'
    | false, false => '-'
  [if bits / 4 % 2 = 1 then 'r' else '-', if bits / 2 % 2 = 1 then 'w' else '-', last]

def modeLetters (mode : Nat) : Chars :=
  bitLetters (mode / 64) (mode &&& 0o4000 ≠ 0) 's' ++ bitLetters (mode / 8) (mode &&& 0o2000 ≠ 0) 's' ++
    bitLetters mode (mode &&& 0o1000 ≠ 0) 't'

def modeDigits (mode : Nat) : Chars := (Nat.toDigits 8 mode).leftpad 4 '0'

def modeWords (mode : Nat) : Chars := modeDigits mode ++ " (" ++ modeLetters mode ++ [')']

structure ChmodManner where
  changes : List ModeChange
  mask : Nat
  recursive : Bool
  silent : Bool
  verbose : Bool
  tellsChanges : Bool
  /-- The mode looked like an option: bits that the mask has kept are worth a word. -/
  watchesMask : Bool

namespace ChmodManner

variable (m : ChmodManner)

def complains (text : Chars) : Util Nat := do
  if !m.silent then complain text
  return 1

def changeOne (name : Chars) (e : Entry) : Util Nat := do
  let old := e.mode
  let new := ModeChange.applyAll m.changes m.mask e.isDir old
  let result ← change fun d => d.setMode name new
  let hasWorked := result matches .ok _
  let status ← match result with
    | .ok _ => pure 0
    | .error f => m.complains ("changing permissions of " ++ quotedName name ++ ": " ++ f.text)
  let isChanged := hasWorked && new ≠ old
  if m.verbose || (m.tellsChanges && isChanged) then
    let change := " from " ++ modeWords old ++ " to " ++ modeWords new
    printLine (
      if !hasWorked then "failed to change mode of " ++ quotedName name ++ change
      else if isChanged then "mode of " ++ quotedName name ++ " changed" ++ change
      else "mode of " ++ quotedName name ++ " retained as " ++ modeWords old)
  let naive := ModeChange.applyAll m.changes 0 e.isDir old
  if hasWorked && m.watchesMask && without new naive ≠ 0 then
    complain (namedFile name ++ ": new permissions are " ++ modeLetters new ++
      ", not " ++ modeLetters naive)
    return 1
  return status

/-- Changes the bits of a file, or of a directory with all in it. Links are followed only where they are
given. -/
def changeTree : Nat → Bool → Chars → Util Nat
  | 0, _, _ => return 1
  | n + 1, isGiven, name => do
    let d ← disk
    let place : Path := name
    match if isGiven then d.stat place else d.look place with
    | .error f =>
      let status ← if (d.look place).toOption.any Entry.isLink && f = .notFound then
          m.complains ("cannot operate on dangling symlink " ++ quotedName name)
        else m.complains (cannot "access" name f.text)
      if m.verbose then printLine (quotedName name ++ " could not be accessed")
      return status
    | .ok (.link _) =>
      if m.verbose then
        printLine ("neither symbolic link " ++ quotedName name ++ " nor referent has been changed")
      return 0
    | .ok e =>
      let status ← m.changeOne name e
      if m.recursive && e.isDir then
        match (← disk).children place with
        | .error f => return max status (← m.complains (cannot "read directory" name f.text))
        | .ok entries =>
          entries.foldlM (fun status (child, _) => do
            return max status (← changeTree n false (inside name (Chars.ofBytes child)))) status
      else return status

end ChmodManner

def splitModes : List Chars → List Chars × List Chars
  | [] => ([], [])
  | ['-', '-'] :: rest => ([], ['-', '-'] :: rest)
  | arg :: rest =>
    let (modes, others) := splitModes rest
    match arg with
    | '-' :: c :: _ =>
      if "rwxXstugoa,+=01234567".contains c then (arg :: modes, others) else (modes, arg :: others)
    | _ => (modes, arg :: others)

def chmod : Applet := do
  let (modes, others) := splitModes (← args)
  let given := if modes.isEmpty then none else some (Chars.join [','] modes)
  let body (p : Parsed) : Applet := do
    let mask ← umask
    let run (changes : List ModeChange) (files : List Chars) : Applet := do
      let tells := p.lastKey? ["v", "c"]
      let m : ChmodManner :=
        ⟨changes, mask, p.has "R", p.has "f", tells = some "v", tells = some "c", given.isSome⟩
      forEach files (m.changeTree 1000 true)
    match p.value? "reference", given, p.operands with
    | some _, some _, _ => missing "cannot combine mode and --reference options"
    | some _, none, [] => missing "missing operand"
    | some file, none, files =>
      match (← disk).stat file with
      | .ok e => run [ModeChange.ofBits e.mode] files
      | .error f => failWith 1 ("failed to get attributes of " ++ quotedName file ++ ": " ++ f.text)
    | none, _, [] => missing "missing operand"
    | none, none, [mode] => missing ("missing operand after " ++ quoted mode)
    | none, _, first :: rest =>
      let (mode, files) := match given with
        | some mode => (mode, first :: rest)
        | none => (first, rest)
      match ModeChange.read? mode with
      | some changes => run changes files
      | none => missing ("invalid mode: " ++ quoted mode)
  fun inv => withOptions (optionsOf "cfRv" "changes=c silent=f quiet=f verbose=v recursive=R
    reference: preserve-root=root no-preserve-root=noroot") true 1 body { inv with args := others }

end Prune.Utility
