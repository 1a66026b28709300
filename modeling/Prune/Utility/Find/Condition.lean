import Prune.Regex.Parse
import Prune.Utility.Launch
import Prune.Utility.Listing

/-!
What can be asked of a file that a search meets, and what can be done with it.
-/

namespace Prune.Utility

open Host Util

inductive Bound where
  | exactly (n : Nat)
  | above (n : Nat)
  | below (n : Nat)

def Bound.holds : Bound → Nat → Bool
  | .exactly n, m => m = n
  | .above n, m => m > n
  | .below n, m => m < n

def bound? : Chars → Option Bound
  | '+' :: digits => (Chars.toNat? digits).map .above
  | '-' :: digits => (Chars.toNat? digits).map .below
  | digits => (Chars.toNat? digits).map .exactly

inductive PermBound where
  | exactly (mode : Nat)
  | allOf (mode : Nat)
  | anyOf (mode : Nat)

/-- Times that are asked for: before one, after one, or behind one and not later than another. -/
inductive TimeBound where
  | before (micros : Int)
  | after (micros : Int)
  | between (low high : Int)

def TimeBound.holds : TimeBound → Int → Bool
  | .before t, m => m < t
  | .after t, m => m > t
  | .between low high, m => low < m && m ≤ high

inductive Condition where
  | always
  | never
  | name (pattern : Chars) (folds : Bool)
  | path (pattern : Chars) (folds : Bool)
  | target (pattern : Chars) (folds : Bool)
  | kind (letters : Chars)
  /-- The kind of what a link leads to, or of the link where links are followed. -/
  | otherKind (letters : Chars)
  | empty
  | size (bound : Bound) (unit : Nat)
  | time (which : WhichTime) (bound : TimeBound)
  | perm (bound : PermBound)
  | may (bit : Nat)
  | names (bound : Bound)
  | number (bound : Bound)
  | fits (r : Regex) (folds : Bool)
  /-- The number names a file the text goes to; the standard output has none. -/
  | print (file : Option Nat) (mark : Char)
  | printf (file : Option Nat) (format : Chars)
  | run (argv : List Chars) (inDir asks : Bool)
  /-- The names are gathered, and the program is run with all of them in the end. -/
  | gather (number : Nat) (argv : List Chars) (inDir : Bool)
  | delete
  | prune
  | quit
  | not (c : Condition)
  | both (a b : Condition)
  | either (a b : Condition)
  | comma (a b : Condition)

namespace Condition

def anyPart (f : Condition → Bool) : Condition → Bool
  | .not c => c.anyPart f
  | .both a b | .either a b | .comma a b => a.anyPart f || b.anyPart f
  | c => f c

def acts (c : Condition) : Bool := c.anyPart fun
  | .print .. | .printf .. | .run .. | .gather .. | .delete => true
  | _ => false

def deletes (c : Condition) : Bool := c.anyPart fun
  | .delete => true
  | _ => false

def gatherers : Condition → List (Nat × List Chars × Bool)
  | .gather n argv inDir => [(n, argv, inDir)]
  | .not c => c.gatherers
  | .both a b | .either a b | .comma a b => a.gatherers ++ b.gatherers
  | _ => []

end Condition

structure Finding where
  status : Nat
  stopped : Bool
  pruned : Bool
  gathered : List (Nat × Chars)

structure Met where
  path : Chars
  top : Chars
  depth : Nat
  facts : Facts
  follows : Bool

structure FindSetting where
  wide : Bool
  files : List (Nat × Nat)

def kindOf (e : Entry) : Char := if e.letter = '-' then 'f' else e.letter

def farKind (d : Disk) (m : Met) : Chars :=
  if m.facts.entry.isLink then
    match d.stat m.path with
    | .ok e => [kindOf e]
    | .error .tooManyLinks => ['L']
    | .error _ => ['N']
  else [kindOf m.facts.entry]

def findField (d : Disk) (m : Met) : Char → Option FieldValue
  | 'p' => some (.text m.path)
  | 'f' => some (.text (baseName m.path))
  | 'h' =>
    let dir := (m.path.reverse.dropWhile (· ≠ '/')).drop 1
    some (.text (if m.path.contains '/' then dir.reverse else ['.']))
  | 'H' => some (.text m.top)
  | 'P' => some (.text ((m.path.drop m.top.length).dropWhile (· = '/')))
  | 'd' => some (.text (Chars.ofNat m.depth))
  | 'm' => some (.number (m.facts.entry.mode % 0o10000) 8)
  | 'M' => some (.text (modeText m.facts.entry))
  | 'y' => some (.text [kindOf m.facts.entry])
  | 'Y' => some (.text (farKind d m))
  | 'l' =>
    match m.facts.entry with
    | .link t => some (.text (Chars.ofBytes t))
    | _ => some (.text [])
  | 's' => some (.text (Chars.ofNat m.facts.entry.size))
  | 'b' => some (.text (Chars.ofNat (m.facts.room / 512)))
  | 'k' => some (.text (Chars.ofNat (m.facts.room / 1024)))
  | 'n' => some (.text (Chars.ofNat m.facts.names))
  | 'i' => some (.text (Chars.ofNat m.facts.stamp.number))
  | 'D' => some (.text (Chars.ofNat diskNumber))
  | 'F' => some (.text "overlay")
  | 'u' | 'g' => some (.text "root")
  | 'U' | 'G' => some (.text ['0'])
  | 'S' => some (.text ['1'])
  | _ => none

/-- A format with its fields filled in; what stands for nothing is left as it is. -/
def findText (d : Disk) (m : Met) : Nat → Chars → Chars
  | 0, _ | _, [] => []
  | n + 1, '%' :: rest =>
    let (flags, width, digits, behind) := fieldStart "-+ #0" rest
    let fill (v : FieldValue) : Chars :=
      fieldText flags ((Chars.toNat? width).getD 0) (digits.bind Chars.toNat?) v
    match behind with
    | [] => []
    | '%' :: more => '%' :: findText d m n more
    | c :: more =>
      match findField d m c with
      | some v => fill v ++ findText d m n more
      | none => '%' :: rest.take (rest.length - more.length) ++ findText d m n more
  | n + 1, '\\' :: rest =>
    match rest with
    | [] => ['\\']
    | 'c' :: _ => []
    | c :: more =>
      let digits := Chars.digitsIn 8 3 rest
      if !digits.isEmpty then
        Char.ofNat (Chars.valueIn 8 digits % 256) :: findText d m n (rest.drop digits.length)
      else
        match if c = 'e' || c = '"' then none else formatEscape c with
        | some e => e :: findText d m n more
        | none => '\\' :: c :: findText d m n more
  | n + 1, c :: rest => c :: findText d m n rest

def isEmptyEntry (d : Disk) (m : Met) : Bool :=
  match m.facts.entry with
  | .file _ content => content.isEmpty
  | .dir _ => (d.children m.path).toOption.any List.isEmpty
  | _ => false

def findWords (name : Chars) (f : Fault) : Chars := quoted name ++ ": " ++ f.text

def FindSetting.fits (s : FindSetting) (folds : Bool) (pattern text : Chars) : Bool :=
  Shell.matchesText ⟨false, true, s.wide, folds⟩ pattern text

def FindSetting.put (s : FindSetting) (file : Option Nat) (text : Chars) : Util Unit := do
  let some fd := file.bind fun n => s.files.lookup n | print text
  let _ ← Act.write fd text

def Condition.check (setting : FindSetting) (m : Met) : Condition → Finding → Util (Bool × Finding)
  | .always, s => return (true, s)
  | .never, s => return (false, s)
  | .name pattern folds, s => return (setting.fits folds pattern (baseName m.path), s)
  | .path pattern folds, s => return (setting.fits folds pattern m.path, s)
  | .target pattern folds, s =>
    return (match m.facts.entry with
      | .link t => setting.fits folds pattern (Chars.ofBytes t)
      | _ => false, s)
  | .kind letters, s => return (letters.contains (kindOf m.facts.entry), s)
  | .otherKind letters, s => do
    let d ← disk
    match d.facts (!m.follows) m.path with
    | .ok f => return (letters.contains (kindOf f.entry), s)
    | .error .tooManyLinks =>
      complain (findWords m.path .tooManyLinks)
      return (false, { s with status := 1 })
    | .error _ => return (letters.contains 'l', s)
  | .empty, s => do return (isEmptyEntry (← disk) m, s)
  | .size bound unit, s => return (bound.holds ((m.facts.entry.size + unit - 1) / unit), s)
  | .time which bound, s => return (bound.holds (which.of m.facts.stamp), s)
  | .perm bound, s =>
    let mode := m.facts.entry.mode
    return (match bound with
      | .exactly n => mode = n
      | .allOf n => mode &&& n = n
      | .anyOf n => n = 0 || mode &&& n ≠ 0, s)
  | .may bit, s => return (Disk.allows m.facts.entry.mode bit, s)
  | .names bound, s => return (bound.holds m.facts.names, s)
  | .number bound, s => return (bound.holds m.facts.stamp.number, s)
  | .fits r folds, s => do
    let text := (Letters.of setting.wide m.path).toArray
    let manner : Regex.Manner := ⟨folds, false, setting.wide⟩
    return ((Regex.ends manner text r [0]).contains text.size ||
      (r.repeats && r.endFrom manner text 0 = some text.size), s)
  | .print file mark, s => do
    setting.put file (m.path ++ [mark])
    return (true, s)
  | .printf file format, s => do
    setting.put file (findText (← disk) m (format.length + 1) format)
    return (true, s)
  | .run argv inDir asks, s => do
    let name := if inDir then "./" ++ baseName m.path else m.path
    let yes ← if asks then do
        flush
        warn ("< " ++ argv.headD [] ++ " ... " ++ m.path ++ " > ? ")
        match ← Act.readLine 0 with
        | .ok (c :: _) => pure (c = 'y' || c = 'Y')
        | _ => pure false
      else pure true
    if !yes then return (false, s)
    let argv := argv.map fun a => replaceAll ['\x7b', '\x7d'] name (a.length + 1) a
    let dir := if inDir && m.path.contains '/' then some (dirName m.path) else none
    let ending ← runWith findWords dir (← read).env argv
    return (ending = .exited 0, s)
  | .gather n _ _, s => return (true, { s with gathered := (n, m.path) :: s.gathered })
  | .delete, s => do
    if m.path = ['.'] then return (true, s)
    let path : Path := m.path
    match ← change fun d => if m.facts.entry.isDir then d.removeDirectory path else d.remove path with
    | .ok _ => return (true, s)
    | .error f =>
      complain ("cannot delete " ++ findWords m.path f)
      return (false, { s with status := 1 })
  | .prune, s => return (true, { s with pruned := true })
  | .quit, s => return (true, { s with stopped := true })
  | .not c, s => do
    let (b, s) ← c.check setting m s
    return (!b, s)
  | .both a b, s => do
    match ← a.check setting m s with
    | (true, s) => if s.stopped then return (true, s) else b.check setting m s
    | (false, s) => return (false, s)
  | .either a b, s => do
    match ← a.check setting m s with
    | (true, s) => return (true, s)
    | (false, s) => b.check setting m s
  | .comma a b, s => do
    let (_, s) ← a.check setting m s
    if s.stopped then return (true, s) else b.check setting m s

end Prune.Utility
