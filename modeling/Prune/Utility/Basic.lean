import Prune.Disk.Arrange
import Prune.Host.Transfer
import Prune.Text.Letters
import Prune.Utility.Quote

/-!
Programs that are called with arguments, read, print, complain and end with a status. What they print
is gathered and written in larger pieces; complaints are written at once.
-/

namespace Prune.Utility

open Host

structure Invocation where
  name : Chars
  args : List Chars
  env : Env
  exec : Exec

def byteText (c : Char) : Chars :=
  let low (c : Char) : Chars :=
    if c.toNat < 32 then ['^', Char.ofNat (c.toNat + 64)]
    else if c = '\x7f' then ['^', '?']
    else [c]
  if c.toNat ≥ 128 then "M-" ++ low (Char.ofNat (c.toNat - 128)) else low c

structure Buffer where
  parts : List Chars
  size : Nat
  fault : Option Fault

abbrev Util := ReaderT Invocation (StateT Buffer Act)

def bufferSize : Nat := 4096

namespace Util

def act (t : Act α) : Util α := fun _ s => do return (← t, s)

def ask (c : Call) : Util c.Answer := act (Act.ask c)

def args : Util (List Chars) := do return (← read).args

def flush : Util Unit := do
  let b ← get
  if b.size > 0 then
    match ← act (Act.write 1 b.parts.reverse.flatten) with
    | .ok _ => set { b with parts := [], size := 0 }
    | .error f => set { b with parts := [], size := 0, fault := b.fault <|> some f }

variable (text : Chars)

def print : Util Unit := do
  modify fun b => { b with parts := text :: b.parts, size := b.size + text.length }
  if (← get).size ≥ bufferSize then flush

def printLine : Util Unit := print (text ++ ['\n'])

def wide : Util Bool := do
  let env := (← read).env
  return Letters.isWide fun name => env.lookup name

def warn : Util Unit := do
  let text := if ← wide then text else plainQuotes text
  let _ ← act (Act.write 2 text)

def remark : Util Unit := do
  let name := (← read).name
  warn (name ++ ": " ++ text ++ ['\n'])

def complain : Util Unit := do
  flush
  remark text

def pointToHelp : Util Unit := do
  let name := (← read).name
  let _ ← act (Act.write 2 ("Try '" ++ name ++ " --help' for more information.\n"))

def complainOf (file : Chars) (f : Fault) : Util Unit := complain (namedFile file ++ ": " ++ f.text)

def complainPlainly (file : Chars) (f : Fault) : Util Unit := complain (file ++ ": " ++ f.text)

def confirm (question : Chars) : Util Bool := do
  let name := (← read).name
  warn (name ++ ": " ++ question ++ "? ")
  match ← act (Act.readLine 0) with
  | .ok (c :: _) => return c = 'y' || c = 'Y'
  | _ => return false

def forEach (items : List α) (act : α → Util Nat) : Util Nat :=
  items.foldlM (fun status a => do return max status (← act a)) 0

def contents (file : Chars) : Util (Except Fault Chars) :=
  act (if file = ['-'] then Act.readAll 0 else Act.readFile file)

def disk : Util Disk := ask .disk

def change (f : Disk → Except Fault Disk) : Util (Except Fault Unit) := ask (.change f)

def umask : Util Nat := ask (.umask none)

def run (u : Util Nat) (inv : Invocation) : Act Nat := do
  let (status, b) ← (do
    let status ← u
    flush
    return status : Util Nat) inv ⟨[], 0, none⟩
  let some f := b.fault | return status
  let _ ← Act.write 2 (inv.name ++ ": write error: " ++ f.text ++ ['\n'])
  return if status = 0 then 1 else status

end Util

abbrev Applet := Util Nat

def failWith (status : Nat) (words : Chars) : Applet := do
  Util.complain words
  return status

/-- Work that may end before its time, with a status. -/
abbrev Effort := ExceptT Nat Util

namespace Effort

def refuse (status : Nat) (words : Chars) : Effort α := do
  Util.complain words
  throw status

def insist (status : Nat) (words : ε → Chars) : Except ε α → Effort α
  | .ok a => return a
  | .error e => refuse status (words e)

def status (t : Effort Nat) : Applet := do
  match ← t.run with
  | .ok s | .error s => return s

def named (file : Chars) : Except Fault α → Effort α := insist 1 fun f => namedFile file ++ ": " ++ f.text

def text (file : Chars) : Effort Chars := do named file (← Util.contents file)

end Effort

def failOn (file : Chars) (f : Fault) : Applet := failWith 1 (namedFile file ++ ": " ++ f.text)

def chunks (size : Nat) : Nat → List α → List (List α)
  | 0, _ | _, [] => []
  | n + 1, xs => xs.take (max size 1) :: chunks size n (xs.drop (max size 1))

/-!
Options in front of and between the operands of a program.
-/

open Util

inductive Arity where
  | none
  | required
  /-- Only in the same argument. -/
  | optional
deriving DecidableEq

/-- An option of a program: what it is called here, its letter and its long name. -/
structure OptionSpec where
  key : String
  letter : Option Char
  long : Option String
  arity : Arity

structure Given where
  key : String
  value : Chars

structure Parsed where
  options : List Given
  operands : List Chars

def lettersOf (spec : String) : List OptionSpec :=
  let rec go : List Char → List OptionSpec
    | [] => []
    | c :: ':' :: rest => ⟨String.singleton c, some c, none, .required⟩ :: go rest
    | c :: rest => ⟨String.singleton c, some c, none, .none⟩ :: go rest
  go spec.toList

def longOf (word : Chars) : OptionSpec :=
  let colons := (word.reverse.takeWhile (· = ':')).length
  let (name, key) := Chars.cut '=' (word.take (word.length - colons))
  ⟨String.ofList (key.getD name), none, some (String.ofList name),
    if colons = 0 then .none else if colons = 1 then .required else .optional⟩

/-- Long options with blanks between them: the name, the key where it is another, and a colon if the
option has a value or two if it may have one. -/
def longsOf (spec : String) : List OptionSpec :=
  let words := (Chars.splitAt '\n' spec).flatMap (Chars.splitAt ' ')
  (words.filter (!·.isEmpty)).map longOf

def optionsOf (letters longs : String) : List OptionSpec := lettersOf letters ++ longsOf longs

section

variable (p : Parsed)

def Parsed.has (key : String) : Bool := p.options.any (·.key = key)

def Parsed.last? (keys : List String) : Option Given :=
  (p.options.filter fun o => keys.contains o.key).getLast?

def Parsed.lastKey? (keys : List String) : Option String := (p.last? keys).map (·.key)

def Parsed.value? (key : String) : Option Chars := (p.last? [key]).map (·.value)

def Parsed.values (key : String) : List Chars := (p.options.filter (·.key = key)).map (·.value)

def Parsed.files : List Chars := if p.operands.isEmpty then [['-']] else p.operands

/-- What ends a line. -/
def Parsed.mark : Char := if p.has "z" then '\x00' else '\n'

/-- What the last option means that means anything. -/
def Parsed.chosen? (f : String → String → Option α) : Option α :=
  p.options.reverse.findSome? fun o => f o.key (String.ofList o.value)

end

variable (specs : List OptionSpec)

def readLetters : Chars → List Chars →
    Except Chars (List Given × List Chars)
  | [], rest => .ok ([], rest)
  | c :: more, rest =>
    match specs.find? (·.letter = some c) with
    | none => .error ("invalid option -- " ++ plainlyQuoted [c])
    | some spec =>
      match spec.arity with
      | .none => do
        let (given, rest) ← readLetters more rest
        return (⟨spec.key, []⟩ :: given, rest)
      | .optional => .ok ([⟨spec.key, more⟩], rest)
      | .required =>
        if !more.isEmpty then .ok ([⟨spec.key, more⟩], rest)
        else
          match rest with
          | value :: rest => .ok ([⟨spec.key, value⟩], rest)
          | [] => .error ("option requires an argument -- " ++ plainlyQuoted [c])

/-- A long option, behind its two dashes. A start that fits one option only is enough. -/
def readLong (text : Chars) (rest : List Chars) :
    Except Chars (Given × List Chars) :=
  let (name, value) := Chars.cut '=' text
  let named := specs.filter (·.long.isSome)
  let found := match named.find? fun s => s.long = some (String.ofList name) with
    | some s => [s]
    | none => named.filter fun s => s.long.any fun (l : String) => name.isPrefixOf l.toList
  match found with
  | [] => .error ("unrecognized option " ++ plainlyQuoted ("--" ++ text))
  | spec :: others =>
    if others.any fun o => o.key ≠ spec.key || o.arity ≠ spec.arity then
      let possible := found.flatMap fun s => ' ' :: plainlyQuoted ("--" ++ (s.long.getD "").toList)
      .error ("option " ++ plainlyQuoted ("--" ++ name) ++
        " is ambiguous; possibilities:" ++ possible)
    else
      let full := "--" ++ (spec.long.getD "").toList
      match spec.arity, value with
      | .none, some _ => .error ("option " ++ plainlyQuoted full ++ " doesn't allow an argument")
      | .none, none => .ok (⟨spec.key, []⟩, rest)
      | .optional, v => .ok (⟨spec.key, v.getD []⟩, rest)
      | .required, some v => .ok (⟨spec.key, v⟩, rest)
      | .required, none =>
        match rest with
        | v :: rest => .ok (⟨spec.key, v⟩, rest)
        | [] => .error ("option " ++ plainlyQuoted full ++ " requires an argument")

def readArguments (mixed : Bool) : Nat → List Chars → Except Chars Parsed
  | 0, args => .ok ⟨[], args⟩
  | _, [] => .ok ⟨[], []⟩
  | n + 1, arg :: rest =>
    match arg with
    | ['-', '-'] => .ok ⟨[], rest⟩
    | '-' :: '-' :: text => do
      let (given, rest) ← readLong specs text rest
      let p ← readArguments mixed n rest
      return { p with options := given :: p.options }
    | '-' :: c :: letters => do
      let (given, rest) ← readLetters specs (c :: letters) rest
      let p ← readArguments mixed n rest
      return { p with options := given ++ p.options }
    | operand =>
      if mixed then do
        let p ← readArguments mixed n rest
        return { p with operands := operand :: p.operands }
      else .ok ⟨[], operand :: rest⟩

def withOptions (mixed : Bool) (status : Nat) (body : Parsed → Applet) :
    Applet := do
  let args ← args
  let wantsHelp := (args.takeWhile (· ≠ "--".toList)).any fun a =>
    a = "--help" || a = "--version"
  match readArguments specs mixed (args.length + 1) args with
  | .ok p => body p
  | .error text =>
    if wantsHelp then
      printLine ("Usage: " ++ (← read).name ++ " [OPTION]...")
      return 0
    complain text
    pointToHelp
    return status

end Prune.Utility

/-!
What programs that work on files have in common, and names of files as they take them apart.
-/

namespace Prune.Utility

open Host Util

variable (name : Chars)

def withoutSlashes : Chars :=
  let short := (name.reverse.dropWhile (· = '/')).reverse
  if short.isEmpty && !name.isEmpty then ['/'] else short

def baseName : Chars :=
  let short := withoutSlashes name
  if short = ['/'] then short else (short.reverse.takeWhile (· ≠ '/')).reverse

def dirName : Chars :=
  let short := withoutSlashes name
  if short = ['/'] then short
  else
    let dir := (short.reverse.dropWhile (· ≠ '/')).reverse
    if dir.isEmpty then ['.'] else withoutSlashes dir

def inside (dir name : Chars) : Chars := if dir.getLast? = some '/' then dir ++ name else dir ++ '/' :: name

inductive Following where
  | never | given | always
deriving DecidableEq

def kindText : Entry → Chars
  | .file _ [] => "regular empty file"
  | .file .. => "regular file"
  | .dir _ => "directory"
  | .link _ => "symbolic link"
  | .special (.program _) => "regular file"
  | .special _ => "character special file"

def entryAt? : Util (Option Entry) := do
  return ((← disk).stat name).toOption

def isDirectory : Util Bool := do return (← entryAt? name).any Entry.isDir

def namesIn (d : Disk) (dir : Chars) : Except Fault (List Chars) :=
  (d.children dir).map fun children =>
    (children.map fun (name, _) => Chars.ofBytes name).mergeSort Chars.le

/-- How a field of a format begins: with signs, a width, and digits behind a point. -/
def fieldStart (signs : Chars) (text : Chars) : Chars × Chars × Option Chars × Chars :=
  let (flags, rest) := text.span signs.contains
  let (width, rest) := rest.span Char.isDigit
  match rest with
  | '.' :: more => (flags, width, some (more.takeWhile Char.isDigit), more.dropWhile Char.isDigit)
  | _ => (flags, width, none, rest)

def attempt (words : Chars → Chars) (f : Disk → Except Fault Disk) : Util Nat := do
  match ← change f with
  | .ok _ => return 0
  | .error e => failWith 1 (words e.text)

def cannot (what : String) (name : Chars) (why : Chars) : Chars :=
  "cannot " ++ what.toList ++ ' ' :: quotedName name ++ ": " ++ why

def unopened (file : Chars) (f : Fault) : Chars := "cannot open " ++ quotedName file ++ " for reading: " ++ f.text

def missing (text : Chars) : Util Nat := do
  complain text
  pointToHelp
  return 1

/-- There are too many operands, or too few. -/
def wrongOperands (most : Nat) (operands : List Chars) : Util Nat :=
  missing (match operands.drop most, operands.getLast? with
    | extra :: _, _ => "extra operand " ++ quoted extra
    | [], some last => "missing operand after " ++ quoted last
    | [], none => "missing operand")

def locationText (l : Location) : Chars :=
  if l.isEmpty then ['/'] else (l.map fun name => '/' :: Chars.ofBytes name).flatten

/-!
Words that the options of programs know. A word can be cut short as long as it is clear what it means.
-/

inductive WordFlaw where
  | unknown | ambiguous
deriving DecidableEq

def meaning [DecidableEq α] (known : List (String × α)) (word : Chars) : Except WordFlaw α :=
  match known.find? fun (w, _) => w.toList = word with
  | some (_, a) => .ok a
  | none =>
    match known.filter fun (w, _) => word.isPrefixOf w.toList with
    | [] => .error .unknown
    | (_, a) :: others => if others.all (·.2 = a) then .ok a else .error .ambiguous

def sameWords [DecidableEq α] : List (String × α) → List (List String)
  | [] => []
  | (w, a) :: rest =>
    match sameWords rest, rest.head? with
    | words :: others, some (_, b) => if a = b then (w :: words) :: others else [w] :: words :: others
    | _, _ => [[w]]

def complainWord (option : String) (word : Chars) (flaw : WordFlaw) (known : List (List String)) :
    Util Unit := do
  let kind := if flaw = .unknown then "invalid" else "ambiguous"
  Util.complain (kind.toList ++ " argument " ++ quoted word ++ " for " ++ quoted option.toList)
  let line (names : List String) : Chars :=
    "  - " ++ Chars.join ", " (names.map fun n => quoted n.toList) ++ ['\n']
  Util.warn ("Valid arguments are:\n" ++ known.flatMap line)
  Util.pointToHelp

def unknownWord (option : String) (word : Chars) (known : List (List String)) : Util Nat := do
  complainWord option word .unknown known
  return 1

def withWords [DecidableEq α] (option : String) (known : List (String × α)) (status : Nat) :
    List Chars → (List α → Applet) → Applet
  | [], body => body []
  | word :: rest, body =>
    match meaning known word with
    | .ok a => withWords option known status rest fun others => body (a :: others)
    | .error flaw => do
      complainWord option word flaw (sameWords known)
      return status

end Prune.Utility
