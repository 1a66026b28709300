import Prune.Shell.Expansion

/-!
Built-in commands that decide what is run next.
-/

namespace Prune.Shell

open Host Sh

abbrev Builtin := Self → Mode → List Chars → Sh Nat

namespace Builtin

def count (name : String) (text : Chars) : Sh Nat :=
  match Chars.toNat? text with
  | some n => return n
  | none => refuse name ("Illegal number: " ++ text)

def countOr (name : String) (default : Nat) : List Chars → Sh Nat
  | [] => return default
  | text :: _ => count name text

def nothing : Builtin := fun _ _ _ => return 0

def failure : Builtin := fun _ _ _ => return 1

def behindDashes (args : List Chars) : List Chars := if args.head? = some ['-', '-'] then args.tail else args

def jump (name : String) (stop : Nat → Stop) : Builtin := fun _ _ args => do
  let n ← countOr name 1 args
  if n = 0 then refuse name ("Illegal number: " ++ args.headD [])
  let loops := (← get).loops
  if loops = 0 then return 0 else throw (stop (min n loops))

def back : Builtin := fun _ _ args => do
  throw (.back (← countOr "return" (← get).status args))

def exit : Builtin := fun _ _ args => do
  throw (.exit (← countOr "exit" (← get).status args))

def within (name : Chars) (act : Sh α) : Sh α := do
  let inside := (← get).inside
  modify ({ · with inside := name })
  always (modify ({ · with inside })) act

def eval : Builtin := fun self mode args =>
  within "eval" (self.runText (Chars.join [' '] args) ⟨mode.tested, false⟩)

def searchPath : Sh (List Chars) := do
  return Chars.splitAt ':' ((← value "PATH").getD [])

def inDirectory (dir name : Chars) : Chars := if dir.isEmpty then name else dir ++ '/' :: name

def scriptNamed (name : Chars) : Sh (Option Chars) := do
  if name.contains '/' then return some name
  let d ← ask .disk
  return ((← searchPath).map (inDirectory · name)).find? fun p => d.isFile p

def source : Builtin := fun self _ args => do
  let name :: _ := args | return 0
  let some path ← scriptNamed name | refuse "." (name ++ ": not found")
  let calls := (← get).calls
  modify ({ · with calls := calls + 1 })
  always (modify ({ · with calls })) (backed (within path (self.runFile path)))

def shift : Builtin := fun _ _ args => do
  let n ← countOr "shift" 1 args
  let s ← get
  if s.args.length < n then refuse "shift" "can't shift that many"
  set { s with args := s.args.drop n }
  return 0

end Builtin

end Prune.Shell

/-!
Built-in commands on variables, options and arguments.
-/

namespace Prune.Shell.Builtin

open Host Sh

def sortedVars (vars : List Variable) : List Variable := sortBy (fun a b => Chars.le a.name b.name) vars

def printVars (word : String) (vars : List Variable) : Sh Unit := do
  let lines := (sortedVars vars).map fun v =>
    word.toList ++ v.name ++ (match v.value with
      | some x => '=' :: Quoting.between x
      | none => []) ++ ['\n']
  say lines.flatten

def markVars (word : String) (mark : Variable → Variable) (args : List Chars) : Sh Nat := do
  for arg in args do
    let (name, value) := Chars.cut '=' arg
    if !isName name then refuse word (name ++ ": bad variable name")
    value.forM (assign name)
    let v := (← var? name).getD (.ofText name none false false)
    putVar (mark v)
  return 0

def printOrMark (word : String) (isMarked : Variable → Bool) (mark : Variable → Variable) : Builtin := fun _ _ args => do
  if args.isEmpty || args = [['-', 'p']] then
    printVars (word ++ " ") ((← get).vars.filter isMarked)
    return 0
  markVars word mark args

def exportVars : Builtin := printOrMark "export" (·.exported) ({ · with exported := true })

def fixVars : Builtin := printOrMark "readonly" (·.fixed) ({ · with fixed := true })

def unsetVars : Builtin := fun _ _ args => do
  match args with
  | ['-', 'f'] :: names =>
    modify fun s => { s with functions := s.functions.filter fun (n, _) => !names.contains n }
    return 0
  | args =>
    let names := if args.head? = some ['-', 'v'] then args.tail else args
    for name in names do
      let some v ← var? name | pure ()
      if v.fixed then refuse "unset" (name ++ ": is read only")
      forget name
    return 0

def localVars : Builtin := fun _ _ args => do
  let s ← get
  let frame :: frames := s.locals | refuse "local" "not in a function"
  let mut frame := frame
  for arg in args do
    let (name, value) := Chars.cut '=' arg
    if !isName name then refuse "local" (name ++ ": bad variable name")
    if !frame.any (·.1 = name) then frame := (name, ← var? name) :: frame
    modify ({ · with locals := frame :: frames })
    value.forM (assign name)
  return 0

def optionNames : List (Char × String) :=
  [('e', "errexit"), ('f', "noglob"), ('I', "ignoreeof"), ('i', "interactive"), ('m', "monitor"),
    ('n', "noexec"), ('s', "stdin"), ('x', "xtrace"), ('v', "verbose"), ('V', "vi"), ('E', "emacs"),
    ('C', "noclobber"), ('a', "allexport"), ('b', "notify"), ('u', "nounset"), ('p', "privileged"),
    ('\x01', "nolog"), ('\x02', "debug")]

def setOption (on : Bool) (letter : Char) : Sh Unit := modify fun s =>
  let others := s.options.filter (· ≠ letter)
  { s with options := if on then (optionNames.map (·.1)).filter fun c => c = letter || others.contains c
    else others }

/-- How the options of a shell are set by letter and name, and what is done about others. -/
structure OptionRules where
  names : List (Char × String)
  isLetter : Char → Bool
  put : Bool → Char → Sh Unit
  wrongName : Char → Chars → Sh Unit
  wrongLetter : Char → Char → Sh Unit

/-- Sets options by the letters of an argument and by arguments behind it; those that are left. -/
def OptionRules.read (r : OptionRules) (sign : Char) (own : Char → List Chars → Sh (Option (List Chars))) :
    Chars → List Chars → Sh (List Chars)
  | [], rest => return rest
  | letter :: letters, rest => do
    match ← own letter rest with
    | some rest => r.read sign own letters rest
    | none =>
      if letter = 'o' then
        match r.names.find? fun (_, w) => w.toList = rest.headD [] with
        | some (c, _) => r.put (sign = '-') c
        | none => r.wrongName sign (rest.headD [])
        r.read sign own letters rest.tail
      else
        if r.isLetter letter then r.put (sign = '-') letter else r.wrongLetter sign letter
        r.read sign own letters rest

/-- Reads options in front of arguments; what is left, and whether arguments follow even if there are
none. A sign alone is up to `bare`. -/
def OptionRules.readAll (r : OptionRules) (list : Bool → Sh Unit)
    (bare : Char → List Chars → Sh (List Chars × Bool)) : Nat → List Chars → Sh (List Chars × Bool)
  | 0, args => return (args, false)
  | _, [] => return ([], false)
  | _, ['-', '-'] :: rest => return (rest, true)
  | n + 1, arg@(sign :: letters) :: rest => do
    if sign ≠ '-' && sign ≠ '+' then return (arg :: rest, true)
    else if letters.isEmpty then bare sign rest
    else
      let own (letter : Char) (rest : List Chars) : Sh (Option (List Chars)) := do
        if letter = 'o' && rest.isEmpty then
          list (sign = '-')
          return some []
        else return none
      r.readAll list bare n (← r.read sign own letters rest)
  | _, args => return (args, true)

def setRules : OptionRules where
  names := optionNames
  isLetter letter := optionNames.any (·.1 = letter)
  put := setOption
  wrongName sign name := refuse "set" ("Illegal option " ++ sign :: "o " ++ name)
  wrongLetter sign letter := refuse "set" ("Illegal option " ++ [sign, letter])

def listOptions (on : Bool) : Sh Unit := do
  let s ← get
  let lines := optionNames.map fun (c, w) =>
    let isOn := s.options.contains c
    if on then Chars.padRight 16 w.toList ++ (if isOn then "on\n" else "off\n").toList
    else ((if isOn then "set -o " else "set +o ") ++ w ++ "\n").toList
  say ((if on then "Current option settings\n" else "").toList ++ lines.flatten)

def setArgs : Builtin := fun _ _ args => do
  if args.isEmpty then
    let lines := (sortedVars (← get).vars).filterMap fun v =>
      v.value.map fun x => v.name ++ '=' :: Quoting.between x ++ ['\n']
    return ← tell lines.flatten
  let bare (sign : Char) (rest : List Chars) : Sh (List Chars × Bool) :=
    return if sign = '-' then (rest, false) else ([sign] :: rest, true)
  let (rest, given) ← setRules.readAll listOptions bare (args.length + 1) args
  if given then modify ({ · with args := rest })
  return 0

def lineBits (raw : Bool) : Chars → List Bit
  | [] => []
  | '\\' :: c :: rest =>
    if raw then .glyph ⟨'\\', false⟩ true :: lineBits raw (c :: rest)
    else .glyph ⟨c, true⟩ false :: lineBits raw rest
  | c :: rest => .glyph ⟨c, false⟩ true :: lineBits raw rest

def isDivider (dividers : Chars) : Bit → Bool
  | .glyph g loose => loose && dividers.contains g.char
  | _ => false

def isBlankDivider (dividers : Chars) : Bit → Bool :=
  isDivider (dividers.filter fun c => c = ' ' || c = '\t' || c = '\n')

/-- The fields of a line for `n` variables. The last one gets all that is left, which is one field
with what ends it taken off, or more with blanks at its end taken off. -/
def lineFields (dividers : Chars) : Nat → List Bit → List Chars
  | 0, _ => []
  | 1, bits =>
    let bits := bits.dropWhile (isBlankDivider dividers)
    match split dividers bits with
    | [] => [[]]
    | [one] => [one.map (·.char)]
    | _ => [textOf [] (bits.reverse.dropWhile (isBlankDivider dividers)).reverse]
  | n + 2, bits =>
    let bits := bits.dropWhile (isBlankDivider dividers)
    let field := bits.takeWhile (!isDivider dividers ·)
    let rest := (bits.drop field.length).dropWhile (isBlankDivider dividers)
    textOf [] field :: lineFields dividers (n + 1) (if rest.head?.any (isDivider dividers) then rest.tail else rest)

def isJoined (line : Chars) : Bool :=
  (line.dropLast.reverse.takeWhile (· = '\\')).length % 2 = 1 && line.getLast? = some '\n'

def readJoined (raw : Bool) : Nat → Chars → Sh Chars
  | 0, before => return before
  | n + 1, before => do
    let .ok line ← Act.readLine 0 | return before
    if !raw && isJoined line then readJoined raw n (before ++ line.dropLast.dropLast)
    else return before ++ line

def readVars : Builtin := fun _ _ args => do
  let raw := args.takeWhile (fun a => a.head? = some '-') |>.any (·.contains 'r')
  let names := match args.dropWhile fun a => a = ['-', 'r'] || a = ['-', '-'] with
    | ['-', 'p'] :: _ :: rest => rest.dropWhile fun a => a = ['-', 'r']
    | rest => rest
  if names.isEmpty then refuse "read" "arg count"
  match names.find? (!isName ·) with
  | some bad => refuse "read" (bad ++ ": bad variable name")
  | none =>
    let line ← readJoined raw Act.patience []
    let complete := line.getLast? = some '\n'
    let text := if complete then line.dropLast else line
    let fields := lineFields (← dividers) names.length (lineBits raw text)
    for (name, i) in names.zipIdx do
      assign name (fields.getD i [])
    return if complete then 0 else 1

def nextOption : Builtin := fun _ _ args => do
  match args with
  | spec :: name :: given =>
    let s ← get
    let operands := if given.isEmpty then s.args else given
    let index := ((← value "OPTIND").bind Chars.toNat?).getD 1
    let index := if operands.length + 1 < index then 1 else index
    let place := s.optionPlace
    let quiet := spec.head? = some ':'
    let spec := if quiet then spec.tail else spec
    let finish (status : Nat) (letter : Chars) (index place : Nat) (argument : Option Chars) :
        Sh Nat := do
      match argument with
      | some a => assign "OPTARG" a
      | none => forget "OPTARG"
      assign "OPTIND" (Chars.ofNat index)
      modify ({ · with optionPlace := place })
      assign name letter
      return status
    let some word := operands[index - 1]? | finish 1 ['?'] index 0 none
    let place := if place = 0 then 1 else place
    if place = 1 && (word.head? ≠ some '-' || word.length < 2) then finish 1 ['?'] index 0 none
    else if place = 1 && word = ['-', '-'] then finish 1 ['?'] (index + 1) 0 none
    else
      let letter := word.getD place '?'
      let isLast := word.length ≤ place + 1
      let (nextIndex, nextPlace) := if isLast then (index + 1, 0) else (index, place + 1)
      match spec.dropWhile (· ≠ letter) with
      | [] =>
        if !quiet then report ("Illegal option -" ++ [letter]) ("illegal option -- " ++ [letter])
        finish 0 ['?'] nextIndex nextPlace (if quiet then some [letter] else none)
      | _ :: ':' :: _ =>
        if !isLast then finish 0 [letter] (index + 1) 0 (some (word.drop (place + 1)))
        else
          match operands[index]? with
          | some a => finish 0 [letter] (index + 2) 0 (some a)
          | none =>
            if quiet then finish 0 [':'] (index + 1) 0 (some [letter])
            else
              report ("No arg for -" ++ letter :: " option")
                ("option requires an argument -- " ++ [letter])
              finish 0 ['?'] (index + 1) 0 none
      | _ => finish 0 [letter] nextIndex nextPlace none
  | _ => refuse "getopts" "Usage: getopts optstring var [arg]"
where
  report (common extended : Chars) : Sh Unit := do
    let s ← get
    if s.dialect = .common then let _ ← put 2 (common ++ ['\n'])
    else if lookup s "OPTERR" ≠ some ['0'] then let _ ← put 2 (s.name ++ ": " ++ extended ++ ['\n'])

end Prune.Shell.Builtin
