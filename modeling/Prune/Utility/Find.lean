import Prune.Disk.System
import Prune.Utility.Find.Condition

/-!
Searches as they are written: options, tests and actions, with operators between them.
-/

namespace Prune.Utility

open Host

structure FindOptions where
  least : Nat := 0
  most : Option Nat := none
  depthFirst : Bool := false
  following : Following

/-- What is left to read of an expression, what has been met, and what names are looked up with. -/
structure FindReading where
  rest : List Chars
  options : FindOptions
  gatherers : Nat := 0
  files : List Chars := []
  dialect : Chars := "findutils-default"
  dayStart : Bool := false
  disk : Disk
  zone : Calendar.Zone
  now : Int

abbrev FindRead := StateT FindReading (Except Chars)

def orElse (complaint : Chars) : Option α → FindRead α
  | some a => return a
  | none => throw complaint

variable (test : Chars)

def missingArgument : Chars := "missing argument to \x60" ++ test ++ ['\'']

def findArgument : FindRead Chars := do
  let s ← get
  let a :: rest := s.rest | throw (missingArgument test)
  set { s with rest }
  return a

def badArgument (test a : Chars) : Chars := "invalid argument \x60" ++ a ++ "' to \x60" ++ test ++ ['\'']

def findSize : FindRead Condition := do
  let text ← findArgument test
  let units : List (Char × Nat) := [('c', 1), ('w', 2), ('b', 512), ('k', 1024), ('M', 1048576),
    ('G', 1073741824)]
  let c ← orElse "invalid null argument to -size" text.getLast?
  let (digits, unit) ← if c.isDigit then pure (text, 512)
    else do pure (text.dropLast, ← orElse ("invalid -size type \x60" ++ [c, '\'']) (units.lookup c))
  return .size (← orElse ("Invalid argument \x60" ++ text ++ "' to -size") (bound? digits)) unit

def permBound? (text : Chars) : Option PermBound :=
  let bits (text : Chars) : Option Nat :=
    (ModeChange.read? text).map fun changes => ModeChange.applyAll changes 0 false 0
  match text with
  | '-' :: text => (bits text).map .allOf
  | '/' :: text => (bits text).map .anyOf
  | text => (bits text).map .exactly

def millionths? (text : Chars) : Option Int :=
  let (whole, part) := Chars.cut '.' text
  let part := part.getD []
  if (whole ++ part).isEmpty || !(whole ++ part).all Char.isDigit then none
  else some ((Chars.toNat? whole).getD 0 * 1000000 + Time.fractionOf part : Nat)

/-- How long ago something was: `unit` is its unit in seconds. Days are counted from the day before, so
that what is younger than one counts as none. -/
def findAge (which : WhichTime) (unit : Int) : FindRead Condition := do
  let s ← get
  let a ← findArgument test
  let sign := a.headD '='
  let count ← orElse (badArgument test a) (millionths? (if sign = '+' || sign = '-' then a.tail else a))
  let day : Int := 86400 * 1000000
  let midnight := (s.now + s.zone.ahead * 1000000).fdiv day * day - s.zone.ahead * 1000000
  let start := if unit = 60 then (if s.dayStart then midnight + day else s.now)
    else if s.dayStart then midnight else s.now - day
  let ago := count * unit
  return .time which (match sign with
    | '+' => .before (start - ago)
    | '-' => .after (start - ago + if unit = 60 then 0 else day - 1000000)
    | _ => .between (start - ago) (start - ago + unit * 1000000))

def findFacts (follow : Bool) (name : Chars) : FindRead Facts := do
  match (← get).disk.facts follow name with
  | .ok f => return f
  | .error f => throw (findWords name f)

def whichTime? : Char → Option WhichTime
  | 'a' => some .accessed
  | 'c' | 'B' => some .changed
  | 'm' => some .modified
  | _ => none

def findNewer (x y : Char) : FindRead Condition := do
  let timeOf (c : Char) : FindRead WhichTime := orElse ("invalid predicate \x60" ++ test ++ ['\'']) (whichTime? c)
  let which ← timeOf x
  let t ← if y = 't' then do
      let a ← findArgument test
      let s ← get
      orElse ("I cannot figure out how to interpret " ++ quoted a ++ " as a date or time")
        (Time.parse? s.zone s.now a)
    else do
      let other ← timeOf y
      let follow := (← get).options.following ≠ .never
      pure (other.of (← findFacts follow (← findArgument test)).stamp)
  return .time which (.after t)

def findFile : FindRead (Option Nat) := do
  let name ← findArgument test
  let s ← get
  let place := s.files.findIdx? (· = name)
  if place.isNone then set { s with files := s.files ++ [name] }
  return some (place.getD s.files.length)

def findCommand (inDir asks : Bool) : FindRead Condition := do
  let s ← get
  let braces : Chars := ['\x7b', '\x7d']
  let semicolon := s.rest.findIdx? (· = [';'])
  let plus := (s.rest.zip s.rest.tail).findIdx? fun (a, b) => Chars.occursIn braces a && b = ['+']
  match semicolon, if asks then none else plus.filter fun j => semicolon.all (j + 1 ≤ ·) with
  | none, none => throw (missingArgument test)
  | some i, none =>
    set { s with rest := s.rest.drop (i + 1) }
    if i = 0 then throw (badArgument test [';'])
    else return .run (s.rest.take i) inDir asks
  | _, some j =>
    let argv := s.rest.take j
    let last := s.rest.getD j []
    set { s with rest := s.rest.drop (j + 2), gatherers := s.gatherers + 1 }
    if argv.contains braces then throw ("Only one instance of \x7b\x7d is supported with " ++ test ++ " ... +")
    else if last ≠ braces then
      throw ("In " ++ quoted (test ++ " ... \x7b\x7d +") ++ " the " ++ quoted braces ++
        " must appear by itself, but you specified " ++ quoted last)
    else return .gather s.gatherers argv inDir

def findDepth (option : Chars) : FindRead Nat := do
  let a ← findArgument option
  orElse ("Expected a positive decimal integer argument to " ++ option ++ ", but got " ++ quoted a) (Chars.toNat? a)

def findKinds : FindRead Chars := do
  let text ← findArgument test
  let letters := text.filter (· ≠ ',')
  (letters.find? fun c => !"bcdpflsD".contains c).forM fun c =>
    throw ("Unknown argument to " ++ test ++ ": " ++ [c])
  if text.isEmpty then throw ("Arguments to " ++ test ++ " should contain at least one letter")
  if (Chars.splitAt ',' text).any (·.length > 1) then
    throw ("Must separate multiple arguments to " ++ test ++ " using: ','")
  return letters

def dialectNames : List String :=
  ["findutils-default", "ed", "emacs", "gnu-awk", "grep", "posix-awk", "awk", "posix-basic", "posix-egrep",
    "egrep", "posix-extended", "posix-minimal-basic", "sed"]

def emacsAsBasic : Nat → Chars → Chars
  | 0, text => text
  | _, [] => []
  | n + 1, '\\' :: c :: rest => '\\' :: c :: emacsAsBasic n rest
  | n + 1, '[' :: rest =>
    let front := if rest.head? = some '^' then 1 else 0
    let front := if rest[front]? = some ']' then front + 1 else front
    let inner := rest.take front ++ (rest.drop front).takeWhile (· ≠ ']')
    '[' :: inner ++ emacsAsBasic n (rest.drop inner.length)
  | n + 1, c :: rest => (if c = '+' || c = '?' then ['\\', c] else [c]) ++ emacsAsBasic n rest

def findRegex (folds : Bool) : FindRead Condition := do
  let text := Letters.decode (← findArgument test)
  let name := String.ofList (← get).dialect
  let isExtended := ["posix-extended", "posix-egrep", "egrep", "posix-awk", "awk", "gnu-awk"].contains name
  let text := if name = "findutils-default" || name = "emacs" then emacsAsBasic (text.length + 1) text else text
  match Regex.parse (if isExtended then Regex.extended else Regex.basic) text with
  | .ok r => return .fits r folds
  | .error e => throw e.toList

def findOwner (known : List String) (words : String) : FindRead Condition := do
  let a ← findArgument test
  if a = "root" || a = ['0'] then return .always
  else if (Chars.toNat? a).isSome || known.any fun line => (Chars.cut ':' line.toList).1 = a then return .never
  else throw (quoted a ++ " is not the name of a" ++ words.toList)

def findBound : FindRead Bound := do
  let a ← findArgument test
  orElse (badArgument test a) (bound? a)

def findOption (f : FindOptions → FindOptions) : FindRead Condition := do
  modify fun s => { s with options := f s.options }
  return .always

def findFormat : FindRead Chars := do
  let format ← findArgument test
  let marks := (format.reverse.takeWhile (· = '%')).length
  if marks % 2 = 1 then throw "error: % at end of format string".toList else return format

def findTest (word : Chars) : FindRead Condition := do
  match String.ofList word with
  | "-true" => return .always
  | "-false" => return .never
  | "-name" => return .name (← findArgument word) false
  | "-iname" => return .name (← findArgument word) true
  | "-path" | "-wholename" => return .path (← findArgument word) false
  | "-ipath" | "-iwholename" => return .path (← findArgument word) true
  | "-lname" => return .target (← findArgument word) false
  | "-ilname" => return .target (← findArgument word) true
  | "-type" => return .kind (← findKinds word)
  | "-xtype" => return .otherKind (← findKinds word)
  | "-empty" => return .empty
  | "-size" => findSize word
  | "-perm" =>
    let a ← findArgument word
    return .perm (← orElse ("invalid mode " ++ quoted a) (permBound? a))
  | "-readable" => return .may Disk.readBit
  | "-writable" => return .may Disk.writeBit
  | "-executable" => return .may Disk.runBit
  | "-links" => return .names (← findBound word)
  | "-inum" => return .number (← findBound word)
  | "-samefile" => return .number (.exactly (← findFacts false (← findArgument word)).stamp.number)
  | "-user" => findOwner word Disk.users " known user"
  | "-group" => findOwner word Disk.groups "n existing group"
  | "-uid" | "-gid" => return if (← findBound word).holds 0 then .always else .never
  | "-nouser" | "-nogroup" => return .never
  | "-fstype" => return if (← findArgument word) = "overlay" then .always else .never
  | "-newer" => findNewer word 'm' 'm'
  | "-anewer" => findNewer word 'a' 'm'
  | "-cnewer" => findNewer word 'c' 'm'
  | "-mtime" => findAge word .modified 86400
  | "-atime" => findAge word .accessed 86400
  | "-ctime" => findAge word .changed 86400
  | "-mmin" => findAge word .modified 60
  | "-amin" => findAge word .accessed 60
  | "-cmin" => findAge word .changed 60
  | "-regex" => findRegex word false
  | "-iregex" => findRegex word true
  | "-print" => return .print none '\n'
  | "-print0" => return .print none '\x00'
  | "-printf" => return .printf none (← findFormat word)
  | "-fprint" => return .print (← findFile word) '\n'
  | "-fprint0" => return .print (← findFile word) '\x00'
  | "-fprintf" => return .printf (← findFile word) (← findFormat word)
  | "-exec" => findCommand word false false
  | "-execdir" => findCommand word true false
  | "-ok" => findCommand word false true
  | "-okdir" => findCommand word true true
  | "-delete" => return .delete
  | "-prune" => return .prune
  | "-quit" => return .quit
  | "-maxdepth" =>
    let n ← findDepth word
    findOption fun o => { o with most := some n }
  | "-mindepth" =>
    let n ← findDepth word
    findOption fun o => { o with least := n }
  | "-depth" | "-d" => findOption fun o => { o with depthFirst := true }
  | "-follow" => findOption fun o => { o with following := .always }
  | "-daystart" =>
    modify ({ · with dayStart := true })
    return .always
  | "-regextype" =>
    let a ← findArgument word
    if dialectNames.contains (String.ofList a) then
      modify ({ · with dialect := a })
      return .always
    throw ("Unknown regular expression type " ++ quoted a ++ "; valid types are " ++
      Chars.join ", " (dialectNames.map fun n => quoted n.toList) ++ ['.'])
  | other =>
    match word with
    | ['-', 'n', 'e', 'w', 'e', 'r', x, y] => findNewer word x y
    | _ =>
      if ["-xdev", "-mount", "-noleaf", "-warn", "-nowarn", "-ignore_readdir_race",
          "-noignore_readdir_race"].contains other then return .always
      else throw ("unknown predicate \x60" ++ word ++ ['\''])

def endsRow (word : Chars) : Bool := ["-o", "-or", ",", ")"].contains (String.ofList word)

/-- Whether one of some operators comes next. It must have something behind it. -/
def findTakes (words : List String) : FindRead Bool := do
  let s ← get
  let word :: rest := s.rest | return false
  let isNext := words.contains (String.ofList word)
  if isNext then
    if rest.isEmpty then throw ("expected an expression after " ++ plainlyQuoted word)
    set { s with rest }
  return isNext

mutual

def findList : Nat → FindRead Condition
  | 0 => throw "expression too long".toList
  | n + 1 => do
    let first ← findChoice n
    if ← findTakes [","] then return .comma first (← findList n) else return first

def findChoice : Nat → FindRead Condition
  | 0 => throw "expression too long".toList
  | n + 1 => do
    let first ← findRow n
    if ← findTakes ["-o", "-or"] then return .either first (← findChoice n) else return first

def findRow : Nat → FindRead Condition
  | 0 => throw "expression too long".toList
  | n + 1 => do
    let first ← findSingle n
    if (← get).rest.head?.all endsRow then return first
    let _ ← findTakes ["-a", "-and"]
    return .both first (← findRow n)

def findSingle : Nat → FindRead Condition
  | 0 => throw "expression too long".toList
  | n + 1 => do
    if ← findTakes ["!", "-not"] then return .not (← findSingle n)
    let s ← get
    let word :: rest := s.rest |
      throw "invalid expression; you have used a binary operator with nothing after it.".toList
    set { s with rest }
    if word = ['('] then
      if rest.head? = some [')'] then throw "invalid expression; empty parentheses are not allowed.".toList
      let inner ← findList n
      let s ← get
      let [')'] :: rest := s.rest |
        throw "invalid expression; I was expecting to find a ')' somewhere but did not see one.".toList
      set { s with rest }
      return inner
    else if word = [')'] then throw "invalid expression; you have too many ')'".toList
    else if endsRow word || word = "-a" || word = "-and" then
      throw ("invalid expression; you have used a binary operator '" ++ word ++ "' with nothing before it.")
    else if word.head? ≠ some '-' then throw ("paths must precede expression: \x60" ++ word ++ ['\''])
    else findTest word

end

/-!
The program that goes through directories and does something with what it meets.
-/

open Util Effort

/-- Goes through all that is below a path. `above` are the directories that led here. -/
def findFrom (o : FindOptions) (setting : FindSetting) (c : Condition) (top : Chars) : Nat → Nat →
    (above : List (Nat × Chars)) → Chars → Finding → Util Finding
  | 0, _, _, _, s => return s
  | n + 1, depth, above, path, s => do
    if s.stopped then return s
    let d ← disk
    let follows := o.following = .always || (o.following = .given && depth = 0)
    let failed (s : Finding) (words : Chars) : Util Finding := do
      complain words
      return { s with status := 1 }
    match tryCatch (d.facts follows path) fun f =>
        if follows && f ≠ .tooManyLinks then d.facts false path else .error f with
    | .error f => failed s (findWords path f)
    | .ok facts =>
      match above.lookup facts.stamp.number with
      | some first =>
        failed s ("File system loop detected; " ++ quoted path ++
          " is part of the same file system loop as " ++ quoted first ++ ['.'])
      | none =>
        let m : Met := ⟨path, top, depth, facts, o.following = .always⟩
        let visit (s : Finding) : Util Finding :=
          if depth < o.least then return s
          else do
            let (_, s) ← c.check setting m s
            return s
        let above := if facts.entry.isDir && follows then (facts.stamp.number, path) :: above else above
        let enter (s : Finding) : Util Finding := do
          if !facts.entry.isDir || o.most.any (depth ≥ ·) || s.stopped then return s
          match namesIn (← disk) path with
          | .error f => failed s (findWords path f)
          | .ok names =>
            names.foldlM (fun s name => findFrom o setting c top n (depth + 1) above (inside path name) s) s
        if o.depthFirst then
          let s ← enter s
          if s.stopped then return s else visit { s with pruned := false }
        else
          let s ← visit { s with pruned := false }
          if s.pruned then return { s with pruned := false } else enter s

def runGathered (c : Condition) (s : Finding) : Util Nat :=
  c.gatherers.foldlM (fun status (n, argv, inDir) => do
    let names := (s.gathered.reverse.filter (·.1 = n)).map (·.2)
    let dirs := if inDir then (names.map dirName).eraseDups.map some else [none]
    dirs.foldlM (fun status dir => do
      let names := match dir with
        | some d => (names.filter fun p => dirName p = d).map fun p => "./" ++ baseName p
        | none => names
      if names.isEmpty then return status
      let ending ← runWith findWords (dir.filter (· ≠ ['.'])) (← read).env (argv ++ names)
      return if ending = .exited 0 then status else 1) status) s.status

def openFiles (names : List Chars) : Effort (List (Nat × Nat)) :=
  names.zipIdx.mapM fun (name, i) => do
    return (i, ← insist 1 (findWords name) (← ask (.open name .writing (0o666 - (0o666 &&& (← umask))))))

def findFlags : List Chars → Following → Following × List Chars
  | arg :: rest, following =>
    match String.ofList arg with
    | "-L" => findFlags rest .always
    | "-H" => findFlags rest .given
    | "-P" => findFlags rest .never
    | "--" => (following, rest)
    | other => if other.startsWith "-O" && other.length > 2 then findFlags rest following else (following, arg :: rest)
  | [], following => (following, [])

def hintAt (words : List Chars) (complaint : Chars) : Util Unit := do
  let start := "paths must precede expression: \x60".toList
  let stray := (complaint.drop start.length).dropLast
  let tests := ["-name", "-iname", "-path", "-ipath", "-wholename", "-iwholename", "-regex", "-iregex",
    "-lname", "-ilname"]
  let before := (words.zip (words.drop 2)).find? fun (a, b) => b = stray && tests.contains (String.ofList a)
  match start.isPrefixOf complaint && ((← disk).look stray).isOk, before with
  | true, some (test, _) => complain ("possible unquoted pattern after predicate \x60" ++ test ++ "'?")
  | _, _ => return

def find : Applet := do
  let (following, args) := findFlags (← args) .never
  let paths := args.takeWhile fun a =>
    !(a.head? = some '-' && a.length > 1) && !(["!", "(", ")", ","].contains (String.ofList a))
  let words := args.drop paths.length
  let zone ← zone
  let now : Int := (← ask .now : Nat)
  let reading : FindReading := { rest := words, options := { following }, disk := ← disk, zone, now }
  let read : Except Chars (Condition × FindReading) :=
    if words.isEmpty then .ok (.always, reading) else (findList (4 * words.length + 8)).run reading
  match read with
  | .error e =>
    complain e
    hintAt words e
    return 1
  | .ok (c, reading) => status do
    if !reading.rest.isEmpty then refuse 1 "you have too many ')'"
    let files ← openFiles reading.files
    let c := if c.acts then c else .both c (.print none '\n')
    let options := if c.deletes then { reading.options with depthFirst := true } else reading.options
    let setting : FindSetting := ⟨← wide, files⟩
    let paths := if paths.isEmpty then [['.']] else paths
    let s ← paths.foldlM (fun s path => findFrom options setting c path 256 0 [] path s) ⟨0, false, false, []⟩
    runGathered c s

end Prune.Utility
