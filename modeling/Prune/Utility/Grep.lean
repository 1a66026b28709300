import Prune.Regex.Parse
import Prune.Regex.Rich
import Prune.Shell.Pattern
import Prune.Utility.Clock
import Prune.Utility.Source

/-!
The program that looks for lines that match patterns.
-/

namespace Prune.Utility

open Host Util

inductive Report where
  | lines | matches | counts | filesWith | filesWithout | nothing
deriving DecidableEq

inductive Sought where
  | any (patterns : List Regex)
  | rich (p : Rich)

structure Search where
  sought : Sought
  manner : Regex.Manner
  words : Bool
  inverted : Bool
  report : Report
  once : Bool
  numbered : Bool
  offsets : Bool
  limit : Option Nat
  before : Nat
  behind : Nat
  separator : Option Chars
  /-- The text of a line starts at a tab stop. -/
  aligned : Bool
  colored : Bool
  /-- Files that are not text are searched like the others. -/
  anyContent : Bool
  /-- Files that are not text never match. -/
  textOnly : Bool
  mark : Char
  nameMark : Option Char
  silent : Bool

namespace Search

variable (s : Search)

def endAt (text : Array Char) (i : Nat) (r : Regex) : Option Nat :=
  if s.words then
    let isWord (c : Option Char) : Bool := c.any (Regex.isWordChar s.manner.wide)
    if 0 < i && isWord text[i - 1]? then none
    else
      let stops := if r.repeats then (r.endFrom s.manner text i).toList else Regex.ends s.manner text r [i]
      match stops.filter fun e => !isWord text[e]? with
      | [] => none
      | e :: es => some (es.foldl max e)
  else r.endFrom s.manner text i

def findFrom (patterns : List Regex) (text : Array Char) : Nat → Nat → Option (Nat × Nat)
  | 0, _ => none
  | n + 1, i =>
    match patterns.filterMap (s.endAt text i) with
    | [] => findFrom patterns text n (i + 1)
    | e :: es => some (i, es.foldl max e)

def find? (text : Array Char) (i : Nat) : Option (Nat × Nat) :=
  match s.sought with
  | .any patterns => s.findFrom patterns text (text.size + 1 - i) i
  | .rich p => Rich.match? p s.manner.wide text i

variable (line : Chars)

def charsOf : Chars := Letters.of s.manner.wide line

def bytesOf (text : Chars) : Chars := Letters.toBytes s.manner.wide text

def selects : Bool := (s.find? (s.charsOf line).toArray 0).isSome != s.inverted

def partsFrom (text : Array Char) : Nat → Nat → List (Nat × Nat)
  | 0, _ => []
  | n + 1, i =>
    match s.find? text i with
    | none => []
    | some (a, b) =>
      if b ≤ a then partsFrom text n (max a i + 1) else (a, b) :: partsFrom text n b

def parts : List (Nat × Chars) :=
  let text := (s.charsOf line).toArray
  (s.partsFrom text (text.size + 1) 0).map fun (a, b) =>
    ((s.bytesOf (Chars.slice text 0 a)).length, s.bytesOf (Chars.slice text a b))

def tinted (code : String) (text : Chars) : Chars :=
  if s.colored then "\x1b[" ++ code.toList ++ "m\x1b[K" ++ text ++ "\x1b[m\x1b[K"
  else text

def nameText (name : Chars) : Chars := s.tinted "35" name

def signText (sign : Char) : Chars := s.tinted "36" [sign]

def markedLine : Chars :=
  let (behind, out) := (s.parts line).foldl (fun (behind, out) (place, part) =>
    (place + part.length, out ++ (line.drop behind).take (place - behind) ++ s.tinted "01;31" part)) (0, [])
  out ++ line.drop behind

def isGarbled : Bool :=
  s.manner.wide && !s.anyContent && (s.charsOf line).any Letters.isStray

/-- What stands in front of what is found in a file that is named. -/
def front (label : Option Chars) (sign : Char) : Chars :=
  (label.map fun l => s.nameText l ++ ((s.nameMark.map ([·])).getD (s.signText sign))).getD []

end Search

structure Seen where
  number : Nat := 0
  offset : Nat := 0
  count : Nat := 0
  /-- The last lines that were not printed, with their numbers and offsets, the latest first. -/
  held : List (Nat × Nat × Chars) := []
  /-- How many more lines are printed behind the last one found. -/
  due : Nat := 0
  last : Option Nat := none
  used : Bool
  /-- A line was not printed because it is no text. -/
  garbled : Bool := false

/-- What came of searching: something was found, something went wrong. -/
structure Searched where
  found : Bool := false
  failed : Bool := false
  used : Bool := false

def Source.asLines (s : Source) : Source :=
  { s with
    ready := s.ready.flatMap (Chars.splitAt '\x00')
    begun := match s.begun with
      | [] => []
      | parts => [(parts.reverse.flatten).map fun c => if c = '\x00' then '\n' else c] }

namespace Search

variable (s : Search)

def present (label : Option Chars) (sign : Char) (number offset : Nat) (text : Chars)
    (seen : Seen) : Util Seen := do
  if s.isGarbled text then return { seen with garbled := true }
  let count (asked : Bool) (n : Nat) : Chars :=
    if asked then s.tinted "32" (Chars.ofNat n) ++ s.signText sign else []
  let front := s.front label sign ++ count s.numbered number ++ count s.offsets offset
  let gap := if s.aligned && !front.isEmpty && !text.isEmpty then ['\t'] else []
  let shown := if !s.colored then text
    else if s.report = .matches then s.tinted "01;31" text
    else if (sign = ':') != s.inverted then s.markedLine text else text
  print (front ++ gap ++ shown ++ [s.mark])
  return seen

/-- Prints what stands between groups, if the line with a number does not follow the last one printed. -/
def separate (seen : Seen) (start : Nat) : Util Unit := do
  let some sign := s.separator | return
  if seen.used && seen.last ≠ some (start - 1) then print (s.tinted "36" sign ++ ['\n'])

def found (label : Option Chars) (seen : Seen) (line : Chars) : Util Seen := do
  let held := seen.held.take s.before
  s.separate seen (seen.number - held.length)
  let seen ← held.reverse.foldlM (fun seen (n, offset, text) => s.present label '-' n offset text seen) seen
  let seen ← s.present label ':' seen.number seen.offset line seen
  return { seen with held := [], due := s.behind, last := some seen.number, used := true }

def step (quiet : Bool) (label : Option Chars) (seen : Seen) (line : Chars) : Util Seen := do
  let seen := { seen with number := seen.number + 1 }
  let full := s.limit.any (seen.count ≥ ·)
  let seen ← if !full && s.selects line then do
      let seen := { seen with count := seen.count + 1 }
      if quiet then pure seen
      else
        match s.report with
        | .lines => s.found label seen line
        | .matches =>
          s.separate seen seen.number
          let parts := if s.inverted then [] else s.parts line
          let seen ← parts.foldlM (fun seen (place, part) =>
            s.present label ':' seen.number (seen.offset + place) part seen) seen
          pure { seen with used := true, last := some seen.number }
        | _ => pure seen
    else if seen.due > 0 && s.report = .lines && !quiet then do
      let seen ← s.present label '-' seen.number seen.offset line seen
      pure { seen with due := seen.due - 1, last := some seen.number }
    else pure { seen with held := ((seen.number, seen.offset, line) :: seen.held).take s.before }
  return { seen with offset := seen.offset + line.length + 1 }

def run (quiet once : Bool) (label : Option Chars) : Nat → Source → Seen →
    Util (Source × Seen)
  | 0, source, seen => return (source, seen)
  | n + 1, source, seen => do
    if (once && seen.count > 0) || (s.limit.any (seen.count ≥ ·) && seen.due = 0) then return (source, seen)
    match ← source.next with
    | (none, source) => return (source, seen)
    | (some (line, _), source) => run quiet once label n source (← s.step quiet label seen line)

def finish (name : Chars) (label : Option Chars) (count : Nat) : Util Unit := do
  let name := s.nameText name
  let nameEnd := [s.nameMark.getD '\n']
  match s.report with
  | .counts => printLine (s.front label ':' ++ Chars.ofNat count)
  | .filesWith => if count > 0 then print (name ++ nameEnd)
  | .filesWithout => if count = 0 then print (name ++ nameEnd)
  | _ => return

def complain (r : Searched) (text : Chars) : Util Searched := do
  if !s.silent then Util.complain text
  return { r with failed := true }

def searchOpen (fd : Nat) (name : Chars) (label : Option Chars) (r : Searched) :
    Util Searched := do
  let source := Source.ofDescriptor fd s.mark
  -- the first block shows whether the file is text
  let source ← match ← ask (.read fd 32768 false) with
    | .error f => pure { source with exhausted := true, fault := some f }
    | .ok [] => pure { source with exhausted := true }
    | .ok block => pure (source.feed block)
  if let some f := source.fault then return ← s.complain r (name ++ ": " ++ f.text)
  let isBinary := s.mark ≠ '\x00' && (source.ready ++ source.begun).any (·.contains '\x00')
  if isBinary && s.textOnly then
    s.finish name label 0
    return r
  let hidden := isBinary && !s.anyContent
  let source := if hidden then source.asLines else source
  let hides := hidden && (s.report = .lines || s.report = .matches)
  let (source, seen) ← s.run (s.report = .nothing || hides) (s.once || hides) label Act.patience source
    { used := r.used }
  if s.limit.isSome then source.giveBack
  let r := { r with used := seen.used }
  let r ← match source.fault with
    | some f => s.complain r (name ++ ": " ++ f.text)
    | none => pure r
  s.finish name label seen.count
  if (hides && seen.count > 0) || seen.garbled then Util.complain (name ++ ": binary file matches")
  return { r with found := r.found || seen.count > 0 }

end Search

structure Choice where
  recursive : Bool
  followsLinks : Bool
  skipsDirectories : Bool
  included : List Chars
  excluded : List Chars
  excludedDirs : List Chars
  /-- Names in front of what is found: always, never, or as the case requires. -/
  labelled : Option Bool

def fitsAny (patterns : List Chars) (name : Chars) : Bool := patterns.any (Shell.matchesText .fileNames · name)

def Choice.leavesOut (c : Choice) (name : Chars) : Bool :=
  let fits (patterns : List Chars) : Bool := fitsAny patterns (baseName name) || fitsAny patterns name
  fits c.excluded || (!c.included.isEmpty && !fits c.included)

def searchAt (s : Search) (c : Choice) (output : Option Location) :
    (fuel : Nat) → (top : Bool) → (shown name : Chars) → (labelled : Bool) → Searched → Util Searched
  | 0, _, _, _, _, r => return r
  | n + 1, top, shown, name, labelled, r => do
    let d ← disk
    let entry := if top || c.followsLinks then d.stat name else d.look name
    match entry with
    | .error f => s.complain r (shown ++ ": " ++ f.text)
    | .ok (.link _) => return r
    | .ok (.dir _) =>
      if c.recursive then
        if fitsAny c.excludedDirs (baseName (if top then shown else name)) then return r
        match d.children name with
        | .error f => s.complain r (shown ++ ": " ++ f.text)
        | .ok children =>
          children.foldlM (fun r (child, _) =>
            let child := Chars.ofBytes child
            let childShown := if shown.isEmpty then child else inside shown child
            searchAt s c output n false childShown (inside name child) (c.labelled.getD true) r) r
      else if c.skipsDirectories then return r
      else s.complain r (shown ++ ": Is a directory")
    | .ok entry =>
      if c.leavesOut shown || (!top && entry matches .special _) then return r
      match ← Act.openToRead name with
      | .error f => s.complain r (shown ++ ": " ++ f.text)
      | .ok fd =>
        let place := (← ask (.describe fd)).bind (·.place)
        if output.isSome && output = place && !s.once && s.limit ≠ some 1 && s.report ≠ .nothing then
          ask (.close fd)
          s.complain r (shown ++ ": input file is also the output")
        else
          let r ← s.searchOpen fd shown (if labelled then some shown else none) r
          ask (.close fd)
          return r

inductive PatternKind where
  | basic | extended | fixed | rich
deriving DecidableEq

def PatternKind.dialect (k : PatternKind) (wide : Bool) : Regex.Dialect :=
  { (if k = .extended then Regex.extended else Regex.basic) with wide }

def readPattern (kind : PatternKind) (wide : Bool) (text : Chars) : Except String Regex :=
  let text := Letters.of wide text
  if kind = .fixed then .ok (Regex.ofText text) else Regex.parse (kind.dialect wide) text

def readRich (wide folds words whole : Bool) (text : Chars) : Except String Rich := do
  let text := Letters.of wide text
  let text := if whole then "^(?:" ++ text ++ ")$"
    else if words then "(?<!\\w)(?:" ++ text ++ ")(?!\\w)"
    else text
  Rich.parse folds text

def wholeLine (r : Regex) : Regex := .cat (.anchor .textStart) (.cat r (.anchor .textEnd))

def grepOptions : List OptionSpec :=
  optionsOf "A:B:C:D:EFGHILPRTUVZabcd:e:f:hilm:noqrsuvwxyz0123456789" "after-context=A:
    before-context=B: context=C: extended-regexp=E fixed-strings=F basic-regexp=G
    perl-regexp=P with-filename=H no-filename=h ignore-case=i no-ignore-case=cased files-with-matches=l
    files-without-match=L max-count=m: line-number=n only-matching=o byte-offset=b quiet=q silent=q
    recursive=r dereference-recursive=R no-messages=s invert-match=v word-regexp=w line-regexp=x regexp=e:
    file=f: count=c null-data=z null=Z text=a include: exclude: exclude-dir: color:: colour=color::
    line-buffered=U binary=U label: binary-files=binary: directories=d: devices=D: initial-tab=T
    no-group-separator=nogroup group-separator=group: exclude-from: unix-byte-offsets=u"

def grepUsage : Util Nat := do
  let _ ← Act.write 2 "Usage: grep [OPTION]... PATTERNS [FILE]...\nTry 'grep --help' for more information.\n"
  return 2

def digitContext (p : Parsed) : Option Nat :=
  Chars.toNat? ((p.options.map (·.key.toList)).filter (·.all Char.isDigit)).flatten

/-- The texts that options with one key give, and the lines of the files that those with another name. -/
def givenTexts (p : Parsed) (key fileKey : String) : Util (Except (Chars × Fault) (List Chars)) := do
  let mut texts := []
  for o in p.options do
    if o.key = key then texts := texts ++ [o.value]
    else if o.key = fileKey then
      match ← contents o.value with
      | .error f => return .error (o.value, f)
      | .ok text => texts := texts ++ (Chars.lines text).1
  return .ok texts

variable (default : PatternKind)

def grepFlaw (p : Parsed) : Option (Util Nat) :=
  let isKind (o : Given) : Bool := ["E", "F", "G", "P"].contains o.key
  let kinds := (p.options.filter isKind).map (·.key)
  let first := match default with
    | .extended => some "E"
    | .fixed => some "F"
    | _ => kinds.head?
  p.options.findSome? fun o =>
    let check (isRight : Bool) (words : Chars) : Option (Util Nat) :=
      if isRight then none else some (failWith 2 words)
    let isOneOf (known : List String) : Bool := known.contains (String.ofList o.value)
    match o.key with
    | "A" | "B" | "C" => check (Chars.toNat? o.value).isSome (o.value ++ ": invalid context length argument")
    | "m" => check (Chars.toInt? o.value).isSome "invalid max count"
    | "binary" => check (isOneOf ["binary", "text", "without-match"]) "unknown binary-files type"
    | "D" => check (isOneOf ["read", "skip"]) "unknown devices method"
    | "d" =>
      if isOneOf ["read", "recurse", "skip"] then none
      else some do
        complain ("invalid argument " ++ quoted o.value ++ " for " ++ quoted "--directories")
        warn ("Valid arguments are:\n" ++
          ["read", "recurse", "skip"].flatMap fun w => "  - ".toList ++ quoted w.toList ++ ['\n'])
        grepUsage
    | key => check (!isKind o || first = some key) "conflicting matchers specified"

def soughtOf (kind : PatternKind) (wide folds : Bool) (p : Parsed) (texts : List Chars) :
    Except String Sought := do
  match kind, texts with
  | .rich, [text] => return .rich (← readRich wide folds (p.has "w") (p.has "x") text)
  | .rich, _ => .error "the -P option only supports a single pattern"
  | kind, texts =>
    let patterns ← texts.mapM (readPattern kind wide)
    return .any (if p.has "x" then patterns.map wholeLine else patterns)

def grepWith (p : Parsed) : Applet := do
  let kind : PatternKind :=
    match p.lastKey? ["E", "F", "G", "P"] with
    | some "E" => .extended
    | some "F" => .fixed
    | some "P" => .rich
    | some "G" => .basic
    | _ => default
  let given := p.has "e" || p.has "f"
  match grepFlaw default p with
  | some flaw => flaw
  | none =>
    if p.has "u" then complain "warning: --unix-byte-offsets (-u) is obsolete"
    if !given && p.operands.isEmpty then grepUsage
    else
      match ← givenTexts p "e" "f" with
      | .error (name, f) => failWith 2 (name ++ ": " ++ f.text)
      | .ok texts =>
        let texts := (if given then texts else [p.operands.headD []]).flatMap (Chars.splitAt '\n')
        let operands := if given then p.operands else p.operands.tail
        let cased := p.lastKey? ["i", "y", "cased"]
        let manner : Regex.Manner := ⟨cased = some "i" || cased = some "y", false, ← wide⟩
        match soughtOf kind manner.wide manner.folds p texts with
        | .error e => failWith 2 e
        | .ok sought =>
          match ← givenTexts p "exclude" "exclude-from" with
          | .error (name, f) => failWith 2 (name ++ ": " ++ f.text)
          | .ok excluded => search p operands sought manner ((p.value? "m").bind Chars.toNat?) excluded
where
  search (p : Parsed) (operands : List Chars) (sought : Sought) (manner : Regex.Manner)
      (limit : Option Nat) (excluded : List Chars) : Applet := do
    let number (key : String) : Option Nat := (p.value? key).bind Chars.toNat?
    let around := number "C" <|> digitContext p
    let output ← ask (.describe 1)
    let report : Report :=
      if p.has "q" then .nothing
      else
        match p.lastKey? ["l", "L"] with
        | some "l" => .filesWith
        | some _ => .filesWithout
        | none => if p.has "c" then .counts else if p.has "o" then .matches else .lines
    let binary := p.value? "binary"
    let separator := match p.last? ["group", "nogroup"] with
      | some o => if o.key = "group" then some o.value else none
      | none => some "--"
    let s : Search :=
      { sought, manner, report, limit
        words := p.has "w" && !p.has "x"
        inverted := p.has "v"
        once := report matches .nothing | .filesWith | .filesWithout
        numbered := p.has "n"
        offsets := p.has "b"
        before := (number "B" <|> around).getD 0
        behind := (number "A" <|> around).getD 0
        separator := if (number "B" <|> number "A" <|> around).isSome then separator else none
        aligned := p.has "T"
        colored := ["always", "yes", "force"].contains (String.ofList ((p.value? "color").getD []))
        anyContent := p.has "a" || binary = some "text"
        textOnly := p.has "I" || binary = some "without-match"
        mark := p.mark
        nameMark := if p.has "Z" then some '\x00' else none
        silent := p.has "s" }
    let recursive := p.has "r" || p.has "R" || p.value? "d" = some "recurse"
    let labelled : Option Bool := (p.last? ["H", "h"]).map (·.key == "H")
    let c : Choice :=
      { recursive, labelled, excluded
        followsLinks := p.has "R"
        skipsDirectories := p.value? "d" = some "skip"
        included := p.values "include"
        excludedDirs := p.values "exclude-dir" }
    if limit = some 0 then return 1
    let place := output.bind fun o => if o.isFile then o.place else none
    let files := if operands.isEmpty then if recursive then [['.']] else [['-']] else operands
    let labels := labelled.getD (operands.length > 1)
    let mut r : Searched := {}
    for file in files do
      r ← if file = ['-'] then
          let name := (p.value? "label").getD "(standard input)"
          s.searchOpen 0 name (if labels then some name else none) r
        else searchAt s c place 4096 true (if operands.isEmpty then [] else file) file labels r
      if s.report = .nothing && r.found then return 0
    return if r.failed then 2 else if r.found then 0 else 1

def grepFor : Applet := do
  let args ← args
  match readArguments grepOptions true (args.length + 1) args with
  | .ok p => grepWith default p
  | .error text =>
    complain text
    grepUsage

def grep : Applet := grepFor .basic

def egrep : Applet := grepFor .extended

def fgrep : Applet := grepFor .fixed

end Prune.Utility
