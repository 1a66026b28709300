import Prune.Regex.Parse

/-!
The commands of the stream editor, and how they are written. Blocks are kept as pairs of commands, the
one that opens a block with the place where it ends, so that a script is a row of commands.
-/

namespace Prune.Utility.Sed

/-- An expression of a script; an empty one stands for the one that was used last. -/
structure Pattern where
  regex : Option Regex
  manner : Regex.Manner

inductive Place where
  | line (n : Nat)
  | step (first by' : Nat)
  | last
  | pattern (p : Pattern)

inductive Stop where
  | at (p : Place)
  | after (n : Nat)
  | multiple (n : Nat)

structure Address where
  start : Option Place
  stop : Option Stop
  negated : Bool

inductive Part where
  | text (c : Char)
  | group (n : Nat)
  | upper
  | lower
  | plain
  | upperNext
  | lowerNext

structure Substitution where
  pattern : Pattern
  replacement : List Part
  all : Bool
  first : Nat
  prints : Bool
  executes : Bool
  file : Option Chars

inductive Action where
  | block (stop : Nat)
  | blockEnd
  | label (name : Chars)
  | jump (target : Chars)
  | jumpIfReplaced (target : Chars)
  | jumpIfNotReplaced (target : Chars)
  | append (text : Chars)
  | insert (text : Chars)
  | change (text : Chars)
  | delete
  | deleteFirst
  | print
  | printFirst
  | number
  | show (width : Option Nat)
  | fileName
  | hold
  | holdMore
  | recall
  | recallMore
  | exchange
  | next
  | nextMore
  | quit (status : Nat)
  | quitSilently (status : Nat)
  | readFile (name : Chars)
  | readLine (name : Chars)
  | write (name : Chars)
  | writeFirst (name : Chars)
  | substitute (s : Substitution)
  | translate (pairs : List (Char × Char))
  | clear
  | execute (command : Chars)
  | nothing

structure Command where
  address : Address
  action : Action

/-- A complaint about a script: how much was left to read, unless the place does not matter. -/
structure Fail where
  rest : Option Nat
  words : String

abbrev Read := StateT Chars (Except Fail)

namespace Read

def fail (words : String) : Read α := do throw ⟨some (← get).length, words⟩

def peek : Read (Option Char) := do return (← get).head?

def take : Read (Option Char) := do
  let c :: rest ← get | return none
  set rest
  return some c

def pass : Read Unit := modify List.tail

def takes (c : Char) : Read Bool := do
  let isNext := (← get).head? = some c
  if isNext then pass
  return isNext

def skip (p : Char → Bool) : Read Unit := modify (·.dropWhile p)

def takeWhile (p : Char → Bool) : Read Chars := do
  let part := (← get).takeWhile p
  skip p
  return part

def isBlank (c : Char) : Bool := c = ' ' || c = '\t'

def isSpace (c : Char) : Bool := isBlank c || c = '\n' || c = '\x0d' || c = '\x0b' || c = '\x0c'

def skipBlanks : Read Unit := skip isBlank

def number : Read Nat := do return (Chars.toNat? (← takeWhile Char.isDigit)).getD 0

end Read

open Read

/-- The end of a set between brackets: how many characters belong to it, the bracket that closes it
included. Nothing if it is not closed. -/
def setLength (text : Chars) : Option Nat :=
  let start := match text with
    | '^' :: ']' :: _ => 2
    | '^' :: _ | ']' :: _ => 1
    | _ => 0
  go (text.length + 1) start (text.drop start)
where
  go : Nat → Nat → Chars → Option Nat
    | 0, _, _ | _, _, [] => none
    | _, n, ']' :: _ => some (n + 1)
    | fuel + 1, n, '[' :: c :: rest =>
      if c = ':' || c = '.' || c = '=' then
        let inner := rest.takeWhile (· ≠ c)
        match rest.drop inner.length with
        | _ :: ']' :: more => go fuel (n + inner.length + 4) more
        | _ => go fuel (n + 1) (c :: rest)
      else go fuel (n + 1) (c :: rest)
    | fuel + 1, n, _ :: rest => go fuel (n + 1) rest

/-- A text up to its delimiter, which is taken too. A delimiter behind a backslash is part of it. -/
def delimited (mark : Char) (isPattern : Bool) (words : String) : Read Chars := do go ((← get).length + 1)
where
  go : Nat → Read Chars
    | 0 => fail words
    | n + 1 => do
      let some c ← take | fail words
      if c = mark then return []
      else if c = '\n' then fail words
      else if c = '\\' then
        let some e ← take | fail words
        let rest ← go n
        return if e = mark && (isPattern || e ≠ '&') then e :: rest else '\\' :: e :: rest
      else if c = '[' && isPattern then
        let some size := setLength (← get) |
          set ([] : Chars)
          fail words
        let set' := (← get).take size
        modify (·.drop size)
        return c :: set' ++ (← go n)
      else return c :: (← go n)

structure Style where
  extended : Bool
  wide : Bool

def Style.dialect (s : Style) : Regex.Dialect := ⟨s.extended, true, true, false, true, false, s.wide⟩

def Style.byte (s : Style) (c : Char) : Char := if s.wide && c.toNat ≥ 0x80 then Letters.stray c else c

def digitsOf (base size : Nat) (text : Chars) : Option (Char × Chars) :=
  let digits := Chars.digitsIn base size text
  if digits.isEmpty then none
  else some (Char.ofNat (Chars.valueIn base digits % 256), text.drop digits.length)

def numbered? : Chars → Option (Char × Chars)
  | 'x' :: rest => digitsOf 16 2 rest
  | 'o' :: rest => digitsOf 8 3 rest
  | 'd' :: rest => digitsOf 10 3 rest
  | _ => none

def control? (c : Char) : Option Char := if c = 'b' then none else Chars.control? c

/-- An expression with its numbered characters replaced; those with a meaning stay behind a
backslash. -/
def withNumbered : Nat → Chars → Chars
  | 0, text => text
  | _, [] => []
  | n + 1, '\\' :: rest =>
    match numbered? rest with
    | some (c, rest) =>
      if "*.[]^$\\+?()\x7b\x7d|".contains c then '\\' :: c :: withNumbered n rest
      else c :: withNumbered n rest
    | none =>
      match rest with
      | [] => ['\\']
      | c :: rest => '\\' :: c :: withNumbered n rest
  | n + 1, c :: rest => c :: withNumbered n rest

variable (style : Style)

def patternOf (folds lines : Bool) (text : Chars) : Read Pattern := do
  let manner : Regex.Manner := ⟨folds, lines, style.wide⟩
  if text.isEmpty then return ⟨none, manner⟩
  match Regex.parse style.dialect (Letters.of style.wide (withNumbered (text.length + 1) text)) with
  | .ok r => return ⟨some r, manner⟩
  | .error e => fail e

def addressFlags : Nat → Bool → Bool → Read (Bool × Bool)
  | 0, folds, lines => return (folds, lines)
  | n + 1, folds, lines => do
    if ← takes 'I' then addressFlags n true lines
    else if ← takes 'M' then addressFlags n folds true
    else return (folds, lines)

def addressPattern (mark : Char) : Read Place := do
  let text ← delimited mark true "unterminated address regex"
  let (folds, lines) ← addressFlags 4 false false
  return .pattern (← patternOf style folds lines text)

def place? : Read (Option Place) := do
  match ← get with
  | '$' :: rest =>
    set rest
    return some .last
  | '/' :: rest =>
    set rest
    return some (← addressPattern style '/')
  | '\\' :: mark :: rest =>
    set rest
    return some (← addressPattern style mark)
  | c :: _ =>
    if c.isDigit then
      let n ← number
      skipBlanks
      if ← takes '~' then return some (.step n (← number)) else return some (.line n)
    else return none
  | [] => return none

def stop? : Read (Option Stop) := do
  if ← takes '+' then return some (.after (← number))
  else if ← takes '~' then return some (.multiple (← number))
  else return (← place? style).map .at

def address : Read Address := do
  let start ← place? style
  skipBlanks
  let mut stop := none
  if start.isSome then
    if ← takes ',' then
      skipBlanks
      stop ← stop? style
      if stop.isNone then
        pass
        fail "unexpected \x60,'"
  skipBlanks
  let negated ← takes '!'
  if negated then
    skipBlanks
    if ← takes '!' then fail "multiple \x60!'s"
  return ⟨start, stop, negated⟩

def endOfCommand : Read Unit := do
  skipBlanks
  match ← peek with
  | none | some '\x7d' | some '#' => return
  | some c =>
    pass
    if c = ';' || c = '\n' || c = '\x0d' then return else fail "extra characters after command"

def textLines : Nat → Read Chars
  | 0 => return []
  | n + 1 => do
    match ← take with
    | none | some '\n' => return []
    | some '\\' =>
      let some c ← take | return []
      match numbered? (c :: (← get)) with
      | some (d, rest) =>
        set rest
        return d :: (← textLines n)
      | none => return (control? c).getD c :: (← textLines n)
    | some c => return c :: (← textLines n)

def outputText : Read Chars := do
  skipBlanks
  match ← get with
  | [] => fail "expected \\ after \x60a', \x60c' or \x60i'"
  | '\\' :: rest =>
    match rest.dropWhile isBlank with
    | '\n' :: text => set text
    | [] => set ([] : Chars)
    | _ => set rest
    let text ← textLines ((← get).length + 1)
    return if text.isEmpty && rest.isEmpty then [] else text ++ ['\n']
  | _ => return (← textLines ((← get).length + 1)) ++ ['\n']

def labelName : Read Chars := do
  skipBlanks
  takeWhile fun c => !isSpace c && c ≠ ';' && c ≠ '\x7d'

def fileName : Read Chars := do
  skipBlanks
  let name ← takeWhile (· ≠ '\n')
  if name.isEmpty then fail "missing filename in r/R/w/W commands" else return name

def parts : Nat → Chars → List Part
  | 0, _ | _, [] => []
  | n + 1, '&' :: rest => .group 0 :: parts n rest
  | n + 1, '\\' :: rest =>
    match numbered? rest with
    | some (c, rest) => .text (style.byte c) :: parts n rest
    | none =>
      match rest with
      | [] => [.text '\\']
      | c :: rest =>
        let part := match c with
          | 'U' => .upper
          | 'L' => .lower
          | 'E' => .plain
          | 'u' => .upperNext
          | 'l' => .lowerNext
          | c => if c.isDigit then .group (c.toNat - '0'.toNat) else .text ((control? c).getD c)
        part :: parts n rest
  | n + 1, c :: rest => .text c :: parts n rest

structure Flags where
  all : Bool := false
  number : Option Nat := none
  prints : Bool := false
  executes : Bool := false
  folds : Bool := false
  lines : Bool := false
  file : Option Chars := none

def once (isAgain : Bool) (what : String) : Read Unit :=
  if isAgain then fail (s!"multiple {what} options to \x60s' command") else return

def flags : Nat → Flags → Read Flags
  | 0, f => return f
  | n + 1, f => do
    let some c ← peek | return f
    if c.isDigit then
      let k ← number
      if k = 0 then fail "number option to \x60s' command may not be zero"
      once f.number.isSome "number"
      flags n { f with number := some k }
    else if c = '\x7d' || c = '#' then return f
    else
      pass
      match c with
      | 'g' =>
        once f.all "\x60g'"
        flags n { f with all := true }
      | 'p' =>
        once f.prints "\x60p'"
        flags n { f with prints := true }
      | 'e' => flags n { f with executes := true }
      | 'i' | 'I' => flags n { f with folds := true }
      | 'm' | 'M' => flags n { f with lines := true }
      | 'w' => return { f with file := some (← fileName) }
      | ';' | '\n' => return f
      | c =>
        if isSpace c then
          endOfCommand
          return f
        fail "unknown option to \x60s'"

def greatestGroup (ps : List Part) : Nat :=
  ps.foldl (fun
    | n, .group k => max n k
    | n, _ => n) 0

def substitution : Read Action := do
  let words := "unterminated \x60s' command"
  let some mark ← take | fail words
  if mark = '\n' || mark = '\\' then fail words
  else
    let pattern ← delimited mark true words
    let text ← delimited mark false words
    let f ← flags ((← get).length + 1) {}
    let replacement := parts style (text.length + 1) (Letters.of style.wide text)
    let pattern ← patternOf style f.folds f.lines pattern
    let groups := greatestGroup replacement
    if pattern.regex.any (·.groupCount < groups) then
      fail ("invalid reference \\" ++ toString groups ++ " on \x60s' command's RHS")
    return .substitute ⟨pattern, replacement, f.all, f.number.getD 1, f.prints, f.executes, f.file⟩

def plainChars : Nat → Chars → Chars
  | 0, _ | _, [] => []
  | n + 1, '\\' :: c :: rest =>
    let plain := if c = '\\' then [c] else ((control? c).map ([·])).getD ['\\', c]
    plain ++ plainChars n rest
  | n + 1, c :: rest => c :: plainChars n rest

def translation : Read Action := do
  let words := "unterminated \x60y' command"
  let some mark ← take | fail words
  let side : Read Chars := do
    let text ← delimited mark false words
    return plainChars (text.length + 1) (Letters.of style.wide text)
  let old ← side
  let new ← side
  if old.length ≠ new.length then fail "strings for \x60y' command are different lengths"
  else
    endOfCommand
    return .translate (old.zip new)

def optionalNumber : Read (Option Nat) := do
  skipBlanks
  return Chars.toNat? (← takeWhile Char.isDigit)

/-- A command behind its address, from its letter on. Blocks are not joined yet. -/
def action (a : Address) (c : Char) : Read Action := do
  let simple (x : Action) : Read Action := do
    endOfCommand
    return x
  let status : Read Nat := do
    if a.stop.isSome then fail "command only uses one address"
    return (← optionalNumber).getD 0
  match c with
  | '\x7b' => return .block 0
  | '\x7d' =>
    if a.start.isSome then fail "unexpected \x60,'"
    else simple .blockEnd
  | ':' =>
    if a.start.isSome then fail ": doesn't want any addresses"
    else
      let name ← labelName
      if name.isEmpty then fail "\":\" lacks a label"
      else simple (.label name)
  | 'b' => simple (.jump (← labelName))
  | 't' => simple (.jumpIfReplaced (← labelName))
  | 'T' => simple (.jumpIfNotReplaced (← labelName))
  | 'a' => return .append (← outputText)
  | 'i' => return .insert (← outputText)
  | 'c' => return .change (← outputText)
  | 'd' => simple .delete
  | 'D' => simple .deleteFirst
  | 'p' => simple .print
  | 'P' => simple .printFirst
  | '=' => simple .number
  | 'l' => simple (.show (← optionalNumber))
  | 'F' => simple .fileName
  | 'h' => simple .hold
  | 'H' => simple .holdMore
  | 'g' => simple .recall
  | 'G' => simple .recallMore
  | 'x' => simple .exchange
  | 'n' => simple .next
  | 'N' => simple .nextMore
  | 'q' => simple (.quit (← status))
  | 'Q' => simple (.quitSilently (← status))
  | 'r' => return .readFile (← fileName)
  | 'R' => return .readLine (← fileName)
  | 'w' => return .write (← fileName)
  | 'W' => return .writeFirst (← fileName)
  | 's' => substitution style
  | 'y' => translation style
  | 'z' => simple .clear
  | 'e' =>
    skipBlanks
    return .execute (← takeWhile (· ≠ '\n'))
  | 'v' =>
    skip (· ≠ '\n')
    return .nothing
  | c => fail ("unknown command: \x60" ++ String.singleton c ++ "'")

/-- All commands of a script, and how deep blocks are nested where it ends. -/
def commands : Nat → (depth : Nat) → Read (List Command)
  | 0, _ => return []
  | n + 1, depth => do
    skip fun c => isSpace c || c = ';'
    match ← peek with
    | none => if depth > 0 then throw ⟨none, "unmatched \x60\x7b'"⟩ else return []
    | some '#' =>
      skip (· ≠ '\n')
      commands n depth
    | some _ =>
      let a ← address style
      match a.start, a.stop with
      | some (.line 0), some (.at (.pattern _)) => pure ()
      | some (.line 0), _ =>
        pass
        fail "invalid usage of line address 0"
      | _, _ => pure ()
      match ← take with
      | none | some '\n' | some ';' => fail "missing command"
      | some '#' => fail "comments don't accept any addresses"
      | some c =>
        if c = '\x7d' && depth = 0 then fail "unexpected \x60\x7d'"
        let x ← action style a c
        let depth := if c = '\x7b' then depth + 1 else if c = '\x7d' then depth - 1 else depth
        return ⟨a, x⟩ :: (← commands n depth)

def blockLength : Nat → List Command → Nat
  | _, [] => 0
  | depth, c :: rest =>
    match c.action with
    | .block _ => 1 + blockLength (depth + 1) rest
    | .blockEnd => if depth = 0 then 0 else 1 + blockLength (depth - 1) rest
    | _ => 1 + blockLength depth rest

def withBlocks : Nat → List Command → List Command
  | _, [] => []
  | i, c :: rest =>
    let c := match c.action with
      | .block _ => { c with action := .block (i + 1 + blockLength 0 rest) }
      | _ => c
    c :: withBlocks (i + 1) rest

def parse (text : Chars) : Except Fail (List Command) := do
  let (cs, _) ← (commands style (text.length + 1) 0).run text
  return withBlocks 0 cs

end Prune.Utility.Sed
