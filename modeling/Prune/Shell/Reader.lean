import Prune.Shell.Arithmetic

/-!
Reading a script character by character. Nothing is told apart beforehand, since what a character
means hangs on where it stands.
-/

namespace Prune.Shell

inductive Token where
  | eof
  | newline
  | semi
  | semiSemi
  /-- The end of an arm behind which the next one is run. -/
  | semiAmp
  /-- The end of an arm behind which the next ones are looked at. -/
  | semiSemiAmp
  | amp
  | andIf
  | pipe
  /-- A pipe that also takes the errors. -/
  | pipeAmp
  | orIf
  | opening
  | closing
  | redirect (fd : Option Nat) (op : Chars)
  /-- A redirection of a number that is assigned to a variable. -/
  | redirectNamed (name op : Chars)
  | word (parts : Word)

structure Heralded where
  number : Nat
  /-- The line that ends it. -/
  last : Chars
  /-- Tabs at the starts of lines are dropped. -/
  strips : Bool
  /-- Nothing in it is expanded. -/
  literal : Bool

structure Source where
  rest : Chars
  line : Nat
  /-- A token that was put back. -/
  held : Option Token
  heralded : List Heralded
  documents : List (Nat × Word)
  nextDocument : Nat
  aliases : List (Chars × Chars)
  /-- Aliases whose text is still being read, each with what will be left behind it. -/
  busy : List (Chars × Nat)
  dialect : Dialect
  groups : Bool

structure Flaw where
  line : Nat
  message : String

abbrev Reading := StateT Source (Except Flaw)

def flaw (message : String) : Reading α := do throw ⟨(← get).line, message⟩

def skip (n : Nat) : Reading Unit := modify fun s =>
  { s with rest := s.rest.drop n, line := s.line + (s.rest.take n).count '\n' }

def skipTo (n : Nat) (a : α) : Reading α := do
  skip n
  return a

namespace Reading

def isExtended : Reading Bool := do return (← get).dialect = .extended

def written (act : Reading α) : Reading (α × Chars) := do
  let before := (← get).rest
  let a ← act
  let behind := (← get).rest
  return (a, before.take (before.length - behind.length))

def within (text : Chars) (act : Reading α) : Reading α := do
  let s ← get
  set { s with rest := text, held := none, heralded := [] }
  let a ← act
  modify fun t => { t with rest := s.rest, held := s.held, heralded := s.heralded, line := s.line }
  return a

def orElse (first second : Reading α) : Reading α := fun s =>
  match first s with
  | .ok r => .ok r
  | .error _ => second s

end Reading

def unclosed (message : String) (sign : String) : Reading α := do
  if ← Reading.isExtended then flaw ("unexpected EOF while looking for matching \x60" ++ sign ++ "'")
  else flaw message

inductive Place where
  | bare
  /-- Between double quotes. -/
  | quotes
  /-- In a parameter, behind the operator. -/
  | brace (quoted : Bool)
  /-- In an arithmetic expression, with so many open brackets. -/
  | sum (depth : Nat)
  /-- In a document. -/
  | document (last : Chars) (strips : Bool)
  /-- In an alternative of a pattern, up to the bracket that closes it. -/
  | group
  | subscript
  /-- In one of the two numbers of a slice, with so many open brackets. -/
  | slice (depth : Nat)
  | needle
  | regex (depth : Nat)

def isBlank (c : Char) : Bool := c = ' ' || c = '\t'

def endsWord (c : Char) : Bool := isBlank c || "\n;&|<>()".contains c

def isSpecial (c : Char) : Bool := "@*#?-$!".contains c

variable (text : Chars)

def untilQuote : Option (Chars × Chars) :=
  match text.span (· ≠ '\'') with
  | (before, _ :: behind) => some (before, behind)
  | (_, []) => none

/-- The text of an old substitution, its escapes undone, and how many characters it takes with the
sign that ends it. -/
def untilBacktick (quoted : Bool) : Chars → Option (Chars × Nat)
  | [] => none
  | '\x60' :: _ => some ([], 1)
  | '\\' :: c :: rest =>
    (untilBacktick quoted rest).map fun (text, n) =>
      if c = '\n' then (text, n + 2)
      else if c = '\\' || c = '\x60' || c = '$' || (quoted && c = '"') then (c :: text, n + 2)
      else ('\\' :: c :: text, n + 2)
  | c :: rest => (untilBacktick quoted rest).map fun (text, n) => (c :: text, n + 1)

def isLast (last : Chars) (strips : Bool) (text : Chars) : Bool :=
  let line := text.takeWhile (· ≠ '\n')
  (if strips then line.dropWhile (· = '\t') else line) = last

def paramName : Chars :=
  match text with
  | [] => []
  | c :: _ =>
    if isNameStart c then text.takeWhile isNameChar
    else if c.isDigit then text.takeWhile Char.isDigit
    else if isSpecial c then [c]
    else []

def Place.ordinary : Place → Char → Part
  | .bare, c | .brace false, c | .group, c | .needle, c | .regex _, c => .plain c
  | _, c => .quoted c

def Place.isQuoted : Place → Bool
  | .brace quoted => quoted
  | .bare | .group | .needle | .regex _ => false
  | _ => true

def Place.escapes : Place → Char → Bool
  | .bare, _ | .brace false, _ => true
  | .brace true, c => "$\x60\"\\\x7d".contains c
  | .quotes, c | .sum _, c | .slice _, c => "$\x60\"\\".contains c
  | .document .., c => "$\x60\\".contains c
  | _, _ => true

def characterOf (n : Nat) : Chars := Chars.ofString (String.singleton (Char.ofNat n))

/-- What an escape stands for behind its backslash, and how many characters it takes with it. -/
def escape : Chars × Nat :=
  let byte (n : Nat) : Chars := [Char.ofNat (n % 256)]
  let coded (letter : Char) (most : Nat) (rest : Chars) (meant : Nat → Chars) : Chars × Nat :=
    let digits := Chars.digitsIn 16 most rest
    if digits.isEmpty then (['\\', letter], 2) else (meant (Chars.valueIn 16 digits), digits.length + 2)
  match text with
  | [] => (['\\'], 1)
  | 'e' :: _ | 'E' :: _ => (['\x1b'], 2)
  | 'c' :: c :: _ => (byte (c.toNat % 32), 3)
  | 'x' :: rest => coded 'x' 2 rest byte
  | 'u' :: rest => coded 'u' 4 rest characterOf
  | 'U' :: rest => coded 'U' 8 rest characterOf
  | c :: _ =>
    let digits := Chars.digitsIn 8 3 text
    if !digits.isEmpty then (byte (Chars.valueIn 8 digits), digits.length + 1)
    else if c = '\\' || c = '\'' || c = '"' || c = '?' then ([c], 2)
    else
      match Chars.control? c with
      | some control => ([control], 2)
      | none => (['\\', c], 2)

/-- A text up to a single quote with its escapes undone, and how many characters it takes with the
quote. -/
def untilQuoteEscaped : Nat → Chars → Option (Chars × Nat)
  | 0, _ | _, [] => none
  | _, '\'' :: _ => some ([], 1)
  | n + 1, '\\' :: rest =>
    let (text, count) := escape rest
    (untilQuoteEscaped n (rest.drop (count - 1))).map fun (more, k) => (text ++ more, k + count)
  | n + 1, c :: rest => (untilQuoteEscaped n rest).map fun (more, k) => (c :: more, k + 1)

def subscriptLength : Nat → Nat → Chars → Option Nat
  | 0, _, _ | _, _, [] => none
  | n + 1, depth, c :: rest =>
    let behind (depth : Nat) : Option Nat := (subscriptLength n depth rest).map (· + 1)
    if c = '\n' then none
    else if c = '[' then behind (depth + 1)
    else if c = ']' then if depth = 0 then some 0 else behind (depth - 1)
    else behind depth

def assignsElement : Bool :=
  match subscriptLength text.length 0 text with
  | none => false
  | some n =>
    match text.drop (n + 1) with
    | '=' :: _ | '+' :: '=' :: _ => n ≠ 0
    | _ => false

def asksForValue (acc : List Part) : Bool :=
  match acc with
  | .plain '=' :: rest =>
    let rest := match rest with
      | .plain '+' :: more | more => more
    let rest := match rest with
      | .plain ']' :: more => (more.dropWhile fun
          | .plain '[' => false
          | _ => true).tail
      | more => more
    match literal? rest with
    | some name => isName name.reverse
    | none => false
  | _ => false

def isNameSoFar (acc : List Part) : Bool :=
  match literal? acc with
  | some text => isName text.reverse
  | none => false

/-- The length of the blanks at the start of a text, with the comment behind them and, with `lines`,
all that are behind the end of the line. -/
def blanks (lines : Bool) : Nat → Chars → Nat
  | n + 1, '\\' :: '\n' :: rest => 2 + blanks lines n rest
  | n + 1, '\n' :: rest => if lines then 1 + blanks lines n rest else 0
  | n + 1, '#' :: rest =>
    let size := (rest.takeWhile (· ≠ '\n')).length
    1 + size + blanks lines n (rest.drop size)
  | n + 1, c :: rest => if isBlank c then 1 + blanks lines n rest else 0
  | _, _ => 0

def passBlanks (lines : Bool) : Reading Unit := do
  let rest := (← get).rest
  skip (blanks lines (rest.length + 1) rest)

section

variable (self : Place → List Part → Reading (List Part))

def singleQuoted (place : Place) (acc : List Part) (rest : Chars) : Reading (List Part) := do
  let some (text, _) := untilQuote rest | unclosed "Unterminated quoted string" "'"
  skip (text.length + 2)
  self place ((text.reverse.map .quoted) ++ Part.mark :: acc)

/-- The elements of a list up to the bracket that closes it, at most `most` of them. -/
def elements :
    (most : Nat) → List (List Part) → Reading (List (List Part))
  | 0, acc => return acc.reverse
  | most + 1, acc => do
    passBlanks true
    let another : Reading (List (List Part)) := do
      let length := (← get).rest.length
      let value ← self .bare []
      if (← get).rest.length = length then
        flaw ("syntax error near unexpected token \x60" ++ String.ofList ((← get).rest.take 1) ++ "'")
      elements most (value :: acc)
    match (← get).rest with
    | [] => unclosed "Missing ')'" ")"
    | ')' :: _ => skipTo 1 acc.reverse
    | '[' :: rest =>
      if assignsElement rest then
        skip 1
        let place ← self .subscript []
        let value ← self .bare []
        elements most ((.plain '[' :: place ++ .plain ']' :: value) :: acc)
      else another
    | _ => another

def malformed (quoted : Bool) (whole : Chars) : Reading Part := do
  let _ ← self (.brace quoted) []
  let left := (← get).rest.length
  return .malformed ("$\x7b" ++ whole.take (whole.length - left))

def subscript : Reading Index := do
  match (← get).rest with
  | '[' :: '@' :: ']' :: _ => skipTo 3 (.every false)
  | '[' :: '*' :: ']' :: _ => skipTo 3 (.every true)
  | _ =>
    skip 1
    return .element (← self .subscript [])

def operator (quoted : Bool) (name : Chars) (index : Index) (whole : Chars) : Reading Part := do
  let word (count : Nat) (quoted : Bool) : Reading Word := do
    skip count
    self (.brace quoted) []
  let made (form : Form) : Reading Part := return .param name index form quoted
  let recased (change : Recase) (rest : Chars) : Reading Part := do
    let every := rest.head? = (← get).rest.head?
    made (.recase change every (← word (if every then 2 else 1) false))
  let instead (colon : Bool) (c : Char) : Option (Reading Part) :=
    let form? : Option (Bool → Word → Form) := match c with
      | '-' => some .orElse
      | '=' => some .orAssign
      | '?' => some .orFail
      | '+' => some .andThen
      | _ => none
    form?.map fun form => do made (form colon (← word (if colon then 2 else 1) quoted))
  let extended ← Reading.isExtended
  match (← get).rest with
  | '\x7d' :: _ => skip 1; made .value
  | '#' :: '#' :: _ => made (.withoutStart true (← word 2 false))
  | '#' :: _ => made (.withoutStart false (← word 1 false))
  | '%' :: '%' :: _ => made (.withoutEnd true (← word 2 false))
  | '%' :: _ => made (.withoutEnd false (← word 1 false))
  | c :: rest =>
    let colon := c = ':' && !rest.isEmpty
    if let some act := instead colon (if colon then rest.headD c else c) then act
    else if !extended then malformed self quoted whole
    else
      match c, rest with
      | ':', _ =>
        skip 1
        let start ← self (.slice 0) []
        match (← get).rest with
        | ':' :: _ =>
          skip 1
          let count ← self (.slice 0) []
          skip 1
          made (.slice start (some count))
        | _ => skip 1; made (.slice start none)
      | '/', _ =>
        let (which, count) := match rest with
          | '/' :: _ => (Occurrence.every, 2)
          | '#' :: _ => (.atStart, 2)
          | '%' :: _ => (.atEnd, 2)
          | _ => (.first, 1)
        skip count
        let pattern ← self .needle []
        match (← get).rest with
        | '/' :: _ => made (.replace which pattern (← word 1 false))
        | _ => skip 1; made (.replace which pattern [])
      | '^', _ => recased .upper rest
      | ',', _ => recased .lower rest
      | '~', _ => recased .toggle rest
      | '@', how :: '\x7d' :: _ =>
        if "QEPAaUuLKk".contains how then
          skip 3
          made (.transform how)
        else malformed self quoted whole
      | _, _ => malformed self quoted whole
  | [] => malformed self quoted whole

def throughName : Part → Reading Part
  | .param name index form quoted => return .param name index (.through form) quoted
  | p => return p

def parameter (quoted : Bool) : Reading Part := do
  let rest := (← get).rest
  let extended ← Reading.isExtended
  match rest with
  | '#' :: '\x7d' :: _ => skipTo 2 (.param ['#'] .whole .value quoted)
  | '#' :: more =>
    let name := paramName more
    let behind := more.drop name.length
    if !name.isEmpty && behind.head? = some '\x7d' then
      skipTo (name.length + 2) (.param name .whole .length quoted)
    else if extended && isName name && behind.head? = some '[' then
      skip (name.length + 1)
      let index ← subscript self
      if (← get).rest.head? = some '\x7d' then return ← skipTo 1 (.param name index .length quoted)
      malformed self quoted rest
    else
      skip 1
      operator self quoted ['#'] .whole rest
  | '!' :: more =>
    let name := paramName more
    if extended && !name.isEmpty then
      skip (name.length + 1)
      match more.drop name.length with
      | '*' :: '\x7d' :: _ => skipTo 2 (.param name .whole (.names true) quoted)
      | '@' :: '\x7d' :: _ => skipTo 2 (.param name .whole (.names false) quoted)
      | '[' :: _ =>
        let index ← subscript self
        match index, (← get).rest with
        | .every joined, '\x7d' :: _ => skipTo 1 (.param name (.every joined) .keys quoted)
        | index, _ => throughName (← operator self quoted name index rest)
      | _ => throughName (← operator self quoted name .whole rest)
    else
      skip 1
      operator self quoted ['!'] .whole rest
  | _ =>
    let name := paramName rest
    skip name.length
    if name.isEmpty then malformed self quoted rest
    else if extended && isName name && (rest.drop name.length).head? = some '[' then
      operator self quoted name (← subscript self) rest
    else operator self quoted name .whole rest

/-- The parts of a word up to its end, behind those in `acc`, which are in reverse. The end of a bare
word is left to be read; another end is passed over. `commands` reads the commands of a substitution
up to the bracket that closes it, `script` those of a whole text, and `self` the parts of a word
that is in another. -/
def partsRule (commands script : Reading Command) (place : Place) (acc : List Part) :
    Reading (List Part) := do
  let go (count : Nat) (more : List Part) : Reading (List Part) := do
    skip count
    self place (more ++ acc)
  let ended : Reading (List Part) := skipTo 1 acc.reverse
  let quoted := place.isQuoted
  let extended ← Reading.isExtended
  let between (place : Place) : Reading (List Part) := do
    skip 1
    let inner ← self place []
    go 0 (inner.reverse ++ [.mark])
  /- A plain sign, a bracket behind it, and all up to the bracket that closes it. -/
  let bracketed (signs : Chars) : Reading (List Part) := do
    skip signs.length
    let inner ← self .group []
    go 0 (.plain ')' :: inner.reverse ++ signs.reverse.map .plain)
  match (← get).rest with
  | [] =>
    match place with
    | .bare | .document .. | .regex 0 => return acc.reverse
    | .quotes => unclosed "Unterminated quoted string" "\""
    | .sum _ => unclosed "Missing '))'" ")"
    | .brace _ | .slice _ | .needle => unclosed "Missing '\x7d'" "\x7d"
    | .subscript => unclosed "Missing ']'" "]"
    | .group | .regex _ => unclosed "Missing ')'" ")"
  | '\\' :: '\n' :: _ => go 2 []
  | ['\\'] => go 1 [.quoted '\\']
  | '\\' :: c :: _ => if place.escapes c then go 2 [.quoted c, .mark] else go 1 [place.ordinary '\\']
  | '\x60' :: rest =>
    match untilBacktick quoted rest with
    | none => unclosed "EOF in backquote substitution" "\x60"
    | some (text, count) =>
      let body ← Reading.within text script
      go (count + 1) [.command body quoted]
  | '$' :: '(' :: '(' :: _ =>
    let sum : Reading Part := do
      skip 3
      return .sum (← self (.sum 0) []) quoted
    let command : Reading Part := do
      skip 2
      return .command (← commands) quoted
    go 0 [← if extended then sum.orElse command else sum]
  | '$' :: '(' :: _ =>
    skip 2
    let body ← commands
    go 0 [.command body quoted]
  | '$' :: '\x7b' :: _ =>
    skip 2
    go 0 [← parameter self quoted]
  | '$' :: rest =>
    match rest with
    | c :: more =>
      if extended && c = '\'' && !quoted then
        match untilQuoteEscaped (more.length + 1) more with
        | none => unclosed "Unterminated quoted string" "'"
        | some (text, count) => go (count + 2) (text.reverse.map .quoted ++ [.mark])
      else if extended && c = '"' && !quoted then go 1 []
      else if extended && c = '[' then
        skip 2
        let body ← self .subscript []
        go 0 [.sum body quoted]
      else if c.isDigit then go 2 [.param [c] .whole .value quoted]
      else
        match paramName rest with
        | [] => go 1 [place.ordinary '$']
        | name => go (name.length + 1) [.param name .whole .value quoted]
    | [] => go 1 [place.ordinary '$']
  | c :: rest =>
    let orQuoted (part : Part) : Reading (List Part) :=
      if c = '\'' then singleQuoted self place acc rest
      else if c = '"' then between .quotes
      else go 1 [part]
    match place with
    | .bare =>
      let opens := rest.head? = some '('
      if extended && (c = '<' || c = '>') && opens then
        skip 2
        let body ← commands
        go 0 [.feed body (c = '<')]
      else if (← get).groups && opens && "?*+@!".contains c then bracketed [c, '(']
      else if extended && c = '(' && asksForValue acc then
        skip 1
        let (values, text) ← Reading.written (elements self (rest.length + 1) [])
        go 0 [.items values text.dropLast]
      else if endsWord c then return acc.reverse
      else if extended && c = '[' && isNameSoFar acc && assignsElement rest then
        skip 1
        let inner ← self .subscript []
        go 0 (.plain ']' :: inner.reverse ++ [.plain '['])
      else orQuoted (.plain c)
    | .quotes =>
      if c = '"' then ended else go 1 [.quoted c]
    | .brace quoted =>
      if c = '\x7d' then ended
      else if c = '\'' && !quoted then singleQuoted self place acc rest
      else if c = '"' then if quoted then go 1 [.mark] else between .quotes
      else go 1 [place.ordinary c]
    | .needle =>
      if c = '\x7d' || c = '/' then return acc.reverse
      else orQuoted (.plain c)
    | .group =>
      if c = ')' then ended
      else if c = '(' then bracketed ['(']
      else orQuoted (.plain c)
    | .regex depth =>
      let deeper (depth : Nat) : Reading (List Part) := do
        skip 1
        self (.regex depth) (.plain c :: acc)
      if c = '(' then deeper (depth + 1)
      else if c = ')' && depth ≠ 0 then deeper (depth - 1)
      else if depth = 0 && c ≠ '|' && endsWord c then return acc.reverse
      else orQuoted (.plain c)
    | .subscript =>
      if c = ']' then ended
      else if c = '[' then
        skip 1
        let inner ← self .subscript []
        go 0 (.quoted ']' :: inner.reverse ++ [.quoted '['])
      else orQuoted (.quoted c)
    | .slice depth =>
      let deeper (depth : Nat) : Reading (List Part) := do
        skip 1
        self (.slice depth) (.quoted c :: acc)
      if c = '(' || c = '?' then deeper (depth + 1)
      else if c = ')' then deeper (depth - 1)
      else if c = ':' && depth ≠ 0 then deeper (depth - 1)
      else if c = ':' || c = '\x7d' then return acc.reverse
      else go 1 [.quoted c]
    | .sum depth =>
      if c = '(' then
        skip 1
        self (.sum (depth + 1)) (.quoted c :: acc)
      else if c = ')' then
        if depth = 0 then
          if rest.head? = some ')' then skipTo 2 acc.reverse else flaw "Missing '))'"
        else
          skip 1
          self (.sum (depth - 1)) (.quoted c :: acc)
      else if extended && c = '"' then go 1 []
      else go 1 [.quoted c]
    | .document last strips =>
      if c = '\n' then
        if isLast last strips rest then
          skipTo (1 + (rest.takeWhile (· ≠ '\n')).length + 1) (Part.quoted c :: acc).reverse
        else
          let tabs := if strips then (rest.takeWhile (· = '\t')).length else 0
          go (1 + tabs) [.quoted c]
      else go 1 [.quoted c]

end

def parts (commands script : Reading Command) : Nat → Place → List Part → Reading (List Part)
  | 0, _, acc => return acc.reverse
  | n + 1, place, acc => partsRule (parts commands script n) commands script place acc

end Prune.Shell
