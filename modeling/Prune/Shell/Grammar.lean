import Prune.Shell.Reader

/-!
The grammar of commands. Each rule takes the rules it uses as an argument, and the depth of the
nesting bounds how often they are used inside each other.
-/

namespace Prune.Shell

def reserved : List String :=
  ["!", "case", "do", "done", "elif", "else", "esac", "fi", "for", "if", "in", "then", "until", "while",
    "\x7b", "\x7d"]

def specialNames : List String :=
  [".", ":", "break", "continue", "eval", "exec", "exit", "export", "readonly", "return", "set", "shift",
    "times", "trap", "unset"]

inductive Extent where
  /-- At the end of the line. -/
  | line
  /-- At what closes the construct it is in. -/
  | body
  /-- As a body, and it may be empty. -/
  | arm
deriving DecidableEq

structure Rules where
  list : Extent → (before : Option Command) → Reading (Option Command)
  andOr : Command → Reading Command
  stages : List Command → Reading Command
  command : Reading Command
  alternatives : Reading (Option Command)
  words : List Word → Reading (List Word)
  arms : List (List Word × Option Command × Follow) → Reading (List (List Word × Option Command × Follow))
  patterns : List Word → Reading (List Word)
  redirections : List Redirection → Reading (List Redirection)
  simple : Nat → List Assignment → List Word → List Redirection → Reading Command
  condition : Reading Condition
  conjunction : Reading Condition
  term : Reading Condition

def redirectsNext : Chars → Bool
  | '<' :: _ | '>' :: _ => true
  | _ => false

variable (dialect : Dialect)

def redirectOp (text : Chars) : Chars :=
  let ops := ["<<-", "<<", "<&", "<>", "<", ">>", ">&", ">|", ">"]
  let ops := if dialect = .extended then "<<<" :: "&>>" :: "&>" :: ops else ops
  ((ops.map (·.toList)).find? (·.isPrefixOf text)).getD []

/-- The name in braces that a redirection is to be known by, if one stands at the start of a text. -/
def redirectName? (text : Chars) : Option Chars :=
  match text with
  | '\x7b' :: rest =>
    let name := rest.takeWhile isNameChar
    match rest.drop name.length with
    | '\x7d' :: more => if isName name && redirectsNext more then some name else none
    | _ => none
  | _ => none

def feedsNext : Chars → Bool
  | '<' :: '(' :: _ | '>' :: '(' :: _ => true
  | _ => false

def putBack (t : Token) : Reading Unit := modify ({ · with held := some t })

def literalLines (last : Chars) (strips : Bool) : Nat → Chars → Chars × Nat
  | 0, _ | _, [] => ([], 0)
  | n + 1, text =>
    let line := text.takeWhile (· ≠ '\n')
    let behind := text.drop (line.length + 1)
    let size := min (line.length + 1) text.length
    if isLast last strips text then ([], size)
    else
      let kept := (if strips then line.dropWhile (· = '\t') else line) ++
        (if line.length < text.length then ['\n'] else [])
      let (more, count) := literalLines last strips n behind
      (kept ++ more, size + count)

def Token.name : Token → String
  | .eof => "end of file"
  | .newline => "newline"
  | .semi => "\";\""
  | .semiSemi => "\";;\""
  | .semiAmp => "\";&\""
  | .semiSemiAmp => "\";;&\""
  | .amp => "\"&\""
  | .andIf => "\"&&\""
  | .pipe => "\"|\""
  | .pipeAmp => "\"|&\""
  | .orIf => "\"||\""
  | .opening => "\"(\""
  | .closing => "\")\""
  | .redirect .. | .redirectNamed .. => "redirection"
  | .word parts =>
    match literal? parts with
    | some text =>
      if reserved.contains (String.ofList text) then "\"" ++ String.ofList text ++ "\"" else "word"
    | none => "word"

def Token.text : Token → String
  | .eof => ""
  | .newline => "newline"
  | .redirect _ op | .redirectNamed _ op => String.ofList op
  | .word parts =>
    String.ofList (parts.filterMap fun
      | .plain c | .quoted c => some c
      | _ => none)
  | t => String.ofList (t.name.toList.filter (· ≠ '"'))

def unexpectedFor (wanted : Option String) (t : Token) : Reading α := do
  if ← Reading.isExtended then
    match t with
    | .eof => flaw "syntax error: unexpected end of file"
    | t => flaw ("syntax error near unexpected token \x60" ++ t.text ++ "'")
  else
    let expecting := match wanted with
      | some name => " (expecting " ++ name ++ ")"
      | none => ""
    flaw (t.name ++ " unexpected" ++ expecting)

def unexpected : Token → Reading α := unexpectedFor none

def mustClose : Token → Reading Unit
  | .closing => return
  | t => unexpectedFor (some "\")\"") t

def Token.keyword? : Token → Option String
  | .word parts =>
    (literal? parts).bind fun text =>
      let text := String.ofList text
      if reserved.contains text then some text else none
  | _ => none

def Token.endsList : Token → Bool
  | .eof | .closing | .semiSemi | .semiAmp | .semiSemiAmp => true
  | t =>
    match t.keyword? with
    | some k => ["do", "done", "elif", "else", "esac", "fi", "then", "\x7d"].contains k
    | none => false

def assignedValue? (w : Word) : Option (Bool × Word) :=
  match w with
  | .plain '=' :: value => some (false, value)
  | .plain '+' :: .plain '=' :: value => if dialect = .extended then some (true, value) else none
  | _ => none

def assignment? (w : Word) : Option Assignment :=
  let name := w.takeWhile fun
    | .plain c => isNameChar c
    | _ => false
  match literal? name with
  | none => none
  | some text =>
    if !isName text then none
    else
      match w.drop name.length with
      | .plain '[' :: rest =>
        let index := rest.takeWhile fun
          | .plain ']' => false
          | _ => true
        if dialect = .extended then
          (assignedValue? dialect (rest.drop (index.length + 1))).map fun (appends, value) =>
            .mk text (some index) appends value
        else none
      | rest => (assignedValue? dialect rest).map fun (appends, value) => .mk text none appends value

def withErrors : Command → Command
  | .simple line assignments words redirections =>
    .simple line assignments words (redirections ++ [.copy 2 [.plain '1']])
  | c => .redirected 0 c [.copy 2 [.plain '1']]

def unaryTests : List String :=
  ["-a", "-b", "-c", "-d", "-e", "-f", "-g", "-h", "-k", "-p", "-r", "-s", "-t", "-u", "-w", "-x", "-G",
    "-L", "-N", "-O", "-S", "-o", "-v", "-R", "-z", "-n"]

def binaryTests : List String :=
  ["=", "==", "!=", "=~", "-eq", "-ne", "-lt", "-le", "-gt", "-ge", "-nt", "-ot", "-ef"]

def Token.literal? : Token → Option String
  | .word w => (Shell.literal? w).map String.ofList
  | _ => none

def Token.extendedKeyword? (t : Token) : Reading (Option String) := do
  if ← Reading.isExtended then return t.literal?.filter fun w => ["[[", "function", "time"].contains w
  return none

namespace Rules

variable (r : Rules)

def substitution : Reading Command := do
  let s ← get
  set { s with held := none, heralded := [] }
  let body ← r.list .arm none
  mustClose ((← get).held.getD .eof)
  modify fun t => { t with held := none, heralded := s.heralded }
  return body.getD default

def wholeText : Reading Command := do
  let body ← r.list .arm none
  match (← get).held with
  | some .eof => return body.getD default
  | t => unexpected (t.getD .eof)

def wordParts (place : Place) : Reading Word := do
  parts r.substitution r.wholeText ((← get).rest.length + 2) place []

def scan : Reading Token := do
  passBlanks false
  let rest := (← get).rest
  let dialect := (← get).dialect
  let extended := dialect = .extended
  /- An operator of the extended dialect, or the one it starts with. -/
  let signOr (count : Nat) (t : Token) (common : Nat) (u : Token) : Reading Token :=
    if extended then skipTo count t else skipTo common u
  match rest with
  | [] => return .eof
  | '\n' :: _ => skipTo 1 .newline
  | ';' :: ';' :: '&' :: _ => signOr 3 .semiSemiAmp 2 .semiSemi
  | ';' :: ';' :: _ => skipTo 2 .semiSemi
  | ';' :: '&' :: _ => signOr 2 .semiAmp 1 .semi
  | ';' :: _ => skipTo 1 .semi
  | '&' :: '&' :: _ => skipTo 2 .andIf
  | '&' :: '>' :: '>' :: _ => signOr 3 (.redirect none "&>>") 1 .amp
  | '&' :: '>' :: _ => signOr 2 (.redirect none "&>") 1 .amp
  | '&' :: _ => skipTo 1 .amp
  | '|' :: '|' :: _ => skipTo 2 .orIf
  | '|' :: '&' :: _ => signOr 2 .pipeAmp 1 .pipe
  | '|' :: _ => skipTo 1 .pipe
  | '(' :: _ => skipTo 1 .opening
  | ')' :: _ => skipTo 1 .closing
  | d :: more =>
    let digits := if extended then rest.takeWhile Char.isDigit else if d.isDigit then [d] else []
    let behind := rest.drop digits.length
    if !digits.isEmpty && redirectsNext behind && !(extended && feedsNext behind) then
      let op := redirectOp dialect behind
      skipTo (digits.length + op.length) (.redirect (Chars.toNat? digits) op)
    else
      match if extended then redirectName? rest else none with
      | some name =>
        let op := redirectOp dialect (more.drop (name.length + 1))
        skipTo (name.length + 2 + op.length) (.redirectNamed name op)
      | none =>
        match if extended && feedsNext rest then [] else redirectOp dialect rest with
        | [] => return .word (← r.wordParts .bare)
        | op => skipTo op.length (.redirect none op)

def next : Reading Token := do
  let some t := (← get).held | r.scan
  modify ({ · with held := none })
  return t

def documents : Reading Unit := do
  let heralded := (← get).heralded
  modify ({ · with heralded := [] })
  for h in heralded do
    let rest := (← get).rest
    let body ←
      if h.literal then do
        let (text, count) := literalLines h.last h.strips (rest.length + 1) rest
        skip count
        pure (text.map Part.quoted)
      else if isLast h.last h.strips rest then do
        skip (h.last.length + 1 + (if h.strips then (rest.takeWhile (· = '\t')).length else 0))
        pure []
      else do
        if h.strips then skip (rest.takeWhile (· = '\t')).length
        r.wordParts (.document h.last h.strips)
    modify fun s => { s with documents := (h.number, body) :: s.documents }

def nextBehind : Nat → Reading Token
  | 0 => r.next
  | n + 1 => do
    match ← r.next with
    | .newline => r.documents; nextBehind n
    | t => return t

/-- The next token on this line or a later one. -/
def nextInText : Reading Token := do r.nextBehind ((← get).rest.length + 1)

def unalias (t : Token) : Nat → Reading Token
  | 0 => return t
  | n + 1 => do
    match t with
    | .word parts =>
      let some name := literal? parts | return t
      let s ← get
      let busy := s.busy.filter fun (_, left) => left ≤ s.rest.length
      if busy.any (·.1 = name) then return t
      let some text := s.aliases.lookup name | return t
      set { s with rest := text ++ s.rest, busy := (name, s.rest.length) :: busy }
      unalias (← r.next) n
    | _ => return t

def first (inText : Bool) : Reading Token := do
  let t ← if inText then r.nextInText else r.next
  if t.keyword?.isSome then return t else r.unalias t 100

def expect (keyword : String) : Reading Unit := do
  let t ← r.nextInText
  if t.keyword? ≠ some keyword then unexpectedFor (some ("\"" ++ keyword ++ "\"")) t

def nextWord : Reading Word := do
  match ← r.next with
  | .word w => return w
  | t => unexpected t

def redirection (fd : Option Nat) (op : Chars) : Reading Redirection := do
  let isInput := op.head? = some '<'
  let fd := fd.getD (if isInput then 0 else 1)
  let parts ← r.nextWord
  match String.ofList op with
  | "<" => return .file fd .input parts
  | ">" => return .file fd .output parts
  | ">|" => return .file fd .force parts
  | ">>" => return .file fd .append parts
  | "<>" => return .file fd .both parts
  | "<<" => herald fd parts false
  | "<<-" => herald fd parts true
  | "<<<" => return .text fd parts
  | "&>" => return .both false parts
  | "&>>" => return .both true parts
  | _ => return .copy fd parts
where
  /-- A document to be read at the next line end. -/
  herald (fd : Nat) (parts : Word) (strips : Bool) : Reading Redirection := do
    let last := parts.filterMap fun
      | .plain c | .quoted c => some c
      | _ => none
    let literal := parts.any fun
      | .quoted _ | .mark => true
      | _ => false
    let s ← get
    let new : Heralded := ⟨s.nextDocument, last, strips, literal⟩
    set { s with heralded := s.heralded ++ [new], nextDocument := s.nextDocument + 1 }
    return .document fd s.nextDocument

def redirection? : Token → Option (Reading Redirection)
  | .redirect fd op => some (r.redirection fd op)
  | .redirectNamed name op => some (return .chosen name (← r.redirection (some 10) op))
  | _ => none

def listRule (extent : Extent) (before : Option Command) :
    Reading (Option Command) := do
  let t ← r.first (extent ≠ .line)
  match t with
  | .newline => r.documents; return before
  | .eof => r.documents; putBack .eof; return before
  | _ =>
    putBack t
    if (extent = .arm || (extent = .body && before.isSome)) && t.endsList then return before
    else
      let line := (← get).line
      let c ← r.andOr (← r.stages [])
      let join (c : Command) : Command :=
        match before with
        | some b => .seq b c
        | none => c
      match ← r.next with
      | .amp => r.list extent (some (join (.background line c)))
      | .semi => r.list extent (some (join c))
      | .newline => putBack .newline; r.list extent (some (join c))
      | .eof => r.documents; putBack .eof; return some (join c)
      | t =>
        if extent = .line then unexpected t
        else
          putBack t
          return some (join c)

def andOrRule (first : Command) : Reading Command := do
  match ← r.next with
  | .andIf =>
    putBack (← r.first true)
    r.andOr (.and first (← r.stages []))
  | .orIf =>
    putBack (← r.first true)
    r.andOr (.or first (← r.stages []))
  | t => putBack t; return first

def stagesRule (before : List Command) : Reading Command := do
  if before.isEmpty then
    let t ← r.first false
    if t.keyword? = some "!" then
      putBack (← r.first false)
      if ← Reading.isExtended then return .not (← r.stages [])
      else return .not (← r.stages [← r.command])
    else if (← t.extendedKeyword?) = some "time" then
      let t ← r.first false
      let common := t.literal? = some "-p"
      let t ← if common then r.first false else pure t
      putBack t
      match t with
      | .newline | .semi | .eof => return .timed common default
      | _ => return .timed common (← r.stages [])
    else
      putBack t
      r.stages [← r.command]
  else
    match ← r.next with
    | .pipe =>
      putBack (← r.first true)
      r.stages (before ++ [← r.command])
    | .pipeAmp =>
      putBack (← r.first true)
      let before := before.dropLast ++ (before.getLast?.map withErrors).toList
      r.stages (before ++ [← r.command])
    | t =>
      putBack t
      match before with
      | [c] => return c
      | stages => return .pipe stages

def bodyRule : Reading Command := do return (← r.list .body none).getD default

def bodyUpTo (last : String) : Reading Command := do
  let body ← r.bodyRule
  r.expect last
  return body

def alternativesRule : Reading (Option Command) := do
  let t ← r.next
  match t.keyword? with
  | some "elif" =>
    let test ← r.bodyUpTo "then"
    let yes ← r.bodyRule
    return some (.cond test yes (← r.alternatives))
  | some "else" => return some (← r.bodyRule)
  | _ => putBack t; return none

def wordsRule (before : List Word) : Reading (List Word) := do
  match ← r.next with
  | .word w => r.words (before ++ [w])
  | .newline => r.documents; return before
  | .semi => return before
  | t => unexpected t

def patternsRule (before : List Word) : Reading (List Word) := do
  match ← r.next with
  | .pipe => r.patterns (before ++ [← r.nextWord])
  | t => mustClose t; return before

def armsRule (before : List (List Word × Option Command × Follow)) :
    Reading (List (List Word × Option Command × Follow)) := do
  let t ← r.nextInText
  if t.keyword? = some "esac" then return before
  let t ← match t with
    | .opening => r.next
    | t => pure t
  match t with
  | .word w =>
    let patterns ← r.patterns [w]
    let body ← r.list .arm none
    let arms (follow : Follow) := before ++ [(patterns, body, follow)]
    match ← r.nextInText with
    | .semiSemi => r.arms (arms .stop)
    | .semiAmp => r.arms (arms .fall)
    | .semiSemiAmp => r.arms (arms .look)
    | t => if t.keyword? = some "esac" then return arms .stop else unexpectedFor (some "\";;\"") t
  | t => unexpected t

def redirectionsRule (before : List Redirection) :
    Reading (List Redirection) := do
  let t ← r.next
  match r.redirection? t with
  | some read => r.redirections (before ++ [← read])
  | none => putBack t; return before

def loopBody : Reading Command := do
  if ← Reading.isExtended then
    let t ← r.nextInText
    if t.keyword? = some "\x7b" then return ← r.bodyUpTo "\x7d"
    putBack t
  r.expect "do"
  r.bodyUpTo "done"

def loopWords : Reading (Option (List Word)) := do
  match ← r.nextInText with
  | .semi => return none
  | t =>
    if t.keyword? = some "in" then some <$> r.words []
    else
      putBack t
      return none

def loopName : Reading Chars := do
  let t ← r.next
  let name := match t with
    | .word w => (Shell.literal? w).getD []
    | _ => []
  if isName name then return name
  else if ← Reading.isExtended then flaw ("\x60" ++ t.text ++ "': not a valid identifier")
  else flaw "Bad for loop variable"

def bareText (text : Chars) : Chars :=
  let divides (c : Char) : Bool := Shell.isBlank c || c = '\n' || c = ';'
  ((text.dropWhile divides).reverse.dropWhile divides).reverse

def loopHead : Reading (Chars × Option (List Word) × Chars) := do
  let name ← r.loopName
  let (words, text) ← Reading.written (r.loopWords)
  let shown := if words.isSome then bareText text else "in \"$@\""
  return (name, words, name ++ ' ' :: shown)

variable (line : Nat)

def eachRule : Reading Command := do
  let (name, words, head) ← r.loopHead
  return .each line ("for " ++ head) name words (← r.loopBody)

def expressionRule : Reading Word := r.wordParts (.sum 0)

def cutSemicolons (w : Word) : List Word :=
  w.foldr (fun p acc =>
    match p, acc with
    | .quoted ';', acc => [] :: acc
    | p, first :: rest => (p :: first) :: rest
    | p, [] => [[p]]) [[]]

def countRule : Reading Command := do
  match cutSemicolons (← r.expressionRule) with
  | [start, test, step] =>
    match ← r.next with
    | .semi => pure ()
    | t => putBack t
    return .count line start test step (← r.loopBody)
  | _ => flaw "syntax error: arithmetic expression required"

def functionRule (name : Chars) : Reading Command := do
  putBack (← r.first true)
  return .define line name (← r.command)

def patternWord (isRegex : Bool) : Reading Token := do
  if isRegex then
    passBlanks false
    return .word (← r.wordParts (.regex 0))
  let groups := (← get).groups
  modify ({ · with groups := true })
  let t ← r.next
  modify ({ · with groups })
  return t

def conditionRule : Reading Condition := do
  let first ← r.conjunction
  match ← r.nextInText with
  | .orIf => return .or first (← r.condition)
  | t => putBack t; return first

def conjunctionRule : Reading Condition := do
  let first ← r.term
  match ← r.nextInText with
  | .andIf => return .and first (← r.conjunction)
  | t => putBack t; return first

def termRule : Reading Condition := do
  match ← r.nextInText with
  | .opening =>
    let inner ← r.condition
    mustClose (← r.nextInText)
    return inner
  | .word w =>
    let literal := (Token.word w).literal?
    if literal = some "!" then return .not (← r.term)
    else if literal = some "]]" then unexpected (.word w)
    else if literal.any unaryTests.contains then
      match ← r.next with
      | .word operand =>
        if (Token.word operand).literal? = some "]]" then
          putBack (.word operand)
          return .text w
        return .unary (Shell.literal? w |>.getD []) operand
      | t => unexpected t
    else
      match ← r.next with
      | .redirect none op =>
        if op = ['<'] || op = ['>'] then return .binary w op (← r.nextWord)
        else unexpected (.redirect none op)
      | t =>
        if t.literal?.any binaryTests.contains then
          let op := t.literal?.getD ""
          let takesPattern := ["=", "==", "!=", "=~"].contains op
          let t ← if takesPattern then r.patternWord (op = "=~") else r.next
          match t with
          | .word right => return .binary w op.toList right
          | t => unexpected t
        else
          putBack t
          return .text w
  | t => unexpected t

def testRule : Reading Command := do
  let condition ← r.condition
  let t ← r.nextInText
  if t.literal? = some "]]" then return .test line condition else unexpected t

def commandRule : Reading Command := do
  let t ← r.next
  let line := (← get).line
  let finish (c : Command) : Reading Command := do
    match ← r.redirections [] with
    | [] => return c
    | redirections =>
      match c with
      | .subshell line body _ => return .subshell line body redirections
      | c => return .redirected line c redirections
  /- Whether a bracket follows at once, as it does where an expression starts. -/
  let doubled : Reading Bool := do return (← Reading.isExtended) && (← get).rest.head? = some '('
  let subshell : Reading Command := do
    let body ← r.bodyRule
    mustClose (← r.nextInText)
    return .subshell line body []
  match t with
  | .opening =>
    if ← doubled then
      let expression : Reading Command := do
        skip 1
        return .compute line (← r.expressionRule)
      finish (← expression.orElse subshell)
    else finish (← subshell)
  | .redirect .. | .redirectNamed .. => putBack t; r.simple line [] [] []
  | .word _ =>
    match t.keyword? with
    | none =>
      match ← t.extendedKeyword? with
      | some "[[" => finish (← r.testRule line)
      | some "function" =>
        let w ← r.nextWord
        match ← r.next with
        | .opening => mustClose (← r.next)
        | t => putBack t
        r.functionRule line ((Token.word w).text.toList)
      | _ => putBack t; r.simple line [] [] []
    | some "if" =>
      let test ← r.bodyUpTo "then"
      let yes ← r.bodyRule
      let no ← r.alternatives
      r.expect "fi"
      finish (.cond test yes no)
    | some "while" => finish (.loop true (← r.bodyUpTo "do") (← r.bodyUpTo "done"))
    | some "until" => finish (.loop false (← r.bodyUpTo "do") (← r.bodyUpTo "done"))
    | some "for" =>
      passBlanks false
      let opens := "((".toList.isPrefixOf (← get).rest
      if opens && (← Reading.isExtended) then
        skip 2
        finish (← r.countRule line)
      else finish (← r.eachRule line)
    | some "case" =>
      let (t, text) ← Reading.written r.next
      match t with
      | .word subject =>
        r.expect "in"
        let head := "case " ++ bareText text ++ " in"
        finish (.select line head subject (← r.arms []))
      | t => unexpectedFor (some "word") t
    | some "\x7b" => finish (← r.bodyUpTo "\x7d")
    | some _ => unexpected t
  | t => unexpected t

/-- The words, assignments and redirections of a simple command, behind the first ones. -/
def simpleRule (assignments : List Assignment)
    (words : List Word) (redirections : List Redirection) : Reading Command := do
  let t ← r.next
  let dialect := (← get).dialect
  match r.redirection? t with
  | some read => r.simple line assignments words (redirections ++ [← read])
  | none =>
    match t with
    | .word w =>
      match if words.isEmpty then assignment? dialect w else none with
      | some a => r.simple line (assignments ++ [a]) words redirections
      | none => r.simple line assignments (words ++ [w]) redirections
    | .opening =>
      match words, assignments, redirections with
      | [w], [], [] =>
        mustClose (← r.next)
        let name := (Shell.literal? w).getD []
        let isAllowed := if ← Reading.isExtended then !name.isEmpty
          else isName name && !specialNames.contains (String.ofList name)
        if isAllowed then r.functionRule line name else flaw "Bad function name"
      | _, _, _ => unexpected t
    | t =>
      putBack t
      return .simple line assignments words redirections

end Rules

def tooDeep : Reading α := flaw "too deeply nested"

def Rules.none : Rules where
  list _ _ := tooDeep
  andOr _ := tooDeep
  stages _ := tooDeep
  command := tooDeep
  alternatives := tooDeep
  words _ := tooDeep
  arms _ := tooDeep
  patterns _ := tooDeep
  redirections _ := tooDeep
  simple _ _ _ _ := tooDeep
  condition := tooDeep
  conjunction := tooDeep
  term := tooDeep

def rules : Nat → Rules
  | 0 => .none
  | n + 1 =>
    { list := fun extent before => (rules n).listRule extent before
      andOr := fun first => (rules n).andOrRule first
      stages := fun before => (rules n).stagesRule before
      command := fun s => (rules n).commandRule s
      alternatives := fun s => (rules n).alternativesRule s
      words := fun before => (rules n).wordsRule before
      arms := fun before => (rules n).armsRule before
      patterns := fun before => (rules n).patternsRule before
      redirections := fun before => (rules n).redirectionsRule before
      simple := fun line assignments words redirections =>
        (rules n).simpleRule line assignments words redirections
      condition := fun s => (rules n).conditionRule s
      conjunction := fun s => (rules n).conjunctionRule s
      term := fun s => (rules n).termRule s }

def Source.ofText (text : Chars) : Source := ⟨text, 1, none, [], [], 0, [], [], .common, false⟩

def textWord (text : Chars) : Word :=
  let r := rules (20 * text.length + 200)
  let read := r.wordParts (.document ['\n'] false)
  match read.run { Source.ofText text with dialect } with
  | .ok (w, _) => w
  | .error _ => text.map .quoted

/-- What the next line of a script asks for, with all that belongs to it on later lines. -/
inductive Line where
  | done
  | blank
  /-- With `last` nothing comes behind it. -/
  | command (body : Command) (last : Bool)

def isEof : Option Token → Bool
  | some .eof => true
  | _ => false

def nextLine : Reading Line := do
  modify ({ · with held := none })
  let body ← (rules (20 * (← get).rest.length + 200)).list .line none
  match body, isEof (← get).held with
  | some c, last => return .command c last
  | none, true => return .done
  | none, false => return .blank

end Prune.Shell
