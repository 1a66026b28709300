import Prune.Regex.Parse
import Prune.Text.Decimal

/-!
The words of the pattern-action language. Whether a slash divides or starts an expression for texts
depends on the word before it.
-/

namespace Prune.Utility.Awk

inductive Token where
  | number (x : Float)
  | text (s : Chars)
  | regex (s : Chars)
  | name (s : Chars)
  | call (s : Chars)
  | builtin (s : String)
  | keyword (s : String)
  | op (s : String)
  | newline

structure Lexeme where
  token : Token
  line : Nat
  written : Chars

def keywords : List String :=
  ["BEGIN", "END", "function", "func", "if", "else", "while", "do", "for", "in", "next", "nextfile",
    "exit", "return", "break", "continue", "delete", "print", "printf", "getline"]

def builtins : List String :=
  ["length", "substr", "index", "split", "sub", "gsub", "match", "sprintf", "sin", "cos", "atan2", "exp",
    "log", "sqrt", "int", "rand", "srand", "tolower", "toupper", "system", "close", "fflush"]

def operators : List String :=
  ["&&", "||", "++", "--", "+=", "-=", "*=", "/=", "%=", "^=", "==", "<=", ">=", "!=", "!~", ">>",
    "+", "-", "*", "/", "%", "^", "!", "<", ">", "|", "?", ":", "~", "$", "=", ",", ";",
    "(", ")", "[", "]", "\x7b", "\x7d"]

def endsOperand : Token → Bool
  | .number _ | .text _ | .regex _ | .name _ | .builtin _ => true
  | .op s => s = ")" || s = "]" || s = "$" || s = "++" || s = "--"
  | _ => false

/-- A text with what stands behind its backslashes replaced. What means nothing stays as it is. -/
def unescape : Nat → Chars → Chars
  | 0, _ | _, [] => []
  | n + 1, '\\' :: c :: rest =>
    match if c = '\\' || c = '"' then some c else Chars.control? c with
    | some control => control :: unescape n rest
    | none =>
      let (base, text) := if c = 'x' then (16, rest) else (8, c :: rest)
      let digits := Chars.digitsIn base (if c = 'x' then 2 else 3) text
      if digits.isEmpty then '\\' :: c :: unescape n rest
      else Char.ofNat (Chars.valueIn base digits % 256) :: unescape n (text.drop digits.length)
  | n + 1, c :: rest => c :: unescape n rest

def quoted : Nat → Chars → Option (Chars × Chars)
  | 0, _ | _, [] => none
  | _, '"' :: rest => some ([], rest)
  | _, '\n' :: _ => none
  | n + 1, '\\' :: '\n' :: rest => quoted n rest
  | n + 1, '\\' :: c :: rest => (quoted n rest).map fun (s, r) => ('\\' :: c :: s, r)
  | n + 1, c :: rest => (quoted n rest).map fun (s, r) => (c :: s, r)

/-- An expression for texts up to its closing slash, and what follows. -/
def slashed : Nat → Chars → Option (Chars × Chars)
  | 0, _ | _, [] => none
  | _, '/' :: rest => some ([], rest)
  | _, '\n' :: _ => none
  | n + 1, '\\' :: '/' :: rest => (slashed n rest).map fun (s, r) => ('/' :: s, r)
  | n + 1, '\\' :: c :: rest => (slashed n rest).map fun (s, r) => ('\\' :: c :: s, r)
  | n + 1, '[' :: rest =>
    let size := setSize rest
    (slashed n (rest.drop size)).map fun (s, r) => ('[' :: rest.take size ++ s, r)
  | n + 1, c :: rest => (slashed n rest).map fun (s, r) => (c :: s, r)
where
  setSize (text : Chars) : Nat :=
    let start := match text with
      | '^' :: ']' :: _ => 2
      | ']' :: _ => 1
      | _ => 0
    let inner := (text.drop start).takeWhile fun c => c ≠ ']' && c ≠ '\n'
    match (text.drop start).drop inner.length with
    | ']' :: _ => start + inner.length
    | _ => 0

def tokens : Nat → (line : Nat) → (last : Token) → Chars → Except Chars (List Lexeme)
  | 0, _, _, _ | _, _, _, [] => .ok []
  | n + 1, line, last, text@(c :: rest) =>
    let put (t : Token) (written rest : Chars) : Except Chars (List Lexeme) := do
      return ⟨t, line, written⟩ :: (← tokens n line t rest)
    let runaway (what : String) : Except Chars (List Lexeme) :=
      .error ("line " ++ Chars.ofNat line ++ ": runaway " ++ what.toList ++
        (rest.takeWhile (· ≠ '\n')).take 10 ++ " ...")
    if c = ' ' || c = '\t' || c = '\x0d' then tokens n line last rest
    else if c = '\n' then do
      return ⟨.newline, line, "unexpected newline"⟩ :: (← tokens n (line + 1) .newline rest)
    else if c = '#' then tokens n line last (rest.dropWhile (· ≠ '\n'))
    else if c = '\\' && rest.head? = some '\n' then tokens n (line + 1) last rest.tail
    else if c = '"' then
      match quoted (rest.length + 1) rest with
      | none => runaway "string constant \""
      | some (s, behind) =>
        put (.text (unescape (s.length + 1) s)) (text.take (text.length - behind.length)) behind
    else if c.isDigit || (c = '.' && rest.head?.any Char.isDigit) then
      match Decimal.read? text with
      | none => .error []
      | some (x, behind) => put (.number x) (text.take (text.length - behind.length)) behind
    else if c.isAlpha || c = '_' then
      let word := text.takeWhile fun c => c.isAlphanum || c = '_'
      let behind := text.drop word.length
      let s := String.ofList word
      let t : Token :=
        if keywords.contains s then .keyword s
        else if builtins.contains s then .builtin s
        else if behind.head? = some '(' then .call word
        else .name word
      put t word behind
    else if c = '/' && !endsOperand last then
      match slashed (rest.length + 1) rest with
      | none => runaway "regular expression /"
      | some (s, behind) => put (.regex s) ('/' :: s ++ ['/']) behind
    else
      match operators.find? fun o => o.toList.isPrefixOf text with
      | some o => put (.op o) o.toList (text.drop o.length)
      | none => .error (Chars.ofNat line ++ ": unexpected character '" ++ [c, '\''])

/-!
The grammar of the pattern-action language.
-/

inductive Arith where
  | add | sub | mul | div | mod | pow

inductive Relation where
  | lt | le | eq | ne | gt | ge

inductive LineSource where
  | input | file | command
deriving DecidableEq

inductive Expr where
  | number (x : Float)
  | text (s : Chars)
  | regex (r : Regex)
  | var (name : Chars)
  | element (array : Chars) (subscripts : List Expr)
  | field (number : Expr)
  | assign (target value : Expr)
  | update (op : Arith) (target value : Expr)
  /-- Adds one or takes one away; the value is the one before if `late` is set. -/
  | step (target : Expr) (up late : Bool)
  | choose (test yes no : Expr)
  | or (a b : Expr)
  | and (a b : Expr)
  | not (a : Expr)
  | minus (a : Expr)
  | plus (a : Expr)
  | arith (op : Arith) (a b : Expr)
  | compare (op : Relation) (a b : Expr)
  | fits (text pattern : Expr) (negated : Bool)
  | concat (a b : Expr)
  | member (subscripts : List Expr) (array : Chars)
  | call (name : Chars) (args : List Expr)
  | builtin (name : String) (args : List Expr)
  | getline (kind : LineSource) (target source : Option Expr)
  /-- An expression between brackets; several, if they are the subscripts or what is printed. -/
  | group (parts : List Expr)

inductive Target where
  | output
  | file (name : Expr) (append : Bool)
  | command (text : Expr)

inductive Stmt where
  | expr (e : Expr)
  | print (args : List Expr) (target : Target)
  | printf (args : List Expr) (target : Target)
  | block (body : List Stmt)
  | cond (test : Expr) (yes : Stmt) (no : Option Stmt)
  | loop (test : Expr) (body : Stmt)
  | doLoop (body : Stmt) (test : Expr)
  | forLoop (start : Option Stmt) (test : Option Expr) (step : Option Stmt) (body : Stmt)
  | forIn (var array : Chars) (body : Stmt)
  | next
  | nextFile
  | exit (status : Option Expr)
  | ret (value : Option Expr)
  | leave
  | again
  | delete (array : Chars) (subscripts : Option (List Expr))

inductive Pattern where
  | start
  | finish
  | always
  | when (test : Expr)
  | between (first last : Expr)

structure Rule where
  pattern : Pattern
  action : Option (List Stmt)

structure Function where
  name : Chars
  params : List Chars
  body : List Stmt

structure Script where
  rules : List Rule
  functions : List Function

/-- Reading tells whether `>` compares, as it does except where something is printed. -/
abbrev Read := ReaderT Bool (StateT (List Lexeme) (Except Chars))

namespace Read

def peek : Read (Option Token) := do return (← get).head?.map (·.token)

def advance : Read Unit := modify List.tail

def next : Read (Option Token) := do
  let t ← peek
  advance
  return t

def fail : Read α := do
  let some l := (← get).head? | throw "line 2: missing \x7d near end of file".toList
  throw ("line " ++ Chars.ofNat l.line ++ ": syntax error at or near " ++ l.written)

variable (s : String)

def isOp : Read Bool := do
  match ← peek with
  | some (.op o) => return o = s
  | _ => return false

def takes : Read Bool := do
  let isNext ← isOp s
  if isNext then advance
  return isNext

def takesKeyword : Read Bool := do
  match ← peek with
  | some (.keyword k) =>
    if k = s then advance
    return k = s
  | _ => return false

/-- What the operator that comes next stands for, if it is one of those given. -/
def taken? (ops : List (String × α)) : Read (Option α) :=
  ops.findSomeM? fun (o, a) => do return if ← takes o then some a else none

def expect : Read Unit := do if !(← takes s) then fail

def takeName : Read Chars := do
  let some (.name s) ← peek | fail
  advance
  return s

def skipLines : Read Unit := modify fun ls => ls.dropWhile fun l => l.token matches .newline

def skipEnds : Read Unit := modify fun ls => ls.dropWhile fun l => l.token matches .newline | .op ";"

/-- Something and the bracket behind it. -/
def upTo (stop : String) (t : Read α) : Read α := do
  let a ← t
  expect stop
  return a

end Read

open Read

def dialect : Regex.Dialect := ⟨true, true, true, true, false, true, false⟩

def regexOf (text : Chars) : Read Regex := do
  match Regex.parse dialect text with
  | .ok r => return r
  | .error e => throw ("regular expression compile failed (" ++ e.toList ++ ")\n" ++ text)

/-- Whether a word can go on a row of texts. Signs cannot: they have been taken by the sum. -/
def goesOn : Token → Bool
  | .number _ | .text _ | .regex _ | .name _ | .call _ | .builtin _ => true
  | .op s => ["(", "$", "!", "++", "--"].contains s
  | _ => false

def relations : List (String × Relation) :=
  [("<", .lt), ("<=", .le), ("==", .eq), ("!=", .ne), (">", .gt), (">=", .ge)]

def updates : List (String × (Expr → Expr → Expr)) :=
  [("=", .assign), ("+=", .update .add), ("-=", .update .sub), ("*=", .update .mul), ("/=", .update .div),
    ("%=", .update .mod), ("^=", .update .pow)]

def signs : List (String × (Expr → Expr)) := [("-", .minus), ("+", .plus)]

def allSigns : List (String × (Expr → Expr)) := ("!", .not) :: signs

def steps : List (String × Bool) := [("++", true), ("--", false)]

def isTarget : Expr → Bool
  | .var _ | .element .. | .field _ => true
  | _ => false

/-- Goes on with an expression for as long as there is more of it. -/
def extended (more : Expr → Read (Option Expr)) : Nat → Expr → Read Expr
  | 0, e => return e
  | n + 1, e => do
    let some e ← more e | return e
    extended more n e

section

variable (n : Nat) (signed : Read Expr)

/-- Operators of one strength are taken from the left. Some may have line breaks behind them. -/
def leftwards (breaks : Bool) (ops : List (String × (Expr → Expr → Expr))) (next : Read Expr) : Read Expr := do
  let more (e : Expr) : Read (Option Expr) := do
    let some make ← taken? ops | return none
    if breaks then skipLines
    return some (make e (← next))
  extended more n (← next)

def sum : Read Expr :=
  leftwards n false [("+", .arith .add), ("-", .arith .sub)]
    (leftwards n false [("*", .arith .mul), ("/", .arith .div), ("%", .arith .mod)] signed)

def joined : Read Expr := do
  let more (e : Expr) : Read (Option Expr) := do
    if (← peek).any goesOn then return some (.concat e (← sum n signed)) else return none
  extended more n (← sum n signed)

def comparison : Read Expr := do
  let first ← joined n signed
  let known := if ← read then relations else relations.filter (·.1 ≠ ">")
  let some r ← taken? known | return first
  return .compare r first (← joined n signed)

def member : Read Expr := do
  let more (e : Expr) : Read (Option Expr) := do
    if !(← takesKeyword "in") then return none
    let subscripts := match e with
      | .group parts => parts
      | e => [e]
    return some (.member subscripts (← takeName))
  let fitting := leftwards n false [("~", (.fits · · false)), ("!~", (.fits · · true))] (comparison n signed)
  extended more n (← fitting)

def anyOf : Read Expr := leftwards n true [("||", .or)] (leftwards n true [("&&", .and)] (member n signed))

end

mutual

def expr : Nat → Read Expr
  | 0 => fail
  | n + 1 => do
    let e ← anyOf n (signed allSigns n)
    if ← takes "?" then
      skipLines
      let yes ← expr n
      skipLines
      expect ":"
      skipLines
      return .choose e yes (← expr n)
    if !isTarget e then return e
    let some update ← taken? updates | return e
    skipLines
    return update e (← expr n)

def signed (known : List (String × (Expr → Expr))) : Nat → Read Expr
  | 0 => fail
  | n + 1 => do
    if let some make ← taken? known then return make (← signed known n)
    let more (e : Expr) : Read (Option Expr) := do
      let ⟨.op "|", _, _⟩ :: ⟨.keyword "getline", _, _⟩ :: rest ← get | return none
      set rest
      return some (.getline .command (← lineTarget n) (some e))
    let base ← extended more n (← stepped n)
    if ← takes "^" then return .arith .pow base (← signed signs n) else return base

def lineTarget : Nat → Read (Option Expr)
  | 0 => return none
  | n + 1 => do
    match ← peek with
    | some (.name _) | some (.op "$") => return some (← operand n)
    | _ => return none

def stepped : Nat → Read Expr
  | 0 => fail
  | n + 1 => do
    let early ← taken? steps
    let e ← operand n
    match early, isTarget e with
    | some up, true => return .step e up false
    | some _, false => fail
    | none, true => return ((← taken? steps).map (.step e · true)).getD e
    | none, false => return e

def operand : Nat → Read Expr
  | 0 => fail
  | n + 1 => do
    let before ← get
    match ← next with
    | some (.number x) => return .number x
    | some (.text s) => return .text s
    | some (.regex s) => return .regex (← regexOf s)
    | some (.name s) => if ← takes "[" then return .element s (← upTo "]" (exprs n)) else return .var s
    | some (.call s) =>
      expect "("
      return .call s (← arguments n)
    | some (.builtin s) =>
      if ← takes "(" then return .builtin s (← arguments n)
      else if s = "length" then return .builtin s []
      else fail
    | some (.op "$") =>
      if ← takes "-" then return .field (.minus (← operand n))
      let early ← taken? steps
      let e ← operand n
      return .field ((early.map (.step e · false)).getD e)
    | some (.op "(") =>
      skipLines
      return .group (← upTo ")" (exprs n))
    | some (.op "-") => return .minus (← operand n)
    | some (.op "!") => return .not (← operand n)
    | some (.keyword "getline") =>
      let target ← lineTarget n
      if ← takes "<" then return .getline .file target (some (← operand n))
      else return .getline .input target none
    | _ =>
      set before
      fail

def exprs : Nat → Read (List Expr)
  | 0 => fail
  | n + 1 => do
    let first ← withReader (fun _ => true) (expr n)
    skipLines
    if ← takes "," then
      skipLines
      return first :: (← exprs n)
    else return [first]

def arguments : Nat → Read (List Expr)
  | 0 => fail
  | n + 1 => do
    skipLines
    if ← takes ")" then return [] else upTo ")" (exprs n)

end

def printed : Nat → Read (List Expr)
  | 0 => fail
  | n + 1 => do
    let first ← expr n
    if ← takes "," then
      skipLines
      return first :: (← printed n)
    return [first]

variable (n : Nat)

def printArgs : Read (List Expr) := do
  match ← peek with
  | none | some .newline => return []
  | some t =>
    if let .op o := t then
      if [";", "\x7d", ">", ">>", "|"].contains o then return []
    match ← printed n with
    | [.group parts] => return parts
    | args => return args

def target : Read Target := do
  let makes : List (String × (Expr → Target)) := [(">", (.file · false)), (">>", (.file · true)), ("|", .command)]
  let some make ← taken? makes | return .output
  return make (← joined n (signed allSigns n))

def endOfStatement : Read Unit := do
  match ← peek with
  | none | some (.op "\x7d") => return
  | some .newline | some (.op ";") =>
    advance
    skipLines
  | some _ => fail

def simpleStatement : Read Stmt := do
  let before ← get
  match ← next with
  | some (.keyword "print") => withReader (fun _ => false) do return .print (← printArgs n) (← target n)
  | some (.keyword "printf") =>
    withReader (fun _ => false) do
      let args ← printArgs n
      if args.isEmpty then fail else return .printf args (← target n)
  | some (.keyword "next") => return .next
  | some (.keyword "nextfile") => return .nextFile
  | some (.keyword "break") => return .leave
  | some (.keyword "continue") => return .again
  | some (.keyword "exit") => return .exit (← optionalExpr)
  | some (.keyword "return") => return .ret (← optionalExpr)
  | some (.keyword "delete") =>
    let array ← takeName
    if ← takes "[" then return .delete array (some (← upTo "]" (exprs n))) else return .delete array none
  | _ =>
    set before
    return .expr (← expr n)
where
  optionalExpr : Read (Option Expr) := do
    match ← peek with
    | none | some .newline | some (.op ";") | some (.op "\x7d") => return none
    | some _ => return some (← expr n)

mutual

def statement : Nat → Read Stmt
  | 0 => fail
  | n + 1 => do
    let before ← get
    let t ← next
    let test : Read Expr := do
      expect "("
      upTo ")" (expr n)
    let body : Read Stmt := do
      let isEmpty ← takes ";"
      skipLines
      if isEmpty then return .block [] else statement n
    let optional {α} (stop : String) (t : Read α) : Read (Option α) := do
      let a ← if ← isOp stop then pure none else some <$> t
      expect stop
      return a
    match t with
    | some (.op "\x7b") =>
      let all ← upTo "\x7d" (statements n)
      skipEnds
      return .block all
    | some (.op ";") =>
      skipLines
      return .block []
    | some (.keyword "if") =>
      let test ← test
      skipLines
      let yes ← statement n
      skipEnds
      if ← takesKeyword "else" then
        skipLines
        return .cond test yes (some (← statement n))
      else return .cond test yes none
    | some (.keyword "while") => return .loop (← test) (← body)
    | some (.keyword "do") =>
      skipLines
      let body ← statement n
      skipEnds
      if !(← takesKeyword "while") then fail
      let test ← test
      endOfStatement
      return .doLoop body test
    | some (.keyword "for") =>
      expect "("
      match ← get with
      | ⟨.name var, _, _⟩ :: ⟨.keyword "in", _, _⟩ :: ⟨.name array, _, _⟩ :: ⟨.op ")", _, _⟩ :: rest =>
        set rest
        skipLines
        return .forIn var array (← statement n)
      | _ =>
        let start ← optional ";" (simpleStatement n)
        skipLines
        let test ← optional ";" (expr n)
        skipLines
        return .forLoop start test (← optional ")" (simpleStatement n)) (← body)
    | _ =>
      set before
      let s ← simpleStatement n
      endOfStatement
      return s

def statements : Nat → Read (List Stmt)
  | 0 => fail
  | n + 1 => do
    skipEnds
    if ← isOp "\x7d" then return []
    if (← peek).isNone then fail
    let s ← statement n
    return s :: (← statements n)

end

def parameters : Nat → Read (List Chars)
  | 0 => fail
  | n + 1 => do
    let some (.name p) ← peek | return []
    advance
    if ← takes "," then
      skipLines
      return p :: (← parameters n)
    else return [p]

def body : Read (List Stmt) := do
  expect "\x7b"
  upTo "\x7d" (statements n)

def rule : Read Rule := do
  if ← isOp "\x7b" then return ⟨.always, some (← body n)⟩
  let first ← expr n
  let pattern ← if ← takes "," then do
      skipLines
      pure (Pattern.between first (← expr n))
    else pure (Pattern.when first)
  if ← isOp "\x7b" then return ⟨pattern, some (← body n)⟩
  match ← peek with
  | none | some .newline | some (.op ";") => return ⟨pattern, none⟩
  | some _ => fail

def function : Read Function := do
  let name ← match ← peek with
    | some (.name f) | some (.call f) => pure f
    | _ => fail
  advance
  expect "("
  let params ← upTo ")" (parameters n)
  skipLines
  return ⟨name, params, ← body n⟩

def items : Nat → Nat → Script → Read Script
  | 0, _, s => return s
  | fuel + 1, n, s => do
    skipLines
    let some t ← peek | return s
    let withRule (r : Rule) : Script := { s with rules := s.rules ++ [r] }
    let outer (p : Pattern) : Read Script := do
      advance
      skipLines
      return withRule ⟨p, some (← body n)⟩
    let s ← match t with
      | .keyword "BEGIN" => outer .start
      | .keyword "END" => outer .finish
      | .keyword "function" | .keyword "func" =>
        advance
        let f ← function n
        pure { s with functions := s.functions ++ [f] }
      | _ => withRule <$> rule n
    let _ ← takes ";"
    items fuel n s

def parse (text : Chars) : Except Chars Script := do
  let words ← tokens (text.length + 1) 1 .newline text
  let all : Read Script := do
    let s ← items (words.length + 1) (16 * words.length + 64) ⟨[], []⟩
    if (← peek).isSome then fail
    return s
  (all true).run' words

end Prune.Utility.Awk
