import Prune.Shell.Syntax

/-!
The arithmetic of a script: whole numbers of 64 bits that wrap around. A truth is one or zero. A name
stands for the number it is set to, and can be set to another. What an operator does not need is read
and not carried out.
-/

namespace Prune.Shell.Arithmetic

def wrap (n : Int) : Int := Int.bmod n (2 ^ 64)

def ofTruth (b : Bool) : Int := if b then 1 else 0

def onBits (f : BitVec 64 → BitVec 64 → BitVec 64) (a b : Int) : Int :=
  (f (BitVec.ofInt 64 a) (BitVec.ofInt 64 b)).toInt

/-- An operator between two operands. One of a higher rank binds more tightly. -/
structure Operator where
  spelling : String
  rank : Nat
  apply : Int → Int → Int

/-- Nothing can be divided by zero. -/
def Operator.divides (o : Operator) : Bool := o.spelling = "/" || o.spelling = "%"

def operators : List Operator :=
  [⟨"==", 6, fun a b => ofTruth (a == b)⟩,
    ⟨"!=", 6, fun a b => ofTruth (a != b)⟩,
    ⟨"<<", 8, onBits fun x y => x <<< (y.toNat % 64)⟩,
    ⟨">>", 8, onBits fun x y => x.sshiftRight (y.toNat % 64)⟩,
    ⟨"<=", 7, fun a b => ofTruth (a ≤ b)⟩,
    ⟨">=", 7, fun a b => ofTruth (b ≤ a)⟩,
    ⟨"<", 7, fun a b => ofTruth (a < b)⟩,
    ⟨">", 7, fun a b => ofTruth (b < a)⟩,
    ⟨"|", 3, onBits (· ||| ·)⟩,
    ⟨"^", 4, onBits (· ^^^ ·)⟩,
    ⟨"&", 5, onBits (· &&& ·)⟩,
    ⟨"+", 9, fun a b => wrap (a + b)⟩,
    ⟨"-", 9, fun a b => wrap (a - b)⟩,
    ⟨"*", 10, fun a b => wrap (a * b)⟩,
    ⟨"/", 10, fun a b => wrap (a.tdiv b)⟩,
    ⟨"%", 10, Int.tmod⟩]

def isSpace (c : Char) : Bool := c = ' ' || ('\t' ≤ c && c ≤ '\x0d')

def ofDigits (base : Nat) (digits : Chars) : Int := min (Chars.valueIn base digits) (2 ^ 63 - 1 : Nat)

/-- The number a text starts with, and what follows: decimal, octal behind a zero, hexadecimal behind
`0x`. -/
def leadingNumber (text : Chars) : Int × Chars :=
  let read (base : Nat) (text : Chars) : Int × Chars :=
    let digits := text.takeWhile (Chars.isDigitOf base)
    (ofDigits base digits, text.drop digits.length)
  match text with
  | '0' :: x :: c :: rest =>
    if (x = 'x' || x = 'X') && Chars.isDigitOf 16 c then read 16 (c :: rest) else read 8 text
  | '0' :: _ => read 8 text
  | _ => read 10 text

def numberOf? (text : Chars) : Option Int :=
  let text := text.dropWhile isSpace
  let (negative, digits) := Chars.signed text
  if text.isEmpty then some 0
  else
    let (n, rest) := leadingNumber digits
    if digits.head?.any Char.isDigit && rest.all isSpace then some (if negative then -n else n) else none

inductive Token where
  | number (n : Int)
  | name (text : Chars)
  | element (name place : Chars)
  | op (text : String)
  /-- Digits that do not fit their base, or a base there is not. -/
  | badNumber (flaw : String)

structure Placed where
  token : Token
  text : Chars

def spellings : List String :=
  ["<<=", ">>=", "&&", "||", "==", "!=", "<=", ">=", "<<", ">>", "+=", "-=", "*=", "/=", "%=", "&=", "^=",
    "|=", "=", "?", ":", "|", "^", "&", "<", ">", "+", "-", "*", "/", "%", "!", "~", "(", ")"]

def extendedSpellings : List String := ["++", "--", "**"] ++ spellings ++ [","]

def digitOf? (base : Nat) (c : Char) : Option Nat :=
  let d? :=
    if c.isDigit then some (c.toNat - '0'.toNat)
    else if c.isLower then some (c.toNat - 'a'.toNat + 10)
    else if c.isUpper then some (c.toNat - 'A'.toNat + (if base ≤ 36 then 10 else 36))
    else if c = '@' then some 62
    else if c = '_' then some 63
    else none
  d?.filter (· < base)

def extendedNumber (digits : Chars) : Token :=
  let read (base : Nat) (digits : Chars) : Token :=
    match digits.mapM (digitOf? base) with
    | some ds => .number (wrap (ds.foldl (fun n d => base * n + d) 0 : Nat))
    | none => .badNumber "value too great for base"
  match digits with
  | '0' :: x :: rest =>
    if x = 'x' || x = 'X' then read 16 rest
    else if digits.contains '#' then .badNumber "invalid number" else read 8 (x :: rest)
  | _ =>
    match digits.span (· ≠ '#') with
    | (base, _ :: rest) =>
      match Chars.toNat? base with
      | none => .badNumber "invalid number"
      | some n =>
        if n < 2 || 64 < n then .badNumber "invalid arithmetic base"
        else if rest.isEmpty then .badNumber "invalid integer constant"
        else read n rest
    | (digits, []) => read 10 digits

def isNumberChar (c : Char) : Bool := isNameChar c || c = '#' || c = '@'

def untilClosed : Nat → Nat → Chars → Option (Chars × Chars)
  | 0, _, _ | _, _, [] => none
  | n + 1, depth, c :: rest =>
    if c = ']' && depth = 0 then some ([], rest)
    else
      let depth := if c = '[' then depth + 1 else if c = ']' then depth - 1 else depth
      (untilClosed n depth rest).map fun (inner, behind) => (c :: inner, behind)

/-- The tokens of a text. A character that starts none is one of its own. -/
def tokens (dialect : Dialect) : Nat → Chars → List Placed
  | 0, _ | _, [] => []
  | n + 1, text@(c :: rest) =>
    if isSpace c then tokens dialect n rest
    else if c.isDigit then
      if dialect = .extended then
        let digits := text.takeWhile isNumberChar
        ⟨extendedNumber digits, text⟩ :: tokens dialect n (text.drop digits.length)
      else
        let (value, rest) := leadingNumber text
        ⟨.number value, text⟩ :: tokens dialect n rest
    else if isNameStart c then
      let name := c :: rest.takeWhile isNameChar
      match dialect, rest.dropWhile isNameChar with
      | .extended, '[' :: more =>
        match untilClosed more.length 0 more with
        | some (place, behind) => ⟨.element name place, text⟩ :: tokens dialect n behind
        | none => ⟨.name name, text⟩ :: tokens dialect n ('[' :: more)
      | _, more => ⟨.name name, text⟩ :: tokens dialect n more
    else
      let all := if dialect = .extended then extendedSpellings else spellings
      match all.find? fun s => s.toList.isPrefixOf text with
      | some s => ⟨.op s, text⟩ :: tokens dialect n (text.drop s.length)
      | none => ⟨.op (String.singleton c), text⟩ :: tokens dialect n rest

inductive Flaw where
  | expression (what : String) (place : Chars)
  | number (text : Chars)

structure Setting where
  dialect : Dialect
  lookup : Chars → Option Chars
  /-- Whether the elements of a list have texts for places. -/
  isTable : Chars → Bool

structure State where
  rest : List Placed
  /-- The text from the token on that was looked at last. -/
  last : Chars
  setting : Setting
  assigned : List (Chars × Int)
  /-- How many names are being looked up inside each other. -/
  depth : Nat

abbrev Calc := StateT State (Except Flaw)

def fail (what : String) : Calc α := do throw (.expression what (← get).last)

def isExtended : Calc Bool := do return (← get).setting.dialect = .extended

def failAs (common extended : String) : Calc α := do fail (if ← isExtended then extended else common)

def nextOp? : Calc (Option String) := do
  match (← get).rest with
  | ⟨.op s, _⟩ :: _ => return some s
  | _ => return none

def next? (op : String) : Calc Bool := do return (← nextOp?) = some op

def advance : Calc Unit := modify fun s =>
  { s with rest := s.rest.tail, last := (s.rest.tail.head?.map (·.text)).getD s.last }

def passes? (op : String) : Calc Bool := do
  let comes ← next? op
  if comes then advance
  return comes

def assigning? (spelling : String) : Option (Option Operator) :=
  if spelling = "=" then some none
  else if ["<<=", ">>=", "+=", "-=", "*=", "/=", "%=", "&=", "^=", "|="].contains spelling then
    (operators.find? fun o => o.spelling ++ "=" = spelling).map some
  else none

def combine (o : Operator) (a b : Int) (place : Chars) : Calc Int := do
  if !o.divides || b ≠ 0 then return o.apply a b
  if ← isExtended then throw (.expression "division by 0" place)
  fail "division by zero"

/-- What can stand where an expression is asked for, from the loosest to the tightest. -/
inductive Level where
  | list
  | assignment
  | choice
  | either
  | both
  | operation (rank : Nat)
  | continued (rank : Nat) (value : Int)
  | power
  | operand
  | named (name : Chars)
  | place (text : Chars)
  /-- The value of the name that comes next, once it has been changed by a step. -/
  | stepped (step : Int)

def elementName (name place : Chars) : Chars := name ++ '[' :: place ++ [']']

def stepOf? : String → Option Int
  | "++" => some 1
  | "--" => some (-1)
  | _ => none

def setTo (name : Chars) (value : Int) : Calc Unit :=
  modify fun s => { s with assigned := (name, value) :: s.assigned }

/-- The name of an element, at the place that is the value of an expression. -/
def nameOf (valueOf : Chars → Calc Int) (idle : Bool) (name place : Chars) : Calc Chars := do
  if (← get).setting.isTable name then return elementName name place
  else if idle then return name
  else return elementName name (Chars.ofInt (← valueOf place))

/-- The value of an expression. If `idle`, it is read and not carried out. -/
def value : Nat → (idle : Bool) → Level → Calc Int
  | 0, _, _ => fail "expression recursion level exceeded"
  | n + 1, idle, .list => do
    let v ← value n idle .assignment
    if (← next? ",") && (← isExtended) then
      advance
      value n idle .list
    else return v
  | n + 1, idle, .assignment => do
    let target ← match (← get).rest with
      | ⟨.name name, _⟩ :: ⟨.op op, _⟩ :: _ => pure ((assigning? op).map fun o => (name, o))
      | ⟨.element name place, _⟩ :: ⟨.op op, _⟩ :: _ =>
        match assigning? op with
        | none => pure none
        | some o => do pure (some (← nameOf (value n false ∘ .place) idle name place, o))
      | _ => pure none
    match target with
    | none =>
      let v ← value n idle .choice
      if ((← nextOp?).bind assigning?).isSome && (← isExtended) then
        fail "attempted assignment to non-variable"
      return v
    | some (name, o) =>
      advance
      advance
      let operand := (← get).last
      let right ← value n idle .assignment
      if idle then return right
      let result ← match o with
        | none => pure right
        | some o => combine o (← value n false (.named name)) right operand
      setTo name result
      return result
  | n + 1, idle, .choice => do
    let test ← value n idle .either
    if ← passes? "?" then
      let yes ← value n (idle || test = 0) .list
      if !(← passes? ":") then failAs "expecting ':'" "\x60:' expected for conditional expression"
      let no ← value n (idle || test ≠ 0) .choice
      return if test = 0 then no else yes
    return test
  | n + 1, idle, .either => do
    let a ← value n idle .both
    if ← passes? "||" then
      let b ← value n (idle || a ≠ 0) .either
      return ofTruth (a ≠ 0 || b ≠ 0)
    return a
  | n + 1, idle, .both => do
    let a ← value n idle (.operation 0)
    if ← passes? "&&" then
      let b ← value n (idle || a = 0) .both
      return ofTruth (a ≠ 0 && b ≠ 0)
    return a
  | n + 1, idle, .operation rank => do
    value n idle (.continued rank (← value n idle .power))
  | n + 1, idle, .continued rank a => do
    let o? := (← nextOp?).bind fun s => operators.find? (·.spelling = s)
    let some o := o? | return a
    if o.rank < rank then return a
    advance
    let operand := (← get).last
    let b ← value n idle (.operation (o.rank + 1))
    value n idle (.continued rank (← if idle then pure b else combine o a b operand))
  | n + 1, idle, .power => do
    let base ← value n idle .operand
    if ← passes? "**" then
      let exponent ← value n idle .power
      if exponent < 0 then fail "exponent less than 0"
      return (BitVec.ofInt 64 base ^ (if idle then 0 else exponent.toNat)).toInt
    return base
  | n + 1, idle, .operand => do
    let behind (name : Chars) : Calc Int := do
      let v ← if idle then pure 0 else value n false (.named name)
      let some step := (← nextOp?).bind stepOf? | return v
      advance
      if !idle then setTo name (wrap (v + step))
      return v
    let step (rest : List Placed) (size : Int) : Calc Int := do
      advance
      value n idle (if rest matches ⟨.name _, _⟩ :: _ | ⟨.element .., _⟩ :: _ then .stepped size else .operand)
    match (← get).rest with
    | ⟨.number v, _⟩ :: _ => advance; return v
    | ⟨.badNumber what, text⟩ :: _ =>
      throw (.expression what (text.takeWhile isNumberChar))
    | ⟨.name name, _⟩ :: _ => advance; behind name
    | ⟨.element name place, _⟩ :: _ =>
      advance
      behind (← nameOf (value n false ∘ .place) idle name place)
    | ⟨.op "(", _⟩ :: _ =>
      advance
      let v ← value n idle .list
      if !(← passes? ")") then failAs "expecting ')'" "missing \x60)'"
      return v
    | ⟨.op "+", _⟩ :: _ => advance; value n idle .operand
    | ⟨.op "-", _⟩ :: _ => advance; return wrap (-(← value n idle .operand))
    | ⟨.op "!", _⟩ :: _ => advance; return ofTruth ((← value n idle .operand) = 0)
    | ⟨.op "~", _⟩ :: _ => advance; return -(← value n idle .operand) - 1
    | ⟨.op "++", _⟩ :: rest => step rest 1
    | ⟨.op "--", _⟩ :: rest => step rest (-1)
    | _ => failAs "expecting primary" "syntax error: operand expected"
  | n + 1, _, .named name => do
    let s ← get
    match s.assigned.lookup name with
    | some v => return v
    | none =>
      let text := (s.setting.lookup name).getD []
      if s.setting.dialect = .extended then value n false (.place text)
      else
        match numberOf? text with
        | some v => return v
        | none => throw (.number text)
  | n + 1, _, .place text => do
    let s ← get
    if text.all isSpace then return 0
    else if s.depth = 0 then throw (.expression "expression recursion level exceeded" text)
    else
      set { s with rest := tokens .extended (text.length + 1) text, last := text, depth := s.depth - 1 }
      let v ← value n false .list
      if !(← get).rest.isEmpty then fail "syntax error in expression"
      modify fun t => { t with rest := s.rest, last := s.last, depth := s.depth }
      return v
  | n + 1, idle, .stepped step => do
    let name ← match (← get).rest with
      | ⟨.name name, _⟩ :: _ => pure name
      | ⟨.element name place, _⟩ :: _ => nameOf (value n false ∘ .place) idle name place
      | _ => pure []
    advance
    if idle then return 0
    else
      let v := wrap ((← value n false (.named name)) + step)
      setTo name v
      return v

def nesting : Nat := 1024

def steps : Nat := 2 ^ 40

def evaluate (setting : Setting) (text : Chars) : Except Flaw (Int × List (Chars × Int)) := do
  let ts := tokens setting.dialect (text.length + 1) text
  if ts.isEmpty && setting.dialect = .extended then return (0, [])
  let start := (ts.head?.map (·.text)).getD text
  let (v, s) ← (value steps false .list).run ⟨ts, start, setting, [], nesting⟩
  let p :: _ := s.rest | return (v, s.assigned.reverse)
  let isKnown := match p.token with
    | .op op => extendedSpellings.contains op
    | _ => true
  throw (.expression (if setting.dialect = .common then "expecting EOF"
    else if isKnown then "syntax error in expression"
    else "syntax error: invalid arithmetic operator") s.last)

def Flaw.message (dialect : Dialect) (text : Chars) : Flaw → Chars
  | .expression what place =>
    if dialect = .extended then
      text.dropWhile isSpace ++ ": " ++ what.toList ++ " (error token is \"" ++ place ++ "\")"
    else "arithmetic expression: " ++ what.toList ++ ": \"" ++ text ++ ['"']
  | .number value => "Illegal number: " ++ value

end Prune.Shell.Arithmetic
