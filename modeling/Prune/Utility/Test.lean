import Prune.Disk.Arrange
import Prune.Host.Transfer
import Prune.Shell.Arithmetic
import Prune.Utility.Quote

/-!
Conditions on texts, numbers and files, as `test` takes them.
-/

namespace Prune.Utility.Test

open Prune.Shell (Arithmetic.isSpace)

inductive Style where
  | shell | program | extended
deriving DecidableEq

inductive Kind where
  | unary | binary | not | and | or | opening | closing
deriving DecidableEq

variable (style : Style)

def kindOf? (word : Chars) : Option Kind :=
  match String.ofList word with
  | "!" => some .not
  | "-a" => some .and
  | "-o" => some .or
  | "(" => some .opening
  | ")" => some .closing
  | w =>
    if ["=", "!=", "-eq", "-ne", "-ge", "-gt", "-le", "-lt", "-nt", "-ot", "-ef"].contains w then some .binary
    else if w = "==" && style ≠ .shell then some .binary
    else if (w = "<" || w = ">") && style ≠ .program then some .binary
    else
      match word with
      | ['-', c] =>
        if "rwxefdcbpugksztnhLOGSN".contains c || (style = .extended && (c = 'v' || c = 'R')) then
          some .unary
        else none
      | _ => none

def number? (text : Chars) : Option Int :=
  Chars.toInt? (Chars.trimEnd Arithmetic.isSpace (text.dropWhile Arithmetic.isSpace))

def badNumber (text : Chars) : Chars :=
  match style with
  | .shell => "Illegal number: " ++ text
  | .program => "invalid integer " ++ Utility.quoted text
  | .extended => text ++ ": integer expression expected"

def mayUse (e : Entry) (bit : Nat) : Bool := Disk.allows e.mode bit

variable (d : Disk)

def unary (op : Char) (operand : Chars) : Except Chars Bool :=
  let file (f : Entry → Bool) : Except Chars Bool := .ok ((d.stat operand).toOption.any f)
  match op with
  | 'z' => .ok operand.isEmpty
  | 'n' => .ok (!operand.isEmpty)
  | 't' =>
    match number? operand with
    | some _ => .ok false
    | none => if style = .extended then .ok false else .error (badNumber style operand)
  | 'h' | 'L' => .ok ((d.look operand).toOption.any Entry.isLink)
  | 'N' => .ok ((d.stampAt? true operand).any fun s => s.accessed < s.modified)
  | 'e' | 'O' | 'G' => file fun _ => true
  | 'f' => file Entry.isFile
  | 'd' => file Entry.isDir
  | 'r' => file (mayUse · Disk.readBit)
  | 'w' => file (mayUse · Disk.writeBit)
  | 'x' => file (mayUse · Disk.runBit)
  | 's' => file fun
    | .file _ content => !content.isEmpty
    | .special (.program _) => true
    | .special _ => false
    | _ => true
  | 'c' => file fun
    | .special (.program _) => false
    | .special _ => true
    | _ => false
  | 'u' => file (mayUse · 0o4000)
  | 'g' => file (mayUse · 0o2000)
  | 'k' => file (mayUse · 0o1000)
  | _ => .ok false

/-- Whether what one name leads to was changed later than what another one leads to. A file that is not
there is older than all others, except for a plain shell. -/
def isNewer (a b : Chars) : Bool :=
  match d.stampAt? true a, d.stampAt? true b with
  | some s, some t => t.modified < s.modified
  | some _, none => style ≠ .shell
  | none, _ => false

def binary (op : Chars) (a b : Chars) : Except Chars Bool :=
  let numbers (f : Int → Int → Bool) : Except Chars Bool :=
    match number? a, number? b with
    | some m, some n => .ok (f m n)
    | none, _ => .error (badNumber style a)
    | _, none => .error (badNumber style b)
  match String.ofList op with
  | "=" | "==" => .ok (a = b)
  | "!=" => .ok (a ≠ b)
  | "<" => .ok (!Chars.le b a)
  | ">" => .ok (!Chars.le a b)
  | "-eq" => numbers (· == ·)
  | "-ne" => numbers (· != ·)
  | "-ge" => numbers (· ≥ ·)
  | "-gt" => numbers (· > ·)
  | "-le" => numbers (· ≤ ·)
  | "-lt" => numbers (· < ·)
  | "-nt" => .ok (isNewer style d a b)
  | "-ot" => .ok (isNewer style d b a)
  | _ => .ok (d.isSame a b)

/-- What the first words of some say, and the words behind them. -/
abbrev Reading := List Chars → Except Chars (Bool × List Chars)

def turned (r : Except Chars (Bool × List Chars)) : Except Chars (Bool × List Chars) :=
  r.map fun (a, rest) => (!a, rest)

def chain (goesOn : List Chars → Bool) (join : Bool → Bool → Bool) (next : Reading) : Nat → Reading
  | 0, ws => .ok (false, ws)
  | n + 1, ws => do
    let (a, rest) ← next ws
    if goesOn rest then
      let (b, rest) ← chain goesOn join next n rest.tail
      return (join a b, rest)
    return (a, rest)

namespace Builtin

/-- What the first of some words is: an operator of one operand is an operand itself if it stands
alone or before an operator of two. -/
def lex : List Chars → Option Kind
  | [] => none
  | word :: rest =>
    match kindOf? .shell word with
    | some .unary =>
      match rest with
      | [] => none
      | [_] => some .unary
      | next :: _ => if kindOf? .shell next = some .binary then none else some .unary
    | some .opening => if rest.isEmpty then none else some .opening
    | k => k

variable (d : Disk)

mutual

def either : Nat → Reading
  | 0, ws => .ok (false, ws)
  | n + 1, ws => chain (lex · = some .or) (· || ·) (both n) n ws

def both : Nat → Reading
  | 0, ws => .ok (false, ws)
  | n + 1, ws => chain (lex · = some .and) (· && ·) (negation n) n ws

def negation : Nat → Reading
  | 0, ws => .ok (false, ws)
  | n + 1, ws => do
    if lex ws = some .not then
      match ws with
      | [_] => return (true, [])
      | _ => turned (negation n ws.tail)
    else primary n ws

def primary : Nat → Reading
  | 0, ws => .ok (false, ws)
  | _, [] => .ok (false, [])
  | n + 1, word :: rest => do
    match lex (word :: rest) with
    | some .opening =>
      if lex rest = some .closing then return (false, rest.tail)
      let (a, rest) ← either n rest
      if lex rest = some .closing then return (a, rest.tail)
      else .error "closing paren expected"
    | some .unary =>
      match rest with
      | operand :: rest => return (← unary .shell d (word.getD 1 'n') operand, rest)
      | [] => .error (word ++ ": argument expected")
    | _ =>
      let op :: rest' := rest | return (!word.isEmpty, [])
      if kindOf? .shell op = some .binary then
        match rest' with
        | operand :: rest => return (← binary .shell d op word operand, rest)
        | [] => .error (op ++ ": argument expected")
      else return (!word.isEmpty, rest)

end

/-- The words of a condition, with brackets and negations around the whole taken off where there are
three or four of them; and whether the result is turned around. -/
def unwrap : Nat → Bool → List Chars → Bool × List Chars
  | 0, turned, ws => (turned, ws)
  | n + 1, turned, ws =>
    if ws.length = 3 || ws.length = 4 then
      if ws.head? = some ['('] && ws.getLast? = some [')'] then (turned, ws.tail.dropLast)
      else if ws.head? = some ['!'] then unwrap n (!turned) ws.tail
      else (turned, ws)
    else (turned, ws)

end Builtin

/-- Whether a condition holds, for a shell. Three words with an operator in the middle are always a
comparison. -/
def holds (words : List Chars) : Except Chars Bool := do
  let (turned, ws) := if isComparison words then (false, words) else Builtin.unwrap 2 false words
  match ws with
  | [a, op, b] => if isComparison ws then return (← binary .shell d op a b) != turned else general turned ws
  | _ => general turned ws
where
  isComparison : List Chars → Bool
    | [_, op, _] => kindOf? .shell op = some .binary
    | _ => false
  general (turned : Bool) (ws : List Chars) : Except Chars Bool := do
    let (a, rest) ← Builtin.either d (4 * ws.length + 4) ws
    if rest.isEmpty then return a != turned
    else .error (ws.getD (ws.length - rest.length - 1) [] ++ ": unexpected operator")

namespace Standalone

structure Setting where
  style : Style
  disk : Disk
  /-- Whether something of a name holds in a shell, by the letter of the condition. -/
  named : Char → Chars → Option Bool

variable (c : Setting)

variable (word : Chars)

def isBinary : Bool := kindOf? c.style word = some .binary

def isUnary : Bool :=
  kindOf? c.style word = some .unary || (c.style = .extended && (word = ['-', 'a'] || word = ['-', 'o']))

def Setting.unary (word operand : Chars) : Except Chars Bool :=
  let op := word.getD 1 'n'
  match c.named op operand with
  | some b => .ok b
  | none => Test.unary c.style c.disk (if op = 'a' then 'e' else op) operand

def isSwitch : Bool := word.length = 2 && word.head? = some '-'

def quoted : Chars := if c.style = .extended then word else Utility.quoted word

variable (all : List Chars)

def beyond : Chars :=
  match c.style, all with
  | .extended, [a, _] => a ++ ": unary operator expected"
  | .extended, _ => "argument expected"
  | _, _ => "missing argument after " ++ quoted c (all.getLastD [])

def switch : Reading
  | word :: rest =>
    if !isUnary c word then .error (quoted c word ++ ": unary operator expected")
    else
      match rest with
      | operand :: rest => do return (← c.unary word operand, rest)
      | [] => .error (beyond c all)
  | [] => .error (beyond c all)

def ofTwo : Reading
  | a :: b :: rest =>
    if a = ['!'] then .ok (b.isEmpty, rest)
    else if isSwitch a then switch c all (a :: b :: rest)
    else if c.style = .extended then .error (a ++ ": unary operator expected")
    else .error (beyond c all)
  | _ => .error (beyond c all)

def lengthAt : List Chars → Option (Chars × List Chars)
  | ['-', 'l'] :: word :: rest => if c.style = .program then some (Chars.ofNat word.length, rest) else none
  | _ => none

/-- A comparison at the start of some words: its operands with the operator between them, and the words
behind them. Lengths can stand for numbers. -/
def measured (ws : List Chars) : Option (List Chars × List Chars) :=
  let compares (a : Chars) : List Chars → Option (List Chars × List Chars)
    | op :: rest =>
      if !isBinary c op then none
      else
        match lengthAt c rest, rest with
        | some (b, behind), _ | none, b :: behind => some ([a, op, b], behind)
        | none, [] => none
    | [] => none
  match lengthAt c ws, ws with
  | some (a, rest), word :: more => compares a rest <|> compares word more
  | none, word :: more => compares word more
  | _, [] => none

mutual

def ofCount : Nat → Nat → Reading
  | 0, _, ws => .ok (false, ws)
  | n + 1, count, ws =>
    match count, ws with
    | 1, word :: rest => .ok (!word.isEmpty, rest)
    | 2, ws => ofTwo c all ws
    | 3, a :: op :: b :: rest =>
      if isBinary c op then do return (← binary c.style c.disk op a b, rest)
      else if a = ['!'] then turned (ofTwo c all (op :: b :: rest))
      else if a = ['('] && b = [')'] then .ok (!op.isEmpty, rest)
      else if op = ['-', 'a'] || op = ['-', 'o'] then either n ws
      else .error (quoted c op ++ ": binary operator expected")
    | 4, w :: x :: y :: z :: rest =>
      if w = ['!'] then turned (ofCount n 3 (x :: y :: z :: rest))
      else if w = ['('] && z = [')'] then do
        let (x, _) ← ofTwo c all [x, y]
        return (x, rest)
      else either n ws
    | _, ws => either n ws

def either : Nat → Reading
  | 0, ws => .ok (false, ws)
  | n + 1, ws => chain (·.head? = some ['-', 'o']) (· || ·) (both n) n ws

def both : Nat → Reading
  | 0, ws => .ok (false, ws)
  | n + 1, ws => chain (·.head? = some ['-', 'a']) (· && ·) (term n) n ws

def term : Nat → Reading
  | 0, ws => .ok (false, ws)
  | _, [] => .error (beyond c all)
  | n + 1, word :: rest =>
    if word = ['!'] then turned (term n rest)
    else if word = ['('] then
      if rest.isEmpty then .error (beyond c all)
      else do
        let closing := if c.style = .extended then "\x60)'".toList else Utility.quoted [')']
        let inner := (rest.tail.takeWhile (· ≠ [')'])).length + 1
        let count := if inner < 5 then inner else rest.length
        let (a, rest) ← ofCount n count rest
        match rest with
        | [')'] :: rest => return (a, rest)
        | found :: _ => .error (closing ++ " expected, found " ++ quoted c found)
        | [] => .error (closing ++ " expected")
    else
      match measured c (word :: rest) with
      | some ([a, op, b], behind) => do return (← binary c.style c.disk op a b, behind)
      | _ => single (word :: rest)

def single (ws : List Chars) : Except Chars (Bool × List Chars) :=
  match ws with
  | word :: rest => if isSwitch word then switch c all ws else .ok (!word.isEmpty, rest)
  | [] => .error (beyond c all)

end

end Standalone

def holdsBy (c : Standalone.Setting) (words : List Chars) : Except Chars Bool := do
  let (a, rest) ← Standalone.ofCount c words (4 * words.length + 4) words.length words
  let word :: _ := rest | return a
  if c.style = .extended then .error "too many arguments"
  else .error ("extra argument " ++ Standalone.quoted c word)

def holdsAlone (words : List Chars) : Except Chars Bool :=
  holdsBy ⟨.program, d, fun _ _ => none⟩ words

end Prune.Utility.Test
