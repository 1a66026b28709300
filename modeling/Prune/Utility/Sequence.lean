import Prune.Regex.Parse
import Prune.Utility.Amount
import Prune.Utility.Printf

/-!
The program that works out an expression of words.
-/

namespace Prune.Utility

open Host

namespace Expr

abbrev Eval := StateT (List Chars) (Except Chars)

abbrev Value := Chars

def int? (v : Value) : Option Int :=
  match v with
  | '-' :: digits => (Chars.toNat? digits).map fun n => -(n : Int)
  | digits => (Chars.toNat? digits).map fun n => (n : Int)

def isNull (v : Value) : Bool :=
  v.isEmpty ||
    match v with
    | '-' :: digits => !digits.isEmpty && digits.all (· = '0')
    | digits => digits.all (· = '0')

def truth (b : Bool) : Value := if b then ['1'] else ['0']

def endsAfter (word : Chars) : Chars := "syntax error: missing argument after " ++ quoted word

def compare (op : Chars) (a b : Value) : Value :=
  let order : Ordering := match int? a, int? b with
    | some x, some y => Ord.compare x y
    | _, _ => if a = b then .eq else if Chars.le a b then .lt else .gt
  truth (match String.ofList op with
    | "<" => order = .lt
    | "<=" => order ≠ .gt
    | ">" => order = .gt
    | ">=" => order ≠ .lt
    | "!=" => order ≠ .eq
    | _ => order = .eq)

def matched (wide : Bool) (text pattern : Value) : Except Chars Value :=
  let manner : Regex.Manner := ⟨false, false, wide⟩
  match Regex.parse { Regex.basic with wide } (Letters.of wide pattern) with
  | .error e => .error e.toList
  | .ok r =>
    let chars := (Letters.of wide text).toArray
    let grouped := r.groupCount > 0
    match r.endFrom manner chars 0 with
    | none => .ok (if grouped then [] else ['0'])
    | some e =>
      if grouped then
        let groups := (Regex.follow manner chars r 0 [] fun j g => if j = e then some g else none).getD []
        match groups.find? (·.1 = 1) with
        | some (_, a, b) => .ok (Letters.toBytes wide (Chars.slice chars a b))
        | none => .ok []
      else .ok (Chars.ofNat e)

def combine (wide : Bool) (op : Chars) (a b : Value) : Except Chars Value :=
  match String.ofList op with
  | "|" => .ok (if !isNull a then a else if isNull b then ['0'] else b)
  | "&" => .ok (if isNull a || isNull b then ['0'] else a)
  | ":" => matched wide a b
  | "+" => arithmetic fun x y => .ok (x + y)
  | "-" => arithmetic fun x y => .ok (x - y)
  | "*" => arithmetic fun x y => .ok (x * y)
  | "/" => arithmetic fun x y => if y = 0 then .error "division by zero" else .ok (x.tdiv y)
  | "%" => arithmetic fun x y => if y = 0 then .error "division by zero" else .ok (x.tmod y)
  | _ => .ok (compare op a b)
where
  arithmetic (f : Int → Int → Except Chars Int) : Except Chars Value :=
    match int? a, int? b with
    | some x, some y => (f x y).map Chars.ofInt
    | _, _ => .error "non-integer argument"

def operators : List (List String) :=
  [["|"], ["&"], ["=", "==", "!=", "<", "<=", ">", ">="], ["+", "-"], ["*", "/", "%"], [":"]]

variable (wide : Bool)

mutual

/-- An expression of the operators from a level on. The words in front of it are needed for complaints.
A part that does not count is read and not worked out. -/
def level (live : Bool) (behind : Chars) : Nat → List (List String) → Eval Value
  | 0, _ => throw "syntax error".toList
  | n + 1, [] => single live behind n
  | n + 1, ops :: tighter => do
    let first ← level live behind n tighter
    more live n ops tighter first

def more (live : Bool) : Nat → List String → List (List String) → Value → Eval Value
  | 0, _, _, value => return value
  | n + 1, ops, tighter, value => do
    let word :: rest ← get | return value
    if ops.contains (String.ofList word) then
      set rest
      let decided := (ops = ["|"] && !isNull value) || (ops = ["&"] && isNull value)
      let second ← level (live && !decided) word n tighter
      let value ← if live then
          if decided then pure (if ops = ["&"] then ['0'] else value)
          else liftM (combine wide word value second)
        else pure []
      more live n ops tighter value
    else return value

/-- A word, a word with an operator in front, or an expression between brackets. -/
def single (live : Bool) (behind : Chars) : Nat → Eval Value
  | 0 => throw "syntax error".toList
  | n + 1 => do
    let word :: rest ← get | throw (endsAfter behind)
    set rest
    match String.ofList word with
    | "+" =>
      let value :: rest := rest | throw (endsAfter word)
      set rest
      return value
    | "length" =>
      let v ← single live word n
      return Chars.ofNat (Letters.of wide v).length
    | "match" =>
      let text ← single live word n
      let pattern ← single live text n
      if live then matched wide text pattern else return []
    | "index" =>
      let text ← single live word n
      let chars ← single live text n
      let found := (Letters.of wide text).findIdx? (Letters.of wide chars).contains
      return Chars.ofNat ((found.map (· + 1)).getD 0)
    | "substr" =>
      let text ← single live word n
      let start ← single live text n
      let size ← single live start n
      match int? start, int? size with
      | some a, some b =>
        if a ≤ 0 || b ≤ 0 then return []
        else return Letters.toBytes wide (((Letters.of wide text).drop (a.toNat - 1)).take b.toNat)
      | _, _ => return []
    | "(" =>
      let v ← level live word n operators
      match ← get with
      | [')'] :: rest =>
        set rest
        return v
      | [] => throw ("syntax error: expecting ')' after " ++ quoted (rest.getLast?.getD word))
      | other :: _ => throw ("syntax error: expecting ')' instead of " ++ quoted other)
    | ")" => throw "syntax error: unexpected ')'".toList
    | _ => return word

end

end Expr

def expr : Applet := do
  let args := match ← Util.args with
    | ['-', '-'] :: rest => rest
    | args => args
  if args.isEmpty then
    let _ ← missing "missing operand"
    return 2
  match (Expr.level (← Util.wide) true [] (8 * args.length + 64) Expr.operators).run args with
  | .error text => failWith 2 text
  | .ok (value, []) =>
    Util.printLine value
    return if Expr.isNull value then 1 else 0
  | .ok (_, word :: _) => failWith 2 ("syntax error: unexpected argument " ++ quoted word)

/-!
Rows of numbers from one to another in equal steps.
-/

open Util

inductive RowValue where
  | number (w : Decimal.Written)
  | endless (negative : Bool)
deriving DecidableEq

/-- An operand: its value, how wide it is written, and how many places it has if that is known. -/
structure RowOperand where
  value : RowValue
  width : Int
  places : Option Nat

inductive RowFlaw where
  | invalid | undefined

def rowValue (text : Chars) : Except RowFlaw RowValue :=
  let text := text.dropWhile isBlankOrBreak
  let (negative, rest) := Chars.signed text
  let low := String.ofList (rest.map Char.toLower)
  if low = "inf" || low = "infinity" then .ok (.endless negative)
  else if low = "nan" then .error .undefined
  else if low.startsWith "0x" then
    match leadingDigits true rest with
    | (some n, []) => .ok (.number ⟨negative, n, 0⟩)
    | _ => .error .invalid
  else
    match Decimal.written? text with
    | some (w, []) => .ok (.number w)
    | _ => .error .invalid

/-- How wide a decimal is written without its exponent, and how many places it then has. -/
def rowShape (text : Chars) : Int × Nat :=
  let (mantissa, _) := Chars.cut 'e' (text.map Char.toLower)
  let exponent := (Decimal.readPower (text.drop mantissa.length)).1
  let (whole, fraction) := Chars.cut '.' mantissa
  let places := (fraction.getD []).length
  let addsZero := !whole.getLast?.any Char.isDigit
  let width : Int := mantissa.length + match fraction with
    | none => 0
    | some [] => -1
    | some _ => if addsZero then 1 else 0
  if mantissa.length = text.length then (width, places)
  else if exponent < 0 then
    let width := if places = 0 then width + 1 else width
    (width + exponent.natAbs, places + exponent.natAbs)
  else
    let left := places - min places exponent.toNat
    let width := if fraction.isSome && left = 0 && places > 0 then width - 1 else width
    (width + (exponent - min (places : Int) exponent), left)

def rowOperand (text : Chars) : Except RowFlaw RowOperand := do
  let value ← rowValue text
  let shown := text.dropWhile fun c => isBlankOrBreak c || c = '+'
  let isHex := shown.any fun c => c = 'x' || c = 'X'
  match value with
  | .endless _ => return ⟨value, 0, some 0⟩
  | .number _ =>
    if isHex then return ⟨value, 0, if shown.contains '.' || shown.contains 'p' then none else some 0⟩
    else
      let (width, places) := rowShape shown
      return ⟨value, width, some places⟩

def inUnits (w : Decimal.Written) (power : Int) : Int :=
  let n : Int := w.digits * 10 ^ (w.power - power).toNat
  if w.negative then -n else n

def fixedPlaces (places : Nat) (power n : Int) : Chars :=
  let shift := power + places
  let scaled := if shift < 0 then Decimal.roundDiv n.natAbs (10 ^ (-shift).toNat)
    else n.natAbs * 10 ^ shift.toNat
  (if n < 0 then ['-'] else []) ++ Decimal.withPoint scaled places false

inductive RowForm where
  | fixed (places : Nat) (width : Nat)
  | custom (front : Chars) (d : Printf.Directive) (behind : Chars)

def RowForm.write (form : RowForm) (power n : Int) : Chars :=
  match form with
  | .fixed places width =>
    match fixedPlaces places power n with
    | '-' :: digits => '-' :: digits.leftpad (width - 1) '0'
    | digits => digits.leftpad width '0'
  | .custom front d behind =>
    front ++ Printf.float d (Decimal.Written.toFloat ⟨n < 0, n.natAbs, power⟩) ++ behind

def plainUpTo : Nat → Chars → Chars × Option Chars
  | 0, text => (text, none)
  | _, [] => ([], none)
  | n + 1, '%' :: '%' :: rest =>
    let (front, behind) := plainUpTo n rest
    ('%' :: front, behind)
  | _, '%' :: rest => ([], some rest)
  | n + 1, c :: rest =>
    let (front, behind) := plainUpTo n rest
    (c :: front, behind)

def rowForm (format : Chars) : Except Chars RowForm :=
  let wrong (words : Chars) : Except Chars RowForm := .error ("format " ++ quoted format ++ words)
  match plainUpTo (format.length + 1) format with
  | (_, none) => wrong " has no % directive"
  | (front, some text) =>
    let (flags, width, digits, rest) := fieldStart "-+#0 '" text
    let precision := digits.map fun digits => (Chars.toNat? digits).getD 0
    let rest := match rest with
      | 'L' :: more => more
      | rest => rest
    match rest with
    | [] => wrong " ends in %"
    | letter :: more =>
      if !"efgaEFGA".contains letter then wrong (" has unknown %" ++ letter :: " directive")
      else
        match plainUpTo (more.length + 1) more with
        | (_, some _) => wrong " has too many % directives"
        | (behind, none) =>
          .ok (.custom front ⟨flags, (Chars.toNat? width).map Int.ofNat, precision.map Int.ofNat, letter⟩ behind)

def defaultForm (equal : Bool) (first step last : RowOperand) : RowForm :=
  match first.places, step.places, last.places with
  | some a, some b, some c =>
    let places := max a b
    let firstWidth := first.width + (places - a : Nat) + (if a = 0 && places > 0 then 1 else 0)
    let lastWidth := last.width + ((places : Int) - c) +
      (if c > 0 && places = 0 then -1 else if c = 0 && places > 0 then 1 else 0)
    .fixed places (if equal then (max firstWidth lastWidth).toNat else 0)
  | _, _, _ => .custom [] ⟨[], none, none, 'g'⟩ []

structure Progression where
  first : Int
  step : Int
  last : Option Int
  power : Int
  form : RowForm
  separator : Chars

namespace Progression

variable (r : Progression)

def isBeyond (x : Int) : Bool := r.last.any fun last => if r.step < 0 then x < last else last < x

/-- Whether a number beyond the end is written like the end itself, and not like the one before it. -/
def isRounded (before x : Int) : Bool :=
  match r.form, r.last with
  | .custom .., some last =>
    let text := r.form.write r.power x
    text = r.form.write r.power last && text ≠ r.form.write r.power before
  | _, _ => false

def printFrom : Nat → Int → Util Unit
  | 0, _ => return
  | n + 1, x => do
    print (r.form.write r.power x)
    let next := x + r.step
    if r.isBeyond next then
      if r.isRounded x next then print (r.separator ++ r.form.write r.power next)
      print ['\n']
    else
      print r.separator
      printFrom n next

end Progression

def rowArguments : List Chars → List Chars
  | [] => []
  | arg :: rest =>
    match arg with
    | '-' :: c :: _ =>
      if c.isDigit || c = '.' then "--" :: arg :: rest
      else if arg = "--" then arg :: rest
      else if ["-f", "-s", "--format", "--separator"].contains (String.ofList arg) then
        match rest with
        | value :: rest => arg :: value :: rowArguments rest
        | [] => [arg]
      else arg :: rowArguments rest
    | _ => "--" :: arg :: rest

def seqOf (p : Parsed) (form : Option RowForm) (a step z : Chars) : Applet := do
  let operand (text : Chars) : Except (Chars × RowFlaw) RowOperand := (rowOperand text).mapError (text, ·)
  let operands := do return (← operand a, ← operand step, ← operand z)
  match operands with
  | .error (text, .invalid) => missing ("invalid floating point argument: " ++ quoted text)
  | .error (text, .undefined) =>
    missing ("invalid " ++ quoted "not-a-number" ++ " argument: " ++ quoted text)
  | .ok (first, by', last) =>
    match first.value, by'.value with
    | .number f, .number s =>
      if s.digits = 0 then missing ("invalid Zero increment value: " ++ quoted step)
      else
        let stop := match last.value with
          | .number l => some l
          | .endless _ => none
        let power := (stop.toList.map (·.power)).foldl min (min f.power s.power)
        let step := inUnits s power
        let isOutside := last.value = .endless (0 < step)
        let row : Progression :=
          { first := inUnits f power
            step
            last := stop.map (inUnits · power)
            power
            form := form.getD (defaultForm (p.has "w") first by' last)
            separator := (p.value? "s").getD ['\n'] }
        if !isOutside && !row.isBeyond row.first then row.printFrom Act.patience row.first
        return 0
    | _, _ => return 0

def seq : Applet := fun inv =>
  withOptions (optionsOf "f:s:w" "format=f: separator=s: equal-width=w") false 1 (fun p => do
    match (p.value? "f").mapM rowForm, p.operands with
    | _, [] | _, _ :: _ :: _ :: _ :: _ => wrongOperands 3 p.operands
    | .error words, _ => failWith 1 words
    | .ok form, first :: others =>
      if form.isSome && p.has "w" then
        missing "format string may not be specified when printing equal width strings"
      else
        match others with
        | [] => seqOf p form ['1'] ['1'] first
        | [z] => seqOf p form first ['1'] z
        | step :: z :: _ => seqOf p form first step z)
    { inv with args := rowArguments inv.args }

end Prune.Utility
