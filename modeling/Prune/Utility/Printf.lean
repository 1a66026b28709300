import Prune.Shell.Arithmetic
import Prune.Shell.Quoting
import Prune.Text.Decimal
import Prune.Utility.Quote

/-!
Backslashes in texts to be printed.
-/

namespace Prune.Utility

structure Escapes where
  /-- An octal number may start with any digit, not only with a zero. -/
  anyOctal : Bool
  /-- A zero in front of an octal number does not count among its three digits. -/
  longOctal : Bool
  hexadecimal : Bool
  escape : Bool
  /-- `\c` ends the output. -/
  stop : Bool

def controlOf? (c : Char) : Option Char := if c = '\\' then some c else Chars.control? c

def byteOf (base count : Nat) (text : Chars) : Char × Chars :=
  let digits := Chars.digitsIn base count text
  (Char.ofNat (Chars.valueIn base digits % 256), text.drop digits.length)

def escape? (e : Escapes) : Chars → Option (Char × Chars)
  | [] => none
  | c :: rest =>
    match controlOf? c with
    | some d => some (d, rest)
    | none =>
      if c = 'e' && e.escape then some ('\x1b', rest)
      else if c = '0' && e.longOctal then byteOf 8 3 rest
      else if Chars.isDigitOf 8 c && e.anyOctal then byteOf 8 3 (c :: rest)
      else if c = 'x' && e.hexadecimal && rest.head?.any (Chars.isDigitOf 16) then byteOf 16 2 rest
      else none

def unescape (e : Escapes) : Nat → Chars → Chars × Bool
  | 0, _ | _, [] => ([], true)
  | n + 1, '\\' :: rest =>
    if e.stop && rest.head? = some 'c' then ([], false)
    else
      let (c, rest) := (escape? e rest).getD ('\\', rest)
      let (text, goesOn) := unescape e n rest
      (c :: text, goesOn)
  | n + 1, c :: rest =>
    let (text, goesOn) := unescape e n rest
    (c :: text, goesOn)

def unescapeAll (e : Escapes) (text : Chars) : Chars × Bool := unescape e (text.length + 1) text

def echoShell (args : List Chars) : Chars :=
  let (args, ends) := match args with
    | ['-', 'n'] :: rest => (rest, false)
    | rest => (rest, true)
  let (text, goesOn) := unescapeAll ⟨true, true, false, true, true⟩ (Chars.join [' '] args)
  if goesOn && ends then text ++ ['\n'] else text

def isEchoOption : Chars → Bool
  | '-' :: letters => !letters.isEmpty && letters.all fun c => c = 'n' || c = 'e' || c = 'E'
  | _ => false

def echoProgram (args : List Chars) : Chars :=
  let options := (args.takeWhile isEchoOption).flatMap List.tail
  let args := args.dropWhile isEchoOption
  let replaces := (options.filter fun c => c ≠ 'n').getLast? = some 'e'
  let text := Chars.join [' '] args
  let (text, goesOn) := if replaces then unescapeAll ⟨false, true, true, true, true⟩ text
    else (text, true)
  if goesOn && !options.contains 'n' then text ++ ['\n'] else text

end Prune.Utility

/-!
Printing by a format: directives take arguments in turn, and the format is used again while there
are arguments left.
-/

namespace Prune.Utility.Printf

open Prune.Shell (Arithmetic.leadingNumber Arithmetic.isSpace Arithmetic.wrap)

inductive Style where
  | shell
  | program
  /-- A shell of the extended dialect, with letters of several bytes or without. -/
  | extended (wide : Bool)
deriving DecidableEq

structure Directive where
  flags : List Char
  width : Option Int
  precision : Option Int
  letter : Char

/-- What was printed, what is to be said about it, and what is left of the arguments. -/
structure State where
  out : List Chars
  complaints : List Chars
  args : List Chars
  failed : Bool
  took : Bool
  stopped : Bool

abbrev M := StateM State

def emit (text : Chars) : M Unit := modify fun s => { s with out := text :: s.out }

def complain (text : Chars) : M Unit :=
  modify fun s => { s with complaints := s.complaints ++ [text], failed := true }

def take : M (Option Chars) := do
  let s ← get
  let a :: rest := s.args | return none
  set { s with args := rest, took := true }
  return some a

def taken (read : Chars → M α) (other : α) : M α := do
  let some a ← take | return other
  read a

variable (style : Style)

variable (a : Chars)

def quotedBy : Chars :=
  match style with
  | .program => '\'' :: a ++ ['\'']
  | _ => a

def wrongNumber (shell program : String) : M Unit :=
  complain (quotedBy style a ++ match style with
    | .shell => shell.toList
    | .program => program.toList
    | .extended _ => ": invalid number")

def partly : M Unit :=
  wrongNumber style a ": not completely converted" ": value not completely converted"

def notAtAll : M Unit :=
  wrongNumber style a ": expected numeric value" ": expected a numeric value"

/-- A number that an argument stands for: its own, or that of the character behind a quote. -/
def number : M Int := do
  match a with
  | '\'' :: c :: _ | '"' :: c :: _ => return c.toNat
  | _ =>
    let text := a.dropWhile Arithmetic.isSpace
    let (negative, digits) := Chars.signed text
    if digits.head?.any Char.isDigit then
      let (n, rest) := Arithmetic.leadingNumber digits
      if !rest.isEmpty then partly style a
      return if negative then -n else n
    if !(a.isEmpty && style ≠ .shell) then notAtAll style a
    return 0

def real : M Float := do
  match a with
  | '\'' :: c :: _ | '"' :: c :: _ => return Float.ofNat c.toNat
  | _ =>
    match Decimal.read? (a.dropWhile Arithmetic.isSpace) with
    | some (x, rest) =>
      if !rest.isEmpty then partly style a
      return x
    | none =>
      if !(a.isEmpty && style matches .extended _) then notAtAll style a
      return 0

variable (d : Directive)

def padded (text : Chars) : Chars :=
  match d.width with
  | none => text
  | some w =>
    if w < 0 || d.flags.contains '-' then Chars.padRight w.natAbs text else Chars.padLeft w.toNat text

def paddedNumber (zeros : Bool) (sign digits : Chars) : Chars :=
  match d.width with
  | some w =>
    if zeros && d.flags.contains '0' && !d.flags.contains '-' && 0 ≤ w then
      sign ++ digits.leftpad (w.toNat - sign.length) '0'
    else padded d (sign ++ digits)
  | none => sign ++ digits

def signOf (negative : Bool) : Chars :=
  if negative then ['-']
  else if d.flags.contains '+' then ['+']
  else if d.flags.contains ' ' then [' ']
  else []

def precise (digits : Chars) : Chars :=
  match d.precision with
  | some p => if p = 0 && digits = ['0'] then [] else digits.leftpad p.toNat '0'
  | none => digits

def integer (n : Int) : Chars :=
  let zeros := d.precision.isNone
  match d.letter with
  | 'd' | 'i' => paddedNumber d zeros (signOf d (n < 0)) (precise d (Chars.ofNat n.natAbs))
  | letter =>
    let value := (n % 2 ^ 64).toNat
    let base := if letter = 'o' then 8 else if letter = 'u' then 10 else 16
    let digits := Nat.toDigits base value
    let digits := if letter = 'X' then digits.map Char.toUpper else digits
    let alternate := d.flags.contains '#' && value ≠ 0
    let mark := if alternate && letter = 'x' then ['0', 'x']
      else if alternate && letter = 'X' then ['0', 'X']
      else []
    let digits := if alternate && letter = 'o' then '0' :: digits else digits
    paddedNumber d zeros mark (precise d digits)

def float (x : Float) : Chars :=
  let precision := (d.precision.map Int.toNat).getD 6
  let (negative, digits) := Decimal.render d.letter precision (d.flags.contains '#') x
  let isNumber := digits.head?.any Char.isDigit
  paddedNumber d isNumber (signOf d negative) digits

def conversion : M Unit := do
  let cut (text : Chars) : Chars := (d.precision.map fun p => text.take p.toNat).getD text
  match d.letter with
  | 's' => emit (padded d (cut ((← take).getD [])))
  | 'b' =>
    let (text, goesOn) := unescapeAll ⟨true, true, style ≠ .shell, true, true⟩ ((← take).getD [])
    emit (padded d (cut text))
    if !goesOn then modify ({ · with stopped := true })
  | 'c' =>
    match ← take with
    | none => if style ≠ .program then emit (padded d ['\x00'])
    | some a => emit (padded d (if a.isEmpty then if style ≠ .program then ['\x00'] else [] else a.take 1))
  | 'q' =>
    let text := (← take).getD []
    emit (padded d (match style with
      | .extended wide => Shell.Quoting.backslashed wide text
      | _ => quotedIfNeeded text))
  | 'Q' =>
    let text := cut ((← take).getD [])
    emit (padded d (match style with
      | .extended wide => Shell.Quoting.backslashed wide text
      | _ => text))
  | letter =>
    if "eEfFgG".contains letter then emit (float d (← taken (real style) 0))
    else emit (integer d (← taken (number style) 0))

def amount (text : Chars) : M (Option Int × Chars) := do
  match text with
  | '*' :: rest => return (some (← taken (number style) 0), rest)
  | _ =>
    let (digits, rest) := text.span Char.isDigit
    return ((Chars.toNat? digits).map Int.ofNat, rest)

def letters : Chars :=
  match style with
  | .shell => "sbcdiouxXeEfFgG"
  | .program => "sbcqdiouxXeEfFgG"
  | .extended _ => "sbcqQdiouxXeEfFgG"

def round : Nat → Chars → M Unit
  | 0, _ | _, [] => return
  | n + 1, '%' :: '%' :: rest => do
    emit ['%']
    round n rest
  | n + 1, '%' :: rest => do
    let wrong (text words : Chars) : M Unit := do
      complain (match style with
        | .shell => text ++ ": invalid directive"
        | .program => text ++ ": invalid conversion specification"
        | .extended _ => words)
      modify ({ · with stopped := true })
    let (flags, behind) := rest.span fun c => "-+ #0".contains c
    let (width, behind) ← amount style behind
    let (precision, behind) ← match behind with
      | '.' :: more => do
        let (p, more) ← amount style more
        pure (some (p.getD 0), more)
      | more => pure (none, more)
    match behind with
    | letter :: more =>
      if (letters style).contains letter then
        conversion style ⟨flags, width, precision, letter⟩
        if !(← get).stopped then round n more
      else
        wrong ('%' :: rest.take (rest.length - more.length))
          ('\x60' :: letter :: "': invalid format character")
    | [] => wrong ('%' :: rest) ('\x60' :: '%' :: rest ++ "': missing format character")
  | n + 1, '\\' :: rest => do
    if style = .program && rest.head? = some 'c' then modify ({ · with stopped := true })
    else
      match escape? ⟨true, false, style ≠ .shell, true, false⟩ rest with
      | some (c, rest) =>
        emit [c]
        round n rest
      | none =>
        if style ≠ .shell && rest.head? = some '"' then
          emit ['"']
          round n rest.tail
        else
          emit ['\\']
          round n rest
  | n + 1, c :: rest => do
    emit [c]
    round n rest

def rounds (format : Chars) : Nat → M Unit
  | 0 => return
  | n + 1 => do
    modify ({ · with took := false })
    round style (format.length + 1) format
    let s ← get
    if !s.stopped && s.took && !s.args.isEmpty then rounds format n

/-- What is printed, what is said about it, and whether all went well. -/
structure Result where
  output : Chars
  complaints : List Chars
  ok : Bool
  broken : Bool

def run (format : Chars) (args : List Chars) : Result :=
  let (_, s) := (rounds style format (args.length + 1)).run ⟨[], [], args, false, false, false⟩
  ⟨s.out.reverse.flatten, s.complaints, !s.failed, s.stopped && s.failed⟩

end Prune.Utility.Printf
