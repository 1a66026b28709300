import Prune.Utility.Amount
import Prune.Utility.Source

/-!
Tabs and the columns they lead to: tabs as blanks, blanks as tabs, and lines cut to a width.
-/

namespace Prune.Utility

open Host

inductive TabsBeyond where
  | ended
  | multiples (n : Nat)
  | steps (n : Nat)

structure TabStops where
  places : List Nat
  beyond : TabsBeyond

def TabStops.next? (t : TabStops) (column : Nat) : Option Nat :=
  t.places.find? (column < ·) <|>
    match t.beyond with
    | .ended => none
    | .multiples n => some (column + (n - column % n))
    | .steps n => some (column + (n - (column - t.places.getLastD 0) % n))

structure TabReading where
  places : List Nat
  extended : Option Nat
  stepped : Option Nat

def TabReading.add (r : TabReading) (sign : Option Char) (n : Nat) : Except Chars TabReading :=
  match sign with
  | none => .ok { r with places := n :: r.places }
  | some '/' =>
    if r.extended.isSome then .error "'/' specifier only allowed with the last value"
    else .ok { r with extended := some n }
  | some _ =>
    if r.stepped.isSome then .error "'+' specifier only allowed with the last value"
    else .ok { r with stepped := some n }

def TabReading.close (r : TabReading) (sign : Option Char) (digits : Chars) : Except Chars TabReading :=
  match Chars.toNat? digits with
  | some n => r.add sign n
  | none => .ok r

/-- Reads places from a text, with the sign and the digits of the number at hand. -/
def readPlaces : TabReading → Option Char → Chars → Chars → Except Chars TabReading
  | r, sign, digits, [] => r.close sign digits
  | r, sign, digits, c :: rest =>
    if c = ',' || c = ' ' || c = '\t' then do readPlaces (← r.close sign digits) sign [] rest
    else if c = '/' || c = '+' then
      if !digits.isEmpty then
        .error (plainlyQuoted [c] ++ " specifier not at start of number: " ++ quoted (c :: rest))
      else readPlaces r (some c) [] rest
    else if c.isDigit then
      let digits := digits ++ [c]
      if (Chars.toNat? digits).any (· > largestAmount) then
        .error ("tab stop is too large " ++ quoted (digits ++ rest.takeWhile Char.isDigit))
      else readPlaces r sign digits rest
    else .error ("tab size contains invalid character(s): " ++ quoted (c :: rest))

def tabStops (lists : List Chars) : Except Chars TabStops := do
  let r ← lists.foldlM (fun r list => readPlaces r none [] list) ⟨[], none, none⟩
  let places := r.places.reverse
  let isAscending := (places.zip places.tail).all fun (a, b) => a < b
  if places.contains 0 then .error "tab size cannot be 0"
  else if !isAscending then .error "tab sizes must be ascending"
  else if r.extended.isSome && r.stepped.isSome then .error "'/' specifier is mutually exclusive with '+'"
  else
    let given (n : Option Nat) : Option Nat := n.filter (· > 0)
    match places, given r.extended, given r.stepped with
    | [], some n, _ | [], none, some n => return ⟨[], .multiples n⟩
    | [], none, none => return ⟨[], .multiples 8⟩
    | [n], none, none => return ⟨[], .multiples n⟩
    | places, some n, _ => return ⟨places, .multiples n⟩
    | places, none, some n => return ⟨places, .steps n⟩
    | places, none, none => return ⟨places, .ended⟩

variable (t : TabStops) (entire : Bool)

def expandLine : Bool → Nat → Chars → Chars
  | _, _, [] => []
  | converting, column, c :: rest =>
    if !converting then c :: expandLine false column rest
    else if c = '\t' then
      let next := (t.next? column).getD (column + 1)
      List.replicate (next - column) ' ' ++ expandLine true next rest
    else
      let column := if c = '\x08' then column - 1 else column + 1
      c :: expandLine (entire || c = ' ') column rest

structure Unexpanding where
  converting : Bool
  column : Nat
  /-- The last character was a blank, or there was none. -/
  afterBlank : Bool
  /-- Blanks that may yet become a tab. -/
  pending : Chars
  /-- There is one blank just before a place that tabs lead to. -/
  oneBlank : Bool
  out : List Chars

namespace Unexpanding

def start : Unexpanding := ⟨true, 0, true, [], false, []⟩

def settle (s : Unexpanding) : Unexpanding :=
  if s.pending.isEmpty then s
  else
    let pending := if s.pending.length > 1 && s.oneBlank then '\t' :: s.pending.tail else s.pending
    { s with pending := [], oneBlank := false, out := pending :: s.out }

def step (s : Unexpanding) (c : Char) : Unexpanding :=
  let put (s : Unexpanding) (c : Char) : Unexpanding := { s with out := [c] :: s.out }
  let asTab (s : Unexpanding) (column : Nat) : Unexpanding :=
    let pending := if s.oneBlank then ['\t'] else []
    put ({ s with column, pending, afterBlank := true }).settle '\t'
  if !s.converting then put s c
  else if c = ' ' || c = '\t' then
    match t.next? s.column with
    | none => put ({ s with converting := false, afterBlank := true }).settle c
    | some next =>
      if c = '\t' || (s.afterBlank && s.column + 1 = next) then asTab s next
      else
        { s with
          column := s.column + 1
          afterBlank := true
          pending := s.pending ++ [c]
          oneBlank := s.oneBlank || s.column + 1 = next }
  else
    let column := if c = '\x08' then s.column - 1 else s.column + 1
    put ({ s with column, afterBlank := false, converting := entire }).settle c

end Unexpanding

def unexpandLine (line : Chars) : Chars :=
  ((line.foldl (Unexpanding.step t entire) .start).settle).out.reverse.flatten

def changeLines (files : List Chars) (change : Chars → Chars) : Applet := do
  let (status, begun) ← forEachLine files '\n' (fun begun line ended => do
    if ended then
      Util.printLine (change (begun ++ line))
      return []
    return begun ++ line) ([] : Chars)
  Util.print (change begun)
  return status

def namingDigits (key : Chars) (args : List Chars) : List Chars :=
  let (options, operands) := args.span (· ≠ "--".toList)
  options.map (fun arg =>
    match arg with
    | '-' :: c :: rest => if c.isDigit then key ++ c :: rest else arg
    | _ => arg) ++ operands

def expand : Applet := fun inv =>
  withOptions (optionsOf "it:" "tabs=t: initial=i") true 1 (fun p => do
    match tabStops (p.values "t") with
    | .error words => failWith 1 words
    | .ok t => changeLines p.operands (expandLine t (!p.has "i") true 0))
    { inv with args := namingDigits "-t" inv.args }

def unexpand : Applet := fun inv =>
  withOptions (optionsOf "at:" "tabs=t: all=a first-only=first digits:") true 1 (fun p => do
    let lists := (p.options.filter fun o => o.key = "t" || o.key = "digits").map (·.value)
    match tabStops lists with
    | .error words => failWith 1 words
    | .ok t => changeLines p.operands (unexpandLine t ((p.has "a" || p.has "t") && !p.has "first")))
    { inv with args := namingDigits "--digits=" inv.args }

def columnBehind (byBytes : Bool) (column : Nat) (c : Char) : Nat :=
  if byBytes then column + 1
  else if c = '\x08' then column - 1
  else if c = '\x0d' then 0
  else if c = '\t' then (column / 8 + 1) * 8
  else column + 1

/-- A line in parts that are at most `width` wide; they end behind a blank if that is asked for. `part`
is the part being made, its last character first. -/
def foldLine (width : Nat) (byBytes atBlanks : Bool) : Nat → Nat → Chars → Chars → List Chars
  | 0, _, part, rest => [part.reverse ++ rest]
  | _, _, part, [] => [part.reverse]
  | n + 1, column, part, c :: rest =>
    let next := columnBehind byBytes column c
    if next > width && !part.isEmpty then
      let carried := if atBlanks then part.takeWhile fun d => d ≠ ' ' && d ≠ '\t' else []
      if atBlanks && carried.length < part.length then
        let column := carried.reverse.foldl (columnBehind byBytes) 0
        (part.drop carried.length).reverse :: foldLine width byBytes atBlanks n column carried (c :: rest)
      else part.reverse :: foldLine width byBytes atBlanks n 0 [] (c :: rest)
    else foldLine width byBytes atBlanks n next (c :: part) rest

def fold : Applet := fun inv =>
  withOptions (optionsOf "bsw:" "width=w: spaces=s bytes=b") true 1 (fun p => do
    let widths := (p.values "w").mapM (boundedAmount "invalid number of columns" "" 1 (largestAmount - 9))
    match widths with
    | .error words => failWith 1 words
    | .ok widths =>
      let width := widths.getLastD 80
      let (status, _) ← forEachLine p.operands '\n' (fun _ line ended => do
        let parts := foldLine width (p.has "b") (p.has "s") (4 * line.length + 4) 0 [] line
        Util.print (Chars.join ['\n'] parts ++ (if ended then ['\n'] else []))) ()
      return status)
    { inv with args := namingDigits "-w" inv.args }

end Prune.Utility
