import Prune.Text.CharClass
import Prune.Text.Decimal
import Prune.Utility.Amount
import Prune.Utility.Source

/-!
Bytes written out as numbers and characters, in rows with their places.
-/

namespace Prune.Utility

open Host Util Effort

inductive DumpKind where
  | named | escaped | signed | unsigned | octal | hexadecimal | floating
deriving DecidableEq

/-- A way to write rows: a kind, how many bytes belong together, and whether the characters follow. -/
structure DumpForm where
  kind : DumpKind
  size : Nat
  trailer : Bool

namespace DumpForm

def width (f : DumpForm) : Nat :=
  let bySize (widths : List Nat) : Nat := widths.getD f.size 0
  match f.kind with
  | .named | .escaped => 3
  | .octal => bySize [0, 3, 6, 8, 11, 14, 16, 19, 22]
  | .signed => bySize [1, 4, 6, 8, 11, 13, 16, 18, 20]
  | .unsigned => bySize [0, 3, 5, 8, 10, 13, 15, 17, 20]
  | .hexadecimal => 2 * f.size
  | .floating => if f.size = 4 then 15 else 24

end DumpForm

def controlNames : List String :=
  ["nul", "soh", "stx", "etx", "eot", "enq", "ack", "bel", "bs", "ht", "nl", "vt", "ff", "cr", "so", "si",
    "dle", "dc1", "dc2", "dc3", "dc4", "nak", "syn", "etb", "can", "em", "sub", "esc", "fs", "gs", "rs", "us",
    "sp"]

def charName (c : Char) : Chars :=
  let n := c.toNat % 128
  if n = 127 then "del" else (controlNames[n]?.map String.toList).getD [Char.ofNat n]

def escapedByte (c : Char) : Chars :=
  match Chars.controlLetter? c with
  | some letter => ['\\', letter]
  | none =>
    if c = '\x00' then "\\0"
    else if CharClass.print.holdsPlain c then [c]
    else Chars.octal c

def littleEndian (bytes : Chars) : Nat := bytes.foldr (fun c n => c.toNat + 256 * n) 0

/-- The shortest text that reads back as a number, with at least `digits` digits tried. Numbers so small
that they lose digits are tried with one. -/
def shortestFloat (x : Float) (readsBack : Chars → Bool) (digits most : Nat) : Chars :=
  let tries := (List.range (most + 1 - digits)).map (digits + ·)
  let text (n : Nat) : Chars :=
    let (negative, digits) := Decimal.render 'g' n false x
    (if negative then ['-'] else []) ++ digits
  text ((tries.find? fun n => readsBack (text n)).getD most)

def floatText (size : Nat) (bits : Nat) : Chars :=
  let readBack (text : Chars) : Option Float := (Decimal.read? text).map (·.1)
  if size = 4 then
    let x := Float32.ofBits bits.toUInt32
    let least := if x.abs < Float32.ofBits 0x00800000 then 1 else 6
    shortestFloat x.toFloat (fun text => (readBack text).any fun y => y.toFloat32 == x) least 9
  else
    let x := Float.ofBits bits.toUInt64
    let least := if x.abs < Float.ofBits 0x0010000000000000 then 1 else 15
    shortestFloat x (fun text => (readBack text).any (· == x)) least 17

def DumpForm.value (f : DumpForm) (bytes : Chars) : Chars :=
  let n := littleEndian bytes
  match f.kind with
  | .named => charName (bytes.headD '\x00')
  | .escaped => escapedByte (bytes.headD '\x00')
  | .octal => (Nat.toDigits 8 n).leftpad f.width '0'
  | .hexadecimal => (Nat.toDigits 16 n).leftpad f.width '0'
  | .unsigned => Chars.ofNat n
  | .signed => Chars.ofInt (if n ≥ 2 ^ (8 * f.size - 1) then (n : Int) - 2 ^ (8 * f.size) else n)
  | .floating => floatText f.size n

structure DumpManner where
  forms : List DumpForm
  rowSize : Nat
  base : Option Nat
  showsAll : Bool
  bigEndian : Bool

namespace DumpManner

variable (m : DumpManner)

def rowWidth : Nat := (m.forms.map fun f => (f.width + 1) * (m.rowSize / f.size)).foldl max 0

def placeWidth : Nat :=
  (m.base.map fun base => if base = 16 then 6 else 7).getD 0

def place (n : Nat) : Chars :=
  (m.base.map fun base => (Nat.toDigits base n).leftpad m.placeWidth '0').getD []

def groups (size : Nat) : Nat → Chars → List Chars
  | 0, _ | _, [] => []
  | n + 1, bytes =>
    let group := bytes.take size
    (group ++ List.replicate (size - group.length) '\x00') :: groups size n (bytes.drop size)

/-- A row in one form, without its place. The room that is left over is shared out in front of the
values. -/
def row (f : DumpForm) (bytes : Chars) : Chars :=
  let fields := m.rowSize / f.size
  let room := m.rowWidth - f.width * fields
  let values := (groups f.size (bytes.length + 1) bytes).map fun g =>
    f.value (if m.bigEndian then g.reverse else g)
  let spaceBefore (left : Nat) : Nat := room * left / fields - room * (left - 1) / fields
  let cells := values.zipIdx.map fun (v, i) => Chars.padLeft (f.width + spaceBefore (fields - i)) v
  let missing := (m.rowSize - bytes.length) / f.size
  let trailer : Chars :=
    if !f.trailer then []
    else
      List.replicate (missing * f.width + room * missing / fields) ' ' ++ "  >" ++
        bytes.map (fun c => if CharClass.print.holdsPlain c then c else '.') ++ ['<']
  cells.flatten ++ trailer

def rows (start : Nat) (bytes : Chars) : Chars :=
  m.forms.zipIdx.flatMap fun (f, i) =>
    (if i = 0 then m.place start else List.replicate m.placeWidth ' ') ++ m.row f bytes ++ ['\n']

/-- All rows of a text. Of rows that are the same only the first is shown, and a star for the others. -/
def all : Nat → Nat → Option Chars → Bool → Chars → List Chars
  | 0, _, _, _, _ => []
  | _, start, _, _, [] => if m.base.isNone then [] else [m.place start ++ ['\n']]
  | n + 1, start, before, starred, text =>
    let bytes := text.take m.rowSize
    let rest := text.drop m.rowSize
    let next := start + bytes.length
    if !m.showsAll && before = some bytes && bytes.length = m.rowSize then
      (if starred then [] else ['*', '\n']) :: all n next before true rest
    else m.rows start bytes :: all n next (some bytes) false rest

end DumpManner

inductive FormFlaw where
  | letter (c : Char)
  | size (n : Nat) (floating : Bool)
  | tooLarge

def FormFlaw.words (text : Chars) : FormFlaw → Chars
  | .letter c => "invalid character '" ++ c :: "' in type string " ++ quoted text
  | .size n floating =>
    "invalid type string " ++ quoted text ++ ";\nthis system doesn't provide a " ++
      Chars.ofNat n ++ (if floating then "-byte floating point type" else "-byte integral type").toList
  | .tooLarge => "invalid type string " ++ quoted text

def formSize (floating : Bool) (text : Chars) : Except FormFlaw (Nat × Chars) :=
  let letters : List (Char × Nat) := if floating then [('F', 4), ('D', 8), ('L', 16)]
    else [('C', 1), ('S', 2), ('I', 4), ('L', 8)]
  match letters.lookup (text.headD ' ') with
  | some n => .ok (n, text.tail)
  | none =>
    let (digits, rest) := text.span Char.isDigit
    match Chars.toNat? digits with
    | none => .ok (if floating then 8 else 4, text)
    | some n => if letters.any (·.2 = n) then .ok (n, rest) else .error (.size n floating)

def dumpForms : Nat → Chars → Except FormFlaw (List DumpForm)
  | 0, _ | _, [] => .ok []
  | n + 1, c :: rest => do
    let kinds : List (Char × DumpKind) := [('a', .named), ('c', .escaped), ('d', .signed), ('u', .unsigned),
      ('o', .octal), ('x', .hexadecimal), ('f', .floating)]
    let some kind := kinds.lookup c | .error (.letter c)
    let (size, rest) ← if kind = .named || kind = .escaped then pure (1, rest)
      else formSize (kind = .floating) rest
    let trailer := rest.head? = some 'z'
    let rest := rest.dropWhile (· = 'z')
    return ⟨kind, size, trailer⟩ :: (← dumpForms n rest)

def oldForms : List (String × String) :=
  [("a", "a"), ("b", "o1"), ("c", "c"), ("D", "u4"), ("d", "u2"), ("e", "fD"), ("F", "fD"), ("f", "fF"),
    ("H", "x4"), ("X", "x4"), ("i", "dI"), ("I", "dL"), ("L", "dL"), ("l", "dL"), ("O", "o4"), ("o", "o2"),
    ("B", "o2"), ("s", "d2"), ("h", "x2"), ("x", "x2")]

def formsOf (p : Parsed) : Except Chars (List DumpForm) := do
  let texts := p.options.filterMap fun o =>
    if o.key = "t" then some o.value else (oldForms.lookup o.key).map String.toList
  let forms := (← texts.mapM fun text => (dumpForms (text.length + 1) text).mapError (·.words text)).flatten
  return if forms.isEmpty then [⟨.octal, 2, false⟩] else forms

def dumpAmount (p : Parsed) (key shown : String) : Except Chars (Option Nat) :=
  match p.value? key with
  | none => .ok none
  | some text =>
    let named (words : String) : Except Chars (Option Nat) :=
      .error (words.toList ++ shown.toList ++ " argument '" ++ text ++ ['\''])
    match readAmount true "bEGKkMmPTYZ0" text with
    | .ok n => .ok (some n)
    | .error .invalid => named "invalid "
    | .error .strayEnding => named "invalid suffix in "
    | .error .tooLarge => .error (shown.toList ++ " argument '" ++ text ++ "' too large")

/-- Reads up to `limit` bytes of files one after the other; the latest block first. -/
def readLimited : List Chars → Option Nat → Nat → Bool → List Chars → Util (Nat × Bool × Chars)
  | [], _, status, opened, acc => return (status, opened, acc.reverse.flatten)
  | file :: others, limit, status, opened, acc => do
    let (opened, fault, limit, acc) ← match ← Source.ofFile file '\n' with
      | .error f => pure (opened, some f, limit, acc)
      | .ok s => do
        let read ← blocks s.fd Act.patience limit acc
        s.close
        pure (true, read)
    fault.forM (complainOf file)
    readLimited others limit (if fault.isSome then 1 else status) opened acc
where
  blocks (fd : Nat) : Nat → Option Nat → List Chars → Util (Option Fault × Option Nat × List Chars)
    | 0, limit, acc => return (none, limit, acc)
    | n + 1, limit, acc => do
      if limit = some 0 then return (none, limit, acc)
      match ← ask (.read fd (min Act.blockSize (limit.getD Act.blockSize)) false) with
      | .error f => return (some f, limit, acc)
      | .ok [] => return (none, limit, acc)
      | .ok block => blocks fd n (limit.map (· - block.length)) (block :: acc)

def od : Applet :=
  withOptions (lettersOf "A:aBbcDdeFfHhIij:LlN:OoS:st:vXx" ++ ⟨"w", some 'w', some "width", .optional⟩ ::
    longsOf "address-radix=A: format=t: skip-bytes=j: read-bytes=N: output-duplicates=v endian:")
    true 1 fun p => do
  let bases : List (Char × Option Nat) := [('d', some 10), ('o', some 8), ('x', some 16), ('n', none)]
  let radix := (p.value? "A").getD ['o']
  let read : Except Chars _ := do
    let some base := bases.lookup (radix.headD ' ') |
      .error ("invalid output address radix '" ++ radix.take 1 ++ "'; it must be one character from [doxn]")
    return (base, ← formsOf p, ← dumpAmount p "j" "-j", ← dumpAmount p "N" "-N")
  match read with
  | .error words => failWith 1 words
  | .ok (base, forms, skipped, limit) =>
    withWords "--endian" [("little", false), ("big", true)] 1 (p.values "endian") fun endian => do
    let unit := forms.foldl (fun n f => Nat.lcm n f.size) 1
    let given := (p.value? "w").map fun v => if v.isEmpty then 32 else (Chars.toNat? v).getD 0
    let rowSize := match given with
      | some n => if n > 0 && n % unit = 0 then n else unit
      | none => if unit < 16 then unit * (16 / unit) else unit
    if let some n := given then
      if n = 0 || n % unit ≠ 0 then
        complain ("warning: invalid width " ++ Chars.ofNat n ++ "; using " ++
          Chars.ofNat unit ++ " instead")
    let m : DumpManner := ⟨forms, rowSize, base, p.has "v", endian.getLastD false⟩
    let skip := skipped.getD 0
    let files := p.files
    let (status, opened, text) ← readLimited files (limit.map (· + skip)) 0 false []
    if !opened then return status
    else if text.length < skip then failWith 1 "cannot skip past end of combined input"
    else
      let text := text.drop skip
      for rows in m.all (text.length + 2) skip none false text do
        print rows
      return status

end Prune.Utility
