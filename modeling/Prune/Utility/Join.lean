import Prune.Utility.Sort

/-!
Lines of two files that are in order: those of the first only, of the second only, and of both.
-/

namespace Prune.Utility

open Host Util

inductive OrderCheck where
  | always
  /-- Once a line was found in one file only. -/
  | unpaired
  | never
deriving DecidableEq

structure CommManner where
  first : Bool
  second : Bool
  both : Bool
  separator : Chars
  mark : Char
  check : OrderCheck

/-- One of the files: the lines not yet taken, and those taken, the latest first. -/
structure CommSide where
  rest : List Chars
  taken : List Chars
  told : Bool

structure CommState where
  left : CommSide
  right : CommSide
  unpaired : Bool
  counts : Nat × Nat × Nat

namespace CommManner

variable (m : CommManner)

def row (column : Nat) (line : Chars) : Chars :=
  let front (isShown : Bool) : Chars := if isShown then m.separator else []
  match column with
  | 1 => if m.first then line ++ [m.mark] else []
  | 2 => if m.second then front m.first ++ line ++ [m.mark] else []
  | _ => if m.both then front m.first ++ front m.second ++ line ++ [m.mark] else []

def step (number : Nat) (unpaired : Bool) (s : CommSide) : Effort CommSide := do
  let next : CommSide := match s.rest with
    | [] => s
    | line :: rest => { s with rest, taken := line :: s.taken }
  let pair := match next.rest, next.taken with
    | line :: _, last :: _ => some (last, line)
    | [], last :: older :: _ => some (older, last)
    | _, _ => none
  let checked := m.check = .always || (m.check = .unpaired && unpaired)
  let disordered := pair.any fun (a, b) => compareChars a b = .gt
  if checked && disordered && !s.told then
    complain (s!"file {number} is not in sorted order")
    if m.check = .always then throw 1
    return { next with told := true }
  return next

def walk : Nat → CommState → Effort CommState
  | 0, s => return s
  | n + 1, s => do
    let order := match s.left.rest, s.right.rest with
      | [], [] => none
      | a :: _, b :: _ => some (compareChars a b)
      | _ :: _, [] => some .lt
      | [], _ :: _ => some .gt
    let (one, two, three) := s.counts
    match order with
    | none => return s
    | some .lt =>
      print (m.row 1 (s.left.rest.headD []))
      let left ← m.step 1 true s.left
      walk n { s with left, unpaired := true, counts := (one + 1, two, three) }
    | some .gt =>
      print (m.row 2 (s.right.rest.headD []))
      let right ← m.step 2 true s.right
      walk n { s with right, unpaired := true, counts := (one, two + 1, three) }
    | some .eq =>
      print (m.row 3 (s.right.rest.headD []))
      let left ← m.step 1 s.unpaired s.left
      let right ← m.step 2 s.unpaired s.right
      walk n { s with left, right, counts := (one, two, three + 1) }

end CommManner

def comm : Applet :=
  withOptions (optionsOf "123z" "check-order=check nocheck-order=nocheck total
    output-delimiter=out: zero-terminated=z") true 1 fun p => do
  Effort.status do
  let separators := p.values "out"
  if separators.any fun s => separators.head? ≠ some s then
    Effort.refuse 1 "multiple output delimiters specified"
  let [first, second] := p.operands | wrongOperands 2 p.operands
  let a ← Effort.text first
  let b ← Effort.text second
  let mark := p.mark
  let separator := match separators.head? with
    | none => ['\t']
    | some [] => ['\x00']
    | some s => s
  let m : CommManner :=
    { first := !p.has "1"
      second := !p.has "2"
      both := !p.has "3"
      separator
      mark
      check := match p.lastKey? ["check", "nocheck"] with
        | some "check" => .always
        | some _ => .never
        | none => .unpaired }
  let as := linesAt mark a
  let bs := linesAt mark b
  let s ← m.walk (as.length + bs.length + 1) ⟨⟨as, [], false⟩, ⟨bs, [], false⟩, false, (0, 0, 0)⟩
  if p.has "total" then
    let (one, two, three) := s.counts
    print (Chars.join separator [Chars.ofNat one, Chars.ofNat two, Chars.ofNat three, "total"] ++ [mark])
  if s.left.told || s.right.told then Effort.refuse 1 "input is not in sorted order"
  return 0

/-!
Lines that follow each other and are the same.
-/

inductive GroupMark where
  | none | before | behind | between | around
deriving DecidableEq

structure UniqManner where
  skippedFields : Nat := 0
  skippedChars : Nat := 0
  compared : Option Nat := none
  folds : Bool := false
  /-- Lines without a second one are shown. -/
  single : Bool := true
  /-- One line of a group is shown. -/
  first : Bool := true
  /-- The other lines of a group are shown. -/
  others : Bool := false
  counted : Bool := false
  /-- Groups of several lines are set apart. -/
  repeated : GroupMark := .none
  /-- All lines are shown, and all groups are set apart. -/
  grouped : Option GroupMark := none

namespace UniqManner

variable (m : UniqManner)

def part (line : Chars) : Chars :=
  let line := (skipFields none m.skippedFields line).drop m.skippedChars
  let line := (m.compared.map line.take).getD line
  if m.folds then line.map Char.toLower else line

def shown (group : List Chars) : List Chars :=
  let isShown := if group.length = 1 then m.single else m.first
  let count (line : Chars) : Chars :=
    if m.counted then Chars.padLeft 7 (Chars.ofNat group.length) ++ ' ' :: line else line
  if m.others then
    group.dropLast ++ (if isShown then group.getLast?.toList else [])
  else if isShown then (group.head?.toList).map count
  else []

end UniqManner

def runs (same : Chars → Chars → Bool) : List Chars → List (List Chars)
  | [] => []
  | line :: rest =>
    match runs same rest with
    | (first :: others) :: more =>
      if same line first then (line :: first :: others) :: more else [line] :: (first :: others) :: more
    | _ => [[line]]

def setApart (mark : GroupMark) (groups : List (List Chars)) : List Chars :=
  match mark with
  | .none => groups.flatten
  | .before => groups.flatMap fun g => [] :: g
  | .behind => groups.flatMap fun g => g ++ [[]]
  | .between => (groups.intersperse [[]]).flatten
  | .around => if groups.isEmpty then [] else (groups.flatMap fun g => [] :: g) ++ [[]]

def UniqManner.result (m : UniqManner) (lines : List Chars) : List Chars :=
  let groups := runs (fun a b => m.part a = m.part b) lines
  match m.grouped with
  | some mark => setApart mark groups
  | none =>
    if m.repeated = .none then groups.flatMap m.shown
    else setApart m.repeated ((groups.filter fun g => g.length > 1).map m.shown)

def uniqCount (what : String) (value : Chars) : Except Chars Nat :=
  match readAmount false "" value with
  | .ok n => .ok n
  | .error .tooLarge => .ok largestAmount
  | .error _ => .error (value ++ ": invalid number of " ++ what.toList)

def repeatedWords : List (String × GroupMark) := [("none", .none), ("prepend", .before), ("separate", .between)]

def groupWords : List (String × GroupMark) :=
  [("prepend", .before), ("append", .behind), ("separate", .between), ("both", .around)]

def UniqManner.adding (m : UniqManner) (g : Given) : Except Chars UniqManner :=
  match g.key with
  | "c" => .ok { m with counted := true }
  | "d" => .ok { m with single := false }
  | "D" => .ok { m with single := false, others := true }
  | "u" => .ok { m with first := false }
  | "i" => .ok { m with folds := true }
  | "f" => do return { m with skippedFields := ← uniqCount "fields to skip" g.value }
  | "s" => do return { m with skippedChars := ← uniqCount "bytes to skip" g.value }
  | "w" => do return { m with compared := some (← uniqCount "bytes to compare" g.value) }
  | key =>
    match Chars.toNat? key.toList with
    | some digit => .ok { m with skippedFields := 10 * m.skippedFields + digit }
    | none => .ok m

def uniq : Applet :=
  withOptions (optionsOf "0123456789cdDf:is:uw:z" "count=c repeated=d all-repeated=D:: group::
    unique=u ignore-case=i skip-fields=f: skip-chars=s: check-chars=w: zero-terminated=z") true 1 fun p => do
  withWords "--all-repeated" repeatedWords 1 ((p.values "D").filter (!·.isEmpty)) fun repeated =>
    withWords "--group" groupWords 1 ((p.values "group").filter (!·.isEmpty)) fun grouped => do
    Effort.status do
    let m ← Effort.insist 1 id (p.options.foldlM UniqManner.adding {})
    let m := { m with
      repeated := repeated.getLastD .none
      grouped := if p.has "group" then some (grouped.getLastD .between) else none }
    if p.operands.length > 2 then throw (← wrongOperands 2 p.operands)
    if m.grouped.isSome && ["c", "d", "D", "u"].any p.has then
      throw (← missing "--group is mutually exclusive with -c/-d/-D/-u")
    if m.counted && m.others then
      throw (← missing "printing all duplicated lines and repeat counts is meaningless")
    let file := p.operands.headD ['-']
    let target := p.operands.getD 1 ['-']
    let source ← Effort.named file (← Source.ofFile file '\n')
    let out ← if target = ['-'] then pure 1
      else do Effort.named target (← ask (.open target .writing 0o666))
    let text ← Effort.insist 1 (fun f => "error reading " ++ quotedName file ++ ": " ++ f.text)
      (← Act.readAll source.fd)
    let mark := p.mark
    let text := ((m.result (linesAt mark text)).map (· ++ [mark])).flatten
    if out = 1 then print text
    else
      let _ ← Act.write out text
    return 0

/-!
Lines of two files joined by a field they have in common.
-/

structure Row where
  line : Chars
  fields : List Chars

/-- The fields of a line: those between the separators, or those between blanks. Blanks at the end
have an empty field behind them. -/
def blankFields : Nat → Chars → List Chars
  | 0, _ => []
  | n + 1, text =>
    match text.span (!isBlank ·) with
    | (field, []) => [field]
    | (field, _ :: rest) =>
      match rest.dropWhile isBlank with
      | [] => [field, []]
      | rest => field :: blankFields n rest

inductive Divider where
  | blanks
  | char (c : Char)
  /-- A line is one field. -/
  | never

def Divider.fields (d : Divider) (line : Chars) : List Chars :=
  if line.isEmpty then []
  else
    match d with
    | .char c => Chars.splitAt c line
    | .never => [line]
    | .blanks =>
      match line.dropWhile isBlank with
      | [] => []
      | text => blankFields (text.length + 1) text

def Divider.row (d : Divider) (line : Chars) : Row := ⟨line, d.fields line⟩

inductive JoinField where
  | common
  | first (n : Nat)
  | second (n : Nat)

structure JoinManner where
  divider : Divider
  mark : Char
  fieldA : Nat
  fieldB : Nat
  foldsCase : Bool
  filler : Chars
  format : Option (List JoinField)
  /-- As many fields are shown as the first lines have. -/
  widths : Option (Nat × Nat)
  lonelyA : Bool
  lonelyB : Bool
  together : Bool
  /-- Whether order is checked: always, never, or once lines are without partners. -/
  checks : Option Bool
  heads : Bool

structure Joining where
  out : List Chars
  unordered : Option Chars × Option Chars
  sawLonely : Bool

namespace JoinManner

variable (m : JoinManner)

def key (n : Nat) (r : Row) : Chars :=
  let text := r.fields.getD n []
  if m.foldsCase then text.map Char.toUpper else text

def order (na nb : Nat) (a b : Row) : Ordering := compareChars (m.key na a) (m.key nb b)

def separator : Char :=
  match m.divider with
  | .blanks => ' '
  | .char c => c
  | .never => '\n'

def shown (r : Option Row) (n : Nat) : Chars :=
  match r.bind fun r => r.fields[n]? with
  | some (c :: text) => c :: text
  | _ => m.filler

def line (a b : Option Row) : Chars :=
  let common := if a.isSome then m.shown a m.fieldA else m.shown b m.fieldB
  let all := match m.format with
    | some format => format.map fun
      | .common => common
      | .first n => m.shown a n
      | .second n => m.shown b n
    | none =>
      let others (r : Option Row) (field : Nat) (width : Option Nat) : List Chars :=
        let count := width.getD ((r.map fun r => r.fields.length).getD 0)
        ((List.range count).filter (· ≠ field)).map (m.shown r)
      common :: others a m.fieldA (m.widths.map (·.1)) ++ others b m.fieldB (m.widths.map (·.2))
  Chars.join [m.separator] all ++ [m.mark]

def inOrder (field : Nat) (last : Option Row) (row : Row) : Bool :=
  last.all fun l => m.order field field l row ≠ .gt

end JoinManner

/-- One file on its way: its name, the number of its last line, the last line, and those to come. -/
structure Side where
  name : Chars
  field : Nat
  number : Nat
  last : Option Row
  current : Option Row
  rest : List Row

def Side.complaint (s : Side) (row : Row) : Chars :=
  s.name ++ ':' :: Chars.ofNat (s.number + 1) ++ ": is not sorted: " ++ row.line

def Side.advance (s : Side) (m : JoinManner) (checking : Bool) : Side × Option Chars :=
  match s.rest with
  | [] => ({ s with current := none }, none)
  | row :: rest =>
    let bad := checking && !m.inOrder s.field s.last row
    ({ s with number := s.number + 1, last := some row, current := some row, rest },
      if bad then some (s.complaint row) else none)

/-- Lines of a side that have the common field `row`, the current one first, and the side behind them. -/
def Side.group (m : JoinManner) (checking : Bool) (same : Row → Bool) :
    Nat → Side → List Row × Side × Option Chars
  | 0, s => ([], s, none)
  | n + 1, s =>
    match s.current with
    | none => ([], s, none)
    | some row =>
      if same row then
        let (s, bad) := s.advance m checking
        let (rows, s, later) := Side.group m checking same n s
        (row :: rows, s, bad <|> later)
      else ([], s, none)

def Joining.checking (j : Joining) (m : JoinManner) : Bool :=
  match m.checks with
  | some always => always
  | none => j.sawLonely

def Joining.note (j : Joining) (first : Bool) (bad : Option Chars) : Joining :=
  if first then { j with unordered := (j.unordered.1 <|> bad, j.unordered.2) }
  else { j with unordered := (j.unordered.1, j.unordered.2 <|> bad) }

def joinRest (m : JoinManner) (isFirst : Bool) : Nat → Side → Joining → Joining
  | 0, _, j => j
  | n + 1, s, j =>
    match s.current with
    | none => j
    | some row =>
      let line := if isFirst then m.line (some row) none else m.line none (some row)
      let j := if (if isFirst then m.lonelyA else m.lonelyB) then { j with out := line :: j.out } else j
      let (s, bad) := s.advance m (j.checking m)
      joinRest m isFirst n s (j.note isFirst bad)

def joinSides (m : JoinManner) : Nat → Side → Side → Joining → Joining
  | 0, _, _, j => j
  | n + 1, a, b, j =>
    match a.current, b.current with
    | some x, some y =>
      match m.order m.fieldA m.fieldB x y with
      | .lt =>
        let (a, bad) := a.advance m (j.checking m)
        let j := if m.lonelyA then { j with out := m.line (some x) none :: j.out } else j
        joinSides m n a b { j.note true bad with sawLonely := true }
      | .gt =>
        let (b, bad) := b.advance m (j.checking m)
        let j := if m.lonelyB then { j with out := m.line none (some y) :: j.out } else j
        joinSides m n a b { j.note false bad with sawLonely := true }
      | .eq =>
        let checking := j.checking m
        let (xs, a, badA) := a.group m checking (fun r => m.order m.fieldA m.fieldB r y = .eq) (n + 1)
        let (ys, b, badB) := b.group m checking (fun r => m.order m.fieldA m.fieldB x r = .eq) (n + 1)
        let lines := if m.together then xs.flatMap fun x => ys.map fun y => m.line (some x) (some y)
          else []
        joinSides m n a b
          (({ j with out := lines.reverse ++ j.out } : Joining).note true badA |>.note false badB)
    | none, none => j
    | some _, none => joinRest m true (a.rest.length + 2) a j
    | none, some _ => joinRest m false (b.rest.length + 2) b j

def joinFormat? (text : Chars) : Except Chars (List JoinField) :=
  let parts := (text.splitBy fun a b => !(a = ',' || isBlank a) && !(b = ',' || isBlank b)).filter
    fun part => !part.all fun c => c = ',' || isBlank c
  parts.mapM fun part =>
    let badFile := Except.error ("invalid file number in field spec: " ++ quoted part)
    match part with
    | ['0'] => .ok .common
    | file :: '.' :: digits =>
      if file ≠ '1' && file ≠ '2' then badFile
      else
        match Chars.toNat? digits with
        | some (n + 1) => .ok (if file = '1' then .first n else .second n)
        | _ => .error ("invalid field number: " ++ quoted digits)
    | '0' :: _ | '1' :: _ | '2' :: _ => .error ("invalid field specifier: " ++ quoted part)
    | _ => badFile

def fieldNumber (p : Parsed) (keys : List String) : Except Chars Nat :=
  match p.last? keys with
  | none => .ok 0
  | some g =>
    match Chars.toNat? g.value with
    | some (n + 1) => .ok n
    | _ => .error ("invalid field number: " ++ quoted g.value)

def joinManner (p : Parsed) : Except Chars JoinManner := do
  let fieldA ← fieldNumber p ["1", "j"]
  let fieldB ← fieldNumber p ["2", "j"]
  for g in p.options do
    if (g.key = "a" || g.key = "v") && g.value ≠ ['1'] && g.value ≠ ['2'] then
      throw ("invalid field number: " ++ quoted g.value)
  let divider : Divider ← match p.value? "t" with
    | none => pure .blanks
    | some [] => pure .never
    | some [c] => pure (.char c)
    | some ['\\', '0'] => pure (.char '\x00')
    | some text => throw ("multi-character tab " ++ quoted text)
  let texts := (p.values "o").filter (· ≠ "auto".toList)
  let format ← if texts.isEmpty then pure none
    else do pure (some (← texts.mapM joinFormat?).flatten)
  let shows (n : Char) : Bool := p.options.any fun g => (g.key = "a" || g.key = "v") && g.value = [n]
  let checks := (p.last? ["check", "nocheck"]).map fun g => decide (g.key = "check")
  return ⟨divider, p.mark, fieldA, fieldB, p.has "i", (p.value? "e").getD [],
    format, none, shows '1', shows '2', !p.has "v", checks, p.has "header"⟩

def joinTexts (m : JoinManner) (auto : Bool) (nameA nameB textA textB : Chars) : Joining :=
  let rowsOf (text : Chars) : List Row :=
    let parts := Chars.splitAt m.mark text
    let parts := if parts.getLast? = some [] then parts.dropLast else parts
    parts.map m.divider.row
  let (as, bs) := (rowsOf textA, rowsOf textB)
  let width (rows : List Row) : Nat := (rows.head?.map fun r => r.fields.length).getD 0
  let m := if auto then { m with widths := some (width as, width bs) } else m
  let sideOf (name : Chars) (field : Nat) (rows : List Row) : Side :=
    ⟨name, field, min rows.length 1, rows.head?, rows.head?, rows.tail⟩
  let (a, b) := (sideOf nameA m.fieldA as, sideOf nameB m.fieldB bs)
  let empty : Joining := ⟨[], (none, none), false⟩
  let fuel := as.length + bs.length + 1
  if m.heads && (a.current.isSome || b.current.isSome) then
    let start (s : Side) : Side := { (s.advance m false).1 with last := (s.advance m false).1.current }
    joinSides m fuel (start a) (start b) { empty with out := [m.line a.current b.current] }
  else joinSides m fuel a b empty

def join : Applet :=
  withOptions (optionsOf "a:e:ij:o:t:v:1:2:z" "ignore-case=i header check-order=check
    nocheck-order=nocheck zero-terminated=z") true 1 fun p => do
  Effort.status do
  let m ← Effort.insist 1 id (joinManner p)
  let [nameA, nameB] := p.operands | wrongOperands 2 p.operands
  if nameA = ['-'] && nameB = ['-'] then Effort.refuse 1 "both files cannot be standard input"
  let textA ← Effort.text nameA
  let textB ← Effort.text nameB
  let j := joinTexts m (p.values "o" = ["auto".toList]) nameA nameB textA textB
  for line in j.out.reverse do
    print line
  let (one, two) := j.unordered
  if one.isNone && two.isNone then return 0
  for text in one.toList ++ two.toList do
    complain text
  if m.checks ≠ some true then complain "input is not in sorted order"
  return 1

end Prune.Utility
