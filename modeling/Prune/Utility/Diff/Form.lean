import Prune.Regex.Parse
import Prune.Text.Edits
import Prune.Utility.Tabs

/-!
Texts as lines that are compared, and the hunks in which two of them differ.
-/

namespace Prune.Utility.Diff

open Prune.Edits (Hunk)

inductive Blanks where
  | count
  /-- A tab is as many blanks as it takes. -/
  | tabs
  /-- Those at the end of a line do not count. -/
  | trailing
  | tabsAndTrailing
  /-- It counts only whether there are any. -/
  | amount
  | ignored
deriving DecidableEq

structure Eye where
  folds : Bool
  blanks : Blanks
  /-- Changes of lines that are all empty do not count. -/
  ignoresEmpty : Bool
  /-- Changes of lines that all fit one of these do not count. -/
  ignored : List Regex

def withoutTabs (size : Nat) (line : Chars) : Chars := expandLine ⟨[], .multiples size⟩ true true 0 line

def squeezeBlanks : Bool → Chars → Chars
  | _, [] => []
  | wasBlank, c :: rest =>
    if isBlankOrBreak c then if wasBlank then squeezeBlanks true rest else ' ' :: squeezeBlanks true rest
    else c :: squeezeBlanks false rest

def withoutEnd (line : Chars) : Chars := Chars.trimEnd isBlankOrBreak line

def Eye.seen (e : Eye) (line : Chars) : Chars :=
  let line := if e.folds then line.map Char.toLower else line
  match e.blanks with
  | .count => line
  | .tabs => withoutTabs 8 line
  | .trailing => withoutEnd line
  | .tabsAndTrailing => withoutEnd (withoutTabs 8 line)
  | .amount => squeezeBlanks false (withoutEnd line)
  | .ignored => line.filter (!isBlankOrBreak ·)

def Eye.seesEnd (e : Eye) : Bool := e.blanks = .count || e.blanks = .tabs

structure Lines where
  all : Array Chars
  ended : Bool

def Lines.of (text : Chars) : Lines :=
  let (lines, ended) := Chars.lines text
  ⟨lines.toArray, ended || lines.isEmpty⟩

variable (t : Lines)

def Lines.size : Nat := t.all.size

def Lines.line (i : Nat) : Chars := t.all.getD i []

def Lines.whole (i : Nat) : Chars :=
  t.line i ++ (if !t.ended && i + 1 = t.size then [] else ['\n'])

def Lines.part (start count : Nat) : List Chars :=
  ((List.range count).filter (start + · < t.size)).map fun i => t.line (start + i)

def commonLength : List Chars → List Chars → Nat
  | a :: as, b :: bs => if a = b then commonLength as bs + 1 else 0
  | _, _ => 0

structure Change where
  hunk : Hunk
  ignored : Bool

def Eye.ignores (e : Eye) (wide : Bool) (a b : Lines) (h : Hunk) : Bool :=
  let isTrivial (line : Chars) : Bool :=
    (e.ignoresEmpty && (if e.seesEnd then line.isEmpty else line.all isBlankOrBreak)) ||
      e.ignored.any fun r => Regex.matchesIn ⟨false, false, wide⟩ r (Letters.of wide line)
  (e.ignoresEmpty || !e.ignored.isEmpty) &&
    (a.part h.oldStart h.oldCount).all isTrivial && (b.part h.newStart h.newCount).all isTrivial

/-- What two texts differ in. Lines that are the same at the start, and at the end but for `horizon` of
them, are not looked at. -/
def Eye.changes (e : Eye) (wide : Bool) (horizon : Nat) (a b : Lines) : List Change :=
  let keyed (t : Lines) : List Chars :=
    t.all.toList.zipIdx.map fun (l, i) =>
      let l := e.seen l
      if !t.ended && i + 1 = t.size && e.seesEnd then l ++ ['\n'] else l
  let raw (t : Lines) : List Chars := (List.range t.size).map t.whole
  let front := commonLength (raw a) (raw b)
  let back := if a.ended = b.ended then
      commonLength ((raw a).drop front).reverse ((raw b).drop front).reverse - horizon
    else 0
  let middle (t : Lines) : List String := (((keyed t).take (t.size - back)).drop front).map .ofList
  let hunks := Edits.hunks (Edits.classesOf (middle a) (middle b))
  hunks.map fun h =>
    let h := { h with oldStart := h.oldStart + front, newStart := h.newStart + front }
    ⟨h, e.ignores wide a b h⟩

/-!
The forms in which the differences of texts are shown.
-/

structure LineStyle where
  expands : Bool
  /-- A tab follows the sign, so that columns stay the same. -/
  tabbed : Bool
  tabSize : Nat

def noEnd : Chars := "\\ No newline at end of file\n"

variable (s : LineStyle)

def LineStyle.lines (sign : Chars) (start count : Nat) : Chars :=
  let shown (line : Chars) : Chars :=
    let bare := Chars.trimEnd (· = ' ') sign
    let sign := if !s.tabbed then sign else if line.isEmpty then bare else bare ++ ['\t']
    sign ++ (if s.expands then withoutTabs s.tabSize line else line) ++ ['\n']
  let text := (t.part start count).flatMap shown
  if !t.ended && count > 0 && start + count = t.size then text ++ noEnd else text

def rangeText (start count : Nat) : Chars :=
  if count = 0 then Chars.ofNat start
  else if count = 1 then Chars.ofNat (start + 1)
  else Chars.ofNat (start + 1) ++ ',' :: Chars.ofNat (start + count)

def letterOf (h : Hunk) : Char := if h.oldCount = 0 then 'a' else if h.newCount = 0 then 'd' else 'c'

def normalHunk (a b : Lines) (h : Hunk) : Chars :=
  let letter := letterOf h
  rangeText h.oldStart h.oldCount ++ letter :: rangeText h.newStart h.newCount ++ '\n' ::
    s.lines a "< " h.oldStart h.oldCount ++
    (if letter = 'c' then "---\n".toList else []) ++ s.lines b "> " h.newStart h.newCount

/-- Changes that are so near to each other that they are shown together. Near a change that does not
count less is enough. -/
def nearGroups (context : Nat) : List Change → List (List Change)
  | [] => []
  | c :: rest =>
    match nearGroups context rest with
    | (d :: ds) :: more =>
      let limit := if c.ignored || d.ignored then context else 2 * context + 1
      if d.hunk.oldStart - (c.hunk.oldStart + c.hunk.oldCount) < limit then (c :: d :: ds) :: more
      else [c] :: (d :: ds) :: more
    | _ => [[c]]

variable (context : Nat)

def shownGroups (changes : List Change) : List (List Hunk) :=
  ((nearGroups context changes).filter fun g => g.any (!·.ignored)).map fun g => g.map (·.hunk)

/-- The lines that a group is shown with, in both texts: starts and stops. -/
structure Window where
  oldStart : Nat
  oldStop : Nat
  newStart : Nat
  newStop : Nat

def windowOf (a : Lines) (first last : Hunk) : Window :=
  let before := min context (min first.oldStart first.newStart)
  let oldStop := min a.size (last.oldStart + last.oldCount + context)
  ⟨first.oldStart - before, oldStop, first.newStart - before,
    last.newStart + last.newCount + (oldStop - (last.oldStart + last.oldCount))⟩

def headingOf (heading : Option Regex) (wide : Bool) (a : Lines) (start : Nat) : Chars :=
  match heading with
  | none => []
  | some r =>
    let fits (i : Nat) : Bool := Regex.matchesIn ⟨false, false, wide⟩ r (Letters.of wide (a.line i))
    match (List.range start).reverse.find? fits with
    | none => []
    | some i => ' ' :: withoutEnd (((a.line i).dropWhile isBlankOrBreak).take 40)

def countText (start count : Nat) : Chars :=
  if count = 1 then Chars.ofNat (start + 1)
  else Chars.ofNat (if count = 0 then start else start + 1) ++ ',' :: Chars.ofNat count

def unifiedLines (a b : Lines) (stop : Nat) : Nat → List Hunk → Chars
  | i, [] => s.lines a [' '] i (stop - i)
  | i, h :: rest =>
    s.lines a [' '] i (h.oldStart - i) ++ s.lines a ['-'] h.oldStart h.oldCount ++
      s.lines b ['+'] h.newStart h.newCount ++ unifiedLines a b stop (h.oldStart + h.oldCount) rest

def unifiedGroup (heading : Nat → Chars) (a b : Lines) (group : List Hunk) :
    Chars :=
  match group with
  | [] => []
  | first :: _ =>
    let w := windowOf context a first (group.getLastD first)
    "@@ -" ++ countText w.oldStart (w.oldStop - w.oldStart) ++ " +" ++
      countText w.newStart (w.newStop - w.newStart) ++ " @@" ++ heading w.oldStart ++ '\n' ::
      unifiedLines s a b w.oldStop w.oldStart group

def contextSide (t : Lines) (stop : Nat) (part : Hunk → Nat × Nat) (lone : Char)
    (isLone : Hunk → Bool) : Nat → List Hunk → Chars
  | i, [] => s.lines t [' ', ' '] i (stop - i)
  | i, h :: rest =>
    let (start, count) := part h
    let sign := if isLone h then lone else '!'
    s.lines t [' ', ' '] i (start - i) ++ s.lines t [sign, ' '] start count ++
      contextSide t stop part lone isLone (start + count) rest

def spanText (start stop : Nat) : Chars :=
  if stop ≤ start + 1 then Chars.ofNat stop else Chars.ofNat (start + 1) ++ ',' :: Chars.ofNat stop

def contextGroup (heading : Nat → Chars) (a b : Lines) (group : List Hunk) :
    Chars :=
  match group with
  | [] => []
  | first :: _ =>
    let w := windowOf context a first (group.getLastD first)
    let old := if group.all (·.oldCount = 0) then []
      else contextSide s a w.oldStop (fun h => (h.oldStart, h.oldCount)) '-' (·.newCount = 0) w.oldStart group
    let new := if group.all (·.newCount = 0) then []
      else contextSide s b w.newStop (fun h => (h.newStart, h.newCount)) '+' (·.oldCount = 0) w.newStart group
    "***************" ++ heading w.oldStart ++ "\n*** " ++ spanText w.oldStart w.oldStop ++
      " ****\n" ++ old ++ "--- " ++ spanText w.newStart w.newStop ++ " ----\n" ++ new

structure Sides where
  width : Nat
  tabSize : Nat
  expands : Bool
  wide : Bool
  /-- Lines that are the same are shown once, or not at all. -/
  leftOnly : Bool
  suppressed : Bool

namespace Sides

variable (s : Sides)

def columns : Nat × Nat :=
  let tab := if s.expands then 1 else s.tabSize
  let gap := tab + 3
  let middle := s.width / 2 + gap / 2 + (if s.width % 2 = 1 && gap % 2 = 1 then 1 else 0)
  let off := middle - middle % tab
  let half := min (off - 3) (s.width - off)
  (half, if half = 0 then s.width else off)

def gap (start stop : Nat) : Chars :=
  if start ≥ stop then []
  else if s.expands then List.replicate (stop - start) ' '
  else
    let next := (start / s.tabSize + 1) * s.tabSize
    if next > stop then List.replicate (stop - start) ' '
    else
      let tabs := (stop - next) / s.tabSize + 1
      let reached := next + (tabs - 1) * s.tabSize
      List.replicate tabs '\t' ++ List.replicate (stop - reached) ' '

/-- A line as far as it fits in a half: its text, and the column behind it. -/
def half (bound : Nat) : Nat → Nat → Nat → Chars → Chars × Nat
  | _, _, out, [] => ([], out)
  | indent, place, out, c :: rest =>
    if c = '\t' then
      let spaces := s.tabSize - place % s.tabSize
      if place ≠ out then half bound indent (place + spaces) out rest
      else
        let stop := out + spaces
        if s.expands then
          let stop := min stop bound
          let (text, col) := half bound indent (place + spaces) (max out stop) rest
          (List.replicate (stop - out) ' ' ++ text, col)
        else if stop < bound then
          let (text, col) := half bound indent (place + spaces) stop rest
          ('\t' :: text, col)
        else half bound indent (place + spaces) out rest
    else
      let width := if s.wide then (Width.ofLetter? c).getD 0 else 1
      let place := place + width
      if place ≤ bound then
        let (text, col) := half bound indent place place rest
        (c :: text, col)
      else half bound indent place out rest

/-- One row: a line of each text if there is one, and a sign between them. -/
def row (sign : Char) (left right : Option Chars) : Chars :=
  let (bound, second) := s.columns
  let isEnded (line : Option Chars) : Bool := line.any fun l => l.getLast? = some '\n'
  let letters (line : Chars) : Chars := Letters.of s.wide (line.takeWhile (· ≠ '\n'))
  let bytes (text : Chars) : Chars := Letters.toBytes s.wide text
  let (text, col) := match left with
    | some line => s.half bound 0 0 0 (letters line)
    | none => ([], 0)
  let (middle, col) :=
    if sign = ' ' then ([], col)
    else
      let place := (bound + second - 1) / 2
      let sign := if sign = '|' && isEnded left != isEnded right then if isEnded left then '/' else '\\'
        else sign
      (s.gap col place ++ [sign], max col place + 1)
  let behind := match right with
    | none => []
    | some line =>
      if line.head? = some '\n' then []
      else s.gap col second ++ (s.half bound second 0 0 (letters line)).1
  bytes text ++ middle ++ bytes behind ++ (if isEnded left || isEnded right then ['\n'] else [])

/-- Lines next to each other as long as both texts have some, and then the others, each with a sign. -/
def rows (a b : Lines) (both right left : Char) (i j count count' : Nat) : Chars :=
  let n := min count count'
  (List.range n).flatMap (fun k => s.row both (some (a.whole (i + k))) (some (b.whole (j + k)))) ++
    (List.range (count' - n)).flatMap (fun k => s.row right none (some (b.whole (j + n + k)))) ++
    (List.range (count - n)).flatMap (fun k => s.row left (some (a.whole (i + n + k))) none)

def common (a b : Lines) (i j count count' : Nat) : Chars :=
  if s.suppressed then []
  else if s.leftOnly then (List.range count).flatMap fun k => s.row '(' (some (a.whole (i + k))) none
  else s.rows a b ' ' ')' '(' i j count count'

def all (a b : Lines) : Nat → Nat → List Hunk → Chars
  | i, j, [] => s.common a b i j (a.size - i) (b.size - j)
  | i, j, h :: rest =>
    s.common a b i j (h.oldStart - i) (h.newStart - j) ++
      s.rows a b '|' '>' '<' h.oldStart h.newStart h.oldCount h.newCount ++
      all a b (h.oldStart + h.oldCount) (h.newStart + h.newCount) rest

end Sides

end Prune.Utility.Diff
