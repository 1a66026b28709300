import Prune.Shell.Pattern
import Prune.Utility.Clock
import Prune.Utility.Diff.Form
import Prune.Utility.Join

/-!
Files and directories compared line by line.
-/

namespace Prune.Utility

open Host Util Effort

def compareUsage (text : Chars) : Util Nat := do
  complain text
  let name := (← read).name
  failWith 2 ("Try '" ++ name ++ " --help' for more information.")

namespace Diff

inductive Form where
  | normal
  | unified (context : Nat)
  | context (context : Nat)
  | sides (s : Sides)

def Form.showsSame : Form → Bool
  | .sides s => !s.suppressed
  | _ => false

def Form.horizon : Form → Nat
  | .unified n | .context n => n
  | _ => 0

structure Manner where
  eye : Eye
  form : Form
  style : LineStyle
  heading : Option Regex
  wide : Bool
  recursive : Bool
  brief : Bool
  sameToo : Bool
  /-- A file that is missing on the second side, or on the first, is taken as empty. -/
  missingNew : Bool
  missingOld : Bool
  asText : Bool
  stripsReturns : Bool
  labels : List Chars
  excluded : List Chars
  given : Chars

namespace Manner

def text (m : Manner) (labelA labelB : Chars) (a b : Lines) (changes : List Change) : Chars :=
  let counted := (changes.filter (!·.ignored)).map (·.hunk)
  let heading (start : Nat) : Chars := headingOf m.heading m.wide a start
  match m.form with
  | .normal => counted.flatMap (normalHunk m.style a b)
  | .unified n =>
    "--- " ++ labelA ++ "\n+++ " ++ labelB ++ '\n' ::
      (shownGroups n changes).flatMap (unifiedGroup m.style n heading a b)
  | .context n =>
    "*** " ++ labelA ++ "\n--- " ++ labelB ++ '\n' ::
      (shownGroups n changes).flatMap (contextGroup m.style n heading a b)
  | .sides s => s.all a b 0 0 counted

def label (name : Chars) : Util Chars := do
  let time ← if name = ['-'] then (fun n : Nat => (n : Int)) <$> ask .now
    else do pure ((((← disk).facts true name).toOption.map (·.stamp.modified)).getD 0)
  return name ++ '\t' :: timeText (← zone) time "%Y-%m-%d %H:%M:%S.%N %z"

def withoutReturns : Chars → Chars
  | '\x0d' :: '\n' :: rest => '\n' :: withoutReturns rest
  | c :: rest => c :: withoutReturns rest
  | [] => []

def compare (m : Manner) (nested : Bool) (nameA nameB textA textB : Chars) : Util Nat := do
  let pair : Chars := nameA ++ " and " ++ nameB
  let identical : Util Nat := do
    if m.sameToo then printLine ("Files " ++ pair ++ " are identical")
    return 0
  let show? := m.form.showsSame && !m.brief
  if textA = textB && !show? then identical
  else if !m.asText && (textA.contains '\x00' || textB.contains '\x00') then
    if textA = textB then identical
    else
      printLine ((if m.brief then "Files " else "Binary files ").toList ++ pair ++ " differ")
      return 1
  else
    let strip (text : Chars) : Chars := if m.stripsReturns then withoutReturns text else text
    let a := Lines.of (strip textA)
    let b := Lines.of (strip textB)
    let changes := m.eye.changes m.wide m.form.horizon a b
    let differs := changes.any (!·.ignored)
    if !differs && !show? then identical
    else if m.brief then
      printLine ("Files " ++ pair ++ " differ")
      return 1
    else
      if nested then printLine ("diff " ++ m.given ++ nameA ++ ' ' :: nameB)
      let labelOf (i : Nat) (name : Chars) : Util Chars := (m.labels[i]?.map pure).getD (label name)
      print (m.text (← labelOf 0 nameA) (← labelOf 1 nameB) a b changes)
      if !differs then identical
      else return 1

end Manner

def mergeNames : Nat → List Chars → List Chars → List (Chars × Bool × Bool)
  | 0, _, _ => []
  | _, [], bs => bs.map fun b => (b, false, true)
  | _, as, [] => as.map fun a => (a, true, false)
  | n + 1, a :: as, b :: bs =>
    match compareChars a b with
    | .lt => (a, true, false) :: mergeNames n as (b :: bs)
    | .gt => (b, false, true) :: mergeNames n (a :: as) bs
    | .eq => (a, true, true) :: mergeNames n as bs

def Manner.take (m : Manner) (isOld : Bool) (d : Disk) (name : Chars) : Util (Option Chars) := do
  let isForgiven := if isOld then m.missingOld else m.missingNew
  if isForgiven && name ≠ ['-'] && !d.exists? name then return some []
  match ← contents name with
  | .ok text => return some text
  | .error f =>
    complainPlainly name f
    return none

def mismatch (a b : Chars) (ea eb : Option Entry) : Util Nat := do
  let kind (e : Option Entry) : Chars := (e.map kindText).getD []
  printLine ("File " ++ a ++ " is a " ++ kind ea ++ " while file " ++ b ++ " is a " ++ kind eb)
  return 1

/-- Compares what two directories hold, name by name. -/
def inDirectories (m : Manner) (compare : Chars → Chars → Util Nat) (a b : Chars) (as bs : List Chars) : Util Nat :=
  let isOut (name : Chars) : Bool := m.excluded.any fun p => Shell.matchesText .fileNames p name
  let names := (mergeNames (as.length + bs.length + 1) as bs).filter fun (name, _, _) => !isOut name
  forEach names fun (name, inOld, inNew) => do
    if (inOld && inNew) || (inOld && m.missingNew) || (inNew && m.missingOld) then
      compare (inside a name) (inside b name)
    else
      printLine ("Only in " ++ (if inOld then a else b) ++ ": " ++ name)
      return 1

def compareAt (m : Manner) : Nat → Bool → Chars → Chars → Effort Nat
  | 0, _, _, _ => return 2
  | fuel + 1, nested, a, b => do
    let d ← disk
    let entry (name : Chars) : Option Entry := if name = ['-'] then none else (d.stat name).toOption
    let isDir (name : Chars) : Bool := (entry name).any Entry.isDir
    let names (name : Chars) : Effort (List Chars) := insist 2 (name ++ ": " ++ ·.text) (namesIn d name)
    let both (as bs : List Chars) : Util Nat :=
      inDirectories m (fun a b => (compareAt m fuel true a b).status) a b as bs
    let aDir := isDir a
    let isForgiven := if aDir then m.missingNew else m.missingOld
    if aDir && isDir b then
      if nested && !m.recursive then
        printLine ("Common subdirectories: " ++ a ++ " and " ++ b)
        return 0
      both (← names a) (← names b)
    else if !aDir && !isDir b then
      let textA ← m.take true d a
      let textB ← m.take false d b
      match textA, textB with
      | some x, some y => m.compare nested a b x y
      | _, _ => return 2
    else if nested then
      if (entry (if aDir then b else a)).isNone && m.recursive && isForgiven then
        if aDir then both (← names a) [] else both [] (← names b)
      else mismatch a b (entry a) (entry b)
    else if (if aDir then b else a) = ['-'] then refuse 2 "cannot compare '-' to a directory"
    else if aDir then compareAt m fuel nested (inside a (baseName b)) b
    else compareAt m fuel nested a (inside b (baseName a))

inductive Flaw where
  | usage (words : Chars)
  | plain (words : Chars)

def styleOf? : String → Option String
  | "u" | "U" | "unified" => some "unified"
  | "c" | "C" | "context" => some "context"
  | "y" => some "sides"
  | "normal" => some "normal"
  | _ => none

def number (what : String) (text : Chars) : Except Flaw Nat :=
  match Chars.toNat? text with
  | some n => .ok n
  | none => .error (.usage ("invalid " ++ what.toList ++ ' ' :: plainlyQuoted text))

def contextOf (p : Parsed) : Except Flaw Nat := do
  let sizes ← p.options.filterMapM fun o =>
    match o.key with
    | "unified" | "context" =>
      if o.value.isEmpty then return none else do return some (← number "context length" o.value)
    | "U" | "C" => do return some (← number "context length" o.value)
    | _ => return none
  let digits := (p.options.map (·.key.toList)).filter (·.all Char.isDigit)
  let given := Chars.toNat? digits.flatten
  return if sizes.isEmpty then given.getD 3 else sizes.foldl max (given.getD 0)

def formOf (p : Parsed) (wide : Bool) : Except Flaw Form := do
  let styles := (p.options.filterMap fun o => styleOf? o.key).eraseDups
  let context ← contextOf p
  let widths ← (p.values "W").mapM (number "width")
  let tabs ← (p.values "tabsize").mapM (number "tabsize")
  if styles.length > 1 then .error (.usage "conflicting output style options")
  else if widths.eraseDups.length > 1 then .error (.usage "conflicting width options")
  else
    return match styles.head? with
      | some "unified" => .unified context
      | some "context" => .context context
      | some "sides" =>
        .sides ⟨widths.headD 130, tabs.headD 8, p.has "t", wide, p.has "left", p.has "suppress"⟩
      | _ => .normal

def pattern (wide : Bool) (text : Chars) : Except Flaw Regex :=
  match Regex.parse { Regex.basic with wide } (Letters.of wide text) with
  | .ok r => .ok r
  | .error words => .error (.plain (text ++ ": " ++ words.toList))

def mannerOf (p : Parsed) (wide : Bool) (given : List Chars) : Except Flaw Manner := do
  let form ← formOf p wide
  let ignored ← (p.values "I").mapM (pattern wide)
  let headings ← (p.values "F").mapM (pattern wide)
  let named ← if p.has "p" then some <$> pattern wide "^[[:alpha:]$_]" else pure none
  let tabs ← (p.values "tabsize").mapM (number "tabsize")
  return {
    eye :=
      { folds := p.has "i"
        blanks :=
          if p.has "w" then .ignored
          else if p.has "b" then .amount
          else if p.has "Z" then if p.has "E" then .tabsAndTrailing else .trailing
          else if p.has "E" then .tabs
          else .count
        ignoresEmpty := p.has "B"
        ignored }
    form
    style := ⟨p.has "t", p.has "T", tabs.headD 8⟩
    heading := headings.getLast? <|> named
    wide
    recursive := p.has "r"
    brief := p.has "q"
    sameToo := p.has "s"
    missingNew := p.has "N"
    missingOld := p.has "N" || p.has "P"
    asText := p.has "a"
    stripsReturns := p.has "cr"
    labels := p.values "L"
    excluded := p.values "x"
    given := given.flatMap fun a => quotedIfNeeded a ++ [' '] }

def withoutOperands : List Chars → List Chars → List Chars
  | [], _ => []
  | args, [] => args
  | arg :: args, operand :: operands =>
    if arg = operand then withoutOperands args operands else arg :: withoutOperands args (operand :: operands)

def options : List OptionSpec :=
  optionsOf "0123456789aBbC:cdEF:hiI:L:NpPqrstTuU:wW:x:yZ" "brief=q recursive=r unified::
    label=L: ignore-case=i ignore-all-space=w ignore-space-change=b ignore-blank-lines=B
    ignore-trailing-space=Z ignore-matching-lines=I: show-c-function=p new-file=N report-identical-files=s
    text=a context:: strip-trailing-cr=cr color:: minimal=d normal side-by-side=y width=W:
    left-column=left suppress-common-lines=suppress expand-tabs=t initial-tab=T tabsize: exclude=x:"

end Diff

def withCompareOptions (specs : List OptionSpec) (body : Parsed → Applet) : Applet := do
  let args ← args
  match readArguments specs true (args.length + 1) args with
  | .ok p => body p
  | .error words => compareUsage words

def diff : Applet :=
  withCompareOptions Diff.options fun p => do
  let args ← args
  match Diff.mannerOf p (← wide) (Diff.withoutOperands args p.operands) with
  | .error (.usage words) => compareUsage words
  | .error (.plain words) => failWith 2 words
  | .ok m =>
    match p.operands with
    | [] => compareUsage ("missing operand after " ++ plainlyQuoted ((args.getLast?).getD "diff"))
    | [a] => compareUsage ("missing operand after " ++ plainlyQuoted a)
    | [a, b] => (Diff.compareAt m 256 false a b).status
    | _ :: _ :: extra :: _ => compareUsage ("extra operand " ++ plainlyQuoted extra)

/-!
Files compared byte by byte.
-/

def commonStart : Nat → Nat → Chars → Chars → Nat × Nat
  | n, line, a :: as, b :: bs =>
    if a = b then commonStart (n + 1) (if a = '\n' then line + 1 else line) as bs else (n, line)
  | n, line, _, _ => (n, line)

def differences : Nat → Chars → Chars → List (Nat × Char × Char)
  | n, a :: as, b :: bs => if a = b then differences (n + 1) as bs else (n, a, b) :: differences (n + 1) as bs
  | _, _, _ => []

def cmpSkips (p : Parsed) : Except Chars (Nat × Nat) := do
  let amount (what : String) (text : Chars) : Except Chars Nat :=
    match amount? "kKMGTPEZY0" text with
    | some n => .ok n
    | none => .error ("invalid " ++ what.toList ++ " value " ++ plainlyQuoted text)
  let given ← (p.values "i").mapM fun (value : Chars) => do
    let (first, second) := Chars.cut ':' value
    let a ← amount "--ignore-initial" first
    return (a, (← second.mapM (amount "--ignore-initial")).getD a)
  let operand (i : Nat) : Except Chars Nat := do
    return (← p.operands[i]?.mapM (amount "--ignore-initial")).getD 0
  let a ← operand 2
  let b ← operand 3
  let (c, d) := given.getLastD (0, 0)
  return (max a c, max b d)

def cmpTexts (p : Parsed) (widest : Option Nat) (first second a b : Chars) : Util Nat := do
  if a = b then return 0
  else if p.has "s" then return 1
  else
    let shorter := if a.length < b.length then (first, a) else (second, b)
    let (n, line) := commonStart 0 1 a b
    let octal (c : Char) : Chars := Chars.padLeft 3 (Nat.toDigits 8 c.toNat)
    if p.has "l" then
      let width := (Chars.ofNat (widest.getD (2 ^ 63 - 1))).length
      for (i, x, y) in differences 1 a b do
        let values := if p.has "b" then
            octal x ++ ' ' :: Chars.padRight 4 (byteText x) ++ ' ' :: octal y ++ ' ' :: byteText y
          else octal x ++ ' ' :: octal y
        printLine (Chars.padLeft width (Chars.ofNat i) ++ ' ' :: values)
    if n = shorter.2.length || (p.has "l" && a.length ≠ b.length) then
      let place : Chars :=
        if shorter.2.isEmpty then " which is empty"
        else
          let line := if p.has "l" then []
            else if shorter.2.getLast? = some '\n' then ", line ".toList ++ Chars.ofNat (line - 1)
            else ", in line " ++ Chars.ofNat line
          " after byte " ++ Chars.ofNat shorter.2.length ++ line
      complain ("EOF on " ++ shorter.1 ++ place)
    else if !p.has "l" then
      let env := (← read).env
      let given (name : String) : Option Chars := (env.lookup name.toList).filter (!·.isEmpty)
      let language := (given "LC_ALL" <|> given "LC_MESSAGES" <|> given "LANG").getD []
      let isPlain := !(["c.utf-8", "c.utf8"].any fun name => language.map Char.toLower = name.toList)
      let x := a.getD n ' '
      let y := b.getD n ' '
      printLine (first ++ ' ' :: second ++ " differ: " ++
        (if isPlain && !p.has "b" then "char " else "byte ").toList ++ Chars.ofNat (n + 1) ++
        ", line " ++ Chars.ofNat line ++
        (if p.has "b" then
          " is " ++ octal x ++ ' ' :: byteText x ++ ' ' :: octal y ++ ' ' :: byteText y else []))
    return 1

def cmp : Applet :=
  withCompareOptions (optionsOf "bi:ln:sv" "silent=s quiet=s verbose=l bytes=n: print-bytes=b
    ignore-initial=i:") fun p => do
  let limit := (p.value? "n").map fun text => (text, amount? "kKMGTPEZY0" text)
  match p.operands, cmpSkips p, limit with
  | _, _, some (text, none) => compareUsage ("invalid --bytes value " ++ plainlyQuoted text)
  | _, .error words, _ => compareUsage words
  | [], _, _ => compareUsage ("missing operand after " ++
      plainlyQuoted ((← args).getLastD "cmp"))
  | _ :: _ :: _ :: _ :: extra :: _, _, _ => compareUsage ("extra operand " ++ plainlyQuoted extra)
  | first :: others, .ok (skipA, skipB), limit =>
    if p.has "l" && p.has "s" then compareUsage "options -l and -s are incompatible"
    else status do
      let second := others.headD ['-']
      let part (name : Chars) (skip : Nat) : Effort Chars := do
        match ← contents name with
        | .ok text => return (text.drop skip).take ((limit.bind (·.2)).getD text.length)
        | .error f =>
          if !p.has "s" || f ≠ .notFound then complainPlainly name f
          throw 2
      let a ← part first skipA
      let b ← part second skipB
      let d ← disk
      let size (name text : Chars) : Option Nat :=
        if (d.stat name) matches .ok (.file ..) then some text.length else none
      cmpTexts p ([size first a, size second b].filterMap id).min? first second a b

end Prune.Utility
