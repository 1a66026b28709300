import Prune.Utility.Amount
import Prune.Utility.Source

/-!
Programs that print the start or the end of files, or pass on what they read.
-/

namespace Prune.Utility

open Host Util

def firstLinesAt (mark : Char) : Nat → Chars → Chars
  | _, [] | 0, _ => []
  | n + 1, c :: rest => c :: firstLinesAt mark (if c = mark then n else n + 1) rest
termination_by _ text => text.length

def endedParts (mark : Char) (text : Chars) : List Chars :=
  let parts := Chars.splitAt mark text
  parts.dropLast.map (· ++ [mark]) ++ (if parts.getLast? = some [] then [] else parts.getLast?.toList)

def lastLinesAt (mark : Char) (n : Nat) (text : Chars) : Chars :=
  let parts := endedParts mark text
  (parts.drop (parts.length - n)).flatten

def readEnough (fd : Nat) (mark : Option Char) (n : Nat) :
    Nat → Nat → List Chars → Util (Except Fault Chars)
  | 0, _, acc => return .ok acc.reverse.flatten
  | fuel + 1, got, acc => do
    if n ≤ got then return .ok acc.reverse.flatten
    match ← ask (.read fd 8192 false) with
    | .error f => return .error f
    | .ok [] => return .ok acc.reverse.flatten
    | .ok text =>
      readEnough fd mark n fuel (got + ((mark.map text.count).getD text.length)) (text :: acc)

def titleOf (file : Chars) : Chars := if file = ['-'] then "standard input" else file

def header (first : Bool) (name : Chars) : Chars :=
  (if first then [] else ['\n']) ++ "==> " ++ titleOf name ++ " <==\n"

def unread (file : Chars) (f : Fault) : Chars := "error reading " ++ quotedName (titleOf file) ++ ": " ++ f.text

structure Portion where
  byLines : Bool
  /-- At the start all but the last, at the end all from there on. -/
  signed : Bool
  count : Nat

def portion (sign : Char) (p : Parsed) : Except Chars Portion :=
  p.options.foldlM (fun portion o =>
    if o.key ≠ "n" && o.key ≠ "c" then .ok portion
    else do
      let byLines := o.key = "n"
      let digits := if o.value.head? = some '-' then o.value.tail else o.value
      let n ← boundedAmount (if byLines then "invalid number of lines" else "invalid number of bytes")
        commonUnits 0 largestAmount digits
      return ⟨byLines, o.value.head? = some sign || (sign = '+' && portion.signed), n⟩)
    ⟨true, false, 10⟩

structure OldPortion where
  byLines : Bool := true
  unit : Chars := []
  letters : List Chars := []

def oldLetters : OldPortion → Chars → Except Char OldPortion
  | o, [] => .ok o
  | o, c :: rest =>
    match c with
    | 'c' => oldLetters { o with byLines := false, unit := [] } rest
    | 'b' | 'k' | 'm' => oldLetters { o with byLines := false, unit := [c] } rest
    | 'l' => oldLetters { o with byLines := true } rest
    | 'q' | 'v' | 'z' => oldLetters { o with letters := o.letters ++ [['-', c]] } rest
    | c => .error c

def headArguments (args : List Chars) : Except Char (List Chars) :=
  match args with
  | ('-' :: c :: more) :: rest =>
    if !c.isDigit then .ok args
    else do
      let (count, letters) := (c :: more).span Char.isDigit
      let o ← oldLetters {} letters
      return (if o.byLines then "-n" else "-c").toList :: (count ++ o.unit) :: o.letters ++ rest
  | args => .ok args

def headPart (portion : Portion) (mark : Char) (text : Chars) : Chars :=
  match portion.byLines, portion.signed with
  | true, true =>
    let parts := endedParts mark text
    (parts.take (parts.length - portion.count)).flatten
  | true, false => firstLinesAt mark portion.count text
  | false, true => text.take (text.length - portion.count)
  | false, false => text.take portion.count

def isTitled (p : Parsed) : Bool := ((p.lastKey? ["q", "v"]).map (· == "v")).getD (p.files.length > 1)

def headFiles (p : Parsed) (portion : Portion) : Applet := do
  let mark := p.mark
  let (status, _) ← p.files.foldlM (fun (status, first) file => do
    match ← Source.ofFile file mark with
    | .error f =>
      complain (unopened file f)
      return (1, first)
    | .ok s =>
      if isTitled p then print (header first file)
      let text ← if portion.signed then Act.readAll s.fd
        else readEnough s.fd (if portion.byLines then some mark else none) portion.count Act.patience 0 []
      let status ← match text with
        | .error f =>
          complain (unread file f)
          pure 1
        | .ok text =>
          let kept := headPart portion mark text
          print kept
          ask (.rewind s.fd (text.length - kept.length))
          pure status
      s.close
      return (status, false)) (0, true)
  return status

def head : Applet := fun inv =>
  match headArguments inv.args with
  | .error c => missing ("invalid trailing option -- " ++ [c]) inv
  | .ok args =>
    withOptions (optionsOf "c:n:qvz" "lines=n: bytes=c: quiet=q silent=q verbose=v
      zero-terminated=z") true 1 (fun p => do
      match portion '-' p with
      | .error words => failWith 1 words
      | .ok portion => headFiles p portion)
      { inv with args }

def tailPart (portion : Portion) (mark : Char) (text : Chars) : Chars :=
  if portion.byLines then lastLinesAt mark portion.count text else text.drop (text.length - portion.count)

def passBehind (fd : Nat) (byLines : Bool) (mark : Char) : Nat → Nat → Util (Option Fault)
  | 0, _ => return none
  | n + 1, skipped => do
    match ← ask (.read fd Act.blockSize false) with
    | .error f => return some f
    | .ok [] => return none
    | .ok text =>
      let front := if byLines then firstLinesAt mark skipped text else text.take skipped
      print (text.drop front.length)
      let passed := if byLines then front.count mark else front.length
      passBehind fd byLines mark n (skipped - passed)

/-- A file whose growth is watched: its name, where it is read, and how much of it has been read. -/
structure Followed where
  name : Chars
  fd : Nat

def lookInterval : Nat := 10000

def follow (titled : Bool) (files : List Followed) : Nat → Option Chars → Util Unit
  | 0, _ => return
  | n + 1, last => do
    let last ← files.foldlM (fun last f => do
      match ← ask (.read f.fd Act.blockSize false) with
      | .ok (c :: rest) =>
        if titled && last ≠ some f.name then print (header false f.name)
        print (c :: rest)
        return some f.name
      | _ => return last) last
    flush
    ask (.sleepUntil ((← ask .now) + lookInterval))
    follow titled files n last

/-- Prints the end of one file; whether a title was printed, and what has to be watched. -/
def tailFile (portion : Portion) (mark : Char) (titled first keeps : Bool) (file : Chars) :
    Util (Nat × Bool × List Followed) := do
  match ← Source.ofFile file mark with
  | .error f =>
    complain (unopened file f)
    return (1, first, [])
  | .ok s =>
    if titled then print (header first file)
    let fault ← if portion.signed then
        passBehind s.fd portion.byLines mark Act.patience (portion.count - 1)
      else
        match ← Act.readAll s.fd with
        | .error f => pure (some f)
        | .ok text =>
          print (tailPart portion mark text)
          pure none
    if keeps && fault.isNone then return (0, false, [⟨file, s.fd⟩])
    s.close
    fault.forM fun f => complain (unread file f)
    return (if fault.isSome then 1 else 0, false, [])

def tailFiles (p : Parsed) (portion : Portion) : Applet := do
  let mark := p.mark
  let titled := isTitled p
  let follows := p.has "f" || p.has "F"
  if portion.count = 0 && !portion.signed && !follows then return 0
  let (status, _, watched) ← p.files.foldlM (fun (status, first, watched) file => do
    let (flaw, first, more) ← tailFile portion mark titled first follows file
    return (max status flaw, first, watched ++ more)) (0, true, [])
  if !follows then return status
  flush
  if watched.isEmpty then failWith 1 "no files remaining"
  else
    follow titled watched Act.patience (watched.getLast?.map (·.name))
    return status

/-- An option such as `-5` or `+5` in front of at most one file as new ones. -/
def tailArguments (args : List Chars) : List Chars :=
  let isAlone := match args with
    | [_] => true
    | [_, file] => !(file.head? = some '-' && file.length > 1)
    | [_, mark, _] => mark = "--"
    | _ => false
  match args with
  | (sign :: text) :: rest =>
    let (count, behind) := text.span Char.isDigit
    let (byLines, unit, behind) := match behind with
      | 'b' :: more => (false, 512, more)
      | 'c' :: more => (false, 1, more)
      | 'l' :: more | more => (true, 1, more)
    let follows := behind = ['f']
    let isOld := isAlone && (sign = '+' || (sign = '-' && !text.isEmpty && text ≠ ['c'])) &&
      (behind.isEmpty || follows)
    if !isOld then args
    else
      let n := (Chars.toNat? count).map fun n => if unit = 512 then n * 512 else n
      let amount := Chars.ofNat (n.getD (if unit = 512 then 5120 else 10))
      (if byLines then "-n" else "-c").toList :: (if sign = '+' then '+' :: amount else amount) ::
        (if follows then "-f" :: rest else rest)
  | args => args

def tail : Applet := fun inv =>
  withOptions (lettersOf "0123456789c:Fn:qs:vz" ++ ⟨"f", some 'f', none, .none⟩ ::
    longsOf "lines=n: bytes=c: quiet=q silent=q verbose=v zero-terminated=z follow=f:: retry pid:
      sleep-interval=s: max-unchanged-stats=max:") true 1 (fun p => do
    match p.options.find? fun o => (Chars.toNat? o.key.toList).isSome with
    | some o => failWith 1 ("option used in invalid context -- " ++ o.key.toList)
    | none =>
      match portion '+' p with
      | .error words => failWith 1 words
      | .ok portion => tailFiles p portion)
    { inv with args := tailArguments inv.args }

def passOn (fds : List Nat) : Nat → Util Unit
  | 0 => return
  | n + 1 => do
    match ← Act.ask (.read 0 Act.blockSize false) with
    | .error _ | .ok [] => return
    | .ok text =>
      for fd in fds do
        let _ ← Act.write fd text
      passOn fds n

def writeErrorWords : List (String × Nat) := [("warn", 0), ("warn-nopipe", 1), ("exit", 2), ("exit-nopipe", 3)]

def tee : Applet :=
  withOptions (optionsOf "aip" "append=a ignore-interrupts=i output-error=error::") true 1 fun p =>
  withWords "--output-error" writeErrorWords 1 ((p.values "error").filter (!·.isEmpty)) fun _ => do
  let access := if p.has "a" then Access.appending else Access.writing
  let (status, fds) ← p.operands.foldlM (fun (status, fds) file => do
    match ← ask (.open file access 0o666) with
    | .ok fd => return (status, fds ++ [fd])
    | .error f =>
      complainOf file f
      return (1, fds)) (0, [1])
  passOn fds Act.patience
  return status

def repeatLine (block : Chars) : Nat → Util Unit
  | 0 => return
  | n + 1 => do
    match ← Act.write 1 block with
    | .ok _ => repeatLine block n
    | .error _ => return

def yes : Applet := do
  let args ← args
  let args := if args.head? = some "--" then args.tail else args
  let line := (if args.isEmpty then ['y'] else Chars.join [' '] args) ++ ['\n']
  repeatLine (List.replicate (4096 / line.length + 1) line).flatten Act.patience
  return 1

end Prune.Utility
