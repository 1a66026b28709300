import Prune.Regex.Parse
import Prune.Utility.Sort

/-!
The program that prints files one after the other.
-/

namespace Prune.Utility

open Host Util

structure LineMarks where
  number : Bool
  numberFilled : Bool
  ends : Bool
  tabs : Bool
  controls : Bool
  squeeze : Bool

/-- Where printing stands: the next number, and how many ends of lines came in a row. It is less than
nothing within a line. -/
structure PrintPlace where
  number : Nat
  breaks : Int

def PrintPlace.numbered (s : PrintPlace) (counts : Bool) : Chars × Nat :=
  if counts then (Chars.padLeft 6 (Chars.ofNat s.number) ++ ['\t'], s.number + 1) else ([], s.number)

namespace LineMarks

def isPlain (m : LineMarks) : Bool :=
  !(m.number || m.numberFilled || m.ends || m.tabs || m.controls || m.squeeze)

def visible (m : LineMarks) (c : Char) : Chars :=
  if c = '\t' then if m.tabs then ['^', 'I'] else [c]
  else if m.controls then byteText c
  else [c]

def marked (m : LineMarks) : PrintPlace → List Chars → Chars → PrintPlace × List Chars
  | s, parts, [] => (s, parts)
  | s, parts, '\n' :: rest =>
    let breaks := min 2 (s.breaks + 1)
    let isEmpty := breaks > 0
    if breaks ≥ 2 && m.squeeze then m.marked { s with breaks } parts rest
    else
      let (front, number) := s.numbered (isEmpty && m.number && !m.numberFilled)
      let last := if m.ends then ['$', '\n'] else ['\n']
      m.marked ⟨number, breaks⟩ (last :: front :: parts) rest
  | s, parts, c :: rest =>
    let (front, number) := s.numbered (s.breaks ≥ 0 && (m.number || m.numberFilled))
    let text := if c = '\x0d' && m.ends && !m.controls && rest.head? = some '\n' then ['^', 'M']
      else m.visible c
    m.marked ⟨number, -1⟩ (text :: front :: parts) rest

end LineMarks

def cat : Applet :=
  withOptions (optionsOf "AbeEnstTuv" "number=n number-nonblank=b show-ends=E show-tabs=T
    show-all=A squeeze-blank=s show-nonprinting=v") true 1 fun p => do
  let has (keys : List String) : Bool := keys.any p.has
  let marks : LineMarks := ⟨p.has "n", p.has "b", has ["A", "e", "E"], has ["A", "t", "T"],
    has ["A", "e", "t", "v"], p.has "s"⟩
  let files := p.files
  let out ← ask (.describe 1)
  let (status, _) ← files.foldlM (fun ((status, s) : Nat × PrintPlace) file => do
    let place := match (← disk).resolve true file with
      | .ok (.entry loc _) => some loc
      | _ => none
    let isOutput := file ≠ ['-'] && place.isSome && out.any fun o => o.isFile && o.place = place && o.size > 0
    if isOutput then
      complain (namedFile file ++ ": input file is output file")
      return (1, s)
    match ← contents file with
    | .error f =>
      complainOf file f
      return (1, s)
    | .ok text =>
      let (s, parts) := if marks.isPlain then (s, [text]) else marks.marked s [] text
      print parts.reverse.flatten
      flush
      return (status, s)) (0, ⟨1, 0⟩)
  return status

/-!
Texts turned around: the order of their lines, or the letters of each line.
-/

/-- Where the separators of a text stand, from its end on: a place and a length. `size` is how much of
the text comes before. -/
def separatorsIn (sep text : Chars) : List (Nat × Nat) :=
  let rec go : Nat → Nat → Chars → List (Nat × Nat)
    | 0, _, _ | _, _, [] => []
    | n + 1, size, rest@(_ :: more) =>
      if sep.reverse.isPrefixOf rest then
        (size - sep.length, sep.length) :: go n (size - sep.length) (rest.drop sep.length)
      else go n (size - 1) more
  go (text.length + 1) text.length text.reverse

def fittingIn (r : Regex) (text : Chars) : List (Nat × Nat) :=
  let chars := text.toArray
  let rec go : Nat → Nat → List (Nat × Nat) → List (Nat × Nat)
    | 0, _, found => found
    | n + 1, i, found =>
      match Regex.find? ⟨false, true, false⟩ chars r i with
      | none => found
      | some (start, stop) =>
        if stop = start then if start < chars.size then go n (start + 1) found else found
        else go n stop ((start, stop - start) :: found)
  go (text.length + 1) 0 []

/-- The parts of a text between places, the last first. With `before` a part starts with its separator,
and else it ends with it. -/
def partsFromEnd (before : Bool) (text : Chars) (places : List (Nat × Nat)) : List Chars :=
  let cuts := places.map fun (start, length) => if before then start else start + length
  let rec go : Nat → List Nat → List Chars
    | stop, [] => [text.take stop]
    | stop, c :: rest => ((text.take stop).drop c) :: go c rest
  go text.length cuts

def tac : Applet :=
  withOptions (optionsOf "brs:" "before=b regex=r separator=s:") true 1 fun p => do
  let sep := match p.value? "s" with
    | some [] => ['\x00']
    | some s => s
    | none => ['\n']
  let pattern := if p.has "r" then (Regex.parse Regex.basic sep).map some else .ok none
  Effort.status do
  let pattern ← Effort.insist 1 String.toList pattern
  forEach p.files fun file => Effort.status do
    let s ← Effort.insist 1 (fun f => "failed to open " ++ quotedName file ++ " for reading: " ++ f.text)
      (← Source.ofFile file '\n')
    let text ← Act.readAll s.fd
    s.close
    let text ← Effort.insist 1 (fun f => namedFile file ++ ": read error: " ++
      if f = .isDirectory then "Invalid argument".toList else f.text) text
    let places := match pattern with
      | some r => fittingIn r text
      | none => separatorsIn sep text
    for part in partsFromEnd (p.has "b") text places do
      print part
    return 0

def rev : Applet :=
  withOptions (optionsOf "0" "zero=0") true 1 fun p => do
  let wide ← wide
  let mark := if p.has "0" then '\x00' else '\n'
  forEach p.files fun file => Effort.status do
    let s ← Effort.insist 1 ("cannot open " ++ file ++ ": " ++ ·.text) (← Source.ofFile file mark)
    let (_, s) ← s.forLines (fun _ line ended =>
      print (Letters.toBytes wide (Letters.of wide line).reverse ++ (if ended then [mark] else []))) ()
    s.close
    return 0

/-!
A program that gives files a length.
-/

inductive LengthChange where
  | exactly | by_ | atMost | atLeast | down | up
deriving DecidableEq

structure NewLength where
  change : LengthChange
  amount : Int

def NewLength.of (l : NewLength) (old : Nat) : Nat :=
  let n := l.amount.toNat
  match l.change with
  | .exactly => n
  | .by_ => ((old : Int) + l.amount).toNat
  | .atMost => min old n
  | .atLeast => max old n
  | .down => old / n * n
  | .up => (old + n - 1) / n * n

inductive LengthFlaw where
  | plain (words : Chars)
  | usage (words : Chars)

def newLength (text : Chars) : Except LengthFlaw NewLength :=
  let text := text.dropWhile isBlankOrBreak
  let (change, text) : LengthChange × Chars := match text with
    | '<' :: rest => (.atMost, rest)
    | '>' :: rest => (.atLeast, rest)
    | '/' :: rest => (.down, rest)
    | '%' :: rest => (.up, rest)
    | rest => (.exactly, rest)
  let text := text.dropWhile isBlankOrBreak
  let isSigned := text.head? = some '+' || text.head? = some '-'
  if isSigned && change ≠ .exactly then .error (.usage "multiple relative modifiers specified")
  else
    let digits := if isSigned then text.tail else text
    let isNumber := digits.head?.any Char.isDigit
    match (if isNumber then readAmount false "EgGkKmMPtTYZ0" digits else .error .invalid) with
    | .ok n =>
      if n = 0 && (change = .down || change = .up) then .error (.plain "division by zero")
      else
        .ok ⟨if isSigned then .by_ else change, if text.head? = some '-' then -(n : Int) else n⟩
    | .error flaw =>
      .error (.plain ("Invalid number: " ++ quoted text ++
        (if flaw = .tooLarge then ": Value too large for defined data type".toList else [])))

def resized (name : Chars) (size : Nat → Nat) (mask : Nat) (d : Disk) : Except Fault Disk := do
  let o ← d.openFile name (Disk.masked 0o666 mask)
  let n := size o.content.length
  return o.truncate.append (o.content.take n ++ List.replicate (n - o.content.length) 0)

def truncate : Applet :=
  withOptions (optionsOf "cor:s:" "size=s: no-create=c reference=r: io-blocks=o") true 1 fun p => do
  let size := quoted "--size"
  let reference := quoted "--reference"
  match (p.values "s").mapM newLength with
  | .error (.plain words) => failWith 1 words
  | .error (.usage words) => missing words
  | .ok lengths =>
    let given := lengths.getLast?
    if given.isNone && !p.has "r" then missing ("you must specify either " ++ size ++ " or " ++ reference)
    else if p.has "r" && given.any (·.change = .exactly) then
      missing ("you must specify a relative " ++ size ++ " with " ++ reference)
    else if p.has "o" && given.isNone then
      missing (quoted "--io-blocks" ++ " was specified but " ++ size ++ " was not")
    else if p.operands.isEmpty then missing "missing file operand"
    else
      let d ← Util.disk
      match (p.value? "r").mapM fun name => (d.stat name).map fun e => e.size with
      | .error f => failWith 1 (cannot "stat" ((p.value? "r").getD []) f.text)
      | .ok base =>
        let unit : Int := if p.has "o" then 4096 else 1
        let final (old : Nat) : Nat :=
          match given with
          | some l => NewLength.of { l with amount := l.amount * unit } (base.getD old)
          | none => base.getD 0
        let mask ← Util.umask
        Util.forEach p.operands fun name => do
          if p.has "c" && (← entryAt? name).isNone then return 0
          attempt (fun why => "cannot open " ++ quotedName name ++ " for writing: " ++ why)
            (resized name final mask)

/-!
Lines of several files side by side, or all lines of one file in one.
-/

/-- The separators that a list gives, each of which can be empty; nothing if a backslash stands at its
end. -/
def separators? : Chars → Option (List Chars)
  | [] => some []
  | ['\\'] => none
  | '\\' :: c :: rest =>
    let sep : Chars := match c with
      | '0' => []
      | 'b' => ['\x08']
      | 'f' => ['\x0c']
      | 'n' => ['\n']
      | 'r' => ['\x0d']
      | 't' => ['\t']
      | 'v' => ['\x0b']
      | c => [c]
    (separators? rest).map (sep :: ·)
  | c :: rest => (separators? rest).map ([c] :: ·)

def joinInTurn (seps : List Chars) : Nat → List Chars → Chars
  | _, [] => []
  | _, [t] => t
  | i, t :: rest => t ++ seps.getD (i % seps.length) [] ++ joinInTurn seps (i + 1) rest

/-- A column: the standard input, which several columns can share, or a file. -/
inductive PasteColumn where
  | input
  | file (name : Chars) (source : Source)
  | closed

def nextRow : Source → List PasteColumn →
    Util (List (Option Chars) × Source × List PasteColumn × Nat)
  | input, [] => return ([], input, [], 0)
  | input, column :: rest => do
    let ended (name : Chars) (fault : Option Fault) (input : Source) :
        Util (Option Chars × Source × PasteColumn × Nat) := do
      fault.forM (complainOf name)
      return (none, input, .closed, fault.toList.length)
    let (line, input, column, status) ← match column with
      | .closed => ended [] none input
      | .input =>
        match ← input.next with
        | (some (line, _), input) => pure (some line, input, PasteColumn.input, 0)
        | (none, input) => ended ['-'] input.fault { input with fault := none }
      | .file name source =>
        match ← source.next with
        | (some (line, _), source) => pure (some line, input, PasteColumn.file name source, 0)
        | (none, source) =>
          source.close
          ended name source.fault input
    let (lines, input, columns, others) ← nextRow input rest
    return (line :: lines, input, column :: columns, max status others)

def pasteRows (seps : List Chars) (mark : Char) : Nat → Nat → Source → List PasteColumn → Util Nat
  | 0, status, _, _ => return status
  | n + 1, status, input, columns => do
    let (lines, input, columns, flaw) ← nextRow input columns
    let status := max status flaw
    if lines.all Option.isNone then return status
    print (joinInTurn seps 0 (lines.map (·.getD [])) ++ [mark])
    pasteRows seps mark n status input columns

def openColumn (mark : Char) (file : Chars) : Effort PasteColumn := do
  if file = ['-'] then return .input
  return .file file (← Effort.named file (← Source.ofFile file mark))

def pasteFiles (seps : List Chars) (mark : Char) (files : List Chars) : Applet :=
  forEach files fun file => Effort.status do
    let s ← Effort.named file (← Source.ofFile file mark)
    let (count, s) ← s.forLines (fun i line _ => do
      print ((if i = 0 then [] else seps.getD ((i - 1) % seps.length) []) ++ line)
      return i + 1) 0
    s.close
    s.fault.forM fun f => complainOf file f
    if s.fault.isNone || count = 0 then print [mark]
    return s.fault.toList.length

def paste : Applet :=
  withOptions (optionsOf "d:sz" "delimiters=d: serial=s zero-terminated=z") true 1 fun p => do
  let list := match p.value? "d" with
    | some [] => "\\0"
    | some list => list
    | none => ['\t']
  match separators? list with
  | none => failWith 1 ("delimiter list ends with an unescaped backslash: " ++ namedFile list)
  | some seps =>
    let mark := p.mark
    let files := p.files
    if p.has "s" then pasteFiles seps mark files
    else Effort.status do
      pasteRows seps mark Act.patience 0 (.ofDescriptor 0 mark) (← files.mapM (openColumn mark))

/-!
Parts of lines: bytes or fields that are picked by their numbers.
-/

structure Span where
  low : Nat
  high : Option Nat
deriving DecidableEq

def Span.holds (s : Span) (n : Nat) : Bool := s.low ≤ n && s.high.all (n ≤ ·)

inductive SpanKind where
  | bytes | fields
deriving DecidableEq

inductive SpanFlaw where
  | range
  | zero
  | noEndpoint
  | decreasing
  | tooLarge (digits : Chars)
  | invalid (text : Chars)
deriving DecidableEq

def SpanFlaw.words (kind : SpanKind) (flaw : SpanFlaw) : Chars :=
  let either (ofBytes ofFields : String) : Chars := (if kind = .bytes then ofBytes else ofFields).toList
  match flaw with
  | .range => either "invalid byte or character range" "invalid field range"
  | .zero => either "byte/character positions are numbered from 1" "fields are numbered from 1"
  | .noEndpoint => "invalid range with no endpoint: -"
  | .decreasing => "invalid decreasing range"
  | .tooLarge digits => either "byte/character offset " "field number " ++ quoted digits ++ " is too large"
  | .invalid text => either "invalid byte/character position " "invalid field value " ++ quoted text

/-- A list of positions as far as it was read: the number at hand, and the start of a range. -/
structure SpanState where
  digits : Chars
  /-- A dash was seen, with what stood before it. -/
  start : Option (Option Nat)
  spans : List Span

namespace SpanState

def number? (s : SpanState) : Option Nat := Chars.toNat? s.digits

def close (s : SpanState) : Except SpanFlaw SpanState :=
  match s.start, s.number? with
  | some none, none => .error .noEndpoint
  | some low, none => .ok ⟨[], none, ⟨low.getD 1, none⟩ :: s.spans⟩
  | some low, some high =>
    if high < low.getD 1 then .error .decreasing else .ok ⟨[], none, ⟨low.getD 1, some high⟩ :: s.spans⟩
  | none, some (n + 1) => .ok ⟨[], none, ⟨n + 1, some (n + 1)⟩ :: s.spans⟩
  | none, _ => .error .zero

def read : SpanState → Chars → Except SpanFlaw SpanState
  | s, [] => s.close
  | s, c :: rest =>
    if c = '-' then
      if s.start.isSome then .error .range
      else if s.number? = some 0 then .error .zero
      else read { s with digits := [], start := some s.number? } rest
    else if c = ',' || c = ' ' || c = '\t' then do read (← s.close) rest
    else if c.isDigit then
      let s := { s with digits := s.digits ++ [c] }
      if s.number?.any (· ≥ largestAmount) then .error (.tooLarge (s.digits ++ rest.takeWhile Char.isDigit))
      else read s rest
    else .error (.invalid (c :: rest))

end SpanState

def spans (text : Chars) : Except SpanFlaw (List Span) := do
  return (← SpanState.read ⟨[], none, []⟩ text).spans.reverse

structure CutManner where
  kind : SpanKind
  spans : List Span
  complement : Bool
  delimiter : Char
  output : Option Chars
  /-- Lines without a delimiter are left out. -/
  onlyDelimited : Bool

namespace CutManner

variable (m : CutManner)

def picks (n : Nat) : Bool := m.spans.any (·.holds n) != m.complement

/-- Whether something that is picked starts a row of its own: spans that touch or overlap make one row. -/
def startsRow (n : Nat) : Bool :=
  if m.complement then m.picks n && !m.picks (n - 1)
  else (m.spans.any fun s => s.low = n) && !m.spans.any fun s => s.low < n && s.high.all (n ≤ ·)

def ofBytes (line : Chars) : Chars :=
  let picked := line.zipIdx.filter fun (_, i) => m.picks (i + 1)
  match m.output with
  | none => picked.map (·.1)
  | some sep =>
    picked.zipIdx.flatMap fun ((c, i), k) => if k > 0 && m.startsRow (i + 1) then sep ++ [c] else [c]

def ofFields (line : Chars) : Option Chars :=
  let fields := Chars.splitAt m.delimiter line
  if fields.length ≤ 1 then if m.onlyDelimited then none else some line
  else
    let kept := fields.zipIdx.filterMap fun (f, i) => if m.picks (i + 1) then some f else none
    some (Chars.join (m.output.getD [m.delimiter]) kept)

def result (line : Chars) : Option Chars :=
  match m.kind with
  | .bytes => some (m.ofBytes line)
  | .fields => m.ofFields line

end CutManner

def cut : Applet :=
  withOptions (optionsOf "b:c:d:f:nsz" "delimiter=d: fields=f: characters=c: bytes=b:
    only-delimited=s complement output-delimiter=out: zero-terminated=z") true 1 fun p => do
  let lists := p.options.filter fun o => ["f", "c", "b"].contains o.key
  let delimiter := (p.value? "d").getD ['\t']
  if lists.length > 1 then return ← missing "only one list may be specified"
  if (p.values "d").any (·.length > 1) then return ← missing "the delimiter must be a single character"
  let some list := lists.head? | missing "you must specify a list of bytes, characters, or fields"
  let kind : SpanKind := if list.key = "f" then .fields else .bytes
  if kind = .bytes && p.has "d" then
    return ← missing "an input delimiter may be specified only when operating on fields"
  if kind = .bytes && p.has "s" then
    return ← missing "suppressing non-delimited lines makes sense\n\tonly when operating on fields"
  match spans list.value with
  | .error flaw => missing (flaw.words kind)
  | .ok spans =>
    let mark := p.mark
    let m : CutManner :=
      { kind
        spans
        complement := p.has "complement"
        delimiter := delimiter.headD '\x00'
        output := (p.value? "out").map fun s => if s.isEmpty then ['\x00'] else s
        onlyDelimited := p.has "s" }
    let line (text : Chars) : Util Unit :=
      match m.result text with
      | some kept => Util.print (kept ++ [mark])
      | none => return
    if kind = .fields && m.delimiter = mark then
      -- All lines are fields of one line.
      let (status, lines) ← forEachLine p.operands mark
        (fun lines text _ => return text :: lines) ([] : List Chars)
      if !lines.isEmpty then line (Chars.join [mark] lines.reverse)
      return status
    else
      let (status, _) ← forEachLine p.operands mark (fun _ text _ => line text) ()
      return status

/-!
Lines with numbers. A text can have pages with a head, a body and a foot, set apart by lines of their
own, and each of these has its own rule for which lines get a number.
-/

inductive NumberRule where
  | all
  | filled
  | none
  | fitting (r : Regex)

inductive PagePart where
  | head | body | foot
deriving DecidableEq

inductive NumberForm where
  | left | right | zeros
deriving DecidableEq

structure NumberManner where
  head : NumberRule := .none
  body : NumberRule := .filled
  foot : NumberRule := .none
  /-- What sets parts of pages apart, once for a foot, twice for a body, three times for a head. -/
  divider : Chars := "\\:"
  first : Int := 1
  step : Int := 1
  /-- Of so many empty lines in a row one counts. -/
  blanks : Nat := 1
  form : NumberForm := .right
  /-- Pages go on with the numbers. -/
  goesOn : Bool := false
  separator : Chars := ['\t']
  width : Nat := 6

structure NumberState where
  rule : NumberRule
  next : Int
  blanks : Nat

namespace NumberManner

variable (m : NumberManner)

def rule : PagePart → NumberRule
  | .head => m.head
  | .body => m.body
  | .foot => m.foot

def part? (line : Chars) : Option PagePart :=
  let times (n : Nat) : Chars := (List.replicate n m.divider).flatten
  if m.divider.length < 2 || line.length < 2 then none
  else if line = times 3 then some .head
  else if line = times 2 then some .body
  else if line = times 1 then some .foot
  else none

def number (n : Int) : Chars :=
  let text := Chars.ofInt n
  match m.form with
  | .left => Chars.padRight m.width text
  | .right => Chars.padLeft m.width text
  | .zeros =>
    if n < 0 then '-' :: (Chars.ofNat n.natAbs).leftpad (m.width - 1) '0' else text.leftpad m.width '0'

def counts (wide : Bool) (s : NumberState) (line : Chars) : Bool × Nat :=
  match s.rule with
  | .all =>
    if m.blanks ≤ 1 then (true, 0)
    else if !line.isEmpty || s.blanks + 1 = m.blanks then (true, 0)
    else (false, s.blanks + 1)
  | .filled => (!line.isEmpty, s.blanks)
  | .none => (false, s.blanks)
  | .fitting r => (Regex.matchesIn ⟨false, false, wide⟩ r (Letters.of wide line), s.blanks)

def taking (wide : Bool) (s : NumberState) (line : Chars) : Chars × NumberState :=
  match m.part? line with
  | some part => (['\n'], { s with rule := m.rule part, next := if m.goesOn then s.next else m.first })
  | none =>
    let (isCounted, blanks) := m.counts wide s line
    if isCounted then
      (m.number s.next ++ m.separator ++ line ++ ['\n'], { s with next := s.next + m.step, blanks })
    else (List.replicate (m.width + m.separator.length) ' ' ++ line ++ ['\n'], { s with blanks })

end NumberManner

/-- What is wrong with a call: it ends at once, or all is told first. -/
inductive NumberFlaw where
  | ends (words : Chars)
  | told (words : Chars)

def numberRule (wide : Bool) (what : String) (text : Chars) : Except NumberFlaw NumberRule :=
  match text with
  | 'a' :: _ => .ok .all
  | 't' :: _ => .ok .filled
  | 'n' :: _ => .ok .none
  | 'p' :: pattern =>
    match Regex.parse { Regex.basic with wide } (Letters.of wide pattern) with
    | .ok r => .ok (.fitting r)
    | .error words => .error (.ends words.toList)
  | _ => .error (.told ("invalid " ++ what.toList ++ " numbering style: " ++ quoted text))

def signedAmount (words : String) (text : Chars) : Except NumberFlaw Int :=
  let wrong (why : String) : Except NumberFlaw Int :=
    .error (.ends (words.toList ++ ": " ++ quoted text ++ why.toList))
  match Chars.toInt? (text.dropWhile isBlankOrBreak) with
  | none => wrong ""
  | some n =>
    if -(2 ^ 63 : Int) ≤ n && n < 2 ^ 63 then .ok n else wrong ": Value too large for defined data type"

def NumberManner.adding (wide : Bool) (m : NumberManner) (g : Given) : Except NumberFlaw NumberManner := do
  let counted (words : String) (high : Nat) : Except NumberFlaw Nat :=
    (boundedAmount words "" 1 high g.value).mapError .ends
  match g.key with
  | "h" => return { m with head := ← numberRule wide "header" g.value }
  | "b" => return { m with body := ← numberRule wide "body" g.value }
  | "f" => return { m with foot := ← numberRule wide "footer" g.value }
  | "v" => return { m with first := ← signedAmount "invalid starting line number" g.value }
  | "i" => return { m with step := ← signedAmount "invalid line number increment" g.value }
  | "l" => return { m with blanks := ← counted "invalid line number of blank lines" (2 ^ 63 - 1) }
  | "w" => return { m with width := ← counted "invalid line number field width" (2 ^ 31 - 1) }
  | "s" => .ok { m with separator := g.value }
  | "p" => .ok { m with goesOn := true }
  | "n" =>
    match String.ofList g.value with
    | "ln" => .ok { m with form := .left }
    | "rn" => .ok { m with form := .right }
    | "rz" => .ok { m with form := .zeros }
    | _ => .error (.told ("invalid line numbering format: " ++ quoted g.value))
  | "d" =>
    .ok { m with divider := match g.value with
      | [c] => [c, ':']
      | text => text }
  | _ => .ok m

def numberManner (wide : Bool) (options : List Given) : Effort NumberManner := do
  let (m, hasFlaws) ← options.foldlM (fun (m, hasFlaws) g => do
    match NumberManner.adding wide m g with
    | .ok m => return (m, hasFlaws)
    | .error (.told words) =>
      complain words
      return (m, true)
    | .error (.ends words) => Effort.refuse 1 words) ({}, false)
  if hasFlaws then
    pointToHelp
    throw 1
  return m

def nl : Applet :=
  withOptions (optionsOf "b:d:f:h:i:l:n:ps:v:w:" "body-numbering=b: section-delimiter=d:
    footer-numbering=f: header-numbering=h: line-increment=i: join-blank-lines=l: number-format=n:
    no-renumber=p number-separator=s: starting-line-number=v: number-width=w:") true 1 fun p => do
  Effort.status do
  let wide ← wide
  let m ← numberManner wide p.options
  let (status, _) ← forEachLine p.operands '\n' (fun s line _ => do
    let (text, s) := m.taking wide s line
    print text
    return s) (⟨m.body, m.first, 0⟩ : NumberState)
  return status

/-!
Counting lines, words, characters and columns.
-/

structure Tally where
  lines : Nat
  words : Nat
  chars : Nat
  bytes : Nat
  longest : Nat
deriving DecidableEq

namespace Tally

def zero : Tally := ⟨0, 0, 0, 0, 0⟩

def add (a b : Tally) : Tally :=
  ⟨a.lines + b.lines, a.words + b.words, a.chars + b.chars, a.bytes + b.bytes, max a.longest b.longest⟩

/-- What is counted so far, within a line and perhaps within a word. -/
structure Counting where
  tally : Tally
  column : Nat
  inWord : Bool

def Counting.gap (s : Counting) (column : Nat) : Counting :=
  { s with
    tally := { s.tally with words := s.tally.words + s.inWord.toNat }
    column
    inWord := false }

def Counting.turn (s : Counting) : Counting :=
  ({ s with tally := { s.tally with longest := max s.tally.longest s.column } }).gap 0

def Counting.step (wide : Bool) (s : Counting) (c : Char) : Counting :=
  if wide && Letters.isStray c then s
  else
    let s := { s with tally := { s.tally with chars := s.tally.chars + 1 } }
    if c = '\n' then { s with tally := { s.tally with lines := s.tally.lines + 1 } }.turn
    else if c = '\x0d' || c = '\x0c' then s.turn
    else if c = '\t' then s.gap (s.column + (8 - s.column % 8))
    else if c = ' ' then s.gap (s.column + 1)
    else if c = '\x0b' then s.gap s.column
    else if c.toNat < 128 then
      if CharClass.print.holdsPlain c then { s with column := s.column + 1, inWord := true } else s
    else if !wide then s
    else
      match Width.ofLetter? c with
      | none => s
      | some width =>
        let column := s.column + width
        if CharClass.space.holds true c || isHardSpace c then s.gap column
        else { s with column, inWord := true }
where
  isHardSpace (c : Char) : Bool := c = '\u00a0' || c = '\u2007' || c = '\u202f' || c = '\u2060'

def ofText (wide : Bool) (text : Chars) : Tally :=
  let s := ((Letters.of wide text).foldl (Counting.step wide) ⟨zero, 0, false⟩).turn
  { s.tally with bytes := text.length }

def shown (t : Tally) (keys : List String) : List Nat :=
  keys.map fun key =>
    match key with
    | "l" => t.lines
    | "w" => t.words
    | "m" => t.chars
    | "c" => t.bytes
    | _ => t.longest

end Tally

/-- How wide the counts are written: wide enough for the sizes of files, and wider for what has no size
beforehand. -/
def countWidth (sizes : List (Option (Option Nat))) : Nat :=
  let total := (sizes.filterMap fun s => s.bind id).foldl (· + ·) 0
  let least := if sizes.any (· = some none) then 7 else 1
  max least (Chars.ofNat total).length

def sizesOf (files : List Chars) : Util (List (Option (Option Nat))) := do
  let d ← disk
  files.mapM fun file => do
    if file = ['-'] then
      return (← ask (.describe 0)).map fun info => if info.isFile then some info.size else none
    return (d.stat file).toOption.map fun
      | .file _ content => some content.length
      | _ => none

def countFiles (keys : List String) (width : Nat) (files : List Chars) (named : Bool) : Applet := do
  let wide ← wide
  let row (t : Tally) (name : Chars) : Util Unit :=
    printLine (Chars.join [' '] ((t.shown keys).map fun n => Chars.padLeft width (Chars.ofNat n)) ++
      (if !named then [] else ' ' :: (if name.contains '\n' then namedFile name else name)))
  let (status, total) ← files.foldlM (fun (status, total) file => do
    match ← contents file with
    | .error f =>
      complainOf file f
      if f = .isDirectory then row .zero file
      return (1, total)
    | .ok text =>
      let t := Tally.ofText wide text
      row t file
      return (status, Tally.add total t)) (0, Tally.zero)
  if files.length > 1 then row total "total"
  return status

def wc : Applet :=
  withOptions (optionsOf "clLmw" "lines=l words=w bytes=c chars=m max-line-length=L
    files0-from=files0:") true 1 fun p => do
  let keys := ["l", "w", "m", "c", "L"].filter p.has
  let keys := if keys.isEmpty then ["l", "w", "c"] else keys
  let countAll (files : List Chars) (named : Bool) : Applet := do
    let sizes ← sizesOf files
    countFiles keys (if files.length = 1 && keys.length = 1 then 1 else countWidth sizes) files named
  match p.value? "files0", p.operands with
  | some _, extra :: _ => besidesList extra
  | some list, [] =>
    match ← contents list with
    | .error f => failWith 1 (unopened list f)
    | .ok text => countAll (linesAt '\x00' text) true
  | none, operands => countAll (if operands.isEmpty then [['-']] else operands) (!operands.isEmpty)

end Prune.Utility
