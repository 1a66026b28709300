import Prune.Shell.Pattern
import Prune.Utility.Clock
import Prune.Utility.Mode
import Prune.Utility.Sort

/-!
What is known about files, in words and by formats, and sizes in units or with a letter for a unit that fits.
-/

namespace Prune.Utility

open Host Util
open Calendar (Zone)

inductive SizeManner where
  | units (size : Nat) (ending : Chars)
  /-- In the unit that fits, where each is so many of the one before. -/
  | fitting (base : Nat)

def shortSizeBy (base size : Nat) : Chars :=
  let rec go : List Char → Nat → Chars
    | [], unit => Chars.ofNat (size / unit)
    | letter :: more, unit =>
      if size < base * unit then
        let tenths := (10 * size + unit - 1) / unit
        if tenths < 100 then Chars.ofNat (tenths / 10) ++ '.' :: Chars.ofNat (tenths % 10) ++ [letter]
        else
          let whole := (size + unit - 1) / unit
          if whole < base then Chars.ofNat whole ++ [letter] else go more (base * unit)
      else go more (base * unit)
  if size < base then Chars.ofNat size
  else go (if base = 1000 then "kMGTPE" else "KMGTPE").toList base

def SizeManner.show (m : SizeManner) (size : Nat) : Chars :=
  match m with
  | .units unit ending => Chars.ofNat ((size + unit - 1) / unit) ++ ending
  | .fitting base => shortSizeBy base size

def sizeFactor? (letters : Chars) : Option Nat :=
  let power (base : Nat) (c : Char) : Option Nat :=
    ("KMGTPEZY".toList.findIdx? (· = c.toUpper)).map fun i => base ^ (i + 1)
  match letters with
  | [] => some 1
  | ['b'] => some 512
  | ['B'] => some 1
  | [c] => power 1024 c
  | [c, 'B'] => power 1000 c
  | [c, 'i', 'B'] => power 1024 c
  | _ => none

def sizeManner? (text : Chars) : Option SizeManner :=
  if text = "human-readable" then some (.fitting 1024)
  else if text = "si" then some (.fitting 1000)
  else
    let digits := text.takeWhile Char.isDigit
    let letters := text.drop digits.length
    match Chars.toNat? digits, sizeFactor? letters with
    | some n, some f => if n = 0 then none else some (.units (n * f) [])
    | none, some f => if letters.isEmpty then none else some (.units f letters)
    | _, none => none

def modeText (e : Entry) : Chars := e.letter :: modeLetters e.mode

def kindBits (e : Entry) : Nat :=
  match e.letter with
  | 'd' => 0o040000
  | 'l' => 0o120000
  | 'c' => 0o020000
  | _ => 0o100000

def diskNumber : Nat := 0xFE00

inductive FieldValue where
  | text (t : Chars)
  | number (n : Nat) (base : Nat)
  | time (micros : Int)

def fullTime : Chars := "%Y-%m-%d %H:%M:%S.%N %z"

def statValue (quotes : Chars → Chars) (zone : Zone) (name : Chars) (f : Facts) : Char → Option FieldValue
  | 'n' => some (.text name)
  | 'N' =>
    match f.entry with
    | .link t => some (.text (quotes name ++ " -> " ++ quotes (Chars.ofBytes t)))
    | _ => some (.text (quotes name))
  | 's' => some (.number f.entry.size 10)
  | 'a' => some (.number (f.entry.mode % 0o10000) 8)
  | 'A' => some (.text (modeText f.entry))
  | 'F' => some (.text (kindText f.entry))
  | 'f' => some (.number (kindBits f.entry + f.entry.mode) 16)
  | 'h' => some (.number f.names 10)
  | 'i' => some (.number f.stamp.number 10)
  | 'd' => some (.number diskNumber 10)
  | 'D' => some (.number diskNumber 16)
  | 'u' | 'g' => some (.number 0 10)
  | 'U' | 'G' => some (.text "root")
  | 'b' => some (.number (f.room / 512) 10)
  | 'B' => some (.number 512 10)
  | 'o' => some (.number 4096 10)
  | 'm' => some (.text ['/'])
  | 't' => some (.number (f.entry.device?.map (·.1) |>.getD 0) 16)
  | 'T' => some (.number (f.entry.device?.map (·.2) |>.getD 0) 16)
  | 'x' => some (.text (timeText zone f.stamp.accessed fullTime))
  | 'y' => some (.text (timeText zone f.stamp.modified fullTime))
  | 'z' => some (.text (timeText zone f.stamp.changed fullTime))
  | 'w' => some (.text ['-'])
  | 'W' => some (.number 0 10)
  | 'X' => some (.time f.stamp.accessed)
  | 'Y' => some (.time f.stamp.modified)
  | 'Z' => some (.time f.stamp.changed)
  | _ => none

def fieldText (flags : Chars) (width : Nat) (precision : Option Nat) (v : FieldValue) : Chars :=
  let pad (zeros : Bool) (t : Chars) : Chars :=
    if flags.contains '-' then Chars.padRight width t
    else if zeros && flags.contains '0' then t.leftpad width '0'
    else Chars.padLeft width t
  match v with
  | .text t => pad false (match precision with | some n => t.take n | none => t)
  | .number n base =>
    let digits := Nat.toDigits base n
    let front := if flags.contains '#' && n ≠ 0 then if base = 8 then ['0'] else if base = 16 then "0x" else []
      else []
    pad precision.isNone (front ++ digits.leftpad (precision.getD 0) '0')
  | .time micros =>
    let seconds := micros.fdiv 1000000
    match precision with
    | none => pad true (Chars.ofInt seconds)
    | some n =>
      let parts := (Chars.ofNat ((micros.fmod 1000000).toNat)).leftpad 6 '0'
      let parts := (parts ++ List.replicate n '0').take n
      pad true (Chars.ofInt seconds ++ if n = 0 then [] else '.' :: parts)

def formatEscape (c : Char) : Option Char :=
  if c = '\\' || c = '"' then some c else if c = 'e' then some '\x1b' else Chars.control? c

/-- A format with its fields filled in. `value` gives what a letter stands for. -/
def filledFormat (value : Char → Option FieldValue) (escapes : Bool) : Nat → Chars → Chars
  | 0, _ | _, [] => []
  | n + 1, '%' :: rest =>
    let (flags, width, precision, rest) := fieldStart "'-+ #0" rest
    match rest with
    | [] => ['%']
    | '%' :: more => '%' :: filledFormat value escapes n more
    | c :: more =>
      -- a time is as fine as can be where the precision has no digits
      let precision := precision.map fun digits => (Chars.toNat? digits).getD (if digits.isEmpty then 9 else 0)
      let text := match value c with
        | some v => fieldText flags ((Chars.toNat? width).getD 0) precision v
        | none => ['?']
      text ++ filledFormat value escapes n more
  | n + 1, '\\' :: rest =>
    if !escapes then '\\' :: filledFormat value escapes n rest
    else
      match rest with
      | [] => ['\\']
      | 'x' :: more =>
        let digits := Chars.digitsIn 16 2 more
        if digits.isEmpty then 'x' :: filledFormat value escapes n more
        else Char.ofNat (Chars.valueIn 16 digits) :: filledFormat value escapes n (more.drop digits.length)
      | c :: more =>
        let digits := Chars.digitsIn 8 3 rest
        if !digits.isEmpty then
          Char.ofNat (Chars.valueIn 8 digits % 256) :: filledFormat value escapes n (rest.drop digits.length)
        else (formatEscape c).getD c :: filledFormat value escapes n more
  | n + 1, c :: rest => c :: filledFormat value escapes n rest

def statReport : Chars :=
  ("  File: %N\n  Size: %-10s\tBlocks: %-10b IO Block: %-6o %F\n" ++
    "Device: 254,0\tInode: %-10i  Links: %h\n" ++
    "Access: (%04a/%10.10A)  Uid: (%5u/%8U)   Gid: (%5g/%8G)\n" ++
    "Access: %x\nModify: %y\nChange: %z\n Birth: %w\n").toList

def statTerse : Chars := "%n %s %b %f %u %g %D %i %h %t %T %X %Y %Z %W %o\n"

def stat : Applet :=
  withOptions (optionsOf "c:fLt" "format=c: printf: file-system=f dereference=L terse=t cached:") true 1 fun p => do
  if p.operands.isEmpty then missing "missing operand"
  else
    let zone ← zone
    forEach p.operands fun name => do
      match (← disk).facts (p.has "L") name with
      | .error f => failWith 1 (cannot "statx" name f.text)
      | .ok f =>
        let fill (quotes : Chars → Chars) (escapes : Bool) (format : Chars) : Chars :=
          filledFormat (statValue quotes zone name f) escapes (format.length + 1) format
        let given := p.last? ["c", "printf"]
        match given with
        | some ⟨"c", format⟩ => printLine (fill quotedName false format)
        | some ⟨_, format⟩ => print (fill quotedName true format)
        | none => print (fill id false (if p.has "t" then statTerse else statReport))
        return 0

/-!
The program that lists what is in directories.
-/

inductive ListForm where
  | lines | details | commas
deriving DecidableEq

inductive ListOrder where
  | name | none | size | time | ending | version | width
deriving DecidableEq

inductive WhichTime where
  | modified | accessed | changed

def WhichTime.of (w : WhichTime) (s : Stamp) : Int :=
  match w with
  | .modified => s.modified
  | .accessed => s.accessed
  | .changed => s.changed

inductive NameStyle where
  | literal | c | escape

def cEscape (extra : Char) (ch : Char) : Chars :=
  if ch = '\\' then "\\\\"
  else if ch = extra then ['\\', ch]
  else if isShown ch then [ch]
  else shellEscape ch

def NameStyle.show (s : NameStyle) (name : Chars) : Chars :=
  match s with
  | .literal => name
  | .c => '"' :: name.flatMap (cEscape '"') ++ ['"']
  | .escape => name.flatMap (cEscape ' ')

inductive NameMarks where
  | none
  | slashes
  | types
  /-- Programs have a mark too. -/
  | all
deriving DecidableEq

structure ListManner where
  form : ListForm
  order : ListOrder
  reversed : Bool
  dirsFirst : Bool
  all : Bool
  almostAll : Bool
  asEntries : Bool
  recursive : Bool
  marks : NameMarks
  numeric : Bool
  withoutOwner : Bool
  withoutGroup : Bool
  withAuthor : Bool
  following : Following
  style : NameStyle
  hidesControls : Bool
  numbers : Bool
  blocks : Bool
  sizes : SizeManner
  roomSizes : SizeManner
  which : WhichTime
  timeFormats : Chars × Chars
  skipped : List Chars
  width : Nat
  ends : Char
  zone : Zone
  now : Int
  wide : Bool

structure Listed where
  shown : Chars
  path : Chars
  facts : Facts
  leadsToDir : Bool

namespace ListManner

variable (m : ListManner)

variable (items : List Listed)

def sort : List Listed :=
  let byName (a b : Listed) : Ordering := compareChars a.shown b.shown
  let ending (l : Listed) : Chars :=
    let e := (l.shown.reverse.takeWhile (· ≠ '.')).reverse
    if e = l.shown then [] else e
  let compare (a b : Listed) : Ordering :=
    match m.order with
    | .size => Ord.compare b.facts.entry.size a.facts.entry.size
    | .time => Ord.compare (m.which.of b.facts.stamp) (m.which.of a.facts.stamp)
    | .ending => compareChars (ending a) (ending b)
    | .version => Version.compareNames a.shown b.shown
    | .width => Ord.compare (Width.ofText m.wide a.shown) (Width.ofText m.wide b.shown)
    | _ => .eq
  if m.order = .none then items
  else
    let sorted := items.mergeSort fun a b => (compare a b).then (byName a b) ≠ .gt
    let sorted := if m.reversed then sorted.reverse else sorted
    if m.dirsFirst then sorted.filter (·.leadsToDir) ++ sorted.filter (!·.leadsToDir) else sorted

def markOf (e : Entry) : Chars :=
  match m.marks, e with
  | .none, _ => []
  | _, .dir _ => ['/']
  | .slashes, _ => []
  | _, .link _ => ['@']
  | .all, e => if e.isFile && e.mode &&& 0o111 ≠ 0 then ['*'] else []
  | .types, _ => []

def nameOf (name : Chars) : Chars :=
  let shown := m.style.show name
  if m.hidesControls then shown.map fun c => if isShown c then c else '?' else shown

def fullName (d : Disk) (l : Listed) : Chars :=
  match l.facts.entry, m.form with
  | .link t, .details =>
    let behind := ((d.stat l.path).toOption.map m.markOf).getD []
    m.nameOf l.shown ++ " -> " ++ m.nameOf (Chars.ofBytes t) ++ behind
  | e, _ => m.nameOf l.shown ++ m.markOf e

def timeOf (micros : Int) : Chars :=
  let isRecent := micros ≤ m.now && m.now - micros < 15778476000000
  timeText m.zone micros (if isRecent then m.timeFormats.2 else m.timeFormats.1)

def aligned (texts : List Chars) : List Chars :=
  let width := (texts.map List.length).foldl max 0
  texts.map (Chars.padLeft width)

/-- What stands in front of each item: its number and its room, if they are asked for. -/
def fronts : List Chars :=
  let column (asked : Bool) (text : Listed → Chars) : List Chars :=
    let texts := items.map text
    if !asked then texts.map fun _ => []
    else (if m.form = .commas then texts else aligned texts).map (· ++ [' '])
  List.zipWith (· ++ ·) (column m.numbers fun l => Chars.ofNat l.facts.stamp.number)
    (column m.blocks fun l => m.roomSizes.show l.facts.room)

def details : List Chars :=
  let counts := aligned (items.map fun l => Chars.ofNat l.facts.names)
  let sizes := aligned (items.map fun l =>
    match l.facts.entry.device? with
    | some (a, b) => Chars.ofNat a ++ ", " ++ Chars.ofNat b
    | none => m.sizes.show l.facts.entry.size)
  let owner := if m.numeric then ['0', ' '] else "root "
  let owners := (if m.withoutOwner then [] else owner) ++ (if m.withoutGroup then [] else owner) ++
    (if m.withAuthor then owner else [])
  (items.zip (counts.zip sizes)).map fun (l, count, size) =>
    modeText l.facts.entry ++ ' ' :: count ++ ' ' :: owners ++ size ++ ' ' ::
      m.timeOf (m.which.of l.facts.stamp) ++ [' ']

def inRows (names : List Chars) : Chars :=
  let (text, _) := names.foldl (fun (text, place) name =>
    let w := Width.ofText m.wide name
    match place with
    | none => (name, some w)
    | some place =>
      if m.width = 0 || place + w + 2 ≤ m.width then (text ++ ", " ++ name, some (place + 2 + w))
      else (text ++ ",\n" ++ name, some w)) (([] : Chars), (none : Option Nat))
  text

def lines (d : Disk) (items : List Listed) : List Chars :=
  let items := m.sort items
  let fronts := if m.form = .details then List.zipWith (· ++ ·) (m.fronts items) (m.details items)
    else m.fronts items
  let lines := List.zipWith (· ++ ·) fronts (items.map (m.fullName d))
  if m.form = .commas && !items.isEmpty then [m.inRows lines] else lines

def listedAt (d : Disk) (shown path : Chars) (follow : Bool) : Except Fault Listed := do
  let f ← match d.facts follow path with
    | .ok f => pure f
    | .error e => if follow && m.following ≠ .always then d.facts false path else .error e
  return ⟨shown, path, f, (d.stat path).toOption.any Entry.isDir⟩

def lists (name : Chars) : Bool :=
  (m.all || m.almostAll || name.head? ≠ some '.') &&
    !m.skipped.any fun pattern => Shell.matchesText .fileNames pattern name

end ListManner

def listDirectory (m : ListManner) (headed : Bool) : Nat → Bool → Chars → Util Nat
  | 0, _, _ => return 2
  | n + 1, first, dir => do
    let d ← disk
    match d.children dir with
    | .error f => failWith 2 ("cannot open directory " ++ quotedName dir ++ ": " ++ f.text)
    | .ok children =>
      if !first then print ['\n']
      if headed then printLine (m.nameOf dir ++ [':'])
      let names := (if m.all then [['.'], ['.', '.']] else []) ++
        (children.map fun (name, _) => Chars.ofBytes name).filter m.lists
      let mut shown : List Listed := []
      let mut status := 0
      for name in names do
        match m.listedAt d name (inside dir name) (m.following = .always) with
        | .ok l => shown := l :: shown
        | .error f =>
          complain (cannot "access" (inside dir name) f.text)
          status := 1
      if m.form = .details || m.blocks then
        let room := (shown.map fun l => l.facts.room).foldl (· + ·) 0
        printLine ("total " ++ m.roomSizes.show room)
      for line in m.lines d shown.reverse do
        print (line ++ [m.ends])
      if m.recursive then
        let inner := (m.sort shown.reverse).filter fun l =>
          l.facts.entry.isDir && l.shown ≠ ['.'] && l.shown ≠ ['.', '.']
        for l in inner do
          let here ← listDirectory m true n false l.path
          status := max status (min here 1)
      return status

def timeFormats? (style : Chars) : Option (Chars × Chars) :=
  let style := if "posix-".toList.isPrefixOf style then style.drop 6 else style
  match style with
  | '+' :: format =>
    match Chars.cut '\n' format with
    | (old, some recent) => some (old, recent)
    | (format, none) => some (format, format)
  | style =>
    match String.ofList style with
    | "full-iso" => some (fullTime, fullTime)
    | "long-iso" => some ("%Y-%m-%d %H:%M", "%Y-%m-%d %H:%M")
    | "iso" => some ("%Y-%m-%d ", "%m-%d %H:%M")
    | "locale" => some ("%b %e  %Y", "%b %e %H:%M")
    | _ => none

variable (p : Parsed)

def formOf : ListForm :=
  p.options.foldl (fun form o =>
    match o.key with
    | "l" | "n" | "g" | "o" | "full" => .details
    | "m" => .commas
    | "1" | "zero" => if form = .details then form else .lines
    | "f" => if form = .details then .lines else form
    | "format" =>
      match String.ofList o.value with
      | "long" | "verbose" => .details
      | "commas" => .commas
      | _ => .lines
    | _ => form) .lines

def orderOf : Option ListOrder :=
  p.chosen? fun
    | "t", _ | "sort", "time" => some .time
    | "S", _ | "sort", "size" => some .size
    | "X", _ | "sort", "extension" => some .ending
    | "v", _ | "sort", "version" => some .version
    | "U", _ | "f", _ | "sort", "none" => some .none
    | "sort", "width" => some .width
    | _, _ => none

def whichOf : Option WhichTime :=
  p.chosen? fun
    | "u", _ | "time", "atime" | "time", "access" | "time", "use" => some .accessed
    | "c", _ | "time", "ctime" | "time", "status" => some .changed
    | "time", _ => some .modified
    | _, _ => none

def marksOf : Option NameMarks :=
  p.chosen? fun
    | "F", "" | "F", "always" | "F", "yes" | "F", "force" | "indicator", "classify" => some .all
    | "p", _ | "indicator", "slash" => some .slashes
    | "types", _ | "indicator", "file-type" => some .types
    | "indicator", _ => some .none
    | _, _ => none

def listOptions : List OptionSpec :=
  lettersOf "1aAbBcdDfgGhHiI:klLmnNopqQrRsStuUvw:XZ" ++ ⟨"F", some 'F', none, .none⟩ ::
    longsOf "all=a almost-all=A author escape=b directory=d recursive=R reverse=r classify=F:: color::
      format: sort: time: group-directories-first=dirs human-readable=h si size=s inode=i
      numeric-uid-gid=n dereference=L dereference-command-line=H quote-name=Q hide-control-chars=q
      show-control-chars=shown ignore-backups=B ignore=I: hide: file-type=types
      indicator-style=indicator: no-group=G literal=N kibibytes=k block-size=block: width=w: zero
      full-time=full time-style=style:"

def unknownOf : Option (String × Chars × List (List String)) :=
  let check (key option : String) (known : List (List String)) : Option (String × Chars × List (List String)) :=
    ((p.values key).find? fun v => !known.flatten.contains (String.ofList v)).map fun v => (option, v, known)
  check "sort" "--sort" [["none"], ["time"], ["size"], ["extension"], ["version"], ["width"]] <|>
    check "format" "--format" [["verbose", "long"], ["commas"], ["single-column"]] <|>
    check "time" "--time" [["atime", "access", "use"], ["ctime", "status"], ["mtime", "modification"],
      ["birth", "creation"]] <|>
    check "indicator" "--indicator-style" [["none"], ["slash"], ["file-type"], ["classify"]]

/-- How a list is made, by options and settings; or a style of times that is unknown. -/
def listManner : Util (Except Chars ListManner) := do
  let env := (← read).env
  let wide ← wide
  let zone ← zone
  let now : Int := (← ask .now : Nat)
  let form := formOf p
  let which := whichOf p
  let order := (orderOf p).getD (if which.isSome && form ≠ .details then .time else .name)
  let follow := p.lastKey? ["L", "H"]
  let style := match p.lastKey? ["b", "N", "Q"] with
    | some "b" => NameStyle.escape
    | some "Q" => .c
    | _ => .literal
  let timeStyle := if p.has "full" && !p.has "style" then "full-iso".toList
    else ((p.value? "style") <|> env.lookup "TIME_STYLE".toList).getD "locale"
  let sizes := p.chosen? fun
    | "h", _ => some (.fitting 1024)
    | "si", _ => some (.fitting 1000)
    | "block", size => sizeManner? size
    | _, _ => none
  let some formats := timeFormats? timeStyle | return .error timeStyle
  return .ok
    { form, order, zone, now, wide
      reversed := p.has "r"
      dirsFirst := p.has "dirs"
      all := p.has "a" || p.has "f"
      almostAll := p.has "A"
      asEntries := p.has "d"
      recursive := p.has "R" && !p.has "d"
      marks := (marksOf p).getD .none
      numeric := p.has "n"
      withoutOwner := p.has "g"
      withoutGroup := p.has "G" || p.has "o"
      withAuthor := p.has "author"
      following := match follow with
        | some "L" => .always
        | some _ => .given
        | none => .never
      style
      hidesControls := p.has "q" && !p.has "shown"
      numbers := p.has "i"
      blocks := p.has "s"
      sizes := sizes.getD (.units 1 [])
      roomSizes := sizes.getD (.units 1024 [])
      which := which.getD .modified
      timeFormats := formats
      skipped := (if p.has "B" then ["*~".toList, ".*~"] else []) ++ p.values "I" ++
        (if p.has "a" || p.has "A" then [] else p.values "hide")
      width := (((p.value? "w") <|> env.lookup "COLUMNS".toList).bind Chars.toNat?).getD 80
      ends := if p.has "zero" then '\x00' else '\n' }

def listOperands (m : ListManner) (operands : List Chars) : Applet := do
  let d ← disk
  let names := if operands.isEmpty then [['.']] else operands
  let looks := m.form = .details || m.marks = .all || m.asEntries
  let mut status := 0
  let mut files : List Listed := []
  let mut dirs : List Listed := []
  for name in names do
    let leads := (d.stat name).toOption.any Entry.isDir
    let follow := m.following ≠ .never || (leads && !looks)
    match m.listedAt d name name follow with
    | .error f =>
      complain (cannot "access" name f.text)
      status := 2
    | .ok l => if l.facts.entry.isDir && !m.asEntries then dirs := dirs ++ [l] else files := files ++ [l]
  for line in m.lines d files do
    print (line ++ [m.ends])
  let headed := names.length > 1 || m.recursive
  let mut first := files.isEmpty
  for l in m.sort dirs do
    let here ← listDirectory m headed 256 first l.path
    first := false
    status := max status here
  return status

def ls : Applet :=
  withOptions listOptions true 2 fun p => do
  match unknownOf p with
  | some (option, word, known) =>
    complainWord option word .unknown known
    return 2
  | none =>
    match ← listManner p with
    | .ok m => listOperands m p.operands
    | .error word =>
      complain ("invalid argument " ++ quoted word ++ " for " ++ quoted "time style")
      warn ("Valid arguments are:\n  - [posix-]full-iso\n  - [posix-]long-iso\n  - [posix-]iso\n" ++
        "  - [posix-]locale\n  - +FORMAT (e.g., +%H:%M) for a 'date'-style format\n")
      pointToHelp
      return 2

end Prune.Utility

/-!
How much room files take.
-/

namespace Prune.Utility

open Host Util

structure UsageManner where
  /-- What the files hold counts, and not the blocks that they fill. -/
  apparent : Bool
  sizes : SizeManner
  /-- Files are shown, and not only directories. -/
  files : Bool
  depth : Option Nat
  /-- Directories within a directory are not counted to it. -/
  separate : Bool
  following : Following
  /-- A file counts under each of its names. -/
  everyName : Bool
  skipped : List Chars
  /-- The least size that is shown, or the largest if it is negative. -/
  threshold : Option Int
  mark : Char

def UsageManner.roomOf (m : UsageManner) (f : Facts) : Nat := if m.apparent then f.entry.size else f.room

def UsageManner.print (m : UsageManner) (size : Nat) (name : Chars) : Util Unit := do
  if m.threshold.all fun t => if t < 0 then (size : Int) ≤ -t else t ≤ size then Util.print (m.sizes.show size ++ '\t' :: name ++ [m.mark])

/-- What has been measured: the room within a directory and in its files, the status, and the files with
several names that were counted. -/
structure Measured where
  room : Nat
  files : Nat
  status : Nat
  counted : List Nat

/-- Measures an entry and all within it, which is shown on the way. Its room is added. -/
def measure (m : UsageManner) : Nat → Nat → Chars → Measured → Util Measured
  | 0, _, _, r => return { r with status := 1 }
  | n + 1, level, name, r => do
    let d ← disk
    let follow := m.following = .always || (m.following = .given && level = 0)
    if m.skipped.any fun p => Shell.matchesText .fileNames p (baseName name) || Shell.matchesText .fileNames p name then return r
    match d.facts follow name with
    | .error f =>
      complain (cannot "access" name f.text)
      return { r with status := 1 }
    | .ok f =>
      let isShown := m.depth.all (level ≤ ·)
      if f.entry.isDir then
        let inner : Measured := ⟨0, 0, r.status, r.counted⟩
        let inner ← match d.children name with
          | .ok entries =>
            (entries.reverse.map fun (child, _) => Chars.ofBytes child).foldlM
              (fun r child => measure m n (level + 1) (inside name child) r) inner
          | .error f =>
            complain ("cannot read directory " ++ quotedName name ++ ": " ++ f.text)
            pure { inner with status := 1 }
        let own := m.roomOf f + inner.files
        if isShown then m.print (if m.separate then own else own + inner.room) name
        return { inner with room := r.room + own + inner.room, files := r.files }
      else if f.names > 1 && !m.everyName && r.counted.contains f.stamp.number then return r
      else
        if isShown && (m.files || level = 0) then m.print (m.roomOf f) name
        let counted := if f.names > 1 then f.stamp.number :: r.counted else r.counted
        return { r with files := r.files + m.roomOf f, counted }

def du : Applet :=
  withOptions (optionsOf "0aB:bcd:DhHklLmPsSt:xX:" "all=a bytes=b total=c max-depth=d:
    human-readable=h si summarize=s separate-dirs=S apparent-size=apparent block-size=B: null=0
    dereference=L dereference-args=D no-dereference=P count-links=l exclude: threshold=t:
    one-file-system=x") true 1 fun p => do
  let badDepth := (p.value? "d").filter fun v => (Chars.toNat? v).isNone
  if p.has "a" && p.has "s" then return ← missing "cannot both summarize and show all entries"
  if let some depth := badDepth then return ← missing ("invalid maximum depth " ++ quoted depth)
  let sizes := (p.chosen? fun
    | "b", _ => some (.units 1 [])
    | "k", _ => some (.units 1024 [])
    | "m", _ => some (.units 1048576 [])
    | "h", _ => some (.fitting 1024)
    | "si", _ => some (.fitting 1000)
    | "B", size => sizeManner? size
    | _, _ => none).getD (.units 1024 [])
  let depth := if p.has "s" then some 0 else (p.value? "d").bind Chars.toNat?
  let follow := p.lastKey? ["L", "D", "H", "P"]
  let threshold := (p.value? "t").bind fun v =>
    let isBelow := v.head? = some '-'
    let (digits, letters) := (if isBelow then v.tail else v).span Char.isDigit
    match Chars.toNat? digits, sizeFactor? letters with
    | some n, some f => some (if isBelow then -(n * f : Int) else n * f)
    | _, _ => none
  let m : UsageManner :=
    { apparent := p.has "b" || p.has "apparent"
      sizes
      files := p.has "a"
      depth
      separate := p.has "S"
      following := match follow with
        | some "L" => .always
        | some "P" | none => .never
        | some _ => .given
      everyName := p.has "l"
      skipped := p.values "exclude"
      threshold
      mark := if p.has "0" then '\x00' else '\n' }
  let operands := if p.operands.isEmpty then [['.']] else p.operands
  let r ← operands.foldlM (fun r name => measure m 1000 0 name r) ⟨0, 0, 0, []⟩
  if p.has "c" then m.print (r.room + r.files) "total"
  return r.status

end Prune.Utility
