import Prune.Utility.Carry.Run
import Prune.Utility.Directory
import Prune.Utility.Listing

/-!
Files packed one by one, and unpacked again. Texts are packed in blocks that are stored as they are.
-/

namespace Prune.Utility

open Host Util

namespace Packed

def lowBytes (count n : Nat) : Bytes := (List.range count).map fun i => UInt8.ofNat (n / 256 ^ i % 256)

def checksum (text : Bytes) : UInt32 :=
  let step (crc : UInt32) (_ : Nat) : UInt32 :=
    if crc &&& 1 = 1 then (crc >>> 1) ^^^ 0xEDB88320 else crc >>> 1
  ~~~(text.foldl (fun crc b => (List.range 8).foldl step (crc ^^^ b.toUInt32)) 0xFFFFFFFF)

/-- What stands in front of a packed text: the name it had and the time it was changed, in seconds. -/
def head (name : Option Chars) (time : Nat) : Bytes :=
  [0x1F, 0x8B, 8, if name.isSome then 8 else 0] ++ lowBytes 4 (time % 2 ^ 32) ++ [0, 3] ++
    (name.elim [] fun n => Chars.toBytes n ++ [0])

def tail (text : Bytes) : Bytes := lowBytes 4 (checksum text).toNat ++ lowBytes 4 (text.length % 2 ^ 32)

def longestBlock : Nat := 65535

/-- A text in blocks, each with its length and the complement of that; the last one has a mark. -/
def blocks : Nat → Bytes → Bytes
  | 0, _ => []
  | n + 1, text =>
    let part := text.take longestBlock
    let rest := text.drop longestBlock
    (if rest.isEmpty then 1 else 0) :: lowBytes 2 part.length ++ lowBytes 2 (longestBlock - part.length) ++
      part ++ (if rest.isEmpty then [] else blocks n rest)

def pack (name : Option Chars) (time : Nat) (text : Bytes) : Bytes :=
  head name time ++ blocks (text.length + 1) text ++ tail text

inductive Flaw where
  | notPacked | cutShort | malformed | wrongSum

def Flaw.message : Flaw → String
  | .notPacked => "not in gzip format"
  | .cutShort => "unexpected end of file"
  | .malformed => "invalid compressed data--format violated"
  | .wrongSum => "invalid compressed data--crc error"

def unblocked : Nat → Bytes → Except Flaw (Bytes × Bytes)
  | 0, _ => .error .malformed
  | n + 1, mark :: low :: high :: _ :: _ :: rest => do
    let size := low.toNat + 256 * high.toNat
    let part := rest.take size
    if mark > 1 then .error .malformed
    else if part.length < size then .error .cutShort
    else if mark = 1 then return (part, rest.drop size)
    else
      let (more, behind) ← unblocked n (rest.drop size)
      return (part ++ more, behind)
  | _, _ => .error .cutShort

def unpack (b : Bytes) : Except Flaw Bytes := do
  match b with
  | [] => .error .cutShort
  | 0x1F :: 0x8B :: 8 :: flags :: rest =>
    let rest := rest.drop 6
    let rest := if flags &&& 8 = 8 then (rest.dropWhile (· ≠ 0)).drop 1 else rest
    let (text, behind) ← unblocked (rest.length + 1) rest
    if behind.length < 8 then .error .cutShort
    else if behind.take 8 ≠ tail text then .error .wrongSum
    else return text
  | _ => .error .notPacked

end Packed

structure PackManner where
  unpacks : Bool
  prints : Bool
  force : Bool
  keeps : Bool
  named : Bool

def packEnding : Chars := ".gz"

def complainPacked (name : Chars) (text : String) : Util Unit := do
  flush
  let _ ← Act.write 2 ("\ngzip: " ++ name ++ ": " ++ text.toList ++ ['\n'])

def converted? (m : PackManner) (name : Chars) (stored : Option Chars) (stamp : Option Stamp) (text : Chars) :
    Util (Option Bytes) := do
  if m.unpacks then
    match Packed.unpack (Chars.toBytes text) with
    | .ok result => return some result
    | .error f =>
      complainPacked name f.message
      return none
  else
    let time := if m.named then ((stamp.map fun (s : Stamp) => s.modified.fdiv 1000000).getD 0).toNat else 0
    return some (Packed.pack stored time (Chars.toBytes text))

def packedStamp (file target : Chars) (d : Disk) : Except Fault Disk :=
  let stamp := d.stampAt? true file
  d.setStamp true target fun s =>
    { s with
      modified := (stamp.map (·.modified)).getD s.modified
      accessed := (stamp.map (·.accessed)).getD s.accessed }

def packFile (m : PackManner) (file : Chars) : Util Nat := do
  let d ← disk
  let isPacked := packEnding.isSuffixOf file && file.length > packEnding.length
  let toOutput := m.prints || file = ['-']
  if (d.stat file).toOption.any Entry.isDir then failWith 2 (file ++ " is a directory -- ignored")
  else if m.unpacks && !isPacked && !toOutput then failWith 2 (file ++ ": unknown suffix -- ignored")
  else if !m.unpacks && isPacked && !m.force && !toOutput then
    failWith 0 (file ++ " already has " ++ packEnding ++ " suffix -- unchanged")
  else
    match ← contents file with
    | .error f =>
      complainPlainly file f
      return 1
    | .ok text =>
      let target := if m.unpacks then file.take (file.length - packEnding.length) else file ++ packEnding
      if !toOutput && !m.force && (d.look target).isOk then
        failWith 2 (target ++ " already exists;\tnot overwritten")
      else
        let stored := if m.named && file ≠ ['-'] then some (baseName file) else none
        let some result ← converted? m file stored (d.stampAt? true file) text | return 1
        if toOutput then
          print (Chars.ofBytes result)
          return 0
        let mode := match d.stat file with
          | .ok (.file mode _) => mode
          | _ => Disk.plainMode
        match ← change fun d => do
          let d ← (d.clear target).make target (.file mode result)
          let d ← packedStamp file target d
          if m.keeps then return d else d.remove file with
        | .ok _ => return 0
        | .error f =>
          complainPlainly target f
          return 1

def gzip : Applet :=
  withOptions (optionsOf "cdfknNq123456789" "stdout=c to-stdout=c decompress=d uncompress=d
    force=f keep=k no-name=n name=N quiet=q fast=1 best=9") true 1 fun p => do
  let m : PackManner := ⟨p.has "d", p.has "c", p.has "f", p.has "k", !p.has "n"⟩
  let files := p.files
  files.foldlM (fun status file => do
    let more ← packFile m file
    return if status = 1 || more = 1 then 1 else max status more) 0

def gunzip : Applet := fun inv => gzip { inv with name := "gzip", args := ['-', 'd'] :: inv.args }

def zcat : Applet := fun inv => gzip { inv with name := "gzip", args := "-cd" :: inv.args }

/-!
Archives: files with their names and bits one behind the other, in blocks of a fixed size.
-/

open Effort

namespace Archive

def blockSize : Nat := 512

def recordSize : Nat := 10240

/-- A file in an archive. The name of a directory ends with a slash. -/
structure Member where
  name : Chars
  entry : Entry
  time : Int
  /-- The member that is the same file under another name. -/
  twin : Option Chars

def zeros (n : Nat) : Chars := List.replicate n '\x00'

def octalField (width n : Nat) : Chars := (Nat.toDigits 8 n).leftpad (width - 1) '0' ++ ['\x00']

def textField (width : Nat) (text : Chars) : Chars := (text ++ zeros (width - text.length)).take width

def head (name : Chars) (mode size : Nat) (time : Int) (kind : Char) (target : Chars) : Chars :=
  let front := textField 100 name ++ octalField 8 mode ++ octalField 8 0 ++ octalField 8 0 ++
    octalField 12 size ++ octalField 12 time.toNat
  let behind := [kind] ++ textField 100 target ++ "ustar  \x00" ++ textField 32 "root" ++
    textField 32 "root" ++ zeros 183
  let sum := ((front ++ List.replicate 8 ' ' ++ behind).map Char.toNat).foldl (· + ·) 0
  front ++ octalField 7 sum ++ [' '] ++ behind

def inBlocks (size : Nat) (text : Chars) : Chars := text ++ zeros ((size - text.length % size) % size)

def longName (kind : Char) (name : Chars) : Chars :=
  if name.length ≤ 100 then []
  else head "././@LongLink" 0o644 (name.length + 1) 0 kind [] ++ inBlocks blockSize (name ++ ['\x00'])

def Member.bytes (m : Member) : Chars :=
  match m.twin, m.entry with
  | some first, e => longName 'K' first ++ longName 'L' m.name ++ head m.name e.mode 0 m.time '1' first
  | none, .file mode content =>
    longName 'L' m.name ++ head m.name mode content.length m.time '0' [] ++
      inBlocks blockSize (Chars.ofBytes content)
  | none, .dir mode => longName 'L' m.name ++ head m.name mode 0 m.time '5' []
  | none, .link target =>
    let target := Chars.ofBytes target
    longName 'K' target ++ longName 'L' m.name ++ head m.name 0o777 0 m.time '2' target
  | none, .special _ => head m.name 0o666 0 m.time '3' []

def write (members : List Member) : Chars :=
  inBlocks recordSize (members.flatMap Member.bytes ++ zeros (2 * blockSize))

def textOf (field : Chars) : Chars := field.takeWhile (· ≠ '\x00')

def numberOf (field : Chars) : Nat :=
  Chars.valueIn 8 ((field.dropWhile (· = ' ')).takeWhile (Chars.isDigitOf 8))

def isHead (block : Chars) : Bool :=
  let sum := (block.zipIdx.map fun (c, i) => if 148 ≤ i && i < 156 then 32 else c.toNat).foldl (· + ·) 0
  block.length = blockSize && numberOf ((block.drop 148).take 8) = sum

/-- What stands in an archive, and whether it is one. Long names come in front of what they are for. -/
def readFrom : Nat → Option Chars → Option Chars → Chars → Bool → List Member × Bool
  | 0, _, _, _, _ => ([], true)
  | n + 1, longName, longTarget, text, isFirst =>
    let block := text.take blockSize
    if block.isEmpty || block.all (· = '\x00') then ([], !isFirst || !block.isEmpty)
    else if !isHead block then ([], false)
    else
      let field (start size : Nat) : Chars := (block.drop start).take size
      let rest := text.drop blockSize
      let size := numberOf (field 124 12)
      let mode := numberOf (field 100 8)
      let content := rest.take size
      let behind := rest.drop ((size + blockSize - 1) / blockSize * blockSize)
      let front := if field 257 6 = "ustar\x00" then textOf (field 345 155) else []
      let ownName := textOf (field 0 100)
      let name := longName.getD (if front.isEmpty then ownName else front ++ '/' :: ownName)
      let target := longTarget.getD (textOf (field 157 100))
      let time : Int := numberOf (field 136 12)
      let found (e : Entry) (twin : Option Chars) : List Member × Bool :=
        let (more, ok) := readFrom n none none behind false
        (⟨name, e, time, twin⟩ :: more, ok)
      match (block.drop 156).headD '0' with
      | 'L' => readFrom n (some (textOf content)) longTarget behind false
      | 'K' => readFrom n longName (some (textOf content)) behind false
      | '5' => found (.dir mode) none
      | '2' => found (.link (Chars.toBytes target)) none
      | '3' => found (.special .null) none
      | 'x' | 'g' => readFrom n longName longTarget behind false
      | '1' => found (.file mode []) (some target)
      | _ => found (.file mode (Chars.toBytes content)) none

def read (text : Chars) : List Member × Bool := readFrom (text.length / blockSize + 2) none none text true

end Archive

structure ArchiveManner where
  verbose : Nat
  packs : Bool
  /-- Names keep the slash in front. -/
  absolute : Bool
  /-- Contents are printed. -/
  prints : Bool
  strips : Nat
  exact : Bool
  excluded : List Chars
  /-- Files that are unpacked get the time at which that is done. -/
  touches : Bool
  zone : Calendar.Zone

structure Wanted where
  dir : Option Chars
  name : Chars

/-- A name as it is seen from a directory. -/
def seenFrom (dir : Option Chars) (name : Chars) : Chars :=
  match dir with
  | some d => if name.head? = some '/' then name else inside d name
  | none => name

def Wanted.path (w : Wanted) : Chars := seenFrom w.dir w.name

section

variable (m : ArchiveManner)

variable (name : Chars)

/-- Whether a pattern fits a name, or the end of a name behind a slash, or a directory on the way. -/
def isExcluded : Bool :=
  let steps := Chars.splitAt '/' (withoutSlashes name)
  let count := steps.length
  let parts := (List.range count).flatMap fun i =>
    (List.range (count - i)).map fun k => Chars.join ['/'] ((steps.drop i).take (k + 1))
  m.excluded.any fun pattern => parts.any fun part => Shell.matchesText .fileNames pattern part

def storedName : Chars × Chars :=
  if m.absolute then (name, [])
  else
    let steps := Chars.splitAt '/' name
    let last := (steps.zipIdx.filter fun (s, _) => s = ['.', '.']).getLast?
    let front := (last.map fun (_, i) => Chars.join ['/'] (steps.take (i + 1))).getD []
    let (slashes, rest) := (name.drop front.length).span (· = '/')
    (if rest.isEmpty then ['.'] else rest, front ++ slashes)

/-- What may be left out of names, and how it has gone so far. -/
structure Collecting where
  taken : List Chars := []
  status : Nat := 0

def collect (archive : Option Chars) : Nat → Wanted →
    StateT Collecting Util (List (Archive.Member × Chars))
  | 0, _ => do
    modify ({ · with status := 2 })
    return []
  | n + 1, w => do
    let d ← disk
    let failed (what : String) (f : Fault) : StateT Collecting Util Unit := do
      complain (w.name ++ ": Cannot " ++ what.toList ++ ": " ++ f.text)
      modify ({ · with status := 2 })
    if isExcluded m w.name then return []
    match d.facts false w.path with
    | .error f =>
      failed "stat" f
      return []
    | .ok facts =>
      let isDir := facts.entry.isDir
      let name := if isDir then withoutSlashes w.name else w.name
      let (stored, taken) := storedName m name
      if let some a := if isDir then none else archive then
        if ← isSamePlace true a w.path then
          complain (name ++ ": archive cannot contain itself; not dumped")
          return []
      modify fun s => { s with taken := s.taken ++ [taken] }
      let own : Archive.Member :=
        ⟨if isDir then stored ++ ['/'] else stored, facts.entry, facts.stamp.modified.fdiv 1000000, none⟩
      if !isDir then return [(own, w.path)]
      match d.children w.path with
      | .error f =>
        failed "open" f
        return [(own, w.path)]
      | .ok entries =>
        let parts ← entries.mapM fun (child, _) =>
          collect archive n { w with name := inside name (Chars.ofBytes child) }
        return (own, w.path) :: parts.reverse.flatten

def withTwins (d : Disk) (follow : Bool) (found : List (Archive.Member × Chars)) :
    List (Archive.Member × Chars) :=
  (found.foldl (fun ((done, seen) : List (Archive.Member × Chars) × List (Nat × Chars)) (member, path) =>
    let shared := (d.facts follow path).toOption.filter fun f => !f.entry.isDir && f.names ≥ 2
    match shared, shared.bind (seen.lookup ·.stamp.number) with
    | _, some first => (({ member with twin := some first }, path) :: done, seen)
    | some f, none => ((member, path) :: done, (f.stamp.number, member.name) :: seen)
    | none, none => ((member, path) :: done, seen)) ([], [])).1.reverse

def memberLine (verbose : Bool) (x : Archive.Member) : Chars :=
  if !verbose then x.name
  else
    let size := Chars.ofNat (match x.entry, x.twin with
      | .file _ content, none => content.length
      | _, _ => 0)
    let arrow := match x.twin, x.entry with
      | some first, _ => " link to " ++ first
      | none, .link target => " -> " ++ Chars.ofBytes target
      | none, _ => []
    let mode := if x.twin.isSome then 'h' :: (modeText x.entry).tail else modeText x.entry
    mode ++ " root/root " ++ Chars.padLeft 9 size ++ ' ' ::
      timeText m.zone (x.time * 1000000) "%Y-%m-%d %H:%M" ++ ' ' :: x.name ++ arrow

def isWanted (member : Archive.Member) : Bool :=
  let plain := withoutSlashes name
  withoutSlashes member.name = plain || (plain ++ ['/']).isPrefixOf member.name

def stripped : Option Chars :=
  let kept := (Chars.splitAt '/' name).drop m.strips
  if m.strips = 0 then some name
  else if kept.all List.isEmpty then none
  else some (Chars.join ['/'] kept)

def targetOf (dir : Option Chars) (name : Chars) : Chars :=
  (dir.map (inside ·)).getD id (withoutSlashes name)

def stampMember (member : Archive.Member) (target : Chars) : Util Unit := do
  if !m.touches then
    let _ ← change fun d => d.setStamp false target
      fun s => { s with modified := member.time * 1000000 }

def makeWay (mask : Nat) (name : Chars) (d : Disk) : Except Fault Disk :=
  (waysTo name ++ [name]).foldlM (fun d (w : Chars) =>
    match d.stat w with
    | .ok (.dir _) => .ok d
    | .ok _ => .error (if w = name then .exists else .notDirectory)
    | .error _ => d.makeDirectory w (without 0o777 mask)) d

def unpackMember (dir : Option Chars) (mask : Nat) (member : Archive.Member) : Effort Unit := do
  let some name := stripped m (storedName m member.name).1 | return
  let target := targetOf dir name
  let old := ((← disk).look target).toOption
  let bits (mode : Nat) : Nat := if m.exact then mode else Disk.masked mode mask
  let lead (d : Disk) : Except Fault Disk :=
    let above := dirName target
    if above = ['.'] || (d.stat above).isOk then .ok d else makeWay mask above d
  let words (what : Chars) (f : Fault) : Chars := member.name ++ ": " ++ what ++ ": " ++ f.text
  match member.twin, member.entry with
  | none, .dir mode =>
    insist 2 (words "Cannot mkdir") (← change fun d => do
      if old.any Entry.isDir then d.setMode target (bits mode)
      else ((← lead d).clear target).makeDirectory target (bits mode))
  | twin, entry =>
    let words := words (match twin, entry with
      | some t, _ => "Cannot hard link to " ++ quoted t
      | none, .link text => "Cannot create symlink to " ++ quoted (Chars.ofBytes text)
      | none, _ => "Cannot open")
    if old.any Entry.isDir then
      refuse 2 (words (if entry.isLink || twin.isSome then .exists else .isDirectory))
    let made := match entry with
      | .file mode content => Entry.file (bits mode) content
      | e => e
    insist 2 words (← change fun d => do
      let d := (← lead d).clear target
      match twin with
      | some t => d.makeName (targetOf dir ((stripped m (storedName m t).1).getD t)) target
      | none => d.make target made)
    if twin.isNone then stampMember m member target

def recoverable (file : Chars) : Except Fault α → Effort α
  | .ok a => return a
  | .error f => do
    complain (file ++ ": Cannot open: " ++ f.text)
    refuse 2 "Error is not recoverable: exiting now"

def tarFailure : Effort α := refuse 2 "Exiting with failure status due to previous errors"

def readArchive (file : Chars) : Effort (List Archive.Member) := do
  let text ← recoverable file (← contents file)
  let text := ((Packed.unpack (Chars.toBytes text)).toOption.map Chars.ofBytes).getD text
  let (members, ok) := Archive.read text
  if !ok && members.isEmpty then
    complain "This does not look like a tar archive"
    tarFailure
  return members

def writeArchive (file : Chars) (members : List Archive.Member) : Effort Unit := do
  let text := Archive.write members
  let bytes := if m.packs then Packed.pack none 0 (Chars.toBytes text) else Chars.toBytes text
  if file = ['-'] then print (Chars.ofBytes bytes)
  else
    let mask ← umask
    recoverable file (← change fun d => do
      return (← d.openFile file (0o666 - (0o666 &&& mask))).truncate.append bytes)

end

/-- The operands with the directories they are in, and the last such directory. -/
def wantedOf (args : List Given) : List Wanted × Option Chars :=
  args.foldl (fun ((wanted, dir) : List Wanted × Option Chars) g =>
    match g.key with
    | "C" => (wanted, some (seenFrom dir g.value))
    | "" => (wanted ++ [⟨dir, g.value⟩], dir)
    | _ => (wanted, dir)) ([], none)

def tarOptions : List OptionSpec :=
  optionsOf "ctxC:f:zvpPOmo" "create=c extract=x get=x list=t file=f: directory=C: gzip=z
    gunzip=z verbose=v preserve-permissions=p absolute-names=P to-stdout=O strip-components=strip:
    exclude: no-same-owner=o touch=m"

def withDashes (args : List Chars) : List Chars :=
  match args with
  | [] => []
  | first :: rest =>
    if first.head? = some '-' || first.isEmpty then args
    else
      let takes (c : Char) : Bool := (tarOptions.find? fun s => s.letter = some c).any fun s => s.arity = .required
      let (front, rest) := first.foldl (fun ((front, rest) : List Chars × List Chars) c =>
        let count := if takes c then 1 else 0
        (front ++ ['-', c] :: rest.take count, rest.drop count)) ([], rest)
      front ++ rest

def orderedArguments : Nat → List Chars → Except Chars (List Given)
  | 0, _ | _, [] => .ok []
  | n + 1, arg :: rest =>
    match arg with
    | ['-', '-'] => .ok (rest.map (Given.mk ""))
    | '-' :: '-' :: text => do
      let (given, rest) ← readLong tarOptions text rest
      return given :: (← orderedArguments n rest)
    | '-' :: c :: letters => do
      let (given, rest) ← readLetters tarOptions (c :: letters) rest
      return given ++ (← orderedArguments n rest)
    | operand => do return ⟨"", operand⟩ :: (← orderedArguments n rest)

def tarUsage (text : Chars) (status : Nat) : Util Nat := do
  complain text
  let _ ← Act.write 2 "Try 'tar --help' or 'tar --usage' for more information.\n"
  return status

def tell (toErrors : Bool) (line : Chars) : Util Unit := do
  if toErrors then let _ ← Act.write 2 line
  else print line

def createArchive (m : ArchiveManner) (file : Chars) (wanted : List Wanted) : Effort Nat := do
  let own := if file = ['-'] then none else some file
  let (parts, s) ← (wanted.mapM (collect m own 1000)).run {}
  let found := withTwins (← disk) false parts.flatten
  for taken in (s.taken.filter (!·.isEmpty)).take 1 do
    complain ("Removing leading \x60" ++ taken ++ "' from member names")
  if m.verbose > 0 then
    for (member, _) in found do
      tell (file = ['-']) (memberLine m (m.verbose > 1) member ++ ['\n'])
  writeArchive m file (found.map (·.1))
  if s.status ≠ 0 then tarFailure else return 0

def useArchive (m : ArchiveManner) (lists : Bool) (file : Chars) (names : List Chars) (dir : Option Chars) :
    Effort Nat := do
  let d ← disk
  let members ← readArchive file
  let _ ← recoverable (dir.getD []) (dir.mapM fun name => d.children name)
  let mask ← umask
  let chosen := members.filter fun member =>
    (names.isEmpty || names.any (isWanted · member)) && !isExcluded m member.name
  let status ← forEach chosen fun member => do
    if lists then
      printLine (memberLine m (m.verbose > 0) member)
      return 0
    if m.verbose > 0 then tell m.prints (memberLine m (m.verbose > 1) member ++ ['\n'])
    if m.prints then
      if let .file _ content := member.entry then print (Chars.ofBytes content)
      return 0
    Effort.status do
      unpackMember m dir mask member
      return 0
  -- directories get their times when all in them is there
  if !lists && !m.prints then
    for member in chosen.reverse do
      match member.entry, stripped m (storedName m member.name).1 with
      | .dir _, some name => stampMember m member (targetOf dir name)
      | _, _ => pure ()
  let absent := names.filter fun name => !members.any (isWanted name)
  for name in absent do
    complain (name ++ ": Not found in archive")
  if !absent.isEmpty || status = 2 then tarFailure else return status

def tar : Applet := do
  let args ← args
  match orderedArguments (args.length + 100) (withDashes args) with
  | .error text => tarUsage text 64
  | .ok given =>
    let p : Parsed := ⟨given, []⟩
    let file := (p.value? "f").getD ['-']
    let (wanted, dir) := wantedOf given
    let m : ArchiveManner := ⟨(given.filter (·.key = "v")).length, p.has "z", p.has "P", p.has "O",
      ((p.value? "strip").bind Chars.toNat?).getD 0, p.has "p", p.values "exclude", p.has "m", ← zone⟩
    match (given.map (·.key)).filter ["c", "t", "x"].contains |>.eraseDups with
    | [] =>
      tarUsage "You must specify one of the '-Acdtrux', '--delete' or '--test-label' options" 2
    | ["c"] =>
      if wanted.isEmpty then tarUsage "Cowardly refusing to create an empty archive" 2
      else (createArchive m file wanted).status
    | [act] => (useArchive m (act = "t") file (wanted.map (·.name)) dir).status
    | _ =>
      tarUsage
        "You may not specify more than one '-Acdtrux', '--delete' or  '--test-label' option" 2

end Prune.Utility
