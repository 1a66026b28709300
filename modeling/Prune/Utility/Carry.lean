import Prune.Utility.Carry.Run
import Prune.Utility.Directory

/-!
Programs that copy files and give them other names.
-/

namespace Prune.Utility

open Host

inductive Attribute where
  | mode | ownership | timestamps | links | context | xattr | all
deriving DecidableEq

def attributeWords : List (String × Attribute) :=
  [("mode", .mode), ("timestamps", .timestamps), ("ownership", .ownership), ("links", .links),
    ("context", .context), ("xattr", .xattr), ("all", .all)]

def listWords (text : Chars) : List Chars := Chars.splitAt ',' text

def keptAttributes (options : List Given) : List Attribute :=
  let every := attributeWords.map (·.2)
  let named (text : Chars) : List Attribute :=
    let found := (listWords text).filterMap fun w => (meaning attributeWords w).toOption
    if found.contains .all then every else found
  options.foldl (fun kept o =>
    match o.key with
    | "a" => every
    | "p" => [.mode, .ownership, .timestamps] ++ kept
    | "d" => .links :: kept
    | "keep" => if o.value.isEmpty then [.mode, .ownership, .timestamps] ++ kept else named o.value ++ kept
    | "drop" => kept.filter fun a => !(named o.value).contains a
    | _ => kept) []

def cpOptions : List OptionSpec :=
  lettersOf "adfHiLlnPpRrsTt:uvxZ" ++ backupOptions ++ longsOf "recursive=r force=f archive=a no-clobber=n
    preserve=keep:: no-preserve=drop: interactive=i target-directory=t: verbose=v update=u link=l
    symbolic-link=s dereference=L no-dereference=P one-file-system=x remove-destination=clear
    attributes-only=attributes reflink:: sparse: copy-contents=copy strip-trailing-slashes=strip
    no-target-directory=T context=Z::"

variable (p : Parsed)

def copyingBy (backup : Option Backup) : Carrying :=
  let recursive := p.has "r" || p.has "R" || p.has "a"
  let kept := keptAttributes p.options
  let drops := p.options.any fun o =>
    o.key = "drop" && (listWords o.value).any fun w =>
      meaning attributeWords w matches .ok .mode || meaning attributeWords w matches .ok .all
  { recursive
    following := match p.lastKey? ["P", "d", "a", "L", "H"] with
      | some "L" => .always
      | some "H" => .given
      | some _ => .never
      | none => if recursive && !p.has "l" then .never else .always
    overwriting := match p.lastKey? ["n", "i"] with
      | some "n" => .never
      | some _ => .asks
      | none => .unsaid
    force := p.has "f"
    clears := p.has "clear"
    updates := p.has "u"
    keepsMode := kept.contains .mode
    dropsMode := drops && !kept.contains .mode
    keepsTimes := kept.contains .timestamps
    keepsNames := kept.contains .links
    names := p.has "l"
    symbols := p.has "s"
    attributesOnly := p.has "attributes"
    asFiles := !recursive || p.has "copy"
    verbose := p.has "v"
    backup }

def trimmed (source : Chars) : Chars := if p.has "strip" then withoutSlashes source else source

def cp : Applet :=
  withOptions cpOptions true 1 fun p =>
  withWords "--preserve" attributeWords 1
    (((p.values "keep").filter (!·.isEmpty) ++ p.values "drop").flatMap listWords) fun _ =>
  withWords "--reflink" [("auto", 0), ("always", 1), ("never", 2)] 1 ((p.values "reflink").filter (!·.isEmpty))
    fun _ =>
  withWords "--sparse" [("never", 0), ("auto", 1), ("always", 2)] 1 (p.values "sparse") fun _ =>
  withKeeping p ((p.last? ["n", "i"]).any (·.key = "n")) fun backup => do
  let o := copyingBy p backup
  if o.names && o.symbols then missing "cannot make both hard and symbolic links"
  else
    withErrand p isDirectory fun errand => do
      match errand with
      | .into dir sources =>
        let sources := sources.map (trimmed p)
        o.carryAll (sources.map fun s =>
          let base := baseName s
          (s, inside dir (if base = ['.', '.'] then ['.'] else base)))
      | .onto source target =>
        let source := trimmed p source
        let isFile := (← entryAt? target).any Entry.isFile
        let some b := o.backup | o.carryAll [(source, target)]
        if o.force && source = target && isFile then
          let bare : Carrying := { o with backup := none }
          bare.carryAll [(source, b.nameFor (← Util.disk) target)]
        else o.carryAll [(source, target)]

def mvOptions : List OptionSpec :=
  lettersOf "finTt:uvZ" ++ backupOptions ++ longsOf "force=f no-clobber=n interactive=i update=u
    target-directory=t: verbose=v strip-trailing-slashes=strip no-target-directory=T context=Z"

def overwritingBy : Overwriting :=
  match p.lastKey? ["f", "i", "n"] with
  | some "f" => .always
  | some "i" => .asks
  | some _ => .never
  | none => .unsaid

def movingBy (backup : Option Backup) : Carrying where
  moves := true
  recursive := true
  following := .never
  overwriting := overwritingBy p
  updates := p.has "u" && overwritingBy p ≠ .never
  keepsMode := true
  keepsTimes := true
  keepsNames := true
  verbose := p.has "v"
  backup

def mv : Applet :=
  withOptions mvOptions true 1 fun p =>
  withKeeping p (overwritingBy p = .never) fun backup =>
  withErrand p isDirectory fun errand =>
    let pairs := match errand with
      | .into dir sources => (sources.map (trimmed p)).map fun s => (s, inside dir (baseName s))
      | .onto source target => [(trimmed p source, target)]
    (movingBy p backup).carryAll pairs

/-!
Programs that give files further names, and make links to names.
-/

open Util

structure LinkManner where
  symbolic : Bool
  logical : Bool
  relative : Bool
  force : Bool
  asks : Bool
  verbose : Bool
  backup : Option Backup

namespace LinkManner

variable (m : LinkManner)

def makesWay : Bool := m.force || m.asks || m.backup.isSome

def textFor (d : Disk) (source name : Chars) : Chars :=
  let leads (text : Chars) : Option Location := (whereTo d .nothing false text).toOption
  match m.relative, leads (dirName name), leads source with
  | true, some dir, some target => wayBetween dir target
  | _, _, _ => source

def make (source text name : Chars) (replaces : Bool) : Util (Except Fault Unit) := do
  let real := realPath (← disk) m.logical source
  change fun d => do
    let d ← if replaces && !(!m.symbolic && d.isSame real name) then d.remove name else pure d
    if m.symbolic then d.makeLink name (Chars.toBytes text)
    else if replaces && d.isSame real name then return d
    else d.makeName real name

def failure (text name : Chars) (f : Fault) : Chars :=
  let quiet := if m.symbolic then f ≠ .nameTooLong && !text.isEmpty else f = .exists
  "failed to create " ++ (if m.symbolic then "symbolic link " else "hard link ").toList ++ quotedName name ++
    (if quiet then [] else (if m.symbolic then " -> " else " => ").toList ++ quotedName text) ++
    ": " ++ f.text

/-- What is done about something that is in the way: a reason to stop, or the name it is kept under. -/
def clear (source text name : Chars) (src : Option Facts) (old : Facts) : Effort (Option Chars) := do
  let d ← disk
  let through := if m.symbolic then (d.facts true source).toOption else src
  let isSame := (m.backup.isNone || !m.symbolic) && through.any fun f =>
    f.stamp.number = old.stamp.number && (f.names = 1 || isOneName d source name)
  if old.entry.isDir then Effort.refuse 1 (namedFile name ++ ": cannot overwrite directory")
  if isSame then Effort.refuse 1 (sameFileWords text name)
  if m.asks then
    if !(← confirm ("replace " ++ quotedName name)) then throw 0
  m.backup.mapM fun b => do
    let kept : Chars := b.nameFor d name
    Effort.insist 1 (cannot "backup" name ·.text) (← change fun d => d.rename name kept)
    return kept

def makeOne (source name : Chars) : Applet := Effort.status do
  let d ← disk
  let known := if m.symbolic then .ok none else (d.facts m.logical source).map some
  let src ← Effort.insist 1 (fun f => "failed to access " ++ quotedName source ++ ": " ++ f.text) known
  if src.any fun f => f.entry.isDir then
    Effort.refuse 1 (namedFile source ++ ": hard link not allowed for directory")
  let text := m.textFor d source name
  let old := if m.makesWay then (d.facts false name).toOption else none
  let kept ← old.mapM (m.clear source text name src)
  let kept := kept.join
  Effort.insist 1 (m.failure text name) (← m.make source text name (old.isSome && kept.isNone))
  if m.verbose then
    let front := match kept with
      | some k => quotedName k ++ " ~ "
      | none => []
    printLine (front ++ quotedName name ++ (if m.symbolic then " -> " else " => ").toList ++
      quotedName text)
  return 0

/-- Makes names of several files in a directory. A name that was just made is not taken away again. -/
def makeMany (dir : Chars) (sources : List Chars) : Util Nat := do
  let watches := sources.length > 1 && m.force && !m.symbolic && !m.backup.any (·.keeping = .numbered)
  let (status, _) ← sources.foldlM (fun ((status, made) : Nat × List Chars) source => do
    let name := inside dir (withoutSlashes (baseName source))
    if watches && made.contains name then
      complain ("will not overwrite just-created " ++ quotedName name ++ " with " ++ quotedName source)
      return (1, made)
    let here ← m.makeOne source name
    return (max status here, name :: made)) (0, [])
  return status

end LinkManner

def lnOptions : List OptionSpec :=
  lettersOf "dFfiLnPrsTt:v" ++ backupOptions ++ longsOf "symbolic=s force=f interactive=i logical=L
    physical=P relative=r directory=d target-directory=t: no-dereference=n no-target-directory=T verbose=v"

def ln : Applet :=
  withOptions lnOptions true 1 fun p =>
  withBackup p fun backup => do
  let m : LinkManner :=
    { symbolic := p.has "s"
      logical := p.lastKey? ["L", "P"] = some "L"
      relative := p.has "r"
      force := p.lastKey? ["f", "i"] = some "f"
      asks := p.lastKey? ["f", "i"] = some "i"
      verbose := p.has "v"
      backup }
  let accepts (name : Chars) : Util Bool := do
    let isLink := ((← disk).look name).toOption.any Entry.isLink
    return (← isDirectory name) && !(p.has "n" && isLink)
  if m.relative && !m.symbolic && !p.operands.isEmpty then
    failWith 1 "cannot do --relative without --symbolic"
  else
    match p.operands, p.has "t" || p.has "T" with
    | [only], false => m.makeMany ['.'] [only]
    | _, _ =>
      withErrand p accepts fun errand =>
        match errand with
        | .into dir sources => m.makeMany dir sources
        | .onto source name => m.makeOne source name

def link : Applet :=
  withOptions [] true 1 fun p => do
  let [source, target] := p.operands | wrongOperands 2 p.operands
  attempt (fun why => "cannot create link " ++ quotedName target ++ " to " ++ quotedName source ++ ": " ++ why)
    fun d => d.makeName source target

/-!
Files put in place with the bits they are to have.
-/

structure InstallManner where
  mode : Nat
  dirMode : Nat
  verbose : Bool
  backup : Option Backup
  compares : Bool
  keepsTimes : Bool
  leads : Bool

namespace InstallManner

variable (m : InstallManner)

def carrying : Carrying where
  following := .always
  overwriting := .unsaid
  clears := true
  keepsTimes := m.keepsTimes
  asFiles := true
  mode := some m.mode
  verbose := m.verbose
  backup := m.backup

def making (bits : Option Nat) : MakeManner where
  mode := bits.getD 0o755
  wayMode := 0o755
  exact := bits
  makesWay := true
  announcement := if m.verbose then some "creating directory" else none
  leavesOld := false

def isInPlace (d : Disk) (source target : Chars) : Bool :=
  match d.stat source, d.look target with
  | .ok (.file _ content), .ok old => m.compares && m.mode < 0o1000 && old = .file m.mode content
  | _, _ => false

def installAll (pairs : List (Chars × Chars)) : Util Nat := do
  let d ← Util.disk
  m.carrying.carryAll (pairs.filter fun (source, target) => !m.isInPlace d source target)

def installAt (source target : Chars) : Util Nat := do
  let status ← if m.leads then (m.making none).makeWays (waysTo target) else pure 0
  if status ≠ 0 then return status else m.installAll [(source, target)]

def installInto (dir : Chars) (sources : List Chars) : Util Nat :=
  m.installAll (sources.map fun s => (s, inside dir (baseName s)))

end InstallManner

def installOptions : List OptionSpec :=
  lettersOf "cCdDg:m:o:pst:TvZ" ++ backupOptions ++ longsOf "directory=d mode=m: target-directory=t:
    no-target-directory=T verbose=v compare=C owner=o: group=g: preserve-timestamps=p strip=s
    strip-program=program: preserve-context=context context=Z::"

def install : Applet :=
  withOptions installOptions true 1 fun p =>
  withBackup p fun backup => do
  let given := (p.value? "m").map fun text => (text, ModeChange.read? text)
  if let some (text, none) := given then return ← failWith 1 ("invalid mode " ++ quoted text)
  let changes := (given.bind (·.2)).getD [ModeChange.ofBits 0o755]
  let m : InstallManner :=
    { mode := ModeChange.applyAll changes 0 false 0
      dirMode := ModeChange.applyAll changes 0 true 0
      verbose := p.has "v"
      backup
      compares := p.has "C"
      keepsTimes := p.has "p"
      leads := p.has "D" }
  if p.has "d" then
    if p.operands.isEmpty then missing "missing file operand"
    else Util.forEach p.operands fun name => (m.making (some m.dirMode)).make name
  else if m.compares && m.keepsTimes then
    missing "options --compare (-C) and --preserve-timestamps are mutually exclusive"
  else
    match p.value? "t", p.operands with
    | some dir, first :: rest =>
      match (← Util.disk).stat dir with
      | .ok (.dir _) => m.installInto dir (first :: rest)
      | .ok _ => failWith 1 ("failed to access " ++ quotedName dir ++ ": Not a directory")
      | .error f =>
        if m.leads && f = .notFound then
          let status ← (m.making none).make dir
          if status ≠ 0 then return status else m.installInto dir (first :: rest)
        else failWith 1 ("failed to access " ++ quotedName dir ++ ": " ++ f.text)
    | _, _ =>
      withErrand p isDirectory fun errand =>
        match errand with
        | .into dir sources => m.installInto dir sources
        | .onto source target => m.installAt source target

end Prune.Utility
