import Prune.Utility.Mode

/-!
Programs that make directories and take away empty ones.
-/

namespace Prune.Utility

open Host Util

def waysTo (name : Chars) : List Chars :=
  let rec go (front : Chars) : Chars → List Chars
    | [] => []
    | '/' :: rest =>
      let isStep := front.any (· ≠ '/') && front.head? ≠ some '/' && rest.any (· ≠ '/')
      if isStep then front.reverse :: go ('/' :: front) rest else go ('/' :: front) rest
    | c :: rest => go (c :: front) rest
  (go [] name).filter fun way => baseName way ≠ ['.']

structure MakeManner where
  /-- The bits of those that are made, and of those on the way. -/
  mode : Nat
  wayMode : Nat
  /-- The bits that are set however the mask is. -/
  exact : Option Nat
  makesWay : Bool
  /-- What is said of each. -/
  announcement : Option String
  /-- One that is there already is left alone. -/
  leavesOld : Bool

namespace MakeManner

variable (m : MakeManner)

def announce (name : Chars) : Util Unit :=
  m.announcement.forM fun words => do
    printLine ((← read).name ++ ": " ++ words.toList ++ ' ' :: quotedName name)

def failed (name : Chars) (f : Fault) : Util Nat := do
  failWith 1 ("cannot create directory " ++ quoted name ++ ": " ++ f.text)

def makeWays : List Chars → Util Nat
  | [] => return 0
  | way :: rest => do
    match ← change fun d => d.makeDirectory way m.wayMode with
    | .ok _ =>
      m.announce way
      makeWays rest
    | .error fault =>
      match (← disk).stat way with
      | .ok (.dir mode) => if Disk.allows mode Disk.runBit then makeWays rest else failed way .denied
      | .ok _ => failed way .notDirectory
      | .error f => failed way (if f = .notFound then fault else f)

def make (name : Chars) : Util Nat := do
  let status ← if m.makesWay then m.makeWays (waysTo name) else pure 0
  if status ≠ 0 then return status
  let setBits : Util Nat := do
    let some bits := m.exact | return 0
    attempt (fun why => "cannot change permissions of " ++ quoted name ++ ": " ++ why)
      fun d => d.setMode name bits
  match ← change fun d => d.makeDirectory name m.mode with
  | .ok _ =>
    m.announce name
    setBits
  | .error f =>
    if m.makesWay && f ≠ .notFound && (← isDirectory name) then
      if m.leavesOld then return 0 else setBits
    else failed name f

end MakeManner

/-- The bits of a directory that is made with changes to all permissions. One that others could write to
is not open to them while its further bits are not set. -/
def madeMode (mask : Nat) (changes : List ModeChange) : Nat :=
  let mode := ModeChange.applyAll changes mask true 0o777
  let touched := ModeChange.touched changes mask true 0o777
  let hasFurther := (touched &&& identityBits) ||| (mode &&& 0o1000) ≠ 0
  let first := if hasFurther then without mode 0o022 else mode
  if (first ^^^ mode) &&& touched = 0 then first else mode

def mkdir : Applet :=
  withOptions (optionsOf "m:pvZ" "parents=p mode=m: verbose=v context=Z::") true 1 fun p => do
  let mask ← umask
  if p.operands.isEmpty then return ← missing "missing operand"
  let given := (p.value? "m").map fun text => (text, ModeChange.read? text)
  if let some (text, none) := given then return ← failWith 1 ("invalid mode " ++ quoted text)
  let exact := given.bind fun (_, changes) => changes.map (madeMode mask)
  let m : MakeManner :=
    { mode := exact.getD (without 0o777 mask)
      wayMode := without 0o777 (without mask 0o300)
      exact
      makesWay := p.has "p"
      announcement := if p.has "v" then some "created directory" else none
      leavesOld := true }
  forEach p.operands m.make

def above : Nat → Chars → List Chars
  | 0, _ => []
  | n + 1, name =>
    if !name.contains '/' then []
    else
      let front := Chars.trimEnd (· ≠ '/') name
      let short := Chars.trimEnd (· = '/') front
      let dir := if short.isEmpty then front.take 1 else short
      if dir = name then [] else dir :: above n dir

def rmdir : Applet :=
  withOptions (optionsOf "pv" "parents=p verbose=v ignore-fail-on-non-empty=ignore") true 1 fun p => do
  let announce (name : Chars) : Util Unit := do
    if p.has "v" then printLine ((← read).name ++ ": removing directory, " ++ quotedName name)
  let removeUp : List Chars → Util Nat := fun dirs => do
    let (status, _) ← dirs.foldlM (fun (status, goesOn) dir => do
      if !goesOn then return (status, false)
      announce dir
      match ← change fun d => d.removeDirectory dir with
      | .ok _ => return (status, true)
      | .error f =>
        if f = .notEmpty && p.has "ignore" then return (status, false)
        else
          let what := if f = .notDirectory then "" else "directory "
          complain ("failed to remove " ++ what.toList ++ quotedName dir ++ ": " ++ f.text)
          return (1, false)) ((0, true) : Nat × Bool)
    return status
  if p.operands.isEmpty then missing "missing operand"
  else
    forEach p.operands fun name => do
      announce name
      match ← change fun d => d.removeDirectory name with
      | .ok _ => if p.has "p" then removeUp (above (name.length + 1) (withoutSlashes name)) else return 0
      | .error f =>
        let d ← disk
        let isLink := (d.look (withoutSlashes name)).toOption.any Entry.isLink
        if f = .notEmpty && p.has "ignore" then return 0
        else if f = .notDirectory && name.getLast? = some '/' && isLink then
          failWith 1 ("failed to remove " ++ quotedName name ++ ": Symbolic link not followed")
        else failWith 1 ("failed to remove " ++ quotedName name ++ ": " ++ f.text)

/-!
Programs that take away files, and directories with all in them.
-/

inductive Prompting where
  | never | once | always
deriving DecidableEq

structure RemoveManner where
  recursive : Bool
  emptyDirs : Bool
  ignoresMissing : Bool
  prompting : Prompting
  verbose : Bool
  keepsRoot : Bool

/-- What came of it: it is gone, it was left there because of an answer, or it could not be done. -/
inductive Removal where
  | gone | declined | failed
deriving DecidableEq

def Removal.worse : Removal → Removal → Removal
  | .failed, _ | _, .failed => .failed
  | .declined, _ => .declined
  | _, r => r

namespace RemoveManner

def refuse (name : Chars) (why : Chars) : Util Removal := do
  complain (cannot "remove" name why)
  return .failed

variable (m : RemoveManner)

def unfound (name : Chars) (f : Fault) : Util Removal := do
  if m.ignoresMissing && (f = .notFound || f = .notDirectory) then return .gone else refuse name f.text

def excise (name : Chars) (isDir : Bool) : Util Removal := do
  let place : Path := name
  match ← change fun d => if isDir then d.removeDirectory place else d.remove place with
  | .ok _ =>
    if m.verbose then
      printLine ((if isDir then "removed directory " else "removed ").toList ++ quotedName name)
    return .gone
  | .error f => m.unfound name f

def asks (verb : String) (name : Chars) (e : Entry) : Util Bool := do
  if m.prompting ≠ .always then return true
  let isProtected := !e.isLink && !Disk.allows e.mode Disk.writeBit
  let kind := if verb = "remove " then kindText e else "directory"
  confirm (verb.toList ++ (if isProtected then "write-protected " else "").toList ++ kind ++
    ' ' :: quotedName name)

def removeDirectory (again : Chars → Util Removal) (name : Chars) (e : Entry)
    (children : List Chars) : Util Removal := do
  if children.isEmpty then
    if ← m.asks "remove " name e then m.excise name true else return .declined
  else if !(← m.asks "descend into " name e) then return .declined
  else
    let inner ← children.foldlM (fun r child => do return r.worse (← again (inside name child))) Removal.gone
    if inner ≠ .gone then return inner
    else if ← m.asks "remove " name e then m.excise name true
    else return .declined

def removeAt : Nat → Bool → Chars → Util Removal
  | 0, _, _ => return .failed
  | n + 1, isGiven, name => do
    let d ← disk
    let place : Path := name
    match d.look place with
    | .error f => m.unfound name f
    | .ok (.dir mode) =>
      let entries := d.children place
      let isEmpty := entries matches .ok []
      let last := baseName name
      if !m.recursive && !(m.emptyDirs && isEmpty) then
        refuse name (Fault.text (if m.emptyDirs then .notEmpty else .isDirectory))
      else if isGiven && (last = ['.'] || last = ['.', '.']) then
        complain ("refusing to remove '.' or '..' directory: skipping " ++ quotedName name)
        return .failed
      else if isGiven && m.keepsRoot && d.resolve true place matches .ok (.entry [] _) then
        complain (if name = ['/'] then "it is dangerous to operate recursively on '/'"
          else "it is dangerous to operate recursively on " ++ quotedName name ++ " (same as '/')")
        complain "use --no-preserve-root to override this failsafe"
        return .failed
      else
        match entries with
        | .ok list =>
          m.removeDirectory (removeAt n false) name (.dir mode) (list.map fun (child, _) => Chars.ofBytes child)
        | .error f =>
          if !(← m.asks "remove " name (.dir mode)) then return .declined
          match ← change fun d => d.removeDirectory place with
          | .ok _ =>
            if m.verbose then printLine ("removed directory " ++ quotedName name)
            return .gone
          | .error g => refuse name (Fault.text (if g = .notEmpty then f else g))
    | .ok e => if ← m.asks "remove " name e then m.excise name false else return .declined

end RemoveManner

def promptingWords : List (String × Prompting) :=
  [("never", .never), ("no", .never), ("none", .never), ("once", .once), ("always", .always),
    ("yes", .always)]

def removeAll (m : RemoveManner) (operands : List Chars) : Util Nat := do
  let count := operands.length
  let asksFirst := m.prompting = .once && (m.recursive || count > 3)
  let goesOn ← if asksFirst then
      confirm ("remove " ++ Chars.ofNat count ++
        (if count = 1 then " argument" else " arguments").toList ++
        (if m.recursive then " recursively" else "").toList)
    else pure true
  if !goesOn then return 0
  forEach operands fun name => do
    let slashes := (name.reverse.takeWhile (· = '/')).length
    let name := if slashes > 1 && slashes < name.length then name.take (name.length - slashes + 1) else name
    return if (← m.removeAt 1000 true name) = .failed then 1 else 0

def rm : Applet :=
  withOptions (optionsOf "dfiIRrv" "recursive=r force=f dir=d verbose=v interactive::
    one-file-system=x preserve-root=root:: no-preserve-root=noroot") true 1 fun p => do
  let words := (p.values "interactive").filter (!·.isEmpty)
  withWords "--interactive" promptingWords 1 words fun _ => do
    let (prompting, ignores) := p.options.foldl (fun (now : Option Prompting × Bool) o =>
      match o.key with
      | "f" => (some .never, true)
      | "i" => (some .always, false)
      | "I" => (some .once, false)
      | "interactive" =>
        match meaning promptingWords o.value with
        | .ok .never => (some .never, now.2)
        | .ok .once => (some .once, false)
        | _ => (some .always, false)
      | _ => now) ((none, false) : Option Prompting × Bool)
    let m : RemoveManner :=
      { recursive := p.has "r" || p.has "R"
        emptyDirs := p.has "d"
        ignoresMissing := ignores
        prompting := prompting.getD .never
        verbose := p.has "v"
        keepsRoot := !(p.lastKey? ["root", "noroot"] = some "noroot") }
    if p.operands.isEmpty then if ignores then return 0 else missing "missing operand"
    else removeAll m p.operands

def unlink : Applet :=
  withOptions [] true 1 fun p => do
  let [name] := p.operands | wrongOperands 1 p.operands
  attempt (fun why => "cannot unlink " ++ quotedName name ++ ": " ++ why) fun d => d.remove name

/-!
New files and directories under names that nothing else has.
-/

inductive TemplateFlaw where
  | endsOtherwise (template : Chars)
  | slashBehind (ending : Chars)
  | tooFew (template : Chars)
  | slashWithin (template : Chars)
  | absolute (template : Chars)

def TemplateFlaw.words : TemplateFlaw → Chars
  | .endsOtherwise t => "with --suffix, template " ++ quoted t ++ " must end in X"
  | .slashBehind t => "invalid suffix " ++ quoted t ++ ", contains directory separator"
  | .tooFew t => "too few X's in template " ++ quoted t
  | .slashWithin t => "invalid template, " ++ quoted t ++ ", contains directory separator"
  | .absolute t =>
    "invalid template, " ++ quoted t ++ "; with --tmpdir, it may not be absolute"

/-- A name with places that are filled: what is in front of them, how many there are, and what is
behind them. -/
structure Template where
  front : Chars
  count : Nat
  behind : Chars

def Template.text (t : Template) : Chars := t.front ++ List.replicate t.count 'X' ++ t.behind

def Template.read (text : Chars) (ending : Option Chars) : Except TemplateFlaw Template := do
  let (body, behind) ← match ending with
    | some e => if text.getLast? = some 'X' then .ok (text, e) else .error (.endsOtherwise text)
    | none =>
      let behind := (text.reverse.takeWhile (· ≠ 'X')).reverse
      if text.contains 'X' then .ok (text.take (text.length - behind.length), behind) else .ok (text, [])
  let count := (body.reverse.takeWhile (· = 'X')).length
  if behind.contains '/' then .error (.slashBehind behind)
  else if count < 3 then .error (.tooFew (body ++ behind))
  else return ⟨body.take (body.length - count), count, behind⟩

def Template.within (t : Template) (p : Parsed) (env : Env) : Except TemplateFlaw Template :=
  let setting := (env.lookup "TMPDIR".toList).filter (!·.isEmpty)
  let given := (p.value? "p").filter (!·.isEmpty)
  let isAbsolute := t.text.head? = some '/'
  if p.has "t" then
    if t.text.contains '/' then .error (.slashWithin t.text)
    else .ok { t with front := inside ((setting <|> given).getD "/tmp") t.front }
  else if p.has "p" || p.operands.isEmpty then
    if isAbsolute then .error (.absolute t.text)
    else .ok { t with front := inside ((given <|> setting).getD "/tmp") t.front }
  else .ok t

def mktemp : Applet :=
  withOptions (optionsOf "dp:qtuV" "directory=d tmpdir=p:: dry-run=u quiet=q suffix:") true 1 fun p => do
  let template := p.operands.headD "tmp.XXXXXXXXXX"
  let env := (← read).env
  let filled : Except TemplateFlaw Template := do
    (← Template.read template (p.value? "suffix")).within p env
  match p.operands, filled with
  | _ :: _ :: _, _ => missing "too many templates"
  | _, .error flaw => failWith 1 flaw.words
  | _, .ok t =>
    let d ← disk
    let names := (List.range (d.entries.length + 1)).map fun n =>
      t.front ++ (Chars.ofNat n).leftpad t.count '0' ++ t.behind
    let some name := names.find? fun (n : Chars) => !(d.look n).isOk | return 1
    let made ← if p.has "u" then pure (.ok ())
      else change fun d => d.make name (if p.has "d" then .dir 0o700 else .file 0o600 [])
    match made with
    | .ok _ =>
      printLine name
      return 0
    | .error f =>
      let kind := if p.has "d" then "directory" else "file"
      if !p.has "q" then
        complain ("failed to create " ++ kind.toList ++ " via template " ++ quoted t.text ++
          ": " ++ f.text)
      return 1

end Prune.Utility
