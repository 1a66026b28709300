import Prune.Utility.Time
import Prune.Utility.Basic

/-!
Programs that tell times and give times to files.
-/

namespace Prune.Utility

open Host Util
open Calendar (Zone)

def zone : Util Zone := do
  match (← read).env.lookup "TZ".toList with
  | some text => return Time.zoneOfSetting text
  | none => return .utc

def timeText (zone : Zone) (micros : Int) (format : Chars) : Chars :=
  Time.format (Calendar.Time.ofMicros zone micros) format

def isoFormat? (precision : Chars) : Option Chars :=
  let date := "%Y-%m-%d"
  match String.ofList precision with
  | "" | "date" => some date
  | "hours" => some (date ++ "T%H%:z")
  | "minutes" => some (date ++ "T%H:%M%:z")
  | "seconds" => some (date ++ "T%H:%M:%S%:z")
  | "ns" => some (date ++ "T%H:%M:%S,%N%:z")
  | _ => none

def spacedFormat? (precision : Chars) : Option Chars :=
  match String.ofList precision with
  | "date" => some "%Y-%m-%d"
  | "seconds" => some "%Y-%m-%d %H:%M:%S%:z"
  | "ns" => some "%Y-%m-%d %H:%M:%S.%N%:z"
  | _ => none

def printTime (zone : Zone) (format : Chars) (micros : Int) : Util Nat := do
  printLine (timeText zone micros format)
  return 0

def printSaid (zone : Zone) (now : Int) (format : Chars) (text : Chars) : Util Nat := do
  match Time.parse? zone now text with
  | some micros => printTime zone format micros
  | none => failWith 1 ("invalid date " ++ quoted text)

def date : Applet :=
  withOptions (lettersOf "d:f:r:Rs:u" ++ ⟨"I", some 'I', some "iso-8601", .optional⟩ ::
    longsOf "date=d: file=f: reference=r: rfc-email=R rfc-2822=R rfc-822=R rfc-3339=rfc: set=s: utc=u
      universal=u debug resolution") true 1
    fun p => do
  let zone ← if p.has "u" then pure Zone.utc else zone
  let now ← ask .now
  let sources := (p.options.filter fun o => ["d", "f", "r"].contains o.key).map (·.key)
  let formats := p.operands.filter (·.head? = some '+')
  let others := p.operands.filter (·.head? ≠ some '+')
  let preset := p.last? ["I", "R", "rfc"]
  let format : Except (String × Chars × List (List String)) Chars :=
    match preset, formats with
    | some ⟨"I", v⟩, _ =>
      (isoFormat? v).elim (.error ("--iso-8601", v, [["hours"], ["minutes"], ["date"], ["seconds"], ["ns"]])) .ok
    | some ⟨"rfc", v⟩, _ =>
      (spacedFormat? v).elim (.error ("--rfc-3339", v, [["date"], ["seconds"], ["ns"]])) .ok
    | some _, _ => .ok "%a, %d %b %Y %H:%M:%S %z"
    | none, f :: _ => .ok f.tail
    | none, [] => .ok "%a %b %e %H:%M:%S %Z %Y"
  match format with
  | .error (option, word, known) => unknownWord option word known
  | .ok format =>
    if sources.eraseDups.length > 1 then
      missing "the options to specify dates for printing are mutually exclusive"
    else if formats.length > 1 then missing ("extra operand " ++ quoted (formats.getD 1 []))
    else if preset.isSome && !formats.isEmpty then failWith 1 "multiple output formats specified"
    else if !others.isEmpty then
      match formats with
      | [] => failWith 1 ("invalid date " ++ quoted (others.headD []))
      | _ => missing ("extra operand " ++ quoted (others.headD []))
    else
      match p.value? "d", p.value? "f", p.value? "r" with
      | some text, _, _ => printSaid zone now format text
      | none, some file, _ =>
        Effort.status do forEach (Chars.lines (← Effort.text file)).1 (printSaid zone now format)
      | none, none, some file =>
        Effort.status do
          let facts ← Effort.named file ((← disk).facts true file)
          printTime zone format facts.stamp.modified
      | none, none, none => printTime zone format now

inductive Times where
  | now
  | both (modified accessed : Int)

def timesOf (p : Parsed) : Effort Times := do
  let zone ← zone
  let now : Int := (← ask .now : Nat)
  let base ← (p.value? "r").mapM fun (name : Chars) => do
    let facts := (← disk).facts (!p.has "h") name
    return (← Effort.insist 1 (fun f => "failed to get attributes of " ++ quotedName name ++ ": " ++
      f.text) facts).stamp
  let invalid (text : Chars) : Effort Times := Effort.refuse 1 ("invalid date format " ++ quoted text)
  match base, p.value? "t", p.value? "d" with
  | none, some digits, none =>
    match Time.parseDigits? zone now digits with
    | some t => return .both t t
    | none => invalid digits
  | _, some _, _ => Effort.refuse 1 "cannot specify times from more than one source"
  | none, none, none => return .now
  | some s, none, none => return .both s.modified s.accessed
  | base, none, some text =>
    let said (start : Int) : Option Int := Time.parse? zone start text
    match said ((base.map (·.modified)).getD now), said ((base.map (·.accessed)).getD now) with
    | some m, some a => return .both m a
    | _, _ => invalid text

def touch : Applet :=
  withOptions (optionsOf "acd:fhmr:t:" "no-create=c date=d: reference=r: no-dereference=h time:") true 1
    fun p => do
  let words := p.values "time"
  let isAccess (w : Chars) : Bool := ["access", "atime", "use"].contains (String.ofList w)
  let isModify (w : Chars) : Bool := ["modify", "mtime"].contains (String.ofList w)
  if let some w := words.find? fun w => !isAccess w && !isModify w then
    return ← unknownWord "--time" w [["atime", "access", "use"], ["mtime", "modify"]]
  let accesses := p.has "a" || words.any isAccess
  let modifies := p.has "m" || words.any isModify
  Effort.status do
  let times ← timesOf p
  let mask ← umask
  if p.operands.isEmpty then throw (← missing "missing file operand")
  let stamp (d : Disk) (s : Stamp) : Stamp :=
    let (m, a) := match times with
      | .now => (d.tick, d.tick)
      | .both m a => (m, a)
    { s with
      modified := if accesses && !modifies then s.modified else m
      accessed := if modifies && !accesses then s.accessed else a }
  forEach p.operands fun name => do
    let follow := !p.has "h"
    let d ← disk
    let unset (why : Chars) : Chars := "setting times of " ++ quotedName name ++ ": " ++ why
    match d.facts follow name with
    | .ok _ => attempt unset fun d => d.setStamp follow name (stamp d)
    | .error f =>
      if p.has "c" || !follow then
        if f = .notFound && p.has "c" then return 0 else failWith 1 (unset f.text)
      else
        match ← change fun d => do
          let d := (← d.openFile name (0o666 - (0o666 &&& mask))).disk
          d.setStamp true name (stamp d) with
        | .ok _ => return 0
        | .error .isDirectory => failWith 1 (unset f.text)
        | .error g => failWith 1 ("cannot touch " ++ quotedName name ++ ": " ++ g.text)

end Prune.Utility
