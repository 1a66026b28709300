import Prune.Utility.Launch
import Prune.Utility.Sed.Syntax
import Prune.Utility.Source

/-!
The stream editor at work: for each line all commands of the script in turn.
-/

namespace Prune.Utility.Sed

open Host Util

structure Config where
  commands : Array Command
  quiet : Bool
  /-- Each file is a text of its own. -/
  separate : Bool
  /-- Files are replaced, and what they held is kept under a name with this ending. -/
  inPlace : Option Chars
  mark : Char
  lineLength : Nat
  wide : Bool

inductive Pending where
  | text (t : Chars)
  | file (name : Chars)

structure Output where
  name : Chars
  fd : Nat
  /-- What was written last had no end. -/
  open' : Bool

structure Editor where
  line : Chars := []
  /-- The line has its end. -/
  ended : Bool := true
  held : Chars := []
  heldEnded : Bool := true
  number : Nat := 0
  replaced : Bool := false
  lastPattern : Option Pattern := none
  /-- The ranges that have begun, with the numbers of their last lines if those are known. -/
  ranges : List (Nat × Option Nat)
  pending : List Pending := []
  source : Option Source := none
  files : List Chars
  fileName : Chars := ['-']
  /-- A line that has been read before its time. -/
  ahead : Option (Chars × Bool) := none
  outputs : List Output
  readers : List (Chars × Option Source) := []
  /-- What was printed last had no end. -/
  unended : Bool := false
  collected : List Chars := []
  target : Option (Chars × Nat) := none
  status : Nat := 0
  broken : Bool := false

abbrev M := ReaderT Config (StateT Editor Util)

variable (text : Chars)

def emit : M Unit := do
  if (← get).target.isSome then modify fun e => { e with collected := text :: e.collected }
  else print text

def emitAfter : M Unit := do
  if (← get).unended then emit [(← read).mark]
  modify ({ · with unended := false })
  emit text

def withEnd (ended : Bool) : M Chars := do
  let c ← read
  return if ended then text ++ [c.mark] else text

def emitLine (ended : Bool) : M Unit := do
  emitAfter (← withEnd text ended)
  modify ({ · with unended := !ended })

def emitCurrent : M Unit := do emitLine (← get).line (← get).ended

def emitPending : M Unit := do
  (← get).pending.forM fun
    | .text t => emitAfter t
    | .file name => do
      match ← Act.readFile name with
      | .ok [] | .error _ => return
      | .ok text => emitAfter text
  modify ({ · with pending := [] })

def replaceTarget : M Unit := do
  let e ← get
  let some (name, mode) := e.target | return
  let text := e.collected.reverse.flatten
  set { e with target := none, collected := [], unended := false }
  let backup := match (← read).inPlace with
    | none | some [] => none
    | some ending =>
      if ending.contains '*' then
        let base := baseName name
        let new := ending.flatMap fun ch => if ch = '*' then base else [ch]
        some (if name.contains '/' && !new.contains '/' then inside (dirName name) new else new)
      else some (name ++ ending)
  let change (d : Disk) : Except Fault Disk := do
    let d ← match backup with
      | some b => d.rename name b
      | none => d.remove name
    d.make name (.file mode (Chars.toBytes text))
  if let .error f ← Util.change change then
    remark ("couldn't open temporary file " ++ inside (dirName name) "sedXXXXXX" ++ ": " ++ f.text)
    modify ({ · with status := 4, broken := true })

def closeSource : M Unit := do
  let some s := (← get).source | return
  if s.fd ≠ 0 then ask (.close s.fd)
  modify ({ · with source := none })
  replaceTarget

def openNext (name : Chars) : M Unit := do
  let c ← read
  let refuse (text : Chars) (status : Nat) : M Unit := do
    complain text
    modify fun e => { e with status := max e.status status }
  if name = ['-'] && c.inPlace.isNone then
    modify ({ · with source := some (.ofDescriptor 0 c.mark), fileName := name })
  else
    match (← disk).stat name with
    | .error f => refuse ("can't read " ++ name ++ ": " ++ f.text) 2
    | .ok entry =>
      if c.inPlace.isSome && !entry.isFile then refuse ("couldn't edit " ++ name ++ ": not a regular file") 4
      else
        match ← Act.openToRead name with
        | .error f => refuse ("can't read " ++ name ++ ": " ++ f.text) 2
        | .ok fd =>
          let mode := match entry with
            | .file mode _ => mode
            | _ => Disk.plainMode
          modify ({ · with
            source := some (.ofDescriptor fd c.mark), fileName := name
            target := c.inPlace.map fun _ => (name, mode) })
          if c.separate then modify ({ · with number := 0, ranges := [], held := [], heldEnded := true })

/-- Reads a line ahead, going on to the next file where one ends if `across` is set. -/
def lookAhead (across : Bool) : Nat → M Unit
  | 0 => return
  | n + 1 => do
    let e ← get
    if e.ahead.isSome || e.broken then return
    match e.source, e.files with
    | none, [] => return
    | none, name :: rest =>
      if across then
        set { e with files := rest }
        openNext name
        lookAhead across n
    | some s, _ =>
      let (next, s) ← s.next
      set { e with source := some s }
      if let some f := s.fault then
        complain ("read error on " ++ e.fileName ++ ": " ++ f.text)
        modify ({ · with status := 4, broken := true })
      else if next.isSome then modify ({ · with ahead := next })
      else if across then
        closeSource
        lookAhead across n

def isLast : M Bool := do
  lookAhead (!(← read).separate) Act.patience
  return (← get).ahead.isNone

def takeLine (behind : Bool) : M Bool := do
  emitPending
  lookAhead true Act.patience
  let c ← read
  let e ← get
  let some (line, ended) := e.ahead | return false
  set { e with
    ahead := none, ended, number := e.number + 1, replaced := false
    line := if behind then e.line ++ c.mark :: line else line }
  return true

def resolve (p : Pattern) : M (Option Regex × Pattern) := do
  match p.regex, (← get).lastPattern with
  | some r, _ =>
    modify ({ · with lastPattern := some p })
    return (some r, p)
  | none, some last =>
    let manner := { last.manner with
      folds := last.manner.folds || p.manner.folds, lines := last.manner.lines || p.manner.lines }
    return (last.regex, { last with manner })
  | none, none => return (none, p)

def holdsAt : Place → M Bool
  | .line n => return (← get).number = n
  | .step first by' => do
    let n := (← get).number
    return if by' = 0 then n = first else decide (first ≤ n) && (n - first) % by' = 0
  | .last => isLast
  | .pattern p => do
    let (some r, p) ← resolve p | return false
    return r.matchesIn p.manner (Letters.of (← read).wide (← get).line)

def inRange (pc : Nat) (start : Place) (stop : Stop) : M Bool := do
  let { ranges, number, .. } ← get
  let close : M Unit := modify ({ · with ranges := ranges.filter (·.1 ≠ pc) })
  match ranges.find? (·.1 = pc) with
  | some (_, some n) =>
    if number ≥ n then close
    return number ≤ n
  | some (_, none) =>
    if let .at p := stop then
      if ← holdsAt p then close
    return true
  | none =>
    if !(← holdsAt start) then return false
    let begin (limit : Option Nat) : M Unit := modify ({ · with ranges := (pc, limit) :: ranges })
    let limit := match stop with
      | .at (.line n) => some n
      | .after n => some (number + n)
      | .multiple n => some (if n = 0 then number else number - number % n + n)
      | _ => none
    if limit.all (· > number) then begin limit
    return true

def selects (pc : Nat) (a : Address) : M Bool := do
  let chosen ← match a.start, a.stop with
    | none, _ => pure true
    | some p, none => holdsAt p
    | some p, some s => inRange pc p s
  return chosen != a.negated

inductive CaseChange where
  | same | upper | lower
deriving DecidableEq

def CaseChange.apply (wide : Bool) : CaseChange → Char → Char
  | .same, c => c
  | .upper, c => Case.upper wide c
  | .lower, c => Case.lower wide c

def changeLetters (wide : Bool) (all next : CaseChange) : Chars → Chars
  | [] => []
  | c :: rest => (if next = .same then all else next).apply wide c :: rest.map (all.apply wide)

def fill (wide : Bool) (text : Array Char) (m : Regex.Match) : List Part → CaseChange → CaseChange → Chars
  | [], _, _ => []
  | p :: rest, all, next =>
    let put (part : Chars) : Chars :=
      changeLetters wide all next part ++ fill wide text m rest all (if part.isEmpty then next else .same)
    match p with
    | .text c => put [c]
    | .group 0 => put (Chars.slice text m.start m.stop)
    | .group n => put (((m.groups.lookup n).map fun (a, b) => Chars.slice text a b).getD [])
    | .upper => fill wide text m rest .upper next
    | .lower => fill wide text m rest .lower next
    | .plain => fill wide text m rest .same .same
    | .upperNext => fill wide text m rest all .upper
    | .lowerNext => fill wide text m rest all .lower

/-- The line from `i` on with its matches replaced, from the one with the number `s.first` on. `behind`
is where the last match ended. Says whether there was anything to replace. -/
def replaceFrom (s : Substitution) (r : Regex) (text : Array Char) :
    Nat → (i count : Nat) → (behind : Option Nat) → Chars × Bool
  | 0, i, _, _ => (Chars.slice text i text.size, false)
  | n + 1, i, count, behind =>
    match r.match? s.pattern.manner text i with
    | none => (Chars.slice text i text.size, false)
    | some m =>
      -- an empty match right behind a match does not count
      let isNew := m.start ≠ m.stop || behind ≠ some m.start
      let count := if isNew then count + 1 else count
      let counts := isNew && (count = s.first || (s.all && count > s.first))
      let put := Chars.slice text i m.start ++
        if counts then fill s.pattern.manner.wide text m s.replacement .same .same
        else Chars.slice text m.start m.stop
      if counts && !s.all then (put ++ Chars.slice text m.stop text.size, true)
      else if m.start ≠ m.stop then
        let (rest, done) := replaceFrom s r text n m.stop count (some m.stop)
        (put ++ rest, done || counts)
      else if m.start < text.size then
        let (rest, done) := replaceFrom s r text n (m.stop + 1) count none
        (put ++ Chars.slice text m.stop (m.stop + 1) ++ rest, done || counts)
      else (put, counts)

def shown (c : Char) : Chars :=
  match Chars.controlLetter? c with
  | some letter => ['\\', letter]
  | none =>
    if c = '\\' then [c, c]
    else if ' ' ≤ c && c ≤ '~' then [c]
    else '\\' :: Chars.octal c

def shownLine (width : Nat) : Nat → Chars → Chars
  | _, [] => ['$', '\n']
  | used, c :: rest =>
    let piece := shown c
    if width > 0 && used + piece.length > width - 1 then
      '\\' :: '\n' :: piece ++ shownLine width piece.length rest
    else piece ++ shownLine width (used + piece.length) rest

def writeTo (name text : Chars) (ended : Bool) : M Unit := do
  if name = "/dev/stdout" then emitLine text ended
  else
    let c ← read
    let some o := (← get).outputs.find? (·.name = name) | return
    let front := if o.open' then [c.mark] else []
    let _ ← Act.write o.fd (front ++ (← withEnd text ended))
    modify fun e => { e with outputs := e.outputs.map fun x =>
      if x.name = name then { x with open' := !ended } else x }

def writeCurrent (name : Chars) : M Unit := do writeTo name (← get).line (← get).ended

inductive Next where
  | command (pc : Nat)
  | done
  | dropped
  /-- The line is done and not printed, and the next round takes what is left of it. -/
  | again
  | stop (prints : Bool) (status : Nat)

def target (c : Config) (name : Chars) : Nat :=
  if name.isEmpty then c.commands.size
  else
    (c.commands.toList.findIdx? fun x =>
      match x.action with
      | .label n => n = name
      | _ => false).getD c.commands.size

def firstLine : M Chars := do
  let c ← read
  return (← get).line.takeWhile (· ≠ c.mark)

def withoutBreak : Chars := if text.getLast? = some '\n' then text.dropLast else text

def outputOf (command : Chars) : Util Chars := do
  flush
  let (reading, writing) ← ask .pipe
  let inv ← read
  let child : Util Nat := do
    let _ ← ask (.duplicateTo writing 1)
    ask (.close reading)
    ask (.close writing)
    let _ ← become inv.env ["sh", "-c", command]
    return 127
  let pid ← Act.fork (run child inv)
  ask (.close writing)
  let text ← Act.readAll reading
  ask (.close reading)
  let _ ← ask (.await (some pid) true false)
  return text.toOption.getD []

def executeLine : M Unit := do
  let text ← outputOf (← get).line
  modify ({ · with line := withoutBreak text })

def await (p : Pending) : M Unit := modify fun e => { e with pending := e.pending ++ [p] }

def readerOf (name : Chars) : M (Option Source) := do
  match (← get).readers.lookup name with
  | some s => return s
  | none =>
    let c ← read
    return (← Act.openToRead name).toOption.map (.ofDescriptor · c.mark)

/-- Does a command, and says what comes next unless that is the next command. -/
def perform (pc : Nat) (x : Command) : M (Option Next) := do
  let c ← read
  let e ← get
  let jump (name : Chars) : M (Option Next) := do
    ask .work
    return some (.command (target c name))
  let isEnd : M Bool := do return (← isLast) && (!c.separate || (← get).files.isEmpty)
  match x.action with
  | .block _ | .blockEnd | .label _ | .nothing => pure ()
  | .jump name => return ← jump name
  | .jumpIfReplaced name =>
    set { e with replaced := false }
    if e.replaced then return ← jump name
  | .jumpIfNotReplaced name =>
    set { e with replaced := false }
    if !e.replaced then return ← jump name
  | .append t => await (.text t)
  | .insert t => emitAfter t
  | .change t =>
    let within := x.address.stop.isSome && !x.address.negated && e.ranges.any (·.1 = pc)
    if !within then emitAfter t
    return some .dropped
  | .delete => return some .dropped
  | .deleteFirst =>
    if !e.line.contains c.mark then return some .dropped
    ask .work
    set { e with line := (e.line.dropWhile (· ≠ c.mark)).drop 1 }
    return some .again
  | .print => emitCurrent
  | .printFirst => emitLine (← firstLine) true
  | .number => emitAfter (Chars.ofNat e.number ++ ['\n'])
  | .show width => emitAfter (shownLine (width.getD c.lineLength) 0 e.line)
  | .fileName => emitAfter (e.fileName ++ ['\n'])
  | .hold => set { e with held := e.line, heldEnded := e.ended }
  | .holdMore => set { e with held := e.held ++ c.mark :: e.line, heldEnded := e.ended }
  | .recall => set { e with line := e.held, ended := e.heldEnded }
  | .recallMore => set { e with line := e.line ++ c.mark :: e.held, ended := e.heldEnded }
  | .exchange => set { e with line := e.held, ended := e.heldEnded, held := e.line, heldEnded := e.ended }
  | .next =>
    if ← isEnd then return some .done
    if !c.quiet then emitCurrent
    let _ ← takeLine false
  | .nextMore =>
    if ← isEnd then return some .done
    let _ ← takeLine true
  | .quit status => return some (.stop true status)
  | .quitSilently status => return some (.stop false status)
  | .readFile name => await (.file name)
  | .readLine name =>
    let source ← (← readerOf name).mapM fun s => do
      let (line, s) ← s.next
      line.forM fun (text, _) => await (.text (text ++ [c.mark]))
      pure s
    modify fun e => { e with readers := (name, source) :: e.readers.filter (·.1 ≠ name) }
  | .write name => writeCurrent name
  | .writeFirst name => writeTo name (← firstLine) true
  | .substitute s =>
    let (some r, p) ← resolve s.pattern |
      remark "-e expression #1, char 0: no previous regular expression"
      return some (.stop false 1)
    let text := (Letters.of c.wide e.line).toArray
    let (line, done) := replaceFrom { s with pattern := p } r text (2 * text.size + 3) 0 0 none
    if done then
      modify ({ · with line := Letters.toBytes c.wide line, replaced := true })
      if s.executes then executeLine
      if s.prints then emitCurrent
      s.file.forM writeCurrent
  | .translate pairs =>
    let line := (Letters.of c.wide e.line).map fun ch => (pairs.lookup ch).getD ch
    set { e with line := Letters.toBytes c.wide line }
  | .clear => set { e with line := [] }
  | .execute [] => executeLine
  | .execute command => emitAfter (← outputOf command)
  return none

def run : Nat → Nat → M Next
  | 0, _ => return .done
  | n + 1, pc => do
    let e ← get
    if e.broken then return .stop false e.status
    let some x := (← read).commands[pc]? | return .done
    if ← selects pc x.address then
      match (← perform pc x).getD (.command (pc + 1)) with
      | .command pc => run n pc
      | next => return next
    else
      match x.action with
      | .block stop => run n (stop + 1)
      | _ => run n (pc + 1)

/-- What was not read is left for others; a file being replaced keeps the rest of its lines. -/
def leave : M Unit := do
  let e ← get
  let some s := e.source | return
  let ahead ← match e.ahead with
    | some (line, ended) => withEnd line ended
    | none => pure []
  if e.target.isSome then
    let rest ← Act.readAll s.fd
    let mark := (← read).mark
    let kept := ahead ++ (s.ready.map (· ++ [mark])).flatten ++ s.begun.reverse.flatten ++
      rest.toOption.getD []
    if !kept.isEmpty then emitAfter kept
    closeSource
  else ask (.rewind s.fd (s.unread + ahead.length))

def cycles : Nat → (kept : Bool) → M Nat
  | 0, _ => return (← get).status
  | n + 1, kept => do
    let more ← if kept then pure true else takeLine false
    if (← get).broken then return (← get).status
    if !more then
      closeSource
      return (← get).status
    let next ← run Act.patience 0
    let finish (prints : Bool) : M Unit := do
      if prints && !(← read).quiet then emitCurrent
      emitPending
    match next with
    | .stop prints status =>
      if (← get).broken then return (← get).status
      if prints then finish true
      let old := (← get).status
      leave
      return if status = 0 then old else status
    | .dropped =>
      finish false
      cycles n false
    | .again =>
      finish false
      cycles n true
    | _ =>
      finish true
      cycles n false

variable (cs : List Command)

def missingLabel? : Option Chars :=
  let labels := cs.filterMap fun x =>
    match x.action with
    | .label n => some n
    | _ => none
  let targets := cs.filterMap fun x =>
    match x.action with
    | .jump n | .jumpIfReplaced n | .jumpIfNotReplaced n => some n
    | _ => none
  targets.find? fun t => !t.isEmpty && !labels.contains t

def written : List Chars :=
  let names := cs.filterMap fun x =>
    match x.action with
    | .write n | .writeFirst n => some n
    | .substitute s => s.file
    | _ => none
  names.eraseDups

def openRanges : List (Nat × Option Nat) :=
  cs.zipIdx.filterMap fun (x, i) =>
    match x.address.start, x.address.stop with
    | some (.line 0), some _ => some (i, none)
    | _, _ => none

/-- A piece of a script: what it is called in complaints, where it starts and how long it is. -/
structure Piece where
  name : Chars
  start : Nat
  size : Nat

def placeOf (pieces : List Piece) (text : Chars) (rest : Option Nat) : Chars :=
  match rest with
  | none => ((pieces.getLast?).map (·.name)).getD [] ++ ", char 0: "
  | some left =>
    let at' := text.length - left
    match pieces.find? fun p => at' ≤ p.start + p.size with
    | some p => p.name ++ ", char " ++ Chars.ofNat (at' - p.start) ++ ": "
    | none => []

def scriptOf (p : Parsed) (given : Bool) : Util (Except (Chars × Fault) (Chars × List Piece)) := do
  let mut text : Chars := []
  let mut pieces := []
  let mut number := 0
  let sources := if given then p.options.filter fun o => o.key = "e" || o.key = "f"
    else [⟨"e", p.operands.headD []⟩]
  for o in sources do
    let front := if pieces.isEmpty then [] else ['\n']
    number := number + 1
    if o.key = "e" then
      pieces := pieces ++ [⟨"-e expression #" ++ Chars.ofNat number, text.length + front.length,
        o.value.length⟩]
      text := text ++ front ++ o.value
    else
      match ← contents o.value with
      | .error f => return .error (o.value, f)
      | .ok content =>
        let content := withoutBreak content
        pieces := pieces ++ [⟨"file " ++ o.value ++ " line 1", text.length + front.length, content.length⟩]
        text := text ++ front ++ content
  return .ok (text, pieces)

def usage : Util Nat := do
  let _ ← act (Act.write 2
    "Usage: sed [OPTION]... \x7bscript-only-if-no-other-script\x7d [input-file]...\n\n")
  return 1

def openOutputs : List Chars → Util (Except (Chars × Fault) (List Output))
  | [] => return .ok []
  | name :: rest => do
    if name = "/dev/stdout" then openOutputs rest
    else
      match ← if name = "/dev/stderr" then pure (.ok 2) else ask (.open name .writing 0o666) with
      | .error f => return .error (name, f)
      | .ok fd => return (← openOutputs rest).map (⟨name, fd, false⟩ :: ·)

def edit (p : Parsed) : Applet := do
  let given := p.has "e" || p.has "f"
  if !given && p.operands.isEmpty then usage
  else
    match ← scriptOf p given with
    | .error (name, f) => failWith 1 ("couldn't open file " ++ name ++ ": " ++ f.text)
    | .ok (text, pieces) =>
      let wide ← wide
      match parse ⟨p.has "E" || p.has "r", wide⟩ text with
      | .error fail => failWith 1 (placeOf pieces text fail.rest ++ fail.words.toList)
      | .ok commands =>
        match missingLabel? commands with
        | some label => failWith 4 ("can't find label for jump to \x60" ++ label ++ ['\''])
        | none =>
          let files := if given then p.operands else p.operands.tail
          let inPlace := p.value? "i"
          let c : Config :=
            { commands := commands.toArray
              quiet := p.has "n" || "#n\n".toList.isPrefixOf (text ++ ['\n'])
              separate := p.has "s" || inPlace.isSome
              inPlace
              mark := p.mark
              lineLength := ((p.value? "l").bind Chars.toNat?).getD 70
              wide }
          match ← openOutputs (written commands) with
          | .error (name, f) => failWith 4 ("couldn't open file " ++ name ++ ": " ++ f.text)
          | .ok outputs =>
            let files := if files.isEmpty then [['-']] else files
            (cycles Act.patience false c).run' { ranges := openRanges commands, files, outputs }

end Prune.Utility.Sed

namespace Prune.Utility

open Util

def sed : Applet := do
  let args ← args
  let specs := lettersOf "bEe:f:l:nrsuz" ++ ⟨"i", some 'i', some "in-place", .optional⟩ ::
    longsOf "expression=e: file=f: quiet=n silent=n regexp-extended=E separate=s null-data=z
      unbuffered=u line-length=l: posix follow-symlinks=follow sandbox debug"
  match readArguments specs true (args.length + 1) args with
  | .ok p => Sed.edit p
  | .error text =>
    remark text
    Sed.usage

end Prune.Utility
