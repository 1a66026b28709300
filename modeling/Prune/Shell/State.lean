import Prune.Host.Signal
import Prune.Host.Transfer
import Prune.Order
import Prune.Shell.Grammar
import Prune.Shell.Pattern

/-!
What a shell knows while it runs, and how what it runs can end early.
-/

namespace Prune.Shell

open Host

/-- The number by which names and texts are put in order: it is multiplied and mixed with one character
after the other. -/
def scatter (text : Chars) : Nat :=
  text.foldl (fun n c => (n * 16777619 % 2 ^ 32) ^^^ c.toNat) 2166136261 % 1024

inductive Content where
  | text (t : Chars)
  /-- Elements by their numbers, in order. -/
  | list (items : List (Nat × Chars))
  /-- Elements by texts, in the order of `scatter`. -/
  | table (items : List (Chars × Chars))

namespace Content

def text? : Content → Option Chars
  | .text t => some t
  | .list items => items.lookup 0
  | .table items => items.lookup ['0']

def values : Content → List Chars
  | .text t => [t]
  | .list items | .table items => items.map (·.2)

def keys : Content → List Chars
  | .text _ => [['0']]
  | .list items => items.map fun (n, _) => Chars.ofNat n
  | .table items => items.map (·.1)

def items : Content → List (Nat × Chars)
  | .text t => [(0, t)]
  | .list items => items
  | .table _ => []

def insertAt (items : List (Nat × Chars)) (place : Nat) (value : Chars) : List (Nat × Chars) :=
  items.takeWhile (·.1 < place) ++ (place, value) :: items.filter (place < ·.1)

def insertKey (items : List (Chars × Chars)) (key value : Chars) : List (Chars × Chars) :=
  if items.any (·.1 = key) then items.map fun p => if p.1 = key then (key, value) else p
  else
    let (before, behind) := items.span fun p => scatter p.1 < scatter key
    before ++ (key, value) :: behind

def isTable (c : Content) : Bool := c matches .table _

def isText (c : Content) : Bool := c matches .text _

def nextPlace (items : List (Nat × Chars)) : Nat := (items.getLast?.map (·.1 + 1)).getD 0

end Content

structure Variable where
  name : Chars
  /-- None if it is marked and has no value yet. -/
  content : Option Content
  exported : Bool
  /-- It keeps its value. -/
  fixed : Bool
  /-- Further properties by their letters: `i` for numbers, `l` and `u` for letters of one case, `n` for
  the name of another variable, `a` and `A` for lists and tables. -/
  traits : List Char

def Variable.ofText (name : Chars) (value : Option Chars) (exported fixed : Bool) : Variable :=
  ⟨name, value.map .text, exported, fixed, []⟩

def Variable.value (v : Variable) : Option Chars := v.content.bind Content.text?

structure Job where
  number : Nat
  /-- Its processes, with their ends as far as the shell has heard of them. -/
  members : List (Nat × Option Ending)
  /-- A script has asked for its end. -/
  waited : Bool

def Job.pid (j : Job) : Nat := (j.members.getLast?.map (·.1)).getD 0

def Job.ending? (j : Job) : Option Ending :=
  if j.members.all (·.2.isSome) then j.members.getLast?.bind (·.2) else none

structure State where
  vars : List Variable
  name : Chars
  args : List Chars := []
  functions : List (Chars × Command) := []
  aliases : List (Chars × Chars) := []
  /-- The options that are set, by their letters. -/
  options : List Char := []
  status : Nat := 0
  pid : Nat
  lastBackground : Option Nat := none
  /-- The current job is the last of them. -/
  jobs : List Job := []
  /-- What to do on a signal, or at the end for the number zero; nothing is done about it if the text
  is empty. -/
  traps : List (Nat × Chars) := []
  documents : List (Nat × Word) := []
  nextDocument : Nat := 0
  line : Nat := 0
  /-- The status of the last substitution in the command being expanded. -/
  substituted : Option Nat := none
  /-- How many loops the command is in. -/
  loops : Nat := 0
  /-- How many functions and sourced scripts the command is in. -/
  calls : Nat := 0
  /-- The variables that the functions being run have made local, with what they were before. -/
  locals : List (List (Chars × Option Variable)) := []
  /-- Where in its argument the reading of options is. -/
  optionPlace : Nat := 0
  /-- Where commands were found. -/
  found : List (Chars × Chars) := []
  /-- Something a built-in command had to say could not be written. -/
  lost : Bool := false
  /-- The built-in command or script being run that is named in messages. -/
  inside : Chars := []
  dialect : Dialect
  /-- The script was given as a text. -/
  given : Bool := false
  /-- The further options that are set, by name. -/
  choices : List String := []
  /-- The ends of the stages of the last pipeline. -/
  stages : List Nat := [0]
  /-- The functions and scripts being run, the innermost first, each with the line it was called on. -/
  frames : List (Chars × Nat) := []
  /-- What numbers picked at random are made from. -/
  seed : Nat
  /-- The numbers of files that stand for commands, to be closed behind the command being run. -/
  feeds : List Nat := []
  /-- How many shells this one is inside of. -/
  level : Nat := 0
  started : Nat
  /-- Lists that the words of the command being run assign, by these words. -/
  lists : List (Chars × Assignment) := []
  /-- How many texts being run stand in each other. -/
  nesting : Nat := 0
  /-- What the errors were written to before the redirections of the command being run. -/
  traceTo : Option Nat := none

inductive Stop where
  | exit (status : Nat)
  /-- A command failed that must not. -/
  | failed (status : Nat)
  /-- The shell gives up. -/
  | fault (status : Nat)
  /-- What is left of the line is not run. -/
  | drop (status : Nat)
  /-- So many loops are left. -/
  | leave (loops : Nat)
  /-- So many loops are left, and the next one goes on with its next round. -/
  | again (loops : Nat)
  | back (status : Nat)

abbrev Sh := ExceptT Stop (StateT State Act)

namespace Sh

def act (t : Act α) : Sh α := ExceptT.lift (StateT.lift t)

def ask (c : Call) : Sh c.Answer := act (Act.ask c)

def option (letter : Char) : Sh Bool := do return (← get).options.contains letter

def put (fd : Nat) (text : Chars) : Sh Bool := do return (← act (Act.write fd text)).isOk

def say (text : Chars) : Sh Unit := do
  if !(← put 1 text) then modify ({ · with lost := true })

def isExtended : Sh Bool := do return (← get).dialect = .extended

def choice (name : String) : Sh Bool := do return (← get).choices.contains name

def complainPlain (text : Chars) : Sh Unit := do
  let s ← get
  let front := match s.dialect with
    | .common => s.name ++ ": " ++ Chars.ofNat s.line
    | .extended =>
      (if s.given && s.calls ≠ 0 && !s.locals.isEmpty then "environment".toList else s.name) ++
        ": line " ++ Chars.ofNat s.line
  let _ ← put 2 (front ++ ": " ++ text ++ ['\n'])

def complain (text : Chars) : Sh Unit := do
  let s ← get
  complainPlain (match s.dialect, s.inside with
    | .common, c :: cs => c :: cs ++ ": " ++ text
    | _, _ => text)

def giveUp (text : Chars) : Sh α := do
  complain text
  throw (if ← isExtended then .drop 1 else .fault 2)

def giveOut (text : Chars) : Sh α := do
  complain text
  let s ← get
  throw (match s.dialect with
    | .common => .fault 2
    | .extended => .exit (if s.given && s.level = 0 then 127 else 1))

def refuse (name : String) (text : Chars) : Sh α := do
  complainPlain (name.toList ++ ": " ++ text)
  throw (.fault (if ← isExtended then 1 else 2))

def misuse (name : String) (text : Chars) : Sh α := do
  complainPlain (name.toList ++ ": " ++ text)
  throw (.fault 2)

def fail (status : Nat) (text : Chars) : Sh Nat := do
  complainPlain text
  return status

def tell (text : Chars) : Sh Nat := do
  say text
  return 0

def forEach (items : List α) (act : α → Sh Nat) : Sh Nat :=
  items.foldlM (fun status a => do return max status (← act a)) 0

def var? (name : Chars) : Sh (Option Variable) := do return (← get).vars.find? (·.name = name)

variable (s : State) (name : Chars)

def aimWithin : Nat → Chars → Chars
  | 0, name => name
  | n + 1, name =>
    match (s.vars.find? fun v => v.name = name && v.traits.contains 'n').bind Variable.value with
    | some other => aimWithin n other
    | none => name

def aimOf : Chars → Chars := aimWithin s 8

def nameAndPlace : Chars × Option Chars :=
  match name.span (· ≠ '[') with
  | (start, '[' :: place) => if place.getLast? = some ']' then (start, some place.dropLast) else (name, none)
  | _ => (name, none)

/-- The names of variables whose values are made up when they are asked for. -/
def madeUp : Option Content :=
  match String.ofList name with
  | "LINENO" => some (.text (Chars.ofNat s.line))
  | text =>
    if s.dialect = .common then none
    else
      let list (values : List Chars) : Option Content := some (.list (values.zipIdx.map fun (v, i) => (i, v)))
      match text with
      | "BASH_SUBSHELL" => some (.text (Chars.ofNat s.level))
      | "PIPESTATUS" => list (s.stages.map Chars.ofNat)
      | "FUNCNAME" =>
        if s.frames.isEmpty then none
        else list (s.frames.map (·.1) ++ (if s.given then [] else ["main".toList]))
      | "BASH_LINENO" => list (s.frames.map (fun f => Chars.ofNat f.2) ++ (if s.given then [] else [['0']]))
      | "BASH_SOURCE" =>
        if s.given then list (s.frames.map fun _ => "environment")
        else list (s.name :: s.frames.map fun _ => s.name)
      | "BASHOPTS" => some (.text (Chars.join [':'] (s.choices.map (·.toList))))
      | _ => none

def contentOf : Option Content :=
  madeUp s name <|> (s.vars.find? (·.name = name)).bind (·.content)

def aimedContent : Option Content := contentOf s (aimOf s name)

def aimsAtTable : Bool := (aimedContent s name).any Content.isTable

def elementOf (c : Content) (place : Chars) : Option Chars :=
  match c with
  | .table items => items.lookup place
  | c =>
    match Chars.toInt? place with
    | some n =>
      let place := if n < 0 then Content.nextPlace c.items + n else n
      if place < 0 then none else c.items.lookup place.toNat
    | none => none

def lookup : Option Chars :=
  if s.dialect = .common then (contentOf s name).bind Content.text?
  else
    match nameAndPlace (aimOf s name) with
    | (name, none) => (contentOf s name).bind Content.text?
    | (name, some place) => (aimedContent s name).bind fun c => elementOf c place

def wideIn : Bool := s.dialect = .extended && Letters.isWide (lookup s)

def wide : Sh Bool := do return wideIn (← get)

def value : Sh (Option Chars) := do return lookup (← get) name

def withVar (v : Variable) : State :=
  if s.vars.any (·.name = v.name) then
    { s with vars := s.vars.map fun w => if w.name = v.name then v else w }
  else { s with vars := v :: s.vars }

def putVar (v : Variable) : Sh Unit := modify (withVar · v)

def shaped (traits : List Char) (value : Chars) : Chars :=
  if traits.contains 'u' then value.map Char.toUpper
  else if traits.contains 'l' then value.map Char.toLower
  else value

def keepsValue : Sh α := do
  giveUp (name ++ (if ← isExtended then ": readonly variable" else ": is read only").toList)

def changeable : Sh Variable := do
  let exports ← option 'a'
  match ← var? name with
  | some v => if v.fixed then keepsValue name else return { v with exported := v.exported || exports }
  | none => return ⟨name, none, exports, false, []⟩

def assignText (name value : Chars) : Sh Unit := do
  if name = "OPTIND" then modify ({ · with optionPlace := 0 })
  if name = "PATH" then modify ({ · with found := [] })
  if name = "RANDOM" then modify ({ · with seed := (Chars.toNat? value).getD 0 })
  if name = "SECONDS" then modify fun s => { s with started := s.started + 1 }
  let v ← changeable name
  let value := shaped v.traits value
  putVar { v with
    content := some (match v.content with
      | some (.list items) => .list (Content.insertAt items 0 value)
      | some (.table items) => .table (Content.insertKey items ['0'] value)
      | _ => .text value) }

def assignElement (name place value : Chars) : Sh Unit := do
  let v ← changeable name
  let value := shaped v.traits value
  match v.content with
  | some (.table items) => putVar { v with content := some (.table (Content.insertKey items place value)) }
  | content =>
    let items := (content.map Content.items).getD []
    let some n := Chars.toInt? place | giveUp (name ++ ": bad array subscript")
    let place := if n < 0 then Content.nextPlace items + n else n
    if place < 0 then giveUp (name ++ '[' :: Chars.ofInt n ++ "]: bad array subscript")
    else putVar { v with content := some (.list (Content.insertAt items place.toNat value)) }

def assign (name value : Chars) : Sh Unit := do
  let s ← get
  if s.dialect = .common then assignText name value
  else
    match nameAndPlace (aimOf s name) with
    | (name, none) => assignText name value
    | (name, some place) => assignElement (aimOf s name) place value

def forget : Sh Unit := modify fun s => { s with vars := s.vars.filter (·.name ≠ name) }

def bucket (dialect : Dialect) (name : Chars) : Nat :=
  match dialect with
  | .common => (name.foldl (fun n c => n + c.toNat) ((name.headD ' ').toNat * 16)) % 39
  | .extended => scatter name

def environment : Env :=
  let vars := if s.dialect = .common then s.vars.reverse else s.vars
  let exported := vars.filterMap fun v =>
    match v.exported, v.content with
    | true, some (.text x) => some (v.name, x)
    | _, _ => none
  sortBy (fun a b => bucket s.dialect a.1 ≤ bucket s.dialect b.1) exported

def outcome (act : Sh α) : Sh (Except Stop α) := fun s => do
  let (r, s) ← act s
  return (.ok r, s)

/-- Does `last` behind `body`, also if it ends early. -/
def always (last : Sh Unit) (body : Sh α) : Sh α := do
  let r ← outcome body
  last
  match r with
  | .ok a => return a
  | .error stop => throw stop

/-- Ends where the script goes back from what is run. -/
def backed (body : Sh Nat) : Sh Nat := do
  match ← outcome body with
  | .ok status | .error (.back status) => return status
  | .error stop => throw stop

def atLine (line : Nat) : Sh Unit := modify ({ · with line })

def dividers : Sh Chars := do return (← value "IFS").getD " \t\n"

end Sh

structure Mode where
  /-- Its status is looked at, so a failure does not end the shell. -/
  tested : Bool
  /-- Nothing comes behind it, so the shell's own process may become the command. -/
  last : Bool

structure Self where
  run : Command → Mode → Sh Nat
  runText : Chars → Mode → Sh Nat
  runPart : Chars → Mode → Sh Nat
  runFile : Chars → Sh Nat
  exec : Exec

/-!
The end of a shell, the processes it splits off, and the signals it looks at between commands.
-/

def statusOf : Ending → Nat
  | .exited n => n
  | .killed n => 128 + n

namespace Sh

def finalStatus (s : State) : Except Stop Nat → Nat
  | .ok n | .error (.exit n) | .error (.failed n) | .error (.fault n) | .error (.drop n) | .error (.back n) => n
  | .error (.leave _) | .error (.again _) => s.status

def conclude (self : Self) (r : Except Stop Nat) (s : State) : Act Nat := do
  let status := finalStatus s r
  let some text := s.traps.lookup 0 | return status
  let s := { s with traps := s.traps.filter (·.1 ≠ 0), status := status, loops := 0, calls := 0 }
  let (r, _) ← (self.runText text ⟨false, false⟩).run s
  match r with
  | .error (.exit n) | .error (.failed n) => return n
  | _ => return status

/-- The life of a process that was split off: what the shell was told to do on signals does not count
for it, except what it was told to let pass. -/
def apart (self : Self) (body : Sh Nat) (s : State) : Act Nat := do
  for (signal, text) in s.traps do
    if signal ≠ 0 && !text.isEmpty then Act.ask (.handle signal .default)
  let s := { s with
    traps := s.traps.filter fun (n, t) => n ≠ 0 && t.isEmpty
    jobs := []
    level := s.level + 1 }
  let (r, s) ← body.run s
  conclude self r s

/-- The number of a new job: the first that no job has, or whose job has ended and been waited for
and is now forgotten. -/
def claimNumber : Sh Nat := do
  let jobs := (← get).jobs
  let isFree (n : Nat) : Bool := jobs.all fun j => j.number ≠ n || (j.waited && j.ending?.isSome)
  let number := ((List.range jobs.length).map (· + 1)).find? isFree |>.getD (jobs.length + 1)
  modify fun s => { s with jobs := s.jobs.filter (·.number ≠ number) }
  return number

def splitOff (self : Self) (body : Sh Nat) : Sh Nat := do
  let _ ← claimNumber
  let s ← get
  Act.fork (apart self body s)

def announce (pid : Nat) (ending : Ending) : Sh Unit := do
  match ending with
  | .killed n =>
    if n ≠ Signal.int && n ≠ Signal.pipe then
      let text := (Signal.description n).toList
      if ← isExtended then complainPlain (Chars.padLeft 5 (Chars.ofNat pid) ++ ' ' :: text)
      else let _ ← put 2 (text ++ ['\n'])
  | .exited _ => pure ()

def awaitEnd (pid : Nat) : Sh Nat := do
  match ← ask (.await (some pid) true false) with
  | .ended _ ending =>
    announce pid ending
    return statusOf ending
  | _ => return 0

def heed (self : Self) : Sh Unit := do
  let signals ← ask .signals
  for signal in signals do
    let some text := (← get).traps.lookup signal | pure ()
    let status := (← get).status
    let _ ← self.runText text ⟨false, false⟩
    modify ({ · with status })

def hasTraps : Sh Bool := do return (← get).traps.any fun (_, text) => !text.isEmpty

end Sh

end Prune.Shell
