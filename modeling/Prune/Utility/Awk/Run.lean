import Prune.Utility.Awk.Value
import Prune.Utility.Launch
import Prune.Utility.Source

/-!
The pattern-action language at work: for each record all rules in turn.
-/

namespace Prune.Utility.Awk

open Host Util

def bytewise : Regex.Manner := ⟨false, false, false⟩

abbrev Table := List (Chars × Value)

inductive Local where
  | value (v : Value)
  | array (id : Chars)
  /-- Nothing yet; if it is used as an array, then as this one. -/
  | undecided (id : Chars)

structure Sink where
  name : Chars
  fd : Nat
  pid : Option Nat

structure Feed where
  name : Chars
  source : Source
  pid : Option Nat

structure Machine where
  globals : List (Chars × Value)
  arrays : List (Chars × Table)
  locals : List (Chars × Local) := []
  fresh : Nat := 0
  record : Chars := []
  fields : List Value := []
  source : Option Source := none
  position : Nat := 1
  named : Bool := false
  finished : Bool := false
  sinks : List Sink := []
  feeds : List Feed := []
  active : List Nat := []
  seed : Nat := 0
  status : Int := 0

inductive Stop where
  | next
  | nextFile
  | exit
  | ret (v : Value)
  | leave
  | again
  | fatal (text : Chars)

abbrev M := ExceptT Stop (StateT Machine Util)

namespace M

def util (u : Util α) : M α := ExceptT.lift (StateT.lift u)

def fatal (text : Chars) : M α := throw (.fatal text)

end M

variable (name : Chars)

def global : M Value := do
  let m ← get
  if name = "NF" then return .ofNat m.fields.length
  else return (m.globals.lookup name).getD .unset

def globalText (name : String) : M Chars := do
  let style := ((← get).globals.lookup "CONVFMT".toList).getD .unset
  return (← global name.toList).toText (style.toText [])

def convFmt : M Chars := do
  return (((← get).globals.lookup "CONVFMT".toList).map (·.toText "%.6g")).getD "%.6g"

def textOf (v : Value) : M Chars := do return v.toText (← convFmt)

def putGlobal (v : Value) : M Unit :=
  modify fun m => { m with globals := (name, v) :: m.globals.filter (·.1 ≠ name) }

def splitByRegex (r : Regex) (text : Array Char) : Nat → (start i : Nat) → List Chars
  | 0, start, _ => [Chars.slice text start text.size]
  | n + 1, start, i =>
    match r.find? bytewise text i with
    | none => [Chars.slice text start text.size]
    | some (a, b) =>
      if a < b then Chars.slice text start a :: splitByRegex r text n b b
      else if a < text.size then splitByRegex r text n start (a + 1)
      else [Chars.slice text start text.size]

def blankWords : Nat → Chars → List Chars
  | 0, _ => []
  | n + 1, text =>
    match text.dropWhile isBlank with
    | [] => []
    | text =>
      let word := text.takeWhile (!isBlank ·)
      word :: blankWords n (text.drop word.length)

inductive Separator where
  | blanks
  | none
  | char (c : Char)
  | regex (r : Regex)

def compiled (text : Chars) : M Regex :=
  match Regex.parse dialect text with
  | .ok r => return r
  | .error e => M.fatal ("regular expression compile failed (" ++ e.toList ++ ")\n" ++ text)

def separatorOf (text : Chars) : M Separator := do
  match text with
  | [' '] => return .blanks
  | [] => return .none
  | [c] => return .char c
  | text => return .regex (← compiled text)

def splitText (s : Separator) (paragraphs : Bool) (text : Chars) : List Chars :=
  let lines (parts : List Chars) := if paragraphs then parts.flatMap (Chars.splitAt '\n') else parts
  if text.isEmpty then []
  else
    match s with
    | .blanks => blankWords (text.length + 1) text
    | .none => text.map fun c => [c]
    | .char c => lines (Chars.splitAt c text)
    | .regex r => lines (splitByRegex r text.toArray (text.length + 1) 0 0)

def putRecord (text : Chars) : M Unit := do
  let s ← separatorOf (← globalText "FS")
  let paragraphs := (← globalText "RS").isEmpty
  modify fun m => { m with record := text, fields := (splitText s paragraphs text).map .input }

def rebuild : M Unit := do
  let sep ← globalText "OFS"
  let parts ← (← get).fields.mapM textOf
  modify fun m => { m with record := Chars.join sep parts }

def resize (fields : List Value) (n : Nat) : List Value :=
  fields.take n ++ List.replicate (n - fields.length) (.text [])

def putField (n : Nat) (v : Value) : M Unit := do
  if n = 0 then putRecord (← textOf v)
  else
    modify fun m => { m with fields := (resize m.fields (max n m.fields.length)).set (n - 1) v }
    rebuild

def fieldAt (n : Nat) : M Value := do
  let m ← get
  if n = 0 then return .input m.record else return (m.fields[n - 1]?).getD .unset

def putLocal (l : Local) : M Unit :=
  modify fun m => { m with locals := (name, l) :: m.locals.filter (·.1 ≠ name) }

def setVar (v : Value) : M Unit := do
  let m ← get
  if m.locals.any (·.1 = name) then putLocal name (.value v)
  else if name = "NF" then
    set { m with fields := resize m.fields (truncate v.toNumber).toNat }
    rebuild
  else putGlobal name v

def getVar : M Value := do
  match (← get).locals.lookup name with
  | some (.value v) => return v
  | some _ => return .unset
  | none => global name

def arrayId : M Chars := do
  match (← get).locals.lookup name with
  | some (.array id) => return id
  | some (.undecided id) =>
    putLocal name (.array id)
    return id
  | _ => return name

def tableOf (id : Chars) : M Table := do return ((← get).arrays.lookup id).getD []

def putTable (id : Chars) (t : Table) : M Unit :=
  modify fun m => { m with arrays := (id, t) :: m.arrays.filter (·.1 ≠ id) }

def putElement (id key : Chars) (v : Value) : M Unit := do
  let t ← tableOf id
  putTable id (if t.any (·.1 = key) then t.map fun (k, w) => (k, if k = key then v else w) else (key, v) :: t)

def getElement (id key : Chars) : M Value := do
  match (← tableOf id).lookup key with
  | some v => return v
  | none =>
    putElement id key .unset
    return .unset

def spawn (command : Chars) (writes : Bool) : M (Nat × Nat) := do
  flush
  let (reading, writing) ← ask .pipe
  let (mine, theirs, target) := if writes then (writing, reading, 0) else (reading, writing, 1)
  let others := ((← get).sinks.map (·.fd)) ++ ((← get).feeds.map (·.source.fd))
  let inv ← read
  let child : Util Nat := do
    for fd in others do
      ask (.close fd)
    let _ ← ask (.duplicateTo theirs target)
    ask (.close theirs)
    ask (.close mine)
    let _ ← become inv.env ["/bin/sh", "-c", command]
    return 127
  let pid ← Act.fork (run child inv)
  ask (.close theirs)
  return (mine, pid)

def awaitStatus (pid : Nat) : M Float := do
  match ← ask (.await (some pid) true false) with
  | .ended _ (.exited n) => return Float.ofNat n
  | .ended _ (.killed n) => return Float.ofNat (256 + n)
  | _ => return -1

def cannotOpen (f : Fault) : M α :=
  M.fatal ("cannot open \"" ++ name ++ "\" (" ++ f.text ++ [')'])

def writeTo (isCommand append : Bool) (text : Chars) : M Unit := do
  if !isCommand && (name = "/dev/stdout" || name = ['-']) then print text
  else if !isCommand && name = "/dev/stderr" then let _ ← Act.write 2 text
  else
    let fd ← match (← get).sinks.find? fun s => s.name = name && s.pid.isSome == isCommand with
      | some s => pure s.fd
      | none =>
        let (fd, pid) ← if isCommand then do
            let (fd, pid) ← spawn name true
            pure (fd, some pid)
          else
            match ← ask (.open name (if append then .appending else .writing) 0o666) with
            | .error f => cannotOpen name f
            | .ok fd => pure (fd, none)
        modify fun m => { m with sinks := m.sinks ++ [⟨name, fd, pid⟩] }
        pure fd
    let _ ← Act.write fd text

def closeNamed : M Float := do
  let m ← get
  let ending (pid : Option Nat) : M Float := match pid with
    | some pid => awaitStatus pid
    | none => return 0
  match m.sinks.find? (·.name = name), m.feeds.find? (·.name = name) with
  | some s, _ =>
    flush
    ask (.close s.fd)
    set { m with sinks := m.sinks.filter (·.fd ≠ s.fd) }
    ending s.pid
  | none, some f =>
    ask (.close f.source.fd)
    set { m with feeds := m.feeds.filter (·.source.fd ≠ f.source.fd) }
    ending f.pid
  | none, none => return -1

def paragraphsOf (text : Chars) : List Chars :=
  let lines := (Chars.lines text).1
  let groups := lines.foldr (fun (line : Chars) (acc : List (List Chars)) =>
    if line.isEmpty then [] :: acc else Chars.ontoFirst line acc) [[]]
  (groups.filter (!·.isEmpty)).map (Chars.join ['\n'])

def sourceOf (fd : Nat) : M Source := do
  match ← globalText "RS" with
  | [c] => return Source.ofDescriptor fd c
  | rs =>
    match ← Act.readAll fd with
    | .error f => return { Source.ofDescriptor fd '\n' with exhausted := true, fault := some f }
    | .ok text =>
      let records ← if rs.isEmpty then pure (paragraphsOf text)
        else do
          match ← separatorOf rs with
          | .regex r =>
            let parts := splitByRegex r text.toArray (text.length + 1) 0 0
            pure (if parts.getLast? = some [] then parts.dropLast else parts)
          | _ => pure [text]
      return { Source.ofDescriptor fd '\n' with exhausted := true, ready := records }

def assignment? (arg : Chars) : Option (Chars × Chars) :=
  let name := arg.takeWhile fun c => c.isAlphanum || c = '_'
  match arg.drop name.length with
  | '=' :: value => if name.head?.any fun c => c.isAlpha || c = '_' then some (name, value) else none
  | _ => none

def assign (name value : Chars) : M Unit := setVar name (.input (unescape (value.length + 1) value))

def openNext : Nat → M Bool
  | 0 => return false
  | n + 1 => do
    let m ← get
    let count := (truncate (← global "ARGC").toNumber).toNat
    if m.position < count then
      let arg ← textOf (((← tableOf "ARGV").lookup (Chars.ofNat m.position)).getD .unset)
      modify fun m => { m with position := m.position + 1 }
      if arg.isEmpty then openNext n
      else
        match assignment? arg with
        | some (name, value) =>
          assign name value
          openNext n
        | none =>
          modify ({ · with named := true })
          putGlobal "FILENAME" (.text (if arg = ['-'] then [] else arg))
          putGlobal "FNR" (.number 0)
          match ← if arg = ['-'] then pure (.ok 0) else Act.openToRead arg with
          | .error f => cannotOpen arg f
          | .ok fd => begin fd
    else if m.named then return false
    else
      modify ({ · with named := true })
      begin 0
where
  begin (fd : Nat) : M Bool := do
    let s ← sourceOf fd
    modify ({ · with source := some s })
    return true

def leaveSource : M Unit := do
  (← get).source.forM fun s => if s.fd ≠ 0 then ask (.close s.fd) else return
  modify ({ · with source := none })

def nextRecord : Nat → M (Option Chars)
  | 0 => return none
  | n + 1 => do
    let m ← get
    if m.finished then return none
    match m.source with
    | none =>
      if ← openNext Act.patience then nextRecord n
      else
        modify ({ · with finished := true })
        return none
    | some s =>
      let (line, s) ← M.util s.next
      if let some f := s.fault then
        M.fatal ("read failure on \"" ++ (← globalText "FILENAME") ++ "\" (" ++ f.text ++ [')'])
      match line with
      | some (text, _) =>
        modify ({ · with source := some s })
        return some text
      | none =>
        leaveSource
        nextRecord n

def count (names : List String) : M Unit := do
  for name in names do
    putGlobal name (.number ((← global name).toNumber + 1))

def fill (found : Chars) : Chars → Chars
  | [] => []
  | '\\' :: '\\' :: '&' :: rest => '\\' :: found ++ fill found rest
  | '\\' :: '&' :: rest => '&' :: fill found rest
  | '&' :: rest => found ++ fill found rest
  | c :: rest => c :: fill found rest

/-- The text from `i` on with its matches replaced, and how many there were. -/
def replaceFrom (r : Regex) (all : Bool) (new : Chars) (text : Array Char) :
    Nat → (i : Nat) → (behind : Option Nat) → Chars × Nat
  | 0, i, _ => (Chars.slice text i text.size, 0)
  | n + 1, i, behind =>
    match r.find? bytewise text i with
    | none => (Chars.slice text i text.size, 0)
    | some (a, b) =>
      let isNew := a ≠ b || behind ≠ some a
      let put := Chars.slice text i a ++ (if isNew then fill (Chars.slice text a b) new else [])
      let k := if isNew then 1 else 0
      if isNew && !all then (put ++ Chars.slice text b text.size, 1)
      else if a < b then
        let (rest, l) := replaceFrom r all new text n b (some b)
        (put ++ rest, l + k)
      else if a < text.size then
        let (rest, l) := replaceFrom r all new text n (a + 1) none
        (put ++ Chars.slice text b (b + 1) ++ rest, l + k)
      else (put, k)

def substring (text : Chars) (start : Float) (size : Option Float) : Chars :=
  let first := truncate start
  let rest := text.drop (first - 1).toNat
  (size.map fun size => rest.take (truncate size - min first 0).toNat).getD rest

def toInt (v : Value) : Int := truncate v.toNumber

/-- How expressions are worked out and statements carried out, for those that hold others. -/
structure Self where
  functions : List Function
  eval : Expr → M Value
  exec : Stmt → M Unit

def truth (b : Bool) : Value := .number (if b then 1 else 0)

section

variable (self : Self)

def Self.text (e : Expr) : M Chars := do textOf (← self.eval e)

def Self.number (e : Expr) : M Float := do return (← self.eval e).toNumber

def keyOf (parts : List Expr) : M Chars := do
  let texts ← parts.mapM self.text
  return Chars.join (← globalText "SUBSEP") texts

def store (target : Expr) (v : Value) : M Unit := do
  match target with
  | .var name => setVar name v
  | .element array subscripts =>
    let key ← keyOf self subscripts
    putElement (← arrayId array) key v
  | .field number =>
    let i := toInt (← self.eval number)
    if i < 0 then M.fatal "negative field index" else putField i.toNat v
  | _ => return

def regexFor (e : Expr) : M Regex := do
  match e with
  | .regex r | .group [.regex r] => return r
  | e => compiled (← self.text e)

def putLine (target : Option Expr) (text : Chars) : M Unit :=
  match target with
  | none => putRecord text
  | some e => store self e (.input text)

def feedFor (name : Chars) (isCommand : Bool) : M (Option Feed) := do
  match (← get).feeds.find? fun f => f.name = name && f.pid.isSome == isCommand with
  | some f => return some f
  | none =>
    if isCommand then
      let (fd, pid) ← spawn name false
      return some ⟨name, ← sourceOf fd, some pid⟩
    else if name = ['-'] || name = "/dev/stdin" then return some ⟨name, ← sourceOf 0, none⟩
    else
      match ← Act.openToRead name with
      | .error _ => return none
      | .ok fd => return some ⟨name, ← sourceOf fd, none⟩

def readLine (kind : LineSource) (target source : Option Expr) : M Value := do
  match kind, source with
  | .input, _ =>
    let some text ← nextRecord Act.patience | return .number 0
    count ["NR", "FNR"]
    putLine self target text
    return .number 1
  | _, none => return .number 0
  | kind, some source =>
    let isCommand := kind = .command
    let some f ← feedFor (← self.text source) isCommand | return .number (-1)
    let (line, s) ← M.util f.source.next
    modify fun m => { m with
      feeds := { f with source := s } :: m.feeds.filter fun g => g.source.fd ≠ s.fd }
    if s.fault.isSome then return .number (-1)
    let some (text, _) := line | return .number 0
    if isCommand then count ["NR"]
    putLine self target text
    return .number 1

def bindArgument (e : Expr) : M Local := do
  match e with
  | .var name =>
    let m ← get
    match m.locals.lookup name with
    | some (.value .unset) =>
      let new := .undecided ('#' :: Chars.ofNat m.fresh)
      putLocal name new
      modify fun m => { m with fresh := m.fresh + 1 }
      return new
    | some l => return l
    | none =>
      if m.arrays.any (·.1 = name) then return .array name
      else if m.globals.any (·.1 = name) || name = "NF" then return .value (← getVar name)
      else return .undecided name
  | e => return .value (← self.eval e)

def callFunction (name : Chars) (args : List Expr) : M Value := do
  let some f := self.functions.find? (·.name = name) | M.fatal ("function " ++ name ++ " never defined")
  if args.length > f.params.length then M.fatal ("too many arguments in call to " ++ name)
  else
    ask .work
    let given ← args.mapM (bindArgument self)
    let m ← get
    let rest := (List.range (f.params.length - args.length)).map fun i =>
      Local.undecided ('#' :: Chars.ofNat (m.fresh + i))
    set { m with
      locals := f.params.zip (given ++ rest)
      fresh := m.fresh + f.params.length }
    let result ← tryCatch (do
      f.body.forM self.exec
      return Value.unset) fun
        | .ret v => return v
        | stop => throw stop
    modify fun n => { n with locals := m.locals }
    return result

def replaceIn (all : Bool) (r new target : Expr) : M Value := do
  let r ← regexFor self r
  let new ← self.text new
  let old ← self.text target
  let (changed, k) := replaceFrom r all new old.toArray (2 * old.length + 3) 0 none
  if k > 0 then store self target (.text changed)
  return .ofNat k

def isArray (name : Chars) : M Bool := do
  let m ← get
  return match m.locals.lookup name with
    | some (.array _) => true
    | some (.undecided id) => m.arrays.any (·.1 = id)
    | some (.value _) => false
    | none => m.arrays.any (·.1 = name)

def lengthOf (args : List Expr) : M Value := do
  match args with
  | [] => return .ofNat (← get).record.length
  | .var name :: _ =>
    if ← isArray name then return .ofNat (← tableOf (← arrayId name)).length
    return .ofNat (← self.text (.var name)).length
  | e :: _ => return .ofNat (← self.text e).length

def splitInto (s : Expr) (array : Chars) (rest : List Expr) : M Value := do
  let t ← self.text s
  let sep ← match rest with
    | [] => do separatorOf (← globalText "FS")
    | .regex r :: _ => pure (.regex r)
    | e :: _ => do separatorOf (← self.text e)
  let parts := splitText sep false t
  putTable (← arrayId array) (parts.zipIdx.map fun (p, i) => (Chars.ofNat (i + 1), .input p)).reverse
  return .ofNat parts.length

def matchIn (s r : Expr) : M Value := do
  let t ← self.text s
  let r ← regexFor self r
  let (start, size) : Float × Float := match r.find? bytewise t.toArray 0 with
    | some (a, b) => (Float.ofNat (a + 1), Float.ofNat (b - a))
    | none => (0, -1)
  putGlobal "RSTART" (.number start)
  putGlobal "RLENGTH" (.number size)
  return .number start

def indexOf (text part : Chars) : Nat :=
  (((List.range (text.length + 1)).find? fun i => part.isPrefixOf (text.drop i)).map (· + 1)).getD 0

def system (command : Chars) : M Value := do
  flush
  let inv ← read
  let child : Util Nat := do
    let _ ← become inv.env ["/bin/sh", "-c", command]
    return 127
  let pid ← Act.fork (run child inv)
  return .number (← awaitStatus pid)

def mathFunction? : String → Option (Float → Float)
  | "sin" => some Float.sin
  | "cos" => some Float.cos
  | "exp" => some Float.exp
  | "log" => some Float.log
  | "sqrt" => some Float.sqrt
  | "int" => some fun x =>
    match Decimal.Real.ofFloat x with
    | .finite .. => ofInt (truncate x)
    | _ => x
  | _ => none

def M.broken (text : Chars) : M α := do
  let file ← globalText "FILENAME"
  let here ← globalText "FNR"
  let all ← globalText "NR"
  M.fatal ("run time error: " ++ text ++ "\n\tFILENAME=\"" ++ file ++ "\" FNR=" ++ here ++ " NR=" ++ all)

def formatted (style : Chars) (values : List Value) : M Formatted := do
  return format (← convFmt) style (style.length + 1) 1 style values

def random : M Value := do
  let m ← get
  let next := (m.seed * 16807 + 11) % 2147483647
  set { m with seed := next }
  return .number (Float.ofNat next / 2147483647)

def reseed (args : List Expr) : M Value := do
  let old := (← get).seed
  let new ← match args with
    | e :: _ => do pure (truncate (← self.number e)).toNat
    | [] => pure 1
  modify fun m => { m with seed := new }
  return .ofNat old

def callBuiltin (name : String) (args : List Expr) : M Value := do
  match name, args with
  | "length", args => lengthOf self args
  | "substr", [s, i] => return .text (substring (← self.text s) (← self.number i) none)
  | "substr", [s, i, k] =>
    let t ← self.text s
    let start ← self.number i
    return .text (substring t start (some (← self.number k)))
  | "index", [s, t] =>
    let whole ← self.text s
    return .ofNat (indexOf whole (← self.text t))
  | "split", s :: .var array :: rest => splitInto self s array rest
  | "sub", r :: new :: rest => replaceIn self false r new (rest.headD (.field (.number 0)))
  | "gsub", r :: new :: rest => replaceIn self true r new (rest.headD (.field (.number 0)))
  | "match", [s, r] => matchIn self s r
  | "sprintf", f :: rest =>
    let style ← self.text f
    let result ← formatted style (← rest.mapM self.eval)
    match result.complaint with
    | none => return .text result.text
    | some c => M.broken c
  | "atan2", [y, x] =>
    let a ← self.number y
    return .number (Float.atan2 a (← self.number x))
  | "rand", _ => random
  | "srand", args => reseed self args
  | "tolower", [e] => return .text ((← self.text e).map Char.toLower)
  | "toupper", [e] => return .text ((← self.text e).map Char.toUpper)
  | "system", [e] => system (← self.text e)
  | "close", e :: _ => return .number (← closeNamed (← self.text e))
  | "fflush", _ =>
    flush
    return .number 0
  | name, args =>
    match mathFunction? name, args with
    | some f, [e] => return .number (f (← self.number e))
    | _, _ => M.fatal ("wrong number of arguments in call to " ++ name.toList)

def evalWith (e : Expr) : M Value := do
  match e with
  | .number x => return .number x
  | .text s => return .text s
  | .regex r => return truth (r.matchesIn bytewise (← get).record)
  | .var name => getVar name
  | .element array subscripts =>
    let key ← keyOf self subscripts
    getElement (← arrayId array) key
  | .field number => fieldAt (toInt (← self.eval number)).toNat
  | .assign target value =>
    let v ← self.eval value
    store self target v
    return v
  | .update op target value =>
    let y ← self.number value
    let x ← self.number target
    store self target (.number (op.apply x y))
    return .number (op.apply x y)
  | .step target up late =>
    let x ← self.number target
    let y := if up then x + 1 else x - 1
    store self target (.number y)
    return .number (if late then x else y)
  | .choose test yes no => if (← self.eval test).isTrue then self.eval yes else self.eval no
  | .or a b => if (← self.eval a).isTrue then return truth true else return truth (← self.eval b).isTrue
  | .and a b => if (← self.eval a).isTrue then return truth (← self.eval b).isTrue else return truth false
  | .not a => return truth (!(← self.eval a).isTrue)
  | .minus a => return .number (-(← self.number a))
  | .plus a => return .number (← self.number a)
  | .arith op a b =>
    let x ← self.number a
    let y ← self.number b
    return .number (op.apply x y)
  | .compare op a b =>
    let x ← self.eval a
    let y ← self.eval b
    return truth (compareValues (← convFmt) op x y)
  | .fits text pattern negated =>
    let t ← self.text text
    let r ← regexFor self pattern
    return truth (r.matchesIn bytewise t != negated)
  | .concat a b =>
    let x ← self.text a
    let y ← self.text b
    return .text (x ++ y)
  | .member subscripts array =>
    let key ← keyOf self subscripts
    return truth ((← tableOf (← arrayId array)).any (·.1 = key))
  | .group [e] => self.eval e
  | .group parts => return .text (← keyOf self parts)
  | .call name args => callFunction self name args
  | .builtin name args => callBuiltin self name args
  | .getline kind target source => readLine self kind target source

def output (target : Target) (text : Chars) : M Unit := do
  match target with
  | .output => print text
  | .file name append => writeTo (← self.text name) false append text
  | .command command => writeTo (← self.text command) true false text

def round (body : Stmt) : M Bool := do
  ask .work
  tryCatch (do
    self.exec body
    return true) fun
      | .leave => return false
      | .again => return true
      | stop => throw stop

def whileLoop (test : Expr) (body : Stmt) (step : Option Stmt) : Nat → M Unit
  | 0 => return
  | n + 1 => do
    if (← self.eval test).isTrue then
      if ← round self body then
        step.forM self.exec
        whileLoop test body step n

def forKeys (var : Chars) (body : Stmt) : List Chars → M Unit
  | [] => return
  | key :: rest => do
    setVar var (.input key)
    if ← round self body then forKeys var body rest

def printValues (args : List Expr) (target : Target) : M Unit := do
  let values ← args.mapM self.eval
  let style ← globalText "OFMT"
  let sep ← globalText "OFS"
  let ending ← globalText "ORS"
  let record := (← get).record
  let text := if args.isEmpty then record else Chars.join sep (values.map (·.toText style))
  output self target (text ++ ending)

def execWith (s : Stmt) : M Unit := do
  match s with
  | .expr e => let _ ← self.eval e
  | .print args target => printValues self args target
  | .printf args target =>
    let values ← args.mapM self.eval
    let f ← formatted (← textOf (values.headD .unset)) values.tail
    output self target f.text
    f.complaint.forM M.broken
  | .block body => body.forM self.exec
  | .cond test yes no => if (← self.eval test).isTrue then self.exec yes else no.forM self.exec
  | .loop test body => whileLoop self test body none Act.patience
  | .doLoop body test => if ← round self body then whileLoop self test body none Act.patience
  | .forLoop start test step body =>
    start.forM self.exec
    whileLoop self (test.getD (.number 1)) body step Act.patience
  | .forIn var array body =>
    let t ← tableOf (← arrayId array)
    forKeys self var body ((t.map (·.1)).mergeSort fun a b => keyOrder a ≤ keyOrder b)
  | .next => throw .next
  | .nextFile => throw .nextFile
  | .exit status =>
    status.forM fun e => do
      let x ← self.number e
      modify ({ · with status := truncate x })
    throw .exit
  | .ret (some e) => throw (.ret (← self.eval e))
  | .ret none => throw (.ret .unset)
  | .leave => throw .leave
  | .again => throw .again
  | .delete array subscripts =>
    let id ← arrayId array
    let some subscripts := subscripts | putTable id []
    let key ← keyOf self subscripts
    putTable id ((← tableOf id).filter (·.1 ≠ key))

end

def selfAt (script : Script) : Nat → Self
  | 0 => ⟨script.functions, fun _ => return .unset, fun _ => return⟩
  | n + 1 => ⟨script.functions, fun e => evalWith (selfAt script n) e, fun s => execWith (selfAt script n) s⟩

variable (self : Self)

def selects (i : Nat) (p : Pattern) : M Bool := do
  match p with
  | .always => return true
  | .when e => return (← self.eval e).isTrue
  | .between first last =>
    let wasBegun := (← get).active.contains i
    let begun ← if wasBegun then pure true else do pure (← self.eval first).isTrue
    if begun then
      let ends := (← self.eval last).isTrue
      modify fun m => { m with
        active := if ends then m.active.filter (· ≠ i) else if wasBegun then m.active else i :: m.active }
      return true
    return false
  | _ => return false

def apply (r : Rule) (i : Nat) : M Unit := do
  if ← selects self i r.pattern then
    match r.action with
    | some body => body.forM self.exec
    | none => printValues self [] .output

def records (rules : List Rule) : Nat → M Unit
  | 0 => return
  | n + 1 => do
    let some text ← nextRecord Act.patience | return
    putRecord text
    count ["NR", "FNR"]
    tryCatch (rules.zipIdx.forM fun (r, i) => apply self r i) fun
      | .next => return
      | .nextFile => leaveSource
      | stop => throw stop
    records rules n

def runOuter (rules : List Rule) (isStart : Bool) : M Unit :=
  rules.forM fun r => do
    match r.pattern, r.action with
    | .start, some body => if isStart then body.forM self.exec
    | .finish, some body => if !isStart then body.forM self.exec
    | _, _ => return

def readsRecords (script : Script) : Bool := script.rules.any fun r => !(r.pattern matches .start)

def untilExit (body : M Unit) : M Bool :=
  tryCatch (do
    body
    return true) fun
      | .fatal text => throw (.fatal text)
      | _ => return false

def run (script : Script) : M Unit := do
  let self := selfAt script Act.patience
  let whole ← untilExit (runOuter self script.rules true)
  if readsRecords script then
    if whole then let _ ← untilExit (records self script.rules Act.patience)
    let _ ← untilExit (runOuter self script.rules false)

def closeAll : M Unit := do
  flush
  let sinks := (← get).sinks
  for s in sinks do
    ask (.close s.fd)
  for s in sinks do
    let some pid := s.pid | pure ()
    let _ ← awaitStatus pid

structure Options where
  separator : Option Chars
  vars : List Chars
  files : List Chars
  rest : List Chars

def options : Nat → List Chars → Options → Except Chars Options
  | 0, _, o | _, [], o => .ok o
  | n + 1, arg :: rest, o =>
    match arg with
    | ['-', '-'] => .ok { o with rest }
    | '-' :: 'F' :: value => withValue n value rest o "F" fun o v => { o with separator := some v }
    | '-' :: 'v' :: value => withValue n value rest o "v" fun o v => { o with vars := o.vars ++ [v] }
    | '-' :: 'f' :: value => withValue n value rest o "f" fun o v => { o with files := o.files ++ [v] }
    | '-' :: 'W' :: value => withValue n value rest o "W" fun o _ => o
    | '-' :: c :: more => .error ("not an option: " ++ '-' :: c :: more)
    | _ => .ok { o with rest := arg :: rest }
where
  withValue (n : Nat) (value : Chars) (rest : List Chars) (o : Options) (letter : String)
      (put : Options → Chars → Options) : Except Chars Options :=
    match value, rest with
    | [], v :: rest => options n rest (put o v)
    | [], [] => .error ("option -" ++ letter.toList ++ " lacks argument")
    | value, rest => options n rest (put o value)

def programText (o : Options) : Util (Except (Chars × Fault) (Chars × List Chars)) := do
  if o.files.isEmpty then return .ok (o.rest.headD [], o.rest.tail)
  let mut text : Chars := []
  for file in o.files do
    match ← contents file with
    | .ok t => text := text ++ t ++ ['\n']
    | .error f => return .error (file, f)
  return .ok (text, o.rest)

def initial (env : Env) (args : List Chars) : Machine where
  globals := [("FS", .text [' ']), ("OFS", .text [' ']), ("ORS", .text ['\n']),
    ("RS", .text ['\n']), ("SUBSEP", .text ['\x1c']),
    ("CONVFMT", .text "%.6g"), ("OFMT", .text "%.6g"),
    ("NR", .number 0), ("FNR", .number 0), ("RSTART", .number 0),
    ("RLENGTH", .number (-1)), ("FILENAME", .unset),
    ("ARGC", .ofNat (args.length + 1))]
  arrays := [("ENVIRON", (env.map fun (k, v) => (k, .input v)).reverse),
    ("ARGV", ((("awk".toList :: args).zipIdx.map fun (a, i) => (Chars.ofNat i, .input a))).reverse)]

end Prune.Utility.Awk

namespace Prune.Utility

open Awk Util

def awk : Applet := do
  let args ← args
  match options (args.length + 1) args ⟨none, [], [], []⟩ with
  | .error text => failWith 2 text
  | .ok o =>
    if o.files.isEmpty && o.rest.isEmpty then
      print "Usage: mawk [Options] [Program] [file ...]\n"
      return 0
    match ← programText o with
    | .error (name, f) => failWith 2 ("cannot open \"" ++ name ++ "\" (" ++ f.text ++ [')'])
    | .ok (text, operands) =>
      match Awk.parse text with
      | .error e => failWith 2 e
      | .ok script =>
        let env := (← read).env
        let work : M Unit := do
          o.separator.forM (assign "FS")
          for v in o.vars do
            match Awk.assignment? v with
            | some (name, value) => assign name value
            | none => M.fatal ("improper assignment: -v " ++ v)
          Awk.run script
        let (result, m) ← (do
          let r ← tryCatch (do
            work
            return none) fun
              | .fatal text => return some text
              | _ => return none
          closeAll
          return r : M (Option Chars)).run (initial env operands)
        match result with
        | .ok (some text) => failWith 2 text
        | _ => return (m.status % 256).toNat

end Prune.Utility
