import Prune.Log.Pattern
import Prune.Settings
import Prune.Text.Hidden

/-!
What a sweep reports while it runs, and the three ways to write a report down: plainly, as a compact
log line, and as a line of JSON.
-/

namespace Prune

inductive Level where
  | error | warn | info | debug
deriving DecidableEq, Repr

namespace Level

def name : Level → String
  | .error => "ERROR"
  | .warn => "WARN"
  | .info => "INFO"
  | .debug => "DEBUG"

def rank : Level → Nat
  | .error => 1
  | .warn => 2
  | .info => 3
  | .debug => 4

end Level

inductive Value where
  | number (n : Nat)
  /-- A text that a compact line puts in quotes. -/
  | text (s : String)
  | shown (s : String)
deriving DecidableEq, Repr

structure Event where
  level : Level
  target : String
  message : String
  fields : List (String × Value)
deriving DecidableEq, Repr

namespace Value

def plain : Value → String
  | .number n => toString n
  | .text s | .shown s => s

def compact : Value → String
  | .number n => toString n
  | .text s => Text.quoted s
  | .shown s => s

def json : Value → String
  | .number n => toString n
  | .text s | .shown s => Text.json s

def path (p : Path) : Value := .shown p.display

end Value

namespace Event

def body (value : Value → String) (e : Event) : String :=
  e.target ++ ": " ++ e.message ++ String.join (e.fields.map fun (k, v) => " " ++ k ++ "=" ++ value v)

def plain (e : Event) : String := e.level.name ++ " " ++ e.body Value.plain

/-- A compact line, with the level set to the right in five columns. -/
def compact (stamp : String) (e : Event) : String :=
  let level := String.ofList (e.level.name.toList.leftpad 5 ' ')
  stamp ++ " " ++ level ++ " " ++ e.body Value.compact

def json (stamp : String) (e : Event) : String :=
  let fields := [("timestamp", Value.shown stamp), ("level", .shown e.level.name),
    ("message", .shown e.message)] ++ e.fields ++ [("target", .shown e.target)]
  "\x7b" ++ ",".intercalate (fields.map fun (k, v) => Text.json k ++ ":" ++ v.json) ++ "\x7d"

def line (format : LogFormat) (stamp : String) (e : Event) : String :=
  match format with
  | .compact => e.compact stamp ++ "\n"
  | .json => e.json stamp ++ "\n"

end Event

end Prune

/-!
Which reports get into the log. A filter is a list of items between commas. An item is a level, a
target, or `target[{field}]=level`; of the items that fit a report the most specific one decides, and
without one nothing passes. An item may also name a span: no report stands in one, so such an item
says nothing.
-/

namespace Prune.Log

/-- Lets through the reports of a target that have all the fields, down to a rank. -/
structure Rule where
  /-- Without a target the rule is for all. -/
  target : Option Bytes
  fields : List Bytes
  rank : Nat
deriving DecidableEq, Repr

structure Filter where
  rules : List Rule
deriving DecidableEq, Repr

inductive FilterFlaw where
  | level
  | directive
  | value (flaw : Pattern.Flaw)
deriving DecidableEq, Repr

def FilterFlaw.message : FilterFlaw → String
  | .level => "error parsing level filter: expected one of \"off\", \"error\", \"warn\", \"info\", " ++
      "\"debug\", \"trace\", or a number 0-5"
  | .directive => "invalid filter directive"
  | .value .malformed => "invalid field filter: error building NFA"
  | .value .edges => "invalid field filter: unsupported regex feature for DFAs: cannot build DFAs for " ++
      "regexes with Unicode word boundaries; switch to ASCII word boundaries, or heuristically enable " ++
      "Unicode word boundaries or use a different regex engine"

def lowest : Nat := 5

def digitsFrom (n : Nat) : List Char → Option Nat
  | [] => some n
  | c :: cs => if c.isDigit then digitsFrom (10 * n + (c.toNat - '0'.toNat)) cs else none

def numeral? : List Char → Option Nat
  | [] | '+' :: [] => none
  | '+' :: cs | cs => digitsFrom 0 cs

/-- The rank a level's name or number stands for; the case of letters does not matter. -/
def rank? (level : Bytes) : Option Nat :=
  let cs := level.map fun b => Char.ofNat b.toNat
  match numeral? cs with
  | some n => if n ≤ lowest then some n else none
  | none =>
    ["off", "error", "warn", "info", "debug", "trace"].findIdx? fun n => cs.map Char.toLower = n.toList

structure Item where
  target : Option Bytes
  /-- The name of a span, which may be empty. -/
  span : Option Bytes
  fields : List (Bytes × Option Bytes)
  rank : Nat

def Item.empty : Item := ⟨none, none, [], lowest⟩

inductive Part where
  | start
  | levelOrTarget (first : Nat)
  | span (first : Nat)
  | field (first : Nat)
  | fields
  | target
  | level (first : Nat)

/-- An item begins with a letter, a digit, or one of `-`, `:` and `_`. -/
def startsItem (c : Char) : Bool := c == '-' || c == ':' || c == '_' || Text.isLetter c

/-- The field that a text names, with the value behind its first `=`. -/
def fieldOf (text : Bytes) : Bytes × Option Bytes :=
  match Bytes.splitOn 0x3D text with
  | name :: value :: _ => (name, some value)
  | [name] => (name, none)
  | [] => (text, none)

/-- The field that a text names, if what it asks of it can be asked. -/
def fieldIn (text : Bytes) : Except FilterFlaw (Bytes × Option Bytes) := do
  let field := fieldOf text
  if let some value := field.2 then
    if let .error f := Pattern.check (Utf8.lossy value) then .error (.value f)
  return field

/-- Takes the character at place `i`. Places are counted in the item without the blanks around it,
and looked up in the item with them. -/
def Part.next (source : Bytes) (item : Item) (i : Nat) (c : Char) :
    Part → Except FilterFlaw (Part × Item)
  | .start =>
    if c = '[' then .ok (.span (i + 1), item)
    else if startsItem c then .ok (.levelOrTarget i, item)
    else .error .directive
  | .levelOrTarget first =>
    let text := (source.drop first).take (i - first)
    if c = '=' then .ok (.level (i + 1), { item with target := some text })
    else if c = '[' then .ok (.span (i + 1), { item with target := some text })
    else .ok (.levelOrTarget first, item)
  | .span first =>
    let text := (source.drop first).take (i - first)
    if c = ']' then .ok (.target, { item with span := some text })
    else if c = '\x7b' then
      .ok (.field (i + 1), { item with span := if text.isEmpty then none else some text })
    else .ok (.span first, item)
  | .field first =>
    let text := (source.drop first).take (i - first)
    if c = '\x7d' then
      if text.isEmpty then .error .directive
      else do return (.fields, { item with fields := item.fields ++ [← fieldIn text] })
    else .ok (.field first, item)
  | .fields => if c = ']' then .ok (.target, item) else .error .directive
  | .target => if c = '=' then .ok (.level (i + 1), item) else .error .directive
  | .level first => .ok (.level first, item)

def Part.run (source : Bytes) : Nat → List Char → Part → Item → Except FilterFlaw (Part × Item)
  | _, [], part, item => .ok (part, item)
  | i, c :: cs, part, item => do
    let (part, item) ← part.next source item i c
    Part.run source (i + c.utf8Size) cs part item

/-- An item of the list. What could be a level is one; any other target lets everything through. -/
def Item.read (s : String) : Except FilterFlaw Item := do
  let source := Bytes.ofString s
  let (part, item) ← Part.run source 0 (Text.trim s).toList .start .empty
  match part with
  | .levelOrTarget first =>
    let text := source.drop first
    match rank? text with
    | some rank => return { item with rank }
    | none => return { item with target := some text }
  | .level first =>
    let text := source.drop first
    if text.isEmpty then return item
    match rank? text with
    | some rank => return { item with rank }
    | none => .error .level
  | .target => return item
  | _ => .error .directive

/-- The rule of an item that says something about a report: one without a span and without values. -/
def Item.rule? (item : Item) : Option Rule :=
  if item.span.isNone && item.fields.all (·.2.isNone) then
    some ⟨item.target, item.fields.map (·.1), item.rank⟩
  else none

def Filter.read (s : String) : Except FilterFlaw Filter := do
  let items ← ((Bytes.splitOn 0x2C (Bytes.ofString s)).filter (!·.isEmpty)).mapM (Item.read <| Utf8.lossy ·)
  return ⟨items.filterMap Item.rule?⟩

def fieldNames (e : Event) : List Bytes := "message" :: e.fields.map fun (name, _) => Bytes.ofString name

def Rule.fits (r : Rule) (e : Event) : Bool :=
  (match r.target with
    | some t => t.isPrefixOf (Bytes.ofString e.target)
    | none => true)
    && r.fields.all (fieldNames e).contains

/-- How specific a rule is: the length of its target counts most, then the number of its fields, then
their names. -/
def Rule.weight (r : Rule) : List (List Nat) :=
  [match r.target with
    | some t => [t.length + 1]
    | none => [0],
    [r.fields.length]] ++ r.fields.map fun f => f.map UInt8.toNat

def Rule.atMost (a b : Rule) : Bool := (compare a.weight b.weight).isLE

/-- The rule for a report: the most specific that fits, and of equals the last. -/
def Filter.ruleFor (f : Filter) (e : Event) : Option Rule :=
  (f.rules.filter (·.fits e)).foldl
    (fun best r =>
      match best with
      | some b => if b.atMost r then some r else some b
      | none => some r)
    none

def Filter.passes (f : Filter) (e : Event) : Bool :=
  match f.ruleFor e with
  | some r => e.level.rank ≤ r.rank
  | none => false

end Prune.Log
