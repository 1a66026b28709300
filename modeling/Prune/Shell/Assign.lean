import Prune.Shell.Expansion

/-!
Commands shown before they are run, where a script asks for that. The common dialect shows what a
command and its assignments come to in one line. The extended one shows each assignment in a line of its
own, quotes what is shown, and repeats the sign in front for each text that is run within another.
-/

namespace Prune.Shell

open Host

namespace Quoting

def hasSigns (text : Chars) : Bool :=
  text.zipIdx.any fun (c, i) =>
    let before := if i = 0 then none else text[i - 1]?
    " \t\n'\"\\|&;()<>!\x7b\x7d*[?]^$\x60".contains c ||
      (c = '~' && (before = none || before = some '=' || before = some ':')) ||
      (c = '#' && (before = none || before = some ' ' || before = some '\t'))

def traced (wide : Bool) (text : Chars) : Chars :=
  if text.isEmpty then "''"
  else if hasSigns text then '\'' :: text.flatMap (fun c => if c = '\'' then "'\\''" else [c]) ++ ['\'']
  else if isShown wide text then text
  else withEscapes wide text

end Quoting

namespace Sh

variable (self : Self)

def traceSign : Sh Chars := do
  let s ← get
  let text := (lookup s "PS4").getD "+ "
  set { s with options := s.options.filter (· ≠ 'x') }
  let r ← outcome (document self (textWord s.dialect text))
  modify ({ · with options := s.options, status := s.status, substituted := s.substituted })
  match s.dialect, r.toOption.getD text with
  | .extended, c :: rest => return List.replicate s.nesting c ++ rest
  | _, sign => return sign

def traceTarget : Sh Nat := do
  let s ← get
  match s.dialect with
  | .common => return s.traceTo.getD 2
  | .extended => return ((lookup s "BASH_XTRACEFD").bind Chars.toNat?).getD 2

def traceText (text : Sh Chars) : Sh Unit := do
  if ← option 'x' then
    let sign ← traceSign self
    let _ ← put (← traceTarget) (sign ++ (← text) ++ ['\n'])

def traceWords (texts : List Chars) : Sh Unit :=
  traceText self do
    let wide ← wide
    return Chars.join [' '] (if ← isExtended then texts.map (Quoting.traced wide) else texts)

def traceAssignment (target value : Chars) : Sh Unit :=
  traceText self do
    let wide ← wide
    return target ++ '=' :: (if value.isEmpty then [] else Quoting.traced wide value)

end Sh

end Prune.Shell

/-!
Assignments: of texts, of numbers, of elements of lists, and of whole lists.
-/

namespace Prune.Shell

open Host

structure Item where
  /-- Where it goes, if that is said. -/
  place : Option Chars
  /-- It is added to what is there. -/
  appends : Bool
  value : Chars

namespace Sh

variable (self : Self)

def taken (traits : List Char) (text : Chars) : Sh Chars := do
  if traits.contains 'i' then return Chars.ofInt (← compute text) else return text

def placeOf (isTable : Bool) (w : Word) : Sh Chars := do
  let text ← document self w
  if isTable then return text else return Chars.ofInt (← compute text)

def itemsOf (isTable : Bool) (ws : List Word) : Sh (List Item) := do
  let items ← ws.mapM fun w => do
    match w with
    | .plain '[' :: rest =>
      let index := rest.takeWhile fun
        | .plain ']' => false
        | _ => true
      let some (appends, value) := assignedValue? .extended (rest.drop (index.length + 1)) | plain w
      return [⟨some (← placeOf self isTable index), appends, ← assigned self value⟩]
    | w => plain w
  return items.flatten
where
  plain (w : Word) : Sh (List Item) := do return (← fields self w).map fun v => ⟨none, false, v⟩

def fillList (items : List (Nat × Chars)) : Nat → List Item → List (Nat × Chars)
  | _, [] => items
  | next, item :: rest =>
    let place := match item.place.bind Chars.toInt? with
      | some n => if n < 0 then ((Content.nextPlace items : Int) + n).toNat else n.toNat
      | none => next
    let value := if item.appends then (items.lookup place).getD [] ++ item.value else item.value
    fillList (Content.insertAt items place value) (place + 1) rest

def fillTable (items : List (Chars × Chars)) : List Item → List (Chars × Chars)
  | [] => items
  | ⟨some key, appends, value⟩ :: rest =>
    let value := if appends then (items.lookup key).getD [] ++ value else value
    fillTable (Content.insertKey items key value) rest
  | ⟨none, _, key⟩ :: ⟨none, _, value⟩ :: rest => fillTable (Content.insertKey items key value) rest
  | ⟨none, _, key⟩ :: rest => fillTable (Content.insertKey items key []) rest

def assignList (name : Chars) (appends : Bool) (ws : List Word) : Sh Unit := do
  let v ← changeable name
  let isTable := v.traits.contains 'A' || v.content.any Content.isTable
  let items ← itemsOf self isTable ws
  let items ← items.mapM fun item => do
    return { item with value := shaped v.traits (← taken v.traits item.value) }
  let content := if appends then v.content else none
  let new : Content := match isTable, content with
    | true, some (.table before) => .table (fillTable before items)
    | true, _ => .table (fillTable [] items)
    | false, some c => .list (fillList c.items (Content.nextPlace c.items) items)
    | false, none => .list (fillList [] 0 items)
  putVar { v with content := some new }

def writtenForm (w : Word) : Chars :=
  w.flatMap fun
    | .plain c | .quoted c => [c]
    | .param name _ _ _ => '$' :: name
    | _ => []

/-- Carries out an assignment; its text. In the extended dialect it is shown first, if it is to be. -/
def assignWord (shows : Bool) : Assignment → Sh Chars
  | .mk name index appends value => do
    let s ← get
    let shows := shows && s.dialect = .extended
    let sign := if appends then ['+'] else []
    let name := if s.dialect = .common then name else aimOf s name
    match value with
    | [.items ws written] =>
      if shows then traceText self (return name ++ sign ++ "=(" ++ written ++ [')'])
      assignList self name appends ws
      return name ++ "=()"
    | value =>
      let text ← assigned self value
      if shows then
        let place := match index with
          | some w => '[' :: writtenForm w ++ [']']
          | none => []
        traceAssignment self (name ++ place ++ sign) text
      let v? ← var? name
      let traits := (v?.map (·.traits)).getD []
      let full ← match index with
        | none => pure name
        | some w =>
          let isTable := v?.any fun v => v.traits.contains 'A' || v.content.any Content.isTable
          pure (Arithmetic.elementName name (← placeOf self isTable w))
      let text ← taken traits text
      let text ← if appends then
          let old := (lookup (← get) full).getD []
          if traits.contains 'i' then
            pure (Chars.ofInt (← compute ((if old.isEmpty then ['0'] else old) ++ '+' :: text)))
          else pure (old ++ text)
        else pure text
      assign full text
      return full ++ '=' :: text

end Sh

end Prune.Shell
