import Prune.Shell.Assign
import Prune.Shell.Builtin.Variables

/-!
The options of built-in commands in the extended dialect, and the options of the shell itself.
-/

namespace Prune.Shell.Extended

open Host Sh

/-- A letter given as an option, with its argument if it takes one. -/
structure Given where
  sign : Char
  letter : Char
  value : Chars

def sayUsage (name usage : String) : Sh Unit := do
  let _ ← put 2 ((name ++ ": usage: " ++ usage ++ "\n").toList)

def wrongUse (name usage : String) (sign letter : Char) (text : String) : Sh α := do
  complainPlain (name ++ ": " ++ [sign, letter] ++ ": " ++ text)
  sayUsage name usage
  throw (.fault 2)

/-- Reads the letters of an argument. A letter with a colon behind it in `known` takes an argument. -/
def readLetters (name usage : String) (known : Chars) (sign : Char) :
    Chars → List Chars → Sh (List Given × List Chars)
  | [], rest => return ([], rest)
  | c :: cs, rest => do
    match known.dropWhile (· ≠ c) with
    | [] => wrongUse name usage sign c "invalid option"
    | _ :: ':' :: _ =>
      match cs, rest with
      | [], [] => wrongUse name usage sign c "option requires an argument"
      | [], value :: rest => return ([⟨sign, c, value⟩], rest)
      | cs, rest => return ([⟨sign, c, cs⟩], rest)
    | _ =>
      let (more, rest) ← readLetters name usage known sign cs rest
      return (⟨sign, c, []⟩ :: more, rest)

def readGiven (name usage : String) (known : String) (plus : Bool) :
    Nat → List Chars → Sh (List Given × List Chars)
  | _, ['-', '-'] :: rest => return ([], rest)
  | n + 1, arg@(sign :: letters@(_ :: _)) :: rest => do
    if sign = '-' || (plus && sign = '+') then
      let (given, rest) ← readLetters name usage known.toList sign letters rest
      let (more, rest) ← readGiven name usage known plus n rest
      return (given ++ more, rest)
    return ([], arg :: rest)
  | _, args => return ([], args)

def given (name usage known : String) (args : List Chars) : Sh (List Given × List Chars) :=
  readGiven name usage known false (args.length + 1) args

def has (letters : List Given) (c : Char) : Bool := letters.any (·.letter = c)

def valueOf? (letters : List Given) (c : Char) : Option Chars :=
  ((letters.filter (·.letter = c)).getLast?).map (·.value)

/-- The options of the shell by letter and name, in the order they are listed. Those without a letter
to type have one that cannot be typed. -/
def optionNames : List (Char × String) :=
  [('a', "allexport"), ('B', "braceexpand"), ('\x05', "emacs"), ('e', "errexit"), ('E', "errtrace"),
    ('T', "functrace"), ('h', "hashall"), ('H', "histexpand"), ('\x06', "history"),
    ('\x07', "ignoreeof"), ('\x08', "interactive-comments"), ('k', "keyword"), ('m', "monitor"),
    ('C', "noclobber"), ('n', "noexec"), ('f', "noglob"), ('\x0b', "nolog"), ('b', "notify"),
    ('u', "nounset"), ('t', "onecmd"), ('P', "physical"), ('\x03', "pipefail"), ('\x04', "posix"),
    ('p', "privileged"), ('v', "verbose"), ('\x0c', "vi"), ('x', "xtrace")]

def letterOrder : Chars := "abefhikmnptuvxBCEHPT" ++ ['\x03', '\x04', '\x05', '\x06', '\x07', '\x08', '\x0b', '\x0c']

def setLetter (on : Bool) (letter : Char) : Sh Unit := modify fun s =>
  let others := s.options.filter (· ≠ letter)
  { s with options := if on then letterOrder.filter fun c => c = letter || others.contains c else others }

def initialOptions : List Char := ['h', 'B', '\x08']

def choiceNames : List String :=
  ["autocd", "assoc_expand_once", "cdable_vars", "cdspell", "checkhash", "checkjobs", "checkwinsize",
    "cmdhist", "compat31", "compat32", "compat40", "compat41", "compat42", "compat43", "compat44",
    "complete_fullquote", "direxpand", "dirspell", "dotglob", "execfail", "expand_aliases", "extdebug",
    "extglob", "extquote", "failglob", "force_fignore", "globasciiranges", "globskipdots", "globstar",
    "gnu_errfmt", "histappend", "histreedit", "histverify", "hostcomplete", "huponexit",
    "inherit_errexit", "interactive_comments", "lastpipe", "lithist", "localvar_inherit",
    "localvar_unset", "login_shell", "mailwarn", "no_empty_cmd_completion", "nocaseglob", "nocasematch",
    "noexpand_translation", "nullglob", "patsub_replacement", "progcomp", "progcomp_alias", "promptvars",
    "restricted_shell", "shift_verbose", "sourcepath", "varredir_close", "xpg_echo"]

def initialChoices : List String :=
  ["checkwinsize", "cmdhist", "complete_fullquote", "extquote", "force_fignore", "globasciiranges",
    "globskipdots", "hostcomplete", "interactive_comments", "patsub_replacement", "progcomp",
    "promptvars", "sourcepath"]

def optionLine (name : String) (on : Bool) : Chars :=
  Chars.padRight 15 name.toList ++ '\t' :: (if on then "on\n" else "off\n").toList

def setChoice (on : Bool) (name : String) : Sh Unit := modify fun s =>
  let others := s.choices.filter (· ≠ name)
  { s with choices := if on then choiceNames.filter fun c => c = name || others.contains c else others }

def shopt : Builtin := fun _ _ args => do
  let (letters, names) ← given "shopt" "shopt [-pqsu] [-o] [optname ...]" "pqsuo" args
  let ofShell := has letters 'o'
  let s ← get
  let isOn (name : String) : Bool :=
    if ofShell then optionNames.any fun (c, w) => w = name && s.options.contains c
    else s.choices.contains name
  let all := if ofShell then optionNames.map (·.2) else choiceNames
  let show1 (name : String) : Sh Unit := do
    if !has letters 'q' then
      if has letters 'p' then
        let word := if ofShell then if isOn name then "set -o " else "set +o "
          else if isOn name then "shopt -s " else "shopt -u "
        say ((word ++ name ++ "\n").toList)
      else say (optionLine name (isOn name))
  let sets := has letters 's' || has letters 'u'
  if names.isEmpty then
    for name in all do
      if !sets || isOn name = has letters 's' then show1 name
    return 0
  forEach names fun word => do
    let name := String.ofList word
    if !all.contains name then
      return ← fail 1 ("shopt: " ++ word ++ (if ofShell then ": invalid " else ": invalid shell ") ++ "option name")
    if sets then
      if ofShell then
        for (c, w) in optionNames do
          if w = name then setLetter (has letters 's') c
      else setChoice (has letters 's') name
      return 0
    show1 name
    return if isOn name then 0 else 1

def setUsage : String := "set [-abefhkmnptuvxBCEHPT] [-o option-name] [--] [-] [arg ...]"

def setRules : Builtin.OptionRules where
  names := optionNames
  isLetter letter := letterOrder.contains letter && letter ≠ 'i'
  put := setLetter
  wrongName _ name := misuse "set" (name ++ ": invalid option name")
  wrongLetter sign letter := wrongUse "set" setUsage sign letter "invalid option"

def listOptions (on : Bool) : Sh Unit := do
  let s ← get
  for (c, w) in optionNames do
    let isOn := s.options.contains c
    if on then say (optionLine w isOn)
    else say (((if isOn then "set -o " else "set +o ") ++ w ++ "\n").toList)

def shownVar (wide : Bool) (v : Variable) : Option Chars :=
  v.content.map fun
    | .text t => v.name ++ '=' :: Quoting.shown wide t ++ ['\n']
    | c => v.name ++ '=' :: contentText wide c ++ ['\n']

def showAll : Sh Nat := do
  tell ((Builtin.sortedVars (← get).vars).filterMap (shownVar (← wide))).flatten

def setArgs : Builtin := fun _ _ args => do
  if args.isEmpty then return ← showAll
  let bare (sign : Char) (rest : List Chars) : Sh (List Chars × Bool) := do
    if sign = '-' then
      setLetter false 'x'
      setLetter false 'v'
    return (rest, !rest.isEmpty)
  let (rest, given) ← setRules.readAll listOptions bare (args.length + 1) args
  if given then modify ({ · with args := rest })
  return 0

end Prune.Shell.Extended
