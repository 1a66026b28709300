import Prune.Text.Chars

/-!
Texts in quotes, as messages show them: as a shell would read them, or between the quotes of the
language.
-/

namespace Prune.Utility

def isShown (c : Char) : Bool := (' ' ≤ c && c ≤ '~') || c ≥ '\x80'

/-- Whether a shell reads a character behind the first one as something else, so that a text with it
needs quotes. -/
def isShellSign (c : Char) : Bool := !isShown c || " !\"$&'()*;<=>?[\\^\x60|".contains c

variable (text : Chars)

def fitsDouble : Bool :=
  text.all fun c => c.isAlphanum || c ≥ '\x80' || " '%+,-./:]_#~".contains c

def shellEscape (c : Char) : Chars :=
  '\\' :: match Chars.controlLetter? c with
    | some letter => [letter]
    | none => Chars.octal c

def shellParts : Bool → Chars → Chars
  | escaping, [] => if escaping then ['\''] else []
  | escaping, c :: rest =>
    if !isShown c then
      (if escaping then [] else "'$'") ++ shellEscape c ++ shellParts true rest
    else
      let front := if escaping then "''".toList else []
      front ++ (if c = '\'' then "'\\''".toList else [c]) ++ shellParts false rest

def quotedName : Chars :=
  if text.contains '\'' && fitsDouble text then '"' :: text ++ ['"']
  else
    let inner := shellParts false text
    '\'' :: inner ++ (if text.getLast?.any (!isShown ·) then [] else ['\''])

def quotedIfNeeded : Chars :=
  let isOdd := match text with
    | [] => true
    | [c] => c = '\x7b' || c = '\x7d' || c = '#' || c = '~' || isShellSign c
    | c :: rest => c = '#' || c = '~' || isShellSign c || rest.any isShellSign
  if isOdd then quotedName text else text

def namedFile : Chars := if text.contains ':' then quotedName text else quotedIfNeeded text

def plainlyQuoted : Chars := '\'' :: text ++ ['\'']

def languageEscape (c : Char) : Chars := if c = '\\' then "\\\\" else if isShown c then [c] else shellEscape c

def quoted : Chars := Chars.ofString "‘" ++ text.flatMap languageEscape ++ Chars.ofString "’"

def plainQuotes : Chars → Chars
  | '\xe2' :: '\x80' :: '\x98' :: rest | '\xe2' :: '\x80' :: '\x99' :: rest => '\'' :: plainQuotes rest
  | c :: rest => c :: plainQuotes rest
  | [] => []

end Prune.Utility
