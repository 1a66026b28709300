import Prune.Text.Calendar
import Prune.Text.Chars

/-!
Times as texts, by formats in which letters behind a percent sign stand for parts of a time.
-/

namespace Prune.Utility.Time

open Calendar

/-- How a field of a format is filled up, and how its letters are written. -/
structure FieldManner where
  fill : Option Char := none
  bare : Bool := false
  upper : Bool := false
  swapped : Bool := false
  width : Option Nat := none
  colons : Nat := 0

def FieldManner.number (m : FieldManner) (width : Nat) (fill : Char) (n : Int) : Chars :=
  let digits := Chars.ofNat n.natAbs
  let sign := if n < 0 then ['-'] else []
  if m.bare && m.width.isNone then sign ++ digits
  else
    let width := m.width.getD (if m.bare then 0 else width)
    let fill := m.fill.getD fill
    if fill = ' ' then Chars.padLeft width (sign ++ digits)
    else sign ++ digits.leftpad (width - sign.length) fill

def FieldManner.text (m : FieldManner) (t : Chars) : Chars :=
  let t := if m.upper then t.map Char.toUpper
    else if m.swapped then t.map fun c => if c.isUpper then c.toLower else c.toUpper else t
  match m.width with
  | some w => t.leftpad w (m.fill.getD ' ')
  | none => t

def offsetText (colons : Nat) (ahead : Int) : Chars :=
  let n := ahead.natAbs
  let two (n : Nat) : Chars := (Chars.ofNat n).leftpad 2 '0'
  let sign := if ahead < 0 then '-' else '+'
  let (h, m, s) := (two (n / 3600), two (n / 60 % 60), two (n % 60))
  match colons with
  | 0 => sign :: h ++ m
  | 1 => sign :: h ++ ':' :: m
  | 2 => sign :: h ++ ':' :: m ++ ':' :: s
  | _ => sign :: h ++ (if n % 3600 = 0 then [] else ':' :: m ++ if n % 60 = 0 then [] else ':' :: s)

def halfHour (t : Time) : Nat := (t.seconds / 3600 + 11) % 12 + 1

/-- What a letter stands for; none if it stands for nothing. Letters that stand for several fields are
formats of their own. -/
def field? (again : Chars → Chars) (m : FieldManner) (t : Time) : Char → Option Chars
  | 'Y' => m.number 1 '0' t.day.year
  | 'C' => m.number 2 '0' (t.day.year.fdiv 100)
  | 'y' => m.number 2 '0' (t.day.year.fmod 100)
  | 'm' => m.number 2 '0' t.day.month
  | 'd' => m.number 2 '0' t.day.day
  | 'e' => m.number 2 ' ' t.day.day
  | 'H' => m.number 2 '0' (t.seconds / 3600 : Nat)
  | 'k' => m.number 2 ' ' (t.seconds / 3600 : Nat)
  | 'I' => m.number 2 '0' (halfHour t)
  | 'l' => m.number 2 ' ' (halfHour t)
  | 'M' => m.number 2 '0' (t.seconds / 60 % 60 : Nat)
  | 'S' => m.number 2 '0' (t.seconds % 60 : Nat)
  | 's' => m.number 1 '0' t.epoch
  | 'N' =>
    let digits := (Chars.ofNat (t.micros * 1000)).leftpad 9 '0'
    match m.width with
    | some w => digits.take w ++ List.replicate (w - 9) '0'
    | none => if m.bare then Chars.trimEnd (· = '0') digits else digits
  | 'j' => m.number 3 '0' t.day.ofYear
  | 'q' => m.number 1 '0' ((t.day.month - 1) / 3 + 1 : Nat)
  | 'u' => m.number 1 '0' ((weekday t.days + 6) % 7 + 1 : Nat)
  | 'w' => m.number 1 '0' (weekday t.days)
  | 'V' => m.number 2 '0' (week t.days).2
  | 'G' => m.number 1 '0' (week t.days).1
  | 'g' => m.number 2 '0' ((week t.days).1.fmod 100)
  | 'U' => m.number 2 '0' ((t.day.ofYear + 6 - weekday t.days) / 7 : Nat)
  | 'W' => m.number 2 '0' ((t.day.ofYear + 6 - (weekday t.days + 6) % 7) / 7 : Nat)
  | 'a' => m.text (((weekdays.getD (weekday t.days) "").toList).take 3)
  | 'A' => m.text (weekdays.getD (weekday t.days) "").toList
  | 'b' | 'h' => m.text (((months.getD (t.day.month - 1) "").toList).take 3)
  | 'B' => m.text (months.getD (t.day.month - 1) "").toList
  | 'p' => m.text (if t.seconds < 43200 then "AM" else "PM")
  | 'P' => m.text (if t.seconds < 43200 then "am" else "pm")
  | 'Z' => m.text t.zone.name.toList
  | 'z' => m.text (offsetText m.colons t.zone.ahead)
  | 'D' | 'x' => m.text (again "%m/%d/%y")
  | 'F' => m.text (again "%Y-%m-%d")
  | 'T' | 'X' => m.text (again "%H:%M:%S")
  | 'R' => m.text (again "%H:%M")
  | 'r' => m.text (again "%I:%M:%S %p")
  | 'c' => m.text (again "%a %b %e %H:%M:%S %Y")
  | 'n' => some ['\n']
  | 't' => some ['\t']
  | '%' => some ['%']
  | _ => none

def fieldSigns : Nat → FieldManner → Chars → FieldManner × Chars
  | 0, m, text => (m, text)
  | n + 1, m, text =>
    match text with
    | '-' :: rest => fieldSigns n { m with bare := true, fill := none } rest
    | '_' :: rest => fieldSigns n { m with fill := some ' ', bare := false } rest
    | '0' :: rest => fieldSigns n { m with fill := some '0', bare := false } rest
    | '+' :: rest => fieldSigns n { m with fill := some '0' } rest
    | '^' :: rest => fieldSigns n { m with upper := true } rest
    | '#' :: rest => fieldSigns n { m with swapped := true } rest
    | text =>
      let (digits, rest) := text.span Char.isDigit
      let rest := match rest with
        | 'E' :: more | 'O' :: more => more
        | rest => rest
      let (colons, rest) := rest.span (· = ':')
      ({ m with width := Chars.toNat? digits <|> m.width, colons := colons.length }, rest)

def formatAt (t : Time) : Nat → Nat → Chars → Chars
  | 0, _, _ => []
  | _, 0, text => text
  | _, _, [] => []
  | depth + 1, n + 1, '%' :: rest =>
    let (m, behind) := fieldSigns 8 {} rest
    let again (format : Chars) : Chars := formatAt t depth (format.length + 1) format
    match behind with
    | [] => '%' :: rest
    | c :: more =>
      match field? again m t c with
      | some text => text ++ formatAt t (depth + 1) n more
      | none => '%' :: rest.take (rest.length - more.length) ++ formatAt t (depth + 1) n more
  | depth + 1, n + 1, c :: rest => c :: formatAt t (depth + 1) n rest

def format (t : Time) (text : Chars) : Chars := formatAt t 4 (text.length + 1) text

/-!
Times read from texts as people write them: dates, times of day, zones, days of the week, and what is
counted from there, as in `2 days ago`, in any order.
-/

inductive Token where
  | number (n digits : Nat)
  | signed (n : Int) (digits : Nat)
  | decimal (micros : Int)
  | word (w : String)
  | mark (c : Char)

def isTimeSpace (c : Char) : Bool := c = ' ' || ('\t' ≤ c && c ≤ '\x0d')

def fractionOf (digits : Chars) : Nat := (Chars.toNat? ((digits ++ "000000").take 6)).getD 0

def numberToken (sign : Option Char) (text : Chars) : Token × Chars :=
  let (digits, rest) := text.span Char.isDigit
  let n := (Chars.toNat? digits).getD 0
  let negative := sign = some '-'
  match rest with
  | c :: d :: more =>
    if (c = '.' || c = ',') && d.isDigit then
      let (fraction, rest) := (d :: more).span Char.isDigit
      let micros : Int := n * 1000000 + fractionOf fraction
      (.decimal (if negative then -micros else micros), rest)
    else (plain n digits.length, rest)
  | _ => (plain n digits.length, rest)
where
  plain (n digits : Nat) : Token :=
    match sign with
    | none => .number n digits
    | some '-' => .signed (-(n : Int)) digits
    | some _ => .signed n digits

def pastRemark : Nat → Chars → Chars
  | _, [] => []
  | depth, '(' :: rest => pastRemark (depth + 1) rest
  | 0, rest => rest
  | depth + 1, ')' :: rest => if depth = 0 then rest else pastRemark depth rest
  | depth + 1, _ :: rest => pastRemark (depth + 1) rest

def tokensOf : Nat → Chars → List Token
  | 0, _ | _, [] => []
  | n + 1, c :: rest =>
    if isTimeSpace c then tokensOf n rest
    else if c.isDigit then
      let (t, rest) := numberToken none (c :: rest)
      t :: tokensOf n rest
    else if c = '-' || c = '+' then
      let behind := rest.dropWhile isTimeSpace
      if behind.head?.any Char.isDigit then
        let (t, rest) := numberToken (some c) behind
        t :: tokensOf n rest
      else tokensOf n rest
    else if c.isAlpha then
      let (word, rest) := (c :: rest).span fun c => c.isAlpha || c = '.'
      .word (String.ofList ((word.filter Char.isAlpha).map Char.toLower)) :: tokensOf n rest
    else if c = '(' then tokensOf n (pastRemark 0 (c :: rest))
    else .mark c :: tokensOf n rest

structure Said where
  date : Option (Option Int × Int × Int) := none
  time : Option Int := none
  zone : Option Int := none
  day : Option (Int × Nat) := none
  years : Int := 0
  months : Int := 0
  days : Int := 0
  micros : Int := 0
  counts : Bool := false

def nameIndex? (names : List String) (w : String) : Option Nat :=
  names.findIdx? fun name =>
    let name := name.toList.map Char.toLower
    w.length ≥ 3 && (w.toList = name || w.toList = name.take 3)

variable (w : String)

def monthOf? : Option Nat :=
  (if w = "sept" then some 9 else none) <|> (nameIndex? Calendar.months w).map (· + 1)

def weekdayOf? : Option Nat :=
  ([("tues", 2), ("wednes", 3), ("thur", 4), ("thurs", 4)].lookup w) <|> nameIndex? Calendar.weekdays w

def ordinalOf? : Option Int :=
  [("last", -1), ("this", 0), ("next", 1), ("first", 1), ("third", 3), ("fourth", 4), ("fifth", 5),
    ("sixth", 6), ("seventh", 7), ("eighth", 8), ("ninth", 9), ("tenth", 10), ("eleventh", 11),
    ("twelfth", 12)].lookup w

def zoneOf? : Option Int :=
  ([("utc", 0), ("gmt", 0), ("ut", 0), ("z", 0), ("wet", 0), ("bst", 1), ("west", 1), ("cet", 1), ("met", 1),
    ("cest", 2), ("eet", 2), ("eest", 3), ("msk", 3), ("jst", 9), ("est", -5), ("edt", -4), ("cst", -6),
    ("cdt", -5), ("mst", -7), ("mdt", -6), ("pst", -8), ("pdt", -7), ("sst", -12), ("nzst", 12)] :
      List (String × Int)).lookup w |>.map (· * 3600)

variable (s : Said)

def Said.add (n : Int) (unit : String) : Option Said :=
  let unit := if unit.length > 1 && unit.endsWith "s" then (unit.dropEnd 1).toString else unit
  let s := { s with counts := true }
  match unit with
  | "year" => some { s with years := s.years + n }
  | "month" => some { s with months := s.months + n }
  | "fortnight" => some { s with days := s.days + 14 * n }
  | "week" => some { s with days := s.days + 7 * n }
  | "day" => some { s with days := s.days + n }
  | "hour" => some { s with micros := s.micros + 3600000000 * n }
  | "minute" | "min" => some { s with micros := s.micros + 60000000 * n }
  | "second" | "sec" => some { s with micros := s.micros + 1000000 * n }
  | _ => none

def Said.ago : Said :=
  { s with years := -s.years, months := -s.months, days := -s.days, micros := -s.micros }

def fullYear (n : Nat) (digits : Nat) : Int := if digits ≤ 2 then if n < 69 then n + 2000 else n + 1900 else n

def Said.withDate (year : Option Int) (month day : Int) : Option Said :=
  if s.date.isSome || month < 1 || month > 12 || day < 1 || day > 31 then none
  else some { s with date := some (year, month, day) }

variable (rest : List Token)

def Said.dated (year : Option Int) (month day : Int) : Option (Said × List Token) :=
  (s.withDate year month day).map (·, rest)

def Said.onDay (ordinal : Int) (day : Nat) : Option (Said × List Token) :=
  if s.day.isSome then none else some ({ s with day := some (ordinal, day) }, rest)

/-- Whether words start with something that can be counted. -/
def Said.isCount : Bool :=
  match rest with
  | .word w :: _ => (s.add 0 w).isSome
  | _ => false

def Said.withTime (hour minute : Nat) (micros : Int) (half : Option String) : Option Said :=
  let hour? := match half with
    | none => if hour < 24 then some hour else none
    | some "am" => if 1 ≤ hour && hour ≤ 12 then some (hour % 12) else none
    | some _ => if 1 ≤ hour && hour ≤ 12 then some (hour % 12 + 12) else none
  if s.time.isSome || minute > 59 || micros > 59999999 then none
  else hour?.map fun h => { s with time := some ((h * 3600 + minute * 60 : Nat) * 1000000 + micros) }

def offsetSeconds (n : Int) (digits : Nat) (minutes : Option Nat) : Int :=
  let size := n.natAbs
  let seconds : Nat := match minutes with
    | some m => size * 3600 + m * 60
    | none => if digits ≤ 2 then size * 3600 else (size / 100) * 3600 + size % 100 * 60
  if n < 0 then -(seconds : Int) else seconds

def isHalf : Bool := w = "am" || w = "pm"

def afterTime (hour minute : Nat) (micros : Int) : Option (Said × List Token) := do
  let timed := s.withTime hour minute micros
  match rest with
  | .word w :: more => if isHalf w then return (← timed (some w), more) else return (← timed none, rest)
  | .signed z digits :: more =>
    let s ← timed none
    let zoned (minutes : Option Nat) : Said := { s with zone := some (offsetSeconds z digits minutes) }
    match more with
    | .mark ':' :: .number m _ :: more => return (zoned (some m), more)
    | _ => if s.isCount more then return (s, rest) else return (zoned none, more)
  | _ => return (← timed none, rest)

def Said.plainNumber (n digits : Nat) : Option Said :=
  match s.date with
  | some (none, month, day) =>
    if !s.counts && (s.time.isSome || digits > 2) then
      some { s with date := some (fullYear n digits, month, day) }
    else timeOnly
  | _ => if digits > 4 then s.withDate (fullYear (n / 10000) (digits - 4)) (n / 100 % 100) (n % 100)
    else timeOnly
where
  timeOnly : Option Said :=
    if digits > 4 then none
    else if digits ≤ 2 then s.withTime n 0 0 none
    else s.withTime (n / 100) (n % 100) 0 none

def item : List Token → Option (Said × List Token)
  | .mark ',' :: rest => some (s, rest)
  | .number h _ :: .mark ':' :: .number m _ :: .mark ':' :: .number sec _ :: rest =>
    afterTime s rest h m (sec * 1000000 : Nat)
  | .number h _ :: .mark ':' :: .number m _ :: .mark ':' :: .decimal micros :: rest =>
    afterTime s rest h m micros
  | .number h _ :: .mark ':' :: .number m _ :: rest => afterTime s rest h m 0
  | .number a da :: .mark '/' :: .number b _ :: .mark '/' :: .number c dc :: rest =>
    if da ≥ 4 then s.dated rest (fullYear a da) b c else s.dated rest (fullYear c dc) a b
  | .number a _ :: .mark '/' :: .number b _ :: rest => s.dated rest none a b
  | .number y dy :: .signed m _ :: .signed d _ :: rest => do
    let s ← s.withDate (fullYear y dy) (-m) (-d)
    match rest with
    | .word "t" :: rest | rest => return (s, rest)
  | .number n digits :: .word w :: rest =>
    match monthOf? w with
    | some m =>
      match rest with
      | .signed y dy :: rest => s.dated rest (fullYear y.natAbs dy) m n
      | .number _ _ :: .mark ':' :: _ => s.dated rest none m n
      | .number y dy :: more =>
        if dy ≥ 3 then s.dated more (fullYear y dy) m n else s.dated rest none m n
      | _ => s.dated rest none m n
    | none =>
      if isHalf w then do return (← s.withTime n 0 0 (some w), rest)
      else
        (s.add n w).map (·, rest) <|>
          match weekdayOf? w with
          | some day => s.onDay rest n day
          | none => do return (← s.plainNumber n digits, .word w :: rest)
  | .number n digits :: rest => do return (← s.plainNumber n digits, rest)
  | .signed n _ :: .word w :: rest => do return (← s.add n w, rest)
  | .decimal micros :: .word w :: rest =>
    if w.startsWith "sec" then some ({ s with micros := s.micros + micros, counts := true }, rest) else none
  | .word w :: rest =>
    match monthOf? w, rest with
    | some m, .number d _ :: .mark ',' :: .number y dy :: rest => s.dated rest (fullYear y dy) m d
    | some m, .number d _ :: rest => s.dated rest none m d
    | some m, .signed d _ :: .signed y dy :: rest => s.dated rest (fullYear y.natAbs dy) m d.natAbs
    | _, rest =>
      match weekdayOf? w with
      | some day => s.onDay rest 0 day
      | none =>
        match ordinalOf? w, rest with
        | some n, .word unit :: rest =>
          (s.add n unit).map (·, rest) <|> (weekdayOf? unit).bind (s.onDay rest n)
        | _, rest =>
          match w with
          | "ago" => some (s.ago, rest)
          | "now" | "today" => some ({ s with counts := true }, rest)
          | "yesterday" => some ({ s with days := s.days - 1, counts := true }, rest)
          | "tomorrow" => some ({ s with days := s.days + 1, counts := true }, rest)
          | "noon" => do return (← s.withTime 12 0 0 none, rest)
          | "midnight" => do return (← s.withTime 0 0 0 none, rest)
          | "dst" => s.zone.map fun z => ({ s with zone := some (z + 3600) }, rest)
          | w =>
            match zoneOf? w with
            | some ahead =>
              if s.zone.isSome then none
              else
                let plain : Said := { s with zone := some ahead }
                match rest with
                | .signed n digits :: more =>
                  if s.isCount more then some (plain, rest)
                  else some ({ s with zone := some (ahead + offsetSeconds n digits none) }, more)
                | _ => some (plain, rest)
            | none => (s.add 1 w).map (·, rest)
  | _ => none

def items : Nat → Said → List Token → Option Said
  | _, s, [] => some s
  | 0, _, _ => none
  | n + 1, s, tokens => do
    let (s, rest) ← item s tokens
    items n s rest

def Said.resolve (zone : Zone) (now : Int) : Option Int :=
  let t := Time.ofMicros zone now
  let ahead := s.zone.getD zone.ahead
  let t := if s.zone.isSome then Time.ofMicros ⟨ahead, ""⟩ now else t
  let (year, month, day) := match s.date with
    | some (y, m, d) => (y.getD t.day.year, m, d)
    | none => (t.day.year, (t.day.month : Int), (t.day.day : Int))
  let time := match s.time with
    | some micros => micros
    | none => if s.date.isSome || s.day.isSome then 0 else (t.seconds * 1000000 + t.micros : Nat)
  let isDay := ((Day.ofEpoch (daysSince year month day)).month : Int) = month
  let days := daysSince (year + s.years) (month + s.months) day + s.days
  let days := match s.day, s.date with
    | some (ordinal, target), none =>
      let current := weekday days
      days + ((target + 7 - current) % 7 : Nat) +
        7 * (ordinal - if 0 < ordinal && current ≠ target then 1 else 0)
    | _, _ => days
  if isDay then some ((days * 86400 - ahead) * 1000000 + time + s.micros) else none

def parse? (zone : Zone) (now : Int) (text : Chars) : Option Int :=
  let text := (text.dropWhile isTimeSpace)
  match tokensOf (text.length + 1) text with
  | [.mark '@', .number n _] => some (n * 1000000 : Nat)
  | [.mark '@', .signed n _] => some (n * 1000000)
  | [.mark '@', .decimal micros] => some micros
  | [] => (({} : Said).withTime 0 0 0 none).bind (·.resolve zone now)
  | tokens => (items (tokens.length + 1) {} tokens).bind (·.resolve zone now)

def parseDigits? (zone : Zone) (now : Int) (text : Chars) : Option Int := do
  let (main, seconds) := Chars.cut '.' text
  let seconds ← match seconds with
    | none => pure 0
    | some s => if s.length = 2 then Chars.toNat? s else none
  let _ ← Chars.toNat? main
  let two (i : Nat) : Nat := (Chars.toNat? ((main.drop i).take 2)).getD 0
  let (year, start) ← match main.length with
    | 8 => pure ((Time.ofMicros zone now).day.year, 0)
    | 10 => pure (fullYear (two 0) 2, 2)
    | 12 => pure ((two 0 * 100 + two 2 : Nat), 4)
    | _ => none
  let (month, day, hour, minute) := (two start, two (start + 2), two (start + 4), two (start + 6))
  if month < 1 || month > 12 || day < 1 || day > 31 || hour > 23 || minute > 59 || seconds > 60 then none
  else
    let days := daysSince year month day
    if (Day.ofEpoch days).month ≠ month then none
    else return (days * 86400 + (hour * 3600 + minute * 60 + seconds : Nat) - zone.ahead) * 1000000

def zoneOfSetting (text : Chars) : Zone :=
  let text := if text.head? = some ':' then text.tail else text
  let (name, rest) := match text with
    | '<' :: more => (more.takeWhile (· ≠ '>'), (more.dropWhile (· ≠ '>')).drop 1)
    | text => text.span Char.isAlpha
  let (sign, rest) := match rest with
    | '-' :: more => ((1 : Int), more)
    | '+' :: more => (-1, more)
    | rest => (-1, rest)
  let clock := (rest.takeWhile fun c => c.isDigit || c = ':')
  let parts := (Chars.splitAt ':' clock).map fun p => (Chars.toNat? p).getD 0
  let seconds : Nat := parts.getD 0 0 * 3600 + parts.getD 1 0 * 60 + parts.getD 2 0
  if name.isEmpty then .utc else ⟨sign * seconds, String.ofList name⟩

end Prune.Utility.Time
