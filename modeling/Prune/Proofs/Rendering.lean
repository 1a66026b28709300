import Mathlib.Data.List.Infix
import Prune.Settings

/-!
# Rendering build arguments

`Template.fill` is what a reader of a template expects: one scan from left to right, in which each hole gives way to
its value and the values are not looked at again. `Template.render` goes over the text twice, so it does the same
exactly as long as the project brings about no hole that the template did not have (`Undisturbed`). `Reads` is the
scan as a relation between a text and its tokens; all the functions on templates are told by the tokens.
-/

namespace Prune

namespace Template

/-- Each hole filled, in one scan. `skip` characters belong to a hole that is filled already. -/
def fillFrom (project configuration : List Char) : Nat → List Char → List Char
  | _, [] => []
  | skip + 1, _ :: cs => fillFrom project configuration skip cs
  | 0, c :: cs =>
    if projectHole.isPrefixOf (c :: cs) then project ++ fillFrom project configuration (projectHole.length - 1) cs
    else if configurationHole.isPrefixOf (c :: cs) then
      configuration ++ fillFrom project configuration (configurationHole.length - 1) cs
    else c :: fillFrom project configuration 0 cs

/-- An argument with the project and the configuration in their holes, all else as it was. -/
def fill (project configuration : String) (argument : String) : String :=
  String.ofList (fillFrom project.toList configuration.toList 0 argument.toList)

/-- How many holes for the configuration there are in a text. -/
def holes : List Char → Nat
  | [] => 0
  | c :: cs => holes cs + if configurationHole.isPrefixOf (c :: cs) then 1 else 0

/-- The project brings about no hole for the configuration, neither alone nor with the text around it. -/
def Undisturbed (project argument : String) : Prop :=
  holes (replace projectHole project.toList argument.toList) = holes argument.toList

instance (project argument : String) : Decidable (Undisturbed project argument) := inferInstanceAs (Decidable (_ = _))

/-! ### Texts and tokens -/

inductive Token where
  | text (c : Char)
  | project
  | configuration
deriving DecidableEq

/-- What stands for a token when the configuration is still open. -/
def Token.open (project : List Char) : Token → List Char
  | .text c => [c]
  | .project => project
  | .configuration => configurationHole

def Token.value (project configuration : List Char) : Token → List Char
  | .text c => [c]
  | .project => project
  | .configuration => configuration

/-- The tokens of a text, from left to right. -/
inductive Reads : List Char → List Token → Prop
  | nil : Reads [] []
  | project {cs ts} : Reads cs ts → Reads (projectHole ++ cs) (.project :: ts)
  | configuration {cs ts} : Reads cs ts → Reads (configurationHole ++ cs) (.configuration :: ts)
  | text {c cs ts} : projectHole.isPrefixOf (c :: cs) = false → configurationHole.isPrefixOf (c :: cs) = false →
      Reads cs ts → Reads (c :: cs) (.text c :: ts)

/-- A brace opens a hole and stands nowhere else in it. -/
structure IsHole (hole : List Char) : Prop where
  head : hole = '\x7b' :: hole.tail
  tail : '\x7b' ∉ hole.tail

theorem isHole_project : IsHole projectHole := ⟨by decide, by decide⟩

theorem isHole_configuration : IsHole configurationHole := ⟨by decide, by decide⟩

variable {hole value cs xs project configuration : List Char} {ts : List Token}

namespace IsHole

theorem isPrefixOf_eq_false (hh : IsHole hole) {c : Char} (hc : c ≠ '\x7b') : hole.isPrefixOf (c :: cs) = false := by
  rw [hh.head, List.isPrefixOf_cons_cons]
  simp [Ne.symm hc]

theorem replaceFrom_append (hh : IsHole hole) (hx : '\x7b' ∉ xs) :
    replaceFrom hole value 0 (xs ++ cs) = xs ++ replaceFrom hole value 0 cs := by
  induction xs with
  | nil => rfl
  | cons c xs ih =>
    obtain ⟨hc, hx⟩ : c ≠ '\x7b' ∧ '\x7b' ∉ xs := by simpa [eq_comm] using hx
    simp [replaceFrom, hh.isPrefixOf_eq_false hc, ih hx]

end IsHole

theorem replaceFrom_length (xs : List Char) :
    replaceFrom hole value xs.length (xs ++ cs) = replaceFrom hole value 0 cs := by
  induction xs with
  | nil => rfl
  | cons c xs ih => exact ih

theorem fillFrom_length (xs : List Char) :
    fillFrom project configuration xs.length (xs ++ cs) = fillFrom project configuration 0 cs := by
  induction xs with
  | nil => rfl
  | cons c xs ih => exact ih

theorem IsHole.replaceFrom_self (hh : IsHole hole) :
    replaceFrom hole value 0 (hole ++ cs) = value ++ replaceFrom hole value 0 cs := by
  have hp : hole.isPrefixOf (hole ++ cs) = true := List.isPrefixOf_iff_prefix.2 (List.prefix_append ..)
  obtain ⟨c, t, rfl⟩ : ∃ c t, hole = c :: t := ⟨_, _, hh.head⟩
  rw [List.cons_append] at hp ⊢
  rw [replaceFrom, if_pos hp]
  exact congrArg (value ++ ·) (replaceFrom_length t)

theorem holes_append (hx : '\x7b' ∉ xs) : holes (xs ++ cs) = holes cs := by
  induction xs with
  | nil => rfl
  | cons c xs ih =>
    obtain ⟨hc, hx⟩ : c ≠ '\x7b' ∧ '\x7b' ∉ xs := by simpa [eq_comm] using hx
    simp [holes, isHole_configuration.isPrefixOf_eq_false hc, ih hx]

theorem holes_hole : holes (configurationHole ++ cs) = holes cs + 1 := by
  have hp : configurationHole.isPrefixOf (configurationHole ++ cs) = true :=
    List.isPrefixOf_iff_prefix.2 (List.prefix_append ..)
  rw [isHole_configuration.head, List.cons_append] at hp ⊢
  rw [← isHole_configuration.head] at hp
  rw [holes, if_pos hp, holes_append isHole_configuration.tail]

theorem holes_le_append (xs cs : List Char) : holes cs ≤ holes (xs ++ cs) := by
  induction xs with
  | nil => exact le_rfl
  | cons c xs ih => exact ih.trans (Nat.le_add_right ..)

/-! ### Every text has its tokens -/

theorem exists_reads (cs : List Char) : ∃ ts, Reads cs ts := by
  induction hn : cs.length using Nat.strong_induction_on generalizing cs with
  | _ n ih =>
    cases cs with
    | nil => exact ⟨[], .nil⟩
    | cons c cs =>
      -- behind a hole, or behind one character, the text is shorter
      have shorter : ∀ {hole r : List Char}, IsHole hole → hole ++ r = c :: cs → ∃ ts, Reads r ts := by
        intro hole r hh he
        refine ih r.length ?_ r rfl
        have := congrArg List.length he
        rw [hh.head] at this
        simp at this hn
        omega
      by_cases hp : projectHole.isPrefixOf (c :: cs) = true
      · obtain ⟨r, hr⟩ := List.isPrefixOf_iff_prefix.1 hp
        obtain ⟨ts, h⟩ := shorter isHole_project hr
        exact ⟨.project :: ts, hr ▸ Reads.project h⟩
      by_cases hc : configurationHole.isPrefixOf (c :: cs) = true
      · obtain ⟨r, hr⟩ := List.isPrefixOf_iff_prefix.1 hc
        obtain ⟨ts, h⟩ := shorter isHole_configuration hr
        exact ⟨.configuration :: ts, hr ▸ Reads.configuration h⟩
      · obtain ⟨ts, h⟩ := ih cs.length (by simp at hn; omega) cs rfl
        exact ⟨.text c :: ts, .text (Bool.eq_false_iff.2 hp) (Bool.eq_false_iff.2 hc) h⟩

namespace Reads

theorem fillFrom_eq (h : Reads cs ts) :
    fillFrom project configuration 0 cs = ts.flatMap (Token.value project configuration) := by
  induction h with
  | nil => rfl
  | @project cs ts _ ih =>
    have hp : projectHole.isPrefixOf (projectHole ++ cs) = true := List.isPrefixOf_iff_prefix.2 (List.prefix_append ..)
    rw [isHole_project.head, List.cons_append] at hp ⊢
    rw [← isHole_project.head] at hp
    rw [fillFrom, if_pos hp, List.flatMap_cons, ← ih]
    exact congrArg (project ++ ·) (fillFrom_length projectHole.tail)
  | @configuration cs ts _ ih =>
    have hp : configurationHole.isPrefixOf (configurationHole ++ cs) = true :=
      List.isPrefixOf_iff_prefix.2 (List.prefix_append ..)
    have hno : projectHole.isPrefixOf (configurationHole ++ cs) = false := rfl
    rw [isHole_configuration.head, List.cons_append] at hp hno ⊢
    rw [← isHole_configuration.head] at hp
    rw [fillFrom, if_neg (Bool.eq_false_iff.1 hno), if_pos hp, List.flatMap_cons, ← ih]
    exact congrArg (configuration ++ ·) (fillFrom_length configurationHole.tail)
  | text hp hc _ ih => simp [fillFrom, hp, hc, ih, Token.value]

theorem replace_project (h : Reads cs ts) : replace projectHole project cs = ts.flatMap (Token.open project) := by
  rw [replace]
  induction h with
  | nil => rfl
  | project _ ih => rw [isHole_project.replaceFrom_self, ih]; rfl
  | @configuration cs ts _ ih =>
    have hno : projectHole.isPrefixOf (configurationHole ++ cs) = false := rfl
    rw [isHole_configuration.head, List.cons_append] at hno ⊢
    rw [replaceFrom, if_neg (Bool.eq_false_iff.1 hno), isHole_project.replaceFrom_append isHole_configuration.tail, ih,
      ← List.cons_append, ← isHole_configuration.head]
    rfl
  | text hp _ _ ih => simp [replaceFrom, hp, ih, Token.open]

theorem holes_eq (h : Reads cs ts) : holes cs = ts.count .configuration := by
  induction h with
  | nil => rfl
  | @project cs ts _ ih =>
    have hno : configurationHole.isPrefixOf (projectHole ++ cs) = false := rfl
    rw [isHole_project.head, List.cons_append] at hno ⊢
    rw [holes, if_neg (Bool.eq_false_iff.1 hno), holes_append isHole_project.tail, ih]
    simp
  | configuration _ ih => rw [holes_hole, ih]; simp
  | text _ hc _ ih => simp [holes, hc, ih]

theorem project_mem (h : Reads cs ts) (hn : namesProject.go cs = true) : .project ∈ ts := by
  induction h with
  | nil => cases hn
  | project => simp
  | @configuration cs ts _ ih =>
    have hgo : namesProject.go (configurationHole ++ cs) = namesProject.go cs := rfl
    simpa using ih (hgo ▸ hn)
  | text hp _ _ ih =>
    rw [namesProject.go, hp, Bool.false_or] at hn
    simpa using ih hn

end Reads

/-! ### The second time over the text -/

/-- The holes of the template are still there when the project is put in. -/
theorem count_le_holes (project : List Char) (ts : List Token) :
    ts.count .configuration ≤ holes (ts.flatMap (Token.open project)) := by
  induction ts with
  | nil => exact le_rfl
  | cons t ts ih =>
    rw [List.flatMap_cons]
    cases t with
    | text c | project => exact (by simpa using ih : _ ≤ _).trans (holes_le_append _ _)
    | configuration => rw [Token.open, holes_hole]; simpa using ih

theorem replaceFrom_of_holes_eq (h : holes (xs ++ cs) = holes cs) :
    replaceFrom configurationHole value 0 (xs ++ cs) = xs ++ replaceFrom configurationHole value 0 cs := by
  induction xs with
  | nil => rfl
  | cons c xs ih =>
    rw [List.cons_append, holes] at h
    have hle := holes_le_append xs cs
    by_cases hp : configurationHole.isPrefixOf (c :: (xs ++ cs)) = true
    · rw [if_pos hp] at h
      omega
    · rw [if_neg hp] at h
      rw [List.cons_append, replaceFrom, if_neg hp, ih h]
      rfl

theorem replace_configuration (h : holes (ts.flatMap (Token.open project)) = ts.count .configuration) :
    replace configurationHole configuration (ts.flatMap (Token.open project)) =
      ts.flatMap (Token.value project configuration) := by
  rw [replace]
  induction ts with
  | nil => rfl
  | cons t ts ih =>
    have hle := count_le_holes project ts
    rw [List.flatMap_cons, List.flatMap_cons] at *
    have copied : ∀ xs, holes (xs ++ ts.flatMap (Token.open project)) = ts.count .configuration →
        replaceFrom configurationHole configuration 0 (xs ++ ts.flatMap (Token.open project)) =
          xs ++ ts.flatMap (Token.value project configuration) := by
      intro xs hx
      have hge := holes_le_append xs (ts.flatMap (Token.open project))
      rw [replaceFrom_of_holes_eq (by omega), ih (by omega)]
    cases t with
    | text c => exact copied [c] (by simpa [Token.open] using h)
    | project => exact copied project (by simpa [Token.open] using h)
    | configuration =>
      rw [Token.open, holes_hole, List.count_cons_self] at h
      rw [Token.open, isHole_configuration.replaceFrom_self, ih (by omega)]
      rfl

theorem length_replaceFrom (cs : List Char) (skip : Nat) (hskip : skip ≤ cs.length) (hs : '\x7b' ∉ cs.take skip) :
    (replaceFrom configurationHole [] skip cs).length + configurationHole.length * holes cs + skip = cs.length := by
  induction cs generalizing skip with
  | nil =>
    obtain rfl : skip = 0 := by simpa using hskip
    rfl
  | cons c cs ih =>
    cases skip with
    | succ skip =>
      obtain ⟨hc, hs⟩ : c ≠ '\x7b' ∧ '\x7b' ∉ cs.take skip := by simpa [eq_comm] using hs
      have := ih skip (by simpa using hskip) hs
      rw [replaceFrom, holes, isHole_configuration.isPrefixOf_eq_false hc, List.length_cons]
      simp only [Bool.false_eq_true, ↓reduceIte, Nat.add_zero]
      omega
    | zero =>
      rw [replaceFrom, holes, List.length_cons]
      split
      · next hp =>
        obtain ⟨r, hr⟩ := List.isPrefixOf_iff_prefix.1 hp
        rw [isHole_configuration.head] at hr
        obtain ⟨-, rfl⟩ : '\x7b' = c ∧ configurationHole.tail ++ r = cs := by simpa using hr
        have := ih (configurationHole.length - 1) (by simp) (by simpa using isHole_configuration.tail)
        have hlen : configurationHole.length = 15 := rfl
        simp only [List.nil_append, hlen] at this ⊢
        omega
      · have := ih 0 (Nat.zero_le _) (by simp)
        simp only [List.length_cons, Nat.add_zero]
        omega

theorem length_flatMap_value (project : List Char) (ts : List Token) :
    (ts.flatMap (Token.value project [])).length + configurationHole.length * ts.count .configuration =
      (ts.flatMap (Token.open project)).length := by
  induction ts with
  | nil => rfl
  | cons t ts ih =>
    simp only [List.flatMap_cons, List.length_append, ← ih]
    cases t with
    | configuration => simp [Token.open, Token.value, Nat.mul_add]; omega
    | _ => simp [Token.open, Token.value]; omega

/-- The template is filled in one scan, whatever the configuration is, exactly if it is undisturbed. -/
theorem render_eq_fill_iff (project argument : String) :
    (∀ configuration, render project configuration argument = fill project configuration argument) ↔
      Undisturbed project argument := by
  obtain ⟨ts, h⟩ := exists_reads argument.toList
  have hrender : ∀ configuration, render project configuration argument = fill project configuration argument ↔
      replace configurationHole configuration.toList (ts.flatMap (Token.open project.toList)) =
        ts.flatMap (Token.value project.toList configuration.toList) := by
    intro configuration
    rw [render, fill, h.fillFrom_eq, h.replace_project, String.ofList_inj]
  rw [Undisturbed, h.replace_project, h.holes_eq]
  constructor
  · intro hall
    have hlen := congrArg List.length ((hrender "").1 (hall ""))
    have h₁ := length_replaceFrom (ts.flatMap (Token.open project.toList)) 0 (Nat.zero_le _) (by simp)
    have h₂ := length_flatMap_value project.toList ts
    rw [replace, show "".toList = [] from rfl] at hlen
    have hpos : 0 < configurationHole.length := by decide
    exact Nat.eq_of_mul_eq_mul_left hpos (by omega)
  · exact fun hholes configuration => (hrender configuration).2 (replace_configuration hholes)

theorem project_infix_fill {project configuration argument : String} (h : namesProject argument = true) :
    project.toList <:+: (fill project configuration argument).toList := by
  obtain ⟨ts, hr⟩ := exists_reads argument.toList
  obtain ⟨as, bs, rfl⟩ := List.append_of_mem (hr.project_mem h)
  let value := Token.value project.toList configuration.toList
  refine ⟨as.flatMap value, bs.flatMap value, ?_⟩
  rw [fill, String.toList_ofList, hr.fillFrom_eq, List.flatMap_append, List.flatMap_cons, List.append_assoc]
  rfl

end Template

open Template

/-- Rendering build arguments is filling their holes in one scan, for every configuration, exactly if the project
brings no hole into any of them. Usable settings then pass the project on as it is. -/
theorem arguments_filled (s : Settings) (project : Path) :
    ((∀ configuration, s.renderArguments project configuration = s.arguments.map (fill project.display configuration)) ↔
      ∀ a ∈ s.arguments, Undisturbed project.display a) ∧
    (s.flaw? = none → (∀ a ∈ s.arguments, Undisturbed project.display a) → ∀ configuration,
      ∃ a ∈ s.renderArguments project configuration, project.display.toList <:+: a.toList) := by
  have hiff : (∀ configuration, s.renderArguments project configuration =
      s.arguments.map (fill project.display configuration)) ↔ ∀ a ∈ s.arguments, Undisturbed project.display a := by
    simp only [Settings.renderArguments, List.map_inj_left, ← render_eq_fill_iff]
    exact ⟨fun h a ha c => h c a ha, fun h c a ha => h a ha c⟩
  refine ⟨hiff, fun hok hall configuration => ?_⟩
  obtain ⟨a, ha, hn⟩ : ∃ a ∈ s.arguments, namesProject a = true := by
    by_contra hno
    have hany : s.arguments.any namesProject = false := by simpa using hno
    simp only [Settings.flaw?, hany, Bool.not_false, ↓reduceIte] at hok
    split at hok
    · cases hok
    · split at hok <;> cases hok
  refine ⟨_, hiff.2 hall configuration ▸ List.mem_map_of_mem ha, project_infix_fill hn⟩

theorem arguments_filled_braced :
    let s := Settings.ofProject (.ofString "cl") (.ofString "app.vcxproj") "Debug" (.ofString "src")
    let project := Path.ofString "\x7bproject\x7d/\x7bconfiguration.vcxproj"
    s.renderArguments project "Debug" = s.arguments.map (fill project.display "Debug") ∧
      ∃ a ∈ s.renderArguments project "Debug", project.display.toList <:+: a.toList := by
  intro s project
  have hok : s.flaw? = none := by decide +kernel
  have hall : ∀ a ∈ s.arguments, Undisturbed project.display a := by decide +kernel
  obtain ⟨hiff, hproject⟩ := arguments_filled s project
  exact ⟨hiff.2 hall "Debug", hproject hok hall "Debug"⟩

/-- A project whose path has a hole in it is not passed on as it is. -/
theorem not_filled_over_hole :
    let s := Settings.ofProject (.ofString "cl") (.ofString "\x7bconfiguration\x7d.vcxproj") "Debug" (.ofString "src")
    s.flaw? = none ∧ s.renderArguments s.project "Debug" ≠ s.arguments.map (fill s.project.display "Debug") ∧
      ¬ ∃ a ∈ s.renderArguments s.project "Debug", s.project.display.toList <:+: a.toList := by decide +kernel

end Prune
