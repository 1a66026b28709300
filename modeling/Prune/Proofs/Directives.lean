import Mathlib.Data.List.DropRight
import Mathlib.Data.List.TakeWhile
import Prune.Settings

/-!
# The lines that are candidates

`IsDirective` is the grammar of a candidate line: a gap, a `#`, a gap, a keyword, and a byte that ends it, with any
text behind. The matcher skips gaps as far as they go. No byte of a gap starts a keyword, which is taken without
blanks at its ends, so the two agree (`accepts_iff`).
-/

namespace Prune

namespace Text

/-- `t` is `s` without the blanks at its ends. -/
structure Trims (s t : String) : Prop where
  cut : ∃ a b, s.toList = a ++ t.toList ++ b ∧ (∀ c ∈ a, isBlank c = true) ∧ ∀ c ∈ b, isBlank c = true
  head : ∀ c, t.toList.head? = some c → isBlank c = false
  last : ∀ c, t.toList.getLast? = some c → isBlank c = false

theorem toList_trim (s : String) : (trim s).toList = (s.toList.dropWhile isBlank).rdropWhile isBlank := by
  rw [trim, String.toList_ofList, List.rdropWhile]

theorem head?_dropWhile_eq_false {l : List Char} {c : Char} (h : (l.dropWhile isBlank).head? = some c) :
    isBlank c = false := by
  have := List.head?_dropWhile_not isBlank l
  rwa [h] at this

theorem trims_trim (s : String) : Trims s (trim s) := by
  refine ⟨⟨s.toList.takeWhile isBlank, (s.toList.dropWhile isBlank).rtakeWhile isBlank, ?_,
    fun c hc => List.mem_takeWhile_imp hc, fun c hc => List.mem_rtakeWhile_imp hc⟩, fun c hc => ?_, fun c hc => ?_⟩
  · rw [toList_trim, List.append_assoc, List.rdropWhile_append_rtakeWhile, List.takeWhile_append_dropWhile]
  · rw [toList_trim] at hc
    obtain ⟨u, hu⟩ := List.rdropWhile_prefix isBlank (l := s.toList.dropWhile isBlank)
    refine head?_dropWhile_eq_false (l := s.toList) ?_
    rw [← hu, List.head?_append_of_ne_nil _ (by rintro h; simp [h] at hc), hc]
  · rw [toList_trim, List.rdropWhile, List.getLast?_reverse] at hc
    exact head?_dropWhile_eq_false hc

theorem Trims.eq_trim {s t : String} (h : Trims s t) : t = trim s := by
  obtain ⟨⟨a, b, hs, ha, hb⟩, hhead, hlast⟩ := h
  refine String.toList_injective ?_
  rw [toList_trim, hs, List.append_assoc, List.dropWhile_append_of_pos ha]
  have hstart : (t.toList ++ b).dropWhile isBlank = t.toList ++ b ∨ t.toList = [] := by
    cases ht : t.toList with
    | nil => exact .inr rfl
    | cons c cs => exact .inl (List.dropWhile_cons_of_neg (by simp [hhead c (by simp [ht])]))
  rcases hstart with hstart | ht
  · rw [hstart, List.rdropWhile, List.reverse_append, List.dropWhile_append_of_pos (by simpa using hb)]
    cases ht : t.toList.reverse with
    | nil => simpa using ht
    | cons c cs =>
      rw [List.dropWhile_cons_of_neg (by simp [hlast c (by rw [← List.head?_reverse, ht]; rfl)]), ← ht,
        List.reverse_reverse]
  · rw [ht, List.nil_append, List.dropWhile_eq_nil_iff.2 hb, List.rdropWhile_nil]

end Text

namespace Directive

open Text

variable (keywords : List String)

/-- A line of the form that a candidate has. -/
def IsDirective (line : Bytes) : Prop :=
  ∃ gap gap' : Bytes, ∃ k t : String, ∃ c rest, line = gap ++ 0x23 :: (gap' ++ (Bytes.ofString t ++ c :: rest)) ∧
    (∀ b ∈ gap ++ gap', b ∈ [0x20, 0x09, 0x0B, 0x0C]) ∧ k ∈ keywords ∧ Trims k t ∧ t ≠ "" ∧
    c ∈ [0x20, 0x09, 0x0A, 0x0C, 0x0D, 0x3C, 0x22]

theorem isGap_iff {b : UInt8} : isGap b = true ↔ b ∈ [0x20, 0x09, 0x0B, 0x0C] := by simp [isGap, or_assoc]

theorem endsKeyword_iff {b : UInt8} :
    endsKeyword b = true ↔ b ∈ [0x20, 0x09, 0x0A, 0x0C, 0x0D, 0x3C, 0x22] := by
  simp [endsKeyword, or_assoc]

theorem isBlank_of_isGap {c : Char} {b : UInt8} {bs : Bytes} (h : String.utf8EncodeChar c = b :: bs)
    (hb : isGap b = true) : isBlank c = true := by
  have hnat : b.toNat = 0x20 ∨ b.toNat = 0x09 ∨ b.toNat = 0x0B ∨ b.toNat = 0x0C := by
    have := isGap_iff.1 hb
    simp only [List.mem_cons, List.not_mem_nil, or_false] at this
    rcases this with rfl | rfl | rfl | rfl <;> decide
  have hc : c.toNat = b.toNat := by
    unfold String.utf8EncodeChar at h
    simp only at h
    split_ifs at h <;> simp only [List.cons.injEq] at h <;> obtain ⟨rfl, -⟩ := h <;>
      simp only [UInt8.toNat_ofNat', Char.toNat] at hnat ⊢ <;> omega
  simp only [isBlank, hc, Bool.or_eq_true, Bool.and_eq_true, decide_eq_true_eq, beq_iff_eq]
  omega

/-- A keyword without blanks at its ends does not begin with a byte of a gap. -/
theorem dropWhile_keyword {k t : String} (ht : Trims k t) (hne : t ≠ "") {gap : Bytes} (hgap : ∀ b ∈ gap, isGap b = true)
    (rest : Bytes) : (gap ++ (Bytes.ofString t ++ rest)).dropWhile isGap = Bytes.ofString t ++ rest := by
  rw [List.dropWhile_append_of_pos hgap]
  cases hcs : t.toList with
  | nil => exact absurd (String.toList_injective hcs) hne
  | cons c cs =>
    cases hbs : String.utf8EncodeChar c with
    | nil => exact absurd hbs String.utf8EncodeChar_ne_nil
    | cons b bs =>
      have hb : isGap b ≠ true := fun hb => by
        have hblank := ht.head c (by simp [hcs])
        rw [isBlank_of_isGap hbs hb] at hblank
        cases hblank
      simp [Bytes.ofString, hcs, hbs, hb]

theorem startsWith_iff {k body : Bytes} :
    startsWith k body = true ↔ ∃ c rest, body = k ++ c :: rest ∧ endsKeyword c = true := by
  rw [startsWith, Bool.and_eq_true, List.isPrefixOf_iff_prefix]
  constructor
  · rintro ⟨⟨tail, rfl⟩, h⟩
    rw [List.drop_left] at h
    cases tail with
    | nil => cases h
    | cons c rest => exact ⟨c, rest, rfl, h⟩
  · rintro ⟨c, rest, rfl, hc⟩
    exact ⟨List.prefix_append k _, by rwa [List.drop_left]⟩

theorem mem_ofKeywords_iff {keywords : List String} {bs : Bytes} : bs ∈ (Matcher.ofKeywords keywords).keywords ↔
    ∃ k ∈ keywords, ∃ t, Trims k t ∧ t ≠ "" ∧ bs = Bytes.ofString t := by
  simp only [Matcher.ofKeywords, List.mem_filter, List.mem_map]
  constructor
  · rintro ⟨⟨k, hk, rfl⟩, hne⟩
    exact ⟨k, hk, trim k, trims_trim k, fun h => by simp [h, Bytes.ofString] at hne, rfl⟩
  · rintro ⟨k, hk, t, ht, hne, rfl⟩
    refine ⟨⟨k, hk, by rw [ht.eq_trim]⟩, ?_⟩
    cases hcs : t.toList with
    | nil => exact absurd (String.toList_injective hcs) hne
    | cons c cs => simp [Bytes.ofString, hcs, String.utf8EncodeChar_ne_nil]

/-- The matcher accepts the lines of its grammar, and no other. -/
theorem accepts_iff (line : Bytes) :
    (Matcher.ofKeywords keywords).accepts line = true ↔ IsDirective keywords line := by
  constructor
  · intro h
    have hline := List.takeWhile_append_dropWhile (p := isGap) (l := line)
    simp only [Matcher.accepts] at h
    split at h
    · next tail htail =>
      obtain ⟨bs, hbs, hstarts⟩ := List.any_eq_true.1 h
      obtain ⟨k, hk, t, ht, hne, rfl⟩ := mem_ofKeywords_iff.1 hbs
      obtain ⟨c, rest, hbody, hc⟩ := startsWith_iff.1 hstarts
      refine ⟨line.takeWhile isGap, tail.takeWhile isGap, k, t, c, rest, ?_, fun b hb => ?_, hk, ht, hne,
        endsKeyword_iff.1 hc⟩
      · rw [← hbody, List.takeWhile_append_dropWhile, ← htail, hline]
      · rcases List.mem_append.1 hb with hb | hb <;> exact isGap_iff.1 (List.mem_takeWhile_imp hb)
    · cases h
  · rintro ⟨gap, gap', k, t, c, rest, rfl, hgaps, hk, ht, hne, hc⟩
    have hgap : ∀ b ∈ gap, isGap b = true := fun b hb => isGap_iff.2 (hgaps b (List.mem_append_left _ hb))
    have hgap' : ∀ b ∈ gap', isGap b = true := fun b hb => isGap_iff.2 (hgaps b (List.mem_append_right _ hb))
    rw [Matcher.accepts, List.dropWhile_append_of_pos hgap, List.dropWhile_cons_of_neg (by decide)]
    simp only [dropWhile_keyword ht hne hgap']
    exact List.any_eq_true.2 ⟨Bytes.ofString t, mem_ofKeywords_iff.2 ⟨k, hk, t, ht, hne, rfl⟩,
      startsWith_iff.2 ⟨c, rest, rfl, endsKeyword_iff.2 hc⟩⟩

/-- A keyword that is not blank makes some line a candidate. -/
theorem exists_isDirective_iff :
    (∃ line, IsDirective keywords line) ↔ ∃ k ∈ keywords, trim k ≠ "" := by
  constructor
  · rintro ⟨_, -, -, k, t, -, -, -, -, hk, ht, hne, -⟩
    exact ⟨k, hk, ht.eq_trim ▸ hne⟩
  · rintro ⟨k, hk, hne⟩
    exact ⟨_, [], [], k, trim k, 0x20, [], rfl, by simp, hk, trims_trim k, hne, by simp⟩

end Directive

open Directive

/-- The candidates are the lines of the grammar, so neither the order nor the number of the keywords counts, more
keywords make no fewer candidates, and settings without a keyword are those under which there is no candidate. -/
theorem candidates_by_grammar (keywords : List String) (line : Bytes) (s : Settings) :
    ((Matcher.ofKeywords keywords).accepts line = true ↔ IsDirective keywords line) ∧
    (∀ keywords', (∀ k, k ∈ keywords' ↔ k ∈ keywords) →
      (Matcher.ofKeywords keywords').accepts line = (Matcher.ofKeywords keywords).accepts line) ∧
    (∀ keywords', keywords ⊆ keywords' → (Matcher.ofKeywords keywords).accepts line = true →
      (Matcher.ofKeywords keywords').accepts line = true) ∧
    (s.flaw? = some .noDirective ↔
      (Text.trim s.configuration ≠ "" ∧ s.timeoutMillis ≠ 0 ∧ (∃ a ∈ s.arguments, Template.namesProject a = true) ∧
        ∃ e ∈ s.extensions, e ≠ []) ∧
      ∀ line, s.matcher.accepts line = false) := by
  have hmono : ∀ {ks ks' : List String}, ks ⊆ ks' → IsDirective ks line → IsDirective ks' line := by
    rintro ks ks' hsub ⟨gap, gap', k, t, c, rest, hline, hgaps, hk, hrest⟩
    exact ⟨gap, gap', k, t, c, rest, hline, hgaps, hsub hk, hrest⟩
  refine ⟨accepts_iff keywords line, fun keywords' hsame => ?_, fun keywords' hsub => ?_, ?_⟩
  · rw [Bool.eq_iff_iff, accepts_iff, accepts_iff]
    exact ⟨hmono fun k => (hsame k).1, hmono fun k => (hsame k).2⟩
  · rw [accepts_iff, accepts_iff]
    exact hmono hsub
  · have hnone : (∀ line, s.matcher.accepts line = false) ↔ s.directives.all (Text.trim · = "") = true := by
      rw [← not_iff_not]
      simpa [Settings.matcher, accepts_iff] using exists_isDirective_iff s.directives
    have hargs : (!s.arguments.any Template.namesProject) = true ↔
        ¬ ∃ a ∈ s.arguments, Template.namesProject a = true := by simp
    have hexts : s.extensions.all (·.isEmpty) = true ↔ ¬ ∃ e ∈ s.extensions, e ≠ [] := by simp
    simp only [hnone, Settings.flaw?, hargs, hexts]
    split
    · next h => exact ⟨nofun, fun hall => absurd h hall.1.1⟩
    next h₁ =>
    split
    · next h => exact ⟨nofun, fun hall => absurd h hall.1.2.1⟩
    next h₂ =>
    split
    · next h => exact ⟨nofun, fun hall => absurd hall.1.2.2.1 h⟩
    next h₃ =>
    split
    · next h => exact ⟨nofun, fun hall => absurd hall.1.2.2.2 h⟩
    next h₄ =>
    split
    · next h => exact ⟨fun _ => ⟨⟨h₁, h₂, not_not.1 h₃, not_not.1 h₄⟩, h⟩, fun _ => rfl⟩
    · next h => exact ⟨nofun, fun hall => absurd hall.2 h⟩

/-- The keyword of a line may stand beside others, also shorter ones and blank ones, and more than once. -/
theorem candidates_by_grammar_among_others :
    (Matcher.ofKeywords [" in ", "include", "\t"]).accepts (Bytes.ofString "\t# include<a>") = true ∧
    (Matcher.ofKeywords ["include", "include"]).accepts (Bytes.ofString "\t# include<a>") = true := by
  obtain ⟨hiff, hsame, hmore, -⟩ := candidates_by_grammar ["include"] "\t# include<a>"
    (.ofProject (.ofString "cl") (.ofString "app.vcxproj") "Debug" (.ofString "src"))
  have htrims := Text.trims_trim "include"
  rw [show Text.trim "include" = "include" by decide +kernel] at htrims
  have haccepts := hiff.2 ⟨[0x09], [0x20], "include", "include", 0x3C, "a>", by decide +kernel,
    by decide +kernel, by simp, htrims, by decide +kernel, by decide +kernel⟩
  exact ⟨hmore _ (by simp) haccepts, (hsame _ (by simp)).trans haccepts⟩

end Prune
