import Mathlib.Data.List.Forall2
import Prune.Pass

/-!
# Splitting and thinning out lines

`Rows`: what `split` makes of a content, and all that has to be known of it to be split again: a line
with another one behind it ends in a line feed, and has no other. Rows stay rows when some of them
go, so a content thinned out by `dropped` splits into the lines that were kept (`split_render`), and
thinning out twice is thinning out once (`Thinned.trans`).
-/

namespace Prune.Lines

variable {l : Bytes} {ls : List Bytes} {line : Bytes}

def lineFeed : UInt8 := 0x0A

/-- Lines as `split` gives them. -/
structure Rows (ls : List Bytes) : Prop where
  line : ∀ l ∈ ls, l ≠ [] ∧ lineFeed ∉ l.dropLast
  ended : ls.Pairwise fun l _ => l.getLast? = some lineFeed

namespace Rows

theorem nil : Rows [] := ⟨by simp, .nil⟩

theorem sublist {ls ks : List Bytes} (h : Rows ls) (hs : ks.Sublist ls) : Rows ks :=
  ⟨fun l hl => h.line l (hs.subset hl), h.ended.sublist hs⟩

theorem tail (h : Rows (l :: ls)) : Rows ls := h.sublist (List.sublist_cons_self l ls)

/-- A line feed at the end of the first line separates it from what follows. -/
theorem cons_ended {s : Bytes} (hs : lineFeed ∉ s) (h : Rows ls) :
    Rows ((s ++ [lineFeed]) :: ls) := by
  refine ⟨fun l hl => ?_, List.pairwise_cons.2 ⟨fun _ _ => by simp, h.ended⟩⟩
  rcases List.mem_cons.1 hl with rfl | hl
  · exact ⟨by simp, by simpa using hs⟩
  · exact h.line l hl

theorem push {b : UInt8} (hb : b ≠ lineFeed) (h : Rows (l :: ls)) :
    Rows ((b :: l) :: ls) := by
  obtain ⟨hne, hl⟩ := h.line l (by simp)
  obtain ⟨hend, hls⟩ := List.pairwise_cons.1 h.ended
  refine ⟨fun k hk => ?_, List.pairwise_cons.2 ⟨fun k hk => ?_, hls⟩⟩
  · rcases List.mem_cons.1 hk with rfl | hk
    · rw [List.dropLast_cons_of_ne_nil hne]
      exact ⟨by simp, by simpa using ⟨hb.symm, hl⟩⟩
    · exact h.line k (by simp [hk])
  · rw [List.getLast?_cons, hend k hk]; rfl

end Rows

theorem rows_split (c : Bytes) : Rows (split c) := by
  induction c with
  | nil => exact .nil
  | cons b bs ih =>
    simp only [split]
    split
    · next hb => subst hb; exact Rows.cons_ended (s := []) (by simp) ih
    · next hb =>
      cases hs : split bs with
      | nil => exact ⟨by simp, by simp⟩
      | cons l ls => exact Rows.push hb (hs ▸ ih)

theorem flatten_split (c : Bytes) : (split c).flatten = c := by
  induction c with
  | nil => rfl
  | cons b bs ih =>
    simp only [split]
    split
    · rw [List.flatten_cons, ih]; rfl
    · cases hs : split bs with
      | nil | cons l ls => rw [hs] at ih; simp [← ih]

theorem split_append_lineFeed {s : Bytes} (hs : lineFeed ∉ s) (rest : Bytes) :
    split (s ++ lineFeed :: rest) = (s ++ [lineFeed]) :: split rest := by
  induction s with
  | nil => rfl
  | cons b s ih =>
    simp only [List.mem_cons, not_or] at hs
    have hb : b ≠ 0x0A := fun h => hs.1 h.symm
    simp only [List.cons_append, split, hb, ih hs.2, ↓reduceIte]

theorem split_unended (hne : l ≠ []) (hl : lineFeed ∉ l) : split l = [l] := by
  induction l with
  | nil => exact absurd rfl hne
  | cons b l ih =>
    simp only [List.mem_cons, not_or] at hl
    have hb : b ≠ 0x0A := fun h => hl.1 h.symm
    cases l with
    | nil => simp [split, hb]
    | cons b' l => rw [split, if_neg hb, ih (by simp) hl.2]

theorem eq_append_lineFeed (h : l.getLast? = some lineFeed) :
    l = l.dropLast ++ [lineFeed] := by
  obtain ⟨s, rfl⟩ := List.getLast?_eq_some_iff.1 h
  simp

theorem split_line (hne : l ≠ []) (hl : lineFeed ∉ l.dropLast) : split l = [l] := by
  by_cases h : l.getLast? = some lineFeed
  · have := split_append_lineFeed hl []
    rwa [← eq_append_lineFeed h] at this
  · refine split_unended hne fun hm => ?_
    rw [← List.dropLast_append_getLast hne, List.mem_append, List.mem_singleton] at hm
    rcases hm with hm | hm
    · exact hl hm
    · exact h (by rw [List.getLast?_eq_getLast_of_ne_nil hne, ← hm])

theorem split_flatten (h : Rows ls) : split ls.flatten = ls := by
  induction ls with
  | nil => rfl
  | cons l ls ih =>
    obtain ⟨hne, hl⟩ := h.line l (by simp)
    rw [List.flatten_cons]
    cases ls with
    | nil => simpa using split_line hne hl
    | cons k ls =>
      have hend := (List.pairwise_cons.1 h.ended).1 k (by simp)
      rw [eq_append_lineFeed hend, List.append_assoc, List.singleton_append,
        split_append_lineFeed (by simpa using hl), ih h.tail]

/-! ### Thinning out -/

/-- The lines that are not dropped. -/
def kept : List State → List Bytes → List Bytes
  | [], _ | _, [] => []
  | .dropped :: states, _ :: lines => kept states lines
  | _ :: states, line :: lines => line :: kept states lines

theorem kept_sublist (states : List State) (lines : List Bytes) :
    (kept states lines).Sublist lines := by
  fun_induction kept states lines with
  | case1 lines => exact List.nil_sublist lines
  | case2 => exact .refl _
  | case3 states line lines ih => exact ih.cons line
  | case4 st states line lines _ ih => exact ih.cons_cons line

theorem render_eq_flatten_kept {states : List State} (h : .blanked ∉ states) (lines : List Bytes) :
    render lines states = (kept states lines).flatten := by
  unfold render
  fun_induction kept states lines with
  | case1 lines => rfl
  | case2 => simp
  | case3 states line lines ih =>
    simp only [List.mem_cons, not_or] at h
    simpa [State.apply] using ih h.2
  | case4 st states line lines hd ih =>
    simp only [List.mem_cons, not_or] at h
    cases st with
    | present => simpa [State.apply] using ih h.2
    | blanked => exact absurd rfl h.1
    | dropped => exact absurd rfl hd

theorem render_present (lines : List Bytes) :
    render lines (List.replicate lines.length .present) = lines.flatten := by
  unfold render
  induction lines with
  | nil => rfl
  | cons line lines ih =>
    simp only [List.length_cons, List.replicate_succ, List.zipWith_cons_cons, List.flatten_cons, ih]
    rfl

theorem render_cons (st : State) (states : List State) (line : Bytes) (lines : List Bytes) :
    render (line :: lines) (st :: states) = st.apply line ++ render lines states := rfl

/-- A line that was kept is one of the lines from before, and can go from there as well. -/
theorem exists_getElem?_kept {states : List State} {lines : List Bytes} (h : .blanked ∉ states) {j : Nat}
    (hj : (kept states lines)[j]? = some line) : ∃ i : Nat, states[i]? = some .present ∧ lines[i]? = some line ∧
      ∀ out, render (kept states lines) ((List.replicate (kept states lines).length .present).set j out) =
        render lines (states.set i out) := by
  fun_induction kept states lines generalizing j with
  | case1 lines | case2 => cases hj
  | case3 states line' lines ih =>
    simp only [List.mem_cons, not_or] at h
    obtain ⟨i, hi, hline, hout⟩ := ih h.2 hj
    exact ⟨i + 1, hi, hline, fun out => (hout out).trans (by rw [List.set_cons_succ, render_cons]; rfl)⟩
  | case4 st states line' lines hd ih =>
    simp only [List.mem_cons, not_or] at h
    obtain rfl : st = .present := by cases st <;> simp_all
    cases j with
    | zero =>
      refine ⟨0, rfl, hj, fun out => ?_⟩
      rw [List.length_cons, List.replicate_succ, List.set_cons_zero, List.set_cons_zero, render_cons, render_cons,
        render_present, render_eq_flatten_kept h.2]
    | succ j =>
      obtain ⟨i, hi, hline, hout⟩ := ih h.2 hj
      refine ⟨i + 1, hi, hline, fun out => ?_⟩
      rw [List.length_cons, List.replicate_succ, List.set_cons_succ, List.set_cons_succ, render_cons, render_cons,
        hout out]

/-- A line is as it was, or it is a candidate and in the state `out`. -/
def Allowed (m : Directive.Matcher) (out st : State) (line : Bytes) : Prop :=
  st = .present ∨ st = out ∧ m.accepts (body line) = true

/-- `new` is `old` with some of its candidate lines in the state `out`. -/
def Thinned (m : Directive.Matcher) (out : State) (old new : Bytes) : Prop :=
  ∃ states, List.Forall₂ (Allowed m out) states (split old) ∧ new = render (split old) states

section
variable {m : Directive.Matcher} {out : State} {states : List State} {lines : List Bytes}

theorem forall₂_replicate_present (m : Directive.Matcher) (out : State) (lines : List Bytes) :
    List.Forall₂ (Allowed m out) (List.replicate lines.length .present) lines := by
  induction lines with
  | nil => exact .nil
  | cons line lines ih => exact .cons (.inl rfl) ih

theorem forall₂_set_of {R : State → Bytes → Prop} (h : List.Forall₂ R states lines) {i : Nat}
    (hi : lines[i]? = some line) {st : State} (hst : R st line) : List.Forall₂ R (states.set i st) lines := by
  induction h generalizing i with
  | nil => simp at hi
  | cons hd _ ih =>
    cases i with
    | zero =>
      simp only [List.getElem?_cons_zero, Option.some.injEq] at hi
      exact .cons (hi ▸ hst) ‹_›
    | succ i => exact .cons hd (ih (by simpa using hi))

theorem forall₂_set (h : List.Forall₂ (Allowed m out) states lines) {i : Nat}
    (hi : lines[i]? = some line) (hm : m.accepts (body line) = true) :
    List.Forall₂ (Allowed m out) (states.set i out) lines := forall₂_set_of h hi (.inr ⟨rfl, hm⟩)

theorem forall₂_settle (h : List.Forall₂ (Allowed m .blanked) states lines) :
    List.Forall₂ (Allowed m .dropped) (states.map State.settle) lines := by
  induction h with
  | nil => exact .nil
  | cons hd _ ih =>
    refine .cons ?_ ih
    rcases hd with rfl | ⟨rfl, hm⟩
    · exact .inl rfl
    · exact .inr ⟨rfl, hm⟩

theorem blanked_notMem (h : List.Forall₂ (Allowed m .dropped) states lines) : .blanked ∉ states := by
  induction h with
  | nil => simp
  | cons hd _ ih => rcases hd with rfl | ⟨rfl, -⟩ <;> simpa using ih

theorem exists_kept_kept {states' : List State} (h : List.Forall₂ (Allowed m .dropped) states lines)
    (h' : List.Forall₂ (Allowed m .dropped) states' (kept states lines)) :
    ∃ both, List.Forall₂ (Allowed m .dropped) both lines ∧ kept both lines = kept states' (kept states lines) := by
  induction h generalizing states' with
  | nil => exact ⟨[], .nil, by cases states' <;> rfl⟩
  | @cons st line sts lines hd _ ih =>
    rcases hd with rfl | ⟨rfl, hm⟩
    · cases h' with
      | @cons st' _ sts' _ hd' ht' =>
        obtain ⟨both, hb, hk⟩ := ih ht'
        refine ⟨st' :: both, .cons hd' hb, ?_⟩
        rcases hd' with rfl | ⟨rfl, -⟩ <;> simp [kept, hk]
    · obtain ⟨both, hb, hk⟩ := ih h'
      exact ⟨.dropped :: both, .cons (.inr ⟨rfl, hm⟩) hb, by simpa [kept] using hk⟩

end

theorem split_render {states : List State} (h : .blanked ∉ states) (c : Bytes) :
    split (render (split c) states) = kept states (split c) := by
  rw [render_eq_flatten_kept h]
  exact split_flatten ((rows_split c).sublist (kept_sublist _ _))

namespace Thinned
variable {m : Directive.Matcher} {out : State} {a b c : Bytes}

theorem refl (m : Directive.Matcher) (out : State) (c : Bytes) : Thinned m out c c :=
  ⟨_, forall₂_replicate_present m out _, by rw [render_present, flatten_split]⟩

theorem trans (h : Thinned m .dropped a b) (h' : Thinned m .dropped b c) : Thinned m .dropped a c := by
  obtain ⟨states, hs, rfl⟩ := h
  obtain ⟨states', hs', rfl⟩ := h'
  have hb := blanked_notMem hs
  rw [split_render hb] at hs' ⊢
  obtain ⟨both, hbo, hk⟩ := exists_kept_kept hs hs'
  exact ⟨both, hbo, by
    rw [render_eq_flatten_kept (blanked_notMem hs'), render_eq_flatten_kept (blanked_notMem hbo), hk]⟩

/-- No line comes in, and none changes. -/
theorem split_sublist (h : Thinned m .dropped a b) : (split b).Sublist (split a) := by
  obtain ⟨states, hs, rfl⟩ := h
  rw [split_render (blanked_notMem hs)]
  exact kept_sublist _ _

end Thinned

end Prune.Lines

namespace Prune.Pass

open Lines

theorem mem_candidatesFrom {m : Directive.Matcher} {lines : List Bytes} {i : Nat} {c : Candidate}
    (h : c ∈ candidatesFrom m i lines) :
    ∃ j line, c.index = i + j ∧ lines[j]? = some line ∧ m.accepts (body line) = true := by
  induction lines generalizing i with
  | nil => simp [candidatesFrom] at h
  | cons line lines ih =>
    have later : c ∈ candidatesFrom m (i + 1) lines →
        ∃ j l, c.index = i + j ∧ (line :: lines)[j]? = some l ∧ m.accepts (body l) = true := by
      intro hc
      obtain ⟨j, l, hj, hl, hm⟩ := ih hc
      exact ⟨j + 1, l, by omega, by simpa using hl, hm⟩
    simp only [candidatesFrom] at h
    split at h
    · next hm =>
      rcases List.mem_cons.1 h with rfl | h
      · exact ⟨0, line, rfl, rfl, hm⟩
      · exact later h
    · exact later h

theorem mem_candidates {m : Directive.Matcher} {lines : List Bytes} {c : Candidate}
    (h : c ∈ candidates m lines) :
    ∃ line, lines[c.index]? = some line ∧ m.accepts (body line) = true := by
  obtain ⟨j, line, hj, hl, hm⟩ := mem_candidatesFrom h
  exact ⟨line, by rw [hj, Nat.zero_add]; exact hl, hm⟩

theorem exists_mem_candidatesFrom {m : Directive.Matcher} {lines : List Bytes} {j : Nat} (i : Nat)
    (hj : lines[j]? = some line) (hm : m.accepts (body line) = true) :
    ∃ c ∈ candidatesFrom m i lines, c.index = i + j := by
  induction lines generalizing i j with
  | nil => cases hj
  | cons line' lines ih =>
    simp only [candidatesFrom]
    cases j with
    | zero =>
      obtain rfl : line' = line := by simpa using hj
      rw [if_pos hm]
      exact ⟨_, List.mem_cons_self, rfl⟩
    | succ j =>
      obtain ⟨c, hc, hi⟩ := ih (i + 1) (by simpa using hj)
      refine ⟨c, ?_, by omega⟩
      split
      · exact .tail _ hc
      · exact hc

end Prune.Pass
