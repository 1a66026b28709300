import Prune.Proofs.Lines

/-!
# Lines keep their places

What is left of a blanked line ends in a line feed exactly if the line did, and has no other (`ended_apply`). So as long
as no line is dropped, each is found again at its own place, whole or bare (`getElem?_split_render`).
-/

namespace Prune.Lines

variable {l : Bytes} {ls : List Bytes} {st : State} {states : List State}

def carriageReturn : UInt8 := 0x0D

/-- The terminator is the longest of CR LF, LF and nothing that the line ends in. -/
theorem terminator_eq (l : Bytes) : terminator l =
    if [carriageReturn, lineFeed] <:+ l then [carriageReturn, lineFeed]
    else if [lineFeed] <:+ l then [lineFeed] else [] := by
  unfold terminator
  fun_induction parts l with
  | case7 b bs hnil hone body terminator hparts ih =>
    -- two bytes or more follow, so whatever the line ends in, these do
    have hshort : ∀ s : Bytes, s.length ≤ 2 → (s <:+ b :: bs ↔ s <:+ bs) := by
      intro s hs
      rw [List.suffix_cons_iff, or_iff_right]
      rintro rfl
      match bs, hs with
      | [], _ => exact hnil rfl
      | [b'], _ => exact hone b' rfl
    rw [hparts] at ih
    simp only [hshort [carriageReturn, lineFeed] (by simp), hshort [lineFeed] (by simp)]
    exact ih
  | _ => simp_all [List.suffix_cons_iff, carriageReturn, lineFeed, @eq_comm _ (0x0A : UInt8), @eq_comm _ (0x0D : UInt8)]

theorem ended_apply (hst : st ≠ .dropped) (hl : lineFeed ∉ l.dropLast) :
    lineFeed ∉ (st.apply l).dropLast ∧ ((st.apply l).getLast? = some lineFeed ↔ l.getLast? = some lineFeed) := by
  cases st with
  | present => exact ⟨hl, .rfl⟩
  | dropped => exact absurd rfl hst
  | blanked =>
    have hlast : l.getLast? = some lineFeed ↔ [lineFeed] <:+ l := by
      rw [List.getLast?_eq_some_iff]
      exact exists_congr fun s => eq_comm
    rw [hlast, State.apply, terminator_eq]
    split
    · next h => exact ⟨by decide, iff_of_true rfl ((List.suffix_append [carriageReturn] _).trans h)⟩
    · split
      · next h => exact ⟨by decide, iff_of_true rfl h⟩
      · next h => exact ⟨by decide, iff_of_false (by decide) h⟩

theorem count_lineFeed (hl : lineFeed ∉ l.dropLast) :
    l.count lineFeed = if l.getLast? = some lineFeed then 1 else 0 := by
  rcases List.eq_nil_or_concat' l with rfl | ⟨s, b, rfl⟩
  · rfl
  · rw [List.dropLast_concat] at hl
    simp [List.count_append, List.count_eq_zero.2 hl, List.count_singleton]

theorem count_render (h : ∀ l ∈ ls, lineFeed ∉ l.dropLast) (hlen : states.length = ls.length)
    (hd : .dropped ∉ states) : (render ls states).count lineFeed = ls.flatten.count lineFeed := by
  induction ls generalizing states with
  | nil => simp [render]
  | cons l ls ih =>
    obtain ⟨st, states, rfl⟩ := List.exists_cons_of_length_eq_add_one hlen
    simp only [List.mem_cons, not_or] at hd
    have hl := h l (by simp)
    obtain ⟨hl', hend⟩ := ended_apply (Ne.symm hd.1) hl
    rw [render_cons, List.flatten_cons, List.count_append, List.count_append, count_lineFeed hl, count_lineFeed hl',
      ih (fun k hk => h k (by simp [hk])) (by simpa using hlen) hd.2]
    simp only [hend]

theorem getElem?_split_render (h : Rows ls) (hd : .dropped ∉ states) (i : Nat) :
    (split (render ls states))[i]? = (List.zipWith State.apply states ls)[i]?.filter (· ≠ []) := by
  induction ls generalizing states i with
  | nil => simp [render, split]
  | cons l ls ih =>
    cases states with
    | nil => simp [render, split]
    | cons st states =>
      simp only [List.mem_cons, not_or] at hd
      obtain ⟨hl, hend⟩ := ended_apply (Ne.symm hd.1) (h.line l (by simp)).2
      rw [render_cons, List.zipWith_cons_cons]
      cases ls with
      | nil =>
        by_cases hne : st.apply l = []
        · cases i <;> simp [render, split, hne, Option.filter]
        · rw [show render [] states = [] by simp [render], List.append_nil, split_line hne hl]
          cases i <;> simp [hne, Option.filter]
      | cons k ls =>
        -- another line follows, so this one ends in a line feed, and what is left of it too
        have hlast := hend.2 ((List.pairwise_cons.1 h.ended).1 k (by simp))
        have hne : st.apply l ≠ [] := by rintro he; simp [he] at hlast
        have hsplit : split (st.apply l ++ render (k :: ls) states) =
            st.apply l :: split (render (k :: ls) states) := by
          rw [eq_append_lineFeed hlast, List.append_assoc, List.singleton_append,
            split_append_lineFeed (by simpa using hl)]
        rw [hsplit]
        cases i with
        | zero => simp [hne, Option.filter]
        | succ i => exact ih h.tail hd.2 i

theorem kept_eq_filter (h : .blanked ∉ states) (ls : List Bytes) :
    kept states ls = ((states.zip ls).filter (·.1 = .present)).map (·.2) := by
  fun_induction kept states ls with
  | case1 => rfl
  | case2 => simp
  | case3 states l ls ih => simpa using ih (List.not_mem_of_not_mem_cons h)
  | case4 st states l ls hst ih =>
    simp only [List.mem_cons, not_or] at h
    obtain rfl : st = .present := by cases st <;> simp_all
    simpa using ih h.2

/-- Splitting and rendering undo each other; blanking moves no line, and dropping joins none. -/
theorem lines_keep_places (c : Bytes) :
    (split c).flatten = c ∧ (∀ l ∈ split c, l ≠ [] ∧ lineFeed ∉ l.dropLast) ∧
    (∀ l ∈ (split c).dropLast, l.getLast? = some lineFeed) ∧
    render (split c) (List.replicate (split c).length .present) = c ∧
    (∀ l, terminator l = if [carriageReturn, lineFeed] <:+ l then [carriageReturn, lineFeed]
      else if [lineFeed] <:+ l then [lineFeed] else []) ∧
    (∀ states : List State, states.length = (split c).length → .dropped ∉ states →
      let again := split (render (split c) states)
      (render (split c) states).count lineFeed = c.count lineFeed ∧ again.length ≤ (split c).length ∧
      ∀ (i : Nat) l, (split c)[i]? = some l → (states[i]? = some .present → again[i]? = some l) ∧
        (states[i]? = some .blanked → again[i]? = if terminator l = [] then none else some (terminator l))) ∧
    ∀ states : List State, states.length = (split c).length → .blanked ∉ states →
      split (render (split c) states) = ((states.zip (split c)).filter (·.1 = .present)).map (·.2) := by
  have hrows := rows_split c
  have hplace := fun (states : List State) (hd : .dropped ∉ states) => getElem?_split_render hrows hd
  refine ⟨flatten_split c, hrows.line, fun l hl => ?_, by rw [render_present, flatten_split], terminator_eq,
    fun states hlen hd => ⟨?_, ?_, fun i l hi => ⟨fun hst => ?_, fun hst => ?_⟩⟩, fun states _ hb => ?_⟩
  · have hne : split c ≠ [] := by rintro h; simp [h] at hl
    have hended := hrows.ended
    rw [← List.dropLast_append_getLast hne, List.pairwise_append] at hended
    exact hended.2.2 l hl _ List.mem_cons_self
  · rw [count_render (fun l hl => (hrows.line l hl).2) hlen hd, flatten_split]
  · rw [← List.getElem?_eq_none_iff, hplace states hd, List.getElem?_eq_none (by simp [hlen])]
    rfl
  · rw [hplace states hd, List.getElem?_zipWith, hst, hi]
    simp [State.apply, (hrows.line l (List.mem_of_getElem? hi)).1]
  · rw [hplace states hd, List.getElem?_zipWith, hst, hi]
    by_cases ht : terminator l = [] <;> simp [State.apply, ht, Option.filter]
  · rw [split_render hb, kept_eq_filter hb]

/-- Lines with either terminator, an empty one, one with a lone CR inside, and no terminator at the end. -/
theorem lines_keep_places_mixed :
    let lines := split "a\r\n\nb\rc\nd"
    let trial := render lines [.blanked, .present, .blanked, .blanked]
    (trial.count lineFeed = 3 ∧ (split trial)[0]? = some (Bytes.ofString "\r\n") ∧ (split trial)[3]? = none) ∧
    split (render lines [.dropped, .present, .dropped, .present]) = ["\n", "d"].map Bytes.ofString := by
  obtain ⟨-, -, -, -, -, hblank, hdrop⟩ := lines_keep_places "a\r\n\nb\rc\nd"
  obtain ⟨hcount, -, hplace⟩ := hblank [.blanked, .present, .blanked, .blanked] (by decide +kernel) (by decide)
  exact ⟨⟨hcount, (hplace 0 "a\r\n" (by decide +kernel)).2 rfl,
    (hplace 3 "d" (by decide +kernel)).2 rfl⟩, hdrop _ (by decide +kernel) (by decide)⟩

end Prune.Lines
