/-!
Sorting by insertion, and searching by halving. Sorting keeps the elements, and each comes before those behind it; where
those that a property holds of come first, the search finds where they end.
-/

namespace Prune

/-- `a` put in front of the first element that it comes before. -/
def insertBy {α : Type} (le : α → α → Bool) (a : α) : List α → List α
  | [] => [a]
  | b :: l => if le a b then a :: b :: l else b :: insertBy le a l

def sortBy {α : Type} (le : α → α → Bool) : List α → List α
  | [] => []
  | a :: l => insertBy le a (sortBy le l)

variable {α : Type} {le : α → α → Bool}

theorem insertBy_perm (a : α) (l : List α) : (insertBy le a l).Perm (a :: l) := by
  induction l with
  | nil => exact .refl _
  | cons b l ih =>
    simp only [insertBy]
    split
    · exact .refl _
    · exact (ih.cons b).trans (.swap a b l)

theorem sortBy_perm (l : List α) : (sortBy le l).Perm l := by
  induction l with
  | nil => exact .refl _
  | cons a l ih => exact (insertBy_perm a _).trans (ih.cons a)

theorem pairwise_insertBy (trans : ∀ a b c, le a b → le b c → le a c)
    (total : ∀ a b, le a b ∨ le b a) (a : α) {l : List α} (h : l.Pairwise fun x y => le x y) :
    (insertBy le a l).Pairwise fun x y => le x y := by
  induction l with
  | nil => simp [insertBy]
  | cons b l ih =>
    simp only [insertBy]
    have ⟨hb, hl⟩ := List.pairwise_cons.1 h
    split
    · next hab =>
      refine List.pairwise_cons.2 ⟨fun c hc => ?_, h⟩
      rcases List.mem_cons.1 hc with rfl | hc
      · exact hab
      · exact trans a b c hab (hb c hc)
    · next hab =>
      refine List.pairwise_cons.2 ⟨fun c hc => ?_, ih hl⟩
      rcases List.mem_cons.1 ((insertBy_perm a l).mem_iff.1 hc) with rfl | hc
      · exact (total c b).resolve_left hab
      · exact hb c hc

theorem pairwise_sortBy (trans : ∀ a b c, le a b → le b c → le a c)
    (total : ∀ a b, le a b ∨ le b a) (l : List α) : (sortBy le l).Pairwise fun x y => le x y := by
  induction l with
  | nil => exact .nil
  | cons a l ih => exact pairwise_insertBy trans total a ih

/-- Halves the `size` places from `base` on until one is left, and looks at that one. -/
def searchFrom (p : α → Bool) (l : List α) (base size : Nat) : Nat :=
  if size ≤ 1 then if l[base]?.any p then base + 1 else base
  else if l[base + size / 2]?.any p then searchFrom p l (base + size / 2) (size - size / 2)
  else searchFrom p l base (size - size / 2)
termination_by size

/-- Where the elements that `p` holds of end, if they come before the others; found by halving. -/
def partitionPoint (p : α → Bool) (l : List α) : Nat := searchFrom p l 0 l.length

variable {p : α → Bool} {l xs ys : List α}

theorem searchFrom_eq {base size k : Nat} (hp : ∀ i, l[i]?.any p = true ↔ i < k) (hk : base ≤ k)
    (hk' : k ≤ base + size) : searchFrom p l base size = k := by
  fun_induction searchFrom p l base size with
  | case1 base size hsize h => have := (hp base).1 h; omega
  | case2 base size hsize h => have := mt (hp base).2 h; omega
  | case3 base size hsize h ih => have := (hp _).1 h; exact ih (by omega) (by omega)
  | case4 base size hsize h ih => have := mt (hp _).2 h; exact ih hk (by omega)

theorem partitionPoint_append (hx : ∀ a ∈ xs, p a = true) (hy : ∀ a ∈ ys, p a = false) :
    partitionPoint p (xs ++ ys) = xs.length := by
  refine searchFrom_eq (fun i => ?_) (Nat.zero_le _) (by simp)
  rcases Nat.lt_or_ge i xs.length with hi | hi
  · rw [List.getElem?_append_left hi, List.getElem?_eq_getElem hi]
    exact iff_of_true (hx _ (List.getElem_mem hi)) hi
  · rw [List.getElem?_append_right hi]
    refine iff_of_false ?_ (Nat.not_lt.2 hi)
    cases hget : ys[i - xs.length]? with
    | none => simp
    | some a => simp [hy a (List.mem_of_getElem? hget)]

theorem filter_append_filter (h : l.Pairwise fun a b => p b = true → p a = true) :
    l.filter p ++ l.filter (!p ·) = l := by
  induction l with
  | nil => rfl
  | cons a l ih =>
    have ⟨ha, hl⟩ := List.pairwise_cons.1 h
    by_cases hpa : p a = true
    · simp [hpa, ih hl]
    · have hnone : l.filter p = [] := List.filter_eq_nil_iff.2 fun b hb hpb => hpa (ha b hb hpb)
      have hall := ih hl
      rw [hnone, List.nil_append] at hall
      simp [hpa, hnone, hall]

end Prune
