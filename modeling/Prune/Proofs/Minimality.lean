import Prune.Proofs.Soundness

/-!
# Nothing more can go

If a build that passes still passes with more lines, a line that was needed when it was tried is needed in the
end, when fewer are left (`settled_minimal`). So no candidate line of what a completed sweep leaves can go
(`Irreducible`, `Shows.irreducible`).
-/

namespace Prune

open Disk Artefact Lines Function

variable {d d' : Disk} {p : Path} {x : Lot} {s : Settings} {files : List Path} {todo : List (Path × Option Lot)}
  {o : Oracle} {sts sts' : Path → List State} {V : Set (Path × Nat) → Bool}

/-! ### Lines that were needed -/

/-- What is present in `st` is present in `st'`. -/
def Within (st st' : List State) : Prop := ∀ i : Nat, st[i]? = some .present → st'[i]? = some .present

variable (st : List State)

theorem getElem?_set_ne_present (i : Nat) {out : State} (hout : out ≠ .present) :
    (st.set i out)[i]? ≠ some .present := by
  rw [List.getElem?_set_self']
  cases st[i]? <;> simp [hout]

theorem Within.set {st st' : List State} (h : Within st st') (i : Nat) {out out' : State} (hout : out ≠ .present) :
    Within (st.set i out) (st'.set i out') := by
  intro k hk
  by_cases hki : i = k
  · subst hki
    exact absurd hk (getElem?_set_ne_present st i hout)
  · rw [List.getElem?_set_ne hki] at hk ⊢
    exact h k hk

theorem within_set (i : Nat) {out : State} (hout : out ≠ .present) : Within (st.set i out) st := by
  intro k hk
  by_cases hki : i = k
  · subst hki
    exact absurd hk (getElem?_set_ne_present st i hout)
  · rwa [List.getElem?_set_ne hki] at hk

theorem within_settle : Within (st.map State.settle) st := by
  intro k hk
  rw [List.getElem?_map, Option.map_eq_some_iff] at hk
  obtain ⟨st', hst', hsettle⟩ := hk
  cases st' <;> cases hsettle
  exact hst'

theorem greedy_within (W : List State → Bool) (cs : List Pass.Candidate) (states : List State) :
    Within (greedy W cs states) states := by
  induction cs generalizing states with
  | nil => exact fun _ h => h
  | cons c cs ih =>
    intro k hk
    have hk := ih _ k hk
    split at hk
    · exact within_set states c.index (by simp) k hk
    · exact hk

/-- A candidate that is left was tried when all that is left was there, and needed. -/
theorem greedy_minimal {W : List State → Bool} {cs : List Pass.Candidate} {states : List State} {c : Pass.Candidate}
    (hc : c ∈ cs) (hleft : (greedy W cs states)[c.index]? = some .present) :
    ∃ st, Within (greedy W cs states) st ∧ W (st.set c.index .blanked) = false := by
  induction cs generalizing states with
  | nil => cases hc
  | cons c₀ cs ih =>
    rcases List.mem_cons.1 hc with rfl | hc
    · refine ⟨states, greedy_within W (c :: cs) states, ?_⟩
      by_contra hW
      rw [greedy, if_pos (by simpa using hW)] at hleft
      exact getElem?_set_ne_present states c.index (by simp) (greedy_within _ _ _ _ hleft)
    · exact ih hc hleft

theorem survivors_mono (hsub : ∀ p ∈ files, Within (sts p) (sts' p)) :
    survivors d s files sts ⊆ survivors d s files sts' := fun _ he => ⟨he.1, hsub _ he.1 _ he.2.1, he.2.2⟩

theorem settled_within (hnodup : (todo.map (·.1)).Nodup) (hnew : ∀ p x, (p, some x) ∈ todo → sts p = x.untouched)
    (q : Path) : Within (settled d s files V todo sts q) (sts q) := by
  induction todo generalizing sts with
  | nil => exact fun _ h => h
  | cons e todo ih =>
    obtain ⟨p, _ | x⟩ := e <;> obtain ⟨hp, hnodup⟩ := List.nodup_cons.1 hnodup
    · exact ih hnodup fun q y hy => hnew q y (.tail _ hy)
    · intro k hk
      have hk := ih hnodup (fun q y hy => ?_) k hk
      · by_cases hq : q = p
        · subst hq
          rw [update_self] at hk
          rw [hnew q x List.mem_cons_self]
          exact greedy_within _ _ _ k (within_settle _ k hk)
        · rwa [update_of_ne hq] at hk
      · rw [update_of_ne (by rintro rfl; exact hp (List.mem_map.2 ⟨_, hy, rfl⟩))]
        exact hnew q y (.tail _ hy)

/-- What became of a lot was settled when all that is left in the end was there. -/
theorem exists_settled_eq (hnodup : (todo.map (·.1)).Nodup)
    (hnew : ∀ p x, (p, some x) ∈ todo → sts p = x.untouched) (hx : (p, some x) ∈ todo) :
    ∃ sts', (∀ q, Within (settled d s files V todo sts q) (sts' q)) ∧ settled d s files V todo sts p =
      (greedy (fun st => V (survivors d s files (update sts' p st))) (Pass.candidates s.matcher x.lines)
        x.untouched).map State.settle := by
  obtain ⟨a, b, rfl⟩ := List.append_of_mem hx
  rw [List.map_append, List.nodup_append] at hnodup
  obtain ⟨-, hnodup, hab⟩ := hnodup
  have hnew' : ∀ q y, (q, some y) ∈ (p, some x) :: b → settled d s files V a sts q = y.untouched := by
    intro q y hy
    rw [settled_of_notMem fun hq => hab q hq q (List.mem_map.2 ⟨_, hy, rfl⟩) rfl]
    exact hnew q y (List.mem_append_right _ hy)
  refine ⟨settled d s files V a sts, fun q => ?_, ?_⟩
  · rw [settled_append]
    exact settled_within hnodup hnew' q
  · rw [settled_append, settled, settled_of_notMem (List.nodup_cons.1 hnodup).1, update_self]

/-- No candidate that is left in the end can go, if a build that passes still passes with more lines. -/
theorem settled_minimal (hV : ∀ S T, S ⊆ T → V S = true → V T = true) (hnodup : (todo.map (·.1)).Nodup)
    (hnew : ∀ p x, (p, some x) ∈ todo → sts p = x.untouched) (hx : (p, some x) ∈ todo) {c : Pass.Candidate}
    (hc : c ∈ Pass.candidates s.matcher x.lines)
    (hleft : (settled d s files V todo sts p)[c.index]? = some .present) {out : State} (hout : out ≠ .present) :
    V (survivors d s files (update (settled d s files V todo sts) p
      ((settled d s files V todo sts p).set c.index out))) = false := by
  obtain ⟨sts', hwithin, heq⟩ := exists_settled_eq (V := V) hnodup hnew hx
  rw [heq] at hleft
  obtain ⟨st, hst, hW⟩ := greedy_minimal hc (within_settle _ _ hleft)
  rw [← Bool.not_eq_true] at hW ⊢
  -- fewer lines are left than when the candidate was tried
  refine fun hpass => hW (hV _ _ (survivors_mono fun q _ => ?_) hpass)
  by_cases hq : q = p
  · subst hq
    rw [update_self, update_self]
    refine Within.set (fun k hk => ?_) c.index hout
    rw [heq] at hk
    exact hst k (within_settle _ k hk)
  · rw [update_of_ne hq, update_of_ne hq]
    exact hwithin q

/-! ### Sources of which nothing can go -/

/-- No candidate line of the source `p` can go, blanked or dropped: if the other sources are as they are on `d`,
the build fails then. -/
def Irreducible (o : Oracle) (s : Settings) (files : List Path) (d : Disk) (p : Path) : Prop :=
  ∀ c, d.content? p = some c → ∀ i line, (split c)[i]? = some line → s.matcher.accepts (body line) = true →
    ∀ out, out ≠ .present → ∀ n call (h : Host),
      h.disk.content? p = some (render (split c) ((List.replicate (split c).length .present).set i out)) →
      (∀ q ∈ files, q ≠ p → h.disk.content? q = d.content? q) → (o n call h).verdict = some false

theorem Irreducible.congr (hp : p ∈ files) (hi : Irreducible o s files d p)
    (hd : ∀ q ∈ files, d'.content? q = d.content? q) : Irreducible o s files d' p := by
  intro c hc i line hline hm out hout n call h hcontent hother
  exact hi c ((hd p hp).symm.trans hc) i line hline hm out hout n call h hcontent fun q hq hne =>
    (hother q hq hne).trans (hd q hq)

theorem blanked_notMem_settle : .blanked ∉ st.map State.settle := by
  rw [List.mem_map]
  rintro ⟨st', -, h⟩
  cases st' <;> cases h

theorem Shows.irreducible (hj : o.Judges d s files V) (hV : ∀ S T, S ⊆ T → V S = true → V T = true)
    (hnodup : (todo.map (·.1)).Nodup) (hnew : ∀ p x, (p, some x) ∈ todo → sts p = x.untouched)
    (hx : (p, some x) ∈ todo) (hp : p ∈ files) (hc : d.content? p = some x.content)
    (hshow : Shows d s files (settled d s files V todo sts) d') : Irreducible o s files d' p := by
  intro c' hc' j line hline hm out hout n call h hcontent hother
  obtain ⟨hst, hshown⟩ := hshow p hp _ hc
  have hblank : .blanked ∉ settled d s files V todo sts p := by
    obtain ⟨_, -, heq⟩ := exists_settled_eq (V := V) hnodup hnew hx
    rw [heq]
    exact blanked_notMem_settle _
  obtain rfl : render (split x.content) (settled d s files V todo sts p) = c' :=
    Option.some.inj (hshown.symm.trans hc')
  rw [split_render hblank] at hline hcontent
  obtain ⟨i, hleft, hi, hrender⟩ := exists_getElem?_kept hblank hline
  obtain ⟨cand, hcand, hindex⟩ := Pass.exists_mem_candidatesFrom 0 hi hm
  rw [Nat.zero_add] at hindex
  subst hindex
  rw [hj n call h (update (settled d s files V todo sts) p ((settled d s files V todo sts p).set cand.index out))
    fun q hq c₀ hc₀ => ?_, settled_minimal hV hnodup hnew hx hcand hleft hout]
  by_cases hqp : q = p
  · subst hqp
    obtain rfl : x.content = c₀ := Option.some.inj (hc.symm.trans hc₀)
    rw [update_self, hcontent, hrender]
    exact ⟨forall₂_set_of hst hi (.inr hm), rfl⟩
  · rw [update_of_ne hqp, hother q hq hqp]
    exact hshow q hq c₀ hc₀

end Prune
