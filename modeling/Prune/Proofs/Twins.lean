import Prune.Proofs.Tree

/-!
# Files with several names

A file may have several names on a disk, its twins. What a sweep does can take names away and never makes new ones
(`Sharing`), so the twins of a file later on are among those it had (`Sharing.twins`).
-/

namespace Prune.Disk

variable {d d' d'' : Disk} {l k : Location}

theorem lookup_filter_name {α : Type} {f : Location → Bool} (h : f k = true) (xs : List (Location × α)) :
    (xs.filter fun x => f x.1).lookup k = xs.lookup k := by
  induction xs with
  | nil => rfl
  | cons x xs ih =>
    obtain ⟨j, a⟩ := x
    by_cases hj : f j = true
    · rw [List.filter_cons_of_pos (by simpa using hj), List.lookup_cons, List.lookup_cons, ih]
    · have hk : (k == j) = false := by
        rw [beq_eq_false_iff_ne]
        rintro rfl
        exact hj h
      rw [List.filter_cons_of_neg (by simpa using hj), List.lookup_cons, hk, ih]

theorem lookup_of_mem {xs : List (Location × Nat)} (hs : (xs.map (·.1)).Nodup) {x : Location × Nat} (hx : x ∈ xs) :
    xs.lookup x.1 = some x.2 := by
  induction xs with
  | nil => cases hx
  | cons y xs ih =>
    rw [List.map_cons, List.nodup_cons] at hs
    rcases List.mem_cons.1 hx with rfl | hx
    · exact List.lookup_cons_self
    · have hne : x.1 ≠ y.1 := fun heq => hs.1 (heq ▸ List.mem_map_of_mem hx)
      rw [List.lookup_cons, beq_false_of_ne hne]
      exact ih hs.2 hx

theorem self_mem_twins (d : Disk) (l : Location) : l ∈ d.twins l := by
  rw [twins]
  split
  · next number h =>
    obtain ⟨xs, ys, hs, -⟩ := List.lookup_eq_some_iff.1 h
    exact List.mem_map.2 ⟨(l, number), List.mem_filter.2 ⟨by simp [hs], by simp⟩, rfl⟩
  · simp

theorem twins_of_lookup (h : d.shared.lookup l = none) : d.twins l = [l] := by simp [twins, h]

theorem twins_eq_of_mem (hs : (d.shared.map (·.1)).Nodup) (hk : k ∈ d.twins l) : d.twins k = d.twins l := by
  cases hl : d.shared.lookup l with
  | none =>
    rw [twins_of_lookup hl, List.mem_singleton] at hk
    rw [hk]
  | some number =>
    simp only [twins, hl] at hk ⊢
    obtain ⟨x, hx, rfl⟩ := List.mem_map.1 hk
    obtain ⟨hx, hnum⟩ := List.mem_filter.1 hx
    rw [lookup_of_mem hs hx, of_decide_eq_true hnum]

/-- Files of `d'` have no names in common that they did not have in common on `d`. -/
def Sharing (d d' : Disk) : Prop := ∃ f : Location → Bool, d'.shared = d.shared.filter fun x => f x.1

theorem Sharing.of_eq (h : d'.shared = d.shared) : Sharing d d' := ⟨fun _ => true, by simp [h]⟩

theorem Sharing.trans (h : Sharing d d') (h' : Sharing d' d'') : Sharing d d'' := by
  obtain ⟨f, hf⟩ := h
  obtain ⟨g, hg⟩ := h'
  exact ⟨fun l => g l && f l, by rw [hg, hf, List.filter_filter]⟩

theorem sharing_erase (d : Disk) (l : Location) : Sharing d (d.erase l) := ⟨fun k => !decide (k = l), rfl⟩

theorem sharing_noteNew (d : Disk) (l : Location) : Sharing d (d.noteNew l) := ⟨fun k => !decide (k = l), rfl⟩

theorem lookup_filter_eq_none {f : Location → Bool} (h : ¬ f l = true) (xs : List (Location × Nat)) :
    (xs.filter fun x => f x.1).lookup l = none := by
  rw [List.lookup_eq_none_iff]
  intro x hx
  rw [bne_iff_ne]
  rintro rfl
  exact h (List.mem_filter.1 hx).2

theorem Sharing.twins (h : Sharing d d') (hk : k ∈ d'.twins l) : k ∈ d.twins l := by
  obtain ⟨f, hf⟩ := h
  rw [Disk.twins, hf] at hk
  by_cases hl : f l = true
  · rw [lookup_filter_name hl] at hk
    rw [Disk.twins]
    split
    · next number hn =>
      rw [hn] at hk
      obtain ⟨x, hx, rfl⟩ := List.mem_map.1 hk
      obtain ⟨hx, hnum⟩ := List.mem_filter.1 hx
      exact List.mem_map.2 ⟨x, List.mem_filter.2 ⟨List.mem_of_mem_filter hx, hnum⟩, rfl⟩
    · next hn =>
      rw [hn] at hk
      exact hk
  · rw [lookup_filter_eq_none hl, List.mem_singleton] at hk
    rw [hk]
    exact self_mem_twins d l

/-- A name that a file has in common with others is that of a file. -/
def Tied (d : Disk) : Prop := ∀ x ∈ d.shared, ∃ mode content, d.get? x.1 = some (.file mode content)

theorem Tied.of_sharing (ht : Tied d) (hs : Sharing d d') (h : ∀ x ∈ d'.shared,
    d'.get? x.1 = d.get? x.1 ∨ ∃ mode content, d'.get? x.1 = some (.file mode content)) : Tied d' := by
  intro x hx
  obtain ⟨f, hf⟩ := hs
  rcases h x hx with hg | hg
  · rw [hg]
    exact ht x (List.mem_of_mem_filter (hf ▸ hx))
  · exact hg

theorem Tied.file (ht : Tied d) (hk : k ∈ d.twins l) (hne : k ≠ l) :
    ∃ mode content, d.get? k = some (.file mode content) := by
  rw [twins] at hk
  split at hk
  · obtain ⟨x, hx, rfl⟩ := List.mem_map.1 hk
    exact ht x (List.mem_of_mem_filter hx)
  · exact absurd (List.mem_singleton.1 hk) hne

/-- Where a file has one of its names, it can have the others. -/
def Sited (d : Disk) : Prop := ∀ l, Site d l → ∀ k ∈ d.twins l, Site d k

/-- Where the file at `l` has further names, there can be files. -/
def SitedAt (d : Disk) (l : Location) : Prop := ∀ k ∈ d.twins l, k ≠ l → Site d k

theorem Tied.sitedAt (ht : Tied d) (hd : Tree d) (l : Location) : SitedAt d l := fun k hk hne => by
  obtain ⟨mode, content, hg⟩ := ht.file hk hne
  exact hd.site hg rfl

theorem Tied.sited (ht : Tied d) (hd : Tree d) : Sited d := by
  intro l hl k hk
  by_cases hne : k = l
  · exact hne ▸ hl
  · exact ht.sitedAt hd l k hk hne

theorem SitedAt.alike (h : SitedAt d l) (ha : Alike d d') (hs : Sharing d d') : SitedAt d' l := fun k hk hne =>
  (h k (hs.twins hk) hne).alike ha

end Prune.Disk
