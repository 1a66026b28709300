import Prune.Proofs.Contents

/-!
# Replacing a file is all or nothing

A replacement can fail before there is a temporary, when one is made, and when it is renamed. In each case the disk is
as it was (`unchanged_of_error`). Where it succeeds, the entry that the path names is the new file, also if it was a
link, with the bits of the regular file that the path led to before, and all other entries stay.
-/

namespace Prune.Disk

open Artefact

variable {d d' : Disk} {p : Path} {l k : Location} {content : Bytes}

/-- Nothing that is on the disk has changed, and nothing has come to it. -/
structure Unchanged (d d' : Disk) : Prop where
  entries : d'.entries = d.entries
  cwd : d'.cwd = d.cwd
  held : d'.held = d.held
  names : ∀ l, d.get? l ≠ none → d'.shared.lookup l = d.shared.lookup l
  stamp : ∀ l, d.get? l ≠ none → d'.stampOf l = d.stampOf l

theorem Unchanged.refl (d : Disk) : Unchanged d d := ⟨rfl, rfl, rfl, fun _ _ => rfl, fun _ _ => rfl⟩

/-- A temporary that was made at a free location and taken away again. -/
theorem unchanged_erase (hl : l ≠ []) (hfree : d.get? l = none) {e : Entry} {es : List (Location × Entry)}
    (hes : es = (d.put l e).entries) : Unchanged d ({ d with entries := es }.erase l) := by
  have hne : ∀ k, d.get? k ≠ none → (!decide (k = l)) = true := fun k hk => by
    simpa using fun h : k = l => hk (h ▸ hfree)
  refine ⟨?_, rfl, rfl, fun k hk => lookup_filter_name (f := fun k => !decide (k = l)) (hne k hk) _, fun k hk => ?_⟩
  · rw [← erase_put_entries hl hfree e]
    simp [erase, hes]
  · simp only [stampOf, erase, lookup_filter_name (f := fun k => !decide (k = l)) (hne k hk)]

theorem unchanged_of_error {f : Fault} (h : d.replace p content = (.error f, d')) : Unchanged d d' := by
  unfold replace at h
  split at h
  · cases h
    exact .refl d
  next mode? hm =>
  split at h
  · cases h
    exact .refl d
  next loc ht =>
  obtain ⟨place, -, -, hfree, s, hloc⟩ := temporary_ok ht
  have hne : loc ≠ [] := by simp [hloc]
  simp only at h
  split at h
  · cases h
  · cases h
    cases mode? with
    | none => exact unchanged_erase hne hfree (put_put_entries ..)
    | some mode => exact unchanged_erase hne hfree ((put_put_entries ..).trans (put_put_entries ..))

/-- The bits that are passed on are those of the regular file that the path leads to. -/
theorem inheritedMode_getD {mode? : Option Nat} (h : d.inheritedMode p = .ok mode?) :
    mode?.getD privateMode = ((d.file? p).map (·.1)).getD 0o600 := by
  unfold inheritedMode at h
  unfold file?
  split at h
  · next hs =>
    cases h
    rw [hs]
    rfl
  · next e he hs =>
    cases h
    rw [hs]
    cases e with
    | file mode c => exact absurd rfl (he mode c)
    | _ => rfl
  · next hs =>
    cases h
    rw [hs]
    rfl
  · cases h

/-- A file is replaced or the disk is as it was. What is replaced is the entry that the path names, even a link. -/
theorem replace_all_or_nothing (hd : Tree d) (p : Path) (content : Bytes) :
    (∀ f d', d.replace p content = (.error f, d') → Unchanged d d') ∧
    ∀ d', d.replace p content = (.ok (), d') → ∃ dir n, d.locate p = .ok (.named dir n) ∧
      d'.get? (dir ++ [n]) = some (.file (((d.file? p).map (·.1)).getD 0o600) content) ∧
      (∀ l, l ≠ dir ++ [n] → d'.get? l = d.get? l) ∧ d'.cwd = d.cwd := by
  refine ⟨fun f d' h => unchanged_of_error h, fun d' h => ?_⟩
  rcases replace_cases hd p content with ⟨f, d₁, herr, -⟩ | ⟨dir, n, mode?, hr, hm⟩
  · cases h.symm.trans herr
  obtain ⟨d₁, hrep, hw⟩ := replace_of_replaceable hr hm content
  cases h.symm.trans hrep
  have hget : ∀ k, d'.get? k = (d.put (dir ++ [n]) (.file (mode?.getD privateMode) content)).get? k := fun k => by
    simp [get?, hw.entries]
  refine ⟨dir, n, hr.leads.locate, ?_, fun l hl => ?_, hw.cwd⟩
  · rw [hget, get?_put (by simp), if_pos rfl, inheritedMode_getD hm]
  · rw [hget, get?_put (by simp), if_neg hl]

namespace Linked

/-- Links to a file with bits of its own and to a directory, and a file that only its owner's writes reach. -/
def disk : Disk where
  entries := [(names "w", .dir 0o755),
    (names "w/real", .file 0o4751 "old"),
    (names "w/link", .link "real"),
    (names "w/dir", .dir 0o755),
    (names "w/dir/a.cpp", .file 0o644 []),
    (names "w/way", .link "dir"),
    (names "w/shut", .file 0o200 [])]
  cwd := names "w"

theorem tree : Tree disk := tree_of_entries (by decide +kernel)

end Linked

/-- A link is replaced itself, with the bits of what it led to, and a directory is not. -/
theorem replace_all_or_nothing_linked :
    (∃ d', Linked.disk.replace (.ofString "link") [] = (.ok (), d') ∧
      d'.get? (names (Bytes.ofString "w/link")) = some (.file 0o4751 []) ∧
      d'.get? (names (Bytes.ofString "w/real")) = some (.file 0o4751 (Bytes.ofString "old"))) ∧
    ∃ f d', Linked.disk.replace (.ofString "dir") [] = (.error f, d') ∧ Unchanged Linked.disk d' := by
  have answer : ∀ {x : Except Fault Unit × Disk} {r}, x.1 = r → ∃ d', x = (r, d') := fun {x _} h => ⟨x.2, by rw [← h]⟩
  constructor
  · obtain ⟨d', hd'⟩ := answer (show (Linked.disk.replace (.ofString "link") []).1 = .ok () by decide +kernel)
    obtain ⟨dir, n, hl, hnew, hother, -⟩ := (replace_all_or_nothing Linked.tree (.ofString "link") []).2 d' hd'
    have hplace : Linked.disk.locate (.ofString "link") = .ok (.named (names "w") "link") := by decide +kernel
    obtain ⟨rfl, rfl⟩ := Spot.named.inj (Except.ok.inj (hplace.symm.trans hl))
    have hmode : (Linked.disk.file? (.ofString "link")).map (·.1) = some 0o4751 := by decide +kernel
    rw [hmode] at hnew
    exact ⟨d', hd', hnew, (hother _ (by decide)).trans (by decide +kernel)⟩
  · obtain ⟨d', hd'⟩ :=
      answer (show (Linked.disk.replace (.ofString "dir") []).1 = .error .isDirectory by decide +kernel)
    exact ⟨_, d', hd', (replace_all_or_nothing Linked.tree (.ofString "dir") []).1 _ d' hd'⟩

end Prune.Disk
