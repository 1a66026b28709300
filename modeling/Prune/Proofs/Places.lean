import Prune.Proofs.Siblings

/-!
# Places of paths where there are no links

Where no link stands a path names the same location on every disk with the same working directory, whatever becomes
of the directories on the way: its components are followed one by one (`Path.place`). The backups of two files have the
same place only if the files have, and a file that is no artefact never stands in the place of a backup.
-/

namespace Prune

open Bytes Prune.Path Disk

/-- One component on from a location. -/
def Component.move (l : Location) : Component → Location
  | .root => []
  | .here => l
  | .up => l.dropLast
  | .name n => l ++ [n]

/-- The location a path names. -/
def Path.place (cwd : Location) (p : Path) : Location := p.components.foldl Component.move cwd

/-- The same by the name of a step. -/
def Disk.move (l : Location) (n : Bytes) : Location :=
  if n = [dot] then l else if n = [dot, dot] then l.dropLast else l ++ [n]

variable {d : Disk} {p q : Path} {cwd here l dir : Location} {n m : Bytes}

theorem Disk.move_of_isName (hn : IsName n) (l : Location) : Disk.move l n = l ++ [n] := by
  simp [Disk.move, hn.ne_dot, hn.ne_dots]

theorem Component.move_ofPiece (hn : n ≠ [dot]) (l : Location) : Component.move l (Component.ofPiece n) = Disk.move l n := by
  unfold Component.ofPiece Disk.move
  split <;> simp [Component.move, *]

theorem foldl_move_pieces (ps : List Bytes) (l : Location) :
    ((ps.filter (!isIdle ·)).map Component.ofPiece).foldl Component.move l =
      (ps.filter (!·.isEmpty)).foldl Disk.move l := by
  induction ps generalizing l with
  | nil => rfl
  | cons b ps ih =>
    by_cases hb : b = []
    · have hi : isIdle b = true := isIdle_iff.2 (.inl hb)
      simp [hb ▸ hi, hb, ih]
    by_cases hd : b = [dot]
    · have hi : isIdle b = true := isIdle_iff.2 (.inr hd)
      simp [hd ▸ hi, hd, Disk.move, ih]
    · have hi : isIdle b = false := by simp [Bool.eq_false_iff, isIdle_iff, hb, hd]
      simp [hi, hb, Component.move_ofPiece hd, ih]

theorem Path.place_eq (cwd : Location) (p : Path) : p.place cwd = (names p.text).foldl Disk.move (origin cwd p.text) := by
  obtain ⟨f, ps, hp⟩ := List.exists_cons_of_ne_nil (splitOn_ne_nil slash p.text)
  have hfront : p.front = f := by simp [front, hp]
  have hnil : f = [] → p.isAbsolute = true ∨ p.text = [] := fun h0 => (front_eq_nil_iff p).1 (hfront.trans h0)
  rw [place, components_of_pieces hp, List.foldl_append, names, hp, foldl_move_pieces, frontComponents, hfront]
  by_cases ha : p.isAbsolute = true
  · have h0 : f = [] := hfront ▸ (front_eq_nil_iff p).2 (.inl ha)
    simp [ha, h0, origin, (isAbsolute_iff_head p).1 ha, Component.move]
  have hhead : p.text.head? ≠ some slash := fun h => ha ((isAbsolute_iff_head p).2 h)
  by_cases h0 : f = []
  · simp [ha, h0, origin, hhead]
  by_cases h1 : f = [dot]
  · simp [ha, h1, origin, hhead, Component.move, Disk.move]
  · simp [ha, h0, h1, origin, hhead, Component.move_ofPiece h1]

theorem Disk.Walks.place (hl : LinkFree d) {k k' : Nat} {xs : List Bytes} (h : Walks d k here xs k' l) :
    l = xs.foldl Disk.move here := by
  induction h with
  | nil => rfl
  | dot _ _ ih | up _ _ ih => simpa [Disk.move] using ih
  | dir _ hd hu _ _ _ ih => simpa [Disk.move, hd, hu] using ih
  | link _ _ _ _ hg => exact absurd hg (hl _ _)

theorem Disk.Leads.place (h : Leads d p dir n) (hl : LinkFree d) : p.place d.cwd = dir ++ [n] := by
  obtain ⟨xs, k, hx, hw⟩ := h.walks
  rw [place_eq, hx, List.foldl_append, ← hw.place hl]
  exact move_of_isName h.name dir

theorem Path.place_join (cwd : Location) (p : Path) (hn : IsName n) : (p.join n).place cwd = p.place cwd ++ [n] := by
  rw [place_eq, place_eq, names_join p (head?_ne_slash hn), origin_join cwd p (head?_ne_slash hn), names_of_isName hn,
    List.foldl_append]
  exact move_of_isName hn _

theorem Path.fileName?_join (p : Path) (hn : IsName n) : (p.join n).fileName? = some n := by
  have hx : names (p.join n).text = names p.text ++ [n] := by
    rw [names_join p (head?_ne_slash hn), names_of_isName hn]
  exact (exists_parent hx hn).1

namespace Artefact

def bareBackup : Bytes := dot :: backupMark

theorem backup_of_none (h : p.fileName? = none) : backup p = p.join bareBackup := by
  simp [backup, marked, extension?, stem?, h, withFileName, bareBackup]

theorem place_backup (cwd : Location) (p : Path) :
    (∃ dir n, IsName n ∧ p.place cwd = dir ++ [n] ∧ (backup p).place cwd = dir ++ [markedName backupMark n] ∧
      (backup p).fileName? = some (markedName backupMark n)) ∨
    (backup p).place cwd = p.place cwd ++ [bareBackup] ∧ (backup p).fileName? = some bareBackup := by
  cases h : p.fileName? with
  | none =>
    have hn : IsName bareBackup := isName_of_length (by decide) (by decide)
    rw [backup_of_none h]
    exact .inr ⟨place_join cwd p hn, fileName?_join p hn⟩
  | some n =>
    obtain ⟨dir, -, hc, -, hb, hf⟩ := exists_marked isMark_backup h
    refine .inl ⟨dir.place cwd, n, (exists_dir h).1, ?_, ?_, hf⟩
    · simp [place, hc, Component.move]
    · simp only [place, backup, hb, List.foldl_append, List.foldl_cons, List.foldl_nil, Component.move]

theorem isArtefact_backup_self (p : Path) : isArtefact (backup p) = true := by
  rcases place_backup [] p with ⟨dir, n, -, -, -, hf⟩ | ⟨-, hf⟩
  · exact isArtefact_backup hf
  · simp only [isArtefact, carries, extension?, stem?, hf]
    decide

theorem place_eq_of_backup (h : (backup p).place cwd = (backup q).place cwd) : p.place cwd = q.place cwd := by
  have hne : ∀ n, IsName n → markedName backupMark n ≠ bareBackup := by
    intro n hn h
    have hlen := congrArg List.length h
    rw [length_markedName, bareBackup, List.length_cons] at hlen
    exact hn.ne_nil (List.length_eq_zero_iff.1 (by omega))
  rcases place_backup cwd p with ⟨dir, n, hn, hp, hb, -⟩ | ⟨hb, -⟩ <;>
    rcases place_backup cwd q with ⟨dir', n', hn', hq, hb', -⟩ | ⟨hb', -⟩ <;>
    rw [hb, hb'] at h <;> obtain ⟨hdir, hlast⟩ := List.append_inj' h rfl
  · obtain ⟨-, rfl⟩ := markedName_inj isMark_backup.dot isMark_backup.dot (by simpa using hlast)
    rw [hp, hq, hdir]
  · exact absurd (by simpa using hlast) (hne n hn)
  · exact absurd (by simpa using hlast.symm) (hne n' hn')
  · exact hdir

theorem place_ne_backup (h : Leads d q dir n) (hq : isArtefact q = false) (cwd : Location) (p : Path) :
    dir ++ [n] ≠ (backup p).place cwd := by
  intro heq
  obtain ⟨m, hm, hf⟩ : ∃ m, (backup p).place cwd = ((backup p).place cwd).dropLast ++ [m] ∧
      (backup p).fileName? = some m := by
    rcases place_backup cwd p with ⟨dir, n, -, -, hb, hf⟩ | ⟨hb, hf⟩
    · exact ⟨_, by rw [hb, List.dropLast_concat], hf⟩
    · exact ⟨_, by rw [hb, List.dropLast_concat], hf⟩
  obtain rfl : n = m := by simpa using (List.append_inj' (heq.trans hm) rfl).2
  rw [isArtefact_congr (h.fileName?.trans hf.symm), isArtefact_backup_self] at hq
  cases hq

end Artefact

end Prune
