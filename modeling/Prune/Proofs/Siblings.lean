import Prune.Proofs.Changes
import Prune.Proofs.PathOrder

/-!
# Artefacts beside their file

A path that ends in a name is that name in the directory its parent spells (`exists_dir`), so putting another name in
its place changes the last component and nothing else. With what is known of marked names this says of whole paths
that artefacts are told apart, are recognised, and stand beside what they are for.
-/

namespace Prune

namespace Path
open Bytes Disk
variable {p q dir : Path} {n m : Bytes}

theorem components_of_pieces {front : Bytes} {rest : List Bytes} (h : splitOn slash p.text = front :: rest) :
    p.components = p.frontComponents ++ (rest.filter (!isIdle ·)).map Component.ofPiece := by
  rw [components, Path.rest, h, List.tail_cons, filter_trimIdle]

theorem ofPiece_of_isName (hn : IsName n) : Component.ofPiece n = .name n := by simp [Component.ofPiece, hn.ne_dots]

theorem ofPiece_eq_name (h : Component.ofPiece m = .name n) : m = n ∧ n ≠ [dot, dot] := by
  unfold Component.ofPiece at h
  split at h
  · cases h
  · next hm =>
    cases h
    exact ⟨rfl, hm⟩

theorem frontComponents_congr (hf : p.front = q.front) (ha : p.isAbsolute = q.isAbsolute) :
    p.frontComponents = q.frontComponents := by
  simp [frontComponents, hf, ha]

section
variable {absolute : Bool} {front : Bytes} {rest : List Bytes} (hf : front = [] ↔ absolute = true)
  (hs : ∀ r ∈ front :: rest, slash ∉ r)
include hf hs

theorem splitOn_ofPieces : ∃ idle, splitOn slash (ofPieces absolute front rest).text = front :: (rest ++ idle) ∧
    ∀ r ∈ idle, isIdle r = true := by
  cases rest with
  | nil =>
    cases absolute with
    | true => exact ⟨[[]], by rw [hf.2 rfl]; rfl, by simp [isIdle]⟩
    | false => exact ⟨[], by simp [ofPieces, splitOn_of_notMem (hs front (by simp))], by simp⟩
  | cons r rest => exact ⟨[], by simp only [ofPieces, List.append_nil]; exact splitOn_joinWith (by simp) hs, by simp⟩

theorem front_ofPieces : (ofPieces absolute front rest).front = front := by
  obtain ⟨idle, h, -⟩ := splitOn_ofPieces hf hs
  simp [Path.front, h]

theorem isAbsolute_ofPieces : (ofPieces absolute front rest).isAbsolute = absolute := by
  rw [Bool.eq_iff_iff, isAbsolute_iff_head, Trim.head?_ofPieces hf hs]

theorem components_ofPieces : (ofPieces absolute front rest).components =
    (ofPieces absolute front rest).frontComponents ++ (rest.filter (!isIdle ·)).map Component.ofPiece := by
  obtain ⟨idle, h, hidle⟩ := splitOn_ofPieces hf hs
  have : idle.filter (!isIdle ·) = [] := List.filter_eq_nil_iff.2 fun r hr => by simp [hidle r hr]
  rw [components_of_pieces h, List.filter_append, this, List.append_nil]

end

theorem Trim.components_join (hq : Trim q) (hn : IsName n) : (q.join n).components = q.components ++ [.name n] := by
  have hn' : n.head? ≠ some slash := fun h => hn.slash (List.mem_of_mem_head? h)
  cases hq with
  | empty =>
    have ht : (Path.join ⟨[]⟩ n).text = n := by simp [join, hn']
    have hp : splitOn slash (Path.join ⟨[]⟩ n).text = [n] := by rw [ht, splitOn_of_notMem hn.slash]
    have ha : (Path.join ⟨[]⟩ n).isAbsolute = false := by simpa [isAbsolute, ht] using hn'
    rw [components_of_pieces hp, frontComponents, ha]
    simp [front, hp, hn.ne_nil, hn.ne_dot, ofPiece_of_isName hn]
    rfl
  | @pieces absolute front rest hf hs ht =>
    have hp := Trim.splitOn_join hf hs ht hn
    rw [List.cons_append] at hp
    have hfront : (join (ofPieces absolute front rest) n).front = front := by simp [Path.front, hp]
    have hne : (join (ofPieces absolute front rest) n).text ≠ [] := fun h => by
      rw [h] at hp
      simp [splitOn] at hp
    have ha : (join (ofPieces absolute front rest) n).isAbsolute = absolute := by
      have := front_eq_nil_iff (join (ofPieces absolute front rest) n)
      rw [hfront, or_iff_left hne, hf] at this
      exact (Bool.eq_iff_iff.2 this).symm
    have hsame := frontComponents_congr (hfront.trans (front_ofPieces hf hs).symm)
      (ha.trans (isAbsolute_ofPieces hf hs).symm)
    rw [components_of_pieces hp, hsame, components_ofPieces hf hs, List.filter_append, List.map_append,
      List.append_assoc]
    simp [isIdle_of_isName hn, ofPiece_of_isName hn]

/-- A path that ends in a name: the name, in the directory that the parent spells. -/
theorem exists_dir (h : p.fileName? = some n) :
    IsName n ∧ ∃ dir, p.parent? = some dir ∧ Trim dir ∧ p.components = dir.components ++ [.name n] := by
  have hlast : p.components.getLast? = some (.name n) := by
    unfold fileName? at h
    split at h
    · next heq =>
      cases h
      exact heq
    · cases h
  obtain ⟨f, ps, hp⟩ := List.exists_cons_of_ne_nil (splitOn_ne_nil slash p.text)
  have hfront : p.front = f := by simp [front, hp]
  have hslash : ∀ r ∈ f :: ps, slash ∉ r := fun r hr => notMem_of_mem_splitOn (hp ▸ hr)
  have hrest : p.rest = trimIdle ps := by simp [rest, hp]
  rcases List.eq_nil_or_concat p.rest with hr | ⟨as, m, hr⟩
  · -- the name is the first piece
    rw [components, hr, List.filter_nil, List.map_nil, List.append_nil] at hlast
    unfold frontComponents at hlast
    split at hlast
    · cases hlast
    next ha =>
    split at hlast
    · cases hlast
    next h0 =>
    split at hlast
    · cases hlast
    next h1 =>
    obtain ⟨rfl, hup⟩ := ofPiece_eq_name (Option.some.inj hlast)
    have hn : IsName p.front := ⟨h0, hfront ▸ hslash f (by simp), h1, hup⟩
    have hne : p.text ≠ [] := fun ht => h0 ((front_eq_nil_iff p).2 (.inr ht))
    refine ⟨hn, ⟨[]⟩, ?_, .empty, ?_⟩
    · simp [parent?, hr, ha, isEmpty, hne]
    · simp only [components, hr, frontComponents, ha, h0, h1, ofPiece_of_isName hn]
      rfl
  · rw [List.concat_eq_append] at hr
    have hidle : isIdle m = false := by
      have htrim : trimIdle p.rest = p.rest := by rw [hrest, trimIdle_trimIdle]
      exact ne_nil_of_mem_getLast? htrim (by rw [hr, List.getLast?_concat])
    rw [components, hr, List.filter_append, List.map_append, ← List.append_assoc] at hlast
    simp only [hidle, Bool.not_false, List.filter_cons_of_pos, List.filter_nil, List.map_cons, List.map_nil,
      List.getLast?_concat, Option.some.injEq] at hlast
    obtain ⟨rfl, hup⟩ := ofPiece_eq_name hlast
    obtain ⟨idle, hps, -⟩ := exists_eq_trimIdle_append ps
    have hmem : ∀ r ∈ f :: (as ++ [m]), slash ∉ r := fun r hr' => by
      refine hslash r ?_
      rcases List.mem_cons.1 hr' with rfl | hr'
      · exact List.mem_cons_self
      · rw [hps, ← hrest, hr]
        exact List.mem_cons_of_mem _ (List.mem_append_left _ hr')
    have hn : IsName m := ⟨fun h0 => by simp [isIdle, h0] at hidle, hmem m (by simp),
      fun h1 => by simp [isIdle, h1] at hidle, hup⟩
    have hne : p.text ≠ [] := fun ht => by simp [rest, ht, splitOn, trimIdle] at hr
    have hf : f = [] ↔ p.isAbsolute = true := by rw [← hfront, front_eq_nil_iff, or_iff_left hne]
    obtain ⟨cs, hcs, -⟩ := exists_eq_trimIdle_append as
    have hs : ∀ r ∈ f :: trimIdle as, slash ∉ r := fun r hr' => by
      refine hmem r ?_
      rcases List.mem_cons.1 hr' with rfl | hr'
      · exact List.mem_cons_self
      · rw [hcs]
        simp [hr']
    refine ⟨hn, ofPieces p.isAbsolute f (trimIdle as), ?_, .pieces hf hs (trimIdle_trimIdle as), ?_⟩
    · simp [parent?, hr, hfront]
    · rw [components_ofPieces hf hs, filter_trimIdle, components, hr,
        frontComponents_congr (hfront.trans (front_ofPieces hf hs).symm) (isAbsolute_ofPieces hf hs).symm]
      simp [hidle, ofPiece_of_isName hn]

/-- Another name in the place of the last one: beside it, and with that name. -/
theorem exists_withFileName (h : p.fileName? = some n) (hm : IsName m) :
    ∃ dir, p.parent? = some dir ∧ p.components = dir.components ++ [.name n] ∧ p.withFileName m = dir.join m ∧
      (dir.join m).components = dir.components ++ [.name m] ∧ (dir.join m).parent? = some dir ∧
      (dir.join m).fileName? = some m := by
  obtain ⟨-, dir, hp, ht, hc⟩ := exists_dir h
  refine ⟨dir, hp, hc, by simp [withFileName, h, hp], ht.components_join hm, ht.parent?_join hm, ?_⟩
  simp [fileName?, ht.components_join hm]

end Path

namespace Artefact
open Prune.Path Disk

variable {p q : Path} {n n' : Bytes} {mark mark' : Bytes}

theorem isArtefact_congr (h : p.fileName? = q.fileName?) : isArtefact p = isArtefact q := by
  simp only [isArtefact, carries, extension?, stem?, h]

/-- An artefact lies beside its file and is named after it. -/
theorem exists_marked (hm : IsMark mark) (h : p.fileName? = some n) :
    ∃ dir, p.parent? = some dir ∧ p.components = dir.components ++ [.name n] ∧ (marked mark p).parent? = some dir ∧
      (marked mark p).components = dir.components ++ [.name (markedName mark n)] ∧
      (marked mark p).fileName? = some (markedName mark n) := by
  have hn := (exists_dir h).1
  obtain ⟨dir, hp, hc, hw, hc', hp', hf⟩ := exists_withFileName h (isName_markedName hm hn.slash)
  rw [marked_eq mark h, hw]
  exact ⟨dir, hp, hc, hp', hc', hf⟩

theorem marked_inj (hm : IsMark mark) (hm' : IsMark mark') (hp : p.fileName? = some n) (hq : q.fileName? = some n')
    (h : (marked mark p).components = (marked mark' q).components) : mark = mark' ∧ p.components = q.components := by
  obtain ⟨dir, -, hc, -, hc₁, -⟩ := exists_marked hm hp
  obtain ⟨dir', -, hc', -, hc₂, -⟩ := exists_marked hm' hq
  rw [hc₁, hc₂] at h
  obtain ⟨hdir, hlast⟩ := List.append_inj' h rfl
  obtain ⟨rfl, rfl⟩ := markedName_inj hm.dot hm'.dot (by simpa using hlast)
  exact ⟨rfl, by rw [hc, hc', hdir]⟩

theorem isTemporary_marked (hm : IsMark mark) (hp : p.fileName? = some n) :
    isTemporary (marked mark p) = isTemporary p := by
  obtain ⟨dir, -, -, -, -, hf⟩ := exists_marked hm hp
  rw [Bool.eq_iff_iff, isTemporary_iff hf, isTemporary_iff hp,
    temporaryMark_isPrefix_markedName (exists_dir hp).1.ne_nil]

theorem isTemporary_join (hp : p.fileName? = some n) {s : Bytes} (hs : slash ∉ s) :
    ∃ dir, p.parent? = some dir ∧ isTemporary (dir.join (temporaryStart p ++ s)) = true := by
  have hstart : temporaryStart p = temporaryMark ++ (n ++ [dot]) := by simp [temporaryStart, hp]
  have hname : IsName (temporaryStart p ++ s) := by
    have hmark : slash ∉ temporaryMark ∧ 2 < temporaryMark.length := by decide
    have hn := (exists_dir hp).1.slash
    have hdot : slash ≠ dot := by decide
    rw [hstart]
    exact isName_of_length (by simp [hmark.1, hn, hdot, hs]) (by simp only [List.length_append]; omega)
  obtain ⟨dir, hd, -, -, -, -, hf⟩ := exists_withFileName hp hname
  refine ⟨dir, hd, (isTemporary_iff hf).2 ?_⟩
  rw [hstart, List.append_assoc]
  exact List.prefix_append ..

end Artefact

open Artefact

/-- The artefacts of files never collide, and are recognised. -/
theorem artefacts_apart_and_known (p q : Path) (hp : p.fileName? ≠ none) (hq : q.fileName? ≠ none) :
    ((backup p).same (backup q) = true → p.same q = true) ∧
    ((trial p).same (trial q) = true → p.same q = true) ∧
    (backup p).same (trial q) = false ∧
    isArtefact (backup p) = true ∧ isArtefact (trial p) = true ∧
    (backup p).parent? = p.parent? ∧ (trial p).parent? = p.parent? ∧
    isTemporary (backup p) = isTemporary p ∧ isTemporary (trial p) = isTemporary p ∧
    ∀ s, Path.slash ∉ s → ∃ dir, p.parent? = some dir ∧ isTemporary (dir.join (temporaryStart p ++ s)) = true := by
  obtain ⟨n, hn⟩ := Option.ne_none_iff_exists'.1 hp
  obtain ⟨n', hn'⟩ := Option.ne_none_iff_exists'.1 hq
  obtain ⟨dir, hdir, -, hb, -, hbn⟩ := exists_marked isMark_backup hn
  obtain ⟨dir', hdir', -, ht, -, htn⟩ := exists_marked isMark_trial hn
  simp only [Path.same, beq_iff_eq, beq_eq_false_iff_ne]
  refine ⟨fun h => (marked_inj isMark_backup isMark_backup hn hn' h).2,
    fun h => (marked_inj isMark_trial isMark_trial hn hn' h).2, fun h => ?_, isArtefact_backup hbn,
    isArtefact_trial htn, hb.trans hdir.symm, ht.trans hdir'.symm, isTemporary_marked isMark_backup hn,
    isTemporary_marked isMark_trial hn, fun s hs => isTemporary_join hn hs⟩
  exact absurd (marked_inj isMark_backup isMark_trial hn hn' h).1 (by decide)

/-- Two spellings of one file, without an extension and with a mark in its name. -/
theorem artefacts_apart_and_known_spellings :
    let p := Path.ofString "a/.//.sweeper-tmp-x.sweeper-backup/."
    let q := Path.ofString "a/.sweeper-tmp-x.sweeper-backup"
    (backup p).same (backup q) = true ∧ p.same q = true ∧ isTemporary (backup p) = true := by
  intro p q
  obtain ⟨hinj, -, -, -, -, -, -, htemp, -⟩ := artefacts_apart_and_known p q (by decide) (by decide)
  have h : (backup p).same (backup q) = true := by decide +kernel
  exact ⟨h, hinj h, htemp.trans (by decide)⟩

end Prune
