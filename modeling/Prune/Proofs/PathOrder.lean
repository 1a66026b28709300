import Mathlib.Data.List.Lex
import Mathlib.Order.Lex
import Prune.Proofs.Spelling
import Prune.Sweep

/-!
# The order of paths

Paths are ordered by their components, and the components of a path are the names it goes through,
but for `.` (`filterMap_piece?_components`). A list that is strictly sorted is known by what it
holds, and a marker in it is found where it stands (`drop_resumeIndex`).
-/

namespace Prune

theorem Component.key_injective : Function.Injective Component.key := by
  intro a b h
  cases a <;> cases b <;> simp [Component.key] at h ⊢
  exact List.map_injective_iff.2 (fun _ _ => UInt8.toNat_inj.1) h

/-- The piece of a path that a component stands for, if it leads anywhere else. -/
def Component.piece? : Component → Option Bytes
  | .name n => some n
  | .up => some [Path.dot, Path.dot]
  | _ => none

namespace Path
open Bytes Disk
variable {p q r : Path}

theorem piece?_ofPiece (b : Bytes) : (Component.ofPiece b).piece? = some b := by
  unfold Component.ofPiece
  split
  · next h => rw [h]; rfl
  · rfl

theorem filter_trimIdle (ps : List Bytes) : (trimIdle ps).filter (!isIdle ·) = ps.filter (!isIdle ·) := by
  obtain ⟨bs, hbs, hidle⟩ := exists_eq_trimIdle_append ps
  have : bs.filter (!isIdle ·) = [] := List.filter_eq_nil_iff.2 fun b hb => by simp [hidle b hb]
  conv_rhs => rw [hbs, List.filter_append, this, List.append_nil]

theorem filterMap_piece?_components (p : Path) :
    p.components.filterMap Component.piece? = (names p.text).filter (· ≠ [dot]) := by
  have hfilter : (names p.text).filter (· ≠ [dot]) = (splitOn slash p.text).filter (!isIdle ·) := by
    rw [names, List.filter_filter]
    refine List.filter_congr fun b _ => ?_
    rw [Bool.eq_iff_iff]
    simp [isIdle, and_comm]
  have hmap : ∀ ps : List Bytes, (ps.map Component.ofPiece).filterMap Component.piece? = ps := by
    intro ps
    rw [List.filterMap_map, show Component.piece? ∘ Component.ofPiece = some from funext piece?_ofPiece,
      List.filterMap_some]
  have hfront : p.frontComponents.filterMap Component.piece? = [p.front].filter (!isIdle ·) := by
    have hf := front_eq_nil_iff p
    unfold frontComponents
    split
    · next ha => rw [hf.2 (.inl ha)]; rfl
    · split
      · next h0 => rw [h0]; rfl
      · next h0 =>
        split
        · next h1 => rw [h1]; rfl
        · next h1 => simp [piece?_ofPiece, isIdle, h0, h1]
  cases hs : splitOn slash p.text with
  | nil => exact absurd hs (splitOn_ne_nil _ _)
  | cons f fs =>
    rw [components, List.filterMap_append, hmap, hfront, rest, filter_trimIdle, hfilter, front, hs,
      ← List.filter_append]
    rfl

theorem lt_iff : p.lt q = true ↔ p.key < q.key := by simp [lt]

theorem lt_irrefl (p : Path) : p.lt p = false := by simp [lt]

theorem lt_trans (h : p.lt q = true) (h' : q.lt r = true) : p.lt r = true :=
  lt_iff.2 ((lt_iff.1 h).trans (lt_iff.1 h'))

theorem lt_asymm (h : p.lt q = true) : q.lt p = false := by
  rw [Bool.eq_false_iff]
  exact fun h' => absurd (lt_trans h h') (by simp [lt_irrefl])

theorem le_iff : p.le q = true ↔ p.key ≤ q.key := by simp [le, lt]

theorem le_trans (p q r : Path) (h : p.le q = true) (h' : q.le r = true) : p.le r = true :=
  le_iff.2 ((le_iff.1 h).trans (le_iff.1 h'))

theorem le_total (p q : Path) : p.le q = true ∨ q.le p = true := by
  rcases lt_or_ge p.key q.key with h | h
  · exact .inl (le_iff.2 h.le)
  · exact .inr (le_iff.2 h)

theorem components_eq_of_key_eq (h : p.key = q.key) : p.components = q.components :=
  List.map_injective_iff.2 Component.key_injective h

end Path

theorem eq_of_pairwise_lt {xs ys : List Path} (hx : xs.Pairwise fun p q => p.lt q = true)
    (hy : ys.Pairwise fun p q => p.lt q = true) (h : ∀ p, p ∈ xs ↔ p ∈ ys) : xs = ys := by
  have nodup : ∀ {zs : List Path}, (zs.Pairwise fun p q => p.lt q = true) → zs.Nodup := fun hz =>
    hz.imp fun hab he => by simp [he, Path.lt_irrefl] at hab
  refine List.Perm.eq_of_pairwise (fun p q _ _ hpq hqp => ?_) hx hy
    ((List.perm_ext_iff_of_nodup (nodup hx) (nodup hy)).2 h)
  simp [Path.lt_asymm hpq] at hqp

theorem Sweep.drop_resumeIndex {before after : List Path} {marker : Path}
    (h : (before ++ marker :: after).Pairwise fun p q => p.lt q = true) :
    (before ++ marker :: after).drop (resumeIndex (before ++ marker :: after) (some marker)) = marker :: after := by
  obtain ⟨-, hafter, hbefore⟩ := List.pairwise_append.1 h
  have : resumeIndex (before ++ marker :: after) (some marker) = before.length := by
    refine partitionPoint_append (fun p hp => hbefore p hp marker (by simp)) fun p hp => ?_
    rcases List.mem_cons.1 hp with rfl | hp
    · exact Path.lt_irrefl p
    · exact Path.lt_asymm ((List.pairwise_cons.1 hafter).1 p hp)
  rw [this, List.drop_left]

end Prune
