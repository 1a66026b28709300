import Prune.Artefact
import Prune.Proofs.Spelling

/-!
# The names of artefacts

`markedName` is what `Artefact.marked` does to a file name. A mark holds no dot, so the last dots of
a marked name show where it was put: `markedName_inj` recovers both the mark and the name. Hence no
two files share a backup, a backup is never a trial project, and all of them are recognised as
artefacts and never taken for temporaries.
-/

namespace Prune

variable {p : Path}

namespace Path
variable {n s e : Bytes}

theorem splitLastDot_of_notMem (he : dot ∉ e) : splitLastDot e = none := by
  induction e with
  | nil => rfl
  | cons b e ih =>
    simp only [List.mem_cons, not_or] at he
    simp [splitLastDot, ih he.2, Ne.symm he.1]

theorem splitLastDot_append (s : Bytes) (he : dot ∉ e) : splitLastDot (s ++ dot :: e) = some (s, e) := by
  induction s with
  | nil => simp [splitLastDot, splitLastDot_of_notMem he]
  | cons b s ih => simp [splitLastDot, ih]

theorem splitLastDot_eq (n : Bytes) :
    (dot ∉ n ∧ splitLastDot n = none) ∨ ∃ s e, n = s ++ dot :: e ∧ dot ∉ e ∧ splitLastDot n = some (s, e) := by
  induction n with
  | nil => exact .inl ⟨by simp, rfl⟩
  | cons b n ih =>
    rcases ih with ⟨hn, h⟩ | ⟨s, e, rfl, he, h⟩
    · by_cases hb : b = dot
      · exact .inr ⟨[], n, by simp [hb], hn, by simp [splitLastDot, h, hb]⟩
      · exact .inl ⟨by simpa [Ne.symm hb] using hn, by simp [splitLastDot, h, hb]⟩
    · exact .inr ⟨b :: s, e, rfl, he, by simp [splitLastDot, h]⟩

theorem append_dot_inj {s s' e e' : Bytes} (he : dot ∉ e) (he' : dot ∉ e')
    (h : s ++ dot :: e = s' ++ dot :: e') : s = s' ∧ e = e' := by
  have := splitLastDot_append s he
  rw [h, splitLastDot_append s' he'] at this
  simpa [eq_comm] using this

/-- A name with an extension, or one without: then it has no dot but perhaps one in front. -/
theorem splitName_eq (n : Bytes) :
    (∃ s e, n = s ++ dot :: e ∧ s ≠ [] ∧ dot ∉ e ∧ splitName n = (s, some e)) ∨
      (dot ∉ n.tail ∧ splitName n = (n, none)) := by
  rcases splitLastDot_eq n with ⟨hn, h⟩ | ⟨s, e, rfl, he, h⟩
  · exact .inr ⟨fun hm => hn (List.mem_of_mem_tail hm), by simp [splitName, h]⟩
  · cases s with
    | nil => exact .inr ⟨by simpa using he, by rw [splitName, h]⟩
    | cons b s => exact .inl ⟨b :: s, e, rfl, by simp, he, by rw [splitName, h]⟩

theorem splitName_append (hs : s ≠ []) (he : dot ∉ e) : splitName (s ++ dot :: e) = (s, some e) := by
  cases s with
  | nil => exact absurd rfl hs
  | cons b s => rw [splitName, splitLastDot_append (b :: s) he]

end Path

namespace Artefact
open Prune.Path

/-- `name.ext` becomes `name.mark.ext`, and `name` becomes `name.mark`. -/
def markedName (mark n : Bytes) : Bytes :=
  match splitName n with
  | (stem, some ext) => stem ++ dot :: mark ++ dot :: ext
  | (stem, none) => stem ++ dot :: mark

theorem markedName_ext (mark : Bytes) {s e : Bytes} (hs : s ≠ []) (he : dot ∉ e) :
    markedName mark (s ++ dot :: e) = (s ++ dot :: mark) ++ dot :: e := by
  simp [markedName, splitName_append hs he]

theorem markedName_plain (mark : Bytes) {n : Bytes} (h : splitName n = (n, none)) :
    markedName mark n = n ++ dot :: mark := by
  simp [markedName, h]

theorem marked_eq (mark : Bytes) {n : Bytes} (h : p.fileName? = some n) :
    marked mark p = p.withFileName (markedName mark n) := by
  simp only [marked, stem?, extension?, h, Option.map_some, Option.getD_some, Option.bind_some, markedName]
  rcases splitName_eq n with ⟨s, e, -, -, -, hs⟩ | ⟨-, hs⟩ <;> simp [hs]

theorem stem_append_mark_ne {mark s n : Bytes} (hs : s ≠ []) (hn : dot ∉ n.tail) : s ++ dot :: mark ≠ n := by
  rintro rfl
  cases s with
  | nil => exact hs rfl
  | cons b s => simp at hn

/-- A marked name tells its mark and the name it was made of. -/
theorem markedName_inj {mark mark' n n' : Bytes} (hm : dot ∉ mark) (hm' : dot ∉ mark')
    (h : markedName mark n = markedName mark' n') : mark = mark' ∧ n = n' := by
  rcases splitName_eq n with ⟨s, e, rfl, hs, he, -⟩ | ⟨hn, hsp⟩ <;>
    rcases splitName_eq n' with ⟨s', e', rfl, hs', he', -⟩ | ⟨hn', hsp'⟩
  · rw [markedName_ext mark hs he, markedName_ext mark' hs' he'] at h
    obtain ⟨hstem, rfl⟩ := append_dot_inj he he' h
    obtain ⟨rfl, rfl⟩ := append_dot_inj hm hm' hstem
    exact ⟨rfl, rfl⟩
  · rw [markedName_ext mark hs he, markedName_plain mark' hsp'] at h
    exact absurd (append_dot_inj he hm' h).1 (stem_append_mark_ne hs hn')
  · rw [markedName_plain mark hsp, markedName_ext mark' hs' he'] at h
    exact absurd (append_dot_inj hm he' h).1.symm (stem_append_mark_ne hs' hn)
  · rw [markedName_plain mark hsp, markedName_plain mark' hsp'] at h
    exact (append_dot_inj hm hm' h).symm

theorem length_markedName (mark n : Bytes) : (markedName mark n).length = n.length + mark.length + 1 := by
  rcases splitName_eq n with ⟨s, e, rfl, hs, he, -⟩ | ⟨-, hsp⟩
  · rw [markedName_ext mark hs he]
    simp only [List.length_append, List.length_cons]
    omega
  · rw [markedName_plain mark hsp]
    simp only [List.length_append, List.length_cons]
    omega

/-- What is beside a file under a marked name is another one. -/
theorem ne_markedName (dir : List Bytes) (mark n : Bytes) : dir ++ [n] ≠ dir ++ [markedName mark n] := fun heq => by
  have hlen := congrArg List.length (List.singleton_inj.1 (List.append_cancel_left heq))
  rw [length_markedName] at hlen
  omega

theorem mem_markedName {mark n : Bytes} {b : UInt8} :
    b ∈ markedName mark n ↔ b ∈ n ∨ b ∈ mark ∨ b = dot := by
  rcases splitName_eq n with ⟨s, e, rfl, hs, he, -⟩ | ⟨-, hsp⟩
  · rw [markedName_ext mark hs he]
    simp only [List.mem_append, List.mem_cons]
    tauto
  · rw [markedName_plain mark hsp]
    simp only [List.mem_append, List.mem_cons]
    tauto

/-- What marks a name can also be the name of an entry. -/
structure IsMark (mark : Bytes) : Prop where
  dot : Path.dot ∉ mark
  slash : Path.slash ∉ mark
  zero : 0 ∉ mark
  long : 2 ≤ mark.length

theorem isMark_backup : IsMark backupMark := ⟨by decide, by decide, by decide, by decide⟩

theorem isMark_trial : IsMark trialMark := ⟨by decide, by decide, by decide, by decide⟩

theorem backup_ne_trial (n n' : Bytes) : markedName backupMark n ≠ markedName trialMark n' := fun h =>
  absurd (markedName_inj isMark_backup.dot isMark_trial.dot h).1 (by decide)

theorem isName_markedName {mark n : Bytes} (hm : IsMark mark) (hn : slash ∉ n) :
    Disk.IsName (markedName mark n) := by
  have hlen := length_markedName mark n
  have hlong := hm.long
  refine ⟨fun h => ?_, fun h => ?_, fun h => ?_, fun h => ?_⟩
  · simp [h] at hlen
  · rcases mem_markedName.1 h with h | h | h
    · exact hn h
    · exact hm.slash h
    · exact absurd h (by decide)
  · rw [h] at hlen
    simp only [List.length_cons, List.length_nil] at hlen
    omega
  · rw [h] at hlen
    simp only [List.length_cons, List.length_nil] at hlen
    omega

/-- Only the first byte of `t` is a dot, so it cannot reach over a later one. -/
theorem isPrefix_append_dot_iff {t s r : Bytes} (ht : dot ∉ t.tail) (hs : s ≠ []) :
    t <+: s ++ dot :: r ↔ t <+: s := by
  refine ⟨fun h => ?_, fun h => h.trans (List.prefix_append s _)⟩
  rcases List.prefix_or_prefix_of_prefix h (List.prefix_append s (dot :: r)) with h' | ⟨u, rfl⟩
  · exact h'
  · cases u with
    | nil => simp
    | cons b u =>
      rw [List.prefix_append_right_inj, List.cons_prefix_cons] at h
      refine absurd ?_ ht
      cases s with
      | nil => exact absurd rfl hs
      | cons a s => simp [h.1]

theorem temporaryMark_isPrefix_markedName {mark n : Bytes} (hn : n ≠ []) :
    temporaryMark <+: markedName mark n ↔ temporaryMark <+: n := by
  have ht : dot ∉ temporaryMark.tail := by decide
  rcases splitName_eq n with ⟨s, e, rfl, hs, he, -⟩ | ⟨-, hsp⟩
  · rw [markedName_ext mark hs he, isPrefix_append_dot_iff ht (by simp), isPrefix_append_dot_iff ht hs,
      isPrefix_append_dot_iff ht hs]
  · rw [markedName_plain mark hsp, isPrefix_append_dot_iff ht hn]

theorem isTemporary_iff {n : Bytes} (hp : p.fileName? = some n) :
    isTemporary p = true ↔ temporaryMark <+: n := by
  simp [isTemporary, hp]

theorem carries_markedName {mark n : Bytes} (hm : dot ∉ mark)
    (hp : p.fileName? = some (markedName mark n)) : carries mark p = true := by
  simp only [carries, extension?, stem?, hp, Option.map_some, Option.bind_some]
  rcases splitName_eq n with ⟨s, e, rfl, hs, he, -⟩ | ⟨hn, hsp⟩
  · rw [markedName_ext mark hs he, splitName_append (by simp) he]
    simp
  · rw [markedName_plain mark hsp]
    cases n with
    | nil =>
      rw [splitName, splitLastDot_append [] hm]
      simp
    | cons b n => rw [splitName_append (by simp) hm]; simp

theorem isArtefact_backup {n : Bytes} (hp : p.fileName? = some (markedName backupMark n)) :
    isArtefact p = true := by
  simp [isArtefact, carries_markedName isMark_backup.dot hp]

theorem isArtefact_trial {n : Bytes} (hp : p.fileName? = some (markedName trialMark n)) :
    isArtefact p = true := by
  simp [isArtefact, carries_markedName isMark_trial.dot hp]

end Artefact

end Prune
