import Prune.Proofs.Deeds
import Prune.Proofs.Listing

/-!
# The deeds of a search for sources

The search returns the list of the sources as the disk stands when it begins (`Sources.listed`), and takes
temporaries away on its way: all that can be taken away, if it comes to its end (`find_deeds`).
-/

namespace Prune

open Disk Artefact

variable {d : Disk} {p : Path} {l : Location} {o : Oracle} {h : Host} {ds : List Deed} {w : World}

/-- A temporary under `root` that can be taken away. -/
def Litter (d : Disk) (root : Path) (l : Location) : Prop :=
  ∃ p dir n, Spells d root p l ∧ isTemporary p = true ∧ Removable d p dir n ∧ l = dir ++ [n]

/-- Temporaries that were met and can be taken away. -/
def MetLitter (d : Disk) (found : List Found) (l : Location) : Prop :=
  ∃ p dir n, ⟨p, .file⟩ ∈ found ∧ isTemporary p = true ∧ Removable d p dir n ∧ l = dir ++ [n]

theorem metLitter_cons {f : Found} {found : List Found} : MetLitter d (f :: found) l ↔
    (f.kind = .file ∧ isTemporary f.path = true ∧ ∃ dir n, Removable d f.path dir n ∧ l = dir ++ [n]) ∨
      MetLitter d found l := by
  obtain ⟨path, kind⟩ := f
  constructor
  · rintro ⟨p, dir, n, hm, ht, hr, hl⟩
    rcases List.mem_cons.1 hm with hf | hm
    · cases hf
      exact .inl ⟨rfl, ht, dir, n, hr, hl⟩
    · exact .inr ⟨p, dir, n, hm, ht, hr, hl⟩
  · rintro (⟨rfl, ht, dir, n, hr, hl⟩ | ⟨p, dir, n, hm, ht, hr, hl⟩)
    · exact ⟨path, dir, n, by simp, ht, hr, hl⟩
    · exact ⟨p, dir, n, by simp [hm], ht, hr, hl⟩

theorem after_of_erases (v : View) {es : List Deed} (hes : ∀ e ∈ es, ∃ l, e = .erase l) (l : Location) :
    after v es l = v l ∨ after v es l = none := by
  refine after_of_erasing (fun e he hl => ?_) v
  obtain ⟨k, rfl⟩ := hes e he
  rw [Option.some.inj hl]

theorem Trail.discard (t : Trail o h ds w)
    (hv : ∀ dir n e, Removable h.disk p dir n → after h.disk.get? ds (dir ++ [n]) = some e → bone (some e) = none) :
    ∃ es w', Trail o h (ds ++ es) w' ∧ Work.on (Sources.discard p) w = ((), w') ∧
      (∀ e ∈ es, ∃ dir n, e = .erase (dir ++ [n]) ∧ Removable h.disk p dir n) ∧
      ∀ dir n, Removable h.disk p dir n → after h.disk.get? (ds ++ es) (dir ++ [n]) = none := by
  by_cases hr : ∃ dir n e, Removable h.disk p dir n ∧ after h.disk.get? ds (dir ++ [n]) = some e
  · obtain ⟨dir, n, e, hr, he⟩ := hr
    obtain ⟨w', hrm, t'⟩ := t.remove hr he (hv dir n e hr he)
    refine ⟨_, _, t'.emit ⟨.warn, Sources.target, "removed temporary left by an interrupted write",
      [("path", .path p)]⟩, ?_, ?_, ?_⟩
    · simp only [Sources.discard, Work.on_bind, hrm]
      rfl
    · intro e he
      exact ⟨dir, n, List.mem_singleton.1 he, hr⟩
    · intro dir' n' hr'
      obtain ⟨rfl, rfl⟩ := hr.leads.unique hr'.leads
      simp [Deed.apply]
  · have hnone : ∀ dir n, Removable h.disk p dir n → after h.disk.get? ds (dir ++ [n]) = none := by
      intro dir n hr'
      cases he : after h.disk.get? ds (dir ++ [n]) with
      | none => rfl
      | some e => exact absurd ⟨dir, n, e, hr', he⟩ hr
    obtain ⟨f, hrm⟩ := t.remove_error hnone
    refine ⟨[], _, by simpa using t.emit ⟨.warn, Sources.target,
      "failed to remove temporary left by an interrupted write", [("path", .path p), ("error", .shown f.message)]⟩,
      ?_, by simp, by simpa using hnone⟩
    simp only [Sources.discard, Work.on_bind, hrm]
    rfl

theorem sift_deeds (extensions : List Bytes) (found : List Found) (t : Trail o h ds w)
    (hv : ∀ l e, MetLitter h.disk found l → after h.disk.get? ds l = some e → bone (some e) = none) :
    ∃ es w', Trail o h (ds ++ es) w' ∧
      Work.on (Sources.sift extensions found) w = (Sources.sifted extensions found, w') ∧
      (∀ e ∈ es, ∃ l, e = .erase l ∧ MetLitter h.disk found l) ∧
      ∀ files, Sources.sifted extensions found = .ok files →
        ∀ l, MetLitter h.disk found l → after h.disk.get? (ds ++ es) l = none := by
  induction found generalizing ds w with
  | nil => exact ⟨[], w, by simpa using t, rfl, by simp, fun _ _ l hl => by simp [MetLitter] at hl⟩
  | cons f found ih =>
    have ih' := ih t fun l e hl => hv l e (metLitter_cons.2 (.inr hl))
    rw [Sources.sift, Sources.sifted]
    by_cases hc : f.kind = .closed
    · rw [if_pos hc, if_pos hc]
      exact ⟨[], w, by simpa using t, rfl, by simp, fun _ hs => by cases hs⟩
    rw [if_neg hc, if_neg hc]
    by_cases ho : f.kind = .other
    · rw [if_pos ho, if_pos ho]
      simpa only [metLitter_cons, ho, reduceCtorEq, false_and, false_or] using ih'
    rw [if_neg ho, if_neg ho]
    have hf : f.kind = .file := by cases hk : f.kind <;> simp_all
    by_cases hu : (!Utf8.isValid f.path.text) = true
    · rw [if_pos hu, if_pos hu]
      exact ⟨[], w, by simpa using t, rfl, by simp, fun _ hs => by cases hs⟩
    rw [if_neg hu, if_neg hu]
    by_cases ht : isTemporary f.path = true
    · rw [if_pos ht, if_pos ht]
      obtain ⟨es, w₁, t₁, hrun, hes, hgone⟩ := t.discard (p := f.path) fun dir n e hr =>
        hv _ e (metLitter_cons.2 (.inl ⟨hf, ht, dir, n, hr, rfl⟩))
      have herase : ∀ e ∈ es, ∃ l, e = .erase l := fun e he => by
        obtain ⟨dir, n, rfl, -⟩ := hes e he
        exact ⟨_, rfl⟩
      obtain ⟨es', w₂, t₂, hrun', hes', hgone'⟩ := ih t₁ fun l e hl he => by
        rw [after_append] at he
        rcases after_of_erases (after h.disk.get? ds) herase l with h' | h'
        · exact hv l e (metLitter_cons.2 (.inr hl)) (h'.symm.trans he)
        · rw [h'] at he
          cases he
      refine ⟨es ++ es', w₂, by simpa using t₂, ?_, ?_, ?_⟩
      · simp only [Work.on_bind, hrun, hrun']
      · intro e he
        rcases List.mem_append.1 he with he | he
        · obtain ⟨dir, n, rfl, hr⟩ := hes e he
          exact ⟨_, rfl, metLitter_cons.2 (.inl ⟨hf, ht, dir, n, hr, rfl⟩)⟩
        · obtain ⟨l, rfl, hl⟩ := hes' e he
          exact ⟨l, rfl, metLitter_cons.2 (.inr hl)⟩
      · intro files hs l hl
        rw [← List.append_assoc]
        rcases metLitter_cons.1 hl with ⟨-, -, dir, n, hr, rfl⟩ | hl
        · have herase' : ∀ e ∈ es', ∃ l, e = .erase l := fun e he => by
            obtain ⟨l, rfl, -⟩ := hes' e he
            exact ⟨l, rfl⟩
          rw [after_append]
          exact (after_of_erases _ herase' _).elim (fun h' => h'.trans (hgone dir n hr)) id
        · exact hgone' files hs l hl
    · rw [if_neg ht, if_neg ht]
      obtain ⟨es, w₁, t₁, hrun, hes, hgone⟩ := ih'
      refine ⟨es, w₁, t₁, ?_, ?_, ?_⟩
      · simp only [Work.on_bind, hrun]
        cases Sources.sifted extensions found <;> rfl
      · simpa only [metLitter_cons, ht, Bool.false_eq_true, false_and, and_false, false_or] using hes
      · intro files hs l hl
        simp only [metLitter_cons, ht, Bool.false_eq_true, false_and, and_false, false_or] at hl
        cases hsift : Sources.sifted extensions found with
        | error e => rw [hsift] at hs; cases hs
        | ok fs => exact hgone fs hsift l hl

theorem bone_of_isFile {e : Entry} (he : e.isFile = true) : bone (some e) = none := by
  cases e <;> first | rfl | cases he

/-- The search along what a walk met, in the order it was met. -/
def Sources.findAlong (extensions : List Bytes) (found : List Found) : Work (Except Sources.Problem (List Path)) := do
  match ← Sources.sift extensions found with
  | .error e => return .error e
  | .ok files => return .ok (sortBy Path.le files)

theorem Sources.on_find (root : Path) (extensions : List Bytes) (w : World) :
    Work.on (Sources.find root extensions) w =
      match w.disk.walk root with
      | .error f => (.error (.walk root f), w)
      | .ok found => Work.on (Sources.findAlong extensions found) w := by
  simp only [Sources.find, Work.on_bind, Work.on_disk]
  cases w.disk.walk root <;> rfl

/-- Whatever the order in which the walk met them, temporaries go and nothing else does. -/
theorem findAlong_deeds (hd : Tree h.disk) {root : Path} {found order : List Found}
    (hw : w.disk.walk root = .ok found) (ho : order.Perm found) (extensions : List Bytes) (t : Trail o h ds w) :
    ∃ es w', Trail o h (ds ++ es) w' ∧
      Work.on (Sources.findAlong extensions order) w = ((Sources.sifted extensions order).map (sortBy Path.le), w') ∧
      (∀ e ∈ es, ∃ l e', e = .erase l ∧ Litter h.disk root l ∧ after h.disk.get? ds l = some e' ∧ e'.isFile = true) ∧
      ∀ files, Sources.sifted extensions order = .ok files → ∀ l e', Litter h.disk root l →
        after h.disk.get? ds l = some e' → e'.isFile = true → after h.disk.get? (ds ++ es) l = none := by
  have hmet : ∀ l, MetLitter h.disk order l → Litter h.disk root l ∧
      ∃ e, after h.disk.get? ds l = some e ∧ e.isFile = true := by
    rintro _ ⟨p, dir, n, hm, ht, hr, rfl⟩
    obtain ⟨l, e, hsp, hg, he⟩ := Sources.spells_of_met t.now.tree hw (ho.mem_iff.1 hm)
    obtain rfl := hsp.eq_of_names t.now.tree hg (hr.leads.alike t.now.alike).walks
    exact ⟨⟨p, dir, n, hsp.alike t.now.alike.symm t.now.tree hd, ht, hr, rfl⟩, e, by rw [← t.now.view, hg], he⟩
  obtain ⟨es, w', t', hrun, hes, hgone⟩ := sift_deeds extensions order t fun l e hl he => by
    obtain ⟨-, e', he', hf⟩ := hmet l hl
    rw [he] at he'
    cases he'
    exact bone_of_isFile hf
  refine ⟨es, w', t', ?_, fun e he => ?_, fun files hs l e' hl he' hf => ?_⟩
  · simp only [Sources.findAlong, Work.on_bind, hrun]
    cases Sources.sifted extensions order <;> rfl
  · obtain ⟨l, rfl, hl⟩ := hes e he
    obtain ⟨hl', e', he', hf⟩ := hmet l hl
    exact ⟨l, e', rfl, hl', he', hf⟩
  · obtain ⟨p, dir, n, hsp, ht, hr, rfl⟩ := hl
    refine hgone files hs _ ⟨p, dir, n, ho.mem_iff.2 ?_, ht, hr, rfl⟩
    exact Sources.met_of_spells t.now.tree hw (fun f hf => Sources.clear_of_sifted hs f (ho.mem_iff.2 hf))
      (hsp.alike t.now.alike hd t.now.tree) (by rw [t.now.view, he']) hf

/-- Finding the sources: the list as the disk stands, and what temporaries there are go. -/
theorem find_deeds (hd : Tree h.disk) (root : Path) (extensions : List Bytes) (t : Trail o h ds w) :
    ∃ es w', Trail o h (ds ++ es) w' ∧
      Work.on (Sources.find root extensions) w = (Sources.listed w.disk root extensions, w') ∧
      (∀ e ∈ es, ∃ l e', e = .erase l ∧ Litter h.disk root l ∧ after h.disk.get? ds l = some e' ∧ e'.isFile = true) ∧
      ∀ files, Sources.listed w.disk root extensions = .ok files → ∀ l e', Litter h.disk root l →
        after h.disk.get? ds l = some e' → e'.isFile = true → after h.disk.get? (ds ++ es) l = none := by
  rw [Sources.on_find, Sources.listed]
  cases hw : w.disk.walk root with
  | error f => exact ⟨[], w, by simpa using t, rfl, by simp, fun files hs => by cases hs⟩
  | ok found =>
    obtain ⟨es, w', t', hrun, hes, hgone⟩ := findAlong_deeds hd hw (.refl found) extensions t
    refine ⟨es, w', t', hrun, hes, fun files hs => ?_⟩
    cases hsift : Sources.sifted extensions found with
    | error e => simp [hsift, Except.map] at hs
    | ok fs => exact hgone fs hsift

end Prune
