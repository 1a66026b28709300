import Prune.Proofs.Histories

/-!
# Only candidate lines are lost

However many runs there were, with whatever verdicts and cut off wherever: each source holds what it held
in the beginning, less some of its candidate lines (`only_candidates_lost`). Only where a pass was cut off,
some candidate lines of what it began with are blank, and the backup has that.
-/

namespace Prune

open Disk Artefact Lines Workshop

variable {d d' : Disk} {p q : Path} {v : View} {s : Settings} {files : List Path} {c₀ : Bytes} {o : Oracle} {h : Host}
  {w : World} {x : Lot} {marker : Option Path} {back es : List Deed}

theorem MarksAt.alike (ha : Alike d d') (hp : MarksAt d s v p) : MarksAt d' s v p := by
  obtain ⟨hslash, dir, n, hl, hm⟩ := hp
  exact ⟨hslash, dir, n, hl.alike ha, hm⟩

theorem MarksAt.unique (hp : MarksAt d s v p) (hq : MarksAt d s v q) : p = q := by
  obtain ⟨-, dir, n, hl, mode, hp⟩ := hp
  obtain ⟨-, dir', n', hl', mode', hq⟩ := hq
  obtain ⟨rfl, rfl⟩ := hl.unique hl'
  rw [hp] at hq
  simp only [Option.some.injEq, Entry.file.injEq] at hq
  exact congrArg Path.mk hq.2

theorem Kept.isLot_of_marks (hf : Footing d s files) (ha : Aloof d s) (hk : Kept d s files v) (hp : p ∈ files)
    (hm : MarksAt d s v p) : ∃ x : Lot, x.In d d.get? ∧ x.path = p := by
  obtain ⟨hslash, dir, n, hl, mode, hg⟩ := hm
  obtain ⟨_, _, ⟨⟩, -, -, hsays⟩ := hk.progress hslash dir n hl _ hg
  rw [(source_marker hf ha hp).2] at hsays
  rcases hsays with h | h | ⟨q, hq, htext, -⟩
  · cases h
  · cases h
  · obtain rfl : p = q := congrArg Path.mk htext
    exact hq.2

theorem Kept.thinned (hf : Footing d s files) (hk : Kept d s files v) (ht : Turned d v d') (hp : p ∈ files)
    (hc₀ : d.content? p = some c₀) (hrest : ∀ x : Lot, x.In d d.get? → x.path = p → x.Rests s.matcher v) :
    ∃ c, d'.content? p = some c ∧ Thinned s.matcher .dropped c₀ c := by
  have hs := hf.scene
  by_cases hlot : ∃ x : Lot, x.In d d.get? ∧ x.path = p
  · obtain ⟨x, hx, rfl⟩ := hlot
    obtain ⟨-, c, hlive, hthin⟩ := hrest x hx rfl
    obtain rfl : x.content = c₀ := Option.some.inj ((hx.fits.content?_live (.refl hf.tree) hx.live).symm.trans hc₀)
    exact ⟨c, hx.fits.content?_live ht hlive, hthin⟩
  · refine ⟨c₀, ?_, .refl _ _ _⟩
    rw [content?_congr hf.tree ht.tree ht.alike (hf.live p hp).noLink fun dir n hl => ?_, hc₀]
    rw [ht.view]
    refine hk.frame _ (hs.not_concerns (fun _ => id) hp (fun x hx _ hpath => hlot ⟨x, hx, hpath⟩) ?_)
    exact ⟨p, dir, n, .inl rfl, hl, rfl⟩

theorem Stands.allRest (hf : Footing d s files) (ha : Aloof d s) (ro : o.ReadOnly) (hh : Stands d s files h)
    (hend : (h.sweep s o).1 ≠ .error ⟨⟩) : AllRest d s files (h.sweep s o).2.disk.get? := by
  rcases hh.kept.run hf ha ro hh.turned hh.scene with ⟨hall, r, w', t, hrun⟩ |
    ⟨marker, back, es, r, w', -, hk, hall, hc, t, hrun⟩
  · simp only [Host.sweep, hrun, t.now.view]
    exact hall
  · simp only [Host.sweep, hrun, t.now.view, after_append] at hend ⊢
    exact (hk.course hf ha hh.turned hh.scene hall hc).2 (by rintro rfl; exact hend rfl)

theorem Stands.cut_off (hh : Stands d s files h) (hres : Resumes h.disk files h.disk.get? marker back)
    (hall : AllRest d s files (after h.disk.get? back))
    (hc : Course h.disk s files (after h.disk.get? back) marker es none) (t : Trail o h (back ++ es) w)
    (hx : x.In d d.get?) (hp : x.path ∈ files) (hm : MarksAt d s w.disk.get? x.path) :
    ∃ c₁ c, h.disk.original? x.path = some c₁ ∧ w.disk.original? x.path = some c₁ ∧
      Thinned s.matcher .dropped x.content c₁ ∧ w.disk.content? x.path = some c ∧ Thinned s.matcher .blanked c₁ c := by
  obtain ⟨c₁, hthin, hin⟩ := (hall x hx hp).exists_in (hx.fits.alike hh.turned.alike)
  have horig : h.disk.original? (x.holding c₁).path = some c₁ := hres.original? hh.scene hp hin (.refl hh.scene.tree)
  have hnow : Turned h.disk (after (after h.disk.get? back) es) w.disk := by
    rw [← after_append]
    exact t.now
  rcases hc.cut_last hh.scene with hsame | ⟨y, hy, -, hstuck, hmy⟩
  · have hin' : (x.holding c₁).In h.disk (after (after h.disk.get? back) es) := by rwa [hsame]
    exact ⟨c₁, c₁, horig, hin'.original? hnow, hthin, hin'.fits.content?_live hnow hin'.live, .refl _ _ _⟩
  · rw [hnow.view] at hm
    obtain rfl := hy.unique hin (hmy.unique (hm.alike hh.turned.alike))
    have hcaught := hstuck.caught hy.fits
    obtain ⟨-, c, hlive, hblank⟩ := hstuck
    exact ⟨c₁, c, horig, hcaught.original? hnow, hthin, hy.fits.content?_live hnow hlive, hblank⟩

/-- After any sweeps from a fresh start: when a sweep has come to an end, each source holds what it held in
the beginning with some candidate lines dropped, each line that is left as it was. If it was cut off, so does
each source but the one that the progress names. That one holds what the pass began with, some candidate
lines being reduced to their line ends; and what the pass began with is candidates dropped again. -/
theorem only_candidates_lost (hf : Footing h.disk s files) (ha : Aloof h.disk s)
    (hread : Progress.read h.disk s.progressFile = .ok .fresh) {os : List Oracle} (hos : ∀ o ∈ os, o.ReadOnly)
    (ro : o.ReadOnly) {result : Except Interrupted (Except Sweep.Problem Sweep.Outcome)} {left : Host}
    (hsweep : (h.sweeps s os).sweep s o = (result, left)) (hp : p ∈ files) (hc₀ : h.disk.content? p = some c₀) :
    (result ≠ .error ⟨⟩ ∨ left.disk.content? s.progressFile ≠ some p.text →
      ∃ c, left.disk.content? p = some c ∧ Thinned s.matcher .dropped c₀ c) ∧
    (result = .error ⟨⟩ → left.disk.content? s.progressFile = some p.text →
      ∃ c₁ c, (h.sweeps s os).disk.original? p = some c₁ ∧ left.disk.original? p = some c₁ ∧
        Thinned s.matcher .dropped c₀ c₁ ∧ left.disk.content? p = some c ∧ Thinned s.matcher .blanked c₁ c) := by
  have hh := (Stands.start hf hread).sweeps hf ha hos
  have hleft := hh.sweep hf ha ro
  rw [hsweep] at hleft
  have hmark : left.disk.content? s.progressFile = some p.text ↔ MarksAt h.disk s left.disk.get? p :=
    marksAt_iff hf.progress.noLink hleft.turned
  refine ⟨fun hcut => hleft.kept.thinned hf hleft.turned hp hc₀ ?_, fun hcut hnamed => ?_⟩
  · rintro x hx rfl
    rcases hcut with hcut | hcut
    · have hall := hh.allRest hf ha ro (by rwa [hsweep])
      rw [hsweep] at hall
      exact hall x hx hp
    · exact (hleft.kept.lot x hx hp).resolve_right fun hheld => hcut (hmark.2 hheld.2)
  · obtain ⟨x, hx, rfl⟩ := hleft.kept.isLot_of_marks hf ha hp (hmark.1 hnamed)
    obtain rfl : x.content = c₀ := Option.some.inj ((hx.fits.content?_live (.refl hf.tree) hx.live).symm.trans hc₀)
    rcases hh.kept.run hf ha ro hh.turned hh.scene with ⟨hall, r, w', t, hrun⟩ |
      ⟨marker, back, es, r, w', hres, hk, hall, hc, t, hrun⟩
    · rw [Host.sweep, hrun, Prod.mk.injEq] at hsweep
      rw [← hsweep.1] at hcut
      cases hcut
    · rw [Host.sweep, hrun, Prod.mk.injEq] at hsweep
      obtain ⟨rfl, rfl⟩ := hsweep
      obtain rfl : r = none := by cases r <;> simp_all [ending]
      exact hh.cut_off hres hall hc t hx hp (hmark.1 hnamed)

/-- In the workshop a run is cut off at the second source, and so is the next: the first source has lost its
two candidate lines, and one of the second is blank. -/
theorem only_candidates_lost_workshop :
    ∃ left, ((Host.ofDisk (workshop 0o644)).sweeps settings [.cutAt 4 (.looking fun _ => true)]).sweep
        settings (.cutAt 2 (.looking fun _ => true)) = (.error ⟨⟩, left) ∧
      left.disk.content? settings.progressFile = some second.text ∧
      left.disk.content? first = some (Bytes.ofString "int x;\n") ∧
      Thinned settings.matcher .dropped (Bytes.ofString "#include <a>\n#include <b>\nint x;\n")
        (Bytes.ofString "int x;\n") ∧
      left.disk.content? second = some (Bytes.ofString "\r\n") ∧
      Thinned settings.matcher .blanked (Bytes.ofString "#include <c>\r\n") (Bytes.ofString "\r\n") := by
  have hos : ∀ o ∈ [Oracle.cutAt 4 (.looking fun _ => true)], o.ReadOnly := by
    simpa using (Oracle.readOnly_looking _).cutAt 4
  obtain ⟨left, hsweep, hprog, hfirst, hsecond, horig⟩ : ∃ left, ((Host.ofDisk (workshop 0o644)).sweeps settings
        [.cutAt 4 (.looking fun _ => true)]).sweep settings (.cutAt 2 (.looking fun _ => true)) = (.error ⟨⟩, left) ∧
      left.disk.content? settings.progressFile = some second.text ∧
      left.disk.content? first = some (Bytes.ofString "int x;\n") ∧
      left.disk.content? second = some (Bytes.ofString "\r\n") ∧
      left.disk.original? second = some (Bytes.ofString "#include <c>\r\n") :=
    exists_left (by decide +kernel)
  have ro := (Oracle.readOnly_looking fun _ => true).cutAt 2
  have hc₀ : (Host.ofDisk (workshop 0o644)).disk.content? first =
      some (Bytes.ofString "#include <a>\n#include <b>\nint x;\n") := by decide +kernel
  have hc₀' : (Host.ofDisk (workshop 0o644)).disk.content? second =
      some (Bytes.ofString "#include <c>\r\n") := by decide +kernel
  have hne : second.text ≠ first.text := by decide +kernel
  obtain ⟨c, hc, hthin⟩ := (only_candidates_lost footing aloof read_fresh hos ro hsweep (by simp) hc₀).1
    (.inr (by rw [hprog]; simpa using hne))
  obtain ⟨c₁, c', -, hc₁, -, hc', hblank⟩ := (only_candidates_lost footing aloof read_fresh hos ro hsweep
    (by simp) hc₀').2 rfl hprog
  rw [hfirst, Option.some.injEq] at hc
  rw [hsecond, Option.some.injEq] at hc'
  rw [horig, Option.some.injEq] at hc₁
  rw [← hc] at hthin
  rw [← hc', ← hc₁] at hblank
  exact ⟨left, hsweep, hprog, hfirst, hthin, hsecond, hblank⟩

/-- Where the trial project is a source under another name, that source ends as a copy of the project. -/
theorem not_thinned_over_link : ∃ summary left,
    (Host.ofDisk doubled).sweep settings (.looking fun _ => true) = (.ok (.ok (.completed summary)), left) ∧
    left.disk.content? first = some (Bytes.ofString "<Project/>\n") ∧
    ¬ Thinned settings.matcher .dropped (Bytes.ofString "#include <a>\n#include <b>\nint x;\n")
      (Bytes.ofString "<Project/>\n") := by
  obtain ⟨left, hsweep, hfirst⟩ : ∃ left, (Host.ofDisk doubled).sweep settings (.looking fun _ => true) =
        (.ok (.ok (.completed ⟨2, 1, [], [], []⟩)), left) ∧
      left.disk.content? first = some (Bytes.ofString "<Project/>\n") :=
    exists_left (by decide +kernel)
  -- the line of the project is none of the source
  exact ⟨_, left, hsweep, hfirst, fun hthin => absurd hthin.split_sublist (by decide +kernel)⟩

end Prune
