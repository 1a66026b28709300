import Prune.Proofs.Deeds
import Prune.Sweep

/-!
# What the work of a sweep keeps

A property of the world is kept by a sweep if its steps keep it: reports, builds, and the replacing and removing of
files. `Lasting` says so of the steps, and the lemmas below it carry it through each function of a sweep.
-/

namespace Prune

open Artefact

variable {α β ε : Type} {o : Oracle} {R : World → Prop} {reach : Path → Prop} {s : Settings} {p : Path} {b : Backup}
  {Q : α → Prop}

/-- The work keeps `R`, and its answer is as `Q` says. -/
def Work.Keeps (R : World → Prop) (x : Work α) (Q : α → Prop) : Prop :=
  ∀ w, R w → R (Work.on x w).2 ∧ Q (Work.on x w).1

/-- Some build has no verdict. -/
def Oracle.Cuts (o : Oracle) : Prop := ∃ n call h, (o n call h).verdict = none

/-- From `w` on the work keeps `R`, and it has an answer as `Q` says or is cut off by a build. -/
def Run.KeepsFrom (o : Oracle) (R : World → Prop) (x : Run α) (Q : α → Prop) (w : World) : Prop :=
  R (Run.on x w).2 ∧ ((∃ a, (Run.on x w).1 = .ok a ∧ Q a) ∨ (Run.on x w).1 = .error ⟨⟩ ∧ o.Cuts)

def Run.Keeps (o : Oracle) (R : World → Prop) (x : Run α) (Q : α → Prop) : Prop := ∀ w, R w → KeepsFrom o R x Q w

theorem Work.Keeps.pure {a : α} (h : Q a) : Work.Keeps R (pure a) Q := fun _ hw => ⟨hw, h⟩

theorem Work.Keeps.bind {Q' : β → Prop} {x : Work α} {f : α → Work β} (hx : Work.Keeps R x Q)
    (hf : ∀ a, Q a → Work.Keeps R (f a) Q') : Work.Keeps R (x >>= f) Q' := fun w hw =>
  hf _ (hx w hw).2 _ (hx w hw).1

theorem Work.keeps_disk : Work.Keeps R Work.disk fun _ => True := fun _ hw => ⟨hw, trivial⟩

theorem Run.Keeps.pure {a : α} (h : Q a) : Run.Keeps o R (pure a) Q := fun _ hw =>
  ⟨hw, .inl ⟨a, rfl, h⟩⟩

theorem Run.Keeps.bind {Q' : β → Prop} {x : Run α} {f : α → Run β} (hx : Run.Keeps o R x Q)
    (hf : ∀ a, Q a → Run.Keeps o R (f a) Q') : Run.Keeps o R (x >>= f) Q' := by
  intro w hw
  obtain ⟨hw', hq⟩ := hx w hw
  rw [KeepsFrom, Run.on_bind]
  rcases hrun : Run.on x w with ⟨_ | a, w'⟩
  all_goals rw [hrun] at hw' hq
  · obtain ⟨a, ha, -⟩ | ⟨-, hcut⟩ := hq
    · cases ha
    · exact ⟨hw', .inr ⟨rfl, hcut⟩⟩
  · obtain ⟨b, hb, hq⟩ | ⟨he, -⟩ := hq
    · cases hb
      exact hf a hq w' hw'
    · cases he

theorem Work.Keeps.lift {x : Work α} (hx : Work.Keeps R x Q) : Run.Keeps o R (liftM x) Q := fun w hw =>
  ⟨(hx w hw).1, .inl ⟨_, rfl, (hx w hw).2⟩⟩

theorem Run.keeps_build {call : BuildCall} (h : ∀ w, R w → R (Run.on (Run.build o call) w).2) :
    Run.Keeps o R (Run.build o call) fun _ => True := by
  intro w hw
  refine ⟨h w hw, ?_⟩
  rw [Run.on_build]
  cases hv : (o (w.builds.length + 1) call w.toHost).verdict with
  | some verdict => exact .inl ⟨verdict, rfl, trivial⟩
  | none => exact .inr ⟨rfl, _, _, _, hv⟩

/-- Work that goes on by what came of its first part. -/
theorem Work.Keeps.either {Q : β → Prop} {x : Work (Except ε α)} {f : Except ε α → Work β}
    (hx : Work.Keeps R x fun _ => True) (herr : ∀ e, Work.Keeps R (f (.error e)) Q)
    (hok : ∀ a, Work.Keeps R (f (.ok a)) Q) : Work.Keeps R (x >>= f) Q :=
  hx.bind fun r _ => r.rec herr hok

theorem Run.Keeps.either {Q : β → Prop} {x : Run (Except ε α)} {f : Except ε α → Run β}
    (hx : Run.Keeps o R x fun _ => True) (herr : ∀ e, Run.Keeps o R (f (.error e)) Q)
    (hok : ∀ a, Run.Keeps o R (f (.ok a)) Q) : Run.Keeps o R (x >>= f) Q :=
  hx.bind fun r _ => r.rec herr hok

/-- What is to be known of the end of a run can be shown from where its first part leaves off. -/
theorem Run.Keeps.onward {P : Except Interrupted β × World → Prop} {x : Run α} {f : α → Run β}
    (hx : Run.Keeps o R x Q) (hcut : ∀ w, R w → P (.error ⟨⟩, w)) (hf : ∀ a, Q a → ∀ w, R w → P (Run.on (f a) w))
    {w : World} (hw : R w) : P (Run.on (x >>= f) w) := by
  obtain ⟨hw', hq⟩ := hx w hw
  rw [Run.on_bind]
  rcases hrun : Run.on x w with ⟨_ | a, w'⟩
  all_goals rw [hrun] at hw' hq
  · exact hcut w' hw'
  · obtain ⟨b, hb, hq⟩ | ⟨he, -⟩ := hq
    · cases hb
      exact hf a hq w' hw'
    · cases he

/-- What the report says that a source is taken. -/
def Sweep.taking : String := "processing file"

/-- Builds, reports other than that a source is taken, and changes at the paths within reach keep `R`. -/
structure Lasting (o : Oracle) (R : World → Prop) (reach : Path → Prop) : Prop where
  emit : ∀ w e, e.message ≠ Sweep.taking → R w → R (w.emit e)
  build : ∀ call, Run.Keeps o R (Run.build o call) fun _ => True
  replace : ∀ p content, reach p → Work.Keeps R (Work.replace p content) fun _ => True
  remove : ∀ p, reach p → Work.Keeps R (Work.carryOut (·.remove p)) fun _ => True

namespace Lasting

variable (h : Lasting o R reach)
include h

theorem report {level : Level} {target message : String} {fields : List (String × Value)}
    (hm : message ≠ Sweep.taking) : Work.Keeps R (Work.report level target message fields) fun _ => True :=
  fun w hw => ⟨h.emit w _ hm hw, trivial⟩

theorem save (hp : reach p) (position : Resume) :
    Work.Keeps R (Progress.save p position) fun _ => True :=
  (h.replace p _ hp).either (fun _ => .pure trivial) fun _ => (h.report (by decide)).bind fun _ _ => .pure trivial

theorem discard (hc : reach b.copy) : Work.Keeps R b.discard fun _ => True := by
  refine (h.remove _ hc).bind fun r _ => ?_
  split <;> exact .pure trivial

theorem commit (hc : reach b.copy) : Work.Keeps R b.commit fun _ => True :=
  (h.discard hc).either (fun _ => .pure trivial) fun _ => (h.report (by decide)).bind fun _ _ => .pure trivial

theorem restore (hl : reach b.live) (hc : reach b.copy) :
    Work.Keeps R b.restore fun _ => True := by
  refine Work.keeps_disk.bind fun d _ => ?_
  cases d.read b.copy with
  | error f => exact .pure trivial
  | ok content =>
    exact (h.replace _ _ hl).either (fun _ => .pure trivial) fun _ => (h.discard hc).either (fun _ => .pure trivial)
      fun _ => (h.report (by decide)).bind fun _ _ => .pure trivial

theorem recover (hl : reach p) (hc : reach (backup p)) :
    Work.Keeps R (Sweep.recover p) fun _ => True := by
  refine Work.keeps_disk.bind fun d _ => ?_
  cases hb : Backup.existing? d p with
  | none => exact (h.report (by decide)).bind fun _ _ => .pure trivial
  | some b =>
    obtain rfl : b = .of p := by
      simp only [Backup.existing?] at hb
      split at hb <;> simp_all
    exact (h.restore hl hc).either (fun _ => .pure trivial) fun _ =>
      (h.report (by decide)).bind fun _ _ => .pure trivial

theorem create (hc : reach (backup p)) :
    Work.Keeps R (Backup.create p) fun r => ∀ b, r = .ok b → b = .of p := by
  refine Work.keeps_disk.bind fun d _ => ?_
  split
  · exact .pure fun _ hb => by cases hb
  · cases d.read p with
    | error f => exact .pure fun _ hb => by cases hb
    | ok content =>
      refine (h.replace _ _ hc).either (fun _ => .pure fun _ hb => by cases hb) fun _ =>
        (h.report (by decide)).bind fun _ _ => .pure fun _ hb => ?_
      cases hb
      rfl

theorem revert (hl : reach b.live) (hc : reach b.copy) (problem : Pass.Problem) :
    Work.Keeps R (Sweep.revert b problem) fun _ => True :=
  (h.report (by decide)).bind fun _ _ => (h.restore hl hc).either
    (fun _ => (h.report (by decide)).bind fun _ _ => .pure trivial) fun _ => .pure trivial

theorem trials (hl : reach p) (call : BuildCall) (lines : List Bytes)
    (cs : List Pass.Candidate) (states : List Lines.State) :
    Run.Keeps o R (Pass.trials o call p lines cs states) fun _ => True := by
  induction cs generalizing states with
  | nil => exact .pure trivial
  | cons c cs ih =>
    refine (h.replace _ _ hl).lift.either (fun _ => .pure trivial) fun _ => (h.build call).bind fun passed _ => ?_
    cases passed <;>
      exact (h.report (by decide)).lift.bind fun _ _ => (ih _).either (fun _ => .pure trivial) fun _ => .pure trivial

theorem pass (hl : reach p) (call : BuildCall) (m : Directive.Matcher) :
    Run.Keeps o R (Pass.run o call m p) fun _ => True := by
  refine Work.keeps_disk.lift.bind fun d _ => ?_
  cases d.read p with
  | error f => exact .pure trivial
  | ok content =>
    refine (h.report (by decide)).lift.bind fun _ _ => (h.trials hl _ _ _ _).either (fun _ => .pure trivial) fun _ => ?_
    dsimp only
    split
    · exact .pure trivial
    · exact (h.replace _ _ hl).lift.either (fun _ => .pure trivial) fun _ => .pure trivial

theorem processFile (hl : reach p) (hc : reach (backup p)) :
    Run.Keeps o R (Sweep.processFile s o p) fun _ => True := by
  refine (h.create hc).lift.bind fun r hr => ?_
  cases r with
  | error e => exact (h.report (by decide)).lift.bind fun _ _ => .pure trivial
  | ok b =>
    obtain rfl := hr b rfl
    exact (h.pass hl _ _).either (fun e => (h.revert hl hc e).lift) fun _ =>
      (h.commit hc).lift.either (fun _ => (h.revert hl hc _).lift) fun _ => .pure trivial

theorem sift (ht : ∀ q, isTemporary q = true → reach q) (extensions : List Bytes)
    (found : List Disk.Found) : Work.Keeps R (Sources.sift extensions found) fun _ => True := by
  induction found with
  | nil => exact .pure trivial
  | cons f found ih =>
    rw [Sources.sift]
    split
    · exact .pure trivial
    split
    · exact ih
    split
    · exact .pure trivial
    split
    · next htemp =>
      have hdiscard : Work.Keeps R (Sources.discard f.path) fun _ => True :=
        (h.remove _ (ht _ htemp)).either (fun _ => h.report (by decide)) fun _ => h.report (by decide)
      exact hdiscard.bind fun _ _ => ih
    · exact ih.either (fun _ => .pure trivial) fun _ => .pure trivial

theorem find (ht : ∀ q, isTemporary q = true → reach q) (root : Path)
    (extensions : List Bytes) : Work.Keeps R (Sources.find root extensions) fun _ => True := by
  refine Work.keeps_disk.bind fun d _ => ?_
  cases d.walk root with
  | error f => exact .pure trivial
  | ok found => exact (h.sift ht _ found).either (fun _ => .pure trivial) fun _ => .pure trivial

theorem checkBaseline : Run.Keeps o R (Sweep.checkBaseline s o) fun _ => True := by
  refine (h.report (by decide)).lift.bind fun _ _ => (h.build _).bind fun passed _ => ?_
  cases passed with
  | true => exact .pure trivial
  | false => exact (h.report (by decide)).lift.bind fun _ _ => .pure trivial

theorem removeTrialProject (hp : reach p) :
    Work.Keeps R (Sweep.removeTrialProject p) fun _ => True :=
  (h.remove p hp).either (fun _ => h.report (by decide)) fun _ => .pure trivial

end Lasting

/-! ### How a run begins -/

namespace Sweep

/-- A run from `w` comes to its first build at `w'`: the progress is empty, or the file that it names is recovered. -/
inductive Begins (s : Settings) (w : World) : Option Path → World → Prop
  | fresh (h : Progress.read w.disk s.progressFile = .ok .fresh) : Begins s w none w
  | marked {m : Path} {w' : World} (h : Progress.read w.disk s.progressFile = .ok (.inProgress m))
    (hr : Work.on (Sweep.recover m) w = (.ok (), w')) : Begins s w (some m) w'

/-- The first build of a run from `w` succeeds, and the search at `w₁` finds `files` and leaves `w₂`. -/
structure Finds (s : Settings) (o : Oracle) (w : World) (marker : Option Path) (files : List Path) (w₁ w₂ : World) :
    Prop where
  built : ∃ w', Begins s w marker w' ∧ Run.on (Sweep.checkBaseline s o) w' = (.ok (.ok ()), w₁)
  found : Work.on (Sources.find s.sourceRoot s.extensions) w₁ = (.ok files, w₂)

end Sweep

end Prune
