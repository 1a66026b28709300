import Prune.Proofs.Changes
import Prune.World

/-!
# What happens in a run, one deed after the other

A run is told as a list of deeds: files written, placed or erased at a location, and builds with their
verdicts. `after v ds` is the view they make of `v`. `Trail o h ds w` says that `w` was reached from the
host `h` by exactly these deeds, all builds answered by `o`; every disk there was on the way shows the
view of some deeds at the front (`Trail.past`). The lemmas about `Trail` say what deeds the single acts of
a run are, for a build that only reads the disk.
-/

namespace Prune

open Disk Function

variable {l : Location}

/-- Something done in a run. -/
inductive Deed where
  /-- The file at a location is replaced, or made. -/
  | write (l : Location) (content : Bytes)
  /-- A file with bits of its own comes to a location. -/
  | place (l : Location) (mode : Nat) (content : Bytes)
  | erase (l : Location)
  | build (call : BuildCall) (verdict : Option Bool)
deriving DecidableEq

namespace Deed

def apply : Deed → View → View
  | .write l content, v => update v l (some (.file (inherit (v l)) content))
  | .place l mode content, v => update v l (some (.file mode content))
  | .erase l, v => update v l none
  | .build .., v => v

def isBuild : Deed → Bool
  | .build .. => true
  | _ => false

def location? : Deed → Option Location
  | .write l _ | .place l _ _ | .erase l => some l
  | .build .. => none

@[simp] theorem apply_build (call : BuildCall) (b : Option Bool) (v : View) : apply (.build call b) v = v := rfl

theorem apply_of_ne {e : Deed} (h : e.location? ≠ some l) (v : View) : e.apply v l = v l := by
  cases e with
  | build => rfl
  | _ k => exact update_of_ne (fun hl => h (by rw [hl]; rfl)) _ _

end Deed

def after (v : View) (ds : List Deed) : View := ds.foldl (fun v e => e.apply v) v

@[simp] theorem after_nil (v : View) : after v [] = v := rfl

@[simp] theorem after_cons (v : View) (e : Deed) (ds : List Deed) : after v (e :: ds) = after (e.apply v) ds := rfl

@[simp] theorem after_append (v : View) (ds es : List Deed) : after v (ds ++ es) = after (after v ds) es :=
  List.foldl_append

theorem after_of_forall {ds : List Deed} (h : ∀ e ∈ ds, e.location? ≠ some l) (v : View) :
    after v ds l = v l := by
  induction ds generalizing v with
  | nil => rfl
  | cons e ds ih => rw [after_cons, ih fun e he => h e (by simp [he]), Deed.apply_of_ne (h e (by simp))]

/-- What comes to a place where something else stood is a file. -/
theorem after_cases (v : View) (ds : List Deed) (l : Location) :
    after v ds l = v l ∨ after v ds l = none ∨ ∃ mode content, after v ds l = some (.file mode content) := by
  induction ds generalizing v with
  | nil => exact .inl rfl
  | cons e ds ih =>
    rw [after_cons]
    by_cases hl : e.location? = some l
    · have hv : e.apply v l = none ∨ ∃ mode content, e.apply v l = some (.file mode content) := by
        cases e with
        | build => cases hl
        | erase k => cases hl; exact .inl (update_self ..)
        | _ k => cases hl; exact .inr ⟨_, _, update_self ..⟩
      rcases ih (e.apply v) with h | h
      · exact .inr (h ▸ hv)
      · exact .inr h
    · rw [← Deed.apply_of_ne hl v]
      exact ih _

theorem Disk.Plain.after {d d' : Disk} {p : Path} {ds : List Deed} (hp : Plain d p)
    (ht : Turned d (Prune.after d.get? ds) d') : Plain d' p := by
  intro dir n hl e he
  rw [ht.view] at he
  rcases after_cases d.get? ds (dir ++ [n]) with h | h | ⟨mode, content, h⟩
  · exact hp dir n (hl.alike ht.alike.symm) e (h.symm.trans he)
  · rw [h] at he
    cases he
  · rw [h] at he
    cases he
    exact .inl ⟨mode, content, rfl⟩

theorem after_of_erasing {ds : List Deed} (h : ∀ e ∈ ds, e.location? = some l → e = .erase l) (v : View) :
    after v ds l = v l ∨ after v ds l = none := by
  induction ds generalizing v with
  | nil => exact .inl rfl
  | cons e ds ih =>
    rw [after_cons]
    have hds : ∀ e ∈ ds, e.location? = some l → e = .erase l := fun e he => h e (by simp [he])
    by_cases hl : e.location? = some l
    · obtain rfl := h e (by simp) hl
      have hnone : Deed.apply (.erase l) v l = none := update_self ..
      exact .inr ((ih hds _).elim (fun h => h.trans hnone) id)
    · rw [← Deed.apply_of_ne hl v]
      exact ih hds _

theorem after_of_writes {ds : List Deed}
    (h : ∀ e ∈ ds, e.location? = some l → ∃ content, e = .write l content) {v : View} {mode : Nat} {c : Bytes}
    (hv : v l = some (.file mode c)) : ∃ c', after v ds l = some (.file mode c') := by
  induction ds generalizing v c with
  | nil => exact ⟨c, hv⟩
  | cons e ds ih =>
    rw [after_cons]
    have hds : ∀ e ∈ ds, e.location? = some l → ∃ content, e = .write l content := fun e he => h e (by simp [he])
    by_cases hl : e.location? = some l
    · obtain ⟨content, rfl⟩ := h e (by simp) hl
      refine ih hds (c := content) ?_
      rw [Deed.apply, update_self, hv]
      rfl
    · exact ih hds ((Deed.apply_of_ne hl v).trans hv)

def buildCount (ds : List Deed) : Nat := ds.countP Deed.isBuild

/-- A build with what it sees. -/
structure Inquiry where
  view : View
  call : BuildCall
  verdict : Option Bool

def inquiries : View → List Deed → List Inquiry
  | _, [] => []
  | v, .build call b :: ds => ⟨v, call, b⟩ :: inquiries v ds
  | v, .write l content :: ds => inquiries (Deed.apply (.write l content) v) ds
  | v, .place l mode content :: ds => inquiries (Deed.apply (.place l mode content) v) ds
  | v, .erase l :: ds => inquiries (Deed.apply (.erase l) v) ds

theorem inquiries_cons {e : Deed} (he : e.isBuild = false) (v : View) (ds : List Deed) :
    inquiries v (e :: ds) = inquiries (e.apply v) ds := by
  cases e with
  | build => cases he
  | _ => rfl

@[simp] theorem inquiries_append (v : View) (ds es : List Deed) :
    inquiries v (ds ++ es) = inquiries v ds ++ inquiries (after v ds) es := by
  induction ds generalizing v with
  | nil => rfl
  | cons e ds ih => cases e <;> simp [inquiries, ih]

theorem length_inquiries (v : View) (ds : List Deed) : (inquiries v ds).length = buildCount ds := by
  induction ds generalizing v with
  | nil => rfl
  | cons e ds ih =>
    have hcons : buildCount (e :: ds) = buildCount ds + if e.isBuild then 1 else 0 := List.countP_cons
    cases e <;> simp [hcons, inquiries, Deed.isBuild, ih]

theorem inquiries_of_forall {ds : List Deed} (h : ∀ e ∈ ds, e.isBuild = false) (v : View) : inquiries v ds = [] := by
  rw [← List.length_eq_zero_iff, length_inquiries, buildCount, List.countP_eq_zero]
  exact fun e he => by simp [h e he]

/-- `P` holds of the view all the time. -/
def Always (P : View → Prop) (v : View) (ds : List Deed) : Prop := ∀ pre, pre <+: ds → P (after v pre)

namespace Always

variable {P Q : View → Prop} {v : View} {e : Deed} {ds es : List Deed}

theorem nil : Always P v [] ↔ P v := by simp [Always]

theorem cons : Always P v (e :: ds) ↔ P v ∧ Always P (e.apply v) ds := by
  constructor
  · intro h
    exact ⟨h [] (by simp), fun pre hpre => h (e :: pre) (List.cons_prefix_cons.2 ⟨rfl, hpre⟩)⟩
  · rintro ⟨hv, h⟩ pre hpre
    cases pre with
    | nil => exact hv
    | cons e' pre =>
      obtain ⟨rfl, hpre'⟩ := List.cons_prefix_cons.1 hpre
      exact h pre hpre'

theorem append : Always P v (ds ++ es) ↔ Always P v ds ∧ Always P (after v ds) es := by
  induction ds generalizing v with
  | nil => exact ⟨fun h => ⟨nil.2 (h [] (by simp)), h⟩, fun h => h.2⟩
  | cons e ds ih => rw [List.cons_append, cons, cons, ih, and_assoc, after_cons]

theorem last (h : Always P v ds) : P (after v ds) := h ds List.prefix_rfl

theorem mono (hpq : ∀ v, P v → Q v) (h : Always P v ds) : Always Q v ds := fun pre hpre => hpq _ (h pre hpre)

end Always

/-! ### Work on a world -/

section
variable {α β : Type}

/-- The work done on a world: what it returns and the world it leaves. -/
def Work.on (x : Work α) (w : World) : α × World := x.run w

/-- The same of work that can be cut off. -/
def Run.on (x : Run α) (w : World) : Except Interrupted α × World := x.run.run w

@[simp] theorem Work.on_pure (a : α) (w : World) : Work.on (pure a) w = (a, w) := rfl

@[simp] theorem Work.on_bind (x : Work α) (f : α → Work β) (w : World) :
    Work.on (x >>= f) w = Work.on (f (Work.on x w).1) (Work.on x w).2 := rfl

@[simp] theorem Run.on_pure (a : α) (w : World) : Run.on (pure a) w = (.ok a, w) := rfl

@[simp] theorem Run.on_lift (x : Work α) (w : World) :
    Run.on (liftM x) w = (.ok (Work.on x w).1, (Work.on x w).2) := rfl

theorem Run.on_bind (x : Run α) (f : α → Run β) (w : World) :
    Run.on (x >>= f) w = match Run.on x w with
      | (.ok a, w') => Run.on (f a) w'
      | (.error e, w') => (.error e, w') := by
  have : Run.on (x >>= f) w = Work.on (ExceptT.bindCont f (Run.on x w).1) (Run.on x w).2 := rfl
  rw [this]
  rcases Run.on x w with ⟨_ | _, _⟩ <;> rfl

theorem Run.on_forM_emit (ns : List Note) (w : World) :
    Run.on (ns.forM fun n => modify (·.emit n.event)) w = (.ok (), (ns.map Note.event).foldl World.emit w) := by
  induction ns generalizing w with
  | nil => rfl
  | cons n ns ih => exact ih (w.emit n.event)

/-- The world when a build has come to its end, and nothing of it is reported yet. -/
def World.answered (w : World) (call : BuildCall) (reply : Reply) : World :=
  { w with toHost := reply.toHost, past := .build ⟨call, w.disk, reply.verdict⟩ reply.disk :: w.past }

theorem Run.on_build (o : Oracle) (call : BuildCall) (w : World) :
    Run.on (Run.build o call) w =
      (match (o (w.builds.length + 1) call w.toHost).verdict with
        | some verdict => .ok verdict
        | none => .error ⟨⟩,
      ((o (w.builds.length + 1) call w.toHost).notes.map Note.event).foldl World.emit
        (w.answered call (o (w.builds.length + 1) call w.toHost))) := by
  set reply := o (w.builds.length + 1) call w.toHost with hreply
  have hset : Run.on (set (w.answered call reply) : Run PUnit) w = (.ok ⟨⟩, w.answered call reply) := rfl
  rw [Run.build, Run.on_bind, show Run.on (get : Run World) w = (.ok w, w) from rfl]
  simp only [← hreply]
  rw [Run.on_bind, ← World.answered, hset]
  simp only
  rw [Run.on_bind, Run.on_forM_emit]
  cases reply.verdict <;> rfl

@[simp] theorem Work.on_disk (w : World) : Work.on Work.disk w = (w.disk, w) := rfl

@[simp] theorem Work.on_report (level : Level) (target message : String) (fields : List (String × Value))
    (w : World) :
    Work.on (Work.report level target message fields) w = ((), w.emit ⟨level, target, message, fields⟩) := rfl

theorem Work.on_replace (p : Path) (content : Bytes) (w : World) : Work.on (Work.replace p content) w =
    match w.disk.replace p content with
    | (.ok (), d) => (.ok (), w.change d)
    | (.error f, d) => (.error f, { w with disk := d }) := by
  simp only [Work.replace, Work.on_bind, Work.on_disk]
  rcases w.disk.replace p content with ⟨_ | _, d⟩ <;> rfl

theorem Work.on_remove (p : Path) (w : World) : Work.on (Work.carryOut (·.remove p)) w =
    match w.disk.remove p with
    | .ok d => (.ok (), w.change d)
    | .error f => (.error f, w) := by
  simp only [Work.carryOut, Work.on_bind, Work.on_disk]
  cases w.disk.remove p <;> rfl

theorem Work.on_copy (source p : Path) (w : World) : Work.on (Work.copy source p) w =
    match w.disk.copy source p with
    | .ok disks => (.ok (), disks.foldl World.change w)
    | .error f => (.error f, w) := by
  simp only [Work.copy, Work.on_bind, Work.on_disk]
  cases w.disk.copy source p <;> rfl

end

/-! ### Runs -/

/-- All that was on the disk at a moment. -/
def Moment.disks : Moment → List Disk
  | .change d => [d]
  | .build b after => [b.before, after]
  | .event _ => []

namespace World

@[simp] theorem builds_change (w : World) (d : Disk) : (w.change d).builds = w.builds := by
  simp [builds, history, change]

theorem disk_emit {w : World} (h : w.log = none) (e : Event) : (w.emit e).disk = w.disk := by simp [emit, h]

@[simp] theorem builds_emit (w : World) (e : Event) : (w.emit e).builds = w.builds := by simp [builds, history, emit]

@[simp] theorem builds_answered (w : World) (call : BuildCall) (reply : Reply) :
    (w.answered call reply).builds = w.builds ++ [⟨call, w.disk, reply.verdict⟩] := by
  simp [builds, history, answered]

end World

/-- Every disk there was since the start, the present one included. -/
def World.disks (w : World) : List Disk := w.disk :: w.past.flatMap Moment.disks

/-- A build that leaves everything on the disk as it is. -/
structure Oracle.ReadOnly (o : Oracle) : Prop where
  entries : ∀ n call h, (o n call h).disk.entries = h.disk.entries
  cwd : ∀ n call h, (o n call h).disk.cwd = h.disk.cwd
  shared : ∀ n call h, (o n call h).disk.shared = h.disk.shared

/-- A build that was made is the one that was asked for. -/
structure Build.Meets (d : Disk) (b : Build) (q : Inquiry) : Prop where
  call : b.call = q.call
  verdict : b.verdict = q.verdict
  before : Turned d q.view b.before

/-- `w` was reached from `h` by the deeds `ds`. -/
structure Trail (o : Oracle) (h : Host) (ds : List Deed) (w : World) : Prop where
  log : w.log = none
  now : Turned h.disk (after h.disk.get? ds) w.disk
  past : ∀ d ∈ w.disks, ∃ pre, pre <+: ds ∧ Turned h.disk (after h.disk.get? pre) d
  built : List.Forall₂ (Build.Meets h.disk) w.builds (inquiries h.disk.get? ds)
  asked : ∀ pre call b, pre ++ [.build call b] <+: ds →
    ∃ h' : Host, Turned h.disk (after h.disk.get? pre) h'.disk ∧ b = (o (buildCount pre + 1) call h').verdict

namespace Trail

variable {o : Oracle} {h : Host} {ds : List Deed} {w w' : World} {p : Path}

theorem start (o : Oracle) {h : Host} (hd : Tree h.disk) : Trail o h [] (World.start h) where
  log := rfl
  now := .refl hd
  past d hm := ⟨[], by simp, by
    obtain rfl : d = h.disk := by simpa [World.disks, World.start] using hm
    exact .refl hd⟩
  built := .nil
  asked pre call b hp := by simp at hp

section
variable {dir : Location} {n : Bytes} (t : Trail o h ds w)
include t

theorem count : w.builds.length = buildCount ds := t.built.length_eq.trans (length_inquiries ..)

theorem idle (hlog : w'.log = none) (hnow : Turned w.disk w.disk.get? w'.disk)
    (hpast : w'.past.flatMap Moment.disks = w.past.flatMap Moment.disks)
    (hbuilds : w'.builds = w.builds) : Trail o h ds w' := by
  have hnow' : Turned h.disk (after h.disk.get? ds) w'.disk := t.now.trans (t.now.view ▸ hnow)
  refine ⟨hlog, hnow', fun d hd => ?_, hbuilds ▸ t.built, t.asked⟩
  rcases List.mem_cons.1 hd with rfl | hd
  · exact ⟨ds, List.prefix_rfl, hnow'⟩
  · exact t.past d (.tail _ (hpast ▸ hd))

theorem changes {es : List Deed} (he : ∀ e ∈ es, e.isBuild = false) {d : Disk}
    (hd : Turned w.disk (after w.disk.get? es) d) : Trail o h (ds ++ es) (w.change d) := by
  have hnow : Turned h.disk (after h.disk.get? (ds ++ es)) d := by
    rw [after_append, ← t.now.view]
    exact t.now.trans hd
  refine ⟨t.log, hnow, fun d' hd' => ?_, ?_, fun pre call b hp => ?_⟩
  · have hd' : d' = d ∨ d' ∈ w.past.flatMap Moment.disks := by
      simpa [World.disks, World.change, Moment.disks] using hd'
    rcases hd' with rfl | hd'
    · exact ⟨_, List.prefix_rfl, hnow⟩
    · obtain ⟨pre, hpre, hp⟩ := t.past d' (.tail _ hd')
      exact ⟨pre, hpre.trans (List.prefix_append ..), hp⟩
  · rw [World.builds_change, inquiries_append, inquiries_of_forall he, List.append_nil]
    exact t.built
  · obtain ⟨rest, hrest⟩ := hp
    rcases List.append_eq_append_iff.1 hrest with ⟨mid, hmid, -⟩ | ⟨mid, hmid, hes⟩
    · exact t.asked pre call b ⟨mid, hmid.symm⟩
    · -- what comes behind the deeds so far is no build
      rcases List.eq_nil_or_concat mid with rfl | ⟨init, e, rfl⟩
      · exact t.asked pre call b (by simp [hmid])
      · rw [List.concat_eq_append, ← List.append_assoc] at hmid
        obtain ⟨-, heq⟩ := List.append_inj' hmid rfl
        cases heq
        cases he (.build call b) (by simp [hes])

theorem change {e : Deed} (he : e.isBuild = false) {d : Disk}
    (hd : Turned w.disk (e.apply w.disk.get?) d) : Trail o h (ds ++ [e]) (w.change d) := t.changes (by simpa) hd

theorem emit (e : Event) : Trail o h ds (w.emit e) := by
  refine t.idle t.log ?_ (by simp [World.emit, Moment.disks]) (World.builds_emit w e)
  rw [World.disk_emit t.log]
  exact .refl t.now.tree

theorem plain (hp : Plain h.disk p) : Plain w.disk p := hp.after t.now

theorem replace (hw : Writable h.disk p dir n) (content : Bytes) :
    ∃ w', Work.on (Work.replace p content) w = (.ok (), w') ∧ Trail o h (ds ++ [.write (dir ++ [n]) content]) w' := by
  obtain ⟨d', hr, hd'⟩ := replace_ok t.now.tree (hw.alike t.now.alike) content
  refine ⟨w.change d', ?_, t.change rfl hd'⟩
  simp [Work.replace, hr]
  rfl

theorem replace_error (hp : NoLink h.disk p) (hw : ∀ dir n, ¬ Writable h.disk p dir n)
    (content : Bytes) :
    ∃ f w', Work.on (Work.replace p content) w = (.error f, w') ∧ Trail o h ds w' := by
  obtain ⟨f, d', hr, hd'⟩ := Disk.replace_error t.now.tree (hp.alike t.now.alike)
    (fun dir n hn => hw dir n (hn.alike t.now.alike.symm)) content
  refine ⟨f, { w with disk := d' }, ?_, t.idle t.log hd' rfl rfl⟩
  simp [Work.replace, hr]
  rfl

theorem remove (hr : Removable h.disk p dir n) {e : Entry}
    (hg : after h.disk.get? ds (dir ++ [n]) = some e) (he : bone (some e) = none) :
    ∃ w', Work.on (Work.carryOut (·.remove p)) w = (.ok (), w') ∧ Trail o h (ds ++ [.erase (dir ++ [n])]) w' := by
  obtain ⟨d', hrm, hd'⟩ := remove_ok t.now.tree (hr.alike t.now.alike) (t.now.view ▸ hg) he
  refine ⟨w.change d', ?_, t.change rfl hd'⟩
  simp [Work.carryOut, hrm]
  rfl

theorem remove_error
    (hr : ∀ dir n, Removable h.disk p dir n → after h.disk.get? ds (dir ++ [n]) = none) :
    ∃ f, Work.on (Work.carryOut (·.remove p)) w = (.error f, w) := by
  cases hrm : w.disk.remove p with
  | error f => exact ⟨f, by simp [Work.carryOut, hrm]⟩
  | ok d' =>
    obtain ⟨dir, n, e, hr', hg, -⟩ := remove_inv t.now.tree hrm
    rw [t.now.view, hr dir n (hr'.alike t.now.alike.symm)] at hg
    cases hg

end

theorem emits (t : Trail o h ds w) (es : List Event) : Trail o h ds (es.foldl World.emit w) := by
  induction es generalizing w with
  | nil => exact t
  | cons e es ih => exact ih (t.emit e)

theorem build (ro : o.ReadOnly) (t : Trail o h ds w) (call : BuildCall) :
    ∃ b w', Trail o h (ds ++ [.build call b]) w' ∧
      Run.on (Run.build o call) w = (match b with | some verdict => .ok verdict | none => .error ⟨⟩, w') := by
  set reply := o (w.builds.length + 1) call w.toHost with hreply
  have hsame : Turned w.disk w.disk.get? reply.disk :=
    turned_of_entries t.now.tree (ro.entries _ _ _) (ro.cwd _ _ _) (.of_eq (ro.shared _ _ _))
  have hafter : after h.disk.get? (ds ++ [.build call reply.verdict]) = after h.disk.get? ds := by
    rw [after_append]; rfl
  have hnow : Turned h.disk (after h.disk.get? ds) reply.disk := t.now.trans (t.now.view ▸ hsame)
  have t₁ : Trail o h (ds ++ [.build call reply.verdict]) (w.answered call reply) := by
    refine ⟨t.log, hafter ▸ hnow, fun d hd => ?_, ?_, fun pre call' b hp => ?_⟩
    · have hd : d = reply.disk ∨ d = w.disk ∨ d ∈ w.past.flatMap Moment.disks := by
        simpa [World.disks, World.answered, Moment.disks, or_comm, or_left_comm] using hd
      rcases hd with rfl | hd
      · exact ⟨_, List.prefix_rfl, hafter ▸ hnow⟩
      · obtain ⟨pre, hpre, hp⟩ := t.past d (List.mem_cons.2 hd)
        exact ⟨pre, hpre.trans (List.prefix_append ..), hp⟩
    · rw [World.builds_answered, inquiries_append]
      exact List.rel_append t.built (.cons ⟨rfl, rfl, t.now⟩ .nil)
    · rcases List.prefix_concat_iff.1 hp with hp | hp
      · obtain ⟨rfl, rfl, rfl⟩ : pre = ds ∧ call' = call ∧ b = reply.verdict := by simpa using hp
        exact ⟨w.toHost, t.now, by rw [hreply, t.count]⟩
      · exact t.asked pre call' b hp
  exact ⟨reply.verdict, _, t₁.emits _, Run.on_build o call w⟩

/-- A file that is written again and again is placed under all its names each time. -/
theorem rewritten (t : Trail o h ds w) {ks : List Location} {disks : List Disk} {mode : Nat} {content : Bytes}
    (hd : Rewritten ks w.disk disks (.file mode content)) :
    ∃ cs, (∀ e ∈ cs, ∃ k ∈ ks, ∃ mode content, e = .place k mode content) ∧
      (∀ v, ∀ k ∈ ks, after v cs k = some (.file mode content)) ∧ Trail o h (ds ++ cs) (disks.foldl World.change w) := by
  have hplaces : ∀ mode content, (∀ e ∈ ks.map (Deed.place · mode content), ∃ k ∈ ks, ∃ mode content,
      e = .place k mode content) ∧ ∀ v, after v (ks.map (Deed.place · mode content)) = spread ks (.file mode content) v :=
    fun mode content => ⟨by simp, fun v => List.foldl_map⟩
  have hstep : ∀ {ds w d mode content}, Trail o h ds w → Turned w.disk (spread ks (.file mode content) w.disk.get?) d →
      Trail o h (ds ++ ks.map (Deed.place · mode content)) (w.change d) := fun {ds w d mode content} t ht =>
    t.changes (by simp [Deed.isBuild]) ((hplaces mode content).2 _ ▸ ht)
  generalize he : Entry.file mode content = e at hd
  generalize hw : w.disk = d at hd
  induction hd generalizing ds w with
  | @last d d' mode' content' ht =>
    subst hw
    cases he
    refine ⟨_, (hplaces mode content).1, fun v k hk => ?_, hstep t ht⟩
    rw [(hplaces mode content).2, spread_of_mem hk]
  | @step d d' disks e mode' content' ht hs ih =>
    subst hw
    obtain ⟨cs, hcs, hlast, t'⟩ := ih (hstep t ht) he rfl
    refine ⟨_, List.forall_mem_append.2 ⟨(hplaces mode' content').1, hcs⟩, fun v k hk => ?_, by simpa using t'⟩
    rw [after_append, hlast _ k hk]

theorem copy (t : Trail o h ds w) (source : Path) (hp : Plain w.disk p)
    (hn : ∀ dir n, Leads h.disk p dir n → SitedAt h.disk (dir ++ [n])) :
    (∃ f, w.disk.copy source p = .error f ∧ Work.on (Work.copy source p) w = (.error f, w)) ∨
    ∃ dir n mode content mode' content' cs w', Leads h.disk p dir n ∧ endsInSlash p = false ∧
      Opens w.disk dir n ∧ w.disk.stat source = .ok (.file mode content) ∧ allows mode readBit = true ∧
      allows mode' writeBit = allows mode writeBit ∧ Same w.disk source (dir ++ [n]) content content' ∧
      Work.on (Work.copy source p) w = (.ok (), w') ∧
      (∀ e ∈ cs, ∃ k ∈ h.disk.twins (dir ++ [n]), ∃ mode content, e = .place k mode content) ∧
      (∀ v, after v cs (dir ++ [n]) = some (.file mode' content')) ∧ Trail o h (ds ++ cs) w' := by
  cases hc : w.disk.copy source p with
  | error f => exact .inl ⟨f, rfl, by simp [Work.on_copy, hc]⟩
  | ok disks =>
    obtain ⟨⟨mode, content, hstat, hr⟩, dir, n, hl, hs, ho⟩ := copy_inv t.now.tree hp hc
    have hl' := hl.alike t.now.alike.symm
    obtain ⟨disks', ks, mode', content', hc', hmode, hks, hself, htwins, hsame⟩ :=
      copy_ok t.now.tree ((hn dir n hl').alike t.now.alike t.now.sharing) hstat hr hl hs ho
    obtain rfl : disks = disks' := by simpa [hc] using hc'
    obtain ⟨cs, hcs, hlast, t'⟩ := t.rewritten hks
    refine .inr ⟨dir, n, mode, content, mode', content', cs, _, hl', hs, ho, hstat, hr, hmode,
      hsame, by simp [Work.on_copy, hc], fun e he => ?_, fun v => hlast v _ hself, t'⟩
    obtain ⟨k, hk, hplace⟩ := hcs e he
    exact ⟨k, t.now.sharing.twins (htwins k hk), hplace⟩

end Trail

end Prune
