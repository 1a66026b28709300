import Mathlib.Data.Prod.Basic
import Prune.Proofs.Runs

/-!
# What a file holds, by its path

`content?`, `file?` and `exists?` say what a path shows, links followed. They are read off a view here: a path
that leads to a place shows what stands there, and all else is settled by the directories.
-/

namespace Prune

open Disk Artefact

namespace Disk

variable {d d' : Disk} {p : Path} {dir : Location} {n : Bytes} {c : Bytes}

/-- What the regular file at `p` holds, links followed. -/
def content? (d : Disk) (p : Path) : Option Bytes :=
  match d.stat p with
  | .ok (.file _ content) => some content
  | _ => none

theorem Leads.content? (hl : Leads d p dir n) (hs : endsInSlash p = false) {mode : Nat}
    (hg : d.get? (dir ++ [n]) = some (.file mode c)) : d.content? p = some c := by
  simp [Disk.content?, hl.stat_some hs hg (by simp)]

theorem content?_eq_some_iff (hd : Tree d) (hp : NoLink d p) : d.content? p = some c ↔
    endsInSlash p = false ∧ ∃ dir n mode, Leads d p dir n ∧ d.get? (dir ++ [n]) = some (.file mode c) := by
  constructor
  · intro h
    simp only [content?] at h
    split at h
    · next mode content hstat =>
      cases h
      rcases stat_cases hd hp hstat with ⟨l, mode', hr⟩ | ⟨hs, dir, n, hl, hg⟩
      · simp [stat, hr, bind, Except.bind, pure, Except.pure] at hstat
      · exact ⟨hs, dir, n, mode, hl, hg⟩
    · cases h
  · rintro ⟨hs, dir, n, mode, hl, hg⟩
    exact hl.content? hs hg

theorem content?_congr (hd : Tree d) (hd' : Tree d') (ha : Alike d d') (hp : NoLink d p)
    (h : ∀ dir n, Leads d p dir n → d'.get? (dir ++ [n]) = d.get? (dir ++ [n])) : d'.content? p = d.content? p := by
  refine Option.ext fun c => ?_
  rw [content?_eq_some_iff hd' (hp.alike ha), content?_eq_some_iff hd hp]
  constructor
  · rintro ⟨hs, dir, n, mode, hl, hg⟩
    have hl' := hl.alike ha.symm
    exact ⟨hs, dir, n, mode, hl', (h dir n hl').symm.trans hg⟩
  · rintro ⟨hs, dir, n, mode, hl, hg⟩
    exact ⟨hs, dir, n, mode, hl.alike ha, (h dir n hl).trans hg⟩

/-- The bits and the content of the regular file at `p`, links followed. -/
def file? (d : Disk) (p : Path) : Option (Nat × Bytes) :=
  match d.stat p with
  | .ok (.file mode content) => some (mode, content)
  | _ => none

theorem file?_eq_some_iff (hd : Tree d) (hp : NoLink d p) {mode : Nat} : d.file? p = some (mode, c) ↔
    endsInSlash p = false ∧ ∃ dir n, Leads d p dir n ∧ d.get? (dir ++ [n]) = some (.file mode c) := by
  constructor
  · intro h
    simp only [file?] at h
    split at h
    · next mode' content hstat =>
      cases h
      rcases stat_cases hd hp hstat with ⟨l, mode', hr⟩ | ⟨hs, dir, n, hl, hg⟩
      · simp [stat, hr, bind, Except.bind, pure, Except.pure] at hstat
      · exact ⟨hs, dir, n, hl, hg⟩
    · cases h
  · rintro ⟨hs, dir, n, hl, hg⟩
    simp [file?, hl.stat_some hs hg (by simp)]

theorem Writable.mode_file? {dir : Location} {n : Bytes} (h : Writable d p dir n) :
    ((d.file? p).map (·.1)).getD privateMode = inherit (d.get? (dir ++ [n])) := by
  cases hg : d.get? (dir ++ [n]) with
  | none => simp [file?, h.leads.stat_none h.slash hg, inherit]
  | some e =>
    have hb := h.leaf
    rw [hg] at hb
    cases e with
    | file mode content | special what => simp [file?, h.leads.stat_some h.slash hg (by simp), inherit]
    | dir mode | link target => cases hb

theorem file?_congr (hd : Tree d) (hd' : Tree d') (ha : Alike d d') (hp : NoLink d p)
    (h : ∀ dir n, Leads d p dir n → d'.get? (dir ++ [n]) = d.get? (dir ++ [n])) : d'.file? p = d.file? p := by
  refine Option.ext fun ⟨mode, c⟩ => ?_
  rw [file?_eq_some_iff hd' (hp.alike ha), file?_eq_some_iff hd hp]
  constructor
  · rintro ⟨hs, dir, n, hl, hg⟩
    have hl' := hl.alike ha.symm
    exact ⟨hs, dir, n, hl', (h dir n hl').symm.trans hg⟩
  · rintro ⟨hs, dir, n, hl, hg⟩
    exact ⟨hs, dir, n, hl.alike ha, (h dir n hl).trans hg⟩

theorem Leads.exists?_iff (hl : Leads d p dir n) (hs : endsInSlash p = false) (hp : NoLink d p) :
    d.exists? p = true ↔ d.get? (dir ++ [n]) ≠ none := by
  cases hg : d.get? (dir ++ [n]) with
  | none => simp [exists?, hl.stat_none hs hg, Except.isOk, Except.toBool]
  | some e =>
    have hlink : ∀ target, e ≠ .link target := by
      rintro target rfl
      exact hp dir n hl target hg
    simp [exists?, hl.stat_some hs hg hlink, Except.isOk, Except.toBool]

theorem exists?_new (hd : Tree d) (hd' : Tree d') (ha : Alike d d') (hp : NoLink d p) (h : d.exists? p = false)
    (h' : d'.exists? p = true) : ∃ dir n, Leads d p dir n ∧ d'.get? (dir ++ [n]) ≠ d.get? (dir ++ [n]) := by
  cases hstat : d'.stat p with
  | error f => simp [exists?, hstat, Except.isOk, Except.toBool] at h'
  | ok e =>
    rcases stat_cases hd' (hp.alike ha) hstat with ⟨l, mode, hr⟩ | ⟨hs, dir, n, hl, hg⟩
    · have hr := (ha.resolve_dir hd hd').1 hr
      simp [exists?, stat, hr, bind, Except.bind, pure, Except.pure, Except.isOk, Except.toBool] at h
    · have hl' := hl.alike ha.symm
      refine ⟨dir, n, hl', fun heq => ?_⟩
      rw [hg] at heq
      simp [exists?, hl'.stat_some hs heq.symm (by rintro target rfl; exact hp dir n hl' target heq.symm),
        Except.isOk, Except.toBool] at h

end Disk

variable {d d' : Disk} {v : View} {x : Lot} {c : Bytes} {mode : Nat}

theorem Lot.Fits.content?_live (hx : x.Fits d) (ht : Turned d v d') (hv : v x.live = some (.file mode c)) :
    d'.content? x.path = some c := by
  obtain ⟨⟨dir, n, hl, -, hw, -⟩, -⟩ := hx
  rw [← ht.view, hl] at hv
  exact (hw.leads.alike ht.alike).content? hw.slash hv

theorem Lot.Fits.content?_eq (hx : x.Fits d) (hp : NoLink d x.path) {u : View} {d₁ : Disk} (ht : Turned d v d')
    (hu : Turned d u d₁) (h : v x.live = u x.live) : d'.content? x.path = d₁.content? x.path := by
  obtain ⟨⟨dir, n, hl, -, hw, -⟩, -⟩ := hx
  refine content?_congr hu.tree ht.tree (hu.alike.symm.trans ht.alike) (hp.alike hu.alike) fun dir' n' hl' => ?_
  obtain ⟨rfl, rfl⟩ := hw.leads.unique (hl'.alike hu.alike.symm)
  rw [ht.view, hu.view, ← hl, h]

theorem Lot.Fits.content?_copy (hx : x.Fits d) (ht : Turned d v d') (hv : v x.copy = some (.file mode c)) :
    d'.content? (backup x.path) = some c := by
  obtain ⟨⟨dir, n, -, hc, -, hw⟩, -⟩ := hx
  rw [← ht.view, hc] at hv
  exact (hw.leads.alike ht.alike).content? hw.slash hv

theorem Lot.Fits.content?_copy_none (hx : x.Fits d) (ht : Turned d v d') (hv : v x.copy = none) :
    d'.content? (backup x.path) = none := by
  obtain ⟨⟨dir, n, -, hc, -, hw⟩, -⟩ := hx
  rw [← ht.view, hc] at hv
  simp [Disk.content?, (hw.leads.alike ht.alike).stat_none hw.slash hv]

/-- What a source holds, or held before the pass that was cut off there. -/
def Disk.original? (d : Disk) (p : Path) : Option Bytes := (d.content? (backup p)).or (d.content? p)

theorem Lot.In.original? (hx : x.In d v) (ht : Turned d v d') : d'.original? x.path = some x.content := by
  simp [Disk.original?, hx.fits.content?_copy_none ht hx.copy, hx.fits.content?_live ht hx.live]

theorem Lot.Caught.original? (hx : x.Caught d v) (ht : Turned d v d') : d'.original? x.path = some x.content := by
  obtain ⟨mode, hcopy, -⟩ := hx.copy
  simp [Disk.original?, hx.fits.content?_copy ht hcopy]

/-! ### A small workshop -/

/-- A build that looks at the disk and leaves it alone. -/
def Oracle.looking (verdict : Disk → Bool) : Oracle := fun _ _ h =>
  { h with verdict := some (verdict h.disk), notes := [] }

theorem Oracle.readOnly_looking (verdict : Disk → Bool) : (Oracle.looking verdict).ReadOnly :=
  ⟨fun _ _ _ => rfl, fun _ _ _ => rfl, fun _ _ _ => rfl⟩

/-- The run is cut off at the `n`th build. -/
def Oracle.cutAt (n : Nat) (o : Oracle) : Oracle := fun k call h =>
  if k = n then { o k call h with verdict := none } else o k call h

theorem Oracle.ReadOnly.cutAt {o : Oracle} (ro : o.ReadOnly) (n : Nat) : (o.cutAt n).ReadOnly := by
  constructor <;> intro k call h <;> unfold Oracle.cutAt <;> split
  · exact ro.entries k call h
  · exact ro.entries k call h
  · exact ro.cwd k call h
  · exact ro.cwd k call h
  · exact ro.shared k call h
  · exact ro.shared k call h

/-- Evaluated once, a run shows how it ends and what it leaves. -/
theorem exists_left {α β : Type} {x : α × β} {a : α} {P : β → Prop} (h : x.1 = a ∧ P x.2) : ∃ b, x = (a, b) ∧ P b :=
  ⟨x.2, Prod.fst_eq_iff.1 h.1, h.2⟩

/-- A project with the given permission bits, and two sources. -/
def workshop (mode : Nat) : Disk where
  entries := [(["w"], .dir 0o755),
    (["w", "app.vcxproj"], .file mode "<Project/>\n"),
    (["w", "src"], .dir 0o755),
    (["w", "src", "a.cpp"], .file 0o644 "#include <a>\n#include <b>\nint x;\n"),
    (["w", "src", "b.cpp"], .file 0o640 "#include <c>\r\n")]
  cwd := ["w"]

namespace Workshop

def settings : Settings := .ofProject (.ofString "cl") (.ofString "app.vcxproj") "Debug" (.ofString "src")

def first : Path := .ofString "src/a.cpp"

def second : Path := .ofString "src/b.cpp"

/-- The build needs the second line of the first source. -/
def builds (d : Disk) : Bool := (d.content? first).any fun c => (Lines.split c).contains "#include <b>\n"

theorem footing : Footing (Host.ofDisk (workshop 0o644)).disk settings [first, second] :=
  .of_entries (by decide +kernel) (by decide +kernel) (by decide +kernel) rfl (by decide +kernel)

/-- The workshop with a trial project that is the file at `l` under another name. -/
def linkedTo (l : Location) (content : Bytes) : Disk where
  entries := (["w", "app.sweeper-trial.vcxproj"], .file 0o644 content) :: (workshop 0o644).entries
  cwd := (workshop 0o644).cwd
  shared := [(l, 1), (["w", "app.sweeper-trial.vcxproj"], 1)]

/-- The trial project is the first source. -/
def doubled : Disk := linkedTo ["w", "src", "a.cpp"] "#include <a>\n#include <b>\nint x;\n"

theorem read_fresh : Progress.read (workshop 0o644) settings.progressFile = .ok .fresh := by decide +kernel

end Workshop

end Prune
