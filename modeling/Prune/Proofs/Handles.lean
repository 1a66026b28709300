import Prune.Proofs.Contents
import Prune.Proofs.Places

/-!
# Backups under any sequence of acts

Sources are backed up, looked up, committed and restored in any order, by handles old and new, while others change
the disk as they like but for the places of the backups. `Effect` says once what each act can do on a disk without
links. From that follows what every act keeps (`Safe`), and by induction along a sequence of acts (`Along`) that a
backup holds what its source held when it was made, until it is used.
-/

namespace Prune

open Disk Artefact Function

namespace Backup

/-- An act on the backup of a source, or a change made by others. -/
inductive Act where
  | create (p : Path)
  | lookUp (p : Path)
  | commit (b : Backup)
  | restore (b : Backup)
  | outside (d : Disk)

/-- Work done on a disk where nothing is logged. -/
def done {α : Type} (x : Work (Except Problem α)) (d : Disk) : Except Problem Unit × Disk :=
  ((Work.on x (World.start (.ofDisk d))).1.map fun _ => (), (Work.on x (World.start (.ofDisk d))).2.disk)

def Act.on : Act → Disk → Except Problem Unit × Disk
  | .create p, d => done (Backup.create p) d
  | .lookUp _, d => (.ok (), d)
  | .commit b, d => done b.commit d
  | .restore b, d => done b.restore d
  | .outside d', _ => (.ok (), d')

theorem Act.exists_on {a : Act} {d : Disk} {r : Except Problem Unit} (h : (a.on d).1 = r) : ∃ d', a.on d = (r, d') :=
  ⟨(a.on d).2, by rw [← h]⟩

/-- A handle for `p` is what making or looking up its backup returned on some disk. -/
def IsHandle (p : Path) (b : Backup) : Prop :=
  ∃ d, existing? d p = some b ∨ (Work.on (Backup.create p) (World.start (.ofDisk d))).1 = .ok b

variable {d d' d₁ d₂ : Disk} {p q : Path} {dir : Location} {n : Bytes} {r : Except Problem Unit} {c : Bytes} {b : Backup}

theorem on_create (p : Path) (w : World) : Work.on (Backup.create p) w =
    if w.disk.exists? (backup p) then (.error (.alreadyExists p (backup p)), w)
    else match w.disk.read p with
      | .error f => (.error (.read p f), w)
      | .ok c => match w.disk.replace (backup p) c with
        | (.error f, d) => (.error (.write (backup p) f), { w with disk := d })
        | (.ok (), d) => (.ok (.of p), (w.change d).emit ⟨.debug, target, "backup created",
            [("file", .path p), ("backup", .path (backup p))]⟩) := by
  simp only [Backup.create, Backup.of, Work.on_bind, Work.on_disk]
  by_cases he : w.disk.exists? (backup p) = true
  · simp only [he, if_true]
    rfl
  simp only [he]
  cases w.disk.read p with
  | error f => rfl
  | ok c =>
    simp only [Bool.false_eq_true, if_false, Work.on_bind, Work.on_replace]
    rcases w.disk.replace (backup p) c with ⟨_ | _, d⟩ <;> rfl

theorem on_discard (b : Backup) (w : World) : Work.on b.discard w =
    match w.disk.remove b.copy with
    | .ok d => (.ok (), w.change d)
    | .error .notFound => (.ok (), w)
    | .error f => (.error (.remove b.copy f), w) := by
  simp only [Backup.discard, Work.on_bind, Work.on_remove]
  cases w.disk.remove b.copy with
  | ok d => rfl
  | error f => cases f <;> rfl

theorem IsHandle.eq (h : IsHandle p b) : b = .of p := by
  obtain ⟨d, h | h⟩ := h
  · simp only [existing?] at h
    split at h <;> simp_all
  · rw [on_create] at h
    split at h
    · cases h
    split at h
    · cases h
    split at h
    · cases h
    · exact (Except.ok.inj h).symm

/-! ### What an act can do -/

/-- What an act can do on a disk. -/
inductive Effect (d : Disk) : Act → Except Problem Unit → Disk → Prop
  | lookedUp (p : Path) : Effect d (.lookUp p) (.ok ()) d
  /-- Nothing came of it. -/
  | refused {a : Act} {problem : Problem} {d' : Disk} (h : Turned d d.get? d') : Effect d a (.error problem) d'
  /-- There was nothing to take away. -/
  | idle {p : Path} (h : d.remove (backup p) = .error .notFound) : Effect d (.commit (.of p)) (.ok ()) d
  | created {p : Path} {c : Bytes} {dir : Location} {n : Bytes} {d' : Disk} (hr : d.read p = .ok c)
      (hl : Leads d (backup p) dir n) (hv : d.get? (dir ++ [n]) = none)
      (h : Turned d (update d.get? (dir ++ [n]) (some (.file privateMode c))) d') :
      Effect d (.create p) (.ok ()) d'
  | committed {p : Path} {dir : Location} {n : Bytes} {d' : Disk} (hl : Leads d (backup p) dir n)
      (h : Turned d (update d.get? (dir ++ [n]) none) d') : Effect d (.commit (.of p)) (.ok ()) d'
  /-- The source is as it was, and the backup goes if it can be taken away. -/
  | restored {p : Path} {c : Bytes} {dir dir' : Location} {n n' : Bytes} {d₁ d' : Disk} {r : Except Problem Unit}
      (hr : d.read (backup p) = .ok c) (hl : Writable d p dir n) (hc : Leads d (backup p) dir' n')
      (h₁ : Turned d (update d.get? (dir ++ [n]) (some (.file (inherit (d.get? (dir ++ [n]))) c))) d₁)
      (h : r = .ok () ∧ Turned d₁ (update d₁.get? (dir' ++ [n']) none) d' ∨
        d' = d₁ ∧ ∃ q f, r = .error (.remove q f)) : Effect d (.restore (.of p)) r d'

theorem effect_create (hn : LinkFree d) (hd : Tree d) (p : Path) :
    Effect d (.create p) ((Act.create p).on d).1 ((Act.create p).on d).2 := by
  simp only [Act.on, done, on_create, show (World.start (.ofDisk d)).disk = d from rfl]
  by_cases he : d.exists? (backup p) = true
  · rw [if_pos he]
    exact .refused (.refl hd)
  rw [if_neg he]
  cases hr : d.read p with
  | error f => exact .refused (.refl hd)
  | ok c =>
    rcases hn.replace_cases hd (backup p) c with ⟨f, d', hrep, ht⟩ | ⟨dir, n, d', hrep, hw, ht⟩
    · simp only [hrep]
      exact .refused ht
    · have hv : d.get? (dir ++ [n]) = none := by
        by_contra hne
        exact he ((hw.leads.exists?_iff hw.slash (hn.noLink _)).2 hne)
      simp only [hrep]
      rw [hv] at ht
      exact .created hr hw.leads hv ht

theorem effect_commit (hn : LinkFree d) (hd : Tree d) (p : Path) :
    Effect d (.commit (.of p)) ((Act.commit (.of p)).on d).1 ((Act.commit (.of p)).on d).2 := by
  simp only [Act.on, done, Backup.commit, Work.on_bind, on_discard, Backup.of,
    show (World.start (.ofDisk d)).disk = d from rfl]
  rcases hn.remove_cases hd (backup p) with ⟨f, hr⟩ | ⟨dir, n, d', hr, hl, ht⟩
  · simp only [hr]
    cases f
    case notFound => exact .idle hr
    all_goals exact .refused (.refl hd)
  · simp only [hr]
    exact .committed hl ht

theorem effect_restore (hn : LinkFree d) (hd : Tree d) (hp : isArtefact p = false) :
    Effect d (.restore (.of p)) ((Act.restore (.of p)).on d).1 ((Act.restore (.of p)).on d).2 := by
  simp only [Act.on, done, Backup.restore, Work.on_bind, Work.on_disk, Backup.of,
    show (World.start (.ofDisk d)).disk = d from rfl]
  cases hr : d.read (backup p) with
  | error f => exact .refused (.refl hd)
  | ok c =>
    simp only [Work.on_bind, Work.on_replace, show (World.start (.ofDisk d)).disk = d from rfl]
    rcases hn.replace_cases hd p c with ⟨f, d', hrep, ht⟩ | ⟨dir, n, d₁, hrep, hw, ht⟩
    · simp only [hrep]
      exact .refused ht
    obtain ⟨dir', n', e, hc, hg, -⟩ := hn.read_inv hd hr
    simp only [hrep, Work.on_bind, on_discard, show ((World.start (.ofDisk d)).change d₁).disk = d₁ from rfl]
    rcases (hn.turned ht).remove_cases ht.tree (backup p) with ⟨f, hrm⟩ | ⟨dir'', n'', d', hrm, hc', ht'⟩
    · -- the backup is still there to be taken away
      have hne : dir' ++ [n'] ≠ dir ++ [n] := fun heq =>
        place_ne_backup hw.leads hp d.cwd p (heq.symm.trans (hc.place hn).symm)
      have hg₁ : d₁.get? (dir' ++ [n']) = some e := by rw [ht.view, update_of_ne hne, hg]
      have hfound : f ≠ .notFound := fun hf => (hc.alike ht.alike).remove_ne_notFound hg₁ (hf ▸ hrm)
      simp only [hrm]
      cases f
      case notFound => exact absurd rfl hfound
      all_goals exact .restored hr hw hc ht (.inr ⟨rfl, _, _, rfl⟩)
    · obtain ⟨rfl, rfl⟩ := (hc.alike ht.alike).unique hc'
      simp only [hrm]
      exact .restored hr hw hc ht (.inl ⟨rfl, ht'⟩)

/-! ### Sequences of acts -/

/-- The act is on a source in `lives`, by a handle for it; or others change the disk, and neither make links nor
touch the places of the backups. -/
def Act.Fits (lives : List Path) (d : Disk) : Act → Prop
  | .create p | .lookUp p => p ∈ lives
  | .commit b | .restore b => ∃ p ∈ lives, IsHandle p b
  | .outside d' => Tree d' ∧ LinkFree d' ∧ d'.cwd = d.cwd ∧
      ∀ p ∈ lives, d'.get? ((backup p).place d.cwd) = d.get? ((backup p).place d.cwd)

/-- Acts one after the other lead from one disk to another. -/
def Along (lives : List Path) : Disk → List Act → Disk → Prop
  | d, [], d' => d' = d
  | d, a :: acts, d' => a.Fits lives d ∧ Along lives (a.on d).2 acts d'

/-- The act uses up the backup of the file that `p` is a path of. -/
def Act.Settles (cwd : Location) (p : Path) (a : Act) : Prop :=
  ∃ b, (a = .commit b ∨ a = .restore b) ∧ b.live.place cwd = p.place cwd

/-- The backup of `p` stays as it is: it comes where nothing was, when it is made, and goes when it is used. -/
def CopyKept (d : Disk) (a : Act) (r : Except Problem Unit) (d' : Disk) (p : Path) : Prop :=
  d'.get? ((backup p).place d.cwd) = d.get? ((backup p).place d.cwd) ∨
  (∃ q c, a = .create q ∧ q.place d.cwd = p.place d.cwd ∧ r = .ok () ∧ d.read q = .ok c ∧
    d.get? ((backup p).place d.cwd) = none ∧ d'.get? ((backup p).place d.cwd) = some (.file privateMode c)) ∨
  a.Settles d.cwd p ∧ d'.get? ((backup p).place d.cwd) = none

/-- What every act keeps. -/
structure Safe (lives : List Path) (d : Disk) (a : Act) (r : Except Problem Unit) (d' : Disk) : Prop where
  copies : ∀ p ∈ lives, CopyKept d a r d' p
  occupied : ∀ p, a = .create p → (d.exists? (backup p) = true → r = .error (.alreadyExists p (backup p))) ∧
    (d.get? ((backup p).place d.cwd) ≠ none → r ≠ .ok ())
  commits : ∀ b, a = .commit b → ∀ p ∈ lives, d'.file? p = d.file? p
  settled : ∀ b, a = .commit b ∨ a = .restore b → r = .ok () → ∀ dir n, Leads d' b.copy dir n → d'.get? (dir ++ [n]) = none
  failures : ∀ problem, r = .error problem →
    (∃ p, a = .create p) ∨ (∃ b, a = .restore b) ∧ (∃ q f, problem = .read q f ∨ problem = .write q f) →
    d'.get? = d.get? ∧ d'.cwd = d.cwd

variable {lives : List Path} {a : Act} {acts : List Act}

theorem effect_of_fits (hn : LinkFree d) (hd : Tree d) (hlives : ∀ p ∈ lives, isArtefact p = false)
    (hf : a.Fits lives d) (ha : ∀ d', a ≠ .outside d') : Effect d a (a.on d).1 (a.on d).2 := by
  cases a with
  | create p => exact effect_create hn hd p
  | lookUp p => exact .lookedUp p
  | commit b =>
    obtain ⟨p, -, hb⟩ := hf
    rw [hb.eq]
    exact effect_commit hn hd p
  | restore b =>
    obtain ⟨p, hp, hb⟩ := hf
    rw [hb.eq]
    exact effect_restore hn hd (hlives p hp)
  | outside d' => exact absurd rfl (ha d')

theorem Effect.turned (hd : Tree d) (h : Effect d a r d') : ∃ v, Turned d v d' := by
  cases h with
  | lookedUp | idle => exact ⟨_, .refl hd⟩
  | refused h | created _ _ _ h | committed _ h => exact ⟨_, h⟩
  | restored _ _ _ h₁ h =>
    rcases h with ⟨-, h⟩ | ⟨rfl, -⟩
    · exact ⟨_, h₁.trans h⟩
    · exact ⟨_, h₁⟩

theorem sound_of_fits (hn : LinkFree d) (hd : Tree d) (hlives : ∀ p ∈ lives, isArtefact p = false)
    (hf : a.Fits lives d) : LinkFree (a.on d).2 ∧ Tree (a.on d).2 ∧ (a.on d).2.cwd = d.cwd := by
  by_cases ha : ∃ d', a = .outside d'
  · obtain ⟨d', rfl⟩ := ha
    exact ⟨hf.2.1, hf.1, hf.2.2.1⟩
  · obtain ⟨v, ht⟩ := (effect_of_fits hn hd hlives hf fun d' h => ha ⟨d', h⟩).turned hd
    exact ⟨hn.turned ht, ht.tree, ht.alike.cwd⟩

namespace Effect

theorem isArtefact_of_fits (hlives : ∀ p ∈ lives, isArtefact p = false) (hf : (Act.restore (.of q)).Fits lives d) :
    isArtefact q = false := by
  obtain ⟨p, hp, hb⟩ := hf
  obtain rfl : q = p := congrArg Backup.live hb.eq
  exact hlives q hp

theorem copyKept (h : Effect d a r d') (hn : LinkFree d) (hlives : ∀ p ∈ lives, isArtefact p = false)
    (hf : a.Fits lives d) (p : Path) : CopyKept d a r d' p := by
  cases h with
  | lookedUp | idle => exact .inl rfl
  | refused h => exact .inl (by rw [h.view])
  | @created q c dir n _ hr hl hv h =>
    rw [← hl.place hn] at hv h
    by_cases hpq : (backup q).place d.cwd = (backup p).place d.cwd
    · refine .inr (.inl ⟨q, c, rfl, place_eq_of_backup hpq, rfl, hr, hpq ▸ hv, ?_⟩)
      rw [h.view, hpq, update_self]
    · exact .inl (by rw [h.view, update_of_ne (Ne.symm hpq)])
  | @committed q dir n _ hl h =>
    rw [← hl.place hn] at h
    by_cases hpq : (backup q).place d.cwd = (backup p).place d.cwd
    · refine .inr (.inr ⟨⟨_, .inl rfl, place_eq_of_backup hpq⟩, ?_⟩)
      rw [h.view, hpq, update_self]
    · exact .inl (by rw [h.view, update_of_ne (Ne.symm hpq)])
  | @restored q c dir dir' n n' d₁ _ _ hr hw hc h₁ h =>
    have hlive : (backup p).place d.cwd ≠ dir ++ [n] :=
      (place_ne_backup hw.leads (isArtefact_of_fits hlives hf) d.cwd p).symm
    have hsame : d₁.get? ((backup p).place d.cwd) = d.get? ((backup p).place d.cwd) := by
      rw [h₁.view, update_of_ne hlive]
    rcases h with ⟨-, h⟩ | ⟨rfl, -⟩
    · rw [← hc.place hn] at h
      by_cases hpq : (backup q).place d.cwd = (backup p).place d.cwd
      · refine .inr (.inr ⟨⟨_, .inr rfl, place_eq_of_backup hpq⟩, ?_⟩)
        rw [h.view, hpq, update_self]
      · exact .inl (by rw [h.view, update_of_ne (Ne.symm hpq), hsame])
    · exact .inl hsame

theorem copy_of_create (h : Effect d (.create p) (.ok ()) d') (hn : LinkFree d) :
    d.get? ((backup p).place d.cwd) = none ∧
      ∃ c, d.read p = .ok c ∧ d'.get? ((backup p).place d.cwd) = some (.file privateMode c) := by
  cases h with
  | created hr hl hv h => exact ⟨by rw [hl.place hn, hv], _, hr, by rw [hl.place hn, h.view, update_self]⟩

theorem file?_of_commit (h : Effect d (.commit b) r d') (hn : LinkFree d) (hd : Tree d) (hp : isArtefact p = false) :
    d'.file? p = d.file? p := by
  cases h with
  | idle => rfl
  | refused h => exact file?_congr hd h.tree h.alike (hn.noLink p) fun dir n _ => by rw [h.view]
  | committed hl h =>
    refine file?_congr hd h.tree h.alike (hn.noLink p) fun dir n hleads => ?_
    rw [h.view, ← hl.place hn, update_of_ne (place_ne_backup hleads hp d.cwd _)]

/-- A backup that was used is gone. -/
theorem gone (h : Effect d a (.ok ()) d') (ha : a = .commit b ∨ a = .restore b) (hl : Leads d' b.copy dir n) :
    d'.get? (dir ++ [n]) = none := by
  generalize hr : (Except.ok () : Except Problem Unit) = r at h
  cases h with
  | refused => cases hr
  | lookedUp | created => rcases ha with ha | ha <;> cases ha
  | idle h =>
    obtain rfl := Act.commit.inj (ha.resolve_right (by simp))
    by_contra hne
    obtain ⟨e, hg⟩ := Option.ne_none_iff_exists'.1 hne
    exact hl.remove_ne_notFound hg h
  | committed hc h =>
    obtain rfl := Act.commit.inj (ha.resolve_right (by simp))
    obtain ⟨rfl, rfl⟩ := (hc.alike h.alike).unique hl
    rw [h.view, update_self]
  | restored _ _ hc h₁ h =>
    obtain rfl := Act.restore.inj (ha.resolve_left (by simp))
    obtain ⟨-, h⟩ := h.resolve_right (by rintro ⟨-, q, f, rfl⟩; cases hr)
    obtain ⟨rfl, rfl⟩ := ((hc.alike h₁.alike).alike h.alike).unique hl
    rw [h.view, update_self]

/-- An act that was refused changed nothing, unless the source was written. -/
theorem get?_of_error {problem : Problem} (h : Effect d a (.error problem) d')
    (hq : ∀ b, a = .restore b → ∀ q f, problem ≠ .remove q f) : d'.get? = d.get? ∧ d'.cwd = d.cwd := by
  generalize hr : (Except.error problem : Except Problem Unit) = r at h
  cases h with
  | refused h => exact ⟨h.view, h.alike.cwd⟩
  | lookedUp | idle | created | committed => cases hr
  | restored _ _ _ _ h =>
    rcases h with ⟨rfl, -⟩ | ⟨-, q, f, rfl⟩
    · cases hr
    · exact absurd (Except.error.inj hr) (hq _ rfl q f)

end Effect

theorem safe_of_fits (hn : LinkFree d) (hd : Tree d) (hlives : ∀ p ∈ lives, isArtefact p = false)
    (hf : a.Fits lives d) : Safe lives d a (a.on d).1 (a.on d).2 := by
  by_cases ha : ∃ d', a = .outside d'
  · obtain ⟨d', rfl⟩ := ha
    exact ⟨fun p hp => .inl (hf.2.2.2 p hp), fun p h => (by cases h), fun b h => (by cases h),
      fun b h => (by rcases h with h | h <;> cases h), fun problem h => (by cases h)⟩
  have h := effect_of_fits hn hd hlives hf fun d' h => ha ⟨d', h⟩
  refine ⟨fun p _ => h.copyKept hn hlives hf p, ?_, ?_, fun b hb hr dir n => (hr ▸ h).gone hb, fun problem hr hkind => ?_⟩
  · rintro p rfl
    refine ⟨fun he => ?_, fun hg hr => hg ?_⟩
    · simp only [Act.on, done, on_create, show (World.start (.ofDisk d)).disk = d from rfl, he, if_true]
      rfl
    · rw [hr] at h
      exact (h.copy_of_create hn).1
  · rintro b rfl p hp
    exact h.file?_of_commit hn hd (hlives p hp)
  · rw [hr] at h
    refine h.get?_of_error fun b hb q f hq => ?_
    rcases hkind with ⟨p, rfl⟩ | ⟨-, q', f', hread | hwrite⟩
    · cases hb
    · cases hq.symm.trans hread
    · cases hq.symm.trans hwrite

/-- Along any acts a backup stays as it is until it is used. -/
theorem Along.copy_stays {acts : List Act} {mode : Nat} (h : Along lives d acts d') (hn : LinkFree d) (hd : Tree d)
    (hlives : ∀ p ∈ lives, isArtefact p = false) (hp : p ∈ lives)
    (hg : d.get? ((backup p).place d.cwd) = some (.file mode c)) (hs : ∀ a ∈ acts, ¬ a.Settles d.cwd p) :
    d'.get? ((backup p).place d.cwd) = some (.file mode c) := by
  induction acts generalizing d with
  | nil =>
    obtain rfl : d' = d := h
    exact hg
  | cons a acts ih =>
    obtain ⟨hf, h⟩ := h
    obtain ⟨hn', hd', hcwd⟩ := sound_of_fits hn hd hlives hf
    rw [← hcwd] at hs ⊢
    refine ih h hn' hd' ?_ fun a' ha' => hs a' (List.mem_cons_of_mem a ha')
    rw [hcwd]
    rcases (safe_of_fits hn hd hlives hf).copies p hp with hsame | ⟨q, c', -, -, -, -, hnone, -⟩ | ⟨hset, -⟩
    · rw [hsame, hg]
    · rw [hnone] at hg
      cases hg
    · exact absurd (hcwd ▸ hset) (hs a List.mem_cons_self)

theorem Along.sound (h : Along lives d acts d') (hn : LinkFree d) (hd : Tree d)
    (hlives : ∀ p ∈ lives, isArtefact p = false) : LinkFree d' ∧ Tree d' ∧ d'.cwd = d.cwd := by
  induction acts generalizing d with
  | nil =>
    obtain rfl : d' = d := h
    exact ⟨hn, hd, rfl⟩
  | cons a acts ih =>
    obtain ⟨hf, h⟩ := h
    obtain ⟨hn', hd', hcwd⟩ := sound_of_fits hn hd hlives hf
    obtain ⟨hn'', hd'', hcwd'⟩ := ih h hn' hd'
    exact ⟨hn'', hd'', hcwd'.trans hcwd⟩

theorem Effect.file?_of_restore {mode : Nat} (h : Effect d (.restore (.of p)) (.ok ()) d') (hn : LinkFree d) (hd : Tree d)
    (hp : isArtefact p = false) (hg : d.get? ((backup p).place d.cwd) = some (.file mode c)) :
    d'.file? p = some (((d.file? p).map (·.1)).getD privateMode, c) := by
  generalize hr : (Except.ok () : Except Problem Unit) = r at h
  cases h with
  | refused h => cases hr
  | @restored _ c' dir dir' n n' d₁ _ _ hread hw hc h₁ h =>
    have h := (h.resolve_right (by rintro ⟨-, q, f, rfl⟩; cases hr)).2
    obtain rfl : c = c' := by
      obtain ⟨dir'', n'', e, hl, he, hsame⟩ := hn.read_inv hd hread
      rw [hl.place hn, he] at hg
      exact hsame mode c (Option.some.inj hg)
    have hne : dir ++ [n] ≠ dir' ++ [n'] := by
      rw [← hc.place hn]
      exact place_ne_backup hw.leads hp d.cwd p
    have hl : Leads d' p dir n := (hw.leads.alike h₁.alike).alike h.alike
    rw [hw.mode_file?, file?_eq_some_iff h.tree ((hn.turned h₁).turned h |>.noLink p)]
    refine ⟨hw.slash, dir, n, hl, ?_⟩
    rw [h.view, update_of_ne hne, h₁.view, update_self]

/-- Backups under any sequence of acts. -/
theorem backups_safe (lives : List Path) (hlives : ∀ p ∈ lives, isArtefact p = false) (d₀ d : Disk)
    (acts : List Act) (hd : Tree d₀) (hn : LinkFree d₀) (halong : Along lives d₀ acts d) :
    (∀ a, a.Fits lives d → Safe lives d a (a.on d).1 (a.on d).2) ∧
    (∀ p ∈ lives, ∀ mode c, d₀.get? ((backup p).place d₀.cwd) = some (.file mode c) →
      (∀ a ∈ acts, ¬ a.Settles d₀.cwd p) → d.get? ((backup p).place d₀.cwd) = some (.file mode c)) ∧
    ∀ p ∈ lives, ∀ b later d', acts = .create p :: later → ((Act.create p).on d₀).1 = .ok () →
      (∀ a ∈ later, ¬ a.Settles d₀.cwd p) → IsHandle p b → (Act.restore b).on d = (.ok (), d') →
      ∃ c, d₀.read p = .ok c ∧ d'.file? p = some (((d.file? p).map (·.1)).getD privateMode, c) := by
  obtain ⟨hn', hd', hcwd⟩ := halong.sound hn hd hlives
  refine ⟨fun a ha => safe_of_fits hn' hd' hlives ha,
    fun p hp mode c hg hs => halong.copy_stays hn hd hlives hp hg hs, ?_⟩
  rintro p hp b later d' rfl hcreate hs hb hrestore
  obtain ⟨hf, halong⟩ := halong
  obtain ⟨hn₁, hd₁, hcwd₁⟩ := sound_of_fits hn hd hlives hf
  have hcreated := effect_create hn hd p
  rw [hcreate] at hcreated
  obtain ⟨-, c, hread, hg⟩ := hcreated.copy_of_create hn
  have hstays := halong.copy_stays hn₁ hd₁ hlives hp (by rw [hcwd₁, hg]) (by rwa [hcwd₁])
  have hrestored := effect_restore hn' hd' (hlives p hp)
  rw [← hb.eq, hrestore] at hrestored
  rw [hcwd₁, ← hcwd] at hstays
  exact ⟨c, hread, Effect.file?_of_restore (hb.eq ▸ hrestored) hn' hd' (hlives p hp) hstays⟩

namespace Meddling

open Workshop

/-- The workshop when the first source is backed up and others have rewritten it, with bits of their own. -/
def disk : Disk :=
  ((Act.create first).on (workshop 0o644)).2.put (names "w/src/a.cpp")
    (.file 0o600 "int y;\n")

/-- A second backup is refused, and an old handle for another source does no harm. -/
def later : List Act := [.outside disk, .create first, .commit (.of second)]

def last : Disk := ((Act.commit (.of second)).on ((Act.create first).on disk).2).2

theorem along : Along [first, second] (workshop 0o644) (.create first :: later) last := by
  have htree : Tree disk := tree_of_entries (by decide +kernel)
  have hhandle : IsHandle second (.of second) := ⟨workshop 0o644, .inr (by decide +kernel)⟩
  have houtside : (Act.outside disk).Fits [first, second] ((Act.create first).on (workshop 0o644)).2 :=
    ⟨htree, linkFree_of_entries (by decide +kernel), by decide +kernel, by decide +kernel⟩
  simp only [later, Along, show ∀ d, ((Act.outside disk).on d).2 = disk from fun _ => rfl]
  exact ⟨by simp [Act.Fits], houtside, by simp [Act.Fits], ⟨second, by simp, hhandle⟩, last.eq_def⟩

theorem not_settles : ∀ a ∈ later, ¬ a.Settles (workshop 0o644).cwd first := by
  rintro a ha ⟨b, hb, hplace⟩
  have hne : second.place (workshop 0o644).cwd ≠ first.place (workshop 0o644).cwd := by decide +kernel
  rcases hb with rfl | rfl
  · obtain rfl : b = .of second := by simpa [later] using ha
    exact hne hplace
  · simp [later] at ha

end Meddling

/-- What was lost comes back, under the bits that others gave it. -/
theorem backups_safe_meddling : ∃ d', (Act.restore (.of Workshop.first)).on Meddling.last = (.ok (), d') ∧
    d'.file? Workshop.first = some (0o600, Bytes.ofString "#include <a>\n#include <b>\nint x;\n") := by
  have hd : Tree (workshop 0o644) := tree_of_entries (by decide +kernel)
  obtain ⟨-, -, hback⟩ := backups_safe [Workshop.first, Workshop.second] (by decide +kernel) (workshop 0o644)
    Meddling.last _ hd (linkFree_of_entries (by decide +kernel)) Meddling.along
  have hok : ((Act.restore (.of Workshop.first)).on Meddling.last).1 = .ok () := by decide +kernel
  have hcreate : ((Act.create Workshop.first).on (workshop 0o644)).1 = .ok () := by decide +kernel
  have hhandle : IsHandle Workshop.first (.of Workshop.first) := ⟨workshop 0o644, .inr (by decide +kernel)⟩
  obtain ⟨d', hd'⟩ := Act.exists_on hok
  obtain ⟨c, hread, hfile⟩ := hback Workshop.first (by simp) (.of Workshop.first) Meddling.later d' rfl hcreate
    Meddling.not_settles hhandle hd'
  refine ⟨d', hd', hfile.trans ?_⟩
  have hmode : (Meddling.last.file? Workshop.first).map (·.1) = some 0o600 := by decide +kernel
  have hbytes : (workshop 0o644).read Workshop.first =
      .ok "#include <a>\n#include <b>\nint x;\n" := by decide +kernel
  rw [hmode, Except.ok.inj (hread.symm.trans hbytes)]
  rfl

end Backup

end Prune
