import Prune.Proofs.Handles
import Prune.Proofs.Replacing

/-!
# What a run can make of a disk

`Near d S d'` says that `d'` is `d` with other files: directories and links are the same, files have no names in
common that they did not have before, and what has changed at a location is as `S` allows. Replacing, removing and
copying keep a disk near to what it was.
-/

namespace Prune

open Disk Artefact

variable {d d' d'' d₁ : Disk} {p : Path} {l k : Location} {S : Location → Option Entry → Prop}

namespace Disk

/-- What is open on `d'` was open on `d`, under one of its names. -/
def Moves (d d' : Disk) : Prop :=
  ∀ number k, d'.place? number = some (.at k) → ∃ j, d.place? number = some (.at j) ∧ k ∈ d.twins j

theorem Moves.of_eq (h : d'.held = d.held) : Moves d d' := fun number k hk =>
  ⟨k, by rwa [place?, h] at hk, self_mem_twins d k⟩

theorem place?_map {f : Held → Held} (hf : ∀ h, (f h).number = h.number) (number : Nat) :
    { d with held := d.held.map f }.place? number = (d.held.find? (·.number = number)).map fun h => (f h).place := by
  rw [place?, List.find?_map]
  simp [Function.comp_def, hf]

theorem moves_release (d : Disk) (l : Location) : Moves d (d.release l) := by
  intro number k hk
  rw [release, place?_map fun h => by split <;> (try split) <;> (try split) <;> rfl] at hk
  obtain ⟨h, hh, hk⟩ := Option.map_eq_some_iff.1 hk
  have hplace : d.place? number = some h.place := by simp [place?, hh]
  rcases hp : h.place with j | ⟨mode, content⟩
  all_goals simp only [hp] at hk
  · refine ⟨j, hp ▸ hplace, ?_⟩
    split at hk
    · split at hk
      · next hother =>
        cases hk
        exact List.mem_of_find?_eq_some hother
      · cases hk
      · cases hk
    · rw [hp] at hk
      cases hk
      exact self_mem_twins d _
  · cases hk

@[simp] theorem held_noteChange (d : Disk) (l : Location) : (d.noteChange l).held = d.held := rfl

theorem held_amend (d : Disk) (l : Location) (e : Entry) : (d.amend l e).held = d.held := by
  unfold amend
  generalize d.twins l = ks
  induction ks generalizing d with
  | nil => rfl
  | cons k ks ih => exact ih (d.put k e)

theorem moves_renameOver (h : d.renameOver l p = .ok d') : Moves d d' := by
  simp only [renameOver, bind, Except.bind] at h
  split at h
  · cases h
  split at h
  · cases h
  split at h
  · cases h
  split at h
  · cases h
  · cases h
    exact moves_release d _
  · cases h

theorem moves_replace (d : Disk) (p : Path) (content : Bytes) : Moves d (d.replace p content).2 := by
  cases hm : d.inheritedMode p with
  | error f => exact .of_eq (by simp [replace, hm])
  | ok mode? =>
    cases ht : d.temporary p.directory (temporaryStart p) with
    | error f => exact .of_eq (by simp [replace, hm, ht])
    | ok loc =>
      obtain ⟨place, -, -, hfree, s, hloc⟩ := temporary_ok ht
      obtain ⟨ready, hready, hrep⟩ := replace_eq hm ht (by simp [hloc]) hfree content
      rw [hrep]
      split
      · next h =>
        intro number k hk
        obtain ⟨j, hj, hk⟩ := moves_renameOver h number k hk
        exact ⟨j, by rwa [place?, hready.held] at hj, by rwa [twins, hready.shared] at hk⟩
      · exact .of_eq hready.held

/-! ### Disks near to each other -/

/-- `d'` is `d` with other files, which are as `S` says. -/
structure Near (d : Disk) (S : Location → Option Entry → Prop) (d' : Disk) : Prop where
  tree : Tree d'
  alike : Alike d d'
  sharing : Sharing d d'
  frame : ∀ l, d'.get? l = d.get? l ∨ S l (d'.get? l)

namespace Near

theorem refl (hd : Tree d) : Near d S d := ⟨hd, .refl d, .of_eq rfl, fun _ => .inl rfl⟩

theorem trans (h : Near d S d') (h' : Near d' S d'') : Near d S d'' :=
  ⟨h'.tree, h.alike.trans h'.alike, h.sharing.trans h'.sharing, fun l => by
    rcases h'.frame l with hl | hl
    · rw [hl]
      exact h.frame l
    · exact .inr hl⟩

theorem congr (h : Near d S d') (he : d''.entries = d'.entries) (hc : d''.cwd = d'.cwd) (hs : Sharing d' d'') :
    Near d S d'' := by
  have hg : ∀ l, d''.get? l = d'.get? l := fun l => by simp [get?, he]
  exact h.trans ⟨h.tree.congr he hc, .of_get? hc hg, hs, fun l => .inl (hg l)⟩

theorem of_update {e : Option Entry} (ht : Turned d (Function.update d.get? l e) d') (hS : S l e) : Near d S d' := by
  refine ⟨ht.tree, ht.alike, ht.sharing, fun k => ?_⟩
  rw [ht.view]
  by_cases hk : k = l
  · exact .inr (by rwa [hk, Function.update_self])
  · exact .inl (Function.update_of_ne hk ..)

theorem mono {T : Location → Option Entry → Prop} (h : Near d S d') (hST : ∀ l e, S l e → T l e) : Near d T d' :=
  ⟨h.tree, h.alike, h.sharing, fun l => (h.frame l).imp_right (hST l _)⟩

theorem linkFree (h : Near d S d') (hn : LinkFree d) : LinkFree d' := fun l target hg =>
  hn l target (h.alike.link_iff.1 hg)

section
variable {mode : Nat} {content : Bytes}

theorem put (h : Near d S d') (hS : S l (some (.file mode content))) (hl : Site d l) :
    Near d S (d'.put l (.file mode content)) :=
  h.trans (.of_update (turned_put h.tree (hl.alike h.alike) rfl rfl (.of_eq rfl)) hS)

theorem foldl_put {ks : List Location} (hk : ∀ k ∈ ks, S k (some (.file mode content)) ∧ Site d k) (h : Near d S d') :
    Near d S (ks.foldl (fun d k => d.put k (.file mode content)) d') := by
  induction ks generalizing d' with
  | nil => exact h
  | cons k ks ih =>
    obtain ⟨hS, hl⟩ := hk k (by simp)
    exact ih (fun k hk' => hk k (by simp [hk'])) (h.put hS hl)

theorem amend (h : Near d S d') (hk : ∀ k ∈ d.twins l, S k (some (.file mode content)) ∧ Site d k) :
    Near d S (d'.amend l (.file mode content)) := h.foldl_put fun k hk' => hk k (h.sharing.twins hk')

end

theorem noteChange (h : Near d S d') (l : Location) : Near d S (d'.noteChange l) := h.congr rfl rfl (.of_eq rfl)

/-- A file is replaced, or all stays as it is. -/
theorem replace (h : Near d S d₁) (hn : LinkFree d) (content : Bytes)
    (hS : ∀ dir n, Writable d p dir n → S (dir ++ [n]) (some (.file (inherit (d₁.get? (dir ++ [n]))) content))) :
    Near d S (d₁.replace p content).2 := by
  rcases (h.linkFree hn).replace_cases h.tree p content with ⟨f, d', hrep, ht⟩ | ⟨dir, n, d', hrep, hw, ht⟩
  all_goals rw [hrep]
  · exact h.trans ⟨ht.tree, ht.alike, ht.sharing, fun l => .inl (congrFun ht.view l)⟩
  · exact h.trans (.of_update ht (hS dir n (hw.alike h.alike.symm)))

/-- What is taken away is no link. -/
theorem remove (h : Near d S d₁) (hp : NoLink d p) (hS : ∀ dir n, Leads d p dir n → S (dir ++ [n]) none)
    (hrm : d₁.remove p = .ok d') : Near d S d' := by
  obtain ⟨dir, n, e, hr, hg, hdir, rfl⟩ := remove_inv h.tree hrm
  have he : bone (some e) = none := by
    cases e with
    | dir mode => cases hdir
    | link target => exact absurd hg (hp.alike h.alike dir n hr.leads target)
    | _ => rfl
  exact h.trans (.of_update (turned_erase h.tree (by simp) (hg ▸ he) rfl rfl rfl)
    (hS dir n (hr.leads.alike h.alike.symm)))

section
variable (hd : Sited d) (h : Near d S d₁)
include hd h

/-- What was opened for writing is a device, or a file that can be amended. -/
theorem opened {mode : Nat} {o : Opened} (ho : WasOpened d₁ mode l o)
    (hS : ∀ k ∈ d.twins l, ∀ mode c, S k (some (.file mode c))) :
    Near d S o.disk ∧
      (o.device = false → ∀ mode c, ∀ k ∈ d.twins o.location, S k (some (.file mode c)) ∧ Site d k) := by
  have hgood (hl : Site d₁ l) (mode : Nat) (c : Bytes) : ∀ k ∈ d.twins l, S k (some (.file mode c)) ∧ Site d k :=
    fun k hk => ⟨hS k hk mode c, hd l (hl.alike h.alike.symm) k hk⟩
  cases ho with
  | made hs =>
    obtain ⟨hSl, hl⟩ := hgood hs mode [] l (self_mem_twins d l)
    exact ⟨(h.put hSl hl).congr rfl rfl (sharing_noteNew ..), fun _ => hgood hs⟩
  | file hg => exact ⟨h, fun _ => hgood (h.tree.site hg rfl)⟩
  | device => exact ⟨h, fun hdev => by cases hdev⟩

/-- A copy changes the file it is made to, under all its names. -/
theorem copy {source : Path} (hS : ∀ place, d₁.resolve true p = .ok place → bone (d₁.get? place.location) = none →
      ∀ k ∈ d.twins place.location, ∀ mode c, S k (some (.file mode c)))
    {disks : List Disk} (hc : d₁.copy source p = .ok disks) : ∀ d' ∈ disks, Near d S d' ∧ Moves d₁ d' := by
  simp only [Disk.copy, bind, Except.bind] at hc
  split at hc
  · cases hc
  split at hc
  · next mode content _ =>
    split at hc
    · split at hc
      · cases hc
      next o hopen =>
      obtain ⟨place, hr, ho⟩ := openFile_cases h.tree hopen
      obtain ⟨hnear, hgood⟩ := h.opened hd ho (hS place hr ho.bone)
      have hheld : o.disk.held = d₁.held := by cases ho <;> rfl
      cases hdev : o.device with
      | true =>
        have hopened : Near d S o.disk ∧ Moves d₁ o.disk := ⟨hnear, .of_eq hheld⟩
        simp only [Opened.truncate, hdev, if_true] at hc
        split at hc <;> cases hc <;> simpa [Opened.append, hdev] using hopened
      | false =>
        have hgood := hgood hdev
        have hcut := (hnear.amend (hgood (writtenMode o.mode) [])).noteChange o.location
        have hempty := hcut.amend (hgood mode [])
        simp only [Opened.truncate, hdev, Bool.false_eq_true, if_false] at hc
        have hmoves {d' : Disk} (h : d'.held = o.disk.held) : Moves d₁ d' := .of_eq (h.trans hheld)
        split at hc
        · cases hc
          simp only [List.forall_mem_cons, List.not_mem_nil, false_imp_iff, implies_true, and_true, Opened.append]
          refine ⟨⟨hcut, hmoves (held_amend ..)⟩, ⟨hempty, hmoves (by simp [held_amend])⟩, ?_⟩
          split
          · exact ⟨hempty, hmoves (by simp [held_amend])⟩
          · exact ⟨(hempty.amend (hgood _ _)).noteChange _, hmoves (by simp [held_amend])⟩
        · cases hc
          simp only [List.forall_mem_cons, List.not_mem_nil, false_imp_iff, implies_true, and_true]
          exact ⟨⟨hcut, hmoves (held_amend ..)⟩, hempty, hmoves (by simp [held_amend])⟩
    · cases hc
  all_goals cases hc

end

end Near

end Disk

end Prune
