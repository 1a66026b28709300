import Prune.Proofs.Discovery
import Prune.Proofs.Handles
import Prune.Proofs.Markers
import Prune.Proofs.Replacing

/-!
# Positions are read as they were kept

The progress file holds one text for three kinds of position, and line ends behind it do not count, so not every text
is read as what was kept (`decode_text_iff`). Each call replaces the file or leaves the disk as it is. By induction
over the calls the answer is that of the last one that came to its end (`read_saves`). A source has an extension,
which keeps its path apart from the two texts that mean something else.
-/

namespace Prune

open Disk Artefact

variable {d d' : Disk} {p path : Path} {r : Resume} {w w' : World}

namespace Disk

theorem locate_congr (hv : d'.get? = d.get?) (hc : d'.cwd = d.cwd) (p : Path) : d'.locate p = d.locate p := by
  simp only [locate, hc, walkSteps_congr hv]

end Disk

namespace Progress

/-- A path is read as itself, unless it ends in a line end or is one of the texts that mean something else. -/
theorem decode_text_iff : decode p.text = .inProgress p ↔
    p.text ≠ [] ∧ (∀ b, p.text.getLast? = some b → b ≠ 0x0A ∧ b ≠ 0x0D) ∧ p.text ≠ sentinel := by
  have hend : (∀ b, p.text.getLast? = some b → b ≠ 0x0A ∧ b ≠ 0x0D) ↔
      (p.text.reverse.dropWhile isLineEnd).reverse = p.text := by
    rw [← List.rdropWhile, List.rdropWhile_eq_self_iff]
    constructor
    · intro h hne
      have hlast := h _ (List.getLast?_eq_some_getLast hne)
      simp [isLineEnd, hlast]
    · intro h b hb
      obtain ⟨hne, rfl⟩ := List.mem_getLast?_eq_getLast hb
      simpa [isLineEnd] using h hne
  rw [hend]
  simp only [decode]
  constructor
  · intro h
    split at h
    · cases h
    next hne =>
    split at h
    · cases h
    next hsent =>
    have htext := congrArg Path.text (Resume.inProgress.inj h)
    simp only at htext
    rw [htext] at hne hsent
    exact ⟨hne, htext, hsent⟩
  · rintro ⟨hne, htext, hsent⟩
    rw [htext, if_neg hne, if_neg hsent]

theorem read_congr (hv : d'.get? = d.get?) (hc : d'.cwd = d.cwd) (path : Path) : read d' path = read d path := by
  simp only [read, readText, Disk.read, stat, resolve_congr hv hc]

/-- Where a position can be found again when it was kept: the path does not go through a link that it ends in, and
the file that is there may be read. -/
structure Home (d : Disk) (path : Path) : Prop where
  tree : Tree d
  place : ∀ dir n, d.locate path = .ok (.named dir n) →
    (d.put (dir ++ [n]) (.file 0 [])).locate path = .ok (.named dir n)
  mode : ∀ mode content, d.file? path = some (mode, content) → allows mode readBit = true

theorem Home.of_error (hh : Home d path) (hu : Unchanged d d') : Home d' path := by
  have hv : d'.get? = d.get? := by funext l; simp [get?, hu.entries]
  refine ⟨hh.tree.congr hu.entries hu.cwd, fun dir n hl => ?_, fun mode content hf => hh.mode mode content ?_⟩
  · rw [locate_congr hv hu.cwd] at hl
    refine (locate_congr ?_ ?_ path).trans (hh.place dir n hl)
    · funext k
      rw [get?_put (by simp), get?_put (by simp), hv]
    · exact hu.cwd
  · simpa only [file?, stat, resolve_congr hv hu.cwd] using hf

/-- What was kept is found again, and another position can be kept there. -/
theorem Home.of_ok (hh : Home d path) {content : Bytes} (hr : d.replace path content = (.ok (), d')) :
    Home d' path ∧ (Utf8.isValid content = true → read d' path = .ok (decode content)) := by
  rcases replace_cases hh.tree path content with ⟨f, d₁, herr, -⟩ | ⟨dir, n, mode?, hrep, hm⟩
  · cases hr.symm.trans herr
  obtain ⟨d₁, hr', hw⟩ := replace_of_replaceable hrep hm content
  cases hr.symm.trans hr'
  have htree : ∀ e, Tree (d.put (dir ++ [n]) e) := hh.tree.put hrep.leads.isDir hrep.leads.name hrep.leaf
  have htree' : Tree d' := (htree _).congr hw.entries hw.cwd
  have hget : ∀ k, d'.get? k = (d.put (dir ++ [n]) (.file (mode?.getD privateMode) content)).get? k := fun k => by
    simp [get?, hw.entries]
  -- the path leads to the new file as it would lead to any other file there
  have halike : Alike (d.put (dir ++ [n]) (.file 0 [])) d' := by
    refine ⟨hw.cwd, fun k => ?_⟩
    rw [hget, get?_put (by simp), get?_put (by simp)]
    split <;> rfl
  have hleads : Leads d' path dir n :=
    (Leads.of_locate (htree _) (.refl _) (hh.place dir n hrep.leads.locate)).alike halike
  have hnew : d'.get? (dir ++ [n]) = some (.file (mode?.getD privateMode) content) := by
    rw [hget, get?_put (by simp), if_pos rfl]
  have hmode : allows (mode?.getD privateMode) readBit = true := by
    rw [inheritedMode_getD hm]
    cases hf : d.file? path with
    | none => decide
    | some f => exact hh.mode f.1 f.2 hf
  refine ⟨⟨htree', fun dir' n' hl => ?_, fun mode c hf => ?_⟩, hleads.progress_read hrep.slash hnew hmode⟩
  · obtain ⟨rfl, rfl⟩ := hleads.unique (.of_locate htree' (.refl _) hl)
    exact (hleads.alike (alike_put (by simp) (by rw [hnew]; rfl) rfl)).locate
  · rw [file?, hleads.stat_some hrep.slash hnew (by simp)] at hf
    cases hf
    exact hmode

theorem save_cases (hh : Home w.disk path) (hlog : w.log = none) (hr : Utf8.isValid (encode r) = true) :
    ∃ answer w', Work.on (save path r) w = (answer, w') ∧ Home w'.disk path ∧ w'.log = none ∧
      read w'.disk path = match answer with
        | .ok () => .ok (decode (encode r))
        | .error _ => read w.disk path := by
  simp only [save, Work.on_bind, Work.on_replace]
  cases hrep : w.disk.replace path (encode r) with
  | mk answer d₁ =>
    cases answer with
    | error f =>
      have hu := unchanged_of_error hrep
      exact ⟨_, _, rfl, hh.of_error hu, hlog, read_congr (by funext l; simp [get?, hu.entries]) hu.cwd path⟩
    | ok u =>
      obtain ⟨hh', hread⟩ := hh.of_ok hrep
      have hdisk : ∀ e, ((w.change d₁).emit e).disk = d₁ := World.disk_emit hlog
      exact ⟨_, _, rfl, (hdisk _).symm ▸ hh', hlog, (hdisk _).symm ▸ hread hr⟩

/-- Keeps positions one after the other, and returns those for which that came to its end. -/
def saves (path : Path) : List Resume → Work (List Resume)
  | [] => return []
  | r :: rest => do
    match ← save path r with
    | .ok () => return r :: (← saves path rest)
    | .error _ => saves path rest

/-- The answer is that of the last call that came to its end, and without one it is what it was. -/
theorem read_saves (calls : List Resume) (hh : Home w.disk path) (hlog : w.log = none)
    (hvalid : ∀ r ∈ calls, Utf8.isValid (encode r) = true) :
    read (Work.on (saves path calls) w).2.disk path =
      match (Work.on (saves path calls) w).1.getLast? with
      | none => read w.disk path
      | some r => .ok (decode (encode r)) := by
  induction calls generalizing w with
  | nil => rfl
  | cons r calls ih =>
    obtain ⟨answer, w', hsave, hh', hlog', hread⟩ := save_cases hh hlog (hvalid r (by simp))
    have hrest := ih hh' hlog' fun r hr => hvalid r (.tail _ hr)
    simp only [saves, Work.on_bind, hsave]
    cases answer with
    | error e => rw [hrest, hread]
    | ok u =>
      simp only [Work.on_bind, Work.on_pure, List.getLast?_cons] at hrest ⊢
      rw [hrest]
      cases (Work.on (saves path calls) w').1.getLast? with
      | none => exact hread
      | some r' => rfl

end Progress

open Progress

theorem source_text {h : Host} (hd : Tree h.disk) {root : Path} {extensions : List Bytes} {files : List Path}
    (hext : ∀ e ∈ extensions, ∀ b, e.getLast? = some b → b ≠ 0x0A ∧ b ≠ 0x0D)
    (hfind : (Work.on (Sources.find root extensions) (World.start h)).1 = .ok files) (hp : p ∈ files) :
    Utf8.isValid p.text = true ∧ decode p.text = .inProgress p := by
  obtain ⟨es, w, -, hrun, -⟩ := find_deeds hd root extensions (Trail.start (fun _ _ h => ⟨h, none, []⟩) hd)
  rw [hrun] at hfind
  obtain ⟨hl, hvalid⟩ := Sources.listing_of_listed hd hfind
  obtain ⟨hlisted, l, e, hsp, hg, he⟩ := (hl.mem_iff p).1 hp
  refine ⟨hvalid p l e hsp hg he, decode_source (dot_mem_of_isListed hlisted) (hsp.not_isLineEnd ?_ hlisted)⟩
  intro e he b hb
  simpa [isLineEnd] using hext e he b hb

/-- After any calls the answer is that of the last one that came to its end, or what it was before. A path is read
as itself unless it is empty, ends in a line end or is the sentinel, and a source is always read as itself. -/
theorem position_read_as_kept (hh : Home d path) (calls : List Resume)
    (hvalid : ∀ p, .inProgress p ∈ calls → Utf8.isValid p.text = true) :
    let kept := Work.on (saves path calls) (World.start (.ofDisk d))
    (Progress.read kept.2.disk path = match kept.1.getLast? with
      | none => Progress.read d path
      | some .fresh => .ok .fresh
      | some .done => .ok .done
      | some (.inProgress p) => .ok (decode p.text)) ∧
    (∀ p, kept.1.getLast? = some (.inProgress p) → (Progress.read kept.2.disk path = .ok (.inProgress p) ↔
      p.text ≠ [] ∧ (∀ b, p.text.getLast? = some b → b ≠ 0x0A ∧ b ≠ 0x0D) ∧ p.text ≠ sentinel)) ∧
    ∀ (h : Host) (root : Path) (extensions : List Bytes) (files : List Path), Tree h.disk →
      (∀ e ∈ extensions, ∀ b, e.getLast? = some b → b ≠ 0x0A ∧ b ≠ 0x0D) →
      (Work.on (Sources.find root extensions) (World.start h)).1 = .ok files → ∀ p ∈ files,
        Utf8.isValid p.text = true ∧
        (kept.1.getLast? = some (.inProgress p) → Progress.read kept.2.disk path = .ok (.inProgress p)) := by
  intro kept
  have hread : Progress.read kept.2.disk path = match kept.1.getLast? with
      | none => Progress.read d path
      | some r => .ok (decode (encode r)) := by
    refine read_saves calls hh rfl fun r hr => ?_
    cases r with
    | inProgress p => exact hvalid p hr
    | _ => decide
  have hmark : ∀ p, kept.1.getLast? = some (.inProgress p) → Progress.read kept.2.disk path = .ok (decode p.text) :=
    fun p hp => by rw [hread, hp]; rfl
  refine ⟨?_, fun p hp => ?_, fun h root extensions files hd hext hfind p hp => ?_⟩
  · rw [hread]
    rcases kept.1.getLast? with _ | _ | _ | _
    · rfl
    · exact congrArg Except.ok (by decide)
    · rfl
    · exact congrArg Except.ok (by decide)
  · rw [hmark p hp, Except.ok.injEq, decode_text_iff]
  · obtain ⟨hvalid', htext⟩ := source_text hd hext hfind hp
    exact ⟨hvalid', fun hlast => (hmark p hlast).trans (congrArg Except.ok htext)⟩

/-- Kept over a link, and read again: a source is not taken for the end of the sweep that was kept before. -/
theorem position_read_as_kept_linked :
    (Work.on (Sources.find (.ofString "dir") [Bytes.ofString "CPP"]) (World.start (.ofDisk Linked.disk))).1 =
      .ok [.ofString "dir/a.cpp"] ∧
    Progress.read (Work.on (saves (.ofString "link") [.done, .inProgress (.ofString "dir/a.cpp")])
      (World.start (.ofDisk Linked.disk))).2.disk (.ofString "link") = .ok (.inProgress (.ofString "dir/a.cpp")) := by
  have hplace : Linked.disk.locate (.ofString "link") = .ok (.named (names "w") "link") := by decide +kernel
  have hfile : Linked.disk.file? (.ofString "link") = some (0o4751, Bytes.ofString "old") := by decide +kernel
  have hhome : Home Linked.disk (.ofString "link") := by
    refine ⟨Linked.tree, fun dir n hl => ?_, fun mode content hf => ?_⟩
    · obtain ⟨rfl, rfl⟩ := Spot.named.inj (Except.ok.inj (hplace.symm.trans hl))
      decide +kernel
    · obtain ⟨rfl, rfl⟩ := Prod.mk.inj (Option.some.inj (hfile.symm.trans hf))
      decide
  have hfind : (Work.on (Sources.find (.ofString "dir") ["CPP"])
      (World.start (.ofDisk Linked.disk))).1 = .ok [.ofString "dir/a.cpp"] := by decide +kernel
  have hvalid : ∀ p, Resume.inProgress p ∈ [.done, .inProgress (.ofString "dir/a.cpp")] →
      Utf8.isValid p.text = true := by
    intro p hp
    obtain rfl : p = .ofString "dir/a.cpp" := by simpa using hp
    decide +kernel
  obtain ⟨-, -, hsources⟩ := position_read_as_kept hhome [.done, .inProgress (.ofString "dir/a.cpp")] hvalid
  have hsource := hsources (.ofDisk Linked.disk) (.ofString "dir") ["CPP"] [.ofString "dir/a.cpp"]
    Linked.tree (by decide +kernel) hfind _ (List.mem_singleton_self _)
  exact ⟨hfind, hsource.2 (by decide +kernel)⟩

/-- The disk of links when a path was marked at a place. -/
def Disk.Linked.marked (place : Path) : Except Progress.Problem Unit × World :=
  Work.on (save place (.inProgress (.ofString "dir/a.cpp"))) (World.start (.ofDisk Linked.disk))

/-- A position can be kept where it cannot be read: over a link that the path itself goes through, and in a file that
must not be read. -/
theorem kept_but_not_read :
    ((Linked.marked (.ofString "way/../way")).1 = .ok () ∧
      Progress.read (Linked.marked (.ofString "way/../way")).2.disk (.ofString "way/../way") =
        .error (.read (.ofString "way/../way") .notDirectory)) ∧
    (Linked.marked (.ofString "shut")).1 = .ok () ∧
      Progress.read (Linked.marked (.ofString "shut")).2.disk (.ofString "shut") =
        .error (.read (.ofString "shut") .denied) := by decide +kernel

end Prune
