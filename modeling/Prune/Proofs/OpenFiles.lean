import Prune.Proofs.Near

/-!
# Open files and their names

A file that is open can be written under all the names it has, wherever it is moved. What is written to a log comes
to its file, and to no other place (`LogFile.near_append`).
-/

namespace Prune

open Disk Artefact

variable {d d' d'' : Disk} {p : Path} {l k L : Location} {K : Location → Prop} {log : LogFile}

namespace Disk

/-- `p` leads to the location `l`, whatever stands there. -/
def LeadsTo (d : Disk) (p : Path) (l : Location) : Prop := ∃ dir n, Leads d p dir n ∧ l = dir ++ [n]

theorem LeadsTo.alike (ha : Alike d d') (h : LeadsTo d p l) : LeadsTo d' p l :=
  let ⟨dir, n, hl, heq⟩ := h
  ⟨dir, n, hl.alike ha, heq⟩

theorem LeadsTo.unique (h : LeadsTo d p l) (h' : LeadsTo d p k) : k = l := by
  obtain ⟨dir, n, hl, rfl⟩ := h
  obtain ⟨dir', n', hl', rfl⟩ := h'
  obtain ⟨rfl, rfl⟩ := hl.unique hl'
  rfl

/-- What a disk says about names and open files fits together: a name is the name of one file, which is found alike
under all its names, and a number stands for one open file. -/
structure Consistent (d : Disk) : Prop where
  names : (d.shared.map (·.1)).Nodup
  numbers : (d.held.map (·.number)).Nodup
  tied : Tied d
  same : ∀ x ∈ d.shared, ∀ y ∈ d.shared, x.2 = y.2 → d.get? x.1 = d.get? y.1

theorem Consistent.get?_twin (hc : Consistent d) (hk : k ∈ d.twins l) : d.get? k = d.get? l := by
  cases hl : d.shared.lookup l with
  | none =>
    rw [twins, hl, List.mem_singleton] at hk
    rw [hk]
  | some number =>
    simp only [twins, hl] at hk
    obtain ⟨x, hx, rfl⟩ := List.mem_map.1 hk
    obtain ⟨hx, hnum⟩ := List.mem_filter.1 hx
    obtain ⟨xs, ys, hshared, -⟩ := List.lookup_eq_some_iff.1 hl
    exact hc.same x hx (l, number) (by simp [hshared]) (of_decide_eq_true hnum)

theorem place?_hold (hnum : (d.held.map (·.number)).Nodup) {number : Nat} (h : d.hold l = (number, d'))
    (hk : d'.place? number = some (.at k)) : k ∈ d.twins l := by
  simp only [hold] at h
  split at h
  · next g hg =>
    cases h
    have hfind : d.held.find? (·.number = g.number) = some g := by
      cases hf : d.held.find? (·.number = g.number) with
      | none => simpa using List.find?_eq_none.1 hf g (List.mem_of_find?_eq_some hg)
      | some g' =>
        have heq : g'.number = g.number := by simpa using List.find?_some hf
        rw [List.inj_on_of_nodup_map hnum (List.mem_of_find?_eq_some hf) (List.mem_of_find?_eq_some hg) heq]
    rw [place?_map (fun g' => by split <;> rfl), hfind] at hk
    obtain ⟨j, hj, hplace⟩ : ∃ j ∈ d.twins l, g.place = .at j := by simpa using List.find?_some hg
    simp only [if_true, Option.map_some, hplace, Option.some.injEq, Whereabouts.at.injEq] at hk
    exact hk ▸ hj
  · cases h
    simp only [place?, List.find?_cons, decide_true, Option.map_some, Option.some.injEq, Whereabouts.at.injEq] at hk
    exact hk ▸ self_mem_twins d l

/-- `d'` has the same files under the same names as `d`. -/
structure SameTree (d d' : Disk) : Prop where
  entries : d'.entries = d.entries
  cwd : d'.cwd = d.cwd
  shared : d'.shared = d.shared

theorem SameTree.trans (h : SameTree d d') (h' : SameTree d' d'') : SameTree d d'' :=
  ⟨h'.entries.trans h.entries, h'.cwd.trans h.cwd, h'.shared.trans h.shared⟩

theorem SameTree.get? (h : SameTree d d') (l : Location) : d'.get? l = d.get? l := by simp [Disk.get?, h.entries]

/-- `d'` has at every location outside `S` what `d` has there. -/
def SameBut (d : Disk) (S : Location → Prop) (d' : Disk) : Prop :=
  d'.cwd = d.cwd ∧ ∀ l, ¬ S l → d'.get? l = d.get? l

end Disk

/-! ### Opening a log -/

/-- What can be opened as a log, if its bits allow it. -/
def Loggable : Option Entry → Prop
  | some (.file ..) => True
  | some (.special what) => what ≠ .terminal
  | _ => False

/-- What is there may be written, if it is a file. -/
def Writes (e : Option Entry) : Prop := ∀ mode c, e = some (.file mode c) → allows mode writeBit = true

theorem allows_inherit {e : Option Entry} {bit : Nat} (h : ∀ mode c, e = some (.file mode c) → allows mode bit = true)
    (hp : allows privateMode bit = true) : allows (inherit e) bit = true := by
  unfold inherit
  split
  · next mode c => exact h mode c rfl
  · exact hp

theorem writes_opened {op : Opened} (hop : WasOpened d plainMode L op) : Loggable (op.disk.get? L) ∧
    Writes (op.disk.get? L) ∧ Writes (d.get? L) ∧ ∀ k, k ≠ L → op.disk.get? k = d.get? k := by
  cases hop with
  | made hs hg =>
    obtain ⟨dir, n, rfl, -⟩ := hs
    simp only [get?_noteNew, get?_put (show dir ++ [n] ≠ [] by simp), if_true]
    refine ⟨trivial, fun mode c heq => ?_, fun mode c heq => ?_, fun k hk => if_neg hk⟩
    · cases heq
      decide
    · rw [hg] at heq
      cases heq
  | file hg hw =>
    have hwrites : Writes (d.get? L) := fun mode c heq => by
      cases hg.symm.trans heq
      exact hw
    exact ⟨by simp [hg, Loggable], hwrites, hwrites, fun _ _ => rfl⟩
  | device hg hw => exact ⟨by simpa [hg, Loggable] using hw, by simp [hg, Writes], by simp [hg, Writes], fun _ _ => rfl⟩

theorem openFile_of_loggable (hn : LinkFree d) (hl : LeadsTo d p l) (hs : endsInSlash p = false)
    (hlog : Loggable (d.get? l)) (hw : Writes (d.get? l)) (mode : Nat) : ∃ op, d.openFile p mode = .ok op := by
  obtain ⟨dir, n, hl, rfl⟩ := hl
  cases hg : d.get? (dir ++ [n]) with
  | none => simp [hg, Loggable] at hlog
  | some e =>
    have he : ∀ target, e ≠ .link target := fun target heq => hn _ target (heq ▸ hg)
    rw [openFile, checkSpelling_eq hl hs (fun target heq => hn _ target heq), hl.resolve_entry hs hg he]
    cases e with
    | dir | link => simp [hg, Loggable] at hlog
    | file mode content => simp [bind, Except.bind, pure, Except.pure, hw mode content hg]
    | special what => cases what <;> simp [hg, Loggable, bind, Except.bind, pure, Except.pure] at hlog ⊢

/-! ### Writing to the log -/

namespace LogFile

/-- What is written to a log goes to its file under all its names, if it has one. -/
theorem append_cases (log : LogFile) (e : Event) (d : Disk) :
    ((log.append e d).entries = d.entries ∧ (log.append e d).cwd = d.cwd ∧ (log.append e d).shared = d.shared ∧
      Moves d (log.append e d)) ∨
    ∃ number k mode old content, log.file = some number ∧ d.place? number = some (.at k) ∧
      d.get? k = some (.file mode old) ∧
      log.append e d = (d.amend k (.file (writtenMode mode) content)).noteChange k := by
  have hidle : d.entries = d.entries ∧ d.cwd = d.cwd ∧ d.shared = d.shared ∧ Moves d d := ⟨rfl, rfl, rfl, .of_eq rfl⟩
  simp only [append]
  split
  · next number hfile =>
    split
    · simp only [appendHeld]
      split
      · next mode old hheld =>
        split
        · exact .inl hidle
        · simp only [putHeld]
          split
          · next k hk =>
            refine .inr ⟨number, k, mode, old, _, hfile, hk, ?_, rfl⟩
            simp only [heldFile?, hk] at hheld
            split at hheld
            · next hg =>
              cases hheld
              exact hg
            · cases hheld
          · refine .inl ⟨rfl, rfl, rfl, fun number' k hk => ⟨k, ?_, self_mem_twins d k⟩⟩
            rw [place?_map fun h => by split <;> rfl] at hk
            obtain ⟨h, hh, hk⟩ := Option.map_eq_some_iff.1 hk
            split at hk
            · cases hk
            · rw [place?, hh, ← hk]
              rfl
          · exact .inl hidle
      · exact .inl hidle
    · exact .inl hidle
  · exact .inl hidle

/-- What came to be in the log: what it held with more behind it. -/
def Wrote (d : Disk) (K : Location → Prop) (l : Location) (e : Option Entry) : Prop :=
  K l ∧ ∃ k mode old content, K k ∧ d.get? k = some (.file mode old) ∧ e = some (.file (writtenMode mode) content)

theorem near_append (hd : Tree d) (hK : ∀ k, K k → Site d k ∧ ∀ j ∈ d.twins k, K j)
    (hheld : ∀ number, log.file = some number → ∀ k, d.place? number = some (.at k) → K k) (e : Event) :
    Near d (Wrote d K) (log.append e d) ∧ Moves d (log.append e d) := by
  rcases log.append_cases e d with ⟨he, hc, hs, hm⟩ | ⟨number, k, mode, old, content, hfile, hk, hg, happend⟩
  · exact ⟨(Near.refl hd).congr he hc (.of_eq hs), hm⟩
  · rw [happend]
    have hKk := hheld number hfile k hk
    refine ⟨((Near.refl hd).amend fun j hj => ?_).noteChange k, .of_eq (held_amend ..)⟩
    exact ⟨⟨(hK k hKk).2 j hj, k, mode, old, content, hKk, hg, rfl⟩, (hK j ((hK k hKk).2 j hj)).1⟩

end LogFile

end Prune
