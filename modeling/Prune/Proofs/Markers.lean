import Prune.Proofs.Thinning

/-!
# The progress from one run to the next

What is written for a source is read again as that source (`decode_source`): its path has an extension, so
it is not empty and not the sentinel, and if no extension ends in a line end, neither does the path. Once
the progress can be read, it can be read behind every run (`Course.legible`), and never says to go on but
at a source that is a lot.
-/

namespace Prune

open Disk Artefact

variable {d : Disk} {p q root : Path} {dir : Location} {n : Bytes} {v u : View} {ds es : List Deed} {x : Lot}
  {l prog : Location} {s : Settings} {files : List Path} {m : Directive.Matcher} {call : BuildCall}
  {todo : List (Path × Option Lot)} {mode : Nat} {c : Bytes} {extensions : List Bytes}

/-! ### Paths as markers -/

theorem Disk.Spells.getLast?_text (h : Spells d root p l) (hn : p.fileName? = some n) :
    p.text.getLast? = n.getLast? := by
  obtain ⟨xs, n', hx, hn'⟩ := h.exists_names
  obtain rfl : n' = n := Option.some.inj ((Path.exists_parent hx hn').1.symm.trans hn)
  refine getLast?_of_names hx ?_
  cases h with
  | @below base mode ns hb hne hns =>
    obtain ⟨r, hr⟩ := Option.ne_none_iff_exists'.1 (mt List.getLast?_eq_none_iff.1 hne)
    have hname := hns r (List.mem_of_getLast? hr)
    have hlast : (Bytes.joinWith Path.slash ns).getLast? = r.getLast? := Path.getLast?_joinWith hr hname.ne_nil
    have hne' : Bytes.joinWith Path.slash ns ≠ [] := fun h0 => by
      rw [h0] at hlast
      exact hname.ne_nil (List.getLast?_eq_none_iff.1 hlast.symm)
    rw [Path.getLast?_join root hne' (head?_joinWith_ne hns), hlast]
    exact fun h => hname.slash (List.mem_of_getLast? h)
  | self _ hs => simpa [endsInSlash] using hs

theorem isLineEnd_lowerByte (b : UInt8) : Progress.isLineEnd (Bytes.lowerByte b) = Progress.isLineEnd b := by
  unfold Bytes.lowerByte
  split
  · next hb =>
    have h₁ := UInt8.le_iff_toNat_le.1 hb.1
    have h₂ := UInt8.le_iff_toNat_le.1 hb.2
    have hsum : (b + 0x20).toNat = b.toNat + 32 := by
      rw [UInt8.toNat_add]
      simp only [UInt8.reduceToNat] at h₁ h₂ ⊢
      omega
    simp only [UInt8.reduceToNat] at h₁ h₂
    rw [Bool.eq_iff_iff]
    simp only [Progress.isLineEnd, Bool.or_eq_true, beq_iff_eq, ← UInt8.toNat_inj, hsum, UInt8.reduceToNat]
    omega
  · rfl

theorem Disk.Spells.not_isLineEnd (hext : ∀ e ∈ extensions, ∀ b, e.getLast? = some b → Progress.isLineEnd b = false)
    (h : Spells d root p l) (hp : Sources.isListed extensions p = true) :
    ∀ b, p.text.getLast? = some b → Progress.isLineEnd b = false := by
  intro b hb
  simp only [Sources.isListed, Sources.isSource, Sources.hasExtension, Path.extension?, Bool.and_eq_true] at hp
  cases hn : p.fileName? with
  | none => simp [hn] at hp
  | some n =>
    rw [h.getLast?_text hn] at hb
    rcases Path.splitName_eq n with ⟨s, ext, rfl, -, -, hs⟩ | ⟨-, hs⟩
    · simp only [hn, Option.bind_some, hs, List.any_eq_true, beq_iff_eq] at hp
      obtain ⟨e, he, hlower⟩ := hp.2.1
      rcases List.eq_nil_or_concat ext with rfl | ⟨ext', b', rfl⟩
      · obtain rfl : Path.dot = b := by simpa using hb
        decide
      · rw [List.concat_eq_append] at hb hlower
        rw [List.getLast?_append_of_ne_nil _ (by simp), List.getLast?_cons_of_ne_nil (by simp),
          List.getLast?_concat] at hb
        obtain rfl := Option.some.inj hb
        have hlast := congrArg List.getLast? hlower
        simp only [Bytes.lower, List.map_append, List.map_cons, List.map_nil, List.getLast?_append_of_ne_nil _
          (List.cons_ne_nil _ _), List.getLast?_map, List.getLast?_singleton, Option.map_eq_some_iff] at hlast
        obtain ⟨b'', hb'', heq⟩ := hlast
        rw [← isLineEnd_lowerByte, ← heq, isLineEnd_lowerByte]
        exact hext e he b'' hb''
    · simp [hn, hs] at hp

theorem decode_source (hdot : Path.dot ∈ p.text)
    (hend : ∀ b, p.text.getLast? = some b → Progress.isLineEnd b = false) :
    Progress.decode p.text = .inProgress p := by
  have hne : p.text ≠ [] := List.ne_nil_of_mem hdot
  have htext : (p.text.reverse.dropWhile Progress.isLineEnd).reverse = p.text := by
    rw [List.dropWhile_eq_self_iff.2, List.reverse_reverse]
    intro hl
    refine Bool.eq_false_iff.1 (hend _ ?_)
    rw [← List.head?_reverse, List.head?_eq_getElem?, List.getElem?_eq_getElem hl]
  have hsent : p.text ≠ Progress.sentinel := fun h => by
    rw [h] at hdot
    exact absurd hdot (by decide)
  simp [Progress.decode, htext, hne, hsent]

/-! ### Reading the progress -/

theorem Disk.Leads.progress_read (hl : Leads d p dir n) (hs : endsInSlash p = false)
    (hg : d.get? (dir ++ [n]) = some (.file mode c)) (hr : allows mode readBit = true)
    (hc : Utf8.isValid c = true) : Progress.read d p = .ok (Progress.decode c) := by
  simp [Progress.read, readText, hl.read hs hg hr, hc, bind, Except.bind, pure, Except.pure]

theorem progress_read_inv (hd : Tree d) (hp : Plain d p) {r : Resume} (h : Progress.read d p = .ok r) :
    r = .fresh ∨ endsInSlash p = false ∧ ∃ dir n mode c, Leads d p dir n ∧
      d.get? (dir ++ [n]) = some (.file mode c) ∧ allows mode readBit = true ∧ Utf8.isValid c = true ∧
      r = Progress.decode c := by
  simp only [Progress.read] at h
  split at h
  · next content hread =>
    simp only [readText, bind, Except.bind] at hread
    cases hr : d.read p with
    | error f => simp [hr] at hread
    | ok c =>
      simp only [hr] at hread
      split at hread
      · next hc =>
        cases hread
        cases h
        obtain ⟨hs, dir, n, mode, hl, hg, hmode⟩ := read_inv hd hp hr
        exact .inr ⟨hs, dir, n, mode, _, hl, hg, hmode, hc, rfl⟩
      · cases hread
  · cases h
    exact .inl rfl
  · cases h

/-! ### What the progress says -/

variable (F : Path → Prop)

/-- A text that says to begin, that all is done, or to go on at one of the sources `F`. -/
def Says (c : Bytes) : Prop :=
  Utf8.isValid c = true ∧ (Progress.decode c = .fresh ∨ Progress.decode c = .done ∨
    ∃ p, F p ∧ c = p.text ∧ Progress.decode c = .inProgress p)

/-- A file that can be read and says something, if anything. -/
def Legible (e : Option Entry) : Prop :=
  ∀ e', e = some e' → ∃ mode c, e' = .file mode c ∧ allows mode readBit = true ∧ Says F c

variable {F} {e : Option Entry}

theorem Legible.none : Legible F none := by simp [Legible]

theorem Legible.write (h : Legible F e) (hc : Says F c) : Legible F (some (.file (inherit e) c)) := by
  rintro _ ⟨⟩
  refine ⟨_, c, rfl, ?_, hc⟩
  cases e with
  | none => decide
  | some e =>
    obtain ⟨mode, c', rfl, hmode, -⟩ := h e rfl
    exact hmode

theorem says_nil : Says F [] := ⟨by decide, .inl (by decide)⟩

theorem says_sentinel : Says F Progress.sentinel := ⟨by decide, .inr (.inl (by decide))⟩

theorem Disk.Leads.legible_of_fresh (hl : Leads d p dir n) (hp : Plain d p) (hslash : endsInSlash p = false)
    (hread : Progress.read d p = .ok .fresh) : Legible F (d.get? (dir ++ [n])) := by
  intro e hg
  rcases hp dir n hl e hg with ⟨mode, c, rfl⟩ | ⟨mode, rfl⟩ <;> have hstat := hl.stat_some hslash hg (by simp)
  · by_cases hmode : allows mode readBit = true
    · by_cases hc : Utf8.isValid c = true
      · rw [hl.progress_read hslash hg hmode hc] at hread
        exact ⟨mode, c, rfl, hmode, hc, .inl (Except.ok.inj hread)⟩
      · simp [Progress.read, readText, Disk.read, hstat, hmode, hc, bind, Except.bind, pure, Except.pure] at hread
    · simp [Progress.read, readText, Disk.read, hstat, hmode, bind, Except.bind] at hread
  · simp [Progress.read, readText, Disk.read, hstat, bind, Except.bind] at hread

theorem Progressed.legible {cut : Prop} {e₀ : Option Entry} (h : Progressed todo cut e₀ e) (he : Legible F e₀)
    (hF : ∀ p x, (p, some x) ∈ todo → Says F p.text) : Legible F e := by
  rcases h with rfl | ⟨c, rfl, rfl | ⟨-, p, x, hx, rfl⟩⟩
  · exact he
  · exact he.write says_nil
  · exact he.write (hF p x hx)

theorem Taking.legible {k : Location} {r : Sweep.Ending} (hs : Scene d s files)
    (ht : Todo d v todo) (hsub : ∀ p ∈ todo.map (·.1), p ∈ files) (hnodup : (todo.map (·.1)).Nodup)
    (hF : ∀ p x, (p, some x) ∈ todo → Says F p.text) (hk : Taking d s k todo ds r)
    (hl : Leads d s.progressFile dir n) (he : Legible F (v (dir ++ [n]))) : Legible F (after v ds (dir ++ [n])) := by
  cases hk with
  | unkept => exact he
  | cut hw hf =>
    obtain ⟨rfl, rfl⟩ := hl.unique hw.leads
    exact (hf.progressed (hs.spread ht hsub hnodup hl) v).legible he hF
  | @done _ _ fs gs summary hw hf hg =>
    obtain ⟨rfl, rfl⟩ := hw.leads.unique hl
    have hgs : ∀ e ∈ gs, ∃ l, e = .erase l := by
      rcases hg with ⟨rfl, -⟩ | ⟨rfl, -⟩ <;> simp
    rw [after_append, after_cons]
    rcases after_of_erases (Deed.apply (.write _ Progress.sentinel) (after v fs)) hgs (dir ++ [n]) with h | h
    · rw [h, apply_write_self]
      exact ((hf.progressed (hs.spread ht hsub hnodup hl) v).legible he hF).write says_sentinel
    · rw [h]
      exact .none

/-- The progress can be read behind a run as before it, if it is not kept in the trial project. -/
theorem Course.legible {marker : Option Path} {r : Sweep.Ending} (hs : Scene d s files)
    (hc : Course d s files v marker ds r) (hF : ∀ x : Lot, x.In d v → x.path ∈ files → Says F x.path.text)
    (hl : Leads d s.progressFile dir n) (hne : ∀ dir' n', Leads d s.trialProject dir' n' → dir ++ [n] ∉ d.twins (dir' ++ [n']))
    (he : Legible F (v (dir ++ [n]))) : Legible F (after v ds (dir ++ [n])) := by
  have hclear : ∀ {es}, Clearing d s.sourceRoot v es → Legible F (after v es (dir ++ [n])) := fun {es} hes => by
    rcases after_of_erases v (fun e he => by obtain ⟨l, -, rfl, -⟩ := hes e he; exact ⟨l, rfl⟩) (dir ++ [n]) with h | h
    · rwa [h]
    · rw [h]
      exact .none
  cases hc with
  | cut | unfit => exact he
  | unlisted hes =>
    rw [after_cons, Deed.apply_build]
    exact hclear hes
  | uncopied hes =>
    rw [after_cons, Deed.apply_build]
    exact hclear hes
  | @taken es fs k todo r ho ht hmap hk =>
    have hsub : ∀ p ∈ todo.map (·.1), p ∈ files := fun p hp' => List.mem_of_mem_drop (hmap ▸ hp')
    have hF' : ∀ p x, (p, some x) ∈ todo → Says F p.text := fun p x hx => by
      obtain ⟨rfl, hin⟩ := ht.lot p x hx
      exact hF x hin (hsub _ (List.mem_map.2 ⟨_, hx, rfl⟩))
    rw [after_cons, after_append, Deed.apply_build]
    refine hk.legible hs (hs.todo_opening ho ht hsub) hsub (hmap ▸ hs.nodup.sublist (List.drop_sublist ..)) hF' hl ?_
    obtain ⟨es', cs, mode, content, rfl, hes, hcs, -⟩ := ho.deeds
    obtain ⟨dir', n', rfl, hl', -⟩ := ho.trial
    rw [after_append, after_of_forall fun e he hloc => ?_]
    · exact hclear hes
    · obtain ⟨k, hk, mode, content, rfl⟩ := hcs e he
      exact hne dir' n' hl' (Option.some.inj hloc ▸ hk)

end Prune
