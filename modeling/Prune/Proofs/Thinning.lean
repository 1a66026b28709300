import Prune.Proofs.Lines
import Prune.Proofs.NoLoss

/-!
# What a run leaves of a lot

A pass that comes to its end leaves its lot with some candidate lines dropped (`Lot.Rests`), one that is
cut off leaves it with some candidate lines blanked and its content in the backup (`Lot.Stuck`). From the
pass this is carried to the list of sources and to the course of a run (`Course.last`).
-/

namespace Prune

open Disk Artefact Lines

variable {d : Disk} {p q : Path} {v u : View} {ds es : List Deed} {x y : Lot} {l prog : Location} {s : Settings}
  {files : List Path} {m : Directive.Matcher} {call : BuildCall} {todo : List (Path × Option Lot)} {c : Bytes}
  {mode : Nat}
variable {summary : Sweep.Summary}

/-- What of the lot's lines was dropped were candidates, and there is no backup. -/
def Lot.Rests (m : Directive.Matcher) (x : Lot) (u : View) : Prop :=
  u x.copy = none ∧ ∃ c, u x.live = some (.file x.mode c) ∧ Thinned m .dropped x.content c

/-- What of the lot's lines is blanked are candidates, and the backup has its content. -/
def Lot.Stuck (m : Directive.Matcher) (x : Lot) (u : View) : Prop :=
  (∃ mode, u x.copy = some (.file mode x.content) ∧ allows mode readBit = true) ∧
    ∃ c, u x.live = some (.file x.mode c) ∧ Thinned m .blanked x.content c

theorem Lot.In.rests (hx : x.In d v) : x.Rests m v := ⟨hx.copy, x.content, hx.live, .refl m _ _⟩

theorem Lot.Rests.congr (hx : x.Rests m v) (h : ∀ l, x.At l → u l = v l) : x.Rests m u := by
  obtain ⟨hc, c, hl, ht⟩ := hx
  exact ⟨(h _ (.inr rfl)).trans hc, c, (h _ (.inl rfl)).trans hl, ht⟩

theorem apply_write_file {content : Bytes} (hv : v l = some (.file mode c)) :
    Deed.apply (.write l content) v l = some (.file mode content) := by
  rw [apply_write_self, hv, inherit_file]

/-- A file that was written in one of several ways, and then perhaps in another of them. -/
theorem after_try {F : List State → Prop} {lines : List Bytes} {st : List State} {b : Option Bool} (hst : F st)
    (hv : ∃ c, v l = some (.file mode c))
    (h : ds = [] ∨ ∃ st', F st' ∧
      after (Deed.apply (.write l (render lines st)) v) ds l = some (.file mode (render lines st'))) :
    ∃ st', F st' ∧ after v (.write l (render lines st) :: .build call b :: ds) l =
      some (.file mode (render lines st')) := by
  rcases h with rfl | h
  · obtain ⟨c, hv⟩ := hv
    exact ⟨st, hst, apply_write_file hv⟩
  · exact h

theorem Tries.last {lines : List Bytes} {cs : List Pass.Candidate} {states : List State}
    {r : Pass.Result} (ht : Tries call l lines cs states ds r)
    (hcs : ∀ c ∈ cs, ∃ line, lines[c.index]? = some line ∧ m.accepts (body line) = true)
    (hst : List.Forall₂ (Allowed m .blanked) states lines) (hv : ∃ c, v l = some (.file mode c)) :
    (ds = [] ∨ ∃ st, List.Forall₂ (Allowed m .blanked) st lines ∧
      after v ds l = some (.file mode (render lines st))) ∧
    ∀ out, r = some out → List.Forall₂ (Allowed m .blanked) out.2 lines := by
  have hset : ∀ {c : Pass.Candidate} {states : List State},
      (∃ line, lines[c.index]? = some line ∧ m.accepts (body line) = true) →
      List.Forall₂ (Allowed m .blanked) states lines →
      List.Forall₂ (Allowed m .blanked) (states.set c.index .blanked) lines := by
    rintro c states ⟨line, hi, hm⟩ hst
    exact forall₂_set hst hi hm
  induction ht generalizing v with
  | nil states => exact ⟨.inl rfl, fun out hout => by cases hout; exact hst⟩
  | cut c cs states =>
    exact ⟨.inr (after_try (hset (hcs c (by simp)) hst) hv (.inl rfl)), fun out hout => by cases hout⟩
  | @cutLater c cs states passed ds ht ih =>
    have hst' := hset (hcs c (by simp)) hst
    obtain ⟨hlast, -⟩ := ih (v := Deed.apply (.write l (render lines (states.set c.index .blanked))) v)
      (fun c' hc' => hcs c' (by simp [hc'])) (by split <;> assumption)
      (hv.imp' (fun _ => _) fun _ hv => apply_write_file hv)
    exact ⟨.inr (after_try hst' hv hlast), fun out hout => by cases hout⟩
  | @step c cs states passed ds findings final ht ih =>
    have hst' := hset (hcs c (by simp)) hst
    obtain ⟨hlast, hout⟩ := ih (v := Deed.apply (.write l (render lines (states.set c.index .blanked))) v)
      (fun c' hc' => hcs c' (by simp [hc'])) (by split <;> assumption)
      (hv.imp' (fun _ => _) fun _ hv => apply_write_file hv)
    refine ⟨.inr (after_try hst' hv hlast), fun out hout' => ?_⟩
    cases hout'
    exact hout (findings, final) rfl

theorem Lot.forall₂_untouched (m : Directive.Matcher) (x : Lot) :
    List.Forall₂ (Allowed m .blanked) x.untouched x.lines := forall₂_replicate_present m .blanked x.lines

theorem Lot.result_untouched (x : Lot) : x.result x.untouched = x.content := by
  rw [Lot.result, Lot.untouched, List.map_replicate]
  exact (render_present x.lines).trans (flatten_split x.content)

theorem Lot.after_closing {final : List State} (hv : u x.live = some (.file x.mode c))
    (hnone : Pass.candidates m x.lines = [] → c = x.result final) :
    after u (x.closing m final) x.live = some (.file x.mode (x.result final)) := by
  rw [Lot.closing]
  split
  · next h => rw [after_nil, hv, hnone (List.isEmpty_iff.1 h)]
  · rw [after_cons, after_nil, apply_write_file hv]
    rfl

theorem Passes.last {r : Pass.Result} (hp : Passes m call x ds r) (hx : x.In d v) :
    match r with
    | none => x.Stuck m (after v ds)
    | some out => List.Forall₂ (Allowed m .blanked) out.2 x.lines ∧ after v ds x.copy = none ∧
        after v ds x.live = some (.file x.mode (x.result out.2)) := by
  have hne := hx.fits.live_ne_copy
  have hcopy : Deed.apply (.write x.copy x.content) v x.copy = some (.file (inherit none) x.content) := by
    simp [Deed.apply, hx.copy]
  have hlive : Deed.apply (.write x.copy x.content) v x.live = some (.file x.mode x.content) := by
    rw [Deed.apply, Function.update_of_ne hne, hx.live]
  have hcs : ∀ c ∈ Pass.candidates m x.lines, ∃ line, x.lines[c.index]? = some line ∧ m.accepts (body line) = true :=
    fun c hc => Pass.mem_candidates hc
  cases hp with
  | cut ht =>
    obtain ⟨hlast, -⟩ := ht.last hcs (x.forall₂_untouched m) ⟨_, hlive⟩
    refine ⟨⟨inherit none, ?_, by decide⟩, ?_⟩
    · rw [after_cons, after_of_forall fun e he hl => hne (ht.location_eq e he _ hl).symm, hcopy]
    · rcases hlast with rfl | ⟨st, hst, hlast⟩
      · exact ⟨_, hlive, .refl m _ _⟩
      · exact ⟨_, hlast, st, hst, rfl⟩
  | @done ds findings final ht =>
    obtain ⟨hlast, hout⟩ := ht.last hcs (x.forall₂_untouched m) ⟨_, hlive⟩
    refine ⟨hout _ rfl, ?_, ?_⟩
    · rw [after_cons, after_append]
      exact Function.update_self ..
    · rw [after_cons, after_append, after_append, after_cons, after_nil,
        Deed.apply_of_ne (by simpa [Deed.location?] using hne.symm)]
      by_cases hnone : Pass.candidates m x.lines = []
      · rw [hnone] at ht
        cases ht
        exact Lot.after_closing hlive fun _ => x.result_untouched.symm
      · rcases hlast with rfl | ⟨st, -, hlast⟩
        · exact Lot.after_closing hlive fun h => absurd h hnone
        · exact Lot.after_closing hlast fun h => absurd h hnone

theorem Passes.rests {out : List Pass.Finding × List State} (hp : Passes m call x ds (some out)) (hx : x.In d v) :
    x.Rests m (after v ds) := by
  obtain ⟨hst, hcopy, hlive⟩ := hp.last hx
  exact ⟨hcopy, _, hlive, _, forall₂_settle hst, rfl⟩

theorem Lot.In.congr_at (hx : x.In d v) (h : ∀ l, x.At l → u l = v l) : x.In d u :=
  ⟨hx.fits, (h _ (.inl rfl)).trans hx.live, (h _ (.inr rfl)).trans hx.copy⟩

theorem Lot.In.marked (hx : x.In d v) (hp : ¬ x.At prog) (c : Bytes) : x.In d (Deed.apply (.write prog c) v) :=
  hx.congr_at fun _ hl => Function.update_of_ne (by rintro rfl; exact hp hl) _ _

theorem Files.last {r : Option Sweep.Summary} (hf : Files prog call m todo summary ds r)
    (hs : Spread prog todo) (hv : ∀ p x, (p, some x) ∈ todo → x.In d v) :
    ∀ p x, (p, some x) ∈ todo → x.Rests m (after v ds) ∨
      r = none ∧ x.Stuck m (after v ds) ∧ Marks (after v ds) prog p := by
  induction hf generalizing v with
  | nil => simp
  | @cut p x todo summary ds hp =>
    have hx := hs.progress p x (.head _)
    intro q y hy
    rcases List.mem_cons.1 hy with heq | hy
    · cases heq
      exact .inr ⟨rfl, hp.last ((hv p x (.head _)).marked hx _), (marks_write.2 rfl).congr (hp.prog_eq hx _)⟩
    · refine .inl ((hv q y (.tail _ hy)).rests.congr fun l hl => ?_)
      exact hs.after_eq hy hl (List.forall_mem_cons.2 ⟨by simp [Deed.location?], fun e he k hk =>
        .inr ⟨x, rfl, hp.location_eq e he k hk⟩⟩) v
  | @done p x todo summary ds es out r hp hf ih =>
    have hx := hs.progress p x (.head _)
    rw [after_cons, after_append, after_cons]
    intro q y hy
    rcases List.mem_cons.1 hy with heq | hy
    · cases heq
      refine .inl ((hp.rests ((hv p x (.head _)).marked hx p.text)).congr fun l hl => ?_)
      rw [hf.after_eq hs hl _ List.prefix_rfl]
      exact Function.update_of_ne (by rintro rfl; exact hx hl) _ _
    · exact ih hs.tail (fun q y hy => (hv q y (.tail _ hy)).congr_at fun l hl =>
        hs.after_done hp hy hl v) q y hy
  | @skip p todo summary es r e hf ih =>
    rw [after_cons, after_cons]
    intro q y hy
    have hy := (List.mem_cons.1 hy).resolve_left (by simp)
    exact ih hs.tail (fun q y hy => (hv q y (.tail _ hy)).congr_at fun l hl => by
      rw [hs.after_mark hy hl, hs.after_mark hy hl]) q y hy

theorem Files.split (hf : Files prog call m todo summary ds none) :
    ∃ done p x rest es fs summary', todo = done ++ (p, some x) :: rest ∧
      Files prog call m done summary es (some summary') ∧ Passes m call x fs none ∧
      ds = es ++ .write prog p.text :: fs := by
  generalize hr : none = r at hf
  induction hf with
  | nil => cases hr
  | @cut p x todo summary ds hp => exact ⟨[], p, x, todo, [], ds, summary, rfl, .nil summary, hp, rfl⟩
  | @done p x todo summary ds es out r hp hf ih =>
    obtain ⟨done, q, y, rest, es', fs, summary', rfl, hf', hp', rfl⟩ := ih hr
    exact ⟨(p, some x) :: done, q, y, rest, _, fs, summary', rfl, .done hp hf', hp', by simp⟩
  | @skip p todo summary es r e hf ih =>
    obtain ⟨done, q, y, rest, es', fs, summary', rfl, hf', hp', rfl⟩ := ih hr
    exact ⟨(p, none) :: done, q, y, rest, _, fs, summary', rfl, .skip hf', hp', by simp⟩

theorem Files.cut_last (hf : Files prog call m todo summary ds none)
    (hs : Spread prog todo) (hv : ∀ p x, (p, some x) ∈ todo → x.In d v) :
    ∃ p x, (p, some x) ∈ todo ∧ x.Stuck m (after v ds) ∧ Marks (after v ds) prog p := by
  obtain ⟨done, p, x, rest, es, fs, summary', rfl, hf', hp, rfl⟩ := hf.split
  have hx : (p, some x) ∈ done ++ (p, some x) :: rest := by simp
  have hin : x.In d (Deed.apply (.write prog p.text) (after v es)) := by
    refine (hv p x hx).congr_at fun l hl => ?_
    rw [Deed.apply_of_ne (by rintro ⟨⟩; exact hs.progress p x hx hl), after_of_forall fun e he hloc => ?_]
    rcases hf'.location_eq e he l hloc with rfl | ⟨q, y, hy, hyl⟩
    · exact hs.progress p x hx hl
    · obtain rfl := hs.apart p x q y l hx (List.mem_append_left _ hy) hl hyl
      have hnodup := hs.nodup
      rw [List.map_append, List.map_cons, List.nodup_append] at hnodup
      exact hnodup.2.2 p (List.mem_map.2 ⟨_, hy, rfl⟩) p (.head _) rfl
  refine ⟨p, x, hx, ?_, ?_⟩ <;> rw [after_append, after_cons]
  · exact hp.last hin
  · exact (marks_write.2 rfl).congr (hp.prog_eq (hs.progress p x hx) _)

theorem Taking.last {k : Location} {r : Sweep.Ending} (hs : Scene d s files)
    (ht : Todo d v todo) (hsub : ∀ p ∈ todo.map (·.1), p ∈ files) (hnodup : (todo.map (·.1)).Nodup)
    (htrial : ∃ dir n, Leads d s.trialProject dir n ∧ k = dir ++ [n]) (hk : Taking d s k todo ds r)
    (hx : (p, some x) ∈ todo) : x.Rests s.matcher (after v ds) ∨
      r = none ∧ x.Stuck s.matcher (after v ds) ∧ MarksAt d s (after v ds) p := by
  have hin : ∀ p x, (p, some x) ∈ todo → x.In d v := fun p x hx => (ht.lot p x hx).2
  cases hk with
  | unkept => exact .inl (hin p x hx).rests
  | @cut dir n fs hw hf =>
    refine (hf.last (hs.spread ht hsub hnodup hw.leads) hin p x hx).imp_right fun ⟨_, hstuck, hm⟩ => ?_
    exact ⟨rfl, hstuck, hw.slash, dir, n, hw.leads, hm⟩
  | @done dir n fs gs summary hw hf hg =>
    have hgs : ∀ e ∈ gs, e = .erase k := by
      rcases hg with ⟨rfl, -⟩ | ⟨rfl, -⟩ <;> simp
    have hconcerns : ∀ e ∈ Deed.write (dir ++ [n]) Progress.sentinel :: gs, ∀ l ∈ e.location?, Concerns d s v [] l :=
      finish_concerns hw.leads htrial hgs
    rcases hf.last (hs.spread ht hsub hnodup hw.leads) hin p x hx with hr | ⟨hr, -⟩
    · refine .inl (hr.congr fun l hl => ?_)
      rw [after_append]
      obtain ⟨rfl, hin⟩ := ht.lot p x hx
      exact hs.eq_of_no_lot hconcerns (hsub _ (List.mem_map.2 ⟨_, hx, rfl⟩)) (hin.fits.touches hl) _
    · cases hr

theorem Course.last {marker : Option Path} {r : Sweep.Ending} (hs : Scene d s files)
    (hc : Course d s files v marker ds r) (hx : x.In d v) (hp : x.path ∈ files) :
    x.Rests s.matcher (after v ds) ∨ r = none ∧ x.Stuck s.matcher (after v ds) ∧ MarksAt d s (after v ds) x.path := by
  by_cases htaken : x.path ∈ files.drop (Sweep.resumeIndex files marker)
  · have hstill : (∀ e ∈ ds, ∀ l ∈ e.location?, Concerns d s v [] l) → x.Rests s.matcher (after v ds) := fun hds =>
      hx.rests.congr fun l hl => hs.eq_of_no_lot hds hp (hx.fits.touches hl) v
    cases hc with
    | cut | unfit => exact .inl hx.rests
    | unlisted hes
    | uncopied hes => exact .inl (hstill (List.forall_mem_cons.2 ⟨by simp [Deed.location?], hes.concerns⟩))
    | @taken es fs k todo r ho ht hmap hk =>
      have hsub : ∀ p ∈ todo.map (·.1), p ∈ files := fun p hp' => List.mem_of_mem_drop (hmap ▸ hp')
      obtain ⟨dir, n, rfl, hl, -⟩ := ho.trial
      rw [after_cons, after_append]
      exact hk.last hs (hs.todo_opening ho ht hsub) hsub (hmap ▸ hs.nodup.sublist (List.drop_sublist ..))
        ⟨dir, n, hl, rfl⟩ (ht.mem_of_in hx (hmap ▸ htaken))
  · refine .inl (hx.rests.congr fun l hl => ?_)
    refine hs.eq_of_concerns hc.concerns (fun _ => List.mem_of_mem_drop) hp ?_ (hx.fits.touches hl) v
    rintro y - hy heq
    exact htaken (heq ▸ hy)

/-- A run that is cut off has done nothing yet, or is stuck at the lot that is marked. -/
theorem Course.cut_last {marker : Option Path} (hs : Scene d s files) (hc : Course d s files v marker ds none) :
    after v ds = v ∨ ∃ x : Lot, x.In d v ∧ x.path ∈ files ∧ x.Stuck s.matcher (after v ds) ∧
      MarksAt d s (after v ds) x.path := by
  cases hc with
  | cut => exact .inl rfl
  | @taken es fs k todo r ho ht hmap hk =>
    have hsub : ∀ p ∈ todo.map (·.1), p ∈ files := fun p hp' => List.mem_of_mem_drop (hmap ▸ hp')
    have ht' := hs.todo_opening ho ht hsub
    cases hk with
    | @cut dir n _ hw hf =>
      have hspread := hs.spread ht' hsub (hmap ▸ hs.nodup.sublist (List.drop_sublist ..)) hw.leads
      obtain ⟨p, x, hx, hstuck, hm⟩ := hf.cut_last hspread fun p x hx => (ht'.lot p x hx).2
      obtain ⟨rfl, hin⟩ := ht.lot p x hx
      rw [after_cons, after_append]
      exact .inr ⟨x, hin, hsub _ (List.mem_map.2 ⟨_, hx, rfl⟩), hstuck, hw.slash, dir, n, hw.leads, hm⟩

end Prune
