import Prune.Proofs.Contents

/-!
# Nothing is lost on the way

At every moment of a run each source either holds what it held at the start or what its pass commits, or
it is the one that the progress names, and its backup holds what it held at the start. The lots are
`Calm` or `Busy` in this sense all the time: a pass keeps its backup for as long as the source is unsettled
(`Passes.guarded`), and the marker is put down before the backup comes and taken back after it is gone
(`Files.guarded`).
-/

namespace Prune

open Disk Artefact Workshop

variable {d d' : Disk} {p q : Path} {v u f : View} {o : Oracle} {h : Host} {ds es : List Deed} {x y : Lot}
  {l prog : Location} {s : Settings} {files : List Path} {m : Directive.Matcher} {call : BuildCall}
  {todo : List (Path × Option Lot)}
variable {e : Path × Option Lot} {summary : Sweep.Summary} {r : Option Sweep.Summary} {Open : Path → Prop}

theorem Always.of_forall (hds : ∀ e ∈ ds, e.location? ≠ some l) (v : View) : Always (fun u => u l = v l) v ds :=
  fun _ hpre => after_of_forall (fun e he => hds e (hpre.subset he)) v

/-- The progress names `p`. -/
def Marks (v : View) (prog : Location) (p : Path) : Prop := ∃ mode, v prog = some (.file mode p.text)

@[simp] theorem marks_write {content : Bytes} :
    Marks (Deed.apply (.write prog content) v) prog p ↔ p.text = content := by
  simp [Marks, Deed.apply, eq_comm]

theorem Marks.congr (hp : Marks u prog p) (h : v prog = u prog) : Marks v prog p := by
  obtain ⟨mode, hp⟩ := hp
  exact ⟨mode, h.trans hp⟩

/-- A source nobody works on: it is as it was, or as it will be, and has no backup. `Open p` says that the
pass over `p` never comes to its end. -/
def Lot.Calm (v f : View) (Open : Path → Prop) (x : Lot) (u : View) : Prop :=
  u x.copy = none ∧ (u x.live = v x.live ∨ u x.live = f x.live ∧ ¬ Open x.path)

/-- A source being worked on: it is marked, and its content is in the backup. -/
def Lot.Busy (prog : Location) (x : Lot) (u : View) : Prop :=
  Marks u prog x.path ∧ ∃ mode, u x.copy = some (.file mode x.content)

theorem Passes.guarded {r : Pass.Result} (hp : Passes m call x ds r)
    (hne : x.live ≠ x.copy) (hcopy : v x.copy = none) :
    Always (fun u => (∃ mode, u x.copy = some (.file mode x.content)) ∨
      u x.copy = none ∧ (u x.live = v x.live ∨ u x.live = after v ds x.live ∧ r ≠ none)) v ds := by
  have hwrite : Deed.apply (.write x.copy x.content) v x.copy = some (.file (inherit none) x.content) := by
    simp [Deed.apply, hcopy]
  -- the backup stays while there are deeds at the source alone
  have hkeep : ∀ es : List Deed, (∀ e ∈ es, ∀ l ∈ e.location?, l = x.live) →
      Always (fun u => u x.copy = some (.file (inherit none) x.content)) (Deed.apply (.write x.copy x.content) v) es :=
    fun es hes => by
      have := Always.of_forall (l := x.copy) (fun e he hl => hne (hes e he _ hl).symm)
        (Deed.apply (.write x.copy x.content) v)
      rwa [hwrite] at this
  cases hp with
  | cut ht =>
    refine Always.cons.2 ⟨.inr ⟨hcopy, .inl rfl⟩, ?_⟩
    exact (hkeep _ ht.location_eq).mono fun u hu => .inl ⟨_, hu⟩
  | @done ds findings final ht =>
    refine Always.cons.2 ⟨.inr ⟨hcopy, .inl rfl⟩, Always.append.2 ⟨?_, ?_⟩⟩
    · exact (hkeep _ (List.forall_mem_append.2 ⟨ht.location_eq, x.location_closing m final⟩)).mono fun u hu =>
        .inl ⟨_, hu⟩
    · refine Always.cons.2 ⟨?_, Always.nil.2 (.inr ⟨by simp [Deed.apply], .inr ⟨by simp, by simp⟩⟩)⟩
      exact .inl ⟨_, (hkeep _ (List.forall_mem_append.2 ⟨ht.location_eq, x.location_closing m final⟩)).last⟩

theorem Passes.copy_last {out : List Pass.Finding × List Lines.State} (hp : Passes m call x ds (some out)) (v : View) :
    after v ds x.copy = none := by
  cases hp
  rw [after_cons, after_append]
  exact Function.update_self ..

theorem Spread.after_eq (hs : Spread prog (e :: todo)) (hy : (q, some y) ∈ todo) (hl : y.At l)
    (hds : ∀ e' ∈ ds, ∀ k ∈ e'.location?, k = prog ∨ ∃ x, e.2 = some x ∧ x.At k) (v : View) :
    after v ds l = v l := by
  refine after_of_forall (fun e' he hloc => ?_) v
  rcases hds e' he l hloc with rfl | ⟨x, hx, hxl⟩
  · exact hs.progress q y (.tail _ hy) hl
  · obtain ⟨p, lot⟩ := e
    obtain rfl : lot = some x := hx
    obtain rfl := hs.apart p x q y l List.mem_cons_self (.tail _ hy) hxl hl
    exact (List.nodup_cons.1 hs.nodup).1 (List.mem_map.2 ⟨_, hy, rfl⟩)

theorem Spread.after_done {r : Pass.Result} (hs : Spread prog ((p, some x) :: todo))
    (hp : Passes m call x ds r) (hy : (q, some y) ∈ todo) (hl : y.At l) (v : View) :
    Deed.apply (.write prog []) (after (Deed.apply (.write prog p.text) v) ds) l = v l := by
  have hds : ∀ e ∈ .write prog p.text :: (ds ++ [.write prog []]), ∀ k ∈ e.location?,
      k = prog ∨ ∃ x', (p, some x).2 = some x' ∧ x'.At k := by
    rw [List.forall_mem_cons, List.forall_mem_append]
    exact ⟨by simp [Deed.location?], fun e he k hk => .inr ⟨x, rfl, hp.location_eq e he k hk⟩,
      by simp [Deed.location?]⟩
  simpa using hs.after_eq hy hl hds v

theorem Spread.after_mark (hs : Spread prog (e :: todo)) (hy : (q, some y) ∈ todo)
    (hl : y.At l) (content : Bytes) (v : View) : Deed.apply (.write prog content) v l = v l :=
  Function.update_of_ne (by rintro rfl; exact hs.progress q y (.tail _ hy) hl) _ _

theorem Passes.prog_eq {r : Pass.Result} (hp : Passes m call x ds r)
    (hx : ¬ x.At prog) (v : View) : after v ds prog = v prog :=
  after_of_forall (fun e he hloc => hx (hp.location_eq e he prog hloc)) v

/-- The progress, once `e₀`, after the sources of `todo` were taken: as it was, empty, or the path of the lot
that was cut off. It keeps its bits. -/
def Progressed (todo : List (Path × Option Lot)) (cut : Prop) (e₀ e : Option Entry) : Prop :=
  e = e₀ ∨ ∃ c, e = some (.file (inherit e₀) c) ∧ (c = [] ∨ cut ∧ ∃ p x, (p, some x) ∈ todo ∧ c = p.text)

theorem Progressed.cons {cut : Prop} {e₀ e : Option Entry} (h : Progressed todo cut (some (.file (inherit e₀) [])) e)
    (first : Path × Option Lot) : Progressed (first :: todo) cut e₀ e := by
  rcases h with rfl | ⟨c, rfl, hc⟩
  · exact .inr ⟨[], rfl, .inl rfl⟩
  · exact .inr ⟨c, rfl, hc.imp_right fun ⟨hr, p, x, hx, hc⟩ => ⟨hr, p, x, .tail _ hx, hc⟩⟩

@[simp] theorem inherit_file (mode : Nat) (content : Bytes) : inherit (some (.file mode content)) = mode := rfl

theorem apply_write_self (content : Bytes) (v : View) :
    Deed.apply (.write l content) v l = some (.file (inherit (v l)) content) :=
  Function.update_self ..

theorem Files.progressed
    (hf : Files prog call m todo summary ds r) (hs : Spread prog todo) (v : View) :
    Progressed todo (r = none) (v prog) (after v ds prog) := by
  induction hf generalizing v with
  | nil => exact .inl rfl
  | @cut p x todo summary ds hp =>
    refine .inr ⟨p.text, ?_, .inr ⟨rfl, p, x, List.mem_cons_self, rfl⟩⟩
    rw [after_cons, hp.prog_eq (hs.progress _ _ List.mem_cons_self), apply_write_self]
  | @done p x todo summary ds es out r hp _ ih =>
    rw [after_cons, after_append, after_cons]
    have h := ih hs.tail (Deed.apply (.write prog []) (after (Deed.apply (.write prog p.text) v) ds))
    rw [apply_write_self, hp.prog_eq (hs.progress _ _ List.mem_cons_self), apply_write_self, inherit_file] at h
    exact Progressed.cons h _
  | @skip p todo summary es r e _ ih =>
    rw [after_cons, after_cons]
    have h := ih hs.tail (Deed.apply (.write prog []) (Deed.apply (.write prog p.text) v))
    rw [apply_write_self, apply_write_self, inherit_file] at h
    exact Progressed.cons h _

theorem Files.marks_last
    (hf : Files prog call m todo summary ds r) (hs : Spread prog todo) (hq : Marks (after v ds) prog q) :
    Marks v prog q ∨ q.text = [] ∨ q ∈ todo.map (·.1) := by
  obtain ⟨mode, hq⟩ := hq
  rcases hf.progressed hs v with h | ⟨c, h, hc⟩
  · exact .inl ⟨mode, h ▸ hq⟩
  · obtain rfl : c = q.text := by
      rw [h] at hq
      simp only [Option.some.injEq, Entry.file.injEq] at hq
      exact hq.2
    rcases hc with hc | ⟨-, p, x, hx, hc⟩
    · exact .inr (.inl hc)
    · obtain rfl : q = p := congrArg Path.mk hc
      exact .inr (.inr (List.mem_map.2 ⟨_, hx, rfl⟩))

theorem Files.not_marks_last
    (hf : Files prog call m todo summary ds r) (hs : Spread prog (e :: todo)) (hne : e.1.text ≠ []) (v : View) :
    ¬ Marks (after (Deed.apply (.write prog []) v) ds) prog e.1 := by
  intro hq
  rcases hf.marks_last hs.tail hq with hq | hq | hq
  · exact hne (marks_write.1 hq)
  · exact hne hq
  · exact (List.nodup_cons.1 hs.nodup).1 hq

theorem Passes.busy {r : Pass.Result} (hp : Passes m call x ds r)
    (hne : x.live ≠ x.copy) (hx : ¬ x.At prog) (hcopy : v x.copy = none) (hmark : Marks v prog x.path) :
    Always (fun u => x.Busy prog u ∨
      u x.copy = none ∧ (u x.live = v x.live ∨ u x.live = after v ds x.live ∧ r ≠ none)) v ds := by
  intro pre hpre
  refine (hp.guarded hne hcopy pre hpre).imp_left fun hu => ⟨hmark.congr ?_, hu⟩
  exact after_of_forall (fun e he hloc => hx (hp.location_eq e (hpre.subset he) prog hloc)) v

theorem Files.after_eq
    (hf : Files prog call m todo summary es r) (hs : Spread prog ((p, some x) :: todo)) (hl : x.At l) (v : View)
    {pre : List Deed} (hpre : pre <+: es) : after v pre l = v l := by
  refine after_of_forall (fun e he hloc => ?_) v
  rcases hf.location_eq e (hpre.subset he) l hloc with rfl | ⟨q, y, hy, hyl⟩
  · exact hs.progress p x List.mem_cons_self hl
  · obtain rfl := hs.apart p x q y l List.mem_cons_self (.tail _ hy) hl hyl
    exact (List.nodup_cons.1 hs.nodup).1 (List.mem_map.2 ⟨_, hy, rfl⟩)

/-- While the first source is taken, each lot is calm or busy. -/
theorem Passes.guarded_all {r : Pass.Result}
    (hp : Passes m call x ds r) (hs : Spread prog ((p, some x) :: todo))
    (hv : ∀ q y, (q, some y) ∈ (p, some x) :: todo → v y.copy = none)
    (hdone : r ≠ none → f x.live = after (Deed.apply (.write prog p.text) v) ds x.live ∧ ¬ Open p) :
    Always (fun u => ∀ q y, (q, some y) ∈ (p, some x) :: todo → y.Calm v f Open u ∨ y.Busy prog u)
      (Deed.apply (.write prog p.text) v) ds := by
  have hx := hs.progress p x List.mem_cons_self
  have hpath := hs.path p x List.mem_cons_self
  have hv₁ : ∀ l, x.At l → Deed.apply (.write prog p.text) v l = v l := fun l hl =>
    Function.update_of_ne (by rintro rfl; exact hx hl) _ _
  intro pre hpre q y hy
  rcases List.mem_cons.1 hy with heq | hy
  · cases heq
    rcases hp.busy (hs.own p x List.mem_cons_self) hx ((hv₁ _ (.inr rfl)).trans (hv p x List.mem_cons_self))
      (marks_write.2 (by rw [hpath])) pre hpre with hb | ⟨hc, hl | ⟨hl, hr⟩⟩
    · exact .inr hb
    · exact .inl ⟨hc, .inl (hl.trans (hv₁ _ (.inl rfl)))⟩
    · obtain ⟨hlast, hclosed⟩ := hdone hr
      exact .inl ⟨hc, .inr ⟨hl.trans hlast.symm, hpath ▸ hclosed⟩⟩
  · have hrest : ∀ l, y.At l → after v (.write prog p.text :: pre) l = v l := fun l hl =>
      hs.after_eq hy hl (List.forall_mem_cons.2 ⟨by simp [Deed.location?], fun e he k hk =>
        .inr ⟨x, rfl, hp.location_eq e (hpre.subset he) k hk⟩⟩) v
    exact .inl ⟨(hrest _ (.inr rfl)).trans (hv q y (.tail _ hy)), .inl (hrest _ (.inl rfl))⟩

theorem Files.guarded_cons (hf : Files prog call m todo summary es r) (hs : Spread prog (e :: todo))
    (hrest : ∀ q y l, (q, some y) ∈ todo → y.At l → u l = v l) (hfirst : ∀ x, e.2 = some x → x.Calm v f Open u)
    (htail : Always (fun u' => ∀ q y, (q, some y) ∈ todo → y.Calm u f Open u' ∨ y.Busy prog u') u es) :
    Always (fun u' => ∀ q y, (q, some y) ∈ e :: todo → y.Calm v f Open u' ∨ y.Busy prog u') u es := by
  intro pre hpre q y hy
  rcases List.mem_cons.1 hy with rfl | hy
  · obtain ⟨hc, hl⟩ := hfirst y rfl
    have hsame : ∀ l, y.At l → after u pre l = u l := fun l hl => hf.after_eq hs hl u hpre
    exact .inl ⟨(hsame _ (.inr rfl)).trans hc, by rwa [hsame _ (.inl rfl)]⟩
  · refine (htail pre hpre q y hy).imp_left fun ⟨hc, hl⟩ => ⟨hc, ?_⟩
    rwa [hrest q y _ hy (.inl rfl)] at hl

theorem Files.guarded
    (hf : Files prog call m todo summary ds r) (hs : Spread prog todo) (hne : ∀ p ∈ todo.map (·.1), p.text ≠ [])
    (hv : ∀ p x, (p, some x) ∈ todo → v x.copy = none)
    (hlast : ∀ p x, (p, some x) ∈ todo → f x.live = after v ds x.live)
    (hopen : ∀ p ∈ todo.map (·.1), Open p → Marks (after v ds) prog p) :
    Always (fun u => ∀ p x, (p, some x) ∈ todo → x.Calm v f Open u ∨ x.Busy prog u) v ds := by
  induction hf generalizing v with
  | nil => exact Always.nil.2 fun p x hx => absurd hx (by simp)
  | cut hp => exact Always.cons.2 ⟨fun q y hy => .inl ⟨hv q y hy, .inl rfl⟩, hp.guarded_all hs hv (by simp)⟩
  | @done p x todo summary ds es out r hp hf ih =>
    rw [after_cons, after_append, after_cons] at hlast hopen
    set v₁ := Deed.apply (.write prog p.text) v
    set v₂ := Deed.apply (.write prog []) (after v₁ ds)
    have hx := hs.progress p x List.mem_cons_self
    have hclosed : ¬ Open p := fun ho => hf.not_marks_last hs (hne p List.mem_cons_self) (after v₁ ds)
      (hopen p List.mem_cons_self ho)
    have hv₂ : ∀ l, x.At l → v₂ l = after v₁ ds l := fun l hl =>
      Function.update_of_ne (by rintro rfl; exact hx hl) _ _
    have hlive : f x.live = after v₁ ds x.live := by
      rw [hlast p x List.mem_cons_self, hf.after_eq hs (.inl rfl) _ List.prefix_rfl, hv₂ _ (.inl rfl)]
    have hpass := hp.guarded_all (f := f) hs hv fun _ => ⟨hlive, hclosed⟩
    have hrest : ∀ q y l, (q, some y) ∈ todo → y.At l → v₂ l = v l := fun q y l hy hl => hs.after_done hp hy hl v
    refine Always.cons.2 ⟨fun q y hy => .inl ⟨hv q y hy, .inl rfl⟩,
      Always.append.2 ⟨hpass, Always.cons.2 ⟨hpass.last, hf.guarded_cons hs hrest ?_ ?_⟩⟩⟩
    · rintro _ ⟨rfl⟩
      refine ⟨(hv₂ _ (.inr rfl)).trans (hp.copy_last v₁), .inr ⟨?_, hs.path p x List.mem_cons_self ▸ hclosed⟩⟩
      exact (hv₂ _ (.inl rfl)).trans hlive.symm
    · exact ih hs.tail (fun q hq => hne q (.tail _ hq))
        (fun q y hy => (hrest q y _ hy (.inr rfl)).trans (hv q y (.tail _ hy)))
        (fun q y hy => hlast q y (.tail _ hy)) fun q hq => hopen q (.tail _ hq)
  | @skip p todo summary es r e hf ih =>
    rw [after_cons, after_cons] at hlast hopen
    have hmark : ∀ q y l, (q, some y) ∈ todo → y.At l → ∀ v, Deed.apply (.write prog p.text) v l = v l :=
      fun q y l hy hl v => hs.after_mark hy hl p.text v
    have hrest : ∀ q y l, (q, some y) ∈ todo → y.At l →
        Deed.apply (.write prog []) (Deed.apply (.write prog p.text) v) l = v l := fun q y l hy hl => by
      rw [hs.after_mark hy hl, hmark q y l hy hl]
    have hmem : ∀ {q y}, (q, some y) ∈ (p, none) :: todo → (q, some y) ∈ todo := fun hy =>
      (List.mem_cons.1 hy).resolve_left (by simp)
    refine Always.cons.2 ⟨fun q y hy => .inl ⟨hv q y hy, .inl rfl⟩, Always.cons.2 ⟨fun q y hy => .inl ⟨?_, .inl ?_⟩,
      hf.guarded_cons hs hrest (by simp) ?_⟩⟩
    · rw [hmark q y _ (hmem hy) (.inr rfl), hv q y hy]
    · rw [hmark q y _ (hmem hy) (.inl rfl)]
    · exact ih hs.tail (fun q hq => hne q (.tail _ hq))
        (fun q y hy => (hrest q y _ hy (.inr rfl)).trans (hv q y (.tail _ hy)))
        (fun q y hy => hlast q y (.tail _ hy)) fun q hq => hopen q (.tail _ hq)

theorem Files.prog_last {summary summary' : Sweep.Summary} (hf : Files prog call m todo summary ds (some summary'))
    (hne : todo ≠ []) (v : View) : ∃ mode, after v ds prog = some (.file mode []) := by
  generalize hr : some summary' = r at hf
  have hlast : ∀ {es todo summary} (u : View), Files prog call m todo summary es r →
      (todo ≠ [] → ∀ v, ∃ mode, after v es prog = some (.file mode [])) →
      ∃ mode, after (Deed.apply (.write prog []) u) es prog = some (.file mode []) := by
    intro es todo summary u hf ih
    cases todo with
    | nil =>
      cases hf
      exact ⟨_, Function.update_self ..⟩
    | cons e todo => exact ih (by simp) _
  induction hf generalizing v with
  | nil => exact absurd rfl hne
  | cut => cases hr
  | done hp hf ih =>
    rw [after_cons, after_append, after_cons]
    exact hlast _ hf fun h v => ih h v hr hlast
  | skip hf ih =>
    rw [after_cons, after_cons]
    exact hlast _ hf fun h v => ih h v hr hlast

theorem Files.copy_last {summary summary' : Sweep.Summary} (hf : Files prog call m todo summary ds (some summary'))
    (hs : Spread prog todo) (hne : ∀ p ∈ todo.map (·.1), p.text ≠ [])
    (hv : ∀ p x, (p, some x) ∈ todo → v x.copy = none) (hx : (p, some x) ∈ todo) : after v ds x.copy = none := by
  have hlast := (hf.guarded (f := after v ds) hs hne hv (fun _ _ _ => rfl) fun _ _ h => h).last
  rcases hlast p x hx with hc | ⟨⟨mode, hmark⟩, -⟩
  · exact hc.1
  · obtain ⟨mode', hprog⟩ := hf.prog_last (List.ne_nil_of_mem hx) v
    rw [hprog, hs.path p x hx] at hmark
    simp only [Option.some.injEq, Entry.file.injEq] at hmark
    exact absurd hmark.2.symm (hne p (List.mem_map.2 ⟨_, hx, rfl⟩))

/-- The progress names `p`, wherever it is kept. -/
def MarksAt (d : Disk) (s : Settings) (v : View) (p : Path) : Prop :=
  endsInSlash s.progressFile = false ∧ ∃ dir n, Leads d s.progressFile dir n ∧ Marks v (dir ++ [n]) p

/-- All lots are calm or busy, for a run from the view `v` to the view `f`. -/
def Guarded (d : Disk) (s : Settings) (v f : View) (todo : List (Path × Option Lot)) (u : View) : Prop :=
  ∀ p x, (p, some x) ∈ todo → x.Calm v f (MarksAt d s f) u ∨
    MarksAt d s u p ∧ ∃ mode, u x.copy = some (.file mode x.content)

theorem Todo.guarded_of_eq (ht : Todo d v todo) (hu : ∀ p x l, (p, some x) ∈ todo → x.At l → u l = v l) :
    Guarded d s v f todo u := fun p x hx =>
  .inl ⟨(hu p x _ hx (.inr rfl)).trans (ht.lot p x hx).2.copy, .inl (hu p x _ hx (.inl rfl))⟩

theorem Taking.guarded {k : Location} {r : Sweep.Ending} (hs : Scene d s files)
    (hdot : ∀ p ∈ files, Path.dot ∈ p.text) (ht : Todo d v todo) (hp : todo.map (·.1) = files)
    (htrial : ∃ dir n, Leads d s.trialProject dir n ∧ k = dir ++ [n]) (hk : Taking d s k todo ds r) :
    Always (Guarded d s v (after v ds) todo) v ds := by
  have hcopy : ∀ p x, (p, some x) ∈ todo → v x.copy = none := fun p x hx => (ht.lot p x hx).2.copy
  have hne : ∀ p ∈ todo.map (·.1), p.text ≠ [] := fun p hp' h => by
    have := hdot p (hp ▸ hp')
    simp [h] at this
  cases hk with
  | unkept => exact Always.nil.2 (ht.guarded_of_eq fun _ _ _ _ _ => rfl)
  | @cut dir n fs hw hf =>
    have hspread := hs.spread ht (fun p hp' => hp ▸ hp') (hp ▸ hs.nodup) hw.leads
    have hopen : ∀ p ∈ todo.map (·.1), MarksAt d s (after v ds) p → Marks (after v ds) (dir ++ [n]) p := by
      rintro p - ⟨-, dir', n', hl, hm⟩
      obtain ⟨rfl, rfl⟩ := hw.leads.unique hl
      exact hm
    refine (hf.guarded hspread hne hcopy (fun _ _ _ => rfl) hopen).mono fun u hu p x hx => ?_
    refine (hu p x hx).imp_right fun ⟨hm, hb⟩ => ⟨⟨hw.slash, dir, n, hw.leads, ?_⟩, hb⟩
    rwa [hspread.path p x hx] at hm
  | @done dir n fs gs summary hw hf hg =>
    have hspread := hs.spread ht (fun p hp' => hp ▸ hp') (hp ▸ hs.nodup) hw.leads
    have hgs : ∀ e ∈ gs, e = .erase k := by
      rcases hg with ⟨rfl, -⟩ | ⟨rfl, -⟩ <;> simp
    set f := after v (fs ++ .write (dir ++ [n]) Progress.sentinel :: gs) with hfdef
    -- the sentinel is nobody's path
    have hclosed : ∀ p ∈ todo.map (·.1), ¬ MarksAt d s f p := by
      rintro p hp' ⟨-, dir', n', hl, mode, hm⟩
      obtain ⟨rfl, rfl⟩ := hw.leads.unique hl
      rw [hfdef, after_append, after_cons] at hm
      rcases after_of_erases (Deed.apply (.write (dir' ++ [n']) Progress.sentinel) (after v fs))
        (fun e he => ⟨k, hgs e he⟩) (dir' ++ [n']) with
        h | h
      · rw [h] at hm
        have htext := marks_write.1 ⟨mode, hm⟩
        have := hdot p (hp ▸ hp')
        rw [htext] at this
        exact absurd this (by decide)
      · rw [h] at hm
        cases hm
    -- neither the sentinel nor the end of the trial project has to do with a lot
    have hlater : ∀ p x l, (p, some x) ∈ todo → x.At l → ∀ pre, pre <+: .write (dir ++ [n]) Progress.sentinel :: gs →
        after (after v fs) pre l = after v fs l := by
      intro p x l hx hl pre hpre
      obtain ⟨rfl, hin⟩ := ht.lot p x hx
      have hconcerns : ∀ e ∈ Deed.write (dir ++ [n]) Progress.sentinel :: gs, ∀ l ∈ e.location?, Concerns d s v [] l :=
        finish_concerns hw.leads htrial hgs
      exact hs.eq_of_no_lot (fun e he => hconcerns e (hpre.subset he)) (hp ▸ List.mem_map.2 ⟨_, hx, rfl⟩)
        (hin.fits.touches hl) _
    have hflive : ∀ p x, (p, some x) ∈ todo → f x.live = after v fs x.live := fun p x hx => by
      rw [hfdef, after_append, hlater p x _ hx (.inl rfl) _ List.prefix_rfl]
    have hfiles := hf.guarded (f := f) hspread hne hcopy hflive fun p hp' ho => absurd ho (hclosed p hp')
    refine Always.append.2 ⟨hfiles.mono fun u hu p x hx => ?_, fun pre hpre p x hx => .inl ⟨?_, .inr ⟨?_, ?_⟩⟩⟩
    · refine (hu p x hx).imp_right fun ⟨hm, hb⟩ => ⟨⟨hw.slash, dir, n, hw.leads, ?_⟩, hb⟩
      rwa [hspread.path p x hx] at hm
    · rw [hlater p x _ hx (.inr rfl) pre hpre, hf.copy_last hspread hne hcopy hx]
    · rw [hlater p x _ hx (.inl rfl) pre hpre, hflive p x hx]
    · rw [hspread.path p x hx]
      exact hclosed p (List.mem_map.2 ⟨_, hx, rfl⟩)

/-- From the first build to the end each lot is calm or busy. -/
theorem Course.guarded {r : Sweep.Ending} (hs : Scene d s files)
    (hdot : ∀ p ∈ files, Path.dot ∈ p.text) (hc : Course d s files v none ds r) :
    ∃ todo, todo.map (·.1) = files ∧ Todo d v todo ∧ Always (Guarded d s v (after v ds) todo) v ds := by
  -- before the sources are taken
  have hstill : ∀ {f : View} {todo es}, Todo d v todo → todo.map (·.1) = files →
      (∀ e ∈ es, ∀ l ∈ e.location?, Concerns d s v [] l) → Always (Guarded d s v f todo) v es := by
    intro f todo es ht hp hes pre hpre
    refine ht.guarded_of_eq fun p x l hx hl => ?_
    obtain ⟨rfl, hin⟩ := ht.lot p x hx
    exact hs.eq_of_no_lot (fun e he => hes e (hpre.subset he)) (hp ▸ List.mem_map.2 ⟨_, hx, rfl⟩)
      (hin.fits.touches hl) v
  have hbuild : ∀ {b} {k : Location}, k ∈ (Deed.build (baselineCall s) b).location? → Concerns d s v [] k := by
    simp [Deed.location?]
  obtain ⟨todo, hp, ht⟩ := exists_todo d v files
  cases hc with
  | cut | unfit => exact ⟨todo, hp, ht, hstill ht hp (by simp [Deed.location?])⟩
  | unlisted hes
  | uncopied hes => exact ⟨todo, hp, ht, hstill ht hp (List.forall_mem_cons.2 ⟨fun _ => hbuild, hes.concerns⟩)⟩
  | @taken es fs k todo r ho ht hp hk =>
    rw [Sweep.resumeIndex, List.drop_zero] at hp
    have hsame : ∀ p x l, (p, some x) ∈ todo → x.At l → after v es l = v l := fun p x l hx hl => by
      obtain ⟨rfl, hin⟩ := ht.lot p x hx
      exact hs.eq_of_no_lot ho.concerns (hp ▸ List.mem_map.2 ⟨_, hx, rfl⟩) (hin.fits.touches hl) v
    have ht' := hs.todo_opening ho ht fun q hq => hp ▸ hq
    obtain ⟨dir, n, hkdir, hl, -⟩ := ho.trial
    have htaking := hk.guarded hs hdot ht' hp ⟨dir, n, hl, hkdir⟩
    refine ⟨todo, hp, ht, Always.cons.2 ⟨ht.guarded_of_eq fun _ _ _ _ _ => rfl, Always.append.2
      ⟨hstill ht hp ho.concerns, htaking.mono fun u hu p x hx => ?_⟩⟩⟩
    rw [after_cons, after_append]
    refine (hu p x hx).imp_left (And.imp_right fun hlive => ?_)
    rwa [hsame p x _ hx (.inl rfl)] at hlive

theorem marksAt_iff (hp : NoLink d s.progressFile) (ht : Turned d v d') :
    d'.content? s.progressFile = some p.text ↔ MarksAt d s v p := by
  rw [content?_eq_some_iff ht.tree (hp.alike ht.alike), ht.view]
  constructor
  · rintro ⟨hs, dir, n, mode, hl, hg⟩
    exact ⟨hs, dir, n, hl.alike ht.alike.symm, mode, hg⟩
  · rintro ⟨hs, dir, n, hl, mode, hg⟩
    exact ⟨hs, dir, n, mode, hl.alike ht.alike, hg⟩

/-- In a run from `d₀` to `d₁`, the source `g` holds on `d` neither what it held at the start nor what its
pass commits. A pass commits what its source holds at the end of the run, unless it is cut off there and the
progress still names the source. -/
def Astray (s : Settings) (d₀ d₁ d : Disk) (g : Path) : Prop :=
  d.content? g ≠ d₀.content? g ∧ (d.content? g = d₁.content? g → d₁.content? s.progressFile = some g.text)

instance (s : Settings) (d₀ d₁ d : Disk) (g : Path) : Decidable (Astray s d₀ d₁ d g) :=
  inferInstanceAs (Decidable (_ ∧ (_ → _)))

theorem Course.eq_of_no_lot {r : Sweep.Ending} {marker : Option Path}
    (hs : Scene d s files) (hc : Course d s files v marker ds r) (hp : p ∈ files)
    (hno : ∀ x : Lot, x.In d v → x.path ≠ p) (hl : Touches d p l) {pre : List Deed} (hpre : pre <+: ds) :
    after v pre l = v l :=
  hs.eq_of_concerns (fun e he => hc.concerns e (hpre.subset he)) (fun _ => List.mem_of_mem_drop) hp
    (fun x hx _ => hno x hx) hl v

theorem Guarded.of_astray {d₁ d' : Disk} (hs : Scene d s files) (ht : Todo d d.get? todo) (hg : (p, some x) ∈ todo)
    (hp : NoLink d p)
    (hf : Turned d f d₁) (hu : Turned d u d') (hguard : Guarded d s d.get? f todo u) (ha : Astray s d d₁ d' p) :
    MarksAt d s u p ∧ ∃ mode, u x.copy = some (.file mode x.content) := by
  obtain ⟨rfl, hin⟩ := ht.lot p x hg
  refine (hguard _ x hg).resolve_left ?_
  rintro ⟨-, hlive | ⟨hlive, hopen⟩⟩
  · rw [hin.live] at hlive
    exact ha.1 (by rw [hin.fits.content?_live hu hlive, hin.fits.content?_live (.refl hs.tree) hin.live])
  · refine hopen ((marksAt_iff hs.progress.noLink hf).1 (ha.2 ?_))
    exact hin.fits.content?_eq hp hu hf hlive

/-- Every disk there is in the course of a run: one source at most is astray; the progress names it, and its
backup holds what it held at the start; and a backup that was not there before is that of the source that
the progress names. -/
theorem no_loss (hf : Footing h.disk s files) (ro : o.ReadOnly)
    (hread : Progress.read h.disk s.progressFile = .ok .fresh) :
    ∀ d ∈ (Run.on (Sweep.run s o) (World.start h)).2.disks,
      (∀ g ∈ files, ∀ g' ∈ files, Astray s h.disk (Run.on (Sweep.run s o) (World.start h)).2.disk d g →
        Astray s h.disk (Run.on (Sweep.run s o) (World.start h)).2.disk d g' → g = g') ∧
      (∀ g ∈ files, Astray s h.disk (Run.on (Sweep.run s o) (World.start h)).2.disk d g →
        d.content? s.progressFile = some g.text ∧
          ∃ content, h.disk.content? g = some content ∧ d.content? (backup g) = some content) ∧
      ∀ g ∈ files, h.disk.exists? (backup g) = false → d.exists? (backup g) = true →
        d.content? s.progressFile = some g.text := by
  have hs := hf.scene
  obtain ⟨es, r, w, hc, t, hrun⟩ := run_fresh ro hs hread (hf.tells fun _ _ _ _ => Iff.rfl)
  rw [hrun]
  intro d hd
  obtain ⟨pre, hpre, ht⟩ := t.past d hd
  have hdot : ∀ p ∈ files, Path.dot ∈ p.text := fun p hp =>
    dot_mem_of_isListed (((Sources.listing_of_listed hf.tree hf.listed).1.mem_iff p).1 hp).1
  obtain ⟨todo, hp, htodo, hguard⟩ := hc.guarded hs hdot
  have hmark := fun g => marksAt_iff (p := g) hs.progress.noLink ht
  -- what is not where it was is a lot
  have hlot : ∀ g ∈ files, (∃ l, Touches h.disk g l ∧ after h.disk.get? pre l ≠ h.disk.get? l) →
      ∃ x, (g, some x) ∈ todo := by
    rintro g hg ⟨l, hl, hne⟩
    obtain ⟨⟨_, _ | x⟩, hx, rfl⟩ := List.mem_map.1 (hp ▸ hg)
    · exact absurd (hc.eq_of_no_lot hs hg (htodo.no_lot _ hx) hl hpre) hne
    · exact ⟨x, hx⟩
  have hbusy : ∀ g ∈ files, Astray s h.disk w.disk d g → MarksAt h.disk s (after h.disk.get? pre) g ∧
      ∃ content, h.disk.content? g = some content ∧ d.content? (backup g) = some content := by
    intro g hg ha
    obtain ⟨x, hx⟩ : ∃ x, (g, some x) ∈ todo := by
      refine hlot g hg ?_
      by_contra hsame
      refine ha.1 (content?_congr hs.tree ht.tree ht.alike (hs.live g hg).noLink fun dir n hl => ?_)
      rw [ht.view]
      by_contra hne
      exact hsame ⟨_, ⟨g, dir, n, .inl rfl, hl, rfl⟩, hne⟩
    obtain ⟨hm, mode, hcopy⟩ := (hguard pre hpre).of_astray hs htodo hx (hs.live g hg).noLink t.now ht ha
    obtain ⟨rfl, hin⟩ := htodo.lot g x hx
    exact ⟨hm, x.content, hin.fits.content?_live (.refl hs.tree) hin.live, hin.fits.content?_copy ht hcopy⟩
  refine ⟨fun g hg g' hg' ha ha' => ?_, fun g hg ha => ?_, fun g hg hno hyes => ?_⟩
  · have htext := ((hmark g).2 (hbusy g hg ha).1).symm.trans ((hmark g').2 (hbusy g' hg' ha').1)
    exact congrArg Path.mk (Option.some.inj htext)
  · exact ⟨(hmark g).2 (hbusy g hg ha).1, (hbusy g hg ha).2⟩
  · obtain ⟨dir, n, hl, hne⟩ := exists?_new hs.tree ht.tree ht.alike (hs.copy g hg).noLink hno hyes
    rw [ht.view] at hne
    have htouch : Touches h.disk g (dir ++ [n]) := ⟨_, dir, n, .inr rfl, hl, rfl⟩
    obtain ⟨x, hx⟩ := hlot g hg ⟨_, htouch, hne⟩
    refine (hmark g).2 (((hguard pre hpre) g x hx).resolve_left fun hcalm => ?_).1
    obtain ⟨rfl, hin⟩ := htodo.lot g x hx
    obtain ⟨⟨dir', n', -, hcopy, -, hw⟩, -⟩ := hin.fits
    obtain ⟨rfl, rfl⟩ := hw.leads.unique hl
    rw [← hcopy, hin.copy] at hne
    exact hne hcalm.1

/-- In the workshop a source is astray when its second line is tried, and its backup has its content. -/
theorem no_loss_workshop : Progress.read (workshop 0o644) settings.progressFile = .ok .fresh ∧
    ∃ d ∈ (Run.on (Sweep.run settings (.looking builds)) (World.start (.ofDisk (workshop 0o644)))).2.disks,
      d.content? first = some (Bytes.ofString "\n\nint x;\n") ∧
      d.content? settings.progressFile = some first.text ∧
      ∃ content, (workshop 0o644).content? first = some content ∧
        d.content? (backup first) = some content := by
  refine ⟨read_fresh, ?_⟩
  obtain ⟨d, hd, htext, ha⟩ : ∃ d ∈ (Run.on (Sweep.run settings (.looking builds))
        (World.start (.ofDisk (workshop 0o644)))).2.disks,
      d.content? first = some (Bytes.ofString "\n\nint x;\n") ∧
      Astray settings (workshop 0o644) (Run.on (Sweep.run settings (.looking builds))
        (World.start (.ofDisk (workshop 0o644)))).2.disk d first := by decide +kernel
  exact ⟨d, hd, htext, (no_loss footing (Oracle.readOnly_looking _) read_fresh d hd).2.1 _ (by simp) ha⟩

end Prune
