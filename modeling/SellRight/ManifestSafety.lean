import SellRight.ManifestPublication

/-!
# No publication is lost

Triggers, publications, failures and crashes in any order. While the marker row
carries a token, whoever holds that token reads everything that is owed; where
the row is absent the current generation shows every marked change. A lease
that lapsed between the read of the catalogue and the publication lets an older
generation replace a newer one; the runs considered are those in which none
takes a marked change back.
-/

namespace SellRight.ManifestSafety

open ManifestPublication RunHistory

variable {id x process run rerun : ℕ} {t : Trigger} {r : Publication}
variable {α : Type}
variable {f : ℕ → Option α}

/-- An entry of an updated map is the new one or an old one. -/
theorem update_cases {v : Option α} {a : α}
    (h : Function.update f id v x=some a) : (x=id∧v=some a)∨(x≠id∧f x=some a) := by
  by_cases hx : x=id
  · subst hx
    rw [Function.update_self] at h
    exact .inl ⟨rfl,h⟩
  · rw [Function.update_of_ne hx] at h
    exact .inr ⟨hx,h⟩

/-- An entry of an updated map is old or the new one. -/
theorem update_some {a b : α}
    (h : Function.update f id (some b) x=some a) : f x=some a∨a=b := by
  rcases update_cases h with ⟨-,hnew⟩|⟨-,hold⟩
  · exact .inr (Option.some.inj hnew).symm
  · exact .inl hold

/-- An entry of an updated map is old or has what the new one has. -/
theorem old_or {a b : α} {P : ℕ → α → Prop}
    (h : Function.update f id (some b) x=some a) (hb : P id b) : f x=some a∨P x a := by
  rcases update_cases h with ⟨rfl,hnew⟩|⟨-,hold⟩
  · cases hnew
    exact .inr hb
  · exact .inl hold

/-- What is left after a removal was there. -/
theorem update_none {a : α}
    (h : Function.update f id none x=some a) : f x=some a := by
  rcases update_cases h with ⟨-,hno⟩|⟨-,hold⟩
  · cases hno
  · exact hold

/-- The marker is the one a token was issued for. -/
def Carries (s : Site) (token : Option ℤ) : Prop := ∃ t, token=some t∧s.marker=some t

/-- What is known about a trigger under way. -/
structure TriggerSound (s : Site) (t : Trigger) : Prop where
  committed : ∀ p, t.committed p ≤ s.catalog p
  named : ∀ p∈t.changed, t.scope.covers p
  issued : ∀ token, t.phase=.marked token→token ≤ s.newest
  /-- While its token is the marker its scope reads everything that is owed. -/
  reach : ∀ token, t.phase=.marked token → Carries s (some token) →
    ∀ p, s.generation p<s.marked p→t.scope.covers p

/-- What a publication still owes or has reached. -/
def Reach (s : Site) (r : Publication) : Prop :=
  match r.phase with
  | .waiting => ∀ p, s.generation p<s.marked p → r.scope.covers p
  | .locked => ∀ p, s.generation p<s.marked p → r.scope.covers p
  | .built seen _ => ∀ p, s.marked p ≤ seen p
  | .published _ => ∀ p, s.marked p ≤ s.generation p
  | .acking => ∀ p, s.marked p ≤ s.generation p

/-- What is known about a publication under way. -/
structure RunSound (s : Site) (r : Publication) : Prop where
  issued : ∀ token, r.token=some token→token ≤ s.newest
  /-- While its token is the marker it reaches everything that is owed. -/
  reach : Carries s r.token → Reach s r

/-- Versions, triggers and publications fit together. -/
structure Sound (s : Site) : Prop where
  marks : ∀ p, s.marked p ≤ s.catalog p
  issued : ∀ token, s.marker=some token→token ≤ s.newest
  clear : s.marker=none→∀ p, s.marked p ≤ s.generation p
  trigger : ∀ id t, s.triggers id=some t → TriggerSound s t
  run : ∀ id r, s.runs id=some r → RunSound s r

/-- The catalogue only grows, the current generation keeps the marked changes it
shows, and the marker is kept with what it marks, removed, or replaced by a
later one. -/
structure Grows (s next : Site) : Prop where
  catalog : ∀ p, s.catalog p≤next.catalog p
  kept : ∀ p, s.marked p ≤ s.generation p→s.marked p≤next.generation p
  newest : s.newest≤next.newest
  marker : ∀ token, token ≤ s.newest→next.marker=some token →
    s.marker=some token∧next.marked=s.marked

/-- Steps that touch neither versions nor the marker. -/
theorem Grows.same {s next : Site} (hcat : next.catalog=s.catalog)
    (hgen : next.generation=s.generation) (hnew : next.newest=s.newest)
    (hmark : next.marker=s.marker) (hmar : next.marked=s.marked) : Grows s next :=
  ⟨fun p => (congrFun hcat p).ge,fun _ hle => hgen ▸ hle,hnew.ge,
    fun _ _ hso => ⟨hmark ▸ hso,hmar⟩⟩

variable {s next : Site}

/-- What the next generation still owes was owed before. -/
theorem Grows.owed (hgro : Grows s next) {p : String} (howe : next.generation p<s.marked p) :
    s.generation p<s.marked p :=
  not_le.mp fun hle => absurd (hgro.kept p hle) (not_le.mpr howe)

theorem TriggerSound.grows (hsd : TriggerSound s t) (hgro : Grows s next) :
    TriggerSound next t := by
  refine ⟨fun p => (hsd.committed p).trans (hgro.catalog p),hsd.named,
    fun token hph => (hsd.issued token hph).trans hgro.newest,?_⟩
  rintro token hph ⟨_,⟨⟩,hmark⟩ p howe
  obtain ⟨hbef,hmar⟩ := hgro.marker token (hsd.issued token hph) hmark
  rw [hmar] at howe
  exact hsd.reach token hph ⟨token,rfl,hbef⟩ p (hgro.owed howe)

/-- A publication stays sound while the site grows. -/
theorem RunSound.grows (hsd : RunSound s r) (hgro : Grows s next) : RunSound next r := by
  refine ⟨fun token htok => (hsd.issued token htok).trans hgro.newest,?_⟩
  rintro ⟨token,htok,hmark⟩
  obtain ⟨hbef,hmar⟩ := hgro.marker token (hsd.issued token htok) hmark
  have hrea := hsd.reach ⟨token,htok,hbef⟩
  unfold Reach at hrea ⊢
  rw [hmar]
  cases hph : r.phase with
  | waiting | locked =>
    rw [hph] at hrea
    exact fun p howe => hrea p (hgro.owed howe)
  | built =>
    rw [hph] at hrea
    exact hrea
  | published | acking =>
    rw [hph] at hrea
    exact fun p => hgro.kept p (hrea p)

/-- A committed change starts a sound trigger. -/
theorem change_sound {products : List String} {scope : Scope} {content : Bool}
    (hsd : Sound s) (hnm : ∀ p∈products, scope.covers p) :
    Sound (change s id process products scope content) := by
  have hcat : ∀ p, s.catalog p ≤ if p∈products then s.catalog p+1 else s.catalog p := by
    intro p
    split
    · exact Nat.le_succ _
    · exact le_refl _
  have hgro : Grows s (change s id process products scope content) :=
    ⟨hcat,fun _ hle => hle,le_refl _,fun _ _ hso => ⟨hso,rfl⟩⟩
  refine ⟨fun p => (hsd.marks p).trans (hcat p),hsd.issued,hsd.clear,fun x t hx => ?_,fun x r hx => ?_⟩
  · refine (old_or (P := fun _ => TriggerSound _) hx ?_).elim
      (fun hold => (hsd.trigger x t hold).grows hgro) fun h => h
    exact ⟨fun _ => le_refl _,hnm,fun _ hph => (nomatch hph),fun _ hph => (nomatch hph)⟩
  · exact (hsd.run x r hx).grows hgro

/-- Marked versions after a mark. -/
theorem raise_cases (versions : String → ℕ) (changed : List String) (committed : String → ℕ)
    (p : String) : (p∈changed∧raise versions changed committed p =
      max (versions p) (committed p))∨raise versions changed committed p=versions p := by
  by_cases hp : p∈changed
  · exact .inl ⟨hp,if_pos hp⟩
  · exact .inr (if_neg hp)

theorem mark_sound {token : ℤ} {scope : Scope} (hsd : Sound s)
    (ht : s.triggers id=some t) (htok : s.newest<token) (hnm : ∀ p∈t.changed, scope.covers p)
    (howe : ∀ p, s.generation p<s.marked p→scope.covers p) : Sound (mark s id t token scope) := by
  have hgro : Grows s (mark s id t token scope) := by
    refine ⟨fun _ => le_refl _,fun _ hle => hle,htok.le,fun other hot hso => ?_⟩
    cases hso
    exact absurd hot (not_le.mpr htok)
  have hown := hsd.trigger id t ht
  refine ⟨fun p => ?_,fun other hso => ?_,fun hno => (nomatch hno),
    fun x other hx => ?_,fun x r hx => ?_⟩
  · change raise s.marked t.changed t.committed p ≤ s.catalog p
    rcases raise_cases s.marked t.changed t.committed p with ⟨-,hmax⟩|heq
    · rw [hmax]
      exact max_le (hsd.marks p) (hown.committed p)
    · rw [heq]
      exact hsd.marks p
  · cases hso
    exact le_refl _
  · rcases update_cases hx with ⟨-,hnew⟩|⟨-,hold⟩
    · cases hnew
      refine ⟨hown.committed,hnm,fun other hph => ?_,fun other _ _ p hles => ?_⟩
      · cases hph
        exact le_refl _
      rcases raise_cases s.marked t.changed t.committed p with ⟨hp,-⟩|heq
      · exact hnm p hp
      · exact howe p (heq ▸ hles)
    · exact (hsd.trigger x other hold).grows hgro
  · exact (hsd.run x r hx).grows hgro

/-- A step that touches neither versions nor the marker. -/
structure Same (s next : Site) : Prop where
  catalog : next.catalog=s.catalog
  generation : next.generation=s.generation
  newest : next.newest=s.newest
  marker : next.marker=s.marker
  marked : next.marked=s.marked

theorem Same.grows (heq : Same s next) : Grows s next :=
  Grows.same heq.catalog heq.generation heq.newest heq.marker heq.marked

/-- A step that only moves triggers and publications keeps the site sound when
what it leaves is sound. -/
theorem Sound.move (hsd : Sound s) (heq : Same s next)
    (htri : ∀ x t, next.triggers x=some t→s.triggers x=some t∨TriggerSound s t)
    (hrun : ∀ x r, next.runs x=some r→s.runs x=some r∨RunSound s r) : Sound next := by
  refine ⟨?_,?_,?_,fun x t hx => ?_,fun x r hx => ?_⟩
  · rw [heq.marked,heq.catalog]
    exact hsd.marks
  · rw [heq.marker,heq.newest]
    exact hsd.issued
  · rw [heq.marker,heq.marked,heq.generation]
    exact hsd.clear
  · rcases htri x t hx with hold|hnew
    · exact (hsd.trigger x t hold).grows heq.grows
    · exact hnew.grows heq.grows
  · rcases hrun x r hx with hold|hnew
    · exact (hsd.run x r hold).grows heq.grows
    · exact hnew.grows heq.grows

/-- A publication of the whole catalogue starts sound. -/
theorem startRun_sound {token : Option ℤ} (hsd : Sound s) (htok : ∀ t, token=some t→t ≤ s.newest) :
    Sound (startRun s run process token) := by
  exact hsd.move ⟨rfl,rfl,rfl,rfl,rfl⟩ (fun x t hx => .inl hx) fun x r hx =>
    old_or (P := fun _ => RunSound s) hx ⟨htok,fun _ _ _ => trivial⟩

/-- A publication that moves to another phase keeps the site sound when it
reaches there what it owes. -/
theorem setPhase_sound {phase : RunPhase} {lock : Option ℕ} {purged : String → ℕ} (hsd : Sound s)
    (hr : s.runs id=some r) (hrea : Carries s r.token → Reach s {r with phase := phase}) :
    Sound {setPhase s id r phase with
      purged := purged
      lock := lock} :=
  hsd.move ⟨rfl,rfl,rfl,rfl,rfl⟩ (fun _ _ hx => .inl hx) fun _ _ hx =>
    old_or (P := fun _ => RunSound s) hx ⟨(hsd.run id r hr).issued,hrea⟩

theorem read_sound {whole : Bool} (hsd : Sound s) (hr : s.runs id=some r) (hph : r.phase=.locked) :
    Sound (setPhase s id r (.built
      (fun p => if whole=true∨r.scope.covers p then s.catalog p else s.generation p) whole)) := by
  refine setPhase_sound hsd hr fun hcar p => ?_
  have hreach : ∀ p, s.generation p<s.marked p → r.scope.covers p := by
    simpa only [Reach,hph] using (hsd.run id r hr).reach hcar
  by_cases hrea : whole=true∨r.scope.covers p
  · simp only [if_pos hrea]
    exact hsd.marks p
  · simp only [if_neg hrea]
    exact not_lt.mp fun howe => hrea (.inr (hreach p howe))

/-- The step publishes no generation that takes back a marked change which the
current one shows. -/
def Forward (s : Site) : Action → Prop
  | .publish id => ∀ r seen whole, s.runs id=some r → r.phase=.built seen whole →
    ∀ p, s.marked p ≤ s.generation p→s.marked p ≤ seen p
  | _ => True

/-- Replacing the current generation keeps the site sound when no marked change
is taken back. -/
theorem swap_sound {seen : String → ℕ} {whole : Bool} {phase : RunPhase}
    {lock : Option ℕ} (hsd : Sound s) (hr : s.runs id=some r) (hph : r.phase=.built seen whole)
    (hfor : ∀ p, s.marked p ≤ s.generation p→s.marked p ≤ seen p)
    (hnx : r.purge=true∧phase=.published whole∨r.purge=false∧phase=.acking) : Sound {setPhase s id r phase with
      generation := seen
      lock := lock} := by
  have hown := hsd.run id r hr
  have hgro : Grows s {setPhase s id r phase with
      generation := seen
      lock := lock} :=
    ⟨fun _ => le_refl _,hfor,le_refl _,fun _ _ hso => ⟨hso,rfl⟩⟩
  refine ⟨hsd.marks,hsd.issued,fun hno p => hfor p (hsd.clear hno p),
    fun x t hx => (hsd.trigger x t hx).grows hgro,fun x other hx => ?_⟩
  rcases update_cases hx with ⟨rfl,hnew⟩|⟨-,hold⟩
  · cases hnew
    refine ⟨hown.issued,fun hcar => ?_⟩
    have hrea := hown.reach hcar
    unfold Reach at hrea ⊢
    rw [hph] at hrea
    rcases hnx with ⟨-,rfl⟩|⟨-,rfl⟩ <;> exact hrea
  · exact (hsd.run x other hold).grows hgro

section
variable (hsd : Sound s)
include hsd

/-- The end of a publication keeps the site sound. -/
theorem finish_sound : Sound (finish s id r rerun) := by
  unfold finish
  simp only
  split
  · split
    · exact hsd.move ⟨rfl,rfl,rfl,rfl,rfl⟩ (fun x t hx => .inl hx)
        fun x other hx => .inl (update_none hx)
    exact hsd.move ⟨rfl,rfl,rfl,rfl,rfl⟩ (fun x t hx => old_or (P := fun _ => _) hx
      ⟨fun _ => Nat.zero_le _,fun p hp => absurd hp List.not_mem_nil,fun _ h => (nomatch h),fun _ h => (nomatch h)⟩)
      fun x other hx => .inl (update_none hx)
  · exact hsd.move ⟨rfl,rfl,rfl,rfl,rfl⟩ (fun x t hx => .inl hx)
      fun x other hx => .inl (update_none hx)

/-- The marker is removed only after everything it stands for was published. -/
theorem acknowledged_sound (r : Publication) (hr : s.runs id=some r) (hph : r.phase=.acking) :
    Sound {s with marker := if r.token=s.marker then none else s.marker} := by
  by_cases htok : r.token=s.marker
  · have hgro : Grows s {s with marker := none} :=
      ⟨fun _ => le_refl _,fun _ hle => hle,le_refl _,fun _ _ hso => (nomatch hso)⟩
    rw [if_pos htok]
    refine ⟨hsd.marks,fun _ hso => (nomatch hso),fun _ => ?_,
      fun x t hx => (hsd.trigger x t hx).grows hgro,
      fun x other hx => (hsd.run x other hx).grows hgro⟩
    cases hmar : s.marker with
    | none => exact hsd.clear hmar
    | some token =>
      simpa only [Reach,hph] using (hsd.run id r hr).reach ⟨token,htok.trans hmar,hmar⟩
  · rw [if_neg htok]
    exact hsd

end

/-- What a step does to the site. -/
inductive Stepped (s : Site) : Action → Site → Prop
  | same (a : Action) : Stepped s a s
  | change (id process : ℕ) (products : List String) (scope : Scope) (content : Bool) :
      Stepped s (.change id process products scope content)
        (change s id process products scope content)
  /-- The marker is written with a new token, over another one for the whole catalogue. -/
  | mark {id : ℕ} {t : Trigger} {token : ℤ} {scope : Scope} (a : Action) :
      s.triggers id=some t→s.newest<token→(s.marker=none∧scope=t.scope∨scope=.full) →
      Stepped s a (mark s id t token scope)
  | conflict {id : ℕ} {t : Trigger} (a : Action) : s.triggers id=some t →
      Stepped s a (setTrigger s id {t with phase := .conflict})
  | queue {id : ℕ} {loops : ℕ → Loop} (a : Action) :
      Stepped s a {s with
        triggers := Function.update s.triggers id none
        loops := loops}
  | launch {id run : ℕ} {t : Trigger} {token : ℤ} {loops : ℕ → Loop} (a : Action) :
      s.triggers id=some t→t.phase=.marked token →
      Stepped s a {s with
        triggers := Function.update s.triggers id none
        runs := Function.update s.runs run
          (some ⟨t.process,some token,t.scope,t.purge,true,.waiting⟩)
        loops := loops}
  | start (run process : ℕ) {token : Option ℤ} (a : Action) :
      (∀ t, token=some t→s.marker=some t) → Stepped s a (startRun s run process token)
  | expire : Stepped s .expire (expire s)
  | acquire {id : ℕ} {r : Publication} (a : Action) : s.runs id=some r → r.phase=.waiting →
      Stepped s a {setPhase s id r .locked with lock := some id}
  | read {id : ℕ} {r : Publication} (whole : Bool) (a : Action) :
      s.runs id=some r → r.phase=.locked → Stepped s a (setPhase s id r (.built
        (fun p => if whole=true∨r.scope.covers p then s.catalog p else s.generation p) whole))
  | publish {id : ℕ} {r : Publication} {seen : String → ℕ} {whole : Bool} {phase : RunPhase}
      {lock : Option ℕ} : s.runs id=some r → r.phase=.built seen whole →
      (r.purge=true∧phase=.published whole∨r.purge=false∧phase=.acking) →
      Stepped s (.publish id) {setPhase s id r phase with
        generation := seen
        lock := lock}
  | purge {id : ℕ} {r : Publication} {whole : Bool} {lock : Option ℕ} (a : Action) :
      s.runs id=some r → r.phase=.published whole →
      Stepped s a {setPhase s id r .acking with
        purged := fun p => if whole=true∨r.scope.covers p then max (s.purged p) (s.generation p)
          else s.purged p
        lock := lock}
  | giveUp {id : ℕ} {r : Publication} (rerun : ℕ) (a : Action) : s.runs id=some r →
      Stepped s a (finish s id r rerun)
  | acknowledge {id : ℕ} {r : Publication} {rerun : ℕ} : s.runs id=some r → r.phase=.acking →
      Stepped s (.acknowledge id rerun)
        (finish {s with marker := if r.token=s.marker then none else s.marker} id r rerun)
  | crash (process : ℕ) : Stepped s (.crash process) (crash s process)

theorem mark_spec {clock : ℤ} {a : Action} (hclo : s.newest<clock) :
    Stepped s a (insertMark s id clock)∧Stepped s a (upsertMark s id clock) := by
  unfold insertMark upsertMark
  cases ht : s.triggers id with
  | none => exact ⟨.same a,.same a⟩
  | some t =>
    simp only
    cases t.phase with
    | unmarked =>
      refine ⟨?_,.same a⟩
      simp only
      split_ifs with hmar
      · exact .mark a ht hclo (.inl ⟨hmar,rfl⟩)
      · exact .conflict a ht
    | conflict =>
      refine ⟨.same a,.mark a ht ?_ (.inr rfl)⟩
      cases s.marker with
      | none => exact hclo
      | some => exact hclo.trans_le (le_max_left _ _)
    | marked => exact ⟨.same a,.same a⟩

theorem run_spec (s : Site) (id : ℕ) (fallback : Bool) (rerun : ℕ) :
    Stepped s (.acquire id) (acquire s id)∧Stepped s (.read id fallback) (readCatalog s id fallback) ∧
    Stepped s (.publish id) (publish s id)∧Stepped s (.purge id) (purge s id) ∧
    Stepped s (.acknowledge id rerun) (acknowledge s id rerun) := by
  unfold acquire readCatalog publish purge acknowledge
  cases hr : s.runs id with
  | none => exact ⟨.same _,.same _,.same _,.same _,.same _⟩
  | some r =>
    simp only
    cases hph : r.phase with
    | waiting =>
      refine ⟨?_,.same _,.same _,.same _,.same _⟩
      simp only
      split
      · exact .acquire _ hr hph
      · exact .same _
    | locked =>
      refine ⟨.same _,?_,.same _,.same _,.same _⟩
      simp only
      split
      · exact .read _ _ hr hph
      · exact .same _
    | built seen whole =>
      refine ⟨.same _,.same _,?_,.same _,.same _⟩
      simp only
      split
      · next hpur => exact .publish hr hph (.inl ⟨hpur,rfl⟩)
      · next hpur => exact .publish hr hph (.inr ⟨eq_false_of_ne_true hpur,rfl⟩)
    | published =>
      refine ⟨.same _,.same _,.same _,?_,.same _⟩
      simp only
      split
      · exact .purge _ hr hph
      · exact .same _
    | acking => exact ⟨.same _,.same _,.same _,.same _,.acknowledge hr hph⟩

variable {h : List (Event Site Action Unit)}

theorem step_spec {a : Action} (hall : Admissible h s a) :
    Stepped s a (step s a).2 := by
  cases a with
  | change => exact .change ..
  | insertMark => exact (mark_spec hall).1
  | upsertMark => exact (mark_spec hall).2
  | join id run =>
    simp only [step]
    unfold join
    cases ht : s.triggers id with
    | none => exact .same _
    | some t =>
      simp only
      cases hph : t.phase with
      | unmarked | conflict => exact .same _
      | marked =>
        simp only
        split
        · exact .queue _
        · exact .launch _ ht hph
  | drain run process =>
    simp only [step]
    unfold drain
    cases hmar : s.marker with
    | none => exact .same _
    | some => exact .start run process _ fun _ h => hmar.trans h
  | startup run process => exact .start run process _ fun _ h => (nomatch h)
  | expire => exact .expire
  | acquire id => exact (run_spec s id false 0).1
  | read id fallback => exact (run_spec s id fallback 0).2.1
  | publish id => exact (run_spec s id false 0).2.2.1
  | purge id => exact (run_spec s id false 0).2.2.2.1
  | giveUp id rerun =>
    simp only [step]
    unfold giveUp
    cases hr : s.runs id with
    | none => exact .same _
    | some => exact .giveUp rerun _ hr
  | acknowledge id rerun => exact (run_spec s id false rerun).2.2.2.2
  | crash process => exact .crash process

theorem step_sound {action : Action} (hsd : Sound s)
    (hall : Admissible h s action) (hfor : Forward s action) : Sound (step s action).2 := by
  have hst := step_spec hall
  generalize (step s action).2=next at hst ⊢
  cases hst with
  | same => exact hsd
  | change => exact change_sound hsd hall.2
  | mark _ ht hlt hsco =>
    rcases hsco with ⟨hmar,rfl⟩|rfl
    · exact mark_sound hsd ht hlt (hsd.trigger _ _ ht).named fun p howe =>
        absurd (hsd.clear hmar p) (not_le.mpr howe)
    · exact mark_sound hsd ht hlt (fun _ _ => trivial) fun _ _ => trivial
  | conflict _ ht =>
    have hown := hsd.trigger _ _ ht
    exact hsd.move ⟨rfl,rfl,rfl,rfl,rfl⟩ (fun x other hx => old_or (P := fun _ => _) hx
      ⟨hown.committed,hown.named,fun _ h => (nomatch h),fun _ h => (nomatch h)⟩) fun x r hx => .inl hx
  | queue =>
    exact hsd.move ⟨rfl,rfl,rfl,rfl,rfl⟩ (fun x t hx => .inl (update_none hx)) fun x r hx => .inl hx
  | launch _ ht hph =>
    have hown := hsd.trigger _ _ ht
    refine hsd.move ⟨rfl,rfl,rfl,rfl,rfl⟩ (fun x t hx => .inl (update_none hx))
      fun x r hx => old_or (P := fun _ => RunSound s) hx ⟨fun other hot => ?_,hown.reach _ hph⟩
    cases hot
    exact hown.issued _ hph
  | start _ _ _ htok => exact startRun_sound hsd fun t ht => hsd.issued t (htok t ht)
  | expire => exact hsd.move ⟨rfl,rfl,rfl,rfl,rfl⟩ (fun x t hx => .inl hx) fun x r hx => .inl hx
  | acquire _ hr hph | purge _ hr hph =>
    exact setPhase_sound hsd hr fun hcar => by
      simpa only [Reach,hph] using (hsd.run _ _ hr).reach hcar
  | read _ _ hr hph => exact read_sound hsd hr hph
  | publish hr hph hnx => exact swap_sound hsd hr hph (hfor _ _ _ hr hph) hnx
  | giveUp => exact finish_sound hsd
  | acknowledge hr hph => exact finish_sound (acknowledged_sound hsd _ hr hph)
  | crash =>
    exact hsd.move ⟨rfl,rfl,rfl,rfl,rfl⟩ (fun x t hx => .inl (Option.filter_eq_some_iff.mp hx).1)
      fun x r hx => .inl (Option.filter_eq_some_iff.mp hx).1

end SellRight.ManifestSafety
