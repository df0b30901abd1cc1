import SellRight.ManifestSafety

/-!
# Purges after publications

The marker row also stands for purges of the storefront, but it does not say
so. No purge is lost as long as no publication without a purge acknowledges the
marker over a purge that is still owed.
-/

namespace SellRight.ManifestPurges

open ManifestPublication ManifestSafety RunHistory List

variable {s next : Site}

/-- What a publication still owes the storefront. -/
def Owes (s : Site) (r : Publication) : Prop :=
  match r.phase with
  | .waiting => ∀ p, s.purged p<s.contentMarked p → r.scope.covers p
  | .locked => ∀ p, s.purged p<s.contentMarked p → r.scope.covers p
  | .built _ whole => whole=true∨∀ p, s.purged p<s.contentMarked p → r.scope.covers p
  | .published whole => whole=true∨∀ p, s.purged p<s.contentMarked p → r.scope.covers p
  | .acking => r.purge=true→∀ p, s.contentMarked p ≤ s.purged p

/-- Purges that are owed are known to the marker. -/
structure Settled (s : Site) : Prop where
  contents : ∀ p, s.contentMarked p ≤ s.marked p
  clear : s.marker=none→∀ p, s.contentMarked p ≤ s.purged p
  trigger : ∀ id t, s.triggers id=some t→∀ token, t.phase=.marked token →
    Carries s (some token)→∀ p, s.purged p<s.contentMarked p→t.scope.covers p
  /-- Publications that carry the marker cover what is owed. -/
  run : ∀ id r, s.runs id=some r → Carries s r.token → Owes s r

/-- Purged versions only grow, and the marker is kept with the contents it
marks, removed, or replaced by a later one. -/
structure Purges (s next : Site) : Prop where
  purged : ∀ p, s.purged p≤next.purged p
  marker : ∀ token, token ≤ s.newest→next.marker=some token →
    s.marker=some token∧next.contentMarked=s.contentMarked

variable {id : ℕ} {r : Publication}

/-- What a trigger covers is still enough while purges go on. -/
theorem Settled.trigger_grows (hset : Settled s) (hsd : Sound s) (hpur : Purges s next)
    {t : Trigger} (ht : s.triggers id=some t) {token : ℤ} (hph : t.phase=.marked token)
    (hcar : Carries next (some token)) {p : String} (howe : next.purged p<next.contentMarked p) :
    t.scope.covers p := by
  obtain ⟨_,⟨⟩,hmar⟩ := hcar
  obtain ⟨hbef,heq⟩ :=
    hpur.marker token ((hsd.trigger id t ht).issued token hph) hmar
  rw [heq] at howe
  exact hset.trigger id t ht token hph ⟨token,rfl,hbef⟩ p ((hpur.purged p).trans_lt howe)

/-- What a publication covers is still enough while purges go on. -/
theorem Settled.run_grows (hset : Settled s) (hsd : Sound s) (hpur : Purges s next)
    (hr : s.runs id=some r) (hcar : Carries next r.token) :
    Owes next r := by
  obtain ⟨token,htok,hmar⟩ := hcar
  obtain ⟨hbef,heq⟩ := hpur.marker token ((hsd.run id r hr).issued token htok) hmar
  have howe := hset.run id r hr ⟨token,htok,hbef⟩
  have hles : ∀ p, next.purged p<next.contentMarked p→s.purged p<s.contentMarked p := by
    intro p hlt
    rw [heq] at hlt
    exact (hpur.purged p).trans_lt hlt
  unfold Owes at howe ⊢
  cases hph : r.phase with
  | waiting | locked =>
    rw [hph] at howe
    exact fun p hlt => howe p (hles p hlt)
  | built | published =>
    rw [hph] at howe
    exact howe.imp_right fun h p hlt => h p (hles p hlt)
  | acking =>
    rw [hph] at howe
    intro hpurge p
    rw [heq]
    exact (howe hpurge p).trans (hpur.purged p)

/-- A step that touches neither purged versions nor the marker. -/
structure Quiet (s next : Site) : Prop where
  purged : next.purged=s.purged
  marker : next.marker=s.marker
  contentMarked : next.contentMarked=s.contentMarked
  marked : next.marked=s.marked

theorem Quiet.purges (hq : Quiet s next) : Purges s next :=
  ⟨fun p => (congrFun hq.purged p).ge,fun _ _ hso => ⟨hq.marker ▸ hso,hq.contentMarked⟩⟩

/-- Steps that only move triggers and publications keep the purges settled. -/
theorem Settled.move (hset : Settled s) (hsd : Sound s) (hq : Quiet s next)
    (htri : ∀ x t, next.triggers x=some t→s.triggers x=some t∨∀ token, t.phase≠.marked token)
    (hrun : ∀ x r, next.runs x=some r→s.runs x=some r∨(Carries s r.token → Owes s r)) :
    Settled next := by
  have hcarr : ∀ token, Carries next token → Carries s token := by
    rintro token ⟨t,ht,hmar⟩
    exact ⟨t,ht,hq.marker ▸ hmar⟩
  refine ⟨?_,?_,fun x t hx token hph hcar p howed => ?_,fun x r hx hcar => ?_⟩
  · rw [hq.contentMarked,hq.marked]
    exact hset.contents
  · rw [hq.marker,hq.contentMarked,hq.purged]
    exact hset.clear
  · rcases htri x t hx with hold|hnew
    · exact hset.trigger_grows hsd hq.purges hold hph hcar howed
    · exact absurd hph (hnew token)
  · rcases hrun x r hx with hold|hnew
    · exact hset.run_grows hsd hq.purges hold hcar
    have howe := hnew (hcarr _ hcar)
    unfold Owes at howe ⊢
    rw [hq.purged,hq.contentMarked]
    exact howe

theorem mark_settled {t : Trigger} {token : ℤ} {scope : Scope} (hset : Settled s)
    (hsd : Sound s) (htok : s.newest<token) (hnm : ∀ p∈t.changed, scope.covers p)
    (howe : ∀ p, s.purged p<s.contentMarked p→scope.covers p) :
    Settled (mark s id t token scope) := by
  have hpurg : Purges s (mark s id t token scope) := by
    refine ⟨fun _ => le_refl _,fun other hot hso => ?_⟩
    cases hso
    exact absurd hot (not_le.mpr htok)
  have hcas : ∀ p, ((mark s id t token scope).contentMarked p=s.contentMarked p) ∨
      (p∈t.changed∧(mark s id t token scope).contentMarked p =
        max (s.contentMarked p) (t.committed p)) := by
    intro p
    cases hpur : t.purge with
    | false => exact .inl (by simp [mark,hpur])
    | true =>
      rcases raise_cases s.contentMarked t.changed t.committed p with ⟨hp,hmax⟩|heq
      · exact .inr ⟨hp,by simpa [mark,hpur] using hmax⟩
      · exact .inl (by simpa [mark,hpur] using heq)
  refine ⟨fun p => ?_,fun hno => (nomatch hno),
    fun x other hx token' hph hcar p hles => ?_,fun x r hx hcar => hset.run_grows hsd hpurg hx hcar⟩
  · change _≤raise s.marked t.changed t.committed p
    have hle := hset.contents p
    rcases hcas p with heq|⟨hp,hmax⟩
    · rw [heq]
      unfold raise
      split
      · exact hle.trans (le_max_left _ _)
      · exact hle
    · rw [hmax,raise,if_pos hp]
      exact max_le_max_right _ hle
  · rcases update_cases hx with ⟨-,hnew⟩|⟨-,hold⟩
    · cases hnew
      rcases hcas p with heq|⟨hp,-⟩
      · exact howe p (heq ▸ hles)
      · exact hnm p hp
    · exact hset.trigger_grows hsd hpurg hold hph hcar hles

/-- Before an acknowledgement without a purge every purge was made. -/
def Calm (s : Site) : Action → Prop
  | .acknowledge id _ => ∀ r, s.runs id=some r → r.phase=.acking → r.purge=false →
      r.token=s.marker→∀ p, s.contentMarked p ≤ s.purged p
  | _ => True

section
variable (hset : Settled s)
include hset

/-- The end of a publication keeps the purges settled. -/
theorem finish_settled {rerun : ℕ} (hsd : Sound s) :
    Settled (finish s id r rerun) := by
  unfold finish
  simp only
  split
  · split
    · exact hset.move hsd ⟨rfl,rfl,rfl,rfl⟩ (fun x t hx => .inl hx)
        fun x other hx => .inl (update_none hx)
    exact hset.move hsd ⟨rfl,rfl,rfl,rfl⟩
      (fun x t hx => (update_some hx).elim .inl fun h => .inr (h ▸ fun _ h => (nomatch h)))
      fun x other hx => .inl (update_none hx)
  · exact hset.move hsd ⟨rfl,rfl,rfl,rfl⟩ (fun x t hx => .inl hx)
      fun x other hx => .inl (update_none hx)

/-- A publication of the whole catalogue owes nothing it does not cover. -/
theorem startRun_settled {run process : ℕ} {token : Option ℤ}
    (hsd : Sound s) : Settled (startRun s run process token) := by
  exact hset.move hsd ⟨rfl,rfl,rfl,rfl⟩ (fun x t hx => .inl hx)
    fun x r hx => (update_some hx).elim .inl fun h => .inr (h ▸ fun _ _ _ => trivial)

/-- A publication that moves to another phase keeps the purges settled when it
owes nothing there that it did not owe before. -/
theorem setPhase_settled {phase : RunPhase} {lock : Option ℕ} {generation : String → ℕ}
    (hsd : Sound s) (howe : Carries s r.token → Owes s {r with phase := phase}) :
    Settled {setPhase s id r phase with
      generation := generation
      lock := lock} := by
  exact hset.move hsd ⟨rfl,rfl,rfl,rfl⟩ (fun x t hx => .inl hx)
    fun x other hx => (update_some hx).elim .inl fun h => .inr (h ▸ howe)

/-- What was owed under the marker was published before the storefront is
purged. -/
theorem purged_settled {whole : Bool} {lock : Option ℕ} (hsd : Sound s) (hr : s.runs id=some r)
    (hph : r.phase=.published whole) : Settled {setPhase s id r .acking with
      purged := fun p => if whole=true∨r.scope.covers p then max (s.purged p) (s.generation p)
        else s.purged p
      lock := lock} := by
  set after : String → ℕ := fun p =>
    if whole=true∨r.scope.covers p then max (s.purged p) (s.generation p) else s.purged p with haft
  have hgro : ∀ p, s.purged p≤after p := by
    intro p
    simp only [haft]
    split
    · exact le_max_left _ _
    · exact le_refl _
  have hpur : Purges s {setPhase s id r .acking with
      purged := after
      lock := lock} := ⟨hgro,fun _ _ hso => ⟨hso,rfl⟩⟩
  refine ⟨hset.contents,fun hno p => (hset.clear hno p).trans (hgro p),
    fun x t hx token hmar hcar p howed => hset.trigger_grows hsd hpur hx hmar hcar howed,
    fun x other hx hcar => ?_⟩
  rcases update_cases hx with ⟨-,hnew⟩|⟨-,hold⟩
  · cases hnew
    intro _ p
    have howe := hset.run id r hr hcar
    have hrea := (hsd.run id r hr).reach hcar
    unfold Owes at howe
    unfold Reach at hrea
    rw [hph] at howe hrea
    change s.contentMarked p≤after p
    simp only [haft]
    split_ifs with hcov
    · exact ((hset.contents p).trans (hrea p)).trans (le_max_right _ _)
    rcases howe with hwho|hsco
    · exact absurd (.inl hwho) hcov
    · exact not_lt.mp fun hles => hcov (.inr (hsco p hles))
  · exact hset.run_grows hsd hpur hold hcar

theorem acknowledge_settled {rerun : ℕ} (hsd : Sound s) (hr : s.runs id=some r)
    (hph : r.phase=.acking) (hcal : Calm s (.acknowledge id rerun)) :
    Settled (finish {s with marker := if r.token=s.marker then none else s.marker} id r rerun) := by
  refine finish_settled ?_ (acknowledged_sound hsd r hr hph)
  by_cases htok : r.token=s.marker
  · have hpurg : Purges s {s with marker := none} :=
      ⟨fun _ => le_refl _,fun _ _ hso => (nomatch hso)⟩
    rw [if_pos htok]
    refine ⟨hset.contents,fun _ => ?_,fun x t hx token hmark hcar p howed =>
        hset.trigger_grows hsd hpurg hx hmark hcar howed,
      fun x other hx hcar => hset.run_grows hsd hpurg hx hcar⟩
    cases hmar : s.marker with
    | none => exact hset.clear hmar
    | some token =>
      cases hpur : r.purge with
      | false => exact hcal r hr hph hpur htok
      | true =>
        have howe := hset.run id r hr ⟨token,htok.trans hmar,hmar⟩
        rw [Owes,hph] at howe
        exact howe hpur
  · rw [if_neg htok]
    exact hset

theorem step_settled {h : List (Event Site Action Unit)} {action : Action}
    (hsd : Sound s) (hall : Admissible h s action) (hcal : Calm s action) :
    Settled (step s action).2 := by
  have hst := step_spec hall
  generalize (step s action).2=next at hst ⊢
  cases hst with
  | same => exact hset
  | change =>
    exact hset.move hsd ⟨rfl,rfl,rfl,rfl⟩
      (fun x t hx => (update_some hx).elim .inl fun h => .inr (h ▸ fun _ h => (nomatch h)))
      fun x r hx => .inl hx
  | mark _ ht hlt hsco =>
    rcases hsco with ⟨hmar,rfl⟩|rfl
    · exact mark_settled hset hsd hlt (hsd.trigger _ _ ht).named fun p howe =>
        absurd (hset.clear hmar p) (not_le.mpr howe)
    · exact mark_settled hset hsd hlt (fun _ _ => trivial) fun _ _ => trivial
  | conflict =>
    exact hset.move hsd ⟨rfl,rfl,rfl,rfl⟩
      (fun x _ hx => (update_some hx).elim .inl fun h => .inr (h ▸ fun _ h => (nomatch h)))
      fun x r hx => .inl hx
  | queue =>
    exact hset.move hsd ⟨rfl,rfl,rfl,rfl⟩ (fun x t hx => .inl (update_none hx)) fun x r hx => .inl hx
  | launch _ ht hph =>
    exact hset.move hsd ⟨rfl,rfl,rfl,rfl⟩ (fun x t hx => .inl (update_none hx))
      fun x r hx => (update_some hx).elim .inl fun h => .inr (h ▸ hset.trigger _ _ ht _ hph)
  | start => exact startRun_settled hset hsd
  | expire => exact hset.move hsd ⟨rfl,rfl,rfl,rfl⟩ (fun x t hx => .inl hx) fun x r hx => .inl hx
  | acquire _ hr hph =>
    exact setPhase_settled hset hsd fun hcar => by
      simpa only [Owes,hph] using hset.run _ _ hr hcar
  | read _ _ hr hph =>
    exact setPhase_settled hset hsd fun hcar => .inr (by
      simpa only [Owes,hph] using hset.run _ _ hr hcar)
  | publish hr hph hnx =>
    refine setPhase_settled hset hsd fun hcar => ?_
    rcases hnx with ⟨-,rfl⟩|⟨hno,rfl⟩
    · simpa only [Owes,hph] using hset.run _ _ hr hcar
    · intro hpur
      cases hno.symm.trans hpur
  | purge _ hr hph => exact purged_settled hset hsd hr hph
  | giveUp => exact finish_settled hset hsd
  | acknowledge hr hph => exact acknowledge_settled hset hsd hr hph hcal
  | crash =>
    refine hset.move hsd ⟨rfl,rfl,rfl,rfl⟩
      (fun x t hx => .inl (Option.filter_eq_some_iff.mp hx).1) fun x r hx => .inl (Option.filter_eq_some_iff.mp hx).1

end

/-- A site on which nothing is owed and nothing runs. -/
structure Opening (s : Site) : Prop where
  marker : s.marker=none
  triggers : ∀ id, s.triggers id=none
  runs : ∀ id, s.runs id=none
  behind : ∀ p, s.generation p ≤ s.catalog p
  owed : ∀ p, s.marked p ≤ s.generation p∧s.contentMarked p ≤ s.purged p ∧
    s.contentMarked p ≤ s.marked p

theorem Opening.sound (hop : Opening s) : Sound s := by
  refine ⟨fun p => ((hop.owed p).1).trans (hop.behind p),fun token hso => ?_,
    fun _ p => (hop.owed p).1,fun id t ht => ?_,fun id r hr => ?_⟩
  · rw [hop.marker] at hso
    cases hso
  · rw [hop.triggers id] at ht
    cases ht
  · rw [hop.runs id] at hr
    cases hr

theorem Opening.settled (hop : Opening s) : Settled s := by
  refine ⟨fun p => (hop.owed p).2.2,fun _ p => (hop.owed p).2.1,
    fun id t ht => ?_,fun id r hr => ?_⟩
  · rw [hop.triggers id] at ht
    cases ht
  · rw [hop.runs id] at hr
    cases hr

/-- No publication of a run acknowledges the marker over an owed purge. -/
def CalmRun (h : List (Event Site Action Unit)) : Prop := ∀ e∈h, Calm e.before e.action

/-- In a run whose publications take no marked change back, the current
generation shows every marked change whenever the marker row is absent; in a
calm one the storefront was purged after every publication of changed contents,
too. -/
theorem catalogue_changes_kept {start : Site} {h : List (Event Site Action Unit)}
    (hopen : Opening start) (hrun : Run step Admissible start h s)
    (hfor : ∀ e∈h, Forward e.before e.action) (hnone : s.marker=none) :
    (∀ p, s.marked p ≤ s.generation p)∧(CalmRun h→∀ p, s.contentMarked p ≤ s.purged p) := by
  have hall : (∀ e∈h, Forward e.before e.action) → Sound s∧(CalmRun h → Settled s) := by
    refine Run.invariant (P := fun h s => (∀ e∈h, Forward e.before e.action) →
      Sound s∧(CalmRun h → Settled s)) hrun (fun _ => ⟨hopen.sound,fun _ => hopen.settled⟩) ?_
    intro h s action hpa hallow hfor
    obtain ⟨hsd,hset⟩ := hpa fun e he => hfor e (mem_append_left _ he)
    refine ⟨step_sound hsd hallow (hfor _ mem_concat_self),fun hcal => ?_⟩
    exact step_settled (hset fun e he => hcal e (mem_append_left _ he)) hsd hallow
      (hcal _ mem_concat_self)
  exact ⟨(hall hfor).1.clear hnone,fun hcal => ((hall hfor).2 hcal).clear hnone⟩

/-- Every action of a literal list is good when its turn comes. -/
def GoodFrom (good : Site → Action → Prop) (s : Site) : List Action → Prop
  | [] => True
  | action::rest => good s action∧GoodFrom good (step s action).2 rest

theorem GoodFrom.play {good : Site → Action → Prop} {h : List (Event Site Action Unit)}
    (hgd : ∀ e∈h, good e.before e.action) (actions : List Action) (hrt : GoodFrom good s actions) :
    ∀ e∈(RunHistory.play step h s actions).1, good e.before e.action := by
  induction actions generalizing h s with
  | nil => exact hgd
  | cons _ _ ih =>
    refine ih (fun e he => ?_) hrt.2
    rcases mem_concat_iff.mp he with hold|rfl
    · exact hgd e hold
    · exact hrt.1

/-- Site that published nothing yet. -/
def emptySite : Site where
  catalog _ := 0
  generation _ := 0
  purged _ := 0
  marker := none
  lock := none
  triggers _ := none
  runs _ := none
  loops _ := idleLoop
  marked _ := 0
  contentMarked _ := 0
  newest := 0

theorem emptySite_opening : Opening emptySite :=
  ⟨rfl,fun _ => rfl,fun _ => rfl,fun _ => le_refl _,
    fun _ => ⟨le_refl _,le_refl _,le_refl _⟩⟩

/-- A changed product is published and the storefront purged. -/
def purgedActions : List Action :=
  [.change 0 0 ["shirt"] (.named ["shirt"]) true,.insertMark 0 1,.join 0 0,.acquire 0,
    .read 0 false,.publish 0,.purge 0,.acknowledge 0 1]

/-- The purge of a changed product fails; a change of the stock publishes
without a purge and acknowledges the marker. -/
def unpurgedActions : List Action :=
  [.change 0 0 ["shirt"] (.named ["shirt"]) true,.insertMark 0 1,.join 0 0,.acquire 0,
    .read 0 false,.publish 0,.giveUp 0 1,.change 1 0 ["shirt"] (.named ["shirt"]) false,
    .insertMark 1 2,.upsertMark 1 3,.join 1 1,.acquire 1,.read 1 false,.publish 1,
    .acknowledge 1 2]

/-- A publication read the catalogue when its lease lapses; a later change is
published and acknowledged before it publishes. -/
def lapsedActions : List Action :=
  [.change 0 0 ["shirt"] (.named ["shirt"]) true,.insertMark 0 1,.join 0 0,.acquire 0,
    .read 0 false,.expire,.change 1 1 ["shirt"] (.named ["shirt"]) false,.insertMark 1 2,
    .upsertMark 1 3,.join 1 1,.acquire 1,.read 1 false,.publish 1,.acknowledge 1 2,.publish 0,
    .purge 0,.acknowledge 0 3]

theorem purgedRun : Run step Admissible emptySite (play step [] emptySite purgedActions).1
    (play step [] emptySite purgedActions).2 :=
  Run.play Run.nil purgedActions ⟨⟨rfl,by decide⟩,(by decide : (0 : ℤ)<1),⟨rfl,by decide⟩,
    trivial,trivial,trivial,trivial,rfl,trivial⟩

/-- The storefront shows the changed product of the sample run. -/
theorem catalogue_changes_kept_purged : (play step [] emptySite purgedActions).2.marker=none ∧
    (∀ p, (play step [] emptySite purgedActions).2.marked p ≤
        (play step [] emptySite purgedActions).2.generation p) ∧
      ∀ p, (play step [] emptySite purgedActions).2.contentMarked p ≤
        (play step [] emptySite purgedActions).2.purged p := by
  have hcal : CalmRun (play step [] emptySite purgedActions).1 := by
    refine GoodFrom.play (fun _ he => absurd he not_mem_nil) purgedActions
      ⟨trivial,trivial,trivial,trivial,trivial,trivial,trivial,?_,trivial⟩
    intro r hr _ hpur
    cases hr
    cases hpur
  have hfor : ∀ e∈(play step [] emptySite purgedActions).1, Forward e.before e.action := by
    refine GoodFrom.play (fun _ he => absurd he not_mem_nil) purgedActions
      ⟨trivial,trivial,trivial,trivial,trivial,?_,trivial,trivial,trivial⟩
    rintro r seen whole hr hph p -
    cases hr
    cases hph
    change (if p∈["shirt"] then max 0 (if p∈["shirt"] then 1 else 0) else 0) ≤
      if false=true∨p∈["shirt"] then (if p∈["shirt"] then 1 else 0) else 0
    by_cases hp : p∈["shirt"] <;> simp only [hp,if_true,if_false,or_true,or_false] <;> decide
  have hkep := catalogue_changes_kept emptySite_opening purgedRun hfor rfl
  exact ⟨rfl,hkep.1,hkep.2 hcal⟩

/-- The marker of a failed purge is acknowledged by a publication that does
not purge; and a publication whose lease lapsed takes back a change that was
acknowledged. -/
theorem catalogue_changes_lost : Opening emptySite ∧
    (∃ h s, Run step Admissible emptySite h s∧s.marker=none∧(∀ id, s.triggers id=none) ∧
      (∀ id, s.runs id=none)∧∃ p, s.purged p<s.contentMarked p) ∧
    ∃ h s, Run step Admissible emptySite h s∧s.marker=none∧(∀ id, s.triggers id=none) ∧
      (∀ id, s.runs id=none)∧∃ p, s.generation p<s.marked p := by
  refine ⟨emptySite_opening,⟨(play step [] emptySite unpurgedActions).1,
    (play step [] emptySite unpurgedActions).2,.play Run.nil unpurgedActions
      ⟨⟨rfl,by decide⟩,(by decide : (0 : ℤ)<1),⟨rfl,by decide⟩,trivial,trivial,trivial,rfl,
        ⟨rfl,by decide⟩,(by decide : (1 : ℤ)<2),(by decide : (1 : ℤ)<3),⟨rfl,by decide⟩,
        trivial,trivial,trivial,rfl,trivial⟩,rfl,fun id => ?_,fun id => ?_,"shirt",by decide⟩,
    (play step [] emptySite lapsedActions).1,(play step [] emptySite lapsedActions).2,
    .play Run.nil lapsedActions
      ⟨⟨rfl,by decide⟩,(by decide : (0 : ℤ)<1),⟨rfl,by decide⟩,trivial,trivial,trivial,
        ⟨rfl,by decide⟩,(by decide : (1 : ℤ)<2),(by decide : (1 : ℤ)<3),⟨rfl,by decide⟩,
        trivial,trivial,trivial,rfl,trivial,trivial,rfl,trivial⟩,rfl,fun id => ?_,fun id => ?_,
    "shirt",by decide⟩ <;> rcases id with _|_|_|_|id <;> rfl

end SellRight.ManifestPurges
