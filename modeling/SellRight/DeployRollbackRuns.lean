import SellRight.DeployRollbackSound

/-!
# Runs of the rollback commands

Each procedure keeps state file, record and journal in agreement at each of its
durable writes, keeps kind and target of a record it retries, and retires a record
only when the live release has passed its smoke and the purge step is done.
-/

namespace SellRight.DeployRollbackRuns

open CrashSteps CrashSteps.Program DeployRecord DeployMarker DeployMarkerSpecs DeployEntry
open DeployRollback DeployRollbackPhases DeployRollbackSound DeploySwaps RunHistory

/-- Kind of rollback a command invokes, with the target it names. -/
def invokes : RollbackCommand → Option (RollbackKind×Option (String ⊕ StageId))
  | .entry _ => none
  | .previous _ => some (.previous,none)
  | .composed choice => some (.composed,choice.wanted.map .inl)
  | .legacy choice => some (.legacy,some (.inl choice.tag))

/-- The record is that of the invocation, and still stands where it was made: its
swap is committed, or the live tree is the one it was recorded against. -/
def Retries (kind : RollbackKind) (wanted : Option (String ⊕ StageId)) (op : RollbackOp)
    (disk : Disk) : Prop :=
  op.kind=kind∧asksOther wanted op=false ∧
    (opSwapped op disk.record=true∨recordedHere op disk.record=true)

/-- A restore took the stage of the tag away, yet the state file has it active. -/
def Displaced (tag : String) (disk : Disk) : Prop :=
  legacyAlready tag disk=true∧legacyActive tag disk.record=true ∧
    ∀ state∈disk.record, liveStage (some state)≠some state.stageId

/-- A rollback found some state of the root and is done in another: the live
release passed its smoke and the purge step is over. -/
def Finished (production : Bool) (found : Disk) (op : RollbackOp) (disk : Disk) : Prop :=
  ∃ state, disk.record=some state∧Confirmed state∧(production=true→state.state=.purged) ∧
    (op.kind≠.legacy → op.stageId=liveStage (some state)) ∧
    (op.kind=.legacy→∃ tag, op.target=.inl tag∧state.source=some (.legacyTag tag) ∧
      (¬ Displaced tag found→liveStage (some state)=some state.stageId))

/-- What holds of a root while a rollback runs on it. -/
structure Held (production : Bool) (kind : RollbackKind) (wanted : Option (String ⊕ StageId))
    (found root : Root) : Prop where
  sound : Sound (booksOf root.disk)
  /-- Records are retired only when they are finished. -/
  retired : ∀ entry∈root.retired, entry∈found.retired ∨
    Finished production found.disk entry.1 entry.2
  steady : ∀ op∈found.disk.rollbackOp, Retries kind wanted op found.disk →
    ∀ other∈root.disk.rollbackOp, other.kind=op.kind∧other.target=op.target

variable {I : Root → Prop} {E : Exit → Root → Prop} {disk : Disk} {tag : String}

section Rules

variable {production retain : Bool} {kind : RollbackKind} {wanted : Option (String ⊕ StageId)}
  {found root : Root} {op : RollbackOp} {state : Record}

/-- Precondition of a deploy command within a rollback. -/
@[simp] theorem wp_onDisk {α : Type} {program : Deploy α} {Q : α → Root → Prop} :
    Wp I (onDisk program) Q E root ↔ Wp (fun disk => I (setDisk disk root)) program
      (fun a disk => Q a (setDisk disk root)) (fun e disk => E e (setDisk disk root)) root.disk :=
  wp_zoom

theorem wp_claim {Q : Claim → Root → Prop}
    (hok : ∀ claimed, claimOp kind wanted root.disk=.ok claimed → Q claimed root)
    (her : ∀ e, claimOp kind wanted root.disk=.error e → E e root) :
    Wp I (claim kind wanted) Q E root := by
  refine wp_read ?_
  cases hcl : claimOp kind wanted root.disk with
  | ok claimed => exact wp_pure.mpr (hok claimed hcl)
  | error e => exact wp_fail.mpr (her e hcl)

/-- Precondition of a new record. -/
theorem wp_beginOp {Q : RollbackOp → Root → Prop}
    {target : String ⊕ StageId} {stageId : Option StageId}
    (hcra : I (setDisk {root.disk with
      rollbackOp := some ⟨kind,target,liveStage root.disk.record,stageId⟩} root))
    (hps : Q ⟨kind,target,liveStage root.disk.record,stageId⟩ (setDisk {root.disk with
      rollbackOp := some ⟨kind,target,liveStage root.disk.record,stageId⟩} root)) :
    Wp I (beginOp kind target stageId) Q E root := by
  unfold beginOp writeOp
  simp only [wp_bind,wp_fetch,wp_write,wp_pure]
  exact ⟨hcra,hps⟩

theorem claimOp_some (hop : root.disk.rollbackOp=some op) :
    claimOp kind wanted root.disk =
      if opSwapped op root.disk.record then
        if op.kind=kind then
          if asksOther wanted op then .error .precond else .ok (.resume op)
        else if kind=.previous then .ok .fresh
        else .error .precond
      else if op.kind=kind&&recordedHere op root.disk.record && !asksOther wanted op then
        .ok (.reuse op)
      else .ok .fresh := by
  unfold claimOp
  rw [hop]

theorem claimOp_resume (h : claimOp kind wanted root.disk=.ok (.resume op)) :
    root.disk.rollbackOp=some op∧op.kind=kind∧opSwapped op root.disk.record=true ∧
      asksOther wanted op=false := by
  cases hop : root.disk.rollbackOp with
  | none =>
    unfold claimOp at h
    rw [hop] at h
    cases h
  | some found =>
    rw [claimOp_some hop] at h
    by_cases hswa : opSwapped found root.disk.record=true
    · rw [if_pos hswa] at h
      by_cases hkd : found.kind=kind
      · rw [if_pos hkd] at h
        by_cases hask : asksOther wanted found=true
        · rw [if_pos hask] at h
          cases h
        · rw [if_neg hask] at h
          cases h
          exact ⟨rfl,hkd,hswa,Bool.eq_false_iff.mpr hask⟩
      · rw [if_neg hkd] at h
        split_ifs at h
        cases h
    · split_ifs at h <;> cases h

theorem claimOp_reuse (h : claimOp kind wanted root.disk=.ok (.reuse op)) :
    root.disk.rollbackOp=some op∧op.kind=kind ∧
      recordedHere op root.disk.record=true∧asksOther wanted op=false := by
  cases hop : root.disk.rollbackOp with
  | none =>
    unfold claimOp at h
    rw [hop] at h
    cases h
  | some found =>
    rw [claimOp_some hop] at h
    split at h
    · split_ifs at h <;> cases h
    split_ifs at h with heq
    · cases h
      rw [Bool.and_eq_true,Bool.and_eq_true,Bool.not_eq_true'] at heq
      exact ⟨rfl,of_decide_eq_true heq.1.1,heq.1.2,heq.2⟩
    · cases h

theorem claimOp_fresh (h : claimOp kind wanted root.disk=.ok .fresh)
    (hop : root.disk.rollbackOp=some op) : ¬ Retries kind wanted op root.disk := by
  rintro ⟨hkd,hask,hsta⟩
  rw [claimOp_some hop] at h
  by_cases hswa : opSwapped op root.disk.record=true
  · rw [if_pos hswa,if_pos hkd,hask] at h
    cases h
  rw [if_neg hswa] at h
  have hher := hsta.resolve_left hswa
  rw [hher,hask,hkd] at h
  simp at h

section
variable (h : Held production kind wanted found root)
include h

/-- The books of a deploy command within a rollback. -/
theorem Held.kept : Kept root.disk root.disk :=
  ⟨h.sound,rfl⟩

/-- What a deploy command leaves within a rollback. -/
theorem Held.after
    (hkp : Kept root.disk disk) : Held production kind wanted found (setDisk disk root) := by
  refine ⟨hkp.sound,h.retired,fun op hop hret other hot => ?_⟩
  have heq : disk.rollbackOp=root.disk.rollbackOp := hkp.rollbackOp
  refine h.steady op hop hret other ?_
  rw [← heq]
  exact hot

/-- A deploy command within a rollback. -/
theorem Held.wp_onDisk {α : Type} {program : Deploy α} {P : α → Disk → Prop} {Q : α → Root → Prop}
    (hpro : Wp (Kept root.disk) program (fun a disk => Kept root.disk disk∧P a disk)
      (fun _ => Kept root.disk) root.disk)
    (hps : ∀ a disk, Kept root.disk disk → P a disk →
      Held production kind wanted found (setDisk disk root) → Q a (setDisk disk root)) :
    Wp (Held production kind wanted found) (onDisk program) Q
      (fun _ => Held production kind wanted found) root :=
  DeployRollbackRuns.wp_onDisk.mpr (hpro.imp (fun _ hkp => h.after hkp)
    (fun a disk haft => hps a disk haft.1 haft.2 (h.after haft.1))
    fun _ _ hkp => h.after hkp)

/-- The record is retired once the rollback is finished. -/
theorem Held.wp_clearOp {Q : Unit → Root → Prop} (hop : root.disk.rollbackOp=some op)
    (hfin : Finished production found.disk op root.disk)
    (hps : ∀ after, Held production kind wanted found after → Q () after) :
    Wp (Held production kind wanted found) clearOp Q E root := by
  have hcle : Held production kind wanted found
      { disk := {root.disk with rollbackOp := none}
        retired := root.retired ++
          (root.disk.rollbackOp.map fun op => (op,root.disk)).toList} := by
    refine ⟨⟨h.sound.placed,fun _ hno => (by cases hno),h.sound.journaled,
      fun _ hno => (by cases hno),fun _ hno => (by cases hno)⟩,?_,
      fun _ _ _ _ hno => (by cases hno)⟩
    intro entry hent
    rw [hop] at hent
    rcases List.mem_append.mp hent with hold|hnew
    · exact h.retired entry hold
    · obtain rfl := List.mem_singleton.mp hnew
      exact .inr hfin
  exact wp_write.mpr ⟨hcle,hps _ hcle⟩

end

/-- The state after a purge step that passed. -/
structure Closes (production : Bool) (state next : Record) : Prop where
  stageId : next.stageId=state.stageId
  source : next.source=state.source
  live : liveStage (some next)=liveStage (some state)
  confirmed : Confirmed next
  purged : production=true→next.state=.purged

theorem Held.wp_purgeStep {choice : PurgeStepChoice} {Q : Unit → Root → Prop}
    (h : Held production kind wanted found root) (hrec : root.disk.record=some state)
    (hcon : Confirmed state)
    (hps : ∀ after next, Held production kind wanted found after →
      after.disk.rollbackOp=root.disk.rollbackOp→after.disk.record=some next →
      Closes production state next → Q () after) :
    Wp (Held production kind wanted found) (purgeStep production choice) Q
      (fun _ => Held production kind wanted found) root := by
  have hpur : ∀ purging, Wp (Held production kind wanted found) (onDisk (purge purging)) Q
      (fun _ => Held production kind wanted found) root := by
    intro purging
    refine h.wp_onDisk h.kept.wp_purge fun _ disk hkp haft hhd => ?_
    obtain ⟨before,hbef,-,hpurg⟩ := haft
    have heq : before=state := Option.some.inj (hbef.symm.trans hrec)
    subst heq
    have hlv : liveStage (some {before with
        state := .purged, live := withState .purged before.live})=liveStage (some before) :=
      liveStage_withState
    refine hps _ _ hhd hkp.rollbackOp hpurg ⟨rfl,rfl,hlv,?_,fun _ => rfl⟩
    exact (hkp.sound.placed _ hpurg).confirmed (by simp [purgeable])
  unfold purgeStep
  by_cases hpro : production=true
  · rw [if_pos hpro]
    exact hpur _
  rw [if_neg hpro]
  split
  · exact hpur _
  · exact wp_pure.mpr (hps root state h rfl hrec ⟨rfl,rfl,rfl,hcon,fun htru => absurd htru hpro⟩)

/-- A committed rollback put its stage live. -/
theorem exists_of_opSwapped (h : opSwapped op root.disk.record=true) :
    ∃ state, root.disk.record=some state∧op.stageId=liveStage (some state) ∧
      op.stageId.isSome=true := by
  unfold opSwapped at h
  rw [Bool.and_eq_true,beq_iff_eq] at h
  cases hrec : root.disk.record with
  | none =>
    rw [hrec] at h
    rw [← h.2] at h
    cases h.1
  | some state =>
    rw [hrec] at h
    exact ⟨state,rfl,h.2.symm,h.1⟩

theorem finalState_mem {operation : Inflight} (h : Fits state operation) :
    operation.finalState∈purgeable := by
  rcases h with ⟨-,hfin,-⟩|⟨-,hfin,-⟩ <;> rw [hfin] <;> simp [purgeable]

/-- A passed swap leaves a confirmed release. -/
theorem confirmed_of_passed {stageId live : StageId} {source : Option Source}
    {phase : Phase} (hsd : Sound (booksOf disk)) (hph : phase∈purgeable)
    (hpas : Passed stageId source phase live disk) :
    ∃ next, disk.record=some next∧next.stageId=stageId∧next.source=source ∧
      Confirmed next∧liveStage (some next)=some live := by
  obtain ⟨next,hrec,hsta,hsou,hst,hlv⟩ := hpas
  refine ⟨next,hrec,hsta,hsou,(hsd.placed next hrec).confirmed ?_,hlv⟩
  rw [hst]
  exact hph

theorem Held.wp_finishCommitted {choice : FinishChoice} (h : Held production kind wanted found root)
    (hop : root.disk.rollbackOp=some op) (hswa : opSwapped op root.disk.record=true)
    (hkd : op.kind≠.legacy) :
    Always (Held production kind wanted found) (finishCommitted retain production choice op)
      root := by
  obtain ⟨state,hrec,hsta,-⟩ := exists_of_opSwapped hswa
  refine Wp.seq (Q := fun _ after => Held production kind wanted found after ∧
    after.disk.rollbackOp=some op∧∃ next, after.disk.record=some next∧Confirmed next ∧
      liveStage (some next)=liveStage (some state)) (wp_read ?_) fun _ after hall => ?_
  · split
    · refine h.wp_onDisk h.kept.wp_resume fun _ disk hkp haft hhd => ?_
      obtain ⟨before,operation,hbef,hlv,hfs,hpas⟩ := haft
      have heq : before=state := Option.some.inj (hbef.symm.trans hrec)
      subst heq
      obtain ⟨next,hthe,-,-,hcon,hnow⟩ :=
        confirmed_of_passed hkp.sound (finalState_mem hfs) hpas
      exact ⟨hhd,hkp.rollbackOp.trans hop,next,hthe,hcon,hnow.trans hlv.symm⟩
    · refine wp_check.mpr ⟨fun hfin => ?_,fun _ => h⟩
      rw [hrec] at hfin
      have hpurg : state.state∈purgeable := by
        have hbo : (purgeable.contains state.state &&
          (state.activations.getLast?.map (·.stageId)) == op.stageId)=true := hfin
        rw [Bool.and_eq_true] at hbo
        exact List.contains_iff_mem.mp hbo.1
      exact ⟨h,hop,state,hrec,(h.sound.placed state hrec).confirmed hpurg,rfl⟩
  · obtain ⟨hhd,heq,next,hthe,hcon,hlv⟩ := hall
    refine wp_bind.mpr (wp_read ?_)
    split_ifs with hpur
    · rw [hthe] at hpur
      exact wp_pure.mpr (hhd.wp_clearOp heq ⟨next,hthe,hcon,fun _ => of_decide_eq_true hpur,
        fun _ => hsta.trans hlv.symm,fun hleg => absurd hleg hkd⟩ fun _ haft => haft)
    · exact hhd.wp_purgeStep hthe hcon fun later last hlat hlate hlt hclo =>
        hlat.wp_clearOp (hlate.trans heq) ⟨last,hlt,hclo.confirmed,hclo.purged,
          fun _ => hsta.trans (hclo.live.trans hlv).symm,fun hleg => absurd hleg hkd⟩
          fun _ haft => haft

theorem held_start (hsd : Sound (booksOf root.disk)) :
    Held production kind wanted root root := by
  refine ⟨hsd,fun _ hent => .inl hent,fun op hop _ other hot => ?_⟩
  have heq : other=op := Option.some.inj (hot.symm.trans hop)
  rw [heq]
  exact ⟨rfl,rfl⟩

section
variable (h : Held production kind wanted found root)
include h

theorem Held.written
    (hdra : ∀ id∈op.stageId, Known root.disk.serial id)
    (hnm : op.kind=.legacy→∀ state∈root.disk.record, op.stageId=some state.stageId →
      FromTag op state)
    (hpre : op.kind=.previous→∃ id, op.target=.inr id∧op.stageId=some id)
    (hste : ∀ other∈found.disk.rollbackOp, Retries kind wanted other found.disk →
      op.kind=other.kind∧op.target=other.target) :
    Held production kind wanted found
      (setDisk {root.disk with rollbackOp := some op} root) := by
  refine ⟨⟨h.sound.placed,?_,h.sound.journaled,?_,?_⟩,h.retired,?_⟩
  · rintro other ⟨⟩
    exact hdra
  · rintro other ⟨⟩
    exact hnm
  · rintro other ⟨⟩
    exact hpre
  · rintro other hot hret last ⟨⟩
    exact hste other hot hret

theorem Held.wp_restore {choice : PreviousChoice} {recorded : Option RollbackOp} (hop : ∀ op∈recorded,
      root.disk.rollbackOp=some op∧op.kind=.previous∧op.stageId=prevStage root.disk.record) :
    Always (Held production kind wanted found) (onDisk (restorePrevious retain choice.restoring) >>=
        fun _ => purgeStep production choice.finishing.purging >>= fun _ => clearWritten recorded)
      root := by
  refine wp_bind.mpr (h.wp_onDisk h.kept.wp_restorePrevious fun _ disk hkp haft hhd => ?_)
  obtain ⟨state,prev,hrec,hpv,hpas⟩ := haft
  obtain ⟨next,hnx,-,-,hcon,hlv⟩ :=
    confirmed_of_passed hkp.sound (by simp [purgeable]) hpas
  refine wp_bind.mpr (hhd.wp_purgeStep hnx hcon fun after last haft heq hlt hclo => ?_)
  cases recorded with
  | none => exact wp_pure.mpr haft
  | some op =>
    obtain ⟨hthe,hkd,hsta⟩ := hop op rfl
    have hpre : prevStage root.disk.record=some prev.stageId := by
      rw [hrec]
      exact congrArg (Option.map Release.stageId) hpv
    refine haft.wp_clearOp (heq.trans (hkp.rollbackOp.trans hthe))
      ⟨last,hlt,hclo.confirmed,hclo.purged,fun _ => ?_,fun hleg => ?_⟩
      fun _ hdn => hdn
    · exact hsta.trans (hpre.trans (hlv.symm.trans hclo.live.symm))
    · rw [hkd] at hleg
      cases hleg

/-- A claim that is not resumed goes on with the rest, and a resumed one finishes. -/
theorem Held.wp_claimed {choice : FinishChoice} {rest : Claim → Rollback Unit} (hkd : kind≠.legacy)
    (hlv : ∀ claimed, claimOp kind wanted root.disk=.ok claimed → (∀ op, claimed≠.resume op) →
      Always (Held production kind wanted found) (rest claimed) root) :
    Always (Held production kind wanted found) (claim kind wanted >>= fun claimed =>
      match claimed with
      | .resume op => finishCommitted retain production choice op
      | _ => rest claimed) root := by
  refine wp_bind.mpr (wp_claim (fun claimed hcl => ?_) fun _ _ => h)
  cases claimed with
  | fresh | reuse => exact hlv _ hcl fun _ => Claim.noConfusion
  | resume op =>
    obtain ⟨hop,hk,hswa,-⟩ := claimOp_resume hcl
    exact h.wp_finishCommitted hop hswa (hk ▸ hkd)

end

theorem wp_rollbackPrevious {choice : PreviousChoice} (hsd : Sound (booksOf root.disk)) :
    Always (Held production .previous none root) (rollbackPrevious retain production choice)
      root := by
  have h : Held production .previous none root root := held_start hsd
  refine wp_guard (fun _ => ?_) h
  refine h.wp_claimed nofun fun claimed hcl hres => wp_read ?_
  split
  · refine wp_bind.mpr (h.wp_onDisk h.kept.wp_resume fun _ disk hkp haft hhd => ?_)
    obtain ⟨before,operation,-,-,hfs,hpas⟩ := haft
    obtain ⟨next,hnx,-,-,hcon,-⟩ :=
      confirmed_of_passed hkp.sound (finalState_mem hfs) hpas
    exact hhd.wp_purgeStep hnx hcon fun _ _ haft _ _ _ => haft
  · refine wp_bind.mpr ?_
    refine wp_read ?_
    cases claimed with
    | resume op => exact absurd rfl (hres op)
    | reuse op =>
      obtain ⟨hop,hkd,hher,-⟩ := claimOp_reuse hcl
      refine wp_pure.mpr (h.wp_restore ?_)
      rintro other ⟨⟩
      obtain ⟨id,htgt,hsta⟩ := hsd.previous op hop hkd
      refine ⟨hop,hkd,?_⟩
      simp [recordedHere,hkd,htgt] at hher
      exact hsta.trans hher.2.symm
    | fresh =>
      cases hpv : prevStage root.disk.record with
      | none =>
        refine wp_pure.mpr (h.wp_restore ?_)
        exact nofun
      | some id =>
        have hkn : Known root.disk.serial id := by
          cases hrec : root.disk.record with
          | none =>
            rw [hrec] at hpv
            cases hpv
          | some state =>
            rw [hrec] at hpv
            exact (hsd.placed state hrec).drawn.prev id hpv
        have hwri : Held production .previous none root (setDisk {root.disk with
            rollbackOp := some ⟨.previous,.inr id,liveStage root.disk.record,some id⟩}
            root) := by
          refine h.written ?_ nofun (fun _ => ⟨id,rfl,rfl⟩) ?_
          · rintro other ⟨⟩
            exact hkn
          · exact fun other hot hret => absurd hret (claimOp_fresh hcl hot)
        refine wp_bind.mpr (wp_beginOp hwri (wp_pure.mpr (hwri.wp_restore ?_)))
        rintro other ⟨⟩
        exact ⟨rfl,rfl,hpv.symm⟩

/-- The built stage remembers the target of the rollback. -/
theorem Held.withTarget {id : String} (h : Held production kind wanted found root) :
    Held production kind wanted found (setRollbackTarget id root) := by
  refine h.after ?_
  cases hrec : root.disk.record with
  | none =>
    refine h.kept.of_books ?_
    unfold booksOf
    rw [hrec]
    rfl
  | some state =>
    have hpla := (h.sound.placed state hrec).annotated state.swap (some id)
    have hboo : booksOf {root.disk with
        record := (some state).map fun state => {state with rollbackTarget := some id}} =
          {booksOf root.disk with record := some {state with rollbackTarget := some id}} := rfl
    exact h.kept.saved hrec hboo rfl rfl hpla fun hbui => hbui

theorem Held.named (h : Held production kind wanted found root)
    (hop : root.disk.rollbackOp=some op) (hpre : op.kind≠.previous)
    (hleg : op.kind=.legacy→∀ state∈root.disk.record, FromTag op state) :
    Held production kind wanted found (setOpStage op root) := by
  refine h.written ?_ (fun hkd state hst _ => ?_) (fun hkd => absurd hkd hpre)
    fun other hot hret => h.steady other hot hret op hop
  · intro id hid
    cases hrec : root.disk.record with
    | none =>
      rw [hrec] at hid
      cases hid
    | some state =>
      rw [hrec] at hid
      cases hid
      obtain ⟨n,hn,hsta⟩ := (h.sound.placed state hrec).drawn.stage
      change Known root.disk.serial state.stageId
      rw [hsta]
      exact hn
  · obtain ⟨tag,htgt,hsou⟩ := hleg hkd state hst
    exact ⟨tag,htgt,hsou⟩

section
variable {choice : ComposedChoice}

theorem Held.wp_composedActivate (h : Held production kind wanted found root) (hop : root.disk.rollbackOp=some op)
    (hkd : op.kind=.composed) (hsta : op.stageId=root.disk.record.map (·.stageId)) :
    Always (Held production kind wanted found)
      (check choice.hashesMatch .artifact >>= fun _ =>
        onDisk (activate retain choice.activating) >>= fun _ => purgeStep production choice.finishing.purging >>= fun _ => clearOp)
      root := by
  refine wp_guard (fun _ => ?_) h
  refine wp_bind.mpr (h.wp_onDisk h.kept.wp_activate fun _ disk hkp haft hhd => ?_)
  obtain ⟨state,hrec,hpas⟩ := haft
  obtain ⟨next,hnx,-,-,hcon,hlv⟩ :=
    confirmed_of_passed hkp.sound (by simp [purgeable]) hpas
  refine wp_bind.mpr (hhd.wp_purgeStep hnx hcon fun after last haft heq hlt hclo => ?_)
  refine haft.wp_clearOp (heq.trans (hkp.rollbackOp.trans hop))
    ⟨last,hlt,hclo.confirmed,hclo.purged,fun _ => ?_,fun hleg => ?_⟩
    fun _ hdn => hdn
  · rw [hsta,hrec]
    exact hlv.symm.trans hclo.live.symm
  · rw [hkd] at hleg
    cases hleg

theorem Held.wp_composedLive {claimed : Claim} {id : String}
    (h : Held production .composed wanted found root) (hres : ∀ op, claimed≠.resume op)
    (hreu : ∀ op, claimed=.reuse op → root.disk.rollbackOp=some op∧op.kind=.composed)
    (hfre : claimed=.fresh→∀ op∈found.disk.rollbackOp, ¬ Retries .composed wanted op found.disk) :
    Always (Held production .composed wanted found) (composedLive retain production choice claimed id)
      root := by
  have hens : Wp (Held production .composed wanted found) (ensureOp claimed .composed (.inl id))
      (fun op begun => Held production .composed wanted found begun ∧
        begun.disk.rollbackOp=some op∧op.kind=.composed)
      (fun _ => Held production .composed wanted found) root := by
    cases claimed with
    | resume op => exact absurd rfl (hres op)
    | reuse op => exact wp_pure.mpr ⟨h,hreu op rfl⟩
    | fresh =>
      have hwri : Held production .composed wanted found (setDisk {root.disk with
          rollbackOp := some ⟨.composed,.inl id,liveStage root.disk.record,none⟩} root) :=
        h.written nofun nofun nofun fun other hot hret => absurd hret (hfre rfl other hot)
      exact wp_beginOp hwri ⟨hwri,rfl,rfl⟩
  refine wp_guard (fun _ => ?_) h
  refine wp_guard (fun _ => ?_) h
  refine hens.seq fun op begun hall => ?_
  obtain ⟨hbeg,hop,hkd⟩ := hall
  refine wp_read (wp_guard (fun _ => ?_) hbeg)
  refine wp_bind.mpr ?_
  cases choice.inputsFail with
  | some => exact wp_fail.mpr hbeg
  | none =>
    refine wp_pure.mpr (wp_bind.mpr (hbeg.wp_onDisk (P := fun _ _ => True)
      (hbeg.kept.wp_build.post fun _ _ hkp => ⟨hkp,trivial⟩) fun _ disk hkp _ hhd => ?_))
    have htgt : Held production .composed wanted found
        (setRollbackTarget id (setDisk disk begun)) := hhd.withTarget
    refine wp_bind.mpr (wp_write.mpr ⟨htgt,?_⟩)
    have hnm := htgt.named (hkp.rollbackOp.trans hop)
      (by rw [hkd]; exact RollbackKind.noConfusion) fun hleg => by
        rw [hkd] at hleg
        cases hleg
    exact wp_bind.mpr (wp_write.mpr ⟨hnm,hnm.wp_composedActivate rfl hkd rfl⟩)

theorem Held.wp_composedClaimed (h : Held production .composed wanted found root)
    (hfre : claimOp .composed wanted root.disk=.ok .fresh→∀ op∈found.disk.rollbackOp,
      ¬ Retries .composed wanted op found.disk) :
    Always (Held production .composed wanted found)
      (claim .composed wanted >>= fun claimed =>
        match claimed with
        | .resume op => finishCommitted retain production choice.finishing op
        | _ => composedFresh retain production choice claimed) root := by
  refine h.wp_claimed nofun fun claimed hcl hres => wp_read (wp_guard (fun _ => ?_) h)
  cases composedTarget claimed choice.wanted root.disk.record with
  | none => exact wp_fail.mpr h
  | some =>
    refine wp_guard (fun _ => ?_) h
    refine h.wp_composedLive hres (fun op hop => ?_) fun hnew => hfre (hnew ▸ hcl)
    subst hop
    obtain ⟨hthe,hkd,-,-⟩ := claimOp_reuse hcl
    exact ⟨hthe,hkd⟩

end

variable {record : Option Record}

theorem inflightRollback_some (h : inflightRollback record=some op) :
    op.kind=.composed∧∃ state, record=some state∧op.stageId=liveStage (some state) := by
  unfold inflightRollback at h
  by_cases hcom : isCompletedSwap record=true
  · rw [if_pos hcom] at h
    cases record with
    | none => cases h
    | some state =>
      obtain ⟨inflight,hinf,-,-,hlv⟩ := isCompletedSwap_iff.mp hcom
      rw [Option.bind_eq_bind,Option.bind_some,hinf,Option.bind_eq_bind,Option.bind_some] at h
      cases htgt : inflight.target with
      | none =>
        rw [htgt] at h
        cases h
      | some =>
        rw [htgt,Option.bind_eq_bind,Option.bind_some] at h
        split at h
        · cases h
          exact ⟨rfl,state,rfl,hlv.symm⟩
        · cases h
  · rw [if_neg hcom] at h
    cases h

theorem wp_rollbackComposed {choice : ComposedChoice} (hsd : Sound (booksOf root.disk)) :
    Always (Held production .composed (choice.wanted.map .inl) root)
      (rollbackComposed retain production choice) root := by
  have h : Held production .composed (choice.wanted.map .inl) root root := held_start hsd
  refine wp_guard (fun _ => ?_) h
  refine wp_bind.mpr ?_
  refine wp_read ?_
  cases hop : root.disk.rollbackOp with
  | some => exact wp_pure.mpr (h.wp_composedClaimed fun hcl op hop => claimOp_fresh hcl hop)
  | none =>
    cases hfli : inflightRollback root.disk.record with
    | none => exact wp_pure.mpr (h.wp_composedClaimed fun hcl op hop => claimOp_fresh hcl hop)
    | some op =>
      have hwri : Held production .composed (choice.wanted.map .inl) root
          (setDisk {root.disk with rollbackOp := some op} root) := by
        obtain ⟨hkd,state,hrec,hsta⟩ := inflightRollback_some hfli
        refine h.written (fun id hid => ?_) (fun hleg => ?_) (fun hpre => ?_) fun other hot _ => ?_
        · rw [hsta] at hid
          exact (hsd.placed state hrec).drawn.live id hid
        · rw [hkd] at hleg
          cases hleg
        · rw [hkd] at hpre
          cases hpre
        · rw [hop] at hot
          cases hot
      refine wp_write.mpr ⟨hwri,hwri.wp_composedClaimed fun _ other hot => ?_⟩
      rw [hop] at hot
      cases hot

theorem legacySwapped_iff : legacySwapped tag root.disk.record=true ↔
    ∃ state inflight, root.disk.record=some state∧state.source=some (.legacyTag tag) ∧
      isCompletedSwap (some state)=true∧state.inflight=some inflight ∧
      inflight.kind=.activate∧inflight.stageId=state.stageId := by
  unfold legacySwapped
  simp only [Option.any_eq_true,Bool.and_eq_true,decide_eq_true_eq]
  constructor
  · rintro ⟨state,hrec,⟨hsou,hcom⟩,inflight,hinf,hkd,hsta⟩
    exact ⟨state,inflight,hrec,hsou,hcom,hinf,hkd,hsta⟩
  · rintro ⟨state,inflight,hrec,hsou,hcom,hinf,hkd,hsta⟩
    exact ⟨state,hrec,⟨hsou,hcom⟩,inflight,hinf,hkd,hsta⟩

theorem legacyActive_iff :
    legacyActive tag record=true ↔ ∃ state, record=some state∧state.source=some (.legacyTag tag) ∧
      (state.state=.active∨state.state=.purged∨state.state=.purgeFailed) := by
  unfold legacyActive
  simp only [Option.any_eq_true,Bool.and_eq_true,Bool.or_eq_true,decide_eq_true_eq,or_assoc]

theorem legacyAlready_iff :
    legacyAlready tag disk=true ↔ ∃ state, disk.record=some state ∧
      state.source=some (.legacyTag tag)∧(state.state=.built∨state.state=.active ∨
        state.state=.purged∨state.state=.purgeFailed) ∧
      Journaled disk.legacyJournal state.stageId := by
  unfold legacyAlready Journaled
  simp only [Option.any_eq_true,Bool.and_eq_true,Bool.or_eq_true,decide_eq_true_eq,or_assoc,
    and_assoc,Option.mem_def]

/-- What a legacy rollback knows of its stage before it puts it live. -/
def StageReady (tag : String) (found disk : Disk) (swapped : Bool) : Prop :=
  ∃ state, disk.record=some state∧state.source=some (.legacyTag tag) ∧
    (swapped=true→liveStage (some state)=some state.stageId) ∧
    (swapped=false→state.state=.built ∨
      ((state.state=.active∨state.state=.purged∨state.state=.purgeFailed) ∧
        (¬ Displaced tag found→liveStage (some state)=some state.stageId)))

theorem Held.wp_legacyLive {choice : LegacyChoice} {swapped : Bool}
    (h : Held production kind wanted found root) (hop : root.disk.rollbackOp=some op)
    (hkd : op.kind=.legacy) (htgt : op.target=.inl choice.tag)
    (hrdy : StageReady choice.tag found.disk root.disk swapped) :
    Always (Held production kind wanted found)
      (legacyLive retain choice swapped >>= fun _ =>
        purgeStep production choice.finishing.purging >>= fun _ => clearOp) root := by
  obtain ⟨state,hrec,hsou,hswa,hbuil⟩ := hrdy
  refine Wp.seq (Q := fun _ after => Held production kind wanted found after ∧
    after.disk.rollbackOp=some op∧∃ next, after.disk.record=some next ∧
      next.source=some (.legacyTag choice.tag)∧Confirmed next∧(¬ Displaced choice.tag found.disk →
        liveStage (some next)=some next.stageId)) (wp_read ?_) fun _ after hall => ?_
  case refine_2 =>
    obtain ⟨hhd,heq,next,hnx,hfro,hcon,hlv⟩ := hall
    refine wp_bind.mpr (hhd.wp_purgeStep hnx hcon fun later last hlat hlate hlt hclo => ?_)
    refine hlat.wp_clearOp (hlate.trans heq) ⟨last,hlt,hclo.confirmed,
      hclo.purged,absurd hkd,fun _ => ?_⟩ fun _ hdn => hdn
    refine ⟨choice.tag,htgt,hclo.source.trans hfro,fun hpla => ?_⟩
    rw [hclo.live,hclo.stageId]
    exact hlv hpla
  cases swapped with
  | true =>
    refine h.wp_onDisk h.kept.wp_resume fun _ disk hkp haft hhd => ?_
    obtain ⟨before,operation,hbef,hlv,hfs,hpas⟩ := haft
    have heq : before=state := Option.some.inj (hbef.symm.trans hrec)
    subst heq
    obtain ⟨next,hnx,hsta,hfro,hcon,hnow⟩ :=
      confirmed_of_passed hkp.sound (finalState_mem hfs) hpas
    refine ⟨hhd,hkp.rollbackOp.trans hop,next,hnx,hfro.trans hsou,hcon,fun _ => ?_⟩
    rw [hnow,hsta]
    exact hlv.symm.trans (hswa rfl)
  | false =>
    rw [if_neg Bool.false_ne_true]
    split_ifs with hact
    · obtain ⟨other,hot,-,hph⟩ := legacyActive_iff.mp hact
      have heq : other=state := Option.some.inj (hot.symm.trans hrec)
      subst heq
      have hlv := (hbuil rfl).resolve_left fun hbui => by
        rw [hbui] at hph
        rcases hph with hwro|hwro|hwro <;> cases hwro
      refine wp_pure.mpr ⟨h,hop,other,hrec,hsou,(h.sound.placed other hrec).confirmed ?_,hlv.2⟩
      rcases hph with hact|hpur|hfai
      · simp [purgeable,hact]
      · simp [purgeable,hpur]
      · simp [purgeable,hfai]
    · refine h.wp_onDisk h.kept.wp_activate fun _ disk hkp haft hhd => ?_
      obtain ⟨before,hbef,hpas⟩ := haft
      have heq : before=state := Option.some.inj (hbef.symm.trans hrec)
      subst heq
      obtain ⟨next,hnx,hsta,hfro,hcon,hlv⟩ :=
        confirmed_of_passed hkp.sound (by simp [purgeable]) hpas
      exact ⟨hhd,hkp.rollbackOp.trans hop,next,hnx,hfro.trans hsou,hcon,
        fun _ => hlv.trans (congrArg some hsta.symm)⟩

theorem stageReady_found
    (hfd : (legacySwapped tag root.disk.record||legacyAlready tag root.disk)=true) :
    StageReady tag root.disk root.disk (legacySwapped tag root.disk.record) := by
  cases hswa : legacySwapped tag root.disk.record with
  | true =>
    obtain ⟨state,inflight,hrec,hsou,hcom,hinf,-,hsta⟩ :=
      legacySwapped_iff.mp hswa
    obtain ⟨operation,hope,-,-,hlv⟩ := isCompletedSwap_iff.mp hcom
    have heq : operation=inflight := Option.some.inj (hope.symm.trans hinf)
    refine ⟨state,hrec,hsou,fun _ => ?_,nofun⟩
    rw [hlv,heq,hsta]
  | false =>
    rw [hswa,Bool.false_or] at hfd
    obtain ⟨state,hrec,hsou,hph,-⟩ := legacyAlready_iff.mp hfd
    refine ⟨state,hrec,hsou,nofun,fun _ => ?_⟩
    rcases hph with hbui|hact
    · exact .inl hbui
    refine .inr ⟨hact,fun hpla => ?_⟩
    by_contra happ
    refine hpla ⟨hfd,legacyActive_iff.mpr ⟨state,hrec,hsou,hact⟩,?_⟩
    intro other hot
    have heq : other=state := Option.some.inj (hot.symm.trans hrec)
    rw [heq]
    exact happ

section
variable {choice : LegacyChoice}

theorem Held.wp_legacyNamed {swapped : Bool}
    (h : Held production kind wanted found root) (hop : root.disk.rollbackOp=some op)
    (hkd : op.kind=.legacy) (htgt : op.target=.inl choice.tag)
    (hrdy : StageReady choice.tag found.disk root.disk swapped) :
    Always (Held production kind wanted found)
      (nameStage op >>= fun _ => legacyLive retain choice swapped >>= fun _ =>
        purgeStep production choice.finishing.purging >>= fun _ => clearOp) root := by
  refine wp_bind.mpr ?_
  unfold nameStage
  by_cases hno : op.stageId.isNone=true
  · have hnm : Held production kind wanted found (setOpStage op root) := by
      refine h.named hop (by rw [hkd]; exact RollbackKind.noConfusion) fun _ state hst => ?_
      obtain ⟨other,hot,hsou,-⟩ := hrdy
      have heq : other=state := Option.some.inj (hot.symm.trans hst)
      exact ⟨choice.tag,htgt,heq ▸ hsou⟩
    rw [if_pos hno]
    exact wp_write.mpr ⟨hnm,hnm.wp_legacyLive rfl hkd htgt hrdy⟩
  · rw [if_neg hno]
    exact wp_pure.mpr (h.wp_legacyLive hop hkd htgt hrdy)

theorem Held.wp_legacyBuilt (h : Held production kind wanted found root) (hop : root.disk.rollbackOp=some op)
    (hkd : op.kind=.legacy) (htgt : op.target=.inl choice.tag)
    (hrdy : (legacySwapped choice.tag found.disk.record ||
      legacyAlready choice.tag found.disk)=true →
      StageReady choice.tag found.disk root.disk (legacySwapped choice.tag found.disk.record)) :
    Always (Held production kind wanted found)
      (buildUnless retain choice (legacySwapped choice.tag found.disk.record ||
          legacyAlready choice.tag found.disk) >>= fun _ => nameStage op >>= fun _ =>
        legacyLive retain choice (legacySwapped choice.tag found.disk.record) >>= fun _ =>
        purgeStep production choice.finishing.purging >>= fun _ => clearOp) root := by
  refine wp_bind.mpr ?_
  unfold buildUnless
  split_ifs with hfd
  · exact wp_pure.mpr (h.wp_legacyNamed hop hkd htgt (hrdy hfd))
  refine h.wp_onDisk h.kept.wp_buildLegacy fun _ disk hkp haft hhd => ?_
  obtain ⟨state,hrec,hsou,hbui⟩ := haft
  refine hhd.wp_legacyNamed (hkp.rollbackOp.trans hop) hkd htgt
    ⟨state,hrec,hsou,fun hswa => absurd ?_ hfd,fun _ => .inl hbui⟩
  rw [hswa]
  rfl

theorem wp_rollbackLegacy (hsd : Sound (booksOf root.disk)) :
    Always (Held production .legacy (some (.inl choice.tag)) root)
      (rollbackLegacy retain production choice) root := by
  have h : Held production .legacy (some (.inl choice.tag)) root root := held_start hsd
  refine wp_guard (fun _ => ?_) h
  refine wp_guard (fun htag => ?_) h
  have hnm : choice.tag ≠ "" := of_decide_eq_true htag
  have htgt : ∀ op, asksOther (some (.inl choice.tag)) op=false →
      op.target=.inl choice.tag := by
    intro op hask
    simp only [asksOther,Option.any_some,ne_eq,Sum.inl.injEq,hnm,not_false_eq_true,
      true_and,decide_eq_false_iff_not,not_not] at hask
    exact hask.symm
  refine wp_bind.mpr (wp_claim (fun claimed hcl => ?_) fun _ _ => h)
  refine wp_read (wp_guard (fun _ => ?_) h)
  refine wp_guard (fun _ => ?_) h
  refine wp_bind.mpr ?_
  cases claimed with
  | fresh =>
    have hwri : Held production .legacy (some (.inl choice.tag)) root (setDisk {root.disk with
        rollbackOp := some ⟨.legacy,.inl choice.tag,liveStage root.disk.record,none⟩} root) :=
      h.written (fun _ hno => (by cases hno)) (fun _ _ _ hno => (by cases hno))
        (fun hpre => (by cases hpre))
        fun other hot hret => absurd hret (claimOp_fresh hcl hot)
    exact wp_beginOp hwri (hwri.wp_legacyBuilt rfl rfl rfl stageReady_found)
  | reuse op =>
    obtain ⟨hop,hkd,-,hask⟩ := claimOp_reuse hcl
    exact wp_pure.mpr (h.wp_legacyBuilt hop hkd (htgt op hask) stageReady_found)
  | resume op =>
    obtain ⟨hop,hkd,-,hask⟩ := claimOp_resume hcl
    exact wp_pure.mpr (h.wp_legacyBuilt hop hkd (htgt op hask) stageReady_found)

end

/-- What any command leaves of a root it found. -/
structure Follows (production : Bool) (command : RollbackCommand) (found root : Root) : Prop where
  sound : Sound (booksOf root.disk)
  /-- Records are retired only when they are finished. -/
  retired : ∀ entry∈root.retired, entry∈found.retired ∨
    Finished production found.disk entry.1 entry.2
  steady : ∀ kind wanted, invokes command=some (kind,wanted) →
    ∀ op∈found.disk.rollbackOp, Retries kind wanted op found.disk →
      ∀ other∈root.disk.rollbackOp, other.kind=op.kind∧other.target=op.target

section
variable {command : RollbackCommand}

theorem Held.follows (hinv : invokes command=some (kind,wanted))
    (h : Held production kind wanted found root) : Follows production command found root := by
  refine ⟨h.sound,h.retired,fun other asked hot => ?_⟩
  have heq : (other,asked)=(kind,wanted) := Option.some.inj (hot.symm.trans hinv)
  cases heq
  exact h.steady

theorem wp_rollbackCommand (hsd : Sound (booksOf root.disk)) :
    Always (Follows production command root) (command.program retain production) root := by
  cases command with
  | entry command =>
    have haft : ∀ disk, Kept root.disk disk →
        Follows production (.entry command) root (setDisk disk root) := fun disk hkp =>
      ⟨hkp.sound,fun _ hent => .inl hent,nofun⟩
    have hsta : Kept root.disk root.disk := ⟨hsd,rfl⟩
    exact wp_onDisk.mpr (hsta.wp_command.imp haft (fun _ => haft) fun _ => haft)
  | previous =>
    exact (wp_rollbackPrevious hsd).mono fun _ h => h.follows rfl
  | composed =>
    exact (wp_rollbackComposed hsd).mono fun _ h => h.follows rfl
  | legacy =>
    exact (wp_rollbackLegacy hsd).mono fun _ h => h.follows rfl

theorem follows_leaves (hsd : Sound (booksOf root.disk)) (kill : Option ℕ) :
    Follows production command root ((command.program retain production).leaves root kill) := by
  refine (wp_rollbackCommand hsd).leaves ?_ (fun _ _ h => h) (fun _ _ h => h) kill
  refine ⟨hsd,fun _ hent => .inl hent,fun kind wanted _ op hop _ other hot => ?_⟩
  have heq : other=op := Option.some.inj (hot.symm.trans hop)
  rw [heq]
  exact ⟨rfl,rfl⟩

end

/-- In every reached root state file, record and journal agree. -/
theorem sound_of_reached {marker : Option Content}
    (h : RollbackReached retain production marker root) : Sound (booksOf root.disk) := by
  obtain ⟨history,hrun⟩ := h
  refine Run.state_invariant (P := fun root => Sound (booksOf root.disk)) hrun ?_
    fun _ start action hsta _ => (follows_leaves hsta action.2).sound
  exact ⟨fun _ hno => (by cases hno),fun _ hno => (by cases hno),
    fun _ hno => (by cases hno),fun _ hno => (by cases hno),
    fun _ hno => (by cases hno)⟩

end Rules

end SellRight.DeployRollbackRuns
