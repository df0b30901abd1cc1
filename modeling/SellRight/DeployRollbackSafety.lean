import SellRight.DeployRollbackRuns

/-!
# A retried rollback resumes its recorded operation

While a rollback is recorded, invoking its kind again keeps its target, and once
its swap is committed it is only confirmed and purged, or refused.
-/

namespace SellRight.DeployRollbackSafety

open CrashSteps CrashSteps.Program DeployRecord DeployMarker DeployEntry
open DeployRollback DeployRollbackPhases DeployRollbackSound DeployRollbackRuns DeploySafety
open RunHistory

/-- Nothing is built or swapped: trees, drawn ids and named releases are the same. -/
structure Confirms (disk after : Disk) : Prop where
  trees : after.trees=disk.trees
  serial : after.serial=disk.serial
  stageId : after.record.map (·.stageId)=disk.record.map (·.stageId)
  live : liveStage after.record=liveStage disk.record
  prev : prevStage after.record=prevStage disk.record

section Confirm

variable {production retain : Bool} {torn : Content} {root : Root} {op : RollbackOp}
  {state next : Record} {disk after : Disk}

/-- Nothing changed. -/
theorem Confirms.rfl' : Confirms disk disk := ⟨rfl,rfl,rfl,rfl,rfl⟩

theorem Confirms.trans {later : Disk} (h : Confirms disk after) (hlat : Confirms after later) :
    Confirms disk later :=
  ⟨hlat.trees.trans h.trees,hlat.serial.trans h.serial,hlat.stageId.trans h.stageId,
    hlat.live.trans h.live,hlat.prev.trans h.prev⟩

/-- A later state of the same releases. -/
theorem Confirms.saved (h : Confirms disk after) (hrec : disk.record=some state)
    (hsta : next.stageId=state.stageId) (hlv : liveStage (some next)=liveStage (some state))
    (hpv : prevStage (some next)=prevStage (some state)) :
    Confirms disk (setRecord next after) := by
  refine ⟨h.trees,h.serial,?_,?_,?_⟩
  · rw [hrec]
    exact congrArg some hsta
  · rw [hrec]
    exact hlv
  · rw [hrec]
    exact hpv

/-- The marker files do not matter. -/
theorem Confirms.withMarkers (h : Confirms disk after) (markers : Markers) :
    Confirms disk (setMarkers markers after) :=
  ⟨h.trees,h.serial,h.stageId,h.live,h.prev⟩

/-- Confirming a completed swap changes no tree. -/
theorem wp_settle_confirms {launch : Launch} (hrec : disk.record=some state)
    (hpen : state.pending=none) :
    Always (Confirms disk) (settle retain torn launch state) disk := by
  cases hinf : state.inflight with
  | none =>
    rw [settle,hinf]
    exact wp_fail.mpr .rfl'
  | some operation =>
    have hnot : Confirms disk (noted disk) := ⟨rfl,rfl,rfl,rfl,rfl⟩
    have hlv := liveStage_afterSwap hpen
    have hpv := prevStage_afterSwap hpen
    refine (wp_settle_saved hinf Confirms.rfl'.withMarkers (fun _ _ markers => ?_) fun markers =>
      ⟨hnot.withMarkers markers,?_⟩).post fun _ _ haft => haft.1
    · exact (Confirms.rfl'.withMarkers markers).saved hrec rfl (liveStage_withState.trans hlv) hpv
    · exact (hnot.withMarkers markers).saved hrec rfl (liveStage_withState.trans hlv) hpv

/-- `resume` changes no tree. -/
theorem wp_resume_confirms {choice : SwapChoice} :
    Always (Confirms disk) (resume retain choice) disk := by
  refine wp_onIdle (fun _ => .rfl') fun _ hrec _ => ?_
  simp only [wp_bind,wp_check]
  refine ⟨fun hcom => ?_,fun _ => .rfl'⟩
  obtain ⟨-,-,-,hpen,-⟩ := isCompletedSwap_iff.mp hcom
  exact wp_settle_confirms hrec hpen

/-- `purge` changes no tree. -/
theorem wp_purge_confirms {choice : PurgeChoice} :
    Always (Confirms disk) (purge choice) disk := by
  refine (wp_purge_saved .rfl' fun state _ hrec _ _ _ => ?_).post fun _ _ haft => haft.1
  exact Confirms.rfl'.saved hrec rfl liveStage_withState rfl

/-- A program of a rollback that changes no tree. -/
def Confirming {α : Type} (program : Rollback α) : Prop :=
  ∀ root, Wp (fun after => Confirms root.disk after.disk) program
    (fun _ after => Confirms root.disk after.disk) (fun _ after => Confirms root.disk after.disk)
    root

/-- Confirmations one after the other. -/
theorem Confirming.bind {α β : Type} {program : Rollback α} {rest : α → Rollback β}
    (h : Confirming program) (hrt : ∀ a, Confirming (rest a)) : Confirming (program >>= rest) := by
  intro root
  refine (h root).seq fun a after haft => ?_
  exact (hrt a after).imp (fun _ hlat => haft.trans hlat)
    (fun _ _ hlat => haft.trans hlat) fun _ _ hlat => haft.trans hlat

/-- A result changes nothing. -/
theorem confirming_pure {α : Type} {a : α} : Confirming (pure a) := fun _ =>
  wp_pure.mpr .rfl'

/-- A read changes nothing. -/
theorem confirming_fetch : Confirming fetch := fun _ => wp_fetch.mpr .rfl'

/-- A check changes nothing. -/
theorem confirming_check {fact : Bool} {e : Exit} : Confirming (check fact e) := fun _ =>
  wp_check.mpr ⟨fun _ => .rfl',fun _ => .rfl'⟩

/-- Confirming the live release. -/
theorem confirming_resume {choice : SwapChoice} : Confirming (onDisk (resume retain choice)) :=
  fun _ => wp_onDisk.mpr wp_resume_confirms

theorem confirming_purgeStep {choice : PurgeStepChoice} :
    Confirming (purgeStep production choice) := by
  have hpur : ∀ purging, Confirming (onDisk (purge purging)) := fun _ _ =>
    wp_onDisk.mpr wp_purge_confirms
  unfold purgeStep
  split
  · exact hpur _
  split
  · exact hpur _
  · exact confirming_pure

/-- Retiring the record. -/
theorem confirming_clearOp : Confirming clearOp := fun _ =>
  wp_write.mpr ⟨⟨rfl,rfl,rfl,rfl,rfl⟩,⟨rfl,rfl,rfl,rfl,rfl⟩⟩

/-- The end of a committed rollback. -/
theorem confirming_finishCommitted {choice : FinishChoice} :
    Confirming (finishCommitted retain production choice op) := by
  have hcon : Confirming (confirmCommitted retain choice op) := by
    refine confirming_fetch.bind fun root => ?_
    split
    · exact confirming_resume
    · exact confirming_check
  have hpurge : Confirming (purgeCommitted production choice) := by
    refine confirming_fetch.bind fun root => ?_
    split
    · exact confirming_pure
    · exact confirming_purgeStep
  exact hcon.bind fun _ => hpurge.bind fun _ => confirming_clearOp

end Confirm

section Retry

variable {production retain : Bool} {kind : RollbackKind} {wanted : Option (String ⊕ StageId)}
  {root : Root} {op : RollbackOp} {state : Record}

/-- A committed legacy stage that the state file still names is found again. -/
theorem legacy_found {tag : String} (hsd : Sound (booksOf root.disk))
    (hrec : root.disk.record=some state) (hsou : state.source=some (.legacyTag tag))
    (hlv : liveStage (some state)=some state.stageId) (hidl : idle root.disk.record=true) :
    legacySwapped tag root.disk.record=true ∨
      (legacyAlready tag root.disk=true∧legacyActive tag root.disk.record=true) := by
  have hpla := hsd.placed state hrec
  have hjou := hsd.journaled state hrec tag hsou (.inr (.inr (.inl hlv)))
  have hrest : state.state≠.building∧state.state≠.activating := by
    rw [hrec] at hidl
    simpa [idle] using hidl
  have hres := hpla.rests hrest.2
  have hact : state.state=.active∨state.state=.purged∨state.state=.purgeFailed →
      legacyAlready tag root.disk=true∧legacyActive tag root.disk.record=true := fun hph =>
    ⟨legacyAlready_iff.mpr ⟨state,hrec,hsou,.inr hph,hjou⟩,
      legacyActive_iff.mpr ⟨state,hrec,hsou,hph⟩⟩
  have hswa : state.state∈unconfirmed→state.pending=none →
      (∃ operation, Arriving root.disk.serial state operation) →
      legacySwapped tag root.disk.record=true := by
    rintro hph hpen ⟨operation,harr⟩
    have hsta : operation.stageId=state.stageId := Option.some.inj
      (harr.live.symm.trans ((liveStage_afterSwap hpen).trans hlv))
    have hcom : isCompletedSwap (some state)=true := isCompletedSwap_iff.mpr
      ⟨operation,harr.inflight,hph,hpen,hlv.trans (congrArg some hsta.symm)⟩
    rcases harr.fits with ⟨hkd,-,-⟩|⟨-,-,happ⟩
    · exact legacySwapped_iff.mpr ⟨state,operation,hrec,hsou,hcom,harr.inflight,hkd,hsta⟩
    · exact absurd hsta happ
  cases hph : state.state with
  | building => exact absurd hph hrest.1
  | activating => exact absurd hph hrest.2
  | built | buildFailed | restoredPrevious =>
    rw [hph] at hres
    exact absurd hlv hres.2
  | active => exact .inr (hact (.inl hph))
  | purged => exact .inr (hact (.inr (.inl hph)))
  | purgeFailed => exact .inr (hact (.inr (.inr hph)))
  | activateFailed | smokeFailed =>
    rw [hph] at hres
    exact .inl (hswa (by simp [hph,unconfirmed]) hres.1 hres.2)

theorem claimOp_retried (hop : root.disk.rollbackOp=some op) (hkd : op.kind=kind)
    (hswa : opSwapped op root.disk.record=true) (hask : asksOther wanted op=false) :
    claimOp kind wanted root.disk=.ok (.resume op) := by
  rw [claimOp_some hop,if_pos hswa,if_pos hkd,hask]
  rfl

theorem claimOp_conflict (hop : root.disk.rollbackOp=some op)
    (hswa : opSwapped op root.disk.record=true)
    (hcon : kind=op.kind∧asksOther wanted op=true∨kind≠op.kind∧kind≠.previous) :
    claimOp kind wanted root.disk=.error .precond := by
  rw [claimOp_some hop,if_pos hswa]
  rcases hcon with ⟨hkd,hask⟩|⟨hkd,hpre⟩
  · rw [if_pos hkd.symm,if_pos hask]
  · rw [if_neg fun heq => hkd heq.symm,if_neg hpre]

/-- A retried committed legacy rollback builds and swaps nothing. -/
theorem wp_legacy_confirms {choice : LegacyChoice} (hsd : Sound (booksOf root.disk))
    (hop : root.disk.rollbackOp=some op) (hkd : op.kind=.legacy)
    (hswapped : opSwapped op root.disk.record=true)
    (hask : asksOther (some (.inl choice.tag)) op=false)
    (hnms : ∀ state∈root.disk.record, op.stageId=some state.stageId) :
    Wp (fun after => Confirms root.disk after.disk) (rollbackLegacy retain production choice)
      (fun _ after => Confirms root.disk after.disk) (fun _ after => Confirms root.disk after.disk)
      root := by
  obtain ⟨state,hrec,hlv,hso⟩ := exists_of_opSwapped hswapped
  have hsta := hnms state hrec
  obtain ⟨tag,htgt,hsou⟩ := hsd.named op hop hkd state hrec hsta
  refine wp_guard (fun _ => ?_) .rfl'
  refine wp_guard (fun htag => ?_) .rfl'
  refine wp_bind.mpr (wp_claim (fun claimed hcl => ?_) fun _ _ => .rfl')
  rw [claimOp_retried hop hkd hswapped hask] at hcl
  cases hcl
  refine wp_read (wp_guard (fun hrdy => ?_) .rfl')
  refine wp_guard (fun _ => ?_) .rfl'
  have hnm : choice.tag ≠ "" := of_decide_eq_true htag
  have htag' : tag=choice.tag := by
    rw [asksOther,Option.any_some,htgt] at hask
    simp only [ne_eq,Sum.inl.injEq,hnm,not_false_eq_true,true_and,
      decide_eq_false_iff_not,not_not] at hask
    exact hask.symm
  subst htag'
  have hidl : idle root.disk.record=true := by
    rw [Bool.or_eq_true] at hrdy
    refine hrdy.resolve_right fun hresu => ?_
    obtain ⟨other,hot,hbui,-⟩ := exists_of_resumeBuilding hresu
    have heq : other=state := Option.some.inj (hot.symm.trans hrec)
    have hres := (hsd.placed state hrec).rests (by
      rw [← heq,hbui]
      exact Phase.noConfusion)
    rw [← heq,hbui] at hres
    rw [heq] at hres
    exact hres.2 (hlv.symm.trans hsta)
  have hfd := legacy_found hsd hrec hsou (hlv.symm.trans hsta) hidl
  have hthe : (legacySwapped choice.tag root.disk.record ||
      legacyAlready choice.tag root.disk)=true := by
    rw [Bool.or_eq_true]
    exact hfd.imp_right fun hbo => hbo.1
  have hnot : ¬ op.stageId.isNone=true := by
    rw [Option.isNone_iff_eq_none]
    rintro hno
    rw [hno] at hso
    cases hso
  have htl : Confirming (purgeStep production choice.finishing.purging >>= fun _ => clearOp) :=
    confirming_purgeStep.bind fun _ => confirming_clearOp
  refine wp_bind.mpr (wp_pure.mpr (wp_bind.mpr ?_))
  unfold buildUnless
  rw [if_pos hthe]
  refine wp_pure.mpr (wp_bind.mpr ?_)
  unfold nameStage
  rw [if_neg hnot]
  refine wp_pure.mpr (wp_bind.mpr (wp_read ?_))
  by_cases hswa : legacySwapped choice.tag root.disk.record=true
  · rw [if_pos hswa]
    exact wp_bind.mp ((confirming_resume.bind fun _ => htl) root)
  · rw [if_neg hswa,if_pos (hfd.resolve_left hswa).2]
    exact wp_pure.mpr (htl root)

variable {command : RollbackCommand}

theorem wp_retried_confirms (hsd : Sound (booksOf root.disk))
    (hinv : invokes command=some (kind,wanted)) (hop : root.disk.rollbackOp=some op)
    (hkd : kind=op.kind) (hswa : opSwapped op root.disk.record=true)
    (hask : asksOther wanted op=false)
    (hnms : kind=.legacy→∀ state∈root.disk.record, op.stageId=some state.stageId) :
    Wp (fun after => Confirms root.disk after.disk) (command.program retain production)
      (fun _ after => Confirms root.disk after.disk) (fun _ after => Confirms root.disk after.disk)
      root := by
  cases command with
  | entry => cases hinv
  | previous =>
    cases hinv
    refine wp_guard (fun _ => ?_) .rfl'
    refine wp_bind.mpr (wp_claim (fun claimed hcl => ?_) fun _ _ => .rfl')
    rw [claimOp_retried hop hkd.symm hswa hask] at hcl
    cases hcl
    exact confirming_finishCommitted root
  | composed =>
    cases hinv
    refine wp_guard (fun _ => ?_) .rfl'
    refine wp_bind.mpr ?_
    refine wp_read ?_
    rw [hop]
    refine wp_pure.mpr (wp_bind.mpr (wp_claim (fun claimed hcl => ?_) fun _ _ => .rfl'))
    rw [claimOp_retried hop hkd.symm hswa hask] at hcl
    cases hcl
    exact confirming_finishCommitted root
  | legacy =>
    cases hinv
    exact wp_legacy_confirms hsd hop hkd.symm hswa hask (hnms rfl)

theorem wp_conflict
    (hinv : invokes command=some (kind,wanted)) (hop : root.disk.rollbackOp=some op)
    (hswa : opSwapped op root.disk.record=true)
    (hcon : kind=op.kind∧asksOther wanted op=true∨kind≠op.kind∧kind≠.previous) :
    Wp (fun _ => False) (command.program retain production) (fun _ _ => False)
      (fun _ after => after=root) root := by
  have href := claimOp_conflict hop hswa hcon
  have hcl : ∀ claimed, claimOp kind wanted root.disk≠.ok claimed := by
    intro claimed hcla
    rw [href] at hcla
    cases hcla
  cases command with
  | entry => cases hinv
  | previous =>
    cases hinv
    exact wp_bind.mpr (wp_check.mpr ⟨fun _ => wp_bind.mpr (wp_claim
      (fun claimed hcla => absurd hcla (hcl claimed)) fun _ _ => rfl),fun _ => rfl⟩)
  | composed =>
    cases hinv
    refine wp_bind.mpr (wp_check.mpr ⟨fun _ => wp_bind.mpr ?_,fun _ => rfl⟩)
    refine wp_read ?_
    rw [hop]
    exact wp_pure.mpr (wp_bind.mpr (wp_claim
      (fun claimed hcla => absurd hcla (hcl claimed)) fun _ _ => rfl))
  | legacy =>
    cases hinv
    refine wp_guard (fun _ => ?_) rfl
    exact wp_bind.mpr (wp_check.mpr ⟨fun _ => wp_bind.mpr (wp_claim
      (fun claimed hcla => absurd hcla (hcl claimed)) fun _ _ => rfl),fun _ => rfl⟩)

end Retry

/-- A rollback retried where its record stands keeps kind and target of the
record. Once the recorded stage is live it builds and swaps nothing, a legacy one
as long as the state file names that stage; another target, or a composed or
legacy rollback of another kind, is refused with nothing changed. A record is
retired only when the live release passed its smoke, is the one the record is
about and, in production, is purged; a legacy rollback that finds its stage
displaced by a restore is left out. -/
theorem retried_rollback_resumes (retain production : Bool) (marker : Option Content) (root : Root)
    (hreached : RollbackReached retain production marker root) :
    ∀ command kill left, left=(RollbackCommand.program retain production command).leaves root kill →
      (∀ kind wanted, invokes command=some (kind,wanted)→∀ op∈root.disk.rollbackOp,
        (Retries kind wanted op root.disk →
          ∀ other∈left.disk.rollbackOp, other.kind=op.kind∧other.target=op.target) ∧
        (opSwapped op root.disk.record=true→(kind=op.kind→asksOther wanted op=false →
            (kind=.legacy→∀ state∈root.disk.record, op.stageId=some state.stageId) →
            Confirms root.disk left.disk) ∧
          ((kind=op.kind∧asksOther wanted op=true∨kind≠op.kind∧kind≠.previous) →
            left=root∧∃ e, (command.program retain production root).result=.error e))) ∧
      ∀ entry∈left.retired, entry∈root.retired∨Finished production root.disk entry.1 entry.2 := by
  have hsd := sound_of_reached hreached
  rintro command kill left rfl
  have hfol : Follows production command root
      ((command.program retain production).leaves root kill) := follows_leaves hsd kill
  refine ⟨fun kind wanted hinv op hop => ⟨hfol.steady kind wanted hinv op hop,
    fun hswa => ⟨fun hkd hask hnms => ?_,fun hcon => ?_⟩⟩,hfol.retired⟩
  · exact (wp_retried_confirms hsd hinv hop hkd hswa hask hnms).leaves .rfl'
      (fun _ _ h => h) (fun _ _ h => h) kill
  have href : Wp (fun _ => False) (command.program retain production) (fun _ _ => False)
      (fun _ after => after=root) root := wp_conflict hinv hop hswa hcon
  refine ⟨(href.imp (J := (· = root)) (fun _ hfl => hfl.elim)
    (fun _ _ hfl => hfl) fun _ _ heq => heq).leaves rfl
    (fun _ _ hfl => hfl.elim) (fun _ _ heq => heq) kill,?_⟩
  cases hres : (command.program retain production root).result with
  | ok => exact (href.ok _ hres).elim
  | error e => exact ⟨e,rfl⟩

/-- First history entry. -/
def firstEntry : String := "20260101T000000Z-0123456789ab"

/-- Second history entry. -/
def secondEntry : String := "20260102T000000Z-0123456789ab"

/-- Third history entry. -/
def thirdEntry : String := "20260103T000000Z-0123456789ab"

/-- The end of a rollback that meets nothing in its way but its purge. -/
def finishing (outcome : PurgeOutcome) : FinishChoice :=
  ⟨⟨true,true,.passed, ""⟩,⟨true,outcome⟩,false⟩

/-- A composed rollback without a target. -/
def composedRollback (inputsFail : Option Exit) (outcome : PurgeOutcome) : RollbackCommand :=
  .composed ⟨true,none,true,inputsFail,smoothBuild "rebuilt",true,smoothActivate,
    finishing outcome⟩

def legacyRollback (outcome : PurgeOutcome) : RollbackCommand :=
  .legacy ⟨true, "v1",true,⟨0,true,true,none,[],true, ""⟩,smoothActivate,
    finishing outcome⟩

/-- A deployment of a history entry. -/
def deployment (entry : String) : RollbackCommand×Option ℕ :=
  (.entry (.deploy (smoothBuild entry) smoothActivate ⟨true,.purged⟩),none)

/-- Root some commands leave. -/
def rootAfter (commands : List (RollbackCommand×Option ℕ)) : Root :=
  (play (rollbackStep false true) [] (firstRoot none) commands).2

/-- Two deployments and a composed rollback whose purge failed. -/
def committedRun : List (RollbackCommand×Option ℕ) :=
  [deployment firstEntry,deployment secondEntry,(composedRollback none .failed,none)]

/-- The record it leaves. -/
def committedOp : RollbackOp := ⟨.composed,.inl firstEntry,some (.stage 1),some (.stage 2)⟩

/-- Retried, the rollback builds and swaps nothing and retires its record. -/
theorem retried_rollback_resumes_committed : Confirms (rootAfter committedRun).disk
      ((composedRollback none .purged).program false true (rootAfter committedRun)).final.disk ∧
    ((composedRollback none .purged).program false true
      (rootAfter committedRun)).final.disk.rollbackOp=none := by
  have hrea : RollbackReached false true none (rootAfter committedRun) :=
    ⟨_,.play Run.nil committedRun ⟨trivial,trivial,trivial,trivial⟩⟩
  have hop : (rootAfter committedRun).disk.rollbackOp=some committedOp := by decide +kernel
  have hswa : opSwapped committedOp (rootAfter committedRun).disk.record=true := by decide +kernel
  have hlf : ∀ root, ((composedRollback none .purged).program false true root).final =
      ((composedRollback none .purged).program false true).leaves root none := fun _ => rfl
  have hres := retried_rollback_resumes false true none (rootAfter committedRun) hrea
    (composedRollback none .purged) none _ (hlf _)
  have hinv : invokes (composedRollback none .purged)=some (.composed,none) := rfl
  have hcon := ((hres.1 .composed none hinv committedOp hop).2 hswa).1 rfl rfl nofun
  exact ⟨hcon,by decide +kernel⟩

/-- Two deployments, a composed rollback that failed, and a third deployment. -/
def staleRun : List (RollbackCommand×Option ℕ) :=
  [deployment firstEntry,deployment secondEntry,(composedRollback (some .fail) .purged,none),
    deployment thirdEntry]

/-- A deployment, a legacy rollback whose purge failed, and a new build. -/
def rebuiltRun : List (RollbackCommand×Option ℕ) :=
  [deployment firstEntry,(legacyRollback .failed,none),
    (.entry (.build (smoothBuild secondEntry)),none)]

/-- The legacy record it leaves. -/
def rebuiltOp : RollbackOp := ⟨.legacy,.inl "v1",some (.stage 0),some (.stage 1)⟩

/-- A record made against another live tree is replaced by one for another
target; and a committed legacy rollback that a build followed swaps again. -/
theorem retried_rollback_replaced :
    (RollbackReached false true none (rootAfter staleRun)∧(rootAfter staleRun).disk.rollbackOp =
        some ⟨.composed,.inl firstEntry,some (.stage 1),none⟩ ∧
      ((composedRollback (some .fail) .purged).program false true
        (rootAfter staleRun)).final.disk.rollbackOp =
          some ⟨.composed,.inl secondEntry,some (.stage 2),none⟩) ∧
    RollbackReached false true none (rootAfter rebuiltRun) ∧
      (rootAfter rebuiltRun).disk.rollbackOp=some rebuiltOp ∧
      opSwapped rebuiltOp (rootAfter rebuiltRun).disk.record=true ∧
      (rootAfter rebuiltRun).disk.trees.prev=some (.release (.stage 0)) ∧
      ((legacyRollback .purged).program false true (rootAfter rebuiltRun)).final.disk.trees =
        ⟨some (.release (.stage 3)),none,some (.release (.stage 1)),none,none⟩ := by
  have hsta : RollbackReached false true none (rootAfter staleRun) :=
    ⟨_,.play Run.nil staleRun ⟨trivial,trivial,trivial,trivial,trivial⟩⟩
  have hreb : RollbackReached false true none (rootAfter rebuiltRun) :=
    ⟨_,.play Run.nil rebuiltRun ⟨trivial,trivial,trivial,trivial⟩⟩
  exact ⟨⟨hsta,by decide +kernel,by decide +kernel⟩,hreb,by decide +kernel,
    by decide +kernel,by decide +kernel,by decide +kernel⟩

end SellRight.DeployRollbackSafety
