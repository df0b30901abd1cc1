import SellRight.DeployMarkerPromises

/-!
# The retention marker follows the live release

A swap, its reversal and its recovery keep the promise of the state file, so
every command keeps it at each of its durable writes, and every reached root has
it.
-/

namespace SellRight.DeployMarkerSafety

open CrashSteps CrashSteps.Program DeployRecord DeployMarker DeployMarkerSpecs DeployEntry
open DeploySwaps DeploySafety RunHistory

variable {after : Disk} {next : Record} {markers : Markers}

section Swap

variable {retain : Bool} {kind : SwapKind} {state : Record} {disk : Disk} {torn : Content}

/-- The renames of a record leave the marker files and everything else it says. -/
structure SwapFrame (state : Record) (disk after : Disk) : Prop where
  record : ∃ ops, after.record=some (state.withSwap ops)
  markers : after.markers=disk.markers
  serial : after.serial=disk.serial
  rollbackOp : after.rollbackOp=disk.rollbackOp
  legacyJournal : after.legacyJournal=disk.legacyJournal

theorem SwapFrame.save (h : SwapFrame state disk after) (ops : List RenameOp) :
    SwapFrame state disk (setRecord (state.withSwap ops) after) :=
  ⟨⟨ops,rfl⟩,h.markers,h.serial,h.rollbackOp,h.legacyJournal⟩

/-- A rename. -/
theorem SwapFrame.withTrees (h : SwapFrame state disk after) (trees : Trees) :
    SwapFrame state disk (setTrees trees after) :=
  ⟨h.record,h.markers,h.serial,h.rollbackOp,h.legacyJournal⟩

/-- What is left with the record in hand. -/
def Framed (state : Record) (disk : Disk) (next : Record) (after : Disk) : Prop :=
  SwapFrame state disk after∧after.record=some next∧∃ ops, next=state.withSwap ops

theorem wp_runRenames_frame {ops : List RenameOp} {finished : List RenameOp}
    {start : Disk} (h : Framed state disk next start) :
    Wp (SwapFrame state disk) (runRenames next finished ops) (Framed state disk)
      (fun _ => SwapFrame state disk) start := by
  induction ops generalizing finished next start with
  | nil => exact wp_pure.mpr h
  | cons op _ ih =>
    obtain ⟨hfra,-,ops,rfl⟩ := h
    have hsav : ∀ (after : Disk) (swap : List RenameOp), SwapFrame state disk after →
        Framed state disk ((state.withSwap ops).withSwap swap)
          (setRecord ((state.withSwap ops).withSwap swap) after) := fun after swap haft =>
      ⟨haft.save swap,rfl,swap,rfl⟩
    refine wp_read ?_
    split
    · exact wp_bind.mpr (wp_save.mpr ⟨hfra.save _,ih (hsav start _ hfra)⟩)
    simp only [renamePath,wp_bind,wp_check,wp_save,wp_write]
    exact ⟨fun _ => ⟨fun _ => ⟨hfra.save _,(hfra.save _).withTrees _,
      ((hfra.save _).withTrees _).save _,ih (hsav _ _ ((hfra.save _).withTrees _))⟩,
      fun _ => hfra⟩,fun _ => hfra⟩

/-- So does a whole swap. -/
theorem wp_runOps_frame (ops : List RenameOp) (hrec : disk.record=some state) :
    Wp (SwapFrame state disk) (runOps state ops) (Framed state disk)
      (fun _ => SwapFrame state disk) disk := by
  have hsta : SwapFrame state disk disk := ⟨⟨state.swap,hrec⟩,rfl,rfl,rfl,rfl⟩
  unfold runOps
  simp only [wp_bind,wp_fetch,wp_check,wp_save,wp_pure]
  refine ⟨fun _ => ⟨hsta.save ops,?_⟩,fun _ => hsta⟩
  refine (wp_runRenames_frame ⟨hsta.save ops,rfl,ops,rfl⟩).post fun next after haft => ?_
  obtain ⟨hfra,hnx,hops⟩ := haft
  exact wp_removeTree (fun _ => ⟨hfra,hnx,hops⟩) (hfra.withTrees _)
    ⟨hfra.withTrees _,hfra.withTrees _,hnx,hops⟩

/-- Within the frame both ways out keep their markers. -/
theorem BothMarks.safe (h : BothMarks retain state disk)
    (hact : state.state=.activating) (haft : SwapFrame state disk after) :
    MarkSafe retain after := by
  obtain ⟨⟨ops,hrec⟩,hmar,hser⟩ := haft
  refine ⟨fun hidl => ?_,?_,?_⟩
  · exact absurd hact (hidl (state.withSwap ops) hrec)
  · rw [hrec,hmar,hser]
    rintro other ⟨⟩ _ _
    exact h.undone
  · rw [hrec,hmar,hser]
    rintro other ⟨⟩ _ _
    exact h.completed

/-- The recorded plan counts as complete once every rename is in effect. -/
theorem completes_of_landed {left : Disk} (h : Landed kind state disk next left) :
    completes next left.trees=true := by
  obtain ⟨hin,⟨hpl,-⟩,hlf⟩ := h
  obtain ⟨first,second,third,hops⟩ := hpl.eq_withProgress
  have hne : next.swap≠[] := by
    rw [hops]
    cases kind <;> exact List.cons_ne_nil _ _
  have hcom := (swapComplete_iff first second third hin.swapping.ready
    hin.swapping.along).mpr ⟨none,by rw [hlf]; cases kind <;> rfl⟩
  unfold completes
  rw [hops] at hne ⊢
  rw [hcom,Bool.and_true]
  exact decide_eq_true hne

/-- After its renames an operation is about to settle. -/
theorem BothMarks.settling {left : Disk} (h : BothMarks retain state disk)
    (hlan : Landed kind state disk next left) (hfra : Framed state disk next left) :
    Settling retain next left := by
  have hcom := completes_of_landed hlan
  obtain ⟨⟨-,hmar,hser⟩,hrec,ops,rfl⟩ := hfra
  refine ⟨?_,fun markers hmarks => ⟨fun hidl => ?_,?_,?_⟩,hlan.1.finals⟩
  · rw [hmar,hser]
    exact h.completed
  · exact absurd hlan.1.activating (hidl _ hrec)
  · intro other hot _ hinc
    have heq : state.withSwap ops=other := Option.some.inj (hrec.symm.trans hot)
    have hfl : completes (state.withSwap ops) left.trees=false := by
      rw [heq]
      exact hinc
    rw [hcom] at hfl
    cases hfl
  · intro other hot _ _
    have heq : state.withSwap ops=other := Option.some.inj (hrec.symm.trans hot)
    rw [← heq]
    exact hmarks

theorem BothMarks.wp_swap {launch : Launch} {ops : List RenameOp}
    (h : BothMarks retain state disk) (hhan : InHand kind state disk)
    (hops : ops=kindOps kind) (hsta : disk.trees=disk.base) :
    Always (MarkSafe retain) (runOps state ops >>= settle retain torn launch) disk := by
  subst hops
  have hbo := (hhan.wp_runOps hsta).and (wp_runOps_frame (kindOps kind) hhan.record)
  refine wp_bind.mpr (hbo.imp (fun _ hmom => h.safe hhan.activating hmom.2)
    (fun _ _ hlf => ?_) fun _ _ her => h.safe hhan.activating her.2)
  exact (h.settling hlf.1 hlf.2).wp_settle

variable {choice : ActivateChoice}

theorem BuiltMarks.wp_activateState (h : BuiltMarks retain state disk)
    (hsta : Standing state disk) :
    Always (MarkSafe retain) (activateState retain choice state) disk := by
  refine wp_guard (fun hbui => ?_) h.safe
  refine wp_guard (fun hcon => ?_) h.safe
  refine wp_read (wp_guard (fun _ => ?_) h.safe)
  refine wp_guard (fun _ => ?_) h.safe
  refine wp_bind.mpr (((markKeeps_retention state disk h).and
    (keeps_retention state disk hsta)).imp (fun _ hsf => hsf.1)
    (fun _ retained hret => ?_) fun _ _ hsf => hsf.1)
  refine wp_bind.mpr ((hret.1.wp_smokeCandidate.and hret.2.wp_smokeCandidate).imp
    (fun _ hsf => hsf.1) (fun _ smoked hsmo => ?_) fun _ _ hsf => hsf.1)
  refine wp_guard (fun _ => ?_) hsmo.1.safe
  refine wp_bind.mpr ((hsmo.1.wp_kept.and (keeps_onLiveMarkers state smoked hsmo.2)).imp
    (fun _ hsf => hsf.1) (fun _ kept hkp => ?_) fun _ _ hsf => hsf.1)
  have hhan := hkp.2.inHand_activating (of_decide_eq_true hbui) (by simpa using hcon)
  have hbo : BothMarks retain state.activating
      {kept with record := some state.activating,base := kept.trees} :=
    ⟨(hkp.1.1.bothMarks hkp.1.2).undone,(hkp.1.1.bothMarks hkp.1.2).completed⟩
  have hsf := hbo.safe rfl ⟨⟨_,hhan.record⟩,rfl,rfl,rfl,rfl⟩
  exact wp_bind.mpr (wp_saveIntent.mpr ⟨hsf,hbo.wp_swap hhan rfl rfl⟩)

/-- The settled promise of an idle root. -/
theorem MarkSafe.marks_of_idle (h : MarkSafe retain disk) (hrec : disk.record=some state)
    (hidl : idle disk.record=true) : Marks retain (some state) disk.serial disk.markers := by
  have hmar := h.settled fun other hot hact => by
    have hso : disk.record=some other := hot
    rw [hso] at hidl
    simp [idle,hact] at hidl
  rw [hrec] at hmar
  exact hmar

theorem wp_activate_marks (h : MarkSafe retain disk) (hsf : Safe disk) :
    Always (MarkSafe retain) (activate retain choice) disk := by
  unfold activate
  refine wp_onIdle (fun _ => h) fun state hrec hidl => ?_
  by_cases hbui : state.state=.built
  · have hmar := h.marks_of_idle hrec hidl
    obtain ⟨hmet,hfre⟩ := hmar.phase_eq hbui
    exact BuiltMarks.wp_activateState ⟨hrec,hbui,hmar.core,hmet,hfre⟩
      (standing_of_idle hsf hrec hidl)
  · refine wp_guard (fun hfac => ?_) h
    exact absurd (of_decide_eq_true hfac) hbui

theorem Marks.bothMarks {prev : Release} (h : Marks retain (some state) disk.serial disk.markers)
    (hidl : idle (some state)=true) (hpre : state.prev=some prev) :
    BothMarks retain (state.restoring prev) disk := by
  have hid : prevId (some state)=some prev.stageId := by
    unfold prevId
    rw [Option.bind_some,hpre]
    rfl
  have hlt : ∀ operation, Unconfirmed retain state disk.markers operation →
      operation.kind=.activate := by
    intro operation hope
    cases hkd : operation.kind with
    | activate => rfl
    | restore =>
      have hno := hope.last hkd
      rw [hpre] at hno
      cases hno
  have hres : isCompletedSwap (some state)=true →
      isCompletedSwap (some (state.restoring prev).undone)=true := by
    intro hbef
    unfold isCompletedSwap at hbef ⊢
    dsimp only [Record.undone,Record.restoring,Option.getD_some] at hbef ⊢
    cases hinf : state.inflight with
    | none =>
      rw [hinf] at hbef
      cases hbef
    | some =>
      rw [hinf] at hbef
      simp only [Bool.and_eq_true] at hbef ⊢
      exact ⟨⟨hbef.1.1,rfl⟩,hbef.2⟩
  have hunc : ∀ operation, Unconfirmed retain state disk.markers operation →
      Unconfirmed retain (state.restoring prev).undone disk.markers operation :=
    fun operation hope => hope.transfer rfl rfl rfl (hres hope.resumable)
  have hund : Marks retain (some (state.restoring prev).undone) disk.serial disk.markers ∧
      Restorable (liveId (some state)) disk.markers := by
    have hact : (∃ operation, Unconfirmed retain state disk.markers operation) →
        Restorable (liveId (some state)) disk.markers := by
      rintro ⟨operation,hope⟩ content hcon
      rw [← hope.stage] at hcon
      exact absurd hcon (hope.activated (hlt operation hope) content)
    cases hst : state.state with
    | building | activating => simp [idle,hst] at hidl
    | built =>
      obtain ⟨hmet,hfre⟩ := h.phase_eq hst
      exact ⟨marks_of_phase hst h.core ⟨hmet,hfre⟩,
        fun _ hcon => .inl (hmet (h.core.retain_of_snapped hcon))⟩
    | activateFailed | smokeFailed =>
      obtain ⟨operation,hope⟩ := h.phase_eq hst
      exact ⟨marks_of_phase hst h.core ⟨operation,hunc operation hope⟩,hact ⟨operation,hope⟩⟩
    | _ => exact ⟨marks_of_phase hst h.core (h.phase_eq hst),Untouched.restorable (h.phase_eq hst)⟩
  refine ⟨hund.1.reversible hund.2,marks_of_phase rfl ⟨h.core.snaps,
    h.core.prevKnown _ hid,?_,fun _ h => (by cases h),
    fun _ _ h => (by cases h)⟩ ⟨_,rfl,rfl,?_,fun h => (by cases h),fun _ => rfl,
    fun _ hret => ?_⟩⟩
  · exact fun h => by cases h
  · unfold isCompletedSwap
    simp [Record.completed,Record.restoring,afterSwap,withState,unconfirmed]
  · obtain ⟨content,hsna,hkp⟩ := h.core.prevKept hret _ hid
    exact ⟨content,hsna,.inl hkp⟩

theorem wp_restorePrevious_marks {choice : SwapChoice} (h : MarkSafe retain disk)
    (hsf : Safe disk) :
    Always (MarkSafe retain) (restorePrevious retain choice) disk := by
  unfold restorePrevious
  refine wp_onIdle (fun _ => h) fun state hrec hidl => ?_
  cases hpv : state.prev with
  | none => exact wp_fail.mpr h
  | some prev =>
    have hhan := (standing_of_idle hsf hrec hidl).inHand_restoring hpv
    have hmar := h.marks_of_idle hrec hidl
    rw [hrec] at hidl
    have hway := hmar.bothMarks hidl hpv
    have hbo : BothMarks retain (state.restoring prev)
        {disk with record := some (state.restoring prev),base := disk.trees} :=
      ⟨hway.undone,hway.completed⟩
    have hint := hbo.safe rfl ⟨⟨_,hhan.record⟩,rfl,rfl,rfl,rfl⟩
    dsimp only
    refine wp_read (wp_guard (fun _ => ?_) h)
    refine wp_guard (fun _ => ?_) h
    exact wp_bind.mpr (wp_saveIntent.mpr ⟨hint,hbo.wp_swap hhan rfl rfl⟩)

/-- A completed swap names what its completed record names. -/
structure SameReleases (state next : Record) : Prop where
  inflight : next.inflight=state.inflight
  live : liveId (some next)=liveId (some state)
  prev : next.prev=state.prev
  resumable : isCompletedSwap (some next)=true

theorem sameReleases_completed (hres : isCompletedSwap (some state)=true) :
    state.state∈unconfirmed ∧
      SameReleases state (state.completed .activateFailed) := by
  have hbef := hres
  unfold isCompletedSwap at hbef
  dsimp only at hbef
  cases hinf : state.inflight with
  | none =>
    rw [hinf] at hbef
    cases hbef
  | some inflight =>
    rw [hinf] at hbef
    simp only [Bool.and_eq_true,Option.isNone_iff_eq_none] at hbef
    obtain ⟨⟨hunc,hpen⟩,hlv⟩ := hbef
    have heq : (afterSwap state).live=state.live∧(afterSwap state).prev=state.prev := by
      unfold afterSwap
      rw [hpen]
      exact ⟨rfl,rfl⟩
    refine ⟨List.contains_iff_mem.mp hunc,rfl,?_,heq.2,?_⟩
    · unfold liveId Record.completed
      rw [Option.bind_some,Option.bind_some,liveId_withState,heq.1]
    unfold isCompletedSwap Record.completed
    dsimp only
    have hrec : (afterSwap state).inflight=some inflight := hinf
    rw [hrec]
    dsimp only
    rw [liveId_withState,heq.1,hlv]
    rfl

theorem Marks.sameReleases {serial : ℕ}
    (h : Marks retain (some state) serial markers) (hst : state.state∈unconfirmed)
    (hnx : next.state∈unconfirmed) (heq : SameReleases state next) :
    Marks retain (some next) serial markers := by
  have hpv : prevId (some next)=prevId (some state) := by
    unfold prevId
    rw [Option.bind_some,Option.bind_some,heq.prev]
  have hcor : Core retain (liveId (some next)) (prevId (some next)) serial markers := by
    rw [heq.live,hpv]
    exact h.core
  have hope : ∃ operation, Unconfirmed retain next markers operation := by
    have hbef : ∃ operation, Unconfirmed retain state markers operation := by
      cases hph : state.state with
      | activateFailed | smokeFailed => exact h.phase_eq hph
      | _ => simp [hph,unconfirmed] at hst
    obtain ⟨operation,hope⟩ := hbef
    exact ⟨operation,hope.transfer heq.inflight heq.live heq.prev heq.resumable⟩
  cases hph : next.state with
  | activateFailed | smokeFailed => exact marks_of_phase hph hcor hope
  | _ => simp [hph,unconfirmed] at hnx

theorem Marks.settling (h : Marks retain (some state) disk.serial disk.markers)
    (hrec : disk.record=some state) (hres : isCompletedSwap (some state)=true)
    (hfin : FinalStates state) : Settling retain state disk := by
  obtain ⟨hunc,heq⟩ := sameReleases_completed hres
  have hfai : (state.completed .activateFailed).state∈unconfirmed := by
    simp [Record.completed,unconfirmed]
  refine ⟨h.sameReleases hunc hfai heq,fun markers hmar => ?_,hfin⟩
  have hbk : SameReleases (state.completed .activateFailed) state :=
    ⟨rfl,heq.live.symm,heq.prev.symm,hres⟩
  refine markSafe_of_state hrec ?_ (hmar.sameReleases hfai hunc hbk)
  intro hact
  rw [hact] at hunc
  simp [unconfirmed] at hunc

theorem wp_resume_marks {choice : SwapChoice} (h : MarkSafe retain disk) (hsf : Safe disk) :
    Always (MarkSafe retain) (resume retain choice) disk := by
  refine wp_onIdle (fun _ => h) fun state hrec hidl => ?_
  simp only [wp_bind,wp_check]
  refine ⟨fun hres => ?_,fun _ => h⟩
  exact ((h.marks_of_idle hrec hidl).settling hrec hres (hsf.finals state hrec)).wp_settle

theorem wp_purge_marks {choice : PurgeChoice} (h : MarkSafe retain disk) :
    Always (MarkSafe retain) (purge choice) disk := by
  refine (wp_purge_saved h fun state next hrec hidl hpur hnx => ?_).post fun _ _ haft => haft.1
  have hmar := h.marks_of_idle hrec hidl
  have hunt : Untouched (liveId (some state)) disk.markers := by
    cases hst : state.state <;> rw [hst] at hpur <;>
      simp [purgeable] at hpur <;> exact hmar.phase_eq hst
  have hid : liveId (some {state with state := next,live := withState next state.live}) =
      liveId (some state) :=
    congrArg (fun id => Option.getD id StageId.legacy) (liveId_withState next state.live)
  refine markSafe_of_state rfl ?_ (marks_of_purgeable ?_ ?_ ?_)
  · rintro ⟨⟩
    simp at hnx
  · rcases hnx with rfl|rfl <;> simp [purgeable]
  · rw [hid]
    exact hmar.core
  · rw [hid]
    exact hunt

theorem wp_deploy_marks {building : BuildChoice} {activating : ActivateChoice}
    {purging : PurgeChoice} (h : MarkSafe retain disk) (hsf : Safe disk) :
    Always (MarkSafe retain) (deploy retain building activating purging) disk := by
  refine wp_bind.mpr (((wp_build_marks h).and (wp_build hsf)).imp (fun _ hbo => hbo.1)
    (fun _ built hbui => ?_) fun _ _ hbo => hbo.1.1)
  exact (wp_activate_marks hbui.1 hbui.2).seq fun _ active hact => wp_purge_marks hact

end Swap

section Recover

variable {retain : Bool} {kind : SwapKind} {state : Record} {disk : Disk} {torn : Content}

/-- What a recovery leaves of the markers. -/
def RecoveredMarks (action : RecoverAction) (left : Disk) : Prop :=
  action=.buildFailed∨action=.swapUndone → FollowsLive left∧KeepsPrev left

theorem Core.keepsPrev {live : StageId}
    (h : Core retain live (prevId disk.record) disk.serial disk.markers) : KeepsPrev disk := by
  intro id hid content hcon
  obtain ⟨found,hsna,hkp⟩ := h.prevKept (h.retain_of_snapped hcon) id hid
  rw [h.snaps.agree id content found hcon hsna]
  exact hkp

/-- Deleting the tree moved aside does not change whether a swap is complete. -/
theorem completes_put_removed {tree : Option Tree} {trees : Trees}
    (hpl : SameOps state.swap (kindOps kind)) :
    completes state (trees.put tree .removed)=completes state trees := by
  obtain ⟨first,second,third,hops⟩ := hpl.eq_withProgress
  unfold completes
  rw [hops]
  cases kind <;> rfl

theorem completes_of_reversed {trees : Trees} (hhan : InHand kind state disk)
    (htre : trees=disk.base∨trees=asideTrees kind disk.base) : completes state trees=false := by
  rcases hhan.swapping.plan with ⟨hno,-⟩|hpl
  · unfold completes
    rw [hno]
    rfl
  obtain ⟨first,second,third,hops⟩ := hpl.eq_withProgress
  have hrdy := hhan.swapping.ready
  have halo : Along kind disk.base trees := by
    rcases htre with rfl|rfl
    · exact .start
    · exact .aside
  have hiff := swapComplete_iff first second third hrdy halo
  have hinco : swapComplete trees (withProgress kind first second third)=false := by
    rw [Bool.eq_false_iff]
    intro hcom
    obtain ⟨removed,hswa⟩ := hiff.mp hcom
    obtain ⟨-,hlv,hinc⟩ := hrdy
    generalize disk.base=base at htre hlv hinc hswa
    obtain ⟨live,next,prev,failed,gone⟩ := base
    cases kind with
    | activate =>
      obtain ⟨stage,hsta⟩ := Option.isSome_iff_exists.mp hinc
      change next=some stage at hsta
      rcases htre with rfl|rfl <;> simp [swappedTrees,asideTrees,hsta] at hswa
    | restore =>
      obtain ⟨earlier,hear⟩ := Option.isSome_iff_exists.mp hinc
      change prev=some earlier at hear
      rcases htre with rfl|rfl <;> simp [swappedTrees,asideTrees,hear] at hswa
  unfold completes
  rw [hops,hinco,Bool.and_false]

theorem MarkSafe.wp_recoverSwap {E : Exit → Disk → Prop} (h : MarkSafe retain disk)
    (hhan : InHand kind state disk) :
    Wp (MarkSafe retain) (recoverSwap state.swap) (fun complete left =>
      complete=completes state disk.trees∧∃ trees, left=setTrees trees disk ∧
        completes state trees=complete) E disk := by
  have hrec : ∀ other∈disk.record, other=state := fun other hot =>
    Option.some.inj (hot.symm.trans hhan.record)
  have htre : ∀ trees, completes state trees=completes state disk.trees →
      MarkSafe retain (setTrees trees disk) := by
    intro trees heq
    refine ⟨h.settled,fun other hot hact hinc => ?_,fun other hot hact hcom => ?_⟩
    · have hst := hrec other hot
      subst hst
      exact h.undone _ hot hact (heq.symm.trans hinc)
    · have hst := hrec other hot
      subst hst
      exact h.completed _ hot hact (heq.symm.trans hcom)
  refine wp_read ?_
  by_cases hno : state.swap=[]
  · have hinc : completes state disk.trees=false := by
      unfold completes
      rw [hno]
      rfl
    rw [if_pos hno]
    exact wp_pure.mpr ⟨hinc.symm,disk.trees,rfl,hinc⟩
  · have hpl := hhan.swapping.plan.resolve_left fun hem => hno hem.1
    have hcomp : completes state disk.trees=swapComplete disk.trees state.swap := by
      unfold completes
      rw [decide_eq_true hno,Bool.true_and]
    split_ifs with hcom
    · have hput : ∀ tree, completes state (disk.trees.put tree .removed) =
          completes state disk.trees := fun _ => completes_put_removed hpl
      have hdn := hcomp.trans hcom
      refine wp_bind.mpr (wp_removeTree
        (fun _ => wp_pure.mpr ⟨hdn.symm,disk.trees,rfl,hdn⟩) (htre _ (hput _))
        ⟨htre _ (hput _),wp_pure.mpr ⟨hdn.symm,_,rfl,(hput none).trans hdn⟩⟩)
    · have hinc : completes state disk.trees=false :=
        hcomp.trans (Bool.eq_false_iff.mpr hcom)
      have hbas := completes_of_reversed hhan (.inl rfl)
      have hasi := completes_of_reversed hhan (.inr rfl)
      obtain ⟨first,second,third,hops⟩ := hpl.eq_withProgress
      have hiff := swapComplete_iff first second third hhan.swapping.ready hhan.swapping.along
      rw [hops] at hcom ⊢
      refine (wp_reverseRenames (E := E) hhan
        (htre _ (hbas.trans hinc.symm)) (htre _ (hasi.trans hinc.symm))
        fun hex => hcom (hiff.mpr hex)).seq fun _ left hlf => wp_pure.mpr ⟨hinc.symm,disk.base,hlf,hbas⟩

/-- Pruning an untouched root keeps what its record promises. -/
theorem Marks.pruned_untouched {serial : ℕ} {after : Markers}
    (h : Marks retain (some state) serial markers) (hunt : Untouched (liveId (some state)) markers)
    (haft : Pruned (prevId (some state)) markers after) :
    Marks retain (some state) serial after∧Untouched (liveId (some state)) after := by
  have heq : Untouched (liveId (some state)) after := by
    obtain ⟨⟨files,rfl⟩,-,-⟩ := haft
    exact hunt
  have hunc : (∃ operation, Unconfirmed retain state markers operation) →
      ∃ operation, Unconfirmed retain state after operation := by
    rintro ⟨operation,hope⟩
    have hbk : MarkerBack retain operation markers := by
      intro hkd hret
      obtain ⟨content,hcon,hres⟩ := hope.restored hkd hret
      refine ⟨content,hcon,hres,hunt content ?_⟩
      rw [← hope.stage]
      exact hcon
    exact ⟨operation,(hope.pruned hbk haft).1⟩
  have hcor := h.core.pruned haft
  obtain ⟨⟨files,rfl⟩,-,-⟩ := haft
  refine ⟨?_,heq⟩
  cases hst : state.state with
  | building =>
    obtain ⟨-,hfre⟩ := h.phase_eq hst
    exact marks_of_phase hst hcor ⟨heq.restorable,hfre.of_eq rfl⟩
  | built =>
    obtain ⟨hmet,hfre⟩ := h.phase_eq hst
    exact marks_of_phase hst hcor ⟨hmet,hfre.of_eq rfl⟩
  | activateFailed | smokeFailed => exact marks_of_phase hst hcor (hunc (h.phase_eq hst))
  | activating => exact marks_of_phase hst hcor trivial
  | _ => exact marks_of_phase hst hcor heq

/-- An incomplete swap under marker files it can go back to. -/
theorem markSafe_of_reversible (disk : Disk)
    (hrec : disk.record=some state) (hact : state.state=.activating)
    (hinc : completes state disk.trees=false)
    (h : Reversible retain state.undone disk.serial markers) :
    MarkSafe retain (setMarkers markers disk) := by
  have heq : ∀ other∈disk.record, other=state := fun other hot =>
    Option.some.inj (hot.symm.trans hrec)
  refine ⟨fun hidl => absurd hact (hidl state hrec),fun other hot _ _ => ?_,
    fun other hot _ hcom => ?_⟩
  · have hst := heq other hot
    subst hst
    exact h
  · have hst := heq other hot
    subst hst
    have hdn : completes other disk.trees=true := hcom
    rw [hinc] at hdn
    cases hdn

theorem MarkSafe.wp_recoverRecord (h : MarkSafe retain disk) (hhan : InHand kind state disk) :
    Wp (MarkSafe retain) (recoverRecord retain torn state)
      (fun action left => MarkSafe retain left∧RecoveredMarks action left)
      (fun _ => MarkSafe retain) disk := by
  have hrec := hhan.record
  have hidl : state.undone.state≠.activating := hhan.swapping.idle
  refine wp_bind.mpr ((h.wp_recoverSwap (E := fun _ _ => False) hhan).imp
    (fun _ hsf => hsf) (fun complete left hlf => ?_) fun _ _ hfl => hfl.elim)
  obtain ⟨hcom,trees,rfl,htre⟩ := hlf
  cases complete with
  | true =>
    have hmar := h.completed state hrec hhan.activating hcom.symm
    have hsav : MarkSafe retain
        (setRecord (state.completed .activateFailed) (setTrees trees disk)) :=
      markSafe_of_state rfl Phase.noConfusion hmar
    simp only [if_true,wp_bind,wp_save,wp_pure]
    refine ⟨hsav,hsav,?_⟩
    rintro (hfai|hund)
    · cases hfai
    · cases hund
  | false =>
    have hway := h.undone state hrec hhan.activating hcom.symm
    have hlv : liveId (setTrees trees disk).record=liveId (some state.undone) := by
      change liveId disk.record=_
      rw [hrec]
      rfl
    simp only [Bool.false_eq_true,if_false,wp_bind,wp_onLiveMarkers,wp_onMarkers,wp_save,wp_pure]
    rw [hlv]
    refine (wp_restoreMarker (E := fun _ _ => False) hway.core.snaps).imp (fun after haft =>
      markSafe_of_reversible _ hrec hhan.activating htre (hway.remark haft))
      (fun _ after haft => ?_) fun _ _ hfl => hfl.elim
    have hbk := hway.remark haft.1
    have hunt : Untouched (liveId (some state.undone)) after := by
      intro content hcon
      obtain ⟨⟨other,rfl,-⟩,hput⟩ := haft
      exact hput content hcon (hway.restorable content hcon)
    have hmar := hbk.marks hunt
    have hprune : ∀ markers, Pruned (prevId (some state.undone)) after markers →
        Marks retain (some state.undone) disk.serial markers ∧
          Untouched (liveId (some state.undone)) markers := fun markers hpru =>
      hmar.pruned_untouched hunt hpru
    refine (wp_pruneMarkers (E := fun _ _ => False)).imp (fun markers hpru => ?_)
      (fun _ markers hpru => ?_) fun _ _ hfl => hfl.elim
    · obtain ⟨hpro,haga⟩ := hprune markers hpru
      exact markSafe_of_reversible (setMarkers after (setTrees trees disk)) hrec
        hhan.activating htre (hpro.reversible haga.restorable)
    · obtain ⟨hpro,haga⟩ := hprune markers hpru
      have hsav : MarkSafe retain (setRecord state.undone
          (setMarkers markers (setMarkers after (setTrees trees disk)))) :=
        markSafe_of_state rfl hidl hpro
      exact ⟨hsav,hsav,fun _ => ⟨haga,hpro.core.keepsPrev⟩⟩

/-- `recover` keeps the markers safe and puts the live release's back. -/
theorem wp_recover_marks (h : MarkSafe retain disk) (hsf : Safe disk) :
    Wp (MarkSafe retain) (recover retain torn)
      (fun action left => MarkSafe retain left∧RecoveredMarks action left)
      (fun _ => MarkSafe retain) disk := by
  have hnot : MarkSafe retain disk∧RecoveredMarks .nothing disk :=
    ⟨h,fun hor => by rcases hor with hor|hor <;> cases hor⟩
  refine wp_read ?_
  cases hrec : disk.record with
  | none => exact wp_pure.mpr hnot
  | some state =>
    dsimp only
    by_cases hbui : state.state=.building
    · have hmar := h.settled fun other hot => by
        have heq : other=state := Option.some.inj (hot.symm.trans hrec)
        rw [heq,hbui]
        exact Phase.noConfusion
      rw [hrec] at hmar
      obtain ⟨hres,hfre⟩ := hmar.phase_eq hbui
      have hbuild : BuildMarks retain state disk :=
        ⟨hrec,hbui,hmar.core,hres,hfre⟩
      rw [if_pos hbui]
      refine wp_bind.mpr (hbuild.wp_restored fun markers haft hunt => ?_)
      have hsav := haft.failed hunt
      have hkee : KeepsPrev (setRecord {state with state := .buildFailed}
          (setMarkers markers disk)) := Core.keepsPrev haft.core
      simp only [wp_bind,wp_save,wp_pure]
      exact ⟨hsav,hsav,fun _ => ⟨hunt,hkee⟩⟩
    · split_ifs with hact
      · obtain ⟨kind,hswa⟩ := hsf.swapping state hrec hact
        exact h.wp_recoverRecord ⟨hrec,hsf.finals state hrec,hact,hswa⟩
      · exact wp_pure.mpr hnot

theorem wp_command_marks {command : Command} (h : MarkSafe retain disk) (hsf : Safe disk) :
    Always (MarkSafe retain) (command.program retain) disk := by
  cases command with
  | build =>
    exact (wp_build_marks h).imp (fun _ hsf => hsf) (fun _ _ hsf => hsf) fun _ _ hfai => hfai.1
  | activate => exact wp_activate_marks h hsf
  | purge => exact wp_purge_marks h
  | deploy => exact wp_deploy_marks h hsf
  | resume => exact wp_resume_marks h hsf
  | restorePrevious => exact wp_restorePrevious_marks h hsf
  | recover =>
    exact (wp_recover_marks h hsf).seq fun _ _ hlf => wp_pure.mpr hlf.1

theorem markSafe_firstDisk (marker : Option Content) : MarkSafe retain (firstDisk marker) := by
  refine markSafe_of_marks (fun _ hno => (by cases hno)) ⟨⟨⟨fun _ => rfl,?_,?_,?_,?_⟩,
    trivial,fun hno => (by cases hno),fun _ hno => (by cases hno),
    fun _ _ hno => (by cases hno)⟩,?_⟩
  · exact nofun
  · exact nofun
  · exact nofun
  · exact nofun
  · exact nofun

theorem markSafe_of_reached {marker : Option Content} (h : Reached retain marker disk) :
    MarkSafe retain disk∧Safe disk := by
  obtain ⟨history,hrun⟩ := h
  refine Run.state_invariant (P := fun disk => MarkSafe retain disk∧Safe disk) hrun
    ⟨markSafe_firstDisk marker,safe_firstDisk marker⟩ fun _ start action hsta _ => ?_
  have hmar : Always (MarkSafe retain) (action.1.program retain)
      start := wp_command_marks hsta.1 hsta.2
  exact (hmar.and (wp_command hsta.2)).leaves hsta (fun _ _ haft => haft)
    (fun _ _ haft => haft) action.2

/-- Snapshots are sound whatever is in hand. -/
theorem MarkSafe.snaps (h : MarkSafe retain disk) : Snaps retain disk.serial disk.markers := by
  by_cases hidl : ∀ state∈disk.record, state.state≠.activating
  · exact (h.settled hidl).core.snaps
  push Not at hidl
  obtain ⟨state,hst,hact⟩ := hidl
  cases hcom : completes state disk.trees with
  | true => exact (h.completed state hst hact hcom).core.snaps
  | false => exact (h.undone state hst hact hcom).core.snaps

theorem MarkSafe.followsLive (h : MarkSafe retain disk) (hrec : disk.record=some state)
    (hst : state.state=.buildFailed) : FollowsLive disk := by
  have hmar := h.settled fun other hot => by
    have heq : other=state := Option.some.inj (hot.symm.trans hrec)
    rw [heq,hst]
    exact Phase.noConfusion
  rw [hrec] at hmar
  have hunt : Untouched (liveId (some state)) disk.markers := hmar.phase_eq hst
  unfold FollowsLive
  rw [hrec]
  exact hunt

/-- A restore went on with the marker of its release. -/
theorem Snaps.entered_eq {serial : ℕ} (h : Snaps retain serial markers)
    {entry : StageId×Option Content} (hent : entry∈markers.entered)
    {content : Option Content} (hcon : (entry.1,content)∈markers.snapped) : entry.2=content := by
  have hret : retain=true := by
    cases hoff : retain with
    | true => rfl
    | false =>
      rw [h.off hoff] at hcon
      cases hcon
  exact h.agree entry.1 entry.2 content (h.entered hret entry hent) hcon

end Recover

/-- The retention marker follows the live release. Whatever commands fail or are
killed, the snapshots of one release agree; a failed or recovered build leaves
the marker snapshotted for the live release, and so does a reversed swap, which
also leaves the kept marker of the previous one; a restore goes on only with the
marker of its release put back. -/
theorem marker_follows_live (retain : Bool) (marker : Option Content) (disk : Disk)
    (hreached : Reached retain marker disk) :
    (∀ release content other, (release,content)∈disk.markers.snapped →
      (release,other)∈disk.markers.snapped→content=other) ∧
    (∀ state∈disk.record, state.state=.buildFailed → FollowsLive disk) ∧
    (∀ entry∈disk.markers.entered, ∀ content,
      (entry.1,content)∈disk.markers.snapped→entry.2=content) ∧
    (∀ choice e, (build retain choice disk).result=.error e →
      ∀ left, left=(build retain choice disk).final→left=disk∨FollowsLive left) ∧
    ∀ torn action, (recover retain torn disk).result=.ok action →
      action=.buildFailed∨action=.swapUndone →
        ∀ left, left=(recover retain torn disk).final → FollowsLive left∧KeepsPrev left := by
  obtain ⟨hmar,hsf⟩ := markSafe_of_reached hreached
  have hsna := hmar.snaps
  refine ⟨hsna.agree,fun state hst hfai => hmar.followsLive hst hfai,
    fun entry hent content hcon => Snaps.entered_eq hsna hent hcon,?_,?_⟩
  · rintro choice e her left rfl
    exact ((wp_build_marks hmar).error e her).2
  · rintro torn action hok hund left rfl
    exact ((wp_recover_marks hmar hsf).ok action hok).2 hund

/-- A build whose script changes the marker. -/
def markingBuild (text : String) (passes : Bool) : BuildChoice :=
  ⟨true,true,text,[some text],passes,true, ""⟩

/-- A deployment, a failed build, and a build killed once its script wrote the marker. -/
def killedBuild : List (Command×Option ℕ) :=
  [(.deploy (smoothBuild "first") {smoothActivate with restoreWrites := [some "first"]}
      ⟨true,.purged⟩,none),
    (.build (markingBuild "second" false),none),
    (.build (markingBuild "third" true),some 8)]

/-- Root the killed build leaves. -/
def markedDisk : Disk := (play (step true) [] (firstDisk (some "origin")) killedBuild).2

/-- The killed script's marker is in place; recovery puts the live release's back. -/
theorem marker_follows_live_killed :
    markedDisk.markers.marker=some "third" ∧ FollowsLive (recover true "" markedDisk).final ∧
      (recover true "" markedDisk).final.markers.marker=some "first" := by
  have hrea : Reached true (some "origin") markedDisk :=
    ⟨_,.play Run.nil killedBuild ⟨trivial,trivial,trivial,trivial⟩⟩
  have hfol := (marker_follows_live true (some "origin") markedDisk hrea).2.2.2.2 ""
    .buildFailed (by decide) (.inl rfl) _ rfl
  exact ⟨by decide,hfol.1,hfol.1 (some "first") (by decide)⟩

end SellRight.DeployMarkerSafety
