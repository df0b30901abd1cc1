import SellRight.DeployMarkerSafety
import SellRight.DeployRollbackPhases

/-!
# The deploy commands under a recorded rollback

State file, rollback record and journal of the legacy build agree after each
durable write of every deploy command and of a legacy build, and none of them
touches the rollback record. What each leaves when it passes is said with it.
-/

namespace SellRight.DeployRollbackSound

open CrashSteps CrashSteps.Program DeployRecord DeployMarker DeployMarkerSpecs DeployEntry
open DeployRollback DeployRollbackPhases DeploySwaps DeployMarkerSafety

variable {after : Disk} {α : Type} {ops : List RenameOp} {choice : LegacyBuildChoice}
  {operation : Inflight} {tag : String}

section Commands

variable {retain : Bool} {torn : Content} {state next : Record} {start disk : Disk}

/-- State file, rollback record and journal agree, and the rollback record is
the one a command found. -/
structure Kept (start disk : Disk) : Prop where
  sound : Sound (booksOf disk)
  rollbackOp : disk.rollbackOp=start.rollbackOp

/-- What a swap that passed its smoke leaves. -/
def Passed (stageId : StageId) (source : Option Source) (phase : Phase) (live : StageId)
    (disk : Disk) : Prop :=
  ∃ state, disk.record=some state∧state.stageId=stageId∧state.source=source ∧
    state.state=phase∧liveStage (some state)=some live

section
variable (h : Kept start disk)
include h

/-- Only the books matter. -/
theorem Kept.of_books (hboo : booksOf after=booksOf disk) :
    Kept start after := by
  constructor
  · rw [hboo]
    exact h.sound
  · exact (congrArg Books.rollbackOp hboo).trans h.rollbackOp

/-- The marker files do not matter. -/
theorem Kept.withMarkers (markers : Markers) :
    Kept start (setMarkers markers disk) := h.of_books rfl

/-- The trees do not matter. -/
theorem Kept.withTrees (trees : Trees) :
    Kept start (setTrees trees disk) := h.of_books rfl

theorem Kept.saved (hrec : disk.record=some state)
    (hboo : booksOf after = {booksOf disk with record := some next})
    (hsta : next.stageId=state.stageId) (hsou : next.source=state.source)
    (hpla : Placed disk.serial next) (hbui : Built next → Built state) :
    Kept start after := by
  refine ⟨?_,(congrArg Books.rollbackOp hboo).trans h.rollbackOp⟩
  rw [hboo]
  refine ⟨?_,h.sound.drawn,?_,?_,h.sound.previous⟩
  · rintro other ⟨⟩
    exact hpla
  · rintro other ⟨⟩ tag htag hot
    rw [hsta]
    exact h.sound.journaled state hrec tag (hsou.symm.trans htag) (hbui hot)
  · rintro op hop hkd other ⟨⟩ hnm
    obtain ⟨tag,htgt,htag⟩ := h.sound.named op hop hkd state hrec (hnm.trans (congrArg some hsta))
    exact ⟨tag,htgt,hsou.trans htag⟩

end

/-- Writes on the marker files and the trees leave the books as they are. -/
def Quiet {α : Type} (program : Deploy α) : Prop :=
  ∀ disk, Wp (fun after => booksOf after=booksOf disk) program
    (fun _ after => booksOf after=booksOf disk) (fun _ after => booksOf after=booksOf disk) disk

theorem Quiet.bind {β : Type} {program : Deploy α} {rest : α → Deploy β} (h : Quiet program)
    (hrt : ∀ a, Quiet (rest a)) : Quiet (program >>= rest) := by
  intro disk
  refine (h disk).seq fun a after hboo => ?_
  exact (hrt a after).imp (fun _ hlat => hlat.trans hboo)
    (fun _ _ hlat => hlat.trans hboo) fun _ _ hlat => hlat.trans hboo

/-- A result writes nothing. -/
theorem quiet_pure {a : α} : Quiet (pure a) := fun _ => wp_pure.mpr rfl

/-- A read writes nothing. -/
theorem quiet_fetch : Quiet fetch := fun _ => wp_fetch.mpr rfl

/-- A refusal writes nothing. -/
theorem quiet_fail {e : Exit} : Quiet (fail e : Deploy α) := fun _ => wp_fail.mpr rfl

/-- A check writes nothing. -/
theorem quiet_check {fact : Bool} {e : Exit} : Quiet (check fact e) := fun _ =>
  wp_check.mpr ⟨fun _ => rfl,fun _ => rfl⟩

/-- Work on the marker files. -/
theorem quiet_onMarkers {program : MarkerProgram} : Quiet (onMarkers program) := fun _ =>
  DeployEntry.wp_onMarkers.mpr (.of_forall (fun _ => rfl) (fun _ _ => rfl) fun _ _ => rfl)

/-- Work on the marker files of the live release. -/
theorem quiet_onLiveMarkers {program : StageId → MarkerProgram} :
    Quiet (onLiveMarkers program) := quiet_fetch.bind fun _ => quiet_onMarkers

theorem quiet_removeTree {slot : Slot} : Quiet (removeTree slot) := fun _ =>
  wp_removeTree (fun _ => rfl) rfl ⟨rfl,rfl⟩

theorem quiet_renamePath {source target : Slot} : Quiet (renamePath source target) := fun _ =>
  wp_write.mpr ⟨rfl,rfl⟩

theorem quiet_reverseRenames : Quiet (reverseRenames ops) := by
  induction ops with
  | nil => exact quiet_pure
  | cons op _ ih =>
    refine quiet_fetch.bind fun disk => ?_
    by_cases hund : ((disk.trees.at op.source).isNone&&(disk.trees.at op.target).isSome)=true
    · rw [if_pos hund]
      exact quiet_renamePath.bind fun _ => ih
    · have hski : Quiet (pure () : Deploy Unit) := quiet_pure
      rw [if_neg hund]
      exact hski.bind fun _ => ih

theorem quiet_recoverSwap : Quiet (recoverSwap ops) := by
  refine quiet_fetch.bind fun disk => ?_
  split
  · exact quiet_pure
  split
  · exact quiet_removeTree.bind fun _ => quiet_pure
  · exact quiet_reverseRenames.bind fun _ => quiet_pure

/-- The steps before a swap. -/
theorem quiet_retention {choice : ActivateChoice} : Quiet (retention retain choice) := by
  have hsav : Quiet (retainSave retain choice) := by
    cases retain with
    | true => exact quiet_onLiveMarkers.bind fun _ => quiet_onMarkers.bind fun _ => quiet_check
    | false => exact quiet_pure
  have hcar : Quiet (carryServer retain choice) := by
    unfold carryServer
    cases choice.collides with
    | true => exact quiet_onLiveMarkers.bind fun _ => quiet_fail
    | false => exact quiet_pure
  have hres : Quiet (retainRestore retain choice) := by
    cases retain with
    | true => exact quiet_onMarkers.bind fun _ => quiet_check
    | false => exact quiet_pure
  exact hsav.bind fun _ => hcar.bind fun _ => hres

theorem Kept.wp_quiet {program : Deploy α} {Q : α → Disk → Prop} (h : Kept start disk)
    (hq : Quiet program) (hps : ∀ a after, booksOf after=booksOf disk → Q a after) :
    Wp (Kept start) program Q (fun _ => Kept start) disk :=
  (hq disk).imp (fun _ hboo => h.of_books hboo) hps fun _ _ hboo => h.of_books hboo

theorem record_of_books (hboo : booksOf after=booksOf disk) :
    after.record=disk.record := congrArg Books.record hboo

section
variable (h : Kept start disk)
include h

/-- The live tree is brought up. -/
theorem Kept.wp_settle {launch : Launch}
    (hrec : disk.record=some state) (harr : Arriving disk.serial state operation) :
    Wp (Kept start) (settle retain torn launch state) (fun _ after => Kept start after ∧
        Passed state.stageId state.source operation.finalState operation.stageId after)
      (fun _ => Kept start) disk := by
  have hnot : Kept start (noted disk) := h.of_books rfl
  refine (wp_settle_saved harr.inflight h.withMarkers (fun failState hfai markers => ?_)
    fun markers => ⟨hnot.withMarkers markers,?_⟩).post fun _ after haft =>
      ⟨haft.1,_,haft.2,rfl,rfl,rfl,liveStage_withState.trans harr.live⟩
  · exact (h.withMarkers markers).saved hrec rfl rfl rfl (harr.completed hfai)
      (built_of_completed hfai)
  · exact (hnot.withMarkers markers).saved hrec rfl rfl rfl harr.confirmed harr.built_of_confirmed

/-- Renames leave the record but for their progress. -/
theorem Kept.wp_runOps (hrec : disk.record=some state) :
    Wp (Kept start) (runOps state ops)
      (fun next after => Kept start after∧after.record=some next∧∃ ops, next=state.withSwap ops)
      (fun _ => Kept start) disk := by
  have hfra : ∀ after, SwapFrame state disk after → Kept start after := by
    intro after haft
    obtain ⟨swap,hswa⟩ := haft.record
    have hboo : booksOf after = {booksOf disk with record := some (state.withSwap swap)} := by
      unfold booksOf
      rw [hswa,haft.serial,haft.rollbackOp,haft.legacyJournal]
    exact h.saved hrec hboo rfl rfl ((h.sound.placed state hrec).annotated swap _) fun hbui => hbui
  refine (wp_runOps_frame ops hrec).imp hfra (fun next after haft => ?_)
    fun _ after haft => hfra after haft
  obtain ⟨hswa,hnx,hops⟩ := haft
  exact ⟨hfra after hswa,hnx,hops⟩

theorem Kept.wp_swap {launch : Launch} (hrec : disk.record=some state)
    (hact : state.state=.activating) (hinf : state.inflight=some operation) :
    Wp (Kept start) (runOps state ops >>= fun next => settle retain torn launch next)
      (fun _ after => Kept start after ∧
        Passed state.stageId state.source operation.finalState operation.stageId after)
      (fun _ => Kept start) disk := by
  refine (h.wp_runOps hrec).seq fun next after haft => ?_
  obtain ⟨hkp,hnx,swap,rfl⟩ := haft
  obtain ⟨⟨found,harr⟩,-⟩ := (hkp.sound.placed _ hnx).swapping hact
  have heq : found=operation := Option.some.inj (harr.inflight.symm.trans hinf)
  rw [heq] at harr
  exact hkp.wp_settle hnx harr

/-- A failed build or candidate is marked so. -/
theorem Kept.buildFailed (hrec : disk.record=some state)
    (hbui : state.state=.building∨state.state=.built) :
    Kept start (setRecord {state with state := .buildFailed} disk) := by
  have hpla : Placed disk.serial {state with state := .buildFailed} :=
    (h.sound.placed state hrec).rebuilt hbui (.inr (.inr rfl)) rfl rfl rfl rfl
  exact h.saved hrec rfl rfl rfl hpla fun hbuilt => (hpla.not_built (.inr rfl) hbuilt).elim

theorem Kept.wp_smokeCandidate {choice : ActivateChoice} {Q : Unit → Disk → Prop}
    (hrec : disk.record=some state) (hbui : state.state=.built)
    (hps : Q () disk) :
    Wp (Kept start) (smokeCandidate retain choice state) Q (fun _ => Kept start) disk := by
  unfold smokeCandidate
  split
  · exact wp_pure.mpr hps
  refine wp_bind.mpr (h.wp_quiet quiet_onLiveMarkers fun _ after hboo => ?_)
  have hfai := (h.of_books hboo).buildFailed ((record_of_books hboo).trans hrec) (.inr hbui)
  simp only [wp_bind,wp_save,wp_fail]
  exact ⟨hfai,hfai⟩

/-- `activate` puts the stage of the latest build live. -/
theorem Kept.wp_activate {choice : ActivateChoice} :
    Wp (Kept start) (activate retain choice)
      (fun _ after => Kept start after∧∃ state, disk.record=some state ∧
        Passed state.stageId state.source .active state.stageId after)
      (fun _ => Kept start) disk := by
  unfold activate
  refine wp_onIdle (fun _ => h) fun state hrec _ => ?_
  refine wp_guard (fun hbui => ?_) h
  have hph : state.state=.built := of_decide_eq_true hbui
  refine wp_guard (fun _ => ?_) h
  refine wp_read ?_
  refine wp_guard (fun _ => ?_) h
  refine wp_guard (fun _ => ?_) h
  refine wp_bind.mpr (h.wp_quiet quiet_retention fun _ retained hret => ?_)
  have hkp := h.of_books hret
  have hfil := (record_of_books hret).trans hrec
  refine wp_bind.mpr (hkp.wp_smokeCandidate hfil hph ?_)
  refine wp_guard (fun _ => ?_) hkp
  refine wp_bind.mpr (hkp.wp_quiet quiet_onLiveMarkers fun _ marked hmar => ?_)
  have hrdy := hkp.of_books hmar
  have hthe := (record_of_books hmar).trans hfil
  have hint : Kept start {marked with
      record := some state.activating, base := marked.trees} :=
    hrdy.saved hthe rfl rfl rfl ((hrdy.sound.placed state hthe).activating hph) fun _ => .inl hph
  refine wp_bind.mpr (wp_saveIntent.mpr ⟨hint,?_⟩)
  exact (hint.wp_swap rfl rfl rfl).post fun _ _ haft => ⟨haft.1,state,hrec,haft.2⟩

theorem Kept.wp_purge {choice : PurgeChoice} : Wp (Kept start) (purge choice)
      (fun _ after => Kept start after∧∃ state, disk.record=some state ∧
        state.state∈purgeable∧after.record=some {state with
          state := .purged
          live := withState .purged state.live})
      (fun _ => Kept start) disk := by
  refine wp_purge_saved h fun state _ hrec _ hpur hph => ?_
  exact h.saved hrec rfl rfl rfl ((h.sound.placed state hrec).purged hpur hph)
    (built_of_purged hph)

theorem Kept.wp_resume {choice : SwapChoice} :
    Wp (Kept start) (resume retain choice)
      (fun _ after => Kept start after∧∃ state operation, disk.record=some state ∧
        liveStage (some state)=some operation.stageId∧Fits state operation ∧
        Passed state.stageId state.source operation.finalState operation.stageId after)
      (fun _ => Kept start) disk := by
  unfold resume
  refine wp_onIdle (fun _ => h) fun state hrec _ => ?_
  simp only [wp_bind,wp_check]
  refine ⟨fun hcom => ?_,fun _ => h⟩
  obtain ⟨-,-,-,hpen,-⟩ := isCompletedSwap_iff.mp hcom
  obtain ⟨operation,harr⟩ := (h.sound.placed state hrec).arriving hcom
  have hlv := (liveStage_afterSwap hpen).symm.trans harr.live
  exact (h.wp_settle hrec harr).post fun _ _ haft => ⟨haft.1,state,operation,hrec,hlv,harr.fits,haft.2⟩

theorem Kept.wp_restorePrevious {choice : SwapChoice} :
    Wp (Kept start) (restorePrevious retain choice)
      (fun _ after => Kept start after∧∃ state prev, disk.record=some state ∧ state.prev=some prev ∧
        Passed state.stageId state.source .restoredPrevious prev.stageId after)
      (fun _ => Kept start) disk := by
  unfold restorePrevious
  refine wp_onIdle (fun _ => h) fun state hrec hidl => ?_
  cases hpv : state.prev with
  | none => exact wp_fail.mpr h
  | some prev =>
    have hres : state.state≠.activating := by
      intro hact
      rw [hrec] at hidl
      simp [idle,hact] at hidl
    have hpla := h.sound.placed state hrec
    have hint : Kept start {disk with
        record := some (state.restoring prev),base := disk.trees} :=
      h.saved hrec rfl rfl rfl (hpla.restoring hres hpv) (hpla.built_of_restoring hpv)
    dsimp only
    refine wp_read (wp_guard (fun _ => ?_) h)
    refine wp_guard (fun _ => ?_) h
    refine wp_bind.mpr (wp_saveIntent.mpr ⟨hint,?_⟩)
    exact (hint.wp_swap rfl rfl rfl).post fun _ _ haft => ⟨haft.1,state,prev,hrec,hpv,haft.2⟩

end

/-- A build in hand. -/
structure InBuild (start : Disk) (state : Record) (disk : Disk) : Prop where
  kept : Kept start disk
  record : disk.record=some state
  building : state.state=.building

/-- Only the books matter. -/
theorem InBuild.of_books (h : InBuild start state disk)
    (hboo : booksOf after=booksOf disk) : InBuild start state after :=
  ⟨h.kept.of_books hboo,(record_of_books hboo).trans h.record,h.building⟩

theorem Kept.newStage (h : Kept start disk) (source : Option Source) :
    InBuild start (newState (.stage disk.serial) source disk.record) {disk with
        record := some (newState (.stage disk.serial) source disk.record)
        serial := disk.serial+1} ∧
      ∀ op∈disk.rollbackOp, op.stageId≠some (.stage disk.serial) := by
  have hunc : ∀ op∈disk.rollbackOp, op.stageId≠some (.stage disk.serial) := by
    intro op hop heq
    exact lt_irrefl _ (h.sound.drawn op hop _ heq)
  have hpla : Placed (disk.serial+1) (newState (.stage disk.serial) source disk.record) :=
    placed_newState h.sound.placed
  refine ⟨⟨⟨⟨?_,?_,?_,?_,h.sound.previous⟩,h.rollbackOp⟩,rfl,rfl⟩,hunc⟩
  · rintro state ⟨⟩
    exact hpla
  · exact fun op hop id hid => (h.sound.drawn op hop id hid).mono (Nat.le_succ _)
  · rintro state ⟨⟩ tag-hbui
    exact absurd hbui (hpla.not_built (.inl rfl))
  · rintro op hop-state ⟨⟩ heq
    exact absurd heq (hunc op hop)

section
variable (h : InBuild start state disk)
include h

theorem InBuild.wp_buildFailed {e : Exit} :
    Wp (Kept start) (buildFailed retain torn e) (fun _ _ => False) (fun _ => Kept start) disk := by
  refine wp_bind.mpr (h.kept.wp_quiet quiet_onLiveMarkers fun _ after hboo => ?_)
  have hbui := h.of_books hboo
  have hfai := hbui.kept.buildFailed hbui.record (.inl hbui.building)
  refine wp_read ?_
  rw [hbui.record]
  simp only [wp_bind,wp_save,wp_fail]
  exact ⟨hfai,hfai⟩

theorem InBuild.sourced {historyId : String}
    (hunc : ∀ op∈disk.rollbackOp, op.stageId≠some state.stageId) :
    InBuild start {state with source := some (.compose historyId)}
      (setRecord {state with source := some (.compose historyId)} disk) := by
  have hpla : Placed disk.serial {state with source := some (.compose historyId)} :=
    (h.kept.sound.placed state h.record).rebuilt (.inl h.building) (.inl h.building) rfl rfl rfl rfl
  refine ⟨⟨⟨?_,h.kept.sound.drawn,?_,?_,h.kept.sound.previous⟩,h.kept.rollbackOp⟩,rfl,h.building⟩
  · rintro other ⟨⟩
    exact hpla
  · rintro other ⟨⟩ tag htag -
    cases htag
  · rintro op hop-other ⟨⟩ heq
    exact absurd heq (hunc op hop)

theorem InBuild.wp_composeStage {choice : BuildChoice}
    (hunc : ∀ op∈disk.rollbackOp, op.stageId≠some state.stageId) :
    Wp (Kept start) (composeStage retain choice state) (fun _ => Kept start)
      (fun _ after => ∃ state, InBuild start state after) disk := by
  refine wp_guard (fun _ => ?_) ⟨state,h⟩
  refine wp_bind.mpr ((quiet_onLiveMarkers disk).imp (fun _ hboo => h.kept.of_books hboo)
    (fun _ marked hmar => ?_) fun _ _ hboo => ⟨state,h.of_books hboo⟩)
  have hsta : ∀ op∈marked.rollbackOp, op.stageId≠some state.stageId := by
    have heq : marked.rollbackOp=disk.rollbackOp := congrArg Books.rollbackOp hmar
    rw [heq]
    exact hunc
  have hsou : InBuild start {state with source := some (.compose choice.historyId)}
      (setRecord {state with source := some (.compose choice.historyId)} marked) :=
    (h.of_books hmar).sourced hsta
  refine wp_bind.mpr (wp_save.mpr ⟨hsou.kept,?_⟩)
  refine wp_bind.mpr ((quiet_onMarkers _).imp (fun _ hboo => hsou.kept.of_books hboo)
    (fun _ written hwri => ?_) fun _ _ hboo => ⟨_,hsou.of_books hboo⟩)
  have hbui := hsou.of_books hwri
  have hpla := hbui.kept.sound.placed _ hbui.record
  have hbuilt : Kept start (setRecord
      {state with source := some (.compose choice.historyId),state := .built} written) := by
    refine ⟨⟨?_,hbui.kept.sound.drawn,?_,?_,hbui.kept.sound.previous⟩,hbui.kept.rollbackOp⟩
    · rintro other ⟨⟩
      exact hpla.rebuilt (.inl hbui.building) (.inr (.inl rfl)) rfl rfl rfl rfl
    · rintro other ⟨⟩ tag htag -
      cases htag
    · rintro op hop hkd other ⟨⟩ heq
      have hnm := hbui.kept.sound.named op hop hkd _ hbui.record heq
      exact hnm
  simp only [wp_bind,wp_check,wp_save,wp_pure]
  exact ⟨fun _ => ⟨fun _ => ⟨hbuilt,hbuilt⟩,fun _ => ⟨_,hbui⟩⟩,fun _ => ⟨_,hbui⟩⟩

end

/-- `build` keeps what the books say. -/
theorem Kept.wp_build {choice : BuildChoice} (h : Kept start disk) :
    Always (Kept start) (build retain choice) disk := by
  unfold build saveStage
  simp only [wp_bind,wp_fetch,wp_check,wp_write,wp_pure,wp_handle]
  refine ⟨fun _ => ⟨fun _ => ⟨fun _ => ⟨fun _ => ⟨fun _ => ?_,fun _ => h⟩,fun _ => h⟩,
    fun _ => h⟩,fun _ => h⟩,fun _ => h⟩
  obtain ⟨hbui,hunc⟩ := h.newStage none
  refine ⟨hbui.kept,?_⟩
  set built := newState (.stage disk.serial) none disk.record
  have hste : Wp (Kept start) (buildStage retain choice built) (fun _ => Kept start)
      (fun _ after => ∃ state, InBuild start state after)
      {disk with record := some built,serial := disk.serial+1} := by
    refine Wp.seq (Q := fun _ placed => booksOf placed=booksOf
      {disk with record := some built,serial := disk.serial+1}) (wp_removeTree (fun _ => rfl)
        (hbui.kept.withTrees _) ⟨hbui.kept.withTrees _,rfl⟩) fun _ placed hboo => ?_
    have hthe := hbui.of_books hboo
    have hop : placed.rollbackOp=disk.rollbackOp := congrArg Books.rollbackOp hboo
    refine wp_bind.mpr (wp_write.mpr ⟨hthe.kept.withTrees _,?_⟩)
    have hpla : InBuild start built (placeStage built.stageId placed) := hthe.of_books rfl
    refine hpla.wp_composeStage ?_
    change ∀ op∈placed.rollbackOp, _
    rw [hop]
    exact hunc
  refine hste.imp (fun _ hkp => hkp) (fun _ _ hkp => hkp) fun e left hlf => ?_
  obtain ⟨other,hot⟩ := hlf
  exact hot.wp_buildFailed.post fun _ _ hfl => hfl.elim

/-- `recover` keeps what the books say. -/
theorem Kept.wp_recover (h : Kept start disk) :
    Always (Kept start) (recover retain torn) disk := by
  refine wp_read ?_
  cases hrec : disk.record with
  | none => exact wp_pure.mpr h
  | some state =>
    dsimp only
    by_cases hbui : state.state=.building
    · rw [if_pos hbui]
      refine wp_bind.mpr (h.wp_quiet quiet_onLiveMarkers fun _ after hboo => ?_)
      have hfailed := (h.of_books hboo).buildFailed ((record_of_books hboo).trans hrec) (.inl hbui)
      simp only [wp_bind,wp_save,wp_pure]
      exact ⟨hfailed,hfailed⟩
    · split_ifs with hact
      · refine wp_bind.mpr (h.wp_quiet quiet_recoverSwap fun complete after hboo => ?_)
        have hkp := h.of_books hboo
        have hthe := (record_of_books hboo).trans hrec
        have hpla := hkp.sound.placed state hthe
        cases complete with
        | true =>
          obtain ⟨⟨operation,harr⟩,-⟩ := hpla.swapping hact
          have hfai : Phase.activateFailed∈unconfirmed := by simp [unconfirmed]
          have hsav : Kept start (setRecord (state.completed .activateFailed) after) :=
            hkp.saved hthe rfl rfl rfl (harr.completed hfai) (built_of_completed hfai)
          simp only [if_true,wp_bind,wp_save,wp_pure]
          exact ⟨hsav,hsav⟩
        | false =>
          have hq : Quiet (onLiveMarkers (restoreMarker retain torn) >>= fun _ =>
              onMarkers (pruneMarkers (state.prev.map (·.stageId)))) :=
            quiet_onLiveMarkers.bind fun _ => quiet_onMarkers
          have hrt := hkp.wp_quiet hq fun _ pruned hpru => show
              Kept start (setRecord state.undone pruned) from
            (hkp.of_books hpru).saved ((record_of_books hpru).trans hthe) rfl rfl rfl
              (by
                have hser : pruned.serial=after.serial := congrArg Books.serial hpru
                rw [hser]
                exact hpla.undone hact) (hpla.built_of_undone hact)
          simp only [Bool.false_eq_true,if_false,wp_bind,wp_save,wp_pure]
          exact (wp_bind.mp hrt).post fun _ _ hpru =>
            hpru.post fun _ _ hsav => ⟨hsav,hsav⟩
      · exact wp_pure.mpr h

/-- Every deploy command keeps what the books say and the rollback record. -/
theorem Kept.wp_command {command : Command} (h : Kept start disk) :
    Always (Kept start) (command.program retain) disk := by
  cases command with
  | build => exact h.wp_build
  | activate =>
    exact h.wp_activate.post fun _ _ haft => haft.1
  | purge => exact h.wp_purge.post fun _ _ haft => haft.1
  | deploy =>
    refine h.wp_build.seq fun _ _ hbui => ?_
    refine hbui.wp_activate.seq fun _ _ hact => ?_
    exact hact.1.wp_purge.post fun _ _ haft => haft.1
  | resume => exact h.wp_resume.post fun _ _ haft => haft.1
  | restorePrevious =>
    exact h.wp_restorePrevious.post fun _ _ haft => haft.1
  | recover =>
    exact h.wp_recover.seq fun _ _ hkp => wp_pure.mpr hkp

/-- The stage of the tag is built. -/
def BuiltFrom (tag : String) (disk : Disk) : Prop :=
  ∃ state, disk.record=some state∧state.source=some (.legacyTag tag)∧state.state=.built

section
variable (h : InBuild start state disk)
include h

/-- The journal says nothing of a stage that is not built. -/
theorem InBuild.withJournal (journal : Option LegacyJournal) :
    InBuild start state {disk with legacyJournal := journal} := by
  refine ⟨⟨⟨h.kept.sound.placed,h.kept.sound.drawn,?_,h.kept.sound.named,
    h.kept.sound.previous⟩,h.kept.rollbackOp⟩,h.record,h.building⟩
  intro other hot tag _ hbui
  have hpla := h.kept.sound.placed other hot
  have heq : other=state := Option.some.inj (hot.symm.trans h.record)
  refine absurd hbui (hpla.not_built (.inl ?_))
  rw [heq]
  exact h.building

theorem InBuild.wp_legacyStep {stageId : StageId} {done step : ℕ} :
    Wp (Kept start) (legacyStep choice tag stageId done step)
      (fun _ after => InBuild start state after) (fun _ after => InBuild start state after)
      disk := by
  unfold legacyStep
  by_cases hdn : step<done
  · rw [if_pos hdn]
    exact wp_pure.mpr h
  have hwk : Quiet (legacyWork choice step) := quiet_onMarkers.bind fun _ => quiet_check
  rw [if_neg hdn]
  refine wp_bind.mpr ((hwk disk).imp (fun _ hboo => h.kept.of_books hboo)
    (fun _ after hboo => ?_) fun _ _ hboo => h.of_books hboo)
  have hmar := (h.of_books hboo).withJournal (some ⟨tag,stageId,step+1⟩)
  exact wp_write.mpr ⟨hmar.kept,hmar⟩

theorem InBuild.finished :
    Kept start (setRecord {state with state := .built}
      {disk with legacyJournal := some ⟨tag,state.stageId,legacySteps⟩}) := by
  have hpla := h.kept.sound.placed state h.record
  refine ⟨⟨?_,h.kept.sound.drawn,?_,?_,h.kept.sound.previous⟩,h.kept.rollbackOp⟩
  · rintro other ⟨⟩
    exact hpla.rebuilt (.inl h.building) (.inr (.inl rfl)) rfl rfl rfl rfl
  · rintro other ⟨⟩ tag - -
    exact ⟨_,rfl,rfl,rfl⟩
  · rintro op hop hkd other ⟨⟩ heq
    have hnm := h.kept.sound.named op hop hkd state h.record heq
    exact hnm

theorem InBuild.wp_legacyRest {done : ℕ} (hsou : state.source=some (.legacyTag tag)) :
    Wp (Kept start) (legacyRest choice tag state done)
      (fun _ after => Kept start after∧BuiltFrom tag after)
      (fun _ after => InBuild start state after) disk := by
  refine h.wp_legacyStep.seq fun _ _ henv => ?_
  refine henv.wp_legacyStep.seq fun _ _ hlnk => ?_
  refine hlnk.wp_legacyStep.seq fun _ _ hins => ?_
  refine hins.wp_legacyStep.seq fun _ built hbui => ?_
  refine wp_guard (fun _ => ?_) hbui
  have hmar := hbui.withJournal (some ⟨tag,state.stageId,legacySteps⟩)
  refine wp_bind.mpr (wp_write.mpr ⟨hmar.kept,?_⟩)
  have hfin : Kept start (setRecord {state with state := .built}
      {built with legacyJournal := some ⟨tag,state.stageId,legacySteps⟩}) := hbui.finished
  simp only [wp_bind,wp_save,wp_pure]
  exact ⟨hfin,hfin,_,rfl,hsou,rfl⟩

end

/-- The tag is extracted into a new stage. -/
theorem Kept.wp_legacyStage (h : Kept start disk) :
    Wp (Kept start) (legacyStage retain choice tag)
      (fun state after => InBuild start state after∧state.source=some (.legacyTag tag))
      (fun _ => Kept start) disk := by
  have hemp : Wp (Kept start) (removeTree .next) (fun _ emptied => booksOf emptied=booksOf disk)
      (fun _ => Kept start) disk :=
    wp_removeTree (fun _ => rfl) (h.withTrees _) ⟨h.withTrees _,rfl⟩
  refine wp_read (wp_guard (fun _ => hemp.seq fun _ emptied hboo => ?_) h)
  obtain ⟨hbui,-⟩ := (h.of_books hboo).newStage (some (.legacyTag tag))
  unfold saveStage
  simp only [wp_bind,wp_fetch,wp_write,wp_pure,markStep]
  refine ⟨hbui.kept,?_⟩
  have hjou := hbui.withJournal (some ⟨tag,.stage emptied.serial,0⟩)
  refine ⟨hjou.kept,(quiet_onLiveMarkers _).imp
    (fun _ heq => hjou.kept.of_books heq) (fun _ marked heq => ?_)
    fun _ _ heq => hjou.kept.of_books heq⟩
  have hmar := hjou.of_books heq
  refine wp_check.mpr ⟨fun _ => ⟨hmar.kept.withTrees _,wp_check.mpr ⟨fun _ => ?_,
    fun _ => hmar.kept.withTrees _⟩⟩,fun _ => hmar.kept⟩
  have hpla : InBuild start _ (placeStage (.stage emptied.serial) marked) := hmar.of_books rfl
  have hdn := hpla.withJournal (some ⟨tag,.stage emptied.serial,1⟩)
  exact ⟨hdn.kept,hdn,rfl⟩

theorem exists_of_resumeBuilding (h : resumeBuilding tag disk=true) :
    ∃ state, disk.record=some state∧state.state=.building ∧ state.source=some (.legacyTag tag) := by
  obtain ⟨state,hrec,hst⟩ := (Option.any_eq_true _ _).mp h
  rw [Bool.and_eq_true,Bool.and_eq_true] at hst
  exact ⟨state,hrec,of_decide_eq_true hst.1.2,of_decide_eq_true hst.2⟩

theorem Kept.wp_buildLegacy (h : Kept start disk) :
    Wp (Kept start) (buildLegacy retain choice tag)
      (fun _ after => Kept start after∧BuiltFrom tag after) (fun _ => Kept start) disk := by
  refine wp_read (wp_guard (fun _ => ?_) h)
  refine Wp.seq (Q := fun state after => InBuild start state after ∧
    state.source=some (.legacyTag tag)) ?_ fun state after hbui => wp_handle.mpr
      ((hbui.1.wp_legacyRest hbui.2).imp (fun _ hkp => hkp) (fun _ _ hbuilt => hbuilt)
        fun _ _ hfai => hfai.wp_buildFailed.post fun _ _ hfl => hfl.elim)
  unfold legacyInHand
  by_cases hno : doneSteps choice tag disk=0
  · rw [if_pos hno]
    exact h.wp_legacyStage
  have hres : resumeBuilding tag disk=true := by
    unfold doneSteps at hno
    by_contra hnot
    rw [Bool.not_eq_true] at hnot
    rw [hnot] at hno
    exact hno rfl
  obtain ⟨state,hrec,hbuil,hsou⟩ := exists_of_resumeBuilding hres
  rw [if_neg hno]
  refine wp_read ?_
  rw [hrec]
  exact wp_pure.mpr ⟨⟨h,hrec,hbuil⟩,hsou⟩

end Commands

end SellRight.DeployRollbackSound
