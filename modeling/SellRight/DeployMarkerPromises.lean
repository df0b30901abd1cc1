import SellRight.DeployMarkerSpecs
import SellRight.DeploySafety

/-!
# What the state file promises of the retention marker

Whatever the build script and the retention helpers write, the marker of the live
release can be put back at every moment: it is untouched, or its snapshot is
valid, or it is kept for the restore in hand. Builds, the steps before a swap and
the steps after it keep that promise.
-/

namespace SellRight.DeployMarkerSafety

open CrashSteps CrashSteps.Program DeployRecord DeployMarker DeployMarkerSpecs DeployEntry List
open DeploySwaps DeploySafety RunHistory

/-- Marker files under a live and a previous release. -/
structure Core (retain : Bool) (live : StageId) (prev : Option StageId) (serial : ℕ)
    (markers : Markers) : Prop where
  snaps : Snaps retain serial markers
  liveKnown : Known serial live
  distinct : prev≠some live
  prevKnown : ∀ id∈prev, Known serial id
  prevKept : retain=true→∀ id∈prev, ∃ content, Snapped markers id content∧Kept markers id content

/-- The marker is that of the live release. -/
def Untouched (live : StageId) (markers : Markers) : Prop :=
  ∀ content, Snapped markers live content→markers.marker=content

/-- The marker can be put back by the snapshot, where it is not untouched. -/
def Restorable (live : StageId) (markers : Markers) : Prop :=
  ∀ content, Snapped markers live content→markers.markerMeta=some live∨markers.marker=content

/-- The stage of a build is new. -/
structure Fresh (live stage : StageId) (serial : ℕ) (markers : Markers) : Prop where
  known : Known serial stage
  notLive : stage≠live
  unsnapped : ∀ content, ¬ Snapped markers stage content

/-- An unconfirmed live release: an activated one has no snapshot yet, the
marker of a restored one can still be put back. -/
structure Unconfirmed (retain : Bool) (state : Record) (markers : Markers)
    (operation : Inflight) : Prop where
  inflight : state.inflight=some operation
  stage : operation.stageId=liveId (some state)
  resumable : isCompletedSwap (some state)=true
  activated : operation.kind=.activate→∀ content, ¬ Snapped markers operation.stageId content
  last : operation.kind=.restore→state.prev=none
  /-- The marker of a restored one can be put back. -/
  restored : operation.kind=.restore → retain=true →
    ∃ content, Snapped markers operation.stageId content ∧
      RestoresTo markers operation.stageId content

/-- What a state promises of the marker files. -/
def PhaseMarks (retain : Bool) (state : Record) (serial : ℕ) (markers : Markers) : Phase → Prop
  | .building => Restorable (liveId (some state)) markers ∧
      Fresh (liveId (some state)) state.stageId serial markers
  | .built => (retain=true→markers.markerMeta=some (liveId (some state))) ∧
      Fresh (liveId (some state)) state.stageId serial markers
  | .activateFailed => ∃ operation, Unconfirmed retain state markers operation
  | .smokeFailed => ∃ operation, Unconfirmed retain state markers operation
  | .activating => True
  | _ => Untouched (liveId (some state)) markers

/-- What a state record promises of the marker files. -/
def RecordMarks (retain : Bool) (serial : ℕ) (markers : Markers) : Option Record → Prop
  | none => Untouched .legacy markers
  | some state => PhaseMarks retain state serial markers state.state

/-- Marker files under a state record without a swap in hand. -/
structure Marks (retain : Bool) (record : Option Record) (serial : ℕ) (markers : Markers) :
    Prop where
  core : Core retain (liveId record) (prevId record) serial markers
  phase : RecordMarks retain serial markers record

/-- Marker files a reversed swap can go back to: once the marker is that of the
live release, they are what the record before the swap promises. -/
structure Reversible (retain : Bool) (state : Record) (serial : ℕ) (markers : Markers) :
    Prop where
  core : Core retain (liveId (some state)) (prevId (some state)) serial markers
  restorable : Restorable (liveId (some state)) markers
  back : ∀ content, Untouched (liveId (some state)) (setMarker content markers) →
    PhaseMarks retain state serial (setMarker content markers) state.state

/-- `recover` would find the swap complete. -/
def completes (state : Record) (trees : Trees) : Bool :=
  decide (state.swap≠[])&&swapComplete trees state.swap

/-- Marker files of a root. -/
structure MarkSafe (retain : Bool) (disk : Disk) : Prop where
  settled : (∀ state∈disk.record, state.state≠.activating) →
    Marks retain disk.record disk.serial disk.markers
  /-- An incomplete swap in hand can be reversed. -/
  undone : ∀ state∈disk.record, state.state=.activating→completes state disk.trees=false →
      Reversible retain state.undone disk.serial disk.markers
  completed : ∀ state∈disk.record, state.state=.activating→completes state disk.trees=true →
      Marks retain (some (state.completed .activateFailed)) disk.serial disk.markers

/-- The marker file holds what was snapshotted for the release now live. -/
def FollowsLive (disk : Disk) : Prop :=
  ∀ content, (liveId disk.record,content)∈disk.markers.snapped→disk.markers.marker=content

/-- The marker of the previous release is kept. -/
def KeepsPrev (disk : Disk) : Prop :=
  ∀ id∈prevId disk.record, ∀ content, (id,content)∈disk.markers.snapped →
    Kept disk.markers id content

variable {phase : Phase} {next : Record} {markers after : Markers} {Q : Unit → Disk → Prop}
  {E : Exit → Disk → Prop} {choice : BuildChoice} {torn : Content}

section Facts

variable {retain : Bool} {live : StageId} {prev : Option StageId} {serial : ℕ}
  {state : Record} {disk : Disk}

variable {content : Option Content}

theorem Core.retain_of_snapped {release : StageId}
    (h : Core retain live prev serial markers) (hsna : Snapped markers release content) :
    retain=true := by
  cases hret : retain with
  | true => rfl
  | false =>
    unfold Snapped at hsna
    rw [h.snaps.off hret] at hsna
    cases hsna

/-- More ids are drawn. -/
theorem Snaps.mono {later : ℕ} (h : Snaps retain serial markers) (hle : serial≤later) :
    Snaps retain later markers :=
  ⟨h.off,fun entry hent => (h.known entry hent).mono hle,h.agree,h.files,h.entered⟩

/-- More ids are drawn. -/
theorem Core.mono {later : ℕ} (h : Core retain live prev serial markers) (hle : serial≤later) :
    Core retain live prev later markers :=
  ⟨Snaps.mono h.snaps hle,h.liveKnown.mono hle,h.distinct,
    fun id hid => (h.prevKnown id hid).mono hle,h.prevKept⟩

/-- The marker itself does not matter to the releases. -/
theorem Core.setMarker (h : Core retain live prev serial markers) (content : Option Content) :
    Core retain live prev serial (setMarker content markers) :=
  ⟨h.snaps.of_eq rfl rfl (.inr ⟨rfl,rfl,rfl⟩),h.liveKnown,h.distinct,h.prevKnown,h.prevKept⟩

theorem Fresh.of_eq {stage : StageId} (h : Fresh live stage serial markers)
    (hsna : after.snapped=markers.snapped) : Fresh live stage serial after := by
  refine ⟨h.known,h.notLive,fun content hcon => h.unsnapped content ?_⟩
  unfold Snapped at hcon ⊢
  rw [← hsna]
  exact hcon

/-- A root without a swap in hand. -/
theorem markSafe_of_marks (hidl : ∀ state∈disk.record, state.state≠.activating)
    (hmar : Marks retain disk.record disk.serial disk.markers) : MarkSafe retain disk :=
  ⟨fun _ => hmar,fun state hst hact => absurd hact (hidl state hst),
    fun state hst hact => absurd hact (hidl state hst)⟩

/-- A root whose record is in hand. -/
theorem markSafe_of_state (hrec : disk.record=some state) (hidl : state.state≠.activating)
    (hmar : Marks retain (some state) disk.serial disk.markers) : MarkSafe retain disk := by
  refine markSafe_of_marks ?_ ?_
  · rw [hrec]
    rintro other ⟨⟩
    exact hidl
  · rw [hrec]
    exact hmar

/-- What the state promises, where it is known. -/
theorem Marks.phase_eq (h : Marks retain (some state) serial markers)
    (hst : state.state=phase) : PhaseMarks retain state serial markers phase :=
  hst ▸ h.phase

/-- Build the promise of a known state. -/
theorem marks_of_phase (hst : state.state=phase)
    (hcor : Core retain (liveId (some state)) (prevId (some state)) serial markers)
    (hph : PhaseMarks retain state serial markers phase) :
    Marks retain (some state) serial markers := by
  refine ⟨hcor,?_⟩
  change PhaseMarks retain state serial markers state.state
  rw [hst]
  exact hph

/-- A state without a promise of its own leaves the marker untouched. -/
theorem marks_of_purgeable (hst : state.state∈purgeable)
    (hcor : Core retain (liveId (some state)) (prevId (some state)) serial markers)
    (hunt : Untouched (liveId (some state)) markers) :
    Marks retain (some state) serial markers := by
  refine ⟨hcor,?_⟩
  change PhaseMarks retain state serial markers state.state
  cases hph : state.state <;> rw [hph] at hst <;> simp [purgeable] at hst <;> exact hunt

/-- An unconfirmed release under another record of the same operation. -/
theorem Unconfirmed.transfer {operation : Inflight}
    (h : Unconfirmed retain state markers operation) (hinf : next.inflight=state.inflight)
    (hlv : liveId (some next)=liveId (some state)) (hpv : next.prev=state.prev)
    (hres : isCompletedSwap (some next)=true) : Unconfirmed retain next markers operation :=
  ⟨hinf.trans h.inflight,h.stage.trans hlv.symm,hres,h.activated,
    fun hkd => hpv.trans (h.last hkd),h.restored⟩

/-- An untouched marker can be put back. -/
theorem Untouched.restorable (h : Untouched live markers) : Restorable live markers :=
  fun content hcon => .inr (h content hcon)

/-- What a state promises holds under its own marker again. -/
theorem PhaseMarks.setMarker
    (h : PhaseMarks retain state serial markers phase)
    (hunt : Untouched (liveId (some state)) (setMarker content markers)) :
    PhaseMarks retain state serial (DeployMarker.setMarker content markers) phase := by
  have hunc : (∃ operation, Unconfirmed retain state markers operation) →
      ∃ operation, Unconfirmed retain state (DeployMarker.setMarker content markers) operation := by
    rintro ⟨operation,hope⟩
    refine ⟨operation,hope.inflight,hope.stage,hope.resumable,
      hope.activated,hope.last,fun hkd hret => ?_⟩
    obtain ⟨found,hsna,hres⟩ := hope.restored hkd hret
    refine ⟨found,hsna,?_⟩
    rcases hres with hkp|⟨-,hem⟩
    · exact .inl hkp
    · refine .inr ⟨hunt found ?_,hem⟩
      rw [← hope.stage]
      exact hsna
  cases phase with
  | building => exact ⟨hunt.restorable,h.2.of_eq rfl⟩
  | built => exact ⟨h.1,h.2.of_eq rfl⟩
  | activateFailed | smokeFailed => exact hunc h
  | activating => trivial
  | _ => exact hunt

/-- A settled root can be gone back to. -/
theorem Marks.reversible (h : Marks retain (some state) serial markers)
    (hres : Restorable (liveId (some state)) markers) : Reversible retain state serial markers :=
  ⟨h.core,hres,fun _ hunt => .setMarker h.phase hunt⟩

/-- Under a valid snapshot, or untouched, the marker may be put back. -/
theorem restorable_of_remarked {live : StageId}
    (h : Remarked live markers after) (hbef : Restorable live markers) : Restorable live after := by
  obtain ⟨content,rfl,hor⟩ := h
  intro other hot
  rcases hor with hmet|heq
  · exact .inl hmet
  · rcases hbef other hot with hmet|hmar
    · exact .inl hmet
    · exact .inr (heq.trans hmar)

/-- Putting the marker back keeps the way back open. -/
theorem Reversible.remark (h : Reversible retain state serial markers)
    (haft : Remarked (liveId (some state)) markers after) :
    Reversible retain state serial after := by
  have hres := restorable_of_remarked haft h.restorable
  obtain ⟨content,rfl,-⟩ := haft
  exact ⟨h.core.setMarker content,hres,h.back⟩

/-- Once the marker is back the record before the swap promises what it did. -/
theorem Reversible.marks (h : Reversible retain state serial markers)
    (hunt : Untouched (liveId (some state)) markers) : Marks retain (some state) serial markers :=
  ⟨h.core,h.back markers.marker hunt⟩

end Facts

section Build

variable {retain : Bool} {state : Record} {disk : Disk}

/-- A build in hand and what its state promises of the marker files. -/
structure BuildMarks (retain : Bool) (state : Record) (disk : Disk) : Prop where
  record : disk.record=some state
  building : state.state=.building
  core : Core retain (liveId (some state)) (prevId (some state)) disk.serial disk.markers
  restorable : Restorable (liveId (some state)) disk.markers
  fresh : Fresh (liveId (some state)) state.stageId disk.serial disk.markers

section
variable (h : BuildMarks retain state disk)
include h

/-- Such a root's markers are safe. -/
theorem BuildMarks.safe : MarkSafe retain disk := by
  refine markSafe_of_state h.record ?_ (marks_of_phase h.building h.core ⟨h.restorable,h.fresh⟩)
  rw [h.building]
  exact Phase.noConfusion

/-- Putting the marker back keeps a build in hand. -/
theorem BuildMarks.remark (haft : Remarked (liveId (some state)) disk.markers after) :
    BuildMarks retain state (setMarkers after disk) := by
  have hres := restorable_of_remarked haft h.restorable
  obtain ⟨content,rfl,-⟩ := haft
  exact ⟨h.record,h.building,h.core.setMarker content,hres,h.fresh.of_eq rfl⟩

theorem BuildMarks.wp_restored
    (hps : ∀ markers, BuildMarks retain state (setMarkers markers disk) →
      Untouched (liveId (some state)) markers → Q () (setMarkers markers disk)) :
    Wp (MarkSafe retain) (onLiveMarkers (restoreMarker retain torn)) Q E disk := by
  rw [wp_onLiveMarkers,h.record,wp_onMarkers]
  refine (wp_restoreMarker (E := fun _ _ => False) h.core.snaps).imp
    (fun after haft => (h.remark haft).safe) (fun _ after haft => ?_)
    fun _ _ hfl => hfl.elim
  obtain ⟨hrem,hbk⟩ := haft
  refine hps after (h.remark hrem) fun content hcon => ?_
  obtain ⟨other,rfl,-⟩ := hrem
  exact hbk content hcon (h.restorable content hcon)

theorem BuildMarks.failed (hunt : Untouched (liveId (some state)) disk.markers) :
    MarkSafe retain (setRecord {state with state := .buildFailed} disk) :=
  markSafe_of_state rfl Phase.noConfusion (marks_of_phase rfl h.core hunt)

theorem BuildMarks.wp_buildFailed {e : Exit} :
    Wp (MarkSafe retain) (buildFailed retain torn e) (fun _ => MarkSafe retain)
      (fun _ left => MarkSafe retain left∧FollowsLive left) disk := by
  refine wp_bind.mpr (h.wp_restored fun markers hbui hunt => ?_)
  have hrec : (setMarkers markers disk).record=some state := h.record
  refine wp_read ?_
  rw [hrec]
  simp only [wp_bind,wp_save,wp_fail]
  exact ⟨hbui.failed hunt,hbui.failed hunt,hunt⟩

theorem BuildMarks.snapshotted
    (haft : Snapshotted retain disk.serial (liveId (some state)) disk.markers after) :
    BuildMarks retain state (setMarkers after disk) := by
  refine ⟨h.record,h.building,⟨haft.snaps,h.core.liveKnown,h.core.distinct,
    h.core.prevKnown,fun hret id hid => ?_⟩,haft.live,
    ⟨h.fresh.known,h.fresh.notLive,fun content hcon => ?_⟩⟩
  · obtain ⟨content,hsna,hkp⟩ := h.core.prevKept hret id hid
    refine ⟨content,haft.kept hsna,?_⟩
    change after.markerPrevDir.filter _=_
    rw [haft.prevDir]
    exact hkp
  · rcases haft.others _ hcon with hold|hlv
    · exact h.fresh.unsnapped content hold
    · exact h.fresh.notLive hlv

/-- Under the snapshot of the live release its marker may change. -/
theorem BuildMarks.rewrite (hmet : retain=true→disk.markers.markerMeta=some (liveId (some state)))
    (content : Option Content) :
    BuildMarks retain state (setMarkers (setMarker content disk.markers) disk) :=
  ⟨h.record,h.building,h.core.setMarker content,
    fun _ hsna => .inl (hmet (h.core.retain_of_snapped hsna)),
    h.fresh.of_eq rfl⟩

/-- A seeded build keeps the markers safe; where it fails the build is still in hand. -/
theorem BuildMarks.wp_composeStage :
    Wp (MarkSafe retain) (composeStage retain choice state) (fun _ => MarkSafe retain)
      (fun _ left => ∃ state, BuildMarks retain state left) disk := by
  refine wp_guard (fun _ => ?_) ⟨state,h⟩
  rw [wp_bind,wp_onLiveMarkers,h.record,wp_onMarkers]
  refine (wp_snapshotMarker (E := fun _ _ => False) h.core.snaps h.core.liveKnown
    h.restorable).imp (fun after haft => (h.snapshotted haft).safe)
    (fun _ after haft => ?_) fun _ _ hfl => hfl.elim
  obtain ⟨hsna,hmet⟩ := haft
  have hbui := h.snapshotted hsna
  set sourced : Record := {state with source := some (.compose choice.historyId)}
  have hsou : BuildMarks retain sourced (setRecord sourced (setMarkers after disk)) :=
    ⟨rfl,hbui.building,hbui.core,hbui.restorable,hbui.fresh⟩
  refine wp_bind.mpr (wp_save.mpr ⟨hsou.safe,wp_bind.mpr (wp_onMarkers.mpr ?_)⟩)
  refine (wp_helperWrites (E := fun _ _ => False)).imp (fun markers hmar => ?_)
    (fun _ markers hmar => ?_) fun _ _ hfl => hfl.elim
  · obtain ⟨content,rfl⟩ := hmar
    exact (hsou.rewrite hmet content).safe
  obtain ⟨content,rfl⟩ := hmar
  have hwri := hsou.rewrite hmet content
  have hbuilt : MarkSafe retain (setRecord {sourced with state := .built}
      (setMarkers (setMarker content after) (setRecord sourced (setMarkers after disk)))) :=
    markSafe_of_state rfl Phase.noConfusion (marks_of_phase rfl hwri.core ⟨hmet,hwri.fresh⟩)
  simp only [wp_bind,wp_check,wp_save,wp_pure]
  exact ⟨fun _ => ⟨fun _ => ⟨hbuilt,hbuilt⟩,fun _ => ⟨_,hwri⟩⟩,fun _ => ⟨_,hwri⟩⟩

/-- The trees do not matter to a build in hand. -/
theorem BuildMarks.withTrees (trees : Trees) : BuildMarks retain state (setTrees trees disk) :=
  ⟨h.record,h.building,h.core,h.restorable,h.fresh⟩

theorem BuildMarks.wp_buildStage :
    Wp (MarkSafe retain) (buildStage retain choice state) (fun _ => MarkSafe retain)
      (fun _ left => ∃ state, BuildMarks retain state left) disk :=
  Wp.seq (Q := fun _ => BuildMarks retain state) (wp_removeTree (fun _ => h) (h.withTrees _).safe
    ⟨(h.withTrees _).safe,h.withTrees _⟩) fun _ _ hsta => wp_bind.mpr (wp_write.mpr
      ⟨(hsta.withTrees _).safe,(hsta.withTrees _).wp_composeStage⟩)

end

/-- A root from which a build may begin. -/
theorem MarkSafe.restorable (h : MarkSafe retain disk) (hidl : idle disk.record=true)
    (hres : isCompletedSwap disk.record=false) :
    Core retain (liveId disk.record) (prevId disk.record) disk.serial disk.markers ∧
      Restorable (liveId disk.record) disk.markers := by
  have hmar : Marks retain disk.record disk.serial disk.markers := by
    refine h.settled fun state hst hact => ?_
    have hrec : disk.record=some state := hst
    rw [hrec] at hidl
    simp [idle,hact] at hidl
  refine ⟨hmar.core,fun content hcon => ?_⟩
  cases hrec : disk.record with
  | none =>
    rw [hrec] at hmar hcon
    exact .inr (hmar.phase content hcon)
  | some state =>
    rw [hrec] at hmar hcon hidl hres
    have hblo : ∀ operation, ¬ Unconfirmed retain state disk.markers operation := by
      intro operation hope
      rw [hope.resumable] at hres
      cases hres
    cases hst : state.state with
    | building | activating => simp [idle,hst] at hidl
    | built => exact .inl ((hmar.phase_eq hst).1 (hmar.core.retain_of_snapped hcon))
    | activateFailed | smokeFailed =>
      obtain ⟨operation,hope⟩ := hmar.phase_eq hst
      exact absurd hope (hblo operation)
    | _ => exact .inr (hmar.phase_eq hst content hcon)

/-- `build` keeps the markers safe; one that fails leaves the live release's. -/
theorem wp_build_marks (h : MarkSafe retain disk) :
    Wp (MarkSafe retain) (build retain choice) (fun _ => MarkSafe retain)
      (fun _ left => MarkSafe retain left∧(left=disk∨FollowsLive left)) disk := by
  have href : MarkSafe retain disk∧(True∨FollowsLive disk) := ⟨h,.inl trivial⟩
  unfold build saveStage
  simp only [wp_bind,wp_fetch,wp_check,wp_write,wp_pure,wp_handle]
  refine ⟨fun hidl => ⟨fun hresu => ⟨fun _ => ⟨fun _ => ⟨fun _ => ?_,fun _ => href⟩,
    fun _ => href⟩,fun _ => href⟩,fun _ => href⟩,fun _ => href⟩
  obtain ⟨hcor,hres⟩ := h.restorable hidl (by simpa using hresu)
  have hbui : BuildMarks retain (newState (.stage disk.serial) none disk.record) {disk with
        record := some (newState (.stage disk.serial) none disk.record)
        serial := disk.serial+1} := by
    refine ⟨rfl,rfl,hcor.mono (Nat.le_succ _),hres,⟨Nat.lt_succ_self _,?_,?_⟩⟩
    · intro heq
      have hkn : Known disk.serial (liveId disk.record) := hcor.liveKnown
      have hlv : StageId.stage disk.serial=liveId disk.record := heq
      rw [← hlv] at hkn
      exact lt_irrefl _ hkn
    · intro content hcon
      exact lt_irrefl _ (hcor.snaps.known _ hcon)
  refine ⟨hbui.safe,hbui.wp_buildStage.imp (fun _ hsf => hsf)
    (fun _ _ hsf => hsf) fun _ left hlf => ?_⟩
  obtain ⟨other,hot⟩ := hlf
  exact hot.wp_buildFailed.imp (fun _ hsf => hsf) (fun _ _ hsf => hsf)
    fun _ _ hfai => ⟨hfai.1,.inr hfai.2⟩

end Build

section Retention

variable {retain : Bool} {state : Record} {disk : Disk}

/-- A built record in hand, its marker under a valid snapshot. -/
structure BuiltMarks (retain : Bool) (state : Record) (disk : Disk) : Prop where
  record : disk.record=some state
  built : state.state=.built
  core : Core retain (liveId (some state)) (prevId (some state)) disk.serial disk.markers
  markerMeta : retain=true→disk.markers.markerMeta=some (liveId (some state))
  fresh : Fresh (liveId (some state)) state.stageId disk.serial disk.markers

section
variable (h : BuiltMarks retain state disk)
include h

theorem BuiltMarks.marks : Marks retain (some state) disk.serial disk.markers :=
  marks_of_phase h.built h.core ⟨h.markerMeta,h.fresh⟩

/-- Such a root's markers are safe. -/
theorem BuiltMarks.safe : MarkSafe retain disk := by
  refine markSafe_of_state h.record ?_ h.marks
  rw [h.built]
  exact Phase.noConfusion

/-- The marker may change. -/
theorem BuiltMarks.rewrite (content : Option Content) :
    BuiltMarks retain state (setMarkers (setMarker content disk.markers) disk) :=
  ⟨h.record,h.built,h.core.setMarker content,h.markerMeta,h.fresh.of_eq rfl⟩

end

/-- Before the swap of an activation the built record stays in hand. -/
def MarkKeeps (retain : Bool) (program : Deploy Unit) : Prop :=
  ∀ state disk, BuiltMarks retain state disk →
    Wp (MarkSafe retain) program (fun _ => BuiltMarks retain state) (fun _ => MarkSafe retain) disk

/-- Such steps follow one another. -/
theorem MarkKeeps.bind {program : Deploy Unit} {next : Unit → Deploy Unit}
    (h : MarkKeeps retain program) (hnx : ∀ a, MarkKeeps retain (next a)) :
    MarkKeeps retain (program >>= next) := fun state disk hbui =>
  (h state disk hbui).seq fun a left hlf => hnx a state left hlf

/-- Nothing is done. -/
theorem markKeeps_pure : MarkKeeps retain (pure ()) := fun _ _ hbui => wp_pure.mpr hbui

/-- A check keeps the built record in hand. -/
theorem markKeeps_check {fact : Bool} {e : Exit} : MarkKeeps retain (check fact e) :=
  fun _ _ hbui => wp_check.mpr ⟨fun _ => hbui,fun _ => hbui.safe⟩

/-- An error leaves the markers safe. -/
theorem markKeeps_fail {e : Exit} : MarkKeeps retain (fail e) :=
  fun _ _ hbui => wp_fail.mpr hbui.safe

theorem markKeeps_helperWrites {contents : List (Option Content)} :
    MarkKeeps retain (onMarkers (helperWrites contents)) := by
  intro state disk hbui
  refine wp_onMarkers.mpr ((wp_helperWrites (E := fun _ _ => False)).imp (fun markers hmar => ?_)
    (fun _ markers hmar => ?_) fun _ _ hfl => hfl.elim)
  · obtain ⟨content,rfl⟩ := hmar
    exact (hbui.rewrite content).safe
  · obtain ⟨content,rfl⟩ := hmar
    exact hbui.rewrite content

/-- The marker is put back. -/
theorem BuiltMarks.wp_restored (h : BuiltMarks retain state disk)
    (hps : ∀ markers, BuiltMarks retain state (setMarkers markers disk) →
      Untouched (liveId (some state)) markers → Q () (setMarkers markers disk)) :
    Wp (MarkSafe retain) (onLiveMarkers (restoreMarker retain torn)) Q E disk := by
  rw [wp_onLiveMarkers,h.record,wp_onMarkers]
  refine (wp_restoreMarker (E := fun _ _ => False) h.core.snaps).imp (fun after haft => ?_)
    (fun _ after haft => ?_) fun _ _ hfl => hfl.elim
  · obtain ⟨content,rfl,-⟩ := haft
    exact (h.rewrite content).safe
  · obtain ⟨⟨content,rfl,-⟩,hbk⟩ := haft
    refine hps _ (h.rewrite content) fun other hot => ?_
    exact hbk other hot (.inl (h.markerMeta (h.core.retain_of_snapped hot)))

/-- Putting the marker back keeps the built record in hand. -/
theorem markKeeps_restoreMarker :
    MarkKeeps retain (onLiveMarkers (restoreMarker retain torn)) :=
  fun _ _ hbui => hbui.wp_restored fun _ haft _ => haft

/-- Retention keeps the built record in hand. -/
theorem markKeeps_retention {choice : ActivateChoice} :
    MarkKeeps retain (retention retain choice) := by
  have hsav : MarkKeeps retain (retainSave retain choice) := by
    unfold retainSave
    split
    · exact markKeeps_restoreMarker.bind fun _ => markKeeps_helperWrites.bind
        fun _ => markKeeps_check
    · exact markKeeps_pure
  have hcar : MarkKeeps retain (carryServer retain choice) := by
    unfold carryServer
    split
    · exact markKeeps_restoreMarker.bind fun _ => markKeeps_fail
    · exact markKeeps_pure
  have hres : MarkKeeps retain (retainRestore retain choice) := by
    unfold retainRestore
    split
    · exact markKeeps_helperWrites.bind fun _ => markKeeps_check
    · exact markKeeps_pure
  exact hsav.bind fun _ => hcar.bind fun _ => hres

theorem BuiltMarks.wp_smokeCandidate {choice : ActivateChoice} (h : BuiltMarks retain state disk) :
    Wp (MarkSafe retain) (smokeCandidate retain choice state) (fun _ => BuiltMarks retain state)
      (fun _ => MarkSafe retain) disk := by
  unfold smokeCandidate
  split
  · exact wp_pure.mpr h
  refine wp_bind.mpr (h.wp_restored fun markers haft hunt => ?_)
  have hsav : MarkSafe retain (setRecord {state with state := .buildFailed}
      (setMarkers markers disk)) :=
    markSafe_of_state rfl Phase.noConfusion (marks_of_phase rfl haft.core hunt)
  simp only [wp_bind,wp_save,wp_fail]
  exact ⟨hsav,hsav⟩

/-- The marker of the release about to be displaced is kept. -/
theorem BuiltMarks.wp_kept (h : BuiltMarks retain state disk) :
    Wp (MarkSafe retain) (onLiveMarkers fun live => keepPrevMarker retain torn live
        (liveId (some state))) (fun _ left => BuiltMarks retain state left∧(retain=true→∃ content,
        Snapped left.markers (liveId (some state)) content ∧
          Kept left.markers (liveId (some state)) content)) (fun _ => MarkSafe retain) disk := by
  have hkee : ∀ after, KeptFor (liveId (some state)) disk.markers after →
      BuiltMarks retain state (setMarkers after disk) := by
    rintro after ⟨⟨files,rfl⟩,hoth⟩
    refine ⟨h.record,h.built,⟨h.core.snaps.of_eq rfl rfl (.inr ⟨rfl,rfl,rfl⟩),
      h.core.liveKnown,h.core.distinct,h.core.prevKnown,fun hret id hid => ?_⟩,
      h.markerMeta,h.fresh.of_eq rfl⟩
    obtain ⟨content,hsna,hkp⟩ := h.core.prevKept hret id hid
    have hne : id≠liveId (some state) := by
      rintro rfl
      exact h.core.distinct hid
    exact ⟨content,hsna,(hoth id hne).trans hkp⟩
  rw [wp_onLiveMarkers,h.record,wp_onMarkers]
  refine (wp_keepPrevMarker (E := fun _ _ => False) h.core.snaps).imp
    (fun after haft => (hkee after haft).safe) (fun _ after haft => ?_)
    fun _ _ hfl => hfl.elim
  refine ⟨hkee after haft.1,fun hret => ?_⟩
  obtain ⟨content,hsna,hkp⟩ := haft.2 hret (h.markerMeta hret)
  obtain ⟨⟨files,rfl⟩,-⟩ := haft.1
  exact ⟨content,hsna,hkp⟩

/-- A swap in hand has the markers of both ways out. -/
structure BothMarks (retain : Bool) (state : Record) (disk : Disk) : Prop where
  undone : Reversible retain state.undone disk.serial disk.markers
  completed : Marks retain (some (state.completed .activateFailed)) disk.serial disk.markers

theorem BuiltMarks.bothMarks (h : BuiltMarks retain state disk)
    (hkp : retain=true→∃ content, Snapped disk.markers (liveId (some state)) content ∧
      Kept disk.markers (liveId (some state)) content) :
    BothMarks retain state.activating disk := by
  have hold := stageId_oldLive state
  have hund : Marks retain (some state.activating.undone) disk.serial disk.markers :=
    marks_of_phase rfl h.core ⟨h.markerMeta,h.fresh⟩
  have hres : Restorable (liveId (some state.activating.undone)) disk.markers :=
    fun _ hcon => .inl (h.markerMeta (h.core.retain_of_snapped hcon))
  refine ⟨hund.reversible hres,marks_of_phase rfl ⟨h.core.snaps,
    h.fresh.known,?_,?_,?_⟩ ⟨_,rfl,rfl,?_,fun _ => h.fresh.unsnapped,nofun,nofun⟩⟩
  · exact fun heq => h.fresh.notLive ((Option.some.inj heq).symm.trans hold)
  · rintro id ⟨⟩
    exact (congrArg (Known disk.serial) hold).mpr h.core.liveKnown
  · intro hret id hid
    rw [← hold.symm.trans (Option.some.inj hid)]
    exact hkp hret
  · unfold isCompletedSwap
    simp [Record.completed,Record.activating,afterSwap,withState,unconfirmed]

end Retention

section Settle

variable {retain : Bool} {state : Record} {disk : Disk}

/-- The operation in hand is about to settle: whatever becomes of the marker
files, the root is safe while the completed record promises what they hold. -/
structure Settling (retain : Bool) (state : Record) (disk : Disk) : Prop where
  marks : Marks retain (some (state.completed .activateFailed)) disk.serial disk.markers
  enough : ∀ markers, Marks retain (some (state.completed .activateFailed)) disk.serial markers →
    MarkSafe retain (setMarkers markers disk)
  finals : FinalStates state

section
variable (h : Settling retain state disk)
include h

/-- Such a root's markers are safe. -/
theorem Settling.safe : MarkSafe retain disk :=
  h.enough disk.markers h.marks

/-- Other marker files under the same promise. -/
theorem Settling.withMarkers
    (hmar : Marks retain (some (state.completed .activateFailed)) disk.serial markers) :
    Settling retain state (setMarkers markers disk) :=
  ⟨hmar,h.enough,h.finals⟩

theorem Settling.operation :
    ∃ operation, state.inflight=some operation ∧
      Unconfirmed retain (state.completed .activateFailed) disk.markers operation := by
  obtain ⟨operation,hope⟩ := h.marks.phase_eq rfl
  exact ⟨operation,hope.inflight,hope⟩

end

/-- What a settling operation has done about the marker of its release. -/
def MarkerBack (retain : Bool) (operation : Inflight) (markers : Markers) : Prop :=
  operation.kind=.restore → retain=true→∃ content, Snapped markers operation.stageId content ∧
      RestoresTo markers operation.stageId content∧markers.marker=content

/-- An unconfirmed release under other marker files. -/
theorem Unconfirmed.of_eq {operation : Inflight}
    (h : Unconfirmed retain state markers operation) (hsna : after.snapped=markers.snapped)
    (hres : operation.kind=.restore → retain=true→∃ content,
      Snapped markers operation.stageId content∧RestoresTo after operation.stageId content) :
    Unconfirmed retain state after operation := by
  refine ⟨h.inflight,h.stage,h.resumable,fun hkd content hcon => ?_,h.last,fun hkd hret => ?_⟩
  · unfold Snapped at hcon
    rw [hsna] at hcon
    exact h.activated hkd content hcon
  · obtain ⟨content,hcon,hbk⟩ := hres hkd hret
    refine ⟨content,?_,hbk⟩
    unfold Snapped at hcon ⊢
    rw [hsna]
    exact hcon

/-- A restore puts the marker of its release back and notes what it found. -/
theorem Settling.wp_enterRestore {operation : Inflight} (h : Settling retain state disk)
    (hinf : state.inflight=some operation)
    (hps : ∀ markers, Settling retain state (setMarkers markers disk) →
      MarkerBack retain operation markers → Q () (setMarkers markers disk)) :
    Wp (MarkSafe retain) (enterRestore retain torn operation) Q E disk := by
  obtain ⟨other,hot,hunc⟩ := h.operation
  have heq : other=operation := Option.some.inj (hot.symm.trans hinf)
  subst heq
  unfold enterRestore
  split_ifs with hkd
  · have hmarks : ∀ after, (∃ content, after=setMarker content disk.markers) →
        (retain=true→∃ content, Snapped disk.markers other.stageId content ∧
          RestoresTo after other.stageId content) →
        Marks retain (some (state.completed .activateFailed)) disk.serial after := by
      rintro after ⟨content,rfl⟩ hbk
      exact marks_of_phase rfl (h.marks.core.setMarker content) ⟨other,hunc.of_eq rfl fun _ => hbk⟩
    refine wp_bind.mpr (wp_onMarkers.mpr ((wp_restorePrevMarker (E := fun _ _ => False)
      (hunc.restored hkd)).imp (fun after haft => h.enough after
        (hmarks after haft.1 haft.2)) (fun _ after haft => ?_) fun _ _ hfl => hfl.elim))
    obtain ⟨hmar,hbk⟩ := haft
    have hmark := hmarks after hmar fun hret => by
      obtain ⟨content,hsnap,hrest,-⟩ := hbk hret
      exact ⟨content,hsnap,hrest⟩
    obtain ⟨content,rfl⟩ := hmar
    have hnot : Marks retain (some (state.completed .activateFailed)) disk.serial
        {setMarker content disk.markers with entered :=
          disk.markers.entered++[(other.stageId,content)]} := by
      obtain ⟨⟨hsna,hlv,hdis,hpv,hkp⟩,hph⟩ := hmark
      refine ⟨⟨⟨hsna.off,hsna.known,hsna.agree,hsna.files,fun hret entry hent => ?_⟩,
        hlv,hdis,hpv,hkp⟩,?_⟩
      · rcases mem_append.mp hent with hold|hnew
        · exact hsna.entered hret entry hold
        obtain ⟨found,hsnap,-,hfd⟩ := hbk hret
        have hequ : content=found := hfd
        rw [mem_singleton.mp hnew,hequ]
        exact hsnap
      · obtain ⟨again,haga⟩ := hph
        exact ⟨again,haga.of_eq rfl haga.restored⟩
    refine wp_onMarkers.mpr (wp_write.mpr ⟨h.enough _ hnot,?_⟩)
    exact hps _ (h.withMarkers hnot) fun _ hret => hbk hret
  · exact wp_pure.mpr (hps disk.markers h fun hres => absurd hres hkd)

theorem Settling.failed (failState : Phase) (h : Settling retain state disk)
    (hfai : failState∈unconfirmed) :
    MarkSafe retain (setRecord (state.completed failState) disk) := by
  obtain ⟨operation,hope⟩ := h.marks.phase_eq rfl
  have hid : liveId (some (state.completed failState)) =
      liveId (some (state.completed .activateFailed)) := by
    unfold liveId Record.completed
    rw [Option.bind_some,Option.bind_some,liveId_withState,liveId_withState]
  have hcor : Core retain (liveId (some (state.completed failState)))
      (prevId (some (state.completed failState))) disk.serial disk.markers := by
    rw [hid]
    exact h.marks.core
  have hres : isCompletedSwap (some (state.completed failState))=true := by
    have hbef := hope.resumable
    unfold isCompletedSwap at hbef ⊢
    unfold Record.completed at hbef ⊢
    dsimp only at hbef ⊢
    have hinf : (afterSwap state).inflight=some operation := hope.inflight
    rw [hinf] at hbef ⊢
    rw [liveId_withState] at hbef ⊢
    rw [contains_iff_mem.mpr hfai]
    rw [Bool.and_eq_true,Bool.and_eq_true] at hbef ⊢
    exact ⟨⟨rfl,hbef.1.2⟩,hbef.2⟩
  have hph : Unconfirmed retain (state.completed failState) disk.markers operation :=
    hope.transfer rfl hid rfl hres
  cases failState with
  | activateFailed | smokeFailed =>
    exact markSafe_of_state rfl Phase.noConfusion (marks_of_phase rfl hcor ⟨operation,hph⟩)
  | _ => simp [unconfirmed] at hfai

/-- Marker files do not depend on what was verified. -/
theorem MarkSafe.verify (h : MarkSafe retain disk) (verified : List StageId) :
    MarkSafe retain {disk with verified := verified} :=
  ⟨h.settled,h.undone,h.completed⟩

/-- Marker files do not depend on what was verified. -/
theorem Settling.verify (h : Settling retain state disk) (verified : List StageId) :
    Settling retain state {disk with verified := verified} :=
  ⟨h.marks,fun markers hmar => (h.enough markers hmar).verify verified,h.finals⟩

/-- Kept files follow the directory. -/
theorem prevFiles_of_eq {release : StageId} (h : after.markerPrevDir=markers.markerPrevDir) :
    prevFiles after release=prevFiles markers release := by
  unfold prevFiles
  rw [h]

variable {serial : ℕ}

/-- Retiring the snapshot keeps what the completed record promises. -/
theorem Marks.cleared {operation : Inflight}
    (h : Marks retain (some next) serial markers) (hst : next.state=.activateFailed)
    (hbk : MarkerBack retain operation markers) (haft : Cleared markers after) :
    Marks retain (some next) serial after∧MarkerBack retain operation after := by
  obtain ⟨hmar,hdir,hsna,hent,hmet⟩ := haft
  have hmem : ∀ release content, Snapped markers release content →
      Snapped after release content := by
    intro release content hcon
    unfold Snapped at hcon ⊢
    rw [hsna]
    exact hcon
  have hrest : ∀ release content, RestoresTo markers release content →
      RestoresTo after release content := by
    rintro release content (hkp|⟨hcon,hem⟩)
    · exact .inl ((prevFiles_of_eq hdir).trans hkp)
    · exact .inr ⟨hmar.trans hcon,(prevFiles_of_eq hdir).trans hem⟩
  obtain ⟨again,haga⟩ := h.phase_eq hst
  refine ⟨marks_of_phase hst ⟨h.core.snaps.of_eq hsna hent (.inl hmet),
    h.core.liveKnown,h.core.distinct,h.core.prevKnown,fun hret id hid => ?_⟩
    ⟨again,haga.of_eq hsna fun hkd hret => ?_⟩,fun hkd hret => ?_⟩
  · obtain ⟨content,hcon,hkp⟩ := h.core.prevKept hret id hid
    exact ⟨content,hmem _ _ hcon,(prevFiles_of_eq hdir).trans hkp⟩
  · obtain ⟨content,hcon,hres⟩ := haga.restored hkd hret
    exact ⟨content,hcon,hrest _ _ hres⟩
  · obtain ⟨content,hcon,hres,hfd⟩ := hbk hkd hret
    exact ⟨content,hmem _ _ hcon,hrest _ _ hres,hmar.trans hfd⟩

/-- Pruning the markers of other releases keeps those of the two. -/
theorem Core.pruned {live : StageId} {prev : Option StageId}
    (h : Core retain live prev serial markers)
    (haft : Pruned prev markers after) : Core retain live prev serial after := by
  obtain ⟨⟨files,rfl⟩,hkp,-⟩ := haft
  refine ⟨h.snaps.of_eq rfl rfl (.inr ⟨rfl,rfl,rfl⟩),h.liveKnown,h.distinct,h.prevKnown,
    fun hret id hid => ?_⟩
  obtain ⟨content,hcon,hfil⟩ := h.prevKept hret id hid
  exact ⟨content,hcon,(hkp id hid).trans hfil⟩

/-- A release whose marker is back may lose its kept one. -/
theorem Unconfirmed.pruned {keep : Option StageId}
    {operation : Inflight} (h : Unconfirmed retain state markers operation)
    (hbk : MarkerBack retain operation markers) (haft : Pruned keep markers after) :
    Unconfirmed retain state after operation∧MarkerBack retain operation after := by
  obtain ⟨⟨files,rfl⟩,-,hfew⟩ := haft
  have hrest : ∀ release content, RestoresTo markers release content→markers.marker=content →
      RestoresTo {markers with markerPrevDir := files} release content := by
    intro release content hres hfd
    have hsub : (prevFiles {markers with markerPrevDir := files} release).Sublist
        (prevFiles markers release) := hfew.filter _
    rcases hres with hfil|⟨-,hem⟩
    · rw [hfil] at hsub
      rcases sublist_singleton.mp hsub with hno|hone
      · exact .inr ⟨hfd,hno⟩
      · exact .inl hone
    · rw [hem] at hsub
      exact .inr ⟨hfd,sublist_nil.mp hsub⟩
  refine ⟨h.of_eq rfl fun hkd hret => ?_,fun hkd hret => ?_⟩
  · obtain ⟨content,hcon,hres,hfd⟩ := hbk hkd hret
    exact ⟨content,hcon,hrest _ _ hres hfd⟩
  · obtain ⟨content,hcon,hres,hfd⟩ := hbk hkd hret
    exact ⟨content,hcon,hrest _ _ hres hfd,hfd⟩

/-- Pruning the kept markers keeps what the completed record promises. -/
theorem Marks.pruned
    {operation : Inflight} (h : Marks retain (some next) serial markers)
    (hst : next.state=.activateFailed) (hinf : next.inflight=some operation)
    (hbk : MarkerBack retain operation markers) (haft : Pruned (prevId (some next)) markers after) :
    Marks retain (some next) serial after∧MarkerBack retain operation after := by
  obtain ⟨again,haga⟩ := h.phase_eq hst
  have heq : again=operation := Option.some.inj (haga.inflight.symm.trans hinf)
  subst heq
  obtain ⟨hunc,hmar⟩ := haga.pruned hbk haft
  exact ⟨marks_of_phase hst (h.core.pruned haft) ⟨again,hunc⟩,hmar⟩

section
variable (h : Settling retain state disk)
include h

theorem Settling.confirmed {operation : Inflight}
    (hinf : state.inflight=some operation) (hbk : MarkerBack retain operation disk.markers) :
    MarkSafe retain (setRecord (state.confirmed operation) disk) := by
  obtain ⟨other,hot,hunc⟩ := h.operation
  have heq : other=operation := Option.some.inj (hot.symm.trans hinf)
  subst heq
  have hfin := h.finals.1 other hinf
  have hid : liveId (some (state.confirmed other)) =
      liveId (some (state.completed .activateFailed)) := by
    unfold liveId Record.confirmed Record.completed
    rw [Option.bind_some,Option.bind_some,liveId_withState,liveId_withState]
  refine markSafe_of_state rfl ?_ (marks_of_purgeable hfin ?_ fun content hcon => ?_)
  · change other.finalState≠.activating
    intro hact
    rw [hact] at hfin
    simp [purgeable] at hfin
  · rw [hid]
    exact h.marks.core
  · rw [hid,← hunc.stage] at hcon
    cases hkd : other.kind with
    | activate => exact absurd hcon (hunc.activated hkd content)
    | restore =>
      obtain ⟨found,hsna,-,hfd⟩ := hbk hkd (h.marks.core.retain_of_snapped hcon)
      exact hfd.trans (h.marks.core.snaps.agree _ _ _ hsna hcon)

theorem Settling.wp_settlePassed {operation : Inflight}
    (hinf : state.inflight=some operation) (hbk : MarkerBack retain operation disk.markers) :
    Always (MarkSafe retain) (settlePassed state operation) disk := by
  refine Wp.seq (Q := fun _ start => Settling retain state start∧start.markers=disk.markers)
    (wp_write.mpr ?_) fun _ start hsta => ?_
  · have hset : ∀ start, Settling retain state start→start.markers=disk.markers →
        MarkSafe retain start∧Settling retain state start∧start.markers=disk.markers :=
      fun start hsta hmar => ⟨hsta.safe,hsta,hmar⟩
    cases hlv : disk.trees.live with
    | none => exact hset disk h rfl
    | some tree =>
      cases tree with
      | remnant => exact hset disk h rfl
      | release => exact hset _ (h.verify _) rfl
  obtain ⟨hsta,hmark⟩ := hsta
  rw [← hmark] at hbk
  refine wp_bind.mpr (wp_onMarkers.mpr ?_)
  have hcle : ∀ after, Cleared start.markers after →
      Settling retain state (setMarkers after start)∧MarkerBack retain operation after := by
    intro after haft
    obtain ⟨hmar,haga⟩ := hsta.marks.cleared rfl hbk haft
    exact ⟨hsta.withMarkers hmar,haga⟩
  refine (wp_clearMarkerSnapshot (E := fun _ _ => False)).imp
    (fun after haft => (hcle after haft).1.safe) (fun _ after haft => ?_) fun _ _ hfl => hfl.elim
  obtain ⟨hclea,hclearedBack⟩ := hcle after haft.1
  have hprune : ∀ markers, Pruned (prevId (some (state.completed .activateFailed))) after markers →
      Settling retain state (setMarkers markers (setMarkers after start)) ∧
        MarkerBack retain operation markers := by
    intro markers hpru
    obtain ⟨hmar,haga⟩ := hclea.marks.pruned rfl hinf hclearedBack hpru
    exact ⟨hclea.withMarkers hmar,haga⟩
  refine wp_bind.mpr (wp_onMarkers.mpr ((wp_pruneMarkers (E := fun _ _ => False)).imp
    (fun markers hpru => (hprune markers hpru).1.safe) (fun _ markers hpru => ?_)
    fun _ _ hfl => hfl.elim))
  obtain ⟨hset,haga⟩ := hprune markers hpru
  simp only [wp_bind,wp_save,wp_pure]
  exact ⟨hset.confirmed hinf haga,hset.confirmed hinf haga⟩

theorem Settling.wp_settle {launch : Launch} :
    Always (MarkSafe retain) (settle retain torn launch state) disk := by
  obtain ⟨operation,hinf,-⟩ := h.operation
  unfold settle
  rw [hinf]
  refine wp_bind.mpr (h.wp_enterRestore hinf fun markers hset hbk => ?_)
  cases launch with
  | smokeFailed | failed =>
    exact wp_failedLaunch (hset.failed _ (by simp [unconfirmed]))
  | passed => exact hset.wp_settlePassed hinf hbk

end

end Settle

end SellRight.DeployMarkerSafety
