import SellRight.DeploySwaps

/-!
# The last verified release is never destroyed

Each deploy command keeps a root safe at every durable write, so a root reached
by any sequence of commands, failures and kills has a verified tree, and recovery
leaves the trees settled under the recorded ids.
-/

namespace SellRight.DeploySafety

open List

open CrashSteps CrashSteps.Program DeployRecord DeployMarker DeployEntry DeploySwaps RunHistory

variable {e : Exit} {torn : Content} {choice : ActivateChoice}

section Settle

variable {retain : Bool} {state : Record} {trees : Trees} {disk : Disk}
  {verified more : List StageId}

/-- The renames of the record in hand are in effect, its operation unconfirmed. -/
structure Arrived (state : Record) (disk : Disk) : Prop where
  safe : Safe disk
  finals : FinalStates state
  live : (afterSwap state).live.isSome
  holds : Holds (liveId (some (afterSwap state))) (prevId (some (afterSwap state)))
    disk.trees disk.verified

theorem liveId_withState (failState : Phase) (release : Option Release) :
    ((withState failState release).map (·.stageId))=release.map (·.stageId) := by
  cases release <;> rfl

section
variable (h : Arrived state disk)
include h

/-- A failed bring-up leaves the trees settled under the failed record. -/
theorem Arrived.settled_completed (failState : Phase) (hfai : failState∈unconfirmed) :
    Settled (some (state.completed failState)) disk.trees disk.verified := by
  obtain ⟨live,hlv⟩ := Option.isSome_iff_exists.mp h.live
  have hid : liveId (some (state.completed failState))=liveId (some (afterSwap state)) :=
    congrArg (fun id => Option.getD id StageId.legacy) (liveId_withState failState _)
  refine ⟨?_,fun hall => ?_,?_,?_⟩
  · rw [hid]
    exact h.holds
  · have hmar := hall _ rfl
    have hunc : liveUnconfirmed (state.completed failState)=true := by
      have hnow : (state.completed failState).live =
          some {live with lastState := some failState} := by
        change withState failState (afterSwap state).live=_
        rw [hlv]
        rfl
      unfold liveUnconfirmed
      rw [hnow]
      exact contains_iff_mem.mpr hfai
    rw [hunc] at hmar
    cases hmar
  · rintro other ⟨⟩ hpur
    change failState∈purgeable at hpur
    cases failState <;> simp_all [unconfirmed,purgeable]
  · rintro other ⟨⟩ hbui
    subst hbui
    simp [unconfirmed] at hfai

/-- A passed bring-up leaves the trees settled under the confirmed record. -/
theorem Arrived.settled_confirmed {activation : Inflight}
    (hinf : state.inflight=some activation) (hver : liveId (some (afterSwap state))∈disk.verified) :
    Settled (some (state.confirmed activation)) disk.trees disk.verified := by
  have hfin := h.finals.1 activation hinf
  have hid : liveId (some (state.confirmed activation))=liveId (some (afterSwap state)) :=
    congrArg (fun id => Option.getD id StageId.legacy) (liveId_withState activation.finalState _)
  refine ⟨?_,fun _ => ?_,fun _ _ _ => ?_,?_⟩
  · rw [hid]
    exact h.holds
  · rw [hid]
    exact hver
  · rw [hid]
    exact hver
  · rintro other ⟨⟩ hbui
    change activation.finalState=.built at hbui
    rw [hbui] at hfin
    simp [purgeable] at hfin

/-- The live tree passed its smoke. -/
theorem Arrived.noted : Arrived state (noted disk) ∧
    (noted disk).verified=disk.verified++[liveId (some (afterSwap state))] := by
  have hver : (DeployEntry.noted disk).verified=disk.verified++[liveId (some (afterSwap state))] := by
    rw [DeployEntry.noted,h.holds.live]
  have hsub : disk.verified ⊆ (DeployEntry.noted disk).verified :=
    hver ▸ subset_append_left _ _
  exact ⟨⟨h.safe.verify hsub,h.finals,h.live,h.holds.mono hsub⟩,hver⟩

/-- Settling an operation whose renames are in effect keeps a root safe. -/
theorem Arrived.wp_settle {launch : Launch} :
    Always Safe (settle retain torn launch state) disk := by
  cases hinf : state.inflight with
  | none =>
    rw [settle,hinf]
    exact wp_fail.mpr h.safe
  | some activation =>
    obtain ⟨hnot,hver⟩ := h.noted
    refine (wp_settle_saved hinf h.safe.withMarkers (fun failState hfai markers => ?_)
      fun markers => ⟨hnot.safe.withMarkers markers,?_⟩).post fun _ _ haft => haft.1
    · refine .of_settled rfl h.finals ?_ (h.settled_completed failState hfai)
      rintro rfl
      simp [unconfirmed] at hfai
    · have hfin := h.finals.1 activation hinf
      refine .of_settled rfl ⟨fun _ hno => (by cases hno),fun _ hno => (by cases hno)⟩ ?_
        (hnot.settled_confirmed hinf (hver ▸ mem_concat_self))
      change activation.finalState≠.activating
      intro hact
      rw [hact] at hfin
      simp [purgeable] at hfin

end

end Settle

section Build

variable {retain : Bool} {state : Record} {trees : Trees} {disk : Disk} {verified : List StageId}

/-- A build in hand. -/
structure Building (state : Record) (disk : Disk) : Prop where
  record : disk.record=some state
  building : state.state=.building
  finals : FinalStates state
  settled : Settled (some state) disk.trees disk.verified

section
variable (h : Building state disk)
include h

/-- Such a root is safe. -/
theorem Building.safe : Safe disk := by
  refine Safe.of_settled h.record h.finals ?_ h.settled
  rw [h.building]
  exact Phase.noConfusion

/-- Marker files do not matter. -/
theorem Building.withMarkers (markers : Markers) : Building state (setMarkers markers disk) :=
  ⟨h.record,h.building,h.finals,h.settled⟩

/-- The stage does not matter. -/
theorem Building.putNext (tree : Option Tree) :
    Building state (setTrees (disk.trees.put tree .next) disk) := by
  refine ⟨h.record,h.building,h.finals,h.settled.putNext ?_⟩
  rw [h.building]
  exact Phase.noConfusion

theorem Building.saved {next : Record} (hlv : next.live=state.live) (hpv : next.prev=state.prev)
    (hfin : FinalStates next) (hact : next.state≠.activating) (hpur : next.state∉purgeable)
    (hbui : next.state=.built→disk.trees.next=some (.release next.stageId)) :
    Safe (setRecord next disk) :=
  Safe.of_settled rfl hfin hact (h.settled.restate hlv hpv (fun hst => absurd hst hpur) hbui)

theorem Building.wp_buildFailed :
    Always Safe (buildFailed retain torn e) disk := by
  have hsav : ∀ markers, Safe (setRecord {state with state := .buildFailed}
      (setMarkers markers disk)) := fun markers =>
    (h.withMarkers markers).saved rfl rfl h.finals Phase.noConfusion (by simp [purgeable])
      Phase.noConfusion
  unfold buildFailed
  refine wp_bind.mpr (wp_onLiveMarkers.mpr ?_)
  refine h.safe.wp_onMarkers (fun markers => ?_) fun _ => h.safe.withMarkers
  have hrec : (setMarkers markers disk).record=some state := h.record
  refine wp_read ?_
  rw [hrec]
  simp only [wp_bind,wp_save,wp_fail]
  exact ⟨hsav markers,hsav markers⟩

/-- A seeded build keeps a root safe; where it fails the build is still in hand. -/
theorem Building.wp_composeStage {choice : BuildChoice}
    (hnx : disk.trees.next=some (.release state.stageId)) :
    Wp Safe (composeStage retain choice state) (fun _ => Safe)
      (fun _ left => ∃ state, Building state left) disk := by
  refine wp_guard (fun _ => ?_) ⟨state,h⟩
  rw [wp_bind,wp_onLiveMarkers]
  refine h.safe.wp_onMarkers (fun first => ?_) fun _ markers => ⟨state,h.withMarkers markers⟩
  set sourced : Record := {state with source := some (.compose choice.historyId)}
  have hsou : Building sourced (setRecord sourced (setMarkers first disk)) :=
    ⟨rfl,h.building,h.finals,h.settled.restate rfl rfl (fun hst => ⟨state,rfl,hst⟩) fun _ => hnx⟩
  refine wp_bind.mpr (wp_save.mpr ⟨hsou.safe,wp_bind.mpr ?_⟩)
  refine hsou.safe.wp_onMarkers (fun second => ?_) fun _ markers => ⟨_,hsou.withMarkers markers⟩
  have hbui : Safe (setRecord {sourced with state := .built}
      (setMarkers second (setRecord sourced (setMarkers first disk)))) :=
    (hsou.withMarkers second).saved rfl rfl h.finals Phase.noConfusion (by simp [purgeable])
      fun _ => hnx
  simp only [wp_bind,wp_check,wp_save,wp_pure]
  exact ⟨fun _ => ⟨fun _ => ⟨hbui,hbui⟩,fun _ => ⟨_,hsou.withMarkers second⟩⟩,
    fun _ => ⟨_,hsou.withMarkers second⟩⟩

/-- The steps of a build keep a root safe; where they fail the build is still in hand. -/
theorem Building.wp_buildStage {choice : BuildChoice} :
    Wp Safe (buildStage retain choice state) (fun _ => Safe)
      (fun _ left => ∃ state, Building state left) disk :=
  Wp.seq (Q := fun _ => Building state) (wp_removeTree (fun _ => h) (h.putNext _).safe
    ⟨(h.putNext none).safe,h.putNext none⟩) fun _ _ hsta => wp_bind.mpr (wp_write.mpr
      ⟨(hsta.putNext _).safe,(hsta.putNext _).wp_composeStage rfl⟩)

end

theorem building_newState (source : Option Source) (stageId : StageId) (serial : ℕ)
    (h : Settled disk.record disk.trees disk.verified) :
    Building (newState stageId source disk.record)
      {disk with record := some (newState stageId source disk.record),serial := serial} :=
  ⟨rfl,rfl,⟨fun _ h => (nomatch h),fun _ h => nomatch h⟩,
    h.restate rfl rfl (fun hst => by simp [newState,purgeable] at hst)
      Phase.noConfusion⟩

theorem wp_build {choice : BuildChoice} (h : Safe disk) :
    Always Safe (build retain choice) disk := by
  unfold build saveStage
  simp only [wp_bind,wp_fetch,wp_check,wp_write,wp_pure,wp_handle]
  refine ⟨fun hidl => ⟨fun _ => ⟨fun _ => ⟨fun _ => ⟨fun _ => ?_,fun _ => h⟩,fun _ => h⟩,
    fun _ => h⟩,fun _ => h⟩,fun _ => h⟩
  have hbui := building_newState none (.stage disk.serial) (disk.serial+1) (h.settled_of_idle hidl)
  refine ⟨hbui.safe,hbui.wp_buildStage.imp (fun _ hsf => hsf)
    (fun _ _ hsf => hsf) fun _ left hlf => ?_⟩
  obtain ⟨state,hst⟩ := hlf
  exact hst.wp_buildFailed

end Build

section Commands

variable {retain : Bool} {kind : SwapKind} {state : Record} {disk : Disk}

/-- A record in hand over settled trees. -/
structure Standing (state : Record) (disk : Disk) : Prop where
  record : disk.record=some state
  idle : state.state≠.activating
  finals : FinalStates state
  settled : Settled (some state) disk.trees disk.verified

/-- Such a root is safe. -/
theorem Standing.safe (h : Standing state disk) : Safe disk :=
  Safe.of_settled h.record h.finals h.idle h.settled

/-- Marker files do not matter. -/
theorem Standing.withMarkers (h : Standing state disk) (markers : Markers) :
    Standing state (setMarkers markers disk) :=
  ⟨h.record,h.idle,h.finals,h.settled⟩

theorem standing_of_idle (h : Safe disk) (hrec : disk.record=some state)
    (hidl : idle disk.record=true) : Standing state disk := by
  have hset := h.settled_of_idle hidl
  rw [hrec] at hset hidl
  refine ⟨hrec,fun hact => ?_,h.finals state hrec,hset⟩
  simp [idle,hact] at hidl

variable {program : MarkerProgram}

/-- Work on the marker files keeps the record in hand. -/
theorem Standing.wp_onMarkers {E : Exit → Disk → Prop}
    (h : Standing state disk) (her : ∀ e markers, E e (setMarkers markers disk)) :
    Wp Safe (onMarkers program) (fun _ => Standing state) E disk :=
  h.safe.wp_onMarkers h.withMarkers her

/-- A step of an activation before its swap: the record stays in hand. -/
def Keeps (program : Deploy Unit) : Prop := ∀ state disk, Standing state disk →
    Wp Safe program (fun _ => Standing state) (fun _ => Safe) disk

/-- Such steps follow one another. -/
theorem Keeps.bind {program : Deploy Unit} {next : Unit → Deploy Unit} (h : Keeps program)
    (hnx : ∀ a, Keeps (next a)) : Keeps (program >>= next) := fun state disk hsta =>
  (h state disk hsta).seq fun a left hlf => hnx a state left hlf

/-- Nothing is done. -/
theorem keeps_pure : Keeps (pure ()) := fun _ _ hsta => wp_pure.mpr hsta

theorem keeps_check {fact : Bool} : Keeps (check fact e) := fun _ _ hsta =>
  wp_check.mpr ⟨fun _ => hsta,fun _ => hsta.safe⟩

/-- An error leaves the root safe. -/
theorem keeps_fail : Keeps (fail e) := fun _ _ hsta => wp_fail.mpr hsta.safe

/-- Work on the marker files keeps the record in hand. -/
theorem keeps_onMarkers : Keeps (onMarkers program) :=
  fun _ _ hsta => hsta.wp_onMarkers fun _ => hsta.safe.withMarkers

/-- So does such work for the live release. -/
theorem keeps_onLiveMarkers {program : StageId → MarkerProgram} :
    Keeps (onLiveMarkers program) := fun _ _ hsta =>
  wp_onLiveMarkers.mpr (keeps_onMarkers _ _ hsta)

theorem keeps_retention : Keeps (retention retain choice) := by
  have hsav : Keeps (retainSave retain choice) := by
    unfold retainSave
    split
    · exact keeps_onLiveMarkers.bind fun _ => keeps_onMarkers.bind fun _ => keeps_check
    · exact keeps_pure
  have hcar : Keeps (carryServer retain choice) := by
    unfold carryServer
    split
    · exact keeps_onLiveMarkers.bind fun _ => keeps_fail
    · exact keeps_pure
  have hres : Keeps (retainRestore retain choice) := by
    unfold retainRestore
    split
    · exact keeps_onMarkers.bind fun _ => keeps_check
    · exact keeps_pure
  exact hsav.bind fun _ => hcar.bind fun _ => hres

/-- A failed candidate is marked without touching a tree. -/
theorem Standing.wp_smokeCandidate (h : Standing state disk) :
    Wp Safe (smokeCandidate retain choice state) (fun _ => Standing state) (fun _ => Safe)
      disk := by
  unfold smokeCandidate
  split
  · exact wp_pure.mpr h
  rw [wp_bind,wp_onLiveMarkers]
  refine h.safe.wp_onMarkers (fun markers => ?_) fun _ => h.safe.withMarkers
  have hsav : Safe (setRecord {state with state := .buildFailed} (setMarkers markers disk)) :=
    Safe.of_settled rfl h.finals Phase.noConfusion
      (h.settled.restate rfl rfl (fun hst => by simp [purgeable] at hst) Phase.noConfusion)
  simp only [wp_bind,wp_save,wp_fail]
  exact ⟨hsav,hsav⟩

theorem stageId_oldLive (state : Record) :
    (state.live.getD ⟨.legacy,some (.bare "legacy"),none⟩).stageId=liveId (some state) := by
  unfold liveId
  cases hlv : state.live <;> simp [hlv]

/-- The intent of an activation puts a swap in hand. -/
theorem Standing.inHand_activating (h : Standing state disk) (hbui : state.state=.built)
    (hcon : liveUnconfirmed state=false) : InHand .activate state.activating
      {disk with record := some state.activating,base := disk.trees} := by
  obtain ⟨⟨hrem,hlv,-,-,-⟩,hver,-,hnx⟩ := h.settled
  have hsta := hnx state rfl hbui
  have hold := stageId_oldLive state
  refine ⟨rfl,⟨?_,h.finals.1⟩,rfl,⟨hrem,?_,?_⟩,.start,.inl ⟨rfl,rfl⟩,?_,?_,rfl,
    ⟨_,rfl,rfl,rfl⟩,⟨rfl,hsta,?_,?_,.inr rfl⟩⟩
  · rintro inflight ⟨⟩
    simp [purgeable]
  · rw [hlv]
    rfl
  · change disk.trees.next.isSome=true
    rw [hsta]
    rfl
  · exact h.settled.restate rfl rfl (fun hst => by simp [Record.undone,Record.activating,
      purgeable] at hst) fun _ => hsta
  · exact Phase.noConfusion
  · exact hlv.trans (congrArg (some ∘ Tree.release) hold.symm)
  · rintro id ⟨⟩
    refine (congrArg (·∈disk.verified) hold).mpr (hver ?_)
    rintro other ⟨⟩
    exact hcon

/-- The intent of a restore puts a swap in hand. -/
theorem Standing.inHand_restoring {prev : Release} (h : Standing state disk)
    (hprevious : state.prev=some prev) : InHand .restore (state.restoring prev)
      {disk with record := some (state.restoring prev),base := disk.trees} := by
  obtain ⟨⟨hrem,hlv,hpv,hpre,hfal⟩,-,-,hnx⟩ := h.settled
  have hid : prevId (some state)=some prev.stageId := by
    unfold prevId
    rw [Option.bind_some,hprevious]
    rfl
  rw [hid] at hpv hpre
  refine ⟨rfl,⟨?_,h.finals.1⟩,rfl,⟨hrem,?_,?_⟩,.start,.inl ⟨rfl,rfl⟩,?_,?_,rfl,
    ⟨_,rfl,rfl,rfl⟩,⟨rfl,hpv,rfl,nofun,.inl (hpre _ rfl)⟩⟩
  · rintro inflight ⟨⟩
    simp [purgeable]
  · rw [hlv]
    rfl
  · change disk.trees.prev.isSome=true
    rw [hpv]
    rfl
  · exact h.settled.restate rfl rfl (fun hst => ⟨state,rfl,hst⟩) (hnx state rfl)
  · exact h.idle

/-- After its renames an operation is ready to settle. -/
theorem arrived_of_landed {after : Record} {left : Disk} (h : Landed kind state disk after left) :
    Arrived after left := by
  obtain ⟨hin,-,hlf⟩ := h
  refine ⟨hin.safe,hin.finals,?_,?_⟩
  · obtain ⟨pending,hpen⟩ := Option.isSome_iff_exists.mp hin.swapping.pending
    unfold afterSwap
    rw [hpen]
    rfl
  · have htre : left.trees=swappedTrees kind left.base := by
      rw [hlf]
      rfl
    rw [htre]
    exact hin.swapping.completed

theorem wp_swap {launch : Launch} {ops : List RenameOp}
    (h : InHand kind state disk) (hops : ops=kindOps kind) (hsta : disk.trees=disk.base) :
    Always Safe (runOps state ops >>= settle retain torn launch) disk := by
  subst hops
  exact (h.wp_runOps hsta).seq fun _ _ hlan => (arrived_of_landed hlan).wp_settle

/-- An activation of a record in hand keeps the root safe. -/
theorem Standing.wp_activateState (h : Standing state disk) :
    Always Safe (activateState retain choice state) disk := by
  refine wp_guard (fun hbui => ?_) h.safe
  refine wp_guard (fun hcon => ?_) h.safe
  refine wp_read (wp_guard (fun _ => ?_) h.safe)
  refine wp_guard (fun _ => ?_) h.safe
  refine (keeps_retention state disk h).seq fun _ retained hret => ?_
  refine hret.wp_smokeCandidate.seq fun _ smoked hsmo => ?_
  refine wp_guard (fun _ => ?_) hsmo.safe
  refine (keeps_onLiveMarkers state smoked hsmo).seq fun _ kept hkp => ?_
  have hhan := hkp.inHand_activating (of_decide_eq_true hbui) (by simpa using hcon)
  exact wp_bind.mpr (wp_saveIntent.mpr ⟨hhan.safe,wp_swap hhan rfl rfl⟩)

theorem wp_activate (h : Safe disk) :
    Always Safe (activate retain choice) disk := by
  refine wp_onIdle (fun _ => h) fun _ hrec hidl => ?_
  exact (standing_of_idle h hrec hidl).wp_activateState

theorem wp_purge {choice : PurgeChoice} (h : Safe disk) :
    Always Safe (purge choice) disk := by
  refine (wp_purge_saved h fun state next hrec hidl hpur hnx => ?_).post fun _ _ haft => haft.1
  have hsta := standing_of_idle h hrec hidl
  have hver := hsta.settled.purgeable state rfl hpur
  have hid : liveId (some {state with state := next,live := withState next state.live}) =
      liveId (some state) :=
    congrArg (fun id => Option.getD id StageId.legacy) (liveId_withState next state.live)
  refine .of_settled rfl hsta.finals ?_ ⟨?_,fun _ => ?_,fun _ _ _ => ?_,?_⟩
  · rintro ⟨⟩
    simp at hnx
  · rw [hid]
    exact hsta.settled.holds
  · rw [hid]
    exact hver
  · rw [hid]
    exact hver
  · rintro other ⟨⟩ ⟨⟩
    simp at hnx

theorem wp_deploy {building : BuildChoice} {activating : ActivateChoice} {purging : PurgeChoice}
    (h : Safe disk) :
    Always Safe (deploy retain building activating purging) disk := by
  refine (wp_build h).seq fun _ built hbui => ?_
  exact (wp_activate hbui).seq fun _ active hact => wp_purge hact

/-- A completed swap is ready to settle again. -/
theorem Standing.arrived (h : Standing state disk)
    (hcom : isCompletedSwap (some state)=true) : Arrived state disk := by
  unfold isCompletedSwap at hcom
  dsimp only at hcom
  cases hinf : state.inflight with
  | none =>
    rw [hinf] at hcom
    cases hcom
  | some =>
    rw [hinf] at hcom
    simp only [Bool.and_eq_true,Option.isNone_iff_eq_none,beq_iff_eq] at hcom
    obtain ⟨⟨-,hpen⟩,hlv⟩ := hcom
    have heq : (afterSwap state).live=state.live∧(afterSwap state).prev=state.prev := by
      unfold afterSwap
      rw [hpen]
      exact ⟨rfl,rfl⟩
    have hid : liveId (some (afterSwap state))=liveId (some state) := by
      unfold liveId
      rw [Option.bind_some,Option.bind_some,heq.1]
    have hpv : prevId (some (afterSwap state))=prevId (some state) := by
      unfold prevId
      rw [Option.bind_some,Option.bind_some,heq.2]
    refine ⟨h.safe,h.finals,?_,?_⟩
    · rw [heq.1]
      cases hst : state.live with
      | none =>
        rw [hst] at hlv
        cases hlv
      | some => rfl
    · rw [hid,hpv]
      exact h.settled.holds

theorem wp_resume {choice : SwapChoice} (h : Safe disk) :
    Always Safe (resume retain choice) disk := by
  refine wp_onIdle (fun _ => h) fun _ hrec hidl => ?_
  simp only [wp_bind,wp_check]
  exact ⟨fun hcom => ((standing_of_idle h hrec hidl).arrived hcom).wp_settle,fun _ => h⟩

theorem wp_restorePrevious {choice : SwapChoice} (h : Safe disk) :
    Always Safe (restorePrevious retain choice) disk := by
  unfold restorePrevious
  refine wp_onIdle (fun _ => h) fun state hrec hidl => ?_
  cases hpv : state.prev with
  | none => exact wp_fail.mpr h
  | some =>
    have hhan := (standing_of_idle h hrec hidl).inHand_restoring hpv
    dsimp only
    refine wp_read (wp_guard (fun _ => ?_) h)
    refine wp_guard (fun _ => ?_) h
    exact wp_bind.mpr (wp_saveIntent.mpr ⟨hhan.safe,wp_swap hhan rfl rfl⟩)

variable {E : Exit → Markers → Prop}

theorem wp_restoreMarker_total {live : StageId} {markers : Markers}
    {P : Markers → Prop} (hP : ∀ markers, P markers) :
    Wp P (restoreMarker retain torn live) (fun _ => P) E markers := by
  refine wp_read ?_
  split
  · cases markers.markerBefore with
    | none => exact wp_write.mpr ⟨hP _,hP _⟩
    | some => exact wp_bind.mpr (wp_write.mpr ⟨hP _,wp_write.mpr ⟨hP _,hP _⟩⟩)
  · exact wp_pure.mpr (hP _)

/-- Pruning the kept markers never fails. -/
theorem wp_pruneMarkers_total {keep : Option StageId} {markers : Markers}
    {P : Markers → Prop} (hP : ∀ markers, P markers) :
    Wp P (pruneMarkers keep) (fun _ => P) E markers := by
  exact wp_bind.mpr (wp_fetch.mpr (wp_writes (J := fun _ => True) trivial (fun _ _ _ _ => trivial)
    (fun _ _ => hP _) fun _ _ => hP _))

/-- What `recover` leaves once it has run to its end. -/
structure Recovered (disk left : Disk) : Prop where
  idle : ∀ state∈left.record, state.state≠.activating
  settled : Settled left.record left.trees left.verified
  /-- A swap in hand is fully reversed, or fully in effect and left to be resumed. -/
  swap : ∀ state∈disk.record, state.state=.activating→∃ inflight∈state.inflight,
    (left.trees=disk.base∧left.record=some state.undone) ∨
      (left.trees=swappedTrees inflight.kind disk.base ∧
        left.record=some (state.completed .activateFailed) ∧
        isCompletedSwap left.record=true)

/-- A root without a swap in hand is recovered as it is. -/
theorem recovered_of_idle (h : Safe disk) (hidl : ∀ state∈disk.record, state.state≠.activating) :
    Recovered disk disk :=
  ⟨hidl,h.settled hidl,fun state hst hact => absurd hact (hidl state hst)⟩

theorem wp_recoverRecord (h : InHand kind state disk) :
    Wp Safe (recoverRecord retain torn state) (fun _ left => Safe left∧Recovered disk left)
      (fun _ _ => False) disk := by
  obtain ⟨inflight,hinf,hkd,-⟩ := h.swapping.inflight
  have hoth : ∀ other∈disk.record, other=state := fun other hot => by
    have hso := h.record.symm.trans hot
    cases hso
    rfl
  refine h.wp_recoverSwap.seq fun complete left hlf => ?_
  obtain ⟨hsf,rfl⟩ := hlf
  cases complete with
  | true =>
    have harr : Arrived state (setTrees (swappedTrees kind disk.base) disk) := by
      refine ⟨hsf,h.finals,?_,h.swapping.completed⟩
      obtain ⟨pending,hpen⟩ := Option.isSome_iff_exists.mp h.swapping.pending
      unfold afterSwap
      rw [hpen]
      rfl
    have hset := harr.settled_completed .activateFailed (by simp [unconfirmed])
    have hsav : Safe (setRecord (state.completed .activateFailed)
        (setTrees (swappedTrees kind disk.base) disk)) :=
      Safe.of_settled rfl h.finals Phase.noConfusion hset
    simp only [if_true,wp_bind,wp_save,wp_pure]
    refine ⟨hsav,hsav,?_,hset,fun other hot _ => ?_⟩
    · rintro other ⟨⟩
      exact Phase.noConfusion
    rw [hoth other hot]
    refine ⟨inflight,hinf,.inr ⟨?_,rfl,h.isCompletedSwap⟩⟩
    rw [hkd]
    rfl
  | false =>
    simp only [Bool.false_eq_true,if_false,wp_bind,wp_onLiveMarkers,wp_onMarkers,wp_save,wp_pure]
    refine (wp_restoreMarker_total (P := fun _ => True) fun _ => trivial).imp
      (fun first _ => hsf.withMarkers first) (fun _ first _ => ?_) fun _ _ hfl => hfl
    refine (wp_pruneMarkers_total (P := fun _ => True) fun _ => trivial).imp
      (fun second _ => (hsf.withMarkers first).withMarkers second) (fun _ second _ => ?_)
      fun _ _ hfl => hfl
    have hsav : Safe (setRecord state.undone
        (setMarkers second (setMarkers first (setTrees disk.base disk)))) :=
      Safe.of_settled rfl ⟨h.finals.2,fun _ h => (by cases h)⟩ h.swapping.idle h.swapping.undone
    refine ⟨hsav,hsav,?_,h.swapping.undone,fun other hot _ => ?_⟩
    · rintro other ⟨⟩
      exact h.swapping.idle
    · rw [hoth other hot]
      exact ⟨inflight,hinf,.inl ⟨rfl,rfl⟩⟩

/-- `recover` keeps a root safe, never fails, and ends in a recovered root. -/
theorem wp_recover (retain : Bool) (torn : Content) (h : Safe disk) :
    Wp Safe (recover retain torn) (fun _ left => Safe left∧Recovered disk left)
      (fun _ _ => False) disk := by
  refine wp_read ?_
  cases hrec : disk.record with
  | none =>
    refine wp_pure.mpr ⟨h,recovered_of_idle h ?_⟩
    rw [hrec]
    exact fun _ hno => (by cases hno)
  | some state =>
    dsimp only
    by_cases hbui : state.state=.building
    · rw [if_pos hbui,wp_bind,wp_onLiveMarkers,wp_onMarkers]
      have hsta : Standing state disk := ⟨hrec,by rw [hbui]; exact Phase.noConfusion,
        h.finals state hrec,by
          rw [← hrec]
          refine h.settled ?_
          rw [hrec]
          rintro other ⟨⟩
          rw [hbui]
          exact Phase.noConfusion⟩
      refine (wp_restoreMarker_total (P := fun _ => True) fun _ => trivial).imp
        (fun markers _ => hsta.safe.withMarkers markers) (fun _ markers _ => ?_)
        fun _ _ hfl => hfl
      have hset : Settled (some {state with state := .buildFailed}) disk.trees disk.verified :=
        hsta.settled.restate rfl rfl (fun hst => by simp [purgeable] at hst) Phase.noConfusion
      have hsav : Safe (setRecord {state with state := .buildFailed} (setMarkers markers disk)) :=
        Safe.of_settled rfl hsta.finals Phase.noConfusion hset
      simp only [wp_bind,wp_save,wp_pure]
      refine ⟨hsav,hsav,?_,hset,fun other hot hact => ?_⟩
      · rintro other ⟨⟩
        exact Phase.noConfusion
      · have heq : state=other := Option.some.inj (hrec.symm.trans hot)
        rw [← heq,hbui] at hact
        cases hact
    · split_ifs with hact
      · obtain ⟨kind,hswa⟩ := h.swapping state hrec hact
        exact wp_recoverRecord ⟨hrec,h.finals state hrec,hact,hswa⟩
      · refine wp_pure.mpr ⟨h,recovered_of_idle h ?_⟩
        rw [hrec]
        rintro other ⟨⟩
        exact hact

/-- Every command keeps a root safe at each of its durable writes. -/
theorem wp_command {command : Command} (h : Safe disk) :
    Always Safe (command.program retain) disk := by
  cases command with
  | build => exact wp_build h
  | activate => exact wp_activate h
  | purge => exact wp_purge h
  | deploy => exact wp_deploy h
  | resume => exact wp_resume h
  | restorePrevious => exact wp_restorePrevious h
  | recover torn =>
    exact wp_bind.mpr ((wp_recover retain torn h).imp (fun _ hsf => hsf)
      (fun _ _ hlf => wp_pure.mpr hlf.1) fun _ _ hfl => hfl.elim)

theorem safe_firstDisk (marker : Option Content) : Safe (firstDisk marker) := by
  refine ⟨fun _ hno => (by cases hno),fun _ => ?_,fun _ hno => (by cases hno)⟩
  exact ⟨⟨rfl,rfl,rfl,fun _ hno => (by cases hno),.inl (mem_singleton_self _)⟩,
    fun _ => mem_singleton_self _,fun _ hno => (by cases hno),
    fun _ hno => (by cases hno)⟩

theorem safe_of_reached {marker : Option Content} (h : Reached retain marker disk) : Safe disk := by
  obtain ⟨history,hrun⟩ := h
  refine Run.state_invariant hrun (safe_firstDisk marker) fun _ start action hsta _ => ?_
  exact (wp_command hsta).leaves hsta (fun _ _ hsf => hsf) (fun _ _ hsf => hsf) action.2

end Commands

/-- Whatever commands fail or are killed, some tree of the root passed its smoke
as live or is the first one. Recovery always ends, and once it has, such a tree is
live or previous, the recorded ids name the trees at those paths, nothing is left
moved aside, and a swap in hand is fully reversed, or fully in effect and left to
be resumed. -/
theorem verified_release_survives (retain : Bool) (marker : Option Content) (disk : Disk)
    (hreached : Reached retain marker disk) : VerifiedTree disk.trees disk.verified ∧
      ∀ torn, (∃ action, (recover retain torn disk).result=.ok action) ∧
        ∀ left, left=(recover retain torn disk).final→(∃ id∈left.verified,
            left.trees.live=some (.release id)∨left.trees.prev=some (.release id)) ∧
          left.trees.live=some (.release (liveId left.record)) ∧
          left.trees.prev=(prevId left.record).map .release∧left.trees.removed=none ∧
          ∀ state∈disk.record, state.state=.activating→∃ inflight∈state.inflight,
            (left.trees=disk.base∧left.record=some state.undone) ∨
              (left.trees=swappedTrees inflight.kind disk.base ∧
                left.record=some (state.completed .activateFailed) ∧
                isCompletedSwap left.record=true) := by
  have hsf := safe_of_reached hreached
  refine ⟨hsf.verifiedTree,fun torn => ?_⟩
  have hreco := wp_recover retain torn hsf
  have hend : ∃ action, (recover retain torn disk).result=.ok action := by
    cases hres : (recover retain torn disk).result with
    | ok action => exact ⟨action,rfl⟩
    | error e => exact (hreco.error e hres).elim
  refine ⟨hend,?_⟩
  obtain ⟨action,hok⟩ := hend
  obtain ⟨-,hrec⟩ := hreco.ok action hok
  rintro left rfl
  exact ⟨hrec.settled.holds.verified_live_or_prev,hrec.settled.holds.live,
    hrec.settled.holds.prev,hrec.settled.holds.removed,hrec.swap⟩

/-- A build that meets nothing in its way. -/
def smoothBuild (historyId : String) : BuildChoice := ⟨true,true,historyId,[],true,true, ""⟩

/-- An activation that meets nothing in its way. -/
def smoothActivate : ActivateChoice := ⟨true,true,[],true,false,[],true,true,true,.passed, ""⟩

/-- Two deployments; the second is killed once the live tree is displaced. -/
def killedSwap : List (Command×Option ℕ) :=
  [(.deploy (smoothBuild "first") smoothActivate ⟨true,.purged⟩,none),
    (.build (smoothBuild "second"),none),(.activate smoothActivate,some 7)]

/-- Root the killed swap leaves. -/
def killedDisk : Disk := (play (step false) [] (firstDisk none) killedSwap).2

/-- With no tree live, two verified ones are at other paths, and recovery ends. -/
theorem verified_release_survives_killed :
    killedDisk.trees.live=none∧VerifiedTree killedDisk.trees killedDisk.verified ∧
      ∃ action, (recover false "" killedDisk).result=.ok action := by
  have hrea : Reached false none killedDisk :=
    ⟨_,.play Run.nil killedSwap ⟨trivial,trivial,trivial,trivial⟩⟩
  have hsur := verified_release_survives false none killedDisk hrea
  exact ⟨by decide,hsur.1,(hsur.2 "").1⟩

end SellRight.DeploySafety
