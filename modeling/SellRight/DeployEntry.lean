import SellRight.DeployMarker
import SellRight.RunHistory

/-!
# The deploy commands

Build, activate, purge, deploy, resume, restore-previous and recover over the
state file, the trees and the marker files of one root. The operation lock
serialises the commands; each may be refused or fail where the source can, and a
kill leaves the root after any of its durable writes.
-/

namespace SellRight.DeployEntry

open CrashSteps CrashSteps.Program DeployRecord DeployMarker

inductive RollbackKind
  | previous
  | composed
  | legacy
  deriving DecidableEq

/-- Rollback in progress, `rollback-op.json`. -/
structure RollbackOp where
  kind : RollbackKind
  target : String ⊕ StageId
  (origin stageId : Option StageId)
  deriving DecidableEq

/-- Progress of a legacy build, kept outside every build directory. -/
structure LegacyJournal where
  tag : String
  stageId : StageId
  completed : ℕ

/-- Durable state of one root. -/
structure Disk where
  trees : Trees
  record : Option Record
  markers : Markers
  rollbackOp : Option RollbackOp
  legacyJournal : Option LegacyJournal
  serial : ℕ
  /-- Ghost: releases that passed their smoke as live, the first tree among them. -/
  verified : List StageId
  /-- Ghost: trees when the latest swap was recorded. -/
  base : Trees

/-- Program over the root. -/
abbrev Deploy (α : Type) := Program Disk Exit α

/-- Disk with other marker files. -/
def setMarkers (markers : Markers) (disk : Disk) : Disk := {disk with markers := markers}

/-- Work on the marker files. -/
def onMarkers (program : MarkerProgram) : Deploy Unit := zoom Disk.markers setMarkers program

/-- Work on the marker files that reads the live release from the state file. -/
def onLiveMarkers (program : StageId → MarkerProgram) : Deploy Unit := do
  let disk ← fetch
  onMarkers (program (liveId disk.record))

variable (state : Record)

/-- Disk with another state record. -/
def setRecord (disk : Disk) : Disk := {disk with record := some state}

/-- Disk with other trees. -/
def setTrees (trees : Trees) (disk : Disk) : Disk := {disk with trees := trees}

def save : Deploy Record := do
  write (setRecord state)
  pure state

/-- Save the intent of a swap; the trees it starts from are remembered. -/
def saveIntent : Deploy Record := do
  write fun disk => {disk with record := some state,base := disk.trees}
  pure state

section Rules

variable {I : Disk → Prop} {E : Exit → Disk → Prop} {disk : Disk}

/-- Precondition of work on the marker files. -/
@[simp] theorem wp_onMarkers {program : MarkerProgram} {Q : Unit → Disk → Prop} :
    Wp I (onMarkers program) Q E disk ↔ Wp (fun markers => I (setMarkers markers disk)) program
      (fun a markers => Q a (setMarkers markers disk))
      (fun e markers => E e (setMarkers markers disk)) disk.markers :=
  wp_zoom

/-- Precondition of work on the marker files of the live release. -/
@[simp] theorem wp_onLiveMarkers {program : StageId → MarkerProgram} {Q : Unit → Disk → Prop} :
    Wp I (onLiveMarkers program) Q E disk ↔
      Wp I (onMarkers (program (liveId disk.record))) Q E disk :=
  wp_bind.trans wp_fetch

section
variable {state : Record} {Q : Record → Disk → Prop}

@[simp] theorem wp_save :
    Wp I (save state) Q E disk ↔ I (setRecord state disk)∧Q state (setRecord state disk) := by
  unfold save
  simp only [wp_bind,wp_write,wp_pure]

@[simp] theorem wp_saveIntent :
    Wp I (saveIntent state) Q E disk ↔ I {disk with record := some state,base := disk.trees} ∧
        Q state {disk with record := some state,base := disk.trees} := by
  unfold saveIntent
  simp only [wp_bind,wp_write,wp_pure]

end

end Rules

/-- `removeTree`: a deletion cut short leaves a remnant. -/
def removeTree (slot : Slot) : Deploy Unit := do
  let disk ← fetch
  if (disk.trees.at slot).isSome then
    write fun disk => setTrees (disk.trees.put (some .remnant) slot) disk
    write fun disk => setTrees (disk.trees.put none slot) disk
  else pure ()

/-- `assertIdle`: no run was interrupted. -/
def idle (record : Option Record) : Bool :=
  match record with
  | none => true
  | some state => !(state.state=.building∨state.state=.activating)

/-- Commands that start idle and need a record. -/
def onIdle {α : Type} (admitted : Bool) (next : Record → Deploy α) : Deploy α := do
  check admitted .root
  let disk ← fetch
  check (idle disk.record) .recover
  match disk.record with
  | none => fail .precond
  | some state => next state

/-- A refused command changes nothing; an admitted one starts from the record. -/
theorem wp_onIdle {α : Type} {I : Disk → Prop} {Q : α → Disk → Prop} {E : Exit → Disk → Prop}
    {disk : Disk} {admitted : Bool} {next : Record → Deploy α} (hfail : ∀ e, E e disk)
    (hnext : ∀ state, disk.record=some state → idle disk.record=true →
      Wp I (next state) Q E disk) : Wp I (onIdle admitted next) Q E disk := by
  unfold onIdle
  simp only [wp_bind,wp_check,wp_fetch]
  refine ⟨fun _ => ⟨fun hidl => ?_,fun _ => hfail _⟩,fun _ => hfail _⟩
  cases hrec : disk.record with
  | none => exact wp_fail.mpr (hfail _)
  | some state => exact hnext state hrec hidl

def renamePath (source target : Slot) : Deploy Unit :=
  write fun disk => setTrees (disk.trees.rename source target) disk

/-- Run the renames in order, each recorded before and after it. -/
def runRenames : Record → List RenameOp → List RenameOp → Deploy Record
  | state, _, [] => pure state
  | state, finished, op::rest => do
    let disk ← fetch
    if op.isOptional&&(disk.trees.at op.source).isNone then
      let skipped := {op with status := .skipped}
      let state ← save (state.withSwap (finished++skipped::rest))
      runRenames state (finished++[skipped]) rest
    else
      check (disk.trees.at op.source).isSome .precond
      check (disk.trees.at op.target).isNone .precond
      let state ← save (state.withSwap (finished++{op with status := .started}::rest))
      renamePath op.source op.target
      let done := {op with status := .done}
      let state ← save (state.withSwap (finished++done::rest))
      runRenames state (finished++[done]) rest

def runOps (ops : List RenameOp) : Deploy Record := do
  let disk ← fetch
  check disk.trees.removed.isNone .recover
  let state ← save (state.withSwap ops)
  let state ← runRenames state [] ops
  removeTree .removed
  pure state

/-- Every destination exists and the source of the last rename is gone. -/
def swapComplete (trees : Trees) (ops : List RenameOp) : Bool :=
  (ops.all fun op => op.isOptional||(trees.at op.target).isSome) &&
    match ops.getLast? with
    | some last => (trees.at last.source).isNone
    | none => false

/-- Reverse the renames that took effect. -/
def reverseRenames : List RenameOp → Deploy Unit
  | [] => pure ()
  | op::rest => do
    let disk ← fetch
    if (disk.trees.at op.source).isNone&&(disk.trees.at op.target).isSome then
      renamePath op.target op.source
    else pure ()
    reverseRenames rest

def recoverSwap (ops : List RenameOp) : Deploy Bool := do
  let disk ← fetch
  if ops=[] then pure false
  else if swapComplete disk.trees ops then
    removeTree .removed
    pure true
  else
    reverseRenames ops.reverse
    pure false

/-- What a build meets. -/
structure BuildChoice where
  /-- Environment, branch, adoption and compose journal allow it. -/
  admitted : Bool
  /-- Seeding, composition and installation succeed. -/
  prepared : Bool
  historyId : String
  scriptWrites : List (Option Content)
  (scriptPasses artifactsOk : Bool)
  torn : Content

variable (retain : Bool)

/-- Steps of a build once its stage is seeded. -/
def composeStage (choice : BuildChoice) (state : Record) : Deploy Unit := do
  check choice.prepared .fail
  onLiveMarkers (snapshotMarker retain choice.torn)
  let state ← save {state with source := some (.compose choice.historyId)}
  onMarkers (helperWrites choice.scriptWrites)
  check choice.scriptPasses .fail
  check choice.artifactsOk .artifact
  let _ ← save {state with state := .built}
  pure ()

def placeStage (stageId : StageId) (disk : Disk) : Disk :=
  setTrees (disk.trees.put (some (.release stageId)) .next) disk

/-- Steps of a build whose stage is recorded. -/
def buildStage (choice : BuildChoice) (state : Record) : Deploy Unit := do
  removeTree .next
  write (placeStage state.stageId)
  composeStage retain choice state

/-- A failed build puts the marker back; the state in hand is the one last saved. -/
def buildFailed (torn : Content) (e : Exit) : Deploy Unit := do
  onLiveMarkers (restoreMarker retain torn)
  let disk ← fetch
  match disk.record with
  | some state => do
    let _ ← save {state with state := .buildFailed}
    fail e
  | none => fail e

/-- Record the stage of a build, named by a fresh id. -/
def saveStage (source : Option Source) : Deploy Record := do
  let disk ← fetch
  let state := newState (.stage disk.serial) source disk.record
  write fun disk => {disk with record := some state,serial := disk.serial+1}
  pure state

def build (choice : BuildChoice) : Deploy Unit := do
  let disk ← fetch
  check (idle disk.record) .recover
  check (!isCompletedSwap disk.record) .precond
  check choice.admitted .precond
  check disk.trees.live.isSome .precond
  check (disk.trees.next.isNone||stageReplaceable disk.record) .precond
  let state ← saveStage none
  handle (buildStage retain choice state) (buildFailed retain choice.torn)

/-- Outcome of restart, readiness and origin smoke of the live tree. -/
inductive Launch
  | passed
  | failed
  | smokeFailed

/-- Ghost: the live tree passed its smoke. -/
def noteVerified : Deploy Unit := write fun disk =>
    match disk.trees.live with
    | some (.release id) => {disk with verified := disk.verified++[id]}
    | _ => disk

/-- The live tree failed to come up: the renames stay, the release is marked. -/
def settleFailed (failState : Phase) (e : Exit) : Deploy Unit := do
  let _ ← save (state.completed failState)
  fail e

theorem wp_failedLaunch {I : Disk → Prop} {Q : Unit → Disk → Prop} {disk : Disk} {state : Record}
    {failState : Phase} {e : Exit} (hsav : I (setRecord (state.completed failState) disk)) :
    Wp I (settleFailed state failState e) Q (fun _ => I) disk := by
  unfold settleFailed
  simp only [wp_bind,wp_save,wp_fail]
  exact ⟨hsav,hsav⟩

/-- The live transition is committed. -/
def settlePassed (activation : Inflight) : Deploy Unit := do
  noteVerified
  onMarkers clearMarkerSnapshot
  onMarkers (pruneMarkers ((afterSwap state).prev.map (·.stageId)))
  let _ ← save (state.confirmed activation)
  pure ()

/-- A restore puts the retained marker of its release back. -/
def enterRestore (torn : Content) (activation : Inflight) : Deploy Unit :=
  if activation.kind=.restore then do
    onMarkers (restorePrevMarker retain torn activation.stageId)
    onMarkers (noteEntered activation.stageId)
  else pure ()

/-- Apply the outcome of restart and smoke to the state file. -/
def applyLaunch (activation : Inflight) : Launch → Deploy Unit
  | .smokeFailed => settleFailed state .smokeFailed .smoke
  | .failed => settleFailed state .activateFailed .fail
  | .passed => settlePassed state activation

def settle (torn : Content) (launch : Launch) (state : Record) : Deploy Unit :=
  match state.inflight with
  | none => fail .precond
  | some activation => do
    enterRestore retain torn activation
    applyLaunch state activation launch

/-- Disk once its live tree is noted to have passed. -/
def noted (disk : Disk) : Disk := {disk with
  verified := match disk.trees.live with
    | some (.release id) => disk.verified++[id]
    | _ => disk.verified}

theorem wp_noteVerified {I : Disk → Prop} {Q : Unit → Disk → Prop} {E : Exit → Disk → Prop}
    {disk : Disk} : Wp I noteVerified Q E disk ↔ I (noted disk)∧Q () (noted disk) := by
  unfold noteVerified noted
  rw [wp_write]
  split <;> rfl

/-- Settling keeps what other marker files, a failed bring-up and a confirmed
one keep. -/
theorem wp_settle_saved {I : Disk → Prop} {retain : Bool} {torn : Content} {launch : Launch}
    {state : Record} {operation : Inflight} {disk : Disk} (hinf : state.inflight=some operation)
    (hmar : ∀ markers, I (setMarkers markers disk))
    (hfai : ∀ failState∈unconfirmed, ∀ markers,
      I (setRecord (state.completed failState) (setMarkers markers disk)))
    (hver : ∀ markers, I (setMarkers markers (noted disk)) ∧
      I (setRecord (state.confirmed operation) (setMarkers markers (noted disk)))) :
    Wp I (settle retain torn launch state)
      (fun _ after => I after∧after.record=some (state.confirmed operation)) (fun _ => I) disk := by
  have hany : ∀ program start, (∀ markers, I (setMarkers markers start)) →
      ∀ Q : Unit → Disk → Prop, (∀ markers, Q () (setMarkers markers start)) →
      Wp I (onMarkers program) Q (fun _ => I) start := fun _ _ hst _ hps =>
    wp_onMarkers.mpr (.of_forall (fun _ => hst _) (fun _ _ => hps _) fun _ _ => hst _)
  have hlau : ∀ markers, Wp I (applyLaunch state operation launch)
      (fun _ after => I after∧after.record=some (state.confirmed operation)) (fun _ => I)
      (setMarkers markers disk) := by
    intro markers
    cases launch with
    | smokeFailed | failed => exact wp_failedLaunch (hfai _ (by simp [unconfirmed]) markers)
    | passed =>
      refine wp_bind.mpr (wp_noteVerified.mpr ⟨(hver markers).1,wp_bind.mpr (hany _ _ ?_ _
        fun _ => wp_bind.mpr (hany _ _ ?_ _ fun pruned => ?_))⟩)
      · exact fun cleared => (hver cleared).1
      · exact fun pruned => (hver pruned).1
      · simp only [wp_bind,wp_save,wp_pure]
        exact ⟨(hver pruned).2,(hver pruned).2,rfl⟩
  unfold settle
  rw [hinf]
  refine wp_bind.mpr ?_
  unfold enterRestore
  split
  · exact wp_bind.mpr (hany _ _ hmar _ fun restored => hany _ (setMarkers restored disk) hmar _ hlau)
  · exact wp_pure.mpr (hlau disk.markers)

/-- What an activation meets. -/
structure ActivateChoice where
  /-- Root rules and compose journal allow it. -/
  admitted : Bool
  artifactsOk : Bool
  /-- What the live tree's retention helper makes of the marker. -/
  saveWrites : List (Option Content)
  (savePasses collides : Bool)
  /-- What the stage's retention helper makes of the marker. -/
  restoreWrites : List (Option Content)
  (restorePasses candidatePasses synced : Bool)
  launch : Launch
  torn : Content

section
variable (retain : Bool) (choice : ActivateChoice)

/-- The live tree's helper saves what the marker names. -/
def retainSave : Deploy Unit :=
  if retain then do
    onLiveMarkers (restoreMarker retain choice.torn)
    onMarkers (helperWrites choice.saveWrites)
    check choice.savePasses .fail
  else pure ()

/-- `carryServer`: live server files are carried into the stage unless they collide. -/
def carryServer : Deploy Unit :=
  if choice.collides then do
    onLiveMarkers (restoreMarker retain choice.torn)
    fail .artifact
  else pure ()

/-- The stage's helper restores what was saved. -/
def retainRestore : Deploy Unit :=
  if retain then do
    onMarkers (helperWrites choice.restoreWrites)
    check choice.restorePasses .fail
  else pure ()

/-- `retention`: steps before the swap. -/
def retention : Deploy Unit := do
  retainSave retain choice
  carryServer retain choice
  retainRestore retain choice

/-- `smokeCandidate`: a failed candidate is rebuilt rather than retried. -/
def smokeCandidate (state : Record) : Deploy Unit :=
  if choice.candidatePasses then pure ()
  else do
    onLiveMarkers (restoreMarker retain choice.torn)
    let _ ← save {state with state := .buildFailed}
    fail .smoke

/-- Swap in the stage of a built record. -/
def activateState (state : Record) : Deploy Unit := do
  check (state.state=.built) .precond
  check (!liveUnconfirmed state) .precond
  let disk ← fetch
  check disk.trees.next.isSome .precond
  check choice.artifactsOk .artifact
  retention retain choice
  smokeCandidate retain choice state
  check choice.synced .fail
  onLiveMarkers fun live => keepPrevMarker retain choice.torn live (liveId (some state))
  let state ← saveIntent state.activating
  let state ← runOps state swapOps
  settle retain choice.torn choice.launch state

def activate : Deploy Unit := do
  check choice.admitted .root
  let disk ← fetch
  check (idle disk.record) .recover
  match disk.record with
  | none => fail .precond
  | some state => activateState retain choice state

end

inductive PurgeOutcome
  | purged
  | failed
  | unconfigured

/-- What a purge meets. -/
structure PurgeChoice where
  /-- Root rules and compose journal allow it. -/
  admitted : Bool
  outcome : PurgeOutcome

def purge (choice : PurgeChoice) : Deploy Unit := do
  check choice.admitted .root
  let disk ← fetch
  check (idle disk.record) .recover
  match disk.record with
  | none => fail .precond
  | some state => do
    check (purgeable.contains state.state && !state.activations.isEmpty) .precond
    match choice.outcome with
    | .unconfigured => fail .usage
    | .failed => do
      let _ ← save {state with
        state := .purgeFailed
        live := withState .purgeFailed state.live}
      fail .purge
    | .purged => do
      let _ ← save {state with state := .purged,live := withState .purged state.live}
      pure ()

/-- A purge keeps what its two records keep, and leaves the release purged. -/
theorem wp_purge_saved {I : Disk → Prop} {disk : Disk} {choice : PurgeChoice} (h : I disk)
    (hsav : ∀ state phase, disk.record=some state→idle disk.record=true→state.state∈purgeable →
      phase=.purged∨phase=.purgeFailed →
      I (setRecord {state with state := phase,live := withState phase state.live} disk)) :
    Wp I (purge choice) (fun _ after => I after∧∃ state, disk.record=some state ∧
      state.state∈purgeable∧after.record=some {state with
        state := .purged
        live := withState .purged state.live}) (fun _ => I) disk := by
  refine wp_onIdle (fun _ => h) fun state hrec hidl => ?_
  simp only [wp_bind,wp_check]
  refine ⟨fun hmay => ?_,fun _ => h⟩
  rw [Bool.and_eq_true,List.contains_iff_mem] at hmay
  cases choice.outcome with
  | unconfigured => exact wp_fail.mpr h
  | failed =>
    have hfai := hsav state .purgeFailed hrec hidl hmay.1 (.inr rfl)
    simp only [wp_bind,wp_save,wp_fail]
    exact ⟨hfai,hfai⟩
  | purged =>
    have hpur := hsav state .purged hrec hidl hmay.1 (.inl rfl)
    simp only [wp_bind,wp_save,wp_pure]
    exact ⟨hpur,hpur,state,hrec,hmay.1,rfl⟩

def deploy (building : BuildChoice) (activating : ActivateChoice)
    (purging : PurgeChoice) : Deploy Unit := do
  build retain building
  activate retain activating
  purge purging

/-- What a resume or a restore meets. -/
structure SwapChoice where
  /-- Root rules and compose journal allow it. -/
  admitted : Bool
  artifactsOk : Bool
  launch : Launch
  torn : Content

section
variable (retain : Bool) (choice : SwapChoice)

/-- `resumeActivation` -/
def resume : Deploy Unit := do
  check choice.admitted .root
  let disk ← fetch
  check (idle disk.record) .recover
  match disk.record with
  | none => fail .precond
  | some state => do
    check (isCompletedSwap (some state)) .precond
    settle retain choice.torn choice.launch state

/-- Swap the recorded previous tree back in. -/
def restoreState (state : Record) (prev : Release) :
    Deploy Unit := do
  let disk ← fetch
  check disk.trees.prev.isSome .precond
  check choice.artifactsOk .artifact
  let state ← saveIntent (state.restoring prev)
  let state ← runOps state restoreOps
  settle retain choice.torn choice.launch state

/-- `restorePreviousCommand` -/
def restorePrevious : Deploy Unit := do
  check choice.admitted .root
  let disk ← fetch
  check (idle disk.record) .recover
  match disk.record with
  | none => fail .precond
  | some state =>
    match state.prev with
    | none => fail .precond
    | some prev => restoreState retain choice state prev

end

/-- What `recover` did. -/
inductive RecoverAction
  | nothing
  | buildFailed
  | swapCompleted
  | swapUndone
  deriving DecidableEq

/-- Finish or reverse the swap of an interrupted record. -/
def recoverRecord (torn : Content) (state : Record) : Deploy RecoverAction := do
  let complete ← recoverSwap state.swap
  if complete then
    let _ ← save (state.completed .activateFailed)
    pure .swapCompleted
  else
    onLiveMarkers (restoreMarker retain torn)
    onMarkers (pruneMarkers (state.prev.map (·.stageId)))
    let _ ← save state.undone
    pure .swapUndone

def recover (torn : Content) : Deploy RecoverAction := do
  let disk ← fetch
  match disk.record with
  | none => pure .nothing
  | some state =>
    if state.state=.building then do
      onLiveMarkers (restoreMarker retain torn)
      let _ ← save {state with state := .buildFailed}
      pure .buildFailed
    else if state.state=.activating then recoverRecord retain torn state
    else pure .nothing

/-- Command of the deploy entry with what it meets. -/
inductive Command
  | build (choice : BuildChoice)
  | activate (choice : ActivateChoice)
  | purge (choice : PurgeChoice)
  | deploy (building : BuildChoice) (activating : ActivateChoice) (purging : PurgeChoice)
  | resume (choice : SwapChoice)
  | restorePrevious (choice : SwapChoice)
  | recover (torn : Content)

def Command.program : Command → Deploy Unit
  | .build choice => DeployEntry.build retain choice
  | .activate choice => DeployEntry.activate retain choice
  | .purge choice => DeployEntry.purge choice
  | .deploy building activating purging => DeployEntry.deploy retain building activating purging
  | .resume choice => DeployEntry.resume retain choice
  | .restorePrevious choice => DeployEntry.restorePrevious retain choice
  | .recover torn => do
    let _ ← DeployEntry.recover retain torn
    pure ()

/-- One command; a number kills it after that many of its durable writes. -/
def step (disk : Disk) (action : Command×Option ℕ) : Unit×Disk :=
  ((),(action.1.program retain).leaves disk action.2)

/-- Root before the first deployment. -/
def firstDisk (marker : Option Content) : Disk where
  trees := ⟨some (.release .legacy),none,none,none,none⟩
  record := none
  markers := ⟨marker,none,none,false,[],[],[]⟩
  rollbackOp := none
  legacyJournal := none
  serial := 0
  verified := [.legacy]
  base := ⟨some (.release .legacy),none,none,none,none⟩

/-- Root reached by some sequence of commands, failures and kills. -/
def Reached (marker : Option Content) (disk : Disk) : Prop :=
  ∃ h, RunHistory.Run (step retain) (fun _ _ _ => True) (firstDisk marker) h disk

end SellRight.DeployEntry
