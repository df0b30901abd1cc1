import SellRight.DeployEntry

/-!
# The rollback commands

A rollback records what it is about to do before it acts and retires the record
once its swap, smoke and purge are done. Its three procedures drive the deploy
commands of the root; each claims the recorded rollback first, to resume it, to
take it up again, or to start afresh.
-/

namespace SellRight.DeployRollback

open CrashSteps CrashSteps.Program DeployRecord DeployMarker DeployEntry

structure Root where
  disk : Disk
  /-- Ghost: retired records, each with the state it was retired from. -/
  retired : List (RollbackOp×Disk)

abbrev Rollback (α : Type) := Program Root Exit α

/-- Root with another durable state. -/
def setDisk (disk : Disk) (root : Root) : Root := {root with disk := disk}

/-- Command of the deploy entry within a rollback. -/
def onDisk {α : Type} (program : Deploy α) : Rollback α := zoom Root.disk setDisk program

variable (record : Option Record)

def liveStage : Option StageId := (record.bind (·.live)).map (·.stageId)

/-- Stage of the previous release. -/
def prevStage : Option StageId := (record.bind (·.prev)).map (·.stageId)

variable (op : RollbackOp)

/-- `opSwapped`: the swap of the operation is committed. -/
def opSwapped (record : Option Record) : Bool :=
  op.stageId.isSome&&liveStage record == op.stageId

/-- What an invocation does about the recorded rollback. -/
inductive Claim
  | fresh
  /-- An uncommitted record is taken up again. -/
  | reuse (op : RollbackOp)
  | resume (op : RollbackOp)

/-- The invocation names another target than the recorded one. -/
def asksOther (wanted : Option (String ⊕ StageId)) (op : RollbackOp) : Bool :=
  wanted.any fun target => target≠.inl "" ∧ target≠op.target

/-- The live tree is the one an uncommitted record was made against. -/
def recordedHere (record : Option Record) : Bool := op.origin=liveStage record ∧
    (op.kind≠.previous∨(prevStage record).map .inr=some op.target)

section
variable (kind : RollbackKind) (wanted : Option (String ⊕ StageId))

def claimOp (disk : Disk) : Except Exit Claim :=
  match disk.rollbackOp with
  | none => .ok .fresh
  | some op =>
    if opSwapped op disk.record then
      if op.kind=kind then
        if asksOther wanted op then .error .precond else .ok (.resume op)
      else if kind=.previous then .ok .fresh
      else .error .precond
    else if op.kind=kind&&recordedHere op disk.record && !asksOther wanted op then
      .ok (.reuse op)
    else .ok .fresh

/-- Claim the recorded rollback. -/
def claim : Rollback Claim := do
  let root ← fetch
  match claimOp kind wanted root.disk with
  | .ok claimed => pure claimed
  | .error e => fail e

end

def writeOp : Rollback Unit :=
  write fun root => setDisk {root.disk with rollbackOp := some op} root

/-- `clearOp`: the record is retired. -/
def clearOp : Rollback Unit := write fun root =>
    { disk := {root.disk with rollbackOp := none}
      retired := root.retired++(root.disk.rollbackOp.map fun op => (op,root.disk)).toList}

def beginOp (kind : RollbackKind) (target : String ⊕ StageId) (stageId : Option StageId) :
    Rollback RollbackOp := do
  let root ← fetch
  let op : RollbackOp := ⟨kind,target,liveStage root.disk.record,stageId⟩
  writeOp op
  pure op

/-- Operation of the invocation: the claimed one or a new one. -/
def ensureOp (claimed : Claim) (kind : RollbackKind) (target : String ⊕ StageId) :
    Rollback RollbackOp :=
  match claimed with
  | .fresh => beginOp kind target none
  | .reuse op => pure op
  | .resume op => pure op

/-- What the purge step of a rollback meets. -/
structure PurgeStepChoice where
  purging : PurgeChoice
  fault : Bool

/-- `purgeStep`: outside production a purge is only made to fail. -/
def purgeStep (production : Bool) (choice : PurgeStepChoice) : Rollback Unit :=
  if production then onDisk (purge choice.purging)
  else if choice.fault then onDisk (purge {choice.purging with outcome := .failed})
  else pure ()

/-- What the end of a committed rollback meets. -/
structure FinishChoice where
  resuming : SwapChoice
  purging : PurgeStepChoice

/-- The settled state allows the committed operation to be finished. -/
def finishable (record : Option Record) : Bool := record.any fun state =>
    purgeable.contains state.state && (state.activations.getLast?.map (·.stageId)) == op.stageId

/-- Confirm the live tree of a committed operation. -/
def confirmCommitted (retain : Bool) (choice : FinishChoice) (op : RollbackOp) :
    Rollback Unit := do
  let root ← fetch
  if isCompletedSwap root.disk.record then onDisk (resume retain choice.resuming)
  else check (finishable op root.disk.record) .precond

/-- Purge unless it is purged. -/
def purgeCommitted (production : Bool) (choice : FinishChoice) : Rollback Unit := do
  let root ← fetch
  if root.disk.record.any (·.state=.purged) then pure ()
  else purgeStep production choice.purging

variable (retain production : Bool)

def finishCommitted (choice : FinishChoice) (op : RollbackOp) :
    Rollback Unit := do
  confirmCommitted retain choice op
  purgeCommitted production choice
  clearOp

/-- What `rollback previous` meets. -/
structure PreviousChoice where
  admitted : Bool
  finishing : FinishChoice
  restoring : SwapChoice

/-- A restore is in flight with its renames finished. -/
def restoreInFlight : Bool :=
  isCompletedSwap record&&(record.bind (·.inflight)).any (·.kind=.restore)

/-- Record the restore, unless it is recorded or there is no previous tree. -/
def previousOp (claimed : Claim) : Rollback (Option RollbackOp) := do
  let root ← fetch
  match claimed with
  | .reuse op => pure (some op)
  | .resume op => pure (some op)
  | .fresh =>
    match prevStage root.disk.record with
    | none => pure none
    | some id => do
      let op ← beginOp .previous (.inr id) (some id)
      pure (some op)

/-- Retire the record, where there is one. -/
def clearWritten (op : Option RollbackOp) : Rollback Unit :=
  if op.isSome then clearOp else pure ()

section
variable (retain production : Bool) (choice : PreviousChoice)

/-- Restore the previous tree, or finish a restore in flight. -/
def restoreLive (claimed : Claim) :
    Rollback Unit := do
  let root ← fetch
  if restoreInFlight root.disk.record then do
    onDisk (resume retain choice.finishing.resuming)
    purgeStep production choice.finishing.purging
  else do
    let op ← previousOp claimed
    onDisk (restorePrevious retain choice.restoring)
    purgeStep production choice.finishing.purging
    clearWritten op

def rollbackPrevious : Rollback Unit := do
  check choice.admitted .root
  let claimed ← claim .previous none
  match claimed with
  | .resume op => finishCommitted retain production choice.finishing op
  | _ => restoreLive retain production choice claimed

end

/-- The first characters all pass a test; what follows them. -/
def takeChars (test : Char → Bool) (n : ℕ) (chars : List Char) : Option (List Char) :=
  if (chars.take n).length=n∧(chars.take n).all test then some (chars.drop n) else none

/-- Digit of a hash. -/
def isHex (c : Char) : Bool := c.isDigit||('a' ≤ c&&c ≤ 'f')

/-- Optional counter of a history id. -/
def isCounter : List Char → Bool
  | [] => true
  | c::rest => c = '-' && !rest.isEmpty&&rest.all Char.isDigit

/-- `HISTORY_ID_RE` -/
def isHistoryId (id : String) : Bool := (do
    let chars ← takeChars Char.isDigit 8 id.toList
    let chars ← takeChars (· = 'T') 1 chars
    let chars ← takeChars Char.isDigit 6 chars
    let chars ← takeChars (· = 'Z') 1 chars
    let chars ← takeChars (· = '-') 1 chars
    takeChars isHex 12 chars).any isCounter

/-- Activation a composed rollback may go back to. -/
def composedCandidate (activation : Activation) : Bool :=
  activation.kind=.activate&&some activation.stageId != liveStage record &&
    activation.origin != some "legacy" && activation.historyId.any isHistoryId

def pickComposedTarget : Option String := (record.bind fun state =>
    (state.activations.filter (composedCandidate record)).getLast?).bind (·.historyId)

/-- What `rollback composed` meets. -/
structure ComposedChoice where
  admitted : Bool
  wanted : Option String
  entryBuilt : Bool
  inputsFail : Option Exit
  building : BuildChoice
  hashesMatch : Bool
  activating : ActivateChoice
  finishing : FinishChoice

/-- Composed rollback in flight that no record names. -/
def inflightRollback : Option RollbackOp :=
  if isCompletedSwap record then do
    let state ← record
    let inflight ← state.inflight
    let target ← inflight.target
    if inflight.kind=.activate then
      some ⟨.composed,.inl target,prevStage record,some inflight.stageId⟩
    else none
  else none

/-- Record a composed rollback in flight. -/
def adoptInflight : Rollback Unit := do
  let root ← fetch
  match root.disk.rollbackOp, inflightRollback root.disk.record with
  | none, some op => writeOp op
  | _, _ => pure ()

/-- History id of an invocation. -/
def composedTarget (claimed : Claim) (wanted : Option String) (record : Option Record) :
    Option String :=
  match claimed with
  | .fresh => wanted.or (pickComposedTarget record)
  | .reuse op => op.target.getLeft?
  | .resume op => op.target.getLeft?

/-- Fail with an error, where there is one. -/
def failWith (error : Option Exit) : Rollback Unit :=
  match error with
  | none => pure ()
  | some e => fail e

/-- The built stage remembers the target. -/
def setRollbackTarget (id : String) (root : Root) : Root := setDisk {root.disk with
    record := root.disk.record.map fun state => {state with rollbackTarget := some id}} root

/-- The record names the stage of the latest build. -/
def setOpStage (root : Root) : Root := setDisk {root.disk with
    rollbackOp := some {op with stageId := root.disk.record.map (·.stageId)}} root

section
variable (retain production : Bool) (choice : ComposedChoice)

/-- Rebuild the inputs of a history entry and put them live. -/
def composedLive (claimed : Claim)
    (id : String) : Rollback Unit := do
  check (isHistoryId id) .usage
  check choice.entryBuilt .precond
  let op ← ensureOp claimed .composed (.inl id)
  let root ← fetch
  check (idle root.disk.record) .recover
  failWith choice.inputsFail
  onDisk (build retain choice.building)
  write (setRollbackTarget id)
  write (setOpStage op)
  check choice.hashesMatch .artifact
  onDisk (activate retain choice.activating)
  purgeStep production choice.finishing.purging
  clearOp

/-- A composed rollback that is not committed. -/
def composedFresh (claimed : Claim) :
    Rollback Unit := do
  let root ← fetch
  check (!isCompletedSwap root.disk.record) .precond
  match composedTarget claimed choice.wanted root.disk.record with
  | none => fail .precond
  | some id => do
    check (id ≠ "") .precond
    composedLive retain production choice claimed id

def rollbackComposed : Rollback Unit := do
  check choice.admitted .root
  adoptInflight
  let claimed ← claim .composed (choice.wanted.map .inl)
  match claimed with
  | .resume op => finishCommitted retain production choice.finishing op
  | _ => composedFresh retain production choice claimed

end

/-- What a legacy build meets. -/
structure LegacyBuildChoice where
  /-- Number of journaled steps that still hold. -/
  verified : ℕ
  (archived extracted : Bool)
  failsAt : Option ℕ
  scriptWrites : List (Option Content)
  artifactsOk : Bool
  torn : Content

/-- Number of the build step among the legacy steps. -/
def buildStep : ℕ := 4

/-- Number of legacy steps: stage, env, link, install, build and artifacts. -/
def legacySteps : ℕ := 6

/-- A legacy build of the tag was interrupted. -/
def resumeBuilding (tag : String) (disk : Disk) : Bool := disk.record.any fun state =>
    disk.legacyJournal.any (fun journal => journal.tag=tag&&journal.stageId=state.stageId) &&
    state.state=.building&&state.source=some (.legacyTag tag)

/-- Journaled steps that need not be done again. -/
def doneSteps (choice : LegacyBuildChoice) (tag : String) (disk : Disk) : ℕ :=
  if resumeBuilding tag disk&&disk.trees.next.isSome then
    min choice.verified ((disk.legacyJournal.map (·.completed)).getD 0)
  else 0

def markStep (tag : String) (stageId : StageId) (completed : ℕ) : Deploy Unit :=
  write fun disk => {disk with legacyJournal := some ⟨tag,stageId,completed⟩}

/-- Extract the tag into a new stage. -/
def legacyStage (retain : Bool) (choice : LegacyBuildChoice) (tag : String) : Deploy Record := do
  let disk ← fetch
  check (disk.trees.next.isNone||stageReplaceable disk.record||resumeBuilding tag disk) .precond
  removeTree .next
  let state ← saveStage (some (.legacyTag tag))
  markStep tag state.stageId 0
  onLiveMarkers (snapshotMarker retain choice.torn)
  check choice.archived .fail
  write (placeStage state.stageId)
  check choice.extracted .artifact
  markStep tag state.stageId 1
  pure state

section
variable (choice : LegacyBuildChoice)

def legacyWork (step : ℕ) : Deploy Unit := do
  onMarkers (helperWrites (if step=buildStep then choice.scriptWrites else []))
  check (choice.failsAt≠some step) .fail

/-- One legacy step, unless it is done. -/
def legacyStep (tag : String) (stageId : StageId) (done step : ℕ) : Deploy Unit :=
  if step<done then pure ()
  else do
    legacyWork choice step
    markStep tag stageId (step+1)

/-- Steps after the extraction. -/
def legacyRest (tag : String) (state : Record) (done : ℕ) :
    Deploy Unit := do
  legacyStep choice tag state.stageId done 1
  legacyStep choice tag state.stageId done 2
  legacyStep choice tag state.stageId done 3
  legacyStep choice tag state.stageId done buildStep
  check choice.artifactsOk .artifact
  markStep tag state.stageId legacySteps
  let _ ← save {state with state := .built}
  pure ()

end

section
variable (retain : Bool) (choice : LegacyBuildChoice) (tag : String)

/-- Build in hand: the interrupted one or a new one. -/
def legacyInHand (done : ℕ) : Deploy Record :=
  if done=0 then legacyStage retain choice tag
  else do
    let disk ← fetch
    match disk.record with
    | some state => pure state
    | none => fail .precond

def buildLegacy : Deploy Unit := do
  let disk ← fetch
  check (!isCompletedSwap disk.record) .precond
  let done := doneSteps choice tag disk
  let state ← legacyInHand retain choice tag done
  handle (legacyRest choice tag state (max done 1)) (buildFailed retain choice.torn)

end

/-- What `rollback legacy` meets. -/
structure LegacyChoice where
  admitted : Bool
  tag : String
  validated : Bool
  building : LegacyBuildChoice
  activating : ActivateChoice
  finishing : FinishChoice

/-- The stage of the tag is live and not confirmed. -/
def legacySwapped (tag : String) (record : Option Record) : Bool := record.any fun state =>
    state.source=some (.legacyTag tag)&&isCompletedSwap (some state) &&
      state.inflight.any fun inflight => inflight.kind=.activate&&inflight.stageId=state.stageId

/-- The state file says the stage of the tag went live. -/
def legacyActive (tag : String) (record : Option Record) : Bool := record.any fun state =>
    state.source=some (.legacyTag tag) &&
      (state.state=.active||state.state=.purged||state.state=.purgeFailed)

def legacyAlready (tag : String) (disk : Disk) : Bool := disk.record.any fun state =>
    state.source=some (.legacyTag tag) &&
      (state.state=.built||state.state=.active||state.state=.purged || state.state=.purgeFailed) &&
      disk.legacyJournal.any fun journal =>
        journal.stageId=state.stageId&&journal.completed=legacySteps

/-- Build the tag, unless its stage is live or built. -/
def buildUnless (retain : Bool) (choice : LegacyChoice) (found : Bool) : Rollback Unit :=
  if found then pure () else onDisk (buildLegacy retain choice.building choice.tag)

/-- The record names the stage, where it names none. -/
def nameStage : Rollback Unit :=
  if op.stageId.isNone then write (setOpStage op) else pure ()

/-- Put the stage of the tag live, or confirm it. -/
def legacyLive (retain : Bool) (choice : LegacyChoice) (swapped : Bool) : Rollback Unit := do
  let root ← fetch
  if swapped then onDisk (resume retain choice.finishing.resuming)
  else if legacyActive choice.tag root.disk.record then pure ()
  else onDisk (activate retain choice.activating)

def rollbackLegacy (choice : LegacyChoice) : Rollback Unit := do
  check choice.admitted .root
  check (choice.tag ≠ "") .usage
  let claimed ← claim .legacy (some (.inl choice.tag))
  let root ← fetch
  check (idle root.disk.record||resumeBuilding choice.tag root.disk) .recover
  check choice.validated .precond
  let swapped := legacySwapped choice.tag root.disk.record
  let op ← ensureOp claimed .legacy (.inl choice.tag)
  buildUnless retain choice (swapped||legacyAlready choice.tag root.disk)
  nameStage op
  legacyLive retain choice swapped
  purgeStep production choice.finishing.purging
  clearOp

/-- Command of the deploy tools with what it meets. -/
inductive RollbackCommand
  | entry (command : Command)
  | previous (choice : PreviousChoice)
  | composed (choice : ComposedChoice)
  | legacy (choice : LegacyChoice)

def RollbackCommand.program : RollbackCommand → Rollback Unit
  | .entry command => onDisk (command.program retain)
  | .previous choice => rollbackPrevious retain production choice
  | .composed choice => rollbackComposed retain production choice
  | .legacy choice => rollbackLegacy retain production choice

/-- One command; a number kills it after that many of its durable writes. -/
def rollbackStep (root : Root)
    (action : RollbackCommand×Option ℕ) : Unit×Root :=
  ((),(action.1.program retain production).leaves root action.2)

/-- Root before the first deployment. -/
def firstRoot (marker : Option Content) : Root := ⟨firstDisk marker,[]⟩

/-- Root reached by some sequence of commands, failures and kills. -/
def RollbackReached (marker : Option Content) (root : Root) : Prop :=
  ∃ h, RunHistory.Run (rollbackStep retain production) (fun _ _ _ => True) (firstRoot marker) h root

end SellRight.DeployRollback
