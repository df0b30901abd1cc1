import Mathlib.Tactic

/-!
# The record and the trees of a deployment root

One root holds the live storefront tree and its siblings. A state file names the
build in hand, the operation in flight and the releases the trees hold; the
guards of the deploy commands read nothing else.
-/

namespace SellRight.DeployRecord

/-- Identity of a stage; ids drawn at random are told apart by a serial. -/
inductive StageId
  /-- Tree that was live before the first deployment. -/
  | legacy
  | unknown
  | stage (serial : ℕ)
  deriving DecidableEq

/-- Origin of a release. -/
inductive Source
  | compose (historyId : String)
  | legacyTag (tag : String)
  | bare (text : String)
  deriving DecidableEq

/-- Source without its mark. -/
def Source.historyId : Source → String
  | .compose id => id
  | .legacyTag tag => tag
  | .bare text => text

/-- Mark of a source. -/
def Source.origin : Source → String
  | .compose _ => "compose"
  | .legacyTag _ => "legacy"
  | .bare text => text

/-- Value of the state file's `state`. -/
inductive Phase
  | building
  | built
  | buildFailed
  | activating
  | active
  | activateFailed
  | smokeFailed
  | purged
  | purgeFailed
  | restoredPrevious
  deriving DecidableEq

/-- `UNCONFIRMED`: the live tree never confirmed its restart and smoke. -/
def unconfirmed : List Phase := [.activateFailed,.smokeFailed]

def purgeable : List Phase := [.active,.purged,.purgeFailed,.restoredPrevious]

/-- Release as the state file names it. -/
structure Release where
  stageId : StageId
  source : Option Source
  lastState : Option Phase

/-- Path of a tree under the root. -/
inductive Slot
  | live
  | next
  | prev
  | failed
  | removed

/-- Content of a tree path. -/
inductive Tree
  | release (id : StageId)
  | remnant
  deriving DecidableEq

/-- Trees under the root. -/
structure Trees where
  (live next prev failed removed : Option Tree)
  deriving DecidableEq

/-- Tree at a path. -/
def Trees.at (trees : Trees) : Slot → Option Tree
  | .live => trees.live
  | .next => trees.next
  | .prev => trees.prev
  | .failed => trees.failed
  | .removed => trees.removed

/-- Trees after one path changed. -/
def Trees.put (trees : Trees) (tree : Option Tree) : Slot → Trees
  | .live => {trees with live := tree}
  | .next => {trees with next := tree}
  | .prev => {trees with prev := tree}
  | .failed => {trees with failed := tree}
  | .removed => {trees with removed := tree}

/-- `renamePath` -/
def Trees.rename (trees : Trees) (source target : Slot) : Trees :=
  (trees.put none source).put (trees.at source) target

/-- Progress of a recorded rename. -/
inductive OpStatus
  | pending
  | skipped
  | started
  | done

/-- Recorded rename of a swap. -/
structure RenameOp where
  (source target : Slot)
  /-- Skipped when there is nothing to rename. -/
  isOptional : Bool
  status : OpStatus

/-- Old prev aside, live to prev, stage to live. -/
def swapOps : List RenameOp := [⟨.prev,.removed,true,.pending⟩,⟨.live,.prev,false,.pending⟩,
    ⟨.next,.live,false,.pending⟩]

/-- Old failed aside, live to failed, prev to live. -/
def restoreOps : List RenameOp := [⟨.failed,.removed,true,.pending⟩,⟨.live,.failed,false,.pending⟩,
    ⟨.prev,.live,false,.pending⟩]

/-- Kind of swap in flight. -/
inductive SwapKind
  | activate
  | restore
  deriving DecidableEq

/-- What the renames in hand will make of the recorded releases. -/
structure Pending where
  live : Release
  (prev failed : Option Release)

/-- Operation in flight. -/
structure Inflight where
  kind : SwapKind
  finalState : Phase
  historyId : Option String
  stageId : StageId
  origin : Option String
  /-- History id a composed rollback was asked for. -/
  target : Option String

/-- Confirmed activation; its smoke passed. -/
structure Activation where
  historyId : Option String
  stageId : StageId
  kind : SwapKind
  origin : Option String

/-- The state file. -/
structure Record where
  stageId : StageId
  source : Option Source
  state : Phase
  swapFrom : Option Phase
  swap : List RenameOp
  /-- Releases once the renames are in effect. -/
  pending : Option Pending
  inflight : Option Inflight
  /-- Operation in flight when the swap started. -/
  inflightBefore : Option Inflight
  (live prev failed : Option Release)
  activations : List Activation
  /-- History id the built stage of a composed rollback was asked for. -/
  rollbackTarget : Option String

/-- Record with other renames. -/
def Record.withSwap (state : Record) (ops : List RenameOp) : Record := {state with swap := ops}

/-- `newState` of a build: the record of any operation in flight is dropped. -/
def newState (stageId : StageId) (source : Option Source) (prior : Option Record) : Record where
  stageId := stageId
  source := source
  state := .building
  swapFrom := none
  swap := []
  pending := none
  inflight := none
  inflightBefore := none
  live := prior.bind (·.live)
  prev := prior.bind (·.prev)
  failed := none
  activations := (prior.map (·.activations)).getD []
  rollbackTarget := none

/-- Identity of the live release a marker snapshot describes. -/
def liveId (record : Option Record) : StageId :=
  ((record.bind (·.live)).map (·.stageId)).getD .legacy

def liveName (release : Option Release) : Option Release :=
  release.map fun live => {live with lastState := none}

/-- Release with the state it was left in. -/
def withState (state : Phase) (release : Option Release) : Option Release :=
  release.map fun live => {live with lastState := some state}

/-- A leftover stage may be replaced when the state file accounts for it. -/
def stageReplaceable (record : Option Record) : Bool :=
  match record with
  | none => false
  | some state =>
    if state.state=.buildFailed∨state.state=.built then true
    else
      let used := [state.live,state.prev,state.failed].map fun release => release.map (·.stageId)
      !used.contains (some state.stageId)

/-- The operation in flight finished its renames but never confirmed its
restart and smoke. -/
def isCompletedSwap (record : Option Record) : Bool :=
  match record with
  | none => false
  | some state =>
    match state.inflight with
    | none => false
    | some inflight =>
      unconfirmed.contains state.state&&state.pending.isNone &&
        (state.live.map (·.stageId)) == some inflight.stageId

/-- The live release never confirmed its restart and smoke. -/
def liveUnconfirmed (record : Record) : Bool :=
  match record.live.bind (·.lastState) with
  | none => false
  | some state => unconfirmed.contains state

section
variable (state : Record)

/-- What the state records as live, prev and failed once the pending renames
are in effect. -/
def afterSwap : Record := {state with
    live := (state.pending.map (·.live)).or state.live
    prev := match state.pending with
      | some pending => pending.prev
      | none => state.prev
    failed := (state.pending.bind (·.failed)).or state.failed}

/-- Record `recover` leaves of a swap that finished its renames; a failed
restart or smoke leaves the same with its own state. -/
def Record.completed (failState : Phase) : Record := {afterSwap state with
    state := failState
    swap := []
    live := withState failState (afterSwap state).live
    pending := none}

/-- Record `recover` leaves of a swap it reversed. -/
def Record.undone : Record := {state with
    state := state.swapFrom.getD .built
    swap := []
    pending := none
    inflight := state.inflightBefore
    inflightBefore := none}

def Record.confirmed (activation : Inflight) : Record := {afterSwap state with
    state := activation.finalState
    pending := none
    swap := []
    inflight := none
    inflightBefore := none
    live := withState activation.finalState (afterSwap state).live
    activations := state.activations ++
      [⟨activation.historyId,activation.stageId,activation.kind,activation.origin⟩]}

end

/-- Record of an activation about to swap. -/
def Record.activating (state : Record) : Record :=
  let oldLive := state.live.getD ⟨.legacy,some (.bare "legacy"),none⟩
  {state with
    state := .activating
    swapFrom := some .built
    inflightBefore := state.inflight
    inflight := some
      { kind := .activate
        finalState := .active
        historyId := state.source.map Source.historyId
        stageId := state.stageId
        origin := state.source.map Source.origin
        target := state.rollbackTarget}
    pending := some ⟨⟨state.stageId,state.source,none⟩,some oldLive,none⟩
    swap := []}

/-- Record of a restore of the previous tree about to swap. -/
def Record.restoring (state : Record) (prev : Release) : Record := {state with
    state := .activating
    swapFrom := some state.state
    inflightBefore := state.inflight
    inflight := some
      { kind := .restore
        finalState := .restoredPrevious
        historyId := prev.source.map Source.historyId
        stageId := prev.stageId
        origin := prev.source.map Source.origin
        target := none}
    pending := some ⟨prev,none,
      some ((liveName state.live).getD ⟨.unknown,some (.bare "unknown"),none⟩)⟩
    swap := []}

end SellRight.DeployRecord
