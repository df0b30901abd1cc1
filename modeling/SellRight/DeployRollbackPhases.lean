import SellRight.DeployMarkerSpecs
import SellRight.DeployRollback

/-!
# What the state file says of a rollback

Each phase of the state file says whether the stage of the latest build is live
and whether the live release passed its smoke. One lemma for each way the deploy
tools rewrite the state file says what the new record says.
-/

namespace SellRight.DeployRollbackPhases

open CrashSteps CrashSteps.Program DeployRecord DeployMarker DeployMarkerSpecs DeployEntry
open DeployRollback

/-- What a rollback reads of a root. -/
structure Books where
  record : Option Record
  serial : ℕ
  rollbackOp : Option RollbackOp
  legacyJournal : Option LegacyJournal

/-- Books of a root. -/
def booksOf (disk : Disk) : Books := ⟨disk.record,disk.serial,disk.rollbackOp,disk.legacyJournal⟩

/-- The ids of a record have been drawn, and its previous release is not its stage. -/
structure Drawn (serial : ℕ) (state : Record) : Prop where
  stage : ∃ n<serial, state.stageId=.stage n
  live : ∀ id∈liveStage (some state), Known serial id
  prev : ∀ id∈prevStage (some state), Known serial id
  apart : prevStage (some state)≠some state.stageId

/-- The live release passed its smoke. -/
def Confirmed (state : Record) : Prop :=
  ∃ activation∈state.activations.getLast?, liveStage (some state)=some activation.stageId

/-- Kind of the operation in flight, its final state, and whether its stage is
the one built last. -/
def Fits (state : Record) (inflight : Inflight) : Prop :=
  (inflight.kind=.activate∧inflight.finalState=.active∧inflight.stageId=state.stageId) ∨
  (inflight.kind=.restore∧inflight.finalState=.restoredPrevious∧inflight.stageId≠state.stageId)

/-- Once its renames are in effect the stage of the operation in flight is live. -/
structure Arriving (serial : ℕ) (state : Record) (operation : Inflight) : Prop where
  inflight : state.inflight=some operation
  fits : Fits state operation
  live : liveStage (some (afterSwap state))=some operation.stageId
  drawn : Drawn serial (afterSwap state)

/-- What a state between two swaps says. -/
def Rests (serial : ℕ) (state : Record) : Phase → Prop
  | .building | .built | .buildFailed =>
    state.pending=none∧liveStage (some state)≠some state.stageId
  | .active => Confirmed state∧liveStage (some state)=some state.stageId
  | .restoredPrevious => Confirmed state∧liveStage (some state)≠some state.stageId
  | .purged | .purgeFailed => Confirmed state
  | .activateFailed | .smokeFailed => state.pending=none∧∃ inflight, Arriving serial state inflight
  | .activating => False

/-- What a record says. -/
structure Placed (serial : ℕ) (state : Record) : Prop where
  drawn : Drawn serial state
  rests : state.state≠.activating → Rests serial state state.state
  /-- During a swap: where it leads, and what it may go back to. -/
  swapping : state.state=.activating→(∃ inflight, Arriving serial state inflight) ∧
    ∃ phase, state.swapFrom=some phase∧Rests serial state.undone phase

/-- The stage of the latest build was built. -/
def Built (state : Record) : Prop :=
  state.state=.built∨(state.state=.activating∧state.swapFrom=some .built) ∨
    liveStage (some state)=some state.stageId ∨
    liveStage (some (afterSwap state))=some state.stageId

/-- The journal says that every step of the legacy build of the stage is done. -/
def Journaled (journal : Option LegacyJournal) (stageId : StageId) : Prop :=
  ∃ entry∈journal, entry.stageId=stageId∧entry.completed=legacySteps

/-- The operation rolls back to the tag the stage is built from. -/
def FromTag (op : RollbackOp) (state : Record) : Prop :=
  ∃ tag, op.target=.inl tag∧state.source=some (.legacyTag tag)

/-- State file, rollback record and journal agree. -/
structure Sound (books : Books) : Prop where
  placed : ∀ state∈books.record, Placed books.serial state
  drawn : ∀ op∈books.rollbackOp, ∀ id∈op.stageId, Known books.serial id
  journaled : ∀ state∈books.record, ∀ tag, state.source=some (.legacyTag tag) →
    Built state → Journaled books.legacyJournal state.stageId
  named : ∀ op∈books.rollbackOp, op.kind=.legacy→∀ state∈books.record,
    op.stageId=some state.stageId → FromTag op state
  /-- A restore of the previous tree names its target. -/
  previous : ∀ op∈books.rollbackOp, op.kind=.previous → ∃ id, op.target=.inr id∧op.stageId=some id

variable {phase : Phase} {operation : Inflight}

section Records

variable {serial : ℕ} {state next : Record} {inflight : Inflight}

theorem Drawn.transfer (h : Drawn serial state) (hsta : next.stageId=state.stageId)
    (hlv : liveStage (some next)=liveStage (some state))
    (hpv : prevStage (some next)=prevStage (some state)) : Drawn serial next := by
  refine ⟨?_,?_,?_,?_⟩
  · rw [hsta]
    exact h.stage
  · rw [hlv]
    exact h.live
  · rw [hpv]
    exact h.prev
  · rw [hsta,hpv]
    exact h.apart

/-- The state a release was left in does not matter. -/
theorem liveStage_withState {release : Option Release} :
    (withState phase release).map (·.stageId)=release.map (·.stageId) := by
  cases release <;> rfl

/-- Without renames in hand nothing changes. -/
theorem liveStage_afterSwap (hpen : state.pending=none) :
    liveStage (some (afterSwap state))=liveStage (some state) := by
  unfold afterSwap
  rw [hpen]
  rfl

/-- Without renames in hand nothing changes. -/
theorem prevStage_afterSwap (hpen : state.pending=none) :
    prevStage (some (afterSwap state))=prevStage (some state) := by
  unfold afterSwap
  rw [hpen]
  rfl

theorem isCompletedSwap_iff : isCompletedSwap (some state)=true ↔
    ∃ inflight, state.inflight=some inflight∧state.state∈unconfirmed ∧
      state.pending=none∧liveStage (some state)=some inflight.stageId := by
  have hlv : liveStage (some state)=state.live.map (·.stageId) := rfl
  rw [hlv]
  unfold isCompletedSwap
  cases hinf : state.inflight with
  | none => simp [hinf]
  | some => simp [hinf,and_assoc]

theorem Placed.arriving (h : Placed serial state) (hcom : isCompletedSwap (some state)=true) :
    ∃ inflight, Arriving serial state inflight := by
  obtain ⟨-,-,hst,-,-⟩ := isCompletedSwap_iff.mp hcom
  have hres := h.rests fun hact => by
    rw [hact] at hst
    simp [unconfirmed] at hst
  cases hph : state.state with
  | activateFailed | smokeFailed =>
    rw [hph] at hres
    exact hres.2
  | _ =>
    rw [hph] at hst
    simp [unconfirmed] at hst

theorem Placed.confirmed (h : Placed serial state) (hpur : state.state∈purgeable) :
    Confirmed state := by
  have hres := h.rests fun hact => by
    rw [hact] at hpur
    simp [purgeable] at hpur
  cases hph : state.state <;> rw [hph] at hpur hres <;> simp [purgeable] at hpur
  · exact hres.1
  · exact hres
  · exact hres
  · exact hres.1

/-- A rest state under another record with the same releases and stage. -/
theorem Rests.transfer (h : Rests serial state phase)
    (hsta : next.stageId=state.stageId) (hlv : liveStage (some next)=liveStage (some state))
    (hpv : prevStage (some next)=prevStage (some state)) (hact : next.activations=state.activations)
    (hinf : next.inflight=state.inflight) (hpen : next.pending=none) : Rests serial next phase := by
  have hcon : Confirmed state → Confirmed next := by
    rintro ⟨activation,hlt,hlv'⟩
    refine ⟨activation,?_,hlv.trans hlv'⟩
    rw [hact]
    exact hlt
  have harr : state.pending=none→(∃ operation, Arriving serial state operation) →
      ∃ operation, Arriving serial next operation := by
    rintro hno ⟨operation,hope⟩
    have haft : liveStage (some (afterSwap next))=liveStage (some (afterSwap state)) := by
      rw [liveStage_afterSwap hpen,liveStage_afterSwap hno,hlv]
    have hbef : prevStage (some (afterSwap next))=prevStage (some (afterSwap state)) := by
      rw [prevStage_afterSwap hpen,prevStage_afterSwap hno,hpv]
    refine ⟨operation,hinf.trans hope.inflight,?_,haft.trans hope.live,
      hope.drawn.transfer hsta haft hbef⟩
    unfold Fits
    rw [hsta]
    exact hope.fits
  cases phase with
  | building | built | buildFailed =>
    refine ⟨hpen,?_⟩
    rw [hlv,hsta]
    exact h.2
  | active | restoredPrevious =>
    refine ⟨hcon h.1,?_⟩
    rw [hlv,hsta]
    exact h.2
  | purged | purgeFailed => exact hcon h
  | activateFailed | smokeFailed => exact ⟨hpen,harr h.1 h.2⟩
  | activating => exact h

/-- A record between two swaps. -/
theorem placed_of_rests (hdra : Drawn serial state)
    (hres : Rests serial state state.state) : Placed serial state := by
  refine ⟨hdra,fun _ => hres,fun hact => ?_⟩
  rw [hact] at hres
  exact hres.elim

theorem placed_newState {source : Option Source} {prior : Option Record}
    (h : ∀ state∈prior, Placed serial state) :
    Placed (serial+1) (newState (.stage serial) source prior) := by
  have hkn : ∀ id, Known serial id→id≠.stage serial := by
    rintro id hid rfl
    exact lt_irrefl _ hid
  have hlv : ∀ id∈liveStage prior, Known serial id := by
    intro id hid
    cases prior with
    | none => cases hid
    | some state => exact (h state rfl).drawn.live id hid
  have hpv : ∀ id∈prevStage prior, Known serial id := by
    intro id hid
    cases prior with
    | none => cases hid
    | some state => exact (h state rfl).drawn.prev id hid
  refine placed_of_rests ⟨⟨serial,Nat.lt_succ_self _,rfl⟩,
    fun id hid => (hlv id hid).mono (Nat.le_succ _),
    fun id hid => (hpv id hid).mono (Nat.le_succ _),?_⟩ ⟨rfl,?_⟩
  · exact fun heq => hkn _ (hpv _ heq) rfl
  · exact fun heq => hkn _ (hlv _ heq) rfl

section
variable (h : Placed serial state)
include h

/-- A stage that was just built or failed is not live, and nothing waits for it. -/
theorem Placed.unswapped (hph : state.state=.building ∨
    state.state=.built∨state.state=.buildFailed) :
    state.pending=none∧liveStage (some state)≠some state.stageId := by
  rcases hph with hph|hph|hph
  all_goals
    have hres := h.rests (by rw [hph]; exact Phase.noConfusion)
    rw [hph] at hres
    exact hres

theorem Placed.rebuilt (hbui : state.state=.building ∨
    state.state=.built) (hnx : next.state=.building∨next.state=.built ∨
    next.state=.buildFailed) (hsta : next.stageId=state.stageId)
    (hlv : next.live=state.live) (hpv : next.prev=state.prev)
    (hpen : next.pending=state.pending) : Placed serial next := by
  have hres := h.unswapped (hbui.imp_right .inl)
  have hliv : liveStage (some next)=liveStage (some state) :=
    congrArg (Option.map Release.stageId) hlv
  have hpre : prevStage (some next)=prevStage (some state) :=
    congrArg (Option.map Release.stageId) hpv
  refine placed_of_rests (h.drawn.transfer hsta hliv hpre) ?_
  have hbo : next.pending=none∧liveStage (some next)≠some next.stageId := by
    rw [hpen,hliv,hsta]
    exact hres
  rcases hnx with hph|hph|hph
  · rw [hph]
    exact hbo
  · rw [hph]
    exact hbo
  · rw [hph]
    exact hbo

/-- An activation leads to its stage. -/
theorem Placed.activating (hbui : state.state=.built) :
    Placed serial state.activating := by
  have hres := h.rests (by rw [hbui]; exact Phase.noConfusion)
  rw [hbui] at hres
  obtain ⟨hpen,hlv⟩ := hres
  obtain ⟨n,hn,hsta⟩ := h.drawn.stage
  have hkn : Known serial state.stageId := by
    rw [hsta]
    exact hn
  have hold : ∀ id∈prevStage (some (afterSwap state.activating)),
      Known serial id∧id≠state.stageId := by
    intro id hid
    cases hid
    cases hcas : state.live with
    | none =>
      refine ⟨trivial,?_⟩
      rw [hsta]
      exact StageId.noConfusion
    | some release =>
      have hrel : liveStage (some state)=some release.stageId :=
        congrArg (Option.map Release.stageId) hcas
      refine ⟨h.drawn.live _ hrel,fun heq => hlv ?_⟩
      rw [hrel,← heq]
      rfl
  have harr : ∃ operation, Arriving serial state.activating operation := by
    refine ⟨_,rfl,.inl ⟨rfl,rfl,rfl⟩,rfl,⟨⟨n,hn,hsta⟩,?_,?_,?_⟩⟩
    · rintro id ⟨⟩
      exact hkn
    · exact fun id hid => (hold id hid).1
    · exact fun heq => (hold _ heq).2 rfl
  refine ⟨h.drawn.transfer rfl rfl rfl,fun hidl => (hidl rfl).elim,fun _ => ⟨harr,.built,rfl,?_⟩⟩
  have hbef : Rests serial state .built := ⟨hpen,hlv⟩
  exact hbef.transfer rfl rfl rfl rfl rfl rfl

theorem Placed.restoring {prev : Release}
    (hidl : state.state≠.activating) (hpv : state.prev=some prev) :
    Placed serial (state.restoring prev) := by
  have hsta : prevStage (some state)=some prev.stageId :=
    congrArg (Option.map Release.stageId) hpv
  have hapa : prev.stageId≠state.stageId := fun heq => h.drawn.apart (by rw [hsta,heq])
  have harr : ∃ operation, Arriving serial (state.restoring prev) operation := by
    refine ⟨_,rfl,.inr ⟨rfl,rfl,hapa⟩,rfl,⟨h.drawn.stage,?_,?_,?_⟩⟩
    · rintro id ⟨⟩
      exact h.drawn.prev _ hsta
    · exact nofun
    · exact nofun
  refine ⟨h.drawn.transfer rfl rfl rfl,fun hrt => (hrt rfl).elim,fun _ => ⟨harr,state.state,rfl,?_⟩⟩
  exact (h.rests hidl).transfer rfl rfl rfl rfl rfl rfl

end

/-- Recorded renames and the target of a composed rollback do not matter. -/
theorem Rests.annotated (h : Rests serial state phase) (ops : List RenameOp)
    (target : Option String) :
    Rests serial {state with swap := ops,rollbackTarget := target} phase := by
  cases phase with
  | activateFailed | smokeFailed =>
    obtain ⟨hpen,operation,hope⟩ := h
    exact ⟨hpen,operation,hope.inflight,hope.fits,hope.live,hope.drawn.transfer rfl rfl rfl⟩
  | _ => exact h

/-- Recorded renames and the target of a composed rollback do not matter. -/
theorem Placed.annotated (h : Placed serial state) (ops : List RenameOp) (target : Option String) :
    Placed serial {state with swap := ops,rollbackTarget := target} := by
  refine ⟨h.drawn.transfer rfl rfl rfl,fun hidl => (h.rests hidl).annotated ops target,
    fun hact => ?_⟩
  obtain ⟨⟨operation,hope⟩,phase,hph,hres⟩ := h.swapping hact
  exact ⟨⟨operation,hope.inflight,hope.fits,hope.live,
    hope.drawn.transfer rfl rfl rfl⟩,phase,hph,hres.annotated [] target⟩

/-- Finishing the renames leaves the live stage they end with. -/
theorem liveStage_completed (state : Record) (failState : Phase) :
    liveStage (some (state.completed failState))=liveStage (some (afterSwap state)) ∧
      liveStage (some (afterSwap (state.completed failState)))=liveStage (some (afterSwap state)) :=
  ⟨liveStage_withState,(liveStage_afterSwap rfl).trans liveStage_withState⟩

/-- Finished renames that are not confirmed. -/
theorem Arriving.completed (h : Arriving serial state operation)
    {failState : Phase} (hfai : failState∈unconfirmed) :
    Placed serial (state.completed failState) := by
  obtain ⟨hlv,haft⟩ := liveStage_completed state failState
  have hpv : prevStage (some (afterSwap (state.completed failState))) =
      prevStage (some (afterSwap state)) := prevStage_afterSwap rfl
  have harr : Arriving serial (state.completed failState) operation :=
    ⟨h.inflight,h.fits,haft.trans h.live,h.drawn.transfer rfl haft hpv⟩
  refine placed_of_rests (h.drawn.transfer rfl hlv rfl) ?_
  simp only [unconfirmed,List.mem_cons,List.not_mem_nil,or_false] at hfai
  rcases hfai with rfl|rfl
  · exact ⟨rfl,operation,harr⟩
  · exact ⟨rfl,operation,harr⟩

theorem Arriving.confirmed (h : Arriving serial state operation) :
    Placed serial (state.confirmed operation) := by
  have hlv : liveStage (some (state.confirmed operation)) =
      liveStage (some (afterSwap state)) := liveStage_withState
  have hpas : Confirmed (state.confirmed operation) := by
    refine ⟨⟨operation.historyId,operation.stageId,operation.kind,operation.origin⟩,?_,
      hlv.trans h.live⟩
    exact List.getLast?_concat
  refine placed_of_rests (h.drawn.transfer rfl hlv rfl) ?_
  change Rests serial (state.confirmed operation) operation.finalState
  rcases h.fits with ⟨-,hfin,hsta⟩|⟨-,hfin,hsta⟩
  · rw [hfin]
    exact ⟨hpas,(hlv.trans h.live).trans (congrArg some hsta)⟩
  · rw [hfin]
    refine ⟨hpas,fun heq => hsta (Option.some.inj ?_)⟩
    exact h.live.symm.trans (hlv.symm.trans heq)

/-- A purge leaves the live release confirmed. -/
theorem Placed.purged (h : Placed serial state)
    (hpur : state.state∈purgeable) (hph : phase=.purged∨phase=.purgeFailed) :
    Placed serial {state with state := phase,live := withState phase state.live} := by
  have hlv : liveStage (some {state with state := phase,live := withState phase state.live}) =
      liveStage (some state) := liveStage_withState
  have hpas : Confirmed {state with state := phase,live := withState phase state.live} := by
    obtain ⟨activation,hlt,heq⟩ := h.confirmed hpur
    exact ⟨activation,hlt,hlv.trans heq⟩
  refine placed_of_rests (h.drawn.transfer rfl hlv rfl) ?_
  rcases hph with rfl|rfl
  · exact hpas
  · exact hpas

/-- A reversed swap. -/
theorem Placed.undone (h : Placed serial state) (hact : state.state=.activating) :
    Placed serial state.undone := by
  obtain ⟨-,phase,hph,hres⟩ := h.swapping hact
  have hst : state.undone.state=phase := by
    unfold Record.undone
    rw [hph]
    rfl
  refine placed_of_rests (h.drawn.transfer rfl rfl rfl) ?_
  rw [hst]
  exact hres

theorem Placed.built_of_restoring {prev : Release} (h : Placed serial state)
    (hpv : state.prev=some prev) (hbui : Built (state.restoring prev)) : Built state := by
  rcases hbui with hph|⟨-,hfro⟩|hlv|hlv
  · cases hph
  · exact .inl (Option.some.inj hfro)
  · exact .inr (.inr (.inl hlv))
  · refine absurd ?_ h.drawn.apart
    exact (congrArg (Option.map Release.stageId) hpv).trans hlv

/-- Finished renames build nothing. -/
theorem built_of_completed {failState : Phase} (hfai : failState∈unconfirmed)
    (hbui : Built (state.completed failState)) : Built state := by
  obtain ⟨hlv,haft⟩ := liveStage_completed state failState
  rcases hbui with hph|⟨hph,-⟩|heq|heq
  · have hst : failState=.built := hph
    rw [hst] at hfai
    simp [unconfirmed] at hfai
  · have hst : failState=.activating := hph
    rw [hst] at hfai
    simp [unconfirmed] at hfai
  · exact .inr (.inr (.inr (hlv.symm.trans heq)))
  · exact .inr (.inr (.inr (haft.symm.trans heq)))

theorem Arriving.built_of_confirmed (h : Arriving serial state operation)
    (hbui : Built (state.confirmed operation)) : Built state := by
  have hlv : liveStage (some (state.confirmed operation)) =
      liveStage (some (afterSwap state)) := liveStage_withState
  have haft : liveStage (some (afterSwap (state.confirmed operation))) =
      liveStage (some (afterSwap state)) := (liveStage_afterSwap rfl).trans hlv
  have hfin : operation.finalState≠.built∧operation.finalState≠.activating := by
    rcases h.fits with ⟨-,hfin,-⟩|⟨-,hfin,-⟩
    · rw [hfin]
      exact ⟨Phase.noConfusion,Phase.noConfusion⟩
    · rw [hfin]
      exact ⟨Phase.noConfusion,Phase.noConfusion⟩
  rcases hbui with hph|⟨hph,-⟩|heq|heq
  · exact absurd hph hfin.1
  · exact absurd hph hfin.2
  · exact .inr (.inr (.inr (hlv.symm.trans heq)))
  · exact .inr (.inr (.inr (haft.symm.trans heq)))

theorem built_of_purged (hph : phase=.purged∨phase=.purgeFailed)
    (hbui : Built {state with state := phase,live := withState phase state.live}) :
    Built state := by
  have hlv : liveStage (some {state with state := phase,live := withState phase state.live}) =
      liveStage (some state) := liveStage_withState
  rcases hbui with hst|⟨hst,-⟩|heq|heq
  · rcases hph with rfl|rfl <;> cases hst
  · rcases hph with rfl|rfl <;> cases hst
  · exact .inr (.inr (.inl (hlv.symm.trans heq)))
  refine .inr (.inr (.inr ?_))
  rw [← show _=some state.stageId from heq]
  unfold afterSwap liveStage
  cases state.pending with
  | none => exact liveStage_withState.symm
  | some => rfl

/-- A reversed swap builds nothing. -/
theorem Placed.built_of_undone (h : Placed serial state) (hact : state.state=.activating)
    (hbui : Built state.undone) : Built state := by
  obtain ⟨-,phase,hph,-⟩ := h.swapping hact
  rcases hbui with hst|⟨-,hno⟩|heq|heq
  · refine .inr (.inl ⟨hact,?_⟩)
    unfold Record.undone at hst
    rw [hph] at hst ⊢
    exact congrArg some hst
  · refine .inr (.inl ⟨hact,hno⟩)
  · exact .inr (.inr (.inl heq))
  · exact .inr (.inr (.inl heq))

theorem Placed.not_built (h : Placed serial state)
    (hph : state.state=.building∨state.state=.buildFailed) : ¬ Built state := by
  obtain ⟨hpen,hlv⟩ := h.unswapped (hph.imp_right .inr)
  rintro (hst|⟨hst,-⟩|heq|heq)
  · rcases hph with hot|hot <;> rw [hot] at hst <;> cases hst
  · rcases hph with hot|hot <;> rw [hot] at hst <;> cases hst
  · exact hlv heq
  · rw [liveStage_afterSwap hpen] at heq
    exact hlv heq

end Records

end SellRight.DeployRollbackPhases
