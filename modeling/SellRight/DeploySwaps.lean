import SellRight.DeployEntry

/-!
# Swaps of the trees of a deployment root

Either the trees are settled under the ids the state file records, or a swap is
between two of its renames and both ways out are known: what its reversal and
what its completion would leave. The renames and their recovery are followed write
by write under that invariant.
-/

namespace SellRight.DeploySwaps

open CrashSteps CrashSteps.Program DeployRecord DeployMarker DeployEntry RunHistory List

/-- Id of the recorded previous release. -/
def prevId (record : Option Record) : Option StageId := (record.bind (·.prev)).map (·.stageId)

/-- Trees stand where the ids say, one of them verified. -/
structure Holds (liveStage : StageId) (prevStage : Option StageId) (trees : Trees)
    (verified : List StageId) : Prop where
  removed : trees.removed=none
  live : trees.live=some (.release liveStage)
  prev : trees.prev=prevStage.map .release
  prevVerified : ∀ id∈prevStage, id∈verified
  fallback : liveStage∈verified∨prevStage.isSome

/-- Trees settled under a state record. -/
structure Settled (record : Option Record) (trees : Trees) (verified : List StageId) : Prop where
  holds : Holds (liveId record) (prevId record) trees verified
  confirmed : (∀ state∈record, liveUnconfirmed state=false)→liveId record∈verified
  purgeable : ∀ state∈record, state.state∈purgeable→liveId record∈verified
  built : ∀ state∈record, state.state=.built→trees.next=some (.release state.stageId)

def kindOps : SwapKind → List RenameOp
  | .activate => swapOps
  | .restore => restoreOps

/-- Trees once the old tree in the way is aside. -/
def asideTrees : SwapKind → Trees → Trees
  | .activate, base => {base with prev := none,removed := base.prev}
  | .restore, base => {base with failed := none,removed := base.failed}

/-- Trees once the live tree is displaced. -/
def displacedTrees : SwapKind → Trees → Trees
  | .activate, base => {base with live := none,prev := base.live,removed := base.prev}
  | .restore, base => {base with live := none,failed := base.live,removed := base.failed}

/-- Trees with every rename in effect. -/
def swappedTrees : SwapKind → Trees → Trees
  | .activate, base =>
    {base with live := base.next,next := none,prev := base.live,removed := none}
  | .restore, base =>
    {base with live := base.prev,prev := none,failed := base.live,removed := none}

/-- Tree a swap puts live. -/
def incoming : SwapKind → Trees → Option Tree
  | .activate, base => base.next
  | .restore, base => base.prev

/-- Trees a swap can begin from. -/
structure Ready (kind : SwapKind) (base : Trees) : Prop where
  removed : base.removed=none
  live : base.live.isSome
  incoming : (incoming kind base).isSome

/-- Trees between two renames of a swap. -/
inductive Along (kind : SwapKind) (base : Trees) : Trees → Prop
  | start : Along kind base base
  | aside : Along kind base (asideTrees kind base)
  | displaced : Along kind base (displacedTrees kind base)
  | swapped (removed : Option Tree) :
    Along kind base {swappedTrees kind base with removed := removed}

/-- Recorded renames are those of the plan, whatever their progress. -/
def SameOps (ops plan : List RenameOp) : Prop :=
  ops.map (fun op => (op.source,op.target,op.isOptional)) =
    plan.map (fun op => (op.source,op.target,op.isOptional))

/-- A swap in hand and both ways out of it. -/
structure Swapping (kind : SwapKind) (state : Record) (disk : Disk) : Prop where
  ready : Ready kind disk.base
  along : Along kind disk.base disk.trees
  /-- Before the plan is recorded no rename happens. -/
  plan : state.swap=[]∧disk.trees=disk.base∨SameOps state.swap (kindOps kind)
  /-- Reversed, the trees are settled under the record before it. -/
  undone : Settled (some state.undone) disk.base disk.verified
  idle : state.undone.state≠.activating
  pending : state.pending.isSome
  /-- So is the operation in flight, by the stage it puts live. -/
  inflight : ∃ inflight∈state.inflight, inflight.kind=kind ∧
    inflight.stageId=liveId (some (afterSwap state))
  /-- Completed, the trees stand as the pending ids say. -/
  completed : Holds (liveId (some (afterSwap state))) (prevId (some (afterSwap state)))
    (swappedTrees kind disk.base) disk.verified

/-- An operation in flight ends in a state that may be purged. -/
def FinalStates (state : Record) : Prop :=
  (∀ inflight∈state.inflight, inflight.finalState∈purgeable) ∧
    ∀ inflight∈state.inflightBefore, inflight.finalState∈purgeable

/-- Invariant of a root. -/
structure Safe (disk : Disk) : Prop where
  finals : ∀ state∈disk.record, FinalStates state
  /-- Without a swap in hand the trees are settled. -/
  settled : (∀ state∈disk.record, state.state≠.activating) →
    Settled disk.record disk.trees disk.verified
  swapping : ∀ state∈disk.record, state.state=.activating→∃ kind, Swapping kind state disk

/-- Planned renames with some progress. -/
def withProgress (kind : SwapKind) (first second third : OpStatus) : List RenameOp :=
  match kind with
  | .activate => [⟨.prev,.removed,true,first⟩,⟨.live,.prev,false,second⟩,⟨.next,.live,false,third⟩]
  | .restore => [⟨.failed,.removed,true,first⟩,⟨.live,.failed,false,second⟩,
      ⟨.prev,.live,false,third⟩]

/-- Renames of a plan are the plan with some progress. -/
theorem SameOps.eq_withProgress {kind : SwapKind} {ops : List RenameOp}
    (h : SameOps ops (kindOps kind)) :
    ∃ first second third, ops=withProgress kind first second third := by
  have hlen : ops.length=3 := by
    have hmap := congrArg List.length h
    rw [length_map,length_map] at hmap
    rw [hmap]
    cases kind <;> rfl
  obtain ⟨⟨a₁,a₂,a₃,first⟩,⟨b₁,b₂,b₃,second⟩,⟨c₁,c₂,c₃,third⟩,rfl⟩ :=
    length_eq_three.mp hlen
  refine ⟨first,second,third,?_⟩
  cases kind with
  | activate =>
    obtain ⟨⟨rfl,rfl,rfl⟩,⟨rfl,rfl,rfl⟩,⟨rfl,rfl,rfl⟩,-⟩ := h
    rfl
  | restore =>
    obtain ⟨⟨rfl,rfl,rfl⟩,⟨rfl,rfl,rfl⟩,⟨rfl,rfl,rfl⟩,-⟩ := h
    rfl

variable {E : Exit → Disk → Prop}

section Swap

variable {kind : SwapKind} {base trees : Trees} {state : Record} {disk : Disk}

/-- A swap is complete exactly when its last rename took effect. -/
theorem swapComplete_iff (first second third : OpStatus) (hrdy : Ready kind base)
    (halo : Along kind base trees) :
    swapComplete trees (withProgress kind first second third)=true ↔
      ∃ removed, trees = {swappedTrees kind base with removed := removed} := by
  obtain ⟨hrem,hlv,hinc⟩ := hrdy
  obtain ⟨live,next,prev,failed,removed⟩ := base
  obtain ⟨served,rfl⟩ := Option.isSome_iff_exists.mp hlv
  cases kind with
  | activate =>
    obtain ⟨stage,rfl⟩ := Option.isSome_iff_exists.mp hinc
    cases halo <;> simp [swapComplete,withProgress,swappedTrees,asideTrees,displacedTrees,Trees.at]
  | restore =>
    obtain ⟨earlier,rfl⟩ := Option.isSome_iff_exists.mp hinc
    cases halo <;> simp [swapComplete,withProgress,swappedTrees,asideTrees,displacedTrees,Trees.at]

/-- A settled record that is no swap in hand makes a root safe. -/
theorem Safe.of_settled (hrec : disk.record=some state) (hfin : FinalStates state)
    (hst : state.state≠.activating)
    (hset : Settled (some state) disk.trees disk.verified) : Safe disk := by
  refine ⟨?_,?_,?_⟩
  · rw [hrec]
    rintro other ⟨⟩
    exact hfin
  · rw [hrec]
    exact fun _ => hset
  · rw [hrec]
    rintro other ⟨⟩ hot
    exact absurd hot hst

/-- A swap in hand makes a root safe. -/
theorem Safe.of_swapping (hrec : disk.record=some state) (hfin : FinalStates state)
    (hst : state.state=.activating) (hswa : Swapping kind state disk) : Safe disk := by
  refine ⟨?_,?_,?_⟩
  · rw [hrec]
    rintro other ⟨⟩
    exact hfin
  · rw [hrec]
    exact fun hot => absurd hst (hot state rfl)
  · rw [hrec]
    rintro other ⟨⟩ _
    exact ⟨kind,hswa⟩

/-- A root whose swap is in hand. -/
structure InHand (kind : SwapKind) (state : Record) (disk : Disk) : Prop where
  record : disk.record=some state
  finals : FinalStates state
  activating : state.state=.activating
  swapping : Swapping kind state disk

section
variable (h : InHand kind state disk)
include h

/-- Such a root is safe. -/
theorem InHand.safe : Safe disk :=
  Safe.of_swapping h.record h.finals h.activating h.swapping

theorem InHand.save (ops : List RenameOp) (hops : SameOps ops (kindOps kind)) :
    InHand kind (state.withSwap ops) (setRecord (state.withSwap ops) disk) := by
  obtain ⟨-,hfin,hact,hrdy,halo,-,hund,hidl,hpen,hinf,hcom⟩ := h
  exact ⟨rfl,hfin,hact,hrdy,halo,.inr hops,hund,hidl,hpen,hinf,hcom⟩

/-- One rename of a recorded plan, forth or back. -/
theorem InHand.move (hpl : SameOps state.swap (kindOps kind))
    (halo : Along kind disk.base trees) : InHand kind state (setTrees trees disk) := by
  obtain ⟨hrec,hfin,hact,hrdy,-,-,hund,hidl,hpen,hinf,hcom⟩ := h
  exact ⟨hrec,hfin,hact,hrdy,halo,.inr hpl,hund,hidl,hpen,hinf,hcom⟩

end

/-- A deletion passes through its remnant. -/
theorem wp_removeTree {slot : Slot} {I : Disk → Prop} {Q : Unit → Disk → Prop}
    (habs : disk.trees.at slot=none → Q () disk)
    (hrem : I (setTrees (disk.trees.put (some .remnant) slot) disk))
    (hgn : I (setTrees (disk.trees.put none slot) disk) ∧
      Q () (setTrees (disk.trees.put none slot) disk)) : Wp I (removeTree slot) Q E disk := by
  refine wp_read ?_
  split_ifs with hthe
  · have heq : (setTrees (disk.trees.put (some .remnant) slot) disk).trees.put none slot =
        disk.trees.put none slot := by cases slot <;> rfl
    refine wp_bind.mpr (wp_write.mpr ⟨hrem,wp_write.mpr ?_⟩)
    rw [heq]
    exact hgn
  · refine wp_pure.mpr (habs ?_)
    simpa using hthe

theorem wp_reverseRenames {first second third : OpStatus} {I : Disk → Prop}
    (h : InHand kind state disk)
    (hsta : I (setTrees disk.base disk)) (hasi : I (setTrees (asideTrees kind disk.base) disk))
    (hinco : ¬ ∃ removed, disk.trees = {swappedTrees kind disk.base with removed := removed}) :
    Wp I (reverseRenames (withProgress kind first second third).reverse)
      (fun _ after => after=setTrees disk.base disk) E disk := by
  have hrdy := h.swapping.ready
  have halo := h.swapping.along
  obtain ⟨trees,record,markers,op,journal,serial,verified,base⟩ := disk
  obtain ⟨hrem,hlv,hinc⟩ := hrdy
  obtain ⟨live,next,prev,failed,removed⟩ := base
  obtain ⟨served,rfl⟩ := Option.isSome_iff_exists.mp hlv
  dsimp only at hrem halo hinco
  subst hrem
  cases halo with
  | swapped x => exact absurd ⟨x,rfl⟩ hinco
  | start | aside | displaced =>
    cases kind <;> obtain ⟨stage,rfl⟩ := Option.isSome_iff_exists.mp hinc <;>
      [cases prev; cases failed] <;> simp only [setTrees,asideTrees] at hsta hasi <;>
      simp [reverseRenames,withProgress,Trees.at,Trees.put,Trees.rename,renamePath,setTrees,
        asideTrees,displacedTrees,hsta,hasi]

/-- Recorded progress does not change a plan. -/
theorem SameOps.status {finished rest plan : List RenameOp} {op : RenameOp}
    (h : SameOps (finished++op::rest) plan) (status : OpStatus) :
    SameOps (finished++{op with status := status}::rest) plan := by
  unfold SameOps at h ⊢
  rw [map_append,map_cons] at h ⊢
  exact h

/-- Record of the same swap with some progress. -/
def Progressed (kind : SwapKind) (state after : Record) : Prop :=
  SameOps after.swap (kindOps kind)∧∃ ops, after=state.withSwap ops

/-- Progress adds up. -/
theorem Progressed.trans {middle after : Record} (h : Progressed kind state middle)
    (hnx : Progressed kind middle after) : Progressed kind state after := by
  obtain ⟨-,first,rfl⟩ := h
  obtain ⟨hpl,second,rfl⟩ := hnx
  exact ⟨hpl,second,rfl⟩

section
variable {rest : List RenameOp} {op : RenameOp} {Q : Record → Disk → Prop}
variable (h : InHand kind state disk) (finished : List RenameOp)
variable (hops : SameOps (finished++op::rest) (kindOps kind))
include h hops

theorem InHand.wp_rename (hsou : (disk.trees.at op.source).isSome) (htgt : disk.trees.at op.target=none)
    (halo : Along kind disk.base (disk.trees.rename op.source op.target))
    (hrt : ∀ done after, SameOps (finished++done::rest) (kindOps kind) →
      Progressed kind state after →
      InHand kind after (setTrees (disk.trees.rename op.source op.target) (setRecord after disk)) →
      Wp Safe (runRenames after (finished++[done]) rest) Q E
        (setTrees (disk.trees.rename op.source op.target) (setRecord after disk))) :
    Wp Safe (runRenames state finished (op::rest)) Q E disk := by
  have hsta := h.save _ (hops.status .started)
  have hmv := hsta.move (hops.status .started) halo
  have hdn := hmv.save _ (hops.status .done)
  have hpre : (disk.trees.at op.source).isNone=false := by
    rw [Option.isNone_eq_false_iff]
    exact hsou
  refine wp_read ?_
  rw [hpre,Bool.and_false,if_neg Bool.false_ne_true]
  simp only [renamePath,wp_bind,wp_check,wp_save,wp_write]
  refine ⟨fun _ => ⟨fun _ => ⟨hsta.safe,hmv.safe,hdn.safe,?_⟩,fun hthe => ?_⟩,fun habs => ?_⟩
  · exact hrt _ _ (hops.status .done) ⟨hops.status .done,_,rfl⟩ hdn
  · rw [htgt] at hthe
    cases hthe
  · rw [hsou] at habs
    cases habs

theorem InHand.wp_skip (hopt : op.isOptional=true) (hsou : disk.trees.at op.source=none)
    (hrt : ∀ skipped after, SameOps (finished++skipped::rest) (kindOps kind) →
      Progressed kind state after → InHand kind after (setRecord after disk) →
      Wp Safe (runRenames after (finished++[skipped]) rest) Q E (setRecord after disk)) :
    Wp Safe (runRenames state finished (op::rest)) Q E disk := by
  have hski := h.save _ (hops.status .skipped)
  have hskip : (op.isOptional&&(disk.trees.at op.source).isNone)=true := by
    rw [hsou,hopt]
    rfl
  refine wp_read ?_
  rw [if_pos hskip]
  simp only [wp_bind,wp_save]
  exact ⟨hski.safe,hrt _ _ (hops.status .skipped) ⟨hops.status .skipped,_,rfl⟩ hski⟩

end

/-- What the renames of a plan leave. -/
def Landed (kind : SwapKind) (state : Record) (disk : Disk) (after : Record) (left : Disk) : Prop :=
  InHand kind after left∧Progressed kind state after ∧
    left=setTrees (swappedTrees kind disk.base) (setRecord after disk)

/-- Once every rename is in effect the tree moved aside is deleted. -/
theorem InHand.wp_land {finished : List RenameOp} {after : Record}
    {removed : Option Tree}
    (h : InHand kind after (setTrees {swappedTrees kind disk.base with removed := removed}
      (setRecord after disk)))
    (haft : Progressed kind state after) :
    Wp Safe (runRenames after finished []) (fun after left => Wp Safe (removeTree .removed)
        (fun _ left => Landed kind state disk after left) (fun _ => Safe) left) (fun _ => Safe)
      (setTrees {swappedTrees kind disk.base with removed := removed}
        (setRecord after disk)) := by
  have hrem := h.move haft.1 (.swapped (some .remnant))
  have hgn := h.move haft.1 (.swapped none)
  have hcle : {swappedTrees kind disk.base with removed := none} =
      swappedTrees kind disk.base := by cases kind <;> rfl
  refine wp_pure.mpr (wp_removeTree (fun habs => ?_) hrem.safe ⟨hgn.safe,hgn,haft,?_⟩)
  · have hno : removed=none := habs
    subst hno
    refine ⟨h,haft,?_⟩
    rw [hcle]
  · exact congrArg (fun trees => setTrees trees (setRecord after disk)) hcle

theorem InHand.wp_plan {saved : Record} (hsav : InHand kind saved (setRecord saved disk))
    (hfst : Progressed kind state saved) (hsta : disk.trees=disk.base) :
    Wp Safe (runRenames saved [] (kindOps kind)) (fun after left => Wp Safe (removeTree .removed)
        (fun _ left => Landed kind state disk after left) (fun _ => Safe) left) (fun _ => Safe)
      (setRecord saved disk) := by
  have hrdy := hsav.swapping.ready
  obtain ⟨trees,record,markers,op,journal,serial,verified,base⟩ := disk
  obtain ⟨hrem,hlv,hinc⟩ := hrdy
  obtain ⟨live,next,prev,failed,removed⟩ := base
  obtain ⟨served,rfl⟩ := Option.isSome_iff_exists.mp hlv
  dsimp only at hsta
  have hno : removed=none := hrem
  subst hno hsta
  cases kind <;> obtain ⟨stage,rfl⟩ := Option.isSome_iff_exists.mp hinc <;>
    [cases prev; cases failed]
  case activate.none | restore.none =>
    refine hsav.wp_skip [] rfl rfl rfl fun first second hplan₁ hstep₁ hnext₁ => ?_
    refine hnext₁.wp_rename [first] hplan₁ rfl rfl .displaced
      fun done third hplan₂ hstep₂ hnext₂ => ?_
    refine hnext₂.wp_rename [first,done] hplan₂ rfl rfl (.swapped none)
      fun last fourth _ hstep₃ hnext₃ => ?_
    exact hnext₃.wp_land (((hfst.trans hstep₁).trans hstep₂).trans hstep₃)
  case activate.some older | restore.some older =>
    refine hsav.wp_rename [] rfl rfl rfl .aside fun first second hplan₁ hstep₁ hnext₁ => ?_
    refine hnext₁.wp_rename [first] hplan₁ rfl rfl .displaced
      fun done third hplan₂ hstep₂ hnext₂ => ?_
    refine hnext₂.wp_rename [first,done] hplan₂ rfl rfl (.swapped (some older))
      fun last fourth _ hstep₃ hnext₃ => ?_
    exact hnext₃.wp_land (((hfst.trans hstep₁).trans hstep₂).trans hstep₃)

/-- Recorded renames carried out with their deletion. -/
theorem InHand.wp_runOps (h : InHand kind state disk) (hsta : disk.trees=disk.base) :
    Wp Safe (runOps state (kindOps kind)) (Landed kind state disk) (fun _ => Safe) disk := by
  have hsav := h.save (kindOps kind) rfl
  have hrem : disk.trees.removed.isNone=true := by
    rw [hsta,h.swapping.ready.removed]
    rfl
  unfold runOps
  simp only [wp_bind,wp_fetch,wp_check,wp_save,wp_pure,hrem,true_implies,reduceCtorEq,
    false_implies,and_true]
  exact ⟨hsav.safe,hsav.wp_plan ⟨rfl,_,rfl⟩ hsta⟩

/-- Recovery finishes a complete swap and reverses any other. -/
theorem InHand.wp_recoverSwap (h : InHand kind state disk) :
    Wp Safe (recoverSwap state.swap) (fun complete left => Safe left ∧
      left=setTrees (if complete then swappedTrees kind disk.base else disk.base) disk) E disk := by
  refine wp_read ?_
  rcases h.swapping.plan with ⟨hno,heq⟩|hpl
  · rw [if_pos hno]
    refine wp_pure.mpr ⟨h.safe,?_⟩
    rw [if_neg Bool.false_ne_true,← heq]
    rfl
  · obtain ⟨first,second,third,hops⟩ := hpl.eq_withProgress
    have hne : state.swap≠[] := by
      rw [hops]
      cases kind <;> exact cons_ne_nil _ _
    have hiff := swapComplete_iff first second third h.swapping.ready h.swapping.along
    rw [if_neg hne,hops]
    split_ifs with hcom
    · obtain ⟨removed,hrem⟩ := hiff.mp hcom
      have hcle : disk.trees.put none .removed=swappedTrees kind disk.base := by
        rw [hrem]
        cases kind <;> rfl
      have hremn : Safe (setTrees (disk.trees.put (some .remnant) .removed) disk) := by
        rw [hrem]
        exact (h.move hpl (.swapped (some .remnant))).safe
      have hgn : Safe (setTrees (swappedTrees kind disk.base) disk) := by
        have hswa : swappedTrees kind disk.base =
            {swappedTrees kind disk.base with removed := none} := by cases kind <;> rfl
        rw [hswa]
        exact (h.move hpl (.swapped none)).safe
      refine wp_bind.mpr (wp_removeTree (fun habs => wp_pure.mpr ⟨h.safe,?_⟩) hremn ?_)
      · have hput : ∀ trees : Trees, trees.at .removed=none→trees.put none .removed=trees := by
          rintro ⟨live,next,prev,failed,gone⟩ hno
          cases hno
          rfl
        rw [if_pos rfl,← hcle,hput disk.trees habs]
        rfl
      · rw [hcle]
        exact ⟨hgn,wp_pure.mpr ⟨hgn,by rw [if_pos rfl]⟩⟩
    · refine wp_bind.mpr ?_
      refine (wp_reverseRenames (E := E) h (h.move hpl .start).safe (h.move hpl .aside).safe
        fun hex => hcom (hiff.mpr hex)).imp
        (fun _ hsf => hsf) (fun _ left hlf => wp_pure.mpr ?_) (fun _ _ her => her)
      rw [hlf,if_neg Bool.false_ne_true]
      exact ⟨(h.move hpl .start).safe,rfl⟩

end Swap

section Frame

variable {kind : SwapKind} {state : Record} {trees : Trees} {disk : Disk}
  {verified more : List StageId}

variable {prevStage : Option StageId}

/-- More verified releases do no harm. -/
theorem Holds.mono {liveStage : StageId}
    (h : Holds liveStage prevStage trees verified) (hsub : verified ⊆ more) :
    Holds liveStage prevStage trees more :=
  ⟨h.removed,h.live,h.prev,fun id hid => hsub (h.prevVerified id hid),
    h.fallback.imp (fun hmem => hsub hmem) id⟩

variable {record : Option Record}

/-- More verified releases do no harm. -/
theorem Settled.mono (h : Settled record trees verified)
    (hsub : verified ⊆ more) : Settled record trees more :=
  ⟨h.holds.mono hsub,fun hall => hsub (h.confirmed hall),
    fun state hst hpur => hsub (h.purgeable state hst hpur),h.built⟩

/-- Marker files do not matter. -/
theorem Safe.withMarkers (h : Safe disk) (markers : Markers) : Safe (setMarkers markers disk) := by
  refine ⟨h.finals,h.settled,fun state hst hact => ?_⟩
  obtain ⟨kind,hswa⟩ := h.swapping state hst hact
  obtain ⟨hrdy,halo,hpl,hund,hidl,hpen,hinf,hcom⟩ := hswa
  exact ⟨kind,hrdy,halo,hpl,hund,hidl,hpen,hinf,hcom⟩

/-- More verified releases do no harm. -/
theorem Safe.verify (h : Safe disk) (hsub : disk.verified ⊆ more) :
    Safe {disk with verified := more} := by
  refine ⟨h.finals,fun hidl => (h.settled hidl).mono hsub,fun state hst hact => ?_⟩
  obtain ⟨kind,hswa⟩ := h.swapping state hst hact
  obtain ⟨hrdy,halo,hpl,hund,hidl,hpen,hinf,hcom⟩ := hswa
  exact ⟨kind,hrdy,halo,hpl,hund.mono hsub,hidl,hpen,hinf,hcom.mono hsub⟩

/-- Work on the marker files keeps a root safe. -/
theorem Safe.wp_onMarkers {program : MarkerProgram} {Q : Unit → Disk → Prop}
    (h : Safe disk) (hps : ∀ markers, Q () (setMarkers markers disk))
    (her : ∀ e markers, E e (setMarkers markers disk)) : Wp Safe (onMarkers program) Q E disk :=
  DeployEntry.wp_onMarkers.mpr (.of_forall h.withMarkers (fun _ => hps) her)

/-- Settled trees stay settled under a record that names the same releases, is
not built and may be purged only where the other may. -/
theorem Settled.restate (h : Settled record trees verified)
    (hlv : state.live=record.bind (·.live)) (hpv : state.prev=record.bind (·.prev))
    (hpur : state.state∈DeployRecord.purgeable → ∃ other∈record, other.state∈DeployRecord.purgeable)
    (hbui : state.state=.built→trees.next=some (.release state.stageId)) :
    Settled (some state) trees verified := by
  have hid : liveId (some state)=liveId record := by
    unfold liveId
    rw [Option.bind_some,hlv]
  have hpre : prevId (some state)=prevId record := by
    unfold prevId
    rw [Option.bind_some,hpv]
  refine ⟨?_,fun hall => ?_,?_,?_⟩
  · rw [hid,hpre]
    exact h.holds
  · rw [hid]
    refine h.confirmed fun other hot => ?_
    have heq : state.live=other.live := by
      rw [hlv,hot]
      rfl
    have hmar := hall state rfl
    unfold liveUnconfirmed at hmar ⊢
    rw [← heq]
    exact hmar
  · rintro other ⟨⟩ hst
    obtain ⟨earlier,hear,hmay⟩ := hpur hst
    rw [hid]
    exact h.purgeable earlier hear hmay
  · rintro other ⟨⟩
    exact hbui

/-- The stage does not matter to a record that is not built. -/
theorem Settled.putNext {tree : Option Tree} (h : Settled (some state) trees verified)
    (hst : state.state≠.built) : Settled (some state) (trees.put tree .next) verified := by
  obtain ⟨⟨hrem,hlv,hpv,hpre,hfal⟩,hcon,hpur,-⟩ := h
  refine ⟨⟨hrem,hlv,hpv,hpre,hfal⟩,hcon,hpur,?_⟩
  rintro other ⟨⟩ hbui
  exact absurd hbui hst

/-- Without an interrupted run the trees are settled. -/
theorem Safe.settled_of_idle (h : Safe disk) (hidl : idle disk.record=true) :
    Settled disk.record disk.trees disk.verified := by
  refine h.settled fun state hst hact => ?_
  have hrec : disk.record=some state := hst
  rw [hrec] at hidl
  simp [idle,hact] at hidl

/-- Some tree of a path was verified. -/
def VerifiedTree (trees : Trees) (verified : List StageId) : Prop :=
  ∃ slot id, trees.at slot=some (.release id)∧id∈verified

theorem Holds.verified_live_or_prev {liveStage : StageId}
    {trees : Trees} {verified : List StageId} (h : Holds liveStage prevStage trees verified) :
    ∃ id∈verified, trees.live=some (.release id)∨trees.prev=some (.release id) := by
  rcases h.fallback with hlv|hpv
  · exact ⟨liveStage,hlv,.inl h.live⟩
  · obtain ⟨id,rfl⟩ := Option.isSome_iff_exists.mp hpv
    exact ⟨id,h.prevVerified id rfl,.inr h.prev⟩

theorem VerifiedTree.either {trees : Trees} {verified : List StageId} {id : StageId} (a b : Slot)
    (hid : id∈verified) (h : trees.at a=some (.release id)∨trees.at b=some (.release id)) :
    VerifiedTree trees verified := by
  rcases h with hfst|hsec
  · exact ⟨a,id,hfst,hid⟩
  · exact ⟨b,id,hsec,hid⟩

/-- Between the renames of a swap a verified tree stays at some path. -/
theorem Swapping.verifiedTree (h : Swapping kind state disk) :
    VerifiedTree disk.trees disk.verified := by
  obtain ⟨id,hid,htre⟩ := h.undone.holds.verified_live_or_prev
  obtain ⟨other,hot,hswa⟩ := h.completed.verified_live_or_prev
  obtain ⟨trees,record,markers,op,journal,serial,verified,base⟩ := disk
  have halo := h.along
  dsimp only at htre hid hswa hot halo ⊢
  cases halo with
  | start => exact .either .live .prev hid htre
  | aside =>
    cases kind with
    | activate => exact .either .live .removed hid htre
    | restore => exact .either .live .prev hid htre
  | displaced =>
    cases kind with
    | activate => exact .either .prev .removed hid htre
    | restore => exact .either .failed .prev hid htre
  | swapped => exact .either .live .prev hot hswa

theorem Safe.verifiedTree (h : Safe disk) : VerifiedTree disk.trees disk.verified := by
  by_cases hidl : ∀ state∈disk.record, state.state≠.activating
  · obtain ⟨id,hid,htre⟩ := (h.settled hidl).holds.verified_live_or_prev
    exact .either .live .prev hid htre
  · push Not at hidl
    obtain ⟨state,hst,hact⟩ := hidl
    obtain ⟨kind,hswa⟩ := h.swapping state hst hact
    exact hswa.verifiedTree

/-- A swap that finished its renames is left to be resumed. -/
theorem InHand.isCompletedSwap (h : InHand kind state disk) :
    isCompletedSwap (some (state.completed .activateFailed))=true := by
  obtain ⟨inflight,hinf,-,hsta⟩ := h.swapping.inflight
  obtain ⟨pending,hpen⟩ := Option.isSome_iff_exists.mp h.swapping.pending
  have hrec : (state.completed .activateFailed).inflight=some inflight := hinf
  have hlv : ((state.completed .activateFailed).live.map (·.stageId)) =
      some inflight.stageId := by
    rw [hsta]
    unfold Record.completed afterSwap
    rw [hpen]
    rfl
  unfold DeployRecord.isCompletedSwap
  dsimp only
  rw [hrec]
  dsimp only
  rw [hlv,beq_self_eq_true,Bool.and_true]
  rfl

end Frame

end SellRight.DeploySwaps
