import SellRight.CreditFundingLedger

/-!
# Funding plans of edits and returns

`planEditCreditFunding` compares the units an edited order keeps with the
funding state and writes, line by line, one restoration for the units that
leave and one for the units that keep less credit. `planCreditUnitReturn`
writes one restoration for explicitly named units. Both read the history
first and return the state after their postings.
-/

namespace SellRight.CreditFundingPlanner

open JsonText JsonStable KeyedRecord CreditMath CreditFundingLedger

/-- Functions of the runtime the planner calls. -/
structure Runtime where
  sha256 : String → String
  /-- One text stands before another, or with it, in the locale. -/
  localeLe : String → String → Bool

/-- Cause of an edit restoration. -/
inductive Cause where
  | quantityReturn | unitCorrection
  deriving DecidableEq

def Cause.text : Cause → String
  | .quantityReturn => "quantity_return"
  | .unitCorrection => "unit_correction"

/-- Kind of an explicit return. -/
inductive OperationKind where
  | refund | manualReturn
  deriving DecidableEq

def OperationKind.text : OperationKind → String
  | .refund => "refund"
  | .manualReturn => "manual_return"

/-- Identity of an explicit return. -/
structure Operation where
  kind : OperationKind
  id : String

/-- A change as written in an envelope. -/
def changeJson (change : UnitChange) : Json :=
  .obj [("index",.num change.index),("before",.num change.before),("after",.num change.after)]

variable (redemption : CreditTransaction)

def editEnvelope (line editId requestDigest : String)
    (cause : Cause) (units : List UnitChange) : Json :=
  .obj [("version",.num 1),("type",.str editRestore),("cause",.str cause.text),
    ("redemptionId",.str redemption.id),("orderId",.str (redemption.orderId.getD "")),
    ("accountCreditId",.str redemption.accountCreditId),("orderLineId",.str line),
    ("editId",.str editId),("requestDigest",.str requestDigest),
    ("units",.arr (units.map changeJson))]

/-- Envelope of an explicit return. -/
def unitEnvelope (line : String) (operation : Operation)
    (units : List UnitChange) : Json :=
  .obj [("version",.num 1),("type",.str unitRestore),("cause",.str "quantity_return"),
    ("redemptionId",.str redemption.id),("orderId",.str (redemption.orderId.getD "")),
    ("accountCreditId",.str redemption.accountCreditId),("orderLineId",.str line),
    ("operation",.obj [("kind",.str operation.kind.text),("id",.str operation.id)]),
    ("units",.arr (units.map changeJson))]

/-- A restoration to post. -/
structure EditFundingPosting where
  refundId : Option String
  kind : CreditKind
  status : CreditStatus
  (relatedTransactionId orderId accountCreditId orderLineId : String)
  (quantity amount delta : Int)
  (idempotencyKey allocation : String)
  operationalAllocation : Allocation

/-- Posting of an envelope over the changes of one line. -/
def postingOf (line : String) (envelope : Json)
    (refundId : Option String) (quantity amount : Int) (cents : List Int) : EditFundingPosting where
  refundId := refundId
  kind := .restore
  status := .posted
  relatedTransactionId := redemption.id
  orderId := redemption.orderId.getD ""
  accountCreditId := redemption.accountCreditId
  orderLineId := line
  quantity := quantity
  amount := amount
  delta := amount
  idempotencyKey := keyFor envelope
  allocation := serialize envelope
  operationalAllocation := .single line cents

/-- A unit the edited order keeps. -/
structure TargetUnit where
  originalIndex : Option Int
  maximumCredit : Int
  consumed : Option Bool
  unitId : Option String

/-- A line of the edited order. -/
structure TargetLine where
  orderLineId : String
  units : List TargetUnit

/-- Receipt of a committed edit. -/
structure CommittedEdit where
  (editId requestDigest : String)
  postingKeys : List String

def checkTargetUnits (remaining : Allocation) (line : String) :
    List TargetUnit → List Int → Funding Unit
  | [],_ => .ok ()
  | unit::units, seen => do
    requireFact (money unit.maximumCredit &&
        (unit.unitId.all fun id => decide (0<utf16Length id)&&decide (utf16Length id≤255)) &&
        (unit.originalIndex.all fun (index : Int) => decide (0 ≤ index)&&(remaining.get line).isSome &&
          decide (index<((remaining.get line).getD []).length)&&decide (index∉seen)))
      .invalidRequest "Invalid or transferred immutable unit index"
    checkTargetUnits remaining line units (seen++unit.originalIndex.toList)

def checkTargetLines (remaining : Allocation) : List TargetLine → List String → Funding Unit
  | [],_ => .ok ()
  | line::lines, seen => do
    requireFact (isUuid line.orderLineId&&decide (line.orderLineId∉seen)) .invalidRequest
      "Duplicate or unproven target line"
    checkTargetUnits remaining line.orderLineId line.units []
    checkTargetLines remaining lines (seen++[line.orderLineId])

/-- A target unit as hashed; absent fields are left out. -/
def targetUnitJson (unit : TargetUnit) : Json :=
  .obj ([("originalIndex",unit.originalIndex.elim .null Json.num),
      ("maximumCredit",.num unit.maximumCredit)] ++
    (unit.consumed.toList.map fun consumed => ("consumed",Json.bool consumed)) ++
    (unit.unitId.toList.map fun id => ("unitId",Json.str id)))

/-- A target line as hashed. -/
def targetLineJson (line : TargetLine) : Json :=
  .obj [("orderLineId",.str line.orderLineId),("units",.arr (line.units.map targetUnitJson))]

def requestDigestOf (runtime : Runtime) (redemption : CreditTransaction) (editId : String)
    (lines : List TargetLine) : String :=
  let sorted := lines.insertionSort fun a b => runtime.localeLe a.orderLineId b.orderLineId
  runtime.sha256 (serialize (.obj [("redemptionId",.str redemption.id),("editId",.str editId),
    ("lines",.arr (sorted.map targetLineJson))]))

/-- Original units a line keeps, with the most credit of each. -/
def wantedUnits (lines : List TargetLine) (line : String) : List (ℕ×TargetUnit) :=
  ((lines.find? fun target => target.orderLineId=line).map TargetLine.units).getD []
    |>.filterMap fun unit => unit.originalIndex.map fun index => (index.toNat,unit)

/-- Changes of one cause on a line. -/
def changesFor (cause : Cause) (units : List Int) (returned : List ℕ)
    (wanted : List (ℕ×TargetUnit)) : List UnitChange :=
  units.zipIdx.filterMap fun entry =>
    if entry.2∈returned then none
    else match cause, lookup wanted entry.2 with
      | .quantityReturn, none => some ⟨entry.2,entry.1,0⟩
      | .unitCorrection, some unit =>
        if unit.maximumCredit<entry.1 then some ⟨entry.2,entry.1,unit.maximumCredit⟩ else none
      | _, _ => none

/-- Write changes into the vectors of a line. -/
def applyChanges (vectors : Vectors) (line : String) (quantityReturn : Bool)
    (changes : List UnitChange) : Vectors where
  remaining := vectors.remaining.update line fun cents =>
    changes.foldl (fun cents change => cents.set change.index change.after) cents
  returnedIndexes := if quantityReturn then
      vectors.returnedIndexes.update line fun indexes => indexes++changes.map UnitChange.index
    else vectors.returnedIndexes

/-- Vectors and postings of a plan in progress. -/
structure PlanState where
  vectors : Vectors
  postings : List EditFundingPosting

def planCause (editId requestDigest line : String)
    (returned : List ℕ) (wanted : List (ℕ×TargetUnit)) (plan : PlanState) (cause : Cause) :
    Funding PlanState :=
  let units := (plan.vectors.remaining.get line).getD []
  let changes := changesFor cause units returned wanted
  if changes.isEmpty then .ok plan
  else do
    let envelope := editEnvelope redemption line editId requestDigest cause changes
    let cents := changes.map fun u => u.before-u.after
    let amount ← sum cents .invalidRequest
    let quantity : Int := if cause=.quantityReturn then changes.length else 0
    return {
      vectors := applyChanges plan.vectors line (decide (cause=.quantityReturn)) changes
      postings := plan.postings++[postingOf redemption line envelope none quantity amount cents]}

/-- A kept unit must not have come back, unless it is marked so. -/
def checkWanted (returned : List ℕ) (entry : ℕ×TargetUnit) : Funding Unit :=
  requireFact (if entry.1∈returned then decide (entry.2.consumed=some true)
      else decide (entry.2.consumed≠some true)) .invalidRequest
    "Returned unit funding cannot be reattached or consumed without posted proof"

def planLine (editId requestDigest : String)
    (lines : List TargetLine) (plan : PlanState) (line : String) : Funding PlanState := do
  let wanted := wantedUnits lines line
  let returned := (plan.vectors.returnedIndexes.get line).getD []
  wanted.forM (checkWanted returned)
  [Cause.quantityReturn,.unitCorrection].foldlM
    (planCause redemption editId requestDigest line returned wanted) plan

/-- Current-position funding of the edited lines. -/
def currentAllocation (remaining : Allocation) (lines : List TargetLine) : Allocation :=
  lines.foldl (fun allocation line => allocation.set line.orderLineId (line.units.map fun unit =>
    unit.originalIndex.elim 0 fun index =>
      ((remaining.get line.orderLineId).getD []).getD index.toNat 0)) .empty

/-- Result of an accepted edit plan. -/
inductive EditFundingResult where
  | replay (requestDigest : String) (state : CreditFundingState)
  /-- New postings, the current-position funding and the state after them. -/
  | planned (requestDigest : String) (postings : List EditFundingPosting)
      (allocation : Allocation) (state : CreditFundingState)

/-- Rows an edit has already posted. -/
def ownRows (modern : List (CreditTransaction×Json)) (editId : String) :
    List (CreditTransaction×Json) :=
  modern.filter fun entry => isText entry.2 "type" editRestore&&isText entry.2 "editId" editId

/-- The receipt matches the request and the posted rows. -/
def replayMatches (committed : CommittedEdit) (editId requestDigest : String)
    (own : List (CreditTransaction×Json)) : Bool :=
  decide (committed.editId=editId)&&decide (committed.requestDigest=requestDigest) &&
    decide committed.postingKeys.Nodup &&
    decide (committed.postingKeys.insertionSort (· ≤ ·) =
      (own.map fun entry => entry.1.idempotencyKey).insertionSort (· ≤ ·)) &&
    own.all fun entry => isText entry.2 "requestDigest" requestDigest

def planEditCreditFunding (runtime : Runtime) (redemption : CreditTransaction)
    (history : List CreditTransaction) (complete : Bool) (editId : String)
    (lines : List TargetLine) (committedEdit : Option CommittedEdit) :
    Funding EditFundingResult := do
  let (state,modern) ← readState redemption history complete
  requireFact (isUuid editId) .invalidRequest "Native edit identity & target lines required"
  checkTargetLines state.remaining lines []
  let requestDigest := requestDigestOf runtime redemption editId lines
  let own := ownRows modern editId
  match committedEdit with
  | some committed =>
    requireFact (replayMatches committed editId requestDigest own) .replayConflict
      "Edit replay payload or posted effect closure differs"
    return .replay requestDigest state
  | none =>
    requireFact own.isEmpty .replayConflict "Posted edit restoration lacks durable edit receipt"
    let order := (keys state.remaining.entries).insertionSort fun a b => runtime.localeLe a b
    let plan ← order.foldlM (planLine redemption editId requestDigest lines)
      ⟨⟨state.remaining,state.returnedIndexes⟩,[]⟩
    let allocation := currentAllocation plan.vectors.remaining lines
    let restored ← sum (plan.postings.map EditFundingPosting.amount) .invalidRequest
    let retained ← sum (plan.vectors.remaining.entries.flatMap Prod.snd) .invalidRequest
    let funded ← sum (allocation.entries.flatMap Prod.snd) .invalidRequest
    requireFact (decide (state.restored+restored+retained=state.redeemed) &&
        decide (funded=retained)) .ambiguousHistory
      "Planned funding does not conserve full redemption"
    return .planned requestDigest plan.postings allocation {
      remaining := plan.vectors.remaining
      returnedIndexes := sortIndexes plan.vectors.returnedIndexes
      redeemed := state.redeemed
      restored := state.restored+restored
      retained}

/-- Units named by an explicit return. -/
def returnedUnits (state : CreditFundingState) (line : String) :
    List (Option Int) → List ℕ → Funding (List UnitChange)
  | [],_ => .ok []
  | none::indexes, seen => returnedUnits state line indexes seen
  | some index::indexes, seen => do
    let units := (state.remaining.get line).getD []
    requireFact (decide (0 ≤ index)&&(state.remaining.get line).isSome &&
        decide (index<units.length)&&decide (index.toNat∉seen) &&
        decide (index.toNat∉(state.returnedIndexes.get line).getD [])) .invalidRequest
      "Returned unit identity is missing, repeated or already consumed"
    let more ← returnedUnits state line indexes (seen++[index.toNat])
    return ⟨index.toNat,units.getD index.toNat 0,0⟩::more

def planCreditUnitReturn (history : List CreditTransaction)
    (complete : Bool) (operation : Operation) (line : String) (originalIndexes : List (Option Int)) :
    Funding (Option EditFundingPosting×CreditFundingState) := do
  let (state,_) ← readState redemption history complete
  requireFact (isUuid line && !originalIndexes.isEmpty &&
      operationIdOk (decide (operation.kind=.refund)) operation.id) .invalidRequest
    "Explicit unit-return identity required"
  let units ← returnedUnits state line originalIndexes []
  if units.isEmpty then return (none,state)
  else
    let envelope := unitEnvelope redemption line operation units
    let cents := units.map UnitChange.before
    let amount ← sum cents .invalidRequest
    let refundId := if operation.kind=.refund then some operation.id else none
    let vectors := applyChanges ⟨state.remaining,state.returnedIndexes⟩ line true units
    return (some (postingOf redemption line envelope refundId units.length amount cents),{
      remaining := vectors.remaining
      returnedIndexes := vectors.returnedIndexes.update line fun indexes =>
        indexes.insertionSort (· ≤ ·)
      redeemed := state.redeemed
      restored := state.restored+amount
      retained := state.retained-amount})

end SellRight.CreditFundingPlanner
