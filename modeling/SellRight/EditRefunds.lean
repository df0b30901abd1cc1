import SellRight.CreditService
import SellRight.EditActivation
import SellRight.RefundSettlement

/-!
# Refunds of order edits

The money an edit owes back is refunded after the edit was committed. The
refund is requested under a key derived from the edit, once by the commit and
once more by every retry, and the settlement record of the edit follows the
refund it is linked to.
-/

namespace SellRight.EditRefunds

open EditActivation EditStages OrderLifecycle PaymentLedger RowTable
open RefundRequests (EditLine RefundFailure)

/-- Identifiers drawn for a refund and what its provider answers. -/
structure ProviderAnswer where
  (attemptId refundId : String)
  state : RefundState
  providerRef : Option String
  /-- The transaction that records the answer goes through. -/
  finalizes : Bool

/-- Reason written on the refund of an edit. -/
def editRefundReason (reason : Option String) : String :=
  let text := CreditService.trim (reason.getD "")
  String.ofList (("[order-edit] " ++ if text = "" then "order edit" else text).toList.take 500)

/-- Attribute the money of a refund to the removed units, in line order, as
far as it goes. -/
def allocate (left : ℤ) : List EditLine → List EditLine
  | [] => []
  | unit::units =>
    {unit with amount := min unit.amount left}::allocate (left-min unit.amount left) units

def editRefundLines (units : List EditLine) (amount : ℤ) : List EditLine :=
  allocate (max 0 amount) ((units.insertionSort fun a b => a.orderLineId≤b.orderLineId).filter
    fun unit => decide (0<unit.quantity))

/-- Refund the commit of an edit asks for. -/
def refundRequest (edit : EditRow) (paymentId : String) (amount : ℤ) (staged : Bool) :
    EditRefundRequest :=
  { paymentId := paymentId
    amount := amount
    reason := some (editRefundReason edit.reason)
    editId := if staged then some edit.id else none
    editLines := editRefundLines edit.removedUnits amount}

/-- Key of the refund a commit asks for. -/
def commitKey (key : String) : String := "order-edit:" ++ key

/-- Key of the refund a retry asks for. -/
def retryKey (key : String) (attempt : ℕ) : String :=
  "order-edit:" ++ key ++ ":retry:" ++ toString attempt

def refuseRefund {α : Type} (status : ℕ) (message : String) : Except RefundFailure α :=
  .error (.refused status message)

/-- Checks of an edit refund before any table is read. -/
def checkRequest (key : String) (request : EditRefundRequest) : Except RefundFailure Unit :=
  if key = "" ∨ 200<key.length then refuseRefund 400 "A refund idempotency key is required"
  else if (request.editLines.any fun line =>
      decide (line.orderLineId = "" ∨ line.quantity<1∨line.amount<0)) ∨
      ¬ (request.editLines.map EditLine.orderLineId).Nodup then
    refuseRefund 400 "Invalid order edit refund lines"
  else .ok ()

variable (db : EditStore)

/-- No other edit of the order waits for its activation. -/
def checkNoPendingEdit (request : EditRefundRequest) : Except RefundFailure Unit :=
  if db.edits.any fun row =>
      decide (some row.id≠request.editId)&&row.settlement.isPendingEditStage then
    refuseRefund 409 "Resolve the prepared order edit before changing its economics."
  else .ok ()

/-- Payment an edit refund returns. -/
def selectPayment (request : EditRefundRequest) : Except RefundFailure Payment :=
  let settled := db.payments.filter fun p => decide (p.orderId=db.order.id∧p.state=.settled)
  match settled.find? fun p => decide (p.id=request.paymentId) with
  | none =>
    refuseRefund 409 (if 1<(settled.filter fun p => !p.duplicate).length then
      "Select the payment to refund" else "No settled payment to refund")
  | some p =>
    if !p.duplicate∧db.order.state∉RefundRequests.refundableStates then
      refuseRefund 409 "Order is not refundable"
    else .ok p

section
variable (w : World) (db : EditStore) (request : EditRefundRequest)

/-- Units an edit line may name: those of the staged edit, or those the edit
removed from the stored line. -/
def removableUnits (orderLineId : String) : Except RefundFailure ℤ :=
  match request.editId with
  | none =>
    match db.lines.find? fun row => decide (row.id=orderLineId) with
    | some row => .ok row.editRemovedQty
    | none => .ok 0
  | some editId =>
    match preparedStage w db (some editId) with
    | .ok (some stage) =>
      .ok (((stage.row.removedUnits.find? fun unit =>
        decide (unit.orderLineId=orderLineId)).map EditLine.quantity).getD 0)
    | _ => .error .aborted

/-- The edit lines name units the edit removed. -/
def checkEditLine (line : EditLine) :
    Except RefundFailure Unit := do
  let removable ← removableUnits w db request line.orderLineId
  if ¬ (db.lines.any fun row => decide (row.id=line.orderLineId))∨removable<line.quantity then
    refuseRefund 409 "Order edit refund line exceeds the units the edit removed"
  else .ok ()

end

/-- Money of a payment that no refund reserves. -/
def available (payment : Payment) : ℤ :=
  payment.amount-RefundRequests.reservedAmount
    (db.refunds.filter fun r => decide (r.orderId=db.order.id)) payment.id

variable (w : World)

/-- Work an edit refund out against the tables. -/
def planRefund (db : EditStore) (request : EditRefundRequest) :
    Except RefundFailure Payment := do
  if db.order.state=.pendingPayment then refuseRefund 409 "Order is not refundable"
  let payment ← selectPayment db request
  request.editLines.forM (checkEditLine w db request)
  if request.amount<(request.editLines.map EditLine.amount).sum then
    refuseRefund 409 "Order edit refund lines exceed the refund amount"
  if request.amount<1∨available db payment<request.amount then
    refuseRefund 409 "Refund exceeds the payment balance"
  match w.refusesRefund db request with
  | some failure => .error failure
  | none => return payment

def newAttempt (db : EditStore) (key : String) (request : EditRefundRequest)
    (payment : Payment) (answer : ProviderAnswer) : Attempt :=
  { id := answer.attemptId
    orderId := db.order.id
    paymentId := some payment.id
    operation := "refund"
    method := payment.method
    amount := request.amount
    currency := payment.currency.getD db.order.currency
    idempotencyKey := "refund:" ++ key
    fingerprint := w.fingerprint (.refundRequest request)
    status := "processing"
    providerRef := none
    accountId := payment.gatewayAccount.getD "internal"
    mode := if payment.gatewayMode=some "test" then "test" else "live"
    supersededBy := none}

/-- Row of a new edit refund. -/
def newRefund (request : EditRefundRequest) (payment : Payment)
    (answer : ProviderAnswer) : Refund :=
  { id := answer.refundId
    attemptId := some answer.attemptId
    paymentId := payment.id
    orderId := db.order.id
    amount := request.amount
    itemsAmount := (request.editLines.map EditLine.amount).sum
    shippingAmount := 0
    adjustmentAmount := request.amount-(request.editLines.map EditLine.amount).sum
    state := .pending
    reason := request.reason
    providerRef := none
    source := some editRefundSource
    returnId := none}

/-- Link a new refund to the staged edit it belongs to. -/
def linkRefund (db : EditStore) (request : EditRefundRequest) (refundId : String) :
    Except RefundFailure EditStore :=
  match request.editId with
  | none => .ok db
  | some editId =>
    match bindPreparedEditRefund w db editId refundId with
    | .ok linked => .ok linked
    | .error _ => .error .aborted

/-- Store a planned refund with its attempt, its link and its lines. -/
def storeRefund (db : EditStore) (key : String) (request : EditRefundRequest)
    (payment : Payment) (answer : ProviderAnswer) : Except RefundFailure EditStore := do
  let linked ← linkRefund w
    {db with
      attempts := db.attempts++[newAttempt w db key request payment answer]
      refunds := db.refunds++[newRefund db request payment answer]} request answer.refundId
  return {linked with
    refundLines := linked.refundLines++request.editLines.map fun line =>
      ⟨answer.refundId,line.orderLineId,line.quantity,line.amount,false⟩}

/-- Set state and reference of a refund and the status of its attempt. -/
def writeOutcome (refund : Refund) (attemptId : String) (state : RefundState)
    (providerRef : Option String) : EditStore :=
  {db with
    refunds := updateWhere (fun r => decide (r.id=refund.id))
      (fun r =>
        {r with
          state := state
          providerRef := providerRef}) db.refunds
    attempts := updateWhere (fun a => decide (a.id=attemptId))
      (fun a =>
        {a with
          status := RefundSettlement.attemptStatus state providerRef
          providerRef := providerRef}) db.attempts}

/-- The lines of an edit refund account for its items amount. -/
def moneyOnly (refund : Refund) : Bool :=
  decide (refund.shippingAmount=0)&&decide (refund.returnId=none) &&
    decide (((db.refundLines.filter fun line => decide (line.refundId=refund.id)).map
      RefundRequests.RefundLine.amount).sum=refund.itemsAmount)

/-- Activate the edit of a settled refund. -/
def activateRefund (db : EditStore) (refund : Refund) : EditStore :=
  (activatePreparedOrderEdit w db ⟨some refund.id,none,none⟩).2

/-- Refund an attempt was opened for. -/
def refundOf (attemptId : String) : Option Refund :=
  db.refunds.find? fun r => decide (r.attemptId=some attemptId)

/-- State of a refund after a provider answer on a quarantined order. -/
def observedState (refund : Refund) (state : RefundState) : RefundState :=
  if refund.state=.settled then .settled
  else if refund.state=.failed∧state≠.settled then .failed
  else state

/-- The answer names another reference than the stored one. -/
def differs (refund : Refund) (providerRef : Option String) : Prop :=
  refund.providerRef≠none∧providerRef≠none∧refund.providerRef≠providerRef

instance (refund : Refund) (providerRef : Option String) : Decidable (differs refund providerRef) :=
  inferInstanceAs (Decidable (_∧_∧_))

/-- Write a late reference of a settled refund. -/
def adoptReference (refund : Refund) (attemptId : String)
    (providerRef : Option String) : EditStore :=
  if refund.providerRef=none∧providerRef≠none then
    {db with
      refunds := updateWhere (fun r => decide (r.id=refund.id))
        (fun r => {r with providerRef := providerRef}) db.refunds
      attempts := updateWhere (fun a => decide (a.id=attemptId))
        (fun a => {a with providerRef := providerRef}) db.attempts}
  else db

section
variable (w : World) (db : EditStore)

/-- A settled edit refund is observed again. -/
def observeSettled (refund : Refund) (attemptId : String)
    (providerRef : Option String) : EditStore :=
  activateRefund w (adoptReference db refund attemptId providerRef) refund

/-- Settle an edit refund: money only, then the edit is activated. -/
def settleEditRefund (refund : Refund) : Except RefundFailure EditStore :=
  if moneyOnly db refund then
    let activated := activateRefund w db refund
    .ok {activated with audit := activated.audit++[⟨"refund",refund.id⟩]}
  else refuseRefund 409 "Order edit refund must be money-only"

/-- Apply a provider answer to the edit refund of an attempt. -/
def finalizeRefund (attemptId : String) (state : RefundState)
    (providerRef : Option String) : Except RefundFailure EditStore :=
  match findAttempt db (some attemptId),refundOf db attemptId with
  | some attempt, some refund =>
    if attempt.operation ≠ "refund" then refuseRefund 404 "Refund attempt not found"
    else if db.order.reconciliationRequired then
      if differs refund providerRef then refuseRefund 409 "Refund reference mismatch"
      else .ok (writeOutcome db refund attemptId (observedState refund state)
        (providerRef.or refund.providerRef))
    else if refund.state=.settled then .ok (observeSettled w db refund attemptId providerRef)
    else if differs refund providerRef then refuseRefund 409 "Refund reference mismatch"
    else if refund.state=.failed∧state≠.settled then .ok db
    else if state≠.settled then
      .ok (writeOutcome db refund attemptId state (providerRef.or refund.providerRef))
    else
      settleEditRefund w (writeOutcome db refund attemptId .settled
        (providerRef.or refund.providerRef)) refund
  | none, _ => refuseRefund 404 "Refund attempt not found"
  | some _, none => refuseRefund 409 "Refund reservation is incomplete"

/-- A key that was used before answers with its refund when the request is the
same one. -/
def replayRequest (request : EditRefundRequest) (prior : Attempt) :
    Except RefundFailure (Refund×EditStore) :=
  if prior.operation ≠ "refund" ∨ prior.orderId≠db.order.id ∨
      prior.fingerprint≠w.fingerprint (.refundRequest request) then
    refuseRefund 409 "Idempotency key belongs to another refund"
  else
    match refundOf db prior.id with
    | none => refuseRefund 409 "Refund reservation requires reconciliation"
    | some refund =>
      if refund.state=.settled then
        (finalizeRefund w db prior.id .settled refund.providerRef).map fun written =>
          (refund,written)
      else .ok (refund,db)

end

/-- Attempt a key was used for. -/
def priorAttempt (key : String) : Option Attempt :=
  db.attempts.find? fun a => decide (a.idempotencyKey = "refund:" ++ key)

/-- Stored form of a refund. -/
def viewOf (refund : Refund) : Refund :=
  (findRefund db (some refund.id)).getD refund

/-- Answer of the refund engine: the refund it stands for, or the failure with
whatever was written before it. -/
structure RefundAnswer where
  reply : Except RefundFailure Refund
  store : EditStore

/-- Request the refund of an edit. The refund is stored first; the provider is
asked and its answer is recorded in a transaction of its own. -/
def requestRefund (db : EditStore) (key : String) (request : EditRefundRequest)
    (answer : ProviderAnswer) : RefundAnswer :=
  match checkRequest key request with
  | .error failure => ⟨.error failure,db⟩
  | .ok _ =>
    if db.order.reconciliationRequired then
      ⟨.error .aborted,db⟩
    else
      match checkNoPendingEdit db request with
      | .error failure => ⟨.error failure,db⟩
      | .ok _ =>
        match priorAttempt db key with
        | some prior =>
          match replayRequest w db request prior with
          | .error failure => ⟨.error failure,db⟩
          | .ok (refund,written) => ⟨.ok (viewOf written refund),written⟩
        | none =>
          match planRefund w db request with
          | .error failure => ⟨.error failure,db⟩
          | .ok payment =>
            match storeRefund w db key request payment answer with
            | .error failure => ⟨.error failure,db⟩
            | .ok stored =>
              if answer.finalizes then
                match finalizeRefund w stored answer.attemptId answer.state answer.providerRef with
                | .error failure => ⟨.error failure,stored⟩
                | .ok written => ⟨.ok (viewOf written (newRefund db request payment answer)),written⟩
              else ⟨.error .aborted,stored⟩

/-- Status of a settlement whose refund is in a state. -/
def refundStatus (state : RefundState) : SettlementStatus :=
  match state with
  | .settled => .settled
  | .failed => .failed
  | .pending => .pending

def declinedMessage : String :=
  "the gateway declined the refund — retry it from the order edit, or leave it as credit"

/-- Project the state of a refund onto a settlement. -/
def applyLiveRefundState (settlement : SettlementOutcome) (state : Option RefundState) :
    SettlementOutcome :=
  match state with
  | none => settlement
  | some state =>
    if settlement.phase≠none∧settlement.status=.reconciliationRequired then
      {settlement with refundState := some state}
    else if refundStatus state=settlement.status∧settlement.refundState=some state then
      settlement
    else
      {settlement with
        refundState := some state
        status := refundStatus state
        message := if state=.failed then some declinedMessage else none}

/-- Settlement as the linked refund has it now. -/
def liveEditSettlement (settlement : SettlementOutcome) : SettlementOutcome :=
  if settlement.type≠.refundNow∨settlement.refundId=none then settlement
  else applyLiveRefundState settlement ((findRefund db settlement.refundId).map Refund.state)

/-- Link the refund a failed request left behind. -/
def recoverEditRefundSettlement (key : String) (out : SettlementOutcome) :
    SettlementOutcome :=
  match (priorAttempt db key).bind fun attempt => refundOf db attempt.id with
  | some refund => liveEditSettlement db {out with refundId := some refund.id}
  | none => out

/-- Message shown for a failed request. -/
def failureMessage : RefundFailure → String
  | .refused _ message => message
  | .aborted => "refund could not be issued"

/-- Settlement after a refund request: it follows the refund that answered, or
the one a failed request left behind. -/
def settlementAfter (answer : RefundAnswer) (key : String) (out : SettlementOutcome)
    (declined : String) : SettlementOutcome :=
  match answer.reply with
  | .ok refund =>
    {out with
      refundId := some refund.id
      refundState := some refund.state
      status := refundStatus refund.state
      message := if refund.state=.failed then some declined else none}
  | .error failure =>
    recoverEditRefundSettlement answer.store key
      {out with
        status := .failed
        message := some (failureMessage failure)}

/-- Merge the outcome of a refund with the stored settlement. A staged edit may
have been activated meanwhile: what is stored is kept, but for the refund and,
while the edit waits, the status. -/
def mergeSettlement (out stored : SettlementOutcome) : SettlementOutcome :=
  if stored.phase=none then out
  else
    let keepsStatus := stored.phase=some .activated∨stored.status=.reconciliationRequired
    { type := stored.type
      status := if keepsStatus then stored.status else out.status
      amount := stored.amount.or out.amount
      paymentId := stored.paymentId.or out.paymentId
      refundId := out.refundId.or stored.refundId
      refundState := if out.refundId=none then stored.refundState.or out.refundState
        else out.refundState
      message := if keepsStatus then stored.message.or out.message else out.message
      phase := stored.phase
      paymentAttemptId := stored.paymentAttemptId.or out.paymentAttemptId
      amendmentDigest := stored.amendmentDigest.or out.amendmentDigest
      activationReceipt := stored.activationReceipt.or out.activationReceipt}

def findEdit (editId : String) : Option EditRow :=
  db.edits.find? fun row => decide (row.id=editId)

/-- Record the outcome of a refund in the settlement of its edit. -/
def recordSettlement (editId : String) (out : SettlementOutcome) (action : String) :
    EditStore :=
  match findEdit db editId with
  | none => db
  | some row =>
    {setSettlement editId (mergeSettlement out row.settlement) db with
      audit := db.audit++[⟨action,editId⟩]}

/-- Ask for the refund of an edit under a key and record what came of it. -/
def driveRefund (db : EditStore) (edit : EditRow) (key : String)
    (out : SettlementOutcome) (request : EditRefundRequest) (declined action : String)
    (answer : ProviderAnswer) : EditStore :=
  let requested := requestRefund w db key request answer
  recordSettlement requested.store edit.id (settlementAfter requested key out declined) action

/-- Reply of an operation on an edit. -/
abbrev Reply := Except EditFailure Unit

/-- Refusal of an order with unresolved imported history. -/
def refuseImported : Reply := refuse 409 "IMPORTED_FINANCIAL_RECONCILIATION_REQUIRED"
    "Imported financial history requires reconciliation before changing money."

/-- The settlement still asks for its refund. -/
def refundOpen (edit : EditRow) (settlement : SettlementOutcome) : Bool :=
  decide (settlement.type=.refundNow)&&decide (settlement.status≠.settled) &&
    decide (settlement.status≠.reconciliationRequired)&&decide (edit.balance<0)

/-- Tables and settlement a repeated commit continues with: an edit that waits
is tried once more. -/
def resumeEdit (db : EditStore) (edit : EditRow) : EditStore×SettlementOutcome :=
  let live := liveEditSettlement db edit.settlement
  if live.isPendingEditStage then
    let activated := (activatePreparedOrderEdit w db
      ⟨live.refundId,live.paymentAttemptId,none⟩).2
    (activated,((findEdit activated edit.id).map EditRow.settlement).getD live)
  else (db,live)

/-- Repeat the commit of a stored edit. A refund that did not finish is asked
for again under the key of the commit. -/
def commitOrderEdit (db : EditStore) (editId : String) (answer : ProviderAnswer) :
    Reply×EditStore :=
  match findEdit db editId with
  | none => (refuse 404 "ORDER_NOT_FOUND" "order not found",db)
  | some edit =>
    if db.order.reconciliationRequired then
      (refuseImported,db)
    else
      let resumed := resumeEdit w db edit
      if refundOpen edit resumed.2 then
        match resumed.2.paymentId.bind fun id => findPayment resumed.1 id with
        | none => (.ok (),resumed.1)
        | some payment =>
          let out := {resumed.2 with
              type := .refundNow
              paymentId := some payment.id
              amount := some (-edit.balance)}
          (.ok (),driveRefund w resumed.1 edit (commitKey edit.idempotencyKey) out
            (refundRequest edit payment.id (-edit.balance) (resumed.2.phase≠none))
            declinedMessage "edit_refund" answer)
      else (.ok (),resumed.1)

/-- Pattern matching of the database: `%` stands for any text, `_` for any
character and a backslash takes the next character as it is. -/
def like : List Char → List Char → Bool
  | [],text => text.isEmpty
  | '%' :: pattern, text => text.tails.any (like pattern)
  | '_' :: pattern, text =>
    match text with
    | [] => false
    | _::rest => like pattern rest
  | '\\' :: c::pattern, text =>
    match text with
    | [] => false
    | d::rest => decide (c=d)&&like pattern rest
  | c::pattern, text =>
    match text with
    | [] => false
    | d::rest => decide (c=d)&&like pattern rest

/-- Attempts whose key matches a pattern. -/
def attemptsLike (pattern : String) : List Attempt :=
  db.attempts.filter fun a => like pattern.toList a.idempotencyKey.toList

/-- What an operator asks for when the refund of an edit failed. -/
inductive RetryAction where
  | retry | credit
  deriving DecidableEq

/-- Payments that still have money to refund, with that money. -/
def refundable : List (String×ℤ) := ((db.payments.filter fun p =>
    decide (p.orderId=db.order.id∧p.state=.settled) && !p.duplicate).map fun p =>
      (p.id,available db p)).filter fun entry => decide (0<entry.2)

/-- Payment an amount can be refunded to, or why there is none. -/
def refundFeasibility (amount : ℤ) (paymentId : Option String) :
    Except String String :=
  if db.order.state≠.paid∧db.order.state≠.partiallyRefunded then
    .error "only a paid order can be refunded; leave the credit instead"
  else
    match paymentId, (refundable db).filter fun entry =>
        decide (paymentId=none)||decide (some entry.1=paymentId) with
    | some _, [] => .error "the selected payment has nothing left to refund"
    | none, [] => .error "no refundable payment on this order"
    | none, _::_::_ => .error "select which payment to refund"
    | _, entry::_ =>
      if entry.2<amount then .error "the refund exceeds what is left on that payment"
      else if amount=entry.2 then
        .error "this would refund the whole payment — cancel or refund the order instead"
      else .ok entry.1

/-- Every refund that was tried for an edit failed, the linked one among them. -/
def refundsResolved (edit : EditRow) : Bool :=
  let attempts := (attemptsLike db ("refund:order-edit:" ++ edit.idempotencyKey ++ "%")).filter
    fun a => decide (a.orderId=db.order.id)
  let refunds := db.refunds.filter fun r => attempts.any fun a => decide (r.attemptId=some a.id)
  (attempts.all fun a => decide (a.status = "failed")) &&
    (refunds.all fun r => decide (r.state=.failed)) &&
    match edit.settlement.refundId with
    | none => true
    | some id => refunds.any fun r => decide (r.id=id∧r.state=.failed)

/-- Leave the refund of a staged edit as credit and activate the edit. -/
def creditStage (db : EditStore) (stage : Stage) : Reply×EditStore :=
  if refundsResolved db stage.row then
    let linked := stage.row.settlement.refundId.bind fun id => findRefund db (some id)
    let amendment := buildEditSettlementAmendment w stage.proposal (linked.map Refund.id)
      (linked.bind Refund.attemptId)
    let amended : EditStore := {db with
        edits := updateWhere (fun row => decide (row.id=stage.row.id))
          (fun row =>
            {row with
              settlementAmendment := some amendment
              settlement := {stage.row.settlement with
                  amendmentDigest := some amendment.digest
                  type := .leaveCredit
                  phase := some .ready
                  status := .credit}}) db.edits}
    (.ok (),(activatePreparedOrderEdit w amended ⟨none,none,none⟩).2)
  else
    (refuse 409 "REFUND_UNRESOLVED" "Reconcile every refund attempt before leaving credit.",db)

/-- Balance a retry works on: the refund a staged edit asks for, else what the
order owes back now. -/
def refundDue : Option Stage → ℤ
  | some stage => -stage.proposal.settlementRequirement.requiredRefund
  | none => amountDue db

/-- Ask for the refund of an edit once more, or leave its money as credit. -/
def retryRefund (db : EditStore) (edit : EditRow) (stage : Option Stage)
    (action : RetryAction) (paymentId : Option String) (answer : ProviderAnswer) :
    Reply×EditStore :=
  let live := liveEditSettlement db edit.settlement
  if live.type≠.refundNow∨live.status≠.failed then
    (refuse 409 "REFUND_NOT_RETRYABLE" "this edit has no failed refund to recover",db)
  else
    let due := refundDue db stage
    if 0≤due then
      (refuse 409 "NOTHING_OWED" "nothing is currently owed back on this order",db)
    else
      match action with
      | .credit =>
        (.ok (),recordSettlement db edit.id
          { type := .leaveCredit
            status := .credit
            amount := some (-due)
            paymentId := none
            refundId := none
            refundState := none
            message := some "refund abandoned; left as credit on the order"
            phase := none
            paymentAttemptId := none
            amendmentDigest := none
            activationReceipt := none} "edit_refund_credit")
      | .retry =>
        match refundFeasibility db (-due) (paymentId.or live.paymentId) with
        | .error reason => (refuse 409 "REFUND_NOT_POSSIBLE" reason,db)
        | .ok payment =>
          let attempt := (attemptsLike db
            ("refund:order-edit:" ++ edit.idempotencyKey ++ ":retry:%")).length+1
          let out := {live with
              type := .refundNow
              paymentId := some payment
              amount := some (-due)}
          (.ok (),driveRefund w db edit (retryKey edit.idempotencyKey attempt) out
            (refundRequest edit payment (-due) (live.phase≠none))
            "the gateway declined the refund again — retry later or leave it as credit"
            "edit_refund_retry" answer)

def linkedSettled (stage : Stage) : Option Refund :=
  (stage.row.settlement.refundId.bind fun id => findRefund db (some id)).filter fun r =>
    decide (r.state=.settled)

/-- Recover the failed refund of an edit: a settled refund is brought to its
activation, else the refund is asked for again or left as credit. -/
def retryOrderEditRefund (db : EditStore) (editId : String) (action : RetryAction)
    (paymentId : Option String) (answer : ProviderAnswer) : Reply×EditStore :=
  if db.order.reconciliationRequired then
    (refuseImported,db)
  else
    match findEdit db editId with
    | none => (refuse 404 "EDIT_NOT_FOUND" "order edit not found",db)
    | some edit =>
      match preparedStage w db (some editId) with
      | .error failure => (.error failure,db)
      | .ok none => retryRefund w db edit none action paymentId answer
      | .ok (some stage) =>
        if stage.row.settlement.phase=some .activated then (.ok (),db)
        else
          match linkedSettled db stage with
          | some refund => (.ok (),activateRefund w db refund)
          | none =>
            if action=.credit then creditStage w db stage
            else if paymentId≠none∧paymentId≠edit.settlement.paymentId then
              (refuse 409 "ORDER_EDIT_REFUND_INVALID" "Retry must use accepted original payment.",db)
            else retryRefund w db edit (some stage) action paymentId answer

end SellRight.EditRefunds
