import SellRight.RefundRequests

/-!
# Preparation and settlement of refunds

A planned refund is stored as pending with its attempt and its lines. Provider
outcomes reach it through one finalizer, which never takes a settled refund
back. A key that was used before answers with its refund instead of storing
another one.
-/

namespace SellRight.RefundSettlement

open OrderLifecycle PaymentLedger RefundRequests RowTable

/-- Identifiers drawn for the rows of a new refund. -/
structure Drawn where
  (attemptId refundId : String)

def newAttempt (w : World) (o : Order) (input : RefundRequest) (plan : RefundPlan) (drawn : Drawn) :
    PaymentAttempt :=
  { id := drawn.attemptId
    orderId := o.id
    paymentId := some plan.payment.id
    operation := "refund"
    method := if input.creditMerchandiseReturn then "credit_merchandise" else plan.payment.method
    amount := plan.amounts.amount
    currency := plan.payment.currency.getD o.currency
    idempotencyKey := "refund:" ++ input.idempotencyKey
    fingerprint := requestFingerprint w input
    status := "processing"
    providerRef := none}

/-- Row of a new refund. -/
def newRefund (o : Order) (input : RefundRequest) (plan : RefundPlan) (drawn : Drawn) : Refund :=
  { id := drawn.refundId
    attemptId := some drawn.attemptId
    paymentId := plan.payment.id
    orderId := o.id
    amount := plan.amounts.amount
    itemsAmount := plan.amounts.itemsAmount
    shippingAmount := plan.amounts.shippingAmount
    adjustmentAmount := plan.amounts.amount-plan.amounts.itemsAmount-plan.amounts.shippingAmount
    state := .pending
    reason := input.reason.or (plan.rma.bind ReturnRequest.reason)
    providerRef := none
    source := input.source
    returnId := input.returnId}

def newRefundLines (plan : RefundPlan) (drawn : Drawn) : List RefundLine :=
  (plan.lines++plan.edits).map fun snapshot =>
    ⟨drawn.refundId,snapshot.line.orderLineId,snapshot.line.quantity,snapshot.amount,
      snapshot.line.restock⟩

/-- Store a planned refund with its attempt, its lines and its links. -/
def storeRefund (w : World) (db : Store) (o : Order) (input : RefundRequest) (plan : RefundPlan)
    (drawn : Drawn) : Except RefundFailure Store :=
  let stored : Store := {db with
      attempts := db.attempts++[newAttempt w o input plan drawn]
      refunds := db.refunds++[newRefund o input plan drawn]}
  let linked : Option (List OrderEdit) :=
    if input.editId.getD "" = "" then some db.edits
    else w.bindPreparedEditRefund stored o.id (input.editId.getD "") drawn.refundId
  match linked with
  | none => .error .aborted
  | some edits =>
    .ok
      {stored with
        edits := edits
        refundLines := db.refundLines++newRefundLines plan drawn
        returns :=
          match plan.rma with
          | none => db.returns
          | some rma =>
            updateWhere (fun row => decide (row.id=rma.id))
              (fun row =>
                {row with
                  status := "approved"
                  refundId := some drawn.refundId}) db.returns}

/-- Outcome reported by a provider. -/
structure RefundResult where
  state : RefundState
  providerRef : Option String

variable (db : Store)

def findRefund (attemptId : String) : Option Refund :=
  db.refunds.find? fun r => decide (r.attemptId=some attemptId)

/-- Status shown for an outcome: pending with a reference, unknown without. -/
def attemptStatus (state : RefundState) (providerRef : Option String) : String :=
  match state with
  | .settled => "settled"
  | .failed => "failed"
  | .pending => if providerRef.getD "" ≠ "" then "pending" else "unknown"

/-- Another refund of the payment carries the reference. -/
def referenceTaken (refund : Refund) (providerRef : Option String) : Bool :=
  db.refunds.any fun r => decide (r.id≠refund.id∧r.paymentId=refund.paymentId ∧
    providerRef≠none∧r.providerRef=providerRef)

/-- Set state and reference of a refund. -/
def setOutcome (refund : Refund) (state : RefundState) (providerRef : Option String)
    (refunds : List Refund) : List Refund :=
  updateWhere (fun r => decide (r.id=refund.id))
    (fun r =>
      {r with
        state := state
        providerRef := providerRef}) refunds

section
variable (db : Store) (attemptId : String) (refund : Refund)

/-- Write state and reference of a refund and the status of its attempt. -/
def writeOutcome (state : RefundState) (providerRef : Option String) : Except RefundFailure Store :=
  if referenceTaken db refund providerRef then .error .aborted
  else
    .ok
      {db with
        refunds := setOutcome refund state providerRef db.refunds
        attempts := updateWhere (fun a => decide (a.id=attemptId))
          (fun a =>
            {a with
              status := attemptStatus state providerRef
              providerRef := providerRef}) db.attempts}

/-- Write a late reference of a settled refund. -/
def adoptReference (providerRef : Option String) : Except RefundFailure Store :=
  if referenceTaken db refund providerRef then .error .aborted
  else
    .ok
      {db with
        refunds := setOutcome refund refund.state providerRef db.refunds
        attempts := updateWhere (fun a => decide (a.id=attemptId))
          (fun a => {a with providerRef := providerRef}) db.attempts}

end

/-- A line of the activation is stored under another order. -/
def lineTaken (o : Order) (stage : StageActivation) : Bool :=
  stage.lines.any fun line => db.orderLines.any fun stored =>
    decide (stored.id=line.id∧stored.orderId≠o.id)

/-- Activate the staged edit of a refund. Without credit evidence, and where a
constraint refuses it, the activation is rolled back. -/
def activatePreparedOrderEdit (w : World) (db : Store) (o : Order) (refundId : String) : Store :=
  if creditBearing w db o.id then
    match w.activateStage db o.id refundId with
    | none => db
    | some stage =>
      if lineTaken db o stage then db
      else
        {db with
          orders := updateWhere (fun row => decide (row.id=o.id))
            (fun row => {row with state := stage.state}) db.orders
          orderLines := (db.orderLines.filter fun line => decide (line.orderId≠o.id)) ++
            stage.lines.map fun line => {line with orderId := o.id}
          edits := stage.edits}
  else db

/-- Money captured for an order and money refunded of it, without duplicate
captures and with the differences of order edits taken out of the captures. -/
def orderRefundBasis (o : Order) : ℤ×ℤ :=
  let payments := (settledPayments db o).filter fun p => !p.duplicate
  let refunds := (orderRefunds db o).filter fun r =>
    decide (r.state=.settled∧r.paymentId∈payments.map Payment.id)
  let editRefunded := ((refunds.filter isEditRefund).map Refund.amount).sum
  let refunded := ((refunds.filter fun r => !isEditRefund r).map Refund.amount).sum
  ((payments.map Payment.amount).sum-editRefunded,refunded)

def setOrderState (orderId : String) (state : OrderState) : Store := {db with
    orders := updateWhere (fun row => decide (row.id=orderId))
      (fun row => {row with state := state}) db.orders}

/-- The refund returns credit-paid merchandise without cash. -/
def returnsCreditMerchandise (attempt : PaymentAttempt) (refund : Refund) : Bool :=
  decide (attempt.method = "credit_merchandise" ∧ refund.amount=0)

section
variable (w : World) (db : Store) (o : Order) (attempt : PaymentAttempt) (refund : Refund)

/-- State of an order after a refund of it settled. -/
def stateAfterRefund : OrderState :=
  let (captured,refunded) := orderRefundBasis db o
  if o.state=.cancelled then .cancelled
  else if returnsCreditMerchandise attempt refund then
    if o.state=.refunded∨(w.fullCreditMerchandise db o.id∧captured≤refunded) then .refunded
    else .partiallyRefunded
  else if captured≤refunded then .refunded
  else .partiallyRefunded

/-- Apply a settlement: an order edit moves money only, the refund of a
duplicate capture leaves the order alone, any other refund moves the order and
closes its return. -/
def settleRefund : Except RefundFailure Store :=
  let lines := db.refundLines.filter fun line => decide (line.refundId=refund.id)
  if !w.settlesElsewhere db refund.id then .error .aborted
  else if isEditRefund refund then
    if refund.shippingAmount≠0∨refund.returnId.getD "" ≠ "" ∨
        (lines.map RefundLine.amount).sum≠refund.itemsAmount then
      refuse 409 "Order edit refund must be money-only"
    else .ok (activatePreparedOrderEdit w db o refund.id)
  else if db.payments.any fun p => decide (p.id=refund.paymentId)&&p.duplicate then .ok db
  else
    let moved := setOrderState db o.id (stateAfterRefund w db o attempt refund)
    .ok
      {moved with
        returns := updateWhere (fun row => decide (some row.id=refund.returnId∧row.orderId=o.id))
          (fun row =>
            {row with
              status := "refunded"
              refundId := some refund.id}) db.returns}

end

/-- A settled refund without a reference adopts a late one. -/
def lateReference (attemptId : String) (refund : Refund) (result : RefundResult) :
    Except RefundFailure Store :=
  if refund.providerRef.getD "" = "" ∧ result.providerRef.getD "" ≠ "" then
    adoptReference db attemptId refund result.providerRef
  else .ok db

section
variable (w : World) (db : Store) (o : Order) (attempt : PaymentAttempt) (refund : Refund)

/-- An order whose credit-paid merchandise is back in full is refunded, also
when its proof was missing before. -/
def retryCreditMerchandiseCompletion : Store :=
  if returnsCreditMerchandise attempt refund∧w.fullCreditMerchandise db o.id ∧
      (orderRefundBasis db o).1≤(orderRefundBasis db o).2∧o.state≠.cancelled then
    setOrderState db o.id .refunded
  else db

/-- A settled refund is observed again: a late reference is adopted and
deferred effects are tried again. -/
def replaySettled (result : RefundResult) : Except RefundFailure Store :=
  match lateReference db attempt.id refund result with
  | .error e => .error e
  | .ok written =>
    let completed := retryCreditMerchandiseCompletion w written o attempt refund
    .ok (if isEditRefund refund then activatePreparedOrderEdit w completed o refund.id
      else completed)

end

/-- Apply a provider outcome to the refund of an attempt. -/
def finalizeRefund (w : World) (db : Store) (attemptId : String) (result : RefundResult) :
    Except RefundFailure Store :=
  match db.attempts.find? fun a => decide (a.id=attemptId) with
  | none => refuse 404 "Refund attempt not found"
  | some attempt =>
    if attempt.operation ≠ "refund" then refuse 404 "Refund attempt not found"
    else
      match findOrder db attempt.orderId, findRefund db attemptId with
      | some o, some refund =>
        let differs := refund.providerRef.getD "" ≠ "" ∧ result.providerRef.getD "" ≠ "" ∧
          refund.providerRef≠result.providerRef
        if o.reconciliationRequired then
          if differs then refuse 409 "Refund reference mismatch"
          else
            writeOutcome db attemptId refund
              (if refund.state=.settled then .settled
                else if refund.state=.failed∧result.state≠.settled then .failed
                else result.state)
              (result.providerRef.or refund.providerRef)
        else if refund.state=.settled then replaySettled w db o attempt refund result
        else if differs then refuse 409 "Refund reference mismatch"
        else if refund.state=.failed∧result.state≠.settled then .ok db
        else
          match writeOutcome db attemptId refund result.state
              (result.providerRef.or refund.providerRef) with
          | .error e => .error e
          | .ok written =>
            if result.state≠.settled then .ok written
            else settleRefund w written o attempt refund
      | _, _ => refuse 409 "Refund reservation is incomplete"

/-- Answer of a preparation. -/
inductive Prepared where
  /-- The key was used before; its refund is observed again. -/
  | existing (refund : Refund)
  | created (refund : Refund)

/-- A key that was used before answers with its refund when the request is the
same one. -/
def replayRequest (w : World) (db : Store) (o : Order) (input : RefundRequest)
    (prior : PaymentAttempt) : Except RefundFailure (Prepared×Store) :=
  if prior.operation ≠ "refund" ∨ prior.orderId≠o.id ∨
      prior.fingerprint≠requestFingerprint w input then
    refuse 409 "Idempotency key belongs to another refund"
  else
    match findRefund db prior.id with
    | none => refuse 409 "Refund reservation requires reconciliation"
    | some refund =>
      if (prior.method = "credit_merchandise" ∧ refund.state=.pending) ∨
          refund.state=.settled then
        (finalizeRefund w db prior.id
          ⟨.settled,if refund.state=.settled then refund.providerRef else none⟩).map fun written =>
            (.existing refund,written)
      else .ok (.existing refund,db)

/-- Prepare a refund in one transaction. -/
def prepareRefund (w : World) (db : Store) (input : RefundRequest) (drawn : Drawn) :
    Except RefundFailure (Prepared×Store) := do
  checkRequest input
  let o ← lockOrder db input
  match db.attempts.find? fun a =>
      decide (a.idempotencyKey = "refund:" ++ input.idempotencyKey) with
  | some prior => replayRequest w db o input prior
  | none =>
    let plan ← planRefund w db o input
    let written ← storeRefund w db o input plan drawn
    return (.created (newRefund o input plan drawn),written)

end SellRight.RefundSettlement
