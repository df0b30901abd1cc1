import SellRight.EffectsEngine
import SellRight.PaymentLedger

/-!
# Settlement of payment results

A provider result is applied to an order under the locks of the order: the
payment row is inserted or moved forward, the settlement operation is recorded
once under its identity, and the order becomes paid when its settled tenders
cover the total. Reservations and account credit that follow a settlement live
in other tables and are not part of this model.
-/

namespace SellRight.PaymentSettlement

open EffectsEngine OrderLifecycle PaymentLedger RowTable

/-- Columns of an order read and written by a settlement. -/
structure Order where
  id : String
  state : OrderState
  grandTotal : ℤ
  currency : String
  /-- Imported financial history still needs reconciliation. -/
  reconciliationRequired : Bool
  placedAt : Option ℤ
  deriving DecidableEq

/-- Audit entry written next to a settled payment. -/
structure AuditEntry where
  (orderId action : String)
  amount : ℤ

/-- Tables of one store that a settlement reads and writes. -/
structure Store where
  orders : List Order
  payments : List Payment
  refunds : List Refund
  edits : List OrderEdit
  effects : Database
  audits : List AuditEntry

/-- Result reported by a payment provider. -/
structure PaymentResult where
  state : PaymentState
  (providerRef accountId mode : Option String)
  duplicate : Bool
  errorMessage : Option String

/-- Why a delivery is rolled back. -/
inductive SettlementError where
  | orderMissing
  /-- The payment reference does not match the order and amount. -/
  | mismatch
  /-- The operation may not perform the mutation or effect. -/
  | notEligible
  | cannotTransition
  /-- A replay would skip an order transition that was never applied. -/
  | unapplied
  | handlerFailed
  deriving DecidableEq

/-- Columns of a payment replaced by a reported state. -/
structure PaymentStateUpdate where
  state : PaymentState
  duplicate : Bool
  errorMessage : Option String

/-- Mutations a settlement operation carries out. -/
inductive SettlementMutation where
  /-- Insert a payment unless its reference is stored already. -/
  | paymentInsert (row : Payment)
  | paymentState (paymentId : String) (next : PaymentStateUpdate)
  | paymentGatewayIdentity (paymentId : String) (gatewayMode gatewayAccount : Option String)
  | orderPaid (orderId : String) (placedAt : ℤ)

inductive MutationType where
  | paymentInsert | paymentState | paymentGatewayIdentity | orderPaid | orderInsert
  | invoicePaymentRecord | orderPurge
  deriving DecidableEq

def SettlementMutation.type : SettlementMutation → MutationType
  | .paymentInsert _ => .paymentInsert
  | .paymentState _ _ => .paymentState
  | .paymentGatewayIdentity _ _ _ => .paymentGatewayIdentity
  | .orderPaid _ _ => .orderPaid

/-- What operations of one kind may do. -/
structure OperationPolicy where
  mutations : List MutationType
  effects : List EffectKind

def operationPolicy : SettlementKind → OperationPolicy
  | .stripeInvoicePaid =>
    { mutations := [.paymentInsert,.orderPaid,.invoicePaymentRecord]
      effects := [.licenseIssue,.loyaltyEarn,.notification,.licenseExtend,.editReconcile,
        .adminReview]}
  | .paymentSettled =>
    {mutations := [.paymentInsert,.paymentState],effects := [.editReconcile,.loyaltyEarn]}
  | .paymentStateProgress =>
    {mutations := [.paymentInsert,.paymentState,.paymentGatewayIdentity],effects := []}
  | .orderPaidTransition =>
    { mutations := [.orderPaid,.orderInsert,.paymentInsert]
      effects := [.licenseIssue,.loyaltyEarn,.notification]}
  | .adminDraftCreate => {mutations := [.orderInsert],effects := []}
  | .orderEditBalanceSettled =>
    {mutations := [.paymentInsert,.paymentState],effects := [.editReconcile,.loyaltyEarn]}
  | .duplicateCaptureRecorded => {mutations := [.paymentInsert],effects := [.notification]}
  | .historicalImport => {mutations := [.paymentInsert,.orderInsert],effects := []}
  | .syntheticSeed => {mutations := [.orderInsert],effects := []}
  | .paymentModeCorrected => {mutations := [.paymentGatewayIdentity],effects := []}
  | .orderPurge => {mutations := [.orderPurge],effects := []}
  | .orderRefunded => {mutations := [],effects := [.entitlementReversal]}
  | .disputeOpened => {mutations := [],effects := [.entitlementReversal]}
  | .operatorResolution =>
    { mutations := [.invoicePaymentRecord,.paymentInsert,.orderPaid]
      effects := [.licenseIssue,.licenseExtend,.loyaltyEarn,.notification,.editReconcile]}

/-- Kinds without an operation row. -/
def monotoneKinds : List SettlementKind := [.paymentStateProgress,.paymentModeCorrected]

/-- Kinds whose operation is the insertion of a payment. -/
def paymentIdentityKinds : List SettlementKind := [.paymentSettled,.duplicateCaptureRecorded]

/-- Request to record a settlement. The callers of this model pass exactly
one mutation each. -/
structure SettlementOperation where
  kind : SettlementKind
  operationId : String
  orderId : Option String
  mutation : SettlementMutation
  effects : List EffectRequest

/-- Answer of the recording function. -/
structure SettlementResult where
  (created replayed : Bool)
  paymentId : Option String

/-- Code outside of the settlement path. -/
structure World where
  registry : Registry
  activateStage : Store → OrderEdit → Store×Bool

/-- Clock and handler runs met by one delivery. -/
structure Ambient where
  now : ℤ
  outcomes : ℕ → HandlerRun

/-- The gateway identity of a row agrees with the given one, a missing value
reading as empty. -/
def sameGateway (account mode : Option String) (p : Payment) : Bool :=
  decide (p.gatewayAccount.getD "" = account.getD "" ∧ p.gatewayMode.getD "" = mode.getD "")

/-- A unique index forbids storing the new row next to this one. -/
def conflictsWith (row p : Payment) : Bool :=
  decide (row.providerRef≠none∧p.providerRef=row.providerRef∧p.method=row.method) &&
    (decide (row.method = "stripe")||sameGateway row.gatewayAccount row.gatewayMode p)

variable (db : Store)

/-- Insert a payment, doing nothing on a conflict. -/
def insertPayment (row : Payment) : Option Store :=
  if db.payments.any (conflictsWith row) then none
  else some {db with payments := db.payments++[row]}

/-- Columns of a payment moved to a reported state. -/
def progressedRow (next : PaymentStateUpdate) (p : Payment) : Payment :=
  {p with
    state := next.state
    duplicate := next.duplicate
    errorMessage := next.errorMessage}

/-- Columns of a payment whose missing identity is filled. -/
def identifiedRow (gatewayMode gatewayAccount : Option String) (p : Payment) : Payment :=
  {p with
    gatewayMode := p.gatewayMode.or gatewayMode
    gatewayAccount := p.gatewayAccount.or gatewayAccount}

/-- Columns of an order that becomes paid. -/
def paidOrder (placedAt : ℤ) (o : Order) : Order :=
  {o with
    state := .paid
    placedAt := some placedAt}

def findOrder (orderId : String) : Option Order :=
  db.orders.find? fun o => decide (o.id=orderId)

def touchedOrders (op : SettlementOperation) : List String :=
  op.orderId.toList ++
    match op.mutation with
    | .orderPaid orderId _ => [orderId]
    | .paymentInsert row => [row.orderId]
    | .paymentState paymentId _ | .paymentGatewayIdentity paymentId _ _ =>
      ((db.payments.find? fun p => decide (p.id=paymentId)).map Payment.orderId).toList

/-- Some touched order carries the reconciliation marker. -/
def quarantined (op : SettlementOperation) : Bool :=
  (touchedOrders db op).any fun orderId =>
    ((findOrder db orderId).map Order.reconciliationRequired).getD false

/-- A single payment insert with a reference that is not empty is keyed by
its reference. -/
def refInsert (op : SettlementOperation) : Option Payment :=
  match op.mutation with
  | .paymentInsert row =>
    if (op.kind=.paymentSettled∨op.kind=.paymentStateProgress) ∧
        row.providerRef.getD "" ≠ "" then some row
    else none
  | _ => none

/-- Insert the payment of a reference or find the one that is stored. -/
def resolveRef (row : Payment) : Except SettlementError (Store×String) :=
  match insertPayment db row with
  | some inserted => .ok (inserted,row.id)
  | none =>
    match db.payments.find? fun p =>
        decide (p.method=row.method∧p.providerRef=row.providerRef) with
    | some p => .ok (db,p.id)
    | none => .error .mismatch

/-- Carry out a mutation and name the payment it touched. -/
def applyMutation (preResolved : Option String) (allowOrderPaid : Bool) :
    SettlementMutation → Except SettlementError (Store×Option String)
  | .paymentInsert row =>
    match preResolved with
    | some paymentId => .ok (db,some paymentId)
    | none =>
      match insertPayment db row with
      | some inserted => .ok (inserted,some row.id)
      | none => .ok (db,none)
  | .paymentState paymentId next =>
    .ok ({db with
           payments := updateWhere
             (fun p => decide (p.id=paymentId∧p.state≠.settled)) (progressedRow next)
             db.payments},some paymentId)
  | .paymentGatewayIdentity paymentId gatewayMode gatewayAccount =>
    .ok ({db with
           payments := updateWhere (fun p => decide (p.id=paymentId))
             (identifiedRow gatewayMode gatewayAccount) db.payments},some paymentId)
  | .orderPaid orderId placedAt =>
    if allowOrderPaid then
      match findOrder db orderId with
      | none => .error .orderMissing
      | some o =>
        if canTransition o.state .paid then
          .ok ({db with
                 orders := updateWhere (fun o => decide (o.id=orderId)) (paidOrder placedAt)
                   db.orders},none)
        else .error .cannotTransition
    else .ok (db,none)

/-- A replay leaves out an order transition that was never applied. -/
def skipsOrderPaid (allowOrderPaid : Bool) : SettlementMutation → Bool
  | .orderPaid orderId _ =>
    allowOrderPaid&&((findOrder db orderId).map fun o => canTransition o.state .paid).getD true
  | _ => false

/-- Store the effects of a recorded operation and run them before the
transaction commits. -/
def runEffects (w : World) (a : Ambient) (op : Operation) (requests : List EffectRequest)
    (effects : Database) : Except SettlementError Database :=
  let recorded := recordOperation a.now op requests effects
  let created := (recorded.rows.drop effects.rows.length).map EffectRow.id
  match executeRows w.registry a.now a.outcomes ⟨recorded,[],[],[]⟩
      (inlineRows recorded created) with
  | (_,true) => .error .handlerFailed
  | (run,false) => .ok run.db

/-- The operation and its effects are open to its kind. -/
def eligible (op : SettlementOperation) : Bool :=
  decide (op.mutation.type∈(operationPolicy op.kind).mutations) &&
    op.effects.all fun request => decide (request.kind∈(operationPolicy op.kind).effects)

/-- Record an operation under its identity: the mutation and the effects of
one identity happen once. -/
def recordSettlementOperation (w : World) (a : Ambient) (db : Store) (op : SettlementOperation) :
    Except SettlementError (SettlementResult×Store) :=
  if !eligible op then .error .notEligible
  else
    let held := quarantined db op
    let effects := if held then [] else op.effects
    let resolved : Except SettlementError (Store×Option String) :=
      match refInsert op with
      | some row => (resolveRef db row).map fun (inserted,paymentId) => (inserted,some paymentId)
      | none => .ok (db,none)
    match resolved with
    | .error e => .error e
    | .ok (located,preResolved) =>
      if op.kind∈monotoneKinds then
        match applyMutation located preResolved (!held) op.mutation with
        | .error e => .error e
        | .ok (written,paymentId) => .ok (⟨true,false,paymentId⟩,written)
      else
        let identity : Operation :=
          ⟨op.kind,if op.kind=.paymentSettled then preResolved.getD op.operationId
            else op.operationId⟩
        if identity∈located.effects.operations then
          if skipsOrderPaid located (!held) op.mutation then .error .unapplied
          else
            .ok (⟨false,true,if op.kind=.paymentSettled then some identity.id else none⟩,located)
        else
          match applyMutation located preResolved (!held) op.mutation with
          | .error e => .error e
          | .ok (written,paymentId) =>
            if op.kind∈paymentIdentityKinds∧op.mutation.type=.paymentInsert ∧
                paymentId=none then
              .ok (⟨false,false,none⟩,written)
            else
              match runEffects w a identity effects written.effects with
              | .error e => .error e
              | .ok run => .ok (⟨true,false,paymentId⟩,{written with effects := run})

/-- Effects of an order that becomes paid. -/
def paidOrderEffects : List EffectRequest :=
  [⟨.licenseIssue,none⟩,⟨.loyaltyEarn,none⟩,⟨.notification,none⟩]

/-- Effects of a payment that clears the balance of an edited order. -/
def editBalanceEffects : List EffectRequest := [⟨.editReconcile,none⟩,⟨.loyaltyEarn,none⟩]

structure Delivery where
  (orderId method : String)
  result : PaymentResult
  amount : Option ℤ
  (editId paymentAttemptId : Option String)
  paymentId : String
  /-- Clock and handler runs of the delivery. -/
  ambient : Ambient

/-- The stage of an edit that a settled payment may activate. -/
def selectedStage (orderId : String) (paymentAttemptId : Option String) :
    Option OrderEdit :=
  db.edits.find? fun edit =>
    match edit.settlement with
    | none => false
    | some settlement =>
      decide (edit.orderId=orderId) &&
        if paymentAttemptId.getD "" ≠ "" then
          decide (settlement.paymentAttemptId=paymentAttemptId)
        else isPendingEditStage edit.settlement

/-- Activate the staged edit a settled payment belongs to. -/
def activatePreparedOrderEdit (w : World) (db : Store) (orderId : String)
    (paymentAttemptId : Option String) : Store×Bool :=
  if ((findOrder db orderId).map Order.reconciliationRequired).getD false then (db,false)
  else
    match selectedStage db orderId paymentAttemptId with
    | none => (db,false)
    | some edit => w.activateStage db edit

/-- State of a stored order, for the answer. -/
def liveState (orderId : String) (fallback : OrderState) : OrderState :=
  ((findOrder db orderId).map Order.state).getD fallback

/-- Row a delivery stores when its reference is new. -/
def deliveredRow (o : Order) (amount : ℤ) (d : Delivery) : Payment :=
  { id := d.paymentId
    orderId := o.id
    amount := amount
    method := d.method
    providerRef := d.result.providerRef
    state := d.result.state
    gatewayAccount := d.result.accountId
    gatewayMode := d.result.mode
    currency := some o.currency
    duplicate := d.result.duplicate
    errorMessage := d.result.errorMessage
    createdAt := d.ambient.now}

/-- Stored payment of the delivered reference: a stripe reference names one
payment, other references are told apart by their gateway identity. An empty
reference is treated as missing. -/
def findExisting (d : Delivery) : Option Payment :=
  if d.result.providerRef.getD "" = "" then none
  else
    db.payments.find? fun p =>
      decide (p.method=d.method∧p.providerRef=d.result.providerRef) &&
        (decide (d.method = "stripe")||sameGateway d.result.accountId d.result.mode p)

/-- A stored value and a delivered one are both present and differ. -/
def contradicts (stored delivered : Option String) : Bool :=
  decide (stored≠none∧delivered≠none∧stored≠delivered)

/-- The stored payment of the reference belongs to something else. -/
def mismatches (o : Order) (amount : ℤ) (d : Delivery) (p : Payment) : Bool :=
  decide (p.orderId≠o.id∨p.amount≠amount) ||
    decide (p.currency.getD "" ≠ "" ∧ p.currency≠some o.currency) ||
    contradicts p.gatewayMode d.result.mode||contradicts p.gatewayAccount d.result.accountId

/-- The delivery carries an identity the stored payment lacks. -/
def completesIdentity (d : Delivery) (p : Payment) : Bool :=
  decide (d.result.mode.getD "" ≠ "" ∧ p.gatewayMode.getD "" = "") ||
    decide (d.result.accountId.getD "" ≠ "" ∧ p.gatewayAccount.getD "" = "")

/-- A late or repeated result leaves the payment as it is. -/
def isStale (d : Delivery) (p : Payment) : Bool :=
  decide (p.state=.settled∨(p.state=.authorized∧d.result.state=.pending) ∨
    (p.state≠.pending∧d.result.state≠.settled∧p.state=d.result.state))

/-- States returned to the caller of a delivery. -/
structure Settled where
  orderState : OrderState
  paymentState : PaymentState
  deriving DecidableEq

/-- Write an audit entry for a settled amount. -/
def recordAudit (orderId action : String) (amount : ℤ) : Store :=
  {db with audits := db.audits++[⟨orderId,action,amount⟩]}

section
variable (w : World) (db : Store)

section
variable (o : Order) (amount : ℤ) (d : Delivery) (paymentId : String)
variable (mutation : SettlementMutation)

/-- Settle a captured payment: record it, and move the order when its tenders
cover the total. -/
def settleCaptured : Except SettlementError (Settled×Store) :=
  let remaining := amountDueForOrder db.payments db.refunds db.edits o.id o.grandTotal-amount
  let payable := canTransition o.state .paid
  let transitions := payable&&decide (remaining≤0)
  let balance := !payable&&decide (o.state=.paid∨o.state=.partiallyRefunded) &&
    decide (0≤remaining)
  let balanceCleared := balance&&decide (remaining=0)
  let identity : SettlementKind×String :=
    if balanceCleared&&decide (d.editId.getD "" ≠ "") then
      (.orderEditBalanceSettled,d.editId.getD "")
    else (.paymentSettled,paymentId)
  match recordSettlementOperation w d.ambient db
      ⟨identity.1,identity.2,none,mutation,if balanceCleared then editBalanceEffects else []⟩
      with
  | .error e => .error e
  | .ok (recorded,written) =>
    if !recorded.created && !recorded.replayed then .error .mismatch
    else if transitions then
      match recordSettlementOperation w d.ambient written
          ⟨.orderPaidTransition,o.id,some o.id,.orderPaid o.id d.ambient.now,
            paidOrderEffects⟩ with
      | .error e => .error e
      | .ok (_,paid) => .ok (⟨.paid,.settled⟩,paid)
    else if !balance&&payable then .ok (⟨o.state,.settled⟩,written)
    else if balance then
      .ok (⟨o.state,.settled⟩,recordAudit written o.id "balance_payment" amount)
    else .ok (⟨o.state,d.result.state⟩,recordAudit written o.id "payment_after_cancel" amount)

/-- Record a payment that does not settle the order yet, or settle it. -/
def settlePlanned : Except SettlementError (Settled×Store) :=
  if d.result.state≠.settled∨o.reconciliationRequired then
    match recordSettlementOperation w d.ambient db
        ⟨if d.result.state=.settled then .paymentSettled else .paymentStateProgress,paymentId,
          some o.id,mutation,[]⟩ with
    | .error e => .error e
    | .ok (recorded,written) =>
      if recorded.paymentId=none then .error .mismatch
      else .ok (⟨o.state,d.result.state⟩,written)
  else if db.edits.any fun edit =>
      decide (edit.orderId=o.id)&&isPendingEditStage edit.settlement then
    match recordSettlementOperation w d.ambient db
        ⟨.paymentSettled,paymentId,none,mutation,[]⟩ with
    | .error e => .error e
    | .ok (recorded,written) =>
      if !recorded.created && !recorded.replayed then .error .mismatch
      else
        let activated := (activatePreparedOrderEdit w written o.id d.paymentAttemptId).1
        .ok (⟨liveState activated o.id o.state,.settled⟩,activated)
  else settleCaptured w db o amount d paymentId mutation

end

/-- Fill the identity of a stored payment that lacks it. -/
def backfillIdentity (d : Delivery) (p : Payment) : Except SettlementError Store :=
  if completesIdentity d p then
    (recordSettlementOperation w d.ambient db
      ⟨.paymentStateProgress,p.id,none,
        .paymentGatewayIdentity p.id d.result.mode d.result.accountId,[]⟩).map Prod.snd
  else .ok db

def applyPaymentResult (d : Delivery) : Except SettlementError (Settled×Store) :=
  match findOrder db d.orderId with
  | none => .error .orderMissing
  | some o =>
    let amount := d.amount.getD o.grandTotal
    match findExisting db d with
    | none => settlePlanned w db o amount d d.paymentId (.paymentInsert (deliveredRow o amount d))
    | some p =>
      if mismatches o amount d p then .error .mismatch
      else
        match backfillIdentity w db d p with
        | .error e => .error e
        | .ok filled =>
          if isStale d p then
            if p.state=.settled∧!o.reconciliationRequired then
              match activatePreparedOrderEdit w filled o.id d.paymentAttemptId with
              | (activated,true) => .ok (⟨liveState activated o.id o.state,p.state⟩,activated)
              | (unchanged,false) => .ok (⟨o.state,p.state⟩,unchanged)
            else .ok (⟨o.state,p.state⟩,filled)
          else
            settlePlanned w filled o amount d p.id
              (.paymentState p.id ⟨d.result.state,d.result.duplicate,d.result.errorMessage⟩)

/-- Deliver one result. A delivery that fails is rolled back. -/
def deliver (d : Delivery) : Except SettlementError Settled×Store :=
  match applyPaymentResult w db d with
  | .error e => (.error e,db)
  | .ok (answer,written) => (.ok answer,written)

end

end SellRight.PaymentSettlement
