import SellRight.EditStages

/-!
# Activation of staged edits

An activation checks the money of the proposal and the economics it was made
against, posts its funding and publishes the frozen rows. It runs under a
savepoint: a failure leaves a note in the settlement and nothing else.
-/

namespace SellRight.EditActivation

open EditStages OrderLifecycle PaymentLedger RowTable

/-- What an activation is called for. -/
structure ActivationInput where
  (refundId paymentAttemptId paymentId : Option String)

section
variable (db : EditStore)

/-- Edit an activation is about: the one linked to the refund, else to the
attempt, else the one that waits. -/
def selectEdit (input : ActivationInput) : Option EditRow :=
  db.edits.find? fun row =>
    match input.refundId, input.paymentAttemptId with
    | some refundId, _ => decide (row.settlement.refundId=some refundId)
    | none, some attemptId => decide (row.settlement.paymentAttemptId=some attemptId)
    | none, none => row.settlement.isPendingEditStage

/-- Lines of a refund that take billed units: the lines of an edit refund name
units the edit removed. -/
def merchandiseLines (refund : Refund) : List RefundRequests.RefundLine :=
  if isEditRefund refund then []
  else db.refundLines.filter fun line => decide (line.refundId=refund.id)

/-- Refunds of the order but the one of the edit itself. -/
def refundPrefix (own : Option String) : List RefundFact :=
  ((db.refunds.filter fun r => decide (r.orderId=db.order.id∧some r.id≠own)).map fun r =>
    (⟨r.id,r.state,r.amount,r.source,merchandiseLines db r⟩ : RefundFact)).insertionSort
      fun a b => a.id≤b.id

/-- Stored economics of the order, read with the given order row. -/
def storedFacts (order : OrderRow) (own : Option String) : StoredFacts :=
  { order := order
    lines := db.lines.insertionSort fun a b => a.id≤b.id
    adjustments := db.adjustments
    usage := db.usage.insertionSort fun a b => a.id≤b.id
    refunds := refundPrefix db own}

end

/-- Order row whose settlement may have moved since: state and receipt token
are taken from the row the edit was made against. -/
def frozenOrder (order before : OrderRow) : OrderRow := {order with
    state := before.state
    receiptToken := before.receiptToken}

variable (db : EditStore)

/-- Restorations of the ledger in the order they are digested. -/
def ledgerPrefix : List FundingRow := db.ledger.insertionSort fun a b => a.id≤b.id

/-- The attempt ran on the merchant account of the payment. Payments of one
provider are named by their reference alone. -/
def sameAccount (attempt : Attempt) (payment : Payment) : Bool :=
  decide (attempt.method = "stripe") ||
    decide (payment.gatewayAccount=some attempt.accountId∧payment.gatewayMode=some attempt.mode)

/-- Payment of the tender: the one named, else the one of the attempt. -/
def tenderPayment (input : ActivationInput) (attempt : Option Attempt) :
    Option Payment :=
  match input.paymentId, attempt with
  | some paymentId, _ => findPayment db paymentId
  | none, none => none
  | none, some attempt =>
    match attempt.paymentId, attempt.providerRef with
    | some paymentId, _ => findPayment db paymentId
    | none, none => none
    | none, some reference => db.payments.find? fun p =>
        decide (p.orderId=db.order.id∧p.state=.settled∧p.method=attempt.method ∧
          p.providerRef=some reference)&&sameAccount attempt p

/-- The payment is the one its attempt asked for. -/
def tenderProven (attempt : Option Attempt) (payment : Payment) : Bool :=
  match attempt with
  | none => false
  | some attempt =>
    decide (payment.currency=some attempt.currency∧payment.orderId=attempt.orderId ∧
      payment.amount=attempt.amount∧payment.method=attempt.method ∧
      (attempt.providerRef≠none→payment.providerRef=attempt.providerRef)) &&
      sameAccount attempt payment

/-- Refund and payment linked to an edit. -/
structure Money where
  refund : Option Refund
  refundPayment : Option Payment
  attempt : Option Attempt
  payment : Option Payment

/-- Read the money linked to an edit. -/
def linkedMoney (input : ActivationInput) (settlement : SettlementOutcome) : Money :=
  let refund := settlement.refundId.bind fun id => findRefund db (some id)
  let attempt := settlement.paymentAttemptId.bind fun id => findAttempt db (some id)
  { refund := refund
    refundPayment := refund.bind fun r => findPayment db r.paymentId
    attempt := attempt
    payment := tenderPayment db input attempt}

/-- The required money has not moved yet. -/
def Money.waits (money : Money) (requirement : SettlementRequirement) : Bool :=
  (decide (0<requirement.requiredRefund) && decide (money.refund.map Refund.state≠some .settled)) ||
    (decide (0<requirement.requiredTender) &&
      decide (money.payment.map Payment.state≠some .settled))

/-- The refund as it is compared with the requirement. -/
def Money.linkedRefund (money : Money) : Option LinkedMoney :=
  match money.refund, money.refundPayment.bind Payment.currency with
  | some refund, some currency =>
    some ⟨refund.id,decide (refund.state=.settled),refund.orderId,currency,refund.amount⟩
  | _, _ => none

/-- The payment as it is compared with the requirement. -/
def Money.linkedTender (money : Money) : Option LinkedMoney :=
  match money.attempt, money.payment with
  | some attempt, some payment =>
    payment.currency.map fun currency =>
      ⟨attempt.id,decide (payment.state=.settled),payment.orderId,currency,payment.amount⟩
  | _, _ => none

/-- The linked money is proven by the rows behind it. -/
def checkMoney (input : ActivationInput) (money : Money) :
    Except EditFailure Unit := do
  requireFact (decide (input.paymentAttemptId=none) ||
    decide (input.paymentAttemptId=money.attempt.map fun a => a.id)) "Tender attempt differs"
  requireFact (match money.payment with
    | none => true
    | some payment => tenderProven money.attempt payment)
    "Tender payment differs or currency proof is absent"
  requireFact (match money.refund with
    | none => true
    | some _ =>
      match money.refundPayment with
      | none => false
      | some payment => decide (payment.orderId=db.order.id∧payment.currency≠none))
    "Refund payment currency proof is absent"

/-- Quantities of a stored line after its billed units change. -/
def reconcileLineQuantities (line : OrderLine) (billedAfter : ℤ) : OrderLine :=
  let billedBefore := line.quantity-line.editRemovedQty
  if billedAfter<billedBefore then
    {line with
      cancelledQty := line.cancelledQty+(billedBefore-billedAfter)
      editRemovedQty := line.editRemovedQty+(billedBefore-billedAfter)}
  else if billedBefore<billedAfter then
    let restored := min (billedAfter-billedBefore) line.editRemovedQty
    {line with
      quantity := line.quantity+(billedAfter-billedBefore-restored)
      cancelledQty := line.cancelledQty-restored
      editRemovedQty := line.editRemovedQty-restored}
  else line

/-- Write the prices of the edit into a line. -/
def priceLine (line : OrderLine) (ordinary : LinePrice) (final : PricedLine) : OrderLine :=
  {line with
    unitPrice := ordinary.unitPrice
    lineSubtotal := ordinary.lineSubtotal
    lineDiscount := ordinary.lineSubtotal-final.lineNet
    lineTax := final.lineGross-final.lineNet
    lineTotal := final.lineGross}

/-- Row the edit leaves for one of its lines. -/
def lineAfter (stored : Option OrderLine) (id : String) (line : WorkingLine) : OrderLine :=
  match stored with
  | some row =>
    {reconcileLineQuantities row line.quantity with
      variantId := line.variantId
      variantSku := line.sku
      variantName := line.name}
  | none =>
    { id := id
      variantId := line.variantId
      variantSku := line.sku
      variantName := line.name
      quantity := line.quantity
      cancelledQty := 0
      editRemovedQty := 0
      unitPrice := 0
      lineSubtotal := 0
      lineDiscount := 0
      lineTax := 0
      lineTotal := 0}

/-- Publish one line of the edit: a stored line is updated, a new one added. -/
def publishLine (before : List OrderLine) (proposal : EditStageProposal) (pricing : PricingSnapshot)
    (lines : List OrderLine) (line : WorkingLine) : Except EditFailure (List OrderLine) := do
  let named ← present "Line identity is absent"
    (proposal.lineIds.find? fun entry => decide (entry.1=line.key))
  let ordinary ← present "Line price is absent"
    (proposal.activation.perLine.find? fun price => decide (price.key=line.key))
  let final ← present "Final line is absent"
    (pricing.economics.lines.find? fun priced => decide (priced.orderLineId=named.2))
  let stored := before.find? fun row => decide (some row.id=line.id)
  let row := priceLine (lineAfter stored named.2 line) ordinary final
  match line.id with
  | some _ => return updateWhere (fun old => decide (old.id=named.2)) (fun _ => row) lines
  | none => return lines++[row]

/-- Adjustments after the edit: those it keeps, then the new ones. -/
def publishAdjustments (w : World) (db : EditStore) (a : CreditActivation) : List Adjustment :=
  (db.adjustments.filter fun row => a.adjustments.any fun item => decide (item.id=some row.id)) ++
    (a.adjustments.filter fun item => decide (item.id=none)).map fun item =>
      ⟨w.adjustmentId db item.label,item.label,item.amount⟩

section
variable (proposal : EditStageProposal) (usage : List PromotionUsage)

/-- Promotions an order no longer uses. -/
def droppedUsage : List PromotionUsage :=
  usage.filter fun row => decide (row.promotionId∉proposal.appliedPromotionIds)

/-- Promotions an order uses from now on. -/
def addedUsage : List String :=
  proposal.appliedPromotionIds.filter fun id => usage.all fun row => decide (row.promotionId≠id)

end

/-- Usage after the edit. -/
def publishUsage (w : World) (db : EditStore) (proposal : EditStageProposal) : List PromotionUsage :=
  (db.usage.filter fun row => decide (row.promotionId∈proposal.appliedPromotionIds)) ++
    (addedUsage proposal db.usage).map fun id => ⟨w.usageId db id,id⟩

/-- Uses counted on the promotions after the edit. -/
def publishUsedCounts (proposal : EditStageProposal) : List (String×ℤ) :=
  db.usedCounts.map fun entry =>
    (entry.1,
      if (droppedUsage proposal db.usage).any fun row => decide (row.promotionId=entry.1) then
        max (entry.2-1) 0
      else if entry.1∈addedUsage proposal db.usage then entry.2+1
      else entry.2)

/-- Order row after the edit. -/
def publishOrder (proposal : EditStageProposal) (pricing : PricingSnapshot) (order : OrderRow) :
    OrderRow :=
  {order with
    totals := pricing.economics.totals
    couponCodes := proposal.couponCodes
    pricingSnapshot := some pricing
    isPreOrder := proposal.activation.isPreOrder
    promotionId := proposal.activation.newPromoId
    shippingOverride := proposal.activation.shippingOverride
    shippingMethodCode := proposal.activation.shippingMethodCode
    shippingAddress := proposal.activation.shippingAddress.or order.shippingAddress
    billingAddress := proposal.activation.billingAddress.or order.billingAddress}

def activatedSettlement (proposal : EditStageProposal) (requirement : SettlementRequirement)
    (amendment : Option EditSettlementAmendment) (settlement : SettlementOutcome) :
    SettlementOutcome :=
  {settlement with
    phase := some .activated
    status :=
      if requirement.requiredRefund≠0 then .settled
      else if requirement.requiredTender≠0 then .recorded
      else settlement.status
    activationReceipt := some ⟨proposal.proposalDigest,proposal.requestDigest,
      proposal.postingKeys,amendment.map EditSettlementAmendment.digest⟩}

/-- An unpaid order that owes nothing after the edit is paid. -/
def settleOrderState : EditStore :=
  if db.order.state=.pendingPayment∧amountDue db≤0 then
    {db with order := {db.order with state := .paid}}
  else db

/-- The posted rows are the planned postings and nothing else. -/
def postingsMatch (plan : List FundingPosting) (rows : List FundingRow) : Bool :=
  decide (rows.length=plan.length) &&
    rows.all fun row => plan.any fun posting => decide (row.posting=posting)

section
variable (w : World) (db : EditStore) (stage : Stage)

section
variable (requirement : SettlementRequirement) (amendment : Option EditSettlementAmendment)

/-- Tables with the frozen rows of a proposal written. -/
def publishedStore (rows : List FundingRow) (pricing : PricingSnapshot) (lines : List OrderLine) : EditStore :=
  {db with
    ledger := db.ledger++rows
    order := publishOrder stage.proposal pricing db.order
    lines := lines
    adjustments := publishAdjustments w db stage.proposal.activation
    usage := publishUsage w db stage.proposal
    usedCounts := publishUsedCounts db stage.proposal
    edits := updateWhere (fun row => decide (row.id=stage.row.id))
      (fun row =>
        {row with
          settlement :=
            activatedSettlement stage.proposal requirement amendment stage.row.settlement
          activatedPricingSnapshot := some pricing}) db.edits}

/-- Publish a proposal: its funding is posted, its pricing is rebuilt from the
ledger and its frozen rows are written. -/
def publishProposal :
    Except EditFailure EditStore := do
  let (plan,rows) ← present "Prepared funding plan differs"
    (w.postEditCreditFunding db stage.proposal.toProposalPayload)
  requireFact (decide (w.fingerprint (.funding plan) =
    w.fingerprint (.funding stage.proposal.fundingPlan))) "Prepared funding plan differs"
  requireFact (postingsMatch plan rows) "Posted funding rows differ"
  let pricing ← present "Activated funding evidence is absent"
    (w.buildCurrentCreditPricingSnapshot {db with ledger := db.ledger++rows}
      stage.proposal.toProposalPayload)
  requireFact (decide (w.fingerprint (.economics pricing.economics) =
    w.fingerprint (.economics stage.proposal.pricingSnapshot.economics)))
    "Activated pricing differs from accepted proposal"
  let lines ← stage.proposal.activation.lines.foldlM
    (publishLine db.lines stage.proposal pricing) db.lines
  let published := publishedStore w db stage requirement amendment rows pricing lines
  requireFact (w.settlesElsewhere published stage.proposal.toProposalPayload)
    "Activation effects failed"
  return {settleOrderState published with audit := db.audit++[⟨"edit",stage.row.id⟩]}

end

/-- Answer an activation that was done before. -/
def replayActivation : Except EditFailure Unit := do
  assertActivationReplay w stage.proposal stage.row.settlement stage.row.settlementAmendment
  let activated ← present "Activation receipt pricing differs" stage.row.activatedPricingSnapshot
  requireFact (decide (w.fingerprint (.economics activated.economics) =
    w.fingerprint (.economics stage.proposal.pricingSnapshot.economics)))
    "Activation receipt pricing differs"
  requireFact (w.provesReplay db stage.proposal.toProposalPayload)
    "Activation funding receipt differs"

end

def ownTakesNothing (own : Option String) : Bool :=
  match own.bind fun id => findRefund db (some id) with
  | none => true
  | some refund => decide (merchandiseLines db refund=[])

section
variable (w : World) (db : EditStore) (input : ActivationInput)

/-- Activate a stage that waits. Nothing happens while its money has not moved;
an absent value means that. -/
def activateWaiting (stage : Stage) :
    Except EditFailure (Option EditStore) := do
  let (requirement,amendment) ←
    effectiveEditSettlementRequirement w stage.proposal stage.row.settlementAmendment
  requireFact (w.readsEvidence db) "Prepared redemption is absent"
  requireFact (ownTakesNothing db stage.row.settlement.refundId)
    "Prepared settlement refund cannot consume merchandise."
  let money := linkedMoney db input stage.row.settlement
  if money.waits requirement then return none
  else
    checkMoney db input money
    assertEditStageActivation stage.proposal stage.row.settlement requirement amendment
      (w.fingerprint (.stored (storedFacts db
        (frozenOrder db.order stage.proposal.activation.beforeOrder) stage.row.settlement.refundId)))
      (w.fingerprint (.ledger (ledgerPrefix db))) money.linkedRefund money.linkedTender
    let activated ← publishProposal w db stage requirement amendment
    return some activated

def activateEdit (selected : EditRow) :
    Except EditFailure (Bool×EditStore) := do
  let stage ← preparedStage w db (some selected.id)
  let stage ← present "Prepared proposal is absent" stage
  if stage.row.settlement.phase=some .activated then
    replayActivation w db stage
    return (true,db)
  else
    match ← activateWaiting w db input stage with
    | some activated => return (true,activated)
    | none => return (false,db)

end

/-- What a failed activation leaves behind. -/
def noteFailedActivation (selected : EditRow) : EditStore :=
  {setSettlement selected.id
      {selected.settlement with
        status := .reconciliationRequired
        message := some "Settled payment requires edit activation reconciliation."} db with
    audit := db.audit++[⟨"edit_activation_reconciliation",selected.id⟩]}

/-- Activate the edit a settled refund or payment belongs to. -/
def activatePreparedOrderEdit (w : World) (db : EditStore) (input : ActivationInput) :
    Bool×EditStore :=
  if db.order.reconciliationRequired then (false,db)
  else
    match selectEdit db input with
    | none => (false,db)
    | some selected =>
      match activateEdit w db input selected with
      | .ok answer => answer
      | .error _ => (false,noteFailedActivation db selected)

end SellRight.EditActivation
