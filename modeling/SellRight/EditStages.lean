import SellRight.FallibleSteps
import SellRight.RefundRequests

/-!
# Staged order edits

An edit of an order that is paid with account credit is accepted as a proposal
first. The proposal is linked to the refund or to the payment attempt that
moves its money and is activated once that money is settled. Until then the
stored economics of the order are the ones the proposal was made against.
-/

namespace SellRight.EditStages

open OrderLifecycle PaymentLedger RowTable
open RefundRequests (EditLine PaymentAttempt RefundLine)

/-- How an edit settles the difference of the order total. -/
inductive SettlementType where
  | noSettlement | refundNow | recordPayment | sendPayLink | leaveDue | leaveCredit
  deriving DecidableEq

/-- What is known about the settlement. -/
inductive SettlementStatus where
  | noStatus | recorded | settled | pending | failed | sent | due | credit | reconciliationRequired
  deriving DecidableEq

inductive EditStagePhase where
  | prepared | awaitingRefund | awaitingTender | ready | activated | failed
  deriving DecidableEq

/-- Text of a phase in the settlement record. -/
def EditStagePhase.text : EditStagePhase → String
  | .prepared => "prepared"
  | .awaitingRefund => "awaiting_refund"
  | .awaitingTender => "awaiting_tender"
  | .ready => "ready"
  | .activated => "activated"
  | .failed => "failed"

/-- Money a proposal asks for. -/
structure SettlementRequirement where
  type : SettlementType
  currency : String
  (requiredTender requiredRefund : ℤ)
  deriving DecidableEq

/-- Proof of an activation. -/
structure ActivationReceipt where
  (proposalDigest requestDigest : String)
  postingKeys : List String
  amendmentDigest : Option String
  deriving DecidableEq

/-- Settlement record of an order edit. -/
structure SettlementOutcome where
  type : SettlementType
  status : SettlementStatus
  amount : Option ℤ
  (paymentId refundId : Option String)
  refundState : Option RefundState
  message : Option String
  phase : Option EditStagePhase
  (paymentAttemptId amendmentDigest : Option String)
  activationReceipt : Option ActivationReceipt
  deriving DecidableEq

def SettlementOutcome.isPendingEditStage (settlement : SettlementOutcome) : Bool :=
  match settlement.phase with
  | some phase => decide (phase≠.activated)
  | none => false

/-- Totals of an order in cents. -/
structure Totals where
  (subtotal discountTotal shippingTotal taxTotal grandTotal : ℤ)
  deriving DecidableEq

/-- Money of one line of a pricing snapshot. -/
structure PricedLine where
  orderLineId : String
  (lineNet lineGross : ℤ)
  deriving DecidableEq

/-- Economics of a pricing snapshot. -/
structure CreditEconomics where
  lines : List PricedLine
  totals : Totals
  /-- Remaining facts: origin, unit identities, allocation of the credit. -/
  facts : String
  deriving DecidableEq

/-- Pricing snapshot with its hash and the restorations it was priced at. -/
structure PricingSnapshot where
  economics : CreditEconomics
  quoteHash : String
  atPricingRestoreIds : List String
  deriving DecidableEq

/-- Row of the order table. -/
structure OrderRow where
  id : String
  state : OrderState
  receiptToken : Option String
  /-- Imported financial history still needs reconciliation. -/
  reconciliationRequired : Bool
  currency : String
  customerId : Option String
  totals : Totals
  couponCodes : List String
  pricingSnapshot : Option PricingSnapshot
  isPreOrder : Bool
  promotionId : Option String
  shippingOverride : Bool
  (shippingMethodCode shippingAddress billingAddress : Option String)
  deriving DecidableEq

/-- Row of the order line table. -/
structure OrderLine where
  id : String
  variantId : Option String
  (variantSku variantName : String)
  (quantity cancelledQty editRemovedQty unitPrice lineSubtotal lineDiscount lineTax lineTotal : ℤ)

/-- Row of the order adjustment table. -/
structure Adjustment where
  (id label : String)
  amount : ℤ

/-- Row of the promotion usage table. -/
structure PromotionUsage where
  (id promotionId : String)

/-- Planned posting of an edit in the credit ledger. -/
structure FundingPosting where
  (idempotencyKey orderLineId : String)
  amount : ℤ
  deriving DecidableEq

/-- Restoration in the credit ledger of the order. -/
structure FundingRow where
  id : String
  posting : FundingPosting
  refundId : Option String

/-- Payment attempt with the merchant account it runs on. -/
structure Attempt extends PaymentAttempt where
  (accountId mode : String)
  /-- Attempt that replaced a cancelled one. -/
  supersededBy : Option String

/-- Line of the order as the edit leaves it. -/
structure WorkingLine where
  key : String
  (id variantId : Option String)
  (sku name : String)
  quantity : ℤ
  deriving DecidableEq

/-- Ordinary price of a line of the edit. -/
structure LinePrice where
  key : String
  (unitPrice lineSubtotal : ℤ)
  deriving DecidableEq

/-- Adjustment the edit leaves or adds. -/
structure WorkingAdjustment where
  /-- Stored adjustment, absent on a new one. -/
  id : Option String
  label : String
  amount : ℤ
  deriving DecidableEq

/-- Everything an activation writes, frozen when the edit is prepared. -/
structure CreditActivation where
  beforeOrder : OrderRow
  lines : List WorkingLine
  perLine : List LinePrice
  adjustments : List WorkingAdjustment
  isPreOrder : Bool
  newPromoId : Option String
  shippingOverride : Bool
  (shippingMethodCode shippingAddress billingAddress : Option String)
  deriving DecidableEq

/-- Accepted proposal without its digest. -/
structure ProposalPayload where
  (editId orderId requestFingerprint beforeFingerprint beforeLedgerPrefixDigest : String)
  pricingSnapshot : PricingSnapshot
  lineIds : List (String×String)
  (couponCodes appliedPromotionIds : List String)
  fundingPlan : List FundingPosting
  requestDigest : String
  postingKeys : List String
  settlementRequirement : SettlementRequirement
  activation : CreditActivation
  deriving DecidableEq

structure EditStageProposal extends ProposalPayload where
  proposalDigest : String
  deriving DecidableEq

/-- Amendment that leaves the refund of a proposal as credit, without its
digest. -/
structure AmendmentPayload where
  (id baseProposalDigest previousRequirementDigest : String)
  (failedRefundId failedAttemptId : Option String)
  requirement : SettlementRequirement
  deriving DecidableEq

structure EditSettlementAmendment extends AmendmentPayload where
  digest : String
  deriving DecidableEq

/-- Row of the order edit table. -/
structure EditRow where
  (id orderId idempotencyKey fingerprint : String)
  /-- Balance when the edit was committed, negative when money is owed back. -/
  balance : ℤ
  reason : Option String
  removedUnits : List EditLine
  proposal : Option EditStageProposal
  settlementAmendment : Option EditSettlementAmendment
  activatedPricingSnapshot : Option PricingSnapshot
  settlement : SettlementOutcome
  deriving DecidableEq

/-- Refund as it is digested with the stored economics. -/
structure RefundFact where
  id : String
  state : RefundState
  amount : ℤ
  source : Option String
  lines : List RefundLine

/-- Stored economics of an order. -/
structure StoredFacts where
  order : OrderRow
  lines : List OrderLine
  adjustments : List Adjustment
  usage : List PromotionUsage
  refunds : List RefundFact

/-- Request for the refund of an edit, without the key that names it. -/
structure EditRefundRequest where
  paymentId : String
  amount : ℤ
  (reason editId : Option String)
  editLines : List EditLine

/-- Values whose canonical form is digested. -/
inductive Digested where
  | stored (facts : StoredFacts)
  | ledger (rows : List FundingRow)
  | proposal (payload : ProposalPayload)
  | requirement (requirement : SettlementRequirement)
  | amendmentIdentity (editId : String) (failedRefundId failedAttemptId : Option String)
  | amendment (payload : AmendmentPayload)
  | economics (economics : CreditEconomics)
  | funding (postings : List FundingPosting)
  | refundRequest (request : EditRefundRequest)

/-- Entry of the audit log. -/
structure AuditRow where
  (action editId : String)

/-- Tables of one order. -/
structure EditStore where
  order : OrderRow
  lines : List OrderLine
  adjustments : List Adjustment
  usage : List PromotionUsage
  usedCounts : List (String×ℤ)
  ledger : List FundingRow
  payments : List Payment
  attempts : List Attempt
  refunds : List Refund
  refundLines : List RefundLine
  edits : List EditRow
  audit : List AuditRow

/-- Code outside of the edit engine. -/
structure World where
  fingerprint : Digested → String
  readsEvidence : EditStore → Bool
  postEditCreditFunding : EditStore → ProposalPayload → Option (List FundingPosting×List FundingRow)
  /-- Pricing rebuilt from the ledger after the postings. -/
  buildCurrentCreditPricingSnapshot : EditStore → ProposalPayload → Option PricingSnapshot
  /-- An activated proposal still matches its pricing and its postings. -/
  provesReplay : EditStore → ProposalPayload → Bool
  /-- Loyalty, stock and message steps of an activation succeed. -/
  settlesElsewhere : EditStore → ProposalPayload → Bool
  /-- Checks of the payment method and of its merchant account fail. -/
  refusesRefund : EditStore → EditRefundRequest → Option RefundRequests.RefundFailure
  (usageId adjustmentId : EditStore → String → String)

/-- Why an operation on an edit fails. -/
inductive EditFailure where
  | refused (status : ℕ) (code message : String)
  | thrown (message : String)

def refuse {α : Type} (status : ℕ) (code message : String) : Except EditFailure α :=
  .error (.refused status code message)

/-- A fact an operation relies on. -/
def requireFact (ok : Bool) (message : String) : Except EditFailure Unit :=
  if ok then .ok () else .error (.thrown message)

/-- A value an operation relies on. -/
def present {α : Type} (message : String) : Option α → Except EditFailure α
  | some value => .ok value
  | none => .error (.thrown message)

/-- The requirement asks for money one way at most. -/
def SettlementRequirement.wellFormed (requirement : SettlementRequirement) : Bool :=
  decide (0≤requirement.requiredTender)&&decide (0≤requirement.requiredRefund) &&
    !(decide (0<requirement.requiredTender)&&decide (0<requirement.requiredRefund))

variable (w : World)

/-- Read a stored proposal: its parts are well formed and its digest is the
digest of its payload. -/
def readEditStageProposal (raw : EditStageProposal) :
    Except EditFailure EditStageProposal := do
  requireFact (decide (raw.lineIds.map Prod.fst).Nodup&&decide (raw.lineIds.map Prod.snd).Nodup &&
    decide (raw.activation.lines.length=raw.lineIds.length))
    "Invalid order edit stage: line closure"
  requireFact (decide (raw.couponCodes.map String.toLower).Nodup &&
    raw.couponCodes.all fun code => decide (code ≠ "" ∧ code.length≤255))
    "Invalid order edit stage: complete canonical coupon membership"
  requireFact (decide raw.appliedPromotionIds.Nodup &&
    raw.appliedPromotionIds.all fun id => decide (id ≠ ""))
    "Invalid order edit stage: applied promotion set"
  requireFact (decide raw.postingKeys.Nodup&&raw.postingKeys.all fun key => decide (key ≠ ""))
    "Invalid order edit stage: posting receipt"
  requireFact raw.settlementRequirement.wellFormed
    "Invalid order edit stage: immutable settlement requirement"
  requireFact (decide (raw.proposalDigest=w.fingerprint (.proposal raw.toProposalPayload)))
    "Invalid order edit stage: proposal digest"
  return raw

def buildEditSettlementAmendment (proposal : EditStageProposal)
    (failedRefundId failedAttemptId : Option String) : EditSettlementAmendment :=
  let payload : AmendmentPayload :=
    { id := w.fingerprint (.amendmentIdentity proposal.editId failedRefundId failedAttemptId)
      baseProposalDigest := proposal.proposalDigest
      previousRequirementDigest := w.fingerprint (.requirement proposal.settlementRequirement)
      failedRefundId := failedRefundId
      failedAttemptId := failedAttemptId
      requirement := ⟨.leaveCredit,proposal.settlementRequirement.currency,0,0⟩}
  { toAmendmentPayload := payload
    digest := w.fingerprint (.amendment payload)}

/-- Requirement in force: the one of the proposal, or the one of an amendment
that was built from it. -/
def effectiveEditSettlementRequirement (proposal : EditStageProposal)
    (raw : Option EditSettlementAmendment) :
    Except EditFailure (SettlementRequirement×Option EditSettlementAmendment) :=
  match raw with
  | none => .ok (proposal.settlementRequirement,none)
  | some raw => do
    requireFact (decide (proposal.settlementRequirement.type=.refundNow) &&
      decide (0<proposal.settlementRequirement.requiredRefund))
      "Invalid order edit stage: amendment source requirement"
    let expected := buildEditSettlementAmendment w proposal raw.failedRefundId raw.failedAttemptId
    requireFact (decide (expected=raw))
      "Invalid order edit stage: settlement amendment digest"
    return (expected.requirement,some expected)

/-- Refund or payment as it is compared with a requirement. -/
structure LinkedMoney where
  id : String
  settled : Bool
  (orderId currency : String)
  amount : ℤ

/-- The linked money is settled and is exactly what is required. -/
def LinkedMoney.meets (linked : Option LinkedMoney) (id : Option String) (orderId currency : String)
    (amount : ℤ) : Bool :=
  match linked with
  | some money =>
    decide (id=some money.id)&&money.settled&&decide (money.orderId=orderId) &&
      decide (money.currency=currency)&&decide (money.amount=amount)
  | none => false

/-- Conditions under which a proposal that is not activated may be activated. -/
def assertEditStageActivation (proposal : EditStageProposal) (settlement : SettlementOutcome)
    (requirement : SettlementRequirement) (amendment : Option EditSettlementAmendment)
    (beforeFingerprint beforeLedgerPrefixDigest : String)
    (linkedRefund linkedTender : Option LinkedMoney) : Except EditFailure Unit := do
  requireFact (decide (settlement.amendmentDigest=amendment.map EditSettlementAmendment.digest))
    "Invalid order edit stage: settlement amendment binding"
  requireFact (decide (beforeFingerprint=proposal.beforeFingerprint) &&
    decide (beforeLedgerPrefixDigest=proposal.beforeLedgerPrefixDigest))
    "Invalid order edit stage: before economics/ledger prefix changed"
  requireFact (decide (settlement.phase≠some .failed)&&decide (settlement.phase≠some .prepared))
    "Invalid order edit stage: settlement is not ready"
  requireFact (decide (settlement.type=requirement.type))
    "Invalid order edit stage: settlement type differs from accepted proposal"
  requireFact (!decide (0<requirement.requiredRefund) ||
    LinkedMoney.meets linkedRefund settlement.refundId proposal.orderId requirement.currency
      requirement.requiredRefund)
    "Invalid order edit stage: linked refund is not settled"
  requireFact (!decide (0<requirement.requiredTender) ||
    LinkedMoney.meets linkedTender settlement.paymentAttemptId proposal.orderId requirement.currency
      requirement.requiredTender)
    "Invalid order edit stage: linked tender is not settled"

/-- Conditions under which an activated proposal is answered again. -/
def assertActivationReplay (proposal : EditStageProposal)
    (settlement : SettlementOutcome) (raw : Option EditSettlementAmendment) :
    Except EditFailure Unit := do
  let (_,amendment) ← effectiveEditSettlementRequirement w proposal raw
  requireFact (decide (settlement.amendmentDigest=amendment.map EditSettlementAmendment.digest))
    "Invalid order edit stage: settlement amendment binding"
  requireFact (decide (settlement.activationReceipt =
    some ⟨proposal.proposalDigest,proposal.requestDigest,proposal.postingKeys,
      amendment.map EditSettlementAmendment.digest⟩))
    "Invalid order edit stage: activation replay receipt"

structure Stage where
  row : EditRow
  proposal : EditStageProposal

variable (db : EditStore)

/-- Edit that was asked for, or the one that waits. -/
def selectStage (editId : Option String) : Option EditRow :=
  match editId with
  | some id => db.edits.find? fun row => decide (row.id=id)
  | none => db.edits.find? fun row => row.settlement.isPendingEditStage

def preparedStage (db : EditStore) (editId : Option String) :
    Except EditFailure (Option Stage) :=
  match selectStage db editId with
  | none => .ok none
  | some row =>
    match row.proposal with
    | none => .ok none
    | some raw => do
      let proposal ← readEditStageProposal w raw
      if proposal.editId≠row.id∨proposal.orderId≠row.orderId ∨
          proposal.requestFingerprint≠row.fingerprint then
        refuse 409 "ORDER_EDIT_STAGE_INVALID" "Prepared edit identity differs."
      else return some ⟨row,proposal⟩

/-- Rewrite the settlement of an edit. -/
def setSettlement (editId : String) (settlement : SettlementOutcome) (db : EditStore) : EditStore :=
  {db with
    edits := updateWhere (fun row => decide (row.id=editId))
      (fun row => {row with settlement := settlement}) db.edits}

section
variable (db : EditStore)

def findRefund (refundId : Option String) : Option Refund :=
  db.refunds.find? fun r => decide (some r.id=refundId)

def findPayment (paymentId : String) : Option Payment :=
  db.payments.find? fun p => decide (p.id=paymentId)

def findAttempt (attemptId : Option String) : Option Attempt :=
  db.attempts.find? fun a => decide (some a.id=attemptId)

/-- Amount still owed on the order. -/
def amountDue : ℤ := amountDueForOrder db.payments db.refunds
    (db.edits.map fun row =>
      ⟨row.id,row.orderId,some ⟨row.settlement.phase.map EditStagePhase.text,
        row.settlement.refundId,row.settlement.paymentAttemptId⟩⟩)
    db.order.id db.order.totals.grandTotal

end

/-- The refund linked before failed, or is this one. -/
def refundReplaceable (linked : Option String) (refund : Refund) : Bool :=
  match linked with
  | none => true
  | some id =>
    decide (id=refund.id) ||
      match findRefund db (some id) with
      | none => false
      | some prior => decide (prior.state=.failed)

/-- The refund may return the money of a proposal. -/
def refundFits (requirement : SettlementRequirement)
    (settlement : SettlementOutcome) (refund : Refund) : Bool :=
  match findPayment db refund.paymentId with
  | none => false
  | some payment =>
    decide (refund.orderId=db.order.id)&&decide (payment.currency=some requirement.currency) &&
      decide (refund.amount=requirement.requiredRefund) &&
      decide (settlement.paymentId=some refund.paymentId)

/-- Link a refund to a staged edit that waits for it. A linked refund gives way
only after it failed. -/
def bindPreparedEditRefund (db : EditStore) (editId refundId : String) :
    Except EditFailure EditStore := do
  match ← preparedStage w db (some editId) with
  | none => refuse 409 "ORDER_EDIT_STAGE_INVALID" "Prepared refund is absent."
  | some stage =>
    if stage.row.settlement.phase≠some .awaitingRefund then
      refuse 409 "ORDER_EDIT_STAGE_INVALID" "Prepared refund is absent."
    else
      match findRefund db (some refundId) with
      | none => refuse 409 "ORDER_EDIT_REFUND_INVALID" "Refund differs from accepted edit."
      | some refund =>
        if !refundFits db stage.proposal.settlementRequirement stage.row.settlement refund then
          refuse 409 "ORDER_EDIT_REFUND_INVALID" "Refund differs from accepted edit."
        else if !refundReplaceable db stage.row.settlement.refundId refund then
          refuse 409 "ORDER_EDIT_REFUND_PENDING" "Previous refund remains unresolved."
        else
          return setSettlement stage.row.id
            {stage.row.settlement with refundId := some refund.id} db

end SellRight.EditStages
