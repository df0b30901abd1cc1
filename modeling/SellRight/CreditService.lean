import SellRight.RowTable
import SellRight.OrderLifecycle
import SellRight.CreditFundingPlanner

/-!
# Account-credit service

The credit tables of one store and the operations that issue, adjust, hold,
redeem and release credit. Row locks serialise them, so each is one step from
the tables before it to the tables after it; a step that throws is rolled
back. What the operations read outside the credit tables (the store, orders,
promotions, payments, refunds and the pricing readers) is the `World` of the
step, and it may be different at every step. Statements that insert a row
check the constraints of the credit tables; ids of new rows come from the
database.
-/

namespace SellRight.CreditService

open JsonText KeyedRecord RowTable OrderLifecycle CreditMath CreditFundingLedger CreditFundingPlanner

/-- The credit tables of one store. -/
structure CreditLedger where
  accounts : List CreditAccount
  transactions : List CreditTransaction

/-- Why a step failed. -/
inductive Failure where
  | thrown (error : AccountCreditError)
  | constraint (name : String)
  | external (source : String)

/-- Result of a service operation. -/
abbrev ServiceResult := Except Failure

/-- An error of the credit service as a failure. -/
def lift {α : Type} (result : CreditResult α) : ServiceResult α :=
  match result with
  | .ok value => .ok value
  | .error error => .error (.thrown error)

def throwCredit {α : Type} (code : CreditErrorCode) (message : String) : ServiceResult α :=
  .error (.thrown ⟨code,message⟩)

def conflict {α : Type} (message : String) : ServiceResult α := throwCredit .conflict message

/-- Throw unless the fact holds. -/
def ensure (fact : Bool) (code : CreditErrorCode) (message : String) : ServiceResult Unit :=
  if fact then .ok () else throwCredit code message

/-- An order as the credit service reads it. -/
structure OrderRow where
  (id code : String)
  state : OrderState
  currency : String
  promotionId : Option String
  grandTotal : Int
  snapshotVersion : Option Int
  snapshotDigest : String
  reconciliationRequired : Bool

/-- A promotion as the credit service reads it. -/
structure PromotionRow where
  id : String
  code : Option String
  (accountCredit enabled : Bool)
  (startsAt endsAt stackOrder : Option Int)

structure RefundRow where
  (id orderId : String)
  state : RefundState

structure RefundLineRow where
  (refundId orderLineId : String)
  quantity : Int

/-- A line of frozen refund units. -/
structure FrozenLine where
  orderLineId : String
  positions : List ℕ
  originalIndexes : List (Option Int)
  creditCents : List Int
  unitIds : List String

/-- Frozen unit returns of a refund. -/
structure FrozenReturns where
  version : Int
  (redemptionId snapshotDigest : String)
  lines : List FrozenLine

/-- A unit of the current pricing. -/
structure SourceUnit where
  originalIndex : Option Int
  unitId : String

/-- What the service uses of the current pricing snapshot. -/
structure CurrentPricing where
  sourceRefundUnits : Record String (List SourceUnit)
  admittedLegacyRefundIds : List String

/-- What a step reads outside the credit tables. -/
structure World where
  storeCurrency : Option String
  promotions : List PromotionRow
  promotionInserts : Bool
  orders : List OrderRow
  settledOrders : List String
  billedLines : String → List BilledLine
  pendingEdits : List String
  refunds : List RefundRow
  refundLines : List RefundLineRow
  runtime : Runtime
  lower : String → String
  newId : ℕ → String
  (newAccountId newPromotionId randomCode : String)
  /-- The checks `readCurrentCreditEvidence` makes beyond the funding rows. -/
  evidenceCheck : CreditLedger → String → ServiceResult Unit
  anchorCheck : CreditLedger → String → ServiceResult Unit
  /-- Current pricing of an order, none without a snapshot. -/
  currentPricing : CreditLedger → String → ServiceResult (Option CurrentPricing)
  (refundEvidence unitReturns : String → ServiceResult (Option FrozenReturns))

/-- White space of the runtime. -/
def isWhite (c : Char) : Bool :=
  decide (c.toNat∈[9,10,11,12,13,32,160,5760,8232,8233,8239,8287,12288,65279]) ||
    decide (8192≤c.toNat∧c.toNat≤8202)

/-- Text without surrounding white space. -/
def trim (text : String) : String :=
  String.ofList ((text.toList.dropWhile isWhite).reverse.dropWhile isWhite).reverse

/-- Refuse a blank or overlong text. -/
def required (value : String) (max : ℕ) (label : String) : ServiceResult Unit :=
  ensure (!(trim value).isEmpty&&decide (utf16Length value ≤ max)) .invalidInput
    (label ++ " required within field limits")

/-- Identity an operator gives. -/
structure OperatorInput where
  (operationKey actor reason : String)

/-- Check an operator's identity. -/
def operator (input : OperatorInput) : ServiceResult Unit := do
  required input.operationKey 153 "Operation key"
  required input.actor 100 "Operator"
  required input.reason 255 "Reason"

/-- A domain with a dot between its first and last character. -/
def hasInnerDot : List Char → Bool
  | [] => false
  | _::rest => decide ('.' ∈ rest.dropLast)

/-- One address of the form local part, at sign, dotted domain. -/
def isEmail (text : String) : Bool :=
  match text.toList.span fun c => c ≠ '@' with
  | (localPart,'@' :: domain) =>
    !localPart.isEmpty&&decide ('@' ∉ domain) && !text.toList.any isWhite&&hasInnerDot domain
  | _ => false

variable (w : World)

/-- Normal form of an issuance email. -/
def normalizeCreditEmail (email : String) : ServiceResult String := do
  let normalized := w.lower (trim email)
  ensure (decide (utf16Length normalized≤320)&&isEmail normalized) .invalidInput
    "Valid issuance email required"
  return normalized

/-- The imported promotion was not deleted. -/
def sourcePromotionLive (source : Option String) : Bool :=
  match source with
  | none => true
  | some text =>
    match parse text with
    | some (.obj members) =>
      match (Json.obj members).get "deletedAt" with
      | none => true
      | some .null => true
      | some _ => false
    | _ => false

/-- The coupon is live. -/
def promotionLive (promotion : PromotionRow) (account : CreditAccount) (now : Int) : Bool :=
  promotion.accountCredit&&promotion.enabled&&sourcePromotionLive account.sourcePromotionRecord &&
    (promotion.startsAt.all fun starts => decide (starts≤now)) &&
    (promotion.endsAt.all fun ends => decide (now≤ends))

/-- Read an account under its lock. -/
def lockAccount (db : CreditLedger) (accountId : String) : ServiceResult CreditAccount :=
  match db.accounts.find? fun account => account.id=accountId with
  | some account => .ok account
  | none => throwCredit .missing "Credit account missing in store"

/-- Read an order under its lock. -/
def lockOrder (orderId : String) : ServiceResult OrderRow :=
  match w.orders.find? fun order => order.id=orderId with
  | none => throwCredit .missing "Credit order missing in store"
  | some order =>
    if order.reconciliationRequired then .error (.external "ImportedFinancialReconciliationError")
    else .ok order

def isHold (entry : CreditTransaction) : Bool :=
  decide (entry.kind=.reserve)&&decide (entry.status=.pending)

section
variable (db : CreditLedger)

def pendingForOrder (orderId : String) : Option CreditTransaction :=
  db.transactions.find? fun entry => decide (entry.orderId=some orderId)&&isHold entry

/-- The entry under an idempotency key. -/
def priorOperation (key : String) : Option CreditTransaction :=
  db.transactions.find? fun entry => entry.idempotencyKey=key

/-- Pending holds of an account. -/
def holdsForAccount (account : CreditAccount) : List Hold :=
  (db.transactions.filter fun entry =>
    decide (entry.accountCreditId=account.id)&&isHold entry).map fun entry =>
      ⟨entry.amount,entry.orderId⟩

/-- Credit of an account not held by other orders. -/
def available (account : CreditAccount) (exceptOrderId : Option String) : ServiceResult Int :=
  lift (availableCredit account.balance (holdsForAccount db account) exceptOrderId)

end

def accountPromotion (account : CreditAccount) : ServiceResult PromotionRow :=
  match w.promotions.find? fun promotion => promotion.id=account.promotionId with
  | some promotion => .ok promotion
  | none => throwCredit .missing "Credit promotion missing in store"

/-- A value of an integer column. -/
def fitsColumn (value : Int) : Bool := decide (-2147483648≤value∧value≤2147483647)

section
variable (db : CreditLedger)

/-- The constraint an entry violates, if any. -/
def entryViolation (entry : CreditTransaction) : Option String :=
  if db.transactions.any fun old => old.id=entry.id then
    some "account_credit_transaction_pkey"
  else if db.transactions.any fun old => old.idempotencyKey=entry.idempotencyKey then
    some "account_credit_transaction_store_key"
  else if isHold entry&&entry.orderId.isSome&&db.transactions.any fun old =>
      decide (old.orderId=entry.orderId)&&isHold old then
    some "account_credit_pending_order"
  else if !(db.accounts.any fun account => account.id=entry.accountCreditId) then
    some "account_credit_transaction_account_credit_id_fkey"
  else if !(entry.relatedTransactionId.all fun related =>
      db.transactions.any fun old => old.id=related) then
    some "account_credit_transaction_related_transaction_id_fkey"
  else if !(fitsColumn entry.amount&&fitsColumn entry.delta &&
      entry.balanceAfter.all fitsColumn&&entry.quantity.all fitsColumn) then
    some "integer out of range"
  else if entry.amount<0∨entry.delta < -2147483647∨entry.balanceAfter.any (· < 0) ∨
      entry.quantity.any (· < 0) then
    some "account_credit_transaction_amounts"
  else if entry.status=.pending∧¬(entry.kind=.reserve∧0<entry.amount) then
    some "account_credit_transaction_pending"
  else none

def insertEntry (entry : CreditTransaction) : ServiceResult (CreditTransaction×CreditLedger) :=
  match entryViolation db entry with
  | some name => .error (.constraint name)
  | none => .ok (entry,{db with transactions := db.transactions++[entry]})

section
variable (account : CreditAccount)

/-- The constraint an account violates, if any. -/
def accountViolation : Option String :=
  if db.accounts.any fun old => old.id=account.id then some "account_credit_pkey"
  else if db.accounts.any fun old => old.promotionId=account.promotionId then
    some "account_credit_store_promotion"
  else if db.accounts.any fun old => old.issuanceKey=account.issuanceKey then
    some "account_credit_store_issuance"
  else if account.initialAmount<0∨account.balance<0 then some "account_credit_amounts"
  else none

def insertAccount : ServiceResult CreditLedger :=
  match accountViolation db account with
  | some name => .error (.constraint name)
  | none => .ok {db with accounts := db.accounts++[account]}

/-- Write the balance of an account. -/
def setBalance (balance : Int) :
    ServiceResult (CreditAccount×CreditLedger) := do
  lift (assertCents balance "Balance" false)
  return ({account with balance},{db with
    accounts := updateWhere (fun row => decide (row.id=account.id))
      (fun row => {row with balance}) db.accounts})

end

/-- Write the status of a transaction. -/
def setStatus (id : String) (status : CreditStatus) : CreditLedger := {db with
    transactions := updateWhere (fun entry => decide (entry.id=id))
      (fun entry => {entry with status}) db.transactions}

end

/-- A transaction with the columns most entries leave empty. -/
def blankEntry (id accountCreditId : String) (kind : CreditKind) (status : CreditStatus)
    (amount delta : Int) (key : String) : CreditTransaction where
  id := id
  accountCreditId := accountCreditId
  kind := kind
  status := status
  amount := amount
  delta := delta
  balanceAfter := none
  relatedTransactionId := none
  idempotencyKey := key
  reason := none
  actor := none
  orderId := none
  orderCode := none
  refundId := none
  orderLineId := none
  quantity := none
  allocation := none
  operationalAllocation := none

def nextId (db : CreditLedger) : String := w.newId db.transactions.length

/-- Request to issue a credit. -/
structure IssueInput where
  email : String
  amount : Int
  issuanceKey : String
  (currency code : Option String)

/-- An upper-case ISO currency code. -/
def isCurrency (text : String) : Bool :=
  decide (text.toList.length=3)&&text.toList.all Char.isUpper

/-- Issue a new credit, or answer a repeated request. -/
def issue (input : IssueInput) (db : CreditLedger) :
    ServiceResult ((CreditAccount×String×Bool)×CreditLedger) := do
  lift (assertCents input.amount "Issue amount" true)
  required input.issuanceKey 154 "Issuance key"
  let emailNormalized ← normalizeCreditEmail w input.email
  match w.storeCurrency with
  | none => throwCredit .missing "Credit store missing"
  | some storeCurrency =>
    let currency := input.currency.getD storeCurrency
    required currency 3 "Currency"
    ensure (isCurrency currency) .invalidInput "Currency must be an ISO code"
    match db.accounts.find? fun account => account.issuanceKey=input.issuanceKey with
    | some existing =>
      let promotion ← accountPromotion w existing
      if existing.emailNormalized≠emailNormalized∨existing.initialAmount≠input.amount ∨
          existing.currency≠currency ∨
          (input.code.any fun code => decide (promotion.code≠some (trim code))) then
        conflict "Issuance key conflicts with existing credit"
      else return ((existing,promotion.code.getD "",false),db)
    | none =>
      let code := (input.code.map trim).getD ("ACC-" ++ w.randomCode)
      required code 200 "Coupon code"
      if w.promotions.any fun promotion =>
          decide (promotion.code.map w.lower=some (w.lower code)) then
        conflict "Coupon code already exists"
      else
        let rank := (w.promotions.filterMap PromotionRow.stackOrder).foldl max 0+1
        ensure (decide (0≤rank∧rank ≤ maxCreditCents)) .invariant
          "Promotion stack rank exhausted"
        if !w.promotionInserts then .error (.external "promotion")
        else
          let account : CreditAccount := {
            id := w.newAccountId
            promotionId := w.newPromotionId
            currency
            emailNormalized
            issuanceKey := input.issuanceKey
            initialAmount := input.amount
            balance := input.amount
            disabled := false
            sourcePromotionRecord := none}
          let opened ← insertAccount db account
          let (_,issued) ← insertEntry opened {blankEntry (nextId w opened) account.id .issue
            .posted input.amount input.amount ("issue:" ++ input.issuanceKey) with
              balanceAfter := some input.amount
              reason := some "Approved issuance"}
          return ((account,code,true),issued)

/-- Change a balance by hand. -/
def adjust (accountId : String) (delta : Int) (input : OperatorInput)
    (db : CreditLedger) : ServiceResult (CreditAccount×CreditLedger) := do
  operator input
  lift (assertCents |delta| "Adjustment" true)
  let account ← lockAccount db accountId
  let key := "adjust:" ++ input.operationKey
  match priorOperation db key with
  | some prior =>
    if prior.kind≠.adjust∨prior.status≠.posted∨prior.accountCreditId≠account.id ∨
        prior.delta≠delta∨prior.actor≠some input.actor∨prior.reason≠some input.reason then
      conflict "Adjustment key conflicts with existing operation"
    else return (account,db)
  | none =>
    let refused : ServiceResult (CreditAccount×CreditLedger) :=
      throwCredit .unavailable "Adjustment exceeds available credit or storage limit"
    if account.balance+delta<0∨maxCreditCents<account.balance+delta then refused
    else
      let credit ← available db account none
      if credit+delta<0 then refused
      else
        let (updated,db) ← setBalance db account (account.balance+delta)
        let (_,db) ← insertEntry db {blankEntry (nextId w db) account.id .adjust .posted |delta|
          delta key with
            balanceAfter := some updated.balance
            actor := some input.actor
            reason := some input.reason}
        return (updated,db)

/-- Close an account for new holds, or open it again. -/
def disable (accountId : String) (disabled : Bool) (input : OperatorInput)
    (db : CreditLedger) : ServiceResult (CreditAccount×CreditLedger) := do
  operator input
  let account ← lockAccount db accountId
  let key := "status:" ++ input.operationKey
  let kind : CreditKind := if disabled then .disable else .enable
  match priorOperation db key with
  | some prior =>
    if prior.kind≠kind∨prior.status≠.posted∨prior.accountCreditId≠account.id ∨
        prior.actor≠some input.actor∨prior.reason≠some input.reason then
      conflict "Status key conflicts with existing operation"
    else return (account,db)
  | none =>
    let closed : CreditLedger := {db with
      accounts := updateWhere (fun row => decide (row.id=account.id))
        (fun row => {row with disabled}) db.accounts}
    let (_,noted) ← insertEntry closed {blankEntry (nextId w closed) account.id kind .posted 0 0
      key with
        balanceAfter := some account.balance
        actor := some input.actor
        reason := some input.reason}
    return ({account with disabled},noted)

/-- Phase of a checkout. -/
inductive Phase where
  | addingItems | arrangingPayment | paymentSettled
  deriving DecidableEq

/-- Request to hold credit for an order. -/
structure ReserveInput where
  (orderId accountId : String)
  appliedAmount : Int
  phase : Phase
  now : Int
  holdKey : String

/-- Entry of a new hold. -/
def holdEntry (db : CreditLedger) (order : OrderRow) (accountId : String)
    (input : ReserveInput) (replaced : Option String) : CreditTransaction :=
  {blankEntry (nextId w db) accountId .reserve .pending input.appliedAmount 0
      ("hold:" ++ input.holdKey) with
    orderId := some order.id
    orderCode := some order.code
    relatedTransactionId := replaced}

/-- Hold credit for an order, replacing the hold it has. -/
def reserve (input : ReserveInput) (db : CreditLedger) :
    ServiceResult (CreditTransaction×CreditLedger) := do
  ensure (decide (input.phase=.arrangingPayment)) .invalidInput
    "Credit reserves only at payment preparation"
  lift (assertCents input.appliedAmount "Applied amount" true)
  let order ← lockOrder w input.orderId
  ensure (decide (order.state=.pendingPayment)) .unavailable "Credit order is not awaiting payment"
  let account ← lockAccount db input.accountId
  let hold := pendingForOrder db input.orderId
  let promotion ← accountPromotion w account
  ensure (decide (order.currency=account.currency) &&
      decide (order.promotionId=some account.promotionId) &&
      promotionLive promotion account input.now && !(account.disabled&&hold.isNone) &&
      hold.all fun entry => decide (entry.accountCreditId=account.id)) .unavailable
    "Credit unavailable for this checkout"
  ensure (decide (0<order.grandTotal)) .unavailable
    "Credit checkout needs a payable shipping or tax balance"
  let credit ← available db account (some order.id)
  ensure (decide (input.appliedAmount≤credit)) .unavailable "Credit amount changed; reapply coupon"
  match hold with
  | some entry =>
    if entry.amount=input.appliedAmount then return (entry,db)
    else
      let voided := setStatus db entry.id .void
      insertEntry voided (holdEntry w voided order account.id input (some entry.id))
  | none => insertEntry db (holdEntry w db order account.id input none)

/-- Posted redemptions of an order, of one account if named. -/
def redemptionForOrder (db : CreditLedger) (orderId : String) (accountId : Option String) :
    ServiceResult (Option CreditTransaction) :=
  match db.transactions.filter fun entry => decide (entry.orderId=some orderId) &&
      decide (entry.kind=.redeem)&&decide (entry.status=.posted) &&
      accountId.all fun account => decide (entry.accountCreditId=account) with
  | [] => .ok none
  | [entry] => .ok (some entry)
  | _ => conflict "Multiple redemptions require explicit reconciliation"

/-- Entry that gives held credit back. -/
def releaseEntry (db : CreditLedger) (hold : CreditTransaction) (amount : Int)
    (reason : String) : ServiceResult (CreditTransaction×CreditLedger) :=
  insertEntry db {blankEntry (nextId w db) hold.accountCreditId .release .posted amount 0
    ("release:" ++ hold.id) with
      orderId := hold.orderId
      orderCode := hold.orderCode
      relatedTransactionId := some hold.id
      reason := some reason}

/-- Request to redeem the credit of a settled order. -/
structure RedeemInput where
  orderId : String
  appliedAmount : Int
  allocation : Allocation

/-- Turn the hold of a settled order into a redemption. -/
def redeem (input : RedeemInput) (db : CreditLedger) :
    ServiceResult (Option CreditTransaction×CreditLedger) := do
  lift (assertCents input.appliedAmount "Applied amount" false)
  let order ← lockOrder w input.orderId
  match pendingForOrder db input.orderId with
  | none =>
    let prior ← redemptionForOrder db input.orderId none
    if prior.any fun entry => decide (entry.amount≠input.appliedAmount) ||
        !equalAllocation entry.operationalAllocation input.allocation then
      conflict "Settlement replay differs from posted redemption"
    else return (prior,db)
  | some hold =>
    let account ← lockAccount db hold.accountCreditId
    ensure (decide (order.id∈w.settledOrders)) .unavailable
      "Credit redemption requires settled payment"
    ensure (decide (order.currency=account.currency) &&
        (decide (input.appliedAmount≤0) || decide (order.promotionId=some account.promotionId)) &&
        decide (input.appliedAmount≤hold.amount)) .invariant
      "Settled credit does not match hold"
    if input.appliedAmount=0 then
      let (_,db) ← releaseEntry w (setStatus db hold.id .void) hold hold.amount
        "No credit applied at settlement"
      return (none,db)
    else
      lift (validateAllocation input.allocation (w.billedLines order.id) input.appliedAmount)
      ensure (decide (input.appliedAmount≤account.balance)) .invariant
        "Credit balance invariant broken"
      let (updated,paid) ← setBalance db account (account.balance-input.appliedAmount)
      let posted := setStatus paid hold.id .posted
      let (entry,redeemed) ← insertEntry posted {blankEntry (nextId w posted) account.id .redeem
        .posted input.appliedAmount (-input.appliedAmount) ("redeem:" ++ hold.id) with
          orderId := some order.id
          orderCode := some order.code
          balanceAfter := some updated.balance
          relatedTransactionId := some hold.id
          reason := some "Payment settled"
          allocation := some (stringify (allocationJson input.allocation))
          operationalAllocation := some input.allocation}
      if input.appliedAmount<hold.amount then
        let (_,released) ← releaseEntry w redeemed hold (hold.amount-input.appliedAmount)
          "Unused reserved credit"
        return (some entry,released)
      else return (some entry,redeemed)

/-- Why a hold is released. -/
inductive ReleaseCause where
  | cancelled
  | couponRemoved (couponCode : String)
  deriving DecidableEq

/-- The cause concerns the hold of this account. -/
def causeMatches (account : CreditAccount) (cause : ReleaseCause) :
    ServiceResult Bool :=
  match cause with
  | .cancelled => .ok true
  | .couponRemoved couponCode => do
    let promotion ← accountPromotion w account
    return decide (promotion.code.map w.lower=some (w.lower (trim couponCode)))

def release (orderId : String) (cause : ReleaseCause) (db : CreditLedger) :
    ServiceResult (Bool×CreditLedger) := do
  let order ← lockOrder w orderId
  ensure (decide (cause≠.cancelled)||decide (order.state=.cancelled)) .unavailable
    "Credit cancellation requires cancelled order"
  match pendingForOrder db orderId with
  | none => return (false,db)
  | some hold =>
    let account ← lockAccount db hold.accountCreditId
    let mine ← causeMatches w account cause
    if !mine then return (false,db)
    else
      let (_,db) ← releaseEntry w (setStatus db hold.id .void) hold hold.amount
        (if cause=.cancelled then "Order cancelled" else "Coupon removed")
      return (true,db)

end SellRight.CreditService
