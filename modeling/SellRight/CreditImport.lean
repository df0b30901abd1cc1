import SellRight.CreditService

/-!
# Import of monetary account credit

Credit accounts and their history are taken over from the source shop as they
are: nothing is replayed. Each source row is validated, linked to the imported
orders, lines and refunds, and stored; a row that cannot be linked is kept and
reported. A report that blocks forbids the cut-over.
-/

namespace SellRight.CreditImport

open JsonText KeyedRecord RowTable CreditMath CreditService

/-- Credit account of the source shop. -/
structure SourceCredit where
  (id promotionId channelId emailNormalized issuanceKey currency : String)
  (initialAmount balance : ℤ)
  disabled : Bool

/-- Coupon promotion of the source shop. -/
structure SourceCreditPromotion where
  id : String
  code : Option String
  enabled : Bool
  deletedAt : Option String
  (usageLimit perCustomerUsageLimit : Option ℤ)
  priority : ℤ
  (conditions actions sourceRecord : String)

/-- Credit transaction of the source shop. -/
structure SourceCreditTransaction where
  (id accountCreditId kind status : String)
  (amount delta : ℤ)
  balanceAfter : Option ℤ
  relatedTransactionId : Option String
  idempotencyKey : String
  (reason actor orderId orderCode refundId orderLineId : Option String)
  quantity : Option ℤ
  allocation : Option String
  deriving DecidableEq

/-- Channel facts of a source order. -/
structure SourceOrder where
  (selected hasChannel : Bool)

/-- Complete tables of the source snapshot. -/
structure CreditSourceGraph where
  orders : List (String×SourceOrder)
  (lines refunds : List (String×Option String))

/-- Imported order. -/
structure TargetOrder where
  (id storeId : String)
  currency : Option String
  metadata : Option Json

/-- Imported row of an order. -/
structure TargetChild where
  (id storeId orderId : String)

/-- Imported tables. -/
structure CreditTargetGraph where
  orders : List (String×TargetOrder)
  (lines refunds : List (String×TargetChild))

/-- Entry of the captured promotion sequence. -/
structure SequenceEntry where
  sourceId : String
  stackOrder : Option ℤ
  sourceRecord : String

/-- Captured promotion sequence. -/
structure PromotionSequence where
  sourceKey : String
  channelId : ℤ
  entries : List SequenceEntry

structure ImportContext where
  (storeId sourceKey : String)
  channelId : ℤ
  currency : String
  id : String → String → String
  promotionSequence : Option PromotionSequence
  toLowerCase : String → String
  digest : Json → String

/-- A source row that could not be mapped faithfully. -/
structure ManifestExclusion where
  (table detail : String)
  blocking : Bool
  reason : Option String
  reviewRequired : Bool
  sourceValues : List String

/-- An import throws or goes on. -/
abbrev ImportResult := Except String

/-- Throw unless a fact holds. -/
def check (fact : Bool) (message : String) : ImportResult Unit :=
  if fact then .ok () else .error message

/-- An exclusion without a reason code. -/
def exclusion (table detail : String) (blocking : Bool) : ManifestExclusion :=
  ⟨table,detail,blocking,none,false,[]⟩

/-- Cents a source row may change a balance by. -/
def signedCents (value : ℤ) : Bool := decide (-2147483647≤value∧value≤2147483647)

/-- Cents a source row may hold. -/
def positiveCents (value : ℤ) : Bool := signedCents value&&decide (0≤value)

/-- Kinds of the source plugin. -/
def kinds : List (String×CreditKind) :=
  [("ISSUE",.issue),("ADJUST",.adjust),("DISABLE",.disable),("ENABLE",.enable),
    ("RESERVE",.reserve),("RELEASE",.release),("REDEEM",.redeem),("RESTORE",.restore)]

/-- Statuses of the source plugin. -/
def statuses : List (String×CreditStatus) :=
  [("PENDING",.pending),("POSTED",.posted),("VOID",.void)]

/-- Row of a map built from rows: the last one of a key stays. -/
def rowOf {ρ : Type} (key : ρ → String) (rows : List ρ) (id : String) : Option ρ :=
  rows.reverse.find? fun row => decide (key row=id)

variable (transactions : List SourceCreditTransaction)

def deltaTotal (accountId : String) : ℤ :=
  ((transactions.filter fun tx => decide (tx.accountCreditId=accountId)).map
    SourceCreditTransaction.delta).sum

variable (credits : List SourceCredit)

def validateTransaction (tx : SourceCreditTransaction) :
    ImportResult Unit := do
  check (rowOf SourceCredit.id credits tx.accountCreditId).isSome
    "Credit transaction has no source account"
  check ((lookup kinds tx.kind).isSome&&(lookup statuses tx.status).isSome &&
      positiveCents tx.amount&&signedCents tx.delta&&tx.balanceAfter.all positiveCents &&
      tx.quantity.all positiveCents&&decide (tx.idempotencyKey ≠ ""))
    "Invalid source credit transaction"

/-- Check the balance of one source account. -/
def validateBalance (credit : SourceCredit) :
    ImportResult Unit := do
  check (positiveCents credit.initialAmount&&positiveCents credit.balance)
    "Invalid source credit balance"
  check (decide (deltaTotal transactions credit.id=credit.balance))
    "Source credit balance differs from exact historical deltas"

/-- Check monetary conservation without replaying any historical operation. -/
def validateCreditHistory
    (transactions : List SourceCreditTransaction) : ImportResult Unit := do
  transactions.forM (validateTransaction credits)
  credits.forM (validateBalance transactions)

/-- Items of a JSON array. -/
def items? : Option Json → Option (List Json)
  | some (.arr items) => some items
  | _ => none

def isText (value : Option Json) (text : String) : Bool :=
  match value with
  | some (.str found) => decide (found=text)
  | _ => false

def isNumber (value : Option Json) (n : ℤ) : Bool :=
  match value with
  | some (.num found) => decide (found=n)
  | _ => false

/-- The actions apply the credit and nothing else. -/
def creditActions (text : String) : Bool :=
  match items? (parse text) with
  | some [action] => isText (action.get "code") "account_credit_discount"
  | _ => false

/-- The conditions ask for the credit and nothing else. -/
def creditConditions (text : String) : Bool :=
  match items? (parse text) with
  | some conditions =>
    conditions.all fun condition => isText (condition.get "code") "account_credit_eligible"
  | none => false

/-- Coupon promotion of an imported credit. -/
structure ImportedPromotion where
  (id code : String)
  (stackOrder usageLimit perCustomerUsageLimit : Option ℤ)
  priority : ℤ
  enabled : Bool

structure BuiltAccounts where
  promotionRows : List ImportedPromotion
  accountRows : List CreditAccount
  exclusions : List ManifestExclusion
  (promoIds codes issuance : List String)

section
variable (ctx : ImportContext)

/-- Rank of an active credit promotion in the captured sequence. -/
def capturedStackOrder (promotion : SourceCreditPromotion) (active : Bool) :
    ImportResult (Option ℤ) := do
  match ctx.promotionSequence with
  | none => return none
  | some sequence =>
    check (decide (sequence.sourceKey=ctx.sourceKey∧sequence.channelId=ctx.channelId))
      "Credit promotion sequence source mismatch"
    match sequence.entries.find? fun entry => decide (entry.sourceId=promotion.id) with
    | none => return none
    | some captured =>
      check (!active||decide (captured.sourceRecord=promotion.sourceRecord))
        "Credit promotion differs from captured source sequence"
      return if active then captured.stackOrder else none

def accountRow (credit : SourceCredit) (promotion : SourceCreditPromotion) : CreditAccount where
  id := ctx.id "account-credit" credit.id
  promotionId := ctx.id "promotion" promotion.id
  currency := credit.currency
  emailNormalized := credit.emailNormalized
  issuanceKey := credit.issuanceKey
  initialAmount := credit.initialAmount
  balance := credit.balance
  disabled := credit.disabled
  sourcePromotionRecord := some promotion.sourceRecord

def buildCreditAccount (promotions : List SourceCreditPromotion)
    (built : BuiltAccounts) (credit : SourceCredit) : ImportResult BuiltAccounts := do
  check (decide (credit.channelId=toString ctx.channelId))
    "Credit account belongs to another source channel"
  match rowOf SourceCreditPromotion.id promotions credit.promotionId with
  | none => .error "Credit source promotion is absent"
  | some promotion =>
    check (creditActions promotion.actions&&creditConditions promotion.conditions)
      "Unsupported source credit promotion semantics"
    let code := promotion.code.getD ""
    check (decide (code ≠ "")&&decide (credit.issuanceKey ≠ "") &&
        positiveCents credit.initialAmount&&positiveCents credit.balance &&
        signedCents promotion.priority&&promotion.usageLimit.all positiveCents &&
        promotion.perCustomerUsageLimit.all positiveCents)
      "Invalid source credit account or promotion"
    check (decide (promotion.id∉built.promoIds∧ctx.toLowerCase code∉built.codes ∧
        credit.issuanceKey∉built.issuance))
      "Conflicting source credit identity"
    let active := promotion.enabled&&promotion.deletedAt.isNone
    let stackOrder ← capturedStackOrder ctx promotion active
    return {
      promotionRows := built.promotionRows++[{
        id := ctx.id "promotion" promotion.id
        code := code
        stackOrder := stackOrder
        usageLimit := promotion.usageLimit
        perCustomerUsageLimit := promotion.perCustomerUsageLimit
        priority := promotion.priority
        enabled := active}]
      accountRows := built.accountRows++[accountRow ctx credit promotion]
      exclusions := built.exclusions ++
        (if active&&stackOrder.isNone then
          [exclusion "promotion" "Active credit promotion has no qualified captured stack rank" true]
        else []) ++
        (if credit.currency≠ctx.currency then
          [exclusion "account_credit" ("Retained monetary credit uses another currency; " ++
            "redemption currency guard applies") true]
        else [])
      promoIds := promotion.id::built.promoIds
      codes := ctx.toLowerCase code::built.codes
      issuance := credit.issuanceKey::built.issuance}

def buildCreditAccounts (credits : List SourceCredit)
    (promotions : List SourceCreditPromotion) : ImportResult BuiltAccounts :=
  credits.foldlM (buildCreditAccount ctx promotions) ⟨[],[],[],[],[],[]⟩

end

/-- Report on a transaction. -/
def transactionExclusion (detail : String) (blocking : Bool) : ManifestExclusion :=
  exclusion "account_credit_transaction" detail blocking

/-- State of the classification of one transaction. -/
structure Classification where
  exclusions : List ManifestExclusion
  blocked : Bool
  /-- Allocated source lines that do not exist. -/
  missing : List String

/-- Report on the transaction. -/
def Classification.classify (state : Classification) (detail : String) (blocking : Bool) :
    Classification :=
  {state with
    exclusions := state.exclusions++[transactionExclusion detail blocking]
    blocked := state.blocked||blocking}

/-- Imported order of a transaction. -/
def importedOrder (ctx : ImportContext) (source : CreditSourceGraph) (target : CreditTargetGraph)
    (orderId : Option String) : ImportResult (Option TargetOrder) :=
  match orderId with
  | none => .ok none
  | some sourceId =>
    if (lookup source.orders sourceId).any SourceOrder.selected then
      match lookup target.orders (ctx.id "order" sourceId) with
      | none => .ok none
      | some order =>
        if order.storeId=ctx.storeId∧order.id=ctx.id "order" sourceId then .ok (some order)
        else .error "Cross-store or wrong-order credit order link refused"
    else .ok none

/-- The source order of a transaction does not exist. -/
def orderAbsent (source : CreditSourceGraph) (orderId : Option String) : Bool :=
  orderId.any fun sourceId => (lookup source.orders sourceId).isNone

/-- Classify the order link of a transaction. -/
def classifyOrder (source : CreditSourceGraph) (order : Option TargetOrder)
    (tx : SourceCreditTransaction) (state : Classification) : Classification :=
  match tx.orderId.bind (lookup source.orders) with
  | none => state
  | some sourceOrder =>
    if !sourceOrder.selected then
      if sourceOrder.hasChannel then
        state.classify "other_channel_order: original credit order reference retained privately"
          false
      else state.classify "unresolved_order_channel: semantic projection blocked" true
    else if order.isNone then
      state.classify "target_order_unmapped: original credit order reference retained privately"
        (decide (tx.kind = "REDEEM" ∨ tx.kind = "RESTORE"))
    else state

/-- Classify a pending hold without an imported order. -/
def classifyHold (order : Option TargetOrder) (tx : SourceCreditTransaction)
    (state : Classification) : Classification :=
  if tx.kind = "RESERVE" ∧ tx.status = "PENDING" ∧ order.isNone then
    state.classify "pending_order_unresolved: original hold retained; reconciliation required" true
  else state

section
variable (ctx : ImportContext) (source : CreditSourceGraph) (target : CreditTargetGraph)
variable (order : Option TargetOrder) (tx : SourceCreditTransaction) (state : Classification)

def mapLine (sourceLineId : String) : ImportResult (Option String×Classification) :=
  match lookup source.lines sourceLineId with
  | none => .ok (none,{state with missing := state.missing++[sourceLineId]})
  | some none =>
    .ok (none,state.classify ("source_allocation_line_unresolved_owner: " ++
      "original reference retained; operational projection blocked") true)
  | some (some parent) =>
    if tx.orderId≠some parent∨!(lookup source.orders parent).any SourceOrder.selected then
      .ok (none,state.classify
        "allocation_line_wrong_order_or_channel: operational projection blocked" true)
    else
      match lookup target.lines (ctx.id "order-line" sourceLineId), order with
      | some line, some order =>
        if line.storeId=ctx.storeId∧line.orderId=order.id then .ok (some line.id,state)
        else .error "Cross-store or wrong-order credit line refused"
      | _, _ =>
        .ok (none,state.classify
          "target_allocation_line_unmapped: operational projection blocked" true)

def importLine : ImportResult (Option String×Classification) :=
  match tx.orderLineId with
  | none => .ok (none,state)
  | some sourceLineId => mapLine ctx source target order tx state sourceLineId

def importRefund : ImportResult (Option String×Classification) :=
  match tx.refundId with
  | none => .ok (none,state)
  | some refundId =>
    let sourceOrder := (lookup source.refunds refundId).join
    if sourceOrder.isNone∨sourceOrder≠tx.orderId then
      .ok (none,state.classify ("refund_order_unresolved: " ++
        "original reference retained; operational projection blocked") true)
    else
      match order.bind fun order =>
        (lookup target.refunds (ctx.id "refund" refundId)).map fun refund => (order,refund) with
      | none =>
        .ok (none,state.classify ("target_refund_unmapped: " ++
          "original reference retained; operational projection blocked") true)
      | some (order,refund) =>
        if refund.storeId=ctx.storeId∧refund.orderId=order.id then .ok (some refund.id,state)
        else .error "Cross-store or wrong-order credit refund refused"

end

/-- Cents of the units of a line. -/
def unitCents (value : Json) : Option (List ℤ) :=
  match value with
  | .arr units => units.mapM fun unit =>
    match unit with
    | .num cents => if positiveCents cents then some cents else none
    | _ => none
  | _ => none

/-- Text of decimal digits. -/
def isDigits (text : String) : Bool := !text.toList.isEmpty&&text.toList.all Char.isDigit

/-- Cents by source line and unit. -/
def parseCreditAllocation (raw : Option String) : ImportResult (Option (List (String×List ℤ))) :=
  match raw with
  | none => .ok none
  | some text =>
    match parse text with
    | none => .error "Unexpected token in JSON"
    | some .null => .ok none
    | some (.obj members) =>
      match members.mapM fun member =>
        (if isDigits member.1 then unitCents member.2 else none).map fun cents =>
          (member.1,cents) with
      | some allocation => .ok (some allocation)
      | none => .error "Invalid source credit allocation"
    | some _ => .error "Invalid source credit allocation"

section
variable (ctx : ImportContext) (source : CreditSourceGraph) (target : CreditTargetGraph)
variable (order : Option TargetOrder) (tx : SourceCreditTransaction)

/-- Assign the cents of one source line to its imported line. -/
def importUnits (built : Allocation×Classification) (entry : String×List ℤ) :
    ImportResult (Allocation×Classification) := do
  match ← mapLine ctx source target order tx built.2 entry.1 with
  | (some lineId,state) => return (built.1.set lineId entry.2,state)
  | (none,state) => return (built.1,state)

def importAllocation (allocation : Option (List (String×List ℤ))) (state : Classification) :
    ImportResult (Option Allocation×Classification) := do
  match allocation with
  | none =>
    return (none,if tx.kind = "REDEEM" then
      state.classify "redemption_allocation_absent: operational restoration projection blocked" true
    else state)
  | some entries =>
    let (operational,state) ←
      entries.foldlM (importUnits ctx source target order tx) (Record.empty,state)
    check (!decide (tx.kind = "REDEEM") ||
        decide ((entries.map fun entry => entry.2.sum).sum=tx.amount))
      "Source credit allocation differs from redemption amount"
    return (some operational,state)

end

/-- Transaction a transaction follows. -/
def relatedTransaction
    (tx : SourceCreditTransaction) : ImportResult (Option SourceCreditTransaction) :=
  match tx.relatedTransactionId with
  | none => .ok none
  | some relatedId =>
    match rowOf SourceCreditTransaction.id transactions relatedId with
    | some related =>
      if related.accountCreditId=tx.accountCreditId then .ok (some related)
      else .error "Related source credit transaction is absent or belongs to another account"
    | none => .error "Related source credit transaction is absent or belongs to another account"

/-- Text of a JSON value as `String()` makes it. -/
def jsonText : Json → String
  | .str text => text
  | .num n => toString n
  | value => stringify value

/-- Sixty-four hexadecimal digits. -/
def isDigest (text : String) : Bool :=
  decide (text.toList.length=64)&&text.toList.all fun c => c.isDigit||decide ('a' ≤ c∧c ≤ 'f')

/-- The reason list of a marker names a contradiction of the header charges only. -/
def headerContradiction (reasons : Option Json) : Bool :=
  match items? reasons with
  | some [reason] => isText (some reason) "HEADER_CHARGE_CONTRADICTION"
  | _ => false

/-- Members of a JSON object without one name. -/
def withoutMember (value : Json) (name : String) : Json :=
  match value with
  | .obj members => .obj (members.filter fun member => decide (member.1≠name))
  | value => value

section
variable (ctx : ImportContext)

/-- The order keeps its source row under a financial quarantine. -/
def retainedParent (order : Option TargetOrder) (tx : SourceCreditTransaction) : Bool :=
  match (order.bind TargetOrder.metadata).bind fun metadata => metadata.get "vendure" with
  | some (.obj members) =>
    let parent := Json.obj members
    match parent.get "retainedHistoryV1", parent.get "financialReconciliationV1" with
    | some retained, some marker =>
      match retained.get "sourceDigest" with
      | some (.str sourceDigest) =>
        (parent.get "editBasisV1").isNone&&isText (parent.get "sourceKey") ctx.sourceKey &&
          decide ((parent.get "id").map jsonText=tx.orderId) &&
          isNumber (retained.get "version") 1 &&
          isText (retained.get "format") "retained-pg-jsonb-text-v1" &&
          isText (retained.get "sourceKey") ctx.sourceKey &&
          tx.orderId.all (isText (retained.get "sourceOrderId"))&&isDigest sourceDigest &&
          decide (sourceDigest=ctx.digest (withoutMember retained "sourceDigest")) &&
          isNumber (marker.get "version") 1&&isText (marker.get "status") "required" &&
          isText (marker.get "sourceDigest") sourceDigest &&
          headerContradiction (marker.get "reasons")
      | _ => false
    | _, _ => false
  | _ => false

/-- The transaction is a posted redemption with a known allocation. -/
def historicalRedemption (credit : SourceCredit)
    (tx : SourceCreditTransaction) (allocation : Option (List (String×List ℤ)))
    (blocked : Bool) : Bool :=
  !blocked&&decide (tx.kind = "REDEEM" ∧ tx.status = "POSTED" ∧ 0<tx.amount ∧
      tx.delta = -tx.amount)&&allocation.any (fun entries => !entries.isEmpty) &&
    tx.orderLineId.isNone&&tx.refundId.isNone &&
    decide (credit.currency=ctx.currency∧credit.channelId=toString ctx.channelId)

/-- Its order is imported and under quarantine. -/
def mappedHistoricalOrphan (source : CreditSourceGraph)
    (order : Option TargetOrder) (tx : SourceCreditTransaction) : Bool :=
  (tx.orderId.bind (lookup source.orders)).any (fun o => o.selected&&o.hasChannel) &&
    decide (order.bind TargetOrder.currency=some ctx.currency)&&retainedParent ctx order tx

/-- Its order and lines exist neither in the source nor in the target. -/
def unlinkedHistoricalOrphan (source : CreditSourceGraph)
    (target : CreditTargetGraph) (tx : SourceCreditTransaction)
    (allocation : Option (List (String×List ℤ))) : Bool :=
  tx.orderId.any (fun orderId => (lookup source.orders orderId).isNone &&
      (lookup target.orders (ctx.id "order" orderId)).isNone)&&tx.quantity.isNone &&
    allocation.any fun entries => entries.all fun entry => (lookup source.lines entry.1).isNone

end

def optionalText : Option String → Json
  | some text => .str text
  | none => .null

section
variable (ctx : ImportContext) (source : CreditSourceGraph) (target : CreditTargetGraph)

/-- Report on allocated lines that do not exist. -/
def classifyMissing (order : Option TargetOrder) (credit : SourceCredit)
    (tx : SourceCreditTransaction) (allocation : Option (List (String×List ℤ)))
    (state : Classification) : Classification :=
  if state.missing.isEmpty then state
  else if historicalRedemption ctx credit tx allocation state.blocked &&
      (mappedHistoricalOrphan ctx source order tx ||
        unlinkedHistoricalOrphan ctx source target tx allocation) then
    {state with
      exclusions := state.exclusions++[{
        table := "account_credit_transaction"
        detail := "source_allocation_line_absent: known historical redemption retained; " ++
          "no operational restoration allocation"
        blocking := false
        reason := some "CREDIT_ALLOCATION_LINE_ABSENT"
        reviewRequired := true
        sourceValues := [stringify (.obj [("sourceId",.str tx.id),
          ("sourceOrderId",optionalText tx.orderId),
          ("missingSourceLineIds",.arr ((state.missing.dedup.mergeSort
            fun first second => decide (first ≤ second)).map .str))])]}]}
  else
    state.classify
      "source_allocation_line_absent: original reference retained; operational projection blocked"
      true

/-- Report on a source order that does not exist. -/
def absentOrderExclusion (credit : SourceCredit) (tx : SourceCreditTransaction)
    (allocation : Option (List (String×List ℤ))) (state : Classification) :
    List ManifestExclusion :=
  if orderAbsent source tx.orderId then
    let plain := transactionExclusion
      "source_order_absent: original credit order reference retained privately" false
    if !state.missing.isEmpty&&historicalRedemption ctx credit tx allocation state.blocked &&
        unlinkedHistoricalOrphan ctx source target tx allocation then
      [{plain with
        reason := some "SOURCE_ORDER_ABSENT"
        reviewRequired := true
        sourceValues := [stringify (.obj [("sourceId",.str tx.id),
          ("sourceOrderId",optionalText tx.orderId)])]}]
    else [plain]
  else []

end

def transactionRow (ctx : ImportContext) (tx : SourceCreditTransaction) (kind : CreditKind)
    (status : CreditStatus) (related : Option SourceCreditTransaction)
    (order : Option TargetOrder) (refundId lineId : Option String)
    (operational : Option Allocation) (state : Classification) : CreditTransaction where
  id := ctx.id "account-credit-transaction" tx.id
  accountCreditId := ctx.id "account-credit" tx.accountCreditId
  kind := kind
  status := status
  amount := tx.amount
  delta := tx.delta
  balanceAfter := tx.balanceAfter
  relatedTransactionId := related.map fun row => ctx.id "account-credit-transaction" row.id
  idempotencyKey := tx.idempotencyKey
  reason := tx.reason
  actor := tx.actor
  orderId := order.map TargetOrder.id
  orderCode := tx.orderCode
  refundId := if state.blocked then none else refundId
  orderLineId := if state.blocked then none else lineId
  quantity := tx.quantity
  allocation := tx.allocation
  operationalAllocation := if state.blocked || !state.missing.isEmpty then none else operational

def buildCreditTransaction (ctx : ImportContext) (credits : List SourceCredit)
    (transactions : List SourceCreditTransaction) (source : CreditSourceGraph)
    (target : CreditTargetGraph) (tx : SourceCreditTransaction) :
    ImportResult (CreditTransaction×List ManifestExclusion) := do
  match rowOf SourceCredit.id credits tx.accountCreditId, lookup kinds tx.kind,
      lookup statuses tx.status with
  | some credit, some kind, some status =>
    let order ← importedOrder ctx source target tx.orderId
    let ordered := classifyHold order tx (classifyOrder source order tx ⟨[],false,[]⟩)
    let (lineId,lined) ← importLine ctx source target order tx ordered
    let (refundId,refunded) ← importRefund ctx source target order tx lined
    let allocation ← parseCreditAllocation tx.allocation
    let (operational,allocated) ←
      importAllocation ctx source target order tx allocation refunded
    let related ← relatedTransaction transactions tx
    let state := classifyMissing ctx source target order credit tx allocation allocated
    return (transactionRow ctx tx kind status related order refundId lineId operational state,
      absentOrderExclusion ctx source target credit tx allocation allocated++state.exclusions)
  | _, _, _ => .error "Invalid source credit transaction"

/-- Pending holds of a source account. -/
def sourceHeld (accountId : String) : ℤ :=
  ((transactions.filter fun tx => decide (tx.accountCreditId=accountId∧tx.kind = "RESERVE" ∧
    tx.status = "PENDING")).map SourceCreditTransaction.amount).sum

/-- Reports on accounts whose pending holds exceed the balance. -/
def heldExclusions (transactions : List SourceCreditTransaction) :
    List ManifestExclusion :=
  (credits.filter fun credit => decide (credit.balance<sourceHeld transactions credit.id)).map
    fun _ => exclusion "account_credit" ("pending_holds_exceed_balance: " ++
      "exact balance & holds retained; reconciliation required") true

/-- Imported transactions. -/
structure BuiltTransactions where
  rows : List CreditTransaction
  exclusions : List ManifestExclusion

def buildCreditTransactions (ctx : ImportContext) (credits : List SourceCredit)
    (transactions : List SourceCreditTransaction) (source : CreditSourceGraph)
    (target : CreditTargetGraph) : ImportResult BuiltTransactions := do
  validateCreditHistory credits transactions
  let built ← transactions.mapM (buildCreditTransaction ctx credits transactions source target)
  return ⟨built.map Prod.fst,heldExclusions credits transactions++(built.map Prod.snd).flatten⟩

/-- Row without its link. -/
def unlinked (row : CreditTransaction) : CreditTransaction :=
  {row with relatedTransactionId := none}

def linkRow (rows : List CreditTransaction) (row : CreditTransaction) : List CreditTransaction :=
  updateWhere (fun stored => decide (stored.id=row.id)&&row.relatedTransactionId.isSome)
    (fun stored => {stored with relatedTransactionId := row.relatedTransactionId}) rows

/-- Store imported rows in the empty tables of a new store: accounts first, then
transactions without links, then the links. -/
def storeCredits (accounts : List CreditAccount) (rows : List CreditTransaction) :
    ServiceResult CreditLedger := do
  let opened ← accounts.foldlM insertAccount ⟨[],[]⟩
  let filled ← rows.foldlM (fun db row => do
    let (_,db) ← insertEntry db (unlinked row)
    return db) opened
  return {filled with transactions := rows.foldl linkRow filled.transactions}

end SellRight.CreditImport
