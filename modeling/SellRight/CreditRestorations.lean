import SellRight.CreditService

/-!
# Restorations of the credit service

Credit comes back to an account when an order edit drops funded units, when a
refund settles, or when an operator returns units by hand. Each of them plans
its postings from the restoration history and posts them one after another,
raising the balance each time. The last section collects the nine operations
of the service into one step.
-/

namespace SellRight.CreditRestorations

open JsonText KeyedRecord CreditMath CreditFundingLedger CreditFundingPlanner CreditService

/-- Redemption and restorations of an order. -/
structure FundingEvidence where
  redemption : CreditTransaction
  history : List CreditTransaction

def readCreditFundingEvidence (db : CreditLedger) (orderId : String) :
    ServiceResult (Option FundingEvidence) := do
  match ← redemptionForOrder db orderId none with
  | none => return none
  | some redemption =>
    return some ⟨redemption,db.transactions.filter fun entry =>
      decide (entry.orderId=some orderId)&&decide (entry.kind=.restore)⟩

variable (w : World)

/-- Read the funding evidence with the checks of the pricing side. -/
def readCurrentCreditEvidence (db : CreditLedger) (orderId : String) :
    ServiceResult (Option FundingEvidence) := do
  match ← readCreditFundingEvidence db orderId with
  | none => return none
  | some evidence =>
    w.evidenceCheck db orderId
    return some evidence

/-- A redemption without a native allocation cannot be restored. -/
def assertRedemptionAllocation (redemption : CreditTransaction) : ServiceResult Unit :=
  ensure redemption.operationalAllocation.isSome .allocation
    "Imported credit allocation requires reconciliation before restoration or edit funding."

def fundingResult {α : Type} (lead : String) (result : Funding α) : ServiceResult α :=
  match result with
  | .ok value => .ok value
  | .error refusal => throwCredit .allocation (lead++refusal.message)

/-- Columns the service adds to a posting. -/
structure PostingExtra where
  (refundId actor : Option String)
  reason : String

def fundingRow (id : String) (redemption : CreditTransaction) (posting : EditFundingPosting)
    (balance : Int) (extra : PostingExtra) : CreditTransaction where
  id := id
  accountCreditId := posting.accountCreditId
  kind := posting.kind
  status := posting.status
  amount := posting.amount
  delta := posting.delta
  balanceAfter := some balance
  relatedTransactionId := some posting.relatedTransactionId
  idempotencyKey := posting.idempotencyKey
  reason := some extra.reason
  actor := extra.actor
  orderId := some posting.orderId
  orderCode := redemption.orderCode
  refundId := extra.refundId
  orderLineId := some posting.orderLineId
  quantity := some posting.quantity
  allocation := some posting.allocation
  operationalAllocation := some posting.operationalAllocation

/-- Post planned restorations one after another. -/
def postFundingRows (w : World) (redemption : CreditTransaction) (extra : PostingExtra) :
    List EditFundingPosting → CreditAccount → CreditLedger →
      ServiceResult (List CreditTransaction×CreditAccount×CreditLedger)
  | [],account,db => .ok ([],account,db)
  | posting::postings, account, db => do
    let (updated,db) ← setBalance db account (account.balance+posting.amount)
    let (entry,db) ← insertEntry db
      (fundingRow (nextId w db) redemption posting updated.balance extra)
    let (entries,account,db) ← postFundingRows w redemption extra postings updated db
    return (entry::entries,account,db)

/-- Request to fund an order edit. -/
structure EditCreditInput where
  (orderId editId : String)
  lines : List TargetLine
  committedEdit : Option CommittedEdit

section
variable (w : World) (input : EditCreditInput) (db : CreditLedger)

def prepareEditCreditFunding :
    ServiceResult (Option (EditFundingResult×FundingEvidence)) := do
  let order ← lockOrder w input.orderId
  match ← redemptionForOrder db input.orderId none with
  | none => return none
  | some redemption =>
    assertRedemptionAllocation redemption
    let account ← lockAccount db redemption.accountCreditId
    if account.currency≠order.currency then conflict "Credit funding currency differs from order"
    else
      match ← readCreditFundingEvidence db input.orderId with
      | none => return none
      | some evidence =>
        let plan ← fundingResult "" (planEditCreditFunding w.runtime evidence.redemption
          evidence.history true input.editId input.lines input.committedEdit)
        return some (plan,evidence)

def postEditCreditFunding :
    ServiceResult (Option EditFundingResult×CreditLedger) := do
  match ← prepareEditCreditFunding w input db with
  | none => return (none,db)
  | some (plan,evidence) =>
    match plan with
    | .replay _ _ => return (some plan,db)
    | .planned _ postings _ _ =>
      let account ← lockAccount db evidence.redemption.accountCreditId
      let (_,_,db) ← postFundingRows w evidence.redemption ⟨none,none, "Committed order edit"⟩
        postings account db
      return (some plan,db)

end

/-- A restoration the service is asked to post. -/
structure RestorationInput where
  (orderId orderLineId : String)
  quantity : Int
  key : String
  extra : PostingExtra
  expectedCents : Option Int
  originalIndexes : Option (List (Option Int))

/-- Original units of an envelope. -/
def envelopeIndexes (raw : Json) : List (Option Json) :=
  (itemsOf raw "units").map fun unit => unit.get "index"

/-- The units of a prior restoration are the ones asked for. -/
def sameUnits (text : String) (indexes : List (Option Int)) : ServiceResult Bool :=
  match parse text with
  | none => .error (.external "SyntaxError")
  | some raw => .ok (!isText raw "type" unitRestore ||
      decide ((envelopeIndexes raw).map (fun index => match index with
        | some (.num n) => some n
        | _ => none)=indexes.filter Option.isSome))

/-- Answer a repeated restoration. -/
def replayRestoration (account : CreditAccount) (redeemed : CreditTransaction)
    (input : RestorationInput) (prior : CreditTransaction) : ServiceResult CreditTransaction := do
  let originalQuantity : Int := match input.originalIndexes with
    | some indexes => (indexes.filter Option.isSome).length
    | none => input.quantity
  if prior.kind≠.restore∨prior.status≠.posted∨prior.accountCreditId≠account.id ∨
      prior.relatedTransactionId≠some redeemed.id∨prior.orderId≠some input.orderId ∨
      prior.orderLineId≠some input.orderLineId∨prior.quantity≠some originalQuantity ∨
      prior.actor≠input.extra.actor∨prior.reason≠some input.extra.reason ∨
      prior.refundId≠input.extra.refundId ∨
      (input.expectedCents.any fun cents => decide (prior.amount≠cents)) then
    conflict "Restoration key conflicts with existing operation"
  else
    match input.originalIndexes, prior.allocation with
    | some indexes, some text =>
      let same ← sameUnits text indexes
      if same then return prior else conflict "Restoration key conflicts with selected units"
    | _, _ => return prior

/-- Units still open on a line, in order. -/
def openIndexes (state : CreditFundingState) (line : String) : Option (List ℕ) :=
  (state.remaining.get line).map fun units =>
    (List.range units.length).filter fun index => index∉(state.returnedIndexes.get line).getD []

/-- Restorations of the same refund and line. -/
def refundRows (input : RestorationInput) (history : List CreditTransaction) :
    List CreditTransaction :=
  match input.extra.refundId with
  | none => []
  | some refundId => history.filter fun row =>
      decide (row.refundId=some refundId)&&decide (row.orderLineId=some input.orderLineId)

/-- Identity of a new restoration. -/
def returnOperation (input : RestorationInput) : Operation :=
  match input.extra.refundId with
  | some refundId => ⟨.refund,refundId⟩
  | none => ⟨.manualReturn,String.ofList (input.key.toList.drop "manual:".length)⟩

/-- Post one restoration, or answer a repeated one. -/
def postRestoration (account : CreditAccount) (redeemed : CreditTransaction)
    (input : RestorationInput) (db : CreditLedger) :
    ServiceResult (Option CreditTransaction×CreditAccount×CreditLedger) := do
  match ← readCreditFundingEvidence db input.orderId with
  | none => .error (.external "TypeError")
  | some evidence =>
    let state ← fundingResult "Proven credit allocation missing or restoration conflicts: "
      (readCreditFundingState evidence.redemption evidence.history true)
    let priorByKey := priorOperation db input.key
    let byRefund := refundRows input evidence.history
    if 1<byRefund.length∨(priorByKey.any fun prior =>
        byRefund.head?.any fun row => decide (prior.id≠row.id)) then
      conflict "Restoration identity conflicts with existing operations"
    else
      match priorByKey <|> byRefund.head? with
      | some prior =>
        let prior ← replayRestoration account redeemed input prior
        return (some prior,account,db)
      | none =>
        ensure (((w.billedLines input.orderId).any fun line => line.id=input.orderLineId) &&
            decide (redeemed.orderId=some input.orderId)) .allocation
          "Proven linked order line required for restoration"
        let indexes := input.originalIndexes <|>
          (openIndexes state input.orderLineId).map fun open' =>
            (open'.take input.quantity.toNat).map fun (index : ℕ) => some (index : Int)
        match indexes with
        | none => throwCredit .allocation "Proven credit allocation missing for returned units"
        | some indexes =>
          ensure (decide ((indexes.length : Int)=input.quantity)) .allocation
            "Proven credit allocation missing for returned units"
          let (posting,_) ← fundingResult "" (planCreditUnitReturn evidence.redemption
            evidence.history true (returnOperation input) input.orderLineId indexes)
          match posting with
          | none =>
            if input.expectedCents.any fun cents => decide (cents≠0) then
              conflict "Unfunded merchandise cannot restore credit"
            else return (none,account,db)
          | some posting =>
            if input.expectedCents.any fun cents => decide (posting.amount≠cents) then
              conflict "Restoration amount conflicts with expected cents"
            else
              let (entries,account,db) ← postFundingRows w redeemed input.extra [posting] account db
              return (entries.head?,account,db)

def frozenMatches (frozen : FrozenReturns) (redeemed : CreditTransaction)
    (lines : List RefundLineRow) : Bool :=
  decide (frozen.redemptionId=redeemed.id)&&decide (frozen.lines.length=lines.length) &&
    frozen.lines.all fun unit => lines.any fun line =>
      decide (line.orderLineId=unit.orderLineId) &&
        decide (line.quantity=(unit.positions.length : Int))

/-- Original units by line, from the current pricing or the redemption. -/
def originalMapping (current : Option CurrentPricing) (redeemed : CreditTransaction) :
    Record String (List (Option Int)) :=
  match current with
  | some pricing => pricing.sourceRefundUnits.mapValues fun _ units =>
      units.map SourceUnit.originalIndex
  | none => (redeemed.operationalAllocation.getD .empty).mapValues fun _ units =>
      (List.range units.length).map fun index => some (index : Int)

def originalAt (mapping : Record String (List (Option Int))) (line : String) (position : ℕ) :
    Option (Option Int) :=
  (mapping.get line).bind fun units => units[position]?

/-- A frozen position names another original unit. -/
def positionsDiffer (mapping : Record String (List (Option Int))) (frozen : FrozenReturns) : Bool :=
  frozen.lines.any fun line => (line.positions.zip line.originalIndexes).any fun entry =>
    decide (originalAt mapping line.orderLineId entry.1≠some entry.2)

/-- A frozen unit id names another original unit. -/
def identitiesDiffer (current : Option CurrentPricing) (mapping : Record String (List (Option Int)))
    (frozen : FrozenReturns) : Bool :=
  match current with
  | none => true
  | some pricing => frozen.lines.any fun line =>
      (line.unitIds.zip line.originalIndexes).any fun entry =>
        match ((pricing.sourceRefundUnits.get line.orderLineId).getD []).findIdx?
            fun unit => unit.unitId=entry.1 with
        | none => true
        | some position => decide (originalAt mapping line.orderLineId position≠some entry.2)

/-- Check the frozen units against the current pricing. -/
def checkFrozen (db : CreditLedger) (order : OrderRow) (redeemed : CreditTransaction)
    (frozen : FrozenReturns) : ServiceResult Unit := do
  if frozen.version=1∧frozen.snapshotDigest≠order.snapshotDigest then
    conflict "Frozen refund pricing snapshot differs"
  else
    let current ← w.currentPricing db order.id
    let mapping := originalMapping current redeemed
    if frozen.version=1∧positionsDiffer mapping frozen then
      conflict "Frozen refund original identity differs"
    else if frozen.version=2∧identitiesDiffer current mapping frozen then
      conflict "Frozen refund stable identity differs"
    else return ()

/-- Frozen units of a refund line, if the refund froze units. -/
def frozenLine (frozen : Option FrozenReturns) (orderLineId : String) :
    ServiceResult (Option FrozenLine) :=
  match frozen with
  | none => .ok none
  | some frozen =>
    match frozen.lines.find? fun unit => unit.orderLineId=orderLineId with
    | some unit => .ok (some unit)
    | none => .error (.external "TypeError")

/-- Restore the lines of a refund one after another. -/
def restoreLines (w : World) (redeemed : CreditTransaction) (orderId refundId : String)
    (frozen : Option FrozenReturns) :
    List RefundLineRow → List String → CreditAccount → CreditLedger →
      ServiceResult (List CreditTransaction×CreditLedger)
  | [],_,_,db => .ok ([],db)
  | line::lines, seen, account, db => do
    if line.orderLineId∈seen then conflict "Refund repeats an order line"
    else
      let unit ← frozenLine frozen line.orderLineId
      let (entry,account,db) ← postRestoration w account redeemed {
        orderId
        orderLineId := line.orderLineId
        quantity := line.quantity
        key := "refund:" ++ refundId ++ ":line:" ++ line.orderLineId
        extra := ⟨some refundId,none, "Settled merchandise refund"⟩
        expectedCents := unit.map fun unit => unit.creditCents.sum
        originalIndexes := unit.map FrozenLine.originalIndexes} db
      let (entries,db) ← restoreLines w redeemed orderId refundId frozen lines
        (seen++[line.orderLineId]) account db
      return (entry.toList++entries,db)

def readFrozen (refundId : String) : ServiceResult (Option FrozenReturns) :=
  match w.refundEvidence refundId with
  | .ok frozen => .ok frozen
  | .error _ => throwCredit .allocation "Frozen refund unit identity requires reconciliation"

def restoreRefund (orderId refundId : String) (db : CreditLedger) :
    ServiceResult (List CreditTransaction×CreditLedger) := do
  let order ← lockOrder w orderId
  match w.refunds.find? fun refund => decide (refund.orderId=orderId∧refund.id=refundId) with
  | none => throwCredit .unavailable "Credit restoration requires settled refund in store"
  | some refund =>
    ensure (decide (refund.state=.settled)) .unavailable
      "Credit restoration requires settled refund in store"
    match ← redemptionForOrder db orderId none with
    | none => return ([],db)
    | some redeemed =>
      assertRedemptionAllocation redeemed
      let account ← lockAccount db redeemed.accountCreditId
      let lines := w.refundLines.filter fun line => line.refundId=refundId
      match ← readCurrentCreditEvidence w db orderId with
      | none => .error (.external "TypeError")
      | some evidence =>
        let frozen ← readFrozen w refundId
        if account.currency≠order.currency then conflict "Restoration currency differs from order"
        else if frozen.any fun frozen => !frozenMatches frozen redeemed lines then
          conflict "Frozen refund unit closure differs from refund lines"
        else
          ensure (frozen.isSome||decide (order.snapshotVersion≠some 2)) .allocation
            "Edited credit refund lacks frozen unit identity"
          let needsPosting := frozen.any fun frozen => frozen.lines.any fun line =>
            line.originalIndexes.any Option.isSome && !evidence.history.any fun row =>
              decide (row.refundId=some refundId) && decide (row.orderLineId=some line.orderLineId)
          match frozen with
          | some frozenReturns =>
            if needsPosting then
              checkFrozen w db order redeemed frozenReturns
              restoreLines w redeemed orderId refundId frozen lines [] account db
            else restoreLines w redeemed orderId refundId frozen lines [] account db
          | none => restoreLines w redeemed orderId refundId none lines [] account db

def reservedIndexes (w : World) (redeemed : CreditTransaction) (line : String)
    (history : List CreditTransaction) (admitted : List String) :
    List RefundRow → ServiceResult (List Int)
  | [] => .ok []
  | refund::refunds => do
    if refund.id∈admitted then reservedIndexes w redeemed line history admitted refunds
    else
      let frozen ← match w.unitReturns refund.id with
        | .ok frozen => .ok frozen
        | .error _ => throwCredit .allocation "Refund reservation requires reconciliation"
      let own ← match frozen with
        | some frozen =>
          if frozen.redemptionId≠redeemed.id then
            throwCredit .allocation "Refund reservation redemption differs"
          else .ok ((frozen.lines.filter fun unit => unit.orderLineId=line).flatMap
            fun unit => unit.originalIndexes.filterMap id)
        | none =>
          let lines := w.refundLines.filter fun row =>
            decide (row.refundId=refund.id)&&decide (row.orderLineId=line)
          let restored := history.filter fun row =>
            decide (row.refundId=some refund.id)&&decide (row.orderLineId=some line)
          match lines, restored with
          | [],_ => .ok []
          | [returned],[row] =>
            if refund.state=.settled∧row.quantity=some returned.quantity then .ok []
            else throwCredit .allocation "Unmapped refund reserves returned units"
          | _, _ => throwCredit .allocation "Unmapped refund reserves returned units"
      let more ← reservedIndexes w redeemed line history admitted refunds
      return own++more

/-- Request to restore credit by hand. -/
structure RestoreManualInput where
  (accountId orderId orderLineId : String)
  (quantity expectedCents : Int)
  operator : OperatorInput

section
variable (w : World) (order : OrderRow) (redeemed : CreditTransaction) (input : RestoreManualInput)

def manualIndexes (db : CreditLedger) : ServiceResult (List (Option Int)) := do
  w.anchorCheck db input.orderId
  match ← readCreditFundingEvidence db input.orderId with
  | none => .error (.external "TypeError")
  | some evidence =>
    let state ← fundingResult ""
      (readCreditFundingState evidence.redemption evidence.history true)
    let current ← w.currentPricing db order.id
    let mapping := (current.bind fun pricing =>
        (pricing.sourceRefundUnits.get input.orderLineId).map fun units =>
          units.map SourceUnit.originalIndex) <|>
      (state.remaining.get input.orderLineId).map fun units =>
        (List.range units.length).map fun index => some (index : Int)
    let refunds := w.refunds.filter fun refund =>
      decide (refund.orderId=order.id∧refund.state≠.failed)
    let admitted := (current.map CurrentPricing.admittedLegacyRefundIds).getD []
    let reserved ← reservedIndexes w redeemed input.orderLineId evidence.history admitted refunds
    let returned := ((state.returnedIndexes.get input.orderLineId).getD []).map fun n => (n : Int)
    let free := mapping.map fun units => ((units.filterMap id).filter fun index =>
      decide (index∉returned)&&decide (index∉reserved)).take input.quantity.toNat
    match free with
    | none => throwCredit .allocation "Proven unreserved original return units required"
    | some indexes =>
      ensure (decide ((indexes.length : Int)=input.quantity)) .allocation
        "Proven unreserved original return units required"
      return indexes.map some

/-- Units of a manual return; a repeated request names none. -/
def manualUnits (key : String) (db : CreditLedger) : ServiceResult (Option (List (Option Int))) :=
  match priorOperation db key with
  | some _ => .ok none
  | none => (manualIndexes w order redeemed input db).map some

end

/-- Restore credit by hand. -/
def restoreManual (input : RestoreManualInput) (db : CreditLedger) :
    ServiceResult (CreditTransaction×CreditLedger) := do
  operator input.operator
  lift (assertCents input.expectedCents "Expected restoration" false)
  ensure (decide (1 ≤ input.quantity)) .invalidInput "Positive return quantity required"
  let order ← lockOrder w input.orderId
  if order.id∈w.pendingEdits then
    conflict "Resolve pending order edit before manual credit restoration"
  else
    match ← redemptionForOrder db input.orderId (some input.accountId) with
    | none => throwCredit .missing "No redeemed credit on linked order"
    | some redeemed =>
      assertRedemptionAllocation redeemed
      let account ← lockAccount db input.accountId
      if account.currency≠order.currency then conflict "Restoration currency differs from order"
      else
        let key := "manual:" ++ input.operator.operationKey
        let originalIndexes ← manualUnits w order redeemed input key db
        let (entry,_,db) ← postRestoration w account redeemed {
          orderId := input.orderId
          orderLineId := input.orderLineId
          quantity := input.quantity
          key
          extra := ⟨none,some input.operator.actor,input.operator.reason⟩
          expectedCents := some input.expectedCents
          originalIndexes} db
        match entry with
        | none => throwCredit .allocation "Manual return requires original funded-unit identity"
        | some entry => return (entry,db)

/-- One operation of the service. -/
inductive CreditAction where
  | issue (input : IssueInput)
  | adjust (accountId : String) (delta : Int) (input : OperatorInput)
  | disable (accountId : String) (disabled : Bool) (input : OperatorInput)
  | reserve (input : ReserveInput)
  | redeem (input : RedeemInput)
  | release (orderId : String) (cause : ReleaseCause)
  | postEditCreditFunding (input : EditCreditInput)
  | restoreRefund (orderId refundId : String)
  | restoreManual (input : RestoreManualInput)

/-- Tables after an operation. -/
def runAction (action : CreditAction) (db : CreditLedger) :
    ServiceResult CreditLedger :=
  match action with
  | .issue input => (issue w input db).map Prod.snd
  | .adjust accountId delta input => (adjust w accountId delta input db).map Prod.snd
  | .disable accountId disabled input => (disable w accountId disabled input db).map Prod.snd
  | .reserve input => (reserve w input db).map Prod.snd
  | .redeem input => (redeem w input db).map Prod.snd
  | .release orderId cause => (release w orderId cause db).map Prod.snd
  | .postEditCreditFunding input => (postEditCreditFunding w input db).map Prod.snd
  | .restoreRefund orderId refundId => (restoreRefund w orderId refundId db).map Prod.snd
  | .restoreManual input => (restoreManual w input db).map Prod.snd

/-- One atomic step: a failed operation leaves the tables as they were. -/
def creditStep (db : CreditLedger) (call : World×CreditAction) :
    ServiceResult Unit×CreditLedger :=
  match runAction call.1 call.2 db with
  | .ok next => (.ok (),next)
  | .error failure => (.error failure,db)

end SellRight.CreditRestorations
