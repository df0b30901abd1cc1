import SellRight.PromotionStack
import SellRight.PromotionUsage

/-!
# Promotion resolver

Which promotions of a store may act on an order. Coupon codes select rows up to case, a
code of several rows selects none, and limits, dates and accounts refuse rows. A payment
may be funded by the first credit of its codes only.
-/

namespace SellRight.PromotionResolver

open PromotionStack

/-- Row of `promotion`. -/
structure PromotionRow extends PromotionUsage.Promotion where
  code : Option String
  kind : PromotionKind
  discountScope : Scope
  value : ℚ
  priority : ℤ
  stackOrder : Option ℤ
  freeShipping : Bool
  conditions : String

/-- Row of `account_credit`. -/
structure CreditRow where
  (id promotionId currency : String)

/-- Tables of one store read here. -/
structure ResolverStore where
  /-- Absent when the store is. -/
  currency : Option String
  orderCurrency : String → Option String
  usage : PromotionUsage.Store
  promotions : List PromotionRow
  credits : List CreditRow
  /-- Account of the pending hold of an order. -/
  hold : String → Option String

/-- Request to price with the promotions of the store. -/
structure ResolveInput where
  stack : StackInput
  (orderId customerId customerEmail : Option String)
  now : ℤ
  (addingItems payment selectedCreditOnly : Bool)

/-- Library functions, and what accounts offer by code or by promotion. -/
structure ResolverWorld extends World where
  (trim sqlLower : String → String)
  (previewAvailable currentDiscount : String → ℤ)

/-- Only one credit may fund. -/
def ResolveInput.paying (input : ResolveInput) : Bool := input.payment||input.selectedCreditOnly

/-- Rows belong to one store and currency. -/
def storeChecks (db : ResolverStore) (input : ResolveInput) : List Check :=
  [(decide (db.currency=some input.stack.currency),"Pricing currency does not match store"),
    (input.orderId.all fun id => decide (db.orderCurrency id=some input.stack.currency),
      "Pricing order does not match store or currency"),
    (input.customerId.all fun id => db.usage.customers.any fun c => decide (c.id=id),
      "Pricing customer does not match store")]

def isAscii (text : String) : Bool := text.toList.all fun ch => decide (ch.toNat≤127)

variable (w : ResolverWorld)

/-- Automatic promotions and those whose code may be one of the given. -/
def loadRows (db : ResolverStore) (codes : List String) : List PromotionRow :=
  let lowered := codes.flatMap fun code => [w.toLowerCase code,w.toLowerCase (w.trim code)]
  (db.promotions.filter fun row => !codes.all isAscii ||
    row.code.all fun code => lowered.contains (w.sqlLower code) || !isAscii code).insertionSort
      fun a b => a.id≤b.id

/-- The row has the code up to case. -/
def hasCode (code : String) (row : PromotionRow) : Bool :=
  row.code.any fun own => decide (w.toLowerCase own=w.toLowerCase code)

def isCredit (row : PromotionRow) : Bool := decide (row.kind=.accountCredit)

/-- A code that is only that of one credit is taken without spaces around it. -/
def bearerCode (rows : List PromotionRow) (code : String) : String :=
  if rows.any fun row => !isCredit row&&hasCode w code row then code
  else if (rows.filter fun row => isCredit row&&hasCode w (w.trim code) row).length=1 then
    w.trim code
  else code

/-- Account of a credit promotion. -/
def accountOf (db : ResolverStore) (promotionId : String) : Option CreditRow :=
  (db.credits.filter fun account => decide (account.promotionId=promotionId)).getLast?

/-- The first credit among the first rows of the codes. -/
def firstCredit (db : ResolverStore) (rows : List PromotionRow)
    (codes : List String) : Option PromotionRow :=
  (codes.filterMap fun code => (rows.filter (hasCode w code)).head?).find? fun row =>
    isCredit row&&row.enabled&&(accountOf db row.id).isSome

/-- Rows without a code, and the only row of a code. -/
def candidates (rows : List PromotionRow) (codes : List String) :
    List PromotionRow :=
  rows.filter fun row => row.code.all fun own =>
    codes.any (fun code => decide (w.toLowerCase code=w.toLowerCase own)) &&
      decide ((rows.filter (hasCode w own)).length=1)

/-- Text of a reason to refuse a promotion. -/
def reasonText : PromotionUsage.Reason → String
  | .disabled => "Coupon disabled"
  | .notStarted => "Coupon not started"
  | .expired => "Coupon expired"
  | .usageLimitReached => "Coupon usage limit reached"
  | .customerLimitReached => "Customer coupon usage limit reached"

/-- Text of the reason to refuse a row, from its dates and limits. -/
def rowReason (db : ResolverStore) (input : ResolveInput) (row : PromotionRow) :
    Except StackError (Option String) :=
  match PromotionUsage.couponReason db.usage
      ⟨input.orderId,input.customerId,input.customerEmail,input.now,[]⟩ row.toPromotion with
  | .ok reason => .ok (reason.map reasonText)
  | .error (.invalid label) => .error (.invalid ("Invalid "++label))
  | .error .unknownOrder => .error (.invalid "")

section
variable (w : ResolverWorld)

/-- What the account of a credit promotion may fund. -/
def availableCents (input : ResolveInput) (first : Option PromotionRow)
    (row : PromotionRow) (code : String) (reason : Option String) : ℤ :=
  if reason=none∧(input.paying=false∨first.any fun f => decide (f.id=row.id)) then
    if input.addingItems||input.paying then w.previewAvailable code
    else w.currentDiscount row.id
  else 0

/-- Account and budget of a credit promotion, and the reason to refuse the row. -/
def creditFacts (db : ResolverStore) (input : ResolveInput)
    (first : Option PromotionRow) (row : PromotionRow) (reason : Option String) :
    Except StackError (Option Credit×Option String) :=
  if row.kind≠.accountCredit then .ok (none,reason)
  else match accountOf db row.id, row.code with
  | some account, some code =>
    if account.currency≠input.stack.currency∨code="" then .ok (none,some "Credit unavailable")
    else
      let cents := availableCents w input first row code reason
      if 0≤cents∧cents ≤ maxCents then
        .ok (some ⟨account.id,cents⟩,if cents=0 then some (reason.getD "Credit unavailable") else reason)
      else .error (.invalid "Invalid credit budget")
  | _, _ => .ok (none,some "Credit unavailable")

/-- Status of the code of a refused row. -/
def refusedStatus (codes : List String) (row : PromotionRow)
    (credit : Option Credit) (reason code : String) : CouponStatus where
  code := (codes.find? fun asked => decide (w.toLowerCase asked=w.toLowerCase code)).getD code
  promotionId := some row.id
  kind := some row.kind
  applied := false
  appliedAmount := some 0
  availableAmount := credit.map Credit.availableCents
  remainingAmount := credit.map Credit.availableCents
  reason := some reason

/-- A candidate as a promotion that may act, or the status of its code. -/
def resolveRow (db : ResolverStore) (input : ResolveInput)
    (codes : List String) (first : Option PromotionRow) (sequence : ℕ) (row : PromotionRow) :
    Except StackError (Option ResolvedPromotion×Option CouponStatus) := do
  let limits ← rowReason db input row
  let facts ← creditFacts w db input first row limits
  return match facts.2 with
    | some reason => (none,row.code.map (refusedStatus w codes row facts.1 reason))
    | none => (some ⟨row.id,row.code,row.kind,
        if row.kind=.accountCredit then .order else row.discountScope,row.value,row.priority,
        row.stackOrder.getD sequence,row.freeShipping,row.conditions,facts.1⟩,none)

end

/-- Order actions of one priority have an order of their own. -/
def tiesResolved (rows : List PromotionRow) (resolved : List ResolvedPromotion) : Bool :=
  resolved.all fun p => p.scope≠.order ||
    let peers := resolved.filter fun q => decide (q.scope=.order∧q.priority=p.priority)
    decide (peers.length≤1)||(decide (peers.map ResolvedPromotion.sequence).Nodup &&
      peers.all fun q => (rows.find? fun row => decide (row.id=q.id)).any fun row =>
        row.stackOrder.isSome)

/-- Status of a code that selects no row or several. -/
def unmatchedStatus (rows : List PromotionRow) (code : String) :
    Option CouponStatus :=
  let count := (rows.filter (hasCode w code)).length
  if count=1 then none
  else some ⟨code,none,none,false,none,none,none,
    some (if count=0 then "Coupon unavailable" else "Ambiguous coupon code")⟩

/-- Account a payment of the order already holds. -/
def ResolveInput.held (input : ResolveInput) (db : ResolverStore) : Option String :=
  if input.paying then input.orderId.bind db.hold else none

/-- Totals of an order under the promotions of the store. -/
def resolvePromotionStack (db : ResolverStore) (input : ResolveInput) :
    Except StackError PromotionStackTotals := do
  let asked ← canonicalCouponCodes w.toWorld input.stack.couponCodes
  firstError (storeChecks db input)
  let rows := loadRows w db asked
  let codes ← canonicalCouponCodes w.toWorld (asked.map (bearerCode w rows))
  let first := firstCredit w db rows codes
  let own := (first.bind fun row => accountOf db row.id).map CreditRow.id
  if (input.held db).isSome=true∧input.held db≠own then
    .error (.creditAmountChanged "Credit no longer matches this checkout")
  else do
    let outcomes ← ((candidates w rows codes).zipIdx).mapM fun pair =>
      resolveRow w db input codes first pair.2 pair.1
    let resolved := outcomes.filterMap Prod.fst
    firstError [(tiesResolved rows resolved,
      "Promotion stack order is unresolved for tied order actions")]
    let totals ← calculatePromotionStack w.toWorld
      {input.stack with couponCodes := codes, promotions := resolved}
    let unavailable := codes.filterMap (unmatchedStatus w rows)++outcomes.filterMap Prod.snd
    let result := {totals with coupons := totals.coupons.map fun status =>
      ((unavailable.filter fun other => decide (w.toLowerCase other.code=
        w.toLowerCase status.code)).getLast?).getD status}
    if input.paying&&first.isSome&&result.selectedCredit.isNone then
      .error (.creditAmountChanged "Credit amount changed; remove & reapply coupon")
    else return result

end SellRight.PromotionResolver
