import SellRight.FallibleSteps
import SellRight.LegacyTotals

/-!
# Promotion stack

The totals of an order under any number of promotions. Promotions act on single lines,
then on the whole order, then points are taken off and shipping is waived. Every action
adds an adjustment to a line, capped at what the line is worth, and records the change of
the rounded line total. Divisions are exact; every sum and rounding may fail its bounds.
-/

namespace SellRight.PromotionStack

open LegacyTotals (roundHalfUp LineTotals)

inductive PromotionKind where
  | percentage | fixed | freeShipping | accountCredit
  deriving DecidableEq

/-- What a promotion acts on. -/
inductive Scope where
  | order | line
  deriving DecidableEq

/-- What an earlier adjustment came from. -/
inductive AdjustmentKind where
  | item | order
  deriving DecidableEq

/-- Earlier adjustment of a line. -/
structure SignedAdjustment where
  amount : ℤ
  promotionId : Option String
  kind : AdjustmentKind

structure StackLine where
  key : String
  quantity : ℤ
  /-- Quantity when the order was placed. -/
  placedQuantity : ℤ
  unitListPrice : ℤ
  priceIncludesTax : Bool
  taxRateBps : ℤ
  priorAdjustments : List SignedAdjustment

/-- Account a credit is paid from. -/
structure Credit where
  accountId : String
  availableCents : ℤ

/-- Promotion with the facts that decide it. -/
structure ResolvedPromotion where
  id : String
  code : Option String
  kind : PromotionKind
  scope : Scope
  /-- Percentage or cents. -/
  value : ℚ
  (priority sequence : ℤ)
  /-- Shipping is waived as well. -/
  freeShipping : Bool
  /-- Conditions as text. -/
  conditions : String
  credit : Option Credit

/-- Imported surcharge. -/
structure SourceCharge where
  (sourceId sourceDigest : String)
  (net gross : ℤ)

/-- Later charge or credit on the order. -/
structure OrderAdjustment where
  amount : ℤ
  taxable : Bool
  sourceSurcharge : Option SourceCharge

/-- Imported shipping line. -/
structure RetainedLine where
  sourceId : String
  (net gross : ℤ)

/-- New price of an imported shipping line. -/
structure ShippingPricingBasis where
  sourceId : String
  amount : ℤ
  includesTax : Bool
  taxRateBps : ℤ

/-- Lines an imported shipping line carries. -/
structure ShippingCarrier where
  sourceId : String
  methodCode : Option String
  lineKeys : List String

/-- How imported shipping is priced. -/
inductive ShippingMode where
  | keep | revalidatePromotions | recalculateKeepPromotions
  deriving DecidableEq

/-- Shipping of an imported order. -/
structure RetainedShipping where
  sourceDigest : String
  mode : ShippingMode
  lines : List RetainedLine
  repricedBasis : Option (List ShippingPricingBasis)
  carriers : Option (List ShippingCarrier)

/-- Everything the totals depend on. -/
structure StackInput where
  lines : List StackLine
  promotions : List ResolvedPromotion := []
  couponCodes : List String := []
  currency : String
  pricesIncludeTax : Bool
  shipping : ℤ := 0
  shippingTaxRateBps : ℤ := 0
  shippingIncludesTax : Bool
  pointsDiscount : ℤ := 0
  adjustments : Option (List OrderAdjustment) := none
  retainedShipping : Option RetainedShipping := none

/-- Library functions and the conditions of promotions. -/
structure World where
  toLowerCase : String → String
  /-- Whether conditions hold on a subtotal, its net and its gross amount, and why not. -/
  evaluatePromotionConditions : String → ℤ → ℤ → ℤ → Bool×Option String

/-- Discount of a promotion on a line. -/
structure LineAllocation where
  lineKey : String
  /-- Change of the rounded line total. -/
  amount : ℤ
  units : List ℤ
  /-- Adjustment added to the line. -/
  sourceAdjustmentAmount : ℤ
  /-- Requested adjustment by unit, before the cap. -/
  sourceUnits : List ℤ
  (sourceDiscountAmount sourceDiscountAmountWithTax : ℤ)

/-- What a promotion did. -/
structure AppliedPromotion where
  promotionId : String
  kind : PromotionKind
  gross : Bool
  (amount amountWithTax requestedAmount : ℤ)
  /-- Change of imported shipping, net and gross. -/
  shippingAdjustment : Option (ℤ×ℤ)
  lineAllocations : List LineAllocation

/-- Line with its adjustments so far. -/
structure WorkingLine where
  input : StackLine
  adjustments : List ℤ

/-- Rounded amounts of a line. -/
structure Facts where
  (lineNet lineGross unitNet unitGross : ℤ)

structure Amounts where
  (net gross : ℤ)

def Amounts.basis (a : Amounts) (pricesIncludeTax : Bool) : ℤ :=
  if pricesIncludeTax then a.gross else a.net

/-- Largest amount of cents. -/
def maxCents : ℤ := 2147483647

/-- Why no totals are returned. -/
inductive StackError where
  | invalid (message : String)
  /-- "Discount distribution exceeds line basis". -/
  | basisExceeded
  | creditAmountChanged (message : String)
  | creditAllocationInvalid (message : String)

/-- A condition and the message when it fails. -/
abbrev Check := Bool×String

/-- An integer in a range. -/
def integerCheck (value : ℤ) (label : String) (low : ℤ) : Check :=
  (decide (low≤value∧value ≤ maxCents),label ++ " must fit integer cents")

/-- Fail with the message of the first condition that does not hold. -/
def firstError : List Check → Except StackError Unit
  | [] => .ok ()
  | (holds,message)::rest => if holds then firstError rest else .error (.invalid message)

/-- An integer, in its range. -/
def integer (value : ℤ) (label : String) (low : ℤ) : Except StackError ℤ :=
  if low≤value∧value ≤ maxCents then .ok value
  else .error (.invalid (label ++ " must fit integer cents"))

/-- Sum of amounts, in range. -/
def sum (values : List ℤ) : Except StackError ℤ := integer values.sum "Money sum" (-maxCents)

/-- Nearest integer, in range. -/
def rounded (value : ℚ) : Except StackError ℤ :=
  integer (roundHalfUp value) "Rounded money" (-maxCents)

/-- Keep the first of the codes that differ in case only. -/
def dedupeCodes (w : World) (codes : List String) : List String := codes.foldl (fun kept code =>
    if (kept.map w.toLowerCase).contains (w.toLowerCase code) then kept else kept++[code]) []

/-- Coupon codes without duplicates. -/
def canonicalCouponCodes (w : World) (codes : List String) : Except StackError (List String) :=
  if codes.all fun code => decide (0<code.length∧code.length≤255) then .ok (dedupeCodes w codes)
  else .error (.invalid "Invalid coupon code")

def exactShare (amount total : ℤ) (count : ℕ) (weight : ℤ) : ℚ :=
  if total=0 then amount / count else amount*(weight / total)

/-- Distribute a signed amount over weights. -/
def prorateSigned (weights : List ℤ) (amount : ℤ) : Except StackError (List ℤ) := do
  let _ ← integer amount "Proration amount" (-maxCents)
  if weights=[] then
    if amount≠0 then .error (.invalid "Cannot distribute money without units") else .ok []
  else do
    firstError (weights.map fun weight => integerCheck weight "Proration weight" 0)
    let total ← sum weights
    let actual := weights.map (exactShare amount total weights.length)
    let _ ← sum (LargestRemainder.floors actual)
    let shares := LargestRemainder.shares actual (amount : ℚ)
    let given ← sum shares.1
    if shares.2≠0∨given≠amount then .error (.invalid "Signed proration did not conserve money")
    else .ok shares.1

variable (line : WorkingLine)

/-- Units an adjustment is divided by. -/
def WorkingLine.divisor : ℤ :=
  max line.input.placedQuantity line.input.quantity

/-- Unit price after the adjustments. -/
def WorkingLine.list : ℚ := line.input.unitListPrice +
    if line.input.quantity=0 then 0 else (line.adjustments.sum : ℚ) / line.divisor

def factor (taxRateBps : ℤ) : ℚ := 1+taxRateBps / 10000

/-- Net part of an amount of the line. -/
def StackLine.net (l : StackLine) (amount : ℚ) : ℚ :=
  if l.priceIncludesTax then amount / factor l.taxRateBps else amount

/-- Gross part of an amount of the line. -/
def StackLine.gross (l : StackLine) (amount : ℚ) : ℚ :=
  if l.priceIncludesTax then amount else amount*factor l.taxRateBps

/-- Rounded amounts of a line. -/
def facts : Except StackError Facts := do
  let _ ← sum (if line.input.quantity=0 then [] else line.adjustments)
  if line.list<0 then .error .basisExceeded
  else do
    let lineNet ← rounded (line.input.net line.list*line.input.quantity)
    let lineGross ← rounded (line.input.gross line.list*line.input.quantity)
    let unitNet ← rounded (line.input.net line.list)
    let unitGross ← rounded (line.input.gross line.list)
    return ⟨lineNet,lineGross,unitNet,unitGross⟩

def totals (lines : List WorkingLine) : Except StackError Amounts := do
  let all ← lines.mapM facts
  let net ← sum (all.map Facts.lineNet)
  let gross ← sum (all.map Facts.lineGross)
  return ⟨net,gross⟩

/-- Lower-case digits of a digest. -/
def isDigest (text : String) : Bool :=
  decide (text.toList.length=64) &&
    text.toList.all fun ch => ('a' ≤ ch&&ch ≤ 'f')||('0' ≤ ch&&ch ≤ '9')

/-- Checks of new prices of imported shipping. -/
def repricingChecks (s : RetainedShipping) : List Check :=
  if s.repricedBasis=none∧s.mode≠.recalculateKeepPromotions then []
  else
    [(decide (s.mode≠.keep), "Unexpected source shipping repricing basis"),
      (s.repricedBasis.any fun basis => decide (basis.length=s.lines.length),
        "Source shipping repricing basis absent")] ++
      ((s.repricedBasis.getD []).zip s.lines).flatMap fun pair =>
        [(decide (pair.1.sourceId=pair.2.sourceId), "Source shipping repricing identity"),
          integerCheck pair.1.amount "Repriced shipping" (-maxCents),
          integerCheck pair.1.taxRateBps "Repriced shipping tax" 0]

/-- Checks of the carriers of imported shipping. -/
def carrierChecks (keys : List String) :
    List String → List (ShippingCarrier×RetainedLine) → List Check
  | _, [] => []
  | members, (carrier,line)::rest =>
    [(decide (carrier.sourceId=line.sourceId∧carrier.methodCode≠some ""),
        "Source shipping carrier identity"),
      (carrier.lineKeys.all keys.contains&&decide (members++carrier.lineKeys).Nodup,
        "Source shipping carrier membership")] ++
      carrierChecks keys (members++carrier.lineKeys) rest

/-- Checks of imported shipping. -/
def retainedChecks (input : StackInput) (s : RetainedShipping) : List Check :=
  [(isDigest s.sourceDigest&&decide (s.lines.map RetainedLine.sourceId).Nodup,
      "Invalid retained shipping")] ++
    (s.lines.flatMap fun l => [(decide (l.sourceId ≠ ""), "Invalid source shipping identity"),
      integerCheck l.net "Source shipping net" (-maxCents),
      integerCheck l.gross "Source shipping gross" (-maxCents)]) ++
    [integerCheck (s.lines.map RetainedLine.net).sum "Money sum" (-maxCents),
      (decide ((s.lines.map RetainedLine.net).sum=input.shipping),
        "Source shipping total differs")] ++
    repricingChecks s ++
    s.carriers.elim [] fun carriers =>
      (decide (carriers.length=s.lines.length), "Source shipping carrier closure") ::
        carrierChecks (input.lines.map StackLine.key) [] (carriers.zip s.lines)

/-- Checks of the lines after those with the given keys. -/
def lineChecks : List String → List StackLine → List Check
  | _, [] => []
  | keys, line::rest =>
    [(decide (line.key ≠ "" ∧ line.key∉keys), "Line keys must be unique"),
      integerCheck line.quantity "Quantity" 0,
      integerCheck line.placedQuantity "Placed quantity" 0,
      integerCheck line.unitListPrice "Unit price" 0,integerCheck line.taxRateBps "Tax rate" 0,
      integerCheck (line.unitListPrice*line.quantity) "Line price" 0] ++
      line.priorAdjustments.map (fun adjustment =>
        (decide (-maxCents≤adjustment.amount∧adjustment.amount≤0),
          "Prior adjustment must fit integer cents")) ++
      lineChecks (line.key::keys) rest

/-- Checks before the lines. -/
def contextChecks (input : StackInput) : List Check :=
  [(decide (input.currency.toList.length=3)&&input.currency.toList.all Char.isUpper,
      "Invalid pricing context"),
    integerCheck input.shipping "Shipping" (if input.retainedShipping.isSome then -maxCents else 0),
    integerCheck input.shippingTaxRateBps "Shipping tax rate" 0] ++
    input.retainedShipping.elim [] (retainedChecks input)

/-- Checks of the promotions after those with the given ids. -/
def promotionChecks : List String → List ResolvedPromotion → List Check
  | _, [] => []
  | ids, p::rest =>
    [(decide (p.id ≠ "" ∧ p.id∉ids), "Promotion identities must be unique"),
      integerCheck p.priority "Promotion priority" (-maxCents),
      integerCheck p.sequence "Promotion sequence" 0,
      if p.kind=.percentage then (decide (0≤p.value∧p.value≤100), "Invalid percentage")
      else (decide (p.value.den=1∧0≤p.value∧p.value ≤ maxCents),
        "Promotion value must fit integer cents")] ++
      (if p.kind=.accountCredit then
        [(p.credit.isSome&&decide (p.scope=.order), "Credit must be an order action"),
          integerCheck (p.credit.elim 0 Credit.availableCents) "Credit budget" 0]
      else [])++promotionChecks (p.id::ids) rest

/-- Checks of the earlier adjustments. -/
def priorChecks (input : StackInput) : List Check :=
  (input.lines.flatMap StackLine.priorAdjustments).map fun adjustment =>
    (decide ¬ (adjustment.kind=.order ∧
      ∃ id∈input.promotions.map ResolvedPromotion.id, adjustment.promotionId=some id),
      "Current order promotion already present in prior adjustments")

/-- Promotions in the order they act. -/
def sortPromotions (promotions : List ResolvedPromotion) : List ResolvedPromotion :=
  promotions.insertionSort fun a b =>
    a.priority<b.priority∨(a.priority=b.priority∧a.sequence≤b.sequence)

/-- Promotions applied and reasons given so far. -/
structure Ledger where
  applied : List AppliedPromotion := []
  reasons : List (String×String) := []

/-- Give the reason why a promotion was refused. -/
def Ledger.note (ledger : Ledger) (p : ResolvedPromotion) (reason : Option String) : Ledger :=
  {ledger with reasons := (reason.map fun text => (p.id,text)).toList++ledger.reasons}

/-- What every stage reads. -/
structure Pricing where
  world : World
  input : StackInput
  codes : List String
  /-- In the order they act. -/
  promotions : List ResolvedPromotion

/-- The promotion has the code up to case. -/
def World.sameCode (w : World) (code : String) (p : ResolvedPromotion) : Bool :=
  p.code.any fun own => decide (w.toLowerCase own=w.toLowerCase code)

variable (c : Pricing)

/-- Whether a promotion may act, and the reason when one is given. -/
def Pricing.eligible (lines : List WorkingLine) (p : ResolvedPromotion) :
    Except StackError (Bool×Option String) :=
  if p.code.isSome && !c.codes.any fun code => c.world.sameCode code p then .ok (false,none)
  else if p.code.isSome&&decide ((c.promotions.filter fun item =>
      p.code.any fun code => c.world.sameCode code item).length≠1) then
    .ok (false,some "Ambiguous coupon code")
  else if p.kind=.accountCredit∧p.credit.elim 0 Credit.availableCents≤0 then
    .ok (false,some "Credit unavailable")
  else do
    let current ← totals lines
    let check := c.world.evaluatePromotionConditions p.conditions
      (current.basis c.input.pricesIncludeTax) current.net current.gross
    return (check.1,if check.1 then none else some (check.2.getD "Promotion conditions not met"))

/-- Add amounts by unit. -/
def addUnits : List ℤ → List ℤ → Except StackError (List ℤ)
  | [], _ => .ok []
  | unit::units, others => do
    let first ← sum [unit,others.headD 0]
    let rest ← addUnits units others.tail
    return first::rest

/-- Add a discount to the discount on the same line. -/
def LineAllocation.add (existing allocation : LineAllocation) :
    Except StackError LineAllocation := do
  let amount ← sum [existing.amount,allocation.amount]
  let units ← addUnits existing.units allocation.units
  let source ← sum [existing.sourceAdjustmentAmount,allocation.sourceAdjustmentAmount]
  let sourceUnits ← addUnits existing.sourceUnits allocation.sourceUnits
  let discount ← sum [existing.sourceDiscountAmount,allocation.sourceDiscountAmount]
  let withTax ← sum [existing.sourceDiscountAmountWithTax,allocation.sourceDiscountAmountWithTax]
  return ⟨existing.lineKey,amount,units,source,sourceUnits,discount,withTax⟩

/-- Add a discount to those of a promotion. -/
def mergeAllocation : List LineAllocation → LineAllocation → Except StackError (List LineAllocation)
  | [], allocation => .ok [allocation]
  | existing::rest, allocation =>
    if existing.lineKey=allocation.lineKey then do
      let merged ← existing.add allocation
      return merged::rest
    else do
      let others ← mergeAllocation rest allocation
      return existing::others

/-- Add an action to the record of a promotion. -/
def AppliedPromotion.record (entry : AppliedPromotion) (amount requested withTax : ℤ)
    (allocations : List LineAllocation) : Except StackError AppliedPromotion := do
  let amount ← sum [entry.amount,amount]
  let requested ← sum [entry.requestedAmount,requested]
  let withTax ← sum [entry.amountWithTax,withTax]
  let lineAllocations ← allocations.foldlM mergeAllocation entry.lineAllocations
  return {entry with
    amount := amount, requestedAmount := requested, amountWithTax := withTax
    lineAllocations := lineAllocations}

/-- Change the entry of a promotion, or add one. -/
def updateEntry (id : String) (f : AppliedPromotion → Except StackError AppliedPromotion)
    (fresh : AppliedPromotion) : List AppliedPromotion → Except StackError (List AppliedPromotion)
  | [] => do
    let entry ← f fresh
    return [entry]
  | entry::rest =>
    if entry.promotionId=id then do
      let changed ← f entry
      return changed::rest
    else do
      let others ← updateEntry id f fresh rest
      return entry::others

/-- Record an action of a promotion. -/
def Ledger.record (ledger : Ledger) (p : ResolvedPromotion) (gross : Bool)
    (f : AppliedPromotion → Except StackError AppliedPromotion) : Except StackError Ledger := do
  let applied ← updateEntry p.id f ⟨p.id,p.kind,gross,0,0,0,none,[]⟩ ledger.applied
  return {ledger with applied := applied}

/-- Rounded amount of a line on the basis of its price. -/
def StackLine.own (l : StackLine) (f : Facts) : ℤ :=
  if l.priceIncludesTax then f.lineGross else f.lineNet

/-- Rounded amount of a line on the basis of the store. -/
def Facts.channel (f : Facts) (pricesIncludeTax : Bool) : ℤ :=
  if pricesIncludeTax then f.lineGross else f.lineNet

/-- Line with one more adjustment. -/
def WorkingLine.push (adjustment : ℤ) : WorkingLine :=
  if adjustment=0 then line else {line with adjustments := line.adjustments++[adjustment]}

/-- Weights of the units of a line. -/
def WorkingLine.units : List ℤ := List.replicate line.input.quantity.toNat 1

/-- Adjust a line, down to nothing at most, and tell what that took off. -/
def addAdjustment (pricesIncludeTax : Bool) (line : WorkingLine) (requested : ℤ) :
    Except StackError (WorkingLine×LineAllocation) := do
  let before ← facts line
  let adjustment := max (-line.input.own before) requested
  let sourceUnits ← prorateSigned line.units requested
  let after ← facts (line.push adjustment)
  let amount := after.channel pricesIncludeTax-before.channel pricesIncludeTax
  let exposed : ℚ := adjustment*line.input.quantity / line.divisor
  let units ← prorateSigned line.units amount
  let discount ← rounded (line.input.net exposed)
  let withTax ← rounded (line.input.gross exposed)
  return (line.push adjustment,
    ⟨line.input.key,amount,units,adjustment,sourceUnits,discount,withTax⟩)

/-- Adjustment a promotion asks for on a basis. -/
def ResolvedPromotion.requested (p : ResolvedPromotion) (basis fixed : ℤ) : Except StackError ℤ :=
  if p.kind=.percentage then rounded (-basis*p.value/100) else .ok (-fixed)

/-- A promotion acts on a line between others. -/
def Pricing.itemAction (done rest : List WorkingLine) (s : WorkingLine×Ledger)
    (p : ResolvedPromotion) : Except StackError (WorkingLine×Ledger) :=
  if p.scope≠.line∨p.kind=.freeShipping∨s.1.input.quantity=0 then .ok s
  else do
    let verdict ← c.eligible (done++s.1::rest) p
    if verdict.1 then do
      let current ← facts s.1
      let before ← totals (done++s.1::rest)
      let basis := s.1.input.own current
      let requested ← p.requested basis (min p.value.num basis)
      let adjusted ← addAdjustment c.input.pricesIncludeTax s.1 requested
      let after ← totals (done++adjusted.1::rest)
      let ledger ← s.2.record p c.input.pricesIncludeTax fun entry =>
        entry.record adjusted.2.amount requested (after.gross-before.gross) [adjusted.2]
      return (adjusted.1,ledger)
    else .ok (s.1,s.2.note p verdict.2)

/-- Promotions act on line after line. -/
def Pricing.itemStage (c : Pricing) :
    List WorkingLine → List WorkingLine → Ledger → Except StackError (List WorkingLine×Ledger)
  | done, [], ledger => .ok (done,ledger)
  | done, line::rest, ledger => do
    let s ← c.promotions.foldlM (c.itemAction done rest) (line,ledger)
    c.itemStage (done++[s.1]) rest s.2

/-- Gross amounts of the lines with units. -/
def activeGross (lines : List WorkingLine) : Except StackError (List ℤ) := do
  let all ← (lines.filter fun line => 0<line.input.quantity).mapM facts
  return all.map Facts.lineGross

/-- Distribute an amount over the lines with units, if any. -/
def shareOut (weights : List ℤ) (amount : ℤ) : Except StackError (List ℤ) :=
  if weights=[] then .ok [] else prorateSigned weights amount

/-- Adjust the lines with units by the given shares. -/
def adjustActive (pricesIncludeTax : Bool) : List WorkingLine → List ℤ →
    Except StackError (List WorkingLine×List LineAllocation)
  | [], _ => .ok ([],[])
  | line::rest, shares =>
    if 0<line.input.quantity then do
      let adjusted ← addAdjustment pricesIncludeTax line (shares.headD 0)
      let others ← adjustActive pricesIncludeTax rest shares.tail
      return (adjusted.1::others.1,adjusted.2::others.2)
    else do
      let others ← adjustActive pricesIncludeTax rest shares
      return (line::others.1,others.2)

/-- A promotion acts on the order. -/
def Pricing.orderAction (s : List WorkingLine×Ledger) (p : ResolvedPromotion) :
    Except StackError (List WorkingLine×Ledger) :=
  if p.scope≠.order∨p.kind=.freeShipping then .ok s
  else do
    let verdict ← c.eligible s.1 p
    if verdict.1 then do
      let current ← totals s.1
      let basis := current.basis c.input.pricesIncludeTax
      let budget := if p.kind=.accountCredit then p.credit.elim 0 Credit.availableCents
        else p.value.num
      let amount ← p.requested basis (min budget (max 0 basis))
      let weights ← activeGross s.1
      let shares ← shareOut weights amount
      let adjusted ← adjustActive c.input.pricesIncludeTax s.1 shares
      let taken ← sum (adjusted.2.map LineAllocation.amount)
      let after ← totals adjusted.1
      let ledger ← s.2.record p c.input.pricesIncludeTax fun entry =>
        entry.record taken amount (after.gross-current.gross) adjusted.2
      return (adjusted.1,ledger)
    else .ok (s.1,s.2.note p verdict.2)

/-- Take points off the lines and tell what that took off. -/
def Pricing.pointsStage (lines : List WorkingLine) :
    Except StackError (List WorkingLine×ℤ) := do
  let current ← totals lines
  let asked ← integer c.input.pointsDiscount "Points discount" 0
  let points := min asked (current.basis c.input.pricesIncludeTax)
  if points=0 then return (lines,0)
  else do
    let weights ← activeGross lines
    let shares ← prorateSigned weights (-points)
    let adjusted ← adjustActive c.input.pricesIncludeTax lines shares
    let taken ← sum (adjusted.2.map LineAllocation.amount)
    return (adjusted.1,-taken)

/-- Shipping so far. -/
structure ShippingState where
  total : ℤ
  retained : Option (List RetainedLine)
  ledger : Ledger

section
variable (input : StackInput) (total : ℤ) (retained : Option (List RetainedLine))

/-- Gross amount of shipping. -/
def StackInput.shippingGross : Except StackError ℤ :=
  match retained with
  | some lines => sum (lines.map RetainedLine.gross)
  | none => if input.shippingIncludesTax then .ok total
    else rounded (total*factor input.shippingTaxRateBps)

/-- Net amount of shipping. -/
def StackInput.shippingNet : Except StackError ℤ :=
  match retained with
  | some lines => sum (lines.map RetainedLine.net)
  | none => if input.shippingIncludesTax then rounded (total / factor input.shippingTaxRateBps)
    else .ok total

end

/-- Take shipping off the record of a promotion. -/
def AppliedPromotion.waive (entry : AppliedPromotion) (old oldGross : ℤ) (retained : Bool) :
    Except StackError AppliedPromotion := do
  let withTax ← sum [entry.amountWithTax,-oldGross]
  if retained then do
    let net ← sum [entry.shippingAdjustment.elim 0 Prod.fst,-old]
    let gross ← sum [entry.shippingAdjustment.elim 0 Prod.snd,-oldGross]
    return {entry with amountWithTax := withTax, shippingAdjustment := some (net,gross)}
  else return {entry with amountWithTax := withTax}

def Pricing.shippingAction (lines : List WorkingLine) (s : ShippingState)
    (p : ResolvedPromotion) : Except StackError ShippingState :=
  if (c.input.retainedShipping.any fun r => decide (r.mode≠.revalidatePromotions)) ∨
      p.kind≠.freeShipping∧p.freeShipping=false then .ok s
  else do
    let verdict ← c.eligible lines p
    if verdict.1 then do
      let oldGross ← c.input.shippingGross s.total s.retained
      let ledger ← s.ledger.record p c.input.pricesIncludeTax fun entry => do
        let recorded ← entry.record (-s.total) (-s.total) 0 []
        recorded.waive s.total oldGross s.retained.isSome
      return ⟨0,s.retained.map fun all => all.map fun l => {l with net := 0, gross := 0},ledger⟩
    else .ok {s with ledger := s.ledger.note p verdict.2}

/-- Total, tax and tax of source surcharges of the later charges. -/
structure Charges where
  (total tax sourceTax : ℤ)

section
variable (input : StackInput)

/-- Imported surcharges. -/
def StackInput.sourceCharges : List SourceCharge :=
  (input.adjustments.getD []).filterMap OrderAdjustment.sourceSurcharge

/-- Checks of the imported surcharges. -/
def surchargeChecks : List Check :=
  ((input.adjustments.getD []).flatMap fun a => a.sourceSurcharge.elim [] fun s =>
    [(decide (s.sourceId ≠ "")&&isDigest s.sourceDigest, "Invalid source surcharge"),
      integerCheck s.net "Source surcharge net" (-maxCents),
      (decide (s.net=a.amount), "Invalid source surcharge"),
      integerCheck s.gross "Source surcharge gross" (-maxCents)]) ++
    [(decide (input.sourceCharges.map SourceCharge.sourceId).Nodup, "Duplicate source surcharge")]

/-- Tax of the taxable later charges. -/
def StackInput.scalarTax (taxable : ℤ) : Except StackError ℤ :=
  let rate := input.lines.head?.elim 0 StackLine.taxRateBps
  if input.pricesIncludeTax then (rounded (taxable/factor rate)).map fun net => taxable-net
  else rounded (taxable*rate/10000)

/-- Amounts of the later charges. -/
def charges : Except StackError Charges := do
  let all := input.adjustments.getD []
  firstError (all.map fun a => integerCheck a.amount "Order adjustment" (-maxCents))
  let total ← sum (all.map OrderAdjustment.amount)
  let taxable ← sum ((all.filter fun a => a.taxable&&a.sourceSurcharge.isNone).map
    OrderAdjustment.amount)
  let scalar ← input.scalarTax taxable
  firstError (surchargeChecks input)
  let sourceTax ← sum (input.sourceCharges.map fun s => s.gross-s.net)
  let tax ← sum [scalar,sourceTax]
  return ⟨total,tax,sourceTax⟩

end

def entryOf (applied : List AppliedPromotion) (id : String) : Option AppliedPromotion :=
  applied.find? fun entry => decide (entry.promotionId=id)

/-- What became of a coupon code. -/
structure CouponStatus where
  code : String
  promotionId : Option String
  kind : Option PromotionKind := none
  applied : Bool
  appliedAmount : Option ℤ := none
  availableAmount : Option ℤ := none
  remainingAmount : Option ℤ := none
  reason : Option String := none

def Ledger.couponStatus (ledger : Ledger) (code : String) (p : ResolvedPromotion) : CouponStatus :=
  let entry := entryOf ledger.applied p.id
  let discount := entry.elim 0 fun e => -e.amount
  { code := code, promotionId := some p.id, kind := some p.kind, applied := entry.isSome
    appliedAmount := some discount, availableAmount := p.credit.map Credit.availableCents
    remainingAmount := p.credit.map fun credit => max 0 (credit.availableCents-discount)
    reason := if entry.isSome then none
      else some ((ledger.reasons.lookup p.id).getD "Promotion not applicable")}

def Pricing.coupons (ledger : Ledger) : List CouponStatus :=
  c.codes.map fun code => match c.promotions.filter (c.world.sameCode code) with
    | [p] => ledger.couponStatus code p
    | [] => ⟨code,none,none,false,none,none,none,some "Coupon unavailable"⟩
    | _ => ⟨code,none,none,false,none,none,none,some "Ambiguous coupon code"⟩

/-- Merchandise an account credit pays. -/
structure SelectedCredit where
  (accountId promotionId : String)
  appliedAmount : ℤ
  /-- Cents by unit of every line. -/
  allocation : List (String×List ℤ)
  deriving DecidableEq

/-- Source discount on the basis of the store. -/
def LineAllocation.sourceDiscount (a : LineAllocation) (pricesIncludeTax : Bool) : ℤ :=
  if pricesIncludeTax then a.sourceDiscountAmountWithTax else a.sourceDiscountAmount

/-- Cents of a credit by unit of a line. -/
def creditUnits (entry : AppliedPromotion) (line : WorkingLine) :
    Except StackError (String×List ℤ) :=
  let zeros := List.replicate line.divisor.toNat 0
  let units := (entry.lineAllocations.find? fun part =>
    decide (part.lineKey=line.input.key)).elim zeros fun original =>
      if original.sourceAdjustmentAmount≠0 then original.sourceUnits else zeros
  if units.length≠line.divisor.toNat∨∃ unit∈units, 0<unit then
    .error (.creditAllocationInvalid "Credit unit allocation unavailable")
  else .ok (line.input.key,units.map fun unit : ℤ => -unit)

/-- Credit promotion of the first code that has one. -/
def Pricing.selectedPromotion : Option ResolvedPromotion :=
  (c.codes.filterMap fun code => c.promotions.find? fun p =>
    decide (p.kind=.accountCredit)&&c.world.sameCode code p).head?

/-- What a credit promotion pays by its entry. -/
def Pricing.debit (c : Pricing) (lines : List WorkingLine) (p : ResolvedPromotion)
    (entry : AppliedPromotion) (credit : Credit) : Except StackError (Option SelectedCredit) := do
  let discounts ← sum (entry.lineAllocations.map fun a => a.sourceDiscount c.input.pricesIncludeTax)
  if -discounts<1∨credit.availableCents < -discounts then
    .error (.creditAmountChanged "Credit amount changed; remove & reapply coupon")
  else do
    let allocation ← lines.mapM (creditUnits entry)
    let total ← sum (allocation.flatMap Prod.snd)
    if total≠-discounts then
      .error (.creditAllocationInvalid "Credit allocation does not match source debit")
    else return some ⟨credit.accountId,p.id,-discounts,allocation⟩

/-- The account credit that pays for the order. -/
def Pricing.selectedCredit (lines : List WorkingLine)
    (applied : List AppliedPromotion) : Except StackError (Option SelectedCredit) :=
  match c.selectedPromotion with
  | none => .ok none
  | some p => match entryOf applied p.id, p.credit with
    | some entry, some credit => c.debit lines p entry credit
    | _, _ => .ok none

/-- Final facts of a line. -/
structure LineSnapshot where
  lineKey : String
  (quantity proratedUnitPriceWithTax lineNet lineGross sourceAdjustmentTotal : ℤ)
  sourceAdjustmentDivisor : ℤ

/-- Totals of an order. -/
structure PromotionStackTotals where
  lines : List LineTotals
  (subtotal discountTotal shippingTotal taxTotal grandTotal pointsDiscount : ℤ)
  adjustmentTotal : Option ℤ
  coupons : List CouponStatus
  applied : List AppliedPromotion
  lineSnapshots : List LineSnapshot
  selectedCredit : Option SelectedCredit
  retainedShippingFinal : Option (List RetainedLine)
  resolvedPromotions : List ResolvedPromotion

def finalLine : Except StackError (LineTotals×LineSnapshot) := do
  let current ← facts line
  let adjustments ← sum line.adjustments
  let price := line.input.unitListPrice*line.input.quantity
  let total := line.input.own current
  return (⟨line.input.unitListPrice,line.input.quantity,price,price-total,total⟩,
    ⟨line.input.key,line.input.quantity,current.unitGross,current.lineNet,current.lineGross,
      adjustments,line.divisor⟩)

/-- Line before any promotion, with the given adjustments. -/
def StackLine.working (l : StackLine) : WorkingLine :=
  ⟨l,l.priorAdjustments.map SignedAdjustment.amount⟩

/-- Line without adjustments. -/
def StackLine.bare (l : StackLine) : WorkingLine := ⟨l,[]⟩

/-- Promotions act on lines and order, then points do. -/
def Pricing.merchandise : Except StackError (List WorkingLine×Ledger×ℤ) := do
  let items ← c.itemStage [] (c.input.lines.map StackLine.working) {}
  let order ← c.promotions.foldlM c.orderAction items
  let points ← c.pointsStage order.1
  return (points.1,order.2,points.2)

/-- What the order costs, never below zero unless amounts were imported. -/
def StackInput.grandTotal (input : StackInput) (merchandise shipping : ℤ) (extra : Charges) :
    Except StackError ℤ :=
  if input.retainedShipping.isSome∨input.sourceCharges≠[] then
    sum [merchandise,shipping,extra.total,
      if input.pricesIncludeTax then extra.sourceTax else extra.tax]
  else (sum [merchandise,shipping,extra.total,
    if input.pricesIncludeTax then 0 else extra.tax]).map (max 0)

/-- Totals after the merchandise stages. -/
def Pricing.result (before : Amounts) (lines : List WorkingLine) (ledger : Ledger)
    (points : ℤ) : Except StackError PromotionStackTotals := do
  let final ← totals lines
  let s ← c.promotions.foldlM (c.shippingAction lines)
    ⟨c.input.shipping,c.input.retainedShipping.map RetainedShipping.lines,ledger⟩
  let shippingNet ← c.input.shippingNet s.total s.retained
  let shippingGross ← c.input.shippingGross s.total s.retained
  let extra ← charges c.input
  let credit ← c.selectedCredit lines s.ledger.applied
  let snapshots ← lines.mapM finalLine
  let taxTotal ← sum [final.gross-final.net,shippingGross-shippingNet,extra.tax]
  let pit := c.input.pricesIncludeTax
  let grandTotal ← c.input.grandTotal final.gross shippingGross extra
  return {
    lines := snapshots.map Prod.fst, subtotal := before.basis pit
    discountTotal := before.basis pit-final.basis pit
    shippingTotal := s.total, taxTotal := taxTotal, grandTotal := grandTotal
    pointsDiscount := points, adjustmentTotal := c.input.adjustments.map fun _ => extra.total
    coupons := c.coupons s.ledger, applied := s.ledger.applied
    lineSnapshots := snapshots.map Prod.snd, selectedCredit := credit
    retainedShippingFinal := s.retained, resolvedPromotions := c.promotions}

/-- Totals of an order under its promotions. -/
def calculatePromotionStack (w : World) (input : StackInput) :
    Except StackError PromotionStackTotals := do
  firstError (contextChecks input)
  let codes ← canonicalCouponCodes w input.couponCodes
  firstError (lineChecks [] input.lines)
  let before ← totals (input.lines.map StackLine.bare)
  let c : Pricing := ⟨w,input,codes,sortPromotions input.promotions⟩
  firstError (promotionChecks [] c.promotions)
  firstError (priorChecks input)
  let m ← c.merchandise
  c.result before m.1 m.2.1 m.2.2

end SellRight.PromotionStack
