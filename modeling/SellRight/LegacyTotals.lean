import SellRight.LargestRemainder

/-!
# Legacy totals

The totals of an order with at most one promotion. Amounts are integer cents;
divisions are exact and every rounding is the one of the source.
-/

namespace SellRight.LegacyTotals

structure CartLineInput where
  (unitPrice quantity : ℤ)

/-- What a promotion takes off. -/
inductive PromotionType where
  | percentage | fixed | freeShipping
  deriving DecidableEq

/-- Promotion on an order. -/
structure Promotion where
  type : PromotionType
  value : ℚ
  freeShipping : Bool

/-- Later charge or credit on an order. -/
structure Adjustment where
  amount : ℚ
  taxable : Bool

/-- Everything the totals depend on. -/
structure TotalsInput where
  lines : List CartLineInput
  (shipping taxRate : ℤ)
  shippingTaxable : Bool := false
  shippingTaxRate : Option ℤ := none
  shippingTaxInclusive : Option Bool := none
  taxInclusive : Bool := false
  promotion : Option Promotion := none
  pointsDiscount : Option ℚ := none
  adjustments : Option (List Adjustment) := none

structure LineTotals where
  (unitPrice quantity lineSubtotal lineDiscount lineTotal : ℤ)

structure OrderTotals where
  lines : List LineTotals
  (subtotal discountTotal shippingTotal taxTotal grandTotal pointsDiscount : ℤ)
  adjustmentTotal : Option ℤ

/-- Round to the nearest integer, up on a tie. -/
def roundHalfUp (x : ℚ) : ℤ := ⌊x+1 / 2⌋

/-- Drop the fractional part. -/
def trunc (x : ℚ) : ℤ := if 0≤x then ⌊x⌋ else ⌈x⌉

/-- Distribute a target over weights. -/
def distributeLargestRemainder (target : ℚ) (weights : List ℤ) : List ℤ :=
  if target≤0∨weights=[] then weights.map fun _ => 0
  else if weights.sum≤0 then weights.map fun _ => 0
  else (LargestRemainder.shares
    (weights.map fun w : ℤ => (w : ℚ) / (weights.sum : ℤ)*target) target).1

/-- Price of a line without discounts. -/
def CartLineInput.subtotal (l : CartLineInput) : ℤ := l.unitPrice*l.quantity

variable (promotion : Option Promotion)

/-- Percentage that is applied. -/
def percent : ℚ :=
  match promotion with
  | none => 0
  | some promo => if promo.type=.percentage then min 100 (max 0 promo.value) else 0

/-- Discount of the promotion on each line. -/
def promotionDiscounts (subtotals : List ℤ) : List ℤ :=
  match promotion with
  | none => subtotals.map fun _ => 0
  | some promo =>
    if promo.type=.percentage∧0<percent promotion then
      subtotals.map fun s : ℤ => roundHalfUp (s*percent promotion / 100)
    else if promo.type=.fixed then
      distributeLargestRemainder (min promo.value (subtotals.sum : ℤ)) subtotals
    else subtotals.map fun _ => 0

/-- Cents of points that are used on what the promotion left. -/
def pointsApplied (points : Option ℚ) (remaining : ℤ) : ℤ :=
  min (max 0 ⌊points.getD 0⌋) (max 0 remaining)

/-- What a list of discounts leaves of each line. -/
def afterDiscounts (subtotals discounts : List ℤ) : List ℤ := List.zipWith (· - ·) subtotals discounts

/-- Points on each line. -/
def pointShares (points : Option ℚ) (afterPromo : List ℤ) : List ℤ :=
  if 0<pointsApplied points afterPromo.sum then
    distributeLargestRemainder (pointsApplied points afterPromo.sum : ℤ) afterPromo
  else afterPromo.map fun _ => 0

def lineDiscounts (input : TotalsInput) : List ℤ :=
  let subtotals := input.lines.map CartLineInput.subtotal
  let promo := promotionDiscounts input.promotion subtotals
  List.zipWith (· + ·) promo (pointShares input.pointsDiscount (afterDiscounts subtotals promo))

def lineTotals (l : CartLineInput) (lineDiscount : ℤ) : LineTotals :=
  ⟨l.unitPrice,l.quantity,l.subtotal,lineDiscount,l.subtotal-lineDiscount⟩

/-- Tax on a base: inside of it when inclusive, on top otherwise. -/
def taxOn (inclusive : Bool) (base rate : ℤ) : ℤ :=
  if rate≤0 then 0
  else if inclusive then base-roundHalfUp (base*10000 / (10000+rate))
  else roundHalfUp (base*rate / 10000)

def waivesShipping : Bool :=
  promotion.any fun promo => decide (promo.type=.freeShipping)||promo.freeShipping

section
variable (input : TotalsInput)

/-- Shipping that is charged. -/
def shippingTotal : ℤ :=
  if waivesShipping input.promotion then 0 else input.shipping

/-- Sum of the adjustments, all or the taxable ones. -/
def adjustmentSum (all : Bool) : ℤ :=
  ((input.adjustments.getD []).map fun x => if all||x.taxable then trunc x.amount else 0).sum

/-- Tax and total before the floor, of the discounted merchandise. -/
def taxAndTotal (discountedSubtotal : ℤ) : ℤ×ℤ :=
  let shipping := shippingTotal input
  let itemBase := discountedSubtotal+adjustmentSum input false
  let plain := discountedSubtotal+shipping+adjustmentSum input true
  match input.shippingTaxRate with
  | none =>
    let tax := taxOn input.taxInclusive (itemBase+if input.shippingTaxable then shipping else 0)
      input.taxRate
    (tax,plain+if input.taxInclusive then 0 else tax)
  | some rate =>
    let itemTax := taxOn input.taxInclusive itemBase input.taxRate
    let inclusive := input.shippingTaxInclusive.getD input.taxInclusive
    let shippingTax := taxOn inclusive shipping rate
    (itemTax+shippingTax,
      plain+(if input.taxInclusive then 0 else itemTax)+if inclusive then 0 else shippingTax)

def calculateOrderTotals : OrderTotals :=
  let subtotals := input.lines.map CartLineInput.subtotal
  let promo := promotionDiscounts input.promotion subtotals
  let lines := List.zipWith lineTotals input.lines (lineDiscounts input)
  let discountTotal := (lines.map LineTotals.lineDiscount).sum
  let (taxTotal,grandTotal) := taxAndTotal input (subtotals.sum-discountTotal)
  { lines := lines
    subtotal := subtotals.sum
    discountTotal := discountTotal
    shippingTotal := shippingTotal input
    taxTotal := taxTotal
    grandTotal := max 0 grandTotal
    pointsDiscount := pointsApplied input.pointsDiscount (afterDiscounts subtotals promo).sum
    adjustmentTotal := input.adjustments.map fun _ => adjustmentSum input true}

end

end SellRight.LegacyTotals
