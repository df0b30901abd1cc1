import SellRight.CreditService
import SellRight.PromotionStackAttribution

/-!
# Sezzle sessions

`prepareSezzleSession` derives the tax of a session from the five stored totals
of an order. What it hands over always adds up to the amount, and a priced order
can start a session where the tax left over its prices is in range.
-/

namespace SellRight.SezzleSession

open FallibleSteps List
open PromotionStack hiding World
open PromotionStackSteps PromotionStackStages PromotionStackAttribution
open LegacyTotalsLaws (roundHalfUp_mono roundHalfUp_intCast)

/-- Fields of a stored address. -/
abbrev Fields := String → Option String

structure SessionAddress where
  (name street street2 city state postalCode countryCode : Option String)

/-- Line names and addresses of sites. -/
structure World where
  /-- Protocol, host name, user name and password of a valid URL. -/
  parseUrl : String → Option (String×String×String×String)
  /-- Path under an origin with query parameters. -/
  link : String → String → List (String×String) → String
  encodeURIComponent : String → String
  orderLineLabel : Option String → String → String

/-- Snapshot of an order. -/
structure Snapshot where
  code : String
  receiptToken : Option String
  currency : String
  (grandTotal subtotal discountTotal shippingTotal taxTotal : ℤ)
  contactEmail : Option String
  (shippingAddress billingAddress : Option Fields)

structure Line where
  variantName : String
  productName : Option String
  variantSku : String
  (quantity unitPrice : ℤ)

structure Adjustment where
  label : String
  amount : ℤ

structure Customer where
  email : String
  (firstName lastName : Option String)

structure Account where
  storeId : String
  isTest : Bool

structure SessionInput where
  order : Snapshot
  lines : List Line
  account : Account
  amount : ℤ
  attemptId : String
  storefrontUrl : Option String
  /-- The balance of an edited order is paid. -/
  balance : Bool
  adjustments : Option (List Adjustment)
  customer : Option Customer

structure Item where
  (name sku : String)
  (quantity price : ℤ)
  currency : String

structure Session where
  gateway : Account
  (attemptId orderCode : String)
  amount : ℤ
  (currency completeUrl cancelUrl : String)
  (description discountLabel : Option String)
  email : String
  (firstName lastName : Option String)
  (shippingAddress billingAddress : SessionAddress)
  items : List Item
  (shipping tax discount : ℤ)

def isSafeInteger (n : ℤ) : Bool := decide (-9007199254740991≤n∧n≤9007199254740991)

def check (holds : Bool) (message : String) : Except String Unit :=
  if holds then .ok () else .error message

variable {α : Type}

/-- A value that is there. -/
def require (value : Option α) (message : String) : Except String α :=
  value.elim (.error message) .ok

def present (text : Option String) : Option String := text.filter fun t => t≠""

def address (value : Option Fields) : SessionAddress :=
  let a := value.getD fun _ => none
  ⟨a "fullName",(a "line1").or (a "streetLine1"),(a "line2").or (a "streetLine2"),a "city",
    a "province",a "postalCode",(a "country").or (a "countryCode")⟩

/-- A site that may be returned to. -/
def originAllowed (isTest : Bool) : String×String×String×String → Bool
  | (protocol,hostname,username,password) =>
    (protocol="https:"||
      (isTest&&decide (protocol="http:")&&["localhost","127.0.0.1"].contains hostname)) &&
      decide (username=""∧password="")

def lineItem (w : World) (currency : String) (line : Line) : Except String Item := do
  check (isSafeInteger line.quantity&&isSafeInteger line.unitPrice &&
    decide (0<line.quantity∧0≤line.unitPrice)) "Invalid order line"
  return ⟨w.orderLineLabel line.productName line.variantName,line.variantSku,line.quantity,
    line.unitPrice,currency⟩

/-- Price of all units of the items. -/
def itemTotal (items : List Item) : ℤ := (items.map fun item => item.price*item.quantity).sum

def adjustmentTotal (adjustments : List Adjustment) : ℤ := (adjustments.map Adjustment.amount).sum

/-- Tax that the stored totals leave. -/
def residualTax (order : Snapshot) (subtotal adjustment : ℤ) : ℤ :=
  order.grandTotal-(subtotal-order.discountTotal+order.shippingTotal+adjustment)

/-- The items cost the subtotal and the tax is in range. -/
def reconciled (order : Snapshot) (subtotal tax : ℤ) : Bool :=
  decide (subtotal=order.subtotal∧0≤tax∧tax≤order.taxTotal)&&isSafeInteger tax

/-- Validate everything local before money can move. -/
def prepareSezzleSession (w : World) (input : SessionInput) : Except String Session := do
  let order := input.order
  let adjustments := input.adjustments.getD []
  check (adjustments.all fun a => isSafeInteger a.amount) "Invalid order adjustment"
  let site ← require (present input.storefrontUrl) "Storefront URL required"
  let origin ← require (w.parseUrl site) "Invalid URL"
  check (originAllowed input.account.isTest origin) "Invalid storefront URL"
  let email ← require ((present order.contactEmail).or
    (present (input.customer.map Customer.email))) "Customer email required"
  check (CreditService.isEmail email) "Customer email required"
  let token ← require (present order.receiptToken) "Invalid payment context"
  check (decide (order.currency="USD"∧0 < input.amount∧input.amount ≤ order.grandTotal) &&
    isSafeInteger input.amount) "Invalid payment context"
  let path := "/orders/"++w.encodeURIComponent order.code
  let lineItems ← (input.lines.filter fun line => line.quantity≠0).mapM (lineItem w order.currency)
  let subtotal := itemTotal lineItems
  let tax := residualTax order subtotal (adjustmentTotal adjustments)
  check (reconciled order subtotal tax) "Order totals do not reconcile"
  let items := lineItems++(adjustments.filter fun a => 0<a.amount).map fun a =>
    ⟨a.label,"adjustment",1,a.amount,order.currency⟩
  check (!items.isEmpty) "Invalid payment context"
  let credits := -adjustmentTotal (adjustments.filter fun a => a.amount<0)
  return {
    gateway := input.account, attemptId := input.attemptId, orderCode := order.code
    amount := input.amount, currency := order.currency
    completeUrl := w.link site (if input.balance then path
      else "/checkout/confirmation/"++w.encodeURIComponent order.code)
      ([("rt",token)]++(if input.balance then [("pay","balance")] else []) ++
        [("paymentAttempt",input.attemptId)])
    cancelUrl := if input.balance then w.link site path [("rt",token),("pay","balance")]
      else w.link site "/checkout" []
    description := if input.balance then some ("Order "++order.code++" balance") else none
    discountLabel := if input.balance then some "Previously paid" else none
    email := email, firstName := input.customer.bind Customer.firstName
    lastName := input.customer.bind Customer.lastName
    shippingAddress := address order.shippingAddress
    billingAddress := address (order.billingAddress.orElse fun _ => order.shippingAddress)
    items := items, shipping := order.shippingTotal, tax := tax
    discount := order.discountTotal+credits+order.grandTotal-input.amount}

/-- The session charges the amount for something, with a tax up to the stored one. -/
def AddsUp (input : SessionInput) (s : Session) : Prop :=
  itemTotal s.items+s.shipping+s.tax-s.discount=input.amount∧s.items≠[] ∧
    0 ≤ s.tax ∧ s.tax ≤ input.order.taxTotal

/-- The totals leave a tax between nothing and the stored one. -/
def Reconciles (input : SessionInput) : Prop :=
  (input.lines.map fun l => l.unitPrice*l.quantity).sum=input.order.subtotal ∧
  let tax := residualTax input.order input.order.subtotal
    (adjustmentTotal (input.adjustments.getD []))
  0≤tax∧tax ≤ input.order.taxTotal∧tax ≤ maxCents

/-- Returns a value with `P`, and otherwise names the totals only if they do not reconcile. -/
abbrev Prepares (input : SessionInput) (P : α → Prop) (run : Except String α) : Prop :=
  Meets (fun e => Reconciles input∧e="Order totals do not reconcile") P run

variable {input : SessionInput}

section
variable {message : String} (hmes : message≠"Order totals do not reconcile")
include hmes

theorem check_prepares (holds : Bool) :
    Prepares input (fun _ => holds=true) (check holds message) := by
  unfold check
  cases holds
  · exact .error fun h => hmes h.2
  · exact .ok rfl

theorem require_prepares (value : Option α) :
    Prepares input (fun _ => True) (require value message) := by
  unfold require
  cases value
  · exact .error fun h => hmes h.2
  · exact .ok trivial

end

theorem check_reconciled {holds : Bool} (h : Reconciles input→holds=true) :
    Prepares input (fun _ => holds=true) (check holds "Order totals do not reconcile") := by
  unfold check
  cases holds
  · exact .error fun hrec => Bool.false_ne_true (h hrec.1)
  · exact .ok rfl

/-- Lines without units cost nothing. -/
theorem sum_filter_quantity (lines : List Line) :
    ((lines.filter fun l => l.quantity≠0).map fun l => l.unitPrice*l.quantity).sum =
      (lines.map fun l => l.unitPrice*l.quantity).sum := by
  induction lines with
  | nil => rfl
  | cons l _ ih =>
    by_cases hz : l.quantity=0
    · rw [filter_cons_of_neg (by simpa using hz),ih,map_cons,sum_cons,hz,mul_zero,zero_add]
    · rw [filter_cons_of_pos (by simpa using hz),map_cons,map_cons,sum_cons,sum_cons,ih]

theorem forall₂_itemTotal {lines : List Line} {items : List Item} (h : Forall₂ (fun l item =>
      item.price*item.quantity=l.unitPrice*l.quantity) lines items) :
    itemTotal items=(lines.map fun l => l.unitPrice*l.quantity).sum := by
  unfold itemTotal
  induction h with
  | nil => rfl
  | cons h _ ih => rw [map_cons,map_cons,sum_cons,sum_cons,h,ih]

/-- Charges and credits make up the adjustments. -/
theorem adjustmentTotal_split (adjustments : List Adjustment) : adjustmentTotal adjustments =
    adjustmentTotal (adjustments.filter fun a => 0<a.amount) +
      adjustmentTotal (adjustments.filter fun a => a.amount<0) := by
  unfold adjustmentTotal
  induction adjustments with
  | nil => rfl
  | cons a _ ih =>
    rcases lt_trichotomy a.amount 0 with h|h|h
    · simp [h,h.le.not_gt,ih,add_left_comm]
    · simp [h,ih]
    · simp [h,h.le.not_gt,ih,add_assoc]

theorem prepareSezzleSession_prepares (w : World) (input : SessionInput) :
    Prepares input (AddsUp input) (prepareSezzleSession w input) := by
  unfold prepareSezzleSession
  dsimp only
  refine (check_prepares (by decide) _).bind fun _ _ => ?_
  refine (require_prepares (by decide) _).bind fun site _ => ?_
  refine (require_prepares (by decide) _).bind fun origin _ => ?_
  refine (check_prepares (by decide) _).bind fun _ _ => ?_
  refine (require_prepares (by decide) _).bind fun email _ => ?_
  refine (check_prepares (by decide) _).bind fun _ _ => ?_
  refine (require_prepares (by decide) _).bind fun token _ => ?_
  refine (check_prepares (by decide) _).bind fun _ _ => ?_
  refine (Meets.mapM (R := fun l item => item.price*item.quantity=l.unitPrice*l.quantity)
    fun l _ => ?_).bind fun lineItems hite => ?_
  · unfold lineItem
    exact (check_prepares (by decide) _).bind fun _ _ => .ok rfl
  have hsub : itemTotal lineItems=(input.lines.map fun l => l.unitPrice*l.quantity).sum :=
    (forall₂_itemTotal hite).trans (sum_filter_quantity _)
  rw [hsub]
  refine (check_reconciled fun hrec => ?_).bind fun _ htax => ?_
  · obtain ⟨hsum,hlow,htop,hmax⟩ := hrec
    unfold maxCents at hmax
    rw [hsum]
    exact Bool.and_eq_true_iff.mpr ⟨decide_eq_true ⟨rfl,hlow,htop⟩,decide_eq_true (by omega)⟩
  refine (check_prepares (show "Invalid payment context"≠_ by decide) _).bind fun _ hem => .ok ?_
  obtain ⟨-,hlow,htop⟩ := of_decide_eq_true (Bool.and_eq_true_iff.mp htax).1
  refine ⟨?_,?_,hlow,htop⟩
  · have hspl := adjustmentTotal_split (input.adjustments.getD [])
    have hpos : ∀ as : List Adjustment, itemTotal (as.map fun a =>
        ⟨a.label,"adjustment",1,a.amount,input.order.currency⟩)=adjustmentTotal as := fun as => by
      simp only [itemTotal,adjustmentTotal,map_map,Function.comp_def,mul_one]
    have happ : ∀ xs ys, itemTotal (xs++ys)=itemTotal xs+itemTotal ys := fun xs ys => by
      rw [itemTotal,map_append,sum_append]
      rfl
    dsimp only
    rw [happ,hpos,hsub,residualTax]
    omega
  · intro h
    rw [isEmpty_iff.mpr h] at hem
    cases hem

theorem channel_bare {l : StackLine} {pricesIncludeTax : Bool}
    (hbas : l.priceIncludesTax=pricesIncludeTax) :
    channel pricesIncludeTax l.bare=l.unitListPrice*l.quantity := by
  have hlis : l.bare.list=l.unitListPrice := by
    simp [WorkingLine.list,StackLine.bare]
  unfold channel lineNet lineGross
  rw [hlis,← roundHalfUp_intCast (l.unitListPrice*l.quantity),Int.cast_mul]
  cases pricesIncludeTax <;> simp [StackLine.bare,StackLine.net,StackLine.gross,hbas]

/-- The order has the totals, lines and later charges that were priced. -/
structure Priced (stack : StackInput) (r : PromotionStackTotals) (input : SessionInput) :
    Prop where
  subtotal : input.order.subtotal=r.subtotal
  discount : input.order.discountTotal=r.discountTotal
  shipping : input.order.shippingTotal=r.shippingTotal
  tax : input.order.taxTotal=r.taxTotal
  grand : input.order.grandTotal=r.grandTotal
  positive : 0<r.grandTotal
  lines : input.lines.map (fun l => l.unitPrice*l.quantity) =
    stack.lines.map fun l => l.unitListPrice*l.quantity
  adjustments : (input.adjustments.getD []).map Adjustment.amount =
    (stack.adjustments.getD []).map OrderAdjustment.amount
  basis : ∀ l∈stack.lines, l.priceIncludesTax=stack.pricesIncludeTax
  shippingBasis : stack.shippingIncludesTax=stack.pricesIncludeTax
  retained : stack.retainedShipping=none

/-- The tax priced on top of the prices is in range: all of it, or the part of
imported surcharges where the prices include the rest. -/
def TaxLeft (stack : StackInput) (r : PromotionStackTotals) : Prop :=
  if stack.pricesIncludeTax then 0 ≤ surchargeTax stack∧surchargeTax stack ≤ r.taxTotal
  else 0 ≤ r.taxTotal

variable {r : PromotionStackTotals}

/-- The tax left is the one priced on top of the prices. -/
theorem Priced.reconciles {w : PromotionStack.World} {stack : StackInput} (h : Priced stack r input)
    (hrun : calculatePromotionStack w stack=.ok r) (hlft : TaxLeft stack r) :
    Reconciles input := by
  obtain ⟨codes,-,hatt⟩ := (calculatePromotionStack_returns False w stack
    fun _ _ => False.elim).1 r hrun
  have hadj := hatt.adjustment
  have htop := hatt.cents
  have hdue : r.grandTotal=amountDue stack r := by
    have hpos := h.positive
    have hdue : r.grandTotal=
        if stack.sourceCharges=[] then max 0 (amountDue stack r) else amountDue stack r :=
      hatt.due h.retained h.shippingBasis
    split at hdue
    · omega
    · exact hdue
  have hres : residualTax input.order input.order.subtotal
      (adjustmentTotal (input.adjustments.getD [])) =
        if stack.pricesIncludeTax then surchargeTax stack else r.taxTotal := by
    rw [residualTax,adjustmentTotal,h.adjustments,h.subtotal,h.discount,h.shipping,h.grand,hdue,
      amountDue]
    dsimp only at hadj
    omega
  refine ⟨?_,?_⟩
  · rw [h.lines,h.subtotal,hatt.subtotal,channelTotal,map_map]
    exact congrArg List.sum (map_congr_left fun l hl => (channel_bare (h.basis l hl)).symm)
  dsimp only
  rw [hres,h.tax]
  unfold TaxLeft at hlft
  cases hinc : stack.pricesIncludeTax with
  | true =>
    rw [hinc,if_pos rfl] at hlft
    simp only [if_true]
    omega
  | false =>
    rw [hinc,if_neg Bool.false_ne_true] at hlft
    simp only [Bool.false_eq_true,if_false]
    omega

/-- A session always adds up, and a priced order reconciles where the tax left
over its prices is in range. -/
theorem session_adds_up (w : World) (input : SessionInput) :
    (∀ s, prepareSezzleSession w input=.ok s → AddsUp input s) ∧
      ∀ (pricing : PromotionStack.World) (stack : StackInput) (r : PromotionStackTotals),
        calculatePromotionStack pricing stack=.ok r→Priced stack r input→TaxLeft stack r →
          prepareSezzleSession w input≠.error "Order totals do not reconcile" := by
  have hpre := prepareSezzleSession_prepares w input
  exact ⟨hpre.1,fun _ _ _ hrun hpri hlft her => hpre.2 _ her ⟨hpri.reconciles hrun hlft,rfl⟩⟩

/-- Site whose links are their paths. -/
def site : World := ⟨fun _ => some ("https:","shop.test","",""),fun _ path _ => path,id,fun _ => id⟩

/-- Session of a whole priced order. -/
def sessionFor (stack : StackInput) (r : PromotionStackTotals) : SessionInput where
  order := ⟨"A1",some "rt","USD",r.grandTotal,r.subtotal,r.discountTotal,r.shippingTotal,
    r.taxTotal,some "ada@shop.test",none,none⟩
  lines := stack.lines.map fun l => ⟨l.key,none,l.key,l.quantity,l.unitListPrice⟩
  account := ⟨"store",false⟩
  amount := r.grandTotal
  attemptId := "attempt"
  storefrontUrl := some "https://shop.test"
  balance := false
  adjustments := stack.adjustments.map fun all => all.map fun a => ⟨"fee",a.amount⟩
  customer := none

/-- A taxed line, an untaxed one and a later charge. -/
def adjustedOrder (adjustment : ℤ) : StackInput where
  lines := [⟨"cup",1,1,100,false,1000,[]⟩,⟨"pot",1,1,1000,false,0,[]⟩]
  currency := "USD"
  pricesIncludeTax := false
  shippingIncludesTax := false
  adjustments := some [⟨adjustment,true,none⟩]

theorem priced_sessionFor {adjustment : ℤ} (hpos : 0<r.grandTotal) :
    Priced (adjustedOrder adjustment) r (sessionFor (adjustedOrder adjustment) r) :=
  ⟨rfl,rfl,rfl,rfl,rfl,hpos,rfl,rfl,by simp [adjustedOrder],rfl,rfl⟩

/-- A taxable credit of fifty takes five off a tax of ten, and the session starts. -/
theorem session_adds_up_credit :
    (calculatePromotionStack plain (adjustedOrder (-50))).toOption.any (fun r =>
      (prepareSezzleSession site (sessionFor (adjustedOrder (-50)) r)).toOption.any fun s =>
        decide (s.tax=5))=true ∧
    ∀ r, calculatePromotionStack plain (adjustedOrder (-50))=.ok r→0<r.grandTotal →
      prepareSezzleSession site (sessionFor (adjustedOrder (-50)) r) ≠
        .error "Order totals do not reconcile" := by
  have htax : (calculatePromotionStack plain (adjustedOrder (-50))).toOption.any (fun r =>
      decide (0≤r.taxTotal))=true := by decide +kernel
  refine ⟨by decide +kernel,fun r hrun hpos => ?_⟩
  rw [hrun] at htax
  exact (session_adds_up site _).2 plain (adjustedOrder (-50)) r hrun (priced_sessionFor hpos)
    (show 0≤r.taxTotal from of_decide_eq_true htax)

/-- A taxable credit takes the tax below zero, and no session is started. -/
theorem session_refused_credit : ∃ r, calculatePromotionStack plain (adjustedOrder (-500))=.ok r ∧
    Priced (adjustedOrder (-500)) r (sessionFor (adjustedOrder (-500)) r)∧0<r.grandTotal ∧
    (prepareSezzleSession site (sessionFor (adjustedOrder (-500)) r)).map (fun _ => ()) =
      .error "Order totals do not reconcile" := by
  have hall : (calculatePromotionStack plain (adjustedOrder (-500))).toOption.any (fun r =>
      decide (0<r.grandTotal ∧
        (prepareSezzleSession site (sessionFor (adjustedOrder (-500)) r)).map (fun _ => ()) =
          .error "Order totals do not reconcile"))=true := by decide +kernel
  cases hrun : calculatePromotionStack plain (adjustedOrder (-500)) with
  | error =>
    rw [hrun] at hall
    cases hall
  | ok r =>
    rw [hrun] at hall
    obtain ⟨hpos,her⟩ := of_decide_eq_true hall
    exact ⟨r,rfl,priced_sessionFor hpos,hpos,her⟩

end SellRight.SezzleSession
