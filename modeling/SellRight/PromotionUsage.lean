import SellRight.FallibleSteps
import SellRight.OrderLifecycle
import SellRight.RowTable
import SellRight.RunHistory

/-!
# Usage limits of promotions

A promotion counts its uses in a stored counter that only grows. A use whose
order is cancelled is subtracted again when a limit is checked, by counting
the usage rows of cancelled orders. Deleting an order deletes its usage rows
and leaves the counter. The limit is never passed, and it refuses no use below
it as long as no cancelled order with a use is deleted.
-/

namespace SellRight.PromotionUsage

open FallibleSteps OrderLifecycle RowTable RunHistory List

/-- Columns of a promotion that decide on its availability. -/
structure Promotion where
  id : String
  enabled : Bool
  (startsAt endsAt usageLimit : Option ℤ)
  /-- Allowed uses of one customer, unlimited when absent. -/
  perCustomerUsageLimit : Option ℤ
  usedCount : ℤ
  deriving DecidableEq

/-- Row of the usage table, one for each promotion and order. -/
structure Usage where
  (promotionId orderId : String)
  customerId : Option String
  deriving DecidableEq

/-- Columns of an order read by usage limits. -/
structure Order where
  id : String
  state : OrderState
  contactEmail : Option String

/-- Row of the customer table. -/
structure Customer where
  id : String
  email : Option String

/-- Tables of one store read and written here. -/
structure Store where
  promotions : List Promotion
  usages : List Usage
  orders : List Order
  customers : List Customer

/-- Request to price a cart or an order with promotions. -/
structure ResolveInput where
  (orderId customerId customerEmail : Option String)
  now : ℤ
  /-- Automatic promotions and those selected by the coupon codes. -/
  candidates : List String

/-- Why a promotion is refused. -/
inductive Reason where
  | disabled | notStarted | expired | usageLimitReached | customerLimitReached
  deriving DecidableEq

/-- Why pricing stops. -/
inductive PricingError where
  | invalid (label : String)
  | unknownOrder
  deriving DecidableEq

/-- A stored number, in the range of its column. -/
def nonnegativeInteger (value : ℤ) (label : String) : Except PricingError ℤ :=
  if 0≤value∧value≤2147483647 then .ok value else .error (.invalid label)

def orderCancelled (db : Store) (orderId : String) : Bool :=
  db.orders.any fun o => decide (o.id=orderId∧o.state=.cancelled)

/-- The order that is priced again already used the promotion. -/
def ownUsage (db : Store) (input : ResolveInput) (promotionId : String) : Bool :=
  match input.orderId with
  | none => false
  | some orderId => db.usages.any fun u => decide (u.promotionId=promotionId∧u.orderId=orderId)

/-- The use belongs to another order than the one that is priced again. -/
def otherOrder (input : ResolveInput) (u : Usage) : Bool :=
  match input.orderId with
  | none => true
  | some orderId => decide (u.orderId≠orderId)

section
variable (db : Store) (input : ResolveInput)

/-- Uses that cancelled orders gave back. -/
def released (promotion : Promotion) : ℤ :=
  if promotion.usageLimit≠none∧0<promotion.usedCount then
    db.usages.countP fun u => decide (u.promotionId=promotion.id) &&
      orderCancelled db u.orderId&&otherOrder input u
  else 0

/-- The use was made by the customer who asks, or by the guest's address. -/
def usedBySame (email : String) (u : Usage) : Bool :=
  match input.customerId with
  | some customerId => decide (u.customerId=some customerId)
  | none =>
    (db.customers.any fun c => decide (u.customerId=some c.id ∧
      c.email.map String.toLower=some email)) ||
    (db.orders.any fun o => decide (o.id=u.orderId∧o.contactEmail.map String.toLower=some email))

/-- Uses of the customer who asks on orders that stand, when the customer is
known. -/
def customerUses (promotionId : String) : Option ℕ :=
  let email := (input.customerEmail.map fun text => text.trimAscii.toString.toLower).getD ""
  if input.customerId=none∧email = "" then none
  else some (db.usages.countP fun u => decide (u.promotionId=promotionId) &&
    usedBySame db input email u && !orderCancelled db u.orderId&&otherOrder input u)

end

/-- The promotion is off or outside of its validity. -/
def timeReason (input : ResolveInput) (promotion : Promotion) : Option Reason :=
  if !promotion.enabled then some .disabled
  else if promotion.startsAt.any fun startsAt => decide (input.now<startsAt) then some .notStarted
  else if promotion.endsAt.any fun endsAt => decide (endsAt < input.now) then some .expired
  else none

section
variable (db : Store) (input : ResolveInput) (promotion : Promotion)

/-- Uses that stand, as the limit counts them. -/
def effectiveUses : ℤ :=
  max 0 (promotion.usedCount-released db input promotion -
    (if ownUsage db input promotion.id then 1 else 0))

/-- The limit on all uses is checked. -/
def usageReason (reason : Option Reason) : Except PricingError (Option Reason) :=
  match promotion.usageLimit with
  | none => .ok reason
  | some value => do
    let limit ← nonnegativeInteger value "promotion usage limit"
    return if limit≤effectiveUses db input promotion then some .usageLimitReached else reason

/-- The limit on the uses of one customer is checked. -/
def customerReason (reason : Option Reason) : Except PricingError (Option Reason) :=
  match promotion.perCustomerUsageLimit with
  | none => .ok reason
  | some value => do
    let perCustomer ← nonnegativeInteger value "customer usage limit"
    return if perCustomer=0 then some .customerLimitReached
      else if (customerUses db input promotion.id).any fun n => decide (perCustomer≤n) then
        some .customerLimitReached
      else reason

/-- Reason to refuse a promotion, if any. -/
def couponReason :
    Except PricingError (Option Reason) := do
  let _ ← nonnegativeInteger promotion.usedCount "promotion usage"
  let reason ← usageReason db input promotion (timeReason input promotion)
  customerReason db input promotion reason

end

/-- Candidate promotions that are not refused. -/
def resolvePromotionStack (db : Store) (input : ResolveInput) :
    Except PricingError (List Promotion) :=
  if (input.orderId.any fun orderId => !db.orders.any fun o => decide (o.id=orderId)) then
    .error .unknownOrder
  else do
    let candidates := db.promotions.filter fun p => decide (p.id∈input.candidates)
    let reasons ← candidates.mapM fun p => (couponReason db input p).map fun reason => (p,reason)
    return (reasons.filter fun entry => decide (entry.2=none)).map Prod.fst

/-- Record the use of a promotion by an order once and count it. -/
def recordUsage (orderId : String) (customerId : Option String) (db : Store)
    (promotionId : String) : Store :=
  if db.usages.any fun u => decide (u.promotionId=promotionId∧u.orderId=orderId) then db
  else
    {db with
      usages := db.usages++[⟨promotionId,orderId,customerId⟩]
      promotions := updateWhere (fun p => decide (p.id=promotionId))
        (fun p => {p with usedCount := p.usedCount+1}) db.promotions}

/-- Request to place an order. -/
structure CheckoutInput where
  orderId : String
  (customerId email : Option String)
  now : ℤ
  /-- Automatic promotions and those selected by the coupon codes. -/
  candidates : List String
  /-- Promotions that lower the price of the cart. -/
  applies : List String

/-- Promotions an accepted checkout applies: some of the resolved ones. -/
def appliedIds (resolved : List Promotion) (input : CheckoutInput) : List String :=
  (resolved.map Promotion.id).filter fun promotionId => decide (promotionId∈input.applies)

/-- Place an order and record the promotions it uses. -/
def checkout (db : Store) (input : CheckoutInput) : Except PricingError Store := do
  let resolved ← resolvePromotionStack db
    ⟨none,input.customerId,input.email,input.now,input.candidates⟩
  return (appliedIds resolved input).foldl (recordUsage input.orderId input.customerId)
    {db with orders := db.orders++[⟨input.orderId,.pendingPayment,input.email⟩]}

section
variable (db : Store) (orderId : String)

def findOrder : Option Order :=
  db.orders.find? fun o => decide (o.id=orderId)

/-- Move a stored order to a state it may move to. -/
def moveOrder (target : OrderState) : Option Store :=
  match findOrder db orderId with
  | none => none
  | some o =>
    if canTransition o.state target then
      some {db with
        orders := updateWhere (fun o => decide (o.id=orderId)) (fun o => {o with state := target})
          db.orders}
    else none

/-- Delete an order with its usage rows. -/
def purgeOrderInSet : Store := {db with
    usages := deleteWhere (fun u => decide (u.orderId=orderId)) db.usages
    orders := deleteWhere (fun o => decide (o.id=orderId)) db.orders}

end

def isPaidPurgeState (state : OrderState) : Bool :=
  decide (state=.paid∨state=.partiallyRefunded∨state=.refunded)

/-- Request to delete an order. -/
structure PurgeRequest where
  orderId : String
  (force reason : Bool)
  /-- No payment, reservation or credit hold stands in the way. -/
  cleared : Bool

/-- Delete an order on request. -/
def purgeOrder (db : Store) (input : PurgeRequest) : Option Store :=
  match findOrder db input.orderId with
  | none => none
  | some o =>
    if !input.cleared∨(isPaidPurgeState o.state∧(!input.force∨!input.reason)) then none
    else some (purgeOrderInSet db o.id)

/-- Delete an order that was cancelled some time ago without money. -/
def purgeCancelledOrder (db : Store) (orderId : String) (eligible : Bool) : Option Store :=
  match findOrder db orderId with
  | none => none
  | some o => if o.state=.cancelled∧eligible then some (purgeOrderInSet db o.id) else none

/-- Transactions of a store. -/
inductive Action where
  | checkout (input : CheckoutInput)
  | cancel (orderId : String)
  | settle (orderId : String) (target : OrderState)
  | purge (input : PurgeRequest)
  | expire (orderId : String) (eligible : Bool)

/-- Tables after a transaction, if it commits. -/
def commit (db : Store) : Action → Option Store
  | .checkout input => (checkout db input).toOption
  | .cancel orderId => moveOrder db orderId .cancelled
  | .settle orderId target => moveOrder db orderId target
  | .purge input => purgeOrder db input
  | .expire orderId eligible => purgeCancelledOrder db orderId eligible

/-- One transaction; the answer tells whether it committed. -/
def step (db : Store) (a : Action) : Bool×Store :=
  match commit db a with
  | some next => (true,next)
  | none => (false,db)

/-- An event of a run. -/
abbrev Transaction := Event Store Action Bool

/-- Orders that used a promotion for the first time in a transaction. -/
def newUses (e : Transaction) (promotionId : String) : List String :=
  (e.after.usages.filter fun u =>
    decide (u.promotionId=promotionId∧u∉e.before.usages)).map Usage.orderId

/-- Orders that used a promotion so far. -/
def ordersUsing (start : Store) (h : List Transaction) (promotionId : String) : List String :=
  (start.usages.filter fun u => decide (u.promotionId=promotionId)).map Usage.orderId ++
    h.flatMap fun e => newUses e promotionId

/-- The order was cancelled at some time. -/
def everCancelled (start : Store) (h : List Transaction) (orderId : String) : Bool :=
  orderCancelled start orderId||h.any fun e => orderCancelled e.after orderId

/-- Orders that used a promotion and were never cancelled. -/
def liveUses (start : Store) (h : List Transaction) (promotionId : String) : ℕ :=
  (ordersUsing start h promotionId).countP fun orderId => !everCancelled start h orderId

/-- An identifier drawn for an order was never used before. -/
def Fresh (h : List Transaction) (db : Store) : Action → Prop
  | .checkout input => input.orderId∉db.orders.map Order.id ∧
      ∀ e∈h, input.orderId∉e.before.orders.map Order.id
  | _ => True

/-- The transaction asks to delete an order, and nothing but a payment it may
have taken stands in the way. -/
def deletes (a : Action) (orderId : String) : Bool :=
  match a with
  | .purge input => decide (input.orderId=orderId)&&input.cleared
  | .expire id eligible => decide (id=orderId)&&eligible
  | _ => false

/-- A transaction does not delete a cancelled order that used the promotion. -/
def KeepsCancelledUses (promotionId : String) (e : Transaction) : Prop :=
  ∀ u∈e.before.usages, u.promotionId=promotionId → orderCancelled e.before u.orderId=true →
    deletes e.action u.orderId=false

variable {db next : Store} {input : ResolveInput}

variable {orderId promotionId : String} {applied : List String} {limit : ℤ} {p : Promotion}

theorem orderCancelled_iff :
    orderCancelled db orderId=true ↔ ∃ o∈db.orders, o.id=orderId∧o.state=.cancelled := by
  simp [orderCancelled]

theorem recordUsage_foldl {customerId : Option String}
    (hdis : applied.Nodup) (hfre : ∀ u∈db.usages, u.promotionId∈applied→u.orderId≠orderId) :
    let final := applied.foldl (recordUsage orderId customerId) db
    final.usages=db.usages++applied.map (fun promotionId => ⟨promotionId,orderId,customerId⟩) ∧
      final.promotions=db.promotions.map (fun p =>
        if p.id∈applied then {p with usedCount := p.usedCount+1} else p) ∧
      final.orders=db.orders := by
  induction applied generalizing db with
  | nil => simp
  | cons promotionId rest ih =>
    obtain ⟨hnot,hrt⟩ := nodup_cons.mp hdis
    obtain ⟨next,hnx⟩ : ∃ next : Store, next={db with
          usages := db.usages++[⟨promotionId,orderId,customerId⟩]
          promotions := updateWhere (fun p => decide (p.id=promotionId))
            (fun p => {p with usedCount := p.usedCount+1}) db.promotions} := ⟨_,rfl⟩
    have hrec : recordUsage orderId customerId db promotionId=next := by
      rw [hnx]
      refine if_neg fun huse => ?_
      obtain ⟨u,hu,heq⟩ := any_eq_true.mp huse
      obtain ⟨hpro,hord⟩ := of_decide_eq_true heq
      exact hfre u hu (hpro ▸ mem_cons_self) hord
    rw [foldl_cons,hrec]
    have hlat : ∀ u∈next.usages, u.promotionId∈rest→u.orderId≠orderId := by
      intro u hu hmem
      rw [hnx] at hu
      rcases mem_concat_iff.mp hu with hold|rfl
      · exact hfre u hold (mem_cons_of_mem _ hmem)
      · exact absurd hmem hnot
    obtain ⟨husa,hprom,horde⟩ := ih hrt hlat
    subst hnx
    refine ⟨?_,?_,horde⟩
    · rw [husa,map_cons,append_assoc,singleton_append]
    rw [hprom,updateWhere,map_map]
    refine map_congr_left fun p _ => ?_
    by_cases hid : p.id=promotionId
    · simp [hid,hnot]
    · simp [hid]

theorem customerReason_cases {promotion : Promotion} {reason final : Option Reason}
    (hcus : customerReason db input promotion reason=.ok final) :
    final=reason∨final=some .customerLimitReached := by
  unfold customerReason at hcus
  split at hcus
  · exact .inl (Except.ok.inj hcus).symm
  obtain ⟨perCustomer,-,hcus⟩ := bind_eq_ok.mp hcus
  have hval := Except.ok.inj hcus
  split_ifs at hval
  · exact .inr hval.symm
  · exact .inr hval.symm
  · exact .inl hval.symm

/-- Validity is no limit on uses. -/
theorem timeReason_ne_limit (promotion : Promotion) :
    timeReason input promotion≠some .usageLimitReached := by
  unfold timeReason
  split_ifs <;> simp

/-- A promotion that is not refused is below its limit, and one that is
refused for the limit has reached it. -/
theorem couponReason_limit {promotion : Promotion} {reason : Option Reason}
    (hrea : couponReason db input promotion=.ok reason) (hlimit : promotion.usageLimit=some limit) :
    (reason=none→effectiveUses db input promotion<limit) ∧
      (reason=some .usageLimitReached→limit≤effectiveUses db input promotion) := by
  obtain ⟨_,-,hrea⟩ := bind_eq_ok.mp hrea
  obtain ⟨checked,husa,hcus⟩ := bind_eq_ok.mp hrea
  have hche : checked=if limit≤effectiveUses db input promotion then
      some .usageLimitReached else timeReason input promotion := by
    rw [usageReason,hlimit] at husa
    obtain ⟨_,hck,husa⟩ := bind_eq_ok.mp husa
    unfold nonnegativeInteger at hck
    split at hck
    · cases hck
      exact (Except.ok.inj husa).symm
    · cases hck
  rcases customerReason_cases hcus with hfin|hfin
  · rw [hfin,hche]
    split_ifs with hreac
    · exact ⟨fun hno => absurd hno (by simp),fun _ => hreac⟩
    · exact ⟨fun _ => not_le.mp hreac,fun hlim => absurd hlim (timeReason_ne_limit promotion)⟩
  · rw [hfin]
    exact ⟨fun hno => absurd hno (by simp),fun hlim => absurd hlim (by simp)⟩

theorem reasons_sound {candidates : List Promotion} {reasons : List (Promotion×Option Reason)}
    (hreas : (candidates.mapM fun p =>
      (couponReason db input p).map fun reason => (p,reason))=.ok reasons) :
    reasons.map Prod.fst=candidates ∧
      ∀ entry∈reasons, couponReason db input entry.1=.ok entry.2 := by
  have hpai := mapM_eq_ok.mp hreas
  clear hreas
  induction hpai with
  | nil => simp
  | @cons p entry rest entries hite _ ih =>
    cases hrea : couponReason db input p with
    | error =>
      rw [hrea] at hite
      cases hite
    | ok =>
      rw [hrea] at hite
      cases hite
      refine ⟨by rw [map_cons,ih.1],?_⟩
      rintro other hot
      rcases mem_cons.mp hot with rfl|hrt
      · exact hrea
      · exact ih.2 other hrt

/-- Resolved promotions are stored, in their order, and are not refused. -/
theorem resolvePromotionStack_sound {resolved : List Promotion}
    (hres : resolvePromotionStack db input=.ok resolved) :
    resolved.Sublist db.promotions∧∀ p∈resolved, couponReason db input p=.ok none := by
  unfold resolvePromotionStack at hres
  split_ifs at hres
  obtain ⟨reasons,hrea,hres⟩ := bind_eq_ok.mp hres
  cases hres
  obtain ⟨hfst,hsd⟩ := reasons_sound hrea
  constructor
  · have hkp := (filter_sublist (p := fun entry : Promotion×Option Reason =>
      decide (entry.2=none)) (l := reasons)).map Prod.fst
    rw [hfst] at hkp
    exact hkp.trans filter_sublist
  · intro p hp
    obtain ⟨entry,hent,rfl⟩ := mem_map.mp hp
    obtain ⟨hmem,hno⟩ := mem_filter.mp hent
    rw [hsd entry hmem,of_decide_eq_true hno]

/-- What placing an order changes. -/
structure Placed (db : Store) (input : CheckoutInput) (applied : List String) (next : Store) :
    Prop where
  distinct : applied.Nodup
  below : ∀ p∈db.promotions, p.id∈applied→∀ limit, p.usageLimit=some limit →
    effectiveUses db ⟨none,input.customerId,input.email,input.now,input.candidates⟩ p<limit
  usages : next.usages=db.usages ++
    applied.map fun promotionId => ⟨promotionId,input.orderId,input.customerId⟩
  promotions : next.promotions=db.promotions.map fun p =>
    if p.id∈applied then {p with usedCount := p.usedCount+1} else p
  orders : next.orders=db.orders++[⟨input.orderId,.pendingPayment,input.email⟩]

theorem checkout_placed {input : CheckoutInput} (hids : (db.promotions.map Promotion.id).Nodup)
    (hfre : ∀ u∈db.usages, u.orderId≠input.orderId)
    (hche : checkout db input=.ok next) : ∃ applied, Placed db input applied next := by
  obtain ⟨resolved,hres,hche⟩ := bind_eq_ok.mp hche
  cases hche
  obtain ⟨hsto,hsd⟩ := resolvePromotionStack_sound hres
  have hdis : (appliedIds resolved input).Nodup :=
    ((hsto.map Promotion.id).nodup hids).filter _
  obtain ⟨husa,hpro,hord⟩ := @recordUsage_foldl
    {db with orders := db.orders++[⟨input.orderId,.pendingPayment,input.email⟩]}
    input.orderId _ input.customerId hdis fun u hu _ => hfre u hu
  refine ⟨appliedIds resolved input,hdis,?_,husa,hpro,hord⟩
  intro p hp happ limit hlim
  obtain ⟨other,hot,hid⟩ := mem_map.mp (mem_filter.mp happ).1
  rw [eq_of_key_eq Promotion.id hids (hsto.subset hot) hp hid] at hot
  exact (couponReason_limit (hsd p hot) hlim).1 rfl

/-- The order is stored, or it was before some step. -/
def Known (h : List Transaction) (db : Store) (orderId : String) : Prop :=
  orderId∈db.orders.map Order.id∨∃ e∈h, orderId∈e.before.orders.map Order.id

/-- The counters and the usage rows account for every use of a history. -/
structure Accounted (start : Store) (h : List Transaction) (s : Store) : Prop where
  promotionIds : (s.promotions.map Promotion.id).Nodup
  orderIds : (s.orders.map Order.id).Nodup
  stored : ∀ u∈s.usages, u.orderId∈s.orders.map Order.id
  usageKeys : (s.usages.map fun u => (u.promotionId,u.orderId)).Nodup
  counted : ∀ p∈s.promotions, p.usedCount=(ordersUsing start h p.id).length
  distinct : ∀ promotionId, (ordersUsing start h promotionId).Nodup
  /-- Those that are stored are the ones with a usage row. -/
  used : ∀ promotionId, ∀ orderId∈s.orders.map Order.id, (orderId∈ordersUsing start h promotionId ↔
      ∃ u∈s.usages, u.promotionId=promotionId∧u.orderId=orderId)
  cancelled : ∀ orderId∈s.orders.map Order.id,
    everCancelled start h orderId=orderCancelled s orderId
  knownUses : ∀ promotionId, ∀ orderId∈ordersUsing start h promotionId, Known h s orderId
  knownCancelled : ∀ orderId, everCancelled start h orderId=true → Known h s orderId
  within : ∀ p∈s.promotions, ∀ limit, p.usageLimit=some limit→liveUses start h p.id≤limit

/-- What transactions other than checkouts do. -/
structure Continues (s next : Store) : Prop where
  promotions : next.promotions=s.promotions
  usages : next.usages.Sublist s.usages
  orders : (next.orders.map Order.id).Sublist (s.orders.map Order.id)
  rows : ∀ u∈s.usages, u.orderId∈next.orders.map Order.id→u∈next.usages
  stored : ∀ u∈next.usages, u.orderId∈next.orders.map Order.id
  cancelled : ∀ orderId∈next.orders.map Order.id, orderCancelled s orderId=true →
    orderCancelled next orderId=true

variable {start s : Store} {h : List Transaction} {a : Action}

theorem ordersUsing_append (e : Transaction) (promotionId : String) :
    ordersUsing start (h++[e]) promotionId =
      ordersUsing start h promotionId++newUses e promotionId := by
  simp [ordersUsing,append_assoc]

theorem everCancelled_append (e : Transaction) (orderId : String) :
    everCancelled start (h++[e]) orderId =
      (everCancelled start h orderId||orderCancelled e.after orderId) := by
  simp [everCancelled,Bool.or_assoc]

theorem orderCancelled_mem (hcan : orderCancelled db orderId=true) :
    orderId∈db.orders.map Order.id := by
  obtain ⟨o,ho,hid,-⟩ := orderCancelled_iff.mp hcan
  exact mem_map.mpr ⟨o,ho,hid⟩

theorem Known.append (hkn : Known h s orderId) (a : Action) :
    Known (h++[perform step s a]) (step s a).2 orderId := by
  rcases hkn with hsto|⟨e,he,hbef⟩
  · exact .inr ⟨perform step s a,by simp,hsto⟩
  · exact .inr ⟨e,mem_append_left _ he,hbef⟩

/-- Uses that stand do not grow without a new use. -/
theorem liveUses_le {e : Transaction} (hno : newUses e promotionId=[]) :
    liveUses start (h++[e]) promotionId≤liveUses start h promotionId := by
  rw [liveUses,ordersUsing_append,hno,append_nil,liveUses]
  refine countP_mono_left fun orderId _ hlv => ?_
  rw [everCancelled_append,Bool.not_or,Bool.and_eq_true] at hlv
  exact hlv.1

/-- Transactions other than checkouts keep the account. -/
theorem Accounted.continue (hacc : Accounted start h s) (hcon : Continues s (step s a).2) :
    Accounted start (h++[perform step s a]) (step s a).2 := by
  have hno : ∀ promotionId, newUses (perform step s a) promotionId=[] := by
    intro promotionId
    rw [newUses,map_eq_nil_iff,filter_eq_nil_iff]
    intro u hu hnew
    exact (of_decide_eq_true hnew).2 (hcon.usages.subset hu)
  have huses : ∀ promotionId, ordersUsing start (h++[perform step s a]) promotionId =
      ordersUsing start h promotionId := by
    intro promotionId
    rw [ordersUsing_append,hno,append_nil]
  refine ⟨?_,hcon.orders.nodup hacc.orderIds,hcon.stored,
    (hcon.usages.map _).nodup hacc.usageKeys,?_,?_,?_,?_,?_,?_,?_⟩
  · rw [hcon.promotions]
    exact hacc.promotionIds
  · intro p hp
    rw [huses]
    exact hacc.counted p (hcon.promotions ▸ hp)
  · intro promotionId
    rw [huses]
    exact hacc.distinct promotionId
  · intro promotionId orderId hord
    rw [huses,hacc.used promotionId orderId (hcon.orders.subset hord)]
    constructor
    · rintro ⟨u,hu,hpro,rfl⟩
      exact ⟨u,hcon.rows u hu hord,hpro,rfl⟩
    · rintro ⟨u,hu,heq⟩
      exact ⟨u,hcon.usages.subset hu,heq⟩
  · intro orderId hord
    rw [everCancelled_append,hacc.cancelled orderId (hcon.orders.subset hord)]
    cases hbef : orderCancelled s orderId with
    | true => exact (hcon.cancelled orderId hord hbef).symm ▸ rfl
    | false => rfl
  · intro promotionId orderId huse
    rw [huses] at huse
    exact (hacc.knownUses promotionId orderId huse).append a
  · intro orderId hcan
    rw [everCancelled_append,Bool.or_eq_true] at hcan
    rcases hcan with hold|hnew
    · exact (hacc.knownCancelled orderId hold).append a
    · exact .inl (orderCancelled_mem hnew)
  · intro p hp limit hlim
    have hbef := hacc.within p (hcon.promotions ▸ hp) limit hlim
    exact le_trans (Int.ofNat_le.mpr (liveUses_le (hno p.id))) hbef

/-- Uses given back by cancelled orders are the stored cancelled orders that
used the promotion. -/
theorem Accounted.released_eq (hacc : Accounted start h s) (input : ResolveInput)
    (hp : p∈s.promotions) (hlim : p.usageLimit=some limit) :
    released s input p=(ordersUsing start h p.id).countP fun orderId =>
      orderCancelled s orderId&&decide (input.orderId≠some orderId) := by
  unfold released
  split_ifs with hct
  · have hrs : ((s.usages.filter fun u => decide (u.promotionId=p.id) &&
        orderCancelled s u.orderId&&otherOrder input u).map Usage.orderId).Perm
          ((ordersUsing start h p.id).filter fun orderId =>
            orderCancelled s orderId&&decide (input.orderId≠some orderId)) := by
      have hot : ∀ u : Usage, otherOrder input u=decide (input.orderId≠some u.orderId) := by
        unfold otherOrder
        cases input.orderId with
        | none => simp
        | some => simp [eq_comm]
      refine (perm_ext_iff_of_nodup ?_ ((hacc.distinct p.id).filter _)).mpr ?_
      · refine Nodup.map_on ?_ ((hacc.usageKeys.of_map _).filter _)
        intro u hu other hot' heq
        have hfst := mem_filter.mp hu
        have hsec := mem_filter.mp hot'
        simp only [Bool.and_eq_true,decide_eq_true_eq] at hfst hsec
        refine eq_of_key_eq (fun u : Usage => (u.promotionId,u.orderId)) hacc.usageKeys hfst.1
          hsec.1 ?_
        rw [Prod.mk.injEq]
        exact ⟨hfst.2.1.1.trans hsec.2.1.1.symm,heq⟩
      · intro orderId
        simp only [mem_map,mem_filter,Bool.and_eq_true,hot,decide_eq_true_eq]
        constructor
        · rintro ⟨u,⟨hu,⟨hpro,hcan⟩,hnot⟩,rfl⟩
          exact ⟨(hacc.used p.id u.orderId (hacc.stored u hu)).mpr ⟨u,hu,hpro,rfl⟩,hcan,hnot⟩
        · rintro ⟨huse,hcan,hnot⟩
          obtain ⟨u,hu,hpro,rfl⟩ :=
            (hacc.used p.id orderId (orderCancelled_mem hcan)).mp huse
          exact ⟨u,⟨hu,⟨hpro,hcan⟩,hnot⟩,rfl⟩
    have hlen := hrs.length_eq
    rw [length_map,← countP_eq_length_filter,← countP_eq_length_filter] at hlen
    exact congrArg Int.ofNat hlen
  · have hz : ¬ 0<p.usedCount := fun hpos => hct ⟨by simp [hlim],hpos⟩
    have hcou := hacc.counted p hp
    have hnil : ordersUsing start h p.id=[] := eq_nil_of_length_eq_zero (by omega)
    rw [hnil]
    rfl

theorem liveUses_add (promotionId : String) :
    liveUses start h promotionId+(ordersUsing start h promotionId).countP
      (everCancelled start h)=(ordersUsing start h promotionId).length := by
  rw [liveUses,length_eq_countP_add_countP (everCancelled start h)]
  simp only [Bool.not_eq_true,Bool.decide_eq_false]
  omega

/-- At a checkout the uses a limit counts include every use that stands. -/
theorem Accounted.live_le_effective (hacc : Accounted start h s) {input : ResolveInput}
    (hinp : input.orderId=none) (hp : p∈s.promotions)
    (hlim : p.usageLimit=some limit) : (liveUses start h p.id : ℤ)≤effectiveUses s input p := by
  have hrel := hacc.released_eq input hp hlim
  have hcou := hacc.counted p hp
  have hsum := @liveUses_add start h p.id
  have hle : (ordersUsing start h p.id).countP (fun orderId =>
      orderCancelled s orderId&&decide (input.orderId≠some orderId)) ≤
        (ordersUsing start h p.id).countP (everCancelled start h) := by
    refine countP_mono_left fun orderId _ hcan => ?_
    obtain ⟨hcan,-⟩ := Bool.and_eq_true_iff.mp hcan
    exact (hacc.cancelled orderId (orderCancelled_mem hcan)).trans hcan
  have hown : ownUsage s input p.id=false := by rw [ownUsage,hinp]
  rw [effectiveUses,hrel,hcou,hown,if_neg Bool.false_ne_true]
  omega

/-- Every cancelled order that used the promotion is still stored. -/
def CancelledStored (start : Store) (promotionId : String) (h : List Transaction) (s : Store) :
    Prop :=
  ∀ orderId∈ordersUsing start h promotionId, everCancelled start h orderId=true →
    orderId∈s.orders.map Order.id

/-- While cancelled orders are stored, a limit counts no more than the uses
that stand. -/
theorem Accounted.effective_le_live (hacc : Accounted start h s) (input : ResolveInput)
    (hp : p∈s.promotions) (hlim : p.usageLimit=some limit)
    (hsto : CancelledStored start p.id h s) : effectiveUses s input p≤liveUses start h p.id := by
  have hrel := hacc.released_eq input hp hlim
  have hcou := hacc.counted p hp
  have hsum := @liveUses_add start h p.id
  have hspl : (ordersUsing start h p.id).countP (everCancelled start h) ≤
      (ordersUsing start h p.id).countP (fun orderId =>
        orderCancelled s orderId&&decide (input.orderId≠some orderId)) +
      (if ownUsage s input p.id then 1 else 0) := by
    have hcan : ∀ orderId∈ordersUsing start h p.id, everCancelled start h orderId=true →
        orderCancelled s orderId=true := fun orderId huse heve =>
      (hacc.cancelled orderId (hsto orderId huse heve)).symm.trans heve
    rw [countP_eq_countP_filter_add (ordersUsing start h p.id) (everCancelled start h)
      (fun orderId => decide (input.orderId≠some orderId))]
    refine Nat.add_le_add ?_ ?_
    · rw [countP_filter]
      refine countP_mono_left fun orderId huse hbo => ?_
      obtain ⟨heve,hot⟩ := Bool.and_eq_true_iff.mp hbo
      exact Bool.and_eq_true_iff.mpr ⟨hcan orderId huse heve,hot⟩
    · rw [countP_filter]
      split_ifs with hown
      · cases hord : input.orderId with
        | none => simp
        | some own =>
          refine le_trans (countP_mono_left ?_) (countP_key_le_one id own (everCancelled start h)
              (by rw [map_id]; exact hacc.distinct p.id))
          intro orderId _ hbo
          simp only [Bool.and_eq_true,Bool.not_eq_true',decide_eq_false_iff_not,not_not,
            Option.some.injEq] at hbo
          simpa using ⟨hbo.2.symm,hbo.1⟩
      · rw [Nat.le_zero,countP_eq_zero]
        intro orderId huse hbo
        simp only [Bool.and_eq_true,Bool.not_eq_true',decide_eq_false_iff_not,not_not] at hbo
        obtain ⟨heve,hsel⟩ := hbo
        obtain ⟨u,hu,hpro,rfl⟩ :=
          (hacc.used p.id orderId (hsto orderId huse heve)).mp huse
        refine hown ?_
        rw [ownUsage,hsel]
        exact any_eq_true.mpr ⟨u,hu,decide_eq_true ⟨hpro,rfl⟩⟩
  rw [effectiveUses,hrel,hcou]
  split_ifs at hspl ⊢ <;> omega

theorem Placed.newUses_eq {input : CheckoutInput}
    (hpla : Placed s input applied (step s a).2) (hrs : ∀ u∈s.usages, u.orderId≠input.orderId)
    (promotionId : String) : newUses (perform step s a) promotionId =
      if promotionId∈applied then [input.orderId] else [] := by
  have had : ∀ other, (⟨other,input.orderId,input.customerId⟩ : Usage)∉s.usages :=
    fun other hmem => hrs _ hmem rfl
  have hspl : ∀ (q : Usage → Bool) (added : List Usage), (∀ u∈s.usages, q u=false) →
      (s.usages++added).filter q=added.filter q := by
    intro q added hno
    rw [filter_append,filter_eq_nil_iff.mpr fun u hu => by simp [hno u hu],nil_append]
  have hrt : newUses (perform step s a) promotionId =
      (applied.filter fun other => decide (other=promotionId)).map fun _ => input.orderId := by
    change ((step s a).2.usages.filter _).map Usage.orderId=_
    rw [hpla.usages,hspl _ _ fun u hu => by simp [perform,hu],filter_map,map_map]
    refine congrArg (map fun _ => input.orderId) (filter_congr fun other _ => ?_)
    simp [perform,had]
  rw [hrt,filter_eq,map_replicate]
  split_ifs with happ
  · rw [count_eq_one_of_mem hpla.distinct happ]
    rfl
  · rw [count_eq_zero_of_not_mem happ]
    rfl

section
variable {input : CheckoutInput} (hacc : Accounted start h s) (hnew : ¬ Known h s input.orderId)
  (hpla : Placed s input applied (step s a).2)
include hpla

theorem Placed.orderIds :
    (step s a).2.orders.map Order.id=s.orders.map Order.id++[input.orderId] := by
  rw [hpla.orders,map_append]
  rfl

theorem Placed.orderCancelled_eq (orderId : String) :
    orderCancelled (step s a).2 orderId=orderCancelled s orderId := by
  simp [orderCancelled,hpla.orders]

include hacc

theorem Accounted.place_cancelled (orderId : String) :
    everCancelled start (h++[perform step s a]) orderId=everCancelled start h orderId := by
  rw [everCancelled_append]
  change (everCancelled start h orderId||orderCancelled (step s a).2 orderId)=_
  rw [hpla.orderCancelled_eq]
  cases hnow : orderCancelled s orderId with
  | true => rw [hacc.cancelled orderId (orderCancelled_mem hnow),hnow]; rfl
  | false => rw [Bool.or_false]

include hnew

theorem Accounted.place_uses (promotionId : String) :
    ordersUsing start (h++[perform step s a]) promotionId =
      ordersUsing start h promotionId++if promotionId∈applied then [input.orderId] else [] := by
  rw [ordersUsing_append,
    hpla.newUses_eq fun u hu heq => hnew (.inl (heq ▸ hacc.stored u hu))]

theorem Accounted.place_used (promotionId : String)
    (hord : orderId∈(step s a).2.orders.map Order.id) :
    orderId∈ordersUsing start (h++[perform step s a]) promotionId ↔
      ∃ u∈(step s a).2.usages, u.promotionId=promotionId∧u.orderId=orderId := by
  rw [hpla.orderIds] at hord
  rw [hacc.place_uses hnew hpla,hpla.usages]
  rcases mem_concat_iff.mp hord with hold|rfl
  · have hne : orderId≠input.orderId := fun heq => hnew (.inl (heq ▸ hold))
    rw [mem_append,hacc.used promotionId orderId hold]
    constructor
    · rintro (⟨u,hu,hsam⟩|had)
      · exact ⟨u,mem_append_left _ hu,hsam⟩
      · split_ifs at had
        · exact absurd (mem_singleton.mp had) hne
        · cases had
    · rintro ⟨u,hu,hpro,rfl⟩
      rcases mem_append.mp hu with hsto|had
      · exact .inl ⟨u,hsto,hpro,rfl⟩
      · obtain ⟨other,-,rfl⟩ := mem_map.mp had
        exact absurd rfl hne
  · constructor
    · intro huse
      rcases mem_append.mp huse with hold|had
      · exact absurd (hacc.knownUses promotionId _ hold) hnew
      · split_ifs at had with happ
        · exact ⟨_,mem_append_right _ (mem_map_of_mem happ),rfl,rfl⟩
        · cases had
    · rintro ⟨u,hu,hpro,hord⟩
      rcases mem_append.mp hu with hsto|had
      · exact absurd (.inl (hord ▸ hacc.stored u hsto)) hnew
      obtain ⟨other,hot,rfl⟩ := mem_map.mp had
      subst hpro
      rw [if_pos hot]
      exact mem_concat_self

theorem Accounted.place_within {p : Promotion} (hp : p∈(step s a).2.promotions) {limit : ℤ}
    (hlim : p.usageLimit=some limit) :
    liveUses start (h++[perform step s a]) p.id≤limit := by
  have hunc : everCancelled start h input.orderId=false :=
    Bool.eq_false_iff.mpr fun heve => hnew (hacc.knownCancelled _ heve)
  rw [hpla.promotions] at hp
  obtain ⟨q,hq,rfl⟩ := mem_map.mp hp
  have hbou : q.usageLimit=some limit := by
    split_ifs at hlim
    · exact hlim
    · exact hlim
  have hlv : liveUses start (h++[perform step s a]) q.id =
      liveUses start h q.id+if q.id∈applied then 1 else 0 := by
    have hsam : (fun orderId => !everCancelled start (h++[perform step s a]) orderId) =
        fun orderId => !everCancelled start h orderId :=
      funext fun orderId => by rw [hacc.place_cancelled hpla]
    rw [liveUses,liveUses,hacc.place_uses hnew hpla,hsam,countP_append]
    split_ifs
    · simp [hunc]
    · rfl
  have hid : (if q.id∈applied then {q with usedCount := q.usedCount+1} else q).id=q.id := by
    split_ifs
    · rfl
    · rfl
  rw [hid,hlv]
  split_ifs with happ
  · have hbel := hpla.below q hq happ limit hbou
    have hle : (liveUses start h q.id : ℤ)≤effectiveUses s
        ⟨none,input.customerId,input.email,input.now,input.candidates⟩ q :=
      hacc.live_le_effective rfl hq hbou
    push_cast
    omega
  · exact hacc.within q hq limit hbou

theorem Accounted.place : Accounted start (h++[perform step s a]) (step s a).2 := by
  have hfre : input.orderId∉s.orders.map Order.id := fun hmem => hnew (.inl hmem)
  have hids := hpla.orderIds
  have huses := hacc.place_uses hnew hpla
  have heve := hacc.place_cancelled hpla
  refine ⟨?_,?_,?_,?_,?_,?_,?_,?_,?_,?_,?_⟩
  · rw [hpla.promotions,map_map]
    have hsam : (Promotion.id ∘ fun p : Promotion =>
        if p.id∈applied then {p with usedCount := p.usedCount+1} else p)=Promotion.id := by
      funext p
      simp only [Function.comp_apply]
      split <;> rfl
    rw [hsam]
    exact hacc.promotionIds
  · rw [hids]
    exact nodup_concat_iff.mpr ⟨hfre,hacc.orderIds⟩
  · intro u hu
    rw [hids]
    rw [hpla.usages] at hu
    rcases mem_append.mp hu with hold|had
    · exact mem_append_left _ (hacc.stored u hold)
    · obtain ⟨promotionId,-,rfl⟩ := mem_map.mp had
      exact mem_concat_self
  · rw [hpla.usages,map_append,map_map]
    refine nodup_append.mpr ⟨hacc.usageKeys,?_,?_⟩
    · exact hpla.distinct.map fun x y heq => congrArg Prod.fst heq
    intro x hx y hy heq
    obtain ⟨u,hu,rfl⟩ := mem_map.mp hx
    obtain ⟨promotionId,-,rfl⟩ := mem_map.mp hy
    have hord : u.orderId=input.orderId := congrArg Prod.snd heq
    exact hfre (hord ▸ hacc.stored u hu)
  · intro p hp
    rw [hpla.promotions] at hp
    obtain ⟨q,hq,rfl⟩ := mem_map.mp hp
    have hcou := hacc.counted q hq
    by_cases happ : q.id∈applied
    · simp only [if_pos happ,huses,length_append,length_singleton]
      push_cast
      omega
    · simp only [if_neg happ,huses,append_nil]
      exact hcou
  · intro promotionId
    rw [huses]
    split
    · exact nodup_concat_iff.mpr
        ⟨fun huse => hnew (hacc.knownUses promotionId _ huse),hacc.distinct promotionId⟩
    · rw [append_nil]
      exact hacc.distinct promotionId
  · exact fun promotionId _ hord => hacc.place_used hnew hpla promotionId hord
  · intro orderId hord
    rw [heve,hpla.orderCancelled_eq]
    rw [hids] at hord
    rcases mem_concat_iff.mp hord with hold|rfl
    · exact hacc.cancelled orderId hold
    · rw [Bool.eq_false_iff.mpr fun heve => hnew (hacc.knownCancelled _ heve)]
      exact (Bool.eq_false_iff.mpr fun hnow => hfre (orderCancelled_mem hnow)).symm
  · intro promotionId orderId huse
    rw [huses] at huse
    rcases mem_append.mp huse with hold|hlt
    · exact (hacc.knownUses promotionId orderId hold).append a
    left
    rw [hids]
    split_ifs at hlt
    · cases mem_singleton.mp hlt
      exact mem_concat_self
    · cases hlt
  · intro orderId hcan
    rw [heve] at hcan
    exact (hacc.knownCancelled orderId hcan).append a
  · exact fun p hp limit hlim => hacc.place_within hnew hpla hp hlim

end

theorem findOrder_eq {o : Order} (hfin : findOrder db orderId=some o) :
    o∈db.orders∧o.id=orderId := find_key_eq_some Order.id hfin

section
variable (hacc : Accounted start h s)
include hacc

/-- Moving an order keeps uses and cancellations. -/
theorem moveOrder_continues {target : OrderState}
    (hmov : moveOrder s orderId target=some next) : Continues s next := by
  unfold moveOrder at hmov
  split at hmov
  · cases hmov
  · next o hfin =>
    obtain ⟨ho,hid⟩ := findOrder_eq hfin
    split_ifs at hmov with hall
    cases hmov
    have hids : (updateWhere (fun o => decide (o.id=orderId))
        (fun o => {o with state := target}) s.orders).map Order.id=s.orders.map Order.id :=
      map_updateWhere Order.id s.orders fun _ _ => rfl
    refine ⟨rfl,Sublist.refl _,?_,fun u hu _ => hu,?_,?_⟩
    · rw [hids]
    · rw [hids]
      exact hacc.stored
    · intro other _ hcan
      obtain ⟨row,hrow,hot,hst⟩ := orderCancelled_iff.mp hcan
      refine orderCancelled_iff.mpr ⟨row,?_,hot,hst⟩
      refine mem_map.mpr ⟨row,hrow,if_neg fun heq => ?_⟩
      rw [decide_eq_true_eq] at heq
      rw [eq_of_key_eq Order.id hacc.orderIds hrow ho (heq.trans hid.symm)] at hst
      rw [hst] at hall
      exact absurd hall (by simp [canTransition,orderTransitions])

/-- Deleting an order deletes its usage rows and no others. -/
theorem purgeOrderInSet_continues (orderId : String) :
    Continues s (purgeOrderInSet s orderId) := by
  refine ⟨rfl,filter_sublist,filter_sublist.map _,?_,?_,?_⟩
  · intro u hu hord
    obtain ⟨o,ho,hid⟩ := mem_map.mp hord
    obtain ⟨-,hkp⟩ := mem_deleteWhere.mp ho
    refine mem_deleteWhere.mpr ⟨hu,?_⟩
    rw [decide_eq_false_iff_not] at hkp ⊢
    exact fun hgn => hkp (hid.trans hgn)
  · intro u hu
    obtain ⟨hu,hkp⟩ := mem_deleteWhere.mp hu
    obtain ⟨o,ho,hid⟩ := mem_map.mp (hacc.stored u hu)
    refine mem_map.mpr ⟨o,mem_deleteWhere.mpr ⟨ho,?_⟩,hid⟩
    rw [decide_eq_false_iff_not] at hkp ⊢
    exact fun hgn => hkp (hid ▸ hgn)
  · intro other hord hcan
    obtain ⟨o,ho,hid⟩ := mem_map.mp hord
    obtain ⟨-,hkp⟩ := mem_deleteWhere.mp ho
    obtain ⟨row,hrow,heq,hst⟩ := orderCancelled_iff.mp hcan
    refine orderCancelled_iff.mpr ⟨row,mem_deleteWhere.mpr ⟨hrow,?_⟩,heq,hst⟩
    rw [decide_eq_false_iff_not] at hkp ⊢
    exact fun hgn => hkp (hid.trans (heq.symm.trans hgn))

theorem step_cases (hfre : Fresh h s a) : (step s a).2=s ∨
      (∃ input applied, ¬ Known h s input.orderId∧Placed s input applied (step s a).2) ∨
      (∃ orderId target, moveOrder s orderId target=some (step s a).2) ∨
      ∃ orderId, deletes a orderId=true∧(step s a).2=purgeOrderInSet s orderId := by
  unfold step
  cases hcom : commit s a with
  | none => exact .inl rfl
  | some next =>
    right
    simp only
    cases a with
    | checkout input =>
      left
      obtain ⟨hsto,hpa⟩ := hfre
      cases hche : checkout s input with
      | error =>
        rw [commit,hche] at hcom
        cases hcom
      | ok =>
        rw [commit,hche] at hcom
        cases hcom
        obtain ⟨applied,hpla⟩ := checkout_placed hacc.promotionIds
          (fun u hu heq => hsto (heq ▸ hacc.stored u hu)) hche
        refine ⟨input,applied,?_,hpla⟩
        rintro (hmem|⟨e,he,hmem⟩)
        · exact hsto hmem
        · exact hpa e he hmem
    | cancel orderId => exact .inr (.inl ⟨orderId,.cancelled,hcom⟩)
    | settle orderId target => exact .inr (.inl ⟨orderId,target,hcom⟩)
    | purge input =>
      right; right
      unfold commit purgeOrder at hcom
      simp only at hcom
      split at hcom
      · cases hcom
      · next o hfin =>
        split_ifs at hcom with hop
        cases hcom
        refine ⟨o.id,?_,rfl⟩
        have hcle : input.cleared=true := by
          by_contra hnot
          exact hop (.inl (by simpa using hnot))
        rw [deletes,hcle,(findOrder_eq hfin).2]
        simp
    | expire =>
      right; right
      unfold commit purgeCancelledOrder at hcom
      simp only at hcom
      split at hcom
      · cases hcom
      · next o hfin =>
        split_ifs at hcom with hop
        cases hcom
        refine ⟨o.id,?_,rfl⟩
        rw [deletes,hop.2,(findOrder_eq hfin).2]
        simp

/-- Every transaction keeps the account. -/
theorem step_accounted (hfre : Fresh h s a) :
    Accounted start (h++[perform step s a]) (step s a).2 := by
  rcases step_cases hacc hfre with heq|⟨input,applied,hnew,hpla⟩ |
    ⟨orderId,target,hmov⟩|⟨orderId,-,hpur⟩
  · refine hacc.continue ?_
    rw [heq]
    exact ⟨rfl,Sublist.refl _,Sublist.refl _,fun u hu _ => hu,hacc.stored,
      fun _ _ hcan => hcan⟩
  · exact hacc.place hnew hpla
  · exact hacc.continue (moveOrder_continues hacc hmov)
  · refine hacc.continue ?_
    rw [hpur]
    exact purgeOrderInSet_continues hacc orderId

theorem CancelledStored.continue
    (hkp : CancelledStored start promotionId h s) (hcon : Continues s (step s a).2)
    (hsta : ∀ u∈s.usages, u.promotionId=promotionId → orderCancelled s u.orderId=true →
      u.orderId∈(step s a).2.orders.map Order.id) :
    CancelledStored start promotionId (h++[perform step s a]) (step s a).2 := by
  intro orderId huse heve
  rw [everCancelled_append,Bool.or_eq_true] at heve
  rcases heve with hold|hnow
  · rw [ordersUsing_append] at huse
    rcases mem_append.mp huse with hbef|had
    · have hsto := hkp orderId hbef hold
      obtain ⟨u,hu,hpro,rfl⟩ := (hacc.used promotionId orderId hsto).mp hbef
      exact hsta u hu hpro ((hacc.cancelled _ hsto).symm.trans hold)
    · obtain ⟨u,hu,rfl⟩ := mem_map.mp had
      exact hcon.stored u (mem_filter.mp hu).1
  · exact orderCancelled_mem hnow

/-- A transaction that deletes no cancelled order with a use keeps all of them
stored. -/
theorem step_cancelledStored (hfre : Fresh h s a) (hkp : CancelledStored start promotionId h s)
    (hkee : KeepsCancelledUses promotionId (perform step s a)) :
    CancelledStored start promotionId (h++[perform step s a]) (step s a).2 := by
  rcases step_cases hacc hfre with hsam|⟨input,applied,hnew,hpla⟩ |
    ⟨orderId,target,hmov⟩|⟨orderId,hdel,hpur⟩
  · refine hkp.continue hacc ?_ ?_
    · rw [hsam]
      exact ⟨rfl,Sublist.refl _,Sublist.refl _,fun u hu _ => hu,hacc.stored,
        fun _ _ hcan => hcan⟩
    · rw [hsam]
      exact fun u hu _ _ => hacc.stored u hu
  · intro orderId huse heve
    have hacc' := hacc.place hnew hpla
    rcases hacc'.knownUses promotionId orderId huse with hsto|⟨e,he,hbef⟩
    · exact hsto
    rw [hpla.orders,map_append]
    rw [ordersUsing_append] at huse
    rcases mem_append.mp huse with hold|had
    · refine mem_append_left _ (hkp orderId hold ?_)
      rw [everCancelled_append,Bool.or_eq_true] at heve
      rcases heve with hbef|hnow
      · exact hbef
      obtain ⟨o,ho,hid,hst⟩ := orderCancelled_iff.mp hnow
      change o∈(step s a).2.orders at ho
      rw [hpla.orders] at ho
      rcases mem_concat_iff.mp ho with hsto|rfl
      · have hcan := orderCancelled_iff.mpr ⟨o,hsto,hid,hst⟩
        rw [hacc.cancelled orderId (orderCancelled_mem hcan)]
        exact hcan
      · cases hst
    · rw [hpla.newUses_eq fun u hu heq => hnew (.inl (heq ▸ hacc.stored u hu))] at had
      split_ifs at had
      · cases mem_singleton.mp had
        exact mem_concat_self
      · cases had
  · have hcon := moveOrder_continues hacc hmov
    refine hkp.continue hacc hcon fun u hu _ _ => ?_
    exact hcon.stored u (by
      unfold moveOrder at hmov
      split at hmov
      · cases hmov
      split at hmov
      · rw [← Option.some.inj hmov]
        exact hu
      · cases hmov)
  · refine hkp.continue hacc (hpur ▸ purgeOrderInSet_continues hacc orderId) ?_
    intro u hu hpro hcan
    obtain ⟨o,ho,hid⟩ := mem_map.mp (hacc.stored u hu)
    rw [hpur]
    refine mem_map.mpr ⟨o,mem_deleteWhere.mpr ⟨ho,decide_eq_false fun hgn => ?_⟩,hid⟩
    have hnot := hkee u hu hpro hcan
    rw [← hid,hgn] at hnot
    exact absurd (hnot.symm.trans hdel) Bool.false_ne_true

end

/-- A store without uses is accounted for. -/
theorem Accounted.opening (husa : start.usages=[])
    (hpro : (start.promotions.map Promotion.id).Nodup) (hord : (start.orders.map Order.id).Nodup)
    (hcou : ∀ p∈start.promotions, p.usedCount=0)
    (hlimi : ∀ p∈start.promotions, ∀ limit, p.usageLimit=some limit→0≤limit) :
    Accounted start [] start := by
  have hno : ∀ promotionId, ordersUsing start [] promotionId=[] := by
    simp [ordersUsing,husa]
  refine ⟨hpro,hord,by simp [husa],by simp [husa],?_,?_,?_,?_,?_,?_,?_⟩
  · intro p hp
    simpa [hno] using hcou p hp
  · simp [hno]
  · simp [hno,husa]
  · simp [everCancelled]
  · simp [hno]
  · intro orderId hcan
    exact .inl (orderCancelled_mem (by simpa [everCancelled] using hcan))
  · intro p hp limit hlim
    simpa [liveUses,hno] using hlimi p hp limit hlim

/-- In every run the orders that used a promotion and were never cancelled
stay within its limit. As long as no cancelled order with a use is deleted,
the limit refuses a use only when that many orders stand. -/
theorem promotionUsage_accounted (hstart : Accounted start [] start)
    (hrun : Run step Fresh start h s) :
    (∀ p∈s.promotions, ∀ limit, p.usageLimit=some limit→(liveUses start h p.id : ℤ)≤limit) ∧
      ∀ p∈s.promotions, (∀ e∈h, KeepsCancelledUses p.id e)→∀ input limit,
        p.usageLimit=some limit→couponReason s input p=.ok (some .usageLimitReached) →
        limit≤liveUses start h p.id := by
  have hacc : Accounted start h s := by
    refine Run.invariant (P := Accounted start) hrun hstart ?_
    exact fun _ _ _ hacc hfre => step_accounted hacc hfre
  refine ⟨hacc.within,fun p hp hkee input limit hlim href => ?_⟩
  have hsto : Accounted start h s ∧
      ((∀ e∈h, KeepsCancelledUses p.id e) → CancelledStored start p.id h s) := by
    refine Run.invariant (P := fun h s => Accounted start h s ∧
      ((∀ e∈h, KeepsCancelledUses p.id e) → CancelledStored start p.id h s)) hrun
        ⟨hstart,fun _ orderId huse _ => ?_⟩ ?_
    · rw [ordersUsing,flatMap_nil,append_nil] at huse
      obtain ⟨u,hu,rfl⟩ := mem_map.mp huse
      exact hstart.stored u (mem_filter.mp hu).1
    · rintro h s a ⟨hacc,hkp⟩ hfre
      refine ⟨step_accounted hacc hfre,fun hall => ?_⟩
      exact step_cancelledStored hacc hfre
        (hkp fun e he => hall e (mem_append_left _ he)) (hall _ (by simp))
  exact ((couponReason_limit href hlim).2 rfl).trans
    (hacc.effective_le_live input hp hlim (hsto.2 hkee))

/-- A store with a promotion that may be used once. -/
def sampleStore : Store where
  promotions := [⟨"spring",true,none,none,some 1,none,0⟩]
  usages := []
  orders := []
  customers := []

/-- Checkout of an order that uses the sample promotion. -/
def useSpring (orderId : String) : Action := .checkout ⟨orderId,none,none,0,["spring"],["spring"]⟩

/-- A pricing request at checkout. -/
def samplePricing : ResolveInput := ⟨none,none,none,0,["spring"]⟩

/-- The use of a cancelled order is lost when the order is deleted. -/
def lostActions : List Action := [useSpring "o1",.cancel "o1",.expire "o1" true]

/-- The use of a cancelled order is free for the next one. -/
def freedActions : List Action := [useSpring "o1",.cancel "o1",useSpring "o2"]

/-- A use is refused below the limit after a cancelled order was deleted. -/
theorem promotionUsage_accounted_lost :
    ¬ ∀ (start : Store) (h : List Transaction) (s : Store), Accounted start [] start →
      Run step Fresh start h s→∀ p∈s.promotions, ∀ input limit, p.usageLimit=some limit →
      couponReason s input p=.ok (some .usageLimitReached) → limit≤liveUses start h p.id := by
  intro hall
  have hsta : Accounted sampleStore [] sampleStore :=
    Accounted.opening rfl (by decide) (by decide) (by decide) (by decide)
  have hadm : Admitted step Fresh [] sampleStore lostActions :=
    ⟨⟨by decide,by decide⟩,trivial,trivial,trivial⟩
  have href := hall sampleStore _ _ hsta (.play Run.nil lostActions hadm)
    ⟨"spring",true,none,none,some 1,none,1⟩ (by decide) samplePricing 1 rfl (by decide)
  exact absurd href (by decide)

/-- Two orders use the promotion one after the other, the first one being
cancelled. -/
theorem promotionUsage_accounted_freed :
    (∀ p∈(play step [] sampleStore freedActions).2.promotions, ∀ limit, p.usageLimit=some limit →
        (liveUses sampleStore (play step [] sampleStore freedActions).1 p.id : ℤ)≤limit) ∧
      (play step [] sampleStore freedActions).2.usages.length=2 := by
  have hsta : Accounted sampleStore [] sampleStore :=
    Accounted.opening rfl (by decide) (by decide) (by decide) (by decide)
  have hadm : Admitted step Fresh [] sampleStore freedActions :=
    ⟨⟨by decide,by decide⟩,trivial,⟨by decide,by decide⟩,trivial⟩
  exact ⟨(promotionUsage_accounted hsta (.play Run.nil freedActions hadm)).1,by decide⟩

end SellRight.PromotionUsage
