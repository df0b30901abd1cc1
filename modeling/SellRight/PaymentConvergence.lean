import SellRight.EffectsIdentity
import SellRight.PaymentSettlement

/-!
# Convergence of payment deliveries

Results of one order are delivered in any order, with repetitions. Each
reference keeps one payment row, a settled row stays settled, and the order is
paid exactly when the references that were delivered as settled cover its
total. What is reached depends on the deliveries alone, not on their order.
-/

namespace SellRight.PaymentConvergence

open EffectsEngine EffectsIdentity OrderLifecycle PaymentLedger PaymentSettlement RowTable List
open RunHistory

variable {w : World} {db : Store}

/-- Payments after an insertion or a move to a reported state. -/
def paymentsAfter (db : Store) : SettlementMutation → List Payment
  | .paymentInsert row => db.payments++[row]
  | .paymentState paymentId next =>
    updateWhere (fun p => decide (p.id=paymentId∧p.state≠.settled)) (progressedRow next) db.payments
  | _ => db.payments

/-- The mutation inserts a new reference under the given identifier, or moves
the payment with this identifier. -/
def WritesPayment (db : Store) (paymentId : String) : SettlementMutation → Prop
  | .paymentInsert row =>
    row.id=paymentId∧row.providerRef.getD "" ≠ "" ∧
      ∀ p∈db.payments, conflictsWith row p=false
  | .paymentState target _ => target=paymentId
  | _ => False

theorem insertPayment_new {row : Payment} (hnew : ∀ p∈db.payments, conflictsWith row p=false) :
    insertPayment db row=some {db with payments := db.payments++[row]} := by
  unfold insertPayment
  rw [if_neg]
  rw [any_eq_true]
  rintro ⟨p,hp,hcon⟩
  rw [hnew p hp] at hcon
  cases hcon

variable {a : Ambient} {paymentId : String} {m : SettlementMutation} {requests : List EffectRequest}
  {p : Payment}

/-- A report of an uncaptured payment writes the payment and nothing else. -/
theorem record_progress {orderId : Option String} (hwri : WritesPayment db paymentId m) :
    recordSettlementOperation w a db ⟨.paymentStateProgress,paymentId,orderId,m,[]⟩ =
      .ok (⟨true,false,some paymentId⟩,{db with payments := paymentsAfter db m}) := by
  cases m with
  | paymentInsert =>
    obtain ⟨hid,href,hnew⟩ := hwri
    simp [recordSettlementOperation,eligible,operationPolicy,SettlementMutation.type,refInsert,
      href,resolveRef,insertPayment_new hnew,Except.map,monotoneKinds,applyMutation,
      paymentsAfter,hid]
  | paymentState =>
    cases hwri
    simp [recordSettlementOperation,eligible,operationPolicy,SettlementMutation.type,refInsert,
      monotoneKinds,applyMutation,paymentsAfter]
  | paymentGatewayIdentity | orderPaid => exact hwri.elim

/-- The effects an operation asks for are open to settled payments. -/
def BalanceEffects (requests : List EffectRequest) : Prop :=
  requests=[]∨requests=editBalanceEffects

/-- A captured payment whose operation is new writes the payment, records the
operation and runs its effects. -/
theorem record_settled {orderId : Option String}
    (hwri : WritesPayment db paymentId m) (hreq : BalanceEffects requests)
    (hnew : (⟨.paymentSettled,paymentId⟩ : Operation)∉db.effects.operations)
    (hop : quarantined db ⟨.paymentSettled,paymentId,orderId,m,requests⟩=false) :
    recordSettlementOperation w a db ⟨.paymentSettled,paymentId,orderId,m,requests⟩ =
      (runEffects w a ⟨.paymentSettled,paymentId⟩ requests db.effects).map fun run =>
        (⟨true,false,some paymentId⟩,{db with
            payments := paymentsAfter db m
            effects := run}) := by
  have hall : requests.all
      (fun r => decide (r.kind∈(operationPolicy .paymentSettled).effects))=true := by
    rcases hreq with rfl|rfl
    · rfl
    · decide
  cases m with
  | paymentInsert row =>
    obtain ⟨hid,href,hfre⟩ := hwri
    subst hid
    simp only [recordSettlementOperation,eligible,hall,hop]
    simp [operationPolicy,SettlementMutation.type,refInsert,href,resolveRef,
      insertPayment_new hfre,Except.map,monotoneKinds,applyMutation,paymentsAfter,hnew]
    cases runEffects w a ⟨.paymentSettled,row.id⟩ requests db.effects <;> rfl
  | paymentState =>
    cases hwri
    simp only [recordSettlementOperation,eligible,hall,hop]
    simp [operationPolicy,SettlementMutation.type,refInsert,monotoneKinds,applyMutation,
      paymentsAfter,hnew]
    cases runEffects w a ⟨.paymentSettled,paymentId⟩ requests db.effects <;> rfl
  | paymentGatewayIdentity | orderPaid => exact hwri.elim

/-- An order that can become paid becomes so once. -/
theorem record_paid {o : Order} {placedAt : ℤ} (hsto : findOrder db o.id=some o)
    (hpay : canTransition o.state .paid=true) (hcle : o.reconciliationRequired=false) :
    recordSettlementOperation w a db
        ⟨.orderPaidTransition,o.id,some o.id,.orderPaid o.id placedAt,paidOrderEffects⟩ =
      if (⟨.orderPaidTransition,o.id⟩ : Operation)∈db.effects.operations then .error .unapplied
      else (runEffects w a ⟨.orderPaidTransition,o.id⟩ paidOrderEffects db.effects).map fun run =>
        (⟨true,false,none⟩,{db with
            orders := updateWhere (fun row => decide (row.id=o.id)) (paidOrder placedAt) db.orders
            effects := run}) := by
  have heli : eligible ⟨.orderPaidTransition,o.id,some o.id,.orderPaid o.id placedAt,
      paidOrderEffects⟩=true := by
    simp [eligible,operationPolicy,SettlementMutation.type,paidOrderEffects]
  have hhd : quarantined db ⟨.orderPaidTransition,o.id,some o.id,.orderPaid o.id placedAt,
      paidOrderEffects⟩=false := by
    simp [quarantined,touchedOrders,hsto,hcle]
  simp only [recordSettlementOperation,heli,hhd]
  by_cases hold : (⟨.orderPaidTransition,o.id⟩ : Operation)∈db.effects.operations
  · simp [refInsert,monotoneKinds,hold,skipsOrderPaid,hsto,hpay]
  · simp [refInsert,monotoneKinds,hold,applyMutation,hsto,hpay,paymentIdentityKinds]
    cases runEffects w a ⟨.orderPaidTransition,o.id⟩ paidOrderEffects db.effects <;> rfl

/-- Running the effects of a new operation adds the operation and keeps
identities distinct. -/
theorem runEffects_ok {op : Operation} {effects run : Database} (hnew : op∉effects.operations)
    (hrun : runEffects w a op requests effects=.ok run) : run.operations=effects.operations++[op] ∧
      ((identities effects).Nodup→(identities run).Nodup) := by
  unfold runEffects at hrun
  simp only at hrun
  split at hrun
  · cases hrun
  · next inline hinl =>
    cases hrun
    have hpas := executeRows_identities _ hinl
    have hsto : KeepsIdentities {effects with operations := effects.operations++[op]}
        (recordOperation a.now op requests effects) := by
      rw [recordOperation,if_neg hnew]
      exact enqueueEffects_identities a.now op requests _
    exact ⟨hpas.operations.trans hsto.operations,fun h => hpas.distinct (hsto.distinct h)⟩

theorem runEffects_error {op : Operation} {effects : Database} {e : SettlementError}
    (hrun : runEffects w a op requests effects=.error e) : e=.handlerFailed := by
  unfold runEffects at hrun
  simp only at hrun
  split at hrun
  · cases hrun
    rfl
  · cases hrun

/-- Where a delivery writes: a new reference under the drawn identifier, or
the stored payment of the reference unless the result is stale. -/
def Planned (db : Store) (o : Order) (d : Delivery) (paymentId : String)
    (m : SettlementMutation) : Prop :=
  (findExisting db d=none∧paymentId=d.paymentId ∧
    m=.paymentInsert (deliveredRow o (d.amount.getD o.grandTotal) d)) ∨
  (∃ p, findExisting db d=some p∧isStale d p=false∧paymentId=p.id ∧
    m=.paymentState p.id ⟨d.result.state,d.result.duplicate,d.result.errorMessage⟩)

/-- The delivered amount makes the order paid. -/
def transitions (db : Store) (o : Order) (d : Delivery) : Bool := canTransition o.state .paid &&
    decide (amountDueForOrder db.payments db.refunds db.edits o.id o.grandTotal -
      d.amount.getD o.grandTotal≤0)

/-- What a completed delivery of the order leaves behind. -/
inductive Landing (db : Store) (o : Order) (d : Delivery) : Store → Prop where
  | unchanged (p : Payment) (hexisting : findExisting db d=some p) (hstale : isStale d p=true) :
      Landing db o d db
  | progressed (paymentId : String) (m : SettlementMutation)
      (hplanned : Planned db o d paymentId m) (hstate : d.result.state≠.settled) :
      Landing db o d {db with payments := paymentsAfter db m}
  | settled (paymentId : String) (m : SettlementMutation) (next : Store)
      (hplanned : Planned db o d paymentId m) (hstate : d.result.state=.settled)
      (hpayments : next.payments=paymentsAfter db m)
      (horders : next.orders =
        if transitions db o d then
          updateWhere (fun row => decide (row.id=o.id)) (paidOrder d.ambient.now) db.orders
        else db.orders)
      (hoperations : next.effects.operations =
        db.effects.operations++⟨.paymentSettled,paymentId⟩ ::
          if transitions db o d then [⟨.orderPaidTransition,o.id⟩] else [])
      (hidentities : (identities db.effects).Nodup→(identities next.effects).Nodup)
      (htables : next.refunds=db.refunds∧next.edits=db.edits) :
      Landing db o d next

variable {o : Order} {d : Delivery}

/-- The edits of an order were never staged. -/
def Unstaged (db : Store) (orderId : String) : Prop :=
  ∀ edit∈db.edits, edit.orderId=orderId→∀ settlement, edit.settlement=some settlement →
    settlement.phase=none∧settlement.paymentAttemptId=none

theorem Unstaged.pending (h : Unstaged db o.id) :
    (db.edits.any fun edit =>
      decide (edit.orderId=o.id)&&isPendingEditStage edit.settlement)=false := by
  rw [any_eq_false]
  intro edit hed hpen
  obtain ⟨hord,hsta⟩ := Bool.and_eq_true_iff.mp hpen
  cases hset : edit.settlement with
  | none =>
    rw [hset] at hsta
    cases hsta
  | some settlement =>
    have hph := (h edit hed (of_decide_eq_true hord) settlement hset).1
    simp [isPendingEditStage,hset,hph] at hsta

/-- Without staged edits a settled payment activates none. -/
theorem Unstaged.activate (h : Unstaged db o.id) (paymentAttemptId : Option String) :
    activatePreparedOrderEdit w db o.id paymentAttemptId=(db,false) := by
  have hno : selectedStage db o.id paymentAttemptId=none := by
    rw [selectedStage,find?_eq_none]
    intro edit hed
    cases hset : edit.settlement with
    | none => simp
    | some settlement =>
      by_cases hord : edit.orderId=o.id
      · obtain ⟨hph,hatt⟩ := h edit hed hord settlement hset
        cases paymentAttemptId with
        | none => simp [isPendingEditStage,hph]
        | some attemptId =>
          by_cases hem : attemptId = ""
          · simp [isPendingEditStage,hph,hem]
          · simp [hatt,hem]
      · simp [hord]
  unfold activatePreparedOrderEdit
  rw [hno]
  split <;> rfl

/-- The write a result plans for its payment. -/
structure Plan (db : Store) (o : Order) (paymentId : String) (m : SettlementMutation) : Prop where
  writes : WritesPayment db paymentId m
  operation : (⟨.paymentSettled,paymentId⟩ : Operation)∉db.effects.operations
  unquarantined : ∀ kind id requests, quarantined db ⟨kind,id,none,m,requests⟩=false
  stored : findOrder db o.id=some o
  clean : o.reconciliationRequired=false

/-- What a captured result of an order leaves behind. -/
structure Captures (db next : Store) (o : Order) (d : Delivery) (paymentId : String)
    (m : SettlementMutation) : Prop where
  payments : next.payments=paymentsAfter db m
  orders : next.orders =
    if transitions db o d then
      updateWhere (fun row => decide (row.id=o.id)) (paidOrder d.ambient.now) db.orders
    else db.orders
  operations : next.effects.operations =
    db.effects.operations++⟨.paymentSettled,paymentId⟩ ::
      if transitions db o d then [⟨.orderPaidTransition,o.id⟩] else []
  identities : (identities db.effects).Nodup→(identities next.effects).Nodup
  tables : next.refunds=db.refunds∧next.edits=db.edits

/-- A planned capture fails in a handler, or is refused where a paid transition
was recorded before the order can become paid, or is written. -/
theorem settleCaptured_cases (hpl : Plan db o paymentId m) (hed : d.editId=none) :
    settleCaptured w db o (d.amount.getD o.grandTotal) d paymentId m=.error .handlerFailed ∨
      ((⟨.orderPaidTransition,o.id⟩ : Operation)∈db.effects.operations ∧
        canTransition o.state .paid=true ∧
        settleCaptured w db o (d.amount.getD o.grandTotal) d paymentId m=.error .unapplied) ∨
      ∃ answer next, settleCaptured w db o (d.amount.getD o.grandTotal) d paymentId m =
        .ok (answer,next)∧Captures db next o d paymentId m := by
  unfold settleCaptured
  simp only [hed,Option.getD_none,ne_eq,not_true_eq_false,decide_false,Bool.and_false,
    Bool.false_eq_true,if_false]
  set remaining := amountDueForOrder db.payments db.refunds db.edits o.id o.grandTotal -
    d.amount.getD o.grandTotal with hrem
  generalize hreq : (if ((!canTransition o.state .paid &&
      decide (o.state=.paid∨o.state=.partiallyRefunded)&&decide (0≤remaining)) &&
      decide (remaining=0))=true then editBalanceEffects else [])=requests
  have hbal : BalanceEffects requests := by
    rw [← hreq]
    split
    · exact .inr rfl
    · exact .inl rfl
  rw [record_settled hpl.writes hbal hpl.operation (hpl.unquarantined _ _ _)]
  cases hrun : runEffects w d.ambient ⟨.paymentSettled,paymentId⟩ requests db.effects with
  | error =>
    left
    rw [runEffects_error hrun]
    rfl
  | ok run =>
    obtain ⟨hrunO,hrunI⟩ := runEffects_ok hpl.operation hrun
    simp only [Except.map,Bool.not_true,Bool.false_and,Bool.false_eq_true,if_false]
    cases htra : canTransition o.state .paid&&decide (remaining≤0) with
    | true =>
      have hpay := (Bool.and_eq_true_iff.mp htra).1
      rw [if_pos rfl,record_paid (by exact hpl.stored) hpay hpl.clean]
      split_ifs with hold
      · refine .inr (.inl ⟨?_,hpay,rfl⟩)
        simpa [hrunO] using hold
      cases hpai : runEffects w d.ambient ⟨.orderPaidTransition,o.id⟩ paidOrderEffects run with
      | error =>
        left
        rw [runEffects_error hpai]
        rfl
      | ok =>
        obtain ⟨hfina,hfin⟩ := runEffects_ok hold hpai
        refine .inr (.inr ⟨_,_,rfl,rfl,?_,?_,fun hdis => hfin (hrunI hdis),rfl,rfl⟩)
        · rw [transitions,← hrem,htra,if_pos rfl]
        · rw [transitions,← hrem,htra,if_pos rfl]
          simp only [hfina,hrunO,append_assoc,singleton_append]
    | false =>
      have hkp : ∀ next : Store, next.payments=paymentsAfter db m →
          next.orders=db.orders→next.effects=run →
          next.refunds=db.refunds∧next.edits=db.edits → Captures db next o d paymentId m := by
        intro next hpaym hord heff htab
        refine ⟨hpaym,?_,?_,heff ▸ hrunI,htab⟩
        · rw [transitions,← hrem,htra]
          exact hord
        · rw [transitions,← hrem,htra,heff,hrunO]
          rfl
      refine .inr (.inr ?_)
      rw [if_neg (by decide)]
      repeat' split
      all_goals exact ⟨_,_,rfl,hkp _ rfl rfl rfl ⟨rfl,rfl⟩⟩

/-- The tables a delivery of the order meets. -/
structure Ready (db : Store) (o : Order) (d : Delivery) : Prop where
  stored : findOrder db d.orderId=some o
  clean : o.reconciliationRequired=false
  state : o.state=.pendingPayment∨o.state=.paid
  edits : ∀ e∈db.edits, e.orderId≠o.id
  editId : d.editId=none
  ref : d.result.providerRef.getD "" ≠ ""
  ids : (db.payments.map Payment.id).Nodup
  /-- A stored payment of the reference is the delivered one. -/
  agrees : ∀ p, findExisting db d=some p →
    p.orderId=o.id∧p.amount=d.amount.getD o.grandTotal∧p.currency=some o.currency ∧
      p.gatewayAccount=d.result.accountId∧p.gatewayMode=d.result.mode
  /-- A stored payment that is not settled has no settlement operation. -/
  unsettled : ∀ p, findExisting db d=some p→p.state≠.settled →
    (⟨.paymentSettled,p.id⟩ : Operation)∉db.effects.operations
  /-- A new reference conflicts with no stored payment. -/
  unknown : findExisting db d=none →
    ∀ p∈db.payments, conflictsWith (deliveredRow o (d.amount.getD o.grandTotal) d) p=false
  drawn : (⟨.paymentSettled,d.paymentId⟩ : Operation)∉db.effects.operations
  /-- An order that waits for its payment has no paid transition. -/
  unpaid : o.state=.pendingPayment → (⟨.orderPaidTransition,o.id⟩ : Operation)∉db.effects.operations

section
variable (h : Ready db o d)
include h

/-- The order of a delivery is stored under its own identifier. -/
theorem Ready.orderId : d.orderId=o.id :=
  (find_key_eq_some Order.id h.stored).2.symm

section
variable (hpla : Planned db o d paymentId m)
include hpla

/-- A planned write inserts the delivered row or moves the stored one. -/
theorem Ready.writes : WritesPayment db paymentId m := by
  rcases hpla with ⟨hno,rfl,rfl⟩|⟨p,-,-,rfl,rfl⟩
  · exact ⟨rfl,h.ref,h.unknown hno⟩
  · exact rfl

theorem Ready.operation :
    (⟨.paymentSettled,paymentId⟩ : Operation)∉db.effects.operations := by
  rcases hpla with ⟨-,rfl,-⟩|⟨p,hexi,hsta,rfl,-⟩
  · exact h.drawn
  · apply h.unsettled p hexi
    intro hset
    simp [isStale,hset] at hsta

/-- A planned write of the order touches no quarantined order. -/
theorem Ready.unquarantined (kind : SettlementKind) (id : String)
    (requests : List EffectRequest) : quarantined db ⟨kind,id,none,m,requests⟩=false := by
  have hsto : findOrder db o.id=some o := by
    rw [← h.orderId]
    exact h.stored
  rcases hpla with ⟨-,-,rfl⟩|⟨p,hexi,-,-,rfl⟩
  · simp [quarantined,touchedOrders,deliveredRow,hsto,h.clean]
  have hp : p∈db.payments := by
    unfold findExisting at hexi
    rw [if_neg h.ref] at hexi
    exact mem_of_find?_eq_some hexi
  have hfin := find_key_self Payment.id h.ids hp
  simp [quarantined,touchedOrders,hfin,(h.agrees p hexi).1,hsto,h.clean]

end

/-- The order that settles is the stored one, also under its own identifier. -/
theorem Ready.self : findOrder db o.id=some o := by
  rw [← h.orderId]
  exact h.stored

theorem Ready.unstaged : Unstaged db o.id :=
  fun edit hed hord => absurd hord (h.edits edit hed)

theorem settlePlanned_landing (hpla : Planned db o d paymentId m) :
    settlePlanned w db o (d.amount.getD o.grandTotal) d paymentId m=.error .handlerFailed ∨
      ∃ answer next, settlePlanned w db o (d.amount.getD o.grandTotal) d paymentId m =
        .ok (answer,next)∧Landing db o d next := by
  have hpl : Plan db o paymentId m :=
    ⟨h.writes hpla,h.operation hpla,h.unquarantined hpla,h.self,h.clean⟩
  unfold settlePlanned
  by_cases hst : d.result.state=.settled
  · rw [if_neg (by simp [hst,h.clean]),h.unstaged.pending,if_neg (by decide)]
    rcases settleCaptured_cases hpl h.editId with hfail|⟨hold,hpay,-⟩|⟨answer,next,hres,hcap⟩
    · exact .inl hfail
    · rcases h.state with hpen|hpai
      · exact absurd hold (h.unpaid hpen)
      · rw [hpai] at hpay
        cases hpay
    · exact .inr ⟨answer,next,hres,.settled paymentId m next hpla hst hcap.payments hcap.orders
        hcap.operations hcap.identities hcap.tables⟩
  · rw [if_pos (.inl hst),if_neg hst,record_progress hpl.writes]
    exact .inr ⟨_,_,rfl,.progressed paymentId m hpla hst⟩

/-- A stored payment that agrees with the delivery does not mismatch and needs
no identity. -/
theorem Ready.accepts (hexi : findExisting db d=some p) :
    mismatches o (d.amount.getD o.grandTotal) d p=false∧completesIdentity d p=false := by
  obtain ⟨hord,hamo,hcur,hacc,hmod⟩ := h.agrees p hexi
  constructor
  · simp [mismatches,contradicts,hord,hamo,hcur,hacc,hmod]
  · simp only [completesIdentity,hacc,hmod,Bool.or_eq_false_iff,decide_eq_false_iff_not]
    exact ⟨fun hmod => hmod.1 hmod.2,fun hacc => hacc.1 hacc.2⟩

/-- A delivery of the order fails only in a handler, and otherwise lands. -/
theorem applyPaymentResult_landing :
    applyPaymentResult w db d=.error .handlerFailed ∨
      ∃ answer next, applyPaymentResult w db d=.ok (answer,next)∧Landing db o d next := by
  unfold applyPaymentResult
  simp only [h.stored]
  cases hexi : findExisting db d with
  | none => exact settlePlanned_landing h (.inl ⟨hexi,rfl,rfl⟩)
  | some p =>
    obtain ⟨hmt,hide⟩ := h.accepts hexi
    simp only [hmt,Bool.false_eq_true,if_false,backfillIdentity,hide]
    cases hsta : isStale d p with
    | true =>
      right
      simp only [if_true]
      split
      · rw [h.unstaged.activate]
        exact ⟨_,_,rfl,.unchanged p hexi hsta⟩
      · exact ⟨_,_,rfl,.unchanged p hexi hsta⟩
    | false => exact settlePlanned_landing h (.inr ⟨p,hexi,hsta,rfl,rfl⟩)

end

/-- Money delivered under one reference. -/
structure Tender where
  method : String
  providerRef : Option String
  amount : ℤ
  (gatewayAccount gatewayMode : Option String)
  deriving DecidableEq

/-- Money a delivery reports for an order of the given total. -/
def tenderOf (grandTotal : ℤ) (d : Delivery) : Tender :=
  ⟨d.method,d.result.providerRef,d.amount.getD grandTotal,d.result.accountId,d.result.mode⟩

/-- Money a payment row stores. -/
def storedTender (p : Payment) : Tender :=
  ⟨p.method,p.providerRef,p.amount,p.gatewayAccount,p.gatewayMode⟩

/-- Method and reference of a payment. -/
def refKey (p : Payment) : String×Option String := (p.method,p.providerRef)

/-- Reported money with the state it was reported in. -/
abbrev Fact := Tender×PaymentState

/-- The rows stored for an order follow the facts delivered for it. -/
structure Follows (o : Order) (fs : List Fact) (rows : List Payment) : Prop where
  known : ∀ p∈rows, p.orderId=o.id∧p.currency=some o.currency∧p.duplicate=false
  delivered : ∀ p∈rows, ∃ f∈fs, f.1=storedTender p
  stored : ∀ f∈fs, ∃ p∈rows, storedTender p=f.1
  /-- A row is settled when its money was delivered as settled. -/
  settled : ∀ p∈rows, p.state=.settled ↔ (storedTender p,.settled)∈fs
  keys : (rows.map refKey).Nodup

variable {fs : List Fact} {rows : List Payment}

section
variable (h : Follows o fs rows)
include h

/-- Rows of different references store different money. -/
theorem Follows.apart {q : Payment} (hp : p∈rows) (hq : q∈rows)
    (heq : storedTender p=storedTender q) : p=q := by
  apply eq_of_key_eq refKey h.keys hp hq
  rw [refKey,refKey,(Tender.mk.inj heq).1,(Tender.mk.inj heq).2.1]

/-- A stale fact changes no row. -/
theorem Follows.stale (hp : p∈rows) {state : PaymentState} (hst : state=.settled→p.state=.settled) :
    Follows o (fs++[(storedTender p,state)]) rows := by
  refine ⟨h.known,?_,?_,?_,h.keys⟩
  · intro q hq
    obtain ⟨f,hf,hmon⟩ := h.delivered q hq
    exact ⟨f,mem_append_left _ hf,hmon⟩
  · intro f hf
    rcases mem_concat_iff.mp hf with hold|rfl
    · exact h.stored f hold
    · exact ⟨p,hp,rfl⟩
  · intro q hq
    rw [h.settled q hq]
    constructor
    · exact fun hold => mem_append_left _ hold
    · intro hmem
      rcases mem_append.mp hmem with hold|hlt
      · exact hold
      · obtain ⟨hmon,hset⟩ := Prod.mk.inj (mem_singleton.mp hlt)
        rw [h.apart hq hp hmon]
        exact (h.settled p hp).mp (hst hset.symm)

/-- The first fact of a reference adds its row. -/
theorem Follows.insert {row : Payment}
    (hkn : row.orderId=o.id∧row.currency=some o.currency∧row.duplicate=false)
    (hnew : ∀ p∈rows, refKey p≠refKey row) :
    Follows o (fs++[(storedTender row,row.state)]) (rows++[row]) := by
  have hot : ∀ p∈rows, storedTender p≠storedTender row := by
    intro p hp heq
    apply hnew p hp
    rw [refKey,refKey,(Tender.mk.inj heq).1,(Tender.mk.inj heq).2.1]
  refine ⟨?_,?_,?_,?_,nodup_map_append refKey h.keys hnew⟩
  · intro p hp
    rcases mem_concat_iff.mp hp with hold|rfl
    · exact h.known p hold
    · exact hkn
  · intro p hp
    rcases mem_concat_iff.mp hp with hold|rfl
    · obtain ⟨f,hf,hmon⟩ := h.delivered p hold
      exact ⟨f,mem_append_left _ hf,hmon⟩
    · exact ⟨_,mem_concat_self,rfl⟩
  · intro f hf
    rcases mem_concat_iff.mp hf with hold|rfl
    · obtain ⟨p,hp,hmon⟩ := h.stored f hold
      exact ⟨p,mem_append_left _ hp,hmon⟩
    · exact ⟨row,mem_concat_self,rfl⟩
  · intro p hp
    rw [mem_append,mem_singleton,Prod.mk.injEq]
    rcases mem_concat_iff.mp hp with hold|rfl
    · rw [h.settled p hold]
      exact ⟨.inl,fun hmem => hmem.resolve_right fun heq => hot p hold heq.1⟩
    · constructor
      · exact fun hset => .inr ⟨rfl,hset.symm⟩
      · rintro (hold|⟨-,hset⟩)
        · obtain ⟨p,hp,hmon⟩ := h.stored _ hold
          exact absurd hmon (hot p hp)
        · exact hset.symm

/-- A fact that moves an unsettled row follows on. -/
theorem Follows.progress (hp : p∈rows)
    (hids : (rows.map Payment.id).Nodup) (huns : p.state≠.settled)
    {next : PaymentStateUpdate} (hdup : next.duplicate=false) :
    Follows o (fs++[(storedTender p,next.state)])
      (updateWhere (fun q => decide (q.id=p.id)) (progressedRow next) rows) := by
  have hmem : ∀ q∈updateWhere (fun q => decide (q.id=p.id)) (progressedRow next) rows,
      q=progressedRow next p∨(q∈rows∧q≠p) := by
    intro q hq
    rcases mem_updateWhere.mp hq with ⟨old,hold,hid,rfl⟩|⟨hold,hid⟩
    · left
      rw [eq_of_key_eq Payment.id hids hold hp (of_decide_eq_true hid)]
    right
    refine ⟨hold,?_⟩
    rintro rfl
    simp at hid
  have hkp : ∀ q∈rows, q≠p →
      q∈updateWhere (fun q => decide (q.id=p.id)) (progressedRow next) rows := by
    intro q hq hne
    refine mem_updateWhere.mpr (.inr ⟨hq,decide_eq_false_iff_not.mpr ?_⟩)
    exact fun hid => hne (eq_of_key_eq Payment.id hids hq hp hid)
  have hmv : progressedRow next p ∈
      updateWhere (fun q => decide (q.id=p.id)) (progressedRow next) rows :=
    mem_updateWhere.mpr (.inl ⟨p,hp,decide_eq_true rfl,rfl⟩)
  refine ⟨?_,?_,?_,?_,?_⟩
  · intro q hq
    rcases hmem q hq with rfl|⟨hold,-⟩
    · exact ⟨(h.known p hp).1,(h.known p hp).2.1,hdup⟩
    · exact h.known q hold
  · intro q hq
    rcases hmem q hq with rfl|⟨hold,-⟩
    · exact ⟨_,mem_concat_self,rfl⟩
    · obtain ⟨f,hf,hmon⟩ := h.delivered q hold
      exact ⟨f,mem_append_left _ hf,hmon⟩
  · intro f hf
    rcases mem_concat_iff.mp hf with hold|rfl
    · obtain ⟨q,hq,hmon⟩ := h.stored f hold
      by_cases heq : q=p
      · subst heq
        exact ⟨_,hmv,hmon⟩
      · exact ⟨q,hkp q hq heq,hmon⟩
    · exact ⟨_,hmv,rfl⟩
  · intro q hq
    rw [mem_append,mem_singleton,Prod.mk.injEq]
    rcases hmem q hq with rfl|⟨hold,hne⟩
    · constructor
      · exact fun hset => .inr ⟨rfl,hset.symm⟩
      · rintro (hold|⟨-,hset⟩)
        · exact absurd ((h.settled p hp).mpr hold) huns
        · exact hset.symm
    · rw [h.settled q hold]
      exact ⟨.inl,fun hmem => hmem.resolve_right fun heq => hne (h.apart hold hp heq.1)⟩
  · rw [map_updateWhere]
    · exact h.keys
    · exact fun _ _ => rfl

end

/-- An order that waits for its first payment. -/
structure Opening (o : Order) (start : Store) : Prop where
  stored : findOrder start o.id=some o
  pending : o.state=.pendingPayment
  clean : o.reconciliationRequired=false
  uncovered : settledTotal start.payments o.id<o.grandTotal
  refunds : ∀ r∈start.refunds, r.orderId≠o.id
  edits : ∀ e∈start.edits, e.orderId≠o.id
  unpaid : (⟨.orderPaidTransition,o.id⟩ : Operation)∉start.effects.operations
  ids : (start.payments.map Payment.id).Nodup
  identities : (identities start.effects).Nodup

abbrev History := List (Event Store Delivery (Except SettlementError Settled))

/-- A delivery of the order with a reference of its own: whatever is delivered
under one reference names the same money, and no payment stored at the start
carries it. -/
structure Admissible (start : Store) (o : Order) (past : History) (s : Store) (d : Delivery) :
    Prop where
  order : d.orderId=o.id
  editId : d.editId=none
  /-- The reference is neither missing nor empty. -/
  ref : ∃ ref, d.result.providerRef=some ref∧ref ≠ ""
  amount : 0≤d.amount.getD o.grandTotal
  tender : d.result.duplicate=false
  /-- A reference always carries the same amount and identity. -/
  same : ∀ e∈past, e.action.method=d.method→e.action.result.providerRef=d.result.providerRef →
    tenderOf o.grandTotal e.action=tenderOf o.grandTotal d
  /-- Payments stored at the start carry other references. -/
  foreign : ∀ p∈start.payments, ¬ (p.method=d.method∧p.providerRef=d.result.providerRef)
  drawn : (∀ p∈s.payments, p.id≠d.paymentId) ∧
    (⟨.paymentSettled,d.paymentId⟩ : Operation)∉s.effects.operations

/-- State of the tables after facts were delivered for the order. -/
structure Tracked (start : Store) (o : Order) (fs : List Fact) (rows : List Payment) (s : Store) :
    Prop where
  /-- Payments of the start are followed by those delivered. -/
  payments : s.payments=start.payments++rows
  follows : Follows o fs rows
  ids : (s.payments.map Payment.id).Nodup
  /-- The order is paid when its settled tenders cover the total. -/
  order : ∃ cur, findOrder s o.id=some cur∧cur.id=o.id∧cur.grandTotal=o.grandTotal ∧
    cur.currency=o.currency∧cur.reconciliationRequired=false ∧
    (cur.state=.pendingPayment∨cur.state=.paid) ∧
    (cur.state=.paid ↔ o.grandTotal ≤ settledTotal s.payments o.id) ∧
    s.effects.operations.count ⟨.orderPaidTransition,o.id⟩=if cur.state=.paid then 1 else 0
  unsettled : ∀ p∈rows, p.state≠.settled → (⟨.paymentSettled,p.id⟩ : Operation)∉s.effects.operations
  tables : s.refunds=start.refunds∧s.edits=start.edits
  identities : (identities s.effects).Nodup

variable {start s : Store} {past : History}

/-- An order that waits for its first payment is tracked without facts. -/
theorem Opening.tracked (hop : Opening o start) : Tracked start o [] [] start := by
  refine ⟨(append_nil _).symm,⟨?_,?_,?_,?_,nodup_nil⟩,hop.ids,?_,?_,⟨rfl,rfl⟩,hop.identities⟩
  · exact fun p hp => absurd hp not_mem_nil
  · exact fun p hp => absurd hp not_mem_nil
  · exact fun f hf => absurd hf not_mem_nil
  · exact fun p hp => absurd hp not_mem_nil
  · refine ⟨o,hop.stored,rfl,rfl,rfl,hop.clean,.inl hop.pending,?_,?_⟩
    · rw [hop.pending]
      exact ⟨nofun,fun h => absurd h (not_le.mpr hop.uncovered)⟩
    · rw [hop.pending,if_neg (by decide)]
      exact count_eq_zero.mpr hop.unpaid
  · exact fun p hp => absurd hp not_mem_nil

theorem settledTotal_eq (payments : List Payment) (orderId : String) :
    settledTotal payments orderId=(payments.map fun p =>
      if decide (p.orderId=orderId)&&usableTender p then p.amount else 0).sum :=
  sum_map_filter _ _ _

theorem settledTotal_progress {payments : List Payment} (hids : (payments.map Payment.id).Nodup)
    (hp : p∈payments) (hord : p.orderId=o.id) (huns : p.state≠.settled)
    {next : PaymentStateUpdate} (hdup : next.duplicate=false) :
    settledTotal (updateWhere (fun q => decide (q.id=p.id)) (progressedRow next) payments) o.id =
      settledTotal payments o.id+if next.state=.settled then p.amount else 0 := by
  rw [settledTotal_eq,settledTotal_eq,sum_update_key Payment.id _ hids hp]
  by_cases hst : next.state=.settled
  · simp [progressedRow,usableTender,hord,huns,hdup,hst]
  · simp [progressedRow,usableTender,hord,huns,hst]

/-- A payment found for a delivery carries its method and reference. -/
theorem findExisting_some (hexi : findExisting db d=some p) :
    p∈db.payments∧p.method=d.method∧p.providerRef=d.result.providerRef := by
  unfold findExisting at hexi
  split_ifs at hexi
  have hcon := find?_some hexi
  have hkey := of_decide_eq_true (Bool.and_eq_true_iff.mp hcon).1
  exact ⟨mem_of_find?_eq_some hexi,hkey⟩

/-- A payment of the delivered money is found. -/
theorem findExisting_none (href : d.result.providerRef.getD "" ≠ "")
    (hno : findExisting db d=none) (hp : p∈db.payments) {grandTotal : ℤ} :
    storedTender p≠tenderOf grandTotal d := by
  intro heq
  rw [findExisting,if_neg href,find?_eq_none] at hno
  obtain ⟨hmet,href,-,hacc,hmod⟩ := Tender.mk.inj heq
  apply hno p hp
  simp [sameGateway,hmet,href,hacc,hmod]

/-- Facts of one reference name the delivered money. -/
def Consistent (o : Order) (fs : List Fact) (d : Delivery) : Prop :=
  ∀ f∈fs, f.1.method=d.method→f.1.providerRef=d.result.providerRef→f.1=tenderOf o.grandTotal d

section
variable (h : Tracked start o fs rows s)
include h

/-- The payment found for an admissible delivery is the row of its money. -/
theorem Tracked.existing (hadm : Admissible start o past s d)
    (heq : Consistent o fs d) (hexi : findExisting s d=some p) :
    p∈rows∧storedTender p=tenderOf o.grandTotal d := by
  obtain ⟨hmem,hmet,href⟩ := findExisting_some hexi
  rw [h.payments] at hmem
  rcases mem_append.mp hmem with hsta|hrow
  · exact absurd ⟨hmet,href⟩ (hadm.foreign p hsta)
  obtain ⟨f,hf,hmon⟩ := h.follows.delivered p hrow
  refine ⟨hrow,hmon ▸ heq f hf ?_ ?_⟩
  · rw [hmon]
    exact hmet
  · rw [hmon]
    exact href

/-- No payment carries a reference that is not found. -/
theorem Tracked.missing (hadm : Admissible start o past s d)
    (heq : Consistent o fs d) (hno : findExisting s d=none)
    (hp : p∈s.payments) : refKey p≠(d.method,d.result.providerRef) := by
  intro hkey
  obtain ⟨hmet,href⟩ := Prod.mk.inj hkey
  have hmem := hp
  rw [h.payments] at hmem
  rcases mem_append.mp hmem with hsta|hrow
  · exact hadm.foreign p hsta ⟨hmet,href⟩
  obtain ⟨f,hf,hmon⟩ := h.follows.delivered p hrow
  obtain ⟨ref,hso,hem⟩ := hadm.ref
  refine findExisting_none (by simpa [hso] using hem) hno hp (hmon ▸ heq f hf ?_ ?_)
  · rw [hmon]
    exact hmet
  · rw [hmon]
    exact href

/-- An admissible delivery meets tables that are ready for it. -/
theorem Tracked.ready (hop : Opening o start)
    (hadm : Admissible start o past s d) (heq : Consistent o fs d) :
    ∃ cur, findOrder s o.id=some cur∧Ready s cur d := by
  obtain ⟨cur,hcur,hid,htot,hcurr,hcle,hst,-,hct⟩ := h.order
  obtain ⟨ref,hso,hem⟩ := hadm.ref
  refine ⟨cur,hcur,?_,hcle,hst,?_,hadm.editId,by simpa [hso] using hem,h.ids,
    ?_,?_,?_,hadm.drawn.2,?_⟩
  · rw [hadm.order]
    exact hcur
  · rw [h.tables.2,hid]
    exact hop.edits
  · intro p hexi
    obtain ⟨hrow,hmon⟩ := h.existing hadm heq hexi
    obtain ⟨-,-,hamo,hacc,hmod⟩ := Tender.mk.inj hmon
    obtain ⟨hord,hpai,-⟩ := h.follows.known p hrow
    rw [hid,htot,hcurr]
    exact ⟨hord,hamo,hpai,hacc,hmod⟩
  · intro p hexi
    exact h.unsettled p (h.existing hadm heq hexi).1
  · intro hno p hp
    have hkey := h.missing hadm heq hno hp
    simp only [conflictsWith,deliveredRow,Bool.and_eq_false_iff]
    refine .inl (decide_eq_false ?_)
    rintro ⟨-,href,hmet⟩
    exact hkey (by rw [refKey,href,hmet])
  · intro hpen
    rw [hid]
    rw [if_neg (by rw [hpen]; decide)] at hct
    exact count_eq_zero.mp hct

/-- Payments after a planned write: the row of the delivered money is there,
and nothing else changed. -/
theorem Tracked.write (hadm : Admissible start o past s d)
    (heq : Consistent o fs d) {cur : Order} (hid : cur.id=o.id)
    (htot : cur.grandTotal=o.grandTotal) (hcur : cur.currency=o.currency)
    (hpla : Planned s cur d paymentId m) : ∃ rows', paymentsAfter s m=start.payments++rows' ∧
      Follows o (fs++[(tenderOf o.grandTotal d,d.result.state)]) rows' ∧
      ((paymentsAfter s m).map Payment.id).Nodup ∧
      settledTotal (paymentsAfter s m) o.id=settledTotal s.payments o.id +
        (if d.result.state=.settled then d.amount.getD o.grandTotal else 0) ∧
      ∀ p∈rows', (p.id=paymentId∧p.state=d.result.state)∨(p∈rows∧p.id≠paymentId) := by
  rcases hpla with ⟨hno,rfl,rfl⟩|⟨p,hexi,hsta,rfl,rfl⟩
  · set row := deliveredRow cur (d.amount.getD cur.grandTotal) d with hrow
    have hmon : storedTender row=tenderOf o.grandTotal d := by
      rw [hrow,storedTender,deliveredRow,tenderOf,htot]
    refine ⟨rows++[row],?_,?_,?_,?_,?_⟩
    · simp only [paymentsAfter,h.payments,append_assoc]
    · rw [← hmon]
      apply h.follows.insert
      · exact ⟨hid,by rw [hrow,deliveredRow,hcur],hadm.tender⟩
      · intro p hp
        exact h.missing hadm heq hno (h.payments ▸ mem_append_right _ hp)
    · exact nodup_map_append Payment.id h.ids hadm.drawn.1
    · rw [paymentsAfter,settledTotal_append]
      simp [usableTender,hrow,deliveredRow,hid,htot,hadm.tender]
    · intro p hp
      rcases mem_concat_iff.mp hp with hold|rfl
      · exact .inr ⟨hold,hadm.drawn.1 p (h.payments ▸ mem_append_right _ hold)⟩
      · exact .inl ⟨rfl,rfl⟩
  · obtain ⟨hp,hmon⟩ := h.existing hadm heq hexi
    have hsto : p∈s.payments := h.payments ▸ mem_append_right _ hp
    have huns : p.state≠.settled := by
      intro hset
      simp [isStale,hset] at hsta
    set next : PaymentStateUpdate :=
      ⟨d.result.state,d.result.duplicate,d.result.errorMessage⟩ with hnx
    have hids := h.ids
    rw [h.payments,map_append,nodup_append] at hids
    have haft : paymentsAfter s (.paymentState p.id next) =
        updateWhere (fun q => decide (q.id=p.id)) (progressedRow next) s.payments := by
      apply updateWhere_congr
      intro q hq
      by_cases hid : q.id=p.id
      · rw [eq_of_key_eq Payment.id h.ids hq hsto hid]
        simp [huns]
      · simp [hid]
    have hstart : updateWhere (fun q => decide (q.id=p.id)) (progressedRow next)
        start.payments=start.payments := by
      apply updateWhere_eq_self
      intro q hq
      rw [decide_eq_false_iff_not]
      exact hids.2.2 _ (mem_map_of_mem hq) _ (mem_map_of_mem hp)
    refine ⟨updateWhere (fun q => decide (q.id=p.id)) (progressedRow next) rows,?_,?_,?_,?_,?_⟩
    · rw [haft,h.payments,updateWhere,map_append]
      congr 1
    · rw [← hmon]
      exact h.follows.progress hp hids.2.1 huns (show next.duplicate=false from hadm.tender)
    · rw [haft,map_updateWhere]
      · exact h.ids
      · exact fun _ _ => rfl
    · rw [haft,settledTotal_progress h.ids hsto (h.follows.known p hp).1 huns
        (show next.duplicate=false from hadm.tender),← (Tender.mk.inj hmon).2.2.1]
    · intro q hq
      rcases mem_updateWhere.mp hq with ⟨old,-,hid,rfl⟩|⟨hold,hid⟩
      · exact .inl ⟨of_decide_eq_true hid,rfl⟩
      · exact .inr ⟨hold,of_decide_eq_false hid⟩

/-- What a completed delivery leaves behind is tracked with one more fact. -/
theorem Tracked.land (hop : Opening o start)
    (hadm : Admissible start o past s d) (heq : Consistent o fs d) {cur : Order}
    (hcur : findOrder s o.id=some cur) (hrdy : Ready s cur d) {next : Store}
    (hlan : Landing s cur d next) :
    ∃ rows', Tracked start o (fs++[(tenderOf o.grandTotal d,d.result.state)]) rows' next := by
  obtain ⟨stored,hsto,hid,htot,hcurr,hcle,hst,hpai,hct⟩ := h.order
  cases hcur.symm.trans hsto
  cases hlan with
  | unchanged _ hexi hsta =>
    obtain ⟨hp,hmon⟩ := h.existing hadm heq hexi
    refine ⟨rows,{h with follows := ?_}⟩
    rw [← hmon]
    apply h.follows.stale hp
    intro hset
    rcases of_decide_eq_true hsta with hfin|hpen|hrepe
    · exact hfin
    · exact absurd (hset.symm.trans hpen.2) (by decide)
    · exact absurd hset hrepe.2.1
  | progressed _ _ hpla hrep =>
    obtain ⟨rows',hpay,hfol,hids,hsum,hrs⟩ :=
      h.write hadm heq hid htot hcurr hpla
    rw [if_neg hrep,add_zero] at hsum
    refine ⟨rows',hpay,hfol,hids,?_,?_,h.tables,h.identities⟩
    · exact ⟨cur,hcur,hid,htot,hcurr,hcle,hst,by rw [hsum]; exact hpai,hct⟩
    intro p hp huns
    rcases hrs p hp with ⟨hdra,-⟩|⟨hold,-⟩
    · rw [hdra]
      exact hrdy.operation hpla
    · exact h.unsettled p hold huns
  | settled _ _ next hpla hrep haft hord hope hide htab =>
    obtain ⟨rows',hpay,hfol,hids,hsum,hrs⟩ :=
      h.write hadm heq hid htot hcurr hpla
    rw [if_pos hrep] at hsum
    have href : ∀ r∈s.refunds, r.orderId≠o.id := by
      rw [h.tables.1]
      exact hop.refunds
    have hmvs : transitions s cur d=true ↔ cur.state=.pendingPayment ∧
        o.grandTotal ≤ settledTotal next.payments o.id := by
      rw [transitions,amountDueForOrder,hid,editRefundedTotal_none _ href,htot,haft,
        hsum,Bool.and_eq_true_iff,decide_eq_true_iff]
      constructor
      · rintro ⟨hpaya,hcov⟩
        refine ⟨hst.resolve_right fun hdn => ?_,by omega⟩
        rw [hdn] at hpaya
        cases hpaya
      · rintro ⟨hpen,hcov⟩
        exact ⟨by rw [hpen]; rfl,by omega⟩
    refine ⟨rows',by rw [haft,hpay],hfol,by rw [haft]; exact hids,?_,?_,
      ⟨htab.1.trans h.tables.1,htab.2.trans h.tables.2⟩,hide h.identities⟩
    · by_cases htra : transitions s cur d=true
      · obtain ⟨hpen,hcov⟩ := hmvs.mp htra
        rw [if_pos htra] at hord hope
        refine ⟨paidOrder d.ambient.now cur,?_,hid,htot,hcurr,hcle,.inr rfl,
          ⟨fun _ => hcov,fun _ => rfl⟩,?_⟩
        · rw [findOrder] at hcur
          rw [findOrder,hord,hid,find_key_updateWhere (f := paidOrder d.ambient.now) Order.id
            o.id o.id fun _ => rfl,hcur,if_pos rfl]
          rfl
        · rw [hope,count_append,hct,hid,hpen]
          simp [paidOrder]
      · rw [if_neg htra] at hord hope
        refine ⟨cur,?_,hid,htot,hcurr,hcle,hst,?_,?_⟩
        · rw [findOrder,hord]
          exact hcur
        · constructor
          · intro hdn
            have hcove := hpai.mp hdn
            have hamo := hadm.amount
            rw [haft,hsum]
            omega
          · intro hcov
            rcases hst with hpen|hdn
            · exact absurd (hmvs.mpr ⟨hpen,hcov⟩) htra
            · exact hdn
        · rw [hope,count_append,hct]
          simp
    · intro p hp huns
      rcases hrs p hp with ⟨-,hnow⟩|⟨hold,hot⟩
      · exact absurd (hnow.trans hrep) huns
      rw [hope,mem_append]
      rintro (hrec|hlt)
      · exact h.unsettled p hold huns hrec
      · rcases mem_cons.mp hlt with hsett|hpays
        · exact hot (Operation.mk.inj hsett).2
        · split at hpays
          · cases mem_singleton.mp hpays
          · cases hpays

end

def completed (e : Event Store Delivery (Except SettlementError Settled)) : Bool :=
  match e.result with
  | .ok _ => true
  | .error _ => false

/-- Money and states of the completed deliveries, oldest first. -/
def facts (o : Order) (h : History) : List Fact :=
  (h.filter completed).map fun e => (tenderOf o.grandTotal e.action,e.action.result.state)

/-- Money of the references with a completed delivery that settled. -/
def settledFacts (o : Order) (h : History) : Finset Tender :=
  (((facts o h).filter fun f => decide (f.2=.settled)).map Prod.fst).toFinset

/-- Money of the settled payments of an order. -/
def settledTenders (o : Order) (s : Store) : Finset Tender :=
  ((s.payments.filter fun p => decide (p.orderId=o.id∧p.state=.settled)).map storedTender).toFinset

/-- What deliveries leave behind, for every history of them. -/
structure Converged (start : Store) (o : Order) (h : History) (s : Store) : Prop where
  /-- Only a failed handler rolls a delivery back. -/
  failures : ∀ e∈h, completed e=false→e.result=.error .handlerFailed∧e.after=e.before
  /-- Each delivered reference has exactly one payment. -/
  oneRow : ∀ e∈h, completed e=true→s.payments.countP (fun p => decide (p.method=e.action.method ∧
      p.providerRef=e.action.result.providerRef))=1
  stays : ∀ e∈h, ∀ p∈e.before.payments, p.state=.settled→p∈s.payments
  tenders : settledTenders o s=settledTenders o start ∪ settledFacts o h
  /-- The order is paid when the settled money covers its total. -/
  order : ∃ cur, findOrder s o.id=some cur ∧
    cur.state=if o.grandTotal ≤ settledTotal start.payments o.id +
      ∑ t∈settledFacts o h, t.amount then .paid else .pendingPayment
  operation : s.effects.operations.count ⟨.orderPaidTransition,o.id⟩≤1
  /-- Each effect of the paid transition exists at most once. -/
  effects : ∀ kind, s.effects.rows.countP (fun row =>
    decide (row.operation=⟨.orderPaidTransition,o.id⟩∧row.effectKind=kind))≤1

theorem facts_append (o : Order) (h : History)
    (e : Event Store Delivery (Except SettlementError Settled)) : facts o (h++[e])=facts o h ++
      if completed e then [(tenderOf o.grandTotal e.action,e.action.result.state)] else [] := by
  cases hdn : completed e with
  | true | false => simp [facts,hdn]

theorem mem_facts {h : History} {e : Event Store Delivery (Except SettlementError Settled)}
    (he : e∈h) (hdn : completed e=true) :
    (tenderOf o.grandTotal e.action,e.action.result.state)∈facts o h :=
  mem_map.mpr ⟨e,mem_filter.mpr ⟨he,hdn⟩,rfl⟩

/-- Facts of admissible deliveries agree on the next one. -/
theorem Admissible.consistent (hadm : Admissible start o past s d) :
    Consistent o (facts o past) d := by
  intro f hf hmet href
  obtain ⟨e,he,rfl⟩ := mem_map.mp hf
  exact hadm.same e (mem_filter.mp he).1 hmet href

theorem Landing.stays {next : Store} (hlan : Landing db o d next)
    (hp : p∈db.payments) (hset : p.state=.settled) : p∈next.payments := by
  have haft : ∀ {paymentId m}, Planned db o d paymentId m→p∈paymentsAfter db m := by
    intro paymentId m hpla
    rcases hpla with ⟨-,-,rfl⟩|⟨q,-,-,-,rfl⟩
    · exact mem_append_left _ hp
    · exact mem_updateWhere.mpr (.inr ⟨hp,by simp [hset]⟩)
  cases hlan with
  | unchanged => exact hp
  | progressed _ _ hpla => exact haft hpla
  | settled _ _ _ hpla _ hpay =>
    rw [hpay]
    exact haft hpla

/-- What every history of admissible deliveries keeps. -/
structure Invariant (start : Store) (o : Order) (h : History) (s : Store) : Prop where
  tracked : ∃ rows, Tracked start o (facts o h) rows s
  /-- Only a failed handler rolls a delivery back. -/
  failures : ∀ e∈h, completed e=false→e.result=.error .handlerFailed∧e.after=e.before
  stays : ∀ e∈h, ∀ p∈e.before.payments, p.state=.settled→p∈s.payments

theorem step_invariant (hop : Opening o start) (hinv : Invariant start o past s)
    (hadm : Admissible start o past s d) :
    Invariant start o (past++[perform (deliver w) s d]) (deliver w s d).2 := by
  obtain ⟨rows,htra⟩ := hinv.tracked
  obtain ⟨cur,hcur,hrdy⟩ := htra.ready hop hadm hadm.consistent
  rcases applyPaymentResult_landing (w := w) hrdy with hfai|⟨answer,next,hdn,hlan⟩
  · have hdel : deliver w s d=(.error .handlerFailed,s) := by rw [deliver,hfai]
    rw [hdel]
    have heve : perform (deliver w) s d=⟨s,d,.error .handlerFailed,s⟩ := by rw [perform,hdel]
    rw [heve]
    refine ⟨⟨rows,?_⟩,?_,?_⟩
    · rw [facts_append]
      simpa [completed] using htra
    · intro e he hund
      rcases mem_concat_iff.mp he with hold|rfl
      · exact hinv.failures e hold hund
      · exact ⟨rfl,rfl⟩
    · intro e he p hp hset
      rcases mem_concat_iff.mp he with hold|rfl
      · exact hinv.stays e hold p hp hset
      · exact hp
  · have hdel : deliver w s d=(.ok answer,next) := by rw [deliver,hdn]
    rw [hdel]
    have heve : perform (deliver w) s d=⟨s,d,.ok answer,next⟩ := by rw [perform,hdel]
    rw [heve]
    refine ⟨?_,?_,?_⟩
    · rw [facts_append]
      exact htra.land hop hadm hadm.consistent hcur hrdy hlan
    · intro e he hund
      rcases mem_concat_iff.mp he with hold|rfl
      · exact hinv.failures e hold hund
      · cases hund
    · intro e he p hp hset
      rcases mem_concat_iff.mp he with hold|rfl
      · exact hlan.stays (hinv.stays e hold p hp hset) hset
      · exact hlan.stays hp hset

theorem Follows.settledFacts (h : Follows o fs rows) :
    ((rows.filter fun p => decide (p.state=.settled)).map storedTender).toFinset =
      ((fs.filter fun f => decide (f.2=.settled)).map Prod.fst).toFinset := by
  ext money
  simp only [mem_toFinset,mem_map,mem_filter,decide_eq_true_iff]
  constructor
  · rintro ⟨p,⟨hp,hset⟩,rfl⟩
    exact ⟨_,⟨(h.settled p hp).mp hset,rfl⟩,rfl⟩
  · rintro ⟨f,⟨hf,hset⟩,rfl⟩
    obtain ⟨p,hp,hmon⟩ := h.stored f hf
    refine ⟨p,⟨hp,(h.settled p hp).mpr ?_⟩,hmon⟩
    rw [hmon,← hset]
    exact hf

/-- The usable tenders of the delivered rows sum to the money delivered as
settled. -/
theorem Follows.total (h : Follows o fs rows) : settledTotal rows o.id =
      ∑ t∈((fs.filter fun f => decide (f.2=.settled)).map Prod.fst).toFinset, t.amount := by
  have hnod : ((rows.filter fun p => decide (p.state=.settled)).map storedTender).Nodup := by
    apply Nodup.map_on
    · intro p hp q hq heq
      exact h.apart (mem_filter.mp hp).1 (mem_filter.mp hq).1 heq
    · exact (Nodup.of_map refKey h.keys).filter _
  rw [← h.settledFacts,sum_toFinset _ hnod,map_map,settledTotal]
  congr 1
  have hfil : (rows.filter fun p => decide (p.orderId=o.id)&&usableTender p) =
      rows.filter fun p => decide (p.state=.settled) := by
    apply filter_congr
    intro p hp
    obtain ⟨hord,-,hdup⟩ := h.known p hp
    simp [usableTender,hord,hdup]
  rw [hfil]
  rfl

/-- The settled payments of the order are those of the start and those
delivered as settled. -/
theorem Tracked.tenders (h : Tracked start o fs rows s) :
    settledTenders o s=settledTenders o start ∪
      ((fs.filter fun f => decide (f.2=.settled)).map Prod.fst).toFinset := by
  have hrs : (rows.filter fun p => decide (p.orderId=o.id∧p.state=.settled)) =
      rows.filter fun p => decide (p.state=.settled) := by
    apply filter_congr
    intro p hp
    simp [(h.follows.known p hp).1]
  rw [settledTenders,h.payments,filter_append,map_append,toFinset_append,hrs,
    h.follows.settledFacts]
  rfl

/-- The settled money of the order. -/
theorem Tracked.total (h : Tracked start o fs rows s) :
    settledTotal s.payments o.id=settledTotal start.payments o.id +
      ∑ t∈((fs.filter fun f => decide (f.2=.settled)).map Prod.fst).toFinset, t.amount := by
  rw [h.payments,← h.follows.total]
  simp only [settledTotal,filter_append,map_append,sum_append]

theorem Tracked.oneRow (h : Tracked start o fs rows s) {f : Fact} (hf : f∈fs)
    (hfor : ∀ p∈start.payments, ¬ (p.method=f.1.method∧p.providerRef=f.1.providerRef)) :
    s.payments.countP (fun p => decide (p.method=f.1.method ∧
      p.providerRef=f.1.providerRef))=1 := by
  obtain ⟨p,hp,hmon⟩ := h.follows.stored f hf
  have hkey : refKey p=(f.1.method,f.1.providerRef) := by
    rw [← hmon]
    rfl
  have hsta : start.payments.countP (fun p => decide (p.method=f.1.method ∧
      p.providerRef=f.1.providerRef))=0 := by
    rw [countP_eq_zero]
    intro q hq hmt
    exact hfor q hq (of_decide_eq_true hmt)
  have hrs : rows.countP (fun p => decide (p.method=f.1.method ∧
      p.providerRef=f.1.providerRef))=(rows.map refKey).count (f.1.method,f.1.providerRef) := by
    rw [count,countP_map]
    apply countP_congr
    simp [refKey]
  rw [h.payments,countP_append,hsta,hrs,zero_add]
  exact count_eq_one_of_mem h.follows.keys (mem_map.mpr ⟨p,hp,hkey⟩)

/-- Deliveries of one order converge: whatever their order, repetitions and
states, what they leave behind follows from the money delivered as settled,
and two histories of the same deliveries end alike. -/
theorem deliveries_converge (hopen : Opening o start) {h : History}
    (hrun : Run (deliver w) (Admissible start o) start h s) :
    Converged start o h s∧∀ (w' : World) (h' : History) (s' : Store),
        Run (deliver w') (Admissible start o) start h' s'→(facts o h').Perm (facts o h) →
          (findOrder s' o.id).map Order.state=(findOrder s o.id).map Order.state ∧
            settledTenders o s'=settledTenders o s := by
  have hall : ∀ (w : World) (h : History) (s : Store),
      Run (deliver w) (Admissible start o) start h s → Converged start o h s := by
    intro w h s hrun
    have hinv : Invariant start o h s := by
      refine Run.invariant (P := Invariant start o) hrun ?_ ?_
      · exact ⟨⟨[],hopen.tracked⟩,by simp,by simp⟩
      · exact fun past s d hinv hadm => step_invariant hopen hinv hadm
    obtain ⟨rows,htra⟩ := hinv.tracked
    refine ⟨hinv.failures,?_,hinv.stays,htra.tenders,?_,?_,identities_once htra.identities _⟩
    · intro e he hdn
      obtain ⟨h₁,h₂,rfl⟩ := append_of_mem he
      exact htra.oneRow (mem_facts he hdn) (Run.split hrun).2.1.foreign
    · obtain ⟨cur,hcur,-,-,-,-,hst,hpai,-⟩ := htra.order
      rw [htra.total] at hpai
      refine ⟨cur,hcur,?_⟩
      split_ifs with hcov
      · exact hpai.mpr hcov
      · exact hst.resolve_right fun hdn => hcov (hpai.mp hdn)
    · obtain ⟨cur,-,-,-,-,-,-,-,hct⟩ := htra.order
      rw [hct]
      split <;> omega
  refine ⟨hall w h s hrun,fun w' h' s' hot hper => ?_⟩
  have hfac : settledFacts o h'=settledFacts o h := by
    apply toFinset_eq_of_perm
    exact (hper.filter _).map _
  obtain ⟨cur,hcur,hst⟩ := (hall w h s hrun).order
  obtain ⟨cur',hcur',hst'⟩ := (hall w' h' s' hot).order
  constructor
  · rw [hcur,hcur',Option.map_some,Option.map_some,hst,hst',hfac]
  · rw [(hall w h s hrun).tenders,(hall w' h' s' hot).tenders,hfac]

/-- Every effect runs inside the recording transaction. -/
def inlineWorld : World := ⟨fun _ => some .local,fun s _ => (s,false)⟩

/-- An order of one hundred cents that waits for its payment. -/
def waitingOrder : Order := ⟨"order",.pendingPayment,100, "USD",false,none⟩

/-- Tables that hold the waiting order alone. -/
def waitingStore : Store := ⟨[waitingOrder],[],[],[],emptyEngine.db,[]⟩

/-- A stripe result for the waiting order. -/
def stripeResult (paymentId ref : String) (amount : ℤ) (state : PaymentState) : Delivery :=
  ⟨"order", "stripe",⟨state,some ref,none,some "live",false,none⟩,some amount,none,none,
    paymentId,⟨0,fun _ => .returned (.done "done")⟩⟩

/-- The waiting order meets the conditions of the start. -/
theorem waitingOrder_opening : Opening waitingOrder waitingStore := by
  refine ⟨by decide,by decide,by decide,by decide,?_,?_,by decide,by decide,by decide⟩
  · exact fun r hr => absurd hr not_mem_nil
  · exact fun e he => absurd he not_mem_nil

/-- An empty reference is not missing, yet a payment stored under it is never
found again: the settled result is refused and the order stays unpaid. -/
theorem deliveries_converge_emptyRef : Opening waitingOrder waitingStore ∧
      (stripeResult "p1" "" 100 .pending).result.providerRef≠none ∧
      (stripeResult "p2" "" 100 .settled).result.providerRef≠none ∧
      (deliver inlineWorld waitingStore (stripeResult "p1" "" 100 .pending)).1 =
        .ok ⟨.pendingPayment,.pending⟩ ∧
      (deliver inlineWorld (deliver inlineWorld waitingStore (stripeResult "p1" "" 100 .pending)).2
        (stripeResult "p2" "" 100 .settled)).1=.error .mismatch ∧
      ((findOrder (deliver inlineWorld
        (deliver inlineWorld waitingStore (stripeResult "p1" "" 100 .pending)).2
        (stripeResult "p2" "" 100 .settled)).2 "order").map Order.state)=some .pendingPayment :=
  ⟨waitingOrder_opening,by decide,by decide,by decide,by decide,by decide⟩

/-- Two references, one of them reported again and again. -/
def repeatedResults : List Delivery :=
  [stripeResult "p1" "pi_1" 60 .pending,stripeResult "p2" "pi_1" 60 .settled,
    stripeResult "p3" "pi_2" 40 .settled,stripeResult "p4" "pi_1" 60 .failed]

/-- A result of the sample order is admissible where its identifier is unused
and the references so far name the same money. -/
theorem stripeResult_admissible {past : History} {s : Store} {ref : String} {amount : ℤ}
    {state : PaymentState} (href : ref ≠ "") (hamo : 0≤amount)
    (heq : ∀ e∈past, e.action.method = "stripe" → e.action.result.providerRef=some ref →
      tenderOf 100 e.action=tenderOf 100 (stripeResult paymentId ref amount state))
    (hids : ∀ p∈s.payments, p.id≠paymentId)
    (hnew : (⟨.paymentSettled,paymentId⟩ : Operation)∉s.effects.operations) :
    Admissible waitingStore waitingOrder past s (stripeResult paymentId ref amount state) :=
  ⟨rfl,rfl,⟨ref,rfl,href⟩,hamo,rfl,heq,fun _ hp => absurd hp not_mem_nil,hids,hnew⟩

/-- Repeated results of two references pay the order. -/
theorem deliveries_converge_repeated : Converged waitingStore waitingOrder
        (play (deliver inlineWorld) [] waitingStore repeatedResults).1
        (play (deliver inlineWorld) [] waitingStore repeatedResults).2 ∧
      (findOrder (play (deliver inlineWorld) [] waitingStore repeatedResults).2 "order").map
        Order.state=some .paid := by
  have hadm : Admitted (deliver inlineWorld) (Admissible waitingStore waitingOrder) []
      waitingStore repeatedResults := by
    refine ⟨?_,?_,?_,?_,trivial⟩
    all_goals exact stripeResult_admissible (by decide) (by decide) (by decide) (by decide) (by decide)
  exact ⟨(deliveries_converge waitingOrder_opening
    (.play Run.nil repeatedResults hadm)).1,by decide⟩

end SellRight.PaymentConvergence
