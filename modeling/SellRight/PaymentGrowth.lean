import SellRight.PaymentConvergence

/-!
# What a Stripe result leaves in the ledger

A result applied to an order without staged edits keeps every payment row with
its identity, never takes captured money back, stores at most one row for a
Stripe reference, and leaves a captured row behind when it reports a capture.
Unlike the convergence of deliveries this holds in any state of the order.
-/

namespace SellRight.PaymentGrowth

open EffectsEngine OrderLifecycle PaymentConvergence PaymentLedger PaymentSettlement RowTable List

variable {w : World} {db next : Store} {o : Order} {d : Delivery}

/-- The row holds the payment of a Stripe reference. -/
def carries (ref : String) (p : Payment) : Bool :=
  decide (p.method = "stripe" ∧ p.providerRef=some ref)

/-- A row continues an older one: its identity stays, and captured money stays
captured. -/
structure Continues (p q : Payment) : Prop where
  id : q.id=p.id
  order : q.orderId=p.orderId
  amount : q.amount=p.amount
  ref : q.method=p.method∧q.providerRef=p.providerRef
  /-- A captured row stays captured under its flag. -/
  settled : p.state=.settled→q.state=.settled∧q.duplicate=p.duplicate

/-- Facts about the stored payments that every result keeps. -/
structure Sound (db : Store) : Prop where
  ids : (db.payments.map Payment.id).Nodup
  /-- A Stripe reference has at most one row. -/
  refs : ∀ ref, db.payments.countP (carries ref)≤1
  operations : ∀ p∈db.payments,
    (⟨.paymentSettled,p.id⟩ : Operation)∈db.effects.operations→p.state=.settled

/-- A store continues an older one. -/
structure Grows (db next : Store) : Prop where
  edits : next.edits=db.edits
  orders : ∀ orderId row, findOrder db orderId=some row→∃ row', findOrder next orderId=some row' ∧
      row'.reconciliationRequired=row.reconciliationRequired
  payments : ∀ p∈db.payments, ∃ q∈next.payments, Continues p q

/-- A captured row carries the reference. -/
def Captured (db : Store) (ref : String) : Prop :=
  ∃ p∈db.payments, carries ref p=true∧p.state=.settled

/-- A row continues itself. -/
theorem Continues.refl (p : Payment) : Continues p p := ⟨rfl,rfl,rfl,⟨rfl,rfl⟩,fun h => ⟨h,rfl⟩⟩

variable {p : Payment} {ref paymentId : String} {a : Ambient} {m : SettlementMutation}
  {answer : Settled}

theorem Continues.trans {q r : Payment} (hpq : Continues p q) (hqr : Continues q r) :
    Continues p r := by
  refine ⟨hqr.id.trans hpq.id,hqr.order.trans hpq.order,hqr.amount.trans hpq.amount,
    ⟨hqr.ref.1.trans hpq.ref.1,hqr.ref.2.trans hpq.ref.2⟩,fun hset => ?_⟩
  have hq := hpq.settled hset
  have hr := hqr.settled hq.1
  exact ⟨hr.1,hr.2.trans hq.2⟩

/-- A continued row carries the same reference. -/
theorem Continues.carries {q : Payment} (h : Continues p q) (ref : String) :
    carries ref q=carries ref p := by
  unfold PaymentGrowth.carries
  rw [h.ref.1,h.ref.2]

/-- A store continues itself. -/
theorem Grows.refl (db : Store) : Grows db db :=
  ⟨rfl,fun _ row hrow => ⟨row,hrow,rfl⟩,fun p hp => ⟨p,hp,.refl p⟩⟩

/-- Continuations of stores compose. -/
theorem Grows.trans {last : Store} (h₁ : Grows db next) (h₂ : Grows next last) :
    Grows db last := by
  refine ⟨h₂.edits.trans h₁.edits,fun orderId row hrow => ?_,fun p hp => ?_⟩
  · obtain ⟨mid,hmid,hmar⟩ := h₁.orders orderId row hrow
    obtain ⟨final,hfin,hmar'⟩ := h₂.orders orderId mid hmid
    exact ⟨final,hfin,hmar'.trans hmar⟩
  · obtain ⟨q,hq,hpq⟩ := h₁.payments p hp
    obtain ⟨r,hr,hqr⟩ := h₂.payments q hq
    exact ⟨r,hr,hpq.trans hqr⟩

theorem Grows.captured (h : Grows db next) (hcap : Captured db ref) :
    Captured next ref := by
  obtain ⟨p,hp,hcar,hset⟩ := hcap
  obtain ⟨q,hq,hpq⟩ := h.payments p hp
  exact ⟨q,hq,(hpq.carries ref).trans hcar,(hpq.settled hset).1⟩

/-- A row moved to a reported state continues itself unless it was captured. -/
theorem continues_progressed (next : PaymentStateUpdate)
    (hop : p.state≠.settled) : Continues p (progressedRow next p) :=
  ⟨rfl,rfl,rfl,⟨rfl,rfl⟩,fun h => absurd h hop⟩

theorem continues_identified (p : Payment) (mode account : Option String) :
    Continues p (identifiedRow mode account p) :=
  ⟨rfl,rfl,rfl,⟨rfl,rfl⟩,fun h => ⟨h,rfl⟩⟩

theorem continues_updateWhere {rows : List Payment} {c : Payment → Bool} {f : Payment → Payment}
    (hf : ∀ p∈rows, c p=true → Continues p (f p)) :
    ∀ p∈rows, ∃ q∈updateWhere c f rows, Continues p q := by
  intro p hp
  cases hc : c p with
  | true => exact ⟨f p,mem_updateWhere.mpr (.inl ⟨p,hp,hc,rfl⟩),hf p hp hc⟩
  | false => exact ⟨p,mem_updateWhere.mpr (.inr ⟨hp,hc⟩),.refl p⟩

theorem Sound.unsettled (h : Sound db) (hp : p∈db.payments) (hope : p.state≠.settled) :
    (⟨.paymentSettled,p.id⟩ : Operation)∉db.effects.operations :=
  fun hop => hope (h.operations p hp hop)

/-- What a completed write of a payment leaves behind. -/
structure Wrote (db next : Store) (paymentId : String) (m : SettlementMutation)
    (state : PaymentState) : Prop where
  payments : next.payments=paymentsAfter db m
  edits : next.edits=db.edits
  orders : next.orders=db.orders∨∃ orderId placedAt, next.orders =
    updateWhere (fun row => decide (row.id=orderId)) (paidOrder placedAt) db.orders
  operations : ∀ id, (⟨.paymentSettled,id⟩ : Operation)∈next.effects.operations →
    (⟨.paymentSettled,id⟩ : Operation)∈db.effects.operations∨id=paymentId∧state=.settled

theorem settleCaptured_wrote (hpl : Plan db o paymentId m) (hed : d.editId=none)
    (h : settleCaptured w db o (d.amount.getD o.grandTotal) d paymentId m=.ok (answer,next)) :
    Wrote db next paymentId m .settled := by
  rcases settleCaptured_cases hpl hed with hfail|⟨-,-,hfail⟩|⟨_,_,hres,hcap⟩
  · rw [hfail] at h
    cases h
  · rw [hfail] at h
    cases h
  · rw [hres] at h
    cases h
    refine ⟨hcap.payments,hcap.tables.2,?_,fun id hid => ?_⟩
    · have hord := hcap.orders
      split at hord
      · exact .inr ⟨o.id,_,hord⟩
      · exact .inl hord
    · rw [hcap.operations,mem_append,mem_cons] at hid
      rcases hid with hid|hid|hid
      · exact .inl hid
      · cases hid
        exact .inr ⟨rfl,rfl⟩
      · split at hid
        · cases mem_singleton.mp hid
        · cases hid

/-- A planned write that completes writes its payment. -/
theorem settlePlanned_wrote (hpl : Plan db o paymentId m) (hed : d.editId=none)
    (hsta : Unstaged db o.id)
    (h : settlePlanned w db o (d.amount.getD o.grandTotal) d paymentId m=.ok (answer,next)) :
    Wrote db next paymentId m d.result.state := by
  unfold settlePlanned at h
  by_cases hst : d.result.state=.settled
  · rw [hst]
    rw [if_neg (by simp [hst,hpl.clean]),hsta.pending,if_neg (by decide)] at h
    exact settleCaptured_wrote hpl hed h
  · rw [if_pos (.inl hst),if_neg hst,record_progress hpl.writes] at h
    cases h
    exact ⟨rfl,rfl,.inl rfl,fun _ hid => .inl hid⟩

/-- Orders that stay or become paid keep their marker. -/
theorem Wrote.stored {state : PaymentState}
    (h : Wrote db next paymentId m state) (orderId : String) (row : Order)
    (hrow : findOrder db orderId=some row) :
    ∃ row', findOrder next orderId=some row' ∧
      row'.reconciliationRequired=row.reconciliationRequired := by
  rcases h.orders with heq|⟨paidId,placedAt,hpai⟩
  · exact ⟨row,by rw [findOrder,heq,← findOrder,hrow],rfl⟩
  refine ⟨(if orderId=paidId then paidOrder placedAt else id) row,?_,?_⟩
  · rw [findOrder] at hrow
    rw [findOrder,hpai,find_key_updateWhere (f := paidOrder placedAt) Order.id paidId orderId
      fun _ => rfl,hrow]
    rfl
  · split_ifs <;> rfl

/-- Inserting a new reference under a new identifier keeps payments sound. -/
theorem Wrote.inserted (row : Payment) (h : Wrote db next row.id (.paymentInsert row) row.state)
    (hsd : Sound db) (hid : row.id∉db.payments.map Payment.id)
    (hope : (⟨.paymentSettled,row.id⟩ : Operation)∉db.effects.operations)
    (href : ∀ ref, carries ref row=true→∀ p∈db.payments, carries ref p=false) :
    Sound next∧Grows db next∧row∈next.payments := by
  have hpay : next.payments=db.payments++[row] := h.payments
  refine ⟨⟨?_,fun ref => ?_,fun p hp hop => ?_⟩,⟨h.edits,h.stored,fun p hp => ?_⟩,?_⟩
  · rw [hpay]
    exact nodup_map_append Payment.id hsd.ids fun p hp heq =>
      hid (mem_map.mpr ⟨p,hp,heq⟩)
  · rw [hpay,countP_append]
    cases hcar : carries ref row with
    | true =>
      have hz : db.payments.countP (carries ref)=0 := countP_eq_zero.mpr fun p hp => by
          rw [href ref hcar p hp]
          exact Bool.false_ne_true
      rw [hz]
      simp [hcar]
    | false =>
      have hle := hsd.refs ref
      simpa [hcar] using hle
  · rw [hpay] at hp
    rcases mem_append.mp hp with hp|hp
    · rcases h.operations p.id hop with hold|⟨heq,-⟩
      · exact hsd.operations p hp hold
      · exact absurd (mem_map.mpr ⟨p,hp,heq⟩) hid
    · cases mem_singleton.mp hp
      rcases h.operations row.id hop with hold|⟨-,hst⟩
      · exact absurd hold hope
      · exact hst
  · exact ⟨p,by rw [hpay]; exact mem_append_left _ hp,.refl p⟩
  · rw [hpay]
    exact mem_append_right _ (mem_singleton_self row)

theorem Wrote.progressed {update : PaymentStateUpdate}
    (h : Wrote db next paymentId (.paymentState paymentId update) update.state)
    (hsd : Sound db) (hoper : (⟨.paymentSettled,paymentId⟩ : Operation) ∉ db.effects.operations) :
    Sound next∧Grows db next := by
  have hpay : next.payments =
      updateWhere (fun p => decide (p.id=paymentId∧p.state≠.settled)) (progressedRow update)
        db.payments := h.payments
  have hkp : ∀ p∈db.payments, decide (p.id=paymentId∧p.state≠.settled)=true →
      Continues p (progressedRow update p) :=
    fun p _ hp => continues_progressed update (of_decide_eq_true hp).2
  refine ⟨⟨?_,fun ref => ?_,fun q hq hop => ?_⟩,⟨h.edits,h.stored,?_⟩⟩
  · rw [hpay]
    exact nodup_map_updateWhere Payment.id (fun _ => rfl) hsd.ids
  · rw [hpay,countP_updateWhere_eq fun p hp hmv => (hkp p hp hmv).carries ref]
    exact hsd.refs ref
  · rw [hpay] at hq
    rcases mem_updateWhere.mp hq with ⟨p,-,hmv,rfl⟩|⟨hp,hms⟩
    · have hid : p.id=paymentId := (of_decide_eq_true hmv).1
      rcases h.operations _ hop with hold|⟨-,hst⟩
      · exact absurd (hid ▸ hold) hoper
      · exact hst
    · rcases h.operations q.id hop with hold|⟨heq,-⟩
      · exact hsd.operations q hp hold
      · by_contra hope
        simp [heq,hope] at hms
  · rw [hpay]
    exact continues_updateWhere hkp

structure Meets (db : Store) (o : Order) (d : Delivery) (ref : String) : Prop where
  stored : findOrder db d.orderId=some o
  clean : o.reconciliationRequired=false
  /-- The edits of the order were never staged. -/
  unstaged : Unstaged db o.id
  method : d.method = "stripe"
  reference : d.result.providerRef=some ref
  named : ref ≠ ""
  editId : d.editId=none
  drawn : d.paymentId∉db.payments.map Payment.id
  fresh : (⟨.paymentSettled,d.paymentId⟩ : Operation)∉db.effects.operations

section
variable (h : Meets db o d ref)
include h

/-- The order of a result is stored under its own identifier. -/
theorem Meets.self : findOrder db o.id=some o := by
  have hid : o.id=d.orderId := (find_key_eq_some Order.id h.stored).2
  rw [hid]
  exact h.stored

/-- The stored payment of a Stripe result carries its reference. -/
theorem Meets.existing (hfd : findExisting db d=some p) : p∈db.payments∧carries ref p=true := by
  obtain ⟨hp,hmet,href⟩ := findExisting_some hfd
  exact ⟨hp,decide_eq_true ⟨hmet.trans h.method,href.trans h.reference⟩⟩

/-- Without a stored payment no row carries the reference. -/
theorem Meets.missing (hno : findExisting db d=none)
    (hp : p∈db.payments) : carries ref p=false := by
  have hgiv : d.result.providerRef.getD "" ≠ "" := by
    rw [h.reference]
    exact h.named
  rw [findExisting,if_neg hgiv,List.find?_eq_none] at hno
  have hms := hno p hp
  rw [carries,decide_eq_false_iff_not]
  rintro ⟨hmet,href⟩
  exact hms (by simp [hmet,href,h.method,h.reference])

/-- A new reference is inserted under the drawn identifier. -/
theorem Meets.insertPlan (hno : findExisting db d=none) (amount : ℤ) :
    Plan db o d.paymentId (.paymentInsert (deliveredRow o amount d)) := by
  refine ⟨⟨rfl,?_,fun p hp => ?_⟩,h.fresh,fun kind id requests => ?_,h.self,h.clean⟩
  · change d.result.providerRef.getD "" ≠ ""
    rw [h.reference]
    exact h.named
  · have hms := h.missing hno hp
    rw [carries,decide_eq_false_iff_not] at hms
    unfold conflictsWith
    rw [Bool.and_eq_false_iff]
    left
    rw [decide_eq_false_iff_not]
    rintro ⟨-,href,hmet⟩
    exact hms ⟨hmet.trans h.method,href.trans h.reference⟩
  · simp [quarantined,touchedOrders,deliveredRow,h.self,h.clean]

end

theorem backfillIdentity_grows (hsd : Sound db) (h : backfillIdentity w db d p=.ok next) :
    Sound next∧Grows db next∧next.effects=db.effects ∧
      ∀ q∈db.payments, ∃ q'∈next.payments, Continues q q'∧q'.state=q.state := by
  unfold backfillIdentity at h
  split at h
  · have hwri : next = {db with
        payments := updateWhere (fun q => decide (q.id=p.id))
          (identifiedRow d.result.mode d.result.accountId) db.payments} := by
      simp [recordSettlementOperation,eligible,operationPolicy,SettlementMutation.type,
        refInsert,monotoneKinds,applyMutation,Except.map] at h
      exact h.symm
    subst hwri
    have hkp : ∀ q∈db.payments, ∃ q'∈updateWhere (fun q => decide (q.id=p.id))
        (identifiedRow d.result.mode d.result.accountId) db.payments,
        Continues q q'∧q'.state=q.state := by
      intro q hq
      by_cases hid : q.id=p.id
      · exact ⟨_,mem_updateWhere.mpr (.inl ⟨q,hq,decide_eq_true hid,rfl⟩),
          continues_identified q _ _,rfl⟩
      · exact ⟨q,mem_updateWhere.mpr (.inr ⟨hq,decide_eq_false hid⟩),.refl q,rfl⟩
    refine ⟨⟨?_,fun ref => ?_,fun q hq hop => ?_⟩,⟨rfl,fun _ row hrow => ⟨row,hrow,rfl⟩,?_⟩,
      rfl,hkp⟩
    · exact nodup_map_updateWhere Payment.id (fun _ => rfl) hsd.ids
    · rw [countP_updateWhere_eq (f := identifiedRow d.result.mode d.result.accountId)
        fun q _ _ => (continues_identified q _ _).carries ref]
      exact hsd.refs ref
    · rcases mem_updateWhere.mp hq with ⟨old,hold,-,rfl⟩|⟨hq,-⟩
      · exact hsd.operations old hold hop
      · exact hsd.operations q hq hop
    · intro q hq
      obtain ⟨q',hq',hcon,-⟩ := hkp q hq
      exact ⟨q',hq',hcon⟩
  · cases h
    exact ⟨hsd,.refl db,rfl,fun q hq => ⟨q,hq,.refl q,rfl⟩⟩

/-- Filling a missing identity leaves what a result meets unchanged. -/
theorem Meets.filled (h : Meets db o d ref) (hfil : backfillIdentity w db d p=.ok next) :
    findOrder next o.id=some o∧Unstaged next o.id := by
  unfold backfillIdentity at hfil
  split at hfil
  · simp [recordSettlementOperation,eligible,operationPolicy,SettlementMutation.type,
      refInsert,monotoneKinds,applyMutation,Except.map] at hfil
    rw [← hfil]
    exact ⟨h.self,h.unstaged⟩
  · cases hfil
    exact ⟨h.self,h.unstaged⟩

/-- A Stripe result whose application completes keeps payments sound, continues
every row, and leaves a captured row behind when it reports a capture. -/
theorem applyPaymentResult_grows (hsd : Sound db)
    (hmee : Meets db o d ref) (h : applyPaymentResult w db d=.ok (answer,next)) :
    Sound next∧Grows db next∧(d.result.state=.settled → Captured next ref) := by
  unfold applyPaymentResult at h
  simp only [hmee.stored] at h
  cases hexi : findExisting db d with
  | none =>
    simp only [hexi] at h
    have hwro := settlePlanned_wrote (hmee.insertPlan hexi _) hmee.editId hmee.unstaged h
    obtain ⟨hnx,hgrows,hrow⟩ := Wrote.inserted (deliveredRow o _ d) hwro hsd
      hmee.drawn hmee.fresh fun ref' hcar p hp => by
        have heq : ref'=ref := by
          have href := (of_decide_eq_true hcar).2
          change d.result.providerRef=some ref' at href
          rw [hmee.reference] at href
          exact (Option.some.inj href).symm
        rw [heq]
        exact hmee.missing hexi hp
    exact ⟨hnx,hgrows,fun hst =>
      ⟨_,hrow,decide_eq_true ⟨hmee.method,hmee.reference⟩,hst⟩⟩
  | some p =>
    obtain ⟨hp,hcar⟩ := hmee.existing hexi
    simp only [hexi] at h
    cases hmis : mismatches o (d.amount.getD o.grandTotal) d p with
    | true =>
      rw [hmis,if_pos rfl] at h
      cases h
    | false =>
      rw [hmis,if_neg Bool.false_ne_true] at h
      have hord : p.orderId=o.id := by
        by_contra hot
        simp [mismatches,hot] at hmis
      cases hfill : backfillIdentity w db d p with
      | error =>
        rw [hfill] at h
        cases h
      | ok filled =>
        rw [hfill] at h
        dsimp only at h
        obtain ⟨hfil,hgro,heff,hkp⟩ := backfillIdentity_grows hsd hfill
        obtain ⟨hsel,huns⟩ := hmee.filled hfill
        obtain ⟨q,hq,hpq,hst⟩ := hkp p hp
        cases hsta : isStale d p with
        | true =>
          have hcap : d.result.state=.settled → Captured filled ref := by
            intro hset
            have hold : p.state=.settled := by
              by_contra hop
              simp [isStale,hset,hop] at hsta
            exact ⟨q,hq,(hpq.carries ref).trans hcar,hst.trans hold⟩
          rw [hsta,if_pos rfl,huns.activate] at h
          split at h <;>
          · cases h
            exact ⟨hfil,hgro,hcap⟩
        | false =>
          have hop : q.state≠.settled := by
            rw [hst]
            intro hset
            simp [isStale,hset] at hsta
          rw [hsta,if_neg Bool.false_ne_true,← hpq.id] at h
          have hmet : Plan filled o q.id (.paymentState q.id
              ⟨d.result.state,d.result.duplicate,d.result.errorMessage⟩) := by
            refine ⟨rfl,hfil.unsettled hq hop,fun kind id requests => ?_,hsel,hmee.clean⟩
            have hfin := find_key_self Payment.id hfil.ids hq
            simp [quarantined,touchedOrders,hfin,hpq.order,hord,hsel,hmee.clean]
          have hwro := settlePlanned_wrote hmet hmee.editId huns h
          obtain ⟨hnx,hgrows⟩ := hwro.progressed hfil (hfil.unsettled hq hop)
          refine ⟨hnx,hgro.trans hgrows,fun hset => ?_⟩
          refine ⟨progressedRow ⟨d.result.state,d.result.duplicate,d.result.errorMessage⟩ q,
            ?_,?_,hset⟩
          · rw [hwro.payments]
            exact mem_updateWhere.mpr (.inl ⟨q,hq,decide_eq_true ⟨rfl,hop⟩,rfl⟩)
          · exact (hpq.carries ref).trans hcar

/-- Recording a duplicate capture under a new identity stores the row, or
finds its reference taken and changes nothing. -/
theorem record_duplicate_ok (row : Payment) {recorded : SettlementResult}
    (hfre : (⟨.duplicateCaptureRecorded,row.id⟩ : Operation)∉db.effects.operations)
    (h : recordSettlementOperation w a db
      ⟨.duplicateCaptureRecorded,row.id,none,.paymentInsert row,[]⟩=.ok (recorded,next)) :
    (recorded.created=false∧next=db∧∃ p∈db.payments, conflictsWith row p=true) ∨
      recorded.created=true∧(∀ p∈db.payments, conflictsWith row p=false) ∧
        Wrote db next row.id (.paymentInsert row) row.state := by
  have heli : eligible ⟨.duplicateCaptureRecorded,row.id,none,.paymentInsert row,[]⟩ =
      true := by
    simp [eligible,operationPolicy,SettlementMutation.type]
  simp only [recordSettlementOperation,heli] at h
  cases hcon : db.payments.any (conflictsWith row) with
  | true =>
    left
    simp [refInsert,monotoneKinds,hfre,applyMutation,insertPayment,hcon,
      paymentIdentityKinds,SettlementMutation.type] at h
    refine ⟨by rw [← h.1],h.2.symm,any_eq_true.mp hcon⟩
  | false =>
    right
    simp [refInsert,monotoneKinds,hfre,applyMutation,insertPayment,hcon,paymentIdentityKinds] at h
    cases hrun : runEffects w a ⟨.duplicateCaptureRecorded,row.id⟩ [] db.effects with
    | error =>
      rw [hrun] at h
      cases h
    | ok =>
      rw [hrun] at h
      cases h
      refine ⟨rfl,fun p hp => ?_,⟨rfl,rfl,.inl rfl,fun id hid => ?_⟩⟩
      · simpa using any_eq_false.mp hcon p hp
      simp only [(runEffects_ok hfre hrun).1,mem_append,mem_singleton] at hid
      rcases hid with hid|hid
      · exact .inl hid
      · cases hid

end SellRight.PaymentGrowth
