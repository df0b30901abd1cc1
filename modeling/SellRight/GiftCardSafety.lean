import SellRight.GiftCards

/-!
# A gift card and its ledger

Draws and credits change the card and its ledger alike, whatever else is open.
An admin update writes the balance it read earlier and clamps it at zero, while
its ledger row carries the change as asked for.
-/

namespace SellRight.GiftCardSafety

open GiftCards OrderLifecycle RunHistory List
open RowTable (eq_of_key_eq mem_updateWhere nodup_map_append sum_filter_concat sum_filter_eq_zero)

variable {s : Store} {t t' : Tx} {conn : ℕ}

/-- Identifiers of committed rows. -/
def used (s : Store) : List ℕ :=
  s.payments.map Payment.orderId++s.payments.map Payment.id++s.refunds.map Refund.id

def drew : Tx → List ℕ
  | .draw orderId tenderId _ _ => [orderId,tenderId]
  | .request refund => [refund.id]
  | _ => []

/-- The card pays the applied amount out of its balance. -/
structure Pays (seen : GiftCard) (appn : GiftCardApplication) : Prop where
  positive : 0<appn.applied
  newBalance : appn.newBalance=seen.balance-appn.applied
  covered : 0≤appn.newBalance

variable (card : Option GiftCard)

/-- What a checkout knows about the committed card at its phase. -/
def DrawKnows : DrawPhase → Prop
  | .opened => True
  | .declined seen => ∀ gc, seen=some gc→card=some gc
  | .locked seen appn => card=some seen∧Pays seen appn
  | .tendered seen appn => card=some seen∧Pays seen appn
  | .written seen appn => card=some seen∧Pays seen appn
  | .logged seen appn => card=some seen∧Pays seen appn

/-- What the settlement of a refund knows about the committed card. -/
def CreditKnows : CreditPhase → Prop
  | .marked => True
  | .found => True
  | .written base => card=some base
  | .logged base => card=some base

def Names (payments : List Payment) (r : Refund) (p : Payment) : Prop :=
  p∈payments∧p.id=r.paymentId∧p.orderId=r.orderId

/-- What an open transaction knows about the committed rows. -/
def Knows (payments : List Payment) (refunds : List Refund) : Tx → Prop
  | .issue _ _ => card=none
  | .patch _ _ _ => card≠none
  | .draw orderId tenderId _ phase => orderId≠tenderId∧DrawKnows card phase
  | .request r => r.state=.pending∧1≤r.amount ∧
      ∃ p, Names payments r p∧reserved refunds p.id+r.amount≤p.amount
  | .settle r phase => r∈refunds∧r.state≠.settled∧CreditKnows card phase

def settledOf (refunds : List Refund) (paymentId : ℕ) : ℤ :=
  ((refunds.filter fun r => decide (r.paymentId=paymentId∧r.state=.settled)).map Refund.amount).sum

/-- Payments, refunds and ledger rows of orders agree. -/
structure OrderRows (ledger : List GiftCardTransaction) (payments : List Payment)
    (refunds : List Refund) : Prop where
  paymentIds : (payments.map Payment.id).Nodup
  paymentOrders : (payments.map Payment.orderId).Nodup
  refundIds : (refunds.map Refund.id).Nodup
  named : ∀ r∈refunds, 1≤r.amount∧r.state≠.failed∧∃ p, Names payments r p
  within : ∀ p∈payments, reserved refunds p.id≤p.amount
  drawnPaid : ∀ o, drawn ledger o=paid payments o
  creditedSettled : ∀ p∈payments, credited ledger p.orderId=settledOf refunds p.id
  uncredited : ∀ o, (∀ p∈payments, p.orderId≠o)→credited ledger o=0

/-- Locks, open transactions and committed rows agree. -/
structure Coherent (s : Store) : Prop where
  rowHeld : ∀ c t, s.transactions c=some t→t.row.isSome→s.rowLock=some c
  orderHeld : ∀ c t o, s.transactions c=some t→t.order=some o→s.orderLock o=some c
  knows : ∀ c t, s.transactions c=some t → Knows s.card s.payments s.refunds t
  drewBelow : ∀ c t, s.transactions c=some t→∀ i∈drew t, i<s.nextId
  /-- Identifiers of open transactions are not committed. -/
  drewUnused : ∀ c t, s.transactions c=some t→∀ i∈drew t, i∉used s
  drewApart : ∀ c c' t t', s.transactions c=some t→s.transactions c'=some t'→c≠c' →
    ∀ i∈drew t, i∉drew t'
  usedBelow : ∀ i∈used s, i<s.nextId
  rows : OrderRows s.ledger s.payments s.refunds

/-- Nothing is open or committed at the start. -/
theorem Coherent.empty : Coherent Store.empty where
  rowHeld := fun _ _ h => by cases h
  orderHeld := fun _ _ _ h => by cases h
  knows := fun _ _ h => by cases h
  drewBelow := fun _ _ h => by cases h
  drewUnused := fun _ _ h => by cases h
  drewApart := fun _ _ _ _ h => by cases h
  usedBelow := fun _ h => by cases h
  rows := ⟨nodup_nil,nodup_nil,nodup_nil,fun _ h => (by cases h),
    fun _ h => (by cases h),fun _ => rfl,fun _ h => (by cases h),fun _ _ => rfl⟩

/-- A free card row can be locked. -/
theorem Coherent.lockRow (h : Coherent s) (hfr : s.rowLock=none) (conn : ℕ) :
    Coherent {s with rowLock := some conn} := by
  refine {h with rowHeld := fun c t ht hrow => ?_}
  have hhd := h.rowHeld c t ht hrow
  rw [hfr] at hhd
  cases hhd

theorem Coherent.lockOrder (h : Coherent s) {o : ℕ} (hfr : s.orderLock o=none) (conn : ℕ) :
    Coherent {s with orderLock := Function.update s.orderLock o (some conn)} := by
  refine {h with orderHeld := fun c t o' ht ho => ?_}
  have hhd := h.orderHeld c t o' ht ho
  have hne : o'≠o := by
    rintro rfl
    rw [hfr] at hhd
    cases hhd
  simpa [Function.update_of_ne hne] using hhd

theorem Coherent.drawIds (h : Coherent s) (n : ℕ) : Coherent {s with nextId := s.nextId+n} :=
  {h with
    drewBelow := fun c t ht i hi => Nat.lt_add_right n (h.drewBelow c t ht i hi)
    usedBelow := fun i hi => Nat.lt_add_right n (h.usedBelow i hi)}

/-- A transaction may be set when it holds its locks, knows its facts and its
identifiers are its own. -/
theorem Coherent.put (h : Coherent s) (hrow : t.row.isSome→s.rowLock=some conn)
    (hord : ∀ o, t.order=some o→s.orderLock o=some conn) (hkno : Knows s.card s.payments s.refunds t)
    (hdre : ∀ i∈drew t, i<s.nextId∧i∉used s∧∀ c t', c≠conn→s.transactions c=some t'→i∉drew t') :
    Coherent (s.put conn t) := by
  have hcas : ∀ c t', (s.put conn t).transactions c=some t' →
      (c=conn∧t'=t)∨(c≠conn∧s.transactions c=some t') := by
    intro c t' ht
    by_cases hc : c=conn
    · subst hc
      exact .inl ⟨rfl,by simpa [Store.put,eq_comm] using ht⟩
    · exact .inr ⟨hc,by simpa [Store.put,Function.update_of_ne hc] using ht⟩
  have hall : ∀ {P : ℕ → Tx → Prop}, P conn t→(∀ c t', s.transactions c=some t'→P c t') →
      ∀ c t', (s.put conn t).transactions c=some t'→P c t' := by
    intro P hnew hother c t' ht
    obtain ⟨rfl,rfl⟩|⟨-,hold⟩ := hcas c t' ht
    · exact hnew
    · exact hother c t' hold
  refine ⟨hall hrow h.rowHeld,fun c t' o ht ho => ?_,hall hkno h.knows,
    hall (fun i hi => (hdre i hi).1) h.drewBelow,hall (fun i hi => (hdre i hi).2.1) h.drewUnused,
    fun c c' t' t'' ht ht' hne i hi => ?_,h.usedBelow,h.rows⟩
  · obtain ⟨rfl,rfl⟩|⟨-,hold⟩ := hcas c t' ht
    · exact hord o ho
    · exact h.orderHeld c t' o hold ho
  · obtain ⟨rfl,rfl⟩|⟨hc,hold⟩ := hcas c t' ht
    · obtain ⟨rfl,-⟩|⟨hc',hold'⟩ := hcas c' t'' ht'
      · exact absurd rfl hne
      · exact (hdre i hi).2.2 c' t'' hc' hold'
    · obtain ⟨rfl,rfl⟩|⟨-,hold'⟩ := hcas c' t'' ht'
      · intro hmem
        exact (hdre i hmem).2.2 c t' hc hold hi
      · exact h.drewApart c c' t' t'' hold hold' hne i hi

/-- The next statement of a transaction that draws no identifier keeps them. -/
theorem Coherent.advance (h : Coherent s) (ht : s.transactions conn=some t)
    (hrow : t'.row.isSome→s.rowLock=some conn) (hord : t'.order=t.order)
    (hdre : drew t'=drew t) (hkno : Knows s.card s.payments s.refunds t') : Coherent (s.put conn t') := by
  refine h.put hrow (fun o ho => h.orderHeld conn t o ht (hord ▸ ho)) hkno fun i hi => ?_
  rw [hdre] at hi
  exact ⟨h.drewBelow conn t ht i hi,h.drewUnused conn t ht i hi,
    fun c t'' hc ht'' => h.drewApart conn c t t'' ht ht'' (Ne.symm hc) i hi⟩

variable {c : ℕ}

theorem close_transactions {t' : Tx} (ht' : (s.close conn t).transactions c=some t') :
    c≠conn∧s.transactions c=some t' := by
  by_cases hc : c=conn
  · subst hc
    simp [Store.close] at ht'
  · exact ⟨hc,by simpa [Store.close,Function.update_of_ne hc] using ht'⟩

/-- A transaction that ends frees its locks. -/
theorem Coherent.close (h : Coherent s) (ht : s.transactions conn=some t) :
    Coherent (s.close conn t) := by
  refine ⟨fun c t' ht' hso => ?_,fun c t' o ht' ho => ?_,fun c t' ht' => ?_,
    fun c t' ht' => h.drewBelow c t' (close_transactions ht').2,
    fun c t' ht' => h.drewUnused c t' (close_transactions ht').2,
    fun c c' t' t'' ht' ht'' hne =>
      h.drewApart c c' t' t'' (close_transactions ht').2 (close_transactions ht'').2 hne,
    h.usedBelow,h.rows⟩
  · obtain ⟨hc,hold⟩ := close_transactions ht'
    have hhd := h.rowHeld c t' hold hso
    have hfr : t.row.isSome=false := by
      refine Bool.eq_false_iff.mpr fun hrow => ?_
      have hown := h.rowHeld conn t ht hrow
      rw [hhd] at hown
      exact hc (Option.some.inj hown)
    simp only [Store.close,hfr]
    exact hhd
  · obtain ⟨hc,hold⟩ := close_transactions ht'
    have hhd := h.orderHeld c t' o hold ho
    cases hord : t.order with
    | none =>
      simp only [Store.close,hord,Option.elim]
      exact hhd
    | some o' =>
      have hne : o≠o' := by
        rintro rfl
        have hown := h.orderHeld conn t o ht hord
        rw [hhd] at hown
        exact hc (Option.some.inj hown)
      simp only [Store.close,hord,Option.elim,Function.update_of_ne hne]
      exact hhd
  · exact h.knows c t' (close_transactions ht').2

variable {r : Refund}

section Rows

variable {ledger : List GiftCardTransaction} {payments : List Payment} {refunds : List Refund}

/-- A row about no order changes no order's sums. -/
theorem orderless_entry (amount : ℤ) (o : ℕ) :
    drawn (ledger++[⟨none,amount⟩]) o=drawn ledger o ∧
      credited (ledger++[⟨none,amount⟩]) o=credited ledger o := by
  unfold drawn credited
  rw [sum_filter_concat,sum_filter_concat]
  simp

variable {amount : ℤ}

theorem drawn_entry (hpos : 0<amount) (order o : ℕ) :
    drawn (ledger++[⟨some order,-amount⟩]) o=drawn ledger o+(if order=o then amount else 0) ∧
      credited (ledger++[⟨some order,-amount⟩]) o=credited ledger o := by
  unfold drawn credited
  rw [sum_filter_concat,sum_filter_concat]
  by_cases heq : order=o
  · constructor
    · simp only [heq,Left.neg_neg_iff,hpos,and_self,decide_true,if_true]
      omega
    · have hneg : ¬ amount<0 := by omega
      simp [heq,hneg]
  · constructor
    · simp [heq]
    · simp [heq]

theorem credited_entry (hpos : 0<amount) (order o : ℕ) :
    drawn (ledger++[⟨some order,amount⟩]) o=drawn ledger o ∧
      credited (ledger++[⟨some order,amount⟩]) o =
        credited ledger o+(if order=o then amount else 0) := by
  unfold drawn credited
  rw [sum_filter_concat,sum_filter_concat]
  have hneg : ¬ amount<0 := by omega
  by_cases heq : order=o
  · simp [heq,hneg,hpos]
  · simp [heq]

theorem paid_eq {p : Payment} (hnod : (payments.map Payment.orderId).Nodup)
    (hp : p∈payments) : paid payments p.orderId=p.amount := by
  rw [paid,RowTable.filter_key_eq_find Payment.orderId _ hnod,
    RowTable.find_key_self Payment.orderId hnod hp]
  simp

theorem paid_eq_zero {o : ℕ} (hno : ∀ p∈payments, p.orderId≠o) : paid payments o=0 := by
  unfold paid
  refine sum_filter_eq_zero _ fun p hp => ?_
  simpa using hno p hp

section
variable (h : OrderRows ledger payments refunds)
include h

theorem OrderRows.settledOf_le (paymentId : ℕ) :
    settledOf refunds paymentId≤reserved refunds paymentId := by
  unfold settledOf reserved
  refine RowTable.sum_filter_le_of_imp (fun r hr hset => ?_) fun r hr => ?_
  · have hpai := of_decide_eq_true hset
    have hnot := (h.named r hr).2.1
    exact decide_eq_true ⟨hpai.1,hnot⟩
  · have hpos := (h.named r hr).1
    omega

theorem OrderRows.credited_le (o : ℕ) :
    drawn ledger o=paid payments o∧credited ledger o≤paid payments o := by
  refine ⟨h.drawnPaid o,?_⟩
  by_cases hexi : ∃ p∈payments, p.orderId=o
  · obtain ⟨p,hp,rfl⟩ := hexi
    have hset := h.settledOf_le p.id
    have hwit := h.within p hp
    rw [h.creditedSettled p hp,paid_eq h.paymentOrders hp]
    omega
  · have hno : ∀ p∈payments, p.orderId≠o := fun p hp heq => hexi ⟨p,hp,heq⟩
    rw [h.uncredited o hno,paid_eq_zero hno]

theorem OrderRows.orderless (amount : ℤ) :
    OrderRows (ledger++[⟨none,amount⟩]) payments refunds :=
  {h with
    drawnPaid := fun o => (orderless_entry amount o).1.trans (h.drawnPaid o)
    creditedSettled := fun p hp =>
      (orderless_entry amount p.orderId).2.trans (h.creditedSettled p hp)
    uncredited := fun o hno => (orderless_entry amount o).2.trans (h.uncredited o hno)}

theorem OrderRows.draw {order tender : ℕ}
    (hpos : 0<amount) (hunp : ∀ p∈payments, p.orderId≠order)
    (hten : ∀ p∈payments, p.id≠tender) :
    OrderRows (ledger++[⟨some order,-amount⟩]) (payments++[⟨tender,order,amount⟩])
      refunds := by
  have hmem : ∀ p, p∈payments++[⟨tender,order,amount⟩] →
      p∈payments∨p=⟨tender,order,amount⟩ := by
    intro p hp
    rcases mem_append.mp hp with hold|hnew
    · exact .inl hold
    · exact .inr (mem_singleton.mp hnew)
  have hunt : ∀ r∈refunds, r.paymentId≠tender := by
    intro r hr heq
    obtain ⟨-,-,p,hp,hid,-⟩ := h.named r hr
    exact hten p hp (hid.trans heq)
  have hres : reserved refunds tender=0 := by
    unfold reserved
    refine sum_filter_eq_zero _ fun r hr => ?_
    simp [hunt r hr]
  have hset : settledOf refunds tender=0 := by
    unfold settledOf
    refine sum_filter_eq_zero _ fun r hr => ?_
    simp [hunt r hr]
  refine ⟨nodup_map_append Payment.id h.paymentIds hten,
    nodup_map_append Payment.orderId h.paymentOrders hunp,h.refundIds,
    fun r hr => ?_,fun p hp => ?_,fun o => ?_,fun p hp => ?_,fun o hno => ?_⟩
  · obtain ⟨hone,hnot,p,hp,hid,hord⟩ := h.named r hr
    exact ⟨hone,hnot,p,mem_append_left _ hp,hid,hord⟩
  · obtain hold|rfl := hmem p hp
    · exact h.within p hold
    · rw [hres]
      exact hpos.le
  · rw [(drawn_entry hpos order o).1,h.drawnPaid o]
    unfold paid
    rw [sum_filter_concat]
    simp
  · rw [(drawn_entry hpos order p.orderId).2]
    obtain hold|rfl := hmem p hp
    · exact h.creditedSettled p hold
    · rw [hset]
      exact h.uncredited order hunp
  · rw [(drawn_entry hpos order o).2]
    exact h.uncredited o fun p hp => hno p (mem_append_left _ hp)

theorem OrderRows.request
    (hpen : r.state=.pending) (hone : 1≤r.amount) (hid : ∀ r'∈refunds, r'.id≠r.id)
    {p : Payment} (hnms : Names payments r p) (hwit : reserved refunds p.id+r.amount≤p.amount) :
    OrderRows ledger payments (refunds++[r]) := by
  have hres : ∀ i, reserved (refunds++[r]) i =
      reserved refunds i+if r.paymentId=i then r.amount else 0 := by
    intro i
    unfold reserved
    rw [sum_filter_concat]
    simp [hpen]
  have hset : ∀ i, settledOf (refunds++[r]) i=settledOf refunds i := by
    intro i
    unfold settledOf
    rw [sum_filter_concat]
    simp [hpen]
  refine ⟨h.paymentIds,h.paymentOrders,nodup_map_append Refund.id h.refundIds hid,
    fun r' hr' => ?_,fun q hq => ?_,h.drawnPaid,
    fun q hq => (h.creditedSettled q hq).trans (hset q.id).symm,h.uncredited⟩
  · rcases mem_append.mp hr' with hold|hnew
    · exact h.named r' hold
    · cases mem_singleton.mp hnew
      exact ⟨hone,by rw [hpen]; decide,p,hnms⟩
  · rw [hres]
    by_cases heq : r.paymentId=q.id
    · have hpq : p=q := eq_of_key_eq Payment.id h.paymentIds hnms.1 hq (hnms.2.1.trans heq)
      rw [if_pos heq,← hpq]
      exact hwit
    · rw [if_neg heq,add_zero]
      exact h.within q hq

end

theorem reserved_markSettled
    (hnod : (refunds.map Refund.id).Nodup) (hr : r∈refunds) (hnot : r.state≠.failed) (i : ℕ) :
    reserved (markSettled r.id refunds) i=reserved refunds i := by
  unfold reserved markSettled
  rw [RowTable.sum_filter_update_key Refund.id _ _ hnod hr]
  simp [hnot]

theorem OrderRows.settle (h : OrderRows ledger payments refunds) (hr : r∈refunds)
    (hop : r.state≠.settled) :
    OrderRows (ledger++[⟨some r.orderId,r.amount⟩]) payments (markSettled r.id refunds) := by
  obtain ⟨hone,hnot,p,hp,hid,hord⟩ := h.named r hr
  have hks : (markSettled r.id refunds).map Refund.id=refunds.map Refund.id :=
    RowTable.map_updateWhere Refund.id refunds fun r' _ => rfl
  have hset : ∀ i, settledOf (markSettled r.id refunds) i =
      settledOf refunds i+if r.paymentId=i then r.amount else 0 := by
    intro i
    unfold settledOf markSettled
    rw [RowTable.sum_filter_update_key Refund.id _ _ h.refundIds hr]
    simp [hop]
  refine ⟨h.paymentIds,h.paymentOrders,hks ▸ h.refundIds,fun r' hr' => ?_,fun q hq => ?_,
    fun o => ?_,fun q hq => ?_,fun o hno => ?_⟩
  · obtain ⟨old,hold,-,rfl⟩|⟨hold,-⟩ := mem_updateWhere.mp hr'
    · have hnm := h.named old hold
      exact ⟨hnm.1,nofun,hnm.2.2⟩
    · exact h.named r' hold
  · rw [reserved_markSettled h.refundIds hr hnot]
    exact h.within q hq
  · rw [(credited_entry (by omega) r.orderId o).1]
    exact h.drawnPaid o
  · rw [(credited_entry (by omega) r.orderId q.orderId).2,hset,h.creditedSettled q hq]
    by_cases heq : p=q
    · rw [if_pos (by rw [← heq,hord]),if_pos (by rw [← heq,hid])]
    rw [if_neg,if_neg]
    · intro hpay
      exact heq (eq_of_key_eq Payment.id h.paymentIds hp hq (hid.trans hpay))
    · intro horder
      exact heq (eq_of_key_eq Payment.orderId h.paymentOrders hp hq (hord.trans horder))
  · rw [(credited_entry (by omega) r.orderId o).2,h.uncredited o hno,if_neg,add_zero]
    intro heq
    exact hno p hp (hord.trans heq)

end Rows

theorem Coherent.writeRows (h : Coherent s) (ht : s.transactions conn=some t)
    (hcom : t.complete=true) :
    OrderRows (s.ledger++t.entries) (s.payments++t.tenders) (t.refunds s.refunds) := by
  have hkno := h.knows conn t ht
  have hunu := h.drewUnused conn t ht
  simp only [used,mem_append,mem_map] at hunu
  cases t with
  | issue card =>
    simpa only [Tx.entries,Tx.tenders,Tx.refunds,append_nil] using h.rows.orderless card.balance
  | patch body =>
    simp only [Tx.entries,Tx.tenders,Tx.refunds,append_nil]
    split
    · simpa only [append_nil] using h.rows
    · exact h.rows.orderless body.change
  | draw orderId tenderId _ phase =>
    have hord : ∀ p∈s.payments, p.orderId≠orderId := fun p hp heq =>
      hunu orderId (by simp [drew]) (.inl (.inl ⟨p,hp,heq⟩))
    have hten : ∀ p∈s.payments, p.id≠tenderId := fun p hp heq =>
      hunu tenderId (by simp [drew]) (.inl (.inr ⟨p,hp,heq⟩))
    cases phase with
    | logged =>
      have hpos := hkno.2.2.positive
      exact h.rows.draw hpos hord hten
    | declined =>
      simpa only [Tx.entries,Tx.tenders,Tx.refunds,append_nil] using h.rows
    | opened | locked | tendered | written => cases hcom
  | request r =>
    obtain ⟨hpen,hone,p,hnms,hwit⟩ := hkno
    have hid : ∀ r'∈s.refunds, r'.id≠r.id := fun r' hr' heq =>
      hunu r.id (by simp [drew]) (.inr ⟨r',hr',heq⟩)
    simpa only [Tx.entries,Tx.tenders,Tx.refunds,append_nil] using
      h.rows.request hpen hone hid hnms hwit
  | settle =>
    obtain ⟨hmem,hop,-⟩ := hkno
    simpa only [Tx.entries,Tx.tenders,Tx.refunds,append_nil] using h.rows.settle hmem hop

/-- Identifiers after a finished transaction. -/
theorem used_write {i : ℕ} (hi : i∈used (s.write t)) : i∈used s∨i∈drew t := by
  simp only [used,Store.write,mem_append,mem_map] at hi ⊢
  have htender : ∀ p∈t.tenders, p.orderId∈drew t∧p.id∈drew t := by
    intro p hp
    cases t with
    | draw _ _ _ phase =>
      cases phase with
      | logged =>
        cases mem_singleton.mp hp
        simp [drew]
      | _ => cases hp
    | _ => cases hp
  obtain (⟨p,hp|hp,rfl⟩|⟨p,hp|hp,rfl⟩)|⟨r,hr,rfl⟩ := hi
  · exact .inl (.inl (.inl ⟨p,hp,rfl⟩))
  · exact .inr (htender p hp).1
  · exact .inl (.inl (.inr ⟨p,hp,rfl⟩))
  · exact .inr (htender p hp).2
  · cases t with
    | request =>
      rcases mem_append.mp hr with hold|hnew
      · exact .inl (.inr ⟨r,hold,rfl⟩)
      · cases mem_singleton.mp hnew
        exact .inr (by simp [drew])
    | settle =>
      obtain ⟨old,hold,-,rfl⟩|⟨hold,-⟩ := mem_updateWhere.mp hr
      · exact .inl (.inr ⟨old,hold,rfl⟩)
      · exact .inl (.inr ⟨r,hold,rfl⟩)
    | issue | patch | draw => exact .inl (.inr ⟨r,hr,rfl⟩)

/-- What a transaction knows about the card survives a commit that leaves the
card or is of a transaction that holds it. -/
theorem Knows.write {card row : Option GiftCard} {payments tenders : List Payment}
    {refunds refunds' : List Refund} (h : Knows card payments refunds t')
    (hcar : t'.row.isSome → row=none)
    (hres : ∀ r, t'=.request r→∀ i, i=r.paymentId → reserved refunds' i=reserved refunds i)
    (hkp : ∀ r phase, t'=.settle r phase → r∈refunds → r∈refunds') :
    Knows (row <|> card) (payments++tenders) refunds' t' := by
  cases t' with
  | issue =>
    have hrow := hcar rfl
    rw [hrow]
    exact h
  | patch =>
    cases row with
    | none => exact h
    | some gc => exact Option.some_ne_none gc
  | draw orderId tenderId grandTotal phase =>
    refine ⟨h.1,?_⟩
    cases phase with
    | opened => trivial
    | declined seen =>
      intro gc hsee
      have hrow := hcar (by rw [show (Tx.draw orderId tenderId grandTotal (.declined seen)).row =
        seen from rfl,hsee]; rfl)
      rw [hrow]
      exact h.2 gc hsee
    | locked | tendered | written | logged =>
      rw [hcar rfl]
      exact h.2
  | request r =>
    obtain ⟨hpen,hone,p,⟨hp,hid,hord⟩,hwit⟩ := h
    refine ⟨hpen,hone,p,⟨mem_append_left _ hp,hid,hord⟩,?_⟩
    rw [hres r rfl p.id hid]
    exact hwit
  | settle r phase =>
    obtain ⟨hmem,hop,hcre⟩ := h
    refine ⟨hkp r phase rfl hmem,hop,?_⟩
    cases phase with
    | marked | found => trivial
    | written | logged =>
      rw [hcar rfl]
      exact hcre

/-- Two open transactions never hold one order. -/
theorem Coherent.orders_apart (h : Coherent s) (ht : s.transactions conn=some t)
    (ht' : s.transactions c=some t') (hne : c≠conn) {o : ℕ} (ho : t.order=some o) :
    t'.order≠some o := by
  intro ho'
  have hown := h.orderHeld conn t o ht ho
  have hot := h.orderHeld c t' o ht' ho'
  rw [hown] at hot
  exact hne (Option.some.inj hot).symm

/-- A commit leaves the reservations another request checked. -/
theorem Coherent.reserves_kept (h : Coherent s)
    (ht : s.transactions conn=some t) (ht' : s.transactions c=some (.request r))
    (hne : c≠conn) : reserved (t.refunds s.refunds) r.paymentId =
      reserved s.refunds r.paymentId := by
  have hkno := h.knows conn t ht
  cases t with
  | issue | patch | draw => rfl
  | request r' =>
    obtain ⟨-,-,p',⟨hp',hid',hord'⟩,-⟩ := hkno
    obtain ⟨-,-,p,⟨hp,hid,hord⟩,-⟩ := h.knows c _ ht'
    have hdif : r'.paymentId≠r.paymentId := by
      intro heq
      have hpp : p'=p := eq_of_key_eq Payment.id h.rows.paymentIds hp' hp
        (hid'.trans (heq.trans hid.symm))
      have horder : (Tx.request r).order=some r'.orderId := by
        rw [← hord',hpp,hord]
        rfl
      exact h.orders_apart ht ht' hne rfl horder
    unfold reserved Tx.refunds
    rw [sum_filter_concat]
    simp [hdif]
  | settle r' =>
    obtain ⟨hmem,-,-⟩ := hkno
    exact reserved_markSettled h.rows.refundIds hmem (h.rows.named r' hmem).2.1 r.paymentId

theorem Coherent.refund_kept (h : Coherent s) {phase : CreditPhase}
    (ht : s.transactions conn=some t) (ht' : s.transactions c=some (.settle r phase))
    (hne : c≠conn) (hr : r∈s.refunds) : r∈t.refunds s.refunds := by
  have hkno := h.knows conn t ht
  cases t with
  | issue | patch | draw => exact hr
  | request => exact mem_append_left _ hr
  | settle r' =>
    refine mem_updateWhere.mpr (.inr ⟨hr,?_⟩)
    refine decide_eq_false fun heq => ?_
    have hrr : r=r' := eq_of_key_eq Refund.id h.rows.refundIds hr hkno.1 heq
    exact h.orders_apart ht ht' hne rfl  (congrArg (fun r : Refund => some r.orderId) hrr)

/-- A commit writes its rows and frees its locks. -/
theorem Coherent.commit (h : Coherent s) (ht : s.transactions conn=some t)
    (hcom : t.complete=true) : Coherent ((s.write t).close conn t) := by
  have hclo := h.close ht
  refine ⟨hclo.rowHeld,hclo.orderHeld,fun c t' ht' => ?_,hclo.drewBelow,
    fun c t' ht' i hi hmem => ?_,hclo.drewApart,fun i hi => ?_,h.writeRows ht hcom⟩
  · obtain ⟨hc,hold⟩ := close_transactions ht'
    refine (h.knows c t' hold).write (fun hrow => ?_) (fun r hr i hi => ?_)
      fun r phase hr hmem => ?_
    · have hhd := h.rowHeld c t' hold hrow
      cases hown : t.row with
      | none => rfl
      | some =>
        have how := h.rowHeld conn t ht (by rw [hown]; rfl)
        rw [hhd] at how
        exact absurd (Option.some.inj how) hc
    · subst hr hi
      exact h.reserves_kept ht hold hc
    · subst hr
      exact h.refund_kept ht hold hc hmem
  · obtain ⟨hc,hold⟩ := close_transactions ht'
    obtain huse|hdre := used_write hmem
    · exact h.drewUnused c t' hold i hi huse
    · exact h.drewApart c conn t' t hold ht hc i hi hdre
  · obtain huse|hdre := used_write hi
    · exact h.usedBelow i huse
    · exact h.drewBelow conn t ht i hdre

/-- The card pays its ledger, and nothing is recorded before it is issued. -/
structure Balanced (s : Store) : Prop where
  balance : ∀ card, s.card=some card→card.balance=ledgerTotal s.ledger
  nonneg : ∀ card, s.card=some card→0≤card.balance
  unissued : s.card=none→s.ledger=[]

/-- A transaction commits what its ledger row says: a card is issued with a
balance that is not negative, and an update still finds the balance it read and
does not take it below zero, or takes all of a balance that has grown since. -/
def Sound : Tx → Prop
  | .issue issued _ => 0 ≤ issued.balance
  | .patch body seen _ => ∀ now∈card, 0≤now.balance+body.change∧(seen.balance=now.balance ∨
        seen.balance<now.balance∧now.balance+body.change=0)
  | _ => True

/-- A commit is of a transaction whose ledger row fits the committed card. -/
def Fits (s : Store) : Action → Prop
  | .commit conn => ∀ t∈s.transactions conn, Sound s.card t
  | _ => True

instance (card : Option GiftCard) : DecidablePred (Sound card)
  | .issue issued _ => inferInstanceAs (Decidable (0 ≤ issued.balance))
  | .patch body seen _ => inferInstanceAs (Decidable (∀ now∈card,
      0≤now.balance+body.change∧(seen.balance=now.balance ∨
        seen.balance<now.balance∧now.balance+body.change=0)))
  | .draw _ _ _ _ => .isTrue trivial
  | .request _ => .isTrue trivial
  | .settle _ _ => .isTrue trivial

instance (s : Store) : DecidablePred (Fits s)
  | .commit conn => inferInstanceAs (Decidable (∀ t∈s.transactions conn, Sound s.card t))
  | .issue _ _ _ _ => .isTrue trivial
  | .patch _ _ => .isTrue trivial
  | .checkout _ _ => .isTrue trivial
  | .lockCard _ _ => .isTrue trivial
  | .requestRefund _ _ _ => .isTrue trivial
  | .finalizeRefund _ _ => .isTrue trivial
  | .next _ => .isTrue trivial
  | .abort _ => .isTrue trivial

/-- One more ledger row adds its amount. -/
theorem ledgerTotal_append (ledger : List GiftCardTransaction) (e : GiftCardTransaction) :
    ledgerTotal (ledger++[e])=ledgerTotal ledger+e.amount := by
  simp [ledgerTotal]

/-- A fitting commit keeps the balance at the ledger. -/
theorem Balanced.commit (h : Balanced s) (hcoh : Coherent s)
    (ht : s.transactions conn=some t) (hcom : t.complete=true)
    (hsd : Sound s.card t) : Balanced ((s.write t).close conn t) := by
  have hkno := hcoh.knows conn t ht
  have hone : ∀ (row : GiftCard) (e : GiftCardTransaction), t.row=some row →
      t.entries=[e] → row.balance=ledgerTotal s.ledger+e.amount→0≤row.balance →
      Balanced ((s.write t).close conn t) := by
    intro row e hrow hent hbal hnon
    have hcar : ((s.write t).close conn t).card=some row := by
      change (t.row <|> s.card)=some row
      rw [hrow]
      rfl
    have hled : ((s.write t).close conn t).ledger=s.ledger++[e] := by
      change s.ledger++t.entries=_
      rw [hent]
    refine ⟨fun card hso => ?_,fun card hso => ?_,fun hno => ?_⟩
    · cases hcar.symm.trans hso
      rw [hled,ledgerTotal_append]
      exact hbal
    · cases hcar.symm.trans hso
      exact hnon
    · rw [hcar] at hno
      cases hno
  have hkp : (∀ row, t.row=some row→∃ now, s.card=some now∧row.balance=now.balance) →
      t.entries=[] → Balanced ((s.write t).close conn t) := by
    intro hrow hent
    have hled : ((s.write t).close conn t).ledger=s.ledger := by
      change s.ledger++t.entries=_
      rw [hent,append_nil]
    have hcar : ∀ card, ((s.write t).close conn t).card=some card →
        ∃ now, s.card=some now∧card.balance=now.balance := by
      intro card hso
      change (t.row <|> s.card)=some card at hso
      cases hown : t.row with
      | none =>
        rw [hown] at hso
        exact ⟨card,hso,rfl⟩
      | some =>
        rw [hown] at hso
        cases hso
        exact hrow _ hown
    refine ⟨fun card hso => ?_,fun card hso => ?_,fun hno => ?_⟩
    · obtain ⟨now,hnow,heq⟩ := hcar card hso
      rw [hled,heq]
      exact h.balance now hnow
    · obtain ⟨now,hnow,heq⟩ := hcar card hso
      rw [heq]
      exact h.nonneg now hnow
    · rw [hled]
      refine h.unissued ?_
      change (t.row <|> s.card)=none at hno
      exact (by simpa using hno : _∧_).2
  cases t with
  | issue card =>
    have hem : ledgerTotal s.ledger=0 := by
      rw [h.unissued hkno]
      rfl
    exact hone card ⟨none,card.balance⟩ rfl rfl (by rw [hem,zero_add]) hsd
  | patch body seen phase =>
    obtain ⟨now,hnow⟩ := Option.ne_none_iff_exists'.mp hkno
    obtain ⟨hz,hfre⟩ := hsd now hnow
    have hbal := h.balance now hnow
    have hmax : max 0 (seen.balance+body.change)=now.balance+body.change := by
      obtain heq|⟨hgro,hall⟩ := hfre
      · rw [heq]
        exact max_eq_right hz
      · rw [hall]
        exact max_eq_left (by omega)
    cases phase with
    | read | written => cases hcom
    | logged =>
      by_cases hcha : body.change=0
      · refine hkp (fun row hrow => ⟨now,hnow,?_⟩) (if_pos hcha)
        cases hrow
        change max 0 (seen.balance+body.change)=now.balance
        rw [hmax,hcha,add_zero]
      · refine hone (body.row seen) ⟨none,body.change⟩ rfl (if_neg hcha) ?_ ?_
        · change max 0 (seen.balance+body.change)=_
          rw [hmax,hbal]
        · exact le_max_left _ _
  | draw orderId _ _ phase =>
    cases phase with
    | logged seen appn =>
      obtain ⟨-,hcar,hpay⟩ := hkno
      refine hone (drawnRow seen appn) ⟨some orderId,-appn.applied⟩ rfl rfl ?_ hpay.covered
      change appn.newBalance=_
      rw [hpay.newBalance,h.balance seen hcar]
      rfl
    | declined =>
      exact hkp (fun row hrow => ⟨row,hkno.2 row hrow,rfl⟩) rfl
    | opened | locked | tendered | written => cases hcom
  | request => exact hkp nofun rfl
  | settle r phase =>
    cases phase with
    | logged base =>
      obtain ⟨hmem,-,hcar⟩ := hkno
      refine hone (creditedRow base r.amount) ⟨some r.orderId,r.amount⟩ rfl rfl ?_ ?_
      · change base.balance+r.amount=_
        rw [h.balance base hcar]
      have hz := h.nonneg base hcar
      have hcre := (hcoh.rows.named r hmem).1
      change 0≤base.balance+r.amount
      omega
    | marked | found | written => cases hcom

/-- A card pays only what its balance covers. -/
theorem applyGiftCard_pays {gc : GiftCard} {amountDue now : ℤ}
    (h : (applyGiftCard gc amountDue now).applicable=true) :
    Pays gc (applyGiftCard gc amountDue now) := by
  unfold applyGiftCard at h ⊢
  dsimp only at h ⊢
  split at h
  · cases h
  · next hena =>
    split at h
    · cases h
    · next hexp =>
      split at h
      · cases h
      · next hem =>
        split_ifs at h with hcov
        have hdue := of_decide_eq_true h
        rw [if_neg hena,if_neg hexp,if_neg hem,if_neg hcov]
        exact ⟨hdue,rfl,by dsimp only; omega⟩

/-- Locking the card for a checkout keeps the agreement. -/
theorem Coherent.lockCard (h : Coherent s) {orderId tenderId : ℕ} {grandTotal : ℤ}
    (ht : s.transactions conn=some (.draw orderId tenderId grandTotal .opened)) (now : ℤ) :
    Coherent (GiftCards.lockCard s conn orderId tenderId grandTotal now).2 := by
  have hapa := (h.knows conn _ ht).1
  unfold GiftCards.lockCard
  split_ifs with hloc
  · exact h
  have hfr : s.rowLock=none := not_not.mp hloc
  cases hcar : s.card with
  | none =>
    refine h.advance ht nofun rfl rfl ⟨hapa,fun gc hgc => ?_⟩
    cases hgc
  | some gc =>
    have hhd := h.lockRow hfr conn
    dsimp only
    split_ifs with hpay
    · exact hhd.advance ht (fun _ => rfl) rfl rfl ⟨hapa,hcar,applyGiftCard_pays hpay⟩
    refine hhd.advance ht (fun _ => rfl) rfl rfl ⟨hapa,fun gc' hgc => ?_⟩
    cases hgc
    exact hcar

/-- The next statement of a transaction keeps the agreement. -/
theorem Coherent.statement (h : Coherent s) (ht : s.transactions conn=some t) :
    Coherent (statement s conn t).2 := by
  have hkno := h.knows conn t ht
  cases t with
  | issue _ logged =>
    cases logged with
    | false => exact h.advance ht (fun _ => h.rowHeld conn _ ht rfl) rfl rfl hkno
    | true => exact h
  | patch _ _ phase =>
    cases phase with
    | read =>
      unfold statement
      dsimp only
      split_ifs with hloc
      · exact h
      · exact (h.lockRow (not_not.mp hloc) conn).advance ht (fun _ => rfl) rfl rfl hkno
    | written => exact h.advance ht (fun _ => h.rowHeld conn _ ht rfl) rfl rfl hkno
    | logged => exact h
  | draw _ _ _ phase =>
    cases phase with
    | opened | declined | logged => exact h
    | locked | tendered | written =>
      exact h.advance ht (fun _ => h.rowHeld conn _ ht rfl) rfl rfl hkno
  | request => exact h
  | settle _ phase =>
    cases phase with
    | marked =>
      unfold statement
      dsimp only
      split
      · exact h.close ht
      · exact h.advance ht nofun rfl rfl hkno
    | found =>
      unfold statement
      dsimp only
      split_ifs with hloc
      · exact h
      cases hcar : s.card with
      | none => exact h.close ht
      | some =>
        exact (h.lockRow (not_not.mp hloc) conn).advance ht (fun _ => rfl) rfl rfl
          ⟨hkno.1,hkno.2.1,hcar⟩
    | written => exact h.advance ht (fun _ => h.rowHeld conn _ ht rfl) rfl rfl hkno
    | logged => exact h

theorem Coherent.requestRefund (h : Coherent s) {payment : Payment} (hp : payment∈s.payments)
    (amount : ℤ) : Coherent (GiftCards.requestRefund s conn payment amount).2 := by
  unfold GiftCards.requestRefund
  by_cases hloc : s.orderLock payment.orderId≠none
  · rw [if_pos hloc]
    exact h
  rw [if_neg hloc]
  split_ifs with hexc
  · exact h
  rw [not_or] at hexc
  obtain ⟨hone,hwit⟩ := hexc
  have hdra := (h.lockOrder (not_not.mp hloc) conn).drawIds 1
  refine hdra.put nofun (fun o ho => ?_)
    ⟨rfl,by dsimp only; omega,payment,⟨hp,rfl,rfl⟩,by dsimp only; omega⟩
    fun i hi => ?_
  · cases ho
    exact Function.update_self ..
  · cases mem_singleton.mp hi
    refine ⟨Nat.lt_succ_self s.nextId,fun hmem => ?_,fun c t' _ ht' hmem => ?_⟩
    · exact absurd (h.usedBelow _ hmem) (lt_irrefl _)
    · exact absurd (h.drewBelow c t' ht' _ hmem) (lt_irrefl _)

/-- Beginning to settle a refund keeps the agreement. -/
theorem Coherent.finalizeRefund (h : Coherent s) {refund : Refund} (hr : refund∈s.refunds) :
    Coherent (GiftCards.finalizeRefund s conn refund).2 := by
  unfold GiftCards.finalizeRefund
  by_cases hloc : s.orderLock refund.orderId≠none
  · rw [if_pos hloc]
    exact h
  rw [if_neg hloc]
  split_ifs with hset
  · exact h
  refine (h.lockOrder (not_not.mp hloc) conn).put nofun (fun o ho => ?_) ⟨hr,hset,trivial⟩ nofun
  cases ho
  exact Function.update_self ..

/-- Beginning a transaction keeps the agreement. -/
theorem Coherent.begin (h : Coherent s) (a : Action) : Coherent (begin s a).2 := by
  cases a with
  | issue conn =>
    unfold GiftCards.begin
    dsimp only
    by_cases hcar : s.card≠none
    · rw [if_pos hcar]
      exact h
    rw [if_neg hcar]
    split_ifs with hloc
    · exact h
    · exact (h.lockRow (not_not.mp hloc) conn).put (fun _ => rfl)
        nofun (not_not.mp hcar) fun i hi => by cases hi
  | patch =>
    unfold GiftCards.begin
    dsimp only
    cases hcar : s.card with
    | none => exact h
    | some g =>
      refine h.put nofun nofun ?_ nofun
      change s.card≠none
      rw [hcar]
      exact Option.some_ne_none g
  | checkout _ grandTotal =>
    unfold GiftCards.begin
    dsimp only
    split
    · exact h
    refine (h.drawIds 2).put nofun nofun ⟨by omega,trivial⟩ fun i hi => ?_
    have hran : s.nextId ≤ i∧i<s.nextId+2 := by
      simp only [drew,mem_cons,not_mem_nil,or_false] at hi
      omega
    refine ⟨hran.2,fun hmem => ?_,fun c t' _ ht' hmem => ?_⟩
    · have hbel := h.usedBelow i hmem
      omega
    · have hbel := h.drewBelow c t' ht' i hmem
      omega
  | requestRefund _ paymentId amount =>
    unfold GiftCards.begin
    dsimp only
    cases hfd : s.payments.find? fun p => decide (p.id=paymentId) with
    | none => exact h
    | some => exact h.requestRefund (mem_of_find?_eq_some hfd) amount
  | finalizeRefund _ refundId =>
    unfold GiftCards.begin
    dsimp only
    cases hfd : s.refunds.find? fun r => decide (r.id=refundId) with
    | none => exact h
    | some => exact h.finalizeRefund (mem_of_find?_eq_some hfd)
  | lockCard | next | commit | abort => exact h

/-- Every statement keeps the agreement. -/
theorem Coherent.step (h : Coherent s) (a : Action) : Coherent (step s a).2 := by
  unfold GiftCards.step
  cases ht : s.transactions a.conn with
  | none => exact h.begin a
  | some t =>
    dsimp only
    cases a with
    | lockCard _ now =>
      cases t with
      | draw _ _ _ phase =>
        cases phase with
        | opened => exact h.lockCard ht now
        | _ => exact h
      | _ => exact h
    | next => exact h.statement ht
    | commit =>
      unfold proceed
      dsimp only
      split_ifs with hcom
      · exact h.commit ht hcom
      · exact h
    | abort => exact h.close ht
    | _ => exact h

/-- The committed card and its ledger are the same. -/
def SameCard (s s' : Store) : Prop := s'.card=s.card∧s'.ledger=s.ledger

/-- A statement inside a transaction writes nothing. -/
theorem statement_sameCard (s : Store) (conn : ℕ) (t : Tx) :
    SameCard s (statement s conn t).2 := by
  unfold statement
  split
  · exact ⟨rfl,rfl⟩
  · split <;> exact ⟨rfl,rfl⟩
  · exact ⟨rfl,rfl⟩
  · exact ⟨rfl,rfl⟩
  · exact ⟨rfl,rfl⟩
  · exact ⟨rfl,rfl⟩
  · split <;> exact ⟨rfl,rfl⟩
  · split
    · exact ⟨rfl,rfl⟩
    · cases s.card <;> exact ⟨rfl,rfl⟩
  · exact ⟨rfl,rfl⟩
  · exact ⟨rfl,rfl⟩

/-- Beginning a transaction writes nothing. -/
theorem begin_sameCard (s : Store) (a : Action) : SameCard s (begin s a).2 := by
  cases a with
  | issue =>
    unfold begin
    dsimp only
    split
    · exact ⟨rfl,rfl⟩
    · split <;> exact ⟨rfl,rfl⟩
  | patch | checkout =>
    unfold begin
    dsimp only
    split <;> exact ⟨rfl,rfl⟩
  | requestRefund | finalizeRefund =>
    simp only [begin,requestRefund,finalizeRefund]
    split
    · exact ⟨rfl,rfl⟩
    split
    · exact ⟨rfl,rfl⟩
    · split <;> exact ⟨rfl,rfl⟩
  | lockCard | next | commit | abort => exact ⟨rfl,rfl⟩

theorem lockCard_sameCard (s : Store) (conn orderId tenderId : ℕ) (grandTotal now : ℤ) :
    SameCard s (lockCard s conn orderId tenderId grandTotal now).2 := by
  unfold lockCard
  split
  · exact ⟨rfl,rfl⟩
  cases s.card with
  | none => exact ⟨rfl,rfl⟩
  | some =>
    dsimp only
    split <;> exact ⟨rfl,rfl⟩

/-- Only commits change the card or its ledger. -/
theorem step_sameCard (s : Store) (a : Action) :
    SameCard s (step s a).2∨∃ conn t, a=.commit conn∧s.transactions conn=some t ∧
      t.complete=true∧(step s a).2=(s.write t).close conn t := by
  unfold step
  cases ht : s.transactions a.conn with
  | none => exact .inl (begin_sameCard s a)
  | some t =>
    dsimp only
    cases a with
    | lockCard conn now =>
      left
      unfold proceed
      dsimp only
      split
      · exact lockCard_sameCard s conn _ _ _ now
      · exact ⟨rfl,rfl⟩
    | next conn => exact .inl (statement_sameCard s conn t)
    | commit conn =>
      unfold proceed
      dsimp only
      split_ifs with hcom
      · exact .inr ⟨conn,t,rfl,ht,hcom,rfl⟩
      · exact .inl ⟨rfl,rfl⟩
    | abort => exact .inl ⟨rfl,rfl⟩
    | _ => exact .inl ⟨rfl,rfl⟩

/-- A statement that fits keeps the balance at the ledger. -/
theorem Balanced.step (h : Balanced s) (hcoh : Coherent s) {a : Action} (hfs : Fits s a) :
    Balanced (step s a).2 := by
  obtain ⟨hcar,hled⟩|⟨conn,t,rfl,ht,hcom,heq⟩ := step_sameCard s a
  · refine ⟨fun card hso => ?_,fun card hso => ?_,fun hno => ?_⟩
    · rw [hled]
      exact h.balance card (hcar ▸ hso)
    · exact h.nonneg card (hcar ▸ hso)
    · rw [hled]
      exact h.unissued (hcar ▸ hno)
  · rw [heq]
    exact h.commit hcoh ht hcom (hfs t ht)

/-- No transaction is open. -/
def Quiet (s : Store) : Prop := ∀ conn, s.transactions conn=none

/-- The card's balance is its ledger and is not below zero. -/
def BalanceIsLedger (s : Store) : Prop :=
  ∀ card, s.card=some card→card.balance=ledgerTotal s.ledger∧0≤card.balance

/-- What was drawn for an order is its gift card payment, of which there is one
at most, and no more is credited back. -/
def OrdersMatch (s : Store) : Prop := (s.payments.map Payment.orderId).Nodup ∧
    ∀ o, drawn s.ledger o=paid s.payments o∧credited s.ledger o≤paid s.payments o

/-- Statements with their answers, oldest first. -/
abbrev History := List (Event Store Action Answer)

/-- In every run orders match, and the balance is the ledger when every commit
fitted the committed card, also while transactions are open. -/
theorem balance_is_ledger {h : History} (hrun : Run step (fun _ _ _ => True) Store.empty h s) :
    OrdersMatch s∧((∀ e∈h, Fits e.before e.action) → BalanceIsLedger s) := by
  have hsta : Balanced Store.empty :=
    ⟨nofun,nofun,fun _ => rfl⟩
  obtain ⟨hcoh,hbal⟩ :
      Coherent s∧((∀ e∈h, Fits e.before e.action) → Balanced s) := by
    refine Run.invariant
      (P := fun h s => Coherent s∧((∀ e∈h, Fits e.before e.action) → Balanced s)) hrun
      ⟨Coherent.empty,fun _ => hsta⟩ fun past mid a hmid _ => ⟨hmid.1.step a,fun hfs => ?_⟩
    have hbef : Balanced mid := hmid.2 fun e he => hfs e (mem_append_left _ he)
    have hlt : Fits mid a :=
      hfs (perform step mid a) (mem_append_right _ (mem_singleton_self _))
    exact hbef.step hmid.1 hlt
  refine ⟨⟨hcoh.rows.paymentOrders,fun o => hcoh.rows.credited_le o⟩,fun hfs => ?_⟩
  have hkp := hbal hfs
  exact fun card hso => ⟨hkp.balance card hso,hkp.nonneg card hso⟩

/-- A card of one hundred is issued. -/
def issueHundred : List Action := [.issue 0 100 true none,.next 0,.commit 0]

/-- The card is disabled while a checkout draws forty from it. -/
def disableDuringDraw : List Action :=
  issueHundred++[.checkout 1 40,.lockCard 1 0,.next 1,.next 1,.next 1,
    .patch 0 ⟨some false,none⟩,.commit 1,.next 0,.next 0,.commit 0]

/-- More is taken off the card than it has. -/
def adjustBelowZero : List Action :=
  issueHundred++[.patch 0 ⟨none,some (-150)⟩,.next 0,.next 0,.commit 0]

/-- State after a list of statements. -/
def after (actions : List Action) : Store := (play step [] Store.empty actions).2

/-- An update that only disables the card gives a concurrent draw back, and an
adjustment below zero leaves a ledger below zero. -/
theorem balance_leaves_ledger :
    (Quiet (after disableDuringDraw)∧(after disableDuringDraw).card=some ⟨100,false,none⟩ ∧
        ledgerTotal (after disableDuringDraw).ledger=60 ∧
        ¬ BalanceIsLedger (after disableDuringDraw)) ∧
      Quiet (after adjustBelowZero)∧(after adjustBelowZero).card=some ⟨0,true,none⟩ ∧
        ledgerTotal (after adjustBelowZero).ledger = -50 ∧
        ¬ BalanceIsLedger (after adjustBelowZero) := by
  have hdis : (after disableDuringDraw).card=some ⟨100,false,none⟩ := by decide
  have hdra : ledgerTotal (after disableDuringDraw).ledger=60 := by decide
  have hcla : (after adjustBelowZero).card=some ⟨0,true,none⟩ := by decide
  have hbel : ledgerTotal (after adjustBelowZero).ledger = -50 := by decide
  refine ⟨⟨fun conn => ?_,hdis,hdra,fun hkp => ?_⟩,fun conn => ?_,hcla,hbel,fun hkp => ?_⟩
  · match conn with
    | 0 => rfl
    | 1 => rfl
    | _+2 => rfl
  · have hbal := (hkp _ hdis).1
    rw [hdra] at hbal
    exact absurd hbal (by decide)
  · match conn with
    | 0 => rfl
    | _+1 => rfl
  · have hbal := (hkp _ hcla).1
    rw [hbel] at hbal
    exact absurd hbal (by decide)

/-- A draw of forty, a top-up of ten and a refund of thirty, one after the
other. -/
def oneByOne : List Action :=
  issueHundred++[.checkout 0 40,.lockCard 0 0,.next 0,.next 0,.next 0,.commit 0,
    .patch 0 ⟨none,some 10⟩,.next 0,.next 0,.commit 0,
    .requestRefund 0 1 30,.commit 0,.finalizeRefund 0 2,.next 0,.next 0,.next 0,.commit 0]

/-- Handlers one after the other keep the balance at the ledger. -/
theorem balance_is_ledger_one_by_one :
    (after oneByOne).card=some ⟨100,true,none⟩∧drawn (after oneByOne).ledger 0=40 ∧
      credited (after oneByOne).ledger 0=30∧BalanceIsLedger (after oneByOne) := by
  have hrun : Run step (fun _ _ _ => True) Store.empty (play step [] Store.empty oneByOne).1
      (after oneByOne) := .play Run.nil oneByOne (by repeat' constructor)
  exact ⟨by decide,by decide,by decide,(balance_is_ledger hrun).2 (by decide)⟩

end SellRight.GiftCardSafety
