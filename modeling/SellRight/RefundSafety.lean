import SellRight.FallibleSteps
import SellRight.RefundSettlement
import SellRight.RunHistory

/-!
# Bounds on refunds

Whatever requests are prepared and whatever outcomes are reported, the refunds
of a payment that did not fail stay within it, and the units they take from a
line of an order without credit stay within its billed units. A settled refund
stays settled with its amount, and a key stores one refund.
-/

namespace SellRight.RefundSafety

open List

open FallibleSteps OrderLifecycle PaymentLedger RefundRequests RefundSettlement RowTable RunHistory

/-- The refund is the same one, and its final state was not taken back. -/
structure Continues (r next : Refund) : Prop where
  same : next.id=r.id∧next.paymentId=r.paymentId∧next.orderId=r.orderId ∧
    next.amount=r.amount∧next.source=r.source
  settled : r.state=.settled→next.state=.settled
  failed : r.state=.failed→next.state=.failed

/-- What observing outcomes leaves alone. -/
structure Observed (db next : Store) : Prop where
  refunds : ∃ f : Refund → Refund, next.refunds=db.refunds.map f∧∀ r∈db.refunds, Continues r (f r)
  tables : next.payments=db.payments∧next.refundLines=db.refundLines ∧
    next.redemptions=db.redemptions
  keys : next.attempts.map PaymentAttempt.idempotencyKey =
    db.attempts.map PaymentAttempt.idempotencyKey
  kept : ∀ line∈db.orderLines, line.orderId∉db.redemptions→line∈next.orderLines
  /-- A new line belongs to an order with credit and takes no identifier of a
  line of an order without. -/
  added : ∀ line∈next.orderLines, line∈db.orderLines∨(line.orderId∈db.redemptions ∧
    ∀ other∈db.orderLines, other.orderId∉db.redemptions → other.id≠line.id)

variable {w : World} {db middle next : Store}

theorem Continues.refl (r : Refund) : Continues r r := ⟨⟨rfl,rfl,rfl,rfl,rfl⟩,id,id⟩

theorem Continues.trans {a b c : Refund} (hfst : Continues a b) (hsec : Continues b c) :
    Continues a c := by
  obtain ⟨⟨hid,hpay,hord,hamo,hsou⟩,hset,hfai⟩ := hfst
  obtain ⟨⟨hid',hpay',hord',hamo',hsou'⟩,hset',hfai'⟩ := hsec
  exact ⟨⟨hid'.trans hid,hpay'.trans hpay,hord'.trans hord,hamo'.trans hamo,
    hsou'.trans hsou⟩,hset' ∘ hset,hfai' ∘ hfai⟩

/-- Changes to other tables are nothing to observe. -/
theorem Observed.of_eq (href : next.refunds=db.refunds)
    (htab : next.payments=db.payments∧next.refundLines=db.refundLines ∧
      next.redemptions=db.redemptions)
    (hatt : next.attempts=db.attempts) (hlns : next.orderLines=db.orderLines) :
    Observed db next := by
  refine ⟨⟨id,by rw [href,map_id],fun r _ => Continues.refl r⟩,htab,?_,?_,?_⟩
  · rw [hatt]
  · intro line hln _
    rw [hlns]
    exact hln
  · intro line hln
    rw [hlns] at hln
    exact .inl hln

/-- Nothing happened. -/
theorem Observed.refl (db : Store) : Observed db db := Observed.of_eq rfl ⟨rfl,rfl,rfl⟩ rfl rfl

theorem Observed.trans (hfst : Observed db middle) (hsec : Observed middle next) :
    Observed db next := by
  obtain ⟨f,hf,hcon⟩ := hfst.refunds
  obtain ⟨g,hg,hcon'⟩ := hsec.refunds
  obtain ⟨hpay,hlns,hcre⟩ := hfst.tables
  obtain ⟨hpay',hlns',hcre'⟩ := hsec.tables
  refine ⟨⟨g ∘ f,?_,?_⟩,⟨hpay'.trans hpay,hlns'.trans hlns,
    hcre'.trans hcre⟩,hsec.keys.trans hfst.keys,?_,?_⟩
  · rw [hg,hf,map_map]
  · intro r hr
    refine (hcon r hr).trans (hcon' (f r) ?_)
    rw [hf]
    exact mem_map_of_mem hr
  · intro line hln hcas
    apply hsec.kept line (hfst.kept line hln hcas)
    rw [hcre]
    exact hcas
  · intro line hln
    rcases hsec.added line hln with hold|⟨hbea,hfre⟩
    · exact hfst.added line hold
    · rw [hcre] at hbea hfre
      exact .inr ⟨hbea,fun other hot hcas => hfre other (hfst.kept other hot hcas) hcas⟩

variable {refund : Refund} {providerRef : Option String} {refunds : List Refund}
  {attemptId : String} {result : RefundResult} {credit : Option (List (String×List ℕ))}
  {lines : List Line} {p : Payment} {drawn : Drawn}

/-- Writing an outcome that respects the final states of the refund continues
every refund. -/
theorem setOutcome_continues {state : RefundState}
    (hids : (refunds.map Refund.id).Nodup) (href : refund∈refunds)
    (hset : refund.state=.settled→state=.settled) (hfai : refund.state=.failed→state=.failed) :
    ∃ f : Refund → Refund, setOutcome refund state providerRef refunds=refunds.map f ∧
      ∀ r∈refunds, Continues r (f r) := by
  refine ⟨_,rfl,fun r hr => ?_⟩
  by_cases hid : r.id=refund.id
  · rw [eq_of_key_eq Refund.id hids hr href hid,if_pos (by simp)]
    exact ⟨⟨rfl,rfl,rfl,rfl,rfl⟩,hset,hfai⟩
  · rw [if_neg (by simpa using hid)]
    exact .refl r

theorem writeOutcome_observed {state : RefundState} (hids : (db.refunds.map Refund.id).Nodup)
    (href : refund∈db.refunds) (hset : refund.state=.settled→state=.settled)
    (hfai : refund.state=.failed→state=.failed)
    (hwri : writeOutcome db attemptId refund state providerRef=.ok next) : Observed db next := by
  unfold writeOutcome at hwri
  split_ifs at hwri
  cases hwri
  refine ⟨setOutcome_continues hids href hset hfai,⟨rfl,rfl,rfl⟩,?_,
    fun line hln _ => hln,fun line hln => .inl hln⟩
  exact map_updateWhere _ _ fun _ _ => rfl

theorem adoptReference_observed (hids : (db.refunds.map Refund.id).Nodup) (href : refund∈db.refunds)
    (hwri : adoptReference db attemptId refund providerRef=.ok next) : Observed db next := by
  unfold adoptReference at hwri
  split_ifs at hwri
  cases hwri
  refine ⟨setOutcome_continues hids href id id,⟨rfl,rfl,rfl⟩,?_,
    fun line hln _ => hln,fun line hln => .inl hln⟩
  exact map_updateWhere _ _ fun _ _ => rfl

theorem activate_observed (o : Order) (refundId : String) :
    Observed db (activatePreparedOrderEdit w db o refundId) := by
  unfold activatePreparedOrderEdit
  split
  · next hbea =>
    have hcre : o.id∈db.redemptions := of_decide_eq_true (Bool.and_eq_true_iff.mp hbea).1
    split
    · exact .refl db
    · next stage _ =>
      split_ifs with htk
      · exact .refl db
      refine ⟨⟨id,by rw [map_id],fun r _ => Continues.refl r⟩,⟨rfl,rfl,rfl⟩,rfl,?_,?_⟩
      · intro line hln hcas
        refine mem_append_left _ (mem_filter.mpr ⟨hln,decide_eq_true ?_⟩)
        intro hown
        exact hcas (hown ▸ hcre)
      · intro line hln
        rcases mem_append.mp hln with hold|hnew
        · exact .inl (mem_filter.mp hold).1
        obtain ⟨added,had,rfl⟩ := mem_map.mp hnew
        refine .inr ⟨hcre,fun other hot hcas hid => htk ?_⟩
        rw [lineTaken,any_eq_true]
        refine ⟨added,had,any_eq_true.mpr ⟨other,hot,decide_eq_true ⟨hid,?_⟩⟩⟩
        intro hown
        exact hcas (hown ▸ hcre)
  · exact .refl db

variable {attempt : PaymentAttempt}

theorem settleRefund_observed {o : Order}
    (hset : settleRefund w db o attempt refund=.ok next) : Observed db next := by
  unfold settleRefund at hset
  simp only at hset
  split at hset
  · cases hset
  split at hset
  · split at hset
    · cases hset
    · cases hset
      exact activate_observed o refund.id
  · split at hset
    · cases hset
      exact .refl db
    · cases hset
      exact .of_eq rfl ⟨rfl,rfl,rfl⟩ rfl rfl

theorem findRefund_mem (hfin : findRefund db attemptId=some refund) : refund∈db.refunds :=
  mem_of_find?_eq_some hfin

theorem lateReference_observed (hids : (db.refunds.map Refund.id).Nodup) (href : refund∈db.refunds)
    (hlat : lateReference db attemptId refund result=.ok next) : Observed db next := by
  unfold lateReference at hlat
  split at hlat
  · exact adoptReference_observed hids href hlat
  · cases hlat
    exact .refl db

theorem retryCompletion_observed (o : Order) (attempt : PaymentAttempt) (refund : Refund) :
    Observed db (retryCreditMerchandiseCompletion w db o attempt refund) := by
  unfold retryCreditMerchandiseCompletion
  split
  · exact .of_eq rfl ⟨rfl,rfl,rfl⟩ rfl rfl
  · exact .refl db

theorem replaySettled_observed {o : Order}
    (hids : (db.refunds.map Refund.id).Nodup) (href : refund∈db.refunds)
    (hrep : replaySettled w db o attempt refund result=.ok next) : Observed db next := by
  unfold replaySettled at hrep
  split at hrep
  · cases hrep
  · next written hwri =>
    have hfst := (lateReference_observed hids href hwri).trans
      (retryCompletion_observed (w := w) o attempt refund)
    simp only at hrep
    split at hrep
    · cases hrep
      exact hfst.trans (activate_observed o refund.id)
    · cases hrep
      exact hfst

theorem finalizeRefund_observed (hids : (db.refunds.map Refund.id).Nodup)
    (hlat : ∀ refund, findRefund db attemptId=some refund → refund.state=.failed →
      result.state≠.settled)
    (hfin : finalizeRefund w db attemptId result=.ok next) : Observed db next := by
  unfold finalizeRefund at hfin
  split at hfin
  · cases hfin
  · next attempt _ =>
    split at hfin
    · cases hfin
    split at hfin
    · next o refund _ href =>
      have hsto := findRefund_mem href
      simp only at hfin
      split at hfin
      · split at hfin
        · cases hfin
        refine writeOutcome_observed hids hsto ?_ ?_ hfin
        · intro hset
          rw [if_pos hset]
        · intro hfai
          rw [if_neg (by rw [hfai]; decide),if_pos ⟨hfai,hlat refund href hfai⟩]
      · split at hfin
        · exact replaySettled_observed hids hsto hfin
        · next huns =>
          split at hfin
          · cases hfin
          split at hfin
          · cases hfin
            exact .refl db
          · next hop =>
            have hfai : refund.state=.failed → result.state=.failed := fun h =>
              absurd ⟨h,hlat refund href h⟩ hop
            split at hfin
            · cases hfin
            · next written hwri =>
              have hfst := writeOutcome_observed hids hsto (fun h => absurd h huns) hfai hwri
              split at hfin
              · cases hfin
                exact hfst
              · exact hfst.trans (settleRefund_observed hfin)
    · cases hfin

/-- Money and units taken by refunds stay within their bounds. -/
structure Kept (db : Store) : Prop where
  paymentIds : (db.payments.map Payment.id).Nodup
  refundIds : (db.refunds.map Refund.id).Nodup
  owned : ∀ r∈db.refunds, ∀ p∈db.payments, p.id=r.paymentId → r.orderId=p.orderId
  amounts : ∀ r∈db.refunds, 0≤r.amount
  /-- Refunds that did not fail stay within their payment. -/
  money : ∀ p∈db.payments, reservedAmount db.refunds p.id≤p.amount
  /-- A line of an order without credit shares its identifier with no line. -/
  lineIds : ∀ line∈db.orderLines, line.orderId∉db.redemptions →
    ∀ other∈db.orderLines, other.id=line.id → other=line
  lineOwned : ∀ taken∈db.refundLines, ∀ r∈db.refunds, r.id=taken.refundId →
    ∀ line∈db.orderLines, line.orderId∉db.redemptions→line.id=taken.orderLineId →
      r.orderId=line.orderId
  quantities : ∀ taken∈db.refundLines, 0≤taken.quantity
  /-- Refunds that did not fail stay within the billed units of a line. -/
  units : ∀ line∈db.orderLines, line.orderId∉db.redemptions →
    reservedQty db.refunds db.refundLines line.id≤refundQuantity line

variable {f : Refund → Refund}

theorem reservedAmount_continues
    (hcon : ∀ r∈refunds, Continues r (f r)) (hamou : ∀ r∈refunds, 0≤r.amount) (paymentId : String) :
    reservedAmount (refunds.map f) paymentId≤reservedAmount refunds paymentId := by
  rw [reservedAmount,reservedAmount,sum_map_filter,sum_map_filter,map_map]
  apply sum_le_sum
  intro r hr
  obtain ⟨⟨-,hpaym,-,hamo,-⟩,-,hfai⟩ := hcon r hr
  simp only [Function.comp_apply,hpaym,hamo,decide_eq_true_eq]
  by_cases heq : r.paymentId=paymentId∧r.state≠.failed
  · split
    · exact le_refl _
    · exact hamou r hr
  · rw [if_neg heq,if_neg]
    rintro ⟨hpay,hst⟩
    exact heq ⟨hpay,fun h => hst (hfai h)⟩

variable {refundLines : List RefundLine}

theorem reservedQty_continues (hcont : ∀ r∈refunds, Continues r (f r))
    (hqua : ∀ taken∈refundLines, 0≤taken.quantity) (lineId : String) :
    reservedQty (refunds.map f) refundLines lineId≤reservedQty refunds refundLines lineId := by
  rw [reservedQty,reservedQty,sum_map_filter,sum_map_filter]
  apply sum_le_sum
  intro taken htk
  by_cases haft : (decide (taken.orderLineId=lineId) && reservesUnits (refunds.map f) taken)=true
  · obtain ⟨hln,hres⟩ := Bool.and_eq_true_iff.mp haft
    obtain ⟨moved,hmv,hcon⟩ := any_eq_true.mp hres
    obtain ⟨r,hr,rfl⟩ := mem_map.mp hmv
    obtain ⟨⟨hid,-,-,-,hsou⟩,-,hfai⟩ := hcont r hr
    obtain ⟨hlv,hsal⟩ := Bool.and_eq_true_iff.mp hcon
    obtain ⟨href,hst⟩ := of_decide_eq_true hlv
    have hbef : (decide (taken.orderLineId=lineId)&&reservesUnits refunds taken)=true := by
      refine Bool.and_eq_true_iff.mpr ⟨hln,any_eq_true.mpr ⟨r,hr,?_⟩⟩
      refine Bool.and_eq_true_iff.mpr ⟨decide_eq_true ⟨hid ▸ href,fun h => ?_⟩,?_⟩
      · exact hst (hfai h)
      · simpa [isEditRefund,hsou] using hsal
    rw [if_pos haft,if_pos hbef]
  · rw [if_neg haft]
    split
    · exact hqua taken htk
    · exact le_refl _

/-- Observing outcomes keeps the bounds. -/
theorem Kept.observe (h : Kept db) (hobs : Observed db next) : Kept next := by
  obtain ⟨f,hf,hcon⟩ := hobs.refunds
  obtain ⟨hpay,hlns,hcre⟩ := hobs.tables
  have hcas : ∀ line∈next.orderLines, line.orderId∉next.redemptions →
      line∈db.orderLines∧line.orderId∉db.redemptions := by
    intro line hln hcas
    rw [hcre] at hcas
    rcases hobs.added line hln with hold|⟨hbea,-⟩
    · exact ⟨hold,hcas⟩
    · exact absurd hbea hcas
  refine ⟨hpay ▸ h.paymentIds,?_,?_,?_,?_,?_,?_,hlns ▸ h.quantities,?_⟩
  · have hids : db.refunds.map (Refund.id ∘ f)=db.refunds.map Refund.id :=
      map_congr_left fun r hr => (hcon r hr).same.1
    rw [hf,map_map,hids]
    exact h.refundIds
  · intro moved hmv p hp hid
    rw [hf] at hmv
    obtain ⟨r,hr,rfl⟩ := mem_map.mp hmv
    obtain ⟨-,hpaym,hord,-,-⟩ := (hcon r hr).same
    rw [hord]
    exact h.owned r hr p (hpay ▸ hp) (hid.trans hpaym)
  · intro moved hmv
    rw [hf] at hmv
    obtain ⟨r,hr,rfl⟩ := mem_map.mp hmv
    rw [(hcon r hr).same.2.2.2.1]
    exact h.amounts r hr
  · intro p hp
    rw [hf]
    exact (reservedAmount_continues hcon h.amounts p.id).trans (h.money p (hpay ▸ hp))
  · intro line hln hfr other hot hid
    obtain ⟨hold,hfr⟩ := hcas line hln hfr
    rcases hobs.added other hot with hsto|⟨-,hfre⟩
    · exact h.lineIds line hold hfr other hsto hid
    · exact absurd hid.symm (hfre line hold hfr)
  · intro taken htk moved hmv hid line hln hfr heq
    rw [hf] at hmv
    obtain ⟨r,hr,rfl⟩ := mem_map.mp hmv
    obtain ⟨hrid,-,hord,-,-⟩ := (hcon r hr).same
    obtain ⟨hold,hfr⟩ := hcas line hln hfr
    rw [hord]
    exact h.lineOwned taken (hlns ▸ htk) r hr (hrid ▸ hid) line hold hfr heq
  · intro line hln hfr
    obtain ⟨hold,hfr⟩ := hcas line hln hfr
    rw [hf,hlns]
    exact (reservedQty_continues hcon h.quantities line.id).trans (h.units line hold hfr)

variable {o : Order} {input : RefundRequest} {plan : RefundPlan}

/-- What a priced line of an order is known to satisfy. -/
structure Priced (db : Store) (o : Order) (snapshot : LineSnapshot) : Prop where
  positive : 1 ≤ snapshot.line.quantity
  /-- The line belongs to the order, and without credit it takes open units. -/
  open_ : ∃ row∈linesOf db o, row.id=snapshot.line.orderLineId ∧
    (o.id∉db.redemptions→snapshot.line.quantity≤openUnits db o row)

section
variable (hcre : o.id∉db.redemptions→credit=none)
include hcre

variable {bases : List (String×UnitBasis)}

theorem snapshotLine_priced {line : Line} {snapshot : LineSnapshot}
    (hpri : snapshotLine db o credit bases line=.ok snapshot) :
    snapshot.line=line∧Priced db o snapshot := by
  unfold snapshotLine at hpri
  split at hpri
  · cases hpri
  · next row hrow =>
    obtain ⟨hmem,hid⟩ := find_key_eq_some OrderLine.id hrow
    split at hpri
    · cases hpri
    · next hqua =>
      split at hpri
      · cases hpri
      · cases hpri
        obtain ⟨-,hmor⟩ := not_or.mp hqua
        obtain ⟨hpos,hlim⟩ := not_or.mp hmor
        refine ⟨rfl,not_lt.mp hpos,row,hmem,hid,fun hcas => ?_⟩
        rw [hcre hcas] at hlim
        exact not_lt.mp hlim

variable {snapshots : List LineSnapshot}

theorem snapshots_priced
    (hall : List.Forall₂ (fun line s => snapshotLine db o credit bases line=.ok s) lines
      snapshots) : snapshots.map LineSnapshot.line=lines∧∀ s∈snapshots, Priced db o s := by
  induction hall with
  | nil => exact ⟨rfl,fun s hs => absurd hs not_mem_nil⟩
  | cons hone _ ih =>
    obtain ⟨hln,hpri⟩ := snapshotLine_priced hcre hone
    refine ⟨by rw [map_cons,hln,ih.1],fun s hs => ?_⟩
    rcases mem_cons.mp hs with rfl|hrt
    · exact hpri
    · exact ih.2 s hrt

theorem snapshotLines_priced
    (hpri : snapshotLines w db o credit lines=.ok snapshots) :
    (snapshots.map fun s => s.line.orderLineId).Nodup∧∀ s∈snapshots, Priced db o s := by
  unfold snapshotLines at hpri
  split at hpri
  · cases hpri
    exact ⟨nodup_nil,fun s hs => absurd hs not_mem_nil⟩
  split at hpri
  · cases hpri
  · next bases _ =>
    split at hpri
    · next hnod =>
      obtain ⟨hlns,hpric⟩ := snapshots_priced hcre (mapM_eq_ok.mp hpri)
      refine ⟨?_,hpric⟩
      rw [← hlns,map_map] at hnod
      exact hnod
    · cases hpri

end

theorem selectPayment_mem (hsel : selectPayment db o input=.ok p) : p∈settledPayments db o := by
  unfold selectPayment at hsel
  simp only at hsel
  split at hsel
  · cases hsel
  · next q hq =>
    split at hsel
    · cases hsel
    split at hsel
    · cases hsel
    · cases hsel
      split at hq
      · exact mem_of_find?_eq_some hq
      split at hq
      · next hone =>
        cases hq
        have hmem : p∈(settledPayments db o).filter fun p => !p.duplicate := by
          rw [hone]
          exact mem_singleton_self p
        exact (mem_filter.mp hmem).1
      · cases hq

theorem creditUnits_none {named : List Line} {all : Bool} (hcas : o.id∉db.redemptions)
    (hun : creditUnits w db o named all=.ok credit) : credit=none := by
  unfold creditUnits at hun
  rw [if_neg] at hun
  · cases hun
    rfl
  · rintro ⟨hbea,-⟩
    exact hcas (of_decide_eq_true (Bool.and_eq_true_iff.mp hbea).1)

/-- An authorized amount is zero or within the money no refund reserves. -/
theorem authorize_amount {explicitLines : Bool} {amounts : RefundAmounts}
    (hok : authorize w db o input p explicitLines amounts lines=.ok ()) :
    amounts.amount=0∨(1≤amounts.amount∧amounts.amount≤availableAmount db o p) := by
  unfold authorize at hok
  split at hok
  · split at hok
    · cases hok
    · next hz =>
      left
      by_contra hamo
      exact hz (.inr (.inr (.inr (.inl hamo))))
  · split at hok
    · cases hok
    · next hbal =>
      obtain ⟨-,hran⟩ := not_or.mp hbal
      obtain ⟨hpos,hava⟩ := not_or.mp hran
      exact .inr ⟨not_lt.mp hpos,not_lt.mp hava⟩

theorem checkEditLines_mem {edits : List LineSnapshot}
    (hck : checkEditLines w db o input=.ok edits) {s : LineSnapshot} (hs : s∈edits) :
    ∃ line∈input.editLines, s.line.quantity=line.quantity ∧
      ∃ row∈linesOf db o, row.id=s.line.orderLineId := by
  unfold checkEditLines at hck
  split at hck
  · cases hck
    exact absurd hs not_mem_nil
  simp only at hck
  split at hck
  · cases hck
  have hall := mapM_eq_ok.mp hck
  clear hck
  generalize input.editLines=requested at hall ⊢
  induction hall with
  | nil => exact absurd hs not_mem_nil
  | cons hone _ ih =>
    rcases mem_cons.mp hs with rfl|hrt
    · split at hone
      · cases hone
      · next row hrow =>
        obtain ⟨hmem,hid⟩ := find_key_eq_some OrderLine.id hrow
        split at hone
        · cases hone
        · cases hone
          exact ⟨_,mem_cons_self,rfl,row,hmem,hid⟩
    · obtain ⟨line,hln,hqua⟩ := ih hrt
      exact ⟨line,mem_cons_of_mem _ hln,hqua⟩

/-- What a plan is known to satisfy. -/
structure Planned (db : Store) (o : Order) (input : RefundRequest) (plan : RefundPlan) : Prop where
  payment : plan.payment∈settledPayments db o
  /-- The amount is zero or within the money no refund reserves. -/
  money : plan.amounts.amount=0 ∨
    (1≤plan.amounts.amount∧plan.amounts.amount≤availableAmount db o plan.payment)
  lines : (plan.lines.map fun s => s.line.orderLineId).Nodup∧∀ s∈plan.lines, Priced db o s
  /-- The edit lines are lines of the order with the units of the request. -/
  edits : ∀ s∈plan.edits, ∃ line∈input.editLines, s.line.quantity=line.quantity ∧
    ∃ row∈linesOf db o, row.id=s.line.orderLineId

/-- A completed plan satisfies what is required of it. -/
theorem planRefund_planned (hpl : planRefund w db o input=.ok plan) : Planned db o input plan := by
  simp only [planRefund,bind_eq_ok] at hpl
  obtain ⟨_,-,rma,-,p,hpay,_,-,credit,hcre,_,-,snapshots,hsna,edits,hedi,hpl⟩ := hpl
  split at hpl
  · cases hpl
  obtain ⟨_,haut,hpl⟩ := bind_eq_ok.mp hpl
  cases hpl
  exact ⟨selectPayment_mem hpay,authorize_amount haut,
    snapshotLines_priced (fun hcas => creditUnits_none hcas hcre) hsna,
    fun s hs => checkEditLines_mem hedi hs⟩

theorem Kept.reservedAmount_order (h : Kept db) (hp : p∈db.payments) (hord : p.orderId=o.id) :
    reservedAmount (orderRefunds db o) p.id=reservedAmount db.refunds p.id := by
  rw [reservedAmount,reservedAmount,orderRefunds,filter_filter]
  congr 2
  apply filter_congr
  intro r hr
  by_cases hpay : r.paymentId=p.id
  · simp [hpay,h.owned r hr p hp hpay.symm,hord]
  · simp [hpay]

theorem Kept.reservedQty_order (h : Kept db) {line : OrderLine} (hln : line∈db.orderLines)
    (hcas : line.orderId∉db.redemptions) (hord : line.orderId=o.id) :
    reservedQty (orderRefunds db o) db.refundLines line.id =
      reservedQty db.refunds db.refundLines line.id := by
  rw [reservedQty,reservedQty]
  congr 2
  apply filter_congr
  intro taken htk
  by_cases heq : taken.orderLineId=line.id
  · have hres : reservesUnits (orderRefunds db o) taken=reservesUnits db.refunds taken := by
      rw [Bool.eq_iff_iff,reservesUnits,reservesUnits,any_eq_true,any_eq_true]
      constructor
      · rintro ⟨r,hr,hcon⟩
        exact ⟨r,(mem_filter.mp hr).1,hcon⟩
      · rintro ⟨r,hr,hcon⟩
        refine ⟨r,mem_filter.mpr ⟨hr,decide_eq_true ?_⟩,hcon⟩
        have hid := (of_decide_eq_true (Bool.and_eq_true_iff.mp hcon).1).1
        exact (h.lineOwned taken htk r hr hid line hln hcas heq.symm).trans hord
    rw [hres]
  · simp [heq]

section
variable (refunds : List Refund)

theorem reservedAmount_append (r : Refund) (paymentId : String) :
    reservedAmount (refunds++[r]) paymentId=reservedAmount refunds paymentId +
      if r.paymentId=paymentId∧r.state≠.failed then r.amount else 0 := by
  simp only [reservedAmount,sum_map_filter,map_append,sum_append,map_cons,
    map_nil,sum_cons,sum_nil,add_zero,decide_eq_true_eq]

/-- A refund that no stored line belongs to changes no stored reservation. -/
theorem reservedQty_append {r : Refund}
    (hfre : ∀ taken∈refundLines, taken.refundId≠r.id) (lineId : String) :
    reservedQty (refunds++[r]) refundLines lineId=reservedQty refunds refundLines lineId := by
  rw [reservedQty,reservedQty]
  congr 2
  apply filter_congr
  intro taken htk
  have hne : r.id≠taken.refundId := fun h => hfre taken htk h.symm
  simp [reservesUnits,hne]

/-- Reservations of two groups of refund lines add up. -/
theorem reservedQty_lines (first second : List RefundLine)
    (lineId : String) : reservedQty refunds (first++second) lineId =
      reservedQty refunds first lineId+reservedQty refunds second lineId := by
  simp only [reservedQty,filter_append,map_append,sum_append]

end

/-- The lines of a new refund take no more of an order line without credit
than is open. -/
theorem Kept.newLines (h : Kept db) (hpla : Planned db o input plan)
    (hck : input.editLines≠[]→input.source=some editRefundSource)
    (hfre : ∀ r∈db.refunds, r.id≠drawn.refundId) {line : OrderLine}
    (hln : line∈db.orderLines) (hcas : line.orderId∉db.redemptions) :
    reservedQty (db.refunds++[newRefund o input plan drawn]) (newRefundLines plan drawn) line.id ≤
      refundQuantity line-reservedQty db.refunds db.refundLines line.id := by
  have hop := h.units line hln hcas
  by_cases hed : input.source=some editRefundSource
  · have hno : (newRefundLines plan drawn).filter (fun taken =>
        decide (taken.orderLineId=line.id) &&
          reservesUnits (db.refunds++[newRefund o input plan drawn]) taken)=[] := by
      rw [filter_eq_nil_iff]
      intro taken htk hcon
      obtain ⟨s,-,rfl⟩ := mem_map.mp htk
      obtain ⟨r,hr,hlv⟩ := any_eq_true.mp (Bool.and_eq_true_iff.mp hcon).2
      obtain ⟨href,hsal⟩ := Bool.and_eq_true_iff.mp hlv
      rcases mem_concat_iff.mp hr with hold|rfl
      · exact hfre r hold (of_decide_eq_true href).1
      · simp [isEditRefund,newRefund,hed] at hsal
    rw [reservedQty,hno]
    simpa using hop
  · have hedi : plan.edits=[] := by
      rw [eq_nil_iff_forall_not_mem]
      intro s hs
      obtain ⟨requested,hreq,-⟩ := hpla.edits s hs
      exact hed (hck (ne_nil_of_mem hreq))
    have hks : ((newRefundLines plan drawn).map RefundLine.orderLineId).Nodup := by
      rw [newRefundLines,hedi,append_nil,map_map]
      exact hpla.lines.1
    have hlim : ∀ taken∈newRefundLines plan drawn, taken.orderLineId=line.id →
        taken.quantity≤refundQuantity line-reservedQty db.refunds db.refundLines line.id := by
      intro taken htk heq
      obtain ⟨s,hs,rfl⟩ := mem_map.mp htk
      rw [hedi,append_nil] at hs
      obtain ⟨row,hrow,hid,hun⟩ := (hpla.lines.2 s hs).open_
      obtain ⟨hsto,hord⟩ := mem_filter.mp hrow
      have hown := of_decide_eq_true hord
      obtain rfl := h.lineIds line hln hcas row hsto (hid.trans heq)
      have hop := hun (hown ▸ hcas)
      rw [openUnits,h.reservedQty_order hln hcas hown] at hop
      exact hop
    refine le_trans ?_ (sum_filter_key_le RefundLine.orderLineId line.id RefundLine.quantity hks
      (by omega) hlim)
    rw [reservedQty,sum_map_filter,sum_map_filter]
    apply sum_le_sum
    intro taken htk
    obtain ⟨s,hs,rfl⟩ := mem_map.mp htk
    rw [hedi,append_nil] at hs
    have hpos := (hpla.lines.2 s hs).positive
    by_cases heq : s.line.orderLineId=line.id
    · simp only [heq,decide_true,Bool.true_and,if_true]
      split
      · exact le_refl _
      · omega
    · simp [heq]

def Unused (db : Store) (drawn : Drawn) : Prop :=
  (∀ r∈db.refunds, r.id≠drawn.refundId)∧(∀ taken∈db.refundLines,
    taken.refundId≠drawn.refundId)∧∀ a∈db.attempts, a.id≠drawn.attemptId

/-- What storing a refund adds. -/
structure Stored (w : World) (db : Store) (o : Order) (input : RefundRequest) (plan : RefundPlan)
    (drawn : Drawn) (next : Store) : Prop where
  refunds : next.refunds=db.refunds++[newRefund o input plan drawn]
  refundLines : next.refundLines=db.refundLines++newRefundLines plan drawn
  attempts : next.attempts=db.attempts++[newAttempt w o input plan drawn]
  tables : next.payments=db.payments∧next.orderLines=db.orderLines∧next.redemptions=db.redemptions

theorem storeRefund_stored (hsto : storeRefund w db o input plan drawn=.ok next) :
    Stored w db o input plan drawn next := by
  unfold storeRefund at hsto
  simp only at hsto
  split at hsto
  · cases hsto
  · cases hsto
    exact ⟨rfl,rfl,rfl,rfl,rfl,rfl⟩

/-- Storing a planned refund keeps the bounds. -/
theorem Kept.store (h : Kept db) (hunu : Unused db drawn)
    (hck : checkRequest input=.ok ()) (hpla : Planned db o input plan)
    (hsto : Stored w db o input plan drawn next) : Kept next := by
  obtain ⟨hpay,hlns,hcre⟩ := hsto.tables
  obtain ⟨hpai,hown⟩ := mem_filter.mp hpla.payment
  have hord := (of_decide_eq_true hown).1
  have hche : (input.editLines≠[]→input.source=some editRefundSource) ∧
      ∀ line∈input.editLines, 1≤line.quantity := by
    unfold checkRequest at hck
    split at hck
    · cases hck
    split at hck
    · cases hck
    split at hck
    · cases hck
    · next hsou =>
      split at hck
      · cases hck
      · next hedi =>
        refine ⟨fun hso => by_contra fun hot => hsou ⟨hso,hot⟩,?_⟩
        intro line hln
        by_contra hqua
        refine hedi (.inl (any_eq_true.mpr ⟨line,hln,?_⟩))
        have hsma : line.quantity<1 := not_le.mp hqua
        simp [hsma]
  have hnew : ∀ taken∈newRefundLines plan drawn, 0≤taken.quantity ∧
      taken.refundId=drawn.refundId∧∃ row∈linesOf db o, row.id=taken.orderLineId := by
    intro taken htk
    obtain ⟨s,hs,rfl⟩ := mem_map.mp htk
    rcases mem_append.mp hs with hln|hed
    · obtain ⟨hpos,row,hrow,hid,-⟩ := hpla.lines.2 s hln
      exact ⟨le_trans zero_le_one hpos,rfl,row,hrow,hid⟩
    obtain ⟨line,hln,hqua,hrow⟩ := hpla.edits s hed
    have hpos := hche.2 line hln
    have hso : 0 ≤ s.line.quantity := by omega
    exact ⟨hso,rfl,hrow⟩
  refine ⟨hpay ▸ h.paymentIds,?_,?_,?_,?_,?_,?_,?_,?_⟩
  · rw [hsto.refunds]
    exact nodup_map_append Refund.id h.refundIds hunu.1
  · intro r hr p hp hid
    rw [hpay] at hp
    rw [hsto.refunds] at hr
    rcases mem_concat_iff.mp hr with hold|rfl
    · exact h.owned r hold p hp hid
    · rw [eq_of_key_eq Payment.id h.paymentIds hp hpai hid]
      exact hord.symm
  · intro r hr
    rw [hsto.refunds] at hr
    rcases mem_concat_iff.mp hr with hold|rfl
    · exact h.amounts r hold
    · rcases hpla.money with hz|⟨hpos,-⟩
      · exact le_of_eq hz.symm
      · exact (by omega : (0 : ℤ)≤plan.amounts.amount)
  · intro p hp
    rw [hpay] at hp
    rw [hsto.refunds,reservedAmount_append]
    have hold := h.money p hp
    by_cases heq : plan.payment.id=p.id
    · obtain rfl := eq_of_key_eq Payment.id h.paymentIds hpai hp heq
      have hamo : (newRefund o input plan drawn).amount=plan.amounts.amount := rfl
      rcases hpla.money with hz|⟨-,hlim⟩
      · omega
      · rw [availableAmount,h.reservedAmount_order hpai hord] at hlim
        omega
    · rw [if_neg fun hbo => heq hbo.1]
      omega
  · rw [hlns,hcre]
    exact h.lineIds
  · intro taken htk r hr hid line hln hfr heq
    rw [hlns] at hln
    rw [hcre] at hfr
    rw [hsto.refundLines] at htk
    rw [hsto.refunds] at hr
    rcases mem_append.mp htk with hbef|had
    · rcases mem_concat_iff.mp hr with hold|rfl
      · exact h.lineOwned taken hbef r hold hid line hln hfr heq
      · exact absurd hid.symm (hunu.2.1 taken hbef)
    · obtain ⟨-,href,row,hrow,hrowId⟩ := hnew taken had
      rcases mem_concat_iff.mp hr with hold|rfl
      · exact absurd (hid.trans href) (hunu.1 r hold)
      · obtain ⟨hmem,hof⟩ := mem_filter.mp hrow
        rw [← h.lineIds line hln hfr row hmem (hrowId.trans heq.symm)]
        exact (of_decide_eq_true hof).symm
  · intro taken htk
    rw [hsto.refundLines] at htk
    rcases mem_append.mp htk with hbef|had
    · exact h.quantities taken hbef
    · exact (hnew taken had).1
  · intro line hln hfr
    rw [hlns] at hln
    rw [hcre] at hfr
    rw [hsto.refunds,hsto.refundLines,reservedQty_lines,reservedQty_append db.refunds hunu.2.1]
    have hmor := h.newLines hpla hche.1 hunu.1 hln hfr
    omega

/-- One transaction of the refund engine. -/
inductive Action where
  | prepare (input : RefundRequest) (drawn : Drawn)
  | finalize (attemptId : String) (result : RefundResult)

/-- Answer of a transaction, nothing more than completion for an outcome. -/
abbrev Answer := Except RefundFailure (Option Prepared)

/-- Execute one transaction. A refused one changes nothing. -/
def step (w : World) (db : Store) : Action → Answer×Store
  | .prepare input drawn =>
    match prepareRefund w db input drawn with
    | .error e => (.error e,db)
    | .ok (answer,next) => (.ok (some answer),next)
  | .finalize attemptId result =>
    match finalizeRefund w db attemptId result with
    | .error e => (.error e,db)
    | .ok next => (.ok none,next)

/-- Identifiers drawn are unused, and a failed refund is not reported as
settled. -/
def Admissible (db : Store) : Action → Prop
  | .prepare _ drawn => Unused db drawn
  | .finalize attemptId result => ∀ refund, findRefund db attemptId=some refund →
      refund.state=.failed → result.state≠.settled

theorem replayRequest_observed {prior : PaymentAttempt} {answer : Prepared}
    (hids : (db.refunds.map Refund.id).Nodup)
    (hrep : replayRequest w db o input prior=.ok (answer,next)) : Observed db next := by
  unfold replayRequest at hrep
  split at hrep
  · cases hrep
  split at hrep
  · cases hrep
  · next refund href =>
    split at hrep
    · next hsett =>
      cases hfin : finalizeRefund w db prior.id
          ⟨.settled,if refund.state=.settled then refund.providerRef else none⟩ with
      | error e =>
        rw [hfin] at hrep
        cases hrep
      | ok written =>
        rw [hfin] at hrep
        cases hrep
        refine finalizeRefund_observed hids ?_ hfin
        intro found hfd hfai
        cases href.symm.trans hfd
        rcases hsett with ⟨-,hpen⟩|hset
        · exact absurd (hpen.symm.trans hfai) (by decide)
        · exact absurd (hset.symm.trans hfai) (by decide)
    · cases hrep
      exact .refl db

theorem prepareRefund_cases {answer : Prepared} (hids : (db.refunds.map Refund.id).Nodup)
    (hpre : prepareRefund w db input drawn=.ok (answer,next)) :
    Observed db next∨∃ o plan, checkRequest input=.ok ()∧Planned db o input plan ∧
        Stored w db o input plan drawn next ∧
        ("refund:" ++ input.idempotencyKey)∉db.attempts.map PaymentAttempt.idempotencyKey := by
  obtain ⟨_,hck,hpre⟩ := bind_eq_ok.mp hpre
  obtain ⟨o,-,hpre⟩ := bind_eq_ok.mp hpre
  split at hpre
  · exact .inl (replayRequest_observed hids hpre)
  · next hno =>
    obtain ⟨plan,hpl,hpre⟩ := bind_eq_ok.mp hpre
    obtain ⟨written,hwri,hpre⟩ := bind_eq_ok.mp hpre
    cases hpre
    refine .inr ⟨o,plan,hck,planRefund_planned hpl,storeRefund_stored hwri,?_⟩
    intro huse
    obtain ⟨a,ha,hkey⟩ := mem_map.mp huse
    exact List.find?_eq_none.mp hno a ha (decide_eq_true hkey)

section
variable (h : Kept db) (hadm : Admissible db a)
include h hadm

/-- What one transaction does: nothing, observe outcomes, or store one refund
under a new key. -/
theorem step_cases : Observed db (step w db a).2 ∨
      ∃ input drawn o plan, a=.prepare input drawn∧checkRequest input=.ok () ∧
        Unused db drawn∧Planned db o input plan∧Stored w db o input plan drawn (step w db a).2 ∧
        ("refund:" ++ input.idempotencyKey)∉db.attempts.map PaymentAttempt.idempotencyKey := by
  cases a with
  | prepare input drawn =>
    unfold step
    simp only
    split
    · exact .inl (.refl db)
    · next answer next hpre =>
      rcases prepareRefund_cases h.refundIds hpre with hobs|⟨o,plan,hck,hpla,hsto,hkey⟩
      · exact .inl hobs
      · exact .inr ⟨input,drawn,o,plan,rfl,hck,hadm,hpla,hsto,hkey⟩
  | finalize =>
    left
    unfold step
    simp only
    split
    · exact .refl db
    · next next hfin => exact finalizeRefund_observed h.refundIds hadm hfin

/-- Every transaction keeps the bounds. -/
theorem step_kept : Kept (step w db a).2 := by
  rcases step_cases (w := w) h hadm with hobs|⟨input,drawn,o,plan,-,hck,hunu,hpla,hsto,-⟩
  · exact h.observe hobs
  · exact h.store hunu hck hpla hsto

theorem step_settled {r : Refund} (hr : r∈db.refunds) (hset : r.state=.settled) :
    ∃ after∈(step w db a).2.refunds, after.id=r.id∧after.state=.settled ∧
      after.amount=r.amount := by
  rcases step_cases (w := w) h hadm with hobs|⟨input,drawn,o,plan,-,-,-,-,hsto,-⟩
  · obtain ⟨f,hf,hcon⟩ := hobs.refunds
    obtain ⟨⟨hid,-,-,hamo,-⟩,hkee,-⟩ := hcon r hr
    rw [hf]
    exact ⟨f r,mem_map_of_mem hr,hid,hkee hset,hamo⟩
  · rw [hsto.refunds]
    exact ⟨r,mem_append_left _ hr,rfl,hset,rfl⟩

theorem step_keys {key : String} (hkey : key∈db.attempts.map PaymentAttempt.idempotencyKey) :
    key∈(step w db a).2.attempts.map PaymentAttempt.idempotencyKey := by
  rcases step_cases (w := w) h hadm with hobs|⟨input,drawn,o,plan,-,-,-,-,hsto,-⟩
  · rw [hobs.keys]
    exact hkey
  · rw [hsto.attempts,map_append]
    exact mem_append_left _ hkey

end

/-- A preparation under the key stored a refund row. -/
def Creates (key : String) (e : Event Store Action Answer) : Prop :=
  (∃ input drawn, e.action=.prepare input drawn∧input.idempotencyKey=key) ∧
    e.before.refunds.length<e.after.refunds.length

/-- A transaction that stores a refund row does so under a new key, which is
stored with it. -/
theorem step_creates (h : Kept db) (hadm : Admissible db a) {key : String}
    (hcre : Creates key (perform (step w) db a)) :
    ("refund:" ++ key)∉db.attempts.map PaymentAttempt.idempotencyKey ∧
      ("refund:" ++ key)∈(step w db a).2.attempts.map PaymentAttempt.idempotencyKey := by
  obtain ⟨⟨input,drawn,hact,rfl⟩,hmor⟩ := hcre
  rcases step_cases (w := w) h hadm with hobs|⟨input',drawn',o,plan,rfl,-,-,-,hsto,hkey⟩
  · obtain ⟨f,hf,-⟩ := hobs.refunds
    simp only [perform,hf,length_map,lt_self_iff_false] at hmor
  · cases hact
    refine ⟨hkey,?_⟩
    rw [hsto.attempts,map_append]
    exact mem_concat_self

/-- What every history of transactions keeps. -/
structure Invariant (h : List (Event Store Action Answer)) (s : Store) : Prop where
  kept : Kept s
  settled : ∀ e∈h, ∀ r∈e.before.refunds, r.state=.settled →
    ∃ after∈s.refunds, after.id=r.id∧after.state=.settled∧after.amount=r.amount
  keys : ∀ e∈h, ∀ key, Creates key e →
    ("refund:" ++ key)∈s.attempts.map PaymentAttempt.idempotencyKey

theorem step_invariant {h : List (Event Store Action Answer)}
    (hinv : Invariant h db) (hadm : Admissible db a) :
    Invariant (h++[perform (step w) db a]) (step w db a).2 := by
  refine ⟨step_kept hinv.kept hadm,?_,?_⟩
  · intro e he r hr hset
    rcases mem_concat_iff.mp he with hold|rfl
    · obtain ⟨after,haft,hid,hst,hamo⟩ := hinv.settled e hold r hr hset
      obtain ⟨final,hfin,hid',hst',hamo'⟩ :=
        step_settled (w := w) hinv.kept hadm haft hst
      exact ⟨final,hfin,hid'.trans hid,hst',hamo'.trans hamo⟩
    · exact step_settled hinv.kept hadm hr hset
  · intro e he key hcre
    rcases mem_concat_iff.mp he with hold|rfl
    · exact step_keys hinv.kept hadm (hinv.keys e hold key hcre)
    · exact (step_creates hinv.kept hadm hcre).2

/-- A store without refunds keeps the bounds. -/
theorem Kept.opening {start : Store} (href : start.refunds=[])
    (hlns : start.refundLines=[]) (hpay : (start.payments.map Payment.id).Nodup)
    (hamo : ∀ p∈start.payments, 0≤p.amount) (hlin : (start.orderLines.map OrderLine.id).Nodup)
    (hun : ∀ line∈start.orderLines, 0≤refundQuantity line) : Kept start := by
  refine ⟨hpay,?_,?_,?_,?_,?_,?_,?_,?_⟩
  · rw [href]
    exact nodup_nil
  · simp [href]
  · simp [href]
  · intro p hp
    simpa [href,reservedAmount] using hamo p hp
  · exact fun line hln _ other hot hid => eq_of_key_eq OrderLine.id hlin hot hln hid
  · simp [hlns]
  · simp [hlns]
  · intro line hln _
    simpa [hlns,reservedQty] using hun line hln

/-- In every reachable state the refunds of a payment that did not fail stay
within its amount, and those of a line of an order without credit within its
refundable units. Settled refunds stay as they are, and no key stores two
refund rows. -/
theorem refunds_bounded {start : Store} (hstart : Kept start)
    {h : List (Event Store Action Answer)} {s : Store}
    (hrun : Run (step w) (fun _ s a => Admissible s a) start h s) :
    (∀ p∈s.payments, reservedAmount s.refunds p.id≤p.amount) ∧
      (∀ line∈s.orderLines, line.orderId∉s.redemptions →
        reservedQty s.refunds s.refundLines line.id≤refundQuantity line) ∧
      (∀ e∈h, ∀ r∈e.before.refunds, r.state=.settled →
        ∃ after∈s.refunds, after.id=r.id∧after.state=.settled∧after.amount=r.amount) ∧
      ∀ h₁ e₁ h₂ e₂ h₃ key, h=h₁++e₁::(h₂++e₂::h₃) → ¬ (Creates key e₁∧Creates key e₂) := by
  have hall : ∀ {h s}, Run (step w) (fun _ s a => Admissible s a) start h s → Invariant h s := by
    intro h s hrun
    refine Run.invariant (P := Invariant) hrun ⟨hstart,by simp,by simp⟩ ?_
    exact fun _ _ _ hinv hadm => step_invariant hinv hadm
  have hinv := hall hrun
  refine ⟨hinv.kept.money,hinv.kept.units,hinv.settled,?_⟩
  rintro h₁ e₁ h₂ e₂ h₃ key rfl ⟨hfst,hsec⟩
  have hspl : Run (step w) (fun _ s a => Admissible s a) start ((h₁++e₁::h₂)++e₂::h₃) s := by
    simpa using hrun
  obtain ⟨hpa,hadm,heve⟩ := Run.split hspl
  have hbef := hall hpa
  rw [heve] at hsec
  exact (step_creates hbef.kept hadm hsec).1 (hbef.keys e₁ (by simp) key hfst)

/-- Code outside of the engine for a sample: one unit price, no credit. -/
def sampleWorld : World where
  sha256 := fun _ => "digest"
  localeCompare := fun _ _ => .eq
  hasCreditEvidence := fun _ _ => false
  availableUnits := fun _ _ => none
  unitBases := fun _ _ => some [("line",.unit 50)]
  provesCreditReturn := fun _ _ _ => false
  creditCurrency := fun _ _ => none
  supportsRefunds := fun _ => true
  accountAvailable := fun _ => true
  stagedEditRemovedUnits := fun _ _ _ => none
  bindPreparedEditRefund := fun _ _ _ _ => none
  activateStage := fun _ _ _ => none
  fullCreditMerchandise := fun _ _ => false
  settlesElsewhere := fun _ _ => true

/-- A paid order of two units at fifty cents. -/
def sampleStore : Store where
  orders := [⟨"order",.paid,false,false, "USD"⟩]
  orderLines := [⟨"line", "order",2,0,none,50,100⟩]
  payments := [⟨"payment", "order",100, "manual",none,.settled,none,none,some "USD",false,
    none,0⟩]
  refunds := []
  refundLines := []
  returns := []
  returnLines := []
  attempts := []
  edits := []
  redemptions := []

/-- Request to refund one unit of the sample order. -/
def oneUnit (key : String) : RefundRequest :=
  ⟨"order", "admin",key,none,none,[⟨"line",1,false⟩],false,none,none,none,false,none,
    none,[]⟩

/-- A unit is refunded, its request repeated, and the rest refused after a
second one. -/
def sampleActions : List Action :=
  [.prepare (oneUnit "a") ⟨"attempt1", "refund1"⟩,.finalize "attempt1" ⟨.settled,none⟩,
    .prepare (oneUnit "a") ⟨"attempt2", "refund2"⟩,.prepare (oneUnit "b") ⟨"attempt3", "refund3"⟩,
    .prepare (oneUnit "c") ⟨"attempt4", "refund4"⟩]

/-- The sample refunds exactly the payment, in two refunds. -/
theorem refunds_bounded_sample :
    (∀ p∈(play (step sampleWorld) [] sampleStore sampleActions).2.payments,
      reservedAmount (play (step sampleWorld) [] sampleStore sampleActions).2.refunds p.id ≤
        p.amount)∧(play (step sampleWorld) [] sampleStore sampleActions).2.refunds.length=2 := by
  have hsta : Kept sampleStore := .opening rfl rfl (by decide) (by decide) (by decide) (by decide)
  have hadm : Admitted (step sampleWorld) (fun _ s a => Admissible s a) [] sampleStore
      sampleActions := by
    refine ⟨⟨by decide,by decide,by decide⟩,?_,⟨by decide,by decide,by decide⟩,
      ⟨by decide,by decide,by decide⟩,⟨by decide,by decide,by decide⟩,trivial⟩
    intro refund hfin hfai
    have hpen : refund.state=.pending := by
      have hsto : findRefund (step sampleWorld sampleStore
          (.prepare (oneUnit "a") ⟨"attempt1", "refund1"⟩)).2 "attempt1" = some refund := hfin
      revert hsto
      rw [show findRefund (step sampleWorld sampleStore
        (.prepare (oneUnit "a") ⟨"attempt1", "refund1"⟩)).2 "attempt1" =
          some ⟨"refund1",some "attempt1", "payment", "order",50,50,0,0,.pending,none,none,
            none,none⟩ by decide]
      rintro ⟨⟩
      rfl
    exact absurd (hpen.symm.trans hfai) (by decide)
  exact ⟨(refunds_bounded hsta (.play Run.nil sampleActions hadm)).1,by decide⟩

end SellRight.RefundSafety
