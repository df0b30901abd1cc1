import SellRight.EditRefundDriving
import SellRight.RunHistory

/-!
# An edit pays its refund once

Repeated commits, retries and provider answers of one edit. The settlement of
the edit stays linked to the only refund of it that did not fail, as long as no
repeated commit takes the link away from a pending refund of a retry.
-/

namespace SellRight.EditRefundOnce

open EditActivation EditRefundDriving EditRefundLinks EditRefunds EditStageSteps EditStages List
open OrderLifecycle PaymentLedger RowTable RunHistory

variable {db next : EditStore} {r : Refund} {key editId name : String}

theorem findRefund_mem (hids : (db.refunds.map Refund.id).Nodup)
    (hr : r∈db.refunds) : findRefund db (some r.id)=some r := by
  have hsel := find_key_self Refund.id hids hr
  simpa [findRefund] using hsel

variable {settlement : SettlementOutcome}

theorem liveEditSettlement_status (hids : (db.refunds.map Refund.id).Nodup) (hr : r∈db.refunds)
    (htyp : settlement.type=.refundNow) (hlnk : settlement.refundId=some r.id) :
    (liveEditSettlement db settlement).status =
      if settlement.phase≠none∧settlement.status=.reconciliationRequired then
        .reconciliationRequired else refundStatus r.state := by
  have hop : ¬ (settlement.type≠.refundNow∨settlement.refundId=none) := by simp [htyp,hlnk]
  rw [liveEditSettlement,if_neg hop,hlnk,findRefund_mem hids hr,Option.map_some]
  simp only [applyLiveRefundState]
  by_cases hnot : settlement.phase≠none∧settlement.status=.reconciliationRequired
  · rw [if_pos hnot,if_pos hnot]
    exact hnot.2
  rw [if_neg hnot,if_neg hnot]
  by_cases heq : refundStatus r.state=settlement.status∧settlement.refundState=some r.state
  · rw [if_pos heq]
    exact heq.1.symm
  · rw [if_neg heq]

section Operations

variable {w : World} {row : EditRow}
variable {answer : ProviderAnswer}

section
variable (hlin : Linked editId name db) (hrow : findEdit db editId=some row)
include hlin hrow

theorem Linked.allFailed (htyp : row.settlement.type=.refundNow)
    (hsta : (liveEditSettlement db row.settlement).status=.failed) : AllFailed name db := by
  intro r hr hreq
  by_contra hlv
  have hlnk := (hlin.link row hrow).live r hr hreq hlv
  rw [liveEditSettlement_status hlin.refundIds hr htyp hlnk] at hsta
  split_ifs at hsta
  cases hst : r.state with
  | failed => exact hlv hst
  | pending | settled => rw [hst] at hsta; cases hsta

theorem Linked.allFailed_of_link (hlnk : ∀ r∈db.refunds, row.settlement.refundId=some r.id → r.state=.failed) :
    AllFailed name db := by
  intro r hr hreq
  by_contra hlv
  exact hlv (hlnk r hr ((hlin.link row hrow).live r hr hreq hlv))

end

/-- A step keeps the edit linked, and keeps a link to a live refund. -/
structure KeepsLinked (editId name : String) (db next : EditStore) : Prop where
  linked : Linked editId name next
  link : ∀ row, findEdit db editId=some row→∀ r∈db.refunds,
    row.settlement.refundId=some r.id → r.state≠.failed →
    ∃ row', findEdit next editId=some row'∧row'.settlement.refundId=some r.id

theorem Linked.keeps (hlin : Linked editId name db)
    (hfol : Follows db next) : KeepsLinked editId name db next := by
  refine ⟨hlin.follow hfol,fun row hrow r _ hlnk _ => ?_⟩
  obtain ⟨row',hrow',heq⟩ := hfol.findEdit_some hrow
  exact ⟨row',hrow',heq.link.trans hlnk⟩

variable {out : SettlementOutcome}

theorem driveRefund_keeps {declined action : String} {request : EditRefundRequest} (hlin : Linked editId name db) (hrow : findEdit db editId=some row)
    (hfre : Fresh db answer) (hnm : IsEditKey name ("refund:" ++ key))
    (hed : ∀ id, request.editId=some id→id=editId)
    (htyp : row.settlement.type=.refundNow) (hout : out.refundId=row.settlement.refundId)
    (hmay : MayAsk editId name key db request row.settlement.refundId) :
    KeepsLinked editId name db (driveRefund w db row key out request declined action answer) := by
  obtain ⟨hnx,row',hrow',hlnk⟩ :=
    driveRefund_linked hlin hrow hfre hnm hed htyp hout hmay
  refine ⟨hnx,fun stored hsto r hr hlinkr hali => ⟨row',hrow',?_⟩⟩
  cases hrow.symm.trans hsto
  exact hlnk r hr hlinkr hali

/-- Steps that keep the edit linked, the first one without touching refunds
that live. -/
theorem KeepsLinked.after {mid : EditStore} (hfol : Follows db mid)
    (hkee : KeepsLinked editId name mid next)
    (hlv : ∀ row, findEdit db editId=some row→∀ r∈db.refunds,
      row.settlement.refundId=some r.id → r.state≠.failed →
      ∃ r'∈mid.refunds, r'.id=r.id∧r'.state≠.failed) : KeepsLinked editId name db next := by
  refine ⟨hkee.linked,fun row hrow r hr hlnk hali => ?_⟩
  obtain ⟨row',hrow',heq⟩ := hfol.findEdit_some hrow
  obtain ⟨r',hr',hid,hali'⟩ := hlv row hrow r hr hlnk hali
  have hlnk' : row'.settlement.refundId=some r'.id := by rw [heq.link,hlnk,hid]
  rw [← hid]
  exact hkee.link row' hrow' r' hr' hlnk' hali'

theorem OwnEdit.isRetryKey (hown : OwnEdit name row) (attempt : ℕ) :
    IsEditKey name ("refund:" ++ retryKey row.idempotencyKey attempt) :=
  .inr ⟨attempt,by rw [hown.key]⟩

theorem OwnEdit.isCommitKey (hown : OwnEdit name row) :
    IsEditKey name ("refund:" ++ commitKey row.idempotencyKey) :=
  .inl (by rw [hown.key])

theorem refundRequest_editId (hid : row.id=editId) {payment : String} {amount : ℤ} {staged : Bool} :
    ∀ link, (refundRequest row payment amount staged).editId=some link→link=editId := by
  intro link hlnk
  cases staged with
  | true =>
    cases hlnk
    exact hid
  | false => cases hlnk

theorem askAgain_linked {declined action payment : String} {amount : ℤ} {staged : Bool} (hlin : Linked editId name db) (hrow : findEdit db editId=some row)
    (hfre : Fresh db answer) (hnm : IsEditKey name ("refund:" ++ key)) (hid : row.id=editId)
    (htyp : row.settlement.type=.refundNow) (hout : out.refundId=row.settlement.refundId)
    (hfai : AllFailed name db) :
    Linked editId name (driveRefund w db row key out (refundRequest row payment amount staged)
      declined action answer) :=
  (driveRefund_linked hlin hrow hfre hnm (refundRequest_editId hid) htyp hout (.failed hfai)).1

/-- Asking once more, or leaving the money as credit, keeps the edit linked. -/
theorem retryRefund_keeps (hlin : Linked editId name db) (hrow : findEdit db editId=some row)
    (hfre : Fresh db answer) (stage : Option Stage) (action : RetryAction)
    (paymentId : Option String) :
    KeepsLinked editId name db (retryRefund w db row stage action paymentId answer).2 := by
  have heq : KeepsLinked editId name db db := Linked.keeps hlin (Follows.refl db)
  obtain ⟨-,hid⟩ := findEdit_some hrow
  obtain ⟨own,hown,hfac⟩ := hlin.own
  cases hrow.symm.trans hown
  unfold retryRefund
  obtain ⟨hlive,-,hliv,-⟩ := liveEditSettlement_kept db row.settlement
  by_cases hclo : (liveEditSettlement db row.settlement).type≠.refundNow ∨
      (liveEditSettlement db row.settlement).status≠.failed
  · rw [if_pos hclo]
    exact heq
  rw [if_neg hclo]
  push Not at hclo
  have htyp : row.settlement.type=.refundNow := hlive ▸ hclo.1
  have hfai : AllFailed name db := Linked.allFailed hlin hrow htyp hclo.2
  have hdd : ∀ row', findEdit db editId=some row'→∀ r∈db.refunds,
      row'.settlement.refundId=some r.id → r.state=.failed := fun row' hrow' r hr hlnk =>
    hfai r hr (Linked.requested hlin hrow' hr hlnk)
  simp only
  split
  · exact heq
  · cases action with
    | credit =>
      refine ⟨?_,fun row' hrow' r hr hlnk hali => absurd (hdd row' hrow' r hr hlnk) hali⟩
      simp only [hid]
      refine (recordSettlement_linked "edit_refund_credit" hlin.toBase hrow (OwnEdit.merge hfac htyp _)
        (hfai.linkFor fun link hlnk => ?_)).1
      rw [(mergeSettlement_kept _ _).1] at hlnk
      split_ifs at hlnk
      exact (hlin.link row hrow).named link (by simpa using hlnk)
    | retry =>
      simp only
      split
      · exact heq
      refine ⟨?_,fun row' hrow' r hr hlnk hali => absurd (hdd row' hrow' r hr hlnk) hali⟩
      generalize (attemptsLike db _).length+1=attempt
      have hnm := OwnEdit.isRetryKey hfac attempt
      generalize retryKey row.idempotencyKey attempt=key at hnm ⊢
      generalize refundDue db stage=due
      generalize liveEditSettlement db row.settlement=live at hliv
      exact askAgain_linked hlin hrow hfre hnm hid htyp hliv hfai

/-- A linked refund belongs to no other edit, so an activation for it selects
the edit itself. -/
theorem Linked.selectEdit (hlin : Linked editId name db) (hrow : findEdit db editId=some row)
    (hr : r∈db.refunds) (hlnk : row.settlement.refundId=some r.id)
    (attemptId paymentId : Option String) :
    EditActivation.selectEdit db ⟨some r.id,attemptId,paymentId⟩=some row := by
  obtain ⟨hmem,hid⟩ := findEdit_some hrow
  refine find_unique hmem (by simp [hlnk]) fun selected hsele hsam => ?_
  by_cases hot : selected.id=editId
  · exact eq_of_key_eq EditRow.id hlin.editIds hsele hmem (hot.trans hid.symm)
  obtain ⟨r',hr',hid',hreq⟩ := hlin.others selected hsele hot r.id (by simpa using hsam)
  have heq := eq_of_key_eq Refund.id hlin.refundIds hr' hr hid'
  subst heq
  exact absurd (Linked.requested hlin hrow hr hlnk) hreq

theorem waits_refund (db : EditStore) (input : ActivationInput) {w : World} {stage : Stage}
    (hame : stage.row.settlementAmendment=none)
    (href : 0<stage.proposal.settlementRequirement.requiredRefund)
    (hfor : stage.proposal.settlementRequirement.wellFormed=true)
    {requirement : SettlementRequirement} {amendment : Option EditSettlementAmendment}
    (heff : effectiveEditSettlementRequirement w stage.proposal
      stage.row.settlementAmendment=.ok (requirement,amendment)) :
    requirement=stage.proposal.settlementRequirement ∧
      ((linkedMoney db input stage.row.settlement).waits requirement=true →
        (linkedMoney db input stage.row.settlement).refund.map Refund.state≠some .settled) := by
  rw [hame] at heff
  obtain ⟨rfl,rfl⟩ := effectiveEditSettlementRequirement_none heff
  refine ⟨rfl,fun hwt => ?_⟩
  have hten : ¬ 0<stage.proposal.settlementRequirement.requiredTender := by
    unfold SettlementRequirement.wellFormed at hfor
    intro hten
    simp [hten,href] at hfor
  unfold Money.waits at hwt
  simpa [hten,href] using hwt

/-- After a repeated commit brought the edit up to date: tables moved, and the
settlement it continues with is the one of the edit. -/
theorem resumeEdit_follows (w : World) (hlin : Linked editId name db)
    (hrow : findEdit db editId=some row) :
    Follows db (resumeEdit w db row).1∧∃ row', findEdit (resumeEdit w db row).1 editId=some row' ∧
      SameEdit row row'∧(resumeEdit w db row).2.refundId=row'.settlement.refundId ∧
      (resumeEdit w db row).2.type=row.settlement.type ∧
      (row.settlement.phase≠none→(resumeEdit w db row).2.phase≠none) := by
  obtain ⟨htyp,hph,hlnk,-⟩ := liveEditSettlement_kept db row.settlement
  have hid := (findEdit_some hrow).2
  unfold resumeEdit
  simp only
  split
  · have hfol := activation_follows hlin.editIds (activatePreparedOrderEdit_activation w db
      ⟨(liveEditSettlement db row.settlement).refundId,
        (liveEditSettlement db row.settlement).paymentAttemptId,none⟩)
    obtain ⟨row',hrow',heq⟩ := hfol.findEdit_some hrow
    refine ⟨hfol,row',hrow',heq,?_⟩
    rw [hid,hrow',Option.map_some,Option.getD_some]
    exact ⟨rfl,heq.type,heq.staged⟩
  · exact ⟨.refl db,row,hrow,.refl row,hlnk,htyp,fun h => hph ▸ h⟩

theorem settleOrderState_edits (store : EditStore) : (settleOrderState store).edits=store.edits := by
  unfold settleOrderState
  split <;> rfl

theorem refundOpen_closed
    (hclo : settlement.status=.settled∨settlement.status=.reconciliationRequired) :
    refundOpen row settlement=false := by
  unfold refundOpen
  rcases hclo with h|h <;> simp [h]

section
variable (hlin : Linked editId name db) (hrow : findEdit db editId=some row)
  (htyp : row.settlement.type=.refundNow)
include hlin hrow htyp

/-- What a stage of the edit promises. -/
theorem own_stage {stage : Stage} (hstage : preparedStage w db (some row.id)=.ok (some stage)) :
    stage.row=row∧stage.row.settlementAmendment=none ∧
      0<stage.proposal.settlementRequirement.requiredRefund ∧
        stage.proposal.settlementRequirement.wellFormed=true := by
  obtain ⟨own,hown,hfac⟩ := hlin.own
  cases hrow.symm.trans hown
  have hsta := preparedStage_selected hlin.editIds (findEdit_some hrow).1 hstage
  obtain ⟨-,hsto,hfor,-⟩ := preparedStage_eq_some hstage
  refine ⟨hsta,?_,(hfac.proposal _ (hsta ▸ hsto)).1,hfor⟩
  by_contra hamen
  exact (hfac.amendment (hsta ▸ hamen)).2 htyp

variable (hr : r∈db.refunds) (hlnk : row.settlement.refundId=some r.id)
  (hclo : r.state=.settled∨r.state=.pending ∧
    refundOpen row (liveEditSettlement db row.settlement)=false)
include hr hlnk hclo

omit hrow in
theorem live_closed : refundOpen row (liveEditSettlement db row.settlement)=false := by
  rcases hclo with hset|⟨-,hop⟩
  · refine refundOpen_closed ?_
    rw [liveEditSettlement_status hlin.refundIds hr htyp hlnk]
    by_cases hnot : row.settlement.phase≠none∧row.settlement.status=.reconciliationRequired
    · exact .inr (if_pos hnot)
    · rw [if_neg hnot,hset]
      exact .inl rfl
  · exact hop

/-- A closed edit whose refund is pending notes a reconciliation. -/
theorem noted (hpen : r.state=.pending) :
    row.settlement.phase≠none∧row.settlement.status=.reconciliationRequired := by
  obtain ⟨own,hown,hfac⟩ := hlin.own
  cases hrow.symm.trans hown
  have hstat := liveEditSettlement_status hlin.refundIds hr htyp hlnk
  have hlivetype := (liveEditSettlement_kept db row.settlement).1
  rcases hclo with hset|⟨-,hop⟩
  · rw [hset] at hpen
    cases hpen
  by_contra hnot
  rw [if_neg hnot,hpen] at hstat
  have hbal := hfac.balance
  simp [refundOpen,hlivetype,htyp,hstat,refundStatus,hbal] at hop

/-- A stage waits for the linked refund only when that is pending. -/
theorem waits_closed {stage : Stage} {paid : Option String}
    (hstage : preparedStage w db (some row.id)=.ok (some stage))
    (hwai : activateWaiting w db ⟨some r.id,paid,none⟩ stage=.ok none) :
    refundOpen row row.settlement=false := by
  obtain ⟨hsta,hame,hreq,hfor⟩ := own_stage hlin hrow htyp hstage
  obtain ⟨requirement,amendment,heff,⟨-,hwt⟩|⟨published,hso,-⟩⟩ := activateWaiting_eq_ok hwai
  · have huns := (waits_refund db ⟨some r.id,paid,none⟩ hame hreq hfor heff).2 hwt
    have hfd : (linkedMoney db ⟨some r.id,paid,none⟩ row.settlement).refund=some r := by
      simp only [linkedMoney,hlnk,Option.bind_some]
      exact findRefund_mem hlin.refundIds hr
    rw [hsta,hfd,Option.map_some] at huns
    rcases hclo with hset|⟨hpen,hop⟩
    · exact absurd (congrArg some hset) huns
    · exact refundOpen_closed (.inr (noted hlin hrow htyp hr hlnk (.inr ⟨hpen,hop⟩) hpen).2)
  · cases hso

end

/-- A repeated commit asks for no refund when the linked refund is settled, or
when the settlement asked for none before. -/
theorem resumeEdit_closed (hlin : Linked editId name db)
    (hrow : findEdit db editId=some row) (hquar : db.order.reconciliationRequired=false)
    (hr : r∈db.refunds) (hlnk : row.settlement.refundId=some r.id)
    (hclo : r.state=.settled∨r.state=.pending ∧
      refundOpen row (liveEditSettlement db row.settlement)=false) :
    refundOpen row (resumeEdit w db row).2=false := by
  have hid := (findEdit_some hrow).2
  obtain ⟨-,row',-,-,-,hresu,-⟩ := resumeEdit_follows w hlin hrow
  by_cases htyp : row.settlement.type=.refundNow
  swap
  · unfold refundOpen
    simp [hresu,htyp]
  obtain ⟨-,hlive,hliv,-⟩ := liveEditSettlement_kept db row.settlement
  unfold resumeEdit
  simp only
  split
  swap
  · exact live_closed hlin htyp hr hlnk hclo
  · next hpend =>
    have hsele := Linked.selectEdit hlin hrow hr hlnk
    have hacti := activatePreparedOrderEdit_activation w db
      ⟨(liveEditSettlement db row.settlement).refundId,
        (liveEditSettlement db row.settlement).paymentAttemptId,none⟩
    rw [hliv,hlnk] at hacti ⊢
    generalize (liveEditSettlement db row.settlement).paymentAttemptId=paid at hacti ⊢
    generalize (activatePreparedOrderEdit w db ⟨some r.id,paid,none⟩).2=next at hacti ⊢
    cases hacti with
    | idle hidl =>
      rcases hidl with hqua|hno|⟨selected,stage,hsel,hstage,hwhy⟩
      · rw [hquar] at hqua
        cases hqua
      · rw [hsele] at hno
        cases hno
      · cases (hsele _ _).symm.trans hsel
        rw [hid,hrow,Option.map_some,Option.getD_some]
        rcases hwhy with hact|hwai
        · rw [(own_stage hlin hrow htyp hstage).1] at hact
          simp [SettlementOutcome.isPendingEditStage,hlive,hact] at hpend
        · exact waits_closed hlin hrow htyp hr hlnk hclo hstage hwai
    | @published _ stage requirement amendment _ hsel hstage hnota hadm hpub =>
      cases (hsele _ _).symm.trans hsel
      obtain ⟨hsta,hame,hreq,hfor⟩ := own_stage hlin hrow htyp hstage
      obtain ⟨rows,pricing,lines,rfl⟩ := publishProposal_eq_ok hpub
      obtain ⟨rfl,-⟩ := waits_refund db ⟨some r.id,paid,none⟩ hame hreq hfor hadm.effective
      have haft := findEdit_updated
        {settleOrderState (publishedStore w db stage stage.proposal.settlementRequirement amendment
            rows pricing lines) with audit := db.audit++[⟨"edit",stage.row.id⟩]}
        (f := fun old : EditRow =>
          {old with
            settlement := activatedSettlement stage.proposal stage.proposal.settlementRequirement
              amendment stage.row.settlement
            activatedPricingSnapshot := some pricing}) (fun _ => rfl)
        ((settleOrderState_edits _).trans (by rw [publishedStore,hsta,hid])) hrow
      rw [hid,haft,Option.map_some,Option.getD_some]
      refine refundOpen_closed (.inl ?_)
      simp [activatedSettlement,hreq.ne']
    | noted hsel =>
      cases (hsele _ _).symm.trans hsel
      have haft := findEdit_updated (noteFailedActivation db row) (f := fun old : EditRow =>
          {old with
            settlement :=
              {row.settlement with
                status := .reconciliationRequired
                message := some "Settled payment requires edit activation reconciliation."}})
        (fun _ => rfl) (by rw [noteFailedActivation,setSettlement,hid]) hrow
      rw [hid,haft,Option.map_some,Option.getD_some]
      exact refundOpen_closed (.inr rfl)

/-- Without a live refund before, there is none after tables moved. -/
theorem AllFailed.follow (hfai : AllFailed name db)
    (hfol : Follows db next) : AllFailed name next := by
  intro r' hr' hreq
  obtain ⟨r,hr,heq⟩ := forall₂_partner hfol.refunds hr'
  exact heq.failed (hfai r hr ((hfol.requested heq).mp hreq))

section
variable (hlin : Linked editId name db) (hrow : findEdit db editId=some row)
include hlin hrow

theorem refundsResolved_allFailed (hres : refundsResolved db row=true) :
    AllFailed name db := by
  refine Linked.allFailed_of_link hlin hrow fun r hr hlnk => ?_
  unfold refundsResolved at hres
  simp only [hlnk,Bool.and_eq_true,any_eq_true,decide_eq_true_eq] at hres
  obtain ⟨-,r',hr',hid,hfai⟩ := hres
  have heq : r'=r :=
    eq_of_key_eq Refund.id hlin.refundIds (mem_of_mem_filter hr') hr hid
  exact heq ▸ hfai

theorem creditStage_keeps {stage : Stage} (hsta : stage.row=row) :
    KeepsLinked editId name db (creditStage w db stage).2 := by
  obtain ⟨-,hid⟩ := findEdit_some hrow
  obtain ⟨own,hown,hfac⟩ := hlin.own
  cases hrow.symm.trans hown
  unfold creditStage
  cases hres : refundsResolved db stage.row with
  | false => exact Linked.keeps hlin (Follows.refl db)
  | true =>
    have hfai : AllFailed name db := refundsResolved_allFailed hlin hrow (hsta ▸ hres)
    simp only [if_true,hsta,hid]
    generalize buildEditSettlementAmendment w stage.proposal _ _=amendment
    obtain ⟨hbas,hfd⟩ := Base.rewrite hlin.toBase hrow (f := fun old : EditRow =>
        {old with
          settlementAmendment := some amendment
          settlement :=
            {row.settlement with
              amendmentDigest := some amendment.digest
              type := .leaveCredit
              phase := some .ready
              status := .credit}}) (fun _ => rfl)
      ⟨hfac.key,hfac.balance,fun _ => ⟨by simp,by simp⟩,
        fun proposal hso => ⟨(hfac.proposal proposal hso).1,by simp⟩⟩
    have hame : Linked editId name _ := ⟨hbas,fun row' hrow' => by
      cases hrow'.symm.trans hfd
      exact ⟨(hlin.link row hrow).named,(hlin.link row hrow).live⟩⟩
    refine ⟨hame.follow (activation_follows hbas.editIds
      (activatePreparedOrderEdit_activation w _ _)),fun row' hrow' r hr hlnk hali => ?_⟩
    exact absurd (hfai r hr (Linked.requested hlin hrow' hr hlnk)) hali

end

theorem retryOrderEditRefund_keeps (hlin : Linked editId name db) (hfre : Fresh db answer)
    (action : RetryAction) (paymentId : Option String) :
    KeepsLinked editId name db (retryOrderEditRefund w db editId action paymentId answer).2 := by
  have heq : KeepsLinked editId name db db := Linked.keeps hlin (Follows.refl db)
  obtain ⟨row,hrow,-⟩ := hlin.own
  obtain ⟨hmem,hid⟩ := findEdit_some hrow
  unfold retryOrderEditRefund
  cases hqua : db.order.reconciliationRequired with
  | true => exact heq
  | false =>
    simp only [Bool.false_eq_true,if_false,hrow]
    cases hrd : preparedStage w db (some editId) with
    | error => exact heq
    | ok found =>
      cases found with
      | none => exact retryRefund_keeps hlin hrow hfre none action paymentId
      | some stage =>
        have hsta : stage.row=row := preparedStage_selected hlin.editIds hmem (hid ▸ hrd)
        simp only
        split
        · exact heq
        cases hset : linkedSettled db stage with
        | some refund => exact Linked.keeps hlin (activateRefund_follows w hlin.editIds refund)
        | none =>
          simp only
          split
          · exact creditStage_keeps hlin hrow hsta
          split
          · exact heq
          · exact retryRefund_keeps hlin hrow hfre (some stage) action paymentId

theorem activation_refunds {input : ActivationInput}
    (hact : Activation w db input next) : next.refunds=db.refunds := by
  cases hact with
  | idle | noted => rfl
  | published _ _ _ _ hpub =>
    obtain ⟨rows,pricing,lines,rfl⟩ := publishProposal_eq_ok hpub
    unfold settleOrderState
    split <;> rfl

/-- A key that was not used is not used after tables moved. -/
theorem Follows.priorAttempt_none (hfol : Follows db next)
    (hpri : priorAttempt db key=none) : priorAttempt next key=none := by
  refine List.find?_eq_none.mpr fun a' ha' => ?_
  obtain ⟨a,ha,hpai⟩ := forall₂_partner hfol.attempts ha'
  rw [hpai.key]
  exact List.find?_eq_none.mp hpri a ha

theorem driveRefund_edit {edit other : EditRow} (hid : edit.id=other.id) (w : World)
    (db : EditStore) (key : String) (out : SettlementOutcome) (request : EditRefundRequest)
    (declined action : String) (answer : ProviderAnswer) :
    driveRefund w db edit key out request declined action answer =
      driveRefund w db other key out request declined action answer := by
  rw [driveRefund,driveRefund,hid]

/-- Bringing an edit up to date touches no refund. -/
theorem resumeEdit_refunds (w : World) (db : EditStore) (edit : EditRow) :
    (resumeEdit w db edit).1.refunds=db.refunds := by
  unfold resumeEdit
  simp only
  split
  · exact activation_refunds (activatePreparedOrderEdit_activation w db _)
  · rfl

/-- A repeated commit leaves the link of the edit alone: it is refused, or while the
edit is linked to a pending refund its settlement is open only when that refund is the
one of the commit, or when the edit is staged and the commit has none. -/
def Undisturbed (editId : String) (db : EditStore) : Prop :=
  db.order.reconciliationRequired=false→∀ row∈findEdit db editId, ∀ r∈db.refunds,
    row.settlement.refundId=some r.id → r.state=.pending →
    refundOpen row (liveEditSettlement db row.settlement)=true →
    keyRefund db (commitKey row.idempotencyKey)=some r ∨
      (row.proposal≠none∧priorAttempt db (commitKey row.idempotencyKey)=none)

/-- After it was brought up to date, an undisturbed edit may ask for its refund
under the key of its commit. -/
theorem Undisturbed.mayAsk (hund : Undisturbed editId db) (hlin : Linked editId name db)
    (hrow : findEdit db editId=some row) (hqua : db.order.reconciliationRequired=false)
    (hop : refundOpen row (resumeEdit w db row).2=true) (payment : String) (amount : ℤ) :
    MayAsk editId name (commitKey row.idempotencyKey) (resumeEdit w db row).1
      (refundRequest row payment amount ((resumeEdit w db row).2.phase≠none))
      row.settlement.refundId := by
  obtain ⟨hfol,row',hrow',heq,-,-,hsta⟩ := resumeEdit_follows w hlin hrow
  obtain ⟨own,hown,hfac⟩ := hlin.own
  cases hrow.symm.trans hown
  have hid := (findEdit_some hrow).2
  cases hlnk : row.settlement.refundId with
  | none =>
    have hfai : AllFailed name db := Linked.allFailed_of_link hlin hrow fun r _ hso => by
      rw [hlnk] at hso
      cases hso
    exact MayAsk.failed (AllFailed.follow hfai hfol)
  | some linkId =>
    obtain ⟨r,hr,rfl,hreq⟩ := (hlin.link row hrow).named linkId hlnk
    cases hst : r.state with
    | failed =>
      have hfai : AllFailed name db := Linked.allFailed_of_link hlin hrow fun r' hr' hso => by
        rw [hlnk] at hso
        rw [eq_of_key_eq Refund.id hlin.refundIds hr' hr (Option.some.inj hso).symm]
        exact hst
      exact MayAsk.failed (AllFailed.follow hfai hfol)
    | settled =>
      have hclo : refundOpen row (resumeEdit w db row).2=false :=
        resumeEdit_closed hlin hrow hqua hr hlnk (.inl hst)
      rw [hclo] at hop
      cases hop
    | pending =>
      cases hlv : refundOpen row (liveEditSettlement db row.settlement) with
      | false =>
        have hclo : refundOpen row (resumeEdit w db row).2=false :=
          resumeEdit_closed hlin hrow hqua hr hlnk (.inr ⟨hst,hlv⟩)
        rw [hclo] at hop
        cases hop
      | true =>
        rcases hund hqua row hrow r hr hlnk hst hlv with hkey|⟨hpro,hpri⟩
        · obtain ⟨r',hkey',hrid⟩ := Base.keyRefund_follow hlin.toBase hfol hkey
          exact MayAsk.linked hkey' (by rw [hrid])
        obtain ⟨proposal,hso⟩ := Option.ne_none_iff_exists'.mp hpro
        have hph := hsta (hfac.proposal proposal hso).2
        refine MayAsk.guarded (Follows.priorAttempt_none hfol hpri) ?_
          (show r∈_ from resumeEdit_refunds w db row ▸ hr) rfl (by rw [hst]; decide)
        simp [refundRequest,hph,hid]

theorem commitOrderEdit_keeps (hlin : Linked editId name db) (hfre : Fresh db answer)
    (hund : Undisturbed editId db) :
    KeepsLinked editId name db (commitOrderEdit w db editId answer).2 := by
  obtain ⟨row,hrow,hfac⟩ := hlin.own
  have hid := (findEdit_some hrow).2
  unfold commitOrderEdit
  simp only [hrow]
  cases hqua : db.order.reconciliationRequired with
  | true => exact Linked.keeps hlin (Follows.refl db)
  | false =>
    obtain ⟨hfol,row',hrow',heq,hlnk,htyp,-⟩ := resumeEdit_follows w hlin hrow
    have hres : KeepsLinked editId name db (resumeEdit w db row).1 :=
      Linked.keeps hlin hfol
    cases hop : refundOpen row (resumeEdit w db row).2 with
    | false =>
      exact hres
    | true =>
      cases hpay : (resumeEdit w db row).2.paymentId.bind fun id =>
          findPayment (resumeEdit w db row).1 id with
      | none => exact hres
      | some payment =>
        have hmay := Undisturbed.mayAsk hund hlin hrow hqua hop payment.id (-row.balance)
        have href := resumeEdit_refunds w db row
        have hresu : (resumeEdit w db row).2.type=.refundNow := by
          unfold refundOpen at hop
          simp only [Bool.and_eq_true,decide_eq_true_eq] at hop
          exact hop.1.1.1
        simp only
        rw [driveRefund_edit heq.id.symm]
        generalize resumeEdit w db row=resumed at *
        have hnm := OwnEdit.isCommitKey hfac
        generalize commitKey row.idempotencyKey=key at *
        refine KeepsLinked.after hfol (driveRefund_keeps (hlin.follow hfol) hrow'
          (.follow hfre hfol) hnm (refundRequest_editId hid)
          (heq.type.trans (htyp.symm.trans hresu)) hlnk (heq.link.symm ▸ hmay)) ?_
        exact fun _ _ r hr _ hali => ⟨r,href ▸ hr,rfl,hali⟩

end Operations

/-- What may happen to an edit after it was committed. -/
inductive Action where
  /-- The commit is repeated with the same key and request. -/
  | commit (answer : ProviderAnswer)
  | retry (action : RetryAction) (paymentId : Option String) (answer : ProviderAnswer)
  | outcome (attemptId : String) (state : RefundState) (providerRef : Option String)

/-- Execute one action on an edit. A refused one leaves the tables alone. -/
def step (w : World) (editId : String) (db : EditStore) : Action → Reply×EditStore
  | .commit answer => commitOrderEdit w db editId answer
  | .retry action paymentId answer => retryOrderEditRefund w db editId action paymentId answer
  | .outcome attemptId state providerRef =>
    match finalizeRefund w db attemptId state providerRef with
    | .error _ => (.ok (),db)
    | .ok next => (.ok (),next)

/-- Drawn identifiers are new, and a provider answers about a pending refund. -/
def Admissible (_ : List (Event EditStore Action Reply)) (db : EditStore) : Action → Prop
  | .commit answer => Fresh db answer
  | .retry _ _ answer => Fresh db answer
  | .outcome attemptId _ _ => ∀ r, refundOf db attemptId=some r → r.state=.pending

/-- Tables right after an edit that owes its refund was stored. -/
structure Opening (editId name : String) (db : EditStore) : Prop extends Keyed db where
  /-- The edit was committed to refund now and has no refund. -/
  own : ∃ row, findEdit db editId=some row∧row.idempotencyKey=name∧row.balance<0 ∧
    row.settlement.type=.refundNow∧row.settlement.refundId=none ∧
    row.settlementAmendment=none ∧
    ∀ proposal, row.proposal=some proposal →
      0<proposal.settlementRequirement.requiredRefund∧row.settlement.phase=some .awaitingRefund
  /-- Nothing was requested under the keys of the edit. -/
  unused : ∀ r∈db.refunds, ¬ RequestedFor name db r
  others : ∀ row∈db.edits, row.id≠editId→∀ id, row.settlement.refundId=some id →
    ∃ r∈db.refunds, r.id=id

theorem Opening.linked (hop : Opening editId name db) :
    Linked editId name db := by
  obtain ⟨row,hrow,hkey,hbal,-,hlnk,hamen,hpro⟩ := hop.own
  have hown : OwnEdit name row := by
    refine ⟨hkey,hbal,absurd hamen,fun proposal hso => ?_⟩
    obtain ⟨href,hph⟩ := hpro proposal hso
    exact ⟨href,by rw [hph]; decide⟩
  refine ⟨⟨hop.toKeyed,⟨row,hrow,hown⟩,fun other hot hid link hlin => ?_⟩,
    fun stored hsto => ?_⟩
  · obtain ⟨r,hr,hrid⟩ := hop.others other hot hid link hlin
    exact ⟨r,hr,hrid,hop.unused r hr⟩
  · cases hrow.symm.trans hsto
    refine ⟨fun id hid => ?_,fun r hr hreq => absurd hreq (hop.unused r hr)⟩
    rw [hlnk] at hid
    cases hid

/-- Repeated commits of a run leave the link of the edit alone. -/
def UndisturbedRun (editId : String) (h : List (Event EditStore Action Reply)) : Prop :=
  ∀ e∈h, ∀ answer, e.action=.commit answer → Undisturbed editId e.before

variable {h : List (Event EditStore Action Reply)}

theorem step_keeps {w : World}
    {action : Action} (hlin : Linked editId name db) (hall : Admissible h db action)
    (hund : ∀ answer, action=.commit answer → Undisturbed editId db) :
    KeepsLinked editId name db (step w editId db action).2 := by
  cases action with
  | commit answer => exact commitOrderEdit_keeps hlin hall (hund answer rfl)
  | retry action paymentId => exact retryOrderEditRefund_keeps hlin hall action paymentId
  | outcome attemptId state providerRef =>
    cases hfin : finalizeRefund w db attemptId state providerRef with
    | error =>
      simp only [step,hfin]
      exact Linked.keeps hlin (Follows.refl db)
    | ok =>
      simp only [step,hfin]
      refine Linked.keeps hlin (finalizeRefund_follows hlin.refundIds hlin.editIds ?_ hfin)
      intro r hr hfai
      rw [hall r hr] at hfai
      cases hfai

/-- Along an undisturbed run the edit stays linked and no step takes the link
away from a refund that did not fail. -/
theorem run_keeps {w : World} {start : EditStore} (hop : Opening editId name start)
    (hrun : Run (step w editId) Admissible start h db) (hund : UndisturbedRun editId h) :
    Linked editId name db∧∀ e∈h, KeepsLinked editId name e.before e.after := by
  have hall : UndisturbedRun editId h →
      Linked editId name db∧∀ e∈h, KeepsLinked editId name e.before e.after := by
    refine Run.invariant (P := fun h db => UndisturbedRun editId h →
      Linked editId name db∧∀ e∈h, KeepsLinked editId name e.before e.after) hrun
      (fun _ => ⟨hop.linked,by simp⟩) ?_
    intro h db action ih hallow hcal
    obtain ⟨hlin,hpa⟩ := ih fun e he => hcal e (mem_append_left _ he)
    have hkee : KeepsLinked editId name db (step w editId db action).2 :=
      step_keeps hlin hallow (hcal _ (mem_concat_self))
    refine ⟨hkee.linked,fun e he => ?_⟩
    rcases mem_concat_iff.mp he with hold|rfl
    · exact hpa e hold
    · exact hkee
  exact hall hund

/-- An edit pays its refund at most once, and its settlement is never moved
away from a refund that did not fail, in every run whose repeated commits leave
the link of a pending retry alone. -/
theorem edit_refund_once {w : World} {editId name : String} {start db : EditStore}
    {h : List (Event EditStore Action Reply)} (hopen : Opening editId name start)
    (hrun : Run (step w editId) Admissible start h db) (hundisturbed : UndisturbedRun editId h) :
    (∀ r∈db.refunds, ∀ r'∈db.refunds, RequestedFor name db r → RequestedFor name db r' →
      r.state≠.failed → r'.state≠.failed → r=r') ∧
    ∀ e∈h, ∀ row, findEdit e.before editId=some row→∀ r∈e.before.refunds,
      row.settlement.refundId=some r.id → r.state≠.failed →
      ∃ row', findEdit e.after editId=some row'∧row'.settlement.refundId=some r.id := by
  obtain ⟨hlin,hpa⟩ := run_keeps hopen hrun hundisturbed
  refine ⟨fun r hr r' hr' hreq hreq' hali hali' => ?_,fun e he => (hpa e he).link⟩
  obtain ⟨row,hrow,-⟩ := hlin.own
  have hlnk := (hlin.link row hrow).live r hr hreq hali
  have hlnk' := (hlin.link row hrow).live r' hr' hreq' hali'
  exact eq_of_key_eq Refund.id hlin.refundIds hr hr' (Option.some.inj (hlnk.symm.trans hlnk'))

instance (db : EditStore) (answer : ProviderAnswer) : Decidable (Fresh db answer) :=
  decidable_of_iff ((∀ a∈db.attempts, a.id≠answer.attemptId)∧∀ r∈db.refunds, r.id≠answer.refundId)
    ⟨fun ⟨ha,hr⟩ => ⟨ha,hr⟩,fun h => ⟨h.attempt,h.refund⟩⟩

instance (editId : String) (db : EditStore) : Decidable (Undisturbed editId db) := by
  unfold Undisturbed
  infer_instance

instance (editId : String) (h : List (Event EditStore Action Reply)) :
    Decidable (UndisturbedRun editId h) :=
  decidable_of_iff (∀ e∈h, (match e.action with
      | .commit _ => true
      | _ => false)=true → Undisturbed editId e.before) (by
    refine forall₂_congr fun e _ => ⟨fun hcalm answer haction => hcalm (by rw [haction]),?_⟩
    intro hcalm hcommit
    cases haction : e.action with
    | commit answer => exact hcalm answer haction
    | retry => simp [haction] at hcommit
    | outcome => simp [haction] at hcommit)

instance (h : List (Event EditStore Action Reply)) (db : EditStore) (action : Action) :
    Decidable (Admissible h db action) :=
  match action with
  | .commit answer => inferInstanceAs (Decidable (Fresh db answer))
  | .retry _ _ answer => inferInstanceAs (Decidable (Fresh db answer))
  | .outcome attemptId _ _ =>
    decidable_of_iff ((refundOf db attemptId).all (fun r => decide (r.state=.pending))=true) (by
      rw [Option.all_eq_true]
      simp only [decide_eq_true_eq]
      rfl)

/-- Digests by the parts a sample run tells apart. -/
def sampleDigest : Digested → String
  | .refundRequest request => "refund " ++ request.paymentId ++ " " ++ toString request.amount
  | .proposal payload => "proposal " ++ payload.editId
  | .amendment payload => "amendment " ++ payload.id
  | .amendmentIdentity editId _ _ => "amendment of " ++ editId
  | .requirement requirement => "requirement " ++ toString requirement.requiredRefund
  | .stored facts => "stored " ++ facts.order.id
  | .ledger rows => "ledger " ++ toString rows.length
  | .economics economics => "economics " ++ toString economics.totals.grandTotal
  | .funding postings => "funding " ++ toString postings.length

/-- Surroundings of a sample run. -/
def sampleWorld : World where
  fingerprint := sampleDigest
  readsEvidence _ := true
  postEditCreditFunding _ _ := none
  buildCurrentCreditPricingSnapshot _ _ := none
  provesReplay _ _ := true
  settlesElsewhere _ _ := true
  refusesRefund _ _ := none
  usageId _ promotionId := "usage " ++ promotionId
  adjustmentId _ label := "adjustment " ++ label

/-- Paid order of a sample run. -/
def sampleOrder : OrderRow where
  id := "order"
  state := .paid
  receiptToken := none
  reconciliationRequired := false
  currency := "EUR"
  customerId := some "customer"
  totals := ⟨10000,0,0,0,10000⟩
  couponCodes := []
  pricingSnapshot := none
  isPreOrder := false
  promotionId := none
  shippingOverride := false
  shippingMethodCode := none
  shippingAddress := none
  billingAddress := none

/-- Proposal of a sample run: a thousand cents go back. -/
def sampleProposal : EditStageProposal where
  editId := "edit"
  orderId := "order"
  requestFingerprint := "request"
  beforeFingerprint := "stored order"
  beforeLedgerPrefixDigest := "ledger 0"
  pricingSnapshot := ⟨⟨[],⟨9000,0,0,0,9000⟩, ""⟩, "quote",[]⟩
  lineIds := []
  couponCodes := []
  appliedPromotionIds := []
  fundingPlan := []
  requestDigest := "funding request"
  postingKeys := []
  settlementRequirement := ⟨.refundNow, "EUR",0,1000⟩
  activation :=
    { beforeOrder := sampleOrder
      lines := []
      perLine := []
      adjustments := []
      isPreOrder := false
      newPromoId := none
      shippingOverride := false
      shippingMethodCode := none
      shippingAddress := none
      billingAddress := none}
  proposalDigest := "proposal edit"

/-- Edit of a sample run, waiting for its refund. -/
def sampleEdit : EditRow where
  id := "edit"
  orderId := "order"
  idempotencyKey := "key"
  fingerprint := "request"
  balance := -1000
  reason := none
  removedUnits := []
  proposal := some sampleProposal
  settlementAmendment := none
  activatedPricingSnapshot := none
  settlement :=
    { type := .refundNow
      status := .pending
      amount := some 1000
      paymentId := some "payment"
      refundId := none
      refundState := none
      message := none
      phase := some .awaitingRefund
      paymentAttemptId := none
      amendmentDigest := none
      activationReceipt := none}

def samplePayment : Payment where
  id := "payment"
  orderId := "order"
  amount := 10000
  method := "manual"
  providerRef := none
  state := .settled
  gatewayAccount := none
  gatewayMode := none
  currency := some "EUR"
  duplicate := false
  errorMessage := none
  createdAt := 0

/-- Tables right after the sample edit was stored. -/
def sampleStore : EditStore where
  order := sampleOrder
  lines := []
  adjustments := []
  usage := []
  usedCounts := []
  ledger := []
  payments := [samplePayment]
  attempts := []
  refunds := []
  refundLines := []
  edits := [sampleEdit]
  audit := []

theorem sampleStore_opening : Opening "edit" "key" sampleStore := by
  refine ⟨⟨by decide,by decide,by decide,by decide,by decide,by decide⟩,
    ⟨sampleEdit,by decide,rfl,by decide,rfl,rfl,rfl,fun proposal hso => ?_⟩,
    fun r hr => absurd hr not_mem_nil,by decide⟩
  cases hso
  exact ⟨by decide,rfl⟩

/-- Provider answer that leaves the refund pending. -/
def pendingAnswer (attemptId refundId : String) : ProviderAnswer :=
  ⟨attemptId,refundId,.pending,none,true⟩

/-- A commit is repeated while its refund is pending; the refund fails and a
retry settles. -/
def retriedActions : List Action :=
  [.commit (pendingAnswer "attempt" "refund"),
    .commit (pendingAnswer "unused attempt" "unused refund"),.outcome "attempt" .failed none,
    .retry .retry none (pendingAnswer "second attempt" "second refund"),
    .outcome "second attempt" .settled (some "reference")]

/-- A commit is repeated while the refund of the retry is pending. -/
def repeatedActions : List Action :=
  [.commit (pendingAnswer "attempt" "refund"),.outcome "attempt" .failed none,
    .retry .retry none (pendingAnswer "second attempt" "second refund"),
    .commit (pendingAnswer "unused attempt" "unused refund"),
    .retry .retry none (pendingAnswer "third attempt" "third refund")]

/-- The retried edit has paid one refund. -/
theorem edit_refund_once_retried :
    (play (step sampleWorld "edit") [] sampleStore retriedActions).2.refunds.length=2 ∧
    ∀ e∈(play (step sampleWorld "edit") [] sampleStore retriedActions).1,
      ∀ row, findEdit e.before "edit" = some row→∀ r∈e.before.refunds,
      row.settlement.refundId=some r.id → r.state≠.failed →
      ∃ row', findEdit e.after "edit" = some row'∧row'.settlement.refundId=some r.id :=
  ⟨by decide,(edit_refund_once sampleStore_opening (.play .nil retriedActions (by decide))
    (by decide)).2⟩

/-- A commit that is repeated while the refund of a retry is pending moves the
settlement back to the failed refund, and the next retry pays a second time. -/
theorem edit_refund_twice_repeated :
    Opening "edit" "key" sampleStore ∧
    ∃ h db, Run (step sampleWorld "edit") Admissible sampleStore h db ∧
      (∃ r∈db.refunds, ∃ r'∈db.refunds, RequestedFor "key" db r∧RequestedFor "key" db r' ∧
        r.state≠.failed∧r'.state≠.failed∧r≠r') ∧
      ∃ e∈h, ∃ row, findEdit e.before "edit" = some row∧row.proposal≠none ∧
        ∃ r∈e.before.refunds, row.settlement.refundId=some r.id∧r.state≠.failed ∧
        ∃ row', findEdit e.after "edit" = some row'∧row'.settlement.refundId≠some r.id := by
  have hrun : Run (step sampleWorld "edit") Admissible sampleStore
      (play (step sampleWorld "edit") [] sampleStore repeatedActions).1
      (play (step sampleWorld "edit") [] sampleStore repeatedActions).2 :=
    Run.play Run.nil repeatedActions (by decide)
  have hnm : ∀ attempt, IsEditKey "key" ("refund:" ++ retryKey "key" attempt) :=
    fun attempt => .inr ⟨attempt,rfl⟩
  refine ⟨sampleStore_opening,_,_,hrun,?_,?_⟩
  · have href : ∃ r∈(play (step sampleWorld "edit") [] sampleStore repeatedActions).2.refunds,
        ∃ r'∈(play (step sampleWorld "edit") [] sampleStore repeatedActions).2.refunds,
        (∃ a∈(play (step sampleWorld "edit") [] sampleStore repeatedActions).2.attempts,
          r.attemptId=some a.id∧a.idempotencyKey = "refund:" ++ retryKey "key" 1) ∧
        (∃ a∈(play (step sampleWorld "edit") [] sampleStore repeatedActions).2.attempts,
          r'.attemptId=some a.id∧a.idempotencyKey = "refund:" ++ retryKey "key" 2) ∧
        r.state≠.failed∧r'.state≠.failed∧r≠r' := by decide
    obtain ⟨r,hr,r',hr',⟨a,ha,hatt,hkey⟩,⟨a',ha',hatt',hkey'⟩,hsta⟩ := href
    exact ⟨r,hr,r',hr',⟨a,ha,hatt,hkey ▸ hnm 1⟩,⟨a',ha',hatt',hkey' ▸ hnm 2⟩,hsta⟩
  · have hmv : ∃ e∈(play (step sampleWorld "edit") [] sampleStore repeatedActions).1,
        ∃ row∈findEdit e.before "edit", row.proposal≠none ∧
        ∃ r∈e.before.refunds, row.settlement.refundId=some r.id∧r.state≠.failed ∧
        ∃ row'∈findEdit e.after "edit", row'.settlement.refundId≠some r.id := by decide
    exact hmv

end SellRight.EditRefundOnce
