import SellRight.EditRefunds

/-!
# Steps of staged edits

What each operation on a staged edit can do. An activation leaves the tables
alone, publishes one proposal or notes its failure; a refund request stores at
most one refund and links it.
-/

namespace SellRight.EditStageSteps

open EditActivation EditRefunds EditStages FallibleSteps OrderLifecycle PaymentLedger RowTable

theorem requireFact_eq_ok {ok : Bool} {message : String} :
    requireFact ok message=.ok () ↔ ok=true := by
  cases ok <;> simp [requireFact]

/-- A value that was required is there. -/
theorem present_eq_ok {α : Type} {message : String} {value? : Option α} {value : α} :
    present message value?=.ok value ↔ value?=some value := by
  cases value? <;> simp [present]

variable {w : World} {db : EditStore} {stage : Stage}

theorem readEditStageProposal_eq_ok {raw proposal : EditStageProposal}
    (hrd : readEditStageProposal w raw=.ok proposal) :
    proposal=raw∧raw.settlementRequirement.wellFormed=true := by
  simp only [readEditStageProposal,bind_eq_ok] at hrd
  obtain ⟨-,-,-,-,-,-,-,-,⟨⟩,hfor,-,-,hrd⟩ := hrd
  cases hrd
  exact ⟨rfl,requireFact_eq_ok.mp hfor⟩

theorem preparedStage_eq_some {editId : Option String}
    (hsta : preparedStage w db editId=.ok (some stage)) :
    selectStage db editId=some stage.row∧stage.row.proposal=some stage.proposal ∧
      stage.proposal.settlementRequirement.wellFormed=true ∧
      stage.proposal.editId=stage.row.id∧stage.proposal.orderId=stage.row.orderId := by
  unfold preparedStage at hsta
  cases hsel : selectStage db editId with
  | none => simp [hsel] at hsta
  | some row =>
    cases hpro : row.proposal with
    | none => simp [hsel,hpro] at hsta
    | some =>
      simp only [hsel,hpro] at hsta
      obtain ⟨proposal,hrd,hche⟩ := bind_eq_ok.mp hsta
      obtain ⟨rfl,hfor⟩ := readEditStageProposal_eq_ok hrd
      split_ifs at hche with hdif
      · cases hche
      cases hche
      push Not at hdif
      exact ⟨rfl,hpro,hfor,hdif.1,hdif.2.1⟩

theorem preparedStage_row {editId : String}
    (hsta : preparedStage w db (some editId)=.ok (some stage)) :
    stage.row∈db.edits∧stage.row.id=editId :=
  find_key_eq_some EditRow.id (preparedStage_eq_some hsta).1

/-- Where identifiers are distinct, a row that was selected is the stage read
by its identifier. -/
theorem preparedStage_selected {selected : EditRow}
    (hids : (db.edits.map EditRow.id).Nodup) (hsel : selected∈db.edits)
    (hsta : preparedStage w db (some selected.id)=.ok (some stage)) : stage.row=selected :=
  eq_of_key_eq EditRow.id hids (preparedStage_row hsta).1 hsel (preparedStage_row hsta).2

variable {requirement : SettlementRequirement}
variable {amendment : Option EditSettlementAmendment}

theorem effectiveEditSettlementRequirement_none {proposal : EditStageProposal}
    (heff : effectiveEditSettlementRequirement w proposal none=.ok (requirement,amendment)) :
    requirement=proposal.settlementRequirement∧amendment=none := by
  cases heff
  exact ⟨rfl,rfl⟩

/-- Everything an activation that published has checked. -/
structure Admitted (w : World) (db : EditStore) (input : ActivationInput) (stage : Stage)
    (requirement : SettlementRequirement) (amendment : Option EditSettlementAmendment) : Prop where
  effective : effectiveEditSettlementRequirement w stage.proposal stage.row.settlementAmendment =
    .ok (requirement,amendment)
  moved : (linkedMoney db input stage.row.settlement).waits requirement=false
  proven : checkMoney db input (linkedMoney db input stage.row.settlement)=.ok ()
  asserted : assertEditStageActivation stage.proposal stage.row.settlement requirement amendment
    (w.fingerprint (.stored (storedFacts db
      (frozenOrder db.order stage.proposal.activation.beforeOrder) stage.row.settlement.refundId)))
    (w.fingerprint (.ledger (ledgerPrefix db)))
    (linkedMoney db input stage.row.settlement).linkedRefund
    (linkedMoney db input stage.row.settlement).linkedTender=.ok ()

/-- A published proposal wrote its frozen rows and one entry of the log. -/
theorem publishProposal_eq_ok {next : EditStore}
    (hpub : publishProposal w db stage requirement amendment=.ok next) : ∃ rows pricing lines,
      next = {settleOrderState (publishedStore w db stage requirement amendment rows pricing lines)
        with audit := db.audit++[⟨"edit",stage.row.id⟩]} := by
  simp only [publishProposal,bind_eq_ok] at hpub
  obtain ⟨⟨_,rows⟩,-,-,-,-,-,pricing,-,-,-,lines,-,-,-,hpub⟩ := hpub
  cases hpub
  exact ⟨rows,pricing,lines,rfl⟩

variable {input : ActivationInput}

/-- An activation of a stage that waits published it after its checks, or
found its money waiting. -/
theorem activateWaiting_eq_ok
    {result : Option EditStore} (hact : activateWaiting w db input stage=.ok result) :
    ∃ requirement amendment,
      effectiveEditSettlementRequirement w stage.proposal stage.row.settlementAmendment =
        .ok (requirement,amendment) ∧
      ((result=none∧(linkedMoney db input stage.row.settlement).waits requirement=true) ∨
        ∃ next, result=some next∧Admitted w db input stage requirement amendment ∧
          publishProposal w db stage requirement amendment=.ok next) := by
  simp only [activateWaiting,bind_eq_ok] at hact
  obtain ⟨⟨requirement,amendment⟩,heff,-,-,-,-,hact⟩ := hact
  refine ⟨requirement,amendment,heff,?_⟩
  cases hwt : (linkedMoney db input stage.row.settlement).waits requirement with
  | true =>
    simp only [hwt,if_true] at hact
    cases hact
    exact .inl ⟨rfl,rfl⟩
  | false =>
    simp only [hwt,Bool.false_eq_true,if_false] at hact
    obtain ⟨⟨⟩,hpro,hact⟩ := bind_eq_ok.mp hact
    obtain ⟨⟨⟩,hass,hact⟩ := bind_eq_ok.mp hact
    obtain ⟨next,hpub,hact⟩ := bind_eq_ok.mp hact
    cases hact
    exact .inr ⟨next,rfl,⟨heff,hwt,hpro,hass⟩,hpub⟩

theorem activateEdit_eq_ok
    {selected : EditRow} {answer : Bool×EditStore}
    (hact : activateEdit w db input selected=.ok answer) :
    ∃ stage, preparedStage w db (some selected.id)=.ok (some stage) ∧
      ((stage.row.settlement.phase=some .activated∧answer=(true,db)) ∨
        (stage.row.settlement.phase≠some .activated ∧
          activateWaiting w db input stage=.ok none∧answer=(false,db)) ∨
        (stage.row.settlement.phase≠some .activated ∧
          ∃ next, activateWaiting w db input stage=.ok (some next)∧answer=(true,next))) := by
  obtain ⟨found,hsta,hfd⟩ := bind_eq_ok.mp hact
  obtain ⟨stage,hso,hrt⟩ := bind_eq_ok.mp hfd
  rw [present_eq_ok.mp hso] at hsta
  refine ⟨stage,hsta,?_⟩
  split_ifs at hrt with hph
  · obtain ⟨-,-,hrep⟩ := bind_eq_ok.mp hrt
    cases hrep
    exact .inl ⟨hph,rfl⟩
  · obtain ⟨result,hwai,hans⟩ := bind_eq_ok.mp hrt
    cases result with
    | none =>
      cases hans
      exact .inr (.inl ⟨hph,hwai,rfl⟩)
    | some next =>
      cases hans
      exact .inr (.inr ⟨hph,next,hwai,rfl⟩)

/-- The three outcomes of an activation. -/
inductive Activation (w : World) (db : EditStore) (input : ActivationInput) : EditStore → Prop
  | idle
      (hidle : db.order.reconciliationRequired=true∨selectEdit db input=none ∨
        ∃ selected stage, selectEdit db input=some selected ∧
          preparedStage w db (some selected.id)=.ok (some stage) ∧
          (stage.row.settlement.phase=some .activated ∨
            activateWaiting w db input stage=.ok none)) :
      Activation w db input db
  | published {selected : EditRow} {stage : Stage} {requirement : SettlementRequirement}
      {amendment : Option EditSettlementAmendment} {next : EditStore}
      (hselect : selectEdit db input=some selected)
      (hstage : preparedStage w db (some selected.id)=.ok (some stage))
      (hphase : stage.row.settlement.phase≠some .activated)
      (hadmitted : Admitted w db input stage requirement amendment)
      (hpublish : publishProposal w db stage requirement amendment=.ok next) :
      Activation w db input next
  | noted {selected : EditRow} (hselect : selectEdit db input=some selected) :
      Activation w db input (noteFailedActivation db selected)

/-- Every activation has one of the three outcomes. -/
theorem activatePreparedOrderEdit_activation (w : World) (db : EditStore) (input : ActivationInput) :
    Activation w db input (activatePreparedOrderEdit w db input).2 := by
  unfold activatePreparedOrderEdit
  cases hqua : db.order.reconciliationRequired with
  | true => exact .idle (.inl hqua)
  | false =>
    cases hsel : selectEdit db input with
    | none => exact .idle (.inr (.inl hsel))
    | some selected =>
      simp only
      cases hact : activateEdit w db input selected with
      | error => exact .noted hsel
      | ok =>
        obtain ⟨stage,hsta,hcas⟩ := activateEdit_eq_ok hact
        rcases hcas with ⟨hph,rfl⟩|⟨-,hwai,rfl⟩|⟨hph,next,hwai,rfl⟩
        · exact .idle (.inr (.inr ⟨selected,stage,hsel,hsta,.inl hph⟩))
        · exact .idle (.inr (.inr ⟨selected,stage,hsel,hsta,.inr hwai⟩))
        · obtain ⟨requirement,amendment,-,hres⟩ := activateWaiting_eq_ok hwai
          rcases hres with ⟨hno,-⟩|⟨published,hso,hadm,hpub⟩
          · cases hno
          · cases hso
            exact .published hsel hsta hph hadm hpub

end SellRight.EditStageSteps
