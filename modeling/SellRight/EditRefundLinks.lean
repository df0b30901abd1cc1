import SellRight.EditStageSteps

/-!
# Links of edits to their refunds

Provider answers and activations add no refund and move no link. The settlement
of an edit is linked when it names the only refund of the edit that did not
fail.
-/

namespace SellRight.EditRefundLinks

open EditActivation EditRefunds EditStageSteps EditStages FallibleSteps OrderLifecycle List
open PaymentLedger RowTable

/-- An edit keeps what its refund is decided by. -/
structure SameEdit (row next : EditRow) : Prop where
  id : next.id=row.id
  key : next.idempotencyKey=row.idempotencyKey
  balance : next.balance=row.balance
  proposal : next.proposal=row.proposal
  amendment : next.settlementAmendment=row.settlementAmendment
  type : next.settlement.type=row.settlement.type
  link : next.settlement.refundId=row.settlement.refundId
  staged : row.settlement.phase≠none→next.settlement.phase≠none

theorem SameEdit.refl (row : EditRow) : SameEdit row row := ⟨rfl,rfl,rfl,rfl,rfl,rfl,rfl,fun h => h⟩

theorem SameEdit.trans {a b c : EditRow} (hab : SameEdit a b) (hbc : SameEdit b c) : SameEdit a c :=
  ⟨hbc.id.trans hab.id,hbc.key.trans hab.key,hbc.balance.trans hab.balance,
    hbc.proposal.trans hab.proposal,hbc.amendment.trans hab.amendment,hbc.type.trans hab.type,
    hbc.link.trans hab.link,fun h => hbc.staged (hab.staged h)⟩

/-- A refund keeps its identity, and a failed one stays failed. -/
structure SameRefund (r next : Refund) : Prop where
  id : next.id=r.id
  attemptId : next.attemptId=r.attemptId
  failed : r.state=.failed→next.state=.failed

theorem SameRefund.refl (r : Refund) : SameRefund r r := ⟨rfl,rfl,fun h => h⟩

theorem SameRefund.trans {a b c : Refund} (hab : SameRefund a b) (hbc : SameRefund b c) :
    SameRefund a c :=
  ⟨hbc.id.trans hab.id,hbc.attemptId.trans hab.attemptId,fun h => hbc.failed (hab.failed h)⟩

/-- An attempt keeps its identity. -/
structure SameAttempt (a next : Attempt) : Prop where
  id : next.id=a.id
  key : next.idempotencyKey=a.idempotencyKey

theorem SameAttempt.refl (a : Attempt) : SameAttempt a a := ⟨rfl,rfl⟩

theorem SameAttempt.trans {a b c : Attempt} (hab : SameAttempt a b) (hbc : SameAttempt b c) :
    SameAttempt a c :=
  ⟨hbc.id.trans hab.id,hbc.key.trans hab.key⟩

/-- Tables move without a new refund and without a new link. -/
structure Follows (db next : EditStore) : Prop where
  attempts : Forall₂ SameAttempt db.attempts next.attempts
  refunds : Forall₂ SameRefund db.refunds next.refunds
  edits : Forall₂ SameEdit db.edits next.edits

theorem Follows.refl (db : EditStore) : Follows db db :=
  ⟨forall₂_same.mpr fun a _ => .refl a,forall₂_same.mpr fun r _ => .refl r,
    forall₂_same.mpr fun row _ => .refl row⟩

variable {α : Type} {R : α → α → Prop} {xs ys : List α} {db next : EditStore} {key : String}

/-- Pairings compose. -/
theorem forall₂_trans (htra : ∀ a b c, R a b → R b c → R a c)
    {zs : List α} (hxy : Forall₂ R xs ys) (hyz : Forall₂ R ys zs) :
    Forall₂ R xs zs := by
  induction hxy generalizing zs with
  | nil => cases hyz; exact Forall₂.nil
  | cons hhd _ ih =>
    cases hyz with
    | cons hnx htl => exact Forall₂.cons (htra _ _ _ hhd hnx) (ih htl)

theorem Follows.trans {a b c : EditStore} (hab : Follows a b) (hbc : Follows b c) : Follows a c :=
  ⟨forall₂_trans (fun _ _ _ h => h.trans) hab.attempts hbc.attempts,
    forall₂_trans (fun _ _ _ h => h.trans) hab.refunds hbc.refunds,
    forall₂_trans (fun _ _ _ h => h.trans) hab.edits hbc.edits⟩

/-- An addressed update pairs every row with its rewrite. -/
theorem forall₂_updateWhere {p : α → Bool} {f : α → α} {rows : List α}
    (href : ∀ row, R row row) (hrew : ∀ row∈rows, p row=true → R row (f row)) :
    Forall₂ R rows (updateWhere p f rows) := by
  rw [updateWhere,forall₂_map_right_iff,forall₂_same]
  intro row hrow
  cases hp : p row with
  | true => simpa using hrew row hrow hp
  | false => simpa using href row

/-- Image of a row in a pairing. -/
theorem forall₂_image
    (hpai : Forall₂ R xs ys) {x : α} (hx : x∈xs) : ∃ y∈ys, R x y :=
  forall₂_partner hpai.flip hx

/-- Edits stay distinct. -/
theorem Follows.edits_nodup (hfol : Follows db next)
    (hids : (db.edits.map EditRow.id).Nodup) : (next.edits.map EditRow.id).Nodup :=
  map_eq_of_forall₂ hfol.edits (fun _ _ h => h.id.symm) ▸ hids

/-- Refunds stay distinct. -/
theorem Follows.refunds_nodup (hfol : Follows db next)
    (hids : (db.refunds.map Refund.id).Nodup) : (next.refunds.map Refund.id).Nodup :=
  map_eq_of_forall₂ hfol.refunds (fun _ _ h => h.id.symm) ▸ hids

/-- An activation adds no refund and moves no link. -/
theorem activation_follows {w : World} {input : ActivationInput}
    (hids : (db.edits.map EditRow.id).Nodup) (hact : Activation w db input next) :
    Follows db next := by
  cases hact with
  | idle => exact .refl db
  | published _ hsta _ _ hpub =>
    obtain ⟨rows,pricing,lines,rfl⟩ := publishProposal_eq_ok hpub
    have heq : ∀ store : EditStore, (settleOrderState store).attempts=store.attempts ∧
        (settleOrderState store).refunds=store.refunds ∧
        (settleOrderState store).edits=store.edits := by
      intro store
      unfold settleOrderState
      split <;> exact ⟨rfl,rfl,rfl⟩
    refine ⟨?_,?_,?_⟩
    · rw [(heq _).1]
      exact (Follows.refl db).attempts
    · rw [(heq _).2.1]
      exact (Follows.refl db).refunds
    · rw [(heq _).2.2]
      refine forall₂_updateWhere SameEdit.refl fun row hrow hid => ?_
      have hrow : row=_ := eq_of_key_eq EditRow.id hids hrow (preparedStage_row hsta).1
        (of_decide_eq_true hid)
      subst hrow
      exact ⟨rfl,rfl,rfl,rfl,rfl,rfl,rfl,fun _ => by simp [activatedSettlement]⟩
  | noted hsel =>
    refine ⟨(Follows.refl db).attempts,(Follows.refl db).refunds,?_⟩
    refine forall₂_updateWhere SameEdit.refl fun row hrow hid => ?_
    have hrow : row=_ := eq_of_key_eq EditRow.id hids hrow (mem_of_find?_eq_some hsel)
      (of_decide_eq_true hid)
    subst hrow
    exact ⟨rfl,rfl,rfl,rfl,rfl,rfl,rfl,fun h => h⟩

theorem activateRefund_follows (w : World) (hids : (db.edits.map EditRow.id).Nodup)
    (refund : Refund) : Follows db (activateRefund w db refund) :=
  activation_follows hids (activatePreparedOrderEdit_activation w db _)

variable {providerRef : Option String}

theorem writeOutcome_follows {refund : Refund} {attemptId : String}
    {state : RefundState} (hids : (db.refunds.map Refund.id).Nodup)
    (href : refund∈db.refunds) (hfai : refund.state=.failed→state=.failed) :
    Follows db (writeOutcome db refund attemptId state providerRef) := by
  refine ⟨?_,?_,(Follows.refl db).edits⟩
  · exact forall₂_updateWhere SameAttempt.refl fun _ _ _ => ⟨rfl,rfl⟩
  refine forall₂_updateWhere SameRefund.refl fun r hr hid => ?_
  have heq : r=refund := eq_of_key_eq Refund.id hids hr href (of_decide_eq_true hid)
  subst heq
  exact ⟨rfl,rfl,hfai⟩

theorem adoptReference_follows (db : EditStore) (refund : Refund) (attemptId : String)
    (providerRef : Option String) : Follows db (adoptReference db refund attemptId providerRef) := by
  unfold adoptReference
  split
  · exact ⟨forall₂_updateWhere SameAttempt.refl fun _ _ _ => ⟨rfl,rfl⟩,
      forall₂_updateWhere SameRefund.refl fun _ _ _ => ⟨rfl,rfl,fun h => h⟩,
      (Follows.refl db).edits⟩
  · exact Follows.refl db

/-- A recorded provider answer adds no refund and moves no link, unless it
settles a failed refund. -/
theorem finalizeRefund_follows {w : World} {attemptId : String}
    {state : RefundState} (hrefu : (db.refunds.map Refund.id).Nodup)
    (hedi : (db.edits.map EditRow.id).Nodup)
    (hdd : ∀ refund, refundOf db attemptId=some refund → refund.state=.failed → state≠.settled)
    (hfin : finalizeRefund w db attemptId state providerRef=.ok next) : Follows db next := by
  unfold finalizeRefund at hfin
  cases hatt : findAttempt db (some attemptId) with
  | none => simp [hatt,refuseRefund] at hfin
  | some attempt =>
    cases href : refundOf db attemptId with
    | none => simp [hatt,href,refuseRefund] at hfin
    | some refund =>
      simp only [hatt,href] at hfin
      have hmem : refund∈db.refunds := mem_of_find?_eq_some href
      split at hfin
      · cases hfin
      split at hfin
      · split at hfin
        · cases hfin
        cases hfin
        refine writeOutcome_follows hrefu hmem fun hfai => ?_
        have hst := hdd refund href hfai
        simp [observedState,hfai,hst]
      split at hfin
      · cases hfin
        have hado := adoptReference_follows db refund attemptId providerRef
        exact hado.trans (activateRefund_follows w (hado.edits_nodup hedi) refund)
      split at hfin
      · cases hfin
      by_cases hfai : refund.state=.failed∧state≠.settled
      · rw [if_pos hfai] at hfin
        cases hfin
        exact .refl db
      split_ifs at hfin with hst
      · cases hfin
        exact writeOutcome_follows hrefu hmem fun hdea => absurd ⟨hdea,hst⟩ hfai
      have hali : refund.state≠.failed := fun h =>
        hst (hdd refund href h)
      unfold settleEditRefund at hfin
      split at hfin
      · cases hfin
        have hwri : Follows db (writeOutcome db refund attemptId .settled
            (providerRef.or refund.providerRef)) :=
          writeOutcome_follows hrefu hmem fun h => absurd h hali
        have hact := hwri.trans (activateRefund_follows w (hwri.edits_nodup hedi) refund)
        exact ⟨hact.attempts,hact.refunds,hact.edits⟩
      · cases hfin

/-- The key belongs to the commit of an edit or to one of its retries. -/
def IsEditKey (key text : String) : Prop :=
  text = "refund:" ++ commitKey key∨∃ attempt, text = "refund:" ++ retryKey key attempt

/-- The refund was requested on behalf of the edit with a key. -/
def RequestedFor (key : String) (db : EditStore) (r : Refund) : Prop :=
  ∃ a∈db.attempts, r.attemptId=some a.id∧IsEditKey key a.idempotencyKey

/-- Facts of the row of the edit itself: it owes money back, an amended edit
is staged and no longer asks for its refund, a proposal asks for a refund. -/
structure OwnEdit (key : String) (row : EditRow) : Prop where
  key : row.idempotencyKey=key
  balance : row.balance<0
  amendment : row.settlementAmendment≠none →
    row.settlement.phase≠none∧row.settlement.type≠.refundNow
  proposal : ∀ proposal, row.proposal=some proposal →
    0<proposal.settlementRequirement.requiredRefund∧row.settlement.phase≠none

theorem OwnEdit.same {row next : EditRow} (hown : OwnEdit key row)
    (heq : SameEdit row next) : OwnEdit key next := by
  refine ⟨heq.key.trans hown.key,heq.balance ▸ hown.balance,fun hame => ?_,fun proposal hpro => ?_⟩
  · obtain ⟨hph,htyp⟩ := hown.amendment (heq.amendment ▸ hame)
    exact ⟨heq.staged hph,heq.type ▸ htyp⟩
  · obtain ⟨href,hph⟩ := hown.proposal proposal (heq.proposal ▸ hpro)
    exact ⟨href,heq.staged hph⟩

/-- Keys and references of the tables. -/
structure Keyed (db : EditStore) : Prop where
  attemptIds : (db.attempts.map fun a => a.id).Nodup
  attemptKeys : (db.attempts.map fun a => a.idempotencyKey).Nodup
  refundIds : (db.refunds.map Refund.id).Nodup
  once : ∀ r∈db.refunds, ∀ r'∈db.refunds, ∀ id, r.attemptId=some id →
    r'.attemptId=some id → r.id=r'.id
  known : ∀ r∈db.refunds, ∀ id, r.attemptId=some id→∃ a∈db.attempts, a.id=id
  editIds : (db.edits.map EditRow.id).Nodup

/-- Sound tables, and the row of the edit. -/
structure Base (editId key : String) (db : EditStore) : Prop extends Keyed db where
  own : ∃ row, findEdit db editId=some row∧OwnEdit key row
  others : ∀ row∈db.edits, row.id≠editId→∀ id, row.settlement.refundId=some id →
    ∃ r∈db.refunds, r.id=id∧¬ RequestedFor key db r

/-- The link names a refund of the edit, and the only one that did not fail. -/
structure LinkFor (key : String) (db : EditStore) (link : Option String) : Prop where
  named : ∀ id, link=some id→∃ r∈db.refunds, r.id=id∧RequestedFor key db r
  live : ∀ r∈db.refunds, RequestedFor key db r → r.state≠.failed→link=some r.id

/-- The settlement of the edit is linked to its only live refund. -/
structure Linked (editId key : String) (db : EditStore) : Prop extends Base editId key db where
  link : ∀ row, findEdit db editId=some row → LinkFor key db row.settlement.refundId

theorem Follows.requested (hfol : Follows db next)
    {r r' : Refund} (heq : SameRefund r r') : RequestedFor key next r' ↔ RequestedFor key db r := by
  constructor
  · rintro ⟨a',ha',hatt,hkey⟩
    obtain ⟨a,ha,hpai⟩ := forall₂_partner hfol.attempts ha'
    exact ⟨a,ha,by rw [← heq.attemptId,hatt,hpai.id],hpai.key ▸ hkey⟩
  · rintro ⟨a,ha,hatt,hkey⟩
    obtain ⟨a',ha',hpai⟩ := forall₂_image hfol.attempts ha
    exact ⟨a',ha',by rw [heq.attemptId,hatt,hpai.id],hpai.key.symm ▸ hkey⟩

/-- The row of an edit after tables moved. -/
theorem Follows.findEdit (hfol : Follows db next) (editId : String) :
    Option.Rel SameEdit (findEdit db editId) (findEdit next editId) := by
  unfold EditRefunds.findEdit
  have hrs := hfol.edits
  generalize db.edits=rows at hrs
  generalize next.edits=rows' at hrs
  induction hrs with
  | nil => exact Option.Rel.none
  | @cons row row' rows rows' hhd _ ih =>
    rw [find?_cons,find?_cons,hhd.id]
    cases decide (row.id=editId) with
    | true => exact Option.Rel.some hhd
    | false => exact ih

section
variable (hfol : Follows db next) {editId : String}
include hfol

theorem Follows.findEdit_some {row : EditRow} (hrow : EditRefunds.findEdit db editId=some row) :
    ∃ row', EditRefunds.findEdit next editId=some row'∧SameEdit row row' := by
  have hrel := hfol.findEdit editId
  rw [hrow] at hrel
  generalize EditRefunds.findEdit next editId=found at hrel
  cases hrel with
  | some heq => exact ⟨_,rfl,heq⟩

theorem Follows.findEdit_before {row' : EditRow} (hrow : EditRefunds.findEdit next editId=some row') :
    ∃ row, EditRefunds.findEdit db editId=some row∧SameEdit row row' := by
  have hrel := hfol.findEdit editId
  rw [hrow] at hrel
  generalize EditRefunds.findEdit db editId=found at hrel
  cases hrel with
  | some heq => exact ⟨_,rfl,heq⟩

end

/-- Tables that move keep their keys and references. -/
theorem Base.follow {editId : String} (hbas : Base editId key db)
    (hfol : Follows db next) : Base editId key next where
  attemptIds := by
    have hids := map_eq_of_forall₂ hfol.attempts.flip fun _ _ h => h.id
    exact hids.symm ▸ hbas.attemptIds
  attemptKeys := by
    have hks := map_eq_of_forall₂ hfol.attempts.flip fun _ _ h => h.key
    exact hks.symm ▸ hbas.attemptKeys
  refundIds := hfol.refunds_nodup hbas.refundIds
  once := by
    intro r hr r' hr' id hid hid'
    obtain ⟨s,hs,heq⟩ := forall₂_partner hfol.refunds hr
    obtain ⟨s',hs',heq'⟩ := forall₂_partner hfol.refunds hr'
    rw [heq.id,heq'.id]
    exact hbas.once s hs s' hs' id (heq.attemptId ▸ hid) (heq'.attemptId ▸ hid')
  known := by
    intro r hr id hid
    obtain ⟨s,hs,heq⟩ := forall₂_partner hfol.refunds hr
    obtain ⟨a,ha,haid⟩ := hbas.known s hs id (heq.attemptId ▸ hid)
    obtain ⟨a',ha',hpai⟩ := forall₂_image hfol.attempts ha
    exact ⟨a',ha',hpai.id.trans haid⟩
  editIds := hfol.edits_nodup hbas.editIds
  own := by
    obtain ⟨row,hrow,hown⟩ := hbas.own
    obtain ⟨row',hrow',heq⟩ := hfol.findEdit_some hrow
    exact ⟨row',hrow',hown.same heq⟩
  others := by
    intro row' hrow' hid link hlnk
    obtain ⟨row,hrow,heq⟩ := forall₂_partner hfol.edits hrow'
    obtain ⟨r,hr,hrid,hreq⟩ :=
      hbas.others row hrow (heq.id ▸ hid) link (heq.link ▸ hlnk)
    obtain ⟨r',hr',hpai⟩ := forall₂_image hfol.refunds hr
    exact ⟨r',hr',hpai.id.trans hrid,fun h => hreq ((hfol.requested hpai).mp h)⟩

/-- A link stays right while tables move. -/
theorem LinkFor.follow {link : Option String}
    (hlnk : LinkFor key db link) (hfol : Follows db next) : LinkFor key next link := by
  refine ⟨fun id hid => ?_,fun r' hr' hreq hlv => ?_⟩
  · obtain ⟨r,hr,hrid,hreq⟩ := hlnk.named id hid
    obtain ⟨r',hr',hpai⟩ := forall₂_image hfol.refunds hr
    exact ⟨r',hr',hpai.id.trans hrid,(hfol.requested hpai).mpr hreq⟩
  · obtain ⟨r,hr,hpai⟩ := forall₂_partner hfol.refunds hr'
    rw [hpai.id]
    exact hlnk.live r hr ((hfol.requested hpai).mp hreq) fun hfai =>
      hlv (hpai.failed hfai)

/-- Moving tables keep the link. -/
theorem Linked.follow {editId : String} (hlin : Linked editId key db)
    (hfol : Follows db next) : Linked editId key next where
  toBase := hlin.toBase.follow hfol
  link := by
    intro row' hrow'
    obtain ⟨row,hrow,heq⟩ := hfol.findEdit_before hrow'
    rw [heq.link]
    exact (hlin.link row hrow).follow hfol

end SellRight.EditRefundLinks
