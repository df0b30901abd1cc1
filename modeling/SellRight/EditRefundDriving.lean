import SellRight.EditRefundLinks

/-!
# Asking for the refund of an edit

What a refund request can come to, and what the settlement of the edit is
linked to once the outcome was recorded: a live refund keeps its link, and a
new one is stored only where every other refund of the edit failed.
-/

namespace SellRight.EditRefundDriving

open EditActivation EditRefundLinks EditRefunds EditStageSteps EditStages FallibleSteps List
open OrderLifecycle PaymentLedger RowTable

/-- The drawn identifiers are new. -/
structure Fresh (db : EditStore) (answer : ProviderAnswer) : Prop where
  attempt : ∀ a∈db.attempts, a.id≠answer.attemptId
  refund : ∀ r∈db.refunds, r.id≠answer.refundId

/-- Tables after a refund was stored, before its provider answers. -/
structure Stored (w : World) (db : EditStore) (key : String) (request : EditRefundRequest)
    (payment : Payment) (answer : ProviderAnswer) (stored : EditStore) : Prop where
  attempts : stored.attempts=db.attempts++[newAttempt w db key request payment answer]
  refunds : stored.refunds=db.refunds++[newRefund db request payment answer]
  /-- The refund of a staged edit is linked, in place of none or of a failed one. -/
  edits : (request.editId=none∧stored.edits=db.edits) ∨
    ∃ row∈db.edits, request.editId=some row.id∧refundReplaceable
        {db with
          attempts := db.attempts++[newAttempt w db key request payment answer]
          refunds := db.refunds++[newRefund db request payment answer]}
        row.settlement.refundId (newRefund db request payment answer)=true ∧
      stored.edits=updateWhere (fun old => decide (old.id=row.id))
        (fun old => {old with settlement := {row.settlement with refundId := some answer.refundId}})
        db.edits

variable {w : World} {db stored next : EditStore} {editId key name : String}
  {request : EditRefundRequest} {payment : Payment} {answer : ProviderAnswer} {r : Refund}
  {out : SettlementOutcome}

theorem bindPreparedEditRefund_eq_ok {linked : EditStore} {refundId : String}
    (hbin : bindPreparedEditRefund w db editId refundId=.ok linked) :
    ∃ row∈db.edits, ∃ refund∈db.refunds, row.id=editId∧refund.id=refundId ∧
      row.settlement.phase=some .awaitingRefund ∧
      refundReplaceable db row.settlement.refundId refund=true ∧
      linked=setSettlement row.id {row.settlement with refundId := some refundId} db := by
  obtain ⟨found,hsta,hbin⟩ := bind_eq_ok.mp hbin
  cases found with
  | none => cases hbin
  | some stage =>
    obtain ⟨hrow,hid⟩ := preparedStage_row hsta
    by_cases hph : stage.row.settlement.phase≠some .awaitingRefund
    · simp only [if_pos hph] at hbin
      cases hbin
    simp only [if_neg hph] at hbin
    cases href : findRefund db (some refundId) with
    | none => simp [href,refuse] at hbin
    | some refund =>
      simp only [href] at hbin
      have hmem : refund∈db.refunds := mem_of_find?_eq_some href
      have hrefu : refund.id=refundId := by
        have hfd := List.find?_some href
        simpa using hfd
      cases hfs : refundFits db stage.proposal.settlementRequirement stage.row.settlement refund with
      | false => simp [hfs,refuse] at hbin
      | true =>
        cases hrep : refundReplaceable db stage.row.settlement.refundId refund with
        | false => simp [hfs,hrep,refuse] at hbin
        | true =>
          simp only [hfs,hrep,Bool.not_true,Bool.false_eq_true,if_false] at hbin
          cases hbin
          exact ⟨stage.row,hrow,refund,hmem,hid,hrefu,not_ne_iff.mp hph,hrep,by rw [hrefu]⟩

theorem storeRefund_stored
    (hfre : Fresh db answer) (hsto : storeRefund w db key request payment answer=.ok stored) :
    Stored w db key request payment answer stored := by
  obtain ⟨linked,hlnk,hsto⟩ := bind_eq_ok.mp hsto
  cases hsto
  unfold linkRefund at hlnk
  cases hed : request.editId with
  | none =>
    simp only [hed] at hlnk
    cases hlnk
    exact ⟨rfl,rfl,.inl ⟨hed,rfl⟩⟩
  | some editId =>
    simp only [hed] at hlnk
    cases hbin : bindPreparedEditRefund w {db with
          attempts := db.attempts++[newAttempt w db key request payment answer]
          refunds := db.refunds++[newRefund db request payment answer]} editId
        answer.refundId with
    | error failure => simp [hbin] at hlnk
    | ok bound =>
      simp only [hbin] at hlnk
      cases hlnk
      obtain ⟨row,hrow,refund,href,hid,hrefu,-,hrep,rfl⟩ :=
        bindPreparedEditRefund_eq_ok hbin
      have hnew : refund=newRefund db request payment answer := by
        rcases mem_append.mp href with hold|hlt
        · exact absurd hrefu (hfre.refund refund hold)
        · exact mem_singleton.mp hlt
      subst hnew
      exact ⟨rfl,rfl,.inr ⟨row,hrow,by rw [hed,hid],hrep,rfl⟩⟩

/-- Refund requested under a key. -/
def keyRefund (db : EditStore) (key : String) : Option Refund :=
  (priorAttempt db key).bind fun attempt => refundOf db attempt.id

/-- What a refund request came to. -/
inductive Requested (w : World) (db : EditStore) (key : String) (request : EditRefundRequest)
    (answer : ProviderAnswer) : RefundAnswer → Prop
  | refused (failure : RefundRequests.RefundFailure) :
      Requested w db key request answer ⟨.error failure,db⟩
  | replayed {refund : Refund} {next : EditStore} (hprior : keyRefund db key=some refund)
      (hfollows : Follows db next) :
      Requested w db key request answer ⟨.ok (viewOf next refund),next⟩
  /-- A refund was stored; the provider may have answered. -/
  | created {payment : Payment} {stored next : EditStore}
      {reply : Except RefundRequests.RefundFailure Refund}
      (hprior : priorAttempt db key=none)
      (hstored : Stored w db key request payment answer stored) (hfollows : Follows stored next)
      (hreply : (∃ failure, reply=.error failure) ∨
        reply=.ok (viewOf next (newRefund db request payment answer))) :
      Requested w db key request answer ⟨reply,next⟩

section

theorem priorAttempt_none (hpri : priorAttempt db key=none) :
    ∀ a∈db.attempts, a.idempotencyKey ≠ "refund:" ++ key := by
  intro a ha
  simpa using List.find?_eq_none.mp hpri a ha

theorem priorAttempt_some {a : Attempt}
    (hpri : priorAttempt db key=some a) : a∈db.attempts∧a.idempotencyKey = "refund:" ++ key :=
  find_key_eq_some (fun a : Attempt => a.idempotencyKey) hpri

theorem refundOf_some {attemptId : String}
    (href : refundOf db attemptId=some r) : r∈db.refunds∧r.attemptId=some attemptId :=
  find_key_eq_some Refund.attemptId href

theorem keyRefund_some (hkey : keyRefund db key=some r) :
    r∈db.refunds∧∃ a∈db.attempts, a.idempotencyKey = "refund:" ++ key ∧
      r.attemptId=some a.id := by
  obtain ⟨a,hpri,href⟩ := Option.bind_eq_some_iff.mp hkey
  obtain ⟨ha,hnm⟩ := priorAttempt_some hpri
  obtain ⟨hr,hatt⟩ := refundOf_some href
  exact ⟨hr,a,ha,hnm,hatt⟩

end

theorem Base.keyRefund_eq (hbas : Base editId name db) {a : Attempt} (ha : a∈db.attempts)
    (hkey : a.idempotencyKey = "refund:" ++ key) (hr : r∈db.refunds)
    (hatt : r.attemptId=some a.id) : keyRefund db key=some r := by
  have hpri : priorAttempt db key=some a := by
    have hsel := find_key_self (fun a : Attempt => a.idempotencyKey) hbas.attemptKeys ha
    rw [hkey] at hsel
    exact hsel
  have href : refundOf db a.id=some r :=
    find_unique hr (by simp [hatt]) fun r' hmem hid => eq_of_key_eq Refund.id hbas.refundIds hmem
      hr (hbas.once r' hmem r hr a.id (of_decide_eq_true hid) hatt)
  rw [keyRefund,hpri,Option.bind_some,href]

theorem Base.keyRefund_follow (hbas : Base editId name db) (hfol : Follows db next)
    (hkey : keyRefund db key=some r) : ∃ r', keyRefund next key=some r'∧r'.id=r.id := by
  obtain ⟨hr,a,ha,hnm,hatt⟩ := keyRefund_some hkey
  obtain ⟨a',ha',hpai⟩ := forall₂_image hfol.attempts ha
  obtain ⟨r',hr',heq⟩ := forall₂_image hfol.refunds hr
  exact ⟨r',Base.keyRefund_eq (hbas.follow hfol) ha' (hpai.key.trans hnm) hr'
    (by rw [heq.attemptId,hatt,hpai.id]),heq.id⟩

/-- Identifiers that are new stay new while tables move. -/
theorem Fresh.follow (hfre : Fresh db answer)
    (hfol : Follows db next) : Fresh next answer := by
  refine ⟨fun a' ha' => ?_,fun r' hr' => ?_⟩
  · obtain ⟨a,ha,hpai⟩ := forall₂_partner hfol.attempts ha'
    exact hpai.id ▸ hfre.attempt a ha
  · obtain ⟨r,hr,hpai⟩ := forall₂_partner hfol.refunds hr'
    exact hpai.id ▸ hfre.refund r hr

section Storing

section
variable (hbas : Base editId name db) (hfre : Fresh db answer)
variable (hsto : Stored w db key request payment answer stored)
include hbas hfre hsto

theorem Stored.refundOf_drawn (href : refundOf stored answer.attemptId=some r) : r=newRefund db request payment answer := by
  obtain ⟨hr,hatt⟩ := refundOf_some href
  rw [hsto.refunds] at hr
  rcases mem_append.mp hr with hold|hlt
  · obtain ⟨a,ha,hid⟩ := hbas.known r hold _ hatt
    exact absurd hid (hfre.attempt a ha)
  · exact mem_singleton.mp hlt

theorem Stored.requested_old (hr : r∈db.refunds) :
    RequestedFor name stored r ↔ RequestedFor name db r := by
  constructor
  · rintro ⟨a,ha,hatt,hkey⟩
    rw [hsto.attempts] at ha
    rcases mem_concat_iff.mp ha with hold|rfl
    · exact ⟨a,hold,hatt,hkey⟩
    · obtain ⟨old,hold,hid⟩ := hbas.known r hr _ hatt
      exact absurd hid (hfre.attempt old hold)
  · rintro ⟨a,ha,hatt,hkey⟩
    exact ⟨a,hsto.attempts ▸ mem_append_left _ ha,hatt,hkey⟩

end

/-- Rows of the other edits are untouched, the row of the edit at most gets its
new link. -/
theorem Stored.row (hsto : Stored w db key request payment answer stored)
    (hids : (db.edits.map EditRow.id).Nodup) {row' : EditRow} (hrow' : row'∈stored.edits) :
    row'∈db.edits∨∃ row∈db.edits, request.editId=some row.id ∧
      row' = {row with settlement := {row.settlement with refundId := some answer.refundId}} := by
  rcases hsto.edits with ⟨-,hedi⟩|⟨row,hrow,hed,-,hedi⟩
  · exact .inl (hedi ▸ hrow')
  rw [hedi] at hrow'
  rcases mem_updateWhere.mp hrow' with ⟨old,hold,hid,rfl⟩|⟨hkp,-⟩
  · have heq : old=row := eq_of_key_eq EditRow.id hids hold hrow (of_decide_eq_true hid)
    subst heq
    exact .inr ⟨old,hold,hed,rfl⟩
  · exact .inl hkp

theorem Stored.editIds (hsto : Stored w db key request payment answer stored) :
    stored.edits.map EditRow.id=db.edits.map EditRow.id := by
  rcases hsto.edits with ⟨-,hedi⟩|⟨row,-,-,-,hedi⟩
  · rw [hedi]
  · rw [hedi]
    exact map_updateWhere EditRow.id db.edits fun _ _ => rfl

variable {row : EditRow}

theorem findEdit_mem (hids : (db.edits.map EditRow.id).Nodup)
    (hrow : row∈db.edits) : findEdit db row.id=some row :=
  find_key_self EditRow.id hids hrow

theorem findEdit_some (hrow : findEdit db editId=some row) :
    row∈db.edits∧row.id=editId :=
  find_key_eq_some EditRow.id hrow

theorem Stored.findEdit (hsto : Stored w db key request payment answer stored)
    (hids : (db.edits.map EditRow.id).Nodup)
    (hrow : EditRefunds.findEdit db editId=some row) :
    ∃ row', EditRefunds.findEdit stored editId=some row'∧(row'=row ∨
        row' = {row with settlement := {row.settlement with refundId := some answer.refundId}}) := by
  obtain ⟨hmem,hid⟩ := findEdit_some hrow
  have hks : editId∈stored.edits.map EditRow.id :=
    hsto.editIds ▸ hid ▸ mem_map_of_mem hmem
  obtain ⟨row',hrow',hid'⟩ := mem_map.mp hks
  have hnod : (stored.edits.map EditRow.id).Nodup := hsto.editIds ▸ hids
  refine ⟨row',hid' ▸ findEdit_mem hnod hrow',?_⟩
  rcases hsto.row hids hrow' with hold|⟨old,hold,-,rfl⟩
  · exact .inl (eq_of_key_eq EditRow.id hids hold hmem (hid'.trans hid.symm))
  · have heq : old=row := eq_of_key_eq EditRow.id hids hold hmem (hid'.trans hid.symm)
    exact .inr (heq ▸ rfl)

/-- A new link leaves the facts of the row alone. -/
theorem OwnEdit.relink (hown : OwnEdit name row) (link : Option String) :
    OwnEdit name {row with settlement := {row.settlement with refundId := link}} :=
  ⟨hown.key,hown.balance,hown.amendment,hown.proposal⟩

/-- Storing a refund under a new key keeps keys and references. -/
theorem Base.store (hbas : Base editId name db) (hfre : Fresh db answer)
    (hpri : priorAttempt db key=none) (hed : ∀ id, request.editId=some id→id=editId)
    (hsto : Stored w db key request payment answer stored) : Base editId name stored where
  attemptIds := by
    rw [hsto.attempts]
    exact nodup_map_append (fun a : Attempt => a.id) hbas.attemptIds hfre.attempt
  attemptKeys := by
    rw [hsto.attempts]
    exact nodup_map_append (fun a : Attempt => a.idempotencyKey) hbas.attemptKeys
      (priorAttempt_none hpri)
  refundIds := by
    rw [hsto.refunds]
    exact nodup_map_append Refund.id hbas.refundIds hfre.refund
  once := by
    intro r hr r' hr' id hid hid'
    rw [hsto.refunds] at hr hr'
    have hdra : ∀ old∈db.refunds, old.attemptId≠some answer.attemptId := by
      intro old hold hatt
      obtain ⟨a,ha,haid⟩ := hbas.known old hold _ hatt
      exact hfre.attempt a ha haid
    rcases mem_concat_iff.mp hr with hold|rfl
    · rcases mem_append.mp hr' with hold'|hlt'
      · exact hbas.once r hold r' hold' id hid hid'
      · cases mem_singleton.mp hlt'
        exact absurd (hid.trans hid'.symm) (hdra r hold)
    · rcases mem_append.mp hr' with hold'|hlt'
      · exact absurd (hid'.trans hid.symm) (hdra r' hold')
      · cases mem_singleton.mp hlt'
        rfl
  known := by
    intro r hr id hid
    rw [hsto.refunds] at hr
    rw [hsto.attempts]
    rcases mem_concat_iff.mp hr with hold|rfl
    · obtain ⟨a,ha,haid⟩ := hbas.known r hold id hid
      exact ⟨a,mem_append_left _ ha,haid⟩
    · exact ⟨_,mem_concat_self,Option.some.inj hid⟩
  editIds := hsto.editIds ▸ hbas.editIds
  own := by
    obtain ⟨row,hrow,hown⟩ := hbas.own
    obtain ⟨row',hrow',hsh⟩ := hsto.findEdit hbas.editIds hrow
    rcases hsh with rfl|rfl
    · exact ⟨row',hrow',hown⟩
    · exact ⟨_,hrow',OwnEdit.relink hown _⟩
  others := by
    intro row' hrow' hid link hlnk
    rcases hsto.row hbas.editIds hrow' with hold|⟨row,-,hreq,rfl⟩
    · obtain ⟨r,hr,hrid,hrequ⟩ := hbas.others row' hold hid link hlnk
      exact ⟨r,hsto.refunds ▸ mem_append_left _ hr,hrid,fun h =>
        hrequ ((hsto.requested_old hbas hfre hr).mp h)⟩
    · exact absurd (hed _ hreq) hid

end Storing

theorem requestRefund_requested (hbas : Base editId name db) (hfre : Fresh db answer)
    (hed : ∀ id, request.editId=some id→id=editId) :
    Requested w db key request answer (requestRefund w db key request answer) := by
  unfold requestRefund
  cases hck : checkRequest key request with
  | error failure => exact .refused failure
  | ok =>
    simp only
    cases hqua : db.order.reconciliationRequired with
    | true => exact .refused _
    | false =>
      cases hpen : checkNoPendingEdit db request with
      | error failure => exact .refused failure
      | ok =>
        simp only
        cases hpri : priorAttempt db key with
        | some prior =>
          simp only
          cases hrep : replayRequest w db request prior with
          | error failure => exact .refused failure
          | ok replay =>
            unfold replayRequest at hrep
            split at hrep
            · cases hrep
            · cases href : refundOf db prior.id with
              | none => simp [href,refuseRefund] at hrep
              | some found =>
                simp only [href] at hrep
                have hkey : keyRefund db key=some found := by
                  rw [keyRefund,hpri,Option.bind_some,href]
                split_ifs at hrep with hset
                · cases hfin : finalizeRefund w db prior.id .settled found.providerRef with
                  | error => simp [hfin,Except.map] at hrep
                  | ok =>
                    simp only [hfin,Except.map] at hrep
                    cases hrep
                    refine .replayed hkey
                      (finalizeRefund_follows hbas.refundIds hbas.editIds ?_ hfin)
                    intro other hot hfai
                    rw [href] at hot
                    cases hot
                    rw [hset] at hfai
                    cases hfai
                · cases hrep
                  exact .replayed hkey (.refl db)
        | none =>
          simp only
          cases hpl : planRefund w db request with
          | error failure => exact .refused failure
          | ok payment =>
            simp only
            cases hstore : storeRefund w db key request payment answer with
            | error failure => exact .refused failure
            | ok stored =>
              simp only
              have hsto := storeRefund_stored hfre hstore
              have hnx := Base.store hbas hfre hpri hed hsto
              cases hfina : answer.finalizes with
              | false => exact Requested.created hpri hsto (Follows.refl stored) (.inl ⟨_,rfl⟩)
              | true =>
                cases hfin : finalizeRefund w stored answer.attemptId answer.state
                    answer.providerRef with
                | error failure =>
                  exact .created hpri hsto (.refl stored) (.inl ⟨_,rfl⟩)
                | ok written =>
                  refine .created hpri hsto
                    (finalizeRefund_follows hnx.refundIds hnx.editIds ?_ hfin) (.inr rfl)
                  intro other hot hfai
                  rw [hsto.refundOf_drawn hbas hfre hot] at hfai
                  cases hfai

/-- The settlement keeps its way of settling and its phase while a request is
answered. -/
theorem liveEditSettlement_kept (db : EditStore) (settlement : SettlementOutcome) :
    (liveEditSettlement db settlement).type=settlement.type ∧
      (liveEditSettlement db settlement).phase=settlement.phase ∧
      (liveEditSettlement db settlement).refundId=settlement.refundId ∧
      (liveEditSettlement db settlement).paymentId=settlement.paymentId := by
  unfold liveEditSettlement
  split
  · exact ⟨rfl,rfl,rfl,rfl⟩
  unfold applyLiveRefundState
  split
  · exact ⟨rfl,rfl,rfl,rfl⟩
  · split
    · exact ⟨rfl,rfl,rfl,rfl⟩
    · split <;> exact ⟨rfl,rfl,rfl,rfl⟩

/-- The settlement after a request is linked to the refund of the key, or
keeps its link when there is none. -/
theorem settlementAfter_link (answer : RefundAnswer) (key : String) (out : SettlementOutcome)
    (declined : String) : (settlementAfter answer key out declined).type=out.type ∧
      (settlementAfter answer key out declined).phase=out.phase ∧
      (settlementAfter answer key out declined).refundId = match answer.reply with
        | .ok refund => some refund.id
        | .error _ => ((keyRefund answer.store key).map Refund.id).or out.refundId := by
  unfold settlementAfter
  cases answer.reply with
  | ok => exact ⟨rfl,rfl,rfl⟩
  | error failure =>
    simp only [recoverEditRefundSettlement]
    cases hkey : keyRefund answer.store key with
    | none =>
      rw [keyRefund] at hkey
      rw [hkey]
      exact ⟨rfl,rfl,rfl⟩
    | some refund =>
      rw [keyRefund] at hkey
      rw [hkey]
      obtain ⟨htyp,hph,hlnk,-⟩ := liveEditSettlement_kept answer.store {out with
          status := .failed
          message := some (failureMessage failure)
          refundId := some refund.id}
      exact ⟨htyp,hph,hlnk⟩

theorem mergeSettlement_kept (out stored : SettlementOutcome) :
    (mergeSettlement out stored).refundId =
        (if stored.phase=none then out.refundId else out.refundId.or stored.refundId) ∧
      (mergeSettlement out stored).type=(if stored.phase=none then out.type else stored.type) ∧
      (mergeSettlement out stored).phase=(if stored.phase=none then out.phase else stored.phase) := by
  unfold mergeSettlement
  split <;> exact ⟨rfl,rfl,rfl⟩

variable {f : EditRow → EditRow}

theorem findEdit_updated (next : EditStore) (hid : ∀ old, (f old).id=old.id)
    (hedi : next.edits=updateWhere (fun old => decide (old.id=editId)) f db.edits)
    {row : EditRow} (hrow : findEdit db editId=some row) : findEdit next editId=some (f row) := by
  rw [findEdit] at hrow
  rw [findEdit,hedi,find_key_updateWhere EditRow.id editId editId hid,hrow,if_pos rfl]
  rfl

theorem Base.rewrite (hbas : Base editId name db)
    {row : EditRow} (hrow : findEdit db editId=some row)
    (hid : ∀ old, (f old).id=old.id) (hown : OwnEdit name (f row)) : Base editId name
        {db with edits := updateWhere (fun old => decide (old.id=editId)) f db.edits} ∧
      findEdit {db with edits := updateWhere (fun old => decide (old.id=editId)) f db.edits}
        editId=some (f row) := by
  have hfd : findEdit
      {db with edits := updateWhere (fun old => decide (old.id=editId)) f db.edits} editId =
        some (f row) := findEdit_updated _ hid rfl hrow
  refine ⟨?_,hfd⟩
  have hids : (updateWhere (fun old => decide (old.id=editId)) f db.edits).map EditRow.id =
      db.edits.map EditRow.id := map_updateWhere EditRow.id db.edits fun old _ => hid old
  refine {hbas with editIds := hids ▸ hbas.editIds,own := ⟨_,hfd,hown⟩,others := ?_}
  intro other hot hot' link hlnk
  rcases mem_updateWhere.mp hot with ⟨old,-,hmt,rfl⟩|⟨hkp,-⟩
  · exact absurd ((hid old).trans (of_decide_eq_true hmt)) hot'
  · exact hbas.others other hkp hot' link hlnk

theorem recordSettlement_linked (action : String) (hbas : Base editId name db) {row : EditRow}
    (hrow : findEdit db editId=some row)
    (hown : OwnEdit name {row with settlement := mergeSettlement out row.settlement})
    (hlnk : LinkFor name db (mergeSettlement out row.settlement).refundId) :
    Linked editId name (recordSettlement db editId out action) ∧
      findEdit (recordSettlement db editId out action) editId =
        some {row with settlement := mergeSettlement out row.settlement} := by
  obtain ⟨hsto,hfd⟩ := Base.rewrite hbas hrow
    (f := fun old : EditRow => {old with settlement := mergeSettlement out row.settlement})
    (fun _ => rfl) hown
  unfold recordSettlement
  rw [hrow]
  refine ⟨⟨{hsto with},?_⟩,hfd⟩
  intro row' hrow'
  have heq : row' = {row with settlement := mergeSettlement out row.settlement} :=
    Option.some.inj (hrow'.symm.trans hfd)
  subst heq
  exact ⟨hlnk.named,hlnk.live⟩

/-- No refund of the edit may still return money. -/
def AllFailed (name : String) (db : EditStore) : Prop :=
  ∀ r∈db.refunds, RequestedFor name db r → r.state=.failed

/-- When a refund may be asked for under a key: every refund of the edit
failed, or the linked one is the refund of the key, or the edit is staged, its
linked refund did not fail and the key is new. -/
inductive MayAsk (editId name key : String) (db : EditStore) (request : EditRefundRequest)
    (link : Option String) : Prop
  | failed (hfailed : AllFailed name db)
  | linked {r : Refund} (hkey : keyRefund db key=some r) (hlink : link=some r.id)
  | guarded {r : Refund} (hprior : priorAttempt db key=none) (hedit : request.editId=some editId)
      (hr : r∈db.refunds) (hlink : link=some r.id) (hlive : r.state≠.failed)

theorem AllFailed.linkFor (hfai : AllFailed name db) {link : Option String}
    (hnm : ∀ id, link=some id→∃ r∈db.refunds, r.id=id∧RequestedFor name db r) :
    LinkFor name db link :=
  ⟨hnm,fun r hr hreq hlv => absurd (hfai r hr hreq) hlv⟩

theorem keyRefund_requested
    (hnm : IsEditKey name ("refund:" ++ key)) (hkey : keyRefund db key=some r) :
    RequestedFor name db r := by
  obtain ⟨-,a,ha,hatt,hid⟩ := keyRefund_some hkey
  exact ⟨a,ha,hid,hatt ▸ hnm⟩

theorem viewOf_id (db : EditStore) (refund : Refund) : (viewOf db refund).id=refund.id := by
  unfold viewOf
  cases hfd : findRefund db (some refund.id) with
  | none => rfl
  | some =>
    have hid := List.find?_some hfd
    simpa using hid

/-- A linked refund that did not fail keeps a staged edit from another one. -/
theorem Stored.not_guarded (hbas : Base editId name db) (hfre : Fresh db answer)
    (hsto : Stored w db key request payment answer stored) {row : EditRow}
    (hrow : EditRefunds.findEdit db editId=some row) (hed : request.editId=some editId)
    (hr : r∈db.refunds) (hlnk : row.settlement.refundId=some r.id) :
    r.state=.failed := by
  obtain ⟨hmem,hid⟩ := findEdit_some hrow
  rcases hsto.edits with ⟨hno,-⟩|⟨bound,hbou,hreq,hrep,-⟩
  · rw [hno] at hed
    cases hed
  have heq : bound=row := eq_of_key_eq EditRow.id hbas.editIds hbou hmem
    ((Option.some.inj (hreq.symm.trans hed)).trans hid.symm)
  subst heq
  unfold refundReplaceable at hrep
  simp only [hlnk] at hrep
  have hnew : r.id≠(newRefund db request payment answer).id := hfre.refund r hr
  have hfd : findRefund {db with
        attempts := db.attempts++[newAttempt w db key request payment answer]
        refunds := db.refunds++[newRefund db request payment answer]} (some r.id)=some r := by
    have hids : ((db.refunds++[newRefund db request payment answer]).map Refund.id).Nodup :=
      nodup_map_append Refund.id hbas.refundIds hfre.refund
    have hsel := find_key_self Refund.id hids
      (mem_append_left [newRefund db request payment answer] hr)
    simpa [findRefund] using hsel
  rw [hfd] at hrep
  simpa [hnew] using hrep

theorem OwnEdit.merge {row : EditRow} (hown : OwnEdit name row)
    (htyp : row.settlement.type=.refundNow) (out : SettlementOutcome) :
    OwnEdit name {row with settlement := mergeSettlement out row.settlement} := by
  refine ⟨hown.key,hown.balance,fun hame => ?_,fun proposal hpro => ?_⟩
  · exact absurd htyp (hown.amendment hame).2
  obtain ⟨href,hph⟩ := hown.proposal proposal hpro
  refine ⟨href,?_⟩
  rw [show ({row with settlement := mergeSettlement out row.settlement} : EditRow).settlement.phase
    = (if row.settlement.phase=none then out.phase else row.settlement.phase) from
    (mergeSettlement_kept out row.settlement).2.2,if_neg hph]
  exact hph

/-- The merged link is the new one, where there is one. -/
theorem mergeSettlement_link_some (stored : SettlementOutcome) {id : String}
    (hout : out.refundId=some id) : (mergeSettlement out stored).refundId=some id := by
  rw [(mergeSettlement_kept out stored).1,hout]
  split <;> rfl

theorem mergeSettlement_link_same {stored : SettlementOutcome}
    (hout : out.refundId=stored.refundId) :
    (mergeSettlement out stored).refundId=stored.refundId := by
  rw [(mergeSettlement_kept out stored).1,hout]
  split
  · rfl
  · cases stored.refundId <;> rfl

section Driving

variable {declined action : String}
variable {row : EditRow}

section
variable (hlin : Linked editId name db)
include hlin

section
variable (hrow : findEdit db editId=some row)
include hrow

theorem Linked.requested (hr : r∈db.refunds) (hlnk : row.settlement.refundId=some r.id) :
    RequestedFor name db r := by
  obtain ⟨r',hr',hid,hreq⟩ := (hlin.link row hrow).named r.id hlnk
  rwa [eq_of_key_eq Refund.id hlin.refundIds hr' hr hid] at hreq

section
variable (hnm : IsEditKey name ("refund:" ++ key))
variable (hmay : MayAsk editId name key db request row.settlement.refundId)
include hnm hmay

/-- Where nothing was written the link stays, or moves among failed refunds. -/
theorem link_refused {merged : SettlementOutcome}
    (hmer : merged.refundId=((keyRefund db key).map Refund.id).or row.settlement.refundId) :
    LinkFor name db merged.refundId := by
  have hlnk := hlin.link row hrow
  cases hmay with
  | failed hfai =>
    refine hfai.linkFor fun id hid => ?_
    rw [hmer] at hid
    cases hkey : keyRefund db key with
    | none =>
      rw [hkey] at hid
      exact hlnk.named id hid
    | some r =>
      rw [hkey] at hid
      cases hid
      exact ⟨r,(keyRefund_some hkey).1,rfl,keyRefund_requested hnm hkey⟩
  | linked hkey heq =>
    rw [hmer,hkey,Option.map_some,Option.some_or,← heq]
    exact hlnk
  | guarded hpri =>
    have hkey : keyRefund db key=none := by rw [keyRefund,hpri,Option.bind_none]
    rw [hmer,hkey,Option.map_none,Option.none_or]
    exact hlnk

theorem link_replayed {refund : Refund}
    (hkey : keyRefund db key=some refund) (hfol : Follows db next) :
    LinkFor name next (some refund.id) := by
  cases hmay with
  | failed hfai =>
    have hlnk : LinkFor name db (some refund.id) := by
      refine hfai.linkFor fun id hid => ?_
      cases hid
      exact ⟨refund,(keyRefund_some hkey).1,rfl,keyRefund_requested hnm hkey⟩
    exact hlnk.follow hfol
  | linked hot heq =>
    cases hkey.symm.trans hot
    rw [← heq]
    exact (hlin.link row hrow).follow hfol
  | guarded hpri =>
    rw [keyRefund,hpri] at hkey
    cases hkey

end

section
variable (hfre : Fresh db answer) (hnm : IsEditKey name ("refund:" ++ key))
include hfre hnm

theorem link_created (hmay : MayAsk editId name key db request row.settlement.refundId)
    (hpri : priorAttempt db key=none)
    (hsto : Stored w db key request payment answer stored) (hfol : Follows stored next) :
    AllFailed name db∧LinkFor name next (some answer.refundId) := by
  have hfai : AllFailed name db := by
    cases hmay with
    | failed hfai => exact hfai
    | linked hkey =>
      rw [keyRefund,hpri] at hkey
      cases hkey
    | guarded _ hed hr hlnk hlv =>
      exact absurd (hsto.not_guarded hlin.toBase hfre hrow hed hr hlnk) hlv
  have hnew : newRefund db request payment answer∈stored.refunds := by
    rw [hsto.refunds]
    exact mem_concat_self
  have hreq : RequestedFor name stored (newRefund db request payment answer) := by
    refine ⟨newAttempt w db key request payment answer,?_,rfl,hnm⟩
    rw [hsto.attempts]
    exact mem_concat_self
  refine ⟨hfai,?_⟩
  have hlnk : LinkFor name stored (some answer.refundId) := by
    refine ⟨fun id hid => ?_,fun r hr hfor hlv => ?_⟩
    · cases hid
      exact ⟨_,hnew,rfl,hreq⟩
    rw [hsto.refunds] at hr
    rcases mem_concat_iff.mp hr with hold|rfl
    · have hbef := (hsto.requested_old hlin.toBase hfre hold).mp hfor
      exact absurd (hfai r hold hbef) hlv
    · rfl
  exact hlnk.follow hfol

/-- Asking for the refund of an edit keeps the edit linked to its only live
refund, and keeps a link to a live refund. -/
theorem driveRefund_linked (hed : ∀ id, request.editId=some id→id=editId)
    (htyp : row.settlement.type=.refundNow) (hout : out.refundId=row.settlement.refundId)
    (hmay : MayAsk editId name key db request row.settlement.refundId) :
    Linked editId name (driveRefund w db row key out request declined action answer) ∧
      ∃ row', findEdit (driveRefund w db row key out request declined action answer) editId =
          some row'∧∀ r∈db.refunds, row.settlement.refundId=some r.id → r.state≠.failed →
          row'.settlement.refundId=some r.id := by
  have hid := (findEdit_some hrow).2
  have hdd : AllFailed name db→∀ r∈db.refunds, row.settlement.refundId=some r.id →
      r.state=.failed := fun hfai r hr hlnk =>
    hfai r hr (Linked.requested hlin hrow hr hlnk)
  obtain ⟨own,hown,hfac⟩ := hlin.own
  cases hrow.symm.trans hown
  have hreq : Requested w db key request answer (requestRefund w db key request answer) :=
    requestRefund_requested hlin.toBase hfre hed
  simp only [driveRefund,hid]
  generalize requestRefund w db key request answer=requested at hreq
  cases hreq with
  | refused failure =>
    obtain ⟨-,-,haft⟩ := settlementAfter_link ⟨.error failure,db⟩ key out declined
    generalize settlementAfter ⟨.error failure,db⟩ key out declined=after at haft ⊢
    simp only [hout] at haft
    have hmer : (mergeSettlement after row.settlement).refundId =
        ((keyRefund db key).map Refund.id).or row.settlement.refundId := by
      cases hkey : keyRefund db key with
      | none =>
        rw [hkey] at haft
        exact mergeSettlement_link_same haft
      | some =>
        rw [hkey] at haft
        exact mergeSettlement_link_some row.settlement haft
    obtain ⟨hnx,hfd⟩ := recordSettlement_linked action hlin.toBase hrow
      (OwnEdit.merge hfac htyp after) (link_refused hlin hrow hnm hmay hmer)
    refine ⟨hnx,_,hfd,fun r hr hlnk hlv => ?_⟩
    rw [hmer]
    cases hmay with
    | failed hfai => exact absurd (hdd hfai r hr hlnk) hlv
    | linked hkey heq => rw [hkey,Option.map_some,Option.some_or,← heq,hlnk]
    | guarded hpri => rw [keyRefund,hpri,Option.bind_none,Option.map_none,Option.none_or,hlnk]
  | @replayed refund next hkey hfol =>
    obtain ⟨-,-,haft⟩ := settlementAfter_link ⟨.ok (viewOf next refund),next⟩ key out declined
    generalize settlementAfter ⟨.ok (viewOf next refund),next⟩ key out declined=after at haft ⊢
    simp only [viewOf_id] at haft
    obtain ⟨row',hrow',heq⟩ := hfol.findEdit_some hrow
    have hmer := mergeSettlement_link_some row'.settlement haft
    obtain ⟨hnx,hfd⟩ := recordSettlement_linked action (hlin.toBase.follow hfol) hrow'
      (OwnEdit.merge (hfac.same heq) (heq.type.trans htyp) after)
      (hmer ▸ link_replayed hlin hrow hnm hmay hkey hfol)
    refine ⟨hnx,_,hfd,fun r hr hlnk hlv => ?_⟩
    rw [hmer]
    cases hmay with
    | failed hfai => exact absurd (hdd hfai r hr hlnk) hlv
    | linked hot hlinkr =>
      cases hkey.symm.trans hot
      rw [← hlinkr,hlnk]
    | guarded hpri =>
      rw [keyRefund,hpri] at hkey
      cases hkey
  | @created payment stored next reply hpri hsto hfol hrep =>
    obtain ⟨hfai,hlinknew⟩ := link_created hlin hrow hfre hnm hmay hpri hsto hfol
    have hstor := Base.store hlin.toBase hfre hpri hed hsto
    obtain ⟨-,-,haft⟩ := settlementAfter_link ⟨reply,next⟩ key out declined
    generalize settlementAfter ⟨reply,next⟩ key out declined=after at haft ⊢
    have hnew : after.refundId=some answer.refundId := by
      rcases hrep with ⟨failure,rfl⟩|rfl
      · have hkey : keyRefund stored key=some (newRefund db request payment answer) :=
          Base.keyRefund_eq hstor (a := newAttempt w db key request payment answer)
            (by rw [hsto.attempts]; exact mem_concat_self) rfl
            (by rw [hsto.refunds]; exact mem_concat_self) rfl
        obtain ⟨r',hr',hrid⟩ := Base.keyRefund_follow hstor hfol hkey
        rw [haft]
        rw [hr',Option.map_some,Option.some_or,hrid]
        rfl
      · rw [haft]
        change some (viewOf next (newRefund db request payment answer)).id=some answer.refundId
        rw [viewOf_id]
        rfl
    obtain ⟨row',hrow',hsh⟩ := hsto.findEdit hlin.editIds hrow
    have hfac' : OwnEdit name row'∧row'.settlement.type=.refundNow := by
      rcases hsh with rfl|rfl
      · exact ⟨hfac,htyp⟩
      · exact ⟨OwnEdit.relink hfac _,htyp⟩
    obtain ⟨final,hfin,heq⟩ := hfol.findEdit_some hrow'
    have hmer := mergeSettlement_link_some final.settlement hnew
    obtain ⟨hnx,hfd⟩ := recordSettlement_linked action (hstor.follow hfol) hfin
      (OwnEdit.merge (hfac'.1.same heq) (heq.type.trans hfac'.2) after) (hmer ▸ hlinknew)
    exact ⟨hnx,_,hfd,fun r hr hlnk hlv => absurd (hdd hfai r hr hlnk) hlv⟩

end

end

end

end Driving

end SellRight.EditRefundDriving
