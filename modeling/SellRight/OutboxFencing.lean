import SellRight.OutboxClaims
import SellRight.RunHistory

/-!
# Outbox claims are fenced

Passes, resets and finalizers of all outboxes in any order. A row in progress
belongs to its last claim, so a finalizer whose claim was taken back meets
another state or another number of claims and changes nothing.
-/

namespace SellRight.OutboxFencing

open OutboxClaims RowTable RunHistory List

/-- One transaction on the outboxes. -/
inductive Action where
  | email (id kind recipient payload : String) (key : Option String) (now : ℤ)
  | event (drawn : List String) (topic payload : String) (now : ℤ)
  | push (drawn : List String) (devices : List (String×String)) (topic payload : String) (now : ℤ)
  | claimWebhooks (cutoff now : ℤ) (locked : List String)
  | claimEmails (now : ℤ) (limit : ℕ) (locked : List String)
  | claimPushes (now : ℤ) (limit : ℕ) (locked : List String)
  | reap (now : ℤ) (graceMin batchLimit : ℕ) (locked : List String)
  | finalizeWebhook (claim : Claimed) (outcome : Outcome) (now : ℤ)
  | finalizeEmail (claim : Claimed) (outcome : Outcome) (drawn : List String) (now : ℤ)
  | finalizePush (claim : Claimed) (outcome : PushOutcome) (now : ℤ)

/-- Answer of a transaction. -/
structure Answer where
  claims : List Claimed
  resets : List String
  finalized : Option Finalized

/-- Execute one transaction. -/
def step (db : Store) : Action → Answer×Store
  | .email id kind recipient payload key now =>
    (⟨[],[],none⟩,enqueueEmail db id kind recipient payload key now)
  | .event drawn topic payload now => (⟨[],[],none⟩,emitEvent db drawn topic payload now)
  | .push drawn devices topic payload now =>
    (⟨[],[],none⟩,enqueuePush db drawn devices topic payload now)
  | .claimWebhooks cutoff now locked =>
    let answer := claimDueWebhooks db cutoff now locked
    (⟨answer.1,[],none⟩,answer.2)
  | .claimEmails now limit locked =>
    let answer := claimDueEmails db now limit locked
    (⟨answer.1,[],none⟩,answer.2)
  | .claimPushes now limit locked =>
    let answer := claimDuePushes db now limit locked
    (⟨answer.1,[],none⟩,answer.2)
  | .reap now graceMin batchLimit locked =>
    let answer := reapStuckWebhooks db now graceMin batchLimit locked
    (⟨[],answer.1,none⟩,answer.2)
  | .finalizeWebhook claim outcome now =>
    let answer := finalizeWebhookDelivery db claim outcome now
    (⟨[],[],some answer.1⟩,answer.2)
  | .finalizeEmail claim outcome drawn now =>
    let answer := finalizeEmail db claim outcome drawn now
    (⟨[],[],some answer.1⟩,answer.2)
  | .finalizePush claim outcome now =>
    let answer := finalizePush db claim outcome now
    (⟨[],[],some answer.1⟩,answer.2)

/-- One executed transaction. -/
abbrev Past := List (Event Store Action Answer)

/-- Identifiers that a transaction draws for new rows of an outbox. -/
def drawnIds : Action → Outbox → List String
  | .email id _ _ _ _ _, .email => [id]
  | .event drawn _ _ _, .webhook => drawn
  | .push drawn _ _ _ _, .push => drawn
  | .finalizeEmail _ _ drawn _, .webhook => drawn
  | _, _ => []

/-- Claim a finalizer works for, with the outbox it belongs to. -/
def finalizes : Action → Option (Claimed×Outbox)
  | .finalizeWebhook claim _ _ => some (claim,.webhook)
  | .finalizeEmail claim _ _ _ => some (claim,.email)
  | .finalizePush claim _ _ => some (claim,.push)
  | _ => none

/-- Drawn identifiers are new, and a finalizer works for a claim that was
handed out, at any time afterwards. -/
def Admissible (h : Past) (db : Store) (action : Action) : Prop :=
  (∀ box, (drawnIds action box).Nodup∧∀ id∈drawnIds action box, ∀ row∈table db box, row.id≠id) ∧
  ∀ claim box, finalizes action=some (claim,box)→claim.box=box∧∃ e∈h, claim∈e.result.claims

/-- The outboxes hold rows that were enqueued and nothing else. -/
structure Opening (db : Store) : Prop where
  ids : ∀ box, ((table db box).map Row.id).Nodup
  waiting : ∀ box, ∀ row∈table db box, row.status=.pending∧row.attempts=0
  silent : db.audit=[]∧db.events=[]

variable (box : Outbox)

/-- A transaction claims or resets a row. -/
def Takes (id : String) (e : Event Store Action Answer) : Prop :=
  (∃ claim∈e.result.claims, claim.box=box∧claim.id=id)∨(box=.webhook∧id∈e.result.resets)

/-- A transaction hands out the claim of a row at a number of claims. -/
def Hands (id : String) (attempts : ℕ) (e : Event Store Action Answer) : Prop :=
  ∃ claim∈e.result.claims, claim.box=box∧claim.id=id∧claim.attempts=attempts

/-- What one transaction does to the table of an outbox, given the claims it
hands out and the rows it resets there. -/
inductive Change (box : Outbox) (rows : List Row) (claims : List Claimed) (resets : List String) :
    List Row → Prop
  | appended (added : List Row) (hclaims : claims=[]) (hresets : resets=[])
      (hids : (added.map Row.id).Nodup)
      (hnew : ∀ row∈added, row.status=.pending∧row.attempts=0∧∀ old∈rows, old.id≠row.id) :
      Change box rows claims resets (rows++added)
  | claimed (picked : List String) (now : ℤ) (hresets : resets=[])
      (hlive : ∀ row∈rows, row.id∈picked → row.status.finished=false)
      (hclaims : claims=((updateWhere (fun row => decide (row.id∈picked)) (claimRow now)
        rows).filter fun row => decide (row.id∈picked)).map fun row =>
          ⟨box,row.id,row.content,row.attempts⟩) :
      Change box rows claims resets
        (updateWhere (fun row => decide (row.id∈picked)) (claimRow now) rows)
  | reset (now : ℤ) (note : String) (hclaims : claims=[])
      (hlive : ∀ row∈rows, row.id∈resets → row.status=.processing) :
      Change box rows claims resets
        (updateWhere (fun row => decide (row.id∈resets)) (resetRow now note) rows)
  | finished (claim : Claimed) (f : Row → Row) (hclaims : claims=[]) (hresets : resets=[])
      (hkept : ∀ row, (f row).id=row.id∧(f row).attempts=row.attempts ∧
        (f row).status≠.processing) :
      Change box rows claims resets (updateWhere (fence claim) f rows)

def claimsOf (answer : Answer) : List Claimed :=
  answer.claims.filter fun claim => decide (claim.box=box)

def resetsOf (answer : Answer) : List String :=
  if box=.webhook then answer.resets else []

/-- A table that is left alone. -/
theorem Change.same (rows : List Row) : Change box rows [] [] rows := by
  have happ : Change box rows [] [] (rows++[]) :=
    Change.appended [] rfl rfl nodup_nil fun row hrow => absurd hrow not_mem_nil
  simpa using happ

variable {row : Row} {db : Store} {f : Row → Row} {h : Past} {action : Action}

theorem takeDue_eligible {eligible : Row → Bool} {order : Row → Row → Prop} [DecidableRel order]
    {limit : ℕ} {locked : List String} {rows : List Row} (hids : (rows.map Row.id).Nodup)
    (hrow : row∈rows) (hpic : row.id∈takeDue eligible order limit locked rows) :
    eligible row=true := by
  obtain ⟨other,hot,hid⟩ := mem_map.mp hpic
  have hsor := mem_of_mem_take hot
  rw [mem_insertionSort] at hsor
  obtain ⟨hmem,heli⟩ := mem_filter.mp hsor
  rw [eq_of_key_eq Row.id hids hmem hrow hid] at heli
  exact (Bool.and_eq_true_iff.mp heli).1

theorem due_unfinished (now : ℤ) (hdue : (duePending now row||staleClaim now row)=true) :
    row.status.finished=false := by
  rcases Bool.or_eq_true_iff.mp hdue with h|h
  · have hsta : row.status=.pending := by
      have := (Bool.and_eq_true_iff.mp h).1
      exact of_decide_eq_true this
    simp [Status.finished,hsta]
  · have hsta : row.status=.processing := of_decide_eq_true (Bool.and_eq_true_iff.mp h).1
    simp [Status.finished,hsta]

/-- First parts of a zipped list, in order. -/
theorem zip_fst_sublist {α β : Type} (xs : List α) (ys : List β) :
    ((xs.zip ys).map Prod.fst).Sublist xs := by
  induction xs generalizing ys with
  | nil => exact List.Sublist.slnil
  | cons x _ ih =>
    cases ys with
    | nil => exact nil_sublist _
    | cons _ ys => exact (ih ys).cons_cons x

theorem Change.newRows {ι : Type} {box : Outbox} {rows : List Row} {drawn : List String}
    (targets : List ι) (content : ι → Content) (now : ℤ) (hdra : drawn.Nodup)
    (hnew : ∀ id∈drawn, ∀ row∈rows, row.id≠id) :
    Change box rows [] [] (rows++(drawn.zip targets).map fun entry =>
      newRow entry.1 (content entry.2) now) := by
  refine .appended _ rfl rfl ?_ ?_
  · rw [map_map]
    exact hdra.sublist (zip_fst_sublist drawn targets)
  · intro row hrow
    obtain ⟨entry,hent,rfl⟩ := mem_map.mp hrow
    exact ⟨rfl,rfl,hnew entry.1 (of_mem_zip hent).1⟩

theorem emitEvent_change {drawn : List String} {topic payload : String} {now : ℤ}
    (hdra : drawn.Nodup) (hnew : ∀ id∈drawn, ∀ row∈db.webhooks, row.id≠id) (box : Outbox) :
    Change box (table db box) [] [] (table (emitEvent db drawn topic payload now) box) := by
  cases box with
  | webhook => exact .newRows _ (fun e : Endpoint => .webhook e.id topic payload) now hdra hnew
  | email | push => exact .same _ _

/-- A finalizer only touches the row of its claim. -/
theorem finishRow_change {claim : Claimed}
    (hkp : ∀ row, (f row).id=row.id∧(f row).attempts=row.attempts ∧
      (f row).status≠.processing) (box : Outbox) :
    Change box (table db box) [] [] (table (finishRow db claim f) box) := by
  unfold finishRow
  by_cases hbox : box=claim.box
  · subst hbox
    rw [table_setTable_self]
    exact .finished claim f rfl rfl hkp
  · rw [table_setTable_other db _ hbox]
    exact .same _ _

theorem claimPicked_change (db : Store) (own : Outbox) (picked : List String) (now : ℤ)
    (hlv : ∀ row∈table db own, row.id∈picked → row.status.finished=false) (box : Outbox) :
    Change box (table db box) (claimsOf box ⟨(claimPicked db own picked now).1,[],none⟩) []
      (table (claimPicked db own picked now).2 box) := by
  have hboxes : ∀ claim∈(claimPicked db own picked now).1, claim.box=own := by
    intro claim hcl
    obtain ⟨row,-,rfl⟩ := mem_map.mp hcl
    rfl
  by_cases hbox : box=own
  · subst hbox
    have hall : claimsOf box ⟨(claimPicked db box picked now).1,[],none⟩ =
        (claimPicked db box picked now).1 :=
      filter_eq_self.mpr fun claim hcl => decide_eq_true (hboxes claim hcl)
    rw [hall]
    unfold claimPicked
    simp only [table_setTable_self]
    exact .claimed picked now rfl hlv rfl
  · have hno : claimsOf box ⟨(claimPicked db own picked now).1,[],none⟩=[] :=
      filter_eq_nil_iff.mpr fun claim hcl => by
        rw [hboxes claim hcl]
        simpa using fun h => hbox h.symm
    rw [hno]
    unfold claimPicked
    simp only [table_setTable_other db _ hbox]
    exact .same _ _

theorem completeRow_kept (now : ℤ) (row : Row) :
    (completeRow box now row).id=row.id∧(completeRow box now row).attempts=row.attempts ∧
      (completeRow box now row).status≠.processing := by
  refine ⟨rfl,rfl,?_⟩
  unfold completeRow
  split <;> simp

theorem failRow_kept (claim : Claimed) (error : String) (now : ℤ) (row : Row) :
    (failRow claim error now row).id=row.id∧(failRow claim error now row).attempts=row.attempts ∧
      (failRow claim error now row).status≠.processing := by
  refine ⟨rfl,rfl,?_⟩
  unfold failRow
  split
  · cases claim.box <;> simp [gaveUp]
  · simp

theorem dropRow_kept (error : String) (now : ℤ) (row : Row) :
    (dropRow error now row).id=row.id∧(dropRow error now row).attempts=row.attempts ∧
      (dropRow error now row).status≠.processing :=
  ⟨rfl,rfl,by simp [dropRow]⟩

/-- Claim a finalizer reports a retryable failure for. -/
def reportsFailure : Action → Option Claimed
  | .finalizeWebhook claim (.failed _) _ => some claim
  | .finalizeEmail claim (.failed _) _ _ => some claim
  | .finalizePush claim (.failed _) _ => some claim
  | _ => none

theorem failRow_finished (claim : Claimed) (error : String) (now : ℤ) (row : Row) :
    (failRow claim error now row).status.finished=true ↔ maxAttempts claim.box≤claim.attempts := by
  unfold failRow
  by_cases hlt : maxAttempts claim.box≤claim.attempts
  · simp only [hlt,iff_true]
    cases claim.box <;> rfl
  · simp [hlt,Status.finished]

/-- A finalizer rewrites at most the row of its claim; an e-mail that is given
up is announced as well. -/
theorem finalizer_rewrites (db : Store) {claim : Claimed} {box : Outbox}
    (hfin : finalizes action=some (claim,box)) :
    ∃ f, (∀ row, (f row).id=row.id∧(f row).attempts=row.attempts∧(f row).status≠.processing) ∧
      (reportsFailure action=some claim→∀ row,
        ((f row).status.finished=true ↔ maxAttempts claim.box≤claim.attempts)) ∧
      ((∃ tokens, (step db action).2={finishRow db claim f with deviceTokens := tokens}) ∨
        ∃ error now, box=.email∧f=failRow claim error now∧current db claim=true ∧
          maxAttempts .email≤claim.attempts∧(step db action).2=announceDead (finishRow db claim f)
            (drawnIds action .webhook) (deadNotice claim error) now) := by
  cases action with
  | finalizeWebhook _ outcome now =>
    cases hfin
    cases outcome with
    | ok => exact ⟨_,completeRow_kept .webhook now,fun hno => (by cases hno),.inl ⟨_,rfl⟩⟩
    | failed error =>
      exact ⟨_,failRow_kept claim error now,fun _ => failRow_finished claim error now,.inl ⟨_,rfl⟩⟩
  | finalizeEmail _ outcome drawn now =>
    cases hfin
    cases outcome with
    | ok => exact ⟨_,completeRow_kept .email now,fun hno => (by cases hno),.inl ⟨_,rfl⟩⟩
    | failed error =>
      refine ⟨_,failRow_kept claim error now,fun _ => failRow_finished claim error now,?_⟩
      simp only [step,finalizeEmail]
      split
      · exact .inl ⟨_,rfl⟩
      split
      · exact .inl ⟨_,rfl⟩
      · exact .inr ⟨error,now,trivial,rfl,by simp_all,by omega,rfl⟩
  | finalizePush _ outcome now =>
    cases hfin
    cases outcome with
    | sent => exact ⟨_,completeRow_kept .push now,fun hno => (by cases hno),.inl ⟨_,rfl⟩⟩
    | cancelled error => exact ⟨_,dropRow_kept error now,fun hno => (by cases hno),.inl ⟨_,rfl⟩⟩
    | failed error =>
      exact ⟨_,failRow_kept claim error now,fun _ => failRow_finished claim error now,.inl ⟨_,rfl⟩⟩
    | unregistered error =>
      refine ⟨_,dropRow_kept error now,fun hno => (by cases hno),.inl ?_⟩
      simp only [step,finalizePush]
      split <;> exact ⟨_,rfl⟩
  | email | event | push | claimWebhooks | claimEmails | claimPushes | reap => cases hfin

/-- Every transaction changes every table in one of four ways. -/
theorem step_change
    (hids : ∀ box, ((table db box).map Row.id).Nodup) (hall : Admissible h db action)
    (box : Outbox) :
    Change box (table db box) (claimsOf box (step db action).1) (resetsOf box (step db action).1)
      (table (step db action).2 box) := by
  obtain ⟨hdra,hcl⟩ := hall
  have hres : ∀ claims result, resetsOf box ⟨claims,[],result⟩=[] := by
    intro claims result
    cases box <;> rfl
  rcases hfin : finalizes action with _|⟨claim,own⟩
  case some =>
    have hno : claimsOf box (step db action).1=[]∧resetsOf box (step db action).1=[] := by
      cases action <;> cases hfin <;> exact ⟨rfl,hres _ _⟩
    obtain ⟨f,hkp,-,⟨_,hst⟩|⟨_,_,rfl,-,-,-,hst⟩⟩ := finalizer_rewrites db hfin
    all_goals rw [hno.1,hno.2,hst]
    · cases box <;> exact finishRow_change hkp _
    cases box with
    | webhook =>
      have hbox := (hcl claim .email hfin).1
      have hweb : table (finishRow db claim f) .webhook=table db .webhook :=
        table_setTable_other db _ (by rw [hbox]; decide)
      rw [← hweb]
      refine emitEvent_change (hdra .webhook).1 ?_ .webhook
      change ∀ id∈_, ∀ row∈table (finishRow db claim f) .webhook, row.id≠id
      rw [hweb]
      exact (hdra .webhook).2
    | email | push => exact finishRow_change hkp _
  cases action with
  | email id =>
    simp only [step,hres]
    unfold enqueueEmail
    split
    · exact .same _ _
    · cases box with
      | email =>
        refine .appended [_] rfl rfl (nodup_singleton _) fun row hrow => ?_
        cases mem_singleton.mp hrow
        exact ⟨rfl,rfl,(hdra .email).2 id (mem_singleton_self id)⟩
      | webhook | push => exact .same _ _
  | event =>
    simp only [step,hres]
    exact emitEvent_change (hdra .webhook).1 (hdra .webhook).2 box
  | push _ devices topic payload now =>
    cases box with
    | push =>
      exact .newRows devices (fun device => .push topic device.1 device.2 payload) now
        (hdra .push).1 (hdra .push).2
    | webhook | email => exact .same _ _
  | claimWebhooks cutoff now =>
    simp only [step,hres]
    refine claimPicked_change db .webhook _ now (fun row hrow hpic => ?_) box
    have heli := takeDue_eligible (hids .webhook) hrow (mem_of_mem_filter hpic)
    exact due_unfinished cutoff (by rw [heli]; rfl)
  | claimEmails now | claimPushes now =>
    simp only [step,hres]
    exact claimPicked_change db _ _ now (fun row hrow hpic =>
      due_unfinished now (takeDue_eligible (hids _) hrow hpic)) box
  | reap now =>
    simp only [step]
    unfold reapStuckWebhooks
    simp only
    cases box with
    | webhook =>
      refine .reset now _ rfl fun row hrow hpic => ?_
      have heli := takeDue_eligible (hids .webhook) hrow hpic
      exact of_decide_eq_true (Bool.and_eq_true_iff.mp heli).1
    | email | push => exact .same _ _
  | finalizeWebhook | finalizeEmail | finalizePush => cases hfin

section Rows

variable {box : Outbox} {rows next : List Row} {claims : List Claimed} {resets : List String}

section
variable (hcha : Change box rows claims resets next)
include hcha

/-- Rows stay distinct. -/
theorem Change.ids (hids : (rows.map Row.id).Nodup) :
    (next.map Row.id).Nodup := by
  cases hcha with
  | appended _ _ _ had hnew =>
    rw [map_append,nodup_append]
    refine ⟨hids,had,fun a ha b hb => ?_⟩
    obtain ⟨old,hold,rfl⟩ := mem_map.mp ha
    obtain ⟨row,hrow,rfl⟩ := mem_map.mp hb
    exact (hnew row hrow).2.2 old hold
  | claimed _ now => rwa [map_updateWhere Row.id rows (f := claimRow now) fun _ _ => rfl]
  | reset now note => rwa [map_updateWhere Row.id rows (f := resetRow now note) fun _ _ => rfl]
  | finished _ _ _ _ hkp => rwa [map_updateWhere Row.id rows fun row _ => (hkp row).1]

theorem Change.kept (hrow : row∈rows) :
    ∃ row'∈next, row'.id=row.id∧row.attempts≤row'.attempts := by
  have hupd : ∀ (p : Row → Bool) (f : Row → Row),
      (f row).id=row.id → row.attempts≤(f row).attempts →
      ∃ row'∈updateWhere p f rows, row'.id=row.id∧row.attempts≤row'.attempts := by
    intro p f hid hle
    cases hp : p row with
    | true => exact ⟨f row,mem_updateWhere.mpr (.inl ⟨row,hrow,hp,rfl⟩),hid,hle⟩
    | false => exact ⟨row,mem_updateWhere.mpr (.inr ⟨hrow,hp⟩),rfl,le_refl _⟩
  cases hcha with
  | appended => exact ⟨row,mem_append_left _ hrow,rfl,le_refl _⟩
  | claimed => exact hupd _ _ rfl (Nat.le_succ _)
  | reset => exact hupd _ _ rfl (le_refl _)
  | finished _ _ _ _ hkp => exact hupd _ _ (hkp row).1 (hkp row).2.1.ge

/-- A claim counts one more than its row did before. -/
theorem Change.claim {claim : Claimed} (hcl : claim∈claims) :
    claim.box=box∧(∃ row∈rows, row.id=claim.id∧claim.attempts=row.attempts+1) ∧
      ∃ row'∈next, row'.id=claim.id∧claim.attempts=row'.attempts := by
  cases hcha with
  | appended _ hno => rw [hno] at hcl; cases hcl
  | reset _ _ hno => rw [hno] at hcl; cases hcl
  | finished _ _ hno => rw [hno] at hcl; cases hcl
  | claimed _ _ _ _ hcla =>
    rw [hcla] at hcl
    obtain ⟨row',hrow',rfl⟩ := mem_map.mp hcl
    obtain ⟨hmem,hpic⟩ := mem_filter.mp hrow'
    refine ⟨rfl,?_,row',hmem,rfl,rfl⟩
    rcases mem_updateWhere.mp hmem with ⟨row,hrow,-,rfl⟩|⟨-,hot⟩
    · exact ⟨row,hrow,rfl,rfl⟩
    · rw [hot] at hpic
      cases hpic

/-- A row in progress afterwards was claimed just now, or was in progress
before and was left alone. -/
theorem Change.processing {row' : Row} (hrow' : row'∈next) (hsta : row'.status=.processing) :
    (∃ claim∈claims, claim.box=box∧claim.id=row'.id∧claim.attempts=row'.attempts) ∨
      (row'∈rows∧(∀ claim∈claims, claim.id≠row'.id)∧row'.id∉resets) := by
  cases hcha with
  | appended _ hcla hres _ hnew =>
    rcases mem_append.mp hrow' with hold|had
    · exact .inr ⟨hold,by simp [hcla],by simp [hres]⟩
    · rw [(hnew row' had).1] at hsta
      cases hsta
  | claimed picked _ hres _ hcla =>
    by_cases hpic : row'.id∈picked
    · refine .inl ⟨⟨box,row'.id,row'.content,row'.attempts⟩,?_,rfl,rfl,rfl⟩
      rw [hcla]
      exact mem_map.mpr ⟨row',mem_filter.mpr ⟨hrow',decide_eq_true hpic⟩,rfl⟩
    rcases mem_updateWhere.mp hrow' with ⟨row,_,hp,rfl⟩|⟨hrow,-⟩
    · exact absurd (of_decide_eq_true hp) hpic
    refine .inr ⟨hrow,fun claim hcl hid => ?_,by rw [hres]; exact not_mem_nil⟩
    rw [hcla] at hcl
    obtain ⟨other,hot,rfl⟩ := mem_map.mp hcl
    have hpick := of_decide_eq_true (mem_filter.mp hot).2
    exact hpic (hid ▸ hpick)
  | reset _ _ hcla =>
    rcases mem_updateWhere.mp hrow' with ⟨row,_,_,rfl⟩|⟨hrow,hp⟩
    · cases hsta
    · exact .inr ⟨hrow,by simp [hcla],of_decide_eq_false hp⟩
  | finished claim _ hcla hres hkp =>
    rcases mem_updateWhere.mp hrow' with ⟨row,_,_,rfl⟩|⟨hrow,-⟩
    · exact absurd hsta (hkp row).2.2
    · exact .inr ⟨hrow,by simp [hcla],by simp [hres]⟩

theorem Change.finished_kept
    (hrow : row∈rows) (hfin : row.status.finished=true) : row∈next := by
  have hrt : row.status≠.pending∧row.status≠.processing := by simpa [Status.finished] using hfin
  cases hcha with
  | appended => exact mem_append_left _ hrow
  | claimed _ _ _ hlv =>
    refine mem_updateWhere.mpr (.inr ⟨hrow,decide_eq_false fun hpic => ?_⟩)
    rw [hlv row hrow hpic] at hfin
    cases hfin
  | reset _ _ _ hlv =>
    exact mem_updateWhere.mpr (.inr ⟨hrow,decide_eq_false fun hres => hrt.2 (hlv row hrow hres)⟩)
  | finished =>
    refine mem_updateWhere.mpr (.inr ⟨hrow,?_⟩)
    simp [fence,hrt.2]

end

end Rows

/-- Claims of one row rise from transaction to transaction. -/
def Rises (e e' : Event Store Action Answer) : Prop :=
  ∀ claim∈e.result.claims, ∀ claim'∈e'.result.claims, claim.box=claim'.box →
    claim.id=claim'.id→claim.attempts<claim'.attempts

/-- Claims that were handed out and the rows they are for. -/
structure Held (h : Past) (db : Store) : Prop where
  ids : ∀ box, ((table db box).map Row.id).Nodup
  /-- No row counts fewer claims than were handed out. -/
  bound : ∀ e∈h, ∀ claim∈e.result.claims,
    ∃ row∈table db claim.box, row.id=claim.id∧claim.attempts≤row.attempts
  /-- A row in progress belongs to the last transaction that took it. -/
  owner : ∀ box, ∀ row∈table db box, row.status=.processing →
    Since (Hands box row.id row.attempts) (Takes box row.id) h
  rising : h.Pairwise Rises

/-- Freshly filled outboxes hold no claim. -/
theorem Opening.held (hop : Opening db) : Held [] db := by
  refine ⟨hop.ids,by simp,fun box row hrow hsta => ?_,List.Pairwise.nil⟩
  rw [(hop.waiting box row hrow).1] at hsta
  cases hsta

/-- One transaction keeps claims and rows together. -/
theorem Held.step (hhd : Held h db)
    (hall : Admissible h db action) : Held (h++[perform step db action]) (step db action).2 := by
  have hcha := step_change hhd.ids hall
  have hof : ∀ claim, claim∈(OutboxFencing.step db action).1.claims →
      claim∈claimsOf claim.box (OutboxFencing.step db action).1 := fun claim hcl =>
    mem_filter.mpr ⟨hcl,decide_eq_true rfl⟩
  refine ⟨fun box => (hcha box).ids (hhd.ids box),?_,?_,?_⟩
  · intro e he claim hcl
    rcases mem_concat_iff.mp he with hold|rfl
    · obtain ⟨row,hrow,hid,hle⟩ := hhd.bound e hold claim hcl
      obtain ⟨row',hrow',hid',hle'⟩ := (hcha claim.box).kept hrow
      exact ⟨row',hrow',hid'.trans hid,hle.trans hle'⟩
    · obtain ⟨-,-,row',hrow',hid,hct⟩ := (hcha claim.box).claim (hof claim hcl)
      exact ⟨row',hrow',hid,hct.le⟩
  · intro box row' hrow' hsta
    rw [since_append]
    rcases (hcha box).processing hrow' hsta with ⟨claim,hcl,hbox,hid,hct⟩|hkp
    · exact .inl ⟨claim,mem_of_mem_filter hcl,hbox,hid,hct⟩
    obtain ⟨hrow,hunc,hunr⟩ := hkp
    refine .inr ⟨hhd.owner box row' hrow hsta,?_⟩
    rintro (⟨claim,hcl,rfl,hid⟩|⟨rfl,hres⟩)
    · exact hunc claim (hof claim hcl) hid
    · exact hunr hres
  · refine pairwise_append.mpr ⟨hhd.rising,pairwise_singleton _ _,?_⟩
    intro e he e' he' claim hcl claim' hcl' hbox hid
    cases mem_singleton.mp he'
    obtain ⟨row,hrow,hrowid,hle⟩ := hhd.bound e he claim hcl
    obtain ⟨-,⟨old,hold,holdid,hct⟩,-⟩ := (hcha claim'.box).claim (hof claim' hcl')
    have heq : row=old := eq_of_key_eq Row.id (hhd.ids claim'.box) (hbox ▸ hrow) hold
      (hrowid.trans (hid.trans holdid.symm))
    subst heq
    omega

/-- Every run keeps claims and rows together. -/
theorem run_held {start : Store} (hop : Opening start)
    (hrun : Run step Admissible start h db) : Held h db :=
  Run.invariant hrun hop.held fun _ _ _ hhd hall => hhd.step hall

def findRow (db : Store) (box : Outbox) (id : String) : Option Row :=
  (table db box).find? fun row => decide (row.id=id)

/-- The row of a claim after its finalizer: rewritten while the claim is
current, untouched otherwise. -/
theorem findRow_finishRow (db : Store) (claim : Claimed)
    (hid : ∀ row, (f row).id=row.id) : findRow (finishRow db claim f) claim.box claim.id =
      (findRow db claim.box claim.id).map fun row => if fence claim row then f row else row := by
  unfold findRow finishRow
  rw [table_setTable_self,updateWhere,List.find?_map]
  congr 1
  refine congrArg (fun p => (table db claim.box).find? p) (funext fun row => ?_)
  simp only [Function.comp_apply]
  split
  · rw [hid]
  · rfl

theorem finishRow_changed {claim : Claimed} (hid : ∀ row, (f row).id=row.id)
    (hcha : findRow (finishRow db claim f) claim.box claim.id≠findRow db claim.box claim.id) :
    ∃ row, findRow db claim.box claim.id=some row∧row∈table db claim.box ∧
      row.id=claim.id∧row.status=.processing∧row.attempts=claim.attempts ∧
      findRow (finishRow db claim f) claim.box claim.id=some (f row) := by
  have hfin := findRow_finishRow db claim hid
  rw [hfin] at hcha ⊢
  cases hrow : findRow db claim.box claim.id with
  | none =>
    rw [hrow] at hcha
    exact absurd rfl hcha
  | some row =>
    rw [hrow,Option.map_some] at hcha
    obtain ⟨hmem,hrowid⟩ := find_key_eq_some Row.id hrow
    cases hfen : fence claim row with
    | false => simp [hfen] at hcha
    | true =>
      have hpar := hfen
      simp only [fence,Bool.and_eq_true,decide_eq_true_eq] at hpar
      exact ⟨row,rfl,hmem,hrowid,hpar.1.2,hpar.2,by simp [hfen]⟩

/-- What a finalizer writes into the row of its claim. -/
def Writes (db : Store) (action : Action) (claim : Claimed) (f : Row → Row) : Prop :=
  (∀ row, (f row).id=row.id)∧findRow (step db action).2 claim.box claim.id =
      findRow (finishRow db claim f) claim.box claim.id ∧
    (reportsFailure action=some claim→∀ row,
      ((f row).status.finished=true ↔ maxAttempts claim.box≤claim.attempts))

/-- Every finalizer rewrites at most the row of its claim. -/
theorem step_writes {claim : Claimed} {box : Outbox}
    (hall : Admissible h db action) (hfin : finalizes action=some (claim,box)) :
    ∃ f, Writes db action claim f := by
  have hbox := (hall.2 claim box hfin).1
  obtain ⟨f,hkp,hrep,⟨_,hst⟩|⟨_,_,rfl,-,-,-,hst⟩⟩ := finalizer_rewrites db hfin
  all_goals refine ⟨f,fun row => (hkp row).1,?_,hrep⟩
  · rw [hst]
    cases claim.box <;> rfl
  · rw [hst,hbox]
    rfl

/-- The row of a finalizer changed. -/
def Changed (e : Event Store Action Answer) (claim : Claimed) : Prop :=
  findRow e.after claim.box claim.id≠findRow e.before claim.box claim.id

/-- After a claim was handed out, nothing took its row until a finalizer of
that claim changed it. -/
theorem Held.fenced (hhd : Held h db) {claim : Claimed}
    (hrow : row∈table db claim.box) (hid : row.id=claim.id) (hsta : row.status=.processing)
    (hct : row.attempts=claim.attempts) {a b : Past} {c : Event Store Action Answer}
    (hspl : h=a++c::b) (hcl : claim∈c.result.claims) : ∀ x∈b, ¬ Takes claim.box claim.id x := by
  obtain ⟨a',m,b',hspl',hhan,hfr⟩ := hhd.owner claim.box row hrow hsta
  obtain ⟨owner,how,hbox,hown,hatt⟩ := hhan
  have htak : Takes claim.box claim.id c := .inl ⟨claim,hcl,rfl,rfl⟩
  rw [hid] at hfr
  have hlis : a++c::b=a'++m::b' := hspl ▸ hspl'
  rcases append_eq_append_iff.mp hlis with ⟨gap,ha',hrt⟩|⟨gap,ha,hrt⟩
  · cases gap with
    | nil =>
      obtain ⟨rfl,rfl⟩ := cons_eq_cons.mp (by simpa using hrt)
      exact hfr
    | cons =>
      obtain ⟨rfl,-⟩ := cons_eq_cons.mp (by simpa using hrt)
      have hpai := hhd.rising
      rw [hspl'] at hpai
      have hc : c∈a' := by rw [ha']; simp
      have hlt := (pairwise_append.mp hpai).2.2 c hc m mem_cons_self claim hcl owner
        how hbox.symm (hown.trans hid).symm
      omega
  · cases gap with
    | nil =>
      obtain ⟨rfl,rfl⟩ := cons_eq_cons.mp (by simpa using hrt)
      exact hfr
    | cons =>
      obtain ⟨rfl,hb⟩ := cons_eq_cons.mp (by simpa using hrt)
      have hc : c∈b' := by rw [hb]; simp
      exact absurd htak (hfr c hc)

/-- Notices about one e-mail. -/
def noticesOf (notices : List DeadNotice) (id : String) : ℕ :=
  notices.countP fun notice => decide (notice.id=id)

/-- A dead e-mail was announced at most once, no other one was announced. -/
def Announced (db : Store) : Prop := ∀ id, noticesOf db.audit id≤1∧noticesOf db.events id≤1 ∧
    (0<noticesOf db.audit id∨0<noticesOf db.events id → ∃ row∈db.emails, row.id=id∧row.status=.dead)

/-- What one transaction does to the notices: nothing, or it announces the
e-mail it has just given up. -/
theorem step_notices (hall : Admissible h db action) :
    ((step db action).2.audit=db.audit∧(step db action).2.events=db.events) ∨
      ∃ notice, (step db action).2.audit=db.audit++[notice] ∧
        (step db action).2.events=db.events++[notice] ∧
        (∃ row∈db.emails, row.id=notice.id∧row.status=.processing) ∧
        ∃ row∈(step db action).2.emails, row.id=notice.id∧row.status=.dead := by
  have hkp : ∀ (claim : Claimed) (f : Row → Row),
      (finishRow db claim f).audit=db.audit∧(finishRow db claim f).events=db.events := by
    intro claim f
    unfold finishRow
    cases claim.box <;> exact ⟨rfl,rfl⟩
  rcases hfin : finalizes action with _|⟨claim,own⟩
  case some =>
    obtain ⟨f,-,-,⟨_,hst⟩|⟨error,now,rfl,rfl,hcur,hlt,hst⟩⟩ := finalizer_rewrites db hfin
    all_goals rw [hst]
    · exact .inl (hkp claim f)
    have hbox := (hall.2 claim .email hfin).1
    obtain ⟨haud,heve⟩ := hkp claim (failRow claim error now)
    have hid : (deadNotice claim error).id=claim.id := by
      unfold deadNotice
      cases claim.content <;> rfl
    obtain ⟨row,hrow,hfen⟩ := any_eq_true.mp hcur
    rw [hbox] at hrow
    have hpar := hfen
    simp only [fence,Bool.and_eq_true,decide_eq_true_eq] at hpar
    refine .inr ⟨deadNotice claim error,?_,?_,⟨row,hrow,?_,hpar.1.2⟩,?_⟩
    · exact congrArg (fun audit => audit++[deadNotice claim error]) haud
    · exact congrArg (fun events => events++[deadNotice claim error]) heve
    · rw [hid,hpar.1.1]
    · refine ⟨failRow claim error now row,?_,?_,?_⟩
      · unfold finishRow
        rw [hbox]
        exact mem_updateWhere.mpr (.inl ⟨row,hrow,hfen,rfl⟩)
      · rw [hid]
        exact hpar.1.1
      · simp [failRow,hlt,hbox,gaveUp]
  cases action with
  | email =>
    simp only [step]
    unfold enqueueEmail
    split <;> exact .inl ⟨rfl,rfl⟩
  | event | push | claimWebhooks | claimEmails | claimPushes | reap => exact .inl ⟨rfl,rfl⟩
  | finalizeWebhook | finalizeEmail | finalizePush => cases hfin

/-- One transaction announces an e-mail at most once. -/
theorem Announced.step (hann : Announced db)
    (hids : ∀ box, ((table db box).map Row.id).Nodup) (hall : Admissible h db action) :
    Announced (step db action).2 := by
  have hdd : ∀ row∈db.emails, row.status=.dead →
      row∈(OutboxFencing.step db action).2.emails := fun row hrow hsta =>
    (step_change hids hall .email).finished_kept hrow (by rw [hsta]; rfl)
  intro id
  obtain ⟨haud,heve,hrow⟩ := hann id
  rcases step_notices hall with ⟨ha,he⟩|⟨notice,ha,he,hbef,haft⟩
  · rw [ha,he]
    refine ⟨haud,heve,fun hso => ?_⟩
    obtain ⟨row,hmem,hid,hsta⟩ := hrow hso
    exact ⟨row,hdd row hmem hsta,hid,hsta⟩
  · rw [ha,he]
    unfold noticesOf at *
    simp only [countP_append,countP_singleton]
    by_cases hnot : notice.id=id
    · obtain ⟨row,hmem,hid,hsta⟩ := hbef
      have hno : db.audit.countP (fun n => decide (n.id=id))=0 ∧
          db.events.countP (fun n => decide (n.id=id))=0 := by
        by_contra hso
        obtain ⟨dead,hmem',hid',hdea⟩ := hrow (by omega)
        have heq : row=dead := eq_of_key_eq Row.id (hids .email) hmem hmem'
          (hid.trans (hnot.trans hid'.symm))
        rw [heq,hdea] at hsta
        cases hsta
      rw [hno.1,hno.2]
      simp only [hnot,decide_true,if_true]
      exact ⟨le_refl _,le_refl _,fun _ => hnot ▸ haft⟩
    · simp only [hnot,decide_false,Bool.false_eq_true,if_false,Nat.add_zero]
      refine ⟨haud,heve,fun hso => ?_⟩
      obtain ⟨row,hmem,hid,hsta⟩ := hrow hso
      exact ⟨row,hdd row hmem hsta,hid,hsta⟩

/-- Every run announces an e-mail at most once. -/
theorem run_announced {start : Store} (hop : Opening start)
    (hrun : Run step Admissible start h db) : Announced db := by
  have hbo : Held h db∧Announced db := by
    refine Run.invariant (P := fun h db => Held h db∧Announced db) hrun
      ⟨hop.held,fun id => ?_⟩ fun _ _ _ hpa hall =>
      ⟨hpa.1.step hall,hpa.2.step hpa.1.ids hall⟩
    rw [hop.silent.1,hop.silent.2]
    simp [noticesOf]
  exact hbo.2

/-- In every run a finalizer changes its row only while nothing took the row
since its claim, claims of a row rise, a finished row is never changed, a
retryable failure finishes the row exactly after its last claim, and a dead
e-mail is announced at most once. -/
theorem outbox_claims_fenced {start db : Store} {h : Past} (hopen : Opening start)
    (hrun : Run step Admissible start h db) :
    (∀ h₁ e h₂, h=h₁++e::h₂→∀ claim box, finalizes e.action=some (claim,box) →
      Changed e claim→∀ a c b, h₁=a++c::b→claim∈c.result.claims → ∀ x∈b, ¬ Takes box claim.id x) ∧
    h.Pairwise Rises ∧
    (∀ e∈h, ∀ box id row, findRow e.before box id=some row → row.status.finished=true →
      findRow e.after box id=some row) ∧
    (∀ e∈h, ∀ claim, reportsFailure e.action=some claim → Changed e claim →
      ∃ row, findRow e.after claim.box claim.id=some row ∧
        (row.status.finished=true ↔ maxAttempts claim.box≤claim.attempts)) ∧
    ∀ id, noticesOf db.audit id≤1∧noticesOf db.events id≤1 := by
  have heve : ∀ h₁ e h₂, h=h₁++e::h₂ →
      Held h₁ e.before∧Admissible h₁ e.before e.action∧e=perform step e.before e.action := by
    intro h₁ e h₂ hspl
    obtain ⟨hpa,hall,hper⟩ := Run.split (hspl ▸ hrun)
    exact ⟨run_held hopen hpa,hall,hper⟩
  refine ⟨?_,(run_held hopen hrun).rising,?_,?_,fun id => ?_⟩
  · intro h₁ e h₂ hspl claim box hfin hcha a c b hpa hcl
    obtain ⟨hhd,hall,hper⟩ := heve h₁ e h₂ hspl
    obtain ⟨f,hid,haft,-⟩ := step_writes hall hfin
    have hbox := (hall.2 claim box hfin).1
    unfold Changed at hcha
    rw [hper] at hcha
    obtain ⟨row,-,hrow,hrowid,hsta,hct,-⟩ := finishRow_changed hid (haft ▸ hcha)
    rw [← hbox]
    exact hhd.fenced hrow hrowid hsta hct hpa hcl
  · intro e he box id row hrow hfini
    obtain ⟨h₁,h₂,hspl⟩ := append_of_mem he
    obtain ⟨hhd,hall,hper⟩ := heve h₁ e h₂ hspl
    obtain ⟨hmem,rfl⟩ := find_key_eq_some Row.id hrow
    have hchan := step_change hhd.ids hall box
    rw [hper]
    exact find_key_self Row.id (hchan.ids (hhd.ids box)) (hchan.finished_kept hmem hfini)
  · intro e he claim hfai hcha
    obtain ⟨h₁,h₂,hspl⟩ := append_of_mem he
    obtain ⟨hhd,hall,hper⟩ := heve h₁ e h₂ hspl
    have hfin : ∃ box, finalizes e.action=some (claim,box) := by
      cases hact : e.action with
      | finalizeWebhook _ outcome | finalizeEmail _ outcome | finalizePush _ outcome =>
        rw [hact] at hfai
        cases outcome <;> cases hfai
        exact ⟨_,rfl⟩
      | _ => rw [hact] at hfai; cases hfai
    obtain ⟨box,hfin⟩ := hfin
    obtain ⟨f,hid,haft,hend⟩ := step_writes hall hfin
    unfold Changed at hcha
    rw [hper] at hcha ⊢
    obtain ⟨row,-,-,-,-,-,hwri⟩ := finishRow_changed hid (haft ▸ hcha)
    exact ⟨f row,haft.trans hwri,hend hfai row⟩
  · exact ⟨(run_announced hopen hrun id).1,(run_announced hopen hrun id).2.1⟩

/-- Outboxes of a store before anything was enqueued. -/
def emptyStore : Store where
  webhooks := []
  emails := []
  pushes := []
  endpoints := [⟨"endpoint",true,["*"]⟩]
  deviceTokens := []
  audit := []
  events := []

theorem emptyStore_opening : Opening emptyStore := by
  refine ⟨fun box => ?_,fun box row hrow => ?_,rfl,rfl⟩
  · cases box <;> exact nodup_nil
  · cases box <;> cases hrow

/-- Claim of the sample e-mail at a number of claims. -/
def sampleClaim (attempts : ℕ) : Claimed :=
  ⟨.email, "row",.email "order_confirmation" "a@example.com" "{}" none,attempts⟩

/-- An e-mail is claimed, the claim goes stale, the row is claimed again and
the first worker reports late. -/
def lateActions : List Action :=
  [.email "row" "order_confirmation" "a@example.com" "{}" none 0,.claimEmails 1 50 [],
    .claimEmails 600002 50 [],.finalizeEmail (sampleClaim 1) .ok [] 600003,
    .finalizeEmail (sampleClaim 2) (.failed "timeout") [] 600004]

example : (play step [] emptyStore lateActions).2.emails.map (fun row => (row.status,row.attempts)) =
    [(.pending,2)] := by decide

theorem admissible_finalizeEmail {claim : Claimed} {outcome : Outcome}
    {now : ℤ} (hbox : claim.box=.email) (hcl : ∃ e∈h, claim∈e.result.claims) :
    Admissible h db (.finalizeEmail claim outcome [] now) := by
  refine ⟨fun box => ?_,fun other box hfin => ?_⟩
  · cases box <;> exact ⟨nodup_nil,fun id hid => absurd hid not_mem_nil⟩
  · cases hfin
    exact ⟨hbox,hcl⟩

theorem lateRun : Run step Admissible emptyStore (play step [] emptyStore lateActions).1
    (play step [] emptyStore lateActions).2 := by
  refine .play Run.nil lateActions ⟨⟨?_,?_⟩,⟨?_,?_⟩,⟨?_,?_⟩,
    admissible_finalizeEmail rfl (by decide),admissible_finalizeEmail rfl (by decide),trivial⟩
  all_goals intro box
  · cases box <;> decide
  · intro other hno
    cases hno
  · cases box <;> decide
  · intro other hno
    cases hno
  · cases box <;> decide
  · intro other hno
    cases hno

/-- The late finalizer of the sample run changed nothing. -/
theorem outbox_claims_fenced_late :
    (play step [] emptyStore lateActions).1.length=lateActions.length ∧
    ∀ e∈(play step [] emptyStore lateActions).1, ∀ claim, reportsFailure e.action=some claim →
      Changed e claim→∃ row, findRow e.after claim.box claim.id=some row ∧
        (row.status.finished=true ↔ maxAttempts claim.box≤claim.attempts) :=
  ⟨by decide,(outbox_claims_fenced emptyStore_opening lateRun).2.2.2.1⟩

end SellRight.OutboxFencing
