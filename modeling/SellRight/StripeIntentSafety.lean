import SellRight.PaymentGrowth
import SellRight.StripeIntents

/-!
# Captured Stripe money stays on record

Snapshots of the intents of one order arrive in any order and any number of
times. Attempts and payment rows stay unique for an intent, a settled attempt
stays settled, and captured money stays on the ledger or held as unknown, as
long as no snapshot runs over a held attempt and no second capture finds its
reference on a row that is not settled.
-/

namespace SellRight.StripeIntentSafety

open EffectsEngine (Operation)
open PaymentConvergence (Unstaged)
open OrderLifecycle PaymentGrowth PaymentLedger PaymentSettlement RowTable List
open RunHistory StripeIntents

variable {w : StripeIntents.World} {db next : Database} {attempt : Attempt} {o : Order}
  {i : Application}

/-- The attempt of the intent is held because captured money was not applied. -/
def Held (db : Database) (intentId : String) : Prop :=
  ∃ a∈db.attempts, tracks intentId a=true∧a.status=.unknown

/-- Captured money of the intent is on the ledger or held. -/
def Safe (db : Database) (intentId : String) : Prop :=
  Captured db.ledger intentId∨Held db intentId

/-- One attempt of the table is moved, and becomes settled only when the money
is captured. -/
inductive Moves (attempt : Attempt) (captured : Prop) (rows : List Attempt) :
    List Attempt → Prop where
  | kept : Moves attempt captured rows rows
  | set (status : AttemptStatus) (paymentId : Option String)
      (hmonotone : attempt.status=.settled→status=.settled)
      (hcaptured : status=.settled→captured) :
      Moves attempt captured rows
        (updateWhere (fun a => decide (a.id=attempt.id)) (restatused status paymentId) rows)

variable {status : AttemptStatus} {amount : ℤ} {intentId code target : String}
  {outcome : IntentOutcome}

theorem setAttempt_moves (db : Database) {captured : Prop}
    (paymentId : Option String) (hcap : status=.settled→captured) :
    Moves attempt captured db.attempts (setAttempt db attempt status paymentId).attempts := by
  unfold setAttempt
  split_ifs with hfr
  · exact .kept
  refine .set status paymentId (fun hset => ?_) hcap
  by_contra hot
  exact hfr ⟨hset,hot⟩

theorem setAttempt_tables (db : Database) (attempt : Attempt) (status : AttemptStatus)
    (paymentId : Option String) : (setAttempt db attempt status paymentId).ledger=db.ledger ∧
      (setAttempt db attempt status paymentId).codes=db.codes := by
  unfold setAttempt
  split <;> exact ⟨rfl,rfl⟩

section Moves

variable {captured : Prop} {rows rows' : List Attempt}

section
variable (h : Moves attempt captured rows rows')
include h

theorem Moves.ids :
    rows'.map Attempt.id=rows.map Attempt.id := by
  cases h with
  | kept => rfl
  | set => exact map_updateWhere Attempt.id _ fun _ _ => rfl

theorem Moves.count (intentId : String) :
    rows'.countP (tracks intentId)=rows.countP (tracks intentId) := by
  cases h with
  | kept => rfl
  | set status paymentId =>
    exact countP_updateWhere_eq (f := restatused status paymentId) fun _ _ _ => rfl

theorem Moves.forward (hids : (rows.map Attempt.id).Nodup)
    (hatt : attempt∈rows) {a : Attempt} (ha : a∈rows) :
    ∃ b∈rows', b.id=a.id∧b.providerRef=a.providerRef ∧
      (a.status=.settled→b.status=.settled)∧(a.id≠attempt.id→b=a) := by
  cases h with
  | kept => exact ⟨a,ha,rfl,rfl,id,fun _ => rfl⟩
  | set status paymentId hmon =>
    by_cases hid : a.id=attempt.id
    · have heq : a=attempt := eq_of_key_eq Attempt.id hids ha hatt hid
      refine ⟨restatused status paymentId a,
        mem_updateWhere.mpr (.inl ⟨a,ha,decide_eq_true hid,rfl⟩),rfl,rfl,?_,?_⟩
      · intro hset
        exact hmon (heq ▸ hset)
      · exact (absurd hid)
    · exact ⟨a,mem_updateWhere.mpr (.inr ⟨ha,decide_eq_false hid⟩),rfl,rfl,id,fun _ => rfl⟩

/-- Each attempt comes from one with its intent, and it became settled only
with captured money. -/
theorem Moves.backward
    (hids : (rows.map Attempt.id).Nodup) (hatt : attempt∈rows) {b : Attempt} (hb : b∈rows') :
    ∃ a∈rows, b.providerRef=a.providerRef ∧
      (b.status=.settled→a.status=.settled∨a=attempt∧captured) := by
  cases h with
  | kept => exact ⟨b,hb,rfl,fun h => .inl h⟩
  | set _ _ _ hcap =>
    rcases mem_updateWhere.mp hb with ⟨a,ha,hid,rfl⟩|⟨hold,-⟩
    · have heq : a=attempt := eq_of_key_eq Attempt.id hids ha hatt (of_decide_eq_true hid)
      exact ⟨a,ha,rfl,fun hsta => .inr ⟨heq,hcap hsta⟩⟩
    · exact ⟨b,hold,rfl,fun h => .inl h⟩

end

end Moves

/-- What a snapshot of an order without marker and staged edits meets once its
attempt is tracked. -/
structure Stage (db : Database) (o : Order) (attempt : Attempt) (i : Application) : Prop where
  stored : findOrder db.ledger o.id=some o
  clean : o.reconciliationRequired=false
  /-- The edits of the order were never staged. -/
  unstaged : Unstaged db.ledger o.id
  sound : Sound db.ledger
  drawn : i.paymentId∉db.ledger.payments.map Payment.id
  settlement : (⟨.paymentSettled,i.paymentId⟩ : Operation)∉db.ledger.effects.operations
  duplicate : (⟨.duplicateCaptureRecorded,i.paymentId⟩ : Operation) ∉ db.ledger.effects.operations
  member : attempt∈db.attempts
  tracked : tracks i.intent.id attempt=true
  covered : attempt.status=.settled → Captured db.ledger i.intent.id

/-- What an applied snapshot leaves behind. -/
structure Lands (db next : Database) (attempt : Attempt) (i : Application) : Prop where
  codes : next.codes=db.codes
  sound : Sound next.ledger
  grows : Grows db.ledger next.ledger
  attempts : Moves attempt (Captured next.ledger i.intent.id) db.attempts next.attempts

theorem Stage.set (h : Stage db o attempt i) (hop : status≠.settled) (paymentId : Option String) :
    Lands db (setAttempt db attempt status paymentId) attempt i := by
  obtain ⟨hled,hcod⟩ := setAttempt_tables db attempt status paymentId
  refine ⟨hcod,?_,?_,setAttempt_moves _ paymentId fun hsta => absurd hsta hop⟩
  · rw [hled]
    exact h.sound
  · rw [hled]
    exact .refl db.ledger

/-- An alert changes no other table. -/
theorem Lands.alert (h : Lands db next attempt i) (kind : AlertKind) :
    Lands db (recordPaymentAlert next kind o i.intent) attempt i :=
  ⟨h.codes,h.sound,h.grows,h.attempts⟩

/-- Applying a result for the intent continues the ledger, writes no attempt,
and captures the money when it reports a capture. -/
theorem Stage.result (h : Stage db o attempt i) {db' : Database} (hled : db'.ledger=db.ledger)
    {bound : Option Attempt} {result : PaymentResult} {answer : Settled}
    (href : result.providerRef=some i.intent.id)
    (happ : applyResult w db' (intentDelivery i o bound amount result)=.ok (answer,next)) :
    Sound next.ledger∧Grows db.ledger next.ledger ∧
      (result.state=.settled → Captured next.ledger i.intent.id) ∧
      next.attempts=db'.attempts∧next.codes=db'.codes := by
  unfold applyResult at happ
  rw [hled] at happ
  cases hpai : applyPaymentResult w.settlement db.ledger
      (intentDelivery i o bound amount result) with
  | error e =>
    rw [hpai] at happ
    cases happ
  | ok written =>
    rw [hpai] at happ
    cases happ
    have hmee : Meets db.ledger o (intentDelivery i o bound amount result) i.intent.id :=
      ⟨h.stored,h.clean,h.unstaged,rfl,href,i.intent.named,rfl,h.drawn,h.settlement⟩
    obtain ⟨hsd,hgro,hcap⟩ := applyPaymentResult_grows h.sound hmee hpai
    exact ⟨hsd,hgro,hcap,rfl,rfl⟩

theorem Stage.moveThenApply (h : Stage db o attempt i)
    (hop : status≠.settled) {bound : Option Attempt} {result : PaymentResult}
    {answer : Settled} (href : result.providerRef=some i.intent.id)
    (happ : applyResult w (setAttempt db attempt status none)
      (intentDelivery i o bound amount result)=.ok (answer,next)) : Lands db next attempt i := by
  obtain ⟨hled,hcod⟩ := setAttempt_tables db attempt status none
  obtain ⟨hsd,hgro,-,hatt,hnex⟩ := h.result hled href happ
  refine ⟨hnex.trans hcod,hsd,hgro,?_⟩
  rw [hatt]
  exact setAttempt_moves _ none fun hsta => absurd hsta hop

theorem verifyIntent_ref (pi : StripeIntent) (orderCode : String) (amount : ℤ)
    (currency mode : String) :
    (verifyIntent pi orderCode amount currency mode).providerRef=some pi.id := by
  unfold verifyIntent
  split
  · rfl
  · split
    · rfl
    · cases pi.status <;> rfl

theorem stripePaymentFor_some {p : Payment}
    (h : stripePaymentFor db intentId=some p) : p∈db.ledger.payments∧carries intentId p=true := by
  have hcar := find?_some h
  exact ⟨mem_of_find?_eq_some h,hcar⟩

theorem eq_of_countP_le_one {α : Type*} {p : α → Bool} {rows : List α} (h : rows.countP p≤1)
    {a b : α} (ha : a∈rows) (hb : b∈rows) (hpa : p a=true) (hpb : p b=true) : a=b := by
  by_contra hne
  have hsub : [a,b].Subperm rows := subperm_of_subset (by simpa using hne) (by simp [ha,hb])
  have hle := hsub.countP_le p
  simp only [countP_cons,countP_nil,hpa,hpb,if_true] at hle
  omega

theorem Captured.found (hsd : Sound db.ledger) (h : Captured db.ledger intentId) :
    ∃ p, stripePaymentFor db intentId=some p∧p.state=.settled := by
  obtain ⟨p,hp,hcar,hset⟩ := h
  cases hfd : stripePaymentFor db intentId with
  | none =>
    have hms := find?_eq_none.mp hfd p hp
    exact absurd hcar hms
  | some q =>
    obtain ⟨hq,hqca⟩ := stripePaymentFor_some hfd
    have heq : q=p := eq_of_countP_le_one (hsd.refs intentId) hq hp hqca hcar
    exact ⟨q,rfl,heq ▸ hset⟩

theorem Stage.applySettledAgain (h : Stage db o attempt i) {existing : Payment}
    (happ : applySettledAgain w db o attempt existing i=.ok (outcome,next)) :
    Lands db next attempt i∧Captured next.ledger i.intent.id := by
  unfold StripeIntents.applySettledAgain at happ
  dsimp only at happ
  obtain ⟨hled,hcod⟩ := setAttempt_tables db attempt .settled (some existing.id)
  split at happ
  · cases happ
  · next applied hres =>
    cases happ
    obtain ⟨hsd,hgro,hcap,hatt,hnex⟩ := h.result hled rfl hres
    refine ⟨⟨hnex.trans hcod,hsd,hgro,?_⟩,hcap rfl⟩
    rw [hatt]
    exact setAttempt_moves _ _ fun _ => hcap rfl

/-- A captured intent of an order that takes money settles it or is held. -/
theorem Stage.applyDue (h : Stage db o attempt i) {due : ℤ}
    (happ : applyDue w db o code attempt due i=.ok (outcome,next)) :
    Lands db next attempt i∧Safe next i.intent.id := by
  unfold StripeIntents.applyDue at happ
  by_cases hver : (verifyIntent i.intent code due o.currency i.mode).state=.settled
  · simp only [hver,if_true] at happ
    split at happ
    · cases happ
    · next applied hres =>
      cases happ
      obtain ⟨hsd,hgro,hcap,hatt,hcod⟩ :=
        h.result rfl (verifyIntent_ref _ _ _ _ _) hres
      set paymentId := (stripePaymentFor applied i.intent.id).map Payment.id
      obtain ⟨hled,hkp⟩ := setAttempt_tables applied attempt .settled paymentId
      refine ⟨⟨hkp.trans hcod,?_,?_,?_⟩,.inl ?_⟩
      · rw [hled]
        exact hsd
      · rw [hled]
        exact hgro
      · rw [hled,← hatt]
        exact setAttempt_moves _ paymentId fun _ => hcap hver
      · rw [hled]
        exact hcap hver
  · simp only [hver,if_false] at happ
    split_ifs at happ with hunk
    · cases happ
      exact ⟨⟨rfl,h.sound,.refl _,.kept⟩,.inr ⟨attempt,h.member,h.tracked,hunk⟩⟩
    cases happ
    refine ⟨(h.set (by decide) none).alert _,?_⟩
    by_cases hset : attempt.status=.settled
    · left
      have hled := (setAttempt_tables db attempt .unknown none).1
      change Captured (setAttempt db attempt .unknown none).ledger i.intent.id
      rw [hled]
      exact h.covered hset
    · right
      refine ⟨restatused .unknown none attempt,?_,h.tracked,rfl⟩
      rw [setAttempt,if_neg fun hbo => hset hbo.1]
      exact mem_updateWhere.mpr (.inl ⟨attempt,h.member,decide_eq_true rfl,rfl⟩)

/-- A second capture is on the ledger as a flagged duplicate when its reference
is free. -/
theorem Stage.applyDuplicate (h : Stage db o attempt i)
    (hfr : ∀ p∈db.ledger.payments, carries i.intent.id p=false)
    (happ : applyDuplicate w db o attempt i=.ok (outcome,next)) :
    Lands db next attempt i∧duplicateRow o i∈next.ledger.payments := by
  unfold StripeIntents.applyDuplicate at happ
  cases hrec : recordSettlementOperation w.settlement i.ambient db.ledger
      ⟨.duplicateCaptureRecorded,i.paymentId,none,.paymentInsert (duplicateRow o i),[]⟩ with
  | error e =>
    rw [hrec] at happ
    cases happ
  | ok result =>
    obtain ⟨recorded,written⟩ := result
    rw [hrec] at happ
    dsimp only at happ
    rcases record_duplicate_ok (duplicateRow o i) h.duplicate hrec with
      ⟨-,-,p,hp,hcon⟩|⟨hcre,-,hwro⟩
    · have hcar : carries i.intent.id p=true := by
        obtain ⟨-,href,hmet⟩ := of_decide_eq_true (Bool.and_eq_true_iff.mp hcon).1
        exact decide_eq_true ⟨hmet,href⟩
      rw [hfr p hp] at hcar
      cases hcar
    · rw [hcre,if_pos rfl,if_pos rfl] at happ
      cases happ
      have hrefs : ∀ ref, carries ref (duplicateRow o i)=true →
          ∀ p∈db.ledger.payments, carries ref p=false := by
        intro ref hcar p hp
        have href : i.intent.id=ref := Option.some.inj (of_decide_eq_true hcar).2
        exact href ▸ hfr p hp
      obtain ⟨hsd,hgro,hrow⟩ := hwro.inserted _ h.sound h.drawn h.settlement hrefs
      set stored : Database := {db with ledger := written}
      obtain ⟨hled,hcod⟩ := setAttempt_tables stored attempt .settled (some i.paymentId)
      have hcap : Captured written i.intent.id := ⟨_,hrow,decide_eq_true ⟨rfl,rfl⟩,rfl⟩
      have hlan : Lands db (setAttempt stored attempt .settled (some i.paymentId)) attempt i := by
        refine ⟨hcod,?_,?_,?_⟩
        · rw [hled]
          exact hsd
        · rw [hled]
          exact hgro
        · rw [hled]
          exact setAttempt_moves stored _ fun _ => hcap
      refine ⟨hlan.alert _,?_⟩
      · change _∈(setAttempt stored attempt .settled (some i.paymentId)).ledger.payments
        rw [hled]
        exact hrow

/-- Amount an order without staged edits takes. -/
def dueOf (db : Database) (o : Order) : ℤ :=
  if payable o.state then
    amountDueForOrder db.ledger.payments db.ledger.refunds db.ledger.edits o.id o.grandTotal
  else 0

/-- Without staged edits an attempt is asked for what the order takes. -/
theorem Stage.amountDue (h : Stage db o attempt i) : amountDue w db o attempt=dueOf db o := by
  have hno : (db.ledger.edits.find? fun edit =>
      decide (edit.orderId=o.id)&&isPendingEditStage edit.settlement)=none := by
    rw [find?_eq_none]
    intro edit hed
    have hms := any_eq_false.mp h.unstaged.pending edit hed
    exact hms
  unfold StripeIntents.amountDue dueOf linkedEditTender
  rw [hno,Option.getD_none]

/-- A captured row that is flagged as a duplicate carries the intent. -/
def Flagged (db : Database) (pi : StripeIntent) : Prop :=
  ∃ p∈db.ledger.payments, carries pi.id p=true∧p.state=.settled∧p.duplicate=true ∧
    p.amount=pi.amount

section
variable (h : Stage db o attempt i)
include h

/-- A succeeded intent whose reference is on no unsettled row, unless the order
takes money, leaves its money captured or held. With nothing due it is
captured, flagged as a duplicate when it was not captured before. -/
theorem Stage.applySucceeded
    (hspa : dueOf db o≤0→∀ p∈db.ledger.payments, carries i.intent.id p=true → p.state=.settled)
    (happ : applySucceeded w db o code attempt i=.ok (outcome,next)) :
    Lands db next attempt i∧Safe next i.intent.id ∧
      (dueOf db o≤0 → Captured next.ledger i.intent.id ∧
        (Captured db.ledger i.intent.id∨Flagged next i.intent)) := by
  unfold StripeIntents.applySucceeded at happ
  rw [h.clean,if_neg Bool.false_ne_true] at happ
  cases hexi : (stripePaymentFor db i.intent.id).filter fun p => decide (p.state=.settled) with
  | some existing =>
    simp only [hexi] at happ
    obtain ⟨hfd,hset⟩ := Option.filter_eq_some_iff.mp hexi
    obtain ⟨hmem,hcar⟩ := stripePaymentFor_some hfd
    obtain ⟨hlan,hcap⟩ := h.applySettledAgain happ
    exact ⟨hlan,.inl hcap,fun _ => ⟨hcap,.inl ⟨existing,hmem,hcar,of_decide_eq_true hset⟩⟩⟩
  | none =>
    simp only [hexi] at happ
    rw [h.amountDue] at happ
    split_ifs at happ with hdue
    · obtain ⟨hlan,hsf⟩ := h.applyDue happ
      exact ⟨hlan,hsf,fun hnot => absurd hdue (not_lt.mpr hnot)⟩
    have hfr : ∀ p∈db.ledger.payments, carries i.intent.id p=false := by
      intro p hp
      by_contra hcar
      have hcarr : carries i.intent.id p=true := by simpa using hcar
      have hset := hspa (not_lt.mp hdue) p hp hcarr
      obtain ⟨q,hfd,hqse⟩ := Captured.found h.sound ⟨p,hp,hcarr,hset⟩
      rw [hfd,Option.filter_some,if_pos (decide_eq_true hqse)] at hexi
      cases hexi
    obtain ⟨hlan,hrow⟩ := h.applyDuplicate hfr happ
    have hcar : carries i.intent.id (duplicateRow o i)=true := decide_eq_true ⟨rfl,rfl⟩
    have hcap : Captured next.ledger i.intent.id := ⟨_,hrow,hcar,rfl⟩
    exact ⟨hlan,.inl hcap,fun _ => ⟨hcap,.inr ⟨_,hrow,hcar,rfl,rfl,rfl⟩⟩⟩

theorem Stage.applyCanceled
    (happ : applyCanceled w db o attempt i=.ok (outcome,next)) : Lands db next attempt i := by
  unfold StripeIntents.applyCanceled at happ
  cases hexi : (stripePaymentFor db i.intent.id).filter fun p => decide (p.state=.pending) with
  | none =>
    rw [hexi] at happ
    cases happ
    exact h.set (by decide) none
  | some existing =>
    rw [hexi] at happ
    dsimp only at happ
    split at happ
    · cases happ
    · next applied hres =>
      cases happ
      exact h.moveThenApply (by decide) rfl hres

theorem Stage.applyFailed
    (happ : applyFailed w db o attempt i=.ok (outcome,next)) : Lands db next attempt i := by
  unfold StripeIntents.applyFailed at happ
  dsimp only at happ
  split at happ
  · split at happ
    · cases happ
    · next applied hres =>
      cases happ
      exact h.moveThenApply (by decide) rfl hres
  · cases happ
    exact h.set (by decide) none

/-- An intent that waits for the shopper lands. -/
theorem Stage.applyOpen :
    Lands db (applyOpen db attempt).2 attempt i := by
  unfold StripeIntents.applyOpen
  split
  · exact ⟨rfl,h.sound,.refl _,.kept⟩
  · exact h.set (by decide) none

theorem Stage.applyWaiting (hwt : i.intent.status≠.succeeded)
    (happ : applyStatus w db o code attempt i=.ok (outcome,next)) : Lands db next attempt i := by
  unfold applyStatus at happ
  cases hsta : i.intent.status with
  | succeeded => exact absurd hsta hwt
  | processing | requiresCapture | requiresAction =>
    rw [hsta] at happ
    cases happ
    exact h.set (by decide) none
  | canceled =>
    rw [hsta] at happ
    exact h.applyCanceled happ
  | requiresPaymentMethod =>
    rw [hsta] at happ
    dsimp only at happ
    unfold applyPaymentMethod at happ
    split at happ
    · exact h.applyFailed happ
    have hop : StripeIntents.applyOpen db attempt=(outcome,next) := Except.ok.inj happ
    have hlan := h.applyOpen
    rw [hop] at hlan
    exact hlan
  | requiresConfirmation =>
    rw [hsta] at happ
    have hop : StripeIntents.applyOpen db attempt=(outcome,next) := Except.ok.inj happ
    have hlan := h.applyOpen
    rw [hop] at hlan
    exact hlan

end

/-- Facts about an order and the attempts that every step keeps. -/
structure Ground (orderId : String) (s : Database) : Prop where
  order : ∃ o, findOrder s.ledger orderId=some o∧o.reconciliationRequired=false
  unstaged : Unstaged s.ledger orderId
  sound : Sound s.ledger
  ids : (s.attempts.map Attempt.id).Nodup
  tracked : ∀ intentId, s.attempts.countP (tracks intentId)≤1
  unbound : ∀ a∈s.attempts, a.providerRef=none→a.status≠.settled
  covered : ∀ a∈s.attempts, a.status=.settled→∀ intentId,
    a.providerRef=some intentId → Captured s.ledger intentId

/-- What no step takes back. -/
structure Passes (s s' : Database) : Prop where
  ledger : Grows s.ledger s'.ledger
  attempts : ∀ a∈s.attempts, ∀ intentId, a.providerRef=some intentId →
    ∃ b∈s'.attempts, b.id=a.id∧b.providerRef=some intentId∧(a.status=.settled→b.status=.settled)
  held : ∀ intentId, Held s intentId → Safe s' intentId

variable {orderId : String} {s s' : Database}

/-- A step that touches nothing takes nothing back. -/
theorem Passes.refl (s : Database) : Passes s s :=
  ⟨.refl _,fun a ha _ href => ⟨a,ha,rfl,href,id⟩,fun _ hhd => .inr hhd⟩

/-- Money that is captured or held stays so. -/
theorem Passes.safe (h : Passes s s') (hsf : Safe s intentId) :
    Safe s' intentId := by
  rcases hsf with hcap|hhd
  · exact .inl (h.ledger.captured hcap)
  · exact h.held intentId hhd

/-- Steps compose. -/
theorem Passes.trans {s'' : Database} (h₁ : Passes s s') (h₂ : Passes s' s'') : Passes s s'' := by
  refine ⟨h₁.ledger.trans h₂.ledger,fun a ha intentId href => ?_,
    fun intentId hhd => h₂.safe (h₁.held intentId hhd)⟩
  obtain ⟨b,hb,hid,hbre,hset⟩ := h₁.attempts a ha intentId href
  obtain ⟨c,hc,hcid,hcre,hcse⟩ := h₂.attempts b hb intentId hbre
  exact ⟨c,hc,hcid.trans hid,hcre,fun h => hcse (hset h)⟩

theorem Ground.one (h : Ground orderId s) {a : Attempt} (ha : a∈s.attempts)
    (href : a.providerRef=some intentId) : s.attempts.countP (tracks intentId)=1 := by
  have hpos : 0<s.attempts.countP (tracks intentId) :=
    countP_pos_iff.mpr ⟨a,ha,decide_eq_true href⟩
  have hle := h.tracked intentId
  omega

/-- A new open attempt whose intent, if it has one, was not tracked before keeps
the facts about attempts. -/
theorem Ground.opened (h : Ground orderId s) (row : Attempt)
    (hnew : row.id∉s.attempts.map Attempt.id) (hop : row.status=.opened)
    (hrefs : ∀ intentId, row.providerRef=some intentId→s.attempts.countP (tracks intentId)=0) :
    Ground orderId {s with attempts := s.attempts++[row]} ∧
      Passes s {s with attempts := s.attempts++[row]} := by
  have hkp : ∀ a∈s.attempts, a∈s.attempts++[row] := fun a ha => mem_append_left _ ha
  constructor
  · refine ⟨h.order,h.unstaged,h.sound,?_,fun intentId => ?_,fun a ha href => ?_,
      fun a ha hset intentId href => ?_⟩
    · exact nodup_map_append Attempt.id h.ids fun a ha heq => hnew (mem_map.mpr ⟨a,ha,heq⟩)
    · cases htra : tracks intentId row with
      | true => simp [hrefs intentId (of_decide_eq_true htra),htra]
      | false =>
        have hle := h.tracked intentId
        simpa [htra] using hle
    · rcases mem_append.mp ha with hold|hlt
      · exact h.unbound a hold href
      · rw [mem_singleton.mp hlt,hop]
        decide
    · rcases mem_append.mp ha with hold|hlt
      · exact h.covered a hold hset intentId href
      · rw [mem_singleton.mp hlt,hop] at hset
        cases hset
  · refine ⟨.refl _,fun a ha _ href => ⟨a,hkp a ha,rfl,href,id⟩,fun _ hhd => ?_⟩
    obtain ⟨a,ha,htra,hunk⟩ := hhd
    exact .inr ⟨a,hkp a ha,htra,hunk⟩

section
variable (h : Ground orderId s) {row : Order} (hsta : Stage s row attempt i)
variable (hlan : Lands s s' attempt i)
include h hsta hlan

/-- An applied snapshot that lands keeps the facts about attempts. -/
theorem Ground.land : Ground orderId s' := by
  obtain ⟨o,ho,hcle⟩ := h.order
  obtain ⟨o',ho',hmar⟩ := hlan.grows.orders orderId o ho
  have href : attempt.providerRef=some i.intent.id := of_decide_eq_true hsta.tracked
  refine ⟨⟨o',ho',hmar.trans hcle⟩,?_,hlan.sound,?_,fun intentId => ?_,
    fun b hb hno hset => ?_,fun b hb hset intentId hbre => ?_⟩
  · intro edit hed
    rw [hlan.grows.edits] at hed
    exact h.unstaged edit hed
  · rw [hlan.attempts.ids]
    exact h.ids
  · rw [hlan.attempts.count]
    exact h.tracked intentId
  · obtain ⟨a,ha,heq,hwas⟩ := hlan.attempts.backward h.ids hsta.member hb
    rcases hwas hset with hold|⟨rfl,-⟩
    · exact h.unbound a ha (heq ▸ hno) hold
    · rw [heq,href] at hno
      cases hno
  · obtain ⟨a,ha,heq,hwas⟩ := hlan.attempts.backward h.ids hsta.member hb
    rcases hwas hset with hold|⟨rfl,hcap⟩
    · exact hlan.grows.captured (h.covered a ha hold intentId (heq ▸ hbre))
    · rw [heq,href] at hbre
      cases hbre
      exact hcap

/-- An applied snapshot that lands takes nothing back, when it leaves held money
of its own intent captured or held. -/
theorem Ground.pass (hown : Held s i.intent.id → Safe s' i.intent.id) :
    Passes s s' := by
  have href : attempt.providerRef=some i.intent.id := of_decide_eq_true hsta.tracked
  refine ⟨hlan.grows,fun a ha intentId hare => ?_,fun intentId hhd => ?_⟩
  · obtain ⟨b,hb,hid,hbre,hset,-⟩ := hlan.attempts.forward h.ids hsta.member ha
    exact ⟨b,hb,hid,hbre.trans hare,hset⟩
  by_cases heq : intentId=i.intent.id
  · rw [heq] at hhd ⊢
    exact hown hhd
  obtain ⟨a,ha,htra,hunk⟩ := hhd
  obtain ⟨b,hb,-,hbre,-,hot⟩ := hlan.attempts.forward h.ids hsta.member ha
  have hne : a.id≠attempt.id := by
    intro hid
    have hare : a.providerRef=some intentId := of_decide_eq_true htra
    rw [eq_of_key_eq Attempt.id h.ids ha hsta.member hid,href] at hare
    exact heq (Option.some.inj hare).symm
  rw [hot hne] at hb
  exact .inr ⟨a,hb,htra,hunk⟩

end

theorem Ground.track (h : Ground orderId s) {currency mode attemptId : String}
    (hnew : attemptId∉s.attempts.map Attempt.id)
    (htra : trackStripeIntent s target intentId amount currency mode attemptId = .ok (attempt,s')) :
    Ground orderId s'∧Passes s s'∧attempt∈s'.attempts∧tracks intentId attempt=true ∧
      s'.ledger=s.ledger∧(Held s' intentId → Held s intentId) := by
  unfold trackStripeIntent at htra
  cases hfd : s.attempts.find? (tracks intentId) with
  | some =>
    rw [hfd] at htra
    cases htra
    exact ⟨h,.refl s,mem_of_find?_eq_some hfd,find?_some hfd,rfl,id⟩
  | none =>
    rw [hfd] at htra
    dsimp only at htra
    split_ifs at htra
    cases htra
    have hz : s.attempts.countP (tracks intentId)=0 :=
      countP_eq_zero.mpr (find?_eq_none.mp hfd)
    obtain ⟨hgro,hpas⟩ := h.opened ⟨attemptId,target, "stripe-pi:" ++ intentId,
      some intentId,max 1 amount,toUpperCase currency,mode,.opened,none⟩ hnew rfl
      fun other hot => Option.some.inj hot ▸ hz
    refine ⟨hgro,hpas,mem_concat_self,decide_eq_true rfl,rfl,?_⟩
    rintro ⟨a,ha,htrac,hunk⟩
    rcases mem_append.mp ha with hold|hlt
    · exact ⟨a,hold,htrac,hunk⟩
    · rw [mem_singleton.mp hlt] at hunk
      cases hunk

/-- The order a snapshot names has nothing due. -/
def NothingDue (s : Database) (pi : StripeIntent) : Prop :=
  ∃ named∈namedOrder s pi, dueOf s named.2≤0

/-- The snapshots belong to the order, and drawn identifiers are new. -/
def Admissible (orderId : String) (s : Database) : Action → Prop
  | .apply i =>
    (∀ named∈namedOrder s i.intent, named.2.id=orderId)∧i.attemptId∉s.attempts.map Attempt.id ∧
      i.paymentId∉s.ledger.payments.map Payment.id ∧
      (⟨.paymentSettled,i.paymentId⟩ : Operation)∉s.ledger.effects.operations ∧
      (⟨.duplicateCaptureRecorded,i.paymentId⟩ : Operation)∉s.ledger.effects.operations
  | .preMint _ _ _ _ _ attemptId => attemptId∉s.attempts.map Attempt.id
  | .bind _ _ _ => True
  | .cancelUnpaid _ _ => True

/-- The step spares captured money: a second capture finds its reference on no
unsettled row, and no other snapshot runs over an attempt that is held. -/
def Spares (s : Database) : Action → Prop
  | .apply i =>
    if i.intent.status=.succeeded then
      NothingDue s i.intent→∀ p∈s.ledger.payments, carries i.intent.id p=true→p.state=.settled
    else
      (namedOrder s i.intent).isSome=true → Held s i.intent.id → Captured s.ledger i.intent.id
  | _ => True

/-- What an applied snapshot leaves behind for its intent. -/
structure Settles (s s' : Database) (pi : StripeIntent) : Prop where
  one : s'.attempts.countP (tracks pi.id)=1
  /-- Captured money is on the ledger or held. -/
  safe : pi.status=.succeeded → Safe s' pi.id
  /-- With nothing due, captured money is on the ledger, flagged as a duplicate
  when it was not there before. -/
  covered : pi.status=.succeeded → NothingDue s pi → Captured s'.ledger pi.id ∧
    (Captured s.ledger pi.id∨Flagged s' pi)

theorem namedOrder_stored {pi : StripeIntent}
    (h : namedOrder s pi=some (code,o)) : findOrder s.ledger o.id=some o := by
  unfold namedOrder at h
  cases hcod : pi.orderCode with
  | none =>
    rw [hcod] at h
    cases h
  | some =>
    rw [hcod] at h
    dsimp only at h
    split_ifs at h
    obtain ⟨row,hrow,hpai⟩ := Option.map_eq_some_iff.mp h
    cases hpai
    unfold orderOfCode at hrow
    split at hrow
    · cases hrow
    · next entry _ =>
      have hid : o.id=entry.2 := (find_key_eq_some Order.id hrow).2
      rw [hid]
      exact hrow

section
variable (h : Ground orderId s)
include h

/-- An applied snapshot keeps the facts, takes nothing back and settles its
intent. -/
theorem Ground.apply (hadm : Admissible orderId s (.apply i)) (hspa : Spares s (.apply i))
    (happ : applyStripeIntent w s i=.ok (outcome,s')) :
    Ground orderId s'∧Passes s s'∧(outcome≠.ignored → Settles s s' i.intent) := by
  obtain ⟨hord,hatt,hdra,hsett,hdup⟩ := hadm
  unfold applyStripeIntent at happ
  cases hnm : namedOrder s i.intent with
  | none =>
    rw [hnm] at happ
    cases happ
    exact ⟨h,.refl s,absurd rfl⟩
  | some pair =>
    obtain ⟨code,o⟩ := pair
    rw [hnm] at happ
    dsimp only at happ
    cases htra : trackStripeIntent s o.id i.intent.id i.intent.amount
        (if o.reconciliationRequired then i.intent.currency else o.currency) i.mode
        i.attemptId with
    | error e =>
      rw [htra] at happ
      cases happ
    | ok result =>
      obtain ⟨attempt,tracked⟩ := result
      rw [htra] at happ
      dsimp only at happ
      obtain ⟨hgro,hpas,hmem,htrac,hled,hhd⟩ := h.track hatt htra
      by_cases hot : attempt.orderId=o.id
      · rw [if_neg (fun hne => hne hot)] at happ
        obtain ⟨row,hrow,hcle⟩ := h.order
        have hid : o.id=orderId := hord (code,o) hnm
        have hsto := namedOrder_stored hnm
        have heq : row=o := by
          rw [hid,hrow] at hsto
          exact Option.some.inj hsto
        have hsta : Stage tracked o attempt i := by
          refine ⟨?_,heq ▸ hcle,?_,hgro.sound,hled ▸ hdra,hled ▸ hsett,hled ▸ hdup,hmem,htrac,
            fun hset => hgro.covered attempt hmem hset _ (of_decide_eq_true htrac)⟩
          · rw [hled]
            exact hsto
          · rw [hid]
            exact hgro.unstaged
        have hdue : dueOf tracked o=dueOf s o := by
          unfold dueOf
          rw [hled]
        have hone : ∀ last : Database, Lands tracked last attempt i →
            last.attempts.countP (tracks i.intent.id)=1 := by
          intro last hlan
          rw [hlan.attempts.count]
          exact hgro.one hmem (of_decide_eq_true htrac)
        by_cases hsuc : i.intent.status=.succeeded
        · rw [Spares,if_pos hsuc] at hspa
          unfold applyStatus at happ
          rw [hsuc] at happ
          obtain ⟨hlan,hsf,hcov⟩ := hsta.applySucceeded (by
            intro hnot p hp hcar
            rw [hled] at hp
            exact hspa ⟨(code,o),hnm,hdue ▸ hnot⟩ p hp hcar) happ
          refine ⟨hgro.land hsta hlan,hpas.trans (hgro.pass hsta hlan fun _ => hsf),
            fun _ => ⟨hone s' hlan,fun _ => hsf,fun _ hnot => ?_⟩⟩
          obtain ⟨named,hmem',hnot⟩ := hnot
          rw [hnm] at hmem'
          cases hmem'
          rw [← hled]
          exact hcov (hdue ▸ hnot)
        · rw [Spares,if_neg hsuc] at hspa
          have hlan := hsta.applyWaiting hsuc happ
          have hown : Held tracked i.intent.id → Safe s' i.intent.id := by
            intro hunk
            have hcap := hspa (by rw [hnm]; rfl) (hhd hunk)
            rw [← hled] at hcap
            exact .inl (hlan.grows.captured hcap)
          exact ⟨hgro.land hsta hlan,hpas.trans (hgro.pass hsta hlan hown),
            fun _ => ⟨hone s' hlan,fun hyes => absurd hyes hsuc,fun hyes => absurd hyes hsuc⟩⟩
      · rw [if_pos hot] at happ
        cases happ
        exact ⟨hgro,hpas,absurd rfl⟩

/-- Rewriting attempts without intent, unless to settled, keeps the facts and
takes nothing back. -/
theorem Ground.rewrite {c : Attempt → Bool} {f : Attempt → Attempt}
    (hunb : ∀ a∈s.attempts, c a=true→a.providerRef=none) (hid : ∀ a, (f a).id=a.id)
    (hop : ∀ a∈s.attempts, c a=true→(f a).status≠.settled)
    (hct : ∀ intentId, (updateWhere c f s.attempts).countP (tracks intentId)≤1) :
    Ground orderId {s with attempts := updateWhere c f s.attempts} ∧
      Passes s {s with attempts := updateWhere c f s.attempts} := by
  have hkp : ∀ a∈s.attempts, a.providerRef≠none→a∈updateWhere c f s.attempts := by
    intro a ha href
    cases hc : c a with
    | true => exact absurd (hunb a ha hc) href
    | false => exact mem_updateWhere.mpr (.inr ⟨ha,hc⟩)
  constructor
  · refine ⟨h.order,h.unstaged,h.sound,nodup_map_updateWhere Attempt.id hid h.ids,hct,
      fun b hb href => ?_,fun b hb hset intentId href => ?_⟩
    · rcases mem_updateWhere.mp hb with ⟨a,ha,hc,rfl⟩|⟨ha,-⟩
      · exact hop a ha hc
      · exact h.unbound b ha href
    · rcases mem_updateWhere.mp hb with ⟨a,ha,hc,rfl⟩|⟨ha,-⟩
      · exact absurd hset (hop a ha hc)
      · exact h.covered b ha hset intentId href
  · refine ⟨.refl _,fun a ha intentId href => ?_,fun intentId hhd => ?_⟩
    · exact ⟨a,hkp a ha (by rw [href]; exact Option.some_ne_none _),rfl,href,id⟩
    · obtain ⟨a,ha,htra,hunk⟩ := hhd
      have href : a.providerRef=some intentId := of_decide_eq_true htra
      exact .inr ⟨a,hkp a ha (by rw [href]; exact Option.some_ne_none _),htra,hunk⟩

/-- Writing a pre-mint attempt keeps the facts and takes nothing back. -/
theorem Ground.preMint {iterationKey currency mode attemptId : String}
    (hnew : attemptId∉s.attempts.map Attempt.id)
    (hope : openStripePreMint s target iterationKey amount currency mode attemptId =
      .ok (attempt,s')) : Ground orderId s'∧Passes s s' := by
  unfold openStripePreMint at hope
  dsimp only at hope
  split at hope
  · split at hope
    · cases hope
      exact ⟨h,.refl s⟩
    · cases hope
  · cases hope
    refine h.opened ⟨attemptId,target, "stripe-pi-pending:" ++ iterationKey,none,
      max 1 amount,toUpperCase currency,mode,.opened,none⟩ hnew rfl fun other hot => ?_
    cases hot

/-- Binding a pre-mint attempt keeps the facts and takes nothing back. -/
theorem Ground.bind {pendingAttemptId : String}
    (hbou : bindStripePreMint s pendingAttemptId target intentId=.ok (attempt,s')) :
    Ground orderId s'∧Passes s s' := by
  unfold bindStripePreMint at hbou
  cases htra : s.attempts.find? (tracks intentId) with
  | some =>
    rw [htra] at hbou
    dsimp only at hbou
    split at hbou
    · cases hbou
      exact ⟨h,.refl s⟩
    · cases hbou
      refine h.rewrite (fun a _ hc => (of_decide_eq_true hc).2) (fun _ => rfl) nofun fun other => ?_
      rw [countP_updateWhere_eq (f := fun a : Attempt => {a with status := .cancelled})
        fun _ _ _ => rfl]
      exact h.tracked other
  | none =>
    rw [htra] at hbou
    cases hpen : s.attempts.find? fun a =>
        isUnbound pendingAttemptId a&&decide (a.orderId=target) with
    | none =>
      rw [hpen] at hbou
      cases hbou
    | some row =>
      rw [hpen] at hbou
      cases hbou
      have hrow : row∈s.attempts := mem_of_find?_eq_some hpen
      have hcon := find?_some hpen
      have hfr : ∀ a∈s.attempts, (isUnbound pendingAttemptId a&&decide (a.orderId=target))=true →
            a.id=pendingAttemptId∧a.providerRef=none :=
        fun a _ hc => of_decide_eq_true (Bool.and_eq_true_iff.mp hc).1
      obtain ⟨hrowId,hrowR⟩ := hfr row hrow hcon
      have hz : s.attempts.countP (tracks intentId)=0 :=
        countP_eq_zero.mpr (find?_eq_none.mp htra)
      refine h.rewrite (fun a ha hc => (hfr a ha hc).2) (fun _ => rfl)
        (fun a ha hc => h.unbound a ha (hfr a ha hc).2) fun other => ?_
      by_cases hsam : other=intentId
      · subst hsam
        have hkey : ∀ a∈s.attempts, (isUnbound pendingAttemptId a&&decide (a.orderId=target)) =
            decide (a.id=row.id) := by
          intro a ha
          by_cases hid : a.id=row.id
          · rw [eq_of_key_eq Attempt.id h.ids ha hrow hid,hcon,decide_eq_true rfl]
          rw [decide_eq_false hid]
          by_contra hc
          have htru := Bool.eq_true_of_not_eq_false hc
          exact hid ((hfr a ha htru).1.trans hrowId.symm)
        rw [updateWhere_congr hkey,countP_update_key Attempt.id _ h.ids hrow (by simp [tracks,hrowR])
          (by simp [tracks]),hz]
      · rw [countP_updateWhere_eq (f := fun a : Attempt => {a with providerRef := some intentId})]
        · exact h.tracked other
        · intro a ha hc
          have hne : ¬ intentId=other := fun heq => hsam heq.symm
          simp [tracks,(hfr a ha hc).2,hne]

/-- Cancelling an unpaid order keeps the facts and takes nothing back. -/
theorem Ground.cancelUnpaid {due : Bool}
    (hcan : cancelUnpaidOrder s target due=.ok s') : Ground orderId s'∧Passes s s' := by
  unfold cancelUnpaidOrder at hcan
  split at hcan
  · cases hcan
  split at hcan
  · cases hcan
    set cancelled := fun r : Order => {r with state := .cancelled}
    have hkp : ∀ other row, findOrder s.ledger other=some row → ∃ row',
        (updateWhere (fun r => decide (r.id=target)) cancelled s.ledger.orders).find?
          (fun o => decide (o.id=other))=some row' ∧
          row'.reconciliationRequired=row.reconciliationRequired := by
      intro other row hrow
      rw [findOrder] at hrow
      refine ⟨(if other=target then cancelled else id) row,?_,?_⟩
      · rw [find_key_updateWhere (f := cancelled) Order.id target other fun _ => rfl,hrow]
        rfl
      · split_ifs <;> rfl
    obtain ⟨o,ho,hcle⟩ := h.order
    obtain ⟨o',ho',hmar⟩ := hkp orderId o ho
    refine ⟨⟨⟨o',ho',hmar.trans hcle⟩,h.unstaged,⟨h.sound.ids,h.sound.refs,
      h.sound.operations⟩,h.ids,h.tracked,h.unbound,h.covered⟩,⟨⟨rfl,hkp,
      fun p hp => ⟨p,hp,.refl p⟩⟩,fun a ha _ href => ⟨a,ha,rfl,href,id⟩,
      fun _ hhd => .inr hhd⟩⟩
  · cases hcan

/-- A step keeps the facts and takes nothing back. -/
theorem Ground.step {a : Action} (hadm : Admissible orderId s a) (hspa : Spares s a) :
    Ground orderId (StripeIntents.step w s a).2∧Passes s (StripeIntents.step w s a).2 := by
  cases a with
  | apply i =>
    unfold StripeIntents.step
    dsimp only
    cases happ : applyStripeIntent w s i with
    | error => exact ⟨h,.refl s⟩
    | ok =>
      obtain ⟨hgro,hpas,-⟩ := h.apply hadm hspa happ
      exact ⟨hgro,hpas⟩
  | preMint target iterationKey amount currency mode attemptId =>
    unfold StripeIntents.step
    dsimp only
    cases hope : openStripePreMint s target iterationKey amount currency mode attemptId with
    | error => exact ⟨h,.refl s⟩
    | ok => exact h.preMint hadm hope
  | bind pendingAttemptId target intentId =>
    unfold StripeIntents.step
    dsimp only
    cases hbou : bindStripePreMint s pendingAttemptId target intentId with
    | error => exact ⟨h,.refl s⟩
    | ok => exact h.bind hbou
  | cancelUnpaid target due =>
    unfold StripeIntents.step
    dsimp only
    cases hcan : cancelUnpaidOrder s target due with
    | error => exact ⟨h,.refl s⟩
    | ok => exact h.cancelUnpaid hcan

end

/-- Steps with their answers, oldest first. -/
abbrev History := List (Event Database Action (Except StripeError IntentOutcome))

/-- The step applied the snapshot to its order. -/
def Applied (e : Event Database Action (Except StripeError IntentOutcome)) (i : Application) :
    Prop :=
  e.action=.apply i∧∃ outcome, e.result=.ok outcome∧outcome≠.ignored

/-- Captured Stripe money is never lost. -/
structure MoneyKept (start : Database) (h : History) (s : Database) : Prop where
  attempts : ∀ intentId, s.attempts.countP (tracks intentId)≤1
  bound : ∀ a∈start.attempts, ∀ intentId, a.providerRef=some intentId →
    s.attempts.countP (tracks intentId)=1
  applied : ∀ e∈h, ∀ i, Applied e i→s.attempts.countP (tracks i.intent.id)=1
  payments : ∀ intentId, s.ledger.payments.countP (carries intentId)≤1
  settled : ∀ e∈h, ∀ a∈e.before.attempts, ∀ intentId, a.providerRef=some intentId →
    a.status=.settled → ∃ b∈s.attempts, b.id=a.id∧b.providerRef=some intentId∧b.status=.settled
  captured : ∀ e∈h, ∀ i, Applied e i→i.intent.status=.succeeded → Safe s i.intent.id
  /-- Captured money of an order with nothing due is on the ledger exactly once,
  flagged as a duplicate when it was not there before. -/
  covered : ∀ e∈h, ∀ i, Applied e i→i.intent.status=.succeeded → NothingDue e.before i.intent →
      s.ledger.payments.countP (carries i.intent.id)=1∧Captured s.ledger i.intent.id ∧
        (Captured e.before.ledger i.intent.id∨Flagged s i.intent)

theorem Passes.flagged (h : Passes s s') {pi : StripeIntent} (hfla : Flagged s pi) :
    Flagged s' pi := by
  obtain ⟨p,hp,hcar,hset,hdup,hamo⟩ := hfla
  obtain ⟨q,hq,hpq⟩ := h.ledger.payments p hp
  obtain ⟨hqse,hqdu⟩ := hpq.settled hset
  exact ⟨q,hq,(hpq.carries pi.id).trans hcar,hqse,hqdu.trans hdup,hpq.amount.trans hamo⟩

/-- What every step of a run leaves to the states after it. -/
structure Recorded (h : History) (s : Database) : Prop where
  before : ∀ e∈h, Passes e.before s
  /-- Nothing a step left behind is taken back. -/
  after : ∀ e∈h, Passes e.after s
  settles : ∀ e∈h, ∀ i, Applied e i → Settles e.before e.after i.intent

theorem Recorded.step {h : History} (hrec : Recorded h s) (hgro : Ground orderId s)
    {a : Action} (hadm : Admissible orderId s a) (hspa : Spares s a) :
    Recorded (h++[perform (StripeIntents.step w) s a]) (StripeIntents.step w s a).2 := by
  obtain ⟨-,hpas⟩ := hgro.step (w := w) hadm hspa
  refine ⟨fun e he => ?_,fun e he => ?_,fun e he i happ => ?_⟩
  · rcases mem_append.mp he with hold|hlt
    · exact (hrec.before e hold).trans hpas
    · rw [mem_singleton.mp hlt]
      exact hpas
  · rcases mem_append.mp he with hold|hlt
    · exact (hrec.after e hold).trans hpas
    · rw [mem_singleton.mp hlt]
      exact .refl _
  · rcases mem_append.mp he with hold|hlt
    · exact hrec.settles e hold i happ
    rw [mem_singleton.mp hlt] at happ ⊢
    obtain ⟨hact,outcome,hres,hkn⟩ := happ
    subst hact
    change (StripeIntents.step w s (.apply i)).1=.ok outcome at hres
    change Settles s (StripeIntents.step w s (.apply i)).2 i.intent
    unfold StripeIntents.step at hres ⊢
    dsimp only at hres ⊢
    cases hrun : applyStripeIntent w s i with
    | error =>
      rw [hrun] at hres
      cases hres
    | ok =>
      rw [hrun] at hres
      cases hres
      exact (hgro.apply hadm hspa hrun).2.2 hkn

/-- In every run whose steps spare captured money, it is never lost. -/
theorem captured_money_kept {start : Database} {h : History} (hstart : Ground orderId start)
    (hrun : Run (StripeIntents.step w) (fun _ s a => Admissible orderId s a∧Spares s a) start h
      s) : MoneyKept start h s := by
  obtain ⟨hgro,hpas,hrec⟩ : Ground orderId s∧Passes start s∧Recorded h s := by
    refine Run.invariant (P := fun h s => Ground orderId s∧Passes start s∧Recorded h s) hrun
      ⟨hstart,.refl start,?_⟩ ?_
    · exact ⟨fun _ he => absurd he not_mem_nil,fun _ he => absurd he not_mem_nil,
        fun _ he => absurd he not_mem_nil⟩
    · rintro past mid a ⟨hgro,hpas,hrec⟩ ⟨hadm,hspa⟩
      obtain ⟨hnx,hpass⟩ := hgro.step (w := w) hadm hspa
      exact ⟨hnx,hpas.trans hpass,hrec.step hgro hadm hspa⟩
  refine ⟨hgro.tracked,fun a ha intentId href => ?_,fun e he i happ => ?_,
    hgro.sound.refs,fun e he a ha intentId href hset => ?_,
    fun e he i happ hsuc => ?_,fun e he i happ hsuc hnot => ?_⟩
  · obtain ⟨b,hb,-,hbre,-⟩ := hpas.attempts a ha intentId href
    exact hgro.one hb hbre
  · have hone := (hrec.settles e he i happ).one
    have hpos : 0<e.after.attempts.countP (tracks i.intent.id) := by omega
    obtain ⟨a,ha,htra⟩ := countP_pos_iff.mp hpos
    obtain ⟨b,hb,-,hbre,-⟩ :=
      (hrec.after e he).attempts a ha i.intent.id (of_decide_eq_true htra)
    exact hgro.one hb hbre
  · obtain ⟨b,hb,hid,hbre,hkp⟩ := (hrec.before e he).attempts a ha intentId href
    exact ⟨b,hb,hid,hbre,hkp hset⟩
  · exact (hrec.after e he).safe ((hrec.settles e he i happ).safe hsuc)
  · obtain ⟨hcap,hfla⟩ := (hrec.settles e he i happ).covered hsuc hnot
    have hnow := (hrec.after e he).ledger.captured hcap
    refine ⟨?_,hnow,hfla.imp_right (hrec.after e he).flagged⟩
    obtain ⟨p,hp,hcar,-⟩ := hnow
    have hpos : 0<s.ledger.payments.countP (carries i.intent.id) :=
      countP_pos_iff.mpr ⟨p,hp,hcar⟩
    have hle := hgro.sound.refs i.intent.id
    omega

/-- Whether money is captured can be computed. -/
instance (store : Store) (ref : String) : Decidable (Captured store ref) := by
  unfold Captured
  infer_instance

/-- Whether money is held can be computed. -/
instance (db : Database) (intentId : String) : Decidable (Held db intentId) := by
  unfold Held
  infer_instance

/-- Whether money is captured or held can be computed. -/
instance (db : Database) (intentId : String) : Decidable (Safe db intentId) := by
  unfold Safe
  infer_instance

/-- Whether nothing is due can be computed. -/
instance (db : Database) (pi : StripeIntent) : Decidable (NothingDue db pi) := by
  unfold NothingDue
  infer_instance

/-- Whether a step is admissible can be computed. -/
instance (orderId : String) (db : Database) (a : Action) :
    Decidable (Admissible orderId db a) := by
  cases a <;> unfold Admissible <;> infer_instance

/-- Whether a step spares captured money can be computed. -/
instance (db : Database) (a : Action) : Decidable (Spares db a) := by
  cases a <;> unfold Spares <;> infer_instance

/-- Effects run inline and no edit is staged. -/
def sampleWorld : StripeIntents.World := ⟨PaymentConvergence.inlineWorld,fun _ => none⟩

/-- A waiting order of one hundred cents without attempts. -/
def sampleStart : Database := ⟨PaymentConvergence.waitingStore,[("CODE", "order")],[],[]⟩

/-- A snapshot of an intent of the sample order. -/
def snapshot (id : String) (named : id ≠ "") (amount : ℤ) (status : IntentStatus)
    (error : Option String) (drawn : String) : Action :=
  .apply ⟨⟨id,named,amount, "usd",status,some "CODE",error⟩, "live", "a" ++ drawn,
    "p" ++ drawn,⟨0,fun _ => .returned (.done "done")⟩⟩

/-- A declined try, a payment through another intent, and the capture of the
first intent. -/
def lateCapture : List Action :=
  [snapshot "pi_1" (by decide) 100 .requiresPaymentMethod (some "declined") "1",
    snapshot "pi_2" (by decide) 100 .succeeded none "2",
    snapshot "pi_1" (by decide) 100 .succeeded none "3"]

/-- A capture that cannot be verified, and an older snapshot delivered after it. -/
def lateSnapshot : List Action := [snapshot "pi_1" (by decide) 90 .succeeded none "1",
    snapshot "pi_1" (by decide) 90 .processing none "2"]

/-- The history of a list of steps of the sample store. -/
def sampleHistory (actions : List Action) : History :=
  (play (step sampleWorld) [] sampleStart actions).1

/-- The tables a list of steps of the sample store leaves behind. -/
def sampleEnd (actions : List Action) : Database :=
  (play (step sampleWorld) [] sampleStart actions).2

/-- The sample store meets the facts of a start. -/
theorem sampleStart_ground : Ground "order" sampleStart := by
  refine ⟨⟨PaymentConvergence.waitingOrder,rfl,rfl⟩,?_,⟨by decide,?_,?_⟩,by decide,?_,?_,?_⟩
  · exact fun edit hed => absurd hed not_mem_nil
  · exact fun _ => Nat.zero_le _
  · exact fun p hp => absurd hp not_mem_nil
  · exact fun _ => Nat.zero_le _
  · exact fun a ha => absurd ha not_mem_nil
  · exact fun a ha => absurd ha not_mem_nil

/-- A second capture whose intent was declined before settles its attempt and
leaves no captured row, and a snapshot delivered late takes back the hold of
captured money that could not be verified. -/
theorem captured_money_lost :
    (Admitted (StripeIntents.step sampleWorld) (fun _ s a => Admissible "order" s a) []
        sampleStart lateCapture ∧
      ¬ MoneyKept sampleStart (sampleHistory lateCapture) (sampleEnd lateCapture)) ∧
    (Admitted (StripeIntents.step sampleWorld) (fun _ s a => Admissible "order" s a) []
        sampleStart lateSnapshot ∧
      ¬ MoneyKept sampleStart (sampleHistory lateSnapshot) (sampleEnd lateSnapshot)) := by
  refine ⟨⟨⟨by decide,by decide,by decide,trivial⟩,fun hkp => ?_⟩,
    ⟨by decide,by decide,trivial⟩,fun hkp => ?_⟩
  · have hsf : Safe (sampleEnd lateCapture) "pi_1" :=
      hkp.captured (perform (StripeIntents.step sampleWorld)
        (sampleEnd (lateCapture.take 2)) (snapshot "pi_1" (by decide) 100 .succeeded none "3"))
        (mem_concat_self) _
        ⟨rfl,.duplicate,by decide,by decide⟩ rfl
    exact absurd hsf (by decide)
  · have hsf : Safe (sampleEnd lateSnapshot) "pi_1" :=
      hkp.captured (perform (StripeIntents.step sampleWorld) sampleStart
        (snapshot "pi_1" (by decide) 90 .succeeded none "1"))
        (mem_append_left _ (mem_singleton_self _)) _
        ⟨rfl,.verifyFailed,by decide,by decide⟩ rfl
    exact absurd hsf (by decide)

/-- Two captures, the second of them with nothing due, repeated and followed by
an older snapshot. -/
def sparedCaptures : List Action := [snapshot "pi_1" (by decide) 100 .requiresAction none "1",
    snapshot "pi_2" (by decide) 100 .succeeded none "2",
    snapshot "pi_1" (by decide) 100 .succeeded none "3",
    snapshot "pi_1" (by decide) 100 .processing none "4",
    snapshot "pi_1" (by decide) 100 .succeeded none "5"]

/-- Two captures of the sample order are kept, the second as a duplicate. -/
theorem captured_money_kept_twice :
    MoneyKept sampleStart (sampleHistory sparedCaptures) (sampleEnd sparedCaptures) ∧
      (sampleEnd sparedCaptures).ledger.payments.map Payment.duplicate=[false,true] := by
  have hadm : Admitted (StripeIntents.step sampleWorld)
      (fun _ s a => Admissible "order" s a∧Spares s a) [] sampleStart sparedCaptures := by decide
  exact ⟨captured_money_kept sampleStart_ground (.play Run.nil sparedCaptures hadm),by decide⟩

end SellRight.StripeIntentSafety
