import SellRight.RefundSafety

/-!
# What the key of a refund is bound to

A key may be repeated with the digest it was first used with. The digest reads
every field of a request that decides on its refund but one: the shipping
refunded next to lines. Two accepted requests of one digest are refunded the
same, up to the order of the lines, exactly when they ask for the same
shipping or name no lines.
-/

namespace SellRight.RefundFingerprint

open List

open FallibleSteps JsonText OrderLifecycle PaymentLedger RefundRequests RefundSafety RefundSettlement
open RowTable

variable {w : World} {db : Store} {o : Order} {first second : RefundRequest}

/-- Two requests agree on what the digest reads. -/
structure SameDigest (first second : RefundRequest) : Prop where
  orderId : first.orderId=second.orderId
  paymentId : first.paymentId=second.paymentId
  amount : first.amount=second.amount
  lines : first.lines.Perm second.lines
  /-- Same treatment of the units of a full refund. -/
  restock : first.restock=second.restock
  reason : first.reason=second.reason
  returnId : first.returnId=second.returnId
  source : first.source=second.source
  editId : first.editId.getD "" = second.editId.getD ""
  creditMerchandiseReturn : first.creditMerchandiseReturn=second.creditMerchandiseReturn
  editLines : first.editLines.Perm second.editLines

/-- An optional text is read back from its member. -/
theorem textOrNull_injective : Function.Injective textOrNull := by
  rintro (_|a) (_|b) heq
  · rfl
  · cases heq
  · cases heq
  · exact congrArg some (Json.str.inj heq)

/-- An optional number is read back from its member. -/
theorem numberOrNull_injective : Function.Injective numberOrNull := by
  rintro (_|a) (_|b) heq
  · rfl
  · cases heq
  · cases heq
  · exact congrArg some (Json.num.inj heq)

/-- A line is read back from its canonical form. -/
theorem lineJson_injective : Function.Injective lineJson := by
  rintro ⟨orderLineId,quantity,restock⟩ ⟨orderLineId',quantity',restock'⟩ heq
  simp only [lineJson,Json.obj.injEq,cons.injEq,Prod.mk.injEq,Json.str.injEq,
    Json.num.injEq,Json.bool.injEq,true_and,and_true] at heq
  obtain ⟨rfl,rfl,rfl⟩ := heq
  rfl

/-- An edit line is read back from its canonical form. -/
theorem editLineJson_injective : Function.Injective editLineJson := by
  rintro ⟨orderLineId,quantity,amount⟩ ⟨orderLineId',quantity',amount'⟩ heq
  simp only [editLineJson,Json.obj.injEq,cons.injEq,Prod.mk.injEq,Json.str.injEq,
    Json.num.injEq,true_and,and_true] at heq
  obtain ⟨rfl,rfl,rfl⟩ := heq
  rfl

theorem perm_of_sorted {α : Type} {r : α → α → Prop} [DecidableRel r] {xs ys : List α}
    (hsame : xs.insertionSort r=ys.insertionSort r) : xs.Perm ys := by
  have hsor := (perm_insertionSort r xs).symm
  rw [hsame] at hsor
  exact hsor.trans (perm_insertionSort r ys)

theorem canonicalRequest_plain (w : World) (input : RefundRequest) :
    Plain (canonicalRequest w input) := by
  have htex : ∀ text, Plain (textOrNull text) := by
    rintro (-|text)
    · exact .null
    · exact .str text
  have hnum : ∀ n, Plain (numberOrNull n) := by
    rintro (-|n)
    · exact .null
    · exact .num n
  have hlns : Plain (.arr ((sortLines w input.lines).map lineJson)) := by
    refine .arr fun item hite => ?_
    obtain ⟨line,-,rfl⟩ := mem_map.mp hite
    refine .obj (by simp) ?_
    simp only [forall_mem_cons]
    exact ⟨.str _,.num _,.bool _,by simp⟩
  have hedi : Plain (.arr ((sortEditLines w input.editLines).map editLineJson)) := by
    refine .arr fun item hite => ?_
    obtain ⟨line,-,rfl⟩ := mem_map.mp hite
    refine .obj (by simp) ?_
    simp only [forall_mem_cons]
    exact ⟨.str _,.num _,.num _,by simp⟩
  refine .obj ?_ ?_
  · split_ifs <;> simp
  intro member hmem
  simp only [mem_append,mem_cons,not_mem_nil,or_false] at hmem
  rcases hmem with ((hfix|hed)|hret)|hrem
  · rcases hfix with rfl|rfl|rfl|rfl|rfl|rfl|rfl|rfl
    · exact .str _
    · exact htex _
    · exact hnum _
    · exact hlns
    · exact .bool _
    · exact htex _
    · exact htex _
    · exact htex _
  · split_ifs at hed
    · cases mem_singleton.mp hed
      exact .str _
    · cases hed
  · split_ifs at hret
    · cases mem_singleton.mp hret
      exact .bool _
    · cases hret
  · split_ifs at hrem
    · cases mem_singleton.mp hrem
      exact hedi
    · cases hrem

/-- The optional members of a canonical request are read back. -/
theorem canonicalRequest_get (w : World) (input : RefundRequest) :
    (canonicalRequest w input).get "editId" =
        (if input.editId.getD "" ≠ "" then some (.str (input.editId.getD "")) else none) ∧
      (canonicalRequest w input).get "creditMerchandiseReturn" =
        (if input.creditMerchandiseReturn then some (.bool true) else none) ∧
      (canonicalRequest w input).get "editLines" =
        (if input.editLines≠[] then
          some (.arr ((sortEditLines w input.editLines).map editLineJson)) else none) := by
  simp only [canonicalRequest,Json.get]
  split_ifs <;> simp

/-- With an injective digest, equal fingerprints come from requests that agree
on what is read. -/
theorem requestFingerprint_sameDigest (hdig : Function.Injective w.sha256)
    (hpri : requestFingerprint w first=requestFingerprint w second) : SameDigest first second := by
  have hcan : canonicalRequest w first=canonicalRequest w second := by
    have hpar := congrArg parse (hdig hpri)
    rw [parse_stringify (canonicalRequest_plain w first),
      parse_stringify (canonicalRequest_plain w second)] at hpar
    exact Option.some.inj hpar
  obtain ⟨hed,hret,hrem⟩ := canonicalRequest_get w first
  obtain ⟨hed',hret',hrem'⟩ := canonicalRequest_get w second
  rw [hcan] at hed hret hrem
  have hedi : first.editId.getD "" = second.editId.getD "" := by
    have hbo := hed.symm.trans hed'
    split_ifs at hbo with hone hot hot
    · exact Json.str.inj (Option.some.inj hbo)
    · exact (not_not.mp hone).trans (not_not.mp hot).symm
  have hcre : first.creditMerchandiseReturn=second.creditMerchandiseReturn := by
    have hbo := hret.symm.trans hret'
    split_ifs at hbo with hone hot hot
    · exact hone.trans hot.symm
    · exact (Bool.eq_false_iff.mpr hone).trans (Bool.eq_false_iff.mpr hot).symm
  have heditLines : first.editLines.Perm second.editLines := by
    have hbo := hrem.symm.trans hrem'
    split_ifs at hbo with hone hot hot
    · exact perm_of_sorted
        (map_injective_iff.mpr editLineJson_injective (Json.arr.inj (Option.some.inj hbo)))
    · rw [not_not.mp hone,not_not.mp hot]
  simp only [canonicalRequest,cons_append,nil_append,Json.obj.injEq,cons.injEq,
    Prod.mk.injEq,true_and,Json.str.injEq,Json.arr.injEq,Json.bool.injEq] at hcan
  obtain ⟨hord,hpay,hamo,hlns,hres,hrea,hretu,hsou,-⟩ := hcan
  exact ⟨hord,textOrNull_injective hpay,numberOrNull_injective hamo,
    perm_of_sorted (map_injective_iff.mpr lineJson_injective hlns),hres,
    textOrNull_injective hrea,textOrNull_injective hretu,textOrNull_injective hsou,
    hedi,hcre,heditLines⟩

/-- Payment a request names, or the only one there is. -/
def namedPayment (db : Store) (o : Order) (paymentId : Option String) : Option Payment :=
  if paymentId.getD "" ≠ "" then
    (settledPayments db o).find? fun p => decide (some p.id=paymentId)
  else
    match (settledPayments db o).filter fun p => !p.duplicate with
    | [p] => some p
    | _ => none

theorem selectPayment_ok {p : Payment} (hsel : selectPayment db o first=.ok p) :
    namedPayment db o first.paymentId=some p ∧
      (p.duplicate=true→first.lines=[]∧first.returnId.getD "" = "") := by
  unfold selectPayment at hsel
  simp only at hsel
  split at hsel
  · cases hsel
  · next chosen hcho =>
    split at hsel
    · cases hsel
    split at hsel
    · cases hsel
    · next hdupl =>
      cases hsel
      refine ⟨hcho,fun hdup => ?_⟩
      by_contra hnm
      refine hdupl ⟨hdup,?_⟩
      by_cases hlns : first.lines=[]
      · exact .inr (.inl fun hret => hnm ⟨hlns,hret⟩)
      · exact .inl hlns

theorem selectReturn_ok {rma : Option ReturnRequest} (hsel : selectReturn db o first=.ok rma) :
    (first.returnId.getD "" = "" ∧ rma=none)∨(first.returnId.getD "" ≠ "" ∧ rma≠none ∧
      rma=db.returns.find? fun row => decide (some row.id=first.returnId∧row.orderId=o.id)) := by
  unfold selectReturn at hsel
  split at hsel
  · next hno =>
    cases hsel
    exact .inl ⟨hno,rfl⟩
  · next hnm =>
    split at hsel
    · cases hsel
    · next row hrow =>
      split at hsel
      · cases hsel
        exact .inr ⟨hnm,Option.some_ne_none _,hrow.symm⟩
      · cases hsel

/-- Every stage of an accepted request. -/
structure Stages (w : World) (db : Store) (o : Order) (input : RefundRequest)
    (plan : RefundPlan) : Prop where
  rma : selectReturn db o input=.ok plan.rma
  payment : selectPayment db o input=.ok plan.payment
  lines : ∃ credit, creditUnits w db o (namedLines db input plan.payment plan.rma)
      (takesAllLines db o input plan.payment (namedLines db input plan.payment plan.rma)) =
        .ok credit ∧
    snapshotLines w db o credit (selectLines db o input plan.payment
      (namedLines db input plan.payment plan.rma) credit)=.ok plan.lines
  edits : checkEditLines w db o input=.ok plan.edits
  amounts : plan.amounts=amountsOf input
    (decide (namedLines db input plan.payment plan.rma≠[])) (availableAmount db o plan.payment)
      plan.lines plan.edits

/-- An accepted request went through its stages. -/
theorem planRefund_stages {plan : RefundPlan} (hpl : planRefund w db o first=.ok plan) :
    Stages w db o first plan := by
  simp only [planRefund,bind_eq_ok] at hpl
  obtain ⟨-,-,rma,hrma,p,hp,-,-,credit,hcre,-,-,snapshots,hsna,edits,hedi,hpl⟩ := hpl
  split at hpl
  · cases hpl
  obtain ⟨-,-,hpl⟩ := bind_eq_ok.mp hpl
  cases hpl
  exact ⟨hrma,hp,⟨credit,hcre,hsna⟩,hedi,rfl⟩

def namesLines (db : Store) (input : RefundRequest) : Bool :=
  if input.returnId.getD "" = "" then decide (input.lines≠[])
  else db.returnLines.any fun line => decide (some line.returnId=input.returnId)

/-- Shipping asked for, as a refund with lines reads it. -/
def askedShipping (input : RefundRequest) : ℤ := shippingOf input true

variable {plan other : RefundPlan}

/-- The lines a request names are there exactly when it names some. -/
theorem Stages.named_iff (h : Stages w db o first plan) :
    decide (namedLines db first plan.payment plan.rma≠[])=namesLines db first := by
  obtain ⟨-,hdupl⟩ := selectPayment_ok h.payment
  unfold namedLines namesLines
  rcases selectReturn_ok h.rma with ⟨hret,hrma⟩|⟨hret,hrma,hfd⟩
  · rw [hrma,if_pos hret]
    simp only
    split
    · next hdup =>
      rw [(hdupl hdup).1]
    · rfl
  · rw [if_neg hret]
    cases hrow : plan.rma with
    | none => exact absurd hrow hrma
    | some row =>
      rw [hrow] at hfd
      have hid : some row.id=first.returnId∧row.orderId=o.id := by
        simpa using find?_some hfd.symm
      simp only
      rw [← hid.1,Bool.eq_iff_iff,decide_eq_true_eq,Ne,map_eq_nil_iff,filter_eq_nil_iff]
      simp

variable (hsame : SameDigest first second)
include hsame

section
variable (h : Stages w db o first plan) (h' : Stages w db o second other)
include h h'

/-- Requests that agree on what is read select the same return. -/
theorem Stages.rma_eq :
    plan.rma=other.rma := by
  have hsec := selectReturn_ok h'.rma
  rw [← hsame.returnId] at hsec
  rcases selectReturn_ok h.rma with ⟨hno,hrma⟩|⟨hnm,-,hrma⟩
  · rcases hsec with ⟨-,hot⟩|⟨hnm,-⟩
    · rw [hrma,hot]
    · exact absurd hno hnm
  · rcases hsec with ⟨hno,-⟩|⟨-,-,hot⟩
    · exact absurd hno hnm
    · rw [hrma,hot]

/-- They select the same payment. -/
theorem Stages.payment_eq :
    plan.payment=other.payment := by
  have hfst := (selectPayment_ok h.payment).1
  rw [hsame.paymentId,(selectPayment_ok h'.payment).1] at hfst
  exact (Option.some.inj hfst).symm

end

/-- They name the same lines, in some order. -/
theorem namedLines_perm (p : Payment) (rma : Option ReturnRequest) :
    (namedLines db first p rma).Perm (namedLines db second p rma) := by
  unfold namedLines
  cases rma with
  | none =>
    simp only
    split
    · exact Perm.refl _
    · exact hsame.lines
  | some => exact Perm.refl _

section
variable {p : Payment} {named named' : List Line} (hper : named.Perm named')
include hper

/-- They take all lines or neither does. -/
theorem takesAllLines_eq :
    takesAllLines db o first p named=takesAllLines db o second p named' := by
  have hem : named=[] ↔ named'=[] :=
    ⟨fun hnil => (hnil ▸ hper).nil_eq.symm,fun hnil => (hnil ▸ hper).eq_nil⟩
  simp only [takesAllLines,hsame.source,hsame.restock,hsame.amount,hem]

/-- They select the same lines, in some order. -/
theorem selectLines_perm (credit : Option (List (String×List ℕ))) :
    (selectLines db o first p named credit).Perm (selectLines db o second p named' credit) := by
  unfold selectLines
  rw [takesAllLines_eq hsame hper,hsame.restock]
  split
  · exact Perm.refl _
  · exact hper

end

omit hsame in
/-- Credit units are read for lines, whatever their order. -/
theorem creditUnits_perm {named named' : List Line} (hper : named.Perm named') (all : Bool) :
    creditUnits w db o named all=creditUnits w db o named' all := by
  have hem : named=[] ↔ named'=[] :=
    ⟨fun hnil => (hnil ▸ hper).nil_eq.symm,fun hnil => (hnil ▸ hper).eq_nil⟩
  simp only [creditUnits,Ne,hem]

omit hsame in
/-- Lines in another order are priced the same, in another order. -/
theorem snapshotLines_perm {credit : Option (List (String×List ℕ))} {lines lines' : List Line}
    {snapshots snapshots' : List LineSnapshot} (hper : lines.Perm lines')
    (hpri : snapshotLines w db o credit lines=.ok snapshots)
    (hpri' : snapshotLines w db o credit lines'=.ok snapshots') : snapshots.Perm snapshots' := by
  unfold snapshotLines at hpri hpri'
  split at hpri
  · next hnil =>
    subst hnil
    rw [if_pos hper.nil_eq.symm] at hpri'
    cases hpri
    cases hpri'
    exact Perm.refl _
  · next hso =>
    rw [if_neg fun hnil => hso (hnil ▸ hper).eq_nil] at hpri'
    split at hpri
    · cases hpri
    · next bases hbas =>
      rw [hbas] at hpri'
      simp only at hpri'
      split_ifs at hpri with hdis
      · rw [if_pos ((hper.map Line.orderLineId).nodup_iff.mp hdis)] at hpri'
        exact mapM_perm hper hpri hpri'
      · cases hpri

/-- Their removed units are checked the same, in some order. -/
theorem checkEditLines_perm {edits edits' : List LineSnapshot}
    (hck : checkEditLines w db o first=.ok edits)
    (hck' : checkEditLines w db o second=.ok edits') : edits.Perm edits' := by
  unfold checkEditLines at hck hck'
  split at hck
  · next hnil =>
    rw [if_pos (hnil ▸ hsame.editLines).nil_eq.symm] at hck'
    cases hck
    cases hck'
    exact Perm.refl _
  · next hso =>
    rw [if_neg fun hnil => hso (hnil ▸ hsame.editLines).eq_nil] at hck'
    rw [hsame.editId] at hck
    simp only at hck hck'
    split at hck
    · cases hck
    · next staged hsta =>
      rw [hsta] at hck'
      exact mapM_perm hsame.editLines hck hck'

/-- They have the same amounts when they ask for the same shipping or name no
lines, and only then the same part for shipping. -/
theorem Stages.amounts_eq (h : Stages w db o first plan) (h' : Stages w db o second other)
    (hlns : plan.lines.Perm other.lines) (hedi : plan.edits.Perm other.edits) :
    (plan.amounts=other.amounts ↔
        askedShipping first=askedShipping second∨namesLines db first=false) ∧
      (plan.amounts.shippingAmount=other.amounts.shippingAmount →
        askedShipping first=askedShipping second∨namesLines db first=false) := by
  have hnm : namesLines db second=namesLines db first := by
    rw [← h.named_iff,← h'.named_iff,h.payment_eq hsame h',h.rma_eq hsame h',
      Bool.eq_iff_iff,decide_eq_true_eq,decide_eq_true_eq]
    have hper : (namedLines db first other.payment other.rma).Perm
        (namedLines db second other.payment other.rma) :=
      namedLines_perm hsame other.payment other.rma
    exact ⟨fun hso hnil => hso (hnil ▸ hper).nil_eq.symm,fun hso hnil => hso (hnil ▸ hper).eq_nil⟩
  have hite : (plan.lines.map LineSnapshot.amount).sum+(plan.edits.map LineSnapshot.amount).sum =
      (other.lines.map LineSnapshot.amount).sum+(other.edits.map LineSnapshot.amount).sum := by
    rw [(hlns.map LineSnapshot.amount).sum_eq,(hedi.map LineSnapshot.amount).sum_eq]
  have hfst := h.amounts
  have hsec := h'.amounts
  rw [h.named_iff] at hfst
  rw [h'.named_iff,hnm] at hsec
  have hno : ∀ input, shippingOf input false=0 := by
    intro input
    unfold shippingOf
    split
    · exact if_neg fun hship => Bool.false_ne_true hship.1
    · rfl
  have hshi : plan.amounts.shippingAmount=other.amounts.shippingAmount ↔
      askedShipping first=askedShipping second∨namesLines db first=false := by
    rw [hfst,hsec]
    simp only [amountsOf]
    cases namesLines db first with
    | true => simp [askedShipping]
    | false => simp [hno]
  refine ⟨⟨fun hall => hshi.mp (congrArg RefundAmounts.shippingAmount hall),fun hcon => ?_⟩,
    hshi.mp⟩
  have hbo := hshi.mpr hcon
  rw [hfst,hsec] at hbo ⊢
  simp only [amountsOf] at hbo
  simp only [amountsOf,hite,hbo,hsame.amount,h.payment_eq hsame h']

omit hsame

/-- Two refunds carry the same money of the same payment and the same lines,
in some order. -/
structure SameRefund (refund refund' : Refund) (lines lines' : List RefundLine) : Prop where
  paymentId : refund.paymentId=refund'.paymentId
  amount : refund.amount=refund'.amount
  itemsAmount : refund.itemsAmount=refund'.itemsAmount
  shippingAmount : refund.shippingAmount=refund'.shippingAmount
  adjustmentAmount : refund.adjustmentAmount=refund'.adjustmentAmount
  lines : lines.Perm lines'

def storedLines (db : Store) (refundId : String) : List RefundLine :=
  db.refundLines.filter fun line => decide (line.refundId=refundId)

variable {drawn later : Drawn} {refund refund' : Refund} {next next' : Store}

theorem prepareRefund_created (hpre : prepareRefund w db first drawn=.ok (.created refund,next)) :
    ∃ o plan, checkRequest first=.ok ()∧lockOrder db first=.ok o ∧
      planRefund w db o first=.ok plan∧refund=newRefund o first plan drawn ∧
      Stored w db o first plan drawn next∧next.orders=db.orders∧(db.attempts.find? fun a =>
        decide (a.idempotencyKey = "refund:" ++ first.idempotencyKey))=none := by
  obtain ⟨_,hck,hpre⟩ := bind_eq_ok.mp hpre
  obtain ⟨o,hlk,hpre⟩ := bind_eq_ok.mp hpre
  split at hpre
  · next prior _ =>
    unfold replayRequest at hpre
    split at hpre
    · cases hpre
    split at hpre
    · cases hpre
    split at hpre
    · cases hfin : finalizeRefund w db prior.id _ with
      | error | ok =>
        rw [hfin] at hpre
        cases hpre
    · cases hpre
  · next hno =>
    obtain ⟨plan,hpl,hpre⟩ := bind_eq_ok.mp hpre
    obtain ⟨written,hwri,hpre⟩ := bind_eq_ok.mp hpre
    cases hpre
    refine ⟨o,plan,hck,hlk,hpl,rfl,storeRefund_stored hwri,?_,hno⟩
    unfold storeRefund at hwri
    simp only at hwri
    split at hwri
    · cases hwri
    · cases hwri
      rfl

theorem lockOrder_ok (hlk : lockOrder db first=.ok o) :
    findOrder db first.orderId=some o∧o.deleted=false := by
  unfold lockOrder at hlk
  split at hlk
  · cases hlk
  · next found hfd =>
    split at hlk
    · cases hlk
    · next hkp =>
      split at hlk
      · cases hlk
      generalize db.edits.any _=pending at hlk
      cases pending with
      | true => cases hlk
      | false =>
        cases hlk
        exact ⟨hfd,Bool.eq_false_iff.mpr hkp⟩

theorem lockOrder_stored (hfd : findOrder db first.orderId=some o) (hkp : o.deleted=false) :
    lockOrder db first=.ok o∨∃ message, lockOrder db first=refuse 409 message := by
  unfold lockOrder
  rw [hfd]
  simp only [hkp,Bool.false_eq_true,if_false]
  split
  · exact .inr ⟨_,rfl⟩
  generalize db.edits.any _=pending
  cases pending with
  | true => exact .inr ⟨_,rfl⟩
  | false => exact .inl rfl

theorem prepareRefund_refused (hkey : first.idempotencyKey=second.idempotencyKey)
    (hfst : prepareRefund w db first drawn=.ok (.created refund,next))
    (hsec : prepareRefund w db second drawn=.ok (.created refund',next'))
    (hpri : requestFingerprint w first≠requestFingerprint w second) :
    ∃ message, prepareRefund w next second later=.error (.refused 409 message) := by
  obtain ⟨o,plan,-,-,-,-,hsto,hord,hno⟩ := prepareRefund_created hfst
  obtain ⟨o',-,hck,hlk,-⟩ := prepareRefund_created hsec
  obtain ⟨hfd,hkp⟩ := lockOrder_ok hlk
  have hfd' : findOrder next second.orderId=some o' := by
    rw [findOrder,hord]
    exact hfd
  have hprior : (next.attempts.find? fun a =>
      decide (a.idempotencyKey = "refund:" ++ second.idempotencyKey)) =
        some (newAttempt w o first plan drawn) := by
    rw [hsto.attempts,find?_append,← hkey,hno]
    simp [newAttempt]
  unfold prepareRefund
  rw [hck]
  rcases lockOrder_stored hfd' hkp with hloc|⟨message,href⟩
  · rw [hloc]
    simp only [bind,Except.bind,hprior]
    have hot : (newAttempt w o first plan drawn).fingerprint≠requestFingerprint w second := hpri
    unfold replayRequest
    rw [if_pos (.inr (.inr hot))]
    exact ⟨_,rfl⟩
  · rw [href]
    exact ⟨message,rfl⟩

/-- Two requests of one digest that are accepted in one state are refunded the
same exactly when they ask for the same shipping or name no lines. Requests
that do so and are refunded differently cannot use one key. -/
theorem requestFingerprint_binds (hdigest : Function.Injective w.sha256)
    (hkey : first.idempotencyKey=second.idempotencyKey)
    (hfirst : prepareRefund w db first drawn=.ok (.created refund,next))
    (hsecond : prepareRefund w db second drawn=.ok (.created refund',next')) :
    (requestFingerprint w first=requestFingerprint w second →
      (SameRefund refund refund' (storedLines next drawn.refundId)
          (storedLines next' drawn.refundId) ↔
        askedShipping first=askedShipping second∨namesLines db first=false)) ∧
      (askedShipping first=askedShipping second∨namesLines db first=false →
        ¬ SameRefund refund refund' (storedLines next drawn.refundId)
          (storedLines next' drawn.refundId) →
        ∃ message, prepareRefund w next second later=.error (.refused 409 message)) := by
  have hbin : requestFingerprint w first=requestFingerprint w second →
      (SameRefund refund refund' (storedLines next drawn.refundId)
          (storedLines next' drawn.refundId) ↔
        askedShipping first=askedShipping second∨namesLines db first=false) := by
    intro hpri
    have hsame := requestFingerprint_sameDigest hdigest hpri
    obtain ⟨o,plan,-,hlk,hpl,rfl,hsto,-,-⟩ := prepareRefund_created hfirst
    obtain ⟨o',other,-,hlk',hpl',rfl,hsto',-,-⟩ := prepareRefund_created hsecond
    have hord : o=o' := by
      have hfd := (lockOrder_ok hlk).1
      rw [hsame.orderId,(lockOrder_ok hlk').1] at hfd
      exact (Option.some.inj hfd).symm
    subst hord
    have hsta := planRefund_stages hpl
    have hsta' := planRefund_stages hpl'
    have hpay := hsta.payment_eq hsame hsta'
    have hnm : (namedLines db first other.payment other.rma).Perm
        (namedLines db second other.payment other.rma) :=
      namedLines_perm hsame other.payment other.rma
    have hlns : plan.lines.Perm other.lines := by
      obtain ⟨credit,hcre,hprice⟩ := hsta.lines
      obtain ⟨credit',hcre',hpri'⟩ := hsta'.lines
      rw [hpay,hsta.rma_eq hsame hsta'] at hcre hprice
      rw [takesAllLines_eq hsame hnm,creditUnits_perm hnm,hcre'] at hcre
      cases hcre
      exact snapshotLines_perm (selectLines_perm hsame hnm credit) hprice hpri'
    have hedi := checkEditLines_perm hsame hsta.edits hsta'.edits
    obtain ⟨hamo,hshi⟩ := hsta.amounts_eq hsame hsta' hlns hedi
    constructor
    · intro href
      exact hshi href.shippingAmount
    · intro hcon
      have hequ := hamo.mpr hcon
      refine ⟨congrArg Payment.id hpay,congrArg RefundAmounts.amount hequ,
        congrArg RefundAmounts.itemsAmount hequ,congrArg RefundAmounts.shippingAmount hequ,?_,?_⟩
      · simp only [newRefund,hequ]
      · unfold storedLines
        rw [hsto.refundLines,hsto'.refundLines]
        exact (((hlns.append hedi).map _).append_left db.refundLines).filter _
  refine ⟨hbin,fun hcon hdif => ?_⟩
  by_cases hpri : requestFingerprint w first=requestFingerprint w second
  · exact absurd ((hbin hpri).mpr hcon) hdif
  · exact prepareRefund_refused hkey hfirst hsecond hpri

/-- Code outside of the engine for a sample, with the text itself as digest. -/
def plainWorld : World := {sampleWorld with sha256 := id}

/-- Request for one unit of the sample order and thirty cents of its shipping. -/
def withShipping : RefundRequest := {oneUnit "a" with shippingAmount := some 30}

/-- Identifiers drawn for a sample. -/
def sampleDrawn : Drawn := ⟨"attempt1", "refund1"⟩

/-- The key of a refund of a unit is repeated with shipping and answered with
the refund without. -/
theorem requestFingerprint_binds_shipping :
    ¬ ∀ (w : World) (db : Store) (first second : RefundRequest) (drawn : Drawn)
      (refund refund' : Refund) (next next' : Store),Function.Injective w.sha256 →
      first.idempotencyKey=second.idempotencyKey →
      prepareRefund w db first drawn=.ok (.created refund,next) →
      prepareRefund w db second drawn=.ok (.created refund',next') →
      requestFingerprint w first=requestFingerprint w second →
      SameRefund refund refund' (storedLines next drawn.refundId)
        (storedLines next' drawn.refundId) := by
  intro hall
  have hsame := hall plainWorld sampleStore (oneUnit "a") withShipping sampleDrawn _ _ _ _
    Function.injective_id rfl rfl rfl rfl
  exact absurd hsame.shippingAmount (by decide)

def byAnother : RefundRequest := {oneUnit "a" with actor := "support"}

/-- Another actor asks for the same refund. -/
theorem requestFingerprint_binds_sample :
    (∃ refund next refund' next', prepareRefund plainWorld sampleStore (oneUnit "a") sampleDrawn =
          .ok (.created refund,next) ∧
        prepareRefund plainWorld sampleStore byAnother sampleDrawn=.ok (.created refund',next') ∧
        SameRefund refund refund' (storedLines next sampleDrawn.refundId)
          (storedLines next' sampleDrawn.refundId)) ∧
      askedShipping (oneUnit "a")≠askedShipping withShipping := by
  have hdig : Function.Injective plainWorld.sha256 := Function.injective_id
  have hfst : ∃ refund next, prepareRefund plainWorld sampleStore (oneUnit "a") sampleDrawn =
      .ok (.created refund,next) := ⟨_,_,rfl⟩
  have hsec : ∃ refund next, prepareRefund plainWorld sampleStore byAnother sampleDrawn =
      .ok (.created refund,next) := ⟨_,_,rfl⟩
  obtain ⟨refund,next,hfst⟩ := hfst
  obtain ⟨refund',next',hsec⟩ := hsec
  have hbin := @requestFingerprint_binds plainWorld sampleStore (oneUnit "a") byAnother sampleDrawn sampleDrawn
    refund refund' next next' hdig rfl hfst hsec
  exact ⟨⟨refund,next,refund',next',hfst,hsec,(hbin.1 rfl).mpr (.inl rfl)⟩,by decide⟩

end SellRight.RefundFingerprint
