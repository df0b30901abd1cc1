import SellRight.PromotionResolver
import SellRight.PromotionStackAttribution

/-!
# Funding of payments

In a payment only the first credit of the codes has a budget, so only its entry may take
merchandise off, and then the selected credit is that of the entry.
-/

namespace SellRight.PromotionFunding

open List

open PromotionResolver PromotionStack PromotionStackAttribution PromotionStackStages FallibleSteps

/-- The promotion is the first credit, with its account. -/
def Funds (db : ResolverStore) (first : Option PromotionRow) (p : ResolvedPromotion) : Prop :=
  (∃ row, first=some row∧row.id=p.id)∧∃ credit account, p.credit=some credit ∧
    accountOf db p.id=some account∧credit.accountId=account.id

section Resolver

variable {w : ResolverWorld} {db : ResolverStore} {input : ResolveInput}
variable {first : Option PromotionRow}

theorem creditFacts_funds {row : PromotionRow}
    {reason : Option String} {facts : Option Credit×Option String}
    (hpay : input.paying=true) (hkd : row.kind=.accountCredit)
    (h : creditFacts w db input first row reason=.ok facts)
    (hno : facts.2=none) : (∃ f, first=some f∧f.id=row.id)∧∃ credit account,
      facts.1=some credit∧accountOf db row.id=some account∧credit.accountId=account.id := by
  unfold creditFacts at h
  rw [if_neg (not_not.mpr hkd)] at h
  split at h
  · next account code hacc _ =>
    split at h
    · cases h
      cases hno
    dsimp only at h
    split at h
    · cases h
      have hcen : availableCents w input first row code reason≠0 := by
        intro hz
        rw [if_pos hz] at hno
        cases hno
      unfold availableCents at hcen
      split at hcen
      · next hfun =>
        have hfst := hfun.2.resolve_left (by rw [hpay]; decide)
        cases first with
        | none => cases hfst
        | some f => exact ⟨⟨f,rfl,of_decide_eq_true hfst⟩,_,account,rfl,hacc,rfl⟩
      · exact absurd rfl hcen
    · cases h
  · cases h
    cases hno

theorem resolveRow_funds {codes : List String} {sequence : ℕ}
    {row : PromotionRow} {outcome : Option ResolvedPromotion×Option CouponStatus}
    (hpay : input.paying=true)
    (h : resolveRow w db input codes first sequence row=.ok outcome) {p : ResolvedPromotion}
    (hp : outcome.1=some p) (hkd : p.kind=.accountCredit) : Funds db first p := by
  obtain ⟨limits,-,h⟩ := bind_eq_ok.mp h
  obtain ⟨facts,hfac,h⟩ := bind_eq_ok.mp h
  cases hrea : facts.2 with
  | some =>
    rw [hrea] at h
    cases h
    cases hp
  | none =>
    rw [hrea] at h
    cases h
    cases hp
    exact creditFacts_funds hpay hkd hfac hrea

theorem dedupeCodes_covers (w : World) (codes : List String) :
    ∀ code∈codes, ∃ kept∈dedupeCodes w codes, w.toLowerCase kept=w.toLowerCase code := by
  have hgen : ∀ rest start : List String, ∀ code∈start++rest, ∃ kept∈rest.foldl (fun kept code =>
        if (kept.map w.toLowerCase).contains (w.toLowerCase code) then kept else kept++[code]) start,
        w.toLowerCase kept=w.toLowerCase code := by
    intro rest
    induction rest with
    | nil =>
      intro start code hcod
      rw [append_nil] at hcod
      exact ⟨code,hcod,rfl⟩
    | cons first _ ih =>
      intro start code hcod
      rw [foldl_cons]
      split
      · next hkp =>
        rcases mem_append.mp hcod with hsta|hrt
        · exact ih start code (mem_append_left _ hsta)
        · cases hrt with
          | head =>
            obtain ⟨kept,hmem,heq⟩ := mem_map.mp (contains_iff_mem.mp hkp)
            obtain ⟨final,hfin,hlow⟩ := ih start kept (mem_append_left _ hmem)
            exact ⟨final,hfin,hlow.trans heq⟩
          | tail _ hrt => exact ih start code (mem_append_right _ hrt)
      · refine ih (start++[first]) code ?_
        rwa [append_assoc,singleton_append]
  exact fun code hcod => hgen codes [] code hcod

/-- The code, with or without spaces around it, is that of one row only. -/
def Identifies (w : ResolverWorld) (rows : List PromotionRow) (code : String)
    (row : PromotionRow) : Prop :=
  rows.filter (fun other => hasCode w code other||hasCode w (w.trim code) other)=[row]

section
variable {rows : List PromotionRow} {code : String} {row : PromotionRow}
variable (h : Identifies w rows code row)
include h

/-- Of the rows of a code, the only one with a narrower property. -/
theorem filter_identified {P : PromotionRow → Bool}
    (hP : ∀ other, P other=true→(hasCode w code other||hasCode w (w.trim code) other)=true) :
    rows.filter P=[row].filter P := by
  rw [← h,filter_filter]
  refine filter_congr fun other _ => ?_
  cases hot : P other with
  | false => rfl
  | true => rw [hP other hot]; rfl

theorem bearerCode_identifies (hcre : isCredit row=true) :
    rows.filter (hasCode w (bearerCode w rows code))=[row] := by
  have hrow : row∈rows.filter fun other =>
      hasCode w code other||hasCode w (w.trim code) other := by
    rw [h]
    exact mem_singleton_self row
  obtain ⟨-,hnm⟩ := mem_filter.mp hrow
  have hno : ¬ rows.any fun other => !isCredit other&&hasCode w code other := by
    intro hany
    obtain ⟨other,hot,hcas⟩ := any_eq_true.mp hany
    obtain ⟨hgen,hcod⟩ := Bool.and_eq_true_iff.mp hcas
    have heq : other∈[row] := h ▸ mem_filter.mpr ⟨hot,by simp [hcod]⟩
    rw [mem_singleton.mp heq,hcre] at hgen
    cases hgen
  have htri := filter_identified h (P := fun other => isCredit other &&
    hasCode w (w.trim code) other) fun other hot => by simp_all
  unfold bearerCode
  rw [if_neg hno,htri]
  cases hbea : hasCode w (w.trim code) row with
  | true =>
    rw [if_pos (by simp [hcre,hbea])]
    rw [filter_identified h fun other hot => by simp [hot]]
    simp [hbea]
  | false =>
    rw [if_neg (by simp [hbea])]
    rw [hbea,Bool.or_false] at hnm
    rw [filter_identified h fun other hot => by simp [hot]]
    simp [hnm]

end

/-- The database lowers the letters of an ASCII code as the runtime does. -/
def LowersAscii (w : ResolverWorld) : Prop :=
  ∀ text, isAscii text=true→w.sqlLower text=w.toLowerCase text

/-- Every row that has an asked code is loaded. -/
theorem Identifies.loaded {asked : List String} {code : String} {row : PromotionRow}
    (hlow : LowersAscii w) (hcode : code∈asked) (h : Identifies w db.promotions code row) :
    Identifies w (loadRows w db asked) code row := by
  refine perm_singleton.mp (((perm_insertionSort _ _).filter _).trans (.of_eq ?_))
  refine Eq.trans ?_ h
  rw [filter_filter]
  refine filter_congr fun other _ => Bool.and_eq_left_iff_imp.mpr fun hhas => ?_
  refine Bool.or_eq_true_iff.mpr (.inr ((Option.all_eq_true _ _).mpr fun own hown => ?_))
  cases hasc : isAscii own with
  | false => exact Bool.or_true _
  | true =>
    rw [Bool.not_true,Bool.or_false,contains_iff_mem,hlow own hasc,mem_flatMap]
    refine ⟨code,hcode,?_⟩
    simpa [hasCode,hown] using hhas

theorem firstCredit_isSome {asked codes : List String} {rows : List PromotionRow}
    (hcod : canonicalCouponCodes w.toWorld (asked.map (bearerCode w rows))=.ok codes)
    {code : String} (hcode : code∈asked) {row : PromotionRow} (h : Identifies w rows code row)
    (hcre : isCredit row=true) (hena : row.enabled=true)
    (hacc : (accountOf db row.id).isSome=true) : (firstCredit w db rows codes).isSome=true := by
  have hded : codes=dedupeCodes w.toWorld (asked.map (bearerCode w rows)) := by
    unfold canonicalCouponCodes at hcod
    split at hcod
    · exact (Except.ok.inj hcod).symm
    · cases hcod
  obtain ⟨kept,hkp,hlow⟩ := dedupeCodes_covers w.toWorld _ _
    (mem_map_of_mem (f := bearerCode w rows) hcode)
  have hrs : rows.filter (hasCode w kept)=[row] := by
    rw [← bearerCode_identifies h hcre]
    refine filter_congr fun other _ => ?_
    unfold hasCode
    rw [hlow]
  refine List.find?_isSome.mpr ⟨row,mem_filterMap.mpr ⟨kept,hded ▸ hkp,?_⟩,?_⟩
  · rw [hrs]
    rfl
  · rw [hcre,hena,hacc]
    rfl

/-- What a finished payment went through. -/
structure Resolved (w : ResolverWorld) (db : ResolverStore) (input : ResolveInput)
    (r : PromotionStackTotals) (asked codes : List String) (first : Option PromotionRow)
    (totals : PromotionStackTotals) (resolved : List ResolvedPromotion) : Prop where
  askedOk : canonicalCouponCodes w.toWorld input.stack.couponCodes=.ok asked
  codesOk : canonicalCouponCodes w.toWorld
    (asked.map (bearerCode w (loadRows w db asked)))=.ok codes
  firstEq : first=firstCredit w db (loadRows w db asked) codes
  funds : ∀ p∈resolved, p.kind=.accountCredit → Funds db first p
  totalsOk : calculatePromotionStack w.toWorld
    {input.stack with couponCodes := codes,promotions := resolved}=.ok totals
  same : r.applied=totals.applied∧r.selectedCredit=totals.selectedCredit
  funded : first.isSome=true → r.selectedCredit.isSome=true

theorem resolvePromotionStack_resolved {r : PromotionStackTotals} (hpay : input.paying=true)
    (hr : resolvePromotionStack w db input=.ok r) :
    ∃ asked codes first totals resolved, Resolved w db input r asked codes first totals resolved := by
  simp only [resolvePromotionStack,bind_eq_ok] at hr
  obtain ⟨asked,hask,-,-,codes,hcod,hr⟩ := hr
  split_ifs at hr
  simp only [bind_eq_ok] at hr
  obtain ⟨outcomes,hout,-,-,totals,htot,hr⟩ := hr
  split_ifs at hr with hche
  cases hr
  refine ⟨asked,codes,_,totals,_,hask,hcod,rfl,fun p hp hkd => ?_,htot,⟨rfl,rfl⟩,fun hfst => ?_⟩
  · obtain ⟨outcome,hmem,hso⟩ := mem_filterMap.mp hp
    have hrun : (.ok outcome : Except StackError _)∈((candidates w (loadRows w db asked)
        codes).zipIdx).map fun pair => resolveRow w db input codes
          (firstCredit w db (loadRows w db asked) codes) pair.2 pair.1 := by
      rw [mapM_map_ok hout]
      exact mem_map_of_mem hmem
    obtain ⟨pair,-,hrow⟩ := mem_map.mp hrun
    exact resolveRow_funds hpay hrow hso hkd
  · rw [hpay,hfst] at hche
    simpa [Option.isSome_iff_ne_none] using hche

end Resolver

/-- In a payment at most one credit takes merchandise off, it is the selected one, and a code
that identifies an enabled credit with an account selects one. -/
theorem payment_credit_funded (w : ResolverWorld) (db : ResolverStore) (input : ResolveInput)
    (r : PromotionStackTotals) (hpaying : input.paying=true)
    (hr : resolvePromotionStack w db input=.ok r) :
    (r.applied.filter fun e => decide (e.kind=.accountCredit∧taken e<0)).length≤1 ∧
      (∀ e∈r.applied, e.kind=.accountCredit→taken e<0→∃ sel, r.selectedCredit=some sel ∧
        sel.promotionId=e.promotionId ∧
        (accountOf db e.promotionId).map CreditRow.id=some sel.accountId∧1 ≤ sel.appliedAmount) ∧
      ∀ asked, canonicalCouponCodes w.toWorld input.stack.couponCodes=.ok asked →
        ∀ code∈asked, ∀ row, Identifies w (loadRows w db asked) code row ∨
            LowersAscii w∧Identifies w db.promotions code row →
          isCredit row=true → row.enabled=true→(accountOf db row.id).isSome=true →
          r.selectedCredit.isSome=true := by
  obtain ⟨asked,codes,first,totals,resolved,hrun⟩ := resolvePromotionStack_resolved hpaying hr
  obtain ⟨own,-,htot⟩ := (calculatePromotionStack_returns False _ _
    fun l _ hfl => hfl.elim).1 totals hrun.totalsOk
  have hfun : ∀ p∈sortPromotions resolved, p.kind=.accountCredit → Funds db first p :=
    fun p hp => hrun.funds p ((mem_insertionSort _).mp hp)
  have hcre : ∀ e∈r.applied, e.kind=.accountCredit→∃ row, first=some row ∧
      row.id=e.promotionId := by
    intro e he hkd
    rw [hrun.same.1] at he
    obtain ⟨p,hp,hid,heq⟩ := (htot.entries e he).owner
    obtain ⟨⟨row,hrow,hrowId⟩,-⟩ := hfun p hp (heq.trans hkd)
    exact ⟨row,hrow,hrowId.trans hid⟩
  refine ⟨?_,fun e he hkd _ => ?_,fun asked' hask code hcod row hrow hkd hena hacc => ?_⟩
  · set credits := r.applied.filter fun e => decide (e.kind=.accountCredit∧taken e<0) with hcred
    have hids : (credits.map AppliedPromotion.promotionId).Nodup := by
      have hsub : (credits.map AppliedPromotion.promotionId).Sublist
          (totals.applied.map AppliedPromotion.promotionId) := by
        rw [← hrun.same.1]
        exact filter_sublist.map _
      exact htot.ids.sublist hsub
    cases hfst : first with
    | none =>
      have hem : credits=[] := filter_eq_nil_iff.mpr fun e he hmem => by
        obtain ⟨row,hrow,-⟩ := hcre e he (of_decide_eq_true hmem).1
        rw [hfst] at hrow
        cases hrow
      rw [hem]
      exact Nat.zero_le _
    | some row =>
      have heq : credits.map AppliedPromotion.promotionId=List.replicate credits.length row.id := by
        refine eq_replicate_iff.mpr ⟨length_map _,fun id hid => ?_⟩
        obtain ⟨e,he,rfl⟩ := mem_map.mp hid
        obtain ⟨hmem,hcas⟩ := mem_filter.mp he
        obtain ⟨own,hown,hownId⟩ := hcre e hmem (of_decide_eq_true hcas).1
        rw [hfst] at hown
        exact Option.some.inj hown ▸ hownId.symm
      rw [heq] at hids
      exact nodup_replicate.mp hids
  · obtain ⟨row,hfst,hid⟩ := hcre e he hkd
    obtain ⟨sel,hsel⟩ := Option.isSome_iff_exists.mp (hrun.funded (by rw [hfst]; rfl))
    obtain ⟨lines,p,-,hpay,-⟩ := htot.credit sel (hrun.same.2 ▸ hsel)
    obtain ⟨hp,hpki,hpid⟩ := hpay.promotion
    obtain ⟨⟨own,hown,hownId⟩,credit,account,hpcr,hacc,heq⟩ := hfun p hp hpki
    obtain ⟨credit',hcre',hacco,hpos,-⟩ := hpay.account
    have hpe : p.id=e.promotionId := by
      rw [hfst] at hown
      cases hown
      exact hownId.symm.trans hid
    refine ⟨sel,hsel,hpid.symm.trans hpe,?_,hpos⟩
    rw [← hpe,hacc,Option.map_some,← heq,← hacco]
    cases hpcr.symm.trans hcre'
    rfl
  · obtain rfl : asked=asked' := Except.ok.inj (hrun.askedOk.symm.trans hask)
    refine hrun.funded ?_
    rw [hrun.firstEq]
    have hload := hrow.elim id fun hall => hall.2.loaded hall.1 hcod
    exact firstCredit_isSome hrun.codesOk hcod hload hkd hena hacc

/-- Lower case and trimming of plain texts; every account offers one dollar. -/
def plainWorld : ResolverWorld where
  toLowerCase := fun text => String.ofList (text.toList.map Char.toLower)
  evaluatePromotionConditions := fun _ _ _ _ => (true,none)
  trim := id
  sqlLower := fun text => String.ofList (text.toList.map Char.toLower)
  previewAvailable := fun _ => 100
  currentDiscount := fun _ => 0

/-- Row of a promotion without limits. -/
def sampleRow (id code : String) (kind : PromotionKind) : PromotionRow where
  id := id
  enabled := true
  startsAt := none
  endsAt := none
  usageLimit := none
  perCustomerUsageLimit := none
  usedCount := 0
  code := some code
  kind := kind
  discountScope := .order
  value := 0
  priority := 0
  stackOrder := none
  freeShipping := false
  conditions := ""

/-- Store with the given promotions and an account for the promotion `b`. -/
def sampleStore (promotions : List PromotionRow) : ResolverStore where
  currency := some "USD"
  orderCurrency := fun _ => none
  usage := ⟨[],[],[],[]⟩
  promotions := promotions
  credits := [⟨"account","b","USD"⟩]
  hold := fun _ => none

/-- Payment of a basket with the code `SAVE`. -/
def samplePayment : ResolveInput where
  stack := {basket with promotions := [],couponCodes := ["SAVE"]}
  orderId := none
  customerId := none
  customerEmail := none
  now := 0
  addingItems := false
  payment := true
  selectedCreditOnly := false

/-- Store in which a coupon and a credit have one code up to case. -/
def sharedStore : ResolverStore :=
  sampleStore [sampleRow "a" "SAVE" .fixed,sampleRow "b" "save" .accountCredit]

theorem payment_credit_ambiguous : samplePayment.paying=true ∧
    "SAVE"∈samplePayment.stack.couponCodes ∧
    (sharedStore.promotions.any fun row => hasCode plainWorld "SAVE" row&&isCredit row &&
      row.enabled&&(accountOf sharedStore row.id).isSome)=true ∧
    (resolvePromotionStack plainWorld sharedStore samplePayment).toOption.map
      PromotionStackTotals.selectedCredit=some none := by
  decide +kernel

theorem payment_credit_funded_single : ∃ r, resolvePromotionStack plainWorld
      (sampleStore [sampleRow "b" "save" .accountCredit])
      {samplePayment with stack := {credited with promotions := [],couponCodes := ["SAVE"]}}=
        .ok r ∧
    (r.applied.filter fun e => decide (e.kind=.accountCredit∧taken e<0)).length≤1 := by
  have hdn : (resolvePromotionStack plainWorld (sampleStore [sampleRow "b" "save" .accountCredit])
      {samplePayment with
        stack := {credited with promotions := [],couponCodes := ["SAVE"]}}).isOk=true := by
    decide +kernel
  cases hrun : resolvePromotionStack plainWorld (sampleStore [sampleRow "b" "save" .accountCredit])
      {samplePayment with stack := {credited with promotions := [],couponCodes := ["SAVE"]}} with
  | error e =>
    rw [hrun] at hdn
    cases hdn
  | ok r => exact ⟨r,rfl,(payment_credit_funded _ _ _ r rfl hrun).1⟩

end SellRight.PromotionFunding
