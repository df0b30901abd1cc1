import SellRight.PromotionStackStages

/-!
# Attribution of discounts

The totals of an order take nothing off a line that it is not worth, and every cent taken
off is that of an earlier adjustment, of the allocations of a promotion or of points.
-/

namespace SellRight.PromotionStackAttribution

open PromotionStack PromotionStackSteps PromotionStackStages FallibleSteps List
open LegacyTotals (roundHalfUp)
open LegacyTotalsLaws (roundHalfUp_mono roundHalfUp_intCast)

variable {safe : Prop}

theorem lineChecks_hold {keys : List String} {lines : List StackLine}
    (hall : ∀ check∈lineChecks keys lines, check.1=true) :
    (∀ l∈lines, Sound l∧l.key∉keys)∧(lines.map StackLine.key).Nodup := by
  induction lines generalizing keys with
  | nil => exact ⟨fun l hl => absurd hl not_mem_nil,nodup_nil⟩
  | cons _ _ ih =>
    simp only [lineChecks,integerCheck,forall_mem_append,forall_mem_cons,decide_eq_true_eq] at hall
    obtain ⟨⟨⟨hkey,hqua,hpla,hpri,hrat,-⟩,-⟩,hoth⟩ := hall
    obtain ⟨hsd,hnod⟩ := ih hoth
    refine ⟨forall_mem_cons.mpr ⟨⟨⟨hqua.1,hpla.1,hpri.1,hrat.1⟩,hkey.2⟩,
      fun l hl => ⟨(hsd l hl).1,fun h => (hsd l hl).2 (mem_cons_of_mem _ h)⟩⟩,?_⟩
    rw [map_cons,nodup_cons]
    refine ⟨fun hmem => ?_,hnod⟩
    obtain ⟨l,hl,heq⟩ := mem_map.mp hmem
    exact (hsd l hl).2 (heq ▸ mem_cons_self)

theorem promotionChecks_hold {ids : List String} {promotions : List ResolvedPromotion}
    (hall : ∀ check∈promotionChecks ids promotions, check.1=true) :
    (∀ p∈promotions, p.id∉ids∧0≤p.value∧(p.kind=.accountCredit →
      p.scope=.order∧0≤p.credit.elim 0 Credit.availableCents)) ∧
      (promotions.map ResolvedPromotion.id).Nodup := by
  induction promotions generalizing ids with
  | nil => exact ⟨fun p hp => absurd hp not_mem_nil,nodup_nil⟩
  | cons p _ ih =>
    simp only [promotionChecks,integerCheck,forall_mem_append,forall_mem_cons,
      decide_eq_true_eq] at hall
    obtain ⟨⟨⟨hid,-,-,hval,-⟩,hcre⟩,hoth⟩ := hall
    obtain ⟨hrt,hnod⟩ := ih hoth
    have hnon : 0≤p.value := by
      split at hval
      · exact (of_decide_eq_true hval).1
      · exact (of_decide_eq_true hval).2.1
    refine ⟨forall_mem_cons.mpr ⟨⟨hid.2,hnon,fun hkd => ?_⟩,fun q hq =>
      ⟨fun h => (hrt q hq).1 (mem_cons_of_mem _ h),(hrt q hq).2⟩⟩,?_⟩
    · simp only [hkd,if_true,forall_mem_cons,Bool.and_eq_true,decide_eq_true_eq] at hcre
      exact ⟨hcre.1.2,hcre.2.1.1⟩
    rw [map_cons,nodup_cons]
    refine ⟨fun hmem => ?_,hnod⟩
    obtain ⟨q,hq,heq⟩ := mem_map.mp hmem
    exact (hrt q hq).1 (heq ▸ mem_cons_self)

variable (input : StackInput)

/-- Change of the merchandise by the earlier adjustments. -/
def priorEffect : ℤ :=
  channelTotal input.pricesIncludeTax (input.lines.map StackLine.bare)-
    channelTotal input.pricesIncludeTax (input.lines.map StackLine.working)

/-- Tax of the imported surcharges. -/
def surchargeTax : ℤ :=
  (input.sourceCharges.map fun s => s.gross-s.net).sum

/-- Later charges that are taxed with the order. -/
def taxableTotal : ℤ :=
  (((input.adjustments.getD []).filter fun a => a.taxable&&a.sourceSurcharge.isNone).map
    OrderAdjustment.amount).sum

/-- What an order costs by its other totals. -/
def amountDue (r : PromotionStackTotals) : ℤ :=
  r.subtotal-r.discountTotal+r.shippingTotal+r.adjustmentTotal.getD 0+
    if input.pricesIncludeTax then surchargeTax input else r.taxTotal

/-- What a selected credit pays, by the entry of its promotion. -/
structure Pays (c : Pricing) (lines : List WorkingLine) (applied : List AppliedPromotion)
    (p : ResolvedPromotion) (sel : SelectedCredit) : Prop where
  promotion : p∈c.promotions∧p.kind=.accountCredit∧p.id=sel.promotionId
  account : ∃ credit, p.credit=some credit∧credit.accountId=sel.accountId ∧
    1 ≤ sel.appliedAmount∧sel.appliedAmount≤credit.availableCents
  entry : ∃ entry∈applied, entry.promotionId=p.id∧sel.appliedAmount= -drawn c entry
  rows : List.Forall₂ (fun line row => row.1=line.input.key ∧
    (row.2.length : ℤ)=line.divisor∧∀ unit∈row.2, 0≤unit) lines sel.allocation
  sum : (sel.allocation.flatMap Prod.snd).sum=sel.appliedAmount

/-- Where the totals of an order come from. -/
structure Attributed (c : Pricing) (r : PromotionStackTotals) : Prop where
  discount : r.discountTotal=priorEffect c.input-(r.applied.map taken).sum+r.pointsDiscount
  entries : ∀ entry∈r.applied, EntryOk c entry
  ids : (r.applied.map AppliedPromotion.promotionId).Nodup
  shipping : (r.applied.map shippingPart).sum=r.shippingTotal-c.input.shipping
  subtotal : r.subtotal =
    channelTotal c.input.pricesIncludeTax (c.input.lines.map StackLine.bare)
  adjustment : r.adjustmentTotal.getD 0 =
    ((c.input.adjustments.getD []).map OrderAdjustment.amount).sum
  tax : c.input.retainedShipping=none→0≤taxableTotal c.input→surchargeTax c.input≤r.taxTotal
  cents : r.taxTotal ≤ maxCents
  due : c.input.retainedShipping=none→c.input.shippingIncludesTax=c.input.pricesIncludeTax →
    r.grandTotal=
      if c.input.sourceCharges=[] then max 0 (amountDue c.input r) else amountDue c.input r
  credit : ∀ sel∈r.selectedCredit, ∃ lines p, lines.map WorkingLine.input=c.input.lines ∧
    Pays c lines r.applied p sel∧(Exact c.input→∃ before after, Acts c p before after ∧
      channelTotal c.input.pricesIncludeTax after.1=
        channelTotal c.input.pricesIncludeTax before.1-sel.appliedAmount)

theorem one_le_factor {rate : ℤ} (h : 0≤rate) : 1≤factor rate := by
  have hrat : (0 : ℚ)≤rate := by exact_mod_cast h
  unfold factor
  linarith [div_nonneg hrat (by norm_num : (0 : ℚ)≤10000)]

/-- The tax of the taxed charges adds to that of imported surcharges. -/
theorem charges_returns {input : StackInput} (hrat : ∀ l∈input.lines, 0≤l.taxRateBps) :
    Returns safe (fun e => e.total=((input.adjustments.getD []).map OrderAdjustment.amount).sum ∧
      e.sourceTax=surchargeTax input∧(0≤taxableTotal input→surchargeTax input≤e.tax))
      (charges input) := by
  have hfst : (0 : ℚ)≤(input.lines.head?.elim 0 StackLine.taxRateBps : ℤ) := by
    cases hlns : input.lines with
    | nil => exact le_rfl
    | cons l _ => exact_mod_cast hrat l (hlns ▸ mem_cons_self)
  unfold charges
  refine (firstError_returns _).bind fun _ _ => (sum_returns _).bind fun total htot => ?_
  refine (sum_returns _).bind fun taxable htaxa => ?_
  have hsca : Returns safe (fun t => 0≤taxable→0≤t) (input.scalarTax taxable) := by
    unfold StackInput.scalarTax
    dsimp only
    split
    · refine (rounded_returns _).map fun net hnet h => ?_
      rw [hnet,sub_nonneg]
      exact (roundHalfUp_mono (div_le_self (by exact_mod_cast h) (one_le_factor
        (by exact_mod_cast hfst)))).trans_eq (roundHalfUp_intCast taxable)
    · refine (rounded_returns _).mono fun t ht h => ?_
      rw [ht]
      refine (roundHalfUp_intCast 0).symm.trans_le (roundHalfUp_mono ?_)
      rw [Int.cast_zero]
      exact div_nonneg (mul_nonneg (by exact_mod_cast h) hfst) (by norm_num)
  refine hsca.bind fun scalar hsca => (firstError_returns _).bind fun _ _ => ?_
  refine (sum_returns _).bind fun sourceTax hsou => (sum_returns _).bind fun tax htx => ?_
  refine .ok ⟨htot,hsou,fun h => ?_⟩
  have hsum : tax=scalar+sourceTax := by simpa using htx
  rw [hsum,hsou]
  exact le_add_of_nonneg_left (hsca (htaxa ▸ h))

section
variable (input : StackInput) (total : ℤ) (retained : Option (List RetainedLine))

theorem shippingGross_returns :
    Returns safe (fun g => retained=none→input.shippingIncludesTax=true → g=total)
      (input.shippingGross total retained) := by
  unfold StackInput.shippingGross
  split
  · exact (sum_returns _).mono nofun
  · split
    · exact .ok fun _ _ => rfl
    · next hbas => exact (rounded_returns _).mono fun _ _ _ h => absurd h hbas

theorem shippingNet_returns :
    Returns safe (fun n => retained=none→input.shippingIncludesTax=false→n=total)
      (input.shippingNet total retained) := by
  unfold StackInput.shippingNet
  split
  · exact (sum_returns _).mono nofun
  · split
    · next hbas => exact (rounded_returns _).mono fun _ _ _ h => by simp [h] at hbas
    · exact .ok fun _ _ => rfl

end

theorem lineNet_le_lineGross {line : WorkingLine} (hsound : Sound line.input)
    (hlis : 0≤line.list) : lineNet line≤lineGross line := by
  have hqua : (0 : ℚ)≤line.input.quantity := by exact_mod_cast hsound.quantity
  refine roundHalfUp_mono (mul_le_mul_of_nonneg_right ?_ hqua)
  unfold StackLine.net StackLine.gross
  split
  · exact div_le_self hlis (one_le_factor hsound.rate)
  · exact le_mul_of_one_le_right hlis (one_le_factor hsound.rate)

theorem shippingNet_le_shippingGross {input : StackInput} {total net gross : ℤ}
    (hrat : 0 ≤ input.shippingTaxRateBps) (htot : 0≤total)
    (hnet : input.shippingNet total none=.ok net)
    (hgro : input.shippingGross total none=.ok gross) : net≤gross := by
  have hnon : (0 : ℚ)≤total := by exact_mod_cast htot
  unfold StackInput.shippingNet at hnet
  unfold StackInput.shippingGross at hgro
  dsimp only at hnet hgro
  split at hnet
  · next hbas =>
    rw [if_pos hbas] at hgro
    cases hgro
    rw [(@rounded_returns False _).1 _ hnet]
    exact (roundHalfUp_mono (div_le_self hnon (one_le_factor hrat))).trans_eq
      (roundHalfUp_intCast total)
  · next hbas =>
    rw [if_neg hbas] at hgro
    cases hnet
    rw [(@rounded_returns False _).1 _ hgro]
    exact (roundHalfUp_intCast total).symm.trans_le
      (roundHalfUp_mono (le_mul_of_one_le_right hnon (one_le_factor hrat)))

theorem sum_le_maxCents {values : List ℤ} {v : ℤ} (h : PromotionStack.sum values=.ok v) :
    v ≤ maxCents := by
  unfold PromotionStack.sum integer at h
  split_ifs at h with hran
  cases h
  exact hran.2

theorem grandTotal_returns (merchandise shipping : ℤ) (extra : Charges) :
    Returns safe (fun g => input.retainedShipping=none →
      g=if input.sourceCharges=[] then max 0 (merchandise+shipping+extra.total+
          if input.pricesIncludeTax then 0 else extra.tax) else merchandise+shipping+extra.total+
          if input.pricesIncludeTax then extra.sourceTax else extra.tax)
      (input.grandTotal merchandise shipping extra) := by
  unfold StackInput.grandTotal
  by_cases himp : input.retainedShipping.isSome=true∨input.sourceCharges≠[]
  · rw [if_pos himp]
    refine (sum_returns _).mono fun g hg => ?_
    intro hret
    have hsou : input.sourceCharges≠[] := by simpa [hret] using himp
    rw [hg,if_neg hsou]
    simp [add_assoc]
  · rw [if_neg himp]
    refine .map (sum_returns _) ?_
    intro g hg _
    rw [hg,if_pos (not_ne_iff.mp fun h => himp (.inr h))]
    simp [add_assoc]

theorem creditUnits_returns (entry : AppliedPromotion) (line : WorkingLine)
    (hdiv : 0≤line.divisor) :
    Returns safe (fun row => row.1=line.input.key∧(row.2.length : ℤ)=line.divisor ∧
      ∀ unit∈row.2, 0≤unit) (creditUnits entry line) := by
  unfold creditUnits
  dsimp only
  split_ifs with hun
  · exact .error fun h => by cases h.2
  obtain ⟨hlen,hsig⟩ := not_or.mp hun
  refine .ok ⟨rfl,?_,fun unit huni => ?_⟩
  · rw [length_map,not_ne_iff.mp hlen,Int.toNat_of_nonneg hdiv]
  · obtain ⟨u,hu,rfl⟩ := mem_map.mp huni
    exact neg_nonneg.mpr (not_lt.mp fun hpos => hsig ⟨u,hu,hpos⟩)

theorem selectedCredit_returns (c : Pricing) {lines : List WorkingLine}
    (hdiv : ∀ line∈lines, 0≤line.divisor) (applied : List AppliedPromotion) :
    Returns safe (fun o => ∀ sel∈o, ∃ p, Pays c lines applied p sel)
      (c.selectedCredit lines applied) := by
  unfold Pricing.selectedCredit
  split
  · exact .ok nofun
  · next p hsele =>
    have hp : p∈c.promotions∧p.kind=.accountCredit := by
      obtain ⟨code,-,hfin⟩ := mem_filterMap.mp (mem_of_mem_head? hsele)
      have hkd := List.find?_some hfin
      simp only [Bool.and_eq_true,decide_eq_true_eq] at hkd
      exact ⟨mem_of_find?_eq_some hfin,hkd.1⟩
    split
    · next entry credit hent hcre =>
      unfold entryOf at hent
      have hid := List.find?_some hent
      rw [decide_eq_true_eq] at hid
      unfold Pricing.debit
      refine (sum_returns _).bind fun discounts hdis => ?_
      split_ifs with hbud
      · exact .error fun h => by cases h.2
      obtain ⟨hlow,hhig⟩ := not_or.mp hbud
      refine (Meets.mapM fun line hln => creditUnits_returns entry line
        (hdiv line hln)).bind fun allocation hrs => ?_
      refine (sum_returns _).bind fun total htot => ?_
      split_ifs with hexa
      · exact Meets.error fun h => by cases h.2
      refine .ok fun sel hsel => ⟨p,?_⟩
      cases hsel
      exact ⟨⟨hp.1,hp.2,rfl⟩,⟨credit,hcre,rfl,not_lt.mp hlow,not_lt.mp hhig⟩,
        ⟨entry,mem_of_find?_eq_some hent,hid,congrArg Neg.neg hdis⟩,hrs,htot.symm.trans (not_ne_iff.mp hexa)⟩
    · exact .ok nofun

theorem result_returns {c : Pricing} (hche : Checked c) {before : Amounts}
    (hbef : TotalsOf (c.input.lines.map StackLine.bare) before) {m : List WorkingLine×Ledger×ℤ}
    (hm : Discounted c safe (channelTotal c.input.pricesIncludeTax
      (c.input.lines.map StackLine.working)) m) :
    Returns safe (Attributed c) (c.result before m.1 m.2.1 m.2.2) := by
  have hrdy : Ready safe m.1 := fun line hln =>
    ⟨hche.sound _ (hm.inputs ▸ mem_map_of_mem hln),hm.covered line hln⟩
  unfold Pricing.result
  refine (totals_returns hrdy).bind fun final hfin => ?_
  have huns : Shipped c (channelTotal c.input.pricesIncludeTax m.1+m.2.2-channelTotal
      c.input.pricesIncludeTax (c.input.lines.map StackLine.working)) m.2.1.applied
      ⟨c.input.shipping,c.input.retainedShipping.map RetainedShipping.lines,m.2.1⟩ :=
    ⟨(sub_self c.input.shipping).symm ▸ hm.booked,Option.isSome_map,
      fun entry hent => .inr ⟨entry,hent,rfl,rfl⟩,id⟩
  refine (Meets.foldlM huns fun s p hp hs => shippingAction_returns hche hrdy hs
    hp).bind fun s hs => ?_
  refine (shippingNet_returns _ _ _).self.bind fun shippingNet ⟨hnet,hnets⟩ => ?_
  refine (shippingGross_returns _ _ _).self.bind fun shippingGross ⟨hgro,hgros⟩ => ?_
  refine (charges_returns fun l hl => (hche.sound l hl).rate).bind fun extra hext => ?_
  refine (selectedCredit_returns c (fun line hln => (hrdy line hln).1.quantity.trans
    (le_max_right _ _)) _).bind fun credit hcre => ?_
  refine (Meets.mapM (R := fun _ _ => True) fun line hln => ?_).bind fun snapshots _ => ?_
  · unfold finalLine
    exact (facts_returns (hrdy line hln).1 (hrdy line hln).2).bind fun _ _ =>
      (sum_returns _).bind fun _ _ => Meets.ok trivial
  refine (sum_returns _).self.bind fun taxTotal ⟨htax,hcen⟩ => ?_
  have hadj : ((c.input.adjustments.map fun _ => extra.total).getD 0)=extra.total := by
    cases hadju : c.input.adjustments with
    | none => rw [hext.1,hadju]; rfl
    | some => rfl
  have hret : c.input.retainedShipping=none→s.retained=none := fun hret =>
    Option.not_isSome_iff_eq_none.mp (by rw [hs.retained,hret]; decide)
  refine (grandTotal_returns _ _ _ _).bind fun grandTotal hgra => .ok
    ⟨?_,hs.booked.entries,hs.booked.ids,hs.booked.parts,hbef.basis _,hadj.trans hext.1,?_,
      sum_le_maxCents hcen,?_,?_⟩
  · dsimp only
    rw [hbef.basis,hfin.basis,priorEffect,hs.booked.taken]
    ring
  · intro hno htaxa
    rw [hret hno] at hnets hgros
    have hshi := shippingNet_le_shippingGross (hche.shipping hno).2
      (hs.total (hche.shipping hno).1) hnets hgros
    have hlin : final.net≤final.gross := by
      rw [hfin.net,hfin.gross]
      exact sum_le_sum fun line hln => lineNet_le_lineGross (hrdy line hln).1 (hfin.list line hln)
    have hcha := hext.2.2 htaxa
    have htaxes : taxTotal=final.gross-final.net+(shippingGross-shippingNet)+extra.tax := by
      simpa [add_assoc] using htax
    dsimp only
    omega
  intro hno hbas
  have hno' := hret hno
  have hem : c.input.sourceCharges=[]→surchargeTax c.input=0 := by
    intro h
    rw [surchargeTax,h]
    rfl
  dsimp only
  rw [hgra hno]
  unfold amountDue
  dsimp only
  rw [hadj,hext.2.1]
  cases hpit : c.input.pricesIncludeTax with
  | true =>
    rw [hgro hno' (hbas.trans hpit)]
    simp only [if_true,Amounts.basis]
    split
    · next h =>
      rw [hem h]
      congr 1
      ring
    · ring
  | false =>
    rw [htax,hnet hno' (hbas.trans hpit)]
    simp only [Bool.false_eq_true,if_false,Amounts.basis,sum_cons,sum_nil]
    split
    · congr 1
      ring
    · ring

  · intro sel hsel
    obtain ⟨p,hpay⟩ := hcre sel hsel
    refine ⟨m.1,p,hm.inputs,hpay,fun hexa => ?_⟩
    obtain ⟨before,after,hact,hdrawn⟩ := hm.draws p hpay.promotion.1
      (hche.credits p hpay.promotion.1 hpay.promotion.2.1).1
    refine ⟨before,after,hact,?_⟩
    obtain ⟨entry,hent,hid,hamo⟩ := hpay.entry
    rcases hs.kept entry hent with hem|⟨old,hold,holdId,heq⟩
    · obtain ⟨-,-,-,hpos,-⟩ := hpay.account
      have hz : drawn c entry=0 := by rw [drawn,hem]; rfl
      omega
    · have hdra := hdrawn hexa old hold (holdId.trans hid)
      rw [drawn,heq] at hdra
      rw [drawn] at hamo
      omega

/-- Every total comes from the books, and no line is exceeded while its adjustments are
covered. -/
theorem calculatePromotionStack_returns (safe : Prop) (w : World) (input : StackInput)
    (hcov : ∀ l∈input.lines, safe → Covered l.working) :
    Returns safe (fun r => ∃ codes, canonicalCouponCodes w input.couponCodes=.ok codes ∧
      Attributed ⟨w,input,codes,sortPromotions input.promotions⟩ r)
      (calculatePromotionStack w input) := by
  unfold calculatePromotionStack
  refine (firstError_returns _).bind fun _ hctx => ?_
  have hcod : Returns safe (fun _ => True) (canonicalCouponCodes w input.couponCodes) := by
    unfold canonicalCouponCodes
    split
    · exact .ok trivial
    · exact returns_invalid _
  refine hcod.self.bind fun codes hcod => (firstError_returns _).bind fun _ hlns => ?_
  obtain ⟨hsd,hks⟩ := lineChecks_hold hlns
  have hbar : Ready safe (input.lines.map StackLine.bare) := by
    intro line hln
    obtain ⟨l,hl,rfl⟩ := mem_map.mp hln
    refine ⟨(hsd l hl).1,fun _ hqua => ?_⟩
    exact add_nonneg (mul_nonneg (hsd l hl).1.price (hqua.le.trans (le_max_right _ _))) le_rfl
  refine (totals_returns hbar).bind fun before hbef => ?_
  refine (firstError_returns _).bind fun _ hpro => (firstError_returns _).bind fun _ _ => ?_
  obtain ⟨hval,hids⟩ := promotionChecks_hold hpro
  have hche : Checked ⟨w,input,codes,sortPromotions input.promotions⟩ := by
    refine ⟨fun l hl => (hsd l hl).1,hks,hids,fun p hp => (hval p hp).2.1,fun hret => ?_,
      fun p hp => (hval p hp).2.2⟩
    simp only [contextChecks,show input.retainedShipping=none from hret,integerCheck,
      Option.isSome_none,Option.elim_none,append_nil,forall_mem_cons,decide_eq_true_eq] at hctx
    exact ⟨hctx.2.1.1,hctx.2.2.1.1⟩
  exact (merchandise_returns hche hcov).bind fun m hm =>
    (result_returns hche hbef hm).mono fun r hr => ⟨codes,hcod.2,hr⟩

/-- While earlier adjustments leave every line with units something, no line is exceeded,
and promotions only ever take off. -/
theorem stack_within_lines (w : World) (input : StackInput)
    (hprior : ∀ l∈input.lines, 0<l.quantity→0≤l.unitListPrice*max l.placedQuantity l.quantity+
      (l.priorAdjustments.map SignedAdjustment.amount).sum) :
    calculatePromotionStack w input≠.error .basisExceeded ∧
      ∀ r, calculatePromotionStack w input=.ok r→∀ entry∈r.applied,
        ∀ a∈entry.lineAllocations, a.amount≤0∧(∀ unit∈a.units, unit≤0) ∧
          a.sourceAdjustmentAmount≤0∧(∀ unit∈a.sourceUnits, unit≤0) ∧
          a.sourceDiscountAmount≤0∧a.sourceDiscountAmountWithTax≤0 := by
  have hret := calculatePromotionStack_returns True w input fun l hl _ hqua => hprior l hl hqua
  constructor
  · intro her
    exact hret.2 _ her ⟨trivial,rfl⟩
  · intro r hr entry hent a ha
    obtain ⟨codes,-,hatt⟩ := hret.1 r hr
    have htak := ((hatt.entries entry hent).fair a ha).takes
    exact ⟨htak.amount,htak.units,htak.source,htak.sourceUnits,htak.discount,htak.withTax⟩

/-- Texts are their own lower case and every condition holds. -/
def plain : World := ⟨id,fun _ _ _ _ => (true,none)⟩

/-- Basket with a line bought in a larger quantity and an earlier adjustment. -/
def basket : StackInput where
  lines := [⟨"cup",1,2,101,true,1000,[⟨-1,none,.item⟩]⟩,⟨"pot",3,3,250,true,1000,[]⟩]
  promotions := [⟨"tenth",some "SAVE",.percentage,.line,10,0,0,false,"",none⟩,
    ⟨"fixed",none,.fixed,.order,200,1,1,true,"",none⟩]
  couponCodes := ["SAVE"]
  currency := "USD"
  pricesIncludeTax := true
  shipping := 500
  shippingIncludesTax := true
  pointsDiscount := 50

theorem stack_within_lines_basket : calculatePromotionStack plain basket≠.error .basisExceeded :=
  (stack_within_lines plain basket (by decide)).1

/-- Every cent taken off is attributed: to earlier adjustments, to allocations that sum over
the units of their line, to points or to shipping; and the total follows from the others. -/
theorem discounts_attributed (w : World) (input : StackInput) (r : PromotionStackTotals)
    (hr : calculatePromotionStack w input=.ok r) :
    r.discountTotal=priorEffect input-(r.applied.map taken).sum+r.pointsDiscount ∧
      (∀ entry∈r.applied, ∀ a∈entry.lineAllocations,
        (∃ l∈input.lines, l.key=a.lineKey∧(a.units.length : ℤ)=l.quantity)∧a.units.sum=a.amount) ∧
      (∀ entry∈r.applied, input.retainedShipping.isSome=true →
        entry.shippingAdjustment.elim 0 Prod.fst=shippingPart entry) ∧
      (r.applied.map shippingPart).sum=r.shippingTotal-input.shipping ∧
      (input.retainedShipping=none → (∀ l∈input.lines, l.priceIncludesTax=input.pricesIncludeTax) →
        input.shippingIncludesTax=input.pricesIncludeTax → r.grandTotal=
          if input.sourceCharges=[] then max 0 (amountDue input r) else amountDue input r) := by
  obtain ⟨codes,-,h⟩ := (calculatePromotionStack_returns False w input
    fun l _ hfl => hfl.elim).1 r hr
  refine ⟨h.discount,fun entry hent a ha => ?_,fun entry hent => (h.entries entry hent).shipping,
    h.shipping,fun hret _ => h.due hret⟩
  have hfai := (h.entries entry hent).fair a ha
  exact ⟨hfai.line,hfai.sum⟩

theorem discounts_attributed_basket : ∃ r, calculatePromotionStack plain basket=.ok r ∧
    (r.applied.map shippingPart).sum=r.shippingTotal-500 := by
  have hdn : (calculatePromotionStack plain basket).isOk=true := by decide +kernel
  cases hrun : calculatePromotionStack plain basket with
  | error =>
    rw [hrun] at hdn
    cases hdn
  | ok r => exact ⟨r,rfl,(discounts_attributed plain basket r hrun).2.2.2.1⟩

/-- Order without lines and with an imported surcharge below zero. -/
def surcharged : StackInput where
  lines := []
  promotions := []
  couponCodes := []
  currency := "USD"
  pricesIncludeTax := true
  shippingIncludesTax := true
  adjustments := some [⟨-10,false,some ⟨"charge",String.ofList (List.replicate 64 'b'),-10,-10⟩⟩]

theorem surcharged_below_zero : surcharged.retainedShipping=none ∧
    (∀ l∈surcharged.lines, l.priceIncludesTax=surcharged.pricesIncludeTax) ∧
    surcharged.shippingIncludesTax=surcharged.pricesIncludeTax ∧
    ((calculatePromotionStack plain surcharged).toOption.map fun r =>
      (r.grandTotal,max 0 (amountDue surcharged r)))=some (-10,0) := by
  decide +kernel

/-- A selected credit pays within its budget what its rows by unit sum to, and where nothing
is rounded exactly what the merchandise lost when the credit acted. -/
theorem credit_pays_merchandise (w : World) (input : StackInput) (r : PromotionStackTotals)
    (hr : calculatePromotionStack w input=.ok r) (sel : SelectedCredit)
    (hsel : r.selectedCredit=some sel) :
    (∃ p∈input.promotions, p.id=sel.promotionId∧∃ credit, p.credit=some credit ∧
        credit.accountId=sel.accountId∧1 ≤ sel.appliedAmount ∧
        sel.appliedAmount≤credit.availableCents)∧List.Forall₂ (fun l row => row.1=l.key ∧
        (row.2.length : ℤ)=max l.placedQuantity l.quantity∧∀ unit∈row.2, 0≤unit)
        input.lines sel.allocation∧(sel.allocation.flatMap Prod.snd).sum=sel.appliedAmount ∧
      ((∀ l∈input.lines, l.priceIncludesTax=input.pricesIncludeTax∧l.placedQuantity≤l.quantity) →
        ∃ codes p before after, canonicalCouponCodes w input.couponCodes=.ok codes ∧
          p.id=sel.promotionId ∧
          Acts ⟨w,input,codes,sortPromotions input.promotions⟩ p before after ∧
          channelTotal input.pricesIncludeTax after.1=
            channelTotal input.pricesIncludeTax before.1-sel.appliedAmount) := by
  obtain ⟨codes,hcod,h⟩ := (calculatePromotionStack_returns False w input
    fun l _ hfl => hfl.elim).1 r hr
  obtain ⟨lines,p,hinp,hpay,hexa⟩ := h.credit sel hsel
  obtain ⟨hp,-,hid⟩ := hpay.promotion
  refine ⟨⟨p,(mem_insertionSort _).mp hp,hid,hpay.account⟩,?_,hpay.sum,fun hlns => ?_⟩
  · change lines.map WorkingLine.input=input.lines at hinp
    rw [← hinp,forall₂_map_left_iff]
    exact hpay.rows
  · obtain ⟨before,after,hact,hdra⟩ := hexa hlns
    exact ⟨codes,p,before,after,hcod,hid,hact,hdra⟩

/-- Basket paid in part from an account. -/
def credited : StackInput :=
  {basket with
    lines := [⟨"cup",2,2,101,true,1000,[]⟩]
    promotions := [⟨"credit",some "GIFT",.accountCredit,.order,0,0,0,false,"",
      some ⟨"account",150⟩⟩]
    couponCodes := ["GIFT"]}

theorem credit_pays_merchandise_credited : ∃ sel : SelectedCredit,
    sel.appliedAmount=150∧(sel.allocation.flatMap Prod.snd).sum=150 := by
  have hdn : ((calculatePromotionStack plain credited).toOption.bind fun r =>
      r.selectedCredit.map SelectedCredit.appliedAmount)=some 150 := by
    decide +kernel
  cases hrun : calculatePromotionStack plain credited with
  | error =>
    rw [hrun] at hdn
    cases hdn
  | ok r =>
    rw [hrun] at hdn
    obtain ⟨sel,hsel,hamo⟩ := Option.map_eq_some_iff.mp hdn
    exact ⟨sel,hamo,hamo ▸ (credit_pays_merchandise plain credited r hrun sel hsel).2.2.1⟩

end SellRight.PromotionStackAttribution
