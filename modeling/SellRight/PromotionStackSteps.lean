import SellRight.PromotionStack
import SellRight.LegacyTotalsLaws

/-!
# Steps of the promotion stack

No adjustment takes a line below nothing, because a rounded line amount is never more than
its unit price times the larger quantity. Every allocation is the change of its rounded
line total, spread over the units of the line.
-/

namespace SellRight.PromotionStackSteps

open PromotionStack FallibleSteps List
open LegacyTotals (roundHalfUp)
open LegacyTotalsLaws (roundHalfUp_mono roundHalfUp_intCast)

variable {safe : Prop} {α : Type}

/-- Returns a value that has `P`, and while safe does not exceed the basis of a line. -/
abbrev Returns (safe : Prop) (P : α → Prop) (run : Except StackError α) : Prop :=
  Meets (fun e => safe∧e=.basisExceeded) P run

/-- Any other failure is allowed. -/
theorem returns_invalid {P : α → Prop} (message : String) :
    Returns safe P (.error (.invalid message)) :=
  Meets.error fun h => by cases h.2

theorem integer_returns (value : ℤ) (label : String) (low : ℤ) :
    Returns safe (fun v => v=value∧low≤value) (integer value label low) := by
  unfold integer
  split_ifs with hran
  · exact .ok ⟨rfl,hran.1⟩
  · exact returns_invalid _

theorem sum_returns (values : List ℤ) : Returns safe (fun v => v=values.sum) (sum values) :=
  (integer_returns _ _ _).mono fun _ h => h.1

theorem rounded_returns (value : ℚ) : Returns safe (fun v => v=roundHalfUp value) (rounded value) :=
  (integer_returns _ _ _).mono fun _ h => h.1

/-- Checks that pass all hold. -/
theorem firstError_returns (checks : List Check) :
    Returns safe (fun _ => ∀ check∈checks, check.1=true) (firstError checks) := by
  induction checks with
  | nil => exact .ok fun check hck => by cases hck
  | cons check _ ih =>
    obtain ⟨holds,message⟩ := check
    unfold firstError
    cases holds with
    | false => exact returns_invalid _
    | true =>
      refine ih.mono fun _ hrt other hot => ?_
      cases hot with
      | head => rfl
      | tail _ hot => exact hrt other hot

theorem sum_exactShare (weights : List ℤ) (hne : weights≠[]) (amount : ℤ) :
    (weights.map (exactShare amount weights.sum weights.length)).sum=(amount : ℚ) := by
  have hsca : ∀ (all : List ℤ) (c : ℚ), (all.map fun weight : ℤ => amount*(weight*c)).sum =
      amount*((all.sum : ℤ)*c) := by
    intro all c
    induction all with
    | nil => simp
    | cons _ _ ih =>
      rw [map_cons,sum_cons,ih,sum_cons]
      push_cast
      ring
  unfold exactShare
  by_cases hz : weights.sum=0
  · have hlen : (weights.length : ℚ)≠0 := by exact_mod_cast (length_pos_iff.mpr hne).ne'
    simp only [hz,if_true,map_const',sum_replicate,nsmul_eq_mul]
    exact mul_div_cancel₀ _ hlen
  · have hsum : ((weights.sum : ℤ) : ℚ)≠0 := by exact_mod_cast hz
    simp only [hz,if_false,div_eq_mul_inv]
    rw [hsca,mul_inv_cancel₀ hsum,mul_one]

/-- What a proration returns: one share for each weight, all of the amount, and nothing
above zero when the amount is not. -/
structure Prorated (count : ℕ) (amount : ℤ) (shares : List ℤ) : Prop where
  length : shares.length=count
  sum : shares.sum=amount
  nonpos : amount≤0→∀ share∈shares, share≤0

theorem prorateSigned_returns (weights : List ℤ) (amount : ℤ) :
    Returns safe (Prorated weights.length amount) (prorateSigned weights amount) := by
  unfold prorateSigned
  refine (integer_returns _ _ _).bind fun _ _ => ?_
  by_cases hem : weights=[]
  · subst hem
    rw [if_pos rfl]
    split_ifs with hamo
    · exact returns_invalid _
    · exact .ok ⟨rfl,(not_ne_iff.mp hamo).symm,nofun⟩
  · rw [if_neg hem]
    refine (firstError_returns _).bind fun _ hweig => ?_
    refine (sum_returns weights).bind fun total htot => ?_
    subst htot
    refine (sum_returns _).bind fun _ _ => (sum_returns _).bind fun given hgiv => ?_
    obtain ⟨hlen,-,hboun⟩ := LargestRemainder.shares_spec _ (sum_exactShare weights hem amount)
    split_ifs with hexa
    · exact returns_invalid _
    rw [hgiv] at hexa
    refine .ok ⟨by simpa using hlen,by simpa using fun h => hexa (.inr h),?_⟩
    intro hamo share hsha
    obtain ⟨i,hi,rfl⟩ := getElem_of_mem hsha
    have hbou := (hboun i).2
    rw [getD_eq_getElem _ _ hi] at hbou
    refine hbou.trans (Int.ceil_le.mpr ?_)
    have hi' : i<weights.length := (hlen ▸ hi).trans_eq (length_map _)
    rw [getD_eq_getElem _ _ (by simpa using hi'),getElem_map]
    have hnon : ∀ weight∈weights, (0 : ℤ)≤weight := by
      intro weight hwei
      have hck := hweig _ (mem_map_of_mem hwei)
      exact (of_decide_eq_true hck).1
    have hamou : (amount : ℚ)≤0 := by exact_mod_cast hamo
    unfold exactShare
    split
    · exact_mod_cast div_nonpos_of_nonpos_of_nonneg hamou (Nat.cast_nonneg _)
    have hwei : (0 : ℚ)≤(weights[i] : ℤ) := by exact_mod_cast hnon _ (getElem_mem hi')
    have hsum : (0 : ℚ)≤(weights.sum : ℤ) := by exact_mod_cast sum_nonneg hnon
    exact_mod_cast mul_nonpos_of_nonpos_of_nonneg hamou (div_nonneg hwei hsum)

/-- Amounts of a line that passed its checks. -/
structure Sound (l : StackLine) : Prop where
  quantity : 0≤l.quantity
  placed : 0≤l.placedQuantity
  price : 0≤l.unitListPrice
  rate : 0≤l.taxRateBps

variable (line : WorkingLine)

/-- The adjustments of a line with units do not exceed its price for all its units. -/
def Covered : Prop := 0<line.input.quantity →
    0≤line.input.unitListPrice*line.divisor+line.adjustments.sum

/-- Rounded net amount of a line. -/
def lineNet : ℤ := roundHalfUp (line.input.net line.list*line.input.quantity)

/-- Rounded gross amount of a line. -/
def lineGross : ℤ :=
  roundHalfUp (line.input.gross line.list*line.input.quantity)

variable (pricesIncludeTax : Bool)

/-- Rounded amount of a line on the basis of the store. -/
def channel (line : WorkingLine) : ℤ :=
  if pricesIncludeTax then lineGross line else lineNet line

/-- Amount of all lines on the basis of the store. -/
def channelTotal (lines : List WorkingLine) : ℤ :=
  (lines.map (channel pricesIncludeTax)).sum

section Line

variable {line : WorkingLine} (hsound : Sound line.input)
include hsound

theorem factor_pos : 0<factor line.input.taxRateBps := by
  have hrat : (0 : ℚ)≤line.input.taxRateBps := by exact_mod_cast hsound.rate
  unfold factor
  linarith [div_nonneg hrat (by norm_num : (0 : ℚ)≤10000)]

theorem net_mono {x y : ℚ} (h : x≤y) : line.input.net x≤line.input.net y := by
  unfold StackLine.net
  split
  · exact div_le_div_of_nonneg_right h (factor_pos hsound).le
  · exact h

theorem gross_mono {x y : ℚ} (h : x≤y) : line.input.gross x≤line.input.gross y := by
  unfold StackLine.gross
  split
  · exact h
  · exact mul_le_mul_of_nonneg_right h (factor_pos hsound).le

omit hsound in
theorem list_mul_divisor (hqua : 0<line.input.quantity) : line.list*line.divisor =
      ((line.input.unitListPrice*line.divisor+line.adjustments.sum : ℤ) : ℚ) := by
  have hdiv : (line.divisor : ℚ)≠0 := by exact_mod_cast (hqua.trans_le (le_max_right _ _)).ne'
  unfold WorkingLine.list
  rw [if_neg hqua.ne',add_mul,div_mul_cancel₀ _ hdiv]
  push_cast
  rfl

theorem covered_iff : Covered line ↔ 0≤line.list := by
  by_cases hqua : 0<line.input.quantity
  · have hdiv : (0 : ℚ)<line.divisor := by exact_mod_cast hqua.trans_le (le_max_right _ _)
    have hlis := list_mul_divisor hqua
    constructor
    · intro hcov
      have hpri : (0 : ℚ)≤line.list*line.divisor := by
        rw [hlis]
        exact_mod_cast hcov hqua
      exact nonneg_of_mul_nonneg_left hpri hdiv
    · intro hnon _
      have hpri := mul_nonneg hnon hdiv.le
      rw [hlis] at hpri
      exact_mod_cast hpri
  · have hz : line.input.quantity=0 := le_antisymm (not_lt.mp hqua) hsound.quantity
    have hpri : (0 : ℚ)≤line.input.unitListPrice := by exact_mod_cast hsound.price
    simp [Covered,WorkingLine.list,hz,hpri]

structure FactsOf (line : WorkingLine) (f : Facts) : Prop where
  list : 0≤line.list
  net : f.lineNet=lineNet line
  gross : f.lineGross=lineGross line

theorem facts_returns (hcov : safe → Covered line) : Returns safe (FactsOf line) (facts line) := by
  unfold facts
  refine (sum_returns _).bind fun _ _ => ?_
  split_ifs with hlis
  · exact .error fun h => hlis.not_ge ((covered_iff hsound).mp (hcov h.1))
  refine (rounded_returns _).bind fun net hnet => (rounded_returns _).bind fun gross hgro => ?_
  refine (rounded_returns _).bind fun _ _ => (rounded_returns _).bind fun _ _ => ?_
  exact .ok ⟨not_lt.mp hlis,hnet,hgro⟩

omit hsound in
/-- The rounded amount of a line is not negative and never more than its price for all
units with the adjustments. -/
theorem own_bounds (hqua : 0<line.input.quantity) {f : Facts} (hfac : FactsOf line f) :
    0≤line.input.own f ∧
      line.input.own f≤line.input.unitListPrice*line.divisor+line.adjustments.sum := by
  have hown : line.input.own f=roundHalfUp (line.list*line.input.quantity) := by
    unfold StackLine.own
    split
    · next h => rw [hfac.gross,lineGross,StackLine.gross,if_pos h]
    · next h => rw [hfac.net,lineNet,StackLine.net,if_neg h]
  have hun : (0 : ℚ)≤line.input.quantity := by exact_mod_cast hqua.le
  have hdiv : (line.input.quantity : ℚ)≤line.divisor := by exact_mod_cast le_max_right _ _
  rw [hown]
  constructor
  · rw [← roundHalfUp_intCast 0,Int.cast_zero]
    exact roundHalfUp_mono (mul_nonneg hfac.list hun)
  · rw [← roundHalfUp_intCast (_+_),← list_mul_divisor hqua]
    exact roundHalfUp_mono (mul_le_mul_of_nonneg_left hdiv hfac.list)

end Line

section Push

variable (line : WorkingLine) (adjustment : ℤ)

@[simp] theorem push_input : (line.push adjustment).input=line.input := by
  unfold WorkingLine.push
  split <;> rfl

@[simp] theorem push_divisor : (line.push adjustment).divisor=line.divisor := by
  rw [WorkingLine.divisor,push_input,WorkingLine.divisor]

@[simp] theorem push_sum :
    (line.push adjustment).adjustments.sum=line.adjustments.sum+adjustment := by
  unfold WorkingLine.push
  split
  · next hz => rw [hz,add_zero]
  · simp

end Push

/-- Amounts taken off a line are at most zero. -/
structure Takes (a : LineAllocation) : Prop where
  amount : a.amount≤0
  units : ∀ unit∈a.units, unit≤0
  source : a.sourceAdjustmentAmount≤0
  sourceUnits : ∀ unit∈a.sourceUnits, unit≤0
  discount : a.sourceDiscountAmount≤0
  withTax : a.sourceDiscountAmountWithTax≤0

/-- What adjusting a line does. -/
structure Adjusted (pricesIncludeTax : Bool) (line : WorkingLine)
    (r : WorkingLine×LineAllocation) : Prop where
  input : r.1.input=line.input
  covered : Covered r.1
  key : r.2.lineKey=line.input.key
  amount : channel pricesIncludeTax r.1=channel pricesIncludeTax line+r.2.amount
  length : (r.2.units.length : ℤ)=line.input.quantity
  sum : r.2.units.sum=r.2.amount
  takes : Takes r.2
  /-- Nothing is rounded on the basis of the store. -/
  exact : line.input.priceIncludesTax=pricesIncludeTax →
    line.input.placedQuantity≤line.input.quantity →
    r.2.sourceDiscount pricesIncludeTax=r.2.amount

/-- Something at most zero is rounded to something at most zero. -/
theorem roundHalfUp_nonpos {x : ℚ} (h : x≤0) : roundHalfUp x≤0 := by
  have hmon := roundHalfUp_mono h
  rwa [← Int.cast_zero,roundHalfUp_intCast] at hmon

/-- On its own basis a line is worth its unit price times its units. -/
theorem channel_own {line : WorkingLine} {pricesIncludeTax : Bool}
    (hbas : line.input.priceIncludesTax=pricesIncludeTax) :
    channel pricesIncludeTax line=roundHalfUp (line.list*line.input.quantity) := by
  unfold channel lineGross lineNet StackLine.gross StackLine.net
  rw [hbas]
  cases pricesIncludeTax <;> simp

theorem facts_channel {line : WorkingLine} {f : Facts} (hfac : FactsOf line f)
    (pricesIncludeTax : Bool) : f.channel pricesIncludeTax=channel pricesIncludeTax line := by
  rw [Facts.channel,channel,hfac.net,hfac.gross]

theorem addAdjustment_returns {line : WorkingLine} {requested : ℤ}
    (hsound : Sound line.input) (hqua : 0<line.input.quantity)
    (hcov : safe → Covered line) (hreq : requested≤0) :
    Returns safe (Adjusted pricesIncludeTax line)
      (addAdjustment pricesIncludeTax line requested) := by
  unfold addAdjustment
  refine (facts_returns hsound hcov).bind fun before hbef => ?_
  obtain ⟨hown,hcap⟩ := own_bounds hqua hbef
  refine (prorateSigned_returns _ _).bind fun sourceUnits hsou => ?_
  set adjustment := max (-line.input.own before) requested with hadj
  have hnon : adjustment≤0 := max_le (neg_nonpos.mpr hown) hreq
  have hnonp : (adjustment : ℚ)≤0 := by exact_mod_cast hnon
  have hsd' : Sound (line.push adjustment).input := by rwa [push_input]
  have hpus : Covered (line.push adjustment) := by
    intro _
    have hlow : -line.input.own before≤adjustment := le_max_left _ _
    rw [push_input,push_divisor,push_sum]
    omega
  refine (facts_returns hsd' fun _ => hpus).bind fun after haft => ?_
  rw [facts_channel hbef,facts_channel haft]
  refine (prorateSigned_returns _ _).bind fun units hun => ?_
  refine (rounded_returns _).bind fun discount hdis => ?_
  refine (rounded_returns _).bind fun withTax hwit => ?_
  have hdiv : (0 : ℚ)<line.divisor := by exact_mod_cast hqua.trans_le (le_max_right _ _)
  have huni : (0 : ℚ)<line.input.quantity := by exact_mod_cast hqua
  have hlis : (line.push adjustment).list=line.list+adjustment/line.divisor := by
    unfold WorkingLine.list
    rw [push_input,push_divisor,push_sum,if_neg hqua.ne',if_neg hqua.ne']
    push_cast
    ring
  have hlower : (line.push adjustment).list≤line.list := by
    rw [hlis]
    exact add_le_of_nonpos_right (div_nonpos_of_nonpos_of_nonneg hnonp hdiv.le)
  have hexp : (adjustment : ℚ)*line.input.quantity/line.divisor≤0 :=
    div_nonpos_of_nonpos_of_nonneg (mul_nonpos_of_nonpos_of_nonneg hnonp huni.le) hdiv.le
  have hles : channel pricesIncludeTax (line.push adjustment)≤channel pricesIncludeTax line := by
    unfold channel lineGross lineNet
    rw [push_input]
    split
    · exact roundHalfUp_mono (mul_le_mul_of_nonneg_right (gross_mono hsound hlower) huni.le)
    · exact roundHalfUp_mono (mul_le_mul_of_nonneg_right (net_mono hsound hlower) huni.le)
  have hct : (line.units.length : ℤ)=line.input.quantity := by
    rw [WorkingLine.units,length_replicate,Int.toNat_of_nonneg hqua.le]
  have hz := net_mono hsound hexp
  have hz' := gross_mono hsound hexp
  have hnet : line.input.net 0=0 := by simp [StackLine.net]
  have hgro : line.input.gross 0=0 := by simp [StackLine.gross]
  refine .ok ⟨push_input _ _,hpus,rfl,(add_sub_cancel _ _).symm,?_,hun.sum,?_,?_⟩
  · rw [← hct,hun.length]
  · exact ⟨sub_nonpos.mpr hles,hun.nonpos (sub_nonpos.mpr hles),hnon,
      hsou.nonpos hreq,hdis ▸ roundHalfUp_nonpos (hz.trans_eq hnet),
      hwit ▸ roundHalfUp_nonpos (hz'.trans_eq hgro)⟩
  · intro hbas hpla
    have heq : line.divisor=line.input.quantity := max_eq_right hpla
    have hamo : line.list*line.input.quantity =
        ((line.input.unitListPrice*line.divisor+line.adjustments.sum : ℤ) : ℚ) :=
      heq ▸ list_mul_divisor hqua
    have hamo' : (line.push adjustment).list*line.input.quantity =
        ((line.input.unitListPrice*line.divisor+line.adjustments.sum+adjustment : ℤ) : ℚ) := by
      rw [hlis,add_mul,hamo,heq,div_mul_cancel₀ _ huni.ne']
      push_cast
      ring
    have hsou : (LineAllocation.sourceDiscount ⟨line.input.key,
        channel pricesIncludeTax (line.push adjustment)-channel pricesIncludeTax line,units,
        adjustment,sourceUnits,discount,withTax⟩ pricesIncludeTax)=adjustment := by
      have hbk : (adjustment : ℚ)*line.input.quantity/line.divisor=adjustment := by
        rw [heq,mul_div_cancel_right₀ _ huni.ne']
      unfold LineAllocation.sourceDiscount
      rw [hdis,hwit,hbk,StackLine.gross,StackLine.net,hbas]
      cases pricesIncludeTax <;> exact roundHalfUp_intCast _
    rw [hsou,channel_own hbas,channel_own ((congrArg _ (push_input _ _)).trans hbas),
      push_input,hamo,hamo',roundHalfUp_intCast,roundHalfUp_intCast]
    ring

end SellRight.PromotionStackSteps
