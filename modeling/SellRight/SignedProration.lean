import SellRight.PromotionStackSteps

/-!
# Signed proration

An amount of either sign is distributed over weights. Exact shares are rounded down and what
is missing goes to the largest fractions, so that all of the amount is given and no share
leaves the range of its weight.
-/

namespace SellRight.SignedProration

open PromotionStack PromotionStackSteps FallibleSteps List

/-- Exact shares of an amount. -/
def exactShares (weights : List ℤ) (amount : ℤ) : List ℚ :=
  weights.map (exactShare amount weights.sum weights.length)

/-- The amount, the weights, their total and the sum of the rounded shares are integer cents. -/
structure FitsCents (weights : List ℤ) (amount : ℤ) : Prop where
  range : -maxCents≤amount∧amount ≤ maxCents
  each : ∀ weight∈weights, 0≤weight∧weight ≤ maxCents
  total : weights.sum ≤ maxCents
  rounded : -maxCents≤(LargestRemainder.floors (exactShares weights amount)).sum

/-- Share of a weight next to its exact share, within the weight and of the amount's sign. -/
structure Fair (amount total : ℤ) (count : ℕ) (weight share : ℤ) : Prop where
  near : share=⌊exactShare amount total count weight⌋ ∨
    share=⌊exactShare amount total count weight⌋+1
  within : |amount|≤total → |share|≤weight
  sameSign : (0≤amount → 0 ≤ share)∧(amount≤0 → share≤0)
  zero : 0<total → weight=0 → share=0

theorem integer_eq_ok {value low result : ℤ} {label : String} :
    integer value label low=.ok result ↔ (low≤value∧value ≤ maxCents)∧value=result := by
  unfold integer
  split_ifs with hran <;> simp [hran]

theorem firstError_eq_ok {checks : List Check} {u : Unit} :
    firstError checks=.ok u ↔ ∀ check∈checks, check.1=true := by
  induction checks with
  | nil => simp [firstError]
  | cons check rest ih =>
    obtain ⟨holds,message⟩ := check
    cases holds <;> simp [firstError,ih]

theorem prorateSigned_eq_ok {weights : List ℤ} (hne : weights≠[]) {amount : ℤ} {shares : List ℤ} :
    prorateSigned weights amount=.ok shares ↔ FitsCents weights amount ∧
      (LargestRemainder.shares (exactShares weights amount) (amount : ℚ)).1=shares := by
  simp only [prorateSigned,bind_eq_ok,integer_eq_ok,PromotionStack.sum,firstError_eq_ok,if_neg hne]
  have hall := LargestRemainder.shares_awarded (exactShares weights amount)
  have hsum : (exactShares weights amount).sum=amount := sum_exactShare weights hne amount
  have hgiven := (LargestRemainder.shares_spec _ hsum).2.1
  rw [Int.ceil_intCast] at hgiven
  constructor
  · rintro ⟨_,⟨hran,-⟩,_,hck,_,⟨htot,rfl⟩,_,⟨hflo,-⟩,_,-,hend⟩
    split at hend
    · cases hend
    · exact ⟨⟨hran,fun weight hwei => of_decide_eq_true (hck _ (mem_map_of_mem hwei)),htot.2,
        hflo.1⟩,Except.ok.inj hend⟩
  · rintro ⟨h,rfl⟩
    have hleft := hall.covered
    rw [hsum,hgiven,add_sub_cancel,add_eq_left] at hleft
    have hfloors : (LargestRemainder.floors (exactShares weights amount)).sum≤amount := by
      have hmiss := LargestRemainder.missing_nonneg (exactShares weights amount)
      rw [hsum,sub_nonneg] at hmiss
      exact_mod_cast hmiss
    have htot : 0≤weights.sum := sum_nonneg fun weight hwei => (h.each weight hwei).1
    refine ⟨amount,⟨h.range,rfl⟩,(),fun check hck => ?_,_,⟨⟨?_,h.total⟩,rfl⟩,_,
      ⟨⟨h.rounded,hfloors.trans h.range.2⟩,rfl⟩,amount,⟨?_,hgiven⟩,?_⟩
    · obtain ⟨weight,hwei,rfl⟩ := mem_map.mp hck
      exact decide_eq_true (h.each weight hwei)
    · exact (neg_nonpos.mpr (by decide)).trans htot
    · exact ⟨h.range.1.trans_eq hgiven.symm,hgiven.trans_le h.range.2⟩
    · exact if_neg fun hbad => hbad.elim (fun hne => hne hleft) fun hne => hne rfl

/-- An exact share is the amount times a part that takes the total to the weight. -/
theorem exactShare_eq {total weight : ℤ} (amount : ℤ) (count : ℕ) (htot : 0≤total)
    (hwei : 0≤weight) : ∃ part : ℚ, 0≤part∧exactShare amount total count weight=amount*part ∧
      (0<total → total*part=weight) := by
  unfold exactShare
  by_cases hz : total=0
  · refine ⟨1/count,by positivity,?_,fun h => (h.ne' hz).elim⟩
    rw [if_pos hz,div_eq_mul_one_div]
  · have hpos : (0 : ℚ)<total := by exact_mod_cast htot.lt_of_ne' hz
    have hnon : (0 : ℚ)≤weight := by exact_mod_cast hwei
    exact ⟨weight / total,by positivity,if_neg hz,fun _ => mul_div_cancel₀ _ hpos.ne'⟩

/-- A share between the roundings of its exact share is fair. -/
theorem fair_of_rounded {amount total weight share : ℤ} {count : ℕ} (hwei : 0≤weight)
    (hle : weight≤total) (hlow : ⌊exactShare amount total count weight⌋ ≤ share)
    (hupp : share≤⌈exactShare amount total count weight⌉) :
    Fair amount total count weight share := by
  obtain ⟨part,hpart,heq,htotal⟩ := exactShare_eq amount count (hwei.trans hle) hwei
  have hnext := Int.ceil_le_floor_add_one (exactShare amount total count weight)
  have hbetween : ∀ low high : ℤ, (low : ℚ)≤amount*part → amount*part≤(high : ℚ) →
      low ≤ share∧share≤high := fun _ _ hl hh => by
    rw [heq] at hlow hupp
    exact ⟨(Int.le_floor.mpr hl).trans hlow,hupp.trans (Int.ceil_le.mpr hh)⟩
  refine ⟨by omega,fun hcap => ?_,⟨fun hamo => ?_,fun hamo => ?_⟩,fun hpos hz => ?_⟩
  · rcases (hwei.trans hle).eq_or_lt with hz|hpos
    · have hamo : amount=0 := abs_nonpos_iff.mp (hcap.trans_eq hz.symm)
      have hshare := hbetween 0 0 (by simp [hamo]) (by simp [hamo])
      rw [abs_le]
      omega
    · have habs : |(amount : ℚ)*part|≤weight := by
        rw [abs_mul,abs_of_nonneg hpart,← htotal hpos]
        exact mul_le_mul_of_nonneg_right (by exact_mod_cast hcap) hpart
      obtain ⟨hneg,hposi⟩ := abs_le.mp habs
      exact abs_le.mpr (hbetween _ _ (by exact_mod_cast hneg) hposi)
  · have hnon : (0 : ℚ)≤amount*part := mul_nonneg (by exact_mod_cast hamo) hpart
    exact (Int.le_floor.mpr (heq ▸ by exact_mod_cast hnon)).trans hlow
  · have hnon : (amount : ℚ)*part≤0 :=
      mul_nonpos_of_nonpos_of_nonneg (by exact_mod_cast hamo) hpart
    exact hupp.trans (Int.ceil_le.mpr (heq ▸ by exact_mod_cast hnon))
  · have hpartz : part=0 := by
      have hzero := htotal hpos
      rw [hz,Int.cast_zero] at hzero
      exact (mul_eq_zero.mp hzero).resolve_left (by exact_mod_cast hpos.ne')
    have hshare := hbetween 0 0 (by simp [hpartz]) (by simp [hpartz])
    omega

/-- A proration returns exactly when everything it adds up fits integer cents, and then its
shares add up to the amount and are fair to every weight. -/
theorem signed_proration (weights : List ℤ) (amount : ℤ) (hne : weights≠[]) :
    ((∃ shares, prorateSigned weights amount=.ok shares) ↔ FitsCents weights amount) ∧
      ∀ shares, prorateSigned weights amount=.ok shares → shares.sum=amount ∧
        List.Forall₂ (Fair amount weights.sum weights.length) weights shares := by
  refine ⟨⟨fun ⟨shares,h⟩ => ((prorateSigned_eq_ok hne).mp h).1,
    fun h => ⟨_,(prorateSigned_eq_ok hne).mpr ⟨h,rfl⟩⟩⟩,fun shares h => ?_⟩
  obtain ⟨hfit,rfl⟩ := (prorateSigned_eq_ok hne).mp h
  obtain ⟨hlen,hsum,hround⟩ := LargestRemainder.shares_spec (exactShares weights amount)
    (sum_exactShare weights hne amount)
  rw [Int.ceil_intCast] at hsum
  rw [exactShares,length_map] at hlen
  refine ⟨hsum,forall₂_iff_get.mpr ⟨hlen.symm,fun i hi hshare => ?_⟩⟩
  have hmem := getElem_mem hi
  have hnon := fun weight hwei => (hfit.each weight hwei).1
  obtain ⟨hlow,hupp⟩ := hround i
  have hexact : (exactShares weights amount).getD i 0 =
      exactShare amount weights.sum weights.length weights[i] := by
    rw [exactShares,getD_eq_getElem _ _ (hi.trans_eq (length_map _).symm),getElem_map]
  rw [hexact,getD_eq_getElem _ _ hshare] at hlow hupp
  exact fair_of_rounded (hnon _ hmem) (single_le_sum hnon _ hmem) hlow hupp

/-- A debit of one cent over three weights. -/
theorem signed_proration_debit : ∃ shares, prorateSigned [1,0,1] (-1)=.ok shares ∧
    shares.sum=-1∧List.Forall₂ (Fair (-1) 2 3) [1,0,1] shares := by
  have hok : (prorateSigned [1,0,1] (-1)).isOk=true := by decide +kernel
  cases hres : prorateSigned [1,0,1] (-1) with
  | error e =>
    rw [hres] at hok
    cases hok
  | ok shares => exact ⟨shares,rfl,(signed_proration [1,0,1] (-1) (by decide)).2 shares hres⟩

/-- A weight beyond integer cents is refused, and so is the least amount when its halves are
rounded down to less. -/
theorem signed_proration_refused : (prorateSigned [2147483648] 0).isOk=false ∧
    (prorateSigned [1,1] (-2147483647)).isOk=false := by
  decide +kernel

end SellRight.SignedProration
