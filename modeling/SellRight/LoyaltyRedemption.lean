import Mathlib.Data.Rat.Floor

/-!
# Redemption plans of loyalty points

`planRedemption` of the loyalty settings: the most points a shopper wants to
spend, against the balance and the capped subtotal. The two conversions between
points and cents round in opposite directions, and the plan charges the least
number of points that buys the granted discount.
-/

namespace SellRight.LoyaltyRedemption

/-- The redemption part of `store.config.loyalty`, within its schema. -/
structure LoyaltySettings where
  enabled : Bool
  /-- Points needed for one dollar off. -/
  pointsPerDollarOff : ℤ
  minRedeemPoints : ℤ
  /-- The cap on a discount, as a percentage of the subtotal. -/
  maxRedeemPercentOfSubtotal : Option ℤ
  rate : 1≤pointsPerDollarOff∧pointsPerDollarOff≤1000000
  minimum : 0 ≤ minRedeemPoints∧minRedeemPoints≤100000000
  percent : ∀ p∈maxRedeemPercentOfSubtotal,1≤p∧p≤100

inductive RedeemRejection where
  | disabled
  | notSignedIn
  | belowMinimum
  | insufficientBalance
  | nothingToDiscount
  deriving DecidableEq

structure RedeemPlan where
  (points discountCents : ℤ)
  deriving DecidableEq

structure RedeemInput where
  settings : LoyaltySettings
  (requestedPoints availablePoints : ℚ)
  /-- Merchandise subtotal after promotions, before tax. -/
  discountableCents : ℚ

/-- Cents off that points buy, floored. -/
def pointsToCents (points pointsPerDollarOff : ℤ) : ℤ :=
  if ¬0<points∨¬0<pointsPerDollarOff then 0 else points*100/pointsPerDollarOff

/-- Smallest point count that buys an amount; the division rounds up. -/
def centsToPoints (cents pointsPerDollarOff : ℤ) : ℤ :=
  if ¬0<cents then 0 else -(-(cents*pointsPerDollarOff)/100)

def RedeemInput.requested (i : RedeemInput) : ℤ := ⌊i.requestedPoints⌋

/-- The capped subtotal a discount may not exceed. -/
def RedeemInput.cap (i : RedeemInput) : ℤ :=
  let base := max 0 ⌊i.discountableCents⌋
  match i.settings.maxRedeemPercentOfSubtotal with
  | none => base
  | some percent => base*percent/100

def planRedemption (i : RedeemInput) : Except RedeemRejection RedeemPlan :=
  let cfg := i.settings
  if cfg.enabled=false then .error .disabled
  else if ¬0< i.requested then .error .belowMinimum
  else if max 0 i.availablePoints< i.requested then .error .insufficientBalance
  else if i.requested<cfg.minRedeemPoints then .error .belowMinimum
  else
    let discountCents := min (pointsToCents i.requested cfg.pointsPerDollarOff) i.cap
    if discountCents≤0 then .error .nothingToDiscount
    else
      let points := min i.requested (centsToPoints discountCents cfg.pointsPerDollarOff)
      if points<cfg.minRedeemPoints then .error .belowMinimum
      else .ok ⟨points,discountCents⟩

variable {points cents rate : ℤ}

/-- Points buy an amount exactly when their value reaches it before the floor. -/
theorem le_pointsToCents (hr : 0<rate) (hc : 0<cents) :
    cents≤pointsToCents points rate ↔ cents*rate≤points*100 := by
  unfold pointsToCents
  by_cases hp : 0<points
  · rw [if_neg (by omega)]
    exact Int.le_ediv_iff_mul_le hr
  · have hpos : 0<cents*rate := Int.mul_pos hc hr
    omega

/-- `centsToPoints` is the least number of points that buys the amount. -/
theorem centsToPoints_le (hr : 0<rate) (hc : 0<cents) :
    centsToPoints cents rate≤points ↔ cents≤pointsToCents points rate := by
  rw [le_pointsToCents hr hc]
  unfold centsToPoints
  generalize cents*rate=due
  omega

/-- What a granted plan promises: the minimum, the request and the balance hold,
the discount is at least a cent and within the cap, and no point is wasted. -/
structure Affordable (i : RedeemInput) (plan : RedeemPlan) : Prop where
  minimum : i.settings.minRedeemPoints≤plan.points
  requested : plan.points≤ i.requested
  available : (i.requested : ℚ)≤ i.availablePoints
  positive : 1≤plan.discountCents
  capped : plan.discountCents≤ i.cap
  covers : plan.discountCents≤pointsToCents plan.points i.settings.pointsPerDollarOff
  least : ∀ fewer<plan.points, pointsToCents fewer i.settings.pointsPerDollarOff<plan.discountCents

theorem planRedemption_affordable {i : RedeemInput} {plan : RedeemPlan}
    (h : planRedemption i=.ok plan) : Affordable i plan := by
  unfold planRedemption at h
  dsimp only at h
  split_ifs at h with hen hre hav hmi hdi hpo
  have hrate : 0< i.settings.pointsPerDollarOff := by have := i.settings.rate; omega
  generalize hd : min (pointsToCents i.requested i.settings.pointsPerDollarOff) i.cap=cents at h
  have hc : 0<cents := by omega
  have hbuy : cents≤pointsToCents i.requested i.settings.pointsPerDollarOff := by omega
  have hle := (centsToPoints_le hrate hc).mpr hbuy
  rw [hd,min_eq_right hle] at hpo
  rw [min_eq_right hle] at h
  have hcap : cents≤ i.cap := by omega
  cases h
  have hbal : (i.requested : ℚ)≤ max 0 i.availablePoints := not_lt.mp hav
  have hpos : (0 : ℚ)< i.requested := by exact_mod_cast hre
  refine ⟨not_lt.mp hpo,hle,?_,hc,hcap,(centsToPoints_le hrate hc).mp le_rfl,?_⟩
  · rcases le_max_iff.mp hbal with hz|ha
    · exact absurd hz (not_le.mpr hpos)
    · exact ha
  · intro fewer hf
    exact not_le.mp fun hb => not_lt.mpr ((centsToPoints_le hrate hc).mpr hb) hf

theorem planRedemption_nothing {i : RedeemInput}
    (h : planRedemption i=.error .nothingToDiscount) (k : ℤ) (hk : k≤ i.requested) :
    min (pointsToCents k i.settings.pointsPerDollarOff) i.cap<1 := by
  unfold planRedemption at h
  dsimp only at h
  split_ifs at h with hen hre hav hmi hdi <;> cases h
  have hrate : 0< i.settings.pointsPerDollarOff := by have := i.settings.rate; omega
  by_contra hno
  have hb : 1≤pointsToCents k i.settings.pointsPerDollarOff := by omega
  have hv := (le_pointsToCents hrate one_pos).mp hb
  have hmul : (1 : ℤ)*i.settings.pointsPerDollarOff≤ i.requested*100 := by omega
  have hreq := (le_pointsToCents hrate one_pos).mpr hmul
  omega

/-- A redemption plan is affordable and wastes no points, and a refusal because
nothing would be discounted is right: no points up to the request buy a cent. -/
theorem redemption_exact (i : RedeemInput) : (∀ plan,planRedemption i=.ok plan → Affordable i plan)∧
    (planRedemption i=.error .nothingToDiscount→∀ k≤ i.requested,
      min (pointsToCents k i.settings.pointsPerDollarOff) i.cap<1) :=
  ⟨fun _ => planRedemption_affordable,planRedemption_nothing⟩

/-- At 30 points for a dollar a request of 10 points over a 50% cap of 61 cents
buys 30 cents for 9 points. -/
theorem redemption_exact_capped : ∃ i : RedeemInput,
    planRedemption i=.ok ⟨9,30⟩∧Affordable i ⟨9,30⟩ :=
  ⟨⟨⟨true,30,5,some 50,by decide,by decide,by decide⟩,21/2,40,61⟩,by decide +kernel,
    (redemption_exact _).1 _ (by decide +kernel)⟩

end SellRight.LoyaltyRedemption
