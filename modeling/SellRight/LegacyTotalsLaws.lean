import SellRight.LegacyTotals

/-!
# Laws of the legacy totals

Every line keeps its discount between nothing and its price, the shares sum to what is
distributed, and a bigger discount never raises the total.
-/

namespace SellRight.LegacyTotalsLaws

open LegacyTotals List

/-- Discounts between nothing and the price of their line. -/
def Within (discounts prices : List ℤ) : Prop :=
  Forall₂ (fun d s => 0≤d∧d ≤ s) discounts prices

/-- Rounding keeps the order. -/
theorem roundHalfUp_mono {x y : ℚ} (h : x≤y) : roundHalfUp x≤roundHalfUp y :=
  Int.floor_mono (by linarith)

/-- An integer is rounded to itself. -/
theorem roundHalfUp_intCast (n : ℤ) : roundHalfUp n=n := by
  rw [roundHalfUp,Int.floor_eq_iff]
  constructor <;> linarith

theorem within_zero {prices : List ℤ} (hpri : ∀ s∈prices, 0 ≤ s) :
    Within (prices.map fun _ => 0) prices := by
  induction prices with
  | nil => exact Forall₂.nil
  | cons s _ ih =>
    exact Forall₂.cons ⟨le_rfl,hpri s mem_cons_self⟩
      (ih fun x hx => hpri x (mem_cons_of_mem _ hx))

/-- Discounts of each price on its own. -/
theorem within_map {prices : List ℤ} {f : ℤ → ℤ} (hf : ∀ s∈prices, 0≤f s∧f s ≤ s) :
    Within (prices.map f) prices := by
  induction prices with
  | nil => exact Forall₂.nil
  | cons s _ ih =>
    exact Forall₂.cons (hf s mem_cons_self) (ih fun x hx => hf x (mem_cons_of_mem _ hx))

variable {discounts : List ℤ} {input : TotalsInput}

theorem Within.sum {prices : List ℤ} (h : Within discounts prices) :
    0≤discounts.sum∧discounts.sum≤prices.sum := by
  induction h with
  | nil => simp
  | cons =>
    rw [sum_cons,sum_cons]
    omega

theorem Within.after {prices : List ℤ} (h : Within discounts prices) :
    (∀ s∈afterDiscounts prices discounts, 0 ≤ s) ∧
      (afterDiscounts prices discounts).sum=prices.sum-discounts.sum := by
  induction h with
  | nil => simp [afterDiscounts]
  | @cons d s discounts prices hhd _ ih =>
    rw [afterDiscounts,zipWith_cons_cons,← afterDiscounts]
    constructor
    · intro x hx
      rcases mem_cons.mp hx with rfl|hrt
      · omega
      · exact ih.1 x hrt
    · rw [sum_cons,sum_cons,sum_cons,ih.2]
      omega

theorem Within.add {first second prices : List ℤ} (h : Within first prices)
    (hsec : Within second (afterDiscounts prices first)) :
    Within (zipWith (· + ·) first second) prices ∧
      (zipWith (· + ·) first second).sum=first.sum+second.sum := by
  induction h generalizing second with
  | nil =>
    cases hsec
    exact ⟨Forall₂.nil,rfl⟩
  | @cons d s first prices hhd _ ih =>
    rw [afterDiscounts,zipWith_cons_cons,← afterDiscounts] at hsec
    cases hsec with
    | @cons e _ second _ hadd htl =>
      obtain ⟨hwit,hsum⟩ := ih htl
      rw [zipWith_cons_cons]
      refine ⟨Forall₂.cons ⟨by omega,by omega⟩ hwit,?_⟩
      rw [sum_cons,sum_cons,sum_cons,hsum]
      omega

/-- Weighted amounts sum to their target. -/
theorem sum_weighted (weights : List ℤ) (c : ℚ) :
    (weights.map fun w : ℤ => (w : ℚ) / c).sum=(weights.sum : ℤ) / c := by
  induction weights with
  | nil => simp
  | cons _ _ ih =>
    rw [map_cons,sum_cons,sum_cons,ih]
    push_cast
    ring

theorem distribute_within {weights : List ℤ} (target : ℚ) (hwei : ∀ w∈weights, 0≤w)
    (htgt : target≤(weights.sum : ℤ)) : Within (distributeLargestRemainder target weights) weights ∧
      (distributeLargestRemainder target weights).sum=max 0 ⌈target⌉ := by
  have hz : (weights.map fun _ => (0 : ℤ)).sum=0 := by simp
  unfold distributeLargestRemainder
  by_cases hno : target≤0∨weights=[]
  · have hcei : ⌈target⌉ ≤ 0 := by
      rcases hno with h|rfl
      · exact Int.ceil_le.mpr (by exact_mod_cast h)
      · exact Int.ceil_le.mpr (by simpa using htgt)
    rw [if_pos hno,hz,max_eq_left hcei]
    exact ⟨within_zero hwei,rfl⟩
  · rw [if_neg hno]
    obtain ⟨hpos,-⟩ := not_or.mp hno
    rw [not_le] at hpos
    have htot : (0 : ℚ)<(weights.sum : ℤ) := hpos.trans_le htgt
    have hsum : ¬ weights.sum≤0 := by
      rw [not_le]
      exact_mod_cast htot
    rw [if_neg hsum]
    have hraw : (weights.map fun w : ℤ => (w : ℚ) / (weights.sum : ℤ)*target).sum=target := by
      rw [sum_map_mul_right,sum_weighted,div_self htot.ne',one_mul]
    obtain ⟨hlen,hsha,hboun⟩ := LargestRemainder.shares_spec _ hraw
    rw [length_map] at hlen
    constructor
    · refine forall₂_iff_get.mpr ⟨hlen,fun i hi hi' => ?_⟩
      have hbou := hboun i
      rw [getD_eq_getElem _ _ hi,getD_eq_getElem _ _ (by simpa using hi'),getElem_map] at hbou
      have hw : (0 : ℚ)≤(weights[i] : ℤ) := by exact_mod_cast hwei _ (getElem_mem hi')
      constructor
      · exact (Int.floor_nonneg.mpr (by positivity)).trans hbou.1
      · refine hbou.2.trans (Int.ceil_le.mpr ?_)
        rw [div_mul_eq_mul_div,div_le_iff₀ htot]
        exact mul_le_mul_of_nonneg_left htgt hw
    · rw [hsha,max_eq_right (Int.ceil_nonneg hpos.le)]

variable {subtotals : List ℤ} {promotion : Option Promotion}

/-- A percentage is between none and all. -/
theorem percent_bounds (promotion : Option Promotion) :
    0≤percent promotion∧percent promotion≤100 := by
  unfold percent
  cases promotion with
  | none => norm_num
  | some =>
    dsimp only
    split_ifs
    · exact ⟨le_min (by norm_num) (le_max_left _ _),min_le_left _ _⟩
    · norm_num

theorem round_percent {s : ℤ} (hs : 0 ≤ s) (promotion : Option Promotion) :
    0≤roundHalfUp (s*percent promotion / 100)∧roundHalfUp (s*percent promotion / 100) ≤ s := by
  obtain ⟨hlow,hhig⟩ := percent_bounds promotion
  have hsq : (0 : ℚ) ≤ s := by exact_mod_cast hs
  constructor
  · have hrou := roundHalfUp_mono (x := ((0 : ℤ) : ℚ)) (y := s*percent promotion / 100)
      (by push_cast; positivity)
    rwa [roundHalfUp_intCast] at hrou
  · have hrou := roundHalfUp_mono (x := s*percent promotion / 100) (y := (s : ℚ))
      (by rw [div_le_iff₀ (by norm_num)]; exact mul_le_mul_of_nonneg_left hhig hsq)
    rwa [roundHalfUp_intCast] at hrou

theorem promotion_within (hpri : ∀ s∈subtotals, 0 ≤ s) (promotion : Option Promotion) :
    Within (promotionDiscounts promotion subtotals) subtotals := by
  unfold promotionDiscounts
  cases promotion with
  | none => exact within_zero hpri
  | some =>
    dsimp only
    split_ifs
    · exact within_map fun s hs => round_percent (hpri s hs) _
    · exact (distribute_within _ hpri (min_le_right _ _)).1
    · exact within_zero hpri

/-- A fixed promotion takes its value off, at most everything. -/
theorem fixed_sum (hpri : ∀ s∈subtotals, 0 ≤ s) (value : ℚ) (free : Bool) :
    (promotionDiscounts (some ⟨.fixed,value,free⟩) subtotals).sum =
      max 0 ⌈min value (subtotals.sum : ℤ)⌉ := by
  exact (distribute_within _ hpri (min_le_right _ _)).2

theorem percentage_discounts (value : ℚ) (free : Bool) :
    promotionDiscounts (some ⟨.percentage,value,free⟩) subtotals =
      subtotals.map fun s : ℤ => roundHalfUp (s*min 100 (max 0 value) / 100) := by
  by_cases hpos : 0 < min 100 (max 0 value)
  · simp [promotionDiscounts,percent,hpos]
  have hz : min 100 (max 0 value)=0 :=
    le_antisymm (not_lt.mp hpos) (le_min (by norm_num) (le_max_left _ _))
  have hrou : roundHalfUp 0=0 := by exact_mod_cast roundHalfUp_intCast 0
  simp [promotionDiscounts,percent,hz,hrou]

theorem points_within {afterPromo : List ℤ} (hpri : ∀ s∈afterPromo, 0 ≤ s) (points : Option ℚ) :
    Within (pointShares points afterPromo) afterPromo ∧
      (pointShares points afterPromo).sum=pointsApplied points afterPromo.sum := by
  have hsum : 0≤afterPromo.sum := sum_nonneg hpri
  unfold pointShares
  by_cases hpos : 0<pointsApplied points afterPromo.sum
  · rw [if_pos hpos]
    have hle : pointsApplied points afterPromo.sum≤afterPromo.sum :=
      (min_le_right _ _).trans_eq (max_eq_right hsum)
    obtain ⟨hwit,htot⟩ := distribute_within (pointsApplied points afterPromo.sum : ℤ)
      hpri (by exact_mod_cast hle)
    rw [Int.ceil_intCast,max_eq_right hpos.le] at htot
    exact ⟨hwit,htot⟩
  · have hno : pointsApplied points afterPromo.sum=0 :=
      le_antisymm (not_lt.mp hpos) (le_min (le_max_left _ _) (le_max_left _ _))
    rw [if_neg hpos,hno]
    exact ⟨within_zero hpri,by simp⟩

abbrev prices (input : TotalsInput) : List ℤ := input.lines.map CartLineInput.subtotal

/-- Prices and quantities are not negative. -/
def Priced (input : TotalsInput) : Prop := ∀ l∈input.lines, 0≤l.unitPrice∧0≤l.quantity

/-- Prices of lines are not negative. -/
theorem prices_nonneg (hpri : Priced input) : ∀ s∈prices input, 0 ≤ s := by
  intro s hs
  obtain ⟨l,hl,rfl⟩ := mem_map.mp hs
  exact mul_nonneg (hpri l hl).1 (hpri l hl).2

theorem lineDiscounts_within (hpri : Priced input) :
    Within (lineDiscounts input) (prices input) ∧
      (lineDiscounts input).sum=(promotionDiscounts input.promotion (prices input)).sum +
        pointsApplied input.pointsDiscount ((prices input).sum -
          (promotionDiscounts input.promotion (prices input)).sum) := by
  have hpro := promotion_within (prices_nonneg hpri) input.promotion
  obtain ⟨haft,hlf⟩ := hpro.after
  obtain ⟨hpoi,hsum⟩ := points_within haft input.pointsDiscount
  obtain ⟨hwit,htot⟩ := hpro.add hpoi
  refine ⟨hwit,htot.trans ?_⟩
  rw [hsum,hlf]

theorem map_lineDiscount {lines : List CartLineInput}
    (h : Within discounts (lines.map CartLineInput.subtotal)) :
    (zipWith lineTotals lines discounts).map LineTotals.lineDiscount=discounts ∧
      (∀ l∈zipWith lineTotals lines discounts,
        0≤l.lineDiscount∧l.lineDiscount≤l.lineSubtotal) ∧
      ((zipWith lineTotals lines discounts).map LineTotals.lineTotal).sum =
        (lines.map CartLineInput.subtotal).sum-discounts.sum := by
  induction lines generalizing discounts with
  | nil =>
    cases h
    simp
  | cons line _ ih =>
    cases h with
    | @cons d _ discounts _ hhd hrt =>
      obtain ⟨hmap,hbou,hsum⟩ := ih hrt
      rw [zipWith_cons_cons]
      refine ⟨by rw [map_cons,hmap]; rfl,fun l hl => ?_,?_⟩
      · rcases mem_cons.mp hl with rfl|hmem
        · exact hhd
        · exact hbou l hmem
      · rw [map_cons,map_cons,sum_cons,sum_cons,sum_cons,hsum]
        change line.subtotal-d+_=_
        omega

theorem discountTotal_eq (hpri : Priced input) :
    (calculateOrderTotals input).discountTotal=(lineDiscounts input).sum := by
  have hlns := (map_lineDiscount (lineDiscounts_within hpri).1).1
  exact congrArg sum hlns

/-- Legacy totals keep every discount within its line and lose no cent. -/
theorem totals_within_lines (input : TotalsInput) (hpriced : Priced input)
    (hfixed : ∀ promo, input.promotion=some promo→promo.type=.fixed →
      ∃ cents : ℤ, 0≤cents∧promo.value=cents) : let totals := calculateOrderTotals input
    let promo := promotionDiscounts input.promotion (prices input)
    let points := pointShares input.pointsDiscount (afterDiscounts (prices input) promo)
    (∀ l∈totals.lines, 0≤l.lineDiscount∧l.lineDiscount≤l.lineSubtotal) ∧
      totals.lines.map LineTotals.lineDiscount=zipWith (· + ·) promo points ∧
      (∀ p, input.promotion=some p→p.type=.fixed → (promo.sum : ℚ)=min p.value totals.subtotal) ∧
      totals.pointsDiscount =
        min ⌊max 0 (input.pointsDiscount.getD 0)⌋ (totals.subtotal-promo.sum) ∧
      points.sum=totals.pointsDiscount ∧
      totals.discountTotal=(totals.lines.map LineTotals.lineDiscount).sum ∧
      (totals.lines.map LineTotals.lineTotal).sum=totals.subtotal-totals.discountTotal := by
  intro totals promo points
  obtain ⟨hwit,-⟩ := lineDiscounts_within hpriced
  obtain ⟨hmap,hbou,hsum⟩ := map_lineDiscount hwit
  have hpro := promotion_within (prices_nonneg hpriced) input.promotion
  obtain ⟨haft,hlf⟩ := hpro.after
  have hpoi : points.sum=totals.pointsDiscount :=
    (points_within haft input.pointsDiscount).2
  refine ⟨hbou,hmap,fun p hp htyp => ?_,?_,hpoi,rfl,?_⟩
  · obtain ⟨cents,hcen,hval⟩ := hfixed p hp htyp
    have hsha := fixed_sum (prices_nonneg hpriced) p.value p.freeShipping
    have heq : promo=promotionDiscounts (some ⟨.fixed,p.value,p.freeShipping⟩)
        (prices input) := by
      change promotionDiscounts input.promotion _=_
      rw [hp,← htyp]
    have hnon : 0≤(prices input).sum := sum_nonneg (prices_nonneg hpriced)
    rw [heq,hsha,hval,← Int.cast_min,Int.ceil_intCast,max_eq_right (le_min hcen hnon)]
    exact Int.cast_min
  · have hflo : max 0 ⌊input.pointsDiscount.getD 0⌋ = ⌊max 0 (input.pointsDiscount.getD 0)⌋ := by
      rw [Int.floor_mono.map_max,Int.floor_zero]
    change min (max 0 ⌊input.pointsDiscount.getD 0⌋)
      (max 0 (afterDiscounts (prices input) promo).sum)=_
    have hle : 0≤(prices input).sum-promo.sum := sub_nonneg.mpr hpro.sum.2
    rw [hflo,hlf,max_eq_right hle]
    rfl
  · rw [discountTotal_eq hpriced]
    exact hsum

/-- Three lines, a fixed promotion and points. -/
def basket : TotalsInput :=
  { lines := [⟨333,1⟩,⟨333,1⟩,⟨167,2⟩],shipping := 500,taxRate := 875
    promotion := some ⟨.fixed,100,false⟩,pointsDiscount := some 50}

theorem basket_priced : Priced basket := by
  intro l hl
  fin_cases hl <;> decide

/-- The cents of the basket are all attributed. -/
theorem totals_within_lines_basket : Priced basket ∧
    (calculateOrderTotals basket).discountTotal=150 ∧
    ((calculateOrderTotals basket).lines.map LineTotals.lineTotal).sum =
      (calculateOrderTotals basket).subtotal-(calculateOrderTotals basket).discountTotal :=
  ⟨basket_priced,by decide +kernel,(totals_within_lines basket basket_priced fun promo hpro _ =>
    ⟨100,by decide,by cases hpro; rfl⟩).2.2.2.2.2.2⟩

theorem taxOn_mono (base base' : ℤ) (h : base≤base') (rate : ℤ) :
    taxOn false base rate≤taxOn false base' rate := by
  unfold taxOn
  by_cases hrat : rate≤0
  · rw [if_pos hrat,if_pos hrat]
  rw [if_neg hrat,if_neg hrat]
  have hq : (0 : ℚ)≤rate := by exact_mod_cast (not_le.mp hrat).le
  refine roundHalfUp_mono ?_
  gcongr

/-- What is paid grows with the discounted merchandise. -/
theorem taxAndTotal_mono (input : TotalsInput) {d d' : ℤ} (h : d≤d') :
    (taxAndTotal input d).2≤(taxAndTotal input d').2 := by
  unfold taxAndTotal
  have htax : ∀ more, taxOn false (d+adjustmentSum input false+more) input.taxRate ≤
      taxOn false (d'+adjustmentSum input false+more) input.taxRate :=
    fun more => taxOn_mono _ _ (by omega) input.taxRate
  have hship := htax (if input.shippingTaxable then shippingTotal input else 0)
  have halone := htax 0
  simp only [add_zero] at halone
  cases input.shippingTaxRate <;> cases input.taxInclusive <;>
    simp only [if_true,Bool.false_eq_true,if_false] <;> omega

/-- The larger of two discounts does not cost more. -/
theorem grandTotal_anti {a b : TotalsInput} (ha : Priced a) (hb : Priced b)
    (htax : ∀ d, taxAndTotal a d=taxAndTotal b d) (hpri : prices a=prices b)
    (hpro : (promotionDiscounts a.promotion (prices a)).sum ≤
      (promotionDiscounts b.promotion (prices b)).sum)
    (hpoi : a.pointsDiscount.getD 0≤b.pointsDiscount.getD 0) :
    (calculateOrderTotals b).grandTotal≤(calculateOrderTotals a).grandTotal := by
  have hflo : ⌊a.pointsDiscount.getD 0⌋ ≤ ⌊b.pointsDiscount.getD 0⌋ := Int.floor_mono hpoi
  have hdis : (calculateOrderTotals a).discountTotal≤(calculateOrderTotals b).discountTotal := by
    rw [discountTotal_eq ha,discountTotal_eq hb,(lineDiscounts_within ha).2,
      (lineDiscounts_within hb).2,hpri]
    rw [hpri] at hpro
    unfold pointsApplied
    omega
  change max 0 (taxAndTotal b ((prices b).sum-(calculateOrderTotals b).discountTotal)).2 ≤
    max 0 (taxAndTotal a ((prices a).sum-(calculateOrderTotals a).discountTotal)).2
  rw [htax,hpri]
  exact max_le_max_left 0 (taxAndTotal_mono b (by omega))

/-- A bigger discount never costs more, in points, in cents or in percent. -/
theorem discount_never_costs (input : TotalsInput) (hpriced : Priced input) :
    (∀ x y : Option ℚ, x.getD 0≤y.getD 0 →
      (calculateOrderTotals {input with pointsDiscount := y}).grandTotal ≤
        (calculateOrderTotals {input with pointsDiscount := x}).grandTotal) ∧
      ∀ (free : Bool) (x y : ℚ), x≤y →
        (calculateOrderTotals {input with promotion := some ⟨.fixed,y,free⟩}).grandTotal ≤
          (calculateOrderTotals {input with promotion := some ⟨.fixed,x,free⟩}).grandTotal ∧
        (calculateOrderTotals {input with promotion := some ⟨.percentage,y,free⟩}).grandTotal ≤
          (calculateOrderTotals
            {input with promotion := some ⟨.percentage,x,free⟩}).grandTotal := by
  refine ⟨fun x y h => grandTotal_anti hpriced hpriced (fun _ => rfl) rfl le_rfl h,
    fun free x y h => ⟨grandTotal_anti hpriced hpriced (fun _ => rfl) rfl ?_ le_rfl,
      grandTotal_anti hpriced hpriced (fun _ => rfl) rfl ?_ le_rfl⟩⟩
  · rw [fixed_sum (prices_nonneg hpriced),fixed_sum (prices_nonneg hpriced)]
    exact max_le_max_left 0 (Int.ceil_mono (min_le_min_right _ h))
  · rw [percentage_discounts,percentage_discounts]
    refine sum_le_sum fun s hs => roundHalfUp_mono ?_
    have hsq : (0 : ℚ) ≤ s := by exact_mod_cast prices_nonneg hpriced s hs
    gcongr

/-- More points do not raise the total of the basket. -/
theorem discount_never_costs_basket : Priced basket ∧
    (calculateOrderTotals {basket with pointsDiscount := some 90}).grandTotal ≤
      (calculateOrderTotals {basket with pointsDiscount := some 50}).grandTotal :=
  ⟨basket_priced,(discount_never_costs basket basket_priced).1 (some 50) (some 90) (by norm_num)⟩

end SellRight.LegacyTotalsLaws
