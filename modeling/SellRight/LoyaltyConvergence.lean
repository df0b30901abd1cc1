import SellRight.LoyaltyLedger

/-!
# Convergence of loyalty refunds

What was given back and taken back for an order is the largest share that a
reconciliation under a new key asked for.
-/

namespace SellRight.LoyaltyConvergence

open LoyaltyLedger RunHistory LegacyTotals List

variable {w : World} {rows : List LoyaltyRow} {o : String}
variable {points : ℤ} {f : LoyaltyRow → ℤ} {row : LoyaltyRow}
  {h : List (Event (List LoyaltyRow) Action Posted)}

/-- A share lies between nothing and everything. -/
theorem proportionalTarget_bounds (hpoi : 0≤points) (num den : ℚ) :
    0≤proportionalTarget points num den∧proportionalTarget points num den≤points := by
  unfold proportionalTarget
  by_cases hno : ¬ 0<points∨¬ 0<den∨¬ 0<num
  · rw [if_pos hno]
    exact ⟨le_rfl,hpoi⟩
  split_ifs with hall
  · exact ⟨hpoi,le_rfl⟩
  simp only [not_or,not_not] at hno
  obtain ⟨hpos,hden,hnum⟩ := hno
  have hq : (0 : ℚ)<points := by exact_mod_cast hpos
  constructor
  · exact Int.floor_nonneg.mpr (by positivity)
  · refine Int.lt_add_one_iff.mp (Int.floor_lt.mpr ?_)
    have hsha : (points : ℚ)*num / den≤points := by
      rw [div_le_iff₀ hden]
      exact mul_le_mul_of_nonneg_left (not_le.mp hall).le hq.le
    push_cast
    linarith

/-- All the money is the whole total. -/
theorem proportionalTarget_all (hpoi : 0≤points) {num den : ℚ} (hden : 0<den)
    (hall : den≤num) : proportionalTarget points num den=points := by
  unfold proportionalTarget
  by_cases hpos : 0<points
  · rw [if_neg (by simp [hpos,hden,hden.trans_le hall]),if_pos hall]
  · omega

/-- A row counts when its key is new. -/
theorem total_insertRow (f : LoyaltyRow → ℤ) (rows : List LoyaltyRow) (row : LoyaltyRow) :
    total f o (insertRow rows row)=total f o rows +
      if fresh rows row.sourceRef=true∧row.orderId=some o then f row else 0 := by
  unfold insertRow
  by_cases htk : row.sourceRef∈rows.map LoyaltyRow.sourceRef
  · rw [if_pos htk,if_neg fun h => (of_decide_eq_true h.1) htk,add_zero]
  rw [if_neg htk,total,total,filter_append,map_append,sum_append]
  congr 1
  by_cases hord : row.orderId=some o
  · rw [if_pos ⟨decide_eq_true htk,hord⟩]
    simp [hord]
  · simp [hord]

/-- Rows without a place in the sums leave them. -/
theorem total_insertRow_zero
    (h : row.orderId=some o→f row=0) : total f o (insertRow rows row)=total f o rows := by
  rw [total_insertRow]
  split_ifs with hnew
  · rw [h hnew.2,add_zero]
  · rw [add_zero]

/-- Written-off points belong to no order. -/
theorem total_postExpiry (f : LoyaltyRow → ℤ) (rows : List LoyaltyRow) (customerId : String)
    (now : ℤ) : total f o (postExpiry w rows customerId now)=total f o rows := by
  unfold postExpiry
  dsimp only
  split_ifs
  · rfl
  · exact total_insertRow_zero nofun

/-- A key that no row of the step takes stays new. -/
theorem fresh_insertRow {ref : SourceRef} (h : ref≠row.sourceRef) :
    fresh (insertRow rows row) ref=fresh rows ref := by
  unfold insertRow
  split_ifs
  · rfl
  · simp [fresh,h]

/-- Restores and written-off points leave the key of a reversal. -/
theorem fresh_earn (rows : List LoyaltyRow) (i : Input) (customerId : String) (source : String) :
    fresh (postExpiry w (postRestore w rows i customerId) customerId i.now) (.earn source) =
      fresh rows (.earn source) := by
  have hres : fresh (postRestore w rows i customerId) (.earn source) =
      fresh rows (.earn source) := by
    unfold postRestore
    split_ifs
    · exact fresh_insertRow nofun
    · rfl
  unfold postExpiry
  dsimp only
  split_ifs
  · exact hres
  · exact (fresh_insertRow fun h => by cases h).trans hres

theorem total_of_none
    (h : (rows.find? fun r => decide (r.orderId=some o))=none) : total f o rows=0 := by
  have hno : (rows.filter fun r => decide (r.orderId=some o))=[] :=
    filter_eq_nil_iff.mpr fun r hr => List.find?_eq_none.mp h r hr
  rw [total,hno]
  rfl

/-- An order without rows has nothing to give back or take back. -/
theorem deltas_of_none {i : Input}
    (h : (rows.find? fun r => decide (r.orderId=some i.orderId))=none) :
    restoreDelta rows i=0∧earnDelta rows i=0 := by
  have hz : proportionalTarget 0 i.num i.den=0 := by
    rw [proportionalTarget,if_pos (.inl (lt_irrefl 0))]
  constructor
  · rw [restoreDelta,total_of_none h,total_of_none h,hz,sub_zero]
  · rw [earnDelta,earnedTotal,total_of_none h,total_of_none h,max_self,hz,sub_zero]

/-- What a measure counts of the two rows of a reconciliation. -/
theorem total_reconcile (f : LoyaltyRow → ℤ) (i : Input) (restored reversed : ℤ)
    (hres : ∀ customerId, f (restoreRow w rows i customerId)=restored) (hrev : ∀ rows' customerId,
      f (reversalRow w rows' i customerId (earnDelta rows i))=reversed) :
    total f o (reconcileOrderLoyalty w rows i).2=total f o rows +
      (if 0<restoreDelta rows i∧fresh rows (.restore i.sourceRef)=true∧i.orderId=o
        then restored else 0) +
      if 0<earnDelta rows i∧fresh rows (.earn i.sourceRef)=true∧i.orderId=o
        then reversed else 0 := by
  unfold reconcileOrderLoyalty
  cases hfin : rows.find? fun r => decide (r.orderId=some i.orderId) with
  | none =>
    obtain ⟨hr,he⟩ := deltas_of_none hfin
    have hfst : ¬ (0<restoreDelta rows i ∧
        fresh rows (.restore i.sourceRef)=true∧i.orderId=o) := fun h => by omega
    have hsec : ¬ (0<earnDelta rows i ∧
        fresh rows (.earn i.sourceRef)=true∧i.orderId=o) := fun h => by omega
    rw [if_neg hfst,if_neg hsec,add_zero,add_zero]
  | some row =>
    have hfst : total f o (postRestore w rows i row.customerId)=total f o rows +
        if 0<restoreDelta rows i∧fresh rows (.restore i.sourceRef)=true∧i.orderId=o
          then restored else 0 := by
      unfold postRestore
      by_cases hdel : 0<restoreDelta rows i
      · rw [if_pos hdel,total_insertRow,hres]
        simp [restoreRow,hdel]
      · rw [if_neg hdel,if_neg fun h => hdel h.1,add_zero]
    rw [← hfst]
    dsimp only
    unfold postReversal
    by_cases hdel : 0<earnDelta rows i
    · rw [if_pos hdel,total_insertRow,total_postExpiry,hrev]
      have hkey := fresh_earn (w := w) rows i row.customerId i.sourceRef
      simp [reversalRow,hdel,hkey]
    · rw [if_neg hdel,if_neg fun h => hdel h.1,add_zero]

/-- Rows of the order that a reconciliation has not posted yet. -/
def Opening (o : String) (rows : List LoyaltyRow) : Prop :=
  ∀ r∈rows, r.orderId=some o → r.kind≠.reverse∧(r.kind=.redeem → r.points≤0)

/-- A posting of something else than the redemption, the earn or a reversal of the order. -/
def Foreign (o : String) (a : Action) : Prop := ∀ row, a=.post row → row.orderId=some o →
    row.redeemed=0∧row.restored=0∧row.earned=0∧row.earnReversed=0

section
variable (o : String) (points : ℤ) (key : String → SourceRef)

/-- Share of the points that a reconciliation of the order asks for under a new key. -/
def asked (e : Event (List LoyaltyRow) Action Posted) : ℤ :=
  match e.action with
  | .post _ => 0
  | .reconcile i =>
    if i.orderId=o∧fresh e.before (key i.sourceRef)=true then
      proportionalTarget points i.num i.den
    else 0

/-- Largest share asked for. -/
def largest (h : List (Event (List LoyaltyRow) Action Posted)) : ℤ :=
  (h.map (asked o points key)).foldl max 0

end

theorem largest_append (points : ℤ) (key : String → SourceRef)
    (h : List (Event (List LoyaltyRow) Action Posted)) (e : Event (List LoyaltyRow) Action Posted) :
    largest o points key (h++[e])=max (largest o points key h) (asked o points key e) := by
  rw [largest,map_append,foldl_append]
  rfl

theorem asked_le_largest {key : String → SourceRef} :
    0≤largest o points key h∧∀ e∈h, asked o points key e≤largest o points key h := by
  induction h using List.reverseRecOn with
  | nil => exact ⟨le_rfl,fun e he => by cases he⟩
  | append_singleton _ _ ih =>
    rw [largest_append]
    refine ⟨ih.1.trans (le_max_left _ _),fun e he => ?_⟩
    rcases mem_concat_iff.mp he with hold|rfl
    · exact (ih.2 e hold).trans (le_max_left _ _)
    · exact le_max_right _ _

/-- Every share is part of the points, and so is the largest. -/
theorem largest_le (hpoi : 0≤points) (key : String → SourceRef)
    (h : List (Event (List LoyaltyRow) Action Posted)) : largest o points key h≤points := by
  induction h using List.reverseRecOn with
  | nil => exact hpoi
  | append_singleton _ last ih =>
    rw [largest_append]
    refine max_le ih ?_
    unfold asked
    cases last.action with
    | post => exact hpoi
    | reconcile =>
      dsimp only
      split_ifs
      · exact (proportionalTarget_bounds hpoi _ _).2
      · exact hpoi

/-- Sums of an order after a history. -/
structure Converged (o : String) (start : List LoyaltyRow)
    (h : List (Event (List LoyaltyRow) Action Posted)) (rows : List LoyaltyRow) : Prop where
  redeemed : total LoyaltyRow.redeemed o rows=total LoyaltyRow.redeemed o start
  earned : total LoyaltyRow.earned o rows=total LoyaltyRow.earned o start
  restored : total LoyaltyRow.restored o rows =
    largest o (total LoyaltyRow.redeemed o start) .restore h
  reversed : total LoyaltyRow.earnReversed o rows=largest o (earnedTotal o start) .earn h

/-- A sum grows by what a new key adds to the largest share. -/
theorem add_capped {P Q : Prop} [Decidable P] [Decidable Q] {base delta share : ℤ} (hpos : 0≤base)
    (hiff : Q ↔ P) (hadd : P→delta=share-base) :
    base+(if 0<delta∧Q then delta else 0)=max base (if P then share else 0) := by
  by_cases hnew : P
  · have hdif := hadd hnew
    simp only [hiff.mpr hnew,hnew,and_true,if_true]
    split_ifs <;> omega
  · rw [if_neg hnew,if_neg fun h => hnew (hiff.mp h.2),add_zero,max_eq_left hpos]

variable {start : List LoyaltyRow}

/-- A reconciliation raises a sum to the share it asks for under a new key. -/
theorem Converged.reconcile (hc : Converged o start h rows) (i : Input) :
    Converged o start (h++[perform (step w) rows (.reconcile i)])
      (reconcileOrderLoyalty w rows i).2 := by
  have hred : total LoyaltyRow.redeemed o (reconcileOrderLoyalty w rows i).2=_ :=
    total_reconcile _ i 0 0 (fun _ => rfl) fun _ _ => rfl
  have hear : total LoyaltyRow.earned o (reconcileOrderLoyalty w rows i).2=_ :=
    total_reconcile _ i 0 0 (fun _ => rfl) fun _ _ => rfl
  have hres : total LoyaltyRow.restored o (reconcileOrderLoyalty w rows i).2=_ :=
    total_reconcile _ i (restoreDelta rows i) 0 (fun _ => rfl) fun _ _ => rfl
  have hrev : total LoyaltyRow.earnReversed o (reconcileOrderLoyalty w rows i).2=_ :=
    total_reconcile _ i 0 (earnDelta rows i) (fun _ => rfl) fun _ _ => by
      simp [LoyaltyRow.earnReversed,reversalRow]
  have heq : earnedTotal o rows=earnedTotal o start := by rw [earnedTotal,earnedTotal,hc.earned]
  simp only [ite_self,add_zero] at hred hear hres hrev
  refine ⟨hred.trans hc.redeemed,hear.trans hc.earned,?_,?_⟩
  · rw [largest_append,← hc.restored,hres]
    refine add_capped (hc.restored ▸ asked_le_largest.1) and_comm ?_
    rintro ⟨rfl,-⟩
    rw [restoreDelta,hc.redeemed]
  · rw [largest_append,← hc.reversed,hrev]
    refine add_capped (hc.reversed ▸ asked_le_largest.1) and_comm ?_
    rintro ⟨rfl,-⟩
    rw [earnDelta,heq]

/-- Other postings leave the sums of the order. -/
theorem Converged.post
    (hc : Converged o start h rows) (hfor : Foreign o (.post row)) :
    Converged o start (h++[perform (step w) rows (.post row)]) (insertRow rows row) := by
  have hz := hfor row rfl
  have hask : ∀ points key, asked o points key (perform (step w) rows (.post row))=0 :=
    fun _ _ => rfl
  refine ⟨(total_insertRow_zero fun h => (hz h).1).trans hc.redeemed,
    (total_insertRow_zero fun h => (hz h).2.2.1).trans hc.earned,?_,?_⟩
  · rw [largest_append,hask,max_eq_left asked_le_largest.1,← hc.restored]
    exact total_insertRow_zero fun h => (hz h).2.1
  · rw [largest_append,hask,max_eq_left asked_le_largest.1,← hc.reversed]
    exact total_insertRow_zero fun h => (hz h).2.2.2

/-- A measure that is nothing on every row of the order sums to nothing. -/
theorem total_eq_zero (h : ∀ r∈rows, r.orderId=some o→f r=0) :
    total f o rows=0 := by
  refine sum_eq_zero fun x hx => ?_
  obtain ⟨r,hr,rfl⟩ := mem_map.mp hx
  obtain ⟨hmem,hord⟩ := mem_filter.mp hr
  exact h r hmem (of_decide_eq_true hord)

/-- Loyalty refunds converge: what an order gave back and took back is the largest share
asked for under a new key, it stays within what the order redeemed and earned, and all the
money makes it exact. -/
theorem loyalty_converges (w : World) (o : String) (start : List LoyaltyRow)
    (hopening : Opening o start) (h : List (Event (List LoyaltyRow) Action Posted))
    (rows : List LoyaltyRow) (hrun : Run (step w) (fun _ _ a => Foreign o a) start h rows) :
    let redeemed := total LoyaltyRow.redeemed o start
    let earned := earnedTotal o start
    total LoyaltyRow.redeemed o rows=redeemed∧earnedTotal o rows=earned ∧
      total LoyaltyRow.restored o rows=largest o redeemed .restore h ∧
      total LoyaltyRow.restored o rows≤redeemed ∧
      total LoyaltyRow.earnReversed o rows=largest o earned .earn h ∧
      total LoyaltyRow.earnReversed o rows≤earned ∧
      ∀ e∈h, ∀ i, e.action=.reconcile i→i.orderId=o→0 < i.den→i.den ≤ i.num →
        (fresh e.before (.restore i.sourceRef)=true→total LoyaltyRow.restored o rows=redeemed) ∧
        (fresh e.before (.earn i.sourceRef)=true →
          total LoyaltyRow.earnReversed o rows=earned) := by
  intro redeemed earned
  have hcon : Converged o start h rows := by
    refine hrun.invariant (P := (Converged o start)) ?_ fun h rows a hc ha => ?_
    · refine ⟨rfl,rfl,total_eq_zero fun r hr hord => ?_,total_eq_zero fun r hr hord => ?_⟩
      · exact if_neg fun hkd => (hopening r hr hord).1 hkd.1
      · exact if_neg fun hkd => (hopening r hr hord).1 hkd.1
    · cases a with
      | reconcile i => exact hc.reconcile i
      | post => exact hc.post ha
  have hred : 0≤redeemed := by
    refine sum_nonneg fun x hx => ?_
    obtain ⟨r,hr,rfl⟩ := mem_map.mp hx
    obtain ⟨hmem,hord⟩ := mem_filter.mp hr
    unfold LoyaltyRow.redeemed
    split_ifs with hkd
    · have hle := (hopening r hmem (of_decide_eq_true hord)).2 hkd
      omega
    · exact le_rfl
  have hear : 0≤earned := le_max_left _ _
  have heq : earnedTotal o rows=earned := by
    rw [earnedTotal,hcon.earned]
    rfl
  have hexa : ∀ (points : ℤ) (key : String → SourceRef), 0≤points→∀ e∈h, ∀ i,
      e.action=.reconcile i→i.orderId=o→0 < i.den→i.den ≤ i.num →
      fresh e.before (key i.sourceRef)=true→largest o points key h=points := by
    intro points key hpoi e he i hact hord hden hall hfre
    refine le_antisymm (largest_le hpoi _ _) ?_
    have hask : asked o points key e=points := by
      rw [asked,hact]
      exact (if_pos ⟨hord,hfre⟩).trans (proportionalTarget_all hpoi hden hall)
    exact hask.symm.le.trans (asked_le_largest.2 e he)
  refine ⟨hcon.redeemed,heq,hcon.restored,
    hcon.restored.trans_le (largest_le hred _ _),hcon.reversed,
    hcon.reversed.trans_le (largest_le hear _ _),fun e he i hact hord hden hall =>
    ⟨fun hfre => ?_,fun hfre => ?_⟩⟩
  · exact hcon.restored.trans (hexa _ _ hred e he i hact hord hden hall hfre)
  · exact hcon.reversed.trans (hexa _ _ hear e he i hact hord hden hall hfre)

/-- A store without expiry whose customer can spend five points. -/
def modest : World := ⟨fun _ _ _ => ⟨0,5⟩,none⟩

/-- Order on which a hundred points were redeemed and forty earned. -/
def booked : List LoyaltyRow :=
  [{ customerId := "c", orderId := some "o", kind := .redeem, points := -100
     reason := "checkout_redemption", sourceRef := .other "redeem:o", createdAt := 0},
    { customerId := "c", orderId := some "o", kind := .earn, points := 40, reason := "order_paid"
      sourceRef := .other "earn:o", createdAt := 1}]

/-- Two refunds, one of them delivered twice, a grant, and the cancellation. -/
def refunds : List Action :=
  [.reconcile ⟨"o",1,3, "refund:r1",none,2⟩,.reconcile ⟨"o",2,3, "refund:r1",none,3⟩,
    .post { customerId := "c", orderId := none, kind := .adjust, points := 7, reason := "grant"
            sourceRef := .other "grant:1", createdAt := 4},
    .reconcile ⟨"o",1,2, "refund:r2",none,5⟩,.reconcile ⟨"o",1,1, "cancel:o",none,6⟩]

/-- The refunds give back and take back everything in the end. -/
theorem loyalty_converges_cancelled : Opening "o" booked ∧
    total LoyaltyRow.restored "o" (play (step modest) [] booked refunds).2=100 ∧
    total LoyaltyRow.earnReversed "o" (play (step modest) [] booked refunds).2≤40 := by
  have hope : Opening "o" booked := by
    intro r hr _
    fin_cases hr <;> decide
  have hrun : Run (step modest) (fun _ _ a => Foreign "o" a) booked
      (play (step modest) [] booked refunds).1 (play (step modest) [] booked refunds).2 := by
    refine .play Run.nil refunds ⟨?_,?_,?_,?_,?_,trivial⟩
    · exact fun _ h => nomatch h
    · exact fun _ h => nomatch h
    · exact fun row h hord => by cases h; cases hord
    · exact fun _ h => nomatch h
    · exact fun _ h => nomatch h
  exact ⟨hope,by decide +kernel,
    (loyalty_converges modest "o" booked hope _ _ hrun).2.2.2.2.2.1⟩

end SellRight.LoyaltyConvergence
