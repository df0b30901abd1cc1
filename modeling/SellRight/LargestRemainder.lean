import Mathlib.Algebra.Order.Floor.Ring
import Mathlib.Data.List.GetD
import Mathlib.Data.List.Sort
import Mathlib.Tactic

/-!
# Largest remainders

Integer shares of a list of exact amounts: every amount is rounded down, and what is
missing to their sum is given one by one to the amounts with the largest fractional
part. No share is further from its amount than the next integer.
-/

namespace SellRight.LargestRemainder

open List

variable {K : Type*} [Ring K] [LinearOrder K] [FloorRing K]
variable (raw : List K)

/-- Fractional part of an amount, by its index. -/
def fraction (i : ℕ) : K := Int.fract (raw.getD i 0)

/-- Indices by fractional part, the largest first and the earlier one on a tie. -/
def largestFirst : List ℕ := (List.range raw.length).insertionSort fun i j =>
    fraction raw j<fraction raw i∨(fraction raw j=fraction raw i∧i≤j)

/-- Add one to a share. -/
def addOne (shares : List ℤ) (i : ℕ) : List ℤ := shares.set i (shares.getD i 0+1)

/-- Give what is missing in order, one each; the rest that is still missing remains. -/
def award : List ℕ → K → List ℤ → List ℤ×K
  | [],missing,shares => (shares,missing)
  | i::order, missing, shares =>
    if 0 < missing then award order (missing-1) (addOne shares i) else (shares,missing)

/-- Amounts rounded down. -/
def floors : List ℤ := raw.map Int.floor

theorem length_addOne (shares : List ℤ) (i : ℕ) : (addOne shares i).length=shares.length :=
  length_set

/-- One share grows by one. -/
theorem sum_addOne {shares : List ℤ} {i : ℕ} (hi : i<shares.length) :
    (addOne shares i).sum=shares.sum+1 := by
  rw [addOne,sum_set',dif_pos hi,getD_eq_getElem _ _ hi]
  omega

/-- The other shares stay. -/
theorem getD_addOne {shares : List ℤ} {i : ℕ} (hi : i<shares.length) (j : ℕ) :
    (addOne shares i).getD j 0=shares.getD j 0+if j=i then 1 else 0 := by
  by_cases hj : j=i
  · subst hj
    rw [if_pos rfl,addOne,getD_eq_getElem _ _ (by rwa [length_set]),getElem_set_self]
  · rw [if_neg hj,addOne,add_zero,getD_eq_getElem?_getD,List.getElem?_set_ne (Ne.symm hj),
      ← getD_eq_getElem?_getD]

/-- What a distribution leaves: the shares cover what was missing, and no share gains
more than one nor anything without a fraction. -/
structure Awarded (order : List ℕ) (raw : List K) (missing : K) (shares : List ℤ)
    (result : List ℤ×K) : Prop where
  length : result.1.length=shares.length
  covered : (result.1.sum : K)+result.2=shares.sum+missing
  done : result.2≤0
  above : -1<result.2
  atLeast : ∀ j, shares.getD j 0≤result.1.getD j 0
  atMost : ∀ j, result.1.getD j 0 ≤ shares.getD j 0+if j∈order∧0<fraction raw j then 1 else 0

variable [IsStrictOrderedRing K]

/-- As long as something is missing the largest fraction is positive. -/
theorem award_spec {order : List ℕ} (hnod : order.Nodup)
    (hsor : order.Pairwise fun i j => fraction raw j≤fraction raw i) (missing : K)
    (shares : List ℤ) (hind : ∀ i∈order, i<shares.length)
    (hmis : missing≤(order.map (fraction raw)).sum) (habo : -1 < missing) :
    Awarded order raw missing shares (award order missing shares) := by
  induction order generalizing missing shares with
  | nil =>
    refine ⟨rfl,rfl,hmis,habo,fun _ => le_rfl,fun j => ?_⟩
    simp [award]
  | cons i order ih =>
    by_cases hpos : 0 < missing
    · obtain ⟨hnot,hnod⟩ := nodup_cons.mp hnod
      obtain ⟨hlar,hsor⟩ := pairwise_cons.mp hsor
      have hi : i<shares.length := hind i mem_cons_self
      have hfra : 0<fraction raw i := by
        by_contra hz
        have hrt : (order.map (fraction raw)).sum≤0 := by
          have hcar := sum_le_card_nsmul (order.map (fraction raw)) 0 fun x hx => by
            obtain ⟨j,hj,rfl⟩ := mem_map.mp hx
            exact (hlar j hj).trans (not_lt.mp hz)
          rwa [nsmul_zero] at hcar
        have hsum := hmis.trans (add_le_add (not_lt.mp hz) hrt)
        rw [add_zero] at hsum
        exact absurd hpos (not_lt.mpr hsum)
      have hles : missing-1≤(order.map (fraction raw)).sum := by
        have hone : fraction raw i≤1 := (Int.fract_lt_one _).le
        calc missing-1≤fraction raw i+(order.map (fraction raw)).sum-1 :=
              sub_le_sub_right hmis 1
          _≤1+(order.map (fraction raw)).sum-1 := sub_le_sub_right (add_le_add_left hone _) 1
          _=(order.map (fraction raw)).sum := by rw [add_sub_cancel_left]
      have hrt := ih hnod hsor (missing-1) (addOne shares i)
        (fun j hj => by rw [length_addOne]; exact hind j (mem_cons_of_mem _ hj)) hles
        (by rw [lt_sub_iff_add_lt]; simpa using hpos)
      rw [award,if_pos hpos]
      refine ⟨hrt.length.trans (length_addOne _ _),?_,hrt.done,hrt.above,fun j => ?_,fun j => ?_⟩
      · rw [hrt.covered,sum_addOne hi]
        push_cast
        abel
      · have hgro := hrt.atLeast j
        rw [getD_addOne hi] at hgro
        split_ifs at hgro <;> omega
      · have hgro := hrt.atMost j
        rw [getD_addOne hi] at hgro
        by_cases hj : j=i
        · subst hj
          rw [if_pos rfl,if_neg fun h => hnot h.1,add_zero] at hgro
          rwa [if_pos ⟨mem_cons_self,hfra⟩]
        · simpa [hj] using hgro
    · rw [award,if_neg hpos]
      refine ⟨rfl,rfl,not_lt.mp hpos,habo,fun _ => le_rfl,fun j => ?_⟩
      exact le_add_of_nonneg_right (by split_ifs <;> decide)

omit [IsStrictOrderedRing K] in
/-- Indices are ordered by their fraction. -/
theorem largestFirst_sorted :
    (largestFirst raw).Pairwise fun i j => fraction raw j≤fraction raw i := by
  have htot : Std.Total fun i j : ℕ =>
      fraction raw j<fraction raw i∨(fraction raw j=fraction raw i∧i≤j) := ⟨fun i j => by
    rcases lt_trichotomy (fraction raw i) (fraction raw j) with h|h|h
    · exact .inr (.inl h)
    · rcases Nat.le_total i j with hij|hij
      · exact .inl (.inr ⟨h.symm,hij⟩)
      · exact .inr (.inr ⟨h,hij⟩)
    · exact .inl (.inl h)⟩
  have htra : IsTrans ℕ fun i j : ℕ =>
      fraction raw j<fraction raw i∨(fraction raw j=fraction raw i∧i≤j) := ⟨by
    rintro i j k (hij|⟨hij,hle⟩) (hjk|⟨hjk,hle'⟩)
    · exact .inl (hjk.trans hij)
    · exact .inl (hjk ▸ hij)
    · exact .inl (hij ▸ hjk)
    · exact .inr ⟨hjk.trans hij,hle.trans hle'⟩⟩
  refine (pairwise_insertionSort _ _).imp fun {i j} h => ?_
  rcases h with h|h
  · exact h.le
  · exact h.1.le

omit [IsStrictOrderedRing K] in
/-- Every index occurs once. -/
theorem largestFirst_perm : (largestFirst raw).Perm (List.range raw.length) :=
  perm_insertionSort _ _

omit [LinearOrder K] [FloorRing K] [IsStrictOrderedRing K] in
/-- The entries of a list by their indices. -/
theorem map_getD_range {α β : Type*} (f : α → β) (xs : List α) (a : α) :
    (List.range xs.length).map (fun i => f (xs.getD i a))=xs.map f := by
  refine ext_getElem (by simp) fun i hi _ => ?_
  rw [length_map,length_range] at hi
  rw [getElem_map,getElem_map,getElem_range,getD_eq_getElem _ _ hi]

omit [IsStrictOrderedRing K] in
/-- Amounts are their floors and their fractions. -/
theorem sum_floors_add :
    ((floors raw).sum : K)+((largestFirst raw).map (fraction raw)).sum=raw.sum := by
  rw [((largestFirst_perm raw).map _).sum_eq]
  have hfra := map_getD_range Int.fract raw 0
  rw [show (List.range raw.length).map (fraction raw)=raw.map Int.fract from hfra,floors]
  induction raw with
  | nil => simp
  | cons x _ ih =>
    simp only [map_cons,sum_cons,Int.cast_add]
    rw [← ih (map_getD_range _ _ _)]
    conv_rhs => rw [← Int.floor_add_fract x]
    abel

/-- Shares of the amounts and what is left of a total. -/
def shares (total : K) : List ℤ×K :=
  award (largestFirst raw) (total-(floors raw).sum) (floors raw)

/-- Rounding down never exceeds the total. -/
theorem missing_nonneg : 0≤raw.sum-(floors raw).sum := by
  rw [← sum_floors_add raw,add_sub_cancel_left]
  refine sum_nonneg fun x hx => ?_
  obtain ⟨j,-,rfl⟩ := mem_map.mp hx
  exact Int.fract_nonneg _

/-- Shares of the sum of the amounts distribute what rounding down left. -/
theorem shares_awarded : Awarded (largestFirst raw) raw
    (raw.sum-(floors raw).sum) (floors raw) (shares raw raw.sum) := by
  refine award_spec raw ((largestFirst_perm raw).nodup_iff.mpr nodup_range)
    (largestFirst_sorted raw) _ _ (fun i hi => ?_) ?_ (neg_one_lt_zero.trans_le (missing_nonneg raw))
  · rw [floors,length_map]
    exact mem_range.mp ((largestFirst_perm raw).mem_iff.mp hi)
  · rw [← sum_floors_add raw,add_sub_cancel_left]

/-- Shares of a total that is the sum of the amounts. -/
theorem shares_spec {total : K} (htot : raw.sum=total) :
    (shares raw total).1.length=raw.length∧(shares raw total).1.sum = ⌈total⌉ ∧
      ∀ i, ⌊raw.getD i 0⌋ ≤ (shares raw total).1.getD i 0 ∧
        (shares raw total).1.getD i 0 ≤ ⌈raw.getD i 0⌉ := by
  subst htot
  have hspe := shares_awarded raw
  have hget : ∀ i, (floors raw).getD i 0 = ⌊raw.getD i 0⌋ := by
    intro i
    have hmap := getD_map (l := raw) (n := i) (d := (0 : K)) Int.floor
    rwa [Int.floor_zero] at hmap
  refine ⟨hspe.length.trans (length_map _),?_,fun i => ⟨?_,?_⟩⟩
  · have hcov := hspe.covered
    rw [add_sub_cancel] at hcov
    refine (Int.ceil_eq_iff.mpr ⟨?_,?_⟩).symm
    · calc ((shares raw raw.sum).1.sum : K)-1=(shares raw raw.sum).1.sum + -1 := sub_eq_add_neg _ _
        _<(shares raw raw.sum).1.sum+(shares raw raw.sum).2 := add_lt_add_of_le_of_lt le_rfl hspe.above
        _=raw.sum := hcov
    · exact hcov.symm.le.trans (add_le_of_nonpos_right hspe.done)
  · rw [← hget]
    exact hspe.atLeast i
  · refine (hspe.atMost i).trans ?_
    rw [hget]
    by_cases hfra : 0<fraction raw i
    · have hlt : (⌊raw.getD i 0⌋ : K) < ⌈raw.getD i 0⌉ := by
        have hflo := Int.floor_add_fract (raw.getD i 0)
        calc (⌊raw.getD i 0⌋ : K) < ⌊raw.getD i 0⌋ + Int.fract (raw.getD i 0) :=
              lt_add_of_pos_right _ hfra
          _=raw.getD i 0 := hflo
          _ ≤ ⌈raw.getD i 0⌉ := Int.le_ceil _
      have hint : ⌊raw.getD i 0⌋ < ⌈raw.getD i 0⌉ := by exact_mod_cast hlt
      split_ifs <;> omega
    · rw [if_neg fun h => hfra h.2,add_zero]
      exact Int.floor_le_ceil _

end SellRight.LargestRemainder
