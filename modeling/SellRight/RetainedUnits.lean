import SellRight.FallibleSteps

/-!
# Unit positions an edit retains

An edited line keeps some of its units. The units a refund consumed stay, the earliest
positions fill what fulfilment has locked, and the earliest positions fill the new quantity.
A number that is not an integer fails the same check as an integer that is not safe.
-/

namespace SellRight.RetainedUnits

open List

/-- Quantities of an edited line and its consumed units. -/
structure UnitEdit where
  (currentQuantity quantity lockedQuantity : ℤ)
  consumedPositions : List ℤ

/-- Add a position to a set of positions in the order of their insertion. -/
def add (retained : List ℤ) (position : ℤ) : List ℤ :=
  if position∈retained then retained else retained++[position]

/-- Add positions in turn while the set is smaller than a limit. -/
def addWhile (limit : ℤ) : List ℤ → List ℤ → List ℤ
  | [],retained => retained
  | position::rest,retained =>
    if retained.length<limit then addWhile limit rest (add retained position) else retained

def isSafeInteger (n : ℤ) : Bool := decide (|n|≤9007199254740991)

def requireFact (ok : Bool) (message : String) : Except String Unit :=
  if ok then .ok () else .error ("Invalid order edit stage: " ++ message)

/-- Positions from zero on that are below a number. -/
def positionsBelow (n : ℤ) : List ℤ := (range n.toNat).map Nat.cast

def quantitiesFit (e : UnitEdit) : Bool :=
  ([e.currentQuantity,e.quantity,e.lockedQuantity].all fun n => isSafeInteger n&&decide (0≤n)) &&
    decide (e.lockedQuantity≤e.currentQuantity)&&decide (e.lockedQuantity≤e.quantity)

def custodyFits (e : UnitEdit) : Bool :=
  decide (e.consumedPositions.dedup.length=e.consumedPositions.length) &&
    (e.consumedPositions.all fun position =>
      isSafeInteger position&&decide (0≤position)&&decide (position<e.currentQuantity)) &&
    decide (e.consumedPositions.dedup.length≤e.lockedQuantity)

/-- Positions of the units that an edited line keeps. -/
def retainedEditUnitPositions (e : UnitEdit) : Except String (List ℤ) := do
  requireFact (quantitiesFit e) "unit quantity/locked capacity"
  requireFact (custodyFits e) "consumed unit custody"
  let consumed := e.consumedPositions.dedup
  let locked := addWhile e.lockedQuantity (positionsBelow e.currentQuantity) consumed
  let retained := addWhile e.quantity (positionsBelow e.currentQuantity) locked
  requireFact (decide (retained.length≤e.quantity)) "consumed unit quantity"
  return retained.insertionSort (·≤·)

section
variable {limit more : ℤ} {positions retained : List ℤ}

theorem addWhile_room (h : retained.length<limit) (position : ℤ) (rest : List ℤ) :
    addWhile limit (position::rest) retained=addWhile limit rest (add retained position) :=
  if_pos h

theorem addWhile_full (h : limit≤retained.length) (positions : List ℤ) :
    addWhile limit positions retained=retained := by
  cases positions with
  | nil => rfl
  | cons => exact if_neg (not_lt.mpr h)

/-- The first missing positions are appended. -/
theorem addWhile_eq (hnod : positions.Nodup) (retained : List ℤ) :
    addWhile limit positions retained=retained ++
      (positions.filter fun p => decide (p∉retained)).take (limit-retained.length).toNat := by
  induction positions generalizing retained with
  | nil => simp [addWhile]
  | cons position rest ih =>
    obtain ⟨hnot,hrt⟩ := nodup_cons.mp hnod
    rcases lt_or_ge (retained.length : ℤ) limit with hroom|hfull
    · rw [addWhile_room hroom,ih hrt,add]
      by_cases hmem : position∈retained
      · simp [hmem]
      · have hrem : (limit-retained.length).toNat=(limit-(retained++[position]).length).toNat+1 := by
          rw [length_append,length_singleton]
          omega
        have hsame : (rest.filter fun p => decide (p∉retained++[position]))=
            rest.filter fun p => decide (p∉retained) := filter_congr fun p hp => by
          have hne : p≠position := fun h => hnot (h ▸ hp)
          simp [hne]
        rw [if_neg hmem,hsame,hrem,filter_cons,if_pos (decide_eq_true hmem),take_succ_cons,
          append_assoc,singleton_append]
    · rw [addWhile_full hfull,Int.toNat_of_nonpos (by omega),take_zero,append_nil]

/-- Filling up to one limit and then to a larger one is filling up to the larger one. -/
theorem addWhile_addWhile (hle : limit ≤ more) (hnod : positions.Nodup) (retained : List ℤ) :
    addWhile more positions (addWhile limit positions retained) =
      addWhile more positions retained := by
  induction positions generalizing retained with
  | nil => rfl
  | cons position rest ih =>
    obtain ⟨-,hrt⟩ := nodup_cons.mp hnod
    rcases lt_or_ge (retained.length : ℤ) limit with hroom|hfull
    · have hmem : position∈addWhile limit rest (add retained position) := by
        rw [addWhile_eq hrt,add]
        refine mem_append_left _ ?_
        split <;> simp_all
      rw [addWhile_room hroom,addWhile_room (hroom.trans_le hle),← ih hrt]
      rcases lt_or_ge ((addWhile limit rest (add retained position)).length : ℤ) more with h|h
      · rw [addWhile_room h,add,if_pos hmem]
      · rw [addWhile_full h,addWhile_full h]
    · rw [addWhile_full hfull]

end

variable {e : UnitEdit} {result : List ℤ}

/-- Quantities and consumed positions that fit together. -/
structure Accepted (e : UnitEdit) : Prop where
  safe : ∀ n∈[e.currentQuantity,e.quantity,e.lockedQuantity],isSafeInteger n=true
  capacity : e.lockedQuantity≤e.currentQuantity
  locked : e.lockedQuantity≤e.quantity
  distinct : e.consumedPositions.Nodup
  inRange : ∀ position∈e.consumedPositions, 0≤position∧position<e.currentQuantity
  custody : e.consumedPositions.length≤e.lockedQuantity

/-- Positions in order with all consumed ones, of the others the earliest. -/
structure Retained (e : UnitEdit) (result : List ℤ) : Prop where
  increasing : result.Pairwise (·<·)
  below : ∀ position∈result, 0≤position∧position<e.currentQuantity
  consumed : e.consumedPositions⊆result
  length : result.length=min e.currentQuantity e.quantity
  earliest : ∀ position, 0≤position → position<e.currentQuantity →
    position∉e.consumedPositions → ∀ later∈result, later∉e.consumedPositions →
    position<later → position∈result

theorem mem_positionsBelow {n position : ℤ} :
    position∈positionsBelow n ↔ 0≤position∧position<n := by
  unfold positionsBelow
  rw [mem_map]
  constructor
  · rintro ⟨k,hk,rfl⟩
    have hlt := mem_range.mp hk
    exact ⟨Int.natCast_nonneg k,by omega⟩
  · rintro ⟨hpos,hlt⟩
    exact ⟨position.toNat,mem_range.mpr (by omega),Int.toNat_of_nonneg hpos⟩

theorem positionsBelow_increasing (n : ℤ) : (positionsBelow n).Pairwise (·<·) :=
  pairwise_map.mpr (pairwise_lt_range.imp fun h => Int.ofNat_lt.mpr h)

/-- Positions that no refund consumed. -/
def free (e : UnitEdit) : List ℤ :=
  (positionsBelow e.currentQuantity).filter fun p => decide (p∉e.consumedPositions)

/-- What is kept before it is sorted. -/
def kept (e : UnitEdit) : List ℤ := e.consumedPositions ++
    (free e).take (e.quantity-e.consumedPositions.length).toNat

theorem mem_free {p : ℤ} :
    p∈free e ↔ (0≤p∧p<e.currentQuantity)∧p∉e.consumedPositions := by
  rw [free,mem_filter,decide_eq_true_iff,mem_positionsBelow]

theorem free_increasing (e : UnitEdit) : (free e).Pairwise (·<·) :=
  (positionsBelow_increasing _).filter _

/-- No position is kept twice. -/
theorem Accepted.nodup (h : Accepted e) (n : ℕ) :
    (e.consumedPositions++(free e).take n).Nodup := by
  refine h.distinct.append (((free_increasing e).imp ne_of_lt).sublist (take_sublist _ _)) ?_
  exact fun p hp htak => (mem_free.mp (mem_of_mem_take htak)).2 hp

/-- Consumed and free positions together are all of them. -/
theorem Accepted.length_kept (h : Accepted e) :
    (kept e).length=min e.currentQuantity e.quantity := by
  have hbel := (positionsBelow_increasing e.currentQuantity).imp ne_of_lt
  have hall : (e.consumedPositions++free e).Perm (positionsBelow e.currentQuantity) := by
    have hnod := h.nodup (free e).length
    rw [take_length] at hnod
    refine (perm_ext_iff_of_nodup hnod hbel).mpr fun p => ?_
    rw [mem_append,mem_free,mem_positionsBelow]
    by_cases hp : p∈e.consumedPositions
    · simpa [hp] using h.inRange p hp
    · simp [hp]
  have hlen := hall.length_eq
  have hcap := h.custody.trans h.capacity
  have hloc := h.custody.trans h.locked
  rw [length_append,positionsBelow,length_map,length_range] at hlen
  rw [kept,length_append,length_take]
  omega

theorem fits_iff : quantitiesFit e=true∧custodyFits e=true ↔ Accepted e := by
  have hded : e.consumedPositions.dedup.length=e.consumedPositions.length ↔
      e.consumedPositions.Nodup := by
    rw [← dedup_eq_self]
    exact ⟨(dedup_sublist _).eq_of_length,congrArg length⟩
  simp only [quantitiesFit,custodyFits,Bool.and_eq_true,all_eq_true,decide_eq_true_iff,hded]
  constructor
  · rintro ⟨⟨⟨hcount,hcap⟩,hloc⟩,⟨hnod,hran⟩,hcus⟩
    rw [hnod.dedup] at hcus
    exact ⟨fun n hn => (hcount n hn).1,hcap,hloc,hnod,fun p hp => ⟨(hran p hp).1.2,(hran p hp).2⟩,hcus⟩
  · intro h
    have hzero := (Int.natCast_nonneg _).trans h.custody
    have hmax := h.safe e.currentQuantity mem_cons_self
    refine ⟨⟨⟨fun n hn => ⟨h.safe n hn,?_⟩,h.capacity⟩,h.locked⟩,⟨h.distinct,fun p hp => ?_⟩,?_⟩
    · have hcap := h.capacity
      have hloc := h.locked
      simp only [mem_cons,not_mem_nil,or_false] at hn
      omega
    · obtain ⟨hpos,hlt⟩ := h.inRange p hp
      refine ⟨⟨decide_eq_true ?_,hpos⟩,hlt⟩
      have hbound := (le_abs_self _).trans (of_decide_eq_true hmax)
      rw [abs_of_nonneg hpos]
      omega
    · rw [h.distinct.dedup]
      exact h.custody

/-- Everything that passes the checks is answered. -/
theorem Accepted.returns (h : Accepted e) :
    retainedEditUnitPositions e=.ok ((kept e).insertionSort (·≤·)) := by
  obtain ⟨hqty,hcus⟩ := fits_iff.mpr h
  have hnod := (positionsBelow_increasing e.currentQuantity).imp ne_of_lt
  have hsize : (kept e).length≤e.quantity := h.length_kept.trans_le (min_le_right _ _)
  unfold retainedEditUnitPositions
  dsimp only
  rw [hqty,hcus,h.distinct.dedup,addWhile_addWhile h.locked hnod,addWhile_eq hnod,← free,← kept,
    decide_eq_true hsize]
  rfl

/-- What does not pass the checks fails. -/
theorem refused (h : ¬ Accepted e) : ∃ message, retainedEditUnitPositions e=.error message := by
  unfold retainedEditUnitPositions
  cases hqty : quantitiesFit e with
  | false => exact ⟨_,rfl⟩
  | true =>
    cases hcus : custodyFits e with
    | false => exact ⟨_,rfl⟩
    | true => exact (h (fits_iff.mp ⟨hqty,hcus⟩)).elim

theorem Accepted.retained (h : Accepted e) : Retained e ((kept e).insertionSort (·≤·)) := by
  have hmem : ∀ p, p∈(kept e).insertionSort (·≤·) ↔ p∈kept e := fun p => mem_insertionSort _
  constructor
  · have hnod := (perm_insertionSort (·≤·) (kept e)).nodup_iff.mpr (h.nodup _)
    exact ((pairwise_insertionSort (·≤·) _).and hnod).imp fun hle => hle.1.lt_of_ne hle.2
  · intro p hp
    rcases mem_append.mp ((hmem p).mp hp) with hcon|htak
    · exact h.inRange p hcon
    · exact (mem_free.mp (mem_of_mem_take htak)).1
  · exact fun p hp => (hmem p).mpr (mem_append_left _ hp)
  · rw [length_insertionSort]
    exact h.length_kept
  · intro p hp hlt hnot later hlat hfr hord
    have htak := (mem_append.mp ((hmem later).mp hlat)).resolve_left hfr
    have hsplit := free_increasing e
    have hfree := mem_free.mpr ⟨⟨hp,hlt⟩,hnot⟩
    rw [← take_append_drop _ (free e),pairwise_append] at hsplit
    rw [← take_append_drop _ (free e),mem_append] at hfree
    refine (hmem p).mpr (mem_append_right _ (hfree.resolve_right fun hdro => ?_))
    exact (hsplit.2.2 later htak p hdro).not_gt hord

/-- An edit of a line retains the consumed units and the earliest others. It fails exactly on
quantities that are not safe or do not fit, and on consumed positions that are repeated, out
of range or more than locked. -/
theorem retained_positions (e : UnitEdit) :
    (∀ result, retainedEditUnitPositions e=.ok result → Retained e result) ∧
      ((∃ message, retainedEditUnitPositions e=.error message) ↔ ¬ Accepted e) := by
  by_cases hacc : Accepted e
  · rw [hacc.returns]
    refine ⟨?_,by simp [hacc]⟩
    rintro result ⟨⟩
    exact hacc.retained
  · obtain ⟨message,hres⟩ := refused hacc
    rw [hres]
    exact ⟨nofun,fun _ => hacc,fun _ => ⟨message,rfl⟩⟩

/-- A line with units one and three consumed keeps these and the first one. -/
theorem retained_positions_consumed : retainedEditUnitPositions ⟨5,3,2,[3,1]⟩=.ok [0,1,3] ∧
    Retained ⟨5,3,2,[3,1]⟩ [0,1,3] := by
  have hres : retainedEditUnitPositions ⟨5,3,2,[3,1]⟩=.ok [0,1,3] := by decide
  exact ⟨hres,(retained_positions _).1 _ hres⟩

/-- A quantity that is not safe is refused although no limit is broken. -/
theorem retained_positions_unsafe :
    retainedEditUnitPositions ⟨9007199254740992,0,0,[]⟩ =
        .error "Invalid order edit stage: unit quantity/locked capacity" ∧
      (0 : ℤ)≤9007199254740992∧([] : List ℤ).Nodup∧([] : List ℤ).length≤(0 : ℤ) := by
  decide

end SellRight.RetainedUnits
