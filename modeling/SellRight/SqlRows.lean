import Mathlib.Data.List.Sort
import Mathlib.Data.List.Dedup
import Mathlib.Data.List.ReduceOption
import Mathlib.Algebra.BigOperators.Group.List.Basic
import SellRight.RowTable

/-!
# Rows, groups and nulls of queries

Tables are lists of rows. A comparison with a missing value is neither true
nor false and selects nothing, and an aggregate over no value is missing. A
left join keeps a row without a match. A table grouped by a key and joined
back to a row of that key gives the aggregate over the rows of the key, or a
missing value when there are none.
-/

namespace SellRight.SqlRows

open RowTable List

variable {α β κ ρ τ : Type}

/-- A condition selects a row when it is true, not when it is missing. -/
def holds (truth : Option Bool) : Bool := truth == some true

/-- Equality, missing when a side is. -/
def sqlEq [DecidableEq α] (a b : Option α) : Option Bool :=
  match a, b with
  | some a, some b => some (decide (a=b))
  | _, _ => none

/-- Sum of the values that are there, missing when there are none. -/
def sqlSum (values : List (Option ℤ)) : Option ℤ :=
  match values.reduceOption with
  | [] => none
  | known => some known.sum

/-- Some value that is there is true, missing when there are none. -/
def boolOr (values : List (Option Bool)) : Option Bool :=
  match values.reduceOption with
  | [] => none
  | known => some (known.any id)

variable (parts : List (Option Bool))

/-- Conjunction: false when a part is, else missing when a part is. -/
def sqlAnd : Option Bool :=
  if some false∈parts then some false else if none∈parts then none else some true

/-- Disjunction: true when a part is, else missing when a part is. -/
def sqlOr : Option Bool :=
  if some true∈parts then some true else if none∈parts then none else some false

/-- A pattern matches a text: a percent sign stands for any text, an
underscore for any character, a backslash for the character after it. -/
def like : List Char → List Char → Bool
  | [],text => text.isEmpty
  | '%'::pattern, text => text.tails.any (like pattern)
  | '_'::pattern, _::text => like pattern text
  | '\\'::c::pattern, x::text => decide (x=c)&&like pattern text
  | c::pattern, x::text => decide (x=c)&&like pattern text
  | _::_, [] => false

/-- Rows with the latest first. -/
def orderByDesc (key : ρ → ℤ) (rows : List ρ) : List ρ := rows.insertionSort fun a b => key b≤key a

/-- Rows of each key that occurs. -/
def groupBy [DecidableEq κ] (key : ρ → κ) (rows : List ρ) : List (κ×List ρ) :=
  (rows.map key).dedup.map fun k => (k,rows.filter fun row => decide (key row=k))

section
variable (on : ρ → τ → Option Bool) (left : List ρ) (right : List τ)

/-- Each row of the left table with its matches, or once without one. -/
def leftJoin : List (ρ×Option τ) :=
  left.flatMap fun row =>
    match right.filter fun other => holds (on row other) with
    | [] => [(row,none)]
    | found => found.map fun other => (row,some other)

/-- Each row of the left table with each of its matches. -/
def innerJoin : List (ρ×τ) :=
  left.flatMap fun row =>
    (right.filter fun other => holds (on row other)).map fun other => (row,other)

end

/-- Equality of two values that are there. -/
@[simp] theorem sqlEq_some [DecidableEq α] (a b : α) :
    sqlEq (some a) (some b)=some (decide (a=b)) := rfl

/-- A condition that is there holds when it is true. -/
@[simp] theorem holds_some (truth : Bool) : holds (some truth)=truth := by
  cases truth <;> rfl

/-- A missing condition does not hold. -/
@[simp] theorem holds_none : holds none=false := rfl

theorem holds_sqlAnd : holds (sqlAnd parts)=parts.all holds := by
  unfold sqlAnd
  split_ifs with hno hmis
  · exact (all_eq_false.mpr ⟨_,hno,by decide⟩).symm
  · exact (all_eq_false.mpr ⟨_,hmis,by decide⟩).symm
  · refine (all_eq_true.mpr fun part hin => ?_).symm
    rcases part with _|_|_
    · exact absurd hin hmis
    · exact absurd hin hno
    · rfl

theorem holds_sqlOr : holds (sqlOr parts)=parts.any holds := by
  have hany : parts.any holds=decide (some true∈parts) := by
    rw [Bool.eq_iff_iff]
    simp [holds]
  rw [hany]
  unfold sqlOr
  split_ifs with hyes hmis <;> simp [hyes]

/-- An optional value equals a given one when it is there and the same. -/
theorem holds_sqlEq [DecidableEq α] (a : Option α) (b : α) :
    holds (sqlEq a (some b))=decide (a=some b) := by
  cases a with
  | none => rfl
  | some => simp

/-- The sum of values that are all there, with nothing read as zero. -/
theorem sqlSum_getD (rows : List ρ) (f : ρ → ℤ) :
    (sqlSum (rows.map fun row => some (f row))).getD 0=(rows.map f).sum := by
  have hkn : (rows.map fun row => some (f row)).reduceOption=rows.map f := by
    simp [List.reduceOption]
  rw [sqlSum,hkn]
  cases rows with
  | nil | cons => rfl

/-- The disjunction of values that are all there, as a condition. -/
theorem holds_boolOr (rows : List ρ) (f : ρ → Bool) :
    holds (boolOr (rows.map fun row => some (f row)))=rows.any f := by
  have hkn : (rows.map fun row => some (f row)).reduceOption=rows.map f := by
    simp [List.reduceOption]
  rw [boolOr,hkn]
  cases rows with
  | nil => rfl
  | cons => simp [any_map]

/-- Rows with distinct keys have one order, latest first. -/
theorem orderByDesc_eq {key : ρ → ℤ} {rows sorted : List ρ} (hdis : (rows.map key).Nodup)
    (hper : sorted.Perm rows) (hsor : sorted.Pairwise fun a b => key b≤key a) :
    orderByDesc key rows=sorted := by
  have hord := perm_insertionSort (fun a b : ρ => key b≤key a) rows
  refine List.Perm.eq_of_pairwise ?_
    (pairwise_insertionSort (fun a b : ρ => key b≤key a) rows) hsor (hord.trans hper.symm)
  intro a b ha hb hab hba
  exact inj_on_of_nodup_map hdis (hord.subset ha) (hper.subset hb) (le_antisymm hba hab)

/-- The groups of a key are the rows of the key, if there are any. -/
theorem filter_groupBy [DecidableEq κ] (key : ρ → κ) (rows : List ρ) (k : κ) :
    (groupBy key rows).filter (fun group => decide (group.1=k)) =
      if (rows.filter fun row => decide (key row=k))=[] then []
      else [(k,rows.filter fun row => decide (key row=k))] := by
  have hks : ((rows.map key).dedup.filter fun other => decide (other=k)) =
      if k∈rows.map key then [k] else [] := by
    rw [filter_eq]
    split_ifs with hmem
    · rw [count_eq_one_of_mem (nodup_dedup _) (mem_dedup.mpr hmem)]
      rfl
    · rw [count_eq_zero_of_not_mem fun hin => hmem (mem_dedup.mp hin)]
      rfl
  have hno : (rows.filter fun row => decide (key row=k))=[] ↔ k∉rows.map key := by
    simp
  rw [groupBy,filter_map]
  change List.map _ ((rows.map key).dedup.filter fun other => decide (other=k))=_
  rw [hks]
  by_cases hmem : k∈rows.map key
  · rw [if_pos hmem,if_neg fun hnil => hno.mp hnil hmem]
    rfl
  · rw [if_neg hmem,if_pos (hno.mpr hmem)]
    rfl

/-- Rows joined with the aggregates of their groups. -/
theorem leftJoin_groupBy [DecidableEq κ] (left : List τ) (name : τ → κ) (key : ρ → κ)
    (rows : List ρ) (aggregate : List ρ → β) :
    leftJoin (fun row (group : κ×β) => sqlEq (some group.1) (some (name row))) left
        ((groupBy key rows).map fun group => (group.1,aggregate group.2)) =
      left.map fun row => (row,
        if (rows.filter fun other => decide (key other=name row))=[] then none
        else some (name row,aggregate (rows.filter fun other => decide (key other=name row)))) := by
  refine (flatMap_congr fun row _ => ?_).trans map_eq_flatMap.symm
  have hjoi : (((groupBy key rows).map fun group => (group.1,aggregate group.2)).filter
      fun group => holds (sqlEq (some group.1) (some (name row)))) =
        ((groupBy key rows).filter fun group => decide (group.1=name row)).map
          fun group => (group.1,aggregate group.2) := by
    simp [filter_map,Function.comp_def]
  rw [hjoi,filter_groupBy]
  split_ifs with hno
  · rfl
  · rfl

section
variable [DecidableEq κ] (left : List ρ) (right : List τ) (name : ρ → Option κ) (key : τ → κ)
variable (hdis : (right.map key).Nodup)
include hdis

/-- A left join with at most one match for a row keeps the row once, with the
match. -/
theorem leftJoin_unique :
    leftJoin (fun row other => sqlEq (some (key other)) (name row)) left right =
      left.map fun row => (row,(name row).bind fun k =>
        right.find? fun other => decide (key other=k)) := by
  rw [leftJoin]
  refine (flatMap_congr fun row _ => ?_).trans map_eq_flatMap.symm
  cases name row with
  | none =>
    have hno : (right.filter fun other => holds (sqlEq (some (key other)) none))=[] := by
      simp [sqlEq]
    rw [hno]
    rfl
  | some k =>
    simp only [sqlEq_some,holds_some,filter_key_eq_find key k hdis,Option.bind_some]
    cases right.find? fun other => decide (key other=k) with
    | none | some => rfl

/-- An inner join with at most one match for a row pairs the rows that have
one. -/
theorem innerJoin_unique :
    innerJoin (fun row other => sqlEq (some (key other)) (name row)) left right =
      left.filterMap fun row => ((name row).bind fun k =>
        right.find? fun other => decide (key other=k)).map fun other => (row,other) := by
  rw [innerJoin,filterMap_eq_flatMap_toList]
  refine flatMap_congr fun row _ => ?_
  cases name row with
  | none => simp [sqlEq]
  | some k =>
    simp only [sqlEq_some,holds_some,filter_key_eq_find key k hdis,Option.bind_some]
    cases right.find? fun other => decide (key other=k) with
    | none | some => rfl

end

end SellRight.SqlRows
