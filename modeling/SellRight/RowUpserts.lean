import SellRight.RowTable

/-!
# Upserts and tallies

An upsert rewrites the row of a key or appends one. A tally sums a measure
over the rows of one key; under distinct keys it is the measure of one row,
and an upsert that adds to the measure adds to the tally of its key alone.
-/

namespace SellRight.RowUpserts

open RowTable List

variable {ρ κ : Type*} [DecidableEq κ]

/-- Rewrite the row of a key, or append a row. -/
def upsert (key : ρ → κ) (k : κ) (f : ρ → ρ) (new : ρ) (rows : List ρ) : List ρ :=
  if rows.any fun row => decide (key row=k) then updateWhere (fun row => decide (key row=k)) f rows
  else rows++[new]

/-- Sum of a measure over the rows of a key. -/
def tally (key : ρ → κ) (g : ρ → ℤ) (k : κ) (rows : List ρ) : ℤ :=
  (rows.map fun row => if key row=k then g row else 0).sum

/-- A selection without the rewritten rows, before and after, stays as it is. -/
theorem filter_updateWhere {p q : ρ → Bool} {f : ρ → ρ} {rows : List ρ}
    (h : ∀ row, p row=true→q row=false∧q (f row)=false) :
    (updateWhere p f rows).filter q=rows.filter q := by
  induction rows with
  | nil => rfl
  | cons row _ ih =>
    simp only [updateWhere,map_cons] at ih ⊢
    cases hp : p row with
    | true =>
      obtain ⟨hbef,haft⟩ := h row hp
      rw [if_pos rfl,filter_cons_of_neg (by simp [haft]),filter_cons_of_neg (by simp [hbef])]
      exact ih
    | false => rw [if_neg (by simp),filter_cons,filter_cons,ih]

section Upserts

variable {key : ρ → κ} {k : κ} {f : ρ → ρ} {new : ρ} {rows : List ρ}

/-- Rows after an upsert. -/
theorem mem_upsert {row : ρ} (hrow : row∈upsert key k f new rows) :
    (∃ old∈rows, key old=k∧row=f old)∨(row∈rows∧key row≠k)∨row=new := by
  unfold upsert at hrow
  split at hrow
  · rcases mem_updateWhere.mp hrow with ⟨old,hold,hkey,rfl⟩|⟨hold,hkey⟩
    · exact .inl ⟨old,hold,of_decide_eq_true hkey,rfl⟩
    · exact .inr (.inl ⟨hold,of_decide_eq_false hkey⟩)
  · next hno =>
    rcases mem_append.mp hrow with hold|hnew
    · have hkey : key row≠k := by
        intro heq
        exact hno (any_eq_true.mpr ⟨row,hold,decide_eq_true heq⟩)
      exact .inr (.inl ⟨hold,hkey⟩)
    · exact .inr (.inr (mem_singleton.mp hnew))

/-- An upsert keeps keys distinct. -/
theorem nodup_upsert (hf : ∀ row, key (f row)=key row) (hnew : key new=k)
    (hnod : (rows.map key).Nodup) : ((upsert key k f new rows).map key).Nodup := by
  unfold upsert
  split_ifs with hno
  · rw [map_updateWhere key rows fun row _ => hf row]
    exact hnod
  refine nodup_map_append key hnod fun old hold heq => hno ?_
  exact any_eq_true.mpr ⟨old,hold,decide_eq_true (heq.trans hnew)⟩

/-- An upsert leaves the rows of a selection without its key alone. -/
theorem filter_upsert (q : ρ → Bool) (hq : ∀ row, key row=k→q row=false)
    (hf : ∀ row, key (f row)=key row) (hnew : key new=k) :
    (upsert key k f new rows).filter q=rows.filter q := by
  unfold upsert
  split
  · refine filter_updateWhere fun row hrow => ?_
    have hkey := of_decide_eq_true hrow
    exact ⟨hq row hkey,hq (f row) ((hf row).trans hkey)⟩
  · rw [filter_append,filter_singleton,hq new hnew]
    simp

/-- An upsert that adds to a measure adds to the tally of its key alone. -/
theorem tally_upsert (g : ρ → ℤ) {amount : ℤ} (hf : ∀ row, key (f row)=key row)
    (hnew : key new=k) (hnod : (rows.map key).Nodup)
    (hupd : ∀ row∈rows, key row=k → g (f row)=g row+amount) (hins : g new=amount) (k' : κ) :
    tally key g k' (upsert key k f new rows)=tally key g k' rows+if k'=k then amount else 0 := by
  unfold upsert
  split
  · next hany =>
    obtain ⟨row,hrow,hkey⟩ := any_eq_true.mp hany
    have heq := of_decide_eq_true hkey
    have hsum := sum_update_key key (fun row => if key row=k' then g row else 0) (f := f) hnod hrow
    rw [heq] at hsum
    unfold tally
    rw [hsum,hf row,heq,hupd row hrow heq]
    by_cases hk : k'=k
    · simp [hk]
    · simp [hk,Ne.symm hk]
  · by_cases hk : k'=k
    · simp [tally,hnew,hins,hk]
    · simp [tally,hnew,hk,Ne.symm hk]

end Upserts

section Tallies

variable {key : ρ → κ} {g : ρ → ℤ} {k : κ} {rows : List ρ}

/-- A key no row has tallies to nothing. -/
theorem tally_eq_zero (hno : ∀ row∈rows, key row≠k) : tally key g k rows=0 := by
  refine sum_eq_zero fun n hn => ?_
  obtain ⟨row,hrow,rfl⟩ := mem_map.mp hn
  exact if_neg (hno row hrow)

/-- Deleting rows of other keys leaves a tally alone. -/
theorem tally_deleteWhere {p : ρ → Bool} (hp : ∀ row∈rows, key row=k→p row=false) :
    tally key g k (deleteWhere p rows)=tally key g k rows := by
  induction rows with
  | nil => rfl
  | cons row _ ih =>
    have htl := ih fun other hot => hp other (mem_cons_of_mem _ hot)
    have hhd := hp row mem_cons_self
    simp only [tally,deleteWhere,filter_cons,map_cons,sum_cons] at htl ⊢
    by_cases hkey : key row=k
    · simp [hhd hkey,hkey,htl]
    · cases hrow : p row <;> simp [hkey,htl]

/-- A tally over concatenated rows. -/
theorem tally_append (rows others : List ρ) :
    tally key g k (rows++others)=tally key g k rows+tally key g k others := by
  simp [tally]

end Tallies

end SellRight.RowUpserts
