import Mathlib.Tactic
import Mathlib.Data.List.Count
import Mathlib.Algebra.BigOperators.Group.List.Basic

/-!
# Rows addressed by a key

Tables are lists of rows. A conditional update rewrites matching rows in
place, a conditional delete drops them and an insert appends. Counting
lemmas bound how far one addressed update can move a filtered count.
-/

namespace SellRight

/-- A row of a table with one row appended is an old row or the new one. -/
theorem mem_concat_iff {α : Type*} {rows : List α} {a row : α} :
    row∈rows++[a] ↔ row∈rows∨row=a := by
  rw [List.mem_append,List.mem_singleton]

/-- Appended rows are distinct when the new one is new. -/
theorem nodup_concat_iff {α : Type*} {rows : List α} {row : α} :
    (rows++[row]).Nodup ↔ row∉rows∧rows.Nodup := by
  rw [← List.concat_eq_append,List.nodup_concat]

end SellRight

namespace SellRight.RowTable

open List

variable {ρ κ : Type*}

/-- Related lists have equal columns where related rows have equal values. -/
theorem map_eq_of_forall₂ {α β γ : Type} {R : α → β → Prop} {xs : List α} {ys : List β}
    {f : α → γ} {g : β → γ} (hrel : Forall₂ R xs ys) (heq : ∀ x y, R x y→f x=g y) :
    xs.map f=ys.map g := by
  induction hrel with
  | nil => rfl
  | cons hhd _ ih => rw [map_cons,map_cons,heq _ _ hhd,ih]

/-- Partner of a row in a pairing. -/
theorem forall₂_partner {α β : Type} {R : α → β → Prop} {xs : List α} {ys : List β}
    (hrel : Forall₂ R xs ys) {y : β} (hy : y∈ys) : ∃ x∈xs, R x y := by
  induction hrel with
  | nil => cases hy
  | cons hhd _ ih =>
    rcases mem_cons.mp hy with rfl|htl
    · exact ⟨_,mem_cons_self,hhd⟩
    · obtain ⟨x,hx,hpai⟩ := ih htl
      exact ⟨x,mem_cons_of_mem _ hx,hpai⟩

/-- Rewrite every matching row in place. -/
def updateWhere (p : ρ → Bool) (f : ρ → ρ) (rows : List ρ) : List ρ :=
  rows.map fun row => if p row then f row else row

/-- Drop every matching row. -/
def deleteWhere (p : ρ → Bool) (rows : List ρ) : List ρ := rows.filter fun row => !p row

variable {p q : ρ → Bool} {f : ρ → ρ} {rows : List ρ} {row : ρ} {k : κ}

/-- Rows after an update are the rewritten matches and the untouched rest. -/
theorem mem_updateWhere :
    row∈updateWhere p f rows ↔ (∃ old∈rows, p old=true∧row=f old)∨(row∈rows∧p row=false) := by
  simp only [updateWhere,mem_map]
  constructor
  · rintro ⟨old,hold,rfl⟩
    cases hp : p old with
    | true => exact .inl ⟨old,hold,hp,by simp⟩
    | false => exact .inr ⟨by simpa using hold,by simpa using hp⟩
  · rintro (⟨old,hold,hp,rfl⟩|⟨hrow,hp⟩)
    · exact ⟨old,hold,by simp [hp]⟩
    · exact ⟨row,hrow,by simp [hp]⟩

/-- Rows after a delete are the rows that did not match. -/
theorem mem_deleteWhere : row∈deleteWhere p rows ↔ row∈rows∧p row=false := by
  simp [deleteWhere]

/-- An update that matches nothing changes nothing. -/
theorem updateWhere_eq_self (h : ∀ row∈rows, p row=false) : updateWhere p f rows=rows := by
  conv_rhs => rw [← map_id rows]
  apply map_congr_left
  intro row hrow
  simp [h row hrow]

/-- Updates one after another rewrite each row by itself. -/
theorem foldl_updateWhere {α : Type*} (p : α → ρ → Bool) (f : α → ρ → ρ) (items : List α)
    (rows : List ρ) : items.foldl (fun rows item => updateWhere (p item) (f item) rows) rows =
      rows.map fun row => items.foldl (fun row item => if p item row then f item row else row) row := by
  induction items generalizing rows with
  | nil => exact (map_id' rows).symm
  | cons _ _ ih =>
    rw [foldl_cons,ih,updateWhere,map_map]
    rfl

variable (key : ρ → κ)

/-- A column that the rewrite keeps is the same column afterwards. -/
theorem map_updateWhere (rows : List ρ)
    (hkey : ∀ row, p row=true→key (f row)=key row) :
    (updateWhere p f rows).map key=rows.map key := by
  induction rows with
  | nil => rfl
  | cons row _ ih =>
    have hhd : key (if p row then f row else row)=key row := by
      split
      · next hp => exact hkey row hp
      · rfl
    simp only [updateWhere,map_cons,hhd,cons.injEq,true_and]
    exact ih

/-- A partial column that the rewrite keeps is the same column afterwards. -/
theorem filterMap_updateWhere (key : ρ → Option κ) (rows : List ρ)
    (hkey : ∀ row, p row=true→key (f row)=key row) :
    (updateWhere p f rows).filterMap key=rows.filterMap key := by
  have hmap := map_updateWhere key rows hkey
  calc (updateWhere p f rows).filterMap key=((updateWhere p f rows).map key).filterMap id := by
        rw [filterMap_map]; rfl
    _=(rows.map key).filterMap id := by rw [hmap]
    _=rows.filterMap key := by rw [filterMap_map]; rfl

section
variable (key : ρ → κ) (h : (rows.map key).Nodup)
include h

/-- Deleting rows keeps a distinct column distinct. -/
theorem nodup_map_deleteWhere : ((deleteWhere p rows).map key).Nodup :=
  h.sublist (filter_sublist.map key)

/-- Appending a row with a new key keeps the key column distinct. -/
theorem nodup_map_append (hnew : ∀ old∈rows, key old≠key row) :
    ((rows++[row]).map key).Nodup := by
  rw [map_append,map_singleton,nodup_concat_iff,mem_map]
  exact ⟨fun ⟨old,hold,heq⟩ => hnew old hold heq,h⟩

/-- Two rows with one key are one row when keys are distinct. -/
theorem eq_of_key_eq {a b : ρ} (ha : a∈rows) (hb : b∈rows) (hk : key a=key b) : a=b := by
  exact inj_on_of_nodup_map h ha hb hk

end

section
variable [DecidableEq κ] (key : ρ → κ)

/-- A row found by its key is stored under that key. -/
theorem find_key_eq_some (h : rows.find? (fun other => decide (key other=k))=some row) : row∈rows∧key row=k :=
  ⟨mem_of_find?_eq_some h,of_decide_eq_true (find?_some (p := fun other =>
    decide (key other=k)) h)⟩

/-- The only row that a predicate selects is found by it. -/
theorem find_unique (hrow : row∈rows) (hp : p row=true)
    (huni : ∀ other∈rows, p other=true → other=row) : rows.find? p=some row := by
  obtain ⟨other,hot⟩ := Option.isSome_iff_exists.mp (find?_isSome.mpr ⟨row,hrow,hp⟩)
  rw [hot,huni other (mem_of_find?_eq_some hot) (find?_some hot)]

/-- Where keys are distinct, a stored row is found by its key. -/
theorem find_key_self (hnod : (rows.map key).Nodup) (hrow : row∈rows) :
    rows.find? (fun other => decide (key other=key row))=some row :=
  find_unique hrow (decide_eq_true rfl) fun _ hot hkey =>
    eq_of_key_eq key hnod hot hrow (of_decide_eq_true hkey)

/-- The rows around one of them, where keys are distinct. -/
theorem split_key (hnod : (rows.map key).Nodup) (hrow : row∈rows) : ∃ a b, rows=a++row::b ∧
    (∀ f : ρ → ρ, updateWhere (fun other => decide (key other=key row)) f rows=a++f row::b) ∧
    deleteWhere (fun other => decide (key other=key row)) rows=a++b := by
  obtain ⟨a,b,rfl⟩ := append_of_mem hrow
  rw [map_append,map_cons,nodup_middle,← map_append,nodup_cons] at hnod
  have hfre : ∀ other∈a++b, key other≠key row := fun other hot heq =>
    hnod.1 (heq ▸ mem_map_of_mem hot)
  refine ⟨a,b,rfl,fun f => ?_,?_⟩
  · have hkp : ∀ xs, xs ⊆ a++b →
        updateWhere (fun other => decide (key other=key row)) f xs=xs := fun xs hxs =>
      updateWhere_eq_self fun other hot => decide_eq_false (hfre other (hxs hot))
    have hlf := hkp a (subset_append_left a b)
    have hrig := hkp b (subset_append_right a b)
    unfold updateWhere at *
    rw [map_append,map_cons,hlf,hrig,if_pos (decide_eq_true rfl)]
  · have hkp : (a++b).filter (fun other => !decide (key other=key row))=a++b :=
      filter_eq_self.mpr fun other hot => by simpa using hfre other hot
    rw [filter_append] at hkp
    rw [deleteWhere,filter_append,filter_cons_of_neg (by simp),hkp]

/-- With distinct keys at most one row has a key. -/
theorem filter_key_eq_find (k : κ) (hnod : (rows.map key).Nodup) :
    (rows.filter fun row => decide (key row=k)) =
      (rows.find? fun row => decide (key row=k)).toList := by
  induction rows with
  | nil => rfl
  | cons row rest ih =>
    obtain ⟨hnew,hrt⟩ := nodup_cons.mp hnod
    by_cases hkey : key row=k
    · have hno : (rest.filter fun other => decide (key other=k))=[] := by
        rw [filter_eq_nil_iff]
        intro other hot heq
        exact hnew (mem_map.mpr ⟨other,hot,(of_decide_eq_true heq).trans hkey.symm⟩)
      rw [filter_cons_of_pos (by simpa using hkey),find?_cons_of_pos (by simpa using hkey),
        hno]
      rfl
    · rw [filter_cons_of_neg (by simpa using hkey),find?_cons_of_neg (by simpa using hkey),
        ih hrt]

/-- The row found by a key after an update of a key is the updated row, or the
old one of another key. -/
theorem find_key_updateWhere (k j : κ) (hkey : ∀ row, key (f row)=key row) (rows : List ρ) :
    (updateWhere (fun row => decide (key row=k)) f rows).find? (fun row => decide (key row=j)) =
      (rows.find? fun row => decide (key row=j)).map (if j=k then f else id) := by
  induction rows with
  | nil => rfl
  | cons row _ ih =>
    simp only [updateWhere,map_cons] at ih ⊢
    by_cases hrow : key row=j
    · subst hrow
      by_cases hupd : key row=k <;> simp [hupd,hkey]
    · have hsam : key (if key row=k then f row else row)≠j := by split_ifs <;> simp [hkey,hrow]
      simpa [find?_cons,hsam,hrow] using ih

/-- A row found by its key is still found after other keys are deleted. -/
theorem find_key_deleteWhere_of_ne {j : κ} (hne : k≠j) (rows : List ρ) :
    (deleteWhere (fun row => decide (key row=k)) rows).find? (fun row => decide (key row=j)) =
      rows.find? fun row => decide (key row=j) := by
  induction rows with
  | nil => rfl
  | cons row _ ih =>
    by_cases hdel : key row=k
    · simpa [deleteWhere,hdel,find?_cons,hne] using ih
    · by_cases hfd : key row=j
      · simp [deleteWhere,hfd,hne.symm]
      · simpa [deleteWhere,hdel,find?_cons,hfd] using ih

end

/-- An update that keeps keys keeps them distinct. -/
theorem nodup_map_updateWhere
    (hkey : ∀ row, key (f row)=key row) (h : (rows.map key).Nodup) :
    ((updateWhere p f rows).map key).Nodup := by
  rw [map_updateWhere key rows fun row _ => hkey row]
  exact h

/-- Writing a new value into one keyed row keeps a column distinct. -/
theorem nodup_map_update_key {ι : Type*} [DecidableEq κ] (col : ρ → ι) (k : κ)
    {v : ι} (hks : (rows.map key).Nodup) (hcol : (rows.map col).Nodup) (hv : ∀ row, col (f row)=v)
    (hfre : ∀ row∈rows, col row≠v) :
    ((updateWhere (fun row => decide (key row=k)) f rows).map col).Nodup := by
  unfold updateWhere
  rw [map_map]
  refine hks.of_map.map_on fun a ha b hb heq => ?_
  dsimp only [Function.comp] at heq
  by_cases hka : key a=k
  · by_cases hkb : key b=k
    · exact eq_of_key_eq key hks ha hb (hka.trans hkb.symm)
    · rw [if_pos (by simpa using hka),if_neg (by simpa using hkb),hv] at heq
      exact absurd heq.symm (hfre b hb)
  · by_cases hkb : key b=k
    · rw [if_neg (by simpa using hka),if_pos (by simpa using hkb),hv] at heq
      exact absurd heq (hfre a ha)
    · rw [if_neg (by simpa using hka),if_neg (by simpa using hkb)] at heq
      exact eq_of_key_eq col hcol ha hb heq

/-- Two conditions that agree on the rows select the same rewrite. -/
theorem updateWhere_congr
    (h : ∀ row∈rows, p row=q row) : updateWhere p f rows=updateWhere q f rows := by
  apply map_congr_left
  intro row hrow
  rw [h row hrow]

/-- A count keeps its value through an update that keeps the counted rows
counted and the others not. -/
theorem countP_updateWhere_eq (h : ∀ row∈rows, p row=true→q (f row)=q row) :
    (updateWhere p f rows).countP q=rows.countP q := by
  rw [updateWhere,countP_map]
  apply countP_congr
  intro row hrow
  simp only [Function.comp_apply]
  split
  · next hp => rw [h row hrow hp]
  · rfl

/-- Rewriting one keyed row moves a count by that row alone. -/
theorem countP_update_row [DecidableEq κ] (q : ρ → Bool) (f : ρ → ρ)
    (hnod : (rows.map key).Nodup) (hrow : row∈rows) :
    (updateWhere (fun other => decide (key other=key row)) f rows).countP q +
      (if q row then 1 else 0)=rows.countP q+if q (f row) then 1 else 0 := by
  obtain ⟨a,b,hspl,hupd,-⟩ := split_key key hnod hrow
  rw [hupd,hspl]
  simp only [countP_append,countP_cons]
  omega

/-- A count without the row of one key. -/
theorem countP_ne_key [DecidableEq κ] (q : ρ → Bool)
    (hnod : (rows.map key).Nodup) (hrow : row∈rows) : rows.countP q =
      rows.countP (fun r => q r && !decide (key r=key row))+if q row then 1 else 0 := by
  obtain ⟨a,b,hspl,-,hdel⟩ := split_key key hnod hrow
  rw [← countP_filter,← deleteWhere,hdel,hspl]
  simp only [countP_append,countP_cons]
  omega

/-- Rewriting one keyed row into a counted one raises the count by one. -/
theorem countP_update_key [DecidableEq κ] (q : ρ → Bool)
    (hnod : (rows.map key).Nodup) (hrow : row∈rows) (hoff : q row=false) (hon : q (f row)=true) :
    (updateWhere (fun other => decide (key other=key row)) f rows).countP q=rows.countP q+1 := by
  simpa [hoff,hon] using countP_update_row key q f hnod hrow

/-- At most one row of a key is counted when keys are distinct. -/
theorem countP_key_le_one [DecidableEq κ] (k : κ) (q : ρ → Bool)
    (h : (rows.map key).Nodup) : rows.countP (fun row => decide (key row=k)&&q row)≤1 := by
  have hct : rows.countP (fun row => decide (key row=k))=(rows.map key).count k := by
    rw [count,countP_map]
    apply countP_congr
    simp
  calc rows.countP (fun row => decide (key row=k)&&q row)
      ≤ rows.countP (fun row => decide (key row=k)) :=
        countP_mono_left fun _ _ hrow => (Bool.and_eq_true_iff.mp hrow).1
    _=(rows.map key).count k := hct
    _≤1 := nodup_iff_count_le_one.mp h k

/-- A count cannot grow through an update that never turns a row into a
counted one. -/
theorem countP_updateWhere_le (rows : List ρ)
    (h : ∀ row∈rows, p row=true→q (f row)=true→q row=true) :
    (updateWhere p f rows).countP q≤rows.countP q := by
  induction rows with
  | nil => simp [updateWhere]
  | cons row _ ih =>
    have htl := ih fun r hr => h r (mem_cons_of_mem _ hr)
    have hhd := h row mem_cons_self
    simp only [updateWhere] at htl
    simp only [updateWhere,map_cons,countP_cons]
    cases hp : p row with
    | false => simp only [Bool.false_eq_true,if_false]; omega
    | true =>
      cases hq : q (f row) with
      | false => simp only [if_true,hq,Bool.false_eq_true,if_false]; omega
      | true =>
        simp only [if_true,hq,hhd hp hq]
        omega

/-- Deleting rows never raises a count. -/
theorem countP_deleteWhere_le (p q : ρ → Bool) (rows : List ρ) :
    (deleteWhere p rows).countP q≤rows.countP q :=
  filter_sublist.countP_le

section
variable (p : ρ → Bool) (g : ρ → ℤ) (rows : List ρ)

/-- A measure of the matching rows, row by row. -/
theorem sum_map_filter :
    ((rows.filter p).map g).sum=(rows.map fun row => if p row then g row else 0).sum := by
  induction rows with
  | nil => rfl
  | cons row _ ih =>
    cases hp : p row with
    | true | false => simp [hp,ih]

/-- One more row adds its value to a filtered sum when it is counted. -/
theorem sum_filter_concat (row : ρ) :
    (((rows++[row]).filter p).map g).sum =
      ((rows.filter p).map g).sum+if p row then g row else 0 := by
  cases hp : p row with
  | true | false => simp [hp]

end

/-- A filtered sum over rows that are not counted is zero. -/
theorem sum_filter_eq_zero (g : ρ → ℤ)
    (h : ∀ row∈rows, p row=false) : ((rows.filter p).map g).sum=0 := by
  have hno : rows.filter p=[] := by
    rw [filter_eq_nil_iff]
    intro row hrow
    simp [h row hrow]
  rw [hno]
  rfl

/-- Counting fewer rows of values that are not negative sums to at most as
much. -/
theorem sum_filter_le_of_imp {g : ρ → ℤ}
    (himp : ∀ row∈rows, p row=true→q row=true) (hz : ∀ row∈rows, 0≤g row) :
    ((rows.filter p).map g).sum≤((rows.filter q).map g).sum := by
  rw [sum_map_filter,sum_map_filter]
  refine sum_le_sum fun row hrow => ?_
  by_cases hp : p row=true
  · rw [if_pos hp,if_pos (himp row hrow hp)]
  rw [if_neg hp]
  split
  · exact hz row hrow
  · exact le_refl _

section
variable [DecidableEq κ] (key : ρ → κ)

/-- Where keys are distinct, the rows of one key sum to at most a bound of
each of them. -/
theorem sum_filter_key_le (k : κ) (g : ρ → ℤ)
    {bound : ℤ} (hnod : (rows.map key).Nodup) (hz : 0≤bound)
    (hle : ∀ row∈rows, key row=k → g row≤bound) :
    ((rows.filter fun row => decide (key row=k)).map g).sum≤bound := by
  rw [filter_key_eq_find key k hnod]
  cases hfd : rows.find? fun row => decide (key row=k) with
  | none => simpa using hz
  | some row =>
    obtain ⟨hrow,hkey⟩ := find_key_eq_some key hfd
    simpa using hle row hrow hkey

/-- Rewriting one keyed row moves a sum by that row alone. -/
theorem sum_update_key (g : ρ → ℤ) (hnod : (rows.map key).Nodup) (hrow : row∈rows) :
    ((updateWhere (fun other => decide (key other=key row)) f rows).map g).sum =
      (rows.map g).sum+(g (f row)-g row) := by
  obtain ⟨a,b,hspl,hupd,-⟩ := split_key key hnod hrow
  rw [hupd,hspl]
  simp only [map_append,map_cons,sum_append,sum_cons]
  ring

/-- Rewriting one keyed row moves a filtered sum by that row alone. -/
theorem sum_filter_update_key (q : ρ → Bool) (g : ρ → ℤ)
    (hnod : (rows.map key).Nodup) (hrow : row∈rows) :
    (((updateWhere (fun other => decide (key other=key row)) f rows).filter q).map g).sum =
      ((rows.filter q).map g).sum +
        ((if q (f row) then g (f row) else 0)-if q row then g row else 0) := by
  rw [sum_map_filter,sum_map_filter,
    sum_update_key key (fun row => if q row then g row else 0) hnod hrow]

end

end SellRight.RowTable
