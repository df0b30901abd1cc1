import SellRight.RowTable

/-!
# Where the rows of a table come from

A table descends from another when each of its rows is a kept row of the other
or a fresh one. Updates, deletes and inserts descend, and descents compose, so a
fact about whole rows passes through any transaction.
-/

namespace SellRight.RowDescent

open RowTable

variable {ρ κ : Type*}

/-- Every new row keeps an old row or is fresh. -/
def Descends (fresh : ρ → Prop) (keeps : ρ → ρ → Prop) (rows rows' : List ρ) : Prop :=
  ∀ row'∈rows', (∃ row∈rows, keeps row row')∨fresh row'

variable {fresh fresh' : ρ → Prop} {keeps : ρ → ρ → Prop} {rows rows' rows'' : List ρ}

/-- A table descends from itself. -/
theorem Descends.refl (hkee : ∀ row, keeps row row) (rows : List ρ) :
    Descends fresh keeps rows rows :=
  fun row hrow => .inl ⟨row,hrow,hkee row⟩

/-- Descents compose when kept rows of fresh rows are fresh. -/
theorem Descends.trans (htra : ∀ a b c, keeps a b→keeps b c→keeps a c)
    (hfre : ∀ a b, fresh a→keeps a b→fresh' b)
    (h₁ : Descends fresh keeps rows rows') (h₂ : Descends fresh' keeps rows' rows'') :
    Descends fresh' keeps rows rows'' := by
  intro c hc
  rcases h₂ c hc with ⟨b,hb,hbc⟩|hf
  · rcases h₁ b hb with ⟨a,ha,hab⟩|hf
    · exact .inl ⟨a,ha,htra a b c hab hbc⟩
    · exact .inr (hfre b c hf hbc)
  · exact .inr hf

/-- More rows may count as fresh. -/
theorem Descends.mono (hnew : ∀ a, fresh a→fresh' a) (h : Descends fresh keeps rows rows') :
    Descends fresh' keeps rows rows' :=
  fun row hrow => (h row hrow).imp_right (hnew row)

variable {p : ρ → Bool}

/-- A rewrite that keeps its rows descends. -/
theorem descends_updateWhere (hkee : ∀ row, keeps row row) {f : ρ → ρ}
    (hf : ∀ row∈rows, p row=true→keeps row (f row)) :
    Descends fresh keeps rows (updateWhere p f rows) := by
  intro row' hrow'
  rcases mem_updateWhere.mp hrow' with ⟨old,hold,hp,rfl⟩|⟨hrow,-⟩
  · exact .inl ⟨old,hold,hf old hold hp⟩
  · exact .inl ⟨row',hrow,hkee row'⟩

/-- A delete descends. -/
theorem descends_deleteWhere (hkee : ∀ row, keeps row row) :
    Descends fresh keeps rows (deleteWhere p rows) :=
  fun row hrow => .inl ⟨row,(mem_deleteWhere.mp hrow).1,hkee row⟩

/-- Appending fresh rows descends. -/
theorem Descends.append (h : Descends fresh keeps rows rows') {new : List ρ}
    (hnew : ∀ row∈new, fresh row) : Descends fresh keeps rows (rows'++new) := by
  intro row hrow
  rcases List.mem_append.mp hrow with hold|had
  · exact h row hold
  · exact .inr (hnew row had)

/-- What kept rows inherit and fresh rows satisfy holds of every new row. -/
theorem Descends.forall (h : Descends fresh keeps rows rows') {P Q : ρ → Prop}
    (hold : ∀ row∈rows, P row) (hkp : ∀ a b, keeps a b → P a → Q b)
    (hfre : ∀ a, fresh a → Q a) : ∀ row∈rows', Q row := by
  intro row hrow
  rcases h row hrow with ⟨a,ha,hab⟩|hf
  · exact hkp a row hab (hold a ha)
  · exact hfre row hf

/-- The key column of an updated table is that of the old one. -/
theorem sublist_map_updateWhere (key : ρ → κ) {f : ρ → ρ}
    (hkey : ∀ row, key (f row)=key row) (rows : List ρ) :
    ((updateWhere p f rows).map key).Sublist (rows.map key) := by
  rw [map_updateWhere key rows fun row _ => hkey row]

/-- The key column of what a delete leaves is part of the old one. -/
theorem sublist_map_deleteWhere (key : ρ → κ) (rows : List ρ) :
    ((deleteWhere p rows).map key).Sublist (rows.map key) :=
  List.filter_sublist.map key

end SellRight.RowDescent
