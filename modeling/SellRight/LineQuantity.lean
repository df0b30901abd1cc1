import Mathlib.Algebra.BigOperators.Group.List.Basic
import Mathlib.Algebra.Order.Ring.Int

/-!
# Stored quantities of an edited order line

`reconcileLineQuantities` maps the billed quantity an edit asks for to the
stored columns, bringing back units that earlier edits removed before it raises
the ordered count. Over any sequence of edits the columns have a closed form.
-/

namespace SellRight.LineQuantity

open List

structure StoredLineQuantities where
  /-- The originally ordered count. -/
  quantity : ℤ
  /-- Units that will never ship. -/
  cancelledQty : ℤ
  /-- The cancelled units that an edit removed. -/
  editRemovedQty : ℤ
  deriving DecidableEq

structure LineQuantityChange extends StoredLineQuantities where
  (removed restored added : ℤ)
  deriving DecidableEq

/-- A stored row: the quantities, null for a line never edited, and its other columns. -/
structure LineRow (α : Type*) where
  (quantity cancelledQty : ℤ)
  editRemovedQty : Option ℤ
  rest : α

variable {α : Type*}

def editRemovedQty (l : LineRow α) : ℤ := l.editRemovedQty.getD 0

def billedQty (l : LineRow α) : ℤ := l.quantity-editRemovedQty l

/-- The billed view of a stored row. -/
def billedLine (row : LineRow α) : LineRow α :=
  let removed := editRemovedQty row
  if removed=0 then row
  else {row with quantity := row.quantity-removed,cancelledQty := row.cancelledQty-removed}

/-- The billed quantity of the stored columns. -/
def StoredLineQuantities.billed (l : StoredLineQuantities) : ℤ := l.quantity-l.editRemovedQty

/-- Map a new billed quantity to the stored columns. -/
def reconcileLineQuantities (current : StoredLineQuantities) (billedAfter : ℤ) :
    LineQuantityChange :=
  let billedBefore := current.quantity-current.editRemovedQty
  if billedAfter<billedBefore then
    let removed := billedBefore-billedAfter
    ⟨⟨current.quantity,current.cancelledQty+removed,current.editRemovedQty+removed⟩,removed,0,0⟩
  else if billedBefore<billedAfter then
    let grow := billedAfter-billedBefore
    let restored := min grow current.editRemovedQty
    let added := grow-restored
    ⟨⟨current.quantity+added,current.cancelledQty-restored,current.editRemovedQty-restored⟩,0,
      restored,added⟩
  else ⟨current,0,0,0⟩

/-- The changes a sequence of billed targets makes, each with the columns before it. -/
def changes : StoredLineQuantities → List ℤ → List (StoredLineQuantities×LineQuantityChange)
  | _,[] => []
  | current,target::targets =>
    let change := reconcileLineQuantities current target
    (current,change)::changes change.toStoredLineQuantities targets

/-- The columns after a sequence of billed targets. -/
def reconcileAll (current : StoredLineQuantities) (targets : List ℤ) : StoredLineQuantities :=
  targets.foldl (fun l target => (reconcileLineQuantities l target).toStoredLineQuantities) current

/-- Edit-removed units are cancelled units of the order. -/
structure WellFormed (l : StoredLineQuantities) : Prop where
  removed : 0≤l.editRemovedQty
  cancelled : l.editRemovedQty≤l.cancelledQty
  ordered : l.editRemovedQty≤l.quantity

/-- What a change reports accounts for what it did to the columns. -/
structure Accounts (before : StoredLineQuantities) (change : LineQuantityChange) : Prop where
  billed : change.billed=before.billed+change.restored+change.added-change.removed
  quantity : change.quantity=before.quantity+change.added
  removed : change.editRemovedQty=before.editRemovedQty+change.removed-change.restored
  nonneg : 0≤change.removed∧0≤change.restored∧0≤change.added
  oneWay : change.removed=0∨change.restored=0∧change.added=0
  restores : change.restored≤before.editRemovedQty
  /-- New units are ordered only when every removed unit has come back. -/
  uncancelFirst : change.added≠0→change.editRemovedQty=0

theorem reconcileLineQuantities_spec {l : StoredLineQuantities} (hl : WellFormed l) {b : ℤ}
    (hb : 0≤b) : WellFormed (reconcileLineQuantities l b).toStoredLineQuantities ∧
    (reconcileLineQuantities l b).billed=b ∧
    (reconcileLineQuantities l b).quantity=max l.quantity b ∧
    (reconcileLineQuantities l b).cancelledQty-(reconcileLineQuantities l b).editRemovedQty =
      l.cancelledQty-l.editRemovedQty∧Accounts l (reconcileLineQuantities l b) := by
  obtain ⟨hrem,hcan,hord⟩ := hl
  unfold reconcileLineQuantities
  dsimp only
  split_ifs with hdo hup
  · refine ⟨⟨?_,?_,?_⟩,?_,?_,?_,⟨?_,?_,?_,⟨?_,?_,?_⟩,.inr ⟨rfl,rfl⟩,?_,?_⟩⟩ <;>
      simp only [StoredLineQuantities.billed] <;> omega
  · refine ⟨⟨?_,?_,?_⟩,?_,?_,?_,⟨?_,?_,?_,⟨?_,?_,?_⟩,.inl rfl,?_,?_⟩⟩ <;>
      simp only [StoredLineQuantities.billed] <;> omega
  · refine ⟨⟨?_,?_,?_⟩,?_,?_,?_,⟨?_,?_,?_,⟨?_,?_,?_⟩,.inl rfl,?_,?_⟩⟩ <;>
      simp only [StoredLineQuantities.billed] <;> omega

/-- The closed form after any sequence of targets. -/
structure ClosedForm (l : StoredLineQuantities) (targets : List ℤ) (l' : StoredLineQuantities) :
    Prop where
  wellFormed : WellFormed l'
  quantity : l'.quantity=targets.foldl max l.quantity
  billed : l'.billed=targets.getLastD l.billed
  cancelled : l'.cancelledQty-l'.editRemovedQty=l.cancelledQty-l.editRemovedQty

theorem reconcileAll_closedForm {targets : List ℤ} : ∀ {l : StoredLineQuantities},
    WellFormed l→(∀ b∈targets,0≤b) → ClosedForm l targets (reconcileAll l targets) := by
  induction targets with
  | nil => exact fun hl _ => ⟨hl,rfl,rfl,rfl⟩
  | cons b _ ih =>
    intro l hl hb
    obtain ⟨hwf,hbil,hqua,hcan,-⟩ := reconcileLineQuantities_spec hl (hb b mem_cons_self)
    have h := ih hwf fun b' hb' => hb b' (mem_cons_of_mem _ hb')
    refine ⟨h.wellFormed,?_,?_,h.cancelled.trans hcan⟩
    · rw [foldl_cons,← hqua]
      exact h.quantity
    have hlast := h.billed
    rw [hbil] at hlast
    rw [getLastD_cons]
    exact hlast

/-- Each change of a run accounts for itself and ends at the next columns, and
together they account for the whole change. -/
theorem changes_account {targets : List ℤ} : ∀ {l : StoredLineQuantities},
    WellFormed l→(∀ b∈targets,0≤b) → (∀ c∈changes l targets,Accounts c.1 c.2) ∧
    (changes l targets).map (fun c => c.2.billed)=targets ∧
    (reconcileAll l targets).billed=l.billed +
      ((changes l targets).map fun c => c.2.restored+c.2.added-c.2.removed).sum := by
  induction targets with
  | nil => exact fun _ _ => ⟨nofun,rfl,(add_zero _).symm⟩
  | cons b targets ih =>
    intro l hl hb
    obtain ⟨hwf,hbil,-,-,hacc⟩ := reconcileLineQuantities_spec hl (hb b mem_cons_self)
    obtain ⟨hall,hmap,hsum⟩ := ih hwf fun b' hb' => hb b' (mem_cons_of_mem _ hb')
    refine ⟨?_,?_,?_⟩
    · intro c hc
      rcases mem_cons.mp hc with rfl|hc
      · exact hacc
      · exact hall c hc
    · exact congrArg₂ List.cons hbil hmap
    · have hone := hacc.billed
      have htot : (reconcileAll l (b::targets)).billed =
          (reconcileLineQuantities l b).billed+_ := hsum
      rw [htot,changes,map_cons,sum_cons]
      dsimp only
      omega

/-- The billed view of a row that stores the columns. -/
theorem billedLine_stored (l : StoredLineQuantities) (rest : α) :
    billedLine ⟨l.quantity,l.cancelledQty,some l.editRemovedQty,rest⟩ =
      ⟨l.billed,l.cancelledQty-l.editRemovedQty,some l.editRemovedQty,rest⟩ := by
  unfold billedLine editRemovedQty StoredLineQuantities.billed
  dsimp only [Option.getD_some]
  split_ifs with hz
  · simp [hz]
  · rfl

/-- Stored line quantities have a closed form over any sequence of edits, and
what each edit reports accounts for it. -/
theorem stored_quantities_closed_form {α : Type*} (l : StoredLineQuantities) (hl : WellFormed l)
    (targets : List ℤ) (b : ℤ) (hb : ∀ b'∈targets++[b],0≤b') (rest : α) :
    let l' := reconcileAll l (targets++[b])
    l'.quantity=(targets++[b]).foldl max l.quantity ∧
    l'.editRemovedQty=l'.quantity-b ∧
    l'.cancelledQty-l'.editRemovedQty=l.cancelledQty-l.editRemovedQty ∧
    0≤l'.editRemovedQty∧l'.editRemovedQty≤l'.cancelledQty ∧
    (∀ fulfilled,(∀ b'∈targets++[b],fulfilled+(l.cancelledQty-l.editRemovedQty)≤b') →
      fulfilled+l'.cancelledQty≤l'.quantity) ∧
    billedLine ⟨l'.quantity,l'.cancelledQty,some l'.editRemovedQty,rest⟩ =
      ⟨b,l.cancelledQty-l.editRemovedQty,some l'.editRemovedQty,rest⟩ ∧
    (∀ c∈changes l (targets++[b]),Accounts c.1 c.2) ∧
    (changes l (targets++[b])).map (fun c => c.2.billed)=targets++[b] ∧
    b=l.billed+((changes l (targets++[b])).map
      fun c => c.2.restored+c.2.added-c.2.removed).sum := by
  obtain ⟨hwf,hqua,hbil,hcan⟩ := reconcileAll_closedForm hl hb
  obtain ⟨hall,hmap,hsum⟩ := changes_account hl hb
  rw [getLastD_concat] at hbil
  have hrem : (reconcileAll l (targets++[b])).editRemovedQty =
      (reconcileAll l (targets++[b])).quantity-b := by
    rw [StoredLineQuantities.billed] at hbil
    omega
  refine ⟨hqua,hrem,hcan,hwf.removed,hwf.cancelled,fun fulfilled hlock => ?_,?_,hall,hmap,?_⟩
  · have hlast := hlock b (mem_concat_self)
    omega
  · rw [billedLine_stored,hbil,hcan]
  · exact hbil.symm.trans hsum

/-- Five ordered units, one cancelled by a refund: an edit to two, one back to
seven and one to three. -/
theorem stored_quantities_up_and_down : (reconcileAll ⟨5,1,0⟩ ([2,7]++[3])).quantity=7 ∧
    (reconcileAll ⟨5,1,0⟩ ([2,7]++[3])).editRemovedQty=7-3 := by
  have h := stored_quantities_closed_form ⟨5,1,0⟩ ⟨by decide,by decide,by decide⟩ [2,7] 3
    (by decide) ()
  exact ⟨h.1,h.2.1⟩

end SellRight.LineQuantity
