import Mathlib.Data.String.Basic
import SellRight.EditRefunds

/-!
# Units an order edit removes and their refund

`removedUnits` reports the billed units an edit took off existing lines with the
money they carried, and `allocateEditRefundLines` splits the edit's refund over
them, in line order and capped at both the unit amounts and the refund.
-/

namespace SellRight.OrderEditRefunds

open List
open EditRefunds (allocate editRefundLines)
open RefundRequests (EditLine)

/-- A stored line before the edit. -/
structure LineSnap where
  id : Option String
  sku : String
  (quantity lineTotal : ℤ)

/-- A working line, with the row it stands for. -/
structure WLine where
  key : String
  id : Option String
  quantity : ℤ

/-- The line total of a repriced working line. -/
structure PricedLine where
  key : String
  lineTotal : ℤ

structure RemovedUnit where
  (orderLineId sku : String)
  (quantity amount : ℤ)
  deriving DecidableEq

/-- The snapshot `byId` holds for a working line: the last one of its id. -/
def snapOf (before : List LineSnap) (l : WLine) : Option LineSnap :=
  if l.id=none∨l.id=some "" then none else before.reverse.find? fun b => decide (b.id=l.id)

/-- Units this edit removes, per existing line; none when a line has no price. -/
def removedUnits (before : List LineSnap) (perLine : List PricedLine) :
    List WLine→Option (List RemovedUnit)
  | [] => some []
  | l::working =>
    match snapOf before l with
    | none => removedUnits before perLine working
    | some b =>
      if b.quantity≤l.quantity then removedUnits before perLine working
      else
        match perLine.find? fun x => decide (x.key=l.key) with
        | none => none
        | some after => (removedUnits before perLine working).map
            (⟨b.id.getD "",b.sku,b.quantity-l.quantity,max 0 (b.lineTotal-after.lineTotal)⟩::·)

/-- The columns of a unit that its refund reads. -/
def RemovedUnit.line (u : RemovedUnit) : EditLine := ⟨u.orderLineId,u.quantity,u.amount⟩

/-- Split a refund over removed units; line ids are compared as texts. -/
def allocateEditRefundLines (units : List RemovedUnit) (refundAmount : ℤ) : List EditLine×ℤ :=
  let lines := editRefundLines (units.map RemovedUnit.line) refundAmount
  (lines,(lines.map EditLine.amount).sum)

/-- The billed quantity of an existing line went down. -/
def wentDown (before : List LineSnap) (l : WLine) : Bool :=
  (snapOf before l).any fun b => l.quantity<b.quantity

/-- What a unit reports of the working line it comes from. -/
structure Reports (before : List LineSnap) (l : WLine) (u : RemovedUnit) : Prop where
  line : l.id=some u.orderLineId
  quantity : ∃ b,snapOf before l=some b∧u.quantity=b.quantity-l.quantity∧0<u.quantity
  amount : 0≤u.amount

theorem snapOf_id {before : List LineSnap} {l : WLine} {b : LineSnap}
    (h : snapOf before l=some b) : l.id=some (b.id.getD "") := by
  unfold snapOf at h
  split_ifs at h with hno
  have hid : b.id=l.id := by simpa using find?_some h
  cases hl : l.id with
  | none => exact absurd (.inl hl) hno
  | some => rw [hid,hl,Option.getD_some]

section
variable {before : List LineSnap} {perLine : List PricedLine} {working : List WLine}

/-- The units are those of the lines that went down, in their order. -/
theorem removedUnits_reports : ∀ {units},removedUnits before perLine working=some units→
      Forall₂ (Reports before) (working.filter (wentDown before)) units := by
  induction working with
  | nil =>
    intro units h
    cases h
    exact .nil
  | cons l _ ih =>
    intro units h
    rw [removedUnits] at h
    rw [filter_cons,wentDown]
    cases hb : snapOf before l with
    | none =>
      rw [hb] at h
      exact ih h
    | some b =>
      rw [hb] at h
      dsimp only [Option.any_some] at h ⊢
      split_ifs at h with hle
      · rw [if_neg (by simpa using hle)]
        exact ih h
      rw [if_pos (by simpa using hle)]
      cases hf : perLine.find? fun x => decide (x.key=l.key) with
      | none =>
        rw [hf] at h
        cases h
      | some =>
        rw [hf] at h
        obtain ⟨rest,hrest,rfl⟩ := Option.map_eq_some_iff.mp h
        exact .cons ⟨snapOf_id hb,⟨b,hb,rfl,by dsimp only; omega⟩,le_max_left _ _⟩ (ih hrest)

/-- Priced lines are enough to report. -/
theorem removedUnits_priced (h : ∀ l∈working,∃ x∈perLine,x.key=l.key) :
    (removedUnits before perLine working).isSome=true := by
  induction working with
  | nil => rfl
  | cons l _ ih =>
    have hrest := ih fun other ho => h other (mem_cons_of_mem _ ho)
    obtain ⟨x,hx,hkey⟩ := h l mem_cons_self
    have hfind : (perLine.find? fun x => decide (x.key=l.key)).isSome=true :=
      find?_isSome.mpr ⟨x,hx,decide_eq_true hkey⟩
    obtain ⟨after,hafter⟩ := Option.isSome_iff_exists.mp hfind
    rw [removedUnits,hafter]
    cases snapOf before l with
    | none => exact hrest
    | some =>
      dsimp only
      split_ifs
      · exact hrest
      · rw [Option.isSome_map]
        exact hrest

end

/-- The refund line of a unit: its units, for at most the unit's amount. -/
structure Within (u part : EditLine) : Prop where
  line : part.orderLineId=u.orderLineId
  quantity : part.quantity=u.quantity
  amount : 0≤part.amount∧part.amount≤u.amount

/-- The money goes to the units in turn, as far as it reaches. -/
theorem allocate_spec {units : List EditLine} : ∀ {left : ℤ},0≤left→(∀ u∈units,0≤u.amount)→
    Forall₂ Within units (allocate left units) ∧
    ((allocate left units).map EditLine.amount).sum=min left (units.map EditLine.amount).sum := by
  induction units with
  | nil => exact fun hle _ => ⟨.nil,(min_eq_right hle).symm⟩
  | cons u units ih =>
    intro left hle hall
    have hu := hall u mem_cons_self
    obtain ⟨hrest,hsum⟩ := @ih (left-min u.amount left) (by omega)
      fun other ho => hall other (mem_cons_of_mem _ ho)
    have hpos : 0≤(units.map EditLine.amount).sum :=
      sum_nonneg fun x hx => by
        obtain ⟨other,ho,rfl⟩ := mem_map.mp hx
        exact hall other (mem_cons_of_mem _ ho)
    rw [allocate]
    refine ⟨.cons ⟨rfl,rfl,?_,min_le_left _ _⟩ hrest,?_⟩
    · exact le_min hu hle
    · rw [map_cons,sum_cons,map_cons,sum_cons,hsum]
      dsimp only
      omega

/-- Units in the order of their line ids. -/
def inLineOrder (units : List EditLine) : List EditLine :=
  units.insertionSort fun a b => a.orderLineId≤b.orderLineId

theorem inLineOrder_perm {units other : List EditLine} (hp : other.Perm units)
    (hnd : (units.map EditLine.orderLineId).Nodup) : inLineOrder other=inLineOrder units := by
  have hsame : (inLineOrder other).Perm (inLineOrder units) :=
    (perm_insertionSort _ _).trans (hp.trans (perm_insertionSort _ _).symm)
  refine Perm.eq_of_pairwise (fun a b ha hb hab hba => ?_) (pairwise_insertionSort _ _)
    (pairwise_insertionSort _ _) hsame
  have hin : ∀ {x},x∈inLineOrder other→x∈units :=
    fun hx => hp.mem_iff.mp ((mem_insertionSort _).mp hx)
  exact inj_on_of_nodup_map hnd (hin ha) ((mem_insertionSort _).mp hb) (le_antisymm hab hba)

/-- The refund lines of units as an edit reports them. -/
theorem allocateEditRefundLines_spec {units : List RemovedUnit} (refundAmount : ℤ)
    (hu : ∀ u∈units,0<u.quantity∧0≤u.amount) : (∃ sorted,sorted.Perm (units.map RemovedUnit.line) ∧
      Forall₂ Within sorted (allocateEditRefundLines units refundAmount).1) ∧
    (allocateEditRefundLines units refundAmount).2 =
      min (max 0 refundAmount) (units.map RemovedUnit.amount).sum := by
  have hperm := perm_insertionSort (fun a b : EditLine => a.orderLineId≤b.orderLineId)
    (units.map RemovedUnit.line)
  have hall : ∀ u∈inLineOrder (units.map RemovedUnit.line),0<u.quantity∧0≤u.amount := by
    intro u hin
    obtain ⟨unit,hunit,rfl⟩ := mem_map.mp (hperm.mem_iff.mp hin)
    exact hu unit hunit
  have hkeep : (inLineOrder (units.map RemovedUnit.line)).filter
      (fun unit => decide (0<unit.quantity))=inLineOrder (units.map RemovedUnit.line) :=
    filter_eq_self.mpr fun u hin => decide_eq_true (hall u hin).1
  have hlines : (allocateEditRefundLines units refundAmount).1 =
      allocate (max 0 refundAmount) (inLineOrder (units.map RemovedUnit.line)) :=
    congrArg (allocate (max 0 refundAmount)) hkeep
  obtain ⟨hwithin,hsum⟩ := allocate_spec (le_max_left 0 refundAmount) fun u hin => (hall u hin).2
  refine ⟨⟨_,hperm,hlines ▸ hwithin⟩,?_⟩
  have htot : ((inLineOrder (units.map RemovedUnit.line)).map EditLine.amount).sum =
      (units.map RemovedUnit.amount).sum := by
    have hsame := (hperm.map EditLine.amount).sum_eq
    rw [map_map] at hsame
    exact hsame
  rw [← htot,← hsum,← hlines]
  rfl

/-- Edit refunds attribute removed units soundly: the units are the lines that went
down, and a refund is split over them within their amounts, whatever their order. -/
theorem edit_refunds_attribute (before : List LineSnap) (perLine : List PricedLine)
    (working : List WLine) : (∀ units,removedUnits before perLine working=some units→
      Forall₂ (Reports before) (working.filter (wentDown before)) units) ∧
    ((∀ l∈working,∃ x∈perLine,x.key=l.key)→ (removedUnits before perLine working).isSome=true) ∧
    ∀ units : List RemovedUnit,(∀ u∈units,0<u.quantity∧0≤u.amount)→
      (units.map RemovedUnit.orderLineId).Nodup→∀ refundAmount,
      (∃ sorted,sorted.Perm (units.map RemovedUnit.line) ∧
        Forall₂ Within sorted (allocateEditRefundLines units refundAmount).1) ∧
      (allocateEditRefundLines units refundAmount).2 =
        min (max 0 refundAmount) (units.map RemovedUnit.amount).sum∧∀ other,other.Perm units→
        allocateEditRefundLines other refundAmount=allocateEditRefundLines units refundAmount := by
  refine ⟨fun _ => removedUnits_reports,removedUnits_priced,fun units hu hnd amount => ?_⟩
  obtain ⟨hlines,hsum⟩ := allocateEditRefundLines_spec amount hu
  refine ⟨hlines,hsum,fun other hp => ?_⟩
  have hids : ((units.map RemovedUnit.line).map EditLine.orderLineId).Nodup := by
    rw [map_map]
    exact hnd
  have heq := inLineOrder_perm (hp.map RemovedUnit.line) hids
  unfold inLineOrder at heq
  unfold allocateEditRefundLines editRefundLines
  rw [heq]

/-- A line of three units reduced to one, refunded with less than it carried. -/
theorem edit_refunds_attribute_short :
    removedUnits [⟨some "a","SKU",3,900⟩] [⟨"a",300⟩] [⟨"a",some "a",1⟩] =
      some [⟨"a","SKU",2,600⟩] ∧
    (allocateEditRefundLines [⟨"a","SKU",2,600⟩] 450).2=min (max 0 450) 600 :=
  ⟨by decide +kernel,((edit_refunds_attribute [] [] []).2.2 [⟨"a","SKU",2,600⟩]
    (by decide) (by decide) 450).2.1⟩

end SellRight.OrderEditRefunds
