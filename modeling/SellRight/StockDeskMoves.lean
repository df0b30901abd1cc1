import SellRight.StockRelease
import SellRight.StockDesk

/-!
# What operations move

Shipments take units from the stock rows and refunds put units back; both note
movements. What an operation does to the units on hand and to the movements of
a variant is said once, whatever the route, and sequences compose.
-/

namespace SellRight.StockDeskMoves

open RowTable OrderLifecycle StockStore StockRelease StockDesk FallibleSteps List

/-- Columns of a stock row that decide the units on hand. -/
def stockColumns (row : StockRow) : String×ℕ := (row.variantId,row.onHand)

theorem onHandOf_eq (s : Store) (v : String) : onHandOf s v=
    (((s.stock.map stockColumns).find? fun c => decide (c.1=v)).map Prod.snd).getD 0 := by
  rw [onHandOf,List.find?_map,Option.map_map]
  rfl

/-- Units that the movements of orders moved of a variant. -/
def movedUnits (s : Store) (v : String) : ℤ :=
  ((s.movements.filter fun m => decide (m.variantId=v)).map Movement.delta).sum

/-- Units put back for a variant. -/
def returnedTo (v : String) (units : List (String×ℕ)) : ℕ :=
  ((units.filter fun entry => decide (entry.1=v)).map Prod.snd).sum

/-- An operation shipped and put back units, noting the movements. -/
structure Moves (s next : Store) (out : List (OrderLine×ℕ)) (back : List (String×ℕ)) :
    Prop where
  rows : next.stock.map StockRow.variantId=s.stock.map StockRow.variantId
  onHand : ∀ v, onHandOf next v=onHandOf s v-unitsTaken v out +
    if v∈s.stock.map StockRow.variantId then returnedTo v back else 0
  moved : ∀ v, movedUnits next v=movedUnits s v-unitsTaken v out+returnedTo v back

theorem Moves.none {s next : Store} (hsto : next.stock.map stockColumns=s.stock.map stockColumns)
    (hmv : next.movements=s.movements) : Moves s next [] [] where
  rows := by
    have h := congrArg (List.map Prod.fst) hsto
    rwa [map_map,map_map] at h
  onHand := fun v => by
    rw [onHandOf_eq,hsto,← onHandOf_eq]
    simp [unitsTaken,returnedTo]
  moved := fun v => by simp [movedUnits,hmv,unitsTaken,returnedTo]

theorem unitsTaken_append (v : String) (a b : List (OrderLine×ℕ)) :
    unitsTaken v (a++b)=unitsTaken v a+unitsTaken v b := by
  simp only [unitsTaken,filter_append,map_append,sum_append]

theorem returnedTo_append (v : String) (a b : List (String×ℕ)) :
    returnedTo v (a++b)=returnedTo v a+returnedTo v b := by
  simp only [returnedTo,filter_append,map_append,sum_append]

/-- Shipments one after another. -/
theorem Moves.ship {s mid next : Store} {a b : List (OrderLine×ℕ)}
    (ha : Moves s mid a []) (hb : Moves mid next b []) : Moves s next (a++b) [] where
  rows := hb.rows.trans ha.rows
  onHand := fun v => by
    rw [hb.onHand,ha.onHand,unitsTaken_append]
    simp only [returnedTo,filter_nil,map_nil,sum_nil,ite_self,add_zero,Nat.sub_sub]
  moved := fun v => by
    rw [hb.moved,ha.moved,unitsTaken_append]
    push_cast
    simp only [returnedTo,filter_nil,map_nil,sum_nil,Nat.cast_zero]
    ring

/-- Returns one after another. -/
theorem Moves.putBack {s mid next : Store} {a b : List (String×ℕ)}
    (ha : Moves s mid [] a) (hb : Moves mid next [] b) : Moves s next [] (a++b) where
  rows := hb.rows.trans ha.rows
  onHand := fun v => by
    rw [hb.onHand,ha.onHand,ha.rows,returnedTo_append]
    simp only [unitsTaken,filter_nil,map_nil,sum_nil,Nat.sub_zero]
    split <;> omega
  moved := fun v => by
    rw [hb.moved,ha.moved,returnedTo_append]
    push_cast
    simp only [unitsTaken,filter_nil,map_nil,sum_nil,Nat.cast_zero]
    ring

/-- Units on hand after the rows of one variant were rewritten. -/
theorem onHandOf_writeStock (s : Store) (v w : String) (write : StockRow → StockRow)
    (hkey : ∀ row, (write row).variantId=row.variantId) :
    onHandOf (writeStock s v write) w=if w=v then
      ((s.stock.find? fun row => decide (row.variantId=v)).map fun row => (write row).onHand).getD 0
      else onHandOf s w := by
  unfold onHandOf writeStock
  rw [find_key_updateWhere StockRow.variantId v w hkey]
  split_ifs with hw
  · subst hw
    rw [Option.map_map]
    rfl
  · rw [Option.map_id_fun,id]

theorem rows_writeStock (s : Store) (v : String) (write : StockRow → StockRow)
    (hkey : ∀ row, (write row).variantId=row.variantId) :
    (writeStock s v write).stock.map StockRow.variantId=s.stock.map StockRow.variantId :=
  map_updateWhere _ _ fun row _ => hkey row

/-- Shipping some units of a line takes them from its variant. -/
theorem shipPart_moves (s : Store) (entry : OrderLine×ℕ) :
    Moves s (shipPart s entry) [entry] [] := by
  unfold shipPart
  cases hvar : entry.1.variantId with
  | none =>
    have hno : ∀ v, unitsTaken v [entry]=0 := fun v => by simp [unitsTaken,hvar]
    refine ⟨rfl,fun v => ?_,fun v => ?_⟩
    · rw [hno]
      simp [returnedTo,onHandOf,writeLine]
    · rw [hno]
      simp [returnedTo,movedUnits,writeLine]
  | some variantId =>
    have htk : ∀ v, unitsTaken v [entry]=if v=variantId then entry.2 else 0 := fun v => by
      by_cases hv : variantId=v
      · simp [unitsTaken,hvar,hv]
      · simp [unitsTaken,hvar,hv,Ne.symm hv]
    refine ⟨rows_writeStock _ _ _ fun _ => rfl,fun v => ?_,fun v => ?_⟩
    · have hwri := onHandOf_writeStock (writeLine s entry.1.id fun row =>
        {row with fulfilledQty := row.fulfilledQty+entry.2}) variantId v (shipUnits entry.2)
        fun _ => rfl
      rw [htk]
      simp only [returnedTo,filter_nil,map_nil,sum_nil,ite_self,add_zero]
      change onHandOf (writeStock _ variantId (shipUnits entry.2)) v=_
      rw [hwri]
      split_ifs with hv
      · rw [onHandOf,hv]
        cases hfd : s.stock.find? fun row => decide (row.variantId=variantId) with
        | none => simp [writeLine,hfd]
        | some => simp [writeLine,hfd,shipUnits]
      · rfl
    · rw [htk]
      simp only [movedUnits,noteShipped,returnedTo,filter_nil,map_nil,sum_nil]
      by_cases hv : v=variantId
      · simp [hv,writeStock,writeLine,sub_eq_add_neg]
      · simp [hv,Ne.symm hv,writeStock,writeLine]

/-- Shipping all that is open of a line takes it from its variant. -/
theorem shipLine_moves (s : Store) (line : OrderLine) :
    Moves s (shipLine s line) [(line,line.openQty)] [] := by
  unfold shipLine
  split
  · have hpar := shipPart_moves s (line,line.openQty)
    unfold shipPart at hpar
    cases hvar : line.variantId with
    | none | some =>
      rw [hvar] at hpar
      exact ⟨hpar.rows,hpar.onHand,hpar.moved⟩
  · have hz : ∀ v, unitsTaken v [(line,line.openQty)]=0 := fun v => by
      have hno : line.openQty=0 := by omega
      simp only [hno,unitsTaken,filter_cons,filter_nil]
      split <;> rfl
    exact ⟨rfl,fun v => by simp [hz,returnedTo],fun v => by simp [hz,returnedTo]⟩

/-- A loop of shipments. -/
theorem moves_foldl {α : Type*} {step : Store → α → Store} {entry : α → OrderLine×ℕ}
    (hstep : ∀ s item, Moves s (step s item) [entry item] []) (items : List α) (s : Store) :
    Moves s (items.foldl step s) (items.map entry) [] := by
  induction items generalizing s with
  | nil => exact .none rfl rfl
  | cons item _ ih => exact (hstep s item).ship (ih _)

end SellRight.StockDeskMoves
