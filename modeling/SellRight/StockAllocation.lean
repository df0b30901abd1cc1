import SellRight.RunHistory
import SellRight.StockRelease

/-!
# Conservation of allocated stock

Placement reserves the units of some lines and marks them. Every other
operation takes open units from lines and subtracts as much from the stock
rows, whether or not those units were reserved. The allocated units of a
variant therefore stay the open units of its reserved lines exactly as long as
no step takes units of unreserved lines while reserved units of other lines
are allocated.
-/

namespace SellRight.StockAllocation

open RunHistory RowTable KeyedRecord OrderLifecycle StockStore StockRelease FallibleSteps List

/-- Allocated units are the open units of reserved lines and lie within the
units on hand. -/
def Conserved (s : Store) : Prop :=
  ∀ row∈s.stock, (row.allocated : ℤ)=reservedOpen s row.variantId∧row.allocated≤row.onHand

/-- Units of unreserved lines are taken only from variants whose allocated
units the step takes altogether. -/
def CoversUnreserved (s : Store) (entries : List (OrderLine×ℕ)) : Prop :=
  ∀ row∈s.stock, unreservedTaken s.reservedLines row.variantId entries=0 ∨
    row.allocated≤reservedTaken s.reservedLines row.variantId entries

section Taking

variable {s next : Store} {entries : List (OrderLine×ℕ)}

/-- Open units of reserved lines are not negative. -/
theorem reservedOpen_nonneg (hval : Valid s) (variantId : String) : 0≤reservedOpen s variantId := by
  rw [reservedOpen_eq]
  apply sum_nonneg
  intro units hun
  obtain ⟨line,hln,rfl⟩ := mem_map.mp hun
  have hwit := (hval.lines line hln).within
  rw [openShare]
  split
  · rw [openUnits]
    omega
  · exact le_refl 0

/-- Taking units keeps the allocated units conserved exactly when unreserved
units are covered. -/
theorem Released.conserved_iff (hrel : Released s next entries) (hcon : Conserved s) :
    Conserved next ↔ CoversUnreserved s entries := by
  obtain ⟨write,hsto,hwri⟩ := hrel.stock
  have hrow : ∀ row∈s.stock, ((write row).allocated=reservedOpen next (write row).variantId ↔
      unreservedTaken s.reservedLines row.variantId entries=0 ∨
        row.allocated≤reservedTaken s.reservedLines row.variantId entries) := by
    intro row hmem
    obtain ⟨hid,hall,-⟩ := hwri row
    have hbef := (hcon row hmem).1
    have hope := hrel.opened row.variantId
    have hnon := reservedOpen_nonneg hrel.valid row.variantId
    have hun := unitsTaken_eq s.reservedLines row.variantId entries
    rw [hid,hall,hun]
    omega
  constructor
  · intro hnx row hmem
    exact (hrow row hmem).mp (hnx (write row) (hsto ▸ mem_map_of_mem hmem)).1
  · intro hcov row hmem
    rw [hsto] at hmem
    obtain ⟨old,hold,rfl⟩ := mem_map.mp hmem
    exact ⟨(hrow old hold).mpr (hcov old hold),(hwri old).2.2 (hcon old hold).2⟩

end Taking

section Orders

variable {s : Store}

theorem reservedTaken_openEntries (s : Store) (reserved : List String) (variantId orderId : String) :
    (reservedTaken reserved variantId (openEntries s orderId) : ℤ) =
      (s.lines.map fun line => if decide (line.orderId=orderId)=true then
        (if decide (line.variantId=some variantId)&&decide (line.id∈reserved) then
          (line.openQty : ℤ) else 0) else 0).sum := by
  rw [← sum_map_filter,reservedTaken,openEntries,linesOf]
  generalize s.lines.filter (fun line => decide (line.orderId=orderId))=lines
  induction lines with
  | nil => rfl
  | cons _ _ ih =>
    simp only [map_cons,filter_cons,sum_cons] at ih ⊢
    split
    · rw [map_cons,sum_cons,Nat.cast_add,ih]
    · rw [ih,zero_add]

theorem cancelUnpaid_released (hval : Valid s) {orderId : String} {next : Store}
    (hcan : cancelUnpaidOrderInSet s orderId=.ok next) :
    Released s next (openEntries s orderId) := by
  simp only [cancelUnpaidOrderInSet,bind_eq_ok] at hcan
  obtain ⟨order,-,hcan⟩ := hcan
  split_ifs at hcan
  cases hcan
  set cancelled := fun line : OrderLine => {line with
    cancelledQty := line.quantity-line.fulfilledQty}
  set cancels := fun line : OrderLine => decide (line.orderId=orderId)&&decide (0<line.openQty)
  have hwri : ∀ line∈s.lines, cancels line=true → TakesUnits cancelled line line.openQty := by
    intro line hln _
    have hop := (hval.lines line hln).open_eq
    refine ⟨rfl,rfl,rfl,rfl,rfl,?_,le_refl _,?_⟩ <;>
    · simp only [cancelled]
      omega
  refine ⟨rfl,⟨?_,?_,?_⟩,?_,?_,?_⟩
  · have hids : (updateWhere cancels cancelled s.lines).map OrderLine.id =
        s.lines.map OrderLine.id := map_updateWhere _ _ fun _ _ => rfl
    exact hids ▸ hval.lineIds
  · have hids : (s.stock.map (releaseHeld (heldUnits (linesOf s orderId)))).map
        StockRow.variantId=s.stock.map StockRow.variantId := by
      rw [map_map]
      apply map_congr_left
      intro row _
      change (releaseHeld _ row).variantId=row.variantId
      rw [releaseHeld]
      split <;> rfl
    exact hids ▸ hval.stockIds
  · intro line hln
    rcases mem_updateWhere.mp hln with ⟨old,hold,hmt,rfl⟩|⟨hold,-⟩
    · have htak := hwri old hold hmt
      have hold' := hval.lines old hold
      have hop := hold'.open_eq
      exact ⟨hold'.removed.trans htak.cancelled,by simp only [cancelled]; omega⟩
    · exact hval.lines line hold
  · intro line hln
    rcases mem_updateWhere.mp hln with ⟨old,hold,hmt,rfl⟩|⟨hold,-⟩
    · have htak := hwri old hold hmt
      refine ⟨old,hold,⟨htak.id,htak.order,htak.quantity,htak.removed,htak.fulfilled⟩,.inr ?_⟩
      rw [Bool.and_eq_true] at hmt
      rw [openEntries,map_map]
      exact mem_map.mpr ⟨old,mem_filter.mpr ⟨hold,hmt.1⟩,rfl⟩
    · exact ⟨line,hold,.refl line,.inl rfl⟩
  · intro variantId
    have hsha : ∀ line∈s.lines,
        openShare s.reservedLines variantId (if cancels line=true then cancelled line else line) +
          (if decide (line.orderId=orderId)=true then
            (if decide (line.variantId=some variantId) &&
              decide (line.id∈s.reservedLines) then (line.openQty : ℤ) else 0) else 0) =
        openShare s.reservedLines variantId line := by
      intro line hln
      have hop := (hval.lines line hln).open_eq
      by_cases hord : line.orderId=orderId
      · by_cases hpos : 0<line.openQty
        · simp only [cancels,cancelled,hord,hpos,decide_true,Bool.and_self,if_true,openShare,openUnits]
          split <;> omega
        · simp only [cancels,hord,hpos,decide_true,decide_false,Bool.and_false,
            Bool.false_eq_true,if_false,if_true]
          split <;> omega
      · simp [cancels,hord]
    rw [eq_sub_iff_add_eq,reservedOpen_eq,reservedOpen_eq,reservedTaken_openEntries]
    change ((updateWhere _ _ s.lines).map _).sum+_=_
    rw [updateWhere,map_map,← sum_map_add]
    exact congrArg List.sum (map_congr_left hsha)
  · refine ⟨releaseHeld (heldUnits (linesOf s orderId)),rfl,?_⟩
    intro row
    have hhd := heldUnits_get (linesOf s orderId) row.variantId
    rw [releaseHeld]
    split
    · next units hget =>
      rw [hget,Option.getD_some] at hhd
      have hlos := releaseUnits_loses units
      refine ⟨rfl,?_,hlos.covered row⟩
      rw [hlos.allocated,hhd]
      rfl
    · next hget =>
      rw [hget,Option.getD_none] at hhd
      refine ⟨rfl,?_,fun h => h⟩
      rw [openEntries,← hhd]
      rfl

/-- Retiring the lines of an order only lowers stock rows. -/
theorem purgeLines_stock (lines : List OrderLine) (s : Store) :
    (lines.foldl purgeLine s).lines=s.lines ∧
      (lines.foldl purgeLine s).reservedLines=s.reservedLines ∧
      ∃ write : StockRow → StockRow, (lines.foldl purgeLine s).stock=s.stock.map write ∧
        ∀ row, (write row).variantId=row.variantId∧(write row).allocated =
            row.allocated-unitsTaken row.variantId (lines.map fun line => (line,line.openQty)) ∧
          (row.allocated≤row.onHand→(write row).allocated≤(write row).onHand) := by
  induction lines generalizing s with
  | nil => exact ⟨rfl,rfl,id,(map_id _).symm,fun row => ⟨rfl,rfl,fun h => h⟩⟩
  | cons line lines ih =>
    obtain ⟨hlns,hres,write,hsto,hwri⟩ := ih (purgeLine s line)
    have hone : ∃ once : StockRow → StockRow, (purgeLine s line).stock=s.stock.map once ∧
        ∀ row, (once row).variantId=row.variantId ∧
          (once row).allocated=row.allocated-unitsTaken row.variantId [(line,line.openQty)] ∧
          (row.allocated≤row.onHand→(once row).allocated≤(once row).onHand) := by
      rw [purgeLine]
      split
      · next variantId hvar =>
        split_ifs with hz
        · refine ⟨fun row => if decide (row.variantId=variantId) then
            releaseUnits line.openQty row else row,rfl,?_⟩
          intro row
          simp only [unitsTaken,filter_cons,filter_nil,hvar]
          by_cases hrow : row.variantId=variantId
          · rw [if_pos (by simpa using hrow),if_pos (by simp [hrow])]
            have hlos := releaseUnits_loses line.openQty
            exact ⟨rfl,by simpa using hlos.allocated row,hlos.covered row⟩
          · rw [if_neg (by simpa using hrow),if_neg (by simp [Ne.symm hrow])]
            exact ⟨rfl,rfl,fun h => h⟩
        have hop : line.openQty=0 := by omega
        refine ⟨id,(map_id _).symm,?_⟩
        intro row
        simp only [unitsTaken,filter_cons,filter_nil,hop]
        split <;> simp
      · next hvar =>
        refine ⟨id,(map_id _).symm,?_⟩
        simp [unitsTaken,hvar]
    have htab : (purgeLine s line).lines=s.lines ∧
        (purgeLine s line).reservedLines=s.reservedLines := by
      rw [purgeLine]
      split
      · split <;> exact ⟨rfl,rfl⟩
      · exact ⟨rfl,rfl⟩
    obtain ⟨once,hmid,honc⟩ := hone
    rw [foldl_cons]
    refine ⟨hlns.trans htab.1,hres.trans htab.2,write ∘ once,?_,?_⟩
    · rw [hsto,hmid,map_map]
    intro row
    obtain ⟨hid,hall,hbou⟩ := honc row
    obtain ⟨hid',hall',hbou'⟩ := hwri (once row)
    refine ⟨hid'.trans hid,?_,fun h => hbou' (hbou h)⟩
    change (write (once row)).allocated=_
    have hspl : unitsTaken row.variantId ((line::lines).map fun line => (line,line.openQty)) =
        unitsTaken row.variantId [(line,line.openQty)] +
          unitsTaken row.variantId (lines.map fun line => (line,line.openQty)) := by
      simp only [unitsTaken,map_cons,filter_cons,filter_nil]
      split <;> simp
    rw [hall',hall,hid,hspl,Nat.sub_sub]

theorem purge_released (hval : Valid s) (orderId : String) :
    Released s (purgeOrderInSet s orderId) (openEntries s orderId) := by
  obtain ⟨hlns,hres,write,hsto,hwri⟩ := purgeLines_stock (linesOf s orderId) s
  have hkp : (purgeOrderInSet s orderId).lines =
      s.lines.filter fun line => line.orderId≠orderId := by
    rw [← hlns]
    rfl
  have hrs : (purgeOrderInSet s orderId).stock=s.stock.map write := hsto
  have hmar : (purgeOrderInSet s orderId).reservedLines=s.reservedLines := hres
  refine ⟨hmar,⟨?_,?_,?_⟩,?_,?_,write,hrs,hwri⟩
  · rw [hkp]
    exact hval.lineIds.sublist (filter_sublist.map OrderLine.id)
  · have hids : (s.stock.map write).map StockRow.variantId=s.stock.map StockRow.variantId := by
      rw [map_map]
      exact map_congr_left fun row _ => (hwri row).1
    rw [hrs,hids]
    exact hval.stockIds
  · intro line hln
    rw [hkp] at hln
    exact hval.lines line (mem_of_mem_filter hln)
  · rw [hkp]
    exact .subset (fun _ hln => mem_of_mem_filter hln) _
  · intro variantId
    rw [eq_sub_iff_add_eq,reservedOpen_eq,reservedOpen_eq,reservedTaken_openEntries,hkp,hmar,
      sum_map_filter,← sum_map_add]
    apply congrArg List.sum
    apply map_congr_left
    intro line hln
    have hop := (hval.lines line hln).open_eq
    by_cases hord : line.orderId=orderId
    · simp only [hord,ne_eq,not_true_eq_false,decide_false,Bool.false_eq_true,if_false,
        decide_true,if_true,openShare,openUnits]
      split <;> omega
    · simp [hord]

end Orders

section Placing

variable {s : Store}

/-- Units of a variant among items to reserve. -/
def unitsOf (variantId : String) (items : List PhysicalItem) : ℕ :=
  ((items.filter fun entry => decide (entry.variant.id=variantId)).map
    fun entry => entry.item.quantity).sum

section
variable {items : List PhysicalItem} {stock final : List StockRow}

/-- A reservation without failures had none before. -/
theorem reserve_failed {failed : List ℕ} (hfol : items.foldl reserveItem (stock,failed)=(final,[])) : failed=[] := by
  induction items generalizing stock failed with
  | nil => exact (Prod.mk.inj hfol).2
  | cons _ _ ih =>
    have hno := ih hfol
    split at hno
    · exact hno
    · simp at hno

/-- A reservation without failures adds the units of every item to the stock
row of its variant and stays within the units on hand. -/
theorem reserve_spec (hnod : (stock.map StockRow.variantId).Nodup)
    (hfol : items.foldl reserveItem (stock,[])=(final,[])) :
    ∃ write : StockRow → StockRow, final=stock.map write∧∀ row∈stock,
      (write row).variantId=row.variantId ∧
      (write row).allocated=row.allocated+unitsOf row.variantId items ∧
      (row.allocated≤row.onHand→(write row).allocated≤(write row).onHand) := by
  induction items generalizing stock with
  | nil =>
    cases hfol
    exact ⟨id,(map_id _).symm,fun row _ => ⟨rfl,rfl,fun h => h⟩⟩
  | cons entry _ ih =>
    rw [foldl_cons] at hfol
    set fits := canReserve entry.variant.id entry.item.quantity
    have hct : stock.countP fits=1 := by
      have hno := reserve_failed hfol
      by_contra hot
      rw [if_neg hot] at hno
      cases hno
    set taken := fun row : StockRow => {row with allocated := row.allocated+entry.item.quantity}
    have hstep : reserveItem (stock,[]) entry=(updateWhere fits taken stock,[]) := by
      simp only [reserveItem,fits,hct,if_true]
      rfl
    rw [hstep] at hfol
    have hids : (updateWhere fits taken stock).map StockRow.variantId=stock.map StockRow.variantId :=
      map_updateWhere _ _ fun _ _ => rfl
    obtain ⟨write,hfin,hwrite⟩ := ih (hids ▸ hnod) hfol
    obtain ⟨found,hfd,hmt⟩ := countP_pos_iff.mp (by omega : 0<stock.countP fits)
    have hfs : ∀ row∈stock, row.variantId=entry.variant.id→fits row=true := by
      intro row hrow heq
      have hfou : found.variantId=entry.variant.id := by
        exact of_decide_eq_true (Bool.and_eq_true_iff.mp hmt).1
      rw [eq_of_key_eq StockRow.variantId hnod hrow hfd (heq.trans hfou.symm)]
      exact hmt
    refine ⟨fun row => write (if fits row then taken row else row),?_,?_⟩
    · rw [hfin,updateWhere,map_map]
      rfl
    intro row hrow
    by_cases heq : row.variantId=entry.variant.id
    · have hres := hfs row hrow heq
      have hwri := hwrite (taken row) (mem_updateWhere.mpr (.inl ⟨row,hrow,hres,rfl⟩))
      simp only [hres,if_true]
      refine ⟨hwri.1,?_,?_⟩
      · rw [hwri.2.1,unitsOf,unitsOf,filter_cons,if_pos (by simp [heq]),map_cons,sum_cons]
        simp only [taken]
        omega
      · intro _
        exact hwri.2.2 (of_decide_eq_true (Bool.and_eq_true_iff.mp hres).2)
    · have hski : fits row=false := by
        simp [fits,canReserve,heq]
      have hwri := hwrite row (mem_updateWhere.mpr (.inr ⟨hrow,hski⟩))
      simp only [hski,Bool.false_eq_true,if_false]
      refine ⟨hwri.1,?_,hwri.2.2⟩
      rw [hwri.2.1,unitsOf,unitsOf,filter_cons,if_neg (by simp [Ne.symm heq])]

end

section
variable (bySku : String → Option Variant) (variantId : String)

/-- Units of one item that placement reserves for a variant. -/
def reservedUnits (item : ReservableItem) : ℕ :=
  if (bySku item.sku).any fun variant => isReservable variant&&decide (variant.id=variantId) then
    item.quantity
  else 0

theorem unitsOf_physicalItems (items : List ReservableItem) : unitsOf variantId (physicalItems items bySku) =
      (items.map (reservedUnits bySku variantId)).sum := by
  have hgen : ∀ (items : List ReservableItem) (start : ℕ),
      unitsOf variantId ((items.zipIdx start).filterMap (physicalItem bySku)) =
        (items.map (reservedUnits bySku variantId)).sum := by
    intro items
    induction items with
    | nil => intro start; rfl
    | cons item _ ih =>
      intro start
      have hrt := ih (start+1)
      rw [zipIdx_cons,filterMap_cons,map_cons,sum_cons,← hrt]
      rw [physicalItem,reservedUnits]
      cases hfin : bySku item.sku with
      | none => simp
      | some variant =>
        by_cases hres : isReservable variant=true
        · by_cases hid : variant.id=variantId
          · simp [unitsOf,hres,hid]
          · simp [unitsOf,hres,hid]
        · simp [hres]
  exact hgen items 0

end

/-- The order of the reservation does not matter for its units. -/
theorem unitsOf_perm {variantId : String} {items others : List PhysicalItem}
    (hper : items.Perm others) : unitsOf variantId items=unitsOf variantId others :=
  ((hper.filter _).map _).sum_eq

/-- A reservation that succeeded had no failures. -/
theorem reserveStockOrThrow_eq_ok {stock final : List StockRow} {items : List ReservableItem}
    {bySku : String → Option Variant} {changed : Bool} (hnod : (stock.map StockRow.variantId).Nodup)
    (hres : reserveStockOrThrow stock items bySku=.ok (changed,final)) :
    ∃ write : StockRow → StockRow, final=stock.map write∧∀ row∈stock,
      (write row).variantId=row.variantId∧(write row).allocated=row.allocated +
        (items.map (reservedUnits bySku row.variantId)).sum ∧
      (row.allocated≤row.onHand→(write row).allocated≤(write row).onHand) := by
  simp only [reserveStockOrThrow] at hres
  split_ifs at hres with hem
  cases hres
  obtain ⟨write,hfin,hwri⟩ := reserve_spec hnod (Prod.ext rfl (List.isEmpty_iff.mp hem))
  refine ⟨write,hfin,fun row hrow => ?_⟩
  obtain ⟨hid,hall,hbou⟩ := hwri row hrow
  refine ⟨hid,?_,hbou⟩
  rw [hall,unitsOf_perm (perm_insertionSort _ _),unitsOf_physicalItems]

theorem placed_openUnits (bySku : String → Option Variant) (variantId orderId : String)
    {entries : List (ReservableItem×String)} (reserved : List String)
    (hmar : ∀ entry∈entries, (entry.2∈reserved ↔ itemReserved bySku entry=true)) :
    ((entries.map (placedLine orderId bySku)).map (openShare reserved variantId)).sum =
      (((entries.map Prod.fst).map (reservedUnits bySku variantId)).sum : ℕ) := by
  induction entries with
  | nil => rfl
  | cons entry _ ih =>
    have hrt := ih fun other hot => hmar other (mem_cons_of_mem _ hot)
    have hmark := hmar entry (by simp)
    rw [map_cons,map_cons,sum_cons,hrt,map_cons,map_cons,sum_cons,Nat.cast_add]
    congr 1
    have hsha : openShare reserved variantId (placedLine orderId bySku entry) =
        if decide ((bySku entry.1.sku).map Variant.id=some variantId) &&
          itemReserved bySku entry then (entry.1.quantity : ℤ) else 0 := by
      simp [openShare,placedLine,openUnits,hmark]
    rw [hsha,itemReserved,reservedUnits]
    cases bySku entry.1.sku with
    | none => simp
    | some variant =>
      by_cases hres : isReservable variant=true
      · by_cases hid : variant.id=variantId
        · simp [hres,hid]
        · simp [hres,hid]
      · simp [hres]

/-- Placing an order keeps the tables valid and the allocated units
conserved. -/
theorem place_conserved (hval : Valid s) (hcon : Conserved s) {input : Placement}
    {next : Store} (hpla : place s input=.ok next) : Valid next∧Conserved next := by
  simp only [place] at hpla
  split at hpla
  · cases hpla
  rw [bind_eq_ok] at hpla
  obtain ⟨⟨changed,stock⟩,hrese,hpla⟩ := hpla
  obtain ⟨write,rfl,hwri⟩ := reserveStockOrThrow_eq_ok hval.stockIds hrese
  simp only at hpla
  split at hpla
  · cases hpla
  · next hks =>
    cases hpla
    simp only [not_or,not_not] at hks
    obtain ⟨-,hlen,hnod⟩ := hks
    obtain ⟨-,hnewI,hdis⟩ := nodup_append.mp hnod
    generalize hentr : input.items.zip input.lineIds=entries
    have hids : entries.map Prod.snd=input.lineIds := by rw [← hentr,map_snd_zip (by omega)]
    have hitems : entries.map Prod.fst=input.items := by rw [← hentr,map_fst_zip (by omega)]
    have hnewL : (entries.map (placedLine input.orderId (variantBySku s))).map OrderLine.id =
        input.lineIds := by
      rw [← hids,map_map]
      rfl
    have hrowI : (s.stock.map write).map StockRow.variantId=s.stock.map StockRow.variantId := by
      rw [map_map]
      exact map_congr_left fun row hrow => (hwri row hrow).1
    generalize hres : s.reservedLines.filter (fun id => decide (id∉input.lineIds)) ++
      (entries.filter (itemReserved (variantBySku s))).map Prod.snd=reserved
    have hmar : ∀ entry∈entries,
        (entry.2∈reserved ↔ itemReserved (variantBySku s) entry=true) := by
      intro entry hent
      have hkn : entry.2∈input.lineIds := hids ▸ mem_map_of_mem hent
      rw [← hres,mem_append]
      constructor
      · rintro (hold|hnew)
        · exact absurd hkn (by simpa using (mem_filter.mp hold).2)
        · obtain ⟨other,hot,heq⟩ := mem_map.mp hnew
          obtain ⟨hmem,hite⟩ := mem_filter.mp hot
          rw [← eq_of_key_eq Prod.snd (hids.symm ▸ hnewI) hmem hent heq]
          exact hite
      · intro hite
        exact .inr (mem_map_of_mem (mem_filter.mpr ⟨hent,hite⟩))
    have hkp : ∀ line∈s.lines, (line.id∈reserved ↔ line.id∈s.reservedLines) := by
      intro line hln
      have hfre : line.id∉input.lineIds := fun hnew => hdis _ (mem_map_of_mem hln) _ hnew rfl
      have hfor : line.id∉(entries.filter (itemReserved (variantBySku s))).map Prod.snd := by
        intro hnew
        obtain ⟨entry,hent,heq⟩ := mem_map.mp hnew
        exact hfre (hids ▸ heq ▸ mem_map_of_mem (mem_of_mem_filter hent))
      rw [← hres,mem_append,mem_filter]
      simp [hfre,hfor]
    refine ⟨⟨?_,?_,?_⟩,?_⟩
    · rw [map_append,hnewL]
      exact hnod
    · exact hrowI ▸ hval.stockIds
    · intro line hln
      rcases mem_append.mp hln with hold|hnew
      · exact hval.lines line hold
      · obtain ⟨entry,-,rfl⟩ := mem_map.mp hnew
        exact ⟨le_refl 0,Nat.zero_le _⟩
    · intro row hrow
      obtain ⟨old,hold,rfl⟩ := mem_map.mp hrow
      obtain ⟨hid,hall,hbou⟩ := hwri old hold
      refine ⟨?_,hbou (hcon old hold).2⟩
      have hsha : (s.lines.map (openShare reserved old.variantId)).sum =
          reservedOpen s old.variantId := by
        rw [reservedOpen_eq]
        apply congrArg List.sum
        apply map_congr_left
        intro line hln
        simp only [openShare,hkp line hln]
      rw [reservedOpen_eq,hid,hall,Nat.cast_add,(hcon old hold).1,← hsha]
      rw [map_append,sum_append,placed_openUnits _ _ _ _ hmar,hitems]

end Placing

/-- Units the stock effects of a refund take, if they are applied. -/
def effectEntries (s : Store) (refund : Refund) (proven : Bool) : List (OrderLine×ℕ) :=
  if refund.stockApplied || !proven then []
  else match refund.lines.foldlM (refundLineEffect refund.orderId) s with
    | .error _ => []
    | .ok _ => refundEntries refund.orderId s refund.lines

/-- Lines an accepted operation takes open units from. -/
def takenEntries (s : Store) : StockAction → List (OrderLine×ℕ)
  | .cancelUnpaid orderId => openEntries s orderId
  | .adminCancel orderId => openEntries s orderId
  | .bulkCancel orderId => openEntries s orderId
  | .fulfill orderId => openEntries s orderId
  | .importTracking orderId => openEntries s orderId
  | .purge orderId => openEntries s orderId
  | .createFulfillment orderId items => (checkShipment (linesOf s orderId) items []).getD []
  | .settleRefund refundId proven =>
    match s.refunds.find? fun refund => refund.id=refundId with
    | some refund => effectEntries (markSettled s refundId) refund proven
    | none => []
  | _ => []

/-- An operation that is accepted takes unreserved units only where it is
covered. -/
def TakesCovered (s : Store) (action : StockAction) : Prop :=
  ∀ next, runStock s action=.ok next → CoversUnreserved s (takenEntries s action)

section Steps

variable {s next : Store}

theorem effects_released (hval : Valid s) (refund : Refund) (proven : Bool) :
    Released s (applyRefundStockEffects s refund proven) (effectEntries s refund proven) := by
  unfold applyRefundStockEffects effectEntries
  split
  · exact .none hval rfl rfl rfl
  cases happ : refund.lines.foldlM (refundLineEffect refund.orderId) s with
  | error => exact .none hval rfl rfl rfl
  | ok applied =>
    have hrel := refundLines_released hval happ
    have hno : Released applied {applied with
        refunds := updateWhere (fun row => decide (row.id=refund.id))
          (fun row => {row with stockApplied := true}) applied.refunds} [] :=
      Released.none hrel.valid rfl rfl rfl
    have hmar := hrel.trans hno
    rwa [append_nil] at hmar

/-- A cancelled order keeps what its lines lost. -/
theorem Released.setState {entries : List (OrderLine×ℕ)} (hrel : Released s next entries)
    (orderId : String) (state : OrderState) : Released s (setState next orderId state) entries :=
  ⟨hrel.reserved,⟨hrel.valid.lineIds,hrel.valid.stockIds,hrel.valid.lines⟩,
    hrel.lines,hrel.opened,hrel.stock⟩

/-- Every accepted operation but a placement takes the units of its entries. -/
theorem runStock_released (hval : Valid s) {action : StockAction}
    (hpla : ∀ input, action≠.place input) (hrun : runStock s action=.ok next) :
    Released s next (takenEntries s action) := by
  cases action with
  | place input => exact absurd rfl (hpla input)
  | editVariant | failRefund =>
    cases hrun
    exact .none hval rfl rfl rfl
  | advanceOrder | requestRefund =>
    simp only [runStock,advanceOrder,requestRefund,bind_eq_ok] at hrun
    obtain ⟨order,-,hrun⟩ := hrun
    split_ifs at hrun
    cases hrun
    exact .none hval rfl rfl rfl
  | cancelUnpaid => exact cancelUnpaid_released hval hrun
  | adminCancel orderId | bulkCancel orderId =>
    simp only [runStock,adminCancel,bulkCancel,bind_eq_ok] at hrun
    obtain ⟨order,-,hrun⟩ := hrun
    split_ifs at hrun
    cases hrun
    exact Released.setState (released_order cancelLine_takes hval orderId) orderId .cancelled
  | fulfill orderId | importTracking orderId =>
    simp only [runStock,fulfill,importTracking,bind_eq_ok] at hrun
    obtain ⟨order,-,hrun⟩ := hrun
    split_ifs at hrun
    cases hrun
    exact released_order shipLine_takes hval orderId
  | createFulfillment =>
    simp only [runStock,createFulfillment,bind_eq_ok] at hrun
    obtain ⟨order,-,hrun⟩ := hrun
    split_ifs at hrun
    split at hrun
    · cases hrun
    · next entries hck =>
      split_ifs at hrun
      cases hrun
      obtain ⟨hmem,hdis⟩ := checkShipment_spec hck
      have hloo := released_foldl shipPart_takes hval (fun entry hent =>
        ⟨mem_of_mem_filter (hmem entry hent).1,(hmem entry hent).2.1⟩) hdis
      rw [map_id'] at hloo
      rw [takenEntries,hck]
      exact hloo
  | settleRefund refundId proven =>
    simp only [runStock,settleRefund] at hrun
    split at hrun
    · cases hrun
    · next refund hfin =>
      split_ifs at hrun
      cases hrun
      have hmar : Released s (markSettled s refundId) [] := .none hval rfl rfl rfl
      have heff := hmar.trans (effects_released hmar.valid refund proven)
      rw [takenEntries,hfin]
      exact heff
  | purge orderId =>
    cases hrun
    exact purge_released hval orderId

theorem stockStep_valid (hval : Valid s) (hcon : Conserved s) (action : StockAction) :
    Valid (stockStep s action).2 := by
  rw [stockStep]
  split
  · next next hrun =>
    cases action with
    | place => exact (place_conserved hval hcon hrun).1
    | _ => exact (runStock_released hval (fun _ => by simp) hrun).valid
  · exact hval

/-- One step keeps the allocated units conserved exactly when the units it
takes are covered. -/
theorem stockStep_conserved_iff (hval : Valid s) (hcon : Conserved s)
    (action : StockAction) : Conserved (stockStep s action).2 ↔ TakesCovered s action := by
  rw [stockStep]
  split
  · next next hrun =>
    have hcov : TakesCovered s action ↔ CoversUnreserved s (takenEntries s action) :=
      ⟨fun htak => htak next hrun,fun hcove _ _ => hcove⟩
    rw [hcov]
    by_cases hpla : ∃ input, action=.place input
    · obtain ⟨input,rfl⟩ := hpla
      refine iff_of_true (place_conserved hval hcon hrun).2 ?_
      intro row _
      exact .inl rfl
    · have hot : ∀ input, action≠.place input := fun input heq => hpla ⟨input,heq⟩
      exact Released.conserved_iff (runStock_released hval hot hrun) hcon
  · next error hrun =>
    refine iff_of_true hcon ?_
    intro next hok
    rw [hrun] at hok
    cases hok

end Steps

/-- In every run whose steps take unreserved units only where they are
covered, the allocated units of every variant are the open units of its
reserved lines and lie within the units on hand; and the first step that
takes others breaks this. -/
theorem allocated_conserved {start s : Store}
    {h : List (Event Store StockAction (StockResult Unit))} (hvalid : Valid start)
    (hconserved : Conserved start)
    (hrun : Run stockStep (fun _ s action => TakesCovered s action) start h s) :
    Conserved s∧∀ action, Conserved (stockStep s action).2 ↔ TakesCovered s action := by
  have hbo : Valid s∧Conserved s := by
    refine hrun.state_invariant (P := fun s => Valid s∧Conserved s) ⟨hvalid,hconserved⟩ ?_
    rintro _ s action ⟨hvalid,hconserved⟩ hcov
    exact ⟨stockStep_valid hvalid hconserved action,
      (stockStep_conserved_iff hvalid hconserved action).mpr hcov⟩
  exact ⟨hbo.2,stockStep_conserved_iff hbo.1 hbo.2⟩

/-- A store without orders. -/
def sampleStore : Store where
  variants := [⟨"variant-1", "pen",true,true,.physical⟩]
  stock := [⟨"variant-1",3,0⟩]
  orders := []
  lines := []
  refunds := []
  movements := []
  reservedLines := []

/-- Before any order nothing is allocated. -/
theorem sampleStore_conserved : Valid sampleStore∧Conserved sampleStore := by
  refine ⟨⟨by decide,by decide,by simp [sampleStore]⟩,?_⟩
  intro row hrow
  obtain rfl := mem_singleton.mp hrow
  decide

/-- A pre-order line reserves nothing; once the flag is lifted and another
order holds the units, cancelling the first order frees them. -/
theorem allocated_conserved_preorder : ∃ (h : List (Event Store StockAction (StockResult Unit)))
    (s : Store),Run stockStep (fun _ _ _ => True) sampleStore h s ∧
      s.stock=[⟨"variant-1",3,1⟩]∧reservedOpen s "variant-1" = 3∧¬ Conserved s := by
  refine ⟨_,_,Run.nil.play [.place ⟨"order-a",false,[⟨"pen",2⟩],["line-a"]⟩,
    .editVariant "variant-1" true false .physical,
    .place ⟨"order-b",false,[⟨"pen",3⟩],["line-b"]⟩,.cancelUnpaid "order-a"]
    (by simp [Admitted]),?_,?_,?_⟩
  · decide +kernel
  · decide +kernel
  · rw [Conserved]
    decide +kernel

/-- An order placed and shipped without pre-orders stays conserved. -/
theorem allocated_conserved_shipped : ∃ (h : List (Event Store StockAction (StockResult Unit)))
    (s : Store),Run stockStep (fun _ s action => TakesCovered s action) sampleStore h s ∧
      Conserved s∧s.stock=[⟨"variant-1",1,0⟩] := by
  have hnot : ∀ (s : Store) (action : StockAction), takenEntries s action=[] →
      TakesCovered s action := by
    intro s action hno next _ row _
    rw [hno]
    exact .inl rfl
  have hadm : Admitted stockStep (fun _ s action => TakesCovered s action) [] sampleStore
      [.editVariant "variant-1" true false .physical,
        .place ⟨"order-a",true,[⟨"pen",2⟩],["line-a"]⟩,.importTracking "order-a"] := by
    refine ⟨hnot _ _ rfl,hnot _ _ rfl,?_,trivial⟩
    intro next _ row hrow
    have hsto : row.variantId = "variant-1" := by
      have hrs : (stockStep (stockStep sampleStore
          (.editVariant "variant-1" true false .physical)).2
          (.place ⟨"order-a",true,[⟨"pen",2⟩],["line-a"]⟩)).2.stock=[⟨"variant-1",3,2⟩] := by
        decide +kernel
      rw [hrs] at hrow
      rw [mem_singleton.mp hrow]
    rw [hsto]
    exact .inl (by decide +kernel)
  have hpla := Run.nil.play _ hadm
  exact ⟨_,_,hpla,(allocated_conserved sampleStore_conserved.1 sampleStore_conserved.2 hpla).1,
    by decide +kernel⟩

end SellRight.StockAllocation
