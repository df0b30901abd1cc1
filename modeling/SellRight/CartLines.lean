import SellRight.CartStore

/-!
# Writing the lines of a cart

Quantities and SKUs before and after the writes of cart lines: what the
normalization of a request keeps, what the upserts add, and that the lines of
other carts stay.
-/

namespace SellRight.CartLines

open RowTable RowUpserts CartStore List

/-- Units a cart has of a SKU. -/
def quantityOf (s : Carts) (cartId sku : String) : ℤ :=
  tally lineKey CartLine.quantity (cartId,sku) s.lines

/-- Units a list of items has of a SKU. -/
def itemQuantity (items : List CartItem) (sku : String) : ℤ :=
  tally CartItem.sku CartItem.quantity sku items

/-- Items under distinct SKUs. -/
def Distinct (items : List CartItem) : Prop := (items.map CartItem.sku).Nodup

section Items

variable {items : List CartItem}

/-- The quantity under a SKU is the one entry's. -/
theorem quantityIn_eq (hdis : Distinct items) {item : CartItem} (hite : item∈items) :
    quantityIn items item.sku=item.quantity := by
  have hfd := find_key_self CartItem.sku hdis hite
  simp [quantityIn,hfd]

/-- A SKU without an entry has no units. -/
theorem quantityIn_none {sku : String} (hno : ∀ item∈items, item.sku≠sku) :
    quantityIn items sku=0 := by
  have hfd : items.find? (fun item => decide (item.sku=sku))=none := by
    refine List.find?_eq_none.mpr fun item hite heq => ?_
    exact hno item hite (of_decide_eq_true heq)
  simp [quantityIn,hfd]

section
variable (hdis : Distinct items) (item : CartItem)
include hdis

/-- Writing an entry keeps SKUs distinct. -/
theorem putItem_distinct : Distinct (putItem items item) :=
  nodup_upsert (fun _ => rfl) rfl hdis

/-- Adding units keeps SKUs distinct. -/
theorem addItem_distinct : Distinct (addItem items item) :=
  putItem_distinct hdis _

/-- Adding units adds them under their SKU. -/
theorem addItem_quantity (sku : String) :
    itemQuantity (addItem items item) sku =
      itemQuantity items sku+if sku=item.sku then item.quantity else 0 := by
  unfold itemQuantity addItem putItem upsert
  split
  · next hany =>
    obtain ⟨old,hold,hkey⟩ := any_eq_true.mp hany
    have heq : old.sku=item.sku := of_decide_eq_true hkey
    have hqua := quantityIn_eq hdis hold
    have hsum := sum_update_key CartItem.sku
      (fun other => if other.sku=sku then other.quantity else 0)
      (f := fun other => {other with quantity := quantityIn items item.sku+item.quantity})
      hdis hold
    rw [heq] at hsum hqua
    simp only [tally]
    rw [hsum,hqua]
    by_cases hsku : sku=item.sku
    · simp [hsku]
    · simp [hsku,Ne.symm hsku]
  · next hany =>
    have hno : ∀ other∈items, other.sku≠item.sku := by
      intro other hot heq
      exact hany (any_eq_true.mpr ⟨other,hot,decide_eq_true heq⟩)
    rw [tally_append,quantityIn_none hno]
    by_cases hsku : sku=item.sku
    · simp [tally,hsku]
    · simp [tally,hsku,Ne.symm hsku]

end

theorem addItem_positive (hpos : ∀ item∈items, 0 < item.quantity) {item : CartItem}
    (hite : 0 < item.quantity) : ∀ other∈addItem items item, 0<other.quantity := by
  have hnon : 0≤quantityIn items item.sku := by
    unfold quantityIn
    cases hfd : items.find? fun other => decide (other.sku=item.sku) with
    | none => simp
    | some other =>
      have hot := hpos other (mem_of_find?_eq_some hfd)
      simp only [Option.map_some,Option.getD_some]
      omega
  intro other hot
  rcases mem_upsert hot with ⟨old,-,-,rfl⟩|⟨hold,-⟩|rfl
  · simp only
    omega
  · exact hpos other hold
  · simp only
    omega

theorem addItems_spec {added : List CartItem} (hdis : Distinct items)
    (hpos : ∀ item∈items, 0 < item.quantity) (had : ∀ item∈added, 0 < item.quantity) :
    Distinct (added.foldl addItem items)∧(∀ item∈added.foldl addItem items, 0 < item.quantity) ∧
      (∀ sku, itemQuantity (added.foldl addItem items) sku =
        itemQuantity items sku+itemQuantity added sku) ∧
      (∀ item∈added.foldl addItem items, (∃ old∈items, old.sku=item.sku) ∨
        ∃ new∈added, new.sku=item.sku) := by
  induction added generalizing items with
  | nil =>
    refine ⟨hdis,hpos,fun sku => ?_,fun item hite => .inl ⟨item,hite,rfl⟩⟩
    simp [itemQuantity,tally]
  | cons item _ ih =>
    have hite := had item mem_cons_self
    obtain ⟨hd,hp,hq,hori⟩ := ih (addItem_distinct hdis item)
      (addItem_positive hpos hite) fun other hot => had other (mem_cons_of_mem _ hot)
    refine ⟨hd,hp,fun sku => ?_,fun other hot => ?_⟩
    · rw [foldl_cons,hq sku,addItem_quantity hdis]
      simp only [itemQuantity,tally,map_cons,sum_cons,eq_comm (a := sku)]
      ring
    rcases hori other hot with ⟨old,hold,heq⟩|⟨new,hnew,heq⟩
    · rcases mem_upsert hold with ⟨older,holder,-,rfl⟩|⟨holder,-⟩|rfl
      · exact .inl ⟨older,holder,heq⟩
      · exact .inl ⟨old,holder,heq⟩
      · exact .inr ⟨item,mem_cons_self,heq⟩
    · exact .inr ⟨new,mem_cons_of_mem _ hnew,heq⟩

/-- Normalized appends have units. -/
theorem normalize_positive (lines : List CartItem) :
    ∀ item∈normalizeCartLines lines true, 0 < item.quantity := by
  have hfol : ∀ items : List CartItem, (∀ item∈items, 0 < item.quantity) →
      ∀ item∈lines.foldl (fun items line =>
        if true then if line.quantity≤0 then items else addItem items line
        else putItem items line) items, 0 < item.quantity := by
    induction lines with
    | nil => exact fun items h => h
    | cons _ _ ih =>
      intro items hpos
      apply ih
      simp only [if_true]
      split
      · exact hpos
      · next hln => exact addItem_positive hpos (by omega)
  exact hfol [] nofun

/-- Normalizing appends of positive units adds them up. -/
theorem normalize_append {lines : List CartItem} (hpos : ∀ line∈lines, 0<line.quantity) :
    normalizeCartLines lines true=lines.foldl addItem [] := by
  refine foldl_ext _ _ _ fun items line hln => ?_
  have hln := hpos line hln
  simp only [if_true]
  rw [if_neg (by omega)]

end Items

/-- Lines with unique keys and positive quantities. -/
structure LinesSound (lines : List CartLine) : Prop where
  keys : (lines.map lineKey).Nodup
  positive : ∀ line∈lines, 0<line.quantity

section Writes

variable {cartId : String} {catalog : Catalog} {mode : WriteMode} {lines : List CartLine}

/-- What upserts of positive items into the lines of one cart do. -/
structure Upserted (cartId : String) (mode : WriteMode) (lines : List CartLine)
    (items : List CartItem) (next : List CartLine) : Prop where
  /-- Keys stay unique and quantities positive. -/
  sound : LinesSound next
  other : ∀ id, id≠cartId→next.filter (fun line => decide (line.cartId=id)) =
    lines.filter fun line => decide (line.cartId=id)
  skus : ∀ line∈next, line.cartId=cartId →
    line.sku∈items.map CartItem.sku∨∃ old∈lines, old.cartId=cartId∧old.sku=line.sku
  /-- Unless the write is absolute, units are added. -/
  added : mode≠.set→∀ sku, tally lineKey CartLine.quantity (cartId,sku) next =
    tally lineKey CartLine.quantity (cartId,sku) lines+itemQuantity items sku

theorem upsertLine_upserted (hsd : LinesSound lines) {item : CartItem} (hite : 0 < item.quantity) :
    Upserted cartId mode lines [item] (upsertLine cartId catalog mode lines item) := by
  have hkey : ∀ line : CartLine, lineKey {line with
      quantity := if mode=.set then item.quantity else line.quantity+item.quantity
      variantId := if mode=.merge then line.variantId else catalog.lookup item.sku} =
      lineKey line := fun _ => rfl
  refine ⟨⟨nodup_upsert hkey rfl hsd.keys,fun line hln => ?_⟩,?_,?_,?_⟩
  · rcases mem_upsert hln with ⟨old,hold,-,rfl⟩|⟨hold,-⟩|rfl
    · have hpos := hsd.positive old hold
      simp only
      split <;> omega
    · exact hsd.positive line hold
    · exact hite
  · intro id hid
    refine filter_upsert _ (fun line hln => decide_eq_false ?_) hkey rfl
    have hct : line.cartId=cartId := congrArg Prod.fst hln
    rw [hct]
    exact Ne.symm hid
  · intro line hln hct
    rcases mem_upsert hln with ⟨old,hold,-,rfl⟩|⟨hold,-⟩|rfl
    · exact .inr ⟨old,hold,hct,rfl⟩
    · exact .inr ⟨line,hold,hct,rfl⟩
    · exact .inl (by simp)
  · intro hmod sku
    have hadd : tally lineKey CartLine.quantity (cartId,sku)
        (upsertLine cartId catalog mode lines item) =
        tally lineKey CartLine.quantity (cartId,sku) lines +
          if (cartId,sku)=(cartId,item.sku) then item.quantity else 0 := by
      refine tally_upsert CartLine.quantity hkey ?_ hsd.keys ?_ ?_ (cartId,sku)
      · rfl
      · simp [hmod]
      · rfl
    rw [hadd]
    by_cases hsku : sku=item.sku
    · simp [itemQuantity,tally,hsku]
    · simp [itemQuantity,tally,hsku,Ne.symm hsku]

theorem upsertLines_upserted {items : List CartItem} (hsd : LinesSound lines)
    (hite : ∀ item∈items, 0 < item.quantity) :
    Upserted cartId mode lines items (items.foldl (upsertLine cartId catalog mode) lines) := by
  induction items generalizing lines with
  | nil =>
    refine ⟨hsd,fun _ _ => rfl,fun line hln hct => .inr ⟨line,hln,hct,rfl⟩,?_⟩
    simp [itemQuantity,tally]
  | cons item _ ih =>
    have hfst : Upserted cartId mode lines [item] (upsertLine cartId catalog mode lines item) :=
      upsertLine_upserted hsd (hite item mem_cons_self)
    have hrt := ih hfst.sound fun other hot => hite other (mem_cons_of_mem _ hot)
    refine ⟨hrt.sound,fun id hid => (hrt.other id hid).trans (hfst.other id hid),?_,?_⟩
    · intro line hln hct
      rcases hrt.skus line hln hct with hwri|⟨old,hold,holdC,heq⟩
      · exact .inl (by simp only [map_cons]; exact mem_cons_of_mem _ hwri)
      rcases hfst.skus old hold holdC with hnew|⟨older,holder,holde,holderSame⟩
      · refine .inl ?_
        rw [← heq,mem_singleton.mp hnew]
        simp
      · exact .inr ⟨older,holder,holde,holderSame.trans heq⟩
    · intro hmod sku
      rw [foldl_cons,hrt.added hmod sku,hfst.added hmod sku]
      simp [itemQuantity,tally]
      ring

/-- Dropping lines keeps the rest sound. -/
theorem LinesSound.delete (hsd : LinesSound lines) (p : CartLine → Bool) :
    LinesSound (deleteWhere p lines) :=
  ⟨nodup_map_deleteWhere lineKey hsd.keys,
    fun line hln => hsd.positive line (mem_deleteWhere.mp hln).1⟩

/-- Lines that are left after a delete within one cart keep the other carts. -/
theorem filter_deleteWhere {p q : CartLine → Bool} (h : ∀ line∈lines, q line=true→p line=false) :
    (deleteWhere p lines).filter q=lines.filter q := by
  unfold deleteWhere
  rw [filter_filter]
  refine filter_congr fun line hln => ?_
  cases hq : q line with
  | false => simp
  | true => simp [h line hln hq]

end Writes

/-- What a write of the lines of one cart does. -/
structure Written (s next : Carts) (cartId : String) : Prop where
  carts : next.carts=s.carts
  sound : LinesSound next.lines
  other : ∀ id, id≠cartId→linesOf next id=linesOf s id

section
variable {s : Carts} (hsd : LinesSound s.lines)
include hsd

section
variable (cartId : String) (items : List CartItem) (mode : WriteMode)

theorem keptLines_spec : LinesSound (keptLines s cartId items mode) ∧
      (∀ id, id≠cartId→(keptLines s cartId items mode).filter
        (fun line => decide (line.cartId=id))=linesOf s id) ∧
      (∀ line∈keptLines s cartId items mode, line∈s.lines ∧
        (mode=.set→line.cartId=cartId→line.sku∉removedSkus items)) ∧
      (mode≠.set→keptLines s cartId items mode=s.lines) := by
  unfold keptLines
  split_ifs with hmod
  · refine ⟨hsd.delete _,fun id hid => ?_,fun line hln => ?_,absurd hmod⟩
    · refine filter_deleteWhere fun line _ hln => decide_eq_false fun hmt => ?_
      exact hid ((of_decide_eq_true hln).symm.trans hmt.1)
    · obtain ⟨hold,hmt⟩ := mem_deleteWhere.mp hln
      exact ⟨hold,fun _ hct hsku => of_decide_eq_false hmt ⟨hct,hsku⟩⟩
  · exact ⟨hsd,fun _ _ => rfl,fun line hln => ⟨hln,fun h => absurd h hmod⟩,fun _ => rfl⟩

/-- A write of normalized lines: the rest stays, the SKUs come from the write
or were kept, and unless the write is absolute units are added. -/
theorem writeCartLines_written (catalog : Catalog) :
    Written s (writeCartLines s cartId items mode catalog) cartId ∧
      (∀ line∈linesOf (writeCartLines s cartId items mode catalog) cartId,
        line.sku∈(positiveItems items).map CartItem.sku∨∃ old∈linesOf s cartId,
          old.sku=line.sku∧(mode=.set → old.sku∉removedSkus items)) ∧
      (mode≠.set→∀ sku, quantityOf (writeCartLines s cartId items mode catalog) cartId sku =
        quantityOf s cartId sku+itemQuantity (positiveItems items) sku) := by
  obtain ⟨hkp,hot,hmem,heq⟩ := keptLines_spec hsd cartId items mode
  have hitems : ∀ item∈positiveItems items, 0 < item.quantity :=
    fun item hite => of_decide_eq_true (mem_filter.mp hite).2
  have hups : Upserted cartId mode (keptLines s cartId items mode) (positiveItems items)
      (writeCartLines s cartId items mode catalog).lines := upsertLines_upserted hkp hitems
  refine ⟨⟨rfl,hups.sound,fun id hid => ?_⟩,fun line hln => ?_,fun hmod sku => ?_⟩
  · exact (hups.other id hid).trans (hot id hid)
  · obtain ⟨hln,hct⟩ := mem_filter.mp hln
    rcases hups.skus line hln (of_decide_eq_true hct) with hnew|⟨old,hold,holdC,hsku⟩
    · exact .inl hnew
    · obtain ⟨holdM,hrem⟩ := hmem old hold
      exact .inr ⟨old,mem_filter.mpr ⟨holdM,decide_eq_true holdC⟩,hsku,fun hmod => hrem hmod holdC⟩
  · have had := hups.added hmod sku
    rw [heq hmod] at had
    exact had

end

theorem linesOf_distinct (cartId : String) :
    ((linesOf s cartId).map CartLine.sku).Nodup := by
  have hlns : (linesOf s cartId).Nodup := (List.Nodup.of_map lineKey hsd.keys).filter _
  refine List.Nodup.map_on (fun a ha b hb hsku => ?_) hlns
  obtain ⟨ha,hcar⟩ := mem_filter.mp ha
  obtain ⟨hb,hcartB⟩ := mem_filter.mp hb
  refine eq_of_key_eq lineKey hsd.keys ha hb (Prod.ext ?_ hsku)
  exact (of_decide_eq_true hcar).trans (of_decide_eq_true hcartB).symm

theorem linesOf_length_le {cartId : String}
    {skus : List String} (hskus : ∀ line∈linesOf s cartId, line.sku∈skus) :
    (linesOf s cartId).length ≤ skus.length := by
  have hsub : (linesOf s cartId).map CartLine.sku ⊆ skus := by
    intro sku hsku
    obtain ⟨line,hln,rfl⟩ := mem_map.mp hsku
    exact hskus line hln
  have hle := ((linesOf_distinct hsd cartId).subperm hsub).length_le
  rwa [length_map] at hle

end

/-- What a step that writes the lines of a locked cart and touches its row
leaves. -/
structure Applied (s next : Carts) (cartId : String) (now expiresAt : ℤ) : Prop where
  carts : next.carts=updateWhere (fun row => decide (row.id=cartId)&&isOpen row)
    (touchedRow now expiresAt) s.carts
  sound : LinesSound next.lines
  other : ∀ id, id≠cartId→linesOf next id=linesOf s id
  bounded : (linesOf next cartId).length ≤ maxCartLines

/-- An accepted write of lines. -/
theorem applyLines_applied {s next : Carts} (hsd : LinesSound s.lines) {cartId : String}
    {lines : List CartItem} {append : Bool} {catalog : Catalog} {now expiresAt : ℤ} {hit : Bool}
    (happ : applyLines s cartId lines append catalog now expiresAt=.ok (hit,next)) :
    Applied s next cartId now expiresAt ∧
      hit=s.carts.any (fun row => decide (row.id=cartId)&&isOpen row) ∧
      (append=true→(∀ line∈lines, 0<line.quantity)→∀ sku,
        quantityOf next cartId sku=quantityOf s cartId sku+itemQuantity lines sku) := by
  unfold applyLines at happ
  simp only at happ
  split at happ
  · cases happ
  · next hsiz =>
    obtain ⟨hwri,hskus,had⟩ := writeCartLines_written hsd cartId
      (normalizeCartLines lines append) (if append then .increment else .set) catalog
    have hpai := Except.ok.inj happ
    obtain ⟨rfl,rfl⟩ := hpai
    simp only [Bool.or_eq_true,decide_eq_true_eq,not_or,not_lt] at hsiz
    obtain ⟨hrem,hpro⟩ := hsiz
    refine ⟨⟨rfl,hwri.sound,hwri.other,?_⟩,rfl,?_⟩
    · refine (linesOf_length_le hwri.sound fun line hln => ?_).trans hpro
      rw [mem_dedup,mem_append]
      rcases hskus line hln with hnew|⟨old,hold,hsku,hkp⟩
      · exact .inr hnew
      have hnot : old.sku∉removedSkus (normalizeCartLines lines append) := by
        cases append with
        | false => exact hkp rfl
        | true =>
          intro hremo
          obtain ⟨item,hite,-⟩ := mem_map.mp hremo
          obtain ⟨hite,hno⟩ := mem_filter.mp hite
          have hpos := normalize_positive lines item hite
          have hle := of_decide_eq_true hno
          omega
      rw [length_take] at hrem
      rw [take_of_length_le (by omega)]
      refine .inl (mem_map.mpr ⟨old,mem_filter.mpr ⟨hold,?_⟩,hsku⟩)
      exact decide_eq_true hnot
    · intro happe hpos sku
      subst happe
      have hall : positiveItems (normalizeCartLines lines true)=normalizeCartLines lines true :=
        filter_eq_self.mpr fun item hite => decide_eq_true (normalize_positive lines item hite)
      have hem : Distinct [] := nodup_nil
      have hsum : itemQuantity (lines.foldl addItem []) sku =
          itemQuantity [] sku+itemQuantity lines sku :=
        (addItems_spec hem nofun hpos).2.2.1 sku
      have hnil : itemQuantity [] sku=0 := rfl
      have hqua := had (by decide) sku
      rw [hall,normalize_append hpos,hsum,hnil,zero_add] at hqua
      rw [normalize_append hpos]
      exact hqua

end SellRight.CartLines
