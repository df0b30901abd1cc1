import SellRight.CartLines

/-!
# What a writer of carts may change

Every writer refuses or does what its case lemma says, and in any case moves
the tables on: a cart keeps its row and its lines, or its revision rises by
one. A merge leaves its donors without lines and loses no unit.
-/

namespace SellRight.CartMoves

open RowTable RowUpserts RunHistory CartStore CartLines List
open FallibleSteps (bind_eq_error bind_eq_ok foldlM_eq_error)

/-- Tables whose unique keys hold and whose lines have units. -/
structure WellFormed (s : Carts) : Prop where
  ids : (s.carts.map CartRow.id).Nodup
  tokens : (s.carts.map CartRow.token).Nodup
  sound : LinesSound s.lines

/-- A cart stays with its lines, or its revision rises while it is not merged
into another cart. -/
def Succeeds (s next : Carts) (old cur : CartRow) : Prop := cur.id=old.id∧cur.token=old.token ∧
    (cur=old∧linesOf next cur.id=linesOf s cur.id∨old.status≠.merged∧cur.revision=old.revision+1)

/-- What one step, that creates at most the given cart, may change. -/
structure Moves (s next : Carts) (created : Option String) : Prop where
  wellFormed : WellFormed next
  rows : ∀ cur∈next.carts, created=some cur.id∨∃ old∈s.carts, Succeeds s next old cur
  bounded : ∀ id, (linesOf s id).length ≤ maxCartLines→(linesOf next id).length ≤ maxCartLines

variable {row : CartRow} {p : CartRow → Bool} {f : CartRow → CartRow} {reply : Reply}
  {cartId : String} {start result : List String×List CartItem} {donors : List CartRow}

section Steps

variable {s next : Carts}

/-- A refused step changes nothing. -/
theorem Moves.refl {created : Option String} (hwf : WellFormed s) : Moves s s created :=
  ⟨hwf,fun cur hcur => .inr ⟨cur,hcur,rfl,rfl,.inl ⟨rfl,rfl⟩⟩,fun _ h => h⟩

/-- Writes of some carts that rewrite the row of each of them. -/
theorem Moves.touch (hwf : WellFormed s) (touched : String → Prop)
    (hids : next.carts.map CartRow.id=s.carts.map CartRow.id)
    (htoke : next.carts.map CartRow.token=s.carts.map CartRow.token) (hsd : LinesSound next.lines)
    (hrs : ∀ cur∈next.carts, ∃ old∈s.carts, cur.id=old.id∧cur.token=old.token ∧
      (¬ touched cur.id∧cur=old∨old.status≠.merged∧cur.revision=old.revision+1))
    (hot : ∀ id, ¬ touched id→linesOf next id=linesOf s id)
    (hbou : ∀ id, touched id→(linesOf s id).length ≤ maxCartLines →
      (linesOf next id).length ≤ maxCartLines) : Moves s next none := by
  refine ⟨⟨hids ▸ hwf.ids,htoke ▸ hwf.tokens,hsd⟩,fun cur hcur => ?_,fun id hle => ?_⟩
  · obtain ⟨old,hold,hid,htok,hcha⟩ := hrs cur hcur
    refine .inr ⟨old,hold,hid,htok,?_⟩
    rcases hcha with ⟨hunt,heq⟩|hbum
    · exact .inl ⟨heq,hot cur.id hunt⟩
    · exact .inr hbum
  · by_cases htou : touched id
    · exact hbou id htou hle
    · rw [hot id htou]
      exact hle

theorem isOpen_not_merged (hop : isOpen row=true) : row.status≠.merged := by
  intro hmer
  simp [isOpen,hmer] at hop

theorem Moves.write (hwf : WellFormed s) (hrow : row∈s.carts) (hop : row.status≠.merged)
    (hp : ∀ cur∈s.carts, p cur=decide (cur.id=row.id))
    (hf : ∀ cur, (f cur).id=cur.id∧(f cur).token=cur.token∧(f cur).revision=cur.revision+1)
    (hcar : next.carts=updateWhere p f s.carts) (hsd : LinesSound next.lines)
    (hot : ∀ id, id≠row.id→linesOf next id=linesOf s id)
    (hbou : (linesOf s row.id).length ≤ maxCartLines →
      (linesOf next row.id).length ≤ maxCartLines) : Moves s next none := by
  refine .touch hwf (fun id => id=row.id) ?_ ?_ hsd ?_ hot ?_
  · rw [hcar,map_updateWhere CartRow.id _ fun cur _ => (hf cur).1]
  · rw [hcar,map_updateWhere CartRow.token _ fun cur _ => (hf cur).2.1]
  · intro cur hcur
    rw [hcar] at hcur
    rcases mem_updateWhere.mp hcur with ⟨old,hold,hmt,rfl⟩|⟨hold,hms⟩
    · rw [hp old hold] at hmt
      have heq := eq_of_key_eq CartRow.id hwf.ids hold hrow (of_decide_eq_true hmt)
      refine ⟨old,hold,(hf old).1,(hf old).2.1,.inr ⟨?_,(hf old).2.2⟩⟩
      rw [heq]
      exact hop
    · rw [hp cur hold] at hms
      exact ⟨cur,hold,rfl,rfl,.inl ⟨of_decide_eq_false hms,rfl⟩⟩
  · rintro id rfl hle
    exact hbou hle

theorem Moves.rewrite (hwf : WellFormed s) (hp : ∀ cur∈s.carts, p cur=true→cur.status≠.merged)
    (hf : ∀ cur, (f cur).id=cur.id∧(f cur).token=cur.token∧(f cur).revision=cur.revision+1) :
    Moves s {s with carts := updateWhere p f s.carts} none := by
  refine ⟨⟨?_,?_,hwf.sound⟩,fun cur hcur => .inr ?_,fun _ hle => hle⟩
  · rw [map_updateWhere CartRow.id _ fun cur _ => (hf cur).1]
    exact hwf.ids
  · rw [map_updateWhere CartRow.token _ fun cur _ => (hf cur).2.1]
    exact hwf.tokens
  · rcases mem_updateWhere.mp hcur with ⟨old,hold,hmt,rfl⟩|⟨hold,-⟩
    · exact ⟨old,hold,(hf old).1,(hf old).2.1,.inr ⟨hp old hold hmt,(hf old).2.2⟩⟩
    · exact ⟨cur,hold,rfl,rfl,.inl ⟨rfl,rfl⟩⟩

theorem Moves.insert (mid : Carts) (row : CartRow) (hcar : mid.carts=s.carts++[row])
    (hlns : mid.lines=s.lines) (hmvs : Moves mid next none) : Moves s next (some row.id) := by
  have heq : ∀ id, linesOf mid id=linesOf s id := by
    intro id
    simp only [linesOf,hlns]
  refine ⟨hmvs.wellFormed,fun cur hcur => ?_,fun id hle => ?_⟩
  · rcases hmvs.rows cur hcur with hno|⟨old,hold,hid,htok,hcha⟩
    · cases hno
    rw [hcar] at hold
    rcases mem_append.mp hold with hold|hnew
    · rw [heq] at hcha
      exact .inr ⟨old,hold,hid,htok,hcha⟩
    · rw [mem_singleton.mp hnew] at hid
      exact .inl (congrArg some hid.symm)
  · exact hmvs.bounded id (by rw [heq]; exact hle)

section
variable {expected : Option ℤ} {required : Bool}

/-- A revision that passes the guard is the current one, and none is missing
where one is required. -/
theorem revisionBlocker_none (hno : revisionBlocker row expected required=none) :
    (∀ revision, expected=some revision → row.revision=revision) ∧
      (expected=none → required=false) := by
  cases expected with
  | none =>
    have hreq : required=false := by simpa [revisionBlocker] using hno
    exact ⟨fun _ hsen => absurd hsen (by simp),fun _ => hreq⟩
  | some sent =>
    have hcur : row.revision=sent := by
      by_contra hne
      simp [revisionBlocker,hne] at hno
    exact ⟨fun _ hsen => hcur.trans (Option.some.inj hsen),fun hsen => absurd hsen (by simp)⟩

theorem mutationBlocker_none (hno : mutationBlocker row expected required=none) :
    isOpen row=true∧(∀ revision, expected=some revision → row.revision=revision) ∧
      (expected=none → required=false) := by
  have hop : isOpen row=true := by
    cases hsta : row.status <;> simp [mutationBlocker,isOpen,hsta] at hno ⊢
  have hrev : revisionBlocker row expected required=none := by
    cases hsta : row.status with
    | converted | merged => simp [mutationBlocker,hsta] at hno
    | active | abandoned => simpa only [mutationBlocker,hsta] using hno
  exact ⟨hop,revisionBlocker_none hrev⟩

end

theorem openMatch (hwf : WellFormed s) (hrow : row∈s.carts) (hop : isOpen row=true) :
    ∀ cur∈s.carts, (decide (cur.id=row.id)&&isOpen cur)=decide (cur.id=row.id) := by
  intro cur hcur
  by_cases hid : cur.id=row.id
  · rw [eq_of_key_eq CartRow.id hwf.ids hcur hrow hid,hop]
    simp
  · simp [hid]

/-- The guarded update of an open row finds it. -/
theorem openMatch_any (hrow : row∈s.carts) (hop : isOpen row=true) :
    s.carts.any (fun cur => decide (cur.id=row.id)&&isOpen cur)=true :=
  any_eq_true.mpr ⟨row,hrow,by simp [hop]⟩

theorem updateWhere_twice {q : CartRow → Bool} {g : CartRow → CartRow} {rows : List CartRow}
    (h : ∀ row∈rows, q (if p row then f row else row)=p row) :
    updateWhere q g (updateWhere p f rows)=updateWhere p (g ∘ f) rows := by
  unfold updateWhere
  rw [map_map]
  refine map_congr_left fun row hrow => ?_
  have heq := h row hrow
  simp only [Function.comp_apply]
  cases hp : p row with
  | true =>
    rw [hp,if_pos rfl] at heq
    simp [heq]
  | false =>
    rw [hp,if_neg (by simp)] at heq
    simp [heq]

/-- A refused step: no success is reported and nothing changes. -/
def Refused (s : Carts) (result : Reply×Carts) : Prop := result.1≠.ok∧result.2=s

/-- Any answer but success refuses a step that changes nothing. -/
theorem Refused.of (h : reply≠.ok) : Refused s (reply,s) := ⟨h,rfl⟩

/-- An error of a size check says so. -/
theorem boundedCartItems_error
    (her : boundedCartItems s cartId=.error reply) : reply=.tooLarge := by
  unfold boundedCartItems at her
  split at her
  · exact (Except.error.inj her).symm
  · cases her

/-- The answer of a step is its change or its refusal. -/
theorem respond_cases (s next : Carts) (cartId : String) (priced : Bool) :
    Refused s (respond s next cartId priced)∨respond s next cartId priced=(.ok,next) := by
  unfold respond
  split
  · next reply her =>
    rw [boundedCartItems_error her]
    exact .inl (.of (by decide))
  · cases priced with
    | true => exact .inr rfl
    | false => exact .inl (.of (by decide))

theorem applyLines_error {lines : List CartItem} {append : Bool}
    {catalog : Catalog} {now expiresAt : ℤ}
    (her : applyLines s cartId lines append catalog now expiresAt=.error reply) :
    reply=.tooLarge := by
  unfold applyLines at her
  simp only at her
  split at her
  · exact (Except.error.inj her).symm
  · cases her

/-- Carts after the coupon codes of a patch are set. -/
def withCoupons (next : Carts) (cartId : String) : Option (List String) → Carts
  | none => next
  | some codes => {next with
      carts := updateWhere (fun cur => decide (cur.id=cartId))
        (fun cur => {cur with couponCodes := codes}) next.carts}

/-- A patch of lines is refused, or it writes the lines of the open cart of its
token under the guard of the revision. -/
theorem patchLines_cases (hwf : WellFormed s) (request : LinesRequest) :
    Refused s (patchLines s request)∨∃ row written, findCart s request.token=some row ∧
      mutationBlocker row request.expectedRevision (!appendsOnly request)=none ∧
      applyLines s row.id request.lines request.expectedRevision.isNone request.catalog
        request.now request.expiresAt=.ok (true,written) ∧
      patchLines s request=(.ok,withCoupons written row.id request.couponCodes) := by
  unfold patchLines
  split
  · exact .inl (.of (by decide))
  · next row hfin =>
    split
    · exact .inl (.of (by simp))
    · next hblo =>
      obtain ⟨hop,-,-⟩ := mutationBlocker_none hblo
      obtain ⟨hrow,-⟩ := find_key_eq_some CartRow.token hfin
      split
      · next reply her =>
        rw [applyLines_error her]
        exact .inl (.of (by decide))
      · next next happ =>
        have hhit := (applyLines_applied hwf.sound happ).2.1
        rw [openMatch_any hrow hop] at hhit
        cases hhit
      · next next happ =>
        cases hcod : request.couponCodes with
        | none | some =>
          rcases respond_cases s _ row.id request.priced with href|hok
          · exact .inl href
          · exact .inr ⟨row,next,hfin,hblo,happ,hok⟩

theorem patchLines_moves (hwf : WellFormed s) (request : LinesRequest) :
    Moves s (patchLines s request).2 none := by
  rcases patchLines_cases hwf request with ⟨-,heq⟩|⟨row,written,hfin,hblo,happ,hok⟩
  · rw [heq]
    exact .refl hwf
  rw [hok]
  obtain ⟨hrow,-⟩ := find_key_eq_some CartRow.token hfin
  obtain ⟨hop,-,-⟩ := mutationBlocker_none hblo
  obtain ⟨hnx,-,-⟩ := applyLines_applied hwf.sound happ
  have hbou : (linesOf s row.id).length ≤ maxCartLines →
      (linesOf written row.id).length ≤ maxCartLines := fun _ => hnx.bounded
  have hmt := openMatch hwf hrow hop
  cases request.couponCodes with
  | none =>
    refine .write hwf hrow (isOpen_not_merged hop) hmt ?_ hnx.carts hnx.sound hnx.other hbou
    exact fun cur => ⟨rfl,rfl,rfl⟩
  | some codes =>
    have hcar : (withCoupons written row.id (some codes)).carts =
        updateWhere (fun cur => decide (cur.id=row.id)&&isOpen cur)
          ((fun cur => {cur with couponCodes := codes}) ∘
            touchedRow request.now request.expiresAt) s.carts := by
      simp only [withCoupons]
      rw [hnx.carts]
      refine updateWhere_twice fun cur hcur => ?_
      rw [hmt cur hcur]
      by_cases hid : cur.id=row.id <;> simp [hid,touchedRow]
    refine .write hwf hrow (isOpen_not_merged hop) hmt ?_ hcar hnx.sound hnx.other hbou
    exact fun cur => ⟨rfl,rfl,rfl⟩

/-- A patch of the identity is refused, or it rewrites the open row of its
token under the guard of the revision. -/
theorem patchIdentity_cases (request : IdentityRequest) :
    Refused s (patchIdentity s request)∨∃ row, findCart s request.token=some row ∧
      mutationBlocker row request.expectedRevision true=none∧patchIdentity s request=(.ok,{s with
        carts := updateWhere (fun cur => decide (cur.id=row.id)&&isOpen cur) (fun cur =>
          {cur with
            email := some request.email
            customerId := row.customerId <|> request.account
            updatedAt := request.now
            revision := cur.revision+1}) s.carts}) := by
  unfold patchIdentity
  split
  · exact .inl (.of (by decide))
  · next row hfin =>
    split
    · exact .inl (.of (by simp))
    · next hblo =>
      obtain ⟨hop,-,-⟩ := mutationBlocker_none hblo
      obtain ⟨hrow,-⟩ := find_key_eq_some CartRow.token hfin
      split
      · next reply her =>
        rw [boundedCartItems_error her]
        exact .inl (.of (by decide))
      · simp only [updateCart,openMatch_any hrow hop]
        rcases respond_cases s _ row.id request.priced with href|hok
        · exact .inl href
        · exact .inr ⟨row,hfin,hblo,hok⟩

theorem patchIdentity_moves (hwf : WellFormed s) (request : IdentityRequest) :
    Moves s (patchIdentity s request).2 none := by
  rcases patchIdentity_cases request with ⟨-,heq⟩|⟨row,-,-,hok⟩
  · rw [heq]
    exact .refl hwf
  · rw [hok]
    refine .rewrite hwf (fun cur _ hmt => ?_) fun cur => ⟨rfl,rfl,rfl⟩
    exact isOpen_not_merged (Bool.and_eq_true_iff.mp hmt).2

theorem convertCart_cases (request : ConvertRequest) :
    Refused s (convertCart s request)∨∃ row, findCart s request.token=some row ∧
      row.status≠.merged∧row.status≠.converted∧request.expectedRevision=some row.revision ∧
      s.carts.any (fun cur => decide (cur.id=row.id)&&isOpen cur &&
        decide (cur.convertedOrderId=none))=true∧convertCart s request=(.ok,{s with
        carts := updateWhere (fun cur => decide (cur.id=row.id)&&isOpen cur &&
            decide (cur.convertedOrderId=none)) (fun cur =>
          {cur with
            status := .converted
            convertedOrderId := some request.orderId
            revision := cur.revision+1
            updatedAt := request.now}) s.carts}) := by
  unfold convertCart
  split
  · exact .inl (.of (by decide))
  · next row hfin =>
    by_cases hcon : row.status=.converted
    · rw [if_pos hcon]
      exact .inl (.of (by simp))
    rw [if_neg hcon]
    by_cases hmer : row.status=.merged
    · rw [if_pos hmer]
      exact .inl (.of (by decide))
    rw [if_neg hmer]
    split
    · exact .inl (.of (by decide))
    · next expected hexp =>
      by_cases hrev : row.revision=expected
      · rw [if_neg (not_not.mpr hrev)]
        split
        · next reply her =>
          rw [boundedCartItems_error her]
          exact .inl (.of (by decide))
        split
        · exact .inl (.of (by decide))
        split
        · exact .inl (.of (by decide))
        split
        · exact .inl (.of (by decide))
        · next hit next hpai =>
          obtain ⟨hany,rfl⟩ := Prod.mk.inj hpai
          exact .inr ⟨row,hfin,hmer,hcon,by rw [hexp,hrev],hany,rfl⟩
      · rw [if_pos hrev]
        exact .inl (.of (by simp))

theorem convertCart_moves (hwf : WellFormed s) (request : ConvertRequest) :
    Moves s (convertCart s request).2 none := by
  rcases convertCart_cases request with
    ⟨-,heq⟩|⟨row,-,-,-,-,-,hok⟩
  · rw [heq]
    exact .refl hwf
  · rw [hok]
    refine .rewrite hwf (fun cur _ hmt => ?_) fun cur => ⟨rfl,rfl,rfl⟩
    exact isOpen_not_merged (Bool.and_eq_true_iff.mp (Bool.and_eq_true_iff.mp hmt).1).2

theorem reopenConvertedCart_moves (hwf : WellFormed s) (request : ReopenRequest) :
    Moves s (reopenConvertedCart s request).2 none := by
  have hreo : Moves s (updateCart s (fun cur => decide (cur.id=request.cartId ∧
      cur.status=.converted∧cur.convertedOrderId=some request.orderId)) (fun cur =>
    {cur with
      status := .active
      convertedOrderId := none
      revision := cur.revision+1
      updatedAt := request.now
      expiresAt := some request.expiresAt})).2 none := by
    refine .rewrite hwf (fun cur _ hmt => ?_) fun cur => ⟨rfl,rfl,rfl⟩
    rw [(of_decide_eq_true hmt).2.1]
    decide
  have heq : Moves s s none := .refl hwf
  unfold reopenConvertedCart
  simp only
  split
  · exact heq
  · split
    · split
      · exact hreo
      · exact heq
    · exact heq
  · split
    · exact hreo
    · exact heq
  · exact heq

theorem abandonStaleCarts_moves (hwf : WellFormed s) (cutoff now : ℤ) (take : ℕ) :
    Moves s (abandonStaleCarts s cutoff now take).2 none := by
  refine .rewrite hwf (fun cur _ hmt => ?_) fun cur => ⟨rfl,rfl,rfl⟩
  have hact := (of_decide_eq_true (Bool.and_eq_true_iff.mp hmt).2).1
  rw [hact]
  decide

variable {id : String}

theorem mem_scanCarts {take : ℕ}
    (hmem : id∈scanCarts s p take) : ∃ row∈s.carts, p row=true∧row.id=id := by
  obtain ⟨row,hrow,rfl⟩ := mem_map.mp hmem
  have hsor := mem_of_mem_take hrow
  rw [mem_insertionSort] at hsor
  obtain ⟨hct,hp⟩ := mem_filter.mp hsor
  exact ⟨row,hct,hp,rfl⟩

variable {cartIds : List String}

theorem linesOf_stripLines (hid : id∉cartIds) :
    linesOf (stripLines s cartIds) id=linesOf s id := by
  refine filter_deleteWhere fun line _ hln => decide_eq_false fun hgn => ?_
  rw [of_decide_eq_true hln] at hgn
  exact hid hgn

theorem linesOf_stripLines_nil (hid : id∈cartIds) :
    linesOf (stripLines s cartIds) id=[] := by
  refine filter_eq_nil_iff.mpr fun line hln heq => ?_
  have hkp := of_decide_eq_false (mem_deleteWhere.mp hln).2
  rw [of_decide_eq_true heq] at hkp
  exact hkp hid

theorem linesOf_stripLines_le (s : Carts) (cartIds : List String) (id : String) :
    (linesOf (stripLines s cartIds) id).length≤(linesOf s id).length :=
  (filter_sublist.filter _).length_le

/-- The cleanup job keeps every cart it does not delete, with its lines. -/
theorem cleanupExpiredCarts_moves (hwf : WellFormed s) (now : ℤ) (retentionCutoff : Option ℤ)
    (ttlTake agedTake : ℕ) :
    Moves s (cleanupExpiredCarts s now retentionCutoff ttlTake agedTake).2 none := by
  refine ⟨⟨?_,?_,hwf.sound.delete _⟩,fun cur hcur => ?_,fun id hle => ?_⟩
  · exact nodup_map_deleteWhere CartRow.id (nodup_map_deleteWhere CartRow.id hwf.ids)
  · exact nodup_map_deleteWhere CartRow.token (nodup_map_deleteWhere CartRow.token hwf.tokens)
  · obtain ⟨hexp,hnot⟩ := mem_deleteWhere.mp hcur
    obtain ⟨hold,hnotT⟩ := mem_deleteWhere.mp hexp
    have hkept : cur.id∉scanCarts s (ttlPurgeable s now) ttlTake := by
      intro hdoo
      obtain ⟨row,hrow,hp,hid⟩ := mem_scanCarts hdoo
      rw [eq_of_key_eq CartRow.id hwf.ids hrow hold hid] at hp
      obtain ⟨hter,hsta,hord,-⟩ := of_decide_eq_true hp
      have hno := linesOf_stripLines_nil (s := s)
        (mem_append_left (agedCarts s retentionCutoff agedTake) hdoo)
      have hpur := decide_eq_true (And.intro hter (And.intro hsta (And.intro hord hno)))
      rw [decide_eq_true hdoo,Bool.true_and] at hnotT
      exact absurd hpur (Bool.eq_false_iff.mp hnotT)
    have hkep : cur.id∉agedCarts s retentionCutoff agedTake := by
      intro hdoo
      rw [decide_eq_true hdoo,Bool.true_and] at hnot
      cases retentionCutoff with
      | none => cases hdoo
      | some =>
        obtain ⟨row,hrow,hp,hid⟩ := mem_scanCarts hdoo
        rw [eq_of_key_eq CartRow.id hwf.ids hrow hold hid] at hp
        simp [hp] at hnot
    refine .inr ⟨cur,hold,rfl,rfl,.inl ⟨rfl,linesOf_stripLines fun hgn => ?_⟩⟩
    exact (mem_append.mp hgn).elim hkept hkep
  · exact (linesOf_stripLines_le s _ id).trans hle

theorem createCart_moves (hwf : WellFormed s) (request : CreateRequest)
    (hid : ∀ old∈s.carts, old.id≠request.id) (htok : ∀ old∈s.carts, old.token≠request.token) :
    Moves s (createCart s request).2 (some request.id) := by
  set added : Carts := {s with carts := s.carts++[newCart request]}
  have hins : WellFormed added := ⟨nodup_map_append CartRow.id hwf.ids hid,
    nodup_map_append CartRow.token hwf.tokens htok,hwf.sound⟩
  have hnew : newCart request∈added.carts := mem_append_right _ mem_cons_self
  have hans : ∀ next, Moves added next none →
      Moves s (respond s next request.id request.priced).2 (some request.id) := by
    intro next hmvs
    rcases respond_cases s next request.id request.priced with ⟨-,heq⟩|hok
    · rw [heq]
      exact .refl hwf
    · rw [hok]
      exact .insert added (newCart request) rfl rfl hmvs
  unfold createCart
  simp only
  split
  · exact hans _ (.refl hins)
  split
  · exact .refl hwf
  · next hit next happ =>
    obtain ⟨hnx,-,-⟩ := applyLines_applied hins.sound happ
    refine hans next (Moves.write hins hnew (by simp [newCart])
      (openMatch hins hnew rfl) ?_ hnx.carts hnx.sound hnx.other fun _ => hnx.bounded)
    exact fun cur => ⟨rfl,rfl,rfl⟩

/-- Items gathered from the donors of a merge. -/
structure Gathered (union : List String) (quantities : List CartItem) : Prop where
  distinct : Distinct quantities
  positive : ∀ item∈quantities, 0 < item.quantity
  covered : ∀ item∈quantities, item.sku∈union
  bounded : union.length ≤ maxCartLines

theorem gatherLine_gathered {item : CartItem}
    (hsta : Gathered start.1 start.2) (hite : 0 < item.quantity)
    (hres : gatherLine start item=.ok result) :
    Gathered result.1 result.2∧start.1 ⊆ result.1∧∀ sku, itemQuantity result.2 sku =
      itemQuantity start.2 sku+if sku=item.sku then item.quantity else 0 := by
  unfold gatherLine at hres
  split_ifs at hres with hsiz
  cases hres
  have hsub : start.1 ⊆ withSku start.1 item.sku := by
    unfold withSku
    split
    · exact Subset.refl _
    · exact subset_append_left _ _
  have hown : item.sku∈withSku start.1 item.sku := by
    unfold withSku
    split
    · next hmem => exact hmem
    · exact mem_append_right _ mem_cons_self
  refine ⟨⟨addItem_distinct hsta.distinct item,addItem_positive hsta.positive hite,?_,
    not_lt.mp hsiz⟩,hsub,addItem_quantity hsta.distinct item⟩
  intro other hot
  rcases mem_upsert hot with ⟨old,hold,-,rfl⟩|⟨hold,-⟩|rfl
  · exact hsub (hsta.covered old hold)
  · exact hsub (hsta.covered other hold)
  · exact hown

variable {items : List CartItem}

theorem gatherLines_gathered
    (hsta : Gathered start.1 start.2) (hite : ∀ item∈items, 0 < item.quantity)
    (hres : items.foldlM gatherLine start=.ok result) :
    Gathered result.1 result.2∧start.1 ⊆ result.1∧∀ sku, itemQuantity result.2 sku =
      itemQuantity start.2 sku+itemQuantity items sku := by
  induction items generalizing start with
  | nil =>
    cases hres
    exact ⟨hsta,Subset.refl _,fun sku => by simp [itemQuantity,tally]⟩
  | cons item _ ih =>
    obtain ⟨mid,hmid,hrt⟩ := bind_eq_ok.mp hres
    obtain ⟨hgat,hsub,hqua⟩ :=
      gatherLine_gathered hsta (hite item mem_cons_self) hmid
    obtain ⟨hlt,hlastSubset,hlas⟩ := ih hgat
      (fun other hot => hite other (mem_cons_of_mem _ hot)) hrt
    refine ⟨hlt,Subset.trans hsub hlastSubset,fun sku => ?_⟩
    rw [hlas sku,hqua sku]
    simp only [itemQuantity,tally,map_cons,sum_cons,eq_comm (a := sku)]
    ring

theorem boundedCartItems_ok (hite : boundedCartItems s cartId=.ok items) :
    items=(linesOf s cartId).map fun line => ⟨line.sku,line.quantity⟩ := by
  unfold boundedCartItems at hite
  split_ifs at hite
  exact (Except.ok.inj hite).symm

theorem linesOf_quantity (s : Carts) (cartId sku : String) :
    itemQuantity ((linesOf s cartId).map fun line => ⟨line.sku,line.quantity⟩) sku =
      quantityOf s cartId sku := by
  unfold itemQuantity quantityOf tally linesOf
  rw [map_map,sum_map_filter]
  refine congrArg sum (map_congr_left fun line _ => ?_)
  by_cases hct : line.cartId=cartId <;> by_cases hsku : line.sku=sku <;> simp [lineKey,hct,hsku]

theorem gatherDonors_gathered (hsd : LinesSound s.lines) (hsta : Gathered start.1 start.2)
    (hres : donors.foldlM (gatherDonor s) start=.ok result) :
    Gathered result.1 result.2∧start.1 ⊆ result.1∧∀ sku, itemQuantity result.2 sku =
      itemQuantity start.2 sku+(donors.map fun donor => quantityOf s donor.id sku).sum := by
  induction donors generalizing start with
  | nil =>
    cases hres
    exact ⟨hsta,Subset.refl _,fun sku => by simp⟩
  | cons donor _ ih =>
    obtain ⟨mid,hmid,hrt⟩ := bind_eq_ok.mp hres
    obtain ⟨items,hitems,hlns⟩ := bind_eq_ok.mp hmid
    obtain rfl := boundedCartItems_ok hitems
    have hpos : ∀ item∈(linesOf s donor.id).map fun line =>
        (⟨line.sku,line.quantity⟩ : CartItem),0 < item.quantity := by
      intro item hite
      obtain ⟨line,hln,rfl⟩ := mem_map.mp hite
      exact hsd.positive line (mem_filter.mp hln).1
    obtain ⟨hgat,hsub,hqua⟩ := gatherLines_gathered hsta hpos hlns
    obtain ⟨hlt,hlastSubset,hlas⟩ := ih hgat hrt
    refine ⟨hlt,Subset.trans hsub hlastSubset,fun sku => ?_⟩
    rw [hlas sku,hqua sku,linesOf_quantity,map_cons,sum_cons]
    ring

theorem mem_mergeDonors {target donor : CartRow} {customerId : String} {candidates : List String}
    (hdon : donor∈mergeDonors s target customerId candidates) :
    donor∈s.carts∧donor.id≠target.id∧donor.status=.active∧donor.convertedOrderId=none := by
  obtain ⟨hsor,hmt⟩ := mem_filter.mp hdon
  rw [mem_insertionSort] at hsor
  obtain ⟨hid,-,hact,hord⟩ := of_decide_eq_true hmt
  exact ⟨(mem_filter.mp hsor).1,hid,hact,hord⟩

variable {quantities : List CartItem}

/-- Quantities gathered: they have units, stay within the largest size together
with the target, and are the donors'. -/
theorem gatherDonors_spec (hsd : LinesSound s.lines) {targetId : String} (hgat : gatherDonors s targetId donors=.ok quantities) :
    (∃ union, Gathered union quantities∧∀ line∈linesOf s targetId, line.sku∈union) ∧
      ∀ sku, itemQuantity quantities sku =
        (donors.map fun donor => quantityOf s donor.id sku).sum := by
  obtain ⟨items,hite,hrt⟩ := bind_eq_ok.mp hgat
  obtain ⟨gathered,hgath,hres⟩ := bind_eq_ok.mp hrt
  cases hres
  have hsiz : (linesOf s targetId).length ≤ maxCartLines := by
    unfold boundedCartItems at hite
    split_ifs at hite
    next hsiz => exact not_lt.mp hsiz
  obtain rfl := boundedCartItems_ok hite
  have hsta : Gathered (((linesOf s targetId).map fun line =>
      (⟨line.sku,line.quantity⟩ : CartItem)).map CartItem.sku).dedup [] := by
    refine ⟨nodup_nil,nofun,nofun,?_⟩
    have hle := (dedup_sublist (((linesOf s targetId).map fun line =>
      (⟨line.sku,line.quantity⟩ : CartItem)).map CartItem.sku)).length_le
    rw [length_map,length_map] at hle
    omega
  obtain ⟨hlt,hsub,hqua⟩ := gatherDonors_gathered hsd hsta hgath
  refine ⟨⟨gathered.1,hlt,fun line hln => hsub ?_⟩,fun sku => ?_⟩
  · rw [mem_dedup,map_map]
    exact mem_map_of_mem hln
  · rw [hqua sku]
    simp [itemQuantity,tally]

theorem gatherDonors_error {targetId : String}
    (her : gatherDonors s targetId donors=.error reply) : reply=.tooLarge := by
  rcases bind_eq_error.mp her with htgt|⟨items,-,hrt⟩
  · exact boundedCartItems_error htgt
  rcases bind_eq_error.mp hrt with hfol|⟨gathered,-,hpur⟩
  · obtain ⟨state,donor,-,hdon⟩ := foldlM_eq_error hfol
    rcases bind_eq_error.mp hdon with hite|⟨lines,-,hlns⟩
    · exact boundedCartItems_error hite
    obtain ⟨counted,line,-,hln⟩ := foldlM_eq_error hlns
    unfold gatherLine at hln
    split at hln
    · exact (Except.error.inj hln).symm
    · cases hln
  · cases hpur

/-- The target of a merge is still open when it is touched. -/
theorem foldDonors_hit (hrow : row∈s.carts) (hop : isOpen row=true)
    (donorIds : List String) (quantities : List CartItem) (request : MergeRequest)
    (customerId : String) (htgt : row.id∉donorIds) :
    (foldDonors s row.id donorIds quantities request customerId).1=true := by
  refine openMatch_any ?_ hop
  exact mem_updateWhere.mpr (.inr ⟨hrow,decide_eq_false fun hdon => htgt hdon.1⟩)

/-- A merge is refused, or it folds the donors of the open cart of its token
under the guard of the revision. -/
theorem mergeCarts_cases (request : MergeRequest) :
    Refused s (mergeCarts s request)∨∃ customerId row quantities,
      request.customerId=some customerId∧findCart s request.token=some row ∧
      mutationBlocker row request.expectedRevision true=none ∧
      gatherDonors s row.id (mergeDonors s row customerId request.candidates)=.ok quantities ∧
      mergeCarts s request=(.ok,(foldDonors s row.id
        ((mergeDonors s row customerId request.candidates).map CartRow.id) quantities request
        customerId).2) := by
  unfold mergeCarts
  split
  · exact .inl (.of (by decide))
  · next customerId hcus =>
    split
    · exact .inl (.of (by decide))
    · next row hfin =>
      obtain ⟨hrow,-⟩ := find_key_eq_some CartRow.token hfin
      split
      · exact .inl (.of (by simp))
      · next hblo =>
        obtain ⟨hop,-,-⟩ := mutationBlocker_none hblo
        split
        · exact .inl (.of (by decide))
        simp only
        split
        · next reply her =>
          rw [gatherDonors_error her]
          exact .inl (.of (by decide))
        · next quantities hgat =>
          have hhit := foldDonors_hit hrow hop
            ((mergeDonors s row customerId request.candidates).map CartRow.id) quantities request
            customerId fun hmem => by
              obtain ⟨donor,hdon,hid⟩ := mem_map.mp hmem
              exact (mem_mergeDonors hdon).2.1 hid
          split
          · next next hpai =>
            rw [hpai] at hhit
            cases hhit
          · next next hpai =>
            rcases respond_cases s next row.id request.priced with href|hok
            · exact .inl href
            · refine .inr ⟨customerId,row,quantities,hcus,hfin,hblo,hgat,?_⟩
              rw [hpai]
              exact hok

/-- A cart after a merge was there before: as it is when it takes no part, else
moved on, and merged when it is a donor. -/
theorem foldDonors_rows (hwf : WellFormed s) (hrow : row∈s.carts) (hop : isOpen row=true)
    {ids : List String} (htgt : row.id∉ids)
    (hdon : ∀ cur∈s.carts, cur.id∈ids → cur.status=.active∧cur.convertedOrderId=none) {request : MergeRequest} {customerId : String} {cur : CartRow}
    (hcur : cur∈(foldDonors s row.id ids quantities request customerId).2.carts) :
    ∃ old∈s.carts, cur.id=old.id∧cur.token=old.token ∧
      ((cur.id≠row.id∧cur.id∉ids)∧cur=old ∨
        old.status≠.merged∧cur.revision=old.revision+1∧(cur.id∈ids→cur.status=.merged)) := by
  rcases mem_updateWhere.mp hcur with ⟨mid,hmid,hmt,rfl⟩|⟨hmid,hms⟩
  · have hid : mid.id=row.id := by
      by_contra hne
      simp [hne] at hmt
    rcases mem_updateWhere.mp hmid with ⟨old,-,hret,rfl⟩|⟨hold,-⟩
    · exact absurd (hid ▸ (of_decide_eq_true hret).1) htgt
    · refine ⟨mid,hold,rfl,rfl,.inr ⟨?_,rfl,fun hmem => absurd (hid ▸ hmem) htgt⟩⟩
      exact isOpen_not_merged (Bool.and_eq_true_iff.mp hmt).2
  · rcases mem_updateWhere.mp hmid with ⟨old,hold,hret,rfl⟩|⟨hold,hkp⟩
    · refine ⟨old,hold,rfl,rfl,.inr ⟨?_,rfl,fun _ => rfl⟩⟩
      rw [(of_decide_eq_true hret).2.1]
      decide
    · refine ⟨cur,hold,rfl,rfl,.inl ⟨⟨fun hid => ?_,fun hmem => ?_⟩,rfl⟩⟩
      · rw [eq_of_key_eq CartRow.id hwf.ids hold hrow hid,hop] at hms
        simp at hms
      · exact of_decide_eq_false hkp ⟨hmem,hdon cur hold hmem⟩

/-- What a merge leaves: donors without lines and merged, the target with the
sums, every other cart as it was. -/
theorem foldDonors_spec (hwf : WellFormed s) (hrow : row∈s.carts)
    (hop : isOpen row=true)
    (hdono : ∀ donor∈donors, donor∈s.carts∧donor.id≠row.id∧donor.status=.active ∧
      donor.convertedOrderId=none)
    (hgath : gatherDonors s row.id donors=.ok quantities) (request : MergeRequest)
    (customerId : String) :
    let next := (foldDonors s row.id (donors.map CartRow.id) quantities request customerId).2
    Moves s next none∧(∀ donor∈donors, linesOf next donor.id=[] ∧
        ∃ cur∈next.carts, cur.id=donor.id∧cur.status=.merged) ∧
      ∀ sku, quantityOf next row.id sku+(donors.map fun donor =>
          quantityOf next donor.id sku).sum =
        quantityOf s row.id sku+(donors.map fun donor => quantityOf s donor.id sku).sum := by
  obtain ⟨⟨union,hgat,htar⟩,hqua⟩ := gatherDonors_spec hwf.sound hgath
  obtain ⟨hwri,hskus,had⟩ := writeCartLines_written hwf.sound row.id quantities .merge
    request.catalog
  have htgt : row.id∉donors.map CartRow.id := by
    intro hmem
    obtain ⟨donor,hdon,hid⟩ := mem_map.mp hmem
    exact (hdono donor hdon).2.1 hid
  have hdon : ∀ cur∈s.carts, cur.id∈donors.map CartRow.id →
      cur.status=.active∧cur.convertedOrderId=none := by
    intro cur hcur hmem
    obtain ⟨donor,hdon,hid⟩ := mem_map.mp hmem
    obtain ⟨hmemD,-,hact,hord⟩ := hdono donor hdon
    rw [eq_of_key_eq CartRow.id hwf.ids hcur hmemD hid.symm]
    exact ⟨hact,hord⟩
  intro next
  have hlns : ∀ id, linesOf next id=linesOf
      (stripLines (writeCartLines s row.id quantities .merge request.catalog)
        (donors.map CartRow.id)) id := fun _ => rfl
  have hids : next.carts.map CartRow.id=s.carts.map CartRow.id := by
    change (updateWhere _ _ (updateWhere _ _ s.carts)).map CartRow.id=_
    rw [map_updateWhere CartRow.id,map_updateWhere CartRow.id]
    · exact fun _ _ => rfl
    · exact fun _ _ => rfl
  refine ⟨?_,fun donor hmem => ⟨?_,?_⟩,fun sku => ?_⟩
  · refine .touch hwf (fun id => id=row.id∨id∈donors.map CartRow.id) hids ?_
      (hwri.sound.delete _) ?_ ?_ ?_
    · change (updateWhere _ _ (updateWhere _ _ s.carts)).map CartRow.token=_
      rw [map_updateWhere CartRow.token,map_updateWhere CartRow.token]
      · exact fun _ _ => rfl
      · exact fun _ _ => rfl
    · intro cur hcur
      obtain ⟨old,hold,hid,htok,hcha⟩ := foldDonors_rows hwf hrow hop htgt hdon hcur
      refine ⟨old,hold,hid,htok,?_⟩
      rcases hcha with ⟨hunt,heq⟩|⟨hmer,hrev,-⟩
      · exact .inl ⟨fun h => h.elim hunt.1 hunt.2,heq⟩
      · exact .inr ⟨hmer,hrev⟩
    · intro id hunt
      rw [hlns,linesOf_stripLines fun hmem => hunt (.inr hmem)]
      exact hwri.other id fun hid => hunt (.inl hid)
    · rintro id (rfl|hmem) -
      · refine (linesOf_stripLines_le _ _ row.id).trans
          ((linesOf_length_le hwri.sound fun line hln => ?_).trans hgat.bounded)
        rcases hskus line hln with hnew|⟨old,hold,hsku,-⟩
        · obtain ⟨item,hite,hsku⟩ := mem_map.mp hnew
          rw [← hsku]
          exact hgat.covered item (mem_filter.mp hite).1
        · rw [← hsku]
          exact htar old hold
      · rw [hlns,linesOf_stripLines_nil hmem]
        exact Nat.zero_le _
  · exact linesOf_stripLines_nil (mem_map_of_mem hmem)
  · have hsto : donor.id∈next.carts.map CartRow.id := by
      rw [hids]
      exact mem_map_of_mem (hdono donor hmem).1
    obtain ⟨cur,hcur,hid⟩ := mem_map.mp hsto
    obtain ⟨old,-,-,-,hcha⟩ := foldDonors_rows hwf hrow hop htgt hdon hcur
    have hcurD : cur.id∈donors.map CartRow.id := hid ▸ mem_map_of_mem hmem
    rcases hcha with ⟨hunt,-⟩|⟨-,-,hmer⟩
    · exact absurd hcurD hunt.2
    · exact ⟨cur,hcur,hid,hmer hcurD⟩
  · have hown : quantityOf next row.id sku =
        quantityOf (writeCartLines s row.id quantities .merge request.catalog) row.id sku := by
      refine tally_deleteWhere fun line _ hkey => decide_eq_false fun hgn => htgt ?_
      have hct : line.cartId=row.id := congrArg Prod.fst hkey
      rwa [hct] at hgn
    have hno : ∀ donor∈donors, quantityOf next donor.id sku=0 := by
      intro donor hmem
      refine tally_eq_zero fun line hln hkey => ?_
      have hct : line.cartId=donor.id := congrArg Prod.fst hkey
      have hkp := of_decide_eq_false (mem_deleteWhere.mp hln).2
      rw [hct] at hkp
      exact hkp (mem_map_of_mem hmem)
    have hall : positiveItems quantities=quantities :=
      filter_eq_self.mpr fun item hite => decide_eq_true (hgat.positive item hite)
    have hsum : (donors.map fun donor => quantityOf next donor.id sku).sum=0 := by
      refine sum_eq_zero fun n hn => ?_
      obtain ⟨donor,hmem,rfl⟩ := mem_map.mp hn
      exact hno donor hmem
    rw [hown,hsum,had (by decide) sku,hall,hqua sku]
    ring

/-- Cart a step creates. -/
def createdBy : Action → Option String
  | .create request => some request.id
  | _ => none

theorem mergeCarts_moves (hwf : WellFormed s) (request : MergeRequest) :
    Moves s (mergeCarts s request).2 none := by
  rcases mergeCarts_cases request with
    ⟨-,heq⟩|⟨customerId,row,quantities,-,hfin,hblo,hgat,hok⟩
  · rw [heq]
    exact .refl hwf
  rw [hok]
  obtain ⟨hrow,-⟩ := find_key_eq_some CartRow.token hfin
  obtain ⟨hop,-,-⟩ := mutationBlocker_none hblo
  exact (foldDonors_spec hwf hrow hop (fun donor hdon => mem_mergeDonors hdon) hgat
    request customerId).1

theorem step_moves (hwf : WellFormed s) (a : Action) (hnew : ∀ request, a=.create request →
      ∀ old∈s.carts, old.id≠request.id∧old.token≠request.token) :
    Moves s (step s a).2 (createdBy a) := by
  cases a with
  | create request =>
    exact createCart_moves hwf request (fun old hold => (hnew request rfl old hold).1)
      fun old hold => (hnew request rfl old hold).2
  | lines request => exact patchLines_moves hwf request
  | identity request => exact patchIdentity_moves hwf request
  | merge request => exact mergeCarts_moves hwf request
  | convert request => exact convertCart_moves hwf request
  | reopen request => exact reopenConvertedCart_moves hwf request
  | abandon cutoff now take => exact abandonStaleCarts_moves hwf cutoff now take
  | cleanup now retentionCutoff ttlTake agedTake =>
    exact cleanupExpiredCarts_moves hwf now retentionCutoff ttlTake agedTake

end Steps

end SellRight.CartMoves
