import SellRight.CartMoves

/-!
# No cart update is lost

What follows for whole histories from what a writer may change: the revision
of a cart tells its content, absolute writes act on the revision they were
based on, appends add up, a merge loses no unit and leaves its donors for good,
and no cart outgrows the largest size.
-/

namespace SellRight.CartSafety

open RowTable RowUpserts RunHistory CartStore CartLines CartMoves List

/-- What a reader of a cart sees besides its revision. -/
structure CartContent where
  lines : List (String×Option String×ℤ)
  couponCodes : List String
  (email customerId : Option String)
  status : CartStatus
  convertedOrderId : Option String

def content (s : Carts) (row : CartRow) : CartContent :=
  ⟨(linesOf s row.id).map fun line => (line.sku,line.variantId,line.quantity),row.couponCodes,
    row.email,row.customerId,row.status,row.convertedOrderId⟩

abbrev CartHistory := List (Event Carts Action Reply)

/-- A cart is created under an identifier that no cart ever had and a token no
stored cart has. -/
def Possible (h : CartHistory) (s : Carts) : Action → Prop
  | .create request => (∀ old∈s.carts, old.id≠request.id∧old.token≠request.token) ∧
      ∀ e∈h, ∀ old∈e.before.carts, old.id≠request.id
  | _ => True

instance (h : CartHistory) (s : Carts) (a : Action) : Decidable (Possible h s a) :=
  match a with
  | .create request => inferInstanceAs (Decidable ((∀ old∈s.carts, old.id≠request.id ∧
      old.token≠request.token)∧∀ e∈h, ∀ old∈e.before.carts, old.id≠request.id))
  | .lines _ | .identity _ | .merge _ | .convert _ | .reopen _ | .abandon _ _ _ | .cleanup _ _ _ _ =>
    inferInstanceAs (Decidable True)

/-- States a history went through, the first one included. -/
def states (start : Carts) (h : CartHistory) : List Carts := start::h.map Event.after

/-- Each cart of an earlier state that is still there has a revision no lower,
and is the same with the same lines if the revision is or if it was merged. -/
def Follows (past s : Carts) : Prop := ∀ old∈past.carts, ∀ cur∈s.carts, cur.id=old.id →
    old.revision≤cur.revision∧(old.revision=cur.revision∨old.status=.merged →
      cur=old∧linesOf s cur.id=linesOf past cur.id)

variable {past : Carts} {a : Action} {row : CartRow}

section Histories

variable {start s : Carts} {h : CartHistory}

/-- Every state follows itself. -/
theorem Follows.refl (hwf : WellFormed s) : Follows s s := by
  intro old hold cur hcur hid
  obtain rfl := eq_of_key_eq CartRow.id hwf.ids hcur hold hid
  exact ⟨le_refl _,fun _ => ⟨rfl,rfl⟩⟩

/-- A step follows all that its start followed, unless it creates a cart under
an old identifier. -/
theorem Follows.next {next : Carts} {created : Option String} (hfol : Follows past s)
    (hmvs : Moves s next created) (hfre : ∀ old∈past.carts, created≠some old.id) :
    Follows past next := by
  intro old hold cur hcur hid
  rcases hmvs.rows cur hcur with hcre|⟨mid,hmid,hmidId,-,hcha⟩
  · rw [hid] at hcre
    exact absurd hcre (hfre old hold)
  obtain ⟨hle,heq⟩ := hfol old hold mid hmid (hmidId.symm.trans hid)
  rcases hcha with ⟨hcur,hlns⟩|⟨hmer,hbum⟩
  · subst hcur
    refine ⟨hle,fun hsta => ?_⟩
    obtain ⟨hold,hmidL⟩ := heq hsta
    exact ⟨hold,hlns.trans hmidL⟩
  · refine ⟨by omega,?_⟩
    rintro (hrev|hmerg)
    · omega
    · obtain ⟨hmidO,-⟩ := heq (.inr hmerg)
      rw [hmidO] at hmer
      exact absurd hmerg hmer

/-- What a history leaves behind. -/
structure Told (start : Carts) (h : CartHistory) (s : Carts) : Prop where
  wellFormed : WellFormed s
  always : ∀ past∈states start h, WellFormed past
  ordered : (states start h).Pairwise Follows
  follows : ∀ past∈states start h, Follows past s
  met : ∀ past∈states start h, past=s∨∃ e∈h, past=e.before

theorem possible_moves (hwf : WellFormed s) (hpos : Possible h s a) :
    Moves s (step s a).2 (createdBy a) := by
  refine step_moves hwf a fun request hcre => ?_
  subst hcre
  exact hpos.1

/-- A created identifier is new to the whole history. -/
theorem possible_fresh (hpos : Possible h s a)
    (hpa : past=s∨∃ e∈h, past=e.before) : ∀ old∈past.carts, createdBy a≠some old.id := by
  intro old hold hcre
  cases a with
  | create request =>
    have hid : request.id=old.id := Option.some.inj hcre
    rcases hpa with rfl|⟨e,he,rfl⟩
    · exact (hpos.1 old hold).1 hid.symm
    · exact hpos.2 e he old hold hid.symm
  | _ => cases hcre

/-- One step extends what a history leaves behind. -/
theorem step_told (htol : Told start h s) (hpos : Possible h s a) :
    Told start (h++[perform step s a]) (step s a).2 := by
  have hmvs := possible_moves htol.wellFormed hpos
  have hsta : states start (h++[perform step s a])=states start h++[(step s a).2] := by
    simp [states,perform]
  have hfol : ∀ past∈states start h, Follows past (step s a).2 := by
    intro past hpa
    exact (htol.follows past hpa).next hmvs (possible_fresh hpos (htol.met past hpa))
  refine ⟨hmvs.wellFormed,?_,?_,?_,?_⟩
  · intro past hpa
    rw [hsta] at hpa
    rcases mem_append.mp hpa with hold|hnew
    · exact htol.always past hold
    · rw [mem_singleton.mp hnew]
      exact hmvs.wellFormed
  · rw [hsta,pairwise_append]
    refine ⟨htol.ordered,pairwise_singleton _ _,fun past hpa cur hcur => ?_⟩
    rw [mem_singleton.mp hcur]
    exact hfol past hpa
  · intro past hpa
    rw [hsta] at hpa
    rcases mem_append.mp hpa with hold|hnew
    · exact hfol past hold
    · rw [mem_singleton.mp hnew]
      exact .refl hmvs.wellFormed
  · intro past hpa
    rw [hsta] at hpa
    rcases mem_append.mp hpa with hold|hnew
    · rcases htol.met past hold with rfl|⟨e,he,hbef⟩
      · exact .inr ⟨perform step past a,by simp,rfl⟩
      · exact .inr ⟨e,mem_append_left _ he,hbef⟩
    · exact .inl (mem_singleton.mp hnew)

/-- Every history from well-formed tables tells its carts. -/
theorem run_told (hsta : WellFormed start) (hrun : Run step Possible start h s) :
    Told start h s := by
  refine hrun.invariant ⟨hsta,?_,pairwise_singleton _ _,?_,?_⟩ ?_
  · intro past hpa
    rw [mem_singleton.mp hpa]
    exact hsta
  · intro past hpa
    rw [mem_singleton.mp hpa]
    exact .refl hsta
  · intro past hpa
    exact .inl (mem_singleton.mp hpa)
  · intro past cur a htol hpos
    exact step_told htol hpos

/-- Cart and revision an absolute write, an identity patch, a merge or a
conversion is based on. -/
def basedOn : Action → Option (String×Option ℤ)
  | .lines request => if request.expectedRevision.isSome || !appendsOnly request then
      some (request.token,request.expectedRevision) else none
  | .identity request => some (request.token,request.expectedRevision)
  | .merge request => some (request.token,request.expectedRevision)
  | .convert request => some (request.token,request.expectedRevision)
  | _ => none

variable {expected : Option ℤ}

/-- A guard that let a based step pass saw the revision it was based on. -/
theorem mutationBlocker_based {required : Bool}
    (hno : mutationBlocker row expected required=none)
    (hbas : expected.isSome=true∨required=true) : expected=some row.revision := by
  obtain ⟨-,hmt,hmis⟩ := mutationBlocker_none hno
  cases expected with
  | some revision => rw [hmt revision rfl]
  | none =>
    rcases hbas with hso|hreq
    · cases hso
    · rw [hmis rfl] at hreq
      cases hreq

theorem step_based (hwf : WellFormed s) {token : String}
    (hbas : basedOn a=some (token,expected)) :
    Refused s (step s a)∨∃ row, findCart s token=some row∧expected=some row.revision := by
  cases a with
  | lines request =>
    rcases patchLines_cases hwf request with href|⟨row,written,hfin,hblo,-,-⟩
    · exact .inl href
    simp only [basedOn] at hbas
    split_ifs at hbas with hgua
    cases hbas
    exact .inr ⟨row,hfin,mutationBlocker_based hblo (by simpa using hgua)⟩
  | identity request =>
    cases hbas
    rcases patchIdentity_cases request with href|⟨row,hfin,hblo,-⟩
    · exact .inl href
    · exact .inr ⟨row,hfin,mutationBlocker_based hblo (.inr rfl)⟩
  | merge request =>
    cases hbas
    rcases mergeCarts_cases request with href|⟨_,row,_,-,hfin,hblo,-,-⟩
    · exact .inl href
    · exact .inr ⟨row,hfin,mutationBlocker_based hblo (.inr rfl)⟩
  | convert request =>
    cases hbas
    rcases convertCart_cases request with href|⟨row,hfin,-,-,hrev,-,-⟩
    · exact .inl href
    · exact .inr ⟨row,hfin,hrev⟩
  | _ => cases hbas

/-- Whether a step is an append: a patch of lines without a revision. -/
def isAppend : Action → Bool
  | .lines request => request.expectedRevision.isNone
  | _ => false

/-- Units of a SKU a successful append added to the cart of a token. -/
def appendedBy (e : Event Carts Action Reply) (token sku : String) : ℤ :=
  match e.action with
  | .lines request => if e.result=.ok∧request.token=token then itemQuantity request.lines sku else 0
  | _ => 0

theorem quantityOf_congr {next : Carts} {id : String} (hlns : linesOf next id=linesOf s id)
    (sku : String) : quantityOf next id sku=quantityOf s id sku := by
  rw [← linesOf_quantity,← linesOf_quantity,hlns]

theorem append_step (hwf : WellFormed s) (happ : isAppend a=true) (hrow : row∈s.carts) :
    (∃ cur∈(step s a).2.carts, cur.id=row.id∧cur.token=row.token) ∧
      ∀ sku, quantityOf (step s a).2 row.id sku =
        quantityOf s row.id sku+appendedBy (perform step s a) row.token sku := by
  cases a with
  | lines request =>
    have hno : request.expectedRevision=none := by simpa [isAppend] using happ
    rcases patchLines_cases hwf request with
      ⟨hnot,heq⟩|⟨target,written,hfin,hblo,happl,hok⟩
    · refine ⟨⟨row,?_,rfl,rfl⟩,fun sku => ?_⟩
      · rw [step,heq]
        exact hrow
      · have hz : appendedBy (perform step s (.lines request)) row.token sku=0 :=
          if_neg fun h => hnot h.1
        rw [hz,step,heq,add_zero]
    · obtain ⟨htgt,htar⟩ := find_key_eq_some CartRow.token hfin
      obtain ⟨-,-,hreq⟩ := mutationBlocker_none hblo
      have honl : appendsOnly request=true := by simpa using hreq hno
      have hcou : request.couponCodes=none := by
        simp only [appendsOnly,Bool.and_eq_true,Option.isNone_iff_eq_none] at honl
        exact honl.1.1
      have hpos : ∀ line∈request.lines, 0<line.quantity := by
        simp only [appendsOnly,Bool.and_eq_true,all_eq_true,decide_eq_true_eq] at honl
        exact honl.2
      rw [hno] at happl
      obtain ⟨hnx,-,had⟩ := applyLines_applied hwf.sound happl
      have hstep : step s (.lines request)=(.ok,written) := by
        rw [step,hok,hcou]
        rfl
      have hres : (perform step s (.lines request)).result=.ok := by simp only [perform,hstep]
      refine ⟨?_,fun sku => ?_⟩
      · rw [hstep]
        rw [hnx.carts]
        cases hmt : decide (row.id=target.id)&&isOpen row with
        | true => exact ⟨_,mem_updateWhere.mpr (.inl ⟨row,hrow,hmt,rfl⟩),rfl,rfl⟩
        | false => exact ⟨row,mem_updateWhere.mpr (.inr ⟨hrow,hmt⟩),rfl,rfl⟩
      · rw [hstep]
        simp only
        by_cases htok : request.token=row.token
        · have heq := eq_of_key_eq CartRow.token hwf.tokens htgt hrow (htar.trans htok)
          have hamo : appendedBy (perform step s (.lines request)) row.token sku =
              itemQuantity request.lines sku := if_pos ⟨hres,htok⟩
          rw [hamo,← heq]
          exact had rfl hpos sku
        · have hamo : appendedBy (perform step s (.lines request)) row.token sku=0 :=
            if_neg fun h => htok h.2
          have hot : row.id≠target.id := by
            intro hid
            rw [eq_of_key_eq CartRow.id hwf.ids hrow htgt hid] at htok
            exact htok htar.symm
          rw [hamo,add_zero]
          exact quantityOf_congr (hnx.other row.id hot) sku
  | _ => cases happ

/-- Appends add up in any order. -/
theorem appends_add (hsta : WellFormed start) (hrun : Run step Possible start h s)
    (happe : ∀ e∈h, isAppend e.action=true) (hrow : row∈start.carts) :
    (∃ cur∈s.carts, cur.id=row.id∧cur.token=row.token)∧∀ sku, quantityOf s row.id sku =
        quantityOf start row.id sku+(h.map fun e => appendedBy e row.token sku).sum := by
  have hinv : WellFormed s∧((∀ e∈h, isAppend e.action=true) →
      (∃ cur∈s.carts, cur.id=row.id∧cur.token=row.token)∧∀ sku, quantityOf s row.id sku =
          quantityOf start row.id sku+(h.map fun e => appendedBy e row.token sku).sum) := by
    refine hrun.invariant (P := fun h s => WellFormed s∧((∀ e∈h, isAppend e.action=true) →
      (∃ cur∈s.carts, cur.id=row.id∧cur.token=row.token)∧∀ sku, quantityOf s row.id sku =
          quantityOf start row.id sku+(h.map fun e => appendedBy e row.token sku).sum))
      ⟨hsta,fun _ => ⟨⟨row,hrow,rfl,rfl⟩,fun sku => by simp⟩⟩ ?_
    rintro past cur a ⟨hwf,hpa⟩ hpos
    refine ⟨(possible_moves hwf hpos).wellFormed,fun hall => ?_⟩
    obtain ⟨⟨mid,hmid,hid,htok⟩,hqua⟩ := hpa fun e he => hall e (mem_append_left _ he)
    have happ : isAppend a=true := hall (perform step cur a) (by simp)
    obtain ⟨⟨last,hlt,hlas,hlastToken⟩,had⟩ := append_step hwf happ hmid
    refine ⟨⟨last,hlt,hlas.trans hid,hlastToken.trans htok⟩,fun sku => ?_⟩
    have hstep := had sku
    rw [hid,htok] at hstep
    rw [hstep,hqua sku,map_append,sum_append]
    simp [add_assoc]
  exact hinv.2 happe

/-- A cart that keeps its revision along a history keeps its content. -/
theorem Follows.content (hfol : Follows past s) {old cur : CartRow}
    (hold : old∈past.carts) (hcur : cur∈s.carts) (hid : cur.id=old.id)
    (hrev : old.revision=cur.revision) : content s cur=content past old := by
  obtain ⟨heq,hlns⟩ := (hfol old hold cur hcur hid).2 (.inl hrev)
  subst heq
  rw [CartSafety.content,CartSafety.content,hlns]

/-- Two reads of a cart along a history with the same revision show the same
content. -/
theorem reads_agree (htol : Told start h s) {p q : Carts} (hp : p∈states start h)
    (hq : q∈states start h) {other : CartRow} (hrow : row∈p.carts)
    (hot : other∈q.carts) (hid : row.id=other.id) (hrev : row.revision=other.revision) :
    content p row=content q other := by
  obtain ⟨i,hi,rfl⟩ := mem_iff_getElem.mp hp
  obtain ⟨j,hj,rfl⟩ := mem_iff_getElem.mp hq
  have hord := pairwise_iff_getElem.mp htol.ordered
  rcases lt_trichotomy i j with hlt|heq|hgt
  · exact ((hord i j hi hj hlt).content hrow hot hid.symm hrev).symm
  · subst heq
    have hsel := Follows.refl (htol.always _ hp)
    exact hsel.content hot hrow hid hrev.symm
  · exact (hord j i hj hi hgt).content hot hrow hid hrev.symm

variable {h₁ h₂ : CartHistory}
variable {e : Event Carts Action Reply}

/-- A step of a run meets what its past leaves behind. -/
theorem told_at (hsta : WellFormed start)
    (hrun : Run step Possible start (h₁++e::h₂) s) :
    Told start h₁ e.before∧Possible h₁ e.before e.action∧e=perform step e.before e.action := by
  obtain ⟨hpa,hpos,hper⟩ := hrun.split
  exact ⟨run_told hsta hpa,hpos,hper⟩

/-- What a successful merge request does to its target and its donors, and what
stays of the donors in later states. -/
def MergeKeeps (e : Event Carts Action Reply) (later : List Carts) (request : MergeRequest) :
    Prop :=
  ∃ row customerId, findCart e.before request.token=some row∧request.customerId=some customerId ∧
    let donors := mergeDonors e.before row customerId request.candidates
    (∀ sku, quantityOf e.after row.id sku +
        (donors.map fun donor => quantityOf e.after donor.id sku).sum =
      quantityOf e.before row.id sku +
        (donors.map fun donor => quantityOf e.before donor.id sku).sum) ∧
    ∀ donor∈donors, ∃ merged∈e.after.carts, merged.id=donor.id∧merged.status=.merged ∧
      linesOf e.after merged.id=[]∧∀ t∈later, ∀ cur∈t.carts, cur.id=donor.id →
        cur=merged∧linesOf t cur.id=[]

theorem merge_keeps (hsta : WellFormed start) (hrun : Run step Possible start (h₁++e::h₂) s)
    {request : MergeRequest} (hact : e.action=.merge request) (hres : e.result=.ok) :
    MergeKeeps e (h₂.map Event.after) request := by
  obtain ⟨htol,-,hper⟩ := told_at hsta hrun
  have hwf := htol.wellFormed
  have hstep : step e.before e.action=(e.result,e.after) := by
    rw [hper]
    rfl
  rw [hact,hres] at hstep
  rcases mergeCarts_cases request with
    ⟨hnot,-⟩|⟨customerId,row,quantities,hcus,hfin,hblo,hgat,hok⟩
  · rw [show mergeCarts e.before request=step e.before (.merge request) from rfl,hstep] at hnot
    exact absurd rfl hnot
  obtain ⟨hrow,-⟩ := find_key_eq_some CartRow.token hfin
  obtain ⟨hop,-,-⟩ := mutationBlocker_none hblo
  have haft := hok.symm.trans hstep
  obtain ⟨hmvs,hdono,hsum⟩ := foldDonors_spec hwf hrow hop
    (fun donor hdon => mem_mergeDonors hdon) hgat request customerId
  rw [(Prod.mk.inj haft).2] at hmvs hdono hsum
  refine ⟨row,customerId,hfin,hcus,hsum,fun donor hdon => ?_⟩
  obtain ⟨hno,merged,hmer,hid,hstat⟩ := hdono donor hdon
  refine ⟨merged,hmer,hid,hstat,hid ▸ hno,fun t ht cur hcur hcurId => ?_⟩
  have hord := (run_told hsta hrun).ordered
  have hlis : states start (h₁++e::h₂) =
      (start::h₁.map Event.after)++e.after::h₂.map Event.after := by
    simp [states]
  rw [hlis,pairwise_append] at hord
  have hfol := (pairwise_cons.mp hord.2.1).1 t ht
  obtain ⟨heq,hlns⟩ := (hfol merged hmer cur hcur (hcurId.trans hid.symm)).2 (.inr hstat)
  refine ⟨heq,hlns.trans ?_⟩
  rw [hcurId]
  exact hno

/-- No cart update is lost, in any history of the writers: a change of a cart
raises its revision, so reads with one revision agree; an absolute write, an
identity patch, a merge or a conversion takes effect only on the revision it
carries; appends add up; a merge keeps every unit and leaves its donors for
good; and no cart outgrows the largest size. -/
theorem carts_keep_updates (hstart : WellFormed start) (hrun : Run step Possible start h s) :
    (∀ e∈h, ∀ old∈e.before.carts, ∀ cur∈e.after.carts, cur.id=old.id →
      content e.after cur≠content e.before old → old.revision<cur.revision) ∧
    (∀ p∈states start h, ∀ q∈states start h, ∀ row∈p.carts, ∀ other∈q.carts,
      row.id=other.id → row.revision=other.revision→content p row=content q other) ∧
    (∀ e∈h, ∀ token expected, basedOn e.action=some (token,expected) →
      (e.result=.ok∨e.after≠e.before) →
      ∃ row, findCart e.before token=some row∧expected=some row.revision) ∧
    ((∀ e∈h, isAppend e.action=true)→∀ row∈start.carts, ∀ sku, quantityOf s row.id sku =
        quantityOf start row.id sku+(h.map fun e => appendedBy e row.token sku).sum) ∧
    (∀ h₁ e h₂ request, h=h₁++e::h₂→e.action=.merge request→e.result=.ok →
      MergeKeeps e (h₂.map Event.after) request) ∧
    (∀ e∈h, ∀ id, (linesOf e.before id).length ≤ maxCartLines →
      (linesOf e.after id).length ≤ maxCartLines) := by
  have hmvs : ∀ e∈h, WellFormed e.before∧Moves e.before e.after (createdBy e.action) ∧
      Follows e.before e.after∧step e.before e.action=(e.result,e.after) := by
    intro e he
    obtain ⟨h₁,h₂,rfl⟩ := append_of_mem he
    obtain ⟨htol,hpos,hper⟩ := told_at hstart hrun
    have hstep := possible_moves htol.wellFormed hpos
    have haft : (step e.before e.action).2=e.after := (congrArg Event.after hper).symm
    have hres : (step e.before e.action).1=e.result := (congrArg Event.result hper).symm
    rw [haft] at hstep
    refine ⟨htol.wellFormed,hstep,?_,Prod.ext hres haft⟩
    exact (Follows.refl htol.wellFormed).next hstep (possible_fresh hpos (.inl rfl))
  refine ⟨?_,?_,?_,?_,?_,?_⟩
  · intro e he old hold cur hcur hid hcha
    obtain ⟨-,-,hfol,-⟩ := hmvs e he
    have hle := (hfol old hold cur hcur hid).1
    by_contra hnot
    exact hcha (hfol.content hold hcur hid (by omega))
  · intro p hp q hq row hrow other hot hid hrev
    exact reads_agree (run_told hstart hrun) hp hq hrow hot hid hrev
  · intro e he token expected hbas heff
    obtain ⟨hwf,-,-,hstep⟩ := hmvs e he
    rcases step_based hwf hbas with ⟨hnotOk,heq⟩|hrow
    · rw [hstep] at hnotOk heq
      exact absurd heff (not_or.mpr ⟨hnotOk,not_not.mpr heq⟩)
    · exact hrow
  · intro happ row hrow
    exact (appends_add hstart hrun happ hrow).2
  · rintro h₁ e h₂ request rfl hact hres
    exact merge_keeps hstart hrun hact hres
  · intro e he
    exact (hmvs e he).2.1.bounded

/-- A shop without carts. -/
def noCarts : Carts := ⟨[],[]⟩

theorem noCarts_wellFormed : WellFormed noCarts :=
  ⟨nodup_nil,nodup_nil,⟨nodup_nil,nofun⟩⟩

/-- A guest and a customer fill their carts; the guest signs in and merges, a
stale write is refused, and the cart is checked out and reopened. -/
def guestSignsIn : List Action := [.create ⟨"a", "guest",[],none,none,[⟨"mug",1⟩],[],0,10,true⟩,
    .create ⟨"b", "mine",[],some "ann",none,[⟨"mug",2⟩,⟨"pen",1⟩],[],1,11,true⟩,
    .lines ⟨"guest",[⟨"mug",3⟩],none,none,[],2,12,true⟩,
    .merge ⟨"guest",some "ann",["b"],some 2,[],3,true⟩,
    .lines ⟨"guest",[⟨"mug",0⟩],none,some 2,[],4,14,true⟩,
    .identity ⟨"guest", "ann@example.test",some 3,none,5,true⟩,
    .convert ⟨"guest",some 4, "order",6,true⟩,
    .reopen ⟨"a", "order",some .cancelled,false,7,17⟩,
    .cleanup 20 none 100 100]

/-- In the sample history every unit ends up in the merged cart. -/
theorem carts_keep_updates_guestSignsIn : let h := (play step [] noCarts guestSignsIn).1
    let s := (play step [] noCarts guestSignsIn).2
    h.map Event.result=[.ok,.ok,.ok,.ok,.conflict .stale,.ok,.ok,.ok,.ok] ∧
      s.lines.map (fun line => (line.cartId,line.sku,line.quantity)) =
        [("a", "mug",6),("a", "pen",1)] ∧
      ∀ p∈states noCarts h, ∀ q∈states noCarts h, ∀ row∈p.carts, ∀ other∈q.carts,
        row.id=other.id → row.revision=other.revision→content p row=content q other := by
  have hnil : Run step Possible noCarts [] noCarts := .nil
  have hrun := hnil.play guestSignsIn ⟨by decide,by decide,trivial,trivial,trivial,trivial,
    trivial,trivial,trivial,trivial⟩
  exact ⟨by decide,by decide,(carts_keep_updates noCarts_wellFormed hrun).2.1⟩

end Histories

end SellRight.CartSafety
