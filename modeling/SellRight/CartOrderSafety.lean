import SellRight.CartMoves
import SellRight.CartOrders

/-!
# One live order for each cart

At every moment the only order of a cart that may not be cancelled is the one
the cart is converted into. A reopening that reports success met or left the
cart open with its orders cancelled, or met it converted anew by a checkout
that came after the reopening read it.
-/

namespace SellRight.CartOrderSafety

open RowTable RunHistory CartOrders List
open CartStore hiding Action step
open CartMoves (convertCart_cases)
open OrderLifecycle (OrderState canTransition)

variable {s next : Shop} {lively : String}

/-- Orders keep their identity and a cancelled order stays cancelled. -/
structure OrdersFollow (before after : List OrderRow) : Prop where
  ids : after.map OrderRow.id=before.map OrderRow.id
  /-- Every order comes from one of the same identity. -/
  origin : ∀ o∈after, ∃ old∈before, o.id=old.id∧o.cartId=old.cartId ∧
    (old.state=.cancelled → o.state=.cancelled)

/-- One cart is rewritten to a row of a given kind. -/
structure Rewritten (before after : Carts) (row : CartRow) (P : CartRow → Prop) : Prop where
  ids : after.carts.map CartRow.id=before.carts.map CartRow.id
  tokens : after.carts.map CartRow.token=before.carts.map CartRow.token
  rows : ∀ cur∈after.carts, (cur∈before.carts∧cur.id≠row.id)∨(cur.id=row.id∧P cur)

/-- Carts and orders agree, and one given cart is neither abandoned nor merged. -/
structure Sound (lively : String) (s : Shop) : Prop where
  cartIds : (s.carts.carts.map CartRow.id).Nodup
  orderIds : (s.orders.map OrderRow.id).Nodup
  converted : ∀ row∈s.carts.carts, row.status=.converted ↔ row.convertedOrderId≠none
  named : ∀ row∈s.carts.carts, ∀ orderId, row.convertedOrderId=some orderId →
    ∃ o∈s.orders, o.id=orderId∧o.cartId=some row.id
  others : ∀ row∈s.carts.carts, ∀ o∈s.orders, o.cartId=some row.id →
    row.convertedOrderId=some o.id∨o.state=.cancelled
  origin : ∀ o∈s.orders, ∀ cartId, o.cartId=some cartId→∃ row∈s.carts.carts, row.id=cartId
  alive : ∀ row∈s.carts.carts, row.id=lively → row.status=.active∨row.status=.converted

/-- Everything one step can do. -/
inductive Effect (s : Shop) : Action → Answer → Shop → Prop
  | moves {action : Action} {answer : Answer} {orders : List OrderRow} :
      OrdersFollow s.orders orders→(∀ id, answer≠.placed id) →
      Effect s action answer {s with orders := orders}
  | places (request : CheckoutRequest) :
      Effect s (.checkout request) (.placed request.orderId)
        {s with orders := s.orders++[newOrder request none]}
  | converts (request : CheckoutRequest) {row : CartRow} {carts : Carts} :
      row∈s.carts.carts → row.convertedOrderId=none →
      Rewritten s.carts carts row (fun cur => cur.status=.converted ∧
        cur.convertedOrderId=some request.orderId) →
      Effect s (.checkout request) (.placed request.orderId)
        ⟨carts,s.orders++[newOrder request (some row.id)]⟩
  /-- A reopening cancels the unpaid order of a cart and takes the cart back. -/
  | reopens (request : ReopenRequest) {row : CartRow} {carts : Carts} :
      row∈s.carts.carts → row.id=request.cartId →
      row.convertedOrderId=some request.orderId →
      (∀ o∈s.orders, o.id=request.orderId → o.state=.pendingPayment∨o.state=.cancelled) →
      Rewritten s.carts carts row (fun cur => cur.status=.active∧cur.convertedOrderId=none) →
      Effect s (.reopenCommit request) (.cart .ok) ⟨carts,cancelOrder s.orders request.orderId⟩

/-- Orders that are left alone follow themselves. -/
theorem OrdersFollow.refl (orders : List OrderRow) : OrdersFollow orders orders :=
  ⟨rfl,fun o ho => ⟨o,ho,rfl,rfl,fun h => h⟩⟩

variable {orders : List OrderRow} {orderId : String} {o : OrderRow} {carts : Carts} {row : CartRow}
  {h₁ h₂ : List (Event Shop Action Answer)} {e : Event Shop Action Answer}

theorem OrdersFollow.update {p : OrderRow → Bool} {f : OrderRow → OrderRow}
    (hid : ∀ o, (f o).id=o.id) (hct : ∀ o, (f o).cartId=o.cartId)
    (hst : ∀ o∈orders, p o=true → o.state=.cancelled→(f o).state=.cancelled) :
    OrdersFollow orders (updateWhere p f orders) := by
  refine ⟨map_updateWhere OrderRow.id orders fun o _ => hid o,fun o ho => ?_⟩
  rcases mem_updateWhere.mp ho with ⟨old,hold,hmt,rfl⟩|⟨heq,-⟩
  · exact ⟨old,hold,hid old,hct old,hst old hold hmt⟩
  · exact ⟨o,heq,rfl,rfl,fun h => h⟩

/-- Every order is still there, of the same identity. -/
theorem OrdersFollow.forward {before after : List OrderRow} (hfol : OrdersFollow before after)
    (hids : (before.map OrderRow.id).Nodup) {old : OrderRow} (hold : old∈before) :
    ∃ o∈after, o.id=old.id∧o.cartId=old.cartId := by
  have hmem : old.id∈after.map OrderRow.id := by
    rw [hfol.ids]
    exact mem_map_of_mem hold
  obtain ⟨o,ho,hid⟩ := mem_map.mp hmem
  obtain ⟨origin,hori,heq,hct,-⟩ := hfol.origin o ho
  have hori : origin=old := eq_of_key_eq OrderRow.id hids hori hold (heq.symm.trans hid)
  exact ⟨o,ho,hid,hori ▸ hct⟩

theorem cancelOrder_follow (orders : List OrderRow) (orderId : String) :
    OrdersFollow orders (cancelOrder orders orderId) :=
  OrdersFollow.update (fun _ => rfl) (fun _ => rfl) fun _ _ _ _ => rfl

theorem cancelOrder_cancelled
    (hop : ∀ o∈orders, o.id=orderId → o.state=.pendingPayment∨o.state=.cancelled)
    (ho : o∈cancelOrder orders orderId) (hid : o.id=orderId) :
    o.state=.cancelled := by
  rcases mem_updateWhere.mp ho with ⟨old,-,-,rfl⟩|⟨heq,hms⟩
  · rfl
  · rcases hop o heq hid with hpen|hcan
    · simp [hid,hpen] at hms
    · exact hcan

theorem Rewritten.update {P : CartRow → Prop}
    {p : CartRow → Bool} {f : CartRow → CartRow} (hids : (carts.carts.map CartRow.id).Nodup)
    (hrow : row∈carts.carts) (hmt : p row=true)
    (honl : ∀ cur, p cur=true→cur.id=row.id) (hid : ∀ cur, (f cur).id=cur.id)
    (htok : ∀ cur, (f cur).token=cur.token) (hres : P (f row)) :
    Rewritten carts {carts with carts := updateWhere p f carts.carts} row P where
  ids := map_updateWhere CartRow.id carts.carts fun cur _ => hid cur
  tokens := map_updateWhere CartRow.token carts.carts fun cur _ => htok cur
  rows := by
    intro cur hcur
    rcases mem_updateWhere.mp hcur with ⟨old,hold,hp,rfl⟩|⟨hsam,hms⟩
    · have hold : old=row := eq_of_key_eq CartRow.id hids hold hrow (honl old hp)
      rw [hold]
      exact .inr ⟨hid row,hres⟩
    · refine .inl ⟨hsam,fun heq => ?_⟩
      rw [eq_of_key_eq CartRow.id hids hsam hrow heq,hmt] at hms
      exact Bool.noConfusion hms

theorem Sound.row_eq (hsd : Sound lively s) {a b : CartRow} (ha : a∈s.carts.carts)
    (hb : b∈s.carts.carts) (hid : a.id=b.id) : a=b :=
  eq_of_key_eq CartRow.id hsd.cartIds ha hb hid

theorem Sound.cancelled (hsd : Sound lively s) (hrow : row∈s.carts.carts)
    (hno : row.convertedOrderId=none) (ho : o∈s.orders)
    (hct : o.cartId=some row.id) : o.state=.cancelled := by
  rcases hsd.others row hrow o ho hct with hnm|hcan
  · rw [hno] at hnm
    cases hnm
  · exact hcan

/-- Moving order states keeps carts and orders agreed. -/
theorem Sound.moves (hsd : Sound lively s)
    (hfol : OrdersFollow s.orders orders) : Sound lively {s with orders := orders} :=
  {hsd with
    orderIds := by
      rw [hfol.ids]
      exact hsd.orderIds
    named := by
      intro row hrow orderId hnm
      obtain ⟨old,hold,hid,hct⟩ := hsd.named row hrow orderId hnm
      obtain ⟨o,ho,heq,hsam⟩ := hfol.forward hsd.orderIds hold
      exact ⟨o,ho,heq.trans hid,hsam.trans hct⟩
    others := by
      intro row hrow o ho hct
      obtain ⟨old,hold,hid,heq,hsta⟩ := hfol.origin o ho
      rw [hid]
      exact (hsd.others row hrow old hold (heq ▸ hct)).imp_right hsta
    origin := by
      intro o ho cartId hct
      obtain ⟨old,hold,-,heq,-⟩ := hfol.origin o ho
      exact hsd.origin old hold cartId (heq ▸ hct)}

variable {request : CheckoutRequest}

theorem Sound.places (hsd : Sound lively s)
    (hfre : ∀ o∈s.orders, o.id≠request.orderId) :
    Sound lively {s with orders := s.orders++[newOrder request none]} :=
  {hsd with
    orderIds := nodup_map_append OrderRow.id hsd.orderIds hfre
    named := by
      intro row hrow orderId hnm
      obtain ⟨o,ho,hid,hct⟩ := hsd.named row hrow orderId hnm
      exact ⟨o,mem_append_left _ ho,hid,hct⟩
    others := by
      intro row hrow o ho hct
      rcases mem_append.mp ho with hold|hnew
      · exact hsd.others row hrow o hold hct
      · rw [mem_singleton.mp hnew] at hct
        cases hct
    origin := by
      intro o ho cartId hct
      rcases mem_append.mp ho with hold|hnew
      · exact hsd.origin o hold cartId hct
      · rw [mem_singleton.mp hnew] at hct
        cases hct}

theorem Rewritten.successor {before after : Carts} {P : CartRow → Prop}
    (hrew : Rewritten before after row P) {old : CartRow} (hold : old∈before.carts) :
    ∃ cur∈after.carts, cur.id=old.id := by
  have hmem : old.id∈after.carts.map CartRow.id := by
    rw [hrew.ids]
    exact mem_map_of_mem hold
  exact mem_map.mp hmem

/-- A conversion keeps carts and orders agreed: the cart had only cancelled
orders, and names the new one. -/
theorem Sound.converts (hsd : Sound lively s)
    (hrow : row∈s.carts.carts) (hno : row.convertedOrderId=none)
    (hrew : Rewritten s.carts carts row fun cur => cur.status=.converted ∧
      cur.convertedOrderId=some request.orderId)
    (hfre : ∀ o∈s.orders, o.id≠request.orderId) :
    Sound lively ⟨carts,s.orders++[newOrder request (some row.id)]⟩ where
  cartIds := by
    rw [hrew.ids]
    exact hsd.cartIds
  orderIds := nodup_map_append OrderRow.id hsd.orderIds hfre
  converted := by
    intro cur hcur
    rcases hrew.rows cur hcur with ⟨heq,-⟩|⟨-,hsta,hnm⟩
    · exact hsd.converted cur heq
    · simp [hsta,hnm]
  named := by
    intro cur hcur orderId hnam
    rcases hrew.rows cur hcur with ⟨heq,-⟩|⟨hid,-,hnm⟩
    · obtain ⟨o,ho,hsam,hct⟩ := hsd.named cur heq orderId hnam
      exact ⟨o,mem_append_left _ ho,hsam,hct⟩
    · rw [hnm] at hnam
      exact ⟨_,mem_append_right _ mem_cons_self,Option.some.inj hnam,congrArg some hid.symm⟩
  others := by
    intro cur hcur o ho hct
    rcases hrew.rows cur hcur with ⟨heq,hot⟩|⟨hid,-,hnm⟩
    · rcases mem_append.mp ho with hold|hnew
      · exact hsd.others cur heq o hold hct
      · rw [mem_singleton.mp hnew] at hct
        exact absurd (Option.some.inj hct).symm hot
    · rcases mem_append.mp ho with hold|hnew
      · exact .inr (hsd.cancelled hrow hno hold (hid ▸ hct))
      · rw [mem_singleton.mp hnew]
        exact .inl hnm
  origin := by
    intro o ho cartId hct
    rcases mem_append.mp ho with hold|hnew
    · obtain ⟨old,hmem,rfl⟩ := hsd.origin o hold cartId hct
      exact hrew.successor hmem
    · rw [mem_singleton.mp hnew] at hct
      cases hct
      exact hrew.successor hrow
  alive := by
    intro cur hcur hid
    rcases hrew.rows cur hcur with ⟨heq,-⟩|⟨-,hsta,-⟩
    · exact hsd.alive cur heq hid
    · exact .inr hsta

/-- A reopening keeps carts and orders agreed: the one order of the cart that
may be open is cancelled. -/
theorem Sound.reopens (hsd : Sound lively s)
    (hrow : row∈s.carts.carts) (hnam : row.convertedOrderId=some orderId)
    (hop : ∀ o∈s.orders, o.id=orderId → o.state=.pendingPayment∨o.state=.cancelled)
    (hrew : Rewritten s.carts carts row fun cur => cur.status=.active∧cur.convertedOrderId=none) :
    Sound lively ⟨carts,cancelOrder s.orders orderId⟩ := by
  have hmv := hsd.moves (cancelOrder_follow s.orders orderId)
  exact {
    cartIds := by
      rw [hrew.ids]
      exact hsd.cartIds
    orderIds := hmv.orderIds
    converted := by
      intro cur hcur
      rcases hrew.rows cur hcur with ⟨heq,-⟩|⟨-,hsta,hno⟩
      · exact hsd.converted cur heq
      · simp [hsta,hno]
    named := by
      intro cur hcur other hnm
      rcases hrew.rows cur hcur with ⟨heq,-⟩|⟨-,-,hno⟩
      · exact hmv.named cur heq other hnm
      · rw [hno] at hnm
        cases hnm
    others := by
      intro cur hcur o ho hct
      rcases hrew.rows cur hcur with ⟨heq,-⟩|⟨hid,-,-⟩
      · exact hmv.others cur heq o ho hct
      rcases hmv.others row hrow o ho (hid ▸ hct) with hnm|hcan
      · rw [hnam] at hnm
        exact .inr (cancelOrder_cancelled hop ho (Option.some.inj hnm).symm)
      · exact .inr hcan
    origin := by
      intro o ho cartId hct
      obtain ⟨old,hmem,rfl⟩ := hmv.origin o ho cartId hct
      exact hrew.successor hmem
    alive := by
      intro cur hcur hid
      rcases hrew.rows cur hcur with ⟨heq,-⟩|⟨-,hsta,-⟩
      · exact hsd.alive cur heq hid
      · exact .inl hsta}

theorem convertCart_effect (hsd : Sound lively s) (request : CheckoutRequest) (token : String)
    (hok : (convertCart s.carts (conversion request token)).1=.ok) :
    ∃ row∈s.carts.carts, findCart s.carts token=some row∧row.convertedOrderId=none ∧
      Rewritten s.carts (convertCart s.carts (conversion request token)).2 row
        fun cur => cur.status=.converted∧cur.convertedOrderId=some request.orderId := by
  rcases convertCart_cases (s := s.carts) (conversion request token) with
    ⟨href,-⟩|⟨row,hfin,-,-,-,hany,hres⟩
  · exact absurd hok href
  obtain ⟨hrow,-⟩ := find_key_eq_some CartRow.token hfin
  obtain ⟨cur,hcur,hmt⟩ := any_eq_true.mp hany
  have hgua := hmt
  simp only [Bool.and_eq_true,decide_eq_true_eq] at hgua
  have heq : cur=row := hsd.row_eq hcur hrow hgua.1.1
  rw [heq] at hmt hgua
  refine ⟨row,hrow,hfin,hgua.2,?_⟩
  rw [hres]
  refine .update hsd.cartIds hrow hmt ?_ ?_ ?_ ?_
  · intro other hot
    simp only [Bool.and_eq_true,decide_eq_true_eq] at hot
    exact hot.1.1
  · exact fun _ => rfl
  · exact fun _ => rfl
  · exact ⟨rfl,rfl⟩

theorem replayConverted_answer (orderId : Option String) (id : String) :
    replayConverted s orderId≠.placed id := by
  unfold replayConverted
  cases (orderId.bind (findOrder s)).filter fun o => !o.deleted with
  | none | some => simp

/-- Everything a checkout does. -/
theorem checkout_effect (hsd : Sound lively s) (request : CheckoutRequest) :
    Effect s (.checkout request) (checkout s request).1 (checkout s request).2 := by
  have hsta : ∀ answer, (∀ id, answer≠.placed id) → Effect s (.checkout request) answer s :=
    fun answer hans => .moves (.refl s.orders) hans
  unfold checkout
  cases request.idemKey.bind (findKey s) with
  | some => exact hsta _ (by cases request.fingerprintMatches <;> simp)
  | none =>
    cases request.cartToken with
    | none =>
      dsimp only
      split
      · exact .places request
      · exact hsta _ (by simp)
    | some token =>
      dsimp only [checkoutCart]
      cases hcon : convertCart s.carts (conversion request token) with
      | mk reply =>
        cases reply with
        | ok =>
          obtain ⟨row,hrow,hfin,hno,hrew⟩ :=
            convertCart_effect hsd request token (by rw [hcon])
          rw [hcon] at hrew
          rw [hfin]
          exact .converts request hrow hno hrew
        | replay orderId => exact hsta _ (replayConverted_answer orderId)
        | missing | conflict | tooLarge | authRequired | cartInvalid | paid | paymentInProgress
        | failed => exact hsta _ (by simp)

def takenBack (request : ReopenRequest) (cur : CartRow) : CartRow := {cur with
    status := .active
    convertedOrderId := none
    revision := cur.revision+1
    updatedAt := request.now
    expiresAt := some request.expiresAt}

/-- A reopening is refused, or it met an order not paid yet; then it takes the
cart back when it is still converted into that order. -/
theorem reopenConvertedCart_cases (carts : Carts) (request : ReopenRequest) :
    ((reopenConvertedCart carts request).1≠.ok∧(reopenConvertedCart carts request).2=carts) ∨
    ((reopenConvertedCart carts request).1=.ok ∧
      (request.orderState=some .pendingPayment∨request.orderState=some .cancelled) ∧
      (reopenConvertedCart carts request).2 =
        if carts.carts.any (stillConverted request)=true then
          {carts with carts := updateWhere (stillConverted request) (takenBack request) carts.carts}
        else carts) := by
  unfold reopenConvertedCart
  cases hst : request.orderState with
  | none => exact .inl ⟨by simp,rfl⟩
  | some state =>
    cases state with
    | pendingPayment =>
      cases hcan : request.cancellable with
      | false => exact .inl ⟨by simp,rfl⟩
      | true => exact .inr ⟨rfl,.inl rfl,rfl⟩
    | cancelled => exact .inr ⟨rfl,.inr rfl,rfl⟩
    | paid | partiallyRefunded | refunded => exact .inl ⟨by simp,rfl⟩

theorem Sound.state_eq (hsd : Sound lively s) {state : OrderState}
    (hfd : (findOrder s orderId).map OrderRow.state=some state)
    (ho : o∈s.orders) (hid : o.id=orderId) : o.state=state := by
  subst hid
  unfold findOrder at hfd
  rw [find_key_self OrderRow.id hsd.orderIds ho] at hfd
  exact Option.some.inj hfd

theorem Sound.closed_of_state (hsd : Sound lively s)
    (hst : (findOrder s orderId).map OrderRow.state=some .pendingPayment ∨
      (findOrder s orderId).map OrderRow.state=some .cancelled) :
    ∀ o∈s.orders, o.id=orderId → o.state=.pendingPayment∨o.state=.cancelled :=
  fun _ ho hid => hst.imp (hsd.state_eq · ho hid) (hsd.state_eq · ho hid)

/-- Everything the second part of a reopening does. -/
theorem reopenCommit_effect (hsd : Sound lively s) (request : ReopenRequest) :
    Effect s (.reopenCommit request) (reopenCommit s request).1 (reopenCommit s request).2 := by
  have hpla : ∀ reply id, Answer.cart reply≠.placed id := by simp
  unfold reopenCommit
  dsimp only
  rcases reopenConvertedCart_cases s.carts (underLocks s request) with
    ⟨href,hcar⟩|⟨hok,hst,hcar⟩
  · rw [hcar,if_neg fun hbo => href hbo.1]
    exact .moves (.refl s.orders) (hpla _)
  have hop := hsd.closed_of_state hst
  rw [hcar,hok]
  by_cases hany : s.carts.carts.any (stillConverted request)=true
  · rw [if_pos (show s.carts.carts.any (stillConverted (underLocks s request))=true from hany)]
    rw [if_pos ⟨rfl,hany⟩]
    obtain ⟨row,hrow,hmt⟩ := any_eq_true.mp hany
    have hgua := of_decide_eq_true hmt
    refine .reopens request hrow hgua.1 hgua.2.2 hop ?_
    refine .update hsd.cartIds hrow hmt ?_ (fun _ => rfl) (fun _ => rfl) ⟨rfl,rfl⟩
    intro cur hcur
    exact (of_decide_eq_true hcur).1.trans hgua.1.symm
  · rw [if_neg (show ¬ s.carts.carts.any (stillConverted (underLocks s request))=true from hany)]
    rw [if_neg fun hbo => hany hbo.2]
    exact .moves (.refl s.orders) (hpla _)

/-- The unlocked read finds the cart open, or converted into an order that may
be cancelled, or refuses. -/
theorem reopenRead_cases (s : Shop) (token : String) :
    (∃ row, findCart s.carts token=some row ∧
      (row.status=.active∨row.status=.abandoned)∧reopenRead s token=.cart .ok) ∨
    (∃ row orderId, findCart s.carts token=some row∧row.status=.converted ∧
      row.convertedOrderId=some orderId∧reopenRead s token=.reopenable row.id orderId) ∨
    ∃ reply, reply≠.ok∧reopenRead s token=.cart reply := by
  unfold reopenRead
  cases hfin : findCart s.carts token with
  | none => exact .inr (.inr ⟨.missing,by simp,rfl⟩)
  | some row =>
    dsimp only
    cases hsta : row.status with
    | active => exact .inl ⟨row,rfl,.inl hsta,rfl⟩
    | abandoned => exact .inl ⟨row,rfl,.inr hsta,rfl⟩
    | merged => exact .inr (.inr ⟨.missing,by simp,rfl⟩)
    | converted =>
      dsimp only
      cases hnm : row.convertedOrderId with
      | none => exact .inr (.inr ⟨.missing,by simp,rfl⟩)
      | some orderId =>
        rw [Option.bind_some]
        cases hfd : findOrder s orderId with
        | none => exact .inr (.inr ⟨.missing,by simp,rfl⟩)
        | some order =>
          obtain ⟨-,hid⟩ := find_key_eq_some OrderRow.id hfd
          rw [reopenOrder,hid]
          split
          · exact .inr (.inl ⟨row,orderId,rfl,hsta,hnm,rfl⟩)
          · exact .inr (.inr ⟨.paid,by simp,rfl⟩)

/-- Everything a step does. -/
theorem step_effect (hsd : Sound lively s) (action : Action) :
    Effect s action (step s action).1 (step s action).2 := by
  have hsta : ∀ answer, (∀ id, answer≠.placed id) → Effect s action answer s :=
    fun answer hans => .moves (.refl s.orders) hans
  cases action with
  | checkout request => exact checkout_effect hsd request
  | reopenRead token =>
    refine hsta _ fun id => ?_
    change reopenRead s token≠.placed id
    rcases reopenRead_cases s token with ⟨row,-,-,hrd⟩|⟨row,orderId,-,-,-,hrd⟩ |
        ⟨reply,-,hrd⟩
    · rw [hrd]
      simp
    · rw [hrd]
      simp
    · rw [hrd]
      simp
  | reopenCommit request => exact reopenCommit_effect hsd request
  | cancelUnpaid orderId cancellable =>
    change Effect s _ (cancelUnpaid s orderId cancellable).1 (cancelUnpaid s orderId cancellable).2
    unfold cancelUnpaid
    cases findOrder s orderId with
    | none => exact hsta _ (by simp)
    | some order =>
      by_cases hop : order.state=.pendingPayment∧cancellable=true
      · dsimp only
        rw [if_pos hop]
        exact .moves (cancelOrder_follow s.orders orderId) (by simp)
      · dsimp only
        rw [if_neg hop]
        exact hsta _ (by simp)
  | orderPaid orderId =>
    change Effect s _ (orderPaid s orderId).1 (orderPaid s orderId).2
    unfold orderPaid
    cases hfd : findOrder s orderId with
    | none => exact hsta _ (by simp)
    | some order =>
      by_cases hall : canTransition order.state .paid=true
      · dsimp only
        rw [if_pos hall]
        refine .moves (.update (fun _ => rfl) (fun _ => rfl) ?_) (by simp)
        intro o ho hid hcan
        have hst := hsd.state_eq (by rw [hfd]; rfl) ho (of_decide_eq_true hid)
        rw [← hst,hcan] at hall
        exact absurd hall (by decide)
      · dsimp only
        rw [if_neg hall]
        exact hsta _ (by simp)
  | softDelete =>
    exact .moves (.update (fun _ => rfl) (fun _ => rfl) fun _ _ _ h => h)
      fun id => by simp [step,softDelete]

variable {past : List (Event Shop Action Answer)}

/-- A step keeps carts and orders agreed. -/
theorem step_sound (hsd : Sound lively s)
    {action : Action} (hpos : Possible past s action) :
    Sound lively (step s action).2 := by
  have hkee : ∀ {answer next}, Effect s action answer next → Sound lively next := by
    intro answer next heff
    cases heff with
    | moves hfol => exact hsd.moves hfol
    | places => exact hsd.places hpos
    | converts _ hrow hno hrew =>
      exact hsd.converts hrow hno hrew hpos
    | reopens _ hrow _ hnm hop hrew =>
      exact hsd.reopens hrow hnm hop hrew
  exact hkee (step_effect hsd action)

/-- An order placed by a checkout during some events. -/
def PlacedIn (h : List (Event Shop Action Answer)) (orderId : String) : Prop :=
  ∃ e∈h, ∃ request, e.action=.checkout request∧e.result=.placed orderId

theorem step_names (hsd : Sound lively s) (action : Action)
    (hrow : row∈(step s action).2.carts.carts)
    (hnm : row.convertedOrderId=some orderId) :
    (∃ old∈s.carts.carts, old.id=row.id∧old.convertedOrderId=some orderId) ∨
      ∃ request, action=.checkout request∧(step s action).1=.placed orderId := by
  have hcas : ∀ {answer next}, Effect s action answer next → row∈next.carts.carts →
      (∃ old∈s.carts.carts, old.id=row.id∧old.convertedOrderId=some orderId) ∨
        ∃ request, action=.checkout request∧answer=.placed orderId := by
    intro answer next heff hrow
    cases heff with
    | moves | places => exact .inl ⟨row,hrow,rfl,hnm⟩
    | converts request _ _ hrew =>
      rcases hrew.rows row hrow with ⟨heq,-⟩|⟨-,-,hnew⟩
      · exact .inl ⟨row,heq,rfl,hnm⟩
      · rw [hnew] at hnm
        exact .inr ⟨request,rfl,congrArg Answer.placed (Option.some.inj hnm)⟩
    | reopens _ _ _ _ _ hrew =>
      rcases hrew.rows row hrow with ⟨heq,-⟩|⟨-,-,hno⟩
      · exact .inl ⟨row,heq,rfl,hnm⟩
      · rw [hno] at hnm
        cases hnm
  exact hcas (step_effect hsd action) hrow

variable {start : Shop}

/-- Carts and orders agree in every state a run reaches. -/
theorem run_sound (hsta : Sound lively start) {h : List (Event Shop Action Answer)}
    (hrun : Run step Possible start h s) : Sound lively s :=
  Run.state_invariant hrun hsta fun _ _ _ hsd hpos => step_sound hsd hpos

section
variable (hsta : Sound lively start) (hrun : Run step Possible start (h₁++e::h₂) s)
include hsta hrun

theorem event_sound :
    Sound lively e.before∧Sound lively e.after := by
  obtain ⟨hbef,hpos,heve⟩ := Run.split hrun
  have hsd := run_sound hsta hbef
  have haft := step_sound hsd hpos
  rw [heve]
  exact ⟨hsd,haft⟩

/-- A cart that names an order named it since a given event, or a checkout
placed the order after it. -/
theorem run_names (hrow : row∈s.carts.carts) (hnm : row.convertedOrderId=some orderId) :
    (∃ old∈e.after.carts.carts, old.id=row.id∧old.convertedOrderId=some orderId) ∨
      PlacedIn h₂ orderId := by
  induction h₂ using List.reverseRecOn generalizing s row with
  | nil =>
    obtain ⟨-,-,-,hend⟩ := Run.last hrun
    exact .inl ⟨row,hend ▸ hrow,rfl,hnm⟩
  | append_singleton rest last ih =>
    have hwho : Run step Possible start ((h₁++e::rest)++[last]) s := by simpa using hrun
    obtain ⟨hpa,-,hlt,hend⟩ := Run.last hwho
    have hsd := run_sound hsta hpa
    rw [hend,hlt] at hrow
    rcases step_names hsd last.action hrow hnm with
      ⟨old,hold,hid,hnam⟩|⟨request,hact,hpla⟩
    · rcases ih hpa hold hnam with ⟨first,hfst,heq,hfir⟩|⟨t,ht,hche⟩
      · exact .inl ⟨first,hfst,heq.trans hid,hfir⟩
      · exact .inr ⟨t,mem_append_left _ ht,hche⟩
    · refine .inr ⟨last,mem_append_right _ mem_cons_self,request,hact,?_⟩
      rw [hlt]
      exact hpla

end

/-- Carts and orders of a state are all found again after a step. -/
structure Persists (s next : Shop) : Prop where
  carts : ∀ old∈s.carts.carts, ∃ row∈next.carts.carts, row.id=old.id
  /-- Every order is still there, placed from the same cart. -/
  orders : ∀ old∈s.orders, ∃ o∈next.orders, o.id=old.id∧o.cartId=old.cartId

/-- Nothing is lost where nothing happens. -/
theorem Persists.refl (s : Shop) : Persists s s :=
  ⟨fun old hold => ⟨old,hold,rfl⟩,fun old hold => ⟨old,hold,rfl,rfl⟩⟩

/-- Nothing is lost in two steps that lose nothing. -/
theorem Persists.trans {middle : Shop} (hfst : Persists s middle)
    (hsec : Persists middle next) : Persists s next where
  carts := by
    intro old hold
    obtain ⟨row,hrow,hid⟩ := hfst.carts old hold
    obtain ⟨last,hlt,heq⟩ := hsec.carts row hrow
    exact ⟨last,hlt,heq.trans hid⟩
  orders := by
    intro old hold
    obtain ⟨o,ho,hid,hct⟩ := hfst.orders old hold
    obtain ⟨last,hlt,heq,hsam⟩ := hsec.orders o ho
    exact ⟨last,hlt,heq.trans hid,hsam.trans hct⟩

/-- A step loses no cart and no order. -/
theorem step_persists (hsd : Sound lively s) (action : Action) :
    Persists s (step s action).2 := by
  have hkee : ∀ {answer next}, Effect s action answer next → Persists s next := by
    intro answer next heff
    cases heff with
    | moves hfol =>
      exact ⟨fun old hold => ⟨old,hold,rfl⟩,fun old hold => hfol.forward hsd.orderIds hold⟩
    | places =>
      exact ⟨fun old hold => ⟨old,hold,rfl⟩,fun old hold => ⟨old,mem_append_left _ hold,rfl,rfl⟩⟩
    | converts _ _ _ hrew =>
      exact ⟨fun old hold => hrew.successor hold,
        fun old hold => ⟨old,mem_append_left _ hold,rfl,rfl⟩⟩
    | reopens _ _ _ _ _ hrew =>
      exact ⟨fun old hold => hrew.successor hold,
        fun old hold => (cancelOrder_follow _ _).forward hsd.orderIds hold⟩
  exact hkee (step_effect hsd action)

/-- A run loses no cart and no order after any of its events. -/
theorem run_persists (hsta : Sound lively start) (hrun : Run step Possible start (h₁++e::h₂) s) :
    Persists e.after s := by
  induction h₂ using List.reverseRecOn generalizing s with
  | nil =>
    obtain ⟨-,-,-,hend⟩ := Run.last hrun
    rw [hend]
    exact Persists.refl e.after
  | append_singleton rest last ih =>
    have hwho : Run step Possible start ((h₁++e::rest)++[last]) s := by simpa using hrun
    obtain ⟨hpa,-,hlt,hend⟩ := Run.last hwho
    have hstep := step_persists (run_sound hsta hpa) last.action
    rw [hend,hlt]
    exact (ih hpa).trans hstep

variable {d : Event Shop Action Answer}

theorem readsOrder_spec (hrun : Run step Possible start (h₁++d::h₂) s)
    {cartId : String} (hrea : ReadsOrder d cartId orderId) :
    ∃ row∈d.after.carts.carts, row.id=cartId∧row.convertedOrderId=some orderId := by
  obtain ⟨token,hact,hres⟩ := hrea
  obtain ⟨-,-,heve⟩ := Run.split hrun
  have hans : d.result=reopenRead d.before token := by
    rw [heve,hact]
    rfl
  have haft : d.after=d.before := by
    rw [heve,hact]
    rfl
  rw [hans] at hres
  rcases reopenRead_cases d.before token with ⟨row,-,-,hrd⟩|⟨row,id,hfin,-,hnm,hrd⟩ |
      ⟨reply,-,hrd⟩
  · rw [hrd] at hres
    cases hres
  · rw [hrd] at hres
    cases hres
    rw [haft]
    exact ⟨row,(find_key_eq_some CartRow.token hfin).1,rfl,hnm⟩
  · rw [hrd] at hres
    cases hres

/-- A reopening that reports success cancelled the order it read and took the
cart back, or met the cart no longer converted into that order. -/
theorem reopenCommit_ok (hsd : Sound lively s) {request : ReopenRequest}
    (hok : (reopenCommit s request).1=.cart .ok) :
    (∃ row∈(reopenCommit s request).2.carts.carts, row.id=request.cartId ∧
      row.status=.active∧∀ o∈(reopenCommit s request).2.orders,
        o.id=request.orderId → o.state=.cancelled) ∨
    ((reopenCommit s request).2=s ∧
      ∀ row∈s.carts.carts, row.id=request.cartId → row.status=.converted →
        row.convertedOrderId≠some request.orderId) := by
  have hrep : (reopenConvertedCart s.carts (underLocks s request)).1=.ok := Answer.cart.inj hok
  rcases reopenConvertedCart_cases s.carts (underLocks s request) with
    ⟨href,-⟩|⟨-,hst,hcar⟩
  · exact absurd hrep href
  have hop := hsd.closed_of_state hst
  unfold reopenCommit
  dsimp only
  rw [hcar,hrep]
  by_cases hany : s.carts.carts.any (stillConverted request)=true
  · rw [if_pos (show s.carts.carts.any (stillConverted (underLocks s request))=true from hany)]
    rw [if_pos ⟨rfl,hany⟩]
    obtain ⟨row,hrow,hmt⟩ := any_eq_true.mp hany
    refine .inl ⟨takenBack (underLocks s request) row,?_,(of_decide_eq_true hmt).1,rfl,
      fun o ho hid => cancelOrder_cancelled hop ho hid⟩
    exact mem_updateWhere.mpr (.inl ⟨row,hrow,hmt,rfl⟩)
  · rw [if_neg (show ¬ s.carts.carts.any (stillConverted (underLocks s request))=true from hany)]
    rw [if_neg fun hbo => hany hbo.2]
    refine .inr ⟨rfl,fun row hrow hid hsta hnm => hany ?_⟩
    exact any_eq_true.mpr ⟨row,hrow,decide_eq_true ⟨hid,hsta,hnm⟩⟩

/-- Nothing has been checked out, and a given cart is active. -/
structure Opening (lively : String) (start : Shop) : Prop where
  cartIds : (start.carts.carts.map CartRow.id).Nodup
  orderIds : (start.orders.map OrderRow.id).Nodup
  unconverted : ∀ row∈start.carts.carts, row.status≠.converted∧row.convertedOrderId=none
  unplaced : ∀ o∈start.orders, o.cartId=none
  active : ∀ row∈start.carts.carts, row.id=lively → row.status=.active

/-- Carts and orders agree before anything is checked out. -/
theorem Opening.sound (hope : Opening lively start) : Sound lively start where
  cartIds := hope.cartIds
  orderIds := hope.orderIds
  converted := fun row hrow => by simp [hope.unconverted row hrow]
  named := fun row hrow orderId hnm => by simp [hope.unconverted row hrow] at hnm
  others := fun row _ o ho hct => by simp [hope.unplaced o ho] at hct
  origin := fun o ho cartId hct => by simp [hope.unplaced o ho] at hct
  alive := fun row hrow hid => .inl (hope.active row hrow hid)

theorem Sound.unnamed (hsd : Sound lively s) (hrow : row∈s.carts.carts)
    (hact : row.status=.active) : row.convertedOrderId=none := by
  by_contra hnm
  have hcon := (hsd.converted row hrow).mpr hnm
  rw [hact] at hcon
  cases hcon

theorem Sound.one_live (hsd : Sound lively s) {other : OrderRow} (ho : o∈s.orders)
    (hot : other∈s.orders) {cartId : String} (hct : o.cartId=some cartId)
    (hoth : other.cartId=some cartId) (hlv : o.state≠.cancelled)
    (hothe : other.state≠.cancelled) : o=other := by
  obtain ⟨row,hrow,rfl⟩ := hsd.origin o ho cartId hct
  have hnm := (hsd.others row hrow o ho hct).resolve_right hlv
  have hotherName := (hsd.others row hrow other hot hoth).resolve_right hothe
  exact eq_of_key_eq OrderRow.id hsd.orderIds ho hot (Option.some.inj (hnm.symm.trans hotherName))

/-- The order a reopening read is cancelled once its cart no longer names it. -/
theorem Sound.left_cancelled (hsd : Sound lively s)
    (hrow : row∈s.carts.carts) (hnm : row.convertedOrderId≠some orderId)
    {kept : OrderRow} (hkp : kept∈s.orders) (hkep : kept.id=orderId)
    (hct : kept.cartId=some row.id) (ho : o∈s.orders) (hid : o.id=orderId) :
    o.state=.cancelled := by
  have heq : o=kept := eq_of_key_eq OrderRow.id hsd.orderIds ho hkp (hid.trans hkep.symm)
  rw [heq]
  refine (hsd.others row hrow kept hkp hct).resolve_left fun hkeptName => hnm ?_
  rw [hkeptName,hkep]

/-- What a successful reopening leaves behind: its order cancelled, and the
cart active with only cancelled orders or converted anew by a checkout that
came after every read of that order by a reopening. -/
def Reopened (past : List (Event Shop Action Answer)) (cartId orderId : String) (s : Shop) : Prop :=
  (∀ o∈s.orders, o.id=orderId → o.state=.cancelled)∧∃ row∈s.carts.carts, row.id=cartId ∧
      ((row.status=.active∧∀ o∈s.orders, o.cartId=some cartId → o.state=.cancelled) ∨
        ∃ later, row.convertedOrderId=some later∧later≠orderId ∧
          ∀ h₁ d h₂, past=h₁++d::h₂ → ReadsOrder d cartId orderId → PlacedIn h₂ later)

theorem moved_on (hsta : Sound lively start)
    (hpa : Run step Possible start past s) (hd : d∈past) (hrea : ReadsOrder d lively orderId)
    (hmv : ∀ row∈s.carts.carts, row.id=lively → row.status=.converted →
      row.convertedOrderId≠some orderId) : Reopened past lively orderId s := by
  have hsd := run_sound hsta hpa
  obtain ⟨h₁,h₂,rfl⟩ := append_of_mem hd
  have hrd := (event_sound hsta hpa).2
  obtain ⟨found,hfd,rfl,hnm⟩ := readsOrder_spec hpa hrea
  obtain ⟨placed,hpla,hplacedId,hplac⟩ := hrd.named found hfd orderId hnm
  have hper := run_persists hsta hpa
  obtain ⟨row,hrow,hid⟩ := hper.carts found hfd
  obtain ⟨kept,hkp,hkeptId,hkep⟩ := hper.orders placed hpla
  have hnot : row.convertedOrderId≠some orderId := by
    rcases hsd.alive row hrow hid with hact|hcon
    · rw [hsd.unnamed hrow hact]
      simp
    · exact hmv row hrow hid hcon
  refine ⟨fun o ho hsam => hsd.left_cancelled hrow hnot hkp (hkeptId.trans hplacedId)
    (by rw [hkep,hplac,hid]) ho hsam,row,hrow,hid,?_⟩
  rcases hsd.alive row hrow hid with hact|hcon
  · refine .inl ⟨hact,fun o ho hct => ?_⟩
    exact hsd.cancelled hrow (hsd.unnamed hrow hact) ho (hct.trans (congrArg some hid.symm))
  obtain ⟨later,hlat⟩ := Option.ne_none_iff_exists'.mp ((hsd.converted row hrow).mp hcon)
  refine .inr ⟨later,hlat,fun heq => hnot (heq ▸ hlat),?_⟩
  intro g₁ e g₂ hspl hreadsAgain
  rw [hspl] at hpa
  rcases run_names hsta hpa hrow hlat with ⟨old,hold,holdId,holdN⟩|hplacedIn
  · obtain ⟨again,haga,hagai,hagainName⟩ := readsOrder_spec hpa hreadsAgain
    have hsam : old=again := (event_sound hsta hpa).2.row_eq hold haga
      (holdId.trans (hid.trans hagai.symm))
    rw [hsam,hagainName] at holdN
    exact absurd (hlat.trans holdN.symm) hnot
  · exact hplacedIn

/-- At every moment at most one order of a cart is not cancelled; the cart is
converted when it names an order, and its other orders are cancelled; and a
reopening that reports success met or left the cart active with its orders
cancelled, unless a later checkout has converted it again. -/
theorem one_live_order {cartId : String} (hopening : Opening cartId start)
    {h : List (Event Shop Action Answer)} (hrun : Run step Possible start h s) :
    (∀ o∈s.orders, ∀ other∈s.orders, o.cartId=some cartId → other.cartId=some cartId →
      o.state≠.cancelled → other.state≠.cancelled → o=other) ∧
    (∀ row∈s.carts.carts, row.id=cartId→(row.status=.converted ↔ row.convertedOrderId≠none) ∧
      ∀ o∈s.orders, o.cartId=some cartId → row.convertedOrderId≠some o.id → o.state=.cancelled) ∧
    (∀ e∈h, ∀ token row, e.action=.reopenRead token→e.result=.cart .ok →
      findCart e.after.carts token=some row → row.id=cartId →
      row.status=.active∧∀ o∈e.after.orders, o.cartId=some cartId → o.state=.cancelled) ∧
    (∀ h₁ e h₂ request, h=h₁++e::h₂→e.action=.reopenCommit request →
      request.cartId=cartId→e.result=.cart .ok →
      Reopened h₁ cartId request.orderId e.after) := by
  have hsta := hopening.sound
  have hsd := run_sound hsta hrun
  refine ⟨fun o ho other hot hct hoth hlv hothe =>
    hsd.one_live ho hot hct hoth hlv hothe,?_,?_,?_⟩
  · rintro row hrow rfl
    exact ⟨hsd.converted row hrow,fun o ho hct hnm =>
      (hsd.others row hrow o ho hct).resolve_left hnm⟩
  · intro e he token row hacti hres hfin hid
    obtain ⟨h₁,h₂,rfl⟩ := append_of_mem he
    obtain ⟨-,-,heve⟩ := Run.split hrun
    have haft := (event_sound hsta hrun).2
    have heq : e.after=e.before := by
      rw [heve,hacti]
      rfl
    have hrd : reopenRead e.after token=.cart .ok := by
      rw [← hres,heq,heve,hacti]
      rfl
    have hrow := (find_key_eq_some CartRow.token hfin).1
    have hact : row.status=.active := by
      rcases haft.alive row hrow hid with hact|hcon
      · exact hact
      rcases reopenRead_cases e.after token with ⟨found,hfd,hop,-⟩ |
        ⟨found,orderId,-,-,-,hot⟩|⟨reply,hrep,hot⟩
      · rw [hfin] at hfd
        cases hfd
        rw [hcon] at hop
        simp at hop
      · rw [hrd] at hot
        cases hot
      · rw [hrd] at hot
        exact absurd (Answer.cart.inj hot).symm hrep
    refine ⟨hact,fun o ho hct => ?_⟩
    exact haft.cancelled hrow (haft.unnamed hrow hact) ho (hct.trans (congrArg some hid.symm))
  · rintro h₁ e h₂ request rfl hacti hct hres
    obtain ⟨hpa,hpos,heve⟩ := Run.split hrun
    obtain ⟨hbef,haft⟩ := event_sound hsta hrun
    rw [hacti] at hpos
    obtain ⟨d,hd,hrea⟩ := hpos
    have hans : (reopenCommit e.before request).1=.cart .ok := by
      rw [← hres,heve,hacti]
      rfl
    have hlf : e.after=(reopenCommit e.before request).2 := by
      rw [heve,hacti]
      rfl
    rw [hct] at hrea
    rcases reopenCommit_ok hbef hans with ⟨row,hrow,hid,hact,hcan⟩|⟨heq,hmv⟩
    · rw [← hlf] at hrow hcan
      refine ⟨hcan,row,hrow,hid.trans hct,.inl ⟨hact,fun o ho hpla => ?_⟩⟩
      exact haft.cancelled hrow (haft.unnamed hrow hact) ho
        (hpla.trans (congrArg some (hid.trans hct).symm))
    · rw [hlf,heq]
      exact moved_on hsta hpa hd hrea fun row hrow hid => hmv row hrow (hid.trans hct.symm)

/-- Whether an action is the unlocked read of a reopening. -/
def isRead : Action → Bool
  | .reopenRead _ => true
  | _ => false

/-- Reads are recognised by their action and answer. -/
instance (e : Event Shop Action Answer) (cartId orderId : String) :
    Decidable (ReadsOrder e cartId orderId) :=
  decidable_of_iff (isRead e.action=true∧e.result=.reopenable cartId orderId) <| by
    unfold ReadsOrder
    cases haction : e.action <;> simp [isRead]

/-- Admission of a step can be computed. -/
instance (h : List (Event Shop Action Answer)) (s : Shop) (action : Action) :
    Decidable (Possible h s action) :=
  match action with
  | .checkout request => inferInstanceAs (Decidable (∀ o∈s.orders, o.id≠request.orderId))
  | .reopenCommit request =>
    inferInstanceAs (Decidable (∃ e∈h, ReadsOrder e request.cartId request.orderId))
  | .reopenRead _ => inferInstanceAs (Decidable True)
  | .cancelUnpaid _ _ => inferInstanceAs (Decidable True)
  | .orderPaid _ => inferInstanceAs (Decidable True)
  | .softDelete _ => inferInstanceAs (Decidable True)

/-- One cart with one line. -/
def sampleShop : Shop :=
  ⟨⟨[⟨"c1", "t1",.active,[],none,none,none,0,0,none⟩],[⟨"c1", "sku",none,1⟩]⟩,[]⟩

/-- Checkout of the sample cart. -/
def sampleCheckout (orderId : String) (revision : ℤ) : Action :=
  .checkout ⟨none,true,some "t1",some revision,orderId,0,true,false⟩

/-- Reopening of the sample cart, under the locks of its first order. -/
def sampleReopen : Action := .reopenCommit ⟨"c1", "o1",none,true,1,2⟩

/-- Two tabs reopen the cart; a checkout comes between their second parts, and
payments for both orders arrive. -/
def sampleActions : List Action :=
  [sampleCheckout "o1" 0,.reopenRead "t1",.reopenRead "t1",sampleReopen,
    sampleCheckout "o2" 2,sampleReopen,.orderPaid "o2",.orderPaid "o1"]

/-- The sample run leaves one live order. -/
theorem one_live_order_twoTabs :
    ((play step [] sampleShop sampleActions).2.orders.map OrderRow.state=[.cancelled,.paid]) ∧
      ∀ o∈(play step [] sampleShop sampleActions).2.orders,
        ∀ other∈(play step [] sampleShop sampleActions).2.orders, o.cartId=some "c1" →
          other.cartId=some "c1" → o.state≠.cancelled → other.state≠.cancelled → o=other := by
  have hope : Opening "c1" sampleShop :=
    ⟨by decide,by decide,by decide,by decide,by decide⟩
  have hall : Admitted step Possible [] sampleShop sampleActions := by decide
  exact ⟨by decide,(one_live_order hope (.play Run.nil sampleActions hall)).1⟩

end SellRight.CartOrderSafety
