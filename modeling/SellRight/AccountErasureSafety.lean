import SellRight.AccountErasure

/-!
# What an erased account leaves behind

An erasure either leaves everything as it was, or removes every reference to
the customer, revokes the devices and keeps the money of the orders. Two tables
refer to the customer without being touched, so their rows refuse the erasure;
and a review kept under the same mailbox by another account goes with it.
-/

namespace SellRight.AccountErasureSafety

open AccountErasure RowTable List

variable {w : World} {c : Customer} {now : ℤ} {db db' : Database}

/-- Facts the schema and the import keep. -/
structure Consistent (db : Database) : Prop where
  orders : (db.orders.map Order.id).Nodup
  grants : ∀ grant∈db.legacyGrants, ∀ row∈db.sessions, grant.sessionId=some row.id →
    grant.customerId=row.customerId

/-- No row refers to the customer any more. -/
structure Unreferenced (c : Customer) (db : Database) : Prop where
  customers : ∀ row∈db.customers, row.id≠c.id
  orders : ∀ row∈db.orders, row.customerId≠some c.id
  sessions : ∀ row∈db.sessions, row.customerId≠some c.id
  licenses : ∀ row∈db.licenses, row.customerId≠some c.id
  subscriptions : ∀ row∈db.subscriptions, row.customerId≠some c.id
  reviews : ∀ row∈db.reviews, row.customerId≠some c.id
  legacyGrants : ∀ row∈db.legacyGrants, row.customerId≠some c.id
  owned : ∀ table, ∀ row∈db.owned table, row.customerId≠some c.id

/-- Rows of other customers, and what hangs on them, stay as they are. -/
structure OthersKept (w : World) (c : Customer) (db db' : Database) : Prop where
  customers : ∀ row∈db.customers, row.id≠c.id → row∈db'.customers
  orders : ∀ row∈db.orders, row.customerId≠some c.id → row∈db'.orders
  /-- Edits of orders that are not provably the customer's stay. -/
  orderEdits : ∀ edit∈db.orderEdits, (∀ o∈db.orders, ownsOrder w c o=true →
    edit.orderId≠o.id)→edit∈db'.orderEdits
  /-- Audit rows of orders that are not provably the customer's stay. -/
  auditLog : ∀ row∈db.auditLog, (∀ o∈db.orders, ownsOrder w c o=true →
    row.entityId≠o.id) → row∈db'.auditLog
  sessions : ∀ row∈db.sessions, row.customerId≠some c.id → row∈db'.sessions
  licenses : ∀ row∈db.licenses, row.customerId≠some c.id → row∈db'.licenses
  activations : ∀ a∈db.activations, (∀ l∈db.licenses, l.customerId=some c.id →
    a.licenseId≠l.id)→a∈db'.activations
  subscriptions : ∀ row∈db.subscriptions, row.customerId≠some c.id → row∈db'.subscriptions
  reviews : ∀ row∈db.reviews, ∀ other, row.customerId=some other → other≠c.id → row∈db'.reviews
  legacyGrants : ∀ row∈db.legacyGrants, row.customerId≠some c.id → row∈db'.legacyGrants
  owned : ∀ table, ∀ row∈db.owned table, row.customerId≠some c.id → row∈db'.owned table

/-- The account is erased. -/
structure Erased (w : World) (c : Customer) (db db' : Database) : Prop where
  unreferenced : Unreferenced c db'
  revoked : ∀ l∈db.licenses, l.customerId=some c.id →
    provenMetadata w c (licenseMetadata db l)=true →
      (∀ a∈db'.activations, a.licenseId=l.id→a.state≠.active) ∧
        ∀ a∈db.activations, a.licenseId=l.id→a.state=.active →
          ∃ a'∈db'.activations, a'.id=a.id∧a'.licenseId=l.id∧a'.state=.revoked ∧
            a.generation<a'.generation
  /-- Provable orders keep their money and lose the person. -/
  orders : ∀ o∈db.orders, ownsOrder w c o=true →
    ∃ o'∈db'.orders, o'.id=o.id∧o'.state=o.state∧o'.money=o.money ∧
      o'.customerId=none∧o'.shippingAddress=none∧o'.billingAddress=none ∧
        ∃ m, o'.metadata=some (withoutContact m)
  orderEdits : ∀ edit∈db.orderEdits, edit.orderId∈erasedOrderIds w c db →
    scrubbedEdit edit∈db'.orderEdits
  /-- Mail and subscriptions under the mailbox are gone, unless the mailbox is
  the one written over them. -/
  mailbox : (c.email≠erasedRecipient→∀ mail∈db'.emailOutbox, mail.recipient≠c.email) ∧
    ∀ row∈db'.subscribers, row.email≠c.email
  others : OthersKept w c db db'

/-- Rows that the erasure does not handle: none of them refers to the customer,
and no review of another account is kept under the mailbox. -/
structure Spared (c : Customer) (db : Database) : Prop where
  sheerid : ∀ row∈db.owned .sheeridVerification, row.customerId≠some c.id
  storekit : ∀ row∈db.owned .storekitPurchase, row.customerId≠some c.id
  /-- Reviews under the mailbox belong to no other account. -/
  reviews : ∀ row∈db.reviews, row.authorEmail=c.email→∀ other,
    row.customerId=some other → other=c.id

variable {ρ : Type*} {rows : List ρ} {row : ρ}

/-- An update leaves a row it does not touch. -/
theorem mem_updateWhere_of_not {p : ρ → Bool} {f : ρ → ρ}
    (hrow : row∈rows) (hms : p row=false) : row∈updateWhere p f rows :=
  mem_updateWhere.mpr (.inr ⟨hrow,hms⟩)

/-- A delete leaves a row it does not match. -/
theorem mem_deleteWhere_of_not {p : ρ → Bool}
    (hrow : row∈rows) (hms : p row=false) : row∈deleteWhere p rows :=
  mem_deleteWhere.mpr ⟨hrow,hms⟩

theorem refersTo_of_ne {customerId : String} {link : Option String}
    (h : link≠some customerId) : refersTo customerId link=false :=
  decide_eq_false h

variable {link : ρ → Option String}

theorem detached_ne {f : ρ → ρ} (hf : ∀ row, link (f row)=none)
    (hrow : row∈updateWhere (fun row => refersTo c.id (link row)) f rows) : link row≠some c.id := by
  rcases mem_updateWhere.mp hrow with ⟨old,-,-,rfl⟩|⟨-,hms⟩
  · rw [hf]
    exact Option.some_ne_none _ |>.symm
  · exact of_decide_eq_false hms

theorem deleted_ne
    (hrow : row∈deleteWhere (fun row => refersTo c.id (link row)) rows) : link row≠some c.id :=
  of_decide_eq_false (mem_deleteWhere.mp hrow).2

/-- Proof of ownership reads neither the anonymization time nor addresses. -/
theorem provenMetadata_anonymized (metadata : Option OrderMetadata) (now : ℤ) :
    provenMetadata w c (some {metadata.getD noMetadata with anonymizedAt := some now}) =
      provenMetadata w c metadata := by
  cases metadata with
  | none | some => rfl

/-- Anonymizing an order keeps its proof of ownership. -/
theorem provenMetadata_order (o : Order) :
    provenMetadata w c (anonymizedOrder now o).metadata=provenMetadata w c o.metadata :=
  provenMetadata_anonymized o.metadata now

theorem licenseMetadata_anonymized (l : License) :
    provenMetadata w c (licenseMetadata (anonymizeOrders w c now db) l) =
      provenMetadata w c (licenseMetadata db l) := by
  unfold licenseMetadata
  cases l.orderId with
  | none => rfl
  | some orderId =>
    simp only [Option.bind_some,anonymizeOrders,updateWhere,List.find?_map]
    have hkey : ((fun o : Order => decide (o.id=orderId)) ∘
        fun row => if ownsOrder w c row=true then anonymizedOrder now row else row) =
        fun o => decide (o.id=orderId) := by
      funext row
      simp only [Function.comp_apply]
      split <;> rfl
    rw [hkey]
    cases db.orders.find? fun o => decide (o.id=orderId) with
    | none => rfl
    | some o =>
      simp only [Option.map_some,Option.bind_some]
      split
      · exact provenMetadata_order o
      · rfl

/-- The provably owned licences are those of the tables before the erasure. -/
theorem ownedLicenses_anonymized (now : ℤ) (erased : List String) :
    ownedLicenses w c (scrubHistory erased (anonymizeOrders w c now db))=ownedLicenses w c db := by
  unfold ownedLicenses
  have heq : ∀ l : License, (refersTo c.id l.customerId&&provenMetadata w c
        (licenseMetadata (scrubHistory erased (anonymizeOrders w c now db)) l)) =
      (refersTo c.id l.customerId&&provenMetadata w c (licenseMetadata db l)) := by
    intro l
    have hord : licenseMetadata (scrubHistory erased (anonymizeOrders w c now db)) l =
        licenseMetadata (anonymizeOrders w c now db) l := rfl
    rw [hord,licenseMetadata_anonymized]
  simp only [heq]
  rfl

theorem erased_order {o : Order} (ho : o∈db.orders) (hown : ownsOrder w c o=true) :
    scrubbedOrder (anonymizedOrder now o)∈(scrubAccount w c now db).orders := by
  have hid : o.id∈erasedOrderIds w c db := mem_map.mpr ⟨o,mem_filter.mpr ⟨ho,hown⟩,rfl⟩
  refine mem_updateWhere_of_not (mem_updateWhere.mpr (.inl ⟨anonymizedOrder now o,
    mem_updateWhere.mpr (.inl ⟨o,ho,hown,rfl⟩),decide_eq_true hid,rfl⟩)) ?_
  exact refersTo_of_ne (Option.some_ne_none _).symm

/-- An order of others after the erasure. -/
theorem kept_order (hcon : Consistent db) {o : Order} (ho : o∈db.orders)
    (hot : o.customerId≠some c.id) : o∈(scrubAccount w c now db).orders := by
  have hms : ownsOrder w c o=false := by
    unfold ownsOrder
    rw [refersTo_of_ne hot,Bool.false_and]
  have hid : o.id∉erasedOrderIds w c db := by
    intro hmem
    obtain ⟨mine,hmin,heq⟩ := mem_map.mp hmem
    obtain ⟨hmin,hown⟩ := mem_filter.mp hmin
    rw [eq_of_key_eq Order.id hcon.orders hmin ho heq,hms] at hown
    cases hown
  exact mem_updateWhere_of_not (mem_updateWhere_of_not (mem_updateWhere_of_not ho hms)
    (decide_eq_false hid)) (refersTo_of_ne hot)

/-- One activation as the revocation of some licences leaves it. -/
structure Handled (licenses : List String) (a b : Activation) : Prop where
  id : b.id=a.id
  licenseId : b.licenseId=a.licenseId
  /-- Activations of other licences stay as they are. -/
  kept : a.licenseId∉licenses→b=a
  moved : b=a∨b.state=.revoked∧a.generation<b.generation
  revoked : a.licenseId∈licenses→a.state=.active → b.state=.revoked∧a.generation<b.generation

/-- Without licences nothing is revoked. -/
theorem Handled.refl (a : Activation) : Handled [] a a :=
  ⟨rfl,rfl,fun _ => rfl,.inl rfl,fun hno => absurd hno not_mem_nil⟩

variable {licenses : List String}

theorem Handled.later {a b b' : Activation} (h : Handled licenses b b')
    (hb : b.state=.revoked∧a.generation<b.generation) :
    b'.state=.revoked∧a.generation<b'.generation := by
  rcases h.moved with rfl|⟨hst,hgen⟩
  · exact hb
  · exact ⟨hst,lt_trans hb.2 hgen⟩

/-- One licence after the other. -/
theorem Handled.cons {licenseId : String} {a b b' : Activation}
    (hhd : Handled [licenseId] a b) (htl : Handled licenses b b') :
    Handled (licenseId::licenses) a b' := by
  refine ⟨htl.id.trans hhd.id,htl.licenseId.trans hhd.licenseId,?_,?_,?_⟩
  · intro hms
    have hb : b=a := hhd.kept fun hin => hms (mem_singleton.mp hin ▸ mem_cons_self)
    rw [← hb]
    exact htl.kept fun hin => hms (mem_cons_of_mem _ (hb ▸ hin))
  · rcases hhd.moved with rfl|hb
    · exact htl.moved
    · exact .inr (htl.later hb)
  · intro hin hact
    rcases mem_cons.mp hin with hfst|hrt
    · exact htl.later (hhd.revoked (mem_singleton.mpr hfst) hact)
    · rcases hhd.moved with rfl|hb
      · exact htl.revoked hrt hact
      · exact htl.later hb

/-- Activations correspond one to one across a revocation. -/
structure Covered (licenses : List String) (activations activations' : List Activation) :
    Prop where
  forward : ∀ a∈activations, ∃ b∈activations', Handled licenses a b
  backward : ∀ b∈activations', ∃ a∈activations, Handled licenses a b

/-- Activation after the revocation of some activations of one licence. -/
def revokedBy (now : ℤ) (licenseId : String) (ids : List String) (a : Activation) : Activation :=
  ids.foldl (fun a id =>
    if decide (a.id=id∧a.licenseId=licenseId)=true then revokedActivation now a else a) a

/-- Revoking rows one by one acts on each row by itself. -/
theorem foldl_revokeDeviceRemote (licenseId : String) (ids : List String)
    (activations : List Activation) : ids.foldl (revokeDeviceRemote now licenseId) activations =
      activations.map (revokedBy now licenseId ids) :=
  foldl_updateWhere _ (fun _ => revokedActivation now) ids activations

section
variable (now : ℤ) (licenseId : String) (ids : List String) (a : Activation)

theorem revokedBy_moves : (revokedBy now licenseId ids a).id=a.id ∧
    (revokedBy now licenseId ids a).licenseId=a.licenseId ∧
    (a.licenseId≠licenseId → revokedBy now licenseId ids a=a) ∧
    (revokedBy now licenseId ids a=a∨(revokedBy now licenseId ids a).state=.revoked ∧
      a.generation<(revokedBy now licenseId ids a).generation) ∧
    (a.licenseId=licenseId→a.id∈ids→(revokedBy now licenseId ids a).state=.revoked ∧
        a.generation<(revokedBy now licenseId ids a).generation) := by
  induction ids generalizing a with
  | nil => exact ⟨rfl,rfl,fun _ => rfl,.inl rfl,fun _ hno => absurd hno not_mem_nil⟩
  | cons id ids ih =>
    by_cases hmt : a.id=id∧a.licenseId=licenseId
    · have hstep : revokedBy now licenseId (id::ids) a =
          revokedBy now licenseId ids (revokedActivation now a) := by
        simp only [revokedBy,foldl_cons,decide_eq_true hmt,if_true]
      obtain ⟨hid,hlic,-,hmv,-⟩ := ih (revokedActivation now a)
      have hrev : (revokedBy now licenseId (id::ids) a).state=.revoked ∧
          a.generation<(revokedBy now licenseId (id::ids) a).generation := by
        rw [hstep]
        rcases hmv with heq|⟨hst,hgen⟩
        · rw [heq]
          exact ⟨rfl,Nat.lt_succ_self _⟩
        · exact ⟨hst,lt_trans (Nat.lt_succ_self _) hgen⟩
      refine ⟨?_,?_,absurd hmt.2,.inr hrev,fun _ _ => hrev⟩
      · rw [hstep]
        exact hid
      · rw [hstep]
        exact hlic
    · have hstep : revokedBy now licenseId (id::ids) a=revokedBy now licenseId ids a := by
        simp only [revokedBy,foldl_cons,decide_eq_false hmt,Bool.false_eq_true,if_false]
      rw [hstep]
      obtain ⟨hid,hlic,hot,hmv,hlis⟩ := ih a
      refine ⟨hid,hlic,hot,hmv,fun heq hin => ?_⟩
      rcases mem_cons.mp hin with hfst|hrt
      · exact absurd ⟨hfst,heq⟩ hmt
      · exact hlis heq hrt

theorem revokedBy_handled (hids : a.licenseId=licenseId→a.state=.active→a.id∈ids) :
    Handled [licenseId] a (revokedBy now licenseId ids a) := by
  obtain ⟨hid,hlic,hot,hmv,hlis⟩ := revokedBy_moves now licenseId ids a
  refine ⟨hid,hlic,fun hms => hot fun heq => hms (mem_singleton.mpr heq),hmv,fun hin hact => ?_⟩
  have heq : a.licenseId=licenseId := mem_singleton.mp hin
  exact hlis heq (hids heq hact)

end

theorem revokeLicense_covered (now : ℤ) (licenseId : String) (activations : List Activation) :
    Covered [licenseId] activations (revokeLicense now activations licenseId) := by
  unfold revokeLicense
  rw [foldl_revokeDeviceRemote]
  have hhan : ∀ a∈activations, Handled [licenseId] a (revokedBy now licenseId
      ((activations.filter fun a =>
        decide (a.licenseId=licenseId∧a.state=.active)).map Activation.id) a) := by
    intro a ha
    refine revokedBy_handled now licenseId _ a fun heq hact => ?_
    exact mem_map_of_mem (mem_filter.mpr ⟨ha,decide_eq_true ⟨heq,hact⟩⟩)
  constructor
  · intro a ha
    exact ⟨_,mem_map_of_mem ha,hhan a ha⟩
  · intro b hb
    obtain ⟨a,ha,rfl⟩ := mem_map.mp hb
    exact ⟨a,ha,hhan a ha⟩

theorem foldl_revokeLicense (now : ℤ) (licenses : List String) (activations : List Activation) :
    Covered licenses activations (licenses.foldl (revokeLicense now) activations) := by
  induction licenses generalizing activations with
  | nil => exact ⟨fun a ha => ⟨a,ha,.refl a⟩,fun a ha => ⟨a,ha,.refl a⟩⟩
  | cons licenseId _ ih =>
    have hhd := revokeLicense_covered now licenseId activations
    have htl := ih (revokeLicense now activations licenseId)
    constructor
    · intro a ha
      obtain ⟨b,hb,hfst⟩ := hhd.forward a ha
      obtain ⟨b',hb',hrt⟩ := htl.forward b hb
      exact ⟨b',hb',hfst.cons hrt⟩
    · intro b' hb'
      obtain ⟨b,hb,hrt⟩ := htl.backward b' hb'
      obtain ⟨a,ha,hfst⟩ := hhd.backward b hb
      exact ⟨a,ha,hfst.cons hrt⟩

theorem scrubAccount_activations (w : World) (c : Customer) (now : ℤ) (db : Database) :
    (scrubAccount w c now db).activations =
      (ownedLicenses w c db).foldl (revokeLicense now) db.activations := by
  rw [← ownedLicenses_anonymized now (erasedOrderIds w c db)]
  rfl

/-- Tables after the deletion of the customer row. -/
structure Left (w : World) (c : Customer) (now : ℤ) (db db' : Database) : Prop where
  customers : db'.customers=deleteWhere (fun row => decide (row.id=c.id)) db.customers
  orders : db'.orders=(scrubAccount w c now db).orders
  orderEdits : db'.orderEdits =
    updateWhere (fun edit => decide (edit.orderId∈erasedOrderIds w c db)) scrubbedEdit db.orderEdits
  /-- Address audit rows of provable orders are scrubbed. -/
  auditLog : db'.auditLog =
    updateWhere (fun row => decide (row.entity = "order" ∧ row.action = "edit_address" ∧
      row.entityId∈erasedOrderIds w c db)) scrubbedAudit db.auditLog
  sessions : db'.sessions=deleteWhere (fun row => refersTo c.id row.customerId) db.sessions
  licenses : db'.licenses=updateWhere (fun row => refersTo c.id row.customerId)
    (fun row => {row with customerId := none}) db.licenses
  activations : db'.activations=(ownedLicenses w c db).foldl (revokeLicense now) db.activations
  subscriptions : db'.subscriptions=updateWhere (fun row => refersTo c.id row.customerId)
    (fun row => {row with customerId := none}) db.subscriptions
  reviews : db'.reviews=updateWhere (fun row => refersTo c.id row.customerId)
    (fun row => {row with customerId := none})
    (deleteWhere (fun row =>
      refersTo c.id row.customerId||decide (row.authorEmail=c.email)) db.reviews)
  /-- Grants of the sessions lose them, grants of the customer go. -/
  legacyGrants : db'.legacyGrants=deleteWhere (fun row => refersTo c.id row.customerId)
    (updateWhere (fun grant => db.sessions.any fun row =>
        refersTo c.id row.customerId&&decide (grant.sessionId=some row.id))
      (fun grant => {grant with sessionId := none}) db.legacyGrants)
  /-- Rows of the other tables go where the key says so. -/
  owned : ∀ table, db'.owned table =
    if deleteRule table=.cascade then
      deleteWhere (fun row => refersTo c.id row.customerId) ((scrubAccount w c now db).owned table)
    else (scrubAccount w c now db).owned table
  emailOutbox : db'.emailOutbox=updateWhere (fun mail => decide (mail.recipient=c.email))
    (fun mail => {mail with recipient := erasedRecipient,payload := erasedPayload})
    db.emailOutbox
  subscribers : db'.subscribers=deleteWhere (fun row => decide (row.email=c.email)) db.subscribers

/-- The tables that refuse the deletion are the two the erasure does not touch. -/
theorem blocksDelete_scrubAccount : blocksDelete c (scrubAccount w c now db)=false ↔
      (∀ row∈db.owned .sheeridVerification, row.customerId≠some c.id) ∧
        ∀ row∈db.owned .storekitPurchase, row.customerId≠some c.id := by
  have hany : ∀ {ρ : Type} (link : ρ → Option String) (rows : List ρ),
      (rows.any fun row => refersTo c.id (link row))=false ↔ ∀ row∈rows, link row≠some c.id := by
    simp [refersTo]
  have hord : ∀ row∈(scrubAccount w c now db).orders, row.customerId≠some c.id :=
    fun _ hrow => detached_ne (fun _ => rfl) hrow
  have hses : ∀ row∈(scrubAccount w c now db).sessions, row.customerId≠some c.id :=
    fun _ hrow => deleted_ne hrow
  have hlic : ∀ row∈(scrubAccount w c now db).licenses, row.customerId≠some c.id :=
    fun _ hrow => detached_ne (fun _ => rfl) hrow
  have hsub : ∀ row∈(scrubAccount w c now db).subscriptions,
      row.customerId≠some c.id := fun _ hrow => detached_ne (fun _ => rfl) hrow
  have hown : ∀ table, table≠.sheeridVerification→table≠.storekitPurchase →
      deleteRule table=.noAction →
        ∀ row∈(scrubAccount w c now db).owned table, row.customerId≠some c.id := by
    intro table hshe hsto hrul row hrow
    cases table with
    | sheeridVerification => exact absurd rfl hshe
    | storekitPurchase => exact absurd rfl hsto
    | customerPasskeyCredential | customerPasskeyChallenge => exact absurd hrul (by decide)
    | giftCard | promotionUsage | cart => exact detached_ne (fun _ => rfl) hrow
    | loyaltyLedger | paymentMethod | customerToken | address | customerAddressDraft =>
      exact deleted_ne hrow
  unfold blocksDelete
  rw [(hany Order.customerId _).mpr hord,(hany Session.customerId _).mpr hses,
    (hany License.customerId _).mpr hlic,(hany Subscription.customerId _).mpr hsub]
  rw [Bool.false_or,Bool.false_or,Bool.false_or,Bool.false_or,any_eq_false]
  constructor
  · intro h
    constructor
    · intro row hrow href
      refine h .sheeridVerification (by decide) (any_eq_true.mpr ⟨row,hrow,?_⟩)
      exact decide_eq_true href
    · intro row hrow href
      refine h .storekitPurchase (by decide) (any_eq_true.mpr ⟨row,hrow,?_⟩)
      exact decide_eq_true href
  · rintro ⟨hshe,hsto⟩ table-hblo
    obtain ⟨hrul,hso⟩ := Bool.and_eq_true_iff.mp hblo
    obtain ⟨row,hrow,href⟩ := any_eq_true.mp hso
    by_cases hfst : table=.sheeridVerification
    · subst hfst
      exact hshe row hrow (of_decide_eq_true href)
    by_cases hsec : table=.storekitPurchase
    · subst hsec
      exact hsto row hrow (of_decide_eq_true href)
    · exact hown table hfst hsec (of_decide_eq_true hrul) row hrow (of_decide_eq_true href)

/-- Tables the scrubbing rewrites at most once. -/
theorem scrubAccount_columns (w : World) (c : Customer) (now : ℤ) (db : Database) :
    (scrubAccount w c now db).customers=db.customers∧(scrubAccount w c now db).orderEdits =
      updateWhere (fun edit => decide (edit.orderId∈erasedOrderIds w c db)) scrubbedEdit
        db.orderEdits∧(scrubAccount w c now db).auditLog =
      updateWhere (fun row => decide (row.entity = "order" ∧ row.action = "edit_address" ∧
        row.entityId∈erasedOrderIds w c db)) scrubbedAudit db.auditLog ∧
    (scrubAccount w c now db).sessions =
      deleteWhere (fun row => refersTo c.id row.customerId) db.sessions ∧
    (scrubAccount w c now db).licenses=updateWhere (fun row => refersTo c.id row.customerId)
      (fun row => {row with customerId := none}) db.licenses ∧
    (scrubAccount w c now db).subscriptions=updateWhere (fun row => refersTo c.id row.customerId)
        (fun row => {row with customerId := none}) db.subscriptions ∧
    (scrubAccount w c now db).reviews=deleteWhere (fun row =>
      refersTo c.id row.customerId||decide (row.authorEmail=c.email)) db.reviews ∧
    (scrubAccount w c now db).legacyGrants=updateWhere (fun grant => db.sessions.any fun row =>
          refersTo c.id row.customerId&&decide (grant.sessionId=some row.id))
        (fun grant => {grant with sessionId := none}) db.legacyGrants ∧
    (scrubAccount w c now db).emailOutbox =
      updateWhere (fun mail => decide (mail.recipient=c.email))
        (fun mail => {mail with recipient := erasedRecipient,payload := erasedPayload})
        db.emailOutbox ∧
    (scrubAccount w c now db).subscribers =
      deleteWhere (fun row => decide (row.email=c.email)) db.subscribers := by
  simp only [scrubAccount,scrubMail,deleteOwned,detachOwned,deleteSessions,deleteReviews,
    detachAgreements,detachOrders,scrubContacts,revokeDevices,scrubHistory,anonymizeOrders,
    and_self]

theorem deleteCustomer_some (h : deleteCustomer c (scrubAccount w c now db)=some db') :
    blocksDelete c (scrubAccount w c now db)=false∧Left w c now db db' := by
  obtain ⟨hcus,hedi,haud,hses,hlic,hsubs,hrev,hgra,hmai,hsub⟩ := scrubAccount_columns w c now db
  have hact := scrubAccount_activations w c now db
  unfold deleteCustomer at h
  cases hblo : blocksDelete c (scrubAccount w c now db) with
  | true =>
    rw [hblo,if_pos rfl] at h
    cases h
  | false =>
    rw [hblo,if_neg Bool.false_ne_true,Option.some.injEq] at h
    refine ⟨rfl,?_⟩
    rw [hcus,hrev,hgra] at h
    subst h
    exact ⟨rfl,rfl,hedi,haud,hses,hlic,hact,hsubs,rfl,rfl,fun _ => rfl,hmai,hsub⟩

theorem owned_of_not_blocked {scrubbed : Database} {table : OwnedTable}
    (hfr : blocksDelete c scrubbed=false) (hrul : deleteRule table≠.cascade) :
    ∀ row∈scrubbed.owned table, row.customerId≠some c.id := by
  intro row hrow href
  have hnoA : deleteRule table=.noAction := by
    cases hkd : deleteRule table with
    | cascade => exact absurd hkd hrul
    | noAction => rfl
  have hblo : blocksDelete c scrubbed=true := by
    have htab : table∈ownedTables := by cases table <;> decide
    unfold blocksDelete
    rw [Bool.or_eq_true,any_eq_true]
    refine .inr ⟨table,htab,?_⟩
    rw [decide_eq_true hnoA,Bool.true_and,any_eq_true]
    exact ⟨row,hrow,decide_eq_true href⟩
  rw [hfr] at hblo
  cases hblo

/-- Without a refusing row nothing refers to the customer afterwards. -/
theorem Left.unreferenced (hlf : Left w c now db db')
    (hfr : blocksDelete c (scrubAccount w c now db)=false) : Unreferenced c db' := by
  refine ⟨fun row hrow => ?_,fun row hrow => detached_ne (fun _ => rfl) (hlf.orders ▸ hrow),
    fun row hrow => deleted_ne (hlf.sessions ▸ hrow),
    fun row hrow => detached_ne (fun _ => rfl) (hlf.licenses ▸ hrow),
    fun row hrow => detached_ne (fun _ => rfl) (hlf.subscriptions ▸ hrow),
    fun row hrow => detached_ne (fun _ => rfl) (hlf.reviews ▸ hrow),
    fun row hrow => deleted_ne (hlf.legacyGrants ▸ hrow),?_⟩
  · rw [hlf.customers] at hrow
    exact of_decide_eq_false (mem_deleteWhere.mp hrow).2
  · intro table row hrow
    rw [hlf.owned] at hrow
    split_ifs at hrow with hrul
    · exact deleted_ne hrow
    · exact owned_of_not_blocked hfr hrul row hrow

/-- An order that is not provably the customer's is none of the erased ones. -/
theorem not_mem_erasedOrderIds {orderId : String}
    (hms : ∀ o∈db.orders, ownsOrder w c o=true → orderId≠o.id) : orderId∉erasedOrderIds w c db := by
  intro hin
  obtain ⟨o,ho,heq⟩ := mem_map.mp hin
  obtain ⟨ho,hown⟩ := mem_filter.mp ho
  exact hms o ho hown heq.symm

theorem scrubAccount_owned_kept (w : World) (now : ℤ) (table : OwnedTable) {row : Owned} (hrow : row∈db.owned table)
    (hne : row.customerId≠some c.id) : row∈(scrubAccount w c now db).owned table := by
  cases table with
  | giftCard | promotionUsage | cart => exact mem_updateWhere_of_not hrow (refersTo_of_ne hne)
  | loyaltyLedger | paymentMethod | customerToken | address | customerAddressDraft =>
    exact mem_deleteWhere_of_not hrow (refersTo_of_ne hne)
  | customerPasskeyCredential | customerPasskeyChallenge | sheeridVerification | storekitPurchase =>
    exact hrow

/-- Rows of other customers survive the erasure. -/
theorem Left.others (hlf : Left w c now db db') (hcon : Consistent db)
    (hrev : ∀ row∈db.reviews, row.authorEmail=c.email→∀ other,
      row.customerId=some other → other=c.id) : OthersKept w c db db' := by
  refine ⟨?_,?_,?_,?_,?_,?_,?_,?_,?_,?_,?_⟩
  · intro row hrow hne
    rw [hlf.customers]
    exact mem_deleteWhere_of_not hrow (decide_eq_false hne)
  · intro row hrow hne
    rw [hlf.orders]
    exact kept_order hcon hrow hne
  · intro edit hed hms
    rw [hlf.orderEdits]
    exact mem_updateWhere_of_not hed (decide_eq_false (not_mem_erasedOrderIds hms))
  · intro row hrow hms
    rw [hlf.auditLog]
    refine mem_updateWhere_of_not hrow (decide_eq_false fun hin => ?_)
    exact not_mem_erasedOrderIds hms hin.2.2
  · intro row hrow hne
    rw [hlf.sessions]
    exact mem_deleteWhere_of_not hrow (refersTo_of_ne hne)
  · intro row hrow hne
    rw [hlf.licenses]
    exact mem_updateWhere_of_not hrow (refersTo_of_ne hne)
  · intro a ha hms
    rw [hlf.activations]
    obtain ⟨b,hb,hhan⟩ := (foldl_revokeLicense now (ownedLicenses w c db)
      db.activations).forward a ha
    have hkp : b=a := by
      refine hhan.kept fun hin => ?_
      obtain ⟨l,hl,heq⟩ := mem_map.mp hin
      obtain ⟨hl,hown⟩ := mem_filter.mp hl
      exact hms l hl (of_decide_eq_true (Bool.and_eq_true_iff.mp hown).1) heq.symm
    exact hkp ▸ hb
  · intro row hrow hne
    rw [hlf.subscriptions]
    exact mem_updateWhere_of_not hrow (refersTo_of_ne hne)
  · intro row hrow other hot hne
    have hlnk : row.customerId≠some c.id := by
      rw [hot]
      exact fun heq => hne (Option.some.inj heq)
    have hmai : row.authorEmail≠c.email := fun heq => hne (hrev row hrow heq other hot)
    rw [hlf.reviews]
    refine mem_updateWhere_of_not (mem_deleteWhere_of_not hrow ?_) (refersTo_of_ne hlnk)
    rw [refersTo_of_ne hlnk,decide_eq_false hmai]
    rfl
  · intro grant hgra hne
    rw [hlf.legacyGrants]
    refine mem_deleteWhere_of_not (mem_updateWhere_of_not hgra ?_) (refersTo_of_ne hne)
    refine any_eq_false.mpr fun row hrow hbo => ?_
    obtain ⟨href,hses⟩ := Bool.and_eq_true_iff.mp hbo
    have heq := hcon.grants grant hgra row hrow (of_decide_eq_true hses)
    exact hne (heq.trans (of_decide_eq_true href))
  · intro table row hrow hne
    have hscr := scrubAccount_owned_kept w now table hrow hne
    rw [hlf.owned]
    split
    · exact mem_deleteWhere_of_not hscr (refersTo_of_ne hne)
    · exact hscr

theorem Left.revoked (hlf : Left w c now db db') {l : License} (hl : l∈db.licenses)
    (how : l.customerId=some c.id) (hpro : provenMetadata w c (licenseMetadata db l)=true) :
    (∀ a∈db'.activations, a.licenseId=l.id→a.state≠.active) ∧
      ∀ a∈db.activations, a.licenseId=l.id→a.state=.active →
        ∃ a'∈db'.activations, a'.id=a.id∧a'.licenseId=l.id∧a'.state=.revoked ∧
          a.generation<a'.generation := by
  have hin : l.id∈ownedLicenses w c db := by
    refine mem_map_of_mem (mem_filter.mpr ⟨hl,?_⟩)
    rw [hpro,Bool.and_true]
    exact decide_eq_true how
  have hcov := foldl_revokeLicense now (ownedLicenses w c db) db.activations
  rw [hlf.activations]
  constructor
  · intro b hb hlic hact
    obtain ⟨a,ha,hhan⟩ := hcov.backward b hb
    have hlis : a.licenseId∈ownedLicenses w c db := by
      rw [← hhan.licenseId,hlic]
      exact hin
    have hrev : b.state=.revoked := by
      rcases hhan.moved with rfl|hmv
      · exact (hhan.revoked hlis hact).1
      · exact hmv.1
    rw [hact] at hrev
    cases hrev
  · intro a ha hlic hact
    obtain ⟨b,hb,hhan⟩ := hcov.forward a ha
    obtain ⟨hst,hgen⟩ := hhan.revoked (hlic ▸ hin) hact
    exact ⟨b,hb,hhan.id,hhan.licenseId.trans hlic,hst,hgen⟩

theorem Left.erased (hlf : Left w c now db db') (hcon : Consistent db)
    (hfr : blocksDelete c (scrubAccount w c now db)=false)
    (hrev : ∀ row∈db.reviews, row.authorEmail=c.email→∀ other,
      row.customerId=some other → other=c.id) : Erased w c db db' := by
  refine ⟨hlf.unreferenced hfr,fun l hl how hpro => hlf.revoked hl how hpro,
    ?_,?_,⟨?_,?_⟩,hlf.others hcon hrev⟩
  · intro o ho hown
    rw [hlf.orders]
    exact ⟨_,erased_order ho hown,rfl,rfl,rfl,rfl,rfl,rfl,_,rfl⟩
  · intro edit hed hin
    rw [hlf.orderEdits]
    exact mem_updateWhere.mpr (.inl ⟨edit,hed,decide_eq_true hin,rfl⟩)
  · intro hmailbox mail hmai
    rw [hlf.emailOutbox] at hmai
    rcases mem_updateWhere.mp hmai with ⟨old,-,-,rfl⟩|⟨-,hms⟩
    · exact fun heq => hmailbox heq.symm
    · exact of_decide_eq_false hms
  · intro row hrow
    rw [hlf.subscribers] at hrow
    exact of_decide_eq_false (mem_deleteWhere.mp hrow).2

/-- An erasure promised to its customer completes, and a refusal changes
nothing. -/
def Completes (w : World) (db : Database) (token : String) (now : ℤ) : Prop :=
  (∀ c, me w db token now=some c→c.emailVerified=true→hasLiveSubscription c db=false →
    (eraseAccount w db token now).1=.ok∧Erased w c db (eraseAccount w db token now).2) ∧
  ((eraseAccount w db token now).1≠.ok→(eraseAccount w db token now).2=db)

section
variable {token : String} (hme : me w db token now=some c) (hver : c.emailVerified=true)
variable (hlv : hasLiveSubscription c db=false)
include hme hver hlv

/-- An erasure that a row refuses. -/
theorem eraseAccount_failed (hdel : deleteCustomer c (scrubAccount w c now db)=none) :
    eraseAccount w db token now=(.failed,db) := by
  unfold eraseAccount
  simp [hme,hver,hlv,hdel]

theorem eraseAccount_ok (hdel : deleteCustomer c (scrubAccount w c now db)=some db') :
    eraseAccount w db token now=(.ok,db') := by
  unfold eraseAccount
  simp [hme,hver,hlv,hdel]

end

/-- A refused or failed erasure changes nothing. -/
theorem eraseAccount_refused (token : String) (href : (eraseAccount w db token now).1≠.ok) :
    (eraseAccount w db token now).2=db := by
  cases hme : me w db token now with
  | none =>
    unfold eraseAccount
    rw [hme]
  | some c =>
    by_cases hver : c.emailVerified=true
    · cases hlv : hasLiveSubscription c db with
      | true =>
        unfold eraseAccount
        simp [hme,hver,hlv]
      | false =>
        cases hdel : deleteCustomer c (scrubAccount w c now db) with
        | none => rw [eraseAccount_failed hme hver hlv hdel]
        | some =>
          rw [eraseAccount_ok hme hver hlv hdel] at href
          exact absurd rfl href
    · unfold eraseAccount
      simp [hme,hver]

/-- Every erasure completes exactly when no row the handler overlooks stands in
its way: no student verification or App Store purchase of the customer, and no
review of another account under the mailbox. -/
theorem account_erasure_completes (hconsistent : Consistent db) (token : String) :
    Completes w db token now ↔ ∀ c, me w db token now=some c→c.emailVerified=true →
        hasLiveSubscription c db=false → Spared c db := by
  constructor
  · rintro ⟨hcom,-⟩ c hme hver hlv
    obtain ⟨hok,hera⟩ := hcom c hme hver hlv
    cases hdel : deleteCustomer c (scrubAccount w c now db) with
    | none =>
      rw [eraseAccount_failed hme hver hlv hdel] at hok
      cases hok
    | some =>
      obtain ⟨hfr,hlf⟩ := deleteCustomer_some hdel
      obtain ⟨hshe,hsto⟩ := blocksDelete_scrubAccount.mp hfr
      refine ⟨hshe,hsto,fun row hrow hmai other hot => ?_⟩
      by_contra hne
      have hkp := hera.others.reviews row hrow other hot hne
      rw [eraseAccount_ok hme hver hlv hdel,hlf.reviews] at hkp
      rcases mem_updateWhere.mp hkp with ⟨old,hold,-,heq⟩|⟨hin,-⟩
      · rw [heq] at hot
        cases hot
      · have hms := (mem_deleteWhere.mp hin).2
        rw [Bool.or_eq_false_iff] at hms
        exact of_decide_eq_false hms.2 hmai
  · intro hspa
    refine ⟨fun c hme hver hlv => ?_,eraseAccount_refused token⟩
    obtain ⟨hshe,hsto,hrev⟩ := hspa c hme hver hlv
    have hfr : blocksDelete c (scrubAccount w c now db)=false :=
      blocksDelete_scrubAccount.mpr ⟨hshe,hsto⟩
    cases hdel : deleteCustomer c (scrubAccount w c now db) with
    | none =>
      unfold deleteCustomer at hdel
      rw [hfr,if_neg Bool.false_ne_true] at hdel
      cases hdel
    | some =>
      rw [eraseAccount_ok hme hver hlv hdel]
      exact ⟨rfl,(deleteCustomer_some hdel).2.erased hconsistent hfr hrev⟩

/-- Mailboxes and tokens as they are. -/
def plainWorld : World := ⟨id,id,id⟩

/-- Customer with a verified mailbox. -/
def ada : Customer := ⟨"ada", "ada@shop",true⟩

/-- Order of the customer. -/
def adaOrder : Order := ⟨"order",some "ada", "Delivered",⟨100,0,5,20,125⟩,some "Rue 1",some "Rue 1",
    some {noMetadata with contact := some ⟨some "ada@shop", "phone"⟩}⟩

/-- Shop with a customer who bought a licensed product and uses one device. -/
def adaShop : Database where
  customers := [ada,⟨"bob", "bob@shop",true⟩]
  sessions := [⟨"session", "token",some "ada",100,none⟩]
  orders := [adaOrder]
  orderEdits := []
  auditLog := []
  licenses := [⟨"licence",some "order",some "ada"⟩]
  activations := [⟨"device", "licence",.active,0,none⟩]
  subscriptions := [⟨"subscription",some "ada", "canceled"⟩]
  reviews := [⟨"review",some "bob", "bob@shop"⟩]
  legacyGrants := [⟨"grant",some "ada",some "session"⟩]
  owned := fun _ => []
  emailOutbox := [⟨"mail", "ada@shop", "welcome"⟩]
  subscribers := []

/-- The same shop after a purchase of the customer in the App Store. -/
def adaStorekitShop : Database := {adaShop with
    owned := fun table =>
      if table=.storekitPurchase then [⟨"purchase",some "ada", "transaction"⟩] else []}

theorem adaShop_consistent : Consistent adaShop∧Consistent adaStorekitShop := by
  have hgra : ∀ grant∈adaShop.legacyGrants, ∀ row∈adaShop.sessions,
      grant.sessionId=some row.id → grant.customerId=row.customerId := by decide
  exact ⟨⟨by decide,hgra⟩,⟨by decide,hgra⟩⟩

/-- The erasure of a customer without App Store purchases completes. -/
theorem account_erasure_completes_ada :
    (eraseAccount plainWorld adaShop "token" 5).1=.ok ∧
      Completes plainWorld adaShop "token" 5 := by
  refine ⟨by decide,(account_erasure_completes adaShop_consistent.1 "token").mpr ?_⟩
  intro c hme _ _
  cases hme
  refine ⟨nofun,nofun,?_⟩
  decide

/-- One App Store purchase of a verified customer without a subscription: the
deletion is refused and rolled back. -/
theorem account_erasure_refused :
    Consistent adaStorekitShop∧me plainWorld adaStorekitShop "token" 5=some ada ∧
      eraseAccount plainWorld adaStorekitShop "token" 5=(.failed,adaStorekitShop) ∧
      ¬ Completes plainWorld adaStorekitShop "token" 5 := by
  have hada : me plainWorld adaStorekitShop "token" 5=some ada := by decide
  have hout : (eraseAccount plainWorld adaStorekitShop "token" 5).1=.failed := by decide
  have hfai : eraseAccount plainWorld adaStorekitShop "token" 5=(.failed,adaStorekitShop) := by
    refine Prod.ext hout (eraseAccount_refused "token" ?_)
    decide
  refine ⟨adaShop_consistent.2,hada,hfai,fun hcom => ?_⟩
  have hok := (hcom.1 ada hada rfl (by decide)).1
  cases hok

end SellRight.AccountErasureSafety
