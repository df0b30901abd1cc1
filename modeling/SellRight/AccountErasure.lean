import SellRight.RowTable

/-!
# Erasure of a shop account

A signed-in customer with a verified mailbox erases the account in one
transaction. Orders are financial records: they are kept and anonymized. Other
rows that refer to the customer are detached or deleted, and the customer row
goes last, under the delete rules of the schema's foreign keys. Rows of one
store are modelled; every row is visible to its transaction.
-/

namespace SellRight.AccountErasure

open RowTable

/-- Customer account. -/
structure Customer where
  (id email : String)
  emailVerified : Bool
  deriving DecidableEq

/-- Session of a customer or an admin. -/
structure Session where
  (id tokenHash : String)
  customerId : Option String
  expiresAt : ℤ
  /-- End of a session taken over from the source shop. -/
  legacyExpiresAt : Option ℤ

/-- Contact data captured at checkout. -/
structure Contact where
  email : Option String
  rest : String

structure OrderMetadata where
  linkedVia : Option String
  contact : Option Contact
  (email phone customerEmail guestEmail customerName customerNote : Option String)
  anonymizedAt : Option ℤ
  rest : String

/-- Money fields of an order. -/
structure OrderMoney where
  (subtotal discountTotal shippingTotal taxTotal grandTotal : ℤ)

structure Order where
  id : String
  customerId : Option String
  state : String
  money : OrderMoney
  (shippingAddress billingAddress : Option String)
  metadata : Option OrderMetadata

/-- Snapshot kept by an order edit. -/
structure EditSnapshot where
  (shippingAddress billingAddress addresses : Option String)
  rest : String

structure OrderEdit where
  (id orderId : String)
  (before after : EditSnapshot)
  reason : Option String

/-- Data of an audit row. -/
structure AuditData where
  (before after reason : Option String)
  rest : String

structure AuditRow where
  (id entity action entityId : String)
  data : Option AuditData

structure License where
  id : String
  (orderId customerId : Option String)

/-- State of a device activation. -/
inductive ActivationState where
  | active | removed | revoked
  deriving DecidableEq

/-- Device activation of a licence. -/
structure Activation where
  (id licenseId : String)
  state : ActivationState
  generation : ℕ
  revokedAt : Option ℤ

structure Subscription where
  id : String
  customerId : Option String
  status : String

/-- Product review. -/
structure Review where
  id : String
  customerId : Option String
  authorEmail : String

/-- Session grant taken over from the source shop. -/
structure LegacyGrant where
  id : String
  (customerId sessionId : Option String)

/-- Tables whose rows belong to a customer and carry nothing else the erasure
reads. -/
inductive OwnedTable where
  | giftCard | promotionUsage | cart | loyaltyLedger | paymentMethod | customerToken | address
  | customerAddressDraft | customerPasskeyCredential | customerPasskeyChallenge
  | sheeridVerification | storekitPurchase
  deriving DecidableEq

/-- Row of such a table. -/
structure Owned where
  id : String
  customerId : Option String
  data : String

/-- Queued or sent mail. -/
structure Mail where
  (id recipient payload : String)

/-- Newsletter or waitlist subscriber. -/
structure Subscriber where
  (id email : String)

/-- Tables of one store. -/
structure Database where
  customers : List Customer
  sessions : List Session
  orders : List Order
  orderEdits : List OrderEdit
  auditLog : List AuditRow
  licenses : List License
  activations : List Activation
  subscriptions : List Subscription
  reviews : List Review
  legacyGrants : List LegacyGrant
  owned : OwnedTable → List Owned
  emailOutbox : List Mail
  subscribers : List Subscriber

/-- What a foreign key to the customer does when the customer is deleted. -/
inductive DeleteRule where
  | noAction | cascade
  deriving DecidableEq

/-- Rule of the customer key of a table. -/
def deleteRule : OwnedTable → DeleteRule
  | .customerAddressDraft | .customerPasskeyCredential | .customerPasskeyChallenge => .cascade
  | _ => .noAction

/-- Tables of customer rows. -/
def ownedTables : List OwnedTable :=
  [.giftCard,.promotionUsage,.cart,.loyaltyLedger,.paymentMethod,.customerToken,.address,
    .customerAddressDraft,.customerPasskeyCredential,.customerPasskeyChallenge,
    .sheeridVerification,.storekitPurchase]

/-- Code outside of the erasure. -/
structure World where
  /-- Mailbox as the database compares it: trimmed and in lower case. -/
  lowerTrim : String → String
  (normalizeEmail hashToken : String → String)

/-- The row refers to the customer. -/
def refersTo (customerId : String) (link : Option String) : Bool :=
  decide (link=some customerId)

variable (w : World)

/-- The order belongs to the customer: it was not linked by its mailbox alone,
or that mailbox is the proven one. -/
def provenMetadata (c : Customer) (metadata : Option OrderMetadata) : Bool :=
  decide (metadata.bind OrderMetadata.linkedVia≠some "email_match") ||
    (c.emailVerified &&
      decide (((metadata.bind OrderMetadata.contact).bind Contact.email).map w.lowerTrim =
        some (w.normalizeEmail c.email)))

/-- The order is linked to the customer and provably theirs. -/
def ownsOrder (c : Customer) (o : Order) : Bool :=
  refersTo c.id o.customerId&&provenMetadata w c o.metadata

/-- Metadata without any field. -/
def noMetadata : OrderMetadata := ⟨none,none,none,none,none,none,none,none,none, ""⟩

def anonymizedOrder (now : ℤ) (o : Order) : Order := {o with
    customerId := none
    shippingAddress := none
    billingAddress := none
    metadata := some {o.metadata.getD noMetadata with anonymizedAt := some now}}

/-- Metadata without contact data. -/
def withoutContact (m : OrderMetadata) : OrderMetadata := {m with
    contact := none
    email := none
    phone := none
    customerEmail := none
    guestEmail := none
    customerName := none
    customerNote := none}

/-- Order whose metadata holds no contact data. -/
def scrubbedOrder (o : Order) : Order :=
  {o with metadata := some (withoutContact (o.metadata.getD noMetadata))}

def detachedOrder (o : Order) : Order := {o with customerId := none}

def scrubbedSnapshot (snapshot : EditSnapshot) : EditSnapshot := {snapshot with
    shippingAddress := none
    billingAddress := none
    addresses := none}

/-- Order edit without addresses and reason. -/
def scrubbedEdit (edit : OrderEdit) : OrderEdit := {edit with
    before := scrubbedSnapshot edit.before
    after := scrubbedSnapshot edit.after
    reason := none}

/-- Audit row without values and reason. -/
def scrubbedAudit (row : AuditRow) : AuditRow := {row with
    data := some {row.data.getD ⟨none,none,none, ""⟩ with
      before := none
      after := none
      reason := none}}

/-- Orders that are provably the customer's. -/
def erasedOrderIds (c : Customer) (db : Database) : List String :=
  (db.orders.filter (ownsOrder w c)).map Order.id

/-- Anonymize the provable orders. -/
def anonymizeOrders (c : Customer) (now : ℤ) (db : Database) : Database :=
  {db with orders := updateWhere (ownsOrder w c) (anonymizedOrder now) db.orders}

/-- Scrub the edits and address audit rows of erased orders. -/
def scrubHistory (erased : List String) (db : Database) : Database := {db with
    orderEdits := updateWhere (fun edit => decide (edit.orderId∈erased)) scrubbedEdit db.orderEdits
    auditLog := updateWhere (fun row => decide (row.entity = "order" ∧
      row.action = "edit_address" ∧ row.entityId∈erased)) scrubbedAudit db.auditLog}

/-- Metadata of the order that bought a licence. -/
def licenseMetadata (db : Database) (l : License) : Option OrderMetadata :=
  (l.orderId.bind fun orderId => db.orders.find? fun o => decide (o.id=orderId)).bind Order.metadata

/-- Licences that are provably the customer's. -/
def ownedLicenses (c : Customer) (db : Database) : List String :=
  (db.licenses.filter fun l =>
    refersTo c.id l.customerId&&provenMetadata w c (licenseMetadata db l)).map License.id

def revokedActivation (now : ℤ) (a : Activation) : Activation := {a with
    state := .revoked
    revokedAt := some now
    generation := a.generation+1}

def revokeDeviceRemote (now : ℤ) (licenseId : String) (activations : List Activation)
    (activationId : String) : List Activation :=
  updateWhere (fun a => decide (a.id=activationId∧a.licenseId=licenseId))
    (revokedActivation now) activations

def revokeLicense (now : ℤ) (activations : List Activation) (licenseId : String) :
    List Activation :=
  ((activations.filter fun a =>
      decide (a.licenseId=licenseId∧a.state=.active)).map Activation.id).foldl
    (revokeDeviceRemote now licenseId) activations

def revokeDevices (now : ℤ) (licenses : List String) (db : Database) : Database :=
  {db with activations := licenses.foldl (revokeLicense now) db.activations}

def scrubContacts (erased : List String) (db : Database) : Database := {db with
    orders := updateWhere (fun o => decide (o.id∈erased)) scrubbedOrder db.orders}

/-- Detach orders that only an unproven mailbox links to the customer. -/
def detachOrders (c : Customer) (db : Database) : Database :=
  {db with orders := updateWhere (fun o => refersTo c.id o.customerId) detachedOrder db.orders}

section
variable (c : Customer) (table : OwnedTable) (db : Database)

/-- Detach the rows of a table from the customer. -/
def detachOwned : Database := {db with
    owned := Function.update db.owned table
      (updateWhere (fun row => refersTo c.id row.customerId)
        (fun row => {row with customerId := none}) (db.owned table))}

/-- Delete the customer's rows of a table. -/
def deleteOwned : Database := {db with
    owned := Function.update db.owned table
      (deleteWhere (fun row => refersTo c.id row.customerId) (db.owned table))}

end

section
variable (c : Customer) (db : Database)

def detachAgreements : Database := {db with
    subscriptions := updateWhere (fun row => refersTo c.id row.customerId)
      (fun row => {row with customerId := none}) db.subscriptions
    licenses := updateWhere (fun row => refersTo c.id row.customerId)
      (fun row => {row with customerId := none}) db.licenses}

/-- Delete reviews written by the customer or under the mailbox. -/
def deleteReviews : Database := {db with
    reviews := deleteWhere (fun row =>
      refersTo c.id row.customerId||decide (row.authorEmail=c.email)) db.reviews}

/-- Delete the customer's sessions; grants made into them lose their session. -/
def deleteSessions : Database := {db with
    sessions := deleteWhere (fun row => refersTo c.id row.customerId) db.sessions
    legacyGrants := updateWhere (fun grant => db.sessions.any fun row =>
        refersTo c.id row.customerId&&decide (grant.sessionId=some row.id))
      (fun grant => {grant with sessionId := none}) db.legacyGrants}

end

/-- Recipient written over an erased mailbox. -/
def erasedRecipient : String := "erased@deleted.invalid"

/-- Payload written over an erased mail. -/
def erasedPayload : String := "\x7b\"erased\": true\x7d"

section
variable (c : Customer) (db : Database)

def scrubMail : Database := {db with
    emailOutbox := updateWhere (fun mail => decide (mail.recipient=c.email))
      (fun mail => {mail with recipient := erasedRecipient,payload := erasedPayload})
      db.emailOutbox
    subscribers := deleteWhere (fun row => decide (row.email=c.email)) db.subscribers}

def blocksDelete : Bool :=
  db.orders.any (fun o => refersTo c.id o.customerId) ||
    db.sessions.any (fun row => refersTo c.id row.customerId) ||
    db.licenses.any (fun row => refersTo c.id row.customerId) ||
    db.subscriptions.any (fun row => refersTo c.id row.customerId) ||
    ownedTables.any fun table => decide (deleteRule table=.noAction) &&
      (db.owned table).any fun row => refersTo c.id row.customerId

/-- Delete the customer under the delete rules of the keys that refer to it. -/
def deleteCustomer : Option Database :=
  if blocksDelete c db then none
  else
    some {db with
      customers := deleteWhere (fun row => decide (row.id=c.id)) db.customers
      reviews := updateWhere (fun row => refersTo c.id row.customerId)
        (fun row => {row with customerId := none}) db.reviews
      legacyGrants := deleteWhere (fun row => refersTo c.id row.customerId) db.legacyGrants
      owned := fun table =>
        if deleteRule table=.cascade then
          deleteWhere (fun row => refersTo c.id row.customerId) (db.owned table)
        else db.owned table}

end

/-- Rows scrubbed, detached and deleted before the customer row. -/
def scrubAccount (c : Customer) (now : ℤ) (db : Database) : Database :=
  let erased := erasedOrderIds w c db
  let anonymized := scrubHistory erased (anonymizeOrders w c now db)
  let revoked := revokeDevices now (ownedLicenses w c anonymized) anonymized
  let detached := detachAgreements c (detachOwned c .promotionUsage (detachOwned c .giftCard
    (detachOrders c (scrubContacts erased revoked))))
  let deleted := deleteOwned c .customerToken (deleteOwned c .paymentMethod
    (deleteReviews c (deleteOwned c .loyaltyLedger detached)))
  scrubMail c (deleteOwned c .customerAddressDraft (deleteOwned c .address
    (detachOwned c .cart (deleteSessions c deleted))))

/-- Customer of a live session. -/
def me (db : Database) (token : String) (now : ℤ) : Option Customer :=
  (db.sessions.find? fun row =>
    decide (row.tokenHash=w.hashToken token∧now<row.expiresAt) &&
      row.legacyExpiresAt.all fun expiresAt => decide (now<expiresAt)).bind fun row =>
    db.customers.find? fun c => decide (row.customerId=some c.id)

/-- Answers of an erasure. -/
inductive ErasureOutcome where
  | unauth | unverified | activeSubscription | ok
  /-- A foreign key refused the deletion and everything was rolled back. -/
  | failed
  deriving DecidableEq

def hasLiveSubscription (c : Customer) (db : Database) : Bool :=
  db.subscriptions.any fun row => refersTo c.id row.customerId&&decide (row.status ≠ "canceled")

/-- Erase the account of a session. -/
def eraseAccount (db : Database) (token : String) (now : ℤ) :
    ErasureOutcome×Database :=
  match me w db token now with
  | none => (.unauth,db)
  | some c =>
    if !c.emailVerified then (.unverified,db)
    else if hasLiveSubscription c db then (.activeSubscription,db)
    else
      match deleteCustomer c (scrubAccount w c now db) with
      | none => (.failed,db)
      | some erased => (.ok,erased)

end SellRight.AccountErasure
