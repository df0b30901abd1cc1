import SellRight.FallibleSteps
import SellRight.RowTable

/-!
# Staff membership of one store

Adding staff, changing a role, removing staff, inviting, accepting an invite,
granting permissions, and creating or removing an agent seat. The caller's
access to the store and the kind of a target account are read before the
membership lock and are part of a request; everything else is read under the
lock. Two sibling routes for agent seats take no membership lock.
-/

namespace SellRight.StaffMembership

open RowTable

/-- Role of a member in the store. -/
inductive StaffRole where
  | owner
  | manager
  | staff
  | readOnly
  deriving DecidableEq

/-- Spelling of a role. -/
def StaffRole.text : StaffRole → String
  | .owner => "owner"
  | .manager => "manager"
  | .staff => "staff"
  | .readOnly => "read_only"

/-- Roles that manage settings and staff, `ADMIN_ROLES`. -/
def StaffRole.manages : StaffRole → Bool
  | .owner | .manager => true
  | .staff | .readOnly => false

/-- Identity kind of an account. -/
inductive AccountKind where
  | human
  | agent
  deriving DecidableEq

/-- A row of `admin_user`. -/
structure Account where
  (id email : String)
  kind : AccountKind
  hasPassword : Bool
  deriving DecidableEq

/-- A row of `admin_user_store`. -/
structure Member where
  /-- Account of the member, unique in the store. -/
  adminUserId : String
  role : StaffRole
  permissions : List (String×Bool)

/-- A row of `staff_invite`. -/
structure Invite where
  id : ℕ
  email : String
  role : StaffRole
  expiresAt : ℤ
  acceptedAt : Option ℤ
  deriving DecidableEq

structure Store where
  accounts : List Account
  members : List Member
  invites : List Invite
  /-- Identifier of the next invite, standing for a random one. -/
  nextInvite : ℕ

/-- Error answered to a request. -/
structure HttpError where
  status : ℕ
  message : String
  code : Option String
  deriving DecidableEq

/-- Access of an administrator to the store, as its principal holds it. -/
structure AdminStoreAccess where
  slug : String
  role : StaffRole

/-- Caller of a staff route with the access read before the lock. -/
structure Caller where
  id : String
  access : AdminStoreAccess

/-- Go on when a condition holds. -/
def ensure (condition : Prop) [Decidable condition] (error : HttpError) : Except HttpError Unit :=
  if condition then .ok () else .error error

@[simp] theorem ensure_eq_ok {condition : Prop} [Decidable condition] {error : HttpError}
    {result : Unit} : ensure condition error=.ok result ↔ condition := by
  unfold ensure
  split <;> simp_all

/-- Only owners and managers go on. -/
def requireManage (st : AdminStoreAccess) : Except HttpError Unit := ensure (st.role.manages=true)
    ⟨403, "role '" ++ st.role.text ++ "' cannot manage settings/staff",none⟩

/-- Only owners go on when owner-level access is concerned. -/
def requireOwnerIf (concerned : Prop) [Decidable concerned] (st : AdminStoreAccess) :
    Except HttpError Unit :=
  ensure (concerned→st.role=.owner)
    ⟨403, "role '" ++ st.role.text ++ "' cannot manage owner-level access",none⟩

section
variable (s : Store)

/-- Account of an address. -/
def accountByEmail (email : String) : Option Account :=
  s.accounts.find? fun account => decide (account.email=email)

variable (id : String)

def accountById : Option Account :=
  s.accounts.find? fun account => decide (account.id=id)

/-- Identity kind of the account of an address. -/
def adminKindByEmail (email : String) : Option AccountKind :=
  (accountByEmail s email).map Account.kind

def adminKindById : Option AccountKind :=
  (accountById s id).map Account.kind

/-- Membership row of an account. -/
def memberOf : Option Member :=
  s.members.find? fun member => decide (member.adminUserId=id)

/-- Current role of an account in the store. -/
def roleOf : Option StaffRole := (memberOf s id).map Member.role

/-- Number of owners of the store. -/
def lockedOwnerCount : ℕ := s.members.countP fun member => decide (member.role=.owner)

/-- The caller's current access, read again under the membership lock. -/
def lockMembershipAsCaller (caller : Caller) : Except HttpError AdminStoreAccess :=
  match roleOf s caller.id with
  | none => .error ⟨403, "no access to store: " ++ caller.access.slug,none⟩
  | some role => do
    requireManage ⟨caller.access.slug,role⟩
    pure ⟨caller.access.slug,role⟩

/-- Delete the pending invites to the address of an account. -/
def revokePendingInvites : Store := {s with
    invites := deleteWhere (fun invite => decide (invite.acceptedAt=none) &&
      decide (some invite.email=(accountById s id).map Account.email)) s.invites}

def setRole (role : StaffRole) : Store := {s with
    members := updateWhere (fun member => decide (member.adminUserId=id))
      (fun member => {member with role := role}) s.members}

/-- Insert a member. -/
def addMember (role : StaffRole) : Store :=
  {s with members := s.members++[⟨id,role,[]⟩]}

def dropMember : Store :=
  {s with members := deleteWhere (fun member => decide (member.adminUserId=id)) s.members}

/-- Insert an account. -/
def addAccount (account : Account) : Store :=
  {s with accounts := s.accounts++[account]}

/-- Insert a member, or set the role of the one there is. -/
def upsertMember (role : StaffRole) : Store :=
  if roleOf s id=none then addMember s id role else setRole s id role

end

/-- A request to add a staff member. -/
structure AddStaff where
  caller : Caller
  email : String
  role : StaffRole
  kindRead : Option AccountKind
  drawn : String

/-- Answer to adding an account of another store directly. -/
def existingAccount : HttpError :=
  ⟨409, "this address already has an account — send an invite instead",
    some "EXISTING_ACCOUNT_USE_INVITE"⟩

/-- Error for requests that treat an agent as a person. -/
def agentsElsewhere : HttpError := ⟨400, "agents are created under Agent access",none⟩

variable (s : Store)

/-- Change of an account of the store under the lock: owners are touched by
owners only, and the last owner stays one. -/
def grantRole (cur : AdminStoreAccess) (id : String) (role : StaffRole) :
    Except HttpError Store := do
  requireOwnerIf (roleOf s id=some .owner) cur
  ensure (roleOf s id=some .owner → role≠.owner→1<lockedOwnerCount s)
    ⟨409, "cannot demote the last remaining owner",none⟩
  pure (revokePendingInvites (upsertMember s id role) id)

/-- Add a staff member: a new account joins, a member's role changes, and an
account of another store is refused. -/
def addStaff (r : AddStaff) : Except HttpError Store := do
  requireManage r.caller.access
  requireOwnerIf (r.role=.owner) r.caller.access
  ensure (r.kindRead≠some .agent) agentsElsewhere
  let cur ← lockMembershipAsCaller s r.caller
  requireOwnerIf (r.role=.owner) cur
  match accountByEmail s r.email with
  | none => grantRole (addAccount s ⟨r.drawn,r.email,.human,true⟩) cur r.drawn r.role
  | some account => do
    ensure (roleOf s account.id≠none) existingAccount
    grantRole s cur account.id r.role

/-- A request to change the role of a staff member. -/
structure ChangeRole where
  caller : Caller
  adminUserId : String
  role : StaffRole
  kindRead : Option AccountKind

def changeRole (r : ChangeRole) : Except HttpError Store := do
  requireManage r.caller.access
  ensure (r.role=.owner → r.kindRead≠some .agent) ⟨400, "agents cannot be owners",none⟩
  let cur ← lockMembershipAsCaller s r.caller
  requireOwnerIf (r.role=.owner∨roleOf s r.adminUserId=some .owner) cur
  ensure (roleOf s r.adminUserId=some .owner → r.role≠.owner→1<lockedOwnerCount s)
    ⟨409, "cannot demote the last remaining owner",none⟩
  ensure (roleOf s r.adminUserId≠none) ⟨404, "staff member not enrolled in this store",none⟩
  pure (revokePendingInvites (setRole s r.adminUserId r.role) r.adminUserId)

/-- A request to remove a staff member. -/
structure RemoveStaff where
  caller : Caller
  adminUserId : String

def removeStaff (r : RemoveStaff) : Except HttpError Store := do
  requireManage r.caller.access
  ensure (r.adminUserId≠r.caller.id) ⟨409, "cannot remove your own access",none⟩
  let cur ← lockMembershipAsCaller s r.caller
  requireOwnerIf (roleOf s r.adminUserId=some .owner) cur
  ensure (roleOf s r.adminUserId=some .owner→1<lockedOwnerCount s)
    ⟨409, "cannot remove the last remaining owner",none⟩
  pure (revokePendingInvites (dropMember s r.adminUserId) r.adminUserId)

/-- A request to invite a person. -/
structure CreateInvite where
  caller : Caller
  email : String
  role : StaffRole
  kindRead : Option AccountKind
  now : ℤ

/-- Lifetime of an invite in milliseconds. -/
def inviteTtlMs : ℤ := 7*24*3600*1000

/-- An address belongs to a member of the store. -/
def isMemberEmail (email : String) : Bool :=
  s.members.any fun member => decide ((accountById s member.adminUserId).map Account.email=some email)

def createInvite (r : CreateInvite) : Except HttpError Store := do
  requireManage r.caller.access
  requireOwnerIf (r.role=.owner) r.caller.access
  ensure (r.kindRead≠some .agent) agentsElsewhere
  let cur ← lockMembershipAsCaller s r.caller
  requireOwnerIf (r.role=.owner) cur
  ensure (isMemberEmail s r.email=false)
    ⟨409, "this person is already a member of this store — change their role under Staff instead",
      some "ALREADY_MEMBER"⟩
  pure {s with
    invites := s.invites++[⟨s.nextInvite,r.email,r.role,r.now+inviteTtlMs,none⟩]
    nextInvite := s.nextInvite+1}

/-- Delete an invite whose mail could not be sent. -/
def discardInvite (id : ℕ) : Store :=
  {s with invites := deleteWhere (fun invite => decide (invite.id=id)) s.invites}

/-- Outcome of checking a password given with an acceptance. -/
inductive PasswordCheck where
  /-- Too many attempts on this address, with the seconds to wait. -/
  | limited (retry : ℕ)
  /-- Password or second factor do not match. -/
  | wrong
  /-- Password and second factor match the stored credentials. -/
  | matching
  deriving DecidableEq

/-- A request to accept an invite with everything read before the lock. -/
structure AcceptInvite where
  invite : Invite
  kindRead : Option AccountKind
  (existing me : Option Account)
  /-- The request carries its session's CSRF token. -/
  csrfValid : Bool
  currentPassword : Option PasswordCheck
  password : Bool
  /-- The account still has the credentials that were checked. -/
  credentialsHold : Bool
  sessionLive : Bool
  drawn : String
  (now claimedAt : ℤ)

/-- Answer to an invite that cannot be used. -/
def inviteInvalid : HttpError :=
  ⟨409, "invite is invalid, already used, or expired",some "INVITE_INVALID"⟩

/-- The signed-in person is the invited one. -/
def AcceptInvite.ownSession (r : AcceptInvite) : Bool :=
  match r.me with
  | none => false
  | some me => decide (me.kind=.human)&&decide (me.email=r.invite.email)

/-- The password of an existing account was given and accepted. -/
def checkPassword (account : Account) : Option PasswordCheck → Except HttpError Unit
  | none => .error ⟨401,
      "this address already has an account — sign in as it, or confirm its current password, to accept",
      some "INVITE_SIGN_IN_REQUIRED"⟩
  | some (.limited retry) => .error
      ⟨429, "too many attempts — try again in " ++ toString retry ++ "s",some "RATE_LIMITED"⟩
  | some check => ensure (check=.matching∧account.hasPassword=true)
      ⟨401, "invalid password or 2FA code",some "INVITE_AUTH_FAILED"⟩

/-- Proof of identity before the lock. -/
def proveIdentity (r : AcceptInvite) : Except HttpError Unit :=
  match r.existing with
  | none => ensure (r.password=true)
      ⟨400, "choose a password (at least 10 characters) to create your account",
        some "PASSWORD_REQUIRED"⟩
  | some account =>
    if r.ownSession=true then
      ensure (r.csrfValid=true) ⟨403, "CSRF token missing or invalid",some "CSRF_INVALID"⟩
    else checkPassword account r.currentPassword

section
variable (s : Store) (r : AcceptInvite)

/-- Claim an invite that is neither used nor expired. -/
def claimInvite : Except HttpError Store := do
  ensure (s.invites.any (fun invite => decide (invite.id=r.invite.id) &&
    decide (invite.acceptedAt=none)&&decide (r.claimedAt < invite.expiresAt))=true)
    inviteInvalid
  pure {s with
    invites := updateWhere (fun invite => decide (invite.id=r.invite.id))
      (fun invite => {invite with acceptedAt := some r.claimedAt}) s.invites}

/-- Account that joins the store: the proven one, or a new one. -/
def joiningAccount : Except HttpError (Store×String) :=
  match r.existing with
  | some account => do
    ensure (r.credentialsHold=true)
      ⟨409, "your credentials changed meanwhile — sign in again and accept",
        some "CREDENTIAL_CHANGED"⟩
    ensure (r.ownSession=true → r.sessionLive=true)
      ⟨401, "session expired — sign in again and accept",some "INVITE_SIGN_IN_REQUIRED"⟩
    pure (s,account.id)
  | none => do
    ensure (accountByEmail s r.invite.email=none)
      ⟨409, "an account for this address was just created — sign in to accept",
        some "INVITE_SIGN_IN_REQUIRED"⟩
    pure (addAccount s ⟨r.drawn,r.invite.email,.human,true⟩,r.drawn)

def acceptInvite : Except HttpError Store := do
  ensure (r.invite.acceptedAt=none∧r.now<r.invite.expiresAt) inviteInvalid
  ensure (r.kindRead≠some .agent) ⟨400, "agents cannot accept invites",none⟩
  proveIdentity r
  let claimed ← claimInvite s r
  let (joined,id) ← joiningAccount claimed r
  ensure (roleOf joined id=none)
    ⟨409, "you are already a member of this store; your role is managed under Staff",
      some "ALREADY_MEMBER"⟩
  pure (addMember joined id r.invite.role)

end

/-- A request to grant permissions. -/
structure ChangePermissions where
  caller : Caller
  adminUserId : String
  permissions : List (String×Bool)

/-- Permissions that the staff editor shows. -/
def uiPermissionKeys : List String :=
  ["giftcards", "webhooks", "refunds", "cancel_orders", "releases", "loyalty", "affiliate_payouts",
    "customer_verification"]

/-- Overlay the requested values on the stored permissions: unknown stored
keys stay, and a known key is stored only when it is granted. -/
def mergeStaffPermissions (previous next : List (String×Bool)) : List (String×Bool) :=
  previous.filter (fun entry => !uiPermissionKeys.contains entry.1) ++
    (uiPermissionKeys.filter fun key => next.lookup key == some true).map fun key => (key,true)

/-- Grant permissions to a staff member. -/
def changePermissions (r : ChangePermissions) : Except HttpError Store := do
  requireManage r.caller.access
  match r.permissions.find? (fun entry => !uiPermissionKeys.contains entry.1) with
  | some entry => .error ⟨400, "unknown permission key: " ++ entry.1,none⟩
  | none => do
    let _ ← lockMembershipAsCaller s r.caller
    ensure (roleOf s r.adminUserId≠none) ⟨404, "staff member not enrolled in this store",none⟩
    pure {s with
      members := updateWhere (fun member => decide (member.adminUserId=r.adminUserId))
        (fun member => {member with
          permissions := mergeStaffPermissions member.permissions r.permissions})
        s.members}

/-- A request to create an agent seat. -/
structure CreateAgent where
  caller : Caller
  role : StaffRole
  (drawn email : String)

/-- Create an agent seat. Only the principal resolved earlier is checked. -/
def createAgentSeat (r : CreateAgent) : Except HttpError Store := do
  requireManage r.caller.access
  ensure (r.role≠.owner) ⟨500, "agents cannot be owners",none⟩
  ensure (accountByEmail s r.email=none) ⟨500, "duplicate key value",none⟩
  pure (addMember (addAccount s ⟨r.drawn,r.email,.agent,false⟩) r.drawn r.role)

/-- Remove an agent seat. Only the principal resolved earlier is checked. -/
def removeAgentSeat (r : RemoveStaff) : Except HttpError Store := do
  requireManage r.caller.access
  ensure (roleOf s r.adminUserId≠none∧adminKindById s r.adminUserId=some .agent)
    ⟨404, "agent not found in this store",none⟩
  pure (dropMember s r.adminUserId)

end SellRight.StaffMembership
