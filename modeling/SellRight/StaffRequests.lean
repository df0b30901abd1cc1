import SellRight.StaffMembership

/-!
# What one staff request does

A successful request moves the role of at most one account, and every move is
justified by the caller's current role or by an invite. Accounts are only
added, an invite is issued, accepted or deleted, and no invite to a person
whose role was set or deleted stays open.
-/

namespace SellRight.StaffRequests

open StaffMembership RowTable FallibleSteps List

/-- One transaction on the store. -/
inductive Action where
  | addStaff (r : AddStaff)
  | changeRole (r : ChangeRole)
  | removeStaff (r : RemoveStaff)
  | createInvite (r : CreateInvite)
  | discardInvite (id : ℕ)
  | acceptInvite (r : AcceptInvite)
  | changePermissions (r : ChangePermissions)
  | createAgentSeat (r : CreateAgent)
  | removeAgentSeat (r : RemoveStaff)
  | createAccount (account : Account)

/-- Answer of a transaction. -/
inductive Answer where
  | done
  | invited (id : ℕ)
  | refused (error : HttpError)
  deriving DecidableEq

/-- A refused request leaves the store as it was. -/
def settle (s : Store) (success : Answer) : Except HttpError Store → Answer×Store
  | .ok after => (success,after)
  | .error error => (.refused error,s)

/-- Execute one transaction. -/
def step (s : Store) : Action → Answer×Store
  | .addStaff r => settle s .done (addStaff s r)
  | .changeRole r => settle s .done (changeRole s r)
  | .removeStaff r => settle s .done (removeStaff s r)
  | .createInvite r => settle s (.invited s.nextInvite) (createInvite s r)
  | .discardInvite id => (.done,discardInvite s id)
  | .acceptInvite r => settle s .done (acceptInvite s r)
  | .changePermissions r => settle s .done (changePermissions s r)
  | .createAgentSeat r => settle s .done (createAgentSeat s r)
  | .removeAgentSeat r => settle s .done (removeAgentSeat s r)
  | .createAccount account => (.done,addAccount s account)

/-- Caller of a transaction, with the access resolved earlier. -/
def callerOf : Action → Option Caller
  | .addStaff r => some r.caller
  | .changeRole r => some r.caller
  | .removeStaff r => some r.caller
  | .createInvite r => some r.caller
  | .changePermissions r => some r.caller
  | .createAgentSeat r => some r.caller
  | .removeAgentSeat r => some r.caller
  | .discardInvite _ => none
  | .acceptInvite _ => none
  | .createAccount _ => none

/-- The caller is an owner or a manager now. -/
def Manages (s : Store) (id : String) : Prop := ∃ role, roleOf s id=some role∧role.manages=true

/-- An agent seat is created or removed while its caller still is an owner or
manager, and no grant of ownership concerns an agent account that was created
after the request looked at the kind of its target. -/
def Current (s : Store) : Action → Prop
  | .createAgentSeat r => r.caller.access.role.manages=true → r.role≠.owner →
      accountByEmail s r.email=none → Manages s r.caller.id
  | .removeAgentSeat r => r.caller.access.role.manages=true → roleOf s r.adminUserId≠none →
      adminKindById s r.adminUserId=some .agent → Manages s r.caller.id
  | .addStaff r => r.role=.owner → r.kindRead≠some .agent→adminKindByEmail s r.email≠some .agent
  | .changeRole r => r.role=.owner → r.kindRead≠some .agent →
      adminKindById s r.adminUserId≠some .agent
  | _ => True

/-- Account whose role a transaction sets or deletes. -/
def targetOf (s : Store) : Action → Option String
  | .addStaff r => some (((accountByEmail s r.email).map Account.id).getD r.drawn)
  | .changeRole r => some r.adminUserId
  | .removeStaff r => some r.adminUserId
  | .removeAgentSeat r => some r.adminUserId
  | _ => none

def HasOwner (s : Store) : Prop := ∃ id, roleOf s id=some .owner

/-- Roles before and after a transaction differ in one account at most. -/
def Moves (s s' : Store) (id : String) (role : Option StaffRole) : Prop :=
  ∀ x, roleOf s' x=if x=id then role else roleOf s x

theorem roleOf_revoke (s : Store) (id x : String) :
    roleOf (revokePendingInvites s id) x=roleOf s x := rfl
variable {s s' : Store} {id x : String} {role : StaffRole} {account : Account} {caller : Caller}
  {cur : AdminStoreAccess} {a : Action} {r : AcceptInvite}

theorem roleOf_eq_some (h : roleOf s id=some role) :
    ∃ member∈s.members, member.adminUserId=id∧member.role=role := by
  obtain ⟨member,hmemb,hrol⟩ := Option.map_eq_some_iff.mp h
  obtain ⟨hmem,hid⟩ := find_key_eq_some Member.adminUserId hmemb
  exact ⟨member,hmem,hid,hrol⟩

theorem roleOf_of_mem (hmemb : (s.members.map Member.adminUserId).Nodup)
    {member : Member} (hmem : member∈s.members) : roleOf s member.adminUserId=some member.role := by
  have hfd := find_key_self Member.adminUserId hmemb hmem
  simp [roleOf,memberOf,hfd]

theorem roleOf_none_iff : roleOf s id=none ↔ ∀ member∈s.members, member.adminUserId≠id := by
  simp [roleOf,memberOf,find?_eq_none]

theorem addMember_moves (hno : roleOf s id=none) (role : StaffRole) :
    Moves s (addMember s id role) id (some role) := by
  intro x
  have hfin : s.members.find? (fun member => decide (member.adminUserId=id))=none :=
    find?_eq_none.mpr (by simpa using roleOf_none_iff.mp hno)
  by_cases hx : x=id
  · subst hx
    simp [roleOf,memberOf,addMember,find?_append,hfin]
  · have hne : ¬ id=x := fun h => hx h.symm
    simp [roleOf,memberOf,addMember,find?_append,hx,hne]

section
variable (s : Store) (id : String)

/-- A removed member has no role. -/
theorem dropMember_moves : Moves s (dropMember s id) id none := by
  intro x
  by_cases hx : x=id
  · subst hx
    rw [if_pos rfl,roleOf_none_iff]
    intro member hmem
    simpa using (mem_deleteWhere.mp hmem).2
  · have hkp := find_key_deleteWhere_of_ne Member.adminUserId (fun h => hx h.symm) s.members
    rw [if_neg hx]
    simp only [roleOf,memberOf,dropMember,hkp]

/-- Rewrite the row of a member. -/
def rewriteMember (f : Member → Member) : Store := {s with
    members := updateWhere (fun member => decide (member.adminUserId=id)) f s.members}

/-- A member whose row is rewritten keeps its key, and the others keep their
rows. -/
theorem rewriteMember_roleOf (f : Member → Member)
    (hkey : ∀ member, (f member).adminUserId=member.adminUserId) (x : String) :
    roleOf (rewriteMember s id f) x=if x=id then (memberOf s id).map fun member => (f member).role
        else roleOf s x := by
  simp only [roleOf,memberOf,rewriteMember,find_key_updateWhere Member.adminUserId id x hkey]
  split_ifs with hx
  · subst hx
    rw [Option.map_map]
    rfl
  · simp

end

theorem setRole_moves (hso : roleOf s id≠none) (role : StaffRole) :
    Moves s (setRole s id role) id (some role) := by
  intro x
  have hrew := rewriteMember_roleOf s id (fun member => {member with role := role}) (fun _ => rfl) x
  change roleOf (rewriteMember s id _) x=_
  rw [hrew]
  cases hmem : memberOf s id with
  | none => exact absurd (by simp [roleOf,hmem]) hso
  | some => rfl

/-- An inserted or updated member has the granted role. -/
theorem upsertMember_moves (s : Store) (id : String) (role : StaffRole) :
    Moves s (upsertMember s id role) id (some role) := by
  unfold upsertMember
  split
  · next hno => exact addMember_moves hno role
  · next hso => exact setRole_moves hso role

/-- Keys of all tables are distinct, members have accounts, and an agent has
neither a password nor ownership. -/
structure Valid (s : Store) : Prop where
  members : (s.members.map Member.adminUserId).Nodup
  accounts : (s.accounts.map Account.id).Nodup
  emails : (s.accounts.map Account.email).Nodup
  enrolled : ∀ id, roleOf s id≠none→∃ account∈s.accounts, account.id=id
  agents : ∀ account∈s.accounts, account.kind=.agent →
    account.hasPassword=false∧roleOf s account.id≠some .owner
  invites : ∀ invite∈s.invites, invite.id<s.nextInvite

/-- Why the roles of the store moved. -/
inductive RoleMove (s : Store) (a : Action) (s' : Store) : Prop
  | kept (hroles : ∀ x, roleOf s' x=roleOf s x)
  | managed (caller : Caller) (current : StaffRole) (id : String) (role : Option StaffRole)
      (hcaller : callerOf a=some caller) (hcurrent : roleOf s caller.id=some current)
      (howner : role=some .owner∨roleOf s id=some .owner→current=.owner)
      (hlast : roleOf s id=some .owner → role≠some .owner→1<lockedOwnerCount s)
      (hknown : role≠none→∃ account∈s'.accounts, account.id=id)
      (hhuman : role=some .owner→∀ account∈s'.accounts, account.id=id→account.kind=.human)
      (hmoves : Moves s s' id role)
  | joined (r : AcceptInvite) (id : String) (haction : a=.acceptInvite r)
      (hnone : roleOf s id=none) (hknown : ∃ account∈s'.accounts, account.id=id)
      (hhuman : ∀ account∈s'.accounts, account.id=id→account.kind=.human)
      (hmoves : Moves s s' id (some r.invite.role))

/-- What happened to the invites. -/
inductive InviteMove (s : Store) (a : Action) (s' : Store) : Prop
  | shrunk (hnext : s'.nextInvite=s.nextInvite)
      (hsub : ∀ invite∈s'.invites, invite∈s.invites)
      (hcreate : ∀ r, a≠.createInvite r) (haccept : ∀ r, a≠.acceptInvite r)
  | added (r : CreateInvite) (haction : a=.createInvite r)
      (howner : r.role=.owner → roleOf s r.caller.id=some .owner)
      (hnext : s'.nextInvite=s.nextInvite+1)
      (hinvites : s'.invites=s.invites++[⟨s.nextInvite,r.email,r.role,r.now+inviteTtlMs,none⟩])
  | accepted (r : AcceptInvite) (haction : a=.acceptInvite r)
      (hopen : ∃ invite∈s.invites, invite.id=r.invite.id∧invite.acceptedAt=none)
      (hnext : s'.nextInvite=s.nextInvite)
      (hinvites : s'.invites=updateWhere (fun invite => decide (invite.id=r.invite.id))
        (fun invite => {invite with acceptedAt := some r.claimedAt}) s.invites)

/-- Accounts are only added, under a new identifier and a new address. -/
def AccountMove (s s' : Store) : Prop :=
  s'.accounts=s.accounts∨∃ account, s'.accounts=s.accounts++[account] ∧
    accountById s account.id=none∧accountByEmail s account.email=none ∧
    (account.kind=.agent→account.hasPassword=false)

/-- Facts about one successful transaction. -/
structure Facts (s : Store) (a : Action) (s' : Store) : Prop where
  authorized : ∀ caller, callerOf a=some caller → Manages s caller.id
  roles : RoleMove s a s'
  members : (s'.members.map Member.adminUserId).Nodup
  accounts : AccountMove s s'
  invites : InviteMove s a s'
  /-- No invite to a person whose role was set or deleted stays open. -/
  revoked : ∀ id, targetOf s a=some id→∀ account∈s'.accounts, account.id=id →
    account.kind=.human→∀ invite∈s'.invites, invite.email=account.email →
    invite.acceptedAt≠none

theorem accountById_eq_some
    (h : accountById s id=some account) : account∈s.accounts∧account.id=id :=
  find_key_eq_some Account.id h

theorem accountByEmail_eq_some {email : String}
    (h : accountByEmail s email=some account) : account∈s.accounts∧account.email=email :=
  find_key_eq_some Account.email h

theorem accountById_none (h : accountById s id=none) : ∀ account∈s.accounts, account.id≠id := by
  simpa [accountById,find?_eq_none] using h

theorem accountByEmail_none {email : String} (h : accountByEmail s email=none) :
    ∀ account∈s.accounts, account.email≠email := by
  simpa [accountByEmail,find?_eq_none] using h

theorem Valid.roleOf_new (hval : Valid s) (hnew : accountById s id=none) : roleOf s id=none := by
  by_contra hrol
  obtain ⟨account,hmem,hid⟩ := hval.enrolled id hrol
  exact accountById_none hnew account hmem hid

theorem lockMembershipAsCaller_ok (h : lockMembershipAsCaller s caller=.ok cur) :
    roleOf s caller.id=some cur.role∧cur.role.manages=true := by
  unfold lockMembershipAsCaller at h
  cases hrol : roleOf s caller.id with
  | none => simp [hrol] at h
  | some =>
    simp only [hrol,requireManage,bind_eq_ok,ensure_eq_ok] at h
    obtain ⟨⟨⟩,hman,hcur⟩ := h
    cases hcur
    exact ⟨rfl,hman⟩

/-- The guards of a role change and its effect. -/
theorem grantRole_ok (h : grantRole s cur id role=.ok s') :
    (roleOf s id=some .owner→cur.role=.owner) ∧
      (roleOf s id=some .owner → role≠.owner→1<lockedOwnerCount s) ∧
      s'=revokePendingInvites (upsertMember s id role) id := by
  simp only [grantRole,requireOwnerIf,bind_eq_ok,ensure_eq_ok] at h
  obtain ⟨⟨⟩,how,⟨⟩,hlt,hdn⟩ := h
  cases hdn
  exact ⟨how,hlt,rfl⟩

/-- Members stay distinct when one is inserted or updated. -/
theorem upsertMember_members (hmem : (s.members.map Member.adminUserId).Nodup)
    (id : String) (role : StaffRole) :
    ((upsertMember s id role).members.map Member.adminUserId).Nodup := by
  unfold upsertMember
  split
  · next hno => exact nodup_map_append _ hmem (roleOf_none_iff.mp hno)
  · next hso =>
    have hks : (setRole s id role).members.map Member.adminUserId =
        s.members.map Member.adminUserId :=
      map_updateWhere Member.adminUserId s.members fun _ _ => rfl
    rw [hks]
    exact hmem

/-- No open invite to the address of the account is left. -/
theorem revokePendingInvites_closed (hacc : (s.accounts.map Account.id).Nodup)
    (hmem : account∈s.accounts) {invite : Invite}
    (hinv : invite∈(revokePendingInvites s account.id).invites)
    (hema : invite.email=account.email) : invite.acceptedAt≠none := by
  intro hop
  have hfd : accountById s account.id=some account := find_key_self Account.id hacc hmem
  have hkp := (mem_deleteWhere.mp hinv).2
  simp [hop,hfd,hema] at hkp

theorem revokePendingInvites_subset {invite : Invite}
    (h : invite∈(revokePendingInvites s id).invites) : invite∈s.invites :=
  (mem_deleteWhere.mp h).1

theorem upsertMember_accounts (s : Store) (id : String) (role : StaffRole) :
    (upsertMember s id role).accounts=s.accounts := by
  unfold upsertMember
  split <;> rfl

theorem upsertMember_invites (s : Store) (id : String) (role : StaffRole) :
    (upsertMember s id role).invites=s.invites ∧
      (upsertMember s id role).nextInvite=s.nextInvite := by
  unfold upsertMember
  split <;> exact ⟨rfl,rfl⟩

theorem human_of_kind {kind : AccountKind} (h : kind≠.agent) : kind=.human := by
  cases kind with
  | human => rfl
  | agent => exact absurd rfl h

/-- An added account keeps identifiers distinct. -/
theorem addAccount_ids (hacc : (s.accounts.map Account.id).Nodup)
    (hnew : accountById s account.id=none) :
    ((addAccount s account).accounts.map Account.id).Nodup :=
  nodup_map_append _ hacc (accountById_none hnew)

section
variable (hval : Valid s)
include hval

theorem grant_facts {t : Store} (hcal : callerOf a=some caller)
    (hcur : roleOf s caller.id=some cur.role) (hman : cur.role.manages=true)
    (how : role=.owner∨roleOf s id=some .owner→cur.role=.owner)
    (hlt : roleOf s id=some .owner → role≠.owner→1<lockedOwnerCount s)
    (htgt : targetOf s a=some id) (hcre : ∀ r, a≠.createInvite r)
    (hacc : ∀ r, a≠.acceptInvite r) (hmemb : t.members=s.members)
    (hacco : AccountMove s t) (hids : (t.accounts.map Account.id).Nodup)
    (hinvi : t.invites=s.invites) (hnx : t.nextInvite=s.nextInvite)
    (hkn : ∃ account∈t.accounts, account.id=id)
    (hhum : role=.owner→∀ account∈t.accounts, account.id=id→account.kind=.human)
    (haft : s'=revokePendingInvites (upsertMember t id role) id) : Facts s a s' := by
  have heq : s'.accounts=t.accounts := by rw [haft]; exact upsertMember_accounts t id role
  have hroles : ∀ x, roleOf t x=roleOf s x := fun x => by simp only [roleOf,memberOf,hmemb]
  have hmvs : Moves s s' id (some role) := by
    intro x
    rw [haft,roleOf_revoke,upsertMember_moves t id role x,hroles x]
  refine ⟨fun other hot => ?_,?_,?_,?_,?_,?_⟩
  · cases hcal.symm.trans hot
    exact ⟨cur.role,hcur,hman⟩
  · refine .managed caller cur.role id (some role) hcal hcur ?_ ?_ ?_ ?_ hmvs
    · rintro (hrol|hrol)
      · exact how (.inl (Option.some.inj hrol))
      · exact how (.inr hrol)
    · exact fun hold hrol => hlt hold fun h => hrol (congrArg some h)
    · exact fun _ => by rw [heq]; exact hkn
    · intro hrol account hmem hid
      rw [heq] at hmem
      exact hhum (Option.some.inj hrol) account hmem hid
  · rw [haft]
    exact upsertMember_members (by rw [hmemb]; exact hval.members) id role
  · simpa only [AccountMove,heq] using hacco
  · refine .shrunk ?_ ?_ hcre hacc
    · rw [haft,← hnx]
      exact (upsertMember_invites t id role).2
    intro invite hinv
    rw [haft] at hinv
    have hold := revokePendingInvites_subset hinv
    rwa [(upsertMember_invites t id role).1,hinvi] at hold
  · intro other hot account hmem hid _ invite hinv hema
    cases htgt.symm.trans hot
    subst hid
    rw [haft] at hinv
    rw [heq] at hmem
    exact revokePendingInvites_closed (s := upsertMember t account.id role)
      (by rw [upsertMember_accounts]; exact hids)
      (by rw [upsertMember_accounts]; exact hmem) hinv hema

/-- A new account joins the store, or a member's role changes. -/
theorem addStaff_facts {r : AddStaff}
    (hdra : accountById s r.drawn=none) (hcur : Current s (.addStaff r))
    (h : addStaff s r=.ok s') : Facts s (.addStaff r) s' := by
  simp only [addStaff,requireManage,requireOwnerIf,bind_eq_ok,ensure_eq_ok] at h
  obtain ⟨⟨⟩,-,⟨⟩,-,⟨⟩,hkd,cur,hlk,⟨⟩,how,hgra⟩ := h
  obtain ⟨hrol,hman⟩ := lockMembershipAsCaller_ok hlk
  cases hfd : accountByEmail s r.email with
  | none =>
    simp only [hfd] at hgra
    obtain ⟨hown,hlt,haft⟩ := grantRole_ok hgra
    refine grant_facts (t := addAccount s ⟨r.drawn,r.email,.human,true⟩) hval rfl hrol hman
      ?_ ?_ ?_ (fun _ h => by cases h) (fun _ h => by cases h) rfl
      (.inr ⟨_,rfl,hdra,hfd,fun h => by cases h⟩)
      (addAccount_ids hval.accounts hdra) rfl rfl
      ⟨_,mem_concat_self,rfl⟩ ?_ haft
    · rintro (hreq|hhd)
      · exact how hreq
      · exact hown hhd
    · exact hlt
    · simp [targetOf,hfd]
    · intro _ account hmem hid
      rcases mem_concat_iff.mp hmem with hold|rfl
      · exact absurd hid (accountById_none hdra account hold)
      · rfl
  | some account =>
    simp only [hfd,bind_eq_ok,ensure_eq_ok] at hgra
    obtain ⟨⟨⟩,-,hgra⟩ := hgra
    obtain ⟨hown,hlt,haft⟩ := grantRole_ok hgra
    obtain ⟨hmem,-⟩ := accountByEmail_eq_some hfd
    refine grant_facts hval rfl hrol hman ?_ hlt ?_ (fun _ h => by cases h)
      (fun _ h => by cases h) rfl (.inl rfl) hval.accounts rfl rfl ⟨account,hmem,rfl⟩ ?_ haft
    · rintro (hreq|hhd)
      · exact how hreq
      · exact hown hhd
    · simp [targetOf,hfd]
    · intro hreq other hot hid
      cases eq_of_key_eq Account.id hval.accounts hot hmem hid
      have hnot := hcur hreq hkd
      simp only [adminKindByEmail,hfd,Option.map_some] at hnot
      exact human_of_kind fun h => hnot (congrArg some h)

theorem changeRole_facts {r : ChangeRole}
    (hcur : Current s (.changeRole r)) (h : changeRole s r=.ok s') :
    Facts s (.changeRole r) s' := by
  simp only [changeRole,requireManage,requireOwnerIf,bind_eq_ok,ensure_eq_ok] at h
  obtain ⟨⟨⟩,-,⟨⟩,hkd,cur,hlk,⟨⟩,how,⟨⟩,hlt,⟨⟩,hmemb,hdn⟩ := h
  cases hdn
  obtain ⟨hrol,hman⟩ := lockMembershipAsCaller_ok hlk
  have hups : setRole s r.adminUserId r.role=upsertMember s r.adminUserId r.role := by
    rw [upsertMember,if_neg hmemb]
  refine grant_facts hval rfl hrol hman how hlt rfl (fun _ h => by cases h)
    (fun _ h => by cases h) rfl (.inl rfl) hval.accounts rfl rfl (hval.enrolled _ hmemb) ?_
    (by rw [hups])
  intro hreq account hmem hid
  have hnot := hcur hreq (hkd hreq)
  have hfd : accountById s account.id=some account := find_key_self Account.id hval.accounts hmem
  rw [hid] at hfd
  simp only [adminKindById,hfd,Option.map_some] at hnot
  exact human_of_kind fun h => hnot (congrArg some h)

theorem drop_facts {current : StaffRole} (hcal : callerOf a=some caller)
    (hcur : roleOf s caller.id=some current) (hman : current.manages=true)
    (how : roleOf s id=some .owner→current=.owner)
    (hlt : roleOf s id=some .owner→1<lockedOwnerCount s)
    (hcre : ∀ r, a≠.createInvite r) (hacc : ∀ r, a≠.acceptInvite r)
    (hmem : s'.members=(dropMember s id).members) (hacco : s'.accounts=s.accounts)
    (hnx : s'.nextInvite=s.nextInvite) (hinv : ∀ invite∈s'.invites, invite∈s.invites)
    (hrev : ∀ x, targetOf s a=some x→∀ account∈s'.accounts, account.id=x →
      account.kind=.human→∀ invite∈s'.invites, invite.email=account.email →
      invite.acceptedAt≠none) : Facts s a s' := by
  have hmvs : Moves s s' id none := by
    intro x
    rw [← dropMember_moves s id x]
    simp only [roleOf,memberOf,hmem]
  refine ⟨fun other hot => ?_,?_,?_,.inl hacco,?_,hrev⟩
  · cases hcal.symm.trans hot
    exact ⟨current,hcur,hman⟩
  · refine .managed caller current id none hcal hcur ?_ (fun hold _ => hlt hold)
      (absurd rfl) (fun h => by cases h) hmvs
    rintro (hrol|hhd)
    · cases hrol
    · exact how hhd
  · rw [hmem]
    exact nodup_map_deleteWhere _ hval.members
  · exact .shrunk hnx hinv hcre hacc

theorem removeStaff_facts {r : RemoveStaff}
    (h : removeStaff s r=.ok s') : Facts s (.removeStaff r) s' := by
  simp only [removeStaff,requireManage,requireOwnerIf,bind_eq_ok,ensure_eq_ok] at h
  obtain ⟨⟨⟩,-,⟨⟩,-,cur,hlk,⟨⟩,how,⟨⟩,hlt,hdn⟩ := h
  cases hdn
  obtain ⟨hrol,hman⟩ := lockMembershipAsCaller_ok hlk
  refine drop_facts hval rfl hrol hman how hlt (fun _ h => by cases h)
    (fun _ h => by cases h) rfl rfl rfl (fun invite hinv => revokePendingInvites_subset hinv) ?_
  intro x hx account hmem hid _ invite hinv hema
  cases hx
  rw [← hid] at hinv
  exact revokePendingInvites_closed (s := dropMember s account.id) hval.accounts hmem hinv hema

/-- The removal of an agent seat by a caller who still manages the store. -/
theorem removeAgentSeat_facts {r : RemoveStaff}
    (hcur : Current s (.removeAgentSeat r)) (h : removeAgentSeat s r=.ok s') :
    Facts s (.removeAgentSeat r) s' := by
  simp only [removeAgentSeat,requireManage,bind_eq_ok,ensure_eq_ok] at h
  obtain ⟨⟨⟩,hacc,⟨⟩,⟨hmemb,hkd⟩,hdn⟩ := h
  cases hdn
  obtain ⟨current,hrol,hman⟩ := hcur hacc hmemb hkd
  obtain ⟨account,hfd,hage⟩ := Option.map_eq_some_iff.mp hkd
  obtain ⟨hmem,hid⟩ := accountById_eq_some hfd
  have hnev : roleOf s r.adminUserId≠some .owner := by
    rw [← hid]
    exact (hval.agents account hmem hage).2
  refine drop_facts hval rfl hrol hman (fun h => absurd h hnev) (fun h => absurd h hnev)
    (fun _ h => by cases h) (fun _ h => by cases h) rfl rfl rfl (fun invite hinv => hinv) ?_
  intro x hx other hot heq hhum
  cases hx
  cases eq_of_key_eq Account.id hval.accounts hot hmem (heq.trans hid.symm)
  cases hage.symm.trans hhum

/-- A request that touches neither members nor accounts. -/
theorem untouched_facts (haut : ∀ caller, callerOf a=some caller → Manages s caller.id)
    (hrol : ∀ x, roleOf s' x=roleOf s x)
    (hmem : s'.members.map Member.adminUserId=s.members.map Member.adminUserId)
    (hacc : s'.accounts=s.accounts) (hinv : InviteMove s a s')
    (htgt : targetOf s a=none) : Facts s a s' := by
  refine ⟨haut,.kept hrol,?_,.inl hacc,hinv,?_⟩
  · rw [hmem]
    exact hval.members
  · intro id hid
    cases htgt.symm.trans hid

theorem createInvite_facts {r : CreateInvite}
    (h : createInvite s r=.ok s') : Facts s (.createInvite r) s' := by
  simp only [createInvite,requireManage,requireOwnerIf,bind_eq_ok,ensure_eq_ok] at h
  obtain ⟨⟨⟩,-,⟨⟩,-,⟨⟩,-,cur,hlk,⟨⟩,how,⟨⟩,-,hdn⟩ := h
  cases hdn
  obtain ⟨hrol,hman⟩ := lockMembershipAsCaller_ok hlk
  refine untouched_facts hval (fun other hot => ?_) (fun _ => rfl) rfl rfl ?_ rfl
  · cases hot
    exact ⟨cur.role,hrol,hman⟩
  · exact InviteMove.added r rfl (fun h => by rw [hrol,how h]) rfl rfl

theorem changePermissions_facts {r : ChangePermissions}
    (h : changePermissions s r=.ok s') : Facts s (.changePermissions r) s' := by
  simp only [changePermissions,requireManage,bind_eq_ok,ensure_eq_ok] at h
  obtain ⟨⟨⟩,-,h⟩ := h
  cases hunk : r.permissions.find? fun entry => !uiPermissionKeys.contains entry.1 with
  | some =>
    simp only [hunk] at h
    cases h
  | none =>
    simp only [hunk,bind_eq_ok,ensure_eq_ok] at h
    obtain ⟨cur,hlk,⟨⟩,-,hdn⟩ := h
    cases hdn
    obtain ⟨hrol,hman⟩ := lockMembershipAsCaller_ok hlk
    refine untouched_facts hval (fun other hot => ?_) (fun x => ?_) ?_ rfl ?_ rfl
    · cases hot
      exact ⟨cur.role,hrol,hman⟩
    · have hrew := rewriteMember_roleOf s r.adminUserId (fun member => {member with
          permissions := mergeStaffPermissions member.permissions r.permissions}) (fun _ => rfl) x
      refine Eq.trans hrew ?_
      split
      · next hx => rw [hx]; rfl
      · rfl
    · exact map_updateWhere Member.adminUserId s.members (fun _ _ => rfl)
    · exact .shrunk rfl (fun _ h => h) (fun _ h => by cases h) (fun _ h => by cases h)

theorem discardInvite_facts (id : ℕ) : Facts s (.discardInvite id) (discardInvite s id) :=
  untouched_facts hval (fun _ h => by cases h) (fun _ => rfl) rfl rfl
    (.shrunk rfl (fun _ h => (mem_deleteWhere.mp h).1) (fun _ h => by cases h)
      (fun _ h => by cases h)) rfl

theorem createAccount_facts
    (hid : accountById s account.id=none) (hema : accountByEmail s account.email=none)
    (hage : account.kind=.agent→account.hasPassword=false) :
    Facts s (.createAccount account) (addAccount s account) :=
  ⟨(fun _ h => by cases h),.kept fun _ => rfl,hval.members,.inr ⟨account,rfl,hid,hema,hage⟩,
    InviteMove.shrunk rfl (fun _ h => h) (fun _ h => by cases h) (fun _ h => by cases h),
    fun _ h => by cases h⟩

/-- A new agent seat, created by a caller who still manages the store. -/
theorem createAgentSeat_facts {r : CreateAgent}
    (hdra : accountById s r.drawn=none) (hcur : Current s (.createAgentSeat r))
    (h : createAgentSeat s r=.ok s') : Facts s (.createAgentSeat r) s' := by
  simp only [createAgentSeat,requireManage,bind_eq_ok,ensure_eq_ok] at h
  obtain ⟨⟨⟩,hacc,⟨⟩,hnev,⟨⟩,hema,hdn⟩ := h
  cases hdn
  obtain ⟨current,hrol,hman⟩ := hcur hacc hnev hema
  have hfre := hval.roleOf_new hdra
  refine ⟨fun other hot => ?_,?_,?_,.inr ⟨_,rfl,hdra,hema,fun _ => rfl⟩,
    InviteMove.shrunk rfl (fun _ h => h) (fun _ h => by cases h) (fun _ h => by cases h),
    fun _ h => by cases h⟩
  · cases hot
    exact ⟨current,hrol,hman⟩
  · refine .managed r.caller current r.drawn (some r.role) rfl hrol ?_ ?_ ?_ ?_ ?_
    · rintro (hreq|hhd)
      · exact absurd (Option.some.inj hreq) hnev
      · cases hfre.symm.trans hhd
    · intro hhd
      cases hfre.symm.trans hhd
    · exact fun _ => ⟨_,mem_concat_self,rfl⟩
    · exact fun hreq => absurd (Option.some.inj hreq) hnev
    · intro x
      rw [addMember_moves (s := addAccount s _) hfre r.role x]
      rfl
  · exact nodup_map_append _ hval.members (roleOf_none_iff.mp hfre)

end

/-- A claimed invite was open, and it alone is marked. -/
theorem claimInvite_ok {claimed : Store} (h : claimInvite s r=.ok claimed) :
    (∃ invite∈s.invites, invite.id=r.invite.id∧invite.acceptedAt=none)∧claimed = {s with
        invites := updateWhere (fun invite => decide (invite.id=r.invite.id))
          (fun invite => {invite with acceptedAt := some r.claimedAt}) s.invites} := by
  simp only [claimInvite,bind_eq_ok,ensure_eq_ok] at h
  obtain ⟨⟨⟩,hany,hdn⟩ := h
  cases hdn
  obtain ⟨invite,hmem,hop⟩ := any_eq_true.mp hany
  simp only [Bool.and_eq_true,decide_eq_true_eq] at hop
  exact ⟨⟨invite,hmem,hop.1.1,hop.1.2⟩,rfl⟩

theorem proveIdentity_human (hval : Valid s)
    (hexi : r.existing=some account) (hmem : account∈s.accounts)
    (hema : account.email=r.invite.email) (hme : ∀ me, r.me=some me→me∈s.accounts)
    (h : proveIdentity r=.ok ()) : account.kind=.human := by
  refine human_of_kind fun hage => ?_
  have hno := (hval.agents account hmem hage).1
  simp only [proveIdentity,hexi] at h
  by_cases hses : r.ownSession=true
  · cases hsig : r.me with
    | none => simp [AcceptInvite.ownSession,hsig] at hses
    | some me =>
      simp only [AcceptInvite.ownSession,hsig,Bool.and_eq_true,decide_eq_true_eq] at hses
      have heq : me=account :=
        eq_of_key_eq Account.email hval.emails (hme me hsig) hmem (hses.2.trans hema.symm)
      rw [heq,hage] at hses
      cases hses.1
  · rw [if_neg hses] at h
    cases hck : r.currentPassword with
    | none => simp [checkPassword,hck] at h
    | some check =>
      cases check with
      | limited | wrong => simp [checkPassword,hck] at h
      | matching => simp [checkPassword,hck,hno] at h

theorem joiningAccount_ok {joined : Store} (h : joiningAccount s r=.ok (joined,id)) :
    (∃ account, r.existing=some account∧id=account.id∧joined=s) ∨
      (r.existing=none∧id=r.drawn∧accountByEmail s r.invite.email=none ∧
        joined=addAccount s ⟨r.drawn,r.invite.email,.human,true⟩) := by
  unfold joiningAccount at h
  cases hexi : r.existing with
  | some account =>
    simp only [hexi,bind_eq_ok,ensure_eq_ok] at h
    obtain ⟨⟨⟩,-,⟨⟩,-,hdn⟩ := h
    cases hdn
    exact .inl ⟨account,rfl,rfl,rfl⟩
  | none =>
    simp only [hexi,bind_eq_ok,ensure_eq_ok] at h
    obtain ⟨⟨⟩,hnew,hdn⟩ := h
    cases hdn
    exact .inr ⟨rfl,rfl,hnew,rfl⟩

/-- An invited person joins the store. -/
theorem acceptInvite_facts (hval : Valid s) (hdra : accountById s r.drawn=none)
    (hexi : ∀ account, r.existing=some account → account∈s.accounts∧account.email=r.invite.email)
    (hme : ∀ me, r.me=some me→me∈s.accounts) (h : acceptInvite s r=.ok s') :
    Facts s (.acceptInvite r) s' := by
  simp only [acceptInvite,bind_eq_ok,ensure_eq_ok] at h
  obtain ⟨⟨⟩,-,⟨⟩,-,⟨⟩,hpro,claimed,hcl,⟨joined,id⟩,hjoi,⟨⟩,hno,hdn⟩ := h
  cases hdn
  obtain ⟨hop,rfl⟩ := claimInvite_ok hcl
  have hmvs := addMember_moves hno r.invite.role
  have hmemb : ((addMember joined id r.invite.role).members.map Member.adminUserId).Nodup ∧
      (∀ x, roleOf joined x=roleOf s x)∧AccountMove s joined∧joined.nextInvite=s.nextInvite ∧
      joined.invites=updateWhere (fun invite => decide (invite.id=r.invite.id))
        (fun invite => {invite with acceptedAt := some r.claimedAt}) s.invites ∧
      (∃ account∈joined.accounts, account.id=id) ∧
      ∀ account∈joined.accounts, account.id=id→account.kind=.human := by
    rcases joiningAccount_ok hjoi with ⟨account,hso,rfl,rfl⟩|⟨-,rfl,hnew,rfl⟩
    · obtain ⟨hmem,hema⟩ := hexi account hso
      refine ⟨nodup_map_append _ hval.members (roleOf_none_iff.mp hno),fun _ => rfl,.inl rfl,
        rfl,rfl,⟨account,hmem,rfl⟩,fun other hot hid => ?_⟩
      cases eq_of_key_eq Account.id hval.accounts hot hmem hid
      exact proveIdentity_human hval hso hmem hema hme hpro
    · refine ⟨nodup_map_append _ hval.members (roleOf_none_iff.mp hno),fun _ => rfl,
        .inr ⟨_,rfl,hdra,hnew,fun h => by cases h⟩,rfl,rfl,
        ⟨_,mem_concat_self,rfl⟩,fun other hot hid => ?_⟩
      rcases mem_concat_iff.mp hot with hold|rfl
      · exact absurd hid (accountById_none hdra other hold)
      · rfl
  obtain ⟨hdis,hrol,hacc,hnx,hinv,hkn,hhum⟩ := hmemb
  refine ⟨(fun _ h => by cases h),?_,hdis,hacc,
    InviteMove.accepted r rfl hop hnx hinv,fun _ h => by cases h⟩
  refine RoleMove.joined r id rfl (by rw [← hrol]; exact hno) hkn hhum fun x => ?_
  rw [hmvs x,hrol x]

theorem acceptInvite_email (hval : Valid s) (hexi : ∀ account, r.existing=some account →
      account∈s.accounts∧account.email=r.invite.email)
    (hme : ∀ me, r.me=some me→me∈s.accounts) (h : acceptInvite s r=.ok s')
    (hmem : account∈s.accounts) (hema : account.email=r.invite.email) : account.kind=.human := by
  simp only [acceptInvite,bind_eq_ok,ensure_eq_ok] at h
  obtain ⟨⟨⟩,-,⟨⟩,-,⟨⟩,hpro,claimed,hcl,⟨joined,id⟩,hjoi,-⟩ := h
  obtain ⟨-,rfl⟩ := claimInvite_ok hcl
  rcases joiningAccount_ok hjoi with ⟨other,hso,-,-⟩|⟨-,-,hnew,-⟩
  · obtain ⟨hot,heq⟩ := hexi other hso
    cases eq_of_key_eq Account.email hval.emails hmem hot (hema.trans heq.symm)
    exact proveIdentity_human hval hso hmem hema hme hpro
  · exact absurd hema (accountByEmail_none hnew account hmem)

theorem AccountMove.subset (hmov : AccountMove s s')
    (hmem : account∈s.accounts) : account∈s'.accounts := by
  rcases hmov with heq|⟨added,had,-⟩
  · rwa [heq]
  · rw [had]
    exact mem_append_left _ hmem

theorem RoleMove.agent (hmov : RoleMove s a s')
    (hmem : account∈s'.accounts) (hage : account.kind=.agent)
    (hbef : roleOf s account.id≠some .owner) : roleOf s' account.id≠some .owner := by
  have hnot : account.kind≠.human := by
    rw [hage]
    exact fun h => by cases h
  cases hmov with
  | kept hroles => rwa [hroles]
  | managed _ _ _ _ _ _ _ _ _ hhum hmvs =>
    rw [hmvs]
    split
    · next hid => exact fun hrol => hnot (hhum hrol account hmem hid)
    · exact hbef
  | joined _ _ _ _ _ hhum hmvs =>
    rw [hmvs]
    split
    · next hid => exact fun _ => hnot (hhum account hmem hid)
    · exact hbef

/-- Whoever has a role after a transaction has an account. -/
theorem RoleMove.enrolled (hmov : RoleMove s a s') (hacc : AccountMove s s')
    (hbef : ∀ id, roleOf s id≠none→∃ account∈s.accounts, account.id=id) (x : String)
    (hrol : roleOf s' x≠none) : ∃ account∈s'.accounts, account.id=x := by
  have hold : roleOf s x≠none→∃ account∈s'.accounts, account.id=x := by
    intro hhad
    obtain ⟨account,hmem,hid⟩ := hbef x hhad
    exact ⟨account,hacc.subset hmem,hid⟩
  cases hmov with
  | kept hroles =>
    rw [hroles] at hrol
    exact hold hrol
  | managed _ _ _ _ _ _ _ _ hkn _ hmvs =>
    rw [hmvs] at hrol
    split at hrol
    · next hid => rw [hid]; exact hkn hrol
    · exact hold hrol
  | joined _ _ _ _ hkn _ hmvs =>
    rw [hmvs] at hrol
    split at hrol
    · next hid => rw [hid]; exact hkn
    · exact hold hrol

theorem InviteMove.numbered (hmov : InviteMove s a s')
    (hbef : ∀ invite∈s.invites, invite.id<s.nextInvite) :
    s.nextInvite ≤ s'.nextInvite∧∀ invite∈s'.invites, invite.id<s'.nextInvite := by
  cases hmov with
  | shrunk hnx hsub =>
    rw [hnx]
    exact ⟨le_refl _,fun invite hmem => hbef invite (hsub invite hmem)⟩
  | added _ _ _ hnx hinv =>
    rw [hnx,hinv]
    refine ⟨Nat.le_succ _,fun invite hmem => ?_⟩
    rcases mem_concat_iff.mp hmem with hold|rfl
    · have hlt := hbef invite hold
      omega
    · exact Nat.lt_succ_self _
  | accepted _ _ _ hnx hinv =>
    rw [hnx,hinv]
    refine ⟨le_refl _,fun invite hmem => ?_⟩
    rcases mem_updateWhere.mp hmem with ⟨old,hold,-,rfl⟩|⟨hold,-⟩
    · exact hbef old hold
    · exact hbef invite hold

/-- A successful transaction leads to a valid state. -/
theorem Facts.valid (hfac : Facts s a s') (hval : Valid s) : Valid s' := by
  refine ⟨hfac.members,?_,?_,hfac.roles.enrolled hfac.accounts hval.enrolled,?_,
    (hfac.invites.numbered hval.invites).2⟩
  · rcases hfac.accounts with heq|⟨added,had,hid,-⟩
    · rw [heq]
      exact hval.accounts
    · rw [had]
      exact nodup_map_append _ hval.accounts (accountById_none hid)
  · rcases hfac.accounts with heq|⟨added,had,-,hema,-⟩
    · rw [heq]
      exact hval.emails
    · rw [had]
      exact nodup_map_append _ hval.emails (accountByEmail_none hema)
  · intro account hmem hage
    have hbef : account.hasPassword=false∧roleOf s account.id≠some .owner := by
      rcases hfac.accounts with heq|⟨added,had,hid,-,had'⟩
      · rw [heq] at hmem
        exact hval.agents account hmem hage
      rw [had] at hmem
      rcases mem_concat_iff.mp hmem with hold|rfl
      · exact hval.agents account hold hage
      · refine ⟨had' hage,?_⟩
        rw [hval.roleOf_new hid]
        exact fun h => by cases h
    exact ⟨hbef.1,hfac.roles.agent hmem hage hbef.2⟩

/-- Besides one owner there is another one when owners are counted twice. -/
theorem other_owner (hmemb : (s.members.map Member.adminUserId).Nodup)
    (hct : 1<lockedOwnerCount s) (id : String) : ∃ x, x≠id∧roleOf s x=some .owner := by
  by_contra hno
  have hall : ∀ member∈s.members, member.role=.owner→member.adminUserId=id := by
    intro member hmem how
    by_contra hne
    exact hno ⟨member.adminUserId,hne,by rw [roleOf_of_mem hmemb hmem,how]⟩
  have heq : lockedOwnerCount s=s.members.countP fun member =>
      decide (member.adminUserId=id)&&decide (member.role=.owner) := by
    apply countP_congr
    intro member hmem
    simpa using hall member hmem
  have hle := countP_key_le_one Member.adminUserId id (fun member => decide (member.role=.owner))
    hmemb
  omega

theorem RoleMove.hasOwner (hmov : RoleMove s a s') (hval : Valid s)
    (hhas : HasOwner s) : HasOwner s' := by
  obtain ⟨x,hx⟩ := hhas
  cases hmov with
  | kept hroles => exact ⟨x,by rw [hroles,hx]⟩
  | managed _ _ id role _ _ _ hlt _ _ hmvs =>
    by_cases hid : x=id
    · by_cases hrol : role=some .owner
      · exact ⟨id,by rw [hmvs,if_pos rfl,hrol]⟩
      · obtain ⟨y,hne,hy⟩ := other_owner hval.members (hlt (hid ▸ hx) hrol) id
        exact ⟨y,by rw [hmvs,if_neg hne,hy]⟩
    · exact ⟨x,by rw [hmvs,if_neg hid,hx]⟩
  | joined _ id _ hno _ _ hmvs =>
    have hne : x≠id := by
      rintro rfl
      cases hno.symm.trans hx
    exact ⟨x,by rw [hmvs,if_neg hne,hx]⟩

theorem RoleMove.owner (hmov : RoleMove s a s')
    (hbef : roleOf s x≠some .owner) (haft : roleOf s' x=some .owner) :
    (∃ caller, callerOf a=some caller∧roleOf s caller.id=some .owner) ∨
      ∃ r, a=.acceptInvite r∧r.invite.role=.owner := by
  cases hmov with
  | kept hrol => exact absurd (by rw [← hrol,haft]) hbef
  | managed caller _ _ _ hcal hcur how _ _ _ hmvs =>
    rw [hmvs] at haft
    split at haft
    · exact .inl ⟨caller,hcal,by rw [hcur,how (.inl haft)]⟩
    · exact absurd haft hbef
  | joined r _ hact _ _ _ hmvs =>
    rw [hmvs] at haft
    split at haft
    · exact .inr ⟨r,hact,Option.some.inj haft⟩
    · exact absurd haft hbef

theorem RoleMove.touched (hmov : RoleMove s a s')
    (hbef : roleOf s x=some .owner) (haft : roleOf s' x≠some .owner) :
    ∃ caller, callerOf a=some caller∧roleOf s caller.id=some .owner := by
  cases hmov with
  | kept hrol => exact absurd (by rw [hrol,hbef]) haft
  | managed caller _ _ _ hcal hcur how _ _ _ hmvs =>
    rw [hmvs] at haft
    split at haft
    · next hid => exact ⟨caller,hcal,by rw [hcur,how (.inr (hid ▸ hbef))]⟩
    · exact absurd hbef haft
  | joined _ _ _ hno _ _ hmvs =>
    rw [hmvs] at haft
    split at haft
    · next hid => cases hno.symm.trans (hid ▸ hbef)
    · exact absurd hbef haft

theorem RoleMove.members (hmov : RoleMove s (.acceptInvite r) s')
    (hbef : roleOf s x≠none) : roleOf s' x=roleOf s x := by
  cases hmov with
  | kept hrol => exact hrol x
  | managed _ _ _ _ hcal => cases hcal
  | joined _ _ _ hno _ _ hmvs =>
    rw [hmvs,if_neg]
    rintro rfl
    exact hbef hno

end SellRight.StaffRequests
