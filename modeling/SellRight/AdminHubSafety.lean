import SellRight.AdminHub

/-!
# No saved session is orphaned

A redeemed token is sealed in one slot of the hub session that enrolled it, is
on its way to its target for revocation, or was sent there. Three steps break
this when another request comes first: saving after the hub session is gone,
deleting a hub session that has slots again, and dropping the slot of a
rejected call that holds a newer token.
-/

namespace SellRight.AdminHubSafety

open AdminHub RowTable RunHistory List

variable {targets : List HubTarget} {s s' : Store} {conn : ℕ}

def slotToken (slot : HubAccountSlot) : ℕ := slot.tokenSealed.token

/-- Token a callback is about to save. -/
def saves : Work → Option ℕ
  | .saving _ _ token _ => some token
  | _ => none

section
variable (targets : List HubTarget)

/-- Tokens a running request still has to save or to revoke. -/
def holds : Work → List Revocation
  | .saving _ target token _ => [⟨target,token⟩]
  | .ending _ rows => rows.filterMap (revokeSlotToken targets)
  | .revoking revocations => revocations
  | _ => []

/-- The slot's token was redeemed from its configured target by the slot's hub
session, and its seal opens. -/
def Enrolled (redeemed : List Redemption) (slot : HubAccountSlot) : Prop :=
  slot.tokenSealed.aad=slot.aad∧∃ target, findTarget targets slot.targetId=some target ∧
    ⟨slot.hubSessionId,target,slotToken slot⟩∈redeemed

/-- What a running request knows. -/
def Knows (s : Store) : Work → Prop
  | .redeeming _ target => findTarget targets target.id=some target
  | .saving hubSessionId target token _ => findTarget targets target.id=some target ∧
      ⟨hubSessionId,target,token⟩∈s.redeemed∧∀ slot∈s.slots, slotToken slot≠token
  | .rejected _ token => token∈s.rejected
  | _ => True

end

/-- Rows, requests and records of the hub agree. -/
structure Coherent (targets : List HubTarget) (s : Store) : Prop where
  slotIds : (s.slots.map HubAccountSlot.id).Nodup
  slotsBelow : ∀ slot∈s.slots, slot.id<s.nextId
  slotTokens : (s.slots.map slotToken).Nodup
  enrolled : ∀ slot∈s.slots, Enrolled targets s.redeemed slot
  sessions : ∀ slot∈s.slots, s.hasSession slot.hubSessionId
  redeemedTokens : (s.redeemed.map Redemption.token).Nodup
  redeemedBelow : ∀ r∈s.redeemed, r.token<s.nextId
  knows : ∀ c work, s.requests c=some work → Knows targets s work
  savesApart : ∀ c c' work work' token, s.requests c=some work→s.requests c'=some work' →
    c≠c'→saves work=some token→saves work'≠some token
  calls : ∀ c∈s.calls, ⟨c.hubSessionId,c.target,c.token⟩∈s.redeemed
  statesBelow : ∀ e∈s.enrolments, e.stateHash<s.nextId
  states : (s.enrolments.map HubEnrolment.stateHash).Nodup
  unspent : ∀ e∈s.enrolments, e.stateHash∉s.spent
  spentBelow : ∀ state∈s.spent, state<s.nextId
  spentOnce : s.spent.Nodup

/-- Nothing is stored at the start. -/
theorem Coherent.empty (targets : List HubTarget) : Coherent targets Store.empty where
  slotIds := nodup_nil
  slotsBelow := nofun
  slotTokens := nodup_nil
  enrolled := nofun
  sessions := nofun
  redeemedTokens := nodup_nil
  redeemedBelow := nofun
  knows := nofun
  savesApart := nofun
  calls := nofun
  statesBelow := nofun
  states := nodup_nil
  unspent := nofun
  spentBelow := nofun
  spentOnce := nodup_nil

variable {target : HubTarget} {slot : HubAccountSlot} {work : Work} {hubSessionId token : ℕ}

/-- A configured target is found by its own identifier. -/
theorem findTarget_self {id : String} (h : findTarget targets id=some target) :
    target.id=id∧findTarget targets target.id=some target := by
  have hid : target.id=id := of_decide_eq_true
    (List.find?_some (p := fun t : HubTarget => decide (t.id=id)) h)
  exact ⟨hid,hid ▸ h⟩

theorem Enrolled.revocation {redeemed : List Redemption} (h : Enrolled targets redeemed slot) :
    ∃ target, revokeSlotToken targets slot=some ⟨target,slotToken slot⟩ ∧
      ⟨slot.hubSessionId,target,slotToken slot⟩∈redeemed := by
  obtain ⟨haad,target,hfd,hred⟩ := h
  refine ⟨target,?_,hred⟩
  unfold revokeSlotToken
  rw [hfd,show openFor slot.tokenSealed slot.aad=some (slotToken slot) from if_pos haad]

theorem Coherent.redemption_eq (h : Coherent targets s) {r r' : Redemption}
    (hr : r∈s.redeemed) (hr' : r'∈s.redeemed) (htok : r.token=r'.token) : r=r' :=
  eq_of_key_eq Redemption.token h.redeemedTokens hr hr' htok

/-- Putting a token over that of a slot keeps the slots. -/
theorem reenrol_ids (p : HubAccountSlot → Bool) (token : ℕ) (expiresAt : ℤ) :
    (updateWhere p (reenrol token expiresAt) s.slots).map HubAccountSlot.id =
      s.slots.map HubAccountSlot.id := map_updateWhere HubAccountSlot.id s.slots fun _ _ => rfl

/-- Requests other than the moved one stay where they are. -/
theorem move_requests {work : Option Work} {c : ℕ} {work' : Work}
    (h : (s.move conn work).requests c=some work') :
    (c=conn∧work=some work')∨(c≠conn∧s.requests c=some work') := by
  by_cases hc : c=conn
  · subst hc
    exact .inl ⟨rfl,by simpa [Store.move] using h⟩
  · exact .inr ⟨hc,by simpa [Store.move,Function.update_of_ne hc] using h⟩

section
variable (h : Coherent targets s)
include h

theorem Coherent.move {work : Option Work} (hkno : ∀ w, work=some w → Knows targets s w)
    (hsav : ∀ w token, work=some w→saves w=some token→∀ c w', c≠conn →
      s.requests c=some w'→saves w'≠some token) : Coherent targets (s.move conn work) := by
  refine {h with
    knows := fun c w hw => ?_
    savesApart := fun c c' w w' token hw hw' hne htok => ?_}
  · obtain ⟨-,hwk⟩|⟨-,hold⟩ := move_requests hw
    · exact hkno w hwk
    · exact h.knows c w hold
  obtain ⟨rfl,hwk⟩|⟨hc,hold⟩ := move_requests hw
  · obtain ⟨rfl,-⟩|⟨hc',hold'⟩ := move_requests hw'
    · exact absurd rfl hne
    · exact hsav w token hwk htok c' w' hc' hold'
  · obtain ⟨rfl,hwk'⟩|⟨-,hold'⟩ := move_requests hw'
    · exact fun heq => hsav w' token hwk' heq c w hc hold htok
    · exact h.savesApart c c' w w' token hold hold' hne htok

/-- A request that ends, or goes on without a token to save, keeps agreement. -/
theorem Coherent.moveIdle {work : Option Work} (hkno : work.elim True (Knows targets s))
    (hsav : work.bind saves=none) : Coherent targets (s.move conn work) := by
  refine h.move (fun w hwk => ?_) fun w token hwk htok => ?_
  · rw [hwk] at hkno
    exact hkno
  · rw [hwk,Option.bind_some,htok] at hsav
    cases hsav

/-- Fewer slots and enrolments keep agreement. -/
theorem Coherent.shrink {sessions : List HubSession}
    {enrolments : List HubEnrolment} {slots : List HubAccountSlot}
    (henr : enrolments.Sublist s.enrolments) (hslo : slots.Sublist s.slots)
    (hses : ∀ slot∈slots, slot.hubSessionId∈sessions.map HubSession.id) :
    Coherent targets {s with sessions := sessions,enrolments := enrolments,slots := slots} := by
  refine ⟨h.slotIds.sublist (hslo.map _),fun slot hsl => h.slotsBelow slot (hslo.subset hsl),
    h.slotTokens.sublist (hslo.map _),fun slot hsl => h.enrolled slot (hslo.subset hsl),
    hses,h.redeemedTokens,h.redeemedBelow,fun c w hw => ?_,h.savesApart,h.calls,
    fun e he => h.statesBelow e (henr.subset he),h.states.sublist (henr.map _),
    fun e he => h.unspent e (henr.subset he),h.spentBelow,h.spentOnce⟩
  have hkno := h.knows c w hw
  cases w with
  | saving => exact ⟨hkno.1,hkno.2.1,fun slot hsl => hkno.2.2 slot (hslo.subset hsl)⟩
  | _ => exact hkno

/-- Deleting hub sessions with the rows that refer to them keeps agreement. -/
theorem Coherent.deleteSessions (p : HubSession → Bool) :
    Coherent targets (s.deleteSessions p) := by
  refine h.shrink filter_sublist filter_sublist fun slot hsl => ?_
  obtain ⟨hmem,hkp⟩ := mem_deleteWhere.mp hsl
  obtain ⟨x,hx,hid⟩ := mem_map.mp (h.sessions slot hmem)
  refine mem_map.mpr ⟨x,mem_deleteWhere.mpr ⟨hx,?_⟩,hid⟩
  by_contra hp
  have hgn : slot.hubSessionId∈(s.sessions.filter p).map HubSession.id :=
    mem_map.mpr ⟨x,mem_filter.mpr ⟨hx,by simpa using hp⟩,hid⟩
  exact absurd hgn (of_decide_eq_false hkp)

/-- Starting a hub session keeps agreement. -/
theorem Coherent.createHubSession (now : ℤ) :
    Coherent targets (createHubSession s now).2 := by
  have hcle := h.deleteSessions fun x => decide (x.expiresAt<now)
  refine {hcle with
    slotsBelow := fun slot hsl => Nat.lt_succ_of_lt (hcle.slotsBelow slot hsl)
    sessions := fun slot hsl => ?_
    redeemedBelow := fun r hr => Nat.lt_succ_of_lt (hcle.redeemedBelow r hr)
    knows := fun c w hw => ?_
    statesBelow := fun e he => Nat.lt_succ_of_lt (hcle.statesBelow e he)
    spentBelow := fun state hst => Nat.lt_succ_of_lt (hcle.spentBelow state hst)}
  · exact mem_map.mpr (by
      obtain ⟨x,hx,hid⟩ := mem_map.mp (hcle.sessions slot hsl)
      exact ⟨x,mem_append_left _ hx,hid⟩)
  · have hkno := hcle.knows c w hw
    cases w <;> exact hkno

theorem Coherent.startEnrolment (hubSessionId : ℕ) (targetId : String)
    (now : ℤ) : Coherent targets (startEnrolment targets s conn hubSessionId targetId now).2 := by
  have hmv : Coherent targets (s.move conn none) :=
    h.moveIdle trivial rfl
  unfold AdminHub.startEnrolment
  cases findTarget targets targetId with
  | none => exact hmv
  | some =>
    dsimp only
    split
    · have hkp : ∀ e∈deleteWhere (fun e => decide (e.expiresAt<now)) s.enrolments,
          e∈s.enrolments := fun e he => (mem_deleteWhere.mp he).1
      refine {hmv with
        slotsBelow := fun slot hsl => Nat.lt_succ_of_lt (hmv.slotsBelow slot hsl)
        redeemedBelow := fun r hr => Nat.lt_succ_of_lt (hmv.redeemedBelow r hr)
        knows := fun c w hw => ?_
        statesBelow := fun e he => ?_
        states := ?_
        unspent := fun e he => ?_
        spentBelow := fun state hst => Nat.lt_succ_of_lt (hmv.spentBelow state hst)}
      · have hkno := hmv.knows c w hw
        cases w <;> exact hkno
      · rcases mem_concat_iff.mp he with hold|rfl
        · exact Nat.lt_succ_of_lt (hmv.statesBelow e (hkp e hold))
        · exact Nat.lt_succ_self _
      · refine nodup_map_append HubEnrolment.stateHash
          (nodup_map_deleteWhere HubEnrolment.stateHash hmv.states) fun e he heq => ?_
        have hbel := hmv.statesBelow e (hkp e he)
        dsimp only at heq
        omega
      · rcases mem_concat_iff.mp he with hold|rfl
        · exact hmv.unspent e (hkp e hold)
        · intro hsp
          exact absurd (hmv.spentBelow _ hsp) (lt_irrefl _)
    · exact hmv

/-- Spending an enrolment keeps agreement. -/
theorem Coherent.completeEnrolment (hubSessionId : ℕ)
    (targetId : String) (valid : Bool) (state : ℕ) (iss : Option String) (now : ℤ) :
    Coherent targets
      (completeEnrolment targets s conn hubSessionId targetId valid state iss now).2 := by
  have hmv : Coherent targets (s.move conn none) :=
    h.moveIdle trivial rfl
  unfold AdminHub.completeEnrolment
  cases htgt : findTarget targets targetId with
  | none => exact hmv
  | some =>
    dsimp only
    split
    · exact hmv
    split
    · exact hmv
    · next hfd =>
      rw [Bool.not_eq_false,any_eq_true] at hfd
      obtain ⟨e,he,hmt⟩ := hfd
      have hst : e.stateHash=state := (of_decide_eq_true hmt).1
      have hsp : Coherent targets {s with
          enrolments := deleteWhere (matchesEnrolment hubSessionId targetId state now) s.enrolments
          spent := s.spent++[state]} := by
        refine {h with
          knows := fun c w hw => ?_
          statesBelow := fun e' he' => h.statesBelow e' (mem_deleteWhere.mp he').1
          states := nodup_map_deleteWhere HubEnrolment.stateHash h.states
          unspent := fun e' he' hmem => ?_
          spentBelow := fun state' hmem => ?_
          spentOnce := ?_}
        · have hkno := h.knows c w hw
          cases w <;> exact hkno
        · obtain ⟨hold,hkp⟩ := mem_deleteWhere.mp he'
          rcases mem_append.mp hmem with hbef|hnew
          · exact h.unspent e' hold hbef
          have heq := mem_singleton.mp hnew
          have hee : e'=e := eq_of_key_eq HubEnrolment.stateHash h.states hold he
            (heq.trans hst.symm)
          rw [hee,hmt] at hkp
          cases hkp
        · rcases mem_append.mp hmem with hbef|hnew
          · exact h.spentBelow state' hbef
          · rw [mem_singleton.mp hnew,← hst]
            exact h.statesBelow e he
        · exact nodup_concat_iff.mpr ⟨hst ▸ h.unspent e he,h.spentOnce⟩
      split
      · exact hsp.moveIdle trivial rfl
      · exact hsp.moveIdle (findTarget_self htgt).2 rfl

/-- Taking the answer to a code keeps agreement. -/
theorem Coherent.takeReply
    (hwk : s.requests conn=some (.redeeming hubSessionId target)) (reply : Option TokenReply) :
    Coherent targets (takeReply s conn hubSessionId target reply).2 := by
  cases reply with
  | none => exact h.moveIdle trivial rfl
  | some =>
    have htgt : findTarget targets target.id=some target := h.knows conn _ hwk
    have hfre : ∀ r∈s.redeemed, r.token≠s.nextId := fun r hr heq => by
      have hbel := h.redeemedBelow r hr
      omega
    have hmon : ∀ r∈s.redeemed, r∈s.redeemed++[⟨hubSessionId,target,s.nextId⟩] :=
      fun r hr => mem_append_left _ hr
    have hred : Coherent targets {s with
        redeemed := s.redeemed++[⟨hubSessionId,target,s.nextId⟩]
        nextId := s.nextId+1} := by
      refine {h with
        slotsBelow := fun slot hsl => Nat.lt_succ_of_lt (h.slotsBelow slot hsl)
        enrolled := fun slot hsl => ?_
        redeemedTokens := nodup_map_append Redemption.token h.redeemedTokens hfre
        redeemedBelow := fun r hr => ?_
        knows := fun c w hw => ?_
        calls := fun c hc => hmon _ (h.calls c hc)
        statesBelow := fun e he => Nat.lt_succ_of_lt (h.statesBelow e he)
        spentBelow := fun state hst => Nat.lt_succ_of_lt (h.spentBelow state hst)}
      · obtain ⟨haad,target',hfd,hmem⟩ := h.enrolled slot hsl
        exact ⟨haad,target',hfd,hmon _ hmem⟩
      · rcases mem_concat_iff.mp hr with hold|rfl
        · exact Nat.lt_succ_of_lt (h.redeemedBelow r hold)
        · exact Nat.lt_succ_self _
      · have hkno := h.knows c w hw
        cases w with
        | saving => exact ⟨hkno.1,hmon _ hkno.2.1,hkno.2.2⟩
        | _ => exact hkno
    unfold AdminHub.takeReply
    dsimp only
    split
    · exact hred.moveIdle trivial rfl
    refine hred.move (fun w hw => ?_) fun w token hw htok c w' _ hw' heq => ?_
    · cases hw
      refine ⟨htgt,mem_concat_self,fun slot hsl => ?_⟩
      obtain ⟨-,target',-,hmem⟩ := h.enrolled slot hsl
      exact hfre _ hmem
    · cases hw
      cases htok
      have hkno := h.knows c w' hw'
      cases w' with
      | saving =>
        cases heq
        exact hfre _ hkno.2.1 rfl
      | _ => cases heq

end

/-- Moving a request twice is moving it once. -/
theorem move_move (s : Store) (conn : ℕ) (first second : Option Work) :
    (s.move conn first).move conn second=s.move conn second := by
  simp [Store.move]

section
variable (h : Coherent targets s)
include h

/-- A callback whose token is not held elsewhere may write it into a slot or a
new one. -/
theorem Coherent.putSlots (slots : List HubAccountSlot) (n token : ℕ)
    (hids : (slots.map HubAccountSlot.id).Nodup) (hbel : ∀ slot∈slots, slot.id<s.nextId+n)
    (htok : (slots.map slotToken).Nodup) (henr : ∀ slot∈slots, Enrolled targets s.redeemed slot)
    (hses : ∀ slot∈slots, s.hasSession slot.hubSessionId)
    (hold : ∀ slot∈slots, slotToken slot=token∨∃ old∈s.slots, slotToken old=slotToken slot)
    (hfr : ∀ c w, s.requests c=some w→saves w≠some token) :
    Coherent targets {s with slots := slots,nextId := s.nextId+n} := by
  refine ⟨hids,hbel,htok,henr,hses,h.redeemedTokens,
    fun r hr => Nat.lt_add_right n (h.redeemedBelow r hr),fun c w hw => ?_,h.savesApart,h.calls,
    fun e he => Nat.lt_add_right n (h.statesBelow e he),h.states,h.unspent,
    fun state hst => Nat.lt_add_right n (h.spentBelow state hst),h.spentOnce⟩
  have hkno := h.knows c w hw
  cases w with
  | saving =>
    refine ⟨hkno.1,hkno.2.1,fun slot hsl heq => ?_⟩
    obtain hnew|⟨old,hmem,heq'⟩ := hold slot hsl
    · exact hfr c _ hw (congrArg some (heq.symm.trans hnew))
    · exact hkno.2.2 old hmem (heq'.trans heq)
  | _ => exact hkno

/-- Saving a redeemed account keeps agreement. -/
theorem Coherent.saveSlot {reply : TokenReply}
    (hwk : s.requests conn=some (.saving hubSessionId target token reply)) (now : ℤ) :
    Coherent targets (saveSlot targets s conn hubSessionId target token reply now).2 := by
  obtain ⟨htgt,hred,huns⟩ := h.knows conn _ hwk
  have hmv : Coherent targets (s.move conn none) :=
    h.moveIdle trivial rfl
  have hfr : ∀ c w, (s.move conn none).requests c=some w→saves w≠some token := by
    intro c w hw
    obtain ⟨-,hno⟩|⟨hc,hold⟩ := move_requests hw
    · cases hno
    · exact h.savesApart conn c _ w token hwk hold (Ne.symm hc) rfl
  unfold AdminHub.saveSlot
  cases hfd : s.slots.find? (identity hubSessionId target.id reply.adminId) with
  | some old =>
    have hold : old∈s.slots := mem_of_find?_eq_some hfd
    obtain ⟨hses,htar,-⟩ := of_decide_eq_true
      (List.find?_some (p := identity hubSessionId target.id reply.adminId) hfd)
    dsimp only
    have hrs : ∀ slot∈updateWhere (fun slot => decide (slot.id=old.id))
        (reenrol token (now+reply.expiresInSeconds*1000)) s.slots,
        slot=reenrol token (now+reply.expiresInSeconds*1000) old ∨
          (slot∈s.slots∧slot.id≠old.id) := by
      intro slot hsl
      obtain ⟨other,hot,hid,rfl⟩|⟨hmem,hne⟩ := mem_updateWhere.mp hsl
      · have heq : other=old :=
          eq_of_key_eq HubAccountSlot.id h.slotIds hot hold (of_decide_eq_true hid)
        rw [heq]
        exact .inl rfl
      · exact .inr ⟨hmem,of_decide_eq_false hne⟩
    have hput := hmv.putSlots (updateWhere (fun slot => decide (slot.id=old.id))
        (reenrol token (now+reply.expiresInSeconds*1000)) s.slots) 0 token
      ((reenrol_ids _ _ _).symm ▸ h.slotIds) (fun slot hsl => ?_) ?_ (fun slot hsl => ?_) (fun slot hsl => ?_)
      (fun slot hsl => ?_) hfr
    · have hmov : Coherent targets
          (.move _ conn (some (.revoking (revokeSlotToken targets old).toList))) :=
        hput.moveIdle trivial rfl
      rw [← move_move _ conn none]
      exact hmov
    · obtain rfl|⟨hmem,-⟩ := hrs slot hsl
      · exact h.slotsBelow old hold
      · exact h.slotsBelow slot hmem
    · exact nodup_map_update_key HubAccountSlot.id slotToken old.id h.slotIds h.slotTokens
        (fun _ => rfl) huns
    · obtain rfl|⟨hmem,-⟩ := hrs slot hsl
      · refine ⟨rfl,target,?_,?_⟩
        · change findTarget targets old.targetId=some target
          rw [htar]
          exact htgt
        · change ⟨old.hubSessionId,target,token⟩∈s.redeemed
          rw [hses]
          exact hred
      · exact h.enrolled slot hmem
    · obtain rfl|⟨hmem,-⟩ := hrs slot hsl
      · exact h.sessions old hold
      · exact h.sessions slot hmem
    · obtain rfl|⟨hmem,-⟩ := hrs slot hsl
      · exact .inl rfl
      · exact .inr ⟨slot,hmem,rfl⟩
  | none =>
    dsimp only
    split
    · next hses =>
      refine hmv.putSlots _ 1 token ?_ (fun slot hsl => ?_) ?_
        (fun slot hsl => ?_) (fun slot hsl => ?_) (fun slot hsl => ?_) hfr
      · refine nodup_map_append HubAccountSlot.id h.slotIds fun slot hsl heq => ?_
        have hbel := h.slotsBelow slot hsl
        dsimp only at heq
        omega
      · obtain hmem|rfl := mem_concat_iff.mp hsl
        · exact Nat.lt_succ_of_lt (h.slotsBelow slot hmem)
        · exact Nat.lt_succ_self _
      · exact nodup_map_append slotToken h.slotTokens huns
      · obtain hmem|rfl := mem_concat_iff.mp hsl
        · exact h.enrolled slot hmem
        · exact ⟨rfl,target,htgt,hred⟩
      · obtain hmem|rfl := mem_concat_iff.mp hsl
        · exact h.sessions slot hmem
        · exact hses
      · obtain hmem|rfl := mem_concat_iff.mp hsl
        · exact .inr ⟨slot,hmem,rfl⟩
        · exact .inl rfl
    · exact hmv

theorem Coherent.deleteSlots (p : HubAccountSlot → Bool) :
    Coherent targets {s with slots := deleteWhere p s.slots} :=
  h.shrink (List.Sublist.refl _) filter_sublist fun slot hsl =>
    h.sessions slot (mem_deleteWhere.mp hsl).1

/-- Removing a saved account keeps agreement. -/
theorem Coherent.removeSlot (hubSessionId slotId : ℕ) :
    Coherent targets (removeSlot targets s conn hubSessionId slotId).2 := by
  unfold AdminHub.removeSlot
  split
  · exact h.moveIdle trivial rfl
  · exact (h.deleteSlots _).moveIdle trivial rfl

/-- Deleting the saved accounts of a hub session keeps agreement. -/
theorem Coherent.signOut (hubSessionId : ℕ) : Coherent targets (signOut s conn hubSessionId).2 :=
  (h.deleteSlots _).moveIdle trivial rfl

/-- Deleting a hub session keeps agreement. -/
theorem Coherent.endHubSession (hubSessionId : ℕ) (rows : List HubAccountSlot) :
    Coherent targets (endHubSession targets s conn hubSessionId rows).2 :=
  (h.deleteSessions _).moveIdle trivial rfl

/-- Sending an admin call keeps agreement. -/
theorem Coherent.proxyToTarget (hubSessionId slotId : ℕ) (now : ℤ) :
    Coherent targets (proxyToTarget targets s conn hubSessionId slotId now).2 := by
  have hmv : Coherent targets (s.move conn none) :=
    h.moveIdle trivial rfl
  unfold AdminHub.proxyToTarget
  cases hfd : s.slots.find? fun slot => decide (slot.id=slotId ∧
      slot.hubSessionId=hubSessionId∧now<slot.expiresAt) with
  | none => exact hmv
  | some slot =>
    have hsl : slot∈s.slots := mem_of_find?_eq_some hfd
    obtain ⟨-,hses,-⟩ := of_decide_eq_true (List.find?_some (p := fun slot : HubAccountSlot =>
      decide (slot.id=slotId∧slot.hubSessionId=hubSessionId∧now<slot.expiresAt)) hfd)
    obtain ⟨haad,target,htgt,hred⟩ := h.enrolled slot hsl
    have hop : openFor slot.tokenSealed slot.aad=some (slotToken slot) := if_pos haad
    dsimp only
    rw [htgt,hop]
    have hcal : Coherent targets {s with
        calls := s.calls++[⟨hubSessionId,target,slotToken slot⟩]} := by
      refine {h with knows := fun c w hw => ?_,calls := fun c hc => ?_}
      · have hkno := h.knows c w hw
        cases w <;> exact hkno
      rcases mem_concat_iff.mp hc with hold|rfl
      · exact h.calls c hold
      · rw [← hses]
        exact hred
    exact hcal.moveIdle trivial rfl

/-- Recording what went over the network keeps agreement. -/
theorem Coherent.record {sent : List Revocation}
    {rejected dropped : List ℕ} (hrej : ∀ token∈s.rejected, token∈rejected) :
    Coherent targets {s with sent := sent,rejected := rejected,dropped := dropped} := by
  refine {h with knows := fun c w hw => ?_}
  have hkno := h.knows c w hw
  cases w with
  | rejected _ token => exact hrej token hkno
  | _ => exact hkno

/-- Every step of a running request keeps agreement. -/
theorem Coherent.proceed (hwk : s.requests conn=some work) (a : Action) :
    Coherent targets (proceed targets s conn work a).2 := by
  unfold AdminHub.proceed
  split
  · exact h.startEnrolment _ _ _
  · exact h.completeEnrolment _ _ _ _ _ _
  · exact h.removeSlot _ _
  · exact h.signOut _
  · exact h.proxyToTarget _ _ _
  · exact h.takeReply hwk _
  · exact h.saveSlot hwk _
  · exact h.endHubSession _ _
  · exact (h.record fun _ htok => htok).moveIdle trivial rfl
  · next slotId token _ unauthorized =>
    cases unauthorized with
    | true => exact (h.record fun _ htok => mem_append_left _ htok).moveIdle mem_concat_self rfl
    | false => exact h.moveIdle trivial rfl
  · exact ((h.deleteSlots _).record fun _ htok => htok).moveIdle trivial rfl
  · exact h

/-- Every step keeps agreement. -/
theorem Coherent.step (a : Action) :
    Coherent targets (step targets s a).2 := by
  unfold AdminHub.step
  split
  · exact h.createHubSession _
  · split
    · exact h
    unfold AdminHub.resolveHubSession
    split
    · exact h.moveIdle trivial rfl
    · exact h
  · split
    · exact h
    · split
      · exact h
      · next hwk => exact h.proceed hwk _

end

/-- The token was dropped with the slot of a call and its target rejected it. -/
def LetGo (s : Store) (token : ℕ) : Prop := token∈s.dropped∧token∈s.rejected

/-- The token is sealed in a slot, on its way for revocation, sent for it, or
was let go after its target rejected it. -/
def Kept (targets : List HubTarget) (s : Store) (r : Redemption) : Prop :=
  (∃ slot∈s.slots, slotToken slot=r.token) ∨
    (∃ c work, s.requests c=some work∧⟨r.target,r.token⟩∈holds targets work) ∨
    ⟨r.target,r.token⟩∈s.sent∨LetGo s r.token

/-- Every redeemed token is accounted for. -/
def Accounted (targets : List HubTarget) (s : Store) : Prop := ∀ r∈s.redeemed, Kept targets s r

/-- After a step redeemed tokens are accounted for, and a slot is gone for a
cause only. -/
def Settled (targets : List HubTarget) (s s' : Store) (cause : HubAccountSlot → Prop) : Prop :=
  Accounted targets s'∧∀ slot∈s.slots, (∀ other∈s'.slots, other.id≠slot.id) → cause slot

/-- A slot that holds a redeemed token is of the session that enrolled it and
can be revoked at the target that issued it. -/
theorem Coherent.slot_redemption (h : Coherent targets s) {r : Redemption}
    (hr : r∈s.redeemed) (hsl : slot∈s.slots)
    (htok : slotToken slot=r.token) : slot.hubSessionId=r.hubSessionId ∧ slot.targetId=r.target.id ∧
      revokeSlotToken targets slot=some ⟨r.target,r.token⟩ := by
  obtain ⟨target,hrev,hred⟩ := (h.enrolled slot hsl).revocation
  have heq := h.redemption_eq hred hr htok
  obtain ⟨-,target',htgt',hred'⟩ := h.enrolled slot hsl
  have heq' := h.redemption_eq hred' hr htok
  have htar : slot.targetId=r.target.id := by
    rw [← heq']
    exact (findTarget_self htgt').1.symm
  rw [hrev,← heq]
  exact ⟨rfl,heq ▸ htar,rfl⟩

variable {cause : HubAccountSlot → Prop}
variable {work' : Option Work}

/-- A step of a request settles when it passes on what the request held and
what left the slots, and has a cause for the latter. -/
theorem Accounted.move (h : Accounted targets s) {s₁ : Store} (hreq : s₁.requests=s.requests) (hwk : s.requests conn=some work)
    (hown : ∀ v∈holds targets work, (∃ w∈work', v∈holds targets w)∨v∈s₁.sent ∨
      ∃ slot∈s₁.slots, slotToken slot=v.token)
    (hslo : ∀ r∈s.redeemed, ∀ slot∈s.slots, slotToken slot=r.token →
      (∃ slot∈s₁.slots, slotToken slot=r.token) ∨
        (∃ w∈work', ⟨r.target,r.token⟩∈holds targets w)∨LetGo s₁ r.token)
    (hred : ∀ r∈s₁.redeemed, r∈s.redeemed∨∃ w∈work', ⟨r.target,r.token⟩∈holds targets w)
    (hsen : ∀ v∈s.sent, v∈s₁.sent) (hgn : ∀ token, LetGo s token → LetGo s₁ token)
    (hcau : ∀ slot∈s.slots, (∃ other∈s₁.slots, other.id=slot.id)∨cause slot) :
    Settled targets s (s₁.move conn work') cause := by
  have hnew : ∀ r : Redemption, (∃ w∈work', ⟨r.target,r.token⟩∈holds targets w) →
      Kept targets (s₁.move conn work') r := by
    rintro r ⟨w,hw,hhol⟩
    refine .inr (.inl ⟨conn,w,?_,hhol⟩)
    rw [Option.mem_def] at hw
    simp [Store.move,hw]
  refine ⟨fun r hr => ?_,fun slot hsl hgone => (hcau slot hsl).resolve_left
    fun ⟨other,hot,hid⟩ => hgone other hot hid⟩
  obtain hold|hgai := hred r hr
  · obtain ⟨slot,hsl,htok⟩|⟨c,w,hw,hhol⟩|hwas|hwas := h r hold
    · obtain hsti|hhd|hlos := hslo r hold slot hsl htok
      · exact .inl hsti
      · exact hnew r hhd
      · exact .inr (.inr (.inr hlos))
    · by_cases hc : c=conn
      · subst hc
        rw [hwk] at hw
        cases hw
        obtain hhd|hgn|hsea := hown _ hhol
        · exact hnew r hhd
        · exact .inr (.inr (.inl hgn))
        · exact .inl hsea
      · refine .inr (.inl ⟨c,w,?_,hhol⟩)
        rw [← hreq] at hw
        simpa [Store.move,Function.update_of_ne hc] using hw
    · exact .inr (.inr (.inl (hsen _ hwas)))
    · exact .inr (.inr (.inr (hgn _ hwas)))
  · exact hnew r hgai

theorem Accounted.moveOn (h : Accounted targets s) {s₁ : Store} (hreq : s₁.requests=s.requests)
    (hwk : s.requests conn=some work) (hno : holds targets work=[])
    (hslo : s₁.slots=s.slots) (hred : s₁.redeemed=s.redeemed)
    (hsen : s₁.sent=s.sent) (hgn : ∀ token, LetGo s token → LetGo s₁ token) :
    Settled targets s (s₁.move conn work') cause := by
  refine h.move hreq hwk (fun v hv => ?_) (fun r _ slot hsl htok => ?_)
    (fun r hr => .inl (hred ▸ hr)) (fun v hv => hsen ▸ hv) hgn
    fun slot hsl => .inl ⟨slot,hslo ▸ hsl,rfl⟩
  · rw [hno] at hv
    cases hv
  · exact .inl ⟨slot,hslo ▸ hsl,htok⟩

/-- A request that held no token goes on or ends. -/
theorem Accounted.goOn (h : Accounted targets s)
    (hwk : s.requests conn=some work) (hno : holds targets work=[]) :
    Settled targets s (s.move conn work') cause :=
  h.moveOn rfl hwk hno rfl rfl rfl fun _ hgn => hgn

/-- A callback saves while its hub session exists. -/
def SaveFits (s : Store) : Work → Prop
  | .saving hubSessionId _ _ _ => s.hasSession hubSessionId
  | _ => True

/-- A hub session that signs out has no slot left when its row is deleted. -/
def EndFits (s : Store) : Work → Prop
  | .ending hubSessionId _ => ∀ slot∈s.slots, slot.hubSessionId≠hubSessionId
  | _ => True

/-- The slot of a rejected call is gone or still holds the token of the call. -/
def DropFits (s : Store) : Work → Prop
  | .rejected slotId token => ∀ slot∈s.slots, slot.id=slotId→slotToken slot=token
  | _ => True

/-- The step meets the slots its request left behind, and expired hub sessions
are deleted without slots. -/
def Fits (s : Store) : Action → Prop
  | .createHubSession now => ∀ x∈s.sessions, x.expiresAt<now →
      ∀ slot∈s.slots, slot.hubSessionId≠x.id
  | .save conn _ => ∀ work∈s.requests conn, SaveFits s work
  | .endHubSession conn => ∀ work∈s.requests conn, EndFits s work
  | .dropSlot conn => ∀ work∈s.requests conn, DropFits s work
  | _ => True

instance (s : Store) : DecidablePred (SaveFits s)
  | .saving hubSessionId _ _ _ => inferInstanceAs (Decidable (s.hasSession hubSessionId))
  | .resolved _ => .isTrue trivial
  | .redeeming _ _ => .isTrue trivial
  | .ending _ _ => .isTrue trivial
  | .revoking _ => .isTrue trivial
  | .calling _ _ => .isTrue trivial
  | .rejected _ _ => .isTrue trivial

instance (s : Store) : DecidablePred (EndFits s)
  | .ending hubSessionId _ =>
    inferInstanceAs (Decidable (∀ slot∈s.slots, slot.hubSessionId≠hubSessionId))
  | .resolved _ => .isTrue trivial
  | .redeeming _ _ => .isTrue trivial
  | .saving _ _ _ _ => .isTrue trivial
  | .revoking _ => .isTrue trivial
  | .calling _ _ => .isTrue trivial
  | .rejected _ _ => .isTrue trivial

instance (s : Store) : DecidablePred (DropFits s)
  | .rejected slotId token =>
    inferInstanceAs (Decidable (∀ slot∈s.slots, slot.id=slotId→slotToken slot=token))
  | .resolved _ => .isTrue trivial
  | .redeeming _ _ => .isTrue trivial
  | .saving _ _ _ _ => .isTrue trivial
  | .ending _ _ => .isTrue trivial
  | .revoking _ => .isTrue trivial
  | .calling _ _ => .isTrue trivial

instance (s : Store) : DecidablePred (Fits s)
  | .createHubSession now => inferInstanceAs (Decidable (∀ x∈s.sessions, x.expiresAt<now →
      ∀ slot∈s.slots, slot.hubSessionId≠x.id))
  | .save conn _ => inferInstanceAs (Decidable (∀ work∈s.requests conn, SaveFits s work))
  | .endHubSession conn => inferInstanceAs (Decidable (∀ work∈s.requests conn, EndFits s work))
  | .dropSlot conn => inferInstanceAs (Decidable (∀ work∈s.requests conn, DropFits s work))
  | .resolveHubSession _ _ _ => .isTrue trivial
  | .startEnrolment _ _ _ => .isTrue trivial
  | .completeEnrolment _ _ _ _ _ _ => .isTrue trivial
  | .reply _ _ => .isTrue trivial
  | .revoke _ => .isTrue trivial
  | .removeSlot _ _ => .isTrue trivial
  | .signOut _ => .isTrue trivial
  | .proxyToTarget _ _ _ => .isTrue trivial
  | .answer _ _ => .isTrue trivial

theorem deleteSessions_slots {p : HubSession → Bool}
    (h : ∀ x∈s.sessions, p x=true→∀ slot∈s.slots, slot.hubSessionId≠x.id) :
    (s.deleteSessions p).slots=s.slots := by
  refine filter_eq_self.mpr fun slot hsl => ?_
  have hkp : slot.hubSessionId∉(s.sessions.filter p).map HubSession.id := by
    intro hgn
    obtain ⟨x,hx,hid⟩ := mem_map.mp hgn
    obtain ⟨hmem,hp⟩ := mem_filter.mp hx
    exact h x hmem hp slot hsl hid.symm
  simpa using hkp

/-- Why a slot may disappear: its hub session removed it, signed out or
expired, or a target rejected the token it holds. -/
def Cause (s : Store) (slot : HubAccountSlot) : Action → Prop
  | .removeSlot conn slotId => s.requests conn=some (.resolved slot.hubSessionId)∧slotId=slot.id
  | .signOut conn => s.requests conn=some (.resolved slot.hubSessionId)
  | .endHubSession conn => ∃ rows, s.requests conn=some (.ending slot.hubSessionId rows)
  | .createHubSession now => ∃ x∈s.sessions, x.id=slot.hubSessionId∧x.expiresAt<now
  | .dropSlot _ => slotToken slot∈s.rejected
  | _ => False

theorem kept_or_deleted {p : HubAccountSlot → Bool} {cause : HubAccountSlot → Prop}
    (hp : ∀ slot, p slot=true → cause slot) : ∀ slot∈s.slots,
      (∃ other∈deleteWhere p s.slots, other.id=slot.id)∨cause slot := by
  intro slot hsl
  cases hdel : p slot with
  | true => exact .inr (hp slot hdel)
  | false => exact .inl ⟨slot,mem_deleteWhere.mpr ⟨hsl,hdel⟩,rfl⟩

section
variable (h : Accounted targets s)
include h

theorem Accounted.createHubSession {now : ℤ}
    (hfs : Fits s (.createHubSession now)) : Settled targets s (createHubSession s now).2 cause := by
  have hslo : (AdminHub.createHubSession s now).2.slots=s.slots :=
    deleteSessions_slots fun x hx hp => hfs x hx (of_decide_eq_true hp)
  refine ⟨fun r hr => ?_,fun slot hsl hgone => absurd rfl (hgone slot (hslo ▸ hsl))⟩
  obtain ⟨slot,hsl,htok⟩|hrt := h r hr
  · exact .inl ⟨slot,hslo ▸ hsl,htok⟩
  · exact .inr hrt

theorem Accounted.enrolment
    (hwk : s.requests conn=some (.resolved hubSessionId)) (targetId : String) (valid : Bool)
    (state : ℕ) (iss : Option String) (now : ℤ) :
    Settled targets s (startEnrolment targets s conn hubSessionId targetId now).2 cause ∧
      Settled targets s
        (completeEnrolment targets s conn hubSessionId targetId valid state iss now).2 cause := by
  have hmv : Settled targets s (s.move conn none) cause := h.goOn hwk rfl
  constructor
  · unfold startEnrolment
    dsimp only
    split
    · exact hmv
    · split
      · exact hmv
      · exact hmv
  · unfold completeEnrolment
    split
    · exact hmv
    split
    · exact hmv
    split
    · exact hmv
    split
    · exact h.goOn hwk rfl
    · exact h.goOn hwk rfl

/-- Taking the answer to a code keeps tokens accounted for. -/
theorem Accounted.takeReply
    (hwk : s.requests conn=some (.redeeming hubSessionId target)) (reply : Option TokenReply) :
    Settled targets s (takeReply s conn hubSessionId target reply).2 cause := by
  cases reply with
  | none => exact h.goOn hwk rfl
  | some =>
    unfold AdminHub.takeReply
    dsimp only
    have hgai : ∀ w : Work, holds targets w=[⟨target,s.nextId⟩] →
        ∀ r∈s.redeemed++[⟨hubSessionId,target,s.nextId⟩],r∈s.redeemed ∨
          ∃ w'∈some w, ⟨r.target,r.token⟩∈holds targets w' := by
      intro w hw r hr
      rcases mem_concat_iff.mp hr with hold|rfl
      · exact .inl hold
      · exact .inr ⟨w,rfl,by rw [hw]; exact mem_singleton_self _⟩
    split <;>
    · exact h.move rfl hwk nofun (fun r _ slot hsl htok => .inl ⟨slot,hsl,htok⟩) (hgai _ rfl)
        (fun _ hv => hv) (fun _ hgn => hgn) fun slot hsl => .inl ⟨slot,hsl,rfl⟩

/-- Saving a redeemed account while its hub session exists keeps tokens
accounted for. -/
theorem Accounted.saveSlot (hcoh : Coherent targets s) {reply : TokenReply}
    (hwk : s.requests conn=some (.saving hubSessionId target token reply)) (now : ℤ)
    (hses : s.hasSession hubSessionId) :
    Settled targets s (saveSlot targets s conn hubSessionId target token reply now).2 cause := by
  unfold AdminHub.saveSlot
  cases hfd : s.slots.find? (identity hubSessionId target.id reply.adminId) with
  | some old =>
    have hold : old∈s.slots := mem_of_find?_eq_some hfd
    refine h.move rfl hwk (fun v hv => ?_) (fun r hr slot hsl htok => ?_)
      (fun r hr => .inl hr) (fun _ hv => hv) (fun _ hgn => hgn) fun slot hsl => .inl ?_
    · cases mem_singleton.mp hv
      refine .inr (.inr ⟨reenrol token (now+reply.expiresInSeconds*1000) old,?_,rfl⟩)
      exact mem_updateWhere.mpr (.inl ⟨old,hold,by simp,rfl⟩)
    · by_cases heq : slot.id=old.id
      · have hslo : slot=old :=
          eq_of_key_eq HubAccountSlot.id hcoh.slotIds hsl hold heq
        obtain ⟨-,-,hrev⟩ := hcoh.slot_redemption hr hsl htok
        refine .inr (.inl ⟨_,rfl,?_⟩)
        rw [hslo] at hrev
        rw [hrev]
        exact mem_singleton_self _
      · exact .inl ⟨slot,mem_updateWhere.mpr (.inr ⟨hsl,by simpa using heq⟩),htok⟩
    · exact mem_map.mp (by rw [reenrol_ids]; exact mem_map_of_mem hsl)
  | none =>
    dsimp only
    rw [if_pos hses]
    refine h.move rfl hwk (fun v hv => ?_) (fun r _ slot hsl htok => ?_)
      (fun r hr => .inl hr) (fun _ hv => hv) (fun _ hgn => hgn)
      fun slot hsl => .inl ⟨slot,mem_append_left _ hsl,rfl⟩
    · cases mem_singleton.mp hv
      exact .inr (.inr ⟨_,mem_concat_self,rfl⟩)
    · exact .inl ⟨slot,mem_append_left _ hsl,htok⟩

theorem Accounted.removeSlot (hcoh : Coherent targets s)
    (hwk : s.requests conn=some (.resolved hubSessionId)) (slotId : ℕ)
    (hcau : ∀ slot : HubAccountSlot, slot.id=slotId → slot.hubSessionId=hubSessionId →
      cause slot) : Settled targets s (removeSlot targets s conn hubSessionId slotId).2 cause := by
  unfold AdminHub.removeSlot
  cases hfd : s.slots.find? fun slot => decide (slot.id=slotId ∧
      slot.hubSessionId=hubSessionId) with
  | none => exact h.goOn hwk rfl
  | some row =>
    have hrow : row∈s.slots := mem_of_find?_eq_some hfd
    obtain ⟨hid,-⟩ := of_decide_eq_true (List.find?_some (p := fun slot : HubAccountSlot =>
      decide (slot.id=slotId∧slot.hubSessionId=hubSessionId)) hfd)
    refine h.move rfl hwk nofun (fun r hr slot hsl htok => ?_) (fun r hr => .inl hr)
      (fun _ hv => hv) (fun _ hgn => hgn) (kept_or_deleted fun slot hdel => ?_)
    · by_cases heq : slot.id=slotId∧slot.hubSessionId=hubSessionId
      · have hslo : slot=row :=
          eq_of_key_eq HubAccountSlot.id hcoh.slotIds hsl hrow (heq.1.trans hid.symm)
        obtain ⟨-,-,hrev⟩ := hcoh.slot_redemption hr hsl htok
        refine .inr (.inl ⟨_,rfl,?_⟩)
        rw [hslo] at hrev
        rw [hrev]
        exact mem_singleton_self _
      · exact .inl ⟨slot,mem_deleteWhere.mpr ⟨hsl,by simpa using heq⟩,htok⟩
    · exact hcau slot (of_decide_eq_true hdel).1 (of_decide_eq_true hdel).2

theorem Accounted.signOut (hcoh : Coherent targets s)
    (hwk : s.requests conn=some (.resolved hubSessionId))
    (hcau : ∀ slot : HubAccountSlot, slot.hubSessionId=hubSessionId → cause slot) :
    Settled targets s (signOut s conn hubSessionId).2 cause := by
  refine h.move rfl hwk nofun (fun r hr slot hsl htok => ?_) (fun r hr => .inl hr)
    (fun _ hv => hv) (fun _ hgn => hgn)
    (kept_or_deleted fun slot hdel => hcau slot (of_decide_eq_true hdel))
  by_cases heq : slot.hubSessionId=hubSessionId
  · obtain ⟨-,-,hrev⟩ := hcoh.slot_redemption hr hsl htok
    refine .inr (.inl ⟨_,rfl,mem_filterMap.mpr ⟨slot,?_,hrev⟩⟩)
    exact mem_filter.mpr ⟨hsl,by simpa using heq⟩
  · exact .inl ⟨slot,mem_deleteWhere.mpr ⟨hsl,by simpa using heq⟩,htok⟩

theorem Accounted.endHubSession
    {rows : List HubAccountSlot} (hwk : s.requests conn=some (.ending hubSessionId rows))
    (hem : ∀ slot∈s.slots, slot.hubSessionId≠hubSessionId) :
    Settled targets s (endHubSession targets s conn hubSessionId rows).2 cause := by
  have hslo : (s.deleteSessions fun x => decide (x.id=hubSessionId)).slots=s.slots :=
    deleteSessions_slots fun x _ hx slot hsl heq => hem slot hsl (heq.trans (of_decide_eq_true hx))
  exact h.move rfl hwk (fun v hv => .inl ⟨_,rfl,hv⟩)
    (fun r _ slot hsl htok => .inl ⟨slot,hslo ▸ hsl,htok⟩) (fun r hr => .inl hr)
    (fun _ hv => hv) (fun _ hgn => hgn) fun slot hsl => .inl ⟨slot,hslo ▸ hsl,rfl⟩

/-- Sending an admin call keeps tokens accounted for. -/
theorem Accounted.proxyToTarget
    (hwk : s.requests conn=some (.resolved hubSessionId)) (slotId : ℕ) (now : ℤ) :
    Settled targets s (proxyToTarget targets s conn hubSessionId slotId now).2 cause := by
  unfold AdminHub.proxyToTarget
  split
  · exact h.goOn hwk rfl
  split
  · exact h.goOn hwk rfl
  · exact h.goOn hwk rfl
  · exact h.goOn hwk rfl

theorem Accounted.dropSlot (hcoh : Coherent targets s)
    {slotId : ℕ} (hwk : s.requests conn=some (.rejected slotId token))
    (hfs : ∀ slot∈s.slots, slot.id=slotId→slotToken slot=token) :
    Settled targets s (dropSlot s conn slotId).2 fun slot => slotToken slot∈s.rejected := by
  refine h.move rfl hwk nofun (fun r _ slot hsl htok => ?_) (fun r hr => .inl hr) (fun _ hv => hv)
    (fun _ hgn => ⟨mem_append_left _ hgn.1,hgn.2⟩) fun slot hsl => ?_
  · by_cases heq : slot.id=slotId
    · have hrej : r.token∈s.rejected := by
        rw [← htok,hfs slot hsl heq]
        exact hcoh.knows conn _ hwk
      refine .inr (.inr ⟨mem_append_right _ (mem_map.mpr ⟨slot,?_,htok⟩),hrej⟩)
      exact mem_filter.mpr ⟨hsl,by simpa using heq⟩
    · exact .inl ⟨slot,mem_deleteWhere.mpr ⟨hsl,by simpa using heq⟩,htok⟩
  · refine (kept_or_deleted fun slot hdel => of_decide_eq_true hdel) slot hsl |>.imp_right fun hid => ?_
    rw [hfs slot hsl hid]
    exact hcoh.knows conn _ hwk

/-- Every step that fits keeps tokens accounted for, and slots are gone for a
cause only. -/
theorem Accounted.step (hcoh : Coherent targets s) {a : Action}
    (hfs : Fits s a) : Settled targets s (step targets s a).2 fun slot => Cause s slot a := by
  have hsame : Settled targets s s fun slot => Cause s slot a :=
    ⟨h,fun slot hsl hgone => absurd rfl (hgone slot hsl)⟩
  unfold AdminHub.step
  split
  · exact h.createHubSession hfs
  · next c hubSessionId now =>
    split
    · exact hsame
    · next hno =>
      unfold AdminHub.resolveHubSession
      split
      · refine ⟨fun r hr => ?_,hsame.2⟩
        obtain hsl|⟨c',work,hwk,hhol⟩|hrt := h r hr
        · exact .inl hsl
        · refine .inr (.inl ⟨c',work,?_,hhol⟩)
          have hne : c'≠c := by
            rintro rfl
            rw [hno] at hwk
            cases hwk
          simpa [Store.move,Function.update_of_ne hne] using hwk
        · exact .inr (.inr hrt)
      · exact hsame
  · split
    · exact hsame
    · next conn hcon =>
      split
      · exact hsame
      · next work hwk =>
        unfold AdminHub.proceed
        split
        · exact (h.enrolment hwk _ false 0 none _).1
        · exact (h.enrolment hwk _ _ _ _ _).2
        · cases hcon
          exact h.removeSlot hcoh hwk _ fun slot hid hses => ⟨hses ▸ hwk,hid.symm⟩
        · cases hcon
          exact h.signOut hcoh hwk fun slot hses => by rw [Cause,hses]; exact hwk
        · exact h.proxyToTarget hwk _ _
        · exact h.takeReply hwk _
        · cases hcon
          exact h.saveSlot hcoh hwk _ (hfs _ hwk)
        · cases hcon
          exact h.endHubSession hwk (hfs _ hwk)
        · exact h.move rfl hwk (fun v hv => .inr (.inl (mem_append_right _ hv)))
            (fun r _ slot hsl htok => .inl ⟨slot,hsl,htok⟩) (fun r hr => .inl hr)
            (fun v hv => mem_append_left _ hv) (fun _ hgn => hgn) fun slot hsl => .inl ⟨slot,hsl,rfl⟩
        · split
          · exact h.moveOn rfl hwk rfl rfl rfl rfl fun _ hgn => ⟨hgn.1,mem_append_left _ hgn.2⟩
          · exact h.goOn hwk rfl
        · cases hcon
          exact h.dropSlot hcoh hwk (hfs _ hwk)
        · exact hsame

end

/-- The token is sealed in exactly one slot, of the session that enrolled it. -/
def SealedOnce (s : Store) (r : Redemption) : Prop :=
  ∃ slot∈s.slots, slotToken slot=r.token∧slot.hubSessionId=r.hubSessionId ∧
    slot.targetId=r.target.id∧∀ other∈s.slots, slotToken other=r.token → other=slot

/-- A running request is about to save the token or to send it for revocation. -/
def InHand (targets : List HubTarget) (s : Store) (r : Redemption) : Prop :=
  ∃ conn work, s.requests conn=some work∧⟨r.target,r.token⟩∈holds targets work

/-- Steps with their answers, oldest first. -/
abbrev History := List (Event Store Action Answer)

/-- No saved session is orphaned or dropped. -/
structure SessionsKept (targets : List HubTarget) (h : History) (s : Store) : Prop where
  /-- A redeemed token is sealed in one slot, in the hand of a request, sent for
  revocation, or was let go after its target rejected it. -/
  accounted : ∀ r∈s.redeemed, SealedOnce s r∨InHand targets s r ∨
    ⟨r.target,r.token⟩∈s.sent∨LetGo s r.token
  slots : ∀ e∈h, ∀ slot∈e.before.slots, (∀ other∈e.after.slots, other.id≠slot.id) →
    Cause e.before slot e.action

/-- Calls use the tokens of their hub session, and states are spent once. -/
structure CallsKept (s : Store) : Prop where
  /-- A call used a token that its hub session, and no other, enrolled at the
  target it was sent to. -/
  calls : ∀ c∈s.calls, ⟨c.hubSessionId,c.target,c.token⟩∈s.redeemed ∧
    ∀ r∈s.redeemed, r.token=c.token → r.hubSessionId=c.hubSessionId
  spentOnce : s.spent.Nodup

/-- In every run calls and states are kept, and saved sessions are when every
step fits. -/
theorem sessions_kept {h : History}
    (hrun : Run (step targets) (fun _ _ _ => True) Store.empty h s) :
    CallsKept s∧((∀ e∈h, Fits e.before e.action) → SessionsKept targets h s) := by
  obtain ⟨hcoh,hkp⟩ : Coherent targets s∧((∀ e∈h, Fits e.before e.action) → Accounted targets s ∧
        ∀ e∈h, ∀ slot∈e.before.slots, (∀ other∈e.after.slots, other.id≠slot.id) →
          Cause e.before slot e.action) := by
    refine Run.invariant (P := fun h s => Coherent targets s ∧
      ((∀ e∈h, Fits e.before e.action) → Accounted targets s ∧
        ∀ e∈h, ∀ slot∈e.before.slots, (∀ other∈e.after.slots, other.id≠slot.id) →
          Cause e.before slot e.action)) hrun
      ⟨Coherent.empty targets,fun _ => ⟨fun _ h => (nomatch h),fun _ h => nomatch h⟩⟩
      fun past mid a hmid _ => ⟨hmid.1.step a,fun hfs => ?_⟩
    obtain ⟨hacc,hcau⟩ := hmid.2 fun e he => hfs e (mem_append_left _ he)
    have hlt : Fits mid a :=
      hfs (perform (step targets) mid a) (mem_concat_self)
    obtain ⟨hnx,hgone⟩ := hacc.step hmid.1 hlt
    refine ⟨hnx,fun e he slot hsl hgn => ?_⟩
    rcases mem_concat_iff.mp he with hold|rfl
    · exact hcau e hold slot hsl hgn
    · exact hgone slot hsl hgn
  refine ⟨⟨fun c hc => ⟨hcoh.calls c hc,fun r hr htok => ?_⟩,hcoh.spentOnce⟩,fun hfs => ?_⟩
  · rw [hcoh.redemption_eq hr (hcoh.calls c hc) htok]
  obtain ⟨hacc,hcau⟩ := hkp hfs
  refine ⟨fun r hr => ?_,hcau⟩
  obtain ⟨slot,hsl,htok⟩|hrt := hacc r hr
  · obtain ⟨hses,htgt,-⟩ := hcoh.slot_redemption hr hsl htok
    refine .inl ⟨slot,hsl,htok,hses,htgt,fun other hot heq => ?_⟩
    exact eq_of_key_eq slotToken hcoh.slotTokens hot hsl (heq.trans htok.symm)
  · exact .inr hrt

/-- A server with one admin. -/
def shop : HubTarget := ⟨"shop", "https://shop"⟩

/-- The target accepts the code of that admin. -/
def accepted : TokenReply := ⟨"https://shop", "admin",3600⟩

/-- The hub session enrols the admin with a state and saves the account. -/
def enrol (state : ℕ) : List Action :=
  [.resolveHubSession 0 0 1,.startEnrolment 0 "shop" 1,.resolveHubSession 0 0 1,
    .completeEnrolment 0 "shop" true state (some "https://shop") 1,.reply 0 (some accepted),
    .save 0 1]

/-- The account is enrolled again while a call with its first token is on its
way; the target, which was asked to revoke that token, rejects the call. -/
def reenrolDuringCall : List Action :=
  .createHubSession 0::(enrol 1++[.resolveHubSession 1 0 1,.proxyToTarget 1 3 1]++enrol 4 ++
    [.revoke 0,.answer 1 true,.dropSlot 1])

/-- The hub session signs out while the target answers the code. -/
def signOutDuringCallback : List Action :=
  .createHubSession 0::((enrol 1).take 4++[.resolveHubSession 1 0 1,.signOut 1,
    .endHubSession 1,.revoke 1,.reply 0 (some accepted),.save 0 1])

/-- The callback saves between the two deletions of a sign-out. -/
def saveDuringSignOut : List Action :=
  .createHubSession 0::((enrol 1).take 5++[.resolveHubSession 1 0 1,.signOut 1,.save 0 1,
    .endHubSession 1,.revoke 1])

/-- Run of a list of steps. -/
def played (actions : List Action) : History×Store := play (step [shop]) [] Store.empty actions

/-- In each of these runs a redeemed token is in no slot and was not sent for
revocation when no request runs any more. -/
theorem sessions_orphaned : ((∀ c, (played reenrolDuringCall).2.requests c=none) ∧
        (played reenrolDuringCall).2.redeemed=[⟨0,shop,2⟩,⟨0,shop,5⟩] ∧
        (played reenrolDuringCall).2.slots=[]∧(played reenrolDuringCall).2.sent=[⟨shop,2⟩] ∧
        (played reenrolDuringCall).2.rejected=[2] ∧
        ¬ SessionsKept [shop] (played reenrolDuringCall).1 (played reenrolDuringCall).2) ∧
      ((∀ c, (played signOutDuringCallback).2.requests c=none) ∧
        ¬ SessionsKept [shop] (played signOutDuringCallback).1 (played signOutDuringCallback).2) ∧
      (∀ c, (played saveDuringSignOut).2.requests c=none) ∧
        ¬ SessionsKept [shop] (played saveDuringSignOut).1 (played saveDuringSignOut).2 := by
  have hlos : ∀ (actions : List Action) (r : Redemption),
      (∀ c, (played actions).2.requests c=none) → r∈(played actions).2.redeemed →
      (played actions).2.slots=[] → ⟨r.target,r.token⟩∉(played actions).2.sent →
      r.token∉(played actions).2.rejected →
      ¬ SessionsKept [shop] (played actions).1 (played actions).2 := by
    intro actions r hq hr hslo hsen hrej hkp
    obtain ⟨slot,hsl,-⟩|⟨c,work,hwk,-⟩|hwas|hgn := hkp.accounted r hr
    · rw [hslo] at hsl
      cases hsl
    · rw [hq c] at hwk
      cases hwk
    · exact hsen hwas
    · exact hrej hgn.2
  have hcal : ∀ c, (played reenrolDuringCall).2.requests c=none := by
    intro c
    match c with
    | 0 => rfl
    | 1 => rfl
    | _+2 => rfl
  have hcallback : ∀ c, (played signOutDuringCallback).2.requests c=none := by
    intro c
    match c with
    | 0 => rfl
    | 1 => rfl
    | _+2 => rfl
  have hsav : ∀ c, (played saveDuringSignOut).2.requests c=none := by
    intro c
    match c with
    | 0 => rfl
    | 1 => rfl
    | _+2 => rfl
  refine ⟨⟨hcal,by decide,by decide,by decide,by decide,
    hlos _ ⟨0,shop,5⟩ hcal (by decide) (by decide) (by decide) (by decide)⟩,
    ⟨hcallback,hlos _ ⟨0,shop,2⟩ hcallback (by decide) (by decide) (by decide) (by decide)⟩,
    hsav,hlos _ ⟨0,shop,2⟩ hsav (by decide) (by decide) (by decide) (by decide)⟩

/-- The account is enrolled twice, rejected, enrolled again and signed out, one
request after the other. -/
def oneByOne : List Action :=
  .createHubSession 0::(enrol 1++enrol 4++[.revoke 0,.resolveHubSession 0 0 1,
    .proxyToTarget 0 3 1,.answer 0 true,.dropSlot 0]++enrol 6++[.resolveHubSession 0 0 1,
    .signOut 0,.endHubSession 0,.revoke 0])

/-- Requests one after the other keep the saved sessions. -/
theorem sessions_kept_one_by_one :
    (played oneByOne).2.sent=[⟨shop,2⟩,⟨shop,7⟩]∧(played oneByOne).2.rejected=[5] ∧
      SessionsKept [shop] (played oneByOne).1 (played oneByOne).2 := by
  have hrun : Run (step [shop]) (fun _ _ _ => True) Store.empty (played oneByOne).1
      (played oneByOne).2 := .play Run.nil oneByOne (by repeat' constructor)
  exact ⟨by decide,by decide,(sessions_kept hrun).2 (by decide)⟩

end SellRight.AdminHubSafety
