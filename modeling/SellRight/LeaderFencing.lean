import SellRight.LeaderLease

/-!
# Fencing of leader-locked passes

What one step may do to lease rows, passes and open transactions, the
invariant of a history that follows from it, and mutual exclusion of the
commits of two passes that claimed one lease name. The argument rests on the
tokens and on the row locks; no step of it compares two times.
-/

namespace SellRight.LeaderFencing

open RowTable RunHistory LeaderLease List

/-- Name and token of the claim a step made. -/
def madeClaim : Action → Outcome → Option (String×String)
  | .claim _, .claimed name token => some (name,token)
  | _, _ => none

/-- What a step that made the given claim, if any, may change. -/
structure Moves (s next : Leases) (made : Option (String×String)) : Prop where
  kept : ∀ row∈s.rows, isLocked s row.name=true →
    ∃ cur∈next.rows, cur.name=row.name∧cur.token=row.token
  /-- A row has the token of the claim made, or had its token before and is not
  the row claimed. -/
  origin : ∀ cur∈next.rows, made=some (cur.name,cur.token) ∨
    (∃ row∈s.rows, row.name=cur.name∧row.token=cur.token) ∧
      ∀ claim, made=some claim→claim.1≠cur.name
  /-- A pass was there before, or entered with the claim made. -/
  passes : ∀ pass∈next.passes, (∃ old∈s.passes, old.name=pass.name∧old.token=pass.token) ∨
      made=some (pass.name,pass.token)
  /-- Passes keep their tokens and at most the pass of the claim enters. -/
  tokens : next.passes.map LeaseFence.token=s.passes.map LeaseFence.token ∨
    ∃ claim, made=some claim ∧
      next.passes.map LeaseFence.token=s.passes.map LeaseFence.token++[claim.2]
  released : ∀ old∈s.passes, old.released=true →
    ∃ pass∈next.passes, pass.token=old.token∧pass.released=true
  /-- A lock was held before, or its row is in force. -/
  locks : ∀ tx∈next.transactions, ∀ lock∈tx.locks, (∃ old∈s.transactions, lock∈old.locks) ∨
      ∃ row∈s.rows, row.name=lock.1∧row.token=lock.2∧next.rows=s.rows
  /-- A lease that needs no more check was checked before, is locked now, or was
  given back. -/
  checked : ∀ tx∈next.transactions, ∀ token∈tx.fences, token∉tx.pending →
    (∃ old∈s.transactions, token∈old.fences∧token∉old.pending∧∀ lock∈old.locks, lock∈tx.locks) ∨
    (∃ lock∈tx.locks, lock.2=token) ∨
    ∃ pass∈s.passes, pass.token=token∧pass.released=true

variable {name token claimant : String} {e : Event Leases Action Outcome}

section Steps

variable {s next : Leases}

/-- A change of the open transactions alone. -/
theorem Moves.transact (hrs : next.rows=s.rows) (hpas : next.passes=s.passes)
    (hloc : ∀ tx∈next.transactions, ∀ lock∈tx.locks, (∃ old∈s.transactions, lock∈old.locks) ∨
        ∃ row∈s.rows, row.name=lock.1∧row.token=lock.2)
    (hche : ∀ tx∈next.transactions, ∀ token∈tx.fences, token∉tx.pending →
      (∃ old∈s.transactions, token∈old.fences∧token∉old.pending∧∀ lock∈old.locks, lock∈tx.locks) ∨
      (∃ lock∈tx.locks, lock.2=token) ∨
      ∃ pass∈s.passes, pass.token=token∧pass.released=true) : Moves s next none where
  kept row hrow _ := ⟨row,hrs ▸ hrow,rfl,rfl⟩
  origin cur hcur := by
    rw [hrs] at hcur
    exact .inr ⟨⟨cur,hcur,rfl,rfl⟩,nofun⟩
  passes pass hpass := .inl ⟨pass,hpas ▸ hpass,rfl,rfl⟩
  tokens := .inl (by rw [hpas])
  released old hold hrel := ⟨old,hpas ▸ hold,rfl,hrel⟩
  locks tx htx lock hlk := by
    rcases hloc tx htx lock hlk with hold|⟨row,hrow,hnm,htok⟩
    · exact .inl hold
    · exact .inr ⟨row,hrow,hnm,htok,hrs⟩
  checked := hche

theorem Moves.same (hrs : next.rows=s.rows) (hpas : next.passes=s.passes)
    (htra : next.transactions=s.transactions) : Moves s next none :=
  .transact hrs hpas (fun tx htx _ hlk => .inl ⟨tx,htra ▸ htx,hlk⟩)
    fun tx htx _ htok hdn => .inl ⟨tx,htra ▸ htx,htok,hdn,fun _ h => h⟩

theorem Moves.rewrite (hfr : isLocked s name=false)
    (hpas : next.passes=s.passes) (htra : next.transactions=s.transactions)
    (hot : ∀ row∈s.rows, row.name≠name → row∈next.rows)
    (hori : ∀ cur∈next.rows, ∃ row∈s.rows, row.name=cur.name∧row.token=cur.token) :
    Moves s next none where
  kept row hrow hloc := by
    have hnm : row.name≠name := by
      intro heq
      rw [heq,hfr] at hloc
      cases hloc
    exact ⟨row,hot row hrow hnm,rfl,rfl⟩
  origin cur hcur := .inr ⟨hori cur hcur,nofun⟩
  passes pass hpass := .inl ⟨pass,hpas ▸ hpass,rfl,rfl⟩
  tokens := .inl (by rw [hpas])
  released old hold hrel := ⟨old,hpas ▸ hold,rfl,hrel⟩
  locks tx htx lock hlk := .inl ⟨tx,htra ▸ htx,hlk⟩
  checked tx htx token htok hdn := .inl ⟨tx,htra ▸ htx,htok,hdn,fun _ h => h⟩

/-- A change of flags and local times of passes. -/
theorem Moves.mark {p : LeaseFence → Bool} {f : LeaseFence → LeaseFence}
    (hnm : ∀ pass, (f pass).name=pass.name) (htok : ∀ pass, (f pass).token=pass.token)
    (hrel : ∀ pass, pass.released=true→(f pass).released=true)
    (hrs : next.rows=s.rows) (hpas : next.passes=updateWhere p f s.passes)
    (htra : ∀ tx∈next.transactions, tx∈s.transactions) : Moves s next none where
  kept row hrow _ := ⟨row,hrs ▸ hrow,rfl,rfl⟩
  origin cur hcur := by
    rw [hrs] at hcur
    exact .inr ⟨⟨cur,hcur,rfl,rfl⟩,nofun⟩
  passes pass hpass := by
    rw [hpas] at hpass
    rcases mem_updateWhere.mp hpass with ⟨old,hold,-,rfl⟩|⟨hold,-⟩
    · exact .inl ⟨old,hold,(hnm old).symm,(htok old).symm⟩
    · exact .inl ⟨pass,hold,rfl,rfl⟩
  tokens := .inl (by rw [hpas,map_updateWhere LeaseFence.token _ fun pass _ => htok pass])
  released old hold hbk := by
    rw [hpas]
    cases hp : p old with
    | true =>
      exact ⟨f old,mem_updateWhere.mpr (.inl ⟨old,hold,hp,rfl⟩),htok old,hrel old hbk⟩
    | false => exact ⟨old,mem_updateWhere.mpr (.inr ⟨hold,hp⟩),rfl,hbk⟩
  locks tx htx lock hlk := .inl ⟨tx,htra tx htx,hlk⟩
  checked tx htx token htok hdn := .inl ⟨tx,htra tx htx,htok,hdn,fun _ h => h⟩

/-- Dropping an open transaction. -/
theorem Moves.rollback (s : Leases) (id : ℕ) : Moves s (rollback s id) none := by
  refine .transact rfl rfl ?_ ?_
  · intro tx htx lock hlk
    exact .inl ⟨tx,(mem_deleteWhere.mp htx).1,hlk⟩
  · intro tx htx token htok hdn
    exact .inl ⟨tx,(mem_deleteWhere.mp htx).1,htok,hdn,fun _ h => h⟩

/-- Marking a pass as having lost its lease changes a flag. -/
theorem Moves.markLost (token : String) (hrs : next.rows=s.rows)
    (hpas : next.passes=markLost token s.passes)
    (htra : ∀ tx∈next.transactions, tx∈s.transactions) : Moves s next none := by
  have hmar : next.passes =
      updateWhere (fun pass => decide (pass.token=token) && !pass.lost && !pass.released)
        (fun pass => {pass with lost := true}) s.passes := hpas
  exact .mark (by simp) (by simp) (by simp) hrs hmar htra

/-- A claim changes rows of its own name only, and only while none is locked. -/
theorem withLeaderLock_moves (s : Leases) (request : Claim) :
    Moves s (withLeaderLock s request).2 (madeClaim (.claim request) (withLeaderLock s request).1) ∧
      ∀ claim, madeClaim (.claim request) (withLeaderLock s request).1=some claim→claim.2=request.token := by
  have hsam : Moves s s none := .same rfl rfl rfl
  have hent : ∀ rows, (∀ row∈s.rows, isLocked s row.name=true → row∈rows) →
      (∀ cur∈rows, cur=claimedRow request ∨
        cur∈s.rows∧cur.name≠leaseName request.job request.scope) →
      Moves s {s with rows := rows,passes := enterPass request s.passes}
        (some (leaseName request.job request.scope,request.token)) := by
    intro rows hkp hori
    refine ⟨fun row hrow hloc => ⟨row,hkp row hrow hloc,rfl,rfl⟩,?_,?_,?_,?_,
      fun tx htx lock hlk => .inl ⟨tx,htx,hlk⟩,
      fun tx htx token htok hdn => .inl ⟨tx,htx,htok,hdn,fun _ h => h⟩⟩
    · intro cur hcur
      rcases hori cur hcur with rfl|⟨hold,hnm⟩
      · exact .inl rfl
      · refine .inr ⟨⟨cur,hold,rfl,rfl⟩,fun claim hcl => ?_⟩
        cases hcl
        exact fun heq => hnm heq.symm
    · intro pass hpas
      cases hans : request.answeredAt with
      | none => exact .inl ⟨pass,by simpa [enterPass,hans] using hpas,rfl,rfl⟩
      | some localNow =>
        have hmem : pass∈s.passes∨pass=⟨leaseName request.job request.scope,request.token,
            false,false,request.ttlMs,localNow⟩ := by
          simpa [enterPass,hans] using hpas
        rcases hmem with hold|rfl
        · exact .inl ⟨pass,hold,rfl,rfl⟩
        · exact .inr rfl
    · cases hans : request.answeredAt with
      | none => exact .inl (by simp [enterPass,hans])
      | some =>
        exact .inr ⟨_,rfl,by simp [enterPass,hans]⟩
    · intro old hold hrel
      refine ⟨old,?_,rfl,hrel⟩
      cases hans : request.answeredAt <;> simp [enterPass,hans,hold]
  unfold withLeaderLock
  simp only
  split
  · exact ⟨hsam,nofun⟩
  split
  · exact ⟨hsam,nofun⟩
  · cases hfin : s.rows.find? fun row =>
        decide (row.name=leaseName request.job request.scope) with
    | none =>
      have hno : ∀ row∈s.rows, row.name≠leaseName request.job request.scope := by
        intro row hrow hnm
        have hfl := find?_eq_none.mp hfin row hrow
        exact hfl (decide_eq_true hnm)
      refine ⟨hent _ (fun row hrow _ => mem_append_left _ hrow) ?_,fun claim h => by cases h; rfl⟩
      intro cur hcur
      rcases mem_append.mp hcur with hold|hnew
      · exact .inr ⟨hold,hno cur hold⟩
      · exact .inl (mem_singleton.mp hnew)
    | some row =>
      simp only
      cases hloc : isLocked s (leaseName request.job request.scope) with
      | true => exact ⟨hsam,fun _ h => by cases h⟩
      | false =>
        by_cases hexp : row.expiresAt≤request.startedAt
        · simp only [hexp,if_true,Bool.false_eq_true,if_false]
          refine ⟨hent _ ?_ ?_,fun claim h => by cases h; rfl⟩
          · intro other hot hhd
            refine mem_updateWhere.mpr (.inr ⟨hot,decide_eq_false fun hnm => ?_⟩)
            rw [hnm,hloc] at hhd
            cases hhd
          · intro cur hcur
            rcases mem_updateWhere.mp hcur with ⟨-,-,-,rfl⟩|⟨hold,hnm⟩
            · exact .inl rfl
            · exact .inr ⟨hold,of_decide_eq_false hnm⟩
        · simp only [hexp,Bool.false_eq_true,if_false]
          exact ⟨hsam,nofun⟩

section
variable (s : Leases) (token : String)

/-- A renewal rewrites the rows of its own lease, only while nobody holds
their lock. -/
theorem renewRow_moves (startedAt readAt : ℤ) :
    Moves s (renewRow s token startedAt readAt).2 none := by
  have heq : Moves s s none := .same rfl rfl rfl
  unfold renewRow
  split
  · exact heq
  · next pass _ =>
    split
    · simp only
      split
      · cases hloc : isLocked s pass.name with
        | true => exact heq
        | false =>
          refine .rewrite hloc rfl rfl ?_ ?_
          · intro row hrow hnm
            refine mem_updateWhere.mpr (.inr ⟨hrow,decide_eq_false fun hmt => ?_⟩)
            exact hnm hmt.1
          · intro cur hcur
            rcases mem_updateWhere.mp hcur with ⟨old,hold,-,rfl⟩|⟨hold,-⟩
            · exact ⟨old,hold,rfl,rfl⟩
            · exact ⟨cur,hold,rfl,rfl⟩
      · exact .same rfl rfl rfl
    · exact heq

/-- A release deletes the row of its own lease, only while nobody holds its
lock. -/
theorem releaseRow_moves :
    Moves s (releaseRow s token).2 none := by
  have heq : Moves s s none := .same rfl rfl rfl
  unfold releaseRow
  split
  · exact heq
  · next pass _ =>
    split
    · simp only
      split_ifs with hwt
      · exact heq
      cases hloc : isLocked s pass.name with
      | false =>
        refine .rewrite hloc rfl rfl ?_ ?_
        · intro row hrow hnm
          refine mem_deleteWhere.mpr ⟨hrow,decide_eq_false fun hmt => ?_⟩
          exact hnm hmt.1
        · intro cur hcur
          exact ⟨cur,(mem_deleteWhere.mp hcur).1,rfl,rfl⟩
      | true =>
        have hno : (s.rows.any fun row =>
            decide (row.name=pass.name∧row.token=token))=false := by
          simpa [hloc] using hwt
        refine .same ?_ rfl rfl
        refine filter_eq_self.mpr fun row hrow => ?_
        have hrt := any_eq_false.mp hno row hrow
        show (!decide (row.name=pass.name∧row.token=token))=true
        rw [Bool.eq_false_iff.mpr hrt]
        rfl
    · exact heq

/-- Hearing how a renewal ended marks a pass at most. -/
theorem renewAnswer_moves (updated : Bool) (localNow : ℤ) :
    Moves s (renewAnswer s token updated localNow).2 none := by
  unfold renewAnswer
  split
  · cases updated with
    | true => exact .mark (by simp) (by simp) (by simp) rfl rfl fun _ h => h
    | false => exact .markLost token rfl rfl fun _ h => h
  · exact .same rfl rfl rfl

/-- The renewal timer marks a pass at most. -/
theorem renewTimer_moves (localNow : ℤ) :
    Moves s (renewTimer s token localNow).2 none := by
  unfold renewTimer
  split
  · exact .same rfl rfl rfl
  · next pass _ =>
    by_cases hlat : pass.ttlMs<localNow-pass.renewedAt
    · exact .markLost token rfl (if_pos hlat) fun _ h => h
    · exact .same rfl (if_neg hlat) rfl

/-- The end of a pass marks it. -/
theorem releasePass_moves :
    Moves s (releasePass s token).2 none := by
  unfold releasePass
  split
  · exact .mark (by simp) (by simp) (by simp) rfl rfl fun _ h => h
  · exact .same rfl rfl rfl

end

/-- A commit drops the transaction. -/
theorem commitStore_moves (s : Leases) (id : ℕ) :
    Moves s (commitStore s id).2 none := by
  unfold commitStore
  split
  · exact .same rfl rfl rfl
  · split
    · exact .rollback s id
    · exact .same rfl rfl rfl

/-- A check locks a row in force, passes a lease given back, or rolls the
transaction back. -/
theorem assertLeasesHeld_moves (s : Leases) (id : ℕ) (readAt : ℤ) :
    Moves s (assertLeasesHeld s id readAt).2 none := by
  have hsam : Moves s s none := .same rfl rfl rfl
  unfold assertLeasesHeld
  cases htx : s.transactions.find? fun tx => decide (tx.id=id) with
  | none => exact hsam
  | some tx =>
    have hmem := mem_of_find?_eq_some htx
    cases hpen : tx.pending with
    | nil =>
      simp only [hpen]
      exact hsam
    | cons token rest =>
      simp only [hpen]
      cases hpas : s.passes.find? fun pass => decide (pass.token=token) with
      | none => exact hsam
      | some pass =>
        obtain ⟨hpassMem,htok⟩ := find_key_eq_some LeaseFence.token hpas
        simp only
        have hsto : ∀ locks : List (String×String), (∀ lock∈tx.locks, lock∈locks) →
            (∀ lock∈locks, lock∈tx.locks∨∃ row∈s.rows, row.name=lock.1∧row.token=lock.2) →
            ((∃ lock∈locks, lock.2=token)∨∃ pass∈s.passes, pass.token=token∧pass.released=true) →
            Moves s (storeTransaction s {tx with pending := rest,locks := locks}) none := by
          intro locks hkee hori hdn
          refine .transact rfl rfl ?_ ?_
          · intro cur hcur lock hlk
            rcases mem_updateWhere.mp hcur with ⟨-,-,-,rfl⟩|⟨hold,-⟩
            · rcases hori lock hlk with hhd|hrow
              · exact .inl ⟨tx,hmem,hhd⟩
              · exact .inr hrow
            · exact .inl ⟨cur,hold,hlk⟩
          · intro cur hcur other hot hche
            rcases mem_updateWhere.mp hcur with ⟨-,-,-,rfl⟩|⟨hold,-⟩
            · by_cases heq : other=token
              · subst heq
                exact .inr hdn
              · refine .inl ⟨tx,hmem,hot,?_,hkee⟩
                rw [hpen]
                simpa [heq] using hche
            · exact .inl ⟨cur,hold,hot,hche,fun _ h => h⟩
        split
        · exact .rollback s id
        split
        · next hrel =>
          exact hsto tx.locks (fun _ h => h) (fun _ h => .inl h) (.inr ⟨pass,hpassMem,htok,hrel⟩)
        split
        · next hhd =>
          obtain ⟨row,hrow,hmt⟩ := any_eq_true.mp hhd
          obtain ⟨hnm,hrowT,-⟩ := of_decide_eq_true hmt
          refine hsto ((pass.name,token)::tx.locks) (fun _ h => mem_cons_of_mem _ h) ?_
            (.inl ⟨(pass.name,token),mem_cons_self,rfl⟩)
          intro lock hlk
          rcases mem_cons.mp hlk with rfl|hold
          · exact .inr ⟨row,hrow,hnm,hrowT⟩
          · exact .inl hold
        · exact .mark (by simp) (by simp) (by simp) rfl rfl
            fun cur hcur => (mem_deleteWhere.mp hcur).1

theorem step_moves (s : Leases) (a : Action) : Moves s (step s a).2 (madeClaim a (step s a).1) := by
  cases a with
  | tick => exact .same rfl rfl rfl
  | claim request => exact (withLeaderLock_moves s request).1
  | renewTimer token localNow => exact renewTimer_moves s token localNow
  | renew token startedAt readAt => exact renewRow_moves s token startedAt readAt
  | renewAnswer token updated localNow => exact renewAnswer_moves s token updated localNow
  | release token => exact releasePass_moves s token
  | releaseRow token => exact releaseRow_moves s token
  | start =>
    refine .transact rfl rfl ?_ ?_
    · intro tx htx lock hlk
      rcases mem_append.mp htx with hold|hnew
      · exact .inl ⟨tx,hold,hlk⟩
      · rw [mem_singleton.mp hnew] at hlk
        cases hlk
    · intro tx htx token htok hdn
      rcases mem_append.mp htx with hold|hnew
      · exact .inl ⟨tx,hold,htok,hdn,fun _ h => h⟩
      · rw [mem_singleton.mp hnew] at htok hdn
        exact absurd htok hdn
  | assertHeld id readAt => exact assertLeasesHeld_moves s id readAt
  | commit id => exact commitStore_moves s id
  | abort id => exact .rollback s id

end Steps

/-- Two steps made no claims of one token. -/
def DistinctClaims (e other : Event Leases Action Outcome) : Prop :=
  ∀ claim claim', madeClaim e.action e.result=some claim →
    madeClaim other.action other.result=some claim'→claim.2≠claim'.2

/-- Distinctness of claims does not depend on their order. -/
theorem distinctClaims_symm : Std.Symm DistinctClaims :=
  ⟨fun _ _ hdis claim claim' hcl hcl' =>
    (hdis claim' claim hcl' hcl).symm⟩

/-- What a history of claims leaves behind. -/
structure Fenced (h : LeaseHistory) (s : Leases) : Prop where
  drawn : ∀ e∈h, ∀ claim, madeClaim e.action e.result=some claim →
    ∃ request, e.action=.claim request∧request.token=claim.2
  unique : h.Pairwise DistinctClaims
  claimed : ∀ row∈s.rows, ∃ e∈h, madeClaim e.action e.result=some (row.name,row.token)
  /-- No claim of its name was made after the claim a row is from. -/
  latest : ∀ row∈s.rows, h.Pairwise fun e later =>
    madeClaim e.action e.result=some (row.name,row.token) →
      ∀ claim, madeClaim later.action later.result=some claim→claim.1≠row.name
  passes : ∀ pass∈s.passes, ∃ e∈h, madeClaim e.action e.result=some (pass.name,pass.token)
  tokens : (s.passes.map LeaseFence.token).Nodup
  locks : ∀ tx∈s.transactions, ∀ lock∈tx.locks, ∃ row∈s.rows, row.name=lock.1∧row.token=lock.2
  /-- A lease that needs no more check is locked or was given back. -/
  checked : ∀ tx∈s.transactions, ∀ token∈tx.fences, token∉tx.pending →
    (∃ lock∈tx.locks, lock.2=token)∨∃ pass∈s.passes, pass.token=token∧pass.released=true

section Histories

variable {h : LeaseHistory} {s : Leases}

/-- Nothing is claimed in an empty table. -/
theorem fenced_opening (clock : ℤ) : Fenced [] (openingLeases clock) := by
  refine ⟨?_,Pairwise.nil,?_,?_,?_,nodup_nil,?_,?_⟩ <;> simp [openingLeases]

variable {tx : StoreTransaction}

/-- A held lock marks its name as locked. -/
theorem isLocked_of_lock {lock : String×String}
    (htx : tx∈s.transactions) (hlk : lock∈tx.locks) : isLocked s lock.1=true :=
  any_eq_true.mpr ⟨tx,htx,any_eq_true.mpr ⟨lock,hlk,decide_eq_true rfl⟩⟩

variable {a : Action}
variable {claim : String×String}

theorem step_claim
    (hmad : madeClaim a (step s a).1=some claim) :
    ∃ request, a=.claim request∧request.token=claim.2 := by
  cases a with
  | claim request => exact ⟨request,rfl,((withLeaderLock_moves s request).2 claim hmad).symm⟩
  | _ => cases hmad

theorem Fenced.fresh (hfen : Fenced h s) (hpos : Possible h s a) (hmad : madeClaim a (step s a).1=some claim) :
    ∀ e∈h, ∀ other, madeClaim e.action e.result=some other → other.2≠claim.2 := by
  obtain ⟨request,rfl,htok⟩ := step_claim hmad
  intro e he other hot
  obtain ⟨earlier,hact,hear⟩ := hfen.drawn e he other hot
  intro heq
  refine hpos.2 e he ?_
  rw [hact,drawnToken,hear,heq,htok]

/-- One possible step keeps what the history of claims leaves behind. -/
theorem step_fenced (hfen : Fenced h s) (hpos : Possible h s a) :
    Fenced (h++[perform step s a]) (step s a).2 := by
  have hmvs := step_moves s a
  have hfre : ∀ claim, madeClaim a (step s a).1=some claim →
      ∀ e∈h, ∀ other, madeClaim e.action e.result=some other → other.2≠claim.2 :=
    fun claim hmad => hfen.fresh hpos hmad
  have hlt : perform step s a∈h++[perform step s a] := by simp
  have hpa : ∀ e∈h, e∈h++[perform step s a] := fun e he => mem_append_left _ he
  refine ⟨?_,?_,?_,?_,?_,?_,?_,?_⟩
  · intro e he claim hmad
    rcases mem_append.mp he with hold|hnew
    · exact hfen.drawn e hold claim hmad
    · rw [mem_singleton.mp hnew] at hmad ⊢
      exact step_claim hmad
  · rw [pairwise_append]
    refine ⟨hfen.unique,pairwise_singleton _ _,fun e he later hlat => ?_⟩
    rw [mem_singleton.mp hlat]
    exact fun claim other hmad hot => hfre other hot e he claim hmad
  · intro row hrow
    rcases hmvs.origin row hrow with hmad|⟨⟨old,hold,hnm,htok⟩,-⟩
    · exact ⟨_,hlt,hmad⟩
    · obtain ⟨e,he,hmad⟩ := hfen.claimed old hold
      rw [hnm,htok] at hmad
      exact ⟨e,hpa e he,hmad⟩
  · intro row hrow
    rw [pairwise_append]
    rcases hmvs.origin row hrow with hmad|⟨⟨old,hold,hnm,htok⟩,hot⟩
    · have hno : ∀ e∈h, madeClaim e.action e.result≠some (row.name,row.token) :=
        fun e he heq => hfre _ hmad e he _ heq rfl
      refine ⟨?_,pairwise_singleton _ _,fun e he _ _ heq => absurd heq (hno e he)⟩
      exact pairwise_of_forall_mem_list fun e he _ _ heq => absurd heq (hno e he)
    · have hbef := hfen.latest old hold
      rw [hnm,htok] at hbef
      refine ⟨hbef,pairwise_singleton _ _,fun e _ later hlat _ claim hcl => ?_⟩
      rw [mem_singleton.mp hlat] at hcl
      exact hot claim hcl
  · intro pass hpas
    rcases hmvs.passes pass hpas with ⟨old,hold,hnm,htok⟩|hmad
    · obtain ⟨e,he,hmad⟩ := hfen.passes old hold
      rw [hnm,htok] at hmad
      exact ⟨e,hpa e he,hmad⟩
    · exact ⟨_,hlt,hmad⟩
  · rcases hmvs.tokens with hsam|⟨claim,hmad,htoke⟩
    · rw [hsam]
      exact hfen.tokens
    rw [htoke]
    refine nodup_concat_iff.mpr ⟨fun htok => ?_,hfen.tokens⟩
    obtain ⟨pass,hpas,heq⟩ := mem_map.mp htok
    obtain ⟨e,he,hpassMade⟩ := hfen.passes pass hpas
    exact hfre claim hmad e he _ hpassMade heq
  · intro tx htx lock hlk
    rcases hmvs.locks tx htx lock hlk with ⟨old,hold,hhd⟩|⟨row,hrow,hnm,htok,hrs⟩
    · obtain ⟨row,hrow,hnm,htok⟩ := hfen.locks old hold lock hhd
      have hloc : isLocked s row.name=true := by
        rw [hnm]
        exact isLocked_of_lock hold hhd
      obtain ⟨cur,hcur,hcurN,hcurT⟩ := hmvs.kept row hrow hloc
      exact ⟨cur,hcur,hcurN.trans hnm,hcurT.trans htok⟩
    · exact ⟨row,hrs ▸ hrow,hnm,htok⟩
  · intro tx htx token htok hdn
    have hbk : (∃ pass∈s.passes, pass.token=token∧pass.released=true) →
        ∃ pass∈(step s a).2.passes, pass.token=token∧pass.released=true := by
      rintro ⟨pass,hpas,hpassToken,hrel⟩
      obtain ⟨cur,hcur,hcurT,hcurR⟩ := hmvs.released pass hpas hrel
      exact ⟨cur,hcur,hcurT.trans hpassToken,hcurR⟩
    rcases hmvs.checked tx htx token htok hdn with
      ⟨old,hold,holdT,holdD,hlocks⟩|hlk|hrel
    · rcases hfen.checked old hold token holdT holdD with ⟨lock,hlk,heq⟩|hrel
      · exact .inl ⟨lock,hlocks lock hlk,heq⟩
      · exact .inr (hbk hrel)
    · exact .inl hlk
    · exact .inr (hbk hrel)

/-- Every history from an empty table is fenced. -/
theorem run_fenced {clock : ℤ} (hrun : Run step Possible (openingLeases clock) h s) :
    Fenced h s := by
  refine hrun.invariant (fenced_opening clock) ?_
  intro past cur a hfen hpos
  exact step_fenced hfen hpos

variable {other : Event Leases Action Outcome}

theorem Fenced.claim_name (hfen : Fenced h s)
    (he : e∈h) (hot : other∈h) {name' : String}
    (hmad : madeClaim e.action e.result=some (name,token))
    (hoth : madeClaim other.action other.result=some (name',token)) : name=name' := by
  by_cases heq : e=other
  · rw [heq,hoth] at hmad
    exact (congrArg Prod.fst (Option.some.inj hmad)).symm
  · have hsym := distinctClaims_symm
    have hdif := hfen.unique.forall he hot heq
    exact absurd (show (name,token).2=(name',token).2 from rfl) (hdif _ _ hmad hoth)

/-- Once another token claimed the lease of a pass, no row has the token of
that pass. -/
theorem Fenced.superseded (hfen : Fenced h s)
    {earlier later : LeaseHistory}
    (hspl : h=earlier++e::later) (hmad : madeClaim e.action e.result=some (name,token))
    (hot : other∈later) (hcla : madeClaim other.action other.result=some (name,claimant)) :
    ∀ row∈s.rows, row.token≠token := by
  intro row hrow htok
  obtain ⟨origin,horig,hori⟩ := hfen.claimed row hrow
  have he : e∈h := by
    rw [hspl]
    simp
  have hnm : row.name=name := by
    rw [htok] at hori
    exact hfen.claim_name horig he hori hmad
  have hlate := hfen.latest row hrow
  rw [hspl,pairwise_append] at hlate
  have hlat := (pairwise_cons.mp hlate.2.1).1 other hot
  rw [hnm,htok] at hlat
  exact hlat hmad _ hcla rfl

section
variable (hno : ∀ row∈s.rows, row.token≠token)
include hno

theorem renewRow_superseded (startedAt readAt : ℤ) : (renewRow s token startedAt readAt).2.rows=s.rows := by
  unfold renewRow
  split
  · rfl
  · next pass _ =>
    have hmat : (s.rows.any fun row =>
        decide (row.name=pass.name∧row.token=token∧readAt<row.expiresAt))=false := by
      refine any_eq_false.mpr fun row hrow hmt => ?_
      exact hno row hrow (of_decide_eq_true hmt).2.1
    split
    · simp only [hmat,Bool.false_eq_true,if_false]
    · rfl

theorem releaseRow_superseded :
    (releaseRow s token).2.rows=s.rows := by
  unfold releaseRow
  split
  · rfl
  · next pass _ =>
    have hrt : ∀ row∈s.rows, decide (row.name=pass.name∧row.token=token)=false :=
      fun row hrow => decide_eq_false fun hmt => hno row hrow hmt.2
    split
    · simp only
      split
      · rfl
      refine filter_eq_self.mpr fun row hrow => ?_
      show (!decide (row.name=pass.name∧row.token=token))=true
      rw [hrt row hrow]
      rfl
    · rfl

end

/-- A pass that commits before it gives its lease back has the row of its lease
in force. -/
theorem Fenced.committed (hfen : Fenced h s) {id : ℕ}
    (hcom : (commitStore s id).1=.committed tx) {pass : LeaseFence} (hpas : pass∈s.passes)
    (hfence : pass.token∈tx.fences) (hrel : pass.released=false) :
    ∃ row∈s.rows, row.token=pass.token := by
  unfold commitStore at hcom
  cases hfin : s.transactions.find? fun tx => decide (tx.id=id) with
  | none =>
    rw [hfin] at hcom
    cases hcom
  | some =>
    rw [hfin] at hcom
    simp only at hcom
    split_ifs at hcom with hpen
    cases hcom
    have htx := mem_of_find?_eq_some hfin
    have hdn : pass.token∉tx.pending := by
      rw [hpen]
      exact not_mem_nil
    rcases hfen.checked tx htx pass.token hfence hdn with ⟨lock,hlk,heq⟩|hbk
    · obtain ⟨row,hrow,-,htok⟩ := hfen.locks tx htx lock hlk
      exact ⟨row,hrow,htok.trans heq⟩
    obtain ⟨other,hot,hothe,hoth⟩ := hbk
    have hsam := eq_of_key_eq LeaseFence.token hfen.tokens hot hpas hothe
    rw [hsam,hrel] at hoth
    cases hoth

/-- The step at a position of a history claimed a lease under a token. -/
def ClaimedAt (h : LeaseHistory) (i : ℕ) (name token : String) : Prop :=
  ∃ e request, h[i]?=some e∧e.action=.claim request∧e.result=.claimed name token

/-- The step at a position of a history committed a store transaction of a
pass that had not given its lease back. -/
def CommittedAt (h : LeaseHistory) (i : ℕ) (token : String) : Prop :=
  ∃ e id tx, h[i]?=some e∧e.action=.commit id∧e.result=.committed tx ∧
    token∈tx.fences∧∃ pass∈e.before.passes, pass.token=token∧pass.released=false

/-- The step at a position of a history was a renewal or a release of a pass
reaching the database. -/
def TouchedAt (h : LeaseHistory) (i : ℕ) (token : String) (e : Event Leases Action Outcome) : Prop :=
  h[i]?=some e ∧
    ((∃ startedAt readAt, e.action=.renew token startedAt readAt)∨e.action=.releaseRow token)

/-- A position of a history splits it. -/
theorem split_at {k : ℕ} (he : h[k]?=some e) :
    h=h.take k++e::h.drop (k+1) := by
  obtain ⟨hk,rfl⟩ := List.getElem?_eq_some_iff.mp he
  rw [getElem_cons_drop,take_append_drop]

section
variable {clock : ℤ} (hrun : Run step Possible (openingLeases clock) h s)
include hrun

theorem fenced_at {k : ℕ} (he : h[k]?=some e) :
    Fenced (h.take k) e.before∧e=perform step e.before e.action := by
  rw [split_at he] at hrun
  obtain ⟨hpa,-,hper⟩ := hrun.split
  exact ⟨run_fenced hpa,hper⟩

/-- After a claim by another token, no later step meets a row of the old pass. -/
theorem superseded_at {i j k : ℕ} (hcl : ClaimedAt h i name token)
    (hot : ClaimedAt h j name claimant) (hij : i<j) (hjk : j<k) (he : h[k]?=some e) :
    ∀ row∈e.before.rows, row.token≠token := by
  obtain ⟨first,request,hfst,hfir,hfirs⟩ := hcl
  obtain ⟨second,request',hsec,hseco,hsecondResult⟩ := hot
  have hfirstTake : (h.take k)[i]?=some first := by
    rw [getElem?_take_of_lt (by omega),hfst]
  have hmad : madeClaim first.action first.result=some (name,token) := by
    rw [hfir,hfirs]
    rfl
  have hcla : madeClaim second.action second.result=some (name,claimant) := by
    rw [hseco,hsecondResult]
    rfl
  have hlat : second∈(h.take k).drop (i+1) := by
    refine mem_iff_getElem?.mpr ⟨j-(i+1),?_⟩
    rw [getElem?_drop,getElem?_take_of_lt (by omega)]
    rw [show i+1+(j-(i+1))=j by omega,hsec]
  exact (fenced_at hrun he).1.superseded (split_at hfirstTake) hmad hlat hcla

theorem committed_at {k : ℕ} (hcomm : CommittedAt h k token) :
    ∃ e, h[k]?=some e∧∃ row∈e.before.rows, row.token=token := by
  obtain ⟨e,id,tx,he,hact,hres,hfen,pass,hpas,rfl,hrel⟩ := hcomm
  obtain ⟨hfenc,hper⟩ := fenced_at hrun he
  have hcom : (commitStore e.before id).1=.committed tx := by
    rw [← hres,hper,hact]
    rfl
  exact ⟨e,he,hfenc.committed hcom hpas hfen hrel⟩

/-- Every commit of a pass before it gives its lease back precedes the claim
of its lease by a later token. -/
theorem commits_precede {i j : ℕ} (hcl : ClaimedAt h i name token)
    (hot : ClaimedAt h j name claimant) (hij : i<j) :
    ∀ k, CommittedAt h k token→k<j := by
  intro k hcommitted
  by_contra hlat
  obtain ⟨e,he,row,hrow,htok⟩ := committed_at hrun hcommitted
  have hne : j≠k := by
    rintro rfl
    obtain ⟨_,request,hsec,hact,-⟩ := hot
    obtain ⟨_,id,_,hcom,hcomm,-⟩ := hcommitted
    rw [hsec] at hcom
    cases hcom
    rw [hact] at hcomm
    cases hcomm
  exact superseded_at hrun hcl hot hij (by omega) he row hrow htok

end

/-- Of two passes that claimed one lease name, all commits of one before it
gave its lease back precede the claim of the other; and once another token
claimed the lease of a pass, no renewal and no release of that pass changes a
lease row. -/
theorem leases_exclude {clock : ℤ} (hrun : Run step Possible (openingLeases clock) h s)
    {name token claimant : String} {i j : ℕ} (hclaim : ClaimedAt h i name token)
    (hother : ClaimedAt h j name claimant) (hne : token≠claimant) :
    ((∀ k, CommittedAt h k token→k<j)∨(∀ k, CommittedAt h k claimant→k < i)) ∧
      (i<j→∀ k e, j<k → TouchedAt h k token e→e.after.rows=e.before.rows) := by
  have hdif : i≠j := by
    rintro rfl
    obtain ⟨_,_,hfst,-,hfir⟩ := hclaim
    obtain ⟨_,_,hsec,-,hseco⟩ := hother
    rw [hfst] at hsec
    cases hsec
    rw [hfir] at hseco
    cases hseco
    exact hne rfl
  constructor
  · rcases Nat.lt_or_gt_of_ne hdif with hij|hji
    · exact .inl (commits_precede hrun hclaim hother hij)
    · exact .inr (commits_precede hrun hother hclaim hji)
  intro hij k e hjk htou
  obtain ⟨he,hact⟩ := htou
  have hno := superseded_at hrun hclaim hother hij hjk he
  have haft : e.after=(step e.before e.action).2 :=
    congrArg Event.after (fenced_at hrun he).2
  rw [haft]
  rcases hact with ⟨startedAt,readAt,hact⟩|hact
  · rw [hact]
    exact renewRow_superseded hno startedAt readAt
  · rw [hact]
    exact releaseRow_superseded hno

/-- Claim of the webhook drain under a token, started at a time. -/
def drainClaim (token : String) (startedAt : ℤ) : Claim :=
  ⟨"webhooks",none,token, "host",leaseTtlMs,startedAt,[],some 0⟩

/-- A pass commits once and then sleeps past its lease. Another pass takes the
lease over and commits; what the first pass does after waking up is refused. -/
def sleepingPass : List Action :=
  [.claim (drainClaim "first" 0),.start 0 ["first"],.assertHeld 0 0,.commit 0,
    .start 1 ["first"],.renewTimer "first" 20000,.tick 70000,.claim (drainClaim "second" 65000),
    .start 2 ["second"],.renew "first" 69000 70000,.assertHeld 2 70000,.assertHeld 1 70000,
    .commit 2,.commit 1]

/-- The commit of the sleeping pass precedes the other pass's claim, and its
late renewal changes nothing. -/
theorem leases_exclude_sleeping : let h := (play step [] (openingLeases 0) sleepingPass).1
    h.map Event.result=[.claimed "webhooks" "first",.done,.done,
      .committed ⟨0,["first"],[],[("webhooks", "first")]⟩,.done,.done,.done,
      .claimed "webhooks" "second",.done,.done,.done,.leaseLost "webhooks",
      .committed ⟨2,["second"],[],[("webhooks", "second")]⟩,.waits] ∧
    ((∀ k, CommittedAt h k "first" → k<7)∨(∀ k, CommittedAt h k "second" → k<0)) ∧
      (0<7→∀ k e, 7<k → TouchedAt h k "first" e→e.after.rows=e.before.rows) := by
  have hnil : Run step Possible (openingLeases 0) [] (openingLeases 0) := .nil
  have hrun := hnil.play sleepingPass (by decide)
  exact ⟨by decide,leases_exclude hrun ⟨_,_,rfl,rfl,rfl⟩ ⟨_,_,rfl,rfl,rfl⟩ (by decide)⟩

end Histories

end SellRight.LeaderFencing
