import SellRight.GatewayPayments

/-!
# One charge in flight

Every call is made once and for what was due when its attempt was stored, a key stores
one attempt for each number of settled payments, and a settled attempt stays as it is.
At most one charge or session is unresolved as long as no verification reopens a
failed one beside it.
-/

namespace SellRight.GatewayPaymentSafety

open RowTable RunHistory GatewayPayments List
open SezzleRecovery (AttemptStatus Order PaymentResult statusOf)

variable {w : World} {s s' : Shop} {answer : Answer}

/-- A run of the shop. -/
abbrev History := List (Event Shop Action Answer)

/-- The attempt is an unresolved charge or session of the order. -/
def inFlight (s : Shop) (a : Attempt) : Bool := isCharge s.order.id a&&isActive a.status

/-- The verification gets the pay lock and would reopen a failed charge or session. -/
def reopens (s : Shop) (id : ℕ) (reading : Reading) : Bool :=
  s.call.isNone&&(s.verifications.find? fun v => decide (v.id=id)).any fun v =>
    (findAttempt s v.snapshot.id).any fun a =>
      isCharge s.order.id a&&decide (a.status=.failed) &&
        (readResult v.snapshot reading).any fun r => isActive (statusOf r.1)

/-- A verification that reopens a failed attempt finds no other one in flight. -/
def Calm (e : Event Shop Action Answer) : Prop :=
  match e.action with
  | .endVerification id reading =>
    reopens e.before id reading=true→∀ b∈e.before.attempts, inFlight e.before b=false
  | _ => True

instance : DecidablePred Calm := by
  intro e
  unfold Calm
  split <;> infer_instance

/-- An order without charges or sessions, and nothing under way. -/
structure Opening (s : Shop) : Prop where
  ids : (s.attempts.map Attempt.id).Nodup
  attempts : ∀ a∈s.attempts, isCharge s.order.id a=false
  call : s.call=none
  verifications : s.verifications=[]

/-- What holds of the shop in every run. -/
structure Sound (s : Shop) : Prop where
  ids : (s.attempts.map Attempt.id).Nodup
  /-- The open call has stored its attempt, and nobody else has written it. -/
  call : ∀ c, s.call=some c→∃ a∈s.attempts, a.id=c.attemptId ∧
    isCharge s.order.id a=true∧a.status=.processing
  /-- An attempt that was read as settled is settled. -/
  snapshots : ∀ v∈s.verifications, ∃ a∈s.attempts, a.id=v.snapshot.id ∧
    (isCharge s.order.id a=true→v.snapshot.status=.settled→a.status=.settled)

/-- A rewrite of a row that leaves what identifies it. -/
structure Keeps (s : Shop) (id : String) (f : Attempt → Attempt) : Prop where
  same : ∀ a∈s.attempts, a.id=id→(f a).id=a.id
  charge : ∀ a∈s.attempts, a.id=id→isCharge s.order.id (f a)=isCharge s.order.id a
  key : ∀ a∈s.attempts, a.id=id→isCharge s.order.id a=true→(f a).idempotencyKey=a.idempotencyKey

variable {id : String} {calm : Prop}
variable {f : Attempt → Attempt}

/-- A rewrite that leaves what identifies every row. -/
theorem Keeps.of_all (hid : ∀ a, (f a).id=a.id)
    (hcha : ∀ a, isCharge s.order.id (f a)=isCharge s.order.id a)
    (hkey : ∀ a, (f a).idempotencyKey=a.idempotencyKey) : Keeps s id f :=
  ⟨fun a _ _ => hid a,fun a _ _ => hcha a,fun a _ _ _ => hkey a⟩

/-- Charges and sessions of the order are kept, and settled ones stay as they are. -/
structure Kept (s s' : Shop) : Prop where
  order : s'.order.id=s.order.id
  rows : ∀ a∈s.attempts, isCharge s.order.id a=true→∃ a'∈s'.attempts, a'.id=a.id ∧
    isCharge s'.order.id a'=true∧a'.idempotencyKey=a.idempotencyKey ∧
    (a.status=.settled→a'.status=.settled∧a'.providerRef=a.providerRef)
  ids : ∀ a∈s.attempts, ∃ a'∈s'.attempts, a'.id=a.id∧isCharge s'.order.id a'=isCharge s.order.id a

theorem Kept.of_same (hatt : s'.attempts=s.attempts) (hord : s'.order.id=s.order.id) :
    Kept s s' := by
  refine ⟨hord,fun a ha hcha => ?_,fun a ha => ⟨a,hatt ▸ ha,rfl,by rw [hord]⟩⟩
  exact ⟨a,hatt ▸ ha,rfl,hord ▸ hcha,rfl,fun hset => ⟨hset,rfl⟩⟩

/-- A new row keeps the others. -/
theorem Kept.of_append {row : Attempt} (hatt : s'.attempts=s.attempts++[row])
    (hord : s'.order.id=s.order.id) : Kept s s' := by
  have hmem : ∀ a∈s.attempts, a∈s'.attempts := fun a ha => hatt ▸ mem_append_left _ ha
  refine ⟨hord,fun a ha hcha => ?_,fun a ha => ⟨a,hmem a ha,rfl,by rw [hord]⟩⟩
  exact ⟨a,hmem a ha,rfl,hord ▸ hcha,rfl,fun hset => ⟨hset,rfl⟩⟩

theorem Kept.of_update (hkee : Keeps s id f)
    (hatt : s'.attempts=updateWhere (fun a => decide (a.id=id)) f s.attempts)
    (hord : s'.order.id=s.order.id)
    (hop : ∀ a∈s.attempts, a.id=id→isCharge s.order.id a=true→a.status≠.settled) : Kept s s' := by
  have hmem : ∀ a∈s.attempts, (if decide (a.id=id)=true then f a else a)∈s'.attempts := by
    intro a ha
    rw [hatt]
    exact mem_map.mpr ⟨a,ha,rfl⟩
  refine ⟨hord,fun a ha hcha => ⟨_,hmem a ha,?_⟩,fun a ha => ⟨_,hmem a ha,?_⟩⟩
  · rw [hord]
    by_cases hid : a.id=id
    · rw [if_pos (decide_eq_true hid),hkee.same a ha hid,hkee.charge a ha hid,
        hkee.key a ha hid hcha]
      exact ⟨rfl,hcha,rfl,fun hset => absurd hset (hop a ha hid hcha)⟩
    · rw [if_neg (by simp [hid])]
      exact ⟨rfl,hcha,rfl,fun hset => ⟨hset,rfl⟩⟩
  · rw [hord]
    by_cases hid : a.id=id
    · rw [if_pos (decide_eq_true hid),hkee.same a ha hid,hkee.charge a ha hid]
      exact ⟨rfl,rfl⟩
    · rw [if_neg (by simp [hid])]
      exact ⟨rfl,rfl⟩

/-- A row found by its identifier is stored under it. -/
theorem findAttempt_eq_some {a : Attempt}
    (h : findAttempt s id=some a) : a∈s.attempts∧a.id=id :=
  find_key_eq_some Attempt.id h

theorem keeps_finishedRow (id : String) (o : Order) (mode : String) (result : PaymentResult) :
    Keeps s id (finishedRow o mode result) :=
  Keeps.of_all (fun _ => rfl) (fun _ => rfl) fun _ => rfl

theorem isActive_iff (status : AttemptStatus) :
    isActive status=true ↔ status≠.settled∧status≠.failed := by
  cases status <;> simp [isActive]

/-- The answer neither stores an attempt nor calls the provider. -/
def Silent (answer : Answer) : Prop :=
  ∀ id amount, answer≠.stored id amount∧answer≠.called id amount

/-- Open verifications have read stored attempts. -/
def Traced (s s' : Shop) : Prop := ∀ v∈s'.verifications, v∈s.verifications∨v.snapshot∈s.attempts

/-- What a step did. -/
inductive Effect (s : Shop) (calm : Prop) : Answer → Shop → Prop
  | idle {answer : Answer} {s' : Shop} : Silent answer→s'.attempts=s.attempts →
      s'.order.id=s.order.id→(s'.call=s.call∨s'.call=none) → Traced s s' →
      Effect s calm answer s'
  | stored (row : Attempt) (method : GatewayMethod) : s.call=none→hasActive s=false →
      (∀ a∈s.attempts, a.id≠row.id)→isCharge s.order.id row=true →
      row.status=.processing →
      Effect s calm (.stored row.id s.order.due) {s with
        attempts := s.attempts++[row]
        call := some ⟨row.id,s.order.due,method,false⟩}
  | called (c : Call) : s.call=some c→c.called=false →
      Effect s calm (.called c.attemptId c.amount) {s with call := some {c with called := true}}
  | rewritten {answer : Answer} {s' : Shop} (id : String) (f : Attempt → Attempt) :
      Silent answer → Keeps s id f →
      s'.attempts=updateWhere (fun a => decide (a.id=id)) f s.attempts →
      s'.order.id=s.order.id → Traced s s' →
      (s'.call=none∨s'.call=s.call∧∀ a∈s.attempts, a.id=id→isCharge s.order.id a=false) →
      (∀ a∈s.attempts, a.id=id→isCharge s.order.id a=true→a.status≠.settled) →
      (calm→∀ a∈s.attempts, a.id=id→inFlight s' (f a)=true →
        inFlight s a=true∨∀ b∈s.attempts, inFlight s b=false) →
      Effect s calm answer s'
  | added {answer : Answer} {s' : Shop} (row : Attempt) : Silent answer →
      isCharge s.order.id row=false→(∀ a∈s.attempts, a.id≠row.id) →
      s'.attempts=s.attempts++[row]→s'.order.id=s.order.id→s'.call=s.call →
      Traced s s' → Effect s calm answer s'

/-- Nothing was written. -/
theorem Effect.same (hsil : Silent answer) : Effect s calm answer s :=
  Effect.idle hsil rfl rfl (.inl rfl) fun _ hv => .inl hv

section
variable (w : World) (s : Shop) (id : String) (result : PaymentResult) (testMode : Bool)

theorem finishAttempt_cases : (finishAttempt w s id result testMode).2=s ∨
    ∃ a o mode, findAttempt s id=some a∧a.status≠.settled∧o.id=s.order.id ∧
      (finishAttempt w s id result testMode).2 =
        updateAttempt {s with order := o} id (finishedRow o mode result) := by
  unfold finishAttempt
  cases hfd : findAttempt s id with
  | none => exact .inl rfl
  | some a =>
    dsimp only
    split_ifs with hset
    · exact .inl rfl
    cases happ : appliedOrder w s.order a (resultMode a result testMode) result with
    | none => exact .inl rfl
    | some o =>
      refine .inr ⟨a,o,resultMode a result testMode,rfl,hset,?_,rfl⟩
      unfold appliedOrder at happ
      cases href : result.providerRef with
      | none =>
        rw [href] at happ
        cases happ
        rfl
      | some =>
        rw [href] at happ
        obtain ⟨o',-,rfl⟩ := Option.map_eq_some_iff.mp happ
        rfl

theorem finishAttempt_silent : Silent (finishAttempt w s id result testMode).1 := by
  unfold finishAttempt
  intro id' amount
  split
  · exact ⟨nofun,nofun⟩
  split
  · exact ⟨nofun,nofun⟩
  dsimp only
  split
  · exact ⟨nofun,nofun⟩
  · exact ⟨nofun,nofun⟩

end

theorem silent_refused (status : ℕ) (message : String) : Silent (.refused status message) :=
  fun _ _ => ⟨nofun,nofun⟩

theorem silent_replay (s : Shop) (i : StartInput) (account : Account) (existing : Attempt) :
    Silent (replay s i account existing) := by
  have hrep : Silent (.replayed existing.id) :=
    fun _ _ => ⟨nofun,nofun⟩
  unfold replay
  split_ifs
  · exact silent_refused _ _
  · exact hrep
  · exact silent_refused _ _
  · exact silent_refused _ _
  · exact hrep

structure Stores (w : World) (s : Shop) (i : StartInput) (account : Account) (answer : Answer)
    (s' : Shop) : Prop where
  call : s.call=none
  replays : replays s i.idempotencyKey=none
  /-- No attempt of the order is unresolved. -/
  active : hasActive s=false
  taken : isTaken s i.attemptId (attemptKey s.order i.idempotencyKey)=false
  answer : answer=.stored i.attemptId s.order.due
  after : s' = {s with
    attempts := s.attempts++[newAttempt w s i account]
    call := some ⟨i.attemptId,s.order.due,i.method,false⟩}

section
variable (w : World) (s : Shop) (i : StartInput)

theorem startGatewayPayment_cases :
    (Silent (startGatewayPayment w s i).1∧(startGatewayPayment w s i).2=s)∨∃ account,
        Stores w s i account (startGatewayPayment w s i).1 (startGatewayPayment w s i).2 := by
  unfold startGatewayPayment
  by_cases hcal : s.call.isSome=true
  · rw [if_pos hcal]
    exact .inl ⟨fun _ _ => ⟨nofun,nofun⟩,rfl⟩
  rw [if_neg hcal]
  split
  · exact .inl ⟨silent_refused _ _,rfl⟩
  split
  · exact .inl ⟨silent_refused _ _,rfl⟩
  cases i.veto with
  | some => exact .inl ⟨silent_refused _ _,rfl⟩
  | none =>
    dsimp only
    split
    · exact .inl ⟨silent_refused _ _,rfl⟩
    cases i.account with
    | none => exact .inl ⟨silent_refused _ _,rfl⟩
    | some account =>
      cases hrep : replays s i.idempotencyKey with
      | some existing => exact .inl ⟨silent_replay s i account existing,rfl⟩
      | none =>
        dsimp only
        unfold storeAttempt
        split
        · exact .inl ⟨silent_refused _ _,rfl⟩
        by_cases hact : hasActive s=true
        · rw [if_pos hact]
          exact .inl ⟨silent_refused _ _,rfl⟩
        rw [if_neg hact]
        split
        · exact .inl ⟨silent_refused _ _,rfl⟩
        split
        · exact .inl ⟨silent_refused _ _,rfl⟩
        split
        · exact .inl ⟨silent_refused _ _,rfl⟩
        split_ifs with htk
        · exact .inl ⟨fun _ _ => ⟨nofun,nofun⟩,rfl⟩
        refine .inr ⟨account,?_,hrep,?_,?_,rfl,rfl⟩
        · simpa using hcal
        · simpa using hact
        · simpa using htk

theorem isCharge_newAttempt (account : Account) :
    isCharge s.order.id (newAttempt w s i account)=true := by
  unfold isCharge newAttempt
  cases i.method <;> simp [GatewayMethod.operation]

/-- Starting a payment stores one attempt or nothing. -/
theorem startGatewayPayment_effect (calm : Prop) :
    Effect s calm (startGatewayPayment w s i).1 (startGatewayPayment w s i).2 := by
  rcases startGatewayPayment_cases w s i with ⟨hsil,heq⟩|⟨account,hsto⟩
  · rw [heq]
    exact .same hsil
  rw [hsto.answer,hsto.after]
  refine .stored (newAttempt w s i account) i.method hsto.call hsto.active
    (fun a ha hid => ?_) (isCharge_newAttempt w s i account) rfl
  have htk := hsto.taken
  have hfr := any_eq_false.mp htk a ha
  exact hfr ((Bool.or_eq_true _ _).mpr (.inl (decide_eq_true hid)))

end

/-- The answer of a provider moves the attempt of the open call. -/
theorem recordAnswer_effect (hsd : Sound s) (w : World) (provider : ProviderAnswer)
    (calm : Prop) : Effect s calm (recordAnswer w s provider).1 (recordAnswer w s provider).2 := by
  have hidl : Silent .idle := fun _ _ => ⟨nofun,nofun⟩
  cases hcal : s.call with
  | none =>
    simp only [recordAnswer,hcal]
    exact .same hidl
  | some c =>
    obtain ⟨row,hrow,hid,hcha,hpro⟩ := hsd.call c hcal
    have huni : ∀ a∈s.attempts, a.id=c.attemptId→a=row := fun a ha heq =>
      eq_of_key_eq Attempt.id hsd.ids ha hrow (heq.trans hid.symm)
    have hop : ∀ a∈s.attempts, a.id=c.attemptId→isCharge s.order.id a=true →
        a.status≠.settled := by
      intro a ha heq _
      rw [huni a ha heq,hpro]
      exact nofun
    have hfli : ∀ a∈s.attempts, a.id=c.attemptId→inFlight s a=true := by
      intro a ha heq
      rw [huni a ha heq]
      unfold inFlight
      rw [hcha,hpro]
      rfl
    cases hmet : c.method with
    | sezzle =>
      cases provider with
      | session ref url =>
        simp only [recordAnswer,hcal,hmet]
        exact .rewritten c.attemptId (openedRow ref url) (fun _ _ => ⟨nofun,nofun⟩)
          (.of_all (fun _ => rfl) (fun _ => rfl) fun _ => rfl) rfl rfl
          (fun v hv => .inl hv) (.inl rfl) hop
          fun _ a ha heq _ => .inl (hfli a ha heq)
      | lost =>
        simp only [recordAnswer,hcal,hmet]
        exact .rewritten c.attemptId lostRow (silent_refused _ _)
          (.of_all (fun _ => rfl) (fun _ => rfl) fun _ => rfl) rfl rfl
          (fun v hv => .inl hv) (.inl rfl) hop
          fun _ a ha heq _ => .inl (hfli a ha heq)
      | payment =>
        simp only [recordAnswer,hcal,hmet]
        exact .same hidl
    | nmi =>
      cases provider with
      | session | lost =>
        simp only [recordAnswer,hcal,hmet]
        exact .same hidl
      | payment result testMode =>
        simp only [recordAnswer,hcal,hmet]
        have hsil := finishAttempt_silent w s c.attemptId result testMode
        rcases finishAttempt_cases w s c.attemptId result testMode with
          heq|⟨a,o,mode,_,-,hord,haft⟩
        · rw [heq]
          exact .idle hsil rfl rfl (.inr rfl) fun v hv => .inl hv
        rw [haft]
        exact .rewritten c.attemptId _ hsil (keeps_finishedRow c.attemptId o mode result) rfl hord
          (fun v hv => .inl hv) (.inl rfl) hop
          fun _ a ha heq _ => .inl (hfli a ha heq)

theorem admitEntry_silent {entry : Entry} {a : Attempt} (h : admitEntry entry a=some answer) :
    Silent answer := by
  have hsez : ∀ {answer}, admitSezzle a=some answer → Silent answer := by
    intro answer h
    unfold admitSezzle at h
    split_ifs at h
    · cases h
      exact silent_refused _ _
    · cases h
      exact silent_refused _ _
  cases entry with
  | gateway =>
    simp only [admitEntry,admitGateway] at h
    split_ifs at h
    · cases h
      exact fun _ _ => ⟨nofun,nofun⟩
    · exact hsez h
    · cases h
      exact silent_refused _ _
  | sezzle => exact hsez h

theorem beginVerification_effect (s : Shop) (entry : Entry) (id : ℕ) (attemptId : String)
    (calm : Prop) : Effect s calm (beginVerification s entry id attemptId).1
      (beginVerification s entry id attemptId).2 := by
  unfold beginVerification
  cases hfd : findAttempt s attemptId with
  | none => exact .same (silent_refused _ _)
  | some a =>
    dsimp only
    cases hadm : admitEntry entry a with
    | some => exact .same (admitEntry_silent hadm)
    | none =>
      refine .idle (fun _ _ => ⟨nofun,nofun⟩) rfl rfl (.inl rfl) fun v hv => ?_
      rcases mem_concat_iff.mp hv with hold|rfl
      · exact .inl hold
      · exact .inr (findAttempt_eq_some hfd).1

/-- Recording the result of a verification rewrites the attempt if it is not settled. -/
theorem finishAttempt_effect (w : World) {result : PaymentResult}
    {testMode : Bool} (hids : (s.attempts.map Attempt.id).Nodup)
    (hcal : s.call=none∨∀ a∈s.attempts, a.id=id→isCharge s.order.id a=true → a.status=.settled)
    (hcalm : calm→∀ a, findAttempt s id=some a→isCharge s.order.id a=true →
      a.status=.failed→isActive (statusOf result)=true → ∀ b∈s.attempts, inFlight s b=false) :
    Effect s calm (finishAttempt w s id result testMode).1
      (finishAttempt w s id result testMode).2 := by
  have hsil := finishAttempt_silent w s id result testMode
  rcases finishAttempt_cases w s id result testMode with
    heq|⟨row,o,mode,hfd,hop,hord,haft⟩
  · rw [heq]
    exact .same hsil
  obtain ⟨hrow,hid⟩ := findAttempt_eq_some hfd
  have huni : ∀ a∈s.attempts, a.id=id→a=row := fun a ha heq =>
    eq_of_key_eq Attempt.id hids ha hrow (heq.trans hid.symm)
  rw [haft]
  refine .rewritten id (finishedRow o mode result) hsil
    (keeps_finishedRow id o mode result) rfl hord (fun v hv => .inl hv) ?_ ?_ ?_
  · rcases hcal with hno|hset
    · exact .inl hno
    refine .inr ⟨rfl,fun a ha heq => ?_⟩
    by_contra hcha
    rw [Bool.not_eq_false] at hcha
    have hsta := hset a ha heq hcha
    rw [huni a ha heq] at hsta
    exact hop hsta
  · intro a ha heq _
    rw [huni a ha heq]
    exact hop
  intro hcal' a ha heq hfli
  cases huni a ha heq
  obtain ⟨hcha,hact⟩ := (Bool.and_eq_true _ _).mp hfli
  have hcha' : isCharge s.order.id row=true := by
    rw [← hord]
    exact hcha
  by_cases hfai : row.status=.failed
  · exact .inr (hcalm hcal' row hfd hcha' hfai hact)
  · refine .inl ((Bool.and_eq_true _ _).mpr ⟨hcha',?_⟩)
    exact (isActive_iff row.status).mpr ⟨hop,hfai⟩

theorem silent_unread (reading : Reading) : Silent (unread reading) := by
  cases reading <;> exact fun _ _ => ⟨nofun,nofun⟩

/-- A verification records its result on an attempt that is not settled. -/
theorem verify_effect (hsd : Sound s) (w : World) {id : ℕ} {v : Verification}
    (hfd : (s.verifications.find? fun v => decide (v.id=id))=some v) (reading : Reading) :
    Effect s (Calm (perform (step w) s (.endVerification id reading)))
      (verify w s v.snapshot reading).1 (verify w s v.snapshot reading).2 := by
  obtain ⟨row,hrow,hid,hsna⟩ := hsd.snapshots v (mem_of_find?_eq_some hfd)
  have huni : ∀ a∈s.attempts, a.id=v.snapshot.id→a=row := fun a ha heq =>
    eq_of_key_eq Attempt.id hsd.ids ha hrow (heq.trans hid.symm)
  unfold verify
  by_cases hset : v.snapshot.status=.settled
  · rw [if_pos hset]
    refine finishAttempt_effect w hsd.ids (.inr fun a ha heq hcha => ?_) fun _ a ha hcha hfai => ?_
    · cases huni a ha heq
      exact hsna hcha hset
    obtain ⟨hmem,heq⟩ := findAttempt_eq_some ha
    cases huni a hmem heq
    rw [hsna hcha hset] at hfai
    cases hfai
  · split_ifs with hcal
    · exact .same fun _ _ => ⟨nofun,nofun⟩
    have hno : s.call=none := by simpa using hcal
    cases hres : readResult v.snapshot reading with
    | none => exact .same (silent_unread reading)
    | some =>
      refine finishAttempt_effect w hsd.ids (.inl hno) fun hcalm a ha hcha hfai hact => hcalm ?_
      change reopens s id reading=true
      unfold reopens
      rw [hno,hfd,Option.any_some,ha,Option.any_some,hres,Option.any_some,hcha,
        hact,decide_eq_true hfai]
      rfl

theorem Effect.drop (h : Effect s calm answer s') (hsil : Silent answer) (id : ℕ) :
    Effect s calm answer (dropVerification s' id) := by
  have htra : Traced s s' → Traced s (dropVerification s' id) :=
    fun htra v hv => htra v (mem_deleteWhere.mp hv).1
  cases h with
  | idle _ hatt hord hcal hop => exact .idle hsil hatt hord hcal (htra hop)
  | stored row => exact absurd rfl (hsil row.id s.order.due).1
  | called c => exact absurd rfl (hsil c.attemptId c.amount).2
  | rewritten rowId f _ hkee hatt hord hop hcal huns hcalm =>
    exact .rewritten rowId f hsil hkee hatt hord (htra hop) hcal huns hcalm
  | added row _ hcha hfre hatt hord hcal hop =>
    exact .added row hsil hcha hfre hatt hord hcal (htra hop)

theorem verify_silent (w : World) (s : Shop) (a : Attempt) (reading : Reading) :
    Silent (verify w s a reading).1 := by
  unfold verify
  split_ifs
  · exact finishAttempt_silent _ _ _ _ _
  · exact fun _ _ => ⟨nofun,nofun⟩
  · cases readResult a reading with
    | none => exact silent_unread reading
    | some => exact finishAttempt_silent _ _ _ _ _

theorem endVerification_effect (hsd : Sound s) (w : World) (id : ℕ) (reading : Reading) :
    Effect s (Calm (perform (step w) s (.endVerification id reading)))
      (endVerification w s id reading).1
      (endVerification w s id reading).2 := by
  unfold endVerification
  cases hfd : s.verifications.find? fun v => decide (v.id=id) with
  | none => exact .same fun _ _ => ⟨nofun,nofun⟩
  | some v =>
    have heff := verify_effect hsd w hfd reading
    have hsil := verify_silent w s v.snapshot reading
    dsimp only
    cases hver : verify w s v.snapshot reading with
    | mk answer =>
      rw [hver] at heff hsil
      cases answer with
      | waits => exact .same hsil
      | _ => exact heff.drop hsil id

/-- Other code writes no charge or session of the order. -/
theorem putOther_effect (hids : (s.attempts.map Attempt.id).Nodup) (row : Attempt) (calm : Prop) :
    Effect s calm (putOther s row).1 (putOther s row).2 := by
  have hidl : Silent .idle := fun _ _ => ⟨nofun,nofun⟩
  unfold putOther
  by_cases hcha : isCharge s.order.id row=true
  · rw [if_pos hcha]
    exact .same hidl
  rw [if_neg hcha]
  split
  · exact .same fun _ _ => ⟨nofun,nofun⟩
  rw [Bool.not_eq_true] at hcha
  cases hfd : findAttempt s row.id with
  | none =>
    refine .added row hidl hcha (fun a ha hid => ?_) rfl rfl rfl fun v hv => .inl hv
    exact List.find?_eq_none.mp hfd a ha (decide_eq_true hid)
  | some a =>
    dsimp only
    split_ifs with hold
    · exact .same hidl
    rw [Bool.not_eq_true] at hold
    obtain ⟨hmem,hid⟩ := findAttempt_eq_some hfd
    have hot : ∀ b∈s.attempts, b.id=row.id→isCharge s.order.id b=false := by
      intro b hb heq
      rw [eq_of_key_eq Attempt.id hids hb hmem (heq.trans hid.symm)]
      exact hold
    refine .rewritten row.id (fun _ => row) hidl ⟨fun b _ heq => heq.symm,
      fun b hb heq => hcha.trans (hot b hb heq).symm,
      fun b hb heq hcha' => ?_⟩ rfl rfl
      (fun v hv => .inl hv) (.inr ⟨rfl,hot⟩) (fun b hb heq hcha' => ?_)
      fun _ b _ _ hfli => ?_
    · rw [hot b hb heq] at hcha'
      cases hcha'
    · rw [hot b hb heq] at hcha'
      cases hcha'
    · obtain ⟨hcha',-⟩ := (Bool.and_eq_true _ _).mp hfli
      have hcha'' : isCharge s.order.id row=true := hcha'
      rw [hcha] at hcha''
      cases hcha''

theorem step_effect (hsd : Sound s) (w : World) (a : Action) :
    Effect s (Calm (perform (step w) s a)) (step w s a).1 (step w s a).2 := by
  have hidl : Silent .idle := fun _ _ => ⟨nofun,nofun⟩
  cases a with
  | start input => exact startGatewayPayment_effect w s input _
  | call =>
    simp only [step,callProvider]
    cases hcall : s.call with
    | none => exact .same hidl
    | some c =>
      dsimp only
      split_ifs with hcal
      · exact .same hidl
      · exact .called c hcall (by simpa using hcal)
  | record provider => exact recordAnswer_effect hsd w provider _
  | crash => exact .idle hidl rfl rfl (.inr rfl) fun v hv => .inl hv
  | beginVerification entry id attemptId => exact beginVerification_effect s entry id attemptId _
  | endVerification id reading => exact endVerification_effect hsd w id reading
  | dropVerification =>
    exact .idle hidl rfl rfl (.inl rfl) fun v hv => .inl (mem_deleteWhere.mp hv).1
  | changeOrder => exact .idle hidl rfl rfl (.inl rfl) fun v hv => .inl hv
  | putOther row => exact putOther_effect hsd.ids row _

/-- Every effect keeps the charges and sessions of the order. -/
theorem Effect.kept (h : Effect s calm answer s') : Kept s s' := by
  cases h with
  | idle _ hatt hord => exact .of_same hatt hord
  | stored => exact .of_append rfl rfl
  | called => exact .of_same rfl rfl
  | rewritten _ _ _ hkee hatt hord _ _ huns => exact .of_update hkee hatt hord huns
  | added _ _ _ _ hatt hord => exact .of_append hatt hord

theorem Kept.snapshots (h : Kept s s') (hsd : Sound s) (htra : Traced s s') :
    ∀ v∈s'.verifications, ∃ a∈s'.attempts, a.id=v.snapshot.id ∧
      (isCharge s'.order.id a=true→v.snapshot.status=.settled→a.status=.settled) := by
  intro v hv
  have hold : ∃ a∈s.attempts, a.id=v.snapshot.id ∧
      (isCharge s.order.id a=true→v.snapshot.status=.settled→a.status=.settled) := by
    rcases htra v hv with hmem|hmem
    · exact hsd.snapshots v hmem
    · exact ⟨v.snapshot,hmem,rfl,fun _ hset => hset⟩
  obtain ⟨a,ha,hid,hset⟩ := hold
  cases hcha : isCharge s.order.id a with
  | true =>
    obtain ⟨a',ha',hid',-,-,hstays⟩ := h.rows a ha hcha
    exact ⟨a',ha',hid'.trans hid,fun _ hsta => (hstays (hset hcha hsta)).1⟩
  | false =>
    obtain ⟨a',ha',hid',hcha'⟩ := h.ids a ha
    refine ⟨a',ha',hid'.trans hid,fun htru => ?_⟩
    rw [hcha',hcha] at htru
    cases htru

theorem Effect.sound (h : Effect s calm answer s') (hsd : Sound s) : Sound s' := by
  have hkp := h.kept
  cases h with
  | idle _ hatt hord hcal htra =>
    refine ⟨hatt ▸ hsd.ids,fun c hc => ?_,hkp.snapshots hsd htra⟩
    rcases hcal with heq|hno
    · rw [hatt,hord]
      exact hsd.call c (heq ▸ hc)
    · rw [hno] at hc
      cases hc
  | stored row _ _ _ hfre hcha hpro =>
    refine ⟨nodup_map_append Attempt.id hsd.ids hfre,fun c hc => ?_,
      hkp.snapshots hsd fun v hv => .inl hv⟩
    cases hc
    exact ⟨row,mem_concat_self,rfl,hcha,hpro⟩
  | called c hcal =>
    refine ⟨hsd.ids,fun c' hc' => ?_,hsd.snapshots⟩
    cases hc'
    exact hsd.call c hcal
  | rewritten id _ _ hkee hatt hord htra hcal =>
    refine ⟨?_,fun c hc => ?_,hkp.snapshots hsd htra⟩
    · have hmap : s'.attempts.map Attempt.id=s.attempts.map Attempt.id := by
        rw [hatt]
        unfold updateWhere
        rw [map_map]
        refine map_congr_left fun a ha => ?_
        by_cases hid : a.id=id
        · simp [hid,hkee.same a ha hid]
        · simp [hid]
      exact hmap ▸ hsd.ids
    · rcases hcal with hno|⟨heq,hot⟩
      · rw [hno] at hc
        cases hc
      obtain ⟨a,ha,hid,hcha,hpro⟩ := hsd.call c (heq ▸ hc)
      have hne : a.id≠id := by
        intro hid'
        rw [hot a ha hid'] at hcha
        cases hcha
      refine ⟨a,?_,hid,hord ▸ hcha,hpro⟩
      rw [hatt]
      exact mem_updateWhere.mpr (.inr ⟨ha,decide_eq_false hne⟩)
  | added _ _ _ hfre hatt hord hcal htra =>
    refine ⟨hatt ▸ nodup_map_append Attempt.id hsd.ids hfre,fun c hc => ?_,hkp.snapshots hsd htra⟩
    obtain ⟨a,ha,hid,hcha,hpro⟩ := hsd.call c (hcal ▸ hc)
    exact ⟨a,hatt ▸ mem_append_left _ ha,hid,hord ▸ hcha,hpro⟩

/-- At most one charge or session of the order is unresolved. -/
def Single (s : Shop) : Prop :=
  ∀ a∈s.attempts, ∀ b∈s.attempts, inFlight s a=true→inFlight s b=true→a=b

instance (s : Shop) : Decidable (Single s) :=
  inferInstanceAs (Decidable (∀ a∈s.attempts, ∀ b∈s.attempts, _ → _ → _))

/-- An unresolved attempt of the order is noticed. -/
theorem inFlight_of_hasActive (h : hasActive s=false) : ∀ a∈s.attempts, inFlight s a=false := by
  intro a ha
  by_contra hfli
  rw [Bool.not_eq_false] at hfli
  obtain ⟨hcha,hact⟩ := (Bool.and_eq_true _ _).mp hfli
  have hord : decide (a.orderId=s.order.id)=true := ((Bool.and_eq_true _ _).mp hcha).1
  have hno := any_eq_false.mp h a ha
  exact hno ((Bool.and_eq_true _ _).mpr ⟨hord,hact⟩)

/-- A calm effect leaves at most one charge or session unresolved. -/
theorem Effect.single (h : Effect s calm answer s') (hsd : Sound s) (hcal : calm)
    (hsin : Single s) : Single s' := by
  have heq : ∀ {s' : Shop}, s'.order.id=s.order.id→∀ a, inFlight s' a=inFlight s a := by
    intro s' hord a
    unfold inFlight
    rw [hord]
  cases h with
  | idle _ hatt hord =>
    intro a ha b hb hfa hfb
    rw [heq hord] at hfa hfb
    exact hsin a (hatt ▸ ha) b (hatt ▸ hb) hfa hfb
  | stored row _ _ hact =>
    have hno := inFlight_of_hasActive hact
    have honl : ∀ a∈s.attempts++[row], inFlight s a=true→a=row := by
      intro a ha hfli
      rcases mem_append.mp ha with hold|hnew
      · rw [hno a hold] at hfli
        cases hfli
      · exact mem_singleton.mp hnew
    exact fun a ha b hb hfa hfb => (honl a ha hfa).trans (honl b hb hfb).symm
  | called => exact hsin
  | rewritten id f _ _ hatt hord _ _ _ hq =>
    have hq := hq hcal
    have hcas : ∀ a∈s'.attempts,
        (∃ old∈s.attempts, old.id=id∧a=f old)∨(a∈s.attempts∧a.id≠id) := by
      intro a ha
      rw [hatt] at ha
      rcases mem_updateWhere.mp ha with ⟨old,hold,hid,rfl⟩|⟨hold,hid⟩
      · exact .inl ⟨old,hold,of_decide_eq_true hid,rfl⟩
      · exact .inr ⟨hold,of_decide_eq_false hid⟩
    have hmix : ∀ old∈s.attempts, old.id=id→inFlight s' (f old)=true →
        ∀ b∈s.attempts, b.id≠id→inFlight s' b=false := by
      intro old hold hid hfli b hb hne
      rw [heq hord]
      rcases hq old hold hid hfli with hbef|hno
      · by_contra hfb
        rw [Bool.not_eq_false] at hfb
        exact hne (hsin b hb old hold hfb hbef ▸ hid)
      · exact hno b hb
    intro a ha b hb hfa hfb
    rcases hcas a ha with ⟨old,hold,hid,rfl⟩|⟨hold,hne⟩
    · rcases hcas b hb with ⟨old',hold',hid',rfl⟩|⟨hold',hne'⟩
      · rw [eq_of_key_eq Attempt.id hsd.ids hold hold' (hid.trans hid'.symm)]
      · rw [hmix old hold hid hfa b hold' hne'] at hfb
        cases hfb
    · rcases hcas b hb with ⟨old',hold',hid',rfl⟩|⟨hold',hne'⟩
      · rw [hmix old' hold' hid' hfb a hold hne] at hfa
        cases hfa
      · rw [heq hord] at hfa hfb
        exact hsin a hold b hold' hfa hfb
  | added _ _ hcha _ hatt hord =>
    have hmem : ∀ a∈s'.attempts, inFlight s' a=true→a∈s.attempts := by
      intro a ha hfli
      rw [hatt] at ha
      rcases mem_concat_iff.mp ha with hold|rfl
      · exact hold
      · rw [heq hord] at hfli
        have htru := ((Bool.and_eq_true _ _).mp hfli).1
        rw [hcha] at htru
        cases htru
    intro a ha b hb hfa hfb
    have ha' := hmem a ha hfa
    have hb' := hmem b hb hfb
    rw [heq hord] at hfa hfb
    exact hsin a ha' b hb' hfa hfb

/-- The call of the attempt is past, whether or not it was made. -/
def Spent (id : String) (s : Shop) : Prop :=
  (∃ a∈s.attempts, a.id=id)∧∀ c, s.call=some c→c.attemptId=id→c.called=true

/-- The call of an attempt stays in the past. -/
theorem Effect.spent (h : Effect s calm answer s')
    (hsp : Spent id s) : Spent id s' := by
  obtain ⟨a,ha,hid⟩ := hsp.1
  obtain ⟨a',ha',hid',-⟩ := h.kept.ids a ha
  refine ⟨⟨a',ha',hid'.trans hid⟩,?_⟩
  cases h with
  | idle _ _ _ hcal =>
    intro c hc heq
    rcases hcal with hkp|hno
    · exact hsp.2 c (hkp ▸ hc) heq
    · rw [hno] at hc
      cases hc
  | stored _ _ _ _ hfre =>
    intro c hc heq
    cases hc
    exact absurd (hid.trans heq.symm) (hfre a ha)
  | called =>
    intro c' hc' _
    cases hc'
    rfl
  | rewritten _ _ _ _ _ _ _ hcal =>
    intro c hc heq
    rcases hcal with hno|⟨hkp,-⟩
    · rw [hno] at hc
      cases hc
    · exact hsp.2 c (hkp ▸ hc) heq
  | added _ _ _ _ _ _ hcal =>
    intro c hc heq
    exact hsp.2 c (hcal ▸ hc) heq

/-- A call is made while it is not past, and is past then. -/
theorem Effect.of_called {amount : ℤ} (h : Effect s calm (.called id amount) s') (hsd : Sound s) :
    (∃ c, s.call=some c∧c.attemptId=id∧c.amount=amount)∧¬ Spent id s∧Spent id s' := by
  cases h with
  | idle hsil => exact absurd rfl (hsil id amount).2
  | called c hcal hcalled =>
    refine ⟨⟨c,hcal,rfl,rfl⟩,fun hsp => ?_,?_,fun c' hc' _ => ?_⟩
    · have hpa := hsp.2 c hcal rfl
      rw [hcalled] at hpa
      cases hpa
    · obtain ⟨a,ha,hid,-⟩ := hsd.call c hcal
      exact ⟨a,ha,hid⟩
    · cases hc'
      rfl
  | rewritten _ _ hsil => exact absurd rfl (hsil id amount).2
  | added _ hsil => exact absurd rfl (hsil id amount).2

/-- The open call is for what was due when its attempt was stored. -/
def Owed (h : History) (s : Shop) : Prop :=
  ∀ c, s.call=some c→∃ e∈h, e.result=.stored c.attemptId c.amount∧e.before.order.due=c.amount

/-- Every step keeps what the open call is for. -/
theorem Owed.step {h : History} (howe : Owed h s) (hsd : Sound s) (w : World) (a : Action) :
    Owed (h++[perform (step w) s a]) (step w s a).2 := by
  have heff := step_effect hsd w a
  have hpa : ∀ c, s.call=some c→∃ e∈h++[perform (GatewayPayments.step w) s a],
      e.result=.stored c.attemptId c.amount∧e.before.order.due=c.amount := by
    intro c hc
    obtain ⟨e,he,hsto⟩ := howe c hc
    exact ⟨e,mem_append_left _ he,hsto⟩
  generalize hans : (GatewayPayments.step w s a).1=answer at heff
  generalize haft : (GatewayPayments.step w s a).2=s' at heff
  intro c hc
  cases heff with
  | idle _ _ _ hcal =>
    rcases hcal with hkp|hno
    · exact hpa c (hkp ▸ hc)
    · rw [hno] at hc
      cases hc
  | stored =>
    cases hc
    exact ⟨_,mem_concat_self,hans,rfl⟩
  | called c' hcal =>
    cases hc
    exact hpa c' hcal
  | rewritten _ _ _ _ _ _ _ hcal =>
    rcases hcal with hno|⟨hkp,-⟩
    · rw [hno] at hc
      cases hc
    · exact hpa c (hkp ▸ hc)
  | added _ _ _ _ _ _ hcal => exact hpa c (hcal ▸ hc)

/-- A charge or session of the order has the key. -/
def Used (key : String) (s : Shop) : Prop :=
  ∃ a∈s.attempts, isCharge s.order.id a=true∧a.idempotencyKey=key

theorem Kept.used (h : Kept s s') {key : String} (huse : Used key s) : Used key s' := by
  obtain ⟨a,ha,hcha,hkey⟩ := huse
  obtain ⟨a',ha',-,hcha',hkey',-⟩ := h.rows a ha hcha
  exact ⟨a',ha',hcha',hkey'.trans hkey⟩

/-- A settled attempt with its reference. -/
def Settled (id : String) (ref : Option String) (s : Shop) : Prop :=
  ∃ a∈s.attempts, isCharge s.order.id a=true∧a.id=id∧a.status=.settled∧a.providerRef=ref

/-- A settled attempt stays settled under its reference. -/
theorem Kept.settled (h : Kept s s') {ref : Option String}
    (hset : Settled id ref s) : Settled id ref s' := by
  obtain ⟨a,ha,hcha,hid,hsta,href⟩ := hset
  obtain ⟨a',ha',hid',hcha',-,hstays⟩ := h.rows a ha hcha
  obtain ⟨hsta',href'⟩ := hstays hsta
  exact ⟨a',ha',hcha',hid'.trans hid,hsta',href'.trans href⟩

theorem not_stored_of_used {i : StartInput} (huse : Used (attemptKey s.order i.idempotencyKey) s)
    (id : String) (amount : ℤ) : (startGatewayPayment w s i).1≠.stored id amount := by
  intro hsto
  rcases startGatewayPayment_cases w s i with ⟨hsil,-⟩|⟨account,hstor⟩
  · exact (hsil id amount).1 hsto
  · obtain ⟨a,ha,-,hkey⟩ := huse
    have hfr := any_eq_false.mp hstor.taken a ha
    exact hfr ((Bool.or_eq_true _ _).mpr (.inr (decide_eq_true hkey)))

theorem Opening.sound (h : Opening s) : Sound s := by
  refine ⟨h.ids,fun c hc => ?_,fun v hv => ?_⟩
  · rw [h.call] at hc
    cases hc
  · rw [h.verifications] at hv
    cases hv

/-- A call is made once and for what was due when its attempt was stored. A key stores
one attempt while the state of the order and its settled payments are the same. A
settled attempt stays settled under its reference. At most one charge or session is
unresolved as long as no verification reopens a failed one beside another. -/
theorem one_charge_in_flight {start : Shop} (hstart : Opening start) {h : History}
    (hrun : Run (step w) (fun _ _ _ => True) start h s) :
    (∀ h₁ e h₂ id amount, h=h₁++e::h₂→e.result=.called id amount →
      (∃ e₀∈h₁, e₀.result=.stored id amount∧e₀.before.order.due=amount) ∧
        ∀ later∈h₂, ∀ amount', later.result≠.called id amount') ∧
    (∀ h₁ e h₂ e' h₃ i i' id amount, h=h₁++e::(h₂++e'::h₃)→e.action=.start i →
      e'.action=.start i'→i'.idempotencyKey=i.idempotencyKey →
      e'.before.order.state=e.before.order.state →
      settledCount e'.before.order=settledCount e.before.order →
      e.result=.stored id amount→∀ id' amount', e'.result≠.stored id' amount') ∧
    (∀ h₁ e h₂ id ref, h=h₁++e::h₂ → Settled id ref e.after → Settled id ref s) ∧
    ((∀ e∈h, Calm e) → Single s) := by
  have hsd : ∀ {h : History} {s : Shop}, Run (step w) (fun _ _ _ => True) start h s → Sound s :=
    fun hrun => hrun.state_invariant hstart.sound fun _ _ a hs _ => (step_effect hs w a).sound hs
  have hkp : ∀ {s : Shop} (a : Action), Sound s → Sound (step w s a).2∧Kept s (step w s a).2 :=
    fun a hs => ⟨(step_effect hs w a).sound hs,(step_effect hs w a).kept⟩
  refine ⟨fun h₁ e h₂ id amount hspl hcalled => ?_,
    fun h₁ e h₂ e' h₃ i i' id amount hspl hsta' hsta'' hks hst hct hsto => ?_,
    fun h₁ e h₂ id ref hspl hset => ?_,fun hcalm => ?_⟩
  · subst hspl
    obtain ⟨hpa,-,heve⟩ := hrun.split
    have hbef := hsd hpa
    have heff := step_effect hbef w e.action
    have hans : (step w e.before e.action).1=.called id amount := by
      rw [← hcalled,heve]
      rfl
    rw [hans] at heff
    obtain ⟨⟨c,hcal,rfl,rfl⟩,-,hsp⟩ := heff.of_called hbef
    refine ⟨?_,fun later hlater amount' haga => ?_⟩
    · have howe : Owed h₁ e.before∧Sound e.before :=
        hpa.invariant (P := fun h s => Owed h s∧Sound s)
          ⟨fun c hc => (by rw [hstart.call] at hc; cases hc),hstart.sound⟩
          fun h s a hs _ => ⟨hs.1.step hs.2 w a,(hkp a hs.2).1⟩
      exact howe.1 c hcal
    · have haft : Sound e.after∧Spent c.attemptId e.after := by
        rw [heve]
        exact ⟨(hkp e.action hbef).1,hsp⟩
      obtain ⟨-,hlat⟩ := hrun.afterwards (P := fun s => Sound s∧Spent c.attemptId s) haft
        fun _ s a hs _ _ => ⟨(hkp a hs.1).1,(step_effect hs.1 w a).spent hs.2⟩
      obtain ⟨h₃,h₄,hmid⟩ := append_of_mem hlater
      have hrun' : Run (step w) (fun _ _ _ => True) start ((h₁++e::h₃)++later::h₄) s := by
        rw [hmid] at hrun
        simpa using hrun
      obtain ⟨-,-,hlaterEvent⟩ := hrun'.split
      obtain ⟨⟨hlaterSound,hlaterSpent⟩,-⟩ := hlat later hlater
      have hlate := step_effect hlaterSound w later.action
      have hlaterAnswer : (step w later.before later.action).1=.called c.attemptId amount' := by
        rw [← haga,hlaterEvent]
        rfl
      rw [hlaterAnswer] at hlate
      exact (hlate.of_called hlaterSound).2.1 hlaterSpent
  · subst hspl
    obtain ⟨hpa,-,heve⟩ := hrun.split
    have hbef := hsd hpa
    have huse : Used (attemptKey e.before.order i.idempotencyKey) e.after := by
      rw [heve,hsta']
      change Used _ (startGatewayPayment w e.before i).2
      rcases startGatewayPayment_cases w e.before i with ⟨hsil,-⟩|⟨account,hstor⟩
      · have hans : (startGatewayPayment w e.before i).1=.stored id amount := by
          rw [← hsto,heve,hsta']
          rfl
        exact absurd hans (hsil id amount).1
      · rw [hstor.after]
        exact ⟨_,mem_concat_self,isCharge_newAttempt w e.before i account,rfl⟩
    have haft : Sound e.after := by
      rw [heve]
      exact (hkp e.action hbef).1
    obtain ⟨-,hlat⟩ := hrun.afterwards
      (P := fun s => Sound s∧Used (attemptKey e.before.order i.idempotencyKey) s)
      ⟨haft,huse⟩ fun _ s a hs _ _ => ⟨(hkp a hs.1).1,(hkp a hs.1).2.used hs.2⟩
    obtain ⟨⟨-,huse'⟩,-⟩ := hlat e' (mem_append_right _ mem_cons_self)
    have heq : attemptKey e'.before.order i'.idempotencyKey =
        attemptKey e.before.order i.idempotencyKey := by
      unfold attemptKey
      rw [hst,hct,hks]
    have hrun' : Run (step w) (fun _ _ _ => True) start ((h₁++e::h₂)++e'::h₃) s := by
      simpa using hrun
    obtain ⟨-,-,heve'⟩ := hrun'.split
    intro id' amount' haga
    rw [heve',hsta''] at haga
    exact not_stored_of_used (heq ▸ huse') id' amount' haga
  · subst hspl
    obtain ⟨hpa,-,heve⟩ := hrun.split
    have haft : Sound e.after := by
      rw [heve]
      exact (hkp e.action (hsd hpa)).1
    obtain ⟨⟨-,hend⟩,-⟩ := hrun.afterwards (P := fun s => Sound s∧Settled id ref s)
      ⟨haft,hset⟩ fun _ s a hs _ _ => ⟨(hkp a hs.1).1,(hkp a hs.1).2.settled hs.2⟩
    exact hend
  · have hsin : Sound s∧Single s := by
      refine hrun.invariant (P := fun h s => (∀ e∈h, Calm e) → Sound s∧Single s) (fun _ => ?_)
        (fun h s a hs _ hall => ?_) hcalm
      · refine ⟨hstart.sound,fun a ha b _ hfli _ => ?_⟩
        have hcha := ((Bool.and_eq_true _ _).mp hfli).1
        rw [hstart.attempts a ha] at hcha
        cases hcha
      · obtain ⟨hs,hsin⟩ := hs fun e he => hall e (mem_append_left _ he)
        have hcal' := hall _ (mem_concat_self)
        exact ⟨(hkp a hs).1,(step_effect hs w a).single hs hcal' hsin⟩
    exact hsin.2

/-- A result that carries a reference is applied without effect on the order. -/
def passive : World := ⟨fun o _ _ _ => some o,fun code id => code ++ "-" ++ id⟩

/-- An unpaid order without attempts. -/
def unpaid : Shop := ⟨⟨"o",.pendingPayment,1000,false,[],[],[]⟩, "A1", "EUR",[],none,[]⟩

/-- A card payment under a key. -/
def charge (key attemptId : String) : Action :=
  .start ⟨.nmi,key, "token",true,none,true,some ⟨"acct", "live"⟩,true,none,attemptId⟩

/-- A first charge fails, a second one stays unresolved, and the query for the first one
cannot be answered. -/
def reopening : List Action :=
  [charge "k1" "a1",.call,.record (.payment ⟨.failed,none,false,none⟩ false),
    charge "k2" "a2",.call,.record (.payment ⟨.pending,none,true,none⟩ false),
    .beginVerification .gateway 0 "a1",.endVerification 0 (.nmi none)]

/-- A charge fails and is verified before the next one. -/
def orderly : List Action :=
  [charge "k1" "a1",.call,.record (.payment ⟨.failed,none,false,none⟩ false),
    .beginVerification .gateway 0 "a1",.endVerification 0 (.nmi none),
    charge "k2" "a2",.beginVerification .gateway 1 "a1",
    .endVerification 1 (.nmi (some [⟨["t1"],["A1-a1"],["EUR"],["failed"],[],[],[],[],[]⟩])),
    charge "k2" "a2",.call,.crash]

theorem unpaid_opening : Opening unpaid := ⟨nodup_nil,fun a ha => (by cases ha),rfl,rfl⟩

/-- Two charges of one order are unresolved at once. -/
theorem two_charges_in_flight : Opening unpaid ∧
    Run (step passive) (fun _ _ _ => True) unpaid (play (step passive) [] unpaid reopening).1
      (play (step passive) [] unpaid reopening).2 ∧
    ¬ Single (play (step passive) [] unpaid reopening).2 :=
  ⟨unpaid_opening,.play Run.nil reopening (by repeat' constructor),by decide⟩

/-- In an orderly run two charges are stored and one is unresolved. -/
theorem one_charge_in_flight_orderly :
    ((play (step passive) [] unpaid orderly).1.map Event.result).countP
      (fun answer => decide (answer=.stored "a1" 1000) ||
        decide (answer=.stored "a2" 1000))=2 ∧
    Single (play (step passive) [] unpaid orderly).2 :=
  ⟨by decide,(one_charge_in_flight unpaid_opening
    (.play Run.nil orderly (by repeat' constructor))).2.2.2 (by decide)⟩

end SellRight.GatewayPaymentSafety
