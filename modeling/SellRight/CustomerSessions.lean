import SellRight.RunHistory

/-!
# Customer sessions

The policy of a store says how long its customer sessions live and whether their use renews
them. A login that is not to be remembered opens a session of at most a day. Days are exact
numbers, instants are milliseconds, and one use of a session reads the clock several times.
-/

namespace SellRight.CustomerSessions

open RunHistory

def dayMs : ℚ := 24*60*60*1000

/-- Value of a field of a store's configuration. -/
inductive Value
  | number (n : ℚ)
  | boolean (b : Bool)
  | other

/-- The `auth` section of a store's configuration. -/
structure AuthConfig where
  (sessionTtlDays renewable sessionRenewWindowDays : Value)

structure Env where
  sessionTtlDays : ℚ
  sessionRenewable : Bool
  sessionRenewWindowDays : ℚ

structure SessionPolicy where
  ttlMs : ℚ
  renewable : Bool
  renewWindowMs : ℚ

def positiveNumber : Value → Option ℚ
  | .number n => if 0<n then some n else none
  | _ => none

/-- Policy of a store, with the deployment's defaults for what it does not configure. -/
def sessionPolicy (env : Env) (config : Option AuthConfig) : SessionPolicy :=
  let auth := config.getD ⟨.other,.other,.other⟩
  ⟨(positiveNumber auth.sessionTtlDays).getD env.sessionTtlDays*dayMs,
    match auth.renewable with
    | .boolean renewable => renewable
    | _ => env.sessionRenewable,
    (positiveNumber auth.sessionRenewWindowDays).getD env.sessionRenewWindowDays*dayMs⟩

/-- Date at a number of milliseconds, rounded towards zero. Beyond the range of dates there is
none, and storing such a date fails. -/
def newDate (ms : ℚ) : Option ℤ :=
  if |ms|≤8640000000000000 then some (if 0 ≤ ms then ⌊ms⌋ else ⌈ms⌉) else none

/-- New expiry of a session within the renew window, if it is a later one. -/
def renewedSessionExpiry (expiresAt nowMs : ℤ) (policy : SessionPolicy) : Option (Option ℤ) :=
  if !policy.renewable then none
  else if nowMs+policy.renewWindowMs<expiresAt then none
  else
    let next := nowMs+policy.ttlMs
    if (expiresAt : ℚ)<next then some (newDate next) else none

/-- Expiry columns of a session row. Imported sessions carry a legacy expiry. -/
structure Session where
  expiresAt : ℤ
  legacyExpiresAt : Option ℤ
  deriving DecidableEq

def createSession (policy : SessionPolicy) (now : ℤ) : Except String Session :=
  match newDate (now+policy.ttlMs) with
  | none => .error "Invalid time value"
  | some expiresAt => .ok ⟨expiresAt,none⟩

/-- Policy of the session that a login opens. -/
def loginSessionPolicy (env : Env) (config : Option AuthConfig) (rememberMe : Bool) :
    SessionPolicy :=
  let policy := sessionPolicy env config
  if rememberMe then policy else {policy with ttlMs := min policy.ttlMs dayMs}

structure Customer where
  id : String
  activeVerifications : Option (List String)
  passwordHash : Option String

structure SessionCustomer where
  id : String
  activeVerifications : List String
  passwordHash : Option String
  isMigrated : Bool

/-- One use of a session: the rows joined to it, the caller's options and the clock when the
session is looked up, its legacy expiry is compared and its renewals are decided. -/
structure Use where
  customer : Option Customer
  storeConfig : Option AuthConfig
  forceRenew : Bool
  renew : Bool
  (asked legacyAsked renewedAt forcedAt : ℤ)

/-- An imported session is never renewed. -/
def policyFor (env : Env) (row : Session) (use : Use) : SessionPolicy :=
  let policy := sessionPolicy env use.storeConfig
  if row.legacyExpiresAt.isSome then {policy with renewable := false} else policy

def renewedExpiry (env : Env) (row : Session) (use : Use) : Option (Option ℤ) :=
  let policy := policyFor env row use
  (renewedSessionExpiry row.expiresAt use.renewedAt policy).or
    (if use.forceRenew&&policy.renewable then
      let next := use.forcedAt+policy.ttlMs
      if (row.expiresAt : ℚ)<next then some (newDate next) else none
    else none)

def resolveCustomer (env : Env) (row : Session) (use : Use) :
    Except String (Option SessionCustomer)×Session :=
  match use.customer with
  | none => (.ok none,row)
  | some customer =>
    if use.asked<row.expiresAt∧row.legacyExpiresAt.all (fun legacy => use.legacyAsked<legacy) then
      let resolved := ⟨customer.id,customer.activeVerifications.getD [],customer.passwordHash,
        customer.passwordHash.isNone⟩
      match if use.renew then renewedExpiry env row use else none with
      | none => (.ok (some resolved),row)
      | some none => (.error "Invalid time value",row)
      | some (some expiresAt) => (.ok (some resolved),{row with expiresAt := expiresAt})
    else (.ok none,row)

/-- A use as it happened, with the session around it. -/
abbrev UseEvent := Event Session Use (Except String (Option SessionCustomer))

variable {env : Env} {row : Session} {use : Use} {start s : Session} {ms : ℚ} {date bound : ℤ}

/-- Uses one after another, each reading a clock that does not go back. -/
def InOrder (h : List UseEvent) (_ : Session) (use : Use) : Prop :=
  (use.asked≤use.legacyAsked∧use.legacyAsked≤use.renewedAt∧use.renewedAt≤use.forcedAt) ∧
    ∀ e∈h, e.action.forcedAt≤use.asked

variable {h h₁ h₂ : List UseEvent} {e : UseEvent}

/-- A use that answers with the session's customer. -/
def Resolved (e : UseEvent) : Prop :=
  ∃ customer, e.result=.ok (some customer)

/-- No renewal that a use makes would set an expiry after a bound: the session is not renewable,
the use does not renew, or what would be renewed ends in time. -/
def RenewsWithin (env : Env) (bound : ℤ) (row : Session) (use : Use) : Prop :=
  let policy := sessionPolicy env use.storeConfig
  policy.renewable=true → use.renew=true →
    (row.expiresAt≤use.renewedAt+policy.renewWindowMs →
      ∀ date∈newDate (use.renewedAt+policy.ttlMs), date≤bound) ∧
    (use.forceRenew=true → use.renewedAt+policy.renewWindowMs<row.expiresAt ∨
      use.renewedAt+policy.ttlMs≤row.expiresAt →
      ∀ date∈newDate (use.forcedAt+policy.ttlMs), date≤bound)

/-- A date does not pass a whole number in either direction. -/
theorem newDate_between (h : newDate ms=some date) (n : ℤ) :
    ((n : ℚ) ≤ ms → n≤date)∧(ms≤n → date≤n) := by
  unfold newDate at h
  split at h
  · obtain rfl := Option.some.inj h
    split
    · exact ⟨Int.le_floor.mpr,fun hle => by exact_mod_cast (Int.floor_le ms).trans hle⟩
    · exact ⟨fun hle => by exact_mod_cast hle.trans (Int.le_ceil ms),Int.ceil_le.mpr⟩
  · cases h

/-- A renewal is a later date after the store's lifetime, decided within the window or forced
where the window gave none. -/
theorem renewedExpiry_cases {answer : Option ℤ} (h : renewedExpiry env row use=some answer) :
    row.legacyExpiresAt=none∧(sessionPolicy env use.storeConfig).renewable=true ∧
      ∃ next : ℚ, answer=newDate next∧(row.expiresAt : ℚ)<next ∧
        let policy := sessionPolicy env use.storeConfig
        (next=use.renewedAt+policy.ttlMs∧row.expiresAt≤use.renewedAt+policy.renewWindowMs ∨
          next=use.forcedAt+policy.ttlMs∧use.forceRenew=true ∧
            (use.renewedAt+policy.renewWindowMs<row.expiresAt ∨
              use.renewedAt+policy.ttlMs≤row.expiresAt)) := by
  unfold renewedExpiry policyFor renewedSessionExpiry at h
  cases hleg : row.legacyExpiresAt with
  | some legacy => simp [hleg] at h
  | none =>
    simp only [hleg,Option.isSome_none,Bool.false_eq_true,if_false] at h
    cases hren : (sessionPolicy env use.storeConfig).renewable with
    | false => simp [hren] at h
    | true =>
      simp only [hren,Bool.not_true,Bool.false_eq_true,if_false,Bool.and_true] at h
      refine ⟨rfl,rfl,?_⟩
      rcases Option.or_eq_some_iff.mp h with hwin|⟨hnone,hforce⟩
      · split_ifs at hwin with hout hnext
        exact ⟨_,(Option.some.inj hwin).symm,hnext,.inl ⟨rfl,not_lt.mp hout⟩⟩
      · split_ifs at hforce with hfor hnext
        refine ⟨_,(Option.some.inj hforce).symm,hnext,.inr ⟨rfl,hfor,?_⟩⟩
        split_ifs at hnone with hout hlat
        · exact .inl hout
        · exact .inr (not_lt.mp hlat)

/-- A use leaves the session as it is, or it answers with the customer and renews. -/
theorem resolveCustomer_cases (env : Env) (row : Session) (use : Use) :
    (resolveCustomer env row use).2=row ∨
      (use.renew=true∧∃ customer, (resolveCustomer env row use).1=.ok (some customer)) ∧
        ∃ date, renewedExpiry env row use=some (some date) ∧
          (resolveCustomer env row use).2={row with expiresAt := date} := by
  unfold resolveCustomer
  cases use.customer with
  | none => exact .inl rfl
  | some customer =>
    dsimp only
    split
    · cases hren : use.renew with
      | false => exact .inl rfl
      | true =>
        cases hexp : renewedExpiry env row use with
        | none => exact .inl rfl
        | some answer =>
          cases answer with
          | none => exact .inl rfl
          | some date => exact .inr ⟨⟨rfl,_,rfl⟩,date,rfl,rfl⟩
    · exact .inl rfl

/-- A session that resolves has not expired. -/
theorem resolved_before {customer : SessionCustomer}
    (h : (resolveCustomer env row use).1=.ok (some customer)) :
    use.asked<row.expiresAt∧∀ legacy∈row.legacyExpiresAt, use.legacyAsked<legacy := by
  unfold resolveCustomer at h
  split at h
  · simp at h
  · split at h
    · next hval => exact ⟨hval.1,by simpa [Option.all_eq_true] using hval.2⟩
    · simp at h

/-- A use never moves an expiry earlier and keeps the legacy expiry. -/
theorem resolveCustomer_later (env : Env) (row : Session) (use : Use) :
    row.expiresAt≤(resolveCustomer env row use).2.expiresAt ∧
      (resolveCustomer env row use).2.legacyExpiresAt=row.legacyExpiresAt := by
  rcases resolveCustomer_cases env row use with hsame|⟨-,date,hexp,hren⟩
  · rw [hsame]
    exact ⟨le_refl _,rfl⟩
  · obtain ⟨-,-,next,hnext,hlat,-⟩ := renewedExpiry_cases hexp
    rw [hren]
    exact ⟨(newDate_between hnext.symm _).1 hlat.le,rfl⟩

/-- A use changes neither an imported session nor one of a store that does not renew. -/
theorem resolveCustomer_fixed (h : row.legacyExpiresAt≠none ∨
    (sessionPolicy env use.storeConfig).renewable=false) :
    (resolveCustomer env row use).2=row := by
  rcases resolveCustomer_cases env row use with hsame|⟨-,date,hexp,-⟩
  · exact hsame
  · obtain ⟨hnone,hren,-⟩ := renewedExpiry_cases hexp
    simp [hnone,hren] at h

/-- A use whose renewals end within a bound keeps an expiry within it. -/
theorem resolveCustomer_within
    (hwit : Resolved (perform (resolveCustomer env) row use) → RenewsWithin env bound row use)
    (hle : row.expiresAt≤bound) : (resolveCustomer env row use).2.expiresAt≤bound := by
  rcases resolveCustomer_cases env row use with hsame|⟨⟨hon,hres⟩,date,hexp,hren⟩
  · rwa [hsame]
  · specialize hwit hres
    obtain ⟨-,hpol,next,hnext,-,⟨rfl,hin⟩|⟨rfl,hfor,hout⟩⟩ := renewedExpiry_cases hexp
    · rw [hren]
      exact (hwit hpol hon).1 hin date hnext.symm
    · rw [hren]
      exact (hwit hpol hon).2 hfor hout date hnext.symm

/-- A login that is not to be remembered opens a session of at most a day. -/
theorem createSession_within {config : Option AuthConfig} {now : ℤ}
    (h : createSession (loginSessionPolicy env config false) now=.ok start) :
    start.expiresAt≤now+86400000 := by
  unfold createSession at h
  split at h
  · cases h
  · next date hdate =>
    obtain rfl := Except.ok.inj h
    refine (newDate_between hdate _).2 ?_
    have hmin := min_le_right (sessionPolicy env config).ttlMs dayMs
    rw [Int.cast_add]
    exact add_le_add le_rfl (hmin.trans_eq (by norm_num [dayMs]))

/-- A session that was found expired stays so. -/
theorem expired_stays (hrun : Run (resolveCustomer env) InOrder start h s) :
    ∀ e∈h, e.action.asked≤e.action.forcedAt ∧
      (e.before.expiresAt≤e.action.asked → s.expiresAt≤e.action.asked) := by
  refine Run.invariant (P := fun h row => ∀ e∈h, e.action.asked≤e.action.forcedAt ∧
    (e.before.expiresAt≤e.action.asked → row.expiresAt≤e.action.asked)) hrun (by simp) ?_
  intro h row use ih hall e he
  have hkeep : ∀ n≤use.asked, row.expiresAt≤n → (resolveCustomer env row use).2.expiresAt≤n := by
    intro n hn hle
    rcases resolveCustomer_cases env row use with hsame|⟨⟨-,customer,hres⟩,-⟩
    · rwa [hsame]
    · have hval := (resolved_before hres).1
      omega
  rcases mem_concat_iff.mp he with hold|rfl
  · obtain ⟨hread,hexp⟩ := ih e hold
    exact ⟨hread,fun hle => hkeep _ (hread.trans (hall.2 e hold)) (hexp hle)⟩
  · exact ⟨hall.1.1.trans (hall.1.2.1.trans hall.1.2.2),hkeep _ le_rfl⟩

/-- A session that was found expired never resolves again. -/
theorem expired_after (hrun : Run (resolveCustomer env) InOrder start (h₁++e::h₂) s)
    (hexp : e.before.expiresAt≤e.action.asked) : ∀ later∈h₂, ¬ Resolved later := by
  rintro later hlat ⟨customer,hres⟩
  obtain ⟨h₃,h₄,rfl⟩ := List.append_of_mem hlat
  have hsec : Run (resolveCustomer env) InOrder start ((h₁++e::h₃)++later::h₄) s := by
    simpa using hrun
  obtain ⟨hpa,hord,heve⟩ := Run.split hsec
  rw [heve] at hres
  have hval := (resolved_before hres).1
  obtain ⟨hread,hstay⟩ := expired_stays hpa e (by simp)
  have hgone := hstay hexp
  have hlast := hord.2 e (by simp)
  omega

/-- Uses one after another never move the expiry of a session earlier, resolve it only before
its expiry, and not once it was found expired. A legacy expiry is a limit too and with it, as in
a store that does not renew, the expiry stays. A session opened by a login that is not to be
remembered resolves for a day only, as long as no use that resolves renews past that. -/
theorem session_lifetime (hrun : Run (resolveCustomer env) InOrder start h s) :
    (∀ e∈h, e.before.expiresAt≤e.after.expiresAt ∧
        (Resolved e → e.action.asked<e.before.expiresAt) ∧
        (∀ legacy, start.legacyExpiresAt=some legacy →
          (Resolved e → e.action.legacyAsked<legacy)∧e.after=e.before) ∧
        ((sessionPolicy env e.action.storeConfig).renewable=false → e.after=e.before)) ∧
      (∀ h₁ e h₂, h=h₁++e::h₂ → e.before.expiresAt≤e.action.asked →
        ∀ later∈h₂, ¬ Resolved later) ∧
      ∀ config now, createSession (loginSessionPolicy env config false) now=.ok start →
        (∀ e∈h, Resolved e → RenewsWithin env (now+86400000) e.before e.action) →
        ∀ e∈h, Resolved e → e.action.asked<now+86400000 := by
  have hat : ∀ e∈h, e=perform (resolveCustomer env) e.before e.action ∧
      e.before.legacyExpiresAt=start.legacyExpiresAt := by
    refine (Run.invariant (P := fun h row => row.legacyExpiresAt=start.legacyExpiresAt ∧
      ∀ e∈h, e=perform (resolveCustomer env) e.before e.action ∧
        e.before.legacyExpiresAt=start.legacyExpiresAt) hrun ⟨rfl,by simp⟩ ?_).2
    rintro h row use ⟨hleg,hall⟩ -
    refine ⟨(resolveCustomer_later env row use).2.trans hleg,fun e he => ?_⟩
    rcases mem_concat_iff.mp he with hold|rfl
    · exact hall e hold
    · exact ⟨rfl,hleg⟩
  have hval : ∀ e∈h, Resolved e → e.action.asked<e.before.expiresAt ∧
      ∀ legacy∈e.before.legacyExpiresAt, e.action.legacyAsked<legacy := by
    rintro e he ⟨customer,hres⟩
    rw [(hat e he).1] at hres
    exact resolved_before hres
  refine ⟨fun e he => ⟨?_,fun hres => (hval e he hres).1,fun legacy hleg => ⟨fun hres => ?_,?_⟩,?_⟩,
    ?_,?_⟩
  · rw [(hat e he).1]
    exact (resolveCustomer_later env _ _).1
  · exact (hval e he hres).2 legacy ((hat e he).2.trans hleg)
  · rw [(hat e he).1]
    exact resolveCustomer_fixed (.inl (by simp [(hat e he).2,hleg]))
  · intro hpol
    rw [(hat e he).1]
    exact resolveCustomer_fixed (.inr hpol)
  · rintro h₁ e h₂ rfl hexp
    exact expired_after hrun hexp
  · intro config now hlog hwit e he hres
    have hle : s.expiresAt≤now+86400000∧∀ e∈h, e.before.expiresAt≤now+86400000 := by
      refine Run.invariant (P := fun h row => (∀ e∈h, Resolved e → RenewsWithin env (now+86400000)
        e.before e.action) → row.expiresAt≤now+86400000∧∀ e∈h, e.before.expiresAt≤now+86400000)
        hrun (fun _ => ⟨createSession_within hlog,by simp⟩) ?_ hwit
      intro h row use ih _ hall
      obtain ⟨hrow,hpa⟩ := ih fun e he => hall e (List.mem_append_left _ he)
      refine ⟨resolveCustomer_within (hall _ List.mem_concat_self) hrow,fun e he => ?_⟩
      rcases mem_concat_iff.mp he with hold|rfl
      · exact hpa e hold
      · exact hrow
    exact (hval e he hres).1.trans_le (hle.2 e he)

/-- Deployment defaults. -/
def plainEnv : Env := ⟨30,false,7⟩

/-- A store with renewable sessions of thirty days. -/
def renewingStore : Option AuthConfig := some ⟨.number 30,.boolean true,.number 7⟩

/-- A use by a store's customer, all of it at one instant. -/
def useAt (storeConfig : Option AuthConfig) (now : ℤ) : Use :=
  ⟨some ⟨"ada",none,some "hash"⟩,storeConfig,false,true,now,now,now,now⟩

def history (uses : List Use) : List UseEvent :=
  (play (resolveCustomer plainEnv) [] ⟨86400000,none⟩ uses).1

/-- A session of a store that does not renew resolves within its first day. -/
theorem session_lifetime_plain : let h := history [useAt none 3600000]
    (∀ e∈h, Resolved e → e.action.asked<86400000) ∧
      h.map (·.result.toOption.join.isSome)=[true] := by
  have hnil : Run (resolveCustomer plainEnv) InOrder ⟨86400000,none⟩ [] ⟨86400000,none⟩ := .nil
  have hrun := hnil.play [useAt none 3600000] ⟨⟨by decide,by simp⟩,trivial⟩
  refine ⟨(session_lifetime hrun).2.2 none 0 (by decide +kernel) fun e he _ => ?_,by decide +kernel⟩
  obtain rfl := List.mem_singleton.mp he
  exact fun hren => by cases hren

/-- A login that is not to be remembered opens a session of a day in a renewing store. Used an
hour later it is renewed, and it resolves on the third day. -/
theorem session_lifetime_renewed :
    createSession (loginSessionPolicy plainEnv renewingStore false) 0=.ok ⟨86400000,none⟩ ∧
      Admitted (resolveCustomer plainEnv) InOrder [] ⟨86400000,none⟩
        [useAt renewingStore 3600000,useAt renewingStore 172800000] ∧
      (history [useAt renewingStore 3600000,useAt renewingStore 172800000]).map
        (·.result.toOption.join.isSome)=[true,true] := by
  refine ⟨by decide +kernel,⟨⟨by decide,by simp⟩,⟨by decide,by simp [perform,useAt]⟩,trivial⟩,?_⟩
  decide +kernel

end SellRight.CustomerSessions
