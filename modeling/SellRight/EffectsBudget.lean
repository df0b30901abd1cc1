import SellRight.EffectsFencing

/-!
# Attempt budget of one effect

A claim counts as an attempt whatever comes of it, while the budget is read
only when an attempt fails. Not-ready retries made before the seventh failure
therefore use up the budget: a row ends terminal at its eighth failure exactly
when its first seven attempts failed or no failure comes after them.
-/

namespace SellRight.EffectsBudget

open RowTable EffectsEngine EffectsFencing List

/-- A claim of the row with the run of its handler. -/
structure Attempt where
  (claimedAt endedAt : ℤ)
  run : HandlerRun

/-- The handler threw or asked for a plain retry. -/
def isFailure : HandlerRun → Bool
  | .threw _ => true
  | .returned (.retry retry) => retry.horizonMs.isNone
  | .returned _ => false

def notReadyHorizon : HandlerRun → Option ℤ
  | .returned (.retry retry) => retry.horizonMs
  | _ => none

def isSetback (a : Attempt) : Bool := isFailure a.run||(notReadyHorizon a.run).isSome

/-- Record how the handler of a claimed row ended: a throw becomes a failed
attempt, anything else is applied as returned. -/
def endAttempt (db : Database) (now : ℤ) (row : EffectRow) :
    HandlerRun → Option (ProcessResult×Database)
  | .threw message => markRetryOrTerminal db now row ⟨message,none,none⟩
  | .returned outcome => applyOutcome db now row outcome

/-- Claim the pending row and record how its handler ended. -/
def attemptEffect (id : ℕ) (db : Database) (a : Attempt) : Option (ProcessResult×Database) :=
  match db.rows.find? fun row => decide (row.id=id∧row.status=.pending) with
  | none => none
  | some row =>
    endAttempt (claimRow a.claimedAt db row) a.endedAt
      (claimedRow a.claimedAt db.nextToken (row.attempts+1) row) a.run

/-- Attempts made one after another, with the answer of each. -/
def runAttempts (id : ℕ) : Database → List Attempt → Option (List ProcessResult×Database)
  | db, [] => some ([],db)
  | db, a::rest =>
    match attemptEffect id db a with
    | none => none
    | some (result,next) =>
      (runAttempts id next rest).map fun (results,final) => (result::results,final)

section
variable (attempts : List Attempt)

/-- Time of the first failed or not-ready attempt. -/
def firstSetback : Option ℤ :=
  (attempts.find? isSetback).map Attempt.endedAt

def failures : ℕ := attempts.countP fun a => isFailure a.run

/-- A failure ends the row terminal exactly when it is the last of the failure
budget, and a not-ready retry does so only past its horizon. -/
def BudgetKept (results : List ProcessResult) : Prop :=
  ∀ k a, attempts[k]?=some a→(isFailure a.run=true →
      (results[k]?=some .terminal ↔ failures (attempts.take (k+1))=maxAttempts)) ∧
    ∀ horizon, notReadyHorizon a.run=some horizon → results[k]?=some .terminal →
      ∃ first, firstSetback attempts=some first∧horizon<a.endedAt-first

/-- A failure at the attempt limit or later comes after failures only, as far
as the attempts before the limit go. -/
def FailsFirst : Prop :=
  ∀ k a, attempts[k]?=some a→isFailure a.run=true→maxAttempts≤k+1 →
    ∀ b∈attempts.take (maxAttempts-1), isFailure b.run=true

end

section Steps

variable {db : Database} {id : ℕ} {row : EffectRow}

/-- The row after a claim and before its outcome is the only one its claimant
matches. -/
theorem claimRow_claimed (now : ℤ) (hrow : row∈db.rows) : (claimRow now db row).rows.any
      (claimedBy (claimedRow now db.nextToken (row.attempts+1) row))=true := by
  apply any_eq_true.mpr
  refine ⟨claimedRow now db.nextToken (row.attempts+1) row,
    mem_updateWhere.mpr (.inl ⟨row,hrow,by simp,rfl⟩),?_⟩
  simp [claimedBy,claimedRow]

theorem claimRow_ids (now : ℤ) (hids : (db.rows.map EffectRow.id).Nodup) :
    ((claimRow now db row).rows.map EffectRow.id).Nodup :=
  (map_updateWhere (f := claimedRow now db.nextToken (row.attempts+1)) EffectRow.id db.rows
    fun _ _ => rfl).symm ▸ hids

variable {f : EffectRow → EffectRow}

/-- A claim in force is written. -/
theorem fencedUpdate_claimed (hany : db.rows.any (claimedBy row)=true) :
    fencedUpdate db row f=some {db with rows := updateWhere (claimedBy row) f db.rows} := by
  rw [fencedUpdate,if_pos hany]

/-- No stored row of an identifier waits for a claim. -/
def NoneWaiting (db : Database) (id : ℕ) : Prop := ∀ cur∈db.rows, cur.id=id→cur.status≠.pending

/-- Rewriting every row of an identifier to a status other than pending leaves
none waiting. -/
theorem noneWaiting_write
    (hall : ∀ cur∈db.rows, cur.id=row.id→claimedBy row cur=true)
    (haft : ∀ cur, (f cur).status≠.pending) :
    NoneWaiting {db with rows := updateWhere (claimedBy row) f db.rows} row.id := by
  intro cur hcur hid
  rcases mem_updateWhere.mp hcur with ⟨old,-,-,rfl⟩|⟨hold,hot⟩
  · exact haft old
  · rw [hall cur hold hid] at hot
    cases hot

theorem markTerminal_claimed (now : ℤ) (reason : String) (hany : db.rows.any (claimedBy row)=true)
    (hall : ∀ cur∈db.rows, cur.id=row.id→claimedBy row cur=true) :
    ∃ next, markTerminal db now row reason=some next∧NoneWaiting next row.id := by
  have hwri := noneWaiting_write (f := terminalRow now row reason) hall fun _ h => by cases h
  simp only [markTerminal,fencedUpdate,hany,if_true]
  split
  · exact ⟨_,rfl,hwri⟩
  refine ⟨_,rfl,?_⟩
  simp only [enqueueEffects,foldl_cons,foldl_nil,enqueueEffect]
  split
  · exact hwri
  intro cur hcur
  rcases mem_concat_iff.mp hcur with hold|rfl
  · exact hwri cur hold
  · exact fun _ h => by cases h

/-- A retry of the claim in force gets the answer its row decides, and a row
that waits again keeps the claim's attempts and the first setback. -/
theorem markRetryOrTerminal_claimed (now : ℤ) (retry : Retry)
    (hids : (db.rows.map EffectRow.id).Nodup) (hany : db.rows.any (claimedBy row)=true)
    (hall : ∀ cur∈db.rows, cur.id=row.id→claimedBy row cur=true) :
    ∃ next, markRetryOrTerminal db now row retry =
        some (if exhausted now row retry then .terminal else .retry,next) ∧
      (exhausted now row retry=true → NoneWaiting next row.id) ∧
      (exhausted now row retry=false→(next.rows.map EffectRow.id).Nodup ∧
        ∃ cur∈db.rows, claimedBy row cur=true∧retriedRow now row retry cur∈next.rows) := by
  cases hexh : exhausted now row retry with
  | true =>
    obtain ⟨next,hnx,hno⟩ := markTerminal_claimed now retry.reason hany hall
    refine ⟨next,?_,fun _ => hno,fun h => (by cases h)⟩
    simp [markRetryOrTerminal,hexh,hnx]
  | false =>
    obtain ⟨cur,hcur,hcl⟩ := any_eq_true.mp hany
    refine ⟨{db with rows := updateWhere (claimedBy row) (retriedRow now row retry) db.rows},
      ?_,fun h => (by cases h),fun _ => ⟨?_,cur,hcur,hcl,?_⟩⟩
    · simp [markRetryOrTerminal,hexh,fencedUpdate,hany]
    · exact (map_updateWhere (f := retriedRow now row retry) EffectRow.id db.rows
        fun _ _ => rfl).symm ▸ hids
    · exact mem_updateWhere.mpr (.inl ⟨cur,hcur,hcl,rfl⟩)

/-- The columns of a row that decide its next attempts. -/
structure Waiting (db : Database) (id made : ℕ) (first : Option ℤ) : Prop where
  ids : (db.rows.map EffectRow.id).Nodup
  /-- The row waits with this many attempts and this first setback. -/
  row : ∃ row∈db.rows, row.id=id∧row.status=.pending∧row.attempts=made∧row.firstFailedAt=first

/-- An attempt of a waiting row gets the answer its columns decide, and after
a retry the row waits with one attempt more. -/
theorem attemptEffect_waiting {made : ℕ} {first : Option ℤ} (hwai : Waiting db id made first)
    (a : Attempt) : ∃ result next, attemptEffect id db a=some (result,next) ∧
      (isFailure a.run=true → result=if maxAttempts ≤ made+1 then .terminal else .retry) ∧
      (∀ hori, notReadyHorizon a.run=some hori →
        result=if hori<a.endedAt-first.getD a.endedAt then .terminal else .retry) ∧
      (isSetback a=false → result≠.retry)∧(result≠.retry → NoneWaiting next id) ∧
      (result=.retry → Waiting next id (made+1) (some (first.getD a.endedAt))) := by
  obtain ⟨row,hrow,rfl,hpen,hmad,hfst⟩ := hwai.row
  have hfin := find_pending hwai.ids hrow hpen
  have hany := claimRow_claimed a.claimedAt hrow
  have hids : ((claimRow a.claimedAt db row).rows.map EffectRow.id).Nodup :=
    claimRow_ids a.claimedAt hwai.ids
  set claimed := claimedRow a.claimedAt db.nextToken (row.attempts+1) row with hclaimed
  have hall : ∀ cur∈(claimRow a.claimedAt db row).rows, cur.id=claimed.id →
      claimedBy claimed cur=true := by
    intro cur hcur hid
    rcases mem_updateWhere.mp hcur with ⟨old,-,heq,rfl⟩|⟨-,hot⟩
    · simpa [claimedBy,hclaimed,claimedRow] using heq
    · exact absurd hid (of_decide_eq_false hot)
  have hret : ∀ retry : Retry, ∃ next, markRetryOrTerminal (claimRow a.claimedAt db row) a.endedAt
          claimed retry=some (if exhausted a.endedAt claimed retry then .terminal else .retry,next) ∧
      (exhausted a.endedAt claimed retry=true → NoneWaiting next row.id) ∧
      (exhausted a.endedAt claimed retry=false → Waiting next row.id (made+1) (some (first.getD a.endedAt))) := by
    intro retry
    obtain ⟨next,hnx,hno,haft⟩ := markRetryOrTerminal_claimed a.endedAt retry hids hany hall
    refine ⟨next,hnx,hno,fun hgoe => ?_⟩
    obtain ⟨hnod,cur,hcur,hcl,hmem⟩ := haft hgoe
    obtain ⟨hid,-,-,hpro⟩ : cur.id=row.id∧_∧_∧cur.status=.processing :=
      of_decide_eq_true hcl
    have hatte : cur.attempts=row.attempts+1 := by
      rcases mem_updateWhere.mp hcur with ⟨old,-,-,rfl⟩|⟨-,hot⟩
      · rfl
      · exact absurd hid (of_decide_eq_false hot)
    refine ⟨hnod,retriedRow a.endedAt _ retry cur,hmem,hid,rfl,?_,?_⟩
    · exact hatte.trans (by rw [hmad])
    · simp [retriedRow,hclaimed,claimedRow,hfst]
  have hpla : ∀ reason delay, exhausted a.endedAt claimed ⟨reason,delay,none⟩ =
      decide (maxAttempts ≤ made+1) := by
    simp [exhausted,hclaimed,claimedRow,hmad]
  have hrdy : ∀ reason delay hori, exhausted a.endedAt claimed ⟨reason,delay,some hori⟩ =
      decide (hori<a.endedAt-first.getD a.endedAt) := by
    simp [exhausted,hclaimed,claimedRow,hfst]
  have hatt : attemptEffect row.id db a=endAttempt (claimRow a.claimedAt db row) a.endedAt
      claimed a.run := by
    simp only [attemptEffect,hfin,hclaimed]
  rw [hatt,isSetback]
  cases a.run with
  | threw message =>
    obtain ⟨next,hnx,hno,haft⟩ := hret ⟨message,none,none⟩
    rw [hpla] at hnx hno haft
    refine ⟨_,next,hnx,fun _ => (by simp),fun _ h => (by cases h),
      fun h => (by simp [isFailure] at h),?_,?_⟩
    · intro h
      exact hno (by simpa using h)
    · intro h
      exact haft (by simpa using h)
  | returned outcome =>
    cases outcome with
    | retry retry =>
      obtain ⟨reason,delay,hori⟩ := retry
      obtain ⟨next,hnx,hno,haft⟩ := hret ⟨reason,delay,hori⟩
      refine ⟨_,next,hnx,?_,?_,?_,?_,?_⟩
      · intro hfai
        obtain rfl : hori=none := by simpa [isFailure] using hfai
        rw [hpla]
        simp
      · intro other hot
        obtain rfl : hori=some other := hot
        rw [hrdy]
        simp
      · intro h
        cases hori <;> simp [isFailure,notReadyHorizon] at h
      · intro h
        exact hno (by simpa using h)
      · intro h
        exact haft (by simpa using h)
    | terminal reason =>
      obtain ⟨next,hnx,hno⟩ := markTerminal_claimed a.endedAt reason hany hall
      refine ⟨.terminal,next,?_,fun h => (by cases h),fun _ h => (by cases h),
        fun _ => (by decide),fun _ => hno,fun h => (by cases h)⟩
      simp [endAttempt,applyOutcome,hnx]
    | done text =>
      have hnx := fencedUpdate_claimed (f := doneRow text) hany
      have hwri := noneWaiting_write (f := doneRow text) hall fun _ h => by cases h
      refine ⟨.done,_,?_,fun h => (by cases h),fun hori h => (by cases h),fun _ => (by decide),
        fun _ => hwri,fun h => (by cases h)⟩
      simp only [endAttempt,applyOutcome,hnx,Option.map_some]

theorem attemptEffect_noneWaiting (hno : NoneWaiting db id) (a : Attempt) :
    attemptEffect id db a=none := by
  have hfin : db.rows.find? (fun row => decide (row.id=id∧row.status=.pending))=none := by
    rw [List.find?_eq_none]
    intro cur hcur hmt
    obtain ⟨hid,hpen⟩ := of_decide_eq_true hmt
    exact hno cur hcur hid hpen
  simp only [attemptEffect,hfin]

end Steps

section Histories

variable {id : ℕ}
variable {attempts : List Attempt}

/-- Answers along a history: a failure ends the row exactly when the claims
reach the limit, a not-ready retry only past its horizon, and every earlier
attempt was a setback below the limit. -/
theorem runAttempts_answers {db final : Database} {made : ℕ}
    {first : Option ℤ} {results : List ProcessResult} (hwai : Waiting db id made first)
    (hrun : runAttempts id db attempts=some (results,final)) :
    ∀ k a, attempts[k]?=some a→∃ result, results[k]?=some result ∧
      (isFailure a.run=true→(result=.terminal ↔ maxAttempts ≤ made+k+1)) ∧
      (∀ hori, notReadyHorizon a.run=some hori → result=.terminal →
        ∃ start, first.or (firstSetback attempts)=some start∧hori<a.endedAt-start) ∧
      ∀ j b, j<k→attempts[j]?=some b→isSetback b=true ∧
        (isFailure b.run=true→made+j+1 < maxAttempts) := by
  induction attempts generalizing db made first results with
  | nil => exact fun k a h => by simp at h
  | cons head rest ih =>
    obtain ⟨result,next,hhd,hfai,hrdy,hsetb,hend,hret⟩ :=
      attemptEffect_waiting hwai head
    simp only [runAttempts,hhd,Option.map_eq_some_iff] at hrun
    obtain ⟨⟨others,last⟩,hrt,hres⟩ := hrun
    obtain ⟨rfl,rfl⟩ : result::others=results∧last=final := by simpa using hres
    intro k a hk
    cases k with
    | zero =>
      obtain rfl : head=a := by simpa using hk
      refine ⟨result,rfl,fun h => ?_,fun hori hhor hter => ?_,
        fun j b hj => absurd hj (Nat.not_lt_zero j)⟩
      · rw [hfai h,Nat.add_zero]
        split <;> simp_all
      have hpas := hrdy hori hhor
      rw [hter] at hpas
      have hset' : isSetback head=true := by simp [isSetback,hhor]
      refine ⟨first.getD head.endedAt,?_,?_⟩
      · cases first <;> simp [firstSetback,hset']
      · by_contra hlat
        rw [if_neg hlat] at hpas
        cases hpas
    | succ k =>
      have hgoe : result=.retry := by
        by_contra hsto
        cases rest with
        | nil => simp at hk
        | cons => simp [runAttempts,attemptEffect_noneWaiting (hend hsto)] at hrt
      have hset' : isSetback head=true := by
        by_contra hno
        exact hsetb (Bool.eq_false_iff.mpr hno) hgoe
      obtain ⟨answer,hans,hct,hhor,hear⟩ :=
        ih (hret hgoe) hrt k a (by simpa using hk)
      refine ⟨answer,by simpa using hans,?_,?_,?_⟩
      · intro h
        rw [hct h]
        omega
      · intro hori h hter
        obtain ⟨start,hsta,hlat⟩ := hhor hori h hter
        refine ⟨start,?_,hlat⟩
        rw [← hsta]
        cases first <;> simp [firstSetback,hset']
      · intro j b hj hb
        cases j with
        | zero =>
          obtain rfl : head=b := by simpa using hb
          refine ⟨hset',fun h => ?_⟩
          have hlim := hfai h
          rw [hgoe] at hlim
          by_contra hlt
          rw [if_pos (by omega)] at hlim
          cases hlim
        | succ j =>
          obtain ⟨hset,hlim⟩ := hear j b (by omega) (by simpa using hb)
          exact ⟨hset,fun h => by have := hlim h; omega⟩

/-- Up to a failure at the limit or later, failures come before the limit
apart from that one. -/
theorem failures_take {k : ℕ} {a : Attempt}
    (hk : attempts[k]?=some a) (hfail : isFailure a.run=true) (hlim : maxAttempts≤k+1)
    (hear : ∀ j b, j<k→attempts[j]?=some b→isFailure b.run=true→j+1 < maxAttempts) :
    failures (attempts.take (k+1))=failures (attempts.take (maxAttempts-1))+1 := by
  have hspl : attempts.take k =
      attempts.take (maxAttempts-1)++(attempts.take k).drop (maxAttempts-1) := by
    have htak : (attempts.take k).take (maxAttempts-1)=attempts.take (maxAttempts-1) := by
      rw [take_take,Nat.min_eq_left (by omega)]
    rw [← htak,take_append_drop]
  have hno : failures ((attempts.take k).drop (maxAttempts-1))=0 := by
    rw [failures,countP_eq_zero]
    intro b hb hfai
    obtain ⟨i,hi,hget⟩ := mem_iff_getElem.mp hb
    rw [getElem_drop,getElem_take] at hget
    rw [length_drop,length_take] at hi
    have hlt : maxAttempts-1+i<k := by omega
    have hso : attempts[maxAttempts-1+i]?=some b := by rw [List.getElem?_eq_getElem (by omega),hget]
    have hsma := hear _ b hlt hso hfai
    omega
  rw [take_add_one,hk]
  simp only [failures] at hno ⊢
  rw [countP_append,hspl,countP_append,hno]
  simp [hfail]

/-- Along a history of one effect from its first claim the failure budget and
the horizons are kept exactly when a failure at the attempt limit or later
comes after failures only. -/
theorem attempt_budget_iff {db final : Database} {attempts : List Attempt}
    {results : List ProcessResult} (hwaiting : Waiting db id 0 none)
    (hrun : runAttempts id db attempts=some (results,final)) :
    BudgetKept attempts results ↔ FailsFirst attempts := by
  have hans := runAttempts_answers hwaiting hrun
  have hcou : ∀ k a, attempts[k]?=some a→isFailure a.run=true→maxAttempts≤k+1 →
      failures (attempts.take (k+1))=failures (attempts.take (maxAttempts-1))+1 := by
    intro k a hk hfai hlim
    obtain ⟨-,-,-,-,hear⟩ := hans k a hk
    apply failures_take hk hfai hlim
    intro j b hj hb hfails
    have hsma := (hear j b hj hb).2 hfails
    omega
  constructor
  · intro hkp k a hk hfai hlim
    obtain ⟨result,hres,hter,-,-⟩ := hans k a hk
    have hend : results[k]?=some .terminal := by rw [hres,(hter hfai).mpr (by omega)]
    have hbud := ((hkp k a hk).1 hfai).mp hend
    rw [hcou k a hk hfai hlim] at hbud
    have hlen : (attempts.take (maxAttempts-1)).length=maxAttempts-1 := by
      have hbou := (List.getElem?_eq_some_iff.mp hk).1
      rw [length_take]
      omega
    have hall : failures (attempts.take (maxAttempts-1)) =
        (attempts.take (maxAttempts-1)).length := by
      omega
    exact (countP_eq_length.mp hall)
  · intro hfails k a hk
    obtain ⟨result,hres,hter,hhor,-⟩ := hans k a hk
    rw [hres]
    refine ⟨fun hfai => ?_,fun hori h hend => ?_⟩
    · have hend : some result=some ProcessResult.terminal ↔ maxAttempts≤k+1 := by
        rw [Option.some_inj,hter hfai]
        omega
      rw [hend]
      constructor
      · intro hlim
        rw [hcou k a hk hfai hlim]
        have hall : failures (attempts.take (maxAttempts-1)) =
            (attempts.take (maxAttempts-1)).length :=
          countP_eq_length.mpr (hfails k a hk hfai hlim)
        have hbou := (List.getElem?_eq_some_iff.mp hk).1
        rw [hall,length_take]
        have hpos : 0 < maxAttempts := by decide
        omega
      · have hle : failures (attempts.take (k+1))≤(attempts.take (k+1)).length :=
          countP_le_length
        rw [length_take] at hle
        omega
    · obtain ⟨start,hsta,hlat⟩ := hhor hori h (Option.some_inj.mp hend)
      exact ⟨start,by simpa using hsta,hlat⟩

/-- A stored notification effect that nobody has claimed yet. -/
def sampleDatabase : Database where
  rows := [newRow 0 ⟨.orderPaidTransition, "order"⟩ ⟨.notification,none⟩ 0]
  operations := [⟨.orderPaidTransition, "order"⟩]
  receipts := []
  announced := []
  nextId := 1
  nextToken := 0

/-- The sample effect waits for its first claim. -/
theorem sampleDatabase_waiting : Waiting sampleDatabase 0 0 none :=
  ⟨by decide,_,mem_singleton_self _,rfl,rfl,rfl,rfl⟩

/-- A not-ready retry with a horizon of three days. -/
def notReadyAttempt (time : ℤ) : Attempt :=
  ⟨time,time,.returned (.retry ⟨"licence_not_linked",some 60000,some 259200000⟩)⟩

/-- A handler that throws. -/
def failedAttempt (time : ℤ) : Attempt := ⟨time,time,.threw "boom"⟩

/-- Seven not-ready retries followed by one failure. -/
def notReadyThenFailed : List Attempt :=
  [notReadyAttempt 0,notReadyAttempt 60000,notReadyAttempt 120000,notReadyAttempt 180000,
    notReadyAttempt 240000,notReadyAttempt 300000,notReadyAttempt 360000,failedAttempt 420000]

/-- The first failure ends the row terminal after seven not-ready retries. -/
theorem attempt_budget_notReady :
    ∃ results final, runAttempts 0 sampleDatabase notReadyThenFailed=some (results,final) ∧
      results[7]?=some .terminal∧failures notReadyThenFailed=1 ∧
      ¬ BudgetKept notReadyThenFailed results := by
  refine ⟨[.retry,.retry,.retry,.retry,.retry,.retry,.retry,.terminal],_,rfl,rfl,
    by decide,fun hkp => ?_⟩
  have hbud := ((hkp 7 (failedAttempt 420000) rfl).1 rfl).mp rfl
  exact absurd hbud (by decide)

/-- Seven failures, a not-ready retry and the eighth failure. -/
def failedThenNotReady : List Attempt :=
  [failedAttempt 0,failedAttempt 4000000,failedAttempt 8000000,failedAttempt 12000000,
    failedAttempt 16000000,failedAttempt 20000000,failedAttempt 24000000,
    notReadyAttempt 28000000,failedAttempt 32000000]

/-- The budget is kept when the not-ready retry comes after seven failures. -/
theorem attempt_budget_failedFirst :
    ∃ results final, runAttempts 0 sampleDatabase failedThenNotReady=some (results,final) ∧
      results[8]?=some .terminal∧BudgetKept failedThenNotReady results := by
  have hfai : FailsFirst failedThenNotReady := fun _ _ _ _ _ => by decide
  exact ⟨[.retry,.retry,.retry,.retry,.retry,.retry,.retry,.retry,.terminal],_,rfl,rfl,
    (attempt_budget_iff sampleDatabase_waiting rfl).mpr hfai⟩

end Histories

end SellRight.EffectsBudget
