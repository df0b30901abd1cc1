import SellRight.EffectsEngine

/-!
# Fenced commits of effects

Every write of a claimed row checks its token, and a token in force is always
that of the latest claim. The work of a handler is therefore committed with
the finished row at most once, whatever claims are taken over, retried, ended
and requeued in between, and a claimant that was overtaken commits nothing.
-/

namespace SellRight.EffectsFencing

open RowTable RunHistory EffectsEngine List

/-- Tokens of the claims handed out on a row, oldest first. -/
def claimsOf (claims : List Claim) (id : ℕ) : List ℕ :=
  (claims.filter fun claim => decide (claim.effectId=id)).map Claim.token

/-- Times a transaction committed handler work on a row as done. -/
def doneCommits (commits : List HandlerCommit) (id : ℕ) : ℕ :=
  commits.countP fun commit => decide (commit.effectId=id∧commit.result=.done)

/-- The row with this identifier is finished. -/
def isDone (id : ℕ) (row : EffectRow) : Bool :=
  decide (row.id=id)&&decide (row.status=.done)

/-- The tables, the claims handed out and the work committed so far agree. -/
structure Fenced (db : Database) (claims : List Claim) (commits : List HandlerCommit) : Prop where
  ids : (db.rows.map EffectRow.id).Nodup
  fresh : ∀ row∈db.rows, row.id<db.nextId
  tokens : ∀ claim∈claims, claim.token<db.nextToken
  distinct : (claims.map Claim.token).Nodup
  /-- A row that is processing carries the token of its latest claim. -/
  latest : ∀ row∈db.rows, row.status=.processing →
    ∃ token, row.claimToken=some token∧(claimsOf claims row.id).getLast?=some token
  finished : ∀ id, doneCommits commits id=db.rows.countP (isDone id)

variable {row : EffectRow} {p : EffectRow → Bool} {f : EffectRow → EffectRow}
  {result : ProcessResult} {next db : Database} {now : ℤ} {reason : String} {retry : Retry}
  {outcome : EffectOutcome} {registry : Registry} {outcomes : ℕ → HandlerRun}

section Writes

variable {claims : List Claim} {commits : List HandlerCommit}

theorem claimedBy_eq_true {cur : EffectRow} (h : claimedBy row cur=true) :
    cur.id=row.id∧row.claimToken≠none∧cur.claimToken=row.claimToken ∧
      cur.status=.processing := of_decide_eq_true h

theorem claimsOf_append (claims : List Claim) (id token row : ℕ) :
    claimsOf (claims++[⟨row,token⟩]) id =
      if row=id then claimsOf claims id++[token] else claimsOf claims id := by
  rw [claimsOf,claimsOf,filter_append,map_append]
  split_ifs with hid
  · simp [hid]
  · simp [hid]

theorem doneCommits_append (commits : List HandlerCommit) (id row : ℕ) (result : ProcessResult) :
    doneCommits (commits++[⟨row,result⟩]) id =
      doneCommits commits id+if row=id∧result=.done then 1 else 0 := by
  rw [doneCommits,doneCommits,countP_append]
  simp [countP_cons]

/-- A token handed out names one claim. -/
theorem Fenced.once (hfen : Fenced db claims commits) (hrow : row∈db.rows)
    (hsta : row.status=.processing) :
    ∃ token, row.claimToken=some token∧(claimsOf claims row.id).getLast?=some token ∧
      claims.filter (fun claim => decide (claim.token=token))=[⟨row.id,token⟩] := by
  obtain ⟨token,htok,hlt⟩ := hfen.latest row hrow hsta
  refine ⟨token,htok,hlt,?_⟩
  have hmem : token∈claimsOf claims row.id := mem_of_getLast? hlt
  obtain ⟨claim,hcl,heq⟩ := mem_map.mp hmem
  obtain ⟨hcl,hid⟩ := mem_filter.mp hcl
  have hkey : claim=⟨row.id,token⟩ := by
    cases claim
    simp_all
  have hall : ∀ other∈claims, decide (other.token=token)=decide (other=claim) := by
    intro other hot
    rw [decide_eq_decide]
    constructor
    · intro hot'
      exact eq_of_key_eq Claim.token hfen.distinct hot hcl (hot'.trans heq.symm)
    · rintro rfl
      exact heq
  have hnod : claims.Nodup := Nodup.of_map _ hfen.distinct
  rw [filter_congr hall,← hkey]
  have hfil := Nodup.filter (fun other => decide (other=claim)) hnod
  refine perm_singleton.mp ((perm_ext_iff_of_nodup hfil (by simp)).mpr ?_)
  intro other
  simp only [mem_filter,decide_eq_true_eq,mem_singleton]
  exact ⟨fun h => h.2,fun h => ⟨h ▸ hcl,h⟩⟩

/-- On distinct rows the fence selects one row. -/
theorem claimedBy_eq_key (hids : (db.rows.map EffectRow.id).Nodup) {cur : EffectRow}
    (hcur : cur∈db.rows) (hcl : claimedBy row cur=true) :
    ∀ other∈db.rows, claimedBy row other=decide (other.id=cur.id) := by
  intro other hot
  rw [Bool.eq_iff_iff,decide_eq_true_eq]
  constructor
  · intro h
    exact (claimedBy_eq_true h).1.trans (claimedBy_eq_true hcl).1.symm
  · intro heq
    rw [eq_of_key_eq EffectRow.id hids hot hcur heq]
    exact hcl

theorem find_pending (hids : (db.rows.map EffectRow.id).Nodup)
    (hrow : row∈db.rows) (hpen : row.status=.pending) :
    db.rows.find? (fun cur => decide (cur.id=row.id∧cur.status=.pending))=some row :=
  find_unique hrow (by simp [hpen]) fun _ hcur hmt =>
    eq_of_key_eq EffectRow.id hids hcur hrow (of_decide_eq_true hmt).1

section
variable (hfen : Fenced db claims commits)
include hfen

/-- A write that leaves no row processing keeps the agreement when the finished
rows are the committed ones. -/
theorem Fenced.update {done : List HandlerCommit} (hid : ∀ row, (f row).id=row.id)
    (haft : ∀ row, (f row).status≠.processing)
    (hfin : ∀ id, doneCommits done id=(updateWhere p f db.rows).countP (isDone id)) :
    Fenced {db with rows := updateWhere p f db.rows} claims done where
  ids := by
    rw [map_updateWhere EffectRow.id db.rows fun row _ => hid row]
    exact hfen.ids
  fresh := by
    intro row hrow
    rcases mem_updateWhere.mp hrow with ⟨old,hold,-,rfl⟩|⟨hold,-⟩
    · exact (hid old).symm ▸ hfen.fresh old hold
    · exact hfen.fresh row hold
  tokens := hfen.tokens
  distinct := hfen.distinct
  latest := by
    intro row hrow hsta
    rcases mem_updateWhere.mp hrow with ⟨old,-,-,rfl⟩|⟨hold,-⟩
    · exact absurd hsta (haft old)
    · exact hfen.latest row hold hsta
  finished := hfin

/-- A write that ends or postpones open rows keeps the agreement. -/
theorem Fenced.write (hid : ∀ row, (f row).id=row.id)
    (hbef : ∀ row∈db.rows, p row=true → row.status≠.done)
    (haft : ∀ row, (f row).status=.pending∨(f row).status=.terminal) :
    Fenced {db with rows := updateWhere p f db.rows} claims commits := by
  refine hfen.update hid (fun row => ?_) fun id => ?_
  · rcases haft row with h|h <;> rw [h] <;> decide
  rw [hfen.finished id,countP_updateWhere_eq]
  intro row hrow hp
  have hold := hbef row hrow hp
  rw [isDone,isDone,hid row,decide_eq_false hold]
  rcases haft row with h|h <;> rw [h] <;> rfl

theorem Fenced.finish (hcla : db.rows.any (claimedBy row)=true)
    (hid : ∀ row, (f row).id=row.id) (haft : ∀ row, (f row).status=.done) :
    Fenced {db with rows := updateWhere (claimedBy row) f db.rows} claims
      (commits++[⟨row.id,.done⟩]) := by
  refine hfen.update hid (fun row => by rw [haft row]; decide) fun id => ?_
  obtain ⟨cur,hcur,hcl⟩ := any_eq_true.mp hcla
  obtain ⟨hrow,-,-,hsta⟩ := claimedBy_eq_true hcl
  rw [doneCommits_append,hfen.finished id]
  rw [updateWhere_congr (claimedBy_eq_key hfen.ids hcur hcl)]
  by_cases heq : row.id=id
  · rw [if_pos ⟨heq,rfl⟩,countP_update_key EffectRow.id (isDone id) hfen.ids hcur]
    · simp [isDone,hsta]
    · simp [isDone,haft,hid,hrow,heq]
  · rw [if_neg (fun h => heq h.1),countP_updateWhere_eq]
    · rfl
    · intro other _ hot
      have hot : other.id=cur.id := of_decide_eq_true hot
      simp [isDone,hid,hot,hrow,heq]

/-- Committing work with a row that is not finished keeps the agreement. -/
theorem Fenced.commit (id : ℕ)
    (hres : result≠.done) : Fenced db claims (commits++[⟨id,result⟩]) := by
  refine {hfen with finished := fun other => ?_}
  rw [doneCommits_append,if_neg (fun h => hres h.2)]
  exact hfen.finished other

theorem Fenced.claim {id : ℕ} (now : ℤ) (attempts : ℕ)
    (hbef : ∀ row∈db.rows, p row=true → row.id=id∧row.status≠.done)
    (hhit : ∃ row∈db.rows, p row=true) :
    Fenced
      {db with
        rows := updateWhere p (claimedRow now db.nextToken attempts) db.rows
        nextToken := db.nextToken+1}
      (claims++[⟨id,db.nextToken⟩]) commits where
  ids := by
    rw [map_updateWhere (f := claimedRow now db.nextToken attempts) EffectRow.id db.rows
      fun row _ => rfl]
    exact hfen.ids
  fresh := by
    intro other hot
    rcases mem_updateWhere.mp hot with ⟨old,hold,-,rfl⟩|⟨hold,-⟩
    · exact hfen.fresh old hold
    · exact hfen.fresh other hold
  tokens := by
    intro claim hcl
    rcases mem_append.mp hcl with hold|hnew
    · exact (hfen.tokens claim hold).trans (Nat.lt_succ_self _)
    · cases mem_singleton.mp hnew
      exact Nat.lt_succ_self _
  distinct := by
    apply nodup_map_append Claim.token hfen.distinct
    intro old hold heq
    exact absurd (hfen.tokens old hold) (by rw [heq]; exact lt_irrefl _)
  latest := by
    intro other hot hsta
    rw [claimsOf_append]
    rcases mem_updateWhere.mp hot with ⟨old,hold,hp,rfl⟩|⟨hold,hp⟩
    · refine ⟨db.nextToken,rfl,?_⟩
      have hid : id=(claimedRow now db.nextToken attempts old).id := (hbef old hold hp).1.symm
      rw [if_pos hid,getLast?_append]
      rfl
    · obtain ⟨token,htok,hlt⟩ := hfen.latest other hold hsta
      refine ⟨token,htok,?_⟩
      have hne : id≠other.id := by
        rintro rfl
        obtain ⟨hit,hhit,hphi⟩ := hhit
        have heq := eq_of_key_eq EffectRow.id hfen.ids hhit hold (hbef hit hhit hphi).1
        rw [heq,hp] at hphi
        cases hphi
      rw [if_neg hne]
      exact hlt
  finished := by
    intro other
    rw [hfen.finished other]
    rw [countP_updateWhere_eq]
    intro row hrow hp
    simp [isDone,claimedRow,(hbef row hrow hp).2]

/-- A new row keeps the agreement. -/
theorem Fenced.enqueue (now : ℤ) (op : Operation)
    (req : EffectRequest) : Fenced (enqueueEffect now op db req) claims commits := by
  have hsto : Fenced
      {db with rows := db.rows++[newRow now op req db.nextId],nextId := db.nextId+1}
      claims commits := by
    constructor
    case ids =>
      apply nodup_map_append EffectRow.id hfen.ids
      intro old hold heq
      have hlt := hfen.fresh old hold
      rw [heq] at hlt
      exact absurd hlt (lt_irrefl _)
    case fresh =>
      intro row hrow
      rcases mem_append.mp hrow with hold|hnew
      · exact (hfen.fresh row hold).trans (Nat.lt_succ_self _)
      · cases mem_singleton.mp hnew
        exact Nat.lt_succ_self _
    case tokens => exact hfen.tokens
    case distinct => exact hfen.distinct
    case latest =>
      intro row hrow hsta
      rcases mem_append.mp hrow with hold|hnew
      · exact hfen.latest row hold hsta
      · cases mem_singleton.mp hnew
        simp only [newRow] at hsta
        split at hsta <;> cases hsta
    case finished =>
      intro id
      rw [hfen.finished id,countP_append,countP_singleton]
      have hnew : isDone id (newRow now op req db.nextId)=false := by
        simp only [isDone,newRow]
        split <;> simp
      rw [hnew]
      rfl
  unfold enqueueEffect
  split
  · exact hfen
  split
  · exact {hsto with}
  · exact hsto

/-- New rows keep the agreement. -/
theorem Fenced.enqueueAll (now : ℤ) (op : Operation) (requests : List EffectRequest) :
    Fenced (enqueueEffects now op db requests) claims commits := by
  induction requests generalizing db with
  | nil => exact hfen
  | cons req _ ih => exact ih (hfen.enqueue now op req)

end

/-- The answer given with a write comes with the write. -/
theorem written_eq {answer result : ProcessResult} {written : Option Database} {next : Database}
    (h : written.map (fun db => (answer,db))=some (result,next)) :
    written=some next∧result=answer := by
  obtain ⟨_,hwrit,hans⟩ := Option.map_eq_some_iff.mp h
  cases hans
  exact ⟨hwrit,rfl⟩

/-- A fenced write happened exactly when the claim was still in force. -/
theorem fencedUpdate_eq_some {write : EffectRow → EffectRow} :
    fencedUpdate db row write=some next ↔ db.rows.any (claimedBy row)=true ∧
      next = {db with rows := updateWhere (claimedBy row) write db.rows} := by
  unfold fencedUpdate
  split
  · next h => simp [h,eq_comm]
  · next h => simp [h]

/-- Status of a row after its claim was processed. -/
def resultStatus : ProcessResult → EffectStatus
  | .done => .done
  | .retry => .pending
  | .terminal => .terminal
  | .stale => .terminal

/-- The outcome closes the claimed row. -/
def closes (now : ℤ) (row : EffectRow) : EffectOutcome → Bool
  | .done _ => true
  | .terminal _ => true
  | .retry retry => exhausted now row retry

/-- Two versions of one stored effect. -/
def SameEffect (a b : EffectRow) : Prop :=
  a.id=b.id∧a.operation=b.operation∧a.effectKind=b.effectKind

theorem SameEffect.refl : SameEffect row row := ⟨rfl,rfl,rfl⟩

/-- Versions of versions are versions. -/
theorem SameEffect.trans {a b c : EffectRow} (hab : SameEffect a b) (hbc : SameEffect b c) :
    SameEffect a c :=
  ⟨hab.1.trans hbc.1,hab.2.1.trans hbc.2.1,hab.2.2.trans hbc.2.2⟩

/-- A result was recorded: the row of the claim has its status, and only a row
that ended terminal asks for a review. -/
def Writes (db : Database) (now : ℤ) (row : EffectRow) (result : ProcessResult)
    (next : Database) : Prop :=
  db.rows.any (claimedBy row)=true ∧
    ∃ (f : EffectRow → EffectRow) (announced : List ℕ) (reviews : List EffectRequest),
      (∀ cur, SameEffect cur (f cur)∧(f cur).status=resultStatus result) ∧
      (∀ req∈reviews, req.kind=.adminReview∧result=.terminal) ∧
      next=enqueueEffects now row.operation {db with
        rows := updateWhere (claimedBy row) f db.rows,announced := announced} reviews

theorem fencedUpdate_writes (hwri : fencedUpdate db row f=some next)
    (hf : ∀ cur, SameEffect cur (f cur)∧(f cur).status=resultStatus result) :
    Writes db now row result next := by
  obtain ⟨hcla,rfl⟩ := fencedUpdate_eq_some.mp hwri
  exact ⟨hcla,f,db.announced,[],hf,nofun,rfl⟩

theorem markTerminal_writes (hwri : markTerminal db now row reason=some next) :
    Writes db now row .terminal next := by
  unfold markTerminal at hwri
  split at hwri
  · cases hwri
  · next hwrit =>
    obtain ⟨hcla,rfl⟩ := fencedUpdate_eq_some.mp hwrit
    refine ⟨hcla,terminalRow now row reason,db.announced++[row.id],?_⟩
    simp only at hwri
    split at hwri
    · cases hwri
      exact ⟨[],fun _ => ⟨.refl,rfl⟩,nofun,rfl⟩
    · cases hwri
      exact ⟨[⟨.adminReview,some reason⟩],fun _ => ⟨.refl,rfl⟩,by simp,rfl⟩

/-- A recorded outcome writes its result, which is another attempt exactly
when the outcome does not close the row. -/
theorem applyOutcome_writes (hwri : applyOutcome db now row outcome=some (result,next)) :
    Writes db now row result next∧(result=.retry ↔ closes now row outcome=false) ∧
      (result=.done → ∃ text, outcome=.done text) := by
  cases outcome with
  | done text =>
    obtain ⟨hwrit,rfl⟩ := written_eq hwri
    exact ⟨fencedUpdate_writes hwrit fun _ => ⟨.refl,rfl⟩,by simp [closes],fun _ => ⟨text,rfl⟩⟩
  | retry =>
    rw [applyOutcome,markRetryOrTerminal] at hwri
    split at hwri
    · next hexh =>
      obtain ⟨hwrit,rfl⟩ := written_eq hwri
      exact ⟨markTerminal_writes hwrit,by simp [closes,hexh],nofun⟩
    · next hexh =>
      obtain ⟨hwrit,rfl⟩ := written_eq hwri
      exact ⟨fencedUpdate_writes hwrit fun _ => ⟨.refl,rfl⟩,by simp [closes,hexh],nofun⟩
  | terminal =>
    obtain ⟨hwrit,rfl⟩ := written_eq hwri
    exact ⟨markTerminal_writes hwrit,by simp [closes],nofun⟩

/-- A failed attempt writes a result other than done. -/
theorem failed_writes (hwri : markRetryOrTerminal db now row retry=some (result,next)) :
    Writes db now row result next∧result≠.done := by
  have happ : applyOutcome db now row (.retry retry)=some (result,next) := hwri
  obtain ⟨hwrit,-,hdn⟩ := applyOutcome_writes happ
  exact ⟨hwrit,fun hres => by cases (hdn hres).choose_spec⟩

/-- Rows are stored after those that are there, for the requests given. -/
theorem enqueueEffects_rows (now : ℤ) (op : Operation) (requests : List EffectRequest)
    (db : Database) : (enqueueEffects now op db requests).operations=db.operations ∧
      (∀ row∈db.rows, row∈(enqueueEffects now op db requests).rows) ∧
      ∀ cur∈(enqueueEffects now op db requests).rows,
        cur∈db.rows∨∃ req∈requests, ∃ id, cur=newRow now op req id := by
  induction requests generalizing db with
  | nil => exact ⟨rfl,fun _ hrow => hrow,fun _ hcur => .inl hcur⟩
  | cons req _ ih =>
    obtain ⟨hope,hkee,hori⟩ := ih (enqueueEffect now op db req)
    have hone : (enqueueEffect now op db req).operations=db.operations ∧
        ((enqueueEffect now op db req).rows=db.rows ∨
          (enqueueEffect now op db req).rows=db.rows++[newRow now op req db.nextId]) := by
      unfold enqueueEffect
      split
      · exact ⟨rfl,.inl rfl⟩
      · split <;> exact ⟨rfl,.inr rfl⟩
    refine ⟨hope.trans hone.1,fun row hrow => hkee row ?_,fun cur hcur => ?_⟩
    · rcases hone.2 with h|h <;> rw [h]
      · exact hrow
      · exact mem_append_left _ hrow
    rcases hori cur hcur with hold|⟨other,hot,hnew⟩
    · rcases hone.2 with h|h <;> rw [h] at hold
      · exact .inl hold
      · exact (mem_concat_iff.mp hold).imp id fun h => ⟨req,mem_cons_self,_,h⟩
    · exact .inr ⟨other,mem_cons_of_mem _ hot,hnew⟩

section
variable (hfen : Fenced db claims commits)
include hfen

/-- Recording a result keeps the agreement, and so does committing the work of
the handler with it. -/
theorem Fenced.writes (hwri : Writes db now row result next) :
    Fenced next claims (commits++[⟨row.id,result⟩]) ∧
      (result≠.done → Fenced next claims commits) := by
  obtain ⟨hcla,f,announced,reviews,hf,-,rfl⟩ := hwri
  have hopen : result≠.done → Fenced {db with
      rows := updateWhere (claimedBy row) f db.rows,announced := announced} claims commits := by
    intro hres
    have hwrit : Fenced {db with rows := updateWhere (claimedBy row) f db.rows} claims commits := by
      refine hfen.write (fun cur => (hf cur).1.1.symm) (fun cur _ hcl => ?_) fun cur => ?_
      · rw [(claimedBy_eq_true hcl).2.2.2]
        exact nofun
      · rw [(hf cur).2]
        cases result with
        | done => exact absurd rfl hres
        | retry => exact .inl rfl
        | terminal | stale => exact .inr rfl
    exact {hwrit with}
  refine ⟨?_,fun hres => (hopen hres).enqueueAll now row.operation reviews⟩
  by_cases hres : result=.done
  · subst hres
    have hfin := hfen.finish hcla (fun cur => (hf cur).1.1.symm) fun cur => (hf cur).2
    have hann : Fenced {db with
        rows := updateWhere (claimedBy row) f db.rows,announced := announced} claims
        (commits++[⟨row.id,.done⟩]) := {hfin with}
    exact hann.enqueueAll now row.operation reviews
  · exact ((hopen hres).commit row.id hres).enqueueAll now row.operation reviews

theorem Fenced.applyOutcome (hwri : applyOutcome db now row outcome=some (result,next)) :
    Fenced next claims (commits++[⟨row.id,result⟩]) :=
  (hfen.writes (applyOutcome_writes hwri).1).1

end

/-- Every stored version of a claimed row is the claimed one. -/
def HeldAlone (db : Database) (row : EffectRow) : Prop :=
  ∀ cur∈db.rows, cur.id=row.id→claimedBy row cur=true

/-- A processed row has the status its answer says. -/
theorem Writes.status (hwri : Writes db now row result next) (halo : HeldAlone db row) :
    ∀ cur∈next.rows, cur.id=row.id→cur.status=resultStatus result := by
  obtain ⟨-,f,_,reviews,hf,hrev,rfl⟩ := hwri
  intro cur hcur hid
  rcases (enqueueEffects_rows now row.operation reviews _).2.2 cur hcur with
    hold|⟨req,hreq,_,rfl⟩
  · rcases mem_updateWhere.mp hold with ⟨old,-,-,rfl⟩|⟨hold,hot⟩
    · exact (hf old).2
    · rw [halo cur hold hid] at hot
      cases hot
  · obtain ⟨hkin,rfl⟩ := hrev req hreq
    simp [newRow,hkin,resultStatus]

end Writes

section Transactions

/-- Running one selected effect keeps the agreement inside the transaction. -/
theorem Fenced.executeRow {s : Inline} (hfen : Fenced s.db s.claims s.commits) {next : Inline}
    (hrun : executeRow registry now outcomes s row=(next,false)) :
    Fenced next.db next.claims next.commits := by
  unfold EffectsEngine.executeRow at hrun
  split at hrun
  · cases hrun
    exact hfen
  · cases hrun
  · split at hrun
    · cases hrun
      exact hfen
    · next cur hcur =>
      have hmt := find?_some hcur
      have hcl : Fenced (claimInline now row s.db) (s.claims++[⟨row.id,s.db.nextToken⟩])
          s.commits := by
        refine hfen.claim now (row.attempts+1) (fun other _ hot => ?_)
          ⟨cur,mem_of_find?_eq_some hcur,hmt⟩
        obtain ⟨hid,hsta⟩ := of_decide_eq_true hot
        exact ⟨hid,by rw [hsta]; decide⟩
      have hid : cur.id=row.id := (of_decide_eq_true hmt).1
      simp only at hrun
      split at hrun
      · cases hrun
      split at hrun
      · cases hrun
      · next result written hwri =>
        cases hrun
        have hnx := hcl.applyOutcome hwri
        rw [show (claimedRow now s.db.nextToken (row.attempts+1) cur).id=row.id from hid] at hnx
        exact hnx

/-- Running the selected effects keeps the agreement when the transaction
commits. -/
theorem Fenced.executeRows
    (rows : List EffectRow) {s : Inline} (hfen : Fenced s.db s.claims s.commits)
    {next : Inline} (hrun : executeRows registry now outcomes s rows=(next,false)) :
    Fenced next.db next.claims next.commits := by
  induction rows generalizing s with
  | nil =>
    cases hrun
    exact hfen
  | cons _ _ ih =>
    unfold EffectsEngine.executeRows at hrun
    split at hrun
    · cases hrun
    · next middle hmid => exact ih (hfen.executeRow hmid) hrun

/-- Finished rows stay as they are. -/
def KeepsDone (db next : Database) : Prop := ∀ row∈db.rows, row.status=.done → row∈next.rows

/-- Keeping finished rows composes. -/
theorem KeepsDone.trans {middle : Database} (hfst : KeepsDone db middle)
    (hsec : KeepsDone middle next) : KeepsDone db next :=
  fun row hrow hdn => hsec row (hfst row hrow hdn) hdn

theorem keepsDone_write (hrs : next.rows=updateWhere p f db.rows)
    (hop : ∀ row∈db.rows, p row=true → row.status≠.done) : KeepsDone db next := by
  intro row hrow hdn
  rw [hrs]
  refine mem_updateWhere.mpr (.inr ⟨hrow,?_⟩)
  cases hp : p row with
  | false => rfl
  | true => exact absurd hdn (hop row hrow hp)

/-- Rows that a claimant does not hold stay as they are. -/
def KeepsOthers (row : EffectRow) (db next : Database) : Prop :=
  ∀ cur∈db.rows, claimedBy row cur=false→cur∈next.rows

theorem Writes.keepsOthers (hwri : Writes db now row result next) : KeepsOthers row db next := by
  obtain ⟨-,_,_,reviews,-,-,rfl⟩ := hwri
  exact fun cur hcur hot => (enqueueEffects_rows now row.operation reviews _).2.1 cur
    (mem_updateWhere.mpr (.inr ⟨hcur,hot⟩))

/-- A finished row is nobody's claim. -/
theorem KeepsOthers.keepsDone
    (hkee : KeepsOthers row db next) : KeepsDone db next := by
  intro cur hcur hdn
  apply hkee cur hcur
  cases hcl : claimedBy row cur with
  | false => rfl
  | true =>
    rw [(claimedBy_eq_true hcl).2.2.2] at hdn
    cases hdn

/-- A relation that composes, and that claiming a pending row and recording
an outcome both satisfy, relates the tables before and after a whole pass. -/
theorem executeRows_related {R : Database → Database → Prop} (href : ∀ db, R db db)
    (htra : ∀ {db middle next}, R db middle → R middle next → R db next)
    (hcl : ∀ db row, R db (claimInline now row db))
    (happ : ∀ {db row outcome result next},
      applyOutcome db now row outcome=some (result,next) → R db next)
    (rows : List EffectRow) {s next : Inline}
    (hrun : executeRows registry now outcomes s rows=(next,false)) : R s.db next.db := by
  induction rows generalizing s with
  | nil =>
    cases hrun
    exact href _
  | cons row _ ih =>
    unfold executeRows at hrun
    split at hrun
    · cases hrun
    · next middle hmid =>
      refine htra ?_ (ih hrun)
      unfold executeRow at hmid
      split at hmid
      · cases hmid
        exact href _
      · cases hmid
      · split at hmid
        · cases hmid
          exact href _
        simp only at hmid
        split at hmid
        · cases hmid
        split at hmid
        · cases hmid
        · next hwri =>
          cases hmid
          exact htra (hcl s.db row) (happ hwri)

theorem executeRows_keepsDone (rows : List EffectRow) {s next : Inline}
    (hrun : executeRows registry now outcomes s rows=(next,false)) :
    KeepsDone s.db next.db := by
  refine executeRows_related (R := KeepsDone) (fun db row hrow _ => hrow) KeepsDone.trans ?_ ?_
    rows hrun
  · intro db row
    refine keepsDone_write rfl fun cur _ hcur => ?_
    rw [(of_decide_eq_true hcur).2]
    exact nofun
  · intro db row outcome result next hwri
    exact (applyOutcome_writes hwri).1.keepsOthers.keepsDone

/-- Claiming open rows one after another keeps the agreement and the finished
rows. -/
theorem Fenced.claimRows (now : ℤ) {commits : List HandlerCommit} (rows : List EffectRow)
    {claims : List Claim} (hfen : Fenced db claims commits)
    (hrs : ∀ row∈rows, row∈db.rows∧row.status≠.done) (hids : (rows.map EffectRow.id).Nodup) :
    Fenced (claimRows now db rows).1 (claims++(claimRows now db rows).2.filterMap claimOf) commits ∧
      KeepsDone db (claimRows now db rows).1 := by
  induction rows generalizing db claims with
  | nil => exact ⟨by simpa [claimRows] using hfen,fun row hrow _ => hrow⟩
  | cons row rest ih =>
    rw [map_cons,nodup_cons] at hids
    obtain ⟨hrow,hsta⟩ := hrs row mem_cons_self
    have hsel : ∀ other∈db.rows, decide (other.id=row.id)=true →
        other.id=row.id∧other.status≠.done := by
      intro other hot heq
      rw [eq_of_key_eq EffectRow.id hfen.ids hot hrow (of_decide_eq_true heq)]
      exact ⟨rfl,hsta⟩
    have hcl : Fenced (claimRow now db row) (claims++[⟨row.id,db.nextToken⟩]) commits :=
      hfen.claim now (row.attempts+1) hsel ⟨row,hrow,by simp⟩
    have hrt : ∀ other∈rest, other∈(claimRow now db row).rows∧other.status≠.done := by
      intro other hot
      obtain ⟨hmem,hop⟩ := hrs other (mem_cons_of_mem _ hot)
      refine ⟨mem_updateWhere.mpr (.inr ⟨hmem,?_⟩),hop⟩
      rw [decide_eq_false_iff_not]
      intro heq
      exact hids.1 (heq ▸ mem_map_of_mem hot)
    obtain ⟨hnx,hkp⟩ := ih hcl hrt hids.2
    rw [append_assoc] at hnx
    exact ⟨hnx,(keepsDone_write rfl fun other hot hp => (hsel other hot hp).2).trans hkp⟩

theorem isDue_open (hdue : isDue now row=true) :
    isOpen row=true := by
  unfold isDue at hdue
  unfold isOpen
  cases hsta : row.status <;> simp_all

section
variable {snapshot : List EffectRow} {locked : List ℕ}

theorem mem_dueRows {limit : ℕ} (hrow : row∈dueRows snapshot locked now limit db) :
    row∈db.rows∧claimable snapshot locked now row=true := by
  have hsor := mem_of_mem_take hrow
  rw [mem_insertionSort] at hsor
  exact mem_filter.mp hsor

/-- A claim statement takes a row once. -/
theorem dueRows_nodup {limit : ℕ} (hids : (db.rows.map EffectRow.id).Nodup) :
    ((dueRows snapshot locked now limit db).map EffectRow.id).Nodup := by
  have hfil : ((db.rows.filter (claimable snapshot locked now)).map EffectRow.id).Nodup :=
    hids.sublist (filter_sublist.map _)
  have hsor := ((perm_insertionSort (fun a b : EffectRow =>
    a.nextAttemptAt<b.nextAttemptAt∨(a.nextAttemptAt=b.nextAttemptAt ∧
      a.createdAt≤b.createdAt)) (db.rows.filter (claimable snapshot locked now))).map
        EffectRow.id).nodup_iff.mpr hfil
  exact hsor.sublist ((take_sublist limit _).map _)

theorem claimable_eq_true (hcla : claimable snapshot locked now row=true) :
    isDue now row=true∧gateOpen snapshot row=true∧row.id∉locked ∧
      ∃ seen∈snapshot, seen.id=row.id := by
  simp only [claimable,Bool.and_eq_true,Bool.not_eq_true',decide_eq_false_iff_not,
    any_eq_true,decide_eq_true_eq] at hcla
  obtain ⟨⟨⟨hdue,hgat⟩,hloc⟩,seen,hsee,hid,-⟩ := hcla
  exact ⟨hdue,hgat,hloc,seen,hsee,hid⟩

end

end Transactions

section Steps

variable {s : Engine}

theorem insertReceipt_eq (db : Database) (id : ℕ) (providerRef : String) :
    ∃ receipts, insertReceipt db id providerRef={db with receipts := receipts} := by
  unfold insertReceipt
  split
  · exact ⟨db.receipts,rfl⟩
  · exact ⟨_,rfl⟩

/-- Every step keeps the agreement, and none writes a finished row. -/
theorem step_fenced (hfen : Fenced s.db s.claims s.commits) (a : Action) :
    Fenced (step registry s a).2.db (step registry s a).2.claims (step registry s a).2.commits ∧
      KeepsDone s.db (step registry s a).2.db := by
  have hsame : Fenced s.db s.claims s.commits∧KeepsDone s.db s.db :=
    ⟨hfen,fun row hrow _ => hrow⟩
  cases a with
  | record now op requests =>
    simp only [step,recordOperation]
    split
    · exact hsame
    have hsta : Fenced {s.db with operations := s.db.operations++[op]} s.claims s.commits :=
      {hfen with}
    exact ⟨hsta.enqueueAll now op requests,
      fun row hrow _ => (enqueueEffects_rows now op requests _).2.1 row hrow⟩
  | enqueue now op requests =>
    simp only [step]
    split
    · exact ⟨hfen.enqueueAll now op requests,
        fun row hrow _ => (enqueueEffects_rows now op requests _).2.1 row hrow⟩
    · exact hsame
  | executeNow =>
    simp only [step,executeEffectsNow]
    split
    · exact hsame
    · next run hrun =>
      exact ⟨.executeRows (s := ⟨s.db,s.starts,s.commits,s.claims⟩) _ hfen hrun,
        executeRows_keepsDone (s := ⟨s.db,s.starts,s.commits,s.claims⟩) _ hrun⟩
  | observe => exact hsame
  | claimDue now =>
    apply hfen.claimRows now
    · intro row hrow
      obtain ⟨hmem,hcla⟩ := mem_dueRows hrow
      have hop := isDue_open (claimable_eq_true hcla).1
      refine ⟨hmem,fun hdn => ?_⟩
      simp [isOpen,hdn] at hop
    · exact dueRows_nodup hfen.ids
  | start | lookup =>
    simp only [step,startClaimed,lookupReceipt]
    split
    · exact hsame
    · split
      · exact hsame
      · split <;> exact hsame
  | finish =>
    simp only [step,finishClaimed]
    split
    · exact hsame
    split
    · exact hsame
    · split
      · exact hsame
      · next hwri =>
        exact ⟨hfen.applyOutcome hwri,(applyOutcome_writes hwri).1.keepsOthers.keepsDone⟩
  | complete _ row providerRef =>
    simp only [step,completeExternal]
    split
    · exact hsame
    · next entry receipt _ =>
      split
      · exact hsame
      · next cur hcur =>
        split
        · exact hsame
        split
        · exact hsame
        split
        · exact hsame
        · next result db hwri =>
          obtain ⟨receipts,hrec⟩ := insertReceipt_eq s.db row.id (receipt.getD providerRef)
          rw [hrec] at hwri
          have hsta : Fenced {s.db with receipts := receipts} s.claims s.commits := {hfen with}
          have hnx := hsta.applyOutcome hwri
          have hmt := find?_some hcur
          rw [(claimedBy_eq_true hmt).1] at hnx
          exact ⟨hnx,(applyOutcome_writes hwri).1.keepsOthers.keepsDone⟩
  | failClaimed =>
    simp only [step,failClaimed]
    split
    · exact hsame
    split
    · exact hsame
    · split
      · exact hsame
      · next hwri =>
        obtain ⟨hwrit,hres⟩ := failed_writes hwri
        exact ⟨(hfen.writes hwrit).2 hres,hwrit.keepsOthers.keepsDone⟩
  | requeue now id =>
    have hop : ∀ row∈s.db.rows, requeueable id row=true → row.status≠.done := by
      intro row _ hrow
      rw [(of_decide_eq_true hrow).2.1]
      exact nofun
    exact ⟨hfen.write (f := requeuedRow now) (fun _ => rfl) hop fun _ => .inl rfl,
      keepsDone_write rfl hop⟩

/-- Claimant on whose behalf a step works. -/
def claimant : Action → Option EffectRow
  | .start row => some row
  | .finish _ row _ => some row
  | .lookup row => some row
  | .complete _ row _ _ => some row
  | .failClaimed _ row _ => some row
  | _ => none

/-- A later claim was handed out on the row of this claimant. -/
def Superseded (claims : List Claim) (row : EffectRow) : Prop :=
  (claimsOf claims row.id).getLast?≠row.claimToken

instance (claims : List Claim) (row : EffectRow) : Decidable (Superseded claims row) :=
  inferInstanceAs (Decidable (_≠_))

theorem Fenced.superseded {claims : List Claim} {commits : List HandlerCommit}
    (hfen : Fenced db claims commits) (hsup : Superseded claims row) :
    ∀ cur∈db.rows, claimedBy row cur=false := by
  intro cur hcur
  cases hcl : claimedBy row cur with
  | false => rfl
  | true =>
    obtain ⟨hid,-,htok,hsta⟩ := claimedBy_eq_true hcl
    obtain ⟨token,hcurr,hlt⟩ := hfen.latest cur hcur hsta
    exact absurd (by rw [← hid,hlt,← htok,hcurr]) hsup

/-- A fenced write that matches no row is refused. -/
theorem applyOutcome_refused
    (hno : ∀ cur∈db.rows, claimedBy row cur=false) (now : ℤ) (outcome : EffectOutcome) :
    applyOutcome db now row outcome=none := by
  have hany : db.rows.any (claimedBy row)=false := by
    rw [any_eq_false]
    intro cur hcur
    simp [hno cur hcur]
  have hwri : ∀ f, fencedUpdate db row f=none := by
    simp [fencedUpdate,hany]
  cases outcome with
  | done => simp [applyOutcome,hwri]
  | retry =>
    simp only [applyOutcome,markRetryOrTerminal,markTerminal,hwri]
    split <;> rfl
  | terminal => simp [applyOutcome,markTerminal,hwri]

/-- A superseded claimant leaves the tables and the committed work as they
are. -/
theorem step_superseded (hfen : Fenced s.db s.claims s.commits) {a : Action}
    (hcla : claimant a=some row) (hsup : Superseded s.claims row) :
    (step registry s a).2.db=s.db∧(step registry s a).2.commits=s.commits ∧
      (step registry s a).2.starts=s.starts := by
  have hno := hfen.superseded hsup
  have hfin : s.db.rows.find? (claimedBy row)=none := by
    rw [find?_eq_none]
    intro cur hcur
    simp [hno cur hcur]
  cases a with
  | start | lookup | complete =>
    cases hcla
    simp only [step,startClaimed,lookupReceipt,completeExternal,hfin]
    split <;> exact ⟨rfl,rfl,rfl⟩
  | finish _ _ run =>
    cases hcla
    simp only [step,finishClaimed]
    split
    · exact ⟨rfl,rfl,rfl⟩
    · cases run with
      | threw => exact ⟨rfl,rfl,rfl⟩
      | returned =>
        simp [applyOutcome_refused hno]
  | failClaimed now _ reason =>
    cases hcla
    have href := applyOutcome_refused hno now (.retry ⟨reason,none,none⟩)
    simp only [applyOutcome] at href
    simp only [step,failClaimed,href]
    split
    · simp
    · split <;> simp
  | record | enqueue | executeNow | observe | claimDue | requeue => cases hcla

end Steps

section Histories

/-- Any interleaving of steps. -/
abbrev AnyOrder (_ : List (Event Engine Action Answer)) (_ : Engine) (_ : Action) : Prop := True

theorem empty_fenced : Fenced emptyEngine.db emptyEngine.claims emptyEngine.commits := by
  constructor <;> simp [emptyEngine,doneCommits]

/-- The tables agree with the record in every reachable state. -/
theorem run_fenced {h : List (Event Engine Action Answer)} {s : Engine}
    (hrun : Run (step registry) AnyOrder emptyEngine h s) :
    Fenced s.db s.claims s.commits :=
  Run.state_invariant (P := fun s => Fenced s.db s.claims s.commits) hrun empty_fenced
    fun _ _ a hfen _ => (step_fenced hfen a).1

/-- In every interleaving the work of a handler is committed as done at most
once for each effect, a superseded claimant commits nothing, a finished row is
never written again, and a row that is processing carries the token of its
latest claim, which no other claim carries. -/
theorem effects_exactly_once {registry : Registry} {h : List (Event Engine Action Answer)}
    {s : Engine} (hrun : Run (step registry) AnyOrder emptyEngine h s) :
    (∀ id, doneCommits s.commits id≤1)∧(∀ a row, claimant a=some row → Superseded s.claims row →
        (step registry s a).2.db=s.db∧(step registry s a).2.commits=s.commits) ∧
      (∀ a, ∀ row∈s.db.rows, row.status=.done → row∈(step registry s a).2.db.rows) ∧
      ∀ row∈s.db.rows, row.status=.processing→∃ token, row.claimToken=some token ∧
          (claimsOf s.claims row.id).getLast?=some token ∧
          s.claims.filter (fun claim => decide (claim.token=token))=[⟨row.id,token⟩] := by
  have hfen := run_fenced hrun
  refine ⟨?_,?_,?_,?_⟩
  · intro id
    rw [hfen.finished id]
    exact countP_key_le_one EffectRow.id id (fun row => decide (row.status=.done)) hfen.ids
  · intro a row hcla hsup
    have hkp : (step registry s a).2.db=s.db∧(step registry s a).2.commits=s.commits ∧
        (step registry s a).2.starts=s.starts :=
      step_superseded hfen hcla hsup
    exact ⟨hkp.1,hkp.2.1⟩
  · exact fun a => (step_fenced hfen a).2
  · intro row hrow hsta
    exact hfen.once hrow hsta

/-- The operation of the sample histories. -/
def sampleOperation : Operation := ⟨.orderPaidTransition, "order"⟩

/-- A handler is registered for every kind. -/
def localRegistry : Registry := fun _ => some .local

/-- Row of the sample as its first claimant holds it. -/
def firstClaim : EffectRow := claimedRow 0 0 1 (newRow 0 sampleOperation ⟨.notification,none⟩ 0)

/-- Row of the sample as its second claimant holds it. -/
def secondClaim : EffectRow := claimedRow 400000 1 2 firstClaim

/-- A stale claim is taken over, the second claimant finishes the effect and
the first one returns late. -/
def takenOver : List Action :=
  [.record 0 sampleOperation [⟨.notification,none⟩],.claimDue 0 50 0,.claimDue 400000 50 0,
    .start secondClaim,.start firstClaim,.finish 400001 secondClaim (.returned (.done "sent")),
    .start firstClaim,.failClaimed 400002 firstClaim "late"]

/-- The sample history commits its effect once. -/
theorem effects_exactly_once_takenOver :
    let s := (play (step localRegistry) [] emptyEngine takenOver).2
    doneCommits s.commits 0=1∧Superseded s.claims firstClaim ∧
      (∀ id, doneCommits s.commits id≤1) := by
  have hnil : Run (step localRegistry) AnyOrder emptyEngine [] emptyEngine := .nil
  have hrun := hnil.play takenOver
    ⟨trivial,trivial,trivial,trivial,trivial,trivial,trivial,trivial,trivial⟩
  exact ⟨by decide,by decide,(effects_exactly_once hrun).1⟩

end Histories

end SellRight.EffectsFencing
