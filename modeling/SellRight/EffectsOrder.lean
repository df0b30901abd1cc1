import SellRight.EffectsFencing

/-!
# Rank order of effects

The claim query holds a row back while its snapshot shows an open sibling of
smaller rank. Closed rows stay closed unless they are requeued, so an old
snapshot can only hold back too much and every row that is processing has
closed siblings below it. An inline execution sorts its rows once and does not
look back: it keeps the order as long as the rows it runs first really close.
-/

namespace SellRight.EffectsOrder

open RowTable RunHistory EffectsEngine EffectsFencing List

/-- Siblings of smaller rank, apart from review tasks, are closed. -/
def SmallerClosed (rows : List EffectRow) (row : EffectRow) : Prop :=
  ∀ p∈rows, p.operation=row.operation→p.effectKind≠.adminReview →
    effectRank p.effectKind<effectRank row.effectKind→isOpen p=false

instance (rows : List EffectRow) (row : EffectRow) : Decidable (SmallerClosed rows row) :=
  inferInstanceAs (Decidable (∀ p∈rows, _))

/-- Every handler started while the smaller-ranked siblings of its effect were
closed. -/
def InOrder (starts : List HandlerStart) : Prop :=
  ∀ start∈starts, SmallerClosed start.rows start.effect

/-- The rows of a database stem from an earlier one: closed rows stayed
closed, and new rows belong to new operations or are review tasks. -/
structure Advances (past db : Database) : Prop where
  kept : ∀ row∈past.rows, ∃ cur∈db.rows, SameEffect row cur∧(isOpen row=false→isOpen cur=false)
  origin : ∀ cur∈db.rows,
    (∃ row∈past.rows, SameEffect row cur∧(isOpen row=false→isOpen cur=false)) ∨
      cur.operation∉past.operations∨cur.effectKind=.adminReview
  operations : ∀ op∈past.operations, op∈db.operations

/-- Rows that are processing were processing before. -/
def NoneClaimed (past db : Database) : Prop := ∀ cur∈db.rows, cur.status=.processing →
    ∃ row∈past.rows, SameEffect row cur∧row.status=.processing

variable {row cur : EffectRow} {next db : Database} {result : ProcessResult}
  {outcome : EffectOutcome} {now : ℤ} {after done : List EffectRow}

section Relations

variable {past middle : Database}

/-- Tables stem from themselves. -/
theorem Advances.refl (db : Database) : Advances db db where
  kept := fun row hrow => ⟨row,hrow,.refl,id⟩
  origin := fun cur hcur => .inl ⟨cur,hcur,.refl,id⟩
  operations := fun _ hop => hop

/-- Stemming composes. -/
theorem Advances.trans (hfst : Advances past middle) (hsec : Advances middle db) :
    Advances past db where
  kept := by
    intro row hrow
    obtain ⟨mid,hmid,heq,hclo⟩ := hfst.kept row hrow
    obtain ⟨cur,hcur,heq',hclo'⟩ := hsec.kept mid hmid
    exact ⟨cur,hcur,heq.trans heq',fun h => hclo' (hclo h)⟩
  origin := by
    intro cur hcur
    rcases hsec.origin cur hcur with ⟨mid,hmid,heq,hclo⟩|hnew|hrev
    · rcases hfst.origin mid hmid with ⟨row,hrow,heq',hclo'⟩|hnew|hrev
      · exact .inl ⟨row,hrow,heq'.trans heq,fun h => hclo (hclo' h)⟩
      · exact .inr (.inl (heq.2.1 ▸ hnew))
      · exact .inr (.inr (heq.2.2 ▸ hrev))
    · exact .inr (.inl fun hop => hnew (hfst.operations _ hop))
    · exact .inr (.inr hrev)
  operations := fun op hop => hsec.operations op (hfst.operations op hop)

/-- No claim is made where none is made on the way. -/
theorem NoneClaimed.trans (hfst : NoneClaimed past middle) (hsec : NoneClaimed middle db) :
    NoneClaimed past db := by
  intro cur hcur hsta
  obtain ⟨mid,hmid,heq,hsta'⟩ := hsec cur hcur hsta
  obtain ⟨row,hrow,heq',hsta''⟩ := hfst mid hmid hsta'
  exact ⟨row,hrow,heq'.trans heq,hsta''⟩

theorem Advances.smallerClosed (hadv : Advances past db)
    (heq : SameEffect row cur) (hop : row.operation∈past.operations)
    (hclo : SmallerClosed past.rows row) : SmallerClosed db.rows cur := by
  intro p hp hope hrev hran
  rcases hadv.origin p hp with ⟨old,hold,heq',hkee⟩|hnew|hnew
  · apply hkee
    apply hclo old hold
    · rw [heq'.2.1,hope,heq.2.1]
    · rw [heq'.2.2]
      exact hrev
    · rw [heq'.2.2,heq.2.2]
      exact hran
  · exact absurd (by rw [hope,← heq.2.1]; exact hop) hnew
  · exact absurd hnew hrev

section
variable {p : EffectRow → Bool} {f : EffectRow → EffectRow}

/-- An addressed write that opens no closed row moves the table on. -/
theorem advances_write (hkey : ∀ row, SameEffect row (f row))
    (hope : ∀ row∈past.rows, p row=true→isOpen row=false→isOpen (f row)=false) :
    Advances past {past with rows := updateWhere p f past.rows} where
  kept := by
    intro row hrow
    cases hp : p row with
    | true =>
      exact ⟨f row,mem_updateWhere.mpr (.inl ⟨row,hrow,hp,rfl⟩),hkey row,hope row hrow hp⟩
    | false => exact ⟨row,mem_updateWhere.mpr (.inr ⟨hrow,hp⟩),.refl,id⟩
  origin := by
    intro cur hcur
    rcases mem_updateWhere.mp hcur with ⟨row,hrow,hp,rfl⟩|⟨hrow,-⟩
    · exact .inl ⟨row,hrow,hkey row,hope row hrow hp⟩
    · exact .inl ⟨cur,hrow,.refl,id⟩
  operations := fun _ hop => hop

theorem noneClaimed_write (haft : ∀ row, (f row).status≠.processing) :
    NoneClaimed past {past with rows := updateWhere p f past.rows} := by
  intro cur hcur hsta
  rcases mem_updateWhere.mp hcur with ⟨row,-,-,rfl⟩|⟨hrow,-⟩
  · exact absurd hsta (haft row)
  · exact ⟨cur,hrow,.refl,hsta⟩

end

theorem claimedBy_open (hcl : claimedBy row cur=true) :
    isOpen cur=true := by
  simp [isOpen,(claimedBy_eq_true hcl).2.2.2]

/-- New rows of a new operation, and new review tasks, move the table on. -/
theorem enqueueEffects_advances (now : ℤ) (op : Operation) (requests : List EffectRequest)
    (hadv : Advances past db) (hno : NoneClaimed past db)
    (hnew : op∉past.operations∨∀ req∈requests, req.kind=.adminReview) :
    Advances past (enqueueEffects now op db requests) ∧
      NoneClaimed past (enqueueEffects now op db requests) := by
  obtain ⟨hope,hkee,hori⟩ := enqueueEffects_rows now op requests db
  refine ⟨⟨fun row hrow => ?_,fun cur hcur => ?_,hope ▸ hadv.operations⟩,fun cur hcur hsta => ?_⟩
  · obtain ⟨cur,hcur,heq,hclo⟩ := hadv.kept row hrow
    exact ⟨cur,hkee cur hcur,heq,hclo⟩
  · rcases hori cur hcur with hold|⟨req,hreq,_,rfl⟩
    · exact hadv.origin cur hold
    · exact .inr (hnew.imp id fun h => h req hreq)
  · rcases hori cur hcur with hold|⟨req,-,_,rfl⟩
    · exact hno cur hold hsta
    · simp only [newRow] at hsta
      split at hsta <;> cases hsta

/-- No row is claimed when nothing changes. -/
theorem NoneClaimed.refl (db : Database) : NoneClaimed db db :=
  fun cur hcur hsta => ⟨cur,hcur,.refl,hsta⟩

/-- Recording a result moves the table on. -/
theorem writes_advances (hwri : Writes db now row result next) :
    Advances db next∧NoneClaimed db next := by
  obtain ⟨-,f,announced,reviews,hf,hrev,rfl⟩ := hwri
  have hadv : Advances db {db with rows := updateWhere (claimedBy row) f db.rows} := by
    refine advances_write (fun cur => (hf cur).1) fun cur _ hcl hclo => ?_
    rw [claimedBy_open hcl] at hclo
    cases hclo
  have hno : NoneClaimed db {db with rows := updateWhere (claimedBy row) f db.rows} := by
    refine noneClaimed_write fun cur => ?_
    rw [(hf cur).2]
    cases result <;> decide
  have hann : Advances db {db with
      rows := updateWhere (claimedBy row) f db.rows,announced := announced} :=
    ⟨hadv.kept,hadv.origin,hadv.operations⟩
  exact enqueueEffects_advances now row.operation reviews hann hno
    (.inr fun req hreq => (hrev req hreq).1)

/-- Rows belong to recorded operations. -/
def Recorded (db : Database) : Prop := ∀ row∈db.rows, row.operation∈db.operations

theorem Recorded.write {p : EffectRow → Bool} {f : EffectRow → EffectRow}
    (hrec : Recorded db) (hkey : ∀ row, SameEffect row (f row)) :
    Recorded {db with rows := updateWhere p f db.rows} := by
  intro cur hcur
  rcases mem_updateWhere.mp hcur with ⟨row,hrow,-,rfl⟩|⟨hrow,-⟩
  · exact (hkey row).2.1 ▸ hrec row hrow
  · exact hrec cur hrow

theorem Recorded.enqueue (now : ℤ) {op : Operation} (requests : List EffectRequest)
    (hrec : Recorded db) (hop : op∈db.operations) :
    Recorded (enqueueEffects now op db requests) := by
  obtain ⟨hope,-,hori⟩ := enqueueEffects_rows now op requests db
  intro cur hcur
  rw [hope]
  rcases hori cur hcur with hold|⟨_,-,_,rfl⟩
  · exact hrec cur hold
  · exact hop

/-- Recording a result keeps rows with recorded operations. -/
theorem Recorded.writes (hrec : Recorded db) (hop : row.operation∈db.operations)
    (hwri : Writes db now row result next) : Recorded next := by
  obtain ⟨-,f,announced,reviews,hf,-,rfl⟩ := hwri
  have hwrit : Recorded {db with
      rows := updateWhere (claimedBy row) f db.rows,announced := announced} :=
    hrec.write fun cur => (hf cur).1
  exact hwrit.enqueue now reviews hop

end Relations

section Claims

/-- Both rank orders agree. -/
theorem sqlRank_lt {a b : EffectKind} : sqlRank a<sqlRank b ↔ effectRank a<effectRank b := by
  cases a <;> cases b <;> decide

theorem claimRow_advances (now : ℤ) (hop : ∀ cur∈db.rows, cur.id=row.id→isOpen cur=true) :
    Advances db (claimRow now db row) := by
  have hwri : Advances db {db with
      rows := updateWhere (fun cur => decide (cur.id=row.id))
        (claimedRow now db.nextToken (row.attempts+1)) db.rows} := by
    refine advances_write (fun _ => .refl) fun cur hcur hid hclo => ?_
    rw [hop cur hcur (of_decide_eq_true hid)] at hclo
    cases hclo
  exact ⟨hwri.kept,hwri.origin,hwri.operations⟩

/-- A claim batch moves the table on, keeps the operations recorded and claims
rows of its list only. -/
theorem claimRows_advances (now : ℤ) (rows : List EffectRow)
    (hids : (db.rows.map EffectRow.id).Nodup) (hrec : Recorded db)
    (hrs : ∀ row∈rows, ∃ cur∈db.rows, cur.id=row.id∧isOpen cur=true) :
    Advances db (claimRows now db rows).1∧Recorded (claimRows now db rows).1 ∧
      ∀ cur∈(claimRows now db rows).1.rows, cur.status=.processing →
        (∃ row∈db.rows, SameEffect row cur∧row.status=.processing) ∨
          ∃ row∈rows, row.id=cur.id := by
  induction rows generalizing db with
  | nil =>
    exact ⟨.refl db,hrec,fun cur hcur h => .inl ⟨cur,hcur,.refl,h⟩⟩
  | cons row rest ih =>
    have hop : ∀ cur∈db.rows, cur.id=row.id→isOpen cur=true := by
      intro cur hcur hid
      obtain ⟨other,hot,hid',hsta⟩ := hrs row mem_cons_self
      rw [eq_of_key_eq EffectRow.id hids hcur hot (hid.trans hid'.symm)]
      exact hsta
    have hfst := claimRow_advances now hop
    have hids' : ((claimRow now db row).rows.map EffectRow.id).Nodup :=
      (map_updateWhere (f := claimedRow now db.nextToken (row.attempts+1)) EffectRow.id db.rows
        fun _ _ => rfl).symm ▸ hids
    have hrec' : Recorded (claimRow now db row) :=
      Recorded.write (f := claimedRow now db.nextToken (row.attempts+1)) hrec fun _ => .refl
    have hrs' : ∀ other∈rest, ∃ cur∈(claimRow now db row).rows,
        cur.id=other.id∧isOpen cur=true := by
      intro other hot
      obtain ⟨cur,hcur,hid,hsta⟩ := hrs other (mem_cons_of_mem _ hot)
      by_cases heq : cur.id=row.id
      · exact ⟨claimedRow now db.nextToken (row.attempts+1) cur,
          mem_updateWhere.mpr (.inl ⟨cur,hcur,by simp [heq],rfl⟩),hid,rfl⟩
      · exact ⟨cur,mem_updateWhere.mpr (.inr ⟨hcur,by simp [heq]⟩),hid,hsta⟩
    obtain ⟨hrt,hreco,hcla⟩ := ih hids' hrec' hrs'
    refine ⟨hfst.trans hrt,hreco,fun cur hcur hsta => ?_⟩
    rcases hcla cur hcur hsta with ⟨mid,hmid,heq,hsta'⟩|⟨other,hot,hid⟩
    · rcases mem_updateWhere.mp hmid with ⟨old,-,hid,rfl⟩|⟨hold,-⟩
      · exact .inr ⟨row,mem_cons_self,(of_decide_eq_true hid).symm.trans heq.1⟩
      · exact .inl ⟨mid,hold,heq,hsta'⟩
    · exact .inr ⟨other,mem_cons_of_mem _ hot,hid⟩

/-- A row let through by the gate of an old snapshot has closed siblings below
it now. -/
theorem gateOpen_closed {past : Database} (hids : (db.rows.map EffectRow.id).Nodup)
    (hadv : Advances past db) (hrec : Recorded past)
    (hrow : row∈db.rows) (hsee : ∃ seen∈past.rows, seen.id=row.id)
    (hgat : gateOpen past.rows row=true) : SmallerClosed db.rows row := by
  obtain ⟨seen,hsee,hid⟩ := hsee
  obtain ⟨now,hnow,heq,-⟩ := hadv.kept seen hsee
  have hcur : now=row := eq_of_key_eq EffectRow.id hids hnow hrow (heq.1.symm.trans hid)
  subst hcur
  have hop : now.operation∈past.operations := heq.2.1 ▸ hrec seen hsee
  intro p hp hope hrev hran
  rcases hadv.origin p hp with ⟨old,hold,heq',hkee⟩|hnew|hnew
  · apply hkee
    by_contra hopen
    have hhol : holdsBack now old=true := by
      apply decide_eq_true
      refine ⟨heq'.2.1.trans hope,?_,by simpa using hopen,?_,?_⟩
      · intro hsam
        have hsameRow := eq_of_key_eq EffectRow.id hids hp hrow (heq'.1.symm.trans hsam)
        rw [hsameRow] at hran
        exact lt_irrefl _ hran
      · rw [heq'.2.2]
        exact hrev
      · rw [sqlRank_lt,heq'.2.2]
        exact hran
    simp only [gateOpen,Bool.not_eq_true',any_eq_false] at hgat
    exact hgat old hold hhol
  · exact absurd (hope ▸ hop) hnew
  · exact absurd hnew hrev

end Claims

section Inline

/-- The run of this effect aborts an inline execution. -/
def aborts (registry : Registry) (outcomes : ℕ → HandlerRun) (row : EffectRow) : Bool :=
  match registry row.effectKind, outcomes row.id with
  | none, _ => true
  | some .external, _ => false
  | some .local, .threw _ => true
  | some .local, .returned _ => false

/-- An inline execution runs this effect and closes it. -/
def settles (registry : Registry) (now : ℤ) (outcomes : ℕ → HandlerRun) (row : EffectRow) : Bool :=
  match registry row.effectKind, outcomes row.id with
  | some .local, .returned outcome => closes now {row with attempts := row.attempts+1} outcome
  | _, _ => false

/-- Every handler that the inline execution starts has its open siblings of
smaller rank among the selected rows, and their runs close them. -/
def InlineCovers (registry : Registry) (db : Database) (now : ℤ) (ids : List ℕ)
    (outcomes : ℕ → HandlerRun) : Prop :=
  ∀ before row after, inlineRows db ids=before++row::after →
    (∀ b∈before, aborts registry outcomes b=false) → registry row.effectKind=some .local →
      ∀ p∈db.rows, p.operation=row.operation→p.effectKind≠.adminReview →
        effectRank p.effectKind<effectRank row.effectKind→isOpen p=true →
          p∈inlineRows db ids∧settles registry now outcomes p=true

variable {registry : Registry} {outcomes : ℕ → HandlerRun} {ids : List ℕ}

theorem mem_inlineRows :
    row∈inlineRows db ids ↔ row∈db.rows∧row.id∈ids∧row.status=.pending := by
  rw [inlineRows,mem_insertionSort,mem_filter,decide_eq_true_eq]

/-- Selected rows are distinct. -/
theorem inlineRows_nodup (hids : (db.rows.map EffectRow.id).Nodup) :
    ((inlineRows db ids).map EffectRow.id).Nodup := by
  have hfil := hids.sublist ((filter_sublist (p := fun row : EffectRow =>
    decide (row.id∈ids∧row.status=.pending)) (l := db.rows)).map EffectRow.id)
  exact ((perm_insertionSort (fun a b : EffectRow =>
    effectRank a.effectKind≤effectRank b.effectKind) _).map EffectRow.id).nodup_iff.mpr hfil

/-- Selected rows of smaller rank come first. -/
theorem inlineRows_before {before : List EffectRow} {p : EffectRow}
    (hspl : inlineRows db ids=before++row::after) (hp : p∈inlineRows db ids)
    (hran : effectRank p.effectKind<effectRank row.effectKind) : p∈before := by
  have hsor : (inlineRows db ids).Pairwise fun a b =>
      effectRank a.effectKind≤effectRank b.effectKind := by
    exact pairwise_insertionSort _ _
  rw [hspl] at hsor hp
  rcases mem_append.mp hp with hbef|htl
  · exact hbef
  have hlat := pairwise_cons.mp (pairwise_append.mp hsor).2.1
  rcases mem_cons.mp htl with rfl|haft
  · exact absurd hran (lt_irrefl _)
  · exact absurd (hlat.1 p haft) (Nat.not_le.mpr hran)

/-- What an inline execution has done after the first selected rows. -/
structure Progress (registry : Registry) (now : ℤ) (outcomes : ℕ → HandlerRun) (start : Database)
    (done : List EffectRow) (s : Inline) : Prop where
  fenced : Fenced s.db s.claims s.commits
  recorded : Recorded s.db
  advances : Advances start s.db
  released : NoneClaimed start s.db
  untouched : ∀ row∈start.rows, row.id∉done.map EffectRow.id → row∈s.db.rows
  /-- Rows whose run closes them are closed. -/
  settled : ∀ row∈done, settles registry now outcomes row=true →
    ∀ cur∈s.db.rows, cur.id=row.id→isOpen cur=false
  started : InOrder s.starts

variable {start : Database}

/-- The handler of a selected row finds its siblings of smaller rank closed. -/
theorem Progress.inOrder {s : Inline}
    (hpro : Progress registry now outcomes start done s)
    (hrec : Recorded start) (hspl : inlineRows start ids=done++row::after)
    (hcov : InlineCovers registry start now ids outcomes)
    (hdn : ∀ b∈done, aborts registry outcomes b=false)
    (hloc : registry row.effectKind=some .local) (hrow : row∈s.db.rows) :
    SmallerClosed (claimInline now row s.db).rows
      (claimedRow now s.db.nextToken (row.attempts+1) row) := by
  have hsel : row∈inlineRows start ids := by
    rw [hspl]
    exact mem_append_right _ mem_cons_self
  have hsta := (mem_inlineRows.mp hsel).1
  intro p hp hope hrev hran
  rcases mem_updateWhere.mp hp with ⟨old,hold,hmt,rfl⟩|⟨hold,-⟩
  · have heq := eq_of_key_eq EffectRow.id hpro.fenced.ids hold hrow (of_decide_eq_true hmt).1
    rw [heq] at hran
    exact absurd hran (lt_irrefl _)
  · rcases hpro.advances.origin p hold with ⟨old,hold',heq,hkee⟩|hnew|hnew
    · cases hop : isOpen old with
      | false => exact hkee hop
      | true =>
        obtain ⟨hcho,hset⟩ := hcov done row after hspl hdn hloc old hold'
          (heq.2.1.trans hope) (heq.2.2 ▸ hrev) (heq.2.2 ▸ hran) hop
        have hbef := inlineRows_before hspl hcho (heq.2.2 ▸ hran)
        exact hpro.settled old hbef hset p hold heq.1.symm
    · exact absurd (hope ▸ hrec row hsta) hnew
    · exact absurd hnew hrev

theorem Progress.executed {start written : Database} {s : Inline}
    {starts : List HandlerStart} {commits : List HandlerCommit} {claims : List Claim}
    (hpro : Progress registry now outcomes start done s) (hsel : ∀ b∈done, b∈start.rows)
    (hrow : row∈s.db.rows) (hpen : row.status=.pending) (hout : outcomes row.id=.returned outcome)
    (hwri : applyOutcome (claimInline now row s.db) now
      (claimedRow now s.db.nextToken (row.attempts+1) row) outcome=some (result,written))
    (hfen : Fenced written claims commits) (hstar : InOrder starts) :
    Progress registry now outcomes start (done++[row]) ⟨written,starts,commits,claims⟩ := by
  have hids := hpro.fenced.ids
  have halo : HeldAlone (claimInline now row s.db)
      (claimedRow now s.db.nextToken (row.attempts+1) row) := by
    intro cur hcur hid
    rcases mem_updateWhere.mp hcur with ⟨old,-,hmt,rfl⟩|⟨hold,hot⟩
    · simpa [claimedBy,claimedRow] using (of_decide_eq_true hmt).1
    · have heq := eq_of_key_eq EffectRow.id hids hold hrow hid
      rw [heq,hpen] at hot
      simp at hot
  obtain ⟨hwrit,hres,-⟩ := applyOutcome_writes hwri
  have hsta := hwrit.status halo
  have hnotP : ∀ cur∈written.rows, cur.id=row.id→cur.status≠.processing := by
    intro cur hcur hid
    rw [hsta cur hcur hid]
    cases result <;> decide
  have hcl : Advances s.db (claimInline now row s.db) := by
    have hfst : Advances s.db {s.db with
        rows := updateWhere (fun cur => decide (cur.id=row.id∧cur.status=.pending))
          (claimedRow now s.db.nextToken (row.attempts+1)) s.db.rows} := by
      refine advances_write (fun _ => .refl) fun cur _ hmt hclo => ?_
      simp [isOpen,(of_decide_eq_true hmt).2] at hclo
    exact ⟨hfst.kept,hfst.origin,hfst.operations⟩
  obtain ⟨happ,hidl⟩ := writes_advances hwrit
  have hadv := hcl.trans happ
  refine ⟨hfen,?_,hpro.advances.trans hadv,?_,?_,?_,hstar⟩
  · have hcla : Recorded (claimInline now row s.db) :=
      Recorded.write (f := claimedRow now s.db.nextToken (row.attempts+1)) hpro.recorded
        fun _ => .refl
    have hop : (claimedRow now s.db.nextToken (row.attempts+1) row).operation ∈
        (claimInline now row s.db).operations := hpro.recorded row hrow
    exact hcla.writes hop hwrit
  · intro cur hcur hproc
    obtain ⟨mid,hmid,heq,hpro'⟩ := hidl cur hcur hproc
    rcases mem_updateWhere.mp hmid with ⟨old,-,hmt,rfl⟩|⟨hold,-⟩
    · have hid : cur.id=row.id := heq.1.symm.trans (of_decide_eq_true hmt).1
      exact absurd hproc (hnotP cur hcur hid)
    · obtain ⟨first,hfst,heq',hpro''⟩ := hpro.released mid hold hpro'
      exact ⟨first,hfst,heq'.trans heq,hpro''⟩
  · intro other hot hnot
    rw [map_append,mem_append,not_or] at hnot
    have hne : other.id≠row.id := fun h => hnot.2 (by simp [h])
    have hhd := hpro.untouched other hot hnot.1
    apply hwrit.keepsOthers other
    · exact mem_updateWhere.mpr (.inr ⟨hhd,by simp [hne]⟩)
    · simp [claimedBy,claimedRow,hne]
  · intro b hb hset cur hcur hid
    rcases mem_append.mp hb with hold|hlt
    · obtain ⟨mid,hmid,heq,-⟩ := hpro.advances.kept b (hsel b hold)
      have hclo := hpro.settled b hold hset mid hmid heq.1.symm
      obtain ⟨last,hlt,heq',hkee⟩ := hadv.kept mid hmid
      have hsam := eq_of_key_eq EffectRow.id hfen.ids hlt hcur
        (heq'.1.symm.trans (heq.1.symm.trans hid.symm))
      exact hsam ▸ hkee hclo
    · cases mem_singleton.mp hlt
      have hclos : closes now (claimedRow now s.db.nextToken (row.attempts+1) row) outcome =
          true := by
        unfold settles at hset
        rw [hout] at hset
        split at hset
        · next hret =>
          cases hret
          cases outcome <;> exact hset
        · cases hset
      have hfin := hsta cur hcur hid
      cases result with
      | retry => exact absurd (hres.mp rfl) (by rw [hclos]; decide)
      | done | terminal | stale => simp [isOpen,hfin,resultStatus]

/-- One selected row keeps the progress, and its handler starts in order even
when the execution aborts. -/
theorem Progress.step {s next : Inline}
    {aborted : Bool} (hpro : Progress registry now outcomes start done s)
    (hids : (start.rows.map EffectRow.id).Nodup) (hrec : Recorded start)
    (hspl : inlineRows start ids=done++row::after)
    (hcov : InlineCovers registry start now ids outcomes)
    (hdn : ∀ b∈done, aborts registry outcomes b=false)
    (hrun : executeRow registry now outcomes s row=(next,aborted)) :
    InOrder next.starts∧(aborted=false →
      Progress registry now outcomes start (done++[row]) next ∧
        aborts registry outcomes row=false) := by
  obtain ⟨hstart,-,hpen⟩ := mem_inlineRows.mp (show row∈inlineRows start ids by
    rw [hspl]
    simp)
  have hfre : row.id∉done.map EffectRow.id := by
    have hnod : ((inlineRows start ids).map EffectRow.id).Nodup := inlineRows_nodup hids
    rw [hspl,map_append,map_cons] at hnod
    intro hmem
    exact (nodup_append.mp hnod).2.2 _ hmem _ mem_cons_self rfl
  have hrow := hpro.untouched row hstart hfre
  have hfen : aborted=false → Fenced next.db next.claims next.commits := by
    rintro rfl
    exact hpro.fenced.executeRow hrun
  unfold executeRow at hrun
  cases hkd : registry row.effectKind with
  | none =>
    simp only [hkd,Prod.mk.injEq] at hrun
    obtain ⟨rfl,rfl⟩ := hrun
    exact ⟨hpro.started,fun h => by cases h⟩
  | some mode =>
    cases mode with
    | external =>
      simp only [hkd,Prod.mk.injEq] at hrun
      obtain ⟨rfl,rfl⟩ := hrun
      refine ⟨hpro.started,fun _ => ⟨?_,by simp [aborts,hkd]⟩⟩
      refine ⟨hpro.fenced,hpro.recorded,hpro.advances,hpro.released,?_,?_,hpro.started⟩
      · intro other hot hnot
        apply hpro.untouched other hot
        intro hmem
        exact hnot (by rw [map_append]; exact mem_append_left _ hmem)
      · intro other hot hset
        rcases mem_append.mp hot with hold|hlt
        · exact hpro.settled other hold hset
        · cases mem_singleton.mp hlt
          simp [settles,hkd] at hset
    | «local» =>
      have hfin := find_pending hpro.fenced.ids hrow hpen
      have hinO := hpro.inOrder hrec hspl hcov hdn hkd hrow
      have hsta : InOrder (s.starts++[⟨claimedRow now s.db.nextToken (row.attempts+1) row,
          (claimInline now row s.db).rows⟩]) := by
        intro entry hent
        rcases mem_append.mp hent with hold|hlt
        · exact hpro.started entry hold
        · cases mem_singleton.mp hlt
          exact hinO
      have hbef : ∀ b∈done, b∈start.rows := by
        intro b hb
        have hmem : b∈inlineRows start ids := by
          rw [hspl]
          exact mem_append_left _ hb
        exact (mem_inlineRows.mp hmem).1
      simp only [hkd,hfin] at hrun
      split at hrun
      · cases hrun
        exact ⟨hsta,nofun⟩
      · next outcome hout =>
        split at hrun
        · cases hrun
          exact ⟨hsta,nofun⟩
        · next result written hwri =>
          cases hrun
          refine ⟨hsta,fun _ => ⟨?_,by simp [aborts,hkd,hout]⟩⟩
          exact hpro.executed hbef hrow hpen hout hwri (hfen rfl) hsta

/-- An inline execution covered by its outcomes starts its handlers in order
and, when it commits, has run all selected rows. -/
theorem Progress.rows {s next : Inline} {aborted : Bool}
    (hids : (start.rows.map EffectRow.id).Nodup) (hrec : Recorded start)
    (hcov : InlineCovers registry start now ids outcomes) (rows done : List EffectRow)
    (hspl : inlineRows start ids=done++rows)
    (hpro : Progress registry now outcomes start done s)
    (hdn : ∀ b∈done, aborts registry outcomes b=false)
    (hrun : executeRows registry now outcomes s rows=(next,aborted)) :
    InOrder next.starts∧(aborted=false →
      Progress registry now outcomes start (inlineRows start ids) next) := by
  induction rows generalizing s done with
  | nil =>
    cases hrun
    rw [append_nil] at hspl
    exact ⟨hpro.started,fun _ => hspl ▸ hpro⟩
  | cons row _ ih =>
    unfold executeRows at hrun
    split at hrun
    · next middle hmid =>
      cases hrun
      exact ⟨(hpro.step hids hrec hspl hcov hdn hmid).1,nofun⟩
    · next middle hmid =>
      obtain ⟨-,hnx⟩ := hpro.step hids hrec hspl hcov hdn hmid
      obtain ⟨haft,hgoe⟩ := hnx rfl
      refine ih (done++[row]) (by rw [hspl]; simp) haft ?_ hrun
      intro b hb
      rcases mem_append.mp hb with hold|hlt
      · exact hdn b hold
      · cases mem_singleton.mp hlt
        exact hgoe

end Inline

section Steps

/-- The row stands for a stored effect. -/
def Stands (db : Database) (row : EffectRow) : Prop := ∃ cur∈db.rows, SameEffect row cur

/-- Operations are recorded, rows that are processing have closed siblings
below them, snapshots are rows of past tables, and handlers started in
order. -/
structure Ranked (s : Engine) : Prop where
  fenced : Fenced s.db s.claims s.commits
  recorded : Recorded s.db
  gated : ∀ row∈s.db.rows, row.status=.processing → SmallerClosed s.db.rows row
  /-- Rows held by workers and transactions stand for stored effects. -/
  standing : ∀ row, row∈s.held∨row∈s.running → Stands s.db row
  snapshots : ∀ rows∈s.snapshots, ∃ past : Database, past.rows=rows∧Recorded past ∧
    Advances past s.db
  started : InOrder s.starts

variable {registry : Registry} {s : Engine}

theorem Stands.move {past : Database} (hsta : Stands past row)
    (hadv : Advances past db) : Stands db row := by
  obtain ⟨cur,hcur,heq⟩ := hsta
  obtain ⟨last,hlt,heq',-⟩ := hadv.kept cur hcur
  exact ⟨last,hlt,heq.trans heq'⟩

theorem Stands.recorded (hsta : Stands db row)
    (hrec : Recorded db) : row.operation∈db.operations := by
  obtain ⟨cur,hcur,heq⟩ := hsta
  rw [heq.2.1]
  exact hrec cur hcur

/-- Handed out rows are versions of the claimed ones. -/
theorem mem_claimRows {rows : List EffectRow}
    (hrow : row∈(claimRows now db rows).2) : ∃ old∈rows, SameEffect row old := by
  induction rows generalizing db with
  | nil => cases hrow
  | cons head _ ih =>
    rcases mem_cons.mp hrow with rfl|htl
    · exact ⟨head,mem_cons_self,.refl⟩
    · obtain ⟨old,hold,heq⟩ := ih htl
      exact ⟨old,mem_cons_of_mem _ hold,heq⟩

theorem Ranked.move (hran : Ranked s) {next : Engine}
    (hfen : Fenced next.db next.claims next.commits) (hrec : Recorded next.db)
    (hadv : Advances s.db next.db) (hno : NoneClaimed s.db next.db)
    (hhd : next.held=s.held) (hrun : ∀ row∈next.running, row∈s.running)
    (hsna : next.snapshots=s.snapshots) (hsta : InOrder next.starts) :
    Ranked next where
  fenced := hfen
  recorded := hrec
  gated := by
    intro cur hcur hstat
    obtain ⟨row,hrow,heq,hsta'⟩ := hno cur hcur hstat
    exact hadv.smallerClosed heq (hran.recorded row hrow) (hran.gated row hrow hsta')
  standing := by
    intro row hrow
    have hold : row∈s.held∨row∈s.running := hrow.imp (hhd ▸ id) (hrun row)
    exact (hran.standing row hold).move hadv
  snapshots := by
    intro rows hrs
    obtain ⟨past,hpa,hreco,hmv⟩ := hran.snapshots rows (hsna ▸ hrs)
    exact ⟨past,hpa,hreco,hmv.trans hadv⟩
  started := hsta

/-- The step belongs to a run without requeues in which operations are
recorded once, and an inline execution closes what it must close. -/
def KeepsOrder (registry : Registry) (s : Engine) : Action → Prop
  | .requeue _ _ => False
  | .enqueue _ op requests => ∀ req∈requests,
    ∃ row∈s.db.rows, row.operation=op∧row.effectKind=req.kind
  | .executeNow now ids outcomes => InlineCovers registry s.db now ids outcomes
  | _ => True

/-- Storing effects that are stored already changes nothing. -/
theorem enqueueEffects_replay (now : ℤ) (op : Operation) (requests : List EffectRequest)
    (hsto : ∀ req∈requests,
      ∃ row∈db.rows, row.operation=op∧row.effectKind=req.kind) :
    enqueueEffects now op db requests=db := by
  induction requests with
  | nil => rfl
  | cons req _ ih =>
    obtain ⟨row,hrow,hop,hkd⟩ := hsto req mem_cons_self
    have hfst : enqueueEffect now op db req=db := by
      rw [enqueueEffect,if_pos]
      exact any_eq_true.mpr ⟨row,hrow,by simp [hop,hkd]⟩
    rw [enqueueEffects,foldl_cons,hfst]
    exact ih fun r hr => hsto r (mem_cons_of_mem _ hr)

theorem Ranked.start (hran : Ranked s) (hfin : s.db.rows.find? (claimedBy row)=some cur) :
    InOrder (s.starts++[⟨cur,s.db.rows⟩]) := by
  have hmt := List.find?_some hfin
  intro entry hent
  rcases mem_append.mp hent with hold|hlt
  · exact hran.started entry hold
  · cases mem_singleton.mp hlt
    exact hran.gated cur (mem_of_find?_eq_some hfin) (claimedBy_eq_true hmt).2.2.2

theorem Ranked.claims (hran : Ranked s) (now : ℤ) (limit view : ℕ) :
    Ranked (claimDueEffects now limit view s).2 := by
  have hids := hran.fenced.ids
  obtain ⟨past,hpa,hreco,hmv⟩ : ∃ past : Database,
      past.rows=(s.snapshots[view]?).getD s.db.rows∧Recorded past∧Advances past s.db := by
    cases hvie : s.snapshots[view]? with
    | none => exact ⟨s.db,rfl,hran.recorded,.refl s.db⟩
    | some rows => exact hran.snapshots rows (mem_of_getElem? hvie)
  have hrs : ∀ row∈dueRows past.rows (lockedIds s) now limit s.db,
      row∈s.db.rows∧isOpen row=true∧SmallerClosed s.db.rows row := by
    intro row hrow
    obtain ⟨hmem,hcla⟩ := mem_dueRows hrow
    obtain ⟨hdue,hgat,-,hsee⟩ := claimable_eq_true hcla
    exact ⟨hmem,isDue_open hdue,gateOpen_closed hids hmv hreco hmem hsee hgat⟩
  obtain ⟨hadv,hrec,hclai⟩ := claimRows_advances now
    (dueRows past.rows (lockedIds s) now limit s.db) hids hran.recorded
    fun row hrow => ⟨row,(hrs row hrow).1,rfl,(hrs row hrow).2.1⟩
  have hfen := (@step_fenced (fun _ => none) s hran.fenced (.claimDue now limit view)).1
  simp only [step,claimDueEffects] at hfen
  simp only [claimDueEffects]
  rw [← hpa] at hfen ⊢
  refine ⟨hfen,hrec,?_,?_,?_,hran.started⟩
  · intro cur hcur hsta
    rcases hclai cur hcur hsta with ⟨row,hrow,heq,hsta'⟩|⟨row,hrow,hid⟩
    · exact hadv.smallerClosed heq (hran.recorded row hrow) (hran.gated row hrow hsta')
    obtain ⟨hmem,-,hclo⟩ := hrs row hrow
    obtain ⟨last,hlt,heq,-⟩ := hadv.kept row hmem
    have hcurr := eq_of_key_eq EffectRow.id hfen.ids hlt hcur (heq.1.symm.trans hid)
    exact hadv.smallerClosed (hcurr ▸ heq) (hran.recorded row hmem) hclo
  · intro row hrow
    have hold : Stands s.db row := by
      rcases hrow with hhd|hrun
      · rcases mem_append.mp hhd with hhd|hhan
        · exact hran.standing row (.inl hhd)
        · rw [mem_insertionSort] at hhan
          obtain ⟨old,hold,heq⟩ := mem_claimRows hhan
          exact ⟨old,(hrs old hold).1,heq⟩
      · exact hran.standing row (.inr hrun)
    exact hold.move hadv
  · intro rows hold
    obtain ⟨past',hpa',hrec',hmv'⟩ := hran.snapshots rows hold
    exact ⟨past',hpa',hrec',hmv'.trans hadv⟩

/-- An inline execution that closes what it must close keeps the ranks. -/
theorem Ranked.inline (hran : Ranked s) {ids : List ℕ} {outcomes : ℕ → HandlerRun}
    (hcov : InlineCovers registry s.db now ids outcomes) :
    Ranked (executeEffectsNow registry now ids outcomes s).2 := by
  have hstart : Progress registry now outcomes s.db [] ⟨s.db,s.starts,s.commits,s.claims⟩ :=
    ⟨hran.fenced,hran.recorded,.refl s.db,.refl s.db,
      fun row hrow _ => hrow,fun row hrow => (by cases hrow),hran.started⟩
  unfold executeEffectsNow
  split
  · next run hrun =>
    obtain ⟨hsta,-⟩ := Progress.rows hran.fenced.ids hran.recorded hcov
      (inlineRows s.db ids) [] rfl hstart (fun b hb => by cases hb) hrun
    exact hran.move hran.fenced hran.recorded (Advances.refl s.db)
      (NoneClaimed.refl s.db) rfl (fun row hrow => hrow) rfl hsta
  · next run hrun =>
    obtain ⟨hsta,hdn⟩ := Progress.rows hran.fenced.ids hran.recorded hcov
      (inlineRows s.db ids) [] rfl hstart (fun b hb => by cases hb) hrun
    have hpro := hdn rfl
    exact hran.move hpro.fenced hpro.recorded hpro.advances hpro.released
      rfl (fun row hrow => hrow) rfl hsta

section
variable (hran : Ranked s) (now : ℤ) (row : EffectRow)
include hran

theorem Ranked.records (op : Operation) (requests : List EffectRequest) :
    Ranked (step registry s (.record now op requests)).2 := by
  have hfen := (@step_fenced registry s hran.fenced (.record now op requests)).1
  simp only [step,recordOperation] at hfen ⊢
  split at hfen
  · next hold =>
    rw [if_pos hold]
    exact hran
  · next hnew =>
    rw [if_neg hnew]
    have hbeg : Advances s.db {s.db with operations := s.db.operations++[op]} :=
      ⟨(Advances.refl s.db).kept,(Advances.refl s.db).origin,fun other hot => mem_append_left _ hot⟩
    have hbegun : Recorded {s.db with operations := s.db.operations++[op]} :=
      fun row hrow => mem_append_left _ (hran.recorded row hrow)
    obtain ⟨hadv,hidl⟩ :=
      enqueueEffects_advances now op requests hbeg (NoneClaimed.refl s.db) (.inl hnew)
    exact hran.move hfen (hbegun.enqueue now requests (by simp)) hadv hidl rfl
      (fun row hrow => hrow) rfl hran.started

theorem Ranked.begins : Ranked (startClaimed registry row s).2 := by
  unfold startClaimed
  split
  · exact hran
  split
  · exact hran
  · next cur hfin =>
    split
    · exact hran
    refine ⟨hran.fenced,hran.recorded,hran.gated,?_,hran.snapshots,hran.start hfin⟩
    intro other hot
    rcases hot with hhd|hrun
    · exact hran.standing other (.inl hhd)
    rcases mem_append.mp hrun with hold|hlt
    · exact hran.standing other (.inr hold)
    · cases mem_singleton.mp hlt
      exact ⟨cur,mem_of_find?_eq_some hfin,.refl⟩

theorem Ranked.finish (run : HandlerRun) :
    Ranked (finishClaimed now row run s).2 := by
  have heq := Advances.refl s.db
  have hno := NoneClaimed.refl s.db
  have hrec := hran.recorded
  unfold finishClaimed
  split
  · exact hran
  · next hrow =>
    have hrow := not_not.mp hrow
    have hrel : ∀ other∈s.running.erase row, other∈s.running :=
      fun other hot => mem_of_mem_erase hot
    split
    · exact hran.move hran.fenced hrec heq hno rfl hrel rfl hran.started
    split
    · exact hran.move hran.fenced hrec heq hno rfl hrel rfl hran.started
    · next hwri =>
      have hwrit := (applyOutcome_writes hwri).1
      obtain ⟨hadv,hidl⟩ := writes_advances hwrit
      have hop := (hran.standing row (.inr hrow)).recorded hrec
      exact hran.move (hran.fenced.applyOutcome hwri)
        (hrec.writes hop hwrit) hadv hidl rfl hrel rfl hran.started

theorem Ranked.lookup : Ranked (lookupReceipt registry row s).2 := by
  unfold lookupReceipt
  split
  · exact hran
  split
  · exact hran
  · next cur hfin =>
    split
    · exact hran
    have hsta : InOrder (if ((s.db.receipts.find? fun entry =>
        decide (entry.1=row.id)).map Prod.snd)=none then
          s.starts++[⟨cur,s.db.rows⟩] else s.starts) := by
      split
      · exact hran.start hfin
      · exact hran.started
    exact ⟨hran.fenced,hran.recorded,hran.gated,hran.standing,hran.snapshots,hsta⟩

theorem Ranked.complete (providerRef : String) (completed : Bool) :
    Ranked (completeExternal now row providerRef completed s).2 := by
  have hfen := (@step_fenced (fun _ => none) s hran.fenced (.complete now row providerRef completed)).1
  have heq := Advances.refl s.db
  simp only [step,completeExternal] at hfen
  unfold completeExternal
  split
  · exact hran
  · next entry receipt hent =>
    split
    · exact hran
    · next cur hfin =>
      split
      · exact hran
      · next hfr =>
        split_ifs with hcom
        · exact hran
        simp only [hent,hfin,hfr,hcom,if_false] at hfen
        split
        · exact hran
        · next result db hwri =>
          simp only [hwri] at hfen
          obtain ⟨receipts,hins⟩ := insertReceipt_eq s.db row.id (receipt.getD providerRef)
          rw [hins] at hwri
          have hbeg : Advances s.db {s.db with receipts := receipts} :=
            ⟨heq.kept,heq.origin,heq.operations⟩
          have hkept : Recorded {s.db with receipts := receipts} := hran.recorded
          have hwrit := (applyOutcome_writes hwri).1
          obtain ⟨hadv,hidl⟩ := writes_advances hwrit
          have hop := hran.recorded cur (mem_of_find?_eq_some hfin)
          exact hran.move hfen (hkept.writes hop hwrit) (hbeg.trans hadv)
            ((NoneClaimed.refl s.db).trans hidl) rfl (fun other hot => hot) rfl hran.started

theorem Ranked.fails (reason : String) :
    Ranked (failClaimed now row reason s).2 := by
  unfold failClaimed
  split
  · exact hran
  · next hrow =>
    have hrow := not_not.mp hrow
    split
    · exact hran
    split
    · exact hran
    · next hwri =>
      obtain ⟨hwrit,hres⟩ := failed_writes hwri
      obtain ⟨hadv,hidl⟩ := writes_advances hwrit
      have hop := (hran.standing row (.inl hrow)).recorded hran.recorded
      exact hran.move ((hran.fenced.writes hwrit).2 hres) (hran.recorded.writes hop hwrit) hadv
        hidl rfl (fun other hot => hot) rfl hran.started

end

/-- A step of a run without requeues keeps the ranks when its inline
execution, if it is one, closes what it must close. -/
theorem step_ranked (hran : Ranked s) {a : Action} (hkee : KeepsOrder registry s a) :
    Ranked (step registry s a).2 := by
  cases a with
  | record now op requests => exact hran.records now op requests
  | enqueue now op requests =>
    simp only [step]
    rw [enqueueEffects_replay now op requests hkee]
    split <;> exact hran
  | executeNow => exact hran.inline hkee
  | observe =>
    refine ⟨hran.fenced,hran.recorded,hran.gated,hran.standing,?_,hran.started⟩
    intro rows hrs
    rcases mem_append.mp hrs with hold|hlt
    · exact hran.snapshots rows hold
    · cases mem_singleton.mp hlt
      exact ⟨s.db,rfl,hran.recorded,.refl s.db⟩
  | claimDue now limit view => exact hran.claims now limit view
  | start row => exact hran.begins row
  | finish now row run => exact hran.finish now row run
  | lookup row => exact hran.lookup row
  | complete now row providerRef completed => exact hran.complete now row providerRef completed
  | failClaimed now row reason => exact hran.fails now row reason
  | requeue => exact hkee.elim

end Steps

section Histories

/-- Runs without requeues whose inline executions close what they must
close. -/
abbrev OrderKept (registry : Registry) (_ : List (Event Engine Action Answer)) (s : Engine)
    (a : Action) : Prop :=
  KeepsOrder registry s a

theorem empty_ranked : Ranked emptyEngine :=
  ⟨empty_fenced,fun row hrow => (by cases hrow),fun row hrow => (by cases hrow),
    fun row hrow => (by rcases hrow with h|h <;> cases h),fun rows hrs => (by cases hrs),
    fun start hsta => (by cases hsta)⟩

/-- Along every run without requeues in which operations are recorded once and
inline executions close what they must close, every handler was started when
all siblings of smaller rank, apart from review tasks, were done or
terminal. -/
theorem effects_inOrder {registry : Registry} {h : List (Event Engine Action Answer)}
    {s : Engine} (hrun : Run (step registry) (OrderKept registry) emptyEngine h s) :
    ∀ start∈s.starts, ∀ p∈start.rows, p.operation=start.effect.operation →
      p.effectKind≠.adminReview→effectRank p.effectKind<effectRank start.effect.effectKind →
          p.status=.done∨p.status=.terminal := by
  have hran : Ranked s := Run.state_invariant (P := Ranked) hrun empty_ranked
    fun _ _ _ hran hkee => step_ranked hran hkee
  intro start hsta p hp hop hrev hrank
  have hclo := hran.started start hsta p hp hop hrev hrank
  cases hstat : p.status <;> simp_all [isOpen]

/-- An operation with a licence to issue and a notification to send. -/
def issueAndNotify : Action := .record 0 sampleOperation [⟨.licenseIssue,none⟩,⟨.notification,none⟩]

/-- The handler of the licence is not ready, that of the notification is
done. -/
def notReadyOutcomes : ℕ → HandlerRun
  | 0 => .returned (.retry ⟨"not_ready",some 60000,some 259200000⟩)
  | _ => .returned (.done "sent")

/-- An inline execution starts the notification while the licence is pending
again. -/
theorem effects_inOrder_notReady :
    ∃ (h : List (Event Engine Action Answer)) (s : Engine),
      Run (step localRegistry) (fun _ _ a => ∀ now id, a≠.requeue now id) emptyEngine h s ∧
        ∃ start∈s.starts, ∃ p∈start.rows, p.operation=start.effect.operation ∧
          p.effectKind≠.adminReview∧effectRank p.effectKind<effectRank start.effect.effectKind ∧
              p.status=.pending := by
  refine ⟨_,_,.play Run.nil [issueAndNotify,.executeNow 0 [0,1] notReadyOutcomes]
    ⟨nofun,nofun,trivial⟩,?_⟩
  decide

/-- The recording transaction runs the licence, a worker the notification. -/
def mixedPass : List Action :=
  [issueAndNotify,.executeNow 0 [0] fun _ => .returned (.done "issued"),.claimDue 2 50 0,
    .start (claimedRow 2 1 1 (newRow 0 sampleOperation ⟨.notification,none⟩ 1))]

/-- The mixed pass starts two handlers in order. -/
theorem effects_inOrder_mixed : let s := (play (step localRegistry) [] emptyEngine mixedPass).2
    s.starts.length=2∧∀ start∈s.starts, ∀ p∈start.rows,
      p.operation=start.effect.operation→p.effectKind≠.adminReview →
        effectRank p.effectKind<effectRank start.effect.effectKind →
          p.status=.done∨p.status=.terminal := by
  have hcov : InlineCovers localRegistry (step localRegistry emptyEngine issueAndNotify).2.db 0
      [0] fun _ => .returned (.done "issued") := by
    intro before row after hspl _ _ p _ _ _ hran _
    have hrow : row∈inlineRows (step localRegistry emptyEngine issueAndNotify).2.db [0] := by
      rw [hspl]
      exact mem_append_right _ mem_cons_self
    have hfst : ∀ row∈inlineRows (step localRegistry emptyEngine issueAndNotify).2.db [0],
        effectRank row.effectKind=0 := by decide
    rw [hfst row hrow] at hran
    exact absurd hran (Nat.not_lt_zero _)
  have hnil : Run (step localRegistry) (OrderKept localRegistry) emptyEngine [] emptyEngine :=
    Run.nil
  exact ⟨by decide,effects_inOrder (hnil.play mixedPass ⟨trivial,hcov,trivial,trivial,trivial⟩)⟩

end Histories

end SellRight.EffectsOrder
