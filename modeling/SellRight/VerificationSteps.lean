import SellRight.VerificationService

/-!
# What the verification transactions write

A report is written under its provider identifier by a transaction that holds
the identifier until it ends. It is written once, and a redelivered report
commits nothing, as long as no outcome overwrites a row that was settled after
it had been selected.
-/

namespace SellRight.VerificationSteps

open RowTable VerificationService List

variable {s : Store} {t t' : Tx} {rows own : List Verification}
variable {r : Verification} {conn : ℕ} {d : Details}

/-- A row under written ones is a written one, or a stored one that was not
written. -/
theorem mem_overlay (hown : (own.map Verification.id).Nodup) :
    r∈overlay rows own ↔ r∈own∨(r∈rows∧∀ o∈own, o.id≠r.id) := by
  unfold overlay
  rw [mem_append,mem_map,mem_filter]
  constructor
  · rintro (⟨old,hold,rfl⟩|⟨hnew,-⟩)
    · cases hfd : own.find? fun o => decide (o.id=old.id) with
      | some => exact .inl (mem_of_find?_eq_some hfd)
      | none =>
        refine .inr ⟨hold,fun o ho heq => ?_⟩
        have hms := List.find?_eq_none.mp hfd o ho
        exact hms (decide_eq_true heq)
    · exact .inl hnew
  · rintro (hown'|⟨hold,hfr⟩)
    · by_cases hsto : rows.any (fun row => decide (row.id=r.id))=true
      · obtain ⟨old,hold,hid⟩ := any_eq_true.mp hsto
        refine .inl ⟨old,hold,?_⟩
        rw [of_decide_eq_true hid,find_key_self Verification.id hown hown',Option.getD_some]
      · exact .inr ⟨hown',by rw [Bool.not_eq_true] at hsto; rw [hsto]; rfl⟩
    · refine .inl ⟨r,hold,?_⟩
      have hno : own.find? (fun o => decide (o.id=r.id))=none :=
        List.find?_eq_none.mpr fun o ho => by simpa using hfr o ho
      rw [hno,Option.getD_none]

/-- Identifiers stay distinct under written rows. -/
theorem nodup_overlay (hrs : (rows.map Verification.id).Nodup)
    (hown : (own.map Verification.id).Nodup) : ((overlay rows own).map Verification.id).Nodup := by
  have hkp : (rows.map fun r => (own.find? fun o => decide (o.id=r.id)).getD r).map
      Verification.id=rows.map Verification.id := by
    rw [map_map]
    refine map_congr_left fun r _ => ?_
    cases hfd : own.find? fun o => decide (o.id=r.id) with
    | none => simp [hfd]
    | some =>
      have hid := (find_key_eq_some Verification.id hfd).2
      simp [hfd,hid]
  unfold overlay
  rw [map_append,hkp,nodup_append']
  refine ⟨hrs,hown.sublist (filter_sublist.map _),?_⟩
  intro id hold hnew
  obtain ⟨r,hr,rfl⟩ := mem_map.mp hold
  obtain ⟨o,ho,hid⟩ := mem_map.mp hnew
  have hms := (mem_filter.mp ho).2
  rw [Bool.not_eq_true',any_eq_false] at hms
  exact hms r hr (decide_eq_true hid.symm)

@[simp] theorem overlay_nil (rows : List Verification) : overlay rows []=rows := by
  simp [overlay]

variable {copies : List Verification}

/-- A new version replaces a row, other rows stay. -/
theorem mem_putRows :
    r∈putRows own copies ↔ (r∈own∧∀ c∈copies, c.id≠r.id)∨r∈copies := by
  unfold putRows
  rw [mem_append,mem_filter,Bool.not_eq_true',any_eq_false]
  simp only [decide_eq_true_eq]

/-- Identifiers stay distinct when rows are written. -/
theorem nodup_putRows (hown : (own.map Verification.id).Nodup)
    (hcop : (copies.map Verification.id).Nodup) :
    ((putRows own copies).map Verification.id).Nodup := by
  unfold putRows
  rw [map_append,nodup_append']
  refine ⟨hown.sublist (filter_sublist.map _),hcop,?_⟩
  intro id hold hnew
  obtain ⟨r,hr,rfl⟩ := mem_map.mp hold
  obtain ⟨c,hc,hid⟩ := mem_map.mp hnew
  have hms := (mem_filter.mp hr).2
  rw [Bool.not_eq_true',any_eq_false] at hms
  exact hms c hc (decide_eq_true hid)

/-- The newest pending row is a pending row without a provider identifier. -/
theorem latestPending_mem (h : latestPending rows=some r) :
    r∈rows∧r.status=.pending∧r.verificationId = "" := by
  have hfol : ∀ (list : List Verification) (best : Option Verification),
      list.foldl newer best=some r→best=some r∨r∈list := by
    intro list
    induction list with
    | nil => exact fun best hbes => .inl hbes
    | cons _ _ ih =>
      intro best hbes
      rcases ih _ hbes with hfst|hrt
      · cases best with
        | none =>
          cases hfst
          exact .inr mem_cons_self
        | some =>
          unfold newer at hfst
          dsimp only at hfst
          split at hfst
          · cases hfst
            exact .inr mem_cons_self
          · exact .inl hfst
      · exact .inr (mem_cons_of_mem _ hrt)
  rcases hfol _ none h with hno|hmem
  · cases hno
  · obtain ⟨hr,hpen⟩ := mem_filter.mp hmem
    rw [Bool.and_eq_true,decide_eq_true_eq,decide_eq_true_eq] at hpen
    exact ⟨hr,hpen⟩

/-- Nothing was written. -/
def Untouched (t : Tx) : Prop := t.rows=[]∧t.entries=none∧t.active=none

/-- A report was written under its provider identifier. -/
def Recorded (t : Tx) : Prop :=
  ∀ d, t.request=.webhook d→∃ o∈t.rows, o.verificationId=d.verificationId

/-- What a transaction has written, by its next statement. -/
def Shape (t : Tx) : Prop :=
  match t.phase with
  | .insertPending => t.request=.start∧Untouched t
  | .find d => t.request=.webhook d∧Untouched t
  | .store d existing =>
    t.request=.webhook d∧existing=none∧d.verificationId ≠ "" ∧ Untouched t
  | .place d _ => t.request=.webhook d∧d.verificationId ≠ "" ∧ Untouched t
  | .sweepRows | .expireThese _ => t.request=.sweep∧Untouched t
  | .finished => t.active=t.entries.map categories∧(t.entries=none →
        (t.rows=[]∧(t.request=.sweep∨∃ d, t.request=.webhook d)) ∨
          (t.request=.start∧∀ o∈t.rows, o.status=.pending∧o.id=t.fresh)) ∧
      (t.entries≠none→t.request≠.start∧Recorded t)
  | .readEntries | .revokeRows _ | .revokeThese _ _ | .strip _ =>
    t.entries=none∧t.active=none∧t.request≠.start∧Recorded t
  | _ => t.active=none∧t.request≠.start∧Recorded t

/-- What holds of an open transaction in every run. -/
structure TxSound (s : Store) (t : Tx) : Prop where
  /-- What it has written fits its next statement. -/
  shape : Shape t
  ids : (t.rows.map Verification.id).Nodup
  known : ∀ o∈t.rows, o.id=t.fresh∨∃ r∈s.rows, r.id=o.id
  fresh : t.fresh<s.nextId
  unstored : ∀ r∈s.rows, r.id≠t.fresh
  blank : ∀ o∈t.rows, o.status=.pending → o.verificationId = ""
  granted : ∀ o∈t.rows, o.status=.success →
    o.verificationId ≠ "" ∧ grants t.request o.category=true
  /-- The row selected for an outcome is stored. -/
  target : ∀ d row, t.phase=.place d (some row)→∃ r∈s.rows, r.id=row.id

/-- No stored row and no other transaction has a provider identifier. -/
def Exclusive (s : Store) (conn : ℕ) (verificationId : String) : Prop :=
  (∀ r∈s.rows, r.verificationId≠verificationId) ∧
    ∀ t∈s.txs, t.conn≠conn→∀ o∈t.rows, o.verificationId≠verificationId

/-- What holds of the store in every run. -/
structure Sound (s : Store) : Prop where
  ids : (s.rows.map Verification.id).Nodup
  below : ∀ r∈s.rows, r.id<s.nextId
  blank : ∀ r∈s.rows, r.status=.pending → r.verificationId = ""
  named : ∀ r∈s.rows, r.status=.success → r.verificationId ≠ ""
  conns : (s.txs.map Tx.conn).Nodup
  freshs : (s.txs.map Tx.fresh).Nodup
  txs : ∀ t∈s.txs, TxSound s t

/-- A report that was written is held by its transaction alone. -/
def Apart (s : Store) : Prop := ∀ t∈s.txs, ∀ d, t.request=.webhook d→t.rows≠[] →
  d.verificationId ≠ "" ∧ Exclusive s t.conn d.verificationId

/-- The row that the transaction writes its outcome into is still pending. -/
def Keeps (s : Store) (t : Tx) : Prop := ∀ d row, t.phase=.place d (some row) →
  ∃ r∈s.rows, r.id=row.id∧r.status=.pending

/-- The step overwrites no settled row with an outcome. -/
def Undisturbed (s : Store) : Action → Prop
  | .next conn => ∀ t∈s.txs, t.conn=conn → Keeps s t
  | _ => True

theorem findTx_eq_some (h : findTx s conn=some t) : t∈s.txs∧t.conn=conn :=
  find_key_eq_some Tx.conn h

/-- A row that a transaction sees keeps what is known of stored and written rows. -/
theorem TxSound.seen_of (htx : TxSound s t) {P : Verification → Prop} (hrs : ∀ r∈s.rows, P r)
    (hown : ∀ o∈t.rows, P o) : ∀ r∈seen s t, P r := by
  intro r hr
  rcases (mem_overlay htx.ids).mp hr with hmem|⟨hmem,-⟩
  · exact hown r hmem
  · exact hrs r hmem

/-- What a statement that went on did. -/
inductive Statement (s : Store) (t : Tx) : Tx → Prop
  | insert : t.phase=.insertPending → Statement s t
      {t with rows := [⟨t.fresh, "", "",.pending,none,t.now⟩], phase := .finished}
  | duplicate {d : Details} : t.phase=.find d → Statement s t {t with phase := .finished}
  /-- The report was not written before, or its row is pending. -/
  | found {d : Details} (existing : Option Verification) : t.phase=.find d →
      d.verificationId ≠ "" →
      (∀ r, existing=some r → r∈seen s t∧r.verificationId=d.verificationId∧r.status=.pending) →
      Statement s t {t with phase := .store d existing}
  /-- Without a row of its own the report takes a pending one. -/
  | choose {d : Details} {existing : Option Verification} (target : Option Verification) :
      t.phase=.store d existing →
      (existing=none→∀ row, target=some row → row∈seen s t∧row.verificationId = "") →
      Statement s t {t with phase := .place d target}
  | record {d : Details} {target : Option Verification} (createdAt : ℕ) : t.phase=.place d target →
      verificationHeld s t.conn d.verificationId=false →
      (∀ r∈seen s t, r.verificationId=d.verificationId →
        r.id=(target.map Verification.id).getD t.fresh) →
      Statement s t (recordOutcome t d ((target.map Verification.id).getD t.fresh) createdAt)
  | read (next : Phase) : t.phase=.readEntries →
      (next=.revokeRows (some (t.entries.getD s.entries))∧(∃ c, t.request=.clear c) ∨
        next=.strip (t.entries.getD s.entries)∧∀ c, t.request≠.clear c) →
      Statement s t {t with phase := next}
  | select (next : Phase) :
      ((∃ read, t.phase=.revokeRows read∧next=.revokeThese (select s t (isStruck t.request)) read) ∨
        t.phase=.sweepRows∧next=.expireThese (select s t (isStale t.now))) →
      Statement s t {t with phase := next}
  | update (ids : List ℕ) (p : Verification → Bool) (status : Status) (next : Phase) :
      (t.phase=.revokeThese ids none∧p=isStruck t.request∧status=.revoked∧next=.readEntries ∨
        (∃ read, t.phase=.revokeThese ids (some read)∧p=isStruck t.request∧status=.revoked ∧
          next=.strip read) ∨
        t.phase=.expireThese ids∧p=isStale t.now∧status=.expired∧next=.readCustomer) →
      Statement s t (setStatus s t (isPicked ids p) status next)
  /-- The struck entries were written off, unless there were none. -/
  | strip {read : List VerificationEntry} (entries : Option (List VerificationEntry)) :
      t.phase=.strip read →
      (entries=some (read.filter fun e => !strikes t.request e.category) ∨
        entries=t.entries∧∀ e∈read, strikes t.request e.category=false) →
      Statement s t {t with entries := entries,phase := .readCustomer}
  | quiet {ids : List ℕ} : t.phase=.expireThese ids →
      (∀ r∈seen s t, isPicked ids (isStale t.now) r=false) →
      Statement s t {t with phase := .finished}
  | readCustomer : t.phase=.readCustomer →
      Statement s t {t with phase := .readRows (t.entries.getD s.entries)}
  | readRows {read : List VerificationEntry} : t.phase=.readRows read →
      Statement s t {t with phase := .write (recompute read (seen s t) t.now)}
  | write {new : List VerificationEntry} : t.phase=.write new → Statement s t {t with
        entries := some new, active := some (categories new),phase := .finished}

variable {target : Option Verification}

theorem placeOutcome_spec (hph : t.phase=.place d target)
    (h : placeOutcome s t d target=.moved t') : Statement s t t' := by
  unfold placeOutcome at h
  dsimp only at h
  split_ifs at h with hhd hsee
  rw [Bool.not_eq_true,Bool.or_eq_false_iff] at hhd
  cases h
  refine .record _ hph hhd.2 fun r hr heq => ?_
  by_contra hne
  exact hsee (any_eq_true.mpr ⟨r,hr,by simp [heq,hne]⟩)

variable {next : Phase}
variable {status : Status}
variable {p : Verification → Bool}

theorem updateStatus_spec {ids : List ℕ}
    (hcas : t.phase=.revokeThese ids none∧p=isStruck t.request∧status=.revoked∧next=.readEntries ∨
        (∃ read, t.phase=.revokeThese ids (some read)∧p=isStruck t.request∧status=.revoked ∧
          next=.strip read) ∨
        t.phase=.expireThese ids∧p=isStale t.now∧status=.expired∧next=.readCustomer)
    (h : updateStatus s t (isPicked ids p) status next=.moved t') : Statement s t t' := by
  unfold updateStatus at h
  split_ifs at h
  cases h
  exact .update ids p status next hcas

theorem stripEntries_spec {read : List VerificationEntry} (hph : t.phase=.strip read)
    (h : stripEntries s t read=.moved t') : Statement s t t' := by
  have hwri : ∀ t'', (if customerHeld s t.conn then Result.blocked else .moved {t with
      entries := some (read.filter fun e => !strikes t.request e.category)
      phase := .readCustomer})=.moved t'' → Statement s t t'' := by
    intro t'' hmv
    split_ifs at hmv
    cases hmv
    exact .strip _ hph (.inl rfl)
  unfold stripEntries at h
  dsimp only at h
  split at h
  · split at h
    · next hlen =>
      have hall := length_filter_eq_length_iff.mp hlen
      cases h
      exact .strip t.entries hph (.inr ⟨rfl,fun e he => by simpa using hall e he⟩)
    · exact hwri t' h
  · exact hwri t' h

/-- Every statement that goes on is one of these. -/
theorem statement_spec (h : statement s t=.moved t') : Statement s t t' := by
  unfold statement at h
  cases hph : t.phase with
  | insertPending =>
    rw [hph] at h
    cases h
    exact .insert hph
  | find d =>
    rw [hph] at h
    dsimp only at h
    split at h
    · cases h
    · next hnm =>
      cases hfd : (seen s t).find? fun r => decide (r.verificationId=d.verificationId) with
      | none =>
        rw [hfd] at h
        split_ifs at h
        cases h
        exact .found none hph hnm fun r hr => by cases hr
      | some row =>
        rw [hfd] at h
        dsimp only at h
        split at h
        · cases h
          exact .duplicate hph
        · next hpen =>
          split_ifs at h
          cases h
          refine .found (some row) hph hnm fun r hr => ?_
          cases hr
          exact ⟨mem_of_find?_eq_some hfd,
            of_decide_eq_true (List.find?_some (p := fun r : Verification =>
              decide (r.verificationId=d.verificationId)) hfd),not_not.mp hpen⟩
  | store d existing =>
    rw [hph] at h
    cases h
    refine .choose _ hph fun hno row hrow => ?_
    rw [hno,Option.none_or] at hrow
    obtain ⟨hmem,-,hbla⟩ := latestPending_mem hrow
    exact ⟨hmem,hbla⟩
  | place =>
    rw [hph] at h
    exact placeOutcome_spec hph h
  | readEntries =>
    rw [hph] at h
    dsimp only at h
    split at h
    · next c hreq =>
      cases h
      exact .read _ hph (.inl ⟨rfl,c,hreq⟩)
    · next hreq =>
      cases h
      exact .read _ hph (.inr ⟨rfl,hreq⟩)
  | revokeRows read =>
    rw [hph] at h
    cases h
    exact .select _ (.inl ⟨read,hph,rfl⟩)
  | revokeThese ids prior =>
    rw [hph] at h
    cases prior with
    | none => exact updateStatus_spec (.inl ⟨hph,rfl,rfl,rfl⟩) h
    | some read => exact updateStatus_spec (.inr (.inl ⟨read,hph,rfl,rfl,rfl⟩)) h
  | strip =>
    rw [hph] at h
    exact stripEntries_spec hph h
  | sweepRows =>
    rw [hph] at h
    cases h
    exact .select _ (.inr ⟨hph,rfl⟩)
  | expireThese =>
    rw [hph] at h
    dsimp only at h
    split at h
    · exact updateStatus_spec (.inr (.inr ⟨hph,rfl,rfl,rfl⟩)) h
    · next hno =>
      cases h
      refine .quiet hph fun r hr => ?_
      rw [← Bool.not_eq_true]
      exact fun hsta => hno (any_eq_true.mpr ⟨r,hr,hsta⟩)
  | readCustomer =>
    rw [hph] at h
    cases h
    exact .readCustomer hph
  | readRows =>
    rw [hph] at h
    cases h
    exact .readRows hph
  | write =>
    rw [hph] at h
    dsimp only at h
    split_ifs at h
    cases h
    exact .write hph
  | finished =>
    rw [hph] at h
    cases h

/-- A statement changes neither what the transaction is nor when it began. -/
theorem Statement.same (h : Statement s t t') : t'.conn=t.conn∧t'.request=t.request ∧
    t'.now=t.now∧t'.fresh=t.fresh∧t'.version=t.version := by
  cases h <;> exact ⟨rfl,rfl,rfl,rfl,rfl⟩

variable {o : Verification}

theorem TxSound.seen_own (htx : TxSound s t) (ho : o∈t.rows)
    (hr : r∈seen s t) (hid : r.id=o.id) : r=o := by
  rcases (mem_overlay htx.ids).mp hr with hmem|⟨-,hfr⟩
  · exact eq_of_key_eq Verification.id htx.ids hmem ho hid
  · exact absurd hid.symm (hfr o ho)

theorem TxSound.recorded_setStatus (htx : TxSound s t) (p : Verification → Bool) (status : Status)
    (next : Phase) (hrec : ∃ o∈t.rows, o.verificationId=d.verificationId) :
    ∃ o∈(setStatus s t p status next).rows, o.verificationId=d.verificationId := by
  obtain ⟨o,ho,hid⟩ := hrec
  by_cases hcop : ∃ r∈(seen s t).filter p, r.id=o.id
  · obtain ⟨r,hr,heq⟩ := hcop
    have hro := htx.seen_own ho (mem_filter.mp hr).1 heq
    refine ⟨{r with status := status},?_,?_⟩
    · exact mem_putRows.mpr (.inr (mem_map.mpr ⟨r,hr,rfl⟩))
    · rw [← hid,← hro]
  · refine ⟨o,mem_putRows.mpr (.inl ⟨ho,fun c hc heq => ?_⟩),hid⟩
    obtain ⟨r,hr,rfl⟩ := mem_map.mp hc
    exact hcop ⟨r,hr,heq⟩

/-- A written row is an own row or a copy of a seen one. -/
theorem mem_update
    (ho : o∈(setStatus s t p status next).rows) :
    o∈t.rows∨∃ r∈seen s t, o = {r with status := status} := by
  rcases mem_putRows.mp ho with ⟨hold,-⟩|hcop
  · exact .inl hold
  · obtain ⟨r,hr,rfl⟩ := mem_map.mp hcop
    exact .inr ⟨r,(mem_filter.mp hr).1,rfl⟩

/-- A transaction that has written one row only stays sound. -/
theorem TxSound.single {phase : Phase} (htx : TxSound s t)
    (hsh : Shape {t with rows := [o],phase := phase})
    (hkno : o.id=t.fresh∨∃ r∈s.rows, r.id=o.id) (hbla : o.status=.pending → o.verificationId = "")
    (hgra : o.status=.success → o.verificationId ≠ "" ∧ grants t.request o.category=true)
    (htgt : ∀ d row, phase≠.place d row) : TxSound s {t with rows := [o],phase := phase} := by
  refine {htx with
    shape := hsh, ids := nodup_singleton _, known := fun x hx => ?_, blank := fun x hx => ?_,
    granted := fun x hx => ?_, target := fun d row h => absurd h (htgt d _)}
  · cases mem_singleton.mp hx
    exact hkno
  · cases mem_singleton.mp hx
    exact hbla
  · cases mem_singleton.mp hx
    exact hgra

theorem outcome_settled (d : Details) (now id createdAt : ℕ) :
    (outcome d now id createdAt).status≠.pending := by
  unfold outcome
  dsimp only
  split <;> decide

/-- Writing an outcome keeps a transaction sound. -/
theorem TxSound.record (htx : TxSound s t) (createdAt : ℕ)
    (hph : t.phase=.place d target) :
    TxSound s (recordOutcome t d ((target.map Verification.id).getD t.fresh) createdAt) := by
  have hsh := htx.shape
  unfold Shape at hsh
  rw [hph] at hsh
  obtain ⟨hreq,hnm,-,hent,hact⟩ := hsh
  have hot : t.request≠.start := by
    rw [hreq]
    exact nofun
  have hrec : ∀ d', t.request=.webhook d' → ∃ o∈[outcome d t.now
      ((target.map Verification.id).getD t.fresh) createdAt],
      o.verificationId=d'.verificationId := by
    intro d' hd'
    rw [hreq] at hd'
    cases hd'
    exact ⟨_,mem_singleton_self _,rfl⟩
  refine htx.single ?_ ?_ (fun hpen => absurd hpen (outcome_settled _ _ _ _)) (fun hsuc => ?_) ?_
  · by_cases hfai : (!d.succeeded&&decide (d.category ≠ ""))=true
    · rw [if_pos hfai]
      exact ⟨hent,hact,hot,hrec⟩
    · rw [if_neg hfai]
      exact ⟨hact,hot,hrec⟩
  · cases target with
    | none => exact .inl rfl
    | some row => exact .inr (htx.target d row hph)
  · refine ⟨hnm,?_⟩
    have hgra : d.succeeded=true := by
      unfold outcome at hsuc
      cases hd : d.succeeded with
      | true => rfl
      | false =>
        rw [hd] at hsuc
        cases hsuc
    change grants t.request d.category=true
    rw [hreq]
    simp [grants,hgra]
  · intro _ _
    split <;> exact nofun

/-- Changing the status of rows keeps a transaction sound. -/
theorem TxSound.update (hsd : Sound s)
    (htx : TxSound s t) (hsta : status≠.pending∧status≠.success)
    (hsh : Shape (setStatus s t p status next)) (htgt : ∀ d row, next≠.place d row) :
    TxSound s (setStatus s t p status next) := by
  unfold setStatus at hsh ⊢
  refine {htx with
    shape := hsh, ids := ?_, known := fun o ho => ?_, blank := fun o ho hpen => ?_,
    granted := fun o ho hsuc => ?_, target := fun d row h => absurd h (htgt d _)}
  · have hsee := nodup_overlay hsd.ids htx.ids
    refine nodup_putRows htx.ids ?_
    rw [map_map]
    exact hsee.sublist (filter_sublist.map Verification.id)
  · rcases mem_update ho with hold|⟨r,hr,rfl⟩
    · exact htx.known o hold
    · rcases (mem_overlay htx.ids).mp hr with hown|⟨hold,-⟩
      · exact htx.known r hown
      · exact .inr ⟨r,hold,rfl⟩
  · rcases mem_update ho with hold|⟨r,-,rfl⟩
    · exact htx.blank o hold hpen
    · exact absurd hpen hsta.1
  · rcases mem_update ho with hold|⟨r,-,rfl⟩
    · exact htx.granted o hold hsuc
    · exact absurd hsuc hsta.2

theorem Statement.txSound (h : Statement s t t') (hsd : Sound s) (htx : TxSound s t) :
    TxSound s t' := by
  have hsh := htx.shape
  unfold Shape at hsh
  cases h with
  | insert hph =>
    rw [hph] at hsh
    obtain ⟨hstart,-,hent,hact⟩ := hsh
    refine htx.single ⟨by rw [hact,hent]; rfl,fun _ => .inr ⟨hstart,fun o ho => ?_⟩,absurd hent⟩
      (.inl rfl) (fun _ => rfl) (fun h => (nomatch h)) fun _ _ h => (nomatch h)
    cases mem_singleton.mp ho
    exact ⟨rfl,rfl⟩
  | duplicate hph =>
    rw [hph] at hsh
    obtain ⟨hweb,hrs,hent,hact⟩ := hsh
    exact {htx with
      shape := ⟨by rw [hact,hent]; rfl,fun _ => .inl ⟨hrs,.inr ⟨_,hweb⟩⟩,absurd hent⟩
      target := fun _ _ h => (nomatch h)}
  | found existing hph hnm hexi =>
    rw [hph] at hsh
    have hno : existing=none := by
      cases existing with
      | none => rfl
      | some r =>
        obtain ⟨hr,hid,hpen⟩ := hexi r rfl
        have hbla := htx.seen_of hsd.blank htx.blank r hr hpen
        exact absurd (hid.symm.trans hbla) hnm
    exact {htx with shape := ⟨hsh.1,hno,hnm,hsh.2⟩,target := fun _ _ h => (nomatch h)}
  | choose target hph hsel =>
    rw [hph] at hsh
    obtain ⟨hreq,hno,hnm,hrs,hwri⟩ := hsh
    refine {htx with shape := ⟨hreq,hnm,hrs,hwri⟩,target := fun d row h => ?_}
    cases h
    have hmem := (hsel hno row rfl).1
    unfold seen at hmem
    rw [hrs,overlay_nil] at hmem
    exact ⟨row,hmem,rfl⟩
  | record createdAt hph => exact htx.record createdAt hph
  | read _ hph hnx =>
    rw [hph] at hsh
    rcases hnx with ⟨rfl,-⟩|⟨rfl,-⟩
    · exact {htx with shape := hsh,target := fun _ _ h => (nomatch h)}
    · exact {htx with shape := hsh,target := fun _ _ h => (nomatch h)}
  | select _ hnx =>
    rcases hnx with ⟨_,hph,rfl⟩|⟨hph,rfl⟩ <;> rw [hph] at hsh
    · exact {htx with shape := hsh,target := fun _ _ h => (nomatch h)}
    · exact {htx with shape := hsh,target := fun _ _ h => (nomatch h)}
  | update ids p status _ hcas =>
    have hsta : status≠.pending∧status≠.success := by
      rcases hcas with ⟨-,-,rfl,-⟩|⟨read,-,-,rfl,-⟩|⟨-,-,rfl,-⟩ <;> decide
    refine htx.update hsd hsta ?_ fun _ _ h => ?_
    · rcases hcas with ⟨hph,-,-,rfl⟩|⟨_,hph,-,-,rfl⟩|⟨hph,-,-,rfl⟩ <;> rw [hph] at hsh
      iterate 2
        · exact ⟨hsh.1,hsh.2.1,hsh.2.2.1,fun d hd =>
            htx.recorded_setStatus (isPicked ids p) status _ (hsh.2.2.2 d hd)⟩
      · obtain ⟨hswe,-,-,hact⟩ := hsh
        refine ⟨hact,fun hsta => ?_,fun d hd => ?_⟩
        · cases hswe.symm.trans hsta
        · have hweb : t.request=.webhook d := hd
          rw [hswe] at hweb
          cases hweb
    · rcases hcas with ⟨-,-,-,rfl⟩|⟨_,-,-,-,rfl⟩|⟨-,-,-,rfl⟩ <;> cases h
  | strip _ hph =>
    rw [hph] at hsh
    exact {htx with shape := hsh.2,target := fun _ _ h => (nomatch h)}
  | quiet hph =>
    rw [hph] at hsh
    obtain ⟨hswe,hrs,hent,hact⟩ := hsh
    exact {htx with
      shape := ⟨by rw [hact,hent]; rfl,fun _ => .inl ⟨hrs,.inl hswe⟩,absurd hent⟩
      target := fun _ _ h => (nomatch h)}
  | readCustomer hph | readRows hph =>
    rw [hph] at hsh
    exact {htx with shape := hsh,target := fun _ _ h => (nomatch h)}
  | write hph =>
    rw [hph] at hsh
    exact {htx with
      shape := ⟨rfl,nofun,fun _ => hsh.2⟩
      target := fun _ _ h => (nomatch h)}

/-- A report that was written was recorded. -/
theorem TxSound.recorded (htx : TxSound s t) (hreq : t.request=.webhook d)
    (hrs : t.rows≠[]) : ∃ o∈t.rows, o.verificationId=d.verificationId := by
  have hsh := htx.shape
  unfold Shape at hsh
  cases hph : t.phase with
  | insertPending | find | sweepRows | expireThese =>
    rw [hph] at hsh
    exact absurd hsh.2.1 hrs
  | place =>
    rw [hph] at hsh
    exact absurd hsh.2.2.1 hrs
  | store =>
    rw [hph] at hsh
    exact absurd hsh.2.2.2.1 hrs
  | finished =>
    rw [hph] at hsh
    obtain ⟨-,hno,hso⟩ := hsh
    cases hent : t.entries with
    | none =>
      rcases hno hent with ⟨hem,-⟩|⟨hsta,-⟩
      · exact absurd hem hrs
      · rw [hreq] at hsta
        cases hsta
    | some => exact (hso (by rw [hent]; exact fun h => by cases h)).2 d hreq
  | readEntries | revokeRows | revokeThese | strip =>
    rw [hph] at hsh
    exact hsh.2.2.2 d hreq
  | readCustomer | readRows | write =>
    rw [hph] at hsh
    exact hsh.2.2 d hreq

variable {x : Tx}
variable {verificationId : String}

/-- Nobody else has written an identifier that is not held. -/
theorem verificationHeld_of_mem
    (h : verificationHeld s conn verificationId=false) (hx : x∈s.txs) (hne : x.conn≠conn)
    (ho : o∈x.rows) : o.verificationId≠verificationId := by
  intro heq
  have hhd : verificationHeld s conn verificationId=true := by
    refine any_eq_true.mpr ⟨x,hx,?_⟩
    rw [Bool.and_eq_true,decide_eq_true_eq,any_eq_true]
    exact ⟨hne,o,ho,decide_eq_true heq⟩
  rw [h] at hhd
  cases hhd

/-- A statement writes no provider identifier that another transaction holds alone. -/
theorem Statement.apart (h : Statement s t t') (hsd : Sound s) (ht : t∈s.txs) (hne : t.conn≠conn) (hnm : verificationId ≠ "")
    (hhd : ∃ x∈s.txs, x.conn=conn∧∃ o∈x.rows, o.verificationId=verificationId)
    (hexc : Exclusive s conn verificationId) :
    ∀ o∈t'.rows, o.verificationId≠verificationId := by
  have htx := hsd.txs t ht
  have hown := hexc.2 t ht hne
  have hsee : ∀ r∈seen s t, r.verificationId≠verificationId := htx.seen_of hexc.1 hown
  cases h with
  | insert =>
    intro o ho
    cases mem_singleton.mp ho
    exact hnm.symm
  | record _ _ hunh =>
    intro o ho heq
    cases mem_singleton.mp ho
    obtain ⟨x,hx,hcon,o,ho,hid⟩ := hhd
    exact verificationHeld_of_mem hunh hx (fun h => hne (h.symm.trans hcon)) ho (hid.trans heq.symm)
  | update =>
    intro o ho
    rcases mem_update ho with hold|⟨r,hr,rfl⟩
    · exact hown o hold
    · exact hsee r hr
  | _ => exact hown

/-- After a statement a written report is held by its transaction alone. -/
theorem Statement.exclusive (h : Statement s t t') (hsd : Sound s) (hap : Apart s) (ht : t∈s.txs)
    (hkp : Keeps s t) (hreq : t'.request=.webhook d) (hrs : t'.rows≠[]) :
    d.verificationId ≠ "" ∧ Exclusive s t.conn d.verificationId := by
  have htx := hsd.txs t ht
  have hold : t.request=.webhook d→t.rows≠[] →
      d.verificationId ≠ "" ∧ Exclusive s t.conn d.verificationId := hap t ht d
  have hsh := htx.shape
  unfold Shape at hsh
  cases h with
  | insert hph =>
    rw [hph] at hsh
    have hweb : t.request=.webhook d := hreq
    rw [hsh.1] at hweb
    cases hweb
  | @record d' target createdAt hph hunh huns =>
    rw [hph] at hsh
    obtain ⟨hreq',hnm,hrs',-⟩ := hsh
    have hweb : t.request=.webhook d := hreq
    rw [hreq'] at hweb
    cases hweb
    refine ⟨hnm,fun r hr heq => ?_,fun x hx hne o ho => verificationHeld_of_mem hunh hx hne ho⟩
    have hid := huns r ((mem_overlay htx.ids).mpr (.inr ⟨hr,fun o ho => ?_⟩)) heq
    · cases target with
      | none => exact htx.unstored r hr hid
      | some row =>
        obtain ⟨old,hmem,hold',hpen⟩ := hkp _ row hph
        cases eq_of_key_eq Verification.id hsd.ids hr hmem (hid.trans hold'.symm)
        exact hnm (heq.symm.trans (hsd.blank r hr hpen))
    · rw [hrs'] at ho
      cases ho
  | update _ _ _ _ hcas =>
    rcases hcas with ⟨hph,-⟩|⟨_,hph,-⟩|⟨hph,-⟩ <;> rw [hph] at hsh
    iterate 2
      · obtain ⟨o,ho,-⟩ := hsh.2.2.2 d hreq
        exact hold hreq fun hnil => by rw [hnil] at ho; cases ho
    · have hweb : t.request=.webhook d := hreq
      rw [hsh.1] at hweb
      cases hweb
  | _ => exact hold hreq hrs

/-- What holds of a transaction outlives changes of the store that keep its rows'
identifiers and draw more. -/
theorem TxSound.of_store {s' : Store} (htx : TxSound s t)
    (hkp : ∀ r∈s.rows, ∃ r'∈s'.rows, r'.id=r.id) (hnx : s.nextId ≤ s'.nextId)
    (hfr : ∀ r∈s'.rows, r.id≠t.fresh) : TxSound s' t where
  shape := htx.shape
  ids := htx.ids
  known := by
    intro o ho
    rcases htx.known o ho with hfre|⟨r,hr,hid⟩
    · exact .inl hfre
    · obtain ⟨r',hr',heq⟩ := hkp r hr
      exact .inr ⟨r',hr',heq.trans hid⟩
  fresh := htx.fresh.trans_le hnx
  unstored := hfr
  blank := htx.blank
  granted := htx.granted
  target := by
    intro d row hph
    obtain ⟨r,hr,hid⟩ := htx.target d row hph
    obtain ⟨r',hr',heq⟩ := hkp r hr
    exact ⟨r',hr',heq.trans hid⟩

/-- After a statement a transaction is the new one or another. -/
theorem mem_putTx (hx : x∈(putTx s t').txs) : x=t'∨(x∈s.txs∧x.conn≠t'.conn) := by
  rcases mem_updateWhere.mp hx with ⟨old,-,-,rfl⟩|⟨hold,hne⟩
  · exact .inl rfl
  · exact .inr ⟨hold,of_decide_eq_false hne⟩

theorem Sound.moved (hsd : Sound s) (ht : t∈s.txs) (h : Statement s t t') :
    Sound (putTx s t') := by
  obtain ⟨hcon,-,-,hfre,-⟩ := h.same
  refine ⟨hsd.ids,hsd.below,hsd.blank,hsd.named,?_,?_,?_⟩
  · have heq : (putTx s t').txs.map Tx.conn=s.txs.map Tx.conn :=
      map_updateWhere Tx.conn s.txs fun x hx => (of_decide_eq_true hx).symm
    exact heq ▸ hsd.conns
  · have heq : (putTx s t').txs.map Tx.fresh=s.txs.map Tx.fresh := by
      unfold putTx updateWhere
      rw [map_map]
      refine map_congr_left fun x hx => ?_
      by_cases hx' : x.conn=t.conn
      · cases eq_of_key_eq Tx.conn hsd.conns hx ht hx'
        simp [hfre,hcon]
      · simp [hcon,hx']
    exact heq ▸ hsd.freshs
  · intro x hx
    rcases mem_putTx hx with rfl|⟨hold,-⟩
    · exact (h.txSound hsd (hsd.txs t ht)).of_store (fun r hr => ⟨r,hr,rfl⟩) (le_refl _)
        fun r hr => hfre ▸ (hsd.txs t ht).unstored r hr
    · exact (hsd.txs x hold).of_store (fun r hr => ⟨r,hr,rfl⟩) (le_refl _) (hsd.txs x hold).unstored

theorem Apart.moved (hap : Apart s) (hsd : Sound s) (ht : t∈s.txs) (hkp : Keeps s t)
    (h : Statement s t t') : Apart (putTx s t') := by
  intro x hx d hreq hwri
  rcases mem_putTx hx with rfl|⟨hold,hne⟩
  · obtain ⟨hnm,hexc⟩ := h.exclusive hsd hap ht hkp hreq hwri
    rw [← h.same.1] at hexc
    refine ⟨hnm,hexc.1,fun y hy hyne => ?_⟩
    rcases mem_putTx hy with rfl|⟨hyol,-⟩
    · exact absurd rfl hyne
    · exact hexc.2 y hyol hyne
  · rw [h.same.1] at hne
    obtain ⟨hnm,hexc⟩ := hap x hold d hreq hwri
    refine ⟨hnm,hexc.1,fun y hy hyne => ?_⟩
    rcases mem_putTx hy with rfl|⟨hyol,-⟩
    · exact h.apart hsd ht (Ne.symm hne) hnm ⟨x,hold,rfl,(hsd.txs x hold).recorded hreq hwri⟩ hexc
    · exact hexc.2 y hyol hyne

/-- After a first statement began a transaction is an old one, or one that takes its
time now. -/
theorem mem_started (hx : x∈(started s conn).txs) : x∈s.txs ∨
    ∃ old∈s.txs, old.version=none∧x={old with now := s.clock,version := some s.version} := by
  rcases mem_updateWhere.mp hx with ⟨old,hold,hfst,rfl⟩|⟨hold,-⟩
  · exact .inr ⟨old,hold,Option.isNone_iff_eq_none.mp ((Bool.and_eq_true _ _).mp hfst).2,rfl⟩
  · exact .inl hold

/-- Whoever runs a statement has begun. -/
theorem version_started (hx : x∈(started s conn).txs) (hcon : x.conn=conn) :
    x.version≠none := by
  rcases mem_updateWhere.mp hx with ⟨old,-,-,rfl⟩|⟨-,hbeg⟩
  · exact nofun
  · rintro hno
    simp [hcon,hno] at hbeg

theorem Sound.started (hsd : Sound s) (conn : ℕ) : Sound (started s conn) := by
  refine ⟨hsd.ids,hsd.below,hsd.blank,hsd.named,?_,?_,fun x hx => ?_⟩
  · exact nodup_map_updateWhere Tx.conn (fun _ => rfl) hsd.conns
  · exact nodup_map_updateWhere Tx.fresh (fun _ => rfl) hsd.freshs
  · rcases mem_started hx with hold|⟨old,hold,-,rfl⟩
    · obtain ⟨hsh,hids,hkno,hfre,huns,hbla,hgra,htgt⟩ := hsd.txs x hold
      exact ⟨hsh,hids,hkno,hfre,huns,hbla,hgra,htgt⟩
    · obtain ⟨hsh,hids,hkno,hfre,huns,hbla,hgra,htgt⟩ := hsd.txs old hold
      exact ⟨hsh,hids,hkno,hfre,huns,hbla,hgra,htgt⟩

theorem Apart.started (hap : Apart s) (conn : ℕ) : Apart (started s conn) := by
  have hoth : ∀ c v, Exclusive s c v → Exclusive (VerificationService.started s conn) c v := by
    refine fun c v hexc => ⟨hexc.1,fun y hy hne => ?_⟩
    rcases mem_started hy with hold|⟨old,hold,-,rfl⟩
    · exact hexc.2 y hold hne
    · exact hexc.2 old hold hne
  intro x hx d hreq hwri
  rcases mem_started hx with hold|⟨old,hold,-,rfl⟩
  · exact (hap x hold d hreq hwri).imp_right (hoth _ _)
  · exact (hap old hold d hreq hwri).imp_right (hoth _ _)

/-- A new transaction keeps the store sound. -/
theorem Sound.begin (hsd : Sound s) (hno : findTx s conn=none)
    (request : Request) : Sound (beginTx s conn request) := by
  have hfre : ∀ x∈s.txs, x.conn≠conn := by
    intro x hx heq
    exact (List.find?_eq_none.mp hno x hx) (decide_eq_true heq)
  have hnew : TxSound (beginTx s conn request)
      ⟨conn,request,s.clock,s.nextId,none,[],none,none,firstPhase request⟩ := by
    refine ⟨?_,nodup_nil,nofun,Nat.lt_succ_self _,fun r hr => (hsd.below r hr).ne,nofun,nofun,
      fun d row h => ?_⟩
    · cases request with
      | start | webhook | sweep => exact ⟨rfl,rfl,rfl,rfl⟩
      | revoke | clear => exact ⟨rfl,rfl,nofun,nofun⟩
      | status => exact ⟨rfl,nofun,nofun⟩
    · cases request <;> cases h
  refine ⟨hsd.ids,fun r hr => Nat.lt_succ_of_lt (hsd.below r hr),hsd.blank,hsd.named,
    nodup_map_append Tx.conn hsd.conns hfre,
    nodup_map_append Tx.fresh hsd.freshs fun x hx => (hsd.txs x hx).fresh.ne,fun x hx => ?_⟩
  rcases mem_append.mp hx with hold|hlt
  · exact (hsd.txs x hold).of_store (fun r hr => ⟨r,hr,rfl⟩) (Nat.le_succ _)
      (hsd.txs x hold).unstored
  · cases mem_singleton.mp hlt
    exact hnew

theorem Apart.begin (hap : Apart s) (conn : ℕ) (request : Request) :
    Apart (beginTx s conn request) := by
  intro x hx d hreq hwri
  rcases mem_append.mp hx with hold|hlt
  · obtain ⟨hnm,hsto,hoth⟩ := hap x hold d hreq hwri
    refine ⟨hnm,hsto,fun y hy hne => ?_⟩
    rcases mem_append.mp hy with hyol|hyla
    · exact hoth y hyol hne
    · cases mem_singleton.mp hyla
      exact nofun
  · cases mem_singleton.mp hlt
    exact absurd rfl hwri

/-- An ended transaction leaves the store sound. -/
theorem Sound.drop (hsd : Sound s) (conn : ℕ) : Sound (dropTx s conn) := by
  refine ⟨hsd.ids,hsd.below,hsd.blank,hsd.named,
    nodup_map_deleteWhere Tx.conn hsd.conns,nodup_map_deleteWhere Tx.fresh hsd.freshs,
    fun x hx => ?_⟩
  have htx := hsd.txs x (mem_deleteWhere.mp hx).1
  exact htx.of_store (fun r hr => ⟨r,hr,rfl⟩) (le_refl _) htx.unstored

theorem Apart.drop (hap : Apart s) (conn : ℕ) : Apart (dropTx s conn) := by
  intro x hx d hreq hwri
  obtain ⟨hnm,hsto,hoth⟩ := hap x (mem_deleteWhere.mp hx).1 d hreq hwri
  exact ⟨hnm,hsto,fun y hy => hoth y (mem_deleteWhere.mp hy).1⟩

theorem TxSound.seen_kept (htx : TxSound s t) (hr : r∈s.rows) :
    ∃ r'∈seen s t, r'.id=r.id := by
  by_cases hown : ∃ o∈t.rows, o.id=r.id
  · obtain ⟨o,ho,hid⟩ := hown
    exact ⟨o,(mem_overlay htx.ids).mpr (.inl ho),hid⟩
  · exact ⟨r,(mem_overlay htx.ids).mpr (.inr ⟨hr,fun o ho hid => hown ⟨o,ho,hid⟩⟩),rfl⟩

/-- The transactions that a commit leaves open are others. -/
theorem mem_commitTx (hx : x∈(commitTx s t).txs) : x∈s.txs∧x.conn≠t.conn := by
  obtain ⟨hmem,hne⟩ := mem_deleteWhere.mp hx
  exact ⟨hmem,of_decide_eq_false hne⟩

theorem Sound.commit (hsd : Sound s) (ht : t∈s.txs) : Sound (commitTx s t) := by
  have htx := hsd.txs t ht
  refine ⟨nodup_overlay hsd.ids htx.ids,?_,htx.seen_of hsd.blank htx.blank,
    htx.seen_of hsd.named fun o ho hsuc => (htx.granted o ho hsuc).1,
    nodup_map_deleteWhere Tx.conn hsd.conns,nodup_map_deleteWhere Tx.fresh hsd.freshs,
    fun x hx => ?_⟩
  · refine htx.seen_of hsd.below fun o ho => ?_
    rcases htx.known o ho with hfre|⟨r,hr,hid⟩
    · rw [hfre]
      exact htx.fresh
    · exact hid ▸ hsd.below r hr
  · obtain ⟨hmem,hne⟩ := mem_commitTx hx
    have hxtx := hsd.txs x hmem
    refine hxtx.of_store (fun r hr => htx.seen_kept hr) (le_refl _) ?_
    refine htx.seen_of hxtx.unstored fun o ho heq => ?_
    rcases htx.known o ho with hfre|⟨r,hr,hid⟩
    · exact hne (congrArg Tx.conn (eq_of_key_eq Tx.fresh hsd.freshs hmem ht (heq.symm.trans hfre)))
    · exact hxtx.unstored r hr (hid.trans heq)

theorem Apart.commit (hap : Apart s) (hsd : Sound s) (ht : t∈s.txs) : Apart (commitTx s t) := by
  intro x hx d hreq hwri
  obtain ⟨hmem,hne⟩ := mem_commitTx hx
  obtain ⟨hnm,hsto,hapa⟩ := hap x hmem d hreq hwri
  refine ⟨hnm,(hsd.txs t ht).seen_of hsto (hapa t ht (Ne.symm hne)),fun y hy => ?_⟩
  exact hapa y (mem_commitTx hy).1

/-- What a step does to the store. -/
inductive Stepped (s : Store) : Action → Store → Prop
  | same (a : Action) : Stepped s a s
  | begin {conn : ℕ} (request : Request) : findTx s conn=none →
      Stepped s (.begin conn request) (beginTx s conn request)
  | wait (conn : ℕ) : Stepped s (.next conn) (started s conn)
  | fail (conn : ℕ) : Stepped s (.next conn) (dropTx (started s conn) conn)
  | move {conn : ℕ} {t t' : Tx} : t∈(started s conn).txs→t.conn=conn →
      Statement (started s conn) t t' → Stepped s (.next conn) (putTx (started s conn) t')
  | commit {conn : ℕ} {t : Tx} : findTx s conn=some t→t∈s.txs→t.phase=.finished →
      Stepped s (.commit conn) (commitTx s t)
  | abort (conn : ℕ) : Stepped s (.abort conn) (dropTx s conn)
  | tick (span : ℕ) : Stepped s (.tick span) {s with clock := s.clock+span}

theorem step_spec (s : Store) (a : Action) : Stepped s a (step s a).2 := by
  cases a with
  | begin _ request =>
    simp only [step]
    split_ifs with hfr
    · exact .same _
    rw [Bool.not_eq_true,Option.isSome_eq_false_iff,Option.isNone_iff_eq_none] at hfr
    exact .begin request hfr
  | next conn =>
    simp only [step]
    cases hfd : findTx (started s conn) conn with
    | none => exact .same _
    | some t =>
      obtain ⟨ht,hcon⟩ := findTx_eq_some hfd
      dsimp only
      unfold runStatement
      cases hres : statement (started s conn) t with
      | blocked => exact .wait conn
      | failed =>
        subst hcon
        exact .fail t.conn
      | moved => exact .move ht hcon (statement_spec hres)
  | commit conn =>
    simp only [step]
    cases hfd : findTx s conn with
    | none => exact .same _
    | some =>
      dsimp only
      split
      · next hfin => exact .commit hfd (findTx_eq_some hfd).1 hfin
      · exact .same _
  | abort conn => exact .abort conn
  | tick span => exact .tick span

theorem Sound.step (hsd : Sound s) (a : Action) : Sound (VerificationService.step s a).2 := by
  have hst := step_spec s a
  generalize (VerificationService.step s a).2=next at hst ⊢
  cases hst with
  | same => exact hsd
  | begin request hno => exact hsd.begin hno request
  | wait conn => exact hsd.started conn
  | fail conn => exact (hsd.started conn).drop conn
  | move ht _ hmv => exact (hsd.started _).moved ht hmv
  | commit _ ht => exact hsd.commit ht
  | abort conn => exact hsd.drop conn
  | tick =>
    refine {hsd with txs := fun x hx => ?_}
    exact (hsd.txs x hx).of_store (fun r hr => ⟨r,hr,rfl⟩) (le_refl _) (hsd.txs x hx).unstored

/-- What a step undisturbed finds pending, it finds pending after a first statement
began. -/
theorem Undisturbed.started (h : Undisturbed s (.next conn)) :
    ∀ t∈(started s conn).txs, t.conn=conn → Keeps (started s conn) t := by
  intro t ht hcon
  rcases mem_started ht with hold|⟨old,hold,-,rfl⟩
  · exact h t hold hcon
  · exact h old hold hcon

theorem Apart.step (hap : Apart s) (hsd : Sound s) (a : Action) (hun : Undisturbed s a) :
    Apart (VerificationService.step s a).2 := by
  have hst := step_spec s a
  generalize (VerificationService.step s a).2=next at hst ⊢
  cases hst with
  | same | tick => exact hap
  | begin request => exact hap.begin _ request
  | wait conn => exact hap.started conn
  | fail conn => exact (hap.started conn).drop conn
  | move ht hcon hmv => exact (hap.started _).moved (hsd.started _) ht (hun.started _ ht hcon) hmv
  | commit _ ht => exact hap.commit hsd ht
  | abort conn => exact hap.drop conn

/-- A report whose verification is stored commits nothing. -/
theorem Apart.redelivered (hap : Apart s) (hsd : Sound s) (ht : t∈s.txs)
    (hreq : t.request=.webhook d) (hfin : t.phase=.finished)
    (hsto : ∃ r∈s.rows, r.verificationId=d.verificationId) :
    (commitTx s t).rows=s.rows∧(commitTx s t).entries=s.entries ∧
      (commitTx s t).active=s.active := by
  have htx := hsd.txs t ht
  have hrs : t.rows=[] := by
    by_contra hwri
    obtain ⟨r,hr,hid⟩ := hsto
    exact (hap t ht d hreq hwri).2.1 r hr hid
  have hsh := htx.shape
  unfold Shape at hsh
  rw [hfin] at hsh
  obtain ⟨hact,-,hso⟩ := hsh
  have hent : t.entries=none := by
    by_contra hrew
    obtain ⟨o,ho,-⟩ := (hso hrew).2 d hreq
    rw [hrs] at ho
    cases ho
  unfold commitTx seen
  rw [hrs,hact,hent,overlay_nil]
  exact ⟨rfl,rfl,rfl⟩

end SellRight.VerificationSteps
