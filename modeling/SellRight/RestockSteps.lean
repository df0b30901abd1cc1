import SellRight.RestockNotices
import SellRight.RunHistory

/-!
# One step of the restock notices

What a step does to the rows, the open transactions and the outbox, and which
facts about locks every step keeps: a held row waits and is held once, a held
event is unprocessed and held once, and a variant has one unprocessed event.
-/

namespace SellRight.RestockSteps

open RestockNotices RowTable RunHistory List

/-- One step of a shopper, an administrator or a transaction. -/
inductive Action where
  | signUp (v email : String) (drawn : ℕ) (now : ℤ)
  | cancelRequest (id : ℕ)
  | subscribe (v email : String) (drawn : ℕ) (now : ℤ)
  | confirm (id : ℕ)
  | unsubscribe (id : ℕ)
  | writeStock (v : String) (stock : Stock) (drawn : ℕ) (now : ℤ)
  | beginSweep (id take cap : ℕ)
  | beginNotify (id : ℕ) (v : String)
  /-- A transaction claims the rows of its next variant. -/
  | process (id : ℕ)
  /-- A transaction finishes the variant it has claimed. -/
  | finish (id : ℕ)
  | commit (id : ℕ) (drawn : List ℕ) (now : ℤ)
  | rollback (id : ℕ)

section
variable (s : Shop)

/-- An open transaction. -/
def txOf (id : ℕ) : Option Transaction := s.pendingTx.find? fun t => decide (t.id=id)

/-- Run a step of an open transaction. -/
def onTx (id : ℕ) (f : Transaction → Answer×Shop) : Answer×Shop :=
  match txOf s id with
  | none => (.idle,s)
  | some t => f t

/-- Execute one step. -/
def step : Action → Answer×Shop
  | .signUp v email drawn now => signUp s v email drawn now
  | .cancelRequest id => cancelRequest s id
  | .subscribe v email drawn now => (.ran,subscribe s v email drawn now)
  | .confirm id => (.ran,confirm s id)
  | .unsubscribe id => unsubscribe s id
  | .writeStock v stock drawn now => writeStock s v stock drawn now
  | .beginSweep id take cap => (.ran,beginSweep s id take cap)
  | .beginNotify id v => (.ran,beginNotify s id v)
  | .process id => onTx s id (processRestock s)
  | .finish id => onTx s id (finishVariant s)
  | .commit id drawn now => onTx s id fun t => commitTx s t drawn now
  | .rollback id => onTx s id fun t => (.ran,rollbackTx s t)

/-- Row identifiers and transaction identifiers are new, a cap is positive, and
subscribers confirm while their variant is unavailable. -/
def Admissible : Action → Prop
  | .signUp _ _ drawn _ => ∀ row∈s.requests, row.id≠drawn
  | .subscribe _ _ drawn _ => ∀ row∈s.subscribers, row.id≠drawn
  | .confirm id => ∀ row∈s.subscribers, row.id=id → row.status=.pending →
      available s row.variantId≤0
  | .writeStock _ _ drawn _ => ∀ event∈s.events, event.id≠drawn
  | .beginSweep id _ cap => 1≤cap∧∀ t∈s.pendingTx, t.id≠id
  | .beginNotify id _ => ∀ t∈s.pendingTx, t.id≠id
  | .commit id drawn _ => drawn.Nodup∧(∀ new∈drawn, ∀ event∈s.events, event.id≠new) ∧
      ∀ t∈s.pendingTx, t.id=id→t.added.length≤drawn.length
  | _ => True

/-- A row waits for a variant, and a mail to it consumes its key. -/
def Waits (v : String) (key : Consumption) : RowId → Prop
  | .request id => ∃ row∈s.requests, row.id=id∧row.variantId=v∧row.status=.pending ∧
      key=.request id
  | .subscriber id => ∃ row∈s.subscribers, row.id=id∧row.variantId=v ∧
      row.status=.confirmed∧key=row.dedupeKey

/-- A transaction consumes an unprocessed event of a variant. -/
def Consumes (t : Transaction) (v : String) : Prop :=
  ∃ event∈s.events, event.id∈t.events∧event.variantId=v∧event.processed=false

end

/-- Facts about rows, locks and the queue that every step keeps. -/
structure Sound (s : Shop) : Prop where
  requestIds : (s.requests.map Request.id).Nodup
  subscriberIds : (s.subscribers.map Subscriber.id).Nodup
  eventIds : (s.events.map RestockEvent.id).Nodup
  txIds : (s.pendingTx.map Transaction.id).Nodup
  queuedOnce : ∀ e∈s.events, ∀ e'∈s.events, e.processed=false→e'.processed=false →
    e.variantId=e'.variantId→e=e'
  heldWaits : ∀ t∈s.pendingTx, ∀ row∈t.held, ∃ v key, Waits s v key row
  heldOnce : ∀ t∈s.pendingTx, ∀ t'∈s.pendingTx, ∀ row∈t.held, row∈t'.held→t=t'
  /-- Claimed rows of an unfinished variant are held and confirmed. -/
  currentHeld : ∀ t∈s.pendingTx, ∀ c, t.current=some c→∀ row∈c.rows,
    row∈s.subscribers∧row.status=.confirmed∧RowId.subscriber row.id∈t.held
  claimedOpen : ∀ t∈s.pendingTx, ∀ id∈t.events, ∃ e∈s.events, e.id=id∧e.processed=false
  claimedOnce : ∀ t∈s.pendingTx, ∀ t'∈s.pendingTx, ∀ id∈t.events, id∈t'.events→t=t'
  sweepTodo : ∀ t∈s.pendingTx, t.cap≠none→∀ v∈t.todo, Consumes s t v
  /-- A variant that is to be queued again is one of these. -/
  currentQueue : ∀ t∈s.pendingTx, ∀ c, t.current=some c→c.requeue=true → Consumes s t c.variantId
  /-- A variant that is queued again is one of these. -/
  addedQueue : ∀ t∈s.pendingTx, ∀ v∈t.added, Consumes s t v
  addedOnce : ∀ t∈s.pendingTx, t.added.Nodup
  mailHeld : ∀ t∈s.pendingTx, ∀ m∈t.mails, m.row∈t.held

/-- Rows that shoppers change, while everything else stays: held rows are
untouched, and a row begins to wait when its variant is unavailable, as a new
request or by a confirmation. -/
structure RowChange (s s' : Shop) (confirmed : Option Consumption) : Prop where
  same : s'.stock=s.stock∧s'.events=s.events∧s'.pendingTx=s.pendingTx ∧
    s'.mails=s.mails∧s'.passed=s.passed
  requestIds : (s'.requests.map Request.id).Nodup
  subscriberIds : (s'.subscribers.map Subscriber.id).Nodup
  heldRequests : ∀ row∈s.requests, isHeld s (.request row.id)=true → row∈s'.requests
  heldSubscribers : ∀ row∈s.subscribers, isHeld s (.subscriber row.id)=true →
    row.status=.confirmed → row∈s'.subscribers
  news : ∀ v key row, Waits s' v key row → Waits s v key row∨(available s v≤0 ∧
    (confirmed=some key∨∃ id, key=.request id∧∀ r∈s.requests, r.id≠id))
  kept : ∀ row∈s.requests, ∃ row'∈s'.requests, row'.id=row.id
  /-- Notified and cancelled requests stay as they are. -/
  closed : ∀ row∈s.requests, row.status≠.pending → row∈s'.requests

variable {s s' : Shop} {t : Transaction} {row : RowId} {v : String} {cap : Option ℕ}
  {key : Option Consumption}

/-- The transaction once it has finished its variant. -/
abbrev finishedTx (s : Shop) (t : Transaction) (c : Current) (added : List String) : Transaction :=
  {t with
    current := none
    held := t.held++(siblings s t c).map fun row => .subscriber row.id
    mails := t.mails++subscriberMails [] c.rows
    added := added}

/-- The queue of the transaction after a variant whose lane may be full. -/
def Requeues (s : Shop) (t : Transaction) (c : Current) (added : List String) : Prop :=
  (c.requeue=true∧isQueued s t c.variantId=false∧added=t.added++[c.variantId]) ∨
    ((c.requeue=false∨isQueued s t c.variantId=true)∧added=t.added)

/-- What one step other than a rollback does. -/
inductive Change (s : Shop) : Option Consumption → Shop → Prop
  | unchanged : Change s none s
  | rows {confirmed : Option Consumption} {s' : Shop} (hrows : RowChange s s' confirmed) :
      Change s confirmed s'
  /-- The stock of a variant is written without making it available. -/
  | stocked (v : String) (stock : Stock) (hcross : ¬ crosses s v stock) :
      Change s none {s with stock := Function.update s.stock v stock}
  /-- A variant becomes available and is queued. -/
  | crossed (v : String) (stock : Stock) (drawn : ℕ) (now : ℤ) (hheld : eventHeld s v=false)
      (hdrawn : ∀ event∈s.events, event.id≠drawn) :
      Change s none {queueEvent s v drawn now with stock := Function.update s.stock v stock}
  | opened (t : Transaction) (hfresh : ∀ other∈s.pendingTx, other.id≠t.id)
      (hempty : t.held=[]∧t.mails=[]∧t.added=[]∧t.current=none)
      (hevents : ∀ id∈t.events, isClaimed s id=false∧∃ e∈s.events, e.id=id∧e.processed=false)
      (htodo : t.cap≠none→∀ v∈t.todo, Consumes s t v)
      (hall : ∀ id∈t.events, ∀ e∈s.events, e.id=id→e.variantId∈t.todo) :
      Change s none {s with pendingTx := s.pendingTx++[t]}
  | skipped (t : Transaction) (v : String) (rest : List String) (ht : t∈s.pendingTx)
      (hcurrent : t.current=none) (htodo : t.todo=v::rest) (hnone : available s v≤0) :
      Change s none (setTx s {t with todo := rest})
  | claimed (t : Transaction) (v : String) (rest : List String) (ht : t∈s.pendingTx)
      (hcurrent : t.current=none) (htodo : t.todo=v::rest)
      (hfree : t.cap=none→heldRows s t v=[]) (passed : List RowId)
      (hpassed : (passed=s.passed∧(t.cap=none ∨
          fillsCap t.cap (claimRequests s t.cap v) (claimSubscribers s t.cap v)=true)) ∨
        passed=s.passed++heldRows s t v) :
      Change s none {setTx s (claimedTx t v rest (claimRequests s t.cap v)
        (claimSubscribers s t.cap v)) with passed := passed}
  | finished (t : Transaction) (c : Current) (ht : t∈s.pendingTx) (hcurrent : t.current=some c)
      (hfree : ∀ row∈siblings s t c, isHeld s (.subscriber row.id)=false) (added : List String)
      (hadded : Requeues s t c added) :
      Change s none (setTx s (finishedTx s t c added))
  | committed (t : Transaction) (drawn : List ℕ) (now : ℤ) (ht : t∈s.pendingTx)
      (htodo : t.todo=[]) (hcurrent : t.current=none) (hdrawn : drawn.Nodup)
      (hnew : ∀ new∈drawn, ∀ event∈s.events, event.id≠new)
      (hlength : t.added.length≤drawn.length) : Change s none (commitTx s t drawn now).2
theorem txOf_eq_some {id : ℕ} (h : txOf s id=some t) :
    t∈s.pendingTx∧t.id=id :=
  find_key_eq_some Transaction.id h

/-- The transaction once it has claimed the rows of a variant. -/
abbrev claimedNow (s : Shop) (t : Transaction) (v : String) (rest : List String) : Transaction :=
  claimedTx t v rest (claimRequests s t.cap v) (claimSubscribers s t.cap v)

theorem isHeld_eq_true :
    isHeld s row=true ↔ ∃ t∈s.pendingTx, row∈t.held := by
  simp [isHeld]

theorem isHeld_eq_false :
    isHeld s row=false ↔ ∀ t∈s.pendingTx, row∉t.held := by
  simp [isHeld]

theorem mem_dueRequests {row : Request} :
    row∈dueRequests s v ↔ row∈s.requests∧row.variantId=v∧row.status=.pending := by
  simp [dueRequests]

theorem mem_dueSubscribers {row : Subscriber} :
    row∈dueSubscribers s v ↔ row∈s.subscribers∧row.variantId=v∧row.status=.confirmed := by
  simp [dueSubscribers]

section
variable {α : Type} {rows : List α}

theorem mem_upToCap {row : α}
    (h : row∈upToCap cap rows) : row∈rows := by
  cases cap with
  | none => exact h
  | some => exact mem_of_mem_take h

end

theorem mem_claimRequests {row : Request}
    (h : row∈claimRequests s cap v) : row∈dueRequests s v∧isHeld s (.request row.id)=false := by
  have hsor := mem_upToCap h
  rw [mem_insertionSort] at hsor
  simpa using mem_filter.mp hsor

theorem mem_claimSubscribers {row : Subscriber} (h : row∈claimSubscribers s cap v) :
    row∈dueSubscribers s v∧isHeld s (.subscriber row.id)=false := by
  have hsor := mem_upToCap h
  rw [mem_insertionSort] at hsor
  simpa using mem_filter.mp hsor

/-- Key of the row that a step confirms. -/
def confirmedBy (s : Shop) : Action → Option Consumption
  | .confirm id => (s.subscribers.find? fun row => decide (row.id=id) &&
      decide (row.status=.pending)).map Subscriber.dedupeKey
  | _ => none

section

theorem requests_change {requests : List Request}
    (hsd : Sound s) (hids : (requests.map Request.id).Nodup)
    (hhd : ∀ row∈s.requests, isHeld s (.request row.id)=true → row∈requests)
    (hnews : ∀ row∈requests, row.status=.pending → row∈s.requests ∨
      (available s row.variantId≤0∧∀ r∈s.requests, r.id≠row.id))
    (hkp : ∀ row∈s.requests, ∃ row'∈requests, row'.id=row.id)
    (hclo : ∀ row∈s.requests, row.status≠.pending → row∈requests) :
    RowChange s {s with requests := requests} key := by
  refine ⟨⟨rfl,rfl,rfl,rfl,rfl⟩,hids,hsd.subscriberIds,hhd,fun row hrow _ _ => hrow,?_,hkp,hclo⟩
  intro v k row hwt
  cases row with
  | request id =>
    obtain ⟨row,hrow,hid,hv,hpen,hkey⟩ := hwt
    rcases hnews row hrow hpen with hold|⟨hno,hnew⟩
    · exact .inl ⟨row,hold,hid,hv,hpen,hkey⟩
    · refine .inr ⟨hv ▸ hno,.inr ⟨id,hkey,?_⟩⟩
      rw [← hid]
      exact hnew
  | subscriber => exact .inl hwt

theorem subscribers_change {subscribers : List Subscriber}
    (hsd : Sound s) (hids : (subscribers.map Subscriber.id).Nodup)
    (hhd : ∀ row∈s.subscribers, isHeld s (.subscriber row.id)=true →
      row.status=.confirmed → row∈subscribers)
    (hnews : ∀ row∈subscribers, row.status=.confirmed → row∈s.subscribers ∨
      (available s row.variantId≤0∧key=some row.dedupeKey)) :
    RowChange s {s with subscribers := subscribers} key := by
  refine ⟨⟨rfl,rfl,rfl,rfl,rfl⟩,hsd.requestIds,hids,fun row hrow _ => hrow,hhd,?_,
    fun row hrow => ⟨row,hrow,rfl⟩,fun row hrow _ => hrow⟩
  intro v k row hwt
  cases row with
  | request => exact .inl hwt
  | subscriber =>
    obtain ⟨row,hrow,hid,hv,hcon,hkey⟩ := hwt
    rcases hnews row hrow hcon with hold|⟨hno,hnew⟩
    · exact .inl ⟨row,hold,hid,hv,hcon,hkey⟩
    · exact .inr ⟨hv ▸ hno,.inl (by rw [hnew,hkey])⟩

section
variable (hsd : Sound s)
include hsd

theorem signUp_change (v email : String) (drawn : ℕ) (now : ℤ)
    (hdra : ∀ row∈s.requests, row.id≠drawn) : Change s none (signUp s v email drawn now).2 := by
  unfold signUp
  split
  · exact .unchanged
  · next hno =>
    split
    · exact .unchanged
    unfold insertRequest
    split
    · exact .unchanged
    refine .rows (requests_change hsd (nodup_map_append _ hsd.requestIds hdra)
      (fun row hrow _ => mem_append_left _ hrow) (fun row hrow _ => ?_)
      (fun row hrow => ⟨row,mem_append_left _ hrow,rfl⟩)
      (fun row hrow _ => mem_append_left _ hrow))
    rcases mem_concat_iff.mp hrow with hold|rfl
    · exact .inl hold
    · exact .inr ⟨not_lt.mp hno,hdra⟩

theorem cancelRequest_change (id : ℕ) :
    Change s none (cancelRequest s id).2 := by
  unfold cancelRequest
  split_ifs with hfr
  · exact .unchanged
  refine .rows (requests_change hsd ?_ ?_ ?_ ?_ ?_)
  · exact nodup_map_updateWhere Request.id (fun _ => rfl) hsd.requestIds
  · intro row hrow hhd
    refine mem_updateWhere.mpr (.inr ⟨hrow,?_⟩)
    have hne : row.id≠id := by
      rintro rfl
      exact hfr hhd
    simp [hne]
  · intro row hrow hpen
    rcases mem_updateWhere.mp hrow with ⟨old,-,-,rfl⟩|⟨hold,-⟩
    · cases hpen
    · exact .inl hold
  · intro row hrow
    by_cases hhit : (decide (row.id=id)&&decide (row.status=.pending))=true
    · exact ⟨{row with status := .canceled},mem_updateWhere.mpr (.inl ⟨row,hrow,hhit,rfl⟩),rfl⟩
    · exact ⟨row,mem_updateWhere.mpr (.inr ⟨hrow,by simpa using hhit⟩),rfl⟩
  · intro row hrow hclo
    exact mem_updateWhere.mpr (.inr ⟨hrow,by simp [hclo]⟩)

theorem subscribe_change (v email : String) (drawn : ℕ) (now : ℤ)
    (hdra : ∀ row∈s.subscribers, row.id≠drawn) : Change s none (subscribe s v email drawn now) := by
  unfold subscribe
  split
  · refine .rows (subscribers_change hsd ?_ ?_ ?_)
    · exact nodup_map_updateWhere Subscriber.id (fun _ => rfl) hsd.subscriberIds
    · intro row hrow _ hcon
      exact mem_updateWhere.mpr (.inr ⟨hrow,by simp [hcon]⟩)
    · intro row hrow hcon
      rcases mem_updateWhere.mp hrow with ⟨old,-,-,rfl⟩|⟨hold,-⟩
      · cases hcon
      · exact .inl hold
  · refine .rows (subscribers_change hsd (nodup_map_append _ hsd.subscriberIds hdra)
      (fun row hrow _ _ => mem_append_left _ hrow) (fun row hrow hcon => ?_))
    rcases mem_concat_iff.mp hrow with hold|rfl
    · exact .inl hold
    · cases hcon

theorem confirm_change (id : ℕ)
    (hno : ∀ row∈s.subscribers, row.id=id → row.status=.pending→available s row.variantId≤0) :
    Change s (confirmedBy s (.confirm id)) (confirm s id) := by
  refine .rows (subscribers_change hsd ?_ ?_ ?_)
  · exact nodup_map_updateWhere Subscriber.id (fun _ => rfl) hsd.subscriberIds
  · intro row hrow _ hcon
    exact mem_updateWhere.mpr (.inr ⟨hrow,by simp [hcon]⟩)
  · intro row hrow hcon
    rcases mem_updateWhere.mp hrow with ⟨old,hold,hhit,rfl⟩|⟨hold,-⟩
    · simp only [Bool.and_eq_true,decide_eq_true_eq] at hhit
      refine .inr ⟨hno old hold hhit.1 hhit.2,?_⟩
      have hfd : s.subscribers.find? (fun row => decide (row.id=id) &&
          decide (row.status=.pending))=some old :=
        find_unique hold (by simp [hhit]) fun other hot hmt => by
          simp only [Bool.and_eq_true,decide_eq_true_eq] at hmt
          exact eq_of_key_eq Subscriber.id hsd.subscriberIds hot hold (hmt.1.trans hhit.1.symm)
      simp only [confirmedBy,hfd,Option.map_some]
      rfl
    · exact .inl hold

theorem unsubscribe_change (id : ℕ) :
    Change s none (unsubscribe s id).2 := by
  unfold unsubscribe
  split_ifs with hfr
  · exact .unchanged
  refine .rows (subscribers_change hsd ?_ ?_ ?_)
  · exact nodup_map_updateWhere Subscriber.id (fun _ => rfl) hsd.subscriberIds
  · intro row hrow hhd _
    refine mem_updateWhere.mpr (.inr ⟨hrow,?_⟩)
    have hne : row.id≠id := by
      rintro rfl
      exact hfr hhd
    simp [hne]
  · intro row hrow hcon
    rcases mem_updateWhere.mp hrow with ⟨old,-,-,rfl⟩|⟨hold,-⟩
    · cases hcon
    · exact .inl hold

end

theorem writeStock_change (v : String) (stock : Stock) (drawn : ℕ) (now : ℤ)
    (hdra : ∀ event∈s.events, event.id≠drawn) :
    Change s none (writeStock s v stock drawn now).2 := by
  unfold writeStock
  split
  · next hcro =>
    split
    · exact .unchanged
    · next hfr => exact .crossed v stock drawn now (by simpa using hfr) hdra
  · next hcro => exact .stocked v stock hcro

theorem beginNotify_change (id : ℕ) (v : String)
    (hfre : ∀ t∈s.pendingTx, t.id≠id) : Change s none (beginNotify s id v) :=
  Change.opened _ hfre ⟨rfl,rfl,rfl,rfl⟩ (fun _ h => absurd h not_mem_nil)
    (absurd rfl) (fun _ h => absurd h not_mem_nil)

theorem beginSweep_change (hsd : Sound s) (id take cap : ℕ)
    (hfre : ∀ t∈s.pendingTx, t.id≠id) : Change s none (beginSweep s id take cap) := by
  have hcla : ∀ event∈((s.events.filter fun event =>
      !event.processed && !isClaimed s event.id).insertionSort
        fun a b => earlier (a.createdAt,a.id) (b.createdAt,b.id)).take take,
      event∈s.events∧event.processed=false∧isClaimed s event.id=false := by
    intro event heve
    have hsor := mem_of_mem_take heve
    simpa [and_assoc] using hsor
  refine .opened _ hfre ⟨rfl,rfl,rfl,rfl⟩ ?_ (fun _ v hv => ?_) ?_
  · intro eventId hid
    obtain ⟨event,heve,rfl⟩ := mem_map.mp hid
    obtain ⟨hmem,hop,hfr⟩ := hcla event heve
    exact ⟨hfr,event,hmem,rfl,hop⟩
  · obtain ⟨event,heve,rfl⟩ := mem_map.mp (mem_dedup.mp hv)
    obtain ⟨hmem,hop,-⟩ := hcla event heve
    exact ⟨event,hmem,mem_map_of_mem heve,rfl,hop⟩
  · intro eventId hid e he heq
    obtain ⟨event,heve,rfl⟩ := mem_map.mp hid
    rw [eq_of_key_eq RestockEvent.id hsd.eventIds he (hcla event heve).1 heq]
    exact mem_dedup.mpr (mem_map_of_mem heve)

theorem processRestock_change (ht : t∈s.pendingTx) :
    Change s none (processRestock s t).2 := by
  unfold processRestock
  split
  · next v rest hcur htod =>
    split
    · next hno => exact .skipped t v rest ht hcur htod hno
    split_ifs with hfr
    · exact .unchanged
    have hno : t.cap=none→heldRows s t v=[] := by
      intro hcap
      by_contra hhd
      exact hfr ⟨hcap,hhd⟩
    dsimp only
    split
    · next hq =>
      exact .claimed t v rest ht hcur htod hno s.passed (.inl ⟨rfl,hq⟩)
    · exact .claimed t v rest ht hcur htod hno _ (.inr rfl)
  · exact .unchanged

theorem finishVariant_change (ht : t∈s.pendingTx) :
    Change s none (finishVariant s t).2 := by
  unfold finishVariant
  split
  · exact .unchanged
  · next c hcur =>
    split
    · exact .unchanged
    · next hfr =>
      split
      · exact .unchanged
      refine .finished t c ht hcur ?_ _ ?_
      · intro row hrow
        by_contra hhd
        exact hfr (any_eq_true.mpr ⟨row,hrow,by simpa using hhd⟩)
      split
      · next hque => exact .inl ⟨hque.1,hque.2,rfl⟩
      · next hque =>
        refine .inr ⟨?_,rfl⟩
        by_cases hreq : c.requeue=true
        · exact .inr (by simpa [hreq] using hque)
        · exact .inl (by simpa using hreq)

end

/-- A step rolls an open transaction back. -/
def RollsBack (s : Shop) (a : Action) (t : Transaction) : Prop :=
  t∈s.pendingTx∧a=.rollback t.id∧(step s a).2=rollbackTx s t

theorem onTx_change {id : ℕ} {f : Transaction → Answer×Shop}
    (hch : ∀ t, txOf s id=some t → Change s none (f t).2) : Change s none (onTx s id f).2 := by
  unfold onTx
  cases hfd : txOf s id with
  | none => exact .unchanged
  | some t => exact hch t hfd

theorem step_change {a : Action} (hsd : Sound s) (hall : Admissible s a) :
    Change s (confirmedBy s a) (step s a).2∨∃ t, RollsBack s a t := by
  cases a with
  | signUp v email drawn now => exact .inl (signUp_change hsd v email drawn now hall)
  | cancelRequest id => exact .inl (cancelRequest_change hsd id)
  | subscribe v email drawn now => exact .inl (subscribe_change hsd v email drawn now hall)
  | confirm id => exact .inl (confirm_change hsd id hall)
  | unsubscribe id => exact .inl (unsubscribe_change hsd id)
  | writeStock v stock drawn now => exact .inl (writeStock_change v stock drawn now hall)
  | beginSweep id take cap => exact .inl (beginSweep_change hsd id take cap hall.2)
  | beginNotify id v => exact .inl (beginNotify_change id v hall)
  | process => exact .inl (onTx_change fun _ hfd => processRestock_change (txOf_eq_some hfd).1)
  | finish => exact .inl (onTx_change fun _ hfd => finishVariant_change (txOf_eq_some hfd).1)
  | commit id drawn now =>
    refine .inl (onTx_change fun t hfd => ?_)
    obtain ⟨ht,hid⟩ := txOf_eq_some hfd
    by_cases hdn : t.todo=[]∧t.current=none
    · exact .committed t drawn now ht hdn.1 hdn.2 hall.1 hall.2.1 (hall.2.2 t ht hid)
    · simp only [commitTx,if_neg hdn]
      exact .unchanged
  | rollback id =>
    cases hfd : txOf s id with
    | none =>
      refine .inl ?_
      change Change s none (onTx s id fun t => (.ran,rollbackTx s t)).2
      simp only [onTx,hfd]
      exact .unchanged
    | some t =>
      obtain ⟨ht,rfl⟩ := txOf_eq_some hfd
      exact .inr ⟨t,ht,rfl,by simp [step,onTx,hfd]⟩

theorem mem_setTx {t' other : Transaction} (h : other∈(setTx s t').pendingTx) :
    other=t'∨(other∈s.pendingTx∧other.id≠t'.id) := by
  rcases mem_updateWhere.mp h with ⟨old,-,-,rfl⟩|⟨hold,hms⟩
  · exact .inl rfl
  · exact .inr ⟨hold,by simpa using hms⟩

/-- What is known of one open transaction. -/
structure TxSound (s : Shop) (t : Transaction) : Prop where
  heldWaits : ∀ row∈t.held, ∃ v key, Waits s v key row
  currentHeld : ∀ c, t.current=some c→∀ row∈c.rows,
    row∈s.subscribers∧row.status=.confirmed∧RowId.subscriber row.id∈t.held
  claimedOpen : ∀ id∈t.events, ∃ e∈s.events, e.id=id∧e.processed=false
  sweepTodo : t.cap≠none→∀ v∈t.todo, Consumes s t v
  currentQueue : ∀ c, t.current=some c→c.requeue=true → Consumes s t c.variantId
  addedQueue : ∀ v∈t.added, Consumes s t v
  addedOnce : t.added.Nodup
  mailHeld : ∀ m∈t.mails, m.row∈t.held

/-- Transactions that share a held row or a claimed event are one. -/
def Apart (t t' : Transaction) : Prop :=
  (∀ row∈t.held, row∈t'.held→t=t')∧∀ id∈t.events, id∈t'.events→t=t'

theorem Sound.tx (hsd : Sound s) (ht : t∈s.pendingTx) : TxSound s t :=
  ⟨hsd.heldWaits t ht,hsd.currentHeld t ht,hsd.claimedOpen t ht,hsd.sweepTodo t ht,
    hsd.currentQueue t ht,hsd.addedQueue t ht,hsd.addedOnce t ht,hsd.mailHeld t ht⟩

variable {t' : Transaction}

theorem Sound.apart (hsd : Sound s) (ht : t∈s.pendingTx)
    (ht' : t'∈s.pendingTx) : Apart t t' :=
  ⟨hsd.heldOnce t ht t' ht',hsd.claimedOnce t ht t' ht'⟩

/-- The tables are in order and so is every transaction. -/
theorem Sound.ofTx (hreq : (s.requests.map Request.id).Nodup)
    (hsub : (s.subscribers.map Subscriber.id).Nodup) (heve : (s.events.map RestockEvent.id).Nodup)
    (hids : (s.pendingTx.map Transaction.id).Nodup)
    (honc : ∀ e∈s.events, ∀ e'∈s.events, e.processed=false→e'.processed=false →
      e.variantId=e'.variantId→e=e') (htx : ∀ t∈s.pendingTx, TxSound s t)
    (hapa : ∀ t∈s.pendingTx, ∀ t'∈s.pendingTx, Apart t t') : Sound s :=
  ⟨hreq,hsub,heve,hids,honc,fun t ht => (htx t ht).heldWaits,fun t ht t' ht' => (hapa t ht t' ht').1,
    fun t ht => (htx t ht).currentHeld,fun t ht => (htx t ht).claimedOpen,
    fun t ht t' ht' => (hapa t ht t' ht').2,fun t ht => (htx t ht).sweepTodo,
    fun t ht => (htx t ht).currentQueue,fun t ht => (htx t ht).addedQueue,
    fun t ht => (htx t ht).addedOnce,fun t ht => (htx t ht).mailHeld⟩

/-- A transaction goes on while its rows and its events stay. -/
theorem TxSound.mono (h : TxSound s t)
    (hwt : ∀ v key, ∀ row∈t.held, Waits s v key row → Waits s' v key row)
    (hrs : ∀ row∈s.subscribers, RowId.subscriber row.id∈t.held → row.status=.confirmed →
      row∈s'.subscribers)
    (heve : ∀ e∈s.events, e.id∈t.events→e∈s'.events) : TxSound s' t := by
  have hcon : ∀ v, Consumes s t v → Consumes s' t v := by
    rintro v ⟨e,he,hmem,hrt⟩
    exact ⟨e,heve e he hmem,hmem,hrt⟩
  refine ⟨fun row hrow => ?_,fun c hc row hrow => ?_,fun id hid => ?_,
    fun hcap v hv => hcon v (h.sweepTodo hcap v hv),fun c hc hreq => hcon _ (h.currentQueue c hc hreq),
    fun v hv => hcon v (h.addedQueue v hv),h.addedOnce,h.mailHeld⟩
  · obtain ⟨v,key,hold⟩ := h.heldWaits row hrow
    exact ⟨v,key,hwt v key row hrow hold⟩
  · obtain ⟨hmem,hconf,hhd⟩ := h.currentHeld c hc row hrow
    exact ⟨hrs row hmem hhd hconf,hconf,hhd⟩
  · obtain ⟨e,he,heq,hop⟩ := h.claimedOpen id hid
    exact ⟨e,heve e he (heq ▸ hid),heq,hop⟩

theorem Apart.of_disjoint (hhd : ∀ row∈t.held, row∉t'.held)
    (heve : ∀ id∈t.events, id∉t'.events) : Apart t t'∧Apart t' t :=
  ⟨⟨fun row h h' => absurd h' (hhd row h),fun id h h' => absurd h' (heve id h)⟩,
    ⟨fun row h h' => absurd h (hhd row h'),fun id h h' => absurd h (heve id h')⟩⟩

/-- An open transaction goes on: what it holds newly was free and waits. -/
theorem Sound.setTx (hsd : Sound s) (ht : t∈s.pendingTx)
    (hid : t'.id=t.id) (heve : t'.events=t.events) (hcap : t'.cap=t.cap)
    (htod : ∀ v∈t'.todo, v∈t.todo)
    (hhd : ∀ row∈t'.held, row∈t.held∨(isHeld s row=false∧∃ v key, Waits s v key row))
    (hcur : ∀ c, t'.current=some c→(∀ row∈c.rows, row∈s.subscribers ∧
      row.status=.confirmed∧RowId.subscriber row.id∈t'.held) ∧
      (c.requeue=true → Consumes s t c.variantId))
    (had : ∀ v∈t'.added, Consumes s t v) (honc : t'.added.Nodup)
    (hmai : ∀ m∈t'.mails, m.row∈t'.held) : Sound (RestockNotices.setTx s t') := by
  have hoth : ∀ other∈(RestockNotices.setTx s t').pendingTx,
      other=t'∨(other∈s.pendingTx∧other.id≠t.id) := by
    intro other hot
    have h := mem_setTx hot
    rwa [hid] at h
  have hcon : ∀ v, Consumes s t v → Consumes s t' v := by
    intro v hv
    simpa only [Consumes,heve] using hv
  have hapa : ∀ other∈s.pendingTx, other.id≠t.id → Apart t' other∧Apart other t' := by
    intro other hold hne
    refine Apart.of_disjoint (fun row hrow hrow' => ?_) fun id hmem hmem' =>
      hne (congrArg Transaction.id ((hsd.apart ht hold).2 id (heve ▸ hmem) hmem')).symm
    rcases hhd row hrow with hbef|⟨hfr,-⟩
    · exact hne (congrArg Transaction.id ((hsd.apart ht hold).1 row hbef hrow')).symm
    · exact isHeld_eq_false.mp hfr other hold hrow'
  refine .ofTx hsd.requestIds hsd.subscriberIds hsd.eventIds ?_ hsd.queuedOnce
    (fun other hot => ?_) fun a ha b hb => ?_
  · have hks : (RestockNotices.setTx s t').pendingTx.map Transaction.id =
        s.pendingTx.map Transaction.id := by
      refine map_updateWhere Transaction.id s.pendingTx fun row hrow => ?_
      simpa using (of_decide_eq_true hrow).symm
    rw [hks]
    exact hsd.txIds
  · rcases hoth other hot with rfl|⟨hold,-⟩
    · have htx := hsd.tx ht
      exact ⟨fun row hrow => (hhd row hrow).elim (htx.heldWaits row) And.right,
        fun c hc => (hcur c hc).1,heve ▸ htx.claimedOpen,
        fun hso v hv => hcon v (htx.sweepTodo (hcap ▸ hso) v (htod v hv)),
        fun c hc hreq => hcon _ ((hcur c hc).2 hreq),fun v hv => hcon v (had v hv),honc,hmai⟩
    · exact (hsd.tx hold).mono (fun _ _ _ _ h => h) (fun _ h _ _ => h) fun _ h _ => h
  · rcases hoth a ha with rfl|⟨hold,hne⟩
    · rcases hoth b hb with rfl|⟨hold',hne'⟩
      · exact ⟨fun _ _ _ => rfl,fun _ _ _ => rfl⟩
      · exact (hapa b hold' hne').1
    · rcases hoth b hb with rfl|⟨hold',-⟩
      · exact (hapa a hold hne).2
      · exact hsd.apart hold hold'

theorem RowChange.waits_held {confirmed : Option Consumption}
    (hrs : RowChange s s' confirmed) {key : Consumption}
    (hhd : isHeld s row=true) (hwt : Waits s v key row) : Waits s' v key row := by
  cases row with
  | request =>
    obtain ⟨row,hmem,hid,hrt⟩ := hwt
    exact ⟨row,hrs.heldRequests row hmem (hid ▸ hhd),hid,hrt⟩
  | subscriber =>
    obtain ⟨row,hmem,hid,hv,hcon,hk⟩ := hwt
    exact ⟨row,hrs.heldSubscribers row hmem (hid ▸ hhd) hcon,hid,hv,hcon,hk⟩

/-- Changed rows keep the locks. -/
theorem RowChange.sound (hrs : RowChange s s' key)
    (hsd : Sound s) : Sound s' := by
  obtain ⟨-,heve,htx,-,-⟩ := hrs.same
  refine .ofTx hrs.requestIds hrs.subscriberIds (heve ▸ hsd.eventIds) (htx ▸ hsd.txIds)
    (heve ▸ hsd.queuedOnce) (fun t ht => ?_) (htx ▸ fun _ ht _ ht' => hsd.apart ht ht')
  rw [htx] at ht
  have hhd : ∀ row∈t.held, isHeld s row=true := fun row hrow => isHeld_eq_true.mpr ⟨t,ht,hrow⟩
  exact (hsd.tx ht).mono (fun _ _ row hrow => hrs.waits_held (hhd row hrow))
    (fun row hmem hrow => hrs.heldSubscribers row hmem (hhd _ hrow)) (heve ▸ fun _ he _ => he)

/-- A transaction ends while its rows, and the variants it queues, change: the
other transactions hold other rows and other events. -/
theorem Sound.endTx (hsd : Sound s) (ht : t∈s.pendingTx)
    (htx : s'.pendingTx=deleteWhere (fun other => decide (other.id=t.id)) s.pendingTx)
    (hreq : (s'.requests.map Request.id).Nodup) (hsub : (s'.subscribers.map Subscriber.id).Nodup)
    (heven : (s'.events.map RestockEvent.id).Nodup)
    (honc : ∀ e∈s'.events, ∀ e'∈s'.events, e.processed=false→e'.processed=false →
      e.variantId=e'.variantId→e=e')
    (hwt : ∀ v key row, row∉t.held → Waits s v key row → Waits s' v key row)
    (hrs : ∀ row∈s.subscribers, RowId.subscriber row.id∉t.held → row∈s'.subscribers)
    (heve : ∀ e∈s.events, e.id∉t.events→e∈s'.events) : Sound s' := by
  have hoth : ∀ other∈s'.pendingTx, other∈s.pendingTx∧other≠t := by
    intro other hot
    rw [htx] at hot
    obtain ⟨hmem,hms⟩ := mem_deleteWhere.mp hot
    refine ⟨hmem,?_⟩
    rintro rfl
    simp at hms
  refine .ofTx hreq hsub heven (htx ▸ nodup_map_deleteWhere _ hsd.txIds) honc (fun other hot => ?_)
    fun a ha b hb => hsd.apart (hoth a ha).1 (hoth b hb).1
  obtain ⟨hold,hne⟩ := hoth other hot
  have hapa := hsd.apart hold ht
  exact (hsd.tx hold).mono (fun v key row hrow => hwt v key row fun h => hne (hapa.1 row hrow h))
    (fun row hmem hrow _ => hrs row hmem fun h => hne (hapa.1 _ hrow h))
    fun e he hid => heve e he fun h => hne (hapa.2 _ hid h)

/-- The stock, the outbox and the passed rows do not matter for the locks. -/
theorem Sound.ignore (hsd : Sound s) (stock : String → Stock) (mails : List Mail)
    (passed : List RowId) : Sound {s with stock := stock,mails := mails,passed := passed} := by
  obtain ⟨h1,h2,h3,h4,h5,h6,h7,h8,h9,h10,h11,h12,h13,h14,h15⟩ := hsd
  exact ⟨h1,h2,h3,h4,h5,h6,h7,h8,h9,h10,h11,h12,h13,h14,h15⟩

/-- New events of variants without one keep the queue in order. -/
theorem queuedOnce_append {events : List RestockEvent} {added : List RestockEvent}
    (honc : ∀ e∈events, ∀ e'∈events, e.processed=false→e'.processed=false →
      e.variantId=e'.variantId→e=e')
    (hno : ∀ e∈added, ∀ e'∈events, e'.processed=false→e'.variantId≠e.variantId)
    (had : ∀ e∈added, ∀ e'∈added, e.variantId=e'.variantId→e=e') :
    ∀ e∈events++added, ∀ e'∈events++added, e.processed=false→e'.processed=false →
      e.variantId=e'.variantId→e=e' := by
  intro e he e' he' hop hop' hv
  rcases mem_append.mp he with hold|hnew
  · rcases mem_append.mp he' with hold'|hnew'
    · exact honc e hold e' hold' hop hop' hv
    · exact absurd hv (hno e' hnew' e hold hop)
  · rcases mem_append.mp he' with hold'|hnew'
    · exact absurd hv.symm (hno e hnew e' hold' hop')
    · exact had e hnew e' hnew' hv

theorem Sound.queueEvent (hsd : Sound s) (v : String) (drawn : ℕ) (now : ℤ)
    (hdra : ∀ event∈s.events, event.id≠drawn) :
    Sound (RestockNotices.queueEvent s v drawn now) := by
  unfold RestockNotices.queueEvent
  split_ifs with hno
  · exact hsd
  have hem : ∀ e∈s.events, e.processed=false→e.variantId≠v := by
    intro e he hop hv
    exact hno (any_eq_true.mpr ⟨e,he,by simp [hop,hv]⟩)
  refine .ofTx hsd.requestIds hsd.subscriberIds (nodup_map_append _ hsd.eventIds hdra) hsd.txIds
    (queuedOnce_append hsd.queuedOnce ?_ ?_) (fun t ht => (hsd.tx ht).mono (fun _ _ _ _ h => h)
      (fun _ h _ _ => h) fun _ he _ => mem_append_left _ he) fun _ ht _ ht' => hsd.apart ht ht'
  · intro e he e' he' hop
    cases mem_singleton.mp he
    exact hem e' he' hop
  · intro e he e' he' _
    rw [mem_singleton.mp he,mem_singleton.mp he']

/-- A new transaction holds events that were free and nothing else. -/
theorem Sound.open (hsd : Sound s) (hfre : ∀ other∈s.pendingTx, other.id≠t.id)
    (hem : t.held=[]∧t.mails=[]∧t.added=[]∧t.current=none)
    (heve : ∀ id∈t.events, isClaimed s id=false∧∃ e∈s.events, e.id=id∧e.processed=false)
    (htod : t.cap≠none→∀ v∈t.todo, Consumes s t v) :
    Sound {s with pendingTx := s.pendingTx++[t]} := by
  obtain ⟨hhd,hmai,had,hcur⟩ := hem
  have hoth : ∀ other∈s.pendingTx++[t], other∈s.pendingTx∨other=t := by
    simp
  have hfr : ∀ id∈t.events, ∀ other∈s.pendingTx, id∉other.events := by
    intro id hid other hot hmem
    have hcla := (heve id hid).1
    simp only [isClaimed,any_eq_false,decide_eq_true_eq] at hcla
    exact hcla other hot hmem
  have hapa : ∀ other∈s.pendingTx, Apart t other∧Apart other t := fun other hold =>
    Apart.of_disjoint (by simp [hhd]) fun id hid => hfr id hid other hold
  refine .ofTx hsd.requestIds hsd.subscriberIds hsd.eventIds (nodup_map_append _ hsd.txIds hfre)
    hsd.queuedOnce (fun other hot => ?_) fun a ha b hb => ?_
  · rcases hoth other hot with hold|rfl
    · exact (hsd.tx hold).mono (fun _ _ _ _ h => h) (fun _ h _ _ => h) fun _ h _ => h
    · exact ⟨by simp [hhd],by simp [hcur],fun id hid => (heve id hid).2,htod,by simp [hcur],
        by simp [had],by simp [had],by simp [hmai]⟩
  · rcases hoth a ha with hold|rfl
    · rcases hoth b hb with hold'|rfl
      · exact hsd.apart hold hold'
      · exact (hapa a hold).2
    · rcases hoth b hb with hold'|rfl
      · exact (hapa b hold').1
      · exact ⟨fun _ _ _ => rfl,fun _ _ _ => rfl⟩

/-- Rows that a variant's claim takes wait, and nobody holds them. -/
theorem claimed_free
    (h : row∈(claimRequests s cap v).map (fun r => .request r.id) ++
      (claimSubscribers s cap v).map fun r => .subscriber r.id) :
    isHeld s row=false∧∃ key, Waits s v key row := by
  rcases mem_append.mp h with hreq|hsub
  · obtain ⟨r,hr,rfl⟩ := mem_map.mp hreq
    obtain ⟨hdue,hfr⟩ := mem_claimRequests hr
    obtain ⟨hmem,hv,hpen⟩ := mem_dueRequests.mp hdue
    exact ⟨hfr,_,r,hmem,rfl,hv,hpen,rfl⟩
  · obtain ⟨r,hr,rfl⟩ := mem_map.mp hsub
    obtain ⟨hdue,hfr⟩ := mem_claimSubscribers hr
    obtain ⟨hmem,hv,hcon⟩ := mem_dueSubscribers.mp hdue
    exact ⟨hfr,_,r,hmem,rfl,hv,hcon,rfl⟩

theorem Sound.claim {rest : List String}
    (hsd : Sound s) (ht : t∈s.pendingTx) (htod : t.todo=v::rest) :
    Sound (RestockNotices.setTx s (claimedNow s t v rest)) := by
  refine hsd.setTx ht rfl rfl rfl ?_ ?_ ?_ (hsd.addedQueue t ht) (hsd.addedOnce t ht) ?_
  · intro w hw
    rw [htod]
    exact mem_cons_of_mem _ hw
  · intro row hrow
    simp only [claimedTx,append_assoc] at hrow
    rcases mem_append.mp hrow with hold|hnew
    · exact .inl hold
    · obtain ⟨hfr,key,hwt⟩ := claimed_free hnew
      exact .inr ⟨hfr,v,key,hwt⟩
  · intro c hc
    cases hc
    constructor
    · intro row hrow
      obtain ⟨hmem,-,hcon⟩ := mem_dueSubscribers.mp (mem_claimSubscribers hrow).1
      refine ⟨hmem,hcon,?_⟩
      simp only [claimedTx,append_assoc]
      exact mem_append_right _ (mem_append_right _ (mem_map_of_mem hrow))
    · intro hfil
      have hcap : t.cap≠none := by
        intro hno
        simp [fillsCap,hno] at hfil
      exact hsd.sweepTodo t ht hcap v (by rw [htod]; exact mem_cons_self)
  · intro m hm
    simp only [claimedTx,append_assoc] at hm ⊢
    rcases mem_append.mp hm with hold|hnew
    · exact mem_append_left _ (hsd.mailHeld t ht m hold)
    · obtain ⟨r,hr,rfl⟩ := mem_map.mp hnew
      exact mem_append_right _ (mem_append_left _ (mem_map_of_mem hr))

theorem mem_siblings {c : Current} {row : Subscriber} :
    row∈siblings s t c ↔ row∈s.subscribers∧row.status=.confirmed∧RowId.subscriber row.id∉t.held ∧
      ∃ name, row.signupGroup=some name∧∃ claimed∈c.rows, claimed.signupGroup=some name := by
  simp only [siblings,mem_filter,Bool.and_eq_true,decide_eq_true_eq,and_assoc,
    Option.any_eq_true,any_eq_true]

theorem mem_subscriberMails {mailed : List Consumption} {rows : List Subscriber} {m : Mail}
    (h : m∈subscriberMails mailed rows) :
    ∃ row∈rows, m.row=.subscriber row.id∧m.unit=row.dedupeKey := by
  induction rows generalizing mailed with
  | nil => cases h
  | cons row _ ih =>
    unfold subscriberMails at h
    split at h
    · obtain ⟨other,hot,hm⟩ := ih h
      exact ⟨other,mem_cons_of_mem _ hot,hm⟩
    rcases mem_cons.mp h with rfl|htl
    · exact ⟨row,mem_cons_self,rfl,rfl⟩
    · obtain ⟨other,hot,hm⟩ := ih htl
      exact ⟨other,mem_cons_of_mem _ hot,hm⟩

theorem Sound.finish {c : Current} (hsd : Sound s) (ht : t∈s.pendingTx) (hcur : t.current=some c)
    (hfr : ∀ row∈siblings s t c, isHeld s (.subscriber row.id)=false) {added : List String}
    (had : Requeues s t c added) :
    Sound (RestockNotices.setTx s (finishedTx s t c added)) := by
  have hque : (∀ v∈added, Consumes s t v)∧added.Nodup := by
    rcases had with ⟨hreq,hnot,rfl⟩|⟨-,rfl⟩
    · have hnew : c.variantId∉t.added := by
        intro hmem
        simp [isQueued,hmem] at hnot
      refine ⟨fun v hv => ?_,?_⟩
      · rcases mem_concat_iff.mp hv with hold|rfl
        · exact hsd.addedQueue t ht v hold
        · exact hsd.currentQueue t ht c hcur hreq
      · exact nodup_concat_iff.mpr ⟨hnew,hsd.addedOnce t ht⟩
    · exact ⟨hsd.addedQueue t ht,hsd.addedOnce t ht⟩
  refine hsd.setTx ht rfl rfl rfl (fun _ hv => hv) ?_ (fun _ h => nomatch h) hque.1 hque.2 ?_
  · intro row hrow
    rcases mem_append.mp hrow with hold|hnew
    · exact .inl hold
    · obtain ⟨r,hr,rfl⟩ := mem_map.mp hnew
      obtain ⟨hmem,hcon,-⟩ := mem_siblings.mp hr
      exact .inr ⟨hfr r hr,r.variantId,r.dedupeKey,r,hmem,rfl,rfl,hcon,rfl⟩
  · intro m hm
    rcases mem_append.mp hm with hold|hnew
    · exact mem_append_left _ (hsd.mailHeld t ht m hold)
    · obtain ⟨row,hrow,hmai,-⟩ := mem_subscriberMails hnew
      rw [hmai]
      exact mem_append_left _ (hsd.currentHeld t ht c hcur row hrow).2.2

def insertedEvents (t : Transaction) (drawn : List ℕ) (now : ℤ) : List RestockEvent :=
  (t.added.zip drawn).map fun entry => ⟨entry.2,entry.1,false,now⟩

theorem commitTx_done (htod : t.todo=[]) (hcur : t.current=none)
    (drawn : List ℕ) (now : ℤ) : (commitTx s t drawn now).2 = {s with
      requests := updateWhere (fun row => decide (.request row.id∈t.held))
        (fun row => {row with status := .notified}) s.requests
      subscribers := updateWhere (fun row => decide (.subscriber row.id∈t.held))
        (fun row => {row with status := .unsubscribed}) s.subscribers
      events := updateWhere (fun event => decide (event.id∈t.events))
        (fun event => {event with processed := true}) s.events++insertedEvents t drawn now
      pendingTx := deleteWhere (fun other => decide (other.id=t.id)) s.pendingTx
      mails := s.mails++t.mails
      passed := s.passed.filter fun row => decide (row∉t.held)} := by
  rw [commitTx,if_pos ⟨htod,hcur⟩]
  rfl

/-- Inserted events are distinct, and each belongs to a variant that the
transaction queues. -/
theorem mem_insertedEvents {drawn : List ℕ} {now : ℤ} {e : RestockEvent}
    (h : e∈insertedEvents t drawn now) : e.id∈drawn∧e.variantId∈t.added∧e.processed=false := by
  obtain ⟨⟨v,id⟩,hent,rfl⟩ := mem_map.mp h
  exact ⟨(of_mem_zip hent).2,(of_mem_zip hent).1,rfl⟩

theorem insertedEvents_ids (t : Transaction) (drawn : List ℕ) (now : ℤ) :
    ((insertedEvents t drawn now).map RestockEvent.id).Sublist drawn := by
  have hids : (insertedEvents t drawn now).map RestockEvent.id=(t.added.zip drawn).map Prod.snd := by
    simp [insertedEvents,Function.comp_def]
  rw [hids]
  clear hids
  generalize t.added=vs
  induction vs generalizing drawn with
  | nil => exact nil_sublist _
  | cons _ _ ih =>
    cases drawn with
    | nil => exact List.Sublist.slnil
    | cons id drawn => exact (ih drawn).cons_cons id

theorem insertedEvents_once (honc : t.added.Nodup) (drawn : List ℕ) (now : ℤ) :
    ∀ e∈insertedEvents t drawn now, ∀ e'∈insertedEvents t drawn now,
      e.variantId=e'.variantId→e=e' := by
  intro e he e' he' hv
  obtain ⟨⟨v,id⟩,hent,rfl⟩ := mem_map.mp he
  obtain ⟨⟨v',id'⟩,hent',rfl⟩ := mem_map.mp he'
  subst hv
  obtain ⟨i,hi,hget⟩ := mem_iff_getElem.mp hent
  obtain ⟨j,hj,hget'⟩ := mem_iff_getElem.mp hent'
  simp only [getElem_zip,Prod.mk.injEq] at hget hget'
  have hind : i=j := (List.Nodup.getElem_inj_iff honc).mp (hget.1.trans hget'.1.symm)
  subst hind
  rw [← hget.2,← hget'.2]

section
variable {drawn : List ℕ} {now : ℤ}

theorem waits_commit (htod : t.todo=[]) (hcur : t.current=none) {key : Consumption} :
    Waits (commitTx s t drawn now).2 v key row ↔ Waits s v key row∧row∉t.held := by
  rw [commitTx_done htod hcur]
  cases row with
  | request | subscriber =>
    constructor
    · rintro ⟨r,hr,rfl,hv,hopn,hkey⟩
      rcases mem_updateWhere.mp hr with ⟨old,-,-,rfl⟩|⟨hold,hms⟩
      · cases hopn
      · exact ⟨⟨r,hold,rfl,hv,hopn,hkey⟩,by simpa using hms⟩
    · rintro ⟨⟨r,hr,rfl,hrt⟩,hfr⟩
      exact ⟨r,mem_updateWhere.mpr (.inr ⟨hr,by simpa using hfr⟩),rfl,hrt⟩

theorem Sound.commit (hsd : Sound s) (ht : t∈s.pendingTx) (htod : t.todo=[]) (hcur : t.current=none)
    (hdra : drawn.Nodup) (hnew : ∀ new∈drawn, ∀ event∈s.events, event.id≠new) :
    Sound (commitTx s t drawn now).2 := by
  have hkp : ∀ e∈updateWhere (fun event => decide (event.id∈t.events))
      (fun event => {event with processed := true}) s.events,e.processed=false →
      e∈s.events∧e.id∉t.events := by
    intro e he hop
    rcases mem_updateWhere.mp he with ⟨old,-,-,rfl⟩|⟨hold,hms⟩
    · cases hop
    · exact ⟨hold,by simpa using hms⟩
  refine hsd.endTx ht ?_ ?_ ?_ ?_ ?_ (fun v key row hfr hwt =>
    (waits_commit htod hcur).mpr ⟨hwt,hfr⟩) ?_ ?_
  · rw [commitTx_done htod hcur]
  · rw [commitTx_done htod hcur]
    exact nodup_map_updateWhere Request.id (fun _ => rfl) hsd.requestIds
  · rw [commitTx_done htod hcur]
    exact nodup_map_updateWhere Subscriber.id (fun _ => rfl) hsd.subscriberIds
  · rw [commitTx_done htod hcur,map_append]
    refine nodup_append.mpr ⟨nodup_map_updateWhere RestockEvent.id (fun _ => rfl) hsd.eventIds,
      hdra.sublist (insertedEvents_ids t drawn now),?_⟩
    intro id hid id' hid' heq
    subst heq
    have hfre := (insertedEvents_ids t drawn now).subset hid'
    obtain ⟨event,heve,heq⟩ := mem_map.mp hid
    rcases mem_updateWhere.mp heve with ⟨old,hold,-,rfl⟩|⟨hold,-⟩
    · exact hnew id hfre old hold heq
    · exact hnew id hfre event hold heq
  · rw [commitTx_done htod hcur]
    refine queuedOnce_append ?_ ?_ (insertedEvents_once (hsd.addedOnce t ht) drawn now)
    · intro e he e' he' hop hop' hv
      exact hsd.queuedOnce e (hkp e he hop).1 e' (hkp e' he' hop').1 hop hop' hv
    intro e he e' he' hop' hv
    obtain ⟨-,had,-⟩ := mem_insertedEvents he
    obtain ⟨event,heve,hcla,hvar,hop⟩ := hsd.addedQueue t ht e.variantId had
    obtain ⟨hmem,hfr⟩ := hkp e' he' hop'
    have heq := hsd.queuedOnce event heve e' hmem hop hop' (hvar.trans hv.symm)
    exact hfr (heq ▸ hcla)
  · intro row hrow hfr
    rw [commitTx_done htod hcur]
    exact mem_updateWhere.mpr (.inr ⟨hrow,by simpa using hfr⟩)
  · intro e he hfr
    rw [commitTx_done htod hcur]
    exact mem_append_left _ (mem_updateWhere.mpr (.inr ⟨he,by simpa using hfr⟩))

end

theorem Sound.rollback (hsd : Sound s) (ht : t∈s.pendingTx) :
    Sound (rollbackTx s t) :=
  hsd.endTx ht rfl hsd.requestIds hsd.subscriberIds hsd.eventIds hsd.queuedOnce
    (fun _ _ _ _ h => h) (fun _ h _ => h) (fun _ h _ => h)

theorem Change.sound (hcha : Change s key s')
    (hsd : Sound s) : Sound s' := by
  cases hcha with
  | unchanged => exact hsd
  | rows hrs => exact hrs.sound hsd
  | stocked => exact hsd.ignore _ _ _
  | crossed v _ drawn now _ hdra => exact (hsd.queueEvent v drawn now hdra).ignore _ _ _
  | opened _ hfre hem heve htod => exact hsd.open hfre hem heve htod
  | skipped t _ _ ht hcur htod =>
    refine hsd.setTx ht rfl rfl rfl ?_ (fun _ h => .inl h) ?_ (hsd.addedQueue t ht)
      (hsd.addedOnce t ht) (hsd.mailHeld t ht)
    · intro w hw
      rw [htod]
      exact mem_cons_of_mem _ hw
    · intro c hc
      cases hcur.symm.trans hc
  | claimed _ _ _ ht _ htod => exact (hsd.claim ht htod).ignore _ _ _
  | finished _ _ ht hcur hfr _ had => exact hsd.finish ht hcur hfr had
  | committed _ _ _ ht htod hcur hdra hnew => exact hsd.commit ht htod hcur hdra hnew

end SellRight.RestockSteps
