import SellRight.RunHistory

/-!
# Admission of background passes

A pass takes a slot of its lane before it starts and keeps it until it
settles, also past its deadline. The passes that move money or mail have a
lane of their own. A slot given back goes to the first pass that waits in its
lane; a stop refuses new passes and rejects the waiting ones.
-/

namespace SellRight.JobAdmission

open RunHistory List

/-- Passes whose delay a customer would see. -/
def criticalJobs : List String := ["pending-effects", "gateway-events", "emails", "webhooks"]

/-- The two pools of slots. -/
inductive Lane where
  | general | critical
  deriving DecidableEq

/-- A requested pass. -/
structure Job where
  id : ℕ
  label : String
  deriving DecidableEq

def Job.lane (job : Job) : Lane := if criticalJobs.contains job.label then .critical else .general

/-- A pass with a slot was handed it and has not gone on yet, or it runs,
within its deadline or past it. -/
inductive Phase where
  | granted
  | running (late : Bool)
  deriving DecidableEq

/-- Counting semaphore of a lane with the passes that hold its slots. -/
structure Semaphore where
  free : ℕ
  waiters : List Job
  slots : List (Job×Phase)
  /-- Passes that ever had to wait, and those of them that got a slot. -/
  (queued served : List Job)

def Semaphore.new (size : ℤ) : Semaphore := ⟨(max 1 size).toNat,[],[],[],[]⟩

/-- What a step answers. -/
inductive Answer where
  | granted
  | queued (job : Job)
  | refused
  | started
  | done

section
variable (sem : Semaphore) (job : Job)

/-- Take a free slot or wait for one. -/
def Semaphore.acquire : Answer×Semaphore :=
  if 0<sem.free then
    (.granted,{sem with
      free := sem.free-1
      slots := (job,.granted)::sem.slots})
  else
    (.queued job,{sem with
      waiters := sem.waiters++[job]
      queued := sem.queued++[job]})

/-- Give a slot back: to the first waiter, else to the free ones. -/
def Semaphore.release (held : Job×Phase) : Semaphore :=
  match sem.waiters with
  | [] => {sem with
      free := sem.free+1
      slots := sem.slots.erase held}
  | job::rest => {sem with
      waiters := rest
      slots := (job,.granted)::sem.slots.erase held
      served := sem.served++[job]}

/-- A pass goes on with its slot. -/
def Semaphore.move (now next : Phase) : Semaphore :=
  {sem with slots := (job,next)::sem.slots.erase (job,now)}

end

/-- Passes of one process. -/
structure Admission where
  sem : Lane → Semaphore
  (active overdue : ℕ)
  stopped : Bool
  next : ℕ

def createAdmission (concurrency : ℤ) (criticalConcurrency : Option ℤ) : Admission where
  sem
    | .general => .new concurrency
    | .critical => .new (criticalConcurrency.getD 2)
  active := 0
  overdue := 0
  stopped := false
  next := 0

def setSem (s : Admission) (lane : Lane) (sem : Semaphore) : Admission :=
  {s with sem := Function.update s.sem lane sem}

inductive Action where
  | run (label : String)
  /-- A pass goes on after it was handed its slot. -/
  | resume (job : Job)
  | deadline (job : Job)
  | settle (job : Job) (late : Bool)
  | stop

/-- Execute one step. -/
def step (s : Admission) : Action → Answer×Admission
  | .run label =>
    if s.stopped then (.refused,s)
    else
      let job : Job := ⟨s.next,label⟩
      let taken := (s.sem job.lane).acquire job
      (taken.1,{setSem s job.lane taken.2 with next := s.next+1})
  | .resume job =>
    let sem := s.sem job.lane
    if (job,.granted)∉sem.slots then (.done,s)
    else if s.stopped then (.refused,setSem s job.lane (sem.release (job,.granted)))
    else (.started,{setSem s job.lane (sem.move job .granted (.running false)) with
      active := s.active+1})
  | .deadline job =>
    let sem := s.sem job.lane
    if (job,.running false)∉sem.slots then (.done,s)
    else (.done,{setSem s job.lane (sem.move job (.running false) (.running true)) with
      overdue := s.overdue+1})
  | .settle job late =>
    let sem := s.sem job.lane
    if (job,.running late)∉sem.slots then (.done,s)
    else (.done,{setSem s job.lane (sem.release (job,.running late)) with
      overdue := if late then s.overdue-1 else s.overdue
      active := s.active-1})
  | .stop => (.done,{s with
      stopped := true
      sem := fun lane => {s.sem lane with waiters := []}})

/-- No slot is lost or held twice, passes wait while no slot is free, and they
are served in turn; only a stop rejects them. -/
structure Semaphore.Kept (size : ℕ) (stopped : Bool) (sem : Semaphore) : Prop where
  slots : sem.free+sem.slots.length=size
  full : sem.waiters≠[] → sem.free=0
  order : sem.served++sem.waiters <+: sem.queued
  whole : stopped=false→sem.served++sem.waiters=sem.queued
  cut : stopped=true→sem.waiters=[]

variable {size : ℕ} {stopped : Bool} {sem : Semaphore} {s : Admission} {held : Job×Phase}
  {p : Job×Phase → Bool} {lane : Lane}

theorem Semaphore.Kept.acquire (h : sem.Kept size false) (job : Job) :
    (sem.acquire job).2.Kept size false := by
  unfold Semaphore.acquire
  have hsiz := h.slots
  split
  · next hfre =>
    refine ⟨?_,fun hwt => ?_,h.order,h.whole,nofun⟩
    · simp only [length_cons]
      omega
    · have := h.full hwt
      omega
  · next hno =>
    have hwh := h.whole rfl
    refine ⟨hsiz,fun _ => by simpa using hno,?_,fun _ => ?_,nofun⟩ <;> simp [← hwh]

theorem Semaphore.Kept.release (h : sem.Kept size stopped) (hheld : held∈sem.slots) :
    (sem.release held).Kept size stopped := by
  have hsiz := h.slots
  have hlen := length_erase_of_mem hheld
  have hpos := length_pos_of_mem hheld
  have hful := h.full
  have hord := h.order
  have hwh := h.whole
  have hcut := h.cut
  unfold Semaphore.release
  cases hwt : sem.waiters with
  | nil =>
    rw [hwt] at hord hwh hcut
    exact ⟨by dsimp only; omega,fun h => absurd rfl h,hord,hwh,hcut⟩
  | cons job rest =>
    rw [hwt] at hful hord hwh hcut
    refine ⟨?_,fun _ => hful (cons_ne_nil _ _),?_,fun hs => ?_,fun hs => (by cases hcut hs)⟩
    · simp only [length_cons]
      omega
    · simpa using hord
    · simpa using hwh hs

theorem Semaphore.Kept.move (h : sem.Kept size stopped) {job : Job} {now : Phase} (next : Phase)
    (hheld : (job,now)∈sem.slots) : (sem.move job now next).Kept size stopped := by
  have hlen := length_erase_of_mem hheld
  have hpos := length_pos_of_mem hheld
  refine ⟨?_,h.full,h.order,h.whole,h.cut⟩
  simp only [Semaphore.move,length_cons]
  rw [← h.slots]
  omega

/-- Passes with a slot of either lane. -/
def count (p : Job×Phase → Bool) (s : Admission) : ℕ :=
  (s.sem .general).slots.countP p+(s.sem .critical).slots.countP p

theorem count_setSem (lane : Lane) (sem : Semaphore) :
    count p (setSem s lane sem)+(s.sem lane).slots.countP p=count p s+sem.slots.countP p := by
  cases lane <;> simp [count,setSem] <;> omega

theorem countP_erase_add (hheld : held∈sem.slots) :
    sem.slots.countP p=(sem.slots.erase held).countP p+(p held).toNat := by
  rw [(perm_cons_erase hheld).countP_eq p,countP_cons]
  cases p held <;> rfl

theorem count_acquire {job : Job} (hp : ∀ job, p (job,.granted)=false) :
    count p (setSem s job.lane ((s.sem job.lane).acquire job).2)=count p s := by
  have hset := count_setSem (p := p) (s := s) job.lane ((s.sem job.lane).acquire job).2
  have hacq : ((s.sem job.lane).acquire job).2.slots.countP p=(s.sem job.lane).slots.countP p := by
    unfold Semaphore.acquire
    split
    · simp [hp]
    · rfl
  omega

/-- A slot given back leaves the count of its phase. -/
theorem count_release (hheld : held∈(s.sem lane).slots) (hp : ∀ job, p (job,.granted)=false) :
    count p (setSem s lane ((s.sem lane).release held))+(p held).toNat=count p s := by
  have hset := count_setSem (p := p) (s := s) lane ((s.sem lane).release held)
  have hrel : ((s.sem lane).release held).slots.countP p=((s.sem lane).slots.erase held).countP p := by
    unfold Semaphore.release
    cases (s.sem lane).waiters with
    | nil => rfl
    | cons => simp [hp]
  have hera := countP_erase_add (p := p) hheld
  omega

theorem count_move {job : Job} {now : Phase} (hheld : (job,now)∈(s.sem lane).slots) (next : Phase) :
    count p (setSem s lane ((s.sem lane).move job now next))+(p (job,now)).toNat =
      count p s+(p (job,next)).toNat := by
  have hset := count_setSem (p := p) (s := s) lane ((s.sem lane).move job now next)
  have hera := countP_erase_add (p := p) hheld
  have hmov : ((s.sem lane).move job now next).slots.countP p =
      ((s.sem lane).slots.erase (job,now)).countP p+(p (job,next)).toNat := by
    rw [Semaphore.move,countP_cons]
    cases p (job,next) <;> rfl
  omega

def isActive (slot : Job×Phase) : Bool := decide (slot.2≠.granted)

def isLate (slot : Job×Phase) : Bool := decide (slot.2=.running true)

/-- Every lane is kept and the gauges count the passes. -/
structure Kept (size : Lane → ℕ) (s : Admission) : Prop where
  lanes : ∀ lane, (s.sem lane).Kept (size lane) s.stopped
  active : s.active=count isActive s
  overdue : s.overdue=count isLate s

theorem Kept.onLane {size : Lane → ℕ} (h : Kept size s) {sem : Semaphore}
    (hsem : sem.Kept (size lane) s.stopped) (other : Lane) :
    ((setSem s lane sem).sem other).Kept (size other) s.stopped := by
  unfold setSem
  by_cases heq : other=lane
  · subst heq
    simpa using hsem
  · simpa [heq] using h.lanes other

/-- One step keeps the lanes and the gauges. -/
theorem Kept.step {size : Lane → ℕ} (h : Kept size s) (a : Action) : Kept size (step s a).2 := by
  have hpa : ∀ job, isActive (job,.granted)=false := fun _ => rfl
  have hpl : ∀ job, isLate (job,.granted)=false := fun _ => rfl
  cases a with
  | run label =>
    simp only [JobAdmission.step]
    split
    · exact h
    next hst =>
    rw [Bool.not_eq_true] at hst
    have hacq := (hst ▸ h.lanes (Job.lane ⟨s.next,label⟩)).acquire ⟨s.next,label⟩
    exact ⟨h.onLane (hst ▸ hacq),h.active.trans (count_acquire hpa).symm,
      h.overdue.trans (count_acquire hpl).symm⟩
  | resume job =>
    simp only [JobAdmission.step]
    split
    · exact h
    next hheld =>
    rw [not_not] at hheld
    split
    · have hcta : _+0=_ := count_release hheld hpa
      have hctl : _+0=_ := count_release hheld hpl
      exact ⟨h.onLane ((h.lanes _).release hheld),h.active.trans hcta.symm,
        h.overdue.trans hctl.symm⟩
    · have hcta : _+0=_+1 := count_move (p := isActive) hheld (.running false)
      have hctl : _+0=_+0 := count_move (p := isLate) hheld (.running false)
      exact ⟨h.onLane ((h.lanes _).move _ hheld),(congrArg Nat.succ h.active).trans hcta.symm,
        h.overdue.trans hctl.symm⟩
  | deadline job =>
    simp only [JobAdmission.step]
    split
    · exact h
    next hheld =>
    rw [not_not] at hheld
    have hcta : _+1=_+1 := count_move (p := isActive) hheld (.running true)
    have hctl : _+0=_+1 := count_move (p := isLate) hheld (.running true)
    exact ⟨h.onLane ((h.lanes _).move _ hheld),h.active.trans (Nat.succ.inj hcta).symm,
      (congrArg Nat.succ h.overdue).trans hctl.symm⟩
  | settle job late =>
    simp only [JobAdmission.step]
    split
    · exact h
    next hheld =>
    rw [not_not] at hheld
    have hcta : _+1=_ := count_release hheld hpa
    have hctl := count_release hheld hpl
    refine ⟨h.onLane ((h.lanes _).release hheld),?_,?_⟩
    · exact Nat.sub_eq_of_eq_add (h.active.trans hcta.symm)
    · rw [← h.overdue] at hctl
      cases late with
      | true => exact Nat.sub_eq_of_eq_add hctl.symm
      | false => exact hctl.symm
  | stop =>
    refine ⟨fun lane => ?_,h.active,h.overdue⟩
    obtain ⟨hsl,-,hord,-,-⟩ := h.lanes lane
    refine ⟨hsl,fun h => absurd rfl h,?_,nofun,fun _ => rfl⟩
    change _++[] <+: _
    rw [append_nil]
    exact (prefix_append _ _).trans hord

/-- A pass that has to wait finds no free slot in its lane. -/
theorem step_queued {a : Action} {job : Job} (h : (step s a).1=.queued job) :
    (s.sem job.lane).free=0 := by
  cases a with
  | run label =>
    simp only [step,Semaphore.acquire] at h
    split_ifs at h with hst hfre
    cases h
    exact Nat.eq_zero_of_not_pos hfre
  | resume | deadline | settle => simp only [step] at h; split_ifs at h
  | stop => cases h

/-- A stop is final, and no pass gets a slot or starts after it. -/
theorem step_stopped (hst : s.stopped=true) (a : Action) : (step s a).2.stopped=true ∧
    (step s a).1≠.granted∧(step s a).1≠.started := by
  cases a with
  | run => simp [step,hst]
  | resume => simp only [step,hst,if_true]; split_ifs <;> exact ⟨hst,by simp,by simp⟩
  | deadline | settle => simp only [step]; split_ifs <;> exact ⟨hst,by simp,by simp⟩
  | stop => exact ⟨rfl,by simp [step],by simp [step]⟩

/-- Slots of a lane. -/
def sizeOf (concurrency : ℤ) (criticalConcurrency : Option ℤ) (lane : Lane) : ℕ :=
  ((createAdmission concurrency criticalConcurrency).sem lane).free

/-- In every run the passes with a slot and the free slots of a lane make up
its size and the gauges count them; waiting passes of a lane get their slots
in the order they came, all of them until a stop; a pass waits only while
passes of its own lane hold every slot of it; and no pass starts after a stop. -/
theorem admission_kept {concurrency : ℤ} {critical : Option ℤ}
    {h : List (Event Admission Action Answer)}
    (hrun : Run step (fun _ _ _ => True) (createAdmission concurrency critical) h s) :
    Kept (sizeOf concurrency critical) s∧∀ h₁ e h₂, h=h₁++e::h₂ →
      (∀ job, e.result=.queued job →
        (e.before.sem job.lane).slots.length=sizeOf concurrency critical job.lane) ∧
      ((∃ d∈h₁, d.action=.stop) → e.result≠.granted∧e.result≠.started) := by
  have hkee : ∀ {h s}, Run step (fun _ _ _ => True) (createAdmission concurrency critical) h s →
      Kept (sizeOf concurrency critical) s∧((∃ d∈h, d.action=.stop)→s.stopped=true) := by
    intro h s hrun
    refine Run.invariant (P := fun h s => Kept (sizeOf concurrency critical) s ∧
      ((∃ d∈h, d.action=.stop)→s.stopped=true)) hrun ⟨⟨?_,rfl,rfl⟩,by simp⟩
      fun h s a ⟨hkp,hst⟩ _ => ⟨hkp.step a,?_⟩
    · rintro (_|_) <;>
        exact ⟨rfl,fun h => absurd rfl h, nil_prefix,fun _ => rfl,fun _ => rfl⟩
    rintro ⟨d,hd,hact⟩
    rcases mem_concat_iff.mp hd with hold|rfl
    · exact (step_stopped (hst ⟨d,hold,hact⟩) a).1
    · cases hact
      rfl
  refine ⟨(hkee hrun).1,?_⟩
  rintro h₁ e h₂ rfl
  obtain ⟨hpa,-,heve⟩ := Run.split hrun
  obtain ⟨hkp,hst⟩ := hkee hpa
  rw [heve]
  refine ⟨fun job hque => ?_,fun hsto => (step_stopped (hst hsto) e.action).2⟩
  have hsiz := (hkp.lanes job.lane).slots
  rwa [step_queued hque,Nat.zero_add] at hsiz

def feedsRun : List Action :=
  [.run "auto-deliver",.run "feeds",.resume ⟨0,"auto-deliver"⟩,.settle ⟨0,"auto-deliver"⟩ false]

/-- A pass that waited for the only slot of its lane gets it at last. -/
theorem admission_kept_feeds :
    Kept (sizeOf 1 none) (play step [] (createAdmission 1 none) feedsRun).2 ∧
      ((play step [] (createAdmission 1 none) feedsRun).2.sem .general).served=[⟨1,"feeds"⟩] :=
  ⟨(admission_kept (Run.nil.play feedsRun ⟨trivial,trivial,trivial,trivial,trivial⟩)).1,by decide⟩

end SellRight.JobAdmission
