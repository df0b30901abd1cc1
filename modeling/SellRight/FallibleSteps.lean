import Mathlib.Tactic

/-!
# Steps that may fail

A loop that may throw is a monadic fold in `Except`. A completed computation
splits into completed parts, a completed fold carries an invariant of the
items done so far, and a fold whose state after every prefix is known
completes with the state after all items.
-/

namespace SellRight.FallibleSteps

open List

variable {ε α β σ : Type}

section
variable {first : Except ε α} {next : α → Except ε β}

/-- A completed sequence is two completed parts. -/
theorem bind_eq_ok {result : β} :
    (first >>= next)=.ok result ↔ ∃ value, first=.ok value∧next value=.ok result := by
  cases first with
  | error | ok => simp [bind,Except.bind]

/-- A failed sequence failed in one of its parts. -/
theorem bind_eq_error {error : ε} :
    (first >>= next)=.error error ↔
      first=.error error∨∃ value, first=.ok value∧next value=.error error := by
  cases first with
  | error | ok => simp [bind,Except.bind]

end

variable {step : σ → α → Except ε σ} {items : List α} {f : α → Except ε β} {results : List β}
variable {start : σ}

/-- A failed fold failed in one of its steps. -/
theorem foldlM_eq_error {error : ε} (hfol : items.foldlM step start=.error error) :
    ∃ state, ∃ item∈items, step state item=.error error := by
  induction items generalizing start with
  | nil => cases hfol
  | cons item _ ih =>
    rcases bind_eq_error.mp hfol with hfst|⟨state,-,hrt⟩
    · exact ⟨start,item,mem_cons_self,hfst⟩
    · obtain ⟨later,other,hot,her⟩ := ih hrt
      exact ⟨later,other,mem_cons_of_mem _ hot,her⟩

/-- A completed traversal completed item by item. -/
theorem mapM_eq_ok :
    items.mapM f=.ok results ↔ List.Forall₂ (fun item result => f item=.ok result) items results := by
  induction items generalizing results with
  | nil =>
    cases results with
    | nil | cons => simp [pure,Except.pure]
  | cons _ _ ih =>
    rw [mapM_cons,bind_eq_ok]
    constructor
    · rintro ⟨result,hres,hrt⟩
      obtain ⟨rest,hite,hdn⟩ := bind_eq_ok.mp hrt
      cases hdn
      exact List.Forall₂.cons hres (ih.mp hite)
    · intro hall
      cases hall with
      | cons hres hrt => exact ⟨_,hres,bind_eq_ok.mpr ⟨_,ih.mpr hrt,rfl⟩⟩

/-- The results of a completed traversal are those of its items. -/
theorem mapM_map_ok (hall : items.mapM f=.ok results) : items.map f=results.map Except.ok := by
  have hpai := mapM_eq_ok.mp hall
  clear hall
  induction hpai with
  | nil => rfl
  | cons hite _ ih => rw [map_cons,map_cons,hite,ih]

/-- Traversals of the same items in another order have the same results in
another order. -/
theorem mapM_perm {others : List α} {rest : List β}
    (hper : items.Perm others) (hfst : items.mapM f=.ok results)
    (hsec : others.mapM f=.ok rest) : results.Perm rest := by
  have hmap := hper.map f
  rw [mapM_map_ok hfst,mapM_map_ok hsec] at hmap
  exact (map_perm_map_iff fun _ _ heq => Except.ok.inj heq).mp hmap

/-- A fold completes when each step takes the state of a prefix to that of
the next one. -/
theorem foldlM_eq_ok (state : List α → σ) (hstep : ∀ done item rest, items=done++item::rest →
      step (state done) item=.ok (state (done++[item]))) :
    items.foldlM step (state [])=.ok (state items) := by
  have hgen : ∀ (rest done : List α), items=done++rest →
      rest.foldlM step (state done)=.ok (state items) := by
    intro rest
    induction rest with
    | nil =>
      intro done hspl
      rw [append_nil] at hspl
      rw [hspl]
      rfl
    | cons item rest ih =>
      intro done hspl
      rw [foldlM_cons,hstep done item rest hspl]
      exact ih (done++[item]) (by simpa using hspl)
  exact hgen items [] (by simp)

/-- Completes with a value that has `P`, or fails with an error that is not bad. -/
def Meets (bad : ε → Prop) (P : α → Prop) (run : Except ε α) : Prop :=
  (∀ value, run=.ok value → P value)∧∀ error, run=.error error→¬ bad error

variable {bad : ε → Prop} {P P' : α → Prop} {Q : β → Prop}

theorem Meets.ok {value : α} (h : P value) : Meets bad P (.ok value) := by
  constructor
  · intro other heq
    cases heq
    exact h
  · intro error heq
    cases heq

theorem Meets.error {error : ε} (h : ¬ bad error) : Meets bad P (.error error) := by
  constructor
  · intro value heq
    cases heq
  · intro other heq
    cases heq
    exact h

variable {run : Except ε α}

theorem Meets.mono (h : Meets bad P run) (hP : ∀ value, P value → P' value) :
    Meets bad P' run :=
  ⟨fun value heq => hP value (h.1 value heq),h.2⟩

/-- A computation returns what it returns. -/
theorem Meets.self (h : Meets bad P run) :
    Meets bad (fun value => P value∧run=.ok value) run :=
  ⟨fun value heq => ⟨h.1 value heq,heq⟩,h.2⟩

/-- A sequence meets what its second part does after the first. -/
theorem Meets.bind {first : Except ε α} {next : α → Except ε β} (h : Meets bad P first)
    (hnx : ∀ value, P value → Meets bad Q (next value)) : Meets bad Q (first >>= next) := by
  cases first with
  | error e => exact .error (h.2 e rfl)
  | ok value => exact hnx value (h.1 value rfl)

theorem Meets.map {g : α → β} (h : Meets bad P run)
    (hg : ∀ value, P value → Q (g value)) : Meets bad Q (run.map g) := by
  cases run with
  | error e => exact .error (h.2 e rfl)
  | ok value => exact .ok (hg value (h.1 value rfl))

/-- A fold carries an invariant of the items done. -/
theorem Meets.foldlM_done {P : List α → σ → Prop} (hsta : P [] start)
    (hstep : ∀ done item rest state, items=done++item::rest → P done state →
      Meets bad (P (done++[item])) (step state item)) :
    Meets bad (P items) (items.foldlM step start) := by
  induction items using reverseRecOn with
  | nil => exact .ok hsta
  | append_singleton done item ih =>
    rw [foldlM_append]
    refine (ih fun before other rest state heq => hstep before other (rest++[item]) state
      (by simp [heq])).bind fun state hst => ?_
    rw [foldlM_cons]
    exact (hstep done item [] state rfl hst).bind fun _ => .ok

/-- A fold keeps what every step keeps. -/
theorem Meets.foldlM {I : σ → Prop} (hsta : I start)
    (hstep : ∀ state, ∀ item∈items, I state → Meets bad I (step state item)) :
    Meets bad I (items.foldlM step start) :=
  .foldlM_done (P := fun _ => I) hsta fun _ item _ state heq => hstep state item (by simp [heq])

/-- A completed fold carries an invariant of the items done. -/
theorem foldlM_invariant {P : List α → σ → Prop} {start final : σ} (hsta : P [] start)
    (hstep : ∀ done item rest state next, items=done++item::rest → P done state →
      step state item=.ok next → P (done++[item]) next)
    (hfol : items.foldlM step start=.ok final) : P items final := by
  have hmee : Meets (fun _ => False) (P items) (items.foldlM step start) :=
    .foldlM_done hsta fun done item rest state heq hst =>
      ⟨fun next => hstep done item rest state next heq hst,fun _ _ => not_false⟩
  exact hmee.1 final hfol

/-- A loop meets for every item what its body does. -/
theorem Meets.forM {body : α → Except ε PUnit} (h : ∀ item∈items, Meets bad (fun _ => P item) (body item)) :
    Meets bad (fun _ => ∀ item∈items, P item) (items.forM body) := by
  induction items with
  | nil => exact .ok fun _ hin => absurd hin not_mem_nil
  | cons item _ ih =>
    refine (h item mem_cons_self).bind fun _ hite => ?_
    exact (ih fun other hot => h other (mem_cons_of_mem _ hot)).mono fun _ hrt =>
      forall_mem_cons.mpr ⟨hite,hrt⟩

/-- A traversal relates items and results as each step does. -/
theorem Meets.mapM {R : α → β → Prop} (h : ∀ item∈items, Meets bad (R item) (f item)) :
    Meets bad (List.Forall₂ R items) (items.mapM f) := by
  induction items with
  | nil => exact .ok List.Forall₂.nil
  | cons item _ ih =>
    rw [mapM_cons]
    refine (h item mem_cons_self).bind fun result hres => ?_
    refine (ih fun other hot => h other (mem_cons_of_mem _ hot)).bind fun rest hrt => ?_
    exact .ok (List.Forall₂.cons hres hrt)

end SellRight.FallibleSteps
