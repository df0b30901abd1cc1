import SellRight.RowTable

/-!
# Histories of atomic steps

A system is a total step function returning an answer and a next state. Its
histories retain every executed step with the state before and after it, so a
law about the past of a run is an ordinary predicate on one list. Admission
conditions on the next step may read that whole past. Concurrency is not
modelled here: a caller first argues that its steps are serialised.
-/

namespace SellRight.RunHistory

open List

/-- One executed step, retaining both surrounding states and its answer. -/
structure Event (σ α ρ : Type*) where
  before : σ
  action : α
  result : ρ
  after : σ

variable {σ α ρ : Type*}

/-- Execute one action from a state, keeping everything it observed. -/
def perform (step : σ → α → ρ×σ) (s : σ) (a : α) : Event σ α ρ := ⟨s,a,(step s a).1,(step s a).2⟩

/-- Histories reachable from one start state, oldest event first. The
admission condition reads the whole history and the current state. -/
inductive Run (step : σ → α → ρ×σ) (allow : List (Event σ α ρ) → σ → α → Prop)
    (start : σ) : List (Event σ α ρ) → σ → Prop
  | nil : Run step allow start [] start
  /-- Extend a history by one admitted step. -/
  | snoc {h : List (Event σ α ρ)} {s : σ} (a : α) :
      Run step allow start h s→allow h s a →
      Run step allow start (h++[perform step s a]) (step s a).2

variable {step : σ → α → ρ×σ} {allow : List (Event σ α ρ) → σ → α → Prop} {start : σ}

variable {h h₁ h₂ : List (Event σ α ρ)} {s : σ} {e : Event σ α ρ} {μ : σ → ℕ}

/-- A predicate on history and state that one admitted step preserves holds
along every run. -/
theorem Run.invariant {P : List (Event σ α ρ) → σ → Prop}
    (hrun : Run step allow start h s) (hz : P [] start)
    (hstep : ∀ h s a, P h s→allow h s a → P (h++[perform step s a]) (step s a).2) : P h s := by
  induction hrun with
  | nil => exact hz
  | snoc a _ hall ih => exact hstep _ _ a ih hall

/-- A state predicate preserved by every admitted step holds in every state
a run reaches. -/
theorem Run.state_invariant {P : σ → Prop} (hrun : Run step allow start h s) (hz : P start)
    (hstep : ∀ h s a, P s→allow h s a → P (step s a).2) : P s :=
  Run.invariant (P := fun _ s => P s) hrun hz hstep

/-- The last step of a run was admitted and executed at the end of the rest. -/
theorem Run.last (hrun : Run step allow start (h++[e]) s) :
    Run step allow start h e.before∧allow h e.before e.action ∧
      e=perform step e.before e.action∧s=e.after := by
  generalize hlis : h++[e]=events at hrun
  cases hrun with
  | nil => simp at hlis
  | snoc _ hpv hall =>
    obtain ⟨rfl,heve⟩ := append_inj' hlis rfl
    cases heve
    exact ⟨hpv,hall,rfl,rfl⟩

/-- Every step of a run was admitted and executed at the end of its own past. -/
theorem Run.split (hrun : Run step allow start (h₁++e::h₂) s) :
    Run step allow start h₁ e.before∧allow h₁ e.before e.action ∧
      e=perform step e.before e.action := by
  induction h₂ using List.reverseRecOn generalizing s with
  | nil =>
    obtain ⟨hpa,hall,heve,-⟩ := Run.last hrun
    exact ⟨hpa,hall,heve⟩
  | append_singleton rest last ih =>
    have hlt : Run step allow start ((h₁++e::rest)++[last]) s := by simpa using hrun
    exact ih (Run.last hlt).1

section
variable {P : σ → Prop}

/-- What one step establishes and no admitted step takes back holds around every
later step. -/
theorem Run.afterwards (hrun : Run step allow start (h₁++e::h₂) s) (hz : P e.after)
    (hstep : ∀ h s a, P s→allow h s a→perform step s a∈h₂ → P (step s a).2) :
    P s∧∀ later∈h₂, P later.before∧P later.after := by
  induction h₂ using List.reverseRecOn generalizing s with
  | nil =>
    obtain ⟨-,-,-,hlt⟩ := Run.last hrun
    exact ⟨hlt ▸ hz,fun later hlat => by cases hlat⟩
  | append_singleton rest last ih =>
    have hlt : Run step allow start ((h₁++e::rest)++[last]) s := by simpa using hrun
    obtain ⟨hpa,hall,heve,hend⟩ := Run.last hlt
    obtain ⟨hbef,hrt⟩ := ih hpa fun h s a hs hall hmem =>
      hstep h s a hs hall (mem_append_left _ hmem)
    have haft : P last.after := by
      have hmem : perform step last.before last.action∈rest++[last] := by
        rw [← heve]
        exact mem_concat_self
      rw [heve]
      exact hstep _ _ _ hbef hall hmem
    refine ⟨hend ▸ haft,fun later hlat => ?_⟩
    rcases mem_concat_iff.mp hlat with hold|rfl
    · exact hrt later hold
    · exact ⟨hbef,haft⟩

/-- A measure that no admitted step lowers grows along the whole run. -/
theorem Run.measure_le (hrun : Run step allow start h s) (hz : P start)
    (hstep : ∀ h s a, P s→allow h s a → P (step s a).2∧μ s ≤ μ (step s a).2) :
    ∀ e∈h, μ e.before ≤ μ e.after∧μ e.after ≤ μ s := by
  have hall : P s∧∀ e∈h, μ e.before ≤ μ e.after∧μ e.after ≤ μ s := by
    refine Run.invariant (P := fun h s => P s ∧
      ∀ e∈h, μ e.before ≤ μ e.after∧μ e.after ≤ μ s) hrun ⟨hz,by simp⟩ ?_
    rintro h s a ⟨hinv,hpa⟩ hallow
    obtain ⟨hnx,hle⟩ := hstep h s a hinv hallow
    refine ⟨hnx,fun e he => ?_⟩
    rcases mem_concat_iff.mp he with hold|rfl
    · exact ⟨(hpa e hold).1,(hpa e hold).2.trans hle⟩
    · exact ⟨hle,le_refl _⟩
  exact hall.2

/-- Between two steps of a run the measure does not fall, and it rises when
some step between them raises it. -/
theorem Run.measure_between {h₃ : List (Event σ α ρ)} {e₁ e₂ : Event σ α ρ}
    (hrun : Run step allow start (h₁++e₁::(h₂++e₂::h₃)) s) (hz : P start)
    (hstep : ∀ h s a, P s→allow h s a → P (step s a).2∧μ s ≤ μ (step s a).2) :
    μ e₁.before ≤ μ e₂.before∧((∃ t∈h₂, μ t.before < μ t.after) → μ e₁.before < μ e₂.before) := by
  have hsec : Run step allow start ((h₁++e₁::h₂)++e₂::h₃) s := by simpa using hrun
  have hpa := Run.measure_le (Run.split hsec).1 hz hstep
  have hfst := hpa e₁ (by simp)
  refine ⟨hfst.1.trans hfst.2,?_⟩
  rintro ⟨t,ht,hrai⟩
  obtain ⟨a,b,rfl⟩ := append_of_mem ht
  have hmid : Run step allow start ((h₁++e₁::a)++t::(b++e₂::h₃)) s := by simpa using hrun
  have hbef := Run.measure_le (Run.split hmid).1 hz hstep e₁ (by simp)
  have haft := hpa t (by simp)
  exact ((hbef.1.trans hbef.2).trans_lt hrai).trans_le haft.2

/-- Steps that raise a measure no step lowers are no more than it rose. -/
theorem Run.countP_le {q : Event σ α ρ → Bool} (hrun : Run step allow start h s) (hz : P start)
    (hstep : ∀ h s a, P s→allow h s a → P (step s a).2∧μ s ≤ μ (step s a).2 ∧
      (q (perform step s a)=true → μ s < μ (step s a).2)) : P s∧μ start+h.countP q ≤ μ s := by
  refine Run.invariant (P := fun h s => P s∧μ start+h.countP q ≤ μ s) hrun ⟨hz,by simp⟩ ?_
  rintro h s a ⟨hinv,hct⟩ hall
  obtain ⟨hnx,hle,hrai⟩ := hstep h s a hinv hall
  refine ⟨hnx,?_⟩
  rw [countP_append,countP_singleton]
  split
  · have hlt := hrai ‹_›
    omega
  · omega

end

/-- Some event set a mark and no event since then lifted it. -/
def Since {ε : Type*} (mark lift : ε → Prop) (h : List ε) : Prop :=
  ∃ h₁ m h₂, h=h₁++m::h₂∧mark m∧∀ x∈h₂, ¬ lift x

/-- Nothing is marked in the empty history. -/
theorem not_since_nil {ε : Type*} {mark lift : ε → Prop} : ¬ Since mark lift [] := by
  rintro ⟨h₁,m,h₂,heq,-⟩
  simp at heq

/-- A mark after one more event: the event set it, or it stood and the event
did not lift it. -/
theorem since_append {ε : Type*} {mark lift : ε → Prop} {h : List ε} {e : ε} :
    Since mark lift (h++[e]) ↔ mark e∨(Since mark lift h∧¬ lift e) := by
  constructor
  · rintro ⟨h₁,m,h₂,heq,hmar,hlif⟩
    induction h₂ using List.reverseRecOn with
    | nil =>
      obtain ⟨-,hlt⟩ := append_inj' heq rfl
      cases hlt
      exact .inl hmar
    | append_singleton rest last =>
      have hspl : h++[e]=(h₁++m::rest)++[last] := by simpa using heq
      obtain ⟨hpa,hlt⟩ := append_inj' hspl rfl
      cases hlt
      exact .inr ⟨⟨h₁,m,rest,hpa,hmar,fun x hx => hlif x (by simp [hx])⟩,hlif e (by simp)⟩
  · rintro (hmar|⟨⟨h₁,m,h₂,rfl,hmar,hlif⟩,hlt⟩)
    · exact ⟨h,e,[],rfl,hmar,by simp⟩
    · refine ⟨h₁,m,h₂++[e],by simp,hmar,?_⟩
      intro x hx
      rcases mem_concat_iff.mp hx with hold|rfl
      · exact hlif x hold
      · exact hlt

/-- Weakening the admission condition keeps every run. -/
theorem Run.mono {allow' : List (Event σ α ρ) → σ → α → Prop}
    (hle : ∀ h s a, allow h s a→allow' h s a) (hrun : Run step allow start h s) :
    Run step allow' start h s := by
  induction hrun with
  | nil => exact .nil
  | snoc a _ hall ih => exact .snoc a ih (hle _ _ _ hall)

/-- Events of a literal action list, continuing a given history. -/
def play (step : σ → α → ρ×σ) (h : List (Event σ α ρ)) (s : σ) : List α → List (Event σ α ρ)×σ
  | [] => (h,s)
  | a::tail => play step (h++[perform step s a]) (step s a).2 tail

/-- Every action of a literal list is admitted when its turn comes. -/
def Admitted (step : σ → α → ρ×σ) (allow : List (Event σ α ρ) → σ → α → Prop)
    (h : List (Event σ α ρ)) (s : σ) : List α → Prop
  | [] => True
  | a::tail => allow h s a∧Admitted step allow (h++[perform step s a]) (step s a).2 tail

instance Admitted.decidable [∀ h s a, Decidable (allow h s a)] :
    ∀ actions h s, Decidable (Admitted step allow h s actions)
  | [],_,_ => inferInstanceAs (Decidable True)
  | _::tail,_,_ => @instDecidableAnd _ _ _ (Admitted.decidable tail _ _)

/-- A literal admitted action list is a run. -/
theorem Run.play (hrun : Run step allow start h s)
    (actions : List α) (hall : Admitted step allow h s actions) :
    Run step allow start (play step h s actions).1 (play step h s actions).2 := by
  induction actions generalizing h s with
  | nil => exact hrun
  | cons a _ ih => exact ih (.snoc a hrun hall.1) hall.2

end SellRight.RunHistory
