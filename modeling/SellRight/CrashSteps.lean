import Mathlib.Tactic

/-!
# Programs of durable writes

A program changes its state by durable writes and may throw. A kill leaves the
state after some of the writes, so a run lists the state after each of them.
The weakest precondition of a program asks for a crash condition at every
moment of the run, a postcondition where it completes and another where it
throws; it is computed by rewriting along the program.
-/

namespace SellRight.CrashSteps

open List

variable {σ τ ε α β : Type}

/-- Run of a program. -/
structure Execution (σ ε α : Type) where
  /-- States after each durable write, oldest first. -/
  moments : List σ
  final : σ
  result : Except ε α

/-- Program of durable writes over a state. -/
def Program (σ ε α : Type) := σ → Execution σ ε α

namespace Program

/-- Program without writes. -/
protected def pure (a : α) : Program σ ε α := fun s => ⟨[],s,.ok a⟩

/-- One program after the other; an error ends both. -/
protected def bind (first : Program σ ε α) (next : α → Program σ ε β) : Program σ ε β := fun s =>
  match (first s).result with
  | .ok a =>
    ⟨(first s).moments++(next a (first s).final).moments,(next a (first s).final).final,
      (next a (first s).final).result⟩
  | .error e => ⟨(first s).moments,(first s).final,.error e⟩

instance : Monad (Program σ ε) where
  pure := Program.pure
  bind := Program.bind

/-- Read the state. -/
def fetch : Program σ ε σ := fun s => ⟨[],s,.ok s⟩

/-- One durable write. -/
def write (f : σ → σ) : Program σ ε Unit := fun s => ⟨[f s],f s,.ok ()⟩

/-- Throw an error. -/
def fail (e : ε) : Program σ ε α := fun s => ⟨[],s,.error e⟩

/-- Throw an error unless a fact holds. -/
def check (fact : Bool) (e : ε) : Program σ ε Unit := if fact then Program.pure () else fail e

/-- Handle the errors of a program. -/
def handle (body : Program σ ε α) (handler : ε → Program σ ε α) : Program σ ε α := fun s =>
  match (body s).result with
  | .ok a => ⟨(body s).moments,(body s).final,.ok a⟩
  | .error e =>
    ⟨(body s).moments++(handler e (body s).final).moments,(handler e (body s).final).final,
      (handler e (body s).final).result⟩

/-- Durable writes one after another. -/
def writes : List (σ → σ) → Program σ ε Unit
  | [] => Program.pure ()
  | f::rest => Program.bind (write f) fun _ => writes rest

/-- Run a program on one part of the state. -/
def zoom (get : σ → τ) (put : τ → σ → σ) (program : Program τ ε α) : Program σ ε α := fun s =>
  ⟨(program (get s)).moments.map fun part => put part s,put (program (get s)).final s,
    (program (get s)).result⟩

/-- State a run leaves: the final one, or that after some of its writes when
the run is killed. -/
def leaves (program : Program σ ε α) (s : σ) : Option ℕ → σ
  | none => (program s).final
  | some k => ((s::(program s).moments)[k]?).getD (program s).final

end Program

open Program

/-- The crash condition holds at every moment, and the run ends in one of the
postconditions. -/
structure Wp (I : σ → Prop) (program : Program σ ε α) (Q : α → σ → Prop) (E : ε → σ → Prop)
    (s : σ) : Prop where
  moments : ∀ m∈(program s).moments, I m
  /-- A completed run satisfies the postcondition. -/
  ok : ∀ a, (program s).result=.ok a → Q a (program s).final
  /-- A failed run satisfies the other postcondition. -/
  error : ∀ e, (program s).result=.error e → E e (program s).final

/-- A condition holds at every moment of a run and at its end. -/
abbrev Always (I : σ → Prop) (program : Program σ ε α) : σ → Prop :=
  Wp I program (fun _ => I) fun _ => I

section Rules

variable {I : σ → Prop} {Q Q' : α → σ → Prop} {E E' : ε → σ → Prop} {s : σ}

/-- Precondition of a program by the result of its run. -/
theorem wp_of_ok {program : Program σ ε α} {a : α} (hres : (program s).result=.ok a) :
    Wp I program Q E s ↔ (∀ m∈(program s).moments, I m)∧Q a (program s).final := by
  constructor
  · exact fun h => ⟨h.moments,h.ok a hres⟩
  · rintro ⟨hmom,hps⟩
    refine ⟨hmom,fun b hb => ?_,fun e he => ?_⟩
    · cases hres.symm.trans hb
      exact hps
    · cases hres.symm.trans he

theorem wp_of_error {program : Program σ ε α} {e : ε} (hres : (program s).result=.error e) :
    Wp I program Q E s ↔ (∀ m∈(program s).moments, I m)∧E e (program s).final := by
  constructor
  · exact fun h => ⟨h.moments,h.error e hres⟩
  · rintro ⟨hmom,hps⟩
    refine ⟨hmom,fun b hb => ?_,fun e' he => ?_⟩
    · cases hres.symm.trans hb
    · cases hres.symm.trans he
      exact hps

/-- Precondition of a result. -/
@[simp] theorem wp_pure {a : α} : Wp I (Pure.pure a : Program σ ε α) Q E s ↔ Q a s :=
  (wp_of_ok rfl).trans (and_iff_right fun _ hm => absurd hm not_mem_nil)

/-- Precondition of an error. -/
@[simp] theorem wp_fail {e : ε} : Wp I (fail e : Program σ ε α) Q E s ↔ E e s :=
  (wp_of_error rfl).trans (and_iff_right fun _ hm => absurd hm not_mem_nil)

/-- Precondition of a program that goes on as another one. -/
theorem wp_after {program : Program σ ε α} (rest : Program σ ε α) (past : List σ) (mid : σ)
    (hrun : program s=⟨past++(rest mid).moments,(rest mid).final,(rest mid).result⟩) :
    Wp I program Q E s ↔ (∀ m∈past, I m)∧Wp I rest Q E mid := by
  constructor
  · rintro ⟨hmom,hok,her⟩
    rw [hrun] at hmom hok her
    exact ⟨fun m hm => hmom m (mem_append_left _ hm),fun m hm => hmom m (mem_append_right _ hm),
      hok,her⟩
  · rintro ⟨hpa,hmom,hok,her⟩
    constructor <;> rw [hrun]
    · exact fun m hm => (mem_append.mp hm).elim (hpa m) (hmom m)
    · exact hok
    · exact her

/-- Precondition of a sequence. -/
@[simp] theorem wp_bind {first : Program σ ε β} {next : β → Program σ ε α} :
    Wp I (first >>= next) Q E s ↔ Wp I first (fun b s => Wp I (next b) Q E s) E s := by
  change Wp I (.bind first next) Q E s ↔ _
  cases hres : (first s).result with
  | error e =>
    rw [wp_of_error hres,wp_after (fail e) (first s).moments (first s).final
      (by simp [Program.bind,hres,fail]),wp_fail]
  | ok b =>
    rw [wp_of_ok hres,wp_after (next b) (first s).moments (first s).final
      (by simp [Program.bind,hres])]

/-- Precondition of a read. -/
@[simp] theorem wp_fetch {R : σ → σ → Prop} : Wp I (fetch : Program σ ε σ) R E s ↔ R s s :=
  (wp_of_ok rfl).trans (and_iff_right fun _ hm => absurd hm not_mem_nil)

variable {R : Unit → σ → Prop}

/-- Precondition of a durable write. -/
@[simp] theorem wp_write {f : σ → σ} :
    Wp I (write f : Program σ ε Unit) R E s ↔ I (f s)∧R () (f s) :=
  (wp_of_ok rfl).trans (and_congr_left' forall_mem_singleton)

/-- Precondition of a check. -/
@[simp] theorem wp_check {fact : Bool} {e : ε} :
    Wp I (check fact e : Program σ ε Unit) R E s ↔ (fact=true → R () s)∧(fact=false → E e s) := by
  cases fact with
  | true =>
    exact wp_pure.trans ⟨fun h => ⟨fun _ => h,nofun⟩,fun h => h.1 rfl⟩
  | false =>
    exact wp_fail.trans ⟨fun h => ⟨nofun,fun _ => h⟩,fun h => h.2 rfl⟩

/-- A check before the rest of a program. -/
theorem wp_guard {fact : Bool} {e : ε} {next : Unit → Program σ ε α}
    (hpass : fact=true → Wp I (next ()) Q E s) (hfail : E e s) :
    Wp I (check fact e >>= next) Q E s := wp_bind.mpr (wp_check.mpr ⟨hpass,fun _ => hfail⟩)

/-- A read before the rest of a program. -/
theorem wp_read {next : σ → Program σ ε α} (hrest : Wp I (next s) Q E s) :
    Wp I (fetch >>= next) Q E s := wp_bind.mpr (wp_fetch.mpr hrest)

/-- Precondition of a handled program. -/
@[simp] theorem wp_handle {body : Program σ ε α} {hand : ε → Program σ ε α} :
    Wp I (handle body hand) Q E s ↔ Wp I body Q (fun e s => Wp I (hand e) Q E s) s := by
  cases hres : (body s).result with
  | ok a =>
    rw [wp_of_ok hres,wp_after (.pure a) (body s).moments (body s).final
      (by simp [handle,hres,Program.pure])]
    exact and_congr_right fun _ => wp_pure
  | error e => rw [wp_of_error hres,wp_after (hand e) (body s).moments (body s).final
      (by simp [handle,hres])]

/-- Precondition of a program on one part of the state. -/
@[simp] theorem wp_zoom {get : σ → τ} {put : τ → σ → σ} {program : Program τ ε α} :
    Wp I (zoom get put program) Q E s ↔ Wp (fun part => I (put part s)) program
      (fun a part => Q a (put part s)) (fun e part => E e (put part s)) (get s) := by
  constructor
  · rintro ⟨hmom,hok,her⟩
    exact ⟨fun part hpar => hmom _ (mem_map_of_mem hpar),hok,her⟩
  · rintro ⟨hmom,hok,her⟩
    refine ⟨fun m hm => ?_,hok,her⟩
    obtain ⟨part,hpar,rfl⟩ := mem_map.mp hm
    exact hmom part hpar

/-- Conditions that always hold are satisfied by every program. -/
theorem Wp.of_forall {program : Program σ ε α} (hcra : ∀ m, I m) (hok : ∀ a s, Q a s)
    (her : ∀ e s, E e s) : Wp I program Q E s :=
  ⟨fun m _ => hcra m,fun a _ => hok a _,fun e _ => her e _⟩

section
variable {program : Program σ ε α} {J : σ → Prop} (h : Wp I program Q E s)
include h

/-- Weaker conditions are satisfied too. -/
theorem Wp.imp (hcra : ∀ m, I m → J m) (hok : ∀ a s, Q a s → Q' a s) (her : ∀ e s, E e s → E' e s) :
    Wp J program Q' E' s :=
  ⟨fun m hm => hcra m (h.moments m hm),fun a ha => hok a _ (h.ok a ha),
    fun e he => her e _ (h.error e he)⟩

/-- A weaker postcondition is satisfied too. -/
theorem Wp.post (hok : ∀ a s, Q a s → Q' a s) : Wp I program Q' E s :=
  h.imp (fun _ hm => hm) hok fun _ _ he => he

/-- The rest of a program runs from what the first part leaves. -/
theorem Wp.seq {R : β → σ → Prop} {next : α → Program σ ε β}
    (hnx : ∀ a s, Q a s → Wp I (next a) R E s) : Wp I (program >>= next) R E s :=
  wp_bind.mpr (h.post hnx)

/-- Two facts about one run. -/
theorem Wp.and (hot : Wp J program Q' E' s) :
    Wp (fun m => I m∧J m) program (fun a s => Q a s∧Q' a s) (fun e s => E e s∧E' e s) s :=
  ⟨fun m hm => ⟨h.moments m hm,hot.moments m hm⟩,fun a ha => ⟨h.ok a ha,hot.ok a ha⟩,
    fun e he => ⟨h.error e he,hot.error e he⟩⟩

end

/-- A weaker condition is kept where the stronger one is. -/
theorem Always.mono {program : Program σ ε α} {J : σ → Prop} (h : Always I program s)
    (hle : ∀ s, I s → J s) : Always J program s :=
  Wp.imp h hle (fun _ => hle) fun _ => hle

/-- Writes that keep a condition keep it at every moment. -/
theorem wp_writes {J : σ → Prop} {changes : List (σ → σ)}
    (hsta : J s) (hkp : ∀ f∈changes, ∀ s, J s → J (f s)) (hcra : ∀ s, J s → I s)
    (hps : ∀ s, J s → R () s) : Wp I (writes changes : Program σ ε Unit) R E s := by
  induction changes generalizing s with
  | nil => exact wp_pure.mpr (hps s hsta)
  | cons f _ ih =>
    have hnx : J (f s) := hkp f mem_cons_self s hsta
    refine wp_bind.mpr (wp_write.mpr ⟨hcra _ hnx,?_⟩)
    exact ih hnx fun g hg => hkp g (mem_cons_of_mem _ hg)

/-- A run leaves its start, one of its moments or its final state. -/
theorem leaves_cases (program : Program σ ε α) (s : σ) (kill : Option ℕ) :
    leaves program s kill=s∨leaves program s kill∈(program s).moments ∨
      leaves program s kill=(program s).final := by
  cases kill with
  | none => exact .inr (.inr rfl)
  | some k =>
    have hlf : leaves program s (some k) =
        ((s::(program s).moments)[k]?).getD (program s).final := rfl
    rw [hlf]
    cases hfd : (s::(program s).moments)[k]? with
    | none => exact .inr (.inr rfl)
    | some =>
      rcases mem_cons.mp (mem_of_getElem? hfd) with hsta|hin
      · exact .inl hsta
      · exact .inr (.inl hin)

/-- A crash condition that holds at the start and at both ends holds of
whatever a run leaves. -/
theorem Wp.leaves {program : Program σ ε α} (h : Wp I program Q E s) (hsta : I s)
    (hok : ∀ a s, Q a s → I s) (her : ∀ e s, E e s → I s) (kill : Option ℕ) :
    I (program.leaves s kill) := by
  rcases leaves_cases program s kill with heq|hin|hfin
  · rw [heq]
    exact hsta
  · exact h.moments _ hin
  · rw [hfin]
    cases hres : (program s).result with
    | ok a => exact hok a _ (h.ok a hres)
    | error e => exact her e _ (h.error e hres)

end Rules

end SellRight.CrashSteps
