import SellRight.RunHistory

/-!
# Publication of the catalogue

A committed change of the catalogue triggers a publication and, when contents
changed, a purge of the storefront. A marker row records that a publication is
owed. Triggers of one process that meet a running publication are joined into
one more run; a drain pass repeats what a process left behind. The leader lock
is a lease: it lapses under a holder that stops renewing it, who works on.
-/

namespace SellRight.ManifestPublication

open RunHistory

/-- Products a publication reads. -/
inductive Scope where
  | full
  | named (products : List String)
  deriving DecidableEq

/-- The scope reads a product. -/
def Scope.covers : Scope → String → Prop
  | .full, _ => True
  | .named products, p => p∈products

instance (scope : Scope) (p : String) : Decidable (scope.covers p) :=
  match scope with
  | .full => inferInstanceAs (Decidable True)
  | .named products => inferInstanceAs (Decidable (p∈products))

/-- Scope of two triggers. -/
def mergeScope : Option Scope → Scope → Scope
  | none, b => b
  | some (.named a),.named b => .named (a++b)
  | some _, _ => .full

/-- How far a trigger got. -/
inductive TriggerPhase where
  | unmarked
  /-- A marker was there; it is rewritten next. -/
  | conflict
  | marked (token : ℤ)

/-- Trigger of a publication. -/
structure Trigger where
  process : ℕ
  scope : Scope
  /-- Contents changed, so the storefront is purged. -/
  purge : Bool
  /-- Products the change touched, none on a joined rerun. -/
  changed : List String
  /-- Versions of the products when the change committed. -/
  committed : String → ℕ
  phase : TriggerPhase

/-- How far a publication got. -/
inductive RunPhase where
  | waiting
  | locked
  /-- A generation was built from a read of the catalogue. -/
  | built (seen : String → ℕ) (whole : Bool)
  /-- The generation is the current one and the storefront is purged next. -/
  | published (whole : Bool)
  | acking

/-- Publication under way. -/
structure Publication where
  process : ℕ
  token : Option ℤ
  scope : Scope
  (purge looped : Bool)
  phase : RunPhase

/-- Loop of a process. -/
structure Loop where
  /-- A publication of the loop is under way. -/
  generating : Bool
  trailing : Option Scope
  trailingPurge : Bool

/-- Loop that does nothing. -/
def idleLoop : Loop := ⟨false,none,false⟩

/-- One store with its processes. Products carry the number of their changes. -/
structure Site where
  catalog : String → ℕ
  /-- Versions the current generation shows. -/
  generation : String → ℕ
  /-- Latest versions the storefront was purged at. -/
  purged : String → ℕ
  /-- Token of the marker row. -/
  marker : Option ℤ
  /-- Publication in whose name the lease stands. -/
  lock : Option ℕ
  triggers : ℕ → Option Trigger
  runs : ℕ → Option Publication
  /-- Loop of each process. -/
  loops : ℕ → Loop
  /-- Versions whose trigger wrote the marker. -/
  marked : String → ℕ
  /-- Versions of contents whose trigger wrote the marker. -/
  contentMarked : String → ℕ
  /-- Latest token written. -/
  newest : ℤ

/-- Raise the versions of the changed products. -/
def raise (versions : String → ℕ) (changed : List String) (committed : String → ℕ) : String → ℕ :=
  fun p => if p∈changed then max (versions p) (committed p) else versions p

section
variable (s : Site)

/-- A change commits and its trigger starts. -/
def change (id process : ℕ) (products : List String) (scope : Scope) (content : Bool) : Site :=
  let catalog : String → ℕ := fun p => if p∈products then s.catalog p+1 else s.catalog p
  {s with
    catalog := catalog
    triggers := Function.update s.triggers id
      (some ⟨process,scope,content,products,catalog,.unmarked⟩)}

/-- Rewrite a trigger. -/
def setTrigger (id : ℕ) (t : Trigger) : Site :=
  {s with triggers := Function.update s.triggers id (some t)}

/-- Record that the trigger wrote the marker with a token. -/
def mark (id : ℕ) (t : Trigger) (token : ℤ) (scope : Scope) : Site := {s with
    marker := some token
    newest := token
    triggers := Function.update s.triggers id
      (some {t with
        scope := scope
        phase := .marked token})
    marked := raise s.marked t.changed t.committed
    contentMarked := if t.purge then raise s.contentMarked t.changed t.committed
      else s.contentMarked}

/-- First statement of a mark: the row is inserted where there is none. -/
def insertMark (id : ℕ) (clock : ℤ) : Site :=
  match s.triggers id with
  | some t =>
    match t.phase with
    | .unmarked =>
      if s.marker=none then mark s id t clock t.scope
      else setTrigger s id {t with phase := .conflict}
    | _ => s
  | none => s

/-- Second statement of a mark: the row is written with a later token, and the
whole catalogue is published. -/
def upsertMark (id : ℕ) (clock : ℤ) : Site :=
  match s.triggers id with
  | some t =>
    match t.phase with
    | .conflict =>
      mark s id t (match s.marker with
        | none => clock
        | some token => max clock (token+1)) .full
    | _ => s
  | none => s

/-- A marked trigger joins the running publication of its process, or starts
one. -/
def join (id run : ℕ) : Site :=
  match s.triggers id with
  | some t =>
    match t.phase with
    | .marked token =>
      let rest := Function.update s.triggers id none
      let loop := s.loops t.process
      if loop.generating then
        {s with
          triggers := rest
          loops := Function.update s.loops t.process
            ⟨true,some (mergeScope loop.trailing t.scope),loop.trailingPurge||t.purge⟩}
      else
        {s with
          triggers := rest
          runs := Function.update s.runs run
            (some ⟨t.process,some token,t.scope,t.purge,true,.waiting⟩)
          loops := Function.update s.loops t.process ⟨true,none,false⟩}
    | _ => s
  | none => s

/-- Start a publication of the whole catalogue outside of the loop. -/
def startRun (run process : ℕ) (token : Option ℤ) : Site := {s with
    runs := Function.update s.runs run (some ⟨process,token,.full,true,false,.waiting⟩)}

/-- A drain pass finds the marker and publishes the whole catalogue. -/
def drain (run process : ℕ) : Site :=
  match s.marker with
  | some token => startRun s run process (some token)
  | none => s

/-- A process publishes the whole catalogue when it starts. -/
def startup (run process : ℕ) : Site := startRun s run process none

section
variable (id : ℕ)

/-- Move a publication to another phase. -/
def setPhase (r : Publication) (phase : RunPhase) : Site :=
  {s with runs := Function.update s.runs id (some {r with phase := phase})}

/-- The lock is given back by the publication that holds it. -/
def unlock : Option ℕ := if s.lock=some id then none else s.lock

/-- The lease lapses: another publication may take it, its holder works on. -/
def expire : Site := {s with lock := none}

/-- A publication gets the leader lock. -/
def acquire : Site :=
  match s.runs id with
  | some r =>
    match r.phase with
    | .waiting => if s.lock=none then {setPhase s id r .locked with lock := some id} else s
    | _ => s
  | none => s

/-- A publication reads the catalogue. A scoped one takes the other products
from the current generation, unless it falls back to the whole catalogue. The
transaction that reads commits only under the lease. -/
def readCatalog (fallback : Bool) : Site :=
  match s.runs id with
  | some r =>
    match r.phase with
    | .locked =>
      let whole := fallback||decide (r.scope=.full)
      if s.lock=some id then
        setPhase s id r (.built
          (fun p => if whole=true∨r.scope.covers p then s.catalog p else s.generation p) whole)
      else s
    | _ => s
  | none => s

/-- The built generation becomes the current one, whoever holds the lease by
then. Without a purge the lock is given back at once. -/
def publish : Site :=
  match s.runs id with
  | some r =>
    match r.phase with
    | .built seen whole =>
      if r.purge then
        {setPhase s id r (.published whole) with generation := seen}
      else
        {setPhase s id r .acking with
          generation := seen
          lock := unlock s id}
    | _ => s
  | none => s

/-- The storefront is purged of the published products. A scoped publication
that fell back reads all slugs first, under the lease. -/
def purge : Site :=
  match s.runs id with
  | some r =>
    match r.phase with
    | .published whole =>
      if whole=false∨r.scope=.full∨s.lock=some id then
        {setPhase s id r .acking with
          purged := fun p => if whole=true∨r.scope.covers p then max (s.purged p) (s.generation p)
            else s.purged p
          lock := unlock s id}
      else s
    | _ => s
  | none => s

/-- A publication ends. The loop of its process reruns what arrived meanwhile,
as a new trigger. -/
def finish (r : Publication) (rerun : ℕ) : Site :=
  let ended := {s with
    runs := Function.update s.runs id none
    lock := unlock s id}
  if r.looped then
    let loop := s.loops r.process
    let stopped := {ended with loops := Function.update s.loops r.process idleLoop}
    match loop.trailing with
    | none => stopped
    | some scope =>
      {stopped with
        triggers := Function.update s.triggers rerun
          (some ⟨r.process,scope,loop.trailingPurge,[],fun _ => 0,.unmarked⟩)}
  else ended

end

/-- A publication is given up: the lock is taken, reading, publishing, purging
or acknowledging fails, or the process stops admitting work. -/
def giveUp (id rerun : ℕ) : Site :=
  match s.runs id with
  | some r => finish s id r rerun
  | none => s

/-- A publication that succeeded acknowledges its token. -/
def acknowledge (id rerun : ℕ) : Site :=
  match s.runs id with
  | some r =>
    match r.phase with
    | .acking => finish {s with marker := if r.token=s.marker then none else s.marker} id r rerun
    | _ => s
  | none => s

/-- A process dies with its triggers, its publications and its loop. A lease it
holds stands until it lapses. -/
def crash (process : ℕ) : Site := {s with
    triggers := fun id => (s.triggers id).filter fun t => decide (t.process≠process)
    runs := fun id => (s.runs id).filter fun r => decide (r.process≠process)
    loops := Function.update s.loops process idleLoop}

end

/-- One step of the site. -/
inductive Action where
  | change (id process : ℕ) (products : List String) (scope : Scope) (content : Bool)
  | insertMark (id : ℕ) (clock : ℤ)
  | upsertMark (id : ℕ) (clock : ℤ)
  | join (id run : ℕ)
  | drain (run process : ℕ)
  | startup (run process : ℕ)
  | expire
  | acquire (id : ℕ)
  | read (id : ℕ) (fallback : Bool)
  | publish (id : ℕ)
  | purge (id : ℕ)
  | giveUp (id rerun : ℕ)
  | acknowledge (id rerun : ℕ)
  | crash (process : ℕ)

/-- Execute one step. -/
def step (s : Site) : Action → Unit×Site
  | .change id process products scope content => ((),change s id process products scope content)
  | .insertMark id clock => ((),insertMark s id clock)
  | .upsertMark id clock => ((),upsertMark s id clock)
  | .join id run => ((),join s id run)
  | .drain run process => ((),drain s run process)
  | .startup run process => ((),startup s run process)
  | .expire => ((),expire s)
  | .acquire id => ((),acquire s id)
  | .read id fallback => ((),readCatalog s id fallback)
  | .publish id => ((),publish s id)
  | .purge id => ((),purge s id)
  | .giveUp id rerun => ((),giveUp s id rerun)
  | .acknowledge id rerun => ((),acknowledge s id rerun)
  | .crash process => ((),crash s process)

/-- No publication ran under the identifier, and no lease stands in its name. -/
def Fresh (s : Site) (run : ℕ) : Prop := s.runs run=none∧s.lock≠some run

/-- A scope that names products names all that changed; the clock of the
database moves on; identifiers of new triggers and publications are new. -/
def Admissible (_ : List (Event Site Action Unit)) (s : Site) : Action → Prop
  | .change id _ products scope _ => s.triggers id=none∧∀ p∈products, scope.covers p
  | .insertMark _ clock => s.newest<clock
  | .upsertMark _ clock => s.newest<clock
  | .join _ run => Fresh s run
  | .drain run _ => Fresh s run
  | .startup run _ => Fresh s run
  | .giveUp _ rerun => s.triggers rerun=none
  | .acknowledge _ rerun => s.triggers rerun=none
  | _ => True

end SellRight.ManifestPublication
