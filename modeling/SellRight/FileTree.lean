import Mathlib.Data.List.Infix
import SellRight.FallibleSteps

/-!
# A file system as a finite tree

Directories, regular files, special files and symbolic links. A path is walked
name by name and the target of a link is walked from where the link stands, so a
real path holds no link and is its own.
-/

namespace SellRight.FileTree

open List FallibleSteps

abbrev Name := List Char

/-- A path from the root, name by name. -/
abbrev Path := List Name

/-- The text of a path. -/
def text (p : Path) : List Char := '/'::['/'].intercalate p

/-- A regular file, a special one, a link with its target's text, or a directory with its
names in the order they are read. -/
inductive Node where
  | file (bytes : List UInt8)
  | special (opens : Bool)
  | link (target : List Char)
  | dir (names : List Name)
  deriving DecidableEq

def Node.names : Node → List Name
  | .dir names => names
  | _ => []

inductive Errno where
  | enoent
  | enotdir
  | eloop
  | enxio
  deriving DecidableEq

def Errno.code : Errno → String
  | .enoent => "ENOENT"
  | .enotdir => "ENOTDIR"
  | .eloop => "ELOOP"
  | .enxio => "ENXIO"

/-- A name that a directory can hold. -/
def Plain (name : Name) : Prop := name≠[]∧name≠['.']∧name≠['.','.']∧ '/'∉name

instance (name : Name) : Decidable (Plain name) := inferInstanceAs (Decidable (_∧_))

/-- A finite tree, with the number of links a link may lead through. -/
structure FileSystem where
  nodes : List (Path×Node)
  links : ℕ
  root : ∃ names, nodes.lookup []=some (.dir names)
  children : ∀ e∈nodes, ∀ name∈e.2.names, Plain name∧(nodes.lookup (e.1++[name])).isSome
  parents : ∀ e∈nodes, e.1≠[] → ∃ name∈((nodes.lookup e.1.dropLast).elim [] Node.names),
    e.1.dropLast++[name]=e.1

namespace FileSystem

variable (fs : FileSystem)

def node (p : Path) : Option Node := fs.nodes.lookup p

/-- The names in a directory. -/
def entries (d : Path) : Except Errno (List Name) :=
  match fs.node d with
  | some (.dir names) => .ok names
  | some _ => .error .enotdir
  | none => .error .enoent

/-- What a directory holds under a name. -/
def child (d : Path) (name : Name) : Except Errno Node := do
  let _ ← fs.entries d
  (fs.node (d++[name])).elim (.error .enoent) .ok

/-- One name of a walk, with what a link leads to. -/
def enter (jump : Path → List Char → Except Errno Path) (d : Path) (name : Name) :
    Except Errno Path := do
  let _ ← fs.entries d
  if name=[]∨name=['.'] then .ok d
  else if name=['.','.'] then .ok d.dropLast
  else match ← fs.child d name with
    | .link target => jump d target
    | _ => .ok (d++[name])

/-- Where a link in a directory leads, through so many links behind it. -/
def follow : ℕ → Path → List Char → Except Errno Path
  | 0, _, _ => .error .eloop
  | links+1, d, target =>
    (target.splitOn '/').foldlM (fs.enter (follow links)) (if target.head?=some '/' then [] else d)

/-- A walk from a directory. -/
def resolve (d : Path) (names : List Name) : Except Errno Path :=
  names.foldlM (fs.enter (fs.follow fs.links)) d

def realpath (p : Path) : Except Errno Path := fs.resolve [] p

/-- What a path names, a link not followed. -/
def lstat (p : Path) : Except Errno Node :=
  match p.getLast? with
  | none => (fs.node []).elim (.error .enoent) .ok
  | some name => do fs.child (← fs.realpath p.dropLast) name

def readdir (p : Path) : Except Errno (List Name) := do fs.entries (← fs.realpath p)

/-- Opens a path for reading, a link not followed: the bytes of a regular file. -/
def openNoFollow (p : Path) : Except Errno (Option (List UInt8)) := do
  match ← fs.lstat p with
  | .file bytes => .ok (some bytes)
  | .special false => .error .enxio
  | .link _ => .error .eloop
  | _ => .ok none

/-- A path of the tree that is no link. -/
def Real (p : Path) : Prop := ∃ node, fs.node p=some node∧∀ target, node≠.link target

/-- No walk is deeper than this, and no more directories are seen. -/
def size : ℕ := fs.nodes.length+(fs.nodes.map (·.1.length)).sum

def paths : Finset Path := (fs.nodes.map Prod.fst).toFinset

variable {fs} {links : ℕ} {d p q : Path} {name : Name} {names rest : List Name} {n : Node}

theorem mem_nodes (h : fs.node p=some n) : (p,n)∈fs.nodes := by
  obtain ⟨l₁,l₂,heq,-⟩ := lookup_eq_some_iff.mp h
  simp [heq]

theorem mem_paths (h : fs.node p=some n) : p∈fs.paths :=
  mem_toFinset.mpr (mem_map_of_mem (mem_nodes h))

theorem card_paths : fs.paths.card≤fs.size :=
  ((toFinset_card_le _).trans_eq (length_map _)).trans (Nat.le_add_right _ _)

theorem length_le_size (h : fs.node p=some n) : p.length≤fs.size :=
  (single_le_sum (fun _ _ => Nat.zero_le _) _
    (mem_map_of_mem (f := fun e => e.1.length) (mem_nodes h))).trans (Nat.le_add_left _ _)

theorem entries_eq_ok : fs.entries d=.ok names ↔ fs.node d=some (.dir names) := by
  unfold entries
  split <;> simp_all

theorem real_dir (h : fs.node d=some (.dir names)) : fs.Real d :=
  ⟨_,h,fun _ heq => by cases heq⟩

/-- What is in the tree is in a directory, under a plain name. -/
theorem node_parent (h : fs.node (d++[name])=some n) :
    Plain name∧∃ names, fs.node d=some (.dir names)∧name∈names := by
  obtain ⟨other,hin,heq⟩ := fs.parents _ (mem_nodes h) (by simp)
  rw [dropLast_concat] at hin heq
  obtain rfl := (append_singleton_inj.mp heq).2
  cases hd : fs.nodes.lookup d with
  | none => simp [hd] at hin
  | some held =>
    rw [hd] at hin
    refine ⟨(fs.children _ (mem_nodes hd) _ hin).1,?_⟩
    cases held with
    | dir names => exact ⟨names,hd,hin⟩
    | file | special | link => cases hin

theorem plain_of_node (h : fs.node p=some n) : ∀ name∈p, Plain name := by
  induction p using reverseRecOn generalizing n with
  | nil => simp
  | append_singleton d name ih =>
    obtain ⟨hname,names,hd,-⟩ := node_parent h
    simp only [mem_append,mem_singleton]
    rintro other (hot|rfl)
    · exact ih hd other hot
    · exact hname

theorem child_eq_ok : fs.child d name=.ok n ↔ fs.node (d++[name])=some n := by
  unfold child
  constructor
  · intro h
    obtain ⟨_,-,h⟩ := bind_eq_ok.mp h
    cases hn : fs.node (d++[name]) <;> simp_all
  · intro h
    obtain ⟨-,names,hd,-⟩ := node_parent h
    exact bind_eq_ok.mpr ⟨names,entries_eq_ok.mpr hd,by rw [h]; rfl⟩

/-- A walk of two parts. -/
theorem resolve_append : fs.resolve d (names++rest)=.ok q ↔
    ∃ p, fs.resolve d names=.ok p∧fs.resolve p rest=.ok q := by
  rw [resolve,foldlM_append,bind_eq_ok]
  rfl

/-- A path without links below a directory is its own walk. -/
theorem resolve_real (h : fs.Real (d++names)) : fs.resolve d names=.ok (d++names) := by
  induction names using reverseRecOn with
  | nil => simp [resolve,pure,Except.pure]
  | append_singleton names name ih =>
    obtain ⟨n,hn,hlink⟩ := h
    rw [← append_assoc] at hn ⊢
    obtain ⟨⟨hne,hdot,hup,-⟩,held,hd,-⟩ := node_parent hn
    refine resolve_append.mpr ⟨_,ih (real_dir hd),?_⟩
    have hent : fs.enter (fs.follow fs.links) (d++names) name=.ok (d++names++[name]) := by
      refine bind_eq_ok.mpr ⟨held,entries_eq_ok.mpr hd,?_⟩
      rw [if_neg (by simp [hne,hdot]),if_neg hup]
      refine bind_eq_ok.mpr ⟨n,child_eq_ok.mpr hn,?_⟩
      cases n with
      | link target => exact absurd rfl (hlink target)
      | file | special | dir => rfl
    rw [resolve,foldlM_cons,hent]
    rfl

theorem enter_real {jump : Path → List Char → Except Errno Path}
    (hjump : ∀ d target p, fs.Real d → jump d target=.ok p → fs.Real p) (hd : fs.Real d)
    (h : fs.enter jump d name=.ok p) : fs.Real p := by
  obtain ⟨held,-,h⟩ := bind_eq_ok.mp h
  split_ifs at h
  · cases h
    exact hd
  · cases h
    rcases eq_nil_or_concat' d with rfl|⟨above,last,rfl⟩
    · exact hd
    · obtain ⟨_,hn,-⟩ := hd
      obtain ⟨-,names,habove,-⟩ := node_parent hn
      rw [dropLast_concat]
      exact real_dir habove
  · obtain ⟨n,hn,h⟩ := bind_eq_ok.mp h
    cases n with
    | link target => exact hjump d target p hd h
    | file | special | dir =>
      cases h
      exact ⟨_,child_eq_ok.mp hn,fun _ heq => by cases heq⟩

theorem follow_real : ∀ d target p, fs.Real d → fs.follow links d target=.ok p → fs.Real p := by
  induction links with
  | zero => intro _ _ _ _ h; cases h
  | succ links ih =>
    intro d target p hd h
    refine foldlM_invariant (P := fun _ => fs.Real) ?_ (fun _ _ _ _ _ _ hst => enter_real ih hst) h
    obtain ⟨names,hroot⟩ := fs.root
    split_ifs
    · exact real_dir hroot
    · exact hd

/-- A walk from a real path ends at one. -/
theorem resolve_ends_real (hd : fs.Real d) (h : fs.resolve d names=.ok p) : fs.Real p :=
  foldlM_invariant (P := fun _ => fs.Real) hd
    (fun _ _ _ _ _ _ hst => enter_real follow_real hst) h

theorem realpath_real (h : fs.realpath p=.ok q) : fs.Real q :=
  resolve_ends_real (real_dir fs.root.choose_spec) h

/-- Below the real path of a directory, `lstat` reads the tree. -/
theorem lstat_below (hd : fs.realpath d=.ok p) (hne : names≠[])
    (h : fs.node (p++names)=some n) : fs.lstat (d++names)=.ok n := by
  obtain ⟨above,name,rfl⟩ := (eq_nil_or_concat' names).resolve_left hne
  rw [← append_assoc] at h ⊢
  obtain ⟨-,held,habove,-⟩ := node_parent h
  rw [lstat,getLast?_concat,dropLast_concat]
  exact bind_eq_ok.mpr ⟨_,resolve_append.mpr ⟨p,hd,resolve_real (real_dir habove)⟩,
    child_eq_ok.mpr h⟩

theorem lstat_real (h : fs.node p=some n) : fs.lstat p=.ok n := by
  by_cases hp : p=[]
  · subst hp
    simp [lstat,h]
  · exact lstat_below (d := []) rfl hp h

theorem lstat_snoc (hd : fs.realpath d=.ok p) (h : fs.lstat (d++[name])=.ok n) :
    fs.node (p++[name])=some n := by
  rw [lstat,getLast?_concat,dropLast_concat] at h
  obtain ⟨q,hq,h⟩ := bind_eq_ok.mp h
  cases hd.symm.trans hq
  exact child_eq_ok.mp h

theorem openNoFollow_eq_ok {bytes : List UInt8} (h : fs.openNoFollow p=.ok (some bytes)) :
    fs.lstat p=.ok (.file bytes) := by
  obtain ⟨n,hn,h⟩ := bind_eq_ok.mp h
  split at h <;> cases h
  exact hn

theorem readdir_real (hp : fs.Real p) : fs.readdir p=.ok names ↔ fs.node p=some (.dir names) := by
  rw [readdir,bind_eq_ok,← entries_eq_ok]
  simp [realpath,resolve_real (d := []) hp]

end FileSystem

/-- Splitting takes a joined path apart. -/
theorem split_join (hp : ∀ name∈p, Plain name) (hne : p≠[]) :
    (['/'].intercalate p).splitOn '/'=p :=
  splitOn_intercalate '/' (fun name hname => (hp name hname).2.2.2) hne

theorem split_text (hp : ∀ name∈p, Plain name) (hne : p≠[]) : (text p).splitOn '/'=[]::p := by
  have h : (text p).splitOn '/'=_ := splitOn_append_cons_self [] (['/'].intercalate p)
  rw [split_join hp hne] at h
  exact h

end SellRight.FileTree
