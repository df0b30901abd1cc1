import SellRight.FileTree

/-!
# The closure of a rollback

Three passes over a captured closure: its entries, every file the client directory
reaches through links, and the listed paths. The directories seen are closed under
entering their names, so nothing reachable is left out.
-/

namespace SellRight.RollbackClosure

open List FallibleSteps FileTree FileSystem

/-- How a check ends that does not return null. -/
inductive Ending where
  | describes (problem : String)
  | throws (code : Errno)
  | outOfFuel

def str (x : List Char) : String := String.ofList x

variable {α : Type}

def problem (message : String) : Except Ending α := .error (.describes message)

def sys (call : Except Errno α) : Except Ending α := call.mapError .throws

/-- A thrown code, caught. -/
def caught (message : Errno → String) : Except Ending α → Except Ending α
  | .error (.throws code) => .error (.describes (message code))
  | run => run

def insideDir (root x : List Char) : Bool := decide (x=root)||(root++['/']).isPrefixOf x

/-- `path.relative` of a path inside the root. -/
def relative (root x : Path) : List Char := ['/'].intercalate (x.drop root.length)

section
variable {Digest : Type} [DecidableEq Digest] (fs : FileSystem) (sha : List UInt8 → Digest)
  (recDir clientDir realRec : Path) (listed : List (List Char))

/-- The closure directory resolved, with the client directory in it. -/
def realClosure : Except Ending Path := do
  match ← sys (fs.lstat recDir) with
  | .dir _ =>
    let realRec ← sys (fs.realpath recDir)
    if insideDir (text realRec) (text (← sys (fs.realpath clientDir))) then .ok realRec
    else problem s!"the client directory {str (text clientDir)} resolves outside the closure"
  | _ => problem s!"the closure directory {str (text recDir)} is not a real directory"

/-- The entries under a directory of the closure. -/
def visit : ℕ → Path → List Char → Except Ending Unit
  | 0, _, _ => .error .outOfFuel
  | fuel+1, dirAbs, rel => do
    (← sys (fs.readdir dirAbs)).forM fun name => do
      let abs := dirAbs++[name]
      let r := if rel=[] then name else rel++ '/'::name
      match ← sys (fs.lstat abs) with
      | .link _ =>
        match fs.realpath abs with
        | .error _ => problem s!"closure entry {str r} is a symlink that does not resolve"
        | .ok target =>
          if insideDir (text realRec) (text target) then .ok ()
          else problem s!"closure entry {str r} is a symlink that resolves outside the closure"
      | .dir _ => visit fuel abs r
      | .file _ => .ok ()
      | .special _ => problem s!"closure entry {str r} is a special file"

/-- One entry of a reachable directory. -/
def reachEntry (walk : Finset Path → Path → Except Ending (Finset Path)) (realDir : Path)
    (seen : Finset Path) (name : Name) : Except Ending (Finset Path) := do
  let abs := realDir++[name]
  let real ← sys (fs.realpath abs)
  if !insideDir (text realRec) (text real) then
    problem s!"closure entry {str (relative realRec abs)} resolves outside the closure"
  else
    let rel := relative realRec real
    match ← sys (fs.lstat real) with
    | .dir _ => walk seen real
    | .file _ =>
      if listed.contains rel then .ok seen
      else
        problem (s!"closure file {str rel} is reachable from the client but not listed " ++
          "in closure.json")
    | _ => problem s!"closure entry {str rel} is a special file"

/-- The directories seen, with those a directory leads to. -/
def walk : ℕ → Finset Path → Path → Except Ending (Finset Path)
  | 0, _, _ => .error .outOfFuel
  | fuel+1, seen, realDir =>
    if realDir∈seen then .ok seen
    else do
      (← sys (fs.readdir realDir)).foldlM
        (reachEntry fs realRec listed (walk fuel) realDir) (insert realDir seen)

def unlistedReachable (fuel : ℕ) (realClient : Path) : Except Ending Unit := do
  let _ ← walk fs realRec listed fuel ∅ realClient

/-- One directory on the way to a listed file. -/
def checkPart (rel : List Char) (before : Path) (part : Name) : Except Ending Path :=
  let cur := before++[part]
  let link := str (['/'].intercalate cur)
  match fs.lstat (recDir++cur) with
  | .error _ => problem s!"closure file {str rel} is missing"
  | .ok (.link _) =>
    problem s!"closure file {str rel} goes through a symlink ({link})"
  | .ok (.dir _) => .ok cur
  | .ok _ => problem s!"closure file {str rel} is not a regular file"

/-- One listed file. -/
def checkListed : List Char×Digest → Except Ending Unit
  | (rel,want) =>
    let parts := rel.splitOn '/'
    if rel.head?=some '/'∨∃ x∈parts, x=[]∨x=['.']∨x=['.','.'] then
      problem s!"closure.json lists an unsafe path {str rel}"
    else do
      let before ← parts.dropLast.foldlM (checkPart fs recDir rel) []
      match fs.openNoFollow (recDir++before++[parts.getLastD []]) with
      | .error .enoent => problem s!"closure file {str rel} is missing"
      | .error .eloop => problem s!"closure file {str rel} goes through a symlink ({str rel})"
      | .error code => .error (.throws code)
      | .ok none => problem s!"closure file {str rel} is not a regular file"
      | .ok (some bytes) =>
        if sha bytes=want then .ok ()
        else problem s!"closure file {str rel} does not match closure.json"

def closureProblem (fuel : ℕ) (files : List (List Char×Digest)) : Except Ending Unit := do
  let realRec ← caught (fun _ => s!"the closure directory {str (text recDir)} " ++
    "or its client directory cannot be read") (realClosure fs recDir clientDir)
  caught (fun code => s!"the closure cannot be read ({code.code})") do
    visit fs realRec fuel recDir []
    unlistedReachable fs realRec (files.map Prod.fst) fuel (← sys (fs.realpath clientDir))
  files.forM (checkListed fs sha recDir)

end

variable {fs : FileSystem} {realRec d p real : Path} {listed : List (List Char)}
  {seen mid later : Finset Path} {name : Name} {names : List Name}

/-- The test of the texts finds the root above the path. -/
theorem insideDir_prefix (hroot : ∀ name∈realRec, Plain name) (hp : ∀ name∈p, Plain name)
    (h : insideDir (text realRec) (text p)=true) : realRec<+:p := by
  rcases eq_or_ne realRec [] with rfl|hne
  · exact nil_prefix
  have hsplit := split_text hroot hne
  rcases eq_or_ne p [] with rfl|hnp
  · rcases Bool.or_eq_true_iff.mp h with heq|hpre
    · rw [← of_decide_eq_true heq] at hsplit
      cases hsplit
      exact absurd rfl (hroot [] (by simp)).1
    · have hlen := ( isPrefixOf_iff_prefix.mp hpre).length_le
      simp [text] at hlen
  · have hother := split_text hp hnp
    rcases Bool.or_eq_true_iff.mp h with heq|hpre
    · rw [of_decide_eq_true heq,hsplit] at hother
      cases hother
      exact prefix_rfl
    · obtain ⟨rest,heq⟩ := isPrefixOf_iff_prefix.mp hpre
      rw [← heq,append_assoc,singleton_append,splitOn_append_cons_self,hsplit] at hother
      cases hother
      exact ⟨_,rfl⟩

theorem sys_meets (call : Except Errno α) :
    Meets (·=Ending.outOfFuel) (fun value => call=.ok value) (sys call) := by
  cases call with
  | ok => exact .ok rfl
  | error => exact .error nofun

theorem caught_meets {P : α → Prop} {run : Except Ending α} {message : Errno → String}
    (h : Meets (·=Ending.outOfFuel) P run) : Meets (·=Ending.outOfFuel) P (caught message run) := by
  rcases run with (_|_|_)|_
  · exact h
  · exact .error nofun
  · exact h
  · exact h

/-- The walk of the entries ends below the deepest path. -/
theorem visit_ends (fuel : ℕ) : ∀ (dirAbs : Path) (rel : List Char) (real : Path),
    fs.realpath dirAbs=.ok real → fs.size<fuel+real.length →
    Meets (·=Ending.outOfFuel) (fun _ => True) (visit fs realRec fuel dirAbs rel) := by
  induction fuel with
  | zero =>
    intro _ _ real hreal hlt
    obtain ⟨_,hn,-⟩ := realpath_real hreal
    have := length_le_size hn
    omega
  | succ fuel ih =>
    intro dirAbs rel real hreal hlt
    refine (sys_meets _).bind fun names _ => Meets.mono (.forM (P := fun _ => True) ?_) fun _ _ => trivial
    intro name _
    refine (sys_meets _).bind fun n hn => ?_
    have hn := lstat_snoc hreal hn
    cases n with
    | link target =>
      simp only
      split
      · exact .error nofun
      · split
        · exact .ok trivial
        · exact .error nofun
    | dir held =>
      refine ih _ _ (real++[name]) ?_ (by rw [length_append,length_singleton]; omega)
      exact resolve_append.mpr ⟨real,hreal,resolve_real (real_dir hn)⟩
    | file => exact .ok trivial
    | special => exact .error nofun

/-- What is checked of an entry of a directory that is reached. -/
def Checked (fs : FileSystem) (realRec : Path) (listed : List (List Char)) (seen : Finset Path)
    (d : Path) (name : Name) : Prop :=
  ∃ real, fs.realpath (d++[name])=.ok real∧(real∈seen ∨
    ∃ bytes, fs.node real=some (.file bytes)∧realRec<+:real∧relative realRec real∈listed)

/-- A directory whose entries are all checked. -/
def Explored (fs : FileSystem) (realRec : Path) (listed : List (List Char)) (seen : Finset Path)
    (d : Path) : Prop :=
  ∃ names, fs.node d=some (.dir names)∧∀ name∈names, Checked fs realRec listed seen d name

/-- What was seen stays seen, and what is new is explored. -/
structure Grown (fs : FileSystem) (realRec : Path) (listed : List (List Char))
    (seen later : Finset Path) : Prop where
  kept : seen⊆later
  new : ∀ d∈later, d∈seen∨Explored fs realRec listed later d

theorem Checked.mono (h : Checked fs realRec listed seen d name) (hsub : seen⊆later) :
    Checked fs realRec listed later d name := by
  obtain ⟨real,hreal,hres⟩ := h
  exact ⟨real,hreal,hres.imp_left (hsub ·)⟩

theorem Grown.trans (hgro : Grown fs realRec listed seen mid)
    (hmor : Grown fs realRec listed mid later) : Grown fs realRec listed seen later := by
  refine ⟨hgro.kept.trans hmor.kept,fun d hd => ?_⟩
  rcases hmor.new d hd with hmid|hnew
  · refine (hgro.new d hmid).imp_right fun ⟨names,hn,hall⟩ => ⟨names,hn,fun name hin => ?_⟩
    exact (hall name hin).mono hmor.kept
  · exact .inr hnew

/-- An entry is checked once the directory it may lead to is walked. -/
theorem reachEntry_meets (hrec : fs.Real realRec)
    {next : Finset Path → Path → Except Ending (Finset Path)}
    (hnx : ∀ real, fs.Real real → Meets (·=Ending.outOfFuel)
      (fun later => Grown fs realRec listed seen later∧real∈later) (next seen real)) :
    Meets (·=Ending.outOfFuel)
      (fun later => Grown fs realRec listed seen later∧Checked fs realRec listed later d name)
      (reachEntry fs realRec listed next d seen name) := by
  refine (sys_meets _).bind fun real hreal => ?_
  split_ifs with hins
  · exact .error nofun
  refine (sys_meets _).bind fun n hn => ?_
  obtain ⟨held,hheld,-⟩ := realpath_real hreal
  cases hn.symm.trans (lstat_real hheld)
  cases n with
  | dir =>
    exact (hnx real (real_dir hheld)).mono fun later ⟨hgro,hin⟩ => ⟨hgro,real,hreal,.inl hin⟩
  | file bytes =>
    simp only
    split_ifs with hlist
    · refine .ok ⟨⟨subset_rfl,fun _ => .inl⟩,real,hreal,.inr ⟨bytes,hheld,?_,contains_iff_mem.mp hlist⟩⟩
      obtain ⟨_,hroot,-⟩ := hrec
      exact insideDir_prefix (plain_of_node hroot) (plain_of_node hheld) (by simpa using hins)
    · exact .error nofun
  | special | link => exact .error nofun

/-- The walk explores what it sees, and each step of it leaves fewer directories unseen. -/
theorem walk_meets (hrec : fs.Real realRec) (fuel : ℕ) : ∀ (seen : Finset Path) (d : Path),
    (fs.paths\seen).card<fuel → fs.Real d → Meets (·=Ending.outOfFuel)
      (fun later => Grown fs realRec listed seen later∧d∈later)
      (walk fs realRec listed fuel seen d) := by
  induction fuel with
  | zero => intro _ _ hlt; omega
  | succ fuel ih =>
    intro seen d hlt hd
    rw [walk]
    split_ifs with hin
    · exact .ok ⟨⟨subset_rfl,fun _ => .inl⟩,hin⟩
    refine (sys_meets _).bind fun names hnames => ?_
    have hnames := (readdir_real hd).mp hnames
    have hsub : ∀ {mid}, insert d seen⊆mid → (fs.paths\mid).card<fuel := by
      intro mid hmid
      refine lt_of_lt_of_le (Finset.card_lt_card ?_) (Nat.le_of_lt_succ hlt)
      refine (Finset.ssubset_iff_of_subset (Finset.sdiff_subset_sdiff subset_rfl
        ((Finset.subset_insert _ _).trans hmid))).mpr ⟨d,by simp [hin,mem_paths hnames],?_⟩
      simp [hmid (Finset.mem_insert_self _ _)]
    refine (Meets.foldlM_done (P := fun done later => Grown fs realRec listed (insert d seen) later ∧
      ∀ name∈done, Checked fs realRec listed later d name)
      ⟨⟨subset_rfl,fun _ => .inl⟩,forall_mem_nil _⟩ ?_).mono ?_
    · rintro done name rest mid - ⟨hgro,hdone⟩
      refine (reachEntry_meets hrec (ih mid · (hsub hgro.kept))).mono fun later ⟨hmor,hname⟩ => ?_
      exact ⟨hgro.trans hmor,forall_mem_append.mpr
        ⟨fun other hot => (hdone other hot).mono hmor.kept,forall_mem_singleton.mpr hname⟩⟩
    · rintro later ⟨hgro,hall⟩
      refine ⟨⟨(Finset.subset_insert _ _).trans hgro.kept,fun e he => ?_⟩,
        hgro.kept (Finset.mem_insert_self _ _)⟩
      rcases hgro.new e he with hold|hnew
      · rcases Finset.mem_insert.mp hold with rfl|hold
        · exact .inr ⟨names,hnames,fun name hname => hall name hname⟩
        · exact .inl hold
      · exact .inr hnew

/-- What entering names from an explored directory leads to was seen or is a listed file. -/
theorem Grown.reaches (hgro : Grown fs realRec listed ∅ later) (hd : d∈later)
    (hup : ['.','.']∉names) (h : fs.resolve d names=.ok p) : p∈later ∨
      ∃ bytes, fs.node p=some (.file bytes)∧realRec<+:p∧relative realRec p∈listed := by
  induction names using reverseRecOn generalizing p with
  | nil =>
    cases h
    exact .inl hd
  | append_singleton names name ih =>
    obtain ⟨q,hq,hlast⟩ := resolve_append.mp h
    have hent : fs.enter (fs.follow fs.links) q name=.ok p := by
      rw [FileSystem.resolve,foldlM_cons,bind_eq_ok] at hlast
      obtain ⟨_,hent,⟨⟩⟩ := hlast
      exact hent
    obtain ⟨held,hheld,hent⟩ := bind_eq_ok.mp hent
    have hheld := entries_eq_ok.mp hheld
    rcases ih (fun hin => hup (mem_append_left _ hin)) hq with hin|⟨bytes,hfile,-⟩
    · split_ifs at hent with hdot hdots
      · cases hent
        exact .inl hin
      · exact absurd (by simp [hdots]) hup
      obtain ⟨n,hn,-⟩ := bind_eq_ok.mp hent
      obtain ⟨-,other,hother,hname⟩ := node_parent (child_eq_ok.mp hn)
      obtain ⟨all,hall,hche⟩ := (hgro.new q hin).resolve_left (Finset.notMem_empty q)
      cases hother.symm.trans hall
      obtain ⟨real,hreal,hres⟩ := hche name hname
      obtain ⟨_,hend,hreal⟩ := resolve_append.mp hreal
      cases hend.symm.trans (resolve_real (d := []) (real_dir hall))
      cases hlast.symm.trans hreal
      exact hres
    · cases hheld.symm.trans hfile

section
variable {Digest : Type} {sha : List UInt8 → Digest} {recDir clientDir : Path}
  {files : List (List Char×Digest)} {held : List Name}

/-- What is known of a listed file once its parts were looked at and its bytes read. -/
structure Verified (fs : FileSystem) (sha : List UInt8 → Digest) (recDir : Path)
    (entry : List Char×Digest) : Prop where
  unlinked : ∀ stem, stem<+:entry.1.splitOn '/' → ∀ target,
    fs.lstat (recDir++stem)≠.ok (.link target)
  bytes : ∃ bytes, fs.lstat (recDir++entry.1.splitOn '/')=.ok (.file bytes)∧sha bytes=entry.2

/-- A file that lies in the closure and is listed is listed with its hash. -/
theorem listed_hash (hrec : fs.realpath recDir=.ok realRec)
    (hall : ∀ entry∈files, Verified fs sha recDir entry) {bytes : List UInt8}
    (hn : fs.node p=some (.file bytes)) (hpre : realRec<+:p)
    (hin : relative realRec p∈files.map Prod.fst) : (relative realRec p,sha bytes)∈files := by
  obtain ⟨⟨rel,want⟩,hentry,rfl⟩ := mem_map.mp hin
  obtain ⟨read,hread,hwant⟩ := (hall _ hentry).bytes
  obtain ⟨rest,rfl⟩ := hpre
  simp only [relative,drop_left] at *
  rcases eq_or_ne rest [] with rfl|hne
  · obtain ⟨⟨hplain,-⟩,-⟩ := node_parent (lstat_snoc hrec hread)
    exact absurd rfl hplain
  · have hplain := fun name hname => plain_of_node hn name (mem_append_right realRec hname)
    rw [split_join hplain hne,lstat_below hrec hne hn] at hread
    cases hread
    exact hwant ▸ hentry

variable [DecidableEq Digest]

theorem checkListed_meets (hdir : fs.lstat recDir=.ok (.dir held)) (entry : List Char×Digest) :
    Meets (·=Ending.outOfFuel) (fun _ => Verified fs sha recDir entry)
      (checkListed fs sha recDir entry) := by
  unfold checkListed
  simp only
  split_ifs
  · exact .error nofun
  have hparts := dropLast_concat_getLast (splitOn_ne_nil '/' entry.1)
  rw [getLastD_eq_getLast?,getLast?_eq_some_getLast (splitOn_ne_nil '/' entry.1)]
  refine (Meets.foldlM_done (P := fun done cur => cur=done∧∀ stem, stem<+:done → ∀ target,
    fs.lstat (recDir++stem)≠.ok (.link target)) ⟨rfl,?_⟩ ?_).bind ?_
  · intro stem hstem target
    rw [prefix_nil.mp hstem,append_nil,hdir]
    nofun
  · rintro done part rest _ - ⟨rfl,hdone⟩
    unfold checkPart
    simp only
    split
    · exact .error nofun
    · exact .error nofun
    · next hn =>
      refine .ok ⟨rfl,fun stem hstem target => ?_⟩
      rcases prefix_concat_iff.mp hstem with rfl|hold
      · rw [hn]
        nofun
      · exact hdone stem hold target
    · exact .error nofun
  · rintro _ ⟨rfl,hdone⟩
    rw [append_assoc,Option.getD_some,hparts]
    split
    · exact .error nofun
    · exact .error nofun
    · exact .error nofun
    · exact .error nofun
    · next bytes hread =>
      have hread := openNoFollow_eq_ok hread
      split_ifs with hwant
      · refine .ok ⟨fun stem hstem target => ?_,bytes,hread,hwant⟩
        rw [← hparts] at hstem
        rcases prefix_concat_iff.mp hstem with rfl|hold
        · rw [hparts,hread]
          nofun
        · exact hdone stem hold target
      · exact .error nofun

theorem realClosure_meets : Meets (·=Ending.outOfFuel) (fun realRec =>
    fs.realpath recDir=.ok realRec∧∃ held, fs.lstat recDir=.ok (.dir held))
    (realClosure fs recDir clientDir) := by
  refine (sys_meets _).bind fun n hn => ?_
  cases n with
  | dir held =>
    refine (sys_meets _).bind fun realRec hrec => (sys_meets _).bind fun _ _ => ?_
    split_ifs
    · exact .ok ⟨hrec,held,hn⟩
    · exact .error nofun
  | file | special | link => exact .error nofun

/-- Entering names from the client directory leads to directories and to regular files of the
closure that are listed with their hashes, and no listed path passes through a link. -/
def SelfContained (fs : FileSystem) (sha : List UInt8 → Digest) (recDir clientDir : Path)
    (files : List (List Char×Digest)) : Prop :=
  ∃ realRec, fs.realpath recDir=.ok realRec ∧
    (∀ names p, ['.','.']∉names → fs.realpath (clientDir++names)=.ok p →
      (∃ held, fs.node p=some (.dir held))∨∃ bytes, fs.node p=some (.file bytes) ∧
        realRec<+:p∧(relative realRec p,sha bytes)∈files) ∧
    ∀ entry∈files, ∀ stem, stem<+:entry.1.splitOn '/' → ∀ target,
      fs.lstat (recDir++stem)≠.ok (.link target)

/-- The check of a closure ends, and a closure without a problem is self-contained. -/
theorem closure_verified (fs : FileSystem) (sha : List UInt8 → Digest) (recDir clientDir : Path)
    (files : List (List Char×Digest)) {fuel : ℕ} (hfuel : fs.size<fuel) :
    closureProblem fs sha recDir clientDir fuel files≠.error .outOfFuel ∧
      (closureProblem fs sha recDir clientDir fuel files=.ok () →
        SelfContained fs sha recDir clientDir files) := by
  suffices h : Meets (·=Ending.outOfFuel) (fun _ => SelfContained fs sha recDir clientDir files)
      (closureProblem fs sha recDir clientDir fuel files) from ⟨fun hend => h.2 _ hend rfl,h.1 ()⟩
  refine (caught_meets realClosure_meets).bind fun realRec ⟨hrec,held,hdir⟩ => ?_
  refine (caught_meets (P := fun _ => ∃ real later, fs.realpath clientDir=.ok real ∧
    Grown fs realRec (files.map Prod.fst) ∅ later∧real∈later) ?_).bind ?_
  · refine (visit_ends fuel recDir [] realRec hrec (by omega)).bind fun _ _ => ?_
    refine (sys_meets _).bind fun real hreal => ?_
    have hcard : (fs.paths\∅).card<fuel := by
      rw [Finset.sdiff_empty]
      exact card_paths.trans_lt hfuel
    exact (walk_meets (realpath_real hrec) fuel ∅ real hcard (realpath_real hreal)).bind
      fun later ⟨hgro,hin⟩ => .ok ⟨real,later,hreal,hgro,hin⟩
  · rintro _ ⟨real,later,hreal,hgro,hin⟩
    refine (Meets.forM fun entry _ => checkListed_meets hdir entry).mono fun _ hall => ?_
    refine ⟨realRec,hrec,fun names p hup hp => ?_,fun entry hen => (hall entry hen).unlinked⟩
    obtain ⟨q,hq,hp⟩ := resolve_append.mp hp
    cases hq.symm.trans hreal
    rcases hgro.reaches hin hup hp with hseen|⟨bytes,hn,hpre,hlisted⟩
    · obtain ⟨held,hheld,-⟩ := (hgro.new p hseen).resolve_left (Finset.notMem_empty p)
      exact .inl ⟨held,hheld⟩
    · exact .inr ⟨bytes,hn,hpre,listed_hash hrec hall hn hpre hlisted⟩

end

/-- A client directory that links to a directory which links back to it. -/
def linkedTree : FileSystem where
  nodes := [([],.dir ["c".toList]),(["c".toList],.dir ["app".toList,"lib".toList]),
    (["c".toList,"app".toList],.dir ["a".toList,"lib".toList]),
    (["c".toList,"app".toList,"a".toList],.file [1]),
    (["c".toList,"app".toList,"lib".toList],.link "../lib".toList),
    (["c".toList,"lib".toList],.dir ["b".toList,"up".toList]),
    (["c".toList,"lib".toList,"b".toList],.file [2]),
    (["c".toList,"lib".toList,"up".toList],.link "/c/app".toList)]
  links := 40
  root := ⟨_,rfl⟩
  children := by decide
  parents := by decide

theorem closure_verified_linked : SelfContained linkedTree id ["c".toList]
    ["c".toList,"app".toList] [("app/a".toList,[1]),("lib/b".toList,[2])] :=
  (closure_verified linkedTree id _ _ _ (Nat.lt_succ_self _)).2 rfl

end SellRight.RollbackClosure
