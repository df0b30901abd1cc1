import SellRight.DeployMarker

/-!
# What the steps on the marker files leave

Each step is specified at every durable write: which files it may touch, that
snapshots of one release agree, and that the marker of the release in question
can be put back at any moment.
-/

namespace SellRight.DeployMarkerSpecs

open CrashSteps CrashSteps.Program DeployRecord DeployMarker List

/-- The id has been drawn, or needs no drawing. -/
def Known (serial : ℕ) : StageId → Prop
  | .stage n => n<serial
  | _ => True

/-- More ids are drawn. -/
theorem Known.mono {serial later : ℕ} {id : StageId} (h : Known serial id)
    (hle : serial≤later) : Known later id := by
  cases id with
  | stage => exact lt_of_lt_of_le h hle
  | legacy | unknown => trivial

section
variable (markers : Markers) (release : StageId)

/-- A snapshot with this content was taken for the release. -/
def Snapped (content : Option Content) : Prop :=
  (release,content)∈markers.snapped

/-- Kept files of a release. -/
def prevFiles : List PrevMarkerFile :=
  markers.markerPrevDir.filter fun file => file.release=release

def Kept (content : Option Content) : Prop :=
  prevFiles markers release=[⟨release,content⟩]

/-- Putting the kept marker of a release back makes it this content. -/
def RestoresTo (content : Option Content) : Prop :=
  Kept markers release content∨markers.marker=content∧prevFiles markers release=[]

end

/-- Snapshots are sound. -/
structure Snaps (retain : Bool) (serial : ℕ) (markers : Markers) : Prop where
  off : retain=false→markers.snapped=[]
  known : ∀ entry∈markers.snapped, Known serial entry.1
  agree : ∀ release content other, Snapped markers release content →
    Snapped markers release other→content=other
  /-- The snapshot files hold what was snapshotted for the release they name. -/
  files : ∀ release∈markers.markerMeta, Snapped markers release markers.markerBefore ∧
    (markers.markerBefore=none→markers.markerAbsent=true)
  /-- A restore went on with the marker snapshotted for its release. -/
  entered : retain=true→∀ entry∈markers.entered, entry∈markers.snapped

section Lookup

variable {markers : Markers} {release : StageId} {content : Option Content}

/-- Only the files of the release are looked up. -/
theorem prevJson_eq : markers.prevJson release =
    (prevFiles markers release).findSome? (·.content) := by
  unfold Markers.prevJson prevFiles
  induction markers.markerPrevDir with
  | nil => rfl
  | cons file _ ih =>
    rw [findSome?_cons,filter_cons]
    by_cases hrel : file.release=release
    · rw [if_pos hrel,if_pos (decide_eq_true hrel),findSome?_cons,ih]
    · rw [if_neg hrel,if_neg (by simpa using hrel)]
      exact ih

theorem prevAbsent_iff : markers.prevAbsent release=true ↔
    ⟨release,none⟩∈prevFiles markers release := by
  unfold Markers.prevAbsent prevFiles
  rw [contains_iff_mem,mem_filter,decide_eq_true_iff]
  exact ⟨fun hfil => ⟨hfil,rfl⟩,fun hfil => hfil.1⟩

theorem Snaps.snapshotValid_iff {retain : Bool} {serial : ℕ} (h : Snaps retain serial markers) :
    markers.snapshotValid release=true ↔ markers.markerMeta=some release := by
  unfold Markers.snapshotValid
  rw [Bool.and_eq_true,beq_iff_eq,Bool.or_eq_true]
  constructor
  · exact fun hval => hval.1
  · intro hmet
    refine ⟨hmet,?_⟩
    cases hbef : markers.markerBefore with
    | some => exact .inl rfl
    | none => exact .inr ((h.files release hmet).2 hbef)

/-- Soundness of snapshots reads neither the marker nor the kept ones. -/
theorem Snaps.of_eq {retain : Bool} {serial : ℕ} {after : Markers}
    (h : Snaps retain serial markers) (hsna : after.snapped=markers.snapped)
    (hent : after.entered=markers.entered)
    (hfil : after.markerMeta=none∨after.markerMeta=markers.markerMeta ∧
      after.markerBefore=markers.markerBefore∧after.markerAbsent=markers.markerAbsent) :
    Snaps retain serial after := by
  obtain ⟨hoff,hkn,hagr,hsd,hentr⟩ := h
  refine ⟨?_,?_,?_,?_,?_⟩
  · rw [hsna]
    exact hoff
  · rw [hsna]
    exact hkn
  · unfold Snapped
    rw [hsna]
    exact hagr
  · unfold Snapped
    rw [hsna]
    rcases hfil with hno|⟨hmet,hbef,habs⟩
    · rw [hno]
      exact nofun
    · rw [hmet,hbef,habs]
      exact hsd
  · rw [hsna,hent]
    exact hentr

end Lookup

variable {release : StageId} {files : List PrevMarkerFile}

section Steps

variable {retain : Bool} {serial : ℕ} {torn : Content} {live : StageId} {markers : Markers}
  {E : Exit → Markers → Prop}

theorem wp_copyFileDurable {content : Content} {put : Option Content → Markers → Markers}
    {I : Markers → Prop} {Q : Unit → Markers → Prop} (htor : I (put (some torn) markers))
    (hwho : I (put (some content) (put (some torn) markers)) ∧
      Q () (put (some content) (put (some torn) markers))) :
    Wp I (copyFileDurable torn content put) Q E markers := by
  exact wp_bind.mpr (wp_write.mpr ⟨htor,wp_write.mpr hwho⟩)

/-- Only the marker changed, and only under a snapshot of the live release. -/
def Remarked (live : StageId) (markers after : Markers) : Prop :=
  ∃ content, after=setMarker content markers∧(markers.markerMeta=some live∨content=markers.marker)

theorem wp_restoreMarker (h : Snaps retain serial markers) :
    Wp (Remarked live markers) (restoreMarker retain torn live)
      (fun _ after => Remarked live markers after∧∀ content, Snapped markers live content →
        markers.markerMeta=some live∨markers.marker=content→after.marker=content) E markers := by
  refine wp_read ?_
  by_cases hval : (retain&&markers.snapshotValid live)=true
  · have hmet := h.snapshotValid_iff.mp (Bool.and_eq_true _ _ ▸ hval).2
    obtain ⟨hsna,-⟩ := h.files live hmet
    have heq : ∀ content, Snapped markers live content→markers.markerBefore=content :=
      fun content hcon => h.agree live _ _ hsna hcon
    rw [if_pos hval]
    cases hbef : markers.markerBefore with
    | none =>
      rw [hbef] at heq
      exact wp_write.mpr ⟨⟨none,rfl,.inl hmet⟩,⟨none,rfl,.inl hmet⟩,
        fun content hcon _ => heq content hcon⟩
    | some text =>
      rw [hbef] at heq
      exact wp_copyFileDurable ⟨some torn,rfl,.inl hmet⟩
        ⟨⟨some text,rfl,.inl hmet⟩,⟨some text,rfl,.inl hmet⟩,
          fun content hcon _ => heq content hcon⟩
  · rw [if_neg hval]
    refine wp_pure.mpr ⟨⟨markers.marker,rfl,.inr rfl⟩,fun content hcon hor => ?_⟩
    rcases hor with hmet|hmar
    · have hret : retain=true := by
        cases hoff : retain with
        | true => rfl
        | false =>
          unfold Snapped at hcon
          rw [h.off hoff] at hcon
          cases hcon
      rw [hret,h.snapshotValid_iff.mpr hmet] at hval
      exact absurd rfl hval
    · exact hmar

theorem wp_helperWrites {contents : List (Option Content)} :
    Wp (fun after => ∃ content, after=setMarker content markers) (helperWrites contents)
      (fun _ after => ∃ content, after=setMarker content markers) E markers := by
  refine wp_writes (J := fun after => ∃ content, after=setMarker content markers)
    ⟨markers.marker,rfl⟩ ?_ (fun _ haft => haft) fun _ haft => haft
  intro change hcha after haft
  obtain ⟨content,-,rfl⟩ := mem_map.mp hcha
  obtain ⟨other,rfl⟩ := haft
  exact ⟨content,rfl⟩

/-- Only the snapshot files changed, and name no release. -/
structure Cleared (markers after : Markers) : Prop where
  marker : after.marker=markers.marker
  prevDir : after.markerPrevDir=markers.markerPrevDir
  snapped : after.snapped=markers.snapped
  entered : after.entered=markers.entered
  markerMeta : after.markerMeta=none

theorem wp_clearMarkerSnapshot :
    Wp (Cleared markers) clearMarkerSnapshot (fun _ after => Cleared markers after ∧
      after.markerBefore=none∧after.markerAbsent=false) E markers := by
  refine wp_bind.mpr (wp_write.mpr ⟨⟨rfl,rfl,rfl,rfl,rfl⟩,?_⟩)
  refine wp_bind.mpr (wp_write.mpr ⟨⟨rfl,rfl,rfl,rfl,rfl⟩,?_⟩)
  exact wp_write.mpr ⟨⟨rfl,rfl,rfl,rfl,rfl⟩,⟨rfl,rfl,rfl,rfl,rfl⟩,rfl,rfl⟩

/-- What `snapshotMarker` may change. -/
structure Snapshotted (retain : Bool) (serial : ℕ) (live : StageId) (markers after : Markers) :
    Prop where
  prevDir : after.markerPrevDir=markers.markerPrevDir
  snaps : Snaps retain serial after
  others : ∀ entry∈after.snapped, entry∈markers.snapped∨entry.1=live
  kept : markers.snapped ⊆ after.snapped
  /-- The marker of the live release can be put back. -/
  live : ∀ content, Snapped after live content→after.markerMeta=some live∨after.marker=content

section
variable {after : Markers} (h : Cleared markers after) (hsna : Snaps retain serial markers)
include h hsna

/-- A finished copy becomes the snapshot of the live release. -/
theorem Cleared.snapshotted (hret : retain=true) (hkn : Known serial live)
    (hlv : ∀ content, Snapped markers live content→markers.marker=content)
    (hbef : after.markerBefore=markers.marker)
    (habs : after.markerBefore=none→after.markerAbsent=true) :
    Snapshotted retain serial live markers (writeMarkerMeta live after) := by
  obtain ⟨-,hpre,hsnap,hente,-⟩ := h
  have hlis : (writeMarkerMeta live after).snapped =
      markers.snapped++[(live,markers.marker)] := by
    unfold writeMarkerMeta
    rw [hsnap,hbef]
  have hmem : ∀ release content, Snapped (writeMarkerMeta live after) release content ↔
      Snapped markers release content∨release=live∧content=markers.marker := by
    intro release content
    unfold Snapped
    rw [hlis,mem_append,mem_singleton,Prod.mk.injEq]
  refine ⟨hpre,⟨?_,?_,?_,?_,?_⟩,?_,?_,fun _ _ => .inl rfl⟩
  · rw [hret]
    exact nofun
  · rw [hlis]
    intro entry hent
    rcases mem_append.mp hent with hold|hnew
    · exact hsna.known entry hold
    · rw [mem_singleton.mp hnew]
      exact hkn
  · intro release content other hcon hot
    rcases (hmem _ _).mp hcon with hold|⟨hrel,hnew⟩ <;>
      rcases (hmem _ _).mp hot with hold'|⟨hrel',hnew'⟩
    · exact hsna.agree release _ _ hold hold'
    · rw [hrel'] at hold
      exact (hlv _ hold).symm.trans hnew'.symm
    · rw [hrel] at hold'
      exact hnew.trans (hlv _ hold')
    · exact hnew.trans hnew'.symm
  · rintro release ⟨⟩
    exact ⟨(hmem _ _).mpr (.inr ⟨rfl,hbef⟩),habs⟩
  · intro hon entry hent
    rw [hlis]
    have hold : entry∈markers.entered := hente ▸ hent
    exact mem_append_left _ (hsna.entered hon entry hold)
  · intro entry hent
    rw [hlis] at hent
    rcases mem_append.mp hent with hold|hnew
    · exact .inl hold
    · rw [mem_singleton.mp hnew]
      exact .inr rfl
  · rw [hlis]
    exact subset_append_left _ _

/-- Before a copy is finished nothing is snapshotted. -/
theorem Cleared.unfinished (hlv : ∀ content, Snapped markers live content→markers.marker=content) :
    Snapshotted retain serial live markers after := by
  refine ⟨h.prevDir,hsna.of_eq h.snapped h.entered (.inl h.markerMeta),?_,?_,?_⟩
  · rw [h.snapped]
    exact fun entry hent => .inl hent
  · rw [h.snapped]
    exact fun entry hent => hent
  · intro content hcon
    unfold Snapped at hcon
    rw [h.snapped] at hcon
    exact .inr (h.marker.trans (hlv content hcon))

end

/-- Nothing happened. -/
theorem snapshotted_self (h : Snaps retain serial markers)
    (hlv : ∀ content, Snapped markers live content →
      markers.markerMeta=some live∨markers.marker=content) :
    Snapshotted retain serial live markers markers :=
  ⟨rfl,h,fun _ hent => .inl hent,fun _ hent => hent,hlv⟩

/-- `snapshotMarker` leaves a snapshot of the live release, which agrees with
every earlier one. -/
theorem wp_snapshotMarker (h : Snaps retain serial markers) (hkn : Known serial live)
    (hlv : ∀ content, Snapped markers live content →
      markers.markerMeta=some live∨markers.marker=content) :
    Wp (Snapshotted retain serial live markers) (snapshotMarker retain torn live)
      (fun _ after => Snapshotted retain serial live markers after ∧
        (retain=true→after.markerMeta=some live)) E markers := by
  refine wp_read ?_
  cases hret : retain with
  | false =>
    rw [hret] at h
    exact wp_pure.mpr ⟨snapshotted_self h hlv,Bool.noConfusion⟩
  | true =>
    rw [hret] at h
    by_cases hval : markers.snapshotValid live=true
    · have hmet := h.snapshotValid_iff.mp hval
      have hkp : ∀ after, Remarked live markers after →
          Snapshotted true serial live markers after := by
        rintro after ⟨content,rfl,-⟩
        exact ⟨rfl,h.of_eq rfl rfl (.inr ⟨rfl,rfl,rfl⟩),fun _ hent => .inl hent,
          fun _ hent => hent,fun _ _ => .inl hmet⟩
      rw [if_pos hval]
      refine (wp_restoreMarker h).imp hkp (fun _ after haft => ⟨hkp after haft.1,?_⟩)
        fun _ _ her => her
      obtain ⟨⟨content,rfl,-⟩,-⟩ := haft
      exact fun _ => hmet
    · have hclean : ∀ content, Snapped markers live content→markers.marker=content := by
        intro content hcon
        refine (hlv content hcon).resolve_left fun hmet => hval ?_
        exact h.snapshotValid_iff.mpr hmet
      rw [if_neg hval]
      refine wp_bind.mpr (wp_clearMarkerSnapshot.imp (fun after haft => haft.unfinished h hclean)
        (fun _ cleared hcle => ?_) fun _ _ her => her)
      obtain ⟨hcle,hnob,-⟩ := hcle
      have hunf : ∀ before absent, Cleared markers
          {cleared with markerBefore := before,markerAbsent := absent} := fun _ _ =>
        ⟨hcle.marker,hcle.prevDir,hcle.snapped,hcle.entered,hcle.markerMeta⟩
      cases hmar : markers.marker with
      | none =>
        have habs := hunf cleared.markerBefore true
        have hdn := habs.snapshotted h rfl hkn hclean (hnob.trans hmar.symm) fun _ => rfl
        simp only [wp_bind,wp_write]
        exact ⟨habs.unfinished h hclean,hdn,hdn,fun _ => rfl⟩
      | some text =>
        have htor := hunf (some torn) cleared.markerAbsent
        have hwho := hunf (some text) cleared.markerAbsent
        have hdn := hwho.snapshotted h rfl hkn hclean hmar.symm fun h => by cases h
        refine wp_bind.mpr (wp_copyFileDurable (htor.unfinished h hclean)
          ⟨hwho.unfinished h hclean,?_⟩)
        exact wp_write.mpr ⟨hdn,hdn,fun _ => rfl⟩

/-- Only kept markers of one release changed. -/
structure KeptFor (release : StageId) (markers after : Markers) : Prop where
  same : ∃ files, after = {markers with markerPrevDir := files}
  others : ∀ other, other≠release→prevFiles after other=prevFiles markers other

theorem filter_removePrev {other : StageId} {json : Bool} (hne : other≠release) :
    (removePrev release json files).filter (fun file => file.release=other) =
      files.filter fun file => file.release=other := by
  unfold removePrev
  rw [filter_filter]
  refine filter_congr fun file _ => ?_
  by_cases hfil : file.release=other
  · simp [hfil,hne]
  · simp [hfil]

theorem filter_removePrev_both (release : StageId) (files : List PrevMarkerFile) :
    (removePrev release false (removePrev release true files)).filter
      (fun file => file.release=release)=[] := by
  unfold removePrev
  rw [filter_filter,filter_filter,filter_eq_nil_iff]
  intro file _
  cases hcon : file.content <;> by_cases hfil : file.release=release <;> simp [hfil]

theorem removePrev_eq_self (json : Bool)
    (hem : files.filter (fun file => file.release=release)=[]) :
    removePrev release json files=files := by
  unfold removePrev
  rw [filter_eq_self]
  intro file hfil
  have hot := (filter_eq_nil_iff.mp hem) file hfil
  simp [hot]

/-- A `.json` file just added is removed again. -/
theorem removePrev_append {content : Content}
    (hem : files.filter (fun file => file.release=release)=[]) :
    removePrev release true (files++[⟨release,some content⟩])=files := by
  have hsel := removePrev_eq_self true hem
  unfold removePrev at hsel ⊢
  rw [filter_append,hsel]
  simp

variable {content : Option Content}

theorem filter_append_other {other : StageId} (hne : other≠release) :
    filter (fun file => file.release=other) (files++[⟨release,content⟩]) =
      files.filter fun file => file.release=other := by
  rw [filter_append]
  have hno : [(⟨release,content⟩ : PrevMarkerFile)].filter
      (fun file => file.release=other)=[] := by
    rw [filter_eq_nil_iff]
    intro file hfil
    rw [mem_singleton.mp hfil]
    simpa using fun heq => hne (Eq.symm heq)
  rw [hno,append_nil]

/-- A file added for a release without any is the only one. -/
theorem filter_append_self
    (hem : files.filter (fun file => file.release=release)=[]) :
    filter (fun file => file.release=release) (files++[⟨release,content⟩]) =
      [⟨release,content⟩] := by
  rw [filter_append,hem]
  simp

theorem wp_keepPrevMarker (h : Snaps retain serial markers) :
    Wp (KeptFor live markers) (keepPrevMarker retain torn live live)
      (fun _ after => KeptFor live markers after∧(retain=true→markers.markerMeta=some live →
          ∃ content, Snapped markers live content∧Kept after live content)) E markers := by
  refine wp_read ?_
  by_cases hval : (retain&&markers.snapshotValid live)=true
  · have hmet := h.snapshotValid_iff.mp (Bool.and_eq_true _ _ ▸ hval).2
    obtain ⟨hsna,-⟩ := h.files live hmet
    have hdir : ∀ files, (∀ other, other≠live→files.filter (fun file => file.release=other) =
        markers.markerPrevDir.filter fun file => file.release=other) →
        KeptFor live markers {markers with markerPrevDir := files} := fun files hoth =>
      ⟨⟨files,rfl⟩,hoth⟩
    have hfst : ∀ other, other≠live →
        (removePrev live true markers.markerPrevDir).filter (fun file => file.release=other) =
          markers.markerPrevDir.filter fun file => file.release=other :=
      fun other hne => filter_removePrev hne
    have hsec : ∀ other, other≠live →
        (removePrev live false (removePrev live true markers.markerPrevDir)).filter
          (fun file => file.release=other) =
            markers.markerPrevDir.filter fun file => file.release=other :=
      fun other hne => (filter_removePrev hne).trans (filter_removePrev hne)
    rw [if_pos hval]
    refine wp_bind.mpr (wp_write.mpr ⟨hdir _ hfst,wp_bind.mpr (wp_write.mpr ⟨hdir _ hsec,?_⟩)⟩)
    have hem := filter_removePrev_both live markers.markerPrevDir
    dsimp only
    generalize removePrev live false (removePrev live true markers.markerPrevDir)=files at hsec hem ⊢
    have hput : ∀ content, KeptFor live markers
        {markers with markerPrevDir := files++[⟨live,content⟩]} :=
      fun content => hdir _ fun other hne => (filter_append_other hne).trans (hsec other hne)
    split
    · next text hbef =>
      have htor : setPrevJson live (some torn) {markers with markerPrevDir := files} =
          {markers with markerPrevDir := files++[⟨live,some torn⟩]} := by
        unfold setPrevJson
        rw [removePrev_eq_self true hem]
        rfl
      have hwho : setPrevJson live (some text)
          {markers with markerPrevDir := files++[⟨live,some torn⟩]} =
          {markers with markerPrevDir := files++[⟨live,some text⟩]} := by
        unfold setPrevJson
        rw [removePrev_append hem]
        rfl
      refine wp_copyFileDurable ?_ ?_
      · rw [htor]
        exact hput (some torn)
      · rw [htor,hwho]
        exact ⟨hput (some text),hput (some text),
          fun _ _ => ⟨some text,hbef ▸ hsna,filter_append_self hem⟩⟩
    · next hbef =>
      exact wp_write.mpr ⟨hput none,hput none,fun _ _ => ⟨none,hbef ▸ hsna,filter_append_self hem⟩⟩
  · rw [if_neg hval]
    refine wp_pure.mpr ⟨⟨⟨_,rfl⟩,fun _ _ => rfl⟩,fun hret hmet => ?_⟩
    rw [hret,h.snapshotValid_iff.mpr hmet] at hval
    exact absurd rfl hval

/-- Only kept markers of other releases were removed. -/
structure Pruned (keep : Option StageId) (markers after : Markers) : Prop where
  same : ∃ files, after = {markers with markerPrevDir := files}
  kept : ∀ release∈keep, prevFiles after release=prevFiles markers release
  fewer : after.markerPrevDir.Sublist markers.markerPrevDir

/-- `pruneMarkers` removes the kept markers of other releases. -/
theorem wp_pruneMarkers {keep : Option StageId} :
    Wp (Pruned keep markers) (pruneMarkers keep) (fun _ => Pruned keep markers) E markers := by
  refine wp_bind.mpr (wp_fetch.mpr (wp_writes (J := Pruned keep markers)
    ⟨⟨_,rfl⟩,fun _ _ => rfl,Sublist.refl _⟩ ?_ (fun _ haft => haft)
    fun _ haft => haft))
  intro change hcha after haft
  obtain ⟨file,hfil,rfl⟩ := mem_map.mp hcha
  have hot : some file.release≠keep := by
    have hfilt := (mem_filter.mp hfil).2
    simpa using hfilt
  obtain ⟨⟨files,rfl⟩,hkp,hfew⟩ := haft
  refine ⟨⟨_,rfl⟩,fun release hrel => ?_,filter_sublist.trans hfew⟩
  rw [← hkp release hrel]
  unfold prevFiles
  rw [filter_filter]
  refine filter_congr fun other _ => ?_
  by_cases hsam : other=file
  · have hne : file.release≠release := fun heq => hot (heq ▸ hrel.symm)
    simp [hsam,hne]
  · simp [hsam]

theorem wp_restorePrevMarker
    (h : retain=true→∃ content, Snapped markers release content ∧
      RestoresTo markers release content) :
    Wp (fun after => (∃ content, after=setMarker content markers) ∧
        (retain=true→∃ content, Snapped markers release content∧RestoresTo after release content))
      (restorePrevMarker retain torn release)
      (fun _ after => (∃ content, after=setMarker content markers) ∧
        (retain=true→∃ content, Snapped markers release content ∧
          RestoresTo after release content∧after.marker=content)) E markers := by
  refine wp_read ?_
  cases hret : retain with
  | false => exact wp_pure.mpr ⟨⟨markers.marker,rfl⟩,nofun⟩
  | true =>
    obtain ⟨content,hsna,hres⟩ := h hret
    rw [if_pos rfl,prevJson_eq]
    rcases hres with hkp|⟨hmar,hem⟩
    · have hany : ∀ text, RestoresTo (setMarker text markers) release content := fun _ => .inl hkp
      rw [hkp]
      cases content with
      | none =>
        have habs : markers.prevAbsent release=true := by
          rw [prevAbsent_iff,hkp]
          exact mem_singleton_self _
        rw [if_pos habs]
        exact wp_write.mpr ⟨⟨⟨none,rfl⟩,fun _ => ⟨none,hsna,hany none⟩⟩,⟨none,rfl⟩,
          fun _ => ⟨none,hsna,hany none,rfl⟩⟩
      | some text =>
        exact wp_copyFileDurable ⟨⟨some torn,rfl⟩,fun _ => ⟨some text,hsna,hany (some torn)⟩⟩
          ⟨⟨⟨some text,rfl⟩,fun _ => ⟨some text,hsna,hany (some text)⟩⟩,
            ⟨some text,rfl⟩,fun _ => ⟨some text,hsna,hany (some text),rfl⟩⟩
    · have habs : ¬ markers.prevAbsent release=true := by
        rw [prevAbsent_iff,hem]
        exact not_mem_nil
      rw [hem,findSome?_nil]
      rw [if_neg habs]
      exact wp_pure.mpr ⟨⟨markers.marker,rfl⟩,fun _ => ⟨content,hsna,.inr ⟨hmar,hem⟩,hmar⟩⟩

end Steps

end SellRight.DeployMarkerSpecs
