import SellRight.CrashSteps
import SellRight.DeployRecord

/-!
# The retention marker and its snapshots

One shared marker file says which files the live release retains. A build script
and the retention helpers may write it, so the marker of the live release is
copied aside before a build, and one copy for each release about to be displaced
is kept until its transition commits or is reversed. Each durable change is a
step of its own; a file copied over is torn when the copy is cut short.
-/

namespace SellRight.DeployMarker

open CrashSteps CrashSteps.Program DeployRecord

/-- Content of a marker file. -/
abbrev Content := String

/-- File of the directory of kept markers. -/
structure PrevMarkerFile where
  release : StageId
  /-- Content of the `.json` file; none is the `.absent` file. -/
  content : Option Content
  deriving DecidableEq

/-- Marker files of a root. -/
structure Markers where
  marker : Option Content
  markerMeta : Option StageId
  markerBefore : Option Content
  markerAbsent : Bool
  markerPrevDir : List PrevMarkerFile
  /-- Ghost: snapshots ever completed. -/
  snapped : List (StageId×Option Content)
  /-- Ghost: marker found whenever a restore had put the marker of its release
  back and went on to bring the tree up. -/
  entered : List (StageId×Option Content)

/-- Errors of the deploy commands, by exit code. -/
inductive Exit
  | usage
  | root
  | env
  | precond
  | recover
  | artifact
  | fail
  | smoke
  | purge
  deriving DecidableEq

/-- Program over the marker files. -/
abbrev MarkerProgram := Program Markers Exit Unit

variable (markers : Markers)

/-- `.json` file kept for a release. -/
def Markers.prevJson (release : StageId) : Option Content :=
  markers.markerPrevDir.findSome? fun file => if file.release=release then file.content else none

/-- An `.absent` file is kept for a release. -/
def Markers.prevAbsent (release : StageId) : Bool :=
  markers.markerPrevDir.contains ⟨release,none⟩

variable (release : StageId)

/-- Directory without one of the two files of a release. -/
def removePrev (json : Bool) (files : List PrevMarkerFile) :
    List PrevMarkerFile :=
  files.filter fun file => !(file.release=release&&file.content.isSome == json)

/-- `snapshotValid`: a snapshot is valid only for the live release it was taken for. -/
def Markers.snapshotValid (live : StageId) : Bool :=
  markers.markerMeta == some live&&(markers.markerBefore.isSome||markers.markerAbsent)

/-- `copyFileDurable`: a copy cut short leaves a torn file. -/
def copyFileDurable (torn content : Content) (put : Option Content → Markers → Markers) :
    MarkerProgram := do
  write (put (some torn))
  write (put (some content))

/-- Marker with new content. -/
def setMarker (content : Option Content) (markers : Markers) : Markers :=
  {markers with marker := content}

/-- Snapshot with new content. -/
def setBefore (content : Option Content) (markers : Markers) : Markers :=
  {markers with markerBefore := content}

/-- Kept `.json` file with new content. -/
def setPrevJson (content : Option Content) (markers : Markers) : Markers :=
  { markers with markerPrevDir := removePrev release true markers.markerPrevDir ++
      (content.map fun text => ⟨release,some text⟩).toList}

variable (retain : Bool)

def restoreMarker (torn : Content) (live : StageId) : MarkerProgram := do
  let markers ← fetch
  if retain&&markers.snapshotValid live then
    match markers.markerBefore with
    | some content => copyFileDurable torn content setMarker
    | none => write (setMarker none)
  else pure ()

def clearMarkerSnapshot : MarkerProgram := do
  write fun markers => {markers with markerMeta := none}
  write (setBefore none)
  write fun markers => {markers with markerAbsent := false}

/-- Record the release a finished snapshot was taken for. -/
def writeMarkerMeta (live : StageId) (markers : Markers) : Markers := {markers with
    markerMeta := some live
    snapped := markers.snapped++[(live,markers.markerBefore)]}

def snapshotMarker (torn : Content) (live : StageId) : MarkerProgram := do
  let markers ← fetch
  if !retain then pure ()
  else if markers.snapshotValid live then restoreMarker retain torn live
  else
    clearMarkerSnapshot
    match markers.marker with
    | some content => copyFileDurable torn content setBefore
    | none => write fun markers => {markers with markerAbsent := true}
    write (writeMarkerMeta live)

/-- `keepPrevMarker`: only adds the file of the release about to be displaced. -/
def keepPrevMarker (torn : Content) (live prevId : StageId) : MarkerProgram := do
  let markers ← fetch
  if retain&&markers.snapshotValid live then
    write fun markers => {markers with
      markerPrevDir := removePrev prevId true markers.markerPrevDir}
    write fun markers => {markers with
      markerPrevDir := removePrev prevId false markers.markerPrevDir}
    match markers.markerBefore with
    | some content => copyFileDurable torn content (setPrevJson prevId)
    | none => write fun markers => {markers with
        markerPrevDir := markers.markerPrevDir++[⟨prevId,none⟩]}
  else pure ()

/-- `pruneMarkers`: the kept markers of every other release are removed one by one. -/
def pruneMarkers (keep : Option StageId) : MarkerProgram := do
  let markers ← fetch
  writes ((markers.markerPrevDir.filter fun file => some file.release != keep).map
    fun file markers => {markers with
      markerPrevDir := markers.markerPrevDir.filter (· != file)})

def restorePrevMarker (torn : Content) (prevId : StageId) : MarkerProgram := do
  let markers ← fetch
  if retain then
    match markers.prevJson prevId with
    | some content => copyFileDurable torn content setMarker
    | none => if markers.prevAbsent prevId then write (setMarker none) else pure ()
  else pure ()

/-- The build script and the retention helpers write the marker as they like. -/
def helperWrites (contents : List (Option Content)) : MarkerProgram :=
  writes (contents.map setMarker)

/-- Ghost: what a restore finds when it goes on to bring the tree up. -/
def noteEntered : MarkerProgram :=
  write fun markers => {markers with entered := markers.entered++[(release,markers.marker)]}

end SellRight.DeployMarker
