import Mathlib.Data.List.Destutter
import Mathlib.Data.List.Sort
import Mocha.CameraMetadata

/-!
# The characteristics that the adapter publishes

`buildCharacteristics` turns the stock device's HAL3.0 characteristics into those
of a HAL3.2 device: the old size tables become stream tables, the old tags go,
and three lists name the keys of requests, of results, and of the characteristics
themselves.

An element of type float stands as its 32 bits.
-/
namespace CameraMetadata

section Tags

def controlAeAntibandingMode : Tag := 0x10000
def controlAeExposureCompensation : Tag := 0x10001
def controlAeLock : Tag := 0x10002
def controlAeRegions : Tag := 0x10004
def controlAfRegions : Tag := 0x10008
def controlAwbLock : Tag := 0x1000A
def controlAwbMode : Tag := 0x1000B
def controlAwbRegions : Tag := 0x1000C
def controlCaptureIntent : Tag := 0x1000D
def controlEffectMode : Tag := 0x1000E
def controlMode : Tag := 0x1000F
def controlSceneMode : Tag := 0x10010
def controlAvailableVideoStabilizationModes : Tag := 0x1001A
def controlMaxRegions : Tag := 0x1001C
def controlAeState : Tag := 0x1001F
def controlAfState : Tag := 0x10020
def controlAwbState : Tag := 0x10022
def controlAvailableHighSpeedVideoConfigurations : Tag := 0x10023
def edgeMode : Tag := 0x30000
def edgeAvailableEdgeModes : Tag := 0x30002
def flashMode : Tag := 0x40002
def hotPixelAvailableHotPixelModes : Tag := 0x60001
def jpegGpsCoordinates : Tag := 0x70000
def jpegGpsProcessingMethod : Tag := 0x70001
def jpegGpsTimestamp : Tag := 0x70002
def jpegOrientation : Tag := 0x70003
def jpegQuality : Tag := 0x70004
def jpegThumbnailQuality : Tag := 0x70005
def jpegThumbnailSize : Tag := 0x70006
def lensAperture : Tag := 0x80000
def lensFocalLength : Tag := 0x80002
def lensFocusDistance : Tag := 0x80003
def lensOpticalStabilizationMode : Tag := 0x80004
def lensFocusRange : Tag := 0x80008
def lensState : Tag := 0x80009
def lensInfoMinimumFocusDistance : Tag := 0x90005
def lensInfoFocusDistanceCalibration : Tag := 0x90007
def noiseReductionMode : Tag := 0xA0000
def noiseReductionAvailableNoiseReductionModes : Tag := 0xA0002
def quirksUsePartialResult : Tag := 0xB0003
def requestMaxNumOutputStreams : Tag := 0xC0006
def requestMaxNumInputStreams : Tag := 0xC0008
def requestPipelineMaxDepth : Tag := 0xC000A
def requestPartialResultCount : Tag := 0xC000B
def requestAvailableCapabilities : Tag := 0xC000C
def requestAvailableRequestKeys : Tag := 0xC000D
def requestAvailableResultKeys : Tag := 0xC000E
def requestAvailableCharacteristicsKeys : Tag := 0xC000F
def scalerCropRegion : Tag := 0xD0000
def scalerAvailableFormats : Tag := 0xD0001
def scalerAvailableJpegMinDurations : Tag := 0xD0002
def scalerAvailableJpegSizes : Tag := 0xD0003
def scalerAvailableProcessedMinDurations : Tag := 0xD0005
def scalerAvailableProcessedSizes : Tag := 0xD0006
def scalerAvailableRawMinDurations : Tag := 0xD0007
def scalerAvailableRawSizes : Tag := 0xD0008
def scalerAvailableStreamConfigurations : Tag := 0xD000A
def scalerAvailableMinFrameDurations : Tag := 0xD000B
def scalerAvailableStallDurations : Tag := 0xD000C
def scalerCroppingType : Tag := 0xD000D
def sensorExposureTime : Tag := 0xE0000
def sensorTimestamp : Tag := 0xE0010
def sensorInfoTimestampSource : Tag := 0xF0008
def statisticsFaceDetectMode : Tag := 0x110000
def statisticsFaceRectangles : Tag := 0x110006
def statisticsFaceScores : Tag := 0x110007
def tonemapAvailableToneMapModes : Tag := 0x130005
def infoSupportedHardwareLevel : Tag := 0x150000
def syncMaxLatency : Tag := 0x170001

def halPixelFormatRgba8888 : Int := 0x1
def halPixelFormatBlob : Int := 0x21
def halPixelFormatImplementationDefined : Int := 0x22
def halPixelFormatYCbCr420888 : Int := 0x23
def streamConfigurationsOutput : Int := 0
def focusDistanceCalibrationApproximate : Int := 1
def hardwareLevelLimited : Int := 0
def capabilitiesBackwardCompatible : Int := 0
def maxLatencyUnknown : Int := -1
def timestampSourceUnknown : Int := 0
def croppingTypeCenterOnly : Int := 0
def edgeModeOff : Int := 0
def edgeModeFast : Int := 1
def noiseReductionModeOff : Int := 0
def noiseReductionModeFast : Int := 1
def hotPixelModeOff : Int := 0
def tonemapModeFast : Int := 1

/-- `kRequestKeys`. -/
def requestKeys : List Tag :=
  [controlAeAntibandingMode, controlAeExposureCompensation, controlAeLock, controlAeMode,
    controlAeRegions, controlAeTargetFpsRange, controlAePrecaptureTrigger, controlAfMode,
    controlAfRegions, controlAfTrigger, controlAwbLock, controlAwbMode, controlAwbRegions,
    controlCaptureIntent, controlEffectMode, controlMode, controlSceneMode,
    controlVideoStabilizationMode, edgeMode, flashMode, jpegGpsCoordinates, jpegGpsProcessingMethod,
    jpegGpsTimestamp, jpegOrientation, jpegQuality, jpegThumbnailQuality, jpegThumbnailSize,
    lensFocalLength, lensFocusDistance, lensOpticalStabilizationMode, noiseReductionMode,
    scalerCropRegion, statisticsFaceDetectMode]

/-- The results beyond the echoed request. -/
def measured : List Tag :=
  [controlAeState, controlAfState, controlAwbState, sensorExposureTime, sensorTimestamp, lensState,
    lensFocusRange, lensAperture, requestPipelineDepth, flashState, statisticsFaceRectangles,
    statisticsFaceScores]

/-- The tags of the old device that are erased. -/
def erasedTags : List Tag :=
  [controlAvailableHighSpeedVideoConfigurations, quirksUsePartialResult, scalerAvailableFormats,
    scalerAvailableJpegSizes, scalerAvailableJpegMinDurations, scalerAvailableProcessedSizes,
    scalerAvailableProcessedMinDurations, scalerAvailableRawSizes, scalerAvailableRawMinDurations]

/-- A tag as an element of a list of keys, which are of type `int32_t`. -/
def int32 (t : Tag) : Int := if t < 2147483648 then t else (t : Int) - 4294967296

end Tags

section Build

/-- The three stream tables, four elements for each stream. -/
structure Tables where
  configurations : Value
  minimums : Value
  stalls : Value
  deriving DecidableEq, Repr

/-- The loop over the sizes of one format. -/
def appendSizes (format : Int) (t : Tables) : Value → Value → Option Tables
  | width :: height :: sizes, duration :: durations =>
    if width ≤ 0 ∨ height ≤ 0 ∨ duration ≤ 0 then none
    else if format = halPixelFormatImplementationDefined ∧ 33334334 < duration then
      appendSizes format t sizes durations
    else
      appendSizes format
        { configurations := t.configurations ++ [format, width, height, streamConfigurationsOutput]
          minimums := t.minimums ++ [format, width, height, duration]
          stalls := t.stalls ++
            [format, width, height, if format = halPixelFormatBlob then duration else 0] }
        sizes durations
  | _, _ => some t

def appendFormat (m : Metadata) (t : Tables) (format : Int) : Option Tables :=
  if format ∉ find m scalerAvailableFormats then none
  else
    let jpeg := decide (format = halPixelFormatBlob)
    let sizes := find m (if jpeg then scalerAvailableJpegSizes else scalerAvailableProcessedSizes)
    let durations := find m
      (if jpeg then scalerAvailableJpegMinDurations else scalerAvailableProcessedMinDurations)
    if sizes = [] ∨ sizes.length % 2 ≠ 0 ∨ durations.length ≠ sizes.length / 2 then none
    else appendSizes format t sizes durations

def streamTables (m : Metadata) : Option Tables :=
  [halPixelFormatRgba8888, halPixelFormatImplementationDefined, halPixelFormatYCbCr420888,
    halPixelFormatBlob].foldlM (appendFormat m) ⟨[], [], []⟩

def put (o : Outcome) (t : Tag) (v : Value) : Outcome :=
  let r := tryUpdate o.rest o.metadata t v
  { r with ok := o.ok && r.ok }

def puts (o : Outcome) (entries : List (Tag × Value)) : Outcome :=
  entries.foldl (fun o e => put o e.1 e.2) o

def Tables.entries (t : Tables) : List (Tag × Value) :=
  [(scalerAvailableStreamConfigurations, t.configurations),
    (scalerAvailableMinFrameDurations, t.minimums), (scalerAvailableStallDurations, t.stalls)]

/-- Both zeros of the type float are equal to 0. -/
def isZeroFloat (bits : Int) : Bool := bits = 0 || bits = 0x80000000

/-- A lens that cannot focus has no autofocus regions. -/
def maxRegions (regions focus : Value) : Value :=
  let fixedFocus := decide (focus = []) || isZeroFloat (focus.headD 0)
  [regions.headD 0, regions.headD 0, if fixedFocus then 0 else regions.headD 0]

/-- What the adapter says of itself, whatever the stock device says. -/
def advertised (regions : Value) : List (Tag × Value) :=
  [(controlMaxRegions, regions),
    (lensInfoFocusDistanceCalibration, [focusDistanceCalibrationApproximate]),
    (infoSupportedHardwareLevel, [hardwareLevelLimited]),
    (requestAvailableCapabilities, [capabilitiesBackwardCompatible]),
    (requestMaxNumOutputStreams, [0, 3, 1]), (requestMaxNumInputStreams, [0]),
    (requestPipelineMaxDepth, [pipelineDepth]), (requestPartialResultCount, [1]),
    (syncMaxLatency, [maxLatencyUnknown]), (sensorInfoTimestampSource, [timestampSourceUnknown]),
    (scalerCroppingType, [croppingTypeCenterOnly]),
    (edgeAvailableEdgeModes, [edgeModeOff, edgeModeFast]),
    (noiseReductionAvailableNoiseReductionModes, [noiseReductionModeOff, noiseReductionModeFast]),
    (hotPixelAvailableHotPixelModes, [hotPixelModeOff]),
    (tonemapAvailableToneMapModes, [tonemapModeFast]),
    (controlAvailableVideoStabilizationModes, [videoStabilizationModeOff])]

/-- `std::sort`, then `std::unique`. -/
def sortUnique (keys : Value) : Value := (keys.insertionSort (· ≤ ·)).destutter (· ≠ ·)

def keyLists : List (Tag × Value) :=
  [(requestAvailableRequestKeys, requestKeys.map int32),
    (requestAvailableResultKeys, sortUnique ((requestKeys ++ measured).map int32))]

def characteristicKeys (m : Metadata) : Value :=
  sortUnique ((tags m).map int32 ++ [int32 requestAvailableCharacteristicsKeys])

/-- The updates after the stream tables, and the tags that go. -/
def describe (o : Outcome) (regions : Value) : Outcome :=
  let o := puts o (advertised regions)
  let o := puts { o with metadata := erasedTags.foldl erase o.metadata } keyLists
  put o requestAvailableCharacteristicsKeys (characteristicKeys o.metadata)

/-- What is published of a copy of the stock characteristics; `none` is an early `false`. -/
def publish (m : Metadata) (a : Allocations) : Option Outcome :=
  (streamTables m).bind fun tables =>
    let o := puts ⟨true, m, a⟩ tables.entries
    let regions := find o.metadata controlMaxRegions
    if regions.length ≠ 1 ∧ regions.length ≠ 3 then none
    else some (describe o (maxRegions regions (find o.metadata lensInfoMinimumFocusDistance)))

/-- `clone` is whether the stock characteristics could be copied. What it returns, and `output`. -/
def buildCharacteristics (stock : Option Metadata) (clone : Bool) (a : Allocations)
    (output : Metadata) : Bool × Metadata :=
  match (if clone then stock else none).bind fun m => publish m a with
  | none => (false, output)
  | some o => (o.ok, if o.ok then o.metadata else output)

end Build

section Updates

theorem find_lookup (m : Metadata) (t : Tag) : find m t = (lookup m t).getD [] := rfl

theorem mem_tags_iff (m : Metadata) (t : Tag) : t ∈ tags m ↔ lookup m t ≠ none := by
  rw [Ne, lookup_eq_none_iff, not_not]

theorem put_ok {o : Outcome} {t : Tag} {v : Value} (h : (put o t v).ok = true) :
    o.ok = true ∧ (put o t v).metadata = update o.metadata t v := by
  obtain ⟨hok, htry⟩ := Bool.and_eq_true_iff.mp h
  exact ⟨hok, tryUpdate_ok htry⟩

/-- Updates that all succeed give every tag the last value that was put there. -/
theorem puts_ok (entries : List (Tag × Value)) {o : Outcome} (h : (puts o entries).ok = true) :
    o.ok = true ∧
      ∀ t, lookup (puts o entries).metadata t = (given entries t).or (lookup o.metadata t) := by
  induction entries generalizing o with
  | nil => exact ⟨h, fun t => rfl⟩
  | cons e entries ih =>
    obtain ⟨hput, hrest⟩ := ih (o := put o e.1 e.2) h
    obtain ⟨hok, hmeta⟩ := put_ok hput
    refine ⟨hok, fun t => ?_⟩
    have hhead : lookup (puts o (e :: entries)).metadata t =
        (given entries t).or (lookup (put o e.1 e.2).metadata t) := hrest t
    rw [hhead, hmeta, lookup_update, given_cons]
    by_cases he : e.1 = t
    · simp [he]
    · simp [he, Ne.symm he]

/-- What is on the list is gone, everything else as before. -/
theorem lookup_erases (erased : List Tag) (m : Metadata) (t : Tag) :
    lookup (erased.foldl erase m) t = if t ∈ erased then none else lookup m t := by
  induction erased generalizing m with
  | nil => rfl
  | cons u erased ih =>
    rw [List.foldl_cons, ih, lookup_erase]
    by_cases hu : t = u
    · simp [hu]
    · simp [hu]

theorem sortUnique_eq (keys : Value) : sortUnique keys = (keys.insertionSort (· ≤ ·)).dedup :=
  (List.pairwise_insertionSort (· ≤ ·) keys).destutter_eq_dedup

/-- Sorting and dropping doubles loses no key. -/
theorem mem_sortUnique (keys : Value) (k : Int) : k ∈ sortUnique keys ↔ k ∈ keys := by
  rw [sortUnique_eq, List.mem_dedup, List.mem_insertionSort]

theorem sortUnique_strict (keys : Value) : (sortUnique keys).Pairwise (· < ·) := by
  have hle : (sortUnique keys).Pairwise (· ≤ ·) := by
    rw [sortUnique_eq]
    exact (List.pairwise_insertionSort (· ≤ ·) keys).sublist (List.dedup_sublist _)
  have hne : (sortUnique keys).Pairwise (· ≠ ·) := by
    rw [sortUnique_eq]
    exact List.nodup_dedup _
  exact (hle.and hne).imp fun h => lt_of_le_of_ne h.1 h.2

/-- No two tags are the same key. -/
theorem int32_inj {t u : Nat} (ht : t < 4294967296) (hu : u < 4294967296)
    (h : int32 t = int32 u) : t = u := by
  unfold int32 at h
  split at h <;> split at h <;> omega

end Updates

section Published

/-- What the metadata is before its tags are listed. -/
def Listed (m : Metadata) (tables : Tables) (regions : Value) (before : Metadata) : Prop :=
  ∀ t, lookup before t = (given keyLists t).or
    (if t ∈ erasedTags then none
    else (given (advertised regions) t).or ((given tables.entries t).or (lookup m t)))

/-- The values written in order; each tag ends with the last value given for it. -/
theorem describe_ok {o : Outcome} {regions : Value} (h : (describe o regions).ok = true) :
    o.ok = true ∧ ∃ before, (∀ t, lookup before t = (given keyLists t).or
        (if t ∈ erasedTags then none
        else (given (advertised regions) t).or (lookup o.metadata t))) ∧
      (describe o regions).metadata =
        update before requestAvailableCharacteristicsKeys (characteristicKeys before) := by
  obtain ⟨hlists, hkeys⟩ := put_ok h
  obtain ⟨hadvertised, hlisted⟩ := puts_ok _ hlists
  obtain ⟨hok, hall⟩ := puts_ok _ hadvertised
  refine ⟨hok, _, ?_, hkeys⟩
  intro t
  rw [hlisted t, lookup_erases, hall t]

/-- Stock entries are published with the new ones and without the old ones, and then listed. -/
theorem publish_ok {m : Metadata} {a : Allocations} {o : Outcome} (h : publish m a = some o)
    (hok : o.ok = true) : ∃ tables regions before, streamTables m = some tables ∧
      Listed m tables regions before ∧
      o.metadata = update before requestAvailableCharacteristicsKeys (characteristicKeys before) := by
  obtain ⟨tables, htables, hbody⟩ := Option.bind_eq_some_iff.mp h
  dsimp only at hbody
  obtain ⟨-, hdescribe⟩ := Option.ite_none_left_eq_some.mp hbody
  cases hdescribe
  obtain ⟨hstreams, before, hall, hmeta⟩ := describe_ok hok
  obtain ⟨-, htabled⟩ := puts_ok _ hstreams
  have hlisted : Listed m tables (maxRegions
      (find (puts ⟨true, m, a⟩ tables.entries).metadata controlMaxRegions)
      (find (puts ⟨true, m, a⟩ tables.entries).metadata lensInfoMinimumFocusDistance)) before := by
    intro t
    rw [hall t, htabled t]
  exact ⟨tables, _, before, htables, hlisted, hmeta⟩

/-- A build succeeds only through all of its parts. -/
theorem buildCharacteristics_ok {stock : Option Metadata} {clone : Bool} {a : Allocations}
    {output : Metadata} (h : (buildCharacteristics stock clone a output).1 = true) :
    ∃ m o, stock = some m ∧ publish m a = some o ∧ o.ok = true ∧
      (buildCharacteristics stock clone a output).2 = o.metadata := by
  unfold buildCharacteristics at h ⊢
  split at h
  · cases h
  · rename_i o ho
    obtain ⟨m, hm, hpublish⟩ := Option.bind_eq_some_iff.mp ho
    obtain ⟨-, hstock⟩ := Option.ite_none_right_eq_some.mp hm
    exact ⟨m, o, hstock, hpublish, h, if_pos h⟩

/-- A failed build leaves the output as it was. -/
theorem buildCharacteristics_fails {stock : Option Metadata} {clone : Bool} {a : Allocations}
    {output : Metadata} (h : (buildCharacteristics stock clone a output).1 = false) :
    (buildCharacteristics stock clone a output).2 = output := by
  unfold buildCharacteristics at h ⊢
  split at h
  · rfl
  · rename_i o ho
    have hnot : ¬o.ok = true := by simpa using h
    exact if_neg hnot

end Published

section Streams

/-- A size and its minimum frame duration. -/
structure Size where
  width : Int
  height : Int
  duration : Int
  deriving DecidableEq, Repr

def Size.positive (s : Size) : Prop := 0 < s.width ∧ 0 < s.height ∧ 0 < s.duration

/-- The table of sizes and the table of durations of the stock device. -/
structure Tabulates (sizes durations : Value) (rows : List Size) : Prop where
  sizes : sizes = rows.flatMap fun s => [s.width, s.height]
  durations : durations = rows.map fun s => s.duration

/-- The streams of the stock sizes. The opaque format leaves out what is slower than 30 frames a
second. -/
def offered (processed jpeg : List Size) : List (Int × Size) :=
  (processed.map fun s => (halPixelFormatRgba8888, s)) ++
  ((processed.filter fun s => s.duration ≤ 33334334).map fun s =>
    (halPixelFormatImplementationDefined, s)) ++
  (processed.map fun s => (halPixelFormatYCbCr420888, s)) ++
  jpeg.map fun s => (halPixelFormatBlob, s)

/-- The three tables for a list of streams. -/
def Tables.of (streams : List (Int × Size)) : Tables where
  configurations := streams.flatMap fun e =>
    [e.1, e.2.width, e.2.height, streamConfigurationsOutput]
  minimums := streams.flatMap fun e => [e.1, e.2.width, e.2.height, e.2.duration]
  stalls := streams.flatMap fun e =>
    [e.1, e.2.width, e.2.height, if e.1 = halPixelFormatBlob then e.2.duration else 0]

/-- The published tables are those of the streams that the stock tables allow. -/
def Translated (m r : Metadata) : Prop :=
  ∃ processed jpeg : List Size,
    Tabulates (find m scalerAvailableProcessedSizes) (find m scalerAvailableProcessedMinDurations)
      processed ∧
    Tabulates (find m scalerAvailableJpegSizes) (find m scalerAvailableJpegMinDurations) jpeg ∧
    find r scalerAvailableStreamConfigurations = (Tables.of (offered processed jpeg)).configurations ∧
    find r scalerAvailableMinFrameDurations = (Tables.of (offered processed jpeg)).minimums ∧
    find r scalerAvailableStallDurations = (Tables.of (offered processed jpeg)).stalls ∧
    ∀ e ∈ offered processed jpeg, e.2.positive

theorem Tabulates.cons (s : Size) {sizes durations : Value} {rows : List Size}
    (h : Tabulates sizes durations rows) :
    Tabulates (s.width :: s.height :: sizes) (s.duration :: durations) (s :: rows) := by
  refine ⟨?_, ?_⟩
  · rw [h.sizes]
    rfl
  · rw [h.durations]
    rfl

/-- The tables determine the rows. -/
theorem Tabulates.unique {sizes durations : Value} {rows others : List Size}
    (h : Tabulates sizes durations rows) (k : Tabulates sizes durations others) : rows = others := by
  induction rows generalizing sizes durations others with
  | nil =>
    have hlen := congrArg List.length (h.durations.symm.trans k.durations)
    exact (List.length_eq_zero_iff.mp (by simpa using hlen.symm)).symm
  | cons s rows ih =>
    obtain ⟨hs, hd⟩ := h
    cases others with
    | nil => simp [k.durations] at hd
    | cons o others =>
      obtain ⟨ks, kd⟩ := k
      rw [hs] at ks
      rw [hd] at kd
      simp only [List.flatMap_cons, List.cons_append, List.nil_append, List.cons.injEq,
        List.map_cons] at ks kd
      obtain ⟨hw, hh, hsizes⟩ := ks
      obtain ⟨hduration, hdurations⟩ := kd
      have hhead : s = o := by
        cases s
        cases o
        simp_all
      rw [hhead, ih ⟨rfl, rfl⟩ ⟨hsizes, hdurations⟩]

/-- A stream added at the end adds one entry to each of the three tables. -/
theorem Tables.of_snoc (streams : List (Int × Size)) (e : Int × Size) :
    Tables.of (streams ++ [e]) =
      { configurations := (Tables.of streams).configurations ++
          [e.1, e.2.width, e.2.height, streamConfigurationsOutput]
        minimums := (Tables.of streams).minimums ++ [e.1, e.2.width, e.2.height, e.2.duration]
        stalls := (Tables.of streams).stalls ++
          [e.1, e.2.width, e.2.height, if e.1 = halPixelFormatBlob then e.2.duration else 0] } := by
  simp [Tables.of]

/-- The sizes that are offered for a format. -/
def kept (format : Int) (rows : List Size) : List Size :=
  rows.filter fun s => ¬(format = halPixelFormatImplementationDefined ∧ 33334334 < s.duration)

/-- The loop over the rows, by induction on them. -/
theorem appendSizes_ok {format : Int} {streams : List (Int × Size)} {sizes durations : Value}
    {t : Tables} (h : appendSizes format (Tables.of streams) sizes durations = some t)
    (hlen : sizes.length = 2 * durations.length) : ∃ rows, Tabulates sizes durations rows ∧
      (∀ s ∈ rows, s.positive) ∧
      t = Tables.of (streams ++ (kept format rows).map fun s => (format, s)) := by
  induction durations generalizing sizes streams with
  | nil =>
    have hnil : sizes = [] := List.length_eq_zero_iff.mp hlen
    subst hnil
    cases h
    exact ⟨[], ⟨rfl, rfl⟩, by simp, by simp [kept]⟩
  | cons duration durations ih =>
    match sizes, hlen with
    | width :: height :: sizes, hlen =>
      have hrest : sizes.length = 2 * durations.length := by
        simp only [List.length_cons] at hlen
        omega
      rw [appendSizes] at h
      obtain ⟨hpos, h⟩ := Option.ite_none_left_eq_some.mp h
      have hpositive : (Size.mk width height duration).positive := by
        simp only [not_or, not_le] at hpos
        exact hpos
      by_cases hslow : format = halPixelFormatImplementationDefined ∧ 33334334 < duration
      · rw [if_pos hslow] at h
        obtain ⟨rows, htab, hrows, rfl⟩ := ih h hrest
        refine ⟨⟨width, height, duration⟩ :: rows, htab.cons ⟨width, height, duration⟩, ?_, ?_⟩
        · exact List.forall_mem_cons.mpr ⟨hpositive, hrows⟩
        · simp [kept, hslow]
      · rw [if_neg hslow] at h
        have hsnoc := Tables.of_snoc streams (format, ⟨width, height, duration⟩)
        rw [← hsnoc] at h
        obtain ⟨rows, htab, hrows, rfl⟩ := ih h hrest
        refine ⟨⟨width, height, duration⟩ :: rows, htab.cons ⟨width, height, duration⟩, ?_, ?_⟩
        · exact List.forall_mem_cons.mpr ⟨hpositive, hrows⟩
        · have hhead : kept format (⟨width, height, duration⟩ :: rows) =
              ⟨width, height, duration⟩ :: kept format rows := by
            rw [kept, List.filter_cons, if_pos (by exact decide_eq_true hslow)]
            rfl
          rw [hhead, List.map_cons, List.append_assoc]
          rfl

/-- The stock tables that a format takes its sizes from. -/
def sizesTag (format : Int) : Tag :=
  if format = halPixelFormatBlob then scalerAvailableJpegSizes else scalerAvailableProcessedSizes

def durationsTag (format : Int) : Tag :=
  if format = halPixelFormatBlob then scalerAvailableJpegMinDurations
  else scalerAvailableProcessedMinDurations

/-- The rows of one format, when both tables have as many. -/
theorem appendFormat_ok {m : Metadata} {streams : List (Int × Size)} {format : Int} {t : Tables}
    (h : appendFormat m (Tables.of streams) format = some t) : ∃ rows,
      Tabulates (find m (sizesTag format)) (find m (durationsTag format)) rows ∧
      (∀ s ∈ rows, s.positive) ∧
      t = Tables.of (streams ++ (kept format rows).map fun s => (format, s)) := by
  unfold appendFormat at h
  obtain ⟨-, h⟩ := Option.ite_none_left_eq_some.mp h
  dsimp only at h
  obtain ⟨hshape, h⟩ := Option.ite_none_left_eq_some.mp h
  simp only [decide_eq_true_eq] at hshape h
  change ¬(find m (sizesTag format) = [] ∨ (find m (sizesTag format)).length % 2 ≠ 0 ∨
    (find m (durationsTag format)).length ≠ (find m (sizesTag format)).length / 2) at hshape
  refine appendSizes_ok h ?_
  omega

/-- Only for implementation-defined buffers are slow sizes left out. -/
theorem kept_all {format : Int} (h : format ≠ halPixelFormatImplementationDefined)
    (rows : List Size) : kept format rows = rows := by
  apply List.filter_eq_self.mpr
  intro s _
  simp [h]

theorem kept_implementationDefined (rows : List Size) : kept halPixelFormatImplementationDefined rows =
    rows.filter fun s => s.duration ≤ 33334334 := by
  simp [kept]

/-- The four formats take turns on two stock tables. -/
theorem streamTables_ok {m : Metadata} {t : Tables} (h : streamTables m = some t) :
    ∃ processed jpeg,
      Tabulates (find m scalerAvailableProcessedSizes) (find m scalerAvailableProcessedMinDurations)
        processed ∧
      Tabulates (find m scalerAvailableJpegSizes) (find m scalerAvailableJpegMinDurations) jpeg ∧
      t = Tables.of (offered processed jpeg) ∧ ∀ s ∈ processed ++ jpeg, s.positive := by
  unfold streamTables at h
  simp only [List.foldlM_cons, List.foldlM_nil, Option.bind_eq_bind, Option.bind_eq_some_iff,
    Option.pure_def, Option.some.injEq] at h
  obtain ⟨rgba, hrgba, opaqueTables, hopaque, ycbcr, hycbcr, blob, hblob, rfl⟩ := h
  have hfirst : appendFormat m (Tables.of []) halPixelFormatRgba8888 = some rgba := hrgba
  obtain ⟨processed, htab, hpositive, rfl⟩ := appendFormat_ok hfirst
  obtain ⟨second, hsecond, -, rfl⟩ := appendFormat_ok hopaque
  obtain ⟨third, hthird, -, rfl⟩ := appendFormat_ok hycbcr
  obtain ⟨jpeg, hjpeg, hjpegs, rfl⟩ := appendFormat_ok hblob
  cases hsecond.unique htab
  cases hthird.unique htab
  refine ⟨processed, jpeg, htab, hjpeg, ?_, ?_⟩
  · rw [kept_implementationDefined, kept_all (by decide), kept_all (by decide),
      kept_all (by decide)]
    rfl
  · intro s hs
    rcases List.mem_append.mp hs with hs | hs
    · exact hpositive s hs
    · exact hjpegs s hs

/-- What is offered was in the tables of the stock camera. -/
theorem offered_from {processed jpeg : List Size} {e : Int × Size}
    (h : e ∈ offered processed jpeg) : e.2 ∈ processed ++ jpeg := by
  simp only [offered, List.mem_append, List.mem_map, List.mem_filter] at h
  rcases h with ((⟨s, hs, rfl⟩ | ⟨s, ⟨hs, -⟩, rfl⟩) | ⟨s, hs, rfl⟩) | ⟨s, hs, rfl⟩
  · exact List.mem_append_left _ hs
  · exact List.mem_append_left _ hs
  · exact List.mem_append_left _ hs
  · exact List.mem_append_right _ hs

/-- The three lists published are the tables built. -/
theorem Listed.find_tables {m before : Metadata} {t : Tables} {regions : Value}
    (h : Listed m t regions before) :
    find before scalerAvailableStreamConfigurations = t.configurations ∧
      find before scalerAvailableMinFrameDurations = t.minimums ∧
      find before scalerAvailableStallDurations = t.stalls := by
  refine ⟨?_, ?_, ?_⟩
  · rw [find_lookup, h scalerAvailableStreamConfigurations]
    rfl
  · rw [find_lookup, h scalerAvailableMinFrameDurations]
    rfl
  · rw [find_lookup, h scalerAvailableStallDurations]
    rfl

theorem find_update_ne (m : Metadata) {t u : Tag} (v : Value) (h : u ≠ t) :
    find (update m t v) u = find m u := by
  rw [find_lookup, lookup_update, if_neg h, find_lookup]

/-- A build that succeeds translates the stock tables into three tables of the same streams; one
that fails leaves its output alone. -/
theorem stream_tables_translated (stock : Option Metadata) (clone : Bool) (a : Allocations)
    (output : Metadata) :
    ((buildCharacteristics stock clone a output).1 = true → ∃ m, stock = some m ∧
      Translated m (buildCharacteristics stock clone a output).2) ∧
    ((buildCharacteristics stock clone a output).1 = false →
      (buildCharacteristics stock clone a output).2 = output) := by
  refine ⟨?_, buildCharacteristics_fails⟩
  intro h
  obtain ⟨m, o, hstock, hpublish, hok, hmeta⟩ := buildCharacteristics_ok h
  obtain ⟨tables, regions, before, htables, hlisted, hkeys⟩ := publish_ok hpublish hok
  obtain ⟨processed, jpeg, hprocessed, hjpeg, rfl, hpositive⟩ := streamTables_ok htables
  obtain ⟨hconfigurations, hminimums, hstalls⟩ := hlisted.find_tables
  refine ⟨m, hstock, processed, jpeg, hprocessed, hjpeg, ?_, ?_, ?_, ?_⟩
  · rw [hmeta, hkeys, find_update_ne _ _ (by decide), hconfigurations]
  · rw [hmeta, hkeys, find_update_ne _ _ (by decide), hminimums]
  · rw [hmeta, hkeys, find_update_ne _ _ (by decide), hstalls]
  · intro e he
    exact hpositive _ (offered_from he)

/-- A sensor whose larger mode is slow, with a stale list of keys and a vendor tag. -/
def slowSensor : Metadata :=
  [(scalerAvailableFormats, [0x22, 0x1, 0x21, 0x23]),
    (scalerAvailableProcessedSizes, [1280, 720, 2592, 1944]),
    (scalerAvailableProcessedMinDurations, [33333333, 66666667]),
    (scalerAvailableJpegSizes, [2592, 1944]), (scalerAvailableJpegMinDurations, [66666667]),
    (controlMaxRegions, [4]), (requestAvailableCharacteristicsKeys, [0x10023]),
    (controlAvailableHighSpeedVideoConfigurations, [640, 480, 120]), (0x80000001, [7])]

/-- The general theorem at a sensor with one slow and one fast size. -/
theorem slowSensor_translated : ∃ m, some slowSensor = some m ∧
    Translated m (buildCharacteristics (some slowSensor) true [] []).2 :=
  (stream_tables_translated (some slowSensor) true [] []).1 (by decide +kernel)

/-- The slow mode is there for every format but the opaque one. -/
example : find (buildCharacteristics (some slowSensor) true [] []).2 scalerAvailableStallDurations =
    [0x1, 1280, 720, 0, 0x1, 2592, 1944, 0, 0x22, 1280, 720, 0, 0x23, 1280, 720, 0,
      0x23, 2592, 1944, 0, 0x21, 2592, 1944, 66666667] := by
  decide +kernel

end Streams

section Keys

/-- The tags that get a value of the adapter's own. -/
def writtenTags : List Tag :=
  tags (Tables.of []).entries ++ tags (advertised []) ++ tags keyLists ++
    [requestAvailableCharacteristicsKeys]

/-- The published metadata of some stock metadata lists its own tags. -/
structure SelfDescribed (m r : Metadata) : Prop where
  keysSorted : (find r requestAvailableCharacteristicsKeys).Pairwise (· < ·)
  keys : ∀ k, k ∈ find r requestAvailableCharacteristicsKeys ↔ ∃ t ∈ tags r, int32 t = k
  listed : ∀ t, t < 4294967296 →
    (int32 t ∈ find r requestAvailableCharacteristicsKeys ↔ t ∈ tags r)
  included : requestAvailableCharacteristicsKeys ∈ tags r
  resultsSorted : (find r requestAvailableResultKeys).Pairwise (· < ·)
  results : ∀ k ∈ find r requestAvailableRequestKeys, k ∈ find r requestAvailableResultKeys
  requests : find r requestAvailableRequestKeys = requestKeys.map int32
  erased : ∀ t ∈ erasedTags, t ∉ tags r ∧ int32 t ∉ find r requestAvailableCharacteristicsKeys ∧
    int32 t ∉ find r requestAvailableRequestKeys ∧ int32 t ∉ find r requestAvailableResultKeys
  unchanged : ∀ t, t ∉ erasedTags → t ∉ writtenTags → lookup r t = lookup m t

theorem given_eq_none_iff (raw : Metadata) (t : Tag) : given raw t = none ↔ t ∉ tags raw := by
  rw [given, lookup_eq_none_iff]
  simp [tags]

/-- Before the tags are listed, they are those of the stock entries and the written ones. -/
theorem Listed.mem_tags {m before : Metadata} {tables : Tables} {regions : Value}
    (h : Listed m tables regions before) {t : Tag} (ht : t ∈ tags before) :
    t ∈ writtenTags ∨ (t ∉ erasedTags ∧ t ∈ tags m) := by
  rw [mem_tags_iff, h t, Ne, Option.or_eq_none_iff, not_and_or] at ht
  rcases ht with ht | ht
  · rw [given_eq_none_iff, not_not] at ht
    exact .inl (by simp [writtenTags, ht])
  · split at ht
    · exact absurd rfl ht
    · rename_i hkept
      rw [Option.or_eq_none_iff, Option.or_eq_none_iff, given_eq_none_iff, given_eq_none_iff,
        lookup_eq_none_iff] at ht
      by_cases hadvertised : t ∈ tags (advertised regions)
      · have hsame : t ∈ tags (advertised []) := hadvertised
        exact .inl (by simp [writtenTags, hsame])
      · by_cases htables : t ∈ tags tables.entries
        · have hsame : t ∈ tags (Tables.of []).entries := htables
          exact .inl (by simp [writtenTags, hsame])
        · refine .inr ⟨hkept, ?_⟩
          by_contra hm
          exact ht ⟨hadvertised, htables, hm⟩

/-- A tag that is neither erased nor written keeps its stock value. -/
theorem Listed.unwritten {m before : Metadata} {tables : Tables} {regions : Value}
    (h : Listed m tables regions before) {t : Tag} (hkept : t ∉ erasedTags)
    (ht : t ∉ writtenTags) : lookup before t = lookup m t := by
  simp only [writtenTags, List.mem_append, not_or] at ht
  obtain ⟨⟨⟨htables, hadvertised⟩, hlists⟩, -⟩ := ht
  have hnone : given tables.entries t = none := (given_eq_none_iff _ _).mpr htables
  have hnew : given (advertised regions) t = none := (given_eq_none_iff _ _).mpr hadvertised
  rw [h t, (given_eq_none_iff _ _).mpr hlists, if_neg hkept, hnew, hnone]
  rfl

theorem mem_tags_update (m : Metadata) (t u : Tag) (v : Value) :
    u ∈ tags (update m t v) ↔ u = t ∨ u ∈ tags m := by
  rw [mem_tags_iff, mem_tags_iff, lookup_update]
  by_cases hu : u = t
  · simp [hu]
  · simp [hu]

theorem find_update_eq (m : Metadata) (t : Tag) (v : Value) : find (update m t v) t = v := by
  rw [find_lookup, lookup_update, if_pos rfl]
  rfl

theorem writtenTags_kept {t : Tag} (h : t ∈ erasedTags) : t ∉ writtenTags := by
  revert t
  decide

theorem writtenTags_lt {t : Nat} (h : t ∈ writtenTags) : t < 4294967296 := by
  revert t
  decide

theorem erasedTags_lt {t : Nat} (h : t ∈ erasedTags) : t < 4294967296 := by
  revert t
  decide

/-- What is erased is not announced as a key. -/
theorem erasedTags_unlisted {t : Tag} (h : t ∈ erasedTags) :
    int32 t ∉ (requestKeys ++ measured).map int32 := by
  revert t
  decide

/-- The list of keys is that of the final tags, though it is made before it is there itself. -/
theorem mem_characteristicKeys (before : Metadata) (v : Value) (k : Int) :
    k ∈ characteristicKeys before ↔
      ∃ t ∈ tags (update before requestAvailableCharacteristicsKeys v), int32 t = k := by
  rw [characteristicKeys, mem_sortUnique, List.mem_append, List.mem_map, List.mem_singleton]
  constructor
  · rintro (⟨t, ht, rfl⟩ | rfl)
    · exact ⟨t, (mem_tags_update _ _ _ _).mpr (.inr ht), rfl⟩
    · exact ⟨_, (mem_tags_update _ _ _ _).mpr (.inl rfl), rfl⟩
  · rintro ⟨t, ht, rfl⟩
    rcases (mem_tags_update _ _ _ _).mp ht with rfl | ht
    · exact .inr rfl
    · exact .inl ⟨t, ht, rfl⟩

/-- The published metadata: the list of keys goes in last. -/
def published (before : Metadata) : Metadata :=
  update before requestAvailableCharacteristicsKeys (characteristicKeys before)

section Published

variable {m before : Metadata} {tables : Tables} {regions : Value}

/-- Every published tag is one that is written or one kept from the stock. -/
theorem Listed.mem_published (h : Listed m tables regions before) {t : Tag}
    (ht : t ∈ tags (published before)) : t ∈ writtenTags ∨ (t ∉ erasedTags ∧ t ∈ tags m) := by
  rcases (mem_tags_update _ _ _ _).mp ht with rfl | ht
  · exact .inl (by decide)
  · exact h.mem_tags ht

theorem Listed.published_lt (h : Listed m tables regions before) (hwidth : ∀ t ∈ tags m, t < 4294967296)
    {t : Nat} (ht : t ∈ tags (published before)) : t < 4294967296 := by
  rcases h.mem_published ht with hw | ⟨-, hm⟩
  · exact writtenTags_lt hw
  · exact hwidth t hm

/-- On 32 bits no two tags have one key. -/
theorem Listed.mem_keys (h : Listed m tables regions before) (hwidth : ∀ t ∈ tags m, t < 4294967296)
    {t : Nat} (ht : t < 4294967296) :
    int32 t ∈ characteristicKeys before ↔ t ∈ tags (published before) := by
  rw [mem_characteristicKeys before (characteristicKeys before)]
  constructor
  · rintro ⟨u, hu, heq⟩
    rwa [← int32_inj (h.published_lt hwidth hu) ht heq]
  · intro hu
    exact ⟨t, hu, rfl⟩

/-- The request keys published are the list of the source. -/
theorem Listed.find_requests (h : Listed m tables regions before) :
    find (published before) requestAvailableRequestKeys = requestKeys.map int32 := by
  rw [published, find_update_ne _ _ (by decide), find_lookup, h]
  rfl

/-- The result keys published, sorted and without doubles. -/
theorem Listed.find_results (h : Listed m tables regions before) :
    find (published before) requestAvailableResultKeys =
      sortUnique ((requestKeys ++ measured).map int32) := by
  rw [published, find_update_ne _ _ (by decide), find_lookup, h]
  rfl

/-- What was erased is not published. -/
theorem Listed.erased (h : Listed m tables regions before) {t : Tag} (ht : t ∈ erasedTags) :
    t ∉ tags (published before) := by
  intro hpresent
  rcases h.mem_published hpresent with hw | ⟨hkept, -⟩
  · exact writtenTags_kept ht hw
  · exact hkept ht

end Published

/-- Every build that succeeds publishes metadata that describe themselves. Tags are 32 bits wide. -/
theorem characteristics_describe_themselves (m : Metadata) (clone : Bool) (a : Allocations)
    (output : Metadata) (hwidth : ∀ t ∈ tags m, t < 4294967296)
    (h : (buildCharacteristics (some m) clone a output).1 = true) :
    SelfDescribed m (buildCharacteristics (some m) clone a output).2 := by
  obtain ⟨_, o, hstock, hpublish, hok, hmeta⟩ := buildCharacteristics_ok h
  cases hstock
  obtain ⟨tables, regions, before, -, hlisted, hkeys⟩ := publish_ok hpublish hok
  have hpublished : (buildCharacteristics (some m) clone a output).2 = published before :=
    hmeta.trans hkeys
  have hown : find (published before) requestAvailableCharacteristicsKeys = characteristicKeys before :=
    find_update_eq _ _ _
  have hrequests := hlisted.find_requests
  have hresults := hlisted.find_results
  rw [hpublished]
  constructor
  case keysSorted =>
    rw [hown]
    exact sortUnique_strict _
  case keys =>
    rw [hown]
    exact mem_characteristicKeys before _
  case listed =>
    rw [hown]
    intro t ht
    exact hlisted.mem_keys hwidth ht
  case included => exact (mem_tags_update _ _ _ _).mpr (.inl rfl)
  case resultsSorted =>
    rw [hresults]
    exact sortUnique_strict _
  case results =>
    rw [hrequests, hresults]
    intro k hk
    rw [mem_sortUnique, List.map_append]
    exact List.mem_append_left _ hk
  case requests => exact hrequests
  case erased =>
    intro t ht
    have hgone := hlisted.erased ht
    rw [hown, hlisted.mem_keys hwidth (erasedTags_lt ht), hrequests, hresults, mem_sortUnique]
    exact ⟨hgone, hgone, fun hk => erasedTags_unlisted ht (by simp [List.map_append, hk]),
      erasedTags_unlisted ht⟩
  case unchanged =>
    intro t hkept ht
    have hne : t ≠ requestAvailableCharacteristicsKeys := by
      rintro rfl
      exact ht (by decide)
    rw [published, lookup_update, if_neg hne, hlisted.unwritten hkept ht]

theorem slowSensor_describes_itself :
    SelfDescribed slowSensor (buildCharacteristics (some slowSensor) true [] []).2 :=
  characteristics_describe_themselves slowSensor true [] [] (by decide) (by decide +kernel)

end Keys

end CameraMetadata
