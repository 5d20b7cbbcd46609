import Mocha.CameraParameters2

/-!
# Sizes and numbers in the camera parameters

The values that are pairs (`640x480`, `10000,20000`), lists of sizes and numbers: what the
getters of both classes read out of the strings that the setters print.
-/
namespace CameraParameters

open CString

section Reading

/-- The pair, and the end pointer. The delimiter has to follow the first number at once. -/
def parsePair (str : Str) (delim : Char) : Option ((Int × Int) × Str) :=
  let first := strtol 10 str
  match first.2 with
  | [] => none
  | c :: rest =>
    if c ≠ delim then none
    else some ((first.1, (strtol 10 rest).1), (strtol 10 rest).2)

def parseSizesLoop : Nat → Str → List (Int × Int)
  | 0, _ => []
  | fuel + 1, sizeStartPtr =>
    match parsePair sizeStartPtr 'x' with
    | none => []
    | some (size, []) => [size]
    | some (size, c :: rest) => if c ≠ ',' then [] else size :: parseSizesLoop fuel rest

/-- A null pointer gives no sizes; an error ends the list where it stands. -/
def parseSizesList : Option Str → List (Int × Int)
  | none => []
  | some sizesStr => parseSizesLoop (sizesStr.length + 1) sizesStr

/-- The getters of pairs: `-1` twice where there is nothing to read. -/
def readPair (p : Option Str) (delim : Char) : Int × Int :=
  match p with
  | none => (-1, -1)
  | some p => ((parsePair p delim).map fun b => b.1).getD (-1, -1)

def printPair (delim : Char) (size : Int × Int) : Str :=
  printDecimal size.1 ++ delim :: printDecimal size.2

end Reading

section Members

def keyPreviewSize : Str := "preview-size".toList
def keySupportedPreviewSizes : Str := "preview-size-values".toList
def keyPreviewFormat : Str := "preview-format".toList
def keyPreviewFrameRate : Str := "preview-frame-rate".toList
def keyPreviewFpsRange : Str := "preview-fps-range".toList
def keyPictureSize : Str := "picture-size".toList
def keySupportedPictureSizes : Str := "picture-size-values".toList
def keyPictureFormat : Str := "picture-format".toList
def keyVideoSize : Str := "video-size".toList
def keySupportedVideoSizes : Str := "video-size-values".toList
def keyPreferredPreviewSizeForVideo : Str := "preferred-preview-size-for-video".toList

variable (m : Assoc Str Str)

def setSize (key : Str) (width height : Int) : Assoc Str Str :=
  set m (some key) (some (printPair 'x' (width, height)))

def setPreviewSize (width height : Int) : Assoc Str Str := setSize m keyPreviewSize width height
def setVideoSize (width height : Int) : Assoc Str Str := setSize m keyVideoSize width height
def setPictureSize (width height : Int) : Assoc Str Str := setSize m keyPictureSize width height
def setPreviewFrameRate (fps : Int) : Assoc Str Str := setInt m keyPreviewFrameRate fps
def setPreviewFormat (format : Option Str) : Assoc Str Str := set m (some keyPreviewFormat) format
def setPictureFormat (format : Option Str) : Assoc Str Str := set m (some keyPictureFormat) format

def getPreviewSize : Int × Int := readPair (get m keyPreviewSize) 'x'
def getVideoSize : Int × Int := readPair (get m keyVideoSize) 'x'
def getPictureSize : Int × Int := readPair (get m keyPictureSize) 'x'
def getPreferredPreviewSizeForVideo : Int × Int :=
  readPair (get m keyPreferredPreviewSizeForVideo) 'x'
def getPreviewFpsRange : Int × Int := readPair (get m keyPreviewFpsRange) ','
def getPreviewFrameRate : Int := getInt m keyPreviewFrameRate
def getPreviewFormat : Option Str := get m keyPreviewFormat
def getPictureFormat : Option Str := get m keyPictureFormat
def getSupportedPreviewSizes : List (Int × Int) := parseSizesList (get m keySupportedPreviewSizes)
def getSupportedVideoSizes : List (Int × Int) := parseSizesList (get m keySupportedVideoSizes)
def getSupportedPictureSizes : List (Int × Int) := parseSizesList (get m keySupportedPictureSizes)

end Members

section Pairs

/-- The range of an `int`. -/
def IsInt (n : Int) : Prop := longMin ≤ n ∧ n ≤ longMax

/-- A printed pair is read back, up to what follows it. -/
theorem parsePair_print {delim : Char} (hdelim : digitIn 10 delim = none) {size : Int × Int}
    (hw : IsInt size.1) (hh : IsInt size.2) {rest : Str}
    (hrest : ∀ c ∈ rest.head?, digitIn 10 c = none) :
    parsePair (printPair delim size ++ rest) delim = some (size, rest) := by
  have hfirst : strtol 10 (printPair delim size ++ rest) =
      (size.1, delim :: (printDecimal size.2 ++ rest)) := by
    rw [printPair, List.append_assoc, List.cons_append]
    refine strtol_print hw.1 hw.2 fun c hc => ?_
    rw [List.head?_cons, Option.mem_some_iff] at hc
    rw [← hc]
    exact hdelim
  have hsecond := strtol_print hh.1 hh.2 hrest
  rw [parsePair]
  simp only [hfirst, hsecond, ne_eq, not_true_eq_false, if_false]

theorem readPair_print {delim : Char} (hdelim : digitIn 10 delim = none) {size : Int × Int}
    (hw : IsInt size.1) (hh : IsInt size.2) : readPair (some (printPair delim size)) delim = size := by
  have hend : ∀ c ∈ ([] : Str).head?, digitIn 10 c = none := by simp
  have hparse := parsePair_print hdelim hw hh hend
  rw [List.append_nil] at hparse
  rw [readPair, hparse]
  rfl

/-- Each pair takes up at least its delimiter. -/
theorem parsePair_length {str rest : Str} {delim : Char} {size : Int × Int}
    (h : parsePair str delim = some (size, rest)) : rest.length < str.length := by
  have hfirst := strtol_length str
  rw [parsePair] at h
  cases hend : (strtol 10 str).2 with
  | nil =>
    simp only [hend] at h
    cases h
  | cons c tail =>
    simp only [hend] at h
    split_ifs at h
    cases h
    have hsecond := strtol_length tail
    rw [hend, List.length_cons] at hfirst
    omega

/-- Any fuel above the length of the text gives the same list. -/
theorem parseSizesLoop_fuel {fuel fuel' : Nat} {str : Str} (h : str.length < fuel)
    (h' : str.length < fuel') : parseSizesLoop fuel str = parseSizesLoop fuel' str := by
  induction fuel generalizing fuel' str with
  | zero => omega
  | succ fuel ih =>
    cases fuel' with
    | zero => omega
    | succ fuel' =>
      rw [parseSizesLoop, parseSizesLoop]
      cases hpair : parsePair str 'x' with
      | none => rfl
      | some b =>
        obtain ⟨size, rest⟩ := b
        have hlen := parsePair_length hpair
        cases rest with
        | nil => rfl
        | cons c rest =>
          rw [List.length_cons] at hlen
          have hrest : parseSizesLoop fuel rest = parseSizesLoop fuel' rest :=
            ih (by omega) (by omega)
          simp only [hrest]

/-- The sizes of a list, as the camera driver prints them. -/
def sizesText : List (Int × Int) → Str
  | [] => []
  | [size] => printPair 'x' size
  | size :: next :: sizes => printPair 'x' size ++ ',' :: sizesText (next :: sizes)

/-- The first size is read and the loop goes on behind the comma. -/
theorem parseSizesList_cons {size : Int × Int} (hw : IsInt size.1) (hh : IsInt size.2)
    (rest : Str) :
    parseSizesList (some (printPair 'x' size ++ ',' :: rest)) =
      size :: parseSizesList (some rest) := by
  have hx : digitIn 10 'x' = none := by decide
  have hcomma : ∀ c ∈ (',' :: rest).head?, digitIn 10 c = none := by
    intro c hc
    cases hc
    decide
  have hpair := parsePair_print hx hw hh hcomma
  rw [parseSizesList, parseSizesLoop, hpair, parseSizesList]
  simp only [ne_eq, not_true_eq_false, if_false]
  rw [parseSizesLoop_fuel]
  · simp only [List.length_append, List.length_cons]
    omega
  · exact Nat.lt_succ_self _

theorem parseSizesList_single {size : Int × Int} (hw : IsInt size.1) (hh : IsInt size.2) :
    parseSizesList (some (printPair 'x' size)) = [size] := by
  have hx : digitIn 10 'x' = none := by decide
  have hend : ∀ c ∈ ([] : Str).head?, digitIn 10 c = none := by simp
  have hpair := parsePair_print hx hw hh hend
  rw [List.append_nil] at hpair
  rw [parseSizesList, parseSizesLoop, hpair]

/-- A printed list is read back, and behind a comma the reading goes on: whatever is wrong
there, the sizes before it are kept. -/
theorem sizes_listed {sizes : List (Int × Int)} (h : ∀ size ∈ sizes, IsInt size.1 ∧ IsInt size.2) :
    parseSizesList (some (sizesText sizes)) = sizes ∧
      (sizes ≠ [] → ∀ rest, parseSizesList (some (sizesText sizes ++ ',' :: rest)) =
        sizes ++ parseSizesList (some rest)) := by
  induction sizes with
  | nil => exact ⟨rfl, fun hne => absurd rfl hne⟩
  | cons size sizes ih =>
    obtain ⟨hw, hh⟩ := h size List.mem_cons_self
    obtain ⟨hlist, hmore⟩ := ih fun s hs => h s (List.mem_cons_of_mem size hs)
    cases sizes with
    | nil =>
      refine ⟨parseSizesList_single hw hh, fun _ rest => ?_⟩
      exact parseSizesList_cons hw hh rest
    | cons next sizes =>
      rw [sizesText]
      refine ⟨?_, fun _ rest => ?_⟩
      · rw [parseSizesList_cons hw hh, hlist]
      · rw [List.append_assoc, List.cons_append, parseSizesList_cons hw hh, hmore (by simp)]
        rfl

theorem sizes_listed_previews :
    parseSizesList (some (sizesText [(1920, 1080), (640, 480)] ++ ',' :: ['8', 'x', '6', '!'])) =
      [(1920, 1080), (640, 480)] := by
  have hints : ∀ size ∈ [((1920 : Int), (1080 : Int)), (640, 480)],
      IsInt size.1 ∧ IsInt size.2 := by
    simp [IsInt, longMin, longMax]
  rw [(sizes_listed hints).2 (by simp)]
  decide

end Pairs

section Kept

/-- A call that leaves a key as it is. -/
def Call.spares (key : Str) (c : Call) : Prop := ∀ old, rewritten key old c = old

theorem spared_run {key : Str} {calls : List Call} (h : ∀ c ∈ calls, c.spares key)
    (old : Option Str) : calls.foldl (rewritten key) old = old := by
  induction calls generalizing old with
  | nil => rfl
  | cons c calls ih =>
    rw [List.foldl_cons, h c List.mem_cons_self]
    exact ih (fun d hd => h d (List.mem_cons_of_mem c hd)) old

/-- A printed pair can be stored. -/
theorem printPair_clean {delim : Char} (hdelim : invalid [delim] = false) (size : Int × Int) :
    invalid (printPair delim size) = false := by
  obtain ⟨heq, hsemi⟩ := invalid_eq_false.mp hdelim
  obtain ⟨heq1, hsemi1⟩ := printDecimal_clean size.1
  obtain ⟨heq2, hsemi2⟩ := printDecimal_clean size.2
  simp only [List.mem_singleton] at heq hsemi
  refine invalid_eq_false.mpr ⟨?_, ?_⟩
  · simp [printPair, heq, heq1, heq2]
  · simp [printPair, hsemi, hsemi1, hsemi2]

/-- A string that was set is what `get` gives until a call rewrites its key. -/
theorem get_kept (m : Assoc Str Str) {key v : Str} (hkey : invalid key = false)
    (hv : invalid v = false) (hne : v ≠ []) {calls : List Call}
    (h : ∀ c ∈ calls, c.spares key) :
    get (calls.foldl call (set m (some key) (some v))) key = some v := by
  have hrun := get_run (set m (some key) (some v)) key calls
  rw [spared_run h, get_set, if_pos ⟨rfl, hkey, hv⟩] at hrun
  have hlen : v.length ≠ 0 := by simpa using hne
  simp only [get, hrun, Option.getD_some]
  rw [if_neg hlen]

theorem printPair_ne_nil (delim : Char) (size : Int × Int) : printPair delim size ≠ [] := by
  simp [printPair]

theorem printDecimal_ne_nil (value : Int) : printDecimal value ≠ [] := by
  obtain ⟨c, cs, hcons, -⟩ := printUnsigned_cons value.natAbs
  simp [printDecimal, hcons]

theorem getInt_kept (m : Assoc Str Str) {key : Str} (hkey : invalid key = false) {value : Int}
    (hvalue : IsInt value) {calls : List Call} (h : ∀ c ∈ calls, c.spares key) :
    getInt (calls.foldl call (setInt m key value)) key = value := by
  have hprint : invalid (printDecimal value) = false :=
    invalid_eq_false.mpr (printDecimal_clean value)
  have hget := get_kept m hkey hprint (printDecimal_ne_nil value) h
  rw [getInt, setInt, hget]
  simp only [strtol_zero_print hvalue.1 hvalue.2]

theorem readPair_kept (m : Assoc Str Str) {key : Str} (hkey : invalid key = false)
    {size : Int × Int} (hw : IsInt size.1) (hh : IsInt size.2) {calls : List Call}
    (h : ∀ c ∈ calls, c.spares key) :
    readPair (get (calls.foldl call (setSize m key size.1 size.2)) key) 'x' = size := by
  have hx : digitIn 10 'x' = none := by decide
  have hget := get_kept m hkey (printPair_clean (by decide) size) (printPair_ne_nil 'x' size) h
  rw [setSize, hget, readPair_print hx hw hh]

end Kept

end CameraParameters

namespace CameraParameters2

open CString CameraParameters

section Members

variable (m : Assoc Str Str)

def setPair (key : Str) (delim : Char) (first second : Int) : Assoc Str Str :=
  set m key (printPair delim (first, second))

def setPreviewSize (width height : Int) : Assoc Str Str :=
  setPair m keyPreviewSize 'x' width height
def setVideoSize (width height : Int) : Assoc Str Str := setPair m keyVideoSize 'x' width height
def setPictureSize (width height : Int) : Assoc Str Str :=
  setPair m keyPictureSize 'x' width height
def setPreviewFpsRange (minFps maxFps : Int) : Assoc Str Str :=
  setPair m keyPreviewFpsRange ',' minFps maxFps
def setPreviewFrameRate (fps : Int) : Assoc Str Str := setInt m keyPreviewFrameRate fps
def setPreviewFormat (format : Str) : Assoc Str Str := set m keyPreviewFormat format
def setPictureFormat (format : Str) : Assoc Str Str := set m keyPictureFormat format

def getPreviewSize : Int × Int := readPair (get m keyPreviewSize) 'x'
def getVideoSize : Int × Int := readPair (get m keyVideoSize) 'x'
def getPictureSize : Int × Int := readPair (get m keyPictureSize) 'x'
def getPreferredPreviewSizeForVideo : Int × Int :=
  readPair (get m keyPreferredPreviewSizeForVideo) 'x'
def getPreviewFpsRange : Int × Int := readPair (get m keyPreviewFpsRange) ','
def getPreviewFrameRate : Int := getInt m keyPreviewFrameRate
def getPreviewFormat : Option Str := get m keyPreviewFormat
def getPictureFormat : Option Str := get m keyPictureFormat
def getSupportedPreviewSizes : List (Int × Int) := parseSizesList (get m keySupportedPreviewSizes)
def getSupportedVideoSizes : List (Int × Int) := parseSizesList (get m keySupportedVideoSizes)
def getSupportedPictureSizes : List (Int × Int) := parseSizesList (get m keySupportedPictureSizes)

end Members

section Kept

/-- A call that leaves the values under a key as they are. -/
def Call.spares (key : Str) (c : Call) : Prop := ∀ q, queued key q c = q

theorem spared_run {key : Str} {calls : List Call} (h : ∀ c ∈ calls, c.spares key)
    (q : List Str) : calls.foldl (queued key) q = q := by
  induction calls generalizing q with
  | nil => rfl
  | cons c calls ih =>
    rw [List.foldl_cons, h c List.mem_cons_self]
    exact ih (fun d hd => h d (List.mem_cons_of_mem c hd)) q

/-- Where a key is there at most once, what is set is what `get` gives. -/
theorem get_kept {m : Assoc Str Str} {key v : Str} (hm : (valuesOf key m).length ≤ 1)
    (hkey : invalid key = false) (hv : invalid v = false) {calls : List Call}
    (h : ∀ c ∈ calls, c.spares key) : get (calls.foldl call (set m key v)) key = some v := by
  have htail : (valuesOf key m).tail = [] := by
    rw [← List.length_eq_zero_iff, List.length_tail]
    omega
  rw [get_eq_head, valuesOf_run, spared_run h, valuesOf_set, if_pos ⟨rfl, hkey, hv⟩, htail]
  rfl

theorem getInt_kept {m : Assoc Str Str} {key : Str} (hm : (valuesOf key m).length ≤ 1)
    (hkey : invalid key = false) {value : Int} (hvalue : IsInt value) {calls : List Call}
    (h : ∀ c ∈ calls, c.spares key) :
    getInt (calls.foldl call (setInt m key value)) key = value := by
  have hprint : invalid (printDecimal value) = false :=
    invalid_eq_false.mpr (printDecimal_clean value)
  rw [getInt, setInt, get_kept hm hkey hprint h]
  simp only [strtol_zero_print hvalue.1 hvalue.2]

theorem readPair_kept {m : Assoc Str Str} {key : Str} (hm : (valuesOf key m).length ≤ 1)
    (hkey : invalid key = false) {delim : Char} (hdigit : digitIn 10 delim = none)
    (hdelim : invalid [delim] = false) {pair : Int × Int} (hfirst : IsInt pair.1)
    (hsecond : IsInt pair.2) {calls : List Call} (h : ∀ c ∈ calls, c.spares key) :
    readPair (get (calls.foldl call (setPair m key delim pair.1 pair.2)) key) delim = pair := by
  rw [setPair, get_kept hm hkey (printPair_clean hdelim pair) h]
  exact readPair_print hdigit hfirst hsecond

/-- What the setters of numbers and pairs print is what the getters read, also when any calls
that spare the key come between; `CameraParameters2` needs the key to be there at most once. -/
theorem numbers_kept {key : Str} (hkey : invalid key = false) {pair : Int × Int} {value : Int}
    (hfirst : IsInt pair.1) (hsecond : IsInt pair.2) (hvalue : IsInt value) :
    (∀ (m : Assoc Str Str) (calls : List CameraParameters.Call), (∀ c ∈ calls, c.spares key) →
      readPair (CameraParameters.get (calls.foldl CameraParameters.call
        (setSize m key pair.1 pair.2)) key) 'x' = pair ∧
      CameraParameters.getInt (calls.foldl CameraParameters.call
        (CameraParameters.setInt m key value)) key = value) ∧
    ∀ (m : Assoc Str Str) (calls : List Call),
      (valuesOf key m).length ≤ 1 → (∀ c ∈ calls, c.spares key) →
      readPair (get (calls.foldl call (setPair m key 'x' pair.1 pair.2)) key) 'x' = pair ∧
      readPair (get (calls.foldl call (setPair m key ',' pair.1 pair.2)) key) ',' = pair ∧
      getInt (calls.foldl call (setInt m key value)) key = value := by
  have hx : digitIn 10 'x' = none := by decide
  have hcomma : digitIn 10 ',' = none := by decide
  constructor
  · intro m calls h
    exact ⟨CameraParameters.readPair_kept m hkey hfirst hsecond h,
      CameraParameters.getInt_kept m hkey hvalue h⟩
  · intro m calls hm h
    exact ⟨readPair_kept hm hkey hx (by decide) hfirst hsecond h,
      readPair_kept hm hkey hcomma (by decide) hfirst hsecond h,
      getInt_kept hm hkey hvalue h⟩

theorem videoSize_kept :
    CameraParameters.getVideoSize
      ([.setInt keyPreviewFrameRate 30].foldl CameraParameters.call
        (CameraParameters.setVideoSize [] (-1) 1080)) = (-1, 1080) ∧
    getVideoSize ([.remove keyPictureSize].foldl call (setVideoSize [] (-1) 1080)) =
      (-1, 1080) := by
  have hclean : invalid keyVideoSize = false := by decide
  have hint : ∀ n ∈ [(-1 : Int), 1080, 30], IsInt n := by
    simp [IsInt, longMin, longMax]
  have hkept := @numbers_kept keyVideoSize hclean (-1, 1080) 30 (hint _ (by simp))
    (hint _ (by simp)) (hint _ (by simp))
  have hrate : ∀ c ∈ [CameraParameters.Call.setInt keyPreviewFrameRate 30],
      c.spares keyVideoSize := by
    intro c hc old
    have hother : ¬(keyPreviewFrameRate = keyVideoSize ∧ invalid keyPreviewFrameRate = false) := by
      decide
    rw [List.mem_singleton.mp hc, rewritten, if_neg hother]
  have hpicture : ∀ c ∈ [Call.remove keyPictureSize], c.spares keyVideoSize := by
    intro c hc q
    have hother : keyPictureSize ≠ keyVideoSize := by decide
    rw [List.mem_singleton.mp hc, queued, if_neg hother]
  exact ⟨(hkept.1 [] _ hrate).1, (hkept.2 [] _ (by decide) hpicture).1⟩

end Kept

end CameraParameters2
