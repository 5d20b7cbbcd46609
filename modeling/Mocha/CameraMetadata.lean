import Mathlib.Data.List.Nodup

/-!
# Camera metadata of the HAL3.0 adapter

`CameraMetadata` is a finite map from tags to values whose `update` replaces. An
update can fail when it needs memory, so the outcomes of the allocations are an
argument: one entry for each update, and success when the list has run out.
-/
namespace CameraMetadata

abbrev Tag := Nat

abbrev Value := List Int

abbrev Metadata := List (Tag × Value)

abbrev Allocations := List Bool

def controlAeMode : Tag := 0x10003
def controlAeTargetFpsRange : Tag := 0x10005
def controlAePrecaptureTrigger : Tag := 0x10006
def controlAfMode : Tag := 0x10007
def controlAfTrigger : Tag := 0x10009
def controlVideoStabilizationMode : Tag := 0x10011
def controlAeAvailableModes : Tag := 0x10013
def controlAeAvailableTargetFpsRanges : Tag := 0x10014
def controlAfAvailableModes : Tag := 0x10017
def controlAePrecaptureId : Tag := 0x1001E
def controlAfTriggerId : Tag := 0x10021
def flashState : Tag := 0x40005
def quirksPartialResult : Tag := 0xB0004
def requestPipelineDepth : Tag := 0xC0009

def aeModeOn : Int := 1
def afModeOff : Int := 0
def afTriggerIdle : Int := 0
def aePrecaptureTriggerStart : Int := 1
def videoStabilizationModeOff : Int := 0
def flashStateUnavailable : Int := 0
def partialResultPartial : Int := 1

/-- `kPipelineDepth`. -/
def pipelineDepth : Int := 8

/-- The value of a tag; a missing tag has no elements. -/
def find (m : Metadata) (t : Tag) : Value := ((m.find? fun e => e.1 = t).map fun e => e.2).getD []

def update (m : Metadata) (t : Tag) (v : Value) : Metadata :=
  if m.any fun e => e.1 = t then m.map fun e => if e.1 = t then (t, v) else e else m ++ [(t, v)]

def erase (m : Metadata) (t : Tag) : Metadata := m.filter fun e => e.1 ≠ t

/-- What a metadata operation reports, its map, and the allocations left. -/
structure Outcome where
  ok : Bool
  metadata : Metadata
  rest : Allocations
  deriving DecidableEq, Repr

def tryUpdate (a : Allocations) (m : Metadata) (t : Tag) (v : Value) : Outcome :=
  match a with
  | false :: rest => ⟨false, m, rest⟩
  | true :: rest => ⟨true, update m t v, rest⟩
  | [] => ⟨true, update m t v, []⟩

/-- One of the two mode checks: an unsupported mode is replaced. -/
def normalizeMode (o : Outcome) (characteristics : Metadata) (control supported : Tag)
    (replacement : Int) : Option Outcome :=
  match find o.metadata control with
  | [mode] =>
    let modes := find characteristics supported
    if modes = [] then none
    else if modes.contains mode then some o
    else
      let r := tryUpdate o.rest o.metadata control [replacement]
      some { r with ok := o.ok && r.ok }
  | _ => some o

def validFpsRange : Value → Bool
  | [low, high] => decide (0 < low) && decide (low ≤ high)
  | _ => false

def normalizeFpsRange (o : Outcome) (characteristics : Metadata) : Option Outcome :=
  if validFpsRange (find o.metadata controlAeTargetFpsRange) then some o
  else
    let ranges := find characteristics controlAeAvailableTargetFpsRanges
    if ranges.length < 2 then none
    else
      let r := tryUpdate o.rest o.metadata controlAeTargetFpsRange (ranges.take 2)
      some { r with ok := o.ok && r.ok }

def normalizeStabilization (o : Outcome) : Outcome :=
  if find o.metadata controlVideoStabilizationMode = [videoStabilizationModeOff] then o
  else
    let r := tryUpdate o.rest o.metadata controlVideoStabilizationMode [videoStabilizationModeOff]
    { r with ok := o.ok && r.ok }

/-- `none` is the early `false`, after which the request is not used. -/
def normalizeRequest (a : Allocations) (request characteristics : Metadata) : Option Outcome :=
  (normalizeMode ⟨true, request, a⟩ characteristics controlAeMode controlAeAvailableModes
    aeModeOn).bind fun o =>
  (normalizeMode o characteristics controlAfMode controlAfAvailableModes afModeOff).bind fun o =>
  (normalizeFpsRange o characteristics).map normalizeStabilization

def mergeMetadata (a : Allocations) (destination : Metadata) : Metadata → Outcome
  | [] => ⟨true, destination, a⟩
  | entry :: rest =>
    if entry.1 = quirksPartialResult then mergeMetadata a destination rest
    else
      let r := tryUpdate a destination entry.1 entry.2
      if r.ok then mergeMetadata r.rest r.metadata rest else r

/-- The values measured in the partial packets replace the echoed ones. -/
def finishResult (a : Allocations) (result partials : Metadata) : Outcome :=
  let merged := mergeMetadata a result partials
  let depth := tryUpdate merged.rest (erase merged.metadata quirksPartialResult)
    requestPipelineDepth [pipelineDepth]
  let flash := tryUpdate depth.rest depth.metadata flashState [flashStateUnavailable]
  { flash with ok := merged.ok && depth.ok && flash.ok }

/-- Whether a stock packet is marked as a partial one. -/
def isPartial (raw : Metadata) : Bool :=
  (raw.find? fun e => e.1 = quirksPartialResult) = some (quirksPartialResult, [partialResultPartial])

section Lookup

/-- The value of a tag, if it has one. -/
def lookup (m : Metadata) (t : Tag) : Option Value := (m.find? fun e => e.1 = t).map fun e => e.2

/-- The value that a packet gives to a tag. A packet may repeat a tag, and its last entry counts. -/
def given (raw : Metadata) (t : Tag) : Option Value := lookup raw.reverse t

def tags (m : Metadata) : List Tag := m.map fun e => e.1

/-- The value in the last of some packets that has the tag. -/
def latest (packets : List Metadata) (t : Tag) : Option Value :=
  packets.reverse.findSome? fun raw => given raw t

/-- The metadata that a client should get for some partial packets and the final one. -/
def expected (packets : List Metadata) (final : Metadata) (t : Tag) : Option Value :=
  if t = requestPipelineDepth then some [pipelineDepth]
  else if t = flashState then some [flashStateUnavailable]
  else if t = quirksPartialResult then none
  else (latest packets t).or (given final t)

theorem lookup_cons (e : Tag × Value) (m : Metadata) (t : Tag) :
    lookup (e :: m) t = if e.1 = t then some e.2 else lookup m t := by
  by_cases h : e.1 = t <;> simp [lookup, h]

/-- The first of two lists that has the tag answers. -/
theorem lookup_append (m n : Metadata) (t : Tag) :
    lookup (m ++ n) t = (lookup m t).or (lookup n t) := by
  induction m with
  | nil => rfl
  | cons e m ih =>
    rw [List.cons_append, lookup_cons, lookup_cons, ih]
    split <;> rfl

/-- A tag has no value exactly when no entry carries it. -/
theorem lookup_eq_none_iff (m : Metadata) (t : Tag) : lookup m t = none ↔ t ∉ tags m := by
  rw [lookup, Option.map_eq_none_iff, List.find?_eq_none]
  simp only [tags, List.mem_map, decide_eq_true_eq]
  constructor
  · rintro h ⟨e, he, rfl⟩
    exact h e he rfl
  · rintro h e he rfl
    exact h ⟨e, he, rfl⟩

theorem given_cons (e : Tag × Value) (raw : Metadata) (t : Tag) :
    given (e :: raw) t = (given raw t).or (if e.1 = t then some e.2 else none) := by
  rw [given, List.reverse_cons, lookup_append, lookup_cons]
  rfl

theorem given_eq_lookup {m : Metadata} (h : (tags m).Nodup) (t : Tag) : given m t = lookup m t := by
  induction m with
  | nil => rfl
  | cons e m ih =>
    obtain ⟨hnot, hrest⟩ := List.nodup_cons.mp h
    rw [given_cons, lookup_cons, ih hrest]
    by_cases he : e.1 = t
    · have hnone : lookup m t = none := (lookup_eq_none_iff m t).mpr (he ▸ hnot)
      simp [he, hnone]
    · simp [he]

/-- Replacing in place changes the value of that tag only, and adds none. -/
theorem lookup_replace (m : Metadata) (t u : Tag) (v : Value) :
    lookup (m.map fun e => if e.1 = t then (t, v) else e) u =
      if u = t then (lookup m t).map fun _ => v else lookup m u := by
  induction m with
  | nil => simp [lookup]
  | cons e m ih =>
    rw [List.map_cons, lookup_cons, ih, lookup_cons, lookup_cons]
    by_cases he : e.1 = t
    · by_cases hu : u = t
      · simp [he, hu]
      · simp [he, hu, Ne.symm hu]
    · by_cases hu : u = t
      · simp [he, hu]
      · simp [he, hu]

/-- An update is seen under its own tag and under no other. -/
theorem lookup_update (m : Metadata) (t u : Tag) (v : Value) :
    lookup (update m t v) u = if u = t then some v else lookup m u := by
  unfold update
  split
  · rename_i hany
    have hsome : lookup m t ≠ none := by
      rw [Ne, lookup_eq_none_iff, not_not]
      simpa [tags] using hany
    obtain ⟨w, hw⟩ := Option.ne_none_iff_exists'.mp hsome
    rw [lookup_replace, hw]
    rfl
  · rename_i hany
    have hnone : lookup m t = none := by
      rw [lookup_eq_none_iff]
      simpa [tags] using hany
    rw [lookup_append, lookup_cons]
    by_cases hu : u = t
    · simp [hu, hnone]
    · simp [hu, Ne.symm hu, lookup]

theorem update_ne_nil (m : Metadata) (t : Tag) (v : Value) : update m t v ≠ [] := by
  unfold update
  split
  · rename_i hany
    intro hnil
    rw [List.map_eq_nil_iff.mp hnil] at hany
    cases hany
  · exact List.append_ne_nil_of_right_ne_nil m (List.cons_ne_nil _ _)

/-- An update never makes an entry double. -/
theorem update_tags (m : Metadata) (t : Tag) (v : Value) (h : (tags m).Nodup) :
    (tags (update m t v)).Nodup := by
  unfold update
  split
  · have hmap : tags (m.map fun e => if e.1 = t then (t, v) else e) = tags m := by
      rw [tags, List.map_map]
      apply List.map_congr_left
      intro e _
      by_cases he : e.1 = t <;> simp [he]
    rw [hmap]
    exact h
  · rename_i hany
    have hnot : t ∉ tags m := by simpa [tags] using hany
    rw [tags, List.map_append]
    refine List.nodup_append.mpr ⟨h, List.nodup_singleton t, ?_⟩
    rintro a ha b hb rfl
    rw [List.mem_singleton.mp hb] at ha
    exact hnot ha

/-- An erased tag is gone; the others keep their values. -/
theorem lookup_erase (m : Metadata) (t u : Tag) :
    lookup (erase m t) u = if u = t then none else lookup m u := by
  induction m with
  | nil => simp [lookup, erase]
  | cons e m ih =>
    rw [erase] at ih ⊢
    by_cases he : e.1 = t
    · rw [List.filter_cons_of_neg (by simpa using he), ih, lookup_cons]
      by_cases hu : u = t
      · simp [hu]
      · simp [he, hu, Ne.symm hu]
    · rw [List.filter_cons_of_pos (by simpa using he), lookup_cons, ih, lookup_cons]
      by_cases hu : u = t
      · simp [hu, he]
      · simp [hu]

/-- An update that reports success has been made. -/
theorem tryUpdate_ok {a : Allocations} {m : Metadata} {t : Tag} {v : Value}
    (h : (tryUpdate a m t v).ok = true) : (tryUpdate a m t v).metadata = update m t v := by
  unfold tryUpdate at h ⊢
  split at h
  · cases h
  · rfl
  · rfl

/-- A merge that succeeds gives every tag of the source its value there. -/
theorem mergeMetadata_ok (source : Metadata) (a : Allocations) (m : Metadata)
    (h : (mergeMetadata a m source).ok = true) (hm : (tags m).Nodup) :
    (tags (mergeMetadata a m source).metadata).Nodup ∧
    ∀ t, lookup (mergeMetadata a m source).metadata t =
      if t = quirksPartialResult then lookup m t else (given source t).or (lookup m t) := by
  induction source generalizing a m with
  | nil => exact ⟨hm, fun t => by simp [mergeMetadata, given, lookup]⟩
  | cons entry source ih =>
    rw [mergeMetadata] at h ⊢
    by_cases hq : entry.1 = quirksPartialResult
    · rw [if_pos hq] at h ⊢
      obtain ⟨hnodup, hlookup⟩ := ih a m h hm
      refine ⟨hnodup, fun t => ?_⟩
      rw [hlookup t, given_cons]
      by_cases ht : t = quirksPartialResult
      · simp [ht]
      · simp [ht, hq, Ne.symm ht]
    · rw [if_neg hq] at h ⊢
      by_cases hok : (tryUpdate a m entry.1 entry.2).ok = true
      · rw [if_pos hok] at h ⊢
        rw [tryUpdate_ok hok] at h ⊢
        obtain ⟨hnodup, hlookup⟩ := ih _ _ h (update_tags m _ _ hm)
        refine ⟨hnodup, fun t => ?_⟩
        rw [hlookup t, lookup_update, given_cons]
        by_cases ht : t = quirksPartialResult
        · simp [ht, Ne.symm hq]
        · by_cases he : t = entry.1
          · subst he
            simp [ht]
          · simp [ht, he, Ne.symm he]
      · rw [if_neg hok] at h
        exact absurd h hok

/-- The newest packet that gives the tag decides. -/
theorem latest_append (packets : List Metadata) (raw : Metadata) (t : Tag) :
    latest (packets ++ [raw]) t = (given raw t).or (latest packets t) := by
  simp only [latest, List.reverse_append, List.reverse_singleton, List.singleton_append,
    List.findSome?_cons]
  cases given raw t <;> rfl

/-- `partials` holds what some packets measured. -/
structure Collects (packets : List Metadata) (partials : Metadata) : Prop where
  nodup : (tags partials).Nodup
  lookup : ∀ t, lookup partials t = if t = quirksPartialResult then none else latest packets t

theorem Collects.empty : Collects [] [] :=
  ⟨List.nodup_nil, fun t => by simp [CameraMetadata.lookup, latest]⟩

/-- Merging one more packet collects it as well. -/
theorem Collects.snoc {packets : List Metadata} {partials raw : Metadata} {a : Allocations}
    (h : Collects packets partials) (hok : (mergeMetadata a partials raw).ok = true) :
    Collects (packets ++ [raw]) (mergeMetadata a partials raw).metadata := by
  obtain ⟨hnodup, hlookup⟩ := mergeMetadata_ok raw a partials hok h.nodup
  refine ⟨hnodup, fun t => ?_⟩
  rw [hlookup t, h.lookup t, latest_append]
  by_cases ht : t = quirksPartialResult <;> simp [ht]

/-- A final packet that could be finished is what the client should get. -/
theorem finishResult_expected {packets : List Metadata} {partials final : Metadata} {a b : Allocations}
    (h : Collects packets partials) (hfinal : (mergeMetadata a [] final).ok = true)
    (hok : (finishResult b (mergeMetadata a [] final).metadata partials).ok = true) (t : Tag) :
    lookup (finishResult b (mergeMetadata a [] final).metadata partials).metadata t =
      expected packets final t := by
  obtain ⟨hnodup, hlookup⟩ := mergeMetadata_ok final a [] hfinal List.nodup_nil
  generalize (mergeMetadata a [] final).metadata = echoed at hnodup hlookup hok ⊢
  simp only [finishResult, Bool.and_eq_true] at hok ⊢
  obtain ⟨⟨hmerged, hdepth⟩, hflash⟩ := hok
  obtain ⟨-, hall⟩ := mergeMetadata_ok partials b echoed hmerged hnodup
  rw [tryUpdate_ok hflash, tryUpdate_ok hdepth, lookup_update, lookup_update, lookup_erase, hall t,
    hlookup t, given_eq_lookup h.nodup, h.lookup t]
  unfold expected
  by_cases hd : t = requestPipelineDepth
  · subst hd
    simp [requestPipelineDepth, flashState]
  · by_cases hf : t = flashState
    · simp [hf, requestPipelineDepth, flashState]
    · by_cases hq : t = quirksPartialResult
      · subst hq
        simp [hd, hf]
      · simp [hd, hf, hq, lookup]

end Lookup

end CameraMetadata
