import Mathlib.Algebra.Order.BigOperators.Group.List
import Mathlib.Algebra.Order.Group.Nat
import Mocha.AudioUseCount

/-!
# What closing a stream writes

`release_stream` disconnects the devices of a stream by itself, with the two
paths in the other order than `apply_route`: first "off", then the stream's
disable path. Here the control settings that the passes write are followed one
by one, in order.
-/
namespace TinyHal

open Mask

/-- The control settings of some paths, as they are written. -/
def settings (mixer : Mixer) (paths : List Path) : List Ctl :=
  paths.flatMap fun p => writtenCtls mixer p.ctls

/-- The settings that the passes between two states of the manager wrote. -/
def addedSettings (cm cm' : ConfigMgr) : List Ctl :=
  (cm'.walks.drop cm.walks.length).flatMap fun w => w.visits.flatMap fun v => settings cm.mixer v.applied

/-- The paths that `apply_paths_by_id_l` finds. -/
def foundPaths (d : Device) (firstId secondId : Int) : Option Path × Option Path :=
  let found := findPaths firstId secondId 0 (none, none) d.paths
  (found.1.bind fun p => d.paths[p]?, found.2.bind fun p => d.paths[p]?)

/-- What is left of a path that was found: the use count, and the path if it is applied. -/
def reach (count : Int) : Option Path → Int × List Path
  | none => (count, [])
  | some path => ((bump count path.id).1, if (bump count path.id).2 then [path] else [])

def chosenPaths (d : Device) (firstId secondId : Int) : List Path :=
  let found := foundPaths d firstId secondId
  let first := reach d.useCount found.1
  first.2 ++ (reach first.1 found.2).2

/-- The paths that a pass applies to the device at a position. -/
def chosenAt (cm : ConfigMgr) (firstId secondId : Int) (k : Nat) : List Path :=
  match cm.devices[k]? with
  | some d => chosenPaths d firstId secondId
  | none => []

/-- The settings of a pass over some devices. -/
def passSettings (cm : ConfigMgr) (firstId secondId : Int) (js : List Nat) : List Ctl :=
  js.flatMap fun j => settings cm.mixer (chosenAt cm firstId secondId j)

section Order

/-- Asking for two different ids in the other order finds the same paths. -/
theorem findPaths_swap {firstId secondId : Int} (hne : firstId ≠ secondId) :
    ∀ (paths : List Path) (p : Nat) (found : Option Nat × Option Nat),
      findPaths secondId firstId p (found.2, found.1) paths =
        ((findPaths firstId secondId p found paths).2, (findPaths firstId secondId p found paths).1) := by
  intro paths
  induction paths with
  | nil => exact fun _ _ => rfl
  | cons path rest ih =>
    intro p found
    unfold findPaths
    by_cases hfirst : path.id = firstId
    · have hsecond : path.id ≠ secondId := fun h => hne (hfirst.symm.trans h)
      simp only [if_pos hfirst, if_neg hsecond, hne, or_false]
      by_cases hsome : found.2.isSome = true
      · simp [hsome]
      · simp only [hsome]
        exact ih (p + 1) (some p, found.2)
    · by_cases hsecond : path.id = secondId
      · simp only [if_neg hfirst, if_pos hsecond, hne.symm, or_false]
        by_cases hsome : found.1.isSome = true
        · simp [hsome]
        · simp only [hsome]
          exact ih (p + 1) (found.1, some p)
      · simp only [if_neg hfirst, if_neg hsecond]
        exact ih (p + 1) found

/-- Asked for in the other order, the same two paths are found. -/
theorem foundPaths_swap (d : Device) {firstId secondId : Int} (hne : firstId ≠ secondId) :
    foundPaths d secondId firstId = ((foundPaths d firstId secondId).2, (foundPaths d firstId secondId).1) := by
  unfold foundPaths
  rw [findPaths_swap hne d.paths 0 (none, none)]

theorem foundPaths_same (d : Device) (id : Int) : (foundPaths d id id).2 = none := by
  obtain ⟨-, -, hsame⟩ := findPaths_spec d.paths id id d.paths 0 (none, none) rfl
    (fun q hq => absurd hq (Nat.not_lt_zero q)) (fun _ q hq => absurd hq (Nat.not_lt_zero q))
    (fun _ => rfl)
  unfold foundPaths
  dsimp only
  rw [hsame rfl]
  rfl

/-- What is found carries the id it was looked for under. -/
theorem foundPaths_ids (d : Device) (firstId secondId : Int) :
    (∀ path ∈ (foundPaths d firstId secondId).1, path.id = firstId) ∧
      ∀ path ∈ (foundPaths d firstId secondId).2, path.id = secondId := by
  obtain ⟨hfirst, hsecond, hsame⟩ := findPaths_spec d.paths firstId secondId d.paths 0 (none, none) rfl
    (fun q hq => absurd hq (Nat.not_lt_zero q)) (fun _ q hq => absurd hq (Nat.not_lt_zero q))
    (fun _ => rfl)
  have hmem {id : Int} {o : Option Nat} (h : Found d.paths d.paths.length id o) :
      ∀ path ∈ o.bind fun p => d.paths[p]?, path.id = id := by
    intro path hpath
    obtain ⟨p, rfl, hp⟩ := Option.bind_eq_some_iff.mp hpath
    obtain ⟨path', hp', hid⟩ := h
    cases hp.symm.trans hp'
    exact hid
  unfold foundPaths
  dsimp only
  constructor
  · exact hmem hfirst
  · by_cases hne : secondId = firstId
    · rw [hsame hne]
      exact fun _ h => nomatch h
    · exact hmem (hsecond hne)

end Order

section Writes

theorem settings_append (mixer : Mixer) (paths paths' : List Path) :
    settings mixer (paths ++ paths') = settings mixer paths ++ settings mixer paths' :=
  List.flatMap_append

/-- Which controls are written depends on the layout of the mixer only. -/
theorem settings_congr {mixer mixer' : Mixer} (h : SameLayout mixer mixer') (paths : List Path) :
    settings mixer' paths = settings mixer paths := by
  unfold settings
  congr 1
  funext p
  exact writtenCtls_congr h p.ctls

theorem writeCtls_append (mixer : Mixer) (ctls ctls' : List Ctl) :
    writeCtls mixer (ctls ++ ctls') = writeCtls (writeCtls mixer ctls) ctls' :=
  List.foldl_append

/-- What has been applied to a device since it was `d`, and the mixer that this left. -/
structure Wrote (mixer : Mixer) (count : Int) (paths : List Path) (a : Applying) : Prop where
  applied : a.applied = paths
  count : a.device.useCount = count
  mixer : a.mixer = writeCtls mixer (settings mixer paths)

theorem Wrote.layout {mixer : Mixer} {count : Int} {paths : List Path} {a : Applying}
    (h : Wrote mixer count paths a) : SameLayout mixer a.mixer := by
  rw [h.mixer]
  exact writeCtls_layout mixer _

theorem Wrote.apply {mixer : Mixer} {count : Int} {paths : List Path} {a : Applying}
    (h : Wrote mixer count paths a) (p : Nat) (path : Path) :
    Wrote mixer count (paths ++ [path]) (applyPathL a p path) where
  applied := congrArg (fun l => l ++ [path]) h.applied
  count := h.count
  mixer := by
    show (applyCtlsL a.mixer path.ctls).1 = _
    have hone : settings mixer [path] = writtenCtls mixer path.ctls := List.flatMap_singleton _ _
    rw [applyCtlsL_written, writtenCtls_congr h.layout, settings_append, writeCtls_append, hone,
      ← h.mixer]

/-- A path of the walk is written when its count says so. -/
theorem Wrote.reach {mixer : Mixer} {count : Int} {paths : List Path} {a : Applying}
    (h : Wrote mixer count paths a) {p : Nat} {path : Path} (hp : a.device.paths[p]? = some path) :
    Wrote mixer (reach count (some path)).1 (paths ++ (reach count (some path)).2)
      (applyDevicePathL a p) := by
  have hmove (c : Int) : Wrote mixer c paths { a with device := { a.device with useCount := c } } :=
    ⟨h.applied, rfl, h.mixer⟩
  unfold applyDevicePathL TinyHal.reach bump
  rw [hp, ← h.count]
  dsimp only
  by_cases hoff : path.id = pathIdOff
  · rw [if_pos hoff, if_pos hoff]
    by_cases hpos : a.device.useCount - 1 > 0
    · have hskip : ¬ a.device.useCount - 1 ≤ 0 := by omega
      rw [if_pos hpos]
      simpa [hskip] using hmove (a.device.useCount - 1)
    · have happly : a.device.useCount - 1 ≤ 0 := by omega
      rw [if_neg hpos]
      simpa [happly] using (hmove (a.device.useCount - 1)).apply p path
  · rw [if_neg hoff, if_neg hoff]
    by_cases hon : path.id = pathIdOn
    · rw [if_pos hon, if_pos hon]
      by_cases hpos : a.device.useCount + 1 > 1
      · have hskip : ¬ a.device.useCount + 1 ≤ 1 := by omega
        rw [if_pos hpos]
        simpa [hskip] using hmove (a.device.useCount + 1)
      · have happly : a.device.useCount + 1 ≤ 1 := by omega
        rw [if_neg hpos]
        simpa [happly] using (hmove (a.device.useCount + 1)).apply p path
    · rw [if_neg hon, if_neg hon]
      simpa [h.count] using h.apply p path

/-- Reaching a path leaves the other paths of the device as they are. -/
theorem applyDevicePathL_other (a : Applying) {p q : Nat} (hne : q ≠ p) :
    (applyDevicePathL a p).device.paths[q]? = a.device.paths[q]? := by
  have happly (a : Applying) (path : Path) :
      (applyPathL a p path).device.paths[q]? = a.device.paths[q]? :=
    List.getElem?_set_ne (Ne.symm hne)
  unfold applyDevicePathL
  cases a.device.paths[p]? with
  | none => rfl
  | some path =>
    dsimp only
    split
    · split
      · rfl
      · exact happly _ path
    · split
      · split
        · rfl
        · exact happly _ path
      · exact happly a path

/-- A path that was found is still there, because only its controls are rewritten. -/
theorem applyPathsByIdL_wrote (mixer : Mixer) (d : Device) (firstId secondId : Int) :
    Wrote mixer (reach (reach d.useCount (foundPaths d firstId secondId).1).1
        (foundPaths d firstId secondId).2).1
      (chosenPaths d firstId secondId) (applyPathsByIdL mixer d firstId secondId) := by
  obtain ⟨hfirst, hsecond, hsame⟩ := findPaths_spec d.paths firstId secondId d.paths 0 (none, none)
    rfl (fun q hq => absurd hq (Nat.not_lt_zero q))
    (fun _ q hq => absurd hq (Nat.not_lt_zero q)) (fun _ => rfl)
  have hstart : Wrote mixer d.useCount [] ⟨mixer, d, []⟩ := ⟨rfl, rfl, rfl⟩
  unfold applyPathsByIdL chosenPaths foundPaths
  generalize findPaths firstId secondId 0 (none, none) d.paths = found at *
  obtain ⟨first, second⟩ := found
  dsimp only at *
  cases first with
  | none =>
    cases second with
    | none => exact hstart
    | some q =>
      have hne : secondId ≠ firstId := fun h => nomatch hsame h
      obtain ⟨path, hq, -⟩ := hsecond hne
      simp only [Option.bind_none, Option.bind_some, hq]
      exact hstart.reach hq
  | some p =>
    obtain ⟨path, hp, hid⟩ := hfirst
    have hone := hstart.reach hp
    cases second with
    | none =>
      simp only [Option.bind_none, Option.bind_some, hp]
      simpa [reach] using hone
    | some q =>
      have hne : secondId ≠ firstId := fun h => nomatch hsame h
      obtain ⟨path', hq, hid'⟩ := hsecond hne
      have hpq : q ≠ p := by
        rintro rfl
        rw [hp] at hq
        cases hq
        exact hne (hid'.symm.trans hid)
      have htwo := hone.reach ((applyDevicePathL_other ⟨mixer, d, []⟩ hpq).trans hq)
      simp only [Option.bind_some, hp, hq]
      exact htwo

section Visit

variable {cm : ConfigMgr} {k : Nat} {pdev : Device} (firstId secondId : Int)

theorem chosenAt_self (hk : cm.devices[k]? = some pdev) :
    chosenAt cm firstId secondId k = chosenPaths pdev firstId secondId := by
  unfold chosenAt
  rw [hk]

/-- A visit leaves the devices behind its own as they are. -/
theorem chosenAt_visit (pdev : Device) {j : Nat} (hj : k < j) :
    chosenAt (visit cm k pdev firstId secondId).1 firstId secondId j =
      chosenAt cm firstId secondId j := by
  have hother : (visit cm k pdev firstId secondId).1.devices[j]? = cm.devices[j]? :=
    List.getElem?_set_ne (by omega)
  unfold chosenAt
  rw [hother]

/-- A visit of one device does not change what a later one has to write. -/
theorem passSettings_visit (pdev : Device) {js : List Nat} (hjs : ∀ j ∈ js, k < j) :
    passSettings (visit cm k pdev firstId secondId).1 firstId secondId js =
      passSettings cm firstId secondId js := by
  have hwrote := applyPathsByIdL_wrote cm.mixer pdev firstId secondId
  unfold passSettings
  apply List.flatMap_congr
  intro j hj
  rw [chosenAt_visit firstId secondId pdev (hjs j hj)]
  exact settings_congr hwrote.layout _

/-- A visit writes the settings of its device. -/
theorem passSettings_cons (hk : cm.devices[k]? = some pdev) (js : List Nat) :
    writeCtls cm.mixer (passSettings cm firstId secondId (k :: js)) =
      writeCtls (visit cm k pdev firstId secondId).1.mixer (passSettings cm firstId secondId js) := by
  have hwrote := applyPathsByIdL_wrote cm.mixer pdev firstId secondId
  unfold passSettings
  rw [List.flatMap_cons, writeCtls_append, chosenAt_self firstId secondId hk, ← hwrote.mixer]
  rfl

end Visit

/-- The loop over the devices, by induction on those still to be visited. -/
theorem applyPathsLoop_writes (inputFlag : BitVec 32) (firstId secondId : Int) :
    ∀ (n k : Nat) (devices : BitVec 32) (cm : ConfigMgr), k + n = cm.devices.length →
      (applyPathsLoop inputFlag firstId secondId n k devices cm).2 =
        (picks (selects inputFlag) devices k (cm.types.drop k)).map
          (fun j => ⟨j, chosenAt cm firstId secondId j⟩) ∧
      (applyPathsLoop inputFlag firstId secondId n k devices cm).1.mixer =
        writeCtls cm.mixer (passSettings cm firstId secondId
          (picks (selects inputFlag) devices k (cm.types.drop k))) := by
  intro n
  induction n with
  | zero =>
    intro k devices cm hlen
    have hdrop : cm.types.drop k = [] := List.drop_eq_nil_iff.mpr (by simp [ConfigMgr.types]; omega)
    rw [hdrop]
    exact ⟨rfl, rfl⟩
  | succ n ih =>
    intro k devices cm hlen
    obtain ⟨pdev, hk⟩ : ∃ pdev, cm.devices[k]? = some pdev :=
      ⟨_, List.getElem?_eq_getElem (by omega)⟩
    rw [types_drop hk]
    unfold applyPathsLoop picks
    rw [hk]
    dsimp only
    by_cases hz : devices = 0#32
    · rw [if_pos hz, if_pos hz]
      exact ⟨rfl, rfl⟩
    · rw [if_neg hz, if_neg hz]
      by_cases hsel : pdev.type &&& inputFlag = inputFlag ∧ pdev.type &&& devices ≠ 0#32
      · have hpick : selects inputFlag pdev.type = true ∧ Meets pdev.type devices :=
          ⟨decide_eq_true hsel.1, hsel.2⟩
        have hwrote := applyPathsByIdL_wrote cm.mixer pdev firstId secondId
        have hlength : (visit cm k pdev firstId secondId).1.devices.length = cm.devices.length :=
          List.length_set
        obtain ⟨hvisits, hmixer⟩ := ih (k + 1) (devices &&& ~~~pdev.type)
          (visit cm k pdev firstId secondId).1 (by omega)
        rw [visit_types firstId secondId hk] at hvisits hmixer
        have hlater : ∀ j ∈ picks (selects inputFlag) (devices &&& ~~~pdev.type) (k + 1)
            (cm.types.drop (k + 1)), k < j := fun j hj => picks_ge hj
        rw [if_pos hsel, if_pos hpick, List.map_cons, chosenAt_self firstId secondId hk,
          passSettings_cons firstId secondId hk]
        constructor
        · rw [hvisits]
          dsimp only
          congr 1
          · exact congrArg (Visit.mk k) hwrote.applied
          · apply List.map_congr_left
            intro j hj
            rw [chosenAt_visit firstId secondId pdev (hlater j hj)]
        · rw [hmixer, passSettings_visit firstId secondId pdev hlater]
      · have hpick : ¬ (selects inputFlag pdev.type = true ∧ Meets pdev.type devices) := by
          rintro ⟨h1, h2⟩
          exact hsel ⟨of_decide_eq_true h1, h2⟩
        rw [if_neg hsel, if_neg hpick]
        exact ih (k + 1) devices cm (by omega)

/-- A pass over the devices `js` applies the chosen paths of each, in order. -/
structure Applied (cm : ConfigMgr) (firstId secondId : Int) (js : List Nat) (cm' : ConfigMgr) : Prop where
  walks : cm'.walks = cm.walks ++
    [⟨firstId, secondId, js.map fun j => ⟨j, chosenAt cm firstId secondId j⟩⟩]
  mixer : cm'.mixer = writeCtls cm.mixer (passSettings cm firstId secondId js)

/-- One pass writes the settings of the devices visited, in their order. -/
theorem applyPathsToDevicesL_applied (cm : ConfigMgr) (devices : BitVec 32) (firstId secondId : Int) :
    Applied cm firstId secondId (visited cm devices)
      (applyPathsToDevicesL cm devices firstId secondId) := by
  obtain ⟨hvisits, hmixer⟩ := applyPathsLoop_writes (devices &&& audioDeviceBitIn) firstId secondId
    cm.devices.length 0 (devices &&& ~~~audioDeviceBitIn) cm (Nat.zero_add _)
  have hpass := applyPathsLoop_spec (devices &&& audioDeviceBitIn) firstId secondId
    cm.devices.length 0 (devices &&& ~~~audioDeviceBitIn) cm (Nat.zero_add _)
  rw [List.drop_zero] at hvisits hmixer
  refine ⟨?_, hmixer⟩
  unfold applyPathsToDevicesL
  dsimp only
  rw [hpass.walks, hvisits]
  rfl

theorem applyPathsToGlobalL_applied (cm : ConfigMgr) (firstId secondId : Int) :
    Applied cm firstId secondId (globalDevice cm.devices).toList
      (applyPathsToGlobalL cm firstId secondId) := by
  unfold applyPathsToGlobalL
  cases hg : globalDevice cm.devices with
  | none => exact ⟨rfl, rfl⟩
  | some k =>
    have hlt : k < cm.devices.length := (List.findIdx?_eq_some_iff_getElem.mp hg).1
    have hk : cm.devices[k]? = some cm.devices[k] := List.getElem?_eq_getElem hlt
    have hwrote := applyPathsByIdL_wrote cm.mixer cm.devices[k] firstId secondId
    have hhere : chosenAt cm firstId secondId k = chosenPaths cm.devices[k] firstId secondId := by
      unfold chosenAt
      rw [hk]
    dsimp only
    rw [hk]
    constructor
    · show cm.walks ++ [⟨firstId, secondId, [⟨k, (applyPathsByIdL _ _ _ _).applied⟩]⟩] = _
      rw [hwrote.applied, ← hhere]
      rfl
    · show (applyPathsByIdL _ _ _ _).mixer = _
      rw [hwrote.mixer, ← hhere, passSettings, Option.toList_some, List.flatMap_singleton]

end Writes

section Words

variable {α β : Type}

/-- Two words are repetitions of one word. -/
def Interchange (u v : List α) : Prop :=
  ∃ w m n, u = (List.replicate m w).flatten ∧ v = (List.replicate n w).flatten

theorem repeat_append (w : List α) (m n : Nat) :
    (List.replicate m w).flatten ++ (List.replicate n w).flatten =
      (List.replicate (m + n) w).flatten := by
  rw [← List.flatten_append, List.replicate_append_replicate]

/-- Repetitions of one word can change places. -/
theorem Interchange.comm {u v : List α} (h : Interchange u v) : u ++ v = v ++ u := by
  obtain ⟨w, m, n, rfl, rfl⟩ := h
  rw [repeat_append, repeat_append, Nat.add_comm]

theorem Interchange.symm {u v : List α} (h : Interchange u v) : Interchange v u := by
  obtain ⟨w, m, n, hu, hv⟩ := h
  exact ⟨w, n, m, hv, hu⟩

/-- Two words that commute are cut down to one: the shorter is a prefix of the longer, and what is
left of the longer commutes with it again. -/
theorem interchange_of_comm (bound : Nat) :
    ∀ u v : List α, u.length + v.length ≤ bound → u ++ v = v ++ u → Interchange u v := by
  induction bound with
  | zero =>
    intro u v hlen _
    have hu : u = [] := List.length_eq_zero_iff.mp (by omega)
    have hv : v = [] := List.length_eq_zero_iff.mp (by omega)
    exact ⟨[], 0, 0, hu, hv⟩
  | succ bound ih =>
    have hwlog (u v : List α) (hle : u.length ≤ v.length) (hlen : u.length + v.length ≤ bound + 1)
        (hcomm : u ++ v = v ++ u) : Interchange u v := by
      by_cases hu : u = []
      · exact ⟨v, 0, 1, hu, by simp⟩
      · obtain ⟨t, rfl⟩ : u <+: v := by
          apply List.prefix_of_prefix_length_le (List.prefix_append u v) _ hle
          rw [hcomm]
          exact List.prefix_append v u
        have hpos : 0 < u.length := List.length_pos_of_ne_nil hu
        have htcomm : u ++ t = t ++ u := by
          rw [List.append_assoc] at hcomm
          exact List.append_cancel_left hcomm
        rw [List.length_append] at hlen
        obtain ⟨w, m, n, hum, htn⟩ := ih u t (by omega) htcomm
        refine ⟨w, m, m + n, hum, ?_⟩
        rw [← repeat_append, ← hum, ← htn]
    intro u v hlen hcomm
    by_cases hle : u.length ≤ v.length
    · exact hwlog u v hle hlen hcomm
    · exact (hwlog v u (by omega) (by omega) hcomm.symm).symm

/-- Two words commute exactly when they are repetitions of one. -/
theorem append_comm_iff (u v : List α) : u ++ v = v ++ u ↔ Interchange u v :=
  ⟨interchange_of_comm _ u v (Nat.le_refl _), Interchange.comm⟩

/-- Where no block of one list is longer than the other's, equal lists have equal blocks. -/
theorem flatMap_eq_iff {f g : α → List β} {ks : List α}
    (hle : ∀ k ∈ ks, (f k).length ≤ (g k).length) :
    ks.flatMap f = ks.flatMap g ↔ ∀ k ∈ ks, f k = g k := by
  constructor
  · induction ks with
    | nil => exact fun _ _ h => nomatch h
    | cons k ks ih =>
      intro heq
      have hhere := hle k List.mem_cons_self
      have hrest : ∀ j ∈ ks, (f j).length ≤ (g j).length := fun j hj => hle j (List.mem_cons_of_mem k hj)
      have htail : (ks.flatMap f).length ≤ (ks.flatMap g).length := by
        rw [List.length_flatMap, List.length_flatMap]
        exact List.sum_le_sum hrest
      rw [List.flatMap_cons, List.flatMap_cons] at heq
      have hsum := congrArg List.length heq
      rw [List.length_append, List.length_append] at hsum
      obtain ⟨hk, hks⟩ := List.append_inj heq (by omega)
      intro j hj
      rcases List.mem_cons.mp hj with rfl | hj
      · exact hk
      · exact ih hrest hks j hj
  · exact List.flatMap_congr

end Words

section Disconnecting

/-- Where a device defines both paths, the count keeps both from being applied or skips "off" in
either order, or the two lists of settings interchange. A stream whose disable path is "on" raises
the count first, which hides both paths of a device in use once. -/
def Clean (mixer : Mixer) (disablePath : Int) (d : Device) : Prop :=
  ∀ off disable, foundPaths d pathIdOff disablePath = (some off, some disable) →
    1 < d.useCount ∨
    Interchange (writtenCtls mixer off.ctls) (writtenCtls mixer disable.ctls) ∧
      (disablePath = pathIdOn → d.useCount = 1 →
        writtenCtls mixer off.ctls = [] ∧ writtenCtls mixer disable.ctls = [])

theorem settings_pair (mixer : Mixer) (p q : Path) :
    settings mixer [p, q] = writtenCtls mixer p.ctls ++ writtenCtls mixer q.ctls := by
  simp [settings]

@[simp] theorem reach_none (count : Int) : reach count none = (count, []) := rfl

/-- Two paths reached one after the other. -/
def reachBoth (count : Int) (first second : Path) : List Path :=
  (reach count (some first)).2 ++ (reach (reach count (some first)).1 (some second)).2

section Both

variable (count : Int) {off disable : Path} (hoff : off.id = pathIdOff)

include hoff

/-- A release path of its own: both orders write both paths, or only that one. -/
theorem reachBoth_custom (hne : disable.id ≠ pathIdOff) (hon : disable.id ≠ pathIdOn) :
    reachBoth count off disable = (if count ≤ 1 then [off, disable] else [disable]) ∧
    reachBoth count disable off = (if count ≤ 1 then [disable, off] else [disable]) := by
  have hcount : count - 1 ≤ 0 ↔ count ≤ 1 := by omega
  constructor
  · by_cases h : count ≤ 1 <;> simp [reachBoth, reach, bump, hoff, hne, hon, hcount, h]
  · by_cases h : count ≤ 1 <;> simp [reachBoth, reach, bump, hoff, hne, hon, hcount, h]

/-- The release path is the `on` path: it moves the count the other way. -/
theorem reachBoth_on (hon : disable.id = pathIdOn) :
    reachBoth count off disable = (if count ≤ 1 then [off, disable] else []) ∧
    reachBoth count disable off = (if count ≤ 0 then [disable, off] else []) := by
  have hne : pathIdOn ≠ pathIdOff := by decide
  have hcount : count - 1 ≤ 0 ↔ count ≤ 1 := by omega
  constructor
  · by_cases h : count ≤ 1 <;> simp [reachBoth, reach, bump, hoff, hne, hon, hcount, h]
  · by_cases h : count ≤ 0 <;> simp [reachBoth, reach, bump, hoff, hne, hon, h]

end Both

/-- A device that defines both paths: the two orders compared. -/
theorem reachBoth_orders (mixer : Mixer) (count : Int) {off disable : Path}
    (hoff : off.id = pathIdOff) (hne : disable.id ≠ pathIdOff) :
    (settings mixer (reachBoth count disable off)).length ≤
      (settings mixer (reachBoth count off disable)).length ∧
    (settings mixer (reachBoth count disable off) = settings mixer (reachBoth count off disable) ↔
      1 < count ∨
      Interchange (writtenCtls mixer off.ctls) (writtenCtls mixer disable.ctls) ∧
        (disable.id = pathIdOn → count = 1 →
          writtenCtls mixer off.ctls = [] ∧ writtenCtls mixer disable.ctls = [])) := by
  rw [← append_comm_iff]
  by_cases hon : disable.id = pathIdOn
  · obtain ⟨hrelease, hunroute⟩ := reachBoth_on count hoff hon
    rw [hrelease, hunroute]
    by_cases hone : count ≤ 1
    · by_cases hzero : count ≤ 0
      · rw [if_pos hone, if_pos hzero, settings_pair, settings_pair]
        refine ⟨by simp [Nat.add_comm], ?_⟩
        constructor
        · intro h
          exact Or.inr ⟨h.symm, fun _ h1 => by omega⟩
        · rintro (h | ⟨h, -⟩)
          · omega
          · exact h.symm
      · rw [if_pos hone, if_neg hzero, settings_pair]
        refine ⟨Nat.zero_le _, ?_⟩
        constructor
        · intro h
          have hnil : writtenCtls mixer off.ctls = [] ∧ writtenCtls mixer disable.ctls = [] :=
            List.append_eq_nil_iff.mp h.symm
          exact Or.inr ⟨by rw [hnil.1, hnil.2], fun _ _ => hnil⟩
        · rintro (h | ⟨-, h⟩)
          · omega
          · obtain ⟨h1, h2⟩ := h hon (by omega)
            rw [h1, h2]
            rfl
    · rw [if_neg hone, if_neg (by omega)]
      exact ⟨Nat.le_refl _, iff_of_true rfl (Or.inl (by omega))⟩
  · obtain ⟨hrelease, hunroute⟩ := reachBoth_custom count hoff hne hon
    rw [hrelease, hunroute]
    by_cases hone : count ≤ 1
    · rw [if_pos hone, if_pos hone, settings_pair, settings_pair]
      refine ⟨by simp [Nat.add_comm], ?_⟩
      constructor
      · intro h
        exact Or.inr ⟨h.symm, fun h' => absurd h' hon⟩
      · rintro (h | ⟨h, -⟩)
        · omega
        · exact h.symm
    · rw [if_neg hone, if_neg hone]
      exact ⟨Nat.le_refl _, iff_of_true rfl (Or.inl (by omega))⟩

/-- One device: the two orders compared. -/
theorem chosenPaths_orders (mixer : Mixer) (disablePath : Int) (d : Device) :
    (settings mixer (chosenPaths d disablePath pathIdOff)).length ≤
      (settings mixer (chosenPaths d pathIdOff disablePath)).length ∧
    (settings mixer (chosenPaths d disablePath pathIdOff) =
      settings mixer (chosenPaths d pathIdOff disablePath) ↔ Clean mixer disablePath d) := by
  by_cases hsame : disablePath = pathIdOff
  · subst hsame
    refine ⟨Nat.le_refl _, iff_of_true rfl ?_⟩
    intro off disable hfound
    have hnone := foundPaths_same d pathIdOff
    rw [hfound] at hnone
    cases hnone
  · have hswap := foundPaths_swap d (Ne.symm hsame)
    obtain ⟨hoff, hdisable⟩ := foundPaths_ids d pathIdOff disablePath
    unfold chosenPaths Clean
    rw [hswap]
    generalize foundPaths d pathIdOff disablePath = found at *
    obtain ⟨first, second⟩ := found
    cases first with
    | none => simp
    | some off =>
      cases second with
      | none => simp
      | some disable =>
        have hid : disable.id = disablePath := hdisable disable rfl
        subst hid
        have horders := reachBoth_orders mixer d.useCount (hoff off rfl) hsame
        refine ⟨horders.1, horders.2.trans ?_⟩
        constructor
        · rintro h _ _ ⟨⟩
          exact h
        · exact fun h => h off disable rfl

end Disconnecting

section Closing

def useCountAt (cm : ConfigMgr) (k : Nat) : Option Int := (cm.devices[k]?).map fun d => d.useCount

def currentDevicesAt (cm : ConfigMgr) (i : Nat) : Option (BitVec 32) :=
  (cm.streams[i]?).map fun s => s.currentDevices

/-- Closing a stream writes what taking its route away writes, then the global paths, and leaves
the same use counts and no device. -/
structure ClosesAsUnroute (cm : ConfigMgr) (i : Nat) (s : Stream) : Prop where
  unrouting : addedSettings cm (applyRoute cm i s 0#32) =
    passSettings cm s.disablePath pathIdOff (visited cm s.currentDevices)
  closing : addedSettings cm (releaseStream cm i s) = addedSettings cm (applyRoute cm i s 0#32) ++
    passSettings cm s.disablePath pathIdOff (globalDevice cm.devices).toList
  counts : ∀ k, globalDevice cm.devices ≠ some k →
    useCountAt (releaseStream cm i s) k = useCountAt (applyRoute cm i s 0#32) k
  closed : currentDevicesAt (releaseStream cm i s) i = some 0#32
  unrouted : currentDevicesAt (applyRoute cm i s 0#32) i = some 0#32

theorem chosenAt_congr {cm cm' : ConfigMgr} {k : Nat} (h : cm'.devices[k]? = cm.devices[k]?)
    (firstId secondId : Int) : chosenAt cm' firstId secondId k = chosenAt cm firstId secondId k := by
  unfold chosenAt
  rw [h]

/-- Between two states the passes sent these settings to the mixer, and no others. -/
structure Sends (cm : ConfigMgr) (ctls : List Ctl) (cm' : ConfigMgr) : Prop where
  walks : cm.walks <+: cm'.walks
  added : addedSettings cm cm' = ctls
  mixer : cm'.mixer = writeCtls cm.mixer ctls

/-- A pass sends its settings to the mixer in one stretch. -/
theorem Applied.sends {cm cm' : ConfigMgr} {firstId secondId : Int} {js : List Nat}
    (h : Applied cm firstId secondId js cm') : Sends cm (passSettings cm firstId secondId js) cm' where
  walks := ⟨_, h.walks.symm⟩
  added := by
    unfold addedSettings passSettings
    rw [h.walks, List.drop_left, List.flatMap_singleton, List.flatMap_map]
  mixer := h.mixer

theorem Sends.layout {cm cm' : ConfigMgr} {ctls : List Ctl} (h : Sends cm ctls cm') :
    SameLayout cm.mixer cm'.mixer := by
  rw [h.mixer]
  exact writeCtls_layout cm.mixer ctls

theorem Sends.trans {cm cm₁ cm₂ : ConfigMgr} {ctls ctls' : List Ctl} (h₁ : Sends cm ctls cm₁)
    (h₂ : Sends cm₁ ctls' cm₂) : Sends cm (ctls ++ ctls') cm₂ where
  walks := h₁.walks.trans h₂.walks
  added := by
    obtain ⟨ws, hws⟩ := h₁.walks
    obtain ⟨ws', hws'⟩ := h₂.walks
    rw [← h₁.added, ← h₂.added]
    unfold addedSettings
    rw [← hws', List.drop_left, ← hws, List.append_assoc, List.drop_left, List.drop_left,
      List.flatMap_append]
    congr 2
    funext w
    congr 1
    funext v
    exact (settings_congr h₁.layout v.applied).symm
  mixer := by rw [h₂.mixer, h₁.mixer, writeCtls_append]

theorem visited_none (cm : ConfigMgr) : visited cm 0#32 = [] := by
  unfold visited
  have hzero : 0#32 &&& ~~~audioDeviceBitIn = 0#32 := BitVec.zero_and
  rw [hzero, picks_zero]

/-- Taking the whole route away: the enabling mask is empty. -/
theorem applyRoute_none (cm : ConfigMgr) (i : Nat) (s : Stream) :
    applyRoute cm i s 0#32 = setStream
      (applyPathsToDevicesL (applyPathsToDevicesL cm s.currentDevices s.disablePath pathIdOff) 0#32
        pathIdOn s.enablePath) i { s with currentDevices := 0#32 } := by
  have hall : ~~~0#32 &&& s.currentDevices = s.currentDevices := by
    rw [BitVec.not_zero, BitVec.allOnes_and]
  unfold applyRoute
  rw [hall, BitVec.zero_and]
  rfl

/-- What the mixer gets when a stream loses its route. -/
theorem unroute_sends (cm : ConfigMgr) (i : Nat) (s : Stream) :
    Sends cm (passSettings cm s.disablePath pathIdOff (visited cm s.currentDevices))
      (applyRoute cm i s 0#32) := by
  have hdown := applyPathsToDevicesL_applied cm s.currentDevices s.disablePath pathIdOff
  have hup := applyPathsToDevicesL_applied
    (applyPathsToDevicesL cm s.currentDevices s.disablePath pathIdOff) 0#32 pathIdOn s.enablePath
  rw [visited_none] at hup
  have hboth := hdown.sends.trans hup.sends
  rw [show passSettings _ pathIdOn s.enablePath [] = [] from rfl, List.append_nil] at hboth
  rw [applyRoute_none]
  exact ⟨hboth.walks, hboth.added, hboth.mixer⟩

/-- A pass over the devices of a stream leaves the global device alone. -/
theorem global_untouched {cm cm₁ : ConfigMgr} {firstId secondId : Int} {mask : BitVec 32}
    {vs : List Visit} (h : Passed cm firstId secondId (visited cm mask) vs cm₁) :
    globalDevice cm₁.devices = globalDevice cm.devices ∧
      ∀ k ∈ globalDevice cm.devices, cm₁.devices[k]? = cm.devices[k]? := by
  constructor
  · rw [globalDevice_types, globalDevice_types, h.types]
  · intro k hk
    apply h.pass.untouched k
    have hlt : k < cm.devices.length := (List.findIdx?_eq_some_iff_getElem.mp hk).1
    have hd : cm.devices[k]? = some cm.devices[k] := List.getElem?_eq_getElem hlt
    apply visited_nonglobal
    rw [types_of_device hd, (globalDevice_type hd hk)]

/-- Giving the last reference back is a pass over the stream's devices and a global pass. -/
theorem releaseStream_last (cm : ConfigMgr) (i : Nat) (s : Stream) (hlast : s.refCount = 1) :
    releaseStream cm i s = setStream (applyPathsToGlobalL
      (applyPathsToDevicesL cm s.currentDevices pathIdOff s.disablePath) s.disablePath pathIdOff) i
      { s with refCount := s.refCount - 1, currentDevices := 0#32 } := by
  unfold releaseStream
  rw [if_pos (by rw [hlast]; rfl)]

/-- What it gets when the last client lets go. -/
theorem release_sends (cm : ConfigMgr) (i : Nat) (s : Stream) (hlast : s.refCount = 1) :
    Sends cm (passSettings cm pathIdOff s.disablePath (visited cm s.currentDevices) ++
        passSettings cm s.disablePath pathIdOff (globalDevice cm.devices).toList)
      (releaseStream cm i s) := by
  have hoff := (applyPathsToDevicesL_applied cm s.currentDevices pathIdOff s.disablePath).sends
  have hglobal := (applyPathsToGlobalL_applied
    (applyPathsToDevicesL cm s.currentDevices pathIdOff s.disablePath) s.disablePath pathIdOff).sends
  obtain ⟨_, hpassed⟩ := applyPathsToDevicesL_spec cm s.currentDevices pathIdOff s.disablePath
  obtain ⟨hsame, huntouched⟩ := global_untouched hpassed
  have hpass : passSettings (applyPathsToDevicesL cm s.currentDevices pathIdOff s.disablePath)
      s.disablePath pathIdOff (globalDevice cm.devices).toList =
      passSettings cm s.disablePath pathIdOff (globalDevice cm.devices).toList := by
    apply List.flatMap_congr
    intro k hk
    rw [settings_congr hoff.layout, chosenAt_congr (huntouched k (Option.mem_toList.mp hk))]
  rw [hsame, hpass] at hglobal
  have hboth := hoff.trans hglobal
  rw [releaseStream_last cm i s hlast]
  exact ⟨hboth.walks, hboth.added, hboth.mixer⟩

theorem bump_shift (count id : Int) : (bump count id).1 = count + (bump 0 id).1 := by
  unfold bump
  split
  · dsimp only
    omega
  · split <;> dsimp only <;> omega

/-- Two counts can be moved in either order. -/
theorem bump_comm (count id id' : Int) :
    (bump (bump count id).1 id').1 = (bump (bump count id').1 id).1 := by
  rw [bump_shift (bump count id).1, bump_shift count id, bump_shift (bump count id').1,
    bump_shift count id']
  omega

/-- The use count does not see the order of the two ids. -/
theorem wanted_count (count : Int) (ids : List Int) (firstId secondId : Int) :
    (bumps count (wanted ids firstId secondId)).1 = (bumps count (wanted ids secondId firstId)).1 := by
  by_cases hne : secondId = firstId
  · rw [hne]
  · by_cases hfirst : firstId ∈ ids
    · by_cases hsecond : secondId ∈ ids
      · simpa [wanted, hfirst, hsecond, hne, Ne.symm hne, bumps] using bump_comm count firstId secondId
      · simp [wanted, hfirst, hsecond, Ne.symm hne]
    · by_cases hsecond : secondId ∈ ids <;> simp [wanted, hfirst, hsecond, hne]

theorem close_counts (cm : ConfigMgr) (i : Nat) (s : Stream) (hlast : s.refCount = 1) {k : Nat}
    (hk : globalDevice cm.devices ≠ some k) :
    useCountAt (releaseStream cm i s) k = useCountAt (applyRoute cm i s 0#32) k := by
  obtain ⟨_, hoff⟩ := applyPathsToDevicesL_spec cm s.currentDevices pathIdOff s.disablePath
  obtain ⟨_, hglobal⟩ := applyPathsToGlobalL_spec
    (applyPathsToDevicesL cm s.currentDevices pathIdOff s.disablePath) s.disablePath pathIdOff
  obtain ⟨_, hdown⟩ := applyPathsToDevicesL_spec cm s.currentDevices s.disablePath pathIdOff
  obtain ⟨_, hup⟩ := applyPathsToDevicesL_spec
    (applyPathsToDevicesL cm s.currentDevices s.disablePath pathIdOff) 0#32 pathIdOn s.enablePath
  rw [visited_none] at hup
  rw [(global_untouched hoff).1] at hglobal
  have hrelease := hglobal.pass.untouched k (mt Option.mem_toList.mp hk)
  have hroute := hup.pass.untouched k List.not_mem_nil
  rw [releaseStream_last cm i s hlast, applyRoute_none]
  show ((applyPathsToGlobalL _ _ _).devices[k]?).map _ = ((applyPathsToDevicesL _ _ _ _).devices[k]?).map _
  dsimp only at hrelease hroute
  rw [hrelease, hroute]
  by_cases hmem : k ∈ visited cm s.currentDevices
  · cases hd : cm.devices[k]? with
    | none =>
      have hlen : cm.devices.length ≤ k := List.getElem?_eq_none_iff.mp hd
      rw [List.getElem?_eq_none (by rw [hoff.pass.length]; exact hlen),
        List.getElem?_eq_none (by rw [hdown.pass.length]; exact hlen)]
    | some d =>
      obtain ⟨d₁, hd₁, -, -, hcount₁, -⟩ := hoff.pass.touched k d hd hmem
      obtain ⟨d₂, hd₂, -, -, hcount₂, -⟩ := hdown.pass.touched k d hd hmem
      dsimp only at hd₁ hd₂
      rw [hd₁, hd₂, Option.map_some, Option.map_some, hcount₁, hcount₂, wanted_count]
  · have h₁ := hoff.pass.untouched k hmem
    have h₂ := hdown.pass.untouched k hmem
    dsimp only at h₁ h₂
    rw [h₁, h₂]

theorem currentDevicesAt_set {cm cm' : ConfigMgr} {i : Nat} {s s' : Stream}
    (hs : cm.streams[i]? = some s) (hstreams : cm'.streams = cm.streams)
    (hzero : s'.currentDevices = 0#32) : currentDevicesAt (setStream cm' i s') i = some 0#32 := by
  have hlt : i < cm.streams.length := (List.getElem?_eq_some_iff.mp hs).1
  unfold currentDevicesAt setStream
  rw [hstreams, List.getElem?_set_self hlt, Option.map_some, hzero]

/-- In every state, giving back the last reference of a stream does what unrouting it does, and the
global paths after it, if and only if every device of the stream is clean. -/
theorem closes_as_unroute_iff (cm : ConfigMgr) {i : Nat} {s : Stream} (hs : cm.streams[i]? = some s)
    (hlast : s.refCount = 1) :
    ClosesAsUnroute cm i s ↔
      ∀ k ∈ visited cm s.currentDevices, ∀ d ∈ cm.devices[k]?, Clean cm.mixer s.disablePath d := by
  have hroute := (unroute_sends cm i s).added
  have hrelease := (release_sends cm i s hlast).added
  have hat (k : Nat) (d : Device) (hd : cm.devices[k]? = some d) (firstId secondId : Int) :
      chosenAt cm firstId secondId k = chosenPaths d firstId secondId := by
    unfold chosenAt
    rw [hd]
  have hle : ∀ k ∈ visited cm s.currentDevices,
      (settings cm.mixer (chosenAt cm s.disablePath pathIdOff k)).length ≤
        (settings cm.mixer (chosenAt cm pathIdOff s.disablePath k)).length := by
    intro k _
    cases hd : cm.devices[k]? with
    | none => simp [chosenAt, hd]
    | some d =>
      rw [hat k d hd, hat k d hd]
      exact (chosenPaths_orders cm.mixer s.disablePath d).1
  have hblocks := flatMap_eq_iff hle
  constructor
  · intro h k hk d hd
    have heq := h.closing
    rw [hrelease, hroute] at heq
    have hblock := hblocks.mp (List.append_cancel_right heq).symm k hk
    rw [hat k d hd, hat k d hd] at hblock
    exact (chosenPaths_orders cm.mixer s.disablePath d).2.mp hblock
  · intro h
    refine ⟨hroute, ?_, fun k hk => close_counts cm i s hlast hk, ?_, ?_⟩
    · rw [hrelease, hroute]
      congr 1
      symm
      apply hblocks.mpr
      intro k hk
      cases hd : cm.devices[k]? with
      | none => simp [chosenAt, hd]
      | some d =>
        rw [hat k d hd, hat k d hd]
        exact (chosenPaths_orders cm.mixer s.disablePath d).2.mpr (h k hk d hd)
    · obtain ⟨_, hoff⟩ := applyPathsToDevicesL_spec cm s.currentDevices pathIdOff s.disablePath
      obtain ⟨_, hglobal⟩ := applyPathsToGlobalL_spec
        (applyPathsToDevicesL cm s.currentDevices pathIdOff s.disablePath) s.disablePath pathIdOff
      rw [releaseStream_last cm i s hlast]
      exact currentDevicesAt_set hs (hglobal.streams.trans hoff.streams) rfl
    · obtain ⟨_, hdown⟩ := applyPathsToDevicesL_spec cm s.currentDevices s.disablePath pathIdOff
      obtain ⟨_, hup⟩ := applyPathsToDevicesL_spec
        (applyPathsToDevicesL cm s.currentDevices s.disablePath pathIdOff) 0#32 pathIdOn s.enablePath
      rw [applyRoute_none]
      exact currentDevicesAt_set hs (hup.streams.trans hdown.streams) rfl

/-- One path that writes one control. -/
def pathElement (name ctl val : String) : List XmlEvent :=
  element "path" [("name", name)] [element "ctl" [("name", ctl), ("val", val)] []]

/-- A speaker whose "off" path and whose disable path of the playback stream write two controls. -/
def switchedDocument : XmlFile where
  events := element "audiohal" []
    [element "mixer" [] [],
      element "device" [("name", "speaker")]
        [pathElement "on" "Speaker Switch" "1", pathElement "off" "Speaker Switch" "0",
          pathElement "on_pcm" "PCM Switch" "1", pathElement "off_pcm" "PCM Switch" "0"],
      streamElement "out" "on_pcm" "off_pcm",
      element "stream" [("type", "hw"), ("name", "fm"), ("dir", "out")] []]
  wellFormed := true

def switchedEnv : Env :=
  { documentEnv switchedDocument with
    mixerOpen := fun _ =>
      some [⟨"Speaker Switch", .bool, [0], [], 0, 1⟩, ⟨"PCM Switch", .bool, [0], [], 0, 1⟩] }

def switchedConfig : ConfigMgr :=
  ((initAudioConfig switchedEnv 1).bind id).get (by decide +kernel)

theorem switchedConfig_parsed : Parsed switchedConfig := ⟨switchedEnv, 1, by decide +kernel⟩

def switchedAfter (calls : List Call) : ConfigMgr :=
  (Transition.run step switchedConfig calls).getD switchedConfig

def switchedStream (calls : List Call) : Stream := ((switchedAfter calls).streams[0]?).getD newStream

/-- Playback on the speaker. -/
def speakerCalls : List Call := [.getStream 0x2#32 true, .applyRoute 0 0x2#32]

/-- Playback on the speaker, and the radio as well. -/
def sharedCalls : List Call := speakerCalls ++ [.getNamedStream "fm", .applyRoute 1 0x2#32]

/-- While the radio keeps the speaker, closing the playback stream is unrouting it. -/
theorem shared_closes_as_unroute :
    (switchedStream sharedCalls).refCount = 1 ∧
    ClosesAsUnroute (switchedAfter sharedCalls) 0 (switchedStream sharedCalls) := by
  have hlast : (switchedStream sharedCalls).refCount = 1 := by decide +kernel
  refine ⟨hlast, (closes_as_unroute_iff _ (by decide +kernel) hlast).mpr ?_⟩
  have hcount : ∀ k ∈ visited (switchedAfter sharedCalls) (switchedStream sharedCalls).currentDevices,
      ∀ d ∈ (switchedAfter sharedCalls).devices[k]?, 1 < d.useCount := by decide +kernel
  exact fun k hk d hd _ _ _ => Or.inl (hcount k hk d hd)

/-- Alone on the speaker, closing writes "Speaker Switch" first, and unrouting writes it last. -/
theorem speaker_closes_otherwise :
    Parsed switchedConfig ∧
    Transition.run step switchedConfig speakerCalls = some (switchedAfter speakerCalls) ∧
    (switchedAfter speakerCalls).streams[0]? = some (switchedStream speakerCalls) ∧
    (switchedStream speakerCalls).refCount = 1 ∧
    (addedSettings (switchedAfter speakerCalls)
      (releaseStream (switchedAfter speakerCalls) 0 (switchedStream speakerCalls))).map
        (fun c => (c.name, c.value)) =
      [("Speaker Switch", .uinteger 0), ("PCM Switch", .uinteger 0)] ∧
    (addedSettings (switchedAfter speakerCalls)
      (applyRoute (switchedAfter speakerCalls) 0 (switchedStream speakerCalls) 0#32)).map
        (fun c => (c.name, c.value)) =
      [("PCM Switch", .uinteger 0), ("Speaker Switch", .uinteger 0)] ∧
    ¬ ClosesAsUnroute (switchedAfter speakerCalls) 0 (switchedStream speakerCalls) := by
  refine ⟨switchedConfig_parsed, by decide +kernel, by decide +kernel, by decide +kernel,
    by decide +kernel, by decide +kernel, ?_⟩
  intro h
  exact absurd h.closing (by decide +kernel)

end Closing

end TinyHal
