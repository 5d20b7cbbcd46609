import Mocha.AudioRouting

/-!
# What one pass over the devices does

First one device: which of the two wanted paths are found, how the use count
moves, and which paths are applied. Then the loop: it visits the devices that a
consuming walk over their types picks, each once, and leaves the others alone.
-/
namespace TinyHal

open Mask

def Device.ids (d : Device) : List Int := d.paths.map fun p => p.id

/-- What reaching a path does to the use count, and whether the path is applied. -/
def bump (count id : Int) : Int × Bool :=
  if id = pathIdOff then (count - 1, decide (count - 1 ≤ 0))
  else if id = pathIdOn then (count + 1, decide (count + 1 ≤ 1))
  else (count, true)

/-- The use count after some paths were reached in turn, and the ids that were applied. -/
def bumps (count : Int) : List Int → Int × List Int
  | [] => (count, [])
  | id :: ids =>
    let rest := bumps (bump count id).1 ids
    (rest.1, if (bump count id).2 then id :: rest.2 else rest.2)

/-- The wanted ids that a device defines, in the order in which they are applied. -/
def wanted (ids : List Int) (firstId secondId : Int) : List Int :=
  (if firstId ∈ ids then [firstId] else []) ++
    (if secondId ≠ firstId ∧ secondId ∈ ids then [secondId] else [])

section OneDevice

/-- Applying a path changes no id. -/
theorem applyPathL_ids (a : Applying) (p : Nat) (path : Path) (h : a.device.paths[p]? = some path) :
    (applyPathL a p path).device.ids = a.device.ids := by
  unfold applyPathL Device.ids
  apply List.ext_getElem?
  intro q
  rw [List.getElem?_map, List.getElem?_map, List.getElem?_set]
  by_cases hq : p = q
  · subst hq
    obtain ⟨hlt, hp⟩ := List.getElem?_eq_some_iff.mp h
    simp [hlt, hp]
  · simp [hq]

/-- One path of a device, as seen in the use count and the applied ids. -/
theorem applyDevicePathL_spec (a : Applying) (p : Nat) (path : Path)
    (h : a.device.paths[p]? = some path) :
    (applyDevicePathL a p).device.type = a.device.type ∧
    (applyDevicePathL a p).device.ids = a.device.ids ∧
    (applyDevicePathL a p).device.useCount = (bump a.device.useCount path.id).1 ∧
    (applyDevicePathL a p).applied.map (fun p => p.id) =
      a.applied.map (fun p => p.id) ++ (if (bump a.device.useCount path.id).2 then [path.id] else []) := by
  unfold applyDevicePathL bump
  rw [h]
  dsimp only
  by_cases hoff : path.id = pathIdOff
  · rw [if_pos hoff, if_pos hoff]
    by_cases hpos : a.device.useCount - 1 > 0
    · rw [if_pos hpos]
      have : ¬ a.device.useCount - 1 ≤ 0 := by omega
      simp [this, Device.ids]
    · rw [if_neg hpos]
      have : a.device.useCount - 1 ≤ 0 := by omega
      refine ⟨rfl, applyPathL_ids _ p path h, rfl, ?_⟩
      simp [applyPathL, this]
  · rw [if_neg hoff, if_neg hoff]
    by_cases hon : path.id = pathIdOn
    · rw [if_pos hon, if_pos hon]
      by_cases hpos : a.device.useCount + 1 > 1
      · rw [if_pos hpos]
        have : ¬ a.device.useCount + 1 ≤ 1 := by omega
        simp [this, Device.ids]
      · rw [if_neg hpos]
        have : a.device.useCount + 1 ≤ 1 := by omega
        refine ⟨rfl, applyPathL_ids _ p path h, rfl, ?_⟩
        simp [applyPathL, this]
    · rw [if_neg hon, if_neg hon]
      refine ⟨rfl, applyPathL_ids _ p path h, rfl, ?_⟩
      simp [applyPathL]

/-- A search result: a position of the id, or the id is not among the first `n` paths. -/
def Found (paths : List Path) (n : Nat) (id : Int) : Option Nat → Prop
  | some q => ∃ path, paths[q]? = some path ∧ path.id = id
  | none => ∀ q < n, ∀ path, paths[q]? = some path → path.id ≠ id

/-- A path with another id moves the search on. -/
theorem Found.succ {paths : List Path} {n : Nat} {id : Int} {o : Option Nat} {path : Path}
    (h : Found paths n id o) (hn : paths[n]? = some path) (hne : path.id ≠ id) :
    Found paths (n + 1) id o := by
  cases o with
  | some q => exact h
  | none =>
    intro q hq path' hp
    by_cases he : q = n
    · subst he
      rw [hn] at hp
      cases hp
      exact hne
    · exact h q (by omega) path' hp

/-- The loop over the paths, by induction on those still to be looked at. -/
theorem findPaths_spec (all : List Path) (firstId secondId : Int) :
    ∀ (rest : List Path) (n : Nat) (found : Option Nat × Option Nat), all.drop n = rest →
      Found all n firstId found.1 → (secondId ≠ firstId → Found all n secondId found.2) →
      (secondId = firstId → found.2 = none) →
      Found all all.length firstId (findPaths firstId secondId n found rest).1 ∧
      (secondId ≠ firstId →
        Found all all.length secondId (findPaths firstId secondId n found rest).2) ∧
      (secondId = firstId → (findPaths firstId secondId n found rest).2 = none) := by
  intro rest
  induction rest with
  | nil =>
    intro n found hdrop hfirst hsecond hsame
    have hlen : all.length ≤ n := List.drop_eq_nil_iff.mp hdrop
    have widen (id : Int) (o : Option Nat) (h : Found all n id o) : Found all all.length id o := by
      cases o with
      | some q => exact h
      | none => exact fun q hq => h q (by omega)
    exact ⟨widen _ _ hfirst, fun h => widen _ _ (hsecond h), hsame⟩
  | cons path rest ih =>
    intro n found hdrop hfirst hsecond hsame
    have hn : all[n]? = some path := by
      rw [← List.head?_drop, hdrop]
      rfl
    have hrest : all.drop (n + 1) = rest := by
      rw [← List.tail_drop, hdrop]
      rfl
    have here {id : Int} (h : path.id = id) (m : Nat) : Found all m id (some n) := ⟨path, hn, h⟩
    unfold findPaths
    by_cases h1 : path.id = firstId
    · rw [if_pos h1]
      split
      case isTrue hstop =>
        refine ⟨here h1 _, ?_, hsame⟩
        intro hne
        rcases hstop with hsome | heq
        · obtain ⟨q, hq⟩ := Option.isSome_iff_exists.mp hsome
          have := hsecond hne
          rw [hq] at this ⊢
          exact this
        · exact absurd heq.symm hne
      case isFalse hgo =>
        have hne : firstId ≠ secondId := fun h => hgo (Or.inr h)
        refine ih (n + 1) _ hrest (here h1 _) ?_ hsame
        intro hne'
        exact (hsecond hne').succ hn (by rw [h1]; exact hne)
    · rw [if_neg h1]
      by_cases h2 : path.id = secondId
      · have hne : secondId ≠ firstId := by
          intro h
          exact h1 (h2.trans h)
        rw [if_pos h2]
        split
        case isTrue hstop =>
          obtain ⟨q, hq⟩ := Option.isSome_iff_exists.mp hstop
          rw [hq] at hfirst ⊢
          exact ⟨hfirst, fun _ => here h2 _, fun h => absurd h hne⟩
        case isFalse =>
          exact ih (n + 1) _ hrest (hfirst.succ hn h1) (fun _ => here h2 _) fun h => absurd h hne
      · rw [if_neg h2]
        exact ih (n + 1) _ hrest (hfirst.succ hn h1) (fun h => (hsecond h).succ hn h2) hsame

/-- An id is found exactly when the device has a path of it. -/
theorem Found.mem {d : Device} {id : Int} {o : Option Nat}
    (h : Found d.paths d.paths.length id o) : o.isSome = true ↔ id ∈ d.ids := by
  cases o with
  | some q =>
    obtain ⟨path, hq, hid⟩ := h
    have : id ∈ d.ids := List.mem_map.mpr ⟨path, List.mem_of_getElem? hq, hid⟩
    exact ⟨fun _ => this, fun _ => rfl⟩
  | none =>
    constructor
    · intro hsome
      cases hsome
    · intro hmem
      obtain ⟨path, hp, hid⟩ := List.mem_map.mp hmem
      obtain ⟨q, hlt, hq⟩ := List.mem_iff_getElem.mp hp
      exact absurd hid (h q hlt path (by rw [List.getElem?_eq_getElem hlt, hq]))

/-- The state of a device after the paths `ids` were reached in turn. -/
structure Reached (d : Device) (a : Applying) (ids : List Int) : Prop where
  sameType : a.device.type = d.type
  sameIds : a.device.ids = d.ids
  count : a.device.useCount = (bumps d.useCount ids).1
  applied : a.applied.map (fun p => p.id) = (bumps d.useCount ids).2

/-- The last id counts from where the ids before it ended. -/
theorem bumps_snoc (count : Int) (ids : List Int) (id : Int) :
    bumps count (ids ++ [id]) = ((bump (bumps count ids).1 id).1,
      (bumps count ids).2 ++ (if (bump (bumps count ids).1 id).2 then [id] else [])) := by
  induction ids generalizing count with
  | nil => cases h : (bump count id).2 <;> simp [bumps, h]
  | cons i ids ih =>
    simp only [List.cons_append, bumps, ih]
    split <;> rfl

/-- Applying one more path is one more id in the walk. -/
theorem Reached.snoc {d : Device} {a : Applying} {ids : List Int} (h : Reached d a ids) {q : Nat}
    {path : Path} (hq : a.device.paths[q]? = some path) :
    Reached d (applyDevicePathL a q) (ids ++ [path.id]) := by
  obtain ⟨htype, hids, hcount, happlied⟩ := applyDevicePathL_spec a q path hq
  rw [h.count] at hcount happlied
  refine ⟨htype.trans h.sameType, hids.trans h.sameIds, ?_, ?_⟩
  · rw [bumps_snoc, hcount]
  · rw [bumps_snoc, happlied, h.applied]

/-- A position with an id keeps it, because no path changes its id. -/
theorem Reached.path {d : Device} {a : Applying} {ids : List Int} (h : Reached d a ids) {q : Nat}
    {id : Int} {n : Nat} (hf : Found d.paths n id (some q)) :
    ∃ path, a.device.paths[q]? = some path ∧ path.id = id := by
  obtain ⟨path, hq, hid⟩ := hf
  have hmap : a.device.ids[q]? = some id := by
    rw [h.sameIds, Device.ids, List.getElem?_map, hq, ← hid]
    rfl
  rw [Device.ids, List.getElem?_map] at hmap
  exact Option.map_eq_some_iff.mp hmap

theorem applyPathsByIdL_spec (mixer : Mixer) (d : Device) (firstId secondId : Int) :
    Reached d (applyPathsByIdL mixer d firstId secondId) (wanted d.ids firstId secondId) := by
  obtain ⟨hfirst, hsecond, hsame⟩ := findPaths_spec d.paths firstId secondId d.paths 0 (none, none)
    rfl (fun q hq => absurd hq (Nat.not_lt_zero q))
    (fun _ q hq => absurd hq (Nat.not_lt_zero q)) (fun _ => rfl)
  have hstart : Reached d ⟨mixer, d, []⟩ [] := ⟨rfl, rfl, rfl, rfl⟩
  unfold applyPathsByIdL wanted
  generalize findPaths firstId secondId 0 (none, none) d.paths = found at *
  have hone : Reached d
      (match found.1 with
        | some p => applyDevicePathL ⟨mixer, d, []⟩ p
        | none => ⟨mixer, d, []⟩)
      (if firstId ∈ d.ids then [firstId] else []) := by
    cases hf : found.1 with
    | none =>
      rw [hf] at hfirst
      rw [if_neg (mt hfirst.mem.mpr (by simp))]
      exact hstart
    | some p =>
      rw [hf] at hfirst
      rw [if_pos (hfirst.mem.mp rfl)]
      obtain ⟨path, hp, hid⟩ := hstart.path hfirst
      rw [← hid]
      exact hstart.snoc hp
  dsimp only
  cases hf : found.2 with
  | none =>
    have hnot : ¬ (secondId ≠ firstId ∧ secondId ∈ d.ids) := by
      rintro ⟨hne, hmem⟩
      have := hsecond hne
      rw [hf] at this
      exact absurd (this.mem.mpr hmem) (by simp)
    rw [if_neg hnot, List.append_nil]
    exact hone
  | some p =>
    have hne : secondId ≠ firstId := by
      intro h
      rw [hsame h] at hf
      cases hf
    have hfound := hsecond hne
    rw [hf] at hfound
    obtain ⟨path, hp, rfl⟩ := hone.path hfound
    have htwo : (if path.id ≠ firstId ∧ path.id ∈ d.ids then [path.id] else []) = [path.id] :=
      if_pos ⟨hne, hfound.mem.mp rfl⟩
    rw [htwo]
    exact hone.snoc hp

end OneDevice

section OnePass

def ConfigMgr.types (cm : ConfigMgr) : List (BitVec 32) := cm.devices.map fun d => d.type

/-- The direction test of the loop. -/
def selects (inputFlag t : BitVec 32) : Bool := decide (t &&& inputFlag = inputFlag)

/-- A pass visited the devices `js` with two path ids, and did nothing else. -/
structure Pass (cm : ConfigMgr) (firstId secondId : Int) (js : List Nat)
    (r : ConfigMgr × List Visit) : Prop where
  streams : r.1.streams = cm.streams
  walks : r.1.walks = cm.walks
  length : r.1.devices.length = cm.devices.length
  visits : r.2.map (fun v => v.device) = js
  touched : ∀ j d, cm.devices[j]? = some d → j ∈ js →
    ∃ d', r.1.devices[j]? = some d' ∧ d'.type = d.type ∧ d'.ids = d.ids ∧
      d'.useCount = (bumps d.useCount (wanted d.ids firstId secondId)).1 ∧
      ∀ v ∈ r.2, v.device = j →
        v.applied.map (fun p => p.id) = (bumps d.useCount (wanted d.ids firstId secondId)).2
  untouched : ∀ j, j ∉ js → r.1.devices[j]? = cm.devices[j]?

theorem Pass.empty (cm : ConfigMgr) (firstId secondId : Int) : Pass cm firstId secondId [] (cm, []) where
  streams := rfl
  walks := rfl
  length := rfl
  visits := rfl
  touched := fun _ _ _ h => absurd h List.not_mem_nil
  untouched := fun _ _ => rfl

/-- A visit, then a pass that does not come back to the same device. -/
theorem Pass.cons {cm : ConfigMgr} {k : Nat} {pdev : Device} {firstId secondId : Int} {js : List Nat}
    {r : ConfigMgr × List Visit} (hk : cm.devices[k]? = some pdev) (hnot : k ∉ js)
    (h : Pass (visit cm k pdev firstId secondId).1 firstId secondId js r) :
    Pass cm firstId secondId (k :: js) (r.1, (visit cm k pdev firstId secondId).2 :: r.2) := by
  have hreached := applyPathsByIdL_spec cm.mixer pdev firstId secondId
  have hlt : k < cm.devices.length := (List.getElem?_eq_some_iff.mp hk).1
  have hother (j : Nat) (hj : j ≠ k) :
      (visit cm k pdev firstId secondId).1.devices[j]? = cm.devices[j]? := by
    unfold visit
    exact List.getElem?_set_ne (Ne.symm hj)
  have hoff (v : Visit) (hv : v ∈ r.2) : v.device ∈ js := by
    rw [← h.visits]
    exact List.mem_map.mpr ⟨v, hv, rfl⟩
  refine ⟨h.streams, h.walks, ?_, ?_, ?_, ?_⟩
  · rw [h.length]
    exact List.length_set
  · rw [List.map_cons, h.visits]
    rfl
  · intro j d hd hj
    by_cases he : j = k
    · subst he
      rw [hk] at hd
      cases hd
      refine ⟨_, ?_, hreached.sameType, hreached.sameIds, hreached.count, ?_⟩
      · rw [h.untouched j hnot]
        unfold visit
        rw [List.getElem?_set_self hlt]
      · intro v hv hvj
        rcases List.mem_cons.mp hv with rfl | hv
        · exact hreached.applied
        · exact absurd (hvj ▸ hoff v hv) hnot
    · have hmem : j ∈ js := (List.mem_cons.mp hj).resolve_left he
      obtain ⟨d', hd', htype, hids, hcount, happlied⟩ := h.touched j d (by rw [hother j he, hd]) hmem
      refine ⟨d', hd', htype, hids, hcount, ?_⟩
      intro v hv hvj
      rcases List.mem_cons.mp hv with rfl | hv
      · exact absurd hvj.symm he
      · exact happlied v hv hvj
  · intro j hj
    have hne : j ≠ k := fun h => hj (h ▸ List.mem_cons_self)
    rw [h.untouched j fun hmem => hj (List.mem_cons_of_mem _ hmem)]
    exact hother j hne

theorem Pass.types {cm : ConfigMgr} {firstId secondId : Int} {js : List Nat}
    {r : ConfigMgr × List Visit} (h : Pass cm firstId secondId js r) : r.1.types = cm.types := by
  unfold ConfigMgr.types
  apply List.ext_getElem?
  intro j
  rw [List.getElem?_map, List.getElem?_map]
  by_cases hj : j ∈ js
  · cases hd : cm.devices[j]? with
    | some d =>
      obtain ⟨d', hd', htype, -⟩ := h.touched j d hd hj
      rw [hd', Option.map_some, Option.map_some, htype]
    | none =>
      have hge : cm.devices.length ≤ j := List.getElem?_eq_none_iff.mp hd
      rw [List.getElem?_eq_none (by rw [h.length]; exact hge)]
  · rw [h.untouched j hj]

theorem visit_types {cm : ConfigMgr} {k : Nat} {pdev : Device} (firstId secondId : Int)
    (hk : cm.devices[k]? = some pdev) : (visit cm k pdev firstId secondId).1.types = cm.types :=
  (Pass.cons hk List.not_mem_nil (Pass.empty _ firstId secondId)).types

/-- The devices still to be visited, the next one first. -/
theorem types_drop {cm : ConfigMgr} {k : Nat} {pdev : Device} (hk : cm.devices[k]? = some pdev) :
    cm.types.drop k = pdev.type :: cm.types.drop (k + 1) := by
  obtain ⟨hlt, hd⟩ := List.getElem?_eq_some_iff.mp hk
  unfold ConfigMgr.types
  rw [← List.map_drop, List.drop_eq_getElem_cons hlt, List.map_cons, hd, List.map_drop]

/-- The loop over the devices, by induction on those still to be visited. -/
theorem applyPathsLoop_spec (inputFlag : BitVec 32) (firstId secondId : Int) :
    ∀ (n k : Nat) (devices : BitVec 32) (cm : ConfigMgr), k + n = cm.devices.length →
      Pass cm firstId secondId (picks (selects inputFlag) devices k (cm.types.drop k))
        (applyPathsLoop inputFlag firstId secondId n k devices cm) := by
  intro n
  induction n with
  | zero =>
    intro k devices cm hlen
    have hdrop : cm.types.drop k = [] := List.drop_eq_nil_iff.mpr (by simp [ConfigMgr.types]; omega)
    rw [hdrop]
    exact Pass.empty cm firstId secondId
  | succ n ih =>
    intro k devices cm hlen
    obtain ⟨pdev, hk⟩ : ∃ pdev, cm.devices[k]? = some pdev :=
      ⟨_, List.getElem?_eq_getElem (by omega)⟩
    rw [types_drop hk]
    unfold applyPathsLoop picks
    rw [hk]
    dsimp only
    by_cases hz : devices = 0#32
    · rw [if_pos hz, if_pos hz]
      exact Pass.empty cm firstId secondId
    · rw [if_neg hz, if_neg hz]
      by_cases hsel : pdev.type &&& inputFlag = inputFlag ∧ pdev.type &&& devices ≠ 0#32
      · have hpick : selects inputFlag pdev.type = true ∧ Meets pdev.type devices :=
          ⟨decide_eq_true hsel.1, hsel.2⟩
        rw [if_pos hsel, if_pos hpick]
        apply Pass.cons hk
        · intro hmem
          have := picks_ge hmem
          omega
        · rw [← visit_types firstId secondId hk]
          apply ih
          rw [show (visit cm k pdev firstId secondId).1.devices.length = cm.devices.length from
            List.length_set]
          omega
      · have hpick : ¬ (selects inputFlag pdev.type = true ∧ Meets pdev.type devices) := by
          rintro ⟨h1, h2⟩
          exact hsel ⟨of_decide_eq_true h1, h2⟩
        rw [if_neg hsel, if_neg hpick]
        exact ih (k + 1) devices cm (by omega)

/-- The devices that `apply_paths_to_devices_l` visits for a device mask. -/
def visited (cm : ConfigMgr) (devices : BitVec 32) : List Nat :=
  picks (selects (devices &&& audioDeviceBitIn)) (devices &&& ~~~audioDeviceBitIn) 0 cm.types

/-- A pass of the manager: the visits `vs` and nothing else, recorded as one walk. -/
structure Passed (cm : ConfigMgr) (firstId secondId : Int) (js : List Nat) (vs : List Visit)
    (cm' : ConfigMgr) : Prop where
  pass : Pass cm firstId secondId js ({ cm' with walks := cm.walks }, vs)
  walks : cm'.walks = cm.walks ++ [⟨firstId, secondId, vs⟩]

/-- One pass visits the devices of the mask, in the order of the array. -/
theorem applyPathsToDevicesL_spec (cm : ConfigMgr) (devices : BitVec 32) (firstId secondId : Int) :
    ∃ vs, Passed cm firstId secondId (visited cm devices) vs
      (applyPathsToDevicesL cm devices firstId secondId) := by
  have h := applyPathsLoop_spec (devices &&& audioDeviceBitIn) firstId secondId
    cm.devices.length 0 (devices &&& ~~~audioDeviceBitIn) cm (Nat.zero_add _)
  rw [List.drop_zero] at h
  refine ⟨_, ⟨⟨h.streams, rfl, h.length, h.visits, h.touched, h.untouched⟩, ?_⟩⟩
  unfold applyPathsToDevicesL
  dsimp only
  rw [h.walks]

theorem applyPathsToGlobalL_spec (cm : ConfigMgr) (firstId secondId : Int) :
    ∃ vs, Passed cm firstId secondId (globalDevice cm.devices).toList vs
      (applyPathsToGlobalL cm firstId secondId) := by
  unfold applyPathsToGlobalL
  cases hg : globalDevice cm.devices with
  | none => exact ⟨[], Pass.empty cm firstId secondId, rfl⟩
  | some k =>
    have hlt : k < cm.devices.length := (List.findIdx?_eq_some_iff_getElem.mp hg).1
    have hk : cm.devices[k]? = some cm.devices[k] := List.getElem?_eq_getElem hlt
    dsimp only
    rw [hk]
    have h := Pass.cons hk List.not_mem_nil (Pass.empty _ firstId secondId)
    exact ⟨_, ⟨h.streams, rfl, h.length, h.visits, h.touched, h.untouched⟩, rfl⟩

end OnePass

end TinyHal
