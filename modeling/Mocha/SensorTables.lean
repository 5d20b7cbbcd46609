import Mathlib.Data.List.Nodup
import Mocha.SensorHandles

/-!
# What the handle tables contain

The sensors of all modules in the order in which `lazy_init_sensors_list` visits
them. After the two loops the maps relate these sensors and the handles of the
published list, one to one.
-/
namespace SensorHandles

/-- The sensors of the modules from index `i` on, each with the index of its module. -/
def entries : Int → List (List Sensor) → List (Int × Sensor)
  | _, [] => []
  | i, sensors :: rest => sensors.map (fun s => (i, s)) ++ entries (i + 1) rest

def fullHandle (e : Int × Sensor) : FullHandle := ⟨e.1, e.2.handle⟩

def publishEntry (p : Published) (e : Int × Sensor) : Published := publishSensor e.1 p e.2

/-- The two loops are one loop over the entries. -/
theorem publishModules_entries (modules : List (List Sensor)) (i : Int) (p : Published) :
    publishModules i p modules = (entries i modules).foldl publishEntry p := by
  induction modules generalizing i p with
  | nil => rfl
  | cons sensors rest ih =>
    rw [publishModules, ih, entries, List.foldl_append, List.foldl_map]
    rfl

/-- The entries are the sensors of each module with the index of the module. -/
theorem mem_entries (modules : List (List Sensor)) (i m : Int) (s : Sensor) :
    (m, s) ∈ entries i modules ↔
      ∃ (k : Nat) (sensors : List Sensor), modules[k]? = some sensors ∧ s ∈ sensors ∧ m = i + k := by
  induction modules generalizing i with
  | nil => simp [entries]
  | cons sensors rest ih =>
    rw [entries, List.mem_append, ih]
    constructor
    · rintro (h | ⟨k, found, hk, hs, hm⟩)
      · obtain ⟨found, hs, he⟩ := List.mem_map.mp h
        obtain ⟨rfl, rfl⟩ := Prod.mk.inj he
        exact ⟨0, sensors, rfl, hs, by simp⟩
      · exact ⟨k + 1, found, by simpa using hk, hs, by push_cast; omega⟩
    · rintro ⟨k, found, hk, hs, hm⟩
      cases k with
      | zero =>
        obtain rfl : sensors = found := by simpa using hk
        exact .inl (List.mem_map.mpr ⟨s, hs, by simp [hm]⟩)
      | succ k => exact .inr ⟨k, found, by simpa using hk, hs, by push_cast at hm; omega⟩

/-- Local handles that are distinct in each module make distinct full handles. -/
theorem entries_nodup (modules : List (List Sensor)) (i : Int)
    (h : ∀ sensors ∈ modules, (sensors.map fun s => s.handle).Nodup) :
    ((entries i modules).map fullHandle).Nodup := by
  induction modules generalizing i with
  | nil => exact List.nodup_nil
  | cons sensors rest ih =>
    rw [entries, List.map_append, List.map_map]
    refine List.nodup_append.mpr ⟨?_, ?_, ?_⟩
    · have hs := h sensors List.mem_cons_self
      have hmap : sensors.map (fullHandle ∘ fun s => (i, s)) =
          (sensors.map fun s => s.handle).map (FullHandle.mk i) := by
        rw [List.map_map]
        rfl
      rw [hmap]
      refine hs.map ?_
      intro a b hab
      injection hab
    · exact ih (i + 1) fun sensors hs => h sensors (List.mem_cons_of_mem _ hs)
    · -- A later module has a larger index.
      intro f hf f' hf' hff
      obtain ⟨s, -, rfl⟩ := List.mem_map.mp hf
      obtain ⟨⟨m, s'⟩, he, rfl⟩ := List.mem_map.mp hf'
      obtain ⟨k, found, -, -, hm⟩ := (mem_entries rest (i + 1) m s').mp he
      have hi : i = m := congrArg FullHandle.moduleIndex hff
      omega

/-- The tables and the list hold these entries and nothing else. -/
structure Records (done : List (Int × Sensor)) (p : Published) : Prop where
  listed : ∀ f, (p.tables.fullToGlobal f).isSome = true ↔ f ∈ done.map fullHandle
  source : ∀ q ∈ p.globalSensorsList, ∃ e ∈ done,
    q = { describeLegacySensor e.2 with handle := q.handle } ∧
    p.tables.globalToFull q.handle = some (fullHandle e)
  handles : ∀ g, (p.tables.globalToFull g).isSome = true ↔ g ∈ p.globalSensorsList.map fun s => s.handle
  bound : ∀ g, (p.tables.globalToFull g).isSome = true → 1 ≤ g ∧ g < p.tables.nextGlobalHandle
  next : 1 ≤ p.tables.nextGlobalHandle
  nodup : (p.globalSensorsList.map fun s => s.handle).Nodup

theorem records_empty : Records [] .empty := by
  refine ⟨?_, ?_, ?_, ?_, ?_, ?_⟩ <;> simp [Published.empty, Tables.empty]

/-- The two maps undo each other. -/
def Inverse (t : Tables) : Prop := ∀ g f, t.globalToFull g = some f ↔ t.fullToGlobal f = some g

section Publish

variable (p : Published) (e : Int × Sensor)

@[simp] theorem publishEntry_globalToFull (g : Int) : (publishEntry p e).tables.globalToFull g =
    if g = p.tables.nextGlobalHandle then some (fullHandle e) else p.tables.globalToFull g := rfl

@[simp] theorem publishEntry_fullToGlobal (f : FullHandle) : (publishEntry p e).tables.fullToGlobal f =
    if f = fullHandle e then some p.tables.nextGlobalHandle else p.tables.fullToGlobal f := rfl

@[simp] theorem publishEntry_next :
    (publishEntry p e).tables.nextGlobalHandle = p.tables.nextGlobalHandle + 1 := rfl

@[simp] theorem publishEntry_list : (publishEntry p e).globalSensorsList = p.globalSensorsList ++
    [{ describeLegacySensor e.2 with handle := p.tables.nextGlobalHandle }] := rfl

end Publish

/-- The next global handle stands for no sensor yet. -/
theorem Records.fresh {done : List (Int × Sensor)} {p : Published} (h : Records done p) :
    p.tables.globalToFull p.tables.nextGlobalHandle = none := by
  rw [← Option.not_isSome_iff_eq_none]
  intro hsome
  have hlt := (h.bound _ hsome).2
  omega

/-- A new sensor keeps the maps inverse, when no other has its full handle. -/
theorem Records.inverse {done : List (Int × Sensor)} {p : Published} (h : Records done p)
    (hi : Inverse p.tables) {e : Int × Sensor} (he : fullHandle e ∉ done.map fullHandle) :
    Inverse (publishEntry p e).tables := by
  have hnew : p.tables.fullToGlobal (fullHandle e) = none := by
    rw [← Option.not_isSome_iff_eq_none]
    exact fun hsome => he ((h.listed _).mp hsome)
  intro g f
  rw [publishEntry_globalToFull, publishEntry_fullToGlobal]
  by_cases hg : g = p.tables.nextGlobalHandle
  · rw [if_pos hg]
    by_cases hf : f = fullHandle e
    · simp [hf, hg]
    · rw [if_neg hf, ← hi, hg, h.fresh]
      simpa [eq_comm] using hf
  · rw [if_neg hg]
    by_cases hf : f = fullHandle e
    · rw [if_pos hf, hi, hf, hnew]
      simpa [eq_comm] using hg
    · rw [if_neg hf]
      exact hi g f

theorem Records.publish {done : List (Int × Sensor)} {p : Published} (h : Records done p)
    (e : Int × Sensor) : Records (done ++ [e]) (publishEntry p e) := by
  have hnext := h.next
  refine ⟨?_, ?_, ?_, ?_, ?_, ?_⟩
  · intro f
    rw [publishEntry_fullToGlobal, List.map_append, List.mem_append, ← h.listed]
    split
    · rename_i hf
      simp [hf]
    · rename_i hf
      simp [hf]
  · intro q hq
    rw [publishEntry_list] at hq
    rcases List.mem_append.mp hq with hq | hq
    · obtain ⟨e', he', hcopy, hback⟩ := h.source q hq
      refine ⟨e', List.mem_append_left _ he', hcopy, ?_⟩
      have hlt := (h.bound q.handle (by rw [hback]; rfl)).2
      rw [publishEntry_globalToFull, if_neg (by omega)]
      exact hback
    · rw [List.mem_singleton.mp hq]
      refine ⟨e, List.mem_append_right _ (List.mem_singleton_self e), rfl, ?_⟩
      rw [publishEntry_globalToFull, if_pos rfl]
  · intro g
    rw [publishEntry_globalToFull, publishEntry_list, List.map_append, List.mem_append, ← h.handles]
    split
    · rename_i hg
      simp [hg]
    · rename_i hg
      simp [hg]
  · intro g hg
    rw [publishEntry_globalToFull] at hg
    rw [publishEntry_next]
    split at hg
    · omega
    · have hb := h.bound g hg
      omega
  · rw [publishEntry_next]
    omega
  · rw [publishEntry_list, List.map_append]
    refine List.nodup_append.mpr ⟨h.nodup, List.nodup_singleton _, ?_⟩
    intro g hg g' hg' hgg
    have hlt := (h.bound g ((h.handles g).mpr hg)).2
    have heq := List.mem_singleton.mp hg'
    dsimp only at heq
    omega

/-- By induction on the sensors still to be published. -/
theorem Records.foldl {done : List (Int × Sensor)} {p : Published} (h : Records done p)
    (es : List (Int × Sensor)) : Records (done ++ es) (es.foldl publishEntry p) := by
  induction es generalizing done p with
  | nil =>
    rw [List.append_nil]
    exact h
  | cons e es ih =>
    have hrest := ih (h.publish e)
    rw [List.append_assoc] at hrest
    exact hrest

/-- As no sensor is published twice, the two tables stay inverse to each other. -/
theorem Records.foldl_inverse {done es : List (Int × Sensor)} {p : Published} (h : Records done p)
    (hi : Inverse p.tables) (hn : ((done ++ es).map fullHandle).Nodup) :
    Inverse (es.foldl publishEntry p).tables := by
  induction es generalizing done p with
  | nil => exact hi
  | cons e es ih =>
    have hnew : fullHandle e ∉ done.map fullHandle := by
      intro hmem
      rw [List.map_append, List.map_cons] at hn
      exact (List.nodup_append.mp hn).2.2 _ hmem _ List.mem_cons_self rfl
    have hcons : done ++ e :: es = done ++ [e] ++ es := by simp
    rw [hcons] at hn
    exact ih (h.publish e) (h.inverse hi hnew) hn

theorem lazyInit_records (modules : List (List Sensor)) :
    Records (entries 0 modules) (lazyInitSensorsList modules) := by
  rw [lazyInitSensorsList, publishModules_entries]
  exact records_empty.foldl (entries 0 modules)

/-- Handles that are distinct within a module are enough, as the index tells modules apart. -/
theorem lazyInit_inverse (modules : List (List Sensor))
    (h : ∀ sensors ∈ modules, (sensors.map fun s => s.handle).Nodup) :
    Inverse (lazyInitSensorsList modules).tables := by
  rw [lazyInitSensorsList, publishModules_entries]
  refine records_empty.foldl_inverse ?_ (entries_nodup modules 0 h)
  simp [Inverse, Published.empty, Tables.empty]

section Translation

/-- The module with this index lists a sensor under this local handle. -/
def Listed (modules : List (List Sensor)) (f : FullHandle) : Prop :=
  ∃ (k : Nat) (sensors : List Sensor), modules[k]? = some sensors ∧ f.moduleIndex = k ∧
    ∃ s ∈ sensors, s.handle = f.localHandle

def globalHandles (p : Published) : List Int := p.globalSensorsList.map fun s => s.handle

/-- A handle that the tables know is one of the published list. -/
theorem Records.mem_globalHandles {done : List (Int × Sensor)} {p : Published} (h : Records done p)
    {g : Int} (hg : getModuleIndex p.tables g ≠ -1) : g ∈ globalHandles p := by
  rw [globalHandles, ← h.handles]
  unfold getModuleIndex at hg
  split at hg
  · rename_i hf
    rw [hf]
    rfl
  · exact absurd rfl hg

theorem Records.handle_pos {done : List (Int × Sensor)} {p : Published} (h : Records done p)
    {g : Int} (hg : g ∈ globalHandles p) : 1 ≤ g :=
  (h.bound g ((h.handles g).mpr hg)).1

theorem listed_iff (modules : List (List Sensor)) (f : FullHandle) :
    Listed modules f ↔ f ∈ (entries 0 modules).map fullHandle := by
  constructor
  · rintro ⟨k, sensors, hk, hm, s, hs, hl⟩
    refine List.mem_map.mpr ⟨(k, s), (mem_entries modules 0 k s).mpr ⟨k, sensors, hk, hs, by simp⟩, ?_⟩
    rw [fullHandle, hl, ← hm]
  · intro hf
    obtain ⟨⟨m, s⟩, he, rfl⟩ := List.mem_map.mp hf
    obtain ⟨k, sensors, hk, hs, hm⟩ := (mem_entries modules 0 m s).mp he
    exact ⟨k, sensors, hk, by simpa [fullHandle] using hm, s, hs, rfl⟩

/-- Global handles and listed sensors correspond to each other, and nothing else has a handle. -/
structure Translates (modules : List (List Sensor)) (p : Published) : Prop where
  distinct : (globalHandles p).Nodup
  back : ∀ g ∈ globalHandles p,
    Listed modules ⟨getModuleIndex p.tables g, getLocalHandle p.tables g⟩ ∧
    getGlobalHandle p.tables ⟨getModuleIndex p.tables g, getLocalHandle p.tables g⟩ = g
  forth : ∀ f, Listed modules f → getGlobalHandle p.tables f ∈ globalHandles p ∧
    getModuleIndex p.tables (getGlobalHandle p.tables f) = f.moduleIndex ∧
    getLocalHandle p.tables (getGlobalHandle p.tables f) = f.localHandle
  unknownGlobal : ∀ g, g ∉ globalHandles p →
    getModuleIndex p.tables g = -1 ∧ getLocalHandle p.tables g = -1
  unknownFull : ∀ f, ¬Listed modules f → getGlobalHandle p.tables f = -1
  copied : ∀ q ∈ p.globalSensorsList, ∃ (k : Nat) (sensors : List Sensor), modules[k]? = some sensors ∧
    ∃ s ∈ sensors, q = { describeLegacySensor s with handle := getGlobalHandle p.tables ⟨k, s.handle⟩ }

/-- What the published list promises follows from the records and the inverse tables. -/
theorem Records.translates {modules : List (List Sensor)} {p : Published}
    (h : Records (entries 0 modules) p) (hi : Inverse p.tables) : Translates modules p := by
  have hforth (f : FullHandle) (hf : Listed modules f) :
      ∃ g, p.tables.fullToGlobal f = some g ∧ p.tables.globalToFull g = some f := by
    obtain ⟨g, hg⟩ := Option.isSome_iff_exists.mp ((h.listed f).mpr ((listed_iff modules f).mp hf))
    exact ⟨g, hg, (hi g f).mpr hg⟩
  refine ⟨h.nodup, ?_, ?_, ?_, ?_, ?_⟩
  · intro g hg
    obtain ⟨f, hf⟩ := Option.isSome_iff_exists.mp ((h.handles g).mpr hg)
    have hback := (hi g f).mp hf
    have hlisted : Listed modules f := by
      rw [listed_iff, ← h.listed, hback]
      rfl
    simp only [getModuleIndex, getLocalHandle, getGlobalHandle, hf, hback]
    exact ⟨hlisted, trivial⟩
  · intro f hf
    obtain ⟨g, hg, hback⟩ := hforth f hf
    simp only [getGlobalHandle, getModuleIndex, getLocalHandle, hg, hback]
    exact ⟨(h.handles g).mp (by rw [hback]; rfl), trivial, trivial⟩
  · intro g hg
    have hnone : p.tables.globalToFull g = none := by
      rw [← Option.not_isSome_iff_eq_none]
      exact fun hsome => hg ((h.handles g).mp hsome)
    simp [getModuleIndex, getLocalHandle, hnone]
  · intro f hf
    have hnone : p.tables.fullToGlobal f = none := by
      rw [← Option.not_isSome_iff_eq_none]
      exact fun hsome => hf ((listed_iff modules f).mpr ((h.listed f).mp hsome))
    simp only [getGlobalHandle, hnone]
  · intro q hq
    obtain ⟨⟨m, s⟩, he, hcopy, hback⟩ := h.source q hq
    obtain ⟨k, sensors, hk, hs, hm⟩ := (mem_entries modules 0 m s).mp he
    have hg := (hi _ _).mp hback
    obtain rfl : m = k := by simpa using hm
    refine ⟨k, sensors, hk, s, hs, ?_⟩
    rw [hcopy]
    simp only [fullHandle] at hg
    simp only [getGlobalHandle, hg]

theorem lazyInit_translates (modules : List (List Sensor))
    (h : ∀ sensors ∈ modules, (sensors.map fun s => s.handle).Nodup) :
    Translates modules (lazyInitSensorsList modules) :=
  (lazyInit_records modules).translates (lazyInit_inverse modules h)

end Translation

end SensorHandles
