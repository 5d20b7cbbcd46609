import Mocha.MultihalModule
import Mocha.SensorOrigins

/-!
# Commands down, events up

One index runs from a module through its device, its task and its queue, and the
handle maps use the same one. A failed load leaves no index behind, and a failed
open leaves no context.
-/
namespace Multihal

open SensorHandles

section Statics

def loadedModules (libraries : List Library) : List SubModule := libraries.filterMap Library.symbol

/-- The sensor lists of the modules that were loaded. -/
def sensorLists (libraries : List Library) : List (List Sensor) :=
  (loadedModules libraries).map SubModule.sensors

/-- The calls on the module, in any order. -/
inductive ModuleCall where
  | getSensorsList
  | openSensors (out name : Bool) (opens : Nat → Opened)

def moduleStep (libraries : List Library) (g : Globals) : ModuleCall → Option Globals
  | .getSensorsList => some (getSensorsList libraries g).1
  | .openSensors out name opens => some (openSensors libraries g out name opens).globals

def ModuleReachable (libraries : List Library) : Globals → Prop :=
  Transition.Reachable (moduleStep libraries) fun g => g = .start

/-- The statics are unset, or what the first call computed. -/
structure Globals.Ok (libraries : List Library) (g : Globals) : Prop where
  modules : g.subHwModules = none ∨ g.subHwModules = some (loadedModules libraries)
  published : g.published = none ∨ g.published = some (lazyInitSensorsList (sensorLists libraries))

theorem Globals.Ok.lazyInitModules {libraries : List Library} {g : Globals} (h : g.Ok libraries) :
    (lazyInitModules libraries g).Ok libraries ∧
      (lazyInitModules libraries g).subHwModules = some (loadedModules libraries) := by
  unfold Multihal.lazyInitModules
  split
  · rename_i modules hm
    rcases h.modules with hn | hs
    · rw [hm] at hn
      cases hn
    · exact ⟨h, hs⟩
  · exact ⟨⟨.inr rfl, h.published⟩, rfl⟩

theorem Globals.Ok.lazyInitSensors {libraries : List Library} {g : Globals} (h : g.Ok libraries) :
    (lazyInitSensors libraries g).Ok libraries ∧
      (lazyInitSensors libraries g).published = some (lazyInitSensorsList (sensorLists libraries)) := by
  unfold Multihal.lazyInitSensors
  split
  · rename_i p hp
    rcases h.published with hn | hs
    · rw [hp] at hn
      cases hn
    · exact ⟨h, hs⟩
  · obtain ⟨hok, hmodules⟩ := h.lazyInitModules
    have hlists : ((Multihal.lazyInitModules libraries g).subHwModules.getD []).map SubModule.sensors =
        sensorLists libraries := by
      rw [hmodules]
      rfl
    dsimp only
    rw [hlists]
    exact ⟨⟨hok.modules, .inr rfl⟩, rfl⟩

/-- However the open ends, what was built once is kept. -/
theorem Globals.Ok.openSensors {libraries : List Library} {g : Globals} (h : g.Ok libraries)
    (out name : Bool) (opens : Nat → Opened) :
    (openSensors libraries g out name opens).globals.Ok libraries := by
  unfold Multihal.openSensors
  split
  · exact h
  · obtain ⟨hok, -⟩ := h.lazyInitModules
    dsimp only
    split
    · exact hok
    · split
      · exact hok
      · exact hok.lazyInitSensors.1

theorem ModuleReachable.ok {libraries : List Library} {g : Globals} (h : ModuleReachable libraries g) :
    g.Ok libraries := by
  apply Transition.Reachable.invariant (Globals.Ok libraries) ?_ ?_ h
  · rintro g rfl
    exact ⟨.inl rfl, .inl rfl⟩
  · intro g a t _ hg ht
    cases a with
    | getSensorsList =>
      cases ht
      exact hg.lazyInitSensors.1
    | openSensors out name opens =>
      cases ht
      exact hg.openSensors out name opens

end Statics

section Devices

/-- The checks of `open_sensors`. -/
def Device.complete (d : Device) : Prop :=
  sensorsDeviceApiVersion10 ≤ d.version ∧ d.close = true ∧ d.activate = true ∧ d.setDelay = true ∧
    d.poll = true

/-- A device counts as open only when it is complete. -/
theorem Opened.error_zero {o : Opened} (h : o.error = 0) :
    ∃ d : Device, o = ⟨0, some d⟩ ∧ d.complete := by
  obtain ⟨result, sub⟩ := o
  unfold Opened.error at h
  dsimp only at h
  split at h
  · rename_i hr
    subst hr
    split at h
    · rename_i d
      split at h
      · exact absurd h (by decide)
      · rename_i hok
        refine ⟨d, rfl, ?_⟩
        simp only [Bool.or_eq_true, decide_eq_true_eq, Bool.not_eq_true', not_or, Nat.not_lt,
          Bool.not_eq_false] at hok
        exact ⟨hok.1.1.1.1, hok.1.1.1.2, hok.1.1.2, hok.1.2, hok.2⟩
    · exact absurd h (by decide)
  · rename_i hr
    exact absurd h hr

/-- Without an error every module has opened its own device, at its own index. -/
theorem openSubs_ok {opens : Nat → Opened} {modules : List SubModule} {i : Nat}
    (h : (openSubs opens i modules).2 = 0) :
    (openSubs opens i modules).1.length = modules.length ∧
    ∀ k < modules.length, ∃ d : Device, (openSubs opens i modules).1[k]? = some d ∧
      opens (i + k) = ⟨0, some d⟩ ∧ d.complete := by
  induction modules generalizing i with
  | nil => exact ⟨rfl, fun k hk => absurd hk (Nat.not_lt_zero k)⟩
  | cons m rest ih =>
    rw [openSubs] at h ⊢
    dsimp only at h ⊢
    split at h
    · rename_i herror
      exact absurd h herror
    · rename_i herror
      rw [if_neg herror]
      obtain ⟨d, hd, hc⟩ := Opened.error_zero (not_not.mp herror)
      obtain ⟨hlen, hrest⟩ := ih h
      rw [hd]
      refine ⟨by simp [hlen], ?_⟩
      intro k hk
      cases k with
      | zero => exact ⟨d, rfl, hd, hc⟩
      | succ k =>
        obtain ⟨d', hget, hopen, hc'⟩ := hrest k (by simpa using hk)
        refine ⟨d', by simpa using hget, ?_, hc'⟩
        rw [← hopen]
        congr 1
        omega

/-- The vectors of a context are aligned. -/
structure Aligned (ds : List Device) (c : Context) : Prop where
  devices : c.subHwDevices = ds
  queues : c.queues = ds.length
  consumed : c.consumedEvents = List.replicate ds.length 0
  tasks : c.tasks = ds.zipIdx

/-- Devices are added in the order of their modules. -/
theorem Aligned.add {ds : List Device} {c : Context} (h : Aligned ds c) (d : Device) :
    Aligned (ds ++ [d]) (addSubHwDevice c d) := by
  refine ⟨?_, ?_, ?_, ?_⟩
  · simp [addSubHwDevice, h.devices]
  · simp [addSubHwDevice, h.queues]
  · simp [addSubHwDevice, h.consumed, List.replicate_succ']
  · simp [addSubHwDevice, h.tasks, h.queues, List.zipIdx_append]

theorem Aligned.foldl {ds : List Device} {c : Context} (h : Aligned ds c) (more : List Device) :
    Aligned (ds ++ more) (more.foldl addSubHwDevice c) := by
  induction more generalizing ds c with
  | nil =>
    rw [List.append_nil]
    exact h
  | cons d more ih =>
    have hrest := ih (h.add d)
    rw [List.append_assoc] at hrest
    exact hrest

/-- What a successful `open_sensors` has done. -/
theorem openSensors_ok {libraries : List Library} {g : Globals} (h : g.Ok libraries) {out name : Bool}
    {opens : Nat → Opened} {c : Context}
    (hc : (openSensors libraries g out name opens).result = .ok c) :
    (openSensors libraries g out name opens).globals.published =
      some (lazyInitSensorsList (sensorLists libraries)) ∧
    ∃ ds : List Device, Aligned ds c ∧ ds.length = (sensorLists libraries).length ∧
      ∀ k < ds.length, ∃ d : Device, ds[k]? = some d ∧ opens k = ⟨0, some d⟩ ∧ d.complete := by
  unfold Multihal.openSensors at hc ⊢
  split at hc
  · cases hc
  · rename_i hargs
    rw [if_neg hargs]
    obtain ⟨hok, hmodules⟩ := h.lazyInitModules
    dsimp only at hc ⊢
    rw [hmodules] at hc ⊢
    simp only [Option.getD_some] at hc ⊢
    split at hc
    · cases hc
    · rename_i hne
      rw [if_neg hne]
      split at hc
      · cases hc
      · rename_i herror
        rw [if_neg herror]
        cases hc
        obtain ⟨hlen, hopened⟩ := openSubs_ok (not_not.mp herror)
        refine ⟨hok.lazyInitSensors.2, (openSubs opens 0 (loadedModules libraries)).1, ?_, ?_, ?_⟩
        · have hempty : Aligned [] ⟨[], 0, [], []⟩ := ⟨rfl, rfl, rfl, rfl⟩
          exact hempty.foldl _
        · rw [hlen, sensorLists, List.length_map]
        · intro k hk
          rw [hlen] at hk
          simpa using hopened k hk

end Devices

section Commands

/-- A published handle has its sensor. -/
theorem sensorByHandle_published {p : Published} {g : Int} (h : g ∈ globalHandles p) :
    (sensorByHandle p g).isNone = false := by
  obtain ⟨q, hq, hg⟩ := List.mem_map.mp h
  have hfound : (p.globalSensorsList.find? fun s => s.handle == g).isSome = true :=
    List.find?_isSome.mpr ⟨q, hq, by simpa using hg⟩
  rw [sensorByHandle, Option.isNone_eq_false_iff]
  exact hfound

/-- A handle of module `k` is passed down to device `k`. -/
theorem passDown_device {p : Published} {ds : List Device} {c : Context} (hc : Aligned ds c) {g l : Int}
    {k : Nat} {d : Device} (hm : getModuleIndex p.tables g = k) (hl : getLocalHandle p.tables g = l)
    (hpos : 0 ≤ l) (hd : ds[k]? = some d) (hcomplete : d.complete) (entry : Entry) :
    passDown p c g entry = some ⟨d, l, entry⟩ := by
  obtain ⟨hlt, -⟩ := List.getElem?_eq_some_iff.mp hd
  obtain ⟨hversion, -, hactivate, hdelay, hpoll⟩ := hcomplete
  have hv0 : getV0DeviceByHandle p c g = some d := by
    unfold getV0DeviceByHandle
    dsimp only
    rw [hm, hc.devices, if_neg (by omega)]
    simpa using hd
  have hcompliant : halIsCompliant p c g = true := by
    simp [halIsCompliant, hv0, hversion, hactivate, hdelay, hpoll]
  unfold passDown
  dsimp only
  rw [hv0, hl]
  simp [hcompliant, hpos]

/-- Commands on the global handle of sensor `l` of module `k` are calls of device `d` with the local
handle, and its writer fills queue `k`. -/
structure Routes (hal : Hal) (c : Context) (d : Device) (k : Nat) (l : Int) : Prop where
  task : c.tasks[k]? = some (d, k)
  activate : ∀ (s : State) (enabled : Int) (answer : SubCall → Int),
    contextActivate hal.published c s (getGlobalHandle hal.tables ⟨k, l⟩) enabled answer =
      (answer ⟨d, l, .activate enabled⟩, some ⟨d, l, .activate enabled⟩,
        (activate hal s (getGlobalHandle hal.tables ⟨k, l⟩) enabled (answer ⟨d, l, .activate enabled⟩)).2)
  setDelay : ∀ (ns : Int) (answer : SubCall → Int),
    setDelay hal.published c (getGlobalHandle hal.tables ⟨k, l⟩) ns answer =
      (answer ⟨d, l, .setDelay ns⟩, some ⟨d, l, .setDelay ns⟩)
  batch : ∀ (periodNs timeout : Int) (answer : SubCall → Int), 0 ≤ periodNs → 0 ≤ timeout →
    batch hal.published c (getGlobalHandle hal.tables ⟨k, l⟩) 0 periodNs timeout answer =
      (answer ⟨d, l, .setDelay periodNs⟩, some ⟨d, l, .setDelay periodNs⟩)

/-- A listed sensor is reached through the device of its own module. -/
theorem routes_device (hal : Hal) {ds : List Device} {c : Context}
    (ht : Translates hal.modules hal.published) (hc : Aligned ds c) {k : Nat} {l : Int} {d : Device} (hlisted : Listed hal.modules ⟨k, l⟩)
    (hpos : 0 ≤ l) (hk : k < hal.queueCount) (hd : ds[k]? = some d) (hcomplete : d.complete) :
    Routes hal c d k l := by
  obtain ⟨hmem, hmodule, hlocal⟩ := ht.forth ⟨k, l⟩ hlisted
  have hm : getModuleIndex hal.tables (getGlobalHandle hal.tables ⟨k, l⟩) = k := hmodule
  have hl : getLocalHandle hal.tables (getGlobalHandle hal.tables ⟨k, l⟩) = l := hlocal
  have hpublished : getGlobalHandle hal.tables ⟨k, l⟩ ∈ globalHandles hal.published := hmem
  have hpass : ∀ entry, passDown hal.published c (getGlobalHandle hal.tables ⟨k, l⟩) entry =
      some ⟨d, l, entry⟩ := passDown_device hc hm hl hpos hd hcomplete
  refine ⟨?_, ?_, ?_, ?_⟩
  · rw [hc.tasks, List.getElem?_zipIdx, hd]
    simp
  · intro s enabled answer
    have hdown : getLocalHandle hal.tables (getGlobalHandle hal.tables ⟨k, l⟩) ≥ 0 ∧
        0 ≤ getModuleIndex hal.tables (getGlobalHandle hal.tables ⟨k, l⟩) ∧
        getModuleIndex hal.tables (getGlobalHandle hal.tables ⟨k, l⟩) < hal.queueCount := by
      rw [hl, hm]
      omega
    unfold contextActivate Multihal.activate
    dsimp only
    rw [hpass, if_pos hdown]
    by_cases hz : answer ⟨d, l, .activate enabled⟩ = 0
    · simp [answered, hz]
    · simp [answered, hz]
  · intro ns answer
    unfold Multihal.setDelay
    dsimp only
    rw [hpass]
    rfl
  · intro periodNs timeout answer hperiod htimeout
    unfold Multihal.batch Multihal.setDelay
    dsimp only
    rw [hpass, sensorByHandle_published hpublished, if_neg]
    · rfl
    · simp
      omega

end Commands

section Events

/-- The event is about this sensor and not META_DATA. -/
def reports (handle : Int) (e : Event) : Bool := decide (e.type ≠ sensorTypeMetaData ∧ e.sensor = handle)

def relabel (handle : Int) (e : Event) : Event := { e with sensor := handle }

/-- Among the published events of module `k` those of a sensor are found by its global handle. -/
theorem filter_publish {t : Tables} (hi : Inverse t) {k : Nat} {l g : Int}
    (hg : t.fullToGlobal ⟨k, l⟩ = some g) (es : List Event) :
    (es.filterMap (publish t k)).filter (reports g) = (es.filter (reports l)).map (relabel g) := by
  induction es with
  | nil => rfl
  | cons e es ih =>
    by_cases htype : e.type = sensorTypeMetaData
    · simpa [publish, reports, htype] using ih
    · by_cases hl : e.sensor = l
      · simpa [publish, reports, htype, hl, hg, relabel] using ih
      · have hother (g' : Int) (hg' : t.fullToGlobal ⟨k, e.sensor⟩ = some g') : g' ≠ g := by
          rintro rfl
          have hsame := ((hi g' _).mpr hg').symm.trans ((hi g' _).mpr hg)
          exact hl (congrArg FullHandle.localHandle (Option.some.inj hsame))
        cases hf : t.fullToGlobal ⟨k, e.sensor⟩ with
        | none => simpa [publish, reports, htype, hl, hf] using ih
        | some g' => simpa [publish, reports, htype, hl, hf, hother g' hf] using ih

/-- The events that device `k` reports for its local handle `l` go upstream under the global handle:
the others in their order, and META_DATA among the completions of the adapter. -/
structure Delivers (hal : Hal) (s : State) (k : Nat) (l : Int) : Prop where
  events : (delivered s).filter (reports (getGlobalHandle hal.tables ⟨k, l⟩)) ++
      ((transit s k).filter (reports l)).map (relabel (getGlobalHandle hal.tables ⟨k, l⟩)) =
    ((validEvents (s.polls k)).filter (reports l)).map (relabel (getGlobalHandle hal.tables ⟨k, l⟩))
  metaData : ∀ r ∈ delivered s, r.type = sensorTypeMetaData →
    r.metaData.sensor = getGlobalHandle hal.tables ⟨k, l⟩ →
    r = flushComplete (getGlobalHandle hal.tables ⟨k, l⟩) ∨
    ∃ e ∈ validEvents (s.polls k), e.type = sensorTypeMetaData ∧ e.metaData.sensor = l ∧
      r = copyEventRemapHandle hal.tables e k

/-- Its events come back under the handle that was published. -/
theorem delivers_sensor {hal : Hal} {s : State} (h : Reachable hal s) (hi : Inverse hal.tables) {k : Nat}
    {l : Int} (hlisted : Listed hal.modules ⟨k, l⟩) : Delivers hal s k l := by
  have hrecords := lazyInit_records hal.modules
  obtain ⟨g, hg⟩ :=
    Option.isSome_iff_exists.mp ((hrecords.listed ⟨k, l⟩).mpr ((listed_iff _ _).mp hlisted))
  have hforth : hal.tables.fullToGlobal ⟨k, l⟩ = some g := hg
  have hback : hal.tables.globalToFull g = some ⟨k, l⟩ := (hi g _).mpr hforth
  have hglobal : getGlobalHandle hal.tables ⟨k, l⟩ = g := by simp [getGlobalHandle, hforth]
  constructor
  · have hc := congrArg (List.filter (reports g)) (h.conserved k)
    rw [List.filter_append, filter_publish hi hforth, filter_publish hi hforth] at hc
    have hfor : (deliveredFor hal s k).filter (reports g) = (delivered s).filter (reports g) := by
      rw [deliveredFor, List.filter_filter]
      apply List.filter_congr
      intro e _
      by_cases hr : reports g e = true
      · obtain ⟨htype, hsensor⟩ := of_decide_eq_true hr
        have hmodule : getModuleIndex hal.tables e.sensor = k := by
          simp [getModuleIndex, hsensor, hback]
        simp [hr, isEventOf, htype, hmodule]
      · simp [hr]
    rw [hglobal, ← hc, hfor]
  · rw [hglobal]
    intro r hr htype hnamed
    rcases h.traced.origin r hr with ⟨g', -, rfl⟩ | ⟨m, e, he, rfl, -⟩
    · obtain rfl : g' = g := hnamed
      exact .inl rfl
    · have hetype : e.type = sensorTypeMetaData := by
        by_contra hne
        simp [copyEventRemapHandle, hne] at htype
      have hcopy : getGlobalHandle hal.tables ⟨m, e.metaData.sensor⟩ = g := by
        simpa [copyEventRemapHandle, hetype] using hnamed
      have hpos := (hrecords.bound g (by rw [← Hal.published, ← Hal.tables, hback]; rfl)).1
      have hf : hal.tables.fullToGlobal ⟨m, e.metaData.sensor⟩ = some g := by
        unfold getGlobalHandle at hcopy
        split at hcopy
        · rename_i g' hg'
          rw [hg', hcopy]
        · omega
      have hsame := ((hi g _).mpr hf).symm.trans hback
      injection hsame with hsame
      injection hsame with hm hl
      obtain rfl : m = k := by omega
      exact .inr ⟨e, he, hetype, hl, rfl⟩

end Events

section Theorem

variable (libraries : List Library)

/-- For modules with distinct local handles that are not negative: after `lazy_init_sensors_list`,
whatever was called before, the maps translate between the published handles and the listed sensors;
and after a successful `open_sensors` every command on a published handle goes to the device of its
module with its local handle, and the events that this device reports come back under it. -/
theorem handles_translate_and_route (g : Globals) (hg : ModuleReachable libraries g)
    (hdistinct : ∀ sensors ∈ sensorLists libraries, (sensors.map fun s => s.handle).Nodup)
    (hpos : ∀ sensors ∈ sensorLists libraries, ∀ s ∈ sensors, 0 ≤ s.handle) :
    (lazyInitSensors libraries g).published = some (lazyInitSensorsList (sensorLists libraries)) ∧
    Translates (sensorLists libraries) (lazyInitSensorsList (sensorLists libraries)) ∧
    ∀ out name opens c, (openSensors libraries g out name opens).result = .ok c →
      (openSensors libraries g out name opens).globals.published =
        some (lazyInitSensorsList (sensorLists libraries)) ∧
      c.queues = (sensorLists libraries).length ∧
      ∀ k l, Listed (sensorLists libraries) ⟨(k : Nat), l⟩ →
        (∃ d, opens k = ⟨0, some d⟩ ∧ Routes ⟨sensorLists libraries⟩ c d k l) ∧
        ∀ s, Reachable ⟨sensorLists libraries⟩ s → Delivers ⟨sensorLists libraries⟩ s k l := by
  have hok := hg.ok
  have htranslates := lazyInit_translates (sensorLists libraries) hdistinct
  refine ⟨hok.lazyInitSensors.2, htranslates, ?_⟩
  intro out name opens c hc
  obtain ⟨hpublished, ds, haligned, hlen, hopened⟩ := openSensors_ok hok hc
  refine ⟨hpublished, haligned.queues.trans hlen, ?_⟩
  intro k l hlisted
  obtain ⟨k', sensors, hk', hindex, s, hs, hl⟩ := hlisted
  obtain rfl : k = k' := by
    dsimp only at hindex
    omega
  have hlt : k < (sensorLists libraries).length := (List.getElem?_eq_some_iff.mp hk').1
  have hnonneg : 0 ≤ l := by
    dsimp only at hl
    rw [← hl]
    exact hpos sensors (List.mem_of_getElem? hk') s hs
  have hlisted : Listed (sensorLists libraries) ⟨k, l⟩ := ⟨k, sensors, hk', rfl, s, hs, hl⟩
  constructor
  · obtain ⟨d, hd, hopen, hcomplete⟩ := hopened k (by omega)
    exact ⟨d, hopen, routes_device ⟨sensorLists libraries⟩ htranslates haligned hlisted hnonneg hlt
      hd hcomplete⟩
  · intro state hstate
    exact delivers_sensor hstate (lazyInit_inverse _ hdistinct) hlisted

/-- Two of four libraries load, each with an accelerometer under 101. -/
def sampleLibraries : List Library :=
  [.unopened, .loaded ⟨[⟨101, 1, 0, 0, 0, 0, 0⟩]⟩, .symbolError, .loaded ⟨[⟨101, 1, 0, 0, 0, 0, 0⟩]⟩]

def sampleDevice (k : Nat) : Device := ⟨k, sensorsDeviceApiVersion10, true, true, true, true⟩

theorem second_accelerometer_routed : ∃ c,
    (openSensors sampleLibraries .start true true fun k => ⟨0, some (sampleDevice k)⟩).result = .ok c ∧
    setDelay sampleHal.published c 2 5 (fun _ => 0) = (0, some ⟨sampleDevice 1, 101, .setDelay 5⟩) ∧
    Delivers sampleHal ((sampleRun samplePair).get (by decide)) 1 101 := by
  have hall := handles_translate_and_route sampleLibraries .start (.start rfl) (by decide) (by decide)
  have hlisted : Listed (sensorLists sampleLibraries) ⟨(1 : Nat), 101⟩ :=
    ⟨1, _, rfl, rfl, _, List.mem_singleton_self _, rfl⟩
  obtain ⟨-, -, hopen⟩ := hall
  obtain ⟨-, -, hroute⟩ := hopen true true (fun k => ⟨0, some (sampleDevice k)⟩) _ rfl
  obtain ⟨⟨d, hd, hroutes⟩, hdelivers⟩ := hroute 1 101 hlisted
  obtain rfl : sampleDevice 1 = d := by simpa using hd
  exact ⟨_, rfl, hroutes.setDelay 5 fun _ => 0, hdelivers _ (sampleRun_reachable samplePair _)⟩

end Theorem

end Multihal
