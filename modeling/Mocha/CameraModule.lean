import Mocha.CameraCharacteristics
import Mocha.Transition

/-!
# The camera module

`camera/CameraWrapper.cpp`. The stock module is loaded once, at the first call that asks for
it, for better or worse. The characteristics of a camera are built when they are first asked
for, again after each failure, and kept for good once they are there.
-/
namespace CameraModule

open CameraMetadata Transition

section Definitions

def einval : Int := 22
def enodev : Int := 19
def cameraModuleApiVersion21 : Nat := 0x0201
def cameraModuleApiVersion22 : Nat := 0x0202
def cameraDeviceApiVersion30 : Nat := 0x0300
def cameraDeviceApiVersion32 : Nat := 0x0302

/-- What the stock module is: its version, whether it has the functions that loading asks for,
and its optional ones. -/
structure Vendor where
  moduleApiVersion : Nat
  complete : Bool
  setCallbacks : Bool
  getVendorTagOps : Bool
  deriving DecidableEq, Repr

/-- What loading finds: the imager's discovery with its nodes, and the stock module. -/
structure Loading where
  imager : Bool
  module : Option Vendor
  deriving DecidableEq, Repr

/-- `camera_info` as the stock module fills it in. -/
structure StockInfo where
  facing : Int
  orientation : Int
  deviceVersion : Nat
  characteristics : Option Metadata
  deriving DecidableEq, Repr

/-- What the stock module and the allocator answer to one question for a camera. -/
structure InfoAnswers where
  cameras : Int
  result : Int
  stock : StockInfo
  clone : Bool
  alloc : Allocations
  deriving DecidableEq, Repr

/-- `camera_info` as the framework gets it. -/
structure CameraInfo where
  facing : Int
  orientation : Int
  deviceVersion : Nat
  characteristics : Metadata
  deriving DecidableEq, Repr

/-- The globals. The outer `none` of `vendor` is that nothing has been loaded yet. -/
structure Module where
  vendor : Option (Option Vendor)
  characteristics : List Metadata
  deriving DecidableEq, Repr

def newModule : Module := ⟨none, [[], []]⟩

def loadVendorModule (l : Loading) : Option Vendor :=
  if l.imager = false then none
  else l.module.filter fun v => decide (cameraModuleApiVersion21 ≤ v.moduleApiVersion) && v.complete

/-- `pthread_once`: only the first call loads. -/
def getStockCameraModule (s : Module) (l : Loading) : Option Vendor × Module :=
  match s.vendor with
  | some vendor => (vendor, s)
  | none => (loadVendorModule l, { s with vendor := some (loadVendorModule l) })

def numberOfCameras (s : Module) (l : Loading) (cameras : Int) : Int × Module :=
  let stock := getStockCameraModule s l
  (if stock.1.isSome then cameras else 0, stock.2)

def setCallbacks (s : Module) (l : Loading) (result : Int) : Int × Module :=
  let stock := getStockCameraModule s l
  (match stock.1 with
    | none => -enodev
    | some vendor => if vendor.setCallbacks then result else 0, stock.2)

/-- Whether the stock module is asked for its vendor tags. -/
def vendorTags (s : Module) (l : Loading) (ops : Bool) : Bool × Module :=
  if ops = false then (false, s)
  else
    let stock := getStockCameraModule s l
    (stock.1.any fun v =>
      decide (cameraModuleApiVersion22 ≤ v.moduleApiVersion) && v.getVendorTagOps, stock.2)

/-- Only a camera that has no characteristics yet is asked for them. -/
def refreshed (kept : Metadata) (a : InfoAnswers) : Bool × Metadata :=
  if kept.isEmpty then buildCharacteristics a.stock.characteristics a.clone a.alloc kept
  else (true, kept)

/-- The end of `get_mocha_camera_info`, when the stock module has answered. -/
def publishInfo (s : Module) (id : Nat) (a : InfoAnswers) : (Int × Option CameraInfo) × Module :=
  if a.result ≠ 0 then ((a.result, none), s)
  else if a.stock.deviceVersion ≠ cameraDeviceApiVersion30 then ((-enodev, none), s)
  else
    let built := refreshed (s.characteristics.getD id []) a
    if built.1 = false then ((-einval, none), s)
    else
      ((0, some ⟨a.stock.facing, a.stock.orientation, cameraDeviceApiVersion32, built.2⟩),
        { s with characteristics := s.characteristics.set id built.2 })

/-- The result, and what `info` is filled with. -/
def getMochaCameraInfo (s : Module) (l : Loading) (info : Bool) (id : Int) (a : InfoAnswers) :
    (Int × Option CameraInfo) × Module :=
  if info = false ∨ id < 0 ∨ (s.characteristics.length : Int) ≤ id then ((-einval, none), s)
  else
    let stock := getStockCameraModule s l
    if stock.1.isNone then ((-enodev, none), stock.2)
    else if a.cameras ≤ id then ((-einval, none), stock.2)
    else publishInfo stock.2 id.toNat a

end Definitions

section Runs

inductive Call
  | numberOfCameras (l : Loading) (cameras : Int)
  | setCallbacks (l : Loading) (result : Int)
  | vendorTags (l : Loading) (ops : Bool)
  | cameraInfo (l : Loading) (info : Bool) (id : Int) (a : InfoAnswers)
  deriving DecidableEq, Repr

def moduleStep (s : Module) : Call → Option Module
  | .numberOfCameras l cameras => some (numberOfCameras s l cameras).2
  | .setCallbacks l result => some (setCallbacks s l result).2
  | .vendorTags l ops => some (vendorTags s l ops).2
  | .cameraInfo l info id a => some (getMochaCameraInfo s l info id a).2

/-- What a call hands to the framework about a camera. -/
def handedOut (s : Module) : Call → Option (Nat × Metadata)
  | .cameraInfo l info id a =>
    (getMochaCameraInfo s l info id a).1.2.map fun i => (id.toNat, i.characteristics)
  | _ => none

/-- What the calls of the module hand to the framework, in order. -/
def handouts (s : Module) (calls : List Call) : List (Nat × Metadata) :=
  trace moduleStep (fun s c => (handedOut s c).toList) s calls

/-- What has been kept for a camera; empty as long as nothing was built. -/
def Module.kept (s : Module) (id : Nat) : Metadata := s.characteristics.getD id []

/-- A question that gets as far as the characteristics: the stock module has a HAL3.0 device. -/
structure Module.Asked (s : Module) (l : Loading) (id : Int) (a : InfoAnswers) : Prop where
  lower : 0 ≤ id
  upper : id < (s.characteristics.length : Int)
  loaded : (getStockCameraModule s l).1.isSome = true
  camera : id < a.cameras
  result : a.result = 0
  version : a.stock.deviceVersion = cameraDeviceApiVersion30

/-- What one complete build makes of the answers. -/
def InfoAnswers.build (a : InfoAnswers) : Bool × Metadata :=
  buildCharacteristics a.stock.characteristics a.clone a.alloc []

/-- What a question about a camera is answered with when there are characteristics. -/
def InfoAnswers.info (a : InfoAnswers) (m : Metadata) : CameraInfo :=
  ⟨a.stock.facing, a.stock.orientation, cameraDeviceApiVersion32, m⟩

/-- Characteristics that were built of some stock characteristics without a failure. -/
def Built (m : Metadata) : Prop := ∃ stock a o, publish stock a = some o ∧ o.ok = true ∧
  m = o.metadata

def Module.Good (s : Module) : Prop := ∀ id, s.kept id = [] ∨ Built (s.kept id)

/-- What was built is never taken for the empty entry. -/
theorem Built.ne_nil {m : Metadata} (h : Built m) : m ≠ [] := by
  obtain ⟨stock, a, o, hpublish, hok, rfl⟩ := h
  obtain ⟨_, _, before, -, -, hmeta⟩ := publish_ok hpublish hok
  rw [hmeta]
  exact update_ne_nil _ _ _

theorem good_new : newModule.Good := by
  intro id
  left
  rcases id with _ | _ | id
  · rfl
  · rfl
  · rfl

/-- Loading the stock module touches no camera. -/
theorem getStockCameraModule_keeps (s : Module) (l : Loading) :
    (getStockCameraModule s l).2.characteristics = s.characteristics := by
  rw [getStockCameraModule]
  cases s.vendor with
  | some vendor => rfl
  | none => rfl

/-- A kept value is used again, an empty entry is built. -/
theorem refreshed_ok {kept : Metadata} {a : InfoAnswers} (h : (refreshed kept a).1 = true) :
    (kept ≠ [] → (refreshed kept a).2 = kept) ∧ (kept = [] → Built (refreshed kept a).2) := by
  rw [refreshed] at h ⊢
  cases kept with
  | nil =>
    have hempty : ([] : Metadata).isEmpty = true := rfl
    rw [if_pos hempty] at h ⊢
    obtain ⟨m, o, -, hpublish, hok, hmeta⟩ := buildCharacteristics_ok h
    exact ⟨fun hne => absurd rfl hne, fun _ => ⟨m, a.alloc, o, hpublish, hok, hmeta⟩⟩
  | cons e kept =>
    exact ⟨fun _ => rfl, fun hnil => by cases hnil⟩

/-- What a step keeps for the cameras, given what it hands out. -/
def Follows (s t : Module) : Option (Nat × Metadata) → Prop
  | none => t.characteristics = s.characteristics
  | some p => p.1 < s.characteristics.length ∧
    t.characteristics = s.characteristics.set p.1 p.2 ∧
    (s.kept p.1 ≠ [] → p.2 = s.kept p.1) ∧ (s.kept p.1 = [] → Built p.2)

/-- Steps before that keep the characteristics can be left out. -/
theorem Follows.of_same {s u t : Module} (hu : u.characteristics = s.characteristics)
    {p : Option (Nat × Metadata)} (h : Follows u t p) : Follows s t p := by
  cases p with
  | none => exact h.trans hu
  | some p =>
    simp only [Follows, Module.kept, hu] at h
    exact h

/-- What is handed out is what is kept from then on. -/
theorem publishInfo_follows {s : Module} {id : Nat} (hid : id < s.characteristics.length)
    (a : InfoAnswers) : Follows s (publishInfo s id a).2
      ((publishInfo s id a).1.2.map fun i => (id, i.characteristics)) := by
  rw [publishInfo]
  by_cases hresult : a.result ≠ 0
  · rw [if_pos hresult]
    exact rfl
  · rw [if_neg hresult]
    by_cases hversion : a.stock.deviceVersion ≠ cameraDeviceApiVersion30
    · rw [if_pos hversion]
      exact rfl
    · rw [if_neg hversion]
      cases hbuilt : (refreshed (s.characteristics.getD id []) a).1 with
      | false =>
        simp only [hbuilt, if_true]
        exact rfl
      | true =>
        simp only [hbuilt, Bool.true_eq_false, if_false]
        obtain ⟨hkept, hnew⟩ := refreshed_ok hbuilt
        exact ⟨hid, rfl, hkept, hnew⟩

theorem moduleStep_follows {s t : Module} {c : Call} (h : moduleStep s c = some t) :
    Follows s t (handedOut s c) := by
  cases c with
  | numberOfCameras l cameras =>
    cases h
    exact getStockCameraModule_keeps s l
  | setCallbacks l result =>
    cases h
    exact getStockCameraModule_keeps s l
  | vendorTags l ops =>
    cases h
    simp only [handedOut, vendorTags]
    split_ifs
    · exact rfl
    · exact getStockCameraModule_keeps s l
  | cameraInfo l info id a =>
    cases h
    have hkeeps := getStockCameraModule_keeps s l
    simp only [handedOut, getMochaCameraInfo]
    split_ifs with hargs
    · exact rfl
    · exact hkeeps
    · exact hkeeps
    · have hid : id.toNat < (getStockCameraModule s l).2.characteristics.length := by
        rw [hkeeps]
        omega
      exact (publishInfo_follows hid a).of_same hkeeps

/-- Only the entry of one camera is written. -/
theorem Module.kept_set {s t : Module} {id : Nat} {m : Metadata}
    (hid : id < s.characteristics.length) (h : t.characteristics = s.characteristics.set id m)
    (j : Nat) : t.kept j = if j = id then m else s.kept j := by
  rw [Module.kept, Module.kept, h, List.getD_eq_getElem?_getD, List.getD_eq_getElem?_getD,
    List.getElem?_set]
  by_cases hj : j = id
  · subst hj
    rw [if_pos rfl, if_pos rfl, if_pos hid]
    rfl
  · rw [if_neg (Ne.symm hj), if_neg hj]

/-- What a step hands out is built, and what is kept for a camera once is what it hands out. -/
theorem Follows.good {s t : Module} {p : Option (Nat × Metadata)} (h : Follows s t p)
    (hs : s.Good) : t.Good ∧ (∀ q ∈ p, Built q.2 ∧ t.kept q.1 = q.2) ∧
      ∀ id, s.kept id ≠ [] → t.kept id = s.kept id := by
  cases p with
  | none =>
    have hsame : ∀ id, t.kept id = s.kept id := fun id => by
      rw [Module.kept, Module.kept, h]
    have hnone : ∀ q ∈ (none : Option (Nat × Metadata)), Built q.2 ∧ t.kept q.1 = q.2 := by
      intro q hq
      cases hq
    refine ⟨fun id => ?_, hnone, fun id _ => hsame id⟩
    rw [hsame id]
    exact hs id
  | some p =>
    obtain ⟨hid, hset, hkept, hnew⟩ := h
    have hbuilt : Built p.2 := by
      by_cases hnil : s.kept p.1 = []
      · exact hnew hnil
      · rw [hkept hnil]
        exact (hs p.1).resolve_left hnil
    refine ⟨fun id => ?_, fun q hq => ?_, fun id hne => ?_⟩
    · rw [Module.kept_set hid hset]
      split_ifs
      · exact .inr hbuilt
      · exact hs id
    · cases hq
      exact ⟨hbuilt, by rw [Module.kept_set hid hset, if_pos rfl]⟩
    · rw [Module.kept_set hid hset]
      split_ifs with heq
      · rw [heq, hkept (heq ▸ hne)]
      · rfl

theorem moduleStep_total (s : Module) (c : Call) : ∃ t, moduleStep s c = some t := by
  cases c <;> exact ⟨_, rfl⟩

theorem run_total (s : Module) (calls : List Call) : ∃ t, run moduleStep s calls = some t := by
  induction calls generalizing s with
  | nil => exact ⟨s, rfl⟩
  | cons c calls ih =>
    obtain ⟨t, ht⟩ := moduleStep_total s c
    rw [run_cons, ht]
    exact ih t

/-- What the first call hands out comes first. -/
theorem handouts_cons {s t : Module} {c : Call} (h : moduleStep s c = some t) (calls : List Call) :
    handouts s (c :: calls) = (handedOut s c).toList ++ handouts t calls :=
  trace_cons h _ calls

/-- All that is handed out from a state on is built, and agrees with what the state keeps. -/
theorem handouts_built {s : Module} (hs : s.Good) {calls : List Call} {p : Nat × Metadata}
    (hp : p ∈ handouts s calls) : Built p.2 ∧ (s.kept p.1 ≠ [] → p.2 = s.kept p.1) := by
  induction calls generalizing s with
  | nil => cases hp
  | cons c calls ih =>
    obtain ⟨t, ht⟩ := moduleStep_total s c
    rw [handouts_cons ht, List.mem_append, Option.mem_toList] at hp
    obtain ⟨hgood, hout, hkept⟩ := (moduleStep_follows ht).good hs
    rcases hp with hnow | hlater
    · obtain ⟨hbuilt, hnew⟩ := hout p hnow
      exact ⟨hbuilt, fun hne => by rw [← hnew, hkept p.1 hne]⟩
    · obtain ⟨hbuilt, hrest⟩ := ih hgood hlater
      refine ⟨hbuilt, fun hne => ?_⟩
      rw [← hkept p.1 hne]
      exact hrest (by rw [hkept p.1 hne]; exact hne)

theorem run_keeps {s t : Module} (hs : s.Good) {calls : List Call}
    (h : run moduleStep s calls = some t) : t.Good ∧ ∀ id, s.kept id ≠ [] → t.kept id = s.kept id := by
  induction calls generalizing s with
  | nil =>
    cases h
    exact ⟨hs, fun _ _ => rfl⟩
  | cons c calls ih =>
    rw [run_cons] at h
    obtain ⟨u, hu, hrest⟩ := Option.bind_eq_some_iff.mp h
    obtain ⟨hgood, -, hkept⟩ := (moduleStep_follows hu).good hs
    obtain ⟨htgood, hlater⟩ := ih hgood hrest
    refine ⟨htgood, fun id hne => ?_⟩
    rw [hlater id (by rw [hkept id hne]; exact hne), hkept id hne]

/-- What has been handed out is kept for good. -/
theorem handouts_kept {s t : Module} (hs : s.Good) {calls : List Call}
    (h : run moduleStep s calls = some t) {p : Nat × Metadata} (hp : p ∈ handouts s calls) :
    t.kept p.1 = p.2 := by
  induction calls generalizing s with
  | nil => cases hp
  | cons c calls ih =>
    rw [run_cons] at h
    obtain ⟨u, hu, hrest⟩ := Option.bind_eq_some_iff.mp h
    rw [handouts_cons hu, List.mem_append, Option.mem_toList] at hp
    obtain ⟨hgood, hout, -⟩ := (moduleStep_follows hu).good hs
    rcases hp with hnow | hlater
    · obtain ⟨hbuilt, hnew⟩ := hout p hnow
      have hne : u.kept p.1 ≠ [] := by
        rw [hnew]
        exact hbuilt.ne_nil
      rw [(run_keeps hgood hrest).2 p.1 hne, hnew]
    · exact ih hgood hrest hlater

/-- Nothing is kept for a camera but what was kept before or has been handed out. -/
theorem kept_handouts {s t : Module} {calls : List Call} (h : run moduleStep s calls = some t)
    (id : Nat) : t.kept id = s.kept id ∨ (id, t.kept id) ∈ handouts s calls := by
  induction calls generalizing s with
  | nil =>
    cases h
    exact .inl rfl
  | cons c calls ih =>
    rw [run_cons] at h
    obtain ⟨u, hu, hrest⟩ := Option.bind_eq_some_iff.mp h
    rw [handouts_cons hu, List.mem_append, Option.mem_toList]
    rcases ih hrest with hsame | hlater
    · rw [hsame]
      have hfollows := moduleStep_follows hu
      cases hout : handedOut s c with
      | none =>
        rw [hout] at hfollows
        left
        rw [Module.kept, Module.kept, hfollows]
      | some p =>
        rw [hout] at hfollows
        obtain ⟨hid, hset, -, -⟩ := hfollows
        rw [Module.kept_set hid hset id]
        by_cases heq : id = p.1
        · right
          left
          rw [if_pos heq, heq]
        · left
          rw [if_neg heq]
    · exact .inr (.inr hlater)

theorem newModule_kept (id : Nat) : newModule.kept id = [] := by
  rcases id with _ | _ | id
  · rfl
  · rfl
  · rfl

section Asked

variable {s : Module} {l : Loading} {id : Int} {a : InfoAnswers}

theorem Module.Asked.published (h : s.Asked l id a) : getMochaCameraInfo s l true id a =
    publishInfo (getStockCameraModule s l).2 id.toNat a := by
  have hargs : ¬(true = false ∨ id < 0 ∨ (s.characteristics.length : Int) ≤ id) := by
    rintro (habsent | hlow | hhigh)
    · cases habsent
    · exact absurd h.lower (not_le.mpr hlow)
    · exact absurd h.upper (not_lt.mpr hhigh)
  have hloaded : ¬(getStockCameraModule s l).1.isNone = true := by
    rw [Option.isNone_iff_eq_none]
    exact Option.isSome_iff_ne_none.mp h.loaded
  have hcamera : ¬a.cameras ≤ id := not_le.mpr h.camera
  rw [getMochaCameraInfo, if_neg hargs]
  dsimp only
  rw [if_neg hloaded, if_neg hcamera]

/-- What is answered, with what is kept or built for the camera. -/
theorem Module.Asked.answer (h : s.Asked l id a) :
    (getMochaCameraInfo s l true id a).1 =
      if (refreshed (s.kept id.toNat) a).1 then
        (0, some (a.info (refreshed (s.kept id.toNat) a).2)) else (-einval, none) := by
  have hkept : (getStockCameraModule s l).2.characteristics.getD id.toNat [] = s.kept id.toNat := by
    rw [getStockCameraModule_keeps, Module.kept]
  rw [h.published, publishInfo, if_neg (not_not.mpr h.result), if_neg (not_not.mpr h.version)]
  dsimp only
  rw [hkept]
  cases (refreshed (s.kept id.toNat) a).1 with
  | false => rfl
  | true => rfl

/-- A build that fails leaves what is kept for every camera as it was. -/
theorem Module.Asked.untouched (h : s.Asked l id a)
    (hfails : (refreshed (s.kept id.toNat) a).1 = false) :
    (getMochaCameraInfo s l true id a).2.characteristics = s.characteristics := by
  have hfollows := moduleStep_follows (s := s) (c := .cameraInfo l true id a) rfl
  rw [handedOut, h.answer, hfails] at hfollows
  exact hfollows

end Asked

/-- Over all calls of the module: what the framework is given of a camera are always the same
characteristics, and they were built of stock ones without a failure. As long as it was given none,
every question builds: a failed build changes nothing. From then on no question fails any more. -/
structure Stable (calls : List Call) : Prop where
  built : ∀ p ∈ handouts newModule calls, Built p.2
  same : ∀ p ∈ handouts newModule calls, ∀ q ∈ handouts newModule calls, p.1 = q.1 → p.2 = q.2
  retried : ∀ s, run moduleStep newModule calls = some s → ∀ l id a, s.Asked l id a →
    (∀ p ∈ handouts newModule calls, p.1 ≠ id.toNat) →
      (getMochaCameraInfo s l true id a).1 =
        (if a.build.1 then (0, some (a.info a.build.2)) else (-einval, none)) ∧
      (a.build.1 = false →
        (getMochaCameraInfo s l true id a).2.characteristics = s.characteristics)
  served : ∀ s, run moduleStep newModule calls = some s → ∀ l id a, s.Asked l id a →
    ∀ p ∈ handouts newModule calls, p.1 = id.toNat →
      (getMochaCameraInfo s l true id a).1 = (0, some (a.info p.2))

theorem characteristics_stable (calls : List Call) : Stable calls where
  built := fun _ hp => (handouts_built good_new hp).1
  same := by
    intro p hp q hq heq
    obtain ⟨s, hs⟩ := run_total newModule calls
    rw [← handouts_kept good_new hs hp, ← handouts_kept good_new hs hq, heq]
  retried := by
    intro s hs l id a h hnone
    have hempty : s.kept id.toNat = [] := by
      rcases kept_handouts hs id.toNat with hsame | hgiven
      · rw [hsame, newModule_kept]
      · exact absurd rfl (hnone _ hgiven)
    have hbuild : refreshed (s.kept id.toNat) a = a.build := by
      rw [hempty]
      rfl
    exact ⟨by rw [h.answer, hbuild], fun hfails => h.untouched (by rw [hbuild]; exact hfails)⟩
  served := by
    intro s hs l id a h p hp heq
    have hkept : s.kept id.toNat = p.2 := by
      rw [← heq]
      exact handouts_kept good_new hs hp
    have hne : p.2.isEmpty = false := by
      rw [List.isEmpty_eq_false_iff]
      exact (handouts_built good_new hp).1.ne_nil
    have hrefreshed : refreshed (s.kept id.toNat) a = (true, p.2) := by
      rw [hkept, refreshed, hne]
      rfl
    rw [h.answer, hrefreshed]
    rfl

/-- A module with a copy that fails at first. -/
def slowModule : Loading := ⟨true, some ⟨cameraModuleApiVersion21, true, false, false⟩⟩

def slowAnswers (clone : Bool) : InfoAnswers :=
  ⟨2, 0, ⟨0, 90, cameraDeviceApiVersion30, some slowSensor⟩, clone, []⟩

def slowAsked (clone : Bool) : Call := .cameraInfo slowModule true 0 (slowAnswers clone)

/-- The first build fails, the second does not, and the third question needs none. -/
theorem slowSensor_stable : Stable [slowAsked false, slowAsked true, slowAsked false] ∧
    (handouts newModule [slowAsked false, slowAsked true, slowAsked false]).map Prod.fst = [0, 0] ∧
    (getMochaCameraInfo newModule slowModule true 0 (slowAnswers false)).1 = (-einval, none) :=
  ⟨characteristics_stable _, by decide +kernel, by decide +kernel⟩

end Runs

end CameraModule
