import Mocha.AudioParser

/-!
# What every accepted configuration satisfies

The parser takes device types from its table, and no two devices of one
direction share a device bit. No device is in use, no stream is open, and no
route is set. The facts hold after every event, so they hold of the result.
-/
namespace TinyHal

open Mask

/-- The device bits of a type or a route, without the direction. -/
def deviceBits (t : BitVec 32) : BitVec 32 := t &&& ~~~audioDeviceBitIn

/-- The direction: whether `AUDIO_DEVICE_BIT_IN` is set. -/
def isIn (t : BitVec 32) : Bool := t.getLsbD 31

theorem bitIn_getLsbD (i : Nat) : audioDeviceBitIn.getLsbD i = true ↔ i = 31 := by
  have h : audioDeviceBitIn = BitVec.twoPow 32 31 := by decide
  rw [h, BitVec.getLsbD_twoPow]
  simp [eq_comm]

/-- The direction test of the source is a test of bit 31 alone. -/
theorem isIn_iff (t : BitVec 32) : isIn t = true ↔ t &&& audioDeviceBitIn ≠ 0#32 := by
  have h := meets_iff t audioDeviceBitIn
  unfold Meets at h
  rw [h]
  constructor
  · intro hin
    exact ⟨31, hin, (bitIn_getLsbD 31).mpr rfl⟩
  · rintro ⟨i, ht, hi⟩
    rw [(bitIn_getLsbD i).mp hi] at ht
    exact ht

/-- Taking the direction bit out leaves every other bit as it was. -/
theorem deviceBits_getLsbD (t : BitVec 32) (i : Nat) :
    (deviceBits t).getLsbD i = true ↔ t.getLsbD i = true ∧ i ≠ 31 := by
  unfold deviceBits
  rw [getLsbD_diff]
  constructor
  · rintro ⟨ht, hi⟩
    refine ⟨ht, ?_⟩
    intro h
    rw [(bitIn_getLsbD i).mpr h] at hi
    cases hi
  · rintro ⟨ht, hi⟩
    refine ⟨ht, ?_⟩
    rw [← Bool.not_eq_true, bitIn_getLsbD]
    exact hi

def deviceTypes : List (BitVec 32) := deviceTable.map fun p => p.2

/-- Distinct device types of one direction have no bit in common. -/
theorem deviceTypes_apart : ∀ t ∈ deviceTypes, ∀ u ∈ deviceTypes,
    isIn t = isIn u → t ≠ u → ¬ Meets (deviceBits t) (deviceBits u) := by
  have h : (deviceTypes.all fun t => deviceTypes.all fun u =>
      decide (isIn t = isIn u → t ≠ u → ¬ Meets (deviceBits t) (deviceBits u))) = true := by
    decide +kernel
  intro t ht u hu
  have htu := List.all_eq_true.mp (List.all_eq_true.mp h t ht) u hu
  exact of_decide_eq_true htu

/-- The part of the manager that only `<device>` and `<stream>` elements extend. -/
structure Outline where
  devices : List (BitVec 32 × Int)
  streams : List (Int × BitVec 32)
  supportedOut : BitVec 32
  supportedIn : BitVec 32
  walks : List Walk

def ConfigMgr.outline (cm : ConfigMgr) : Outline where
  devices := cm.devices.map fun d => (d.type, d.useCount)
  streams := cm.streams.map fun s => (s.refCount, s.currentDevices)
  supportedOut := cm.supportedOutputDevices
  supportedIn := cm.supportedInputDevices
  walks := cm.walks

def Outline.supported (o : Outline) (t : BitVec 32) : BitVec 32 :=
  if isIn t then o.supportedIn else o.supportedOut

/-- No two devices of one direction share a bit. -/
def Apart (types : List (BitVec 32)) : Prop :=
  types.Pairwise fun t u => isIn t = isIn u → ¬ Meets (deviceBits t) (deviceBits u)

structure Outline.Wf (o : Outline) : Prop where
  known : ∀ d ∈ o.devices, d.1 ∈ deviceTypes
  apart : Apart (o.devices.map fun d => d.1)
  listed : ∀ d ∈ o.devices, d.1 ≠ 0#32 → d.1 &&& o.supported d.1 = d.1
  unused : ∀ d ∈ o.devices, d.2 = 0
  idle : ∀ s ∈ o.streams, s = (0, 0#32)
  fresh : o.walks = []

section Handlers

/-- Every result of a computation that succeeds. -/
def Yields {α : Type} (x : Except Fault α) (Q : α → Prop) : Prop := ∀ a, x = .ok a → Q a

variable {α β : Type} {Q : β → Prop}

theorem yields_pure {b : β} (h : Q b) : Yields (pure b) Q := by
  intro a ha
  cases ha
  exact h

theorem yields_throw (e : Fault) : Yields (throw e) Q := by
  intro a ha
  cases ha

/-- What follows a call is proved from what the call returned. -/
theorem yields_bind {x : Except Fault α} {f : α → Except Fault β}
    (h : ∀ a, x = .ok a → Yields (f a) Q) : Yields (x >>= f) Q := by
  intro b hb
  cases x with
  | error e => cases hb
  | ok a => exact h a rfl b hb

/-- A handler that adds no device and no stream. -/
def Keeps (h : Handler) : Prop := ∀ st, Yields (h st) fun st' => st'.cm.outline = st.cm.outline

/-- An edit that keeps type and use count of a device is not seen by the outline. -/
theorem outline_modifyDevice (cm : ConfigMgr) (d : Nat) (f : Device → Device)
    (hf : ∀ x, (f x).type = x.type ∧ (f x).useCount = x.useCount) :
    (modifyDevice cm d f).outline = cm.outline := by
  have h : (cm.devices.modify d f).map (fun d => (d.type, d.useCount)) =
      cm.devices.map fun d => (d.type, d.useCount) := by
    apply List.ext_getElem?
    intro k
    rw [List.getElem?_map, List.getElem?_map, List.getElem?_modify]
    cases cm.devices[k]? with
    | none => rfl
    | some x => by_cases hk : d = k <;> simp [hk, (hf x).1, (hf x).2]
  unfold modifyDevice ConfigMgr.outline
  simp only [h]

/-- An edit that keeps the count and the devices of a stream is not seen by the outline. -/
theorem outline_modifyStream (cm : ConfigMgr) (s : Nat) (f : Stream → Stream)
    (hf : ∀ x, (f x).refCount = x.refCount ∧ (f x).currentDevices = x.currentDevices) :
    (modifyStream cm s f).outline = cm.outline := by
  have h : (cm.streams.modify s f).map (fun s => (s.refCount, s.currentDevices)) =
      cm.streams.map fun s => (s.refCount, s.currentDevices) := by
    apply List.ext_getElem?
    intro k
    rw [List.getElem?_map, List.getElem?_map, List.getElem?_modify]
    cases cm.streams[k]? with
    | none => rfl
    | some x => by_cases hk : s = k <;> simp [hk, (hf x).1, (hf x).2]
  unfold modifyStream ConfigMgr.outline
  simp only [h]

theorem outline_setCtlArray (st : ParseState) (ctls : List Ctl) :
    (setCtlArray st ctls).cm.outline = st.cm.outline := by
  unfold setCtlArray
  split
  · rfl
  · exact outline_modifyDevice _ _ _ fun _ => ⟨rfl, rfl⟩
  · exact outline_modifyStream _ _ _ fun _ => ⟨rfl, rfl⟩
  · rfl

/-- `<ctl>` writes into a path or a codec case, never into what routing counts. -/
theorem parseCtlStart_keeps : Keeps parseCtlStart := by
  intro st
  apply yields_bind
  intro array _
  apply yields_bind
  intro _ _
  apply yields_bind
  intro index _
  dsimp only
  split
  · exact yields_throw _
  · exact yields_pure (outline_setCtlArray _ _)

theorem parseCodecCaseStart_keeps : Keeps parseCodecCaseStart := by
  intro st
  unfold parseCodecCaseStart
  split
  · exact yields_throw _
  · apply yields_bind
    intro probe _
    exact yields_pure rfl

theorem parseInitStart_keeps : Keeps parseInitStart := fun _ => yields_pure rfl

theorem parseCodecProbeStart_keeps : Keeps parseCodecProbeStart := by
  intro st
  unfold parseCodecProbeStart
  split
  · exact yields_throw _
  · exact yields_pure rfl

/-- Probing the codec only picks the next file. -/
theorem probeConfigFile_cm (env : Env) (st : ParseState) : (probeConfigFile env st).cm = st.cm := by
  unfold probeConfigFile
  split
  · rfl
  · dsimp only
    split
    · rfl
    · split <;> rfl

theorem parseCodecProbeEnd_keeps (env : Env) : Keeps (parseCodecProbeEnd env) := by
  intro st
  unfold parseCodecProbeEnd
  split
  · exact yields_throw _
  · apply yields_pure
    rw [probeConfigFile_cm]

/-- A path name goes to the table of the parser, not to the configuration. -/
theorem addPathName_cm (st : ParseState) (name : String) :
    Yields (addPathName st name) fun r => r.2.cm = st.cm := by
  unfold addPathName
  split
  · exact yields_pure rfl
  · apply yields_bind
    intro names _
    exact yields_pure rfl

theorem parsePathStart_keeps : Keeps parsePathStart := by
  intro st
  apply yields_bind
  intro d _
  apply yields_bind
  rintro ⟨id, st'⟩ hst
  have hcm : st'.cm = st.cm := addPathName_cm _ _ _ hst
  apply yields_bind
  intro device _
  apply yields_bind
  intro paths _
  apply yields_pure
  rw [← hcm]
  exact outline_modifyDevice _ _ _ fun _ => ⟨rfl, rfl⟩

theorem parsePathEnd_keeps : Keeps parsePathEnd :=
  fun _ => yields_bind fun _ _ => yields_pure rfl

theorem parseCaseStart_keeps : Keeps parseCaseStart := by
  intro st
  apply yields_bind
  rintro ⟨s, u⟩ _
  apply yields_bind
  intro stream _
  apply yields_bind
  intro usecase _
  apply yields_bind
  intro cases _
  exact yields_pure (outline_modifyStream _ _ _ fun _ => ⟨rfl, rfl⟩)

theorem parseCaseEnd_keeps : Keeps parseCaseEnd :=
  fun _ => yields_bind fun _ _ => yields_pure rfl

theorem parseUsecaseStart_keeps : Keeps parseUsecaseStart := by
  intro st
  apply yields_bind
  intro s _
  apply yields_bind
  intro stream _
  apply yields_bind
  intro usecases _
  exact yields_pure (outline_modifyStream _ _ _ fun _ => ⟨rfl, rfl⟩)

theorem parseUsecaseEnd_keeps : Keeps parseUsecaseEnd :=
  fun _ => yields_bind fun _ _ => yields_pure rfl

/-- `<enable>` and `<disable>` set path ids of a stream, which the outline leaves out. -/
theorem parseEnableDisableStart_keeps (isEnable : Bool) :
    Keeps (parseEnableDisableStart isEnable) := by
  intro st
  unfold parseEnableDisableStart
  split
  · exact yields_throw _
  · apply yields_bind
    intro s _
    apply yields_pure
    exact outline_modifyStream _ _ _ fun _ => by cases isEnable <;> exact ⟨rfl, rfl⟩

theorem parseStreamCtlStart_keeps : Keeps parseStreamCtlStart := by
  intro st
  unfold parseStreamCtlStart
  split
  · exact yields_throw _
  · apply yields_bind
    intro ctl _
    apply yields_bind
    intro idxVal _
    apply yields_bind
    intro s _
    dsimp only
    split
    · exact yields_throw _
    · apply yields_bind
      intro min _
      apply yields_bind
      intro max _
      apply yields_pure
      exact outline_modifyStream _ _ _ fun _ => by split <;> exact ⟨rfl, rfl⟩

theorem parseStreamEnd_keeps : Keeps parseStreamEnd :=
  fun _ => yields_bind fun _ _ => yields_pure rfl

theorem parseDeviceEnd_keeps : Keeps parseDeviceEnd :=
  fun _ => yields_bind fun _ _ => yields_pure rfl

theorem parseMixerStart_keeps (env : Env) : Keeps (parseMixerStart env) := by
  intro st
  apply yields_bind
  intro card _
  dsimp only
  split
  · exact yields_throw _
  · exact yields_pure rfl

/-- An array that can be extended is extended by the new entry at its end. -/
theorem dynArrayExtend_eq (array : List α) (x : α) :
    Yields (dynArrayExtend array x) fun r => r = array ++ [x] := by
  unfold dynArrayExtend
  split
  · exact yields_pure rfl
  · exact yields_throw _

/-- A new stream starts with no client and no device. -/
theorem parseStreamStart_wf (st : ParseState) (hw : st.cm.outline.Wf) :
    Yields (parseStreamStart st) fun st' => st'.cm.outline.Wf := by
  unfold parseStreamStart
  dsimp only
  split
  · exact yields_throw _
  · apply yields_bind
    intro _ _
    apply yields_bind
    intro out _
    apply yields_bind
    rintro ⟨type, numbered⟩ _
    iterate 6
      apply yields_bind
      intro _ _
    apply yields_pure
    refine ⟨hw.known, hw.apart, hw.listed, hw.unused, ?_, hw.fresh⟩
    intro x hx
    unfold ConfigMgr.outline at hx
    rw [List.map_append, List.mem_append] at hx
    rcases hx with hx | hx
    · exact hw.idle x hx
    · simpa [newStream] using hx

/-- Marking a type as supported refuses a type twice, and forgets none. -/
theorem supportDevice_spec (cm : ConfigMgr) (t : BitVec 32) :
    Yields (supportDevice cm t) fun cm' =>
      cm'.devices = cm.devices ∧ cm'.streams = cm.streams ∧ cm'.walks = cm.walks ∧
      (t ≠ 0#32 → t &&& cm.outline.supported t ≠ t) ∧
      (t ≠ 0#32 → t &&& cm'.outline.supported t = t) ∧
      ∀ u, u &&& cm.outline.supported u = u → u &&& cm'.outline.supported u = u := by
  unfold supportDevice Outline.supported
  split
  case isTrue hz =>
    exact yields_pure ⟨rfl, rfl, rfl, fun h => absurd hz h, fun h => absurd hz h, fun _ h => h⟩
  case isFalse hz =>
    split
    case isTrue hin =>
      rw [if_pos ((isIn_iff t).mpr hin)]
      split
      case isTrue => exact yields_throw _
      case isFalse hnew =>
        apply yields_pure
        refine ⟨rfl, rfl, rfl, fun _ => hnew, fun _ => ?_, ?_⟩
        · rw [if_pos ((isIn_iff t).mpr hin)]
          exact and_or_self _ _
        · intro u hu
          cases hdir : isIn u with
          | true =>
            rw [hdir, if_pos rfl] at hu
            rw [if_pos rfl]
            exact and_or_eq_left _ hu
          | false =>
            rw [hdir] at hu
            exact hu
    case isFalse hin =>
      rw [if_neg (mt (isIn_iff t).mp hin)]
      split
      case isTrue => exact yields_throw _
      case isFalse hnew =>
        apply yields_pure
        refine ⟨rfl, rfl, rfl, fun _ => hnew, fun _ => ?_, ?_⟩
        · rw [if_neg (mt (isIn_iff t).mp hin)]
          exact and_or_self _ _
        · intro u hu
          cases hdir : isIn u with
          | true =>
            rw [hdir] at hu
            exact hu
          | false =>
            rw [hdir, if_neg Bool.false_ne_true] at hu
            rw [if_neg Bool.false_ne_true]
            exact and_or_eq_left _ hu

/-- Only types of the device table come out of a name. -/
theorem parseMatchDevice_mem {name : String} {t : BitVec 32} (h : parseMatchDevice name = some t) :
    t ∈ deviceTypes := by
  unfold parseMatchDevice at h
  obtain ⟨p, hp, rfl⟩ := Option.map_eq_some_iff.mp h
  exact List.mem_map.mpr ⟨p, List.mem_of_find?_eq_some hp, rfl⟩

/-- The global device has no bit that a routing mask could select. -/
theorem not_meets_zero (a : BitVec 32) : ¬ Meets a (deviceBits 0#32) := by
  unfold Meets deviceBits
  simp

/-- A type that is not yet supported shares no bit with the devices of its direction. -/
theorem Outline.Wf.apart_new {o : Outline} (hw : o.Wf) {t : BitVec 32} (ht : t ∈ deviceTypes)
    (hnew : t ≠ 0#32 → t &&& o.supported t ≠ t) :
    ∀ d ∈ o.devices, isIn d.1 = isIn t → ¬ Meets (deviceBits d.1) (deviceBits t) := by
  intro d hd hdir
  by_cases hz : t = 0#32
  · rw [hz]
    exact not_meets_zero _
  · by_cases he : d.1 = t
    · have hlisted := hw.listed d hd (by rw [he]; exact hz)
      rw [he] at hlisted
      exact absurd hlisted (hnew hz)
    · exact deviceTypes_apart d.1 (hw.known d hd) t ht hdir he

/-- A new device starts unused, and its type is one of the table's or 0. -/
theorem parseDeviceStart_wf (st : ParseState) (hw : st.cm.outline.Wf) :
    Yields (parseDeviceStart st) fun st' => st'.cm.outline.Wf := by
  unfold parseDeviceStart
  split
  · exact yields_throw _
  case h_2 t ht =>
    have hmem := parseMatchDevice_mem ht
    apply yields_bind
    intro cm hcm
    obtain ⟨hdev, hstr, hwalk, hnew, hthis, hgrow⟩ := supportDevice_spec _ _ _ hcm
    apply yields_bind
    intro devices hext
    have hdevices := dynArrayExtend_eq _ _ _ hext
    apply yields_pure
    have hline : devices.map (fun d => (d.type, d.useCount)) = st.cm.outline.devices ++ [(t, 0)] := by
      rw [hdevices, hdev]
      simp [ConfigMgr.outline]
    have hcases : ∀ d ∈ st.cm.outline.devices ++ [(t, 0)], d ∈ st.cm.outline.devices ∨ d = (t, 0) := by
      intro d hd
      simpa using hd
    constructor
    · intro d hd
      simp only [ConfigMgr.outline, hline] at hd
      rcases hcases d hd with hd | rfl
      · exact hw.known d hd
      · exact hmem
    · simp only [ConfigMgr.outline, hline]
      unfold Apart
      rw [List.map_append, List.pairwise_append]
      refine ⟨hw.apart, List.pairwise_singleton _ _, ?_⟩
      intro a ha b hb
      obtain ⟨d, hd, rfl⟩ := List.mem_map.mp ha
      cases List.mem_singleton.mp hb
      exact hw.apart_new hmem hnew d hd
    · intro d hd hz
      simp only [ConfigMgr.outline, hline] at hd
      rcases hcases d hd with hd | rfl
      · exact hgrow _ (hw.listed d hd hz)
      · exact hthis hz
    · intro d hd
      simp only [ConfigMgr.outline, hline] at hd
      rcases hcases d hd with hd | rfl
      · exact hw.unused d hd
      · rfl
    · intro s hs
      apply hw.idle
      simpa [ConfigMgr.outline, hstr] using hs
    · exact hwalk.trans hw.fresh

/-- A handler that leaves the outline alone keeps it well formed. -/
theorem Keeps.wf {h : Handler} (hk : Keeps h) (st : ParseState) (hw : st.cm.outline.Wf) :
    Yields (h st) fun st' => st'.cm.outline.Wf := by
  intro st' hst
  rw [hk st st' hst]
  exact hw

/-- All start handlers at once: two of them extend the outline, the others keep it. -/
theorem startFn_wf (env : Env) (e : Elem) (st : ParseState) (hw : st.cm.outline.Wf) :
    Yields (startFn env e st) fun st' => st'.cm.outline.Wf := by
  cases e with
  | ctl => exact parseCtlStart_keeps.wf st hw
  | path => exact parsePathStart_keeps.wf st hw
  | device => exact parseDeviceStart_wf st hw
  | stream => exact parseStreamStart_wf st hw
  | enable => exact (parseEnableDisableStart_keeps true).wf st hw
  | disable => exact (parseEnableDisableStart_keeps false).wf st hw
  | case => exact parseCaseStart_keeps.wf st hw
  | usecase => exact parseUsecaseStart_keeps.wf st hw
  | streamCtl => exact parseStreamCtlStart_keeps.wf st hw
  | init => exact parseInitStart_keeps.wf st hw
  | mixer => exact (parseMixerStart_keeps env).wf st hw
  | audiohal => exact yields_pure hw
  | codecProbe => exact parseCodecProbeStart_keeps.wf st hw
  | codecCase => exact parseCodecCaseStart_keeps.wf st hw

theorem endFn_wf (env : Env) (e : Elem) (st : ParseState) (hw : st.cm.outline.Wf) :
    Yields (endFn env e st) fun st' => st'.cm.outline.Wf := by
  cases e with
  | path => exact parsePathEnd_keeps.wf st hw
  | device => exact parseDeviceEnd_keeps.wf st hw
  | stream => exact parseStreamEnd_keeps.wf st hw
  | case => exact parseCaseEnd_keeps.wf st hw
  | usecase => exact parseUsecaseEnd_keeps.wf st hw
  | codecProbe => exact (parseCodecProbeEnd_keeps env).wf st hw
  | ctl => exact yields_pure hw
  | enable => exact yields_pure hw
  | disable => exact yields_pure hw
  | streamCtl => exact yields_pure hw
  | init => exact yields_pure hw
  | mixer => exact yields_pure hw
  | audiohal => exact yields_pure hw
  | codecCase => exact yields_pure hw

end Handlers

/-- A handler that fails leaves the state it began with, and its error code. -/
theorem settle_wf {st st' : ParseState} {r : Except Fault ParseState} (hw : st.cm.outline.Wf)
    (hr : Yields r fun st' => st'.cm.outline.Wf) (h : settle st r = some st') :
    st'.cm.outline.Wf := by
  cases r with
  | ok st₁ =>
    cases h
    exact hr st₁ rfl
  | error f =>
    cases f with
    | errno e =>
      cases h
      exact hw
    | nullParent => cases h

theorem parseSectionStart_wf {env : Env} {st st' : ParseState} {name : String}
    {attribs : List (String × String)} (hw : st.cm.outline.Wf)
    (h : parseSectionStart env st name attribs = some st') : st'.cm.outline.Wf := by
  unfold parseSectionStart at h
  dsimp only at h
  split at h
  · cases h; exact hw
  · split at h
    · cases h; exact hw
    · split at h
      · cases h; exact hw
      · split at h
        · cases h; exact hw
        · refine settle_wf ?_ (startFn_wf env _ _ ?_) h
          · exact hw
          · exact hw

theorem parseSectionEnd_wf {env : Env} {st st' : ParseState} (hw : st.cm.outline.Wf)
    (h : parseSectionEnd env st = some st') : st'.cm.outline.Wf := by
  unfold parseSectionEnd at h
  dsimp only at h
  split at h
  · cases h; exact hw
  · obtain ⟨st₁, hst, rfl⟩ := Option.map_eq_some_iff.mp h
    show st₁.cm.outline.Wf
    exact settle_wf hw (endFn_wf env _ _ hw) hst

/-- Over the events of one document, by induction on them. -/
theorem parseEvents_wf {env : Env} {st st' : ParseState} {events : List XmlEvent}
    (hw : st.cm.outline.Wf) (h : parseEvents env st events = some st') : st'.cm.outline.Wf := by
  induction events generalizing st with
  | nil =>
    cases h
    exact hw
  | cons e es ih =>
    obtain ⟨st₁, hone, hrest⟩ := Option.bind_eq_some_iff.mp h
    refine ih ?_ hrest
    cases e with
    | start name attribs =>
      simp only [parseEvent] at hone
      split at hone
      · exact parseSectionStart_wf hw hone
      · cases hone; exact hw
    | finish name =>
      simp only [parseEvent] at hone
      split at hone
      · exact parseSectionEnd_wf hw hone
      · cases hone; exact hw

theorem doParse_wf {env : Env} {st : ParseState} {file : XmlFile} {done : Int × ParseState}
    (hw : st.cm.outline.Wf) (h : doParse env st file = some done) : done.2.cm.outline.Wf := by
  obtain ⟨st₁, hst, rfl⟩ := Option.map_eq_some_iff.mp h
  refine parseEvents_wf ?_ hst
  exact hw

/-- Over the chain of files: each starts from the configuration the last one left. -/
theorem parseFiles_wf {env : Env} {fuel : Nat} {st : ParseState} {done : Int × ParseState}
    (hw : st.cm.outline.Wf) (h : parseFiles env fuel st = some done) : done.2.cm.outline.Wf := by
  induction fuel generalizing st with
  | zero => cases h
  | succ fuel ih =>
    unfold parseFiles at h
    dsimp only at h
    split at h
    · cases h; exact hw
    · obtain ⟨r, hr, hdone⟩ := Option.bind_eq_some_iff.mp h
      have hr' : r.2.cm.outline.Wf := by
        refine doParse_wf ?_ hr
        exact hw
      split at hdone
      · exact ih hr' hdone
      · cases hdone; exact hr'

theorem initState_wf : initState.cm.outline.Wf := by
  constructor <;> simp [initState, newConfigMgr, ConfigMgr.outline, Apart]

/-- Every configuration the parser can return is well formed. -/
theorem Parsed.wf {cm : ConfigMgr} (h : Parsed cm) : cm.outline.Wf := by
  obtain ⟨env, fuel, hinit⟩ := h
  obtain ⟨done, hdone, hcm⟩ := Option.map_eq_some_iff.mp hinit
  have hw := parseFiles_wf initState_wf hdone
  split at hcm
  · cases hcm
  · cases hcm
    exact ⟨hw.known, hw.apart, hw.listed, hw.unused, hw.idle, hw.fresh⟩

section Mocha

def element (name : String) (attribs : List (String × String)) (inner : List (List XmlEvent)) :
    List XmlEvent :=
  .start name attribs :: inner.flatten ++ [.finish name]

def deviceElement (name : String) (paths : List String) : List XmlEvent :=
  element "device" [("name", name)] (paths.map fun p => element "path" [("name", p)] [])

def streamElement (dir enable disable : String) : List XmlEvent :=
  element "stream" [("type", "pcm"), ("dir", dir), ("card", "1"), ("device", "0"), ("rate", "48000")]
    [element "enable" [("path", enable)] [], element "disable" [("path", disable)] []]

/-- The devices, paths and streams of `audio.mocha.xml`, without the control settings. -/
def mochaDocument : XmlFile where
  events := element "audiohal" []
    [element "mixer" [("card", "1")] [],
      deviceElement "speaker" ["on", "on_pcm", "off_pcm"],
      deviceElement "headphone" ["on", "on_pcm", "off_pcm"],
      deviceElement "headset" ["on", "on_pcm", "off_pcm"],
      deviceElement "headset_in" ["on_pcm_rec", "off_pcm_rec"],
      deviceElement "mic" ["on", "on_pcm_rec", "off_pcm_rec"],
      streamElement "out" "on_pcm" "off_pcm",
      streamElement "in" "on_pcm_rec" "off_pcm_rec"]
  wellFormed := true

/-- A system with one configuration file and one sound card without controls. -/
def documentEnv (file : XmlFile) : Env where
  defaultFile := "audio.mocha.xml"
  files := fun name => if name = "audio.mocha.xml" then some file else none
  firstLine := fun _ => none
  mixerOpen := fun _ => some []

def mochaConfig : ConfigMgr :=
  ((initAudioConfig (documentEnv mochaDocument) 1).bind id).get (by decide +kernel)

theorem mochaConfig_parsed : Parsed mochaConfig :=
  ⟨documentEnv mochaDocument, 1, by decide +kernel⟩

end Mocha

end TinyHal
