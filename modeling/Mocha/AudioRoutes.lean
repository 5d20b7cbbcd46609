import Mocha.AudioParsed
import Mocha.AudioWalk

/-!
# Which devices a route change touches

`apply_route` takes the added and the removed bits before it masks them, and a
mask without `AUDIO_DEVICE_BIT_IN` selects the devices of both directions. The
walk then touches the right devices exactly when every bit that it shares with
a device of the other direction was taken by a device listed earlier.
-/
namespace TinyHal

open Mask

section Calls

/-- The stream that a call opens when that one has an instance left: the last of the requested type
that has one, or the first of the requested name. -/
def Call.Takes (c : Call) (cm : ConfigMgr) (i : Nat) (s : Stream) : Prop :=
  c.requests s = true ∧ ∀ j t, cm.streams[j]? = some t → c.requests t = true →
    match c with
    | .getNamedStream _ => i ≤ j
    | _ => i < j → ¬ t.refCount < t.maxRefCount

/-- A call changes nothing, opens a stream, sets a route, or gives a reference back. -/
theorem step_cases {cm cm' : ConfigMgr} {c : Call} (h : step cm c = some cm') :
    cm' = cm ∨
    (∃ i s, c.Takes cm i s ∧ cm.streams[i]? = some s ∧ s.refCount < s.maxRefCount ∧
      cm' = (openStreamL cm i s).2) ∨
    (∃ i s devices, c = .applyRoute i devices ∧ cm.streams[i]? = some s ∧
      routeAccepted s devices = true ∧ cm' = applyRoute cm i s devices) ∨
    (∃ i s, c = .releaseStream i ∧ cm.streams[i]? = some s ∧ cm' = releaseStream cm i s) := by
  have hopen (i : Nat) (s : Stream) (hs : cm.streams[i]? = some s) :
      ((openStreamL cm i s).1 = false ∧ (openStreamL cm i s).2 = cm ∧
        ¬ s.refCount < s.maxRefCount) ∨
      ((openStreamL cm i s).1 = true ∧ s.refCount < s.maxRefCount) := by
    unfold openStreamL
    by_cases hlt : s.refCount < s.maxRefCount
    · rw [if_pos hlt]
      exact Or.inr ⟨rfl, hlt⟩
    · rw [if_neg hlt]
      exact Or.inl ⟨rfl, rfl, hlt⟩
  cases c with
  | getStream devices pcm =>
    cases h
    have hloop (type : StreamType) : ∀ n, (getStreamLoop type cm n).2 = cm ∨
        ∃ i s, (∀ j t, cm.streams[j]? = some t → t.type = type → i < j → j < n →
            ¬ t.refCount < t.maxRefCount) ∧
          s.type = type ∧ cm.streams[i]? = some s ∧ s.refCount < s.maxRefCount ∧
          (getStreamLoop type cm n).2 = (openStreamL cm i s).2 := by
      intro n
      induction n with
      | zero => exact Or.inl rfl
      | succ n ih =>
        -- the streams behind the one that is opened have no instance left, and neither has this one
        have hpast (hhere : ∀ t, cm.streams[n]? = some t → t.type = type →
            ¬ t.refCount < t.maxRefCount) : (getStreamLoop type cm n).2 = cm ∨
            ∃ i s, (∀ j t, cm.streams[j]? = some t → t.type = type → i < j → j < n + 1 →
                ¬ t.refCount < t.maxRefCount) ∧
              s.type = type ∧ cm.streams[i]? = some s ∧ s.refCount < s.maxRefCount ∧
              (getStreamLoop type cm n).2 = (openStreamL cm i s).2 := by
          refine ih.imp_right ?_
          rintro ⟨i, s, hbehind, hopened⟩
          refine ⟨i, s, fun j t ht htype hlt hle => ?_, hopened⟩
          rcases Nat.lt_succ_iff_lt_or_eq.mp hle with hj | rfl
          · exact hbehind j t ht htype hlt hj
          · exact hhere t ht htype
        unfold getStreamLoop
        cases hs : cm.streams[n]? with
        | none => exact hpast fun t ht => by rw [hs] at ht; cases ht
        | some s =>
          dsimp only
          by_cases ht : s.type = type
          · rw [if_pos ht]
            rcases hopen n s hs with ⟨hfail, hsame, hfull⟩ | ⟨hok, hlt⟩
            · rw [hfail, hsame]
              exact hpast fun t hthere _ => by
                obtain rfl := Option.some.inj (hs.symm.trans hthere)
                exact hfull
            · rw [hok]
              exact Or.inr ⟨n, s, fun j _ _ _ hlt hle => absurd hle (by omega), ht, hs, hlt, rfl⟩
          · rw [if_neg ht]
            exact hpast fun t hthere htype => by
              obtain rfl := Option.some.inj (hs.symm.trans hthere)
              exact absurd htype ht
    unfold getStream
    rcases hloop (requestedType devices pcm) cm.streams.length with hsame |
      ⟨i, s, hbehind, ht, hopened⟩
    · exact Or.inl hsame
    · refine Or.inr (Or.inl ⟨i, s, ⟨decide_eq_true ht, fun j t hthere htype hlt => ?_⟩, hopened⟩)
      exact hbehind j t hthere (of_decide_eq_true htype) hlt (List.getElem?_eq_some_iff.mp hthere).1
  | getNamedStream name =>
    cases h
    unfold getNamedStream
    cases hfind : findNamedStream cm name with
    | none => exact Or.inl rfl
    | some i =>
      dsimp only
      cases hs : cm.streams[i]? with
      | none => exact Or.inl rfl
      | some s =>
        obtain ⟨hi, hname, hbefore⟩ := List.findIdx?_eq_some_iff_getElem.mp hfind
        rw [(List.getElem?_eq_some_iff.mp hs).2] at hname
        rcases hopen i s hs with ⟨-, hsame, -⟩ | ⟨-, hlt⟩
        · exact Or.inl hsame
        · refine Or.inr (Or.inl ⟨i, s, ⟨hname, fun j t hthere htname => ?_⟩, hs, hlt, rfl⟩)
          by_contra hji
          obtain ⟨hj, rfl⟩ := List.getElem?_eq_some_iff.mp hthere
          exact hbefore j (by omega) htname
  | applyRoute i devices =>
    obtain ⟨s, hs, rfl⟩ := Option.map_eq_some_iff.mp h
    cases hacc : routeAccepted s devices with
    | true => exact Or.inr (Or.inr (Or.inl ⟨i, s, devices, rfl, hs, hacc, rfl⟩))
    | false =>
      left
      unfold applyRoute
      rw [hacc]
      rfl
  | releaseStream i =>
    obtain ⟨s, hs, rfl⟩ := Option.map_eq_some_iff.mp h
    exact Or.inr (Or.inr (Or.inr ⟨i, s, rfl, hs, rfl⟩))

theorem Passed.types {cm cm' : ConfigMgr} {firstId secondId : Int} {js : List Nat}
    {vs : List Visit} (h : Passed cm firstId secondId js vs cm') : cm'.types = cm.types :=
  h.pass.types

theorem Passed.streams {cm cm' : ConfigMgr} {firstId secondId : Int} {js : List Nat}
    {vs : List Visit} (h : Passed cm firstId secondId js vs cm') : cm'.streams = cm.streams :=
  h.pass.streams

/-- Which devices are visited depends on the types only. -/
theorem visited_congr {cm cm' : ConfigMgr} (h : cm'.types = cm.types) (devices : BitVec 32) :
    visited cm' devices = visited cm devices := by
  unfold visited
  rw [h]

/-- An accepted route: the two passes and the new device set. -/
theorem applyRoute_passes (cm : ConfigMgr) (i : Nat) (s : Stream) (devices : BitVec 32)
    (hacc : routeAccepted s devices = true) :
    ∃ cm₁ cm₂ down up,
      Passed cm s.disablePath pathIdOff (visited cm (~~~devices &&& s.currentDevices)) down cm₁ ∧
      Passed cm₁ pathIdOn s.enablePath (visited cm (devices &&& ~~~s.currentDevices)) up cm₂ ∧
      applyRoute cm i s devices = setStream cm₂ i { s with currentDevices := routedDevices devices } := by
  obtain ⟨down, hdown⟩ := applyPathsToDevicesL_spec cm (~~~devices &&& s.currentDevices)
    s.disablePath pathIdOff
  obtain ⟨up, hup⟩ := applyPathsToDevicesL_spec
    (applyPathsToDevicesL cm (~~~devices &&& s.currentDevices) s.disablePath pathIdOff)
    (devices &&& ~~~s.currentDevices) pathIdOn s.enablePath
  rw [visited_congr hdown.types] at hup
  refine ⟨_, _, down, up, hdown, hup, ?_⟩
  unfold applyRoute
  rw [if_pos hacc]

/-- Giving back the last reference: the two passes and the cleared device set. -/
theorem releaseStream_passes (cm : ConfigMgr) (i : Nat) (s : Stream) (hlast : s.refCount = 1) :
    ∃ cm₁ cm₂ off global,
      Passed cm pathIdOff s.disablePath (visited cm s.currentDevices) off cm₁ ∧
      Passed cm₁ s.disablePath pathIdOff (globalDevice cm₁.devices).toList global cm₂ ∧
      releaseStream cm i s =
        setStream cm₂ i { s with refCount := s.refCount - 1, currentDevices := 0#32 } := by
  obtain ⟨off, hoff⟩ := applyPathsToDevicesL_spec cm s.currentDevices pathIdOff s.disablePath
  obtain ⟨global, hglobal⟩ := applyPathsToGlobalL_spec
    (applyPathsToDevicesL cm s.currentDevices pathIdOff s.disablePath) s.disablePath pathIdOff
  refine ⟨_, _, off, global, hoff, hglobal, ?_⟩
  unfold releaseStream
  rw [if_pos (by rw [hlast]; rfl)]

/-- A release that is not the last one only counts down. -/
theorem releaseStream_keeps (cm : ConfigMgr) (i : Nat) (s : Stream) (hnot : s.refCount ≠ 1) :
    releaseStream cm i s = setStream cm i { s with refCount := s.refCount - 1 } := by
  unfold releaseStream
  rw [if_neg (by dsimp only; omega)]

/-- Opening a stream: the count, and for the first reference the global pass. -/
theorem openStreamL_passes (cm : ConfigMgr) (i : Nat) (s : Stream) (hlt : s.refCount < s.maxRefCount)
    (hfirst : s.refCount = 0) :
    ∃ vs, Passed (setStream cm i { s with refCount := s.refCount + 1 }) pathIdOn s.enablePath
      (globalDevice cm.devices).toList vs (openStreamL cm i s).2 := by
  unfold openStreamL
  rw [if_pos hlt]
  dsimp only
  rw [if_pos (by rw [hfirst]; rfl)]
  exact applyPathsToGlobalL_spec (setStream cm i { s with refCount := s.refCount + 1 }) pathIdOn
    s.enablePath

/-- An open that is not the first one only counts up. -/
theorem openStreamL_again (cm : ConfigMgr) (i : Nat) (s : Stream) (hlt : s.refCount < s.maxRefCount)
    (hfirst : s.refCount ≠ 0) :
    (openStreamL cm i s).2 = setStream cm i { s with refCount := s.refCount + 1 } := by
  unfold openStreamL
  rw [if_pos hlt]
  dsimp only
  rw [if_neg (by omega)]

end Calls

section Runs

/-- A stream's device set has the stream's own direction. -/
def Directed (s : Stream) : Prop :=
  s.currentDevices = 0#32 ∨ isIn s.currentDevices = streamIsInput s

/-- The device types never change, and every device set keeps its direction. -/
structure Routed (types : List (BitVec 32)) (cm : ConfigMgr) : Prop where
  types : cm.types = types
  directed : ∀ s ∈ cm.streams, Directed s

/-- One stream gets a route that is legal for it. -/
theorem Routed.set {types : List (BitVec 32)} {cm cm' : ConfigMgr} (h : Routed types cm) {i : Nat}
    {s : Stream} (htypes : cm'.types = cm.types) (hstreams : cm'.streams = cm.streams)
    (hs : Directed s) : Routed types (setStream cm' i s) := by
  refine ⟨htypes.trans h.types, ?_⟩
  intro x hx
  unfold setStream at hx
  rw [hstreams] at hx
  rcases List.mem_or_eq_of_mem_set hx with hx | rfl
  · exact h.directed x hx
  · exact hs

theorem isIn_false {t : BitVec 32} (h : ¬ t &&& audioDeviceBitIn ≠ 0#32) : isIn t = false := by
  rw [← Bool.not_eq_true]
  exact mt (isIn_iff t).mp h

/-- The stored set has the direction that the checks of `apply_route` ask for. -/
theorem routedDevices_directed (s : Stream) (devices : BitVec 32)
    (hacc : routeAccepted s devices = true) :
    Directed { s with currentDevices := routedDevices devices } := by
  unfold Directed routedDevices
  dsimp only
  by_cases hz : devices = 0#32
  · rw [if_pos hz]
    exact Or.inl hz
  · right
    rw [if_neg hz]
    unfold routeAccepted at hacc
    rw [decide_eq_false hz, Bool.false_or, beq_iff_eq] at hacc
    by_cases hin : devices &&& audioDeviceBitIn ≠ 0#32
    · rw [if_pos hin]
      rw [decide_eq_true hin] at hacc
      refine Eq.trans ?_ hacc
      unfold isIn
      rw [BitVec.getLsbD_or, (bitIn_getLsbD 31).mpr rfl, Bool.or_true]
    · rw [if_neg hin]
      rw [decide_eq_false hin] at hacc
      refine Eq.trans ?_ hacc
      unfold isIn
      rw [BitVec.getLsbD_and, show devices.getLsbD 31 = false from isIn_false hin, Bool.false_and]

theorem Routed.step {types : List (BitVec 32)} {cm cm' : ConfigMgr} {c : Call}
    (h : Routed types cm) (hstep : step cm c = some cm') : Routed types cm' := by
  have hmem {i : Nat} {s : Stream} (hs : cm.streams[i]? = some s) : Directed s :=
    h.directed s (List.mem_of_getElem? hs)
  rcases step_cases hstep with rfl | ⟨i, s, -, hs, hlt, rfl⟩ | ⟨i, s, devices, -, hs, hacc, rfl⟩ |
    ⟨i, s, -, hs, rfl⟩
  · exact h
  · have hd : Directed s := hmem hs
    have hset : Routed types (setStream cm i { s with refCount := s.refCount + 1 }) :=
      h.set rfl rfl hd
    by_cases hfirst : s.refCount = 0
    · obtain ⟨vs, hpass⟩ := openStreamL_passes cm i s hlt hfirst
      exact ⟨hpass.types.trans hset.types, by rw [hpass.streams]; exact hset.directed⟩
    · rw [openStreamL_again cm i s hlt hfirst]
      exact hset
  · obtain ⟨cm₁, cm₂, down, up, hdown, hup, heq⟩ := applyRoute_passes cm i s devices hacc
    rw [heq]
    exact h.set (hup.types.trans hdown.types) (hup.streams.trans hdown.streams)
      (routedDevices_directed s devices hacc)
  · by_cases hlast : s.refCount = 1
    · obtain ⟨cm₁, cm₂, off, global, hoff, hglobal, heq⟩ := releaseStream_passes cm i s hlast
      rw [heq]
      exact h.set (hglobal.types.trans hoff.types) (hglobal.streams.trans hoff.streams) (Or.inl rfl)
    · have hd : Directed s := hmem hs
      rw [releaseStream_keeps cm i s hlast]
      exact h.set rfl rfl hd

theorem Routed.run {types : List (BitVec 32)} {cm cm' : ConfigMgr} {calls : List Call}
    (h : Routed types cm) (hrun : Transition.run TinyHal.step cm calls = some cm') :
    Routed types cm' := by
  induction calls generalizing cm with
  | nil =>
    cases hrun
    exact h
  | cons c calls ih =>
    obtain ⟨cm₁, hstep, hrest⟩ := Option.bind_eq_some_iff.mp hrun
    exact ih (h.step hstep) hrest

/-- A parsed manager has no stream with a route. -/
theorem Parsed.routed {cm : ConfigMgr} (h : Parsed cm) : Routed cm.types cm := by
  refine ⟨rfl, ?_⟩
  intro s hs
  have := h.wf.idle (s.refCount, s.currentDevices) (List.mem_map.mpr ⟨s, hs, rfl⟩)
  exact Or.inl (Prod.mk.inj this).2

theorem Parsed.apart {cm : ConfigMgr} (h : Parsed cm) : Apart cm.types := by
  have := h.wf.apart
  unfold ConfigMgr.outline at this
  rwa [List.map_map] at this

end Runs

section Exactness

/-- The test of the source: an input mask selects input devices, any other both kinds. -/
theorem selects_iff (mask t : BitVec 32) :
    selects (mask &&& audioDeviceBitIn) t = true ↔ (isIn mask = true → isIn t = true) := by
  unfold selects
  rw [decide_eq_true_iff, BitVec.and_comm t, and_eq_left_iff]
  constructor
  · intro h hin
    apply h
    rw [BitVec.getLsbD_and, show mask.getLsbD 31 = true from hin, (bitIn_getLsbD 31).mpr rfl]
    rfl
  · intro h i hi
    rw [BitVec.getLsbD_and, Bool.and_eq_true] at hi
    have h31 := (bitIn_getLsbD i).mp hi.2
    rw [h31] at hi ⊢
    exact h hi.1

/-- A bit belongs to one device of a direction at most. -/
theorem Apart.index {types : List (BitVec 32)} (h : Apart types) {j k b : Nat} {t u : BitVec 32}
    (hj : types[j]? = some t) (hk : types[k]? = some u) (hlt : j < k) (hdir : isIn t = isIn u)
    (ht : (deviceBits t).getLsbD b = true) (hu : (deviceBits u).getLsbD b = true) : False := by
  obtain ⟨hjlt, rfl⟩ := List.getElem?_eq_some_iff.mp hj
  obtain ⟨hklt, rfl⟩ := List.getElem?_eq_some_iff.mp hk
  exact List.pairwise_iff_getElem.mp h j k hjlt hklt hlt hdir ((meets_iff _ _).mpr ⟨b, ht, hu⟩)

/-- A device of the stream's direction with a bit in the mask. The global device has no bits. -/
def Intended (types : List (BitVec 32)) (input : Bool) (mask : BitVec 32) (k : Nat) : Prop :=
  ∃ t, types[k]? = some t ∧ isIn t = input ∧ Meets (deviceBits t) (deviceBits mask)

/-- The mask names its direction, or each of its bits that a device of the other direction has
belongs to a device of the stream's direction that is listed earlier. -/
def Unambiguous (types : List (BitVec 32)) (input : Bool) (mask : BitVec 32) : Prop :=
  isIn mask = true ∨ ∀ (k : Nat) (t : BitVec 32) (b : Nat), types[k]? = some t → isIn t ≠ input →
    (deviceBits t).getLsbD b = true → mask.getLsbD b = true →
    ∃ k' < k, ∃ t', types[k']? = some t' ∧ isIn t' = input ∧ (deviceBits t').getLsbD b = true

instance (types : List (BitVec 32)) (input : Bool) (mask : BitVec 32) :
    Decidable (Unambiguous types input mask) :=
  decidable_of_iff (isIn mask = true ∨ ∀ (k : Fin types.length) (b : Fin 32), isIn types[k] ≠ input →
    (deviceBits types[k]).getLsbD b = true → mask.getLsbD b = true →
      ((types.take k).any fun t => (isIn t == input) && (deviceBits t).getLsbD b) = true) <| by
    apply or_congr Iff.rfl
    constructor
    · intro h k t b hk hne hb hm
      obtain ⟨hlt, rfl⟩ := List.getElem?_eq_some_iff.mp hk
      obtain ⟨t', ht', hbit⟩ := List.any_eq_true.mp
        (h ⟨k, hlt⟩ ⟨b, BitVec.lt_of_getLsbD hb⟩ hne hb hm)
      obtain ⟨hdir, hb'⟩ := (Bool.and_eq_true _ _).mp hbit
      obtain ⟨k', hk', hget⟩ := List.mem_take_iff_getElem.mp ht'
      have hlt' : k' < types.length := by omega
      refine ⟨k', ?_, t', by rw [List.getElem?_eq_getElem hlt', hget], eq_of_beq hdir, hb'⟩
      dsimp only at hk'
      omega
    · intro h k b hne hb hm
      obtain ⟨k', hk', t', ht', hdir, hb'⟩ :=
        h k types[k] b (List.getElem?_eq_getElem k.isLt) hne hb hm
      refine List.any_eq_true.mpr ⟨t', ?_, by rw [hdir, hb', beq_self_eq_true]; rfl⟩
      obtain ⟨hlt, hget⟩ := List.getElem?_eq_some_iff.mp ht'
      exact List.mem_take_iff_getElem.mpr ⟨k', by omega, hget⟩

/-- A device is visited for a bit that no selected device before it has. -/
theorem mem_visited (cm : ConfigMgr) (mask : BitVec 32) (k : Nat) :
    k ∈ visited cm mask ↔ ∃ t b, cm.types[k]? = some t ∧ (isIn mask = true → isIn t = true) ∧
      (deviceBits t).getLsbD b = true ∧ mask.getLsbD b = true ∧
      ∀ k' < k, ∀ t', cm.types[k']? = some t' → (isIn mask = true → isIn t' = true) →
        (deviceBits t').getLsbD b = false := by
  have hpick := mem_picks (selects (mask &&& audioDeviceBitIn)) (deviceBits mask) 0 k cm.types
  rw [Nat.zero_add] at hpick
  refine Iff.trans hpick ?_
  constructor
  · rintro ⟨t, hk, hsel, b, ht, hm, hfirst⟩
    obtain ⟨hm, hb⟩ := (deviceBits_getLsbD mask b).mp hm
    refine ⟨t, b, hk, (selects_iff mask t).mp hsel, (deviceBits_getLsbD t b).mpr ⟨ht, hb⟩, hm, ?_⟩
    intro k' hlt t' hk' hdir
    rw [← Bool.not_eq_true, deviceBits_getLsbD]
    rintro ⟨hbit, -⟩
    rw [hfirst k' hlt t' hk' ((selects_iff mask t').mpr hdir)] at hbit
    cases hbit
  · rintro ⟨t, b, hk, hdir, ht, hm, hfirst⟩
    obtain ⟨ht, hb⟩ := (deviceBits_getLsbD t b).mp ht
    refine ⟨t, hk, (selects_iff mask t).mpr hdir, b, ht, (deviceBits_getLsbD mask b).mpr ⟨hm, hb⟩, ?_⟩
    intro k' hlt t' hk' hsel
    have hno := hfirst k' hlt t' hk' ((selects_iff mask t').mp hsel)
    rw [← Bool.not_eq_true, deviceBits_getLsbD] at hno
    rw [← Bool.not_eq_true]
    exact fun hbit => hno ⟨hbit, hb⟩

theorem meets_deviceBits (t mask : BitVec 32) : Meets (deviceBits t) (deviceBits mask) ↔
    ∃ b, (deviceBits t).getLsbD b = true ∧ mask.getLsbD b = true := by
  rw [meets_iff]
  constructor
  · rintro ⟨b, hb, hm⟩
    exact ⟨b, hb, ((deviceBits_getLsbD mask b).mp hm).1⟩
  · rintro ⟨b, hb, hm⟩
    exact ⟨b, hb, (deviceBits_getLsbD mask b).mpr ⟨hm, ((deviceBits_getLsbD t b).mp hb).2⟩⟩

/-- A device is meant when one of its bits is in the mask, in that direction. -/
theorem intended_iff (types : List (BitVec 32)) (input : Bool) (mask : BitVec 32) (k : Nat) :
    Intended types input mask k ↔ ∃ t b, types[k]? = some t ∧ isIn t = input ∧
      (deviceBits t).getLsbD b = true ∧ mask.getLsbD b = true := by
  constructor
  · rintro ⟨t, hk, hdir, hmeets⟩
    obtain ⟨b, ht, hm⟩ := (meets_deviceBits t mask).mp hmeets
    exact ⟨t, b, hk, hdir, ht, hm⟩
  · rintro ⟨t, b, hk, hdir, ht, hm⟩
    exact ⟨t, hk, hdir, (meets_deviceBits t mask).mpr ⟨b, ht, hm⟩⟩

/-- The intended devices, for a device that is known. -/
theorem intended_at {types : List (BitVec 32)} {k : Nat} {t : BitVec 32} (hk : types[k]? = some t)
    (input : Bool) (mask : BitVec 32) :
    Intended types input mask k ↔ isIn t = input ∧ Meets (deviceBits t) (deviceBits mask) := by
  constructor
  · rintro ⟨u, hu, h⟩
    rw [hk] at hu
    cases hu
    exact h
  · intro h
    exact ⟨t, hk, h⟩

/-- An unambiguous mask visits exactly the devices it means. -/
theorem visited_of_unambiguous {cm : ConfigMgr} {input : Bool} {mask : BitVec 32}
    (hapart : Apart cm.types) (hdir : isIn mask = true → input = true)
    (h : Unambiguous cm.types input mask) (k : Nat) :
    k ∈ visited cm mask ↔ Intended cm.types input mask k := by
  rw [mem_visited, intended_iff]
  constructor
  · rintro ⟨t, b, hk, hsel, ht, hm, hfirst⟩
    refine ⟨t, b, hk, ?_, ht, hm⟩
    rcases h with hin | hclear
    · rw [hsel hin, hdir hin]
    · by_contra hne
      obtain ⟨k', hlt, t', hk', hsame, hbit⟩ := hclear k t b hk hne ht hm
      by_cases hin : isIn mask = true
      · exact hne ((hsel hin).trans (hdir hin).symm)
      · rw [hfirst k' hlt t' hk' fun h => absurd h hin] at hbit
        cases hbit
  · rintro ⟨t, b, hk, hsame, ht, hm⟩
    refine ⟨t, b, hk, fun hin => hsame.trans (hdir hin), ht, hm, ?_⟩
    intro k' hlt t' hk' hsel
    rw [← Bool.not_eq_true]
    intro hbit
    by_cases hsame' : isIn t' = input
    · exact hapart.index hk' hk hlt (hsame'.trans hsame.symm) hbit ht
    · rcases h with hin | hclear
      · exact hsame' ((hsel hin).trans (hdir hin).symm)
      · obtain ⟨j, hj, u, hu, hdiru, hubit⟩ := hclear k' t' b hk' hsame' hbit hm
        exact hapart.index hu hk (Nat.lt_trans hj hlt) (hdiru.trans hsame.symm) hubit ht

/-- Where exactly the devices meant are visited the mask is unambiguous. -/
theorem unambiguous_of_visited {cm : ConfigMgr} {input : Bool} {mask : BitVec 32}
    (hapart : Apart cm.types)
    (h : ∀ k, k ∈ visited cm mask ↔ Intended cm.types input mask k) :
    Unambiguous cm.types input mask := by
  by_cases hin : isIn mask = true
  · exact Or.inl hin
  · right
    intro k t b hk hne ht hm
    by_contra hnone
    have hvisit : k ∈ visited cm mask := by
      rw [mem_visited]
      refine ⟨t, b, hk, fun h => absurd h hin, ht, hm, ?_⟩
      intro k' hlt t' hk' _
      rw [← Bool.not_eq_true]
      intro hbit
      by_cases hsame : isIn t' = input
      · exact hnone ⟨k', hlt, t', hk', hsame, hbit⟩
      · refine hapart.index hk' hk hlt ?_ hbit ht
        revert hsame hne
        cases isIn t' <;> cases isIn t <;> cases input <;> simp
    obtain ⟨u, hu, hdiru, -⟩ := (h k).mp hvisit
    rw [hk] at hu
    cases hu
    exact hne hdiru

/-- The two passes of a route change visit the devices they should, and no others. -/
def RouteExact (cm : ConfigMgr) (i : Nat) (s : Stream) (devices : BitVec 32) : Prop :=
  ∃ down up : List Visit,
    (applyRoute cm i s devices).walks =
      cm.walks ++ [⟨s.disablePath, pathIdOff, down⟩, ⟨pathIdOn, s.enablePath, up⟩] ∧
    (∀ k, k ∈ down.map (fun v => v.device) ↔
      Intended cm.types (streamIsInput s) (~~~devices &&& s.currentDevices) k) ∧
    (∀ k, k ∈ up.map (fun v => v.device) ↔
      Intended cm.types (streamIsInput s) (devices &&& ~~~s.currentDevices) k)

theorem isIn_and {a b : BitVec 32} (h : isIn (a &&& b) = true) : isIn a = true ∧ isIn b = true := by
  unfold isIn at h ⊢
  rwa [BitVec.getLsbD_and, Bool.and_eq_true] at h

/-- A mask that names a direction names the stream's. -/
theorem enabling_direction {s : Stream} {devices : BitVec 32} (hacc : routeAccepted s devices = true)
    (h : isIn (devices &&& ~~~s.currentDevices) = true) : streamIsInput s = true := by
  have hin := (isIn_iff devices).mp (isIn_and h).1
  have hz : devices ≠ 0#32 := by
    intro hz
    rw [hz] at hin
    exact hin (by simp)
  unfold routeAccepted at hacc
  rw [decide_eq_false hz, Bool.false_or, beq_iff_eq, decide_eq_true hin] at hacc
  exact hacc.symm

/-- A stream with an input route is an input. -/
theorem Directed.input {s : Stream} (hd : Directed s) (h : isIn s.currentDevices = true) :
    streamIsInput s = true := by
  rcases hd with hz | hdir
  · rw [hz] at h
    simp [isIn] at h
  · rw [← hdir, h]

/-- In every run of every accepted configuration, a route change touches exactly the intended
devices if and only if neither of its masks is ambiguous. -/
theorem route_exact_iff {cm₀ cm : ConfigMgr} {calls : List Call} (hparsed : Parsed cm₀)
    (hrun : Transition.run step cm₀ calls = some cm) {i : Nat} {s : Stream} {devices : BitVec 32}
    (hs : cm.streams[i]? = some s) (hacc : routeAccepted s devices = true) :
    RouteExact cm i s devices ↔
      Unambiguous cm.types (streamIsInput s) (~~~devices &&& s.currentDevices) ∧
      Unambiguous cm.types (streamIsInput s) (devices &&& ~~~s.currentDevices) := by
  have hrouted := hparsed.routed.run hrun
  have hapart : Apart cm.types := by
    rw [hrouted.types]
    exact hparsed.apart
  have hd : Directed s := hrouted.directed s (List.mem_of_getElem? hs)
  obtain ⟨cm₁, cm₂, down, up, hdown, hup, heq⟩ := applyRoute_passes cm i s devices hacc
  have hwalks : (applyRoute cm i s devices).walks =
      cm.walks ++ [⟨s.disablePath, pathIdOff, down⟩, ⟨pathIdOn, s.enablePath, up⟩] := by
    rw [heq]
    show cm₂.walks = _
    rw [hup.walks, hdown.walks, List.append_assoc]
    rfl
  have hdownDir : isIn (~~~devices &&& s.currentDevices) = true → streamIsInput s = true :=
    fun h => hd.input (isIn_and h).2
  constructor
  · rintro ⟨down', up', hwalks', hdown', hup'⟩
    rw [hwalks] at hwalks'
    have hsame := List.append_cancel_left hwalks'
    injection hsame with hone hrest
    injection hrest with htwo
    injection hone with _ _ hone
    injection htwo with _ _ htwo
    subst hone htwo
    rw [hdown.pass.visits] at hdown'
    rw [hup.pass.visits] at hup'
    exact ⟨unambiguous_of_visited hapart hdown', unambiguous_of_visited hapart hup'⟩
  · rintro ⟨hdownClear, hupClear⟩
    refine ⟨down, up, hwalks, ?_, ?_⟩
    · rw [hdown.pass.visits]
      exact visited_of_unambiguous hapart hdownDir hdownClear
    · rw [hup.pass.visits]
      exact visited_of_unambiguous hapart (enabling_direction hacc) hupClear

/-- The state after a run of calls on the shipped configuration. -/
def mochaAfter (calls : List Call) : ConfigMgr :=
  (Transition.run step mochaConfig calls).getD mochaConfig

def mochaStream (calls : List Call) (i : Nat) : Stream :=
  ((mochaAfter calls).streams[i]?).getD newStream

/-- The first route of the capture stream names its direction, so it is exact. -/
theorem mic_first_route_exact :
    RouteExact (mochaAfter [.getStream 0x80000004#32 true]) 1
      (mochaStream [.getStream 0x80000004#32 true] 1) 0x80000004#32 := by
  have hrun : Transition.run step mochaConfig [.getStream 0x80000004#32 true] =
      some (mochaAfter [.getStream 0x80000004#32 true]) := by decide +kernel
  refine (route_exact_iff mochaConfig_parsed hrun (by decide +kernel)
    (by decide +kernel)).mpr ⟨?_, ?_⟩
  · right
    intro k t b _ _ _ hb
    have hzero : ~~~0x80000004#32 &&&
        (mochaStream [.getStream 0x80000004#32 true] 1).currentDevices = 0#32 := by decide +kernel
    rw [hzero, BitVec.getLsbD_zero] at hb
    cases hb
  · left
    decide +kernel

/-- The capture stream opened and routed to the headset microphone. -/
def captureCalls : List Call := [.getStream 0x80000010#32 true, .applyRoute 1 0x80000010#32]

/-- Moving the capture stream from the headset microphone to the built-in one hands the output
device "headset" to the enable paths, and not "mic". -/
theorem mic_route_touches_headset :
    Parsed mochaConfig ∧
    Transition.run step mochaConfig captureCalls = some (mochaAfter captureCalls) ∧
    (mochaAfter captureCalls).streams[1]? = some (mochaStream captureCalls 1) ∧
    routeAccepted (mochaStream captureCalls 1) 0x80000004#32 = true ∧
    ¬ RouteExact (mochaAfter captureCalls) 1 (mochaStream captureCalls 1) 0x80000004#32 := by
  refine ⟨mochaConfig_parsed, by decide +kernel, by decide +kernel, by decide +kernel, ?_⟩
  rintro ⟨down, up, hwalks, -, hup⟩
  have hlast := congrArg (fun ws => ws.getLast?.map fun w => w.visits.map fun v => v.device) hwalks
  rw [show (up.map fun v => v.device) = [2] from ?_] at hup
  · obtain ⟨t, ht, hdir, -⟩ := (hup 2).mp (List.mem_singleton.mpr rfl)
    have htype : t = 0x4#32 := by
      have hk : (mochaAfter captureCalls).types[2]? = some 0x4#32 := by decide +kernel
      rw [hk] at ht
      exact (Option.some.inj ht).symm
    rw [htype] at hdir
    exact absurd hdir (by decide +kernel)
  · have hcode : ((applyRoute (mochaAfter captureCalls) 1 (mochaStream captureCalls 1)
        0x80000004#32).walks.getLast?.map fun w => w.visits.map fun v => v.device) = some [2] := by
      decide +kernel
    rw [hcode] at hlast
    simpa using hlast.symm

end Exactness

end TinyHal
