import Mocha.AudioRoutes

/-!
# The use count of a device

A device is connected to a stream that is routed to one of its bits, and the
global device to every open stream. The law of the README is that "on" runs when
the first stream connects and "off" when the last one leaves, with the use count
as the number of connected streams in between. It holds along every run whose
calls meet the condition `Fair`, and fails without it.
-/
namespace TinyHal

open Mask

section Law

/-- Whether the device at position `k` is connected to a stream. -/
def connects (types : List (BitVec 32)) (k : Nat) (s : Stream) : Bool :=
  match types[k]? with
  | none => false
  | some t =>
    if t = 0#32 then
      decide ((types.findIdx? fun u => u = 0#32) = some k) && decide (0 < s.refCount)
    else decide (isIn t = streamIsInput s) && decide (Meets (deviceBits t) (deviceBits s.currentDevices))

/-- The number of streams connected to a device. -/
def connections (cm : ConfigMgr) (k : Nat) : Nat := cm.streams.countP (connects cm.types k)

/-- The ids of the paths that some walks applied to the device at position `k`. -/
def appliedIds (ws : List Walk) (k : Nat) : List Int :=
  ws.flatMap fun w => w.visits.flatMap fun v =>
    if v.device = k then v.applied.map fun p => p.id else []

/-- What the README says of one call, for every device. -/
def UseCountLaw (cm cm' : ConfigMgr) : Prop :=
  ∃ ws, cm'.walks = cm.walks ++ ws ∧ ∀ (k : Nat) (d' : Device), cm'.devices[k]? = some d' →
    (appliedIds ws k).count pathIdOn =
      (if connections cm k = 0 ∧ 0 < connections cm' k then 1 else 0) ∧
    (appliedIds ws k).count pathIdOff =
      (if 0 < connections cm k ∧ connections cm' k = 0 then 1 else 0) ∧
    d'.useCount = (connections cm' k : Int)

/-- Reaching the device for a stream that connects to it counts up, once. -/
def Raises (d : Device) (s : Stream) : Prop :=
  pathIdOn ∈ d.ids ∧ ¬ (s.enablePath = pathIdOff ∧ pathIdOff ∈ d.ids)

/-- Reaching the device for a stream that leaves it counts down, once. -/
def Lowers (d : Device) (s : Stream) : Prop :=
  pathIdOff ∈ d.ids ∧ ¬ (s.disablePath = pathIdOn ∧ pathIdOn ∈ d.ids)

/-- A route change that no device sees half, and whose masks are not ambiguous. -/
structure FairRoute (cm : ConfigMgr) (s : Stream) (devices : BitVec 32) : Prop where
  removed : Unambiguous cm.types (streamIsInput s) (~~~devices &&& s.currentDevices)
  added : Unambiguous cm.types (streamIsInput s) (devices &&& ~~~s.currentDevices)
  whole : ∀ k d, cm.devices[k]? = some d → connects cm.types k s = true →
    connects cm.types k { s with currentDevices := routedDevices devices } = true →
    ¬ Meets (deviceBits d.type) (~~~devices &&& s.currentDevices) ∧
    ¬ Meets (deviceBits d.type) (devices &&& ~~~s.currentDevices)
  raises : ∀ k d, cm.devices[k]? = some d → connects cm.types k s = false →
    connects cm.types k { s with currentDevices := routedDevices devices } = true → Raises d s
  lowers : ∀ k d, cm.devices[k]? = some d → connects cm.types k s = true →
    connects cm.types k { s with currentDevices := routedDevices devices } = false → Lowers d s

/-- Closing a stream: its mask is not ambiguous, and every device it leaves can count down. -/
structure FairRelease (cm : ConfigMgr) (s : Stream) : Prop where
  removed : Unambiguous cm.types (streamIsInput s) s.currentDevices
  lowers : ∀ k d, cm.devices[k]? = some d → connects cm.types k s = true → Lowers d s

/-- The condition on a call, in the state before it. -/
def Fair (cm : ConfigMgr) (c : Call) : Prop :=
  match c with
  | .applyRoute i devices =>
    ∀ s, cm.streams[i]? = some s → routeAccepted s devices = true → FairRoute cm s devices
  | .releaseStream i => ∀ s, cm.streams[i]? = some s → s.refCount = 1 → FairRelease cm s
  | .getStream .. | .getNamedStream .. =>
    ∀ i s, cm.streams[i]? = some s → c.Takes cm i s → s.refCount = 0 → 0 < s.maxRefCount →
      ∀ k d, cm.devices[k]? = some d → globalDevice cm.devices = some k → Raises d s

section Decide

variable {α : Type}

instance decidableAtEach (l : List α) (P : Nat → α → Prop) [∀ k a, Decidable (P k a)] :
    Decidable (∀ k a, l[k]? = some a → P k a) :=
  decidable_of_iff (∀ k : Fin l.length, P k l[k]) <| by
    constructor
    · intro h k a hk
      obtain ⟨hlt, rfl⟩ := List.getElem?_eq_some_iff.mp hk
      exact h ⟨k, hlt⟩
    · intro h k
      exact h k l[k] (List.getElem?_eq_getElem k.isLt)

instance decidableAtOne (o : Option α) (P : α → Prop) [∀ a, Decidable (P a)] :
    Decidable (∀ a, o = some a → P a) :=
  match o with
  | none => isTrue fun _ h => nomatch h
  | some a => decidable_of_iff (P a) ⟨fun h _ he => Option.some.inj he ▸ h, fun h => h a rfl⟩

instance (d : Device) (s : Stream) : Decidable (Raises d s) := inferInstanceAs (Decidable (_ ∧ _))

instance (d : Device) (s : Stream) : Decidable (Lowers d s) := inferInstanceAs (Decidable (_ ∧ _))

instance (cm : ConfigMgr) (s : Stream) (devices : BitVec 32) : Decidable (FairRoute cm s devices) :=
  decidable_of_iff (_ ∧ _ ∧ _ ∧ _ ∧ _)
    ⟨fun h => ⟨h.1, h.2.1, h.2.2.1, h.2.2.2.1, h.2.2.2.2⟩,
      fun h => ⟨h.removed, h.added, h.whole, h.raises, h.lowers⟩⟩

instance (cm : ConfigMgr) (s : Stream) : Decidable (FairRelease cm s) :=
  decidable_of_iff (_ ∧ _) ⟨fun h => ⟨h.1, h.2⟩, fun h => ⟨h.removed, h.lowers⟩⟩

instance (c : Call) (cm : ConfigMgr) (i : Nat) (s : Stream) : Decidable (c.Takes cm i s) :=
  match c with
  | .getStream .. => inferInstanceAs (Decidable (_ ∧ ∀ j t, cm.streams[j]? = some t → _))
  | .getNamedStream .. => inferInstanceAs (Decidable (_ ∧ ∀ j t, cm.streams[j]? = some t → _))
  | .applyRoute .. => inferInstanceAs (Decidable (_ ∧ ∀ j t, cm.streams[j]? = some t → _))
  | .releaseStream .. => inferInstanceAs (Decidable (_ ∧ ∀ j t, cm.streams[j]? = some t → _))

instance (cm : ConfigMgr) (c : Call) : Decidable (Fair cm c) :=
  match c with
  | .getStream .. => inferInstanceAs (Decidable (∀ i s, cm.streams[i]? = some s → _))
  | .getNamedStream .. => inferInstanceAs (Decidable (∀ i s, cm.streams[i]? = some s → _))
  | .applyRoute i _ => inferInstanceAs (Decidable (∀ s, cm.streams[i]? = some s → _))
  | .releaseStream i => inferInstanceAs (Decidable (∀ s, cm.streams[i]? = some s → _))

end Decide

end Law

section Counting

/-- A device whose use count moved by `delta`, with the paths applied on the way. -/
structure Shift (d d' : Device) (ids : List Int) (delta : Int) : Prop where
  sameIds : d'.ids = d.ids
  count : d'.useCount = d.useCount + delta
  on : ids.count pathIdOn = if delta = 1 ∧ d.useCount ≤ 0 then 1 else 0
  off : ids.count pathIdOff = if delta = -1 ∧ d.useCount ≤ 1 then 1 else 0

theorem Shift.refl (d : Device) : Shift d d [] 0 := by
  refine ⟨rfl, (Int.add_zero _).symm, ?_, ?_⟩
  · rw [if_neg (by omega)]
    rfl
  · rw [if_neg (by omega)]
    rfl

/-- An id of its own moves no count and is always applied. -/
theorem bump_other {count id : Int} (hon : id ≠ pathIdOn) (hoff : id ≠ pathIdOff) :
    bump count id = (count, true) := by
  unfold bump
  rw [if_neg hoff, if_neg hon]

theorem bump_on (count : Int) : bump count pathIdOn = (count + 1, decide (count + 1 ≤ 1)) := rfl

theorem bump_off (count : Int) : bump count pathIdOff = (count - 1, decide (count - 1 ≤ 0)) := rfl

/-- Paths that are neither "on" nor "off". -/
def Custom (ids : List Int) : Prop := ∀ id ∈ ids, id ≠ pathIdOn ∧ id ≠ pathIdOff

/-- Reaching custom paths counts nothing. -/
theorem bumps_custom (count : Int) (ids : List Int) (h : Custom ids) :
    bumps count ids = (count, ids) := by
  induction ids with
  | nil => rfl
  | cons id ids ih =>
    obtain ⟨hon, hoff⟩ := h id List.mem_cons_self
    simp only [bumps, bump_other hon hoff]
    rw [ih fun i hi => h i (List.mem_cons_of_mem _ hi)]
    rfl

/-- Such ids do not count as on or off. -/
theorem Custom.count {ids : List Int} (h : Custom ids) :
    ids.count pathIdOn = 0 ∧ ids.count pathIdOff = 0 := by
  constructor
  · exact List.count_eq_zero.mpr fun hmem => (h _ hmem).1 rfl
  · exact List.count_eq_zero.mpr fun hmem => (h _ hmem).2 rfl

/-- One counted path among custom ones. -/
theorem bumps_around (count x : Int) (pre post : List Int) (hpre : Custom pre) (hpost : Custom post) :
    bumps count (pre ++ x :: post) =
      ((bump count x).1, pre ++ (if (bump count x).2 then [x] else []) ++ post) := by
  induction pre with
  | nil =>
    simp only [List.nil_append, bumps, bumps_custom _ post hpost]
    split <;> rfl
  | cons id pre ih =>
    obtain ⟨hon, hoff⟩ := hpre id List.mem_cons_self
    simp only [List.cons_append, bumps, bump_other hon hoff]
    rw [ih fun i hi => hpre i (List.mem_cons_of_mem _ hi)]
    rfl

/-- A counted path wanted together with a custom one, in either order. -/
theorem wanted_around {ids : List Int} {x q : Int} (hx : x ∈ ids)
    (hq : q ∈ ids → q ≠ x → q ≠ pathIdOn ∧ q ≠ pathIdOff) :
    (∃ post, Custom post ∧ wanted ids x q = [] ++ x :: post) ∧
    (∃ pre, Custom pre ∧ wanted ids q x = pre ++ x :: []) := by
  have hone (id : Int) (h : id ≠ pathIdOn ∧ id ≠ pathIdOff) : Custom [id] := by
    intro i hi
    rw [List.mem_singleton.mp hi]
    exact h
  have hnil : Custom [] := fun i hi => absurd hi List.not_mem_nil
  unfold wanted
  by_cases hsame : q = x
  · subst hsame
    rw [if_pos hx, if_neg fun h => h.1 rfl]
    exact ⟨⟨[], hnil, rfl⟩, ⟨[], hnil, rfl⟩⟩
  · by_cases hmem : q ∈ ids
    · rw [if_pos hx, if_pos hmem, if_pos ⟨hsame, hmem⟩, if_pos ⟨Ne.symm hsame, hx⟩]
      exact ⟨⟨[q], hone q (hq hmem hsame), rfl⟩, ⟨[q], hone q (hq hmem hsame), rfl⟩⟩
    · rw [if_pos hx, if_neg hmem, if_neg fun h => hmem h.2, if_pos ⟨Ne.symm hsame, hx⟩]
      exact ⟨⟨[], hnil, rfl⟩, ⟨[], hnil, rfl⟩⟩

/-- A walk with one `on` raises the count by one. -/
theorem shift_on {d d' : Device} {pre post : List Int} (hpre : Custom pre) (hpost : Custom post)
    (hids : d'.ids = d.ids) (hcount : d'.useCount = (bumps d.useCount (pre ++ pathIdOn :: post)).1) :
    Shift d d' (bumps d.useCount (pre ++ pathIdOn :: post)).2 1 := by
  rw [bumps_around _ _ _ _ hpre hpost, bump_on] at hcount ⊢
  refine ⟨hids, hcount, ?_, ?_⟩
  · dsimp only
    rw [List.count_append, List.count_append, hpre.count.1, hpost.count.1]
    by_cases h : d.useCount ≤ 0
    · rw [if_pos (by rw [decide_eq_true (by omega)]), if_pos ⟨rfl, h⟩]
      rfl
    · rw [if_neg (by rw [decide_eq_false (by omega)]; decide), if_neg fun hc => h hc.2]
      rfl
  · have hnot : ¬ ((1 : Int) = -1 ∧ d.useCount ≤ 1) := by omega
    dsimp only
    rw [if_neg hnot, List.count_append, List.count_append, hpre.count.2, hpost.count.2]
    split <;> rfl

/-- A walk with one `off` lowers it by one. -/
theorem shift_off {d d' : Device} {pre post : List Int} (hpre : Custom pre) (hpost : Custom post)
    (hids : d'.ids = d.ids) (hcount : d'.useCount = (bumps d.useCount (pre ++ pathIdOff :: post)).1) :
    Shift d d' (bumps d.useCount (pre ++ pathIdOff :: post)).2 (-1) := by
  rw [bumps_around _ _ _ _ hpre hpost, bump_off] at hcount ⊢
  refine ⟨hids, hcount, ?_, ?_⟩
  · have hnot : ¬ ((-1 : Int) = 1 ∧ d.useCount ≤ 0) := by omega
    dsimp only
    rw [if_neg hnot, List.count_append, List.count_append, hpre.count.1, hpost.count.1]
    split <;> rfl
  · dsimp only
    rw [List.count_append, List.count_append, hpre.count.2, hpost.count.2]
    by_cases h : d.useCount ≤ 1
    · rw [if_pos (by rw [decide_eq_true (by omega)]), if_pos ⟨rfl, h⟩]
      rfl
    · rw [if_neg (by rw [decide_eq_false (by omega)]; decide), if_neg fun hc => h hc.2]
      rfl

end Counting

section Passes

theorem appliedIds_append (ws ws' : List Walk) (k : Nat) :
    appliedIds (ws ++ ws') k = appliedIds ws k ++ appliedIds ws' k := List.flatMap_append

/-- A device that is not visited has no path applied. -/
theorem visitIds_absent {vs : List Visit} {k : Nat} (h : k ∉ vs.map fun v => v.device) :
    (vs.flatMap fun v => if v.device = k then v.applied.map (fun p => p.id) else []) = [] := by
  rw [List.flatMap_eq_nil_iff]
  intro v hv
  rw [if_neg]
  intro he
  exact h (List.mem_map.mpr ⟨v, hv, he⟩)

/-- A device that is visited once shows exactly the paths of that visit. -/
theorem visitIds_once {vs : List Visit} {k : Nat} {ids : List Int}
    (hnodup : (vs.map fun v => v.device).Nodup) (hmem : k ∈ vs.map fun v => v.device)
    (hids : ∀ v ∈ vs, v.device = k → v.applied.map (fun p => p.id) = ids) :
    (vs.flatMap fun v => if v.device = k then v.applied.map (fun p => p.id) else []) = ids := by
  induction vs with
  | nil => exact absurd hmem List.not_mem_nil
  | cons v vs ih =>
    rw [List.map_cons, List.nodup_cons] at hnodup
    rw [List.flatMap_cons]
    by_cases hk : v.device = k
    · rw [if_pos hk, hids v List.mem_cons_self hk, visitIds_absent (hk ▸ hnodup.1), List.append_nil]
    · rw [List.map_cons, List.mem_cons] at hmem
      rw [if_neg hk, List.nil_append]
      exact ih hnodup.2 (hmem.resolve_left (Ne.symm hk)) fun u hu =>
        hids u (List.mem_cons_of_mem _ hu)

variable {cm cm' : ConfigMgr} {firstId secondId : Int} {js : List Nat} {vs : List Visit}

/-- A device outside the pass stays as it is. -/
theorem Passed.shift_zero (h : Passed cm firstId secondId js vs cm') {k : Nat} (hk : k ∉ js)
    {d : Device} (hd : cm.devices[k]? = some d) :
    cm'.devices[k]? = some d ∧ appliedIds [⟨firstId, secondId, vs⟩] k = [] := by
  refine ⟨(h.pass.untouched k hk).trans hd, ?_⟩
  unfold appliedIds
  rw [List.flatMap_cons, List.flatMap_nil, List.append_nil]
  exact visitIds_absent (by rw [h.pass.visits]; exact hk)

/-- A device of the pass is walked over once. -/
theorem Passed.shift_visit (h : Passed cm firstId secondId js vs cm') (hnodup : js.Nodup) {k : Nat}
    (hk : k ∈ js) {d : Device} (hd : cm.devices[k]? = some d) :
    ∃ d', cm'.devices[k]? = some d' ∧ d'.ids = d.ids ∧
      d'.useCount = (bumps d.useCount (wanted d.ids firstId secondId)).1 ∧
      appliedIds [⟨firstId, secondId, vs⟩] k =
        (bumps d.useCount (wanted d.ids firstId secondId)).2 := by
  obtain ⟨d', hd', -, hids, hcount, happlied⟩ := h.pass.touched k d hd hk
  refine ⟨d', hd', hids, hcount, ?_⟩
  unfold appliedIds
  rw [List.flatMap_cons, List.flatMap_nil, List.append_nil]
  apply visitIds_once
  · rw [h.pass.visits]
    exact hnodup
  · rw [h.pass.visits]
    exact hk
  · exact happlied

/-- A visit for a stream that connects. -/
theorem Passed.shift_raise {s : Stream} (h : Passed cm pathIdOn s.enablePath js vs cm')
    (hnodup : js.Nodup) {k : Nat} (hk : k ∈ js) {d : Device} (hd : cm.devices[k]? = some d)
    (hraise : Raises d s) :
    ∃ d', cm'.devices[k]? = some d' ∧
      Shift d d' (appliedIds [⟨pathIdOn, s.enablePath, vs⟩] k) 1 := by
  obtain ⟨d', hd', hids, hcount, happlied⟩ := h.shift_visit hnodup hk hd
  have hq : s.enablePath ∈ d.ids → s.enablePath ≠ pathIdOn →
      s.enablePath ≠ pathIdOn ∧ s.enablePath ≠ pathIdOff := by
    intro hmem hne
    refine ⟨hne, ?_⟩
    intro hoff
    exact hraise.2 ⟨hoff, hoff ▸ hmem⟩
  obtain ⟨post, hpost, hwanted⟩ := (wanted_around hraise.1 hq).1
  rw [hwanted] at hcount happlied
  refine ⟨d', hd', ?_⟩
  rw [happlied]
  exact shift_on (fun i hi => absurd hi List.not_mem_nil) hpost hids hcount

theorem Lowers.custom {d : Device} {s : Stream} (h : Lowers d s) :
    s.disablePath ∈ d.ids → s.disablePath ≠ pathIdOff →
      s.disablePath ≠ pathIdOn ∧ s.disablePath ≠ pathIdOff := by
  intro hmem hne
  refine ⟨?_, hne⟩
  intro hon
  exact h.2 ⟨hon, hon ▸ hmem⟩

/-- A visit for a stream that leaves, with "off" after the stream's own path. -/
theorem Passed.shift_lower {s : Stream} (h : Passed cm s.disablePath pathIdOff js vs cm')
    (hnodup : js.Nodup) {k : Nat} (hk : k ∈ js) {d : Device} (hd : cm.devices[k]? = some d)
    (hlower : Lowers d s) :
    ∃ d', cm'.devices[k]? = some d' ∧
      Shift d d' (appliedIds [⟨s.disablePath, pathIdOff, vs⟩] k) (-1) := by
  obtain ⟨d', hd', hids, hcount, happlied⟩ := h.shift_visit hnodup hk hd
  obtain ⟨pre, hpre, hwanted⟩ := (wanted_around hlower.1 hlower.custom).2
  rw [hwanted] at hcount happlied
  refine ⟨d', hd', ?_⟩
  rw [happlied]
  exact shift_off hpre (fun i hi => absurd hi List.not_mem_nil) hids hcount

/-- A visit for a stream that is closed, with "off" before the stream's own path. -/
theorem Passed.shift_close {s : Stream} (h : Passed cm pathIdOff s.disablePath js vs cm')
    (hnodup : js.Nodup) {k : Nat} (hk : k ∈ js) {d : Device} (hd : cm.devices[k]? = some d)
    (hlower : Lowers d s) :
    ∃ d', cm'.devices[k]? = some d' ∧
      Shift d d' (appliedIds [⟨pathIdOff, s.disablePath, vs⟩] k) (-1) := by
  obtain ⟨d', hd', hids, hcount, happlied⟩ := h.shift_visit hnodup hk hd
  obtain ⟨post, hpost, hwanted⟩ := (wanted_around hlower.1 hlower.custom).1
  rw [hwanted] at hcount happlied
  refine ⟨d', hd', ?_⟩
  rw [happlied]
  exact shift_off (fun i hi => absurd hi List.not_mem_nil) hpost hids hcount

end Passes

section Calls

/-- The use counts are the numbers of connected streams. -/
def Counted (cm : ConfigMgr) : Prop :=
  ∀ (k : Nat) (d : Device), cm.devices[k]? = some d → d.useCount = (connections cm k : Int)

def toInt (b : Bool) : Int := if b then 1 else 0

/-- How a stream's change moves the number of connections of a device. -/
def change (types : List (BitVec 32)) (k : Nat) (s s' : Stream) : Int :=
  toInt (connects types k s') - toInt (connects types k s)

/-- One stream changes, and with it the connections it makes. -/
theorem connections_set {cm cm' : ConfigMgr} {i : Nat} {s s' : Stream} (k : Nat)
    (htypes : cm'.types = cm.types) (hstreams : cm'.streams = cm.streams.set i s')
    (hs : cm.streams[i]? = some s) :
    (connections cm' k : Int) = connections cm k + change cm.types k s s' := by
  obtain ⟨hi, hget⟩ := List.getElem?_eq_some_iff.mp hs
  unfold connections change toInt
  rw [htypes, hstreams, List.countP_set hi, hget]
  have hpos : connects cm.types k s = true → 0 < cm.streams.countP (connects cm.types k) := by
    intro h
    exact List.countP_pos_iff.mpr ⟨s, List.mem_of_getElem? hs, h⟩
  by_cases hold : connects cm.types k s = true
  · have := hpos hold
    by_cases hnew : connects cm.types k s' = true
    · rw [if_pos hold, if_pos hnew, if_pos hold, if_pos hnew]
      omega
    · rw [if_pos hold, if_neg hnew, if_pos hold, if_neg hnew]
      omega
  · by_cases hnew : connects cm.types k s' = true
    · rw [if_neg hold, if_pos hnew, if_neg hold, if_pos hnew]
      omega
    · rw [if_neg hold, if_neg hnew, if_neg hold, if_neg hnew]
      omega

theorem exists_device {cm cm' : ConfigMgr} (htypes : cm'.types = cm.types) {k : Nat} {d' : Device}
    (hd' : cm'.devices[k]? = some d') : ∃ d, cm.devices[k]? = some d ∧ d.type = d'.type := by
  have h : cm.types[k]? = some d'.type := by
    rw [← htypes]
    unfold ConfigMgr.types
    rw [List.getElem?_map, hd']
    rfl
  unfold ConfigMgr.types at h
  rw [List.getElem?_map] at h
  exact Option.map_eq_some_iff.mp h

/-- When every device shifts as the stream's connection does, the law holds. -/
theorem useCountLaw_of_shift {cm cm' : ConfigMgr} {i : Nat} {s s' : Stream} {ws : List Walk}
    (hcounted : Counted cm) (htypes : cm'.types = cm.types)
    (hstreams : cm'.streams = cm.streams.set i s') (hs : cm.streams[i]? = some s)
    (hwalks : cm'.walks = cm.walks ++ ws)
    (hshift : ∀ k d, cm.devices[k]? = some d → ∃ d', cm'.devices[k]? = some d' ∧
      Shift d d' (appliedIds ws k) (change cm.types k s s')) : UseCountLaw cm cm' := by
  refine ⟨ws, hwalks, ?_⟩
  intro k d' hd'
  obtain ⟨d, hd, -⟩ := exists_device htypes hd'
  obtain ⟨d₁, hd₁, hmoved⟩ := hshift k d hd
  rw [hd'] at hd₁
  cases hd₁
  have hconn := connections_set k htypes hstreams hs
  have hold := hcounted k d hd
  have hrange : change cm.types k s s' = 0 ∨ change cm.types k s s' = 1 ∨
      change cm.types k s s' = -1 := by
    unfold change toInt
    split <;> split <;> omega
  refine ⟨?_, ?_, ?_⟩
  · rw [hmoved.on]
    congr 1
    apply propext
    omega
  · rw [hmoved.off]
    congr 1
    apply propext
    omega
  · rw [hmoved.count, hold, hconn]

theorem useCountLaw_refl {cm : ConfigMgr} (hcounted : Counted cm) : UseCountLaw cm cm := by
  refine ⟨[], (List.append_nil _).symm, ?_⟩
  intro k d hd
  refine ⟨?_, ?_, hcounted k d hd⟩
  · rw [if_neg (by omega)]
    rfl
  · rw [if_neg (by omega)]
    rfl

theorem change_self {types : List (BitVec 32)} {k : Nat} {s s' : Stream}
    (h : connects types k s' = connects types k s) : change types k s s' = 0 := by
  unfold change
  rw [h, Int.sub_self]

/-- A connection made. -/
theorem change_raise {types : List (BitVec 32)} {k : Nat} {s s' : Stream}
    (hold : connects types k s = false) (hnew : connects types k s' = true) :
    change types k s s' = 1 := by
  unfold change
  rw [hold, hnew]
  rfl

/-- A connection given up. -/
theorem change_lower {types : List (BitVec 32)} {k : Nat} {s s' : Stream}
    (hold : connects types k s = true) (hnew : connects types k s' = false) :
    change types k s s' = -1 := by
  unfold change
  rw [hold, hnew]
  rfl

theorem types_of_device {cm : ConfigMgr} {k : Nat} {d : Device} (hd : cm.devices[k]? = some d) :
    cm.types[k]? = some d.type := by
  unfold ConfigMgr.types
  rw [List.getElem?_map, hd]
  rfl

/-- The global device is found by its type alone. -/
theorem globalDevice_types (cm : ConfigMgr) :
    globalDevice cm.devices = cm.types.findIdx? fun u => u = 0#32 := by
  unfold globalDevice ConfigMgr.types
  rw [List.findIdx?_map]
  rfl

theorem globalDevice_type {cm : ConfigMgr} {k : Nat} {d : Device} (hd : cm.devices[k]? = some d)
    (hk : globalDevice cm.devices = some k) : d.type = 0#32 := by
  obtain ⟨hlt, htype, -⟩ := List.findIdx?_eq_some_iff_getElem.mp hk
  rw [(List.getElem?_eq_some_iff.mp hd).2] at htype
  exact of_decide_eq_true htype

/-- A device is connected when the stream uses one of its bits in its direction. -/
theorem connects_device {types : List (BitVec 32)} {k : Nat} {t : BitVec 32}
    (hk : types[k]? = some t) (ht : t ≠ 0#32) (s : Stream) :
    connects types k s = true ↔
      isIn t = streamIsInput s ∧ Meets (deviceBits t) (deviceBits s.currentDevices) := by
  unfold connects
  rw [hk]
  dsimp only
  rw [if_neg ht, Bool.and_eq_true, decide_eq_true_iff, decide_eq_true_iff]

/-- The global device is connected while the stream is in use. -/
theorem connects_global {types : List (BitVec 32)} {k : Nat} (hk : types[k]? = some 0#32)
    (s : Stream) :
    connects types k s = true ↔ (types.findIdx? fun u => u = 0#32) = some k ∧ 0 < s.refCount := by
  unfold connects
  rw [hk]
  dsimp only
  rw [if_pos rfl, Bool.and_eq_true, decide_eq_true_iff, decide_eq_true_iff]

/-- A stream that keeps its direction, its devices and whether it is open keeps its connections. -/
theorem connects_congr {types : List (BitVec 32)} {k : Nat} {s s' : Stream} (htype : s'.type = s.type)
    (hdevices : s'.currentDevices = s.currentDevices) (hopen : 0 < s'.refCount ↔ 0 < s.refCount) :
    connects types k s' = connects types k s := by
  unfold connects streamIsInput
  rw [htype, hdevices, decide_eq_decide.mpr hopen]

/-- A change of a stream that makes no connection and gives up none. -/
theorem useCountLaw_setStream {cm : ConfigMgr} {i : Nat} {s s' : Stream} (hcounted : Counted cm)
    (hs : cm.streams[i]? = some s)
    (hsame : ∀ k, connects cm.types k s' = connects cm.types k s) :
    UseCountLaw cm (setStream cm i s') := by
  refine useCountLaw_of_shift hcounted rfl rfl hs (List.append_nil _).symm ?_
  intro k d hd
  rw [change_self (hsame k)]
  exact ⟨d, hd, Shift.refl d⟩

theorem toList_nodup (o : Option Nat) : o.toList.Nodup := by
  cases o <;> simp

/-- The law for the open of a stream. -/
theorem openStreamL_law {cm : ConfigMgr} {i : Nat} {s : Stream} (hcounted : Counted cm)
    (hs : cm.streams[i]? = some s) (hlt : s.refCount < s.maxRefCount)
    (hfair : s.refCount = 0 → ∀ k d, cm.devices[k]? = some d → globalDevice cm.devices = some k →
      Raises d s) : UseCountLaw cm (openStreamL cm i s).2 := by
  by_cases hfirst : s.refCount = 0
  · obtain ⟨vs, hpass⟩ := openStreamL_passes cm i s hlt hfirst
    refine useCountLaw_of_shift hcounted hpass.types hpass.streams hs hpass.walks ?_
    intro k d hd
    have hk := types_of_device hd
    by_cases hglobal : globalDevice cm.devices = some k
    · have hzero := globalDevice_type hd hglobal
      rw [hzero] at hk
      have hfind := globalDevice_types cm ▸ hglobal
      have hold : connects cm.types k s = false := by
        rw [← Bool.not_eq_true, connects_global hk]
        omega
      have hnew : connects cm.types k { s with refCount := s.refCount + 1 } = true := by
        rw [connects_global hk]
        exact ⟨hfind, by dsimp only; omega⟩
      rw [change_raise hold hnew]
      refine Passed.shift_raise hpass (toList_nodup _) ?_ hd (hfair hfirst k d hd hglobal)
      exact Option.mem_toList.mpr hglobal
    · have hsame : connects cm.types k { s with refCount := s.refCount + 1 } =
          connects cm.types k s := by
        by_cases hz : d.type = 0#32
        · rw [hz] at hk
          have hnone : ∀ s', connects cm.types k s' = false := by
            intro s'
            rw [← Bool.not_eq_true, connects_global hk, ← globalDevice_types]
            exact fun h => hglobal h.1
          rw [hnone, hnone]
        · rw [Bool.eq_iff_iff, connects_device hk hz, connects_device hk hz]
          rfl
      rw [change_self hsame]
      have hnot : k ∉ (globalDevice cm.devices).toList := by
        intro hmem
        exact hglobal (Option.mem_toList.mp hmem)
      obtain ⟨hd', happlied⟩ := hpass.shift_zero hnot hd
      rw [happlied]
      exact ⟨d, hd', Shift.refl d⟩
  · rw [openStreamL_again cm i s hlt hfirst]
    refine useCountLaw_setStream hcounted hs fun k => connects_congr rfl rfl ?_
    dsimp only
    omega

/-- Masking the stored set loses no bit of a device of the route's direction. -/
theorem routedDevices_bit {s : Stream} {devices t : BitVec 32} {b : Nat}
    (hacc : routeAccepted s devices = true) (ht : t ∈ deviceTypes) (hdir : isIn t = streamIsInput s)
    (hb : (deviceBits t).getLsbD b = true) :
    (routedDevices devices).getLsbD b = true ↔ devices.getLsbD b = true := by
  have hall : (deviceTypes.all fun t =>
      decide (deviceBits t &&& (if isIn t then audioDeviceInAll else audioDeviceOutAll) =
        deviceBits t)) = true := by
    decide +kernel
  have hmask := (and_eq_left_iff _ _).mp (of_decide_eq_true (List.all_eq_true.mp hall t ht)) b hb
  have h31 : b ≠ 31 := ((deviceBits_getLsbD t b).mp hb).2
  have hnot : audioDeviceBitIn.getLsbD b = false := by
    rw [← Bool.not_eq_true, bitIn_getLsbD]
    exact h31
  unfold routedDevices
  by_cases hz : devices = 0#32
  · rw [if_pos hz]
  · rw [if_neg hz]
    unfold routeAccepted at hacc
    rw [decide_eq_false hz, Bool.false_or, beq_iff_eq, ← hdir] at hacc
    by_cases hin : devices &&& audioDeviceBitIn ≠ 0#32
    · rw [decide_eq_true hin] at hacc
      rw [← hacc, if_pos rfl] at hmask
      rw [if_pos hin, BitVec.getLsbD_or, BitVec.getLsbD_and, hmask, hnot, Bool.and_true, Bool.or_false]
    · rw [decide_eq_false hin] at hacc
      rw [← hacc, if_neg Bool.false_ne_true] at hmask
      rw [if_neg hin, BitVec.getLsbD_and, hmask, Bool.and_true]

/-- The global device has no bit and is never visited for one. -/
theorem visited_nonglobal {cm : ConfigMgr} {mask : BitVec 32} {k : Nat}
    (hk : cm.types[k]? = some 0#32) : k ∉ visited cm mask := by
  intro hmem
  obtain ⟨t, b, ht, -, hb, -⟩ := (mem_visited cm mask k).mp hmem
  rw [hk] at ht
  cases ht
  obtain ⟨hb, -⟩ := (deviceBits_getLsbD _ b).mp hb
  rw [BitVec.getLsbD_zero] at hb
  cases hb

/-- No device is visited twice in one pass. -/
theorem visited_nodup (cm : ConfigMgr) (mask : BitVec 32) : (visited cm mask).Nodup :=
  picks_nodup _ _ _ _

/-- The direction bit decides nothing about a device's own bits. -/
theorem meets_mask (t mask : BitVec 32) :
    Meets (deviceBits t) (deviceBits mask) ↔ Meets (deviceBits t) mask :=
  (meets_deviceBits t mask).trans (meets_iff _ _).symm

/-- A route connects a device of the stream's direction by the bits that were asked for. -/
theorem connects_routed {types : List (BitVec 32)} {k : Nat} {t devices : BitVec 32} {s : Stream}
    (hk : types[k]? = some t) (hz : t ≠ 0#32) (ht : t ∈ deviceTypes) (hdir : isIn t = streamIsInput s)
    (hacc : routeAccepted s devices = true) :
    connects types k { s with currentDevices := routedDevices devices } = true ↔
      Meets (deviceBits t) devices := by
  rw [connects_device hk hz]
  refine (and_iff_right hdir).trans ((meets_deviceBits _ _).trans ?_)
  rw [meets_iff]
  constructor
  · rintro ⟨b, hb, hr⟩
    exact ⟨b, hb, (routedDevices_bit hacc ht hdir hb).mp hr⟩
  · rintro ⟨b, hb, hr⟩
    exact ⟨b, hb, (routedDevices_bit hacc ht hdir hb).mpr hr⟩

/-- For one device: the two passes of a route visit it exactly when it joins, or leaves. -/
theorem route_sides {cm : ConfigMgr} {s : Stream} {devices : BitVec 32} {k : Nat} {d : Device}
    (hapart : Apart cm.types) (hknown : ∀ t ∈ cm.types, t ∈ deviceTypes) (hdirected : Directed s)
    (hacc : routeAccepted s devices = true) (hfair : FairRoute cm s devices)
    (hd : cm.devices[k]? = some d) :
    (connects cm.types k { s with currentDevices := routedDevices devices } =
        connects cm.types k s ∧
      k ∉ visited cm (~~~devices &&& s.currentDevices) ∧
      k ∉ visited cm (devices &&& ~~~s.currentDevices)) ∨
    (connects cm.types k s = false ∧
      connects cm.types k { s with currentDevices := routedDevices devices } = true ∧
      k ∉ visited cm (~~~devices &&& s.currentDevices) ∧
      k ∈ visited cm (devices &&& ~~~s.currentDevices)) ∨
    (connects cm.types k s = true ∧
      connects cm.types k { s with currentDevices := routedDevices devices } = false ∧
      k ∈ visited cm (~~~devices &&& s.currentDevices) ∧
      k ∉ visited cm (devices &&& ~~~s.currentDevices)) := by
  have hk := types_of_device hd
  by_cases hz : d.type = 0#32
  · rw [hz] at hk
    left
    refine ⟨?_, visited_nonglobal hk, visited_nonglobal hk⟩
    rw [Bool.eq_iff_iff, connects_global hk, connects_global hk]
  · have ht : d.type ∈ deviceTypes := hknown _ (List.mem_of_getElem? hk)
    have hdown := visited_of_unambiguous hapart (fun h => hdirected.input (isIn_and h).2)
      hfair.removed k
    have hup := visited_of_unambiguous hapart (enabling_direction hacc) hfair.added k
    rw [intended_at hk] at hdown hup
    by_cases hdir : isIn d.type = streamIsInput s
    · have hold : connects cm.types k s = true ↔ Meets (deviceBits d.type) s.currentDevices := by
        rw [connects_device hk hz, meets_mask]
        exact and_iff_right hdir
      have hnew := connects_routed hk hz ht hdir hacc
      rw [and_iff_right hdir, meets_mask] at hdown hup
      have hwhole := hfair.whole k d hd
      rw [BitVec.and_comm (~~~devices)] at hdown hwhole ⊢
      cases ho : connects cm.types k s with
      | false =>
        have hout : ¬Meets (deviceBits d.type) s.currentDevices :=
          fun h => Bool.false_ne_true (ho.symm.trans (hold.mpr h))
        have hstay : k ∉ visited cm (s.currentDevices &&& ~~~devices) :=
          fun h => hout (hdown.mp h).of_diff
        cases hn : connects cm.types k { s with currentDevices := routedDevices devices } with
        | false =>
          exact Or.inl ⟨rfl, hstay,
            fun h => Bool.false_ne_true (hn.symm.trans (hnew.mpr (hup.mp h).of_diff))⟩
        | true => exact Or.inr (Or.inl ⟨rfl, rfl, hstay, hup.mpr ((hnew.mp hn).diff hout)⟩)
      | true =>
        cases hn : connects cm.types k { s with currentDevices := routedDevices devices } with
        | false =>
          have hout : ¬Meets (deviceBits d.type) devices :=
            fun h => Bool.false_ne_true (hn.symm.trans (hnew.mpr h))
          exact Or.inr (Or.inr ⟨rfl, rfl, hdown.mpr ((hold.mp ho).diff hout),
            fun h => hout (hup.mp h).of_diff⟩)
        | true =>
          obtain ⟨hkeepDown, hkeepUp⟩ := hwhole ho hn
          exact Or.inl ⟨rfl, fun h => hkeepDown (hdown.mp h), fun h => hkeepUp (hup.mp h)⟩
    · left
      refine ⟨?_, fun h => hdir (hdown.mp h).1, fun h => hdir (hup.mp h).1⟩
      rw [Bool.eq_iff_iff, connects_device hk hz, connects_device hk hz]
      exact iff_of_false (fun h => hdir h.1) fun h => hdir h.1

/-- The law for a routing: off for what is left, on for what is new. -/
theorem applyRoute_law {cm : ConfigMgr} {i : Nat} {s : Stream} {devices : BitVec 32}
    (hcounted : Counted cm) (hapart : Apart cm.types) (hknown : ∀ t ∈ cm.types, t ∈ deviceTypes)
    (hdirected : Directed s) (hs : cm.streams[i]? = some s) (hacc : routeAccepted s devices = true)
    (hfair : FairRoute cm s devices) : UseCountLaw cm (applyRoute cm i s devices) := by
  obtain ⟨cm₁, cm₂, down, up, hdown, hup, heq⟩ := applyRoute_passes cm i s devices hacc
  rw [heq]
  have htypes : (setStream cm₂ i { s with currentDevices := routedDevices devices }).types = cm.types :=
    hup.types.trans hdown.types
  have hstreams : (setStream cm₂ i { s with currentDevices := routedDevices devices }).streams =
      cm.streams.set i { s with currentDevices := routedDevices devices } := by
    unfold setStream
    rw [hup.streams, hdown.streams]
  have hwalks : cm₂.walks = cm.walks ++
      ([⟨s.disablePath, pathIdOff, down⟩] ++ [⟨pathIdOn, s.enablePath, up⟩]) := by
    rw [hup.walks, hdown.walks, List.append_assoc]
  refine useCountLaw_of_shift hcounted htypes hstreams hs hwalks ?_
  intro k d hd
  rw [appliedIds_append]
  rcases route_sides hapart hknown hdirected hacc hfair hd with
    ⟨hsame, hnotDown, hnotUp⟩ | ⟨hold, hnew, hnotDown, hinUp⟩ | ⟨hold, hnew, hinDown, hnotUp⟩
  · obtain ⟨hd₁, hids₁⟩ := hdown.shift_zero hnotDown hd
    obtain ⟨hd₂, hids₂⟩ := hup.shift_zero hnotUp hd₁
    rw [change_self hsame, hids₁, hids₂]
    exact ⟨d, hd₂, Shift.refl d⟩
  · obtain ⟨hd₁, hids₁⟩ := hdown.shift_zero hnotDown hd
    obtain ⟨d', hd', hshift⟩ := hup.shift_raise (visited_nodup _ _) hinUp hd₁
      (hfair.raises k d hd hold hnew)
    rw [change_raise hold hnew, hids₁]
    exact ⟨d', hd', hshift⟩
  · obtain ⟨d', hd', hshift⟩ := hdown.shift_lower (visited_nodup _ _) hinDown hd
      (hfair.lowers k d hd hold hnew)
    obtain ⟨hd₂, hids₂⟩ := hup.shift_zero hnotUp hd'
    rw [change_lower hold hnew, hids₂, List.append_nil]
    exact ⟨d', hd₂, hshift⟩

/-- A closed stream is connected to no device. -/
theorem connects_closed (types : List (BitVec 32)) (k : Nat) (s : Stream) (hlast : s.refCount = 1) :
    connects types k { s with refCount := s.refCount - 1, currentDevices := 0#32 } = false := by
  rw [← Bool.not_eq_true]
  cases hk : types[k]? with
  | none => simp [connects, hk]
  | some t =>
    by_cases hz : t = 0#32
    · rw [hz] at hk
      rw [connects_global hk]
      dsimp only
      omega
    · rw [connects_device hk hz]
      exact fun h => not_meets_zero _ h.2

/-- The law for a release. -/
theorem releaseStream_law {cm : ConfigMgr} {i : Nat} {s : Stream} (hcounted : Counted cm)
    (hapart : Apart cm.types) (hdirected : Directed s) (hs : cm.streams[i]? = some s)
    (hfair : s.refCount = 1 → FairRelease cm s) : UseCountLaw cm (releaseStream cm i s) := by
  by_cases hlast : s.refCount = 1
  · obtain ⟨hclear, hlowers⟩ := hfair hlast
    obtain ⟨cm₁, cm₂, off, global, hoff, hglobal, heq⟩ := releaseStream_passes cm i s hlast
    rw [heq]
    have hstreams : (setStream cm₂ i { s with refCount := s.refCount - 1, currentDevices := 0#32 }).streams =
        cm.streams.set i { s with refCount := s.refCount - 1, currentDevices := 0#32 } := by
      unfold setStream
      rw [hglobal.streams, hoff.streams]
    have hwalks : cm₂.walks = cm.walks ++
        ([⟨pathIdOff, s.disablePath, off⟩] ++ [⟨s.disablePath, pathIdOff, global⟩]) := by
      rw [hglobal.walks, hoff.walks, List.append_assoc]
    refine useCountLaw_of_shift hcounted (hglobal.types.trans hoff.types) hstreams hs hwalks ?_
    intro k d hd
    have hk := types_of_device hd
    have hclosed := connects_closed cm.types k s hlast
    have hfind : globalDevice cm₁.devices = cm.types.findIdx? fun u => u = 0#32 := by
      rw [globalDevice_types, hoff.types]
    rw [hfind] at hglobal
    rw [appliedIds_append]
    by_cases hz : d.type = 0#32
    · rw [hz] at hk
      obtain ⟨hd₁, hids₁⟩ := hoff.shift_zero (visited_nonglobal hk) hd
      rw [hids₁, List.nil_append]
      by_cases hfirst : (cm.types.findIdx? fun u => u = 0#32) = some k
      · have hold : connects cm.types k s = true := (connects_global hk s).mpr ⟨hfirst, by omega⟩
        rw [change_lower hold hclosed]
        exact hglobal.shift_lower (toList_nodup _) (Option.mem_toList.mpr hfirst) hd₁
          (hlowers k d hd hold)
      · have hold : connects cm.types k s = false := by
          rw [← Bool.not_eq_true, connects_global hk]
          exact fun h => hfirst h.1
        obtain ⟨hd₂, hids₂⟩ := hglobal.shift_zero (fun h => hfirst (Option.mem_toList.mp h)) hd₁
        rw [change_self (hclosed.trans hold.symm), hids₂]
        exact ⟨d, hd₂, Shift.refl d⟩
    · have hnotGlobal : k ∉ (cm.types.findIdx? fun u => u = 0#32).toList := by
        intro hmem
        rw [Option.mem_toList, ← globalDevice_types] at hmem
        exact hz (globalDevice_type hd hmem)
      have hvisit := visited_of_unambiguous hapart hdirected.input hclear k
      have hsides : k ∈ visited cm s.currentDevices ↔ connects cm.types k s = true := by
        rw [hvisit, connects_device hk hz, intended_at hk]
      cases hold : connects cm.types k s with
      | true =>
        obtain ⟨d', hd', hshift⟩ := hoff.shift_close (visited_nodup _ _) (hsides.mpr hold) hd
          (hlowers k d hd hold)
        obtain ⟨hd₂, hids₂⟩ := hglobal.shift_zero hnotGlobal hd'
        rw [change_lower hold hclosed, hids₂, List.append_nil]
        exact ⟨d', hd₂, hshift⟩
      | false =>
        have hnot : k ∉ visited cm s.currentDevices := by
          rw [hsides, hold]
          exact Bool.false_ne_true
        obtain ⟨hd₁, hids₁⟩ := hoff.shift_zero hnot hd
        obtain ⟨hd₂, hids₂⟩ := hglobal.shift_zero hnotGlobal hd₁
        rw [change_self (hclosed.trans hold.symm), hids₁, hids₂]
        exact ⟨d, hd₂, Shift.refl d⟩
  · rw [releaseStream_keeps cm i s hlast]
    refine useCountLaw_setStream hcounted hs fun k => connects_congr rfl rfl ?_
    dsimp only
    omega

end Calls

section Runs

theorem UseCountLaw.counted {cm cm' : ConfigMgr} (h : UseCountLaw cm cm') : Counted cm' := by
  obtain ⟨ws, -, hlaw⟩ := h
  intro k d hd
  exact (hlaw k d hd).2.2

/-- One call that meets the condition follows the law. -/
theorem step_law {types : List (BitVec 32)} {cm cm' : ConfigMgr} {c : Call} (hcounted : Counted cm)
    (hrouted : Routed types cm) (hapart : Apart types) (hknown : ∀ t ∈ types, t ∈ deviceTypes)
    (hfair : Fair cm c) (hstep : step cm c = some cm') : UseCountLaw cm cm' := by
  rw [← hrouted.types] at hapart hknown
  rcases step_cases hstep with rfl | ⟨i, s, htakes, hs, hlt, rfl⟩ | ⟨i, s, devices, rfl, hs, hacc, rfl⟩ |
    ⟨i, s, rfl, hs, rfl⟩
  · exact useCountLaw_refl hcounted
  · refine openStreamL_law hcounted hs hlt ?_
    intro hfirst
    cases c with
    | getStream devices pcm => exact hfair i s hs htakes hfirst (by omega)
    | getNamedStream name => exact hfair i s hs htakes hfirst (by omega)
    | applyRoute i devices => cases htakes.1
    | releaseStream i => cases htakes.1
  · exact applyRoute_law hcounted hapart hknown (hrouted.directed s (List.mem_of_getElem? hs)) hs hacc
      (hfair s hs hacc)
  · exact releaseStream_law hcounted hapart (hrouted.directed s (List.mem_of_getElem? hs)) hs
      (hfair s hs)

/-- A parsed manager starts with no device in use. -/
theorem Parsed.counted {cm : ConfigMgr} (h : Parsed cm) : Counted cm := by
  have hnone (k : Nat) : connections cm k = 0 := by
    unfold connections
    rw [List.countP_eq_zero]
    intro s hs
    have hidle := Prod.mk.inj (h.wf.idle (s.refCount, s.currentDevices) (List.mem_map.mpr ⟨s, hs, rfl⟩))
    cases hk : cm.types[k]? with
    | none => simp [connects, hk]
    | some t =>
      by_cases hz : t = 0#32
      · rw [hz] at hk
        rw [connects_global hk, hidle.1]
        omega
      · rw [connects_device hk hz, hidle.2]
        exact fun hc => not_meets_zero _ hc.2
  intro k d hd
  rw [hnone k]
  exact h.wf.unused (d.type, d.useCount) (List.mem_map.mpr ⟨d, List.mem_of_getElem? hd, rfl⟩)

theorem Parsed.known {cm : ConfigMgr} (h : Parsed cm) : ∀ t ∈ cm.types, t ∈ deviceTypes := by
  intro t ht
  obtain ⟨d, hd, rfl⟩ := List.mem_map.mp ht
  exact h.wf.known (d.type, d.useCount) (List.mem_map.mpr ⟨d, hd, rfl⟩)

/-- Along every run of an accepted configuration whose calls all meet the condition, every call
follows the law: "on" for the first connection, "off" for the last, and exact use counts. -/
theorem use_count_law {cm : ConfigMgr} {calls : List Call} (hparsed : Parsed cm)
    (hfair : Transition.Along step (fun cm c _ => Fair cm c) cm calls) :
    Counted cm ∧ Transition.Along step (fun cm _ cm' => UseCountLaw cm cm') cm calls := by
  refine ⟨hparsed.counted, ?_⟩
  refine hfair.mono (fun cm' => Counted cm' ∧ Routed cm.types cm') ?_
    ⟨hparsed.counted, hparsed.routed⟩
  intro s c t hs hstep hf
  have hlaw := step_law hs.1 hs.2 hparsed.apart hparsed.known hf hstep
  exact ⟨hlaw, hlaw.counted, hs.2.step hstep⟩

/-- A speaker and a microphone with both counted paths, and a global device. -/
def pairedDocument : XmlFile where
  events := element "audiohal" []
    [element "mixer" [] [],
      deviceElement "global" ["on", "off"],
      deviceElement "speaker" ["on", "off", "on_pcm", "off_pcm"],
      deviceElement "mic" ["off", "on"],
      streamElement "out" "on_pcm" "off_pcm",
      streamElement "in" "on" "off"]
  wellFormed := true

def pairedConfig : ConfigMgr :=
  ((initAudioConfig (documentEnv pairedDocument) 1).bind id).get (by decide +kernel)

/-- Playback connects, moves away and reconnects while capture runs; then both are closed. -/
def pairedCalls : List Call :=
  [.getStream 0x2#32 true, .applyRoute 0 0x2#32, .getStream 0x80000004#32 true,
    .applyRoute 1 0x80000004#32, .applyRoute 0 0#32, .applyRoute 0 0x2#32, .releaseStream 0,
    .releaseStream 1]

theorem paired_use_count_law :
    Transition.Along step (fun cm c _ => Fair cm c) pairedConfig pairedCalls ∧
    (Transition.run step pairedConfig pairedCalls).isSome = true ∧
    Transition.Along step (fun cm _ cm' => UseCountLaw cm cm') pairedConfig pairedCalls := by
  have hfair : Transition.Along step (fun cm c _ => Fair cm c) pairedConfig pairedCalls := by
    decide +kernel
  have hparsed : Parsed pairedConfig := ⟨documentEnv pairedDocument, 1, by decide +kernel⟩
  exact ⟨hfair, by decide +kernel, (use_count_law hparsed hfair).2⟩

/-- Playback on the headphone, and then on nothing. -/
def headphoneCalls : List Call := [.getStream 0x8#32 true, .applyRoute 0 0x8#32, .applyRoute 0 0#32]

/-- The shipped headphone device has an "on" path and no "off" path: after it is disconnected its
use count stays 1, and connecting it again does not run "on". -/
theorem headphone_use_count_drifts :
    Parsed mochaConfig ∧
    ¬ Transition.Along step (fun cm _ cm' => UseCountLaw cm cm') mochaConfig headphoneCalls ∧
    connections (mochaAfter headphoneCalls) 1 = 0 ∧
    connections (mochaAfter (headphoneCalls ++ [.applyRoute 0 0x8#32])) 1 = 1 ∧
    (appliedIds ((mochaAfter (headphoneCalls ++ [.applyRoute 0 0x8#32])).walks.drop
      (mochaAfter headphoneCalls).walks.length) 1).count pathIdOn = 0 := by
  have hzero : connections (mochaAfter headphoneCalls) 1 = 0 := by decide +kernel
  refine ⟨mochaConfig_parsed, ?_, hzero, by decide +kernel, by decide +kernel⟩
  intro h
  obtain ⟨-, h⟩ := h (mochaAfter [.getStream 0x8#32 true]) (by decide +kernel)
  obtain ⟨-, h⟩ := h (mochaAfter [.getStream 0x8#32 true, .applyRoute 0 0x8#32]) (by decide +kernel)
  obtain ⟨⟨ws, -, hlaw⟩, -⟩ := h (mochaAfter headphoneCalls) (by decide +kernel)
  have hcount : ((mochaAfter headphoneCalls).devices[1]?.map fun d => d.useCount) = some 1 := by
    decide +kernel
  obtain ⟨d, hd, hone⟩ := Option.map_eq_some_iff.mp hcount
  have hlast := (hlaw 1 d hd).2.2
  rw [hone, hzero] at hlast
  exact absurd hlast (by decide)

end Runs

end TinyHal
