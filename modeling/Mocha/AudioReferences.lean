import Mocha.AudioRoutes
import Mocha.Custody

/-!
# What the manager's calls do to the streams

Every call changes at most one stream: its reference count, its device set, or
both. Nothing else about a stream ever changes, and no stream comes or goes.
-/
namespace TinyHal

section Streams

/-- Applying paths writes to the mixer and to the counts of devices. -/
theorem applyPathsToDevicesL_streams (cm : ConfigMgr) (devices : BitVec 32) (firstId secondId : Int) :
    (applyPathsToDevicesL cm devices firstId secondId).streams = cm.streams := by
  obtain ⟨vs, h⟩ := applyPathsToDevicesL_spec cm devices firstId secondId
  exact h.streams

theorem applyPathsToGlobalL_streams (cm : ConfigMgr) (firstId secondId : Int) :
    (applyPathsToGlobalL cm firstId secondId).streams = cm.streams := by
  obtain ⟨vs, h⟩ := applyPathsToGlobalL_spec cm firstId secondId
  exact h.streams

/-- A stream with one reference more. -/
def Stream.taken (s : Stream) : Stream := { s with refCount := s.refCount + 1 }

/-- A stream with one reference less; without any it has no route. -/
def Stream.given (s : Stream) : Stream :=
  { s with
    refCount := s.refCount - 1
    currentDevices := if s.refCount - 1 = 0 then 0#32 else s.currentDevices }

/-- A stream with a new route, if its direction allows that. -/
def Stream.routed (s : Stream) (devices : BitVec 32) : Stream :=
  if routeAccepted s devices then { s with currentDevices := routedDevices devices } else s

/-- Writing back an edited entry is an edit in place. -/
theorem set_eq_modify {l : List Stream} {i : Nat} {s : Stream} (hs : l[i]? = some s)
    (f : Stream → Stream) : l.set i (f s) = l.modify i f := by
  rw [List.modify_eq_set_getElem?, hs]
  rfl

/-- `apply_route` on the stream that a pointer stands for. -/
def routeStream (cm : ConfigMgr) (i : Nat) (devices : BitVec 32) : ConfigMgr :=
  (step cm (.applyRoute i devices)).getD cm

/-- `release_stream` on the stream that a pointer stands for. -/
def dropStream (cm : ConfigMgr) (i : Nat) : ConfigMgr := (step cm (.releaseStream i)).getD cm

/-- Routing a stream changes its device mask and no other stream. -/
theorem routeStream_streams (cm : ConfigMgr) (i : Nat) (devices : BitVec 32) :
    (routeStream cm i devices).streams = cm.streams.modify i fun s => s.routed devices := by
  rw [List.modify_eq_set_getElem?]
  unfold routeStream
  rw [step]
  cases hs : cm.streams[i]? with
  | none => rfl
  | some s =>
    simp only [Option.map_some, Option.getD_some, Option.map_eq_map]
    unfold applyRoute Stream.routed
    dsimp only
    split
    · simp only [setStream, applyPathsToDevicesL_streams]
    · obtain ⟨hlt, rfl⟩ := List.getElem?_eq_some_iff.mp hs
      exact (List.set_getElem_self hlt).symm

/-- A release gives one reference back. -/
theorem releaseStream_streams (cm : ConfigMgr) (i : Nat) (s : Stream) :
    (releaseStream cm i s).streams = cm.streams.set i s.given := by
  unfold releaseStream Stream.given
  dsimp only
  split
  · simp only [setStream, applyPathsToDevicesL_streams, applyPathsToGlobalL_streams]
  · rfl

theorem dropStream_streams (cm : ConfigMgr) (i : Nat) :
    (dropStream cm i).streams = cm.streams.modify i Stream.given := by
  rw [List.modify_eq_set_getElem?]
  unfold dropStream
  rw [step]
  cases cm.streams[i]? with
  | none => rfl
  | some s =>
    simp only [Option.map_some, Option.getD_some, Option.map_eq_map]
    exact releaseStream_streams cm i s

/-- There is room for one more reference. -/
def Stream.free (s : Stream) : Prop := s.refCount < s.maxRefCount

instance (s : Stream) : Decidable s.free := inferInstanceAs (Decidable (s.refCount < s.maxRefCount))

/-- A stream at its limit is refused and nothing changes. -/
theorem openStreamL_full {cm : ConfigMgr} {i : Nat} {s : Stream} (h : ¬ s.free) :
    openStreamL cm i s = (false, cm) := by
  unfold openStreamL
  exact if_neg h

/-- A stream below its limit gets one more client. -/
theorem openStreamL_free (cm : ConfigMgr) (i : Nat) {s : Stream} (h : s.free) :
    (openStreamL cm i s).1 = true ∧ (openStreamL cm i s).2.streams = cm.streams.set i s.taken := by
  have hlt : s.refCount < s.maxRefCount := h
  unfold openStreamL
  rw [if_pos hlt]
  refine ⟨rfl, ?_⟩
  dsimp only
  split
  · simp only [setStream, applyPathsToGlobalL_streams]
    rfl
  · rfl

/-- What asking for a stream comes to: nothing at all, or one reference on a stream `p`. -/
inductive Taking (p : Stream → Prop) (cm : ConfigMgr) : Option Nat × ConfigMgr → Prop
  | none : Taking p cm (none, cm)
  | some {i : Nat} {s : Stream} {cm' : ConfigMgr} : cm.streams[i]? = some s → p s → s.free →
      cm'.streams = cm.streams.modify i Stream.taken → Taking p cm (some i, cm')

/-- The search takes at most one stream, and one of the type it looks for. -/
theorem getStreamLoop_taking (type : StreamType) (cm : ConfigMgr) (n : Nat) :
    Taking (fun s => s.type = type) cm (getStreamLoop type cm n) := by
  induction n with
  | zero => exact .none
  | succ n ih =>
    unfold getStreamLoop
    cases hs : cm.streams[n]? with
    | none => exact ih
    | some s =>
      dsimp only
      by_cases ht : s.type = type
      · rw [if_pos ht]
        by_cases hfree : s.free
        · obtain ⟨hok, hstreams⟩ := openStreamL_free cm n hfree
          rw [if_pos hok]
          exact .some hs ht hfree (hstreams.trans (set_eq_modify hs Stream.taken))
        · rw [openStreamL_full hfree]
          exact ih
      · rw [if_neg ht]
        exact ih

theorem getStream_taking (cm : ConfigMgr) (devices : BitVec 32) (pcm : Bool) :
    Taking (fun s => s.type = requestedType devices pcm) cm (getStream cm devices pcm) :=
  getStreamLoop_taking _ _ _

theorem getNamedStream_taking (cm : ConfigMgr) (name : String) :
    Taking (fun s => s.name = some name) cm (getNamedStream cm name) := by
  unfold getNamedStream
  cases hfind : findNamedStream cm name with
  | none => exact .none
  | some i =>
    dsimp only
    cases hs : cm.streams[i]? with
    | none => exact .none
    | some s =>
      obtain ⟨hi, hname, -⟩ := List.findIdx?_eq_some_iff_getElem.mp hfind
      rw [(List.getElem?_eq_some_iff.mp hs).2] at hname
      dsimp only
      by_cases hfree : s.free
      · obtain ⟨hok, hstreams⟩ := openStreamL_free cm i hfree
        rw [if_pos hok]
        exact .some hs (of_decide_eq_true hname) hfree (hstreams.trans (set_eq_modify hs Stream.taken))
      · rw [openStreamL_full hfree]
        exact .none

/-- Nothing is found exactly when every stream of the type is at its limit. -/
theorem getStreamLoop_none {type : StreamType} {cm : ConfigMgr} {n : Nat} :
    (getStreamLoop type cm n).1 = none ↔
      ∀ i < n, ∀ s, cm.streams[i]? = some s → s.type = type → ¬ s.free := by
  induction n with
  | zero => simp [getStreamLoop]
  | succ n ih =>
    have hsplit : (∀ i < n + 1, ∀ s, cm.streams[i]? = some s → s.type = type → ¬ s.free) ↔
        (∀ s, cm.streams[n]? = some s → s.type = type → ¬ s.free) ∧
          ∀ i < n, ∀ s, cm.streams[i]? = some s → s.type = type → ¬ s.free := by
      constructor
      · intro h
        exact ⟨h n (by omega), fun i hi => h i (by omega)⟩
      · rintro ⟨hn, h⟩ i hi
        rcases Nat.lt_succ_iff_lt_or_eq.mp hi with hlt | rfl
        · exact h i hlt
        · exact hn
    rw [hsplit, ← ih]
    conv_lhs => unfold getStreamLoop
    cases hs : cm.streams[n]? with
    | none => simp
    | some s =>
      dsimp only
      by_cases ht : s.type = type
      · rw [if_pos ht]
        by_cases hfree : s.free
        · rw [if_pos (openStreamL_free _ _ hfree).1]
          simp [ht, hfree]
        · rw [openStreamL_full hfree]
          simp [ht, hfree]
      · rw [if_neg ht]
        simp [ht]

/-- `get_stream` fails exactly when every stream of the type is at its limit. -/
theorem getStream_none {cm : ConfigMgr} {devices : BitVec 32} {pcm : Bool} :
    (getStream cm devices pcm).1 = none ↔
      ∀ s ∈ cm.streams, s.type = requestedType devices pcm → ¬ s.free := by
  unfold getStream
  rw [getStreamLoop_none]
  constructor
  · intro h s hs
    obtain ⟨i, hi⟩ := List.mem_iff_getElem?.mp hs
    exact h i (List.getElem?_eq_some_iff.mp hi).1 s hi
  · intro h i _ s hi
    exact h s (List.mem_of_getElem? hi)

end Streams

section Coverage

variable {streams : List Stream} {held : List Nat}

/-- Every stream counts at least the references that are held on it. -/
def Covers (streams : List Stream) (held : List Nat) : Prop :=
  ∀ i s, streams[i]? = some s → (held.count i : Int) ≤ s.refCount

instance (streams : List Stream) (held : List Nat) : Decidable (Covers streams held) :=
  decidable_of_iff (∀ p ∈ streams.zipIdx, (held.count p.2 : Int) ≤ p.1.refCount) (by
    constructor
    · intro h i s hs
      exact h (s, i) (List.mem_zipIdx_iff_getElem?.mpr hs)
    · intro h p hp
      exact h p.2 p.1 (List.mem_zipIdx_iff_getElem?.mp hp))

/-- No stream has fewer than no clients. -/
theorem Covers.nonneg (h : Covers streams held) : ∀ s ∈ streams, 0 ≤ s.refCount := by
  intro s hs
  obtain ⟨i, hi⟩ := List.mem_iff_getElem?.mp hs
  have hcount := h i s hi
  omega

theorem covers_nil (h : ∀ s ∈ streams, 0 ≤ s.refCount) : Covers streams [] := by
  intro i s hs
  simpa using h s (List.mem_of_getElem? hs)

/-- One stream changes, and still counts what is held on it. -/
theorem Covers.modify {held' : List Nat} (h : Covers streams held) {i : Nat} {f : Stream → Stream}
    (hself : ∀ s, streams[i]? = some s → (held'.count i : Int) ≤ (f s).refCount)
    (hother : ∀ j, j ≠ i → held'.count j ≤ held.count j) : Covers (streams.modify i f) held' := by
  intro j t ht
  rw [List.getElem?_modify] at ht
  obtain ⟨s, hs, rfl⟩ := Option.map_eq_some_iff.mp ht
  by_cases hj : i = j
  · subst hj
    rw [if_pos rfl]
    exact hself s hs
  · rw [if_neg hj]
    have hcount := h j s hs
    have hle := hother j (Ne.symm hj)
    omega

/-- A reference taken is one more that is held. -/
theorem Covers.take (h : Covers streams held) (i : Nat) :
    Covers (streams.modify i Stream.taken) (i :: held) := by
  apply h.modify
  · intro s hs
    have hcount := h i s hs
    simp only [List.count_cons_self, Stream.taken]
    omega
  · intro j hj
    exact Nat.le_of_eq (List.count_cons_of_ne (Ne.symm hj))

/-- A reference given back is one that was held. -/
theorem Covers.give (h : Covers streams held) {i : Nat} (hheld : i ∈ held) :
    Covers (streams.modify i Stream.given) (held.erase i) := by
  apply h.modify
  · intro s hs
    have hcount := h i s hs
    have hpos : 0 < held.count i := List.count_pos_iff.mpr hheld
    simp only [List.count_erase_self, Stream.given]
    omega
  · intro j hj
    exact Nat.le_of_eq (List.count_erase_of_ne hj)

theorem Stream.routed_refCount (s : Stream) (devices : BitVec 32) :
    (s.routed devices).refCount = s.refCount := by
  unfold Stream.routed
  split <;> rfl

/-- Routing moves no reference. -/
theorem Covers.route (h : Covers streams held) (i : Nat) (devices : BitVec 32) :
    Covers (streams.modify i fun s => s.routed devices) held := by
  apply h.modify
  · intro s hs
    rw [s.routed_refCount]
    exact h i s hs
  · exact fun _ _ => Nat.le_refl _

end Coverage

section Spared

/-- The streams are there with their types, and with their routes but where `p` allows a
change. -/
structure Spares (p : Nat → Prop) (cm cm' : ConfigMgr) : Prop where
  types : ∀ i : Nat,
    (cm'.streams[i]?).map (fun s : Stream => s.type) = (cm.streams[i]?).map fun s : Stream => s.type
  routes : ∀ i : Nat, ¬ p i → (cm'.streams[i]?).map (fun s : Stream => s.currentDevices) =
    (cm.streams[i]?).map fun s : Stream => s.currentDevices

variable {p : Nat → Prop} {cm cm₁ cm₂ : ConfigMgr}

theorem Spares.refl (p : Nat → Prop) (cm : ConfigMgr) : Spares p cm cm :=
  ⟨fun _ => rfl, fun _ _ => rfl⟩

theorem Spares.trans (h₁ : Spares p cm cm₁) (h₂ : Spares p cm₁ cm₂) : Spares p cm cm₂ where
  types i := (h₂.types i).trans (h₁.types i)
  routes i hi := (h₂.routes i hi).trans (h₁.routes i hi)

/-- One stream changes, its type does not, and its route only where that is allowed. -/
theorem spares_modify {i : Nat} {f : Stream → Stream} (h : cm₁.streams = cm.streams.modify i f)
    (htype : ∀ s, (f s).type = s.type)
    (hroute : p i ∨ ∀ s, cm.streams[i]? = some s → (f s).currentDevices = s.currentDevices) :
    Spares p cm cm₁ := by
  constructor
  · intro j
    rw [h, List.getElem?_modify]
    cases cm.streams[j]? with
    | none => rfl
    | some s => by_cases hij : i = j <;> simp [hij, htype]
  · intro j hj
    rw [h, List.getElem?_modify]
    cases hs : cm.streams[j]? with
    | none => rfl
    | some s =>
      by_cases hij : i = j
      · subst hij
        rcases hroute with hp | hsame
        · exact absurd hp hj
        · simp [hsame s hs]
      · simp [hij]

/-- Taking a reference changes no route. -/
theorem Taking.spares {q : Stream → Prop} {got : Option Nat × ConfigMgr} (h : Taking q cm got) :
    Spares p cm got.2 := by
  cases h with
  | none => exact Spares.refl p cm
  | some _ _ _ hstreams => exact spares_modify hstreams (fun _ => rfl) (.inr fun _ _ => rfl)

theorem Stream.routed_type (s : Stream) (devices : BitVec 32) : (s.routed devices).type = s.type := by
  unfold Stream.routed
  split <;> rfl

/-- Routing stream `i` changes the route of no other. -/
theorem routeStream_spares (cm : ConfigMgr) {i : Nat} (hi : p i) (devices : BitVec 32) :
    Spares p cm (routeStream cm i devices) :=
  spares_modify (routeStream_streams cm i devices) (fun s => s.routed_type devices) (.inl hi)

/-- The route of a stream may be cleared: it may change, or there is none. -/
def Clearable (p : Nat → Prop) (cm : ConfigMgr) (i : Nat) : Prop :=
  p i ∨ ∀ s, cm.streams[i]? = some s → s.currentDevices = 0#32

/-- What may be cleared still may be, after a step that spares the others. -/
theorem Spares.clearable {i : Nat} (h : Spares p cm cm₁) (hi : Clearable p cm i) :
    Clearable p cm₁ i := by
  by_cases hp : p i
  · exact .inl hp
  · right
    intro s hs
    have hroutes := h.routes i hp
    rw [hs, Option.map_some] at hroutes
    obtain ⟨t, ht, heq⟩ := Option.map_eq_some_iff.mp hroutes.symm
    rw [← heq]
    exact (hi.resolve_left hp) t ht

theorem unrouteStream_spares {i : Nat} (hi : Clearable p cm i) :
    Spares p cm (routeStream cm i 0#32) := by
  have hcleared (s : Stream) : (s.routed 0#32).currentDevices = 0#32 := by
    simp [Stream.routed, routeAccepted, routedDevices]
  refine spares_modify (routeStream_streams cm i 0#32) (fun s => s.routed_type 0#32) ?_
  rcases hi with hp | hnone
  · exact .inl hp
  · exact .inr fun s hs => (hcleared s).trans (hnone s hs).symm

/-- Dropping stream `i` clears its own route at most. -/
theorem dropStream_spares {i : Nat} (hi : Clearable p cm i) : Spares p cm (dropStream cm i) := by
  refine spares_modify (dropStream_streams cm i) (fun _ => rfl) ?_
  rcases hi with hp | hnone
  · exact .inl hp
  · right
    intro s hs
    rw [Stream.given, hnone s hs]
    exact ite_self _

theorem step_spares {c : Call} (hp : ∀ i, p i) (h : step cm c = some cm₁) : Spares p cm cm₁ := by
  cases c with
  | getStream devices pcm =>
    cases h
    exact (getStream_taking cm devices pcm).spares
  | getNamedStream name =>
    cases h
    exact (getNamedStream_taking cm name).spares
  | applyRoute i devices =>
    have hroute := routeStream_spares cm (hp i) devices
    rw [routeStream, h, Option.getD_some] at hroute
    exact hroute
  | releaseStream i =>
    have hdrop : Spares p cm (dropStream cm i) := dropStream_spares (.inl (hp i))
    rw [dropStream, h, Option.getD_some] at hdrop
    exact hdrop

end Spared

end TinyHal
