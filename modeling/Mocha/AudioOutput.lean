import Mathlib.Data.List.Perm.Basic
import Mocha.AudioParsed
import Mocha.AudioReferences

/-!
# Opening and closing output streams

`adev_open_output_stream` takes a reference, applies a route and then runs the
initialisation of the format. Its error exits free the stream object and nothing
else.
-/
namespace TinyHal

open Transition

def audioFormatMainMask : BitVec 32 := 0xFF000000#32
def audioFormatMp3 : BitVec 32 := 0x01000000#32
def audioFormatAac : BitVec 32 := 0x04000000#32
def audioFormatHeAacV1 : BitVec 32 := 0x05000000#32
def audioFormatHeAacV2 : BitVec 32 := 0x06000000#32
def audioFormatVorbis : BitVec 32 := 0x07000000#32

def audioIsLinearPcm (format : BitVec 32) : Bool := format &&& audioFormatMainMask = 0#32

def ebusy : Int := 16

def popcount (mask : BitVec 32) : Nat := (List.range 32).countP fun i => mask.getLsbD i

structure AudioConfig where
  sampleRate : Nat
  channelMask : BitVec 32
  format : BitVec 32
  deriving DecidableEq, Repr

inductive SndAudioCodec where
  | mp3
  | aac
  | vorbis
  deriving DecidableEq, Repr

/-- `highEfficiency` is the level `SND_AUDIOMODE_AAC_HE`. -/
structure SndCodec where
  id : SndAudioCodec
  highEfficiency : Bool
  sampleRate : Nat
  chOut : Nat
  deriving DecidableEq, Repr

/-- What the system answers during one call: whether `calloc` returns memory, and whether
the compressed device opens. -/
structure OutputEnv where
  calloc : Bool
  compressOpen : Option (BitVec 8) → Option (BitVec 8) → SndCodec → Bool

/-- `compress` is set while the stream has an open compressed device. -/
structure StreamOut where
  hw : Nat
  standby : Bool
  format : BitVec 32
  channelMask : BitVec 32
  channelCount : Nat
  sampleRate : Nat
  compress : Option SndCodec
  deriving DecidableEq, Repr

/-- `do_init_out_common`: the stream's settings, and the initial route. -/
def doInitOutCommon (cm : ConfigMgr) (hw : Nat) (config : AudioConfig) (devices : BitVec 32) :
    ConfigMgr × StreamOut :=
  (routeStream cm hw devices,
    { hw := hw, standby := true, format := config.format, channelMask := config.channelMask
      channelCount := popcount config.channelMask, sampleRate := config.sampleRate
      compress := none })

def doInitOutPcm (out : StreamOut) : Int × StreamOut := (0, out)

/-- The codec for a format, if the hardware has one. -/
def outCodec (config : AudioConfig) : Option SndCodec :=
  let codec (id : SndAudioCodec) (highEfficiency : Bool) : SndCodec :=
    ⟨id, highEfficiency, config.sampleRate, popcount config.channelMask⟩
  let format := config.format &&& audioFormatMainMask
  if format = audioFormatMp3 then some (codec .mp3 false)
  else if format = audioFormatAac then some (codec .aac false)
  else if format = audioFormatHeAacV1 then some (codec .aac true)
  else if format = audioFormatHeAacV2 then some (codec .aac true)
  else if format = audioFormatVorbis then some (codec .vorbis false)
  else none

/-- The compressed device is opened once here, to see that it exists. -/
def doInitOutCompress (env : OutputEnv) (s : Stream) (out : StreamOut) (config : AudioConfig) :
    Int × StreamOut :=
  match outCodec config with
  | none => (-einval, out)
  | some codec =>
    if env.compressOpen s.cardNumber s.deviceNumber codec then (0, { out with compress := some codec })
    else (-ebusy, out)

/-- The result, the manager, and the stream if one was opened. -/
def adevOpenOutputStream (env : OutputEnv) (cm : ConfigMgr) (devices : BitVec 32)
    (config : AudioConfig) : Int × ConfigMgr × Option StreamOut :=
  let devices := devices &&& audioDeviceOutAll
  let got := getStream cm devices (audioIsLinearPcm config.format)
  match got.1.bind fun hw => (got.2.streams[hw]?).map fun s => (hw, s) with
  | none => (-einval, got.2, none)
  | some (hw, s) =>
    if env.calloc then
      let begun := doInitOutCommon got.2 hw config devices
      let done := if s.type = .outPcm then doInitOutPcm begun.2
        else doInitOutCompress env s begun.2 config
      if done.1 < 0 then (done.1, begun.1, none) else (0, begun.1, some done.2)
    else (-enomem, got.2, none)

/-- Both kinds of stream go to standby, and give their reference back. -/
def adevCloseOutputStream (cm : ConfigMgr) (out : StreamOut) : ConfigMgr := dropStream cm out.hw

/-- Counts and routes of all streams, and use counts of all devices, are the same. -/
structure Unchanged (cm cm' : ConfigMgr) : Prop where
  streams : cm'.streams.map (fun s => (s.refCount, s.currentDevices)) =
    cm.streams.map fun s => (s.refCount, s.currentDevices)
  devices : cm'.devices.map (fun d => d.useCount) = cm.devices.map fun d => d.useCount

/-- The stream that `get_stream` finds: the last of its type with an instance left. -/
structure Picked (cm : ConfigMgr) (type : StreamType) (i : Nat) (s : Stream) : Prop where
  here : cm.streams[i]? = some s
  typed : s.type = type
  free : s.free
  last : ∀ j t, i < j → cm.streams[j]? = some t → t.type = type → ¬ t.free

/-- If there is a stream to open at all, then there is memory, and a compressed stream has a
codec for the format and a device that opens. -/
def OpensCleanly (env : OutputEnv) (cm : ConfigMgr) (devices : BitVec 32) (config : AudioConfig) :
    Prop :=
  ∀ i s, Picked cm (requestedType (devices &&& audioDeviceOutAll) (audioIsLinearPcm config.format)) i s →
    env.calloc = true ∧ (s.type = .outPcm ∨ ∃ codec, outCodec config = some codec ∧
      env.compressOpen s.cardNumber s.deviceNumber codec = true)

section Open

variable {env : OutputEnv} {cm : ConfigMgr} {devices : BitVec 32} {config : AudioConfig}

/-- What the search returns is the first stream of the type with room. -/
theorem getStreamLoop_picked {type : StreamType} {cm : ConfigMgr} {n i : Nat}
    (h : (getStreamLoop type cm n).1 = some i) :
    ∃ s, cm.streams[i]? = some s ∧ s.type = type ∧ s.free ∧
      ∀ j t, i < j → j < n → cm.streams[j]? = some t → t.type = type → ¬ t.free := by
  induction n with
  | zero => cases h
  | succ n ih =>
    have hskip (hnext : (getStreamLoop type cm n).1 = some i)
        (hn : ∀ t, cm.streams[n]? = some t → t.type = type → ¬ t.free) :
        ∃ s, cm.streams[i]? = some s ∧ s.type = type ∧ s.free ∧
          ∀ j t, i < j → j < n + 1 → cm.streams[j]? = some t → t.type = type → ¬ t.free := by
      obtain ⟨s, hs, ht, hfree, hlast⟩ := ih hnext
      refine ⟨s, hs, ht, hfree, ?_⟩
      intro j t hij hjn
      rcases Nat.lt_succ_iff_lt_or_eq.mp hjn with hlt | rfl
      · exact hlast j t hij hlt
      · exact hn t
    unfold getStreamLoop at h
    cases hs : cm.streams[n]? with
    | none =>
      rw [hs] at h
      exact hskip h fun t ht => by rw [hs] at ht; cases ht
    | some s =>
      rw [hs] at h
      dsimp only at h
      by_cases ht : s.type = type
      · rw [if_pos ht] at h
        by_cases hfree : s.free
        · rw [if_pos (openStreamL_free cm n hfree).1] at h
          cases h
          exact ⟨s, hs, ht, hfree, fun j _ hij hjn => by omega⟩
        · rw [openStreamL_full hfree] at h
          refine hskip h fun t ht' => ?_
          rw [hs] at ht'
          cases ht'
          exact fun _ => hfree
      · rw [if_neg ht] at h
        refine hskip h fun t ht' => ?_
        rw [hs] at ht'
        cases ht'
        exact fun h' => absurd h' ht

theorem getStream_picked {pcm : Bool} {i : Nat} (h : (getStream cm devices pcm).1 = some i) :
    ∃ s, Picked cm (requestedType devices pcm) i s := by
  obtain ⟨s, hs, ht, hfree, hlast⟩ := getStreamLoop_picked h
  refine ⟨s, hs, ht, hfree, ?_⟩
  intro j t hij hj
  exact hlast j t hij (List.getElem?_eq_some_iff.mp hj).1 hj

/-- There is only one such stream. -/
theorem Picked.unique {type : StreamType} {i j : Nat} {s t : Stream} (hi : Picked cm type i s)
    (hj : Picked cm type j t) : i = j ∧ s = t := by
  have hij : i = j := by
    by_contra hne
    rcases Nat.lt_or_gt_of_ne hne with hlt | hlt
    · exact hi.last j t hlt hj.here hj.typed hj.free
    · exact hj.last i s hlt hi.here hi.typed hi.free
  subst hij
  have hst := hi.here.symm.trans hj.here
  exact ⟨rfl, Option.some.inj hst⟩

theorem getStream_of_picked {pcm : Bool} {i : Nat} {s : Stream}
    (h : Picked cm (requestedType devices pcm) i s) :
    (getStream cm devices pcm).1 = some i ∧
      (getStream cm devices pcm).2.streams = cm.streams.modify i Stream.taken := by
  have hsome : (getStream cm devices pcm).1 ≠ none := by
    intro hnone
    exact getStream_none.mp hnone s (List.mem_of_getElem? h.here) h.typed h.free
  have hpicked : ∀ i, (getStream cm devices pcm).1 = some i →
      ∃ s, Picked cm (requestedType devices pcm) i s := fun _ => getStream_picked
  have htaking := getStream_taking cm devices pcm
  generalize getStream cm devices pcm = got at hsome hpicked htaking
  cases htaking with
  | none => exact absurd rfl hsome
  | @some j _ cm' _ _ _ hstreams =>
    obtain ⟨t, ht⟩ := hpicked j rfl
    obtain ⟨rfl, -⟩ := h.unique ht
    exact ⟨rfl, hstreams⟩

/-- Opening the stream that is there: one reference more whatever follows, and an error
exactly when memory, codec or device are missing. -/
theorem open_of_picked (env : OutputEnv) {i : Nat} {s : Stream}
    (h : Picked cm (requestedType (devices &&& audioDeviceOutAll) (audioIsLinearPcm config.format)) i s) :
    ((adevOpenOutputStream env cm devices config).2.1.streams[i]?).map (fun t => t.refCount) =
        some (s.refCount + 1) ∧
      ((adevOpenOutputStream env cm devices config).1 = 0 ↔
        env.calloc = true ∧ (s.type = .outPcm ∨ ∃ codec, outCodec config = some codec ∧
          env.compressOpen s.cardNumber s.deviceNumber codec = true)) := by
  obtain ⟨hgot, hstreams⟩ := getStream_of_picked h
  have htaken : (getStream cm (devices &&& audioDeviceOutAll)
      (audioIsLinearPcm config.format)).2.streams[i]? = some s.taken := by
    rw [hstreams, List.getElem?_modify, h.here]
    simp
  have hrouted : ((routeStream (getStream cm (devices &&& audioDeviceOutAll)
      (audioIsLinearPcm config.format)).2 i (devices &&& audioDeviceOutAll)).streams[i]?).map
        (fun t => t.refCount) = some (s.refCount + 1) := by
    rw [routeStream_streams, List.getElem?_modify, htaken]
    simp [Stream.routed_refCount, Stream.taken]
  unfold adevOpenOutputStream
  simp only [hgot, Option.bind_some, htaken, Option.map_some]
  have htype : s.taken.type = s.type := rfl
  cases hcalloc : env.calloc with
  | false => simp [htaken, Stream.taken, enomem]
  | true =>
    simp only [if_true, true_and, htype]
    by_cases hpcm : s.type = .outPcm
    · simp [hpcm, doInitOutPcm, doInitOutCommon, hrouted]
    · simp only [hpcm, if_false, false_or]
      unfold doInitOutCompress
      cases hcodec : outCodec config with
      | none => simp [doInitOutCommon, hrouted, einval]
      | some codec =>
        have hcard : env.compressOpen s.taken.cardNumber s.taken.deviceNumber codec =
          env.compressOpen s.cardNumber s.deviceNumber codec := rfl
        cases hopen : env.compressOpen s.cardNumber s.deviceNumber codec with
        | true => simp [hcard, hopen, doInitOutCommon, hrouted]
        | false => simp [hcard, hopen, doInitOutCommon, hrouted, ebusy]

/-- Without such a stream the open fails and changes nothing. -/
theorem open_without_stream
    (h : ∀ i s, ¬ Picked cm (requestedType (devices &&& audioDeviceOutAll)
      (audioIsLinearPcm config.format)) i s) :
    adevOpenOutputStream env cm devices config = (-einval, cm, none) := by
  have hpicked : ∀ i, (getStream cm (devices &&& audioDeviceOutAll)
      (audioIsLinearPcm config.format)).1 = some i → ∃ s, Picked cm
        (requestedType (devices &&& audioDeviceOutAll) (audioIsLinearPcm config.format)) i s :=
    fun _ => getStream_picked
  have htaking := getStream_taking cm (devices &&& audioDeviceOutAll) (audioIsLinearPcm config.format)
  unfold adevOpenOutputStream
  dsimp only
  generalize getStream cm (devices &&& audioDeviceOutAll) (audioIsLinearPcm config.format) = got
    at hpicked htaking
  cases htaking with
  | none => rfl
  | @some j =>
    obtain ⟨t, ht⟩ := hpicked j rfl
    exact absurd ht (h j t)

/-- An unchanged manager has the same counts. -/
theorem Unchanged.refCount {cm cm' : ConfigMgr} (h : Unchanged cm cm') (i : Nat) :
    (cm'.streams[i]?).map (fun t => t.refCount) = (cm.streams[i]?).map fun t => t.refCount := by
  have hi := congrArg (fun l => (l[i]?).map fun p : Int × BitVec 32 => p.1) h.streams
  simpa [Function.comp_def] using hi

theorem error_unchanged_iff :
    ((adevOpenOutputStream env cm devices config).1 ≠ 0 →
      Unchanged cm (adevOpenOutputStream env cm devices config).2.1) ↔
      OpensCleanly env cm devices config := by
  constructor
  · intro hatomic i s hs
    obtain ⟨hcount, hzero⟩ := open_of_picked env hs
    apply hzero.mp
    by_contra herror
    have hsame := (hatomic herror).refCount i
    rw [hcount, hs.here] at hsame
    simp only [Option.map_some, Option.some.injEq] at hsame
    omega
  · intro hclean herror
    by_cases hpicked : ∃ i s, Picked cm (requestedType (devices &&& audioDeviceOutAll)
      (audioIsLinearPcm config.format)) i s
    · obtain ⟨i, s, hs⟩ := hpicked
      exact absurd ((open_of_picked env hs).2.mpr (hclean i s hs)) herror
    · rw [open_without_stream fun i s hs => hpicked ⟨i, s, hs⟩]
      exact ⟨rfl, rfl⟩

end Open

/-- The manager and the output streams that are open. -/
structure OutputDevice where
  cm : ConfigMgr
  outs : List StreamOut
  deriving DecidableEq, Repr

inductive OutputCall where
  | openStream (env : OutputEnv) (devices : BitVec 32) (config : AudioConfig)
  | closeStream (k : Nat)
  | setRouting (k : Nat) (devices : BitVec 32)

/-- Streams are named by their place among the open ones. -/
def outputStep (s : OutputDevice) : OutputCall → Option OutputDevice
  | .openStream env devices config =>
    let done := adevOpenOutputStream env s.cm devices config
    some { cm := done.2.1, outs := s.outs ++ done.2.2.toList }
  | .closeStream k => (s.outs[k]?).map fun out =>
    { cm := adevCloseOutputStream s.cm out, outs := s.outs.eraseIdx k }
  | .setRouting k devices => (s.outs[k]?).map fun out =>
    { s with cm := routeStream s.cm out.hw devices }

/-- The call is no open, or one that succeeds. -/
def opens (s : OutputDevice) : OutputCall → Bool
  | .openStream env devices config => (adevOpenOutputStream env s.cm devices config).1 = 0
  | .closeStream _ | .setRouting .. => true

section Sequences

/-- The type, the references and the limit of a stream. -/
def Stream.terms (s : Stream) : StreamType × Int × Int := (s.type, s.refCount, s.maxRefCount)

/-- The references that the open output streams hold on the stream at `i`. -/
def references (outs : List StreamOut) (i : Nat) : Int := (outs.map fun out => out.hw).count i

/-- Every stream counts one reference more for each open output stream. -/
def Accounts (cm : ConfigMgr) (s : OutputDevice) : Prop :=
  ∀ i, (s.cm.streams[i]?).map Stream.terms = (cm.streams[i]?).map fun t =>
    (t.type, t.refCount + references s.outs i, t.maxRefCount)

theorem doInitOutCompress_hw (env : OutputEnv) (s : Stream) (out : StreamOut) (config : AudioConfig) :
    (doInitOutCompress env s out config).2.hw = out.hw := by
  unfold doInitOutCompress
  split
  · rfl
  · split <;> rfl

/-- An open that succeeds has taken one reference, noted in the stream it returns. -/
theorem open_succeeds {env : OutputEnv} {cm : ConfigMgr} {devices : BitVec 32} {config : AudioConfig}
    (h : (adevOpenOutputStream env cm devices config).1 = 0) :
    ∃ out, (adevOpenOutputStream env cm devices config).2.2 = some out ∧
      (adevOpenOutputStream env cm devices config).2.1.streams =
        (cm.streams.modify out.hw Stream.taken).modify out.hw fun s =>
          s.routed (devices &&& audioDeviceOutAll) := by
  have htaking := getStream_taking cm (devices &&& audioDeviceOutAll) (audioIsLinearPcm config.format)
  unfold adevOpenOutputStream at h ⊢
  dsimp only at h ⊢
  generalize getStream cm (devices &&& audioDeviceOutAll) (audioIsLinearPcm config.format) = got
    at h htaking ⊢
  cases htaking with
  | none => cases h
  | @some i s cm' hs _ _ hstreams =>
    have htaken : cm'.streams[i]? = some s.taken := by
      rw [hstreams, List.getElem?_modify, hs]
      simp
    simp only [Option.bind_some, htaken, Option.map_some] at h ⊢
    split at h
    case isFalse => cases h
    case isTrue hcalloc =>
      rw [if_pos hcalloc]
      have hhw : (if s.taken.type = .outPcm then
          doInitOutPcm (doInitOutCommon cm' i config (devices &&& audioDeviceOutAll)).2
        else doInitOutCompress env s.taken
          (doInitOutCommon cm' i config (devices &&& audioDeviceOutAll)).2 config).2.hw = i := by
        split
        · rfl
        · rw [doInitOutCompress_hw]
          rfl
      generalize (if s.taken.type = .outPcm then
          doInitOutPcm (doInitOutCommon cm' i config (devices &&& audioDeviceOutAll)).2
        else doInitOutCompress env s.taken
          (doInitOutCommon cm' i config (devices &&& audioDeviceOutAll)).2 config) = done at h hhw ⊢
      split at h
      case isTrue hneg =>
        simp only at h
        omega
      case isFalse hneg =>
        rw [if_neg hneg]
        refine ⟨done.2, rfl, ?_⟩
        rw [hhw, ← hstreams]
        exact routeStream_streams _ _ _

theorem Stream.terms_routed (s : Stream) (devices : BitVec 32) : (s.routed devices).terms = s.terms := by
  unfold Stream.routed
  split <;> rfl

theorem terms_modify {streams : List Stream} {i : Nat} {f : Stream → Stream} (j : Nat)
    (hf : ∀ s, (f s).terms = s.terms) :
    ((streams.modify i f)[j]?).map Stream.terms = (streams[j]?).map Stream.terms := by
  rw [List.getElem?_modify]
  cases streams[j]? with
  | none => rfl
  | some s => by_cases hij : i = j <;> simp [hij, hf]

/-- Routing a stream does not change what the accounts are about. -/
theorem Accounts.route {cm : ConfigMgr} {s : OutputDevice} (h : Accounts cm s) (k : Nat)
    (devices : BitVec 32) : Accounts cm { s with cm := routeStream s.cm k devices } := by
  intro i
  rw [← h i, routeStream_streams]
  exact terms_modify i fun t => t.terms_routed devices

/-- A change of one stream's count that matches a change of the references held. -/
theorem Accounts.count {cm cm' : ConfigMgr} {s : OutputDevice} (h : Accounts cm s) {i : Nat}
    {delta : Int} {outs : List StreamOut} {f : Stream → Stream}
    (hstreams : cm'.streams = s.cm.streams.modify i f)
    (hf : ∀ t, (f t).terms = (t.type, t.refCount + delta, t.maxRefCount))
    (houts : ∀ j, references outs j = references s.outs j + if i = j then delta else 0) :
    Accounts cm { cm := cm', outs := outs } := by
  intro j
  have hj := h j
  simp only [hstreams, List.getElem?_modify, houts j]
  cases hs : s.cm.streams[j]? with
  | none =>
    cases ht : cm.streams[j]? with
    | none => rfl
    | some t => simp [hs, ht] at hj
  | some u =>
    cases ht : cm.streams[j]? with
    | none => simp [hs, ht] at hj
    | some t =>
      simp only [hs, ht, Option.map_some, Option.some.injEq, Stream.terms, Prod.mk.injEq] at hj
      obtain ⟨htype, hcount, hmax⟩ := hj
      by_cases hij : i = j
      · simp only [hij, if_true, Option.map_some, Option.map_eq_map, hf, Option.some.injEq,
          Prod.mk.injEq]
        exact ⟨htype, by omega, hmax⟩
      · simp only [hij, if_false, Option.map_some, Option.map_eq_map, Stream.terms, Option.some.injEq,
          Prod.mk.injEq]
        exact ⟨htype, by simpa using hcount, hmax⟩

theorem references_append (outs : List StreamOut) (out : StreamOut) (j : Nat) :
    references (outs ++ [out]) j = references outs j + if out.hw = j then 1 else 0 := by
  unfold references
  rw [List.map_append, List.count_append]
  by_cases hj : out.hw = j <;> simp [hj]

/-- A closed output takes its reference with it. -/
theorem references_eraseIdx {outs : List StreamOut} {k : Nat} {out : StreamOut}
    (hk : outs[k]? = some out) (j : Nat) :
    references (outs.eraseIdx k) j = references outs j + if out.hw = j then -1 else 0 := by
  obtain ⟨hlt, rfl⟩ := List.getElem?_eq_some_iff.mp hk
  have hperm := (List.getElem_cons_eraseIdx_perm hlt).map fun out => out.hw
  have hcount := hperm.count_eq j
  unfold references
  rw [← hcount, List.map_cons, List.count_cons]
  by_cases hj : outs[k].hw = j
  · rw [if_pos (beq_iff_eq.mpr hj), if_pos hj]
    omega
  · rw [if_neg (by simpa using hj), if_neg hj]
    omega

/-- The step lemma, while opens keep to the condition. -/
theorem outputStep_accounts {cm : ConfigMgr} {s s' : OutputDevice} {c : OutputCall}
    (h : Accounts cm s) (hstep : outputStep s c = some s') (hopens : opens s c = true) :
    Accounts cm s' := by
  cases c with
  | openStream env devices config =>
    obtain ⟨out, hout, hstreams⟩ := open_succeeds (of_decide_eq_true hopens)
    cases hstep
    rw [hout, Option.toList_some]
    have htaken : Accounts cm { cm := { s.cm with streams := s.cm.streams.modify out.hw Stream.taken }
                                outs := s.outs ++ [out] } :=
      h.count rfl (fun t => rfl) (references_append s.outs out)
    have hrouted := htaken.route out.hw (devices &&& audioDeviceOutAll)
    intro i
    have hi := hrouted i
    rw [routeStream_streams] at hi
    rw [hstreams]
    exact hi
  | closeStream k =>
    obtain ⟨out, hk, rfl⟩ := Option.map_eq_some_iff.mp hstep
    exact h.count (dropStream_streams s.cm out.hw) (fun t => rfl) (references_eraseIdx hk)
  | setRouting k devices =>
    obtain ⟨out, -, rfl⟩ := Option.map_eq_some_iff.mp hstep
    exact h.route out.hw devices

theorem Accounts.closed {cm : ConfigMgr} {s : OutputDevice} (h : Accounts cm s) (hnone : s.outs = []) :
    s.cm.streams.map Stream.terms = cm.streams.map Stream.terms := by
  apply List.ext_getElem?
  intro i
  rw [List.getElem?_map, List.getElem?_map, h i, hnone]
  cases cm.streams[i]? with
  | none => rfl
  | some t => simp [references, Stream.terms]

theorem getStream_none_congr {cm cm' : ConfigMgr}
    (h : cm'.streams.map Stream.terms = cm.streams.map Stream.terms) (devices : BitVec 32) (pcm : Bool) :
    (getStream cm' devices pcm).1 = none ↔ (getStream cm devices pcm).1 = none := by
  have hterms : ∀ cm : ConfigMgr, (getStream cm devices pcm).1 = none ↔
      ∀ t ∈ cm.streams.map Stream.terms, t.1 = requestedType devices pcm → ¬ t.2.1 < t.2.2 := by
    intro cm
    rw [getStream_none, List.forall_mem_map]
    rfl
  rw [hterms, hterms, h]

end Sequences

/-- An open that fails leaves the manager alone exactly when it fails for want of a stream
only. Once all streams are closed, every count is what it was, and there is a stream for
whatever there was a stream for. -/
theorem open_output_atomic (env : OutputEnv) (cm : ConfigMgr) (devices : BitVec 32)
    (config : AudioConfig) :
    (((adevOpenOutputStream env cm devices config).1 ≠ 0 →
        Unchanged cm (adevOpenOutputStream env cm devices config).2.1) ↔
      OpensCleanly env cm devices config) ∧
    ∀ calls s, Along outputStep (fun s c _ => opens s c = true) ⟨cm, []⟩ calls →
      run outputStep ⟨cm, []⟩ calls = some s → s.outs = [] →
      s.cm.streams.map Stream.terms = cm.streams.map Stream.terms ∧
        ∀ devices pcm, (getStream s.cm devices pcm).1 = none ↔ (getStream cm devices pcm).1 = none := by
  constructor
  · exact error_unchanged_iff
  · intro calls s hopens hrun hnone
    have hstart : Accounts cm ⟨cm, []⟩ := by
      intro i
      cases cm.streams[i]? with
      | none => rfl
      | some t => simp [references, Stream.terms]
    have hend : Accounts cm s := by
      refine Along.invariant (Accounts cm) ?_ hstart hopens hrun
      intro s c t hs hstep hok
      exact outputStep_accounts hs hstep hok
    have hsame := hend.closed hnone
    exact ⟨hsame, getStream_none_congr hsame⟩

section Offload

/-- A configuration with one compressed output stream of one instance. -/
def offloadDocument : XmlFile where
  events := element "audiohal" []
    [element "mixer" [("card", "1")] [],
      element "device" [("name", "speaker")] [],
      element "stream" [("type", "compress"), ("dir", "out"), ("card", "1"), ("device", "3"),
        ("instances", "1")] []]
  wellFormed := true

def offloadConfig : ConfigMgr :=
  ((initAudioConfig (documentEnv offloadDocument) 1).bind id).get (by decide +kernel)

/-- Memory is there, and every compressed device opens. -/
def readyEnv : OutputEnv := ⟨true, fun _ _ _ => true⟩

def mp3Config : AudioConfig := ⟨44100, 0x3#32, audioFormatMp3⟩

/-- An AMR stream, for which there is no codec. -/
def amrConfig : AudioConfig := ⟨8000, 0x3#32, 0x02000000#32⟩

/-- Opened, routed and closed, the one instance is there again. -/
theorem offload_reopened : ∃ s,
    run outputStep ⟨offloadConfig, []⟩
      [.openStream readyEnv 0x2#32 mp3Config, .setRouting 0 0x2#32, .closeStream 0] = some s ∧
      s.cm.streams.map Stream.terms = offloadConfig.streams.map Stream.terms := by
  have hnone : (run outputStep ⟨offloadConfig, []⟩
      [.openStream readyEnv 0x2#32 mp3Config, .setRouting 0 0x2#32, .closeStream 0]).map
        (fun s => s.outs) = some [] := by decide +kernel
  obtain ⟨s, hrun, houts⟩ := Option.map_eq_some_iff.mp hnone
  have hatomic := open_output_atomic readyEnv offloadConfig 0x2#32 mp3Config
  exact ⟨s, hrun, (hatomic.2 _ s (by decide +kernel) hrun houts).1⟩

/-- The unsupported codec is refused, and the only instance of the stream is gone with it. -/
theorem refused_codec_keeps_instance :
    (adevOpenOutputStream readyEnv offloadConfig 0x2#32 amrConfig).1 = -einval ∧
      (adevOpenOutputStream readyEnv offloadConfig 0x2#32 amrConfig).2.1.streams.map
        (fun s => (s.refCount, s.currentDevices)) = [(1, 0x2#32)] ∧
      (adevOpenOutputStream readyEnv
        (adevOpenOutputStream readyEnv offloadConfig 0x2#32 amrConfig).2.1 0x2#32 mp3Config).1 = -einval ∧
      ¬ Unchanged offloadConfig (adevOpenOutputStream readyEnv offloadConfig 0x2#32 amrConfig).2.1 := by
  refine ⟨by decide +kernel, by decide +kernel, by decide +kernel, ?_⟩
  intro hsame
  have hcounts := hsame.refCount 0
  revert hcounts
  decide +kernel

end Offload

end TinyHal
