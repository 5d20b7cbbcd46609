import Mocha.InputReferences

/-!
# The hardware streams of input streams

`get_stream` takes the direction of the stream from the device mask, and
`change_input_source_locked` asks it for an input stream with whatever mask there
is: the request's routing, the routes of the stream so far, or no devices at all.
A mask without the direction bit is answered with a playback stream. The named
streams have the direction that the configuration gives them.
-/
namespace TinyHal

open Custody Transition

/-- There is a stream for input at a position. -/
def ConfigMgr.inputAt (cm : ConfigMgr) (i : Nat) : Bool := (cm.streams[i]?).any streamIsInput

/-- The hardware stream of an open input stream is an input, and the stream holds one
reference on it and no other; a closed stream holds none. -/
structure StreamIn.SourceSound (cm : ConfigMgr) (si : StreamIn) : Prop where
  bound : si.isOpen = true → ∀ i, si.hw = some i → cm.inputAt i = true
  held : outstanding si.refs = if si.isOpen then si.hw.toList else []
  disciplined : Disciplined si.refs

/-- Every stream that is none for input has the route it had. -/
def PlaybackKept (cm cm' : ConfigMgr) : Prop :=
  ∀ i : Nat, cm.inputAt i = false → (cm'.streams[i]?).map (fun s : Stream => s.currentDevices) =
    (cm.streams[i]?).map fun s : Stream => s.currentDevices

/-- What every step should leave behind; and the references that are logged are those that the
manager counts, beside the ones of other users. -/
def SourcesSound (s : InputDevice) (c : InputCall) (t : InputDevice) : Prop :=
  ((∀ si ∈ t.inputs, si.SourceSound t.adev.cm) ∧
    ∀ k kvpairs, c = .setParameters k kvpairs → PlaybackKept s.adev.cm t.adev.cm) ∧
  ((∀ e, c ≠ .voice (.other e)) → ∀ i, t.foreign i = s.foreign i)

section Condition

/-- The stream for the source is none for input: a named stream of another direction, or any stream for
devices without the direction bit. -/
def sourceReversed (adev : AudioDevice) (si : StreamIn) (newSource : Int) (devices : BitVec 32) :
    Bool :=
  match namedSource adev newSource with
  | some s => !streamIsInput s
  | none => devices &&& audioDeviceBitIn = 0#32 &&
    offers adev.cm (requestedType devices (audioIsLinearPcm si.format))

/-- With the new source the voice trigger closes its stream, and that is a routed stream which
is none for input. -/
def silencesPlayback (adev : AudioDevice) (k : Nat) (newSource : Int) : Bool :=
  (closedVoiceStream adev k newSource).any fun i => (adev.cm.streams[i]?).any fun s =>
    !streamIsInput s && s.currentDevices ≠ 0#32

/-- A change of source in standby that goes to a stream which is none for input, or that ends
the voice audio of such a stream. -/
def misdirects (strParms : StrParms) (s : InputDevice) : InputCall → Bool
  | .setParameters k kvpairs => (s.input k).any fun si =>
    (intParam strParms kvpairs "input_source").any fun newSource =>
      let devices := sourceDevices s.adev.cm si (routingParam strParms kvpairs)
      si.standby && si.inputSource ≠ newSource && (sourceReversed s.adev si newSource devices ||
        sourceOffered s.adev si newSource devices && silencesPlayback s.adev k newSource)
  | .openStream _ _ | .read _ _ _ | .standby _ | .close _ | .voice _ => false

end Condition

section Direction

theorem requestedType_input {devices : BitVec 32} {pcm : Bool} {s : Stream}
    (hs : s.type = requestedType devices pcm) :
    streamIsInput s = decide (devices &&& audioDeviceBitIn ≠ 0#32) := by
  unfold streamIsInput
  rw [hs, requestedType]
  by_cases hdir : devices &&& audioDeviceBitIn ≠ 0#32
  · rw [if_pos hdir, decide_eq_true hdir]
    cases pcm <;> rfl
  · rw [if_neg hdir, decide_eq_false hdir]
    cases pcm <;> rfl

/-- What a source gets is a stream for input unless the condition says otherwise. -/
theorem openSource_direction (adev : AudioDevice) (si : StreamIn) (newSource : Int)
    (devices : BitVec 32) :
    Taking (fun s => streamIsInput s = !sourceReversed adev si newSource devices) adev.cm
      (openSource adev si newSource devices) := by
  have htaking := (openSource_offered adev si newSource devices).1
  generalize openSource adev si newSource devices = got at htaking
  cases htaking with
  | none => exact .none
  | @some i s cm' hs hpick hfree hstreams =>
    refine .some hs ?_ hfree hstreams
    unfold sourceReversed
    rcases hpick with hnamed | ⟨hnone, htype⟩
    · rw [hnamed]
      exact (Bool.not_not _).symm
    · have hoffers : offers adev.cm (requestedType devices (audioIsLinearPcm si.format)) = true := by
        refine List.any_eq_true.mpr ⟨s, List.mem_of_getElem? hs, ?_⟩
        simp [htype, hfree]
      rw [hnone, requestedType_input htype]
      simp [hoffers]

end Direction

section Binding

variable {strParms : StrParms} {adev : AudioDevice} {k : Nat} {si : StreamIn} {kvpairs : String}

theorem Spares.inputAt {p : Nat → Prop} {cm cm' : ConfigMgr} (h : Spares p cm cm') (i : Nat) :
    cm'.inputAt i = cm.inputAt i := by
  have htypes := h.types i
  unfold ConfigMgr.inputAt
  cases hs : cm.streams[i]? with
  | none =>
    rw [hs, Option.map_none, Option.map_eq_none_iff] at htypes
    rw [htypes]
  | some s =>
    rw [hs, Option.map_some] at htypes
    obtain ⟨s', hs', htype⟩ := Option.map_eq_some_iff.mp htypes
    rw [hs', Option.any_some, Option.any_some, streamIsInput, streamIsInput, htype]

theorem StreamIn.SourceSound.spared {p : Nat → Prop} {cm cm' : ConfigMgr} (h : si.SourceSound cm)
    (hcm : Spares p cm cm') : si.SourceSound cm' where
  bound := by
    intro hopen i hi
    rw [hcm.inputAt]
    exact h.bound hopen i hi
  held := h.held
  disciplined := h.disciplined

theorem StreamIn.SourceSound.kept {cm : ConfigMgr} {sj : StreamIn} (h : si.SourceSound cm)
    (hkept : Kept si sj) : sj.SourceSound cm where
  bound := by
    rw [hkept.isOpen, hkept.hw]
    exact h.bound
  held := by
    rw [hkept.isOpen, hkept.hw, hkept.refs]
    exact h.held
  disciplined := by
    rw [hkept.refs]
    exact h.disciplined

theorem applyInputRouting_kept (adev : AudioDevice) (si : StreamIn) (routing : Option (BitVec 32))
    (kvpairs : String) : Kept si (applyInputRouting adev si routing kvpairs).2 := by
  cases routing with
  | none => exact Kept.refl si
  | some devices => exact ⟨rfl, rfl, rfl⟩

/-- A request that binds the stream anew, and any other request. -/
theorem setParameters_cases (strParms : StrParms) (adev : AudioDevice) (k : Nat) (si : StreamIn)
    (kvpairs : String) :
    let devices := sourceDevices adev.cm si (routingParam strParms kvpairs)
    (Kept si (inPcmSetParameters strParms adev k si kvpairs).2 ∧
      ∀ newSource, intParam strParms kvpairs "input_source" = some newSource →
        ¬ (si.standby = true ∧ si.inputSource ≠ newSource ∧
          sourceOffered adev si newSource devices = true)) ∨
    ∃ newSource hw cm, intParam strParms kvpairs "input_source" = some newSource ∧
      si.standby = true ∧ si.inputSource ≠ newSource ∧
      openSource adev si newSource devices = (some hw, cm) ∧
      inPcmSetParameters strParms adev k si kvpairs =
        applyInputRouting (switchVoiceControl { adev with cm := releaseOld cm si.hw } k newSource)
          { si with
            hw := some hw
            refs := si.refs ++ [.acquire hw] ++ si.hw.toList.map fun old => .release old
            inputSource := newSource } (some devices) kvpairs := by
  intro devices
  unfold inPcmSetParameters
  cases hsource : intParam strParms kvpairs "input_source" with
  | none => exact .inl ⟨applyInputRouting_kept _ _ _ _, fun _ h => nomatch h⟩
  | some newSource =>
    dsimp only
    rcases changeInputSource_cases adev k si newSource devices with
      ⟨hrefused, hsame⟩ | ⟨hw, cm, hst, hdiffers, hopen, hchange⟩
    · left
      constructor
      · rw [hsame]
        split
        · exact Kept.refl si
        · exact applyInputRouting_kept _ _ _ _
      · intro other hother
        cases hother
        exact hrefused
    · right
      refine ⟨newSource, hw, cm, rfl, hst, hdiffers, hopen, ?_⟩
      rw [hchange]
      exact if_neg (Int.lt_irrefl 0)

/-- Taking the new reference and giving back the old one leaves the new one. -/
theorem rebound_holding {refs : List (Use Nat)} {old : Option Nat} (h : Holding refs old.toList)
    (hw : Nat) :
    Holding (refs ++ [.acquire hw] ++ old.toList.map fun i => .release i) [hw] := by
  cases old with
  | none =>
    rw [Option.toList_none, List.map_nil, List.append_nil]
    exact h.acquire hw
  | some i =>
    have hreleased := (h.acquire hw).release (r := i) (by simp)
    have hleft : (hw :: (some i).toList).erase i = [hw] := by
      by_cases hi : hw = i
      · subst hi
        exact List.erase_cons_head ..
      · simp [hi]
    rw [hleft] at hreleased
    exact hreleased

theorem StreamIn.SourceSound.holding {cm : ConfigMgr} (h : si.SourceSound cm)
    (hopen : si.isOpen = true) : Holding si.refs si.hw.toList where
  disciplined := h.disciplined
  outstanding := by
    rw [h.held, if_pos hopen]

theorem clearable_of_silences {newSource : Int} (h : silencesPlayback adev k newSource = false)
    {i : Nat} (hi : closedVoiceStream adev k newSource = some i) :
    Clearable (fun i => adev.cm.inputAt i = true) adev.cm i := by
  cases hs : adev.cm.streams[i]? with
  | none =>
    right
    intro s hsome
    rw [hs] at hsome
    cases hsome
  | some s =>
    cases hinput : streamIsInput s with
    | true =>
      have hat : adev.cm.inputAt i = true := by
        rw [ConfigMgr.inputAt, hs]
        exact hinput
      exact .inl hat
    | false =>
      right
      intro s' hs'
      cases hs.symm.trans hs'
      simpa [silencesPlayback, hi, hs, hinput] using h

/-- A request that is not misdirected. -/
theorem setParameters_sound (h : si.SourceSound adev.cm) (hopen : si.isOpen = true)
    (hgood : ∀ newSource, intParam strParms kvpairs "input_source" = some newSource →
      si.standby = true → si.inputSource ≠ newSource →
      sourceOffered adev si newSource (sourceDevices adev.cm si (routingParam strParms kvpairs)) =
        true →
      sourceReversed adev si newSource (sourceDevices adev.cm si (routingParam strParms kvpairs)) =
        false ∧ silencesPlayback adev k newSource = false) :
    (inPcmSetParameters strParms adev k si kvpairs).2.SourceSound
        (inPcmSetParameters strParms adev k si kvpairs).1.cm ∧
      PlaybackKept adev.cm (inPcmSetParameters strParms adev k si kvpairs).1.cm := by
  have hbound : (inPcmSetParameters strParms adev k si kvpairs).2.SourceSound adev.cm := by
    rcases setParameters_cases strParms adev k si kvpairs with
      ⟨hkept, -⟩ | ⟨newSource, hw, cm, hsource, hst, hdiffers, hopens, hdone⟩
    · exact h.kept hkept
    · obtain ⟨-, hoffered⟩ := openSource_offered adev si newSource
        (sourceDevices adev.cm si (routingParam strParms kvpairs))
      have hdirection := openSource_direction adev si newSource
        (sourceDevices adev.cm si (routingParam strParms kvpairs))
      rw [hopens] at hoffered hdirection
      obtain ⟨hforward, -⟩ := hgood newSource hsource hst hdiffers hoffered.symm
      rw [hforward] at hdirection
      rw [hdone]
      refine StreamIn.SourceSound.kept ?_ (applyInputRouting_kept _ _ _ _)
      have hholding := rebound_holding (h.holding hopen) hw
      refine ⟨?_, ?_, hholding.disciplined⟩
      · intro _ i hi
        cases hi
        cases hdirection with
        | some hs hinput _ _ =>
          rw [ConfigMgr.inputAt, hs]
          exact hinput
      · rw [hopen]
        exact hholding.outstanding
  have hopen' : (inPcmSetParameters strParms adev k si kvpairs).2.isOpen = true := by
    obtain ⟨_, _, _, _, heq, -⟩ := setParameters_eq strParms adev k si kvpairs
    rw [heq]
    exact hopen
  have hspares : Spares (fun i => adev.cm.inputAt i = true) adev.cm
      (inPcmSetParameters strParms adev k si kvpairs).1.cm := by
    refine setParameters_spares (h.bound hopen) (hbound.bound hopen') ?_
    intro newSource hsource hst hdiffers hoffered i hi
    exact clearable_of_silences (hgood newSource hsource hst hdiffers hoffered).2 hi
  refine ⟨hbound.spared hspares, ?_⟩
  intro i hi
  exact hspares.routes i (by rw [hi]; exact Bool.false_ne_true)

/-- With every other call the bindings stay. -/
theorem doCloseInPcm_sound {adev : AudioDevice} {si : StreamIn} (h : si.SourceSound adev.cm)
    (hopen : si.isOpen = true) (k : Nat) :
    (doCloseInPcm adev k si).2.SourceSound (doCloseInPcm adev k si).1.cm := by
  obtain ⟨hclosed, hrefs⟩ := doCloseInPcm_refs adev k si
  have hholding : Holding (si.refs ++ si.hw.toList.map fun hw => .release hw) [] := by
    have hheld := h.holding hopen
    cases hhw : si.hw with
    | none =>
      rw [hhw] at hheld
      simpa using hheld
    | some hw =>
      rw [hhw] at hheld
      have hreleased := hheld.release (r := hw) (by simp)
      simpa using hreleased
  rw [← hrefs] at hholding
  refine ⟨?_, ?_, hholding.disciplined⟩
  · intro hstill
    rw [hclosed] at hstill
    cases hstill
  · rw [hclosed]
    exact hholding.outstanding

end Binding

section Misdirected

variable {strParms : StrParms} {adev : AudioDevice} {k : Nat} {si : StreamIn} {kvpairs : String}

theorem offered_of_reversed {newSource : Int} {devices : BitVec 32}
    (h : sourceReversed adev si newSource devices = true) :
    sourceOffered adev si newSource devices = true := by
  unfold sourceReversed at h
  unfold sourceOffered
  cases hnamed : namedSource adev newSource with
  | none =>
    rw [hnamed] at h
    simp only [Bool.and_eq_true] at h
    exact h.2
  | some s => rfl

theorem closedVoiceStream_eq {newSource : Int} {i : Nat}
    (h : closedVoiceStream adev k newSource = some i) :
    newSource ≠ audioSourceVoiceRecognition ∧ adev.activeVoiceControl = some k ∧
      adev.voiceSt = .recogAudio ∧ adev.voiceTrigStream = some i := by
  unfold closedVoiceStream at h
  split at h
  case isTrue hcond =>
    simp only [Bool.and_eq_true, decide_eq_true_eq] at hcond
    exact ⟨hcond.1.1, hcond.1.2, hcond.2, h⟩
  case isFalse => cases h

/-- The stream of the voice trigger is closed without a route. -/
theorem switchVoiceControl_clears {newSource : Int} {i : Nat}
    (h : closedVoiceStream adev k newSource = some i) :
    ((switchVoiceControl adev k newSource).cm.streams[i]?).map (fun s : Stream => s.currentDevices) =
      (adev.cm.streams[i]?).map fun _ => 0#32 := by
  obtain ⟨hsource, hactive, hst, hptr⟩ := closedVoiceStream_eq h
  have hclose : (switchVoiceControl adev k newSource).cm =
      dropStream (routeStream adev.cm i 0#32) i := by
    unfold switchVoiceControl voiceTriggerAudioEndedLocked doVoiceTriggerCloseStream
    rw [if_neg hsource, if_pos hactive]
    simp only [hst, hptr]
  have hcleared (s : Stream) : (s.routed 0#32).given.currentDevices = 0#32 := by
    have hrouted : (s.routed 0#32).currentDevices = 0#32 := by
      simp [Stream.routed, routeAccepted, routedDevices]
    rw [Stream.given, hrouted]
    exact ite_self _
  rw [hclose, dropStream_streams, routeStream_streams]
  cases hs : adev.cm.streams[i]? with
  | none => simp [hs]
  | some s => simp [hs, hcleared]

/-- A request that is misdirected binds the stream to a stream that is none for input, or takes
the route from one. -/
theorem setParameters_unsound (h : si.SourceSound adev.cm) (hopen : si.isOpen = true)
    {newSource : Int} (hsource : intParam strParms kvpairs "input_source" = some newSource)
    (hst : si.standby = true) (hdiffers : si.inputSource ≠ newSource)
    (hbad : sourceReversed adev si newSource
          (sourceDevices adev.cm si (routingParam strParms kvpairs)) = true ∨
        sourceOffered adev si newSource
          (sourceDevices adev.cm si (routingParam strParms kvpairs)) = true ∧
        silencesPlayback adev k newSource = true)
    (hsound : (inPcmSetParameters strParms adev k si kvpairs).2.SourceSound
      (inPcmSetParameters strParms adev k si kvpairs).1.cm) :
    ¬ PlaybackKept adev.cm (inPcmSetParameters strParms adev k si kvpairs).1.cm := by
  have hstreams := setParameters_streams strParms adev k si kvpairs
  have hdirection := openSource_direction adev si newSource
    (sourceDevices adev.cm si (routingParam strParms kvpairs))
  have hoffered : sourceOffered adev si newSource
      (sourceDevices adev.cm si (routingParam strParms kvpairs)) = true := by
    rcases hbad with hreversed | ⟨hoffered, -⟩
    · exact offered_of_reversed hreversed
    · exact hoffered
  rcases setParameters_cases strParms adev k si kvpairs with
    ⟨-, hnone⟩ | ⟨source, hw, cm, hsource', -, -, hopens, hdone⟩
  · exact absurd ⟨hst, hdiffers, hoffered⟩ (hnone newSource hsource)
  · cases hsource.symm.trans hsource'
    rw [hopens] at hdirection
    have hbound : adev.cm.inputAt hw = true := by
      rw [← hstreams.inputAt hw]
      rw [hdone] at hsound ⊢
      exact hsound.bound hopen hw rfl
    have htaken : Spares (fun i => adev.cm.inputAt i = true) adev.cm cm := hdirection.spares
    cases hdirection with
    | @some _ s _ hs hinput _ _ =>
      rw [ConfigMgr.inputAt, hs, Option.any_some, hinput, Bool.not_eq_true'] at hbound
      obtain ⟨-, hsilences⟩ := hbad.resolve_left (by rw [hbound]; exact Bool.false_ne_true)
      obtain ⟨i, hi, s', hs', hplayback⟩ : ∃ i, closedVoiceStream adev k newSource = some i ∧
          ∃ s', adev.cm.streams[i]? = some s' ∧
            streamIsInput s' = false ∧ s'.currentDevices ≠ 0#32 := by
        simpa [silencesPlayback, Option.any_eq_true] using hsilences
      obtain ⟨houtput, hrouted⟩ := hplayback
      have hat : adev.cm.inputAt i = false := by
        rw [ConfigMgr.inputAt, hs', Option.any_some, houtput]
      have hreleased : Spares (fun i => adev.cm.inputAt i = true) adev.cm (releaseOld cm si.hw) :=
        htaken.trans (releaseOld_spares cm (h.bound hopen))
      -- the route is gone once the voice trigger has closed the stream, and stays away
      have hclears := @switchVoiceControl_clears { adev with cm := releaseOld cm si.hw } k _ i hi
      have hrouting : Spares (fun i => adev.cm.inputAt i = true)
          (switchVoiceControl { adev with cm := releaseOld cm si.hw } k newSource).cm
          (inPcmSetParameters strParms adev k si kvpairs).1.cm := by
        rw [hdone]
        refine applyInputRouting_spares _ kvpairs ?_
        intro j hj
        cases hj
        rw [ConfigMgr.inputAt, hs, Option.any_some, hinput, hbound]
        rfl
      intro hkept
      have hfinal := (hkept i hat).symm.trans
        ((hrouting.routes i (by rw [hat]; exact Bool.false_ne_true)).trans hclears)
      rw [hs', Option.map_some] at hfinal
      obtain ⟨_, -, hzero⟩ := Option.map_eq_some_iff.mp hfinal.symm
      exact hrouted hzero.symm

end Misdirected

section Runs

variable {strParms : StrParms}

/-- Every input stream has its binding in order. -/
def SourcesOk (s : InputDevice) : Prop := ∀ si ∈ s.inputs, si.SourceSound s.adev.cm

theorem SourcesOk.set {s : InputDevice} (h : SourcesOk s) {adev : AudioDevice} {si : StreamIn}
    {p : Nat → Prop} (hcm : Spares p s.adev.cm adev.cm) (hsi : si.SourceSound adev.cm) (k : Nat) :
    SourcesOk { adev := adev, inputs := s.inputs.set k si } := by
  intro sj hsj
  rcases List.mem_or_eq_of_mem_set hsj with hold | rfl
  · exact (h sj hold).spared hcm
  · exact hsi

/-- What the condition says about an open stream's request. -/
theorem directed_of_misdirects {s : InputDevice} {k : Nat} {kvpairs : String} {si : StreamIn}
    (hsi : s.input k = some si) (hc : misdirects strParms s (.setParameters k kvpairs) = false)
    {newSource : Int} (hsource : intParam strParms kvpairs "input_source" = some newSource)
    (hst : si.standby = true) (hdiffers : si.inputSource ≠ newSource)
    (hoffered : sourceOffered s.adev si newSource
      (sourceDevices s.adev.cm si (routingParam strParms kvpairs)) = true) :
    sourceReversed s.adev si newSource
        (sourceDevices s.adev.cm si (routingParam strParms kvpairs)) = false ∧
      silencesPlayback s.adev k newSource = false := by
  simpa [misdirects, hsi, hsource, hst, hdiffers, hoffered] using hc

theorem inputStep_sources {s t : InputDevice} {c : InputCall} (h : SourcesOk s)
    (hstep : inputStep strParms s c = some t) (hc : misdirects strParms s c = false) :
    SourcesSound s c t := by
  have hall (i : Nat) : True := trivial
  refine ⟨?_, inputStep_foreign hstep⟩
  cases c with
  | openStream devices config =>
    cases hstep
    refine ⟨?_, fun _ _ hcall => nomatch hcall⟩
    intro si hsi
    rcases List.mem_append.mp hsi with hold | hnew
    · exact h si hold
    · rw [List.mem_singleton.mp hnew]
      exact ⟨fun _ i hi => (nomatch hi), rfl, trivial⟩
  | setParameters k kvpairs =>
    obtain ⟨si, hsi, rfl⟩ := Option.map_eq_some_iff.mp hstep
    obtain ⟨hmem, hopen⟩ := InputDevice.input_eq hsi
    obtain ⟨hsound, hplayback⟩ := @setParameters_sound strParms s.adev k si kvpairs (h si hmem) hopen
      fun _ => directed_of_misdirects hsi hc
    have hstreams := setParameters_streams strParms s.adev k si kvpairs
    refine ⟨h.set hstreams hsound k, ?_⟩
    intro _ _ _
    exact hplayback
  | read k env bytes =>
    obtain ⟨si, hsi, rfl⟩ := Option.map_eq_some_iff.mp hstep
    have hkept := (h si (InputDevice.input_eq hsi).1).kept (inPcmRead_kept env s.adev.cm si bytes)
    exact ⟨h.set (Spares.refl (fun _ => True) _) hkept k, fun _ _ hcall => nomatch hcall⟩
  | standby k =>
    obtain ⟨si, hsi, rfl⟩ := Option.map_eq_some_iff.mp hstep
    have hkept := (h si (InputDevice.input_eq hsi).1).kept (inPcmStandby_kept s.adev.cm si)
    exact ⟨h.set (Spares.refl (fun _ => True) _) hkept k, fun _ _ hcall => nomatch hcall⟩
  | close k =>
    obtain ⟨si, hsi, rfl⟩ := Option.map_eq_some_iff.mp hstep
    obtain ⟨hmem, hopen⟩ := InputDevice.input_eq hsi
    have hclosed := doCloseInPcm_sound (h si hmem) hopen k
    exact ⟨h.set (closeInPcm_spares s.adev k si hall) hclosed k, fun _ _ hcall => nomatch hcall⟩
  | voice e =>
    obtain ⟨adev, hadev, rfl⟩ := Option.map_eq_some_iff.mp hstep
    have hcm := voiceStep_spares hall hadev
    exact ⟨fun si hsi => (h si hsi).spared hcm, fun _ _ hcall => nomatch hcall⟩

theorem inputStep_misdirected {s t : InputDevice} {c : InputCall} (h : SourcesOk s)
    (hstep : inputStep strParms s c = some t) (hc : misdirects strParms s c = true) :
    ¬ SourcesSound s c t := by
  cases c with
  | setParameters k kvpairs =>
    obtain ⟨si, hsi, rfl⟩ := Option.map_eq_some_iff.mp hstep
    obtain ⟨hmem, hopen⟩ := InputDevice.input_eq hsi
    obtain ⟨hk, -⟩ := Option.filter_eq_some_iff.mp hsi
    simp only [misdirects, hsi, Option.any_some, Option.any_eq_true, Bool.and_eq_true,
      Bool.or_eq_true, decide_eq_true_eq] at hc
    obtain ⟨newSource, hsource, ⟨hst, hdiffers⟩, hbad⟩ := hc
    rintro ⟨⟨hinputs, hplayback⟩, -⟩
    have hsound := hinputs _ (List.mem_set (List.getElem?_eq_some_iff.mp hk).1 _)
    exact setParameters_unsound (h si hmem) hopen hsource hst (by simpa using hdiffers) hbad hsound
      (hplayback k kvpairs rfl)
  | openStream devices config => cases hc
  | read k env bytes => cases hc
  | standby k => cases hc
  | close k => cases hc
  | voice e => cases hc

end Runs

/-- From the opening of the device on, every input stream stays with one input stream of the
hardware, and playback with its routes, exactly in the runs without a misdirected request. -/
theorem sources_sound_iff (strParms : StrParms) (adev : AudioDevice) (calls : List InputCall) :
    Along (inputStep strParms) (fun s c _ => misdirects strParms s c = false) ⟨adev, []⟩ calls ↔
      Along (inputStep strParms) SourcesSound ⟨adev, []⟩ calls := by
  have hinit : SourcesOk ⟨adev, []⟩ := fun si hsi => nomatch hsi
  constructor
  · intro hgood
    refine Along.mono SourcesOk ?_ hinit hgood
    intro s c t hs hstep hc
    have ht := inputStep_sources hs hstep hc
    exact ⟨ht, ht.1.1⟩
  · intro hsound
    refine Along.mono SourcesOk ?_ hinit hsound
    intro s c t hs hstep ht
    cases hc : misdirects strParms s c with
    | false => exact ⟨rfl, ht.1.1⟩
    | true => exact absurd ht (inputStep_misdirected hs hstep hc)

section Capture

/-- Playback goes to the speaker, and an input stream is opened on the microphone. -/
def playbackCalls : List InputCall :=
  [.voice (.other (.getStream 0x2#32 true)), .voice (.other (.applyRoute 0 0x2#32)),
    .openStream audioDeviceInBuiltinMic ⟨48000, 0x10#32, 0x1#32⟩]

def captureAfter (calls : List InputCall) : Option InputDevice :=
  run (inputStep pairParms) ⟨voiceTriggerInit (newAudioDevice mochaConfig), []⟩ calls

example : Along (inputStep pairParms) (fun s c _ => misdirects pairParms s c = false)
    ⟨voiceTriggerInit (newAudioDevice mochaConfig), []⟩ (playbackCalls ++
      [.setParameters 0 "routing=-2147483644;input_source=1", .setParameters 0 "input_source=5"]) := by
  decide +kernel

/-- The source comes before any routing: the stream for it is the one that plays, and the
speaker is switched off. -/
theorem capture_takes_playback : ∃ s t,
    captureAfter playbackCalls = some s ∧
      inputStep pairParms s (.setParameters 0 "input_source=1") = some t ∧
      t.inputs.map (fun si => (si.isOpen, si.hw)) = [(true, some 0)] ∧
      t.adev.cm.inputAt 0 = false ∧
      s.adev.cm.streams.map (fun st => st.currentDevices) = [0x2#32, 0#32] ∧
      t.adev.cm.streams.map (fun st => st.currentDevices) = [0#32, 0#32] ∧
      ¬ SourcesSound s (.setParameters 0 "input_source=1") t := by
  have hvalues : ((captureAfter playbackCalls).bind fun s =>
      (inputStep pairParms s (.setParameters 0 "input_source=1")).map fun t =>
        (t.inputs.map (fun si => (si.isOpen, si.hw)), t.adev.cm.inputAt 0,
          s.adev.cm.streams.map (fun st => st.currentDevices),
          t.adev.cm.streams.map (fun st => st.currentDevices))) =
      some ([(true, some 0)], false, [0x2#32, 0#32], [0#32, 0#32]) := by decide +kernel
  obtain ⟨s, hrun, hs⟩ := Option.bind_eq_some_iff.mp hvalues
  obtain ⟨t, hstep, ht⟩ := Option.map_eq_some_iff.mp hs
  simp only [Prod.mk.injEq] at ht
  obtain ⟨hinputs, hat, hbefore, hafter⟩ := ht
  refine ⟨s, t, hrun, hstep, hinputs, hat, hbefore, hafter, ?_⟩
  intro hsound
  obtain ⟨si, hsi, hvalue⟩ := List.map_eq_singleton_iff.mp hinputs
  simp only [Prod.mk.injEq] at hvalue
  have hbound := (hsound.1.1 si (by rw [hsi]; exact List.mem_singleton_self _)).bound hvalue.1 0 hvalue.2
  rw [hat] at hbound
  cases hbound

end Capture

end TinyHal
