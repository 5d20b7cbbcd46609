import Mathlib.Algebra.BigOperators.Group.List.Basic
import Mathlib.Algebra.Ring.Int.Defs
import Mocha.InputHandles

/-!
# Whose references the manager counts

The reference count of a stream in the manager goes up and down with the logs of the input
streams and of the voice trigger. What it counts beyond these two belongs to other users, and no
call of an input stream or of the voice trigger changes it.
-/
namespace TinyHal

open Custody

section Counts

/-- Every stream is still there, with so many references more. -/
def Counts (cm cm' : ConfigMgr) (f : Nat → Int) : Prop :=
  ∀ i s, cm.streams[i]? = some s → ∃ s', cm'.streams[i]? = some s' ∧ s'.refCount = s.refCount + f i

variable {cm cm₁ cm₂ : ConfigMgr} {f g : Nat → Int}

theorem Counts.congr (h : Counts cm cm₁ f) (hfg : ∀ i, f i = g i) : Counts cm cm₁ g := by
  intro i s hs
  rw [← hfg i]
  exact h i s hs

theorem counts_same (h : cm₁.streams = cm.streams) : Counts cm cm₁ fun _ => 0 := by
  intro i s hs
  exact ⟨s, by rw [h, hs], (Int.add_zero _).symm⟩

theorem Counts.trans (h : Counts cm cm₁ f) (h' : Counts cm₁ cm₂ g) :
    Counts cm cm₂ fun i => f i + g i := by
  intro i s hs
  obtain ⟨s₁, hs₁, hcount₁⟩ := h i s hs
  obtain ⟨s₂, hs₂, hcount₂⟩ := h' i s₁ hs₁
  exact ⟨s₂, hs₂, by rw [hcount₂, hcount₁, Int.add_assoc]⟩

/-- One stream changes its count by `n`, the others keep theirs. -/
theorem counts_modify {j : Nat} {change : Stream → Stream} {n : Int}
    (h : cm₁.streams = cm.streams.modify j change)
    (hchange : ∀ s, (change s).refCount = s.refCount + n) :
    Counts cm cm₁ fun i => if i = j then n else 0 := by
  intro i s hs
  by_cases hij : i = j
  · subst hij
    refine ⟨change s, by simp [h, hs], ?_⟩
    dsimp only
    rw [if_pos rfl, hchange]
  · refine ⟨s, by simp [h, hs, Ne.symm hij], ?_⟩
    dsimp only
    rw [if_neg hij, Int.add_zero]

/-- A search that takes a stream is worth one acquired reference. -/
theorem Taking.counts {q : Stream → Prop} {got : Option Nat × ConfigMgr} (h : Taking q cm got) :
    Counts cm got.2 (balance (got.1.toList.map fun i => .acquire i)) := by
  cases h with
  | none => exact counts_same rfl
  | @some i _ _ _ _ _ hstreams =>
    refine (counts_modify hstreams fun _ => rfl).congr fun j => ?_
    exact (balance_acquire i j).symm

theorem routeStream_counts (cm : ConfigMgr) (i : Nat) (devices : BitVec 32) :
    Counts cm (routeStream cm i devices) fun _ => 0 := by
  have hmodify := counts_modify (n := 0) (routeStream_streams cm i devices)
    fun s => (s.routed_refCount devices).trans (Int.add_zero _).symm
  exact hmodify.congr fun j => ite_self 0

/-- Dropping a stream is worth one released reference. -/
theorem dropStream_counts (cm : ConfigMgr) (i : Nat) :
    Counts cm (dropStream cm i) (balance [.release i]) :=
  (counts_modify (dropStream_streams cm i) fun _ => rfl).congr fun j => (balance_release i j).symm

/-- The stream held before is given back, if there was one. -/
theorem releaseOld_counts (cm : ConfigMgr) (hw : Option Nat) :
    Counts cm (releaseOld cm hw) (balance (hw.toList.map fun old => .release old)) := by
  cases hw with
  | none => exact counts_same rfl
  | some old => exact dropStream_counts cm old

theorem applyUseCase_counts (cm : ConfigMgr) (i : Nat) (setting caseName : String) :
    Counts cm (applyUseCase cm i setting caseName).2 fun _ => 0 := by
  unfold applyUseCase
  split
  case h_1 => exact counts_same rfl
  case h_2 =>
    have hstreams (change : Stream → Stream) (mixer : Mixer) :
        ({ modifyStream cm i change with mixer := mixer } : ConfigMgr).streams =
          cm.streams.modify i change := rfl
    refine Counts.congr (counts_modify (n := 0) (hstreams _ _) ?_) fun j => ite_self 0
    exact fun _ => (Int.add_zero _).symm

/-- Use cases write controls and move no reference. -/
theorem streamInvokeUsecases_counts (cm : ConfigMgr) (hw : Option Nat) (kvpairs : String) :
    Counts cm (streamInvokeUsecases cm hw kvpairs).2 fun _ => 0 := by
  unfold streamInvokeUsecases
  cases hw with
  | none => exact counts_same rfl
  | some i =>
    dsimp only
    generalize (CString.strtok ';' kvpairs.toList).filterMap keyValue = pairs
    generalize -enotsup = ret
    induction pairs generalizing ret cm with
    | nil => exact counts_same rfl
    | cons pair pairs ih =>
      exact ((applyUseCase_counts cm i pair.1 pair.2).trans (ih _ _)).congr fun _ => rfl

end Counts

section Draws

/-- The manager has counted what the voice trigger has put in its log, and this log besides. -/
def Draws (adev adev' : AudioDevice) (refs : List (Use Nat)) : Prop :=
  ∃ voice, adev'.voiceLog = adev.voiceLog ++ voice ∧
    Counts adev.cm adev'.cm fun i => balance voice i + balance refs i

variable {adev adev₁ adev₂ : AudioDevice} {refs more : List (Use Nat)}

/-- A step of the manager alone, written down as the references it moves. -/
theorem draws_manager (hlog : adev₁.voiceLog = adev.voiceLog)
    (hcounts : Counts adev.cm adev₁.cm (balance refs)) : Draws adev adev₁ refs :=
  ⟨[], by rw [hlog, List.append_nil], hcounts.congr fun i => (Int.zero_add _).symm⟩

theorem draws_same (hlog : adev₁.voiceLog = adev.voiceLog) (hcm : adev₁.cm = adev.cm) :
    Draws adev adev₁ [] :=
  draws_manager hlog (counts_same (by rw [hcm]))

theorem Draws.trans (h : Draws adev adev₁ refs) (h' : Draws adev₁ adev₂ more) :
    Draws adev adev₂ (refs ++ more) := by
  obtain ⟨voice, hlog, hcounts⟩ := h
  obtain ⟨voice', hlog', hcounts'⟩ := h'
  refine ⟨voice ++ voice', by rw [hlog', hlog, List.append_assoc], ?_⟩
  refine (hcounts.trans hcounts').congr fun i => ?_
  rw [balance_append, balance_append]
  omega

/-- The voice stream keeps its own log, so that closing it draws nothing here. -/
theorem closeVoice_draws (adev : AudioDevice) : Draws adev (doVoiceTriggerCloseStream adev) [] := by
  unfold doVoiceTriggerCloseStream
  cases adev.voiceTrigStream with
  | none => exact draws_same rfl rfl
  | some i =>
    refine ⟨[.touch i, .release i], rfl, ?_⟩
    refine ((routeStream_counts adev.cm i 0#32).trans (dropStream_counts _ i)).congr fun j => ?_
    rw [balance_touch, balance_nil]
    omega

/-- Opening the voice stream is written into its log as well. -/
theorem openVoice_draws (adev : AudioDevice) (name : String) :
    Draws adev (doVoiceTriggerOpenStream adev name) [] := by
  have htaken := (getNamedStream_taking adev.cm name).counts
  unfold doVoiceTriggerOpenStream
  dsimp only
  cases hgot : (getNamedStream adev.cm name).1 with
  | none =>
    rw [hgot] at htaken
    exact draws_manager rfl htaken
  | some i =>
    rw [hgot] at htaken
    refine ⟨[.acquire i, .touch i], rfl, ?_⟩
    refine (htaken.trans (routeStream_counts _ i _)).congr fun j => ?_
    have hsplit : balance [.acquire i, .touch i] j = balance [.acquire i] j := by
      rw [← List.singleton_append, balance_append, balance_touch, balance_nil, Int.add_zero]
    rw [hsplit, balance_nil]
    rfl

theorem audioStarted_draws (adev : AudioDevice) :
    Draws adev (voiceTriggerAudioStartedLocked adev) [] := by
  unfold voiceTriggerAudioStartedLocked
  cases adev.voiceSt <;> exact draws_same rfl rfl

theorem audioEnded_draws (adev : AudioDevice) :
    Draws adev (voiceTriggerAudioEndedLocked adev) [] := by
  unfold voiceTriggerAudioEndedLocked
  cases adev.voiceSt with
  | recogAudio => exact closeVoice_draws adev
  | _ => exact draws_same rfl rfl

/-- The events of the voice trigger itself. -/
theorem voiceStep_draws {e : VoiceEvent} (h : voiceStep adev e = some adev₁)
    (he : ∀ c, e ≠ .other c) : Draws adev adev₁ [] := by
  cases e with
  | enable =>
    cases h
    unfold voiceTriggerEnable
    cases adev.voiceSt with
    | triggerIdle => exact openVoice_draws adev kVoiceTriggerStreamName
    | triggerFired => exact openVoice_draws adev kVoiceTriggerStreamName
    | recogIdle => exact openVoice_draws adev kVoiceRecogStreamName
    | _ => exact draws_same rfl rfl
  | disable =>
    cases h
    unfold voiceTriggerDisable
    cases adev.voiceSt with
    | triggerFired => exact closeVoice_draws adev
    | triggerArmed => exact closeVoice_draws adev
    | recogArmed => exact closeVoice_draws adev
    | _ => exact draws_same rfl rfl
  | triggered =>
    cases h
    unfold voiceTriggerTriggered
    cases adev.voiceSt <;> exact draws_same rfl rfl
  | audioStarted =>
    cases h
    exact audioStarted_draws adev
  | audioEnded =>
    cases h
    exact audioEnded_draws adev
  | setMic mic =>
    cases h
    exact draws_same rfl rfl
  | other c => exact absurd rfl (he c)

/-- A change to or from hotword moves voice references only. -/
theorem switchVoiceControl_draws (adev : AudioDevice) (k : Nat) (newSource : Int) :
    Draws adev (switchVoiceControl adev k newSource) [] := by
  unfold switchVoiceControl
  split
  · exact audioStarted_draws { adev with activeVoiceControl := some k }
  · split
    · exact audioEnded_draws { adev with activeVoiceControl := none }
    · exact draws_same rfl rfl

end Draws

section Devices

/-- What is done with the device handles leaves the binding to the hardware stream. -/
structure Kept (si si' : StreamIn) : Prop where
  isOpen : si'.isOpen = si.isOpen
  hw : si'.hw = si.hw
  refs : si'.refs = si.refs

theorem Kept.refl (si : StreamIn) : Kept si si := ⟨rfl, rfl, rfl⟩

theorem Kept.trans {si si₁ si₂ : StreamIn} (h₁ : Kept si si₁) (h₂ : Kept si₁ si₂) : Kept si si₂ :=
  ⟨h₂.isOpen.trans h₁.isOpen, h₂.hw.trans h₁.hw, h₂.refs.trans h₁.refs⟩

theorem doOpenPcmInput_kept (env : ReadEnv) (cm : ConfigMgr) (si : StreamIn) :
    Kept si (doOpenPcmInput env cm si).2 := by
  unfold doOpenPcmInput
  cases si.stream cm with
  | none => exact Kept.refl si
  | some s =>
    dsimp only
    split
    · split
      · exact ⟨rfl, rfl, rfl⟩
      · split <;> exact ⟨rfl, rfl, rfl⟩
    · exact ⟨rfl, rfl, rfl⟩

theorem doOpenCompressPcmIn_kept (env : ReadEnv) (si : StreamIn) :
    Kept si (doOpenCompressPcmIn env si).2 := by
  unfold doOpenCompressPcmIn
  split
  · exact Kept.refl si
  · cases env.compressOpen with
    | none => exact ⟨rfl, rfl, rfl⟩
    | some errno => exact Kept.refl si

theorem doInPcmRead_kept (env : ReadEnv) (cm : ConfigMgr) (si : StreamIn) (bytes : Int) :
    Kept si (doInPcmRead env cm si bytes).2 := by
  have hstart : Kept si (startPcmInputStream env cm si).2 := by
    have hopen := doOpenPcmInput_kept env cm si
    unfold startPcmInputStream
    split
    · dsimp only
      split
      · exact hopen.trans ⟨rfl, rfl, rfl⟩
      · exact hopen
    · exact Kept.refl si
  unfold doInPcmRead
  dsimp only
  split
  · exact hstart
  · exact hstart.trans ⟨rfl, rfl, rfl⟩

theorem doInCompressPcmRead_kept (env : ReadEnv) (si : StreamIn) :
    Kept si (doInCompressPcmRead env si).2 := by
  have hstart : Kept si (startCompressPcmInputStream env si).2 := by
    have hopen := doOpenCompressPcmIn_kept env si
    unfold startCompressPcmInputStream
    split
    · dsimp only
      split
      · exact hopen
      · exact hopen.trans ⟨rfl, rfl, rfl⟩
    · exact Kept.refl si
  unfold doInCompressPcmRead
  dsimp only
  split
  · exact hstart
  · exact hstart.trans ⟨rfl, rfl, rfl⟩

/-- A read opens and closes the PCM, and leaves the references of the stream alone. -/
theorem inPcmRead_kept (env : ReadEnv) (cm : ConfigMgr) (si : StreamIn) (bytes : Int) :
    Kept si (inPcmRead env cm si bytes).2 := by
  unfold inPcmRead
  dsimp only
  cases si.stream cm with
  | none => exact Kept.refl si
  | some s =>
    dsimp only
    split
    · exact Kept.refl si
    · split
      · exact doInCompressPcmRead_kept env si
      · exact doInPcmRead_kept env cm si bytes

theorem inPcmStandby_kept (cm : ConfigMgr) (si : StreamIn) : Kept si (inPcmStandby cm si) := by
  unfold inPcmStandby doInCompressPcmStandby doInPcmStandby
  cases si.stream cm with
  | none => exact Kept.refl si
  | some s =>
    dsimp only
    split
    · split <;> exact ⟨rfl, rfl, rfl⟩
    · split <;> exact ⟨rfl, rfl, rfl⟩

/-- Closing gives back the reference. -/
theorem doCloseInPcm_refs (adev : AudioDevice) (k : Nat) (si : StreamIn) :
    (doCloseInPcm adev k si).2.isOpen = false ∧
      (doCloseInPcm adev k si).2.refs = si.refs ++ si.hw.toList.map fun hw => .release hw := by
  have hcommon (sj : StreamIn) (hkept : Kept si sj) :
      (doCloseInCommon adev k sj).2.isOpen = false ∧
        (doCloseInCommon adev k sj).2.refs = si.refs ++ si.hw.toList.map fun hw => .release hw := by
    have hstandby := hkept.trans (inPcmStandby_kept adev.cm sj)
    rw [← hstandby.refs, ← hstandby.hw]
    unfold doCloseInCommon
    dsimp only
    cases (inPcmStandby adev.cm sj).hw with
    | none => exact ⟨rfl, (List.append_nil _).symm⟩
    | some hw => exact ⟨rfl, rfl⟩
  unfold doCloseInPcm
  split
  · split
    · refine hcommon _ ?_
      unfold doInCompressPcmClose
      split
      · exact ⟨rfl, rfl, rfl⟩
      · exact Kept.refl si
    · exact hcommon si (Kept.refl si)
  · exact hcommon si (Kept.refl si)

end Devices

section Streams

variable {strParms : StrParms} {adev : AudioDevice} {k : Nat} {si : StreamIn}

/-- The stream taken for the new source and the one given back stand in the log of the input. -/
theorem changeInputSource_draws (adev : AudioDevice) (k : Nat) (si : StreamIn) (newSource : Int)
    (devices : BitVec 32) : ∃ refs,
      (changeInputSourceLocked adev k si newSource devices).2.2.refs = si.refs ++ refs ∧
      Draws adev (changeInputSourceLocked adev k si newSource devices).2.1 refs := by
  obtain ⟨htaking, -⟩ := openSource_offered adev si newSource devices
  rcases changeInputSource_cases adev k si newSource devices with
    ⟨-, hsame⟩ | ⟨hw, cm, -, -, hopen, hchange⟩
  · rw [hsame]
    exact ⟨[], (List.append_nil _).symm, draws_same rfl rfl⟩
  · rw [hopen] at htaking
    rw [hchange]
    refine ⟨[.acquire hw] ++ si.hw.toList.map fun old => .release old, List.append_assoc .., ?_⟩
    have htaken : Draws adev { adev with cm := cm } [.acquire hw] := draws_manager rfl htaking.counts
    have hreleased : Draws { adev with cm := cm } { adev with cm := releaseOld cm si.hw }
        (si.hw.toList.map fun old => .release old) := draws_manager rfl (releaseOld_counts cm si.hw)
    have hswitched := switchVoiceControl_draws { adev with cm := releaseOld cm si.hw } k newSource
    have hall := (htaken.trans hreleased).trans hswitched
    rw [List.append_nil] at hall
    exact hall

theorem applyInputRouting_draws (adev : AudioDevice) (si : StreamIn) (routing : Option (BitVec 32))
    (kvpairs : String) : (applyInputRouting adev si routing kvpairs).2.refs = si.refs ∧
      Draws adev (applyInputRouting adev si routing kvpairs).1 [] := by
  unfold applyInputRouting
  cases routing with
  | none => exact ⟨rfl, draws_manager rfl (streamInvokeUsecases_counts adev.cm si.hw kvpairs)⟩
  | some devices =>
    cases hhw : si.hw with
    | none => exact ⟨rfl, draws_manager rfl (streamInvokeUsecases_counts adev.cm none kvpairs)⟩
    | some hw =>
      refine ⟨rfl, draws_manager rfl ?_⟩
      exact ((routeStream_counts adev.cm hw devices).trans
        (streamInvokeUsecases_counts _ (some hw) kvpairs)).congr fun _ => rfl

/-- Setting parameters draws what the change of source drew. -/
theorem setParameters_draws (strParms : StrParms) (adev : AudioDevice) (k : Nat) (si : StreamIn)
    (kvpairs : String) : ∃ refs,
      (inPcmSetParameters strParms adev k si kvpairs).2.refs = si.refs ++ refs ∧
      Draws adev (inPcmSetParameters strParms adev k si kvpairs).1 refs := by
  unfold inPcmSetParameters
  cases intParam strParms kvpairs "input_source" with
  | none =>
    obtain ⟨hrefs, hdraws⟩ := applyInputRouting_draws adev si (routingParam strParms kvpairs) kvpairs
    exact ⟨[], by rw [hrefs, List.append_nil], hdraws⟩
  | some newSource =>
    dsimp only
    generalize sourceDevices adev.cm si (routingParam strParms kvpairs) = devices
    obtain ⟨refs, hrefs, hchange⟩ := changeInputSource_draws adev k si newSource devices
    split
    · exact ⟨refs, hrefs, hchange⟩
    · obtain ⟨hkept, hrouting⟩ := applyInputRouting_draws
        (changeInputSourceLocked adev k si newSource devices).2.1
        (changeInputSourceLocked adev k si newSource devices).2.2 (some devices) kvpairs
      have hall := hchange.trans hrouting
      rw [List.append_nil] at hall
      exact ⟨refs, hkept.trans hrefs, hall⟩

/-- Closing gives back what the input still holds. -/
theorem doCloseInPcm_draws (adev : AudioDevice) (k : Nat) (si : StreamIn) : ∃ refs,
    (doCloseInPcm adev k si).2.refs = si.refs ++ refs ∧ Draws adev (doCloseInPcm adev k si).1 refs := by
  have hcommon (sj : StreamIn) (hrefs : sj.refs = si.refs) : ∃ refs,
      (doCloseInCommon adev k sj).2.refs = si.refs ++ refs ∧
        Draws adev (doCloseInCommon adev k sj).1 refs := by
    have hstandby : (inPcmStandby adev.cm sj).refs = si.refs :=
      (inPcmStandby_kept adev.cm sj).refs.trans hrefs
    have hvoice : Draws adev (if adev.activeVoiceControl = some k then
        voiceTriggerAudioEndedLocked { adev with activeVoiceControl := none } else adev) [] := by
      split
      · exact audioEnded_draws { adev with activeVoiceControl := none }
      · exact draws_same rfl rfl
    unfold doCloseInCommon
    dsimp only
    cases (inPcmStandby adev.cm sj).hw with
    | none => exact ⟨[], by rw [List.append_nil]; exact hstandby, hvoice⟩
    | some hw =>
      refine ⟨[.release hw], by rw [← hstandby], ?_⟩
      exact hvoice.trans (draws_manager rfl (dropStream_counts _ hw))
  unfold doCloseInPcm
  split
  · split
    · refine hcommon _ ?_
      unfold doInCompressPcmClose
      split <;> rfl
    · exact hcommon si rfl
  · exact hcommon si rfl

end Streams

section Foreign

/-- What the manager counts on a stream beyond the input streams and the voice trigger. -/
def InputDevice.foreign (s : InputDevice) (i : Nat) : Option Int :=
  (s.adev.cm.streams[i]?).map fun st => st.refCount - balance s.adev.voiceLog i -
    (s.inputs.map fun si => balance si.refs i).sum

theorem Spares.length {p : Nat → Prop} {cm cm' : ConfigMgr} (h : Spares p cm cm') :
    cm'.streams.length = cm.streams.length := by
  have hnone (i : Nat) : cm'.streams.length ≤ i ↔ cm.streams.length ≤ i := by
    rw [← List.getElem?_eq_none_iff, ← List.getElem?_eq_none_iff,
      ← Option.map_eq_none_iff (f := fun s : Stream => s.type), h.types i, Option.map_eq_none_iff]
  have hthis := (hnone cm.streams.length).mpr (Nat.le_refl _)
  have hthat := (hnone cm'.streams.length).mp (Nat.le_refl _)
  omega

/-- While the logs of the inputs add up to the same, so do the foreign references. -/
theorem foreign_kept {s : InputDevice} {inputs : List StreamIn}
    (hlogs : ∀ i, (inputs.map fun si => balance si.refs i).sum =
      (s.inputs.map fun si => balance si.refs i).sum) (i : Nat) :
    InputDevice.foreign ⟨s.adev, inputs⟩ i = s.foreign i := by
  unfold InputDevice.foreign
  rw [hlogs i]

/-- A call of one input stream, or of the voice trigger: the logs say what the manager counts. -/
theorem foreign_drawn {s t : InputDevice} {refs : List (Use Nat)} (h : Draws s.adev t.adev refs)
    (hlength : t.adev.cm.streams.length = s.adev.cm.streams.length)
    (hlogs : ∀ i, (t.inputs.map fun si => balance si.refs i).sum =
      (s.inputs.map fun si => balance si.refs i).sum + balance refs i) (i : Nat) :
    t.foreign i = s.foreign i := by
  obtain ⟨voice, hlog, hcounts⟩ := h
  unfold InputDevice.foreign
  cases hs : s.adev.cm.streams[i]? with
  | none =>
    rw [List.getElem?_eq_none_iff] at hs
    rw [List.getElem?_eq_none (by omega)]
    rfl
  | some st =>
    obtain ⟨st', hst', hcount⟩ := hcounts i st hs
    rw [hst', Option.map_some, Option.map_some, hcount, hlogs i, hlog, balance_append]
    congr 1
    dsimp only
    omega

/-- The logs of all inputs grow by what the one input that acts writes down. -/
theorem sum_set {inputs : List StreamIn} {k : Nat} {si sj : StreamIn} {refs : List (Use Nat)}
    (hk : inputs[k]? = some si) (hrefs : sj.refs = si.refs ++ refs) (i : Nat) :
    ((inputs.set k sj).map fun si => balance si.refs i).sum =
      (inputs.map fun si => balance si.refs i).sum + balance refs i := by
  obtain ⟨hlt, hat⟩ := List.getElem?_eq_some_iff.mp hk
  rw [List.map_set, List.sum_set', dif_pos (by simpa using hlt), List.getElem_map, hat, hrefs,
    balance_append]
  omega

/-- No call of an input stream or of the voice trigger touches the references of the others. -/
theorem inputStep_foreign {strParms : StrParms} {s t : InputDevice} {c : InputCall}
    (h : inputStep strParms s c = some t) (hc : ∀ e, c ≠ .voice (.other e)) (i : Nat) :
    t.foreign i = s.foreign i := by
  have hat {k : Nat} {si : StreamIn} (hsi : s.input k = some si) : s.inputs[k]? = some si :=
    (Option.filter_eq_some_iff.mp hsi).1
  cases c with
  | openStream devices config =>
    cases h
    refine foreign_kept (fun j => ?_) i
    simp [adevOpenInputStream]
  | setParameters k kvpairs =>
    obtain ⟨si, hsi, rfl⟩ := Option.map_eq_some_iff.mp h
    obtain ⟨refs, hrefs, hdraws⟩ := setParameters_draws strParms s.adev k si kvpairs
    exact foreign_drawn hdraws (setParameters_streams strParms s.adev k si kvpairs).length
      (sum_set (hat hsi) hrefs) i
  | read k env bytes =>
    obtain ⟨si, hsi, rfl⟩ := Option.map_eq_some_iff.mp h
    have hrefs := (inPcmRead_kept env s.adev.cm si bytes).refs.trans (List.append_nil _).symm
    exact foreign_kept (fun j => (sum_set (hat hsi) hrefs j).trans (Int.add_zero _)) i
  | standby k =>
    obtain ⟨si, hsi, rfl⟩ := Option.map_eq_some_iff.mp h
    have hrefs := (inPcmStandby_kept s.adev.cm si).refs.trans (List.append_nil _).symm
    exact foreign_kept (fun j => (sum_set (hat hsi) hrefs j).trans (Int.add_zero _)) i
  | close k =>
    obtain ⟨si, hsi, rfl⟩ := Option.map_eq_some_iff.mp h
    obtain ⟨refs, hrefs, hdraws⟩ := doCloseInPcm_draws s.adev k si
    exact foreign_drawn hdraws (closeInPcm_spares (p := fun _ => True) s.adev k si
      fun _ => trivial).length (sum_set (hat hsi) hrefs) i
  | voice e =>
    obtain ⟨adev, hadev, rfl⟩ := Option.map_eq_some_iff.mp h
    have hdraws := voiceStep_draws hadev fun c he => hc c (by rw [he])
    exact foreign_drawn hdraws (voiceStep_spares (p := fun _ => True) (fun _ => trivial) hadev).length
      (fun _ => (Int.add_zero _).symm) i

end Foreign

end TinyHal
