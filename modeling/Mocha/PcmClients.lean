import Mocha.PcmTransfers

/-!
# Clients of a PCM

Runs of `pcm_open`, the transfers and `pcm_close`, one PCM after the other: what is held
at any point, and how the device stands when frames are transferred.
-/
namespace TinyAlsa

open Custody Transition

variable {α : Type}

section Holding

/-- What a part of `pcm_open` or `pcm_close` does with the objects of the PCM, without a word to
the device. -/
structure Moves (k k' : Kernel α) (held held' : List PcmObject) (more : List (Entry α)) : Prop where
  log : k'.log = k.log ++ more
  disciplined : DisciplinedFrom held (uses more)
  outstanding : outstandingFrom held (uses more) = held'
  quiet : ∀ d, run deviceStep d more = some d
  silent : taken more = []

theorem uses_append (log more : List (Entry α)) : uses (log ++ more) = uses log ++ uses more :=
  List.flatMap_append

theorem Moves.nothing (k : Kernel α) (held : List PcmObject) : Moves k k held held [] :=
  ⟨(List.append_nil k.log).symm, trivial, rfl, fun _ => rfl, rfl⟩

theorem Moves.trans {k k' k'' : Kernel α} {held held' held'' : List PcmObject}
    {more more' : List (Entry α)} (h : Moves k k' held held' more)
    (h' : Moves k' k'' held' held'' more') : Moves k k'' held held'' (more ++ more') where
  log := by
    rw [h'.log, h.log, List.append_assoc]
  disciplined := by
    rw [uses_append, disciplinedFrom_append, h.outstanding]
    exact ⟨h.disciplined, h'.disciplined⟩
  outstanding := by
    rw [uses_append, outstandingFrom_append, h.outstanding, h'.outstanding]
  quiet d := by
    rw [run_append, h.quiet]
    exact h'.quiet d
  silent := by
    rw [taken_append, h.silent, h'.silent]
    rfl

theorem memory_mem_held (p : PcmDevice) : ⟨p.id, .memory⟩ ∈ p.held := by
  simp [PcmDevice.held]

theorem fd_mem_held {p : PcmDevice} (h : p.fd = true) : ⟨p.id, .fd⟩ ∈ p.held := by
  simp [PcmDevice.held, h]

theorem syncPtr_mem_held {p : PcmDevice} (h : p.syncPtr = true) : ⟨p.id, .syncPtr⟩ ∈ p.held := by
  simp [PcmDevice.held, h]

/-- Talking to the device uses what is held and keeps it. -/
theorem speaks_held {p : PcmDevice} {more : List (Entry α)} (h : ∀ e ∈ more, Speaks p e) :
    DisciplinedFrom p.held (uses more) ∧ outstandingFrom p.held (uses more) = p.held := by
  induction more with
  | nil => exact ⟨trivial, rfl⟩
  | cons e more ih =>
    obtain ⟨hdisciplined, hout⟩ := ih fun e he => h e (List.mem_cons_of_mem _ he)
    obtain ⟨hpcm, hfd, hcall⟩ := h e List.mem_cons_self
    have hfirst : DisciplinedFrom p.held (e.call.uses e.pcm (e.errno = 0)) ∧
        outstandingFrom p.held (e.call.uses e.pcm (e.errno = 0)) = p.held := by
      have hmemory := memory_mem_held p
      have hopen := fd_mem_held hfd
      rw [hpcm]
      rcases hcall with hplain | ⟨hsync, hptr⟩
      · cases hc : e.call <;> simp_all [Syscall.plain, Syscall.uses, DisciplinedFrom, Legal,
          after, outstandingFrom]
      · have hheld := syncPtr_mem_held hptr
        simp_all [Syscall.uses, DisciplinedFrom, Legal, after, outstandingFrom]
    change DisciplinedFrom p.held (e.call.uses e.pcm (e.errno = 0) ++ uses more) ∧
      outstandingFrom p.held (e.call.uses e.pcm (e.errno = 0) ++ uses more) = p.held
    rw [disciplinedFrom_append, outstandingFrom_append, hfirst.2]
    exact ⟨⟨hfirst.1, hdisciplined⟩, hout⟩

/-- The calls that the device's state does not depend on. -/
def Syscall.still : Syscall α → Bool
  | .openDevice _ | .prepare | .start | .drop | .writei _ | .readi _ => false
  | _ => true

theorem moves_one {k k' : Kernel α} {held held' : List PcmObject} (e : Entry α)
    (hlog : k'.log = k.log ++ [e]) (hstill : e.call.still = true)
    (hdisciplined : DisciplinedFrom held (e.call.uses e.pcm (e.errno = 0)))
    (hout : outstandingFrom held (e.call.uses e.pcm (e.errno = 0)) = held') :
    Moves k k' held held' [e] where
  log := hlog
  disciplined := by simpa [uses] using hdisciplined
  outstanding := by simpa [uses] using hout
  quiet d := by cases hc : e.call <;> simp_all [deviceStep, Syscall.still]
  silent := by cases hc : e.call <;> simp_all [taken, Syscall.still]

theorem moves_same {k : Kernel α} {p q : PcmDevice} (h : q.held = p.held) :
    Moves k k p.held q.held [] := by
  rw [h]
  exact .nothing k p.held

/-- A call to an open device. -/
theorem moves_ioctl {p : PcmDevice} (hfd : p.fd = true) (k : Kernel α) {c : Syscall α}
    (hplain : c.plain = true) (hstill : c.still = true) :
    Moves k (ioctl p k c).2 p.held p.held (spoken p k c) := by
  obtain ⟨hdisciplined, hout⟩ := speaks_held (spoken_speaks (p := p) (k := k) (.inl hplain))
  refine ⟨ioctl_log p k c, hdisciplined, hout, ?_, ?_⟩
  · intro d
    cases c <;> simp_all [spoken, deviceStep, Syscall.still]
  · cases c <;> simp_all [spoken, taken, Syscall.still]

/-- What `pcm_open` keeps of the PCM that it has begun with. -/
structure Opened (p q : PcmDevice) : Prop where
  id : q.id = p.id
  flags : q.flags = p.flags
  channels : q.config.channels = p.config.channels
  format : q.config.format = p.config.format
  prepared : q.prepared = p.prepared
  running : q.running = p.running
  mapped : q.mmapBuffer = true → p.flags.mmap = true ∨ p.mmapBuffer = true

theorem Opened.refl (p : PcmDevice) : Opened p p := ⟨rfl, rfl, rfl, rfl, rfl, rfl, .inr⟩

theorem Opened.trans {p q r : PcmDevice} (h : Opened p q) (h' : Opened q r) : Opened p r where
  id := h'.id.trans h.id
  flags := h'.flags.trans h.flags
  channels := h'.channels.trans h.channels
  format := h'.format.trans h.format
  prepared := h'.prepared.trans h.prepared
  running := h'.running.trans h.running
  mapped hr := by
    rcases h'.mapped hr with hq | hq
    · exact .inl (h.flags ▸ hq)
    · exact h.mapped hq

/-- A stage of `pcm_open`, from here to its end. -/
def Stage (p : PcmDevice) (k : Kernel α) (done : PcmDevice × Kernel α) : Prop :=
  (∃ more, Moves k done.2 p.held done.1.held more) ∧ Opened p done.1

/-- A stage is also one of the handle before it, when the moves in between are added. -/
theorem Stage.after {p q : PcmDevice} {k k' : Kernel α} {done : PcmDevice × Kernel α}
    {more : List (Entry α)} (h : Stage q k' done) (hmoves : Moves k k' p.held q.held more)
    (hopened : Opened p q) : Stage p k done := by
  obtain ⟨⟨rest, hrest⟩, hdone⟩ := h
  exact ⟨⟨_, hmoves.trans hrest⟩, hopened.trans hdone⟩

theorem failClose_stage {p : PcmDevice} (hfd : p.fd = true) (hbuffer : p.mmapBuffer = false)
    (k : Kernel α) : Stage p k (failClose p k) := by
  refine ⟨⟨_, moves_one ⟨p.id, .closeDevice, 0⟩ rfl rfl ?_ ?_⟩,
    ⟨rfl, rfl, rfl, rfl, rfl, rfl, .inr⟩⟩
  · simp [Syscall.uses, DisciplinedFrom, Legal, after, PcmDevice.held, hfd, hbuffer]
  · cases hs : p.syncPtr <;> cases hc : p.mmapControl <;> cases hm : p.mmapStatus <;>
      simp [Syscall.uses, outstandingFrom, after, PcmDevice.held, failClose, hfd, hbuffer, hs, hc, hm]

theorem fail_stage {p : PcmDevice} (hfd : p.fd = true) (hbuffer : p.mmapBuffer = p.flags.mmap)
    (k : Kernel α) : Stage p k (fail p k) := by
  unfold fail munmapBuffer
  cases hmmap : p.flags.mmap with
  | false => exact failClose_stage hfd (hbuffer.trans hmmap) k
  | true =>
    rw [hmmap] at hbuffer
    simp only [hbuffer, if_true]
    refine ⟨⟨_, Moves.trans (moves_one ⟨p.id, .unmapBuffer, 0⟩ rfl rfl ?_ rfl)
      (moves_one ⟨p.id, .closeDevice, 0⟩ rfl rfl ?_ ?_)⟩, ⟨rfl, rfl, rfl, rfl, rfl, rfl, .inr⟩⟩
    · simp [Syscall.uses, DisciplinedFrom, Legal, after, PcmDevice.held, hfd, hbuffer]
    · cases hs : p.syncPtr <;> cases hc : p.mmapControl <;> cases hm : p.mmapStatus <;>
        simp [Syscall.uses, DisciplinedFrom, Legal, outstandingFrom, after, PcmDevice.held, hfd,
          hbuffer, hs, hc, hm]
    · cases hs : p.syncPtr <;> cases hc : p.mmapControl <;> cases hm : p.mmapStatus <;>
        simp [Syscall.uses, outstandingFrom, after, PcmDevice.held, failClose, hfd, hbuffer, hs,
          hc, hm]

theorem fail_after {p : PcmDevice} {k k' : Kernel α} {more : List (Entry α)} (hfd : p.fd = true)
    (hbuffer : p.mmapBuffer = p.flags.mmap) (h : Moves k k' p.held p.held more) (e : Int)
    (text : String) : Stage p k (fail (oops p e text) k') :=
  (fail_stage (p := oops p e text) hfd hbuffer k').after h ⟨rfl, rfl, rfl, rfl, rfl, rfl, .inr⟩

theorem failClose_after {p : PcmDevice} {k k' : Kernel α} {more : List (Entry α)}
    (hfd : p.fd = true) (hbuffer : p.mmapBuffer = false) (h : Moves k k' p.held p.held more)
    (e : Int) (text : String) : Stage p k (failClose (oops p e text) k') :=
  (failClose_stage (p := oops p e text) hfd hbuffer k').after h
    ⟨rfl, rfl, rfl, rfl, rfl, rfl, .inr⟩

theorem setTimestamp_stage {p : PcmDevice} (hfd : p.fd = true)
    (hbuffer : p.mmapBuffer = p.flags.mmap) (k : Kernel α) : Stage p k (setTimestamp p k) := by
  have hasked := moves_ioctl hfd k (c := .ttstamp) rfl rfl
  unfold setTimestamp
  split
  · dsimp only
    split
    · exact fail_after hfd hbuffer hasked (-1) "cannot set timestamp type"
    · exact ⟨⟨_, hasked⟩, ⟨rfl, rfl, rfl, rfl, rfl, rfl, .inr⟩⟩
  · exact ⟨⟨_, moves_same rfl⟩, ⟨rfl, rfl, rfl, rfl, rfl, rfl, .inr⟩⟩

/-- Before its status is mapped a PCM holds its memory, its device and its buffer. -/
structure PcmDevice.Bare (p : PcmDevice) : Prop where
  syncPtr : p.syncPtr = false
  mmapStatus : p.mmapStatus = false
  mmapControl : p.mmapControl = false

/-- The status block is allocated once and kept for as long as the handle. -/
theorem syncStatus_moves {p : PcmDevice} (h : p.Bare) (hfd : p.fd = true) (k : Kernel α) :
    ∃ more, Moves k (syncStatus p k).2.2 p.held (syncStatus p k).2.1.held more := by
  have hmemory := memory_mem_held p
  have hgot : (k.call p.id .callocSync).2.log =
    k.log ++ [⟨p.id, .callocSync, (k.call p.id .callocSync).1.errno⟩] := rfl
  unfold syncStatus
  dsimp only
  split
  case isTrue herr =>
    refine ⟨_, moves_one _ hgot rfl ?_ ?_⟩
    · simp [Syscall.uses, herr, DisciplinedFrom, Legal, hmemory]
    · simp [Syscall.uses, herr, outstandingFrom, after]
  case isFalse herr =>
    rw [not_not] at herr
    have hmoves : Moves k (k.call p.id .callocSync).2 p.held
        { p with syncPtr := true, mmapStatus := true, mmapControl := true }.held
        [⟨p.id, .callocSync, (k.call p.id .callocSync).1.errno⟩] := by
      refine moves_one _ hgot rfl ?_ ?_
      · simp [Syscall.uses, herr, DisciplinedFrom, Legal, hmemory]
      · simp [Syscall.uses, herr, outstandingFrom, after, PcmDevice.held, h.syncPtr,
          h.mmapStatus, h.mmapControl]
    have hspeaks : ∀ e ∈ spoken { p with syncPtr := true, mmapStatus := true, mmapControl := true }
        (k.call p.id .callocSync).2 .syncPtr, Speaks { p with
          syncPtr := true, mmapStatus := true, mmapControl := true } e :=
      spoken_speaks (.inr ⟨rfl, rfl⟩)
    obtain ⟨hdisciplined, hout⟩ := speaks_held hspeaks
    refine ⟨_, hmoves.trans ⟨ioctl_log _ _ .syncPtr, hdisciplined, hout, ?_, ?_⟩⟩
    · simp [spoken, hfd, deviceStep]
    · simp [spoken, hfd, taken]

theorem syncStatus_opened (p : PcmDevice) (k : Kernel α) : Opened p (syncStatus p k).2.1 := by
  unfold syncStatus
  dsimp only
  split <;> exact ⟨rfl, rfl, rfl, rfl, rfl, rfl, .inr⟩

theorem syncStatus_device (p : PcmDevice) (k : Kernel α) :
    (syncStatus p k).2.1.fd = p.fd ∧ (syncStatus p k).2.1.mmapBuffer = p.mmapBuffer := by
  unfold syncStatus
  dsimp only
  split <;> exact ⟨rfl, rfl⟩

theorem pcmHwMmapStatus_moves {p : PcmDevice} (h : p.Bare) (hfd : p.fd = true) (k : Kernel α) :
    (∃ more, Moves k (pcmHwMmapStatus p k).2.2 p.held (pcmHwMmapStatus p k).2.1.held more) ∧
      Opened p (pcmHwMmapStatus p k).2.1 ∧ (pcmHwMmapStatus p k).2.1.fd = p.fd ∧
      (pcmHwMmapStatus p k).2.1.mmapBuffer = p.mmapBuffer := by
  have hopen := fd_mem_held hfd
  have hstatus : (k.call p.id .mapStatus).2.log =
    k.log ++ [⟨p.id, .mapStatus, (k.call p.id .mapStatus).1.errno⟩] := rfl
  unfold pcmHwMmapStatus
  rw [if_neg (by simp [h.syncPtr])]
  dsimp only
  split
  case isTrue herr =>
    have hbare : { p with mmapStatus := false }.Bare := ⟨h.syncPtr, rfl, h.mmapControl⟩
    have hfailed : Moves k (k.call p.id .mapStatus).2 p.held { p with mmapStatus := false }.held
        [⟨p.id, .mapStatus, (k.call p.id .mapStatus).1.errno⟩] := by
      refine moves_one _ hstatus rfl ?_ ?_
      · simp [Syscall.uses, herr, DisciplinedFrom, Legal, hopen]
      · simp [Syscall.uses, herr, outstandingFrom, after, PcmDevice.held, h.mmapStatus]
    obtain ⟨more, hmore⟩ := syncStatus_moves hbare hfd (k.call p.id .mapStatus).2
    have hbegun : Opened p { p with mmapStatus := false } :=
      ⟨rfl, rfl, rfl, rfl, rfl, rfl, .inr⟩
    exact ⟨⟨_, hfailed.trans hmore⟩, hbegun.trans (syncStatus_opened _ _), syncStatus_device _ _⟩
  case isFalse herr =>
    rw [not_not] at herr
    have hmapped : Moves k (k.call p.id .mapStatus).2 p.held { p with mmapStatus := true }.held
        [⟨p.id, .mapStatus, (k.call p.id .mapStatus).1.errno⟩] := by
      refine moves_one _ hstatus rfl ?_ ?_
      · simp [Syscall.uses, herr, DisciplinedFrom, Legal, hopen]
      · simp [Syscall.uses, herr, outstandingFrom, after, PcmDevice.held, h.syncPtr,
          h.mmapStatus, h.mmapControl]
    generalize (k.call p.id .mapStatus).2 = k₁ at hmapped ⊢
    have hcontrol : (k₁.call p.id .mapControl).2.log =
      k₁.log ++ [⟨p.id, .mapControl, (k₁.call p.id .mapControl).1.errno⟩] := rfl
    have hopen : (⟨p.id, .fd⟩ : PcmObject) ∈ { p with mmapStatus := true }.held :=
      fd_mem_held (p := { p with mmapStatus := true }) hfd
    split
    case isTrue herr =>
      have hbare : { p with mmapStatus := false, mmapControl := false }.Bare :=
        ⟨h.syncPtr, rfl, rfl⟩
      have hfailed : Moves k₁ (k₁.call p.id .mapControl).2 { p with mmapStatus := true }.held
          { p with mmapStatus := true }.held
          [⟨p.id, .mapControl, (k₁.call p.id .mapControl).1.errno⟩] := by
        refine moves_one _ hcontrol rfl ?_ ?_
        · simp [Syscall.uses, herr, DisciplinedFrom, Legal, hopen]
        · simp [Syscall.uses, herr, outstandingFrom, after]
      have hunmapped : Moves (k₁.call p.id .mapControl).2
          ((k₁.call p.id .mapControl).2.note p.id .unmapStatus) { p with mmapStatus := true }.held
          { p with mmapStatus := false, mmapControl := false }.held
          [⟨p.id, .unmapStatus, 0⟩] := by
        refine moves_one _ rfl rfl ?_ ?_
        · simp [Syscall.uses, DisciplinedFrom, Legal, after, PcmDevice.held, h.syncPtr]
        · simp [Syscall.uses, outstandingFrom, after, PcmDevice.held, h.syncPtr, h.mmapControl]
      obtain ⟨more, hmore⟩ := syncStatus_moves hbare hfd
        ((k₁.call p.id .mapControl).2.note p.id .unmapStatus)
      have hbegun : Opened p { p with mmapStatus := false, mmapControl := false } :=
        ⟨rfl, rfl, rfl, rfl, rfl, rfl, .inr⟩
      exact ⟨⟨_, ((hmapped.trans hfailed).trans hunmapped).trans hmore⟩,
        hbegun.trans (syncStatus_opened _ _), syncStatus_device _ _⟩
    case isFalse herr =>
      rw [not_not] at herr
      have hcontrolled : Moves k₁ (k₁.call p.id .mapControl).2 { p with mmapStatus := true }.held
          { p with mmapStatus := true, mmapControl := true }.held
          [⟨p.id, .mapControl, (k₁.call p.id .mapControl).1.errno⟩] := by
        refine moves_one _ hcontrol rfl ?_ ?_
        · simp [Syscall.uses, herr, DisciplinedFrom, Legal, hopen]
        · simp [Syscall.uses, herr, outstandingFrom, after, PcmDevice.held, h.syncPtr,
            h.mmapControl]
      exact ⟨⟨_, hmapped.trans hcontrolled⟩, ⟨rfl, rfl, rfl, rfl, rfl, rfl, .inr⟩, rfl, rfl⟩

theorem mapStatus_stage {p : PcmDevice} (h : p.Bare) (hfd : p.fd = true)
    (hbuffer : p.mmapBuffer = p.flags.mmap) (k : Kernel α) : Stage p k (mapStatus p k) := by
  obtain ⟨⟨more, hmoves⟩, hopened, hdevice, hmapped⟩ := pcmHwMmapStatus_moves h hfd k
  unfold mapStatus
  generalize pcmHwMmapStatus p k = done at hmoves hopened hdevice hmapped ⊢
  obtain ⟨r, q, k₁⟩ := done
  dsimp only at hmoves hopened hdevice hmapped ⊢
  have hbuffer : q.mmapBuffer = q.flags.mmap := by rw [hmapped, hopened.flags, hbuffer]
  split
  · exact (fail_after (hdevice.trans hfd) hbuffer (.nothing k₁ q.held) r _).after hmoves hopened
  · exact (setTimestamp_stage (hdevice.trans hfd) hbuffer k₁).after hmoves hopened

theorem setSwParams_stage {p : PcmDevice} (h : p.Bare) (hfd : p.fd = true)
    (hbuffer : p.mmapBuffer = p.flags.mmap) (config : PcmConfig) (k : Kernel α) :
    Stage p k (setSwParams p config k) := by
  have hbegun : Opened p (setThresholds p config) := ⟨rfl, rfl, rfl, rfl, rfl, rfl, .inr⟩
  have hheld := moves_same (k := k) (p := p) (q := setThresholds p config) rfl
  have hbare : (setThresholds p config).Bare := ⟨h.syncPtr, h.mmapStatus, h.mmapControl⟩
  have hasked := moves_ioctl (p := setThresholds p config) hfd k
    (c := .swParams (setThresholds p config).config.startThreshold
      (setThresholds p config).config.stopThreshold config.silenceThreshold
      (setThresholds p config).bufferSize) rfl rfl
  unfold setSwParams
  dsimp only
  split
  · exact (fail_after (p := setThresholds p config) hfd hbuffer hasked _ _).after hheld hbegun
  · exact ((mapStatus_stage (p := setThresholds p config) hbare hfd hbuffer _).after hasked
      (.refl _)).after hheld hbegun

theorem mapBuffer_stage {p : PcmDevice} (h : p.Bare) (hfd : p.fd = true)
    (hbuffer : p.mmapBuffer = false) (config : PcmConfig) (k : Kernel α) :
    Stage p k (mapBuffer p config k) := by
  have hopen := fd_mem_held hfd
  have hasked : (k.call p.id .mapBuffer).2.log =
    k.log ++ [⟨p.id, .mapBuffer, (k.call p.id .mapBuffer).1.errno⟩] := rfl
  unfold mapBuffer
  split
  case isTrue hmmap =>
    dsimp only
    split
    case isTrue herr =>
      refine failClose_after hfd hbuffer (moves_one _ hasked rfl ?_ ?_) _ _
      · simp [Syscall.uses, herr, DisciplinedFrom, Legal, hopen]
      · simp [Syscall.uses, herr, outstandingFrom, after]
    case isFalse herr =>
      rw [not_not] at herr
      have hbegun : Opened p { p with mmapBuffer := true } :=
        ⟨rfl, rfl, rfl, rfl, rfl, rfl, fun _ => .inl hmmap⟩
      have hbare : { p with mmapBuffer := true }.Bare := ⟨h.syncPtr, h.mmapStatus, h.mmapControl⟩
      refine (setSwParams_stage hbare hfd hmmap.symm config _).after (moves_one _ hasked rfl ?_ ?_)
        hbegun
      · simp [Syscall.uses, herr, DisciplinedFrom, Legal, hopen]
      · simp [Syscall.uses, herr, outstandingFrom, after, PcmDevice.held, h.syncPtr, h.mmapStatus,
          h.mmapControl, hfd, hbuffer]
  case isFalse hmmap =>
    exact setSwParams_stage h hfd (hbuffer.trans (Bool.eq_false_iff.mpr hmmap).symm) config k

theorem setHwParams_stage {p : PcmDevice} (h : p.Bare) (hfd : p.fd = true)
    (hbuffer : p.mmapBuffer = false) (config : PcmConfig) (k : Kernel α) :
    Stage p k ((setHwParams p config k).1, (setHwParams p config k).2.2) := by
  unfold setHwParams
  split
  case isTrue hnoirq =>
    have hmmap : p.flags.mmap = false := by
      rw [Bool.and_eq_true, Bool.not_eq_true'] at hnoirq
      exact hnoirq.2
    exact fail_after hfd (hbuffer.trans hmmap.symm) (.nothing k p.held) _ _
  case isFalse =>
    dsimp only
    generalize hq : (if p.flags.noirq then
      { p with noirqFramesPerMsec := config.rate / 1000 } else p) = q
    have hbegun : Opened p q := by
      subst hq
      split <;> exact ⟨rfl, rfl, rfl, rfl, rfl, rfl, .inr⟩
    have hheld : q.held = p.held ∧ q.fd = true ∧ q.mmapBuffer = false ∧ q.Bare := by
      subst hq
      split
      · exact ⟨rfl, hfd, hbuffer, ⟨h.1, h.2, h.3⟩⟩
      · exact ⟨rfl, hfd, hbuffer, h⟩
    obtain ⟨hheld, hqfd, hqbuffer, hbare⟩ := hheld
    have hsame := moves_same (k := k) hheld
    have hasked := moves_ioctl hqfd k (c := .hwParams config q.flags) rfl rfl
    split
    case isTrue => exact (failClose_after hqfd hqbuffer hasked _ _).after hsame hbegun
    case isFalse =>
      have hmapped : ∀ bufferSize config (k' : Kernel α), Stage q k'
          (mapBuffer { q with bufferSize := bufferSize } config k') := by
        intro bufferSize config k'
        exact (mapBuffer_stage (p := { q with bufferSize := bufferSize })
          ⟨hbare.1, hbare.2, hbare.3⟩ hqfd hqbuffer config k').after (moves_same rfl)
          ⟨rfl, rfl, rfl, rfl, rfl, rfl, .inr⟩
      exact ((hmapped _ _ _).after hasked (.refl q)).after hsame hbegun

/-- What `pcm_open` gives: nothing is held for `bad_pcm`, and a PCM holds what it says. -/
structure Opens (id : Nat) (flags : PcmFlags) (config : PcmConfig) (k : Kernel α)
    (done : Option PcmDevice × PcmConfig × Kernel α) (more : List (Entry α)) : Prop where
  log : done.2.2.log = k.log ++ more
  disciplined : DisciplinedFrom [] (uses more)
  outstanding : outstandingFrom [] (uses more) = done.1.elim [] PcmDevice.held
  silent : taken more = []
  device : ∀ d, ∃ d', run deviceStep d more = some d' ∧ ∀ p, done.1 = some p → d' = .setup
  opened : ∀ p, done.1 = some p → Opened (newPcm id flags config) p

theorem openedDevice_opens {id : Nat} {flags : PcmFlags} {config config' : PcmConfig}
    {k k₂ : Kernel α} {name : String} {done : PcmDevice × Kernel α}
    (hlog : k₂.log = k.log ++ [⟨id, .calloc, 0⟩, ⟨id, .openDevice name, 0⟩])
    (h : Stage { newPcm id flags config with fd := true } k₂ done) :
    ∃ more, Opens id flags config k (some done.1, config', done.2) more := by
  obtain ⟨⟨rest, hrest⟩, hopened⟩ := h
  obtain ⟨first, hfirst⟩ : ∃ first : List (Entry α),
    first = [⟨id, .calloc, 0⟩, ⟨id, .openDevice name, 0⟩] := ⟨_, rfl⟩
  have hdisciplined : DisciplinedFrom [] (uses first) := by
    simp [hfirst, uses, Syscall.uses, DisciplinedFrom, Legal, after]
  have hout : outstandingFrom [] (uses first) =
      ({ newPcm id flags config with fd := true } : PcmDevice).held := by
    simp [hfirst, uses, Syscall.uses, outstandingFrom, after, PcmDevice.held, newPcm]
  have hsilent : taken first = [] := by
    rw [hfirst]
    rfl
  have hdevice : ∀ d, run deviceStep d first = some .setup := by
    intro d
    rw [hfirst]
    rfl
  refine ⟨first ++ rest, ?_, ?_, ?_, ?_, ?_, ?_⟩
  · change done.2.log = _
    rw [hrest.log, hlog, hfirst, List.append_assoc]
  · rw [uses_append, disciplinedFrom_append, hout]
    exact ⟨hdisciplined, hrest.disciplined⟩
  · rw [uses_append, outstandingFrom_append, hout]
    exact hrest.outstanding
  · rw [taken_append, hsilent, hrest.silent]
    rfl
  · intro d
    rw [run_append, hdevice]
    exact ⟨.setup, hrest.quiet .setup, fun _ _ => rfl⟩
  · rintro p ⟨⟩
    exact ⟨hopened.id, hopened.flags, hopened.channels, hopened.format, hopened.prepared,
      hopened.running, hopened.mapped⟩

/-- All stages of the open, whichever of them fails. -/
theorem pcmOpen_opens (id card device : Nat) (flags : PcmFlags) (config : PcmConfig)
    (k : Kernel α) : ∃ more, Opens id flags config k (pcmOpen id card device flags config k) more := by
  have hgot : (k.call id .calloc).2.log =
    k.log ++ [⟨id, .calloc, (k.call id .calloc).1.errno⟩] := rfl
  unfold pcmOpen
  dsimp only
  split
  case isTrue herr =>
    refine ⟨_, hgot, ?_, ?_, ?_, fun d => ⟨d, ?_, by simp⟩, by simp⟩
    · simp [uses, Syscall.uses, herr, DisciplinedFrom]
    · simp [uses, Syscall.uses, herr, outstandingFrom]
    · simp [taken]
    · simp [deviceStep]
  case isFalse herr =>
    rw [not_not] at herr
    rw [herr] at hgot
    generalize (k.call id .calloc).2 = k₁ at hgot ⊢
    generalize hname : deviceName card device flags.capture = name
    have hasked : (k₁.call id (.openDevice name)).2.log = k.log ++
        [⟨id, .calloc, 0⟩, ⟨id, .openDevice name, (k₁.call id (.openDevice name)).1.errno⟩] := by
      change k₁.log ++ _ = _
      rw [hgot, List.append_assoc]
      rfl
    split
    case isTrue herr =>
      refine ⟨_, hasked, ?_, ?_, ?_, fun d => ⟨.setup, ?_, fun _ _ => rfl⟩, ?_⟩
      · simp [uses, Syscall.uses, herr, DisciplinedFrom, Legal, after]
      · simp [uses, Syscall.uses, herr, outstandingFrom, after, PcmDevice.held, oops, newPcm]
      · simp [taken]
      · simp [deviceStep]
      · rintro p ⟨⟩
        exact ⟨rfl, rfl, rfl, rfl, rfl, rfl, .inr⟩
    case isFalse herr =>
      rw [not_not] at herr
      rw [herr] at hasked
      generalize (k₁.call id (.openDevice name)).2 = k₂ at hasked ⊢
      have hinfo := moves_ioctl (p := { newPcm id flags config with fd := true }) rfl k₂
        (c := .info) rfl rfl
      split
      case isTrue =>
        exact openedDevice_opens hasked (failClose_after
          (p := { newPcm id flags config with fd := true }) rfl rfl hinfo _ _)
      case isFalse =>
        exact openedDevice_opens hasked ((setHwParams_stage
          (p := { newPcm id flags config with fd := true }) ⟨rfl, rfl, rfl⟩ rfl rfl config _).after
            hinfo (.refl _))

/-- Unmapping gives back the page or the allocated block. -/
theorem pcmHwMunmapStatus_moves (p : PcmDevice) (k : Kernel α) :
    ∃ more, Moves k (pcmHwMunmapStatus p k).2 p.held (pcmHwMunmapStatus p k).1.held more := by
  have hmemory := memory_mem_held p
  cases hs : p.syncPtr with
  | true =>
    refine ⟨_, moves_one ⟨p.id, .freeSync, 0⟩ ?_ rfl ?_ ?_⟩
    · simp [pcmHwMunmapStatus, hs, Kernel.note]
    · simp [Syscall.uses, DisciplinedFrom, Legal, after, PcmDevice.held, hs]
    · simp [Syscall.uses, outstandingFrom, after, PcmDevice.held, pcmHwMunmapStatus, hs]
  | false =>
    have hstatus : ∃ more, Moves k (if p.mmapStatus then k.note p.id .unmapStatus else k) p.held
        { p with mmapStatus := false }.held more := by
      cases hm : p.mmapStatus with
      | false => exact ⟨_, moves_same (by simp [PcmDevice.held, hs, hm])⟩
      | true =>
        refine ⟨_, moves_one ⟨p.id, .unmapStatus, 0⟩ rfl rfl ?_ ?_⟩
        · simp [Syscall.uses, DisciplinedFrom, Legal, after, PcmDevice.held, hs, hm]
        · cases hc : p.mmapControl <;>
            simp [Syscall.uses, outstandingFrom, after, PcmDevice.held, hs, hm, hc]
    obtain ⟨more, hstatus⟩ := hstatus
    generalize hk : (if p.mmapStatus then k.note p.id .unmapStatus else k) = k₁ at hstatus
    have hcontrol : ∃ more, Moves k₁ (pcmHwMunmapStatus p k).2 { p with mmapStatus := false }.held
        (pcmHwMunmapStatus p k).1.held more := by
      simp only [pcmHwMunmapStatus, hs, hk, Bool.false_eq_true, if_false]
      cases p.mmapControl with
      | false => exact ⟨_, moves_same (by simp [PcmDevice.held])⟩
      | true =>
        refine ⟨_, moves_one ⟨p.id, .unmapControl, 0⟩ rfl rfl ?_ ?_⟩
        · simp [Syscall.uses, DisciplinedFrom, Legal, after, PcmDevice.held]
        · simp [Syscall.uses, outstandingFrom, after, PcmDevice.held]
    obtain ⟨rest, hcontrol⟩ := hcontrol
    exact ⟨_, hstatus.trans hcontrol⟩

/-- Closing gives back all that is held. It is right unless the buffer is unmapped again. -/
structure Closes (p : PcmDevice) (k k' : Kernel α) (more : List (Entry α)) : Prop where
  log : k'.log = k.log ++ more
  disciplined : DisciplinedFrom p.held (uses more) ↔ (p.mmapBuffer && !p.fd) = false
  outstanding : outstandingFrom p.held (uses more) = []
  silent : taken more = []
  device : ∀ d, ∃ d', run deviceStep d more = some d'

/-- Calls before the close that leave the same objects held. -/
theorem Closes.after {p q : PcmDevice} {k k₁ k' : Kernel α} {before more : List (Entry α)}
    (h : Closes q k₁ k' more) (hlog : k₁.log = k.log ++ before)
    (hdisciplined : DisciplinedFrom p.held (uses before))
    (hout : outstandingFrom p.held (uses before) = q.held) (hsilent : taken before = [])
    (hdevice : ∀ d, ∃ d', run deviceStep d before = some d') (hfd : q.fd = p.fd)
    (hbuffer : q.mmapBuffer = p.mmapBuffer) : Closes p k k' (before ++ more) where
  log := by
    rw [h.log, hlog, List.append_assoc]
  disciplined := by
    rw [uses_append, disciplinedFrom_append, hout, h.disciplined, hfd, hbuffer]
    exact and_iff_right hdisciplined
  outstanding := by
    rw [uses_append, outstandingFrom_append, hout, h.outstanding]
  silent := by
    rw [taken_append, hsilent, h.silent]
    rfl
  device d := by
    obtain ⟨d₁, hd₁⟩ := hdevice d
    obtain ⟨d₂, hd₂⟩ := h.device d₁
    exact ⟨d₂, by rw [run_append, hd₁]; exact hd₂⟩

/-- The last part: the buffer, the device, the memory. -/
theorem release_closes {q : PcmDevice} (hbare : q.Bare)
    (hmapped : q.mmapBuffer = true → q.flags.mmap = true) (k : Kernel α) :
    ∃ more, Closes q k
      ((if q.fd then (if q.flags.mmap then munmapBuffer q k else k).note q.id .closeDevice
        else if q.flags.mmap then munmapBuffer q k else k).note q.id .free) more := by
  obtain ⟨hsync, hstatus, hcontrol⟩ := hbare
  cases hbuffer : q.mmapBuffer with
  | true =>
    simp only [munmapBuffer, hbuffer, hmapped hbuffer, if_true]
    cases hfd : q.fd with
    | true =>
      refine ⟨[⟨q.id, .unmapBuffer, 0⟩, ⟨q.id, .closeDevice, 0⟩, ⟨q.id, .free, 0⟩], ?_, ?_, ?_, rfl,
        fun d => ⟨d, rfl⟩⟩
      · simp [Kernel.note]
      · simp [uses, Syscall.uses, DisciplinedFrom, Legal, after, PcmDevice.held, hsync, hstatus,
          hcontrol, hbuffer, hfd]
      · simp [uses, Syscall.uses, outstandingFrom, after, PcmDevice.held, hsync, hstatus,
          hcontrol, hbuffer, hfd]
    | false =>
      refine ⟨[⟨q.id, .unmapBuffer, 0⟩, ⟨q.id, .free, 0⟩], ?_, ?_, ?_, rfl, fun d => ⟨d, rfl⟩⟩
      · simp [Kernel.note]
      · simp [uses, Syscall.uses, DisciplinedFrom, Legal, after, PcmDevice.held, hsync, hstatus,
          hcontrol, hbuffer, hfd]
      · simp [uses, Syscall.uses, outstandingFrom, after, PcmDevice.held, hsync, hstatus,
          hcontrol, hbuffer, hfd]
  | false =>
    have hnone : (if q.flags.mmap then munmapBuffer q k else k) = k := by
      simp [munmapBuffer, hbuffer]
    rw [hnone]
    cases hfd : q.fd with
    | true =>
      refine ⟨[⟨q.id, .closeDevice, 0⟩, ⟨q.id, .free, 0⟩], ?_, ?_, ?_, rfl, fun d => ⟨d, rfl⟩⟩
      · simp [Kernel.note]
      · simp [uses, Syscall.uses, DisciplinedFrom, Legal, after, PcmDevice.held, hsync, hstatus,
          hcontrol, hbuffer, hfd]
      · simp [uses, Syscall.uses, outstandingFrom, after, PcmDevice.held, hsync, hstatus,
          hcontrol, hbuffer, hfd]
    | false =>
      refine ⟨[⟨q.id, .free, 0⟩], ?_, ?_, ?_, rfl, fun d => ⟨d, rfl⟩⟩
      · simp [Kernel.note]
      · simp [uses, Syscall.uses, DisciplinedFrom, Legal, PcmDevice.held, hsync, hstatus,
          hcontrol, hbuffer, hfd]
      · simp [uses, Syscall.uses, outstandingFrom, after, PcmDevice.held, hsync, hstatus,
          hcontrol, hbuffer, hfd]

/-- A stop is one command to the device. -/
theorem pcmStop_log (p : PcmDevice) (k : Kernel α) :
    (pcmStop p k).2.2.log = k.log ++ spoken p k .drop := by
  unfold pcmStop
  dsimp only
  split <;> exact ioctl_log p k .drop

/-- Everything a handle holds is given back, once. -/
theorem pcmClose_closes {p : PcmDevice} (hmapped : p.mmapBuffer = true → p.flags.mmap = true)
    (k : Kernel α) : ∃ more, Closes p k (pcmClose p k) more := by
  obtain ⟨before, hbefore⟩ := pcmHwMunmapStatus_moves p k
  have hbare : (pcmHwMunmapStatus p k).1.Bare := ⟨rfl, rfl, rfl⟩
  have hfd : (pcmHwMunmapStatus p k).1.fd = p.fd := rfl
  have hbuffer : (pcmHwMunmapStatus p k).1.mmapBuffer = p.mmapBuffer := rfl
  have hmmap : (pcmHwMunmapStatus p k).1.flags.mmap = p.flags.mmap := rfl
  unfold pcmClose
  generalize pcmHwMunmapStatus p k = done at hbefore hbare hfd hbuffer hmmap ⊢
  obtain ⟨q, k₁⟩ := done
  dsimp only at hbefore hbare hfd hbuffer hmmap ⊢
  rw [← hbuffer, ← hmmap] at hmapped
  have hmid : ∃ more, Closes q k₁ ((if q.fd then
      (if q.flags.mmap then munmapBuffer q (pcmStop q k₁).2.2 else k₁).note q.id .closeDevice
      else if q.flags.mmap then munmapBuffer q (pcmStop q k₁).2.2 else k₁).note q.id .free) more := by
    cases hflag : q.flags.mmap with
    | false =>
      have hreleased := release_closes hbare hmapped k₁
      rw [hflag] at hreleased
      exact hreleased
    | true =>
      obtain ⟨more, hreleased⟩ := release_closes hbare hmapped (pcmStop q k₁).2.2
      rw [hflag] at hreleased
      obtain ⟨hdisciplined, hout⟩ := speaks_held (spoken_speaks (p := q) (k := k₁)
        (c := .drop) (.inl rfl))
      refine ⟨_, hreleased.after (pcmStop_log q k₁) hdisciplined hout ?_ ?_ rfl rfl⟩
      · cases hopen : q.fd <;> simp [spoken, hopen, taken]
      · intro d
        cases hopen : q.fd <;> simp [spoken, hopen, deviceStep]
  obtain ⟨more, hmid⟩ := hmid
  exact ⟨_, hmid.after hbefore.log hbefore.disciplined hbefore.outstanding hbefore.silent
    (fun d => ⟨d, hbefore.quiet d⟩) hfd hbuffer⟩

end Holding

section Runs

def Client.held (s : Client α) : List PcmObject := s.pcm.elim [] PcmDevice.held

def Client.Agrees (s : Client α) (d : DeviceState) : Prop :=
  ∀ p, s.pcm = some p → d = p.state s.lost

/-- The PCM's own invariant: its marks, and that only a mapped PCM has a buffer. -/
def Client.Ok (s : Client α) : Prop :=
  ∀ p, s.pcm = some p → p.Marked s.lost ∧ (p.mmapBuffer = true → p.flags.mmap = true)

/-- One call of the client and what it adds to the log. -/
structure Stepped (s : Client α) (c : PcmCall α × List Answer) (t : Client α)
    (more : List (Entry α)) : Prop where
  log : t.kernel.log = s.kernel.log ++ more
  disciplined : DisciplinedFrom s.held (uses more) ↔ remaps s c = false
  outstanding : outstandingFrom s.held (uses more) = t.held
  lost : rewrites s c = true → ∀ d, s.Agrees d → run deviceStep d more = none
  device : rewrites s c = false → ∀ d, s.Agrees d →
    ∃ d', run deviceStep d more = some d' ∧ t.Agrees d'
  ok : t.Ok

/-- A mark stays right when nothing was lost. -/
theorem PcmDevice.Marked.unlost {p : PcmDevice} {lost : Bool} (h : p.Marked lost) :
    p.Marked false := ⟨h.prepared, h.fd, nofun⟩

/-- A call that talks to the device, but is no write after a lost one. -/
theorem stepped_talks {s t : Client α} {c : PcmCall α × List Answer} {p q : PcmDevice}
    {more : List (Entry α)} (hp : s.pcm = some p) (hq : t.pcm = some q)
    (hmapped : p.mmapBuffer = true → p.flags.mmap = true)
    (h : Talks p { s.kernel with answers := c.2 } s.lost q t.kernel t.lost more)
    (hremaps : remaps s c = false) (hrewrites : rewrites s c = false) : Stepped s c t more := by
  obtain ⟨hdisciplined, hout⟩ := speaks_held h.speaks
  have hs : s.held = p.held := by rw [Client.held, hp]; rfl
  have ht : t.held = p.held := by rw [Client.held, hq]; exact h.same.held
  refine ⟨h.log, ?_, ?_, ?_, ?_, ?_⟩
  · rw [hs]
    exact iff_of_true hdisciplined hremaps
  · rw [hs, ht]
    exact hout
  · intro hrewrites'
    rw [hrewrites] at hrewrites'
    cases hrewrites'
  · intro _ d hd
    refine ⟨q.state t.lost, ?_, ?_⟩
    · rw [hd p hp]
      exact h.device
    · intro q' hq'
      cases hq.symm.trans hq'
      rfl
  · intro q' hq'
    cases hq.symm.trans hq'
    refine ⟨h.marked, ?_⟩
    rw [h.same.mmapBuffer, h.same.flags]
    exact hmapped

/-- A write after a lost one goes to a device that nobody has prepared. -/
theorem lostWrite_log {p : PcmDevice} (h : p.Marked true) (data : List α) (k : Kernel α) :
    ∃ errno, (pcmWrite p data k).2.2.log =
        k.log ++ [⟨p.id, .writei (p.config.whole data), errno⟩] ∧
      p.Same (pcmWrite p data k).2.1 ∧
      (pcmWrite p data k).2.1.Marked
        ((pcmWrite p data k).2.1.prepared && (pcmWrite p data k).1 ≠ 0) := by
  obtain ⟨hplayback, hprepared, hrunning⟩ := h.lost rfl
  have hfd := h.fd hprepared
  have hlog := ioctl_log p k (.writei (p.config.whole data))
  rw [spoken, if_pos hfd] at hlog
  unfold pcmWrite pcmWriteLoop pcmPrepare
  rw [if_neg (by simp [hplayback]), if_pos (by simp [hrunning]), if_pos hprepared]
  dsimp only
  rw [if_neg (by simp)]
  split
  case isTrue =>
    refine ⟨_, hlog, ⟨rfl, rfl, rfl, rfl, rfl, rfl, rfl⟩, h.prepared, h.fd, fun _ => ?_⟩
    exact ⟨hplayback, hprepared, hrunning⟩
  case isFalse =>
    exact ⟨_, hlog, ⟨rfl, rfl, rfl, rfl, rfl, rfl, rfl⟩, fun _ => hprepared, h.fd, by simp⟩

theorem stepped_opens {s t : Client α} {card device : Nat} {flags : PcmFlags} {config : PcmConfig}
    {answers : List Answer} (hnone : s.pcm = none)
    (hstep : pcmStep s (.opens card device flags config, answers) = some t)
    (hrewrites : rewrites s (.opens card device flags config, answers) = false) :
    ∃ more, Stepped s (.opens card device flags config, answers) t more := by
  obtain ⟨more, h⟩ := pcmOpen_opens s.opened card device flags config
    { s.kernel with answers := answers }
  simp only [pcmStep, hnone, Option.some.injEq] at hstep
  subst hstep
  generalize pcmOpen s.opened card device flags config { s.kernel with answers := answers } = done at h
  obtain ⟨p, config', k⟩ := done
  have hs : s.held = [] := by rw [Client.held, hnone]; rfl
  refine ⟨more, h.log, ?_, ?_, ?_, ?_, ?_⟩
  · rw [hs]
    exact iff_of_true h.disciplined rfl
  · rw [hs]
    exact h.outstanding
  · intro hrewrites'
    rw [hrewrites] at hrewrites'
    cases hrewrites'
  · intro _ d _
    obtain ⟨d', hd', hsetup⟩ := h.device d
    refine ⟨d', hd', ?_⟩
    intro q hq
    have hopened := h.opened q hq
    rw [hsetup q hq, PcmDevice.state, hopened.running, hopened.prepared]
    rfl
  · intro q hq
    have hopened := h.opened q hq
    have hprepared : q.prepared = false := hopened.prepared
    have hrunning : q.running = false := hopened.running
    refine ⟨⟨by simp [hrunning], by simp [hprepared], by simp⟩, ?_⟩
    intro hbuffer
    rw [hopened.flags]
    exact (hopened.mapped hbuffer).resolve_right (by simp [newPcm])

theorem stepped_close {s t : Client α} {p : PcmDevice} {answers : List Answer} (hok : s.Ok)
    (hp : s.pcm = some p) (hstep : pcmStep s (.close, answers) = some t) :
    ∃ more, Stepped s (.close, answers) t more := by
  obtain ⟨more, h⟩ := pcmClose_closes (hok p hp).2 { s.kernel with answers := answers }
  simp only [pcmStep, hp, Option.some.injEq] at hstep
  subst hstep
  have hs : s.held = p.held := by rw [Client.held, hp]; rfl
  have hnowrite : rewrites s (.close, answers) = false := by simp [rewrites]
  refine ⟨more, h.log, ?_, ?_, ?_, ?_, ?_⟩
  · rw [hs, h.disciplined]
    simp [remaps, hp]
  · rw [hs]
    exact h.outstanding
  · intro hrewrites
    rw [hnowrite] at hrewrites
    cases hrewrites
  · intro _ d _
    obtain ⟨d', hd'⟩ := h.device d
    refine ⟨d', hd', ?_⟩
    intro q hq
    exact absurd hq (by simp)
  · intro q hq
    exact absurd hq (by simp)

theorem stepped_write {s t : Client α} {p : PcmDevice} {data : List α} {answers : List Answer}
    (hok : s.Ok) (hp : s.pcm = some p) (hstep : pcmStep s (.write data, answers) = some t) :
    ∃ more, Stepped s (.write data, answers) t more := by
  obtain ⟨hmarked, hmapped⟩ := hok p hp
  simp only [pcmStep, hp, Option.some.injEq] at hstep
  have hremaps : remaps s (.write data, answers) = false := rfl
  cases hlost : s.lost with
  | true =>
    rw [hlost] at hmarked
    obtain ⟨errno, hlog, hsame, hafter⟩ := lostWrite_log hmarked data
      { s.kernel with answers := answers }
    obtain ⟨hplayback, hprepared, hrunning⟩ := hmarked.lost rfl
    have hspeaks : ∀ e ∈ [(⟨p.id, .writei (p.config.whole data), errno⟩ : Entry α)],
        Speaks p e := by
      intro e he
      rw [List.mem_singleton.mp he]
      exact ⟨rfl, hmarked.fd hprepared, .inl rfl⟩
    obtain ⟨hdisciplined, hout⟩ := speaks_held hspeaks
    have hs : s.held = p.held := by rw [Client.held, hp]; rfl
    subst hstep
    refine ⟨_, hlog, ?_, ?_, ?_, ?_, ?_⟩
    · rw [hs]
      exact iff_of_true hdisciplined hremaps
    · rw [hs]
      exact hout.trans hsame.held.symm
    · intro _ d hd
      rw [hd p hp, PcmDevice.state, hrunning, hprepared, hlost]
      rfl
    · intro hrewrites
      simp [rewrites, hlost] at hrewrites
    · rintro q ⟨⟩
      refine ⟨?_, ?_⟩
      · simpa [Client.got, hplayback] using hafter
      · rw [hsame.mmapBuffer, hsame.flags]
        exact hmapped
  | false =>
    have hrewrites : rewrites s (.write data, answers) = false := by simp [rewrites, hlost]
    subst hstep
    cases hplayback : p.flags.capture with
    | true =>
      have hnothing : pcmWrite p data { s.kernel with answers := answers } =
        (-(einval : Int), p, { s.kernel with answers := answers }) := by simp [pcmWrite, hplayback]
      have htalks := Talks.nothing hmarked { s.kernel with answers := answers }
      refine ⟨[], stepped_talks hp rfl hmapped ?_ hremaps hrewrites⟩
      rw [hnothing]
      simpa [Client.got, hlost] using htalks
    | false =>
      obtain ⟨more, h⟩ := pcmWrite_writes hmarked.unlost hplayback data
        { s.kernel with answers := answers }
      refine ⟨more, stepped_talks hp rfl hmapped ?_ hremaps hrewrites⟩
      simpa [Client.got, hlost] using h.talks

theorem pcmStep_stepped {s t : Client α} {c : PcmCall α × List Answer} (hok : s.Ok)
    (hstep : pcmStep s c = some t) : ∃ more, Stepped s c t more := by
  obtain ⟨call, answers⟩ := c
  cases hp : s.pcm with
  | none =>
    cases call with
    | opens card device flags config =>
      exact stepped_opens hp hstep (by simp [rewrites])
    | _ => simp [pcmStep, hp] at hstep
  | some p =>
    obtain ⟨hmarked, hmapped⟩ := hok p hp
    cases call with
    | opens card device flags config => simp [pcmStep, hp] at hstep
    | prepare =>
      obtain ⟨more, h⟩ := pcmPrepare_prepares hmarked { s.kernel with answers := answers }
      simp only [pcmStep, hp, Option.some.injEq] at hstep
      subst hstep
      exact ⟨more, stepped_talks hp rfl hmapped h.talks rfl (by simp [rewrites])⟩
    | start =>
      obtain ⟨more, h, -⟩ := pcmStart_talks hmarked { s.kernel with answers := answers }
      simp only [pcmStep, hp, Option.some.injEq] at hstep
      subst hstep
      exact ⟨more, stepped_talks hp rfl hmapped h rfl (by simp [rewrites])⟩
    | stop =>
      obtain ⟨more, h⟩ := pcmStop_talks hmarked { s.kernel with answers := answers }
      simp only [pcmStep, hp, Option.some.injEq] at hstep
      subst hstep
      exact ⟨more, stepped_talks hp rfl hmapped h rfl (by simp [rewrites])⟩
    | write data => exact stepped_write hok hp hstep
    | read count =>
      simp only [pcmStep, hp, Option.some.injEq] at hstep
      subst hstep
      have hlost : p.flags.capture = true → s.lost = false := by
        intro hcapture
        cases hlost : s.lost with
        | false => rfl
        | true => exact absurd hcapture (by simp [(hmarked.lost hlost).1])
      have htalks : ∃ more, Talks p { s.kernel with answers := answers } s.lost
          (pcmRead p count { s.kernel with answers := answers }).2.1
          (pcmRead p count { s.kernel with answers := answers }).2.2 s.lost more := by
        unfold pcmRead
        split
        case isTrue => exact ⟨[], .nothing hmarked _⟩
        case isFalse hcapture =>
          rw [hlost (by simpa using hcapture)]
          exact pcmReadLoop_talks _ _ hmarked.unlost _
      obtain ⟨more, h⟩ := htalks
      exact ⟨more, stepped_talks hp rfl hmapped h rfl (by simp [rewrites])⟩
    | close => exact stepped_close hok hp hstep

theorem newClient_ok : (newClient : Client α).Ok := by
  intro p hp
  simp [newClient] at hp

/-- All that the client has acquired and not given back is what its PCM holds. -/
theorem custody_step {s t : Client α} {c : PcmCall α × List Answer}
    (h : s.Ok ∧ outstanding (uses s.kernel.log) = s.held) (hstep : pcmStep s c = some t) :
    (t.Ok ∧ outstanding (uses t.kernel.log) = t.held) ∧
      (Disciplined (uses t.kernel.log) ↔ Disciplined (uses s.kernel.log) ∧ remaps s c = false) := by
  obtain ⟨more, hmore⟩ := pcmStep_stepped h.1 hstep
  refine ⟨⟨hmore.ok, ?_⟩, ?_⟩
  · rw [hmore.log, uses_append, outstanding_append, h.2, hmore.outstanding]
  · rw [hmore.log, uses_append, disciplined_append, h.2, hmore.disciplined]

/-- Whatever the kernel answers, an open PCM holds its memory, its device and its mappings, and
a closed one nothing. All is used while it is held and given back once, exactly if no PCM is
closed that failed to open with its buffer mapped. -/
theorem pcm_custody_iff {α : Type} (calls : List (PcmCall α × List Answer)) {t : Client α}
    (hrun : run pcmStep newClient calls = some t) :
    outstanding (uses t.kernel.log) = t.pcm.elim [] PcmDevice.held ∧
      (Disciplined (uses t.kernel.log) ↔
        Along pcmStep (fun s c _ => remaps s c = false) newClient calls) := by
  have hnew : (newClient : Client α).Ok ∧
    outstanding (uses (newClient : Client α).kernel.log) = (newClient : Client α).held :=
      ⟨newClient_ok, rfl⟩
  obtain ⟨⟨-, hheld⟩, hiff⟩ := along_iff (fun s => s.Ok ∧ outstanding (uses s.kernel.log) = s.held)
    (P := fun s : Client α => Disciplined (uses s.kernel.log))
    (fun s c t h hstep => custody_step (s := s) (c := c) (t := t) h hstep) hnew hrun
  refine ⟨hheld, ?_⟩
  rw [hiff]
  exact and_iff_right trivial

def stereoConfig : PcmConfig := ⟨2, 44100, 256, 4, .s16Le, 0, 0, 0⟩

/-- The software parameters are refused after the buffer has been mapped. -/
def lateFailure : List (PcmCall Nat × List Answer) :=
  [(.opens 0 0 ⟨false, true, false, false, false⟩ stereoConfig,
      [⟨0, 0, 0⟩, ⟨0, 0, 0⟩, ⟨0, 0, 0⟩, ⟨0, 256, 4⟩, ⟨0, 0, 0⟩, ⟨22, 0, 0⟩]), (.close, [])]

theorem lateFailure_unmaps_twice : ∃ t, run pcmStep newClient lateFailure = some t ∧
    ¬ Disciplined (uses t.kernel.log) ∧ outstanding (uses t.kernel.log) = [] := by
  obtain ⟨t, ht⟩ : ∃ t, run pcmStep newClient lateFailure = some t := by
    rw [← Option.isSome_iff_exists]
    decide +kernel
  have hclosed : (run pcmStep newClient lateFailure).bind (fun t => t.pcm) = none := by
    decide +kernel
  rw [ht] at hclosed
  have hpcm : t.pcm = none := hclosed
  obtain ⟨hheld, hiff⟩ := pcm_custody_iff lateFailure ht
  rw [hpcm] at hheld
  refine ⟨t, ht, ?_, hheld⟩
  rw [hiff]
  decide +kernel

/-- The device goes along with the commands of one call. -/
theorem device_step {s t : Client α} {c : PcmCall α × List Answer}
    (h : s.Ok ∧ ∀ d, run deviceStep .setup s.kernel.log = some d → s.Agrees d)
    (hstep : pcmStep s c = some t) :
    (t.Ok ∧ ∀ d, run deviceStep .setup t.kernel.log = some d → t.Agrees d) ∧
      ((run deviceStep .setup t.kernel.log).isSome = true ↔
        (run deviceStep .setup s.kernel.log).isSome = true ∧ rewrites s c = false) := by
  obtain ⟨hok, hagrees⟩ := h
  obtain ⟨more, hmore⟩ := pcmStep_stepped hok hstep
  have hlog : run deviceStep .setup t.kernel.log =
      (run deviceStep .setup s.kernel.log).bind fun d => run deviceStep d more := by
    rw [hmore.log, run_append]
  cases hbefore : run deviceStep .setup s.kernel.log with
  | none =>
    rw [hbefore] at hlog
    refine ⟨⟨hmore.ok, ?_⟩, ?_⟩
    · intro d hd
      rw [hlog] at hd
      cases hd
    · simp [hlog]
  | some d =>
    rw [hbefore] at hlog
    have hd := hagrees d hbefore
    cases hrewrites : rewrites s c with
    | true =>
      have hnone : run deviceStep .setup t.kernel.log = none := hlog.trans (hmore.lost hrewrites d hd)
      refine ⟨⟨hmore.ok, ?_⟩, by simp [hnone]⟩
      intro d' hd'
      rw [hnone] at hd'
      cases hd'
    | false =>
      obtain ⟨d', hd', hafter⟩ := hmore.device hrewrites d hd
      have hsome : run deviceStep .setup t.kernel.log = some d' := hlog.trans hd'
      refine ⟨⟨hmore.ok, ?_⟩, by simp [hsome]⟩
      intro e he
      cases hsome.symm.trans he
      exact hafter

/-- Every transfer finds the device prepared since the last one that failed, and every read finds
it running, exactly if no write follows one that failed as the first since `PREPARE`. Then the
marks of an open PCM say how its device stands. -/
theorem transfers_prepared_iff {α : Type} (calls : List (PcmCall α × List Answer)) {t : Client α}
    (hrun : run pcmStep newClient calls = some t) :
    ((run deviceStep .setup t.kernel.log).isSome = true ↔
        Along pcmStep (fun s c _ => rewrites s c = false) newClient calls) ∧
      ∀ d p, run deviceStep .setup t.kernel.log = some d → t.pcm = some p → d = p.state t.lost := by
  have hnew : (newClient : Client α).Ok ∧
      ∀ d, run deviceStep .setup (newClient : Client α).kernel.log = some d →
        (newClient : Client α).Agrees d := by
    refine ⟨newClient_ok, ?_⟩
    intro d _ p hp
    simp [newClient] at hp
  obtain ⟨⟨-, hagrees⟩, hiff⟩ := along_iff (fun s : Client α => s.Ok ∧
      ∀ d, run deviceStep .setup s.kernel.log = some d → s.Agrees d)
    (P := fun s => (run deviceStep .setup s.kernel.log).isSome = true)
    (fun s c t h hstep => device_step (s := s) (c := c) (t := t) h hstep) hnew hrun
  refine ⟨?_, fun d p hd hp => hagrees d hd p hp⟩
  rw [hiff]
  exact and_iff_right rfl

/-- The first write meets an underrun, and so does every write that the client makes after it. -/
def failedFirstWrite : List (PcmCall Nat × List Answer) :=
  [(.opens 0 0 ⟨false, false, false, false, false⟩ stereoConfig,
      [⟨0, 0, 0⟩, ⟨0, 0, 0⟩, ⟨0, 0, 0⟩, ⟨0, 256, 4⟩]),
    (.write [1, 2, 3, 4], [⟨0, 0, 0⟩, ⟨epipe, 0, 0⟩]), (.write [1, 2, 3, 4], [⟨epipe, 0, 0⟩])]

theorem failedFirstWrite_unprepared : ∃ t, run pcmStep newClient failedFirstWrite = some t ∧
    run deviceStep .setup t.kernel.log = none := by
  obtain ⟨t, ht⟩ : ∃ t, run pcmStep newClient failedFirstWrite = some t := by
    rw [← Option.isSome_iff_exists]
    decide +kernel
  refine ⟨t, ht, ?_⟩
  rw [← Option.not_isSome_iff_eq_none, (transfers_prepared_iff failedFirstWrite ht).1]
  decide +kernel

end Runs

end TinyAlsa
