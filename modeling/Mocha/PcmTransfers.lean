import Mocha.PcmDevice

/-!
# What a PCM says to its device

The flags `prepared` and `running` are the library's picture of the device. `PREPARE`,
`START`, `DROP` and the transfers move the device itself, and a failed transfer leaves it
to be prepared again. Each function of an open PCM is related to the calls that it makes.
-/
namespace TinyAlsa

open Transition

variable {α : Type}

section Device

/-- The device as the kernel has it, between `PREPARE`, the transfers and `DROP`. -/
inductive DeviceState where
  | setup
  | prepared
  | running
  deriving DecidableEq, Repr

/-- Frames go to a device that is prepared, and come from one that runs. -/
def deviceStep (d : DeviceState) (e : Entry α) : Option DeviceState :=
  match e.call with
  | .openDevice _ => some .setup
  | .prepare => some (if e.errno = 0 then .prepared else d)
  | .start => some (if e.errno = 0 then .running else d)
  | .drop => some (if e.errno = 0 then .setup else d)
  | .writei _ =>
    if d = .setup then none else some (if e.errno = 0 then .running else .setup)
  | .readi _ =>
    if d = .running then some (if e.errno = 0 then .running else .setup) else none
  | _ => some d

def PcmDevice.state (p : PcmDevice) (lost : Bool) : DeviceState :=
  if p.running then .running else if p.prepared && !lost then .prepared else .setup

/-- What the driver has taken of a log. -/
def taken (log : List (Entry α)) : List α :=
  log.flatMap fun e => match e.call with
    | .writei data => if e.errno = 0 then data else []
    | _ => []

theorem taken_append (log more : List (Entry α)) : taken (log ++ more) = taken log ++ taken more :=
  List.flatMap_append

/-- The two flags, and what they say of a device that is not open. -/
structure PcmDevice.Marked (p : PcmDevice) (lost : Bool) : Prop where
  prepared : p.running = true → p.prepared = true
  fd : p.prepared = true → p.fd = true
  lost : lost = true → p.flags.capture = false ∧ p.prepared = true ∧ p.running = false

def Syscall.plain : Syscall α → Bool
  | .info | .hwParams .. | .swParams .. | .ttstamp | .prepare | .start | .drop => true
  | .writei _ | .readi _ => true
  | _ => false

/-- A call that an open device takes and that changes nothing of what is held. -/
structure Speaks (p : PcmDevice) (e : Entry α) : Prop where
  pcm : e.pcm = p.id
  fd : p.fd = true
  call : e.call.plain = true ∨ e.call = .syncPtr ∧ p.syncPtr = true

/-- All that a transfer leaves alone. -/
structure PcmDevice.Same (p q : PcmDevice) : Prop where
  id : q.id = p.id
  fd : q.fd = p.fd
  flags : q.flags = p.flags
  config : q.config = p.config
  held : q.held = p.held
  mmapBuffer : q.mmapBuffer = p.mmapBuffer
  syncPtr : q.syncPtr = p.syncPtr

theorem PcmDevice.Same.refl (p : PcmDevice) : p.Same p := ⟨rfl, rfl, rfl, rfl, rfl, rfl, rfl⟩

theorem PcmDevice.Same.trans {p q r : PcmDevice} (h : p.Same q) (h' : q.Same r) : p.Same r where
  id := h'.id.trans h.id
  fd := h'.fd.trans h.fd
  flags := h'.flags.trans h.flags
  config := h'.config.trans h.config
  held := h'.held.trans h.held
  mmapBuffer := h'.mmapBuffer.trans h.mmapBuffer
  syncPtr := h'.syncPtr.trans h.syncPtr

theorem Speaks.same {p q : PcmDevice} {e : Entry α} (h : p.Same q) (he : Speaks q e) :
    Speaks p e where
  pcm := he.pcm.trans h.id
  fd := h.fd.symm.trans he.fd
  call := by
    rw [← h.syncPtr]
    exact he.call

/-- What a function of a PCM does: the calls that it makes, and what they do to the device. -/
structure Talks (p : PcmDevice) (k : Kernel α) (lost : Bool) (q : PcmDevice) (k' : Kernel α)
    (lost' : Bool) (more : List (Entry α)) : Prop where
  log : k'.log = k.log ++ more
  speaks : ∀ e ∈ more, Speaks p e
  same : p.Same q
  marked : q.Marked lost'
  device : run deviceStep (p.state lost) more = some (q.state lost')

theorem Talks.trans {p q r : PcmDevice} {k k' k'' : Kernel α} {lost lost' lost'' : Bool}
    {more more' : List (Entry α)} (h : Talks p k lost q k' lost' more)
    (h' : Talks q k' lost' r k'' lost'' more') :
    Talks p k lost r k'' lost'' (more ++ more') where
  log := by
    rw [h'.log, h.log, List.append_assoc]
  speaks := by
    intro e he
    rcases List.mem_append.mp he with he | he
    · exact h.speaks e he
    · exact (h'.speaks e he).same h.same
  same := h.same.trans h'.same
  marked := h'.marked
  device := by
    rw [run_append, h.device]
    exact h'.device

theorem Talks.nothing {p : PcmDevice} {lost : Bool} (h : p.Marked lost) (k : Kernel α) :
    Talks p k lost p k lost [] :=
  ⟨(List.append_nil k.log).symm, fun _ he => absurd he List.not_mem_nil, .refl p, h, rfl⟩

/-- The entry for a call on the file descriptor, if there is one. -/
def spoken (p : PcmDevice) (k : Kernel α) (c : Syscall α) : List (Entry α) :=
  if p.fd then [⟨p.id, c, (ioctl p k c).1.errno⟩] else []

/-- Every command is written down with its answer. -/
theorem ioctl_log (p : PcmDevice) (k : Kernel α) (c : Syscall α) :
    (ioctl p k c).2.log = k.log ++ spoken p k c := by
  cases hfd : p.fd <;> simp [ioctl, spoken, hfd, Kernel.call]

/-- On a closed file every command fails. -/
theorem ioctl_ebadf {p : PcmDevice} (k : Kernel α) (c : Syscall α) (hfd : p.fd = false) :
    (ioctl p k c).1.errno ≠ 0 := by
  simp [ioctl, hfd, ebadf]

theorem spoken_speaks {p : PcmDevice} {k : Kernel α} {c : Syscall α}
    (hc : c.plain = true ∨ c = .syncPtr ∧ p.syncPtr = true) : ∀ e ∈ spoken p k c, Speaks p e := by
  intro e he
  cases hfd : p.fd with
  | false => simp [spoken, hfd] at he
  | true =>
    obtain rfl : e = _ := by simpa [spoken, hfd] using he
    exact ⟨rfl, hfd, hc⟩

/-- One call, and what the PCM makes of the answer. -/
theorem talks_ioctl {p q : PcmDevice} {k : Kernel α} {c : Syscall α} {lost lost' : Bool}
    (hc : c.plain = true ∨ c = .syncPtr ∧ p.syncPtr = true) (hsame : p.Same q)
    (hmarked : q.Marked lost')
    (hdevice : run deviceStep (p.state lost) (spoken p k c) = some (q.state lost')) :
    Talks p k lost q (ioctl p k c).2 lost' (spoken p k c) :=
  ⟨ioctl_log p k c, spoken_speaks hc, hsame, hmarked, hdevice⟩

/-- An answered call has gone to an open device. -/
theorem fd_of_answer {p : PcmDevice} {k : Kernel α} {c : Syscall α}
    (h : (ioctl p k c).1.errno = 0) : p.fd = true := by
  cases hfd : p.fd with
  | true => rfl
  | false => exact absurd h (ioctl_ebadf k c hfd)

/-- Frames are taken exactly when the write succeeds. -/
theorem taken_writei (p : PcmDevice) (k : Kernel α) (data : List α) :
    taken (spoken p k (.writei data)) =
      if (ioctl p k (.writei data)).1.errno = 0 then data else [] := by
  cases hfd : p.fd with
  | true => simp [taken, spoken, hfd]
  | false => rw [if_neg (ioctl_ebadf k _ hfd), spoken, hfd]; rfl

structure Prepares (p : PcmDevice) (k : Kernel α) (lost : Bool)
    (done : Int × PcmDevice × Kernel α) (more : List (Entry α)) : Prop where
  talks : Talks p k lost done.2.1 done.2.2 lost more
  running : done.2.1.running = p.running
  silent : taken more = []
  result : done.1 = 0 ∧ done.2.1.prepared = true ∨ done.1 = -1 ∧ done.2.1.prepared = false

/-- The result says whether the handle is prepared afterwards. -/
theorem pcmPrepare_prepares {p : PcmDevice} {lost : Bool} (h : p.Marked lost) (k : Kernel α) :
    ∃ more, Prepares p k lost (pcmPrepare p k) more := by
  unfold pcmPrepare
  split
  case isTrue hprepared => exact ⟨[], .nothing h k, rfl, rfl, .inl ⟨rfl, hprepared⟩⟩
  case isFalse hprepared =>
    have hlost : lost = false := by
      cases lost with
      | false => rfl
      | true => exact absurd (h.lost rfl).2.1 hprepared
    have hrunning : p.running = false := by
      cases hr : p.running with
      | false => rfl
      | true => exact absurd (h.prepared hr) hprepared
    subst hlost
    dsimp only
    split
    case isTrue herr =>
      refine ⟨_, talks_ioctl (c := .prepare) (.inl rfl) ⟨rfl, rfl, rfl, rfl, rfl, rfl, rfl⟩
        ⟨h.prepared, h.fd, nofun⟩ ?_, rfl, ?_, .inr ⟨rfl, Bool.eq_false_iff.mpr hprepared⟩⟩
      · cases hfd : p.fd <;> simp [spoken, hfd, deviceStep, herr, PcmDevice.state, oops]
      · cases hfd : p.fd <;> simp [spoken, hfd, taken]
    case isFalse herr =>
      have hfd := fd_of_answer (not_not.mp herr)
      refine ⟨_, talks_ioctl (c := .prepare) (.inl rfl) ⟨rfl, rfl, rfl, rfl, rfl, rfl, rfl⟩
        ⟨fun _ => rfl, fun _ => hfd, nofun⟩ ?_, rfl, ?_, .inl ⟨rfl, rfl⟩⟩
      · simp [spoken, hfd, deviceStep, not_not.mp herr, PcmDevice.state, hrunning]
      · simp [spoken, hfd, taken]

theorem pcmSyncPtr_talks {p : PcmDevice} {lost : Bool} (h : p.Marked lost) (k : Kernel α) :
    ∃ more, Talks p k lost p (pcmSyncPtr p k).2 lost more := by
  unfold pcmSyncPtr
  split
  case isTrue hsync =>
    refine ⟨_, talks_ioctl (.inr ⟨rfl, hsync⟩) (.refl p) h ?_⟩
    cases hfd : p.fd <;> simp [spoken, hfd, deviceStep]
  case isFalse => exact ⟨[], .nothing h k⟩

/-- A start prepares first where that is needed. -/
theorem pcmStart_talks {p : PcmDevice} {lost : Bool} (h : p.Marked lost) (k : Kernel α) :
    ∃ more, Talks p k lost (pcmStart p k).2.1 (pcmStart p k).2.2 (lost && (pcmStart p k).1 ≠ 0)
      more ∧ (0 ≤ (pcmStart p k).1 → (pcmStart p k).2.1.running = true) := by
  obtain ⟨before, hprepare⟩ := pcmPrepare_prepares h k
  unfold pcmStart
  generalize pcmPrepare p k = done at hprepare ⊢
  obtain ⟨r, q, k₁⟩ := done
  obtain ⟨hprepare, -, -, hresult⟩ := hprepare
  dsimp only at hprepare hresult ⊢
  split
  case isTrue hfailed =>
    have hr := (hresult.resolve_left fun h => hfailed h.1).1
    subst hr
    refine ⟨before, ?_, by simp⟩
    simpa using hprepare
  case isFalse hdone =>
    have hprepared := (hresult.resolve_right (by omega)).2
    obtain ⟨more, hsynced⟩ : ∃ more,
        Talks q k₁ lost q (if q.flags.mmap then (pcmSyncPtr q k₁).2 else k₁) lost more := by
      split
      · exact pcmSyncPtr_talks hprepare.marked k₁
      · exact ⟨[], .nothing hprepare.marked k₁⟩
    generalize (if q.flags.mmap then (pcmSyncPtr q k₁).2 else k₁) = k₂ at hsynced ⊢
    have hready := hprepare.trans hsynced
    split
    case isTrue herr =>
      refine ⟨_, hready.trans (talks_ioctl (c := .start) (.inl rfl)
        ⟨rfl, rfl, rfl, rfl, rfl, rfl, rfl⟩ ?_ ?_), by simp⟩
      · simpa using ⟨hready.marked.prepared, hready.marked.fd, hready.marked.lost⟩
      · cases hfd : q.fd <;> simp [spoken, hfd, deviceStep, herr, PcmDevice.state, oops]
    case isFalse herr =>
      have hfd := fd_of_answer (not_not.mp herr)
      refine ⟨_, hready.trans (talks_ioctl (c := .start) (.inl rfl)
        ⟨rfl, rfl, rfl, rfl, rfl, rfl, rfl⟩ ⟨fun _ => hprepared, fun _ => hfd, by simp⟩ ?_),
        fun _ => rfl⟩
      simp [spoken, hfd, deviceStep, not_not.mp herr, PcmDevice.state]

/-- A stop that the device refuses leaves the marks of the handle. -/
theorem pcmStop_talks {p : PcmDevice} {lost : Bool} (h : p.Marked lost) (k : Kernel α) :
    ∃ more, Talks p k lost (pcmStop p k).2.1 (pcmStop p k).2.2 (lost && (pcmStop p k).1 ≠ 0)
      more := by
  unfold pcmStop
  dsimp only
  split
  case isTrue herr =>
    refine ⟨_, talks_ioctl (c := .drop) (.inl rfl) ⟨rfl, rfl, rfl, rfl, rfl, rfl, rfl⟩ ?_ ?_⟩
    · simpa using ⟨h.prepared, h.fd, h.lost⟩
    · cases hfd : p.fd <;> simp [spoken, hfd, deviceStep, herr, PcmDevice.state, oops]
  case isFalse herr =>
    have hfd := fd_of_answer (not_not.mp herr)
    refine ⟨_, talks_ioctl (c := .drop) (.inl rfl) ⟨rfl, rfl, rfl, rfl, rfl, rfl, rfl⟩
      ⟨nofun, nofun, by simp⟩ ?_⟩
    simp [spoken, hfd, deviceStep, not_not.mp herr, PcmDevice.state]

/-- A write of a PCM that has lost no write: it succeeds if its frames were taken, once. -/
structure Writes (p : PcmDevice) (k : Kernel α) (data : List α)
    (done : Int × PcmDevice × Kernel α) (more : List (Entry α)) : Prop where
  talks : Talks p k false done.2.1 done.2.2 (done.2.1.prepared && done.1 ≠ 0) more
  result : done.1 ≤ 0
  taken : taken more = if done.1 = 0 then p.config.whole data else []

/-- The write that starts the device. -/
theorem firstWrite_writes {p : PcmDevice} (h : p.Marked false) (hplayback : p.flags.capture = false)
    (hrunning : p.running = false) (data : List α) (fuel : Nat) (k : Kernel α) :
    ∃ more, Writes p k data (pcmWriteLoop data (fuel + 1) p k) more := by
  obtain ⟨before, hprepare⟩ := pcmPrepare_prepares h k
  unfold pcmWriteLoop
  rw [if_pos (by simp [hrunning])]
  generalize pcmPrepare p k = done at hprepare ⊢
  obtain ⟨r, q, k₁⟩ := done
  obtain ⟨hprepare, hstill, hsilent, hresult⟩ := hprepare
  dsimp only at hprepare hstill hresult ⊢
  split
  case isTrue hfailed =>
    obtain ⟨rfl, hunprepared⟩ := hresult.resolve_left fun h => hfailed h.1
    exact ⟨before, by simpa [hunprepared] using hprepare, by simp, by simpa using hsilent⟩
  case isFalse hdone =>
    have hprepared := (hresult.resolve_right (by omega)).2
    have hfd := hprepare.marked.fd hprepared
    have hcapture : q.flags.capture = false := hprepare.same.flags ▸ hplayback
    split
    case isTrue herr =>
      refine ⟨_, hprepare.trans (talks_ioctl (c := .writei (q.config.whole data)) (.inl rfl)
        ⟨rfl, rfl, rfl, rfl, rfl, rfl, rfl⟩ ⟨fun _ => hprepared, fun _ => hfd,
          fun _ => ⟨hcapture, hprepared, hstill.trans hrunning⟩⟩ ?_), by simp, ?_⟩
      · simp [spoken, hfd, deviceStep, herr, PcmDevice.state, oops, hprepared, hstill, hrunning]
      · simp [taken_append, hsilent, taken_writei, herr]
    case isFalse herr =>
      refine ⟨_, hprepare.trans (talks_ioctl (c := .writei (q.config.whole data)) (.inl rfl)
        ⟨rfl, rfl, rfl, rfl, rfl, rfl, rfl⟩ ⟨fun _ => hprepared, fun _ => hfd, by simp⟩ ?_),
        by simp, ?_⟩
      · simp [spoken, hfd, deviceStep, not_not.mp herr, PcmDevice.state, hprepared, hstill, hrunning]
      · rw [taken_append, hsilent, taken_writei, if_pos (not_not.mp herr), hprepare.same.config]
        rfl

/-- An underrun is followed by one more first write at most. -/
theorem pcmWriteLoop_writes {p : PcmDevice} (h : p.Marked false)
    (hplayback : p.flags.capture = false) (data : List α) (fuel : Nat) (k : Kernel α) :
    ∃ more, Writes p k data (pcmWriteLoop data (fuel + 2) p k) more := by
  cases hrunning : p.running with
  | false => exact firstWrite_writes h hplayback hrunning data (fuel + 1) k
  | true =>
    have hfd := h.fd (h.prepared hrunning)
    rw [pcmWriteLoop, if_neg (by simp [hrunning])]
    dsimp only
    split
    case isTrue herr =>
      have hstopped : ∀ q : PcmDevice, p.Same q → q.running = false → q.prepared = false →
          Talks p k false q (ioctl p k (.writei (p.config.whole data))).2 false
            (spoken p k (.writei (p.config.whole data))) := by
        intro q hsame hrun hprep
        refine talks_ioctl (.inl rfl) hsame ⟨by simp [hrun], by simp [hprep], nofun⟩ ?_
        simp [spoken, hfd, deviceStep, herr, PcmDevice.state, hrunning, hrun, hprep]
      have hnothing : taken (spoken p k (.writei (p.config.whole data))) = [] := by
        rw [taken_writei, if_neg herr]
      split
      case isTrue hepipe =>
        split
        case isTrue =>
          exact ⟨_, hstopped _ ⟨rfl, rfl, rfl, rfl, rfl, rfl, rfl⟩ rfl rfl, by simp,
            by simpa [epipe] using hnothing⟩
        case isFalse =>
          have hround := hstopped { p with
            prepared := false, running := false, underruns := p.underruns + 1 }
            ⟨rfl, rfl, rfl, rfl, rfl, rfl, rfl⟩ rfl rfl
          obtain ⟨more, hmore⟩ := firstWrite_writes hround.marked hplayback rfl data fuel
            (ioctl p k (.writei (p.config.whole data))).2
          refine ⟨_, hround.trans hmore.talks, hmore.result, ?_⟩
          rw [taken_append, hnothing, hmore.taken]
          rfl
      case isFalse =>
        exact ⟨_, hstopped _ ⟨rfl, rfl, rfl, rfl, rfl, rfl, rfl⟩ rfl rfl, by simp,
          by simpa using hnothing⟩
    case isFalse herr =>
      have htalks : Talks p k false p (ioctl p k (.writei (p.config.whole data))).2 false
          (spoken p k (.writei (p.config.whole data))) := by
        refine talks_ioctl (.inl rfl) (.refl p) h ?_
        simp [spoken, hfd, deviceStep, not_not.mp herr, PcmDevice.state, hrunning]
      refine ⟨_, by simpa using htalks, Int.le_refl 0, ?_⟩
      rw [taken_writei, if_pos (not_not.mp herr), if_pos rfl]

/-- A write hands over all whole frames of the buffer, or none. -/
theorem pcmWrite_writes {p : PcmDevice} (h : p.Marked false) (hplayback : p.flags.capture = false)
    (data : List α) (k : Kernel α) : ∃ more, Writes p k data (pcmWrite p data k) more := by
  unfold pcmWrite
  rw [if_neg (by simp [hplayback])]
  exact pcmWriteLoop_writes h hplayback data 0 k

theorem firstWrite_fuel {p : PcmDevice} (hrunning : p.running = false) (data : List α)
    (fuel : Nat) (k : Kernel α) :
    pcmWriteLoop data (fuel + 1) p k = pcmWriteLoop data 1 p k := by
  simp only [pcmWriteLoop, hrunning, Bool.not_false, if_true]

/-- The loop of a write is left after two rounds at most. -/
theorem pcmWriteLoop_fuel (p : PcmDevice) (data : List α) (fuel : Nat) (k : Kernel α) :
    pcmWriteLoop data (fuel + 2) p k = pcmWriteLoop data 2 p k := by
  rw [pcmWriteLoop, pcmWriteLoop]
  simp only [firstWrite_fuel]

/-- By induction on the rounds of the loop. -/
theorem pcmReadLoop_talks (frames : Nat) (fuel : Nat) {p : PcmDevice} (h : p.Marked false)
    (k : Kernel α) : ∃ more, Talks p k false (pcmReadLoop frames fuel p k).2.1
      (pcmReadLoop frames fuel p k).2.2 false more := by
  induction fuel generalizing p k with
  | zero => exact ⟨[], .nothing h k⟩
  | succ fuel ih =>
    obtain ⟨before, hstart, hrunning⟩ : ∃ before, Talks p k false
        (if !p.running then pcmStart p k else (0, p, k)).2.1
        (if !p.running then pcmStart p k else (0, p, k)).2.2 false before ∧
        (0 ≤ (if !p.running then pcmStart p k else (0, p, k)).1 →
          (if !p.running then pcmStart p k else (0, p, k)).2.1.running = true) := by
      split
      case isTrue => simpa using pcmStart_talks h k
      case isFalse hrunning => exact ⟨[], .nothing h k, fun _ => by simpa using hrunning⟩
    unfold pcmReadLoop
    generalize (if !p.running then pcmStart p k else (0, p, k)) = started at hstart hrunning ⊢
    obtain ⟨r, q, k₁⟩ := started
    dsimp only at hstart hrunning ⊢
    split
    case isTrue => exact ⟨before, hstart⟩
    case isFalse hstarted =>
      have hrunning := hrunning (by omega)
      have hfd := hstart.marked.fd (hstart.marked.prepared hrunning)
      split
      case isTrue herr =>
        have hstopped : ∀ q' : PcmDevice, q.Same q' → q'.running = false → q'.prepared = false →
            Talks p k false q' (ioctl q k₁ (.readi frames)).2 false
              (before ++ spoken q k₁ (.readi frames)) := by
          intro q' hsame hrun hprep
          refine hstart.trans (talks_ioctl (.inl rfl) hsame
            ⟨by simp [hrun], by simp [hprep], nofun⟩ ?_)
          simp [spoken, hfd, deviceStep, herr, PcmDevice.state, hrunning, hrun, hprep]
        split
        case isTrue =>
          have hround := hstopped { q with
            prepared := false, running := false, underruns := q.underruns + 1 }
            ⟨rfl, rfl, rfl, rfl, rfl, rfl, rfl⟩ rfl rfl
          obtain ⟨more, hmore⟩ := ih hround.marked (ioctl q k₁ (.readi frames)).2
          exact ⟨_, hround.trans hmore⟩
        case isFalse => exact ⟨_, hstopped _ ⟨rfl, rfl, rfl, rfl, rfl, rfl, rfl⟩ rfl rfl⟩
      case isFalse herr =>
        refine ⟨_, hstart.trans (talks_ioctl (.inl rfl) (.refl q) hstart.marked ?_)⟩
        simp [spoken, hfd, deviceStep, not_not.mp herr, PcmDevice.state, hrunning]

theorem ioctl_answers (p : PcmDevice) (k : Kernel α) (c : Syscall α) :
    (ioctl p k c).2.answers.length ≤ k.answers.length := by
  unfold ioctl Kernel.call
  split <;> simp

theorem pcmStart_answers (p : PcmDevice) (k : Kernel α) :
    (pcmStart p k).2.2.answers.length ≤ k.answers.length := by
  have hprepare : (pcmPrepare p k).2.2.answers.length ≤ k.answers.length := by
    unfold pcmPrepare
    have hanswers := ioctl_answers p k .prepare
    split
    · exact Nat.le_refl _
    · dsimp only
      split <;> exact hanswers
  unfold pcmStart
  generalize pcmPrepare p k = done at hprepare ⊢
  obtain ⟨r, q, k₁⟩ := done
  dsimp only at hprepare ⊢
  have hsync : (if q.flags.mmap then (pcmSyncPtr q k₁).2 else k₁).answers.length ≤
      k₁.answers.length := by
    have hanswers := ioctl_answers q k₁ .syncPtr
    unfold pcmSyncPtr
    split
    · split
      · exact hanswers
      · exact Nat.le_refl _
    · exact Nat.le_refl _
  generalize (if q.flags.mmap then (pcmSyncPtr q k₁).2 else k₁) = k₂ at hsync ⊢
  have hanswers := ioctl_answers q k₂ .start
  split
  · exact hprepare
  · split <;> simp only <;> omega

/-- An underrun has been answered by the kernel. -/
theorem ioctl_epipe {p : PcmDevice} {k : Kernel α} {c : Syscall α} (herr : (ioctl p k c).1.errno ≠ 0)
    (hepipe : (ioctl p k c).2.errno = epipe) :
    (ioctl p k c).2.answers.length + 1 = k.answers.length := by
  cases hfd : p.fd with
  | false => simp [ioctl, hfd, ebadf, epipe] at hepipe
  | true =>
    rw [ioctl, if_pos hfd] at herr ⊢
    cases hanswers : k.answers with
    | nil => simp [Kernel.call, hanswers] at herr
    | cons answer rest => simp [Kernel.call, hanswers]

/-- The loop of a read is left: every underrun takes an answer, and without one there is none. -/
theorem pcmReadLoop_fuel (frames : Nat) {fuel fuel' : Nat} (p : PcmDevice) (k : Kernel α)
    (h : k.answers.length < fuel) (h' : k.answers.length < fuel') :
    pcmReadLoop frames fuel p k = pcmReadLoop frames fuel' p k := by
  induction fuel generalizing fuel' p k with
  | zero => omega
  | succ fuel ih =>
    cases fuel' with
    | zero => omega
    | succ fuel' =>
      have hstart : (if !p.running then pcmStart p k else (0, p, k)).2.2.answers.length ≤
          k.answers.length := by
        split
        · exact pcmStart_answers p k
        · exact Nat.le_refl _
      unfold pcmReadLoop
      generalize (if !p.running then pcmStart p k else (0, p, k)) = started at hstart ⊢
      obtain ⟨r, q, k₁⟩ := started
      dsimp only at hstart ⊢
      split
      case isTrue => rfl
      case isFalse =>
        split
        case isTrue herr =>
          split
          case isTrue hepipe =>
            have htaken := ioctl_epipe herr hepipe
            exact ih _ _ (by omega) (by omega)
          case isFalse => rfl
        case isFalse => rfl

end Device

end TinyAlsa
