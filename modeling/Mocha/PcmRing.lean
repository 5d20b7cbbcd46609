import Mocha.Ring
import Mocha.Transition

/-!
# The memory-mapped buffer of a PCM device

`pcm_mmap_transfer` copies frames to or from the buffer that the kernel plays from or
captures to. Both sides count frames: `hw_ptr` and `appl_ptr` go up to `boundary`, a
multiple of the buffer size, and start again. The kernel wraps when its pointer reaches
the boundary, the library when its pointer has passed it.

The model runs from `pcm_prepare` to the first error. The device moves on at any point
between two steps of the library, one frame at a time. It does not look at the library's
pointer, so that it may play past it, or capture over frames that were not fetched.
-/
namespace TinyAlsa

open Transition Ring

/-- An unsigned or a wide value as an `int`. -/
def toInt (n : Int) : Int := n.bmod 4294967296

def intMax : Nat := 2147483647

/-- The loop of `pcm_open` that doubles the boundary. -/
def boundaryLoop (bufferSize : Nat) : Nat → Nat → Nat
  | 0, boundary => boundary
  | fuel + 1, boundary =>
    if boundary * 2 ≤ intMax - bufferSize then boundaryLoop bufferSize fuel (boundary * 2)
    else boundary

/-- More than 31 rounds are never needed, unless the buffer has no frames. -/
def pcmBoundary (bufferSize : Nat) : Nat := boundaryLoop bufferSize 32 bufferSize

structure Pcm (α : Type) where
  capture : Bool
  bufferSize : Nat
  boundary : Nat
  startThreshold : Nat
  availMin : Nat
  running : Bool
  hwPtr : Nat
  applPtr : Nat
  buffer : Nat → α

section Pcm

variable {α : Type} (pcm : Pcm α)

def pcmMmapPlaybackAvail : Int :=
  let avail := toInt (pcm.hwPtr + pcm.bufferSize - pcm.applPtr)
  if avail < 0 then toInt (avail + pcm.boundary)
  else if avail > toInt pcm.boundary then toInt (avail - pcm.boundary)
  else avail

def pcmMmapCaptureAvail : Int :=
  let avail := toInt (pcm.hwPtr - pcm.applPtr)
  if avail < 0 then toInt (avail + pcm.boundary) else avail

def pcmMmapAvail : Int :=
  if pcm.capture then pcmMmapCaptureAvail pcm else pcmMmapPlaybackAvail pcm

def pcmMmapApplForward (frames : Nat) : Pcm α :=
  let applPtr := (pcm.applPtr + frames) % 4294967296
  { pcm with applPtr := if applPtr > pcm.boundary then applPtr - pcm.boundary else applPtr }

/-- The offset in the buffer, and how many of the frames can be copied in one go. -/
def pcmMmapBegin (frames : Nat) : Nat × Nat :=
  let offset := pcm.applPtr % pcm.bufferSize
  let avail := (pcmMmapAvail pcm % 4294967296).toNat
  let avail := if avail > pcm.bufferSize then pcm.bufferSize else avail
  let continuous := pcm.bufferSize - offset
  let frames := if frames > avail then avail else frames
  (offset, if frames > continuous then continuous else frames)

/-- The device is one frame further. -/
def hwForward : Pcm α :=
  { pcm with hwPtr := if pcm.hwPtr + 1 ≥ pcm.boundary then pcm.hwPtr + 1 - pcm.boundary
                      else pcm.hwPtr + 1 }

end Pcm

/-- Where `pcm_mmap_transfer` stands: at its head, waiting for the device, or inside
`pcm_mmap_transfer_areas` before each of its three calls. -/
inductive Phase where
  | idle
  | update
  | wait
  | begins (size : Nat)
  | copy (size offset frames : Nat)
  | commit (size offset frames : Nat)
  | failed
  deriving DecidableEq, Repr

/-- A call that has returned: what it was given or asked for, and how much of it was done. -/
structure Done (α : Type) where
  data : List α
  frames : Nat
  result : Int
  deriving Repr

/-- A PCM between two steps. The caller's buffer is `data`; `count` of its frames are still to be
transferred. `put`, `got` and `calls` are history: what was stored in the buffer, what was
fetched from it, and the calls that have returned. -/
structure Mmap (α : Type) where
  pcm : Pcm α
  phase : Phase
  data : List α
  count : Nat
  put : List α
  got : List α
  calls : List (Done α)

/-- A device that has been prepared. -/
def prepared {α : Type} (capture : Bool) (bufferSize startThreshold : Nat) (buffer : Nat → α) :
    Mmap α where
  pcm := ⟨capture, bufferSize, pcmBoundary bufferSize, startThreshold, 1, false, 0, 0, buffer⟩
  phase := .idle
  data := []
  count := 0
  put := []
  got := []
  calls := []

section Step

variable {α : Type} (s : Mmap α)

/-- The transfer returns. -/
def finish (result : Int) : Mmap α :=
  { s with phase := .idle, calls := s.calls ++ [⟨s.data, s.data.length - s.count, result⟩] }

/-- The head of the loop. A start that fails answers with a negative number. -/
def updateStep (answer : Int) : Mmap α :=
  let avail := pcmMmapAvail s.pcm
  if avail < 0 then finish s 0
  else
    let starts := !s.pcm.running &&
      ((s.pcm.bufferSize - avail) % 4294967296).toNat ≥ s.pcm.startThreshold
    if starts && answer < 0 then finish s answer
    else
      let s := { s with pcm := { s.pcm with running := s.pcm.running || starts } }
      if s.pcm.running && avail.toNat < s.pcm.availMin then { s with phase := .wait }
      else
        let frames := if (s.count : Int) > avail then avail.toNat else s.count
        if frames = 0 then finish s 0 else { s with phase := .begins frames }

/-- `pcm_areas_copy`. Frames that are captured go to the caller's buffer. -/
def copyStep (size offset frames : Nat) : Mmap α :=
  let done := s.data.length - s.count
  if s.pcm.capture then
    { s with
      phase := .commit size offset frames
      data := s.data.take done ++ window s.pcm.buffer s.pcm.bufferSize offset frames ++
        s.data.drop (done + frames) }
  else
    { s with
      phase := .commit size offset frames
      pcm := { s.pcm with
        buffer := copyAt s.pcm.buffer offset ((s.data.drop done).take frames) } }

def commitStep (size frames : Nat) : Mmap α :=
  let moved := (s.data.drop (s.data.length - s.count)).take frames
  let s := { s with
    pcm := pcmMmapApplForward s.pcm frames
    count := s.count - frames
    put := if s.pcm.capture then s.put else s.put ++ moved
    got := if s.pcm.capture then s.got ++ moved else s.got }
  if size - frames = 0 then
    if s.count = 0 then finish s 0 else { s with phase := .update }
  else { s with phase := .begins (size - frames) }

/-- A wait that fails ends the transfer, and takes the application pointer back. -/
def waitStep (answer : Int) : Mmap α :=
  if answer < 0 then
    { finish s answer with
      phase := .failed, pcm := { s.pcm with running := false, applPtr := 0 } }
  else { s with phase := .update }

/-- The next step of a transfer, with the answer of a start or a wait. -/
def appStep (answer : Int) : Option (Mmap α) :=
  match s.phase with
  | .idle | .failed => none
  | .update => some (updateStep s answer)
  | .wait => some (waitStep s answer)
  | .begins size =>
    some { s with phase := .copy size (pcmMmapBegin s.pcm size).1 (pcmMmapBegin s.pcm size).2 }
  | .copy size offset frames => some (copyStep s size offset frames)
  | .commit size _ frames => some (commitStep s size frames)

/-- The device plays the frame at its pointer, or captures `x`. -/
def hwStep (x : α) : Option (Mmap α) :=
  if !s.pcm.running then none
  else if s.pcm.capture then some { s with
    pcm := hwForward { s.pcm with
      buffer := copyAt s.pcm.buffer (s.pcm.hwPtr % s.pcm.bufferSize) [x] }
    put := s.put ++ [x] }
  else some { s with
    pcm := hwForward s.pcm
    got := s.got ++ [s.pcm.buffer (s.pcm.hwPtr % s.pcm.bufferSize)] }

end Step

inductive MmapCall (α : Type) where
  | transfer (data : List α)
  | app (answer : Int)
  | hw (x : α)

def mmapStep {α : Type} (s : Mmap α) : MmapCall α → Option (Mmap α)
  | .transfer data =>
    if s.phase = .idle then
      if data.length = 0 then some s
      else some { s with phase := .update, data := data, count := data.length }
    else none
  | .app answer => appStep s answer
  | .hw x => hwStep s x

/-- What the returned calls and the call under way have transferred, in order. -/
def transferred {α : Type} (s : Mmap α) : List α :=
  (s.calls.flatMap fun call => call.data.take call.frames) ++
    match s.phase with
    | .idle | .failed => []
    | _ => s.data.take (s.data.length - s.count)

/-- The buffer is full, and the application pointer has passed the boundary, but not the
hardware pointer. -/
def Pcm.overlapped {α : Type} (pcm : Pcm α) : Bool :=
  !pcm.capture && pcm.hwPtr + pcm.bufferSize = pcm.applPtr + pcm.boundary

/-- Frames are asked for in such a state. -/
def misreads {α : Type} (s : Mmap α) : MmapCall α → Bool
  | .app _ => s.pcm.overlapped && match s.phase with
    | .begins _ => true
    | _ => false
  | _ => false

/-- The device plays a frame that is not there, or captures one that there is no room for. -/
def xruns {α : Type} (s : Mmap α) : MmapCall α → Bool
  | .hw _ =>
    if s.pcm.capture then s.got.length + s.pcm.bufferSize ≤ s.put.length
    else s.put.length ≤ s.got.length
  | _ => false

section Boundary

theorem boundaryLoop_spec (bufferSize fuel boundary : Nat) (hfit : boundary + bufferSize ≤ intMax)
    (hdvd : bufferSize ∣ boundary) :
    bufferSize ∣ boundaryLoop bufferSize fuel boundary ∧
      boundary ≤ boundaryLoop bufferSize fuel boundary ∧
      boundaryLoop bufferSize fuel boundary + bufferSize ≤ intMax := by
  induction fuel generalizing boundary with
  | zero => exact ⟨hdvd, Nat.le_refl _, hfit⟩
  | succ fuel ih =>
    unfold boundaryLoop
    split
    case isFalse => exact ⟨hdvd, Nat.le_refl _, hfit⟩
    case isTrue hmore =>
      obtain ⟨hd, hle, hsum⟩ := ih (boundary * 2) (by omega)
        (Nat.dvd_trans hdvd (Nat.dvd_mul_right boundary 2))
      exact ⟨hd, by omega, hsum⟩

/-- The boundary is a multiple of the buffer size, at least two turns, and a pointer one turn
behind it is still an `int`. -/
theorem pcmBoundary_spec {bufferSize : Nat} (hsize : 3 * bufferSize ≤ intMax) :
    bufferSize ∣ pcmBoundary bufferSize ∧ 2 * bufferSize ≤ pcmBoundary bufferSize ∧
      pcmBoundary bufferSize + bufferSize ≤ intMax := by
  have hmore : bufferSize * 2 ≤ intMax - bufferSize := by omega
  have hfirst : pcmBoundary bufferSize = boundaryLoop bufferSize 31 (bufferSize * 2) := if_pos hmore
  rw [hfirst]
  obtain ⟨hd, hle, hsum⟩ := boundaryLoop_spec bufferSize 31 (bufferSize * 2) (by omega)
    (Nat.dvd_mul_right bufferSize 2)
  exact ⟨hd, by omega, hsum⟩

/-- The loop has ended by then. -/
theorem boundaryLoop_ends (bufferSize fuel boundary : Nat) (h : intMax < boundary <<< fuel) :
    intMax - bufferSize < boundaryLoop bufferSize fuel boundary * 2 := by
  induction fuel generalizing boundary with
  | zero =>
    rw [Nat.shiftLeft_zero] at h
    unfold boundaryLoop
    omega
  | succ fuel ih =>
    unfold boundaryLoop
    split
    case isFalse hdone => omega
    case isTrue =>
      apply ih
      rwa [Nat.mul_comm, ← Nat.shiftLeft_succ_inside]

end Boundary

section Avail

variable {α : Type} {pcm : Pcm α}

/-- The sizes of a mapped buffer. -/
structure Geometry (pcm : Pcm α) : Prop where
  pos : 0 < pcm.bufferSize
  turns : pcm.bufferSize ∣ pcm.boundary
  twice : 2 * pcm.bufferSize ≤ pcm.boundary
  fits : pcm.boundary + pcm.bufferSize ≤ intMax
  min : pcm.availMin = 1

/-- A pointer of the library stands for a count of frames. It may stay at the boundary. -/
structure Stands (boundary ptr count : Nat) : Prop where
  le : ptr ≤ boundary
  mod : ptr % boundary = count % boundary

theorem Stands.cases {boundary ptr count : Nat} (h : Stands boundary ptr count) :
    (ptr < boundary ∧ ptr = count % boundary) ∨ (ptr = boundary ∧ count % boundary = 0) := by
  rcases Nat.lt_or_ge ptr boundary with hlt | hge
  · exact .inl ⟨hlt, by rw [← h.mod, Nat.mod_eq_of_lt hlt]⟩
  · have heq : ptr = boundary := Nat.le_antisymm h.le hge
    exact .inr ⟨heq, by rw [← h.mod, heq, Nat.mod_self]⟩

theorem toInt_of_range {n : Int} (hlow : -2147483648 ≤ n) (hhigh : n < 2147483648) :
    toInt n = n := by
  rw [toInt, Int.bmod_def]
  split <;> omega

/-- `q` frames further, less than a turn of the boundary. -/
theorem mod_cases {boundary g q : Nat} (hq : q < boundary) :
    (g % boundary + q < boundary ∧ (g + q) % boundary = g % boundary + q) ∨
      (boundary ≤ g % boundary + q ∧ (g + q) % boundary = g % boundary + q - boundary) := by
  have hturn : g % boundary < boundary := Nat.mod_lt _ (by omega)
  rw [← Nat.mod_add_mod]
  rcases Nat.lt_or_ge (g % boundary + q) boundary with hlt | hge
  · exact .inl ⟨hlt, Nat.mod_eq_of_lt hlt⟩
  · refine .inr ⟨hge, ?_⟩
    rw [Nat.mod_eq_sub_mod hge, Nat.mod_eq_of_lt (by omega)]

/-- The library's idea of the free space is right, unless it takes a full buffer for one with a
whole boundary of free space. -/
theorem pcmMmapPlaybackAvail_eq (hgeo : Geometry pcm) {g q : Nat} (hhw : pcm.hwPtr = g % pcm.boundary)
    (happl : Stands pcm.boundary pcm.applPtr (g + q)) (hq : q ≤ pcm.bufferSize) :
    pcmMmapPlaybackAvail pcm =
      if pcm.hwPtr + pcm.bufferSize = pcm.applPtr + pcm.boundary then (pcm.boundary : Int)
      else ((pcm.bufferSize - q : Nat) : Int) := by
  obtain ⟨hpos, -, htwice, hfits, -⟩ := hgeo
  unfold intMax at hfits
  have hturn : g % pcm.boundary < pcm.boundary := Nat.mod_lt _ (by omega)
  have hplace := @mod_cases pcm.boundary g q (by omega)
  have hptr := happl.cases
  generalize (g + q) % pcm.boundary = m at hplace hptr
  generalize g % pcm.boundary = h at hplace hhw hturn
  unfold pcmMmapPlaybackAvail
  rw [toInt_of_range (n := pcm.hwPtr + pcm.bufferSize - pcm.applPtr) (by omega) (by omega),
    toInt_of_range (n := (pcm.boundary : Int)) (by omega) (by omega)]
  dsimp only
  split
  · rw [toInt_of_range (by omega) (by omega)]
    split <;> omega
  · split
    · rw [toInt_of_range (by omega) (by omega)]
      split <;> omega
    · split <;> omega

theorem overlapped_full (hgeo : Geometry pcm) {g q : Nat} (hhw : pcm.hwPtr = g % pcm.boundary)
    (happl : Stands pcm.boundary pcm.applPtr (g + q)) (hq : q ≤ pcm.bufferSize)
    (hover : pcm.hwPtr + pcm.bufferSize = pcm.applPtr + pcm.boundary) : q = pcm.bufferSize := by
  obtain ⟨hpos, -, htwice, -, -⟩ := hgeo
  have hturn : g % pcm.boundary < pcm.boundary := Nat.mod_lt _ (by omega)
  have hplace := @mod_cases pcm.boundary g q (by omega)
  have hptr := happl.cases
  generalize (g + q) % pcm.boundary = m at hplace hptr
  generalize g % pcm.boundary = h at hplace hhw hturn
  omega

/-- And so is its idea of what has been captured. -/
theorem pcmMmapCaptureAvail_eq (hgeo : Geometry pcm) {g q : Nat}
    (hhw : pcm.hwPtr = (g + q) % pcm.boundary) (happl : Stands pcm.boundary pcm.applPtr g)
    (hq : q ≤ pcm.bufferSize) : pcmMmapCaptureAvail pcm = (q : Int) := by
  obtain ⟨hpos, -, htwice, hfits, -⟩ := hgeo
  unfold intMax at hfits
  have hturn : g % pcm.boundary < pcm.boundary := Nat.mod_lt _ (by omega)
  have hplace := @mod_cases pcm.boundary g q (by omega)
  have hptr := happl.cases
  generalize (g + q) % pcm.boundary = m at hplace hhw
  generalize g % pcm.boundary = h at hplace hptr hturn
  unfold pcmMmapCaptureAvail
  rw [toInt_of_range (n := pcm.hwPtr - pcm.applPtr) (by omega) (by omega)]
  dsimp only
  split
  · rw [toInt_of_range (by omega) (by omega)]
    omega
  · omega

end Avail

section Invariant

variable {α : Type}

/-- The frames that the application has dealt with, and the device. -/
def Mmap.appl (s : Mmap α) : Nat := if s.pcm.capture then s.got.length else s.put.length
def Mmap.hw (s : Mmap α) : Nat := if s.pcm.capture then s.put.length else s.got.length

/-- The frames that the application can deal with: free ones, or captured ones. -/
def Mmap.avail (s : Mmap α) : Nat :=
  if s.pcm.capture then s.put.length - s.got.length
  else s.pcm.bufferSize - (s.put.length - s.got.length)

/-- The frames that the caller's buffer has next. -/
def Mmap.next (s : Mmap α) (frames : Nat) : List α :=
  (s.data.drop (s.data.length - s.count)).take frames

/-- What is asked for is part of the call, and what is copied lies in one piece. -/
def PhaseOk (s : Mmap α) : Phase → Prop
  | .idle | .failed => True
  | .update | .wait => 0 < s.count
  | .begins size => 0 < size ∧ size ≤ s.count
  | .copy size offset frames | .commit size offset frames =>
    0 < size ∧ size ≤ s.count ∧ offset = s.appl % s.pcm.bufferSize ∧ frames ≤ size ∧
      frames ≤ s.avail ∧ offset + frames ≤ s.pcm.bufferSize

/-- Frames that have been stored in the buffer, but not committed. -/
def Mmap.stored (s : Mmap α) : List α :=
  match s.phase with
  | .commit _ _ frames => if s.pcm.capture then [] else s.next frames
  | _ => []

/-- The pointers stand for what was stored and fetched, the buffer holds the rest, and the calls
account for it. -/
structure MmapBase (s : Mmap α) : Prop where
  geometry : Geometry s.pcm
  hwPtr : s.pcm.hwPtr = s.hw % s.pcm.boundary
  applPtr : s.phase ≠ .failed → Stands s.pcm.boundary s.pcm.applPtr s.appl
  fifo : Fifo s.pcm.buffer s.pcm.bufferSize (s.put ++ s.stored) s.got
  le : s.got.length ≤ s.put.length
  room : s.put.length ≤ s.got.length + s.pcm.bufferSize
  count : s.count ≤ s.data.length
  account : (if s.pcm.capture then s.got else s.put) = transferred s
  complete : s.pcm.startThreshold ≤ s.pcm.bufferSize →
    ∀ call ∈ s.calls, 0 ≤ call.result → call.frames = call.data.length

structure MmapOk (s : Mmap α) : Prop extends MmapBase s where
  phase : PhaseOk s s.phase
  fetched : ∀ size offset frames, s.phase = .commit size offset frames → s.pcm.capture = true →
    s.next frames = window s.pcm.buffer s.pcm.bufferSize offset frames

variable {s : Mmap α}

theorem MmapBase.avail_eq (h : MmapBase s) (hphase : s.phase ≠ .failed) : pcmMmapAvail s.pcm =
    if s.pcm.overlapped then (s.pcm.boundary : Int) else (s.avail : Int) := by
  have hhw := h.hwPtr
  have happl := h.applPtr hphase
  have hle := h.le
  have hroom := h.room
  have hall : s.got.length + (s.put.length - s.got.length) = s.put.length := by omega
  unfold pcmMmapAvail Pcm.overlapped Mmap.avail
  unfold Mmap.hw at hhw
  unfold Mmap.appl at happl
  cases hcapture : s.pcm.capture with
  | true =>
    rw [hcapture, if_pos rfl, ← hall] at hhw
    rw [hcapture, if_pos rfl] at happl
    rw [if_pos rfl, pcmMmapCaptureAvail_eq h.geometry hhw happl (by omega)]
    simp
  | false =>
    rw [hcapture, if_neg Bool.false_ne_true] at hhw
    rw [hcapture, if_neg Bool.false_ne_true, ← hall] at happl
    rw [if_neg Bool.false_ne_true, pcmMmapPlaybackAvail_eq h.geometry hhw happl (by omega)]
    simp

/-- In the state that is misread there is no free space at all. -/
theorem MmapBase.overlapped (h : MmapBase s) (hphase : s.phase ≠ .failed)
    (hover : s.pcm.overlapped = true) : s.avail = 0 := by
  have hhw := h.hwPtr
  have happl := h.applPtr hphase
  have hle := h.le
  have hroom := h.room
  have hall : s.got.length + (s.put.length - s.got.length) = s.put.length := by omega
  unfold Pcm.overlapped at hover
  unfold Mmap.hw at hhw
  unfold Mmap.appl at happl
  unfold Mmap.avail
  simp only [Bool.and_eq_true, Bool.not_eq_true', decide_eq_true_eq] at hover
  obtain ⟨hcapture, hover⟩ := hover
  rw [hcapture, if_neg Bool.false_ne_true] at hhw happl ⊢
  rw [← hall] at happl
  have hfull := overlapped_full h.geometry hhw happl (by omega) hover
  omega

theorem MmapBase.avail_le (h : MmapBase s) : s.avail ≤ s.pcm.bufferSize := by
  have hroom := h.room
  unfold Mmap.avail
  split <;> omega

/-- The slot of a pointer is the slot of its count. -/
theorem Geometry.slot {pcm : Pcm α} (h : Geometry pcm) {ptr count : Nat}
    (hptr : ptr % pcm.boundary = count % pcm.boundary) :
    ptr % pcm.bufferSize = count % pcm.bufferSize := by
  rw [← Nat.mod_mod_of_dvd ptr h.turns, hptr, Nat.mod_mod_of_dvd count h.turns]

/-- What `pcm_mmap_begin` offers when it does not misread the pointers. -/
theorem MmapBase.begin_eq (h : MmapBase s) (hphase : s.phase ≠ .failed)
    (hright : s.pcm.overlapped = false) (size : Nat) :
    (pcmMmapBegin s.pcm size).1 = s.appl % s.pcm.bufferSize ∧
      (pcmMmapBegin s.pcm size).2 ≤ size ∧ (pcmMmapBegin s.pcm size).2 ≤ s.avail ∧
      (pcmMmapBegin s.pcm size).1 + (pcmMmapBegin s.pcm size).2 ≤ s.pcm.bufferSize := by
  have hslot := h.geometry.slot (h.applPtr hphase).mod
  have havail := h.avail_eq hphase
  rw [hright, if_neg Bool.false_ne_true] at havail
  have hle := h.avail_le
  have hfits := h.geometry.fits
  unfold intMax at hfits
  have hsmall : (pcmMmapAvail s.pcm % 4294967296).toNat = s.avail := by
    rw [havail]
    omega
  have hturn : s.pcm.applPtr % s.pcm.bufferSize < s.pcm.bufferSize := Nat.mod_lt _ h.geometry.pos
  unfold pcmMmapBegin
  rw [hsmall]
  dsimp only
  refine ⟨hslot, ?_, ?_, ?_⟩
  · split <;> split <;> split <;> omega
  · split <;> split <;> split <;> omega
  · split <;> split <;> split <;> omega

/-- The application has dealt with `frames` more. -/
theorem Geometry.forward {pcm : Pcm α} (h : Geometry pcm) {count frames : Nat}
    (hptr : Stands pcm.boundary pcm.applPtr count) (hframes : frames ≤ pcm.bufferSize) :
    Stands pcm.boundary (pcmMmapApplForward pcm frames).applPtr (count + frames) := by
  obtain ⟨hle, hmod⟩ := hptr
  have htwice := h.twice
  have hfits := h.fits
  unfold intMax at hfits
  have hsmall : (pcm.applPtr + frames) % 4294967296 = pcm.applPtr + frames :=
    Nat.mod_eq_of_lt (by omega)
  have hnext : (pcm.applPtr + frames) % pcm.boundary = (count + frames) % pcm.boundary := by
    rw [← Nat.mod_add_mod, hmod, Nat.mod_add_mod]
  unfold pcmMmapApplForward
  rw [hsmall]
  dsimp only
  split
  · refine ⟨by omega, ?_⟩
    rw [← Nat.mod_eq_sub_mod (by omega), hnext]
  · exact ⟨by omega, hnext⟩

/-- The device has dealt with one more. -/
theorem Geometry.hwForward {pcm : Pcm α} (h : Geometry pcm) {count : Nat}
    (hptr : pcm.hwPtr = count % pcm.boundary) :
    (hwForward pcm).hwPtr = (count + 1) % pcm.boundary := by
  have hpos := h.pos
  have htwice := h.twice
  have hplace := @mod_cases pcm.boundary count 1 (by omega)
  unfold TinyAlsa.hwForward
  dsimp only
  split <;> omega

theorem next_length (h : s.count ≤ s.data.length) {frames : Nat} (hframes : frames ≤ s.count) :
    (s.next frames).length = frames := by
  simp [Mmap.next]
  omega

def Phase.active : Phase → Bool
  | .idle | .failed => false
  | _ => true

theorem transferred_active (hactive : s.phase.active = true) : transferred s =
    (s.calls.flatMap fun call => call.data.take call.frames) ++
      s.data.take (s.data.length - s.count) := by
  unfold transferred
  cases hphase : s.phase <;> simp_all [Phase.active]

theorem transferred_rest (hactive : s.phase.active = false) : transferred s =
    s.calls.flatMap fun call => call.data.take call.frames := by
  unfold transferred
  cases hphase : s.phase <;> simp_all [Phase.active]

/-- The transfer goes on to a phase in which nothing is stored ahead. -/
theorem MmapBase.move (h : MmapBase s) (hactive : s.phase.active = true) (hstored : s.stored = [])
    (phase : Phase) (hnext : phase.active = true)
    (hcommit : ∀ size offset frames, phase ≠ .commit size offset frames) (hphase : PhaseOk s phase)
    (running : Bool) :
    MmapOk { s with phase := phase, pcm := { s.pcm with running := running } } := by
  have hstored' : Mmap.stored { s with phase := phase, pcm := { s.pcm with running := running } } =
      [] := by
    unfold Mmap.stored
    cases phase <;> simp_all
  refine ⟨⟨⟨h.geometry.pos, h.geometry.turns, h.geometry.twice, h.geometry.fits,
      h.geometry.min⟩,
    h.hwPtr, ?_, ?_, h.le, h.room, h.count, ?_, h.complete⟩, ?_, ?_⟩
  · intro _
    apply h.applPtr
    intro hfailed
    rw [hfailed] at hactive
    cases hactive
  · have hfifo := h.fifo
    rw [hstored] at hfifo
    rw [hstored']
    exact hfifo
  · have haccount := h.account
    rw [transferred_active hactive] at haccount
    rw [transferred_active hnext]
    exact haccount
  · cases phase <;> exact hphase
  · intro size offset frames heq
    exact absurd heq (hcommit size offset frames)

/-- The transfer returns. -/
theorem MmapBase.finish (h : MmapBase s) (hactive : s.phase.active = true) (hstored : s.stored = [])
    {result : Int}
    (hresult : s.pcm.startThreshold ≤ s.pcm.bufferSize → 0 ≤ result → s.count = 0) :
    MmapOk (finish s result) := by
  refine ⟨⟨h.geometry, h.hwPtr, ?_, ?_, h.le, h.room, h.count, ?_, ?_⟩, trivial, ?_⟩
  · intro _
    apply h.applPtr
    intro hfailed
    rw [hfailed] at hactive
    cases hactive
  · have hfifo := h.fifo
    rw [hstored] at hfifo
    exact hfifo
  · have haccount := h.account
    rw [transferred_active hactive] at haccount
    have hcalls : (TinyAlsa.finish s result).calls =
        s.calls ++ [⟨s.data, s.data.length - s.count, result⟩] := rfl
    rw [transferred_rest rfl, hcalls, List.flatMap_append, List.flatMap_singleton]
    exact haccount
  · intro hthreshold call hcall hok
    rcases List.mem_append.mp hcall with hold | hnew
    · exact h.complete hthreshold call hold hok
    · rw [List.mem_singleton.mp hnew] at hok ⊢
      have hzero := hresult hthreshold hok
      simp [hzero]
  · intro size offset frames heq
    cases heq

theorem updateStep_ok (h : MmapOk s) (hphase : s.phase = .update) (answer : Int) :
    MmapOk (updateStep s answer) := by
  have hactive : s.phase.active = true := by rw [hphase]; rfl
  have hstored : s.stored = [] := by rw [Mmap.stored, hphase]
  have hpos : 0 < s.count := by
    have hok := h.phase
    rw [hphase] at hok
    exact hok
  have hmin := h.geometry.min
  have hfits := h.geometry.fits
  have htwice := h.geometry.twice
  have hbuffer := h.geometry.pos
  unfold intMax at hfits
  have havail : ∃ avail : Nat, pcmMmapAvail s.pcm = avail ∧ avail ≤ s.pcm.boundary ∧
      (avail ≤ s.pcm.bufferSize ∨ avail = s.pcm.boundary) := by
    rw [h.avail_eq (by rw [hphase]; decide)]
    have hle := h.avail_le
    split
    · exact ⟨s.pcm.boundary, rfl, Nat.le_refl _, .inr rfl⟩
    · exact ⟨s.avail, rfl, by omega, .inl hle⟩
  obtain ⟨avail, havail, hbound, hwhich⟩ := havail
  obtain ⟨frames, hframes, hle, hzero⟩ : ∃ frames,
      (if (s.count : Int) > (avail : Int) then (avail : Int).toNat else s.count) = frames ∧
        frames ≤ s.count ∧ (frames = 0 → avail = 0) := by
    refine ⟨_, rfl, ?_, ?_⟩ <;> split <;> omega
  unfold updateStep
  rw [havail]
  dsimp only
  rw [if_neg (by omega), hframes]
  generalize hstarts : (!s.pcm.running && decide (((s.pcm.bufferSize - (avail : Int)) %
    4294967296).toNat ≥ s.pcm.startThreshold)) = starts
  by_cases hfail : (starts && decide (answer < 0)) = true
  · rw [if_pos hfail]
    refine h.finish hactive hstored fun _ hok => ?_
    simp at hfail
    omega
  · rw [if_neg hfail]
    split
    case isTrue => exact h.move hactive hstored .wait rfl (by simp) hpos _
    case isFalse hgoes =>
      split
      case isTrue hnone =>
        have hmove := h.move hactive hstored .update rfl (by simp) hpos (s.pcm.running || starts)
        have hdone := @MmapBase.finish _ _ hmove.toMmapBase rfl rfl 0 fun hthreshold _ => by
          have hempty := hzero hnone
          rw [hempty, hmin] at hgoes
          have hidle : (s.pcm.running || starts) = false := by simpa using hgoes
          obtain ⟨hrunning, hnot⟩ := Bool.or_eq_false_iff.mp hidle
          rw [hnot, hrunning, hempty] at hstarts
          have hlow : ¬ ((s.pcm.bufferSize - ((0 : Nat) : Int)) % 4294967296).toNat ≥
              s.pcm.startThreshold := by simpa using hstarts
          have hthreshold : s.pcm.startThreshold ≤ s.pcm.bufferSize := hthreshold
          omega
        exact hdone
      case isFalse hsome =>
        exact h.move hactive hstored (.begins frames) rfl (by simp) ⟨by omega, hle⟩ _

theorem waitStep_ok (h : MmapOk s) (hphase : s.phase = .wait) (answer : Int) :
    MmapOk (waitStep s answer) := by
  have hactive : s.phase.active = true := by rw [hphase]; rfl
  have hstored : s.stored = [] := by rw [Mmap.stored, hphase]
  have hpos : 0 < s.count := by
    have hok := h.phase
    rw [hphase] at hok
    exact hok
  unfold waitStep
  split
  case isTrue hfail =>
    have hdone := @MmapBase.finish _ _ h.toMmapBase hactive hstored answer fun _ hok => by omega
    have haccount := hdone.account
    rw [transferred_rest rfl] at haccount
    refine ⟨⟨⟨h.geometry.pos, h.geometry.turns, h.geometry.twice, h.geometry.fits,
      h.geometry.min⟩, hdone.hwPtr, fun hnot => absurd rfl hnot, hdone.fifo, hdone.le, hdone.room,
      hdone.count, ?_, hdone.complete⟩, trivial, ?_⟩
    · rw [transferred_rest rfl]
      exact haccount
    · intro size offset frames heq
      cases heq
  case isFalse => exact h.move hactive hstored .update rfl (by simp) hpos s.pcm.running

theorem beginStep_ok (h : MmapOk s) {size : Nat} (hphase : s.phase = .begins size)
    (hright : s.pcm.overlapped = false) : MmapOk
      { s with phase := .copy size (pcmMmapBegin s.pcm size).1 (pcmMmapBegin s.pcm size).2 } := by
  have hactive : s.phase.active = true := by rw [hphase]; rfl
  have hstored : s.stored = [] := by rw [Mmap.stored, hphase]
  have hok := h.phase
  rw [hphase] at hok
  obtain ⟨hoffset, hsize, havail, hend⟩ := h.begin_eq (by simp [hphase]) hright size
  exact h.move hactive hstored (.copy size _ _) rfl (by simp)
    ⟨hok.1, hok.2, hoffset, hsize, havail, hend⟩ s.pcm.running

theorem copyStep_ok (h : MmapOk s) {size offset frames : Nat}
    (hphase : s.phase = .copy size offset frames) : MmapOk (copyStep s size offset frames) := by
  have hok := h.phase
  rw [hphase] at hok
  obtain ⟨hpos, hsize, hoffset, hframes, havail, hend⟩ := hok
  have hactive : s.phase.active = true := by rw [hphase]; rfl
  have hstored : s.stored = [] := by rw [Mmap.stored, hphase]
  have happl := h.applPtr (by simp [hphase])
  have hcount := h.count
  have hfifo := h.fifo
  have haccount := h.account
  have hle := h.le
  have hroom := h.room
  have hnext := next_length hcount (show frames ≤ s.count by omega)
  rw [hstored, List.append_nil] at hfifo
  rw [transferred_active hactive] at haccount
  unfold copyStep
  unfold Mmap.avail at havail
  unfold Mmap.appl at hoffset happl
  cases hcapture : s.pcm.capture with
  | true =>
    rw [hcapture, if_pos rfl] at hoffset havail happl haccount
    rw [if_pos rfl]
    obtain ⟨done, hdone⟩ : ∃ done, done = s.data.length - s.count := ⟨_, rfl⟩
    obtain ⟨filled, hfilled⟩ : ∃ filled, filled = s.data.take done ++
        window s.pcm.buffer s.pcm.bufferSize offset frames ++ s.data.drop (done + frames) :=
      ⟨_, rfl⟩
    have htake : (s.data.take done).length = done := by
      rw [List.length_take]
      omega
    have hlength : filled.length = s.data.length := by
      rw [hfilled, List.length_append, List.length_append, htake, window_length, List.length_drop]
      omega
    have hbefore : filled.take done = s.data.take done := by
      rw [hfilled, List.append_assoc, List.take_left' htake]
    have hafter : (filled.drop done).take frames =
        window s.pcm.buffer s.pcm.bufferSize offset frames := by
      rw [hfilled, List.append_assoc, List.drop_left' htake, List.take_left' (window_length ..)]
    rw [← hdone] at haccount
    rw [← hdone, ← hfilled]
    refine ⟨⟨h.geometry, h.hwPtr, ?_, ?_, hle, hroom, by rw [hlength]; exact hcount, ?_,
      h.complete⟩, ?_, ?_⟩
    · intro _
      simpa [Mmap.appl, hcapture] using happl
    · simpa [Mmap.stored, hcapture] using hfifo
    · rw [transferred_active rfl, hcapture, if_pos rfl, hlength, ← hdone, hbefore]
      exact haccount
    · refine ⟨hpos, hsize, ?_, hframes, ?_, hend⟩
      · simpa [Mmap.appl, hcapture] using hoffset
      · simpa [Mmap.avail, hcapture] using havail
    · intro _ _ _ heq _
      cases heq
      rw [Mmap.next, hlength, ← hdone]
      exact hafter
  | false =>
    rw [hcapture, if_neg Bool.false_ne_true] at hoffset havail happl haccount
    rw [if_neg Bool.false_ne_true]
    have hstore := hfifo.store (s.next frames) (by omega) (by omega)
    rw [← hoffset] at hstore
    refine ⟨⟨⟨h.geometry.pos, h.geometry.turns, h.geometry.twice, h.geometry.fits,
      h.geometry.min⟩, h.hwPtr, ?_, ?_, hle, hroom, hcount, ?_, h.complete⟩, ?_, ?_⟩
    · intro _
      simpa [Mmap.appl, hcapture] using happl
    · simpa [Mmap.stored, Mmap.next, hcapture] using hstore
    · rw [transferred_active rfl]
      simpa [hcapture] using haccount
    · refine ⟨hpos, hsize, ?_, hframes, ?_, hend⟩
      · simpa [Mmap.appl, hcapture] using hoffset
      · simpa [Mmap.avail, hcapture] using havail
    · intro _ _ _ _ htrue
      rw [hcapture] at htrue
      cases htrue

theorem commitStep_ok (h : MmapOk s) {size offset frames : Nat}
    (hphase : s.phase = .commit size offset frames) : MmapOk (commitStep s size frames) := by
  have hok := h.phase
  rw [hphase] at hok
  obtain ⟨hpos, hsize, hoffset, hframes, havail, hend⟩ := hok
  have hactive : s.phase.active = true := by rw [hphase]; rfl
  have hcount := h.count
  have hmoved := next_length hcount (show frames ≤ s.count by omega)
  have happl := h.geometry.forward (h.applPtr (by simp [hphase]))
    (Nat.le_trans havail h.avail_le)
  have haccount := h.account
  rw [transferred_active hactive] at haccount
  -- the call is `frames` further, and has the next of its data behind it
  have hbehind : s.data.take (s.data.length - (s.count - frames)) =
      s.data.take (s.data.length - s.count) ++ s.next frames := by
    rw [show s.data.length - (s.count - frames) = s.data.length - s.count + frames by omega,
      List.take_add]
    rfl
  let t : Mmap α := { s with
    phase := .update
    pcm := pcmMmapApplForward s.pcm frames
    count := s.count - frames
    put := if s.pcm.capture then s.put else s.put ++ s.next frames
    got := if s.pcm.capture then s.got ++ s.next frames else s.got }
  have hbase : MmapBase t := by
    have hfifo := h.fifo
    have hhw := h.hwPtr
    have hle := h.le
    have hroom := h.room
    have hgeometry : Geometry (pcmMmapApplForward s.pcm frames) :=
      ⟨h.geometry.pos, h.geometry.turns, h.geometry.twice, h.geometry.fits, h.geometry.min⟩
    unfold Mmap.avail at havail
    unfold Mmap.appl at happl hoffset
    unfold Mmap.hw at hhw
    cases hcapture : s.pcm.capture with
    | true =>
      have hstored : s.stored = [] := by simp [Mmap.stored, hphase, hcapture]
      rw [hcapture, if_pos rfl] at havail happl hoffset hhw haccount
      rw [hstored, List.append_nil] at hfifo
      have hfetch := hfifo.fetch (n := frames) (by omega)
      rw [← hoffset, ← h.fetched size offset frames hphase hcapture] at hfetch
      have hlength : (s.got ++ s.next frames).length = s.got.length + frames := by
        rw [List.length_append, hmoved]
      refine ⟨hgeometry, ?_, ?_, ?_, ?_, ?_, ?_, ?_, h.complete⟩
      · simpa [t, Mmap.hw, pcmMmapApplForward, hcapture] using hhw
      · intro _
        simpa [t, Mmap.appl, pcmMmapApplForward, hcapture, hmoved] using happl
      · simpa [t, Mmap.stored, pcmMmapApplForward, hcapture] using hfetch
      · simp only [t, hcapture, if_true, hlength]
        omega
      · simp only [t, hcapture, if_true, hlength, pcmMmapApplForward]
        omega
      · simp only [t]
        omega
      · rw [transferred_active rfl]
        simp only [t, hcapture, if_true, pcmMmapApplForward, hbehind, haccount, List.append_assoc]
    | false =>
      have hstored : s.stored = s.next frames := by simp [Mmap.stored, hphase, hcapture]
      rw [hcapture, if_neg Bool.false_ne_true] at havail happl hoffset hhw haccount
      rw [hstored] at hfifo
      have hlength : (s.put ++ s.next frames).length = s.put.length + frames := by
        rw [List.length_append, hmoved]
      refine ⟨hgeometry, ?_, ?_, ?_, ?_, ?_, ?_, ?_, h.complete⟩
      · simpa [t, Mmap.hw, pcmMmapApplForward, hcapture] using hhw
      · intro _
        simpa [t, Mmap.appl, pcmMmapApplForward, hcapture, hmoved] using happl
      · simpa [t, Mmap.stored, pcmMmapApplForward, hcapture] using hfifo
      · simp only [t, hcapture, Bool.false_eq_true, if_false, hlength]
        omega
      · simp only [t, hcapture, Bool.false_eq_true, if_false, hlength, pcmMmapApplForward]
        omega
      · simp only [t]
        omega
      · rw [transferred_active rfl]
        simp only [t, hcapture, Bool.false_eq_true, if_false, pcmMmapApplForward, hbehind,
          haccount, List.append_assoc]
  have hcommit : commitStep s size frames =
      if size - frames = 0 then if s.count - frames = 0 then finish t 0 else t
      else { t with phase := .begins (size - frames) } := rfl
  rw [hcommit]
  split
  · split
    case isTrue hdone => exact hbase.finish rfl rfl fun _ _ => hdone
    case isFalse hmore =>
      exact hbase.move rfl rfl .update rfl (by simp) (Nat.pos_of_ne_zero hmore) t.pcm.running
  · have hpos' : 0 < size - frames := by omega
    have hle' : size - frames ≤ s.count - frames := by omega
    exact hbase.move rfl rfl (.begins (size - frames)) rfl (by simp) ⟨hpos', hle'⟩ t.pcm.running

theorem PhaseOk.mono {t : Mmap α} {phase : Phase} (h : PhaseOk s phase) (hcount : t.count = s.count)
    (happl : t.appl = s.appl) (hsize : t.pcm.bufferSize = s.pcm.bufferSize)
    (havail : s.avail ≤ t.avail) : PhaseOk t phase := by
  unfold PhaseOk at h ⊢
  rw [hcount]
  cases phase with
  | idle | failed => trivial
  | update | wait => exact h
  | begins size => exact h
  | copy size offset frames | commit size offset frames =>
    obtain ⟨hpos, hle, hoffset, hframes, hroom, hend⟩ := h
    refine ⟨hpos, hle, ?_, hframes, Nat.le_trans hroom havail, ?_⟩
    · rw [happl, hsize]
      exact hoffset
    · rw [hsize]
      exact hend

/-- The transfer is where it was when the device moves. -/
theorem transferred_same {t : Mmap α} (hphase : t.phase = s.phase) (hdata : t.data = s.data)
    (hcount : t.count = s.count) (hcalls : t.calls = s.calls) : transferred t = transferred s := by
  rw [transferred, hphase, hdata, hcount, hcalls, transferred]

/-- The device plays a frame. -/
theorem hwStep_plays (h : MmapOk s) (hcapture : s.pcm.capture = false)
    (hmore : s.got.length < s.put.length) : MmapOk { s with
      pcm := hwForward s.pcm
      got := s.got ++ [s.pcm.buffer (s.pcm.hwPtr % s.pcm.bufferSize)] } := by
  have hfifo := h.fifo
  have hhw := h.hwPtr
  have happl := h.applPtr
  have hroom := h.room
  have haccount := h.account
  unfold Mmap.hw at hhw
  unfold Mmap.appl at happl
  rw [hcapture, if_neg Bool.false_ne_true] at hhw happl haccount
  have hturn : s.got.length % s.pcm.boundary % s.pcm.boundary = s.got.length % s.pcm.boundary :=
    Nat.mod_mod _ _
  have hslot : s.pcm.hwPtr % s.pcm.bufferSize = s.got.length % s.pcm.bufferSize := by
    rw [hhw]
    exact h.geometry.slot hturn
  have hfetch := hfifo.fetch (n := 1) (by rw [List.length_append]; omega)
  rw [window_succ _ _ _ _ (Nat.mod_lt _ h.geometry.pos), window_zero, ← hslot] at hfetch
  have hforward := h.geometry.hwForward hhw
  have hgeometry : Geometry (hwForward s.pcm) :=
    ⟨h.geometry.pos, h.geometry.turns, h.geometry.twice, h.geometry.fits, h.geometry.min⟩
  refine ⟨⟨hgeometry, ?_, ?_, hfetch, ?_, ?_, h.count, ?_, h.complete⟩, ?_, ?_⟩
  · simpa [Mmap.hw, hwForward, hcapture] using hforward
  · simpa [Mmap.appl, hwForward, hcapture] using happl
  · simp only [List.length_append, List.length_singleton]
    omega
  · simp only [List.length_append, List.length_singleton, hwForward]
    omega
  · have hsame : transferred { s with
        pcm := hwForward s.pcm
        got := s.got ++ [s.pcm.buffer (s.pcm.hwPtr % s.pcm.bufferSize)] } = transferred s :=
      transferred_same rfl rfl rfl rfl
    rw [hsame]
    simpa [hwForward, hcapture] using haccount
  · refine h.phase.mono rfl ?_ rfl ?_
    · simp [Mmap.appl, hwForward, hcapture]
    · simp [Mmap.avail, hwForward, hcapture]
      omega
  · intro _ _ _ _ htrue
    have htrue : s.pcm.capture = true := htrue
    rw [hcapture] at htrue
    cases htrue

/-- The device captures a frame. -/
theorem hwStep_captures (h : MmapOk s) (hcapture : s.pcm.capture = true)
    (hmore : s.put.length < s.got.length + s.pcm.bufferSize) (x : α) : MmapOk { s with
      pcm := hwForward { s.pcm with
        buffer := copyAt s.pcm.buffer (s.pcm.hwPtr % s.pcm.bufferSize) [x] }
      put := s.put ++ [x] } := by
  have hfifo := h.fifo
  have hhw := h.hwPtr
  have happl := h.applPtr
  have hle := h.le
  have haccount := h.account
  have hstored : s.stored = [] := by
    unfold Mmap.stored
    split <;> simp [hcapture]
  unfold Mmap.hw at hhw
  unfold Mmap.appl at happl
  rw [hcapture, if_pos rfl] at hhw haccount
  rw [hcapture] at happl
  rw [hstored, List.append_nil] at hfifo
  have hturn : s.put.length % s.pcm.boundary % s.pcm.boundary = s.put.length % s.pcm.boundary :=
    Nat.mod_mod _ _
  have hslot : s.pcm.hwPtr % s.pcm.bufferSize = s.put.length % s.pcm.bufferSize := by
    rw [hhw]
    exact h.geometry.slot hturn
  have hstore := hfifo.storeOne x hmore
  rw [← hslot] at hstore
  have hforward := h.geometry.hwForward hhw
  have hgeometry : Geometry (hwForward { s.pcm with
      buffer := copyAt s.pcm.buffer (s.pcm.hwPtr % s.pcm.bufferSize) [x] }) :=
    ⟨h.geometry.pos, h.geometry.turns, h.geometry.twice, h.geometry.fits, h.geometry.min⟩
  refine ⟨⟨hgeometry, ?_, ?_, ?_, ?_, ?_, h.count, ?_, h.complete⟩, ?_, ?_⟩
  · simpa [Mmap.hw, hwForward, hcapture] using hforward
  · simpa [Mmap.appl, hwForward, hcapture] using happl
  · have hnone : Mmap.stored { s with
        pcm := hwForward { s.pcm with
          buffer := copyAt s.pcm.buffer (s.pcm.hwPtr % s.pcm.bufferSize) [x] }
        put := s.put ++ [x] } = [] := by
      unfold Mmap.stored
      split <;> simp [hwForward, hcapture]
    rw [hnone, List.append_nil]
    exact hstore
  · simp only [List.length_append, List.length_singleton]
    omega
  · simp only [List.length_append, List.length_singleton, hwForward]
    omega
  · have hsame : transferred { s with
        pcm := hwForward { s.pcm with
          buffer := copyAt s.pcm.buffer (s.pcm.hwPtr % s.pcm.bufferSize) [x] }
        put := s.put ++ [x] } = transferred s := transferred_same rfl rfl rfl rfl
    rw [hsame]
    simpa [hwForward, hcapture] using haccount
  · refine h.phase.mono rfl ?_ rfl ?_
    · simp [Mmap.appl, hwForward, hcapture]
    · simp [Mmap.avail, hwForward, hcapture]
      omega
  · -- what is being fetched lies before the frame that has come
    intro size offset frames hphase _
    have hok := h.phase
    have hphase : s.phase = .commit size offset frames := hphase
    rw [hphase] at hok
    obtain ⟨-, -, hoffset, -, havail, -⟩ := hok
    unfold Mmap.appl at hoffset
    unfold Mmap.avail at havail
    rw [hcapture, if_pos rfl] at hoffset havail
    have hbefore := h.fetched size offset frames hphase hcapture
    have hold := hfifo.window_eq (n := frames) (by omega)
    have hnew := hstore.window_eq (n := frames) (by rw [List.length_append]; omega)
    have hpart : ((s.put ++ [x]).drop s.got.length).take frames =
        (s.put.drop s.got.length).take frames := by
      rw [List.drop_append_of_le_length hle, List.take_append_of_le_length]
      rw [List.length_drop]
      omega
    rw [hoffset, hold] at hbefore
    rw [hpart] at hnew
    rw [hoffset]
    exact hbefore.trans hnew.symm

theorem hwStep_ok (h : MmapOk s) {x : α} {t : Mmap α} (hstep : hwStep s x = some t)
    (hroom : xruns s (.hw x) = false) : MmapOk t := by
  unfold hwStep at hstep
  rw [xruns] at hroom
  split at hstep
  · cases hstep
  · split at hstep
    case isTrue hcapture =>
      rw [if_pos hcapture, decide_eq_false_iff_not] at hroom
      cases hstep
      exact hwStep_captures h hcapture (by omega) x
    case isFalse hplayback =>
      rw [if_neg hplayback, decide_eq_false_iff_not] at hroom
      cases hstep
      exact hwStep_plays h (by simpa using hplayback) (by omega)

theorem mmapStep_ok (h : MmapOk s) {c : MmapCall α} {t : Mmap α} (hstep : mmapStep s c = some t)
    (hright : misreads s c = false) (hroom : xruns s c = false) : MmapOk t := by
  cases c with
  | transfer data =>
    rw [mmapStep] at hstep
    split at hstep
    case isFalse => cases hstep
    case isTrue hidle =>
      have hstored : s.stored = [] := by rw [Mmap.stored, hidle]
      have haccount := h.account
      have hfifo := h.fifo
      rw [transferred_rest (by rw [hidle]; rfl)] at haccount
      rw [hstored] at hfifo
      split at hstep
      case isTrue =>
        cases hstep
        exact h
      case isFalse hsome =>
        cases hstep
        refine ⟨⟨h.geometry, h.hwPtr, fun _ => h.applPtr (by simp [hidle]), hfifo, h.le, h.room,
          Nat.le_refl _, ?_, h.complete⟩, Nat.pos_of_ne_zero hsome, ?_⟩
        · rw [transferred_active rfl]
          simpa using haccount
        · intro size offset frames heq
          cases heq
  | app answer =>
    rw [mmapStep, appStep] at hstep
    cases hphase : s.phase with
    | idle | failed => simp [hphase] at hstep
    | update =>
      rw [hphase] at hstep
      cases hstep
      exact updateStep_ok h hphase answer
    | wait =>
      rw [hphase] at hstep
      cases hstep
      exact waitStep_ok h hphase answer
    | begins size =>
      rw [hphase] at hstep
      cases hstep
      exact beginStep_ok h hphase (by simpa [misreads, hphase] using hright)
    | copy size offset frames =>
      rw [hphase] at hstep
      cases hstep
      exact copyStep_ok h hphase
    | commit size offset frames =>
      rw [hphase] at hstep
      cases hstep
      exact commitStep_ok h hphase
  | hw x => exact hwStep_ok h hstep hroom

end Invariant

/-- What the application and the device agree on. The one fetches what the other has stored, in
order and at most a buffer behind; every call stands for the frames that it says, all of them
if it succeeded. The space that the library sees is there, except that it takes a full buffer
for an empty boundary when the pointers overlap. -/
structure Mmap.Faithful {α : Type} (s : Mmap α) : Prop where
  order : s.got <+: s.put
  room : s.put.length ≤ s.got.length + s.pcm.bufferSize
  account : (if s.pcm.capture then s.got else s.put) = transferred s
  complete : s.pcm.startThreshold ≤ s.pcm.bufferSize →
    ∀ call ∈ s.calls, 0 ≤ call.result → call.frames = call.data.length
  avail : s.phase ≠ .failed → pcmMmapAvail s.pcm =
    if s.pcm.overlapped then (s.pcm.boundary : Int) else (s.avail : Int)
  overlapped : s.phase ≠ .failed → s.pcm.overlapped = true → s.avail = 0

theorem MmapOk.faithful {α : Type} {s : Mmap α} (h : MmapOk s) : s.Faithful where
  order := by
    rw [List.prefix_iff_eq_take]
    have hfetched := h.fifo.fetched
    rw [List.take_append_of_le_length h.le] at hfetched
    exact hfetched
  room := h.room
  account := h.account
  complete := h.complete
  avail := h.avail_eq
  overlapped := h.overlapped

theorem prepared_ok {α : Type} (capture : Bool) {bufferSize : Nat} (startThreshold : Nat)
    (buffer : Nat → α) (hpos : 0 < bufferSize) (hsize : 3 * bufferSize ≤ intMax) :
    MmapOk (prepared capture bufferSize startThreshold buffer) := by
  obtain ⟨hdvd, htwice, hfits⟩ := pcmBoundary_spec hsize
  refine ⟨⟨⟨hpos, hdvd, htwice, hfits, rfl⟩, ?_, ?_, fifo_nil _ _, Nat.le_refl _, Nat.zero_le _,
    Nat.le_refl _, ?_, ?_⟩, trivial, ?_⟩
  · cases capture <;> simp [prepared, Mmap.hw]
  · exact fun _ => ⟨Nat.zero_le _, by cases capture <;> simp [prepared, Mmap.appl]⟩
  · cases capture <;> simp [prepared, transferred]
  · intro _ call hcall
    cases hcall
  · intro size offset frames heq
    cases heq

/-- What is played past the end was never put, and what is captured into a full buffer is more than
the buffer holds. -/
theorem xrun_unfaithful {α : Type} {s t : Mmap α} {c : MmapCall α}
    (hstep : mmapStep s c = some t) (hover : xruns s c = true) : ¬t.Faithful := by
  cases c with
  | transfer data => cases hover
  | app answer => cases hover
  | hw x =>
    rw [mmapStep, hwStep] at hstep
    rw [xruns] at hover
    intro hfaithful
    have hprefix := hfaithful.order.length_le
    have hspace := hfaithful.room
    split at hstep
    · cases hstep
    · split at hstep
      case isTrue hcapture =>
        rw [if_pos hcapture, decide_eq_true_eq] at hover
        cases hstep
        simp only [List.length_append, List.length_singleton, hwForward] at hspace
        omega
      case isFalse hplayback =>
        rw [if_neg hplayback, decide_eq_true_eq] at hover
        cases hstep
        simp only [List.length_append, List.length_singleton] at hprefix
        omega

/-- The mapped buffer is a queue between the application and the device, however the device
moves while frames are copied, exactly as long as it neither plays past the frames that are there
nor captures over them. No frames may be asked for while the buffer is full and only the
application pointer has passed the boundary. -/
theorem mmap_faithful {α : Type} (capture : Bool) {bufferSize : Nat} (startThreshold : Nat)
    (buffer : Nat → α) (hpos : 0 < bufferSize) (hsize : 3 * bufferSize ≤ intMax)
    (calls : List (MmapCall α))
    (hright : Along mmapStep (fun s c _ => misreads s c = false)
      (prepared capture bufferSize startThreshold buffer) calls) :
    Along mmapStep (fun s c _ => xruns s c = false)
        (prepared capture bufferSize startThreshold buffer) calls ↔
      Along mmapStep (fun _ _ t => t.Faithful)
        (prepared capture bufferSize startThreshold buffer) calls := by
  have hok := prepared_ok capture startThreshold buffer hpos hsize
  constructor
  · intro hroom
    refine Along.mono MmapOk ?_ hok (hright.and hroom)
    intro s c t h hstep hc
    have ht := mmapStep_ok h hstep hc.1 hc.2
    exact ⟨ht.faithful, ht⟩
  · intro hfaithful
    refine Along.mono MmapOk ?_ hok (hright.and hfaithful)
    intro s c t h hstep hc
    cases hover : xruns s c with
    | false => exact ⟨rfl, mmapStep_ok h hstep hc.1 hover⟩
    | true => exact absurd hc.2 (xrun_unfaithful hstep hover)

/-- Six frames for a buffer of four; the device has played three of them. -/
def sixFrames : List (MmapCall Nat) :=
  [.transfer [1, 2, 3, 4, 5, 6], .app 0, .app 0, .app 0, .app 0, .app 0, .hw 0, .app 0, .app 0, .hw 0,
    .app 0, .app 0, .app 0, .hw 0, .app 0, .app 0]

theorem sixFrames_faithful :
    Along mmapStep (fun _ _ t => t.Faithful) (prepared false 4 2 fun _ => 0) sixFrames ∧
      (run mmapStep (prepared false 4 2 fun _ => 0) sixFrames).map (fun t => t.got) =
        some [1, 2, 3] := by
  refine ⟨?_, by decide +kernel⟩
  exact (mmap_faithful false 2 (fun _ => 0) (by decide) (by decide) sixFrames (by decide +kernel)).mp
    (by decide +kernel)

end TinyAlsa
