import Mathlib.Data.List.Range
import Mocha.AudioInput

/-!
# The buffer provider of the input resampler

A stream whose rate differs from the hardware's reads through a resampler. The
resampler asks `get_next_buffer` for captured frames and gives back with
`release_buffer` as many as it has used. The provider refills its buffer with
`pcm_read` when no frame is left in it.

The code only moves samples, so a sample is named by its place in the capture;
`none` is what was in the memory before. Samples have 16 bits, the format in
which `do_open_pcm_input` opens the device. `audio_stream_in_frame_size` belongs
to the system; the stream keeps what it answered for the requested format.
-/
namespace TinyHal.Resampling

def enodev : Int := 19

def inChannelCountDefault : Nat := 1

/-- `buffer` is the memory from the start of the buffer on, in samples. -/
structure InResampler where
  inBufferSize : Nat
  inBufferFrames : Nat
  framesIn : Nat
  buffer : Int → Option Nat
  readStatus : Int

structure StreamInPcm where
  pcm : Bool
  channelCount : Nat
  frameSize : Nat
  hwChannelCount : Nat
  periodSize : Nat
  resampler : InResampler

/-- `do_init_in_common` of a new stream, as far as the provider goes. -/
def doInitInCommon (frameSize : FrameSize) (config : AudioConfig) : StreamInPcm :=
  { pcm := false, channelCount := popcount config.channelMask
    frameSize := frameSize config.format (inGetChannels config.channelMask)
    hwChannelCount := 0, periodSize := 0, resampler := ⟨0, 0, 0, fun _ => none, 0⟩ }

def inPcmCfgChannelCount (si : StreamInPcm) : Nat :=
  if si.channelCount ≠ 0 then si.channelCount else inChannelCountDefault

/-- `pcm_frames_to_bytes` of a device with 16-bit samples, in `unsigned int`. -/
def pcmFramesToBytes (channels frames : Nat) : Nat := frames * channels * (16 / 8) % 4294967296

/-- The frames that `pcm_read` asks the device for. -/
def pcmReadFrames (channels count : Nat) : Nat := count / (channels * 16 / 8)

/-- `none` is a division by zero. The count of frames left over is not reset. -/
def inResamplerInit (si : StreamInPcm) (channels hwFragment : Nat) : Option StreamInPcm :=
  let size := hwFragment * channels * si.frameSize % 4294967296
  if channels * si.frameSize = 0 then none
  else some { si with resampler := { si.resampler with
    inBufferSize := size
    inBufferFrames := size / (channels * si.frameSize)
    buffer := fun _ => none } }

/-- Opening the device at another rate than the stream's; `periodSize` is the one the device chose. -/
def doOpenPcmInput (si : StreamInPcm) (periodSize : Nat) : Option StreamInPcm :=
  let channels := inPcmCfgChannelCount si
  inResamplerInit { si with pcm := true, hwChannelCount := channels, periodSize := periodSize }
    channels (pcmFramesToBytes channels periodSize)

/-- `in_resampler_free` frees the buffer. -/
def doInPcmStandby (si : StreamInPcm) : StreamInPcm :=
  { si with pcm := false, resampler := { si.resampler with buffer := fun _ => none } }

/-- `raw` is an offset into the buffer, in samples. -/
structure ResamplerBuffer where
  raw : Option Int
  frameCount : Nat
  deriving DecidableEq, Repr

/-- The samples that a `pcm_read` of the whole buffer delivers. -/
def StreamInPcm.readSamples (si : StreamInPcm) : Nat :=
  pcmReadFrames si.hwChannelCount si.resampler.inBufferSize * si.hwChannelCount

/-- The part of `get_next_buffer` after a successful `pcm_read` of samples from `position` on. -/
def refill (si : StreamInPcm) (position : Nat) : InResampler :=
  let read : Int → Option Nat := fun i =>
    if 0 ≤ i ∧ i < si.readSamples then some (position + i.toNat) else si.resampler.buffer i
  let framesIn := si.resampler.inBufferFrames
  { si.resampler with
    readStatus := 0
    framesIn := framesIn
    buffer :=
      -- Discard right channel
      if si.channelCount = 1 ∧ si.hwChannelCount = 2 then
        fun i => if 1 ≤ i ∧ i < framesIn then read (i * 2) else read i
      else read }

/-- `status` is what `pcm_read` returns if it is called. -/
def getNextBuffer (si : StreamInPcm) (status : Int) (position frameCount : Nat) :
    Int × ResamplerBuffer × StreamInPcm :=
  if !si.pcm then
    (-enodev, ⟨none, 0⟩, { si with resampler := { si.resampler with readStatus := -enodev } })
  else if si.resampler.framesIn = 0 ∧ status ≠ 0 then
    (status, ⟨none, 0⟩, { si with resampler := { si.resampler with readStatus := status } })
  else
    let rsp := if si.resampler.framesIn = 0 then refill si position else si.resampler
    (rsp.readStatus,
      ⟨some (rsp.inBufferFrames - rsp.framesIn),
        if frameCount > rsp.framesIn then rsp.framesIn else frameCount⟩,
      { si with resampler := rsp })

def releaseBuffer (si : StreamInPcm) (frameCount : Nat) : StreamInPcm :=
  { si with resampler := { si.resampler with framesIn := si.resampler.framesIn - frameCount } }

/-- The frame at an offset into the buffer; it has the channels of the device. -/
def StreamInPcm.frameAt (si : StreamInPcm) (offset : Int) : List (Option Nat) :=
  (List.range si.hwChannelCount).map fun (j : Nat) => si.resampler.buffer (offset + j)

/-- One request of the resampler: the frames it asks for, what `pcm_read` returns if it is called,
and the frames it has used. -/
structure Request where
  frameCount : Nat
  readStatus : Int
  released : Nat
  deriving DecidableEq, Repr

/-- A granted region, and the samples that the last `pcm_read` put into the buffer. -/
structure Grant where
  offset : Int
  count : Nat
  filled : Nat

/-- The provider between opening and closing the device. `position` is the number of samples read
from the device so far; `grants` and `consumed` are history. -/
structure Session where
  input : StreamInPcm
  position : Nat
  filled : Nat
  grants : List Grant
  consumed : List (List (Option Nat))

def Session.start (si : StreamInPcm) (periodSize : Nat) : Option Session :=
  (doOpenPcmInput si periodSize).map fun si => ⟨si, 0, 0, [], []⟩

/-- `get_next_buffer` and the `release_buffer` after it; the resampler releases no more frames than
it was granted. -/
def serve (s : Session) (r : Request) : Option Session :=
  let done := getNextBuffer s.input r.readStatus s.position r.frameCount
  let read := s.input.pcm ∧ s.input.resampler.framesIn = 0 ∧ r.readStatus = 0
  let filled := if read then s.input.readSamples else s.filled
  let offset := done.2.1.raw.getD 0
  if r.released ≤ done.2.1.frameCount then
    some { input := releaseBuffer done.2.2 r.released
           position := if read then s.position + s.input.readSamples else s.position
           filled := filled
           grants := s.grants ++ [⟨offset, done.2.1.frameCount, filled⟩]
           consumed := s.consumed ++ (List.range r.released).map fun (k : Nat) =>
             done.2.2.frameAt (offset + k * s.input.hwChannelCount) }
  else none

/-- The samples of the capture from a place on. -/
def capturedAt (channels place : Nat) : List (Option Nat) :=
  (List.range channels).map fun (j : Nat) => some (place + j)

/-- A captured frame. -/
def hwFrame (channels k : Nat) : List (Option Nat) := capturedAt channels (k * channels)

/-- A region lies in what the last `pcm_read` filled. -/
def Grant.Inside (channels : Nat) (g : Grant) : Prop :=
  g.count = 0 ∨ 0 ≤ g.offset ∧ g.offset + channels * g.count ≤ g.filled

/-- The consumed frames are the captured ones from the first on, and every granted region lies in
what was read. -/
structure Replays (channels : Nat) (s : Session) : Prop where
  consumed : s.consumed = (List.range s.consumed.length).map (hwFrame channels)
  inside : ∀ g ∈ s.grants, g.Inside channels

section Steps

def Session.framesIn (s : Session) : Nat := s.input.resampler.framesIn

def Session.inBufferFrames (s : Session) : Nat := s.input.resampler.inBufferFrames

/-- After a `pcm_read` that failed. -/
def Session.failed (s : Session) (status : Int) : Session :=
  { s with
    input := { s.input with resampler := { s.input.resampler with readStatus := status } }
    grants := s.grants ++ [⟨0, 0, s.filled⟩] }

/-- After a `pcm_read` that filled the buffer. -/
def Session.refilled (s : Session) : Session :=
  { s with
    input := { s.input with resampler := refill s.input s.position }
    position := s.position + s.input.readSamples
    filled := s.input.readSamples }

/-- Frames granted from the buffer, and some of them used. -/
def Session.granted (s : Session) (r : Request) : Session :=
  { s with
    input := releaseBuffer s.input r.released
    grants := s.grants ++
      [⟨s.inBufferFrames - s.framesIn, min r.frameCount s.framesIn, s.filled⟩]
    consumed := s.consumed ++ (List.range r.released).map fun (k : Nat) =>
      s.input.frameAt (s.inBufferFrames - s.framesIn + k * s.input.hwChannelCount) }

/-- What serving a request can do. -/
inductive Served (s : Session) (r : Request) : Session → Prop
  | failed (hempty : s.framesIn = 0) (hstatus : r.readStatus ≠ 0) (hnone : r.released = 0) :
      Served s r (s.failed r.readStatus)
  | refilled (hempty : s.framesIn = 0) (hstatus : r.readStatus = 0)
      (hle : r.released ≤ min r.frameCount s.inBufferFrames) : Served s r (s.refilled.granted r)
  | kept (hleft : s.framesIn ≠ 0) (hle : r.released ≤ min r.frameCount s.framesIn) :
      Served s r (s.granted r)

end Steps

section Sessions

variable {n R : Nat} {s t : Session} {r : Request}

/-- An open device with `n` channels, whose buffer takes `R` hardware frames: the provider counts
`R / n` of them. -/
structure Opened (n R : Nat) (s : Session) : Prop where
  pcm : s.input.pcm = true
  channels : s.input.hwChannelCount = n
  plain : ¬ (s.input.channelCount = 1 ∧ s.input.hwChannelCount = 2)
  frames : s.inBufferFrames = R / n
  samples : s.input.readSamples = R * n

/-- The buffer holds what was captured from `base` on, and nothing was read after it. -/
structure Loaded (n R base : Nat) (s : Session) : Prop where
  position : s.position = base + R * n
  buffer : ∀ i : Nat, i < R * n → s.input.resampler.buffer i = some (base + i)

section Starting

variable {frameSize : FrameSize} {config : AudioConfig} {si : StreamInPcm}

end Starting

theorem Opened.failed (h : Opened n R s) (status : Int) : Opened n R (s.failed status) :=
  ⟨h.pcm, h.channels, h.plain, h.frames, h.samples⟩

theorem Opened.refilled (h : Opened n R s) : Opened n R s.refilled :=
  ⟨h.pcm, h.channels, h.plain, h.frames, h.samples⟩

theorem Opened.granted (h : Opened n R s) (r : Request) : Opened n R (s.granted r) :=
  ⟨h.pcm, h.channels, h.plain, h.frames, h.samples⟩

/-- The step lemma for what the open fixed. -/
theorem Opened.served (h : Opened n R s) (hserved : Served s r t) : Opened n R t := by
  cases hserved with
  | failed => exact h.failed r.readStatus
  | refilled => exact h.refilled.granted r
  | kept => exact h.granted r

/-- A refill loads the buffer with the next frames of the capture. -/
theorem refilled_loaded (h : Opened n R s) : Loaded n R s.position s.refilled := by
  constructor
  · show s.position + s.input.readSamples = _
    rw [h.samples]
  · intro i hi
    have hrange : (0 : Int) ≤ (i : Int) ∧ (i : Int) < (s.input.readSamples : Int) := by
      rw [h.samples]
      omega
    show (refill s.input s.position).buffer i = _
    unfold refill
    dsimp only
    rw [if_neg h.plain, if_pos hrange, Int.toNat_natCast]

/-- `m` frames left of the counted ones, from the offset of the first of them on, are inside. -/
theorem offset_fits {m : Nat} (hn : 0 < n) (hm : m ≤ R / n) : R / n - m + m * n ≤ R * n := by
  have hskip : R / n - m ≤ (R / n - m) * n := Nat.le_mul_of_pos_right _ hn
  have hsum : (R / n - m) * n + m * n = R / n * n := by
    rw [← Nat.add_mul, Nat.sub_add_cancel hm]
  have hread : R / n * n ≤ R := Nat.div_mul_le_self R n
  have hall : R ≤ R * n := Nat.le_mul_of_pos_right R hn
  omega

/-- The frames used from a loaded buffer. The offset counts frames and is used as samples. -/
theorem granted_consumed (h : Opened n R s) {base : Nat} (hloaded : Loaded n R base s)
    (hleft : s.framesIn ≤ R / n) (hused : r.released ≤ s.framesIn) :
    (s.granted r).consumed = s.consumed ++ (List.range r.released).map fun (k : Nat) =>
      capturedAt n (base + (R / n - s.framesIn) + k * n) := by
  unfold Session.granted
  dsimp only
  congr 1
  apply List.map_congr_left
  intro k hk
  have hlt : k < r.released := List.mem_range.mp hk
  unfold StreamInPcm.frameAt capturedAt
  rw [h.channels, h.frames]
  apply List.map_congr_left
  intro j hj
  have hjn : j < n := List.mem_range.mp hj
  have hplace : ((R / n : Nat) : Int) - (s.framesIn : Int) + (k : Int) * (n : Int) + (j : Int) =
      ((R / n - s.framesIn + k * n + j : Nat) : Int) := by
    push_cast [hleft]
    rfl
  have hfit : R / n - s.framesIn + k * n + j < R * n := by
    have hwhole := offset_fits (show 0 < n by omega) hleft
    have hframe : (k + 1) * n ≤ s.framesIn * n := Nat.mul_le_mul_right n (by omega)
    rw [Nat.succ_mul] at hframe
    omega
  rw [hplace, hloaded.buffer _ hfit]
  congr 1
  omega

/-- A buffer that `pcm_read` has filled, with counted frames in it. -/
structure Stocked (n R base : Nat) (s : Session) : Prop where
  left : s.framesIn ≤ R / n
  filled : s.filled = R * n
  loaded : Loaded n R base s

/-- Counted frames have been read. -/
def Stock (n R : Nat) (s : Session) : Prop := s.framesIn ≠ 0 → ∃ base, Stocked n R base s

theorem Stocked.granted {base : Nat} (h : Stocked n R base s) (r : Request) :
    Stocked n R base (s.granted r) := by
  refine ⟨?_, h.filled, h.loaded.position, h.loaded.buffer⟩
  have hless : (s.granted r).framesIn = s.framesIn - r.released := rfl
  have hleft := h.left
  omega

/-- Serving either fails, or grants from a filled buffer. -/
theorem served_stock (hopen : Opened n R s) (hstock : Stock n R s) (h : Served s r t) :
    (s.framesIn = 0 ∧ r.released = 0 ∧ t = s.failed r.readStatus) ∨
    ∃ base u, Opened n R u ∧ Stocked n R base u ∧ r.released ≤ u.framesIn ∧ t = u.granted r ∧
      u.consumed = s.consumed ∧ u.grants = s.grants ∧
      (u = s ∧ s.framesIn ≠ 0 ∨ s.framesIn = 0 ∧ base = s.position ∧ u.framesIn = R / n) := by
  cases h with
  | failed hempty hstatus hnone => exact Or.inl ⟨hempty, hnone, rfl⟩
  | refilled hempty hstatus hle =>
    right
    have hframes : s.refilled.framesIn = R / n := hopen.frames
    rw [hopen.frames] at hle
    refine ⟨s.position, s.refilled, hopen.refilled, ⟨hframes.le, hopen.samples, refilled_loaded hopen⟩,
      by omega, rfl, rfl, rfl, Or.inr ⟨hempty, rfl, hframes⟩⟩
  | kept hleft hle =>
    right
    obtain ⟨base, hbase⟩ := hstock hleft
    exact ⟨base, s, hopen, hbase, by omega, rfl, rfl, rfl, Or.inl ⟨rfl, hleft⟩⟩

/-- The step lemma for the frames in the buffer. -/
theorem Stock.served (hopen : Opened n R s) (hstock : Stock n R s) (h : Served s r t) :
    Stock n R t := by
  rcases served_stock hopen hstock h with ⟨hempty, -, rfl⟩ | ⟨base, u, -, hu, -, rfl, -⟩
  · exact fun hne => absurd hempty hne
  · exact fun _ => ⟨base, hu.granted r⟩

/-- A request only adds to what was consumed. -/
theorem consumed_served (h : Served s r t) : s.consumed <+: t.consumed := by
  cases h with
  | failed => exact List.prefix_rfl
  | refilled => exact List.prefix_append _ _
  | kept => exact List.prefix_append _ _

end Sessions

section Replay

variable {n R : Nat} {s t : Session} {r : Request}

/-- Two places of the device have the same sample only when they are the same. -/
theorem capturedAt_inj {n p q : Nat} (hn : 0 < n) (h : capturedAt n p = capturedAt n q) : p = q := by
  have hhead := congrArg (fun l => l[0]?) h
  simpa [capturedAt, hn] using hhead

theorem hwFrames_append (n v w : Nat) :
    (List.range v).map (hwFrame n) ++ (List.range w).map (fun k => hwFrame n (v + k)) =
      (List.range (v + w)).map (hwFrame n) := by
  rw [List.range_add, List.map_append, List.map_map]
  rfl

/-- One channel: what was read is what has been consumed and what is left. -/
structure Mono (R : Nat) (s : Session) : Prop where
  consumed : s.consumed = (List.range s.consumed.length).map (hwFrame 1)
  position : s.position = s.consumed.length + s.framesIn

/-- With one channel frames and samples are the same thing. -/
theorem Mono.served (hopen : Opened 1 R s) (hstock : Stock 1 R s) (hmono : Mono R s)
    (h : Served s r t) : Mono R t := by
  rcases served_stock hopen hstock h with
    ⟨-, -, rfl⟩ | ⟨base, u, hu, hbase, hused, rfl, hconsumed, -, hfrom⟩
  · exact ⟨hmono.consumed, hmono.position⟩
  · have hone : R / 1 = R := Nat.div_one R
    have hread := hbase.loaded.position
    have hposition : u.position = s.consumed.length + u.framesIn := by
      rcases hfrom with ⟨rfl, -⟩ | ⟨hempty, rfl, hframes⟩
      · exact hmono.position
      · have hbefore := hmono.position
        omega
    have hleft := hbase.left
    have hframes : (u.granted r).consumed = s.consumed ++
        (List.range r.released).map fun k => hwFrame 1 (s.consumed.length + k) := by
      rw [granted_consumed hu hbase.loaded hleft hused, hconsumed]
      congr 1
      apply List.map_congr_left
      intro k _
      show capturedAt 1 _ = capturedAt 1 _
      congr 1
      omega
    have hlength : (u.granted r).consumed.length = s.consumed.length + r.released := by
      rw [hframes, List.length_append, List.length_map, List.length_range]
    constructor
    · rw [hlength, hframes, ← hwFrames_append, ← hmono.consumed]
    · have hless : (u.granted r).framesIn = u.framesIn - r.released := rfl
      have hsame : (u.granted r).position = u.position := rfl
      omega

/-- Nothing has been used yet. -/
structure Fresh (n R : Nat) (s : Session) : Prop where
  consumed : s.consumed = []
  empty : s.framesIn = 0 → s.position = 0 ∨ R / n = 0
  first : s.framesIn ≠ 0 → s.framesIn = R / n ∧ s.position = R * n

/-- One request has used `v` frames. -/
structure Used (n R v : Nat) (s : Session) : Prop where
  pos : 0 < v
  le : v ≤ R / n
  consumed : s.consumed = (List.range v).map (hwFrame n)
  empty : s.framesIn = 0 → v = R / n ∧ s.position = R * n
  rest : s.framesIn ≠ 0 → s.framesIn = R / n - v ∧ s.position = R * n ∨
    v = R / n ∧ s.framesIn = R / n ∧ s.position = R * n + R * n

/-- A consumed frame is not the captured one. -/
def Broken (n : Nat) (s : Session) : Prop := ∃ k f, s.consumed[k]? = some f ∧ f ≠ hwFrame n k

theorem Fresh.idle (hopen : Opened n R s) (hstock : Stock n R s) (hfresh : Fresh n R s)
    (h : Served s r t) (hnone : r.released = 0) : Fresh n R t := by
  rcases served_stock hopen hstock h with
    ⟨-, -, rfl⟩ | ⟨base, u, hu, hbase, hused, rfl, hconsumed, -, hfrom⟩
  · exact ⟨hfresh.consumed, hfresh.empty, hfresh.first⟩
  · have hsame : (u.granted r).framesIn = u.framesIn := by
      show u.framesIn - r.released = u.framesIn
      omega
    have hread : u.position = base + R * n := hbase.loaded.position
    have hempty := hfresh.empty
    have hfirst := hfresh.first
    refine ⟨?_, ?_, ?_⟩
    · rw [granted_consumed hu hbase.loaded hbase.left hused, hconsumed, hfresh.consumed, hnone]
      rfl
    · intro h0
      rw [hsame] at h0
      rcases hfrom with ⟨rfl, hne⟩ | ⟨-, -, hframes⟩
      · exact absurd h0 hne
      · exact Or.inr (by omega)
    · intro hne
      rw [hsame] at hne ⊢
      rcases hfrom with ⟨rfl, hne'⟩ | ⟨h0, hp, hframes⟩
      · exact hfirst hne'
      · have hzero : s.position = 0 := (hempty h0).resolve_right (by omega)
        refine ⟨hframes, ?_⟩
        show u.position = _
        omega

/-- The first frames that are released come from the beginning of a buffer. -/
theorem Fresh.use (hopen : Opened n R s) (hstock : Stock n R s) (hfresh : Fresh n R s)
    (h : Served s r t) (hpos : 0 < r.released) : Used n R r.released t := by
  rcases served_stock hopen hstock h with
    ⟨-, h0, -⟩ | ⟨base, u, hu, hbase, hused, rfl, hconsumed, -, hfrom⟩
  · omega
  · have hread := hbase.loaded.position
    have hleft := hbase.left
    have hempty := hfresh.empty
    have hfirst := hfresh.first
    have hfull : u.framesIn = R / n ∧ base = 0 := by
      rcases hfrom with ⟨rfl, hne⟩ | ⟨h0, hp, hframes⟩
      · obtain ⟨hframes, hposition⟩ := hfirst hne
        exact ⟨hframes, by omega⟩
      · have hzero : s.position = 0 := (hempty h0).resolve_right (by omega)
        exact ⟨hframes, by omega⟩
    obtain ⟨hframes, rfl⟩ := hfull
    have hless : (u.granted r).framesIn = u.framesIn - r.released := rfl
    have hsame : (u.granted r).position = u.position := rfl
    refine ⟨hpos, by omega, ?_, by omega, by omega⟩
    rw [granted_consumed hu hbase.loaded hleft hused, hconsumed, hfresh.consumed, hframes, Nat.sub_self]
    rw [List.nil_append]
    apply List.map_congr_left
    intro k _
    show capturedAt n _ = capturedAt n _
    congr 1
    omega

/-- A request that releases nothing leaves the offset. -/
theorem Used.idle {v : Nat} (hopen : Opened n R s) (hstock : Stock n R s) (hv : Used n R v s)
    (h : Served s r t) (hnone : r.released = 0) : Used n R v t := by
  rcases served_stock hopen hstock h with
    ⟨-, -, rfl⟩ | ⟨base, u, hu, hbase, hused, rfl, hconsumed, -, hfrom⟩
  · exact ⟨hv.pos, hv.le, hv.consumed, hv.empty, hv.rest⟩
  · have hsame : (u.granted r).framesIn = u.framesIn := by
      show u.framesIn - r.released = u.framesIn
      omega
    have hread : u.position = base + R * n := hbase.loaded.position
    have hpos := hv.pos
    have hle := hv.le
    have hempty := hv.empty
    refine ⟨hpos, hle, ?_, ?_, ?_⟩
    · rw [granted_consumed hu hbase.loaded hbase.left hused, hconsumed, hv.consumed, hnone]
      exact List.append_nil _
    · intro h0
      rw [hsame] at h0
      rcases hfrom with ⟨rfl, hne⟩ | ⟨-, -, hframes⟩
      · exact absurd h0 hne
      · omega
    · intro hne
      rw [hsame] at hne ⊢
      rcases hfrom with ⟨rfl, hne'⟩ | ⟨h0, hp, hframes⟩
      · exact hv.rest hne'
      · obtain ⟨hall, hposition⟩ := hempty h0
        refine Or.inr ⟨hall, hframes, ?_⟩
        show u.position = _
        omega

/-- With two channels or more the second use begins at a wrong sample: at the frame count of the
first use, or after the part of the buffer that was never counted. -/
theorem Used.again {v : Nat} (hn : 2 ≤ n) (hopen : Opened n R s) (hstock : Stock n R s)
    (hv : Used n R v s) (h : Served s r t) (hpos : 0 < r.released) : Broken n t := by
  rcases served_stock hopen hstock h with
    ⟨-, h0, -⟩ | ⟨base, u, hu, hbase, hused, rfl, hconsumed, -, hfrom⟩
  · omega
  · have hvpos := hv.pos
    have hvle := hv.le
    have hread := hbase.loaded.position
    have hlength : s.consumed.length = v := by
      rw [hv.consumed, List.length_map, List.length_range]
    refine ⟨v, capturedAt n (base + (R / n - u.framesIn) + 0 * n), ?_, ?_⟩
    · rw [granted_consumed hu hbase.loaded hbase.left hused, hconsumed,
        List.getElem?_append_right (by omega), hlength, Nat.sub_self]
      simp [hpos]
    · intro hsame
      have hplace := capturedAt_inj (by omega) hsame
      have htwice : v * 2 ≤ v * n := Nat.mul_le_mul_left v hn
      have hread' : R / n * n ≤ R := Nat.div_mul_le_self R n
      have hdouble : R * 2 ≤ R * n := Nat.mul_le_mul_left R hn
      have hcounted : v * n ≤ R / n * n := Nat.mul_le_mul_right n hvle
      have hbegin : base = 0 ∧ u.framesIn = R / n - v ∨ base = R * n ∧ u.framesIn = R / n := by
        rcases hfrom with ⟨rfl, hne⟩ | ⟨h0, hp, hframes⟩
        · rcases hv.rest hne with ⟨hleft, hposition⟩ | ⟨-, hleft, hposition⟩
          · exact Or.inl ⟨by omega, hleft⟩
          · exact Or.inr ⟨by omega, hleft⟩
        · obtain ⟨-, hposition⟩ := hv.empty h0
          exact Or.inr ⟨by omega, hframes⟩
      rcases hbegin with ⟨rfl, hleft⟩ | ⟨rfl, hleft⟩
      · omega
      · omega

/-- Consumed frames that are wrong stay in the history. -/
theorem Broken.served (hb : Broken n s) (h : Served s r t) : Broken n t := by
  obtain ⟨k, f, hk, hf⟩ := hb
  obtain ⟨more, hmore⟩ := consumed_served h
  refine ⟨k, f, ?_, hf⟩
  rw [← hmore, List.getElem?_append_left (List.getElem?_eq_some_iff.mp hk).1]
  exact hk

/-- After `c` requests that used frames. -/
def After (n R : Nat) : Nat → Session → Prop
  | 0, s => Fresh n R s
  | 1, s => ∃ v, Used n R v s
  | _ + 2, s => Broken n s

theorem After.served {c : Nat} (hn : 2 ≤ n) (hopen : Opened n R s) (hstock : Stock n R s)
    (hafter : After n R c s) (h : Served s r t) :
    After n R (c + if 0 < r.released then 1 else 0) t := by
  by_cases hpos : 0 < r.released
  · rw [if_pos hpos]
    match c with
    | 0 => exact ⟨_, Fresh.use hopen hstock hafter h hpos⟩
    | 1 =>
      obtain ⟨v, hv⟩ := hafter
      exact hv.again hn hopen hstock h hpos
    | _ + 2 => exact Broken.served hafter h
  · rw [if_neg hpos]
    match c with
    | 0 => exact Fresh.idle hopen hstock hafter h (by omega)
    | 1 =>
      obtain ⟨v, hv⟩ := hafter
      exact ⟨v, hv.idle hopen hstock h (by omega)⟩
    | _ + 2 => exact Broken.served hafter h

/-- Right up to the first release, wrong from the second one on. -/
theorem After.consumed {c : Nat} (hafter : After n R c s) :
    s.consumed = (List.range s.consumed.length).map (hwFrame n) ↔ c ≤ 1 := by
  match c with
  | 0 =>
    rw [Fresh.consumed hafter]
    exact iff_of_true rfl (by omega)
  | 1 =>
    obtain ⟨v, hv⟩ := hafter
    refine iff_of_true ?_ (Nat.le_refl 1)
    rw [hv.consumed, List.length_map, List.length_range]
  | _ + 2 =>
    refine iff_of_false ?_ (by omega)
    intro hsame
    obtain ⟨k, f, hk, hf⟩ := hafter
    have hlt := (List.getElem?_eq_some_iff.mp hk).1
    rw [hsame, List.getElem?_map, List.getElem?_range hlt] at hk
    cases hk
    exact hf rfl

end Replay

section Runs

variable {n R : Nat} {s t : Session} {requests : List Request}

/-- How many requests use a frame. -/
def uses (requests : List Request) : Nat := requests.countP fun r => 0 < r.released

/-- Frames are counted that were never read into this buffer. -/
structure Stale (s : Session) : Prop where
  left : s.framesIn ≠ 0
  filled : s.filled = 0
  consumed : s.consumed = []
  grants : ∀ g ∈ s.grants, g.count = 0

theorem Served.none_asked {r : Request} (h : Served s r t) (hnone : r.frameCount = 0) :
    r.released = 0 := by
  cases h with
  | failed _ _ hzero => exact hzero
  | refilled _ _ hle => omega
  | kept _ hle => omega

/-- Where nothing is asked the stale buffer stays. -/
theorem Stale.kept {r : Request} (hs : Stale s) (h : Served s r t) (hnone : r.frameCount = 0) :
    Stale t := by
  have hzero := h.none_asked hnone
  cases h with
  | failed hempty => exact absurd hempty hs.left
  | refilled hempty => exact absurd hempty hs.left
  | kept hleft hle =>
    refine ⟨?_, hs.filled, ?_, ?_⟩
    · show s.framesIn - r.released ≠ 0
      omega
    · show s.consumed ++ (List.range r.released).map _ = []
      rw [hs.consumed, hzero]
      rfl
    · intro g hg
      rcases List.mem_append.mp hg with hold | hnew
      · exact hs.grants g hold
      · rw [List.mem_singleton.mp hnew]
        show min r.frameCount s.framesIn = 0
        omega

/-- The first region that is asked for holds nothing that was read. -/
theorem Stale.granted {r : Request} (hn : 0 < n) (hs : Stale s) (h : Served s r t)
    (hasked : r.frameCount ≠ 0) : ∃ g ∈ t.grants, ¬ g.Inside n := by
  have hleft := hs.left
  cases h with
  | failed hempty => exact absurd hempty hleft
  | refilled hempty => exact absurd hempty hleft
  | kept =>
    refine ⟨_, List.mem_append_right _ (List.mem_singleton_self _), ?_⟩
    have hmin : 0 < min r.frameCount s.framesIn := by omega
    rintro (hzero | ⟨hlow, hhigh⟩)
    · exact absurd hzero hmin.ne'
    · dsimp only at hlow hhigh
      rw [hs.filled] at hhigh
      have hregion : 0 < n * min r.frameCount s.framesIn := Nat.mul_pos hn hmin
      omega

end Runs

section Provider

/-- The device opens, and the requests replay the capture. -/
def ProviderReplays (si : StreamInPcm) (periodSize : Nat) (requests : List Request) : Prop :=
  ∃ s t, Session.start si periodSize = some s ∧ Transition.run serve s requests = some t ∧
    Replays (inPcmCfgChannelCount si) t

/-- No request uses more frames than it was granted. -/
def Legal (si : StreamInPcm) (periodSize : Nat) (requests : List Request) : Prop :=
  ∀ s, Session.start si periodSize = some s → (Transition.run serve s requests).isSome = true

/-- A 16-bit stream that has just been opened by its owner. -/
def newInput (channelMask : BitVec 32) : StreamInPcm :=
  doInitInCommon pcm16FrameSize ⟨16000, channelMask, audioFormatPcm16Bit⟩

/-- Standby in the middle of a buffer: the next session of a mono stream first grants frames that
it has not read. -/
theorem standby_leaves_frames : ∃ s t, Session.start (newInput 0x10#32) 2 = some s ∧
    Transition.run serve s [⟨3, 0, 2⟩] = some t ∧
    ¬ ProviderReplays (doInPcmStandby t.input) 2 [⟨1, 0, 1⟩] := by
  refine ⟨_, _, rfl, rfl, ?_⟩
  rintro ⟨s, t, hs, ht, hreplays⟩
  cases hs
  cases ht
  exact absurd hreplays.consumed (by decide +kernel)

end Provider

end TinyHal.Resampling
