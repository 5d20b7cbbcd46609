import Mocha.AudioNumbers
import Mocha.AudioParser

/-!
# Hardware volume

`set_hw_volume` turns percentages into values of the volume controls of a
stream. The scaling multiplies before it divides, and the product keeps only 32
bits. The value always stays between the limits; it follows the percentage as
long as 99 percent of the range does not reach the lost bits. Limits from the
file need not be those of the control: a value that the control does not take is
not written, and nobody looks at the error.
-/
namespace TinyHal

/-- The value that `set_vol_ctl` writes, in 32-bit unsigned arithmetic. -/
def volumeValue (volctl : StreamControl) (percent : Nat) : Nat :=
  if percent = 0 then volctl.min
  else if percent = 100 then volctl.max
  else
    let range := (volctl.max + 4294967296 - volctl.min) % 4294967296
    (volctl.min + percent * range % 4294967296 / 100) % 4294967296

def setVolCtl (mixer : Mixer) (volctl : StreamControl) (percent : Nat) : Mixer × Int :=
  (mixer.modify volctl.id fun ctl => mixerCtlSetValue ctl volctl.index (volumeValue volctl percent),
    0)

/-- An `int` handed on as a `uint`. -/
def toUint (n : Int) : Nat := (n % 4294967296).toNat

def setHwVolume (mixer : Mixer) (s : Stream) (leftPc rightPc : Int) : Mixer × Int :=
  let left :=
    if s.volumeLeft.id ≠ uintMax then
      -- control is mono so average left and right
      let leftPc :=
        if s.volumeRight.id = uintMax then (leftPc + rightPc).tdiv 2 else leftPc
      setVolCtl mixer s.volumeLeft (toUint leftPc)
    else (mixer, -enosys)
  if s.volumeRight.id ≠ uintMax then setVolCtl left.1 s.volumeRight (toUint rightPc) else left

/-- The limits of a control are 32-bit numbers in order. -/
def Ranged (c : StreamControl) : Prop := c.min ≤ c.max ∧ c.max < 4294967296

instance (c : StreamControl) : Decidable (Ranged c) := inferInstanceAs (Decidable (_ ∧ _))

/-- The limits that the parser stores are 32-bit numbers. -/
theorem controlLimit_lt {st : ParseState} {a : Attrib} {range : Int} {v : Nat}
    (hrange : range < 4294967296) (h : controlLimit st a range = .ok v) : v < 4294967296 := by
  unfold controlLimit at h
  cases hv : stringToUint (st.attribs a) with
  | ok n =>
    rw [hv] at h
    cases h
    exact stringToUint_lt hv
  | error e =>
    rw [hv] at h
    dsimp only at h
    by_cases he : e = -einval
    · rw [if_pos he] at h
      cases h
    · by_cases hneg : range < 0
      · rw [if_neg he, if_pos hneg] at h
        cases h
      · rw [if_neg he, if_neg hneg] at h
        cases h
        omega

/-- The element of a volume control with a new number in it. -/
def writeElement (mixer : Mixer) (c : StreamControl) (v : Nat) : Mixer :=
  mixer.modify c.id fun ctl => { ctl with values := ctl.values.set c.index (Int.bmod v (2 ^ 32)) }

/-- The element is there, and `set_vol_ctl` writes the value for the percentage into it. -/
structure WritesTo (mixer : Mixer) (c : StreamControl) (percent : Nat) : Prop where
  element : ∃ ctl, mixer[c.id]? = some ctl ∧ c.index < ctl.numValues
  value : setVolCtl mixer c percent = (writeElement mixer c (volumeValue c percent), 0)

/-- A control is scaled as a volume should be, whatever the contents of the card's controls. -/
structure Scales (mixer : Mixer) (c : StreamControl) : Prop where
  written : ∀ mixer', SameLayout mixer mixer' → ∀ p, p ≤ 100 → WritesTo mixer' c p
  within : ∀ p, p ≤ 100 → c.min ≤ volumeValue c p ∧ volumeValue c p ≤ c.max
  silent : volumeValue c 0 = c.min
  full : volumeValue c 100 = c.max
  monotone : ∀ p q, p ≤ q → q ≤ 100 → volumeValue c p ≤ volumeValue c q

section Elements

/-- The control keeps the number that `mixer_ctl_set_value` is given. -/
def MixerCtl.takes (ctl : MixerCtl) (v : Nat) : Bool :=
  match ctl.type with
  | .bool => v ≤ 1
  | .int => ctl.rangeMin ≤ Int.bmod v (2 ^ 32) && Int.bmod v (2 ^ 32) ≤ ctl.rangeMax
  | .enum => true
  | .byte => v < 256
  | .iec958 | .int64 | .unknown => false

/-- So many percent of the way from the lower limit to the upper one. -/
def scaled (c : StreamControl) (p : Nat) : Nat := c.min + p * (c.max - c.min) / 100

/-- The volume control is an element of the card that keeps each of these numbers. -/
def Reaches (mixer : Mixer) (c : StreamControl) : Prop :=
  ∃ ctl, mixer[c.id]? = some ctl ∧ c.index < ctl.numValues ∧ ∀ p, p ≤ 100 → ctl.takes (scaled c p) = true

/-- A `uint` as an `int`. -/
theorem bmod_eq {v : Nat} (hv : v < 4294967296) :
    Int.bmod v (2 ^ 32) = if v < 2147483648 then (v : Int) else (v : Int) - 4294967296 := by
  rw [Int.bmod_def]
  norm_num
  split_ifs <;> omega

theorem MixerCtl.takes_congr {ctl ctl' : MixerCtl} (h : ctl'.shape = ctl.shape) (v : Nat) :
    ctl'.takes v = ctl.takes v := by
  simp only [MixerCtl.shape, Prod.mk.injEq] at h
  obtain ⟨-, htype, -, hmin, hmax⟩ := h
  rw [MixerCtl.takes, MixerCtl.takes, htype, hmin, hmax]

theorem mixerCtlSetValue_takes {ctl : MixerCtl} {id v : Nat} (hid : id < ctl.numValues)
    (hv : v < 4294967296) (h : ctl.takes v = true) :
    mixerCtlSetValue ctl id v = { ctl with values := ctl.values.set id (Int.bmod v (2 ^ 32)) } := by
  rw [mixerCtlSetValue, if_pos hid, bmod_eq hv]
  rw [MixerCtl.takes, bmod_eq hv] at h
  cases htype : ctl.type with
  | bool =>
    simp only [htype, decide_eq_true_eq] at h ⊢
    congr 2
    split_ifs <;> omega
  | int =>
    simp only [htype, Bool.and_eq_true, decide_eq_true_eq] at h
    simp only [mixerCtlGetRangeMin, mixerCtlGetRangeMax, htype, if_true]
    rw [if_neg (by omega)]
  | enum => rfl
  | byte =>
    simp only [htype, decide_eq_true_eq] at h ⊢
    congr 2
    split_ifs <;> omega
  | iec958 => simp [htype] at h
  | int64 => simp [htype] at h
  | unknown => simp [htype] at h

/-- Another number does not get into the element, which may have held anything. -/
theorem mixerCtlSetValue_refuses {ctl : MixerCtl} {id v : Nat} (hid : id < ctl.numValues)
    (hv : v < 4294967296) (h : ctl.takes v = false)
    (hold : ctl.values[id]? ≠ some (Int.bmod v (2 ^ 32))) :
    (mixerCtlSetValue ctl id v).values[id]? ≠ some (Int.bmod v (2 ^ 32)) := by
  have hset (n : Int) (hn : n ≠ Int.bmod v (2 ^ 32)) :
      (ctl.values.set id n)[id]? ≠ some (Int.bmod v (2 ^ 32)) := by
    rw [List.getElem?_set_self hid]
    exact fun heq => hn (Option.some.inj heq)
  rw [bmod_eq hv] at hset hold ⊢
  rw [MixerCtl.takes, bmod_eq hv] at h
  rw [mixerCtlSetValue, if_pos hid, bmod_eq hv]
  cases htype : ctl.type with
  | bool =>
    simp only [htype, decide_eq_false_iff_not] at h ⊢
    apply hset
    split_ifs <;> omega
  | int =>
    simp only [htype, Bool.and_eq_false_iff, decide_eq_false_iff_not] at h
    simp only [mixerCtlGetRangeMin, mixerCtlGetRangeMax, htype, if_true]
    rw [if_pos (by omega)]
    exact hold
  | enum => simp [htype] at h
  | byte =>
    simp only [htype, decide_eq_false_iff_not] at h ⊢
    apply hset
    split_ifs <;> omega
  | iec958 => exact hold
  | int64 => exact hold
  | unknown => exact hold

theorem scaled_zero (c : StreamControl) : scaled c 0 = c.min := by simp [scaled]

theorem scaled_full {c : StreamControl} (h : Ranged c) : scaled c 100 = c.max := by
  have hle := h.1
  rw [scaled]
  omega

theorem scaled_within {c : StreamControl} (h : Ranged c) {p : Nat} (hp : p ≤ 100) :
    c.min ≤ scaled c p ∧ scaled c p ≤ c.max := by
  have hle := h.1
  have hprod : p * (c.max - c.min) ≤ 100 * (c.max - c.min) := Nat.mul_le_mul_right _ hp
  rw [scaled]
  omega

/-- Limits on one side of the sign bit: the numbers between them are taken if they are. -/
theorem takes_limits {ctl : MixerCtl} {c : StreamControl} (h : Ranged c)
    (hsign : c.max < 2147483648 ∨ 2147483648 ≤ c.min) :
    (∀ p, p ≤ 100 → ctl.takes (scaled c p) = true) ↔ ctl.takes c.min = true ∧ ctl.takes c.max = true := by
  constructor
  · intro hall
    have hmin := hall 0 (by omega)
    have hmax := hall 100 (by omega)
    rw [scaled_zero] at hmin
    rw [scaled_full h] at hmax
    exact ⟨hmin, hmax⟩
  · rintro ⟨hmin, hmax⟩ p hp
    obtain ⟨hlow, hhigh⟩ := scaled_within h hp
    have hbound := h.2
    generalize scaled c p = v at hlow hhigh
    rw [MixerCtl.takes] at hmin hmax ⊢
    rw [bmod_eq (by omega)] at hmin hmax ⊢
    cases htype : ctl.type with
    | bool =>
      simp only [htype, decide_eq_true_eq] at hmax ⊢
      omega
    | int =>
      simp only [htype, Bool.and_eq_true, decide_eq_true_eq] at hmin hmax ⊢
      split_ifs at hmin hmax ⊢ <;> omega
    | enum => rfl
    | byte =>
      simp only [htype, decide_eq_true_eq] at hmax ⊢
      omega
    | iec958 => simp [htype] at hmin
    | int64 => simp [htype] at hmin
    | unknown => simp [htype] at hmin

end Elements

theorem volumeValue_zero (c : StreamControl) : volumeValue c 0 = c.min := rfl

theorem volumeValue_full (c : StreamControl) : volumeValue c 100 = c.max := rfl

/-- Between the end points only the product loses bits. -/
theorem volumeValue_between {c : StreamControl} (h : Ranged c) {p : Nat} (hp : 0 < p)
    (hp' : p < 100) :
    volumeValue c p = c.min + p * (c.max - c.min) % 4294967296 / 100 := by
  obtain ⟨hle, hmax⟩ := h
  have hrange : (c.max + 4294967296 - c.min) % 4294967296 = c.max - c.min := by omega
  have hprod : p * (c.max - c.min) % 4294967296 ≤ 99 * (c.max - c.min) :=
    (Nat.mod_le _ _).trans (Nat.mul_le_mul_right _ (by omega))
  simp only [volumeValue, hrange]
  rw [if_neg (by omega), if_neg (by omega)]
  omega

/-- Losing bits never takes the value out of the range. -/
theorem volumeValue_within {c : StreamControl} (h : Ranged c) {p : Nat} (hp : p ≤ 100) :
    c.min ≤ volumeValue c p ∧ volumeValue c p ≤ c.max := by
  have hle := h.1
  by_cases hzero : p = 0
  · rw [hzero, volumeValue_zero]
    omega
  by_cases hfull : p = 100
  · rw [hfull, volumeValue_full]
    omega
  have hprod : p * (c.max - c.min) % 4294967296 ≤ 99 * (c.max - c.min) :=
    (Nat.mod_le _ _).trans (Nat.mul_le_mul_right _ (by omega))
  rw [volumeValue_between h (by omega) (by omega)]
  omega

theorem volumeValue_monotone {c : StreamControl} (h : Ranged c)
    (hrange : 99 * (c.max - c.min) < 4294967296) {p q : Nat} (hpq : p ≤ q) (hq : q ≤ 100) :
    volumeValue c p ≤ volumeValue c q := by
  by_cases hzero : p = 0
  · rw [hzero, volumeValue_zero]
    exact (volumeValue_within h hq).1
  by_cases hfull : q = 100
  · rw [hfull, volumeValue_full]
    exact (volumeValue_within h (by omega)).2
  have hprod : p * (c.max - c.min) ≤ q * (c.max - c.min) := Nat.mul_le_mul_right _ hpq
  have hfit : q * (c.max - c.min) ≤ 99 * (c.max - c.min) := Nat.mul_le_mul_right _ (by omega)
  rw [volumeValue_between h (by omega) (by omega), volumeValue_between h (by omega) (by omega),
    Nat.mod_eq_of_lt (by omega), Nat.mod_eq_of_lt (by omega)]
  omega

/-- Where the product first loses bits, one more percent takes it down by `2^32 - range`. -/
theorem volumeValue_wraps {c : StreamControl} (h : Ranged c)
    (hrange : 4294967296 ≤ 99 * (c.max - c.min)) (hroom : c.max - c.min ≤ 4294967196) :
    ∃ p, 0 < p ∧ p + 1 < 100 ∧ volumeValue c (p + 1) < volumeValue c p := by
  have hpos : 0 < c.max - c.min := by omega
  have hlast : 4294967295 / (c.max - c.min) * (c.max - c.min) ≤ 4294967295 :=
    Nat.div_mul_le_self _ _
  have hnext : 4294967295 < (4294967295 / (c.max - c.min) + 1) * (c.max - c.min) := by
    rw [Nat.mul_comm]
    exact Nat.lt_mul_div_succ _ hpos
  have hone : 1 ≤ 4294967295 / (c.max - c.min) := (Nat.one_le_div_iff hpos).mpr (by omega)
  have hbound : 4294967295 / (c.max - c.min) < 99 := Nat.div_lt_of_lt_mul (by omega)
  generalize 4294967295 / (c.max - c.min) = p at hlast hnext hone hbound
  refine ⟨p, hone, by omega, ?_⟩
  rw [volumeValue_between h (by omega) (by omega), volumeValue_between h (by omega) (by omega)]
  rw [Nat.add_mul, Nat.one_mul] at hnext ⊢
  omega

/-- On a larger range some step up turns the volume down. -/
theorem volumeValue_drops {c : StreamControl} (h : Ranged c)
    (hrange : 4294967296 ≤ 99 * (c.max - c.min)) :
    ∃ p q, p ≤ q ∧ q ≤ 100 ∧ volumeValue c q < volumeValue c p := by
  by_cases hroom : c.max - c.min ≤ 4294967196
  · obtain ⟨p, -, hp, hdrop⟩ := volumeValue_wraps h hrange hroom
    exact ⟨p, p + 1, by omega, by omega, hdrop⟩
  · -- the range is so close to 2^32 that every percent takes a little off the product
    have hmax := h.2
    refine ⟨1, 99, by omega, by omega, ?_⟩
    have hone : 1 * (c.max - c.min) % 4294967296 = c.max - c.min := by omega
    have hlast : 99 * (c.max - c.min) % 4294967296 = 99 * (c.max - c.min) - 420906795008 := by omega
    rw [volumeValue_between h (by omega) (by omega), volumeValue_between h (by omega) (by omega),
      hone, hlast]
    omega

/-- Without lost bits the value is the one on the way between the limits. -/
theorem volumeValue_scaled {c : StreamControl} (h : Ranged c)
    (hrange : 99 * (c.max - c.min) < 4294967296) {p : Nat} (hp : p ≤ 100) :
    volumeValue c p = scaled c p := by
  by_cases hzero : p = 0
  · rw [hzero, volumeValue_zero, scaled_zero]
  by_cases hfull : p = 100
  · rw [hfull, volumeValue_full, scaled_full h]
  have hfit : p * (c.max - c.min) ≤ 99 * (c.max - c.min) := Nat.mul_le_mul_right _ (by omega)
  rw [volumeValue_between h (by omega) (by omega), Nat.mod_eq_of_lt (by omega), scaled]

theorem Reaches.writes {mixer mixer' : Mixer} {c : StreamControl} (h : Ranged c)
    (hrange : 99 * (c.max - c.min) < 4294967296) (hreach : Reaches mixer c)
    (hlayout : SameLayout mixer mixer') {p : Nat} (hp : p ≤ 100) : WritesTo mixer' c p := by
  obtain ⟨ctl, hctl, hindex, htakes⟩ := hreach
  obtain ⟨ctl', hctl', hshape⟩ := hlayout.get hctl
  have hcount : ctl'.numValues = ctl.numValues := congrArg (fun s => s.2.2.1) hshape
  have hindex' : c.index < ctl'.numValues := by omega
  refine ⟨⟨ctl', hctl', hindex'⟩, ?_⟩
  have hvalue := volumeValue_scaled h hrange hp
  have hbound : volumeValue c p < 4294967296 := by
    have hmax := h.2
    have hin := (volumeValue_within h hp).2
    omega
  have htake : ctl'.takes (volumeValue c p) = true := by
    rw [hvalue, MixerCtl.takes_congr hshape]
    exact htakes p hp
  rw [setVolCtl, writeElement]
  congr 1
  apply List.ext_getElem?
  intro i
  rw [List.getElem?_modify, List.getElem?_modify]
  by_cases hi : c.id = i
  · subst hi
    simp only [if_true, hctl', Option.map_eq_map, Option.map_some]
    rw [mixerCtlSetValue_takes hindex' hbound htake]
  · simp only [if_neg hi]

/-- If every value is written, whatever was there, the element takes them all. -/
theorem Scales.reaches {mixer : Mixer} {c : StreamControl} (h : Ranged c)
    (hrange : 99 * (c.max - c.min) < 4294967296) (hscales : Scales mixer c) : Reaches mixer c := by
  obtain ⟨ctl, hctl, hindex⟩ := (hscales.written mixer rfl 0 (by omega)).element
  refine ⟨ctl, hctl, hindex, ?_⟩
  intro p hp
  by_contra htakes
  rw [Bool.not_eq_true] at htakes
  rw [← volumeValue_scaled h hrange hp] at htakes
  have hbound : volumeValue c p < 4294967296 := by
    have hmax := h.2
    have hin := (volumeValue_within h hp).2
    omega
  -- the same card with another number in the element
  obtain ⟨other, hother⟩ : ∃ other : MixerCtl, other = { ctl with
      values := ctl.values.set c.index (Int.bmod (volumeValue c p) (2 ^ 32) + 1) } := ⟨_, rfl⟩
  have hshape : other.shape = ctl.shape := by simp [hother, MixerCtl.shape, MixerCtl.numValues]
  have hcount : other.numValues = ctl.numValues := congrArg (fun s => s.2.2.1) hshape
  have hindex' : c.index < other.numValues := by omega
  have hlayout : SameLayout mixer (mixer.set c.id other) := by
    apply List.ext_getElem?
    intro i
    rw [List.getElem?_map, List.getElem?_map, List.getElem?_set]
    split_ifs with hi hlt
    · rw [← hi, hctl, Option.map_some, Option.map_some, hshape]
    · exact absurd (List.getElem?_eq_some_iff.mp hctl).1 hlt
    · rfl
  have hget : (mixer.set c.id other)[c.id]? = some other :=
    List.getElem?_set_self (List.getElem?_eq_some_iff.mp hctl).1
  have hnumber : other.values[c.index]? = some (Int.bmod (volumeValue c p) (2 ^ 32) + 1) := by
    rw [hother]
    exact List.getElem?_set_self hindex
  have hold : other.values[c.index]? ≠ some (Int.bmod (volumeValue c p) (2 ^ 32)) := by
    rw [hnumber]
    intro heq
    have := Option.some.inj heq
    omega
  have hvalue := congrArg Prod.fst (hscales.written _ hlayout p hp).value
  have hread := congrArg (fun m : Mixer => (m[c.id]?).bind fun ctl => ctl.values[c.index]?) hvalue
  simp only [setVolCtl, writeElement, List.getElem?_modify, if_true, hget, Option.map_eq_map,
    Option.map_some, Option.bind_some] at hread
  have hnot := mixerCtlSetValue_refuses hindex' hbound
    ((MixerCtl.takes_congr hshape _).trans htakes) hold
  apply hnot
  rw [hread]
  exact List.getElem?_set_self hindex'

theorem scales_iff {mixer : Mixer} {c : StreamControl} (h : Ranged c) :
    Scales mixer c ↔ 99 * (c.max - c.min) < 4294967296 ∧ Reaches mixer c := by
  constructor
  · intro hscales
    have hrange : 99 * (c.max - c.min) < 4294967296 := by
      by_contra hlarge
      obtain ⟨p, q, hpq, hq, hdrop⟩ := volumeValue_drops h (by omega)
      have hmono := hscales.monotone p q hpq hq
      omega
    exact ⟨hrange, hscales.reaches h hrange⟩
  · rintro ⟨hrange, hreach⟩
    exact ⟨fun mixer' hlayout p hp => hreach.writes h hrange hlayout hp,
      fun p hp => volumeValue_within h hp, volumeValue_zero c, volumeValue_full c,
      fun p q hpq hq => volumeValue_monotone h hrange hpq hq⟩

/-- The volume controls that a call reaches, with the percentage for each: left and right, or their
average where the left control is the only one. -/
def volumes (s : Stream) (leftPc rightPc : Nat) : List (StreamControl × Nat) :=
  if s.volumeLeft.id = uintMax then
    if s.volumeRight.id = uintMax then [] else [(s.volumeRight, rightPc)]
  else if s.volumeRight.id = uintMax then [(s.volumeLeft, (leftPc + rightPc) / 2)]
  else [(s.volumeLeft, leftPc), (s.volumeRight, rightPc)]

/-- The mixer with the value of each of them in its element. -/
def writeVolumes (mixer : Mixer) (targets : List (StreamControl × Nat)) : Mixer :=
  targets.foldl (fun mixer t => writeElement mixer t.1 (volumeValue t.1 t.2)) mixer

/-- The volume of a stream is what the percentages ask for. -/
structure HwVolume (mixer : Mixer) (s : Stream) : Prop where
  scales : ∀ c ∈ [s.volumeLeft, s.volumeRight], c.id ≠ uintMax → Scales mixer c
  applied : ∀ mixer', SameLayout mixer mixer' → ∀ leftPc rightPc : Nat, leftPc ≤ 100 → rightPc ≤ 100 →
    (∀ t ∈ volumes s leftPc rightPc, t.2 ≤ 100) ∧
    setHwVolume mixer' s leftPc rightPc = (writeVolumes mixer' (volumes s leftPc rightPc),
      if volumes s leftPc rightPc = [] then -enosys else 0)

theorem toUint_percent {n : Nat} (h : n ≤ 100) : toUint n = n := by
  simp only [toUint]
  omega

/-- An average of percentages is one. -/
theorem volumes_percent (s : Stream) {leftPc rightPc : Nat} (hleft : leftPc ≤ 100)
    (hright : rightPc ≤ 100) : ∀ t ∈ volumes s leftPc rightPc, t.2 ≤ 100 := by
  by_cases hl : s.volumeLeft.id = uintMax <;> by_cases hr : s.volumeRight.id = uintMax
  · simp [volumes, hl, hr]
  · simp [volumes, hl, hr, hright]
  · simp only [volumes, hl, hr, if_false, if_true, List.mem_singleton, forall_eq]
    omega
  · simp [volumes, hl, hr, hleft, hright]

theorem mem_volumes {s : Stream} {leftPc rightPc : Nat} {t : StreamControl × Nat}
    (h : t ∈ volumes s leftPc rightPc) :
    t.1 ∈ [s.volumeLeft, s.volumeRight] ∧ t.1.id ≠ uintMax := by
  by_cases hl : s.volumeLeft.id = uintMax <;> by_cases hr : s.volumeRight.id = uintMax
  · simp [volumes, hl, hr] at h
  · simp only [volumes, hl, hr, if_true, if_false, List.mem_singleton] at h
    subst h
    exact ⟨by simp, hr⟩
  · simp only [volumes, hl, hr, if_true, if_false, List.mem_singleton] at h
    subst h
    exact ⟨by simp, hl⟩
  · simp only [volumes, hl, hr, if_false, List.mem_cons, List.not_mem_nil, or_false] at h
    rcases h with rfl | rfl
    · exact ⟨by simp, hl⟩
    · exact ⟨by simp, hr⟩

/-- Left and right are set one after the other, or the average on a mono control. -/
theorem setHwVolume_calls (s : Stream) (mixer : Mixer) {leftPc rightPc : Nat}
    (hleft : leftPc ≤ 100) (hright : rightPc ≤ 100) :
    setHwVolume mixer s leftPc rightPc =
      ((volumes s leftPc rightPc).foldl (fun mixer t => (setVolCtl mixer t.1 t.2).1) mixer,
        if volumes s leftPc rightPc = [] then -enosys else 0) := by
  have haverage : toUint (((leftPc : Int) + rightPc).tdiv 2) = (leftPc + rightPc) / 2 := by
    rw [Int.tdiv_eq_ediv_of_nonneg (by omega)]
    simp only [toUint]
    omega
  by_cases hl : s.volumeLeft.id = uintMax <;> by_cases hr : s.volumeRight.id = uintMax
  · simp [setHwVolume, volumes, hl, hr]
  · simp [setHwVolume, volumes, setVolCtl, hl, hr, toUint_percent hright]
  · simp [setHwVolume, volumes, setVolCtl, hl, hr, haverage]
  · simp [setHwVolume, volumes, setVolCtl, hl, hr, toUint_percent hleft, toUint_percent hright]

theorem writeElement_layout (mixer : Mixer) (c : StreamControl) (v : Nat) :
    SameLayout mixer (writeElement mixer c v) := by
  apply List.ext_getElem?
  intro i
  rw [writeElement, List.getElem?_map, List.getElem?_map, List.getElem?_modify]
  cases mixer[i]? with
  | none => rfl
  | some ctl => by_cases hi : c.id = i <;> simp [hi, MixerCtl.shape, MixerCtl.numValues]

/-- Calls that each write their value write them all. -/
theorem setVolCtls_written {mixer : Mixer} {targets : List (StreamControl × Nat)}
    (h : ∀ t ∈ targets, ∀ mixer', SameLayout mixer mixer' → WritesTo mixer' t.1 t.2) :
    targets.foldl (fun mixer t => (setVolCtl mixer t.1 t.2).1) mixer = writeVolumes mixer targets := by
  induction targets generalizing mixer with
  | nil => rfl
  | cons t targets ih =>
    have hfirst := congrArg Prod.fst (h t (List.mem_cons_self ..) mixer rfl).value
    have hlayout := writeElement_layout mixer t.1 (volumeValue t.1 t.2)
    rw [writeVolumes, List.foldl_cons, List.foldl_cons, hfirst]
    apply ih
    intro u hu mixer' hmixer'
    exact h u (List.mem_cons_of_mem _ hu) mixer' (hlayout.trans hmixer')

/-- The volume of a stream is right exactly when, for each of its controls, 99 percent of the range
fits in 32 bits and the card takes every number on the way between the limits. -/
theorem hwVolume_iff (mixer : Mixer) (s : Stream)
    (h : ∀ c ∈ [s.volumeLeft, s.volumeRight], c.id ≠ uintMax → Ranged c) :
    HwVolume mixer s ↔ ∀ c ∈ [s.volumeLeft, s.volumeRight], c.id ≠ uintMax →
      99 * (c.max - c.min) < 4294967296 ∧ Reaches mixer c := by
  constructor
  · intro hvolume c hc hid
    exact (scales_iff (h c hc hid)).mp (hvolume.scales c hc hid)
  · intro hall
    refine ⟨fun c hc hid => (scales_iff (h c hc hid)).mpr (hall c hc hid), ?_⟩
    intro mixer' hlayout leftPc rightPc hleft hright
    have hpercent := volumes_percent s hleft hright
    refine ⟨hpercent, ?_⟩
    rw [setHwVolume_calls s mixer' hleft hright, setVolCtls_written]
    intro t ht mixer'' hlayout'
    obtain ⟨hc, hid⟩ := mem_volumes ht
    obtain ⟨hrange, hreach⟩ := hall t.1 hc hid
    exact hreach.writes (h t.1 hc hid) hrange (hlayout.trans hlayout') (hpercent t ht)

/-- A card with one gain control. -/
def gainCard (max : Int) : Mixer := [⟨"Master Playback Volume", .int, [0], [], 0, max⟩]

/-- A gain of 64 steps on a mono control. -/
theorem hwVolume_mono : HwVolume (gainCard 63) { newStream with volumeLeft := ⟨0, 0, 0, 63⟩ } := by
  refine (hwVolume_iff _ _ (by decide)).mpr ?_
  intro c hc hid
  have hleft : c = ⟨0, 0, 0, 63⟩ := by
    rcases List.mem_cons.mp hc with rfl | hright
    · rfl
    · rw [List.mem_singleton.mp hright] at hid
      exact absurd rfl hid
  subst hleft
  exact ⟨by decide, _, rfl, by decide,
    (takes_limits (by decide) (.inl (by decide))).mpr ⟨by decide, by decide⟩⟩

/-- The smallest range that is too large: 98 percent is nearly full volume, 99 percent is silence.
And a limit that the control does not have: at full volume nothing is written. -/
theorem hwVolume_silence :
    Ranged ⟨0, 0, 0, 43383509⟩ ∧ volumeValue ⟨0, 0, 0, 43383509⟩ 98 = 42515838 ∧
      volumeValue ⟨0, 0, 0, 43383509⟩ 99 = 0 ∧
      ¬ HwVolume (gainCard 43383509) { newStream with volumeLeft := ⟨0, 0, 0, 43383509⟩ } ∧
    setHwVolume (gainCard 175) { newStream with volumeLeft := ⟨0, 0, 0, 200⟩ } 100 100 =
      (gainCard 175, 0) ∧
      ¬ HwVolume (gainCard 175) { newStream with volumeLeft := ⟨0, 0, 0, 200⟩ } := by
  refine ⟨by decide, by decide, by decide, ?_, by decide, ?_⟩
  · intro hvolume
    have hmono := (hvolume.scales ⟨0, 0, 0, 43383509⟩ (by decide) (by decide)).monotone 98 99
      (by decide) (by decide)
    exact absurd hmono (by decide)
  · intro hvolume
    have hvalue := ((hvolume.scales ⟨0, 0, 0, 200⟩ (by decide) (by decide)).written _ rfl 100
      (by decide)).value
    exact absurd hvalue (by decide)

end TinyHal
