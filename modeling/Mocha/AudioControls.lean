import Mocha.CString

/-!
# Mixer controls of the audio configuration

A `<ctl>` names a mixer control and keeps its value as text until the control
is found. `ctlOpen` then converts it to the control's type, and `applyCtlsL`
writes a list of them to the mixer, opening late what the parser did not find.
-/
namespace TinyHal

open CString

def einval : Int := 22
def enoent : Int := 2
def enomem : Int := 12
def enosys : Int := 38

/-- Largest byte array control that is handled. -/
def byteArrayMaxSize : Nat := 512

def uintMax : Nat := 0xFFFFFFFF
def invalidCtlIndex : Nat := 0xFFFFFFFF

inductive MixerCtlType where
  | bool
  | int
  | enum
  | byte
  | iec958
  | int64
  | unknown
  deriving DecidableEq, Repr

/-- A control of the sound card, with the contents it has now, as `int`s. -/
structure MixerCtl where
  name : String
  type : MixerCtlType
  values : List Int
  enums : List String
  rangeMin : Int
  rangeMax : Int
  deriving DecidableEq, Repr

/-- The control with id `i` is the `i`-th one. -/
abbrev Mixer := List MixerCtl

def MixerCtl.numValues (c : MixerCtl) : Nat := c.values.length

def mixerGetCtlByName (mixer : Mixer) (name : String) : Option Nat :=
  mixer.findIdx? fun c => c.name = name

def mixerCtlGetRangeMin (c : MixerCtl) : Int := if c.type = .int then c.rangeMin else -einval

def mixerCtlGetRangeMax (c : MixerCtl) : Int := if c.type = .int then c.rangeMax else -einval

def mixerCtlSetValue (c : MixerCtl) (id value : Nat) : MixerCtl :=
  if id < c.numValues then
    let v := Int.bmod value (2 ^ 32)
    match c.type with
    | .bool => { c with values := c.values.set id (if v = 0 then 0 else 1) }
    | .int =>
      if v < mixerCtlGetRangeMin c ∨ v > mixerCtlGetRangeMax c then c
      else { c with values := c.values.set id v }
    | .enum => { c with values := c.values.set id v }
    | .byte => { c with values := c.values.set id (v % 256) }
    | .iec958 | .int64 | .unknown => c
  else c

/-- `mixer_ctl_set_array` on a byte control; what the array does not reach becomes 0. -/
def mixerCtlSetArray (c : MixerCtl) (bytes : List Nat) : MixerCtl :=
  if bytes.length = 0 ∨ c.numValues < bytes.length then c
  else { c with
    values := bytes.map Int.ofNat ++ List.replicate (c.numValues - bytes.length) 0 }

/-- The first value becomes the item with this name, and all others 0. -/
def mixerCtlSetEnumByString (c : MixerCtl) (text : String) : MixerCtl :=
  if c.type ≠ .enum then c
  else
    match c.enums.findIdx? fun e => e = text with
    | some i => { c with values := (List.replicate c.numValues 0).set 0 (Int.ofNat i) }
    | none => c

/-- The union `value` of `struct ctl`. -/
inductive CtlValue where
  | string (s : String)
  | uinteger (n : Nat)
  | data (bytes : List Nat)
  deriving DecidableEq, Repr

structure Ctl where
  id : Nat
  name : String
  index : Nat
  arrayCount : Nat
  type : MixerCtlType
  value : CtlValue
  deriving DecidableEq, Repr

/-- The text the configuration file gave; only read while `id` is `uintMax`. -/
def Ctl.valStr (c : Ctl) : String :=
  match c.value with
  | .string s => s
  | _ => ""

/-- A number attribute: absent, not a number, or its value. -/
def stringToUint : Option String → Except Int Nat
  | none => .error (-enoent)
  | some str =>
    let parsed := strtoul str.toList
    if parsed.2 = [] ∧ parsed.2.length ≠ str.toList.length ∧ parsed.1 ≤ 0xFFFFFFFF then
      .ok parsed.1
    else .error (-einval)

/-- The second walk of `make_byte_array`, which converts the tokens. -/
def tokenBytes : List (List Char) → Except Int (List Nat)
  | [] => .ok []
  | t :: ts =>
    match stringToUint (some (String.ofList t)) with
    | .error e => .error e
    | .ok v =>
      match tokenBytes ts with
      | .error e => .error e
      | .ok bytes => .ok (v % 256 :: bytes)

def makeByteArray (c : Ctl) (ctl : MixerCtl) : Int × Ctl :=
  let tokens := strtok ',' c.valStr.toList
  if byteArrayMaxSize < ctl.numValues then (-einval, c)
  else if ctl.numValues ≤ c.index then (-einval, c)
  else if ctl.numValues < c.index + tokens.length then (-einval, c)
  else
    let c := { c with arrayCount := tokens.length }
    match tokenBytes tokens with
    | .error e => (e, c)
    | .ok bytes => (0, { c with value := .data bytes })

/-- Finds the control and converts the value, unless that is done already. -/
def ctlOpen (mixer : Mixer) (pctl : Ctl) : Int × Ctl :=
  if pctl.id ≠ uintMax then (0, pctl)
  else
    match mixerGetCtlByName mixer pctl.name with
    | none => (-enoent, pctl)
    | some i =>
      match mixer[i]? with
      | none => (-enoent, pctl)
      | some ctl =>
        match ctl.type with
        | .byte =>
          let opened := makeByteArray
            (if pctl.index = invalidCtlIndex then { pctl with index := 0 } else pctl) ctl
          if opened.1 ≠ 0 then opened
          else (0, { opened.2 with type := .byte, id := i })
        | .bool | .int =>
          match stringToUint (some pctl.valStr) with
          | .error e => if e = -einval then (-einval, pctl) else (0, { pctl with type := ctl.type, id := i })
          | .ok v => (0, { pctl with value := .uinteger v, type := ctl.type, id := i })
        | .enum => (0, { pctl with type := .enum, id := i })
        | .iec958 | .int64 | .unknown => (-einval, pctl)

/-- The read-modify-write of a byte control. As many values go back as were read. -/
def patch (old : List Int) (offset : Nat) (bytes : List Nat) : List Int :=
  (old.take offset ++ bytes.map Int.ofNat ++ old.drop (offset + bytes.length)).take old.length

/-- One opened control written to the mixer. -/
def writeCtl (pctl : Ctl) (ctl : MixerCtl) : MixerCtl :=
  match ctl.type, pctl.value with
  | .bool, .uinteger v | .int, .uinteger v =>
    if pctl.index = invalidCtlIndex then
      (List.range ctl.numValues).foldl (fun c vnum => mixerCtlSetValue c vnum v) ctl
    else mixerCtlSetValue ctl pctl.index v
  | .byte, .data bytes =>
    if pctl.index = 0 ∧ pctl.arrayCount = ctl.numValues then mixerCtlSetArray ctl bytes
    else { ctl with values := patch ctl.values pctl.index bytes }
  | .enum, .string s => mixerCtlSetEnumByString ctl s
  | _, _ => ctl

/-- Writes controls in order and stops at the first that cannot be opened. -/
def applyCtlsL (mixer : Mixer) : List Ctl → Mixer × List Ctl
  | [] => (mixer, [])
  | pctl :: rest =>
    let opened := ctlOpen mixer pctl
    if opened.1 ≠ 0 then (mixer, opened.2 :: rest)
    else
      let written := applyCtlsL (mixer.modify opened.2.id (writeCtl opened.2)) rest
      (written.1, opened.2 :: written.2)

/-- The controls that `apply_ctls_l` writes, as it opened them. -/
def writtenCtls (mixer : Mixer) : List Ctl → List Ctl
  | [] => []
  | pctl :: rest =>
    let opened := ctlOpen mixer pctl
    if opened.1 ≠ 0 then [] else opened.2 :: writtenCtls mixer rest

/-- One control written after another. -/
def writeCtls (mixer : Mixer) (ctls : List Ctl) : Mixer :=
  ctls.foldl (fun mixer c => mixer.modify c.id (writeCtl c)) mixer

section Layout

/-- What a sound card says of a control apart from its contents. -/
def MixerCtl.shape (c : MixerCtl) : String × MixerCtlType × Nat × Int × Int :=
  (c.name, c.type, c.numValues, c.rangeMin, c.rangeMax)

/-- The same controls, with contents of their own. -/
def SameLayout (mixer mixer' : Mixer) : Prop := mixer'.map MixerCtl.shape = mixer.map MixerCtl.shape

theorem SameLayout.refl (mixer : Mixer) : SameLayout mixer mixer := rfl

theorem SameLayout.trans {mixer mixer₁ mixer₂ : Mixer} (h₁ : SameLayout mixer mixer₁)
    (h₂ : SameLayout mixer₁ mixer₂) : SameLayout mixer mixer₂ := Eq.trans h₂ h₁

/-- A control of the one card is there on the other. -/
theorem SameLayout.get {mixer mixer' : Mixer} (h : SameLayout mixer mixer') {i : Nat}
    {ctl : MixerCtl} (hctl : mixer[i]? = some ctl) :
    ∃ ctl', mixer'[i]? = some ctl' ∧ ctl'.shape = ctl.shape := by
  have hshape : (mixer'.map MixerCtl.shape)[i]? = some ctl.shape := by
    rw [h, List.getElem?_map, hctl]
    rfl
  rw [List.getElem?_map] at hshape
  exact Option.map_eq_some_iff.mp hshape

theorem mixerCtlSetValue_shape (c : MixerCtl) (id value : Nat) :
    (mixerCtlSetValue c id value).shape = c.shape := by
  have hset (v : Int) : MixerCtl.shape { c with values := c.values.set id v } = c.shape := by
    simp [MixerCtl.shape, MixerCtl.numValues]
  unfold mixerCtlSetValue
  split
  · dsimp only
    split
    · exact hset _
    · split
      · rfl
      · exact hset _
    · exact hset _
    · exact hset _
    · rfl
    · rfl
    · rfl
  · rfl

theorem patch_length (old : List Int) (offset : Nat) (bytes : List Nat) :
    (patch old offset bytes).length = old.length := by
  simp only [patch, List.length_take, List.length_append, List.length_map, List.length_drop]
  omega

/-- A write changes values, never the kind or the size of a control. -/
theorem writeCtl_shape (pctl : Ctl) (ctl : MixerCtl) : (writeCtl pctl ctl).shape = ctl.shape := by
  have hfold (v : Nat) : ∀ (ids : List Nat) (c : MixerCtl),
      (ids.foldl (fun c vnum => mixerCtlSetValue c vnum v) c).shape = c.shape := by
    intro ids
    induction ids with
    | nil => exact fun _ => rfl
    | cons id ids ih => exact fun c => (ih _).trans (mixerCtlSetValue_shape c id v)
  unfold writeCtl
  split
  · split
    · exact hfold _ _ ctl
    · exact mixerCtlSetValue_shape _ _ _
  · split
    · exact hfold _ _ ctl
    · exact mixerCtlSetValue_shape _ _ _
  · split
    · unfold mixerCtlSetArray
      split
      · rfl
      · simp [MixerCtl.shape, MixerCtl.numValues] at *
        omega
    · simp [MixerCtl.shape, MixerCtl.numValues, patch_length]
  · unfold mixerCtlSetEnumByString
    split
    · rfl
    · split
      · simp [MixerCtl.shape, MixerCtl.numValues]
      · rfl
  · rfl

theorem writeCtls_layout (mixer : Mixer) (ctls : List Ctl) : SameLayout mixer (writeCtls mixer ctls) := by
  induction ctls generalizing mixer with
  | nil => rfl
  | cons c ctls ih =>
    refine SameLayout.trans ?_ (ih _)
    apply List.ext_getElem?
    intro i
    rw [List.getElem?_map, List.getElem?_map, List.getElem?_modify]
    cases mixer[i]? with
    | none => rfl
    | some ctl => by_cases hi : c.id = i <;> simp [hi, writeCtl_shape]

/-- Opening a control looks at the layout only. -/
theorem ctlOpen_congr {mixer mixer' : Mixer} (h : SameLayout mixer mixer') (pctl : Ctl) :
    ctlOpen mixer' pctl = ctlOpen mixer pctl := by
  have hshape (i : Nat) : (mixer'[i]?).map MixerCtl.shape = (mixer[i]?).map MixerCtl.shape := by
    rw [← List.getElem?_map, ← List.getElem?_map, h]
  have hname (name : String) : mixerGetCtlByName mixer' name = mixerGetCtlByName mixer name := by
    have hmap (m : Mixer) : mixerGetCtlByName m name =
        (m.map MixerCtl.shape).findIdx? fun s => s.1 = name := by
      rw [List.findIdx?_map]
      rfl
    rw [hmap, hmap, h]
  have hbytes {ctl ctl' : MixerCtl} (hn : ctl'.numValues = ctl.numValues) (c : Ctl) :
      makeByteArray c ctl' = makeByteArray c ctl := by
    unfold makeByteArray
    rw [hn]
  unfold ctlOpen
  rw [hname]
  split
  · rfl
  · cases mixerGetCtlByName mixer pctl.name with
    | none => rfl
    | some i =>
      have hi := hshape i
      dsimp only
      cases hctl : mixer[i]? with
      | none =>
        rw [hctl, Option.map_none, Option.map_eq_none_iff] at hi
        rw [hi]
      | some ctl =>
        rw [hctl, Option.map_some] at hi
        obtain ⟨ctl', hctl', heq⟩ := Option.map_eq_some_iff.mp hi
        simp only [MixerCtl.shape, Prod.mk.injEq] at heq
        obtain ⟨-, htype, hn, -⟩ := heq
        rw [hctl']
        dsimp only
        rw [htype, hbytes hn]

/-- Which controls are written depends on the layout only. -/
theorem writtenCtls_congr {mixer mixer' : Mixer} (h : SameLayout mixer mixer') (ctls : List Ctl) :
    writtenCtls mixer' ctls = writtenCtls mixer ctls := by
  induction ctls with
  | nil => rfl
  | cons pctl rest ih =>
    unfold writtenCtls
    rw [ctlOpen_congr h, ih]

/-- The mixer after `apply_ctls_l` is that of the written controls in order. -/
theorem applyCtlsL_written (mixer : Mixer) (ctls : List Ctl) :
    (applyCtlsL mixer ctls).1 = writeCtls mixer (writtenCtls mixer ctls) := by
  induction ctls generalizing mixer with
  | nil => rfl
  | cons pctl rest ih =>
    unfold applyCtlsL writtenCtls
    dsimp only
    split
    · rfl
    · have hlayout : SameLayout mixer
          (mixer.modify (ctlOpen mixer pctl).2.id (writeCtl (ctlOpen mixer pctl).2)) :=
        writeCtls_layout mixer [(ctlOpen mixer pctl).2]
      rw [ih, writtenCtls_congr hlayout]
      rfl

end Layout

end TinyHal
