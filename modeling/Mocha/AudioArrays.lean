import Mocha.AudioNumbers
import Mocha.AudioDocument

/-!
# Byte arrays

The value of a byte control is a list of numbers between commas. `make_byte_array`
goes through the string twice, to count the tokens and to convert them, and keeps
the bytes for a place in the control that it has checked. `apply_ctls_l` then
writes them there, through a buffer on the stack unless they fill the control.
-/
namespace CString

/-- One call of `strtok`: the token behind the separators, and where the next call goes on. -/
def strtokNext (sep : Char) (str : List Char) : Option (List Char × List Char) :=
  let str := str.dropWhile fun c => c == sep
  let token := str.takeWhile fun c => !(c == sep)
  if token = [] then none else some (token, (str.dropWhile fun c => !(c == sep)).drop 1)

/-- Separators in front of a token are skipped. -/
theorem strtok_separators (sep : Char) (str : List Char) :
    strtok sep (str.dropWhile fun c => c == sep) = strtok sep str := by
  induction str with
  | nil => rfl
  | cons c cs ih =>
    rw [List.dropWhile_cons]
    by_cases hc : c == sep
    · rw [if_pos hc, ih]
      simp [strtok, List.splitOn, List.splitOnP_cons_eq_if_modifyHead, hc]
    · rw [if_neg hc]

theorem strtok_nil (sep : Char) : strtok sep [] = [] := rfl

/-- A token in front of a separator, or at the end. -/
theorem strtok_token {sep : Char} {token : List Char} (h : ∀ c ∈ token, (c == sep) = false)
    (hne : token ≠ []) (rest : List Char) :
    strtok sep (token ++ sep :: rest) = token :: strtok sep rest := by
  rw [strtok, List.splitOn_eq_splitOnP,
    List.splitOnP_append_cons_of_forall_mem h sep (by simp) rest]
  simp [strtok, List.splitOn_eq_splitOnP, hne]

theorem strtok_last {sep : Char} {token : List Char} (h : ∀ c ∈ token, (c == sep) = false)
    (hne : token ≠ []) : strtok sep token = [token] := by
  rw [strtok, List.splitOn_eq_splitOnP, List.splitOnP_eq_singleton h]
  simp [hne]

/-- The calls of `strtok` give the tokens one after another. -/
theorem strtok_step (sep : Char) (str : List Char) :
    strtok sep str = match strtokNext sep str with
      | none => []
      | some (token, rest) => token :: strtok sep rest := by
  rw [← strtok_separators, strtokNext]
  have hhead : ∀ c cs, (str.dropWhile fun c => c == sep) = c :: cs → (c == sep) = false := by
    intro c cs hcs
    have hnot := List.head_dropWhile_not (fun c => c == sep) (l := str) (by rw [hcs]; simp)
    simpa [hcs] using hnot
  generalize (str.dropWhile fun c => c == sep) = s at hhead ⊢
  have hsplit : (s.takeWhile fun c => !(c == sep)) ++ (s.dropWhile fun c => !(c == sep)) = s :=
    List.takeWhile_append_dropWhile
  have htoken : ∀ c ∈ s.takeWhile fun c => !(c == sep), (c == sep) = false := by
    intro c hc
    have hall := List.all_eq_true.mp (List.all_takeWhile (p := fun c => !(c == sep)) (l := s)) c hc
    simpa using hall
  have hsep : ∀ c rest, (s.dropWhile fun c => !(c == sep)) = c :: rest → c = sep := by
    intro c rest hrest
    have hnot := List.head_dropWhile_not (fun c => !(c == sep)) (l := s) (by rw [hrest]; simp)
    simpa [hrest] using hnot
  by_cases hempty : (s.takeWhile fun c => !(c == sep)) = []
  · rw [if_pos hempty]
    cases s with
    | nil => rfl
    | cons c cs =>
      rw [List.takeWhile_cons, hhead c cs rfl] at hempty
      cases hempty
  · rw [if_neg hempty]
    dsimp only
    generalize (s.takeWhile fun c => !(c == sep)) = token at hsplit htoken hempty ⊢
    cases hrest : s.dropWhile fun c => !(c == sep) with
    | nil =>
      rw [hrest, List.append_nil] at hsplit
      rw [← hsplit, strtok_last htoken hempty]
      rfl
    | cons c rest =>
      rw [hrest, hsep c rest hrest] at hsplit
      rw [← hsplit, strtok_token htoken hempty]
      rfl

/-- Each token takes something away from the text. -/
theorem strtokNext_length {sep : Char} {str token rest : List Char}
    (h : strtokNext sep str = some (token, rest)) : rest.length < str.length := by
  obtain ⟨hempty, h⟩ := Option.ite_none_left_eq_some.mp h
  cases h
  have hlen : (str.dropWhile fun c => c == sep).length ≤ str.length :=
    (List.dropWhile_suffix _).length_le
  have hrest := congrArg List.length (List.takeWhile_append_dropWhile
    (p := fun c => !(c == sep)) (l := str.dropWhile fun c => c == sep))
  have hpos := List.length_pos_iff.mpr hempty
  rw [List.length_append] at hrest
  rw [List.length_drop]
  omega

end CString

namespace TinyHal

open CString

/-- The first pass of `make_byte_array` over the string. -/
def countTokens (str : List Char) : Nat :=
  match h : strtokNext ',' str with
  | none => 0
  | some (_, rest) => countTokens rest + 1
termination_by str.length
decreasing_by exact strtokNext_length h

/-- The second one. -/
def convertTokens (str : List Char) : Except Int (List Nat) :=
  match _h : strtokNext ',' str with
  | none => .ok []
  | some (p, rest) =>
    match stringToUint (some (String.ofList p)) with
    | .error e => .error e
    | .ok v =>
      match convertTokens rest with
      | .error e => .error e
      | .ok bytes => .ok (v % 256 :: bytes)
termination_by str.length
decreasing_by exact strtokNext_length ‹_›

/-- Both passes go over the same tokens. -/
theorem countTokens_eq (str : List Char) : countTokens str = (strtok ',' str).length := by
  fun_induction countTokens str with
  | case1 str h => rw [strtok_step, h]; rfl
  | case2 str token rest h ih => rw [strtok_step, h, ih]; rfl

/-- A text has no more tokens than characters. -/
theorem countTokens_le (str : List Char) : countTokens str ≤ str.length := by
  fun_induction countTokens str with
  | case1 str h => exact Nat.zero_le _
  | case2 str token rest h ih =>
    have hrest := strtokNext_length h
    omega

/-- The loop over the tokens is the list of their bytes. -/
theorem convertTokens_eq (str : List Char) : convertTokens str = tokenBytes (strtok ',' str) := by
  fun_induction convertTokens str with
  | case1 str h => rw [strtok_step, h]; rfl
  | case2 str p rest h e he =>
    rw [strtok_step, h]
    simp only [tokenBytes, he]
  | case3 str p rest h v hv e he ih =>
    rw [strtok_step, h]
    simp only [tokenBytes, hv, ← ih, he]
  | case4 str p rest h v hv bytes hbytes ih =>
    rw [strtok_step, h]
    simp only [tokenBytes, hv, ← ih, hbytes]

/-- The two passes with the sum of `unsigned int`. -/
def makeByteArrayPasses (c : Ctl) (ctl : MixerCtl) : Int × Ctl :=
  let str := c.valStr.toList
  let vnum := ctl.numValues
  if byteArrayMaxSize < vnum then (-einval, c)
  else if vnum ≤ c.index then (-einval, c)
  else
    let count := countTokens str
    if vnum < (c.index + count) % 4294967296 then (-einval, c)
    else
      let c := { c with arrayCount := count }
      match convertTokens str with
      | .error e => (e, c)
      | .ok bytes => (0, { c with value := .data bytes })

/-- The sum does not wrap for a string that fits twice in the address space. -/
theorem makeByteArray_passes (c : Ctl) (ctl : MixerCtl)
    (hstr : c.valStr.toList.length < 2147483648) :
    makeByteArrayPasses c ctl = makeByteArray c ctl := by
  have hcount := countTokens_le c.valStr.toList
  rw [countTokens_eq] at hcount
  have hmax : byteArrayMaxSize = 512 := rfl
  simp only [makeByteArrayPasses, makeByteArray, countTokens_eq, convertTokens_eq]
  by_cases hvnum : byteArrayMaxSize < ctl.numValues
  · rw [if_pos hvnum, if_pos hvnum]
  by_cases hindex : ctl.numValues ≤ c.index
  · rw [if_neg hvnum, if_neg hvnum, if_pos hindex, if_pos hindex]
  have hsum : (c.index + (strtok ',' c.valStr.toList).length) % 4294967296 =
      c.index + (strtok ',' c.valStr.toList).length := Nat.mod_eq_of_lt (by omega)
  rw [if_neg hvnum, if_neg hvnum, if_neg hindex, if_neg hindex]
  exact if_congr (iff_of_eq (congrArg (ctl.numValues < ·) hsum)) rfl rfl

/-- The byte that a token becomes. -/
def tokenByte (token : List Char) : Nat := (strtoul token).1 % 256

/-- A text that is accepted is a numeral, and its value is returned. -/
theorem stringToUint_ok {str : String} {v : Nat} (h : stringToUint (some str) = .ok v) :
    v = (strtoul str.toList).1 ∧ ∃ negative m, Numeral str.toList negative m := by
  refine ⟨(stringToUint_strtoul h).1, ?_⟩
  by_contra hnot
  rw [stringToUint_not_numeral hnot] at h
  cases h

/-- All tokens are numerals, and each gives its low byte. -/
theorem tokenBytes_ok {tokens : List (List Char)} {bytes : List Nat}
    (h : tokenBytes tokens = .ok bytes) :
    bytes = tokens.map tokenByte ∧ ∀ t ∈ tokens, ∃ negative m, Numeral t negative m := by
  induction tokens generalizing bytes with
  | nil =>
    cases h
    simp
  | cons t ts ih =>
    simp only [tokenBytes] at h
    cases hv : stringToUint (some (String.ofList t)) with
    | error e =>
      rw [hv] at h
      cases h
    | ok v =>
      rw [hv] at h
      obtain ⟨hval, hnum⟩ := stringToUint_ok hv
      rw [String.toList_ofList] at hval hnum
      cases hts : tokenBytes ts with
      | error e =>
        rw [hts] at h
        cases h
      | ok rest =>
        rw [hts] at h
        cases h
        obtain ⟨hrest, hnums⟩ := ih hts
        refine ⟨?_, ?_⟩
        · rw [hrest, hval]
          rfl
        · intro t' ht'
          cases List.mem_cons.mp ht' with
          | inl heq => rw [heq]; exact hnum
          | inr hmem => exact hnums t' hmem

/-- A byte array that `make_byte_array` accepts, for a control of `vnum` bytes. -/
structure ByteArrayFits (c : Ctl) (vnum : Nat) (o : Ctl) : Prop where
  bound : o.index + o.arrayCount ≤ vnum
  size : vnum ≤ 512
  index : o.index = c.index
  count : o.arrayCount = (strtok ',' c.valStr.toList).length
  data : o.value = .data ((strtok ',' c.valStr.toList).map tokenByte)
  numerals : ∀ t ∈ strtok ',' c.valStr.toList, ∃ negative m, Numeral t negative m

/-- What stays of a control that could not be opened: all but the index and the count. -/
structure StaysClosed (c o : Ctl) : Prop where
  id : o.id = c.id
  name : o.name = c.name
  type : o.type = c.type
  value : o.value = c.value
  index : o.index = c.index ∨ c.index = invalidCtlIndex ∧ o.index = 0

/-- Either the bytes fit the control or the array is refused. -/
theorem makeByteArray_cases (c : Ctl) (ctl : MixerCtl) :
    ((makeByteArray c ctl).1 = 0 ∧ ByteArrayFits c ctl.numValues (makeByteArray c ctl).2) ∨
      ((makeByteArray c ctl).1 ≠ 0 ∧ StaysClosed c (makeByteArray c ctl).2) := by
  unfold makeByteArray
  dsimp only
  by_cases hvnum : byteArrayMaxSize < ctl.numValues
  · rw [if_pos hvnum]
    exact .inr ⟨by simp [einval], rfl, rfl, rfl, rfl, .inl rfl⟩
  by_cases hindex : ctl.numValues ≤ c.index
  · rw [if_neg hvnum, if_pos hindex]
    exact .inr ⟨by simp [einval], rfl, rfl, rfl, rfl, .inl rfl⟩
  by_cases hcount : ctl.numValues < c.index + (strtok ',' c.valStr.toList).length
  · rw [if_neg hvnum, if_neg hindex, if_pos hcount]
    exact .inr ⟨by simp [einval], rfl, rfl, rfl, rfl, .inl rfl⟩
  rw [if_neg hvnum, if_neg hindex, if_neg hcount]
  cases hbytes : tokenBytes (strtok ',' c.valStr.toList) with
  | error e =>
    have he := tokenBytes_error hbytes
    exact .inr ⟨by simp only; omega, rfl, rfl, rfl, rfl, .inl rfl⟩
  | ok bytes =>
    obtain ⟨hdata, hnum⟩ := tokenBytes_ok hbytes
    have hmax : byteArrayMaxSize = 512 := rfl
    exact .inl ⟨rfl, by simp only; omega, by omega, rfl, rfl, by rw [hdata], hnum⟩

/-- The control with the index that `ctl_open` falls back to. -/
def withIndex (c : Ctl) : Ctl := if c.index = invalidCtlIndex then { c with index := 0 } else c

/-- A byte control is opened with its array, or refused with the error of the array. -/
theorem ctlOpen_byte {mixer : Mixer} {c : Ctl} {i : Nat} {ctl : MixerCtl} (hfresh : c.id = uintMax)
    (hname : mixerGetCtlByName mixer c.name = some i) (hctl : mixer[i]? = some ctl)
    (htype : ctl.type = .byte) :
    ctlOpen mixer c =
      if (makeByteArray (withIndex c) ctl).1 ≠ 0 then makeByteArray (withIndex c) ctl
      else (0, { (makeByteArray (withIndex c) ctl).2 with type := .byte, id := i }) := by
  rw [ctlOpen, if_neg (not_not_intro hfresh), hname]
  dsimp only
  rw [hctl]
  dsimp only
  rw [htype]
  rfl

theorem withIndex_valStr (c : Ctl) : (withIndex c).valStr = c.valStr := by
  unfold withIndex
  split <;> rfl

theorem withIndex_kept (c : Ctl) {o : Ctl} (h : StaysClosed (withIndex c) o) : StaysClosed c o := by
  unfold withIndex at h
  by_cases hc : c.index = invalidCtlIndex
  · rw [if_pos hc] at h
    refine ⟨h.id, h.name, h.type, h.value, .inr ⟨hc, ?_⟩⟩
    cases h.index with
    | inl heq => exact heq
    | inr hinvalid => exact hinvalid.2
  · rwa [if_neg hc] at h

theorem StaysClosed.refl (c : Ctl) : StaysClosed c c := ⟨rfl, rfl, rfl, rfl, .inl rfl⟩

theorem number_stays_closed {c : Ctl} (i : Nat) (type : MixerCtlType)
    (h : (match stringToUint (some c.valStr) with
      | .error e => if e = -einval then (-einval, c) else (0, { c with type := type, id := i })
      | .ok v => (0, { c with value := .uinteger v, type := type, id := i })).1 ≠ 0) :
    StaysClosed c (match stringToUint (some c.valStr) with
      | .error e => if e = -einval then (-einval, c) else (0, { c with type := type, id := i })
      | .ok v => (0, { c with value := .uinteger v, type := type, id := i })).2 := by
  cases hv : stringToUint (some c.valStr) with
  | ok v =>
    rw [hv] at h
    exact absurd rfl h
  | error e =>
    rw [hv] at h
    dsimp only at h ⊢
    by_cases he : e = -einval
    · rw [if_pos he]
      exact .refl c
    · rw [if_neg he] at h
      exact absurd rfl h

/-- A control that cannot be opened is left to be opened later. -/
theorem ctlOpen_failed (mixer : Mixer) (c : Ctl) (h : (ctlOpen mixer c).1 ≠ 0) :
    StaysClosed c (ctlOpen mixer c).2 := by
  by_cases hfresh : c.id = uintMax
  case neg => rw [ctlOpen, if_pos hfresh] at h; exact absurd rfl h
  cases hname : mixerGetCtlByName mixer c.name with
  | none =>
    rw [ctlOpen, if_neg (not_not_intro hfresh), hname]
    exact .refl c
  | some i =>
    cases hctl : mixer[i]? with
    | none =>
      rw [ctlOpen, if_neg (not_not_intro hfresh), hname]
      dsimp only
      rw [hctl]
      exact .refl c
    | some ctl =>
      by_cases htype : ctl.type = .byte
      · rw [ctlOpen_byte hfresh hname hctl htype] at h ⊢
        by_cases hcode : (makeByteArray (withIndex c) ctl).1 ≠ 0
        · rw [if_pos hcode]
          cases makeByteArray_cases (withIndex c) ctl with
          | inl hopened => exact absurd hopened.1 hcode
          | inr hclosed => exact withIndex_kept c hclosed.2
        · rw [if_neg hcode] at h
          exact absurd rfl h
      · rw [ctlOpen, if_neg (not_not_intro hfresh), hname] at h ⊢
        dsimp only at h ⊢
        rw [hctl] at h ⊢
        dsimp only at h ⊢
        cases hkind : ctl.type with
        | byte => exact absurd hkind htype
        | enum => rw [hkind] at h; exact absurd rfl h
        | iec958 => exact .refl c
        | int64 => exact .refl c
        | unknown => exact .refl c
        | bool => rw [hkind] at h; exact number_stays_closed i .bool h
        | int => rw [hkind] at h; exact number_stays_closed i .int h

section Writing

/-- `memcpy` into a buffer. There is no result when it would pass the end of the buffer. -/
def copyInto (buffer : List Int) (offset : Nat) (bytes : List Int) : Option (List Int) :=
  if offset + bytes.length ≤ buffer.length then
    some (buffer.take offset ++ bytes ++ buffer.drop (offset + bytes.length))
  else none

/-- The byte branch of `apply_ctls_l` on the scratch buffer `ctlData`. There is no result when a
copy would pass the end of the buffer or of the data block. -/
def applyBytes (ctlData : List Int) (pctl : Ctl) (block : List Nat) (ctl : MixerCtl) :
    Option MixerCtl :=
  let vnum := ctl.numValues
  if block.length < pctl.arrayCount then none
  else if pctl.index = 0 ∧ pctl.arrayCount = vnum then
    some (mixerCtlSetArray ctl (block.take pctl.arrayCount))
  else
    -- read-modify-write
    (copyInto ctlData 0 ctl.values).bind fun ctlData =>
      (copyInto ctlData pctl.index ((block.take pctl.arrayCount).map Int.ofNat)).map fun ctlData =>
        { ctl with values := ctlData.take vnum }

/-- An opened byte control written to a control `ctl` of the mixer. -/
structure BytesWritten (o : Ctl) (bytes : List Nat) (ctl : MixerCtl) : Prop where
  inside : ∀ k, k < o.arrayCount →
    (writeCtl o ctl).values[o.index + k]? = (bytes[k]?).map Int.ofNat
  outside : ∀ k, k < o.index ∨ o.index + o.arrayCount ≤ k →
    (writeCtl o ctl).values[k]? = ctl.values[k]?
  shape : (writeCtl o ctl).shape = ctl.shape
  scratch : ∀ ctlData : List Int, ctlData.length = byteArrayMaxSize →
    applyBytes ctlData o bytes ctl = some (writeCtl o ctl)
  direct : o.index = 0 → o.arrayCount = ctl.numValues →
    mixerCtlSetArray ctl bytes = { ctl with values := patch ctl.values o.index bytes }

/-- Inside the range stands what was written. -/
theorem patch_inside {old : List Int} {offset k : Nat} {bytes : List Nat}
    (hfit : offset + bytes.length ≤ old.length) (hk : k < bytes.length) :
    (patch old offset bytes)[offset + k]? = (bytes[k]?).map Int.ofNat := by
  have htake : (old.take offset).length = offset := by
    rw [List.length_take]
    omega
  rw [patch, List.getElem?_take_of_lt (by omega), List.getElem?_append_left
    (by simp only [List.length_append, List.length_map, htake]; omega),
    List.getElem?_append_right (by omega), htake, List.getElem?_map]
  congr 2
  omega

/-- Outside it stands what was there. -/
theorem patch_outside {old : List Int} {offset k : Nat} {bytes : List Nat}
    (hfit : offset + bytes.length ≤ old.length) (hk : k < offset ∨ offset + bytes.length ≤ k) :
    (patch old offset bytes)[k]? = old[k]? := by
  have htake : (old.take offset).length = offset := by
    rw [List.length_take]
    omega
  have hfront : (old.take offset ++ bytes.map Int.ofNat).length = offset + bytes.length := by
    rw [List.length_append, htake, List.length_map]
  cases hk with
  | inl hbefore =>
    rw [patch, List.getElem?_take_of_lt (by omega), List.append_assoc,
      List.getElem?_append_left (by omega), List.getElem?_take_of_lt hbefore]
  | inr hafter =>
    by_cases hend : k < old.length
    · rw [patch, List.getElem?_take_of_lt hend, List.getElem?_append_right (by omega), hfront,
        List.getElem?_drop]
      congr 1
      omega
    · have hlen := patch_length old offset bytes
      rw [List.getElem?_eq_none (by omega), List.getElem?_eq_none (by omega)]

/-- Bytes that fill the control: writing them directly and writing them over what was read. -/
theorem setArray_eq_patch {ctl : MixerCtl} {bytes : List Nat} (h : bytes.length = ctl.numValues) :
    mixerCtlSetArray ctl bytes = { ctl with values := patch ctl.values 0 bytes } := by
  have hpatch : patch ctl.values 0 bytes = bytes.map Int.ofNat := by
    have hrest : ctl.values.drop (0 + bytes.length) = [] := by
      rw [List.drop_eq_nil_iff]
      simp only [MixerCtl.numValues] at h
      omega
    rw [patch, hrest, List.take_zero, List.nil_append, List.append_nil, List.take_of_length_le]
    rw [List.length_map]
    exact Nat.le_of_eq h
  rw [hpatch, mixerCtlSetArray]
  by_cases hnone : bytes.length = 0 ∨ ctl.numValues < bytes.length
  · rw [if_pos hnone]
    have hempty : bytes = [] := List.length_eq_zero_iff.mp (by omega)
    have hvalues : ctl.values = [] := List.length_eq_zero_iff.mp (by
      simp only [MixerCtl.numValues] at h
      rw [← h, hempty]
      rfl)
    rw [hempty]
    obtain ⟨name, type, values, enums, lo, hi⟩ := ctl
    cases hvalues
    rfl
  · rw [if_neg hnone]
    have hrest : List.replicate (ctl.numValues - bytes.length) (0 : Int) = [] := by
      rw [h, Nat.sub_self]
      rfl
    rw [hrest, List.append_nil]

/-- The write of a byte array is a patch of the old values. -/
theorem writeCtl_bytes {o : Ctl} {bytes : List Nat} {ctl : MixerCtl} (htype : ctl.type = .byte)
    (hvalue : o.value = .data bytes) (hcount : o.arrayCount = bytes.length) :
    writeCtl o ctl = { ctl with values := patch ctl.values o.index bytes } := by
  obtain ⟨name, type, values, enums, lo, hi⟩ := ctl
  cases htype
  rw [writeCtl, hvalue]
  dsimp only
  by_cases hall : o.index = 0 ∧ o.arrayCount = MixerCtl.numValues ⟨name, .byte, values, enums, lo, hi⟩
  · rw [if_pos hall, setArray_eq_patch (by omega), hall.1]
  · rw [if_neg hall]

theorem applyBytes_eq {ctlData : List Int} {o : Ctl} {bytes : List Nat} {ctl : MixerCtl}
    (htype : ctl.type = .byte) (hvalue : o.value = .data bytes)
    (hcount : o.arrayCount = bytes.length) (hfit : o.index + o.arrayCount ≤ ctl.numValues)
    (hsize : ctl.numValues ≤ ctlData.length) :
    applyBytes ctlData o bytes ctl = some (writeCtl o ctl) := by
  have hblock : bytes.take o.arrayCount = bytes := List.take_of_length_le (by omega)
  rw [writeCtl_bytes htype hvalue hcount, applyBytes, hblock, if_neg (by omega)]
  by_cases hall : o.index = 0 ∧ o.arrayCount = ctl.numValues
  · rw [if_pos hall, setArray_eq_patch (by omega), hall.1]
  · have hread : copyInto ctlData 0 ctl.values =
        some (ctl.values ++ ctlData.drop ctl.values.length) := by
      rw [copyInto, if_pos (by simpa [MixerCtl.numValues] using hsize)]
      simp
    rw [if_neg hall, hread, Option.bind_some]
    simp only [MixerCtl.numValues] at hfit hsize
    have hcopy : o.index + (bytes.map Int.ofNat).length ≤
        (ctl.values ++ ctlData.drop ctl.values.length).length := by
      simp only [List.length_map, List.length_append]
      omega
    -- the rest of the buffer lies behind the bytes that go back
    have hback : ((ctl.values ++ ctlData.drop ctl.values.length).take o.index ++
        bytes.map Int.ofNat ++ (ctl.values ++ ctlData.drop ctl.values.length).drop
          (o.index + (bytes.map Int.ofNat).length)).take ctl.values.length =
        patch ctl.values o.index bytes := by
      generalize ctlData.drop ctl.values.length = rest
      have hfront : (ctl.values ++ rest).take o.index = ctl.values.take o.index :=
        List.take_append_of_le_length (by omega)
      have hbehind : (ctl.values ++ rest).drop (o.index + bytes.length) =
          ctl.values.drop (o.index + bytes.length) ++ rest :=
        List.drop_append_of_le_length (by omega)
      rw [patch, List.length_map, hfront, hbehind, ← List.append_assoc,
        List.take_append_of_le_length]
      simp only [List.length_append, List.length_take, List.length_map, List.length_drop]
      omega
    rw [copyInto, if_pos hcopy, Option.map_some, MixerCtl.numValues, hback]

/-- What the control holds after the write, place by place. -/
theorem bytesWritten {o : Ctl} {bytes : List Nat} {ctl : MixerCtl} (htype : ctl.type = .byte)
    (hvalue : o.value = .data bytes) (hcount : o.arrayCount = bytes.length)
    (hfit : o.index + o.arrayCount ≤ ctl.numValues) (hsize : ctl.numValues ≤ byteArrayMaxSize) :
    BytesWritten o bytes ctl := by
  have hwritten := writeCtl_bytes htype hvalue hcount
  have hroom : o.index + bytes.length ≤ ctl.values.length := by rw [← hcount]; exact hfit
  constructor
  · intro k hk
    rw [hwritten]
    exact patch_inside hroom (by omega)
  · intro k hk
    rw [hwritten]
    exact patch_outside hroom (by omega)
  · exact writeCtl_shape o ctl
  · intro ctlData hlen
    exact applyBytes_eq htype hvalue hcount hfit (by omega)
  · intro hzero hall
    rw [hzero]
    exact setArray_eq_patch (by omega)

end Writing

/-- A byte control that has been opened as control number `i` of the mixer. -/
structure OpenedBytes (mixer : Mixer) (c : Ctl) (i : Nat) (ctl : MixerCtl) (o : Ctl) : Prop where
  fits : ByteArrayFits (withIndex c) ctl.numValues o
  /-- Applying it, whenever the mixer has the same controls: opened only now, or earlier (its id
  then tells it from a control still to be found). -/
  applied : ∀ mixer', SameLayout mixer mixer' → ∀ c', c' = c ∨ c' = o ∧ i ≠ uintMax → ∀ rest,
    applyCtlsL mixer' (c' :: rest) =
      ((applyCtlsL (mixer'.modify i (writeCtl o)) rest).1,
        o :: (applyCtlsL (mixer'.modify i (writeCtl o)) rest).2)
  written : ∀ mixer', SameLayout mixer mixer' → ∃ ctl', mixer'[i]? = some ctl' ∧
    (mixer'.modify i (writeCtl o))[i]? = some (writeCtl o ctl') ∧
    BytesWritten o ((strtok ',' c.valStr.toList).map tokenByte) ctl'
  others : ∀ mixer' : Mixer, ∀ j, j ≠ i → (mixer'.modify i (writeCtl o))[j]? = mixer'[j]?

theorem sameLayout_get {mixer mixer' : Mixer} (h : SameLayout mixer mixer') {i : Nat}
    {ctl : MixerCtl} (hctl : mixer[i]? = some ctl) :
    ∃ ctl', mixer'[i]? = some ctl' ∧ ctl'.type = ctl.type ∧ ctl'.numValues = ctl.numValues := by
  obtain ⟨ctl', hctl', heq⟩ := h.get hctl
  simp only [MixerCtl.shape, Prod.mk.injEq] at heq
  exact ⟨ctl', hctl', heq.2.1, heq.2.2.1⟩

/-- An opened control is written as it is, and one that opens is written as opened. -/
theorem applyCtlsL_opened {mixer : Mixer} {c o : Ctl} (h : ctlOpen mixer c = (0, o)) (rest : List Ctl) :
    applyCtlsL mixer (c :: rest) =
      ((applyCtlsL (mixer.modify o.id (writeCtl o)) rest).1,
        o :: (applyCtlsL (mixer.modify o.id (writeCtl o)) rest).2) := by
  rw [applyCtlsL, h]
  rfl

/-- `ctl_open` on a control that has not been found yet: a byte control that opens is written where
it says, and one that does not open keeps its text. -/
theorem ctlOpen_bytes (mixer : Mixer) (c : Ctl) (hfresh : c.id = uintMax) :
    ((ctlOpen mixer c).1 ≠ 0 → StaysClosed c (ctlOpen mixer c).2) ∧
      ∀ i ctl, mixerGetCtlByName mixer c.name = some i → mixer[i]? = some ctl → ctl.type = .byte →
        (ctlOpen mixer c).1 = 0 → OpenedBytes mixer c i ctl (ctlOpen mixer c).2 := by
  refine ⟨ctlOpen_failed mixer c, ?_⟩
  intro i ctl hname hctl htype hcode
  have hopen := ctlOpen_byte hfresh hname hctl htype
  cases makeByteArray_cases (withIndex c) ctl with
  | inr hclosed =>
    rw [if_pos hclosed.1] at hopen
    rw [hopen] at hcode
    exact absurd hcode hclosed.1
  | inl hmade =>
    obtain ⟨hzero, hfits⟩ := hmade
    rw [if_neg (not_not_intro hzero)] at hopen
    generalize (makeByteArray (withIndex c) ctl).2 = made at hopen hfits
    have hsame : ∀ mixer', SameLayout mixer mixer' →
        ctlOpen mixer' c = (0, { made with type := .byte, id := i }) :=
      fun mixer' hlayout => (ctlOpen_congr hlayout c).trans hopen
    rw [hopen]
    constructor
    · exact ⟨hfits.bound, hfits.size, hfits.index, hfits.count, hfits.data, hfits.numerals⟩
    · intro mixer' hlayout c' hc' rest
      cases hc' with
      | inl hfirst =>
        rw [hfirst]
        exact applyCtlsL_opened (hsame mixer' hlayout) rest
      | inr hagain =>
        obtain ⟨rfl, hid⟩ := hagain
        exact applyCtlsL_opened (by rw [ctlOpen, if_pos hid]) rest
    · intro mixer' hlayout
      obtain ⟨ctl', hctl', htype', hvnum⟩ := sameLayout_get hlayout hctl
      have hdata := hfits.data
      have hcount := hfits.count
      have hbound := hfits.bound
      have hsize := hfits.size
      have hmax : byteArrayMaxSize = 512 := rfl
      rw [withIndex_valStr] at hdata hcount
      refine ⟨ctl', hctl', ?_, bytesWritten (htype'.trans htype) hdata ?_ ?_ (by omega)⟩
      · rw [List.getElem?_modify_eq, hctl']
        rfl
      · rw [List.length_map]
        exact hcount
      · rw [hvnum]
        exact hbound
    · intro mixer' j hj
      exact List.getElem?_modify_ne _ mixer' hj.symm

/-- Two bytes for the middle of a control of four. -/
def coefficients : Ctl := ⟨uintMax, "EQ", 1, 0, .unknown, .string "7,,0x110"⟩

def equalizer : MixerCtl := ⟨"EQ", .byte, [1, 2, 3, 4], [], 0, 0⟩

theorem coefficients_opened :
    ctlOpen [equalizer] coefficients = (0, ⟨0, "EQ", 1, 2, .byte, .data [7, 16]⟩) ∧
      OpenedBytes [equalizer] coefficients 0 equalizer ⟨0, "EQ", 1, 2, .byte, .data [7, 16]⟩ := by
  have hopen : ctlOpen [equalizer] coefficients =
      (0, ⟨0, "EQ", 1, 2, .byte, .data [7, 16]⟩) := by decide +kernel
  have hbytes := (ctlOpen_bytes [equalizer] coefficients rfl).2 0 equalizer (by decide) rfl rfl
    (by rw [hopen])
  rw [hopen] at hbytes
  exact ⟨hopen, hbytes⟩

end TinyHal
