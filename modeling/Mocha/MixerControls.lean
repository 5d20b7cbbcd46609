import Mocha.AudioControls
import Mocha.Custody
import Mocha.PcmDevice
import Mocha.Transition

/-!
# The controls of a mixer

`tinyalsa/mixer.c`. A mixer collects the controls of a card when it is opened and again on
each update. The names of an enumerated control are stored `old_count` places behind the
control, which is its own place only in the first collection. And a mixer whose card gives no
information is closed before it knows its descriptor.
-/
namespace TinyAlsa

open Transition Custody

section Collecting

inductive ElemType
  | none
  | boolean
  | integer
  | enumerated
  | bytes
  | iec958
  | integer64
  deriving DecidableEq, Repr

structure ElemInfo where
  numid : Nat
  type : ElemType
  items : Nat
  deriving DecidableEq, Repr

/-- A control. `ename` is null or points to the names of the items, each of which may be null. -/
structure MixerCtl where
  info : ElemInfo
  ename : Option (List (Option String))
  deriving DecidableEq, Repr

/-- What `mixer_realloc_z` fills the new places with. -/
def MixerCtl.zero : MixerCtl := ⟨⟨0, .none, 0⟩, none⟩

/-- The block of controls may be longer than the number of controls that count. -/
structure Mixer where
  ctl : List MixerCtl
  count : Nat
  deriving DecidableEq, Repr

/-- What the kernel and the allocator answer to one collection. -/
structure ElemAnswers where
  listed : Option Nat
  block : Bool
  eid : Bool
  pids : Option (Nat → Nat)
  info : Nat → Option (ElemType × Nat)
  enames : Nat → Bool
  item : Nat → Nat → Option String

/-- The names of the items from `m` on, up to the first that is refused; the others stay null. -/
def fillNames (item : Nat → Option String) (m : Nat) : Nat → Bool × List (Option String)
  | 0 => (true, [])
  | k + 1 =>
    match item m with
    | none => (false, List.replicate (k + 1) none)
    | some name =>
      let rest := fillNames item (m + 1) k
      (rest.1, some name :: rest.2)

/-- The body of the loop of `add_controls` for control `n`. A place past the end of the block is
not the mixer's memory; nothing of the mixer changes there. -/
def addControl (a : ElemAnswers) (numid : Nat) (oldCount n : Nat) (ctl : List MixerCtl) :
    Bool × List MixerCtl :=
  match a.info n with
  | none => (false, ctl)
  | some e =>
    let ctl := ctl.modify n fun c => { c with info := ⟨numid, e.1, e.2⟩ }
    if e.1 = .enumerated then
      if a.enames n then
        let filled := fillNames (a.item n) 0 e.2
        (filled.1, ctl.modify (oldCount + n) fun c => { c with ename := some filled.2 })
      else (false, ctl)
    else (true, ctl)

/-- The loop over the controls that have not been seen before. -/
def addLoop (a : ElemAnswers) (numid : Nat → Nat) (oldCount : Nat) :
    Nat → Nat → List MixerCtl → Int × Mixer
  | 0, n, ctl => (0, ⟨ctl, n⟩)
  | k + 1, n, ctl =>
    let added := addControl a (numid (n - oldCount)) oldCount n ctl
    if added.1 then addLoop a numid oldCount k (n + 1) added.2 else (-1, ⟨added.2, n⟩)

def addControls (mixer : Mixer) (a : ElemAnswers) : Int × Mixer :=
  match a.listed with
  | none => (-1, mixer)
  | some count =>
    if mixer.count = count then (0, mixer)
    else if a.block = false then (-1, mixer)
    else
      let ctl := mixer.ctl.take mixer.count ++ List.replicate (count - mixer.count) .zero
      if a.eid = false then (-1, { mixer with ctl := ctl })
      else
        match a.pids with
        | none => (-1, { mixer with ctl := ctl })
        | some numid => addLoop a numid mixer.count (count - mixer.count) mixer.count ctl

def newMixer : Mixer := ⟨[], 0⟩

/-- Drivers do not remove controls: the list never gets shorter. -/
def updateCtls (mixer : Mixer) (a : ElemAnswers) : Option Mixer :=
  if a.listed.all fun count => mixer.count ≤ count then some (addControls mixer a).2 else none

/-- An update that keeps an enumerated control, in a mixer that had controls before. -/
def misplaces (mixer : Mixer) (a : ElemAnswers) : Bool :=
  0 < mixer.count && ((List.range (addControls mixer a).2.count).drop mixer.count).any fun n =>
    (a.info n).any fun e => e.1 = .enumerated

end Collecting

section Names

/-- An enumerated control has a name for each item, any other has none. -/
def MixerCtl.Named (c : MixerCtl) : Prop :=
  if c.info.type = .enumerated then
    ∃ names : List String, c.ename = some (names.map some) ∧ names.length = c.info.items
  else c.ename = none

def Mixer.Sound (mixer : Mixer) : Prop :=
  ∀ n, n < mixer.count → ∀ c ∈ mixer.ctl[n]?, c.Named

/-- From a place on, no control has names yet. -/
def Unnamed (ctl : List MixerCtl) (n : Nat) : Prop := ∀ j, n ≤ j → ∀ c ∈ ctl[j]?, c.ename = none

variable {a : ElemAnswers} {numid : Nat → Nat}

theorem fillNames_filled {item : Nat → Option String} {m k : Nat}
    (h : (fillNames item m k).1 = true) :
    ∃ names : List String, (fillNames item m k).2 = names.map some ∧ names.length = k := by
  induction k generalizing m with
  | zero => exact ⟨[], rfl, rfl⟩
  | succ k ih =>
    cases hitem : item m with
    | none =>
      simp only [fillNames, hitem] at h
      cases h
    | some name =>
      simp only [fillNames, hitem] at h ⊢
      obtain ⟨names, heq, hlen⟩ := ih h
      exact ⟨name :: names, by rw [heq, List.map_cons], by rw [List.length_cons, hlen]⟩

theorem addControl_length (v oldCount n : Nat) (ctl : List MixerCtl) :
    (addControl a v oldCount n ctl).2.length = ctl.length := by
  rw [addControl]
  cases a.info n with
  | none => rfl
  | some e =>
    simp only
    split_ifs <;> simp

/-- The controls in front of the one that is added stay as they are. -/
theorem addControl_below (v : Nat) {oldCount n j : Nat} (hj : j < n) (ctl : List MixerCtl) :
    (addControl a v oldCount n ctl).2[j]? = ctl[j]? := by
  have hn : n ≠ j := by omega
  have hstray : oldCount + n ≠ j := by omega
  rw [addControl]
  cases a.info n with
  | none => rfl
  | some e =>
    simp only
    split_ifs <;> simp [hn, hstray]

/-- The places behind it too, but for the one the names go to. -/
theorem addControl_above (v : Nat) {oldCount n j : Nat} (hj : n < j) (hstray : oldCount + n ≠ j)
    (ctl : List MixerCtl) : (addControl a v oldCount n ctl).2[j]? = ctl[j]? := by
  have hn : n ≠ j := by omega
  rw [addControl]
  cases a.info n with
  | none => rfl
  | some e =>
    simp only
    split_ifs <;> simp [hn, hstray]

theorem addControl_plain (v : Nat) {oldCount n j : Nat} (hj : n < j)
    (h : ∀ e ∈ a.info n, e.1 ≠ .enumerated) (ctl : List MixerCtl) :
    (addControl a v oldCount n ctl).2[j]? = ctl[j]? := by
  have hn : n ≠ j := by omega
  rw [addControl]
  cases he : a.info n with
  | none => rfl
  | some e =>
    simp only [if_neg (h e he)]
    simp [hn]

/-- In the first collection the names are the control's own. -/
theorem addControl_first {v n : Nat} {ctl : List MixerCtl} {c : MixerCtl} (hc : ctl[n]? = some c)
    (hname : c.ename = none) (h : (addControl a v 0 n ctl).1 = true) :
    ∃ d, (addControl a v 0 n ctl).2[n]? = some d ∧ d.Named := by
  rw [addControl] at h ⊢
  cases he : a.info n with
  | none =>
    simp only [he] at h
    cases h
  | some e =>
    simp only [he] at h ⊢
    by_cases henum : e.1 = .enumerated
    · rw [if_pos henum] at h ⊢
      by_cases halloc : a.enames n
      · rw [if_pos halloc] at h ⊢
        obtain ⟨names, hnames, hlen⟩ := fillNames_filled h
        refine ⟨⟨⟨v, e.1, e.2⟩, some (names.map some)⟩, ?_, ?_⟩
        · simp [hc, hnames]
        · rw [MixerCtl.Named, if_pos henum]
          exact ⟨names, rfl, hlen⟩
      · rw [if_neg halloc] at h
        cases h
    · rw [if_neg henum]
      refine ⟨⟨⟨v, e.1, e.2⟩, c.ename⟩, ?_, ?_⟩
      · simp [hc]
      · rw [MixerCtl.Named, if_neg henum]
        exact hname

/-- In a later one they are not. -/
theorem addControl_later {v oldCount n : Nat} (hold : 0 < oldCount) {ctl : List MixerCtl}
    {c : MixerCtl} (hc : ctl[n]? = some c) (hname : c.ename = none)
    (h : (addControl a v oldCount n ctl).1 = true) :
    ∃ e d, a.info n = some e ∧ (addControl a v oldCount n ctl).2[n]? = some d ∧
      d.info.type = e.1 ∧ d.ename = none := by
  have hstray : oldCount ≠ 0 := by omega
  rw [addControl] at h ⊢
  cases he : a.info n with
  | none =>
    simp only [he] at h
    cases h
  | some e =>
    simp only [he] at h ⊢
    refine ⟨e, ⟨⟨v, e.1, e.2⟩, c.ename⟩, rfl, ?_, rfl, hname⟩
    split_ifs <;> simp [hc, hstray]

theorem addLoop_length (oldCount k n : Nat) (ctl : List MixerCtl) :
    (addLoop a numid oldCount k n ctl).2.ctl.length = ctl.length := by
  induction k generalizing n ctl with
  | zero => rfl
  | succ k ih =>
    rw [addLoop]
    split_ifs
    · rw [ih, addControl_length]
    · exact addControl_length _ _ _ _

theorem addLoop_count (oldCount k n : Nat) (ctl : List MixerCtl) :
    n ≤ (addLoop a numid oldCount k n ctl).2.count ∧
      (addLoop a numid oldCount k n ctl).2.count ≤ n + k := by
  induction k generalizing n ctl with
  | zero => exact ⟨Nat.le_refl _, Nat.le_refl _⟩
  | succ k ih =>
    rw [addLoop]
    split_ifs
    · have hrest := ih (n + 1) (addControl a (numid (n - oldCount)) oldCount n ctl).2
      omega
    · exact ⟨Nat.le_refl _, Nat.le_add_right _ _⟩

theorem addLoop_below {oldCount k n j : Nat} (hj : j < n) (ctl : List MixerCtl) :
    (addLoop a numid oldCount k n ctl).2.ctl[j]? = ctl[j]? := by
  induction k generalizing n ctl with
  | zero => rfl
  | succ k ih =>
    rw [addLoop]
    split_ifs
    · rw [ih (Nat.lt_succ_of_lt hj), addControl_below _ hj]
    · exact addControl_below _ hj ctl

theorem addLoop_first {k n : Nat} {ctl : List MixerCtl} (hlen : n + k ≤ ctl.length)
    (hun : Unnamed ctl n) {j : Nat} (hn : n ≤ j)
    (hj : j < (addLoop a numid 0 k n ctl).2.count) :
    ∀ c ∈ (addLoop a numid 0 k n ctl).2.ctl[j]?, c.Named := by
  induction k generalizing n ctl with
  | zero =>
    simp only [addLoop] at hj
    omega
  | succ k ih =>
    rw [addLoop] at hj ⊢
    split_ifs at hj ⊢ with hadded
    · rcases Nat.eq_or_lt_of_le hn with rfl | hlt
      · rw [addLoop_below (Nat.lt_succ_self n)]
        have hin : n < ctl.length := by omega
        have hc := List.getElem?_eq_getElem hin
        obtain ⟨d, hd, hnamed⟩ := addControl_first hc (hun n (Nat.le_refl n) _ hc) hadded
        intro c hcd
        rw [hd] at hcd
        cases hcd
        exact hnamed
      · have hlen' : n + 1 + k ≤ (addControl a (numid (n - 0)) 0 n ctl).2.length := by
          rw [addControl_length]
          omega
        have hun' : Unnamed (addControl a (numid (n - 0)) 0 n ctl).2 (n + 1) := by
          intro i hi c hc
          rw [addControl_above _ (by omega) (by omega)] at hc
          exact hun i (by omega) c hc
        exact ih hlen' hun' hlt hj
    · simp only at hj
      omega

theorem forall_from {P : Nat → Prop} {n m : Nat} (h : n < m) :
    (∀ j, n ≤ j → j < m → P j) ↔ P n ∧ ∀ j, n + 1 ≤ j → j < m → P j := by
  constructor
  · exact fun hall => ⟨hall n (Nat.le_refl n) h, fun j hj hm => hall j (by omega) hm⟩
  · rintro ⟨hfirst, hrest⟩ j hj hm
    rcases Nat.eq_or_lt_of_le hj with rfl | hlt
    · exact hfirst
    · exact hrest j hlt hm

/-- In a later collection the new controls are named exactly if none of them is enumerated. -/
theorem addLoop_later {oldCount : Nat} (hold : 0 < oldCount) {k n : Nat} {ctl : List MixerCtl}
    (hlen : n + k ≤ ctl.length) (hun : Unnamed ctl n) :
    (∀ j, n ≤ j → j < (addLoop a numid oldCount k n ctl).2.count →
      ∀ c ∈ (addLoop a numid oldCount k n ctl).2.ctl[j]?, c.Named) ↔
    ∀ j, n ≤ j → j < (addLoop a numid oldCount k n ctl).2.count →
      ∀ e ∈ a.info j, e.1 ≠ .enumerated := by
  induction k generalizing n ctl with
  | zero =>
    simp only [addLoop]
    constructor
    · intro _ j hj hlt
      omega
    · intro _ j hj hlt
      omega
  | succ k ih =>
    rw [addLoop]
    split_ifs with hadded
    · have hin : n < ctl.length := by omega
      have hc := List.getElem?_eq_getElem hin
      obtain ⟨e, d, he, hd, htype, hnone⟩ :=
        addControl_later hold hc (hun n (Nat.le_refl n) _ hc) hadded
      have hcount := (@addLoop_count a numid oldCount k (n + 1)
        (addControl a (numid (n - oldCount)) oldCount n ctl).2).1
      rw [forall_from hcount, forall_from hcount, addLoop_below (Nat.lt_succ_self n), hd, he]
      by_cases henum : e.1 = .enumerated
      · have hunnamed : ¬d.Named := by
          rw [MixerCtl.Named, htype, if_pos henum, hnone]
          rintro ⟨names, hnames, -⟩
          cases hnames
        constructor
        · exact fun h => absurd (h.1 d rfl) hunnamed
        · exact fun h => absurd henum (h.1 e rfl)
      · have hnamed : d.Named := by
          rw [MixerCtl.Named, htype, if_neg henum]
          exact hnone
        have hplain : ∀ x ∈ a.info n, x.1 ≠ .enumerated := by
          intro x hx
          rw [he] at hx
          cases hx
          exact henum
        have hlen' : n + 1 + k ≤
            (addControl a (numid (n - oldCount)) oldCount n ctl).2.length := by
          rw [addControl_length]
          omega
        have hun' : Unnamed (addControl a (numid (n - oldCount)) oldCount n ctl).2 (n + 1) := by
          intro i hi c hci
          rw [addControl_plain _ (by omega) hplain] at hci
          exact hun i (by omega) c hci
        have hslot : (∀ c ∈ some d, c.Named) ↔ ∀ x ∈ some e, x.1 ≠ .enumerated := by
          simp [hnamed, henum]
        rw [hslot, ih hlen' hun']
    · constructor
      · intro _ j hj hlt
        simp only at hlt
        omega
      · intro _ j hj hlt
        simp only at hlt
        omega

theorem misplaces_eq_false {mixer : Mixer} : misplaces mixer a = false ↔
    (0 < mixer.count → ∀ j, mixer.count ≤ j → j < (addControls mixer a).2.count →
      ∀ e ∈ a.info j, e.1 ≠ .enumerated) := by
  have hmem : ∀ j, j ∈ (List.range (addControls mixer a).2.count).drop mixer.count ↔
      mixer.count ≤ j ∧ j < (addControls mixer a).2.count := by
    intro j
    simp only [List.mem_drop_iff_getElem, List.getElem_range, List.length_range]
    constructor
    · rintro ⟨i, hi, rfl⟩
      omega
    · rintro ⟨hj, hlt⟩
      exact ⟨j - mixer.count, by omega, by omega⟩
  have hone : ∀ j, ¬((a.info j).any fun e => e.1 = .enumerated) = true ↔
      ∀ e ∈ a.info j, e.1 ≠ .enumerated := by
    intro j
    cases a.info j with
    | none => simp
    | some e => simp
  by_cases hold : 0 < mixer.count
  · simp only [misplaces, hold, decide_true, Bool.true_and, List.any_eq_false, hmem, hone,
      forall_const, and_imp]
  · simp [misplaces, hold]

/-- The block before the loop: the old controls, then zeros. -/
def extended (mixer : Mixer) (count : Nat) : List MixerCtl :=
  mixer.ctl.take mixer.count ++ List.replicate (count - mixer.count) .zero

theorem extended_length {mixer : Mixer} (hsize : mixer.count ≤ mixer.ctl.length) (count : Nat) :
    (extended mixer count).length = mixer.count + (count - mixer.count) := by
  rw [extended, List.length_append, List.length_take, List.length_replicate]
  omega

theorem extended_below {mixer : Mixer} (hsize : mixer.count ≤ mixer.ctl.length) (count : Nat)
    {j : Nat} (hj : j < mixer.count) : (extended mixer count)[j]? = mixer.ctl[j]? := by
  have hin : j < (mixer.ctl.take mixer.count).length := by
    rw [List.length_take]
    omega
  rw [extended, List.getElem?_append_left hin, List.getElem?_take_of_lt hj]

theorem extended_unnamed {mixer : Mixer} (hsize : mixer.count ≤ mixer.ctl.length) (count : Nat) :
    Unnamed (extended mixer count) mixer.count := by
  intro j hj c hc
  have hout : (mixer.ctl.take mixer.count).length ≤ j := by
    rw [List.length_take]
    omega
  rw [extended, List.getElem?_append_right hout] at hc
  have hzero := List.eq_of_mem_replicate (List.mem_of_getElem? hc)
  rw [hzero]
  rfl

/-- What a collection does: it keeps the controls that were there, and the new ones have their
names exactly if nothing is misplaced. -/
structure Grows (mixer : Mixer) (a : ElemAnswers) (new : Mixer) : Prop where
  more : mixer.count ≤ new.count
  size : new.count ≤ new.ctl.length
  same : ∀ j, j < mixer.count → new.ctl[j]? = mixer.ctl[j]?
  names : (∀ j, mixer.count ≤ j → j < new.count → ∀ c ∈ new.ctl[j]?, c.Named) ↔
    (0 < mixer.count → ∀ j, mixer.count ≤ j → j < new.count → ∀ e ∈ a.info j, e.1 ≠ .enumerated)

theorem grows_still {mixer : Mixer} {ctl : List MixerCtl} (hsize : mixer.count ≤ ctl.length)
    (hsame : ∀ j, j < mixer.count → ctl[j]? = mixer.ctl[j]?) :
    Grows mixer a { mixer with ctl := ctl } := by
  refine ⟨Nat.le_refl _, hsize, hsame, ?_, ?_⟩
  · intro _ _ j hj hlt
    simp only at hlt
    omega
  · intro _ j hj hlt
    simp only at hlt
    omega

theorem addControls_grows {mixer : Mixer} (hsize : mixer.count ≤ mixer.ctl.length)
    (hlisted : ∀ count ∈ a.listed, mixer.count ≤ count) :
    Grows mixer a (addControls mixer a).2 := by
  have hrefused : Grows mixer a mixer := grows_still hsize fun _ _ => rfl
  rw [addControls]
  cases hcount : a.listed with
  | none => exact hrefused
  | some count =>
    have hge := hlisted count hcount
    have hlen := extended_length hsize count
    have hextended : Grows mixer a { mixer with ctl := extended mixer count } :=
      grows_still (by omega) fun j hj => extended_below hsize count hj
    simp only
    split_ifs
    · exact hrefused
    · exact hrefused
    · exact hextended
    · cases a.pids with
      | none => exact hextended
      | some numid =>
        have hbounds := @addLoop_count a numid mixer.count (count - mixer.count) mixer.count
          (extended mixer count)
        have hun := extended_unnamed hsize count
        refine ⟨hbounds.1, ?_, fun j hj => ?_, ?_⟩
        · rw [addLoop_length]
          exact hbounds.2.trans (Nat.le_of_eq hlen.symm)
        · rw [addLoop_below hj]
          exact extended_below hsize count hj
        · rcases Nat.eq_zero_or_pos mixer.count with hzero | hold
          · have hfirst : ∀ j, mixer.count ≤ j →
                j < (addLoop a numid mixer.count (count - mixer.count) mixer.count
                  (extended mixer count)).2.count →
                ∀ c ∈ (addLoop a numid mixer.count (count - mixer.count) mixer.count
                  (extended mixer count)).2.ctl[j]?, c.Named := by
              rw [hzero] at hlen hun ⊢
              exact fun j hj hlt => addLoop_first (Nat.le_of_eq hlen.symm) hun hj hlt
            exact ⟨fun _ hpos => absurd hpos (by omega), fun _ => hfirst⟩
          · have hlater := @addLoop_later a numid mixer.count hold (count - mixer.count)
              mixer.count (extended mixer count) (Nat.le_of_eq hlen.symm) hun
            exact ⟨fun h _ => hlater.mp h, fun h => hlater.mpr (h hold)⟩

/-- One collection, as an update of a mixer. -/
theorem update_sound {s t : Mixer} (hsize : s.count ≤ s.ctl.length) (h : updateCtls s a = some t) :
    t.count ≤ t.ctl.length ∧ (t.Sound ↔ s.Sound ∧ misplaces s a = false) := by
  rw [updateCtls] at h
  split_ifs at h with hall
  cases h
  have hlisted : ∀ count ∈ a.listed, s.count ≤ count := by
    intro count hcount
    rw [hcount] at hall
    simpa using hall
  obtain ⟨hmore, hnew, hsame, hnames⟩ := addControls_grows hsize hlisted
  rw [misplaces_eq_false, ← hnames]
  refine ⟨hnew, fun hsound => ⟨fun n hn c hc => ?_, fun j _ hlt => hsound j hlt⟩, ?_⟩
  · exact hsound n (by omega) c (by rw [hsame n hn]; exact hc)
  · rintro ⟨hold, hfresh⟩ n hn c hc
    by_cases hlt : n < s.count
    · rw [hsame n hlt] at hc
      exact hold n hlt c hc
    · exact hfresh n (by omega) hn c hc

end Names

section Enums

/-- The loop over the names. `none` is the dereference of a null pointer. -/
def findEnum (ename : Option (List (Option String))) (string : String) (i : Nat) :
    Nat → Option (Option Nat)
  | 0 => some none
  | k + 1 =>
    match (ename.bind fun names => names[i]?).join with
    | none => none
    | some name => if string = name then some (some i) else findEnum ename string (i + 1) k

/-- What is returned, and the item that is written. -/
def mixerCtlSetEnumByString (ctl : MixerCtl) (string : String) : Option (Int × Option Nat) :=
  if ctl.info.type ≠ .enumerated then some (-einval, none)
  else (findEnum ctl.ename string 0 ctl.info.items).map fun found =>
    found.elim (-einval, none) fun i => (0, some i)

theorem findEnum_isSome (names : List String) (string : String) {i k : Nat}
    (h : i + k = names.length) : (findEnum (some (names.map some)) string i k).isSome := by
  induction k generalizing i with
  | zero => rfl
  | succ k ih =>
    have hi : i < names.length := by omega
    rw [findEnum]
    simp only [Option.bind_some, List.getElem?_map, List.getElem?_eq_getElem hi, Option.map_some,
      Option.join_some]
    split_ifs
    · rfl
    · exact ih (by omega)

theorem MixerCtl.Named.findable {c : MixerCtl} (h : c.Named) (string : String) :
    (mixerCtlSetEnumByString c string).isSome := by
  rw [mixerCtlSetEnumByString]
  split_ifs with htype
  · rfl
  · rw [MixerCtl.Named, if_pos (not_not.mp htype)] at h
    obtain ⟨names, hnames, hlen⟩ := h
    rw [Option.isSome_map, hnames]
    exact findEnum_isSome names string (by omega)

/-- Every enumerated control of a mixer has its names, and no other control has any, exactly if
no update keeps an enumerated control. Then no name that is looked for meets a null pointer. -/
theorem names_sound_iff {collections : List ElemAnswers} {t : Mixer}
    (hrun : run updateCtls newMixer collections = some t) :
    (t.Sound ↔ Along updateCtls (fun s a _ => misplaces s a = false) newMixer collections) ∧
      (t.Sound → ∀ n, n < t.count → ∀ c ∈ t.ctl[n]?, ∀ string,
        (mixerCtlSetEnumByString c string).isSome) := by
  have hnew : newMixer.Sound := fun n hn => absurd hn (Nat.not_lt_zero n)
  have hiff := (along_iff (fun s => s.count ≤ s.ctl.length) (P := Mixer.Sound)
    (fun s a t h hstep => update_sound (s := s) (a := a) (t := t) h hstep)
    (Nat.le_refl 0 : newMixer.count ≤ newMixer.ctl.length) hrun).2
  refine ⟨?_, fun hsound n hn c hc string => (hsound n hn c hc).findable string⟩
  rw [hiff]
  exact ⟨fun h => h.2, fun h => ⟨hnew, h⟩⟩

/-- A card with this many switches, of which some are known already. -/
def switches (known count : Nat) : ElemAnswers :=
  { listed := some count, block := true, eid := true, pids := some fun n => known + n + 1
    info := fun _ => some (.enumerated, 1), enames := fun _ => true
    item := fun _ _ => some "On" }

/-- The second switch appears after the mixer was opened: it is left without names. -/
theorem lateSwitch_nameless :
    ¬Mixer.Sound ⟨[⟨⟨1, .enumerated, 1⟩, some [some "On"]⟩, ⟨⟨2, .enumerated, 1⟩, none⟩], 2⟩ := by
  have hrun : run updateCtls newMixer [switches 0 1, switches 1 2] =
      some ⟨[⟨⟨1, .enumerated, 1⟩, some [some "On"]⟩, ⟨⟨2, .enumerated, 1⟩, none⟩], 2⟩ := rfl
  have hlate : ¬Along updateCtls (fun s a _ => misplaces s a = false) newMixer
      [switches 0 1, switches 1 2] := by decide
  exact fun hsound => hlate ((names_sound_iff hrun).1.mp hsound)

/-- With the names there the loop finds the first item with the name. -/
theorem findEnum_names (names : List String) (string : String) {i k : Nat}
    (h : i + k = names.length) : findEnum (some (names.map some)) string i k =
      some (((names.drop i).findIdx? fun name => name = string).map fun j => i + j) := by
  induction k generalizing i with
  | zero =>
    rw [List.drop_of_length_le (by omega)]
    rfl
  | succ k ih =>
    have hi : i < names.length := by omega
    rw [findEnum]
    simp only [Option.bind_some, List.getElem?_map, List.getElem?_eq_getElem hi, Option.map_some,
      Option.join_some]
    rw [List.drop_eq_getElem_cons hi, List.findIdx?_cons]
    by_cases heq : string = names[i]
    · rw [if_pos heq, if_pos (decide_eq_true heq.symm)]
      rfl
    · rw [if_neg heq, if_neg (by simpa using Ne.symm heq), ih (by omega), Option.map_map]
      congr 2
      funext j
      simp only [Function.comp_apply]
      omega

def mixerCtlGetType (c : MixerCtl) : TinyHal.MixerCtlType :=
  match c.info.type with
  | .boolean => .bool
  | .integer => .int
  | .enumerated => .enum
  | .bytes => .byte
  | .iec958 => .iec958
  | .integer64 => .int64
  | .none => .unknown

/-- A control as the configuration manager sees it, with its contents and its range. -/
def MixerCtl.seen (c : MixerCtl) (name : String) (values : List Int) (rangeMin rangeMax : Int) :
    TinyHal.MixerCtl :=
  ⟨name, mixerCtlGetType c, values, (c.ename.getD []).reduceOption, rangeMin, rangeMax⟩

theorem seen_enum_iff (c : MixerCtl) : mixerCtlGetType c = .enum ↔ c.info.type = .enumerated := by
  rw [mixerCtlGetType]
  cases c.info.type <;> simp

/-- The item that is written for a name is the one that the configuration manager's view of the
control takes, as long as the control has its names. -/
theorem setEnumByString_seen {c : MixerCtl} (h : c.Named) (string name : String)
    (values : List Int) (rangeMin rangeMax : Int) :
    ∃ r item, mixerCtlSetEnumByString c string = some (r, item) ∧
      TinyHal.mixerCtlSetEnumByString (c.seen name values rangeMin rangeMax) string =
        item.elim (c.seen name values rangeMin rangeMax) fun i =>
          { c.seen name values rangeMin rangeMax with
            values := (List.replicate values.length 0).set 0 (Int.ofNat i) } := by
  by_cases htype : c.info.type = .enumerated
  · rw [MixerCtl.Named, if_pos htype] at h
    obtain ⟨names, hnames, hlen⟩ := h
    have henum : (c.seen name values rangeMin rangeMax).type = .enum := (seen_enum_iff c).mpr htype
    have hread : (names.map some).reduceOption = names := by
      change (names.map some).filterMap id = names
      rw [List.filterMap_map, Function.id_comp, List.filterMap_some]
    have henums : (c.seen name values rangeMin rangeMax).enums = names := by
      rw [MixerCtl.seen, hnames, Option.getD_some, hread]
    have hfound := findEnum_names names string (i := 0) (k := c.info.items) (by omega)
    rw [mixerCtlSetEnumByString, if_neg (not_not.mpr htype), hnames, hfound,
      TinyHal.mixerCtlSetEnumByString, if_neg (not_not.mpr henum), henums]
    refine ⟨_, _, rfl, ?_⟩
    rw [List.drop_zero]
    cases names.findIdx? fun name => name = string with
    | none => rfl
    | some i =>
      simp only [Option.map_some, Option.elim_some, Nat.zero_add]
      rw [← henums]
      rfl
  · have hother : (c.seen name values rangeMin rangeMax).type ≠ .enum := fun he =>
      htype ((seen_enum_iff c).mp he)
    refine ⟨-einval, none, ?_, ?_⟩
    · rw [mixerCtlSetEnumByString, if_pos htype]
    · rw [TinyHal.mixerCtlSetEnumByString, if_pos hother]
      rfl

end Enums

section Descriptors

structure OpenAnswers where
  fd : Option Nat
  alloc : Bool
  cardInfo : Bool
  elems : ElemAnswers

/-- The mixer with its descriptor, and what is done with descriptors. `mixer->fd` is still zero
when the card's information fails. -/
def mixerOpen (a : OpenAnswers) : Option (Nat × Mixer) × List (Use Nat) :=
  match a.fd with
  | none => (none, [])
  | some fd =>
    if a.alloc = false then (none, [.acquire fd, .release fd])
    else if a.cardInfo = false then (none, [.acquire fd, .touch fd, .release 0])
    else
      let added := addControls newMixer a.elems
      if added.1 = 0 then (some (fd, added.2), [.acquire fd, .touch fd, .touch fd])
      else (none, [.acquire fd, .touch fd, .touch fd, .release fd])

/-- A client with at most one mixer, and the log of its descriptors. -/
structure MixerClient where
  mixer : Option (Nat × Mixer)
  log : List (Use Nat)

def newMixerClient : MixerClient := ⟨none, []⟩

inductive MixerCall
  | openMixer (a : OpenAnswers)
  | update (a : ElemAnswers)
  | closeMixer

/-- The kernel gives a descriptor that is not in use. -/
def mixerStep (s : MixerClient) : MixerCall → Option MixerClient
  | .openMixer a =>
    if s.mixer.isNone && a.fd.all fun fd => fd ∉ outstanding s.log then
      some ⟨(mixerOpen a).1, s.log ++ (mixerOpen a).2⟩
    else none
  | .update a => s.mixer.map fun m =>
    ⟨some (m.1, (addControls m.2 a).2), s.log ++ [.touch m.1]⟩
  | .closeMixer => s.mixer.map fun m => ⟨none, s.log ++ [.release m.1]⟩

/-- The card's information fails, and the descriptor is not the one that is closed instead. -/
def closesOther : MixerCall → Bool
  | .openMixer a => a.alloc && !a.cardInfo && a.fd.any fun fd => fd ≠ 0
  | _ => false

/-- Descriptors are used and closed while they are held, and those that are held are the
mixer's. -/
def MixerClient.Sound (s : MixerClient) : Prop :=
  Holding s.log (s.mixer.elim [] fun m => [m.1])

theorem holding_append {log more : List (Use Nat)} {held : List Nat} :
    Holding (log ++ more) held ↔ Disciplined log ∧ DisciplinedFrom (outstanding log) more ∧
      outstandingFrom (outstanding log) more = held := by
  constructor
  · rintro ⟨hdisc, hout⟩
    rw [disciplined_append] at hdisc
    rw [outstanding_append] at hout
    exact ⟨hdisc.1, hdisc.2, hout⟩
  · rintro ⟨hlog, hmore, hout⟩
    exact ⟨disciplined_append log more |>.mpr ⟨hlog, hmore⟩, by rw [outstanding_append, hout]⟩

theorem holding_iff {log : List (Use Nat)} {held : List Nat} :
    Holding log held ↔ Disciplined log ∧ outstanding log = held :=
  ⟨fun h => ⟨h.disciplined, h.outstanding⟩, fun h => ⟨h.1, h.2⟩⟩

/-- What opening does with descriptors is in order exactly if it does not close another one. -/
theorem mixerOpen_uses (a : OpenAnswers) (out : List Nat) :
    DisciplinedFrom out (mixerOpen a).2 ∧
      outstandingFrom out (mixerOpen a).2 = (mixerOpen a).1.elim [] (fun m => [m.1]) ↔
    out = [] ∧ closesOther (.openMixer a) = false := by
  rw [mixerOpen, closesOther]
  cases a.fd with
  | none => simp [DisciplinedFrom, outstandingFrom]
  | some fd =>
    cases a.alloc with
    | false => simp [DisciplinedFrom, outstandingFrom, Legal, after]
    | true =>
      cases a.cardInfo with
      | false =>
        by_cases hfd : fd = 0
        · simp [DisciplinedFrom, outstandingFrom, Legal, after, hfd]
        · simp [DisciplinedFrom, outstandingFrom, Legal, after, hfd]
      | true =>
        simp only [Bool.true_eq_false, if_false]
        split_ifs <;> simp [DisciplinedFrom, outstandingFrom, Legal, after]

theorem mixerStep_sound {s t : MixerClient} {c : MixerCall} (h : mixerStep s c = some t) :
    t.Sound ↔ s.Sound ∧ closesOther c = false := by
  cases c with
  | openMixer a =>
    simp only [mixerStep] at h
    split_ifs at h with hopen
    cases h
    have hnone : s.mixer = none := by
      rw [Bool.and_eq_true] at hopen
      exact Option.isNone_iff_eq_none.mp hopen.1
    rw [MixerClient.Sound, MixerClient.Sound, holding_append, holding_iff, hnone]
    simp only [mixerOpen_uses, Option.elim_none, and_assoc]
  | update a =>
    obtain ⟨m, hm, rfl⟩ := Option.map_eq_some_iff.mp h
    rw [MixerClient.Sound, MixerClient.Sound, holding_append, holding_iff, hm]
    simp only [DisciplinedFrom, outstandingFrom, List.foldl_cons, List.foldl_nil, after, Legal,
      Option.elim_some, and_true, closesOther]
    constructor
    · rintro ⟨hlog, -, hout⟩
      exact ⟨hlog, hout⟩
    · rintro ⟨hlog, hout⟩
      exact ⟨hlog, by rw [hout]; exact List.mem_singleton_self _, hout⟩
  | closeMixer =>
    obtain ⟨m, hm, rfl⟩ := Option.map_eq_some_iff.mp h
    rw [MixerClient.Sound, MixerClient.Sound, holding_append, holding_iff, hm]
    simp only [DisciplinedFrom, outstandingFrom, List.foldl_cons, List.foldl_nil, after, Legal,
      Option.elim_some, Option.elim_none, and_true, closesOther]
    constructor
    · rintro ⟨hlog, hmem, hout⟩
      obtain ⟨before, rest, -, hsplit, herase⟩ := List.exists_erase_eq hmem
      rw [hout] at herase
      obtain ⟨rfl, rfl⟩ := List.append_eq_nil_iff.mp herase.symm
      exact ⟨hlog, hsplit⟩
    · rintro ⟨hlog, hout⟩
      rw [hout]
      exact ⟨hlog, List.mem_singleton_self _, List.erase_cons_head ..⟩

/-- Over any sequence of opens, updates and closes: the client holds the descriptor of its mixer
and no other, and closes only what it holds, exactly if the information on the card never fails
to come in an open that was given another descriptor than 0. -/
theorem mixer_descriptors_iff {calls : List MixerCall} {t : MixerClient}
    (hrun : run mixerStep newMixerClient calls = some t) :
    t.Sound ↔ Along mixerStep (fun _ c _ => closesOther c = false) newMixerClient calls := by
  have hnew : newMixerClient.Sound := holding_nil
  have hiff := (along_iff (fun _ => True) (P := MixerClient.Sound)
    (fun s c t _ hstep => ⟨trivial, mixerStep_sound (s := s) (c := c) (t := t) hstep⟩)
    trivial hrun).2
  rw [hiff]
  exact ⟨fun h => h.2, fun h => ⟨hnew, h⟩⟩

/-- No information on the card behind descriptor 3: descriptor 0 is closed, 3 is lost. -/
theorem silentCard_unsound :
    ¬MixerClient.Sound ⟨none, [.acquire 3, .touch 3, .release 0]⟩ := by
  have hrun : run mixerStep newMixerClient [.openMixer ⟨some 3, true, false, switches 0 1⟩] =
      some ⟨none, [.acquire 3, .touch 3, .release 0]⟩ := rfl
  have hcloses : ¬Along mixerStep (fun _ c _ => closesOther c = false) newMixerClient
      [.openMixer ⟨some 3, true, false, switches 0 1⟩] := by decide
  exact fun hsound => hcloses ((mixer_descriptors_iff hrun).mp hsound)

end Descriptors

end TinyAlsa
