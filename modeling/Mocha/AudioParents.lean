import Mocha.AudioDocument

/-!
# The parent objects of the handlers

An element keeps the pointer to its object in the parser, where the handlers of
its children and its own end handler find it. Only the end of an element of the
same height in the grammar clears a pointer, so an open element has its pointer
still. Objects are added to the manager and never taken out, so a pointer that
is set points to an object.
-/
namespace TinyHal

section Counts

variable {α : Type}

/-- The number of parts of an element of a list, none for an element that is not there. -/
def countAt (f : α → Nat) (l : List α) (i : Nat) : Nat := (l[i]?.map f).getD 0

/-- The count at a place that exists. -/
theorem countAt_of_get {f : α → Nat} {l : List α} {i : Nat} {x : α} (h : l[i]? = some x) :
    countAt f l i = f x := by
  unfold countAt
  rw [h]
  rfl

/-- A positive count means that the place exists. -/
theorem lt_countAt {f : α → Nat} {l : List α} {i n : Nat} (h : n < countAt f l i) :
    ∃ x, l[i]? = some x ∧ n < f x := by
  unfold countAt at h
  cases hx : l[i]? with
  | none =>
    rw [hx] at h
    exact absurd h (Nat.not_lt_zero n)
  | some x =>
    rw [hx] at h
    exact ⟨x, rfl, h⟩

/-- A new entry at the end takes nothing from those before. -/
theorem countAt_append (f : α → Nat) (l : List α) (x : α) (i : Nat) :
    countAt f l i ≤ countAt f (l ++ [x]) i := by
  cases hy : l[i]? with
  | none =>
    unfold countAt
    rw [hy]
    exact Nat.zero_le _
  | some y =>
    obtain ⟨hlt, -⟩ := List.getElem?_eq_some_iff.mp hy
    rw [countAt_of_get hy, countAt_of_get ((List.getElem?_append_left hlt).trans hy)]

/-- Where an edit takes nothing away, no count falls. -/
theorem countAt_modify {f : α → Nat} {g : α → α} {l : List α} {j : Nat}
    (hg : ∀ x, l[j]? = some x → f x ≤ f (g x)) (i : Nat) :
    countAt f l i ≤ countAt f (l.modify j g) i := by
  unfold countAt
  rw [List.getElem?_modify]
  cases hx : l[i]? with
  | none => exact Nat.le_refl _
  | some x =>
    by_cases hji : j = i
    · rw [← hji] at hx
      simpa [hji] using hg x hx
    · simp [hji]

theorem countAt_modify_self {f : α → Nat} {l : List α} {j : Nat} {x : α} (hx : l[j]? = some x)
    (g : α → α) : countAt f (l.modify j g) j = f (g x) := by
  apply countAt_of_get
  rw [List.getElem?_modify, hx]
  simp

end Counts

section Pointers

def pathCount (cm : ConfigMgr) : Nat → Nat := countAt (fun d => d.paths.length) cm.devices

def usecaseCount (cm : ConfigMgr) : Nat → Nat := countAt (fun s => s.usecases.length) cm.streams

def Stream.caseCount (s : Stream) : Nat → Nat := countAt (fun u => u.cases.length) s.usecases

def caseCount (cm : ConfigMgr) (s u : Nat) : Nat := countAt (fun x => x.caseCount u) cm.streams s

/-- Every pointer to a parent object points to an object of the manager. -/
structure Located (cm : ConfigMgr) (c : Current) : Prop where
  device : ∀ d, c.device = some d → d < cm.devices.length
  stream : ∀ s, c.stream = some s → s < cm.streams.length
  path : ∀ d p, c.path = some (.device d p) → p < pathCount cm d
  usecase : ∀ s u, c.usecase = some (s, u) → u < usecaseCount cm s
  scase : ∀ s u k, c.scase = some (s, u, k) → k < caseCount cm s u

/-- Objects are added to a manager, and never taken out of it. -/
structure Grows (cm cm' : ConfigMgr) : Prop where
  devices : cm.devices.length ≤ cm'.devices.length
  streams : cm.streams.length ≤ cm'.streams.length
  paths : ∀ d, pathCount cm d ≤ pathCount cm' d
  usecases : ∀ s, usecaseCount cm s ≤ usecaseCount cm' s
  cases : ∀ s u, caseCount cm s u ≤ caseCount cm' s u

theorem grows_refl (cm : ConfigMgr) : Grows cm cm :=
  ⟨Nat.le_refl _, Nat.le_refl _, fun _ => Nat.le_refl _, fun _ => Nat.le_refl _, fun _ _ => Nat.le_refl _⟩

/-- Positions stay inside arrays that only grow. -/
theorem Located.grow {cm cm' : ConfigMgr} {c : Current} (h : Located cm c) (hg : Grows cm cm') :
    Located cm' c where
  device d hd := Nat.lt_of_lt_of_le (h.device d hd) hg.devices
  stream s hs := Nat.lt_of_lt_of_le (h.stream s hs) hg.streams
  path d p hp := Nat.lt_of_lt_of_le (h.path d p hp) (hg.paths d)
  usecase s u hu := Nat.lt_of_lt_of_le (h.usecase s u hu) (hg.usecases s)
  scase s u k hk := Nat.lt_of_lt_of_le (h.scase s u k hk) (hg.cases s u)

/-- An edit of one device that drops none of its paths. -/
theorem grows_modifyDevice {cm : ConfigMgr} {d : Nat} {f : Device → Device}
    (hf : ∀ x, cm.devices[d]? = some x → x.paths.length ≤ (f x).paths.length) :
    Grows cm (modifyDevice cm d f) where
  devices := by simp [modifyDevice]
  streams := Nat.le_refl _
  paths := countAt_modify hf
  usecases _ := Nat.le_refl _
  cases _ _ := Nat.le_refl _

/-- An edit of one stream that drops none of its use cases and cases. -/
theorem grows_modifyStream {cm : ConfigMgr} {s : Nat} {f : Stream → Stream}
    (hu : ∀ x, cm.streams[s]? = some x → x.usecases.length ≤ (f x).usecases.length)
    (hc : ∀ x, cm.streams[s]? = some x → ∀ u, x.caseCount u ≤ (f x).caseCount u) :
    Grows cm (modifyStream cm s f) where
  devices := Nat.le_refl _
  streams := by simp [modifyStream]
  paths _ := Nat.le_refl _
  usecases := countAt_modify hu
  cases i u := countAt_modify (fun x hx => hc x hx u) i

/-- A change of the stream that leaves its use cases alone. -/
theorem grows_setStream (cm : ConfigMgr) (s : Nat) {f : Stream → Stream}
    (hf : ∀ x, (f x).usecases = x.usecases) : Grows cm (modifyStream cm s f) := by
  apply grows_modifyStream
  · intro x _
    rw [hf]
  · intro x _ u
    unfold Stream.caseCount
    rw [hf]

/-- A change of one use case of a stream that takes no case away. -/
theorem grows_modifyUsecase {cm : ConfigMgr} {s u : Nat} {f : Usecase → Usecase}
    (hf : ∀ x, cm.streams[s]? = some x → ∀ y, x.usecases[u]? = some y →
      y.cases.length ≤ (f y).cases.length) :
    Grows cm (modifyStream cm s fun x => { x with usecases := x.usecases.modify u f }) := by
  apply grows_modifyStream
  · intro x _
    simp
  · intro x hx i
    exact countAt_modify (hf x hx) i

theorem grows_setCtlArray (st : ParseState) (ctls : List Ctl) :
    Grows st.cm (setCtlArray st ctls).cm := by
  unfold setCtlArray
  split
  · exact grows_refl _
  · apply grows_modifyDevice
    intro x _
    simp
  · apply grows_modifyUsecase
    intro x _ y _
    simp
  · exact grows_refl _

end Pointers

section Grammar

/-- The subelements that a parent can get: those of its table, and those that `<mixer>` gives
to the root. -/
def children : Elem → List Elem
  | .audiohal => [.mixer, .codecProbe, .device, .stream]
  | e => (elemTable e).validSubelem

/-- What can be opened under the open elements, the innermost of which comes first. -/
def below : List Elem → List Elem
  | [] => [.audiohal]
  | e :: _ => children e

/-- The depth of the grammar under an element, itself included. -/
def height : Elem → Nat
  | .ctl | .enable | .disable | .streamCtl | .codecCase => 1
  | .path | .case | .init | .codecProbe => 2
  | .device | .usecase | .mixer => 3
  | .stream => 4
  | .audiohal => 5

def Nested : List Elem → Prop
  | [] => True
  | e :: es => e ∈ below es ∧ Nested es

theorem height_pos (e : Elem) : 0 < height e := by cases e <;> decide

/-- A child in the grammar has less below it than its parent. -/
theorem height_lt {p e : Elem} (he : e ∈ children p) : height e < height p := by
  have h : ∀ e ∈ children p, height e < height p := by cases p <;> decide
  exact h e he

/-- The open elements and the grammar under the next one fill at most five levels. -/
theorem Nested.deep {es : List Elem} (h : Nested es) {e : Elem} (he : e ∈ below es) :
    es.length + height e ≤ 5 := by
  induction es generalizing e with
  | nil =>
    cases List.mem_singleton.mp he
    decide
  | cons p es ih =>
    have hp := ih h.2 h.1
    have hlt := height_lt he
    simp only [List.length_cons]
    omega

/-- No chain of the grammar is longer than its five levels. -/
theorem Nested.length_le {es : List Elem} (h : Nested es) : es.length ≤ 5 := by
  cases es with
  | nil => exact Nat.zero_le 5
  | cons e es =>
    have hdeep := h.2.deep h.1
    have hpos := height_pos e
    simp only [List.length_cons]
    omega

/-- Every element that is open around another one is higher. -/
theorem Nested.higher {es : List Elem} (h : Nested es) {e : Elem} (he : e ∈ below es) :
    ∀ p ∈ es, height e < height p := by
  induction es generalizing e with
  | nil =>
    intro p hp
    cases hp
  | cons q es ih =>
    intro p hp
    have hlt := height_lt he
    rcases List.mem_cons.mp hp with rfl | hp
    · exact hlt
    · exact Nat.lt_trans hlt (ih h.2 h.1 p hp)

/-- Whether the pointer that an element sets is set. -/
def Elem.held (c : Current) : Elem → Bool
  | .device => c.device.isSome
  | .stream => c.stream.isSome
  | .path | .init => c.path.isSome
  | .usecase => c.usecase.isSome
  | .case => c.scase.isSome
  | .codecProbe => c.codecProbe
  | .ctl | .enable | .disable | .streamCtl | .mixer | .audiohal | .codecCase => true

/-- Whether the parent pointer that the start handler of an element uses is set. -/
def startParent (c : Current) : Elem → Bool
  | .ctl => c.path.isSome || c.scase.isSome
  | .path => c.device.isSome
  | .case => c.usecase.isSome
  | .usecase | .enable | .disable | .streamCtl => c.stream.isSome
  | .codecCase => c.codecProbe
  | .device | .stream | .init | .mixer | .audiohal | .codecProbe => true

/-- Whether the pointer that the end handler of an element uses is set. -/
def endParent (c : Current) : Elem → Bool
  | .path => c.path.isSome
  | .device => c.device.isSome
  | .stream => c.stream.isSome
  | .case => c.scase.isSome
  | .usecase => c.usecase.isSome
  | .codecProbe => c.codecProbe
  | .ctl | .enable | .disable | .streamCtl | .init | .mixer | .audiohal | .codecCase => true

/-- Inside the parent that the grammar asks for, the parent test of the start handler passes. -/
theorem startParent_of_held {c : Current} {p e : Elem} (he : e ∈ children p) (hp : p.held c = true) :
    startParent c e = true := by
  cases p <;> cases e <;> first
    | rfl
    | exact hp
    | exact absurd he (by decide)
    | simp only [Elem.held] at hp
      simp [startParent, hp]

/-- The pointer that an open element has set serves the handlers of its children. -/
theorem startParent_of_below {es : List Elem} {e : Elem} (he : e ∈ below es) {c : Current}
    (hheld : ∀ p ∈ es, p.held c = true) : startParent c e = true := by
  cases es with
  | nil =>
    cases List.mem_singleton.mp he
    rfl
  | cons p es => exact startParent_of_held he (hheld p List.mem_cons_self)

/-- At its own end tag an element still holds what its end handler asks for. -/
theorem endParent_of_held {c : Current} {e : Elem} (he : e.held c = true) : endParent c e = true := by
  cases e <;> first
    | rfl
    | exact he

end Grammar

section Handlers

/-- A computation that uses no null pointer, and every result of which satisfies `Q`. -/
def Fares {α : Type} (x : Except Fault α) (Q : α → Prop) : Prop :=
  x ≠ .error .nullParent ∧ Yields x Q

variable {α β : Type} {P : α → Prop} {Q : β → Prop}

theorem fares_ok {b : β} (h : Q b) : Fares (pure b) Q := ⟨fun hf => (by cases hf), yields_pure h⟩

/-- An error code ends the parse in order; only a wild access is excluded. -/
theorem fares_errno (e : Int) : Fares (throw (.errno e) : Except Fault β) Q :=
  ⟨fun hf => (by cases hf), yields_throw _⟩

/-- A sequence is in order when each part is, on what the parts before it returned. -/
theorem fares_bind {x : Except Fault α} {f : α → Except Fault β} (hx : Fares x P)
    (hf : ∀ a, P a → Fares (f a) Q) : Fares (x >>= f) Q := by
  cases x with
  | error e =>
    refine ⟨fun hnull => hx.1 ?_, fun b hb => by cases hb⟩
    cases hnull
    rfl
  | ok a => exact hf a (hx.2 a rfl)

/-- A pointer that is set may be followed. -/
theorem fares_deref {o : Option α} {a : α} (h : o = some a) : Fares (deref o) fun b => a = b := by
  rw [h]
  exact fares_ok rfl

theorem fares_extend (array : List α) (x : α) :
    Fares (dynArrayExtend array x) fun r => r = array ++ [x] := by
  unfold dynArrayExtend
  split
  · exact fares_ok rfl
  · exact fares_errno _

theorem fares_newCodecCase (probe : CodecProbe) (cc : CodecCase) :
    Fares (newCodecCase probe cc) fun _ => True := by
  unfold newCodecCase
  split
  · split
    · exact fares_errno _
    · exact fares_ok trivial
  · exact fares_ok trivial

/-- A number that cannot be read keeps the default or is an error, never a fault. -/
theorem fares_attrib (st : ParseState) (a : Attrib) (init : α) (conv : Nat → α) :
    Fares (attribToUint st a init conv) fun _ => True := by
  unfold attribToUint
  split
  · exact fares_ok trivial
  · split
    · exact fares_errno _
    · exact fares_ok trivial

theorem fares_limit (st : ParseState) (a : Attrib) (range : Int) :
    Fares (controlLimit st a range) fun _ => True := by
  unfold controlLimit
  split
  · exact fares_ok trivial
  · split
    · exact fares_errno _
    · split
      · exact fares_errno _
      · exact fares_ok trivial

theorem fares_dir (st : ParseState) (global : Bool) : Fares (streamDir st global) fun _ => True := by
  unfold streamDir
  split
  · split
    · exact fares_ok trivial
    · exact fares_errno _
  · split
    · exact fares_ok trivial
    · split
      · exact fares_ok trivial
      · exact fares_errno _

theorem fares_type (st : ParseState) (global out : Bool) :
    Fares (streamType st global out) fun _ => True := by
  unfold streamType
  dsimp only
  split
  · exact fares_ok trivial
  · split
    · split
      · exact fares_errno _
      · exact fares_ok trivial
    · split
      · exact fares_ok trivial
      · split
        · exact fares_ok trivial
        · exact fares_errno _

theorem fares_addPathName (st : ParseState) (name : String) :
    Fares (addPathName st name) fun r => r.2 = { st with pathNames := r.2.pathNames } := by
  unfold addPathName
  split
  · exact fares_ok rfl
  · apply fares_bind (fares_extend _ _)
    intro names _
    exact fares_ok rfl

/-- The stack after the start handler of an element. -/
def startEntry (st : ParseState) : Elem → Int → StackEntry
  | .mixer => Function.update st.entry (st.index - 1)
      { st.entry (st.index - 1) with validSubelem := [.device, .stream] }
  | _ => st.entry

/-- What a start handler does to the parser: it sets the pointer of its element, and clears none. -/
structure Opens (e : Elem) (st st' : ParseState) : Prop where
  index : st'.index = st.index
  entry : st'.entry = startEntry st e
  keeps : ∀ p : Elem, p.held st.current = true → p.held st'.current = true
  own : e.held st'.current = true
  located : Located st'.cm st'.current

/-- A start handler that leaves the pointers alone. -/
theorem Located.opens {e : Elem} {st st' : ParseState} (hl : Located st.cm st.current)
    (hindex : st'.index = st.index) (hentry : st'.entry = startEntry st e)
    (hcurrent : st'.current = st.current) (hgrow : Grows st.cm st'.cm)
    (hown : e.held st.current = true) : Opens e st st' where
  index := hindex
  entry := hentry
  keeps p hp := by rw [hcurrent]; exact hp
  own := by rw [hcurrent]; exact hown
  located := by rw [hcurrent]; exact hl.grow hgrow

variable {st : ParseState}

/-- Inside an open path or codec case there is an array for the controls. -/
theorem ctlArray_fares (hl : Located st.cm st.current) (hp : startParent st.current .ctl = true) :
    Fares (ctlArray st) fun _ => True := by
  unfold ctlArray
  cases hpath : st.current.path with
  | some r =>
    cases r with
    | init => exact fares_ok trivial
    | device d p =>
      obtain ⟨device, hd, hlt⟩ := lt_countAt (hl.path d p hpath)
      have hget : device.paths[p]? = some device.paths[p] := List.getElem?_eq_getElem hlt
      apply fares_bind (fares_deref hd)
      rintro _ rfl
      apply fares_bind (fares_deref hget)
      intro _ _
      exact fares_ok trivial
  | none =>
    have hsome : st.current.scase.isSome = true := by
      unfold startParent at hp
      rw [hpath] at hp
      exact hp
    obtain ⟨⟨s, u, k⟩, hcase⟩ := Option.isSome_iff_exists.mp hsome
    obtain ⟨stream, hs, hku⟩ := lt_countAt (hl.scase s u k hcase)
    obtain ⟨usecase, hu, hlt⟩ := lt_countAt hku
    have hget : usecase.cases[k]? = some usecase.cases[k] := List.getElem?_eq_getElem hlt
    apply fares_bind (fares_deref hcase)
    rintro _ rfl
    apply fares_bind (fares_deref hs)
    rintro _ rfl
    apply fares_bind (fares_deref hu)
    rintro _ rfl
    apply fares_bind (fares_deref hget)
    intro _ _
    exact fares_ok trivial

theorem setCtlArray_stack (st : ParseState) (ctls : List Ctl) :
    (setCtlArray st ctls).index = st.index ∧ (setCtlArray st ctls).entry = st.entry ∧
      (setCtlArray st ctls).current = st.current := by
  unfold setCtlArray
  split <;> exact ⟨rfl, rfl, rfl⟩

/-- `<ctl>` stands inside a path or a codec case, so its array is there. -/
theorem parseCtlStart_opens (hl : Located st.cm st.current)
    (hp : startParent st.current .ctl = true) : Fares (parseCtlStart st) (Opens .ctl st) := by
  apply fares_bind (ctlArray_fares hl hp)
  intro array _
  apply fares_bind (fares_extend _ _)
  intro _ _
  apply fares_bind (fares_attrib _ _ _ _)
  intro index _
  dsimp only
  split
  · exact fares_errno _
  · apply fares_ok
    obtain ⟨hindex, hentry, hcurrent⟩ := setCtlArray_stack st
      (array ++ [(ctlOpen st.cm.mixer { newCtl ((st.attribs .name).getD "") with
        index := index, value := .string ((st.attribs .val).getD "") }).2])
    exact hl.opens hindex hentry hcurrent (grows_setCtlArray _ _) rfl

/-- `<case>` of a codec stands inside its `<codec_probe>`. -/
theorem parseCodecCaseStart_opens (hl : Located st.cm st.current)
    (hp : startParent st.current .codecCase = true) :
    Fares (parseCodecCaseStart st) (Opens .codecCase st) := by
  unfold parseCodecCaseStart
  rw [show st.current.codecProbe = true from hp]
  apply fares_bind (fares_newCodecCase _ _)
  intro probe _
  exact fares_ok (hl.opens rfl rfl rfl (grows_refl _) rfl)

theorem parseInitStart_opens (hl : Located st.cm st.current) :
    Fares (parseInitStart st) (Opens .init st) := by
  apply fares_ok
  constructor
  · rfl
  · rfl
  · intro p hp
    cases p <;> first
      | rfl
      | exact hp
  · rfl
  · exact ⟨hl.device, hl.stream, fun d p h => (by cases h), hl.usecase, hl.scase⟩

theorem parseCodecProbeStart_opens (hl : Located st.cm st.current) :
    Fares (parseCodecProbeStart st) (Opens .codecProbe st) := by
  unfold parseCodecProbeStart
  split
  · exact fares_errno _
  · apply fares_ok
    constructor
    · rfl
    · rfl
    · intro p hp
      cases p <;> first
        | rfl
        | exact hp
    · rfl
    · exact ⟨hl.device, hl.stream, hl.path, hl.usecase, hl.scase⟩

/-- `<path>` stands inside its `<device>`. -/
theorem parsePathStart_opens (hl : Located st.cm st.current)
    (hp : startParent st.current .path = true) : Fares (parsePathStart st) (Opens .path st) := by
  obtain ⟨d, hd⟩ := Option.isSome_iff_exists.mp hp
  obtain ⟨device, hget⟩ : ∃ device, st.cm.devices[d]? = some device :=
    ⟨_, List.getElem?_eq_getElem (hl.device d hd)⟩
  apply fares_bind (fares_deref hd)
  rintro _ rfl
  apply fares_bind (fares_addPathName _ _)
  rintro ⟨id, st₁⟩ heq
  dsimp only at heq
  generalize st₁.pathNames = names at heq
  subst heq
  apply fares_bind (fares_deref hget)
  rintro _ rfl
  apply fares_bind (fares_extend _ _)
  rintro paths rfl
  apply fares_ok
  have hg : Grows st.cm (modifyDevice st.cm d fun x => { x with paths := device.paths ++ [⟨id, []⟩] }) := by
    apply grows_modifyDevice
    intro x hx
    cases hget.symm.trans hx
    simp
  constructor
  · rfl
  · rfl
  · intro p hp
    cases p <;> first
      | rfl
      | exact hp
  · rfl
  · refine { hl.grow hg with path := ?_ }
    rintro _ _ ⟨⟩
    unfold pathCount
    rw [modifyDevice, countAt_modify_self hget]
    simp

/-- `<usecase>` stands inside its `<stream>`. -/
theorem parseUsecaseStart_opens (hl : Located st.cm st.current)
    (hp : startParent st.current .usecase = true) :
    Fares (parseUsecaseStart st) (Opens .usecase st) := by
  obtain ⟨s, hs⟩ := Option.isSome_iff_exists.mp hp
  obtain ⟨stream, hget⟩ : ∃ stream, st.cm.streams[s]? = some stream :=
    ⟨_, List.getElem?_eq_getElem (hl.stream s hs)⟩
  apply fares_bind (fares_deref hs)
  rintro _ rfl
  apply fares_bind (fares_deref hget)
  rintro _ rfl
  apply fares_bind (fares_extend _ _)
  rintro usecases rfl
  apply fares_ok
  have hg : Grows st.cm (modifyStream st.cm s fun x =>
      { x with usecases := stream.usecases ++ [⟨(st.attribs .name).getD "", []⟩] }) := by
    apply grows_modifyStream
    · intro x hx
      cases hget.symm.trans hx
      simp
    · intro x hx u
      cases hget.symm.trans hx
      exact countAt_append _ _ _ u
  constructor
  · rfl
  · rfl
  · intro p hp
    cases p <;> first
      | rfl
      | exact hp
  · rfl
  · refine { hl.grow hg with usecase := ?_ }
    rintro _ _ ⟨⟩
    unfold usecaseCount
    rw [modifyStream, countAt_modify_self hget]
    simp

/-- `<case>` stands inside its `<usecase>`. -/
theorem parseCaseStart_opens (hl : Located st.cm st.current)
    (hp : startParent st.current .case = true) : Fares (parseCaseStart st) (Opens .case st) := by
  obtain ⟨⟨s, u⟩, hu⟩ := Option.isSome_iff_exists.mp hp
  obtain ⟨stream, hs, hlt⟩ := lt_countAt (hl.usecase s u hu)
  obtain ⟨usecase, hget⟩ : ∃ usecase, stream.usecases[u]? = some usecase :=
    ⟨_, List.getElem?_eq_getElem hlt⟩
  apply fares_bind (fares_deref hu)
  rintro _ rfl
  apply fares_bind (fares_deref hs)
  rintro _ rfl
  apply fares_bind (fares_deref hget)
  rintro _ rfl
  apply fares_bind (fares_extend _ _)
  rintro cases rfl
  apply fares_ok
  have hg : Grows st.cm (modifyStream st.cm s fun x => { x with
      usecases := x.usecases.modify u fun y =>
        { y with cases := usecase.cases ++ [⟨(st.attribs .name).getD "", []⟩] } }) := by
    apply grows_modifyUsecase
    intro x hx y hy
    cases hs.symm.trans hx
    cases hget.symm.trans hy
    simp
  constructor
  · rfl
  · rfl
  · intro p hp
    cases p <;> first
      | rfl
      | exact hp
  · rfl
  · refine { hl.grow hg with scase := ?_ }
    rintro _ _ _ ⟨⟩
    unfold caseCount
    rw [modifyStream, countAt_modify_self hs, Stream.caseCount, countAt_modify_self hget]
    simp

theorem parseEnableDisableStart_opens (hl : Located st.cm st.current) {e : Elem}
    (he : startEntry st e = st.entry) (hown : e.held st.current = true)
    (hp : st.current.stream.isSome = true) (isEnable : Bool) :
    Fares (parseEnableDisableStart isEnable st) (Opens e st) := by
  obtain ⟨s, hs⟩ := Option.isSome_iff_exists.mp hp
  unfold parseEnableDisableStart
  split
  · exact fares_errno _
  · apply fares_bind (fares_deref hs)
    rintro _ rfl
    apply fares_ok
    refine hl.opens rfl he.symm rfl ?_ hown
    apply grows_setStream
    intro x
    split <;> rfl

theorem parseStreamCtlStart_opens (hl : Located st.cm st.current)
    (hp : startParent st.current .streamCtl = true) :
    Fares (parseStreamCtlStart st) (Opens .streamCtl st) := by
  obtain ⟨s, hs⟩ := Option.isSome_iff_exists.mp hp
  unfold parseStreamCtlStart
  split
  case h_1 => exact fares_errno _
  case h_2 i hi =>
    obtain ⟨hlt, -⟩ := List.findIdx?_eq_some_iff_getElem.mp hi
    have hget : st.cm.mixer[i]? = some st.cm.mixer[i] := List.getElem?_eq_getElem hlt
    apply fares_bind (fares_deref hget)
    rintro ctl -
    apply fares_bind (fares_attrib _ _ _ _)
    intro idxVal _
    apply fares_bind (fares_deref hs)
    rintro _ rfl
    dsimp only
    split
    · exact fares_errno _
    · apply fares_bind (fares_limit _ _ _)
      intro min _
      apply fares_bind (fares_limit _ _ _)
      intro max _
      apply fares_ok
      refine hl.opens rfl rfl rfl ?_ rfl
      apply grows_setStream
      intro x
      split <;> rfl

/-- `<stream>` needs nothing around it: it opens the entry it works on. -/
theorem parseStreamStart_opens (hl : Located st.cm st.current) :
    Fares (parseStreamStart st) (Opens .stream st) := by
  unfold parseStreamStart
  dsimp only
  split
  · exact fares_errno _
  · apply fares_bind (fares_extend _ _)
    intro _ _
    apply fares_bind (fares_dir _ _)
    intro out _
    apply fares_bind (fares_type _ _ _)
    rintro ⟨type, numbered⟩ _
    iterate 6
      apply fares_bind (fares_attrib _ _ _ _)
      intro _ _
    apply fares_ok
    constructor
    · rfl
    · rfl
    · intro p hp
      cases p <;> first
        | rfl
        | exact hp
    · rfl
    · have hg : ∀ s : Stream, Grows st.cm { st.cm with streams := st.cm.streams ++ [s] } := by
        intro s
        refine ⟨Nat.le_refl _, ?_, fun _ => Nat.le_refl _, countAt_append _ _ _, ?_⟩
        · simp
        · exact fun i u => countAt_append _ _ _ i
      refine { hl.grow (hg _) with stream := ?_ }
      rintro _ ⟨⟩
      simp

theorem supportDevice_fares (cm : ConfigMgr) (t : BitVec 32) :
    Fares (supportDevice cm t) fun cm' => cm'.devices = cm.devices ∧ cm'.streams = cm.streams := by
  unfold supportDevice
  split
  · exact fares_ok ⟨rfl, rfl⟩
  · split <;> split
    · exact fares_errno _
    · exact fares_ok ⟨rfl, rfl⟩
    · exact fares_errno _
    · exact fares_ok ⟨rfl, rfl⟩

theorem parseDeviceStart_opens (hl : Located st.cm st.current) :
    Fares (parseDeviceStart st) (Opens .device st) := by
  unfold parseDeviceStart
  split
  · exact fares_errno _
  · apply fares_bind (supportDevice_fares _ _)
    rintro cm ⟨hdev, hstr⟩
    apply fares_bind (fares_extend _ _)
    rintro devices rfl
    apply fares_ok
    have hg : ∀ x : Device, Grows st.cm { cm with devices := cm.devices ++ [x] } := by
      intro x
      have hcount : usecaseCount cm = usecaseCount st.cm ∧ caseCount cm = caseCount st.cm := by
        unfold usecaseCount caseCount
        rw [hstr]
        exact ⟨rfl, rfl⟩
      constructor
      · simp [hdev]
      · simp [hstr]
      · intro d
        unfold pathCount
        rw [hdev]
        exact countAt_append _ _ _ d
      · intro s
        exact Nat.le_of_eq (congrFun hcount.1.symm s)
      · intro s u
        exact Nat.le_of_eq (congrFun (congrFun hcount.2.symm s) u)
    constructor
    · rfl
    · rfl
    · intro p hp
      cases p <;> first
        | rfl
        | exact hp
    · rfl
    · refine { hl.grow (hg _) with device := ?_ }
      rintro _ ⟨⟩
      simp [hdev]

theorem parseMixerStart_opens (env : Env) (hl : Located st.cm st.current) :
    Fares (parseMixerStart env st) (Opens .mixer st) := by
  apply fares_bind (fares_attrib _ _ _ _)
  intro card _
  dsimp only
  split
  · exact fares_errno _
  · exact fares_ok (hl.opens rfl rfl rfl ⟨Nat.le_refl _, Nat.le_refl _, fun _ => Nat.le_refl _,
      fun _ => Nat.le_refl _, fun _ _ => Nat.le_refl _⟩ rfl)

/-- All start handlers: under the right parent no pointer that is followed is null. -/
theorem startFn_opens (env : Env) {e : Elem} (hl : Located st.cm st.current)
    (hp : startParent st.current e = true) : Fares (startFn env e st) (Opens e st) := by
  cases e with
  | ctl => exact parseCtlStart_opens hl hp
  | path => exact parsePathStart_opens hl hp
  | device => exact parseDeviceStart_opens hl
  | stream => exact parseStreamStart_opens hl
  | enable => exact parseEnableDisableStart_opens hl rfl rfl hp true
  | disable => exact parseEnableDisableStart_opens hl rfl rfl hp false
  | case => exact parseCaseStart_opens hl hp
  | usecase => exact parseUsecaseStart_opens hl hp
  | streamCtl => exact parseStreamCtlStart_opens hl hp
  | init => exact parseInitStart_opens hl
  | mixer => exact parseMixerStart_opens env hl
  | audiohal => exact fares_ok (hl.opens rfl rfl rfl (grows_refl _) rfl)
  | codecProbe => exact parseCodecProbeStart_opens hl
  | codecCase => exact parseCodecCaseStart_opens hl hp

/-- What an end handler does to the parser: it clears no pointer that a higher element has set. -/
structure Closes (e : Elem) (st st' : ParseState) : Prop where
  index : st'.index = st.index
  entry : st'.entry = st.entry
  keeps : ∀ p : Elem, height e < height p → p.held st.current = true → p.held st'.current = true
  located : Located st'.cm st'.current

/-- A handler without work at the end of its element. -/
theorem Located.closes (e : Elem) (hl : Located st.cm st.current) : Closes e st st :=
  ⟨rfl, rfl, fun _ _ hp => hp, hl⟩

theorem parsePathEnd_closes (hl : Located st.cm st.current)
    (hp : endParent st.current .path = true) : Fares (parsePathEnd st) (Closes .path st) := by
  obtain ⟨r, hr⟩ := Option.isSome_iff_exists.mp hp
  apply fares_bind (fares_deref hr)
  intro _ _
  apply fares_ok
  constructor
  · rfl
  · rfl
  · intro p hlt hp
    cases p <;> first
      | exact absurd hlt (by decide)
      | exact hp
  · exact ⟨hl.device, hl.stream, fun d p h => (by cases h), hl.usecase, hl.scase⟩

theorem parseCaseEnd_closes (hl : Located st.cm st.current)
    (hp : endParent st.current .case = true) : Fares (parseCaseEnd st) (Closes .case st) := by
  obtain ⟨k, hk⟩ := Option.isSome_iff_exists.mp hp
  apply fares_bind (fares_deref hk)
  intro _ _
  apply fares_ok
  constructor
  · rfl
  · rfl
  · intro p hlt hp
    cases p <;> first
      | exact absurd hlt (by decide)
      | exact hp
  · exact ⟨hl.device, hl.stream, hl.path, hl.usecase, fun s u k h => (by cases h)⟩

/-- Probing does not move the position in the document. -/
theorem probeConfigFile_current (env : Env) (st : ParseState) :
    (probeConfigFile env st).current = st.current := by
  unfold probeConfigFile
  split
  · rfl
  · dsimp only
    split
    · rfl
    · split <;> rfl

theorem parseCodecProbeEnd_closes (env : Env) (hl : Located st.cm st.current)
    (hp : endParent st.current .codecProbe = true) :
    Fares (parseCodecProbeEnd env st) (Closes .codecProbe st) := by
  unfold parseCodecProbeEnd
  rw [show st.current.codecProbe = true from hp]
  apply fares_ok
  have hcurrent := probeConfigFile_current env
    { st with
      initProbe := compressProbe st.initProbe
      current := { st.current with codecProbe := false } }
  obtain ⟨-, -, hindex, hentry⟩ := probeConfigFile_keeps env
    { st with
      initProbe := compressProbe st.initProbe
      current := { st.current with codecProbe := false } }
  refine ⟨hindex, hentry, ?_, ?_⟩
  · intro p hlt hp
    rw [hcurrent]
    cases p <;> first
      | exact absurd hlt (by decide)
      | exact hp
  · rw [hcurrent, probeConfigFile_cm]
    exact ⟨hl.device, hl.stream, hl.path, hl.usecase, hl.scase⟩

/-- An end handler that only gives memory back. -/
theorem compress_closes {o : Option α} (e : Elem) (hl : Located st.cm st.current)
    (ho : o.isSome = true) : Fares (deref o >>= fun _ => pure st) (Closes e st) := by
  obtain ⟨x, hx⟩ := Option.isSome_iff_exists.mp ho
  exact fares_bind (fares_deref hx) fun _ _ => fares_ok (hl.closes e)

/-- All end handlers leave the position at the enclosing element. -/
theorem endFn_closes (env : Env) {e : Elem} (hl : Located st.cm st.current)
    (hp : endParent st.current e = true) : Fares (endFn env e st) (Closes e st) := by
  cases e with
  | path => exact parsePathEnd_closes hl hp
  | device => exact compress_closes _ hl hp
  | stream => exact compress_closes _ hl hp
  | case => exact parseCaseEnd_closes hl hp
  | usecase => exact compress_closes _ hl hp
  | codecProbe => exact parseCodecProbeEnd_closes env hl hp
  | ctl | enable | disable | streamCtl | init | mixer | audiohal | codecCase =>
    exact fares_ok (hl.closes _)

end Handlers

end TinyHal
