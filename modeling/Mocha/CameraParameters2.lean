import Mathlib.Logic.Function.Basic
import Mocha.CameraParameters

/-!
# Camera parameters in the order they were set

`CameraParameters2.cpp`. The same text over a list that keeps the order of the calls.
Adding does not look for the key; replacing removes the first entry with the key and adds
one at the end. So a text that names a key twice leaves two entries, and every later
`set` of this key shows one `set` late.
-/
namespace CameraParameters2

open CString CameraParameters

def badValue : Int := -22
def nameNotFound : Int := -2

section Operations

def indexOfKey : Assoc Str Str → Str → Option Nat
  | [], _ => none
  | e :: m, key => if e.1 = key then some 0 else (indexOfKey m key).map fun i => i + 1

/-- A missing key gives an index past the end, where `removeAt` does nothing. -/
def removeItem (m : Assoc Str Str) (key : Str) : Assoc Str Str :=
  match indexOfKey m key with
  | none => m
  | some vectorIdx => m.eraseIdx vectorIdx

def replaceValueFor (m : Assoc Str Str) (key value : Str) : Assoc Str Str :=
  removeItem m key ++ [(key, value)]

def flatten (m : Assoc Str Str) : Str := flattenLoop [] m

def unflatten (params : Str) : Assoc Str Str :=
  unflattenLoop (fun k v m => m ++ [(k, v)]) (params.length + 1) params []

def set (m : Assoc Str Str) (key value : Str) : Assoc Str Str :=
  if invalid key then m else if invalid value then m else replaceValueFor m key value

def setInt (m : Assoc Str Str) (key : Str) (value : Int) : Assoc Str Str :=
  set m key (printDecimal value)

def get (m : Assoc Str Str) (key : Str) : Option Str :=
  (indexOfKey m key).bind fun idx => m[idx]?.map fun e => e.2

def getInt (m : Assoc Str Str) (key : Str) : Int :=
  match get m key with
  | none => -1
  | some v => (strtol 0 v).1

/-- The status, and what `order` points to afterwards. The pointers may be null. -/
def compareSetOrder (m : Assoc Str Str) :
    Option Str → Option Str → Option Int → Int × Option Int
  | none, _, order => (badValue, order)
  | some _, none, order => (badValue, order)
  | some _, some _, none => (badValue, none)
  | some key1, some key2, some order =>
    match indexOfKey m key1, indexOfKey m key2 with
    | none, _ => (nameNotFound, some order)
    | some _, none => (nameNotFound, some order)
    | some index1, some index2 =>
      (0, some (if index1 = index2 then 0 else if index1 < index2 then -1 else 1))

def remove (m : Assoc Str Str) (key : Str) : Assoc Str Str := removeItem m key

inductive Call
  | set (key value : Str)
  | setInt (key : Str) (value : Int)
  | remove (key : Str)
  | unflatten (params : Str)
  deriving DecidableEq

def call (m : Assoc Str Str) : Call → Assoc Str Str
  | .set key value => set m key value
  | .setInt key value => setInt m key value
  | .remove key => remove m key
  | .unflatten params => unflatten params

end Operations

section Text

theorem removeItem_cons (e : Str × Str) (m : Assoc Str Str) (key : Str) :
    removeItem (e :: m) key = if e.1 = key then m else e :: removeItem m key := by
  by_cases h : e.1 = key
  · simp [removeItem, indexOfKey, h]
  · simp only [removeItem, indexOfKey, if_neg h]
    cases indexOfKey m key with
    | none => rfl
    | some i => rfl

/-- Removing adds nothing. -/
theorem mem_removeItem {m : Assoc Str Str} {key : Str} {e : Str × Str}
    (h : e ∈ removeItem m key) : e ∈ m := by
  induction m with
  | nil => exact h
  | cons d m ih =>
    rw [removeItem_cons] at h
    split_ifs at h
    · exact List.mem_cons_of_mem d h
    · rcases List.mem_cons.mp h with rfl | hmem
      · exact List.mem_cons_self
      · exact List.mem_cons_of_mem d (ih hmem)

/-- What is set without separators keeps the list legal. -/
theorem legal_set {m : Assoc Str Str} (hm : Legal m) (key value : Str) :
    Legal (set m key value) := by
  rw [set]
  split_ifs with hk hv
  · exact hm
  · exact hm
  · have hkey := (invalid_eq_false.mp (by simpa using hk)).1
    have hvalue := (invalid_eq_false.mp (by simpa using hv)).2
    intro e he
    rcases List.mem_append.mp he with hmem | hlast
    · exact hm e (mem_removeItem hmem)
    · rw [List.mem_singleton.mp hlast]
      exact ⟨hkey, hvalue⟩

theorem unflatten_eq (params : Str) : unflatten params = fields params := rfl

theorem legal_call {m : Assoc Str Str} (hm : Legal m) (c : Call) : Legal (call m c) := by
  cases c with
  | set key value => exact legal_set hm key value
  | setInt key value => exact legal_set hm key _
  | remove key => exact fun e he => hm e (mem_removeItem he)
  | unflatten params => exact (fields_spec params).legal

theorem legal_run (calls : List Call) {m : Assoc Str Str} (hm : Legal m) :
    Legal (calls.foldl call m) := by
  induction calls generalizing m with
  | nil => exact hm
  | cons c calls ih => exact ih (legal_call hm c)

/-- The text carries the parameters of either class over, whatever calls made them, and what
`CameraParameters` writes is the same list for `CameraParameters2`. -/
theorem parameters_roundtrip :
    (∀ calls : List CameraParameters.Call,
      CameraParameters.unflatten (CameraParameters.flatten (calls.foldl CameraParameters.call [])) =
        calls.foldl CameraParameters.call []) ∧
    (∀ calls : List Call, unflatten (flatten (calls.foldl call [])) = calls.foldl call []) ∧
    ∀ calls : List CameraParameters.Call,
      unflatten (CameraParameters.flatten (calls.foldl CameraParameters.call [])) =
        calls.foldl CameraParameters.call [] := by
  refine ⟨fun calls => ?_, fun calls => ?_, fun calls => ?_⟩
  · exact (sound_run calls sound_nil).unflatten_flatten
  · have hlegal : Legal (calls.foldl call []) := legal_run calls sound_nil.2
    exact (fields_flatten hlegal).eq
  · exact (fields_flatten (sound_run calls sound_nil).2).eq

end Text

section Queues

/-- The values under a key, in the order of the list. -/
def valuesOf (key : Str) (m : Assoc Str Str) : List Str :=
  (m.filter fun e => e.1 = key).map fun e => e.2

/-- What a call makes of the values under one key: `set` takes the first one away and adds
one at the end. -/
def queued (key : Str) (q : List Str) : Call → List Str
  | .set k v => if k = key ∧ invalid k = false ∧ invalid v = false then q.tail ++ [v] else q
  | .setInt k value => if k = key ∧ invalid k = false then q.tail ++ [printDecimal value] else q
  | .remove k => if k = key then q.tail else q
  | .unflatten params => valuesOf key (fields params)

theorem valuesOf_cons (key : Str) (e : Str × Str) (m : Assoc Str Str) :
    valuesOf key (e :: m) = if e.1 = key then e.2 :: valuesOf key m else valuesOf key m := by
  by_cases h : e.1 = key <;> simp [valuesOf, h]

theorem valuesOf_append (key : Str) (m n : Assoc Str Str) :
    valuesOf key (m ++ n) = valuesOf key m ++ valuesOf key n := by
  simp [valuesOf]

/-- Only the oldest value of the key goes. -/
theorem valuesOf_removeItem (key : Str) (m : Assoc Str Str) (k : Str) :
    valuesOf key (removeItem m k) =
      if k = key then (valuesOf key m).tail else valuesOf key m := by
  induction m with
  | nil => simp [removeItem, indexOfKey, valuesOf]
  | cons e m ih =>
    rw [removeItem_cons, valuesOf_cons]
    by_cases hek : e.1 = k
    · rw [if_pos hek]
      by_cases hk : k = key
      · rw [if_pos hk, if_pos (hek.trans hk), List.tail_cons]
      · rw [if_neg hk, if_neg (fun h => hk (hek.symm.trans h))]
    · rw [if_neg hek, valuesOf_cons, ih]
      by_cases hk : k = key
      · have hne : e.1 ≠ key := fun h => hek (h.trans hk.symm)
        rw [if_pos hk, if_pos hk, if_neg hne, if_neg hne]
      · rw [if_neg hk, if_neg hk]

/-- `get` finds the first value. -/
theorem get_eq_head (m : Assoc Str Str) (key : Str) : get m key = (valuesOf key m).head? := by
  induction m with
  | nil => rfl
  | cons e m ih =>
    rw [valuesOf_cons]
    by_cases h : e.1 = key
    · simp [get, indexOfKey, h]
    · rw [if_neg h, ← ih]
      simp only [get, indexOfKey, if_neg h]
      cases indexOfKey m key with
      | none => rfl
      | some i => rfl

/-- A value set goes behind those that stay, and one of them is dropped. -/
theorem valuesOf_set (key : Str) (m : Assoc Str Str) (k v : Str) :
    valuesOf key (set m k v) =
      if k = key ∧ invalid k = false ∧ invalid v = false then (valuesOf key m).tail ++ [v]
      else valuesOf key m := by
  rw [set]
  cases hk : invalid k with
  | true => simp
  | false =>
    cases hv : invalid v with
    | true => simp
    | false =>
      simp only [Bool.false_eq_true, if_false, and_true]
      rw [replaceValueFor, valuesOf_append, valuesOf_removeItem]
      by_cases hkey : k = key
      · rw [if_pos hkey, if_pos hkey, valuesOf_cons, if_pos hkey]
        rfl
      · rw [if_neg hkey, if_neg hkey, valuesOf_cons, if_neg hkey]
        simp [valuesOf]

/-- The step lemma: the values of a key are a queue. -/
theorem valuesOf_call (key : Str) (m : Assoc Str Str) (c : Call) :
    valuesOf key (call m c) = queued key (valuesOf key m) c := by
  cases c with
  | set k v => exact valuesOf_set key m k v
  | setInt k value =>
    have hprint : invalid (printDecimal value) = false :=
      invalid_eq_false.mpr (printDecimal_clean value)
    have hset := valuesOf_set key m k (printDecimal value)
    simp only [hprint, and_true] at hset
    exact hset
  | remove k => exact valuesOf_removeItem key m k
  | unflatten params => rfl

theorem valuesOf_run (key : Str) (m : Assoc Str Str) (calls : List Call) :
    valuesOf key (calls.foldl call m) = calls.foldl (queued key) (valuesOf key m) := by
  induction calls generalizing m with
  | nil => rfl
  | cons c calls ih => rw [List.foldl_cons, List.foldl_cons, ih, valuesOf_call]

/-- The value a call writes under a key. -/
def Call.writes (key : Str) : Call → Option Str
  | .set k v => if k = key ∧ invalid k = false ∧ invalid v = false then some v else none
  | .setInt k value => if k = key ∧ invalid k = false then some (printDecimal value) else none
  | .remove _ => none
  | .unflatten _ => none

/-- A call that takes no value of the key away but to replace it. -/
def Call.keeps (key : Str) : Call → Bool
  | .set _ _ => true
  | .setInt _ _ => true
  | .remove k => k ≠ key
  | .unflatten _ => false

/-- Such a call can only put a value in the place of the oldest one. -/
theorem queued_keeps {key : Str} {c : Call} (h : c.keeps key = true) (q : List Str) :
    queued key q c = (c.writes key).elim q fun v => q.tail ++ [v] := by
  cases c with
  | set k v =>
    simp only [queued, Call.writes]
    split_ifs <;> rfl
  | setInt k value =>
    simp only [queued, Call.writes]
    split_ifs <;> rfl
  | remove k =>
    have hne : k ≠ key := by simpa [Call.keeps] using h
    simp [queued, Call.writes, hne]
  | unflatten params => cases h

/-- The queue never gets shorter, and never longer than one or what it was. -/
theorem queue_run {key : Str} {calls : List Call} (h : ∀ c ∈ calls, c.keeps key = true)
    (q : List Str) :
    calls.foldl (queued key) q =
      (q ++ calls.filterMap (Call.writes key)).drop
        ((q ++ calls.filterMap (Call.writes key)).length - max 1 q.length) := by
  induction calls generalizing q with
  | nil => simp
  | cons c calls ih =>
    have hc := h c List.mem_cons_self
    have hrest := ih fun d hd => h d (List.mem_cons_of_mem c hd)
    rw [List.foldl_cons, queued_keeps hc]
    cases hw : c.writes key with
    | none =>
      rw [List.filterMap_cons_none hw]
      exact hrest q
    | some v =>
      rw [List.filterMap_cons_some hw, Option.elim_some, hrest]
      cases q with
      | nil => simp
      | cons w q =>
        have hsame : (w :: q).tail ++ [v] ++ calls.filterMap (Call.writes key) =
            q ++ v :: calls.filterMap (Call.writes key) := by simp
        have hsize : max 1 ((w :: q).tail ++ [v]).length = max 1 (w :: q).length := by simp
        have hcount : (w :: (q ++ v :: calls.filterMap (Call.writes key))).length -
            max 1 (w :: q).length =
              (q ++ v :: calls.filterMap (Call.writes key)).length - max 1 (w :: q).length + 1 := by
          simp only [List.length_cons, List.length_append]
          omega
        rw [hsame, hsize, List.cons_append, hcount, List.drop_succ_cons]

/-- How late a `set` shows. A text that names a key `n` times leaves `n` values. From then on,
as long as the key is not removed, `get` gives the value that is the `max 1 n`-th from the end
of the text's values and those written since: with two fields it is the last but one. -/
theorem lagging_get (params key : Str) {calls : List Call}
    (h : ∀ c ∈ calls, c.keeps key = true) :
    get (calls.foldl call (unflatten params)) key =
      (valuesOf key (fields params) ++ calls.filterMap (Call.writes key))[
        (valuesOf key (fields params) ++ calls.filterMap (Call.writes key)).length -
          max 1 (valuesOf key (fields params)).length]? := by
  rw [get_eq_head, valuesOf_run, unflatten_eq, queue_run h, List.head?_drop]

/-- A text that names a key twice: the value set afterwards does not show, the older one does. -/
theorem lateSet :
    get ([Call.set ['a'] ['3']].foldl call (unflatten ['a', '=', '1', ';', 'a', '=', '2'])) ['a'] =
      some ['2'] := by
  have hkeeps : ∀ c ∈ [Call.set ['a'] ['3']], c.keeps ['a'] = true := by decide
  rw [lagging_get ['a', '=', '1', ';', 'a', '=', '2'] ['a'] hkeeps]
  decide

end Queues

section Order

/-- When each key was last written, by a clock that counts the writes. -/
structure Stamps where
  clock : Nat
  time : Str → Option Nat

def Stamps.write (s : Stamps) (key : Str) : Stamps :=
  { clock := s.clock + 1, time := Function.update s.time key (some s.clock) }

def Stamps.drop (s : Stamps) (key : Str) : Stamps :=
  { s with time := Function.update s.time key none }

def newStamps : Stamps := { clock := 0, time := fun _ => none }

def stamped (s : Stamps) : Call → Stamps
  | .set k v => if invalid k = false ∧ invalid v = false then s.write k else s
  | .setInt k _ => if invalid k = false then s.write k else s
  | .remove k => s.drop k
  | .unflatten params =>
    (fields params).foldl (fun s e => s.write e.1) { s with time := fun _ => none }

/-- A text that names no key twice. -/
def Call.Distinct : Call → Prop
  | .unflatten params => (fields params).keys.Nodup
  | _ => True

/-- The list holds the keys that have a stamp, each once, the older ones first. -/
structure Ordered (m : Assoc Str Str) (s : Stamps) : Prop where
  present : ∀ key, (s.time key).isSome ↔ key ∈ m.keys
  past : ∀ key t, s.time key = some t → t < s.clock
  older : m.Pairwise fun d e => ∀ t u, s.time d.1 = some t → s.time e.1 = some u → t < u
  distinct : m.keys.Nodup

/-- The comparison that the stamps give. -/
def compareTimes (order : Int) : Option Nat → Option Nat → Int × Option Int
  | some t, some u => (0, some (if t = u then 0 else if t < u then -1 else 1))
  | some _, none => (nameNotFound, some order)
  | none, _ => (nameNotFound, some order)

theorem removeItem_eq_erase {m : Assoc Str Str} (hm : m.keys.Nodup) (key : Str) :
    removeItem m key = Assoc.erase m key := by
  induction m with
  | nil => rfl
  | cons e m ih =>
    obtain ⟨hfresh, hrest⟩ : e.1 ∉ Assoc.keys m ∧ (Assoc.keys m).Nodup := List.nodup_cons.mp hm
    rw [removeItem_cons]
    by_cases h : e.1 = key
    · have hself : Assoc.erase m key = m := by
        refine List.filter_eq_self.mpr fun d hd => ?_
        have hne : d.1 ≠ key := fun hk => hfresh (h ▸ hk ▸ Assoc.mem_keys hd)
        simpa using hne
      have hstep : Assoc.erase (e :: m) key = Assoc.erase m key := by simp [Assoc.erase, h]
      rw [if_pos h, hstep, hself]
    · rw [if_neg h, ih hrest]
      simp [Assoc.erase, h]

theorem mem_keys_erase {m : Assoc Str Str} {key j : Str} :
    j ∈ (Assoc.erase m key).keys ↔ j ∈ m.keys ∧ j ≠ key := by
  simp only [Assoc.keys, List.mem_map]
  constructor
  · rintro ⟨e, he, rfl⟩
    obtain ⟨hmem, hne⟩ := Assoc.mem_erase.mp he
    exact ⟨⟨e, hmem, rfl⟩, hne⟩
  · rintro ⟨⟨e, he, rfl⟩, hne⟩
    exact ⟨e, Assoc.mem_erase.mpr ⟨he, hne⟩, rfl⟩

/-- Without one entry the others keep their order. -/
theorem Ordered.dropped {m : Assoc Str Str} {s : Stamps} (h : Ordered m s) (key : Str) :
    Ordered (removeItem m key) (s.drop key) := by
  have htime : ∀ j, j ≠ key → (s.drop key).time j = s.time j := fun j hj => by
    simp [Stamps.drop, hj]
  have hgone : (s.drop key).time key = none := by simp [Stamps.drop]
  rw [removeItem_eq_erase h.distinct]
  refine ⟨fun j => ?_, fun j t ht => ?_, ?_, ?_⟩
  · rw [mem_keys_erase]
    by_cases hj : j = key
    · subst hj
      simp [hgone]
    · rw [htime j hj, h.present j]
      simp [hj]
  · by_cases hj : j = key
    · subst hj
      rw [hgone] at ht
      cases ht
    · rw [htime j hj] at ht
      exact h.past j t ht
  · have hkept := List.Pairwise.filter (fun e : Str × Str => e.1 ≠ key) h.older
    refine hkept.imp_of_mem fun {d e} hd he hlt t u ht hu => ?_
    rw [htime d.1 (Assoc.mem_erase.mp hd).2] at ht
    rw [htime e.1 (Assoc.mem_erase.mp he).2] at hu
    exact hlt t u ht hu
  · exact h.distinct.sublist (Assoc.keys_erase_sublist m key)

/-- A new entry at the end has the latest stamp. -/
theorem Ordered.pushed {m : Assoc Str Str} {s : Stamps} (h : Ordered m s) {key : Str}
    (hkey : key ∉ m.keys) (value : Str) : Ordered (m ++ [(key, value)]) (s.write key) := by
  have htime : ∀ j, j ≠ key → (s.write key).time j = s.time j := fun j hj => by
    simp [Stamps.write, hj]
  have hnow : (s.write key).time key = some s.clock := by simp [Stamps.write]
  have hkeys : (m ++ [(key, value)]).keys = m.keys ++ [key] := by simp [Assoc.keys]
  refine ⟨fun j => ?_, fun j t ht => ?_, ?_, ?_⟩
  · rw [hkeys, List.mem_append, List.mem_singleton]
    by_cases hj : j = key
    · subst hj
      simp [hnow]
    · rw [htime j hj, h.present j]
      simp [hj]
  · by_cases hj : j = key
    · subst hj
      rw [hnow] at ht
      cases ht
      exact Nat.lt_succ_self _
    · rw [htime j hj] at ht
      exact Nat.lt_succ_of_lt (h.past j t ht)
  · have hne : ∀ e ∈ m, e.1 ≠ key := fun e he hk => hkey (hk ▸ Assoc.mem_keys he)
    refine List.pairwise_append.mpr ⟨?_, List.pairwise_singleton _ _, fun d hd e he t u ht hu => ?_⟩
    · refine h.older.imp_of_mem fun {d e} hd he hlt t u ht hu => ?_
      rw [htime d.1 (hne d hd)] at ht
      rw [htime e.1 (hne e he)] at hu
      exact hlt t u ht hu
    · rw [List.mem_singleton.mp he, hnow] at hu
      cases hu
      rw [htime d.1 (hne d hd)] at ht
      exact h.past d.1 t ht
  · rw [hkeys]
    exact List.nodup_append.mpr ⟨h.distinct, List.nodup_singleton key, fun j hj k hk heq => by
      rw [List.mem_singleton.mp hk] at heq
      exact hkey (heq ▸ hj)⟩

/-- Replacing makes the key the youngest. -/
theorem Ordered.written {m : Assoc Str Str} {s : Stamps} (h : Ordered m s) (key value : Str) :
    Ordered (replaceValueFor m key value) (s.write key) := by
  have hdrop := h.dropped key
  have hfresh : key ∉ (removeItem m key).keys := by
    rw [removeItem_eq_erase h.distinct, mem_keys_erase]
    simp
  have hwrite : (s.drop key).write key = s.write key := by
    simp [Stamps.write, Stamps.drop]
  rw [← hwrite]
  exact hdrop.pushed hfresh value

/-- Fields that are appended are stamped in their order. -/
theorem Ordered.fields {n m : Assoc Str Str} {s : Stamps} (h : Ordered m s)
    (hn : (m ++ n).keys.Nodup) : Ordered (m ++ n) (n.foldl (fun s e => s.write e.1) s) := by
  induction n generalizing m s with
  | nil => simpa using h
  | cons e n ih =>
    have hassoc : m ++ e :: n = (m ++ [e]) ++ n := by simp
    have hfresh : e.1 ∉ m.keys := by
      intro hmem
      rw [Assoc.keys_append] at hn
      exact (List.nodup_append.mp hn).2.2 e.1 hmem e.1 (Assoc.mem_keys List.mem_cons_self) rfl
    rw [hassoc] at hn ⊢
    exact ih (h.pushed hfresh e.2) hn

theorem ordered_nil (s : Stamps) : Ordered [] { s with time := fun _ => none } := by
  refine ⟨fun key => ?_, fun key t ht => ?_, List.Pairwise.nil, List.nodup_nil⟩
  · simp [Assoc.keys]
  · cases ht

theorem Ordered.set {m : Assoc Str Str} {s : Stamps} (h : Ordered m s) (key value : Str) :
    Ordered (set m key value)
      (if invalid key = false ∧ invalid value = false then s.write key else s) := by
  rw [CameraParameters2.set]
  cases hk : invalid key with
  | true => simpa using h
  | false =>
    cases hv : invalid value with
    | true => simpa using h
    | false => simpa using h.written key value

/-- The step lemma, while no text gives a key twice. -/
theorem Ordered.call {m : Assoc Str Str} {s : Stamps} (h : Ordered m s) {c : Call}
    (hc : c.Distinct) : Ordered (call m c) (stamped s c) := by
  cases c with
  | set k v => exact h.set k v
  | setInt k value =>
    have hprint : invalid (printDecimal value) = false :=
      invalid_eq_false.mpr (printDecimal_clean value)
    have hset := h.set k (printDecimal value)
    simp only [hprint, and_true] at hset
    exact hset
  | remove k => exact h.dropped k
  | unflatten params => exact (ordered_nil s).fields hc

theorem ordered_run {calls : List Call} (hd : ∀ c ∈ calls, c.Distinct) {m : Assoc Str Str}
    {s : Stamps} (h : Ordered m s) :
    Ordered (calls.foldl CameraParameters2.call m) (calls.foldl stamped s) := by
  induction calls generalizing m s with
  | nil => exact h
  | cons c calls ih =>
    exact ih (fun d hmem => hd d (List.mem_cons_of_mem c hmem)) (h.call (hd c List.mem_cons_self))

theorem indexOfKey_eq_none {m : Assoc Str Str} {key : Str} :
    indexOfKey m key = none ↔ key ∉ m.keys := by
  induction m with
  | nil => simp [indexOfKey, Assoc.keys]
  | cons e m ih =>
    have hkeys : Assoc.keys (e :: m) = e.1 :: Assoc.keys m := rfl
    by_cases h : e.1 = key
    · simp [indexOfKey, hkeys, h]
    · simp [indexOfKey, hkeys, h, ih, Ne.symm h]

theorem indexOfKey_some {m : Assoc Str Str} {key : Str} {i : Nat} (h : indexOfKey m key = some i) :
    ∃ e, m[i]? = some e ∧ e.1 = key := by
  induction m generalizing i with
  | nil => cases h
  | cons e m ih =>
    rw [indexOfKey] at h
    split_ifs at h with hkey
    · cases h
      exact ⟨e, rfl, hkey⟩
    · obtain ⟨j, hj, rfl⟩ := Option.map_eq_some_iff.mp h
      obtain ⟨d, hd, hdk⟩ := ih hj
      exact ⟨d, by simpa using hd, hdk⟩

theorem Ordered.index {m : Assoc Str Str} {s : Stamps} (h : Ordered m s) {key : Str} {i : Nat}
    (hi : indexOfKey m key = some i) : ∃ e t, m[i]? = some e ∧ e.1 = key ∧ s.time key = some t := by
  obtain ⟨e, he, hkey⟩ := indexOfKey_some hi
  have hmem : key ∈ m.keys := by
    rw [← hkey]
    exact Assoc.mem_keys (List.mem_of_getElem? he)
  obtain ⟨t, ht⟩ := Option.isSome_iff_exists.mp ((h.present key).mpr hmem)
  exact ⟨e, t, he, hkey, ht⟩

theorem Ordered.missing {m : Assoc Str Str} {s : Stamps} (h : Ordered m s) {key : Str}
    (hi : indexOfKey m key = none) : s.time key = none := by
  cases ht : s.time key with
  | none => rfl
  | some t =>
    have hmem := (h.present key).mp (by rw [ht]; rfl)
    exact absurd hmem (indexOfKey_eq_none.mp hi)

/-- Of two entries the earlier one was written first. -/
theorem Ordered.lt {m : Assoc Str Str} {s : Stamps} (h : Ordered m s) {i j : Nat}
    {d e : Str × Str} {t u : Nat} (hi : m[i]? = some d) (hj : m[j]? = some e) (hij : i < j)
    (ht : s.time d.1 = some t) (hu : s.time e.1 = some u) : t < u := by
  obtain ⟨hilt, hd⟩ := List.getElem?_eq_some_iff.mp hi
  obtain ⟨hjlt, he⟩ := List.getElem?_eq_some_iff.mp hj
  have hpair := List.pairwise_iff_getElem.mp h.older i j hilt hjlt hij
  rw [hd, he] at hpair
  exact hpair t u ht hu

/-- Comparing the places is comparing the times they were written. -/
theorem Ordered.compare {m : Assoc Str Str} {s : Stamps} (h : Ordered m s) (key1 key2 : Str)
    (order : Int) : compareSetOrder m (some key1) (some key2) (some order) =
      compareTimes order (s.time key1) (s.time key2) := by
  cases h1 : indexOfKey m key1 with
  | none =>
    rw [compareSetOrder, h1, h.missing h1]
    rfl
  | some i =>
    obtain ⟨d, t, hd, hdk, ht⟩ := h.index h1
    cases h2 : indexOfKey m key2 with
    | none =>
      rw [compareSetOrder, h1, h2, h.missing h2, ht]
      rfl
    | some j =>
      obtain ⟨e, u, he, hek, hu⟩ := h.index h2
      rw [compareSetOrder, h1, h2, ht, hu]
      simp only [compareTimes]
      rw [← hdk] at ht
      rw [← hek] at hu
      rcases Nat.lt_trichotomy i j with hlt | heq | hgt
      · have htu := h.lt hd he hlt ht hu
        rw [if_neg (by omega), if_pos hlt, if_neg (by omega), if_pos htu]
      · subst heq
        rw [hd] at he
        cases he
        rw [ht] at hu
        cases hu
        rw [if_pos rfl, if_pos rfl]
      · have hut := h.lt he hd hgt hu ht
        rw [if_neg (by omega), if_neg (by omega), if_neg (by omega), if_neg (by omega)]

/-- The order of the list is the order in time: over every run whose texts name no key twice,
`compareSetOrder` compares when the two keys were last written. -/
theorem compareSetOrder_times {calls : List Call} (hd : ∀ c ∈ calls, c.Distinct)
    (key1 key2 : Str) (order : Int) :
    compareSetOrder (calls.foldl call []) (some key1) (some key2) (some order) =
      compareTimes order ((calls.foldl stamped newStamps).time key1)
        ((calls.foldl stamped newStamps).time key2) :=
  (ordered_run hd (ordered_nil newStamps)).compare key1 key2 order

/-- A text with the frame rate before its range; then the frame rate is set again. -/
theorem frameRate_youngest :
    compareSetOrder
      ([.unflatten ['f', '=', '9', ';', 'r', '=', '8'], .setInt ['f'] 15].foldl call [])
      (some ['f']) (some ['r']) (some 7) = (0, some 1) := by
  have hdistinct : ∀ c ∈ [.unflatten ['f', '=', '9', ';', 'r', '=', '8'], .setInt ['f'] 15],
      Call.Distinct c := by
    intro c hc
    simp only [List.mem_cons, List.not_mem_nil, or_false] at hc
    rcases hc with rfl | rfl
    · simp only [Call.Distinct]
      decide
    · trivial
  rw [compareSetOrder_times hdistinct]
  decide

end Order

end CameraParameters2
