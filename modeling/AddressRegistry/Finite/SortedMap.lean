/-!
# Finite maps in key order

`SortedMap κ ν` is a finite map kept as the list of its entries with strictly increasing keys. The
list is the map's only representation, so two maps with the same bindings are equal as values
(`SortedMap.ext_get?`), and every listing comes in key order.

Main statements: `get?_insert`, `get?_erase`, `get?_union` say what each operation does to the view
`get?`, and `mem_entries_iff` ties that view to the entries.
-/

set_option linter.unusedSectionVars false

namespace AddressRegistry

/-- A finite map whose entries are listed by strictly increasing key. -/
structure SortedMap (κ ν : Type) [Ord κ] where
  entries : List (κ × ν)
  increasing : entries.Pairwise fun a b => compare a.1 b.1 = .lt

namespace SortedMap

variable {κ ν : Type} [Ord κ]

instance [DecidableEq κ] [DecidableEq ν] : DecidableEq (SortedMap κ ν) := fun a b =>
  if h : a.entries = b.entries then
    .isTrue (by cases a; cases b; simp_all)
  else
    .isFalse fun e => h (congrArg entries e)

/-- The map without entries. -/
def empty : SortedMap κ ν := ⟨[], .nil⟩

instance : Inhabited (SortedMap κ ν) := ⟨empty⟩

/-- The value that a list of entries binds to a key. -/
def lookupEntry (k : κ) : List (κ × ν) → Option ν
  | [] => none
  | e :: rest => if compare k e.1 = .eq then some e.2 else lookupEntry k rest

/-- The value bound to a key. -/
def get? (m : SortedMap κ ν) (k : κ) : Option ν :=
  lookupEntry k m.entries

/-- Whether a key is bound. -/
def contains (m : SortedMap κ ν) (k : κ) : Bool :=
  (m.get? k).isSome

/-- The number of entries. -/
def size (m : SortedMap κ ν) : Nat := m.entries.length

/-- Whether there is no entry. -/
def isEmpty (m : SortedMap κ ν) : Bool := m.entries.isEmpty

/-- The keys, in order. -/
def keys (m : SortedMap κ ν) : List κ := m.entries.map (·.1)

/-- The values, in the order of their keys. -/
def values (m : SortedMap κ ν) : List ν := m.entries.map (·.2)

/-- Keep the entries that satisfy a test. -/
def filter (m : SortedMap κ ν) (p : κ → ν → Bool) : SortedMap κ ν :=
  ⟨m.entries.filter fun e => p e.1 e.2, m.increasing.filter _⟩

/-- Remove the binding of a key. -/
def erase (m : SortedMap κ ν) (k : κ) : SortedMap κ ν :=
  m.filter fun k' _ => compare k k' != .eq

/-- Put an entry in its place, replacing the one with the same key. -/
def insertEntry (k : κ) (v : ν) : List (κ × ν) → List (κ × ν)
  | [] => [(k, v)]
  | e :: rest =>
    match compare k e.1 with
    | .lt => (k, v) :: e :: rest
    | .eq => (k, v) :: rest
    | .gt => e :: insertEntry k v rest

theorem mem_insertEntry {k : κ} {v : ν} {e : κ × ν} {l : List (κ × ν)}
    (h : e ∈ insertEntry k v l) : e = (k, v) ∨ e ∈ l := by
  induction l with
  | nil => simpa [insertEntry] using h
  | cons a rest ih =>
    simp only [insertEntry] at h
    split at h <;> simp only [List.mem_cons] at h ⊢ <;> grind

/-! ## Insertion keeps the order -/

variable [Std.TransOrd κ]

theorem pairwise_insertEntry {k : κ} {v : ν} {l : List (κ × ν)}
    (h : l.Pairwise fun a b => compare a.1 b.1 = .lt) :
    (insertEntry k v l).Pairwise fun a b => compare a.1 b.1 = .lt := by
  induction l with
  | nil => simp [insertEntry]
  | cons a rest ih =>
    have hrest := (List.pairwise_cons.1 h).2
    have hhead := (List.pairwise_cons.1 h).1
    simp only [insertEntry]
    split
    · rename_i hlt
      refine List.pairwise_cons.2 ⟨fun e he => ?_, h⟩
      rcases List.mem_cons.1 he with rfl | he
      · exact hlt
      · exact Std.TransCmp.lt_trans hlt (hhead e he)
    · rename_i heq
      refine List.pairwise_cons.2 ⟨fun e he => ?_, hrest⟩
      exact Std.TransCmp.lt_of_eq_of_lt heq (hhead e he)
    · rename_i hgt
      refine List.pairwise_cons.2 ⟨fun e he => ?_, ih hrest⟩
      rcases mem_insertEntry he with rfl | he
      · exact Std.OrientedCmp.lt_of_gt hgt
      · exact hhead e he

/-- Bind a key to a value, replacing what it was bound to. -/
def insert (m : SortedMap κ ν) (k : κ) (v : ν) : SortedMap κ ν :=
  ⟨insertEntry k v m.entries, pairwise_insertEntry m.increasing⟩

/-- The union of two maps; where both bind a key, the second one's value stands. -/
def union (m other : SortedMap κ ν) : SortedMap κ ν :=
  other.entries.foldl (fun acc e => acc.insert e.1 e.2) m

/-- The map with the given bindings; of several values for a key the last one stands. -/
def ofList (l : List (κ × ν)) : SortedMap κ ν :=
  l.foldl (fun acc e => acc.insert e.1 e.2) empty

/-! ## The view `get?` -/

variable [Std.LawfulEqOrd κ]

@[simp] theorem get?_empty (k : κ) : (empty : SortedMap κ ν).get? k = none := rfl

theorem lookupEntry_insertEntry (k k' : κ) (v : ν) (l : List (κ × ν)) :
    lookupEntry k' (insertEntry k v l)
      = if compare k' k = .eq then some v else lookupEntry k' l := by
  induction l with
  | nil => simp [insertEntry, lookupEntry]
  | cons a rest ih =>
    simp only [insertEntry]
    split
    · simp [lookupEntry]
    · rename_i heq
      have hka : k = a.1 := Std.LawfulEqOrd.eq_of_compare heq
      subst hka
      by_cases h : compare k' a.1 = .eq <;> simp [lookupEntry, h]
    · rename_i hgt
      by_cases h : compare k' k = .eq
      · have hkk : k' = k := Std.LawfulEqOrd.eq_of_compare h
        subst hkk
        simp [lookupEntry, ih, hgt]
      · simp [lookupEntry, ih, h]

theorem get?_insert (m : SortedMap κ ν) (k k' : κ) (v : ν) :
    (m.insert k v).get? k' = if compare k' k = .eq then some v else m.get? k' :=
  lookupEntry_insertEntry k k' v m.entries

@[simp] theorem get?_insert_self (m : SortedMap κ ν) (k : κ) (v : ν) :
    (m.insert k v).get? k = some v := by
  simp [get?_insert]

theorem get?_insert_of_ne {m : SortedMap κ ν} {k k' : κ} (v : ν) (h : k' ≠ k) :
    (m.insert k v).get? k' = m.get? k' := by
  rw [get?_insert, if_neg fun e => h (Std.LawfulEqOrd.eq_of_compare e)]

theorem lookupEntry_eq_none_of_lt {k : κ} {l : List (κ × ν)}
    (h : ∀ e ∈ l, compare k e.1 = .lt) : lookupEntry k l = none := by
  induction l with
  | nil => rfl
  | cons a rest ih =>
    have ha := h a (by simp)
    simp [lookupEntry, ha, ih fun e he => h e (by simp [he])]

theorem lookupEntry_filter_ne (k k' : κ) (l : List (κ × ν)) :
    lookupEntry k' (l.filter fun e => compare k e.1 != .eq)
      = if compare k' k = .eq then none else lookupEntry k' l := by
  induction l with
  | nil => simp [lookupEntry]
  | cons a rest ih =>
    by_cases hka : compare k a.1 = .eq
    · have : k = a.1 := Std.LawfulEqOrd.eq_of_compare hka
      subst this
      by_cases h : compare k' a.1 = .eq <;> simp [lookupEntry, h, ih]
    · by_cases h : compare k' k = .eq
      · have : k' = k := Std.LawfulEqOrd.eq_of_compare h
        subst this
        simp [lookupEntry, hka, ih]
      · simp [lookupEntry, hka, ih, h]

theorem get?_erase (m : SortedMap κ ν) (k k' : κ) :
    (m.erase k).get? k' = if compare k' k = .eq then none else m.get? k' :=
  lookupEntry_filter_ne k k' m.entries

@[simp] theorem get?_erase_self (m : SortedMap κ ν) (k : κ) : (m.erase k).get? k = none := by
  simp [get?_erase]

theorem get?_erase_of_ne {m : SortedMap κ ν} {k k' : κ} (h : k' ≠ k) :
    (m.erase k).get? k' = m.get? k' := by
  rw [get?_erase, if_neg fun e => h (Std.LawfulEqOrd.eq_of_compare e)]

theorem get?_of_get?_erase {m : SortedMap κ ν} {k k' : κ} {v : ν} (h : (m.erase k).get? k' = some v) :
    m.get? k' = some v := by
  rw [get?_erase] at h
  split at h
  · cases h
  · exact h

theorem lookupEntry_eq_some_iff {k : κ} {v : ν} {l : List (κ × ν)}
    (h : l.Pairwise fun a b => compare a.1 b.1 = .lt) :
    lookupEntry k l = some v ↔ (k, v) ∈ l := by
  induction l with
  | nil => simp [lookupEntry]
  | cons a rest ih =>
    obtain ⟨hhead, hrest⟩ := List.pairwise_cons.1 h
    by_cases hk : compare k a.1 = .eq
    · have : k = a.1 := Std.LawfulEqOrd.eq_of_compare hk
      subst this
      have hnot : (a.1, v) ∉ rest := fun hm => by simpa using hhead _ hm
      have hiff : (a.1, v) = a ↔ a.2 = v :=
        ⟨fun e => (congrArg Prod.snd e).symm, fun e => by rw [← e]⟩
      simp [lookupEntry, hnot, hiff]
    · have hne : (k, v) ≠ a := fun e => hk (by rw [← e]; simp)
      simp [lookupEntry, hk, ih hrest, hne]

theorem mem_entries_iff {m : SortedMap κ ν} {k : κ} {v : ν} :
    (k, v) ∈ m.entries ↔ m.get? k = some v :=
  (lookupEntry_eq_some_iff m.increasing).symm

theorem mem_keys_iff {m : SortedMap κ ν} {k : κ} : k ∈ m.keys ↔ ∃ v, m.get? k = some v := by
  simp [keys, ← mem_entries_iff]

theorem mem_keys_insert {m : SortedMap κ ν} {k k' : κ} {v : ν} :
    k' ∈ (m.insert k v).keys ↔ k' = k ∨ k' ∈ m.keys := by
  by_cases h : k' = k
  · subst h
    simp [mem_keys_iff]
  · simp [mem_keys_iff, get?_insert_of_ne v h, h]

theorem mem_keys_erase {m : SortedMap κ ν} {k k' : κ} :
    k' ∈ (m.erase k).keys ↔ k' ≠ k ∧ k' ∈ m.keys := by
  by_cases h : k' = k
  · subst h
    simp [mem_keys_iff]
  · simp [mem_keys_iff, get?_erase_of_ne h, h]

theorem nodup_keys (m : SortedMap κ ν) : m.keys.Nodup := by
  refine List.pairwise_map.2 (m.increasing.imp fun {a b} hlt heq => ?_)
  simp [heq] at hlt

theorem contains_eq_false_iff {m : SortedMap κ ν} {k : κ} :
    m.contains k = false ↔ m.get? k = none := by
  simp [contains]

/-- A key that is bound stays so. -/
theorem contains_insert {m : SortedMap κ ν} {k k' : κ} (v : ν) (h : m.contains k' = true) :
    (m.insert k v).contains k' = true := by
  unfold contains at h ⊢
  rw [get?_insert]
  split
  · rfl
  · exact h

theorem get?_insert_eq_some_iff {m : SortedMap κ ν} {k k' : κ} {v v' : ν} :
    (m.insert k v).get? k' = some v' ↔ k' = k ∧ v' = v ∨ k' ≠ k ∧ m.get? k' = some v' := by
  by_cases h : k' = k
  · subst h
    simp [eq_comm]
  · simp [get?_insert_of_ne v h, h]

theorem contains_insert_iff {m : SortedMap κ ν} {k k' : κ} {v : ν} :
    (m.insert k v).contains k' = true ↔ k' = k ∨ m.contains k' = true := by
  unfold contains
  by_cases h : k' = k
  · subst h
    simp
  · simp [get?_insert_of_ne v h, h]

theorem contains_erase_iff {m : SortedMap κ ν} {k k' : κ} :
    (m.erase k).contains k' = true ↔ k' ≠ k ∧ m.contains k' = true := by
  unfold contains
  by_cases h : k' = k
  · subst h
    simp
  · simp [get?_erase_of_ne h, h]

/-- A test keeps the values that satisfy it. -/
theorem get?_filter (m : SortedMap κ ν) (p : κ → ν → Bool) (k : κ) :
    (m.filter p).get? k = (m.get? k).filter (p k) := by
  apply Option.ext
  intro v
  rw [← mem_entries_iff, Option.filter_eq_some_iff, ← mem_entries_iff]
  exact List.mem_filter

theorem entries_eq_of_lookupEntry_eq {l l' : List (κ × ν)}
    (h : l.Pairwise fun a b => compare a.1 b.1 = .lt)
    (h' : l'.Pairwise fun a b => compare a.1 b.1 = .lt)
    (heq : ∀ k, lookupEntry k l = lookupEntry k l') : l = l' := by
  induction l generalizing l' with
  | nil =>
    cases l' with
    | nil => rfl
    | cons b _ => simpa [lookupEntry] using heq b.1
  | cons a rest ih =>
    obtain ⟨ha, hrest⟩ := List.pairwise_cons.1 h
    cases l' with
    | nil => simpa [lookupEntry] using heq a.1
    | cons b rest' =>
      obtain ⟨hb, hrest'⟩ := List.pairwise_cons.1 h'
      have key : a.1 = b.1 := by
        rcases hc : compare a.1 b.1 with _ | _ | _
        · have := heq a.1
          rw [lookupEntry_eq_none_of_lt (l := b :: rest')
            (by
              intro e he
              rcases List.mem_cons.1 he with rfl | he
              · exact hc
              · exact Std.TransCmp.lt_trans hc (hb e he))] at this
          simp [lookupEntry] at this
        · exact Std.LawfulEqOrd.eq_of_compare hc
        · have hlt : compare b.1 a.1 = .lt := Std.OrientedCmp.lt_of_gt hc
          have := heq b.1
          rw [lookupEntry_eq_none_of_lt (l := a :: rest)
            (by
              intro e he
              rcases List.mem_cons.1 he with rfl | he
              · exact hlt
              · exact Std.TransCmp.lt_trans hlt (ha e he))] at this
          simp [lookupEntry] at this
      have value : a.2 = b.2 := by
        have := heq a.1
        simpa [lookupEntry, key] using this
      have hab : a = b := Prod.ext key value
      subst hab
      congr 1
      refine ih hrest hrest' fun k => ?_
      by_cases hk : compare k a.1 = .eq
      · have : k = a.1 := Std.LawfulEqOrd.eq_of_compare hk
        subst this
        rw [lookupEntry_eq_none_of_lt ha, lookupEntry_eq_none_of_lt hb]
      · have := heq k
        simpa [lookupEntry, hk] using this

theorem get?_foldl_insert {l : List (κ × ν)} (h : l.Pairwise fun a b => compare a.1 b.1 = .lt)
    (m : SortedMap κ ν) (k : κ) :
    (l.foldl (fun acc e => acc.insert e.1 e.2) m).get? k = (lookupEntry k l).or (m.get? k) := by
  induction l generalizing m with
  | nil => simp [lookupEntry]
  | cons a rest ih =>
    obtain ⟨hhead, hrest⟩ := List.pairwise_cons.1 h
    rw [List.foldl_cons, ih hrest, get?_insert, lookupEntry]
    by_cases hk : compare k a.1 = .eq
    · have hka : k = a.1 := Std.LawfulEqOrd.eq_of_compare hk
      subst hka
      simp [lookupEntry_eq_none_of_lt hhead]
    · simp [hk]

theorem get?_union (m other : SortedMap κ ν) (k : κ) :
    (m.union other).get? k = (other.get? k).or (m.get? k) :=
  get?_foldl_insert other.increasing m k

/-- Maps with the same bindings are equal. -/
theorem ext_get? {m m' : SortedMap κ ν} (h : ∀ k, m.get? k = m'.get? k) : m = m' := by
  have : m.entries = m'.entries :=
    entries_eq_of_lookupEntry_eq m.increasing m'.increasing h
  cases m
  cases m'
  simp_all

/-- A map is what its entries make. -/
theorem ofList_entries (m : SortedMap κ ν) : ofList m.entries = m :=
  ext_get? fun k => (get?_union empty m k).trans Option.or_none

@[simp] theorem insert_insert (m : SortedMap κ ν) (k : κ) (v v' : ν) :
    (m.insert k v).insert k v' = m.insert k v' := by
  apply ext_get?
  intro k'
  rw [get?_insert, get?_insert, get?_insert]
  split <;> rfl

@[simp] theorem insert_erase (m : SortedMap κ ν) (k : κ) (v : ν) :
    (m.erase k).insert k v = m.insert k v := by
  apply ext_get?
  intro k'
  rw [get?_insert, get?_insert, get?_erase]
  split <;> rfl

@[simp] theorem erase_insert (m : SortedMap κ ν) (k : κ) (v : ν) : (m.insert k v).erase k = m.erase k := by
  apply ext_get?
  intro k'
  rw [get?_erase, get?_erase, get?_insert]
  split <;> rfl

@[simp] theorem erase_erase (m : SortedMap κ ν) (k : κ) : (m.erase k).erase k = m.erase k := by
  apply ext_get?
  intro k'
  rw [get?_erase, get?_erase]
  split <;> rfl

theorem insert_of_get? {m : SortedMap κ ν} {k : κ} {v : ν} (h : m.get? k = some v) :
    m.insert k v = m := by
  apply ext_get?
  intro k'
  by_cases hk : k' = k
  · rw [hk, get?_insert_self, h]
  · exact get?_insert_of_ne v hk

theorem erase_of_get? {m : SortedMap κ ν} {k : κ} (h : m.get? k = none) : m.erase k = m := by
  apply ext_get?
  intro k'
  by_cases hk : k' = k
  · rw [hk, get?_erase_self, h]
  · exact get?_erase_of_ne hk

/-! ## Sizes -/

theorem length_insertEntry {k : κ} {v v' : ν} {l : List (κ × ν)}
    (hincreasing : l.Pairwise fun a b => compare a.1 b.1 = .lt) (h : lookupEntry k l = some v) :
    (insertEntry k v' l).length = l.length := by
  induction l with
  | nil => cases h
  | cons a rest ih =>
    obtain ⟨hhead, hrest⟩ := List.pairwise_cons.1 hincreasing
    simp only [insertEntry]
    split
    · rename_i hlt
      rw [lookupEntry_eq_none_of_lt] at h
      · cases h
      · intro e he
        rcases List.mem_cons.1 he with rfl | he
        · exact hlt
        · exact Std.TransCmp.lt_trans hlt (hhead e he)
    · rfl
    · rename_i hgt
      rw [lookupEntry, if_neg (by rw [hgt]; nofun)] at h
      exact congrArg (· + 1) (ih hrest h)

/-- Binding a bound key again adds no entry. -/
theorem size_insert_of_get? {m : SortedMap κ ν} {k : κ} {v : ν} (h : m.get? k = some v) (v' : ν) :
    (m.insert k v').size = m.size :=
  length_insertEntry m.increasing h

theorem length_insertEntry_of_none {k : κ} {v : ν} {l : List (κ × ν)} (h : lookupEntry k l = none) :
    (insertEntry k v l).length = l.length + 1 := by
  induction l with
  | nil => rfl
  | cons a rest ih =>
    rw [lookupEntry] at h
    split at h
    · cases h
    · rename_i hne
      simp only [insertEntry]
      split
      · rfl
      · rename_i heq
        exact absurd heq hne
      · exact congrArg (· + 1) (ih h)

/-- Binding a key that was not bound adds an entry. -/
theorem size_insert_of_none {m : SortedMap κ ν} {k : κ} (h : m.get? k = none) (v : ν) :
    (m.insert k v).size = m.size + 1 :=
  length_insertEntry_of_none h

/-- Removing a bound key removes an entry. -/
theorem size_erase_lt {m : SortedMap κ ν} {k : κ} {v : ν} (h : m.get? k = some v) :
    (m.erase k).size < m.size := by
  refine List.length_filter_lt_length_iff_exists.2 ⟨(k, v), mem_entries_iff.2 h, ?_⟩
  simp

end SortedMap

end AddressRegistry
