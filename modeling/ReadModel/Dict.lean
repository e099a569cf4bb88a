/-!
Finite maps that list their entries in key order.

A `Dict` holds every key once and in ascending order, so that equal maps are equal values
(`Dict.ext_find?`) and every listing of one is sorted.
-/

namespace ReadModel

/-- A strict linear order that decides where a key stands in a listing. -/
class KeyOrder (κ : Type) where
  before : κ → κ → Bool
  irrefl : ∀ a, before a a = false
  trans : ∀ {a b c}, before a b = true → before b c = true → before a c = true
  total : ∀ {a b}, before a b = false → before b a = false → a = b

theorem KeyOrder.ne_of_before {κ : Type} [KeyOrder κ] {a b : κ} (h : before a b = true) : a ≠ b := by
  rintro rfl
  simp [KeyOrder.irrefl] at h

instance : KeyOrder String where
  before a b := decide (a < b)
  irrefl a := decide_eq_false (String.lt_irrefl a)
  trans h k := by simp only [decide_eq_true_eq] at *; exact String.lt_trans h k
  total h k := by
    simp only [decide_eq_false_iff_not, String.not_lt] at *
    exact String.le_antisymm k h

instance : KeyOrder Nat where
  before a b := decide (a < b)
  irrefl a := by simp
  trans h k := by simp only [decide_eq_true_eq] at *; omega
  total h k := by simp only [decide_eq_false_iff_not] at *; omega

/-- Pairs are ordered by their first parts, and by their second parts where those agree. -/
instance {κ μ : Type} [DecidableEq κ] [KeyOrder κ] [KeyOrder μ] : KeyOrder (κ × μ) where
  before a b := KeyOrder.before a.1 b.1 || (decide (a.1 = b.1) && KeyOrder.before a.2 b.2)
  irrefl a := by simp [KeyOrder.irrefl]
  trans := by
    rintro ⟨a, x⟩ ⟨b, y⟩ ⟨c, z⟩ h k
    simp only [Bool.or_eq_true, Bool.and_eq_true, decide_eq_true_eq] at *
    rcases h with h | ⟨rfl, h⟩ <;> rcases k with k | ⟨rfl, k⟩
    · exact Or.inl (KeyOrder.trans h k)
    · exact Or.inl h
    · exact Or.inl k
    · exact Or.inr ⟨rfl, KeyOrder.trans h k⟩
  total := by
    rintro ⟨a, x⟩ ⟨b, y⟩ h k
    simp only [Bool.or_eq_false_iff, Bool.and_eq_false_iff, decide_eq_false_iff_not] at *
    have first : a = b := KeyOrder.total h.1 k.1
    subst first
    simp only [not_true_eq_false, false_or] at h k
    rw [KeyOrder.total h.2 k.2]

/-- The order of a key that is compared through another one. -/
@[reducible]
def KeyOrder.via {κ μ : Type} [KeyOrder μ] (f : κ → μ) (injective : ∀ a b, f a = f b → a = b) :
    KeyOrder κ where
  before a b := before (f a) (f b)
  irrefl a := irrefl (f a)
  trans h k := trans h k
  total h k := injective _ _ (total h k)

section Listing

variable {κ ν : Type} [DecidableEq κ] [KeyOrder κ]

/-- The value that a listing gives to a key. -/
def lookup (key : κ) : List (κ × ν) → Option ν
  | [] => none
  | (a, w) :: rest => if a = key then some w else lookup key rest

/-- Puts an entry where it belongs in an ordered listing, in place of one for the same key. -/
def insertEntry (key : κ) (value : ν) : List (κ × ν) → List (κ × ν)
  | [] => [(key, value)]
  | (a, w) :: rest =>
    if KeyOrder.before key a then (key, value) :: (a, w) :: rest
    else if KeyOrder.before a key then (a, w) :: insertEntry key value rest
    else (key, value) :: rest

/-- Ascending by key, hence without repetition. -/
def Ascending (entries : List (κ × ν)) : Prop :=
  entries.Pairwise fun a b => KeyOrder.before a.1 b.1 = true

omit [DecidableEq κ] in
theorem mem_insertEntry {key : κ} {value : ν} {entries : List (κ × ν)} {e : κ × ν}
    (h : e ∈ insertEntry key value entries) : e = (key, value) ∨ e ∈ entries := by
  induction entries with
  | nil => simpa [insertEntry] using h
  | cons head rest ih =>
    obtain ⟨a, w⟩ := head
    simp only [insertEntry] at h
    split at h
    · simpa using h
    · split at h
      · rcases List.mem_cons.1 h with h | h
        · exact Or.inr (by simp [h])
        · exact (ih h).imp_right (List.mem_cons_of_mem _)
      · rcases List.mem_cons.1 h with h | h
        · exact Or.inl h
        · exact Or.inr (List.mem_cons_of_mem _ h)

omit [DecidableEq κ] in
theorem Ascending.insertEntry {key : κ} {value : ν} {entries : List (κ × ν)}
    (ascending : Ascending entries) : Ascending (insertEntry key value entries) := by
  induction entries with
  | nil => simp [ReadModel.insertEntry, Ascending]
  | cons head rest ih =>
    obtain ⟨a, w⟩ := head
    simp only [Ascending, List.pairwise_cons] at ascending
    simp only [ReadModel.insertEntry]
    split
    next first =>
      simp only [Ascending, List.pairwise_cons]
      refine ⟨?_, ascending⟩
      intro e member
      rcases List.mem_cons.1 member with rfl | member
      · exact first
      · exact KeyOrder.trans first (ascending.1 e member)
    next notFirst =>
      split
      next later =>
        simp only [Ascending, List.pairwise_cons]
        refine ⟨?_, ih ascending.2⟩
        intro e member
        rcases mem_insertEntry member with rfl | member
        · exact later
        · exact ascending.1 e member
      next notLater =>
        have same : key = a := KeyOrder.total (by simpa using notFirst) (by simpa using notLater)
        subst same
        simpa only [Ascending, List.pairwise_cons] using ascending

theorem lookup_insertEntry (key : κ) (value : ν) (entries : List (κ × ν)) (k : κ) :
    lookup k (insertEntry key value entries) = if key = k then some value else lookup k entries := by
  induction entries with
  | nil => simp [insertEntry, lookup]
  | cons head rest ih =>
    obtain ⟨a, w⟩ := head
    simp only [insertEntry]
    split
    · simp [lookup]
    · split
      next later =>
        simp only [lookup, ih]
        have := KeyOrder.ne_of_before later
        grind
      next notFirst notLater =>
        have same : key = a := KeyOrder.total (by simpa using notFirst) (by simpa using notLater)
        subst same
        simp only [lookup]
        split <;> rfl

theorem lookup_eq_none_of_before {key : κ} {entries : List (κ × ν)}
    (below : ∀ e ∈ entries, KeyOrder.before key e.1 = true) : lookup key entries = none := by
  induction entries with
  | nil => rfl
  | cons head rest ih =>
    obtain ⟨a, w⟩ := head
    have := KeyOrder.ne_of_before (below (a, w) (by simp))
    simp only [lookup]
    rw [if_neg (Ne.symm this)]
    exact ih fun e member => below e (List.mem_cons_of_mem _ member)

omit [KeyOrder κ] in
theorem mem_of_lookup {key : κ} {value : ν} {entries : List (κ × ν)}
    (h : lookup key entries = some value) : (key, value) ∈ entries := by
  induction entries with
  | nil => simp [lookup] at h
  | cons head rest ih =>
    obtain ⟨a, w⟩ := head
    simp only [lookup] at h
    split at h
    next same => simp_all
    next => exact List.mem_cons_of_mem _ (ih h)

theorem Ascending.lookup_of_mem {key : κ} {value : ν} {entries : List (κ × ν)}
    (ascending : Ascending entries) (h : (key, value) ∈ entries) :
    lookup key entries = some value := by
  induction entries with
  | nil => simp at h
  | cons head rest ih =>
    obtain ⟨a, w⟩ := head
    simp only [Ascending, List.pairwise_cons] at ascending
    rcases List.mem_cons.1 h with h | h
    · simp_all [lookup]
    · have := KeyOrder.ne_of_before (ascending.1 _ h)
      simp only [lookup]
      rw [if_neg this]
      exact ih ascending.2 h

/-- Two ascending listings that give every key the same value are the same. -/
theorem Ascending.ext {left right : List (κ × ν)} (hl : Ascending left) (hr : Ascending right)
    (same : ∀ key, lookup key left = lookup key right) : left = right := by
  induction left generalizing right with
  | nil =>
    cases right with
    | nil => rfl
    | cons head rest => simpa [lookup] using same head.1
  | cons head rest ih =>
    obtain ⟨a, w⟩ := head
    cases right with
    | nil => simpa [lookup] using same a
    | cons head' rest' =>
      obtain ⟨b, x⟩ := head'
      simp only [Ascending, List.pairwise_cons] at hl hr
      have keys : a = b := by
        apply KeyOrder.total
        · cases h : KeyOrder.before a b with
          | false => rfl
          | true =>
            have none : lookup a ((b, x) :: rest') = none :=
              lookup_eq_none_of_before (by
                intro e member
                rcases List.mem_cons.1 member with rfl | member
                · exact h
                · exact KeyOrder.trans h (hr.1 e member))
            have := same a
            rw [none] at this
            simp [lookup] at this
        · cases h : KeyOrder.before b a with
          | false => rfl
          | true =>
            have none : lookup b ((a, w) :: rest) = none :=
              lookup_eq_none_of_before (by
                intro e member
                rcases List.mem_cons.1 member with rfl | member
                · exact h
                · exact KeyOrder.trans h (hl.1 e member))
            have := same b
            rw [none] at this
            simp [lookup] at this
      subst keys
      have values : w = x := by simpa [lookup] using same a
      subst values
      refine congrArg _ (ih hl.2 hr.2 ?_)
      intro key
      by_cases h : a = key
      · subst h
        rw [lookup_eq_none_of_before hl.1, lookup_eq_none_of_before hr.1]
      · simpa [lookup, h] using same key

end Listing

/-- A finite map from keys to values. -/
structure Dict (κ ν : Type) [KeyOrder κ] where
  entries : List (κ × ν)
  ascending : Ascending entries

namespace Dict

variable {κ ν μ : Type} [DecidableEq κ] [KeyOrder κ]

instance [DecidableEq ν] : DecidableEq (Dict κ ν) := fun a b =>
  if h : a.entries = b.entries then .isTrue (by cases a; cases b; simp_all)
  else .isFalse (by rintro rfl; exact h rfl)

/-- The map without entries. -/
def empty : Dict κ ν := ⟨[], List.Pairwise.nil⟩

instance : EmptyCollection (Dict κ ν) := ⟨empty⟩

instance : Inhabited (Dict κ ν) := ⟨empty⟩

/-- The value of a key, if it has one. -/
def find? (d : Dict κ ν) (key : κ) : Option ν := lookup key d.entries

/-- Gives a key a value, in place of the one it had. -/
def insert (d : Dict κ ν) (key : κ) (value : ν) : Dict κ ν :=
  ⟨insertEntry key value d.entries, d.ascending.insertEntry⟩

/-- Keeps the entries that pass a test. -/
def filter (d : Dict κ ν) (keep : κ → ν → Bool) : Dict κ ν :=
  ⟨d.entries.filter fun e => keep e.1 e.2, List.Pairwise.filter _ d.ascending⟩

/-- Takes a key out. -/
def erase (d : Dict κ ν) (key : κ) : Dict κ ν := d.filter fun k _ => decide (k ≠ key)

/-- The keys in ascending order. -/
def keys (d : Dict κ ν) : List κ := d.entries.map Prod.fst

/-- The number of keys. -/
def size (d : Dict κ ν) : Nat := d.entries.length

/-- Puts entries in one after the other, so that of two for one key the later counts. -/
def ofList (entries : List (κ × ν)) : Dict κ ν :=
  entries.foldl (fun d e => d.insert e.1 e.2) empty

@[ext]
theorem ext_find? {a b : Dict κ ν} (same : ∀ key, a.find? key = b.find? key) : a = b := by
  have := a.ascending.ext b.ascending same
  cases a; cases b; simp_all

@[simp]
theorem find?_empty (key : κ) : (∅ : Dict κ ν).find? key = none := rfl

@[simp]
theorem find?_insert (d : Dict κ ν) (key : κ) (value : ν) (k : κ) :
    (d.insert key value).find? k = if key = k then some value else d.find? k :=
  lookup_insertEntry key value d.entries k

theorem mem_entries_iff (d : Dict κ ν) (key : κ) (value : ν) :
    (key, value) ∈ d.entries ↔ d.find? key = some value :=
  ⟨d.ascending.lookup_of_mem, mem_of_lookup⟩

theorem find?_filter (d : Dict κ ν) (keep : κ → ν → Bool) (key : κ) :
    (d.filter keep).find? key = (d.find? key).filter (keep key) := by
  ext value
  rw [← mem_entries_iff, Option.filter_eq_some_iff, ← mem_entries_iff]
  exact List.mem_filter

@[simp]
theorem find?_erase (d : Dict κ ν) (key k : κ) :
    (d.erase key).find? k = if key = k then none else d.find? k := by
  rw [erase, find?_filter]
  cases d.find? k with
  | none => simp
  | some value => by_cases h : key = k <;> simp [Option.filter, h, eq_comm]

end Dict

/-- The distinct keys of a list in ascending order. -/
def sortedKeys {κ : Type} [DecidableEq κ] [KeyOrder κ] (keys : List κ) : List κ :=
  (Dict.ofList (keys.map fun key => (key, ()))).keys

end ReadModel
