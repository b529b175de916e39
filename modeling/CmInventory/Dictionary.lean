/-!
# Dictionaries

A finite map from text keys, kept as the list of its entries in ascending order of the keys. The
order of text is that of its code points, which is also the order of its UTF-8 bytes.

A dictionary is determined by its look-ups (`Dictionary.ext_find?`), and each operation is described
through them: `find?_empty`, `find?_insert`, `find?_erase`.
-/

namespace CmInventory

/-- A finite map from text to `β`. -/
structure Dictionary (β : Type) where
  entries : List (String × β)
  ascending : entries.Pairwise (fun a b => a.1 < b.1)

namespace Dictionary

variable {β γ : Type}

instance [DecidableEq β] : DecidableEq (Dictionary β) := fun a b =>
  if h : a.entries = b.entries then
    isTrue (by cases a; cases b; simp_all)
  else
    isFalse (fun e => h (congrArg entries e))

def empty : Dictionary β := ⟨[], .nil⟩

instance : Inhabited (Dictionary β) := ⟨empty⟩

/-! ## Look-up -/

/-- The value of the first entry with the given key. -/
def lookup (key : String) : List (String × β) → Option β
  | [] => none
  | (k, v) :: rest => if k = key then some v else lookup key rest

/-- The value under `key`. -/
def find? (d : Dictionary β) (key : String) : Option β :=
  lookup key d.entries

def contains (d : Dictionary β) (key : String) : Bool :=
  (d.find? key).isSome

def keys (d : Dictionary β) : List String :=
  d.entries.map (·.1)

def values (d : Dictionary β) : List β :=
  d.entries.map (·.2)

def size (d : Dictionary β) : Nat :=
  d.entries.length

def isEmpty (d : Dictionary β) : Bool :=
  d.entries.isEmpty

/-! ## Insertion -/

/-- Puts an entry at its place, over one with the same key. -/
def insertEntry (key : String) (value : β) : List (String × β) → List (String × β)
  | [] => [(key, value)]
  | (k, v) :: rest =>
      if key < k then (key, value) :: (k, v) :: rest
      else if k < key then (k, v) :: insertEntry key value rest
      else (key, value) :: rest

theorem eq_of_not_lt {a b : String} (h₁ : ¬ a < b) (h₂ : ¬ b < a) : a = b :=
  String.le_antisymm (String.not_lt.1 h₂) (String.not_lt.1 h₁)

theorem mem_insertEntry {key : String} {value : β} {entries : List (String × β)}
    {e : String × β} (h : e ∈ insertEntry key value entries) : e = (key, value) ∨ e ∈ entries := by
  induction entries with
  | nil => simpa [insertEntry] using h
  | cons head rest ih =>
      obtain ⟨k, v⟩ := head
      simp only [insertEntry] at h
      split at h
      · simpa using h
      · split at h
        · rcases List.mem_cons.1 h with h | h
          · exact Or.inr (by simp [h])
          · exact (ih h).imp_right (List.mem_cons_of_mem _)
        · rcases List.mem_cons.1 h with h | h
          · exact Or.inl h
          · exact Or.inr (List.mem_cons_of_mem _ h)

theorem ascending_insertEntry {key : String} {value : β} {entries : List (String × β)}
    (h : entries.Pairwise (fun a b => a.1 < b.1)) :
    (insertEntry key value entries).Pairwise (fun a b => a.1 < b.1) := by
  induction entries with
  | nil => simp [insertEntry]
  | cons head rest ih =>
      obtain ⟨k, v⟩ := head
      have hk := List.pairwise_cons.1 h
      simp only [insertEntry]
      split
      case isTrue lt =>
        refine List.pairwise_cons.2 ⟨fun e he => ?_, h⟩
        rcases List.mem_cons.1 he with rfl | he
        · exact lt
        · exact String.lt_trans lt (hk.1 e he)
      case isFalse nlt =>
        split
        case isTrue gt =>
          refine List.pairwise_cons.2 ⟨fun e he => ?_, ih hk.2⟩
          rcases mem_insertEntry he with rfl | he
          · exact gt
          · exact hk.1 e he
        case isFalse ngt =>
          obtain rfl := eq_of_not_lt nlt ngt
          exact List.pairwise_cons.2 ⟨hk.1, hk.2⟩

/-- The dictionary with `value` under `key`. -/
def insert (d : Dictionary β) (key : String) (value : β) : Dictionary β :=
  ⟨insertEntry key value d.entries, ascending_insertEntry d.ascending⟩

/-- The dictionary of a list of entries, of which the last one for a key counts. -/
def ofList (entries : List (String × β)) : Dictionary β :=
  entries.foldl (fun d e => d.insert e.1 e.2) empty

/-! ## Removal, selection and maps -/

/-- The dictionary of the entries that satisfy `p`. -/
def filter (d : Dictionary β) (p : String → β → Bool) : Dictionary β :=
  ⟨d.entries.filter (fun e => p e.1 e.2), d.ascending.filter _⟩

def erase (d : Dictionary β) (key : String) : Dictionary β :=
  d.filter fun k _ => k != key

/-- The dictionary with every value replaced. -/
def map (d : Dictionary β) (f : β → γ) : Dictionary γ :=
  ⟨d.entries.map (fun e => (e.1, f e.2)), by
    simpa [List.pairwise_map] using d.ascending⟩

/-- The dictionary of the values that `f` keeps, as `f` gives them. -/
def filterMap (d : Dictionary β) (f : β → Option γ) : Dictionary γ :=
  ⟨d.entries.filterMap (fun e => (f e.2).map ((e.1, ·))), by
    refine List.Pairwise.filterMap _ (fun a b lt x hx y hy => ?_) d.ascending
    obtain ⟨_, _, rfl⟩ := Option.map_eq_some_iff.1 hx
    obtain ⟨_, _, rfl⟩ := Option.map_eq_some_iff.1 hy
    exact lt⟩

/-- Changes the value under `key` if there is one. -/
def modify (d : Dictionary β) (key : String) (f : β → β) : Dictionary β :=
  match d.find? key with
  | some v => d.insert key (f v)
  | none => d

/-! ## Laws of look-up -/

theorem find?_empty (key : String) : (empty : Dictionary β).find? key = none := rfl

theorem lookup_insertEntry {entries : List (String × β)} (key : String) (value : β)
    (other : String) :
    lookup other (insertEntry key value entries) =
      if key = other then some value else lookup other entries := by
  induction entries with
  | nil => simp [insertEntry, lookup]
  | cons head rest ih =>
      obtain ⟨k, v⟩ := head
      simp only [insertEntry]
      split
      case isTrue => simp [lookup]
      case isFalse nlt =>
        split
        case isTrue gt =>
          simp only [lookup, ih]
          by_cases hk : k = other
          · have : key ≠ other := fun e => String.lt_irrefl k (by rw [← e] at hk; exact hk ▸ gt)
            simp [hk, this]
          · simp [hk]
        case isFalse ngt =>
          obtain rfl := eq_of_not_lt nlt ngt
          by_cases h : key = other <;> simp [lookup, h]

theorem find?_insert (d : Dictionary β) (key : String) (value : β) (other : String) :
    (d.insert key value).find? other = if key = other then some value else d.find? other :=
  lookup_insertEntry key value other

theorem lookup_filter_ne {entries : List (String × β)} (key other : String) :
    lookup other (entries.filter (fun e => e.1 != key)) =
      if key = other then none else lookup other entries := by
  induction entries with
  | nil => simp [lookup]
  | cons head rest ih =>
      obtain ⟨k, v⟩ := head
      by_cases hk : k = key
      · subst hk
        simp only [bne_self_eq_false, Bool.false_eq_true, not_false_eq_true, List.filter_cons_of_neg,
          ih, lookup]
        by_cases h : k = other <;> simp [h]
      · have hne : (k != key) = true := by simpa using hk
        simp only [List.filter_cons, hne, if_true, lookup, ih]
        by_cases h : key = other
        · subst h; simp [hk]
        · simp [h]

theorem find?_erase (d : Dictionary β) (key other : String) :
    (d.erase key).find? other = if key = other then none else d.find? other :=
  lookup_filter_ne key other

theorem lookup_eq_none_of_lt {entries : List (String × β)} {key : String}
    (h : ∀ e ∈ entries, key < e.1) : lookup key entries = none := by
  induction entries with
  | nil => rfl
  | cons head rest ih =>
      obtain ⟨k, v⟩ := head
      have hk : key < k := h (k, v) (by simp)
      have hne : k ≠ key := fun e => String.lt_irrefl key (e ▸ hk)
      simpa [lookup, hne] using ih fun e he => h e (List.mem_cons_of_mem _ he)

theorem mem_entries_iff {d : Dictionary β} {key : String} {value : β} :
    (key, value) ∈ d.entries ↔ d.find? key = some value := by
  obtain ⟨entries, asc⟩ := d
  unfold find?
  induction entries with
  | nil => simp [lookup]
  | cons head rest ih =>
      obtain ⟨k, v⟩ := head
      have hk := List.pairwise_cons.1 asc
      by_cases h : k = key
      · subst h
        simp only [List.mem_cons, Prod.mk.injEq, true_and, lookup, if_true, Option.some.injEq]
        constructor
        · rintro (rfl | h)
          · rfl
          · exact absurd (hk.1 _ h) (String.lt_irrefl _)
        · rintro rfl
          exact Or.inl rfl
      · have hne : ¬ key = k := fun e => h e.symm
        simp only [List.mem_cons, Prod.mk.injEq, hne, false_and, false_or, lookup, h, if_false]
        exact ih hk.2

theorem find?_filter (d : Dictionary β) (p : String → β → Bool) (key : String) :
    (d.filter p).find? key = (d.find? key).filter (p key) := by
  apply Option.ext
  intro v
  rw [← mem_entries_iff, Option.filter_eq_some_iff, ← mem_entries_iff]
  exact List.mem_filter

theorem find?_map (d : Dictionary β) (f : β → γ) (key : String) :
    (d.map f).find? key = (d.find? key).map f := by
  apply Option.ext
  intro v
  rw [← mem_entries_iff, Option.map_eq_some_iff]
  simp only [map, List.mem_map, Prod.mk.injEq, Prod.exists, ← mem_entries_iff]
  constructor
  · rintro ⟨k, w, hmem, rfl, rfl⟩
    exact ⟨w, hmem, rfl⟩
  · rintro ⟨w, hmem, rfl⟩
    exact ⟨key, w, hmem, rfl, rfl⟩

theorem find?_filterMap (d : Dictionary β) (f : β → Option γ) (key : String) :
    (d.filterMap f).find? key = (d.find? key).bind f := by
  apply Option.ext
  intro v
  rw [← mem_entries_iff, Option.bind_eq_some_iff]
  simp only [filterMap, List.mem_filterMap, Option.map_eq_some_iff, Prod.mk.injEq, Prod.exists,
    ← mem_entries_iff]
  constructor
  · rintro ⟨k, w, hmem, _, hf, rfl, rfl⟩
    exact ⟨w, hmem, hf⟩
  · rintro ⟨w, hmem, hf⟩
    exact ⟨key, w, hmem, v, hf, rfl, rfl⟩

/-- Dictionaries with the same look-ups are the same. -/
theorem ext_find? {a b : Dictionary β} (h : ∀ key, a.find? key = b.find? key) : a = b := by
  obtain ⟨xs, hx⟩ := a
  obtain ⟨ys, hy⟩ := b
  congr
  unfold find? at h
  simp only at h
  induction xs generalizing ys with
  | nil =>
      cases ys with
      | nil => rfl
      | cons y ys => simpa [lookup] using h y.1
  | cons x xs ih =>
      obtain ⟨k, v⟩ := x
      cases ys with
      | nil => simpa [lookup] using h k
      | cons y ys =>
          obtain ⟨k', v'⟩ := y
          have hxs := List.pairwise_cons.1 hx
          have hys := List.pairwise_cons.1 hy
          have hkk : k = k' := by
            refine eq_of_not_lt (fun lt => ?_) (fun lt => ?_)
            · have hn : lookup k ((k', v') :: ys) = none := by
                refine lookup_eq_none_of_lt fun e he => ?_
                rcases List.mem_cons.1 he with rfl | he
                · exact lt
                · exact String.lt_trans lt (hys.1 e he)
              have := h k
              rw [hn] at this
              simp [lookup] at this
            · have hn : lookup k' ((k, v) :: xs) = none := by
                refine lookup_eq_none_of_lt fun e he => ?_
                rcases List.mem_cons.1 he with rfl | he
                · exact lt
                · exact String.lt_trans lt (hxs.1 e he)
              have := h k'
              rw [hn] at this
              simp [lookup] at this
          subst hkk
          have hv : v = v' := by simpa [lookup] using h k
          subst hv
          congr 1
          refine ih hxs.2 ys hys.2 fun key => ?_
          by_cases hk : k = key
          · subst hk
            rw [lookup_eq_none_of_lt hxs.1, lookup_eq_none_of_lt hys.1]
          · simpa [lookup, hk] using h key

end Dictionary
end CmInventory
