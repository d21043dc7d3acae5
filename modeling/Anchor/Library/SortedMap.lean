import Mathlib

/-!
# Maps kept in key order

A finite map as the list of its entries in strictly increasing key order, with
the two operations an ordered map is used for here: updating one entry, and
walking through the entries from a key on.
-/

/-- The entries of a finite map, in strictly increasing key order. -/
structure SortedMap (κ ν : Type*) [LinearOrder κ] where
  entries : List (κ × ν)
  sorted : entries.Pairwise (fun a b => a.1 < b.1)

namespace SortedMap

variable {κ ν : Type*} [LinearOrder κ]

def empty : SortedMap κ ν := ⟨[], List.Pairwise.nil⟩

def lookup (k : κ) : List (κ × ν) → Option ν
  | [] => none
  | (k', v) :: es => if k = k' then some v else lookup k es

def get? (m : SortedMap κ ν) (k : κ) : Option ν := lookup k m.entries

def upsertList (k : κ) (f : Option ν → ν) : List (κ × ν) → List (κ × ν)
  | [] => [(k, f none)]
  | (k', v) :: es =>
    if k < k' then (k, f none) :: (k', v) :: es
    else if k = k' then (k, f (some v)) :: es
    else (k', v) :: upsertList k f es

variable {k : κ} {es : List (κ × ν)} {e : κ × ν}

theorem mem_upsertList {f : Option ν → ν}
    (h : e ∈ upsertList k f es) : e.1 = k ∨ e ∈ es := by
  induction es with
  | nil =>
    have he : e = (k, f none) := by simpa [upsertList] using h
    exact Or.inl (congrArg Prod.fst he)
  | cons d es ih =>
    obtain ⟨k', v⟩ := d
    simp only [upsertList] at h
    split at h
    · rcases List.mem_cons.mp h with rfl | h
      · exact Or.inl rfl
      · exact Or.inr h
    · split at h
      · rcases List.mem_cons.mp h with rfl | h
        · exact Or.inl rfl
        · exact Or.inr (List.mem_cons_of_mem _ h)
      · rcases List.mem_cons.mp h with rfl | h
        · exact Or.inr (by simp)
        · rcases ih h with hk | hm
          · exact Or.inl hk
          · exact Or.inr (List.mem_cons_of_mem _ hm)

theorem sorted_upsertList (k : κ) (f : Option ν → ν)
    (h : es.Pairwise (fun a b => a.1 < b.1)) :
    (upsertList k f es).Pairwise (fun a b => a.1 < b.1) := by
  induction es with
  | nil => simp [upsertList]
  | cons d es ih =>
    obtain ⟨k', v⟩ := d
    obtain ⟨hhead, htail⟩ := List.pairwise_cons.mp h
    simp only [upsertList]
    split
    · rename_i hlt
      refine List.pairwise_cons.mpr ⟨?_, h⟩
      intro e he
      rcases List.mem_cons.mp he with rfl | he
      · exact hlt
      · exact hlt.trans (hhead e he)
    · split
      · rename_i _ heq
        subst heq
        exact List.pairwise_cons.mpr ⟨hhead, htail⟩
      · rename_i hnlt hne
        have hlt : k' < k := lt_of_le_of_ne (not_lt.mp hnlt) (Ne.symm hne)
        refine List.pairwise_cons.mpr ⟨?_, ih htail⟩
        intro e he
        rcases mem_upsertList he with hk | hm
        · simpa [hk] using hlt
        · exact hhead e hm

def upsert (m : SortedMap κ ν) (k : κ) (f : Option ν → ν) : SortedMap κ ν :=
  ⟨upsertList k f m.entries, sorted_upsertList k f m.sorted⟩

def range (m : SortedMap κ ν) (start : κ) : List (κ × ν) :=
  m.entries.filter (fun e => start ≤ e.1)

theorem lookup_eq_none_of_lt (h : ∀ e ∈ es, k < e.1) :
    lookup k es = none := by
  induction es with
  | nil => rfl
  | cons d es ih =>
    have hne : k ≠ d.1 := (h d (by simp)).ne
    simp only [lookup, if_neg hne]
    exact ih fun e he => h e (List.mem_cons_of_mem _ he)

theorem lookup_upsertList_self (k : κ) (f : Option ν → ν)
    (h : es.Pairwise (fun a b => a.1 < b.1)) :
    lookup k (upsertList k f es) = some (f (lookup k es)) := by
  induction es with
  | nil => simp [upsertList, lookup]
  | cons d es ih =>
    obtain ⟨k', v⟩ := d
    obtain ⟨hhead, htail⟩ := List.pairwise_cons.mp h
    simp only [upsertList]
    split
    · rename_i hlt
      have hnone : lookup k ((k', v) :: es) = none := by
        apply lookup_eq_none_of_lt
        intro e he
        rcases List.mem_cons.mp he with rfl | he
        · exact hlt
        · exact hlt.trans (hhead e he)
      rw [hnone]
      simp [lookup]
    · split
      · rename_i _ heq
        simp [lookup, heq]
      · rename_i _ hne
        simp [lookup, hne, ih htail]

theorem lookup_upsertList_ne {k j : κ} (hne : j ≠ k) (f : Option ν → ν) (es : List (κ × ν)) :
    lookup j (upsertList k f es) = lookup j es := by
  induction es with
  | nil => simp [upsertList, lookup, hne]
  | cons d es ih =>
    obtain ⟨k', v⟩ := d
    simp only [upsertList]
    split
    · simp [lookup, hne]
    · split
      · rename_i _ heq
        subst heq
        simp [lookup, hne]
      · simp [lookup, ih]

@[simp] theorem get?_empty (k : κ) : (empty : SortedMap κ ν).get? k = none := rfl

@[simp] theorem get?_upsert_self (m : SortedMap κ ν) (k : κ) (f : Option ν → ν) :
    (m.upsert k f).get? k = some (f (m.get? k)) :=
  lookup_upsertList_self k f m.sorted

theorem get?_upsert_ne (m : SortedMap κ ν) {k j : κ} (hne : j ≠ k) (f : Option ν → ν) :
    (m.upsert k f).get? j = m.get? j :=
  lookup_upsertList_ne hne f m.entries

theorem lookup_of_mem (hs : es.Pairwise (fun a b => a.1 < b.1)) (h : e ∈ es) : lookup e.1 es = some
    e.2 := by
  induction es with
  | nil => cases h
  | cons d es ih =>
    obtain ⟨hhead, htail⟩ := List.pairwise_cons.mp hs
    rcases List.mem_cons.mp h with rfl | h
    · simp [lookup]
    · have hne : e.1 ≠ d.1 := (hhead e h).ne'
      simp only [lookup, if_neg hne]
      exact ih htail h

theorem mem_of_lookup {v : ν} (h : lookup k es = some v) :
    (k, v) ∈ es := by
  induction es with
  | nil => cases h
  | cons d es ih =>
    obtain ⟨k', v'⟩ := d
    simp only [lookup] at h
    split_ifs at h with hk
    · cases h
      exact hk ▸ List.mem_cons_self
    · exact List.mem_cons_of_mem _ (ih h)

variable {m : SortedMap κ ν}

theorem get?_eq_some_iff {v : ν} :
    m.get? k = some v ↔ (k, v) ∈ m.entries :=
  ⟨mem_of_lookup, fun h => lookup_of_mem m.sorted h⟩

theorem mem_upsert
    {f : Option ν → ν} (he : e ∈ (m.upsert k f).entries) :
    e ∈ m.entries ∧ e.1 ≠ k ∨ e = (k, f (m.get? k)) := by
  by_cases hk : e.1 = k
  · obtain ⟨i, v⟩ := e
    cases hk
    have hget := get?_eq_some_iff.mpr he
    rw [get?_upsert_self] at hget
    exact Or.inr (by rw [Option.some.inj hget])
  · rcases mem_upsertList he with h | h
    · exact absurd h hk
    · exact Or.inl ⟨h, hk⟩

def retain (m : SortedMap κ ν) (keep : κ → ν → Bool) : SortedMap κ ν :=
  ⟨m.entries.filter fun e => keep e.1 e.2, m.sorted.filter _⟩

theorem get?_retain (m : SortedMap κ ν) (keep : κ → ν → Bool) (k : κ) :
    (m.retain keep).get? k = (m.get? k).filter (keep k) := by
  ext v
  rw [get?_eq_some_iff, Option.filter_eq_some_iff, get?_eq_some_iff]
  exact List.mem_filter

theorem nodup_keys (m : SortedMap κ ν) : (m.entries.map Prod.fst).Nodup :=
  List.pairwise_map.mpr (m.sorted.imp fun h => h.ne)

theorem get?_of_mem_range {start : κ} (h : e ∈ m.range start) :
    m.get? e.1 = some e.2 ∧ start ≤ e.1 := by
  obtain ⟨he, hle⟩ := List.mem_filter.mp h
  exact ⟨lookup_of_mem m.sorted he, by simpa using hle⟩

theorem head_range_le {start : κ} {e d : κ × ν}
    (h : m.range start = e :: es) (hd : d ∈ m.range start) : e.1 ≤ d.1 := by
  have hs : (m.range start).Pairwise (fun a b => a.1 < b.1) := m.sorted.filter _
  rw [h] at hs hd
  rcases List.mem_cons.mp hd with rfl | hd
  · exact le_rfl
  · exact ((List.pairwise_cons.mp hs).1 d hd).le

end SortedMap
