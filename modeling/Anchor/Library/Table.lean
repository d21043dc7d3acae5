import Mathlib

/-!
# Tables with a primary key

A table is a list of rows no two of which have the same key.  Statements are described
by the rows that the table has afterwards.
-/

structure Table {ρ κ : Type*} (key : ρ → κ) where
  rows : List ρ
  nodup : (rows.map key).Nodup

namespace Table

variable {ρ κ : Type*} {key : ρ → κ}

instance : Membership ρ (Table key) := ⟨fun t r => r ∈ t.rows⟩

variable {t : Table key} {r : ρ}

theorem mem_def : r ∈ t ↔ r ∈ t.rows := Iff.rfl

instance [DecidableEq ρ] (t : Table key) (r : ρ) : Decidable (r ∈ t) :=
  inferInstanceAs (Decidable (r ∈ t.rows))

def empty : Table key := ⟨[], List.nodup_nil⟩

@[simp] theorem not_mem_empty (r : ρ) : r ∉ (empty : Table key) := List.not_mem_nil

theorem eq_of_key_eq {r r' : ρ} (hr : r ∈ t) (hr' : r' ∈ t)
    (h : key r = key r') : r = r' :=
  List.inj_on_of_nodup_map t.nodup hr hr' h

def delete (t : Table key) (p : ρ → Bool) : Table key :=
  ⟨t.rows.filter fun r => !p r, (List.filter_sublist.map key).nodup t.nodup⟩

@[simp] theorem mem_delete {p : ρ → Bool} :
    r ∈ t.delete p ↔ r ∈ t ∧ p r = false := by
  simp [delete, mem_def]

def update (t : Table key) (f : ρ → ρ) (hf : ∀ r, key (f r) = key r) : Table key :=
  ⟨t.rows.map f, by
    have hkey : key ∘ f = key := funext hf
    rw [List.map_map, hkey]
    exact t.nodup⟩

@[simp] theorem mem_update {f : ρ → ρ} {hf : ∀ r, key (f r) = key r} :
    r ∈ t.update f hf ↔ ∃ s ∈ t, f s = r := by
  simp [update, mem_def]

variable [DecidableEq κ]

def find? (t : Table key) (k : κ) : Option ρ := t.rows.find? fun r => key r = k

theorem find?_eq_some {k : κ} : t.find? k = some r ↔ r ∈ t ∧ key r = k := by
  constructor
  · intro h
    exact ⟨List.mem_of_find?_eq_some h, by simpa using List.find?_some h⟩
  · rintro ⟨hr, rfl⟩
    cases h : t.find? (key r) with
    | none =>
      have hnone := List.find?_eq_none.mp h r hr
      simp at hnone
    | some r' =>
      have hkey : key r' = key r := by simpa using List.find?_some h
      rw [eq_of_key_eq (List.mem_of_find?_eq_some h) hr hkey]

theorem find?_eq_none {k : κ} : t.find? k = none ↔ ∀ r ∈ t, key r ≠ k := by
  simp [find?, mem_def]

theorem nodup_append_row (h : t.find? (key r) = none) :
    ((t.rows ++ [r]).map key).Nodup := by
  rw [List.map_append, List.nodup_append]
  refine ⟨t.nodup, by simp, ?_⟩
  intro k hk k' hk'
  obtain ⟨s, hs, rfl⟩ := List.mem_map.mp hk
  obtain rfl : k' = key r := by simpa using hk'
  exact find?_eq_none.mp h s hs

/-- `INSERT OR IGNORE`: a row whose key is taken is not inserted. -/
def insertOrIgnore (t : Table key) (r : ρ) : Table key :=
  if h : t.find? (key r) = none then ⟨t.rows ++ [r], nodup_append_row h⟩ else t

theorem mem_insertOrIgnore {r s : ρ} :
    s ∈ t.insertOrIgnore r ↔ s ∈ t ∨ s = r ∧ t.find? (key r) = none := by
  unfold insertOrIgnore
  split
  · rename_i h
    simp [mem_def, h]
  · rename_i h
    simp [h]

theorem isSome_find?_insertOrIgnore (t : Table key) (r : ρ) :
    ((t.insertOrIgnore r).find? (key r)).isSome = true := by
  cases h : t.find? (key r) with
  | none =>
    exact Option.isSome_iff_exists.mpr
      ⟨r, find?_eq_some.mpr ⟨mem_insertOrIgnore.mpr (Or.inr ⟨rfl, h⟩), rfl⟩⟩
  | some s => simp [insertOrIgnore, h]

/-- `INSERT`, which fails when the key is taken. -/
def insert? (t : Table key) (r : ρ) : Option (Table key) :=
  if t.find? (key r) = none then some (t.insertOrIgnore r) else none

theorem insert?_eq_some {t t' : Table key} (h : t.insert? r = some t') :
    t.find? (key r) = none ∧ t' = t.insertOrIgnore r := by
  unfold insert? at h
  split at h
  · rename_i hnone
    exact ⟨hnone, (Option.some.inj h).symm⟩
  · cases h

theorem mem_of_insert? {t t' : Table key} {r s : ρ} (h : t.insert? r = some t') :
    s ∈ t' ↔ s ∈ t ∨ s = r := by
  obtain ⟨hnone, rfl⟩ := insert?_eq_some h
  simp [mem_insertOrIgnore, hnone]

/-- `INSERT … ON CONFLICT DO UPDATE`. -/
def upsert (t : Table key) (r : ρ) (f : ρ → ρ) (hf : ∀ s, key (f s) = key s) : Table key :=
  if t.find? (key r) = none then t.insertOrIgnore r
  else t.update (fun s => if key s = key r then f s else s) fun s => by
    split
    · exact hf s
    · rfl

theorem find?_upsert_self (t : Table key) (r : ρ) (f : ρ → ρ) (hf : ∀ s, key (f s) = key s) :
    (t.upsert r f hf).find? (key r) = some ((t.find? (key r)).elim r f) := by
  rw [find?_eq_some]
  cases h : t.find? (key r) with
  | none => simp [upsert, h, mem_insertOrIgnore]
  | some s =>
    obtain ⟨hs, hkey⟩ := find?_eq_some.mp h
    refine ⟨?_, (hf s).trans hkey⟩
    simp only [upsert, h, reduceCtorEq, if_false, mem_update, Option.elim_some]
    exact ⟨s, hs, if_pos hkey⟩

theorem find?_upsert_of_ne {f : ρ → ρ} {hf : ∀ s, key (f s) = key s} {k : κ}
    (hk : k ≠ key r) : (t.upsert r f hf).find? k = t.find? k := by
  apply Option.ext
  intro s
  rw [find?_eq_some, find?_eq_some]
  unfold upsert
  split
  · rename_i h
    rw [mem_insertOrIgnore]
    constructor
    · rintro ⟨hs | ⟨rfl, -⟩, rfl⟩
      · exact ⟨hs, rfl⟩
      · exact absurd rfl hk
    · rintro ⟨hs, rfl⟩
      exact ⟨Or.inl hs, rfl⟩
  · rw [mem_update]
    constructor
    · rintro ⟨⟨s', hs', rfl⟩, hkey⟩
      by_cases h : key s' = key r
      · rw [if_pos h, hf, h] at hkey
        exact absurd hkey.symm hk
      · rw [if_neg h] at hkey ⊢
        exact ⟨hs', hkey⟩
    · rintro ⟨hs, rfl⟩
      exact ⟨⟨s, hs, if_neg hk⟩, rfl⟩

end Table
