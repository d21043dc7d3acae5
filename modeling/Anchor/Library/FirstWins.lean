import Anchor.Library.Table

/-!
# The first entry of each key

Entries are taken one by one.  An entry that resolves to a value is kept unless an
earlier one with its key was kept, so every key ends up with the value of its first
entry that resolves.
-/

theorem Table.length_filter_le {ρ κ : Type*} {key : ρ → κ} (t : Table key) (p : ρ → Bool)
    (keys : List κ) (h : ∀ r ∈ t.rows, p r = true → key r ∈ keys) :
    (t.rows.filter p).length ≤ keys.length := by
  have hnodup : ((t.rows.filter p).map key).Nodup :=
    (List.filter_sublist.map key).nodup t.nodup
  have hsubset : (t.rows.filter p).map key ⊆ keys := by
    intro k hk
    obtain ⟨r, hr, rfl⟩ := List.mem_map.mp hk
    exact h r (List.mem_filter.mp hr).1 (List.mem_filter.mp hr).2
  have hle := (hnodup.subperm hsubset).length_le
  rwa [List.length_map] at hle

namespace FirstWins

variable {α κ ν : Type*} [DecidableEq κ] (keyOf : α → κ) (resolve : α → Option ν)

def step (t : Table (Prod.fst : κ × ν → κ)) (entry : α) : Table (Prod.fst : κ × ν → κ) :=
  match resolve entry with
  | none => t
  | some value => t.insertOrIgnore (keyOf entry, value)

def collect (entries : List α) : Table (Prod.fst : κ × ν → κ) :=
  entries.foldl (step keyOf resolve) Table.empty

/-- The value is that of the first entry with the key that resolves. -/
def First (entries : List α) (k : κ) (value : ν) : Prop :=
  ∃ before entry after, entries = before ++ entry :: after ∧ keyOf entry = k ∧
    resolve entry = some value ∧ ∀ e ∈ before, keyOf e = k → resolve e = none

variable {keyOf resolve} {entries : List α} {entry : α} {k : κ} {value : ν}

omit [DecidableEq κ] in
theorem exists_first_iff : (∃ value, First keyOf resolve entries k value) ↔
    ∃ e ∈ entries, keyOf e = k ∧ (resolve e).isSome = true := by
  constructor
  · rintro ⟨value, before, e, after, rfl, hkey, hresolve, -⟩
    exact ⟨e, by simp, hkey, by simp [hresolve]⟩
  · rintro ⟨e, he, hkey, hsome⟩
    induction entries with
    | nil => cases he
    | cons head rest ih =>
      by_cases hhead : keyOf head = k ∧ (resolve head).isSome = true
      · obtain ⟨value, hvalue⟩ := Option.isSome_iff_exists.mp hhead.2
        exact ⟨value, [], head, rest, rfl, hhead.1, hvalue, by simp⟩
      · rcases List.mem_cons.mp he with rfl | he
        · exact absurd ⟨hkey, hsome⟩ hhead
        obtain ⟨value, before, e', after, rfl, hkey', hvalue, hbefore⟩ := ih he
        refine ⟨value, head :: before, e', after, rfl, hkey', hvalue, fun x hx hk => ?_⟩
        rcases List.mem_cons.mp hx with rfl | hx
        · exact Option.not_isSome_iff_eq_none.mp fun h => hhead ⟨hk, h⟩
        · exact hbefore x hx hk

omit [DecidableEq κ] in
theorem first_concat : First keyOf resolve (entries ++ [entry]) k value ↔
    First keyOf resolve entries k value ∨
      keyOf entry = k ∧ resolve entry = some value ∧
        ¬ ∃ v, First keyOf resolve entries k v := by
  rw [exists_first_iff]
  constructor
  · rintro ⟨before, e, after, heq, hkey, hresolve, hbefore⟩
    rcases List.eq_nil_or_concat after with rfl | ⟨after', last, rfl⟩
    · obtain ⟨rfl, hlast⟩ := List.append_inj' heq rfl
      cases hlast
      refine Or.inr ⟨hkey, hresolve, ?_⟩
      rintro ⟨x, hx, hk, hsome⟩
      rw [hbefore x hx hk] at hsome
      cases hsome
    · have hsplit : entries ++ [entry] = (before ++ e :: after') ++ [last] := by simpa using heq
      obtain ⟨rfl, -⟩ := List.append_inj' hsplit rfl
      exact Or.inl ⟨before, e, after', rfl, hkey, hresolve, hbefore⟩
  · rintro (⟨before, e, after, rfl, hkey, hresolve, hbefore⟩ | ⟨hkey, hresolve, hnone⟩)
    · exact ⟨before, e, after ++ [entry], by simp, hkey, hresolve, hbefore⟩
    · refine ⟨entries, entry, [], rfl, hkey, hresolve, fun x hx hk => ?_⟩
      exact Option.not_isSome_iff_eq_none.mp fun h => hnone ⟨x, hx, hk, h⟩

theorem mem_step {t : Table (Prod.fst : κ × ν → κ)} : (k, value) ∈ step keyOf resolve t entry ↔
    (k, value) ∈ t ∨ keyOf entry = k ∧ resolve entry = some value ∧ ¬ ∃ v, (k, v) ∈ t := by
  have hnone : t.find? (keyOf entry) = none ↔ ¬ ∃ v, (keyOf entry, v) ∈ t := by
    rw [Table.find?_eq_none]
    constructor
    · rintro h ⟨v, hv⟩
      exact h _ hv rfl
    · rintro h ⟨k', v⟩ hr rfl
      exact h ⟨v, hr⟩
  unfold step
  cases hresolve : resolve entry with
  | none => simp
  | some v =>
    rw [Table.mem_insertOrIgnore, hnone, Prod.mk.injEq, Option.some.injEq]
    constructor
    · rintro (h | ⟨⟨rfl, rfl⟩, h⟩)
      · exact Or.inl h
      · exact Or.inr ⟨rfl, rfl, h⟩
    · rintro (h | ⟨rfl, rfl, h⟩)
      · exact Or.inl h
      · exact Or.inr ⟨⟨rfl, rfl⟩, h⟩

theorem mem_collect_iff :
    (k, value) ∈ collect keyOf resolve entries ↔ First keyOf resolve entries k value := by
  induction entries using List.reverseRecOn generalizing value with
  | nil =>
    refine iff_of_false (Table.not_mem_empty _) ?_
    rintro ⟨before, e, after, h, -⟩
    simp at h
  | append_singleton entries entry ih =>
    have hstep : collect keyOf resolve (entries ++ [entry]) =
        step keyOf resolve (collect keyOf resolve entries) entry := by
      rw [collect, List.foldl_append]
      rfl
    have hexists : (∃ v, (k, v) ∈ collect keyOf resolve entries) ↔
        ∃ v, First keyOf resolve entries k v := exists_congr fun v => ih
    rw [hstep, mem_step, first_concat, ih, hexists]

theorem existsUnique_mem_collect_iff :
    (∃! value, (k, value) ∈ collect keyOf resolve entries) ↔
      ∃ e ∈ entries, keyOf e = k ∧ (resolve e).isSome = true := by
  rw [← exists_first_iff]
  constructor
  · rintro ⟨value, hvalue, -⟩
    exact ⟨value, mem_collect_iff.mp hvalue⟩
  · rintro ⟨value, hvalue⟩
    refine ⟨value, mem_collect_iff.mpr hvalue, fun value' hvalue' => ?_⟩
    exact congrArg Prod.snd (Table.eq_of_key_eq hvalue' (mem_collect_iff.mpr hvalue) rfl)

end FirstWins
