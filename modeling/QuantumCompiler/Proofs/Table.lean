import Mathlib.Data.List.Sort
import Mathlib.Data.String.Basic
import QuantumCompiler.Table

/-!
# Name tables as functions from names

A table is known by what it binds each name to. `get?_insert` and `get?_erase` say
what the two changes do to that view. The list behind a table made by them is
sorted (`Sorted`), so two such tables with the same view are equal (`ext`).
-/

namespace QuantumCompiler.Table

variable {β : Type}

-- ---------------------------------------------------------------------------
-- The view
-- ---------------------------------------------------------------------------

theorem find?_insertEntry (name : String) (value : β) (entries : List (String × β)) (n : String) :
    ((insertEntry name value entries).find? fun e => e.1 = n).map (·.2) =
      if n = name then some value else (entries.find? fun e => e.1 = n).map (·.2) := by
  induction entries with
  | nil =>
    by_cases hn : n = name
    · simp [insertEntry, hn]
    · simp [insertEntry, hn, Ne.symm hn]
  | cons entry rest ih =>
    obtain ⟨key, old⟩ := entry
    rw [insertEntry]
    by_cases hkey : name = key
    · by_cases hn : n = name
      · simp [hkey, hn]
      · simp [hkey, Ne.symm (hkey ▸ hn), hkey ▸ hn]
    · by_cases hlt : name < key
      · by_cases hn : n = name
        · simp [hkey, hlt, hn]
        · simp [hkey, hlt, hn, Ne.symm hn]
      · rw [if_neg hkey, if_neg hlt]
        by_cases hn : n = key
        · simp [hn, Ne.symm hkey]
        · rw [List.find?_cons_of_neg (by simpa using Ne.symm hn),
            List.find?_cons_of_neg (by simpa using Ne.symm hn), ih]

/-- Inserting changes what one name is bound to. -/
theorem get?_insert (t : Table β) (name : String) (value : β) (n : String) :
    (t.insert name value).get? n = if n = name then some value else t.get? n :=
  find?_insertEntry name value t.entries n

/-- Erasing unbinds one name. -/
theorem get?_erase (t : Table β) (name n : String) :
    (t.erase name).get? n = if n = name then none else t.get? n := by
  unfold erase get?
  rw [List.find?_filter]
  by_cases hn : n = name
  · rw [if_pos hn, List.find?_eq_none.mpr, Option.map_none]
    simp [hn]
  · rw [if_neg hn]
    congr 2
    funext e
    by_cases he : e.1 = n
    · simp [he, hn]
    · simp [he]

theorem contains_iff {t : Table β} {name : String} :
    t.contains name = true ↔ ∃ value, t.get? name = some value := by
  rw [contains, Option.isSome_iff_exists]

theorem contains_eq_false_iff {t : Table β} {name : String} :
    t.contains name = false ↔ t.get? name = none := by
  rw [contains, Option.isSome_eq_false_iff, Option.isNone_iff_eq_none]

-- ---------------------------------------------------------------------------
-- Order
-- ---------------------------------------------------------------------------

/-- The names stand in strictly increasing order. -/
def Sorted (t : Table β) : Prop :=
  t.entries.Pairwise fun a b => a.1 < b.1

theorem sorted_empty : (empty : Table β).Sorted :=
  List.Pairwise.nil

theorem mem_insertEntry {name : String} {value : β} {entries : List (String × β)}
    {e : String × β} (h : e ∈ insertEntry name value entries) :
    e = (name, value) ∨ e ∈ entries := by
  induction entries with
  | nil => exact Or.inl (List.mem_singleton.mp h)
  | cons entry rest ih =>
    obtain ⟨key, old⟩ := entry
    rw [insertEntry] at h
    split at h
    · rcases List.mem_cons.mp h with h | h
      · exact Or.inl h
      · exact Or.inr (List.mem_cons_of_mem _ h)
    · split at h
      · exact List.mem_cons.mp h
      · rcases List.mem_cons.mp h with h | h
        · exact Or.inr (h ▸ List.mem_cons_self)
        · exact (ih h).imp_right (List.mem_cons_of_mem _)

theorem Sorted.insert {t : Table β} (h : t.Sorted) (name : String) (value : β) :
    (t.insert name value).Sorted := by
  obtain ⟨entries⟩ := t
  unfold Sorted Table.insert at *
  dsimp only at h ⊢
  induction entries with
  | nil => exact List.pairwise_singleton _ _
  | cons entry rest ih =>
    obtain ⟨key, old⟩ := entry
    obtain ⟨hfirst, hrest⟩ := List.pairwise_cons.mp h
    rw [insertEntry]
    split
    · rename_i hkey
      exact List.pairwise_cons.mpr ⟨hkey ▸ hfirst, hrest⟩
    · rename_i hkey
      split
      · rename_i hlt
        refine List.pairwise_cons.mpr ⟨?_, h⟩
        intro e he
        rcases List.mem_cons.mp he with rfl | he
        · exact hlt
        · exact lt_trans hlt (hfirst e he)
      · rename_i hlt
        refine List.pairwise_cons.mpr ⟨?_, ih hrest⟩
        intro e he
        rcases mem_insertEntry he with rfl | he
        · exact lt_of_le_of_ne (not_lt.mp hlt) (Ne.symm hkey)
        · exact hfirst e he

theorem Sorted.erase {t : Table β} (h : t.Sorted) (name : String) : (t.erase name).Sorted :=
  h.filter _

/-- In a sorted table a binding is what its name is bound to. -/
theorem Sorted.mem_entries_iff {t : Table β} (h : t.Sorted) {name : String} {value : β} :
    (name, value) ∈ t.entries ↔ t.get? name = some value := by
  obtain ⟨entries⟩ := t
  unfold Sorted get? at *
  dsimp only at h ⊢
  induction entries with
  | nil => simp
  | cons entry rest ih =>
    obtain ⟨key, old⟩ := entry
    obtain ⟨hfirst, hrest⟩ := List.pairwise_cons.mp h
    by_cases hkey : key = name
    · subst hkey
      rw [List.find?_cons_of_pos (by simp), List.mem_cons]
      constructor
      · rintro (heq | hmem)
        · rw [← (Prod.mk.inj heq).2]
          rfl
        · exact absurd (hfirst _ hmem) (lt_irrefl _)
      · intro heq
        exact Or.inl (by rw [← Option.some.inj heq])
    · rw [List.find?_cons_of_neg (by simpa using hkey), ← ih hrest, List.mem_cons]
      constructor
      · rintro (heq | hmem)
        · exact absurd (Prod.mk.inj heq).1.symm hkey
        · exact hmem
      · exact Or.inr

/-- Sorted tables that bind all names alike are equal. -/
theorem Sorted.ext {t u : Table β} (ht : t.Sorted) (hu : u.Sorted)
    (h : ∀ name, t.get? name = u.get? name) : t = u := by
  have hmem : ∀ e : String × β, e ∈ t.entries ↔ e ∈ u.entries := by
    rintro ⟨name, value⟩
    rw [ht.mem_entries_iff, hu.mem_entries_iff, h]
  have hnodup : ∀ {v : Table β}, v.Sorted → v.entries.Nodup := by
    intro v hv
    refine List.Pairwise.imp ?_ hv
    rintro a b hlt rfl
    exact lt_irrefl _ hlt
  have hperm := (List.perm_ext_iff_of_nodup (hnodup ht) (hnodup hu)).mpr hmem
  have hentries : t.entries = u.entries :=
    hperm.eq_of_pairwise (fun a b _ _ hab hba => absurd hba (lt_asymm hab)) ht hu
  cases t
  cases u
  exact congrArg Table.mk hentries

theorem Sorted.mem_names_iff {t : Table β} (h : t.Sorted) {name : String} :
    name ∈ t.names ↔ t.contains name = true := by
  rw [contains_iff]
  constructor
  · intro hname
    obtain ⟨⟨_, value⟩, hmem, rfl⟩ := List.mem_map.mp hname
    exact ⟨value, h.mem_entries_iff.mp hmem⟩
  · rintro ⟨value, hvalue⟩
    exact List.mem_map.mpr ⟨(name, value), h.mem_entries_iff.mpr hvalue, rfl⟩

/-- Sorted tables that bind the same names list them alike, whatever they bind them to. -/
theorem Sorted.names_eq {γ : Type} {t : Table β} {u : Table γ} (ht : t.Sorted) (hu : u.Sorted)
    (h : ∀ name, t.contains name = u.contains name) : t.names = u.names := by
  have hmem : ∀ name, name ∈ t.names ↔ name ∈ u.names := by
    intro name
    rw [ht.mem_names_iff, hu.mem_names_iff, h]
  exact (List.pairwise_map.mpr ht).eq_of_mem_iff (List.pairwise_map.mpr hu) hmem

end QuantumCompiler.Table
