import DocumentHost.NameTable

/-!
# Entries of a table

What is found under a name is an entry of the table, and it is still found when entries are
taken out but not that one.
-/

namespace DocumentHost.NameTable

variable {α : Type}

theorem mem_of_findEntry {name : String} {value : α} {entries : List (String × α)}
    (found : findEntry name entries = some value) : (name, value) ∈ entries := by
  induction entries with
  | nil => cases found
  | cons entry rest ih =>
      obtain ⟨known, held⟩ := entry
      rw [findEntry] at found
      by_cases here : name = known
      · rw [if_pos here] at found
        cases found
        rw [here]
        exact List.mem_cons_self
      · rw [if_neg here] at found
        exact List.mem_cons_of_mem _ (ih found)

theorem findEntry_eq_none_iff {name : String} {entries : List (String × α)} :
    findEntry name entries = none ↔ ∀ value, (name, value) ∉ entries := by
  constructor
  · intro absent value member
    induction entries with
    | nil => cases member
    | cons entry rest ih =>
        rw [findEntry] at absent
        by_cases here : name = entry.1
        · rw [if_pos here] at absent
          cases absent
        · rw [if_neg here] at absent
          rcases List.mem_cons.1 member with isEntry | inRest
          · exact here (congrArg Prod.fst isEntry)
          · exact ih absent inRest
  · intro noEntry
    cases found : findEntry name entries with
    | none => rfl
    | some value => exact absurd (mem_of_findEntry found) (noEntry value)

/-- Entries behind an insertion: the new one, and none that was not there. -/
theorem eq_or_mem_of_mem_insertEntry {name other : String} {value held : α}
    {entries : List (String × α)} (member : (other, held) ∈ insertEntry name value entries) :
    (other = name ∧ held = value) ∨ (other, held) ∈ entries := by
  induction entries with
  | nil =>
      rw [insertEntry, List.mem_singleton] at member
      cases member
      exact .inl ⟨rfl, rfl⟩
  | cons entry rest ih =>
      obtain ⟨known, present⟩ := entry
      rw [insertEntry] at member
      by_cases here : name = known
      · rw [if_pos here] at member
        rcases List.mem_cons.1 member with new | old
        · cases new
          exact .inl ⟨here.symm, rfl⟩
        · exact .inr (List.mem_cons_of_mem _ old)
      · rw [if_neg here] at member
        rcases List.mem_cons.1 member with first | old
        · exact .inr (first ▸ List.mem_cons_self)
        · exact (ih old).imp_right (List.mem_cons_of_mem _)

/-- What is found is found after a selection that it passes. -/
theorem findEntry_filter_of_keep {name : String} {value : α} {entries : List (String × α)}
    (keep : α → Bool) (found : findEntry name entries = some value) (passes : keep value = true) :
    findEntry name (entries.filter fun entry => keep entry.2) = some value := by
  induction entries with
  | nil => cases found
  | cons entry rest ih =>
      obtain ⟨known, held⟩ := entry
      rw [findEntry] at found
      by_cases here : name = known
      · rw [if_pos here] at found
        cases found
        rw [List.filter_cons, if_pos passes, findEntry, if_pos here]
      · rw [if_neg here] at found
        rw [List.filter_cons]
        split
        · rw [findEntry, if_neg here]
          exact ih found
        · exact ih found

/-! ## Distinct names -/

theorem map_fst_insertEntry (name : String) (value : α) (entries : List (String × α)) :
    (insertEntry name value entries).map Prod.fst =
      if name ∈ entries.map Prod.fst then entries.map Prod.fst
      else entries.map Prod.fst ++ [name] := by
  induction entries with
  | nil => rfl
  | cons entry rest ih =>
      obtain ⟨known, held⟩ := entry
      rw [insertEntry]
      by_cases here : name = known
      · simp [here]
      · rw [if_neg here, List.map_cons, ih, List.map_cons]
        by_cases member : name ∈ rest.map Prod.fst
        · rw [if_pos member, if_pos (List.mem_cons_of_mem _ member)]
        · rw [if_neg member, if_neg (by simpa [here] using member), List.cons_append]

variable {table : NameTable α}

theorem nodup_insert (distinct : table.names.Nodup) (name : String) (value : α) :
    (table.insert name value).names.Nodup := by
  rw [names, insert, map_fst_insertEntry]
  split
  · exact distinct
  · next absent =>
      refine List.nodup_append.2 ⟨distinct, by simp, fun known member other isName same => ?_⟩
      rw [same, List.mem_singleton.1 isName] at member
      exact absent member

theorem nodup_retain (distinct : table.names.Nodup) (keep : α → Bool) :
    (table.retain keep).names.Nodup :=
  distinct.sublist (List.filter_sublist.map _)

theorem nodup_erase (distinct : table.names.Nodup) (name : String) :
    (table.erase name).names.Nodup :=
  distinct.sublist (List.filter_sublist.map _)

end DocumentHost.NameTable
