import DocumentHost.Arena
import Mathlib.Data.List.Basic

/-!
# Objects after a change

What an object that has been made or changed has in common with what was there before, the
identities of no object included.
-/

namespace DocumentHost.Arena

variable {kind : Kind} {α : Type} [Inhabited α]

/-- An object that is not the default has been made. -/
theorem known_of_ne_default {arena : Arena kind α} {id : Identity kind}
    (differs : arena.get id ≠ default) : id.index < arena.size := by
  by_cases known : id.index < arena.size
  · exact known
  · exact absurd (arena.get_of_unknown known) differs

/-- If the object that is changed is related to what it was, each object is. -/
theorem related_modify (Related : α → α → Prop) (refl : ∀ item, Related item item)
    (arena : Arena kind α) (id : Identity kind) {change : α → α}
    (changed : Related (arena.get id) (change (arena.get id))) (other : Identity kind) :
    Related (arena.get other) ((arena.modify id change).get other) := by
  rw [get_modify]
  split
  · rename_i here
    rw [here.1]
    exact changed
  · exact refl _

/-- What a change leaves as it is looks the same in all objects. -/
theorem map_get_modify {β : Type} (look : α → β) (arena : Arena kind α) (id : Identity kind)
    {change : α → α} (same : look (change (arena.get id)) = look (arena.get id))
    (other : Identity kind) : look ((arena.modify id change).get other) = look (arena.get other) :=
  arena.related_modify (fun item after => look after = look item) (fun _ => rfl) id same other

omit [Inhabited α] in
theorem known_add (arena : Arena kind α) (item : α) :
    (arena.add item).1.index < (arena.add item).2.size := by
  simp [add, size]

/-- What is made like the default looks the same as before it was made. -/
theorem map_get_add {β : Type} (look : α → β) (arena : Arena kind α) {item : α}
    (like : look item = look default) (id : Identity kind) :
    look ((arena.add item).2.get id) = look (arena.get id) := by
  rw [get_add]
  split
  · rename_i new
    have unknown : ¬id.index < arena.size := new ▸ Nat.lt_irrefl _
    rw [get_of_unknown _ unknown, like]
  · rfl

/-- An object with a mark that the default does not have was there before. -/
theorem get_add_of_marked {mark : α → Bool} {arena : Arena kind α} {id : Identity kind}
    (marked : mark (arena.get id) = true) (unmarked : mark default = false) (item : α) :
    (arena.add item).2.get id = arena.get id := by
  refine get_add_of_lt _ _ (known_of_ne_default fun absent => ?_)
  rw [absent, unmarked] at marked
  cases marked

end DocumentHost.Arena
