import Ioscpp.Support.Bytes

/-!
# Ordered maps as sorted lists

An ordered map is the list of its entries with strictly increasing keys, which
is also the order an iterator walks it in.  `emplace` inserts an entry unless
its key is there.  Emplacing the entries of a sorted list one by one gives the
list back.

## Main results

- `sorted_emplace`: emplacing keeps the keys increasing.
- `ofEntries_of_sorted`: the entries of a map give it back.
-/

namespace Ioscpp.Support

namespace SortedMap

variable {κ β γ : Type} [LinearOrder κ]

/-- Inserts an entry, unless the key already has one. -/
def emplace (key : κ) (value : β) : List (κ × β) → List (κ × β)
  | [] => [(key, value)]
  | entry :: rest =>
      if key < entry.1 then (key, value) :: entry :: rest
      else if entry.1 < key then entry :: emplace key value rest
      else entry :: rest

/-- The value at a key. -/
def find (key : κ) : List (κ × β) → Option β
  | [] => none
  | entry :: rest => if entry.1 = key then some entry.2 else find key rest

/-- The map of a list of entries, emplaced in order. -/
def ofEntries (entries : List (κ × β)) : List (κ × β) :=
  entries.foldl (fun map entry => emplace entry.1 entry.2 map) []

/-- The keys strictly increase. -/
def Sorted (entries : List (κ × β)) : Prop :=
  (entries.map Prod.fst).Pairwise (· < ·)

instance (entries : List (κ × β)) : Decidable (Sorted entries) :=
  inferInstanceAs (Decidable ((entries.map Prod.fst).Pairwise (· < ·)))

theorem sorted_cons {entry : κ × β} {rest : List (κ × β)} :
    Sorted (entry :: rest) ↔
      (∀ other ∈ rest, entry.1 < other.1) ∧ Sorted rest := by
  simp [Sorted]

theorem mem_emplace {key : κ} {value : β} {entry : κ × β}
    {map : List (κ × β)} (h : entry ∈ emplace key value map) :
    entry = (key, value) ∨ entry ∈ map := by
  induction map with
  | nil => simpa [emplace] using h
  | cons head rest ih =>
      simp only [emplace] at h
      split at h
      · simpa using h
      split at h
      · rcases List.mem_cons.mp h with rfl | hrest
        · simp
        · rcases ih hrest with rfl | hmem
          · simp
          · exact Or.inr (List.mem_cons_of_mem _ hmem)
      · exact Or.inr h

/-- Emplacing keeps the keys increasing. -/
theorem sorted_emplace (key : κ) (value : β) {map : List (κ × β)}
    (h : Sorted map) : Sorted (emplace key value map) := by
  induction map with
  | nil => simp [emplace, Sorted]
  | cons head rest ih =>
      obtain ⟨hhead, hrest⟩ := sorted_cons.mp h
      simp only [emplace]
      split
      · rename_i hlt
        refine sorted_cons.mpr ⟨fun other hmem => ?_, h⟩
        rcases List.mem_cons.mp hmem with rfl | hmem
        · exact hlt
        · exact hlt.trans (hhead other hmem)
      split
      · rename_i hlt
        refine sorted_cons.mpr ⟨fun other hmem => ?_, ih hrest⟩
        rcases mem_emplace hmem with rfl | hmem
        · exact hlt
        · exact hhead other hmem
      · exact h

private theorem sorted_foldl (entries : List (κ × β)) {map : List (κ × β)}
    (h : Sorted map) :
    Sorted (entries.foldl (fun map entry => emplace entry.1 entry.2 map) map) := by
  induction entries generalizing map with
  | nil => exact h
  | cons entry rest ih => exact ih (sorted_emplace _ _ h)

theorem sorted_ofEntries (entries : List (κ × β)) :
    Sorted (ofEntries entries) :=
  sorted_foldl entries (by simp [Sorted])

theorem mem_ofEntries {entries : List (κ × β)} {entry : κ × β}
    (h : entry ∈ ofEntries entries) : entry ∈ entries := by
  rw [ofEntries, ← List.foldr_reverse] at h
  rw [← List.mem_reverse]
  generalize entries.reverse = reversed at h
  induction reversed with
  | nil => cases h
  | cons head rest ih =>
      rcases mem_emplace h with rfl | hmem
      · simp
      · exact List.mem_cons_of_mem _ (ih hmem)

/-- A key beyond all others goes to the end. -/
theorem emplace_of_forall_lt {key : κ} {value : β} {map : List (κ × β)}
    (h : ∀ entry ∈ map, entry.1 < key) :
    emplace key value map = map ++ [(key, value)] := by
  induction map with
  | nil => rfl
  | cons head rest ih =>
      have hhead := h head (by simp)
      rw [emplace, if_neg hhead.not_gt, if_pos hhead,
        ih fun entry hmem => h entry (List.mem_cons_of_mem _ hmem)]
      rfl

private theorem foldl_emplace_of_sorted (entries : List (κ × β))
    {map : List (κ × β)} (h : Sorted (map ++ entries)) :
    entries.foldl (fun map entry => emplace entry.1 entry.2 map) map =
      map ++ entries := by
  induction entries generalizing map with
  | nil => simp
  | cons entry rest ih =>
      have hpair := List.pairwise_map.mp h
      have hlt : ∀ other ∈ map, other.1 < entry.1 := fun other hmem =>
        (List.pairwise_append.mp hpair).2.2 other hmem entry (by simp)
      have hassoc : map ++ entry :: rest = map ++ [entry] ++ rest := by simp
      rw [List.foldl_cons, emplace_of_forall_lt hlt, ih (by rwa [← hassoc])]
      simp

/-- The entries of a map give it back. -/
theorem ofEntries_of_sorted {entries : List (κ × β)} (h : Sorted entries) :
    ofEntries entries = entries :=
  (foldl_emplace_of_sorted entries (show Sorted ([] ++ entries) from h)).trans
    (List.nil_append _)

/-- An entry of a map is found under its key. -/
theorem find_of_mem {entries : List (κ × β)} {entry : κ × β}
    (hsorted : Sorted entries) (h : entry ∈ entries) :
    find entry.1 entries = some entry.2 := by
  induction entries with
  | nil => cases h
  | cons head rest ih =>
      obtain ⟨hhead, hrest⟩ := sorted_cons.mp hsorted
      unfold find
      rcases List.mem_cons.mp h with rfl | hmem
      · rw [if_pos rfl]
      · rw [if_neg (hhead entry hmem).ne]
        exact ih hrest hmem

end SortedMap

end Ioscpp.Support
