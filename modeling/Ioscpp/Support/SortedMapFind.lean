import Ioscpp.Support.SortedMap

/-!
# Finding in ordered maps

A map is given by what is found in it, and in a map that was filled entry by entry
the first entry of a key is found.

## Main results

- `find_emplace`, `find_ofEntries`: what is found under a key.
- `eq_of_find`: maps in which the same is found are the same.
-/

namespace Ioscpp.Support.SortedMap

variable {κ β : Type} [LinearOrder κ]

theorem find_eq_none {key : κ} {map : List (κ × β)} (h : ∀ entry ∈ map, key < entry.1) :
    find key map = none := by
  induction map with
  | nil => rfl
  | cons head rest ih =>
      have hhead := h head (by simp)
      rw [find, if_neg hhead.ne']
      exact ih fun entry hmem => h entry (List.mem_cons_of_mem _ hmem)

/-- An entry is found unless the key had one. -/
theorem find_emplace (key other : κ) (value : β) {map : List (κ × β)}
    (hsorted : Sorted map) :
    find other (emplace key value map) =
      (find other map).or (if key = other then some value else none) := by
  induction map with
  | nil => simp [emplace, find]
  | cons head rest ih =>
      obtain ⟨hhead, hrest⟩ := sorted_cons.mp hsorted
      rw [emplace]
      by_cases hbefore : key < head.1
      · rw [if_pos hbefore]
        by_cases hkey : key = other
        · have hnone : find other (head :: rest) = none := by
            apply find_eq_none
            rw [← hkey, List.forall_mem_cons]
            exact ⟨hbefore, fun entry hmem => hbefore.trans (hhead entry hmem)⟩
          rw [hnone, find, if_pos hkey, if_pos hkey]
          rfl
        · rw [find, if_neg hkey, if_neg hkey, Option.or_none]
      rw [if_neg hbefore]
      by_cases hafter : head.1 < key
      · rw [if_pos hafter, find, find]
        by_cases hother : head.1 = other
        · rw [if_pos hother, if_pos hother]
          rfl
        · rw [if_neg hother, if_neg hother, ih hrest]
      · have hsame : head.1 = key := le_antisymm (not_lt.mp hbefore) (not_lt.mp hafter)
        rw [if_neg hafter, find]
        by_cases hother : head.1 = other
        · rw [if_pos hother]
          rfl
        · have hkey : key ≠ other := by
            rw [← hsame]
            exact hother
          rw [if_neg hother, if_neg hkey, Option.or_none]

/-- The first entry of a key in a list that is no map. -/
def firstOf (key : κ) (entries : List (κ × β)) : Option (κ × β) :=
  entries.find? fun entry => entry.1 = key

theorem firstOf_cons_eq {key : κ} {entry : κ × β} (rest : List (κ × β))
    (h : entry.1 = key) : firstOf key (entry :: rest) = some entry := by
  rw [firstOf, List.find?_cons, decide_eq_true h]

theorem firstOf_cons_ne {key : κ} {entry : κ × β} (rest : List (κ × β))
    (h : entry.1 ≠ key) : firstOf key (entry :: rest) = firstOf key rest := by
  rw [firstOf, List.find?_cons, decide_eq_false h]
  rfl

private theorem find_foldl_emplace (key : κ) (entries : List (κ × β)) {map : List (κ × β)}
    (hsorted : Sorted map) :
    find key (entries.foldl (fun map entry => emplace entry.1 entry.2 map) map) =
      (find key map).or ((firstOf key entries).map Prod.snd) := by
  induction entries generalizing map with
  | nil => simp [firstOf]
  | cons entry rest ih =>
      rw [List.foldl_cons, ih (sorted_emplace _ _ hsorted),
        find_emplace _ _ _ hsorted, Option.or_assoc]
      by_cases hkey : entry.1 = key
      · rw [firstOf_cons_eq rest hkey, if_pos hkey]
        rfl
      · rw [firstOf_cons_ne rest hkey, if_neg hkey, Option.none_or]

/-- The first entry of a key is found. -/
theorem find_ofEntries (key : κ) (entries : List (κ × β)) :
    find key (ofEntries entries) = (firstOf key entries).map Prod.snd := by
  have hempty : Sorted ([] : List (κ × β)) := List.Pairwise.nil
  rw [ofEntries, find_foldl_emplace key entries hempty, find, Option.none_or]

/-- What is found for the keys of one list and a function of the values of
another. -/
theorem find_ofEntries_zip {γ : Type} (key : κ) (keys : List κ) (values : List β)
    (f : β → γ) :
    find key (ofEntries (keys.zip (values.map f))) =
      (firstOf key (keys.zip values)).map fun entry => f entry.2 := by
  rw [find_ofEntries, firstOf, firstOf, List.zip_map_right, List.find?_map,
    Option.map_map]
  rfl

/-- Maps in which the same is found are the same. -/
theorem eq_of_find {map other : List (κ × β)} (hmap : Sorted map) (hother : Sorted other)
    (h : ∀ key, find key map = find key other) : map = other := by
  induction map generalizing other with
  | nil =>
      cases other with
      | nil => rfl
      | cons head rest =>
          have hhead := h head.1
          rw [find, find, if_pos rfl] at hhead
          cases hhead
  | cons head rest ih =>
      cases other with
      | nil =>
          have hhead := h head.1
          rw [find, find, if_pos rfl] at hhead
          cases hhead
      | cons head' rest' =>
          obtain ⟨hlow, hrest⟩ := sorted_cons.mp hmap
          obtain ⟨hlow', hrest'⟩ := sorted_cons.mp hother
          have hkey : head.1 = head'.1 := by
            rcases lt_trichotomy head.1 head'.1 with hlt | heq | hlt
            · have hnone : find head.1 (head' :: rest') = none := by
                apply find_eq_none
                rw [List.forall_mem_cons]
                exact ⟨hlt, fun entry hmem => hlt.trans (hlow' entry hmem)⟩
              have hhead := h head.1
              rw [hnone, find, if_pos rfl] at hhead
              cases hhead
            · exact heq
            · have hnone : find head'.1 (head :: rest) = none := by
                apply find_eq_none
                rw [List.forall_mem_cons]
                exact ⟨hlt, fun entry hmem => hlt.trans (hlow entry hmem)⟩
              have hhead := h head'.1
              rw [hnone, find, if_pos rfl] at hhead
              cases hhead
          have hvalue : head.2 = head'.2 := by
            have hhead := h head.1
            rw [find, find, if_pos rfl, if_pos hkey.symm] at hhead
            exact Option.some.inj hhead
          have htail : ∀ key, find key rest = find key rest' := by
            intro key
            by_cases hsame : head.1 = key
            · rw [← hsame, find_eq_none hlow, find_eq_none]
              rw [hkey]
              exact hlow'
            · have hfind := h key
              rw [find, find, if_neg hsame, if_neg (hkey ▸ hsame)] at hfind
              exact hfind
          rw [ih hrest hrest' htail, Prod.ext hkey hvalue]

end Ioscpp.Support.SortedMap
