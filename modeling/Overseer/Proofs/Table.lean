import Overseer.Table
import Mathlib.Data.List.Nodup

/-! # What the operations on a table do

A table is looked at in two ways: by the value that a key finds (`get?`) and by how often a key occurs
(`keys.count`). Each operation changes at most one key. What it does to that key has the name of the
operation (`get?_set`), and that it leaves every other key alone has the same name with `_of_ne`.
-/

namespace Overseer.Table

variable {α β : Type}

theorem keys_map_values (t : Table α β) (f : β → β) :
    keys (t.map fun entry => (entry.1, f entry.2)) = t.keys := by
  simp [keys]

variable [DecidableEq α]

theorem get?_nil (k : α) : get? ([] : Table α β) k = none := rfl

theorem get?_cons (entry : α × β) (t : Table α β) (k : α) :
    get? (entry :: t) k = if entry.1 = k then some entry.2 else get? t k := by
  by_cases h : entry.1 = k
  · simp [get?, h]
  · simp [get?, h]

theorem get?_append (t u : Table α β) (k : α) : get? (t ++ u) k = (get? t k).or (get? u k) := by
  induction t with
  | nil => rfl
  | cons entry t ih =>
    rw [List.cons_append, get?_cons, get?_cons, ih]
    split
    · rfl
    · rfl

theorem contains_eq (t : Table α β) (k : α) : t.contains k = (t.get? k).isSome := by
  induction t with
  | nil => rfl
  | cons entry t ih =>
    have hc : contains (entry :: t) k = (entry.1 == k || contains t k) := rfl
    rw [hc, get?_cons, ih]
    by_cases h : entry.1 = k
    · simp [h]
    · simp [h]

theorem mem_of_get? {t : Table α β} {k : α} {v : β} (h : t.get? k = some v) : (k, v) ∈ t := by
  induction t with
  | nil => cases h
  | cons entry t ih =>
    rw [get?_cons] at h
    split at h
    · rename_i hk
      obtain rfl := Option.some.inj h
      exact hk ▸ List.mem_cons_self
    · exact List.mem_cons_of_mem _ (ih h)

theorem mem_keys_iff {t : Table α β} {k : α} : k ∈ t.keys ↔ t.contains k = true := by
  simp [keys, contains]

/-- In a table with distinct keys each entry is found under its key. -/
theorem get?_of_mem {t : Table α β} (ht : t.keys.Nodup) {k : α} {v : β} (h : (k, v) ∈ t) :
    t.get? k = some v := by
  induction t with
  | nil => cases h
  | cons entry t ih =>
    obtain ⟨hn, ht⟩ := List.nodup_cons.mp (show (entry.1 :: keys t).Nodup from ht)
    rw [get?_cons]
    rcases List.mem_cons.mp h with rfl | h
    · exact if_pos rfl
    · have hk : k ∈ keys t := List.mem_map.mpr ⟨(k, v), h, rfl⟩
      have hne : ¬ entry.1 = k := fun he => hn (he.symm ▸ hk)
      rw [if_neg hne]
      exact ih ht h

/-! ## Values -/

/-- Where each value tells the key that it has, those that tell a key are what is found under it. -/
theorem filter_values {t : Table α β} (ht : t.keys.Nodup) {f : β → α}
    (hf : ∀ entry ∈ t, f entry.2 = entry.1) (k : α) :
    t.values.filter (f · == k) = (t.get? k).toList := by
  induction t with
  | nil => rfl
  | cons entry t ih =>
    obtain ⟨hfresh, ht⟩ := List.nodup_cons.mp ht
    have htail := ih ht fun e he => hf e (List.mem_cons_of_mem _ he)
    have hhead := hf entry List.mem_cons_self
    have hvalues : values (entry :: t) = entry.2 :: values t := rfl
    rw [hvalues, get?_cons, List.filter_cons, hhead, htail]
    by_cases h : entry.1 = k
    · have hnone : get? t k = none := by
        rw [← Option.not_isSome_iff_eq_none, ← contains_eq, ← mem_keys_iff]
        exact h ▸ hfresh
      simp [h, hnone]
    · simp [h]

theorem get?_modify (t : Table α β) (k : α) (f : β → β) :
    (t.modify k f).get? k = (t.get? k).map f := by
  induction t with
  | nil => rfl
  | cons entry t ih =>
    have hm : modify (entry :: t) k f
        = (if entry.1 = k then (entry.1, f entry.2) else entry) :: modify t k f := rfl
    by_cases h : entry.1 = k
    · rw [hm, if_pos h, get?_cons, get?_cons, if_pos h, if_pos h, Option.map_some]
    · rw [hm, if_neg h, get?_cons, get?_cons, if_neg h, if_neg h, ih]

theorem get?_modify_of_ne {j k : α} (hj : j ≠ k) (t : Table α β) (f : β → β) :
    (t.modify k f).get? j = t.get? j := by
  induction t with
  | nil => rfl
  | cons entry t ih =>
    have hm : modify (entry :: t) k f
        = (if entry.1 = k then (entry.1, f entry.2) else entry) :: modify t k f := rfl
    by_cases h : entry.1 = k
    · have hkj : ¬ entry.1 = j := fun he => hj (he.symm.trans h)
      rw [hm, if_pos h, get?_cons, get?_cons, if_neg hkj, if_neg hkj, ih]
    · rw [hm, if_neg h, get?_cons, get?_cons, ih]

theorem get?_set (t : Table α β) (k : α) (v : β) : (t.set k v).get? k = some v := by
  unfold set
  rw [contains_eq]
  cases h : t.get? k with
  | none => simp [get?_append, h, get?_cons]
  | some u => simp [get?_modify, h]

theorem get?_set_of_ne {j k : α} (hj : j ≠ k) (t : Table α β) (v : β) :
    (t.set k v).get? j = t.get? j := by
  unfold set
  split
  · exact get?_modify_of_ne hj t _
  · simp [get?_append, get?_cons, get?_nil, Ne.symm hj]

theorem get?_remove (t : Table α β) (k : α) : (t.remove k).get? k = none := by
  simp [remove, get?, List.find?_filter]

theorem get?_remove_of_ne {j k : α} (hj : j ≠ k) (t : Table α β) :
    (t.remove k).get? j = t.get? j := by
  induction t with
  | nil => rfl
  | cons entry t ih =>
    by_cases h : entry.1 = k
    · have hr : remove (entry :: t) k = remove t k := by simp [remove, h]
      rw [hr, ih, get?_cons, if_neg fun he => hj (he.symm.trans h)]
    · have hr : remove (entry :: t) k = entry :: remove t k := by simp [remove, h]
      rw [hr, get?_cons, get?_cons, ih]

theorem get?_move (t : Table α β) (k : α) (v : β) : (t.move k v).get? k = some v := by
  simp [move, get?_append, get?_remove, get?_cons]

theorem get?_move_of_ne {j k : α} (hj : j ≠ k) (t : Table α β) (v : β) :
    (t.move k v).get? j = t.get? j := by
  simp [move, get?_append, get?_remove_of_ne hj, get?_cons, get?_nil, Ne.symm hj]

theorem get?_map_values (t : Table α β) (f : β → β) (k : α) :
    get? (t.map fun entry => (entry.1, f entry.2)) k = (t.get? k).map f := by
  induction t with
  | nil => rfl
  | cons entry t ih =>
    rw [List.map_cons, get?_cons, get?_cons, ih]
    split
    · rfl
    · rfl

/-! ## Keys -/

theorem keys_modify (t : Table α β) (k : α) (f : β → β) : (t.modify k f).keys = t.keys := by
  simp only [modify, keys, List.map_map]
  apply List.map_congr_left
  intro entry _
  simp only [Function.comp_apply]
  split
  · rfl
  · rfl

theorem keys_set_of_contains {t : Table α β} {k : α} (h : t.contains k = true) (v : β) :
    (t.set k v).keys = t.keys := by
  rw [set, if_pos h, keys_modify]

theorem count_keys_set {t : Table α β} {k : α} (h : t.contains k = false) (j : α) (v : β) :
    (t.set k v).keys.count j = t.keys.count j + if j = k then 1 else 0 := by
  rw [set, if_neg (by simp [h])]
  by_cases hj : j = k
  · simp [keys, hj]
  · simp [keys, hj, Ne.symm hj]

theorem nodup_keys_set {t : Table α β} (h : t.keys.Nodup) (k : α) (v : β) :
    (t.set k v).keys.Nodup := by
  by_cases hk : t.contains k = true
  · rw [keys_set_of_contains hk]
    exact h
  · have hkeys : (t.set k v).keys = t.keys ++ [k] := by
      rw [set, if_neg hk]
      simp [keys]
    rw [hkeys]
    refine h.append (List.nodup_singleton k) (List.disjoint_singleton.mpr ?_)
    rw [mem_keys_iff]
    exact hk

theorem count_keys_remove (t : Table α β) (k : α) : (t.remove k).keys.count k = 0 := by
  rw [List.count_eq_zero, mem_keys_iff, contains_eq, get?_remove]
  simp

theorem count_keys_remove_of_ne {j k : α} (hj : j ≠ k) (t : Table α β) :
    (t.remove k).keys.count j = t.keys.count j := by
  induction t with
  | nil => rfl
  | cons entry t ih =>
    have hc : ∀ u : Table α β, keys (entry :: u) = entry.1 :: keys u := fun _ => rfl
    by_cases h : entry.1 = k
    · have hr : remove (entry :: t) k = remove t k := by simp [remove, h]
      rw [hr, ih, hc, List.count_cons_of_ne fun he => hj (he.symm.trans h)]
    · have hr : remove (entry :: t) k = entry :: remove t k := by simp [remove, h]
      rw [hr, hc, hc, List.count_cons, List.count_cons, ih]

theorem count_keys_move (t : Table α β) (k : α) (v : β) : (t.move k v).keys.count k = 1 := by
  have h := count_keys_remove t k
  simp only [move, keys, List.map_append, List.count_append] at h ⊢
  simp [h]

theorem count_keys_move_of_ne {j k : α} (hj : j ≠ k) (t : Table α β) (v : β) :
    (t.move k v).keys.count j = t.keys.count j := by
  have h := count_keys_remove_of_ne hj t
  simp only [move, keys, List.map_append, List.count_append] at h ⊢
  simp [h, Ne.symm hj]

theorem keys_remove_sublist (t : Table α β) (k : α) : (t.remove k).keys.Sublist t.keys :=
  List.filter_sublist.map _

theorem nodup_keys_move {t : Table α β} (h : t.keys.Nodup) (k : α) (v : β) : (t.move k v).keys.Nodup := by
  have hkeys : (t.move k v).keys = (t.remove k).keys ++ [k] := by simp [move, keys]
  rw [hkeys]
  refine (h.sublist (keys_remove_sublist t k)).append (List.nodup_singleton k) (List.disjoint_singleton.mpr ?_)
  rw [mem_keys_iff, contains_eq, get?_remove]
  simp

/-- Nothing changes when a key is set to what it finds. -/
theorem set_of_get? {t : Table α β} (ht : t.keys.Nodup) {k : α} {v : β} (h : t.get? k = some v) : t.set k v = t := by
  have hk : t.contains k = true := by
    rw [contains_eq, h]
    rfl
  have hsame : ∀ entry ∈ t, (if entry.1 = k then (entry.1, v) else entry) = id entry := by
    rintro ⟨key, value⟩ hmem
    split
    · rename_i hkey
      obtain rfl : key = k := hkey
      exact congrArg (Prod.mk key) (Option.some.inj (h.symm.trans (get?_of_mem ht hmem)))
    · rfl
  rw [set, if_pos hk, modify, List.map_congr_left hsame, List.map_id]

/-! ## Lengths -/

theorem length_remove_le (t : Table α β) (k : α) : (t.remove k).length ≤ t.length :=
  List.length_filter_le _ _

theorem length_set_le (t : Table α β) (k : α) (v : β) : (t.set k v).length ≤ t.length + 1 := by
  unfold set
  split
  · simp [modify]
  · simp

end Overseer.Table
