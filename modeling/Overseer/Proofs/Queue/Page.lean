import Overseer.Proofs.Queue.Basic
import Mathlib.Data.List.Nodup

/-! # The lists of a queue and of its answers

A page has the tasks that are pending, those that hold a slot, the admissions that are out, and every id that an
answer of the queue has named so far. Whatever the queue is asked to do changes a page in one of five ways
(`Page.Next`), and each of them keeps a page `Balanced`: that is where order, uniqueness and the bounds come from.
-/

namespace Overseer

structure Page where
  pending : List TaskId
  active : Table TaskId Token
  held : List Admission
  accepted : List TaskId
  admitted : List TaskId
  released : List TaskId
  handedBack : List (List TaskId)

namespace Page

/-- The ids that were taken out of the list of pending tasks. -/
def removed (p : Page) : List TaskId := p.handedBack.flatten

variable {limit : Nat} {maxPending : Option Nat} {p p' : Page}

/-- The five ways in which a call changes the lists. -/
inductive Next (limit : Nat) (maxPending : Option Nat) (p : Page) : Page → Prop
  | keep : Next limit maxPending p p
  | accept (id : TaskId) (room : ∀ most, maxPending = some most → p.pending.length < most) :
      Next limit maxPending p
        { p with pending := p.pending ++ [id], accepted := p.accepted ++ [id] }
  | grant (a : Admission) (rest : List TaskId) (head : p.pending = a.id :: rest)
      (room : p.active.length < limit) :
      Next limit maxPending p
        { p with pending := rest, active := p.active.set a.id a.token, held := p.held ++ [a],
                 admitted := p.admitted ++ [a.id] }
  | release (id : TaskId) (slot : p.active.contains id = true) :
      Next limit maxPending p
        { p with active := p.active.remove id, released := p.released ++ [id] }
  | handBack (ids : List TaskId) (distinct : ids.Nodup) (there : ids ⊆ p.pending) :
      Next limit maxPending p
        { p with pending := p.pending.filter fun id => !ids.contains id,
                 handedBack := p.handedBack ++ [ids] }

/-- What holds of the lists at each moment. -/
structure Balanced (limit : Nat) (maxPending : Option Nat) (p : Page) : Prop where
  /-- An accepted id is in one place, and the others are nowhere. -/
  placed : ∀ id,
    p.pending.count id + p.active.keys.count id + p.released.count id + p.removed.count id
      = if id ∈ p.accepted then 1 else 0
  /-- First come, first served. -/
  inOrder : p.admitted ++ p.pending = p.accepted.filter fun id => !p.removed.contains id
  once : p.admitted.Nodup
  active_le : p.active.length ≤ limit
  pending_le : ∀ most, maxPending = some most → p.pending.length ≤ most
  /-- While an admission has not been dropped, the slot of its task is its own or free. -/
  owned : ∀ a ∈ p.held,
    a.id ∈ p.admitted ∧ ∀ token, p.active.get? a.id = some token → token = a.token

theorem balanced_empty (limit : Nat) (maxPending : Option Nat) :
    Balanced limit maxPending ⟨[], [], [], [], [], [], []⟩ where
  placed _ := rfl
  inOrder := rfl
  once := List.nodup_nil
  active_le := Nat.zero_le _
  pending_le _ _ := Nat.zero_le _
  owned _ ha := absurd ha List.not_mem_nil

namespace Balanced

theorem placed_le_one (h : Balanced limit maxPending p) (id : TaskId) :
    p.pending.count id + p.active.keys.count id + p.released.count id + p.removed.count id ≤ 1 := by
  rw [h.placed]
  split
  · exact Nat.le_refl 1
  · exact Nat.zero_le 1

theorem nodup_pending (h : Balanced limit maxPending p) : p.pending.Nodup := by
  rw [List.nodup_iff_count_le_one]
  intro id
  have hle := h.placed_le_one id
  omega

theorem contains_of_pending (h : Balanced limit maxPending p) {id : TaskId}
    (hid : id ∈ p.pending) : p.active.contains id = false := by
  have hle := h.placed_le_one id
  have hpos := List.count_pos_iff.mpr hid
  have hzero : p.active.keys.count id = 0 := by omega
  rw [List.count_eq_zero, Table.mem_keys_iff] at hzero
  simpa using hzero

theorem nodup_order (h : Balanced limit maxPending p) (hd : p.accepted.Nodup) :
    (p.admitted ++ p.pending).Nodup := by
  rw [h.inOrder]
  exact hd.filter _

theorem notMem_admitted (h : Balanced limit maxPending p) (hd : p.accepted.Nodup) {id : TaskId}
    (hid : id ∈ p.pending) : id ∉ p.admitted := by
  have hdisjoint := (List.nodup_append.mp (h.nodup_order hd)).2.2
  intro hadm
  exact hdisjoint id hadm id hid rfl

/-! ## Each way keeps the balance -/

theorem accept (h : Balanced limit maxPending p) {id : TaskId} (hid : id ∉ p.accepted)
    (room : ∀ most, maxPending = some most → p.pending.length < most) :
    Balanced limit maxPending
      { p with pending := p.pending ++ [id], accepted := p.accepted ++ [id] } := by
  have hnone := h.placed id
  rw [if_neg hid] at hnone
  have hremoved : id ∉ p.removed := List.count_eq_zero.mp (by omega)
  constructor
  case placed =>
    intro j
    have hj := h.placed j
    simp only [removed, List.count_append, List.mem_append, List.mem_singleton] at hj hnone ⊢
    by_cases he : j = id
    · subst he
      have hone : [j].count j = 1 := List.count_singleton_self
      rw [if_pos (Or.inr rfl)]
      omega
    · have hzero : [id].count j = 0 := by
        rw [List.count_eq_zero, List.mem_singleton]
        exact he
      simp only [he, or_false]
      omega
  case inOrder =>
    have hlast : ([id].filter fun j => !p.removed.contains j) = [id] := by
      simp [hremoved]
    change p.admitted ++ (p.pending ++ [id]) = (p.accepted ++ [id]).filter _
    rw [List.filter_append, ← List.append_assoc, h.inOrder]
    exact congrArg _ hlast.symm
  case once => exact h.once
  case active_le => exact h.active_le
  case pending_le =>
    intro most hmost
    have hlt := room most hmost
    simp only [List.length_append, List.length_singleton]
    omega
  case owned => exact h.owned

theorem grant (h : Balanced limit maxPending p) (hd : p.accepted.Nodup) {a : Admission}
    {rest : List TaskId} (head : p.pending = a.id :: rest) (room : p.active.length < limit) :
    Balanced limit maxPending
      { p with pending := rest, active := p.active.set a.id a.token, held := p.held ++ [a],
               admitted := p.admitted ++ [a.id] } := by
  have hmem : a.id ∈ p.pending := by
    rw [head]
    exact List.mem_cons_self
  have hfree := h.contains_of_pending hmem
  have hnew := h.notMem_admitted hd hmem
  constructor
  case placed =>
    intro j
    have hj := h.placed j
    simp only [head, List.count_cons, removed, Table.count_keys_set hfree] at hj ⊢
    by_cases he : j = a.id
    · subst he
      simp only [beq_self_eq_true, if_true] at hj ⊢
      omega
    · have hne : (a.id == j) = false := by simpa using fun e : a.id = j => he e.symm
      simp only [hne, he, if_false] at hj ⊢
      simpa using hj
  case inOrder =>
    have ho := h.inOrder
    rw [head] at ho
    simpa [removed] using ho
  case once =>
    have hn : (p.admitted ++ [a.id]).Nodup := by
      rw [List.nodup_append]
      refine ⟨h.once, List.nodup_singleton _, ?_⟩
      intro i hi j hj he
      rw [List.mem_singleton.mp hj] at he
      exact hnew (he ▸ hi)
    exact hn
  case active_le =>
    have hle := Table.length_set_le p.active a.id a.token
    have := h.active_le
    simp only
    omega
  case pending_le =>
    intro most hmost
    have hle := h.pending_le most hmost
    rw [head, List.length_cons] at hle
    simp only
    omega
  case owned =>
    intro b hb
    rcases List.mem_append.mp hb with hb | hb
    · obtain ⟨hadm, hown⟩ := h.owned b hb
      refine ⟨List.mem_append_left _ hadm, ?_⟩
      have hne : b.id ≠ a.id := fun he => hnew (he ▸ hadm)
      intro token ht
      rw [Table.get?_set_of_ne hne] at ht
      exact hown token ht
    · obtain rfl := List.mem_singleton.mp hb
      refine ⟨List.mem_append_right _ (List.mem_singleton_self _), ?_⟩
      intro token ht
      rw [Table.get?_set] at ht
      exact (Option.some.inj ht).symm

theorem release (h : Balanced limit maxPending p) {id : TaskId}
    (slot : p.active.contains id = true) :
    Balanced limit maxPending
      { p with active := p.active.remove id, released := p.released ++ [id] } := by
  have hslot : 0 < p.active.keys.count id := List.count_pos_iff.mpr (Table.mem_keys_iff.mpr slot)
  constructor
  case placed =>
    intro j
    have hj := h.placed j
    have hle := h.placed_le_one j
    simp only [removed, List.count_append] at hj hle ⊢
    by_cases he : j = id
    · subst he
      have hone : [j].count j = 1 := List.count_singleton_self
      rw [Table.count_keys_remove]
      omega
    · have hzero : [id].count j = 0 := by
        rw [List.count_eq_zero, List.mem_singleton]
        exact he
      rw [Table.count_keys_remove_of_ne he]
      omega
  case inOrder => exact h.inOrder
  case once => exact h.once
  case active_le => exact Nat.le_trans (Table.length_remove_le _ _) h.active_le
  case pending_le => exact h.pending_le
  case owned =>
    intro a ha
    obtain ⟨hadm, hown⟩ := h.owned a ha
    refine ⟨hadm, ?_⟩
    intro token ht
    by_cases he : a.id = id
    · simp only [he, Table.get?_remove] at ht
      cases ht
    · simp only [Table.get?_remove_of_ne he] at ht
      exact hown token ht

theorem handBack (h : Balanced limit maxPending p) (hd : p.accepted.Nodup) {ids : List TaskId}
    (distinct : ids.Nodup) (there : ids ⊆ p.pending) :
    Balanced limit maxPending
      { p with pending := p.pending.filter fun id => !ids.contains id,
               handedBack := p.handedBack ++ [ids] } := by
  have hflatten : (p.handedBack ++ [ids]).flatten = p.removed ++ ids := by
    simp [removed]
  constructor
  case placed =>
    intro j
    have hj := h.placed j
    have hle := h.placed_le_one j
    simp only [removed, hflatten, List.count_append] at hj hle ⊢
    by_cases hmem : j ∈ ids
    · have hone : ids.count j = 1 := List.count_eq_one_of_mem distinct hmem
      have hpos : 0 < p.pending.count j := List.count_pos_iff.mpr (there hmem)
      have hzero : (p.pending.filter fun id => !ids.contains id).count j = 0 := by
        rw [List.count_eq_zero, List.mem_filter]
        simp [hmem]
      omega
    · have hzero : ids.count j = 0 := List.count_eq_zero.mpr hmem
      have hsame : (p.pending.filter fun id => !ids.contains id).count j = p.pending.count j := by
        rw [List.count_filter]
        simp [hmem]
      omega
  case inOrder =>
    have hkept : (p.admitted.filter fun id => !ids.contains id) = p.admitted := by
      rw [List.filter_eq_self]
      intro id hid
      have hmem : id ∉ ids := fun hmem => h.notMem_admitted hd (there hmem) hid
      simp [hmem]
    have hsplit : (p.accepted.filter fun id => !(p.removed ++ ids).contains id)
        = (p.accepted.filter fun id => !p.removed.contains id).filter fun id => !ids.contains id := by
      rw [List.filter_filter]
      apply List.filter_congr
      intro id _
      simp [Bool.and_comm]
    change p.admitted ++ p.pending.filter _
      = p.accepted.filter fun id => !(p.handedBack ++ [ids]).flatten.contains id
    rw [hflatten, hsplit, ← h.inOrder, List.filter_append, hkept]
  case once => exact h.once
  case active_le => exact h.active_le
  case pending_le =>
    intro most hmost
    exact Nat.le_trans (List.length_filter_le _ _) (h.pending_le most hmost)
  case owned => exact h.owned

theorem next (h : Balanced limit maxPending p) (hn : Next limit maxPending p p')
    (hd : p'.accepted.Nodup) : Balanced limit maxPending p' := by
  cases hn with
  | keep => exact h
  | accept id room =>
    have hnew : id ∉ p.accepted := by
      intro hid
      exact (List.nodup_append.mp hd).2.2 id hid id (List.mem_singleton_self _) rfl
    exact h.accept hnew room
  | grant a rest head room => exact h.grant hd head room
  | release id slot => exact h.release slot
  | handBack ids distinct there => exact h.handBack hd distinct there

theorem drop (h : Balanced limit maxPending p) {held : List Admission} (hs : held ⊆ p.held) :
    Balanced limit maxPending { p with held := held } :=
  { h with owned := fun a ha => h.owned a (hs ha) }

end Balanced

end Page

end Overseer
