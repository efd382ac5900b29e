import Overseer.Token

/-! # What is cancelled stays cancelled -/

namespace Overseer

/-- The cancellation of these tokens reaches a token: one of them is that token or one of its ancestors. -/
def Token.Reached (token : Token) (hits : List Token) : Prop :=
  ∃ hit ∈ hits, ∃ k ∈ hit.lineage.head?, k ∈ token.lineage

theorem Token.reached_append {token : Token} {hits hits' : List Token} :
    token.Reached (hits ++ hits') ↔ token.Reached hits ∨ token.Reached hits' := by
  simp only [Reached, List.mem_append, or_and_right, exists_or]

namespace Tokens

variable {t t' : Tokens} {token root : Token}

theorem subset_cancel (t : Tokens) (token : Token) :
    t.cancelled ⊆ (t.cancel token).cancelled := by
  unfold cancel
  split
  · exact List.Subset.refl _
  · split
    · exact List.Subset.refl _
    · exact List.subset_cons_self _ _

theorem issued_cancel (t : Tokens) (token : Token) : (t.cancel token).issued = t.issued := by
  unfold cancel
  split
  · rfl
  · split
    · rfl
    · rfl

theorem isCancelled_iff : t.isCancelled token = true ↔ ∃ k ∈ token.lineage, k ∈ t.cancelled := by
  simp [isCancelled]

theorem isCancelled_mono (h : t.cancelled ⊆ t'.cancelled) (hc : t.isCancelled token = true) :
    t'.isCancelled token = true := by
  rw [isCancelled_iff] at hc ⊢
  obtain ⟨k, hk, hmem⟩ := hc
  exact ⟨k, hk, h hmem⟩

theorem mem_cancelled_cancel_iff {k : Nat} :
    k ∈ (t.cancel token).cancelled ↔ k ∈ t.cancelled ∨ token.lineage.head? = some k := by
  unfold cancel
  cases token.lineage with
  | nil => simp
  | cons number ancestors =>
    dsimp only
    split
    · rename_i hmem
      have hmem := List.contains_iff_mem.mp hmem
      constructor
      · exact Or.inl
      · rintro (h | h)
        · exact h
        · exact Option.some.inj h ▸ hmem
    · simp [or_comm, eq_comm]

/-- With a token is cancelled what descends from it, and nothing else. -/
theorem isCancelled_cancel_iff {other : Token} : (t.cancel token).isCancelled other = true ↔
    t.isCancelled other = true ∨ ∃ k ∈ token.lineage.head?, k ∈ other.lineage := by
  simp only [isCancelled_iff, mem_cancelled_cancel_iff, and_or_left, exists_or, Option.mem_def]
  exact or_congr_right (exists_congr fun k => and_comm)

/-- A token with a number is cancelled once it has been cancelled. -/
theorem isCancelled_cancel (h : token.lineage ≠ []) (t : Tokens) :
    (t.cancel token).isCancelled token = true := by
  obtain ⟨number, ancestors, hlineage⟩ := List.exists_cons_of_ne_nil h
  rw [isCancelled_cancel_iff, hlineage]
  exact Or.inr ⟨number, rfl, List.mem_cons_self⟩

/-- Nothing is cancelled with a token but what descends from it. -/
theorem isCancelled_cancel_of_notMem {number : Nat} {ancestors : List Nat} {other : Token}
    (h : token.lineage = number :: ancestors) (hne : number ∉ other.lineage) (t : Tokens) :
    (t.cancel token).isCancelled other = t.isCancelled other := by
  rw [Bool.eq_iff_iff, isCancelled_cancel_iff, h]
  simp [hne]

/-- With a token everything that descends from it is cancelled. -/
theorem isCancelled_of_subset (h : root.lineage ⊆ token.lineage)
    (hc : t.isCancelled root = true) : t.isCancelled token = true := by
  rw [isCancelled_iff] at hc ⊢
  obtain ⟨k, hk, hmem⟩ := hc
  exact ⟨k, h hk, hmem⟩

theorem subset_cancelAll (tokens : List Token) (t : Tokens) :
    t.cancelled ⊆ (tokens.foldl cancel t).cancelled := by
  induction tokens generalizing t with
  | nil => exact List.Subset.refl _
  | cons token tokens ih => exact List.Subset.trans (subset_cancel t token) (ih _)

theorem issued_cancelAll (tokens : List Token) (t : Tokens) :
    (tokens.foldl cancel t).issued = t.issued := by
  induction tokens generalizing t with
  | nil => rfl
  | cons token tokens ih => exact (ih _).trans (issued_cancel t token)

/-- What is cancelled with a number of tokens is what they reach. -/
theorem isCancelled_cancelAll_iff {hits : List Token} :
    (hits.foldl cancel t).isCancelled token = true ↔ t.isCancelled token = true ∨ token.Reached hits := by
  induction hits generalizing t with
  | nil => simp [Token.Reached]
  | cons hit hits ih =>
    have hcons : token.Reached (hit :: hits) ↔ (∃ k ∈ hit.lineage.head?, k ∈ token.lineage) ∨ token.Reached hits := by
      simp [Token.Reached]
    rw [List.foldl_cons, ih, isCancelled_cancel_iff, hcons, or_assoc]

theorem isCancelled_cancelAll {tokens : List Token} (hmem : token ∈ tokens)
    (h : token.lineage ≠ []) (t : Tokens) :
    (tokens.foldl cancel t).isCancelled token = true := by
  obtain ⟨number, ancestors, hlineage⟩ := List.exists_cons_of_ne_nil h
  refine isCancelled_cancelAll_iff.mpr (.inr ⟨token, hmem, number, ?_, ?_⟩)
  · rw [hlineage]
    rfl
  · rw [hlineage]
    exact List.mem_cons_self

/-- Nothing is cancelled with a number of tokens but what descends from one of them. -/
theorem isCancelled_cancelAll_of_notMem {tokens : List Token} {other : Token}
    (h : ∀ token ∈ tokens, ∃ number ancestors,
      token.lineage = number :: ancestors ∧ number ∉ other.lineage) (t : Tokens) :
    (tokens.foldl cancel t).isCancelled other = t.isCancelled other := by
  have hreached : ¬ other.Reached tokens := by
    rintro ⟨token, hmem, k, hk, hlineage⟩
    obtain ⟨number, ancestors, hl, hne⟩ := h token hmem
    rw [hl] at hk
    exact hne (Option.some.inj hk ▸ hlineage)
  rw [Bool.eq_iff_iff, isCancelled_cancelAll_iff, or_iff_left hreached]

end Tokens

end Overseer
