import Mathlib.Data.Set.Insert

/-
Secrets whose use a log records.

A log is a list of acts. An act may issue secrets, use them, and end the authority of secrets that
were issued before it; some secrets may be used once. A log is lawful when no act uses a secret
that was not issued, that was ended since it was issued, or that may be used once and was used. What
is still good for a use after a log is `Standing`, and a log that only ever uses standing secrets is
lawful. A system keeps a set of secrets that it would still accept (`Keeps`); each of its acts is
one of `use`, `issue` and `finish`.
-/

namespace Authority

universe u v

/-- What the acts of a log do with secrets. -/
structure Reading (α : Type u) (ι : Type v) where
  issues : α → ι → Prop
  uses : α → ι → Prop
  /-- The act ends the authority of these secrets, as far as they were issued before it. -/
  ends : α → ι → Prop
  oneUse : ι → Prop

namespace Reading

variable {α : Type u} {ι : Type v} (R : Reading α ι)

/-- The log issued the secret. -/
def Issued (log : List α) (i : ι) : Prop := ∃ a ∈ log, R.issues a i

/-- Every use is of a secret that was issued, not ended since, and not used if one use is all. -/
structure Lawful (log : List α) : Prop where
  issued : ∀ before a after i, log = before ++ a :: after → R.uses a i → R.Issued before i
  once : ∀ before a after i, log = before ++ a :: after → R.oneUse i → R.uses a i →
    ∀ b ∈ after, ¬ R.uses b i
  ended : ∀ before a after i, log = before ++ a :: after → R.ends a i → R.Issued before i →
    ∀ b ∈ after, ¬ R.uses b i

/-- The secret may be used after the log. -/
structure Standing (log : List α) (i : ι) : Prop where
  issued : R.Issued log i
  unused : R.oneUse i → ∀ a ∈ log, ¬ R.uses a i
  unended : ∀ before a after, log = before ++ a :: after → R.ends a i → ¬ R.Issued before i

variable {R} {log : List α} {a : α} {i : ι}

lemma Issued.append {log' : List α} (h : R.Issued log i) : R.Issued (log ++ log') i := by
  obtain ⟨a, ha, hi⟩ := h
  exact ⟨a, List.mem_append_left _ ha, hi⟩

lemma issued_append {log' : List α} :
    R.Issued (log ++ log') i ↔ R.Issued log i ∨ R.Issued log' i := by
  simp only [Issued, List.mem_append, or_and_right, exists_or]

lemma issued_singleton : R.Issued [a] i ↔ R.issues a i := by
  simp only [Issued, List.mem_singleton, exists_eq_left]

/-- A log with one more act splits at that act or before it. -/
lemma snoc_eq_iff {before after : List α} {b : α} :
    log ++ [a] = before ++ b :: after ↔
      (log = before ∧ a = b ∧ after = []) ∨
        ∃ rest, after = rest ++ [a] ∧ log = before ++ b :: rest := by
  constructor
  · intro h
    rcases List.eq_nil_or_concat after with rfl | ⟨rest, c, rfl⟩
    · obtain ⟨h₁, h₂⟩ := List.append_inj' h rfl
      exact .inl ⟨h₁, by simpa using h₂, rfl⟩
    · have h' : log ++ [a] = (before ++ b :: rest) ++ [c] := by simpa using h
      obtain ⟨h₁, h₂⟩ := List.append_inj' h' rfl
      have hc : a = c := by simpa using h₂
      exact .inr ⟨rest, by rw [hc, List.concat_eq_append], h₁⟩
  · rintro (⟨rfl, rfl, rfl⟩ | ⟨rest, rfl, rfl⟩)
    · rfl
    · simp

lemma lawful_nil : R.Lawful [] := by
  constructor <;> intro before a after i h <;> simp at h

/-- An act that uses standing secrets extends a lawful log. -/
theorem Lawful.snoc (h : R.Lawful log) (huse : ∀ i, R.uses a i → R.Standing log i) :
    R.Lawful (log ++ [a]) := by
  constructor
  · intro before b after i heq hb
    rcases snoc_eq_iff.1 heq with ⟨rfl, rfl, -⟩ | ⟨rest, -, hlog⟩
    · exact (huse i hb).issued
    · exact h.issued before b rest i hlog hb
  · intro before b after i heq hone hb c hc hcu
    rcases snoc_eq_iff.1 heq with ⟨-, -, rfl⟩ | ⟨rest, rfl, hlog⟩
    · exact absurd hc List.not_mem_nil
    · rcases List.mem_append.1 hc with hrest | hlast
      · exact h.once before b rest i hlog hone hb c hrest hcu
      · obtain rfl := List.mem_singleton.1 hlast
        refine (huse i hcu).unused hone b ?_ hb
        rw [hlog]
        exact List.mem_append_right _ List.mem_cons_self
  · intro before b after i heq hb hissued c hc hcu
    rcases snoc_eq_iff.1 heq with ⟨-, -, rfl⟩ | ⟨rest, rfl, hlog⟩
    · exact absurd hc List.not_mem_nil
    · rcases List.mem_append.1 hc with hrest | hlast
      · exact h.ended before b rest i hlog hb hissued c hrest hcu
      · obtain rfl := List.mem_singleton.1 hlast
        exact (huse i hcu).unended before b rest hlog hb hissued

/-- A secret stays good through an act that neither ends it nor uses it up. -/
lemma Standing.snoc (h : R.Standing log i) (hend : ¬ R.ends a i)
    (huse : R.oneUse i → ¬ R.uses a i) : R.Standing (log ++ [a]) i := by
  refine ⟨h.issued.append, fun hone b hb => ?_, fun before b after heq hb hissued => ?_⟩
  · rcases List.mem_append.1 hb with hlog | hlast
    · exact h.unused hone b hlog
    · obtain rfl := List.mem_singleton.1 hlast
      exact huse hone
  · rcases snoc_eq_iff.1 heq with ⟨-, rfl, -⟩ | ⟨rest, -, hlog⟩
    · exact hend hb
    · exact h.unended before b rest hlog hb hissued

/-- A secret that the log did not issue is good once an act issues it. -/
lemma Lawful.standing_new (h : R.Lawful log) (hnew : ¬ R.Issued log i) (hissue : R.issues a i)
    (huse : ¬ R.uses a i) : R.Standing (log ++ [a]) i := by
  refine ⟨⟨a, List.mem_append_right _ (List.mem_singleton_self a), hissue⟩, fun _ b hb hbu => ?_,
    fun before b after heq hb hissued => ?_⟩
  · rcases List.mem_append.1 hb with hlog | hlast
    · obtain ⟨before, after, heq⟩ := List.append_of_mem hlog
      refine hnew ?_
      rw [heq]
      exact (h.issued before b after i heq hbu).append
    · obtain rfl := List.mem_singleton.1 hlast
      exact huse hbu
  · rcases snoc_eq_iff.1 heq with ⟨rfl, -, -⟩ | ⟨rest, -, hlog⟩
    · exact hnew hissued
    · refine hnew ?_
      rw [hlog]
      exact hissued.append

/-! ### What a system keeps -/

variable (R) in
/-- The log is lawful, and every secret of `live` may be used after it. -/
structure Keeps (log : List α) (live : Set ι) : Prop where
  lawful : R.Lawful log
  standing : ∀ i ∈ live, R.Standing log i

variable {live live' : Set ι}

lemma Keeps.mono (h : R.Keeps log live) (hsub : live' ⊆ live) : R.Keeps log live' :=
  ⟨h.lawful, fun i hi => h.standing i (hsub hi)⟩

/-- An act that uses live secrets, and nothing else; those for one use are live no more. -/
theorem Keeps.use (h : R.Keeps log live) (huse : ∀ i, R.uses a i → i ∈ live)
    (hends : ∀ i, ¬ R.ends a i) :
    R.Keeps (log ++ [a]) {i | i ∈ live ∧ (R.oneUse i → ¬ R.uses a i)} := by
  refine ⟨h.lawful.snoc fun i hi => h.standing i (huse i hi), fun i hi => ?_⟩
  exact (h.standing i hi.1).snoc (hends i) hi.2

/-- An act that issues secrets that the log did not, and uses none. -/
theorem Keeps.issue (h : R.Keeps log live) (hnew : ∀ i, R.issues a i → ¬ R.Issued log i)
    (huse : ∀ i, ¬ R.uses a i) (hends : ∀ i, ¬ R.ends a i) :
    R.Keeps (log ++ [a]) {i | i ∈ live ∨ R.issues a i} := by
  refine ⟨h.lawful.snoc fun i hi => absurd hi (huse i), fun i hi => ?_⟩
  rcases hi with hlive | hissue
  · exact (h.standing i hlive).snoc (hends i) fun _ => huse i
  · exact h.lawful.standing_new (hnew i hissue) hissue (huse i)

/-- An act that ends secrets, and uses none. -/
theorem Keeps.finish (h : R.Keeps log live) (huse : ∀ i, ¬ R.uses a i) :
    R.Keeps (log ++ [a]) {i | i ∈ live ∧ ¬ R.ends a i} := by
  refine ⟨h.lawful.snoc fun i hi => absurd hi (huse i), fun i hi => ?_⟩
  exact (h.standing i hi.1).snoc hi.2 fun _ => huse i

end Reading

end Authority
