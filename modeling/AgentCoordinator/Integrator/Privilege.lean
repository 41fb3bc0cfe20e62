import Mathlib.Algebra.Group.Nat.Defs
import AgentCoordinator.Library.Subsequence
import AgentCoordinator.Library.Text

/-
The line diff of the privilege gate.

A table of the lengths of longest common subsequences of all ends of two texts is filled from the
last lines on, and a walk from the first lines on takes equal lines and otherwise follows the larger
entry. Above a limit of entries all lines count as changed.
-/

namespace AgentCoordinator.Privilege

open Subsequence

def MAX_DIFF_CELLS : ℕ := 4000000

/-! ### The table -/

section Diff

variable {α : Type} [DecidableEq α]

/-- `Vec<Vec<usize>>`, with zero where nothing was written. -/
abbrev Table := ℕ → ℕ → ℕ

/-- `table[i][j] = n`. -/
def Table.set (table : Table) (i j n : ℕ) : Table :=
  fun i' j' => if i' = i ∧ j' = j then n else table i' j'

/-- The entry of two lines. -/
def cell (old new : List α) (table : Table) (i j : ℕ) : ℕ :=
  if old[i]? = new[j]? then table (i + 1) (j + 1) + 1
  else max (table (i + 1) j) (table i (j + 1))

/-- The inner loop, over the columns before `j` from the last on. -/
def fillRow (old new : List α) (i : ℕ) : ℕ → Table → Table
  | 0, table => table
  | j + 1, table => fillRow old new i j (table.set i j (cell old new table i j))

/-- The outer loop, over the rows before `i` from the last on. -/
def fillRows (old new : List α) : ℕ → Table → Table
  | 0, table => table
  | i + 1, table => fillRows old new i (fillRow old new i new.length table)

/-- `lcs_table`. -/
def lcsTable (old new : List α) : Table := fillRows old new old.length fun _ _ => 0

/-! ### The walk -/

/-- The loop of `changed_lines`, for a number of rounds. A line that is not there would panic. -/
def walk (old new : List α) (table : Table) :
    ℕ → ℕ → ℕ → List α → List α → Option (List α × List α)
  | 0, _, _, _, _ => none
  | rounds + 1, i, j, added, removed =>
    if i < old.length ∨ j < new.length then
      if i < old.length ∧ j < new.length ∧ old[i]? = new[j]? then
        walk old new table rounds (i + 1) (j + 1) added removed
      else if j < new.length ∧ (i = old.length ∨ table (i + 1) j ≤ table i (j + 1)) then
        match new[j]? with
        | none => none
        | some line => walk old new table rounds i (j + 1) (added ++ [line]) removed
      else
        match old[i]? with
        | none => none
        | some line => walk old new table rounds (i + 1) j added (removed ++ [line])
    else some (added, removed)

/-- `changed_lines` of the lines of two texts. Each round of the walk takes a line. -/
def changed (old new : List α) : Option (List α × List α) :=
  if MAX_DIFF_CELLS < min (old.length * new.length) (2 ^ 64 - 1) then some (new, old)
  else walk old new (lcsTable old new) (old.length + new.length + 1) 0 0 [] []

end Diff

/-- `changed_lines`: the lines that are added and those that are removed. -/
def changedLines (before after : List Char) : Option (List (List Char) × List (List Char)) :=
  changed (Text.lines before) (Text.lines after)

section Diff

variable {α : Type} [DecidableEq α] {old new : List α} {table : Table} {i j i' j' : ℕ}

/-! ### What the table holds -/

/-- The entries of the rows from `i` on, and in row `i` those from column `j` on, are right. -/
def Filled (old new : List α) (table : Table) (i j : ℕ) : Prop :=
  ∀ i' j', i' ≤ old.length → j' ≤ new.length → i < i' ∨ i' = i ∧ j ≤ j' →
    table i' j' = common (old.drop i') (new.drop j')

/-- Nothing is written where a text has ended, nor in the rows that are still to come. -/
def Blank (old new : List α) (table : Table) (i : ℕ) : Prop :=
  ∀ i' j', i' = old.length ∨ j' = new.length ∨ i' < i → table i' j' = 0

/-- An entry is right when those behind it are. -/
lemma cell_eq (h : Filled old new table i (j + 1)) (hi : i < old.length) (hj : j < new.length) :
    cell old new table i j = common (old.drop i) (new.drop j) := by
  have hnext := h (i + 1) (j + 1) (by omega) (by omega) (.inl (by omega))
  have hbelow := h (i + 1) j (by omega) (by omega) (.inl (by omega))
  have hright := h i (j + 1) (by omega) (by omega) (.inr ⟨rfl, by omega⟩)
  rw [cell, hnext, hbelow, hright, List.drop_eq_getElem_cons hi, List.drop_eq_getElem_cons hj,
    List.getElem?_eq_getElem hi, List.getElem?_eq_getElem hj]
  by_cases heq : old[i] = new[j]
  · rw [if_pos (congrArg some heq), heq, common_of_eq]
  · rw [if_neg (fun h => heq (Option.some.inj h)), common_of_ne heq]

lemma fillRow_filled (h : Filled old new table i j) (hi : i < old.length) (hj : j ≤ new.length) :
    Filled old new (fillRow old new i j table) i 0 := by
  induction j generalizing table with
  | zero => exact h
  | succ j ih =>
    refine ih ?_ (by omega)
    intro i' j' hi' hj' hlater
    unfold Table.set
    by_cases hhere : i' = i ∧ j' = j
    · rw [if_pos hhere, hhere.1, hhere.2, cell_eq h hi hj]
    · rw [if_neg hhere]
      refine h i' j' hi' hj' ?_
      omega

/-- Only the row is written, before the column. -/
lemma fillRow_of_ne (h : i' ≠ i ∨ j ≤ j') : fillRow old new i j table i' j' = table i' j' := by
  induction j generalizing table with
  | zero => rfl
  | succ j ih =>
    rw [fillRow, ih (by omega), Table.set, if_neg (by omega)]

lemma fillRows_filled (h : Filled old new table i 0) (hblank : Blank old new table i)
    (hi : i ≤ old.length) : Filled old new (fillRows old new i table) 0 0 := by
  induction i generalizing table with
  | zero => exact h
  | succ i ih =>
    have hstart : Filled old new table i new.length := by
      intro i' j' hi' hj' hlater
      by_cases hrow : i' = i
      · obtain rfl : j' = new.length := by omega
        rw [hblank i' new.length (.inr (.inl rfl)), List.drop_length, common_nil_right]
      · exact h i' j' hi' hj' (by omega)
    refine ih (fillRow_filled hstart (by omega) (Nat.le_refl _)) ?_ (by omega)
    intro i' j' hempty
    rw [fillRow_of_ne]
    · exact hblank i' j' (by omega)
    · omega

/-- The table holds the lengths of longest common subsequences. -/
theorem lcsTable_eq (hi : i ≤ old.length) (hj : j ≤ new.length) :
    lcsTable old new i j = common (old.drop i) (new.drop j) := by
  have hfilled : Filled old new (lcsTable old new) 0 0 := by
    refine fillRows_filled ?_ (fun _ _ _ => rfl) (Nat.le_refl _)
    intro i' j' hi' _ hlater
    obtain rfl : i' = old.length := by omega
    rw [List.drop_length, common_nil_left]
  exact hfilled i j hi hj (by omega)

/-! ### What the walk finds -/

/-- The lines added to one text and removed from the other leave a longest common subsequence. -/
structure Diff (old new added removed : List α) (rest : List α) : Prop where
  added : Without new added rest
  removed : Without old removed rest
  length : rest.length = common old new

/-- From any two lines on, the walk finds such a difference of the rest. -/
lemma walk_spec (old new : List α) {rounds : ℕ} (added removed : List α) (hi : i ≤ old.length)
    (hj : j ≤ new.length) (hrounds : old.length - i + (new.length - j) < rounds) :
    ∃ a r rest, walk old new (lcsTable old new) rounds i j added removed =
      some (added ++ a, removed ++ r) ∧ Diff (old.drop i) (new.drop j) a r rest := by
  induction rounds generalizing i j added removed with
  | zero => omega
  | succ rounds ih =>
    rw [walk]
    by_cases hmore : i < old.length ∨ j < new.length
    · rw [if_pos hmore]
      by_cases hsame : i < old.length ∧ j < new.length ∧ old[i]? = new[j]?
      · -- equal lines are taken
        rw [if_pos hsame]
        obtain ⟨hi', hj', heq⟩ := hsame
        obtain ⟨a, r, rest, hwalk, hdiff⟩ := ih added removed hi' hj' (by omega)
        rw [List.getElem?_eq_getElem hi', List.getElem?_eq_getElem hj'] at heq
        have hline := Option.some.inj heq
        refine ⟨a, r, old[i] :: rest, hwalk, ?_, ?_, ?_⟩
        · rw [List.drop_eq_getElem_cons hj', ← hline]
          exact .keep _ hdiff.added
        · rw [List.drop_eq_getElem_cons hi']
          exact .keep _ hdiff.removed
        · rw [List.drop_eq_getElem_cons hi', List.drop_eq_getElem_cons hj', hline, common_of_eq,
            List.length_cons, hdiff.length]
      · rw [if_neg hsame]
        by_cases hright : j < new.length ∧ (i = old.length ∨
            lcsTable old new (i + 1) j ≤ lcsTable old new i (j + 1))
        · -- the next line of the new text is left out
          rw [if_pos hright]
          obtain ⟨hj', hlarger⟩ := hright
          rw [List.getElem?_eq_getElem hj']
          obtain ⟨a, r, rest, hwalk, hdiff⟩ := ih (added ++ [new[j]]) removed hi hj' (by omega)
          refine ⟨new[j] :: a, r, rest, ?_, ?_, hdiff.removed, ?_⟩
          · simp only [hwalk, List.append_assoc, List.singleton_append]
          · rw [List.drop_eq_getElem_cons hj']
            exact .delete _ hdiff.added
          · rw [hdiff.length]
            rcases hlarger with rfl | hlarger
            · rw [List.drop_length, common_nil_left, common_nil_left]
            · by_cases hi' : i < old.length
              · rw [lcsTable_eq hi' hj, lcsTable_eq hi hj'] at hlarger
                have hne : old[i] ≠ new[j] := by
                  intro heq
                  refine hsame ⟨hi', hj', ?_⟩
                  rw [List.getElem?_eq_getElem hi', List.getElem?_eq_getElem hj', heq]
                rw [List.drop_eq_getElem_cons hi', List.drop_eq_getElem_cons hj',
                  common_of_ne hne, ← List.drop_eq_getElem_cons hi',
                  ← List.drop_eq_getElem_cons hj', Nat.max_eq_right hlarger]
              · obtain rfl : i = old.length := by omega
                rw [List.drop_length, common_nil_left, common_nil_left]
        · -- the next line of the old text is left out
          rw [if_neg hright]
          have hi' : i < old.length := by
            by_contra hend
            exact hright ⟨by omega, .inl (by omega)⟩
          rw [List.getElem?_eq_getElem hi']
          obtain ⟨a, r, rest, hwalk, hdiff⟩ := ih added (removed ++ [old[i]]) hi' hj (by omega)
          refine ⟨a, old[i] :: r, rest, ?_, hdiff.added, ?_, ?_⟩
          · simp only [hwalk, List.append_assoc, List.singleton_append]
          · rw [List.drop_eq_getElem_cons hi']
            exact .delete _ hdiff.removed
          · rw [hdiff.length]
            by_cases hj' : j < new.length
            · have hlarger : lcsTable old new i (j + 1) ≤ lcsTable old new (i + 1) j := by
                by_contra hnot
                exact hright ⟨hj', .inr (by omega)⟩
              rw [lcsTable_eq hi' hj, lcsTable_eq hi hj'] at hlarger
              have hne : old[i] ≠ new[j] := by
                intro heq
                refine hsame ⟨hi', hj', ?_⟩
                rw [List.getElem?_eq_getElem hi', List.getElem?_eq_getElem hj', heq]
              rw [List.drop_eq_getElem_cons hi', List.drop_eq_getElem_cons hj', common_of_ne hne,
                ← List.drop_eq_getElem_cons hi', ← List.drop_eq_getElem_cons hj',
                Nat.max_eq_left hlarger]
            · obtain rfl : j = new.length := by omega
              rw [List.drop_length, common_nil_right, common_nil_right]
    · obtain rfl : i = old.length := by omega
      obtain rfl : j = new.length := by omega
      rw [if_neg hmore]
      refine ⟨[], [], [], by rw [List.append_nil, List.append_nil], ?_⟩
      rw [List.drop_length, List.drop_length]
      exact ⟨.nil, .nil, (common_nil_left _).symm⟩

end Diff

/-! ### The diff -/

/-- The lines of two texts differ by those added and those removed. -/
structure LineDiff (before after : List Char) (added removed : List (List Char)) : Prop where
  /-- Below the limit, what is left of both texts is one longest common subsequence. -/
  longest : (Text.lines before).length * (Text.lines after).length ≤ MAX_DIFF_CELLS →
    ∃ rest, Without (Text.lines after) added rest ∧ Without (Text.lines before) removed rest ∧
      Longest (Text.lines before) (Text.lines after) rest
  /-- Nothing is reported exactly if the lines are equal. -/
  empty_iff : (Text.lines before).length * (Text.lines after).length ≤ MAX_DIFF_CELLS →
    (added = [] ∧ removed = [] ↔ Text.lines before = Text.lines after)
  /-- Above the limit, all lines are reported. -/
  above : MAX_DIFF_CELLS < (Text.lines before).length * (Text.lines after).length →
    added = Text.lines after ∧ removed = Text.lines before

/-- A longest common subsequence of a text with itself leaves nothing out. -/
lemma deleted_of_self {α : Type} {a d s : List α} (h : Without a d s) (hlongest : Longest a a s) :
    d = [] := by
  have hlength := h.length_eq
  have hle := hlongest.longest a (List.Sublist.refl a) (List.Sublist.refl a)
  exact List.length_eq_zero_iff.1 (by omega)

/-- The line diff is exact. -/
theorem changedLines_exact (before after : List Char) : ∃ added removed,
    changedLines before after = some (added, removed) ∧ LineDiff before after added removed := by
  unfold changedLines changed
  by_cases habove : MAX_DIFF_CELLS <
      min ((Text.lines before).length * (Text.lines after).length) (2 ^ 64 - 1)
  · rw [if_pos habove]
    unfold MAX_DIFF_CELLS at habove
    refine ⟨_, _, rfl, ?_, ?_, fun _ => ⟨rfl, rfl⟩⟩
    · unfold MAX_DIFF_CELLS
      intro hbelow
      omega
    · unfold MAX_DIFF_CELLS
      intro hbelow
      omega
  · rw [if_neg habove]
    unfold MAX_DIFF_CELLS at habove
    obtain ⟨a, r, rest, hwalk, hdiff⟩ := walk_spec (Text.lines before)
      (Text.lines after) [] [] (Nat.zero_le _) (Nat.zero_le _) (Nat.lt_succ_self _)
    have hlongest : Longest (Text.lines before) (Text.lines after) rest :=
      .of_without hdiff.removed hdiff.added hdiff.length
    refine ⟨a, r, hwalk, fun _ => ⟨rest, hdiff.added, hdiff.removed, hlongest⟩, fun _ => ?_, ?_⟩
    · constructor
      · rintro ⟨rfl, rfl⟩
        have hafter : Text.lines after = rest := hdiff.added.eq_of_nil
        have hbefore : Text.lines before = rest := hdiff.removed.eq_of_nil
        rw [hafter, hbefore]
      · intro heq
        have hself := heq ▸ hlongest
        exact ⟨deleted_of_self hdiff.added hself,
          deleted_of_self (heq ▸ hdiff.removed) hself⟩
    · unfold MAX_DIFF_CELLS
      intro hlarge
      omega

end AgentCoordinator.Privilege
