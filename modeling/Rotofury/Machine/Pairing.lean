import Mathlib.Data.List.Basic
import Mathlib.Logic.Function.Basic
import Mathlib.Order.Basic

/-! # A table of lists and its shadow

Each key has a list in a table and a list in the shadow of the table. They are paired when the entries at one index of the
two were made by one call, the calls of a list in the order in which they were made. Appending to both, dropping the same
indices from both and rewriting entries of the table keep the two paired; a list that runs empty is no longer stored.
-/

namespace Machine

variable {κ α β γ : Type}

/-- What one call has made in the table and in its shadow. -/
structure Made (α β : Type) where
  call : ℕ
  entry : α
  shadow : β

/-- Only lists with entries are stored. -/
def stored (list : List γ) : Option (List γ) := if list = [] then none else some list

@[simp]
theorem stored_getD (list : List γ) : (stored list).getD [] = list := by
  unfold stored
  split
  · next none => exact none.symm
  · rfl

theorem stored_eq_some_iff {list found : List γ} : stored list = some found ↔ list = found ∧ list ≠ [] := by
  unfold stored
  split
  · next none => simp [none]
  · next some => simp [some]

theorem stored_concat (list : List γ) (last : γ) : stored (list ++ [last]) = some (list ++ [last]) :=
  stored_eq_some_iff.mpr ⟨rfl, by simp⟩

/-- A list and its shadow were made by the same calls; `clock` is the number of calls so far. -/
structure PairedAt (created : ℕ → α → β → Prop) (clock : ℕ) (record : Option (List α)) (shadow : Option (List β))
    (made : List (Made α β)) : Prop where
  record_eq : record = stored (made.map Made.entry)
  shadow_eq : shadow = stored (made.map Made.shadow)
  ordered : made.Pairwise fun earlier later => earlier.call < later.call
  past : ∀ item ∈ made, item.call < clock
  created : ∀ item ∈ made, created item.call item.entry item.shadow

def Paired (created : ℕ → κ → α → β → Prop) (clock : ℕ) (table : κ → Option (List α)) (shadows : κ → Option (List β)) :
    Prop :=
  ∀ key, ∃ made, PairedAt (fun call => created call key) clock (table key) (shadows key) made

namespace Paired

theorem empty (created : ℕ → κ → α → β → Prop) (clock : ℕ) : Paired created clock (fun _ => none) fun _ => none :=
  fun _ => ⟨[], rfl, rfl, List.Pairwise.nil, by simp, by simp⟩

variable {created : ℕ → κ → α → β → Prop} {clock : ℕ} {table : κ → Option (List α)} {shadows : κ → Option (List β)}
  (paired : Paired created clock table shadows)

include paired

theorem mono {extended : ℕ → κ → α → β → Prop} {later : ℕ} (sooner : clock ≤ later)
    (still : ∀ call key entry shadow, created call key entry shadow → extended call key entry shadow) :
    Paired extended later table shadows := by
  intro key
  obtain ⟨made, record, shadow, ordered, past, origin⟩ := paired key
  exact ⟨made, record, shadow, ordered, fun item inside => Nat.lt_of_lt_of_le (past item inside) sooner,
    fun item inside => still _ key _ _ (origin item inside)⟩

theorem lengths (key : κ) : ((table key).getD []).length = ((shadows key).getD []).length := by
  obtain ⟨made, here⟩ := paired key
  simp [here.record_eq, here.shadow_eq]

/-- A stored list has a stored shadow of its length. -/
theorem shadow_of_some {key : κ} {list : List α} (found : table key = some list) :
    ∃ shadow, shadows key = some shadow ∧ shadow.length = list.length := by
  obtain ⟨made, here⟩ := paired key
  rw [here.record_eq, stored_eq_some_iff] at found
  obtain ⟨rfl, nonempty⟩ := found
  refine ⟨made.map Made.shadow, ?_, by simp⟩
  rw [here.shadow_eq, stored_eq_some_iff]
  exact ⟨rfl, by simpa using nonempty⟩

/-- A list is stored exactly when its shadow is, and the two have one length. -/
theorem map_length (key : κ) : (shadows key).map List.length = (table key).map List.length := by
  obtain ⟨made, here⟩ := paired key
  rw [here.record_eq, here.shadow_eq]
  cases made <;> simp [stored]

variable [DecidableEq κ]

/-- What is written under one key is paired where it is paired itself. -/
theorem update {key : κ} {record : Option (List α)} {shadow : Option (List β)} (made : List (Made α β))
    (here : PairedAt (fun call => created call key) clock record shadow made) :
    Paired created clock (Function.update table key record) (Function.update shadows key shadow) := by
  intro query
  by_cases same : query = key
  · subst same
    exact ⟨made, by simpa using here⟩
  · simpa only [Function.update_of_ne same] using paired query

/-- The next call appends to both lists. -/
theorem append {key : κ} {entry : α} {shadow : β} (origin : created clock key entry shadow) :
    Paired created (clock + 1) (Function.update table key (some ((table key).getD [] ++ [entry])))
      (Function.update shadows key (some ((shadows key).getD [] ++ [shadow]))) := by
  obtain ⟨made, here⟩ := paired key
  have waited : Paired created (clock + 1) table shadows := paired.mono (Nat.le_succ clock) fun _ _ _ _ => id
  refine waited.update (made ++ [⟨clock, entry, shadow⟩]) ⟨?_, ?_, ?_, ?_, ?_⟩
  · rw [here.record_eq, stored_getD, List.map_append, List.map_singleton, stored_concat]
  · rw [here.shadow_eq, stored_getD, List.map_append, List.map_singleton, stored_concat]
  · refine List.pairwise_append.mpr ⟨here.ordered, List.pairwise_singleton _ _, fun item inside last member => ?_⟩
    rw [List.mem_singleton.mp member]
    exact here.past item inside
  · intro item inside
    rcases List.mem_append.mp inside with old | new
    · exact Nat.lt_succ_of_lt (here.past item old)
    · rw [List.mem_singleton.mp new]
      exact Nat.lt_succ_self clock
  · intro item inside
    rcases List.mem_append.mp inside with old | new
    · exact here.created item old
    · rw [List.mem_singleton.mp new]
      exact origin

/-- The same indices are dropped from both lists. -/
theorem keep {key : κ} {list : List α} {shadow : List β} (found : table key = some list) (other : shadows key = some shadow)
    (kept : α → Bool) :
    Paired created clock
      (Function.update table key (stored (((list.zip shadow).filter fun pair => kept pair.1).map Prod.fst)))
      (Function.update shadows key (stored (((list.zip shadow).filter fun pair => kept pair.1).map Prod.snd))) := by
  obtain ⟨made, here⟩ := paired key
  rw [here.record_eq, stored_eq_some_iff] at found
  rw [here.shadow_eq, stored_eq_some_iff] at other
  obtain ⟨rfl, _⟩ := found
  obtain ⟨rfl, _⟩ := other
  have pairs : ((made.map Made.entry).zip (made.map Made.shadow)).filter (fun pair => kept pair.1) =
      (made.filter fun item => kept item.entry).map fun item => (item.entry, item.shadow) := by
    rw [List.zip_map', List.filter_map]
    rfl
  refine paired.update (made.filter fun item => kept item.entry) ⟨?_, ?_, ?_, ?_, ?_⟩
  · rw [pairs, List.map_map]
    rfl
  · rw [pairs, List.map_map]
    rfl
  · exact here.ordered.filter _
  · exact fun item inside => here.past item (List.mem_of_mem_filter inside)
  · exact fun item inside => here.created item (List.mem_of_mem_filter inside)

/-- The entries of a list are rewritten; the shadow stays. -/
theorem revise {key : κ} {list : List α} (found : table key = some list) (change : α → α)
    (still : ∀ call entry shadow, created call key entry shadow → created call key (change entry) shadow) :
    Paired created clock (Function.update table key (some (list.map change))) shadows := by
  obtain ⟨made, here⟩ := paired key
  rw [here.record_eq, stored_eq_some_iff] at found
  obtain ⟨rfl, nonempty⟩ := found
  have revised : PairedAt (fun call => created call key) clock (some ((made.map Made.entry).map change)) (shadows key)
      (made.map fun item => { item with entry := change item.entry }) := by
    refine ⟨?_, ?_, ?_, ?_, ?_⟩
    · rw [List.map_map, List.map_map, eq_comm, stored_eq_some_iff]
      exact ⟨rfl, by simpa using nonempty⟩
    · rw [here.shadow_eq, List.map_map]
      rfl
    · exact List.pairwise_map.mpr here.ordered
    · exact List.forall_mem_map.mpr here.past
    · exact List.forall_mem_map.mpr fun item inside => still _ _ _ (here.created item inside)
  have written := paired.update _ revised
  rwa [Function.update_eq_self] at written

end Paired

end Machine
