import Mathlib

/-! # Sums over the records of a finite map

`AList.total` adds up one integer quantity over all records of a finite map. Replacing the record
of one key changes the total by the difference between the new record's quantity and the old one's,
where a key without a record contributes nothing.
-/

namespace AList

variable {α β : Type}

/-- The sum of one quantity over all records. -/
def total (records : AList (fun _ : α => β)) (quantity : α → β → ℤ) : ℤ :=
  (records.entries.map fun entry => quantity entry.1 entry.2).sum

@[simp]
theorem total_empty (quantity : α → β → ℤ) :
    (∅ : AList (fun _ : α => β)).total quantity = 0 := rfl

theorem total_natCast (records : AList (fun _ : α => β)) (quantity : α → β → ℕ) :
    records.total (fun key value => quantity key value) =
      ((records.entries.map fun entry => quantity entry.1 entry.2).sum : ℕ) := by
  rw [total, Nat.cast_list_sum, List.map_map]
  rfl

variable [DecidableEq α]

/-- What the record of one key contributes to a total. -/
def share (records : AList (fun _ : α => β)) (quantity : α → β → ℤ) (key : α) : ℤ :=
  ((records.lookup key).map (quantity key)).getD 0

private theorem sum_kerase (quantity : α → β → ℤ) (key : α) (entries : List (Sigma fun _ : α => β)) :
    ((entries.kerase key).map fun entry => quantity entry.1 entry.2).sum =
      (entries.map fun entry => quantity entry.1 entry.2).sum -
        ((entries.dlookup key).map (quantity key)).getD 0 := by
  induction entries with
  | nil => simp
  | cons entry rest ih =>
    obtain ⟨entryKey, entryValue⟩ := entry
    by_cases same : key = entryKey
    · subst same
      simp
    · rw [List.kerase_cons_ne same, List.dlookup_cons_ne _ _ same]
      simp only [List.map_cons, List.sum_cons, ih]
      ring

/-- Writing one record moves the total by that record's change. -/
theorem total_insert (records : AList (fun _ : α => β)) (quantity : α → β → ℤ) (key : α) (value : β) :
    (records.insert key value).total quantity =
      records.total quantity - records.share quantity key + quantity key value := by
  simp only [total, share, AList.entries_insert, List.map_cons, List.sum_cons, sum_kerase, AList.lookup]
  ring

/-- Removing a record takes what it contributes. -/
theorem total_erase (records : AList (fun _ : α => β)) (quantity : α → β → ℤ) (key : α) :
    (records.erase key).total quantity = records.total quantity - records.share quantity key := by
  exact sum_kerase quantity key records.entries

theorem share_of_lookup {records : AList (fun _ : α => β)} {quantity : α → β → ℤ} {key : α} {value : β}
    (found : records.lookup key = some value) : records.share quantity key = quantity key value := by
  simp [share, found]

theorem share_of_absent {records : AList (fun _ : α => β)} {quantity : α → β → ℤ} {key : α}
    (absent : records.lookup key = none) : records.share quantity key = 0 := by
  simp [share, absent]

theorem share_nonneg {records : AList (fun _ : α => β)} (quantity : α → β → ℤ)
    (nonneg : ∀ key value, records.lookup key = some value → 0 ≤ quantity key value) (key : α) :
    0 ≤ records.share quantity key := by
  rcases found : records.lookup key with _ | value
  · rw [share_of_absent found]
  · rw [share_of_lookup found]
    exact nonneg key value found

theorem total_insert_le {quantity : α → β → ℤ} (nonneg : ∀ key value, 0 ≤ quantity key value)
    (records : AList (fun _ : α => β)) (key : α) (value : β) :
    (records.insert key value).total quantity ≤ records.total quantity + quantity key value := by
  have replaced := records.share_nonneg quantity (fun key value _ => nonneg key value) key
  rw [total_insert]
  linarith

theorem lookup_insert_eq_ite (records : AList (fun _ : α => β)) (key query : α) (value : β) :
    (records.insert key value).lookup query = if query = key then some value else records.lookup query := by
  split
  · next same => subst same; exact AList.lookup_insert records
  · next other => exact AList.lookup_insert_ne other

theorem lookup_insert_eq_update (records : AList (fun _ : α => β)) (key : α) (value : β) :
    (fun query => (records.insert key value).lookup query) =
      Function.update (fun query => records.lookup query) key (some value) := by
  funext query
  rw [lookup_insert_eq_ite, Function.update_apply]

/-- What holds of a record and of all others holds after the record is written. -/
theorem forall_lookup_insert {records : AList (fun _ : α => β)} {property : α → β → Prop} {key : α} {value : β}
    (here : property key value) (others : ∀ query found, records.lookup query = some found → property query found) :
    ∀ query found, (records.insert key value).lookup query = some found → property query found := by
  intro query found lookup
  rw [lookup_insert_eq_ite] at lookup
  split at lookup
  · next same =>
    cases lookup
    exact same ▸ here
  · exact others query found lookup

/-- Writing a record whose quantity differs by `change` from what the key contributed before. -/
theorem total_insert_of_share {records : AList (fun _ : α => β)} {quantity : α → β → ℤ} {key : α} {value : β}
    {change : ℤ} (changed : quantity key value = records.share quantity key + change) :
    (records.insert key value).total quantity = records.total quantity + change := by
  rw [total_insert, changed]
  ring

theorem share_insert (records : AList (fun _ : α => β)) (quantity : α → β → ℤ) (key query : α) (value : β) :
    (records.insert key value).share quantity query =
      if query = key then quantity key value else records.share quantity query := by
  simp only [share, lookup_insert_eq_ite]
  split
  · next same => subst same; rfl
  · rfl

theorem share_erase (records : AList (fun _ : α => β)) (quantity : α → β → ℤ) (key query : α) :
    (records.erase key).share quantity query = if query = key then 0 else records.share quantity query := by
  unfold share
  split
  · next same =>
    subst same
    rw [AList.lookup_erase]
    rfl
  · next other => rw [AList.lookup_erase_ne other]

/-- The total of a quantity that only one key has is what that key contributes. -/
theorem total_eq_share {records : AList (fun _ : α => β)} {quantity : α → β → ℤ} {key : α}
    (only : ∀ other value, other ≠ key → quantity other value = 0) : records.total quantity = records.share quantity key := by
  have rest : (records.erase key).total quantity = 0 := by
    apply List.sum_eq_zero
    intro amount member
    obtain ⟨entry, inside, rfl⟩ := List.mem_map.mp member
    apply only
    rintro rfl
    have kept : entry.1 ∈ records.erase entry.1 := AList.mem_keys.mpr (List.mem_map_of_mem inside)
    exact absurd rfl (AList.mem_erase.mp kept).1
  have erased := total_erase records quantity key
  omega

section Nonneg

variable {records : AList (fun _ : α => β)} {quantity : α → β → ℤ}
  (nonneg : ∀ key value, records.lookup key = some value → 0 ≤ quantity key value)
include nonneg

/-- No record contributes more than the total of nonnegative quantities. -/
theorem share_le_total (key : α) : records.share quantity key ≤ records.total quantity := by
  have rest : 0 ≤ ((records.entries.kerase key).map fun entry => quantity entry.1 entry.2).sum := by
    apply List.sum_nonneg
    intro amount member
    obtain ⟨entry, inside, rfl⟩ := List.mem_map.mp member
    exact nonneg entry.1 entry.2 (AList.mem_lookup_iff.mpr ((List.kerase_sublist key records.entries).subset inside))
  rw [sum_kerase] at rest
  simp only [share, total, AList.lookup]
  omega

theorem total_nonneg : 0 ≤ records.total quantity := by
  apply List.sum_nonneg
  intro amount member
  obtain ⟨entry, inside, rfl⟩ := List.mem_map.mp member
  exact nonneg entry.1 entry.2 (AList.mem_lookup_iff.mpr inside)

end Nonneg

/-! ## Properties of all records of a finite map

A property that holds of every record is kept by writing one more record that has it, and so by every loop that only
writes such records.
-/

variable {γ : Type}

/-- Every record has the property. -/
def All (records : AList (fun _ : α => β)) (property : β → Prop) : Prop :=
  ∀ key value, records.lookup key = some value → property value

theorem all_empty (property : β → Prop) : (∅ : AList (fun _ : α => β)).All property := by
  intro key value found
  simp at found

theorem All.insert {records : AList (fun _ : α => β)} {property : β → Prop} (all : records.All property) (key : α)
    {value : β} (holds : property value) : (records.insert key value).All property :=
  forall_lookup_insert holds all

/-- A loop whose body keeps the property of all records keeps it to the end. -/
theorem All.foldl {records : AList (fun _ : α => β)} {property : β → Prop} (all : records.All property)
    {items : List γ} {body : AList (fun _ : α => β) → γ → AList (fun _ : α => β)}
    (keeps : ∀ before, before.All property → ∀ item ∈ items, (body before item).All property) :
    (items.foldl body records).All property :=
  List.foldlRecOn items body all keeps

theorem All.of_mem {records : AList (fun _ : α => β)} {property : β → Prop} (all : records.All property)
    {entry : Sigma fun _ : α => β} (member : entry ∈ records.entries) : property entry.2 :=
  all entry.1 entry.2 (mem_lookup_iff.mpr member)

end AList
